import PolymerAnalysis.Binary64.Basic
import PolymerAnalysis.Text.Case
import PolymerAnalysis.Text.Numeral

namespace PolymerAnalysis.Binary64

def exponent? : Text → Option Int
  | [] => none
  | c :: cs =>
    if c = '-' then (Text.Numeral.value? 10 cs).map fun n ↦ -(n : Int)
    else if c = '+' then (Text.Numeral.value? 10 cs).map fun n ↦ (n : Int)
    else (Text.Numeral.value? 10 (c :: cs)).map fun n ↦ (n : Int)

/-- Reads `digits`, an optional point with more digits, and an optional exponent; one of the two
digit runs may be empty. -/
def unsigned? (negative : Bool) (t : Text) : Option Binary64 := do
  let whole := t.takeWhile (·.isDigit)
  let rest := t.dropWhile (·.isDigit)
  let (part, rest) := match rest with
    | [] => (([] : Text), ([] : Text))
    | c :: cs => if c = '.' then (cs.takeWhile (·.isDigit), cs.dropWhile (·.isDigit)) else ([], c :: cs)
  let digits ← Text.Numeral.value? 10 (whole ++ part)
  let e ← match rest with
    | [] => some 0
    | c :: cs => if c = 'e' ∨ c = 'E' then exponent? cs else none
  pure (ofDecimal negative digits (e - (part.length : Int)))

def ofText? (t : Text) : Option Binary64 :=
  let (negative, body) : Bool × Text := match t with
    | [] => (false, [])
    | c :: cs => if c = '-' then (true, cs) else if c = '+' then (false, cs) else (false, c :: cs)
  let name := Text.lower body
  if name = "inf" ∨ name = "infinity" then some (.infinite negative)
  else if name = "nan" then some .nan
  else unsigned? negative body

end PolymerAnalysis.Binary64
