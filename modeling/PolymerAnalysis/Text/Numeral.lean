import PolymerAnalysis.Text.Basic

namespace PolymerAnalysis.Text.Numeral

/-- The longest decimal numeral that is read as an integer or written for one. -/
def digitLimit : Nat := 4300

inductive LimitError where
  | writing
  | reading (digits : Nat)
deriving DecidableEq

def ofNat (n : Nat) : Text := (Nat.toDigits 10 n).map .ofChar

def ofInt (n : Int) : Text :=
  if n < 0 then '-' :: ofNat n.natAbs else ofNat n.natAbs

def limitExceeded : Text := "Exceeds the limit (4300 digits) for integer string conversion"

def limitRemedy : Text := "; use sys.set_int_max_str_digits() to increase the limit"

def LimitError.message : LimitError → Text
  | .writing => limitExceeded ++ limitRemedy
  | .reading digits => limitExceeded ++ ": value has " ++ ofNat digits ++ " digits" ++ limitRemedy

def write (n : Int) : Except LimitError Text :=
  let digits := ofNat n.natAbs
  if digits.length > digitLimit then .error .writing
  else .ok (if n < 0 then '-' :: digits else digits)

def valueFrom (base : Nat) (start : Nat) : Text → Option Nat
  | [] => some start
  | c :: cs => (c.digitValue? base).bind fun d ↦ valueFrom base (start * base + d) cs

def value? (base : Nat) (t : Text) : Option Nat :=
  if t.isEmpty then none else valueFrom base 0 t

def read (t : Text) : Except LimitError (Option Nat) :=
  match value? 10 t with
  | none => .ok none
  | some n => if t.length > digitLimit then .error (.reading t.length) else .ok (some n)

def padded (width : Nat) (t : Text) : Text := List.replicate (width - t.length) (.ofChar '0') ++ t

def hex (width n : Nat) : Text := padded width ((Nat.toDigits 16 n).map .ofChar)

end PolymerAnalysis.Text.Numeral
