import PolymerAnalysis.Binary64.Basic
import PolymerAnalysis.Text.Numeral

namespace PolymerAnalysis.Binary64

/-- The open or closed interval of the reals that round to a number, in quarter units. -/
structure Interval where
  low : Nat
  high : Nat
  closed : Bool

/-- The interval of `m * 2 ^ p` units; below a power of two the neighbour is half as far. -/
def interval (m p : Nat) : Interval where
  low := (4 * m) <<< p - (if m = leastNormal ∧ p ≠ 0 then 1 <<< p else 2 <<< p)
  high := (4 * m) <<< p + 2 <<< p
  closed := m % 2 = 0

def Interval.contains (i : Interval) (num den : Nat) : Bool :=
  if i.closed then i.low * den ≤ num && num ≤ i.high * den
  else i.low * den < num && num < i.high * den

def leadingExponent (num den : Nat) : Int :=
  if den ≤ num then (Nat.toDigits 10 (num / den)).length - 1
  else
    let size := (Nat.toDigits 10 (den / num)).length
    if den = num * Nat.pow 10 (size - 1) then 1 - (size : Int) else -(size : Int)

structure Decimal where
  digits : Nat
  exponent : Int
deriving DecidableEq

/-- The nearest of the two neighbours of `m * 2 ^ p` units on the grid of `count` significant digits,
among those that round back; of two equally near ones the even one. -/
def decimalOfSize? (m p : Nat) (leading : Int) (count : Nat) : Option Decimal :=
  let e : Int := leading - count + 1
  let up := if 0 ≤ e then Nat.pow 10 e.toNat else 1
  let down := if 0 ≤ e then 1 else Nat.pow 10 (-e).toNat
  let num := m <<< p * down
  let den := scale * up
  let d := num / den
  let fits (k : Nat) : Bool := (interval m p).contains (4 * scale * (k * up)) down
  let below := fits d
  let above := fits (d + 1)
  let r := num % den
  if below && above then
    if 2 * r < den ∨ (2 * r = den ∧ d % 2 = 0) then some ⟨d, e⟩ else some ⟨d + 1, e⟩
  else if below then some ⟨d, e⟩
  else if above then some ⟨d + 1, e⟩
  else none

/-- The shortest numeral that reads back as `m * 2 ^ p` units, and the nearest of those. -/
def shortest (m p : Nat) : Decimal :=
  let leading := leadingExponent (m <<< p) scale
  ((List.range 17).findSome? fun n ↦ decimalOfSize? m p leading (n + 1)).getD ⟨m <<< p, -1074⟩

def Decimal.significant (d : Decimal) : Text × Int :=
  let digits := Text.Numeral.ofNat d.digits
  (digits.dropEndWhile (fun c ↦ c = '0'), d.exponent + (digits.length : Int) - 1)

/-- Positional from `10 ^ -4` up to `10 ^ 16`, and then always with a fractional part; elsewhere with an
exponent of two digits at least. -/
def layout (digits : Text) (leading : Int) : Text :=
  let zeros (n : Int) : Text := List.replicate n.toNat (.ofChar '0')
  if -4 ≤ leading ∧ leading < 16 then
    if leading < 0 then "0." ++ zeros (-leading - 1) ++ digits
    else
      let whole : Text := digits.take (leading.toNat + 1)
      let part : Text := digits.drop (leading.toNat + 1)
      whole ++ zeros (leading + 1 - (whole.length : Int)) ++ "." ++
        (if part.isEmpty then "0" else part : Text)
  else
    let mantissa : Text := digits.take 1 ++ (if digits.length ≤ 1 then [] else "." ++ digits.drop 1 : Text)
    let sign : Text := if leading < 0 then "-" else "+"
    mantissa ++ "e" ++ sign ++ Text.Numeral.padded 2 (Text.Numeral.ofNat leading.natAbs)

def toText : Binary64 → Text
  | .nan => "nan"
  | .infinite s => if s then "-inf" else "inf"
  | .finite s m p =>
    let body : Text := if m = 0 then "0.0" else
      let (digits, leading) := (shortest m p).significant
      layout digits leading
    if s then '-' :: body else body

end PolymerAnalysis.Binary64
