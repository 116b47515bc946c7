namespace PolymerAnalysis

/-- A binary64 number. A finite one has magnitude `mantissa * 2 ^ exponent` in units of `2 ^ -1074`. -/
inductive Binary64 where
  | finite (negative : Bool) (mantissa exponent : Nat)
  | infinite (negative : Bool)
  | nan
deriving DecidableEq, Inhabited

namespace Binary64

def scale : Nat := 1 <<< 1074

def leastNormal : Nat := 0x10000000000000

/-- What every result of this library keeps: 53 bits at most, fewer only at the least exponent. -/
def IsCanonical : Binary64 → Prop
  | .finite _ m p => m < 2 * leastNormal ∧ (leastNormal ≤ m ∨ p = 0) ∧ p ≤ 2045
  | _ => True

/-- The quotient rounded to the nearest integer, a tie to the even one. -/
def divNearest (a d : Nat) : Nat :=
  let q := a / d
  let r := a % d
  if 2 * r < d then q else if d < 2 * r then q + 1 else q + q % 2

/-- The number nearest to `num / den` units, a tie going to the even mantissa. -/
def ofUnits (negative : Bool) (num den : Nat) : Binary64 :=
  let q := num / den
  let p := if q < 2 * leastNormal then 0 else q.log2 - 52
  let m := divNearest num (den <<< p)
  let (m, p) := if m = 2 * leastNormal then (leastNormal, p + 1) else (m, p)
  if p > 2045 then .infinite negative else .finite negative m p

def ofRatio (negative : Bool) (num den : Nat) : Binary64 := ofUnits negative (num * scale) den

def ofInt (n : Int) : Binary64 := ofRatio (n < 0) n.natAbs 1

def zero : Binary64 := .finite false 0 0

/-- The number nearest to `digits * 10 ^ exponent`; exponents far out of range are not computed. -/
def ofDecimal (negative : Bool) (digits : Nat) (exponent : Int) : Binary64 :=
  let size : Int := (Nat.toDigits 10 digits).length
  if digits = 0 ∨ size + exponent < -330 then .finite negative 0 0
  else if size + exponent > 310 then .infinite negative
  else if 0 ≤ exponent then ofRatio negative (digits * Nat.pow 10 exponent.toNat) 1
  else ofRatio negative digits (Nat.pow 10 (-exponent).toNat)

def isNegative : Binary64 → Bool
  | .finite s _ _ => s
  | .infinite s => s
  | .nan => false

def isFinite : Binary64 → Bool
  | .finite .. => true
  | _ => false

def units? : Binary64 → Option Int
  | .finite s m p => some (if s then -((m <<< p : Nat) : Int) else (m <<< p : Nat))
  | _ => none

def isZero (x : Binary64) : Bool := x.units? == some 0

/-- Numerical equality: both zeros are one number, and `nan` equals nothing. -/
def equals (x y : Binary64) : Bool :=
  match x, y with
  | .nan, _ => false
  | _, .nan => false
  | .infinite s, .infinite t => s == t
  | _, _ => x.isFinite && y.isFinite && x.units? == y.units?

def equalsInt (x : Binary64) (n : Int) : Bool := x.units? == some (n * scale)

def lessThanInt (x : Binary64) (n : Int) : Bool :=
  match x with
  | .nan => false
  | .infinite s => s
  | .finite .. => match x.units? with
    | some u => u < n * scale
    | none => false

def isInteger (x : Binary64) : Bool :=
  match x.units? with
  | some u => u % scale == 0
  | none => false

def ceil? (x : Binary64) : Option Int := x.units?.map fun u ↦ -((-u) / (scale : Int))

end Binary64

end PolymerAnalysis
