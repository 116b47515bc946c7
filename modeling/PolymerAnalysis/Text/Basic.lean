namespace PolymerAnalysis

/-- A Unicode code point, surrogates included: an escape in a script can name half of a pair. -/
structure CodePoint where
  val : Nat
  isLt : val < 0x110000
deriving DecidableEq

namespace CodePoint

def ofChar (c : Char) : CodePoint where
  val := c.toNat
  isLt := by
    have h := c.valid
    simp only [UInt32.isValidChar, Nat.isValidChar] at h
    simp only [Char.toNat]
    omega

instance : Coe Char CodePoint := ⟨ofChar⟩

instance : Inhabited CodePoint := ⟨ofChar ' '⟩

def ofNat? (n : Nat) : Option CodePoint :=
  if h : n < 0x110000 then some ⟨n, h⟩ else none

def replacement : CodePoint := ⟨0xFFFD, by decide⟩

def isSurrogate (c : CodePoint) : Bool := 0xD800 ≤ c.val && c.val ≤ 0xDFFF

def isDigit (c : CodePoint) : Bool := 0x30 ≤ c.val && c.val ≤ 0x39

def isUpper (c : CodePoint) : Bool := 0x41 ≤ c.val && c.val ≤ 0x5A

def isLower (c : CodePoint) : Bool := 0x61 ≤ c.val && c.val ≤ 0x7A

def isLetter (c : CodePoint) : Bool := c.isUpper || c.isLower

def utf8Size (c : CodePoint) : Nat :=
  if c.val < 0x80 then 1 else if c.val < 0x800 then 2 else if c.val < 0x10000 then 3 else 4

theorem utf8Size_pos (c : CodePoint) : 0 < c.utf8Size := by
  unfold utf8Size
  split <;> (try split) <;> (try split) <;> decide

def digitValue? (c : CodePoint) (base : Nat) : Option Nat :=
  let v? :=
    if c.isDigit then some (c.val - 0x30)
    else if c.isUpper then some (c.val - 0x41 + 10)
    else if c.isLower then some (c.val - 0x61 + 10)
    else none
  v?.filter (· < base)

end CodePoint

abbrev Text := List CodePoint

namespace Text

def ofString (s : String) : Text := s.toList.map .ofChar

instance : Coe String Text := ⟨ofString⟩

def toString? (t : Text) : Option String :=
  if t.any (·.isSurrogate) then none
  else some (String.ofList (t.map fun c ↦ Char.ofNat c.val))

def startsWith (t p : Text) : Bool := p.isPrefixOf t

def endsWith (t p : Text) : Bool := p.isSuffixOf t

def isAmong (t : Text) (ts : List Text) : Bool := ts.any (· = t)

theorem isAmong_iff {t : Text} {ts : List Text} : isAmong t ts = true ↔ t ∈ ts := by
  simp [isAmong]

def includes : Text → Text → Bool
  | [], p => p.isEmpty
  | c :: cs, p => startsWith (c :: cs) p || includes cs p

def splitWhere (p : CodePoint → Bool) : Text → List Text
  | [] => [[]]
  | c :: cs =>
    if p c then [] :: splitWhere p cs
    else match splitWhere p cs with
      | [] => [[c]]
      | w :: ws => (c :: w) :: ws

def splitOn (t : Text) (separator : CodePoint) : List Text := splitWhere (· = separator) t

def lines (t : Text) : List Text := t.splitOn '\n'

def cut (t : Text) (separator : CodePoint) : Text × Option Text :=
  let before := t.takeWhile (· ≠ separator)
  (before, (t.dropWhile (· ≠ separator)).tail?)

def afterLast (t : Text) (separator : CodePoint) : Text :=
  (t.splitOn separator).getLastD []

def join (separator : Text) (ts : List Text) : Text := List.intercalate separator ts

def stripWhere (p : CodePoint → Bool) (t : Text) : Text :=
  ((t.dropWhile p).reverse.dropWhile p).reverse

def dropEndWhile (p : CodePoint → Bool) (t : Text) : Text :=
  (t.reverse.dropWhile p).reverse

def replaceAll (t : Text) (old : CodePoint) (new : Text) : Text :=
  t.flatMap fun c ↦ if c = old then new else [c]

def le : Text → Text → Bool
  | [], _ => true
  | _ :: _, [] => false
  | a :: as, b :: bs => if a.val = b.val then le as bs else a.val < b.val

def sort (ts : List Text) : List Text := ts.mergeSort le

def inRanges (ranges : List (Nat × Nat)) (n : Nat) : Bool :=
  ranges.any fun r ↦ r.1 ≤ n && n ≤ r.2

end Text

end PolymerAnalysis
