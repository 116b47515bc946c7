import PolymerAnalysis.Text.Basic
import PolymerAnalysis.Text.CaseTable

namespace PolymerAnalysis.Text.Case

open CaseTable

def Run.contains (r : Run) (n : Nat) : Bool :=
  r.first ≤ n && n ≤ r.last && (n - r.first) % r.stride == 0

def image (expansions : List (Nat × List Nat)) (runs : List Run) (c : CodePoint) : Text :=
  match expansions.lookup c.val with
  | some ns => ns.filterMap CodePoint.ofNat?
  | none =>
    match runs.find? (Run.contains · c.val) with
    | some r => [(CodePoint.ofNat? (r.target + (c.val - r.first))).getD c]
    | none => [c]

def isIgnorable (c : CodePoint) : Bool := inRanges ignorableRanges c.val

def isCased (c : CodePoint) : Bool := inRanges casedRanges c.val

/-- Whether the nearest code point that counts for casing is a cased one. -/
def meetsCased (t : Text) : Bool :=
  match t.dropWhile isIgnorable with
  | [] => false
  | c :: _ => isCased c

/-- A capital sigma ends a word if it follows a cased letter and precedes none. -/
def sigma (before after : Text) : CodePoint :=
  if meetsCased before && !meetsCased after then 'ς' else 'σ'

/-- The lower case of `t`, which comes after `before` read backwards. -/
def lowerAfter (before : Text) : Text → Text
  | [] => []
  | c :: cs =>
    (if c = 'Σ' then [sigma before cs]
      else if c.val < 0x80 then (if c.isUpper then [(CodePoint.ofNat? (c.val + 32)).getD c] else [c])
      else image lowerExpansions lowerRuns c) ++ lowerAfter (c :: before) cs

end PolymerAnalysis.Text.Case

namespace PolymerAnalysis.Text

def lower (t : Text) : Text := Case.lowerAfter [] t

def upper (t : Text) : Text :=
  t.flatMap fun c ↦
    if c.val < 0x80 then (if c.isLower then [(CodePoint.ofNat? (c.val - 32)).getD c] else [c])
    else Case.image CaseTable.upperExpansions CaseTable.upperRuns c

end PolymerAnalysis.Text
