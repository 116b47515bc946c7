import PolymerAnalysis.Html.ReferenceTable
import PolymerAnalysis.Text.Blank
import PolymerAnalysis.Text.Numeral

namespace PolymerAnalysis.Html

def readEntry (entry : Text) : Text × Text :=
  let (name, points) := Text.cut entry '='
  (name, ((points.getD []).splitOn '+').filterMap fun p ↦ (Text.Numeral.value? 16 p).bind CodePoint.ofNat?)

def references : List (Text × Text) :=
  ReferenceTable.entries.flatMap fun line ↦ (Text.words (Text.ofString line)).map readEntry

/-- What the numbers from 0x80 on stood for in an older character set. -/
def legacyPoints : List (Nat × Nat) :=
  [(0x00, 0xFFFD), (0x0D, 0x0D), (0x80, 0x20AC), (0x81, 0x81), (0x82, 0x201A), (0x83, 0x192),
    (0x84, 0x201E), (0x85, 0x2026), (0x86, 0x2020), (0x87, 0x2021), (0x88, 0x2C6), (0x89, 0x2030),
    (0x8A, 0x160), (0x8B, 0x2039), (0x8C, 0x152), (0x8D, 0x8D), (0x8E, 0x17D), (0x8F, 0x8F), (0x90, 0x90),
    (0x91, 0x2018), (0x92, 0x2019), (0x93, 0x201C), (0x94, 0x201D), (0x95, 0x2022), (0x96, 0x2013),
    (0x97, 0x2014), (0x98, 0x2DC), (0x99, 0x2122), (0x9A, 0x161), (0x9B, 0x203A), (0x9C, 0x153),
    (0x9D, 0x9D), (0x9E, 0x17E), (0x9F, 0x178)]

def isForbidden (n : Nat) : Bool :=
  Text.inRanges [(0x01, 0x08), (0x0B, 0x0B), (0x0E, 0x1F), (0x7F, 0x9F), (0xFDD0, 0xFDEF)] n ||
    n % 0x10000 = 0xFFFE || n % 0x10000 = 0xFFFF

def numeric (n : Nat) : Text :=
  match legacyPoints.lookup n with
  | some m => (CodePoint.ofNat? m).toList
  | none =>
    if (0xD800 ≤ n ∧ n ≤ 0xDFFF) ∨ 0x10FFFF < n then [.replacement]
    else if isForbidden n then []
    else (CodePoint.ofNat? n).toList

/-- The text a named reference stands for: the whole name, or else its longest known beginning. -/
def named (name : Text) : Text :=
  match references.lookup name with
  | some t => t
  | none =>
    let known := (List.range (name.length - 2)).findSome? fun i ↦
      let size := name.length - 1 - i
      (references.lookup (name.take size)).map (· ++ name.drop size)
    known.getD ('&' :: name)

def withSemicolon (body rest : Text) : Text := if rest.head? = some (.ofChar ';') then body ++ [.ofChar ';'] else body

def referenceAt? (t : Text) : Except Text.Numeral.LimitError (Option (Text × Nat)) :=
  let finish (body size : Nat) (value : Text) : Option (Text × Nat) :=
    some (value, size + body + (if (t.drop (size + body)).head? = some (.ofChar ';') then 1 else 0))
  match t with
  | [] => .ok none
  | c :: cs =>
    if c = '#' then
      let decimal := cs.takeWhile (·.isDigit)
      if !decimal.isEmpty then
        match Text.Numeral.read decimal with
        | .error e => .error e
        | .ok n => .ok (finish decimal.length 1 (numeric (n.getD 0)))
      else
        let hexadecimal := (cs.drop 1).takeWhile fun d : CodePoint ↦ (d.digitValue? 16).isSome
        let marked := cs.head? = some (.ofChar 'x') || cs.head? = some (.ofChar 'X')
        if marked && !hexadecimal.isEmpty then
          .ok (finish hexadecimal.length 2 (numeric ((Text.Numeral.value? 16 hexadecimal).getD 0)))
        else .ok none
    else
      let isNameMark (d : CodePoint) : Bool :=
        d ≠ '\t' && d ≠ '\n' && d ≠ '\x0c' && d ≠ ' ' && d ≠ '<' && d ≠ '&' && d ≠ '#' && d ≠ ';'
      let name := ((c :: cs).takeWhile isNameMark).take 32
      if name.isEmpty then .ok none
      else
        let whole := withSemicolon name ((c :: cs).drop name.length)
        .ok (some (named whole, whole.length))

/-- Replaces every character reference, after `skip` code points that belong to one already read. -/
def unescapeFrom (skip : Nat) : Text → Except Text.Numeral.LimitError Text
  | [] => .ok []
  | c :: cs =>
    match skip with
    | n + 1 => unescapeFrom n cs
    | 0 =>
      if c = '&' then do
        match ← referenceAt? cs with
        | some (value, size) =>
          let rest ← unescapeFrom size cs
          pure (value ++ rest)
        | none =>
          let rest ← unescapeFrom 0 cs
          pure (c :: rest)
      else do
        let rest ← unescapeFrom 0 cs
        pure (c :: rest)

def unescape (t : Text) : Except Text.Numeral.LimitError Text := unescapeFrom 0 t

end PolymerAnalysis.Html
