import PolymerAnalysis.Text.Numeral

namespace PolymerAnalysis

structure Position where
  line : Int
  column : Int
deriving DecidableEq, Inhabited

structure SourceRange where
  file : Text
  start : Position
  stop : Position
deriving DecidableEq, Inhabited

structure Offset where
  line : Int
  column : Int
  file : Option Text
deriving DecidableEq, Inhabited

namespace Position

def toText (p : Position) : Text := Text.Numeral.ofInt (p.line + 1) ++ ":" ++ Text.Numeral.ofInt (p.column + 1)

def le (p q : Position) : Bool := p.line < q.line || (p.line = q.line && p.column ≤ q.column)

/-- The point of the container at a point of an inline document: only its first line is shifted. -/
def shift (p : Position) (offset : Option Offset) : Position :=
  match offset with
  | none => p
  | some o => ⟨p.line + o.line, if p.line = 0 then p.column + o.column else p.column⟩

end Position

namespace SourceRange

def toText (r : SourceRange) : Text := r.file ++ ":" ++ r.start.toText

def contains (r : SourceRange) (p : Position) : Bool := r.start.le p && p.le r.stop

def shift (r : SourceRange) (offset : Option Offset) : SourceRange :=
  { file := (offset.bind (·.file)).getD r.file
    start := r.start.shift offset
    stop := r.stop.shift offset }

end SourceRange

end PolymerAnalysis
