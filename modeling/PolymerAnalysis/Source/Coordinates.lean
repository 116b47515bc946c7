import PolymerAnalysis.Source.Position
import PolymerAnalysis.Text.Utf8

namespace PolymerAnalysis

structure Point where
  row : Nat
  column : Nat
deriving DecidableEq, Inhabited

namespace Text

def pointFrom (p : Point) (offset : Nat) : Text → Point
  | [] => p
  | c :: cs =>
    if offset = 0 then p
    else pointFrom (if c = '\n' then ⟨p.row + 1, 0⟩ else ⟨p.row, p.column + c.utf8Size⟩) (offset - c.utf8Size) cs

def point (t : Text) (offset : Nat) : Point := pointFrom ⟨0, 0⟩ offset t

/-- The column in code points; one that begins before the byte column counts. -/
def position (t : Text) (p : Point) : Position :=
  match t.lines[p.row]? with
  | some line => ⟨p.row, (takeBytes p.column line).length⟩
  | none => ⟨p.row, p.column⟩

end Text

end PolymerAnalysis
