import PolymerAnalysis.Text.Basic

namespace PolymerAnalysis

/-- Unicode white space and the four ASCII information separators. -/
def CodePoint.isBlank (c : CodePoint) : Bool :=
  Text.inRanges [(0x09, 0x0D), (0x1C, 0x20), (0x85, 0x85), (0xA0, 0xA0), (0x1680, 0x1680),
    (0x2000, 0x200A), (0x2028, 0x2029), (0x202F, 0x202F), (0x205F, 0x205F), (0x3000, 0x3000)] c.val

namespace Text

def trim (t : Text) : Text := stripWhere (·.isBlank) t

def trimEnd (t : Text) : Text := dropEndWhile (·.isBlank) t

def words (t : Text) : List Text := (splitWhere (·.isBlank) t).filter fun w ↦ !w.isEmpty

def squeeze (t : Text) : Text := join " " t.words

end Text

end PolymerAnalysis
