import PolymerAnalysis.Text.Basic
import PolymerAnalysis.Text.WordTable

namespace PolymerAnalysis

def CodePoint.isWord (c : CodePoint) : Bool :=
  if c.val < 0x80 then c.isLetter || c.isDigit || c = '_'
  else Text.inRanges Text.WordTable.ranges c.val

end PolymerAnalysis
