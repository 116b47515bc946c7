import PolymerAnalysis.Text.Basic
import PolymerAnalysis.Text.PrintableTable

namespace PolymerAnalysis

def CodePoint.isPrintable (c : CodePoint) : Bool :=
  if c.val < 0x7F then 0x20 ≤ c.val else Text.inRanges Text.PrintableTable.ranges c.val

end PolymerAnalysis
