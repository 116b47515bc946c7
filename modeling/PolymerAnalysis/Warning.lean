import PolymerAnalysis.Source.Position

namespace PolymerAnalysis

inductive Severity where
  | error
  | warning
  | info
deriving DecidableEq

structure Warning where
  code : Text
  message : Text
  severity : Severity
  range : Option SourceRange
deriving DecidableEq

end PolymerAnalysis
