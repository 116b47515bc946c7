import PolymerAnalysis.Loading.Fault
import PolymerAnalysis.Syntax.Literal
import PolymerAnalysis.Url.Basic
import PolymerAnalysis.Warning

namespace PolymerAnalysis

inductive Failure where
  /-- Evaluating an expression breaks off. -/
  | evaluation (e : EvalError)
  /-- A character reference has too many digits. -/
  | reference (e : Text.Numeral.LimitError)
  /-- An address has an impossible host. -/
  | address (e : Url.Fault)
  /-- A document is not grammatical. -/
  | syntaxError (w : Warning)
  /-- A namespace has no place. -/
  | missingRange (name url : Text)
  /-- An inline script has no place. -/
  | unplacedScript
  /-- A text or a file name with half of a surrogate pair has no bytes. -/
  | unencodable
  /-- A document cannot be loaded. -/
  | load (url : Text) (e : LoadFault)
  /-- No language is known for a file. -/
  | noLanguage (url : Text)
  /-- A scanner wants to look at a document that was already traversed. -/
  | lateVisitor (scanner url : Text)
  /-- A hook or a scanner gives up of itself. -/
  | raised (message : Text)
deriving DecidableEq

namespace Failure

def message : Failure → Text
  | .evaluation .overflow => []
  | .evaluation (.limit e) => e.message
  | .reference e => e.message
  | .address e => e.message
  | .syntaxError w => w.message
  | .missingRange name url => "Unable to determine sourceRange for @namespace " ++ name ++ " in " ++ url
  | .unplacedScript => []
  | .unencodable => []
  | .load url e => "Unable to load " ++ url ++ ": " ++ e.reason
  | .noLanguage url => "No parser registered for " ++ url
  | .lateVisitor scanner url => scanner ++ " registered a visitor after " ++ url ++ " was already traversed"
  | .raised message => message

end Failure

end PolymerAnalysis
