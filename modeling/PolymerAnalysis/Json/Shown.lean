import PolymerAnalysis.Binary64.Shortest
import PolymerAnalysis.Json.Basic
import PolymerAnalysis.Text.Numeral
import PolymerAnalysis.Text.Quoted

namespace PolymerAnalysis.Json

mutual

def shown : Json → Text
  | .null => "None"
  | .bool b => if b then "True" else "False"
  | .int n => Text.Numeral.ofInt n
  | .float x => x.toText
  | .string t => t.quoted
  | .array xs => "[" ++ Text.join ", " (shownItems xs) ++ "]"
  | .object es => "\x7b" ++ Text.join ", " (shownEntries es) ++ "\x7d"

def shownItems : List Json → List Text
  | [] => []
  | x :: xs => x.shown :: shownItems xs

def shownEntries : List (Text × Json) → List Text
  | [] => []
  | (k, x) :: es => (k.quoted ++ ": " ++ x.shown) :: shownEntries es

end

end PolymerAnalysis.Json
