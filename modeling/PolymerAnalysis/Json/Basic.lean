import PolymerAnalysis.Binary64.Basic
import PolymerAnalysis.Text.Basic

namespace PolymerAnalysis

/-- A JSON value; integers are kept apart from numbers written with a point or an exponent. -/
inductive Json where
  | null
  | bool (b : Bool)
  | int (n : Int)
  | float (x : Binary64)
  | string (t : Text)
  | array (items : List Json)
  | object (entries : List (Text × Json))
deriving Inhabited

namespace Json

def entries : Json → List (Text × Json)
  | .object es => es
  | _ => []

def items : Json → List Json
  | .array xs => xs
  | _ => []

def get? (j : Json) (key : Text) : Option Json := j.entries.lookup key

end Json

end PolymerAnalysis
