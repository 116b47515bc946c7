import PolymerAnalysis.Json.Writer
import PolymerAnalysis.Value.Basic

namespace PolymerAnalysis.Value

inductive WriteError where
  | limit (e : Text.Numeral.LimitError)
  | unevaluated
deriving DecidableEq

mutual

def toJson : Value → Except WriteError Json
  | .null => .ok .null
  | .bool b => .ok (.bool b)
  | .int n => match Text.Numeral.write n with
    | .ok _ => .ok (.int n)
    | .error e => .error (.limit e)
  | .float x => .ok (.float x)
  | .text t => .ok (.string t)
  | .list xs => do
    let js ← toJsonItems xs
    pure (.array js)
  | .dict es => do
    let js ← toJsonEntries es
    pure (.object js)
  | .unevaluated _ => .error .unevaluated

def toJsonItems : List Value → Except WriteError (List Json)
  | [] => .ok []
  | x :: xs => do
    let j ← toJson x
    let js ← toJsonItems xs
    pure (j :: js)

def toJsonEntries : List (Text × Value) → Except WriteError (List (Text × Json))
  | [] => .ok []
  | (k, x) :: es => do
    let j ← toJson x
    let js ← toJsonEntries es
    pure ((k, j) :: js)

end

/-- The text of a default: JSON, or the source of one that is not evaluated. -/
def written : Value → Except WriteError Text
  | .unevaluated source => .ok source
  | v => do
    let j ← v.toJson
    pure j.write

end PolymerAnalysis.Value
