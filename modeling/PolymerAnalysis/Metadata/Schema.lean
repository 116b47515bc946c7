import PolymerAnalysis.Json.Shown

namespace PolymerAnalysis

inductive JsonType where
  | object
  | array
  | string
  | integer
deriving DecidableEq

namespace JsonType

def name : JsonType → Text
  | .object => "object"
  | .array => "array"
  | .string => "string"
  | .integer => "integer"

/-- Whether a value is of a type. A number without a fraction is an integer however it is written. -/
def holds : JsonType → Json → Bool
  | .object, .object _ => true
  | .array, .array _ => true
  | .string, .string _ => true
  | .integer, .int _ => true
  | .integer, .float x => x.isInteger
  | _, _ => false

end JsonType

/-- What a schema asks of a value. Rules about members, items and bounds hold of values that have none. -/
inductive Rule where
  | type (t : JsonType)
  | required (keys : List Text)
  | property (key : Text) (schema : List Rule)
  | items (schema : List Rule)
  | oneOf (values : List Text)
  | minimum (bound : Int)

abbrev Schema := List Rule

structure Violation where
  path : Text
  message : Text
deriving DecidableEq

namespace Violation

def rootPath : Text := "$"

def keyPath (path key : Text) : Text := path ++ "." ++ key

def indexPath (path : Text) (index : Nat) : Text := path ++ "[" ++ Text.Numeral.ofNat index ++ "]"

def toText (v : Violation) : Text := if v.path = rootPath then v.message else v.path ++ ": " ++ v.message

end Violation

def Json.isBelow : Json → Int → Bool
  | .int n, bound => n < bound
  | .float x, bound => x.lessThanInt bound
  | _, _ => false

namespace Schema

mutual

def ruleViolations (path : Text) (j : Json) : Rule → List Violation
  | .type t =>
    if t.holds j then [] else [⟨path, j.shown ++ " is not of type " ++ t.name.quoted⟩]
  | .required keys =>
    match j with
    | .object _ => (keys.filter fun k ↦ (j.get? k).isNone).map fun k ↦
        ⟨path, k.quoted ++ " is a required property"⟩
    | _ => []
  | .property key schema =>
    match j.get? key with
    | some x => violations (Violation.keyPath path key) x schema
    | none => []
  | .items schema =>
    j.items.zipIdx.flatMap fun x ↦ violations (Violation.indexPath path x.2) x.1 schema
  | .oneOf values =>
    if values.any fun t ↦ match j with
      | .string s => s = t
      | _ => false
    then [] else [⟨path, j.shown ++ " is not one of " ++ (Json.array (values.map .string)).shown⟩]
  | .minimum bound =>
    if j.isBelow bound then
      [⟨path, j.shown ++ " is less than the minimum of " ++ Text.Numeral.ofInt bound⟩]
    else []

def violations (path : Text) (j : Json) : List Rule → List Violation
  | [] => []
  | r :: rs => ruleViolations path j r ++ violations path j rs

end

def check (schema : Schema) (j : Json) : List Violation :=
  (violations Violation.rootPath j schema).mergeSort fun v w ↦ v.path.le w.path

end Schema

end PolymerAnalysis
