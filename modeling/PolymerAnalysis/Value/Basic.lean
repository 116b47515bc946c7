import PolymerAnalysis.Binary64.Basic
import PolymerAnalysis.Text.Basic

namespace PolymerAnalysis

/-- What a script expression is known to evaluate to, or the source of one that is not evaluated. -/
inductive Value where
  | null
  | bool (b : Bool)
  | int (n : Int)
  | float (x : Binary64)
  | text (t : Text)
  | list (items : List Value)
  | dict (entries : List (Text × Value))
  | unevaluated (source : Text)
deriving Inhabited

namespace Value

def isUnevaluated : Value → Bool
  | .unevaluated _ => true
  | _ => false

def isContainer : Value → Bool
  | .list _ => true
  | .dict _ => true
  | _ => false

def text? : Value → Option Text
  | .text t => some t
  | _ => none

/-- Whether a value counts as true: zero, `null` and everything empty do not. -/
def truthy : Value → Bool
  | .null => false
  | .bool b => b
  | .int n => n ≠ 0
  | .float x => !x.isZero
  | .text t => !t.isEmpty
  | .list xs => !xs.isEmpty
  | .dict es => !es.isEmpty
  | .unevaluated _ => true

def int? : Value → Option Int
  | .bool b => some (if b then 1 else 0)
  | .int n => some n
  | _ => none

def sameScalar (x y : Value) : Bool :=
  match x, y with
  | .null, .null => true
  | .text s, .text t => s = t
  | .unevaluated s, .unevaluated t => s = t
  | .float a, .float b => a.equals b
  | .float a, y => match y.int? with
    | some n => a.equalsInt n
    | none => false
  | x, .float b => match x.int? with
    | some n => b.equalsInt n
    | none => false
  | x, y => match x.int?, y.int? with
    | some m, some n => m = n
    | _, _ => false

mutual

/-- Equality by contents; the order of dictionary entries does not count. -/
def same : Value → Value → Bool
  | .list xs, y => match y with
    | .list ys => sameItems xs ys
    | _ => false
  | .dict es, y => match y with
    | .dict fs => es.length = fs.length && sameEntries es fs
    | _ => false
  | x, y => sameScalar x y

def sameItems : List Value → List Value → Bool
  | [], ys => ys.isEmpty
  | x :: xs, ys => match ys with
    | [] => false
    | y :: ys => same x y && sameItems xs ys

def sameEntries : List (Text × Value) → List (Text × Value) → Bool
  | [], _ => true
  | (k, x) :: es, fs => (match fs.lookup k with
    | some y => same x y
    | none => false) && sameEntries es fs

end

end Value

end PolymerAnalysis
