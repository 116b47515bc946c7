import PolymerAnalysis.Syntax.Evaluation
import PolymerAnalysis.Text.Blank

namespace PolymerAnalysis.Node

def pairs (n : Node) : List Node :=
  if n.kind = "object" then n.namedChildren.filter (·.kind = "pair") else []

def isClass (n : Node) : Bool := n.kind = "class" || n.kind = "class_declaration"

def findClass? (n : Node) : Option Node := n.find? ["class", "class_declaration"]

def isStaticGetter (method : Node) : Bool :=
  let keywords := (method.children.filter (!·.named)).map fun c ↦ Text.squeeze c.text
  keywords.contains "static get" || keywords.contains "static" && keywords.contains "get"

def getterAmong (name : Text) : List Node → Except EvalError (Option Node)
  | [] => .ok none
  | m :: ms =>
    if m.kind = "method_definition" && m.isStaticGetter then do
      let own ← match m.child? "name" with
        | some key => key.keyName
        | none => .ok none
      if own = some name then pure (some m) else getterAmong name ms
    else getterAmong name ms

def staticGetter? (classNode : Node) (name : Text) : Except EvalError (Option Node) :=
  match classNode.child? "body" with
  | some body => getterAmong name body.namedChildren
  | none => .ok none

/-- The expression of the first return statement at the top level of a function, or the expression
body of an arrow function. -/
def returned? (function : Node) : Option Node :=
  match function.child? "body" with
  | none => none
  | some body =>
    if body.kind ≠ "statement_block" then some body
    else (body.namedChildren.find? (·.kind = "return_statement")).bind fun s ↦ s.parts.head?

def staticValue? (classNode : Node) (name : Text) : Except EvalError (Option Node) := do
  let getter ← classNode.staticGetter? name
  pure (getter.bind returned?)

def heritage? (classNode : Node) : Option Node :=
  (classNode.namedChildren.filter (·.kind = "class_heritage")).findSome? fun h ↦ h.parts.head?

def arguments (call : Node) : List Node :=
  match call.child? "arguments" with
  | some list => list.parts
  | none => []

end PolymerAnalysis.Node
