import PolymerAnalysis.Scan.Context

namespace PolymerAnalysis

/-- What an `extends` clause applies, the innermost mixin first, and the class at its core. -/
structure Heritage where
  mixins : List Reference := []
  behaviors : List Reference := []
  superclass : Option Text := none
  warnings : List Warning := []

namespace Heritage

def isBehaviorMixin (name : Text) : Bool := name = "Polymer.mixinBehaviors" || name = "mixinBehaviors"

def listed (ctx : ScanContext) (argument : Node) : Except Failure (List Reference × List Warning) := do
  let entries := if argument.kind = "array" then argument.parts else [argument]
  let results ← entries.mapM (Scan.reference ctx)
  pure (results.filterMap (·.getLeft?), results.filterMap (·.getRight?))

mutual

def analyze (ctx : ScanContext) : Node → Except Failure Heritage
  | .mk kind field named missing start stop text children =>
    let n : Node := .mk kind field named missing start stop text children
    if kind ≠ "call_expression" then do
      let superclass ← Scan.lift n.identifierName
      pure { superclass }
    else do
      match ← Scan.lift (Node.identifierName? (n.child? "function")) with
      | none => pure {}
      | some name =>
        match isBehaviorMixin name, n.arguments with
        | true, [list, _] =>
          let (behaviors, warnings) ← listed ctx list
          let inner ← ofArgument ctx 1 children
          pure { inner with behaviors := behaviors ++ inner.behaviors, warnings := warnings ++ inner.warnings }
        | _, _ =>
          let inner ← ofArgument ctx 0 children
          pure { inner with mixins := inner.mixins ++ [⟨name, ctx.range n⟩] }

def ofArgument (ctx : ScanContext) (index : Nat) : List Node → Except Failure Heritage
  | [] => .ok {}
  | .mk _ field _ _ _ _ _ children :: ns =>
    if field = some "arguments" then ofPart ctx index children else ofArgument ctx index ns

def ofPart (ctx : ScanContext) (index : Nat) : List Node → Except Failure Heritage
  | [] => .ok {}
  | n :: ns =>
    if !n.named || n.isComment then ofPart ctx index ns
    else
      match index with
      | 0 => analyze ctx n
      | i + 1 => ofPart ctx i ns

end

def ofClass (ctx : ScanContext) (classNode : Node) : Except Failure Heritage :=
  match classNode.heritage? with
  | some n => analyze ctx n
  | none => .ok {}

end Heritage

end PolymerAnalysis
