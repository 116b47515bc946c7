import PolymerAnalysis.Scan.Context

namespace PolymerAnalysis

structure Binding where
  statement : Cursor
  comment : Option Text
  name : Option Node
  value : Option Node

namespace Binding

def ofDeclaration? (c : Cursor) : Option Binding :=
  match c.node.namedChildren.filter (·.kind = "variable_declarator") with
  | [d] => some ⟨c, c.statementDoc? c.parent?, d.child? "name", d.child? "value"⟩
  | _ => none

def ofAssignment? (c : Cursor) : Option Binding :=
  (c.parent?.filter (·.node.kind = "expression_statement")).map fun statement ↦
    ⟨statement, statement.statementDoc? none, c.node.child? "left", c.node.child? "right"⟩

def ofFunction (c : Cursor) : Binding := ⟨c, c.statementDoc? c.parent?, c.node.child? "name", some c.node⟩

def hooks (look : Binding → Findings → Except Failure Findings) : List (String × Hook) :=
  let onDeclaration : Hook := fun c f ↦ match ofDeclaration? c with
    | some b => look b f
    | none => .ok f
  let onAssignment : Hook := fun c f ↦ match ofAssignment? c with
    | some b => look b f
    | none => .ok f
  [("variable_declaration", onDeclaration), ("lexical_declaration", onDeclaration),
    ("assignment_expression", onAssignment)]

end Binding

end PolymerAnalysis
