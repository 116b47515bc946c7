import PolymerAnalysis.Syntax.Cursor

namespace PolymerAnalysis.Cursor

/-- The nearest block comment between the node and the sibling before it; line comments are passed over. -/
def attachedComment? (c : Cursor) : Option Text :=
  ((c.before.takeWhile (·.isComment)).find? fun n ↦ Text.startsWith n.text "/*").map (·.text)

def docComment? (c : Cursor) : Option Text := c.attachedComment?.filter fun t ↦ Text.startsWith t "/**"

def statementDoc? (statement : Cursor) (parent : Option Cursor) : Option Text :=
  match statement.docComment? with
  | some t => some t
  | none => (parent.filter (·.node.kind = "export_statement")).bind docComment?

def statementKinds : List String :=
  ["expression_statement", "variable_declaration", "lexical_declaration", "class_declaration",
    "function_declaration", "return_statement"]

def enclosingStatementFrom (n : Node) : List Frame → Option Cursor
  | [] => if n.kind ∈ statementKinds then some ⟨n, []⟩ else none
  | f :: fs => if n.kind ∈ statementKinds then some ⟨n, f :: fs⟩ else enclosingStatementFrom f.parent fs

/-- The innermost statement around the node, which may be the node itself. -/
def enclosingStatement? (c : Cursor) : Option Cursor := enclosingStatementFrom c.node c.above

def nodeDoc? (c : Cursor) : Option Text :=
  match c.docComment? with
  | some t => some t
  | none => c.enclosingStatement?.bind fun s ↦ s.statementDoc? s.parent?

/-- What an expression is bound to: the name in `var x = node`, the left side in `x = node`. -/
def declaredName? (c : Cursor) : Option Node :=
  match c.parent? with
  | none => none
  | some p =>
    if p.node.kind = "variable_declarator" then p.node.child? "name"
    else if p.node.kind = "assignment_expression" && c.hasRole "right" then p.node.child? "left"
    else none

end PolymerAnalysis.Cursor
