import PolymerAnalysis.Syntax.Node

namespace PolymerAnalysis

/-- A step from a node to a child: the node, and the siblings before the child, the nearest first. -/
structure Frame where
  parent : Node
  before : List Node
deriving Inhabited

structure Cursor where
  node : Node
  above : List Frame
deriving Inhabited

namespace Cursor

def root (n : Node) : Cursor := ⟨n, []⟩

def parent? (c : Cursor) : Option Cursor :=
  match c.above with
  | [] => none
  | f :: fs => some ⟨f.parent, fs⟩

def before (c : Cursor) : List Node :=
  match c.above with
  | [] => []
  | f :: _ => f.before

def childrenFrom (c : Cursor) (before : List Node) : List Node → List Cursor
  | [] => []
  | n :: ns => ⟨n, ⟨c.node, before⟩ :: c.above⟩ :: childrenFrom c (n :: before) ns

def children (c : Cursor) : List Cursor := childrenFrom c [] c.node.children

def namedChildren (c : Cursor) : List Cursor := c.children.filter (·.node.named)

mutual

def preorderBelow (above : List Frame) : Node → List Cursor
  | .mk kind field named missing start stop text children =>
    let n := .mk kind field named missing start stop text children
    ⟨n, above⟩ :: preorderSiblings n above [] children

def preorderSiblings (parent : Node) (above : List Frame) (before : List Node) : List Node → List Cursor
  | [] => []
  | n :: ns => preorderBelow (⟨parent, before⟩ :: above) n ++ preorderSiblings parent above (n :: before) ns

end

def preorder (c : Cursor) : List Cursor := preorderBelow c.above c.node

def hasRole (c : Cursor) (field : String) : Bool :=
  c.node.field = some field && c.before.all (·.field ≠ some field)

end Cursor

end PolymerAnalysis
