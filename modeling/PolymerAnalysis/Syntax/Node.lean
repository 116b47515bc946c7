import PolymerAnalysis.Text.Basic

namespace PolymerAnalysis

/-- A node of a concrete syntax tree. `start` and `stop` are byte offsets into the source, `field` is the
role the node has in its parent, and anonymous nodes are the bare tokens of the grammar. -/
inductive Node where
  | mk (kind : String) (field : Option String) (named missing : Bool) (start stop : Nat) (text : Text)
      (children : List Node)
deriving Inhabited

namespace Node

def kind : Node → String
  | .mk kind .. => kind

def field : Node → Option String
  | .mk _ field .. => field

def named : Node → Bool
  | .mk _ _ named .. => named

def missing : Node → Bool
  | .mk _ _ _ missing .. => missing

def start : Node → Nat
  | .mk _ _ _ _ start .. => start

def stop : Node → Nat
  | .mk _ _ _ _ _ stop .. => stop

def text : Node → Text
  | .mk _ _ _ _ _ _ text _ => text

def children : Node → List Node
  | .mk _ _ _ _ _ _ _ children => children

def namedChildren (n : Node) : List Node := n.children.filter (·.named)

def parts (n : Node) : List Node := n.namedChildren.filter (·.kind ≠ "comment")

def child? (n : Node) (field : String) : Option Node := n.children.find? (·.field = some field)

def isComment (n : Node) : Bool := n.kind = "comment"

def isFault (n : Node) : Bool := n.kind = "ERROR" || n.missing

mutual

def preorder : Node → List Node
  | .mk kind field named missing start stop text children =>
    .mk kind field named missing start stop text children :: preorderAll children

def preorderAll : List Node → List Node
  | [] => []
  | n :: ns => preorder n ++ preorderAll ns

end

def find? (n : Node) (kinds : List String) : Option Node := n.preorder.find? (·.kind ∈ kinds)

end Node

end PolymerAnalysis
