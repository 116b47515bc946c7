import PolymerAnalysis.Proofs.Lists
import PolymerAnalysis.Syntax.Cursor
import PolymerAnalysis.Syntax.Definition

namespace PolymerAnalysis

namespace Cursor

def child? (c : Cursor) (field : String) : Option Cursor := c.children.find? (·.node.field = some field)

def parts (c : Cursor) : List Cursor := c.namedChildren.filter (·.node.kind ≠ "comment")

def returned? (function : Cursor) : Option Cursor :=
  (function.child? "body").bind fun body ↦
    if body.node.kind ≠ "statement_block" then some body
    else (body.namedChildren.find? (·.node.kind = "return_statement")).bind (·.parts.head?)

variable {c d r : Cursor}

theorem map_node_childrenFrom (c : Cursor) (before ns : List Node) : (c.childrenFrom before ns).map (·.node) = ns := by
  induction ns generalizing before with
  | nil => rfl
  | cons n ns ih => rw [childrenFrom, List.map_cons, ih]

theorem map_node_children (c : Cursor) : c.children.map (·.node) = c.node.children := map_node_childrenFrom c [] _

theorem map_node_filter (p : Node → Bool) (cs : List Cursor) :
    (cs.filter fun c ↦ p c.node).map (·.node) = (cs.map (·.node)).filter p := by
  rw [List.filter_map]
  rfl

theorem map_node_find? (p : Node → Bool) (cs : List Cursor) :
    (cs.find? fun c ↦ p c.node).map (·.node) = (cs.map (·.node)).find? p := by
  rw [List.find?_map]
  rfl

theorem map_node_namedChildren (c : Cursor) : c.namedChildren.map (·.node) = c.node.namedChildren := by
  rw [namedChildren, map_node_filter (·.named), map_node_children]
  rfl

theorem node_child? (c : Cursor) (field : String) : (c.child? field).map (·.node) = c.node.child? field := by
  rw [child?, map_node_find? (fun n ↦ decide (n.field = some field)), map_node_children]
  rfl

theorem map_node_parts (c : Cursor) : c.parts.map (·.node) = c.node.parts := by
  rw [parts, map_node_filter (fun n ↦ decide (n.kind ≠ "comment")), map_node_namedChildren]
  rfl

theorem node_returned? (function : Cursor) : function.returned?.map (·.node) = function.node.returned? := by
  rw [returned?, Node.returned?, ← node_child?]
  cases function.child? "body" with
  | none => rfl
  | some body =>
    rw [Option.bind_some, Option.map_some]
    dsimp only
    split
    · rfl
    · rw [← map_node_namedChildren, ← map_node_find? (fun n ↦ decide (n.kind = "return_statement"))]
      cases body.namedChildren.find? fun c ↦ decide (c.node.kind = "return_statement") with
      | none => rfl
      | some s =>
        rw [Option.map_some, Option.bind_some, Option.bind_some, ← map_node_parts, List.head?_map]

theorem mem_children_of_mem_namedChildren (h : d ∈ c.namedChildren) : d ∈ c.children := (List.mem_filter.1 h).1

theorem mem_children_of_mem_parts (h : d ∈ c.parts) : d ∈ c.children :=
  mem_children_of_mem_namedChildren (List.mem_filter.1 h).1

theorem mem_children_of_child? {field : String} (h : c.child? field = some d) : d ∈ c.children :=
  List.mem_of_find?_eq_some h

theorem self_mem_preorder (c : Cursor) : c ∈ c.preorder := by
  obtain ⟨n, above⟩ := c
  cases n
  rw [preorder, preorderBelow]
  exact List.mem_cons_self

theorem childrenFrom_subset (before ns : List Node) :
    c.childrenFrom before ns ⊆ preorderSiblings c.node c.above before ns := by
  induction ns generalizing before with
  | nil => exact List.nil_subset _
  | cons n ns ih =>
    rw [childrenFrom, preorderSiblings, List.cons_subset, List.mem_append]
    exact ⟨.inl (self_mem_preorder ⟨n, _⟩), List.Subset.trans (ih (n :: before)) (List.subset_append_right _ _)⟩

mutual

theorem child_mem_preorderBelow {above : List Frame} {n : Node} (hc : c ∈ preorderBelow above n)
    (hd : d ∈ c.children) : d ∈ preorderBelow above n := by
  cases n with
  | mk kind field named missing start stop text children =>
    rw [preorderBelow] at hc ⊢
    apply List.mem_cons_of_mem
    rcases List.mem_cons.1 hc with rfl | hc
    · exact childrenFrom_subset [] children hd
    · exact child_mem_preorderSiblings hc hd

theorem child_mem_preorderSiblings {parent : Node} {above : List Frame} {before ns : List Node}
    (hc : c ∈ preorderSiblings parent above before ns) (hd : d ∈ c.children) :
    d ∈ preorderSiblings parent above before ns := by
  cases ns with
  | nil => cases hc
  | cons n ns =>
    rw [preorderSiblings, List.mem_append] at hc ⊢
    rcases hc with hc | hc
    · exact .inl (child_mem_preorderBelow hc hd)
    · exact .inr (child_mem_preorderSiblings hc hd)

end

theorem child_mem_preorder (hc : c ∈ r.preorder) (hd : d ∈ c.children) : d ∈ r.preorder :=
  child_mem_preorderBelow hc hd

/-- The expression that a function returns is at or below the function. -/
theorem returned_mem_preorder (hc : c ∈ r.preorder) (hd : c.returned? = some d) : d ∈ r.preorder := by
  obtain ⟨body, hbody, hd⟩ := Option.bind_eq_some_iff.1 hd
  have hbelow := child_mem_preorder hc (mem_children_of_child? hbody)
  split at hd
  · cases hd
    exact hbelow
  · obtain ⟨s, hs, hd⟩ := Option.bind_eq_some_iff.1 hd
    have hstatement := child_mem_preorder hbelow (mem_children_of_mem_namedChildren (List.mem_of_find?_eq_some hs))
    exact child_mem_preorder hstatement (mem_children_of_mem_parts (List.mem_of_mem_head? hd))

end Cursor

end PolymerAnalysis
