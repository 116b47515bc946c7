import PolymerAnalysis.Proofs.Binary64.Rounding
import PolymerAnalysis.Proofs.Syntax.Expression
import PolymerAnalysis.Scan.Properties
import PolymerAnalysis.Value.Written

namespace PolymerAnalysis

variable {v w : Value}

/-- A value that an expression can have. -/
inductive Value.IsEvaluated : Value → Prop
  | null : IsEvaluated .null
  | bool (b : Bool) : IsEvaluated (.bool b)
  | int (n : Int) : IsEvaluated (.int n)
  | float {x : Binary64} (h : x.IsCanonical) : IsEvaluated (.float x)
  | text (t : Text) : IsEvaluated (.text t)
  | list {xs : List Value} (h : ∀ x ∈ xs, IsEvaluated x) : IsEvaluated (.list xs)
  | dict {es : List (Text × Value)} (hkeys : (es.map Prod.fst).Nodup) (h : ∀ e ∈ es, IsEvaluated e.2) :
      IsEvaluated (.dict es)

namespace Arithmetic

variable {operator : Text}

theorem isCanonical_of_isEvaluated {x : Binary64} (h : (Value.float x).IsEvaluated) : x.IsCanonical := by
  cases h
  assumption

theorem isEvaluated_unary (hv : v.IsEvaluated) (h : unary operator v = some w) : w.IsEvaluated := by
  unfold unary at h
  split at h
  · cases h
    exact .bool _
  · split at h
    · split_ifs at h
      · cases h
        exact .int _
      · cases h
        exact hv
    · split_ifs at h
      · cases h
        exact .float (isCanonical_of_isEvaluated hv).neg
      · cases h
        exact hv
    · cases h

theorem isCanonical_onFloats {x y z : Binary64} (h : onFloats operator x y = some z) : z.IsCanonical := by
  rw [onFloats] at h
  split_ifs at h
  all_goals cases h
  · exact Binary64.isCanonical_add _ _
  · exact Binary64.isCanonical_add _ _
  · exact Binary64.isCanonical_mul _ _
  · exact Binary64.isCanonical_div _ _

theorem isEvaluated_onFloats {x y : Binary64} (h : (onFloats operator x y).map Value.float = some v) :
    v.IsEvaluated := by
  obtain ⟨z, hz, rfl⟩ := Option.map_eq_some_iff.1 h
  exact .float (isCanonical_onFloats hz)

theorem isEvaluated_binary {x y : Value} (h : binary operator x y = .ok (some v)) : v.IsEvaluated := by
  unfold binary at h
  split at h
  · split at h
    · cases h
      exact .text _
    · cases h
  · split_ifs at h
    · cases h
      exact .int _
    · cases h
      exact .int _
    · cases h
      exact .int _
    · obtain ⟨q, hq, h⟩ := exists_of_bind_eq_ok h
      cases h
      rw [quotient] at hq
      split at hq
      · cases hq
        exact .float (Binary64.isCanonical_ofRatio _ _ (by omega))
      · cases hq
    · cases h
  · split at h
    · obtain ⟨z, -, h⟩ := exists_of_bind_eq_ok h
      exact isEvaluated_onFloats (Except.ok.inj h)
    · cases h
  · split at h
    · obtain ⟨z, -, h⟩ := exists_of_bind_eq_ok h
      exact isEvaluated_onFloats (Except.ok.inj h)
    · cases h
  · exact isEvaluated_onFloats (Except.ok.inj h)
  · cases h

end Arithmetic

namespace Node

variable {n m : Node} {t : Text}

theorem isEvaluated_number (h : (Literal.number t).isUnevaluated = false) : (Literal.number t).IsEvaluated := by
  revert h
  rw [Literal.number]
  split
  · exact fun _ ↦ .int _
  · split
    · next hx => exact fun _ ↦ .float (Binary64.isCanonical_ofText? hx)
    · exact fun h ↦ by cases h

theorem HasValue.isEvaluated_leaf (h : n.HasValue v) (hkind : n.kind ∉ partialKinds) : v.IsEvaluated := by
  obtain ⟨hv, hknown⟩ := h
  cases n
  simp only [partialKinds, kind, List.mem_cons, List.not_mem_nil, or_false, not_or] at hkind
  rw [evaluate] at hv
  simp only [hkind, if_false] at hv
  split_ifs at hv
  all_goals cases hv
  · cases hknown
  · exact .text _
  · exact isEvaluated_number hknown
  · exact .bool true
  · exact .bool false
  · exact .null
  · cases hknown

theorem HasValue.exists_argument (h : n.HasValue v) (hkind : n.kind = "unary_expression") :
    ∃ operator m w, n.child? "argument" = some m ∧ m.HasValue w ∧ Arithmetic.unary operator w = some v := by
  obtain ⟨hv, hknown⟩ := h
  have hunary := evaluate_unary hkind
  cases ho : n.child? "operator" with
  | none =>
    rw [hunary, ho] at hv
    cases hv
    cases hknown
  | some operator =>
    cases hm : n.child? "argument" with
    | none =>
      rw [hunary, ho, hm] at hv
      cases hv
      cases hknown
    | some m =>
      obtain ⟨w, hw, happly⟩ := HasValue.argument ⟨hv, hknown⟩ hkind ho hm
      exact ⟨operator.text, m, w, rfl, hw, happly⟩

theorem HasValue.exists_operands (h : n.HasValue v) (hkind : n.kind = "binary_expression") :
    ∃ operator x y, Arithmetic.binary operator x y = .ok (some v) := by
  obtain ⟨hv, hknown⟩ := h
  rw [evaluate_binary hkind] at hv
  obtain ⟨x, -, hv⟩ := exists_of_bind_eq_ok hv
  obtain ⟨y, -, hv⟩ := exists_of_bind_eq_ok hv
  split at hv
  · split at hv
    · cases hv
      cases hknown
    · obtain ⟨o, ho, hv⟩ := exists_of_bind_eq_ok hv
      cases o with
      | none =>
        cases hv
        cases hknown
      | some w =>
        cases hv
        exact ⟨_, x, y, ho⟩
  · cases hv
    cases hknown

theorem HasValue.exists_inner (h : n.HasValue v) (hkind : n.kind = "parenthesized_expression") :
    ∃ m ∈ n.children, m.HasValue v := by
  obtain ⟨hv, hknown⟩ := h
  rw [evaluate_parenthesized hkind] at hv
  split at hv
  · next m hm => exact ⟨m, List.mem_of_mem_filter (List.mem_of_mem_head? hm), hv, hknown⟩
  · cases hv
    cases hknown

/-- The value of an expression, if it has one, has no unevaluated part. -/
theorem HasValue.isEvaluated (h : n.HasValue v) : v.IsEvaluated := by
  -- induction on the size of the expression, which its parts have less of
  induction hsize : sizeOf n using Nat.strong_induction_on generalizing n v with
  | _ size ih =>
    have hchild {m : Node} {w : Value} (hm : m ∈ n.children) (hw : m.HasValue w) : w.IsEvaluated :=
      ih (sizeOf m) (hsize ▸ sizeOf_lt_of_mem hm) hw rfl
    by_cases hkind : n.kind ∈ partialKinds
    · simp only [partialKinds, List.mem_cons, List.not_mem_nil, or_false] at hkind
      rcases hkind with hkind | hkind | hkind | hkind | hkind | hkind
      · have hv := h.1
        rw [evaluate_string hkind] at hv
        obtain ⟨t, -, rfl⟩ := exists_of_map_eq_ok hv
        exact .text t
      · obtain ⟨m, hm, hv⟩ := h.exists_inner hkind
        exact hchild hm hv
      · obtain ⟨operator, m, w, hm, hw, hunary⟩ := h.exists_argument hkind
        exact Arithmetic.isEvaluated_unary (hchild (mem_children_of_child? hm) hw) hunary
      · obtain ⟨operator, x, y, hbinary⟩ := h.exists_operands hkind
        exact Arithmetic.isEvaluated_binary hbinary
      · obtain ⟨vs, rfl, hvs⟩ := h.list hkind
        refine .list fun x hx ↦ ?_
        obtain ⟨m, hm, hmx⟩ := exists_of_forall₂ hvs.flip hx
        exact hchild (mem_children_of_mem_parts hm) hmx
      · obtain ⟨members, rfl, hmembers⟩ := h.dict hkind
        refine .dict ?_ fun e he ↦ ?_
        · have hnil : (([] : List (Text × Value)).map Prod.fst).Nodup := List.nodup_nil
          rw [← Keyed.foldl_upsert]
          exact Keyed.nodup_foldl_upsert hnil members
        · obtain ⟨member, hmember, -, -, m, hm, hme⟩ := exists_of_forall₂ hmembers.flip (Keyed.mem_of_mem_latest he)
          have hlt := (sizeOf_lt_of_mem (mem_children_of_child? hm)).trans
            (sizeOf_lt_of_mem (mem_children_of_mem_parts hmember))
          exact ih (sizeOf m) (hsize ▸ hlt) hme rfl
    · exact h.isEvaluated_leaf hkind

end Node

end PolymerAnalysis
