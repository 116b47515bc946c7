import PolymerAnalysis.Proofs.Graph.Regions
import PolymerAnalysis.Proofs.Graph.Updates
import Mathlib.Data.List.Nodup

namespace PolymerAnalysis.Graph

open Relation

/-- A document is the other one or lies in it, directly or deeper. -/
def LiesIn (g : Graph) (k i : DocId) : Prop := ReflTransGen (fun a b ↦ g.container? a = some b) k i

variable {g : Graph} {i j k c : DocId}

theorem lt_size_of_container? (h : g.container? k = some c) : k < g.size := by
  by_contra hk
  rw [container?, document?_eq_none (Nat.le_of_not_lt hk)] at h
  cases h

theorem LiesIn.le (h : g.LiesIn k i) : i ≤ k := by
  induction h with
  | refl => exact le_rfl
  | tail _ hc ih => exact (container?_lt hc).le.trans ih

theorem mem_locals_of_inside (i : DocId) (hc : g.container? k = some c) (h : c ∈ g.locals i) : k ∈ g.locals i := by
  have hk : k ∈ g.inlines c := mem_inlines.2 ⟨lt_size_of_container? hc, hc⟩
  rw [locals_eq] at h ⊢
  refine List.mem_cons_of_mem i (List.mem_flatMap.2 ?_)
  rcases List.mem_cons.1 h with rfl | h
  · exact ⟨k, hk, g.mem_locals_self k⟩
  · obtain ⟨j, hj, h⟩ := List.mem_flatMap.1 h
    exact ⟨j, hj, mem_locals_of_inside j hc h⟩
termination_by g.size - i
decreasing_by exact size_sub_lt_of_mem_inlines hj

theorem liesIn_of_mem_locals (i : DocId) (h : k ∈ g.locals i) : g.LiesIn k i := by
  rw [locals_eq] at h
  rcases List.mem_cons.1 h with rfl | h
  · exact .refl
  · obtain ⟨j, hj, h⟩ := List.mem_flatMap.1 h
    exact (liesIn_of_mem_locals j h).tail (mem_inlines.1 hj).2
termination_by g.size - i
decreasing_by exact size_sub_lt_of_mem_inlines hj

theorem mem_locals : k ∈ g.locals i ↔ g.LiesIn k i := by
  refine ⟨liesIn_of_mem_locals i, fun h ↦ ?_⟩
  induction h using ReflTransGen.head_induction_on with
  | refl => exact g.mem_locals_self i
  | head hc _ ih => exact mem_locals_of_inside i hc ih

/-- What lies in a document lies in only one of those directly inside it. -/
theorem disjoint_locals (hj : j ∈ g.inlines i) (hk : k ∈ g.inlines i) (hne : j ≠ k) :
    (g.locals j).Disjoint (g.locals k) := by
  have hcontainer (a b c : DocId) (hb : g.container? a = some b) (hc : g.container? a = some c) : b = c :=
    Option.some_injective _ (hb.symm.trans hc)
  have hapart {j k : DocId} (hj : j ∈ g.inlines i) (hk : k ∈ g.inlines i) (h : g.LiesIn j k) : j = k := by
    rcases ReflTransGen.cases_head h with rfl | ⟨c, hc, hrest⟩
    · rfl
    · cases (mem_inlines.1 hj).2.symm.trans hc
      exact absurd (container?_lt (mem_inlines.1 hk).2) (Nat.not_lt_of_le (LiesIn.le hrest))
  intro m hm hm'
  rcases ReflTransGen.total_of_right_unique hcontainer (mem_locals.1 hm) (mem_locals.1 hm') with h | h
  · exact hne (hapart hj hk h)
  · exact hne (hapart hk hj h).symm

theorem nodup_locals (g : Graph) (i : DocId) : (g.locals i).Nodup := by
  have hall : ∀ j ∈ g.inlines i, (g.locals j).Nodup := fun j hj ↦ g.nodup_locals j
  have hself : i ∉ (g.inlines i).flatMap g.locals := by
    intro h
    obtain ⟨j, hj, h⟩ := List.mem_flatMap.1 h
    exact absurd (container?_lt (mem_inlines.1 hj).2) (Nat.not_lt_of_le (mem_locals.1 h).le)
  have hinlines : (g.inlines i).Nodup := List.nodup_range.filter _
  rw [locals_eq]
  refine List.nodup_cons.2 ⟨hself, List.nodup_flatMap.2 ⟨hall, ?_⟩⟩
  exact hinlines.imp_of_mem fun hj hk hne ↦ disjoint_locals hj hk hne
termination_by g.size - i
decreasing_by exact size_sub_lt_of_mem_inlines hj

theorem root_of_container?_eq_none (h : g.container? i = none) : g.root i = i := by
  rw [root_eq, h, Option.map_none, Option.getD_none]

theorem LiesIn.root_eq (h : g.LiesIn k i) : g.root k = g.root i := by
  induction h with
  | refl => rfl
  | tail _ hc ih => rw [ih, Graph.root_eq, hc, Option.map_some, Option.getD_some]

theorem liesIn_root (g : Graph) (i : DocId) : g.LiesIn i (g.root i) := by
  rw [root_eq]
  cases hc : g.container? i with
  | none => exact .refl
  | some c => exact .head hc (g.liesIn_root c)
termination_by i
decreasing_by exact container?_lt hc

theorem eq_of_liesIn (hi : g.container? i = none) (hj : g.container? j = none) (h : g.LiesIn k i)
    (h' : g.LiesIn k j) : i = j := by
  rw [← root_of_container?_eq_none hi, ← root_of_container?_eq_none hj, ← h.root_eq, ← h'.root_eq]

end PolymerAnalysis.Graph
