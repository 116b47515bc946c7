import PolymerAnalysis.Graph.Traversal
import PolymerAnalysis.Proofs.Graph.Isomorphism

namespace PolymerAnalysis.Graph

open Relation

/-- Lookups go from document `i` to document `j`: it contains or imports it, or lies in it. -/
def Sees (g : Graph) (i j : DocId) : Prop := g.Leads i j ∨ g.container? i = some j

/-- A document with all that lookups can come to from it. -/
def surroundings (g : Graph) (i : DocId) : Set DocId := {j | ReflTransGen g.Sees i j}

def IsRegion (g : Graph) (S : Set DocId) : Prop := ∀ i ∈ S, ∀ j, g.Sees i j → j ∈ S

/-- Document `i` of one graph is document `ρ i` of another one: it has the same features, contains and imports the
same documents, and lies in the same one. -/
structure SameAt (g g' : Graph) (ρ : DocId → DocId) (i : DocId) : Prop where
  features : (g'.document? (ρ i)).map (·.features) = (g.document? i).map (·.features)
  container : g'.container? (ρ i) = (g.container? i).map ρ
  inlines : g'.inlines (ρ i) = (g.inlines i).map ρ
  imports : g'.importsOf (ρ i) = (g.importsOf i).map ρ

/-- A region of one graph that another one has too, under the numbers that `ρ` gives to its documents. -/
structure Shares (g g' : Graph) (ρ : DocId → DocId) (S : Set DocId) : Prop where
  region : g.IsRegion S
  same : ∀ i ∈ S, g.SameAt g' ρ i
  injective : ρ.Injective

variable {g g' : Graph} {S : Set DocId} {ρ : DocId → DocId} {i j : DocId} {unseen unseen' queue : List DocId}

theorem isRegion_surroundings (g : Graph) (i : DocId) : g.IsRegion (g.surroundings i) :=
  fun _ hj _ hsees ↦ ReflTransGen.tail hj hsees

theorem surroundings_subset (hregion : g.IsRegion S) (hi : i ∈ S) : g.surroundings i ⊆ S := by
  intro j hj
  induction hj with
  | refl => exact hi
  | tail _ hstep ih => exact hregion _ ih _ hstep

theorem isSome_document? : (g.document? i).isSome = true ↔ i ∈ g.ids := by
  simp [document?, mem_ids, size]

theorem root_eq (g : Graph) (i : DocId) : g.root i = ((g.container? i).map g.root).getD i := by
  rw [root]
  split
  · next c hc => rw [hc, Option.map_some, Option.getD_some]
  · next hc => rw [hc, Option.map_none, Option.getD_none]

theorem locals_eq (g : Graph) (i : DocId) : g.locals i = i :: (g.inlines i).flatMap g.locals := by
  rw [locals]
  simp

namespace IsRegion

theorem root_mem (h : g.IsRegion S) (i : DocId) (hi : i ∈ S) : g.root i ∈ S := by
  rw [root_eq]
  cases hc : g.container? i with
  | none => exact hi
  | some c => exact h.root_mem c (h i hi c (.inr hc))
termination_by i
decreasing_by exact container?_lt hc

theorem locals_subset (h : g.IsRegion S) (i : DocId) (hi : i ∈ S) : ∀ j ∈ g.locals i, j ∈ S := by
  intro j hj
  rw [locals_eq] at hj
  rcases List.mem_cons.1 hj with rfl | hj
  · exact hi
  · obtain ⟨k, hk, hj⟩ := List.mem_flatMap.1 hj
    exact h.locals_subset k (h i hi k (.inl (.inl hk))) j hj
termination_by g.size - i
decreasing_by exact size_sub_lt_of_mem_inlines hk

theorem imports_subset (h : g.IsRegion S) (hi : i ∈ S) : ∀ j ∈ (g.locals i).flatMap g.importsOf, j ∈ S := by
  intro j hj
  obtain ⟨k, hk, hj⟩ := List.mem_flatMap.1 hj
  exact h k (h.locals_subset i hi k hk) j (.inl (.inr hj))

theorem breadthFirst_subset (h : g.IsRegion S) (hqueue : ∀ i ∈ queue, i ∈ S) :
    ∀ j ∈ g.breadthFirst unseen queue, j ∈ S := by
  fun_induction breadthFirst g unseen queue with
  | case1 => exact fun j hj ↦ absurd hj List.not_mem_nil
  | case2 unseen i queue hi ih =>
    intro j hj
    have his := hqueue i List.mem_cons_self
    rcases List.mem_append.1 hj with hj | hj
    · exact h.locals_subset i his j hj
    · refine ih (fun k hk ↦ ?_) j hj
      rcases List.mem_append.1 hk with hk | hk
      · exact hqueue k (List.mem_cons_of_mem i hk)
      · exact h.imports_subset his k hk
  | case3 unseen i queue hi ih => exact ih fun k hk ↦ hqueue k (List.mem_cons_of_mem i hk)

theorem reachable_subset (h : g.IsRegion S) (hi : i ∈ S) : ∀ j ∈ g.reachable i true, j ∈ S := by
  rw [reachable, if_pos rfl]
  exact h.breadthFirst_subset fun j hj ↦ List.mem_singleton.1 hj ▸ h.root_mem i hi

end IsRegion

namespace Shares

theorem map_root (h : g.Shares g' ρ S) (i : DocId) (hi : i ∈ S) :
    g'.root (ρ i) = ρ (g.root i) := by
  rw [root_eq, root_eq, (h.same i hi).container]
  cases hc : g.container? i with
  | none => rfl
  | some c => exact h.map_root c (h.region i hi c (.inr hc))
termination_by i
decreasing_by exact container?_lt hc

theorem map_locals (h : g.Shares g' ρ S) (i : DocId) (hi : i ∈ S) :
    g'.locals (ρ i) = (g.locals i).map ρ := by
  have hinside : ∀ j ∈ g.inlines i, g'.locals (ρ j) = (g.locals j).map ρ :=
    fun j hj ↦ h.map_locals j (h.region i hi j (.inl (.inl hj)))
  rw [locals_eq, locals_eq, (h.same i hi).inlines, List.map_cons, List.map_flatMap, List.flatMap_map,
    List.flatMap_congr hinside]
termination_by g.size - i
decreasing_by exact size_sub_lt_of_mem_inlines hj

theorem map_imports (h : g.Shares g' ρ S) (hi : i ∈ S) :
    (g'.locals (ρ i)).flatMap g'.importsOf = ((g.locals i).flatMap g.importsOf).map ρ := by
  rw [h.map_locals i hi, List.flatMap_map, List.map_flatMap]
  exact List.flatMap_congr fun j hj ↦ (h.same j (h.region.locals_subset i hi j hj)).imports

theorem map_breadthFirst (h : g.Shares g' ρ S) (hqueue : ∀ i ∈ queue, i ∈ S) (hnodup : unseen.Nodup)
    (hnodup' : unseen'.Nodup) (hunseen : ∀ i ∈ S, ρ i ∈ unseen' ↔ i ∈ unseen) :
    g'.breadthFirst unseen' (queue.map ρ) = (g.breadthFirst unseen queue).map ρ := by
  fun_induction breadthFirst g unseen queue generalizing unseen' with
  | case1 => rw [List.map_nil, breadthFirst]
  | case2 unseen i queue hi ih =>
    have his := hqueue i List.mem_cons_self
    rw [List.map_cons, breadthFirst, if_pos ((hunseen i his).2 hi), h.map_imports his,
      h.map_locals i his, List.map_append, ← List.map_append]
    refine congrArg ((g.locals i).map ρ ++ ·) (ih (fun k hk ↦ ?_) (hnodup.erase i) (hnodup'.erase (ρ i)) ?_)
    · rcases List.mem_append.1 hk with hk | hk
      · exact hqueue k (List.mem_cons_of_mem i hk)
      · exact h.region.imports_subset his k hk
    · intro j hj
      rw [hnodup'.mem_erase_iff, hnodup.mem_erase_iff, hunseen j hj, h.injective.ne_iff]
  | case3 unseen i queue hi ih =>
    have his := hqueue i List.mem_cons_self
    rw [List.map_cons, breadthFirst, if_neg fun hi' ↦ hi ((hunseen i his).1 hi')]
    exact ih (fun k hk ↦ hqueue k (List.mem_cons_of_mem i hk)) hnodup hnodup' hunseen

theorem map_reachable (h : g.Shares g' ρ S) (hi : i ∈ S) :
    g'.reachable (ρ i) true = (g.reachable i true).map ρ := by
  rw [reachable, reachable, if_pos rfl, if_pos rfl, h.map_root i hi, ← List.map_singleton]
  refine h.map_breadthFirst ?_ List.nodup_range List.nodup_range fun j hj ↦ ?_
  · exact fun j hj ↦ List.mem_singleton.1 hj ▸ h.region.root_mem i hi
  · have hboth := congrArg Option.isSome (h.same j hj).features
    rw [Option.isSome_map, Option.isSome_map] at hboth
    rw [← isSome_document?, ← isSome_document?, hboth]

end Shares

theorem reaches_of_root (g : Graph) (i : DocId) : ReflTransGen g.Leads (g.root i) i := by
  rw [root_eq]
  cases hc : g.container? i with
  | none => exact .refl
  | some c =>
    have hi : i < g.size := by
      by_contra hi
      have hnone : g.document? i = none := List.getElem?_eq_none (Nat.le_of_not_lt hi)
      rw [container?, hnone] at hc
      cases hc
    exact (g.reaches_of_root c).tail (.inl (mem_inlines.2 ⟨hi, hc⟩))
termination_by i
decreasing_by exact container?_lt hc

theorem container?_root (g : Graph) (i : DocId) : g.container? (g.root i) = none := by
  rw [root_eq]
  cases hc : g.container? i with
  | none => exact hc
  | some c => exact g.container?_root c
termination_by i
decreasing_by exact container?_lt hc

theorem surroundings_eq_below (hfiles : ∀ j ∈ g.below [g.root i], ∀ k ∈ g.importsOf j, g.container? k = none) :
    g.surroundings i = g.below [g.root i] := by
  have hregion : g.IsRegion (g.below [g.root i]) := by
    rintro j ⟨r, hr, hj⟩ k (hstep | hc)
    · exact ⟨r, hr, hj.tail hstep⟩
    · cases List.mem_singleton.1 hr
      rcases ReflTransGen.cases_tail hj with rfl | ⟨c, hreach, hinside | himport⟩
      · rw [container?_root] at hc
        cases hc
      · rw [(mem_inlines.1 hinside).2] at hc
        cases hc
        exact ⟨_, hr, hreach⟩
      · rw [hfiles c ⟨_, hr, hreach⟩ j himport] at hc
        cases hc
  refine Set.Subset.antisymm ?_ ?_
  · exact surroundings_subset hregion ⟨g.root i, List.mem_singleton.2 rfl, g.reaches_of_root i⟩
  · rintro j ⟨r, hr, hj⟩
    cases List.mem_singleton.1 hr
    have hroot := (g.isRegion_surroundings i).root_mem i .refl
    exact hroot.trans (hj.lift id fun _ _ hstep ↦ .inl hstep)

end PolymerAnalysis.Graph
