import PolymerAnalysis.Proofs.Session.Coherence
import PolymerAnalysis.Session.Change
import Mathlib.Order.Bounds.Basic

namespace PolymerAnalysis.Session

open Relation

variable {env : Environment} {s : Session} {urls : List Text}

theorem subset_dependentsFrom (importers : List (Text × List Text)) (pending : List Text) :
    pending ⊆ dependentsFrom importers pending := by
  fun_induction dependentsFrom importers pending with
  | case1 => simp
  | case2 importers url pending urls h ih =>
    intro u hu
    rcases List.mem_cons.1 hu with rfl | hu
    · exact List.mem_cons_self
    · exact List.mem_cons_of_mem url (ih (List.mem_append_right urls hu))
  | case3 importers url pending h ih => exact List.cons_subset_cons url ih

/-- Every address is looked up once, when it is taken from the list; its importers are pending from then on. -/
theorem dependentsFrom_closed (importers : List (Text × List Text)) (pending : List Text) {u v : Text}
    {noted : List Text} (hv : v ∈ dependentsFrom importers pending) (hnoted : importers.lookup v = some noted)
    (hu : u ∈ noted) : u ∈ dependentsFrom importers pending := by
  fun_induction dependentsFrom importers pending with
  | case1 => cases hv
  | case2 importers url pending urls h ih =>
    by_cases hurl : v = url
    · subst hurl
      cases hnoted.symm.trans h
      exact List.mem_cons_of_mem v (subset_dependentsFrom _ _ (List.mem_append_left pending hu))
    · have hrest : v ∈ dependentsFrom (Keyed.erase url importers) (urls ++ pending) :=
        (List.mem_cons.1 hv).resolve_left hurl
      have herase : (Keyed.erase url importers).lookup v = some noted := by
        rw [Keyed.lookup_erase, if_neg hurl, hnoted]
      exact List.mem_cons_of_mem url (ih hrest herase)
  | case3 importers url pending h ih =>
    rcases List.mem_cons.1 hv with rfl | hv
    · rw [h] at hnoted
      cases hnoted
    · exact List.mem_cons_of_mem url (ih hv hnoted)

theorem dependentsFrom_least (importers : List (Text × List Text)) (pending : List Text) {S : Set Text}
    (hpending : ∀ u ∈ pending, u ∈ S)
    (hclosed : ∀ v ∈ S, ∀ noted, importers.lookup v = some noted → ∀ u ∈ noted, u ∈ S) :
    ∀ u ∈ dependentsFrom importers pending, u ∈ S := by
  fun_induction dependentsFrom importers pending with
  | case1 => simp
  | case2 importers url pending urls h ih =>
    have hurl : url ∈ S := hpending url List.mem_cons_self
    intro u hu
    rcases List.mem_cons.1 hu with rfl | hu
    · exact hurl
    refine ih ?_ ?_ u hu
    · intro w hw
      rcases List.mem_append.1 hw with hw | hw
      · exact hclosed url hurl urls h w hw
      · exact hpending w (List.mem_cons_of_mem url hw)
    · intro v hv noted hnoted
      rw [Keyed.lookup_erase] at hnoted
      split at hnoted
      · cases hnoted
      · exact hclosed v hv noted hnoted
  | case3 importers url pending h ih =>
    intro u hu
    rcases List.mem_cons.1 hu with rfl | hu
    · exact hpending u List.mem_cons_self
    · exact ih (fun w hw ↦ hpending w (List.mem_cons_of_mem url hw)) hclosed u hu

theorem mem_dependents {u : Text} : u ∈ s.dependents urls ↔ u ∈ dependentsFrom s.importers urls := by
  rw [dependents, Text.sort, List.mem_mergeSort, List.mem_eraseDups]

/-- A set that has some addresses and, with every address, the importers noted for it. -/
def ClosedOver (s : Session) (urls : List Text) (S : Set Text) : Prop :=
  (∀ u ∈ urls, u ∈ S) ∧ ∀ v ∈ S, ∀ u ∈ s.importersOf v, u ∈ S

theorem isLeast_dependents (s : Session) (urls : List Text) :
    IsLeast {S | s.ClosedOver urls S} {u | u ∈ s.dependents urls} := by
  constructor
  · refine ⟨fun u hu ↦ mem_dependents.2 (subset_dependentsFrom _ _ hu), fun v hv u hu ↦ ?_⟩
    rw [importersOf] at hu
    cases hnoted : s.importers.lookup v with
    | none => simp [hnoted] at hu
    | some noted =>
      rw [hnoted] at hu
      exact mem_dependents.2 (dependentsFrom_closed _ _ (mem_dependents.1 hv) hnoted hu)
  · rintro S ⟨hurls, hclosed⟩ u hu
    refine dependentsFrom_least _ _ hurls (fun v hv noted hnoted w hw ↦ hclosed v hv w ?_) u (mem_dependents.1 hu)
    rw [importersOf, hnoted]
    exact hw

theorem not_isAmong {u : Text} {us : List Text} : (!Text.isAmong u us) = true ↔ u ∉ us := by
  rw [Bool.not_eq_true', Bool.eq_false_iff, Ne, Text.isAmong_iff]

theorem cached?_filesChanged (s : Session) (urls : List Text) (u : Text) :
    (s.filesChanged urls).2.cached? u = if u ∈ s.dependents urls then none else s.cached? u := by
  have h := Keyed.lookup_filter (fun k ↦ !Text.isAmong k (s.dependents urls)) s.cache u
  simp only [not_isAmong, ite_not] at h
  exact h

theorem mem_importersOf_filesChanged (s : Session) (urls : List Text) (u v : Text) :
    u ∈ (s.filesChanged urls).2.importersOf v ↔
      v ∉ s.dependents urls ∧ u ∈ s.importersOf v ∧ u ∉ s.dependents urls := by
  have hfilter := Keyed.lookup_filter (fun k ↦ !Text.isAmong k (s.dependents urls)) s.importers v
  have hmap := Keyed.lookup_map (fun us : List Text ↦ us.filter fun u ↦ !Text.isAmong u (s.dependents urls))
    (s.importers.filter fun e ↦ !Text.isAmong e.1 (s.dependents urls)) v
  simp only [not_isAmong, ite_not] at hfilter
  rw [hfilter] at hmap
  rw [importersOf, filesChanged, hmap, importersOf]
  by_cases hv : v ∈ s.dependents urls
  · simp [hv]
  · cases hnoted : s.importers.lookup v with
    | none => simp [hv]
    | some noted => simp [hv, List.mem_filter, ← Bool.not_eq_true, Text.isAmong_iff]

theorem Coherent.filesChanged (h : s.Coherent) (urls : List Text) : (s.filesChanged urls).2.Coherent := by
  have hgraph : (s.filesChanged urls).2.graph = s.graph := rfl
  have hcached {u : Text} {i : DocId} :
      (s.filesChanged urls).2.cached? u = some i ↔ u ∉ s.dependents urls ∧ s.cached? u = some i := by
    rw [cached?_filesChanged]
    split <;> simp [*]
  have hkept {u : Text} {i j : DocId} (hu : s.cached? u = some i) (hj : j ∈ s.graph.importsOf i)
      (hkeep : u ∉ s.dependents urls) : s.graph.url j ∉ s.dependents urls := fun hdrop ↦
    hkeep ((isLeast_dependents s urls).1.2 _ hdrop u ((h.recorded u _).2 ⟨i, j, hu, hj, rfl⟩))
  constructor
  · intro u i hu
    exact h.placed (hcached.1 hu).2
  · exact h.roots
  · intro u i j hu hj
    obtain ⟨hkeep, hu⟩ := hcached.1 hu
    exact hcached.2 ⟨hkept hu hj hkeep, h.linked hu hj⟩
  · intro u v
    rw [mem_importersOf_filesChanged, h.recorded, hgraph]
    constructor
    · rintro ⟨-, ⟨i, j, hu, hj, rfl⟩, hkeep⟩
      exact ⟨i, j, hcached.2 ⟨hkeep, hu⟩, hj, rfl⟩
    · rintro ⟨i, j, hu, hj, rfl⟩
      obtain ⟨hkeep, hu⟩ := hcached.1 hu
      exact ⟨hkept hu hj hkeep, ⟨i, j, hu, hj, rfl⟩, hkeep⟩

end PolymerAnalysis.Session
