import PolymerAnalysis.Proofs.Resolution.Accounting
import PolymerAnalysis.Proofs.Resolution.Surroundings
import Mathlib.Order.CompletePartialOrder
import Mathlib.Tactic.IntervalCases

namespace PolymerAnalysis.Graph

open Relation

variable {g g' : Graph} {S : Set DocId} {i : DocId} {chain chain' : List FeatureId} {f t : FeatureId}
  {d : Declaration} {memo memo' : Memo}

namespace Shares

theorem lookup?_same (h : g.Shares g' id S) (hi : i ∈ S) (reference : ReferenceKind × Reference) :
    g'.lookup? i reference = g.lookup? i reference := by
  have hrename := h.lookup?_rename hi reference
  rw [id] at hrename
  rw [hrename]
  exact congrFun Option.map_id _

theorem reaches (h : g.Shares g' id S) (hf : f.owner ∈ S) (ht : ReflTransGen g.RefersTo f t) :
    t.owner ∈ S ∧ ReflTransGen g'.RefersTo f t := by
  induction ht with
  | refl => exact ⟨hf, .refl⟩
  | @tail t u _ hstep ih =>
    obtain ⟨ht, hreach⟩ := ih
    obtain ⟨d, hd⟩ := exists_declaration_of_refersTo hstep
    obtain ⟨reference, href, hl⟩ := (refersTo_iff hd).1 hstep
    have hd' : g'.declaration? t = some d := (h.same t.owner ht).declaration?.trans hd
    have hstep' : g'.RefersTo t u := (refersTo_iff hd').2 ⟨reference, href, (h.lookup?_same ht reference).trans hl⟩
    exact ⟨owner_mem_of_lookup? h.region ht hl, hreach.tail hstep'⟩

end Shares

theorem Assembles.restrict {parts : List Part} (hassembles : g.Assembles memo chain f d parts) (h : g.Shares g' id S)
    (hmemo : ∀ t r, memo'.lookup t = some r ↔ t.owner ∈ S ∧ memo.lookup t = some r)
    (hchain : ∀ t, t ∈ chain' ↔ t.owner ∈ S ∧ t ∈ chain) (hf : f.owner ∈ S) :
    g'.Assembles memo' chain' f d parts ∧ g'.assembled chain' f d parts = g.assembled chain f d parts := by
  have hrefusal (reference : ReferenceKind × Reference) :
      g'.refusal? f.owner (f :: chain') reference = g.refusal? f.owner (f :: chain) reference := by
    refine h.refusal?_rename hf (fun t ht ↦ ?_) reference
    rw [FeatureId.rename_id, List.mem_cons, List.mem_cons, hchain, and_iff_right ht]
  have haccepted : g'.accepted f.owner (f :: chain') d.references = g.accepted f.owner (f :: chain) d.references :=
    List.filter_congr fun reference _ ↦ by rw [hrefusal]
  refine ⟨⟨?_, ?_, ?_, ?_⟩, ?_⟩
  · cases hr : memo'.lookup f with
    | none => rfl
    | some r =>
      have hkept := ((hmemo f r).1 hr).2
      rw [hassembles.missing] at hkept
      cases hkept
  · exact (h.same f.owner hf).declaration?.trans hassembles.declared
  · intro c hc
    obtain ⟨hcs, hc⟩ := (hchain c).1 hc
    exact (h.reaches hcs (hassembles.leads c hc)).2
  · rw [haccepted]
    refine hassembles.supplied.imp fun reference part hpart ↦ ?_
    obtain ⟨hkind, href, t, hl, ht⟩ := hpart
    exact ⟨hkind, href, t, (h.lookup?_same hf reference).trans hl,
      (hmemo t _).2 ⟨owner_mem_of_lookup? h.region hf hl, ht⟩⟩
  · rw [assembled, assembled, List.filterMap_congr fun reference _ ↦ hrefusal reference]

theorem Built.restrict (hbuilt : g.Built memo) (h : g.Shares g' id S) :
    ∃ memo', g'.Built memo' ∧ ∀ t r, memo'.lookup t = some r ↔ t.owner ∈ S ∧ memo.lookup t = some r := by
  classical
  induction hbuilt with
  | refl => exact ⟨[], .refl, fun t r ↦ by simp⟩
  | tail _ hstep ih =>
    obtain ⟨memo', hbuilt', hmemo⟩ := ih
    cases hstep with
    | @intro chain f d parts hsub hassembles =>
      by_cases hf : f.owner ∈ S
      · have hchain (t : FeatureId) : t ∈ chain.filter (·.owner ∈ S) ↔ t.owner ∈ S ∧ t ∈ chain := by
          simp [and_comm]
        obtain ⟨hassembles', hvalue⟩ := hassembles.restrict h hmemo hchain hf
        refine ⟨_, hbuilt'.tail (.intro (List.nil_subset _) hassembles'), fun t r ↦ ?_⟩
        by_cases ht : t = f
        · subst ht
          rw [List.lookup_cons_self, List.lookup_cons_self, hvalue, and_iff_right hf]
        · rw [Keyed.lookup_cons_ne ht, Keyed.lookup_cons_ne ht, hmemo]
      · refine ⟨memo', hbuilt', fun t r ↦ ?_⟩
        rw [hmemo]
        refine and_congr_right fun ht ↦ ?_
        have hne : t ≠ f := by
          rintro rfl
          exact hf ht
        rw [Keyed.lookup_cons_ne hne]

/-- What a feature resolves to depends on the surroundings of its owner alone. When documents change, what was resolved
for those that have none of them in their surroundings can be kept. Where imports lead to files only, the surroundings
are what can be imported. -/
theorem resolution_local (g : Graph) (f : FeatureId) :
    (∀ g' ρ, ρ.Injective → (∀ i ∈ g.surroundings f.owner, g.SameAt g' ρ i) →
      (g'.resolveFeature (f.rename ρ) []).1 = (g.resolveFeature f []).1.map (·.rename ρ)) ∧
    (∀ g' changed, (∀ i ∉ changed, g.SameAt g' id i) →
      (∀ t, Disjoint (g.surroundings t.owner) changed → (g'.resolveFeature t []).1 = (g.resolveFeature t []).1) ∧
      ∀ memo, g.Built memo → ∃ memo', g'.Built memo' ∧
        ∀ t r, memo'.lookup t = some r ↔ Disjoint (g.surroundings t.owner) changed ∧ memo.lookup t = some r) ∧
    ((∀ i ∈ g.below [g.root f.owner], ∀ j ∈ g.importsOf i, g.container? j = none) →
      g.surroundings f.owner = g.below [g.root f.owner]) := by
  have hresolve (t : FeatureId) (g' : Graph) (ρ : DocId → DocId) (hρ : ρ.Injective)
      (hsame : ∀ i ∈ g.surroundings t.owner, g.SameAt g' ρ i) :
      (g'.resolveFeature (t.rename ρ) []).1 = (g.resolveFeature t []).1.map (·.rename ρ) :=
    Shares.resolveFeature_rename ⟨g.isRegion_surroundings t.owner, hsame, hρ⟩ .refl
  refine ⟨hresolve f, fun g' changed hsame ↦ ⟨fun t ht ↦ ?_, fun memo hbuilt ↦ ?_⟩, surroundings_eq_below⟩
  · have hkept := hresolve t g' id Function.injective_id fun i hi ↦ hsame i (Set.disjoint_left.1 ht hi)
    have hid : (fun x : Feature ↦ x.rename id) = id := funext Feature.rename_id
    rw [hid, Option.map_id, FeatureId.rename_id] at hkept
    exact hkept
  · have hregion : g.IsRegion {i | Disjoint (g.surroundings i) changed} := by
      intro i hi j hsees
      exact Set.disjoint_of_subset_left
        (surroundings_subset (g.isRegion_surroundings i) (.single hsees)) hi
    exact hbuilt.restrict ⟨hregion, fun i hi ↦ hsame i (Set.disjoint_left.1 hi .refl), Function.injective_id⟩

def importedTwins : Graph where
  documents := [
    { url := "c.js", imports := [1, 2], features := [.declaration { role := .behavior, name := some "A" }] },
    { url := "a.js", imports := [2]
      features := [.declaration { role := .behavior, name := some "A", behaviors := [⟨"B", none⟩] }] },
    { url := "b.js", imports := [1]
      features := [.declaration { role := .behavior, name := some "B"
                                  behaviors := [⟨"A", none⟩, ⟨"B", none⟩, ⟨"C", none⟩] }] }]

theorem twins_resolve_alike : (importedTwins.resolveFeature ⟨1, 0⟩ []).1 =
    (twins.resolveFeature ⟨0, 0⟩ []).1.map (·.rename (· + 1)) := by
  have hregion : twins.IsRegion {i | i < 2} := by
    intro i hi j hsees
    have hlt : i < 2 := hi
    have hinlines : twins.inlines i = [] := by interval_cases i <;> cbv
    rcases hsees with (hj | hj) | hj
    · rw [hinlines] at hj
      cases hj
    · interval_cases i
      · cases List.mem_singleton.1 hj
        exact Nat.one_lt_two
      · cases List.mem_singleton.1 hj
        exact Nat.two_pos
    · interval_cases i <;> cases hj
  refine (resolution_local twins ⟨0, 0⟩).1 importedTwins (· + 1) (add_left_injective 1) fun i hi ↦ ?_
  have hlt : i < 2 := surroundings_subset hregion (by decide) hi
  interval_cases i
  · exact ⟨rfl, rfl, by cbv, rfl⟩
  · exact ⟨rfl, rfl, by cbv, rfl⟩

def behaviorNamed (name : Text) (behaviors : List Reference) : Declaration :=
  { role := .behavior, name := some name, behaviors }

def excerpt (features : List ScannedFeature) : Graph where
  documents := [
    { url := "a.html", imports := [2], features := [.declaration (behaviorNamed "A" [⟨"B", none⟩])] },
    { url := "b.html", features },
    { url := "b.html", container := some 1, features := [.declaration (behaviorNamed "B" [⟨"C", none⟩])] }]

theorem behaviors_compose (c : Composition) (r : Reference) (resolved : ResolvedDeclaration) :
    (c.compose .behavior r resolved).behaviors =
      (resolved.behaviors ++ [r.name]).foldl (fun ns n ↦ Keyed.addNew n ns) c.behaviors := by
  rw [Composition.compose, Composition.addInherited_eq]
  rfl

theorem behaviors_behaviorNamed (name : Text) (references : List Reference) (hmiss : memo.lookup f = none) :
    (g.resolveFrom chain f (behaviorNamed name references) memo).1.behaviors =
      ((references.map (ReferenceKind.behavior, ·)).foldl
        (g.composeIn f.owner (f :: chain)) ({}, memo)).1.behaviors := by
  have hreferences : (behaviorNamed name references).references = references.map (ReferenceKind.behavior, ·) :=
    List.append_nil _
  rw [resolveFrom_computed hmiss, hreferences]
  rfl

theorem behaviors_excerpt (features : List ScannedFeature) : ∃ r,
    ((excerpt features).resolveFeature ⟨0, 0⟩ []).1 = some (.declaration r) ∧
    r.behaviors = (((excerpt features).composeIn 2 [⟨2, 0⟩, ⟨0, 0⟩] ({}, []) (.behavior, ⟨"C", none⟩)).1.behaviors ++
      [Text.ofString "B"]).foldl (fun ns n ↦ Keyed.addNew n ns) [] := by
  have hd : (excerpt features).declaration? ⟨0, 0⟩ = some (behaviorNamed "A" [⟨"B", none⟩]) := rfl
  have hB : (excerpt features).target? 0 .behavior ⟨"B", none⟩ = some (⟨2, 0⟩, behaviorNamed "B" [⟨"C", none⟩]) := by
    cbv
  rw [resolveFeature_of_declaration hd]
  refine ⟨_, rfl, ?_⟩
  rw [resolveDeclaration, behaviors_behaviorNamed _ _ rfl, List.map_singleton, List.foldl_cons, List.foldl_nil,
    composeIn_composed hB (by decide), behaviors_compose, behaviors_behaviorNamed _ _ rfl]
  rfl

/-- What can be imported is not all that matters: a script that is imported refers to what its own file declares. -/
theorem inline_import_looks_outside : ¬∀ (g g' : Graph) (f : FeatureId), g'.root f.owner = g.root f.owner →
    (∀ i ∈ g.below [g.root f.owner], g'.document? i = g.document? i ∧ g'.inlines i = g.inlines i) →
    (g'.resolveFeature f []).1 = (g.resolveFeature f []).1 := by
  intro h
  have hroot (features : List ScannedFeature) : (excerpt features).root 0 = 0 := by
    rw [root_eq]
    rfl
  have hbelow (features : List ScannedFeature) : ∀ i ∈ (excerpt features).below [0], i = 0 ∨ i = 2 := by
    rintro i ⟨r, hr, hreach⟩
    cases List.mem_singleton.1 hr
    have h₀ : (excerpt features).inlines 0 = [] := by cbv
    have h₂ : (excerpt features).inlines 2 = [] := by cbv
    induction hreach with
    | refl => exact .inl rfl
    | tail _ hstep ih =>
      rcases ih with rfl | rfl
      · rcases hstep with hinside | himport
        · rw [h₀] at hinside
          cases hinside
        · exact .inr (List.mem_singleton.1 himport)
      · rcases hstep with hinside | himport
        · rw [h₂] at hinside
          cases hinside
        · cases himport
  have hagree (features features' : List ScannedFeature) (i : DocId) (hi : i = 0 ∨ i = 2) :
      (excerpt features').document? i = (excerpt features).document? i ∧
        (excerpt features').inlines i = (excerpt features).inlines i := by
    rcases hi with rfl | rfl
    · exact ⟨rfl, by cbv⟩
    · exact ⟨rfl, by cbv⟩
  have hC : (excerpt [.declaration (behaviorNamed "C" [])]).target? 2 .behavior ⟨"C", none⟩ =
      some (⟨1, 0⟩, behaviorNamed "C" []) := by cbv
  have hnone : (excerpt []).target? 2 .behavior ⟨"C", none⟩ = none := by cbv
  obtain ⟨r, hr, hbehaviors⟩ := behaviors_excerpt [.declaration (behaviorNamed "C" [])]
  obtain ⟨r', hr', hbehaviors'⟩ := behaviors_excerpt []
  have hsame := h (excerpt [.declaration (behaviorNamed "C" [])]) (excerpt []) ⟨0, 0⟩
    ((hroot _).trans (hroot _).symm) fun i hi ↦ hagree _ _ i (hbelow _ i (by rwa [hroot] at hi))
  rw [hr, hr', Option.some.injEq, Feature.declaration.injEq] at hsame
  rw [composeIn_composed hC (by decide), behaviors_compose, behaviors_behaviorNamed _ _ rfl] at hbehaviors
  rw [composeIn_unknown hnone, hsame, hbehaviors] at hbehaviors'
  exact absurd hbehaviors' (by decide)

end PolymerAnalysis.Graph
