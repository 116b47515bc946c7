import PolymerAnalysis.Proofs.Graph.Regions
import PolymerAnalysis.Proofs.Resolution.Renaming
import PolymerAnalysis.Proofs.Resolution.Requests
import Mathlib.Data.List.Find

namespace PolymerAnalysis.Graph

variable {g g' : Graph} {S : Set DocId} {ρ : DocId → DocId} {i : DocId} {chain chain' : List FeatureId}
  {f t : FeatureId} {d : Declaration} {reference : ReferenceKind × Reference}

namespace SameAt

theorem featureIds (h : g.SameAt g' ρ i) : g'.featureIds (ρ i) = (g.featureIds i).map (·.rename ρ) := by
  rw [Graph.featureIds, Graph.featureIds, h.features, List.map_map]
  rfl

theorem feature? (h : g.SameAt g' ρ f.owner) : g'.feature? (f.rename ρ) = g.feature? f := by
  have heq (g : Graph) (f : FeatureId) :
      g.feature? f = ((g.document? f.owner).map (·.features)).bind (·[f.index]?) := by
    rw [Graph.feature?, Option.bind_map]
    rfl
  rw [heq, heq, FeatureId.rename, h.features]

theorem declaration? (h : g.SameAt g' ρ f.owner) : g'.declaration? (f.rename ρ) = g.declaration? f := by
  rw [Graph.declaration?, Graph.declaration?, h.feature?]

theorem answers (h : g.SameAt g' ρ f.owner) (kind name : Text) :
    g'.answers (f.rename ρ) kind name = g.answers f kind name := by
  rw [Graph.answers, Graph.answers, h.feature?]

end SameAt

theorem owner_mem_of_lookup? (h : g.IsRegion S) (hi : i ∈ S) (hl : g.lookup? i reference = some t) : t.owner ∈ S := by
  obtain ⟨j, hj, ht⟩ := List.mem_flatMap.1 (List.mem_of_find?_eq_some hl)
  rw [(mem_featureIds ht).1]
  exact h.reachable_subset hi j hj

theorem mem_map_rename (hρ : ρ.Injective) (chain : List FeatureId) (t : FeatureId) :
    t.rename ρ ∈ chain.map (·.rename ρ) ↔ t ∈ chain :=
  List.mem_map_of_injective (FeatureId.rename_injective hρ)

def renamed (ρ : DocId → DocId) (x : Composition × Memo) : Composition × Memo := (x.1.rename ρ, x.2.rename ρ)

namespace Shares

theorem lookup?_rename (h : g.Shares g' ρ S) (hi : i ∈ S) (reference : ReferenceKind × Reference) :
    g'.lookup? (ρ i) reference = (g.lookup? i reference).map (·.rename ρ) := by
  have hids : (g'.reachable (ρ i) true).flatMap g'.featureIds =
      ((g.reachable i true).flatMap g.featureIds).map (·.rename ρ) := by
    rw [h.map_reachable hi, List.flatMap_map, List.map_flatMap]
    exact List.flatMap_congr fun j hj ↦ (h.same j (h.region.reachable_subset hi j hj)).featureIds
  rw [lookup?, lookup?, find?, find?, hids, List.find?_map]
  refine congrArg (Option.map _) (List.find?_congr fun t ht ↦ ?_)
  obtain ⟨j, hj, ht⟩ := List.mem_flatMap.1 ht
  have howner : t.owner ∈ S := (mem_featureIds ht).1 ▸ h.region.reachable_subset hi j hj
  exact (h.same t.owner howner).answers _ _

theorem refusal?_rename (h : g.Shares g' ρ S) (hi : i ∈ S)
    (hchain : ∀ t, t.owner ∈ S → (t.rename ρ ∈ chain' ↔ t ∈ chain)) (reference : ReferenceKind × Reference) :
    g'.refusal? (ρ i) chain' reference = g.refusal? i chain reference := by
  rw [refusal?, refusal?, h.lookup?_rename hi]
  cases hl : g.lookup? i reference with
  | none => rfl
  | some t => simp only [Option.map_some, hchain t (owner_mem_of_lookup? h.region hi hl)]

theorem target?_rename (h : g.Shares g' ρ S) (hi : i ∈ S) (hl : g.lookup? i reference = some t)
    (hd : g.declaration? t = some d) :
    g'.target? (ρ i) reference.1 reference.2 = some (t.rename ρ, d) := by
  have hl' : g'.lookup? (ρ i) reference = some (t.rename ρ) := by
    rw [h.lookup?_rename hi, hl, Option.map_some]
  obtain ⟨e, he, hd'⟩ := target?_of_lookup?_eq_some (r := reference.2) hl'
  rw [(h.same t.owner (owner_mem_of_lookup? h.region hi hl)).declaration?, hd] at hd'
  cases hd'
  exact he

theorem composeIn_rename (h : g.Shares g' ρ S) (hi : i ∈ S)
    (hresolve : ∀ t d memo, g.lookup? i reference = some t → t ∉ chain →
      g'.resolveFrom (chain.map (·.rename ρ)) (t.rename ρ) d (memo.rename ρ) =
        ((g.resolveFrom chain t d memo).1.rename ρ, (g.resolveFrom chain t d memo).2.rename ρ))
    (x : Composition × Memo) :
    g'.composeIn (ρ i) (chain.map (·.rename ρ)) (renamed ρ x) reference =
      renamed ρ (g.composeIn i chain x reference) := by
  have hrefusal := h.refusal?_rename hi (fun t _ ↦ mem_map_rename h.injective chain t) reference
  obtain ⟨w, hw, he⟩ | ⟨t, e, -, hl, hd, hc, he⟩ := composeIn_cases g i chain x reference
  · rw [hw] at hrefusal
    rw [he, composeIn_of_refusal hrefusal]
    rfl
  · have htarget := h.target?_rename hi hl hd
    have hc' : t.rename ρ ∉ chain.map (·.rename ρ) := mt (mem_map_rename h.injective chain t).1 hc
    rw [he, composeIn_composed htarget hc', renamed, hresolve t e x.2 hl hc, Composition.compose_rename x.1 h.injective]
    rfl

theorem resolveFrom_rename (h : g.Shares g' ρ S) (chain : List FeatureId) (f : FeatureId) (d : Declaration)
    (memo : Memo) (hf : f.owner ∈ S) :
    g'.resolveFrom (chain.map (·.rename ρ)) (f.rename ρ) d (memo.rename ρ) =
      ((g.resolveFrom chain f d memo).1.rename ρ, (g.resolveFrom chain f d memo).2.rename ρ) := by
  induction chain, f, d, memo using resolveFrom_induction g with
  | remembered chain f d memo r hr =>
    have hr' : (memo.rename ρ).lookup (f.rename ρ) = some (r.rename ρ) := by
      rw [Memo.lookup_rename h.injective, hr, Option.map_some]
    rw [resolveFrom_remembered hr, resolveFrom_remembered hr']
  | computed chain f d memo hmiss ih =>
    have hmiss' : (memo.rename ρ).lookup (f.rename ρ) = none := by
      rw [Memo.lookup_rename h.injective, hmiss, Option.map_none]
    have hstep (x : Composition × Memo) (reference : ReferenceKind × Reference) :
        g'.composeIn (ρ f.owner) ((f :: chain).map (·.rename ρ)) (renamed ρ x) reference =
          renamed ρ (g.composeIn f.owner (f :: chain) x reference) :=
      h.composeIn_rename hf (fun t e memo' hl hc ↦
        ih t e memo' (find?_mem hl) hc (owner_mem_of_lookup? h.region hf hl)) x
    have hall : d.references.foldl (g'.composeIn (ρ f.owner) ((f :: chain).map (·.rename ρ)))
          (renamed ρ ({ warnings := d.warnings }, memo)) =
        renamed ρ (d.references.foldl (g.composeIn f.owner (f :: chain)) ({ warnings := d.warnings }, memo)) :=
      List.foldl_hom (renamed ρ) hstep
    have hstart : renamed ρ ({ warnings := d.warnings }, memo) = ({ warnings := d.warnings }, memo.rename ρ) := rfl
    rw [hstart, List.map_cons] at hall
    have howner : (f.rename ρ).owner = ρ f.owner := rfl
    rw [resolveFrom_computed hmiss, resolveFrom_computed hmiss', howner, hall]
    dsimp only [renamed]
    rw [Composition.finish_addOwn_rename _ h.injective]
    rfl

theorem resolveFeature_rename (h : g.Shares g' ρ S) (hf : f.owner ∈ S) :
    (g'.resolveFeature (f.rename ρ) []).1 = (g.resolveFeature f []).1.map (·.rename ρ) := by
  have hfeature := (h.same f.owner hf).feature?
  cases hd : g.declaration? f with
  | some d =>
    have hd' : g'.declaration? (f.rename ρ) = some d := (h.same f.owner hf).declaration?.trans hd
    have hresolve := h.resolveFrom_rename [] f d [] hf
    rw [List.map_nil] at hresolve
    rw [resolveFeature_of_declaration hd, resolveFeature_of_declaration hd', resolveDeclaration, resolveDeclaration]
    have hempty : Memo.rename ρ [] = [] := rfl
    rw [hempty] at hresolve
    rw [hresolve]
    rfl
  | none =>
    rw [resolveFeature, resolveFeature, hfeature]
    cases hx : g.feature? f with
    | none => rfl
    | some x =>
      cases x with
      | declaration d =>
        rw [declaration?_eq_some_iff.2 hx] at hd
        cases hd
      | space n => rfl
      | link i => rfl
      | script s => rfl

end Shares

end PolymerAnalysis.Graph
