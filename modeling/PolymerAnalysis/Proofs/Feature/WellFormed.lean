import PolymerAnalysis.Proofs.Resolution.Names
import PolymerAnalysis.Source.Document

namespace PolymerAnalysis

open Relation

def Position.WellFormed (p : Position) : Prop := 0 ≤ p.line ∧ 0 ≤ p.column

def SourceRange.WellFormed (r : SourceRange) : Prop := r.start.WellFormed ∧ r.stop.WellFormed

def IsPrivacy (t : Text) : Prop := ∃ name docs, t = privacyOf name docs

theorem IsPrivacy.mem {t : Text} (h : IsPrivacy t) : t ∈ (["public", "protected", "private"] : List Text) := by
  obtain ⟨name, docs, rfl⟩ := h
  rw [privacyOf]
  split
  · next privacy hfind => exact List.mem_of_find?_eq_some hfind
  · split
    · decide
    · split <;> decide

theorem isPrivacy_public : IsPrivacy "public" := ⟨"a", none, by cbv⟩

/-- Ranges have places that there can be, and privacies have been decided on. -/
structure Property.WellFormed (p : Property) : Prop where
  privacy : IsPrivacy p.privacy
  range : ∀ r ∈ p.range, r.WellFormed

def Attribute.WellFormed (a : Attribute) : Prop := ∀ r ∈ a.range, r.WellFormed

structure Declaration.WellFormed (d : Declaration) : Prop where
  privacy : IsPrivacy d.privacy
  range : ∀ r ∈ d.range, r.WellFormed
  properties : ∀ p ∈ d.properties, p.WellFormed
  attributes : ∀ a ∈ d.attributes, a.WellFormed

structure ResolvedDeclaration.WellFormed (d : ResolvedDeclaration) : Prop where
  privacy : IsPrivacy d.privacy
  range : ∀ r ∈ d.range, r.WellFormed
  properties : ∀ p ∈ d.properties, p.toProperty.WellFormed
  attributes : ∀ a ∈ d.attributes, a.WellFormed

def NamespaceFeature.WellFormed (n : NamespaceFeature) : Prop := ∀ r ∈ n.range, r.WellFormed

/-- Imports and scripts do not come into the metadata. -/
def ScannedFeature.WellFormed : ScannedFeature → Prop
  | .space n => n.WellFormed
  | .declaration d => d.WellFormed
  | _ => True

def Feature.WellFormed : Feature → Prop
  | .space n => n.WellFormed
  | .declaration d => d.WellFormed
  | .link _ => True

def Graph.WellFormed (g : Graph) : Prop := ∀ i d, g.document? i = some d → ∀ x ∈ d.features, x.WellFormed

theorem Declaration.WellFormed.flattened {d : Declaration} (h : d.WellFormed) {parts : List Part}
    (hparts : ∀ part ∈ parts, part.resolved.WellFormed) (f : FeatureId) (refused : List Warning) :
    (d.flattened f parts refused).WellFormed where
  privacy := h.privacy
  range := h.range
  properties := by
    intro p hp
    rcases Keyed.handed_or_own_of_mem_lastOfEach hp with ⟨part, hpart, q, hq, rfl⟩ | hp
    · exact (hparts part hpart).properties q hq
    · obtain ⟨q, hq, rfl⟩ := List.mem_map.1 hp
      exact h.properties q hq
  attributes := by
    intro a ha
    rcases Keyed.handed_or_own_of_mem_lastOfEach ha with ⟨part, hpart, b, hb, rfl⟩ | ha
    · exact (hparts part hpart).attributes b hb
    · exact h.attributes a ha

namespace Graph

variable {g : Graph} {f : FeatureId} {memo : Memo}

theorem WellFormed.feature? (h : g.WellFormed) {x : ScannedFeature} (hx : g.feature? f = some x) : x.WellFormed := by
  obtain ⟨d, hd, hx⟩ := Option.bind_eq_some_iff.1 hx
  exact h f.owner d hd x (List.mem_of_getElem? hx)

theorem WellFormed.declaration? (h : g.WellFormed) {d : Declaration} (hd : g.declaration? f = some d) :
    d.WellFormed :=
  h.feature? (declaration?_eq_some_iff.1 hd)

theorem WellFormed.resolved (h : g.WellFormed) (hmemo : g.Built memo) {r : ResolvedDeclaration}
    (hr : memo.lookup f = some r) : r.WellFormed := by
  refine hmemo.induction (P := fun _ r ↦ r.WellFormed) (fun earlier chain f d parts hassembles hr ih ↦ ?_) hr
  refine (h.declaration? hassembles.declared).flattened (fun part hpart ↦ ?_) f _
  obtain ⟨t, -, ht, -⟩ := exists_takesIn hassembles hr hpart
  exact (ih t _ ht).2

theorem WellFormed.resolveFeature (h : g.WellFormed) (hmemo : g.Built memo) {x : Feature}
    (hx : (g.resolveFeature f memo).1 = some x) : x.WellFormed := by
  cases hd : g.declaration? f with
  | some d =>
    have hlater : g.Built (g.resolveFeature f memo).2 := hmemo.trans (resolveFeature_remembers f memo)
    rw [resolveFeature_of_declaration hd] at hx hlater
    cases hx
    exact h.resolved hlater (lookup_resolveFrom g [] f d memo)
  | none =>
    cases hf : g.feature? f with
    | none => simp [Graph.resolveFeature, hf] at hx
    | some feature =>
      have hfeature := h.feature? hf
      cases feature with
      | declaration d =>
        rw [declaration?_eq_some_iff.2 hf] at hd
        cases hd
      | space n =>
        simp only [Graph.resolveFeature, hf, Option.some.injEq] at hx
        exact hx ▸ hfeature
      | link i =>
        simp only [Graph.resolveFeature, hf, Option.some.injEq] at hx
        exact hx ▸ trivial
      | script s => simp [Graph.resolveFeature, hf] at hx

/-- What is resolved of a well-formed graph is well-formed. -/
theorem WellFormed.resolveAll (h : g.WellFormed) (hmemo : g.Built memo) (fs : List FeatureId) :
    ∀ x ∈ (g.resolveAll fs memo).1, x.WellFormed := by
  induction fs generalizing memo with
  | nil => exact fun x hx ↦ by cases hx
  | cons f fs ih =>
    intro x hx
    rcases List.mem_append.1 hx with hx | hx
    · exact h.resolveFeature hmemo (Option.mem_toList.1 hx)
    · exact ih (hmemo.trans (resolveFeature_remembers f memo)) x hx

end Graph

end PolymerAnalysis
