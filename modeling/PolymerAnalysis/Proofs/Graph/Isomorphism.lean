import PolymerAnalysis.Graph.Basic
import PolymerAnalysis.Proofs.Relations
import Mathlib.Data.Set.Function

namespace PolymerAnalysis

open Relation

def Document.rename (f : DocId → DocId) (d : Document) : Document :=
  { d with container := d.container.map f, imports := d.imports.map f }

/-- Two documents differ only in the numbers of other documents, and those are related. -/
structure Document.Alike (R : DocId → DocId → Prop) (d d' : Document) : Prop where
  url : d'.url = d.url
  features : d'.features = d.features
  warnings : d'.warnings = d.warnings
  container : Option.Rel R d.container d'.container
  imports : List.Forall₂ R d.imports d'.imports

namespace Graph

def Leads (g : Graph) (i j : DocId) : Prop := j ∈ g.inlines i ∨ j ∈ g.importsOf i

def below (g : Graph) (is : List DocId) : Set DocId := {j | ∃ i ∈ is, ReflTransGen g.Leads i j}

/-- Below some documents two graphs differ only in the numbers of the documents. -/
structure Isomorphism (g g' : Graph) (is js : List DocId) (f : DocId → DocId) : Prop where
  roots : js = is.map f
  bijOn : Set.BijOn f (g.below is) (g'.below js)
  document? : ∀ i ∈ g.below is, g'.document? (f i) = (g.document? i).map (Document.rename f)
  inlines : ∀ i ∈ g.below is, g'.inlines (f i) = (g.inlines i).map f

/-- Documents of two graphs that are related have the same in them and lead to related ones. -/
structure Matching (R : DocId → DocId → Prop) (g g' : Graph) : Prop where
  left : Relator.LeftUnique R
  right : Relator.RightUnique R
  documents : ∀ {i j}, R i j → ∃ d d', g.document? i = some d ∧ g'.document? j = some d' ∧ d.Alike R d'
  inlines : ∀ {i j}, R i j → List.Forall₂ R (g.inlines i) (g'.inlines j)

variable {R : DocId → DocId → Prop} {g g' : Graph} {i j : DocId} {is js : List DocId} {f : DocId → DocId}

namespace Matching

theorem importsOf (h : Matching R g g') (hR : R i j) : List.Forall₂ R (g.importsOf i) (g'.importsOf j) := by
  obtain ⟨d, d', hd, hd', halike⟩ := h.documents hR
  rw [Graph.importsOf, Graph.importsOf, hd, hd']
  exact halike.imports

theorem leads (h : Matching R g g') (hR : R i j) {i' : DocId} (hi : g.Leads i i') : ∃ j', g'.Leads j j' ∧ R i' j' := by
  rcases hi with hi | hi
  · obtain ⟨j', hj', hR'⟩ := exists_of_forall₂ (h.inlines hR) hi
    exact ⟨j', .inl hj', hR'⟩
  · obtain ⟨j', hj', hR'⟩ := exists_of_forall₂ (h.importsOf hR) hi
    exact ⟨j', .inr hj', hR'⟩

theorem exists_below (h : Matching R g g') (hroots : List.Forall₂ R is js) (hi : i ∈ g.below is) :
    ∃ j ∈ g'.below js, R i j := by
  obtain ⟨r, hr, hreach⟩ := hi
  induction hreach with
  | refl =>
    obtain ⟨j, hj, hR⟩ := exists_of_forall₂ hroots hr
    exact ⟨j, ⟨j, hj, .refl⟩, hR⟩
  | tail _ hstep ih =>
    obtain ⟨j, ⟨r', hr', hreach'⟩, hR⟩ := ih
    obtain ⟨j', hstep', hR'⟩ := h.leads hR hstep
    exact ⟨j', ⟨r', hr', hreach'.tail hstep'⟩, hR'⟩

theorem symm (h : Matching R g g') : Matching (flip R) g' g where
  left _ _ _ hR hR' := h.right hR hR'
  right _ _ _ hR hR' := h.left hR hR'
  documents hR := by
    obtain ⟨d, d', hd, hd', halike⟩ := h.documents hR
    exact ⟨d', d, hd', hd, halike.url.symm, halike.features.symm, halike.warnings.symm, rel_flip halike.container,
      halike.imports.flip⟩
  inlines hR := (h.inlines hR).flip

theorem exists_isomorphism (h : Matching R g g') (hroots : List.Forall₂ R is js) :
    ∃ f, Isomorphism g g' is js f := by
  classical
  let f (i : DocId) : DocId := if hi : ∃ j, R i j then hi.choose else i
  have hf (i j : DocId) (hR : R i j) : f i = j := by
    have hi : ∃ j, R i j := ⟨j, hR⟩
    simp only [f, dif_pos hi]
    exact h.right hi.choose_spec hR
  refine ⟨f, (map_eq_of_forall₂ hf hroots).symm, ⟨?_, ?_, ?_⟩, ?_, ?_⟩
  · intro i hi
    obtain ⟨j, hj, hR⟩ := h.exists_below hroots hi
    rw [hf i j hR]
    exact hj
  · intro i hi i' hi' heq
    obtain ⟨j, -, hR⟩ := h.exists_below hroots hi
    obtain ⟨j', -, hR'⟩ := h.exists_below hroots hi'
    rw [hf i j hR, hf i' j' hR'] at heq
    subst heq
    exact h.left hR hR'
  · intro j hj
    obtain ⟨i, hi, hR⟩ := h.symm.exists_below hroots.flip hj
    exact ⟨i, hi, hf i j hR⟩
  · intro i hi
    obtain ⟨j, -, hR⟩ := h.exists_below hroots hi
    obtain ⟨d, d', hd, hd', halike⟩ := h.documents hR
    rw [hf i j hR, hd, hd', Option.map_some, Document.rename, map_eq_of_rel hf halike.container,
      map_eq_of_forall₂ hf halike.imports, ← halike.url, ← halike.features, ← halike.warnings]
  · intro i hi
    obtain ⟨j, -, hR⟩ := h.exists_below hroots hi
    rw [hf i j hR, map_eq_of_forall₂ hf (h.inlines hR)]

end Matching

end Graph

end PolymerAnalysis
