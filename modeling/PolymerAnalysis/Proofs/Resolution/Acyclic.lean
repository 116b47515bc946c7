import PolymerAnalysis.Proofs.Resolution.Recursion
import Mathlib.Logic.Relation

namespace PolymerAnalysis

namespace Graph

open Relation

variable {g : Graph} {f : FeatureId} {d : Declaration}

def targets (g : Graph) (f : FeatureId) : List FeatureId :=
  (((g.declaration? f).map (·.references)).getD []).filterMap (g.lookup? f.owner)

theorem targets_eq {is : List DocId} (h : g.reachable f.owner true = is) :
    g.targets f = (((g.declaration? f).map (·.references)).getD []).filterMap fun reference ↦
      (is.flatMap g.featureIds).find? fun t ↦ g.answers t reference.1.featureKind reference.2.name := by
  rw [targets, lookup?_eq h]

def RefersTo (g : Graph) (f t : FeatureId) : Prop := t ∈ g.targets f

def AcyclicFrom (g : Graph) (f : FeatureId) : Prop :=
  ∀ t, ReflTransGen g.RefersTo f t → ¬TransGen g.RefersTo t t

theorem refersTo_iff (hd : g.declaration? f = some d) {t : FeatureId} :
    g.RefersTo f t ↔ ∃ reference ∈ d.references, g.lookup? f.owner reference = some t := by
  simp only [RefersTo, targets, hd, Option.map_some, Option.getD_some, List.mem_filterMap]

theorem AcyclicFrom.of_refersTo {t : FeatureId} (h : g.AcyclicFrom f) (ht : g.RefersTo f t) : g.AcyclicFrom t :=
  fun u hu ↦ h u (.head ht hu)

theorem AcyclicFrom.not_mem_chain {chain : List FeatureId} {t : FeatureId} (h : g.AcyclicFrom f)
    (hchain : ∀ c ∈ chain, ReflTransGen g.RefersTo c f) (ht : g.RefersTo f t) : t ∉ f :: chain := by
  intro hc
  have hback : ReflTransGen g.RefersTo t f := by
    rcases List.mem_cons.1 hc with rfl | hc
    · exact .refl
    · exact hchain t hc
  exact h f .refl (.head' ht hback)

theorem acyclicFrom_of_rank (inside : List FeatureId) (rank : FeatureId → Nat) (hf : f ∈ inside)
    (h : ∀ t ∈ inside, ∀ u ∈ g.targets t, u ∈ inside ∧ rank u < rank t) : g.AcyclicFrom f := by
  have hmem {t : FeatureId} (ht : ReflTransGen g.RefersTo f t) : t ∈ inside := by
    induction ht with
    | refl => exact hf
    | tail _ hstep ih => exact (h _ ih _ hstep).1
  have hrank {t u : FeatureId} (ht : t ∈ inside) (hu : TransGen g.RefersTo t u) :
      u ∈ inside ∧ rank u < rank t := by
    induction hu with
    | single hstep => exact h t ht _ hstep
    | tail _ hstep ih =>
      obtain ⟨hin, hlt⟩ := h _ ih.1 _ hstep
      exact ⟨hin, Nat.lt_trans hlt ih.2⟩
  exact fun t ht hcycle ↦ Nat.lt_irrefl _ (hrank (hmem ht) hcycle).2

def partsOf (g : Graph) (i : DocId) (value : FeatureId → ResolvedDeclaration)
    (references : List (ReferenceKind × Reference)) : List Part :=
  references.filterMap fun reference ↦ (g.lookup? i reference).map fun t ↦ ⟨reference.1, reference.2, value t⟩

/-- What a declaration becomes by recursion alone: everything it refers to is flattened, and it is flattened
over that. There is no memo, and no reference is refused because of a cycle. -/
inductive Flattens (g : Graph) : FeatureId → ResolvedDeclaration → Prop
  | intro {f : FeatureId} {d : Declaration} (value : FeatureId → ResolvedDeclaration) :
      g.declaration? f = some d → (∀ t, g.RefersTo f t → Flattens g t (value t)) →
      Flattens g f (d.flattened f (g.partsOf f.owner value d.references)
        (d.references.filterMap (g.refusal? f.owner [])))

theorem partsOf_congr {i : DocId} {value value' : FeatureId → ResolvedDeclaration}
    {references : List (ReferenceKind × Reference)}
    (h : ∀ reference ∈ references, ∀ t, g.lookup? i reference = some t → value t = value' t) :
    g.partsOf i value references = g.partsOf i value' references := by
  refine List.filterMap_congr fun reference href ↦ ?_
  cases hl : g.lookup? i reference with
  | none => rfl
  | some t => rw [Option.map_some, Option.map_some, h reference href t hl]

theorem Flattens.unique {r r' : ResolvedDeclaration} (h : g.Flattens f r) (h' : g.Flattens f r') : r = r' := by
  induction h generalizing r' with
  | @intro f d value hd _ ih =>
    obtain ⟨value', hd', hvalue'⟩ := h'
    cases hd.symm.trans hd'
    rw [partsOf_congr fun reference href t hl ↦ ?_]
    have ht := (refersTo_iff hd).2 ⟨reference, href, hl⟩
    exact ih t ht (hvalue' t ht)

/-- What the memo has for declarations from which no cycle can be reached is their flattening. -/
def Faithful (g : Graph) (memo : Memo) : Prop :=
  ∀ t r, memo.lookup t = some r → g.AcyclicFrom t → g.Flattens t r

theorem refusal?_of_not_mem {i : DocId} {chain : List FeatureId} {reference : ReferenceKind × Reference}
    (h : ∀ t, g.lookup? i reference = some t → t ∉ chain) :
    g.refusal? i chain reference = g.refusal? i [] reference := by
  cases hl : g.lookup? i reference with
  | none => simp only [refusal?, hl]
  | some t => simp only [refusal?, hl, if_neg (h t hl), List.not_mem_nil, if_false]

theorem eq_partsOf {i : DocId} {memo : Memo} {parts : List Part} (other : ResolvedDeclaration)
    {references : List (ReferenceKind × Reference)}
    (h : List.Forall₂ (g.Supplies i memo) (g.accepted i [] references) parts) :
    parts = g.partsOf i (fun t ↦ (memo.lookup t).getD other) references := by
  induction references generalizing parts with
  | nil =>
    cases h
    rfl
  | cons reference rest ih =>
    cases hl : g.lookup? i reference with
    | none =>
      have hrefused : g.refusal? i [] reference = some (reference.2.unknownWarning reference.1) := by
        simp only [refusal?, hl]
      rw [accepted, List.filter_cons_of_neg (by simp [hrefused])] at h
      rw [ih h, partsOf, partsOf, List.filterMap_cons, hl, Option.map_none]
    | some t =>
      have haccepted : g.refusal? i [] reference = none := refusal?_eq_none hl List.not_mem_nil
      rw [accepted, List.filter_cons_of_pos (by simp [haccepted])] at h
      obtain ⟨part, parts, ⟨hkind, hreference, u, hu, hpart⟩, hrest, rfl⟩ := List.forall₂_cons_left_iff.1 h
      cases hl.symm.trans hu
      rw [ih hrest, partsOf, partsOf, List.filterMap_cons, hl, Option.map_some, hpart, Option.getD_some, ← hkind,
        ← hreference]

/-- An acyclic declaration that is not in the memo becomes its flattening: none of its references is refused for
being on the chain, and each finds a flattening in the memo. -/
theorem flattens_resolveFrom {chain : List FeatureId} {memo : Memo} (hd : g.declaration? f = some d)
    (hacyclic : g.AcyclicFrom f) (hchain : ∀ c ∈ chain, ReflTransGen g.RefersTo c f) (hmiss : memo.lookup f = none)
    (hfaithful : ∀ t, g.RefersTo f t → ∀ r, (g.resolveFrom chain f d memo).2.lookup t = some r → g.Flattens t r) :
    g.Flattens f (g.resolveFrom chain f d memo).1 := by
  obtain ⟨parts, hr, hparts⟩ := resolveFrom_flattened g chain d hmiss
  have hfree : ∀ reference ∈ d.references,
      g.refusal? f.owner (f :: chain) reference = g.refusal? f.owner [] reference :=
    fun reference href ↦ refusal?_of_not_mem fun t hl ↦
      hacyclic.not_mem_chain hchain ((refersTo_iff hd).2 ⟨reference, href, hl⟩)
  have haccepted : g.accepted f.owner (f :: chain) d.references = g.accepted f.owner [] d.references :=
    List.filter_congr fun reference href ↦ by rw [hfree reference href]
  rw [haccepted] at hparts
  rw [List.filterMap_congr hfree, eq_partsOf (g.resolveFrom chain f d memo).1 hparts] at hr
  rw [hr]
  refine .intro _ hd fun t ht ↦ ?_
  obtain ⟨reference, href, hl⟩ := (refersTo_iff hd).1 ht
  obtain ⟨part, -, -, -, u, hu, hpart⟩ := exists_part hparts (mem_accepted href hl List.not_mem_nil)
  cases hl.symm.trans hu
  rw [hpart]
  exact hfaithful t ht part.resolved hpart

/-- While the references of a declaration on a chain are gone through, the whole chain leads to each of them. -/
theorem foldl_composeIn_keeps {Q : Memo → Prop} {chain : List FeatureId} (hd : g.declaration? f = some d)
    (hchain : ∀ c ∈ chain, ReflTransGen g.RefersTo c f)
    (h : ∀ t e memo, t ∈ g.allFeatureIds → t ∉ f :: chain → g.declaration? t = some e →
      (∀ c ∈ f :: chain, ReflTransGen g.RefersTo c t) → Q memo → Q (g.resolveFrom (f :: chain) t e memo).2)
    (x : Composition × Memo) (hx : Q x.2) :
    Q (d.references.foldl (g.composeIn f.owner (f :: chain)) x).2 := by
  refine foldl_composeIn_memo d.references (fun reference href t e memo hl he hc hmemo ↦ ?_) x hx
  have ht := (refersTo_iff hd).2 ⟨reference, href, hl⟩
  refine h t e memo (find?_mem hl) hc he (fun c hc ↦ ?_) hmemo
  rcases List.mem_cons.1 hc with rfl | hc
  · exact .single ht
  · exact (hchain c hc).tail ht

theorem faithful_resolveFrom (chain : List FeatureId) (f : FeatureId) (d : Declaration) (memo : Memo)
    (hd : g.declaration? f = some d) (hchain : ∀ c ∈ chain, ReflTransGen g.RefersTo c f) (h : g.Faithful memo) :
    g.Faithful (g.resolveFrom chain f d memo).2 := by
  induction chain, f, d, memo using resolveFrom_induction g with
  | remembered chain f d memo r hr =>
    rw [resolveFrom_remembered hr]
    exact h
  | computed chain f d memo hmiss ih =>
    have hall := foldl_composeIn_keeps (Q := g.Faithful) hd hchain ih ({ warnings := d.warnings }, memo) h
    have hrest {t : FeatureId} {r : ResolvedDeclaration} (ht : t ≠ f)
        (hr : (g.resolveFrom chain f d memo).2.lookup t = some r) (hacyclic : g.AcyclicFrom t) :
        g.Flattens t r := by
      rw [resolveFrom_computed hmiss, Keyed.lookup_cons_ne ht] at hr
      exact hall t r hr hacyclic
    intro t r hr hacyclic
    by_cases ht : t = f
    · subst ht
      rw [lookup_resolveFrom] at hr
      cases hr
      refine flattens_resolveFrom hd hacyclic hchain hmiss fun u hu r hr ↦ ?_
      have hne : u ≠ t := List.ne_of_not_mem_cons (hacyclic.not_mem_chain hchain hu)
      exact hrest hne hr (hacyclic.of_refersTo hu)
    · exact hrest ht hr hacyclic

theorem faithful_resolveAll (features : List FeatureId) (memo : Memo) (h : g.Faithful memo) :
    g.Faithful (g.resolveAll features memo).2 := by
  induction features generalizing memo with
  | nil => exact h
  | cons f fs ih =>
    refine ih _ ?_
    cases hf : g.feature? f with
    | none => simpa only [resolveFeature, hf] using h
    | some feature =>
      cases feature with
      | declaration d =>
        have hd : g.declaration? f = some d := by simp only [declaration?, hf]
        simpa only [resolveFeature, hf, resolveDeclaration] using
          faithful_resolveFrom [] f d memo hd (by simp) h
      | space n => simpa only [resolveFeature, hf] using h
      | link i => simpa only [resolveFeature, hf] using h
      | script s => simpa only [resolveFeature, hf] using h

/-- Whatever was resolved before, the resolved form of a declaration from which no cycle can be reached is its
flattening, and it has only one. -/
theorem resolveDeclaration_flattens (g : Graph) (f : FeatureId) (d : Declaration) (hd : g.declaration? f = some d)
    (hacyclic : g.AcyclicFrom f) (earlier : List FeatureId) (r : ResolvedDeclaration) :
    g.Flattens f r ↔ r = (g.resolveDeclaration f d (g.resolveAll earlier []).2).1 := by
  have hbefore : g.Faithful (g.resolveAll earlier []).2 :=
    faithful_resolveAll earlier [] fun t r hr ↦ by simp at hr
  have hafter := faithful_resolveFrom [] f d _ hd (by simp) hbefore
  have hflat : g.Flattens f (g.resolveDeclaration f d (g.resolveAll earlier []).2).1 :=
    hafter f _ (lookup_resolveFrom g [] f d _) hacyclic
  constructor
  · intro h
    exact h.unique hflat
  · rintro rfl
    exact hflat

def diamond : Graph where
  documents := [
    { url := "a.js"
      features := [
        .declaration { role := .behavior, name := some "A", behaviors := [⟨"B", none⟩, ⟨"C", none⟩] },
        .declaration { role := .behavior, name := some "B", behaviors := [⟨"D", none⟩] },
        .declaration { role := .behavior, name := some "C", behaviors := [⟨"D", none⟩] },
        .declaration { role := .behavior, name := some "D" },
        .declaration { role := .behavior, name := some "E", behaviors := [⟨"F", none⟩, ⟨"A", none⟩] },
        .declaration { role := .behavior, name := some "F", behaviors := [⟨"E", none⟩, ⟨"D", none⟩] }] }]

theorem diamond_acyclic : diamond.AcyclicFrom ⟨0, 0⟩ := by
  have htargets (index : Nat) := targets_eq (f := ⟨0, index⟩) (show diamond.reachable 0 true = [0] by cbv)
  have h₀ : diamond.targets ⟨0, 0⟩ = [⟨0, 1⟩, ⟨0, 2⟩] := htargets 0
  have h₁ : diamond.targets ⟨0, 1⟩ = [⟨0, 3⟩] := htargets 1
  have h₂ : diamond.targets ⟨0, 2⟩ = [⟨0, 3⟩] := htargets 2
  have h₃ : diamond.targets ⟨0, 3⟩ = [] := htargets 3
  refine acyclicFrom_of_rank [⟨0, 0⟩, ⟨0, 1⟩, ⟨0, 2⟩, ⟨0, 3⟩] (fun t ↦ 3 - t.index) List.mem_cons_self ?_
  simp [h₀, h₁, h₂, h₃]

theorem diamond_flattened : ∃ d, diamond.declaration? ⟨0, 0⟩ = some d ∧
    diamond.Flattens ⟨0, 0⟩
      (diamond.resolveDeclaration ⟨0, 0⟩ d (diamond.resolveAll [⟨0, 5⟩, ⟨0, 2⟩] []).2).1 :=
  ⟨_, rfl, (resolveDeclaration_flattens diamond ⟨0, 0⟩ _ rfl diamond_acyclic [⟨0, 5⟩, ⟨0, 2⟩] _).2 rfl⟩

end Graph

end PolymerAnalysis
