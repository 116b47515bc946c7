import PolymerAnalysis.Proofs.Resolution.Flattening
import PolymerAnalysis.Resolution.Basic

namespace PolymerAnalysis

/-- What one memo has, a later one has too, and nothing is added for the declarations of the chain. -/
structure Memo.Grows (chain : List FeatureId) (memo memo' : Memo) : Prop where
  keeps : ∀ x r, memo.lookup x = some r → memo'.lookup x = some r
  spares : ∀ x ∈ chain, memo'.lookup x = memo.lookup x

theorem Memo.Grows.refl (chain : List FeatureId) (memo : Memo) : memo.Grows chain memo :=
  ⟨fun _ _ h ↦ h, fun _ _ ↦ rfl⟩

theorem Memo.Grows.trans {chain : List FeatureId} {memo memo₁ memo₂ : Memo} (h : memo.Grows chain memo₁)
    (h' : memo₁.Grows chain memo₂) : memo.Grows chain memo₂ :=
  ⟨fun x r hr ↦ h'.keeps x r (h.keeps x r hr), fun x hx ↦ (h'.spares x hx).trans (h.spares x hx)⟩

theorem Memo.Grows.remember {chain : List FeatureId} {memo memo' : Memo} {f : FeatureId}
    (h : memo.Grows (f :: chain) memo') (hf : f ∉ chain) (hmiss : memo.lookup f = none)
    (r : ResolvedDeclaration) : memo.Grows chain ((f, r) :: memo') := by
  constructor
  · intro x y hy
    have hx : x ≠ f := by
      rintro rfl
      rw [hmiss] at hy
      cases hy
    rw [Keyed.lookup_cons_ne hx]
    exact h.keeps x y hy
  · intro x hx
    rw [Keyed.lookup_cons_ne (ne_of_mem_of_not_mem hx hf)]
    exact h.spares x (List.mem_cons_of_mem f hx)

namespace Graph

variable {g : Graph} {i : DocId} {chain : List FeatureId}

/-- Nothing but a declaration answers for what references look up. -/
theorem declaration_of_answers {f : FeatureId} {kind : ReferenceKind} {name : Text}
    (h : g.answers f kind.featureKind name = true) : ∃ d, g.declaration? f = some d := by
  cases hf : g.feature? f with
  | none => simp [answers, hf] at h
  | some feature =>
    have ha : feature.answers kind.featureKind name = true := by simpa [answers, hf] using h
    cases feature with
    | declaration d => exact ⟨d, by simp [declaration?, hf]⟩
    | space n =>
      have hk : Text.isAmong kind.featureKind ["namespace"] = false := by cases kind <;> rfl
      simp [ScannedFeature.answers, ScannedFeature.kinds, hk] at ha
    | link l =>
      have hk : Text.isAmong kind.featureKind ["import"] = false := by cases kind <;> rfl
      simp [ScannedFeature.answers, ScannedFeature.kinds, hk] at ha
    | script s => simp [ScannedFeature.answers, ScannedFeature.kinds, Text.isAmong] at ha

def lookup? (g : Graph) (i : DocId) (reference : ReferenceKind × Reference) : Option FeatureId :=
  g.find? i reference.1.featureKind reference.2.name true

theorem lookup?_eq {is : List DocId} (h : g.reachable i true = is) : g.lookup? i = fun reference ↦
    (is.flatMap g.featureIds).find? fun t ↦ g.answers t reference.1.featureKind reference.2.name := by
  rw [← h]
  rfl

theorem target?_of_lookup?_eq_none {kind : ReferenceKind} {r : Reference} (h : g.lookup? i (kind, r) = none) :
    g.target? i kind r = none := by
  rw [target?, show g.find? i kind.featureKind r.name true = none from h, Option.bind_none]

theorem target?_of_lookup?_eq_some {kind : ReferenceKind} {r : Reference} {t : FeatureId}
    (h : g.lookup? i (kind, r) = some t) : ∃ e, g.target? i kind r = some (t, e) ∧ g.declaration? t = some e := by
  obtain ⟨e, he⟩ := declaration_of_answers (find?_answers h)
  refine ⟨e, ?_, he⟩
  rw [target?, show g.find? i kind.featureKind r.name true = some t from h, Option.bind_some, he]
  rfl

/-- The warning about a reference that contributes nothing: it leads nowhere, or to a declaration of the
chain. -/
def refusal? (g : Graph) (i : DocId) (chain : List FeatureId) (reference : ReferenceKind × Reference) :
    Option Warning :=
  match g.lookup? i reference with
  | none => some (reference.2.unknownWarning reference.1)
  | some t => if t ∈ chain then some (reference.2.cyclicWarning reference.1) else none

def accepted (g : Graph) (i : DocId) (chain : List FeatureId) (references : List (ReferenceKind × Reference)) :
    List (ReferenceKind × Reference) :=
  references.filter fun reference ↦ (g.refusal? i chain reference).isNone

theorem refusal?_eq_none {reference : ReferenceKind × Reference} {t : FeatureId}
    (hl : g.lookup? i reference = some t) (hc : t ∉ chain) : g.refusal? i chain reference = none := by
  simp only [refusal?, hl, if_neg hc]

theorem mem_accepted {references : List (ReferenceKind × Reference)} {reference : ReferenceKind × Reference}
    {t : FeatureId} (hr : reference ∈ references) (hl : g.lookup? i reference = some t) (hc : t ∉ chain) :
    reference ∈ g.accepted i chain references :=
  List.mem_filter.2 ⟨hr, by rw [refusal?_eq_none hl hc, Option.isNone_none]⟩

theorem composeIn_of_refusal {reference : ReferenceKind × Reference} {w : Warning}
    (h : g.refusal? i chain reference = some w) (x : Composition × Memo) :
    g.composeIn i chain x reference = (x.1.addWarning w, x.2) := by
  obtain ⟨kind, r⟩ := reference
  cases hl : g.lookup? i (kind, r) with
  | none =>
    simp only [refusal?, hl, Option.some.injEq] at h
    rw [composeIn_unknown (target?_of_lookup?_eq_none hl), h]
  | some t =>
    obtain ⟨e, ht, -⟩ := target?_of_lookup?_eq_some hl
    by_cases hc : t ∈ chain
    · simp only [refusal?, hl, if_pos hc, Option.some.injEq] at h
      rw [composeIn_cyclic ht hc, h]
    · simp [refusal?, hl, hc] at h

theorem composeIn_cases (g : Graph) (i : DocId) (chain : List FeatureId) (x : Composition × Memo)
    (reference : ReferenceKind × Reference) :
    (∃ w, g.refusal? i chain reference = some w ∧ g.composeIn i chain x reference = (x.1.addWarning w, x.2)) ∨
    (∃ t e, g.refusal? i chain reference = none ∧ g.lookup? i reference = some t ∧ g.declaration? t = some e ∧
      t ∉ chain ∧ g.composeIn i chain x reference =
        (x.1.compose reference.1 reference.2 (g.resolveFrom chain t e x.2).1,
          (g.resolveFrom chain t e x.2).2)) := by
  cases hw : g.refusal? i chain reference with
  | some w => exact .inl ⟨w, rfl, composeIn_of_refusal hw x⟩
  | none =>
    cases hl : g.lookup? i reference with
    | none => simp [refusal?, hl] at hw
    | some t =>
      have hc : t ∉ chain := by
        intro hc
        simp [refusal?, hl, hc] at hw
      obtain ⟨e, ht, he⟩ := target?_of_lookup?_eq_some (r := reference.2) hl
      exact .inr ⟨t, e, rfl, rfl, he, hc, composeIn_composed ht hc x⟩

/-- The recursion of the resolver as an induction principle: the chain grows by the declaration at hand. -/
theorem resolveFrom_induction (g : Graph) {P : List FeatureId → FeatureId → Declaration → Memo → Prop}
    (remembered : ∀ chain f d memo r, memo.lookup f = some r → P chain f d memo)
    (computed : ∀ chain f d memo, memo.lookup f = none →
      (∀ t e memo', t ∈ g.allFeatureIds → t ∉ f :: chain → P (f :: chain) t e memo') → P chain f d memo)
    (chain : List FeatureId) (f : FeatureId) (d : Declaration) (memo : Memo) : P chain f d memo := by
  cases h : memo.lookup f with
  | some r => exact remembered chain f d memo r h
  | none =>
    refine computed chain f d memo h fun t e memo' ht hc ↦ ?_
    exact resolveFrom_induction g remembered computed (f :: chain) t e memo'
termination_by (g.idle (f :: chain)).length
decreasing_by exact length_idle_lt ht hc

theorem lookup_resolveFrom (g : Graph) (chain : List FeatureId) (f : FeatureId) (d : Declaration) (memo : Memo) :
    (g.resolveFrom chain f d memo).2.lookup f = some (g.resolveFrom chain f d memo).1 := by
  cases h : memo.lookup f with
  | some r => rw [resolveFrom_remembered h, h]
  | none => simp [resolveFrom_computed h]

theorem foldl_composeIn_memo {Q : Memo → Prop} (references : List (ReferenceKind × Reference))
    (h : ∀ reference ∈ references, ∀ t e memo, g.lookup? i reference = some t → g.declaration? t = some e →
      t ∉ chain → Q memo → Q (g.resolveFrom chain t e memo).2)
    (x : Composition × Memo) (hx : Q x.2) : Q (references.foldl (g.composeIn i chain) x).2 := by
  induction references generalizing x with
  | nil => exact hx
  | cons reference rest ih =>
    refine ih (fun s hs ↦ h s (List.mem_cons_of_mem _ hs)) _ ?_
    obtain ⟨w, -, he⟩ | ⟨t, e, -, hl, ht, hc, he⟩ := composeIn_cases g i chain x reference
    · rw [he]
      exact hx
    · rw [he]
      exact h reference List.mem_cons_self t e x.2 hl ht hc hx

theorem resolveFrom_grows (g : Graph) (chain : List FeatureId) (f : FeatureId) (d : Declaration) (memo : Memo)
    (hf : f ∉ chain) : memo.Grows chain (g.resolveFrom chain f d memo).2 := by
  induction chain, f, d, memo using resolveFrom_induction g with
  | remembered chain f d memo r h =>
    rw [resolveFrom_remembered h]
    exact .refl chain memo
  | computed chain f d memo h ih =>
    have hall : memo.Grows (f :: chain)
        (d.references.foldl (g.composeIn f.owner (f :: chain)) ({ warnings := d.warnings }, memo)).2 :=
      foldl_composeIn_memo d.references
        (fun _ _ t e memo' hl _ hc hgrows ↦ hgrows.trans (ih t e memo' (find?_mem hl) hc hc))
        _ (.refl (f :: chain) memo)
    rw [resolveFrom_computed h]
    exact hall.remember hf h _

def Supplies (g : Graph) (i : DocId) (memo : Memo) (reference : ReferenceKind × Reference) (part : Part) : Prop :=
  part.kind = reference.1 ∧ part.reference = reference.2 ∧
    ∃ t, g.lookup? i reference = some t ∧ memo.lookup t = some part.resolved

theorem Supplies.grow {memo memo' : Memo} {reference : ReferenceKind × Reference} {part : Part}
    (h : g.Supplies i memo reference part) (hgrows : memo.Grows chain memo') :
    g.Supplies i memo' reference part := by
  obtain ⟨hkind, href, t, hl, ht⟩ := h
  exact ⟨hkind, href, t, hl, hgrows.keeps t _ ht⟩

theorem exists_part {memo : Memo} {references : List (ReferenceKind × Reference)} {parts : List Part}
    (h : List.Forall₂ (g.Supplies i memo) references parts) {reference : ReferenceKind × Reference}
    (hm : reference ∈ references) : ∃ part ∈ parts, g.Supplies i memo reference part := by
  induction h with
  | nil => exact absurd hm List.not_mem_nil
  | cons hp _ ih =>
    rcases List.mem_cons.1 hm with rfl | hm
    · exact ⟨_, List.mem_cons_self, hp⟩
    · obtain ⟨part, hpart, hsupplies⟩ := ih hm
      exact ⟨part, List.mem_cons_of_mem _ hpart, hsupplies⟩

theorem foldl_composeIn_ofParts (g : Graph) (i : DocId) (chain : List FeatureId)
    (references : List (ReferenceKind × Reference)) (parts : List Part) (ws : List Warning) (memo : Memo) :
    ∃ parts' memo', references.foldl (g.composeIn i chain) (Composition.ofParts parts ws, memo) =
        (Composition.ofParts (parts ++ parts') (ws ++ references.filterMap (g.refusal? i chain)), memo') ∧
      memo.Grows chain memo' ∧ List.Forall₂ (g.Supplies i memo') (g.accepted i chain references) parts' := by
  induction references generalizing parts ws memo with
  | nil => exact ⟨[], memo, by simp, .refl chain memo, .nil⟩
  | cons reference rest ih =>
    obtain ⟨w, hw, he⟩ | ⟨t, e, hw, hl, -, hc, he⟩ :=
      composeIn_cases g i chain (Composition.ofParts parts ws, memo) reference
    · obtain ⟨parts', memo', hfold, hgrows, hparts⟩ := ih parts (ws ++ [w]) memo
      refine ⟨parts', memo', ?_, hgrows, by simpa [accepted, hw] using hparts⟩
      rw [List.foldl_cons, he, Composition.addWarning_ofParts, hfold]
      simp [hw]
    · let part : Part := ⟨reference.1, reference.2, (g.resolveFrom chain t e memo).1⟩
      obtain ⟨parts', memo', hfold, hgrows, hparts⟩ :=
        ih (parts ++ [part]) ws (g.resolveFrom chain t e memo).2
      have hpart : g.Supplies i (g.resolveFrom chain t e memo).2 reference part :=
        ⟨rfl, rfl, t, hl, lookup_resolveFrom g chain t e memo⟩
      refine ⟨part :: parts', memo', ?_, (resolveFrom_grows g chain t e memo hc).trans hgrows, ?_⟩
      · rw [List.foldl_cons, he, Composition.compose_ofParts, hfold]
        simp [hw, part]
      · simpa [accepted, hw] using List.Forall₂.cons (hpart.grow hgrows) hparts

/-- A declaration that is not in the memo becomes its flattening over the parts that its references supply. -/
theorem resolveFrom_flattened (g : Graph) (chain : List FeatureId) {f : FeatureId} {memo : Memo} (d : Declaration)
    (hmiss : memo.lookup f = none) :
    ∃ parts, (g.resolveFrom chain f d memo).1 =
        d.flattened f parts (d.references.filterMap (g.refusal? f.owner (f :: chain))) ∧
      List.Forall₂ (g.Supplies f.owner (g.resolveFrom chain f d memo).2)
        (g.accepted f.owner (f :: chain) d.references) parts := by
  obtain ⟨parts, memo', hfold, hgrows, hparts⟩ :=
    foldl_composeIn_ofParts g f.owner (f :: chain) d.references [] d.warnings memo
  have hmiss' : memo'.lookup f = none := (hgrows.spares f List.mem_cons_self).trans hmiss
  rw [Composition.ofParts_nil] at hfold
  rw [resolveFrom_computed hmiss, hfold]
  refine ⟨parts, Composition.finish_addOwn_ofParts parts _ f d, hparts.imp fun _ _ hpart ↦ ?_⟩
  exact hpart.grow ((Memo.Grows.refl [f] memo').remember List.not_mem_nil hmiss' _)

end Graph

end PolymerAnalysis
