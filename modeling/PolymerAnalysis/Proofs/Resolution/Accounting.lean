import PolymerAnalysis.Proofs.Resolution.Recursion

namespace PolymerAnalysis

/-- A resolver at work: the declarations it is resolving, and those that are resolved already. -/
structure Resolver where
  chain : List FeatureId := []
  memo : Memo := []

namespace Resolver

def enter (s : Resolver) (f : FeatureId) : Resolver := { s with chain := s.chain.insert f }

def leave (s : Resolver) (f : FeatureId) (r : ResolvedDeclaration) : Resolver :=
  ⟨s.chain.filter fun x ↦ x ≠ f, (f, r) :: s.memo⟩

end Resolver

namespace Graph

variable {g : Graph}

mutual

/-- In state `s` the resolver is asked for declaration `f`; it answers `r` and is left in state `s'`. -/
inductive Resolves (g : Graph) : FeatureId → Resolver → ResolvedDeclaration → Resolver → Prop
  | remembered {f : FeatureId} {s : Resolver} {r : ResolvedDeclaration} :
      s.memo.lookup f = some r → Resolves g f s r s
  | computed {f : FeatureId} {d : Declaration} {s s' : Resolver} {c : Composition} :
      s.memo.lookup f = none → g.declaration? f = some d →
      Composes g f.owner d.references (s.enter f) { warnings := d.warnings } c s' →
      Resolves g f s ((c.addOwn f d).finish d) (s'.leave f ((c.addOwn f d).finish d))

/-- In state `s` the resolver goes through references of a declaration in document `i`, which make the
composition `c` into `c'`. -/
inductive Composes (g : Graph) : DocId → List (ReferenceKind × Reference) → Resolver → Composition →
    Composition → Resolver → Prop
  | done {i : DocId} {s : Resolver} {c : Composition} : Composes g i [] s c c s
  | refused {i : DocId} {reference : ReferenceKind × Reference} {rest : List (ReferenceKind × Reference)}
      {s s' : Resolver} {c c' : Composition} {w : Warning} :
      g.refusal? i s.chain reference = some w → Composes g i rest s (c.addWarning w) c' s' →
      Composes g i (reference :: rest) s c c' s'
  | composed {i : DocId} {reference : ReferenceKind × Reference} {rest : List (ReferenceKind × Reference)}
      {s s₁ s' : Resolver} {c c' : Composition} {t : FeatureId} {r : ResolvedDeclaration} :
      g.lookup? i reference = some t → t ∉ s.chain → Resolves g t s r s₁ →
      Composes g i rest s₁ (c.compose reference.1 reference.2 r) c' s' →
      Composes g i (reference :: rest) s c c' s'

end

theorem enter_eq {s : Resolver} {f : FeatureId} (hf : f ∉ s.chain) : s.enter f = ⟨f :: s.chain, s.memo⟩ := by
  rw [Resolver.enter, List.insert_of_not_mem hf]

theorem leave_eq {s : Resolver} {f : FeatureId} {chain : List FeatureId} (hs : s.chain = f :: chain)
    (hf : f ∉ chain) (r : ResolvedDeclaration) : s.leave f r = ⟨chain, (f, r) :: s.memo⟩ := by
  have hrest : chain.filter (fun x ↦ x ≠ f) = chain :=
    List.filter_eq_self.2 fun x hx ↦ decide_eq_true (ne_of_mem_of_not_mem hx hf)
  rw [Resolver.leave, hs, List.filter_cons_of_neg (by simp), hrest]

theorem composes_foldl (g : Graph) (i : DocId) (chain : List FeatureId)
    (references : List (ReferenceKind × Reference))
    (h : ∀ t e memo, t ∈ g.allFeatureIds → g.declaration? t = some e → t ∉ chain →
      g.Resolves t ⟨chain, memo⟩ (g.resolveFrom chain t e memo).1 ⟨chain, (g.resolveFrom chain t e memo).2⟩)
    (x : Composition × Memo) :
    g.Composes i references ⟨chain, x.2⟩ x.1 (references.foldl (g.composeIn i chain) x).1
      ⟨chain, (references.foldl (g.composeIn i chain) x).2⟩ := by
  induction references generalizing x with
  | nil => exact .done
  | cons reference rest ih =>
    rw [List.foldl_cons]
    have hrest := ih (g.composeIn i chain x reference)
    obtain ⟨w, hw, he⟩ | ⟨t, e, -, hl, ht, hc, he⟩ := composeIn_cases g i chain x reference
    · rw [he] at hrest ⊢
      exact .refused hw hrest
    · rw [he] at hrest ⊢
      exact .composed hl hc (h t e x.2 (find?_mem hl) ht hc) hrest

theorem resolves_resolveFrom (g : Graph) (chain : List FeatureId) (f : FeatureId) (d : Declaration) (memo : Memo)
    (hd : g.declaration? f = some d) (hf : f ∉ chain) :
    g.Resolves f ⟨chain, memo⟩ (g.resolveFrom chain f d memo).1 ⟨chain, (g.resolveFrom chain f d memo).2⟩ := by
  induction chain, f, d, memo using resolveFrom_induction g with
  | remembered chain f d memo r h =>
    rw [resolveFrom_remembered h]
    exact .remembered h
  | computed chain f d memo h ih =>
    have hall := composes_foldl g f.owner (f :: chain) d.references
      (fun t e memo' ht he hc ↦ ih t e memo' ht hc he hc) ({ warnings := d.warnings }, memo)
    have henter : Resolver.enter ⟨chain, memo⟩ f = ⟨f :: chain, memo⟩ := enter_eq hf
    rw [← henter] at hall
    have hrun := Resolves.computed (s := ⟨chain, memo⟩) h hd hall
    rw [leave_eq rfl hf] at hrun
    rw [resolveFrom_computed h]
    exact hrun

theorem Resolves.eq {f : FeatureId} {s s' : Resolver} {r : ResolvedDeclaration} (h : g.Resolves f s r s')
    {d : Declaration} (hd : g.declaration? f = some d) (hf : f ∉ s.chain) :
    g.resolveFrom s.chain f d s.memo = (r, s'.memo) ∧ s'.chain = s.chain := by
  induction h using @Resolves.rec g _ fun i references s c c' s' _ ↦
    references.foldl (g.composeIn i s.chain) (c, s.memo) = (c', s'.memo) ∧ s'.chain = s.chain
    generalizing d with
  | remembered hr => exact ⟨resolveFrom_remembered hr, rfl⟩
  | computed hmiss hd' hall ih =>
    obtain ⟨hfold, hchain⟩ := ih
    rw [enter_eq hf] at hfold hchain
    cases hd.symm.trans hd'
    rw [resolveFrom_computed hmiss, hfold, leave_eq hchain hf]
    exact ⟨rfl, rfl⟩
  | done => exact ⟨rfl, rfl⟩
  | refused hw hrest ih =>
    obtain ⟨hfold, hchain⟩ := ih
    refine ⟨?_, hchain⟩
    rw [List.foldl_cons, composeIn_of_refusal hw, hfold]
  | composed hl hc hr hrest ih ih' =>
    obtain ⟨e, ht, he⟩ := target?_of_lookup?_eq_some hl
    obtain ⟨hresolve, hchain₁⟩ := ih he hc
    obtain ⟨hfold, hchain⟩ := ih'
    rw [hchain₁] at hfold hchain
    refine ⟨?_, hchain⟩
    rw [List.foldl_cons, composeIn_composed ht hc, hresolve, hfold]

theorem refusal?_unknown {i : DocId} {reference : ReferenceKind × Reference} (chain : List FeatureId)
    (hl : g.lookup? i reference = none) :
    ∃ w, g.refusal? i chain reference = some w ∧ w.range = reference.2.range ∧
      w.code = match reference.1 with
        | .behavior => "unknown-polymer-behavior"
        | .mixin => "unknown-mixin" := by
  refine ⟨reference.2.unknownWarning reference.1, by simp only [refusal?, hl], ?_⟩
  cases reference.1 <;> exact ⟨rfl, rfl⟩

theorem refusal?_cyclic {i : DocId} {chain : List FeatureId} {reference : ReferenceKind × Reference}
    {t : FeatureId} (hl : g.lookup? i reference = some t) (hc : t ∈ chain) :
    ∃ w, g.refusal? i chain reference = some w ∧ w.range = reference.2.range ∧
      w.code = match reference.1 with
        | .behavior => "cyclic-behavior-reference"
        | .mixin => "cyclic-mixin-reference" :=
  ⟨reference.2.cyclicWarning reference.1, by simp only [refusal?, hl, if_pos hc], rfl, rfl⟩

theorem names_flattened (d : Declaration) (f : FeatureId) (parts : List Part) (refused : List Warning)
    (kind : ReferenceKind) :
    (d.flattened f parts refused).names kind = (parts.flatMap (·.names kind)).eraseDups := by
  cases kind <;> rfl

/-- What becomes of every reference of declaration `f`, which is `d`, when a resolver in state `s` makes `r`
of it and is left in state `s'`. -/
structure Accounts (g : Graph) (f : FeatureId) (d : Declaration) (s s' : Resolver) (r : ResolvedDeclaration) :
    Prop where
  warnings : r.warnings = d.warnings ++ d.references.filterMap (g.refusal? f.owner (f :: s.chain)) ++
    d.properties.flatMap (·.warnings)
  unknown : ∀ reference ∈ d.references, g.lookup? f.owner reference = none →
    ∃ w, g.refusal? f.owner (f :: s.chain) reference = some w ∧ w.range = reference.2.range ∧
      w.code = match reference.1 with
        | .behavior => "unknown-polymer-behavior"
        | .mixin => "unknown-mixin"
  cyclic : ∀ reference ∈ d.references, ∀ t ∈ f :: s.chain, g.lookup? f.owner reference = some t →
    ∃ w, g.refusal? f.owner (f :: s.chain) reference = some w ∧ w.range = reference.2.range ∧
      w.code = match reference.1 with
        | .behavior => "cyclic-behavior-reference"
        | .mixin => "cyclic-mixin-reference"
  composed : ∃ parts,
    List.Forall₂ (g.Supplies f.owner s'.memo) (g.accepted f.owner (f :: s.chain) d.references) parts ∧
    r = d.flattened f parts (d.references.filterMap (g.refusal? f.owner (f :: s.chain)))
  listed : ∀ reference ∈ d.references, ∀ t ∉ f :: s.chain, g.lookup? f.owner reference = some t →
    g.refusal? f.owner (f :: s.chain) reference = none ∧ reference.2.name ∈ r.names reference.1

theorem accounts_resolveFrom {f : FeatureId} {d : Declaration} {s s' : Resolver} {r : ResolvedDeclaration}
    (hmiss : s.memo.lookup f = none) (h : g.resolveFrom s.chain f d s.memo = (r, s'.memo)) :
    g.Accounts f d s s' r := by
  obtain ⟨parts, hr, hparts⟩ := resolveFrom_flattened g s.chain d hmiss
  rw [h] at hr hparts
  dsimp only at hr hparts
  refine ⟨by rw [hr, Declaration.flattened], fun reference _ hl ↦ refusal?_unknown _ hl,
    fun reference _ t hc hl ↦ refusal?_cyclic hl hc, ⟨parts, hparts, hr⟩, fun reference href t hc hl ↦ ?_⟩
  have hnone := refusal?_eq_none hl hc
  obtain ⟨part, hpart, hkind, hreference, -⟩ := exists_part hparts (mem_accepted href hl hc)
  refine ⟨hnone, ?_⟩
  rw [hr, names_flattened, List.mem_eraseDups]
  refine List.mem_flatMap.2 ⟨part, hpart, ?_⟩
  rw [Part.names, if_pos hkind, ← hreference]
  exact List.mem_append_right _ List.mem_cons_self

/-- Resolution terminates on every graph, with cycles or without, and says what becomes of every reference. A
resolver that is asked for a declaration it is not resolving has exactly one run; in the end its chain is what it
was. -/
theorem resolution_accounts (g : Graph) (f : FeatureId) (d : Declaration) (s : Resolver)
    (hd : g.declaration? f = some d) (hf : f ∉ s.chain) :
    ∃ r s', (∀ r' s'', g.Resolves f s r' s'' ↔ r' = r ∧ s'' = s') ∧
      g.resolveFrom s.chain f d s.memo = (r, s'.memo) ∧ s'.chain = s.chain ∧
      (s.memo.lookup f = none → g.Accounts f d s s' r) := by
  have hrun := resolves_resolveFrom g s.chain f d s.memo hd hf
  refine ⟨(g.resolveFrom s.chain f d s.memo).1, ⟨s.chain, (g.resolveFrom s.chain f d s.memo).2⟩,
    fun r' s'' ↦ ⟨fun h ↦ ?_, ?_⟩, rfl, rfl, fun hmiss ↦ accounts_resolveFrom hmiss rfl⟩
  · obtain ⟨he, hchain⟩ := h.eq hd hf
    rw [he, ← hchain]
    exact ⟨rfl, rfl⟩
  · rintro ⟨rfl, rfl⟩
    exact hrun

def twins : Graph where
  documents := [
    { url := "a.js", imports := [1]
      features := [.declaration { role := .behavior, name := some "A", behaviors := [⟨"B", none⟩] }] },
    { url := "b.js", imports := [0]
      features := [.declaration { role := .behavior, name := some "B"
                                  behaviors := [⟨"A", none⟩, ⟨"B", none⟩, ⟨"C", none⟩] }] }]

theorem reachable_twins : twins.reachable 0 true = [0, 1] ∧ twins.reachable 1 true = [1, 0] := ⟨by cbv, by cbv⟩

theorem twins_accounted : ∃ d r s', twins.declaration? ⟨1, 0⟩ = some d ∧ twins.Resolves ⟨1, 0⟩ {} r s' ∧
    s'.chain = [] ∧ twins.Accounts ⟨1, 0⟩ d {} s' r ∧ r.warnings.map (·.code) =
      [Text.ofString "cyclic-behavior-reference", Text.ofString "unknown-polymer-behavior"] := by
  obtain ⟨r, s', hrun, -, hchain, haccounts⟩ := resolution_accounts twins ⟨1, 0⟩ _ {} rfl List.not_mem_nil
  refine ⟨_, r, s', rfl, (hrun r s').2 ⟨rfl, rfl⟩, hchain, haccounts rfl, ?_⟩
  rw [(haccounts rfl).warnings]
  unfold refusal?
  simp only [lookup?_eq reachable_twins.2]
  rfl

end Graph

end PolymerAnalysis
