import PolymerAnalysis.Proofs.Resolution.Acyclic

namespace PolymerAnalysis.Graph

open Relation

variable {g : Graph} {i : DocId} {chain outer : List FeatureId} {f t : FeatureId} {d : Declaration}
  {memo memo' : Memo} {parts : List Part} {r : ResolvedDeclaration}

theorem exists_declaration_of_refersTo (h : g.RefersTo f t) : ∃ d, g.declaration? f = some d := by
  cases hd : g.declaration? f with
  | some d => exact ⟨d, rfl⟩
  | none => simp [RefersTo, targets, hd] at h

/-- Declaration `f`, which is `d`, can be put together from `parts`: it is not in the memo, every declaration of
the chain leads to it, and each part is what the memo has for a reference. -/
structure Assembles (g : Graph) (memo : Memo) (chain : List FeatureId) (f : FeatureId) (d : Declaration)
    (parts : List Part) : Prop where
  missing : memo.lookup f = none
  declared : g.declaration? f = some d
  leads : ∀ c ∈ chain, ReflTransGen g.RefersTo c f
  supplied : List.Forall₂ (g.Supplies f.owner memo) (g.accepted f.owner (f :: chain) d.references) parts

def assembled (g : Graph) (chain : List FeatureId) (f : FeatureId) (d : Declaration) (parts : List Part) :
    ResolvedDeclaration :=
  d.flattened f parts (d.references.filterMap (g.refusal? f.owner (f :: chain)))

/-- One declaration comes to the memo, put together while those of `outer`, and maybe others, are being
resolved. -/
inductive Remembers (g : Graph) (outer : List FeatureId) : Memo → Memo → Prop
  | intro {memo : Memo} {chain : List FeatureId} {f : FeatureId} {d : Declaration} {parts : List Part} :
      outer ⊆ chain → g.Assembles memo chain f d parts →
      Remembers g outer memo ((f, g.assembled chain f d parts) :: memo)

/-- A memo that has been built up from nothing, one declaration after the other. -/
def Built (g : Graph) (memo : Memo) : Prop := ReflTransGen (g.Remembers []) [] memo

theorem Remembers.mono (h : g.Remembers chain memo memo') (hsub : outer ⊆ chain) : g.Remembers outer memo memo' := by
  cases h with
  | intro hchain hassembles => exact .intro (List.Subset.trans hsub hchain) hassembles

/-- What a memo has for a declaration came to it in the last step or was there before. -/
theorem Remembers.lookup_cases (h : g.Remembers outer memo memo') (hr : memo'.lookup f = some r) :
    (∃ chain d parts, outer ⊆ chain ∧ g.Assembles memo chain f d parts ∧ r = g.assembled chain f d parts ∧
      memo' = (f, r) :: memo) ∨
    memo.lookup f = some r ∧ ∃ t r', f ≠ t ∧ memo' = (t, r') :: memo := by
  cases h with
  | @intro chain t d parts hsub hassembles =>
    by_cases ht : f = t
    · subst ht
      rw [List.lookup_cons_self] at hr
      cases hr
      exact .inl ⟨chain, d, parts, hsub, hassembles, rfl, rfl⟩
    · rw [Keyed.lookup_cons_ne ht] at hr
      exact .inr ⟨hr, t, _, ht, rfl⟩

theorem resolveFrom_assembles (chain : List FeatureId) (memo : Memo) (hd : g.declaration? f = some d)
    (hchain : ∀ c ∈ chain, ReflTransGen g.RefersTo c f) (hmiss : memo.lookup f = none) :
    ∃ memo' parts,
      memo' = (d.references.foldl (g.composeIn f.owner (f :: chain)) ({ warnings := d.warnings }, memo)).2 ∧
      g.Assembles memo' chain f d parts ∧
      g.resolveFrom chain f d memo = (g.assembled chain f d parts, (f, g.assembled chain f d parts) :: memo') := by
  obtain ⟨parts, memo', hfold, hgrows, hparts⟩ :=
    foldl_composeIn_ofParts g f.owner (f :: chain) d.references [] d.warnings memo
  rw [Composition.ofParts_nil] at hfold
  have hmiss' : memo'.lookup f = none := (hgrows.spares f List.mem_cons_self).trans hmiss
  have hvalue := Composition.finish_addOwn_ofParts parts
    (d.references.filterMap (g.refusal? f.owner (f :: chain))) f d
  refine ⟨memo', parts, by rw [hfold], ⟨hmiss', hd, hchain, hparts⟩, ?_⟩
  rw [resolveFrom_computed hmiss, hfold]
  dsimp only
  rw [List.nil_append, hvalue]
  rfl

theorem resolveFrom_remembers (chain : List FeatureId) (f : FeatureId) (d : Declaration) (memo : Memo)
    (hd : g.declaration? f = some d) (hchain : ∀ c ∈ chain, ReflTransGen g.RefersTo c f) :
    ReflTransGen (g.Remembers chain) memo (g.resolveFrom chain f d memo).2 := by
  induction chain, f, d, memo using resolveFrom_induction g with
  | remembered chain f d memo r h =>
    rw [resolveFrom_remembered h]
  | computed chain f d memo hmiss ih =>
    -- while the references are gone through, `f` is on the chain as well
    have hall := foldl_composeIn_keeps (Q := ReflTransGen (g.Remembers chain) memo) hd hchain
      (fun t e memo' ht hc he hleads hsteps ↦ hsteps.trans ((ih t e memo' ht hc he hleads).lift id
        fun _ _ hstep ↦ hstep.mono (List.subset_cons_self f chain))) ({ warnings := d.warnings }, memo) .refl
    obtain ⟨memo', parts, hmemo, hassembles, hresolve⟩ := resolveFrom_assembles chain memo hd hchain hmiss
    rw [← hmemo] at hall
    rw [hresolve]
    exact hall.tail (.intro (List.Subset.refl chain) hassembles)

theorem exists_remembers (chain : List FeatureId) (memo : Memo) (hd : g.declaration? f = some d)
    (hchain : ∀ c ∈ chain, ReflTransGen g.RefersTo c f) (hmiss : memo.lookup f = none) :
    ∃ memo', ReflTransGen (g.Remembers (f :: chain)) memo memo' ∧
      (g.resolveFrom chain f d memo).2 = (f, (g.resolveFrom chain f d memo).1) :: memo' := by
  have hall := foldl_composeIn_keeps (Q := ReflTransGen (g.Remembers (f :: chain)) memo) hd hchain
    (fun t e memo' _ _ he hleads hsteps ↦ hsteps.trans (resolveFrom_remembers (f :: chain) t e memo' he hleads))
    ({ warnings := d.warnings }, memo) .refl
  rw [resolveFrom_computed hmiss]
  exact ⟨_, hall, rfl⟩

theorem keeps_resolved (h : ReflTransGen (g.Remembers outer) memo memo') (hr : memo.lookup f = some r) :
    memo'.lookup f = some r := by
  induction h with
  | refl => exact hr
  | tail _ hstep ih =>
    cases hstep with
    | @intro chain t d parts hsub hassembles =>
      have hne : f ≠ t := by
        rintro rfl
        rw [hassembles.missing] at ih
        cases ih
      rw [Keyed.lookup_cons_ne hne]
      exact ih

theorem exists_assembles (h : ReflTransGen (g.Remembers outer) memo memo') (hmiss : memo.lookup f = none)
    (hr : memo'.lookup f = some r) :
    ∃ earlier chain d parts, ReflTransGen (g.Remembers outer) memo earlier ∧ outer ⊆ chain ∧
      g.Assembles earlier chain f d parts ∧ r = g.assembled chain f d parts := by
  induction h with
  | refl =>
    rw [hmiss] at hr
    cases hr
  | @tail earlier _ hbefore hstep ih =>
    obtain ⟨chain, d, parts, hsub, hassembles, heq, -⟩ | ⟨hr, -⟩ := hstep.lookup_cases hr
    · exact ⟨earlier, chain, d, parts, hbefore, hsub, hassembles, heq⟩
    · exact ih hr

end PolymerAnalysis.Graph
