import PolymerAnalysis.Proofs.Graph.Isomorphism
import PolymerAnalysis.Proofs.Resolution.Accounting
import PolymerAnalysis.Proofs.Resolution.Requests
import Mathlib.Data.List.Chain
import Mathlib.Data.List.DropRight

namespace PolymerAnalysis

def Warning.IsCyclic (w : Warning) : Prop :=
  w.code = "cyclic-behavior-reference" ∨ w.code = "cyclic-mixin-reference"

/-- The warnings that came to a declaration when it was resolved. They stand between its own and those of its
properties. -/
def Declaration.added (d : Declaration) (r : ResolvedDeclaration) : List Warning :=
  (r.warnings.drop d.warnings.length).rdrop (d.properties.flatMap (·.warnings)).length

namespace Graph

open Relation

variable {g : Graph} {i : DocId} {chain : List FeatureId} {f : FeatureId} {d : Declaration} {memo : Memo}
  {parts : List Part} {w : Warning}

/-- Each of some declarations refers to the next one, and the last one to the first. -/
def IsCycle (g : Graph) : List FeatureId → Prop
  | [] => False
  | f :: path => List.Forall₂ g.RefersTo (f :: path) (path ++ [f])

theorem IsCycle.exists_next {cycle : List FeatureId} (h : g.IsCycle cycle) (hf : f ∈ cycle) :
    ∃ t ∈ cycle, g.RefersTo f t := by
  cases cycle with
  | nil => exact absurd hf List.not_mem_nil
  | cons c path =>
    obtain ⟨t, ht, hstep⟩ := exists_of_forall₂ h hf
    refine ⟨t, ?_, hstep⟩
    rcases List.mem_append.1 ht with ht | ht
    · exact List.mem_cons_of_mem c ht
    · exact List.mem_cons.2 (.inl (List.mem_singleton.1 ht))

theorem exists_isCycle (h : TransGen g.RefersTo f f) : ∃ cycle, g.IsCycle cycle ∧ f ∈ cycle := by
  obtain ⟨t, ht, hback⟩ := TransGen.head'_iff.1 h
  obtain ⟨path, hpath, hlast⟩ := List.exists_isChain_cons_of_relationReflTransGen hback
  have hsplit : t :: path = (t :: path).dropLast ++ [f] := by
    rw [← hlast, List.dropLast_append_getLast]
  have hchain : List.IsChain g.RefersTo (f :: (t :: path)) := List.isChain_cons_cons.2 ⟨ht, hpath⟩
  rw [hsplit] at hchain
  exact ⟨f :: (t :: path).dropLast, List.isChain_cons_append_singleton_iff_forall₂.1 hchain, List.mem_cons_self⟩

theorem added_assembled (g : Graph) (chain : List FeatureId) (f : FeatureId) (d : Declaration) (parts : List Part) :
    d.added (g.assembled chain f d parts) = d.references.filterMap (g.refusal? f.owner (f :: chain)) := by
  rw [Declaration.added, assembled, Declaration.flattened, List.append_assoc, List.drop_left,
    List.rdrop_append_length]

theorem isCyclic_cyclicWarning (kind : ReferenceKind) (r : Reference) : (r.cyclicWarning kind).IsCyclic := by
  cases kind with
  | behavior => exact .inl rfl
  | mixin => exact .inr rfl

theorem exists_of_cyclic_refusal {reference : ReferenceKind × Reference}
    (h : g.refusal? i chain reference = some w) (hw : w.IsCyclic) :
    ∃ t ∈ chain, g.lookup? i reference = some t := by
  cases hl : g.lookup? i reference with
  | none =>
    obtain ⟨w', hw', -, hcode⟩ := refusal?_unknown chain hl
    cases h.symm.trans hw'
    rw [Warning.IsCyclic, hcode] at hw
    obtain ⟨kind, r⟩ := reference
    cases kind <;> dsimp only at hw <;> exact absurd hw (by decide)
  | some t =>
    refine ⟨t, ?_, rfl⟩
    by_contra hc
    rw [refusal?_eq_none hl hc] at h
    cases h

theorem Assembles.transGen (h : g.Assembles memo chain f d parts)
    (hw : w ∈ d.references.filterMap (g.refusal? f.owner (f :: chain))) (hcyclic : w.IsCyclic) :
    TransGen g.RefersTo f f := by
  obtain ⟨reference, href, hrefused⟩ := List.mem_filterMap.1 hw
  obtain ⟨t, ht, hl⟩ := exists_of_cyclic_refusal hrefused hcyclic
  have hstep := (refersTo_iff h.declared).2 ⟨reference, href, hl⟩
  rcases List.mem_cons.1 ht with rfl | ht
  · exact .single hstep
  · exact .head' hstep (h.leads t ht)

theorem Assembles.lookup_or_mem (h : g.Assembles memo chain f d parts) {reference : ReferenceKind × Reference}
    {t : FeatureId} (href : reference ∈ d.references) (hl : g.lookup? f.owner reference = some t) :
    t ∈ f :: chain ∨ ∃ r, memo.lookup t = some r := by
  by_cases hc : t ∈ f :: chain
  · exact .inl hc
  · obtain ⟨part, -, -, -, u, hu, hpart⟩ := exists_part h.supplied (mem_accepted href hl hc)
    cases hl.symm.trans hu
    exact .inr ⟨part.resolved, hpart⟩

/-- Of some declarations each refers to another of them, or to itself. The one that was resolved first cannot have
been composed of any of them. -/
theorem Built.exists_cut {members : List FeatureId} (h : g.Built memo)
    (hnext : ∀ f ∈ members, ∃ t ∈ members, g.RefersTo f t)
    (hresolved : ∃ f ∈ members, ∃ r, memo.lookup f = some r) :
    ∃ f ∈ members, ∃ d r, g.declaration? f = some d ∧ memo.lookup f = some r ∧
      ∃ t ∈ members, ∃ reference ∈ d.references, g.lookup? f.owner reference = some t ∧
        reference.2.cyclicWarning reference.1 ∈ d.added r := by
  induction h with
  | refl =>
    obtain ⟨f, -, r, hr⟩ := hresolved
    cases hr
  | @tail earlier _ _ hstep ih =>
    cases hstep with
    | @intro chain f d parts hsub hassembles =>
      by_cases hearlier : ∃ t ∈ members, ∃ r, earlier.lookup t = some r
      · obtain ⟨t, ht, d', r, hd', hr, hcut⟩ := ih hearlier
        exact ⟨t, ht, d', r, hd', keeps_resolved (.single (.intro hsub hassembles)) hr, hcut⟩
      · obtain ⟨f', hf', r, hr⟩ := hresolved
        have hf : f' = f := by
          by_contra hne
          rw [Keyed.lookup_cons_ne hne] at hr
          exact hearlier ⟨f', hf', r, hr⟩
        subst hf
        obtain ⟨t, ht, hstep⟩ := hnext f' hf'
        obtain ⟨reference, href, hl⟩ := (refersTo_iff hassembles.declared).1 hstep
        have hc : t ∈ f' :: chain := by
          rcases hassembles.lookup_or_mem href hl with hc | hmem
          · exact hc
          · exact absurd ⟨t, ht, hmem⟩ hearlier
        refine ⟨f', hf', d, _, hassembles.declared, List.lookup_cons_self, t, ht, reference, href, hl, ?_⟩
        rw [added_assembled]
        refine List.mem_filterMap.2 ⟨reference, href, ?_⟩
        simp only [refusal?, hl, if_pos hc]

/-- A warning about a cycle comes only to a declaration that lies on one, and of a cycle of which anything is
resolved at least one declaration has a warning about a reference to another, or to itself. -/
theorem cycles_reported (g : Graph) (requests : List Request) :
    (∀ f d r, g.declaration? f = some d → (g.memoAfter requests).lookup f = some r →
      ∀ w ∈ d.added r, w.IsCyclic → ∃ cycle, g.IsCycle cycle ∧ f ∈ cycle) ∧
    ∀ cycle, g.IsCycle cycle → (∃ f ∈ cycle, ∃ r, (g.memoAfter requests).lookup f = some r) →
      ∃ f ∈ cycle, ∃ d r, g.declaration? f = some d ∧ (g.memoAfter requests).lookup f = some r ∧
        ∃ w ∈ d.added r, w.IsCyclic ∧ ∃ t ∈ cycle, ∃ reference ∈ d.references,
          g.lookup? f.owner reference = some t ∧ w = reference.2.cyclicWarning reference.1 := by
  have hbuilt := built_memoAfter g requests
  constructor
  · intro f d r hd hr w hw hcyclic
    obtain ⟨earlier, chain, d', parts, -, -, hassembles, rfl⟩ := exists_assembles hbuilt rfl hr
    cases hd.symm.trans hassembles.declared
    rw [added_assembled] at hw
    exact exists_isCycle (hassembles.transGen hw hcyclic)
  · intro cycle hcycle hresolved
    obtain ⟨f, hf, d, r, hd, hr, t, ht, reference, href, hl, hw⟩ :=
      hbuilt.exists_cut (fun f hf ↦ hcycle.exists_next hf) hresolved
    exact ⟨f, hf, d, r, hd, hr, _, hw, isCyclic_cyclicWarning _ _, t, ht, reference, href, hl, rfl⟩

theorem twins_refersTo : twins.RefersTo ⟨0, 0⟩ ⟨1, 0⟩ ∧ twins.RefersTo ⟨1, 0⟩ ⟨0, 0⟩ := by
  have hfirst : twins.targets ⟨0, 0⟩ = [⟨1, 0⟩] := targets_eq (f := ⟨0, 0⟩) reachable_twins.1
  have hsecond : twins.targets ⟨1, 0⟩ = [⟨0, 0⟩, ⟨1, 0⟩] := targets_eq (f := ⟨1, 0⟩) reachable_twins.2
  rw [RefersTo, RefersTo, hfirst, hsecond]
  exact ⟨List.mem_cons_self, List.mem_cons_self⟩

theorem twins_reported : twins.IsCycle [⟨0, 0⟩, ⟨1, 0⟩] ∧
    ∃ f ∈ [(⟨0, 0⟩ : FeatureId), ⟨1, 0⟩], ∃ d r w, twins.declaration? f = some d ∧
      (twins.memoAfter [.feature ⟨0, 0⟩]).lookup f = some r ∧ w ∈ d.added r ∧ w.IsCyclic := by
  have hcycle : twins.IsCycle [⟨0, 0⟩, ⟨1, 0⟩] := .cons twins_refersTo.1 (.cons twins_refersTo.2 .nil)
  obtain ⟨d, hd⟩ := exists_declaration_of_refersTo twins_refersTo.1
  obtain ⟨r, -, hresolved⟩ := (obtains_last [] ⟨0, 0⟩).lookup_memoAfter hd
  obtain ⟨f, hf, d, r, hd, hr, w, hw, hcyclic, -⟩ :=
    (cycles_reported twins [.feature ⟨0, 0⟩]).2 _ hcycle ⟨⟨0, 0⟩, List.mem_cons_self, r, hresolved⟩
  exact ⟨hcycle, f, hf, d, r, w, hd, hr, hw, hcyclic⟩

end Graph

end PolymerAnalysis
