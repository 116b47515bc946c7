import PolymerAnalysis.Proofs.Resolution.Cycles

namespace PolymerAnalysis.Graph

open Relation

variable {g : Graph} {i : DocId} {chain chain' : List FeatureId} {f t u : FeatureId} {d : Declaration}
  {memo memo' : Memo} {parts parts' : List Part} {r r' : ResolvedDeclaration}

/-- Of the declarations that can be reached from `f` no two lead to each other. One may refer to itself. -/
def Untangled (g : Graph) (f : FeatureId) : Prop :=
  ∀ t u, ReflTransGen g.RefersTo f t → ReflTransGen g.RefersTo t u → ReflTransGen g.RefersTo u t → u = t

theorem Untangled.of_refersTo (h : g.Untangled f) (ht : g.RefersTo f t) : g.Untangled t :=
  fun u v hu hv hback ↦ h u v (.head ht hu) hv hback

theorem refusal?_congr {reference : ReferenceKind × Reference}
    (h : ∀ t, g.lookup? i reference = some t → (t ∈ chain ↔ t ∈ chain')) :
    g.refusal? i chain reference = g.refusal? i chain' reference := by
  cases hl : g.lookup? i reference with
  | none => simp only [refusal?, hl]
  | some t => simp only [refusal?, hl, h t hl]

theorem Untangled.refusal?_eq (h : g.Untangled f) (hassembles : g.Assembles memo chain f d parts)
    {reference : ReferenceKind × Reference} (href : reference ∈ d.references) :
    g.refusal? f.owner (f :: chain) reference = g.refusal? f.owner [f] reference := by
  refine refusal?_congr fun t hl ↦ ⟨fun hc ↦ ?_, fun hc ↦ ?_⟩
  · have ht := (refersTo_iff hassembles.declared).2 ⟨reference, href, hl⟩
    rcases List.mem_cons.1 hc with rfl | hc
    · exact List.mem_cons_self
    · exact List.mem_singleton.2 (h f t .refl (.single ht) (hassembles.leads t hc))
  · exact List.mem_cons.2 (.inl (List.mem_singleton.1 hc))

theorem parts_unique {references : List (ReferenceKind × Reference)}
    (h : List.Forall₂ (g.Supplies i memo) references parts)
    (h' : List.Forall₂ (g.Supplies i memo') references parts')
    (hvalue : ∀ reference ∈ references, ∀ t r r', g.lookup? i reference = some t → memo.lookup t = some r →
      memo'.lookup t = some r' → r = r') : parts = parts' := by
  induction h generalizing parts' with
  | nil =>
    cases h'
    rfl
  | @cons reference part references parts hpart _ ih =>
    obtain ⟨part', rest', hpart', hrest', rfl⟩ := List.forall₂_cons_left_iff.1 h'
    obtain ⟨hkind, href, t, hl, ht⟩ := hpart
    obtain ⟨hkind', href', t', hl', ht'⟩ := hpart'
    cases hl.symm.trans hl'
    have hresolved := hvalue reference List.mem_cons_self t _ _ hl ht ht'
    have hsame : part = part' := by
      cases part
      cases part'
      simp only at hkind href hkind' href' hresolved
      rw [hkind, href, hresolved, hkind', href']
    rw [hsame, ih hrest' fun s hs ↦ hvalue s (List.mem_cons_of_mem reference hs)]

theorem Built.lookup_unique (h : g.Built memo) (h' : g.Built memo') (hf : g.Untangled f)
    (hr : memo.lookup f = some r) (hr' : memo'.lookup f = some r') : r = r' := by
  induction h generalizing f r r' memo' with
  | refl => cases hr
  | tail hbefore hstep ih =>
    obtain ⟨chain, d, parts, -, hassembles, rfl, -⟩ | ⟨hkept, -⟩ := hstep.lookup_cases hr
    · -- the other memo put it together too: from the same references, and by induction from the same parts
      obtain ⟨earlier', chain', d', parts', hbefore', -, hassembles', rfl⟩ := exists_assembles h' rfl hr'
      cases hassembles.declared.symm.trans hassembles'.declared
      have hrefusal : ∀ reference ∈ d.references,
          g.refusal? f.owner (f :: chain) reference = g.refusal? f.owner (f :: chain') reference :=
        fun reference href ↦ (hf.refusal?_eq hassembles href).trans (hf.refusal?_eq hassembles' href).symm
      have haccepted : g.accepted f.owner (f :: chain) d.references =
          g.accepted f.owner (f :: chain') d.references :=
        List.filter_congr fun reference href ↦ by rw [hrefusal reference href]
      have hparts := hassembles.supplied
      rw [haccepted] at hparts
      have hsame := parts_unique hparts hassembles'.supplied fun reference href t r r' hl ht ht' ↦ by
        have hstep := (refersTo_iff hassembles.declared).2 ⟨reference, (List.mem_filter.1 href).1, hl⟩
        exact ih hbefore' (hf.of_refersTo hstep) ht ht'
      rw [assembled, assembled, hsame, List.filterMap_congr hrefusal]
    · exact ih h' hf hkept hr'

/-- What the declarations of the memo refer to is in the memo too, or on the chain. -/
def Closed (g : Graph) (chain : List FeatureId) (memo : Memo) : Prop :=
  ∀ f r, memo.lookup f = some r → ∀ t, g.RefersTo f t → t ∈ chain ∨ ∃ r', memo.lookup t = some r'

theorem Closed.remember (h : g.Closed (f :: chain) memo) (hassembles : g.Assembles memo chain f d parts) :
    g.Closed chain ((f, r) :: memo) := by
  intro t r' ht u hu
  have hor : u ∈ f :: chain ∨ ∃ r', memo.lookup u = some r' := by
    by_cases htf : t = f
    · subst htf
      obtain ⟨reference, href, hl⟩ := (refersTo_iff hassembles.declared).1 hu
      exact hassembles.lookup_or_mem href hl
    · rw [Keyed.lookup_cons_ne htf] at ht
      exact h t r' ht u hu
  by_cases huf : u = f
  · subst huf
    exact .inr ⟨r, List.lookup_cons_self⟩
  · rw [Keyed.lookup_cons_ne huf]
    exact hor.imp_left fun hc ↦ (List.mem_cons.1 hc).resolve_left huf

theorem closed_resolveFrom (chain : List FeatureId) (f : FeatureId) (d : Declaration) (memo : Memo)
    (hd : g.declaration? f = some d) (hchain : ∀ c ∈ chain, ReflTransGen g.RefersTo c f)
    (h : g.Closed chain memo) : g.Closed chain (g.resolveFrom chain f d memo).2 := by
  induction chain, f, d, memo using resolveFrom_induction g with
  | remembered chain f d memo r hr =>
    rw [resolveFrom_remembered hr]
    exact h
  | computed chain f d memo hmiss ih =>
    have hstart : g.Closed (f :: chain) memo :=
      fun t r ht u hu ↦ (h t r ht u hu).imp_left (List.mem_cons_of_mem f)
    have hall := foldl_composeIn_keeps hd hchain (fun t e memo' ht hc he ↦ ih t e memo' ht hc he)
      ({ warnings := d.warnings }, memo) hstart
    obtain ⟨memo', parts, hmemo, hassembles, hresolve⟩ := resolveFrom_assembles chain memo hd hchain hmiss
    rw [← hmemo] at hall
    rw [hresolve]
    exact hall.remember hassembles

theorem exists_lookup_of_reaches (hd : g.declaration? f = some d) (ht : ReflTransGen g.RefersTo f t) :
    ∃ r, (g.resolveDeclaration f d []).2.lookup t = some r := by
  have hclosed : g.Closed [] (g.resolveDeclaration f d []).2 :=
    closed_resolveFrom [] f d [] hd (by simp) fun t r hr ↦ by cases hr
  induction ht with
  | refl => exact ⟨_, lookup_resolveFrom g [] f d []⟩
  | tail _ hstep ih =>
    obtain ⟨r, hr⟩ := ih
    rcases hclosed _ r hr _ hstep with hc | hmem
    · cases hc
    · exact hmem

theorem length_refusals_lt {references : List (ReferenceKind × Reference)} {reference : ReferenceKind × Reference}
    (hsub : chain ⊆ chain') (href : reference ∈ references) (hl : g.lookup? i reference = some t) (hc : t ∉ chain)
    (hc' : t ∈ chain') :
    (references.filterMap (g.refusal? i chain)).length < (references.filterMap (g.refusal? i chain')).length := by
  have hkeep (s : ReferenceKind × Reference) (hs : (g.refusal? i chain s).isSome = true) :
      (g.refusal? i chain' s).isSome = true := by
    cases hu : g.lookup? i s with
    | none => simp only [refusal?, hu, Option.isSome_some]
    | some u =>
      by_cases hmem : u ∈ chain
      · simp only [refusal?, hu, if_pos (hsub hmem), Option.isSome_some]
      · rw [refusal?_eq_none hu hmem] at hs
        cases hs
  have hmore : (g.refusal? i chain' reference).isSome = true := by
    simp only [refusal?, hl, if_pos hc', Option.isSome_some]
  obtain ⟨before, after, rfl⟩ := List.append_of_mem href
  have hbefore := List.countP_mono_left (l := before) fun s _ ↦ hkeep s
  have hafter := List.countP_mono_left (l := after) fun s _ ↦ hkeep s
  simp only [List.length_filterMap_eq_countP, List.countP_append, List.countP_cons, hmore,
    refusal?_eq_none hl hc, Option.isSome_none]
  simp only [Bool.false_eq_true, if_false, if_true]
  omega

theorem exists_way_back (h : ReflTransGen g.RefersTo t u) (hback : ReflTransGen g.RefersTo u t) (hne : u ≠ t) :
    ∃ v, g.RefersTo t v ∧ v ≠ t ∧ ReflTransGen g.RefersTo v t := by
  induction h using ReflTransGen.head_induction_on with
  | refl => exact absurd rfl hne
  | @head t v hstep hrest ih =>
    by_cases hv : v = t
    · subst hv
      exact ih hback hne
    · exact ⟨v, hstep, hv, hrest.trans hback⟩

/-- A declaration that another one refers to and leads back to loses that reference when the other one is resolved
first. -/
theorem exists_longer_warnings (hd : g.declaration? f = some d) (ht : g.RefersTo f t) (hne : t ≠ f)
    (hback : ReflTransGen g.RefersTo t f) :
    ∃ r, (g.memoAfter [.feature t]).lookup f = some r ∧
      (g.resolveDeclaration f d []).1.warnings.length < r.warnings.length := by
  obtain ⟨e, he⟩ : ∃ e, g.declaration? t = some e := by
    rcases ReflTransGen.cases_head hback with rfl | ⟨u, hu, -⟩
    · exact absurd rfl hne
    · exact exists_declaration_of_refersTo hu
  have hmemo : g.memoAfter [.feature t] = (g.resolveDeclaration t e []).2 := by
    rw [memoAfter, List.foldl_cons, Request.answer, resolveFeature_of_declaration he]
    rfl
  obtain ⟨r, hr⟩ := exists_lookup_of_reaches he hback
  rw [hmemo]
  refine ⟨r, hr, ?_⟩
  obtain ⟨memo', hsteps, hafter⟩ := exists_remembers [] [] he (by simp) rfl
  rw [resolveDeclaration, hafter, Keyed.lookup_cons_ne (Ne.symm hne)] at hr
  obtain ⟨earlier, chain, d', parts, -, hsub, hassembles, rfl⟩ := exists_assembles hsteps rfl hr
  cases hd.symm.trans hassembles.declared
  obtain ⟨memo₁, parts', -, -, hresolve⟩ := resolveFrom_assembles [] [] hd (by simp) rfl
  obtain ⟨reference, href, hl⟩ := (refersTo_iff hd).1 ht
  have hlt : (d.references.filterMap (g.refusal? f.owner [f])).length <
      (d.references.filterMap (g.refusal? f.owner (f :: chain))).length :=
    length_refusals_lt (by simp) href hl (by simpa using hne) (List.mem_cons_of_mem f (hsub List.mem_cons_self))
  rw [resolveDeclaration, hresolve]
  simp only [assembled, Declaration.flattened, List.length_append]
  omega

theorem exists_different (hv : g.RefersTo f t) (hne : t ≠ f) (hback : ReflTransGen g.RefersTo t f) :
    ∃ requests requests' x x', g.Obtains requests f x ∧ g.Obtains requests' f x' ∧ x ≠ x' := by
  obtain ⟨d, hd⟩ := exists_declaration_of_refersTo hv
  obtain ⟨r, hr, hlt⟩ := exists_longer_warnings hd hv hne hback
  refine ⟨_, _, _, _, obtains_last [] f, obtains_last [.feature t] f, fun hsame ↦ ?_⟩
  rw [resolveFeature_of_declaration hd, resolveFeature_of_declaration hd, resolveDeclaration, resolveDeclaration,
    resolveFrom_remembered hr] at hsame
  have hresolved : (g.resolveDeclaration f d []).1 = r := by
    simp only [Option.some.injEq, Feature.declaration.injEq] at hsame
    exact hsame
  rw [hresolved] at hlt
  exact lt_irrefl _ hlt

/-- What a declaration, and everything it refers to, resolves to is the same whatever was resolved before, unless
two of these declarations lead to each other. -/
theorem order_irrelevant_iff (g : Graph) (f : FeatureId) :
    (∀ t, ReflTransGen g.RefersTo f t → ∀ requests requests' x x',
      g.Obtains requests t x → g.Obtains requests' t x' → x = x') ↔ g.Untangled f := by
  constructor
  · intro h t u ht hu hback
    by_contra hne
    obtain ⟨v, hv, hvne, hvback⟩ := exists_way_back hu hback hne
    obtain ⟨requests, requests', x, x', hx, hx', hdiffer⟩ := exists_different hv hvne hvback
    exact hdiffer (h t ht requests requests' x x' hx hx')
  · intro h t ht requests requests' x x' hx hx'
    have huntangled : g.Untangled t := fun u v hu hv hback ↦ h u v (ht.trans hu) hv hback
    cases hd : g.declaration? t with
    | some d =>
      obtain ⟨r, rfl, hr⟩ := hx.lookup_memoAfter hd
      obtain ⟨r', rfl, hr'⟩ := hx'.lookup_memoAfter hd
      rw [(built_memoAfter g requests).lookup_unique (built_memoAfter g requests') huntangled hr hr']
    | none => rw [hx.of_no_declaration hd, hx'.of_no_declaration hd]

theorem AcyclicFrom.untangled (h : g.AcyclicFrom f) : g.Untangled f := by
  intro t u ht hu hback
  by_contra hne
  obtain ⟨v, hv, -, hvback⟩ := exists_way_back hu hback hne
  exact h t ht (.head' hv hvback)

theorem diamond_order_irrelevant : ∃ x, ∀ requests y, diamond.Obtains requests ⟨0, 0⟩ y → y = x :=
  ⟨_, fun requests _ hy ↦ (order_irrelevant_iff diamond ⟨0, 0⟩).2 diamond_acyclic.untangled ⟨0, 0⟩ .refl
    requests [.feature ⟨0, 0⟩] _ _ hy (obtains_last [] ⟨0, 0⟩)⟩

theorem order_matters_for_twins : ¬∀ (g : Graph) (f : FeatureId) (requests requests' : List Request)
    (x x' : Option Feature), g.Obtains requests f x → g.Obtains requests' f x' → x = x' := by
  intro h
  obtain ⟨requests, requests', x, x', hx, hx', hne⟩ :=
    exists_different twins_refersTo.1 (by decide) (.single twins_refersTo.2)
  exact hne (h twins ⟨0, 0⟩ requests requests' x x' hx hx')

end PolymerAnalysis.Graph
