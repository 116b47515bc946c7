import PolymerAnalysis.Proofs.Resolution.Cycles

namespace PolymerAnalysis.Graph

open Relation

variable {g : Graph} {i : DocId} {chain : List FeatureId} {f t : FeatureId} {d : Declaration} {memo earlier : Memo}
  {parts : List Part} {kind : ReferenceKind} {r : ResolvedDeclaration} {n : Text}

def IsNamed (g : Graph) (f : FeatureId) (n : Text) : Prop := ∃ d, g.declaration? f = some d ∧ d.name = some n

/-- When `f` was resolved, `t` was composed in: a reference of the kind leads there, and no warning says that it
was ignored. -/
def TakesIn (g : Graph) (memo : Memo) (kind : ReferenceKind) (f t : FeatureId) : Prop :=
  ∃ d r reference, g.declaration? f = some d ∧ memo.lookup f = some r ∧ (kind, reference) ∈ d.references ∧
    g.lookup? f.owner (kind, reference) = some t ∧ reference.cyclicWarning kind ∉ d.added r

def ComposedIn (g : Graph) (memo : Memo) (f t : FeatureId) : Prop :=
  TransGen (fun a b ↦ ∃ kind, g.TakesIn memo kind a b) f t

theorem mem_identifiers {role : Role} {name : Option Text} (hrole : Text.isAmong kind.featureKind role.kinds = true)
    (hn : n ∈ role.identifiers name) : name = some n ∧ n ≠ [] := by
  have hnames : n ∈ (name.toList.filter fun t ↦ !t.isEmpty).eraseDups := by
    cases role with
    | element tagName superclass =>
      have hkinds : (Role.element tagName superclass).kinds = ["element", "polymer-element"] := rfl
      rw [hkinds] at hrole
      cases kind <;> exact absurd hrole (by decide)
    | _ => exact hn
  obtain ⟨hn, hnonempty⟩ := List.mem_filter.1 (List.mem_eraseDups.1 hnames)
  refine ⟨Option.mem_toList.1 hn, fun he ↦ ?_⟩
  rw [he] at hnonempty
  cases hnonempty

/-- What a reference leads to has the name that the reference gives. -/
theorem isNamed_of_lookup? {reference : Reference} (h : g.lookup? i (kind, reference) = some t) :
    g.IsNamed t reference.name ∧ reference.name ≠ [] := by
  have hanswers := find?_answers h
  obtain ⟨d, hd⟩ := declaration_of_answers hanswers
  rw [answers, declaration?_eq_some_iff.1 hd, Option.map_some, Option.getD_some, ScannedFeature.answers,
    Bool.and_eq_true] at hanswers
  obtain ⟨hname, hnonempty⟩ := mem_identifiers hanswers.1 (Text.isAmong_iff.1 hanswers.2)
  exact ⟨⟨d, hd, hname⟩, hnonempty⟩

theorem cyclicWarning_inj {kind' : ReferenceKind} {reference reference' : Reference}
    (h : reference.cyclicWarning kind = reference'.cyclicWarning kind') :
    kind = kind' ∧ reference.name = reference'.name := by
  have hcode := congrArg Warning.code h
  have hmessage := congrArg Warning.message h
  simp only [Reference.cyclicWarning, List.append_cancel_right_eq, List.append_cancel_left_eq] at hcode hmessage
  refine ⟨?_, hmessage⟩
  cases kind <;> cases kind' <;> first | rfl | exact absurd hcode (by decide)

theorem lookup?_congr {reference reference' : Reference} (h : reference.name = reference'.name) :
    g.lookup? i (kind, reference) = g.lookup? i (kind, reference') := by
  rw [lookup?, lookup?, h]

theorem mem_accepted_iff {reference : Reference} {references : List (ReferenceKind × Reference)}
    (hl : g.lookup? i (kind, reference) = some t) (hr : (kind, reference) ∈ references) :
    (kind, reference) ∈ g.accepted i chain references ↔
      reference.cyclicWarning kind ∉ references.filterMap (g.refusal? i chain) := by
  have hchain : (kind, reference) ∈ g.accepted i chain references ↔ t ∉ chain := by
    refine ⟨fun h hc ↦ ?_, mem_accepted hr hl⟩
    have hrefused := (List.mem_filter.1 h).2
    simp [refusal?, hl, hc] at hrefused
  rw [hchain, not_iff_not]
  constructor
  · intro hc
    exact List.mem_filterMap.2 ⟨(kind, reference), hr, by simp only [refusal?, hl, if_pos hc]⟩
  · intro hw
    obtain ⟨⟨kind', reference'⟩, -, hrefused⟩ := List.mem_filterMap.1 hw
    obtain ⟨u, hu, hl'⟩ := exists_of_cyclic_refusal hrefused (isCyclic_cyclicWarning kind reference)
    simp only [refusal?, hl', if_pos hu, Option.some.injEq] at hrefused
    obtain ⟨rfl, hname⟩ := cyclicWarning_inj hrefused
    rw [lookup?_congr hname, hl] at hl'
    cases hl'
    exact hu

/-- What a declaration took in can be read off what it was put together from. -/
theorem takesIn_iff (hd : g.declaration? f = some d) (hr : memo.lookup f = some (g.assembled chain f d parts)) :
    g.TakesIn memo kind f t ↔ ∃ reference, (kind, reference) ∈ g.accepted f.owner (f :: chain) d.references ∧
      g.lookup? f.owner (kind, reference) = some t := by
  constructor
  · rintro ⟨d', r, reference, hd', hr', href, hl, hnot⟩
    cases hd.symm.trans hd'
    cases hr.symm.trans hr'
    rw [added_assembled] at hnot
    exact ⟨reference, (mem_accepted_iff hl href).2 hnot, hl⟩
  · rintro ⟨reference, haccepted, hl⟩
    have href := (List.mem_filter.1 haccepted).1
    refine ⟨d, _, reference, hd, hr, href, hl, ?_⟩
    rw [added_assembled]
    exact (mem_accepted_iff hl href).1 haccepted

theorem exists_reference {references : List (ReferenceKind × Reference)} {part : Part}
    (h : List.Forall₂ (g.Supplies i memo) references parts) (hp : part ∈ parts) :
    ∃ reference ∈ references, g.Supplies i memo reference part := by
  obtain ⟨reference, hr, hs⟩ := exists_of_forall₂ h.flip hp
  exact ⟨reference, hr, hs⟩

section

variable (hassembles : g.Assembles earlier chain f d parts)
  (hr : memo.lookup f = some (g.assembled chain f d parts))

include hassembles hr

/-- A part has the form in which the memo holds something that was taken in. -/
theorem exists_takesIn {part : Part} (hp : part ∈ parts) :
    ∃ t, g.TakesIn memo part.kind f t ∧ earlier.lookup t = some part.resolved ∧ g.IsNamed t part.reference.name ∧
      part.reference.name ≠ [] := by
  obtain ⟨reference, haccepted, hkind, href, t, hl, ht⟩ := exists_reference hassembles.supplied hp
  obtain ⟨kind, reference⟩ := reference
  dsimp only at hkind href
  subst hkind href
  exact ⟨t, (takesIn_iff hassembles.declared hr).2 ⟨_, haccepted, hl⟩, ht, isNamed_of_lookup? hl⟩

theorem exists_part_of_takesIn (h : g.TakesIn memo kind f t) :
    ∃ part ∈ parts, part.kind = kind ∧ earlier.lookup t = some part.resolved ∧ g.IsNamed t part.reference.name := by
  obtain ⟨reference, haccepted, hl⟩ := (takesIn_iff hassembles.declared hr).1 h
  obtain ⟨part, hp, hkind, href, u, hu, hpart⟩ := exists_part hassembles.supplied haccepted
  cases hl.symm.trans hu
  exact ⟨part, hp, hkind, hpart, href ▸ (isNamed_of_lookup? hl).1⟩

end

theorem IsNamed.unique {n' : Text} (h : g.IsNamed f n) (h' : g.IsNamed f n') : n = n' := by
  obtain ⟨d, hd, hn⟩ := h
  obtain ⟨d', hd', hn'⟩ := h'
  cases hd.symm.trans hd'
  exact Option.some_injective _ (hn.symm.trans hn')

/-- Induction over what is resolved, from what is composed in to what it is composed into. -/
theorem Built.induction {P : FeatureId → ResolvedDeclaration → Prop} (h : g.Built memo)
    (step : ∀ earlier chain f d parts, g.Assembles earlier chain f d parts →
      memo.lookup f = some (g.assembled chain f d parts) →
      (∀ t r, earlier.lookup t = some r → memo.lookup t = some r ∧ P t r) → P f (g.assembled chain f d parts))
    (hr : memo.lookup f = some r) : P f r := by
  have hall (earlier : Memo) (hearlier : g.Built earlier) (hlater : ReflTransGen (g.Remembers []) earlier memo) :
      ∀ t r, earlier.lookup t = some r → P t r := by
    induction hearlier with
    | refl => exact fun t r ht ↦ by cases ht
    | @tail before _ _ hstep ih =>
      have hbefore := ih (.head hstep hlater)
      intro t r ht
      have hlast := keeps_resolved hlater ht
      obtain ⟨chain, d, parts, -, hassembles, rfl, -⟩ | ⟨ht, -⟩ := hstep.lookup_cases ht
      · refine step before chain t d parts hassembles hlast fun u r hu ↦ ⟨?_, hbefore u r hu⟩
        exact keeps_resolved (.head hstep hlater) hu
      · exact hbefore t r ht
  exact hall memo h .refl f r hr

/-- The properties that declarations hand down are as they were declared. -/
theorem Built.exists_declaring (h : g.Built memo) (hr : memo.lookup f = some r) :
    ∀ p ∈ r.properties, ∃ t d, g.declaration? t = some d ∧ p.toProperty ∈ d.properties := by
  refine h.induction (P := fun _ r ↦ ∀ p ∈ r.properties, ∃ t d, g.declaration? t = some d ∧ p.toProperty ∈ d.properties)
    (fun earlier chain f d parts hassembles hr ih p hp ↦ ?_) hr
  rcases Keyed.handed_or_own_of_mem_lastOfEach hp with ⟨part, hpart, q, hq, rfl⟩ | hp
  · obtain ⟨t, -, ht, -⟩ := exists_takesIn hassembles hr hpart
    exact (ih t _ ht).2 q hq
  · obtain ⟨q, hq, rfl⟩ := List.mem_map.1 hp
    exact ⟨f, d, hassembles.declared, hq⟩

theorem Built.mem_names_iff (h : g.Built memo) (hr : memo.lookup f = some r) :
    n ∈ r.names kind ↔ ∃ t, TransGen (g.TakesIn memo kind) f t ∧ g.IsNamed t n := by
  refine h.induction (P := fun f r ↦ n ∈ r.names kind ↔ ∃ t, TransGen (g.TakesIn memo kind) f t ∧ g.IsNamed t n)
    (fun earlier chain f d parts hassembles hr ih ↦ ?_) hr
  rw [assembled, names_flattened, List.mem_eraseDups, List.mem_flatMap]
  constructor
  · rintro ⟨part, hp, hn⟩
    obtain ⟨t, htakes, ht, hname, -⟩ := exists_takesIn hassembles hr hp
    rw [Part.names] at hn
    split at hn
    · next hkind =>
      subst hkind
      rcases List.mem_append.1 hn with hn | hn
      · obtain ⟨u, hu, hnamed⟩ := (ih t _ ht).2.1 hn
        exact ⟨u, .head htakes hu, hnamed⟩
      · cases List.mem_singleton.1 hn
        exact ⟨t, .single htakes, hname⟩
    · cases hn
  · rintro ⟨u, hu, hnamed⟩
    obtain ⟨t, htakes, hrest⟩ := TransGen.head'_iff.1 hu
    obtain ⟨part, hp, hkind, ht, hname⟩ := exists_part_of_takesIn hassembles hr htakes
    refine ⟨part, hp, ?_⟩
    rw [Part.names, if_pos hkind]
    rcases (reflTransGen_iff_eq_or_transGen.1 hrest) with rfl | hrest
    · exact List.mem_append_right _ (List.mem_singleton.2 (hnamed.unique hname))
    · exact List.mem_append_left _ ((ih t _ ht).2.2 ⟨u, hrest, hnamed⟩)

theorem Built.source_eq (h : g.Built memo) (hr : memo.lookup f = some r) (hn : g.IsNamed f n) (hne : n ≠ []) :
    r.source = n := by
  obtain ⟨d, hd, hname⟩ := hn
  obtain ⟨earlier, chain, d', parts, -, -, hassembles, rfl⟩ := exists_assembles h rfl hr
  cases hd.symm.trans hassembles.declared
  have hkeep : (some n).filter (fun t : Text ↦ !t.isEmpty) = some n := by simp [hne]
  rw [ResolvedDeclaration.source, show (g.assembled chain f d parts).name = d.name from rfl, hname, hkeep,
    Option.getD_some]

/-- An item says where it was written: in a declaration that was composed in, unless its own declaration says
otherwise. -/
theorem Built.origin_composedIn (h : g.Built memo) (origins : ResolvedDeclaration → List (Option Text))
    (own : Declaration → List (Option Text))
    (hflattened : ∀ f d parts refused o, o ∈ origins (Declaration.flattened d f parts refused) → o ∈ own d ∨
      ∃ part ∈ parts, ∃ o' ∈ origins part.resolved, o = o' ∨ o = some part.resolved.source)
    (hr : memo.lookup f = some r) (hn : some n ∈ origins r) :
    (∃ t, g.ComposedIn memo f t ∧ g.IsNamed t n) ∨
      ∃ t d, (t = f ∨ g.ComposedIn memo f t) ∧ g.declaration? t = some d ∧ some n ∈ own d := by
  refine h.induction (P := fun f r ↦ some n ∈ origins r → (∃ t, g.ComposedIn memo f t ∧ g.IsNamed t n) ∨
    ∃ t d, (t = f ∨ g.ComposedIn memo f t) ∧ g.declaration? t = some d ∧ some n ∈ own d)
    (fun earlier chain f d parts hassembles hr ih hn ↦ ?_) hr hn
  rcases hflattened _ _ _ _ _ hn with hown | ⟨part, hp, o', ho', heq⟩
  · exact .inr ⟨f, d, .inl rfl, hassembles.declared, hown⟩
  · obtain ⟨t, htakes, ht, hname, hne⟩ := exists_takesIn hassembles hr hp
    have hstep : g.ComposedIn memo f t := .single ⟨part.kind, htakes⟩
    rcases heq with rfl | heq
    · rcases (ih t _ ht).2 ho' with ⟨u, hu, hnamed⟩ | ⟨u, d', hu, hd', hown⟩
      · exact .inl ⟨u, hstep.trans hu, hnamed⟩
      · refine .inr ⟨u, d', .inr ?_, hd', hown⟩
        rcases hu with rfl | hu
        · exact hstep
        · exact hstep.trans hu
    · have hsource := h.source_eq (ih t _ ht).1 hname hne
      rw [hsource, Option.some.injEq] at heq
      subst heq
      exact .inl ⟨t, hstep, hname⟩

theorem inheritedOrigin_cases (origin : Option Text) (source : Text) :
    inheritedOrigin origin source = origin ∨ inheritedOrigin origin source = some source := by
  cases origin with
  | none => exact .inr rfl
  | some t => cases t with
    | nil => exact .inr rfl
    | cons c t => exact .inl rfl

theorem Built.origin_of_property (h : g.Built memo) (hr : memo.lookup f = some r) {p : ResolvedProperty}
    (hp : p ∈ r.properties) (hn : p.inheritedFrom = some n) : ∃ t, g.ComposedIn memo f t ∧ g.IsNamed t n := by
  refine (h.origin_composedIn (fun r ↦ r.properties.map (·.inheritedFrom)) (fun _ ↦ [none])
    (fun f d parts refused o ho ↦ ?_) hr (List.mem_map.2 ⟨p, hp, hn⟩)).resolve_right ?_
  · obtain ⟨p, hp, rfl⟩ := List.mem_map.1 ho
    rcases Keyed.handed_or_own_of_mem_lastOfEach hp with ⟨part, hpart, q, hq, rfl⟩ | hp
    · refine .inr ⟨part, hpart, q.inheritedFrom, List.mem_map.2 ⟨q, hq, rfl⟩, ?_⟩
      rw [ResolvedProperty.inherit]
      cases q.inheritedFrom with
      | none => exact .inr rfl
      | some o => exact .inl rfl
    · obtain ⟨q, -, rfl⟩ := List.mem_map.1 hp
      exact .inl List.mem_cons_self
  · rintro ⟨t, d, -, -, hnone⟩
    cases List.mem_singleton.1 hnone

/-- An item of a kind of items that may give its origin itself: an attribute or an event. -/
theorem Built.origin_of_item {α : Type} {origin : α → Option Text} {items : ResolvedDeclaration → List α}
    {own : Declaration → List α} (h : g.Built memo) (withOrigin : α → Option Text → α)
    (horigin : ∀ x o, origin (withOrigin x o) = o)
    (hitems : ∀ f d parts refused x, x ∈ items (Declaration.flattened d f parts refused) → x ∈ own d ∨
      ∃ part ∈ parts, ∃ y ∈ items part.resolved,
        x = withOrigin y (inheritedOrigin (origin y) part.resolved.source))
    (hr : memo.lookup f = some r) {x : α} (hx : x ∈ items r) (hn : origin x = some n) :
    (∃ t, g.ComposedIn memo f t ∧ g.IsNamed t n) ∨
      ∃ t d, (t = f ∨ g.ComposedIn memo f t) ∧ g.declaration? t = some d ∧ ∃ y ∈ own d, origin y = some n := by
  have hall := h.origin_composedIn (fun r ↦ (items r).map origin) (fun d ↦ (own d).map origin)
    (fun f d parts refused o ho ↦ ?_) hr (List.mem_map.2 ⟨x, hx, hn⟩)
  · simpa only [List.mem_map] using hall
  · obtain ⟨x, hx, rfl⟩ := List.mem_map.1 ho
    rcases hitems f d parts refused x hx with hx | ⟨part, hpart, y, hy, rfl⟩
    · exact .inl (List.mem_map.2 ⟨x, hx, rfl⟩)
    · refine .inr ⟨part, hpart, origin y, List.mem_map.2 ⟨y, hy, rfl⟩, ?_⟩
      rw [horigin]
      exact inheritedOrigin_cases _ _

/-- The names in a resolved declaration are those of what was composed in through references of one kind. The origin
of every property is something that was composed in through references of any kinds; so is that of every attribute
and event, unless its own declaration gave it another one. -/
theorem names_of_one_kind (g : Graph) (requests : List Request) (f : FeatureId) (r : ResolvedDeclaration)
    (hr : (g.memoAfter requests).lookup f = some r) :
    (∀ kind n, n ∈ r.names kind ↔ ∃ t, TransGen (g.TakesIn (g.memoAfter requests) kind) f t ∧ g.IsNamed t n) ∧
    (∀ p ∈ r.properties, ∀ n, p.inheritedFrom = some n →
      ∃ t, g.ComposedIn (g.memoAfter requests) f t ∧ g.IsNamed t n) ∧
    (∀ a ∈ r.attributes, ∀ n, a.inheritedFrom = some n →
      (∃ t, g.ComposedIn (g.memoAfter requests) f t ∧ g.IsNamed t n) ∨
        ∃ t d, (t = f ∨ g.ComposedIn (g.memoAfter requests) f t) ∧ g.declaration? t = some d ∧
          ∃ b ∈ d.attributes, b.inheritedFrom = some n) ∧
    ∀ e ∈ r.events, ∀ n, e.inheritedFrom = some n →
      (∃ t, g.ComposedIn (g.memoAfter requests) f t ∧ g.IsNamed t n) ∨
        ∃ t d, (t = f ∨ g.ComposedIn (g.memoAfter requests) f t) ∧ g.declaration? t = some d ∧
          ∃ b ∈ d.events, b.inheritedFrom = some n := by
  have hbuilt := built_memoAfter g requests
  refine ⟨fun kind n ↦ hbuilt.mem_names_iff hr, fun p hp n hn ↦ hbuilt.origin_of_property hr hp hn,
    fun a ha n hn ↦ ?_, fun e he n hn ↦ ?_⟩
  · exact hbuilt.origin_of_item (fun a o ↦ { a with inheritedFrom := o }) (fun _ _ ↦ rfl)
      (fun f d parts refused x hx ↦ (Keyed.handed_or_own_of_mem_lastOfEach hx).symm) hr ha hn
  · exact hbuilt.origin_of_item (fun e o ↦ { e with inheritedFrom := o }) (fun _ _ ↦ rfl)
      (fun f d parts refused x hx ↦ (Keyed.handed_or_own_of_mem_lastOfEach hx).symm) hr he hn

theorem resolveFrom_of_single {e : Declaration} {reference : Reference} (hmiss : memo.lookup f = none)
    (hd : d.references = [(kind, reference)]) (ht : g.target? f.owner kind reference = some (t, e))
    (hc : t ∉ f :: chain) :
    g.resolveFrom chain f d memo =
      let x := g.resolveFrom (f :: chain) t e memo
      let r := ((Composition.compose { warnings := d.warnings } kind reference x.1).addOwn f d).finish d
      (r, (f, r) :: x.2) := by
  rw [resolveFrom_computed hmiss, hd, List.foldl_cons, List.foldl_nil, composeIn_composed ht hc]

def layered : Graph where
  documents := [
    { url := "a.js"
      features := [
        .declaration { role := .behavior, name := some "A", mixins := [⟨"M", none⟩] },
        .declaration { role := .mixin, name := some "M", behaviors := [⟨"B", none⟩] },
        .declaration { role := .behavior, name := some "B", properties := [{ name := "p" }] }] }]

theorem exists_layered : ∃ r, (layered.memoAfter [.feature ⟨0, 0⟩]).lookup ⟨0, 0⟩ = some r ∧ r.behaviors = [] ∧
    r.mixins = [Text.ofString "M"] ∧ r.properties.map (·.inheritedFrom) = [some (Text.ofString "B")] := by
  have hM : layered.target? 0 .mixin ⟨"M", none⟩ =
      some (⟨0, 1⟩, { role := .mixin, name := some "M", behaviors := [⟨"B", none⟩] }) := by cbv
  have hB : layered.target? 0 .behavior ⟨"B", none⟩ =
      some (⟨0, 2⟩, { role := .behavior, name := some "B", properties := [{ name := "p" }] }) := by cbv
  have hinner : layered.resolveFrom [⟨0, 0⟩] ⟨0, 1⟩
      { role := .mixin, name := some "M", behaviors := [⟨"B", none⟩] } [] = _ :=
    resolveFrom_of_single rfl rfl hB (by decide)
  have houter : layered.resolveFrom [] ⟨0, 0⟩ { role := .behavior, name := some "A", mixins := [⟨"M", none⟩] } [] =
      _ := resolveFrom_of_single rfl rfl hM (by decide)
  have hleaf : layered.resolveFrom [⟨0, 1⟩, ⟨0, 0⟩] ⟨0, 2⟩
      { role := .behavior, name := some "B", properties := [{ name := "p" }] } [] = _ := resolveFrom_computed rfl
  rw [hinner, hleaf] at houter
  have hmemo : layered.memoAfter [.feature ⟨0, 0⟩] = (layered.resolveFeature ⟨0, 0⟩ []).2 := rfl
  rw [hmemo, resolveFeature_of_declaration rfl, resolveDeclaration, houter]
  exact ⟨_, List.lookup_cons_self, rfl, rfl, rfl⟩

theorem layered_origin : ∃ r t, (layered.memoAfter [.feature ⟨0, 0⟩]).lookup ⟨0, 0⟩ = some r ∧
    layered.ComposedIn (layered.memoAfter [.feature ⟨0, 0⟩]) ⟨0, 0⟩ t ∧ layered.IsNamed t "B" := by
  obtain ⟨r, hr, -, -, hp⟩ := exists_layered
  obtain ⟨p, hp, hn⟩ := List.mem_map.1 (hp ▸ List.mem_cons_self)
  obtain ⟨t, ht, hnamed⟩ := (names_of_one_kind layered [.feature ⟨0, 0⟩] ⟨0, 0⟩ r hr).2.1 p hp _ hn
  exact ⟨r, t, hr, ht, hnamed⟩

/-- What is composed in through a mixin with a behavior is not listed. -/
theorem layered_origin_unlisted : ¬∀ (g : Graph) (requests : List Request) (f t : FeatureId) (r : ResolvedDeclaration)
    (p : ResolvedProperty) (n : Text), (g.memoAfter requests).lookup f = some r → p ∈ r.properties →
    p.inheritedFrom = some n → g.ComposedIn (g.memoAfter requests) f t → g.IsNamed t n →
    n ∈ r.behaviors ∨ n ∈ r.mixins := by
  intro h
  obtain ⟨r, hr, hbehaviors, hmixins, hproperties⟩ := exists_layered
  obtain ⟨p, hp, hn⟩ := List.mem_map.1 (hproperties ▸ List.mem_cons_self)
  obtain ⟨t, ht, hnamed⟩ := (built_memoAfter layered [.feature ⟨0, 0⟩]).origin_of_property hr hp hn
  have hlisted := h layered [.feature ⟨0, 0⟩] ⟨0, 0⟩ t r p "B" hr hp hn ht hnamed
  rw [hbehaviors, hmixins] at hlisted
  exact absurd hlisted (by decide)

end PolymerAnalysis.Graph
