import PolymerAnalysis.Proofs.Feature.Additions
import PolymerAnalysis.Proofs.Resolution.Names

namespace PolymerAnalysis

/-- Nothing that a declaration writes has an origin: properties make the attributes, and the events have none. -/
structure Declaration.Unmarked (d : Declaration) : Prop where
  attributes : ∀ a ∈ d.attributes, ∃ p : Property, p.attribute? = some a
  events : ∀ e ∈ d.events, e.inheritedFrom = none

/-- Items that declarations have under keys and hand down with their origin. -/
structure ItemKind (α : Type) where
  own : Declaration → List α
  items : ResolvedDeclaration → List α
  handed : ResolvedDeclaration → List α
  key : α → Text
  origin : α → Option Text
  unmarked : α → α
  unmarked_eq : ∀ x, origin x = none → unmarked x = x
  own_unmarked : ∀ d : Declaration, d.Unmarked → ∀ x ∈ own d, origin x = none
  items_flattened : ∀ (d : Declaration) f parts refused, items (d.flattened f parts refused) =
    Keyed.lastOfEach key (parts.flatMap (fun part ↦ handed part.resolved) ++ own d)
  exists_of_handed : ∀ r x, x ∈ handed r → ∃ y ∈ items r, unmarked x = unmarked y ∧
    (origin x = origin y ∧ origin x ≠ none ∨ origin x = some r.source ∧ (origin y = none ∨ origin y = some []))

section Unmarked

variable {d : Declaration} {p : Property}

theorem Property.inheritedFrom_attribute? {a : Attribute} (h : p.attribute? = some a) : a.inheritedFrom = none := by
  rw [Property.attribute?] at h
  split at h
  · obtain ⟨name, -, rfl⟩ := Option.map_eq_some_iff.1 h
    rfl
  · cases h

theorem Property.inheritedFrom_changeEvent? {a : Attribute} {e : Event} (h : p.changeEvent? a = some e) :
    e.inheritedFrom = none := by
  obtain ⟨name, -, rfl⟩ := Option.map_eq_some_iff.1 h
  rfl

theorem Declaration.unmarked_of_nil (hattributes : d.attributes = []) (hevents : d.events = []) : d.Unmarked :=
  ⟨by simp [hattributes], by simp [hevents]⟩

theorem Declaration.Unmarked.addProperty (h : d.Unmarked) (p : Property) : (d.addProperty p).Unmarked := by
  rw [Declaration.addProperty_eq]
  refine ⟨Keyed.forall_mem_elim_upsert (fun a ha ↦ ⟨p, ha⟩) h.attributes,
    Keyed.forall_mem_elim_upsert (fun e he ↦ ?_) h.events⟩
  obtain ⟨a, -, he⟩ := Option.bind_eq_some_iff.1 he
  exact Property.inheritedFrom_changeEvent? he

end Unmarked

section Kinds

theorem inheritedOrigin_eq (origin : Option Text) (source : Text) :
    inheritedOrigin origin source = origin ∧ inheritedOrigin origin source ≠ none ∨
      inheritedOrigin origin source = some source ∧ (origin = none ∨ origin = some []) := by
  cases origin with
  | none => exact .inr ⟨rfl, .inl rfl⟩
  | some t => cases t with
    | nil => exact .inr ⟨rfl, .inr rfl⟩
    | cons c t => exact .inl ⟨rfl, by simp [inheritedOrigin]⟩

def propertyItems : ItemKind ResolvedProperty where
  own d := d.properties.map fun p ↦ { p with inheritedFrom := none }
  items := (·.properties)
  handed := (·.handedProperties)
  key := (·.name)
  origin := (·.inheritedFrom)
  unmarked p := { p with inheritedFrom := none }
  unmarked_eq := by
    rintro ⟨p, origin⟩ rfl
    rfl
  own_unmarked d _ x hx := by
    obtain ⟨p, -, rfl⟩ := List.mem_map.1 hx
    rfl
  items_flattened _ _ _ _ := rfl
  exists_of_handed r x hx := by
    obtain ⟨p, hp, rfl⟩ := List.mem_map.1 hx
    refine ⟨p, hp, rfl, ?_⟩
    rw [ResolvedProperty.inherit]
    cases p.inheritedFrom with
    | none => exact .inr ⟨rfl, .inl rfl⟩
    | some t => exact .inl ⟨rfl, Option.some_ne_none t⟩

def attributeItems : ItemKind Attribute where
  own := (·.attributes)
  items := (·.attributes)
  handed := (·.handedAttributes)
  key := (·.name)
  origin := (·.inheritedFrom)
  unmarked a := { a with inheritedFrom := none }
  unmarked_eq a ha := by rw [← ha]
  own_unmarked d hd a ha := by
    obtain ⟨p, hp⟩ := hd.attributes a ha
    exact Property.inheritedFrom_attribute? hp
  items_flattened _ _ _ _ := rfl
  exists_of_handed r x hx := by
    obtain ⟨a, ha, rfl⟩ := List.mem_map.1 hx
    exact ⟨a, ha, rfl, inheritedOrigin_eq _ _⟩

def eventItems : ItemKind Event where
  own := (·.events)
  items := (·.events)
  handed := (·.handedEvents)
  key := (·.name)
  origin := (·.inheritedFrom)
  unmarked e := { e with inheritedFrom := none }
  unmarked_eq e he := by rw [← he]
  own_unmarked d hd := hd.events
  items_flattened _ _ _ _ := rfl
  exists_of_handed r x hx := by
    obtain ⟨e, he, rfl⟩ := List.mem_map.1 hx
    exact ⟨e, he, rfl, inheritedOrigin_eq _ _⟩

end Kinds

namespace Graph

open Relation

variable {g : Graph} {f t : FeatureId} {d : Declaration} {memo : Memo} {r : ResolvedDeclaration} {α : Type}

structure Attributed (g : Graph) (kind : ItemKind α) (f : FeatureId) (d : Declaration) (r : ResolvedDeclaration) :
    Prop where
  own : ∀ x ∈ kind.items r, kind.origin x = none → x ∈ kind.own d
  inherited : ∀ x ∈ kind.items r, ∀ n, kind.origin x = some n → ∃ t e, t ≠ f ∧ TransGen g.RefersTo f t ∧
    g.declaration? t = some e ∧ e.name = some n ∧ kind.unmarked x ∈ kind.own e
  own_unmarked : ∀ x ∈ kind.items r, kind.key x ∈ (kind.own d).map kind.key → kind.origin x = none

theorem TakesIn.refersTo {kind : ReferenceKind} (h : g.TakesIn memo kind f t) : g.RefersTo f t := by
  obtain ⟨d, r, reference, hd, -, href, hl, -⟩ := h
  exact (refersTo_iff hd).2 ⟨_, href, hl⟩

theorem ComposedIn.transGen (h : g.ComposedIn memo f t) : TransGen g.RefersTo f t :=
  TransGen.mono (fun _ _ ⟨_, hstep⟩ ↦ hstep.refersTo) _ _ h

/-- Nothing is composed into itself, on a cycle of references neither: what is taken in was resolved before. -/
theorem Built.not_composedIn_self (h : g.Built memo) (hr : memo.lookup f = some r) : ¬g.ComposedIn memo f f := by
  refine h.induction (P := fun f _ ↦ ¬g.ComposedIn memo f f) (fun earlier chain f d parts hassembles hr ih ↦ ?_) hr
  intro hself
  obtain ⟨t, hstep, hback⟩ := TransGen.head'_iff.1 hself
  obtain ⟨kind, htakes⟩ := hstep
  obtain ⟨part, -, -, ht, -⟩ := exists_part_of_takesIn hassembles hr htakes
  exact (ih t _ ht).2 (.tail' hback ⟨kind, htakes⟩)

/-- By induction over what is composed in: an item is marked when it is handed down for the first time, and it keeps
its mark, which is never empty. -/
theorem Built.written (kind : ItemKind α) (hunmarked : ∀ t e, g.declaration? t = some e → e.Unmarked) (h : g.Built memo)
    (hr : memo.lookup f = some r) (hd : g.declaration? f = some d) :
    (∀ x ∈ kind.items r, kind.origin x = none → x ∈ kind.own d) ∧
      ∀ x ∈ kind.items r, ∀ n, kind.origin x = some n → n ≠ [] ∧ ∃ t e, g.ComposedIn memo f t ∧
        g.declaration? t = some e ∧ e.name = some n ∧ kind.unmarked x ∈ kind.own e := by
  refine h.induction (P := fun f r ↦ ∀ d, g.declaration? f = some d →
    (∀ x ∈ kind.items r, kind.origin x = none → x ∈ kind.own d) ∧
      ∀ x ∈ kind.items r, ∀ n, kind.origin x = some n → n ≠ [] ∧ ∃ t e, g.ComposedIn memo f t ∧
        g.declaration? t = some e ∧ e.name = some n ∧ kind.unmarked x ∈ kind.own e)
    (fun earlier chain f d parts hassembles hr ih d' hd' ↦ ?_) hr d hd
  cases hassembles.declared.symm.trans hd'
  have hcases : ∀ x ∈ kind.items (g.assembled chain f d parts),
      x ∈ kind.own d ∨ ∃ part ∈ parts, x ∈ kind.handed part.resolved := by
    intro x hx
    rw [assembled, kind.items_flattened] at hx
    rcases List.mem_append.1 (Keyed.mem_lastOfEach hx) with hx | hx
    · exact .inr (List.mem_flatMap.1 hx)
    · exact .inl hx
  constructor
  · intro x hx hnone
    rcases hcases x hx with hx | ⟨part, hp, hx⟩
    · exact hx
    · obtain ⟨y, -, -, ⟨-, hne⟩ | ⟨hsome, -⟩⟩ := kind.exists_of_handed _ _ hx
      · exact absurd hnone hne
      · rw [hnone] at hsome
        cases hsome
  · intro x hx n hn
    rcases hcases x hx with hx | ⟨part, hp, hx⟩
    · rw [kind.own_unmarked d (hunmarked f d hd') x hx] at hn
      cases hn
    · obtain ⟨t, htakes, ht, ⟨e, he, hname⟩, hne⟩ := exists_takesIn hassembles hr hp
      obtain ⟨hlookup, hall⟩ := ih t _ ht
      obtain ⟨hown, hinherited⟩ := hall e he
      have hstep : g.ComposedIn memo f t := .single ⟨part.kind, htakes⟩
      obtain ⟨y, hy, hxy, ⟨horigin, -⟩ | ⟨hsource, hy_origin⟩⟩ := kind.exists_of_handed _ _ hx
      · obtain ⟨hn_ne, u, e', hu, he', hname', hown'⟩ := hinherited y hy n (horigin.symm.trans hn)
        exact ⟨hn_ne, u, e', hstep.trans hu, he', hname', hxy ▸ hown'⟩
      · rw [h.source_eq hlookup ⟨e, he, hname⟩ hne, hn, Option.some.injEq] at hsource
        subst hsource
        rcases hy_origin with hnone | hempty
        · refine ⟨hne, t, e, hstep, he, hname, ?_⟩
          rw [hxy, kind.unmarked_eq y hnone]
          exact hown y hy hnone
        · exact absurd rfl (hinherited y hy [] hempty).1

theorem Built.attributed (kind : ItemKind α) (hunmarked : ∀ t e, g.declaration? t = some e → e.Unmarked)
    (h : g.Built memo) (hr : memo.lookup f = some r) (hd : g.declaration? f = some d) : g.Attributed kind f d r := by
  obtain ⟨hown, hinherited⟩ := h.written kind hunmarked hr hd
  refine ⟨hown, fun x hx n hn ↦ ?_, fun x hx hkey ↦ ?_⟩
  · obtain ⟨-, t, e, ht, he, hname, hmem⟩ := hinherited x hx n hn
    exact ⟨t, e, fun heq ↦ h.not_composedIn_self hr (heq ▸ ht), ht.transGen, he, hname, hmem⟩
  · obtain ⟨earlier, chain, d', parts, -, -, hassembles, rfl⟩ := exists_assembles h rfl hr
    cases hd.symm.trans hassembles.declared
    rw [assembled, kind.items_flattened] at hx
    exact kind.own_unmarked d (hunmarked f d hd) x (Keyed.mem_right_of_mem_lastOfEach hx hkey)

/-- Every property, attribute and event of a resolved declaration is one of its own if it has no origin. Otherwise the
origin is the name of another declaration, reachable through references, that wrote the item. Whatever has the key of
an own item has no origin. -/
theorem items_attributed (g : Graph) (requests : List Request) (f : FeatureId) (d : Declaration)
    (r : ResolvedDeclaration) (hunmarked : ∀ t e, g.declaration? t = some e → e.Unmarked)
    (hd : g.declaration? f = some d) (hr : (g.memoAfter requests).lookup f = some r) :
    g.Attributed propertyItems f d r ∧ g.Attributed attributeItems f d r ∧ g.Attributed eventItems f d r := by
  have hbuilt := built_memoAfter g requests
  exact ⟨hbuilt.attributed propertyItems hunmarked hr hd, hbuilt.attributed attributeItems hunmarked hr hd,
    hbuilt.attributed eventItems hunmarked hr hd⟩

def overriding : Declaration :=
  Declaration.addProperty { role := .behavior, name := some "A", behaviors := [⟨"B", none⟩] }
    { name := "p", privacy := "private" }

def overridden : Declaration :=
  Declaration.addProperty { role := .behavior, name := some "B" } { name := "p", notify := true }

def shadowed : Graph where
  documents := [{ url := "a.js", features := [.declaration overriding, .declaration overridden] }]

theorem shadowed_unmarked (t : FeatureId) (e : Declaration) (he : shadowed.declaration? t = some e) : e.Unmarked := by
  obtain ⟨document, hdocument, hmem⟩ := exists_mem_of_declaration? he
  rw [List.mem_singleton.1 hdocument, List.mem_pair, ScannedFeature.declaration.injEq,
    ScannedFeature.declaration.injEq] at hmem
  rcases hmem with rfl | rfl
  · exact (Declaration.unmarked_of_nil rfl rfl).addProperty _
  · exact (Declaration.unmarked_of_nil rfl rfl).addProperty _

theorem exists_shadowed : ∃ r, (shadowed.memoAfter [.feature ⟨0, 0⟩]).lookup ⟨0, 0⟩ = some r ∧
    r.properties.map (fun p ↦ (p.name, p.privacy, p.inheritedFrom)) = [(("p" : Text), ("private" : Text), none)] ∧
    r.attributes.map (fun a ↦ (a.name, a.inheritedFrom)) = [(("p" : Text), some ("B" : Text))] ∧
    r.events.map (fun e ↦ (e.name, e.inheritedFrom)) = [(("p-changed" : Text), some ("B" : Text))] := by
  have hB : shadowed.target? 0 .behavior ⟨"B", none⟩ = some (⟨0, 1⟩, overridden) := by cbv
  have houter : shadowed.resolveFrom [] ⟨0, 0⟩ overriding [] = _ := resolveFrom_of_single rfl rfl hB (by decide)
  have hinner : shadowed.resolveFrom [⟨0, 0⟩] ⟨0, 1⟩ overridden [] = _ := resolveFrom_computed rfl
  rw [hinner] at houter
  have hmemo : shadowed.memoAfter [.feature ⟨0, 0⟩] = (shadowed.resolveFeature ⟨0, 0⟩ []).2 := rfl
  rw [hmemo, resolveFeature_of_declaration rfl, resolveDeclaration, houter]
  exact ⟨_, List.lookup_cons_self, rfl, rfl, rfl⟩

theorem shadowed_attributed : ∃ r, (shadowed.memoAfter [.feature ⟨0, 0⟩]).lookup ⟨0, 0⟩ = some r ∧
    shadowed.Attributed attributeItems ⟨0, 0⟩ overriding r ∧ ∃ a ∈ r.attributes, a.inheritedFrom = some "B" := by
  obtain ⟨r, hr, -, ha, -⟩ := exists_shadowed
  refine ⟨r, hr, (items_attributed shadowed _ _ _ r shadowed_unmarked rfl hr).2.1, ?_⟩
  obtain ⟨a, ha, heq⟩ := List.mem_map.1 (ha ▸ List.mem_cons_self)
  exact ⟨a, ha, congrArg Prod.snd heq⟩

end Graph

end PolymerAnalysis
