import PolymerAnalysis.Proofs.Feature.Additions
import PolymerAnalysis.Proofs.Resolution.Origins

namespace PolymerAnalysis

open Keyed

def Declaration.OfProperties (d : Declaration) : Prop :=
  ∃ start : Declaration, start.properties = [] ∧ start.attributes = [] ∧ start.events = [] ∧
    d = d.properties.foldl Declaration.addProperty start

namespace ResolvedProperty

def madeAttribute? (p : ResolvedProperty) : Option Attribute :=
  p.toProperty.attribute?.map fun a ↦ { a with inheritedFrom := p.inheritedFrom }

def madeEvent? (p : ResolvedProperty) : Option Event :=
  p.toProperty.event?.map fun e ↦ { e with inheritedFrom := p.inheritedFrom }

end ResolvedProperty

/-- Items that properties make, looked up under some kind of keys. -/
structure Derivation {α : Type} (kind : ItemKind α) (κ : Type) [DecidableEq κ] where
  key : α → κ
  make : ResolvedProperty → Option α
  hand : Text → α → α
  key_congr : ∀ x y, kind.key x = kind.key y → key x = key y
  key_hand : ∀ source x, key (hand source x) = key x
  handed_eq : ∀ r, kind.handed r = (kind.items r).map (hand r.source)
  make_inherit : ∀ (p : ResolvedProperty) source, p.inheritedFrom ≠ some [] →
    make (p.inherit source) = (make p).map (hand source)
  last?_own : ∀ d : Declaration, d.OfProperties → ∀ k,
    last? key k (kind.own d) = last? key k ((propertyItems.own d).filterMap make)

theorem Declaration.OfProperties.last?_eq {β : Type} (h : d.OfProperties) {get : Declaration → List β}
    {name : β → Text} {make : Property → Option β}
    (hadd : ∀ d p, get (d.addProperty p) = (make p).elim (get d) fun x ↦ upsert name x (get d))
    (hnil : ∀ d : Declaration, d.attributes = [] → d.events = [] → get d = []) (k : Text) :
    last? name k (get d) = last? name k (d.properties.filterMap make) := by
  obtain ⟨start, -, hattributes, hevents, hd⟩ := h
  have hget := congrArg get hd
  rw [Declaration.foldl_addProperty hadd, hnil start hattributes hevents] at hget
  rw [hget, last?_foldl_upsert (by simp)]
  exact Option.or_none

theorem Declaration.OfProperties.addProperty {start : Declaration} (hproperties : start.properties = [])
    (hattributes : start.attributes = []) (hevents : start.events = []) (p : Property) :
    (start.addProperty p).OfProperties := by
  refine ⟨start, hproperties, hattributes, hevents, ?_⟩
  rw [properties_addProperty, hproperties]
  rfl

section Derivations

variable {κ : Type} [DecidableEq κ]

theorem inheritedOrigin_of_ne {origin : Option Text} (h : origin ≠ some []) (source : Text) :
    inheritedOrigin origin source = (origin <|> some source) := by
  cases origin with
  | none => rfl
  | some t => cases t with
    | nil => exact absurd rfl h
    | cons c t => rfl

theorem ResolvedProperty.madeAttribute?_of_own (p : Property) :
    madeAttribute? { p with inheritedFrom := none } = p.attribute? := by
  rw [madeAttribute?]
  cases hp : p.attribute? with
  | none => rfl
  | some a =>
    have ha := Property.inheritedFrom_attribute? hp
    rw [Option.map_some, ← ha]

theorem ResolvedProperty.madeEvent?_of_own (p : Property) :
    madeEvent? { p with inheritedFrom := none } = p.event? := by
  rw [madeEvent?]
  cases hp : p.event? with
  | none => rfl
  | some e =>
    obtain ⟨a, -, ha⟩ := Option.bind_eq_some_iff.1 hp
    have he := Property.inheritedFrom_changeEvent? ha
    rw [Option.map_some, ← he]

def propertyDerivation (key : Text → κ) : Derivation propertyItems κ where
  key p := key p.name
  make := some
  hand source p := p.inherit source
  key_congr _ _ h := congrArg key h
  key_hand _ _ := rfl
  handed_eq _ := rfl
  make_inherit _ _ _ := rfl
  last?_own _ _ _ := by rw [List.filterMap_some]

def attributeDerivation : Derivation attributeItems Text where
  key := (·.name)
  make := (·.madeAttribute?)
  hand source a := { a with inheritedFrom := inheritedOrigin a.inheritedFrom source }
  key_congr _ _ h := h
  key_hand _ _ := rfl
  handed_eq _ := rfl
  make_inherit p source hp := by
    rw [ResolvedProperty.madeAttribute?, ResolvedProperty.madeAttribute?, Option.map_map]
    refine congrArg (Option.map · p.toProperty.attribute?) (funext fun a ↦ ?_)
    exact congrArg (fun o ↦ { a with inheritedFrom := o }) (inheritedOrigin_of_ne hp source).symm
  last?_own d hd k := by
    have hmake : (propertyItems.own d).filterMap (·.madeAttribute?) = d.properties.filterMap (·.attribute?) :=
      List.filterMap_map.trans (List.filterMap_congr fun p _ ↦ ResolvedProperty.madeAttribute?_of_own p)
    rw [hmake]
    exact hd.last?_eq Declaration.attributes_addProperty (fun _ h _ ↦ h) k

def eventDerivation : Derivation eventItems Text where
  key := (·.name)
  make := (·.madeEvent?)
  hand source e := { e with inheritedFrom := inheritedOrigin e.inheritedFrom source }
  key_congr _ _ h := h
  key_hand _ _ := rfl
  handed_eq _ := rfl
  make_inherit p source hp := by
    rw [ResolvedProperty.madeEvent?, ResolvedProperty.madeEvent?, Option.map_map]
    refine congrArg (Option.map · p.toProperty.event?) (funext fun e ↦ ?_)
    exact congrArg (fun o ↦ { e with inheritedFrom := o }) (inheritedOrigin_of_ne hp source).symm
  last?_own d hd k := by
    have hmake : (propertyItems.own d).filterMap (·.madeEvent?) = d.properties.filterMap (·.event?) :=
      List.filterMap_map.trans (List.filterMap_congr fun p _ ↦ ResolvedProperty.madeEvent?_of_own p)
    rw [hmake]
    exact hd.last?_eq Declaration.events_addProperty (fun _ _ h ↦ h) k

end Derivations

namespace Graph

open Relation

variable {g : Graph} {chain : List FeatureId} {f t : FeatureId} {d : Declaration} {memo earlier : Memo} {parts : List Part}
  {r : ResolvedDeclaration} {α κ : Type} [DecidableEq κ]

/-- What was composed into a declaration directly, in order. A reference on a cycle has left its warning instead. -/
def takenIn (g : Graph) (f : FeatureId) (d : Declaration) (r : ResolvedDeclaration) : List FeatureId :=
  d.references.filterMap fun reference ↦
    if reference.2.cyclicWarning reference.1 ∈ d.added r then none else g.lookup? f.owner reference

/-- All properties that were composed into a declaration, in order, and then its own. Those that are overridden are
among them. -/
def composed (g : Graph) : Memo → FeatureId → List ResolvedProperty
  | [], _ => []
  | (t, r) :: earlier, f =>
    if f = t then
      match g.declaration? f with
      | some d => (g.takenIn f d r).flatMap (fun u ↦
          (composed g earlier u).map (·.inherit (((earlier.lookup u).map (·.source)).getD []))) ++ propertyItems.own d
      | none => []
    else composed g earlier f

theorem composed_cons_self (hd : g.declaration? f = some d) (r : ResolvedDeclaration) (earlier : Memo) :
    g.composed ((f, r) :: earlier) f = (g.takenIn f d r).flatMap (fun u ↦
      (g.composed earlier u).map (·.inherit (((earlier.lookup u).map (·.source)).getD []))) ++ propertyItems.own d := by
  rw [composed, if_pos rfl, hd]

theorem composed_cons_ne (hne : f ≠ t) (r : ResolvedDeclaration) (earlier : Memo) :
    g.composed ((t, r) :: earlier) f = g.composed earlier f := by
  rw [composed, if_neg hne]

theorem source_ne_nil (r : ResolvedDeclaration) : r.source ≠ [] := by
  rw [ResolvedDeclaration.source]
  cases r.name with
  | none => decide
  | some t => cases t with
    | nil => decide
    | cons c t => exact List.cons_ne_nil c t

theorem takenIn_assembled : g.takenIn f d (g.assembled chain f d parts) =
    (g.accepted f.owner (f :: chain) d.references).filterMap (g.lookup? f.owner) := by
  rw [takenIn, added_assembled, accepted, List.filterMap_filter]
  refine List.filterMap_congr fun reference href ↦ ?_
  cases hl : g.lookup? f.owner reference with
  | none => simp
  | some t =>
    by_cases hc : t ∈ f :: chain
    · have hw : reference.2.cyclicWarning reference.1 ∈ d.references.filterMap (g.refusal? f.owner (f :: chain)) :=
        List.mem_filterMap.2 ⟨reference, href, by simp only [refusal?, hl, if_pos hc]⟩
      have hrefused : (g.refusal? f.owner (f :: chain) reference).isNone = false := by
        simp only [refusal?, hl, if_pos hc, Option.isNone_some]
      rw [if_pos hw, hrefused]
      rfl
    · have hmem := mem_accepted href hl hc
      have hw := (mem_accepted_iff hl href).1 hmem
      have hnone := (List.mem_filter.1 hmem).2
      rw [if_neg hw, hnone]
      rfl

theorem forall₂_lookup {references : List (ReferenceKind × Reference)} {i : DocId}
    (h : List.Forall₂ (g.Supplies i memo) references parts) :
    List.Forall₂ (fun part u ↦ memo.lookup u = some part.resolved) parts (references.filterMap (g.lookup? i)) := by
  induction h with
  | nil => exact .nil
  | cons hpart _ ih =>
    obtain ⟨-, -, t, hl, ht⟩ := hpart
    rw [List.filterMap_cons_some hl]
    exact .cons ht ih

/-- The declarations that were taken in are what the parts are the resolved forms of. -/
theorem Assembles.forall₂_takenIn (h : g.Assembles earlier chain f d parts) :
    List.Forall₂ (fun part u ↦ earlier.lookup u = some part.resolved) parts
      (g.takenIn f d (g.assembled chain f d parts)) := by
  rw [takenIn_assembled]
  exact forall₂_lookup h.supplied

theorem Built.origin_ne_nil (h : g.Built memo) (hr : memo.lookup f = some r) :
    ∀ p ∈ g.composed memo f, p.inheritedFrom ≠ some [] := by
  induction h generalizing f r with
  | refl => cases hr
  | tail _ hstep ih =>
    obtain ⟨chain, d, parts, -, hassembles, rfl, rfl⟩ | ⟨hkept, t, r', hne, rfl⟩ := hstep.lookup_cases hr
    · rw [composed_cons_self hassembles.declared]
      intro p hp
      rcases List.mem_append.1 hp with hp | hp
      · obtain ⟨u, hu, hp⟩ := List.mem_flatMap.1 hp
        obtain ⟨q, hq, rfl⟩ := List.mem_map.1 hp
        obtain ⟨part, -, hpart⟩ := exists_of_forall₂ hassembles.forall₂_takenIn.flip hu
        rw [hpart, ResolvedProperty.inherit]
        cases horigin : q.inheritedFrom with
        | none => exact fun heq ↦ source_ne_nil _ (Option.some.inj heq)
        | some n => exact fun heq ↦ ih hpart q hq (horigin.trans heq)
      · obtain ⟨q, -, rfl⟩ := List.mem_map.1 hp
        exact Option.some_ne_none _ |>.symm
    · rw [composed_cons_ne hne]
      exact ih hkept

/-- By induction over what is composed in: the last item with a key is made by the last property that makes one. -/
theorem Built.last?_items {kind : ItemKind α} (derivation : Derivation kind κ)
    (hproperties : ∀ t e, g.declaration? t = some e → e.OfProperties) (h : g.Built memo)
    (hr : memo.lookup f = some r) (k : κ) :
    last? derivation.key k (kind.items r) = last? derivation.key k ((g.composed memo f).filterMap derivation.make) := by
  induction h generalizing f r with
  | refl => cases hr
  | @tail earlier _ hbefore hstep ih =>
    obtain ⟨chain, d, parts, -, hassembles, rfl, rfl⟩ | ⟨hkept, t, r', hne, rfl⟩ := hstep.lookup_cases hr
    · rw [composed_cons_self hassembles.declared, assembled, kind.items_flattened,
        last?_lastOfEach derivation.key_congr, last?_append, List.filterMap_append, last?_append,
        derivation.last?_own d (hproperties f d hassembles.declared), List.filterMap_flatMap]
      refine congrArg _ (last?_flatMap (hassembles.forall₂_takenIn.imp fun part u hu ↦ ?_))
      have horigin := Built.origin_ne_nil hbefore hu
      have hmake : ((g.composed earlier u).map (·.inherit part.resolved.source)).filterMap derivation.make =
          ((g.composed earlier u).filterMap derivation.make).map (derivation.hand part.resolved.source) := by
        rw [List.filterMap_map, List.map_filterMap]
        exact List.filterMap_congr fun p hp ↦ derivation.make_inherit p _ (horigin p hp)
      rw [hu, Option.map_some, Option.getD_some, hmake, derivation.handed_eq,
        last?_map (derivation.key_hand _), last?_map (derivation.key_hand _), ih hu]
    · rw [composed_cons_ne hne]
      exact ih hkept

theorem Built.mem_items_iff (kind : ItemKind α) (h : g.Built memo) (hr : memo.lookup f = some r) (x : α) :
    x ∈ kind.items r ↔ last? kind.key (kind.key x) (kind.items r) = some x := by
  obtain ⟨earlier, chain, d, parts, -, -, -, rfl⟩ := exists_assembles h rfl hr
  rw [assembled, kind.items_flattened, mem_lastOfEach_iff, last?_lastOfEach fun _ _ hkey ↦ hkey]

theorem attributeName?_of_madeAttribute? {p : ResolvedProperty} {a : Attribute} (h : p.madeAttribute? = some a) :
    attributeName? p.name = some a.name := by
  obtain ⟨b, hb, rfl⟩ := Option.map_eq_some_iff.1 h
  have hname := Property.attributeName?_of_attribute? hb
  exact hname

theorem exists_attributeName?_of_madeEvent? {p : ResolvedProperty} {e : Event} (h : p.madeEvent? = some e) :
    ∃ name, attributeName? p.name = some name ∧ e.name = name ++ Text.ofString "-changed" := by
  obtain ⟨b, hb, rfl⟩ := Option.map_eq_some_iff.1 h
  have hname := Property.exists_attributeName?_of_event? hb
  exact hname

section Composed

variable (hproperties : ∀ t e, g.declaration? t = some e → e.OfProperties) (h : g.Built memo)
  (hr : memo.lookup f = some r)

include hproperties h hr

theorem Built.last?_properties (key : Text → κ) (k : κ) :
    last? (fun p ↦ key p.name) k r.properties = last? (fun p ↦ key p.name) k (g.composed memo f) := by
  have hlast := h.last?_items (propertyDerivation key) hproperties hr k
  have hmake : (g.composed memo f).filterMap (propertyDerivation key).make = g.composed memo f := List.filterMap_some
  rwa [hmake] at hlast

theorem Built.mem_properties_iff (p : ResolvedProperty) :
    p ∈ r.properties ↔ last? (·.name) p.name (g.composed memo f) = some p := by
  rw [← Built.last?_properties hproperties h hr (fun n ↦ n)]
  exact h.mem_items_iff propertyItems hr p

theorem Built.mem_attributes_iff (a : Attribute) :
    a ∈ r.attributes ↔ last? (·.name) a.name ((g.composed memo f).filterMap (·.madeAttribute?)) = some a := by
  have hlast := h.last?_items attributeDerivation hproperties hr a.name
  exact (h.mem_items_iff attributeItems hr a).trans (Eq.congr_left hlast)

theorem Built.mem_events_iff (e : Event) :
    e ∈ r.events ↔ last? (·.name) e.name ((g.composed memo f).filterMap (·.madeEvent?)) = some e := by
  have hlast := h.last?_items eventDerivation hproperties hr e.name
  exact (h.mem_items_iff eventItems hr e).trans (Eq.congr_left hlast)

theorem Built.winner {n : Text} {p : ResolvedProperty}
    (hp : last? (fun p ↦ attributeName? p.name) (some n) r.properties = some p) :
    (∀ a, p.madeAttribute? = some a → a ∈ r.attributes) ∧ ∀ e, p.madeEvent? = some e → e ∈ r.events := by
  rw [Built.last?_properties hproperties h hr attributeName?] at hp
  have hname := key_of_last? hp
  constructor
  · intro a ha
    have hsame := Option.some.inj ((attributeName?_of_madeAttribute? ha).symm.trans hname)
    refine (Built.mem_attributes_iff hproperties h hr a).2 (last?_filterMap (fun q _ b hb hkey ↦ ?_) hp ha)
    rw [attributeName?_of_madeAttribute? hb, hkey, hsame]
  · intro e he
    obtain ⟨name, hname', he_name⟩ := exists_attributeName?_of_madeEvent? he
    refine (Built.mem_events_iff hproperties h hr e).2 (last?_filterMap (fun q _ b hb hkey ↦ ?_) hp he)
    obtain ⟨name', hq, hb_name⟩ := exists_attributeName?_of_madeEvent? hb
    have hsame : name' = name := List.append_cancel_right (hb_name.symm.trans (hkey.trans he_name))
    rw [hq, hsame, ← hname', hname]

end Composed

/-- What is composed into a declaration decides what it has: of a name, the last property that was composed in; of an
attribute or a change event, what the last property makes that makes one of the name. If the last property of the
declaration with an attribute name makes an attribute or a change event, the declaration has it. -/
theorem attributes_follow_composition (g : Graph) (requests : List Request) (f : FeatureId) (r : ResolvedDeclaration)
    (hproperties : ∀ t e, g.declaration? t = some e → e.OfProperties)
    (hr : (g.memoAfter requests).lookup f = some r) :
    (∀ p, p ∈ r.properties ↔ last? (·.name) p.name (g.composed (g.memoAfter requests) f) = some p) ∧
    (∀ a, a ∈ r.attributes ↔
      last? (·.name) a.name ((g.composed (g.memoAfter requests) f).filterMap (·.madeAttribute?)) = some a) ∧
    (∀ e, e ∈ r.events ↔
      last? (·.name) e.name ((g.composed (g.memoAfter requests) f).filterMap (·.madeEvent?)) = some e) ∧
    ∀ n p, last? (fun p ↦ attributeName? p.name) (some n) r.properties = some p →
      (∀ a, p.madeAttribute? = some a → a ∈ r.attributes) ∧ ∀ e, p.madeEvent? = some e → e ∈ r.events := by
  have hbuilt := built_memoAfter g requests
  exact ⟨fun p ↦ hbuilt.mem_properties_iff hproperties hr p, fun a ↦ hbuilt.mem_attributes_iff hproperties hr a,
    fun e ↦ hbuilt.mem_events_iff hproperties hr e, fun n p hp ↦ hbuilt.winner hproperties hr hp⟩

theorem shadowed_ofProperties (t : FeatureId) (e : Declaration) (he : shadowed.declaration? t = some e) :
    e.OfProperties := by
  obtain ⟨document, hdocument, hmem⟩ := exists_mem_of_declaration? he
  rw [List.mem_singleton.1 hdocument, List.mem_pair, ScannedFeature.declaration.injEq,
    ScannedFeature.declaration.injEq] at hmem
  rcases hmem with rfl | rfl
  · exact Declaration.OfProperties.addProperty rfl rfl rfl _
  · exact Declaration.OfProperties.addProperty rfl rfl rfl _

theorem shadowed_attribute_made : ∃ r a, (shadowed.memoAfter [.feature ⟨0, 0⟩]).lookup ⟨0, 0⟩ = some r ∧
    a.inheritedFrom = some ("B" : Text) ∧ last? (·.name) a.name
      ((shadowed.composed (shadowed.memoAfter [.feature ⟨0, 0⟩]) ⟨0, 0⟩).filterMap (·.madeAttribute?)) = some a := by
  obtain ⟨r, hr, -, hattributes, -⟩ := exists_shadowed
  obtain ⟨a, ha, heq⟩ := List.mem_map.1 (hattributes ▸ List.mem_cons_self)
  have hfollow := attributes_follow_composition shadowed [.feature ⟨0, 0⟩] ⟨0, 0⟩ r shadowed_ofProperties hr
  exact ⟨r, a, hr, congrArg Prod.snd heq, (hfollow.2.1 a).1 ha⟩

/-- A private property overrides an inherited one, but not the attribute that the inherited one made. -/
theorem shadowed_attribute_stays : ¬∀ (g : Graph) (requests : List Request) (f : FeatureId) (r : ResolvedDeclaration),
    (∀ t e, g.declaration? t = some e → e.OfProperties) → (g.memoAfter requests).lookup f = some r →
    ∀ a ∈ r.attributes, ∃ p ∈ r.properties, p.madeAttribute? = some a := by
  intro h
  obtain ⟨r, hr, hproperties, hattributes, -⟩ := exists_shadowed
  obtain ⟨a, ha, -⟩ := List.mem_map.1 (hattributes ▸ List.mem_cons_self)
  obtain ⟨p, hp, hmade⟩ := h shadowed [.feature ⟨0, 0⟩] ⟨0, 0⟩ r shadowed_ofProperties hr a ha
  have hmem := List.mem_map_of_mem (f := fun p : ResolvedProperty ↦ (p.name, p.privacy, p.inheritedFrom)) hp
  rw [hproperties, List.mem_singleton, Prod.mk.injEq, Prod.mk.injEq] at hmem
  have hprivate : p.toProperty.attribute? = none := by
    rw [Property.attribute?, hmem.2.1]
    rfl
  rw [ResolvedProperty.madeAttribute?, hprivate] at hmade
  cases hmade

end Graph

end PolymerAnalysis
