import PolymerAnalysis.Proofs.Feature.Redeclaration

namespace PolymerAnalysis

open Keyed

inductive Addition where
  | property (p : Property)
  | event (e : Event)
  | mixins (rs : List Reference)

def Addition.properties : Addition → List Property
  | .property p => [p]
  | .event _ | .mixins _ => []

def Addition.events : Addition → List Event
  | .property p => p.event?.toList
  | .event e => [e]
  | .mixins _ => []

def Addition.references : Addition → List Reference
  | .mixins rs => rs
  | .property _ | .event _ => []

/-- An attribute that tells of changes makes an event of that name. -/
theorem Property.exists_event?_of_attribute? {p : Property} {a : Attribute} (ha : p.attribute? = some a) {n : Text}
    (hn : a.changeEvent = some n) : ∃ e, p.event? = some e ∧ e.name = n := by
  rw [event?, ha, Option.bind_some, changeEvent?, hn]
  exact ⟨_, rfl, rfl⟩

namespace Declaration

def add (d : Declaration) : Addition → Declaration
  | .property p => d.addProperty p
  | .event e => d.addEvent e
  | .mixins rs => d.addMixins rs

def addAll (d : Declaration) (as : List Addition) : Declaration := as.foldl add d

/-- No name occurs twice in a list, and every change event that an attribute names is there. -/
structure IsKeyed (d : Declaration) : Prop where
  properties : (d.properties.map (·.name)).Nodup
  attributes : (d.attributes.map (·.name)).Nodup
  events : (d.events.map (·.name)).Nodup
  mixins : (d.mixins.map (·.name)).Nodup
  announced : ∀ a ∈ d.attributes, ∀ n ∈ a.changeEvent, n ∈ d.events.map (·.name)

variable {d start : Declaration}

/-- Names of events are never lost. -/
theorem mem_events_addProperty (p : Property) {n : Text} (hn : n ∈ d.events.map (·.name)) :
    n ∈ (d.addProperty p).events.map (·.name) := by
  rw [events_addProperty]
  cases p.event? with
  | none => exact hn
  | some e =>
    rw [Option.elim_some, map_upsert]
    exact mem_addNew.2 (.inl hn)

theorem IsKeyed.addProperty (h : d.IsKeyed) (p : Property) : (d.addProperty p).IsKeyed := by
  constructor
  case announced =>
    rw [attributes_addProperty]
    refine forall_mem_elim_upsert (fun a ha n hn ↦ ?_) fun a ha n hn ↦ mem_events_addProperty p (h.announced a ha n hn)
    obtain ⟨e, he, rfl⟩ := Property.exists_event?_of_attribute? ha hn
    rw [events_addProperty, he]
    exact List.mem_map_of_mem (mem_upsert_self _ e _)
  all_goals rw [addProperty_eq]
  · exact nodup_upsert h.properties p
  · exact nodup_elim_upsert h.attributes p.attribute?
  · exact nodup_elim_upsert h.events p.event?
  · exact h.mixins

theorem IsKeyed.addEvent (h : d.IsKeyed) (e : Event) : (d.addEvent e).IsKeyed where
  properties := h.properties
  attributes := h.attributes
  events := nodup_upsert h.events e
  mixins := h.mixins
  announced := by
    intro a ha n hn
    rw [Declaration.addEvent, map_upsert]
    exact mem_addNew.2 (.inl (h.announced a ha n hn))

theorem IsKeyed.addMixins (h : d.IsKeyed) (rs : List Reference) : (d.addMixins rs).IsKeyed := by
  rw [addMixins_eq]
  exact { h with mixins := nodup_foldl_addFirst h.mixins rs }

theorem IsKeyed.add (h : d.IsKeyed) (a : Addition) : (d.add a).IsKeyed := by
  cases a with
  | property p => exact h.addProperty p
  | event e => exact h.addEvent e
  | mixins rs => exact h.addMixins rs

theorem IsKeyed.addAll (h : d.IsKeyed) (as : List Addition) : (d.addAll as).IsKeyed := by
  induction as generalizing d with
  | nil => exact h
  | cons a as ih => exact ih (h.add a)

theorem isKeyed_of_isEmpty (hstart : start.IsEmpty) (hmixins : start.mixins = []) : start.IsKeyed where
  properties := by simp [hstart.properties]
  attributes := by simp [hstart.attributes]
  events := by simp [hstart.events]
  mixins := by simp [hmixins]
  announced := by simp [hstart.attributes]

theorem properties_addAll (d : Declaration) (as : List Addition) :
    (d.addAll as).properties =
      (as.flatMap Addition.properties).foldl (fun ps p ↦ upsert (·.name) p ps) d.properties := by
  refine foldl_part properties (fun d a ↦ ?_) d as
  cases a with
  | property p => exact properties_addProperty d p
  | event e => rfl
  | mixins rs => rw [add, addMixins_eq]; rfl

theorem attributes_addAll (d : Declaration) (as : List Addition) :
    (d.addAll as).attributes =
      ((as.flatMap Addition.properties).filterMap (·.attribute?)).foldl (fun xs x ↦ upsert (·.name) x xs)
        d.attributes := by
  rw [List.filterMap_flatMap]
  refine foldl_part attributes (fun d a ↦ ?_) d as
  cases a with
  | property p =>
    rw [add, attributes_addProperty, Addition.properties]
    cases hp : p.attribute? with
    | none => rw [List.filterMap_cons_none hp]; rfl
    | some x => rw [List.filterMap_cons_some hp]; rfl
  | event e => rfl
  | mixins rs => rw [add, addMixins_eq]; rfl

theorem events_addAll (d : Declaration) (as : List Addition) :
    (d.addAll as).events = (as.flatMap Addition.events).foldl (fun es e ↦ upsert (·.name) e es) d.events := by
  refine foldl_part events (fun d a ↦ ?_) d as
  cases a with
  | property p =>
    rw [add, events_addProperty, Addition.events]
    cases p.event? <;> rfl
  | event e => rfl
  | mixins rs => rw [add, addMixins_eq]; rfl

theorem mixins_addAll (d : Declaration) (as : List Addition) :
    (d.addAll as).mixins = (as.flatMap Addition.references).foldl (fun rs r ↦ addFirst (·.name) r rs) d.mixins := by
  refine foldl_part mixins (fun d a ↦ ?_) d as
  cases a with
  | property p => rw [add, addProperty_eq]; rfl
  | event e => rfl
  | mixins rs => rw [add, addMixins_eq]; rfl

end Declaration

/-- Whatever is added to an empty declaration, and in whichever order: no list has a name twice, and the change event of
each attribute is there. Of properties, attributes and events the last ones of their names stand there and of mixins
the first ones, all in the order in which the names first occur. -/
theorem additions_keyed (start : Declaration) (as : List Addition) (hstart : start.IsEmpty)
    (hmixins : start.mixins = []) :
    (start.addAll as).IsKeyed ∧
    (start.addAll as).properties = latest (·.name) (as.flatMap Addition.properties) ∧
    (start.addAll as).attributes = latest (·.name) ((as.flatMap Addition.properties).filterMap (·.attribute?)) ∧
    (start.addAll as).events = latest (·.name) (as.flatMap Addition.events) ∧
    (start.addAll as).mixins = earliest (·.name) (as.flatMap Addition.references) := by
  refine ⟨(Declaration.isKeyed_of_isEmpty hstart hmixins).addAll as, ?_, ?_, ?_, ?_⟩
  · rw [Declaration.properties_addAll, hstart.properties, foldl_upsert]
  · rw [Declaration.attributes_addAll, hstart.attributes, foldl_upsert]
  · rw [Declaration.events_addAll, hstart.events, foldl_upsert]
  · rw [Declaration.mixins_addAll, hmixins, foldl_addFirst]

def repeatedAdditions : List Addition :=
  [.property { name := "value", type := some "string" }, .mixins [⟨"M", some default⟩],
    .event ⟨"value-changed", none, none, none⟩, .property { name := "open" }, .mixins [⟨"M", none⟩, ⟨"N", none⟩],
    .property { name := "value", type := some "number", notify := true }]

theorem repeatedAdditions_keyed :
    Declaration.IsEmpty { role := .behavior } ∧ ({ role := .behavior } : Declaration).mixins = [] ∧
    ∃ d, d = Declaration.addAll { role := .behavior } repeatedAdditions ∧ d.IsKeyed ∧
      d.properties.map (·.name) = ["value", "open"] ∧
      d.properties.map (·.type) = [some (Text.ofString "number"), none] ∧
      d.attributes.map (·.changeEvent) = [some (Text.ofString "value-changed"), none] ∧
      d.events.map (·.name) = ["value-changed"] ∧
      d.mixins = [⟨"M", some default⟩, ⟨"N", none⟩] := by
  obtain ⟨hkeyed, hproperties, hattributes, hevents, hmixins⟩ :=
    additions_keyed { role := .behavior } repeatedAdditions ⟨rfl, rfl, rfl⟩ rfl
  refine ⟨⟨rfl, rfl, rfl⟩, rfl, _, rfl, hkeyed, ?_⟩
  rw [hproperties, hattributes, hevents, hmixins]
  refine ⟨?_, ?_, ?_, ?_, ?_⟩ <;> cbv

end PolymerAnalysis
