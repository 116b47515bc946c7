import PolymerAnalysis.Feature.Declaration
import PolymerAnalysis.Proofs.Keyed

namespace PolymerAnalysis

open Keyed

def Property.event? (p : Property) : Option Event := p.attribute?.bind p.changeEvent?

theorem Property.attributeName?_of_attribute? {p : Property} {a : Attribute} (h : p.attribute? = some a) :
    attributeName? p.name = some a.name := by
  rw [attribute?] at h
  split at h
  · obtain ⟨name, hname, rfl⟩ := Option.map_eq_some_iff.1 h
    exact hname
  · cases h

theorem Property.exists_attributeName?_of_event? {p : Property} {e : Event} (h : p.event? = some e) :
    ∃ name, attributeName? p.name = some name ∧ e.name = name ++ Text.ofString "-changed" := by
  obtain ⟨a, ha, h⟩ := Option.bind_eq_some_iff.1 h
  obtain ⟨event, hevent, rfl⟩ := Option.map_eq_some_iff.1 h
  rw [attribute?] at ha
  split at ha
  · obtain ⟨name, hname, rfl⟩ := Option.map_eq_some_iff.1 ha
    refine ⟨name, hname, ?_⟩
    dsimp only at hevent ⊢
    split at hevent
    · exact (Option.some.inj hevent).symm
    · cases hevent
  · cases ha

theorem Declaration.addProperty_eq (d : Declaration) (p : Property) :
    d.addProperty p =
      { d with
        properties := upsert (·.name) p d.properties
        attributes := p.attribute?.elim d.attributes fun a ↦ upsert (·.name) a d.attributes
        events := p.event?.elim d.events fun e ↦ upsert (·.name) e d.events } := by
  rw [addProperty, Property.event?]
  cases p.attribute? with
  | none => rfl
  | some a =>
    rw [Option.bind_some]
    dsimp only
    cases p.changeEvent? a <;> rfl

theorem Declaration.properties_addProperty (d : Declaration) (p : Property) :
    (d.addProperty p).properties = upsert (·.name) p d.properties := by
  rw [addProperty_eq]

theorem Declaration.attributes_addProperty (d : Declaration) (p : Property) :
    (d.addProperty p).attributes = p.attribute?.elim d.attributes fun a ↦ upsert (·.name) a d.attributes := by
  rw [addProperty_eq]

theorem Declaration.events_addProperty (d : Declaration) (p : Property) :
    (d.addProperty p).events = p.event?.elim d.events fun e ↦ upsert (·.name) e d.events := by
  rw [addProperty_eq]

theorem Declaration.addMixin_eq (d : Declaration) (r : Reference) :
    d.addMixin r = { d with mixins := addFirst (·.name) r d.mixins } := by
  have hany : d.mixins.any (·.name = r.name) = true ↔ r.name ∈ d.mixins.map (·.name) := by simp
  rw [addMixin, addFirst]
  by_cases hr : r.name ∈ d.mixins.map (·.name)
  · rw [if_pos hr, if_pos (hany.2 hr)]
  · rw [if_neg hr, if_neg (mt hany.1 hr)]

theorem Declaration.addMixins_eq (d : Declaration) (rs : List Reference) :
    d.addMixins rs = { d with mixins := rs.foldl (fun xs r ↦ addFirst (·.name) r xs) d.mixins } := by
  induction rs generalizing d with
  | nil => rfl
  | cons r rs ih =>
    change (d.addMixin r).addMixins rs = _
    rw [ih, addMixin_eq, List.foldl_cons]

/-- Adding properties puts in what they make, one after the other. -/
theorem Declaration.foldl_addProperty {β : Type} {get : Declaration → List β} {name : β → Text}
    {make : Property → Option β}
    (hadd : ∀ d p, get (d.addProperty p) = (make p).elim (get d) fun x ↦ upsert name x (get d)) (d : Declaration)
    (ps : List Property) :
    get (ps.foldl addProperty d) = (ps.filterMap make).foldl (fun xs x ↦ upsert name x xs) (get d) := by
  rw [List.filterMap_eq_flatMap_toList]
  refine foldl_part get (fun d p ↦ ?_) d ps
  rw [hadd]
  cases make p <;> rfl

end PolymerAnalysis
