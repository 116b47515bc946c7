import PolymerAnalysis.Proofs.Feature.Additions

namespace PolymerAnalysis

open Keyed

structure Declaration.IsEmpty (d : Declaration) : Prop where
  properties : d.properties = []
  attributes : d.attributes = []
  events : d.events = []

def Property.KeptApart (ps : List Property) : Prop :=
  ∀ p ∈ ps, ∀ q ∈ ps, ∀ n, attributeName? p.name = some n → attributeName? q.name = some n → p.name = q.name

/-- What two properties make has the same key if and only if they have the same name. -/
def Property.KeyedByName {β : Type} (make : Property → Option β) (key : β → Text) (ps : List Property) : Prop :=
  ∀ p ∈ ps, ∀ q ∈ ps, ∀ x y, make p = some x → make q = some y → (key x = key y ↔ p.name = q.name)

/-- Of the declarations of one property, `x` was made by the last that makes anything, and the very last makes
nothing. -/
def Property.LeavesBehind {β : Type} (make : Property → Option β) (ps : List Property) (x : β) : Prop :=
  ∃ p q, last? (·.name) p.name (ps.filter fun p ↦ (make p).isSome) = some p ∧ make p = some x ∧
    last? (·.name) p.name ps = some q ∧ make q = none

section

variable {β : Type} {make : Property → Option β} {key : β → Text} {ps : List Property} {start d : Declaration} {x : β}

/-- What is made under some key, and last, is made by the last of the declarations of a property that make anything. -/
theorem Property.last?_made_iff (hkey : KeyedByName make key ps) (x : β) :
    last? key (key x) (ps.filterMap make) = some x ↔
      ∃ p, last? (·.name) p.name (ps.filter fun p ↦ (make p).isSome) = some p ∧ make p = some x := by
  have hlast (p : Property) (hp : p ∈ ps) (hx : make p = some x) :
      last? key (key x) (ps.filterMap make) =
        (last? (·.name) p.name (ps.filter fun p ↦ (make p).isSome)).bind make :=
    last?_filterMap_eq fun q hq y hy ↦ hkey q hq p hp y x hy hx
  constructor
  · intro h
    obtain ⟨p, hp, hx⟩ := List.mem_filterMap.1 (mem_of_last? h)
    rw [hlast p hp hx] at h
    obtain ⟨q, hq, hqx⟩ := Option.bind_eq_some_iff.1 h
    have hname : q.name = p.name := key_of_last? hq
    exact ⟨q, hname ▸ hq, hqx⟩
  · rintro ⟨p, hp, hx⟩
    rw [hlast p (List.mem_filter.1 (mem_of_last? hp)).1 hx, hp, Option.bind_some, hx]

theorem Declaration.mem_properties_iff (hstart : start.IsEmpty) (hd : d = ps.foldl addProperty start) (p : Property) :
    p ∈ d.properties ↔ last? (·.name) p.name ps = some p := by
  have hadded : d.properties = (ps.filterMap some).foldl (fun qs q ↦ upsert (·.name) q qs) start.properties := by
    rw [hd]
    exact foldl_addProperty properties_addProperty start ps
  rw [hadded, hstart.properties, mem_foldl_upsert_iff, List.filterMap_some]

/-- What stands in a list of made items: what the current properties make, and what others left behind. -/
theorem Declaration.mem_made_iff {get : Declaration → List β} (hstart : start.IsEmpty)
    (hd : d = ps.foldl addProperty start)
    (hadd : ∀ d p, get (d.addProperty p) = (make p).elim (get d) fun x ↦ upsert key x (get d)) (hget : get start = [])
    (hkey : Property.KeyedByName make key ps) (x : β) :
    x ∈ get d ↔ (∃ p ∈ d.properties, make p = some x) ∨ Property.LeavesBehind make ps x := by
  rw [hd, foldl_addProperty hadd, hget, mem_foldl_upsert_iff, Property.last?_made_iff hkey, ← hd]
  simp only [mem_properties_iff hstart hd]
  constructor
  · rintro ⟨p, hp, hx⟩
    obtain ⟨q, hq⟩ := Option.isSome_iff_exists.1 (isSome_last? Property.name (List.mem_filter.1 (mem_of_last? hp)).1)
    cases hmake : make q with
    | none => exact .inr ⟨p, q, hp, hx, hq, hmake⟩
    | some y =>
      -- the very last declaration makes something, so it is the last that does
      have hsame := last?_filter (P := fun p ↦ (make p).isSome) hq (by rw [hmake]; rfl)
      cases hsame.symm.trans hp
      exact .inl ⟨p, hq, hx⟩
  · rintro (⟨p, hp, hx⟩ | ⟨p, -, hp, hx, -, -⟩)
    · exact ⟨p, last?_filter hp (by rw [hx]; rfl), hx⟩
    · exact ⟨p, hp, hx⟩

/-- Nothing that a current property makes was left behind by another one. -/
theorem Property.LeavesBehind.not_made (h : LeavesBehind make ps x) (hkey : KeyedByName make key ps) {p : Property}
    (hp : last? (·.name) p.name ps = some p) : make p ≠ some x := by
  obtain ⟨r, q, hr, hx, hq, hnone⟩ := h
  intro hpx
  have hname := (hkey r (List.mem_filter.1 (mem_of_last? hr)).1 p (mem_of_last? hp) x x hx hpx).1 rfl
  rw [hname, hp] at hq
  cases hq
  cases hnone.symm.trans hpx

/-- Current properties make all items if and only if each property that ever made one still makes one. -/
theorem Property.made_only_iff {xs : List β} (hproperties : ∀ p, p ∈ d.properties ↔ last? (·.name) p.name ps = some p)
    (hxs : ∀ x, x ∈ xs ↔ (∃ p ∈ d.properties, make p = some x) ∨ LeavesBehind make ps x)
    (hkey : KeyedByName make key ps) :
    (∀ x, x ∈ xs ↔ ∃ p ∈ d.properties, make p = some x) ↔
      ∀ p ∈ ps, ∀ q ∈ d.properties, q.name = p.name → (make p).isSome → (make q).isSome := by
  constructor
  · intro h p hp q hq hname hsome
    by_contra hnone
    have hmem : p ∈ ps.filter fun p ↦ (make p).isSome := List.mem_filter.2 ⟨hp, hsome⟩
    obtain ⟨r, hr⟩ := Option.isSome_iff_exists.1 (isSome_last? Property.name hmem)
    obtain ⟨x, hx⟩ := Option.isSome_iff_exists.1 (List.mem_filter.1 (mem_of_last? hr)).2
    have hrname : r.name = p.name := key_of_last? hr
    have hlast := (hproperties q).1 hq
    rw [← hrname] at hr hname
    rw [hname] at hlast
    have hleft : LeavesBehind make ps x := ⟨r, q, hr, hx, hlast, by simpa using hnone⟩
    obtain ⟨s, hs, hsx⟩ := (h x).1 ((hxs x).2 (.inr hleft))
    exact hleft.not_made hkey ((hproperties s).1 hs) hsx
  · intro h x
    rw [hxs x]
    refine ⟨fun hmade ↦ hmade.resolve_right ?_, .inl⟩
    rintro ⟨p, q, hp, hx, hq, hnone⟩
    have hname : q.name = p.name := key_of_last? hq
    have hsome := h p (List.mem_filter.1 (mem_of_last? hp)).1 q ((hproperties q).2 (hname ▸ hq)) hname
      (Option.isSome_of_eq_some hx)
    rw [hnone] at hsome
    cases hsome

theorem Property.KeptApart.attributes (h : KeptApart ps) : KeyedByName (·.attribute?) (·.name) ps := by
  intro p hp q hq a b ha hb
  have hpname := attributeName?_of_attribute? ha
  have hqname := attributeName?_of_attribute? hb
  refine ⟨fun heq : a.name = b.name ↦ h p hp q hq b.name (heq ▸ hpname) hqname, fun heq ↦ ?_⟩
  rw [heq, hqname] at hpname
  exact (Option.some.inj hpname).symm

theorem Property.KeptApart.events (h : KeptApart ps) : KeyedByName (·.event?) (·.name) ps := by
  intro p hp q hq e e' he he'
  obtain ⟨n, hpname, hn⟩ := exists_attributeName?_of_event? he
  obtain ⟨n', hqname, hn'⟩ := exists_attributeName?_of_event? he'
  change e.name = e'.name ↔ _
  rw [hn, hn', List.append_left_inj]
  refine ⟨fun heq ↦ h p hp q hq n' (heq ▸ hpname) hqname, fun heq ↦ ?_⟩
  rw [heq, hqname] at hpname
  exact (Option.some.inj hpname).symm

end

/-- Properties are added to an empty declaration. Its attributes are what its properties make, and what declarations
of a property left behind of which the last makes none; its change events likewise. So they are what the properties
make and nothing else if and only if a property that ever makes one still does when it is declared for the last time. -/
theorem redeclaration_leaves (start d : Declaration) (ps : List Property) (hstart : start.IsEmpty)
    (hd : d = ps.foldl Declaration.addProperty start) (hps : Property.KeptApart ps) :
    (∀ p, p ∈ d.properties ↔ last? (·.name) p.name ps = some p) ∧
    (∀ a, a ∈ d.attributes ↔
      (∃ p ∈ d.properties, p.attribute? = some a) ∨ Property.LeavesBehind (·.attribute?) ps a) ∧
    (∀ e, e ∈ d.events ↔ (∃ p ∈ d.properties, p.event? = some e) ∨ Property.LeavesBehind (·.event?) ps e) ∧
    ((∀ a, a ∈ d.attributes ↔ ∃ p ∈ d.properties, p.attribute? = some a) ↔
      ∀ p ∈ ps, ∀ q ∈ d.properties, q.name = p.name → p.attribute?.isSome → q.attribute?.isSome) ∧
    ((∀ e, e ∈ d.events ↔ ∃ p ∈ d.properties, p.event? = some e) ↔
      ∀ p ∈ ps, ∀ q ∈ d.properties, q.name = p.name → p.event?.isSome → q.event?.isSome) := by
  have hproperties := Declaration.mem_properties_iff hstart hd
  have hattributes := Declaration.mem_made_iff hstart hd Declaration.attributes_addProperty hstart.attributes
    hps.attributes
  have hevents := Declaration.mem_made_iff hstart hd Declaration.events_addProperty hstart.events hps.events
  exact ⟨hproperties, hattributes, hevents, Property.made_only_iff hproperties hattributes hps.attributes,
    Property.made_only_iff hproperties hevents hps.events⟩

def hiddenLater : List Property := [{ name := "p", notify := true }, { name := "p", privacy := "private" }]

theorem keptApart_hiddenLater : Property.KeptApart hiddenLater := by
  have hname (p : Property) (hp : p ∈ hiddenLater) : p.name = "p" := by
    rcases List.mem_pair.1 hp with rfl | rfl <;> rfl
  intro p hp q hq _ _ _
  rw [hname p hp, hname q hq]

theorem hidden_left_behind : Declaration.IsEmpty { role := .behavior } ∧ Property.KeptApart hiddenLater ∧
    (∃ a, Property.LeavesBehind (·.attribute?) hiddenLater a) ∧ ∃ e, Property.LeavesBehind (·.event?) hiddenLater e := by
  obtain ⟨hproperties, hattributes, hevents, -, -⟩ :=
    redeclaration_leaves { role := .behavior } _ hiddenLater ⟨rfl, rfl, rfl⟩ rfl keptApart_hiddenLater
  refine ⟨⟨rfl, rfl, rfl⟩, keptApart_hiddenLater, ?_, ?_⟩
  · refine ⟨_, ((hattributes _).1 List.mem_cons_self).resolve_left ?_⟩
    rintro ⟨p, hp, ha⟩
    cases List.mem_singleton.1 hp
    cases ha
  · refine ⟨_, ((hevents _).1 List.mem_cons_self).resolve_left ?_⟩
    rintro ⟨p, hp, he⟩
    cases List.mem_singleton.1 hp
    cases he

/-- The attribute and the change event of a public property stay when it is redeclared as a private one. -/
theorem hidden_attribute_stays : ¬∀ (start d : Declaration) (ps : List Property), start.IsEmpty →
    d = ps.foldl Declaration.addProperty start → Property.KeptApart ps →
    (∀ a, a ∈ d.attributes ↔ ∃ p ∈ d.properties, p.attribute? = some a) ∧
      ∀ e, e ∈ d.events ↔ ∃ p ∈ d.properties, p.event? = some e := by
  intro h
  have hclaim := h { role := .behavior } _ hiddenLater ⟨rfl, rfl, rfl⟩ rfl keptApart_hiddenLater
  obtain ⟨p, hp, ha⟩ := (hclaim.1 _).1 List.mem_cons_self
  cases List.mem_singleton.1 hp
  cases ha

end PolymerAnalysis
