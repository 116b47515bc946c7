import PolymerAnalysis.Proofs.Keyed
import PolymerAnalysis.Resolution.Composition

namespace PolymerAnalysis

namespace ResolvedObserver

def repeatedIn (o : ResolvedObserver) (kept : List ResolvedObserver) : Bool :=
  !o.value.isUnevaluated && kept.any fun p ↦ !p.value.isUnevaluated && p.repeats o

/-- What is left of a list when everything that repeats an observer of `kept`, or one left before it, is
dropped. -/
def newIn (kept : List ResolvedObserver) : List ResolvedObserver → List ResolvedObserver
  | [] => []
  | o :: os => if o.repeatedIn kept then newIn kept os else o :: newIn (kept ++ [o]) os

theorem newIn_append (kept os ps : List ResolvedObserver) :
    newIn kept (os ++ ps) = newIn kept os ++ newIn (kept ++ newIn kept os) ps := by
  induction os generalizing kept with
  | nil => simp [newIn]
  | cons o os ih => by_cases h : o.repeatedIn kept <;> simp [newIn, h, ih]

end ResolvedObserver

namespace ResolvedDeclaration

def source (d : ResolvedDeclaration) : Text := (d.name.filter fun t ↦ !t.isEmpty).getD "<anonymous>"

def handedProperties (d : ResolvedDeclaration) : List ResolvedProperty := d.properties.map (·.inherit d.source)

def handedAttributes (d : ResolvedDeclaration) : List Attribute :=
  d.attributes.map fun a ↦ { a with inheritedFrom := inheritedOrigin a.inheritedFrom d.source }

def handedEvents (d : ResolvedDeclaration) : List Event :=
  d.events.map fun e ↦ { e with inheritedFrom := inheritedOrigin e.inheritedFrom d.source }

def names (d : ResolvedDeclaration) : ReferenceKind → List Text
  | .behavior => d.behaviors
  | .mixin => d.mixins

end ResolvedDeclaration

/-- What a reference contributes: the declaration it leads to, in its resolved form. -/
structure Part where
  kind : ReferenceKind
  reference : Reference
  resolved : ResolvedDeclaration

/-- The names that a part adds to those of a kind: what it was composed of itself, and its own. -/
def Part.names (p : Part) (kind : ReferenceKind) : List Text :=
  if p.kind = kind then p.resolved.names kind ++ [p.reference.name] else []

def Composition.ofParts (parts : List Part) (warnings : List Warning) : Composition where
  properties := Keyed.lastOfEach (·.name) (parts.flatMap (·.resolved.handedProperties))
  attributes := Keyed.lastOfEach (·.name) (parts.flatMap (·.resolved.handedAttributes))
  events := Keyed.lastOfEach (·.name) (parts.flatMap (·.resolved.handedEvents))
  listeners := Keyed.lastOfEach (·.event) (parts.flatMap (·.resolved.listeners))
  observers := ResolvedObserver.newIn [] (parts.flatMap (·.resolved.observers))
  behaviors := (parts.flatMap (·.names .behavior)).eraseDups
  mixins := (parts.flatMap (·.names .mixin)).eraseDups
  warnings := warnings

/-- Declaration `f`, which is `d`, with all its parts: their items and then its own, of which the last one with
a key stays, at its own place; every observer once; and the names of everything composed in. `refused` holds
the warnings about references that contribute nothing. -/
def Declaration.flattened (d : Declaration) (f : FeatureId) (parts : List Part) (refused : List Warning) :
    ResolvedDeclaration where
  role := d.role
  range := d.range
  warnings := d.warnings ++ refused ++ d.properties.flatMap (·.warnings)
  description := d.description
  docs := d.docs
  name := d.name
  properties := Keyed.lastOfEach (·.name) (parts.flatMap (·.resolved.handedProperties) ++
    d.properties.map fun p ↦ { p with inheritedFrom := none })
  attributes := Keyed.lastOfEach (·.name) (parts.flatMap (·.resolved.handedAttributes) ++ d.attributes)
  observers := ResolvedObserver.newIn [] (parts.flatMap (·.resolved.observers) ++ d.ownObservers f)
  listeners := Keyed.lastOfEach (·.event) (parts.flatMap (·.resolved.listeners) ++ d.listeners)
  events := Keyed.lastOfEach (·.name) (parts.flatMap (·.resolved.handedEvents) ++ d.events)
  behaviors := (parts.flatMap (·.names .behavior)).eraseDups
  mixins := (parts.flatMap (·.names .mixin)).eraseDups
  abstract := d.abstract
  privacy := d.privacy

namespace Composition

variable {σ ε : Type}

/-- Adding items one by one changes the field they belong to and nothing else. -/
theorem foldl_field (get : Composition → σ) (set : Composition → σ → Composition) (step : σ → ε → σ)
    (hset : ∀ c, set c (get c) = c) (hget : ∀ c s, get (set c s) = s)
    (hsets : ∀ c s t, set (set c s) t = set c t) (c : Composition) (items : List ε) :
    items.foldl (fun c x ↦ set c (step (get c) x)) c = set c (items.foldl step (get c)) := by
  induction items generalizing c with
  | nil => exact (hset c).symm
  | cons x xs ih => rw [List.foldl_cons, ih, hget, hsets, List.foldl_cons]

theorem foldl_addProperty (c : Composition) (ps : List ResolvedProperty) :
    ps.foldl addProperty c =
      { c with properties := ps.foldl (fun xs p ↦ Keyed.replaceLast (·.name) p xs) c.properties } :=
  foldl_field (·.properties) (fun c xs ↦ { c with properties := xs }) (fun xs p ↦ Keyed.replaceLast (·.name) p xs)
    (fun _ ↦ rfl) (fun _ _ ↦ rfl) (fun _ _ _ ↦ rfl) c ps

theorem foldl_addAttribute (c : Composition) (as : List Attribute) :
    as.foldl addAttribute c =
      { c with attributes := as.foldl (fun xs a ↦ Keyed.replaceLast (·.name) a xs) c.attributes } :=
  foldl_field (·.attributes) (fun c xs ↦ { c with attributes := xs }) (fun xs a ↦ Keyed.replaceLast (·.name) a xs)
    (fun _ ↦ rfl) (fun _ _ ↦ rfl) (fun _ _ _ ↦ rfl) c as

theorem foldl_addEvent (c : Composition) (es : List Event) :
    es.foldl addEvent c =
      { c with events := es.foldl (fun xs e ↦ Keyed.replaceLast (·.name) e xs) c.events } :=
  foldl_field (·.events) (fun c xs ↦ { c with events := xs }) (fun xs e ↦ Keyed.replaceLast (·.name) e xs)
    (fun _ ↦ rfl) (fun _ _ ↦ rfl) (fun _ _ _ ↦ rfl) c es

theorem foldl_addListener (c : Composition) (ls : List Listener) :
    ls.foldl addListener c =
      { c with listeners := ls.foldl (fun xs l ↦ Keyed.replaceLast (·.event) l xs) c.listeners } :=
  foldl_field (·.listeners) (fun c xs ↦ { c with listeners := xs }) (fun xs l ↦ Keyed.replaceLast (·.event) l xs)
    (fun _ ↦ rfl) (fun _ _ ↦ rfl) (fun _ _ _ ↦ rfl) c ls

theorem foldl_addObserver (c : Composition) (os : List ResolvedObserver) :
    os.foldl addObserver c = { c with observers := c.observers ++ ResolvedObserver.newIn c.observers os } := by
  induction os generalizing c with
  | nil => simp [ResolvedObserver.newIn]
  | cons o os ih =>
    rw [List.foldl_cons, ih, ResolvedObserver.newIn]
    by_cases h : o.repeatedIn c.observers
    · have hadd : c.addObserver o = c := if_pos h
      rw [hadd, if_pos h]
    · have hadd : c.addObserver o = { c with observers := c.observers ++ [o] } := if_neg h
      rw [hadd, if_neg h]
      simp

theorem ofParts_nil (ws : List Warning) : ofParts [] ws = { warnings := ws } := rfl

theorem addWarning_ofParts (parts : List Part) (ws : List Warning) (w : Warning) :
    (ofParts parts ws).addWarning w = ofParts parts (ws ++ [w]) := rfl

theorem addInherited_eq (c : Composition) (d : ResolvedDeclaration) :
    c.addInherited d =
      { c with
        properties := d.handedProperties.foldl (fun xs p ↦ Keyed.replaceLast (·.name) p xs) c.properties
        attributes := d.handedAttributes.foldl (fun xs a ↦ Keyed.replaceLast (·.name) a xs) c.attributes
        events := d.handedEvents.foldl (fun xs e ↦ Keyed.replaceLast (·.name) e xs) c.events
        listeners := d.listeners.foldl (fun xs l ↦ Keyed.replaceLast (·.event) l xs) c.listeners
        observers := c.observers ++ ResolvedObserver.newIn c.observers d.observers } := by
  simp only [addInherited, foldl_addProperty, foldl_addAttribute, foldl_addEvent, foldl_addListener,
    foldl_addObserver]
  rfl

theorem compose_ofParts (parts : List Part) (ws : List Warning) (kind : ReferenceKind) (r : Reference)
    (d : ResolvedDeclaration) :
    (ofParts parts ws).compose kind r d = ofParts (parts ++ [⟨kind, r, d⟩]) ws := by
  cases kind <;>
  simp only [compose, addInherited_eq, addNames, ofParts, Keyed.foldl_replaceLast, Keyed.foldl_addNew,
    List.flatMap_append, List.flatMap_singleton, ResolvedObserver.newIn_append, List.nil_append,
    Part.names, ResolvedDeclaration.names, if_pos, reduceCtorEq, if_false, List.append_nil]

theorem finish_addOwn_ofParts (parts : List Part) (ws : List Warning) (f : FeatureId) (d : Declaration) :
    ((ofParts parts (d.warnings ++ ws)).addOwn f d).finish d = d.flattened f parts ws := by
  simp only [addOwn, foldl_addProperty, foldl_addAttribute, foldl_addEvent, foldl_addListener,
    foldl_addObserver, finish, ofParts, Keyed.foldl_replaceLast, Declaration.flattened,
    ResolvedObserver.newIn_append, List.nil_append]

end Composition

end PolymerAnalysis
