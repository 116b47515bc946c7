import PolymerAnalysis.Feature.Declaration

namespace PolymerAnalysis

inductive ReferenceKind where
  | behavior
  | mixin
deriving DecidableEq

def ReferenceKind.featureKind : ReferenceKind → Text
  | .behavior => "behavior"
  | .mixin => "element-mixin"

def Declaration.references (d : Declaration) : List (ReferenceKind × Reference) :=
  d.behaviors.map (ReferenceKind.behavior, ·) ++ d.mixins.map (ReferenceKind.mixin, ·)

namespace Reference

def unknownWarning (r : Reference) : ReferenceKind → Warning
  | .behavior =>
    { code := "unknown-polymer-behavior", severity := .warning, range := r.range
      message := "Unable to resolve behavior `" ++ r.name ++
        "`. Did you import it? Is it annotated with @polymerBehavior?" }
  | .mixin =>
    { code := "unknown-mixin", severity := .warning, range := r.range
      message := "Unable to resolve mixin `" ++ r.name ++
        "`. Did you import it? Is it annotated with @mixinFunction?" }

def cyclicWarning (r : Reference) (kind : ReferenceKind) : Warning where
  code := match kind with
    | .behavior => "cyclic-behavior-reference"
    | .mixin => "cyclic-mixin-reference"
  message := "Reference to `" ++ r.name ++ "` creates a cycle and was ignored."
  severity := .warning
  range := r.range

end Reference

namespace ResolvedProperty

/-- The property as `source` hands it down; one that `source` inherited keeps its origin. -/
def inherit (p : ResolvedProperty) (source : Text) : ResolvedProperty :=
  { p with inheritedFrom := p.inheritedFrom <|> some source }

end ResolvedProperty

namespace ResolvedObserver

/-- Whether an observer is there again: with the same value, or as the very same list or dictionary. Only that
one is the same although it holds a NaN, which differs from every number and so from itself. -/
def repeats (o p : ResolvedObserver) : Bool :=
  o.value.same p.value || (o.value.isContainer && o.writer = p.writer && o.place = p.place)

end ResolvedObserver

def Declaration.ownObservers (d : Declaration) (f : FeatureId) : List ResolvedObserver :=
  d.observers.zipIdx.map fun x ↦ ⟨x.1, f, x.2⟩

/-- The origin of an item that `source` hands down, where the empty name counts as none. -/
def inheritedOrigin (origin : Option Text) (source : Text) : Option Text :=
  (origin.filter fun t ↦ !t.isEmpty) <|> some source

/-- What a declaration consists of so far: items by their keys, of which a later one replaces an earlier one
and comes last. -/
structure Composition where
  properties : List ResolvedProperty := []
  attributes : List Attribute := []
  events : List Event := []
  listeners : List Listener := []
  observers : List ResolvedObserver := []
  behaviors : List Text := []
  mixins : List Text := []
  warnings : List Warning := []

namespace Composition

def addProperty (c : Composition) (p : ResolvedProperty) : Composition :=
  { c with properties := Keyed.replaceLast (·.name) p c.properties }

def addAttribute (c : Composition) (a : Attribute) : Composition :=
  { c with attributes := Keyed.replaceLast (·.name) a c.attributes }

def addEvent (c : Composition) (e : Event) : Composition :=
  { c with events := Keyed.replaceLast (·.name) e c.events }

def addListener (c : Composition) (l : Listener) : Composition :=
  { c with listeners := Keyed.replaceLast (·.event) l c.listeners }

def addObserver (c : Composition) (o : ResolvedObserver) : Composition :=
  if !o.value.isUnevaluated && c.observers.any (fun p ↦ !p.value.isUnevaluated && p.repeats o) then c
  else { c with observers := c.observers ++ [o] }

def addWarning (c : Composition) (w : Warning) : Composition := { c with warnings := c.warnings ++ [w] }

def addInherited (c : Composition) (d : ResolvedDeclaration) : Composition :=
  let source := (d.name.filter fun t ↦ !t.isEmpty).getD "<anonymous>"
  let c := (d.properties.map (·.inherit source)).foldl addProperty c
  let c := (d.attributes.map fun a ↦
    { a with inheritedFrom := inheritedOrigin a.inheritedFrom source }).foldl addAttribute c
  let c := (d.events.map fun e ↦
    { e with inheritedFrom := inheritedOrigin e.inheritedFrom source }).foldl addEvent c
  let c := d.listeners.foldl addListener c
  d.observers.foldl addObserver c

def addNames (c : Composition) (kind : ReferenceKind) (r : Reference) (d : ResolvedDeclaration) : Composition :=
  let extend (inner names : List Text) : List Text :=
    (inner ++ [r.name]).foldl (fun ns n ↦ Keyed.addNew n ns) names
  match kind with
  | .behavior => { c with behaviors := extend d.behaviors c.behaviors }
  | .mixin => { c with mixins := extend d.mixins c.mixins }

def compose (c : Composition) (kind : ReferenceKind) (r : Reference) (d : ResolvedDeclaration) : Composition :=
  (c.addInherited d).addNames kind r d

def addOwn (c : Composition) (f : FeatureId) (d : Declaration) : Composition :=
  let c := (d.properties.map fun p ↦ { p with inheritedFrom := none }).foldl addProperty c
  let c := d.attributes.foldl addAttribute c
  let c := d.events.foldl addEvent c
  let c := d.listeners.foldl addListener c
  let c := (d.ownObservers f).foldl addObserver c
  { c with warnings := c.warnings ++ d.properties.flatMap (·.warnings) }

def finish (c : Composition) (d : Declaration) : ResolvedDeclaration where
  role := d.role
  range := d.range
  warnings := c.warnings
  description := d.description
  docs := d.docs
  name := d.name
  properties := c.properties
  attributes := c.attributes
  observers := c.observers
  listeners := c.listeners
  events := c.events
  behaviors := c.behaviors
  mixins := c.mixins
  abstract := d.abstract
  privacy := d.privacy

end Composition

end PolymerAnalysis
