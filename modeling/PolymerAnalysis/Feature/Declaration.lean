import PolymerAnalysis.Feature.AttributeName
import PolymerAnalysis.Feature.Member
import PolymerAnalysis.Keyed

namespace PolymerAnalysis

inductive Role where
  | behavior
  | mixin
  | element (tagName superclass : Option Text)
  | bare
deriving DecidableEq

structure Declaration where
  role : Role
  range : Option SourceRange := none
  warnings : List Warning := []
  description : Option Text := none
  docs : Option Documentation := none
  name : Option Text := none
  properties : List Property := []
  attributes : List Attribute := []
  observers : List Value := []
  listeners : List Listener := []
  events : List Event := []
  behaviors : List Reference := []
  mixins : List Reference := []
  abstract : Bool := false
  privacy : Text := "public"

/-- A declaration with everything composed in; `behaviors` and `mixins` name what was. -/
structure ResolvedDeclaration where
  role : Role
  range : Option SourceRange
  warnings : List Warning
  description : Option Text
  docs : Option Documentation
  name : Option Text
  properties : List ResolvedProperty
  attributes : List Attribute
  observers : List ResolvedObserver
  listeners : List Listener
  events : List Event
  behaviors : List Text
  mixins : List Text
  abstract : Bool
  privacy : Text

def ResolvedDeclaration.property? (d : ResolvedDeclaration) (name : Text) : Option ResolvedProperty :=
  d.properties.find? (·.name = name)

def Role.identifiers (role : Role) (name : Option Text) : List Text :=
  let names := match role with
    | .element tag _ => name.toList ++ tag.toList
    | _ => name.toList
  (names.filter fun t ↦ !t.isEmpty).eraseDups

def Role.kinds : Role → List Text
  | .behavior => ["behavior", "polymer-behavior"]
  | .mixin => ["element-mixin", "polymer-element-mixin"]
  | .element .. => ["element", "polymer-element"]
  | .bare => []

/-- The attribute that a property makes, unless it is not public, not published or has no attribute name. -/
def Property.attribute? (p : Property) : Option Attribute :=
  if p.privacy = "public" && p.published then
    (attributeName? p.name).map fun name ↦
      { name, description := p.description, type := p.type, range := p.range, inheritedFrom := none
        changeEvent := if p.notify then some (name ++ "-changed") else none }
  else none

def Property.changeEvent? (p : Property) (a : Attribute) : Option Event :=
  a.changeEvent.map fun name ↦
    { name, range := p.range, inheritedFrom := none
      description := some ("Fired when the `" ++ p.name ++ "` property changes.") }

namespace Declaration

def addEvent (d : Declaration) (e : Event) : Declaration :=
  { d with events := Keyed.upsert (·.name) e d.events }

def addAttribute (d : Declaration) (a : Attribute) : Declaration :=
  { d with attributes := Keyed.upsert (·.name) a d.attributes }

def addProperty (d : Declaration) (p : Property) : Declaration :=
  let d := { d with properties := Keyed.upsert (·.name) p d.properties }
  match p.attribute? with
  | none => d
  | some a =>
    match p.changeEvent? a with
    | none => d.addAttribute a
    | some e => (d.addAttribute a).addEvent e

def addMixin (d : Declaration) (r : Reference) : Declaration :=
  if d.mixins.any (·.name = r.name) then d else { d with mixins := d.mixins ++ [r] }

def addMixins (d : Declaration) (rs : List Reference) : Declaration := rs.foldl addMixin d

def addWarning (d : Declaration) (w : Warning) : Declaration := { d with warnings := d.warnings ++ [w] }

end Declaration

end PolymerAnalysis
