import PolymerAnalysis.Feature.Basic
import PolymerAnalysis.Metadata.Validation
import PolymerAnalysis.Url.Path
import PolymerAnalysis.Value.Written

namespace PolymerAnalysis.Metadata

def externalDirectories : List Text := ["bower_components", "node_modules"]

/-- Whether a file lies in a package, and not in another package inside it. The package with the empty path
holds all files. -/
def inPackage (package file : Text) : Bool :=
  let path := Path.normalize file
  let top : Text := if package.isEmpty then [] else Path.normalize package ++ "/"
  Text.startsWith path top &&
    ((Text.splitOn (path.drop top.length) '/').dropLast.all fun segment ↦
      !Text.isAmong segment externalDirectories)

def relativePath (package file : Text) : Text :=
  if package.isEmpty then Path.normalize file
  else Path.relativeTo (Path.normalize package) (Path.normalize file)

def entry (key : Text) (value : Json) : List (Text × Json) := [(key, value)]

def optionalEntry (key : Text) (value : Option Json) : List (Text × Json) := (value.map (key, ·)).toList

def text (t : Option Text) : Json := .string (t.getD [])

def position (p : Position) : Json := .object (entry "line" (.int p.line) ++ entry "column" (.int p.column))

def range (package : Text) (r : SourceRange) : Json :=
  .object (entry "file" (.string (relativePath package r.file)) ++ entry "start" (position r.start) ++
    entry "end" (position r.stop))

def polymerEntries (p : ResolvedProperty) : List (Text × Json) :=
  (if p.notify then entry "notify" (.bool true) else []) ++
    optionalEntry "observer" (p.observer.map .string) ++
    if p.readOnly then entry "readOnly" (.bool true) else []

/-- The entry of a property. Without a type it has the type `?`. -/
def property (package : Text) (p : ResolvedProperty) : Except Value.WriteError Json := do
  let default ← p.default.mapM Value.written
  pure (.object (entry "name" (.string p.name) ++
    entry "type" (.string ((p.type.filter fun t ↦ !t.isEmpty).getD "?")) ++
    entry "description" (text p.description) ++ entry "privacy" (.string p.privacy) ++
    entry "metadata" (.object (entry "polymer" (.object (polymerEntries p)))) ++
    optionalEntry "sourceRange" (p.range.map (range package)) ++ optionalEntry "defaultValue" (default.map .string) ++
    optionalEntry "inheritedFrom" (p.inheritedFrom.map .string)))

def attributeEntry (package : Text) (a : Attribute) : Json :=
  .object (entry "name" (.string a.name) ++ entry "description" (text a.description) ++
    entry "metadata" (.object []) ++ optionalEntry "type" (a.type.map .string) ++
    optionalEntry "sourceRange" (a.range.map (range package)) ++
    optionalEntry "inheritedFrom" (a.inheritedFrom.map .string))

def event (e : Event) : Json :=
  .object (entry "type" (.string "CustomEvent") ++ entry "name" (.string e.name) ++
    entry "description" (text e.description) ++ entry "metadata" (.object []) ++
    optionalEntry "inheritedFrom" (e.inheritedFrom.map .string))

def names (key : Text) (ts : List Text) : List (Text × Json) :=
  if ts.isEmpty then [] else entry key (.array (ts.map .string))

def roleEntries : Role → List (Text × Json)
  | .element tagName superclass =>
    optionalEntry "tagname" (tagName.map .string) ++ optionalEntry "superclass" (superclass.map .string)
  | _ => []

def declaration (package : Text) (d : ResolvedDeclaration) : Except Value.WriteError Json := do
  let properties ← d.properties.mapM (property package)
  pure (.object (entry "description" (text d.description) ++
    entry "summary" (text ((Documentation.first? d.docs "summary").bind (·.description))) ++
    entry "path" (.string (relativePath package ((d.range.map (·.file)).getD []))) ++
    entry "properties" (.array properties) ++
    entry "attributes" (.array (d.attributes.map (attributeEntry package))) ++
    entry "events" (.array (d.events.map event)) ++ entry "privacy" (.string d.privacy) ++
    entry "metadata" (.object []) ++ optionalEntry "name" (d.name.map .string) ++
    optionalEntry "sourceRange" (d.range.map (range package)) ++ names "mixins" d.mixins ++
    names "behaviors" d.behaviors ++ roleEntries d.role))

def space (package : Text) (n : NamespaceFeature) : Json :=
  .object (entry "name" (.string n.name) ++ entry "description" (text n.description) ++
    entry "summary" (text n.summary) ++ optionalEntry "sourceRange" (n.range.map (range package)))

inductive Section where
  | elements
  | mixins
  | namespaces
  | behaviors
deriving DecidableEq

def Section.ofRole? : Role → Option Section
  | .element .. => some .elements
  | .mixin => some .mixins
  | .behavior => some .behaviors
  | .bare => none

/-- The entry of a feature and the section it belongs to; imports and bare declarations have none. -/
def sectioned (package : Text) : Feature → Except Value.WriteError (Option (Section × Json))
  | .declaration d =>
    match Section.ofRole? d.role with
    | some s => (declaration package d).map fun j ↦ some (s, j)
    | none => .ok none
  | .space n => .ok (some (.namespaces, space package n))
  | .link _ => .ok none

def entriesOf (s : Section) (entries : List (Section × Json)) : List Json :=
  (entries.filter (·.1 = s)).map (·.2)

def listing (key : Text) (items : List Json) : List (Text × Json) :=
  if items.isEmpty then [] else entry key (.array items)

def assemble (version : Text) (entries : List (Section × Json)) : Json :=
  let behaviors := entriesOf .behaviors entries
  .object (entry "schema_version" (.string version) ++ listing "elements" (entriesOf .elements entries) ++
    listing "mixins" (entriesOf .mixins entries) ++ listing "namespaces" (entriesOf .namespaces entries) ++
    if behaviors.isEmpty then []
    else entry "metadata" (.object (entry "polymer" (.object (listing "behaviors" behaviors)))))

def isPlaced (package : Text) (f : Feature) : Bool := f.range.any fun r ↦ inPackage package r.file

def generate (package version : Text) (features : List Feature) : Except Value.WriteError Json := do
  let entries ← (features.filter (isPlaced package)).mapM (sectioned package)
  pure (assemble version (entries.filterMap id))

end PolymerAnalysis.Metadata
