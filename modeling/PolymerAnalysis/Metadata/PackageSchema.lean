import PolymerAnalysis.Metadata.Schema

namespace PolymerAnalysis.Schema

def string : Schema := [.type .string]

def anyObject : Schema := [.type .object]

def arrayOf (schema : Schema) : Schema := [.type .array, .items schema]

def count : Schema := [.type .integer, .minimum 0]

def position : Schema :=
  [.type .object, .required ["line", "column"], .property "line" count, .property "column" count]

def range : Schema :=
  [.type .object, .required ["start", "end"], .property "file" string, .property "start" position,
    .property "end" position]

def privacy : Schema := [.oneOf ["public", "protected", "private"]]

def member : Schema :=
  [.type .object, .required ["name", "type", "description"], .property "name" string, .property "type" string,
    .property "description" string, .property "privacy" privacy, .property "defaultValue" string,
    .property "inheritedFrom" string, .property "sourceRange" range, .property "metadata" anyObject]

def attributeEntry : Schema :=
  [.type .object, .required ["name", "description"], .property "name" string,
    .property "description" string, .property "type" string, .property "inheritedFrom" string,
    .property "sourceRange" range, .property "metadata" anyObject]

def event : Schema :=
  [.type .object, .required ["name", "type", "description"], .property "name" string, .property "type" string,
    .property "description" string, .property "inheritedFrom" string, .property "metadata" anyObject]

def mixin : Schema :=
  [.type .object,
    .required ["description", "summary", "path", "properties", "attributes", "events", "privacy"],
    .property "name" string, .property "description" string, .property "summary" string,
    .property "path" string, .property "properties" (arrayOf member),
    .property "attributes" (arrayOf attributeEntry), .property "events" (arrayOf event),
    .property "privacy" privacy, .property "sourceRange" range, .property "mixins" (arrayOf string),
    .property "behaviors" (arrayOf string), .property "metadata" anyObject]

def element : Schema :=
  mixin ++ [.type .object, .property "tagname" string, .property "superclass" string]

def space : Schema :=
  [.type .object, .required ["name", "description", "summary"], .property "name" string,
    .property "description" string, .property "summary" string, .property "sourceRange" range]

def polymer : Schema := [.type .object, .property "behaviors" (arrayOf mixin)]

def package : Schema :=
  [.type .object, .required ["schema_version"], .property "schema_version" string,
    .property "elements" (arrayOf element), .property "mixins" (arrayOf mixin),
    .property "namespaces" (arrayOf space),
    .property "metadata" [.type .object, .property "polymer" polymer]]

end PolymerAnalysis.Schema
