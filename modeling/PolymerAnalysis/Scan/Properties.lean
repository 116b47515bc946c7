import PolymerAnalysis.Scan.Context

namespace PolymerAnalysis.Scan.Properties

def typeNames : List (Text × Text) :=
  [("String", "string"), ("Number", "number"), ("Boolean", "boolean"), ("Array", "Array"),
    ("Object", "Object"), ("Date", "Date")]

def flag (value : Option Node) : Except Failure Bool := do
  let v ← lift (Node.evaluate? value)
  pure (!v.isUnevaluated && v.truthy)

def static? (value : Option Node) : Except Failure (Option Text) := do
  let v ← lift (Node.evaluate? value)
  pure v.text?

structure Options where
  property : Property
  attributeType : Option Text := none
  computed : Bool := false

def option (ctx : ScanContext) (o : Options) (pair : Node) : Except Failure Options := do
  let key ← lift pair.memberName
  let value := pair.child? "value"
  let p := o.property
  if key = some "type" then
    let type ← lift (Node.identifierName? value)
    let warnings : List Warning := if type.isNone && p.type.isNone then
        [⟨"invalid-property-type", "Invalid type in property object.", .warning, value.bind ctx.range⟩] else []
    pure { o with attributeType := type, property := { p with warnings := p.warnings ++ warnings } }
  else if key = some "notify" then
    let b ← flag value
    pure { o with property := { p with notify := b } }
  else if key = some "readOnly" then
    let b ← flag value
    pure { o with property := { p with readOnly := b } }
  else if key = some "reflectToAttribute" then
    let b ← flag value
    pure { o with property := { p with reflectToAttribute := b } }
  else if key = some "observer" then
    let t ← static? value
    pure { o with property := { p with observer := t } }
  else if key = some "computed" then
    let t ← static? value
    pure { o with property := { p with computed := t }, computed := true }
  else if key = some "value" then
    let v ← lift (Node.evaluate? value)
    pure { o with property := { p with default := some v } }
  else pure o

/-- What an entry declares before its value is looked at; a `@type` tag decides on the type. -/
def declared (ctx : ScanContext) (pair : Cursor) (name : Text) : Property :=
  let docs := docsOf pair.docComment?
  { name, docs, description := Documentation.summary? docs, privacy := privacyOf name docs
    range := ctx.range pair.node, type := (Documentation.first? docs "type").bind (·.type) }

def withType (p : Property) (attributeType : Option Text) : Property :=
  match p.type, attributeType with
  | none, some t => { p with type := some ((typeNames.lookup t).getD t) }
  | _, _ => p

/-- The property of one entry: the name of a type, or an object of options. Computed ones are read-only. -/
def property? (ctx : ScanContext) (pair : Cursor) : Except Failure (Option Property) := do
  match ← lift pair.node.memberName with
  | none => pure none
  | some name =>
    let p := declared ctx pair name
    match pair.node.child? "value" with
    | none => pure none
    | some value =>
      if value.kind = "identifier" then pure (some (withType p (some value.text)))
      else if value.kind = "object" then
        let o ← value.pairs.foldlM (option ctx) { property := p }
        let p := if o.computed then { o.property with readOnly := true } else o.property
        pure (some (withType p o.attributeType))
      else pure none

def analyze (ctx : ScanContext) (object : Node) : Except Failure (List Property) := do
  let found ← ((Cursor.root object).namedChildren.filter (·.node.kind = "pair")).mapM (property? ctx)
  pure (found.filterMap id)

end PolymerAnalysis.Scan.Properties
