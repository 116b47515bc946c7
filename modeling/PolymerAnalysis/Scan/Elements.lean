import PolymerAnalysis.Scan.Heritage
import PolymerAnalysis.Scan.Members

namespace PolymerAnalysis.Scan.Elements

def isFactory (callee : Text) : Bool := callee = "Polymer" || callee = "Polymer.Class"

def isDefinition (callee : Text) : Bool :=
  callee = "customElements.define" || callee = "window.customElements.define"

def isBaseClass (name : Text) : Bool := name = "Polymer.Element" || name = "PolymerElement"

def ofFactoryCall (ctx : ScanContext) (call : Cursor) (f : Findings) : Except Failure Findings :=
  match call.node.arguments.head?.filter (·.kind = "object") with
  | none => .ok f
  | some object => do
    let docs := docsOf call.nodeDoc?
    let range := ctx.range call.node
    let name ← lift (Node.identifierName? call.declaredName?)
    let d ← Members.ofObject ctx object
      { role := .element none none, name, docs, range, description := Documentation.summary? docs }
    let events := eventsOfDocs docs range ++ eventsBelow ctx object
    pure (f.add (.declaration (events.foldl Declaration.addEvent d)))

def ofDefinition (call : Cursor) (f : Findings) : Except Failure Findings :=
  match call.node.arguments with
  | tag :: target :: _ => do
    let tag ← lift tag.evaluate
    let name ← lift target.identifierName
    match tag, name with
    | .text tag, some name => pure { f with tags := Keyed.put name tag f.tags }
    | _, _ => pure f
  | _ => .ok f

def onCall (ctx : ScanContext) : Hook := fun c f ↦ do
  match ← lift (Node.identifierName? (c.node.child? "function")) with
  | none => pure f
  | some callee =>
    if isFactory callee then ofFactoryCall ctx c f
    else if isDefinition callee then ofDefinition c f
    else pure f

/-- A class with a static `is`, a `@customElement` tag or a base class of elements at its core. -/
def isElement (classNode : Node) (docs : Option Documentation) (heritage : Heritage) : Except Failure Bool := do
  let own ← lift (classNode.staticGetter? "is")
  pure (own.isSome || Documentation.has docs "customElement" || heritage.superclass.any isBaseClass)

def ofClass (ctx : ScanContext) (c : Cursor) (target : Option Node) (f : Findings) : Except Failure Findings := do
  let docs := docsOf c.nodeDoc?
  let heritage ← Heritage.ofClass ctx c.node
  if ← isElement c.node docs heritage then
    let range := ctx.range c.node
    let name ← lift (Node.identifierName? target)
    let d : Declaration :=
      { role := .element none heritage.superclass, name, docs, range
        description := Documentation.summary? docs, warnings := heritage.warnings, behaviors := heritage.behaviors }
    let d := (d.addMixins heritage.mixins).addMixins (mixinsOfDocs docs range)
    let d ← Members.ofGetters ctx c.node d
    let events := eventsOfDocs docs range ++ eventsBelow ctx c.node
    pure (f.add (.declaration (events.foldl Declaration.addEvent d)))
  else pure f

def visitor (ctx : ScanContext) : Visitor Findings Failure :=
  .ofHooks
    [("call_expression", onCall ctx),
      ("class_declaration", fun c f ↦ ofClass ctx c (c.node.child? "name") f),
      ("class", fun c f ↦ ofClass ctx c (c.node.child? "name" <|> c.declaredName?) f)]

def withDefinedTag (tags : List (Text × Text)) (feature : ScannedFeature) : ScannedFeature :=
  match feature with
  | .declaration d =>
    match d.role, d.name.bind fun name ↦ tags.lookup name with
    | .element none superclass, some tag => .declaration { d with role := .element (some tag) superclass }
    | _, _ => feature
  | _ => feature

def finish (f : Findings) : List ScannedFeature := f.features.map (withDefinedTag f.tags)

end PolymerAnalysis.Scan.Elements
