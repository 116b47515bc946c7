import PolymerAnalysis.Scan.Properties

namespace PolymerAnalysis.Scan.Members

def invalidMember (ctx : ScanContext) (name : Text) (severity : Severity) (value : Node) : Warning :=
  { code := "invalid-" ++ name ++ "-declaration", severity, range := ctx.range value
    message := "`" ++ name ++ "` property should be an object expression" }

def setTag (d : Declaration) (tag : Text) : Declaration :=
  match d.role with
  | .element _ superclass => { d with role := .element (some tag) superclass }
  | _ => d

def addBehavior (ctx : ScanContext) (d : Declaration) (n : Node) : Except Failure Declaration := do
  match ← reference ctx n with
  | .inl r => pure { d with behaviors := d.behaviors ++ [r] }
  | .inr w => pure (d.addWarning w)

def addListener (d : Declaration) (pair : Node) : Except Failure Declaration := do
  let event ← lift pair.memberName
  let handler ← lift (Node.evaluate? (pair.child? "value"))
  match event, handler with
  | some event, .text handler => pure { d with listeners := d.listeners ++ [⟨event, handler⟩] }
  | _, _ => pure d

def apply (ctx : ScanContext) (key : Text) (value : Node) (d : Declaration) : Except Failure Declaration :=
  if key = "is" then do
    match ← lift value.evaluate with
    | .text tag => pure (setTag d tag)
    | _ => pure d
  else if key = "properties" then
    if value.kind = "object" then do
      let ps ← Properties.analyze ctx value
      pure (ps.foldl Declaration.addProperty d)
    else pure (d.addWarning (invalidMember ctx key .warning value))
  else if key = "behaviors" then
    if value.kind = "array" then value.parts.foldlM (addBehavior ctx) d else pure d
  else if key = "observers" then
    if value.kind = "array" then do
      let vs ← value.parts.mapM fun n ↦ lift n.evaluate
      pure { d with observers := d.observers ++ vs }
    else pure d
  else if key = "listeners" then
    if value.kind = "object" then value.pairs.foldlM addListener d
    else pure (d.addWarning (invalidMember ctx key .error value))
  else pure d

def applyPair (ctx : ScanContext) (d : Declaration) (pair : Node) : Except Failure Declaration := do
  let key ← lift pair.memberName
  match key, pair.child? "value" with
  | some key, some value => apply ctx key value d
  | _, _ => pure d

def ofObject (ctx : ScanContext) (object : Node) (d : Declaration) : Except Failure Declaration :=
  object.pairs.foldlM (applyPair ctx) d

def getterKeys : List Text := ["is", "properties", "observers", "listeners", "behaviors"]

def ofGetters (ctx : ScanContext) (classNode : Node) (d : Declaration) : Except Failure Declaration :=
  getterKeys.foldlM (fun d key ↦ do
    match ← lift (classNode.staticValue? key) with
    | some value => apply ctx key value d
    | none => pure d) d

end PolymerAnalysis.Scan.Members
