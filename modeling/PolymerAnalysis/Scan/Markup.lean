import PolymerAnalysis.Html.Reference
import PolymerAnalysis.Scan.Context
import PolymerAnalysis.Text.Case

namespace PolymerAnalysis.Scan.Markup

def tagName (tag : Node) : Text :=
  match tag.namedChildren.find? (·.kind = "tag_name") with
  | some n => n.text.lower
  | none => []

/-- The name and the raw value that the parts of an attribute give it; the last ones count. -/
def attributeParts (n : Node) : Option Text × Text :=
  n.namedChildren.foldl (fun a part ↦
    if part.kind = "attribute_name" then (some part.text.lower, a.2)
    else if part.kind = "attribute_value" then (a.1, part.text)
    else if part.kind = "quoted_attribute_value" then
      (a.1, ((part.namedChildren.find? (·.kind = "attribute_value")).map (·.text)).getD [])
    else a) (none, [])

def addAttribute (found : List (Text × Text)) (n : Node) : Except Failure (List (Text × Text)) :=
  match attributeParts n with
  | (none, _) => .ok found
  | (some name, raw) =>
    if (found.lookup name).isSome then .ok found
    else do
      let value ← (Html.unescape raw).mapError .reference
      pure (found ++ [(name, value)])

def attributes (tag : Node) : Except Failure (List (Text × Text)) :=
  (tag.namedChildren.filter (·.kind = "attribute")).foldlM addAttribute []

def valueOf (name : Text) (as : List (Text × Text)) : Text := (as.lookup name).getD []

def target? (name : Text) (as : List (Text × Text)) : Option (Text × Text) :=
  if name = "link" && (valueOf "rel" as).lower.words.contains "import" then
    (as.lookup (.ofString "href")).map fun href ↦ (href, Text.ofString "html-import")
  else if name = "script" then (as.lookup (.ofString "src")).map fun src ↦ (src, Text.ofString "html-script")
  else none

def onTag (ctx : ScanContext) : Hook := fun c f ↦ do
  let as ← attributes c.node
  match (target? (tagName c.node) as).filter fun t ↦ !t.1.isEmpty with
  | none => pure f
  | some (reference, type) =>
    let url ← (Url.resolve ctx.url reference).mapError .address
    let owner := (c.parent?.map (·.node)).getD c.node
    pure (f.add (.link { type, url, range := ctx.range owner }))

def importVisitor (ctx : ScanContext) : Visitor Findings Failure :=
  .ofHooks [("start_tag", onTag ctx), ("self_closing_tag", onTag ctx)]

def scriptTypes : List Text := ["", "text/javascript", "application/javascript", "module"]

/-- Inline scripts: without a source, of a script type, and with a text of their own. -/
def onScript (ctx : ScanContext) : Hook := fun c f ↦ do
  let tag := c.node.namedChildren.find? fun n ↦ n.kind = "start_tag" || n.kind = "self_closing_tag"
  let as ← match tag with
    | some tag => attributes tag
    | none => pure []
  if as.any (·.1 = "src") || !scriptTypes.contains (valueOf "type" as).lower then pure f
  else
    match c.node.namedChildren.find? (·.kind = "raw_text") with
    | none => pure f
    | some raw =>
      match ctx.range raw with
      | none => throw .unplacedScript
      | some r =>
        let offset : Offset := ⟨r.start.line, r.start.column, some r.file⟩
        pure (f.add (.script { contents := raw.text, offset := some offset, range := ctx.range c.node }))

def scriptVisitor (ctx : ScanContext) : Visitor Findings Failure := .ofHooks [("script_element", onScript ctx)]

end PolymerAnalysis.Scan.Markup
