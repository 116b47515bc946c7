import PolymerAnalysis.Scan.Binding
import PolymerAnalysis.Scan.Members

namespace PolymerAnalysis.Scan.Behaviors

/-- The name that a tag gives, or else the one that the statement declares; both inside the
`@memberof` namespace. -/
def name? (docs : Documentation) (title : Text) (target : Option Node) : Except Failure (Option Text) := do
  let name ← match ((Documentation.first? (some docs) title).bind (·.name)).filter fun t ↦ !t.isEmpty with
    | some name => pure (some name)
    | none => lift (Node.identifierName? target)
  pure (name.map fun t ↦ Documentation.qualify t (some docs))

def start (ctx : ScanContext) (role : Role) (name : Text) (docs : Documentation) (statement : Node) : Declaration :=
  { role, name := some name, docs := some docs, description := Documentation.summary? (some docs)
    privacy := privacyOf (Text.afterLast name '.') (some docs), range := ctx.range statement }

/-- A behavior is an object with members or a list of other behaviors. -/
def look (ctx : ScanContext) (b : Binding) (f : Findings) : Except Failure Findings :=
  match b.comment.filter fun t ↦ Text.includes t "@polymerBehavior" with
  | none => .ok f
  | some comment => do
    let docs := Documentation.ofComment comment
    match ← name? docs "polymerBehavior" b.name, b.value with
    | some name, some value =>
      if value.kind = "object" || value.kind = "array" then
        let d := start ctx .behavior name docs b.statement.node
        let d ← if value.kind = "object" then Members.ofObject ctx value d
          else value.parts.foldlM (Members.addBehavior ctx) d
        let events := eventsOfDocs (some docs) (ctx.range b.statement.node) ++ eventsBelow ctx value
        pure (f.add (.declaration (events.foldl Declaration.addEvent d)))
      else pure f
    | _, _ => pure f

def visitor (ctx : ScanContext) : Visitor Findings Failure := .ofHooks (Binding.hooks (look ctx))

end PolymerAnalysis.Scan.Behaviors
