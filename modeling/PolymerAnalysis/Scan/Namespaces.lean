import PolymerAnalysis.Scan.Binding

namespace PolymerAnalysis.Scan.Namespaces

def name? (target : Node) (docs : Documentation) : Except Failure (Option Text) :=
  match ((Documentation.first? (some docs) "namespace").bind (·.name)).filter fun t ↦ !t.isEmpty with
  | some name => .ok (some name)
  | none => do
    let name ← lift target.identifierName
    pure (name.map fun t ↦ Documentation.qualify t (some docs))

/-- A namespace met again replaces the earlier one of its name in place. -/
def look (ctx : ScanContext) (b : Binding) (f : Findings) : Except Failure Findings :=
  match docsOf b.comment, b.name with
  | some docs, some target =>
    if !Documentation.has (some docs) "namespace" then .ok f
    else do
      match ← name? target docs with
      | none => pure f
      | some name =>
        match ctx.range b.statement.node with
        | none => throw (.missingRange name ctx.url)
        | some range =>
          let feature : NamespaceFeature :=
            { name, range := some range, docs := some docs, description := Documentation.summary? (some docs)
              summary := (Documentation.first? (some docs) "summary").bind (·.description) }
          pure { f with features := Keyed.upsert ScannedFeature.identifiers (.space feature) f.features }
  | _, _ => .ok f

def visitor (ctx : ScanContext) : Visitor Findings Failure := .ofHooks (Binding.hooks (look ctx))

end PolymerAnalysis.Scan.Namespaces
