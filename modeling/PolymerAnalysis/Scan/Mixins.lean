import PolymerAnalysis.Scan.Behaviors
import PolymerAnalysis.Scan.Heritage

namespace PolymerAnalysis.Scan.Mixins

def isMixin (docs : Documentation) : Bool :=
  Documentation.has (some docs) "mixinFunction" || Documentation.has (some docs) "polymer"

/-- A mixin is a function with a class in it, and has the members of the first such class. -/
def look (ctx : ScanContext) (b : Binding) (f : Findings) : Except Failure Findings :=
  match b.comment.map Documentation.ofComment, b.value with
  | some docs, some value =>
    if !isMixin docs || value.isClass then .ok f
    else
      match (Cursor.root value).preorder.find? (·.node.isClass) with
      | none => .ok f
      | some classPlace => do
        match ← Behaviors.name? docs "mixinFunction" b.name with
        | none => pure f
        | some name =>
          let range := ctx.range b.statement.node
          let heritage ← Heritage.ofClass ctx classPlace.node
          let d := Behaviors.start ctx .mixin name docs b.statement.node
          let d := { d with warnings := heritage.warnings, behaviors := heritage.behaviors }
          let d := d.addMixins heritage.mixins
          let d := d.addMixins (mixinsOfDocs (some docs) range)
          let d := d.addMixins (mixinsOfDocs (docsOf classPlace.docComment?) range)
          let d ← Members.ofGetters ctx classPlace.node d
          let events := eventsOfDocs (some docs) range ++ eventsBelow ctx classPlace.node
          pure (f.add (.declaration (events.foldl Declaration.addEvent d)))
  | _, _ => .ok f

def visitor (ctx : ScanContext) : Visitor Findings Failure :=
  let onFunction : Hook := fun c f ↦ look ctx (Binding.ofFunction c) f
  .ofHooks (Binding.hooks (look ctx) ++ [("function_declaration", onFunction)])

end PolymerAnalysis.Scan.Mixins
