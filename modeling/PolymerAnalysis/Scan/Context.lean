import PolymerAnalysis.Documentation.Reader
import PolymerAnalysis.Failure
import PolymerAnalysis.Feature.Basic
import PolymerAnalysis.Scan.Barrier
import PolymerAnalysis.Syntax.Comment
import PolymerAnalysis.Syntax.Definition

namespace PolymerAnalysis

structure ScanContext where
  url : Text
  range : Node → Option SourceRange

structure Findings where
  features : List ScannedFeature := []
  tags : List (Text × Text) := []

namespace Findings

def add (f : Findings) (feature : ScannedFeature) : Findings := { f with features := f.features ++ [feature] }

end Findings

abbrev Hook := Cursor → Findings → Except Failure Findings

/-- A visitor that looks at nodes as it enters them and never skips anything. -/
def Visitor.ofHooks (hooks : List (String × Hook)) : Visitor Findings Failure where
  start := {}
  enter kind := (hooks.lookup kind).map fun hook place f ↦ (hook place f).map fun g ↦ (g, .proceed)
  leave _ := none

namespace Scan

def lift {α : Type} (x : Except EvalError α) : Except Failure α := x.mapError .evaluation

def docsOf (comment : Option Text) : Option Documentation := comment.map .ofComment

def reference (ctx : ScanContext) (n : Node) : Except Failure (Reference ⊕ Warning) := do
  match ← lift n.identifierName with
  | some name => pure (.inl ⟨name, ctx.range n⟩)
  | none => pure (.inr
    { code := "could-not-determine-behavior-name", severity := .warning, range := ctx.range n
      message := "Could not determine behavior name from expression of type " ++ Text.ofString n.kind })

def eventsOfDocs (docs : Option Documentation) (range : Option SourceRange) : List Event :=
  (Documentation.tagged docs "event").filterMap fun tag ↦
    (tag.name.filter fun t ↦ !t.isEmpty).map fun name ↦ ⟨name, tag.description, range, none⟩

def eventsBelow (ctx : ScanContext) (n : Node) : List Event :=
  (n.preorder.filter (·.isComment)).flatMap fun c ↦
    if Text.startsWith c.text "/**" && Text.includes c.text "@event" then
      let docs := Documentation.ofComment c.text
      (eventsOfDocs (some docs) (ctx.range c)).map fun e ↦
        { e with description := e.description <|> Documentation.summary? (some docs) }
    else []

def mixinsOfDocs (docs : Option Documentation) (range : Option SourceRange) : List Reference :=
  (Documentation.tagged docs "appliesMixin").filterMap fun tag ↦
    (tag.name.filter fun t ↦ !t.isEmpty).map fun name ↦ ⟨name, range⟩

end Scan

end PolymerAnalysis
