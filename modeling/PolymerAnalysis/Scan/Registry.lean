import PolymerAnalysis.Scan.Behaviors
import PolymerAnalysis.Scan.Elements
import PolymerAnalysis.Scan.Markup
import PolymerAnalysis.Scan.Mixins
import PolymerAnalysis.Scan.Namespaces
import PolymerAnalysis.Source.Document

namespace PolymerAnalysis

inductive ScannerKind where
  | namespaces
  | behaviors
  | elements
  | mixins
  | imports
  | scripts
deriving DecidableEq

namespace ScannerKind

def all : List ScannerKind := [.namespaces, .behaviors, .elements, .mixins, .imports, .scripts]

def name : ScannerKind → Text
  | .namespaces => "namespaces"
  | .behaviors => "behaviors"
  | .elements => "polymer-elements"
  | .mixins => "mixins"
  | .imports => "html-imports"
  | .scripts => "html-scripts"

def description : ScannerKind → Text
  | .namespaces => "@namespace declarations and assignments"
  | .behaviors => "@polymerBehavior objects and behavior lists"
  | .elements => "legacy Polymer() calls and class-based Polymer elements"
  | .mixins => "@mixinFunction element mixins"
  | .imports => "<link rel=import> and <script src> imports"
  | .scripts => "inline <script> blocks"

def language : ScannerKind → Language
  | .imports => .markup
  | .scripts => .markup
  | _ => .script

def label (k : ScannerKind) : Text :=
  let title : Text := match k with
    | .namespaces => "NamespaceScanner"
    | .behaviors => "BehaviorScanner"
    | .elements => "PolymerElementScanner"
    | .mixins => "MixinScanner"
    | .imports => "HtmlImportScanner"
    | .scripts => "HtmlScriptScanner"
  "<" ++ title ++ " '" ++ k.name ++ "'>"

def ofName? (name : Text) : Option ScannerKind := all.find? (·.name = name)

def visitor (k : ScannerKind) (ctx : ScanContext) : Visitor Findings Failure :=
  match k with
  | .namespaces => Scan.Namespaces.visitor ctx
  | .behaviors => Scan.Behaviors.visitor ctx
  | .elements => Scan.Elements.visitor ctx
  | .mixins => Scan.Mixins.visitor ctx
  | .imports => Scan.Markup.importVisitor ctx
  | .scripts => Scan.Markup.scriptVisitor ctx

def finish (k : ScannerKind) (f : Findings) : List ScannedFeature :=
  match k with
  | .elements => Scan.Elements.finish f
  | _ => f.features

def scanner (k : ScannerKind) (ctx : ScanContext) : Scanner Findings Failure ScannedFeature where
  steps := [.visit (k.visitor ctx)]
  late := .lateVisitor k.label ctx.url
  finish f := (f.map k.finish).getD []

end ScannerKind

def scanTree (kinds : List ScannerKind) (ctx : ScanContext) (root : Node) : Except Failure (List ScannedFeature) :=
  scan (kinds.map (·.scanner ctx)) root

def ParsedDocument.context (d : ParsedDocument) : ScanContext := ⟨d.url, fun n ↦ some (d.range n)⟩

def ParsedDocument.scan (d : ParsedDocument) (kinds : List ScannerKind) : Except Failure (List ScannedFeature) :=
  scanTree kinds d.context d.root

structure Registry where
  scanners : List ScannerKind := []
  disabled : List Text := []

namespace Registry

def standard : Registry := { scanners := ScannerKind.all }

/-- A scanner that is there already keeps its place. -/
def register (r : Registry) (k : ScannerKind) : Registry := { r with scanners := Keyed.addNew k r.scanners }

def unregister (r : Registry) (name : Text) : Registry :=
  { r with scanners := r.scanners.filter (·.name ≠ name) }

def disable (r : Registry) (name : Text) : Registry := { r with disabled := Keyed.addNew name r.disabled }

def enable (r : Registry) (name : Text) : Registry := { r with disabled := r.disabled.filter (· ≠ name) }

def enabled (r : Registry) : List ScannerKind := r.scanners.filter fun k ↦ !Text.isAmong k.name r.disabled

def forLanguage (r : Registry) (language : Language) : List ScannerKind :=
  r.enabled.filter (·.language = language)

def names (r : Registry) : List Text := Text.sort (r.scanners.map (·.name))

def find? (r : Registry) (name : Text) : Option ScannerKind := r.scanners.find? (·.name = name)

end Registry

end PolymerAnalysis
