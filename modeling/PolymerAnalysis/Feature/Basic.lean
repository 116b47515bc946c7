import PolymerAnalysis.Feature.Declaration

namespace PolymerAnalysis

structure NamespaceFeature where
  range : Option SourceRange := none
  warnings : List Warning := []
  description : Option Text := none
  docs : Option Documentation := none
  name : Text := []
  summary : Option Text := none

structure ImportFeature where
  range : Option SourceRange := none
  warnings : List Warning := []
  description : Option Text := none
  docs : Option Documentation := none
  type : Text := "html-import"
  url : Text := []

structure InlineScript where
  range : Option SourceRange := none
  warnings : List Warning := []
  description : Option Text := none
  docs : Option Documentation := none
  type : Text := "js"
  contents : Text := []
  offset : Option Offset := none

inductive ScannedFeature where
  | space (n : NamespaceFeature)
  | declaration (d : Declaration)
  | link (i : ImportFeature)
  | script (s : InlineScript)

inductive Feature where
  | space (n : NamespaceFeature)
  | declaration (d : ResolvedDeclaration)
  | link (i : ImportFeature)

namespace ScannedFeature

def kinds : ScannedFeature → List Text
  | .space _ => ["namespace"]
  | .declaration d => d.role.kinds
  | .link _ => ["import"]
  | .script _ => []

def identifiers : ScannedFeature → List Text
  | .space n => [n.name]
  | .declaration d => d.role.identifiers d.name
  | .link i => [i.url]
  | .script _ => []

def range : ScannedFeature → Option SourceRange
  | .space n => n.range
  | .declaration d => d.range
  | .link i => i.range
  | .script s => s.range

def answers (f : ScannedFeature) (kind name : Text) : Bool := Text.isAmong kind f.kinds && Text.isAmong name f.identifiers

end ScannedFeature

namespace Feature

def kinds : Feature → List Text
  | .space _ => ["namespace"]
  | .declaration d => d.role.kinds
  | .link _ => ["import"]

def identifiers : Feature → List Text
  | .space n => [n.name]
  | .declaration d => d.role.identifiers d.name
  | .link i => [i.url]

def range : Feature → Option SourceRange
  | .space n => n.range
  | .declaration d => d.range
  | .link i => i.range

def warnings : Feature → List Warning
  | .space n => n.warnings
  | .declaration d => d.warnings
  | .link i => i.warnings

end Feature

end PolymerAnalysis
