import PolymerAnalysis.Config.Basic
import PolymerAnalysis.Scan.Registry

namespace PolymerAnalysis

/-- Whether a value counts as true: `null`, zero and everything empty do not. -/
def Json.truthy : Json → Bool
  | .null => false
  | .bool b => b
  | .int n => n ≠ 0
  | .float x => !x.isZero
  | .string t => !t.isEmpty
  | .array xs => !xs.isEmpty
  | .object es => !es.isEmpty

/-- Settings of an analysis that were found valid. Imports are followed up to `depthLimit` links away. -/
structure Settings where
  followImports : Bool
  scanInlineScripts : Bool
  scanners : List ScannerKind
  knownVersion : Text
  depthLimit : Option Nat

namespace Settings

def followsAt (s : Settings) (depth : Nat) : Bool := s.followImports && s.depthLimit.all (depth < ·)

def scannersFor (s : Settings) (language : Language) : List ScannerKind :=
  s.scanners.filter (·.language = language)

end Settings

namespace Config

/-- The least integer that is not below the limit; one that is no finite number limits nothing. -/
def depthLimit (depth : Json) : Option Nat :=
  match depth with
  | .bool b => some (if b then 1 else 0)
  | .int n => some n.toNat
  | .float x => x.ceil?.map (·.toNat)
  | _ => none

def settings (c : Config) (registry : Registry) : Except Fault Settings := do
  match ← c.problems with
  | [] =>
    let flags ← registry.enabled.mapM fun k ↦ (c.isEnabled k.name).map (k, ·)
    pure
      { followImports := c.followImports.truthy
        scanInlineScripts := c.scanInlineScripts.truthy
        scanners := (flags.filter (·.2)).map (·.1)
        knownVersion := match c.knownSchemaVersion with
          | .string t => t
          | _ => []
        depthLimit := depthLimit c.maxImportDepth }
  | messages => throw (.problems messages)

end Config

end PolymerAnalysis
