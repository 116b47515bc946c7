import PolymerAnalysis.Metadata.PackageSchema
import PolymerAnalysis.Version.Reader

namespace PolymerAnalysis.Metadata

def schemaVersion : Text := "1.0.0"

inductive Invalid where
  /-- The schema is violated. -/
  | violations (vs : List Violation)
  /-- The version is too new for the known one, or it is no plain version. -/
  | version (known given : Text)
  /-- One of the two versions cannot be read. -/
  | unreadable (e : Version.ReadError)
deriving DecidableEq

def Invalid.message : Invalid → Text
  | .violations vs =>
    "Unable to validate serialized Polymer analysis. Got " ++ Text.Numeral.ofNat vs.length ++ " error(s):\n" ++
      Text.join "\n" (vs.map fun v ↦ "  " ++ v.toText)
  | .version known given =>
    "Invalid schema_version in AnalyzedPackage. Expected something compatible with v" ++ known ++
      " but got: " ++ given
  | .unreadable .malformed => []
  | .unreadable (.limit e) => e.message

/-- The version of a schema is three numbers and nothing else, in their shortest form. -/
def schemaVersion? (t : Text) : Except Version.ReadError (Option Version) :=
  match Version.read t with
  | .ok v => .ok (if v.release.length = 3 && v.isPlain && v.releaseText = t then some v else none)
  | .error .malformed => .ok none
  | .error e => .error e

/-- Accepts a version that is not newer than the known one, whatever the last number. -/
def checkVersion (known given : Text) : Except Invalid Unit := do
  let newest ← (Version.read known).mapError .unreadable
  match ← (schemaVersion? given).mapError .unreadable with
  | some v => if v.le newest then pure () else throw (.version known given)
  | none => throw (.version known given)

def validate (known : Text) (package : Json) : Except Invalid Unit :=
  match Schema.package.check package with
  | [] =>
    match package.get? "schema_version" with
    | some (.string given) => checkVersion known given
    | _ => .ok ()
  | vs => .error (.violations vs)

end PolymerAnalysis.Metadata
