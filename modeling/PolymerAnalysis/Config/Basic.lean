import PolymerAnalysis.Json.Reader
import PolymerAnalysis.Json.Shown
import PolymerAnalysis.Metadata.Validation
import PolymerAnalysis.Text.Utf8

namespace PolymerAnalysis

/-- Settings as they are given. A setting may be any JSON value until it is checked. -/
structure Config where
  followImports : Json := .bool true
  scanInlineScripts : Json := .bool true
  enabledScanners : Json := .null
  knownSchemaVersion : Json := .string Metadata.schemaVersion
  maxImportDepth : Json := .int 64

namespace Config

inductive Fault where
  | noFile
  | encoding (e : Text.Utf8.DecodeError)
  | malformed (e : Json.ReadError)
  | notObject (file : Text)
  | unknownKeys (keys : List Text)
  /-- The depth is no number, or the scanners are nothing that has members. -/
  | type
  | version (e : Text.Numeral.LimitError)
  | problems (messages : List Text)
deriving DecidableEq

def Fault.message : Fault → Text
  | .malformed (.limit e) => e.message
  | .notObject file => file ++ ": expected a JSON object"
  | .unknownKeys keys => "Unknown analyzer config key(s): " ++ Text.join ", " keys
  | .version e => e.message
  | .problems messages => "Invalid analyzer config: " ++ Text.join "; " messages
  | _ => []

def keys : List Text :=
  ["follow_imports", "scan_inline_scripts", "enabled_scanners", "known_schema_version", "max_import_depth"]

def ofEntries (entries : List (Text × Json)) : Except Fault Config :=
  match Text.sort ((entries.map (·.1)).filter fun k ↦ !Text.isAmong k keys) with
  | [] =>
    let given (key : Text) (default : Json) : Json := (entries.lookup key).getD default
    let base : Config := {}
    .ok
      { followImports := given "follow_imports" base.followImports
        scanInlineScripts := given "scan_inline_scripts" base.scanInlineScripts
        enabledScanners := given "enabled_scanners" base.enabledScanners
        knownSchemaVersion := given "known_schema_version" base.knownSchemaVersion
        maxImportDepth := given "max_import_depth" base.maxImportDepth }
  | unknown => .error (.unknownKeys unknown)

def ofFile (name : Text) (bytes : Option (List UInt8)) : Except Fault Config := do
  let some bytes := bytes | throw .noFile
  let text ← (Text.Utf8.decode bytes).mapError .encoding
  match ← (Json.read text).mapError .malformed with
  | .object entries => ofEntries entries
  | _ => throw (.notObject name)

def depthProblem (depth : Json) : Except Fault (List Text) := do
  let negative ← match depth with
    | .bool _ => .ok false
    | .int n => .ok (n < 0)
    | .float x => .ok (x.lessThanInt 0)
    | _ => .error .type
  pure (if negative then ["max_import_depth must be non-negative"] else [])

def versionProblem (version : Json) : Except Fault (List Text) :=
  let wrong : Text := "known_schema_version " ++ version.shown ++ " is not a version"
  match version with
  | .string t =>
    match Version.read t with
    | .ok _ => .ok []
    | .error .malformed => .ok [wrong]
    | .error (.limit e) => .error (.version e)
  | _ => .ok [wrong]

def isString : Json → Bool
  | .string _ => true
  | _ => false

def scannersProblem (scanners : Json) : Except Fault (List Text) :=
  match scanners with
  | .null => .ok []
  | .string _ => .ok []
  | .object _ => .ok []
  | .array xs => .ok (if xs.all isString then [] else ["enabled_scanners must be a list of scanner names"])
  | _ => .error .type

def problems (c : Config) : Except Fault (List Text) := do
  let depth ← depthProblem c.maxImportDepth
  let version ← versionProblem c.knownSchemaVersion
  let scanners ← scannersProblem c.enabledScanners
  pure (depth ++ version ++ scanners)

/-- Whether the scanners that are enabled include one by name: as an item, as a key, or as a part of a string.
Without a setting all are. -/
def isEnabled (c : Config) (name : Text) : Except Fault Bool :=
  match c.enabledScanners with
  | .null => .ok true
  | .string t => .ok (Text.includes t name)
  | .array xs => .ok (xs.any fun x ↦ match x with
      | .string t => t = name
      | _ => false)
  | .object es => .ok (es.any (·.1 = name))
  | _ => .error .type

end Config

end PolymerAnalysis
