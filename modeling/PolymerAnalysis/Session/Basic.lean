import PolymerAnalysis.Config.Settings
import PolymerAnalysis.Graph.Basic
import PolymerAnalysis.Loading.Loader

namespace PolymerAnalysis

structure Environment where
  grammar : Grammar
  loader : Loader
  settings : Settings

structure ScannedFile where
  document : Document
  inlines : List Document := []

namespace ScannedFile

/-- Scans the script in a file. One that is not grammatical leaves a warning with the file. As a part of a text
that was parsed it has a UTF-8 form. -/
def addScript (env : Environment) (file : ScannedFile) (s : InlineScript) : Except Failure ScannedFile :=
  if s.type ≠ "js" then .ok file
  else
    match ParsedDocument.parseEncodable env.grammar .script file.document.url s.contents (some s.offset) with
    | .error (.syntaxError w) =>
      .ok { file with document.warnings := file.document.warnings ++ [w] }
    | .error e => .error e
    | .ok parsed => do
      let features ← parsed.scan (env.settings.scannersFor .script)
      pure { file with inlines := file.inlines ++ [{ url := file.document.url, features }] }

def addScripts (env : Environment) (file : ScannedFile) : List ScannedFeature → Except Failure ScannedFile
  | [] => .ok file
  | .script s :: rest => do
    let file ← addScript env file s
    addScripts env file rest
  | _ :: rest => addScripts env file rest

def ofParsed (env : Environment) (parsed : ParsedDocument) : Except Failure ScannedFile := do
  let features ← parsed.scan (env.settings.scannersFor parsed.language)
  let file : ScannedFile := { document := { url := parsed.url, features } }
  if env.settings.scanInlineScripts then addScripts env file features else pure file

end ScannedFile

def Environment.scanFile (env : Environment) (url : Text) : Except Failure ScannedFile :=
  match Language.ofUrl? url with
  | none => .error (.load url .noLanguage)
  | some language => do
    let contents ← env.loader.load url
    let parsed ← ParsedDocument.parse env.grammar language url contents none
    ScannedFile.ofParsed env parsed

/-- What is kept from one analysis to the next: all documents so far, those in the cache by their addresses,
and for every address the files that import it. -/
structure Session where
  graph : Graph := {}
  cache : List (Text × DocId) := []
  importers : List (Text × List Text) := []

namespace Session

def cached? (s : Session) (url : Text) : Option DocId := s.cache.lookup url

def cachedUrls (s : Session) : List Text := Text.sort (s.cache.map (·.1))

def register (s : Session) (url : Text) (file : ScannedFile) : DocId × Session :=
  let id := s.graph.size
  let graph := file.inlines.foldl (fun g d ↦ g.add { d with container := some id }) (s.graph.add file.document)
  (id, { s with graph, cache := Keyed.put url id s.cache })

def warn (s : Session) (i : DocId) (ws : List Warning) : Session :=
  { s with graph := s.graph.addWarnings i ws }

def importersOf (s : Session) (url : Text) : List Text := (s.importers.lookup url).getD []

def link (s : Session) (importer : DocId) (url : Text) (imported : DocId) : Session :=
  { s with
    graph := s.graph.addImport importer imported
    importers := Keyed.put url (Keyed.addNew (s.graph.url importer) (s.importersOf url)) s.importers }

end Session

end PolymerAnalysis
