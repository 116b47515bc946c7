import PolymerAnalysis.Session.Basic

namespace PolymerAnalysis

def ImportFeature.couldNotLoad (i : ImportFeature) (reason : Text) : Warning where
  code := "could-not-load"
  message := "Unable to load import " ++ i.url ++ ": " ++ reason
  severity := .error
  range := i.range

def Graph.links (g : Graph) (i : DocId) : List ImportFeature :=
  (g.locals i).flatMap fun j ↦
    (((g.document? j).map (·.features)).getD []).filterMap fun f ↦ match f with
      | .link l => some l
      | _ => none

namespace Session

/-- What comes of trying to open an imported document: it is linked, or the importer gets warnings. Other
failures than those of loading and parsing are not survived. -/
def settle (importer : DocId) (l : ImportFeature) (opened : Except Failure DocId) (s : Session) :
    Except Failure Unit × Session :=
  match opened with
  | .ok i => (.ok (), s.link importer l.url i)
  | .error (.load _ e) => (.ok (), s.warn importer [l.couldNotLoad e.reason])
  | .error (.syntaxError w) => (.ok (), s.warn importer [w, l.couldNotLoad "it could not be parsed"])
  | .error e => (.error e, s)

/-- What to do about an import: nothing if it leads out of the package. -/
inductive Prospect where
  | external
  | unavailable
  | available
deriving DecidableEq

def prospect (env : Environment) (url : Text) : Except Failure Prospect := do
  if ← (Url.isExternal url).mapError .address then pure .external
  else if ← env.loader.canLoad url then pure .available
  else pure .unavailable

/-- The document at an address, and whether it is new. One in the cache is not scanned again. -/
def fetch (env : Environment) (url : Text) (s : Session) : Except Failure (DocId × Bool) × Session :=
  match s.cached? url with
  | some i => (.ok (i, false), s)
  | none =>
    match env.scanFile url with
    | .error e => (.error e, s)
    | .ok file =>
      let (i, s) := s.register url file
      (.ok (i, true), s)

def follow (env : Environment) (opener : Text → Session → Except Failure DocId × Session) (importer : DocId)
    (l : ImportFeature) (s : Session) : Except Failure Unit × Session :=
  match prospect env l.url with
  | .error e => (.error e, s)
  | .ok .external => (.ok (), s)
  | .ok .unavailable => (.ok (), s.warn importer [l.couldNotLoad "no loader can load it"])
  | .ok .available =>
    let (opened, s) := opener l.url s
    settle importer l opened s

def followAll (env : Environment) (opener : Text → Session → Except Failure DocId × Session) (importer : DocId) :
    List ImportFeature → Session → Except Failure Unit × Session
  | [], s => (.ok (), s)
  | l :: ls, s =>
    match follow env opener importer l s with
    | (.error e, s) => (.error e, s)
    | (.ok (), s) => followAll env opener importer ls s

/-- Opens the document at an address, `depth` links away from the one asked for, and follows its imports if it
is new. It is in the cache by then, so that no file on the way to it is opened again; the other files of the
loader are `free`. -/
def openAt (env : Environment) (free : List Text) (depth : Nat) (url : Text) (s : Session) :
    Except Failure DocId × Session :=
  match fetch env url s with
  | (.error e, s) => (.error e, s)
  | (.ok (i, isNew), s) =>
    if isNew && env.settings.followsAt depth then
      let opener (url : Text) (s : Session) : Except Failure DocId × Session :=
        if _h : url ∈ free then openAt env (free.erase url) (depth + 1) url s
        else
          let (fetched, s) := fetch env url s
          (fetched.map (·.1), s)
      let (result, s) := followAll env opener i (s.graph.links i) s
      (result.map fun _ ↦ i, s)
    else (.ok i, s)
termination_by free.length
decreasing_by
  have := List.length_pos_of_mem _h
  rw [List.length_erase_of_mem _h]
  omega

def nested (env : Environment) (free : List Text) (depth : Nat) (url : Text) (s : Session) :
    Except Failure DocId × Session :=
  if url ∈ free then openAt env (free.erase url) depth url s
  else ((fetch env url s).1.map (·.1), (fetch env url s).2)

section

variable {env : Environment} {free : List Text} {depth : Nat} {url : Text} {s s' : Session}

theorem openAt_of_error {e : Failure} (h : fetch env url s = (.error e, s')) :
    openAt env free depth url s = (.error e, s') := by
  rw [openAt, h]

theorem openAt_of_ok {i : DocId} {isNew : Bool} (h : fetch env url s = (.ok (i, isNew), s')) :
    openAt env free depth url s =
      if isNew && env.settings.followsAt depth then
        let x := followAll env (nested env free (depth + 1)) i (s'.graph.links i) s'
        (x.1.map fun _ ↦ i, x.2)
      else (.ok i, s') := by
  rw [openAt, h]
  rfl

end

def openDocument (env : Environment) (url : Text) (s : Session) : Except Failure DocId × Session :=
  openAt env (env.loader.urls.erase url) 0 url s

def analyze (env : Environment) : List Text → Session → Except Failure (List DocId) × Session
  | [], s => (.ok [], s)
  | url :: urls, s =>
    match openDocument env url s with
    | (.error e, s) => (.error e, s)
    | (.ok i, s) =>
      let (rest, s) := analyze env urls s
      (rest.map (i :: ·), s)

end Session

end PolymerAnalysis
