import PolymerAnalysis.Text.Case

namespace PolymerAnalysis.Path

/-- One segment onto a reversed stack: empty and `.` segments vanish, and `..` takes the last one back.
Above the start `..` is kept, above a root it vanishes. -/
def push (rooted : Bool) (stack : List Text) (segment : Text) : List Text :=
  if segment.isEmpty || segment = "." then stack
  else if segment ≠ ".." then segment :: stack
  else
    match stack with
    | [] => if rooted then [] else [segment]
    | top :: rest => if top = ".." then segment :: stack else rest

def segments (rooted : Bool) (path : Text) : List Text :=
  ((path.splitOn '/').foldl (push rooted) []).reverse

/-- How many slashes a normal form keeps: two leading ones stay two, more count as one. -/
def leadingSlashes (path : Text) : Nat :=
  if Text.startsWith path "//" && !Text.startsWith path "///" then 2
  else if Text.startsWith path "/" then 1
  else 0

def normalize (path : Text) : Text :=
  let slashes := leadingSlashes path
  let body : Text := List.replicate slashes (.ofChar '/') ++
    Text.join "/" (segments (slashes ≠ 0) path)
  if body.isEmpty then "." else body

def join (base path : Text) : Text :=
  if Text.startsWith path "/" then path
  else if base.isEmpty || Text.endsWith base "/" then base ++ path
  else base ++ "/" ++ path

/-- What comes before the last slash, which stays only with others like it. -/
def directory (path : Text) : Text :=
  let head : Text := Text.dropEndWhile (· ≠ '/') path
  if head.all (fun c : CodePoint ↦ c = '/') then head else Text.dropEndWhile (· = '/') head

/-- The last dot of the file name and what follows it; leading dots of a name begin no extension. -/
def extension (path : Text) : Text :=
  let name := Text.afterLast path '/'
  let body := name.dropWhile (fun c : CodePoint ↦ c = '.')
  if body.any (fun c : CodePoint ↦ c = '.') then '.' :: Text.afterLast body '.' else []

def climbs (names : List Text) : Nat × List Text :=
  let isUp (name : Text) : Bool := name = ".."
  ((names.takeWhile isUp).length, names.dropWhile isUp)

def dropCommon : List Text → List Text → List Text × List Text
  | a :: as, b :: bs => if a = b then dropCommon as bs else (a :: as, b :: bs)
  | as, bs => (as, bs)

/-- The way from the directory `base` to `path`, both normal and relative to one place, where `base` does
not lie above that place more often than `path` does. -/
def relativeTo (base path : Text) : Text :=
  let rooted := Text.startsWith base "/"
  let (ups, names) := climbs (segments rooted base)
  let (ups', names') := climbs (segments (Text.startsWith path "/") path)
  let (deeper, rest) := if ups = ups' then dropCommon names names' else (names, names')
  let steps : List Text := List.replicate (ups' - ups + deeper.length) (Text.ofString "..") ++ rest
  if steps.isEmpty then "." else Text.join "/" steps

end PolymerAnalysis.Path
