import PolymerAnalysis.Keyed
import PolymerAnalysis.Loading.Loader

namespace PolymerAnalysis

abbrev FilePath := List Text

/-- A directory with a name, in the directories above it, and the files below it. A directory stays when the files in
it go. -/
structure FileTree where
  above : FilePath := ["tmp", "packages"]
  name : Text
  files : List (FilePath × List UInt8) := []
  directories : List FilePath := [[]]

namespace FileTree

def root (t : FileTree) : FilePath := t.above ++ [t.name]

def nameLimit : Nat := 255

def pathLimit : Nat := 4095

def pathSize (path : FilePath) : Nat := path.foldr (fun name size ↦ name.byteSize + 1 + size) 0

def parents (path : FilePath) : List FilePath := (List.range path.length).map path.take

def write (t : FileTree) (path : FilePath) (bytes : List UInt8) : FileTree :=
  { t with
    files := Keyed.put path bytes t.files
    directories := (parents path).foldl (fun ds d ↦ Keyed.addNew d ds) t.directories }

def delete (t : FileTree) (path : FilePath) : FileTree := { t with files := Keyed.erase path t.files }

/-- Whether a code point can stand in a file name: of the surrogates only those that stand for a byte. -/
def isEncodable (c : CodePoint) : Bool := !c.isSurrogate || (0xDC80 ≤ c.val && c.val ≤ 0xDCFF)

def checkName (name : Text) : Except Failure Unit :=
  if !name.all isEncodable then .error .unencodable
  else if name.any fun c : CodePoint ↦ c.val = 0 then .error (.raised "embedded null byte")
  else .ok ()

/-- The place that an address leads to, unless that is outside of the tree. -/
def locate? (t : FileTree) (url : Text) : Except Failure (Option FilePath) := do
  if ← (Url.isExternal url).mapError .address then pure none
  else
    (url.splitOn '/').forM checkName
    let path := Path.segments true (Path.join (Text.join "/" t.root) url)
    pure (if t.root.isPrefixOf path then some (path.drop t.root.length) else none)

def contents (t : FileTree) (above : FilePath) : FilePath → Except LoadFault (List UInt8)
  | [] => .error .isDirectory
  | name :: names =>
    let path := above ++ [name]
    if nameLimit < name.byteSize then .error .nameTooLong
    else if path ∈ t.directories then t.contents path names
    else
      match t.files.lookup path with
      | some bytes => if names.isEmpty then .ok bytes else .error .notDirectory
      | none => .error .noEntry

def text (t : FileTree) (path : FilePath) : Except LoadFault Text := do
  if pathLimit < pathSize (t.root ++ path) then throw .nameTooLong
  let bytes ← t.contents [] path
  let text ← (Text.Utf8.decode bytes).mapError .encoding
  pure text.normalizeNewlines

/-- The way up some levels from the tree and down to it again. -/
def detour (t : FileTree) (levels : Nat) : FilePath :=
  List.replicate levels (Text.ofString "..") ++ t.root.drop (t.root.length - levels)

/-- Serves the files of a tree. A file can also be reached by going up and coming down again; the addresses that go up
past the top of the file system have no end, and are not listed. -/
def loader (t : FileTree) : Loader where
  urls := (List.range (t.root.length + 1)).flatMap fun levels ↦
    t.files.map fun f ↦ Text.join "/" (t.detour levels ++ f.1)
  canLoad url := (t.locate? url).map (·.isSome)
  load url := do
    match ← t.locate? url with
    | none => throw (.load url .outside)
    | some path => (t.text path).mapError (.load url)

end FileTree

end PolymerAnalysis
