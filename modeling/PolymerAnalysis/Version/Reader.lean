import PolymerAnalysis.Text.Blank
import PolymerAnalysis.Version.Basic

namespace PolymerAnalysis.Version

inductive ReadError where
  | malformed
  | limit (e : Text.Numeral.LimitError)
deriving DecidableEq

def foldLetter (c : CodePoint) : CodePoint :=
  if c.isUpper then (CodePoint.ofNat? (c.val + 0x20)).getD c else c

def isSeparator (c : CodePoint) : Bool := c = '-' || c = '_' || c = '.'

def digits (t : Text) : Text × Text := (t.takeWhile (·.isDigit), t.dropWhile (·.isDigit))

def dropSeparator : Text → Text
  | [] => []
  | c :: cs => if isSeparator c then cs else c :: cs

def word? (words : List Text) (t : Text) : Option (Text × Text) :=
  words.findSome? fun w ↦
    if (t.take w.length).map foldLetter = w then some (w, t.drop w.length) else none

/-- A qualifier: one of some words with a number, which may be missing, and separators before each. -/
def qualifier? (words : List Text) (t : Text) : Option ((Text × Text) × Text) :=
  (word? words (dropSeparator t)).map fun (w, rest) ↦
    let (number, rest) := digits (dropSeparator rest)
    ((w, number), rest)

/-- A post-release may also be a hyphen and a number. -/
def postQualifier? (t : Text) : Option (Text × Text) :=
  let (number, rest) := digits (t.drop 1)
  if t.head? = some (.ofChar '-') ∧ number ≠ [] then some (number, rest)
  else (qualifier? ["post", "rev", "r"] t).map fun ((_, number), rest) ↦ (number, rest)

structure Parts where
  epoch : Option Text
  release : List Text
  pre : Option (Text × Text)
  post : Option Text
  dev : Option Text
  locals : List Text

def releaseTail : Nat → Text → List Text × Text
  | 0, t => ([], t)
  | size + 1, t =>
    let (number, rest) := digits (t.drop 1)
    if t.head? = some (.ofChar '.') ∧ number ≠ [] then
      let (more, rest) := releaseTail size rest
      (number :: more, rest)
    else ([], t)

def localParts? (t : Text) : Option (List Text) :=
  match t with
  | [] => some []
  | c :: cs =>
    let parts := Text.splitWhere isSeparator cs
    let isPart (p : Text) : Bool :=
      !p.isEmpty && p.all fun c : CodePoint ↦ c.isDigit || c.isLetter
    if c = '+' && parts.all isPart then some parts else none

def parts? (t : Text) : Option Parts := do
  let t := t.trim
  let t := if (t.head?.map foldLetter) = some (.ofChar 'v') then t.drop 1 else t
  let (first, rest) := digits t
  let (epoch, first, rest) :=
    if first ≠ [] ∧ rest.head? = some (.ofChar '!') then
      let (number, rest) := digits (rest.drop 1)
      (some first, number, rest)
    else (none, first, rest)
  if first.isEmpty then failure
  let (more, rest) := releaseTail rest.length rest
  let pre := qualifier? ["alpha", "a", "beta", "b", "preview", "pre", "c", "rc"] rest
  let rest := (pre.map (·.2)).getD rest
  let post := postQualifier? rest
  let rest := (post.map (·.2)).getD rest
  let dev := qualifier? ["dev"] rest
  let rest := (dev.map (·.2)).getD rest
  let locals ← localParts? rest
  pure ⟨epoch, first :: more, pre.map (·.1), post.map (·.1), dev.map (·.1.2), locals⟩

def number (t : Text) : Except ReadError Nat :=
  match Text.Numeral.read t with
  | .ok n => .ok (n.getD 0)
  | .error e => .error (.limit e)

def localPart (t : Text) : Except ReadError Text :=
  if t.all (·.isDigit) then (number t).map Text.Numeral.ofNat else .ok t

def read (t : Text) : Except ReadError Version :=
  match parts? t with
  | none => .error .malformed
  | some p => do
    let epoch ← number (p.epoch.getD [])
    let release ← p.release.mapM number
    let pre ← p.pre.mapM fun (w, t) ↦ (number t).map (w, ·)
    let post ← p.post.mapM number
    let dev ← p.dev.mapM number
    let locals ← p.locals.mapM localPart
    pure { epoch, release, pre, post, dev, locals }

end PolymerAnalysis.Version
