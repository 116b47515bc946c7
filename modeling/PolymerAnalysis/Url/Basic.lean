import PolymerAnalysis.Text.Quoted
import PolymerAnalysis.Url.Host
import PolymerAnalysis.Url.Path

namespace PolymerAnalysis.Url

inductive Fault where
  | misplacedBrackets
  | futureAddress
  | bracketedIPv4
  | notAnAddress (host : Text)
  | compatibilityCharacters (host : Text)
deriving DecidableEq

def Fault.message : Fault → Text
  | .misplacedBrackets => "Invalid IPv6 URL"
  | .futureAddress => "IPvFuture address is invalid"
  | .bracketedIPv4 => "An IPv4 address cannot be in brackets"
  | .notAnAddress host => host.quoted ++ " does not appear to be an IPv4 or IPv6 address"
  | .compatibilityCharacters host =>
    "netloc '" ++ host ++ "' contains invalid characters under NFKC normalization"

def isSchemeMark (c : CodePoint) : Bool :=
  c.isLetter || c.isDigit || c = '+' || c = '-' || c = '.'

/-- The address without leading controls and blanks, and without tabs and line ends. -/
def cleaned (url : Text) : Text :=
  (url.dropWhile fun c : CodePoint ↦ c.val ≤ 0x20).filter fun c : CodePoint ↦ c ≠ '\t' && c ≠ '\r' && c ≠ '\n'

def splitScheme (url : Text) : Option Text × Text :=
  match Text.cut url ':' with
  | (c :: cs, some rest) => if c.isLetter && cs.all isSchemeMark then (some (Text.lower (c :: cs)), rest) else (none, url)
  | _ => (none, url)

/-- Code points whose compatibility form contains a delimiter of addresses. -/
def compatibilityDelimiters : List Nat :=
  [0x2047, 0x2048, 0x2049, 0x2100, 0x2101, 0x2105, 0x2106, 0x2A74, 0xFE13, 0xFE16, 0xFE55, 0xFE56,
    0xFE5F, 0xFE6B, 0xFF03, 0xFF0F, 0xFF1A, 0xFF1F, 0xFF20]

def isFutureAddress (host : Text) : Bool :=
  let digits := (host.drop 1).takeWhile fun c : CodePoint ↦ (c.digitValue? 16).isSome
  let rest := host.drop (1 + digits.length)
  !digits.isEmpty && rest.head? = some (.ofChar '.') && 2 ≤ rest.length &&
    !rest.any (fun c : CodePoint ↦ c = '\n')

def checkBracketed (host : Text) : Except Fault Unit :=
  if Text.startsWith host "v" then (if isFutureAddress host then .ok () else .error .futureAddress)
  else if Host.isIPv4 host then .error .bracketedIPv4
  else if Host.isIPv6 host then .ok ()
  else .error (.notAnAddress host)

/-- Checks the host after the last at sign. Brackets enclose all of it, and only a port may follow them; a host
without brackets ends at the first colon. -/
def checkHost (host : Text) : Except Fault Unit :=
  match Text.cut host '[' with
  | (_, none) => checkBracketed (Text.cut host ':').1
  | (before, some rest) =>
    let (inner, after) := Text.cut rest ']'
    let port := after.getD []
    if before.isEmpty && (port.isEmpty || Text.startsWith port ":") then checkBracketed inner
    else .error .misplacedBrackets

/-- Checks the authority of an address. Brackets anywhere in it make the host one that has to be an IPv6 address. -/
def checkAuthority (authority : Text) : Except Fault Unit := do
  let opens := authority.any fun c : CodePoint ↦ c = '['
  let closes := authority.any fun c : CodePoint ↦ c = ']'
  if opens ≠ closes then throw .misplacedBrackets
  if opens then checkHost (Text.afterLast authority '@')
  if authority.any fun c : CodePoint ↦ c.val ∈ compatibilityDelimiters then
    throw (.compatibilityCharacters authority)

def scheme? (url : Text) : Except Fault (Option Text) := do
  let (scheme, rest) := splitScheme (cleaned url)
  if Text.startsWith rest "//" then
    checkAuthority ((rest.drop 2).takeWhile fun c : CodePoint ↦ c ≠ '/' && c ≠ '?' && c ≠ '#')
  pure scheme

/-- Whether an address leads out of the package: it has a scheme or begins with a host. -/
def isExternal (url : Text) : Except Fault Bool := do
  let scheme ← scheme? url
  pure (scheme.isSome || Text.startsWith url "//")

/-- The address a reference leads to from the document at `base`, in normal form; a leading slash means
the root of the package. -/
def resolve (base reference : Text) : Except Fault Text := do
  if ← isExternal reference then pure reference
  else
    let path := (Text.cut (Text.cut reference '#').1 '?').1
    let joined := if Text.startsWith path "/" then path.dropWhile (fun c : CodePoint ↦ c = '/')
      else Path.join (Path.directory base) path
    pure (Path.normalize joined)

end PolymerAnalysis.Url

namespace PolymerAnalysis

inductive Language where
  | script
  | markup
deriving DecidableEq

def Language.ofUrl? (url : Text) : Option Language :=
  let extension := Text.lower (Path.extension url)
  if extension = ".js" ∨ extension = ".mjs" then some .script
  else if extension = ".html" ∨ extension = ".htm" then some .markup
  else none

end PolymerAnalysis
