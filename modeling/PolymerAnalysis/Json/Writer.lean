import PolymerAnalysis.Binary64.Shortest
import PolymerAnalysis.Json.Basic

namespace PolymerAnalysis.Json

def unitEscape (n : Nat) : Text := "\\u" ++ Text.Numeral.hex 4 n

/-- Printable ASCII stays; everything else is escaped, in two units above the basic plane. -/
def escape (c : CodePoint) : Text :=
  if c = '"' ∨ c = '\\' then ['\\', c]
  else if c = '\n' then "\\n"
  else if c = '\r' then "\\r"
  else if c = '\t' then "\\t"
  else if c.val = 8 then "\\b"
  else if c.val = 12 then "\\f"
  else if 0x20 ≤ c.val ∧ c.val < 0x7F then [c]
  else if c.val < 0x10000 then unitEscape c.val
  else unitEscape (0xD800 + (c.val - 0x10000) / 0x400) ++ unitEscape (0xDC00 + (c.val - 0x10000) % 0x400)

def writeText (t : Text) : Text := "\"" ++ t.flatMap escape ++ "\""

def writeFloat : Binary64 → Text
  | .nan => "NaN"
  | .infinite s => if s then "-Infinity" else "Infinity"
  | x => x.toText

mutual

def write : Json → Text
  | .null => "null"
  | .bool b => if b then "true" else "false"
  | .int n => Text.Numeral.ofInt n
  | .float x => writeFloat x
  | .string t => writeText t
  | .array xs => "[" ++ Text.join ", " (writeItems xs) ++ "]"
  | .object es => "\x7b" ++ Text.join ", " (writeEntries es) ++ "\x7d"

def writeItems : List Json → List Text
  | [] => []
  | x :: xs => write x :: writeItems xs

def writeEntries : List (Text × Json) → List Text
  | [] => []
  | (k, x) :: es => (writeText k ++ ": " ++ write x) :: writeEntries es

end

end PolymerAnalysis.Json
