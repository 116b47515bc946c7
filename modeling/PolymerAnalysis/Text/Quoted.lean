import PolymerAnalysis.Text.Numeral
import PolymerAnalysis.Text.Printable

namespace PolymerAnalysis.Text.Quoted

def hexEscape (c : CodePoint) : Text :=
  if c.val < 0x100 then "\\x" ++ Numeral.hex 2 c.val
  else if c.val < 0x10000 then "\\u" ++ Numeral.hex 4 c.val
  else "\\U" ++ Numeral.hex 8 c.val

def escape (quote c : CodePoint) : Text :=
  if c = quote ∨ c = '\\' then ['\\', c]
  else if c = '\n' then "\\n"
  else if c = '\r' then "\\r"
  else if c = '\t' then "\\t"
  else if c.isPrintable then [c]
  else hexEscape c

/-- Single quotes, unless the text has some and no double ones. -/
def quoteFor (t : Text) : CodePoint :=
  if t.any (· = '\'') && !t.any (· = '"') then '"' else '\''

end PolymerAnalysis.Text.Quoted

namespace PolymerAnalysis.Text

def quoted (t : Text) : Text :=
  let quote := Quoted.quoteFor t
  quote :: t.flatMap (Quoted.escape quote) ++ [quote]

end PolymerAnalysis.Text
