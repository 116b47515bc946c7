import PolymerAnalysis.Failure
import PolymerAnalysis.Source.Coordinates
import PolymerAnalysis.Text.Blank

namespace PolymerAnalysis

/-- A source text with its syntax tree. `offset` says where an inline document lies in its container. -/
structure ParsedDocument where
  language : Language
  url : Text
  contents : Text
  root : Node
  offset : Option Offset
  inline : Bool

abbrev Grammar := Language → Text → Node

namespace ParsedDocument

def rangeBetween (d : ParsedDocument) (start stop : Point) : SourceRange :=
  ⟨d.url, d.contents.position start, d.contents.position stop⟩

def localRange (d : ParsedDocument) (n : Node) : SourceRange :=
  d.rangeBetween (d.contents.point n.start) (d.contents.point n.stop)

def range (d : ParsedDocument) (n : Node) : SourceRange := (d.localRange n).shift d.offset

def faultMessage (n : Node) : Text :=
  if n.missing then "Missing " ++ Text.ofString n.kind
  else
    match n.text.words with
    | word :: _ => "Unexpected token " ++ word.quoted
    | [] => "Unexpected end of input"

def syntaxWarning (d : ParsedDocument) (n : Node) : Warning :=
  ⟨"parse-error", faultMessage n, .error, some (d.range n)⟩

/-- Parses a text that has a UTF-8 form. `place` is given for an inline document, with its offset if that is known.
Errors in markup are recovered from; the first error in a script is fatal. -/
def parseEncodable (grammar : Grammar) (language : Language) (url contents : Text) (place : Option (Option Offset)) :
    Except Failure ParsedDocument :=
  let offset := place.join
  let d : ParsedDocument :=
    { language, url, contents, root := grammar language contents, offset
      inline := match language with
        | .script => place.isSome
        | .markup => offset.isSome }
  match language with
  | .markup => .ok d
  | .script =>
    match d.root.preorder.find? (·.isFault) with
    | some n => .error (.syntaxError (d.syntaxWarning n))
    | none => .ok d

def parse (grammar : Grammar) (language : Language) (url contents : Text) (place : Option (Option Offset)) :
    Except Failure ParsedDocument :=
  if contents.isEncodable then parseEncodable grammar language url contents place else .error .unencodable

def parseFile (grammar : Grammar) (url contents : Text) : Except Failure ParsedDocument :=
  match Language.ofUrl? url with
  | some language => parse grammar language url contents none
  | none => .error (.noLanguage url)

end ParsedDocument

end PolymerAnalysis
