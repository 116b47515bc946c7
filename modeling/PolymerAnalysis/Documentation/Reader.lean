import PolymerAnalysis.Documentation.Grammar
import PolymerAnalysis.Text.Blank

namespace PolymerAnalysis.Documentation

open Peg

/-- Drops the star at the beginning of a line, with the indentation before it and one space after it. -/
def dropGutter (line : Text) : Text :=
  match line.dropWhile isIndent with
  | [] => line
  | c :: rest => if c = '*' then (if rest.head? = some (.ofChar ' ') then rest.drop 1 else rest) else line

def dropOpening (t : Text) : Text :=
  if Text.startsWith t "/*" then (t.drop 2).dropWhile (fun c : CodePoint ↦ c = '*') else t

def dropClosing (t : Text) : Text := if Text.endsWith t "*/" then t.take (t.length - 2) else t

def unwrap (comment : Text) : Text :=
  let body := dropClosing (dropOpening comment.trim)
  Text.stripWhere (· = '\n') (Text.join "\n" (body.lines.map fun line ↦ Text.trimEnd (dropGutter line)))

def namedTitles : List Text :=
  ["appliesMixin", "customElement", "demo", "event", "extends", "fires", "memberof", "mixinFunction",
    "namespace", "param", "polymerBehavior", "property"]

def kept (t : Text) : Option Text := if t.isEmpty then none else some t

def tagWith (title : Text) (type : Option Text) (body : Text) : Tag :=
  if Text.isAmong title namedTitles && !body.isEmpty then
    let (name, description) := Text.cut body ' '
    { title, type, name := some name, description := (description.map Text.trim).bind kept }
  else { title, type, name := none, description := kept body }

def typeOf (t : Tree) : Text := Text.trim (t.text.drop 1).dropLast

def tagOf? (t : Tree) : Option Tag :=
  match t.children with
  | [_, _, title, _, type, _, body] =>
    some (tagWith title.text (type.children.head?.map typeOf) (Text.squeeze body.text))
  | _ => none

def ofTree? (t : Tree) : Option Documentation :=
  match t.children with
  | [description, tags] => (tags.children.mapM tagOf?).map fun tags ↦ { description := Text.trim description.text, tags }
  | _ => none

/-- Reads a comment. One that does not have the form of documentation is a description. -/
def ofComment (comment : Text) : Documentation :=
  let text := unwrap comment
  ((parseText documentation text).bind ofTree?).getD { description := Text.trim text, tags := [] }

end PolymerAnalysis.Documentation
