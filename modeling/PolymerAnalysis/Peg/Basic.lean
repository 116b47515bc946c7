import PolymerAnalysis.Text.Basic

namespace PolymerAnalysis.Peg

inductive Frequency where
  | one
  | optional
  | many

structure Piece where
  isIn : CodePoint → Bool
  frequency : Frequency

abbrev Pattern := List Piece

/-- Takes as many code points of a class as it can while the rest of the pattern matches what is left. -/
def takeMany (isIn : CodePoint → Bool) (next : Text → Option Text) : Text → Option Text
  | [] => next []
  | c :: cs => if isIn c then takeMany isIn next cs <|> next (c :: cs) else next (c :: cs)

def Piece.takeThen (p : Piece) (next : Text → Option Text) (t : Text) : Option Text :=
  match p.frequency, t with
  | .many, t => takeMany p.isIn next t
  | .one, [] => none
  | .one, c :: cs => if p.isIn c then next cs else none
  | .optional, [] => next []
  | .optional, c :: cs => if p.isIn c then next cs <|> next (c :: cs) else next (c :: cs)

def Pattern.rest? : Pattern → Text → Option Text
  | [], t => some t
  | p :: ps, t => p.takeThen (rest? ps) t

inductive Expr where
  | pattern (p : Pattern)
  | literal (t : Text)
  | sequence (es : List Expr)
  | choice (es : List Expr)
  /-- As often as it goes, but not more often than a limit says. -/
  | repeated (limit : Option Nat) (e : Expr)
  /-- Nothing, where an expression does not match. -/
  | absent (e : Expr)

inductive Tree where
  | node (text : Text) (children : List Tree)

namespace Tree

def text : Tree → Text
  | .node text _ => text

def children : Tree → List Tree
  | .node _ children => children

end Tree

def consumed (t rest : Text) : Text := t.take (t.length - rest.length)

/-- Repeats a step. Nothing is repeated at the end of the text, or once it takes nothing from the text. -/
def repeatStep (step : Text → Option (Tree × Text)) (limit : Option Nat) (t : Text) : List Tree × Text :=
  if t.isEmpty || limit = some 0 then ([], t)
  else
    match step t with
    | none => ([], t)
    | some (tree, rest) =>
      if _h : rest.length < t.length then
        let (trees, rest) := repeatStep step (limit.map (· - 1)) rest
        (tree :: trees, rest)
      else ([tree], rest)
termination_by t.length

mutual

/-- What an expression matches at the beginning of a text, and the rest of the text. -/
def parse : Expr → Text → Option (Tree × Text)
  | .pattern p, t => (p.rest? t).map fun rest ↦ (.node (consumed t rest) [], rest)
  | .literal l, t => if Text.startsWith t l then some (.node l [], t.drop l.length) else none
  | .sequence es, t => (parseAll es t).map fun (trees, rest) ↦ (.node (consumed t rest) trees, rest)
  | .choice es, t => (parseFirst es t).map fun (tree, rest) ↦ (.node (consumed t rest) [tree], rest)
  | .repeated limit e, t =>
    let (trees, rest) := repeatStep (parse e) limit t
    some (.node (consumed t rest) trees, rest)
  | .absent e, t => if (parse e t).isSome then none else some (.node [] [], t)

def parseAll : List Expr → Text → Option (List Tree × Text)
  | [], t => some ([], t)
  | e :: es, t => do
    let (tree, rest) ← parse e t
    let (trees, rest) ← parseAll es rest
    pure (tree :: trees, rest)

def parseFirst : List Expr → Text → Option (Tree × Text)
  | [], _ => none
  | e :: es, t => parse e t <|> parseFirst es t

end

def parseText (e : Expr) (t : Text) : Option Tree :=
  match parse e t with
  | some (tree, []) => some tree
  | _ => none

end PolymerAnalysis.Peg
