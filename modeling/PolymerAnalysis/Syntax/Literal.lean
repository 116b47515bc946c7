import PolymerAnalysis.Binary64.Reader
import PolymerAnalysis.Syntax.Node
import PolymerAnalysis.Text.Numeral
import PolymerAnalysis.Value.Basic

namespace PolymerAnalysis

/-- Why evaluating an expression breaks off: a number beyond every float or every character code, or an
integer too long to be written in decimal. -/
inductive EvalError where
  | overflow
  | limit (e : Text.Numeral.LimitError)
deriving DecidableEq

namespace Literal

def simpleEscapes : List (CodePoint × CodePoint) :=
  [('n', '\n'), ('t', '\t'), ('r', '\r'), ('b', '\x08'), ('f', '\x0c'), ('v', '\x0b'), ('0', '\x00')]

def hexEscape (sequence digits : Text) : Except EvalError Text :=
  match Text.Numeral.value? 16 digits with
  | none => .ok sequence
  | some n =>
    match CodePoint.ofNat? n with
    | some c => .ok [c]
    | none => if n < 0x80000000 then .ok sequence else .error .overflow

def escape (sequence : Text) : Except EvalError Text :=
  match sequence.drop 1 with
  | [] => .ok []
  | [c] =>
    match simpleEscapes.lookup c with
    | some d => .ok [d]
    | none => .ok (if c = '\r' ∨ c = '\n' then [] else [c])
  | c :: rest =>
    if c = 'u' ∧ rest.head? = some (.ofChar '{') ∧ rest.getLast? = some (.ofChar '}') then
      hexEscape sequence (rest.drop 1).dropLast
    else if c = 'u' ∨ c = 'x' then hexEscape sequence rest
    else if c = '\r' ∨ c = '\n' then .ok []
    else .ok (c :: rest)

def string : List Node → Except EvalError Text
  | [] => .ok []
  | n :: ns => do
    let head ← if n.named then (if n.kind = "escape_sequence" then escape n.text else .ok n.text) else .ok []
    let tail ← string ns
    pure (head ++ tail)

/-- An integer in decimal, without leading zeros unless it is zero, or in base 16, 8 or 2 after a mark. -/
def integer? (t : Text) : Option Nat :=
  let mark := Text.lower (t.take 2)
  if mark = "0x" then Text.Numeral.value? 16 (t.drop 2)
  else if mark = "0o" then Text.Numeral.value? 8 (t.drop 2)
  else if mark = "0b" then Text.Numeral.value? 2 (t.drop 2)
  else if t.length > Text.Numeral.digitLimit then none
  else (Text.Numeral.value? 10 t).filter fun n ↦ t.head? ≠ some (.ofChar '0') || n = 0

/-- The value of a numeric literal; digit separators do not count. -/
def number (t : Text) : Value :=
  let digits := t.filter fun c : CodePoint ↦ c ≠ '_'
  match integer? digits with
  | some n => .int n
  | none =>
    match Binary64.ofText? digits with
    | some x => .float x
    | none => .unevaluated digits

end Literal

end PolymerAnalysis
