import PolymerAnalysis.Binary64.Reader
import PolymerAnalysis.Json.Basic
import PolymerAnalysis.Keyed

namespace PolymerAnalysis.Json

inductive ReadError where
  | malformed
  | limit (e : Text.Numeral.LimitError)
deriving DecidableEq

def isSpace (c : CodePoint) : Bool := c = ' ' || c = '\n' || c = '\r' || c = '\t'

def isHighSurrogate (c : CodePoint) : Bool := 0xD800 ≤ c.val && c.val < 0xDC00

def isLowSurrogate (c : CodePoint) : Bool := 0xDC00 ≤ c.val && c.val < 0xE000

/-- Puts an escaped unit before what follows it; two escaped halves of a pair become one code point. -/
def joinUnit (unit : CodePoint) (nextIsEscape : Bool) : Text → Text
  | [] => [unit]
  | c :: cs =>
    if nextIsEscape && isHighSurrogate unit && isLowSurrogate c then
      (CodePoint.ofNat? (0x10000 + (unit.val - 0xD800) * 0x400 + (c.val - 0xDC00))).getD unit :: cs
    else unit :: c :: cs

def simpleEscape? (c : CodePoint) : Option CodePoint :=
  if c = '"' ∨ c = '\\' ∨ c = '/' then some c
  else if c = 'b' then some '\x08'
  else if c = 'f' then some '\x0c'
  else if c = 'n' then some '\n'
  else if c = 'r' then some '\r'
  else if c = 't' then some '\t'
  else none

/-- The contents of a string whose opening quote is read, and the length up to the closing one. -/
def stringBody : Text → Option (Text × Nat)
  | [] => none
  | c :: cs =>
    if c = '"' then some ([], 1)
    else if c.val < 0x20 then none
    else if c = '\\' then
      match cs with
      | [] => none
      | e :: rest =>
        if e = 'u' then
          match rest with
          | h₁ :: h₂ :: h₃ :: h₄ :: more => do
            let n ← Text.Numeral.value? 16 [h₁, h₂, h₃, h₄]
            let unit ← CodePoint.ofNat? n
            let (t, size) ← stringBody more
            pure (joinUnit unit (Text.startsWith more "\\u") t, size + 6)
          | _ => none
        else do
          let x ← simpleEscape? e
          let (t, size) ← stringBody rest
          pure (x :: t, size + 2)
    else do
      let (t, size) ← stringBody cs
      pure (c :: t, size + 1)

def fraction (t : Text) : Text :=
  match t with
  | [] => []
  | c :: cs =>
    let digits := cs.takeWhile (·.isDigit)
    if c = '.' && !digits.isEmpty then c :: digits else []

def exponentPart (t : Text) : Text :=
  match t with
  | [] => []
  | c :: cs =>
    let sign := cs.takeWhile fun d : CodePoint ↦ d = '+' || d = '-'
    let digits := (cs.drop sign.length).takeWhile (·.isDigit)
    if (c = 'e' || c = 'E') && sign.length ≤ 1 && !digits.isEmpty then c :: (sign ++ digits) else []

def number (negative : Bool) (t : Text) : Except ReadError (Json × Nat) :=
  let run := t.takeWhile (·.isDigit)
  let whole := if run.head? = some (.ofChar '0') then run.take 1 else run
  if whole.isEmpty then .error .malformed
  else
    let part := fraction (t.drop whole.length)
    let e := exponentPart (t.drop (whole.length + part.length))
    if part.isEmpty && e.isEmpty then
      match Text.Numeral.read whole with
      | .error l => .error (.limit l)
      | .ok none => .error .malformed
      | .ok (some n) => .ok (.int (if negative then -(n : Int) else n), whole.length)
    else
      match Binary64.unsigned? negative (whole ++ part ++ e) with
      | none => .error .malformed
      | some x => .ok (.float x, whole.length + part.length + e.length)

def keywords : List (Text × Json) :=
  [("null", .null), ("true", .bool true), ("false", .bool false), ("NaN", .float .nan),
    ("Infinity", .float (.infinite false)), ("-Infinity", .float (.infinite true))]

def scalar (c : CodePoint) (cs : Text) : Except ReadError (Json × Nat) :=
  if c = '"' then
    match stringBody cs with
    | none => .error .malformed
    | some (t, size) => .ok (.string t, size)
  else
    match keywords.find? fun k ↦ Text.startsWith (c :: cs) k.1 with
    | some k => .ok (k.2, k.1.length - 1)
    | none =>
      if c = '-' then number true cs
      else (number false (c :: cs)).map fun r ↦ (r.1, r.2 - 1)

/-- A container that is still open: its items backwards, or its entries and the key of the next one. -/
inductive Frame where
  | array (items : List Json)
  | object (entries : List (Text × Json)) (key : Text)

inductive Expected where
  | value
  | firstItem
  | firstKey
  | key (entries : List (Text × Json))
  | colon (entries : List (Text × Json)) (key : Text)
  | continuation (value : Json)

theorem dropSpaces_length (t : Text) : (t.dropWhile isSpace).length ≤ t.length := by
  induction t with
  | nil => simp
  | cons c cs ih =>
    simp only [List.dropWhile]
    split
    · exact Nat.le_succ_of_le ih
    · exact Nat.le_refl _

/-- Reads on with the open containers, the innermost first. A key met again keeps its first place and
takes the last value. -/
def readFrom (stack : List Frame) (expected : Expected) (t : Text) : Except ReadError Json :=
  match h : t.dropWhile isSpace with
  | [] =>
    match stack, expected with
    | [], .continuation j => .ok j
    | _, _ => .error .malformed
  | c :: cs =>
    have : cs.length < t.length := by
      have := dropSpaces_length t
      rw [h] at this
      simp only [List.length_cons] at this
      omega
    match expected with
    | .continuation j =>
      match stack with
      | [] => .error .malformed
      | .array items :: outer =>
        if c = ',' then readFrom (.array (j :: items) :: outer) .value cs
        else if c = ']' then readFrom outer (.continuation (.array (j :: items).reverse)) cs
        else .error .malformed
      | .object entries key :: outer =>
        if c = ',' then readFrom outer (.key (Keyed.put key j entries)) cs
        else if c = '}' then readFrom outer (.continuation (.object (Keyed.put key j entries))) cs
        else .error .malformed
    | .colon entries key =>
      if c = ':' then readFrom (.object entries key :: stack) .value cs else .error .malformed
    | .firstKey =>
      if c = '}' then readFrom stack (.continuation (.object [])) cs
      else if c = '"' then
        match stringBody cs with
        | none => .error .malformed
        | some (key, size) =>
          have : (cs.drop size).length < t.length := by simp only [List.length_drop]; omega
          readFrom stack (.colon [] key) (cs.drop size)
      else .error .malformed
    | .key entries =>
      if c = '"' then
        match stringBody cs with
        | none => .error .malformed
        | some (key, size) =>
          have : (cs.drop size).length < t.length := by simp only [List.length_drop]; omega
          readFrom stack (.colon entries key) (cs.drop size)
      else .error .malformed
    | .firstItem =>
      if c = ']' then readFrom stack.tail (.continuation (.array [])) cs
      else if c = '[' then readFrom (.array [] :: stack) .firstItem cs
      else if c = '{' then readFrom stack .firstKey cs
      else
        match scalar c cs with
        | .error e => .error e
        | .ok (j, size) =>
          have : (cs.drop size).length < t.length := by simp only [List.length_drop]; omega
          readFrom stack (.continuation j) (cs.drop size)
    | .value =>
      if c = '[' then readFrom (.array [] :: stack) .firstItem cs
      else if c = '{' then readFrom stack .firstKey cs
      else
        match scalar c cs with
        | .error e => .error e
        | .ok (j, size) =>
          have : (cs.drop size).length < t.length := by simp only [List.length_drop]; omega
          readFrom stack (.continuation j) (cs.drop size)
termination_by t.length

def read (t : Text) : Except ReadError Json := readFrom [] .value t

end PolymerAnalysis.Json
