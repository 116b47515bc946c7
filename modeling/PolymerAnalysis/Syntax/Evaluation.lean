import PolymerAnalysis.Binary64.Arithmetic
import PolymerAnalysis.Binary64.Shortest
import PolymerAnalysis.Keyed
import PolymerAnalysis.Syntax.Literal

namespace PolymerAnalysis

namespace Arithmetic

def toFloat (n : Int) : Except EvalError Binary64 :=
  let x := Binary64.ofInt n
  if x.isFinite then .ok x else .error .overflow

def quotient (m n : Int) : Except EvalError Binary64 :=
  let x := Binary64.ofRatio ((m < 0) != (n < 0)) m.natAbs n.natAbs
  if x.isFinite then .ok x else .error .overflow

def onFloats (operator : Text) (x y : Binary64) : Option Binary64 :=
  if operator = "+" then some (x.add y)
  else if operator = "-" then some (x.sub y)
  else if operator = "*" then some (x.mul y)
  else if operator = "/" then (if y.isZero then none else some (x.div y))
  else none

def isOperator (operator : Text) : Bool :=
  operator = "+" || operator = "-" || operator = "*" || operator = "/"

/-- A binary operator on two values; `none` where it has no static meaning. -/
def binary (operator : Text) (left right : Value) : Except EvalError (Option Value) :=
  match left, right with
  | .text s, .text t => .ok (if operator = "+" then some (.text (s ++ t)) else none)
  | .int m, .int n =>
    if operator = "+" then .ok (some (.int (m + n)))
    else if operator = "-" then .ok (some (.int (m - n)))
    else if operator = "*" then .ok (some (.int (m * n)))
    else if operator = "/" ∧ n ≠ 0 then do
      let x ← quotient m n
      pure (some (.float x))
    else .ok none
  | .int m, .float y =>
    if isOperator operator && !(operator = "/" && y.isZero) then do
      let x ← toFloat m
      pure ((onFloats operator x y).map .float)
    else .ok none
  | .float x, .int n =>
    if isOperator operator && !(operator = "/" && n = 0) then do
      let y ← toFloat n
      pure ((onFloats operator x y).map .float)
    else .ok none
  | .float x, .float y => .ok ((onFloats operator x y).map .float)
  | _, _ => .ok none

def unary (operator : Text) (v : Value) : Option Value :=
  if operator = "!" then some (.bool !v.truthy)
  else
    match v with
    | .int n => if operator = "-" then some (.int (-n)) else if operator = "+" then some v else none
    | .float x => if operator = "-" then some (.float x.neg) else if operator = "+" then some v else none
    | _ => none

end Arithmetic

namespace Node

def keyKinds : List String := ["property_identifier", "identifier", "shorthand_property_identifier"]

def literalName (n : Node) : Except EvalError (Option Text) :=
  if n.kind = "string" then some <$> Literal.string n.children
  else if n.kind = "number" then
    match Literal.number n.text with
    | .int i => match Text.Numeral.write i with
      | .ok t => .ok (some t)
      | .error e => .error (.limit e)
    | .float x => .ok (some x.toText)
    | _ => .ok none
  else .ok none

def keyName (key : Node) : Except EvalError (Option Text) :=
  if key.kind ∈ keyKinds then .ok (some key.text)
  else if key.kind = "string" then some <$> Literal.string key.children
  else if key.kind = "number" then .ok (some key.text)
  else if key.kind = "computed_property_name" then
    match key.namedChildren.head? with
    | some inner => inner.literalName
    | none => .ok none
  else .ok none

def memberName (member : Node) : Except EvalError (Option Text) :=
  match member.child? "key" with
  | some key => key.keyName
  | none => .ok none

mutual

/-- The value an expression is known to have. What cannot be evaluated keeps its source. -/
def evaluate : Node → Except EvalError Value
  | .mk kind _ _ _ _ _ text children =>
    if kind = "string" then .text <$> Literal.string children
    else if kind = "template_string" then
      .ok (if children.any fun c ↦ c.named && c.kind = "template_substitution" then .unevaluated text
        else .text (text.drop 1).dropLast)
    else if kind = "number" then .ok (Literal.number text)
    else if kind = "true" then .ok (.bool true)
    else if kind = "false" then .ok (.bool false)
    else if kind = "null" ∨ kind = "undefined" then .ok .null
    else if kind = "parenthesized_expression" then evaluateInner text children
    else if kind = "unary_expression" then
      match children.find? (·.field = some "operator"), children.find? (·.field = some "argument") with
      | some operator, some _ => do
        let v ← evaluateField "argument" children
        pure (if v.isUnevaluated then .unevaluated text
          else (Arithmetic.unary operator.text v).getD (.unevaluated text))
      | _, _ => .ok (.unevaluated text)
    else if kind = "binary_expression" then do
      let left ← evaluateField "left" children
      let right ← evaluateField "right" children
      match children.find? (·.field = some "operator") with
      | some operator =>
        if left.isUnevaluated || right.isUnevaluated then pure (.unevaluated text)
        else
          let v ← Arithmetic.binary operator.text left right
          pure (v.getD (.unevaluated text))
      | none => pure (.unevaluated text)
    else if kind = "array" then do
      let vs ← evaluateItems children
      pure (match vs with
        | some vs => .list vs
        | none => .unevaluated text)
    else if kind = "object" then do
      let es ← evaluateMembers [] children
      pure (match es with
        | some es => .dict es
        | none => .unevaluated text)
    else .ok (.unevaluated text)

def evaluateInner (text : Text) : List Node → Except EvalError Value
  | [] => .ok (.unevaluated text)
  | n :: ns => if n.named then evaluate n else evaluateInner text ns

def evaluateField (field : String) : List Node → Except EvalError Value
  | [] => .ok (.unevaluated [])
  | n :: ns => if n.field = some field then evaluate n else evaluateField field ns

/-- The items of an array, unless one of them is not evaluated. -/
def evaluateItems : List Node → Except EvalError (Option (List Value))
  | [] => .ok (some [])
  | n :: ns =>
    if !n.named || n.isComment then evaluateItems ns
    else do
      let v ← evaluate n
      if v.isUnevaluated then pure none
      else
        let vs ← evaluateItems ns
        pure (vs.map (v :: ·))

/-- The entries of an object after those in `entries`, unless a member has no known key or value. -/
def evaluateMembers (entries : List (Text × Value)) :
    List Node → Except EvalError (Option (List (Text × Value)))
  | [] => .ok (some entries)
  | .mk kind field named missing start stop text children :: ns =>
    if !named || kind = "comment" then evaluateMembers entries ns
    else if kind ≠ "pair" then .ok none
    else do
      let key ← memberName (.mk kind field named missing start stop text children)
      let v ← evaluateField "value" children
      match key with
      | some key => if v.isUnevaluated then pure none else evaluateMembers (Keyed.put key v entries) ns
      | none => pure none

end

def evaluate? : Option Node → Except EvalError Value
  | some n => n.evaluate
  | none => .ok (.unevaluated [])

def indexName (index : Node) : Except EvalError (Option Text) :=
  if index.kind = "identifier" then .ok (some index.text)
  else do
    let v ← index.evaluate
    match v with
    | .text t => pure (some t)
    | .int n => match Text.Numeral.write n with
      | .ok t => pure (some t)
      | .error e => .error (.limit e)
    | _ => pure none

mutual

def identifierName : Node → Except EvalError (Option Text)
  | .mk kind _ _ _ _ _ text children =>
    if kind ∈ keyKinds then .ok (some text)
    else if kind = "member_expression" then do
      let object ← objectName children
      pure (match object, children.find? (·.field = some "property") with
        | some object, some property => some (object ++ "." ++ property.text)
        | _, _ => none)
    else if kind = "subscript_expression" then do
      let object ← objectName children
      match object, children.find? (·.field = some "index") with
      | some object, some index =>
        let segment ← index.indexName
        pure (segment.map fun s ↦ object ++ "." ++ s)
      | _, _ => pure none
    else .ok none

def objectName : List Node → Except EvalError (Option Text)
  | [] => .ok none
  | n :: ns => if n.field = some "object" then identifierName n else objectName ns

end

def identifierName? : Option Node → Except EvalError (Option Text)
  | some n => n.identifierName
  | none => .ok none

end Node

end PolymerAnalysis
