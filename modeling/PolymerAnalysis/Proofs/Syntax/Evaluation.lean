import PolymerAnalysis.Proofs.Binary64.Range
import PolymerAnalysis.Proofs.Lists
import PolymerAnalysis.Proofs.Relations
import PolymerAnalysis.Proofs.Syntax.Literal
import Mathlib.Tactic.MkIffOfInductiveProp

namespace PolymerAnalysis

open Text

variable {n m : Node} {ns : List Node} {e : EvalError}

namespace Arithmetic

variable {operator : Text} {v w : Value}

/-- The operator has to round or to convert a number that lies beyond all floats. -/
def IsBeyondFloats (operator : Text) : Value → Value → Prop
  | .int i, .int j => operator = "/" ∧ j ≠ 0 ∧ Binary64.bound * j.natAbs ≤ i.natAbs
  | .int i, .float y => isOperator operator = true ∧ ¬(operator = "/" ∧ y.isZero = true) ∧ Binary64.bound ≤ i.natAbs
  | .float _, .int j => isOperator operator = true ∧ Binary64.bound ≤ j.natAbs
  | _, _ => False

theorem toFloat_eq_error_iff {i : Int} : toFloat i = .error e ↔ e = .overflow ∧ Binary64.bound ≤ i.natAbs := by
  rw [toFloat, ← Nat.not_lt, ← Binary64.isFinite_ofInt_iff]
  split
  · next h => simp [h]
  · next h => simp [h, eq_comm]

theorem quotient_eq_error_iff {i j : Int} (hj : j ≠ 0) :
    quotient i j = .error e ↔ e = .overflow ∧ Binary64.bound * j.natAbs ≤ i.natAbs := by
  have hpos : 0 < j.natAbs := Int.natAbs_pos.2 hj
  rw [quotient, ← Nat.not_lt, ← Binary64.isFinite_ofRatio_iff ((i < 0) != (j < 0)) _ hpos]
  split
  · next h => simp [h]
  · next h => simp [h, eq_comm]

/-- An operation that is only done after an integer has been converted. -/
theorem converted_eq_error_iff {i : Int} {c : Bool} {f : Binary64 → Option Value} :
    (if c then do
      let x ← toFloat i
      pure (f x)
    else .ok none : Except EvalError (Option Value)) = .error e ↔ c = true ∧ e = .overflow ∧ Binary64.bound ≤ i.natAbs := by
  cases c with
  | false => simp
  | true => rw [if_pos rfl, bind_pure_comp, map_eq_error_iff, toFloat_eq_error_iff, and_iff_right rfl]

theorem binary_eq_error_iff : binary operator v w = .error e ↔ e = .overflow ∧ IsBeyondFloats operator v w := by
  cases v with
  | int i =>
    cases w with
    | int j =>
      rw [binary, IsBeyondFloats]
      by_cases hdivide : operator = "/" ∧ j ≠ 0
      · obtain ⟨rfl, hj⟩ := hdivide
        rw [if_neg (by decide), if_neg (by decide), if_neg (by decide), if_pos ⟨rfl, hj⟩, bind_pure_comp, map_eq_error_iff,
          quotient_eq_error_iff hj]
        simp [hj]
      · rw [if_neg hdivide]
        refine iff_of_false ?_ fun h ↦ hdivide ⟨h.2.1, h.2.2.1⟩
        split_ifs <;> simp
    | float y =>
      rw [binary, IsBeyondFloats, converted_eq_error_iff, Bool.and_eq_true, Bool.not_eq_true', Bool.and_eq_false_iff,
        decide_eq_false_iff_not, not_and_or, Bool.not_eq_true]
      constructor
      · exact fun ⟨⟨hop, hzero⟩, he, hbeyond⟩ ↦ ⟨he, hop, hzero, hbeyond⟩
      · exact fun ⟨he, hop, hzero, hbeyond⟩ ↦ ⟨⟨hop, hzero⟩, he, hbeyond⟩
    | null | bool | text | list | dict | unevaluated => simp [binary, IsBeyondFloats]
  | float x =>
    cases w with
    | int j =>
      rw [binary, IsBeyondFloats, converted_eq_error_iff, Bool.and_eq_true, Bool.not_eq_true', Bool.and_eq_false_iff,
        decide_eq_false_iff_not, decide_eq_false_iff_not]
      constructor
      · exact fun ⟨⟨hop, _⟩, he, hbeyond⟩ ↦ ⟨he, hop, hbeyond⟩
      · rintro ⟨he, hop, hbeyond⟩
        have hpos := Binary64.bound_pos
        exact ⟨⟨hop, .inr (by omega)⟩, he, hbeyond⟩
    | null | bool | float | text | list | dict | unevaluated => simp [binary, IsBeyondFloats]
  | null | bool | text | list | dict | unevaluated =>
    cases w <;> simp [binary, IsBeyondFloats]

theorem IsBeyondFloats.isUnevaluated (h : IsBeyondFloats operator v w) :
    v.isUnevaluated = false ∧ w.isUnevaluated = false := by
  cases v <;> cases w <;> simp [IsBeyondFloats, Value.isUnevaluated] at h ⊢

end Arithmetic

namespace Node

def IsKnown (n : Node) : Prop := ∃ v, n.evaluate = .ok v ∧ v.isUnevaluated = false

def IsSettled (member : Node) : Prop := member.kind = "pair" ∧ (∃ key, member.memberName = .ok (some key)) ∧
  ∃ value, member.child? "value" = some value ∧ value.IsKnown

/-- What the evaluation of a node goes on to evaluate. -/
@[mk_iff]
inductive Needs (n : Node) : Node → Prop
  | inner {m : Node} (h : n.kind = "parenthesized_expression") (hm : n.namedChildren.head? = some m) : Needs n m
  | argument {m : Node} (h : n.kind = "unary_expression") (ho : (n.child? "operator").isSome = true)
      (hm : n.child? "argument" = some m) : Needs n m
  | left {m : Node} (h : n.kind = "binary_expression") (hm : n.child? "left" = some m) : Needs n m
  | right {m : Node} (h : n.kind = "binary_expression") (hleft : ∃ v, evaluate? (n.child? "left") = .ok v)
      (hm : n.child? "right" = some m) : Needs n m
  | item {m : Node} (h : n.kind = "array") (hm : ComesAfter IsKnown (· = m) n.parts) : Needs n m
  | value {m : Node} (h : n.kind = "object") (hm : ComesAfter IsSettled
      (fun x ↦ x.kind = "pair" ∧ (∃ key, x.memberName = .ok key) ∧ x.child? "value" = some m) n.parts) : Needs n m

@[mk_iff]
inductive BreaksAt (n : Node) : EvalError → Prop
  | escape (h : n.kind = "string") (hcode : n.HasCodeBeyond) : BreaksAt n .overflow
  | operands {operator left right : Node} {v w : Value} (h : n.kind = "binary_expression")
      (ho : n.child? "operator" = some operator) (hl : n.child? "left" = some left)
      (hr : n.child? "right" = some right) (hv : left.evaluate = .ok v) (hw : right.evaluate = .ok w)
      (hbeyond : Arithmetic.IsBeyondFloats operator.text v w) : BreaksAt n .overflow
  | key {e : EvalError} (h : n.kind = "object") (hkey : ComesAfter IsSettled
      (fun x ↦ x.kind = "pair" ∧ ∃ key, x.child? "key" = some key ∧ key.KeyBreaks e) n.parts) : BreaksAt n e

section Equations

theorem evaluateField_eq (field : String) (ns : List Node) :
    evaluateField field ns = evaluate? (ns.find? (·.field = some field)) := by
  induction ns with
  | nil => rw [evaluateField]; rfl
  | cons n ns ih =>
    rw [evaluateField]
    by_cases h : n.field = some field
    · simp [h, evaluate?]
    · simp [h, ih]

theorem evaluateInner_eq (text : Text) (ns : List Node) :
    evaluateInner text ns = match (ns.filter (·.named)).head? with
      | some n => n.evaluate
      | none => .ok (.unevaluated text) := by
  induction ns with
  | nil => rw [evaluateInner]; rfl
  | cons n ns ih =>
    rw [evaluateInner]
    by_cases h : n.named
    · simp [h]
    · simp [h, ih]

theorem evaluate_string (h : n.kind = "string") : n.evaluate = .text <$> Literal.string n.children := by
  cases n
  cases h
  rfl

theorem evaluate_parenthesized (h : n.kind = "parenthesized_expression") :
    n.evaluate = match n.namedChildren.head? with
      | some m => m.evaluate
      | none => .ok (.unevaluated n.text) := by
  cases n
  cases h
  exact evaluateInner_eq _ _

theorem evaluate_unary (h : n.kind = "unary_expression") :
    n.evaluate = match n.child? "operator", n.child? "argument" with
      | some operator, some m => (fun v ↦ if v.isUnevaluated then .unevaluated n.text
          else (Arithmetic.unary operator.text v).getD (.unevaluated n.text)) <$> m.evaluate
      | _, _ => .ok (.unevaluated n.text) := by
  obtain ⟨kind, field, named, missing, start, stop, text, children⟩ := n
  cases h
  rw [evaluate]
  simp [evaluateField_eq, child?, Node.children, Node.text]
  cases children.find? (·.field = some "operator") <;> cases children.find? (·.field = some "argument") <;> rfl

theorem evaluate_binary (h : n.kind = "binary_expression") :
    n.evaluate = (do
      let left ← evaluate? (n.child? "left")
      let right ← evaluate? (n.child? "right")
      match n.child? "operator" with
      | some operator =>
        if left.isUnevaluated || right.isUnevaluated then pure (.unevaluated n.text)
        else
          let v ← Arithmetic.binary operator.text left right
          pure (v.getD (.unevaluated n.text))
      | none => pure (.unevaluated n.text)) := by
  cases n
  cases h
  simp only [child?, ← evaluateField_eq]
  rfl

theorem evaluate_array (h : n.kind = "array") :
    n.evaluate = (fun vs ↦ match vs with
      | some vs => .list vs
      | none => .unevaluated n.text) <$> evaluateItems n.children := by
  cases n
  cases h
  rfl

theorem evaluate_object (h : n.kind = "object") :
    n.evaluate = (fun es ↦ match es with
      | some es => .dict es
      | none => .unevaluated n.text) <$> evaluateMembers [] n.children := by
  cases n
  cases h
  rfl

def partialKinds : List String :=
  ["string", "parenthesized_expression", "unary_expression", "binary_expression", "array", "object"]

theorem exists_evaluate (h : n.kind ∉ partialKinds) : ∃ v, n.evaluate = .ok v := by
  cases n
  simp [partialKinds, kind] at h
  rw [evaluate]
  simp only [h, if_false]
  split_ifs <;> exact ⟨_, rfl⟩

end Equations

section Steps

def items (ns : List Node) : List Node := (ns.filter (·.named)).filter (·.kind ≠ "comment")

theorem items_cons_of_pos (h : (!n.named || n.isComment) = true) (ns : List Node) : items (n :: ns) = items ns := by
  simp only [items, isComment, List.filter_cons] at h ⊢
  grind

theorem items_cons_of_neg (h : ¬(!n.named || n.isComment) = true) (ns : List Node) :
    items (n :: ns) = n :: items ns := by
  simp only [items, isComment, List.filter_cons] at h ⊢
  grind

theorem evaluate?_eq_error_iff {o : Option Node} : evaluate? o = .error e ↔ ∃ m, o = some m ∧ m.evaluate = .error e := by
  cases o with
  | none => simp [evaluate?]
  | some m => simp [evaluate?]

theorem exists_of_evaluate? {o : Option Node} {v : Value} (h : evaluate? o = .ok v) (hknown : v.isUnevaluated = false) :
    ∃ m, o = some m ∧ m.evaluate = .ok v := by
  cases o with
  | none =>
    cases h
    cases hknown
  | some m => exact ⟨m, rfl, h⟩

theorem evaluateItems_eq_error_iff :
    evaluateItems ns = .error e ↔ ComesAfter IsKnown (·.evaluate = .error e) (items ns) := by
  induction ns with
  | nil =>
    rw [evaluateItems]
    exact iff_of_false (by simp) not_comesAfter_nil
  | cons n ns ih =>
    rw [evaluateItems]
    by_cases hskip : (!n.named || n.isComment) = true
    · rw [if_pos hskip, items_cons_of_pos hskip, ih]
    · rw [if_neg hskip, items_cons_of_neg hskip, comesAfter_cons_iff, ← ih, bind_eq_error_iff]
      refine or_congr Iff.rfl ?_
      constructor
      · rintro ⟨v, hv, h⟩
        cases hknown : v.isUnevaluated with
        | true =>
          rw [hknown] at h
          cases h
        | false =>
          rw [hknown, if_neg (by decide), bind_pure_comp, map_eq_error_iff] at h
          exact ⟨⟨v, hv, hknown⟩, h⟩
      · rintro ⟨⟨v, hv, hknown⟩, h⟩
        refine ⟨v, hv, ?_⟩
        rw [hknown, if_neg (by decide), bind_pure_comp, map_eq_error_iff]
        exact h

theorem evaluateMembers_cons (entries : List (Text × Value)) (n : Node) (ns : List Node) :
    evaluateMembers entries (n :: ns) =
      (if (!n.named || n.isComment) = true then evaluateMembers entries ns
      else if n.kind ≠ "pair" then .ok none
      else do
        let key ← n.memberName
        let v ← evaluate? (n.child? "value")
        match key with
        | some key => if v.isUnevaluated then pure none else evaluateMembers (Keyed.put key v entries) ns
        | none => pure none) := by
  cases n
  rw [evaluateMembers]
  simp only [evaluateField_eq]
  rfl

def MemberBreaks (e : EvalError) (member : Node) : Prop := member.kind = "pair" ∧
  (member.memberName = .error e ∨
    (∃ key, member.memberName = .ok key) ∧ ∃ m, member.child? "value" = some m ∧ m.evaluate = .error e)

theorem evaluateMembers_eq_error_iff (entries : List (Text × Value)) :
    evaluateMembers entries ns = .error e ↔ ComesAfter IsSettled (MemberBreaks e) (items ns) := by
  induction ns generalizing entries with
  | nil =>
    rw [evaluateMembers]
    exact iff_of_false (by simp) not_comesAfter_nil
  | cons n ns ih =>
    rw [evaluateMembers_cons]
    by_cases hskip : (!n.named || n.isComment) = true
    · rw [if_pos hskip, items_cons_of_pos hskip, ih]
    rw [if_neg hskip, items_cons_of_neg hskip, comesAfter_cons_iff]
    by_cases hpair : n.kind = "pair"
    · rw [if_neg (not_not.2 hpair), bind_eq_error_iff]
      constructor
      · rintro (h | ⟨key, hkey, h⟩)
        · exact .inl ⟨hpair, .inl h⟩
        rcases bind_eq_error_iff.1 h with h | ⟨v, hv, h⟩
        · exact .inl ⟨hpair, .inr ⟨⟨key, hkey⟩, evaluate?_eq_error_iff.1 h⟩⟩
        cases key with
        | none => cases h
        | some key =>
          cases hknown : v.isUnevaluated with
          | true =>
            simp only [hknown] at h
            cases h
          | false =>
            simp only [hknown] at h
            obtain ⟨m, hm, hmv⟩ := exists_of_evaluate? hv hknown
            exact .inr ⟨⟨hpair, ⟨key, hkey⟩, m, hm, v, hmv, hknown⟩, (ih _).1 h⟩
      · rintro (⟨-, h | ⟨⟨key, hkey⟩, h⟩⟩ | ⟨⟨-, ⟨key, hkey⟩, m, hm, v, hv, hknown⟩, h⟩)
        · exact .inl h
        · exact .inr ⟨key, hkey, bind_eq_error_iff.2 (.inl (evaluate?_eq_error_iff.2 h))⟩
        · refine .inr ⟨some key, hkey, bind_eq_error_iff.2 (.inr ⟨v, ?_, ?_⟩)⟩
          · rw [hm]
            exact hv
          · rw [hknown]
            exact (ih _).2 h
    · rw [if_pos hpair]
      simp [MemberBreaks, IsSettled, hpair]

theorem memberName_eq_error_iff : n.memberName = .error e ↔ ∃ key, n.child? "key" = some key ∧ key.KeyBreaks e := by
  rw [memberName]
  cases n.child? "key" with
  | none => simp
  | some key => simp [keyName_eq_error_iff]

theorem evaluate_unary_eq_error_iff (h : n.kind = "unary_expression") : n.evaluate = .error e ↔
    ∃ m, (n.child? "operator").isSome = true ∧ n.child? "argument" = some m ∧ m.evaluate = .error e := by
  rw [evaluate_unary h]
  cases n.child? "operator" with
  | none => simp
  | some operator =>
    cases n.child? "argument" with
    | none => simp
    | some m =>
      refine map_eq_error_iff.trans ?_
      simp

theorem evaluate_binary_eq_error_iff (h : n.kind = "binary_expression") : n.evaluate = .error e ↔
    (∃ m, n.child? "left" = some m ∧ m.evaluate = .error e) ∨
      ((∃ v, evaluate? (n.child? "left") = .ok v) ∧ ∃ m, n.child? "right" = some m ∧ m.evaluate = .error e) ∨
      ∃ operator left right v w, n.child? "operator" = some operator ∧ n.child? "left" = some left ∧
        n.child? "right" = some right ∧ left.evaluate = .ok v ∧ right.evaluate = .ok w ∧
        Arithmetic.IsBeyondFloats operator.text v w ∧ e = .overflow := by
  rw [evaluate_binary h, bind_eq_error_iff, evaluate?_eq_error_iff]
  refine or_congr Iff.rfl ?_
  constructor
  · rintro ⟨v, hv, h⟩
    rcases bind_eq_error_iff.1 h with h | ⟨w, hw, h⟩
    · exact .inl ⟨⟨v, hv⟩, evaluate?_eq_error_iff.1 h⟩
    cases hoperator : n.child? "operator" with
    | none =>
      rw [hoperator] at h
      cases h
    | some operator =>
      simp only [hoperator] at h
      split at h
      · cases h
      · next hknown =>
        rw [bind_pure_comp, map_eq_error_iff, Arithmetic.binary_eq_error_iff] at h
        obtain ⟨hleft, hright⟩ := h.2.isUnevaluated
        obtain ⟨left, hl, hv⟩ := exists_of_evaluate? hv hleft
        obtain ⟨right, hr, hw⟩ := exists_of_evaluate? hw hright
        exact .inr ⟨operator, left, right, v, w, rfl, hl, hr, hv, hw, h.2, h.1⟩
  · rintro (⟨⟨v, hv⟩, h⟩ | ⟨operator, left, right, v, w, hoperator, hl, hr, hv, hw, hbeyond, he⟩)
    · exact ⟨v, hv, bind_eq_error_iff.2 (.inl (evaluate?_eq_error_iff.2 h))⟩
    · obtain ⟨hleft, hright⟩ := hbeyond.isUnevaluated
      refine ⟨v, by rw [hl]; exact hv, bind_eq_error_iff.2 (.inr ⟨w, by rw [hr]; exact hw, ?_⟩)⟩
      simp only [hoperator, hleft, hright]
      rw [Bool.or_false, if_neg (by decide), bind_pure_comp, map_eq_error_iff, Arithmetic.binary_eq_error_iff]
      exact ⟨he, hbeyond⟩

theorem evaluate_array_eq_error_iff (h : n.kind = "array") : n.evaluate = .error e ↔
    ∃ m, ComesAfter IsKnown (· = m) n.parts ∧ m.evaluate = .error e := by
  rw [evaluate_array h, map_eq_error_iff, evaluateItems_eq_error_iff]
  constructor
  · rintro ⟨before, m, behind, hparts, hbefore, hm⟩
    exact ⟨m, ⟨before, m, behind, hparts, hbefore, rfl⟩, hm⟩
  · rintro ⟨_, ⟨before, m, behind, hparts, hbefore, rfl⟩, hm⟩
    exact ⟨before, m, behind, hparts, hbefore, hm⟩

theorem evaluate_object_eq_error_iff (h : n.kind = "object") : n.evaluate = .error e ↔
    ComesAfter IsSettled (fun x ↦ x.kind = "pair" ∧ ∃ key, x.child? "key" = some key ∧ key.KeyBreaks e) n.parts ∨
      ∃ m, ComesAfter IsSettled (fun x ↦ x.kind = "pair" ∧ (∃ key, x.memberName = .ok key) ∧ x.child? "value" = some m)
        n.parts ∧ m.evaluate = .error e := by
  rw [evaluate_object h, map_eq_error_iff, evaluateMembers_eq_error_iff]
  constructor
  · rintro ⟨before, x, behind, hparts, hbefore, hpair, hkey | ⟨hkey, m, hm, he⟩⟩
    · exact .inl ⟨before, x, behind, hparts, hbefore, hpair, memberName_eq_error_iff.1 hkey⟩
    · exact .inr ⟨m, ⟨before, x, behind, hparts, hbefore, hpair, hkey, hm⟩, he⟩
  · rintro (⟨before, x, behind, hparts, hbefore, hpair, hkey⟩ |
      ⟨m, ⟨before, x, behind, hparts, hbefore, hpair, hkey, hm⟩, he⟩)
    · exact ⟨before, x, behind, hparts, hbefore, hpair, .inl (memberName_eq_error_iff.2 hkey)⟩
    · exact ⟨before, x, behind, hparts, hbefore, hpair, .inr ⟨hkey, m, hm, he⟩⟩

/-- A node whose evaluation breaks off does so of itself or evaluates one that does. -/
theorem evaluate_eq_error_iff : n.evaluate = .error e ↔ n.BreaksAt e ∨ ∃ m, n.Needs m ∧ m.evaluate = .error e := by
  by_cases hkind : n.kind ∈ partialKinds
  · simp only [partialKinds, List.mem_cons, List.not_mem_nil, or_false] at hkind
    rcases hkind with h | h | h | h | h | h
    · rw [evaluate_string h, map_string_eq_error_iff]
      simp [needs_iff, breaksAt_iff, h]
    · rw [evaluate_parenthesized h]
      cases hm : n.namedChildren.head? <;> simp [needs_iff, breaksAt_iff, h, hm]
    · rw [evaluate_unary_eq_error_iff h]
      simp [needs_iff, breaksAt_iff, h, and_assoc]
    · rw [evaluate_binary_eq_error_iff h]
      simp [needs_iff, breaksAt_iff, h, or_and_right, exists_or, and_assoc]
      rw [← or_assoc, or_comm]
    · rw [evaluate_array_eq_error_iff h]
      simp [needs_iff, breaksAt_iff, h]
    · rw [evaluate_object_eq_error_iff h]
      simp [needs_iff, breaksAt_iff, h]
  · obtain ⟨v, hv⟩ := exists_evaluate hkind
    simp [partialKinds] at hkind
    rw [hv]
    simp [needs_iff, breaksAt_iff, hkind]

end Steps

section Runs

theorem sizeOf_lt_of_mem (h : m ∈ n.children) : sizeOf m < sizeOf n := by
  cases n
  have hlt := List.sizeOf_lt_of_mem h
  simp only [mk.sizeOf_spec, children] at hlt ⊢
  omega

theorem mem_children_of_child? {field : String} (h : n.child? field = some m) : m ∈ n.children :=
  List.mem_of_find?_eq_some h

theorem mem_children_of_mem_parts (h : m ∈ n.parts) : m ∈ n.children :=
  List.mem_of_mem_filter (List.mem_of_mem_filter h)

theorem Needs.sizeOf_lt (h : n.Needs m) : sizeOf m < sizeOf n := by
  cases h with
  | inner _ hm => exact sizeOf_lt_of_mem (List.mem_of_mem_filter (List.mem_of_mem_head? hm))
  | argument _ _ hm | left _ hm | right _ _ hm => exact sizeOf_lt_of_mem (mem_children_of_child? hm)
  | item _ hm =>
    obtain ⟨before, _, behind, hparts, -, rfl⟩ := hm
    exact sizeOf_lt_of_mem (mem_children_of_mem_parts (by simp [hparts]))
  | value _ hm =>
    obtain ⟨before, x, behind, hparts, -, -, -, hx⟩ := hm
    have hmem : x ∈ n.children := mem_children_of_mem_parts (by simp [hparts])
    exact (sizeOf_lt_of_mem (mem_children_of_child? hx)).trans (sizeOf_lt_of_mem hmem)

/-- Evaluation breaks off just where it gets to a node at which it breaks off. -/
theorem evaluate_run : n.evaluate = .error e ↔ ∃ m, Relation.ReflTransGen Needs n m ∧ m.BreaksAt e :=
  run_of_step (fun _ ↦ evaluate_eq_error_iff) (fun _ _ h ↦ h.sizeOf_lt) n

end Runs

end Node

end PolymerAnalysis
