import PolymerAnalysis.Proofs.Syntax.Evaluation

namespace PolymerAnalysis

open Text
open Relation (ReflTransGen)

namespace Arithmetic

variable {operator : Text} {v w x : Value}

theorem isUnevaluated_of_unary (h : unary operator v = some w) : w.isUnevaluated = false := by
  by_cases hnot : operator = "!"
  · rw [hnot] at h
    cases h
    rfl
  cases v with
  | int i =>
    rw [unary, if_neg hnot] at h
    split_ifs at h <;> cases h <;> rfl
  | float a =>
    rw [unary, if_neg hnot] at h
    split_ifs at h <;> cases h <;> rfl
  | null | bool | text | list | dict | unevaluated => simp [unary, hnot] at h

theorem isUnevaluated_of_binary (h : binary operator v w = .ok (some x)) : x.isUnevaluated = false := by
  have hfloat {o : Option Binary64} (h : o.map .float = some x) : x.isUnevaluated = false := by
    obtain ⟨_, -, rfl⟩ := Option.map_eq_some_iff.1 h
    rfl
  have hconverted {i : Int} {b : Bool} {f : Binary64 → Option Binary64} (h : (if b then do
        let a ← toFloat i
        pure ((f a).map .float)
      else .ok none : Except EvalError (Option Value)) = .ok (some x)) : x.isUnevaluated = false := by
    split at h
    · obtain ⟨a, -, h⟩ := exists_of_bind_eq_ok h
      exact hfloat (Except.ok.inj h)
    · cases h
  cases v with
  | int i =>
    cases w with
    | int j =>
      rw [binary] at h
      split at h
      · cases h
        rfl
      split at h
      · cases h
        rfl
      split at h
      · cases h
        rfl
      split at h
      · obtain ⟨a, -, h⟩ := exists_of_bind_eq_ok h
        cases h
        rfl
      · cases h
    | float y => exact hconverted h
    | null | bool | text | list | dict | unevaluated => cases h
  | float a =>
    cases w with
    | int j => exact hconverted h
    | float b => exact hfloat (Except.ok.inj h)
    | null | bool | text | list | dict | unevaluated => cases h
  | text s =>
    cases w with
    | text t =>
      rw [binary] at h
      split at h <;> cases h
      rfl
    | null | bool | int | float | list | dict | unevaluated => cases h
  | null | bool | list | dict | unevaluated => cases w <;> cases h

end Arithmetic

namespace Node

variable {n m c : Node} {s t : Text}

/-- What parentheses enclose; comments in them do not count. -/
def Encloses (n m : Node) : Prop := n.kind = "parenthesized_expression" ∧ n.parts.head? = some m

def BeginsWith (n c : Node) : Prop :=
  n.kind = "parenthesized_expression" ∧ n.namedChildren.head? = some c ∧ c.kind = "comment"

def Opens (n m : Node) : Prop :=
  n.kind = "parenthesized_expression" ∧ n.namedChildren.head? = some m ∧ m.kind ≠ "comment"

/-- There are no parentheses around it. Empty ones, of a syntax error, enclose nothing. -/
def IsBare (n : Node) : Prop := n.kind = "parenthesized_expression" → n.namedChildren = []

/-- The text that is kept of a node without a value. The digits of a number are kept without separators. -/
def keptText (n : Node) : Text := if n.kind = "number" then n.text.filter fun c : CodePoint ↦ c ≠ '_' else n.text

theorem Opens.encloses (h : n.Opens m) : n.Encloses m := by
  obtain ⟨hkind, hhead, hm⟩ := h
  obtain ⟨rest, hrest⟩ := List.head?_eq_some_iff.1 hhead
  refine ⟨hkind, ?_⟩
  rw [parts, hrest, List.filter_cons_of_pos (by simpa using hm), List.head?_cons]

theorem Encloses.unique {k : Node} (h : n.Encloses m) (h' : n.Encloses k) : m = k :=
  Option.some.inj (h.2.symm.trans h'.2)

theorem IsBare.not_encloses (h : n.IsBare) (m : Node) : ¬n.Encloses m := by
  rintro ⟨hkind, hm⟩
  rw [parts, h hkind] at hm
  cases hm

theorem Opens.evaluate (h : n.Opens m) : n.evaluate = m.evaluate := by
  rw [evaluate_parenthesized h.1, h.2.1]

theorem evaluate_comment (h : n.kind = "comment") : n.evaluate = .ok (.unevaluated n.text) := by
  cases n
  cases h
  rfl

theorem BeginsWith.evaluate (h : n.BeginsWith c) : n.evaluate = .ok (.unevaluated c.text) := by
  rw [evaluate_parenthesized h.1, h.2.1]
  exact evaluate_comment h.2.2

theorem number_eq_unevaluated (h : Literal.number s = .unevaluated t) : t = s.filter fun c : CodePoint ↦ c ≠ '_' := by
  rw [Literal.number] at h
  split at h
  · cases h
  split at h
  · cases h
  · cases h
    rfl

theorem eq_of_getD {o : Option Value} (ho : ∀ w, o = some w → w.isUnevaluated = false)
    (h : o.getD (.unevaluated t) = .unevaluated s) : s = t := by
  cases o with
  | none =>
    cases h
    rfl
  | some w =>
    cases h
    cases ho _ rfl

theorem text_of_partial (h : n.evaluate = .ok (.unevaluated s)) (hkind : n.kind ∈ partialKinds)
    (hopen : n.kind ≠ "parenthesized_expression") : s = n.text := by
  simp only [partialKinds, List.mem_cons, List.not_mem_nil, or_false] at hkind
  rcases hkind with hkind | hkind | hkind | hkind | hkind | hkind
  · rw [evaluate_string hkind] at h
    obtain ⟨_, -, h⟩ := exists_of_map_eq_ok h
    cases h
  · exact absurd hkind hopen
  · rw [evaluate_unary hkind] at h
    split at h
    · obtain ⟨v, -, h⟩ := exists_of_map_eq_ok h
      split at h
      · cases h
        rfl
      · exact eq_of_getD (fun _ ↦ Arithmetic.isUnevaluated_of_unary) h
    · cases h
      rfl
  · rw [evaluate_binary hkind] at h
    obtain ⟨v, -, h⟩ := exists_of_bind_eq_ok h
    obtain ⟨w, -, h⟩ := exists_of_bind_eq_ok h
    split at h
    · split at h
      · cases h
        rfl
      · obtain ⟨o, ho, h⟩ := exists_of_bind_eq_ok h
        exact eq_of_getD (fun x hx ↦ Arithmetic.isUnevaluated_of_binary (hx ▸ ho)) (Except.ok.inj h)
    · cases h
      rfl
  · rw [evaluate_array hkind] at h
    obtain ⟨vs, -, h⟩ := exists_of_map_eq_ok h
    cases vs <;> cases h
    rfl
  · rw [evaluate_object hkind] at h
    obtain ⟨es, -, h⟩ := exists_of_map_eq_ok h
    cases es <;> cases h
    rfl

/-- Outside of parentheses an expression without a value keeps its own text. -/
theorem IsBare.eq_keptText (hbare : n.IsBare) (h : n.evaluate = .ok (.unevaluated s)) : s = n.keptText := by
  by_cases hopen : n.kind = "parenthesized_expression"
  · rw [evaluate_parenthesized hopen, hbare hopen] at h
    cases h
    rw [keptText, hopen, if_neg (by decide)]
  by_cases hpartial : n.kind ∈ partialKinds
  · have hnumber : n.kind ≠ "number" := fun heq ↦ by rw [heq] at hpartial; exact absurd hpartial (by decide)
    rw [keptText, if_neg hnumber]
    exact text_of_partial h hpartial hopen
  obtain ⟨kind, field, named, missing, start, stop, text, children⟩ := n
  simp only [partialKinds, Node.kind, List.mem_cons, List.not_mem_nil, or_false, not_or] at hpartial
  rw [Node.evaluate] at h
  simp only [hpartial, if_false] at h
  by_cases hnumber : kind = "number"
  · subst hnumber
    exact number_eq_unevaluated (Except.ok.inj h)
  · simp only [hnumber, if_false] at h
    rw [keptText, Node.kind, if_neg hnumber]
    split_ifs at h <;> cases h <;> rfl

theorem isBare_or (n : Node) : n.IsBare ∨ (∃ c, n.BeginsWith c) ∨ ∃ m, n.Opens m := by
  by_cases hkind : n.kind = "parenthesized_expression"
  · cases hhead : n.namedChildren.head? with
    | none => exact .inl fun _ ↦ List.head?_eq_none_iff.1 hhead
    | some m =>
      by_cases hm : m.kind = "comment"
      · exact .inr (.inl ⟨m, hkind, hhead, hm⟩)
      · exact .inr (.inr ⟨m, hkind, hhead, hm⟩)
  · exact .inl fun h ↦ absurd h hkind

theorem Encloses.evaluate_or (h : n.Encloses m) : n.evaluate = m.evaluate ∨ ∃ c, n.BeginsWith c := by
  rcases n.isBare_or with hbare | hc | ⟨m', hm'⟩
  · exact absurd h (hbare.not_encloses m)
  · exact .inr hc
  · rw [h.unique hm'.encloses]
    exact .inl hm'.evaluate

/-- Where the source of an expression without a value comes from, when evaluation gets no further. -/
def Keeps (n : Node) (s : Text) : Prop := (∃ c, n.BeginsWith c ∧ s = c.text) ∨ n.IsBare ∧ n.evaluate = .ok (.unevaluated s)

theorem evaluate_eq_unevaluated_iff :
    n.evaluate = .ok (.unevaluated s) ↔ n.Keeps s ∨ ∃ m, n.Opens m ∧ m.evaluate = .ok (.unevaluated s) := by
  constructor
  · intro h
    rcases n.isBare_or with hbare | ⟨c, hc⟩ | ⟨m, hm⟩
    · exact .inl (.inr ⟨hbare, h⟩)
    · rw [hc.evaluate] at h
      cases h
      exact .inl (.inl ⟨c, hc, rfl⟩)
    · exact .inr ⟨m, hm, hm.evaluate ▸ h⟩
  · rintro ((⟨c, hc, rfl⟩ | ⟨-, h⟩) | ⟨m, hm, h⟩)
    · exact hc.evaluate
    · exact h
    · exact hm.evaluate.trans h

theorem Opens.sizeOf_lt (h : n.Opens m) : sizeOf m < sizeOf n :=
  sizeOf_lt_of_mem (List.mem_of_mem_filter (List.mem_of_mem_head? h.2.1))

/-- Parentheses have the value of what they enclose, unless they begin with a comment. An expression without a value
keeps the text of that comment, or of the expression that is left without its parentheses. -/
theorem unevaluated_keeps (n : Node) :
    (∀ m, n.Encloses m → (∀ c, ¬n.BeginsWith c) → n.evaluate = m.evaluate) ∧
      (∀ c, n.BeginsWith c → n.evaluate = .ok (.unevaluated c.text)) ∧
      ∀ s, n.evaluate = .ok (.unevaluated s) → ∃ m, ReflTransGen Opens n m ∧
        ((∃ c, m.BeginsWith c ∧ s = c.text) ∨ m.IsBare ∧ s = m.keptText) := by
  refine ⟨fun m hm hnone ↦ ?_, fun c hc ↦ hc.evaluate, fun s h ↦ ?_⟩
  · exact hm.evaluate_or.resolve_right fun ⟨c, hc⟩ ↦ hnone c hc
  · obtain ⟨m, hrun, hm⟩ := (run_of_step (fun _ ↦ evaluate_eq_unevaluated_iff) (fun _ _ h ↦ h.sizeOf_lt) n).1 h
    exact ⟨m, hrun, hm.imp_right fun ⟨hbare, hm⟩ ↦ ⟨hbare, hbare.eq_keptText hm⟩⟩

def wrappedCall : Node :=
  .mk "parenthesized_expression" none true false 0 15 "((f() /* c */))" [
    .mk "(" none false false 0 1 "(" [],
    .mk "parenthesized_expression" none true false 1 14 "(f() /* c */)" [
      .mk "(" none false false 1 2 "(" [],
      .mk "call_expression" none true false 2 5 "f()" [
        .mk "identifier" (some "function") true false 2 3 "f" [],
        .mk "arguments" (some "arguments") true false 3 5 "()" [
          .mk "(" none false false 3 4 "(" [],
          .mk ")" none false false 4 5 ")" []]],
      .mk "comment" none true false 6 13 "/* c */" [],
      .mk ")" none false false 13 14 ")" []],
    .mk ")" none false false 14 15 ")" []]

theorem wrappedCall_keeps : wrappedCall.evaluate = .ok (.unevaluated "f()") ∧ ∃ m, ReflTransGen Opens wrappedCall m ∧
    ((∃ c, m.BeginsWith c ∧ ("f()" : Text) = c.text) ∨ m.IsBare ∧ "f()" = m.keptText) := by
  have h : wrappedCall.evaluate = .ok (.unevaluated "f()") := by cbv
  exact ⟨h, (unevaluated_keeps wrappedCall).2.2 _ h⟩

def commentedOne : Node :=
  .mk "parenthesized_expression" none true false 0 11 "(/* c */ 1)" [
    .mk "(" none false false 0 1 "(" [],
    .mk "comment" none true false 1 8 "/* c */" [],
    .mk "number" none true false 9 10 "1" [],
    .mk ")" none false false 10 11 ")" []]

def separatedBigint : Node := .mk "number" none true false 0 4 "1_0n" []

/-- Neither does a comment leave the value of what the parentheses enclose alone, nor is a number kept as written. -/
theorem comment_or_digits_kept :
    (∀ n ∈ commentedOne.preorder ++ separatedBigint.preorder, n.isFault = false) ∧
      (∃ m, commentedOne.Encloses m ∧ m.evaluate = .ok (.int 1)) ∧
      commentedOne.evaluate = .ok (.unevaluated "/* c */") ∧ separatedBigint.evaluate = .ok (.unevaluated "10n") := by
  exact ⟨by decide, ⟨.mk "number" none true false 9 10 "1" [], ⟨rfl, rfl⟩, rfl⟩, rfl, rfl⟩

end Node

end PolymerAnalysis
