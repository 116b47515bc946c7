import PolymerAnalysis.Proofs.Except
import PolymerAnalysis.Proofs.Text.Numeral
import PolymerAnalysis.Syntax.Evaluation

namespace PolymerAnalysis

open Text

variable {e : EvalError} {sequence digits : Text} {number : Nat} {n : Node} {ns : List Node} {c : CodePoint}

namespace Literal

/-- The hexadecimal number that an escape sequence writes. The first code point is the backslash. -/
def Escapes (sequence : Text) (number : Nat) : Prop :=
  ∃ c digits, (sequence = c :: .ofChar 'u' :: .ofChar '{' :: (digits ++ [.ofChar '}']) ∨
    sequence = c :: .ofChar 'u' :: digits ∨ sequence = c :: .ofChar 'x' :: digits) ∧ Numeral.value? 16 digits = some number

def IsBeyondCodes (number : Nat) : Prop := 2 ^ 31 ≤ number

theorem hexEscape_eq_error_iff : hexEscape sequence digits = .error e ↔
    e = .overflow ∧ ∃ number, Numeral.value? 16 digits = some number ∧ IsBeyondCodes number := by
  rw [hexEscape]
  cases hvalue : Numeral.value? 16 digits with
  | none => simp
  | some number =>
    simp only [Option.some.injEq, exists_eq_left', IsBeyondCodes]
    by_cases hcode : number < 0x110000
    · have hsome : CodePoint.ofNat? number = some ⟨number, hcode⟩ := dif_pos hcode
      simp only [hsome]
      exact iff_of_false (by simp) (by omega)
    · have hnone : CodePoint.ofNat? number = none := dif_neg hcode
      simp only [hnone]
      split
      · exact iff_of_false (by simp) (by omega)
      · simp only [Except.error.injEq]
        exact ⟨fun h ↦ ⟨h.symm, by omega⟩, fun h ↦ h.1.symm⟩

theorem value?_brace (t : Text) : Numeral.value? 16 (.ofChar '{' :: t) = none := by
  have hdigit : (CodePoint.ofChar '{').digitValue? 16 = none := by decide
  rw [Numeral.value?, if_neg (by simp), Numeral.valueFrom, hdigit]
  rfl

theorem escapes_brace_iff : Escapes (c :: .ofChar 'u' :: .ofChar '{' :: (digits ++ [.ofChar '}'])) number ↔
    Numeral.value? 16 digits = some number := by
  constructor
  · rintro ⟨b, t, hform, hvalue⟩
    rcases hform with h | h | h
    · simp only [List.cons.injEq, true_and, List.append_cancel_right_eq] at h
      exact h.2 ▸ hvalue
    · simp only [List.cons.injEq, true_and] at h
      rw [← h.2, value?_brace] at hvalue
      cases hvalue
    · simp at h
      exact absurd h.2.1 (by decide)
  · exact fun h ↦ ⟨c, digits, .inl rfl, h⟩

theorem escapes_u_iff (h : ∀ t : Text, digits ≠ .ofChar '{' :: (t ++ [.ofChar '}'])) :
    Escapes (c :: .ofChar 'u' :: digits) number ↔ Numeral.value? 16 digits = some number := by
  constructor
  · rintro ⟨b, t, hform, hvalue⟩
    rcases hform with heq | heq | heq
    · exact absurd (List.cons.inj (List.cons.inj heq).2).2 (h t)
    · simp only [List.cons.injEq, true_and] at heq
      exact heq.2 ▸ hvalue
    · simp at heq
      exact absurd heq.2.1 (by decide)
  · exact fun hvalue ↦ ⟨c, digits, .inr (.inl rfl), hvalue⟩

theorem escapes_x_iff : Escapes (c :: .ofChar 'x' :: digits) number ↔ Numeral.value? 16 digits = some number := by
  constructor
  · rintro ⟨b, t, hform, hvalue⟩
    rcases hform with h | h | h
    · simp at h
      exact absurd h.2.1 (by decide)
    · simp at h
      exact absurd h.2.1 (by decide)
    · simp only [List.cons.injEq, true_and] at h
      exact h.2 ▸ hvalue
  · exact fun h ↦ ⟨c, digits, .inr (.inr rfl), h⟩

theorem not_escapes {d : CodePoint} (hu : d ≠ .ofChar 'u') (hx : d ≠ .ofChar 'x') (rest : Text) :
    ¬Escapes (c :: d :: rest) number := by
  rintro ⟨b, t, hform, -⟩
  rcases hform with h | h | h
  · exact hu (List.cons.inj (List.cons.inj h).2).1
  · exact hu (List.cons.inj (List.cons.inj h).2).1
  · exact hx (List.cons.inj (List.cons.inj h).2).1

theorem not_escapes_single {d : CodePoint} : ¬Escapes [c, d] number := by
  rintro ⟨b, digits, hform, hvalue⟩
  have hdigits : digits = [] := by
    rcases hform with h | h | h
    · simp at h
    · exact (List.cons.inj (List.cons.inj h).2).2.symm
    · exact (List.cons.inj (List.cons.inj h).2).2.symm
  rw [hdigits] at hvalue
  cases hvalue

theorem escape_single (c d : CodePoint) : ∃ t, escape [c, d] = .ok t := by
  cases h : simpleEscapes.lookup d with
  | none => exact ⟨if d = .ofChar '\r' ∨ d = .ofChar '\n' then [] else [d], by simp [escape, h]⟩
  | some r => exact ⟨[r], by simp [escape, h]⟩

theorem escape_of_ne_nil {d : CodePoint} {rest : Text} (h : rest ≠ []) : escape (c :: d :: rest) =
    if d = .ofChar 'u' ∧ rest.head? = some (.ofChar '{') ∧ rest.getLast? = some (.ofChar '}') then
      hexEscape (c :: d :: rest) (rest.drop 1).dropLast
    else if d = .ofChar 'u' ∨ d = .ofChar 'x' then hexEscape (c :: d :: rest) rest
    else if d = .ofChar '\r' ∨ d = .ofChar '\n' then .ok []
    else .ok (d :: rest) := by
  obtain ⟨x, rest, rfl⟩ := List.exists_cons_of_ne_nil h
  rfl

theorem escape_brace (c : CodePoint) (digits : Text) :
    escape (c :: .ofChar 'u' :: .ofChar '{' :: (digits ++ [.ofChar '}'])) =
      hexEscape (c :: .ofChar 'u' :: .ofChar '{' :: (digits ++ [.ofChar '}'])) digits := by
  rw [escape_of_ne_nil (List.cons_ne_nil _ _), if_pos ⟨rfl, rfl, by simp [List.getLast?_cons]⟩]
  simp

theorem escape_u (h : ∀ t : Text, digits ≠ .ofChar '{' :: (t ++ [.ofChar '}'])) (hne : digits ≠ []) :
    escape (c :: .ofChar 'u' :: digits) = hexEscape (c :: .ofChar 'u' :: digits) digits := by
  rw [escape_of_ne_nil hne, if_neg, if_pos (.inl rfl)]
  rintro ⟨-, hhead, hlast⟩
  obtain ⟨rest, rfl⟩ := List.head?_eq_some_iff.1 hhead
  obtain ⟨before, hbefore⟩ := List.getLast?_eq_some_iff.1 hlast
  cases before with
  | nil =>
    cases hbefore
  | cons x before =>
    cases hbefore
    exact h before rfl

theorem escape_x (hne : digits ≠ []) :
    escape (c :: .ofChar 'x' :: digits) = hexEscape (c :: .ofChar 'x' :: digits) digits := by
  rw [escape_of_ne_nil hne, if_neg fun h ↦ absurd h.1 (by decide), if_pos (.inr rfl)]

theorem escape_other {d : CodePoint} {rest : Text} (hu : d ≠ .ofChar 'u') (hx : d ≠ .ofChar 'x') (hne : rest ≠ []) :
    ∃ t, escape (c :: d :: rest) = .ok t := by
  rw [escape_of_ne_nil hne, if_neg fun h ↦ hu h.1, if_neg fun h ↦ h.elim hu hx]
  split <;> exact ⟨_, rfl⟩

/-- A number is too large for a character code just in a hexadecimal escape of a number beyond all of them. -/
theorem escape_eq_error_iff : escape sequence = .error e ↔
    e = .overflow ∧ ∃ number, Escapes sequence number ∧ IsBeyondCodes number := by
  have hnone {t : Text} (h : ∃ r, escape t = .ok r) (hnot : ∀ number, ¬Escapes t number) :
      escape t = .error e ↔ e = .overflow ∧ ∃ number, Escapes t number ∧ IsBeyondCodes number := by
    obtain ⟨r, hr⟩ := h
    rw [hr]
    exact iff_of_false (by simp) fun ⟨_, number, hescapes, _⟩ ↦ hnot number hescapes
  rcases sequence with _ | ⟨a, _ | ⟨d, rest⟩⟩
  · exact hnone ⟨[], rfl⟩ (by simp [Escapes])
  · exact hnone ⟨[], rfl⟩ (by simp [Escapes])
  · by_cases hrest : rest = []
    · rw [hrest]
      exact hnone (escape_single a d) fun _ ↦ not_escapes_single
    by_cases hx : d = .ofChar 'x'
    · simp only [hx, escape_x hrest, hexEscape_eq_error_iff, escapes_x_iff]
    by_cases hu : d = .ofChar 'u'
    · subst hu
      by_cases hbrace : ∃ t : Text, rest = .ofChar '{' :: (t ++ [.ofChar '}'])
      · obtain ⟨t, rfl⟩ := hbrace
        simp only [escape_brace, hexEscape_eq_error_iff, escapes_brace_iff]
      · have hplain (t : Text) : rest ≠ .ofChar '{' :: (t ++ [.ofChar '}']) := fun heq ↦ hbrace ⟨t, heq⟩
        simp only [escape_u hplain hrest, hexEscape_eq_error_iff, escapes_u_iff hplain]
    · exact hnone (escape_other hu hx hrest) fun _ ↦ not_escapes hu hx rest

theorem string_eq_error_iff : string ns = .error e ↔ e = .overflow ∧ ∃ c ∈ ns.filter (·.named),
    c.kind = "escape_sequence" ∧ ∃ number, Escapes c.text number ∧ IsBeyondCodes number := by
  induction ns with
  | nil => simp [string]
  | cons n ns ih =>
    have htail (head : Text) : (do let tail ← string ns; pure (head ++ tail)) = .error e ↔ string ns = .error e := by
      rw [bind_eq_error_iff]
      exact or_iff_left fun ⟨_, _, h⟩ ↦ by cases h
    rw [string]
    by_cases hnamed : n.named
    · rw [if_pos hnamed, List.filter_cons_of_pos hnamed]
      by_cases hescape : n.kind = "escape_sequence"
      · have hhead (e : EvalError) : escape n.text = .error e ↔
            e = .overflow ∧ ∃ number, Escapes n.text number ∧ IsBeyondCodes number := escape_eq_error_iff
        rw [if_pos hescape]
        cases htext : escape n.text with
        | error e' =>
          obtain ⟨rfl, hbeyond⟩ := (hhead _).1 htext
          refine ⟨fun h ↦ ?_, fun h ↦ ?_⟩
          · cases h
            exact ⟨rfl, n, List.mem_cons_self, hescape, hbeyond⟩
          · rw [h.1]
            rfl
        | ok head =>
          have hnone : ¬∃ number, Escapes n.text number ∧ IsBeyondCodes number := fun h ↦ by
            cases htext.symm.trans ((hhead _).2 ⟨rfl, h⟩)
          refine (htail head).trans (ih.trans ?_)
          simp only [List.mem_cons, exists_eq_or_imp, hnone, and_false, false_or]
      · rw [if_neg hescape]
        refine (htail n.text).trans (ih.trans ?_)
        simp only [List.mem_cons, exists_eq_or_imp, hescape, false_and, false_or]
    · rw [if_neg hnamed, List.filter_cons_of_neg hnamed, ← ih]
      exact htail []

end Literal

namespace Node

def HasCodeBeyond (n : Node) : Prop := ∃ c ∈ n.namedChildren, c.kind = "escape_sequence" ∧
  ∃ number, Literal.Escapes c.text number ∧ Literal.IsBeyondCodes number

def IsUnwritable (i : Int) : Prop := 10 ^ Numeral.digitLimit ≤ i.natAbs

theorem string_children_eq_error_iff : Literal.string n.children = .error e ↔ n.HasCodeBeyond ∧ e = .overflow := by
  rw [Literal.string_eq_error_iff, and_comm]
  rfl

def LiteralBreaks (n : Node) (e : EvalError) : Prop :=
  n.kind = "string" ∧ n.HasCodeBeyond ∧ e = .overflow ∨
    n.kind = "number" ∧ e = .limit .writing ∧ ∃ i, Literal.number n.text = .int i ∧ IsUnwritable i

/-- The key has no name for want of the text of a literal. -/
def KeyBreaks (key : Node) (e : EvalError) : Prop :=
  key.kind = "string" ∧ key.HasCodeBeyond ∧ e = .overflow ∨
    key.kind = "computed_property_name" ∧ ∃ inner, key.namedChildren.head? = some inner ∧ inner.LiteralBreaks e

theorem map_string_eq_error_iff {α : Type} (f : Text → α) :
    f <$> Literal.string n.children = .error e ↔ n.HasCodeBeyond ∧ e = .overflow :=
  map_eq_error_iff.trans string_children_eq_error_iff

theorem written_eq_error_iff {i : Int} : (match Numeral.write i with
    | .ok t => .ok (some t)
    | .error e => .error (.limit e) : Except EvalError (Option Text)) = .error e ↔ e = .limit .writing ∧ IsUnwritable i := by
  have hwrite (e : Numeral.LimitError) : Numeral.write i = .error e ↔ e = .writing ∧ IsUnwritable i :=
    Numeral.write_eq_error_iff
  cases h : Numeral.write i with
  | ok t =>
    refine iff_of_false (by simp) fun hbreaks ↦ ?_
    cases h.symm.trans ((hwrite _).2 ⟨rfl, hbreaks.2⟩)
  | error e' =>
    obtain ⟨rfl, hlong⟩ := (hwrite _).1 h
    simp [hlong, eq_comm]

theorem literalName_eq_error_iff : n.literalName = .error e ↔ n.LiteralBreaks e := by
  rw [literalName, LiteralBreaks]
  by_cases hstring : n.kind = "string"
  · rw [if_pos hstring, map_string_eq_error_iff]
    simp [hstring]
  by_cases hnumber : n.kind = "number"
  · rw [if_neg hstring, if_pos hnumber]
    cases hvalue : Literal.number n.text with
    | int i =>
      refine written_eq_error_iff.trans ?_
      simp [hnumber]
    | null | bool | float | text | list | dict | unevaluated => simp [hstring]
  · simp [hstring, hnumber]

theorem keyName_eq_error_iff : n.keyName = .error e ↔ n.KeyBreaks e := by
  rw [keyName, KeyBreaks]
  by_cases hkind : n.kind ∈ keyKinds
  · rw [if_pos hkind]
    have hstring : n.kind ≠ "string" := fun h ↦ by rw [h] at hkind; exact absurd hkind (by decide)
    have hcomputed : n.kind ≠ "computed_property_name" := fun h ↦ by rw [h] at hkind; exact absurd hkind (by decide)
    simp [hstring, hcomputed]
  rw [if_neg hkind]
  by_cases hstring : n.kind = "string"
  · rw [if_pos hstring, map_string_eq_error_iff]
    simp [hstring]
  by_cases hnumber : n.kind = "number"
  · simp [hnumber]
  by_cases hcomputed : n.kind = "computed_property_name"
  · rw [if_neg hstring, if_neg hnumber, if_pos hcomputed]
    cases hinner : n.namedChildren.head? with
    | none => simp [hcomputed]
    | some inner => simp [hcomputed, literalName_eq_error_iff]
  · simp [hstring, hnumber, hcomputed]

end Node

end PolymerAnalysis
