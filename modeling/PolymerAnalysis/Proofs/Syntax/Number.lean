import PolymerAnalysis.Proofs.Text.Case
import PolymerAnalysis.Proofs.Text.Numeral
import PolymerAnalysis.Syntax.Literal
import Mathlib.Data.List.TakeWhile

namespace PolymerAnalysis

open Text

namespace Literal

open Numeral

variable {b d k m : Nat} {c : CodePoint} {t u : Text}

def baseOf? (mark : CodePoint) : Option Nat :=
  if mark = 'x' ∨ mark = 'X' then some 16
  else if mark = 'o' ∨ mark = 'O' then some 8
  else if mark = 'b' ∨ mark = 'B' then some 2
  else none

def digits (t : Text) : Text := t.filter fun c : CodePoint ↦ c ≠ '_'

/-- The integer that a literal stands for. Digits behind a leading zero are octal ones if they can be. -/
def integerOf? : Text → Option Nat
  | zero :: mark :: rest =>
    if zero ≠ '0' then value? 10 (digits (zero :: mark :: rest))
    else match baseOf? mark with
      | some b => value? b (digits rest)
      | none => (value? 8 (mark :: rest)).or (value? 10 (mark :: rest))
  | t => value? 10 t

/-- The digits are decimal, but too many, or zeros stand before the first one that counts. -/
def IsMisread (t : Text) : Prop :=
  ∃ m ∈ value? 10 (digits t), digitLimit < (digits t).length ∨ (digits t).head? = some (.ofChar '0') ∧ m ≠ 0

instance (t : Text) : Decidable (IsMisread t) := inferInstanceAs (Decidable (∃ m ∈ value? 10 (digits t), _))

theorem isDigit_of_value? (h : value? 10 t = some m) : ∀ c ∈ t, c.isDigit :=
  (isSome_value?_iff.1 (Option.isSome_of_eq_some h)).2

theorem ne_of_isDigit {letter : CodePoint} (hc : c.isDigit) (hletter : letter.isDigit = false) : c ≠ letter := by
  rintro rfl
  rw [hc] at hletter
  cases hletter

theorem digits_of_isDigit (h : ∀ c ∈ t, c.isDigit) : digits t = t :=
  List.filter_eq_self.2 fun c hc ↦ decide_eq_true (ne_of_isDigit (h c hc) (by decide))

theorem lower_of_isDigit (h : ∀ c ∈ t, c.isDigit) : t.lower = t := by
  have hval (c : CodePoint) (hc : c ∈ t) : 48 ≤ c.val ∧ c.val ≤ 57 := isDigit_iff.1 (h c hc)
  have hascii : t.IsAscii := fun c hc ↦ (hval c hc).2.trans_lt (by decide)
  have hupper (c : CodePoint) (hc : c ∈ t) : c.isUpper = false := by
    have hdigit := hval c hc
    simp only [CodePoint.isUpper, Bool.and_eq_false_iff, decide_eq_false_iff_not]
    omega
  rw [hascii.lower_eq, List.flatMap_congr fun c hc ↦ lower_of_not_isUpper (hascii c hc) (hupper c hc)]
  exact List.flatMap_singleton' t

theorem lt_of_digitValue? (h : c.digitValue? b = some d) : d < b :=
  of_decide_eq_true (Option.filter_eq_some_iff.1 h).2

/-- A digit has one value in all bases that have it. -/
theorem digitValue?_iff_of_lt {b' : Nat} (hb : d < b) (hb' : d < b') :
    c.digitValue? b = some d ↔ c.digitValue? b' = some d := by
  rw [CodePoint.digitValue?, CodePoint.digitValue?, Option.filter_eq_some_iff, Option.filter_eq_some_iff]
  exact and_congr_right fun _ ↦ iff_of_true (decide_eq_true hb) (decide_eq_true hb')

theorem exists_digitValue? (h : valueFrom b m t = some k) : ∀ c ∈ t, ∃ d, c.digitValue? b = some d := by
  induction t generalizing m with
  | nil => exact fun c hc ↦ absurd hc List.not_mem_nil
  | cons c t ih =>
    rw [valueFrom] at h
    obtain ⟨d, hd, hrest⟩ := Option.bind_eq_some_iff.1 h
    exact List.forall_mem_cons.2 ⟨⟨d, hd⟩, ih hrest⟩

/-- Reading digits from zero gives zero just if all of them are zeros, in any base. -/
theorem valueFrom_eq_zero_iff (hb : 0 < b) : valueFrom b m t = some 0 ↔ m = 0 ∧ ∀ c ∈ t, c.digitValue? b = some 0 := by
  induction t generalizing m with
  | nil => simp [valueFrom]
  | cons c t ih =>
    rw [valueFrom, List.forall_mem_cons, Option.bind_eq_some_iff]
    simp only [ih]
    constructor
    · rintro ⟨d, hd, hzero, hrest⟩
      obtain ⟨hm, rfl⟩ := Nat.add_eq_zero_iff.1 hzero
      exact ⟨(Nat.mul_eq_zero.1 hm).resolve_right hb.ne', hd, hrest⟩
    · rintro ⟨rfl, hd, hrest⟩
      exact ⟨0, hd, by simp, hrest⟩

theorem valueFrom_of_value? (h : value? b t = some k) : valueFrom b 0 t = some k := by
  rw [value?] at h
  split at h
  · cases h
  · exact h

theorem isDigit_of_octal (h : value? 8 t = some k) : ∀ c ∈ t, c.isDigit := by
  intro c hc
  obtain ⟨d, hd⟩ := exists_digitValue? (valueFrom_of_value? h) c hc
  have hlt : d < 8 := lt_of_digitValue? hd
  exact (digitValue?_eq_some_iff.1 ((digitValue?_iff_of_lt hlt (by omega)).1 hd)).1

/-- Nothing but zeros is zero in octal and in decimal. -/
theorem octal_of_decimal_zero (h : value? 10 t = some 0) : value? 8 t = some 0 := by
  have hzeros := ((valueFrom_eq_zero_iff (by decide)).1 (valueFrom_of_value? h)).2
  have hne : t ≠ [] := (isSome_value?_iff.1 (Option.isSome_of_eq_some h)).1
  rw [value?, if_neg (by simpa using hne), valueFrom_eq_zero_iff (by decide)]
  exact ⟨rfl, fun c hc ↦ (digitValue?_iff_of_lt (by decide) (by decide)).1 (hzeros c hc)⟩

/-- Decimal digits are read as an integer if there are not too many and the first one counts. -/
theorem integer?_of_value? (h : value? 10 t = some m) :
    integer? t = if digitLimit < t.length ∨ t.head? = some (.ofChar '0') ∧ m ≠ 0 then none else some m := by
  have hdigit : ∀ c ∈ t.take 2, c.isDigit := fun c hc ↦ isDigit_of_value? h c (List.mem_of_mem_take hc)
  have hmark (letter : CodePoint) (hletter : letter.isDigit = false) : t.take 2 ≠ [.ofChar '0', letter] := by
    intro heq
    have hmem : letter ∈ t.take 2 := by
      rw [heq]
      exact List.mem_cons_of_mem _ List.mem_cons_self
    exact ne_of_isDigit (hdigit letter hmem) hletter rfl
  have hx : t.take 2 ≠ ("0x" : Text) := hmark 'x' (by decide)
  have ho : t.take 2 ≠ ("0o" : Text) := hmark 'o' (by decide)
  have hb : t.take 2 ≠ ("0b" : Text) := hmark 'b' (by decide)
  rw [integer?, lower_of_isDigit hdigit, if_neg hx, if_neg ho, if_neg hb, h]
  by_cases hlimit : digitLimit < t.length
  · rw [if_pos hlimit, if_pos (.inl hlimit)]
  · rw [if_neg hlimit]
    by_cases hzero : t.head? = some (.ofChar '0') ∧ m ≠ 0
    · rw [if_pos (.inr hzero), Option.filter_some, if_neg]
      simp [hzero]
    · rw [if_neg (not_or.2 ⟨hlimit, hzero⟩), Option.filter_some, if_pos]
      simpa [or_iff_not_imp_left] using hzero

theorem integer?_of_mark {mark : CodePoint} (h : baseOf? mark = some b) (rest : Text) :
    integer? (digits (.ofChar '0' :: mark :: rest)) = value? b (digits rest) := by
  have hletter : mark = 'x' ∧ b = 16 ∨ mark = 'X' ∧ b = 16 ∨ mark = 'o' ∧ b = 8 ∨ mark = 'O' ∧ b = 8 ∨
      mark = 'b' ∧ b = 2 ∨ mark = 'B' ∧ b = 2 := by
    rw [baseOf?] at h
    split_ifs at h <;> cases h <;> tauto
  rcases hletter with ⟨rfl, rfl⟩ | ⟨rfl, rfl⟩ | ⟨rfl, rfl⟩ | ⟨rfl, rfl⟩ | ⟨rfl, rfl⟩ | ⟨rfl, rfl⟩ <;> rfl

theorem isDigit_of_legacy (h : (value? 8 t).or (value? 10 t) = some k) : ∀ c ∈ t, c.isDigit := by
  cases hoctal : value? 8 t with
  | some i => exact isDigit_of_octal hoctal
  | none =>
    rw [hoctal, Option.none_or] at h
    exact isDigit_of_value? h

theorem integer?_digits (h : integerOf? t = some k) (hread : ¬IsMisread t) : integer? (digits t) = some k := by
  have hdecimal {m : Nat} (hm : value? 10 (digits t) = some m) :
      integer? (digits t) = some m ∧ ((digits t).head? = some (.ofChar '0') → m = 0) := by
    have hnot : ¬(digitLimit < (digits t).length ∨ (digits t).head? = some (.ofChar '0') ∧ m ≠ 0) :=
      fun hbad ↦ hread ⟨m, hm, hbad⟩
    rw [integer?_of_value? hm, if_neg hnot]
    exact ⟨rfl, fun hhead ↦ by_contra fun hne ↦ hnot (.inr ⟨hhead, hne⟩)⟩
  match t with
  | [] => cases h
  | [c] =>
    have hone : digits [c] = [c] := digits_of_isDigit (isDigit_of_value? h)
    rw [hone] at hdecimal ⊢
    exact (hdecimal h).1
  | zero :: mark :: rest =>
    rw [integerOf?] at h
    split at h
    · exact (hdecimal h).1
    next hzero =>
    obtain rfl : zero = .ofChar '0' := not_not.1 hzero
    cases hmark : baseOf? mark with
    | some b =>
      rw [hmark] at h
      rw [integer?_of_mark hmark]
      exact h
    | none =>
      rw [hmark] at h
      have hdigit : ∀ c ∈ .ofChar '0' :: mark :: rest, c.isDigit :=
        List.forall_mem_cons.2 ⟨by decide, isDigit_of_legacy h⟩
      obtain ⟨m, hm⟩ := Option.isSome_iff_exists.1 (isSome_value?_iff.2 ⟨List.cons_ne_nil _ _, hdigit⟩)
      rw [digits_of_isDigit hdigit] at hdecimal ⊢
      -- behind a leading zero only zeros are not misread, and these are zero in octal as well
      obtain rfl : m = 0 := (hdecimal hm).2 rfl
      have hzeros : value? 8 (mark :: rest) = some 0 := octal_of_decimal_zero hm
      rw [hzeros, Option.some_or] at h
      exact (hdecimal hm).1.trans h

theorem number_of_integerOf? (h : integerOf? t = some k) (hread : ¬IsMisread t) : number t = .int k := by
  have hinteger : integer? (t.filter fun c : CodePoint ↦ c ≠ '_') = some k := integer?_digits h hread
  simp only [number, hinteger]

theorem ofText?_of_value? (h : value? 10 t = some m) : Binary64.ofText? t = some (.ofDecimal false m 0) := by
  have hdigit := isDigit_of_value? h
  cases t with
  | nil => cases h
  | cons c t =>
    have hc : c.isDigit := hdigit c List.mem_cons_self
    have hname (name : Text) (hfirst : ∃ letter ∈ name.head?, letter.isDigit = false) : c :: t ≠ name := by
      rintro rfl
      obtain ⟨letter, hmem, hletter⟩ := hfirst
      cases hmem
      exact ne_of_isDigit hc hletter rfl
    have hinf : c :: t ≠ ("inf" : Text) := hname _ ⟨'i', rfl, by decide⟩
    have hinfinity : c :: t ≠ ("infinity" : Text) := hname _ ⟨'i', rfl, by decide⟩
    have hnan : c :: t ≠ ("nan" : Text) := hname _ ⟨'n', rfl, by decide⟩
    have hminus : c ≠ '-' := ne_of_isDigit hc (by decide)
    have hplus : c ≠ '+' := ne_of_isDigit hc (by decide)
    rw [Binary64.ofText?]
    simp only [if_neg hminus, if_neg hplus, lower_of_isDigit hdigit, if_neg hnan, hinf, hinfinity, or_self, if_false]
    rw [Binary64.unsigned?, List.takeWhile_eq_self_iff.2 hdigit, List.dropWhile_eq_nil_iff.2 hdigit]
    simp [h]

/-- A literal that is misread is rounded to a float, with all its digits taken for decimal ones. -/
theorem number_of_isMisread (h : IsMisread t) :
    ∃ m, value? 10 (digits t) = some m ∧ number t = .float (.ofDecimal false m 0) := by
  obtain ⟨m, hm, hbad⟩ := h
  have hinteger : integer? (t.filter fun c : CodePoint ↦ c ≠ '_') = none := (integer?_of_value? hm).trans (if_pos hbad)
  have hfloat : Binary64.ofText? (t.filter fun c : CodePoint ↦ c ≠ '_') = some (.ofDecimal false m 0) :=
    ofText?_of_value? hm
  refine ⟨m, hm, ?_⟩
  simp only [number, hinteger, hfloat]

example : integerOf? "017" = some 15 ∧ IsMisread "017" := by decide

end Literal

end PolymerAnalysis
