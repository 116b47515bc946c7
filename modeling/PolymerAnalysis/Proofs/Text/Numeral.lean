import PolymerAnalysis.Text.Numeral
import Mathlib.Algebra.Order.Ring.Nat
import Mathlib.Data.List.Basic

namespace PolymerAnalysis

theorem CodePoint.eq_of_val {c d : CodePoint} (h : c.val = d.val) : c = d := by
  cases c
  cases d
  cases h
  rfl

namespace Text

structure IsNumeral (t : Text) : Prop where
  ne_nil : t ≠ []
  isDigit : ∀ c ∈ t, c.isDigit
  canonical : t.head? = some (.ofChar '0') → t = [.ofChar '0']

namespace Numeral

variable {c : CodePoint} {t u : Text} {base n d : Nat}

theorem isDigit_iff : c.isDigit ↔ 48 ≤ c.val ∧ c.val ≤ 57 := by
  rw [CodePoint.isDigit, Bool.and_eq_true, decide_eq_true_eq, decide_eq_true_eq]

theorem digitValue?_eq_some_iff : c.digitValue? 10 = some d ↔ c.isDigit ∧ d = c.val - 48 := by
  simp only [CodePoint.digitValue?, CodePoint.isDigit, CodePoint.isUpper, CodePoint.isLower, Option.filter_eq_some_iff]
  grind

theorem valueFrom_append (base start : Nat) (t u : Text) :
    valueFrom base start (t ++ u) = (valueFrom base start t).bind fun m ↦ valueFrom base m u := by
  induction t generalizing start with
  | nil => rfl
  | cons c t ih =>
    rw [List.cons_append, valueFrom, valueFrom]
    cases c.digitValue? base with
    | none => rfl
    | some d => exact ih (start * base + d)

theorem valueFrom_zeros (hbase : 0 < base) (start k : Nat) :
    valueFrom base start (List.replicate k (.ofChar '0')) = some (start * base ^ k) := by
  induction k generalizing start with
  | zero => simp [valueFrom]
  | succ k ih =>
    have hzero : (CodePoint.ofChar '0').digitValue? base = some 0 := by
      rw [CodePoint.digitValue?, if_pos (by decide)]
      exact Option.filter_some_pos (decide_eq_true hbase)
    rw [List.replicate_succ, valueFrom, hzero, Option.bind_some, ih, Nat.add_zero, Nat.mul_assoc, ← Nat.pow_succ']

theorem valueFrom_zeros_append (hbase : 0 < base) (k : Nat) (t : Text) :
    valueFrom base 0 (List.replicate k (.ofChar '0') ++ t) = valueFrom base 0 t := by
  rw [valueFrom_append, valueFrom_zeros hbase, Nat.zero_mul, Option.bind_some]

theorem isSome_valueFrom_iff (start : Nat) (t : Text) : (valueFrom 10 start t).isSome ↔ ∀ c ∈ t, c.isDigit := by
  induction t generalizing start with
  | nil => simp [valueFrom]
  | cons c t ih =>
    rw [valueFrom, List.forall_mem_cons]
    by_cases hc : c.isDigit
    · rw [digitValue?_eq_some_iff.2 ⟨hc, rfl⟩, Option.bind_some, ih]
      exact (and_iff_right hc).symm
    · have hnone : c.digitValue? 10 = none :=
        Option.eq_none_iff_forall_ne_some.2 fun d hd ↦ hc (digitValue?_eq_some_iff.1 hd).1
      rw [hnone]
      exact ⟨fun h ↦ (by cases h), fun h ↦ absurd h.1 hc⟩

theorem isSome_value?_iff : (value? 10 t).isSome ↔ t ≠ [] ∧ ∀ c ∈ t, c.isDigit := by
  cases t with
  | nil => exact ⟨fun h ↦ (by cases h), fun h ↦ absurd rfl h.1⟩
  | cons c t =>
    rw [value?, if_neg (by simp), isSome_valueFrom_iff]
    exact (and_iff_right (List.cons_ne_nil c t)).symm

theorem ofNat_of_lt (h : d < 10) : ofNat d = [.ofChar d.digitChar] := by
  rw [ofNat, Nat.toDigits_of_lt_base h]
  rfl

theorem ofNat_append (hn : 0 < n) (hd : d < 10) : ofNat n ++ ofNat d = ofNat (n * 10 + d) := by
  rw [ofNat, ofNat, ← List.map_append, Nat.toDigits_append_toDigits (by decide) hn hd, ofNat, Nat.mul_comm]

theorem val_digitChar (h : d < 10) : (CodePoint.ofChar d.digitChar).val = 48 + d := Nat.toNat_digitChar_of_lt_ten h

theorem isDigit_digitChar (h : d < 10) : (CodePoint.ofChar d.digitChar).isDigit := by
  rw [isDigit_iff, val_digitChar h]
  omega

/-- A number is made of the digits before the last one and the last one. -/
theorem induction_on_digits {P : Nat → Prop} (hdigit : ∀ d < 10, P d)
    (happend : ∀ n d, 0 < n → d < 10 → P n → P (n * 10 + d)) (n : Nat) : P n := by
  induction n using Nat.strongRecOn with
  | ind n ih =>
    by_cases hn : n < 10
    · exact hdigit n hn
    · have hsplit : n = n / 10 * 10 + n % 10 := by omega
      rw [hsplit]
      exact happend _ _ (by omega) (by omega) (ih _ (by omega))

theorem ofNat_ne_nil (n : Nat) : ofNat n ≠ [] := by
  rw [ofNat, ne_eq, List.map_eq_nil_iff]
  exact Nat.toDigits_ne_nil

theorem valueFrom_ofNat (n : Nat) : valueFrom 10 0 (ofNat n) = some n := by
  induction n using induction_on_digits with
  | hdigit d hd =>
    rw [ofNat_of_lt hd, valueFrom, digitValue?_eq_some_iff.2 ⟨isDigit_digitChar hd, rfl⟩, val_digitChar hd]
    simp [valueFrom]
  | happend n d hn hd ih =>
    rw [← ofNat_append hn hd, valueFrom_append, ih, Option.bind_some, ofNat_of_lt hd, valueFrom,
      digitValue?_eq_some_iff.2 ⟨isDigit_digitChar hd, rfl⟩, val_digitChar hd]
    simp [valueFrom]

theorem value?_ofNat (n : Nat) : value? 10 (ofNat n) = some n := by
  rw [value?, if_neg (by simpa using ofNat_ne_nil n), valueFrom_ofNat]

theorem head?_ofNat_ne (h : 0 < n) : (ofNat n).head? ≠ some (.ofChar '0') := by
  induction n using induction_on_digits with
  | hdigit d hd =>
    rw [ofNat_of_lt hd, List.head?_cons]
    intro heq
    have hval : 48 + d = 48 := (val_digitChar hd).symm.trans (congrArg CodePoint.val (Option.some.inj heq))
    omega
  | happend m d hm hd ih =>
    rw [← ofNat_append hm hd, List.head?_append_of_ne_nil _ (ofNat_ne_nil m)]
    exact ih hm

theorem isNumeral_ofNat (n : Nat) : IsNumeral (ofNat n) where
  ne_nil := ofNat_ne_nil n
  isDigit := (isSome_value?_iff.1 (Option.isSome_of_eq_some (value?_ofNat n))).2
  canonical h := by
    rcases Nat.eq_zero_or_pos n with rfl | hn
    · rfl
    · exact absurd h (head?_ofNat_ne hn)

theorem digit_lt (hc : c.isDigit) : c.val - 48 < 10 := by
  have hval := isDigit_iff.1 hc
  omega

theorem ofNat_digit (hc : c.isDigit) : ofNat (c.val - 48) = [c] := by
  have hval := isDigit_iff.1 hc
  rw [ofNat_of_lt (digit_lt hc), List.singleton_inj]
  refine CodePoint.eq_of_val ?_
  rw [val_digitChar (digit_lt hc)]
  omega

/-- Reading on from a number with digits gives the number with those digits behind its own. -/
theorem ofNat_append_of_valueFrom {m : Nat} (hm : 0 < m) (h : valueFrom 10 m t = some n) : ofNat m ++ t = ofNat n := by
  induction t generalizing m with
  | nil =>
    cases h
    exact List.append_nil _
  | cons c t ih =>
    rw [valueFrom] at h
    obtain ⟨d, hd, h⟩ := Option.bind_eq_some_iff.1 h
    obtain ⟨hc, rfl⟩ := digitValue?_eq_some_iff.1 hd
    rw [← ih (Nat.add_pos_left (Nat.mul_pos hm (by decide)) _) h, ← ofNat_append hm (digit_lt hc), ofNat_digit hc,
      List.append_assoc]
    rfl

theorem length_ofNat_le_iff {k : Nat} (hk : 0 < k) : (ofNat n).length ≤ k ↔ n < 10 ^ k := by
  rw [ofNat, List.length_map]
  exact Nat.length_toDigits_le_iff (by decide) hk

/-- Writing an integer fails just beyond the limit on digits. -/
theorem write_eq_error_iff {i : Int} {e : LimitError} : write i = .error e ↔ e = .writing ∧ 10 ^ digitLimit ≤ i.natAbs := by
  rw [← Nat.not_lt, ← length_ofNat_le_iff (by decide), Nat.not_le, write]
  split
  · next h => simp [h, eq_comm]
  · next h => simp [h]

end Numeral

open Numeral in
theorem IsNumeral.eq_ofNat {t : Text} {n : Nat} (ht : t.IsNumeral) (h : value? 10 t = some n) : t = ofNat n := by
  cases t with
  | nil => exact absurd rfl ht.ne_nil
  | cons c t =>
    by_cases hc : c = .ofChar '0'
    · have hzero := ht.canonical (congrArg some hc)
      rw [hzero] at h ⊢
      cases h
      rfl
    · rw [value?, if_neg (by simp), valueFrom] at h
      obtain ⟨d, hd, h⟩ := Option.bind_eq_some_iff.1 h
      obtain ⟨hdigit, rfl⟩ := digitValue?_eq_some_iff.1 hd
      have hpos : 0 < c.val - 48 := by
        have hval := isDigit_iff.1 hdigit
        have hne : c.val ≠ 48 := fun heq ↦ hc (CodePoint.eq_of_val heq)
        omega
      rw [Nat.zero_mul, Nat.zero_add] at h
      rw [← ofNat_append_of_valueFrom hpos h, ofNat_digit hdigit]
      rfl

end Text

end PolymerAnalysis
