import PolymerAnalysis.Proofs.Binary64.Rounding
import PolymerAnalysis.Proofs.Text.Numeral
import Mathlib.Algebra.Order.Field.Power
import Mathlib.Algebra.Order.Field.Rat
import Mathlib.Tactic.FieldSimp
import Mathlib.Tactic.Linarith
import Mathlib.Tactic.NormNum
import Mathlib.Tactic.Positivity

namespace PolymerAnalysis.Binary64

open Text

variable {negative : Bool} {num den m p digits : Nat} {leading exponent : Int} {x : Decimal}

theorem ten_pow_pos (e : Int) : 0 < (10 : ℚ) ^ e := zpow_pos (by norm_num) e

section Values

def Decimal.value (d : Decimal) : ℚ := d.digits * 10 ^ d.exponent

def Interval.Has (i : Interval) (q : ℚ) : Prop :=
  (i.low < q ∨ i.closed ∧ i.low = q) ∧ (q < i.high ∨ i.closed ∧ q = i.high)

theorem contains_iff_has (i : Interval) (hden : 0 < den) : i.contains num den = true ↔ i.Has (num / den) := by
  have hpos : (0 : ℚ) < den := Nat.cast_pos.2 hden
  rw [contains_iff, Interval.Has, lt_div_iff₀ hpos, div_lt_iff₀ hpos, eq_div_iff hpos.ne', div_eq_iff hpos.ne']
  norm_cast

def tenNum (e : Int) : Nat := if 0 ≤ e then Nat.pow 10 e.toNat else 1

def tenDen (e : Int) : Nat := if 0 ≤ e then 1 else Nat.pow 10 (-e).toNat

theorem tenNum_pos (e : Int) : 0 < tenNum e := by
  rw [tenNum]
  split
  · exact Nat.pow_pos (by decide)
  · exact Nat.one_pos

theorem tenDen_pos (e : Int) : 0 < tenDen e := by
  rw [tenDen]
  split
  · exact Nat.one_pos
  · exact Nat.pow_pos (by decide)

theorem zpow_eq_div (e : Int) : (10 : ℚ) ^ e = tenNum e / tenDen e := by
  rw [tenNum, tenDen]
  by_cases he : 0 ≤ e
  · obtain ⟨n, rfl⟩ := Int.eq_ofNat_of_zero_le he
    simp
  · obtain ⟨n, hn⟩ := Int.eq_ofNat_of_zero_le (show 0 ≤ -e by omega)
    obtain rfl : e = -n := by omega
    rw [if_neg he, if_neg he, hn]
    simp

theorem contains_iff_has_mul_zpow (i : Interval) (k : Nat) (e : Int) :
    i.contains (4 * scale * (k * tenNum e)) (tenDen e) = true ↔ i.Has (4 * scale * (k * 10 ^ e)) := by
  rw [contains_iff_has _ (tenDen_pos e), zpow_eq_div e]
  push_cast
  rw [mul_div_assoc, mul_div_assoc]

end Values

section Digits

theorem lt_ten_pow_length (n : Nat) : n < 10 ^ (Nat.toDigits 10 n).length :=
  (Nat.length_toDigits_le_iff (by decide) Nat.length_toDigits_pos).1 le_rfl

theorem ten_pow_le {n : Nat} (hn : 0 < n) : 10 ^ ((Nat.toDigits 10 n).length - 1) ≤ n := by
  by_contra hlt
  have hlength : 0 < (Nat.toDigits 10 n).length - 1 := by
    refine Nat.pos_of_ne_zero fun hzero ↦ hlt ?_
    rw [hzero]
    exact hn
  have hle := (Nat.length_toDigits_le_iff (by decide) hlength).2 (Nat.not_le.1 hlt)
  omega

/-- The power of ten with the leading exponent of a quotient is not beyond it. -/
theorem ten_pow_leadingExponent_le (hnum : 0 < num) (hden : 0 < den) :
    (10 : ℚ) ^ leadingExponent num den ≤ num / den := by
  have hpos : (0 : ℚ) < den := Nat.cast_pos.2 hden
  rw [leadingExponent, le_div_iff₀ hpos]
  split
  · next hle =>
    have hten := ten_pow_le (Nat.div_pos hle hden)
    have hlength : 0 < (Nat.toDigits 10 (num / den)).length := Nat.length_toDigits_pos
    rw [Nat.le_div_iff_mul_le hden] at hten
    generalize (Nat.toDigits 10 (num / den)).length = size at hten hlength
    obtain ⟨k, rfl⟩ := Nat.exists_eq_succ_of_ne_zero hlength.ne'
    rw [Nat.cast_succ, add_sub_cancel_right, zpow_natCast]
    exact_mod_cast hten
  · have hten := lt_ten_pow_length (den / num)
    have hlength : 0 < (Nat.toDigits 10 (den / num)).length := Nat.length_toDigits_pos
    rw [Nat.div_lt_iff_lt_mul hnum] at hten
    simp only
    generalize (Nat.toDigits 10 (den / num)).length = size at hten hlength
    split
    · next heq =>
      obtain ⟨k, rfl⟩ := Nat.exists_eq_succ_of_ne_zero hlength.ne'
      have hexponent : (1 : Int) - (k.succ : Nat) = -(k : Int) := by omega
      rw [hexponent, zpow_neg, zpow_natCast, inv_mul_le_iff₀ (by positivity), heq]
      exact_mod_cast (Nat.mul_comm _ _).le
    · rw [zpow_neg, zpow_natCast, inv_mul_le_iff₀ (by positivity)]
      exact_mod_cast hten.le

end Digits

section Candidates

theorem high_eq (m p : Nat) : ((interval m p).high : ℚ) = 4 * m * 2 ^ p + 2 * 2 ^ p := by
  simp only [interval, Nat.shiftLeft_eq]
  push_cast
  rfl

theorem low_eq (hm : m ≠ 0) : ((interval m p).low : ℚ) =
    4 * m * 2 ^ p - if m = leastNormal ∧ p ≠ 0 then 2 ^ p else 2 * 2 ^ p := by
  have hle : 1 * 2 ^ p ≤ m * 2 ^ p := Nat.mul_le_mul_right _ (Nat.pos_of_ne_zero hm)
  have hfour : 4 * m * 2 ^ p = 4 * (m * 2 ^ p) := Nat.mul_assoc 4 m _
  simp only [interval, Nat.shiftLeft_eq]
  split
  · rw [Nat.cast_sub (by omega)]
    push_cast
    ring
  · rw [Nat.cast_sub (by omega)]
    push_cast
    ring

/-- A numeral of some size is found if one of the two neighbours fits, and then it is one that fits. -/
theorem decimalOfSize?_cases (m p : Nat) (leading : Int) (count : Nat) {d : Nat} {e : Int}
    (he : leading - count + 1 = e) (hd : m <<< p * tenDen e / (scale * tenNum e) = d) :
    (∃ k, decimalOfSize? m p leading count = some ⟨k, e⟩ ∧ (interval m p).Has (4 * scale * (k * 10 ^ e))) ∨
      ¬(interval m p).Has (4 * scale * (d * 10 ^ e)) ∧ ¬(interval m p).Has (4 * scale * ((d + 1 : Nat) * 10 ^ e)) ∧
        decimalOfSize? m p leading count = none := by
  have heq : decimalOfSize? m p leading count =
      let fits (k : Nat) := (interval m p).contains (4 * scale * (k * tenNum e)) (tenDen e)
      let r := m <<< p * tenDen e % (scale * tenNum e)
      if fits d && fits (d + 1) then
        if 2 * r < scale * tenNum e ∨ (2 * r = scale * tenNum e ∧ d % 2 = 0) then some ⟨d, e⟩ else some ⟨d + 1, e⟩
      else if fits d then some ⟨d, e⟩
      else if fits (d + 1) then some ⟨d + 1, e⟩
      else none := by
    rw [← hd, ← he]
    rfl
  rw [heq]
  simp only [← contains_iff_has_mul_zpow]
  by_cases hbelow : (interval m p).contains (4 * scale * (d * tenNum e)) (tenDen e) = true
  · by_cases habove : (interval m p).contains (4 * scale * ((d + 1) * tenNum e)) (tenDen e) = true
    · rw [if_pos (by rw [hbelow, habove]; rfl)]
      split
      · exact .inl ⟨d, rfl, hbelow⟩
      · exact .inl ⟨d + 1, rfl, habove⟩
    · rw [if_neg (by simp [habove]), if_pos hbelow]
      exact .inl ⟨d, rfl, hbelow⟩
  · rw [if_neg (by simp [hbelow]), if_neg hbelow]
    by_cases habove : (interval m p).contains (4 * scale * ((d + 1) * tenNum e)) (tenDen e) = true
    · rw [if_pos habove]
      exact .inl ⟨d + 1, rfl, habove⟩
    · rw [if_neg habove]
      exact .inr ⟨hbelow, habove, rfl⟩

/-- What lies between the ends belongs to the interval. -/
theorem le_low_or_high_le {i : Interval} {q : ℚ} (h : ¬i.Has q) : q ≤ i.low ∨ i.high ≤ q := by
  by_contra hnot
  obtain ⟨hlow, hhigh⟩ := not_or.1 hnot
  exact h ⟨.inl (not_le.1 hlow), .inl (not_le.1 hhigh)⟩

/-- A number lies between its two neighbours on the grid of a power of ten. -/
theorem between_neighbours {d : Nat} {e : Int} (hd : m <<< p * tenDen e / (scale * tenNum e) = d) :
    scale * (d * (10 : ℚ) ^ e) ≤ m * 2 ^ p ∧ m * 2 ^ p < scale * ((d + 1 : Nat) * (10 : ℚ) ^ e) := by
  have hgrid : 0 < scale * tenNum e := Nat.mul_pos scale_pos (tenNum_pos e)
  have hden : (0 : ℚ) < tenDen e := Nat.cast_pos.2 (tenDen_pos e)
  have hle := (Nat.le_div_iff_mul_le hgrid).1 hd.ge
  have hlt := (Nat.div_lt_iff_lt_mul hgrid).1 (Nat.lt_succ_of_le hd.le)
  rw [Nat.shiftLeft_eq] at hle hlt
  rw [zpow_eq_div, ← mul_div_assoc, ← mul_div_assoc, ← mul_div_assoc, ← mul_div_assoc, div_le_iff₀ hden,
    lt_div_iff₀ hden, mul_left_comm, mul_left_comm (scale : ℚ)]
  exact ⟨by exact_mod_cast hle, by exact_mod_cast hlt⟩

theorem between_ends (hm : m ≠ 0) :
    ((interval m p).low : ℚ) < 4 * (m * 2 ^ p) ∧ 4 * (m * 2 ^ p) < ((interval m p).high : ℚ) := by
  have hunit : (0 : ℚ) < 2 ^ p := by positivity
  rw [low_eq hm, high_eq]
  constructor
  · split <;> linarith
  · linarith

/-- The interval is wider than a grid with seventeen digits, as 2 ^ 53 is less than 10 ^ 16. -/
theorem lt_width (hm : m ≠ 0) (hcanonical : (finite negative m p).IsCanonical) {g : ℚ} (hg : 10 ^ 16 * g ≤ m * 2 ^ p) :
    4 * g < (interval m p).high - (interval m p).low := by
  have hunit : (0 : ℚ) < 2 ^ p := by positivity
  rw [low_eq hm, high_eq]
  split
  · next hpower =>
    have hmantissa : (m : ℚ) = 2 ^ 52 := by
      rw [hpower.1]
      norm_num [leastNormal]
    rw [hmantissa] at hg ⊢
    linarith
  · have hmantissa : (m : ℚ) * 2 ^ p ≤ 2 ^ 53 * 2 ^ p := by
      have hfull : m ≤ 2 ^ 53 := hcanonical.1.le
      gcongr
      exact_mod_cast hfull
    linarith

/-- On the grid of seventeen digits there is a neighbour in the interval. -/
theorem exists_decimalOfSize? (hm : m ≠ 0) (hcanonical : (finite negative m p).IsCanonical)
    (hleading : scale * (10 : ℚ) ^ leading ≤ m * 2 ^ p) : ∃ x, decimalOfSize? m p leading 17 = some x := by
  obtain ⟨k, hk, -⟩ | ⟨hbelow, habove, -⟩ := decimalOfSize?_cases m p leading 17 rfl rfl
  · exact ⟨_, hk⟩
  · exfalso
    obtain ⟨hle, hlt⟩ := between_neighbours (m := m) (p := p) (e := leading - (17 : Nat) + 1) rfl
    obtain ⟨hlow, hhigh⟩ := between_ends (p := p) hm
    have hsize : (10 : ℚ) ^ leading = 10 ^ 16 * 10 ^ (leading - (17 : Nat) + 1) := by
      rw [← zpow_natCast, ← zpow_add₀ (by norm_num)]
      congr 1
      omega
    generalize leading - (17 : Nat) + 1 = e at *
    generalize m <<< p * tenDen e / (scale * tenNum e) = d at *
    rw [hsize, mul_left_comm] at hleading
    rw [Nat.cast_succ, add_mul, one_mul, mul_add] at hlt habove
    rw [mul_assoc] at hbelow
    rw [← mul_add, mul_assoc, mul_add] at habove
    have hwidth := lt_width hm hcanonical hleading
    generalize (scale : ℚ) * (d * 10 ^ e) = a at *
    generalize (scale : ℚ) * 10 ^ e = g at *
    generalize (m : ℚ) * 2 ^ p = x at *
    rcases le_low_or_high_le hbelow with hbelow | hbelow
    · rcases le_low_or_high_le habove with habove | habove
      · linarith
      · linarith
    · linarith

/-- The shortest numeral of a number lies in the interval around it. -/
theorem has_shortest (hm : m ≠ 0) (hcanonical : (finite negative m p).IsCanonical) :
    (interval m p).Has (4 * scale * (shortest m p).value) := by
  have hnum : 0 < m <<< p := by
    rw [Nat.shiftLeft_eq]
    exact Nat.mul_pos (Nat.pos_of_ne_zero hm) (Nat.two_pow_pos p)
  have hleading := ten_pow_leadingExponent_le hnum scale_pos
  rw [le_div_iff₀ (Nat.cast_pos.2 scale_pos), mul_comm, Nat.shiftLeft_eq] at hleading
  obtain ⟨x, hx⟩ := exists_decimalOfSize? hm hcanonical (by exact_mod_cast hleading)
  rw [← Nat.shiftLeft_eq] at hx
  obtain ⟨y, hy⟩ : ∃ y, (List.range 17).findSome?
      (fun n ↦ decimalOfSize? m p (leadingExponent (m <<< p) scale) (n + 1)) = some y := by
    refine Option.isSome_iff_exists.1 (List.findSome?_isSome_iff.2 ⟨16, by simp, ?_⟩)
    exact Option.isSome_of_eq_some hx
  rw [shortest, hy]
  obtain ⟨n, -, hn⟩ := List.exists_of_findSome?_eq_some hy
  obtain ⟨k, hk, hhas⟩ | ⟨-, -, hnone⟩ := decimalOfSize?_cases m p _ (n + 1) rfl rfl
  · cases hk.symm.trans hn
    exact hhas
  · cases hnone.symm.trans hn

end Candidates

section Reading

theorem Interval.Has.low_le {i : Interval} {q : ℚ} (h : i.Has q) : i.low ≤ q := h.1.elim le_of_lt fun h ↦ h.2.le

theorem Interval.Has.le_high {i : Interval} {q : ℚ} (h : i.Has q) : q ≤ i.high := h.2.elim le_of_lt fun h ↦ h.2.le

theorem two_le_low (hm : m ≠ 0) : (2 : ℚ) ≤ (interval m p).low := by
  have hone : (1 : ℚ) ≤ m := Nat.one_le_cast.2 (Nat.pos_of_ne_zero hm)
  have hunit : (1 : ℚ) ≤ 2 ^ p := one_le_pow₀ (by norm_num)
  have hle : (2 : ℚ) ^ p ≤ m * 2 ^ p := le_mul_of_one_le_left (by positivity) hone
  rw [low_eq hm]
  split <;> linarith

theorem high_le (hcanonical : (finite negative m p).IsCanonical) : (interval m p).high ≤ 2 ^ 2100 := by
  obtain ⟨hlt, -, hp⟩ := hcanonical
  have hhigh : (interval m p).high = (4 * m + 2) * 2 ^ p := by
    simp only [interval, Nat.shiftLeft_eq]
    ring
  have hfull : 2 * leastNormal = 2 ^ 53 := by decide
  have hmantissa : 4 * m + 2 ≤ 2 ^ 55 := by omega
  rw [hhigh, two_pow_split (e := 2100) (f := 55) (g := 2045) rfl]
  exact Nat.mul_le_mul hmantissa (pow_le_pow_right₀ (by decide) hp)

/-- Powers of ten beyond all numbers, and of less than a quarter of a unit. -/
theorem two_pow_lt_ten_pow : (2 : Nat) ^ 1024 < 10 ^ 310 ∧ (2 : Nat) ^ 1076 < 10 ^ 331 := by
  decide +kernel

theorem lt_zpow_length (digits : Nat) (exponent : Int) :
    digits * (10 : ℚ) ^ exponent < 10 ^ ((Nat.toDigits 10 digits).length + exponent) := by
  rw [zpow_add₀ (by norm_num), zpow_natCast]
  have hlt := lt_ten_pow_length digits
  have hpos := ten_pow_pos exponent
  gcongr
  exact_mod_cast hlt

theorem zpow_length_le (hdigits : 0 < digits) (exponent : Int) :
    (10 : ℚ) ^ ((Nat.toDigits 10 digits).length + exponent - 1) ≤ digits * 10 ^ exponent := by
  have hle := ten_pow_le hdigits
  have hlength : 0 < (Nat.toDigits 10 digits).length := Nat.length_toDigits_pos
  generalize (Nat.toDigits 10 digits).length = size at *
  obtain ⟨k, rfl⟩ := Nat.exists_eq_succ_of_ne_zero hlength.ne'
  have hexponent : (k.succ : Nat) + exponent - 1 = (k : Int) + exponent := by omega
  have hpos := ten_pow_pos exponent
  rw [hexponent, zpow_add₀ (by norm_num), zpow_natCast]
  gcongr
  exact_mod_cast hle

theorem four_mul_scale : 4 * scale = 2 ^ 1076 := by
  have hfour : 4 = 2 ^ 2 := by decide
  rw [scale_eq, hfour, two_pow_split (e := 1076) (f := 2) (g := 1074) rfl]

theorem four_mul_scale_nonneg : (0 : ℚ) ≤ 4 * scale := mul_nonneg (by norm_num) (Nat.cast_nonneg scale)

theorem cast_four_mul_scale : ((4 * scale : Nat) : ℚ) = 4 * scale := by rw [Nat.cast_mul, Nat.cast_ofNat]

/-- A numeral in the interval around a number is not so small that it reads as zero. -/
theorem le_length_of_has (hm : m ≠ 0) (h : (interval m p).Has (4 * scale * (digits * 10 ^ exponent))) :
    -330 ≤ (Nat.toDigits 10 digits).length + exponent := by
  by_contra hlt
  have hvalue : digits * (10 : ℚ) ^ exponent ≤ 10 ^ (-331 : Int) :=
    (lt_zpow_length digits exponent).le.trans (zpow_le_zpow_right₀ (by norm_num) (by omega))
  have hten : ((4 * scale : Nat) : ℚ) ≤ (10 ^ 331 : Nat) := by
    rw [four_mul_scale]
    exact Nat.cast_le.2 two_pow_lt_ten_pow.2.le
  rw [cast_four_mul_scale, Nat.cast_pow, Nat.cast_ofNat] at hten
  have hone : (10 : ℚ) ^ 331 * 10 ^ (-331 : Int) = 1 := by
    rw [← zpow_natCast, ← zpow_add₀ (by norm_num)]
    rfl
  have hle : (2 : ℚ) ≤ 1 := calc
    (2 : ℚ) ≤ (interval m p).low := two_le_low hm
    _ ≤ 4 * scale * (digits * 10 ^ exponent) := h.low_le
    _ ≤ 4 * scale * 10 ^ (-331 : Int) := mul_le_mul_of_nonneg_left hvalue four_mul_scale_nonneg
    _ ≤ 10 ^ 331 * 10 ^ (-331 : Int) := mul_le_mul_of_nonneg_right hten (ten_pow_pos _).le
    _ = 1 := hone
  norm_num at hle

/-- A numeral in the interval around a number is not so large that it reads as an infinity. -/
theorem length_le_of_has (hdigits : 0 < digits) (hcanonical : (finite negative m p).IsCanonical)
    (h : (interval m p).Has (4 * scale * (digits * 10 ^ exponent))) :
    (Nat.toDigits 10 digits).length + exponent ≤ 310 := by
  by_contra hlt
  have hvalue : (10 : ℚ) ^ (310 : Int) ≤ digits * 10 ^ exponent :=
    (zpow_le_zpow_right₀ (by norm_num) (by omega)).trans (zpow_length_le hdigits exponent)
  have hten : ((10 ^ 310 : Nat) : ℚ) = 10 ^ (310 : Int) := by rw [Nat.cast_pow, Nat.cast_ofNat, ← zpow_natCast]; rfl
  have hle : (((4 * scale) * 10 ^ 310 : Nat) : ℚ) ≤ (interval m p).high := by
    rw [Nat.cast_mul, cast_four_mul_scale, hten]
    exact (mul_le_mul_of_nonneg_left hvalue four_mul_scale_nonneg).trans h.le_high
  have hnat := (Nat.cast_le.1 hle).trans (high_le hcanonical)
  rw [two_pow_split (e := 2100) (f := 1076) (g := 1024) rfl, ← four_mul_scale] at hnat
  exact absurd (Nat.le_of_mul_le_mul_left hnat (Nat.mul_pos (by decide) scale_pos)) two_pow_lt_ten_pow.1.not_ge

theorem digits_pos_of_has (hm : m ≠ 0) (h : (interval m p).Has (4 * scale * (digits * 10 ^ exponent))) :
    0 < digits := by
  refine Nat.pos_of_ne_zero ?_
  rintro rfl
  have hlow := h.low_le.trans' (two_le_low hm)
  norm_num at hlow

/-- A numeral in the interval around a number reads as that number. -/
theorem ofDecimal_of_has (hm : m ≠ 0) (hcanonical : (finite negative m p).IsCanonical)
    (h : (interval m p).Has (4 * scale * (digits * 10 ^ exponent))) :
    ofDecimal negative digits exponent = .finite negative m p := by
  have hdigits := digits_pos_of_has hm h
  have hsmall := le_length_of_has hm h
  have hlarge := length_le_of_has hdigits hcanonical h
  have hvalue : ofRatio negative (digits * tenNum exponent) (tenDen exponent) = .finite negative m p := by
    refine ofUnits_of_contains hm hcanonical (tenDen_pos exponent) ?_
    rw [← contains_iff_has_mul_zpow, Nat.mul_assoc] at h
    rwa [Nat.mul_comm _ scale]
  rw [ofDecimal, if_neg (by omega), if_neg (by omega), ← hvalue, tenNum, tenDen]
  split
  · rfl
  · rw [Nat.mul_one]

end Reading

end PolymerAnalysis.Binary64
