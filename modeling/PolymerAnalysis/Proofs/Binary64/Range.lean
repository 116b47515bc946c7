import PolymerAnalysis.Binary64.Basic
import Mathlib.Tactic.Ring

namespace PolymerAnalysis.Binary64

variable {negative : Bool} {num den a d k : Nat}

/-- Half a unit beyond the largest finite number. A tie there goes away from it. -/
def bound : Nat := (2 ^ 54 - 1) * 2 ^ 970

theorem divNearest_le (a d : Nat) : divNearest a d ≤ a / d + 1 := by
  rw [divNearest]
  grind

/-- A quotient between an odd number and the next is rounded up from the middle on. -/
theorem divNearest_eq_succ_iff (hk : a / d = k) (hodd : k % 2 = 1) : divNearest a d = k + 1 ↔ d ≤ 2 * (a % d) := by
  simp only [divNearest, hk, hodd]
  grind

def exponent (q : Nat) : Nat := if q < 2 * leastNormal then 0 else q.log2 - 52

theorem isFinite_ofUnits (negative : Bool) (num den : Nat) : (ofUnits negative num den).isFinite = true ↔
    exponent (num / den) < 2045 ∨
      exponent (num / den) = 2045 ∧ divNearest num (den <<< 2045) ≠ 2 * leastNormal := by
  rw [ofUnits, ← exponent]
  generalize exponent (num / den) = p
  have hfinite (m p : Nat) : (if p > 2045 then infinite negative else finite negative m p).isFinite = true ↔ p ≤ 2045 := by
    by_cases hp : p > 2045
    · rw [if_pos hp]
      exact iff_of_false (by simp [isFinite]) (by omega)
    · rw [if_neg hp]
      exact iff_of_true rfl (by omega)
  by_cases hm : divNearest num (den <<< p) = 2 * leastNormal
  · simp only [if_pos hm, hfinite]
    constructor
    · exact fun h ↦ .inl (by omega)
    · rintro (h | ⟨rfl, hne⟩)
      · omega
      · exact absurd hm hne
  · simp only [if_neg hm, hfinite]
    constructor
    · intro h
      rcases Nat.lt_or_eq_of_le h with hlt | rfl
      · exact .inl hlt
      · exact .inr ⟨rfl, hm⟩
    · omega

theorem exponent_le_iff (q k : Nat) : exponent q ≤ k ↔ q < 2 ^ 53 * 2 ^ k := by
  have hnormal : 2 * leastNormal = 2 ^ 53 := by decide
  rw [exponent, hnormal, ← pow_add]
  split
  · next hq =>
    have hle : 2 ^ 53 ≤ 2 ^ (53 + k) := Nat.pow_le_pow_right (by decide) (by omega)
    omega
  · next hq =>
    have hne : q ≠ 0 := by rintro rfl; simp at hq
    have hlog : 53 ≤ q.log2 := (Nat.le_log2 hne).2 (Nat.not_lt.1 hq)
    rw [← Nat.log2_lt hne]
    omega

theorem exponent_le_succ_iff (q k : Nat) : exponent q ≤ k + 1 ↔ q < 2 ^ 54 * 2 ^ k := by
  rw [exponent_le_iff, Nat.pow_succ]
  omega

/-- Rounding to the mantissa of full length leads beyond it from half a unit below on. -/
theorem divNearest_eq_iff {e : Nat} (he : 0 < e) (hlt : a < 2 ^ 54 * e) :
    divNearest a (2 * e) = 2 * leastNormal ↔ (2 ^ 54 - 1) * e ≤ a := by
  have hnormal : 2 * leastNormal = 2 ^ 53 - 1 + 1 := by decide
  have hquotient : a / (2 * e) ≤ 2 ^ 53 - 1 := by
    apply Nat.le_of_lt_succ
    apply (Nat.div_lt_iff_lt_mul (by omega)).2
    omega
  have hsplit := Nat.div_add_mod a (2 * e)
  rw [hnormal]
  constructor
  · intro h
    have hle := divNearest_le a (2 * e)
    have hk : a / (2 * e) = 2 ^ 53 - 1 := by omega
    have hmod := (divNearest_eq_succ_iff hk (by decide)).1 h
    rw [hk] at hsplit
    omega
  · intro h
    have hge : 2 ^ 53 - 1 ≤ a / (2 * e) := (Nat.le_div_iff_mul_le (by omega)).2 (by omega)
    have hk : a / (2 * e) = 2 ^ 53 - 1 := by omega
    rw [hk] at hsplit
    apply (divNearest_eq_succ_iff hk (by decide)).2
    omega

theorem shiftLeft_succ (n k : Nat) : n <<< (k + 1) = 2 * (2 ^ k * n) := by
  rw [Nat.shiftLeft_eq, Nat.pow_succ]
  ring

theorem two_pow_mul_pos (k : Nat) (hden : 0 < den) : 0 < 2 ^ k * den := Nat.mul_pos (Nat.two_pow_pos k) hden

theorem bound_pos : 0 < bound := by
  rw [bound, Nat.mul_comm]
  exact two_pow_mul_pos 970 (by decide)

theorem two_pow_split {e f g : Nat} (h : e = f + g) : 2 ^ e = 2 ^ f * 2 ^ g := by rw [h, pow_add]

theorem isFinite_ofUnits_iff (negative : Bool) (num : Nat) (hden : 0 < den) :
    (ofUnits negative num den).isFinite = true ↔ num < (2 ^ 54 - 1) * (2 ^ 2044 * den) := by
  have hless := exponent_le_iff (num / den) 2044
  have hat := exponent_le_succ_iff (num / den) 2044
  have hunit : den <<< 2045 = 2 * (2 ^ 2044 * den) := shiftLeft_succ den 2044
  have hpos := two_pow_mul_pos 2044 hden
  rw [Nat.div_lt_iff_lt_mul hden, Nat.mul_assoc] at hless hat
  rw [isFinite_ofUnits, hunit]
  generalize 2 ^ 2044 * den = e at hless hat hpos ⊢
  generalize exponent (num / den) = p at hless hat ⊢
  by_cases hlt : num < 2 ^ 54 * e
  · have hm := divNearest_eq_iff hpos hlt
    have hle := hat.2 hlt
    by_cases hp : p ≤ 2044
    · have hnum := hless.1 hp
      exact iff_of_true (.inl (by omega)) (by omega)
    · have hp' : p = 2045 := by omega
      simp only [hp', lt_irrefl, false_or, true_and, ne_eq, hm, Nat.not_le]
  · have hgt : ¬p ≤ 2044 + 1 := fun hp ↦ hlt (hat.1 hp)
    exact iff_of_false (by omega) (by omega)

-- for the power of a monoid, so that no large power has to be computed to see that the two are the same
theorem one_shiftLeft_eq (k : Nat) : 1 <<< k = 2 ^ k := Nat.one_shiftLeft k

theorem scale_eq : scale = 2 ^ 1074 := one_shiftLeft_eq 1074

theorem isFinite_ofRatio_iff (negative : Bool) (num : Nat) (hden : 0 < den) :
    (ofRatio negative num den).isFinite = true ↔ num < bound * den := by
  have hpos := two_pow_mul_pos 1074 Nat.one_pos
  rw [Nat.mul_one, ← scale_eq] at hpos
  have hbound : (2 ^ 54 - 1) * (2 ^ 2044 * den) = bound * den * scale := by
    rw [bound, scale_eq, two_pow_split (e := 2044) (f := 970) (g := 1074) rfl]
    generalize 2 ^ 970 = x
    generalize 2 ^ 1074 = y
    ring
  rw [ofRatio, isFinite_ofUnits_iff negative _ hden, hbound]
  exact Nat.mul_lt_mul_right hpos

theorem isFinite_ofInt_iff (n : Int) : (ofInt n).isFinite = true ↔ n.natAbs < bound := by
  rw [ofInt, isFinite_ofRatio_iff _ _ Nat.one_pos, Nat.mul_one]

end PolymerAnalysis.Binary64
