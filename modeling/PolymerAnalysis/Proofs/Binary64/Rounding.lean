import PolymerAnalysis.Binary64.Arithmetic
import PolymerAnalysis.Binary64.Reader
import PolymerAnalysis.Binary64.Shortest
import PolymerAnalysis.Proofs.Binary64.Range

namespace PolymerAnalysis.Binary64

variable {negative : Bool} {num den a d k m p : Nat} {x y : Binary64}

section Quotients

/-- A quotient is rounded to what is at most one half away, a tie to the even number. -/
theorem divNearest_eq (hd : 0 < d) (hlow : 2 * (k * d) < 2 * a + d ∨ k % 2 = 0 ∧ 2 * (k * d) = 2 * a + d)
    (hhigh : 2 * a < 2 * (k * d) + d ∨ k % 2 = 0 ∧ 2 * a = 2 * (k * d) + d) : divNearest a d = k := by
  have hsplit := Nat.div_add_mod a d
  have hmod := Nat.mod_lt a hd
  have hle : a / d ≤ k := by
    by_contra hlt
    have hmul := Nat.mul_le_mul_right d (Nat.succ_le_of_lt (Nat.not_le.1 hlt))
    rw [Nat.succ_mul, Nat.mul_comm (a / d)] at hmul
    omega
  have hge : k ≤ a / d + 1 := by
    by_contra hlt
    have hmul := Nat.mul_le_mul_right d (Nat.succ_le_of_lt (Nat.not_le.1 hlt))
    rw [Nat.succ_mul, Nat.succ_mul, Nat.mul_comm (a / d)] at hmul
    omega
  rw [divNearest]
  generalize a / d = q at *
  generalize a % d = r at *
  rw [Nat.mul_comm] at hsplit
  obtain rfl | rfl : k = q ∨ k = q + 1 := by omega
  · split_ifs <;> omega
  · have hsucc : (q + 1) * d = q * d + d := Nat.succ_mul q d
    rw [hsucc] at hlow hhigh
    split_ifs <;> omega

theorem le_divNearest (a d : Nat) : a / d ≤ divNearest a d := by
  rw [divNearest]
  grind

theorem divNearest_le_of_lt (hd : 0 < d) (h : a < k * d) : divNearest a d ≤ k := by
  have hquotient : a / d < k := (Nat.div_lt_iff_lt_mul hd).2 h
  have hle := divNearest_le a d
  omega

end Quotients

section Canonical

theorem isCanonical_ofUnits (negative : Bool) (num : Nat) (hden : 0 < den) :
    (ofUnits negative num den).IsCanonical := by
  have hexponent := exponent_le_iff (num / den)
  have hpos := two_pow_mul_pos (exponent (num / den)) hden
  have hlt := (hexponent _).1 le_rfl
  rw [Nat.div_lt_iff_lt_mul hden, Nat.mul_assoc] at hlt
  rw [ofUnits, ← exponent, Nat.shiftLeft_eq, Nat.mul_comm den]
  generalize hp : exponent (num / den) = p at *
  have hm := divNearest_le_of_lt hpos hlt
  have hnormal : leastNormal ≤ divNearest num (2 ^ p * den) ∨ p = 0 := by
    cases p with
    | zero => exact .inr rfl
    | succ p =>
      have hnot := mt (hexponent p).2 (by omega)
      rw [Nat.div_lt_iff_lt_mul hden, Nat.not_lt] at hnot
      refine .inl (le_trans ((Nat.le_div_iff_mul_le hpos).2 (le_trans (le_of_eq ?_) hnot)) (le_divNearest _ _))
      rw [leastNormal, Nat.pow_succ]
      ring
  have hfull : 2 ^ 53 = 2 * leastNormal := by decide
  rw [hfull] at hm
  generalize divNearest num (2 ^ p * den) = n at *
  by_cases hn : n = 2 * leastNormal
  · simp only [if_pos hn]
    split
    · trivial
    · exact ⟨by decide, .inl le_rfl, by omega⟩
  · simp only [if_neg hn]
    split
    · trivial
    · exact ⟨by omega, hnormal, by omega⟩

theorem isCanonical_ofRatio (negative : Bool) (num : Nat) (hden : 0 < den) : (ofRatio negative num den).IsCanonical :=
  isCanonical_ofUnits negative _ hden

theorem isCanonical_zero (negative : Bool) : (finite negative 0 0).IsCanonical := ⟨by decide, .inr rfl, by decide⟩

theorem isCanonical_ofDecimal (negative : Bool) (digits : Nat) (exponent : Int) :
    (ofDecimal negative digits exponent).IsCanonical := by
  simp only [ofDecimal]
  split_ifs
  · exact isCanonical_zero negative
  · trivial
  · exact isCanonical_ofRatio _ _ Nat.one_pos
  · exact isCanonical_ofRatio _ _ (Nat.pow_pos (by decide))

theorem isCanonical_unsigned? {t : Text} (h : unsigned? negative t = some x) : x.IsCanonical := by
  obtain ⟨digits, -, h⟩ := Option.bind_eq_some_iff.1 h
  simp only at h
  split at h
  · cases h
    exact isCanonical_ofDecimal ..
  · split at h
    · obtain ⟨e, -, h⟩ := Option.bind_eq_some_iff.1 h
      cases h
      exact isCanonical_ofDecimal ..
    · cases h

theorem isCanonical_ofText? {t : Text} (h : ofText? t = some x) : x.IsCanonical := by
  simp only [ofText?] at h
  split_ifs at h
  · cases h
    trivial
  · cases h
    trivial
  · exact isCanonical_unsigned? h

theorem IsCanonical.neg (h : x.IsCanonical) : x.neg.IsCanonical := by
  cases x with
  | finite | infinite | nan => exact h

theorem isCanonical_add (x y : Binary64) : (x.add y).IsCanonical := by
  unfold add
  split
  · trivial
  · trivial
  · split <;> trivial
  · trivial
  · trivial
  · simp only
    split_ifs
    all_goals first | exact isCanonical_zero _ | exact isCanonical_ofUnits _ _ Nat.one_pos

theorem scale_pos : 0 < scale := by
  have hpos := two_pow_mul_pos 1074 Nat.one_pos
  rwa [Nat.mul_one, ← scale_eq] at hpos

theorem isCanonical_mul (x y : Binary64) : (x.mul y).IsCanonical := by
  unfold mul
  split
  · trivial
  · trivial
  · trivial
  · split <;> trivial
  · split <;> trivial
  · exact isCanonical_ofUnits _ _ scale_pos

theorem isCanonical_div (x y : Binary64) : (x.div y).IsCanonical := by
  unfold div
  split
  · trivial
  · trivial
  · trivial
  · trivial
  · exact isCanonical_zero _
  · next s m p t n q =>
    split_ifs with hn
    · trivial
    · trivial
    · refine isCanonical_ofUnits _ _ ?_
      rw [Nat.shiftLeft_eq]
      exact Nat.mul_pos (Nat.pos_of_ne_zero hn) (Nat.two_pow_pos q)

end Canonical

section Intervals

theorem contains_iff (i : Interval) : i.contains num den = true ↔
    (i.low * den < num ∨ i.closed ∧ i.low * den = num) ∧ (num < i.high * den ∨ i.closed ∧ num = i.high * den) := by
  rw [Interval.contains]
  cases i.closed with
  | true => simp [Nat.le_iff_lt_or_eq]
  | false => simp

theorem exponent_eq (hden : 0 < den) (hlow : p = 0 ∨ 2 ^ 52 * (2 ^ p * den) ≤ num)
    (hhigh : num < 2 ^ 53 * (2 ^ p * den)) : exponent (num / den) = p := by
  have hexponent := exponent_le_iff (num / den)
  simp only [Nat.div_lt_iff_lt_mul hden, Nat.mul_assoc] at hexponent
  refine Nat.le_antisymm ((hexponent p).2 hhigh) ?_
  cases p with
  | zero => exact Nat.zero_le _
  | succ p =>
    refine Nat.succ_le_of_lt (Nat.lt_of_not_le fun hle ↦ ?_)
    have hlt := (hexponent p).1 hle
    have hsucc : 2 ^ (p + 1) * den = 2 * (2 ^ p * den) := by rw [Nat.pow_succ]; ring
    rw [hsucc] at hlow
    omega

/-- The interval around a number against a quotient, in units of a quarter of the last place. -/
theorem interval_contains_iff : (interval m p).contains (4 * num) den = true ↔
    (4 * (m * (2 ^ p * den)) - (if m = leastNormal ∧ p ≠ 0 then 2 ^ p * den else 2 * (2 ^ p * den)) < 4 * num ∨
      m % 2 = 0 ∧
        4 * (m * (2 ^ p * den)) - (if m = leastNormal ∧ p ≠ 0 then 2 ^ p * den else 2 * (2 ^ p * den)) = 4 * num) ∧
    (4 * num < 4 * (m * (2 ^ p * den)) + 2 * (2 ^ p * den) ∨
      m % 2 = 0 ∧ 4 * num = 4 * (m * (2 ^ p * den)) + 2 * (2 ^ p * den)) := by
  have hlow : (interval m p).low * den =
      4 * (m * (2 ^ p * den)) - (if m = leastNormal ∧ p ≠ 0 then 2 ^ p * den else 2 * (2 ^ p * den)) := by
    simp only [interval, Nat.shiftLeft_eq, Nat.sub_mul]
    split
    · congr 1 <;> ring
    · congr 1 <;> ring
  have hhigh : (interval m p).high * den = 4 * (m * (2 ^ p * den)) + 2 * (2 ^ p * den) := by
    simp only [interval, Nat.shiftLeft_eq]
    ring
  rw [contains_iff, hlow, hhigh]
  simp only [interval, decide_eq_true_eq]

theorem ofUnits_of_rounds (hexponent : exponent (num / den) = p) (hround : divNearest num (2 ^ p * den) = m)
    (hm : m < 2 * leastNormal) (hp : p ≤ 2045) : ofUnits negative num den = .finite negative m p := by
  rw [ofUnits, ← exponent, Nat.shiftLeft_eq, Nat.mul_comm den, hexponent, hround]
  simp only [if_neg hm.ne]
  rw [if_neg (Nat.not_lt.2 hp)]

/-- Below a power of two numbers are half as far apart. -/
theorem ofUnits_of_lt_power (hden : 0 < den) (hp : p + 1 ≤ 2045) (hlt : num < 2 ^ 52 * (2 ^ (p + 1) * den))
    (hlow : 4 * (2 ^ 52 * (2 ^ (p + 1) * den)) - 2 ^ (p + 1) * den ≤ 4 * num) :
    ofUnits negative num den = .finite negative leastNormal (p + 1) := by
  have hsucc : 2 ^ (p + 1) * den = 2 * (2 ^ p * den) := by rw [Nat.pow_succ]; ring
  have hpos := two_pow_mul_pos p hden
  rw [hsucc] at hlt hlow
  have hexponent : exponent (num / den) = p := exponent_eq hden (.inr (by omega)) (by omega)
  have htie : 2 * (2 ^ 53 * (2 ^ p * den)) ≤ 2 * num + 2 ^ p * den := by omega
  have hround : divNearest num (2 ^ p * den) = 2 ^ 53 :=
    divNearest_eq hpos ((Nat.lt_or_eq_of_le htie).imp_right fun h ↦ ⟨by decide, h⟩) (.inl (by omega))
  rw [ofUnits, ← exponent, Nat.shiftLeft_eq, Nat.mul_comm den, hexponent, hround, if_pos (by decide)]
  simp only
  rw [if_neg (Nat.not_lt.2 hp)]

/-- What lies in the interval around a canonical number is rounded to it. -/
theorem ofUnits_of_contains (hm : m ≠ 0) (hcanonical : (finite negative m p).IsCanonical) (hden : 0 < den)
    (h : (interval m p).contains (4 * num) den = true) : ofUnits negative num den = .finite negative m p := by
  obtain ⟨hlt, hnormal, hp⟩ := hcanonical
  obtain ⟨hlow, hhigh⟩ := interval_contains_iff.1 h
  have hfull : leastNormal = 2 ^ 52 := by decide
  have hpos := two_pow_mul_pos p hden
  have hmul (k : Nat) (hk : k ≤ m) : k * (2 ^ p * den) ≤ m * (2 ^ p * den) := Nat.mul_le_mul_right _ hk
  by_cases hquarter : m = leastNormal ∧ p ≠ 0 ∧ num < 2 ^ 52 * (2 ^ p * den)
  · obtain ⟨rfl, hp0, hbelow⟩ := hquarter
    obtain ⟨p, rfl⟩ := Nat.exists_eq_succ_of_ne_zero hp0
    rw [if_pos ⟨rfl, hp0⟩, hfull] at hlow
    exact ofUnits_of_lt_power hden hp hbelow (hlow.elim le_of_lt fun h ↦ h.2.le)
  · have hlow' : 2 * (m * (2 ^ p * den)) < 2 * num + 2 ^ p * den ∨
        m % 2 = 0 ∧ 2 * (m * (2 ^ p * den)) = 2 * num + 2 ^ p * den := by
      have hone := hmul 1 (Nat.pos_of_ne_zero hm)
      split_ifs at hlow with hpower
      · have hge : ¬num < 2 ^ 52 * (2 ^ p * den) := fun h ↦ hquarter ⟨hpower.1, hpower.2, h⟩
        rw [hpower.1, hfull]
        omega
      · omega
    have hnum : num < 2 ^ 53 * (2 ^ p * den) := by
      have hmore : m * (2 ^ p * den) + 2 ^ p * den ≤ 2 ^ 53 * (2 ^ p * den) := by
        rw [← Nat.succ_mul]
        exact Nat.mul_le_mul_right _ hlt
      omega
    have hexponent : exponent (num / den) = p := by
      refine exponent_eq hden (or_iff_not_imp_left.2 fun hp0 ↦ ?_) hnum
      by_cases hpower : m = leastNormal
      · exact Nat.not_lt.1 fun h ↦ hquarter ⟨hpower, hp0, h⟩
      · have hmore := hmul (2 ^ 52 + 1) (by omega)
        rw [Nat.add_mul, Nat.one_mul] at hmore
        omega
    exact ofUnits_of_rounds hexponent (divNearest_eq hpos hlow' (by omega)) (by omega) hp

end Intervals

end PolymerAnalysis.Binary64
