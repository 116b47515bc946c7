import PolymerAnalysis.Text.Case

namespace PolymerAnalysis.Text

variable {c : CodePoint} {t u : Text}

def IsAscii (t : Text) : Prop := ∀ c ∈ t, c.val < 0x80

theorem ne_sigma (hc : c.val < 0x80) : c ≠ 'Σ' := by
  rintro rfl
  exact absurd hc (by decide)

/-- What stands before and after matters for a capital sigma only. -/
theorem lowerAfter_cons (hc : c.val < 0x80) (before t : Text) :
    Case.lowerAfter before (c :: t) = lower [c] ++ Case.lowerAfter (c :: before) t := by
  rw [lower, Case.lowerAfter, Case.lowerAfter, if_neg (ne_sigma hc), if_neg (ne_sigma hc), Case.lowerAfter,
    List.append_nil]

theorem IsAscii.lowerAfter_eq (ht : t.IsAscii) (before : Text) :
    Case.lowerAfter before t = t.flatMap fun c ↦ lower [c] := by
  induction t generalizing before with
  | nil => rfl
  | cons c t ih =>
    obtain ⟨hc, ht⟩ := List.forall_mem_cons.1 ht
    rw [lowerAfter_cons hc, ih ht, List.flatMap_cons]

theorem IsAscii.lower_eq (ht : t.IsAscii) : lower t = t.flatMap fun c ↦ lower [c] := ht.lowerAfter_eq []

theorem lower_of_not_isUpper (hc : c.val < 0x80) (hupper : c.isUpper = false) : lower [c] = [c] := by
  rw [lower, Case.lowerAfter, if_neg (ne_sigma hc), if_pos hc, hupper]
  rfl

/-- A capital has a small letter, of which it is the capital. -/
theorem exists_lower_of_isUpper (hc : c.isUpper) : ∃ d : CodePoint, lower [c] = [d] ∧ d.isLower ∧ upper [d] = [c] := by
  have hval : 0x41 ≤ c.val ∧ c.val ≤ 0x5A := by simpa [CodePoint.isUpper] using hc
  have hlt : c.val + 32 < 0x110000 := by omega
  have hlower : (⟨c.val + 32, hlt⟩ : CodePoint).isLower := by
    simp only [CodePoint.isLower, Bool.and_eq_true, decide_eq_true_eq]
    omega
  have hascii : (⟨c.val + 32, hlt⟩ : CodePoint).val < 0x80 := by
    change c.val + 32 < 0x80
    omega
  refine ⟨⟨c.val + 32, hlt⟩, ?_, hlower, ?_⟩
  · rw [lower, Case.lowerAfter, if_neg (ne_sigma (by omega)), if_pos (by omega), if_pos hc, CodePoint.ofNat?,
      dif_pos hlt]
    rfl
  · rw [upper, List.flatMap_singleton, if_pos hascii, if_pos hlower, Nat.add_sub_cancel, CodePoint.ofNat?,
      dif_pos c.isLt]
    rfl

end PolymerAnalysis.Text
