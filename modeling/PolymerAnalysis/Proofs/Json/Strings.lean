import PolymerAnalysis.Json.Reader
import PolymerAnalysis.Json.Writer
import PolymerAnalysis.Proofs.Text.Numeral
import Mathlib.Data.List.Chain

namespace PolymerAnalysis.Json

open Text Numeral

variable {c d : CodePoint} {t rest : Text} {n : Nat}

section Units

theorem digitValue?_digitChar (h : n < 16) : (CodePoint.ofChar n.digitChar).digitValue? 16 = some n := by
  revert n
  decide

theorem valueFrom_toDigits (n : Nat) : valueFrom 16 0 ((Nat.toDigits 16 n).map .ofChar) = some n := by
  induction n using Nat.strongRecOn with
  | ind n ih =>
    by_cases hn : n < 16
    · rw [Nat.toDigits_of_lt_base hn, List.map_singleton, valueFrom, digitValue?_digitChar hn]
      simp [valueFrom]
    · have hsplit : n = 16 * (n / 16) + n % 16 := by omega
      have hlast : n % 16 < 16 := Nat.mod_lt n (by decide)
      rw [hsplit, ← Nat.toDigits_append_toDigits (by decide) (by omega) hlast, List.map_append, valueFrom_append,
        ih _ (by omega), Option.bind_some, Nat.toDigits_of_lt_base hlast, List.map_singleton, valueFrom,
        digitValue?_digitChar hlast]
      simp [valueFrom, Nat.mul_comm]

/-- The numeral of a unit has four digits that name the unit. -/
theorem exists_hex (hn : n < 0x10000) :
    ∃ h₁ h₂ h₃ h₄, hex 4 n = [h₁, h₂, h₃, h₄] ∧ value? 16 [h₁, h₂, h₃, h₄] = some n := by
  have hlength : (Nat.toDigits 16 n).length ≤ 4 := (Nat.length_toDigits_le_iff (by decide) (by decide)).2 hn
  have hvalue : valueFrom 16 0 (hex 4 n) = some n := by
    rw [hex, padded, valueFrom_zeros_append (show 0 < 16 by decide), valueFrom_toDigits]
  have hfour : (hex 4 n).length = 4 := by
    rw [hex, padded, List.length_append, List.length_replicate, List.length_map]
    omega
  generalize hex 4 n = l at hvalue hfour
  match l, hfour with
  | [h₁, h₂, h₃, h₄], _ => exact ⟨h₁, h₂, h₃, h₄, rfl, hvalue⟩

theorem stringBody_unitEscape (hc : c.val < 0x10000) (rest : Text) : stringBody (unitEscape c.val ++ rest) =
    (stringBody rest).map fun r ↦ (joinUnit c (startsWith rest "\\u") r.1, r.2 + 6) := by
  obtain ⟨h₁, h₂, h₃, h₄, hhex, hvalue⟩ := exists_hex hc
  have hcode : CodePoint.ofNat? c.val = some c := dif_pos c.isLt
  have hbody : unitEscape c.val ++ rest =
      CodePoint.ofChar '\\' :: CodePoint.ofChar 'u' :: h₁ :: h₂ :: h₃ :: h₄ :: rest := by
    rw [unitEscape, hhex]
    rfl
  rw [hbody, stringBody.eq_def]
  simp only [↓reduceIte, hvalue]
  rw [if_neg (by decide), if_neg (by decide)]
  cases stringBody rest <;> simp [hcode]

theorem length_unitEscape (hn : n < 0x10000) : (unitEscape n).length = 6 := by
  obtain ⟨h₁, h₂, h₃, h₄, hhex, -⟩ := exists_hex hn
  rw [unitEscape, hhex]
  rfl

end Units

section Escapes

theorem stringBody_simple {e x : CodePoint} (he : e ≠ 'u') (hx : simpleEscape? e = some x) (rest : Text) :
    stringBody (CodePoint.ofChar '\\' :: e :: rest) = (stringBody rest).map fun r ↦ (x :: r.1, r.2 + 2) := by
  rw [stringBody.eq_def]
  simp only [↓reduceIte, if_neg he, hx]
  rw [if_neg (by decide), if_neg (by decide)]
  cases stringBody rest <;> simp

theorem stringBody_plain (hquote : c ≠ '"') (hbackslash : c ≠ '\\') (hc : 0x20 ≤ c.val) (rest : Text) :
    stringBody (c :: rest) = (stringBody rest).map fun r ↦ (c :: r.1, r.2 + 1) := by
  rw [stringBody.eq_def]
  simp only [if_neg hquote, if_neg hbackslash, if_neg (Nat.not_lt.2 hc)]
  cases stringBody rest <;> simp

theorem joinUnit_of_not_high {b : Bool} (h : isHighSurrogate c = false) : joinUnit c b t = c :: t := by
  cases t with
  | nil => rfl
  | cons d t => rw [joinUnit, h, Bool.and_false, Bool.false_and, if_neg Bool.false_ne_true]

theorem isHighSurrogate_iff : isHighSurrogate c = true ↔ 0xD800 ≤ c.val ∧ c.val < 0xDC00 := by
  rw [isHighSurrogate, Bool.and_eq_true, decide_eq_true_eq, decide_eq_true_eq]

theorem isLowSurrogate_iff : isLowSurrogate c = true ↔ 0xDC00 ≤ c.val ∧ c.val < 0xE000 := by
  rw [isLowSurrogate, Bool.and_eq_true, decide_eq_true_eq, decide_eq_true_eq]

theorem joinUnit_of_pair (hc : isHighSurrogate c = true) (hd : isLowSurrogate d = true) (t : Text) :
    joinUnit c true (d :: t) =
      (CodePoint.ofNat? (0x10000 + (c.val - 0xD800) * 0x400 + (d.val - 0xDC00))).getD c :: t := by
  rw [joinUnit, hc, hd, if_pos (by rfl)]

theorem startsWith_unitEscape (n : Nat) (rest : Text) : startsWith (unitEscape n ++ rest) "\\u" = true := by
  rw [startsWith, unitEscape, List.append_assoc]
  exact List.isPrefixOf_iff_prefix.2 (List.prefix_append _ _)

/-- A code point above the basic plane is written as two units, which are joined again. -/
theorem stringBody_pair (hc : 0x10000 ≤ c.val) (rest : Text) :
    stringBody (unitEscape (0xD800 + (c.val - 0x10000) / 0x400) ++
        unitEscape (0xDC00 + (c.val - 0x10000) % 0x400) ++ rest) =
      (stringBody rest).map fun r ↦ (c :: r.1, r.2 + 12) := by
  have hlt := c.isLt
  generalize hhigh : 0xD800 + (c.val - 0x10000) / 0x400 = high
  generalize hlow : 0xDC00 + (c.val - 0x10000) % 0x400 = low
  have hhigh' : high < 0x10000 := by omega
  have hlow' : low < 0x10000 := by omega
  have hishigh : isHighSurrogate ⟨high, by omega⟩ = true :=
    isHighSurrogate_iff.2 ⟨by simp only; omega, by simp only; omega⟩
  have hislow : isLowSurrogate ⟨low, by omega⟩ = true :=
    isLowSurrogate_iff.2 ⟨by simp only; omega, by simp only; omega⟩
  have hnothigh : isHighSurrogate ⟨low, by omega⟩ = false :=
    Bool.eq_false_iff.2 fun h ↦ absurd (isHighSurrogate_iff.1 h).2 (by simp only; omega)
  have hcode : CodePoint.ofNat? (0x10000 + (high - 0xD800) * 0x400 + (low - 0xDC00)) = some c := by
    have hval : 0x10000 + (high - 0xD800) * 0x400 + (low - 0xDC00) = c.val := by omega
    rw [hval]
    exact dif_pos hlt
  rw [List.append_assoc, stringBody_unitEscape (c := ⟨high, by omega⟩) hhigh',
    stringBody_unitEscape (c := ⟨low, by omega⟩) hlow', Option.map_map, startsWith_unitEscape]
  refine congrArg (fun f ↦ (stringBody rest).map f) (funext fun r ↦ ?_)
  rw [Function.comp_apply, joinUnit_of_not_high hnothigh, joinUnit_of_pair hishigh hislow, hcode, Option.getD_some]

/-- One code point is read from its escape, and joined with what is read behind it. -/
theorem stringBody_escape (c : CodePoint) (rest : Text) : stringBody (escape c ++ rest) =
    (stringBody rest).map fun r ↦ (joinUnit c (startsWith rest "\\u") r.1, r.2 + (escape c).length) := by
  have hkeep (h : c.val < 0xD800 ∨ 0xDC00 ≤ c.val) (b : Bool) (t : Text) : joinUnit c b t = c :: t := by
    refine joinUnit_of_not_high (Bool.eq_false_iff.2 fun htrue ↦ ?_)
    have hval := isHighSurrogate_iff.1 htrue
    omega
  have hsimple (e : CodePoint) (he : e ≠ 'u') (hx : simpleEscape? e = some c) (hc : c.val < 0xD800) :
      stringBody ([CodePoint.ofChar '\\', e] ++ rest) =
        (stringBody rest).map fun r ↦ (joinUnit c (startsWith rest "\\u") r.1, r.2 + 2) := by
    simp only [hkeep (.inl hc)]
    exact stringBody_simple he hx rest
  rw [escape]
  split_ifs with hquote hline hreturn htab hback hform hprint hplane
  · rcases hquote with rfl | rfl
    · exact hsimple '"' (by decide) rfl (by decide)
    · exact hsimple '\\' (by decide) rfl (by decide)
  · subst hline
    exact hsimple 'n' (by decide) rfl (by decide)
  · subst hreturn
    exact hsimple 'r' (by decide) rfl (by decide)
  · subst htab
    exact hsimple 't' (by decide) rfl (by decide)
  · obtain rfl : c = CodePoint.ofChar '\x08' := CodePoint.eq_of_val hback
    exact hsimple 'b' (by decide) rfl (by decide)
  · obtain rfl : c = CodePoint.ofChar '\x0c' := CodePoint.eq_of_val hform
    exact hsimple 'f' (by decide) rfl (by decide)
  · simp only [hkeep (.inl (by omega))]
    exact stringBody_plain (fun h ↦ hquote (.inl h)) (fun h ↦ hquote (.inr h)) hprint.1 rest
  · rw [stringBody_unitEscape hplane, length_unitEscape hplane]
  · have hlt := c.isLt
    simp only [hkeep (.inr (by omega))]
    rw [stringBody_pair (Nat.not_lt.1 hplane), List.length_append, length_unitEscape (by omega),
      length_unitEscape (by omega)]

end Escapes

section Pairs

def joinPairs (t : Text) : Text := t.foldr (joinUnit · true) []

/-- No half of a surrogate pair is followed by the other one. -/
def Unpaired (t : Text) : Prop := t.IsChain fun c d ↦ ¬(isHighSurrogate c = true ∧ isLowSurrogate d = true)

instance (t : Text) : Decidable (Unpaired t) := inferInstanceAs (Decidable (t.IsChain _))

theorem joinUnit_cases (c : CodePoint) (t : Text) :
    (∃ d u, t = d :: u ∧ (isHighSurrogate c = true ∧ isLowSurrogate d = true) ∧
      ∃ e, 0x10000 ≤ e.val ∧ joinUnit c true t = e :: u) ∨
    (∀ d ∈ t.head?, ¬(isHighSurrogate c = true ∧ isLowSurrogate d = true)) ∧ joinUnit c true t = c :: t := by
  cases t with
  | nil => exact .inr ⟨fun d hd ↦ (by cases hd), rfl⟩
  | cons d u =>
    by_cases h : isHighSurrogate c = true ∧ isLowSurrogate d = true
    · have hc := isHighSurrogate_iff.1 h.1
      have hd := isLowSurrogate_iff.1 h.2
      have hlt : 0x10000 + (c.val - 0xD800) * 0x400 + (d.val - 0xDC00) < 0x110000 := by omega
      refine .inl ⟨d, u, rfl, h, ⟨_, hlt⟩, by simp only; omega, ?_⟩
      rw [joinUnit_of_pair h.1 h.2, CodePoint.ofNat?, dif_pos hlt, Option.getD_some]
    · refine .inr ⟨fun e he ↦ Option.some.inj he ▸ h, ?_⟩
      rw [joinUnit, Bool.true_and, if_neg (by simpa using h)]

theorem unpaired_joinUnit (ht : Unpaired t) : Unpaired (joinUnit c true t) := by
  obtain ⟨d, u, rfl, -, e, he, hjoin⟩ | ⟨hhead, hjoin⟩ := joinUnit_cases c t
  · rw [hjoin]
    refine List.isChain_cons.2 ⟨fun f _ hef ↦ ?_, ht.tail⟩
    have hval := isHighSurrogate_iff.1 hef.1
    omega
  · rw [hjoin]
    exact List.isChain_cons.2 ⟨hhead, ht⟩

theorem unpaired_joinPairs (t : Text) : Unpaired (joinPairs t) := by
  induction t with
  | nil => exact .nil
  | cons c t ih => exact unpaired_joinUnit ih

theorem joinPairs_of_unpaired (h : Unpaired t) : joinPairs t = t := by
  induction t with
  | nil => rfl
  | cons c t ih =>
    obtain ⟨hhead, ht⟩ := List.isChain_cons.1 h
    have hcons : joinPairs (c :: t) = joinUnit c true (joinPairs t) := rfl
    rw [hcons, ih ht]
    obtain ⟨d, u, rfl, hpair, -⟩ | ⟨-, hjoin⟩ := joinUnit_cases c t
    · exact absurd hpair (hhead d rfl)
    · exact hjoin

theorem escape_of_low (h : isLowSurrogate c = true) : escape c = unitEscape c.val := by
  have hval := isLowSurrogate_iff.1 h
  have hne (d : Char) (hd : (CodePoint.ofChar d).val < 0xDC00) : c ≠ d := by
    rintro rfl
    omega
  rw [escape, if_neg (not_or.2 ⟨hne _ (by decide), hne _ (by decide)⟩), if_neg (hne _ (by decide)),
    if_neg (hne _ (by decide)), if_neg (hne _ (by decide)), if_neg (by omega), if_neg (by omega), if_neg (by omega),
    if_pos (by omega)]

/-- Where a low half is read, it has been written as an escape. -/
theorem joinUnit_startsWith (c : CodePoint) (t rest : Text) :
    joinUnit c (startsWith (t.flatMap escape ++ CodePoint.ofChar '"' :: rest) "\\u") (joinPairs t) =
      joinUnit c true (joinPairs t) := by
  cases t with
  | nil => rfl
  | cons d t =>
    have hcons : joinPairs (d :: t) = joinUnit d true (joinPairs t) := rfl
    by_cases hd : isLowSurrogate d = true
    · rw [List.flatMap_cons, escape_of_low hd, List.append_assoc, startsWith_unitEscape]
    · obtain ⟨e, u, -, hpair, f, hf, hjoin⟩ | ⟨-, hjoin⟩ := joinUnit_cases d (joinPairs t)
      · have hlow : isLowSurrogate f = false := by
          refine Bool.eq_false_iff.2 fun h ↦ ?_
          have hval := isLowSurrogate_iff.1 h
          omega
        rw [hcons, hjoin]
        simp [joinUnit, hlow]
      · rw [hcons, hjoin]
        simp [joinUnit, hd]

/-- The contents of a written string are read up to the closing quote. -/
theorem stringBody_write (t rest : Text) : stringBody (t.flatMap escape ++ CodePoint.ofChar '"' :: rest) =
    some (joinPairs t, (t.flatMap escape).length + 1) := by
  induction t with
  | nil =>
    rw [List.flatMap_nil, List.nil_append, stringBody.eq_def]
    rfl
  | cons c t ih =>
    rw [List.flatMap_cons, List.append_assoc, stringBody_escape, ih, Option.map_some, joinUnit_startsWith,
      List.length_append, Nat.add_comm (escape c).length, Nat.add_right_comm]
    rfl

end Pairs

end PolymerAnalysis.Json
