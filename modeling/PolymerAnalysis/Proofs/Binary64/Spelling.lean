import PolymerAnalysis.Proofs.Binary64.Shortest
import PolymerAnalysis.Proofs.Text.Lines

namespace PolymerAnalysis

theorem Stops.mono {α : Type} {P Q : α → Prop} {l : List α} (h : Stops P l) (hQ : ∀ a, Q a → P a) : Stops Q l :=
  fun a ha hq ↦ h a ha (hQ a hq)

namespace Text

variable {t u whole fraction mark : Text} {c : CodePoint} {m n start : Nat}

/-- A point and digits behind it, or nothing. -/
inductive IsFraction : Text → Prop
  | none : IsFraction []
  | some {t : Text} (hne : t ≠ []) (hdigits : ∀ c ∈ t, c.isDigit) : IsFraction (CodePoint.ofChar '.' :: t)

/-- A letter, a sign that may lack and digits, or nothing. -/
inductive IsExponent : Text → Prop
  | none : IsExponent []
  | some {letter : CodePoint} {sign t : Text} (hletter : letter = 'e' ∨ letter = 'E')
      (hsign : sign = [] ∨ sign = "+" ∨ sign = "-") (hne : t ≠ []) (hdigits : ∀ c ∈ t, c.isDigit) :
      IsExponent (letter :: (sign ++ t))

theorem IsFraction.stops (h : IsFraction fraction) : Stops (fun c : CodePoint ↦ c.isDigit) fraction := by
  cases h with
  | none => exact stops_nil _
  | some => exact stops_cons (by decide)

theorem IsExponent.stops (h : IsExponent mark) : Stops (fun c : CodePoint ↦ c.isDigit ∨ c = '.') mark := by
  cases h with
  | none => exact stops_nil _
  | some hletter =>
    refine stops_cons ?_
    rcases hletter with rfl | rfl <;> decide

namespace Numeral

theorem value?_of_ne_nil (ht : t ≠ []) : value? 10 t = valueFrom 10 0 t := by
  rw [value?, if_neg (by simpa using ht)]

end Numeral

end Text

namespace Binary64

open Text Numeral

variable {negative : Bool} {t u whole fraction mark : Text} {c : CodePoint} {k m n p start : Nat} {e leading : Int}

def exponentOf? : Text → Option Int
  | [] => some 0
  | _ :: t => exponent? t

theorem unsigned?_eq (hwhole : ∀ c ∈ whole, c.isDigit) (hfraction : IsFraction fraction) (hmark : IsExponent mark) :
    unsigned? negative (whole ++ (fraction ++ mark)) = (do
      let digits ← value? 10 (whole ++ fraction.drop 1)
      let e ← exponentOf? mark
      pure (ofDecimal negative digits (e - ((fraction.drop 1).length : Int)))) := by
  have hmarkStops : Stops (fun c : CodePoint ↦ c.isDigit) mark := hmark.stops.mono fun _ ↦ .inl
  have hstops := stops_append hfraction.stops fun _ ↦ hmarkStops
  rw [unsigned?, takeWhile_append_of_stops hwhole hstops, dropWhile_append_of_stops hwhole hstops]
  cases hfraction with
  | none =>
    cases hmark with
    | none => rfl
    | @some letter sign t hletter =>
      have hpoint : letter ≠ '.' := by rcases hletter with rfl | rfl <;> decide
      simp only [List.nil_append, if_neg hpoint, if_pos hletter]
      rfl
  | some hne hdigits =>
    simp only [List.cons_append, ↓reduceIte, takeWhile_append_of_stops hdigits hmarkStops,
      dropWhile_append_of_stops hdigits hmarkStops]
    cases hmark with
    | none => rfl
    | some hletter =>
      simp only [if_pos hletter]
      rfl

/-- A numeral with a point or an exponent, and the number that it spells. -/
inductive IsSpelling : Text → ℚ → Prop
  | mk {whole fraction mark : Text} {k : Nat} {e : Int} (hwhole : IsNumeral whole) (hfraction : IsFraction fraction)
      (hmark : IsExponent mark) (hne : fraction ≠ [] ∨ mark ≠ [])
      (hdigits : value? 10 (whole ++ fraction.drop 1) = some k) (hexponent : exponentOf? mark = some e) :
      IsSpelling (whole ++ (fraction ++ mark)) (k * 10 ^ (e - ((fraction.drop 1).length : Int)))

theorem IsSpelling.congr {q r : ℚ} (h : IsSpelling t q) (ht : t = u) (hq : q = r) : IsSpelling u r := ht ▸ hq ▸ h

theorem IsSpelling.unsigned?_eq {q : ℚ} (h : IsSpelling t q) (negative : Bool) :
    ∃ k e, q = (k : Nat) * 10 ^ (e : Int) ∧ unsigned? negative t = some (ofDecimal negative k e) := by
  cases h with
  | mk hwhole hfraction hmark hne hdigits hexponent =>
    refine ⟨_, _, rfl, ?_⟩
    rw [Binary64.unsigned?_eq hwhole.isDigit hfraction hmark, hdigits, hexponent]
    rfl

theorem IsSpelling.head {q : ℚ} (h : IsSpelling t q) : t ≠ [] ∧ ∀ d ∈ t.head?, d.isDigit := by
  cases h with
  | mk hwhole =>
    refine ⟨List.append_ne_nil_of_left_ne_nil hwhole.ne_nil _, fun d hd ↦ ?_⟩
    rw [List.head?_append_of_ne_nil _ hwhole.ne_nil] at hd
    exact hwhole.isDigit d (List.mem_of_mem_head? hd)

section Layout

theorem isNumeral_cons (hc : c.isDigit) (hzero : c ≠ '0') (ht : ∀ d ∈ t, d.isDigit) : IsNumeral (c :: t) where
  ne_nil := List.cons_ne_nil c t
  isDigit := List.forall_mem_cons.2 ⟨hc, ht⟩
  canonical h := absurd (Option.some.inj h) hzero

theorem isDigit_zeros (k : Nat) : ∀ c ∈ List.replicate k (CodePoint.ofChar '0'), c.isDigit := by
  intro c hc
  rw [List.eq_of_mem_replicate hc]
  decide

variable (hc : c.isDigit) (hzero : c ≠ '0') (ht : ∀ d ∈ t, d.isDigit) (hn : value? 10 (c :: t) = some n)

include hc ht hn in
theorem isSpelling_small {z : Nat} (hz : leading = -z - 1) :
    IsSpelling ('0' :: '.' :: (List.replicate z (.ofChar '0') ++ c :: t))
      (n * 10 ^ (leading - ((c :: t).length : Int) + 1)) := by
  have hvalue : value? 10 ([CodePoint.ofChar '0'] ++ (List.replicate z (.ofChar '0') ++ c :: t)) = some n := by
    rw [← hn, value?_of_ne_nil (by simp), value?_of_ne_nil (by simp), List.singleton_append, ← List.cons_append,
      ← List.replicate_succ, valueFrom_zeros_append (show 0 < 10 by decide)]
  refine (IsSpelling.mk (isNumeral_ofNat 0) (.some (by simp) ?_) .none (.inl (by simp)) hvalue rfl).congr ?_ ?_
  · exact List.forall_mem_append.2 ⟨isDigit_zeros z, List.forall_mem_cons.2 ⟨hc, ht⟩⟩
  · rw [List.append_nil]
    rfl
  · congr 2
    simp only [List.drop_succ_cons, List.drop_zero, List.length_append, List.length_replicate]
    omega

include hc hzero ht hn in
theorem isSpelling_point {w : Nat} (hw : w < t.length) :
    IsSpelling (c :: t.take w ++ CodePoint.ofChar '.' :: t.drop w)
      (n * 10 ^ ((w : Int) - ((c :: t).length : Int) + 1)) := by
  have hvalue : value? 10 (c :: t.take w ++ t.drop w) = some n := by
    rw [List.cons_append, List.take_append_drop, hn]
  refine (IsSpelling.mk (isNumeral_cons hc hzero fun d hd ↦ ht d (List.mem_of_mem_take hd))
    (.some (by simpa using hw) fun d hd ↦ ht d (List.mem_of_mem_drop hd)) .none (.inl (by simp)) hvalue rfl).congr ?_ ?_
  · rw [List.append_nil]
  · congr 2
    simp only [List.drop_succ_cons, List.drop_zero, List.length_drop, List.length_cons]
    omega

include hc hzero ht hn in
theorem isSpelling_whole {z : Nat} (hz : leading = t.length + z) :
    IsSpelling (c :: t ++ List.replicate z (.ofChar '0') ++ (".0" : Text))
      (n * 10 ^ (leading - ((c :: t).length : Int) + 1)) := by
  have hvalue : value? 10 (c :: (t ++ List.replicate z (.ofChar '0')) ++ [.ofChar '0']) = some (n * 10 ^ (z + 1)) := by
    rw [value?_of_ne_nil (List.cons_ne_nil c t)] at hn
    rw [List.cons_append, List.append_assoc, ← List.replicate_succ', ← List.cons_append, value?_of_ne_nil (by simp),
      valueFrom_append, hn, Option.bind_some, valueFrom_zeros (show 0 < 10 by decide)]
  refine (IsSpelling.mk (isNumeral_cons hc hzero (List.forall_mem_append.2 ⟨ht, isDigit_zeros z⟩))
    (.some (t := [.ofChar '0']) (by decide) (by decide)) .none (.inl (by simp)) hvalue rfl).congr ?_ ?_
  · rw [List.append_nil]
    rfl
  · have hexponent : leading - ((c :: t).length : Int) + 1 = z := by
      rw [hz, List.length_cons]
      omega
    rw [hexponent, zpow_natCast]
    norm_num [pow_succ]
    ring

theorem exponent?_sign (leading : Int) :
    exponent? ((if leading < 0 then "-" else "+" : Text) ++ padded 2 (ofNat leading.natAbs)) = some leading := by
  have hvalue : value? 10 (padded 2 (ofNat leading.natAbs)) = some leading.natAbs := by
    rw [padded, value?_of_ne_nil (by simp [ofNat_ne_nil]), valueFrom_zeros_append (show 0 < 10 by decide),
      valueFrom_ofNat]
  split
  · next hlt =>
    have hminus : exponent? ('-' :: padded 2 (ofNat leading.natAbs)) = some (-(leading.natAbs : Int)) := by
      rw [exponent?, if_pos rfl, hvalue]
      rfl
    exact hminus.trans (congrArg some (by omega))
  · next hge =>
    have hplus : exponent? ('+' :: padded 2 (ofNat leading.natAbs)) = some (leading.natAbs : Int) := by
      rw [exponent?, if_neg (by decide), if_pos rfl, hvalue]
      rfl
    exact hplus.trans (congrArg some (by omega))

theorem isExponent_sign (leading : Int) : IsExponent
    (CodePoint.ofChar 'e' :: ((if leading < 0 then "-" else "+" : Text) ++ padded 2 (ofNat leading.natAbs))) := by
  have hsign : (if leading < 0 then "-" else "+" : Text) = "+" ∨ (if leading < 0 then "-" else "+" : Text) = "-" := by
    split
    · exact .inr rfl
    · exact .inl rfl
  refine .some (.inl rfl) (.inr hsign) (by simp [padded, ofNat_ne_nil]) ?_
  exact List.forall_mem_append.2 ⟨isDigit_zeros _, (isNumeral_ofNat _).isDigit⟩

include hc hzero ht hn in
theorem isSpelling_exponent (leading : Int) : IsSpelling
    ([c] ++ (if (c :: t).length ≤ 1 then [] else "." ++ t : Text) ++ "e" ++
      (if leading < 0 then "-" else "+" : Text) ++ padded 2 (ofNat leading.natAbs))
    (n * 10 ^ (leading - ((c :: t).length : Int) + 1)) := by
  have hmark := isExponent_sign leading
  have hfraction : IsFraction (if (c :: t).length ≤ 1 then [] else "." ++ t) ∧
      (if (c :: t).length ≤ 1 then [] else "." ++ t : Text).drop 1 = t := by
    cases t with
    | nil => exact ⟨.none, rfl⟩
    | cons d t => exact ⟨.some (List.cons_ne_nil d t) ht, rfl⟩
  refine (IsSpelling.mk (isNumeral_cons hc hzero (List.forall_mem_nil _)) hfraction.1 hmark
    (.inr (List.cons_ne_nil _ _)) (k := n) ?_ (exponent?_sign leading)).congr ?_ ?_
  · rw [hfraction.2]
    exact hn
  · simp only [List.append_assoc]
    rfl
  · rw [hfraction.2, List.length_cons]
    congr 2
    omega

/-- The layout of significant digits spells them behind the leading exponent. -/
theorem isSpelling_layout (hdigits : ∀ d ∈ t, d.isDigit) (hhead : t.head? ≠ some (.ofChar '0'))
    (hn : value? 10 t = some n) (leading : Int) :
    IsSpelling (layout t leading) (n * 10 ^ (leading - (t.length : Int) + 1)) := by
  cases t with
  | nil => cases hn
  | cons c t =>
    have hzero : c ≠ '0' := fun h ↦ hhead (congrArg some h)
    rw [List.forall_mem_cons] at hdigits
    obtain ⟨hc, ht⟩ := hdigits
    simp only [layout]
    split
    · next hrange =>
      split
      · exact (isSpelling_small hc ht hn (z := (-leading - 1).toNat) (by omega)).congr rfl rfl
      · obtain ⟨w, rfl⟩ := Int.eq_ofNat_of_zero_le (show 0 ≤ leading by omega)
        simp only [Int.toNat_natCast, List.take_succ_cons, List.drop_succ_cons, List.length_cons, List.length_take]
        by_cases hw : w < t.length
        · have hzeros : ((w : Int) + 1 - ((min w t.length + 1 : Nat) : Int)).toNat = 0 := by omega
          have hpart : (t.drop w).isEmpty = false := by simpa using hw
          refine (isSpelling_point hc hzero ht hn hw).congr ?_ rfl
          rw [hzeros, hpart, List.replicate_zero, List.append_nil, List.append_assoc]
          rfl
        · have hzeros : ((w : Int) + 1 - ((min w t.length + 1 : Nat) : Int)).toNat = w - t.length := by omega
          have hle : t.length ≤ w := Nat.not_lt.1 hw
          refine (isSpelling_whole hc hzero ht hn (z := w - t.length) (by omega)).congr ?_ rfl
          rw [hzeros, List.take_of_length_le hle, List.drop_of_length_le hle, List.append_assoc _ (ofString ".")]
          rfl
    · refine (isSpelling_exponent hc hzero ht hn leading).congr ?_ rfl
      rfl

end Layout

section Significant

theorem exists_zeros (t : Text) :
    ∃ k, t = dropEndWhile (fun c : CodePoint ↦ c = '0') t ++ List.replicate k (.ofChar '0') := by
  have hzeros : ∀ c ∈ t.reverse.takeWhile fun c : CodePoint ↦ c = '0', c = .ofChar '0' :=
    fun c hc ↦ of_decide_eq_true (List.mem_takeWhile_imp (p := fun c : CodePoint ↦ c = '0') hc)
  refine ⟨(t.reverse.takeWhile fun c : CodePoint ↦ c = '0').length, ?_⟩
  rw [← List.reverse_replicate, ← List.eq_replicate_of_mem hzeros, dropEndWhile, ← List.reverse_append,
    List.takeWhile_append_dropWhile, List.reverse_reverse]

/-- The significant digits of a numeral spell its value. -/
theorem isSpelling_significant {d : Decimal} (hd : 0 < d.digits) :
    IsSpelling (layout d.significant.1 d.significant.2) d.value := by
  obtain ⟨k, hk⟩ := exists_zeros (ofNat d.digits)
  have hlength := congrArg List.length hk
  have hvalue := valueFrom_ofNat d.digits
  have hdigits := (isNumeral_ofNat d.digits).isDigit
  have hhead := head?_ofNat_ne hd
  have hne := ofNat_ne_nil d.digits
  simp only [Decimal.significant]
  generalize dropEndWhile (fun c : CodePoint ↦ c = '0') (ofNat d.digits) = t at *
  rw [hk] at hvalue hdigits hhead hne
  rw [List.length_append, List.length_replicate] at hlength
  have htne : t ≠ [] := by
    rintro rfl
    cases k with
    | zero => exact hne rfl
    | succ k => exact hhead rfl
  rw [List.head?_append_of_ne_nil _ htne] at hhead
  have ht : ∀ c ∈ t, c.isDigit := fun c hc ↦ hdigits c (List.mem_append_left _ hc)
  obtain ⟨n, hn⟩ := Option.isSome_iff_exists.1 (isSome_value?_iff.2 ⟨htne, ht⟩)
  have hfrom := (value?_of_ne_nil htne).symm.trans hn
  rw [valueFrom_append, hfrom, Option.bind_some, valueFrom_zeros (show 0 < 10 by decide), Option.some_inj] at hvalue
  refine (isSpelling_layout ht hhead hn _).congr rfl ?_
  have hexponent : d.exponent + ((ofNat d.digits).length : Int) - 1 - (t.length : Int) + 1 = k + d.exponent := by
    rw [hlength]
    omega
  rw [hexponent, zpow_add₀ (by norm_num), zpow_natCast, ← mul_assoc, Decimal.value, ← hvalue]
  push_cast
  rfl

end Significant

/-- A finite number reads back from the spelling that its text is. -/
theorem isSpelling_toText (negative : Bool) (hcanonical : (finite negative m p).IsCanonical) :
    ∃ q, IsSpelling (toText (.finite false m p)) q ∧
      unsigned? negative (toText (.finite false m p)) = some (.finite negative m p) := by
  by_cases hm : m = 0
  · subst hm
    obtain rfl : p = 0 := hcanonical.2.1.resolve_left (by decide)
    have hfraction : IsFraction ".0" := .some (t := [.ofChar '0']) (by decide) (by decide)
    exact ⟨_, .mk (isNumeral_ofNat 0) hfraction .none (.inl (by decide)) rfl rfl, rfl⟩
  · have hhas := has_shortest hm hcanonical
    have htext : toText (.finite false m p) = layout (shortest m p).significant.1 (shortest m p).significant.2 := by
      simp only [toText, if_neg hm]
      rfl
    generalize shortest m p = d at *
    have hspelling := isSpelling_significant (digits_pos_of_has hm hhas)
    rw [← htext] at hspelling
    obtain ⟨k, e, hvalue, hread⟩ := hspelling.unsigned?_eq negative
    refine ⟨_, hspelling, hread.trans (congrArg some ?_)⟩
    rw [hvalue] at hhas
    exact ofDecimal_of_has hm hcanonical hhas

end Binary64

end PolymerAnalysis
