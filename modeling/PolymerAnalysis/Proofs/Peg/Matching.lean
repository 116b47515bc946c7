import PolymerAnalysis.Peg.Basic
import PolymerAnalysis.Proofs.Text.Lines
import Mathlib.Data.Option.Basic

namespace PolymerAnalysis.Peg

variable {isIn : CodePoint → Bool} {next : Text → Option Text} {t u x y rest last : Text} {p : Pattern} {e : Expr}
  {es : List Expr} {tree : Tree} {trees : List Tree} {step : Text → Option (Tree × Text)} {limit : Option Nat}

section Patterns

theorem takeMany_stops (hy : Stops (isIn ·) y) : takeMany isIn next y = next y := by
  cases y with
  | nil => rw [takeMany]
  | cons c cs => rw [takeMany, if_neg (hy c rfl)]

theorem takeMany_append (hx : ∀ c ∈ x, isIn c = true) (hy : Stops (isIn ·) y) (hnext : next y = some u) :
    takeMany isIn next (x ++ y) = some u := by
  induction x with
  | nil => exact (takeMany_stops hy).trans hnext
  | cons c cs ih =>
    rw [List.cons_append, takeMany, if_pos (hx c List.mem_cons_self),
      ih fun d hd ↦ hx d (List.mem_cons_of_mem c hd)]
    rfl

theorem exists_of_takeMany (h : takeMany isIn next t = some u) :
    ∃ x y, t = x ++ y ∧ (∀ c ∈ x, isIn c = true) ∧ next y = some u := by
  induction t with
  | nil =>
    rw [takeMany] at h
    exact ⟨[], [], rfl, fun c hc ↦ (by cases hc), h⟩
  | cons c cs ih =>
    have hnone : next (c :: cs) = some u →
        ∃ x y, c :: cs = x ++ y ∧ (∀ d ∈ x, isIn d = true) ∧ next y = some u :=
      fun h ↦ ⟨[], c :: cs, rfl, fun d hd ↦ (by cases hd), h⟩
    rw [takeMany] at h
    split at h
    · next hc =>
      rcases (Option.orElse_eq_some _ _ _).1 h with h | ⟨-, h⟩
      · obtain ⟨x, y, rfl, hx, hy⟩ := ih h
        refine ⟨c :: x, y, rfl, fun d hd ↦ ?_, hy⟩
        rcases List.mem_cons.1 hd with rfl | hd
        · exact hc
        · exact hx d hd
      · exact hnone h
    · exact hnone h

theorem Pattern.rest?_many (isIn : CodePoint → Bool) (p : Pattern) (t : Text) :
    Pattern.rest? (⟨isIn, .many⟩ :: p) t = takeMany isIn p.rest? t := rfl

theorem Pattern.rest?_one {c : CodePoint} (hc : isIn c) (p : Pattern) (t : Text) :
    Pattern.rest? (⟨isIn, .one⟩ :: p) (c :: t) = p.rest? t := if_pos hc

theorem Pattern.exists_of_rest?_one (h : Pattern.rest? (⟨isIn, .one⟩ :: p) t = some rest) :
    ∃ c u, t = c :: u ∧ isIn c ∧ p.rest? u = some rest := by
  cases t with
  | nil => cases h
  | cons c u =>
    by_cases hc : isIn c
    · exact ⟨c, u, rfl, hc, (rest?_one hc p u).symm.trans h⟩
    · have hnone : Pattern.rest? (⟨isIn, .one⟩ :: p) (c :: u) = none := if_neg hc
      cases hnone.symm.trans h

theorem Piece.suffix_of_takeThen {piece : Piece} (hnext : ∀ t u, next t = some u → u <:+ t)
    (h : piece.takeThen next t = some u) : u <:+ t := by
  obtain ⟨isIn, frequency⟩ := piece
  cases frequency with
  | many =>
    obtain ⟨x, y, rfl, -, hy⟩ := exists_of_takeMany h
    exact (hnext y u hy).trans (List.suffix_append x y)
  | one =>
    cases t with
    | nil => cases h
    | cons c cs =>
      simp only [Piece.takeThen] at h
      split at h
      · exact (hnext cs u h).trans (List.suffix_cons c cs)
      · cases h
  | optional =>
    cases t with
    | nil => exact hnext [] u h
    | cons c cs =>
      simp only [Piece.takeThen] at h
      split at h
      · rcases (Option.orElse_eq_some _ _ _).1 h with h | ⟨-, h⟩
        · exact (hnext cs u h).trans (List.suffix_cons c cs)
        · exact hnext _ u h
      · exact hnext _ u h

theorem Pattern.suffix_of_rest? (h : p.rest? t = some rest) : rest <:+ t := by
  induction p generalizing t rest with
  | nil =>
    cases h
    exact List.suffix_refl t
  | cons piece pieces ih => exact Piece.suffix_of_takeThen (fun _ _ ↦ ih) h

end Patterns

theorem consumed_append (h : rest <:+ t) : consumed t rest ++ rest = t := by
  obtain ⟨x, rfl⟩ := h
  rw [consumed, List.length_append, Nat.add_sub_cancel, List.take_left]

theorem suffix_of_repeatStep (hstep : ∀ t tree rest, step t = some (tree, rest) → rest <:+ t) :
    (repeatStep step limit t).2 <:+ t := by
  fun_induction repeatStep step limit t with
  | case1 => exact List.suffix_refl _
  | case2 => exact List.suffix_refl _
  | case3 limit t hlimit tree rest h hlt trees last heq ih =>
    rw [heq] at ih
    exact ih.trans (hstep t tree rest h)
  | case4 limit t hlimit tree rest h hlt => exact hstep t tree rest h

mutual

theorem suffix_of_parse (e : Expr) {t rest : Text} {tree : Tree} (h : parse e t = some (tree, rest)) : rest <:+ t := by
  cases e with
  | pattern p =>
    obtain ⟨u, hu, h⟩ := Option.map_eq_some_iff.1 h
    cases h
    exact p.suffix_of_rest? hu
  | literal l =>
    rw [parse] at h
    split at h
    · cases h
      exact List.drop_suffix _ _
    · cases h
  | sequence es =>
    obtain ⟨⟨trees, u⟩, hu, h⟩ := Option.map_eq_some_iff.1 h
    cases h
    exact suffix_of_parseAll es hu
  | choice es =>
    obtain ⟨⟨first, u⟩, hu, h⟩ := Option.map_eq_some_iff.1 h
    cases h
    exact suffix_of_parseFirst es hu
  | repeated limit e =>
    rw [parse] at h
    cases h
    exact suffix_of_repeatStep fun _ _ _ ↦ suffix_of_parse e
  | absent e =>
    rw [parse] at h
    split at h
    · cases h
    · cases h
      exact List.suffix_refl t

theorem suffix_of_parseAll (es : List Expr) {t rest : Text} {trees : List Tree}
    (h : parseAll es t = some (trees, rest)) : rest <:+ t := by
  cases es with
  | nil =>
    cases h
    exact List.suffix_refl t
  | cons e es =>
    rw [parseAll] at h
    obtain ⟨⟨tree, u⟩, hu, h⟩ := Option.bind_eq_some_iff.1 h
    obtain ⟨⟨trees, v⟩, hv, h⟩ := Option.bind_eq_some_iff.1 h
    cases h
    exact (suffix_of_parseAll es hv).trans (suffix_of_parse e hu)

theorem suffix_of_parseFirst (es : List Expr) {t rest : Text} {tree : Tree}
    (h : parseFirst es t = some (tree, rest)) : rest <:+ t := by
  cases es with
  | nil => cases h
  | cons e es =>
    rw [parseFirst] at h
    rcases (Option.orElse_eq_some _ _ _).1 h with h | ⟨-, h⟩
    · exact suffix_of_parse e h
    · exact suffix_of_parseFirst es h

end

/-- The text of a tree and the rest make up the text. -/
theorem text_append (h : parse e t = some (tree, rest)) : tree.text ++ rest = t := by
  have hsuffix := suffix_of_parse e h
  cases e with
  | pattern p =>
    obtain ⟨u, -, h⟩ := Option.map_eq_some_iff.1 h
    cases h
    exact consumed_append hsuffix
  | literal l =>
    rw [parse] at h
    split at h
    · next hl =>
      cases h
      obtain ⟨u, rfl⟩ := List.isPrefixOf_iff_prefix.1 hl
      rw [List.drop_left]
      rfl
    · cases h
  | sequence es =>
    obtain ⟨⟨trees, u⟩, -, h⟩ := Option.map_eq_some_iff.1 h
    cases h
    exact consumed_append hsuffix
  | choice es =>
    obtain ⟨⟨first, u⟩, -, h⟩ := Option.map_eq_some_iff.1 h
    cases h
    exact consumed_append hsuffix
  | repeated limit e =>
    rw [parse] at h
    cases h
    exact consumed_append hsuffix
  | absent e =>
    rw [parse] at h
    split at h
    · cases h
    · cases h
      rfl

theorem consumed_left (x y : Text) : consumed (x ++ y) y = x :=
  List.append_cancel_right (consumed_append (List.suffix_append x y))

theorem text_of_parseText (h : parseText e t = some tree) : tree.text = t := by
  rw [parseText] at h
  split at h
  · next hparse =>
    cases h
    exact (List.append_nil _).symm.trans (text_append hparse)
  · cases h

theorem parse_pattern (h : p.rest? t = some rest) :
    parse (.pattern p) t = some (.node (consumed t rest) [], rest) := by
  rw [parse, h]
  rfl

theorem parse_pattern_of_none (h : p.rest? t = none) : parse (.pattern p) t = none := by
  rw [parse, h]
  rfl

theorem parse_many (hx : ∀ c ∈ x, isIn c) (hy : Stops (isIn ·) y) :
    parse (.pattern [⟨isIn, .many⟩]) (x ++ y) = some (.node x [], y) := by
  have hrest : Pattern.rest? [⟨isIn, .many⟩] (x ++ y) = some y := takeMany_append hx hy rfl
  rw [parse_pattern hrest, consumed_left]

theorem exists_of_parse_many (h : parse (.pattern [⟨isIn, .many⟩]) t = some (tree, rest)) :
    ∃ x, t = x ++ rest ∧ ∀ c ∈ x, isIn c := by
  obtain ⟨u, hu, h⟩ := Option.map_eq_some_iff.1 h
  cases h
  obtain ⟨x, y, rfl, hx, hy⟩ := exists_of_takeMany hu
  cases hy
  exact ⟨x, rfl, hx⟩

theorem parse_literal (l t : Text) : parse (.literal l) (l ++ t) = some (.node l [], t) := by
  have hstarts : Text.startsWith (l ++ t) l = true := List.isPrefixOf_iff_prefix.2 (List.prefix_append l t)
  rw [parse, if_pos hstarts, List.drop_left]

theorem exists_of_parse_literal {l : Text} (h : parse (.literal l) t = some (tree, rest)) : t = l ++ rest := by
  have htree : tree = .node l [] := by
    rw [parse] at h
    split at h
    · cases h
      rfl
    · cases h
  have ht := text_append h
  rw [htree] at ht
  exact ht.symm

theorem parse_absent (h : parse e t = none) : parse (.absent e) t = some (.node [] [], t) := by
  rw [parse, h]
  rfl

theorem parse_absent_of_isSome (h : (parse e t).isSome) : parse (.absent e) t = none := by
  rw [parse, if_pos h]

theorem parse_choice (h : parseFirst es t = some (tree, rest)) :
    parse (.choice es) t = some (.node (consumed t rest) [tree], rest) := by
  rw [parse, h]
  rfl

theorem parseFirst_head (h : parse e t = some (tree, rest)) : parseFirst (e :: es) t = some (tree, rest) := by
  rw [parseFirst, h]
  rfl

theorem parseFirst_tail (h : parse e t = none) : parseFirst (e :: es) t = parseFirst es t := by
  rw [parseFirst, h]
  rfl

theorem parseAll_nil (t : Text) : parseAll [] t = some ([], t) := by
  rw [parseAll]

theorem parseAll_cons (h : parse e t = some (tree, u)) (hes : parseAll es u = some (trees, rest)) :
    parseAll (e :: es) t = some (tree :: trees, rest) := by
  simp only [parseAll, h, hes, Option.bind_eq_bind, Option.bind_some]
  rfl

theorem exists_of_parseAll_cons (h : parseAll (e :: es) t = some (trees, rest)) :
    ∃ tree u trees', parse e t = some (tree, u) ∧ parseAll es u = some (trees', rest) ∧ trees = tree :: trees' := by
  rw [parseAll] at h
  obtain ⟨⟨tree, u⟩, hu, h⟩ := Option.bind_eq_some_iff.1 h
  obtain ⟨⟨trees', v⟩, hv, h⟩ := Option.bind_eq_some_iff.1 h
  cases h
  exact ⟨tree, u, trees', hu, hv, rfl⟩

theorem parseAll_cons_of_none (h : parse e t = none) : parseAll (e :: es) t = none := by
  rw [parseAll, h]
  rfl

theorem parse_sequence (h : parseAll es t = some (trees, rest)) :
    parse (.sequence es) t = some (.node (consumed t rest) trees, rest) := by
  rw [parse, h]
  rfl

theorem parse_sequence_of_none (h : parseAll es t = none) : parse (.sequence es) t = none := by
  rw [parse, h]
  rfl

theorem exists_of_parse_sequence (h : parse (.sequence es) t = some (tree, rest)) :
    ∃ trees, parseAll es t = some (trees, rest) := by
  rw [parse] at h
  obtain ⟨⟨trees, u⟩, htrees, h⟩ := Option.map_eq_some_iff.1 h
  cases h
  exact ⟨trees, htrees⟩

/-- A step is taken again and again, until the text ends or the step does not match. -/
inductive Takes (step : Text → Option (Tree × Text)) : Text → List Tree → Text → Prop
  | stop {t : Text} : (t ≠ [] → step t = none) → Takes step t [] t
  | take {t rest last : Text} {tree : Tree} {trees : List Tree} :
      step t = some (tree, rest) → rest.length < t.length → Takes step rest trees last →
      Takes step t (tree :: trees) last

theorem Takes.repeatStep_eq (h : Takes step t trees last) : repeatStep step none t = (trees, last) := by
  induction h with
  | @stop t hstop =>
    rw [repeatStep]
    split
    · rfl
    · next ht =>
      rw [hstop (by rintro rfl; exact ht rfl)]
  | @take t rest last tree trees hstep hlt _ ih =>
    have ht : ¬(t.isEmpty || none = some 0) = true := by
      cases t with
      | nil => cases hlt
      | cons c cs => exact Bool.false_ne_true
    rw [repeatStep, if_neg ht, hstep]
    simp only [hlt, dif_pos, Option.map_none, ih]

theorem Takes.parse_eq (h : Takes (parse e) t trees last) :
    parse (.repeated none e) t = some (.node (consumed t last) trees, last) := by
  rw [parse, h.repeatStep_eq]

/-- What can be left out is there at most once. -/
theorem parse_optional (h : parse e t = some (tree, rest)) (hlt : rest.length < t.length) :
    parse (.repeated (some 1) e) t = some (.node (consumed t rest) [tree], rest) := by
  have ht : ¬(t.isEmpty || some 1 = some 0) = true := by
    cases t with
    | nil => cases hlt
    | cons c cs => exact Bool.false_ne_true
  have hlast : repeatStep (parse e) (some 0) rest = ([], rest) := by
    rw [repeatStep, if_pos (by simp)]
  rw [parse, repeatStep, if_neg ht, h]
  simp only [hlt, dif_pos, Option.map_some, Nat.sub_self, hlast]

theorem parse_optional_of_none (h : parse e t = none) :
    parse (.repeated (some 1) e) t = some (.node [] [], t) := by
  have hnone : repeatStep (parse e) (some 1) t = ([], t) := by
    rw [repeatStep, h]
    split <;> rfl
  rw [parse, hnone]
  simp [consumed]

end PolymerAnalysis.Peg
