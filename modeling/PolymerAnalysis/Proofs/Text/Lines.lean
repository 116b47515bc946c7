import PolymerAnalysis.Text.Blank
import Mathlib.Data.List.Forall2
import Mathlib.Data.List.TakeWhile

namespace PolymerAnalysis

section Spans

variable {α : Type} {P : α → Prop} {p : α → Bool} {x y x' y' l : List α}

def Stops (P : α → Prop) (l : List α) : Prop := ∀ a ∈ l.head?, ¬P a

theorem stops_nil (P : α → Prop) : Stops P [] := fun a ha ↦ by cases ha

theorem stops_cons {a : α} (ha : ¬P a) : Stops P (a :: l) := by
  intro b hb
  cases hb
  exact ha

theorem stops_append (hx : Stops P x) (hy : x = [] → Stops P y) : Stops P (x ++ y) := by
  cases x with
  | nil => exact hy rfl
  | cons a x => exact stops_cons (hx a rfl)

theorem stops_dropWhile (p : α → Bool) (l : List α) : Stops (p ·) (l.dropWhile p) := by
  intro a ha hp
  have hnot := List.head?_dropWhile_not p l
  rw [Option.mem_def.1 ha] at hnot
  exact Bool.false_ne_true (hnot.symm.trans hp)

theorem Stops.of_append (h : Stops P (x ++ y)) : Stops P x := by
  cases x with
  | nil => exact stops_nil P
  | cons a x => exact stops_cons (h a rfl)

theorem dropWhile_of_stops (hl : Stops (p ·) l) : l.dropWhile p = l := by
  cases l with
  | nil => rfl
  | cons a l => exact List.dropWhile_cons_of_neg (hl a rfl)

theorem takeWhile_append_of_stops (hx : ∀ a ∈ x, p a) (hy : Stops (p ·) y) : (x ++ y).takeWhile p = x := by
  rw [List.takeWhile_append_of_pos hx]
  cases y with
  | nil => exact List.append_nil x
  | cons a y => rw [List.takeWhile_cons_of_neg (hy a rfl), List.append_nil]

theorem dropWhile_append_of_stops (hx : ∀ a ∈ x, p a) (hy : Stops (p ·) y) : (x ++ y).dropWhile p = y := by
  rw [List.dropWhile_append_of_pos hx, dropWhile_of_stops hy]

/-- There is one way to cut a list behind its elements of a kind. -/
theorem eq_of_append_eq (hx : ∀ a ∈ x, P a) (hy : Stops P y) (hx' : ∀ a ∈ x', P a) (hy' : Stops P y')
    (h : x ++ y = x' ++ y') : x = x' ∧ y = y' := by
  induction x generalizing x' with
  | nil =>
    cases x' with
    | nil => exact ⟨rfl, h⟩
    | cons a x' => exact absurd (hx' a List.mem_cons_self) (hy a (by rw [← List.nil_append y, h]; rfl))
  | cons a x ih =>
    cases x' with
    | nil => exact absurd (hx a List.mem_cons_self) (hy' a (by rw [← List.nil_append y', ← h]; rfl))
    | cons b x' =>
      obtain ⟨rfl, htail⟩ := List.cons.inj h
      obtain ⟨rfl, rfl⟩ := ih (fun b hb ↦ hx b (List.mem_cons_of_mem a hb))
        (fun b hb ↦ hx' b (List.mem_cons_of_mem a hb)) htail
      exact ⟨rfl, rfl⟩

/-- An initial piece that has elements of a kind only lies before the place where these end. -/
theorem exists_of_append_eq (hx : ∀ a ∈ x, p a) (hl : ∀ a ∈ l, p a) (hy : Stops (p ·) y) (h : l ++ y = x ++ y') :
    ∃ z, l = x ++ z ∧ y' = z ++ y := by
  have hxz : ∀ a ∈ x ++ y'.takeWhile p, p a := by
    intro a ha
    rcases List.mem_append.1 ha with ha | ha
    · exact hx a ha
    · exact List.mem_takeWhile_imp ha
  have happend : l ++ y = (x ++ y'.takeWhile p) ++ y'.dropWhile p := by
    rw [List.append_assoc, List.takeWhile_append_dropWhile, h]
  obtain ⟨hleft, hright⟩ := eq_of_append_eq hl hy hxz (stops_dropWhile p y') happend
  exact ⟨y'.takeWhile p, hleft, by rw [hright, List.takeWhile_append_dropWhile]⟩

end Spans

namespace Text

variable {p : CodePoint → Bool} {c : CodePoint} {t u gap line w : Text} {ls next ws : List Text}

section Pieces

theorem splitWhere_ne_nil (p : CodePoint → Bool) (t : Text) : splitWhere p t ≠ [] := by
  cases t with
  | nil => exact List.cons_ne_nil _ _
  | cons c t =>
    rw [splitWhere]
    split
    · exact List.cons_ne_nil _ _
    · split <;> exact List.cons_ne_nil _ _

theorem splitWhere_cons_of_pos (hc : p c) (t : Text) : splitWhere p (c :: t) = [] :: splitWhere p t := by
  rw [splitWhere, if_pos hc]

theorem splitWhere_cons_of_neg (hc : ¬p c) (h : splitWhere p t = w :: ws) :
    splitWhere p (c :: t) = (c :: w) :: ws := by
  rw [splitWhere, if_neg hc, h]

theorem splitWhere_append_cons (hc : p c) (t u : Text) :
    splitWhere p (t ++ c :: u) = splitWhere p t ++ splitWhere p u := by
  induction t with
  | nil => exact splitWhere_cons_of_pos hc u
  | cons d t ih =>
    by_cases hd : p d
    · rw [List.cons_append, splitWhere_cons_of_pos hd, splitWhere_cons_of_pos hd, ih]
      rfl
    · obtain ⟨w, ws, hw⟩ := List.exists_cons_of_ne_nil (splitWhere_ne_nil p t)
      rw [List.cons_append, splitWhere_cons_of_neg hd hw, splitWhere_cons_of_neg hd (ih.trans (congrArg (· ++ _) hw))]
      rfl

theorem splitWhere_of_forall (h : ∀ c ∈ t, ¬p c) : splitWhere p t = [t] := by
  induction t with
  | nil => rfl
  | cons c t ih =>
    rw [List.forall_mem_cons] at h
    exact splitWhere_cons_of_neg h.1 (ih h.2)

theorem not_of_mem_splitWhere (hw : w ∈ splitWhere p t) (hc : c ∈ w) : ¬p c := by
  induction t generalizing w with
  | nil =>
    rw [List.mem_singleton.1 hw] at hc
    cases hc
  | cons d t ih =>
    by_cases hd : p d
    · rw [splitWhere_cons_of_pos hd] at hw
      rcases List.mem_cons.1 hw with rfl | hw
      · cases hc
      · exact ih hw hc
    · obtain ⟨v, vs, hv⟩ := List.exists_cons_of_ne_nil (splitWhere_ne_nil p t)
      rw [splitWhere_cons_of_neg hd hv] at hw
      rw [hv] at ih
      rcases List.mem_cons.1 hw with rfl | hw
      · rcases List.mem_cons.1 hc with rfl | hc
        · exact hd
        · exact ih List.mem_cons_self hc
      · exact ih (List.mem_cons_of_mem v hw) hc

theorem isInfix_of_mem_splitWhere (hw : w ∈ splitWhere p t) : w <:+: t := by
  have hprefix : ∀ t : Text, ∃ w ws, splitWhere p t = w :: ws ∧ w <+: t ∧ ∀ w ∈ ws, w <:+: t := by
    intro t
    induction t with
    | nil => exact ⟨[], [], rfl, List.nil_prefix, fun _ hw ↦ (by cases hw)⟩
    | cons c t ih =>
      obtain ⟨w, ws, hsplit, hw, hws⟩ := ih
      by_cases hc : p c
      · refine ⟨[], w :: ws, ?_, List.nil_prefix, ?_⟩
        · rw [splitWhere_cons_of_pos hc, hsplit]
        · rw [List.forall_mem_cons]
          exact ⟨hw.isInfix.trans (List.suffix_cons c t).isInfix, fun v hv ↦ List.infix_cons (hws v hv)⟩
      · exact ⟨c :: w, ws, splitWhere_cons_of_neg hc hsplit, List.cons_prefix_cons.2 ⟨rfl, hw⟩,
          fun v hv ↦ List.infix_cons (hws v hv)⟩
  obtain ⟨v, vs, hsplit, hv, hvs⟩ := hprefix t
  rw [hsplit] at hw
  rcases List.mem_cons.1 hw with rfl | hw
  · exact hv.isInfix
  · exact hvs w hw

end Pieces

section Joined

theorem join_singleton (separator t : Text) : join separator [t] = t := List.intercalate_singleton

theorem join_cons (separator t : Text) (h : ls ≠ []) :
    join separator (t :: ls) = t ++ separator ++ join separator ls := List.intercalate_cons_of_ne_nil h

/-- What holds of a separator and of pieces, and of a text with its continuation, holds of the joined pieces. -/
theorem join_closed {P : Text → Prop} {separator : Text} (hnil : P []) (happend : ∀ {t u}, P t → P u → P (t ++ u))
    (hseparator : P separator) (h : ∀ l ∈ ls, P l) : P (join separator ls) := by
  induction ls with
  | nil => exact hnil
  | cons l ls ih =>
    rw [List.forall_mem_cons] at h
    cases ls with
    | nil =>
      rw [join_singleton]
      exact h.1
    | cons m ls =>
      rw [join_cons _ _ (List.cons_ne_nil m ls)]
      exact happend (happend h.1 hseparator) (ih h.2)

theorem join_ne_nil {separator : Text} (h : ls ≠ []) (hne : ∀ l ∈ ls, l ≠ []) : join separator ls ≠ [] := by
  cases ls with
  | nil => exact absurd rfl h
  | cons l ls =>
    have hl := hne l List.mem_cons_self
    by_cases hls : ls = []
    · rw [hls, join_singleton]
      exact hl
    · rw [join_cons _ _ hls, List.append_assoc]
      exact List.append_ne_nil_of_left_ne_nil hl _

theorem join_append_cons (separator t u : Text) (ls : List Text) :
    join separator ((t ++ u) :: ls) = t ++ join separator (u :: ls) := by
  cases ls with
  | nil => rw [join_singleton, join_singleton]
  | cons l ls =>
    rw [join_cons separator _ (List.cons_ne_nil l ls), join_cons separator _ (List.cons_ne_nil l ls)]
    simp only [List.append_assoc]

theorem join_cons_eq_flatMap (separator t : Text) (ls : List Text) :
    join separator (t :: ls) = t ++ ls.flatMap (separator ++ ·) := by
  induction ls generalizing t with
  | nil => rw [join_singleton, List.flatMap_nil, List.append_nil]
  | cons l ls ih =>
    rw [join_cons _ _ (List.cons_ne_nil _ _), ih, List.flatMap_cons]
    simp only [List.append_assoc]

theorem join_concat_append (separator t u : Text) (ls : List Text) :
    join separator (ls ++ [t ++ u]) = join separator (ls ++ [t]) ++ u := by
  cases ls with
  | nil => rw [List.nil_append, List.nil_append, join_singleton, join_singleton]
  | cons l ls =>
    simp only [List.cons_append, join_cons_eq_flatMap, List.flatMap_append, List.flatMap_singleton, List.append_assoc]

theorem join_append (separator : Text) (h : ls ≠ []) (h' : next ≠ []) :
    join separator (ls ++ next) = join separator ls ++ separator ++ join separator next := by
  obtain ⟨l, ls, rfl⟩ := List.exists_cons_of_ne_nil h
  obtain ⟨m, next, rfl⟩ := List.exists_cons_of_ne_nil h'
  simp only [List.cons_append, join_cons_eq_flatMap, List.flatMap_append, List.flatMap_cons, List.append_assoc]

theorem mem_join_of_mem (hl : t ∈ ls) (hc : c ∈ t) (separator : Text) : c ∈ join separator ls := by
  induction ls with
  | nil => cases hl
  | cons l ls ih =>
    rw [join_cons_eq_flatMap, List.mem_append, List.mem_flatMap]
    rcases List.mem_cons.1 hl with rfl | hl
    · exact .inl hc
    · exact .inr ⟨t, hl, List.mem_append_right _ hc⟩

theorem eq_newline_of_mem_join (h : ∀ l ∈ ls, l = []) : ∀ c ∈ join "\n" ls, c = '\n' := by
  refine join_closed (P := fun t ↦ ∀ c ∈ t, c = CodePoint.ofChar '\n') (by simp) ?_ (by decide) ?_
  · exact fun ht hu ↦ List.forall_mem_append.2 ⟨ht, hu⟩
  · intro l hl
    rw [h l hl]
    simp

theorem join_sublist (separator : Text) (h : List.Forall₂ List.Sublist ls next) :
    (join separator ls).Sublist (join separator next) := by
  induction h with
  | nil => exact List.Sublist.refl _
  | cons hl hls ih =>
    cases hls with
    | nil =>
      rw [join_singleton, join_singleton]
      exact hl
    | cons =>
      rw [join_cons _ _ (List.cons_ne_nil _ _), join_cons _ _ (List.cons_ne_nil _ _)]
      exact (hl.append (List.Sublist.refl separator)).append ih

theorem splitOn_append_cons (t u : Text) (c : CodePoint) : splitOn (t ++ c :: u) c = splitOn t c ++ splitOn u c :=
  splitWhere_append_cons (decide_eq_true rfl) t u

theorem splitOn_of_not_mem (h : c ∉ t) : splitOn t c = [t] :=
  splitWhere_of_forall fun _ hd heq ↦ h (of_decide_eq_true heq ▸ hd)

theorem join_splitOn (t : Text) (c : CodePoint) : join [c] (splitOn t c) = t := by
  induction t with
  | nil => rfl
  | cons d t ih =>
    by_cases hd : d = c
    · have hcons : splitOn (d :: t) c = [] :: splitOn t c := splitWhere_cons_of_pos (decide_eq_true hd) t
      have hne : splitOn t c ≠ [] := splitWhere_ne_nil _ t
      rw [hcons, join_cons _ _ hne, ih, hd]
      rfl
    · obtain ⟨w, ws, hw⟩ := List.exists_cons_of_ne_nil (splitWhere_ne_nil (· = c) t)
      have hcons : splitOn (d :: t) c = (d :: w) :: ws := splitWhere_cons_of_neg (by simpa using hd) hw
      rw [splitOn, hw] at ih
      rw [hcons]
      exact (join_append_cons [c] [d] w ws).trans (congrArg (d :: ·) ih)

theorem splitOn_join (hls : ls ≠ []) (h : ∀ l ∈ ls, c ∉ l) : splitOn (join [c] ls) c = ls := by
  induction ls with
  | nil => exact absurd rfl hls
  | cons l ls ih =>
    rw [List.forall_mem_cons] at h
    by_cases hls : ls = []
    · rw [hls, join_singleton, splitOn_of_not_mem h.1]
    · rw [join_cons _ _ hls, List.append_assoc, List.singleton_append, splitOn_append_cons, splitOn_of_not_mem h.1,
        ih hls h.2]
      rfl

end Joined

section Lines

theorem exists_lines (t : Text) : ∃ line rest, lines t = line :: rest :=
  List.exists_cons_of_ne_nil (splitWhere_ne_nil _ t)

theorem lines_newline (t : Text) : lines ((('\n' : Char) : CodePoint) :: t) = [] :: lines t :=
  splitWhere_cons_of_pos (p := (· = '\n')) (c := '\n') (by decide) t

theorem lines_cons {c : CodePoint} (hc : c ≠ '\n') {t line : Text} {rest : List Text} (h : lines t = line :: rest) :
    lines (c :: t) = (c :: line) :: rest :=
  splitWhere_cons_of_neg (by simpa using hc) h

theorem newline_not_mem_of_mem_lines (h : line ∈ lines t) : (('\n' : Char) : CodePoint) ∉ line :=
  fun hc ↦ not_of_mem_splitWhere h hc (by decide)

theorem join_lines (t : Text) : join "\n" (lines t) = t := join_splitOn t '\n'

/-- Lines that have been joined are cut apart again. -/
theorem lines_join (hls : ls ≠ []) (h : ∀ l ∈ ls, (('\n' : Char) : CodePoint) ∉ l) : lines (join "\n" ls) = ls :=
  splitOn_join hls h

/-- Between some lines and the next there is at most a line break. -/
theorem exists_join_append (ls next : List Text) :
    ∃ gap : Text, join "\n" (ls ++ next) = join "\n" ls ++ gap ++ join "\n" next ∧ ∀ c ∈ gap, c = '\n' := by
  induction ls with
  | nil => exact ⟨[], rfl, fun c hc ↦ by cases hc⟩
  | cons l ls ih =>
    by_cases hnext : ls ++ next = []
    · obtain ⟨rfl, rfl⟩ := List.append_eq_nil_iff.1 hnext
      exact ⟨[], by simp [join], fun c hc ↦ by cases hc⟩
    · rw [List.cons_append, join_cons _ _ hnext]
      by_cases hls : ls = []
      · subst hls
        refine ⟨"\n", by rw [join_singleton, List.nil_append], fun c hc ↦ ?_⟩
        simpa [ofString] using hc
      · obtain ⟨gap, hgap, hbreak⟩ := ih
        exact ⟨gap, by rw [hgap, join_cons _ _ hls]; simp only [List.append_assoc], hbreak⟩

end Lines

section Blanks

theorem trim_append_of_blank (hgap : ∀ c ∈ gap, c.isBlank) (t : Text) : trim (t ++ gap) = trim t := by
  simp only [trim, stripWhere, List.dropWhile_append]
  split
  · next h => rw [List.isEmpty_iff.1 h, List.dropWhile_eq_nil_iff.2 hgap]
  · rw [List.reverse_append, List.dropWhile_append_of_pos (by simpa using hgap)]

theorem stops_reverse_stripWhere (p : CodePoint → Bool) (t : Text) : Stops (p ·) (stripWhere p t).reverse := by
  rw [stripWhere, List.reverse_reverse]
  exact stops_dropWhile p _

theorem stops_stripWhere (p : CodePoint → Bool) (t : Text) : Stops (p ·) (stripWhere p t) := by
  obtain ⟨rest, hrest⟩ := List.dropWhile_suffix p (l := (t.dropWhile p).reverse)
  have happend : stripWhere p t ++ rest.reverse = t.dropWhile p := by
    rw [stripWhere, ← List.reverse_append, hrest, List.reverse_reverse]
  exact Stops.of_append (happend ▸ stops_dropWhile p t)

theorem stops_of_trim (h : trim t = t) : Stops (·.isBlank) t := h ▸ stops_stripWhere _ t

theorem stops_reverse_of_trim (h : trim t = t) : Stops (·.isBlank) t.reverse :=
  h ▸ stops_reverse_stripWhere (·.isBlank) t

/-- What is stripped from a text stands around a piece that neither begins nor ends so. -/
theorem stripWhere_append (hgap : ∀ c ∈ gap, p c) (hline : ∀ c ∈ line, p c) (h : Stops (p ·) t)
    (hreverse : Stops (p ·) t.reverse) : stripWhere p (gap ++ (t ++ line)) = t := by
  rw [stripWhere, List.dropWhile_append_of_pos hgap]
  cases t with
  | nil => rw [List.nil_append, List.dropWhile_eq_nil_iff.2 hline, List.reverse_nil, List.dropWhile_nil, List.reverse_nil]
  | cons c t =>
    have hstops : Stops (p ·) (c :: t ++ line) := stops_append h fun hnil ↦ by cases hnil
    rw [dropWhile_of_stops hstops, List.reverse_append, List.dropWhile_append_of_pos (by simpa using hline),
      dropWhile_of_stops hreverse, List.reverse_reverse]

theorem stripWhere_eq_nil_iff : stripWhere p t = [] ↔ ∀ c ∈ t, p c := by
  rw [stripWhere, List.reverse_eq_nil_iff, List.dropWhile_eq_nil_iff]
  simp only [List.mem_reverse]
  constructor
  · intro h c hc
    rw [← List.takeWhile_append_dropWhile (p := p) (l := t), List.mem_append] at hc
    rcases hc with hc | hc
    · exact List.mem_takeWhile_imp hc
    · exact h c hc
  · exact fun h c hc ↦ h c ((List.dropWhile_suffix p).subset hc)

theorem isInfix_stripWhere (p : CodePoint → Bool) (t : Text) : stripWhere p t <:+: t := by
  have hend : (t.dropWhile p).reverse.dropWhile p <:+ (t.dropWhile p).reverse := List.dropWhile_suffix _
  have hstart := List.reverse_prefix.2 hend
  rw [List.reverse_reverse] at hstart
  exact hstart.isInfix.trans (List.dropWhile_suffix _).isInfix

theorem isInfix_trim (t : Text) : trim t <:+: t := isInfix_stripWhere _ t

theorem trim_of_stops (h : Stops (·.isBlank) t) (hreverse : Stops (·.isBlank) t.reverse) : trim t = t := by
  have hnone : ∀ c ∈ ([] : Text), CodePoint.isBlank c := fun c hc ↦ by cases hc
  have hstrip := stripWhere_append hnone hnone h hreverse
  rwa [List.nil_append, List.append_nil] at hstrip

theorem trimEnd_of_stops (h : Stops (·.isBlank) t.reverse) : trimEnd t = t := by
  rw [trimEnd, dropEndWhile, dropWhile_of_stops h, List.reverse_reverse]

theorem trimEnd_eq_nil_iff : trimEnd t = [] ↔ ∀ c ∈ t, c.isBlank := by
  rw [trimEnd, dropEndWhile, List.reverse_eq_nil_iff, List.dropWhile_eq_nil_iff]
  simp only [List.mem_reverse]

theorem trimEnd_isPrefix (t : Text) : trimEnd t <+: t := by
  rw [← List.reverse_suffix, trimEnd, dropEndWhile, List.reverse_reverse]
  exact List.dropWhile_suffix _

theorem words_nil : words [] = [] := rfl

theorem words_append_cons (hc : c.isBlank) (t u : Text) : words (t ++ c :: u) = words t ++ words u := by
  rw [words, splitWhere_append_cons hc, List.filter_append]
  rfl

theorem words_join_newline (ls : List Text) : words (join "\n" ls) = ls.flatMap words := by
  induction ls with
  | nil => rfl
  | cons l ls ih =>
    by_cases hls : ls = []
    · rw [hls, join_singleton, List.flatMap_cons, List.flatMap_nil, List.append_nil]
    · have hjoin : join "\n" (l :: ls) = l ++ .ofChar '\n' :: join "\n" ls := by
        rw [join_cons _ _ hls, List.append_assoc]
        rfl
      rw [hjoin, words_append_cons (by decide), ih, List.flatMap_cons]

theorem words_blank_append (hgap : ∀ c ∈ gap, c.isBlank) (t : Text) : words (gap ++ t) = words t := by
  induction gap with
  | nil => rfl
  | cons c gap ih =>
    have hwords := words_append_cons (hgap c List.mem_cons_self) [] (gap ++ t)
    exact hwords.trans (ih fun d hd ↦ hgap d (List.mem_cons_of_mem c hd))

theorem words_append_of_blank (hgap : ∀ c ∈ gap, c.isBlank) (t : Text) : words (t ++ gap) = words t := by
  cases gap with
  | nil => rw [List.append_nil]
  | cons c gap =>
    have hempty : words gap = [] := by
      simpa [words_nil] using words_blank_append (fun d hd ↦ hgap d (List.mem_cons_of_mem c hd)) []
    rw [words_append_cons (hgap c List.mem_cons_self), hempty, List.append_nil]

theorem squeeze_blank_append (hgap : ∀ c ∈ gap, c.isBlank) (t : Text) : squeeze (gap ++ t) = squeeze t := by
  rw [squeeze, words_blank_append hgap, squeeze]

theorem squeeze_append_of_blank (hgap : ∀ c ∈ gap, c.isBlank) (t : Text) : squeeze (t ++ gap) = squeeze t := by
  rw [squeeze, words_append_of_blank hgap, squeeze]

theorem ne_nil_of_mem_words (hw : w ∈ words t) : w ≠ [] := by
  simpa using (List.mem_filter.1 hw).2

theorem not_isBlank_of_mem_words (hw : w ∈ words t) (hc : c ∈ w) : ¬c.isBlank :=
  not_of_mem_splitWhere (List.mem_filter.1 hw).1 hc

theorem stops_of_forall {P : CodePoint → Prop} (h : ∀ c ∈ t, ¬P c) : Stops P t :=
  fun c hc ↦ h c (List.mem_of_mem_head? hc)

theorem stops_join (hne : ∀ w ∈ ws, w ≠ []) (hblank : ∀ w ∈ ws, ∀ c ∈ w, ¬c.isBlank) :
    Stops (·.isBlank) (join " " ws) := by
  cases ws with
  | nil => exact stops_nil _
  | cons w ws =>
    have hw : Stops (·.isBlank) w := stops_of_forall (hblank w List.mem_cons_self)
    by_cases hws : ws = []
    · rw [hws, join_singleton]
      exact hw
    · rw [join_cons _ _ hws, List.append_assoc]
      exact stops_append hw fun h ↦ absurd h (hne w List.mem_cons_self)

theorem stops_reverse_of_forall {P : CodePoint → Prop} (h : ∀ c ∈ t, ¬P c) : Stops P t.reverse :=
  stops_of_forall fun c hc ↦ h c (List.mem_reverse.1 hc)

theorem stops_reverse_join (hne : ∀ w ∈ ws, w ≠ []) (hblank : ∀ w ∈ ws, Stops (·.isBlank) w.reverse) :
    Stops (·.isBlank) (join " " ws).reverse := by
  induction ws with
  | nil => exact stops_nil _
  | cons w ws ih =>
    rw [List.forall_mem_cons] at hne hblank
    by_cases hws : ws = []
    · rw [hws, join_singleton]
      exact hblank.1
    · have hjoin : (join " " ws).reverse ≠ [] := fun h ↦ join_ne_nil hws hne.2 (List.reverse_eq_nil_iff.1 h)
      rw [join_cons _ _ hws, List.reverse_append]
      exact stops_append (ih hne.2 hblank.2) fun h ↦ absurd h hjoin

/-- Nothing is to be trimmed around words that have been joined. -/
theorem trim_join (hne : ∀ w ∈ ws, w ≠ []) (hblank : ∀ w ∈ ws, ∀ c ∈ w, ¬c.isBlank) :
    trim (join " " ws) = join " " ws :=
  trim_of_stops (stops_join hne hblank) (stops_reverse_join hne fun w hw ↦ stops_reverse_of_forall (hblank w hw))

theorem trim_squeeze (t : Text) : trim (squeeze t) = squeeze t :=
  trim_join (fun _ ↦ ne_nil_of_mem_words) fun _ hw _ ↦ not_isBlank_of_mem_words hw

/-- The only blanks left between words are spaces. -/
theorem eq_space_of_mem_squeeze (hc : c ∈ squeeze t) (hblank : c.isBlank) : c = ' ' := by
  have hword : ∀ w ∈ words t, c ∉ w := fun w hw hmem ↦ not_isBlank_of_mem_words hw hmem hblank
  rw [squeeze] at hc
  cases hwords : words t with
  | nil =>
    rw [hwords] at hc
    cases hc
  | cons w ws =>
    rw [hwords, List.forall_mem_cons] at hword
    rw [hwords, join_cons_eq_flatMap, List.mem_append, List.mem_flatMap] at hc
    rcases hc with hc | ⟨v, hv, hc⟩
    · exact absurd hc hword.1
    · exact (List.mem_cons.1 hc).resolve_right (hword.2 v hv)

theorem words_of_forall (hne : w ≠ []) (h : ∀ c ∈ w, ¬c.isBlank) : words w = [w] := by
  rw [words, splitWhere_of_forall h, List.filter_cons_of_pos (by simpa using hne), List.filter_nil]

/-- What a space joins to a word keeps its words. -/
theorem squeeze_word_join (hne : w ≠ []) (h : ∀ c ∈ w, ¬c.isBlank) (ht : words t ≠ []) :
    squeeze (w ++ .ofChar ' ' :: t) = w ++ .ofChar ' ' :: squeeze t := by
  rw [squeeze, words_append_cons (by decide), words_of_forall hne h, List.singleton_append, join_cons _ _ ht,
    List.append_assoc]
  rfl

end Blanks

section Cuts

theorem cut_append_cons (h : c ∉ t) (u : Text) : cut (t ++ c :: u) c = (t, some u) := by
  have ht : ∀ d ∈ t, decide (d ≠ c) = true := fun d hd ↦ decide_eq_true fun heq ↦ h (heq ▸ hd)
  rw [cut, List.takeWhile_append_of_pos ht, List.dropWhile_append_of_pos ht]
  simp

theorem cut_of_not_mem (h : c ∉ t) : cut t c = (t, none) := by
  have ht : ∀ d ∈ t, decide (d ≠ c) = true := fun d hd ↦ decide_eq_true fun heq ↦ h (heq ▸ hd)
  rw [cut, List.takeWhile_eq_self_iff.2 ht, List.dropWhile_eq_nil_iff.2 ht]
  rfl

/-- Joined words are cut behind the first one. -/
theorem cut_join (hw : .ofChar ' ' ∉ w) (hws : ws ≠ []) : cut (join " " (w :: ws)) ' ' = (w, some (join " " ws)) := by
  rw [join_cons _ _ hws, List.append_assoc]
  exact cut_append_cons hw _

end Cuts

end Text

end PolymerAnalysis
