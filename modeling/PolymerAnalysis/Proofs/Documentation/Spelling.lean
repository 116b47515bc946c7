import PolymerAnalysis.Proofs.Documentation.Segmentation

namespace PolymerAnalysis

open Text

variable {t u w : Text}

theorem Text.includes_iff : includes t w ↔ w <:+: t := by
  induction t with
  | nil => simp [includes, List.isEmpty_iff]
  | cons c t ih => simp [includes, startsWith, List.infix_cons_iff, ih]

theorem Text.isInfix_of_append_newline (hw : CodePoint.ofChar '\n' ∉ w) (h : w <:+: t ++ .ofChar '\n' :: u) :
    w <:+: t ∨ w <:+: u := by
  obtain ⟨x, y, h⟩ := h
  rw [List.append_assoc] at h
  rcases List.append_eq_append_iff.1 h with ⟨a, rfl, ha⟩ | ⟨b, rfl, hb⟩
  · rcases List.append_eq_append_iff.1 ha with ⟨c, rfl, -⟩ | ⟨c, rfl, hc⟩
    · exact .inl ⟨x, c, by rw [List.append_assoc]⟩
    · cases c with
      | nil => exact .inl ⟨x, [], by simp⟩
      | cons d c =>
        obtain ⟨rfl, -⟩ := List.cons.inj hc
        exact absurd (by simp) hw
  · cases b with
    | nil =>
      cases w with
      | nil => exact .inl (List.nil_infix)
      | cons d w =>
        obtain ⟨rfl, -⟩ := List.cons.inj hb
        exact absurd List.mem_cons_self hw
    | cons d b =>
      obtain ⟨-, hu⟩ := List.cons.inj hb
      exact .inr ⟨b, y, (List.append_assoc b w y).trans hu.symm⟩

theorem Text.exists_of_isInfix_join {ls : List Text} (hne : w ≠ []) (hw : CodePoint.ofChar '\n' ∉ w)
    (h : w <:+: join "\n" ls) : ∃ l ∈ ls, w <:+: l := by
  induction ls with
  | nil => exact absurd (List.infix_nil.1 h) hne
  | cons l ls ih =>
    by_cases hls : ls = []
    · rw [hls, join_singleton] at h
      exact ⟨l, List.mem_cons_self, h⟩
    · rw [join_cons _ _ hls, List.append_assoc] at h
      rcases isInfix_of_append_newline hw h with h | h
      · exact ⟨l, List.mem_cons_self, h⟩
      · obtain ⟨m, hm, h⟩ := ih h
        exact ⟨m, List.mem_cons_of_mem l hm, h⟩

namespace Documentation

variable {comment line : Text} {tag : Tag}

theorem dropGutter_suffix (line : Text) : dropGutter line <:+ line := by
  rw [dropGutter]
  split
  · exact List.suffix_refl line
  · next c rest heq =>
    have hrest : rest <:+ line := (List.suffix_cons c rest).trans (heq ▸ List.dropWhile_suffix isIndent)
    split
    · split
      · exact (List.drop_suffix 1 rest).trans hrest
      · exact hrest
    · exact List.suffix_refl line

theorem dropOpening_suffix (t : Text) : dropOpening t <:+ t := by
  rw [dropOpening]
  split
  · exact (List.dropWhile_suffix _).trans (List.drop_suffix 2 t)
  · exact List.suffix_refl t

theorem isPrefix_dropClosing (t : Text) : dropClosing t <+: t := by
  rw [dropClosing]
  split
  · exact List.take_prefix _ t
  · exact List.prefix_refl t

theorem isInfix_of_line (hne : w ≠ []) (hline : line ∈ (unwrap comment).lines) (hw : w <:+: line) : w <:+: comment := by
  have hbreak : CodePoint.ofChar '\n' ∉ w := fun hmem ↦ newline_not_mem_of_mem_lines hline (hw.subset hmem)
  have hjoin := (hw.trans (isInfix_of_mem_splitWhere hline)).trans (isInfix_stripWhere _ _)
  obtain ⟨l, hl, hwl⟩ := exists_of_isInfix_join hne hbreak hjoin
  obtain ⟨m, hm, rfl⟩ := List.mem_map.1 hl
  have hbody := (isInfix_of_mem_splitWhere hm).trans ((isPrefix_dropClosing _).isInfix.trans
    ((dropOpening_suffix _).isInfix.trans (isInfix_trim comment)))
  exact hwl.trans ((trimEnd_isPrefix _).isInfix.trans ((dropGutter_suffix m).isInfix.trans hbody))

/-- Each tag of a comment is spelled in it. -/
theorem includes_of_mem_tags (h : tag ∈ (ofComment comment).tags) : includes comment (.ofChar '@' :: tag.title) := by
  obtain ⟨before, blocks, hcut, -, htags⟩ := segments_ofComment comment
  obtain ⟨i, rfl⟩ := List.get_of_mem h
  obtain ⟨hlength, hreads⟩ := List.forall₂_iff_get.1 htags
  obtain ⟨indent, after, body, hline, -⟩ := hreads i (by omega) i.isLt
  have hmem : blocks.get ⟨i, by omega⟩ ∈ blocks := List.get_mem ..
  have hspelled : (blocks.get ⟨i, by omega⟩).line ∈ (unwrap comment).lines := by
    rw [hcut.lines_eq]
    exact List.mem_append_right _ (List.mem_flatMap.2 ⟨_, hmem, List.mem_cons_self⟩)
  rw [includes_iff]
  refine isInfix_of_line (List.cons_ne_nil _ _) hspelled ?_
  rw [hline]
  exact ⟨indent, after, by simp⟩

end Documentation

end PolymerAnalysis
