import PolymerAnalysis.Proofs.Documentation.Spelling
import PolymerAnalysis.Proofs.Documentation.Writing

namespace PolymerAnalysis

namespace Documentation

open Text

variable {line rest s t : Text}

/-- What stands on a line behind its gutter, which is a star with indentation at most before it, and one space behind
it. -/
inductive Behind (line : Text) : Text → Prop
  | spaced {indent rest : Text} : line = indent ++ .ofChar '*' :: .ofChar ' ' :: rest → (∀ c ∈ indent, isIndent c) →
      Behind line rest
  | starred {indent rest : Text} : line = indent ++ .ofChar '*' :: rest → (∀ c ∈ indent, isIndent c) →
      Stops (· = CodePoint.ofChar ' ') rest → Behind line rest
  | bare : (∀ indent rest : Text, line = indent ++ .ofChar '*' :: rest → ∃ c ∈ indent, ¬isIndent c) → Behind line line

/-- A line as it is kept: without its gutter, and without the blanks at its end. -/
def IsKept (line shown : Text) : Prop := ∃ rest, Behind line rest ∧ shown = trimEnd rest

def delimited (s : Text) : Text := "/*" ++ s ++ "*/"

def behindStars (s : Text) : Text := s.dropWhile fun c ↦ decide (c = CodePoint.ofChar '*')

section Gutters

theorem dropWhile_isIndent {indent : Text} (hindent : ∀ c ∈ indent, isIndent c) (rest : Text) :
    (indent ++ .ofChar '*' :: rest).dropWhile isIndent = .ofChar '*' :: rest :=
  dropWhile_append_of_stops hindent (stops_cons (by decide))

theorem dropGutter_of_star {indent : Text} (hindent : ∀ c ∈ indent, isIndent c) (rest : Text) :
    dropGutter (indent ++ .ofChar '*' :: rest) = if rest.head? = some (.ofChar ' ') then rest.drop 1 else rest := by
  rw [dropGutter, dropWhile_isIndent hindent]
  rfl

theorem dropGutter_of_ne (h : ∀ rest, line.dropWhile isIndent ≠ .ofChar '*' :: rest) : dropGutter line = line := by
  rw [dropGutter]
  split
  · rfl
  · next c rest hrest =>
    rw [if_neg]
    rintro rfl
    exact h rest hrest

theorem eq_append_of_dropWhile (h : line.dropWhile isIndent = .ofChar '*' :: rest) :
    line = line.takeWhile isIndent ++ .ofChar '*' :: rest := by
  rw [← h, List.takeWhile_append_dropWhile]

theorem Behind.eq_dropGutter (h : Behind line rest) : rest = dropGutter line := by
  cases h with
  | spaced hline hindent =>
    rw [hline, dropGutter_of_star hindent]
    rfl
  | starred hline hindent hrest =>
    have hspace : ¬rest.head? = some (.ofChar ' ') := fun h ↦ hrest _ h rfl
    rw [hline, dropGutter_of_star hindent, if_neg hspace]
  | bare hbare =>
    refine (dropGutter_of_ne fun rest hrest ↦ ?_).symm
    obtain ⟨c, hc, hindent⟩ := hbare _ _ (eq_append_of_dropWhile hrest)
    exact hindent (List.mem_takeWhile_imp hc)

theorem behind_dropGutter (line : Text) : Behind line (dropGutter line) := by
  by_cases hstar : ∃ rest, line.dropWhile isIndent = .ofChar '*' :: rest
  · obtain ⟨rest, hrest⟩ := hstar
    have hindent : ∀ c ∈ line.takeWhile isIndent, isIndent c := fun _ ↦ List.mem_takeWhile_imp
    have hline := eq_append_of_dropWhile hrest
    rw [hline, dropGutter_of_star hindent, ← hline]
    split
    · next hspace =>
      obtain ⟨rest, rfl⟩ := List.head?_eq_some_iff.1 hspace
      exact .spaced hline hindent
    · next hspace =>
      refine .starred hline hindent fun c hc hcspace ↦ hspace ?_
      rw [← hcspace, hc]
  · have hne : ∀ rest, line.dropWhile isIndent ≠ .ofChar '*' :: rest := fun rest h ↦ hstar ⟨rest, h⟩
    rw [dropGutter_of_ne hne]
    refine .bare fun indent rest hline ↦ ?_
    by_contra hindent
    push Not at hindent
    refine hne rest ?_
    rw [hline, dropWhile_isIndent hindent]

theorem behind_iff : Behind line rest ↔ rest = dropGutter line := by
  refine ⟨Behind.eq_dropGutter, ?_⟩
  rintro rfl
  exact behind_dropGutter line

theorem isKept_iff {shown : Text} : IsKept line shown ↔ shown = trimEnd (dropGutter line) := by
  simp only [IsKept, behind_iff, exists_eq_left]

end Gutters

section Delimiters

def keptText (t : Text) : Text :=
  stripWhere (· = '\n') (join "\n" (t.lines.map fun line ↦ trimEnd (dropGutter line)))

theorem keptText_sublist (t : Text) : (keptText t).Sublist t := by
  have hlines : List.Forall₂ List.Sublist (t.lines.map fun line ↦ trimEnd (dropGutter line)) t.lines := by
    rw [List.forall₂_map_left_iff, List.forall₂_same]
    intro line _
    exact (trimEnd_isPrefix _).sublist.trans (dropGutter_suffix line).sublist
  have hjoin := join_sublist "\n" hlines
  rw [join_lines] at hjoin
  exact (isInfix_stripWhere _ _).sublist.trans hjoin

theorem keptText_eq_nil_iff (t : Text) : keptText t = [] ↔ ∀ line ∈ t.lines, ∀ c ∈ dropGutter line, c.isBlank := by
  have hline : ∀ line ∈ t.lines, .ofChar '\n' ∉ trimEnd (dropGutter line) := fun line hl hc ↦
    newline_not_mem_of_mem_lines hl ((dropGutter_suffix line).subset ((trimEnd_isPrefix _).subset hc))
  rw [keptText, stripWhere_eq_nil_iff]
  simp only [← trimEnd_eq_nil_iff]
  constructor
  · intro h line hl
    refine List.eq_nil_iff_forall_not_mem.2 fun c hc ↦ hline line hl ?_
    have hbreak := h c (mem_join_of_mem (List.mem_map_of_mem hl) hc "\n")
    rwa [← of_decide_eq_true hbreak]
  · intro h c hc
    refine decide_eq_true (eq_newline_of_mem_join (fun l hl ↦ ?_) c hc)
    obtain ⟨line, hmem, rfl⟩ := List.mem_map.1 hl
    exact h line hmem

theorem trim_delimited (s : Text) : trim (delimited s) = delimited s := by
  refine trim_of_stops (stops_cons (by decide)) ?_
  rw [delimited, List.reverse_append]
  exact stops_cons (by decide)

theorem dropOpening_delimited (s : Text) :
    dropOpening (delimited s) = behindStars (s ++ ("*/" : Text)) := by
  have hstarts : startsWith (delimited s) "/*" := by
    rw [delimited, List.append_assoc]
    exact List.isPrefixOf_iff_prefix.2 (List.prefix_append _ _)
  rw [dropOpening, if_pos hstarts, delimited, List.append_assoc]
  rfl

/-- Stars up to the end of a comment leave nothing of the end but the slash. -/
theorem unwrap_stars (h : ∀ c ∈ s, c = .ofChar '*') : unwrap (delimited s) = "/" := by
  have hbody : dropOpening (delimited s) = "/" := by
    rw [dropOpening_delimited, behindStars, List.dropWhile_append_of_pos fun c hc ↦ decide_eq_true (h c hc)]
    rfl
  rw [unwrap, trim_delimited, hbody]
  rfl

theorem unwrap_delimited (h : ∃ c ∈ s, c ≠ .ofChar '*') :
    unwrap (delimited s) = keptText (behindStars s) := by
  have hrest : ¬(s.dropWhile fun c ↦ decide (c = CodePoint.ofChar '*')).isEmpty := by
    rw [List.isEmpty_iff, List.dropWhile_eq_nil_iff]
    obtain ⟨c, hc, hstar⟩ := h
    exact fun hall ↦ hstar (of_decide_eq_true (hall c hc))
  have hbody : dropOpening (delimited s) = behindStars s ++ ("*/" : Text) := by
    rw [dropOpening_delimited, behindStars, List.dropWhile_append, if_neg hrest, behindStars]
  rw [unwrap, trim_delimited, hbody, dropClosing_append, keptText]

end Delimiters

/-- What is kept of a comment is made of the lines between its delimiters, and nothing of these stays. Only where there
is nothing but stars between them, the slash of the closing one stays. A comment of stars and blanks is empty if every
star but the first ones is in a gutter. -/
theorem text_delimited (s : Text) :
    ((∃ c ∈ s, c ≠ .ofChar '*') → (unwrap (delimited s)).Sublist s ∧
      ∃ shown, List.Forall₂ IsKept (lines (behindStars s)) shown ∧
        unwrap (delimited s) = stripWhere (· = '\n') (join "\n" shown)) ∧
    ((∀ c ∈ s, c = .ofChar '*') → unwrap (delimited s) = "/") ∧
    ((∀ c ∈ s, c = .ofChar '*' ∨ c.isBlank) → (unwrap (delimited s) = [] ↔ (∃ c ∈ s, c ≠ .ofChar '*') ∧
      ∀ line ∈ lines (behindStars s), ∀ rest, Behind line rest → .ofChar '*' ∉ rest)) := by
  refine ⟨fun h ↦ ⟨?_, ?_⟩, unwrap_stars, fun hblank ↦ ?_⟩
  · rw [unwrap_delimited h]
    exact (keptText_sublist _).trans (List.dropWhile_sublist _)
  · refine ⟨_, ?_, unwrap_delimited h⟩
    rw [List.forall₂_map_right_iff, List.forall₂_same]
    exact fun line _ ↦ isKept_iff.2 rfl
  · by_cases h : ∃ c ∈ s, c ≠ .ofChar '*'
    · rw [unwrap_delimited h, keptText_eq_nil_iff, and_iff_right h]
      refine forall₂_congr fun line hline ↦ ?_
      have hmem : ∀ c ∈ dropGutter line, c = .ofChar '*' ∨ c.isBlank := fun c hc ↦
        hblank c ((List.dropWhile_sublist _).subset
          ((isInfix_of_mem_splitWhere hline).subset ((dropGutter_suffix line).subset hc)))
      simp only [behind_iff, forall_eq]
      constructor
      · exact fun hall hstar ↦ absurd (hall _ hstar) (by decide)
      · exact fun hstar c hc ↦ (hmem c hc).resolve_left fun heq ↦ hstar (heq ▸ hc)
    · have hstars : ∀ c ∈ s, c = .ofChar '*' := by
        push Not at h
        exact h
      rw [unwrap_stars hstars, iff_false_right fun hleft ↦ h hleft.1]
      decide

/-- The slash that ends a comment is taken for its text. -/
theorem slash_left : unwrap "/**/" = "/" ∧ unwrap "/***/" = "/" := by
  decide

end Documentation

end PolymerAnalysis
