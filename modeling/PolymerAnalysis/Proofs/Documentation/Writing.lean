import PolymerAnalysis.Proofs.Documentation.Segmentation

namespace PolymerAnalysis

open Text

section Writing

def bracedType (type : Text) : Text := .ofChar '\x7b' :: (type ++ [.ofChar '\x7d'])

def Tag.body (t : Tag) : List Text := t.name.toList ++ t.description.toList

def Tag.written (t : Tag) : Text :=
  .ofChar '@' :: join " " (t.title :: ((t.type.map bracedType).toList ++ t.body))

namespace Documentation

def guttered (l : Text) : Text := .ofChar ' ' :: .ofChar '*' :: .ofChar ' ' :: l

def wrap (ls : List Text) : Text := join "\n" ("/**" :: (ls.map guttered ++ [(" */" : Text)]))

/-- The comments that are made of documentation. An empty description is an empty line or no line. -/
inductive IsWritten (docs : Documentation) : Text → Prop
  | described : IsWritten docs (wrap (docs.description.lines ++ docs.tags.map Tag.written))
  | bare : docs.description = [] → IsWritten docs (wrap (docs.tags.map Tag.written))

/-- A tag of which nothing is lost on its line. -/
structure CanonicalTag (t : Tag) : Prop where
  title : IsTitle t.title
  type_trim : ∀ type ∈ t.type, trim type = type
  type_inner : ∀ type ∈ t.type, .ofChar '\x7d' ∉ type ∧ .ofChar '\n' ∉ type
  name_title : t.name.isSome → t.title ∈ namedTitles
  name_word : ∀ name ∈ t.name, name ≠ [] ∧ ∀ c ∈ name, ¬c.isBlank
  description_squeeze : ∀ description ∈ t.description, squeeze description = description
  description_ne_nil : ∀ description ∈ t.description, description ≠ []
  description_named : t.description.isSome → t.title ∈ namedTitles → t.name.isSome
  body_brace : t.type = none → ¬startsWith (join " " t.body) "\x7b"

/-- Documentation of which nothing is lost in a comment. -/
structure Canonical (docs : Documentation) : Prop where
  line_text : ∀ l ∈ docs.description.lines, ¬IsTagLine l
  line_trim : ∀ l ∈ docs.description.lines, trimEnd l = l
  description_trim : trim docs.description = docs.description
  tag : ∀ t ∈ docs.tags, CanonicalTag t

end Documentation

end Writing

section Classes

theorem Text.not_inRanges_of_disjoint {rs ss : List (Nat × Nat)} {n : Nat}
    (h : ∀ r ∈ rs, ∀ s ∈ ss, r.2 < s.1 ∨ s.2 < r.1) (hn : inRanges rs n) : ¬inRanges ss n := by
  simp only [inRanges, List.any_eq_true, Bool.and_eq_true, decide_eq_true_eq, not_exists, not_and] at hn ⊢
  obtain ⟨r, hr, hleft, hright⟩ := hn
  intro s hs hle hge
  have hdisjoint := h r hr s hs
  omega

theorem CodePoint.not_isWord_of_isBlank {c : CodePoint} (h : c.isBlank) : ¬c.isWord := by
  rw [isWord]
  split
  · simp only [isBlank, inRanges, List.any_cons, List.any_nil, Bool.or_false, Bool.or_eq_true, Bool.and_eq_true,
      decide_eq_true_eq] at h
    have hne : c ≠ '_' := fun heq ↦ by
      subst heq
      exact absurd h (by decide)
    simp only [isLetter, isUpper, isLower, isDigit, Bool.or_eq_true, Bool.and_eq_true, decide_eq_true_eq, hne, or_false]
    omega
  · exact not_inRanges_of_disjoint (by decide +kernel) h

end Classes

namespace Documentation

variable {l gap core : Text} {ls : List Text} {t : Tag} {docs : Documentation} {comment : Text}

theorem not_isBlank_of_isTitle {c : CodePoint} (h : isTitle c) : ¬c.isBlank := by
  intro hblank
  rcases Bool.or_eq_true_iff.1 h with h | h
  · exact CodePoint.not_isWord_of_isBlank hblank h
  · exact absurd (of_decide_eq_true h ▸ hblank) (by decide)

theorem IsTitle.not_isBlank {title : Text} (h : IsTitle title) : ∀ c ∈ title, ¬c.isBlank :=
  fun c hc ↦ not_isBlank_of_isTitle (h.isTitle_of_mem c hc)

theorem IsTitle.ne_nil {title : Text} (h : IsTitle title) : title ≠ [] := by
  obtain ⟨c, rest, rfl, -⟩ := h
  exact List.cons_ne_nil c rest

section Unwrapping

theorem dropGutter_guttered (l : Text) : dropGutter (guttered l) = l := by
  have hline : (guttered l).dropWhile isIndent = .ofChar '*' :: .ofChar ' ' :: l := rfl
  rw [dropGutter, hline]
  rfl

theorem dropClosing_append (u : Text) : dropClosing (u ++ ("*/" : Text)) = u := by
  have hends : endsWith (u ++ ("*/" : Text)) "*/" := List.isSuffixOf_iff_suffix.2 (List.suffix_append u _)
  have hlength : (u ++ ("*/" : Text)).length - 2 = u.length := by
    rw [List.length_append]
    rfl
  rw [dropClosing, if_pos hends, hlength, List.take_left]

theorem dropOpening_append (u : Text) : dropOpening (("/**\n" : Text) ++ u) = .ofChar '\n' :: u := rfl

theorem wrap_eq (ls : List Text) :
    wrap ls = ("/**\n" : Text) ++ (join "\n" (ls.map guttered ++ [(" " : Text)]) ++ ("*/" : Text)) := by
  rw [wrap, join_cons _ _ (List.append_ne_nil_of_right_ne_nil _ (List.cons_ne_nil _ _))]
  exact congrArg (("/**\n" : Text) ++ ·) (join_concat_append "\n" " " "*/" (ls.map guttered))

theorem trim_wrap (ls : List Text) : trim (wrap ls) = wrap ls := by
  rw [wrap_eq]
  refine trim_of_stops (stops_cons (by decide)) ?_
  rw [← List.append_assoc, List.reverse_append]
  exact stops_cons (by decide)

/-- The lines of a comment come back, but not the empty lines around them. -/
theorem unwrap_wrap (hbreak : ∀ l ∈ ls, .ofChar '\n' ∉ l) (htrim : ∀ l ∈ ls, trimEnd l = l) :
    unwrap (wrap ls) = stripWhere (· = '\n') (join "\n" ([] :: (ls ++ [[]]))) := by
  have hlines : lines (.ofChar '\n' :: join "\n" (ls.map guttered ++ [(" " : Text)])) =
      [] :: (ls.map guttered ++ [(" " : Text)]) := by
    have hne := List.append_ne_nil_of_right_ne_nil (ls.map guttered) (List.cons_ne_nil (" " : Text) [])
    have hjoin := join_cons "\n" [] hne
    refine (congrArg lines hjoin.symm).trans (lines_join (List.cons_ne_nil _ _) ?_)
    simp only [List.forall_mem_cons, List.forall_mem_append, List.forall_mem_map]
    refine ⟨List.not_mem_nil, fun l hl ↦ ?_, by decide⟩
    simp only [guttered, List.mem_cons, not_or]
    exact ⟨by decide, by decide, by decide, hbreak l hl⟩
  have hmap : ls.map (fun l ↦ trimEnd (dropGutter (guttered l))) = ls := by
    simp only [dropGutter_guttered]
    exact List.map_congr_left htrim |>.trans (List.map_id ls)
  rw [unwrap, trim_wrap, wrap_eq, dropOpening_append]
  rw [← List.cons_append, dropClosing_append, hlines, List.map_cons, List.map_append, List.map_map]
  exact congrArg (fun ls ↦ stripWhere (· = '\n') (join "\n" ([] :: (ls ++ [[]])))) hmap

end Unwrapping

section Lines

theorem CanonicalTag.part (h : CanonicalTag t) {part : Text}
    (hpart : part ∈ t.title :: ((t.type.map bracedType).toList ++ t.body)) :
    part ≠ [] ∧ Stops (·.isBlank) part ∧ Stops (·.isBlank) part.reverse ∧ .ofChar '\n' ∉ part := by
  have hword : ∀ w : Text, w ≠ [] → (∀ c ∈ w, ¬c.isBlank) →
      w ≠ [] ∧ Stops (·.isBlank) w ∧ Stops (·.isBlank) w.reverse ∧ .ofChar '\n' ∉ w :=
    fun w hne hw ↦ ⟨hne, stops_of_forall hw, stops_reverse_of_forall hw, fun hc ↦ hw _ hc (by decide)⟩
  simp only [List.mem_cons, List.mem_append, Option.mem_toList, Tag.body, Option.map_eq_some_iff] at hpart
  rcases hpart with rfl | ⟨type, htype, rfl⟩ | hname | hdescription
  · exact hword _ h.title.ne_nil h.title.not_isBlank
  · refine ⟨List.cons_ne_nil _ _, stops_cons (by decide), ?_, ?_⟩
    · rw [bracedType, List.reverse_cons, List.reverse_append]
      exact stops_cons (by decide)
    · have hbreak := (h.type_inner type htype).2
      simp [bracedType, hbreak]
      decide
  · exact hword _ (h.name_word part hname).1 (h.name_word part hname).2
  · have hsqueeze := h.description_squeeze part hdescription
    have htrim : trim part = part := hsqueeze ▸ trim_squeeze part
    refine ⟨h.description_ne_nil part hdescription, stops_of_trim htrim, stops_reverse_of_trim htrim, fun hc ↦ ?_⟩
    have hspace := eq_space_of_mem_squeeze (hsqueeze.symm ▸ hc) (by decide)
    exact absurd hspace (by decide)

theorem CanonicalTag.stops_reverse_written (h : CanonicalTag t) : Stops (·.isBlank) t.written.reverse := by
  have hparts := stops_reverse_join (fun w hw ↦ (h.part hw).1) fun w hw ↦ (h.part hw).2.2.1
  rw [Tag.written, List.reverse_cons]
  exact stops_append hparts fun _ ↦ stops_cons (by decide)

theorem CanonicalTag.newline_not_mem_written (h : CanonicalTag t) : .ofChar '\n' ∉ t.written := by
  have hparts : ∀ w ∈ t.title :: ((t.type.map bracedType).toList ++ t.body), .ofChar '\n' ∉ w :=
    fun w hw ↦ (h.part hw).2.2.2
  rw [List.forall_mem_cons] at hparts
  rw [Tag.written, join_cons_eq_flatMap, List.mem_cons, List.mem_append, List.mem_flatMap]
  rintro (hc | hc | ⟨w, hw, hc⟩)
  · exact absurd hc (by decide)
  · exact hparts.1 hc
  · exact hparts.2 w hw ((List.mem_cons.1 hc).resolve_left (by decide))

theorem CanonicalTag.isTagLine_written (h : CanonicalTag t) : IsTagLine t.written := by
  obtain ⟨c, rest, htitle, hc, -⟩ := h.title
  rw [Tag.written, htitle, join_cons_eq_flatMap]
  exact ⟨[], c, _, rfl, by simp, hc⟩

end Lines

section Tags

theorem CanonicalTag.squeeze_body (h : CanonicalTag t) : squeeze (join " " t.body) = join " " t.body := by
  rw [Tag.body]
  cases hname : t.name with
  | none =>
    cases hdescription : t.description with
    | none => rfl
    | some description =>
      have hsqueeze := h.description_squeeze description hdescription
      have hjoin : join " " ((none : Option Text).toList ++ (some description).toList) = description :=
        join_singleton " " description
      rw [hjoin, hsqueeze]
  | some name =>
    obtain ⟨hne, hword⟩ := h.name_word name hname
    have hwords := words_of_forall hne hword
    cases hdescription : t.description with
    | none =>
      have hjoin : join " " ((some name).toList ++ (none : Option Text).toList) = name := join_singleton " " name
      rw [hjoin, squeeze, hwords, join_singleton]
    | some description =>
      have hsqueeze := h.description_squeeze description hdescription
      have hdescription_words : words description ≠ [] := fun hnil ↦
        h.description_ne_nil description hdescription (by rw [← hsqueeze, squeeze, hnil]; rfl)
      have hjoin : join " " ((some name).toList ++ (some description).toList) = name ++ .ofChar ' ' :: description := by
        refine (join_cons " " name (List.cons_ne_nil description [])).trans ?_
        rw [join_singleton, List.append_assoc]
        rfl
      rw [hjoin, squeeze_word_join hne hword hdescription_words, hsqueeze]

/-- What stands behind the type, or behind the title where there is no type. -/
theorem join_nil_cons (ls : List Text) :
    join " " ([] :: ls) = if ls = [] then [] else .ofChar ' ' :: join " " ls := by
  split
  · next hls => rw [hls, join_singleton]
  · next hls => exact join_cons " " [] hls

theorem CanonicalTag.says (h : CanonicalTag t) : Says t (squeeze (join " " ([] :: t.body))) := by
  have hsqueeze : squeeze (join " " ([] :: t.body)) = join " " t.body := by
    rw [join_nil_cons]
    split
    · next hbody => rw [hbody]; rfl
    · have hspace : ∀ c ∈ [CodePoint.ofChar ' '], c.isBlank := by decide
      exact (squeeze_blank_append hspace _).trans h.squeeze_body
  have hne : join " " t.body ≠ [] ↔ t.body ≠ [] := by
    refine ⟨fun hjoin hbody ↦ hjoin (by rw [hbody]; rfl), fun hbody ↦ join_ne_nil hbody fun w hw ↦ ?_⟩
    exact (h.part (List.mem_cons_of_mem _ (List.mem_append_right _ hw))).1
  rw [hsqueeze]
  refine ⟨rfl, ?_, fun name hname hc ↦ (h.name_word name hname).2 _ hc (by decide), h.description_ne_nil⟩
  rw [hne]
  constructor
  · intro hname
    obtain ⟨name, hname_eq⟩ := Option.isSome_iff_exists.1 hname
    exact ⟨h.name_title hname, by simp [Tag.body, hname_eq]⟩
  · rintro ⟨htitle, hbody⟩
    cases hdescription : t.description with
    | none =>
      cases hname : t.name with
      | none => simp [Tag.body, hname, hdescription] at hbody
      | some name => rfl
    | some description => exact h.description_named (by rw [hdescription]; rfl) htitle

/-- Braces that are not a type cannot be taken for one. -/
theorem CanonicalTag.not_braces (h : CanonicalTag t) (htype : t.type = none) (inner rest : Text) :
    ¬Braces (join " " ([] :: t.body)) inner rest := by
  rintro ⟨indent, heq, hindent, -⟩
  rw [join_nil_cons] at heq
  split at heq
  · exact List.append_ne_nil_of_right_ne_nil _ (List.cons_ne_nil _ _) heq.symm
  · next hbody =>
    have hstops : Stops (isIndent ·) (join " " t.body) := by
      obtain ⟨w, ws, hws⟩ := List.exists_cons_of_ne_nil hbody
      have hw : w ∈ t.title :: ((t.type.map bracedType).toList ++ t.body) := by simp [hws]
      obtain ⟨hne, hblank, -, -⟩ := h.part hw
      rw [hws, join_cons_eq_flatMap]
      refine stops_append (fun c hc hindent ↦ hblank c hc (isBlank_of_isIndent hindent)) fun hnil ↦ absurd hnil hne
    have hspace : ∀ c ∈ [CodePoint.ofChar ' '], isIndent c := by decide
    have happend : [CodePoint.ofChar ' '] ++ join " " t.body =
        indent ++ .ofChar '\x7b' :: (inner ++ .ofChar '\x7d' :: rest) := heq
    obtain ⟨-, hbrace⟩ := eq_of_append_eq hspace hstops hindent (stops_cons (by decide)) happend
    refine h.body_brace htype ?_
    rw [hbrace]
    rfl

theorem CanonicalTag.reads (h : CanonicalTag t) : Reads ⟨t.written, []⟩ t := by
  have hsays := h.says
  rw [← join_singleton "\n" (join " " ([] :: t.body))] at hsays
  cases htype : t.type with
  | none =>
    refine ⟨[], join " " ([] :: t.body), join " " ([] :: t.body), ?_, by simp, h.title, ?_, ?_, hsays⟩
    · rw [Tag.written, htype, join_cons_eq_flatMap, join_cons_eq_flatMap]
      rfl
    · rw [join_nil_cons]
      split
      · exact stops_nil _
      · exact stops_cons (by decide)
    · rw [htype]
      exact .missing (h.not_braces htype)
  | some type =>
    refine ⟨[], .ofChar ' ' :: (bracedType type ++ join " " ([] :: t.body)), join " " ([] :: t.body), ?_, by simp,
      h.title, stops_cons (by decide), ?_, hsays⟩
    · rw [Tag.written, htype, join_cons_eq_flatMap, join_cons_eq_flatMap]
      simp only [Option.map_some, Option.toList_some, List.singleton_append, List.flatMap_cons, List.append_assoc]
      rfl
    · have hbraces :
          Braces (.ofChar ' ' :: (bracedType type ++ join " " ([] :: t.body))) type (join " " ([] :: t.body)) := by
        refine ⟨[.ofChar ' '], ?_, by decide, (h.type_inner type htype).1⟩
        rw [bracedType, List.cons_append, List.append_assoc]
        rfl
      have hin := TypeIn.braces hbraces
      rwa [h.type_trim type htype, ← htype] at hin

end Tags

section Comments

def keptLines (docs : Documentation) : List Text :=
  (if docs.description = [] then [] else docs.description.lines) ++ docs.tags.map Tag.written

theorem Canonical.newline_not_mem (h : Canonical docs) : ∀ l ∈ keptLines docs, .ofChar '\n' ∉ l := by
  intro l hl
  rcases List.mem_append.1 hl with hl | hl
  · split at hl
    · cases hl
    · exact newline_not_mem_of_mem_lines hl
  · obtain ⟨t, ht, rfl⟩ := List.mem_map.1 hl
    exact (h.tag t ht).newline_not_mem_written

theorem Canonical.trimEnd_eq (h : Canonical docs) : ∀ l ∈ keptLines docs, trimEnd l = l := by
  intro l hl
  rcases List.mem_append.1 hl with hl | hl
  · split at hl
    · cases hl
    · exact h.line_trim l hl
  · obtain ⟨t, ht, rfl⟩ := List.mem_map.1 hl
    exact trimEnd_of_stops (h.tag t ht).stops_reverse_written

theorem Canonical.trim_eq (h : Canonical docs) : trim (join "\n" (keptLines docs)) = join "\n" (keptLines docs) := by
  refine trim_of_stops ?_ ?_
  · rw [keptLines]
    split
    · cases docs.tags with
      | nil => exact stops_nil _
      | cons t tags =>
        rw [List.nil_append, List.map_cons, join_cons_eq_flatMap]
        exact stops_cons (by decide)
    · next hne =>
      obtain ⟨gap, hgap, -⟩ := exists_join_append docs.description.lines (docs.tags.map Tag.written)
      rw [hgap, join_lines, List.append_assoc]
      exact stops_append (stops_of_trim h.description_trim) fun hnil ↦ absurd hnil hne
  · rcases List.eq_nil_or_concat docs.tags with htags | ⟨tags, t, htags⟩
    · rw [keptLines, htags, List.map_nil, List.append_nil]
      split
      · exact stops_nil _
      · rw [join_lines]
        exact stops_reverse_of_trim h.description_trim
    · have ht : CanonicalTag t := h.tag t (by simp [htags])
      have hlast := join_concat_append "\n" [] t.written
        ((if docs.description = [] then [] else docs.description.lines) ++ tags.map Tag.written)
      rw [keptLines, htags, List.concat_eq_append, List.map_append, List.map_singleton, ← List.append_assoc]
      rw [List.nil_append] at hlast
      rw [hlast, List.reverse_append]
      exact stops_append ht.stops_reverse_written fun hnil ↦
        absurd (List.reverse_eq_nil_iff.1 hnil) (List.cons_ne_nil _ _)

/-- Empty lines around the lines that are kept are dropped. -/
theorem Canonical.strip_eq (h : Canonical docs) {empty : List Text} (hempty : ∀ l ∈ empty, l = []) :
    stripWhere (· = '\n') (join "\n" (empty ++ (keptLines docs ++ [[]]))) = join "\n" (keptLines docs) := by
  have hbreak : ∀ c ∈ join "\n" empty, c = '\n' := by
    cases empty with
    | nil => exact fun c hc ↦ by cases hc
    | cons l ls =>
      rw [List.forall_mem_cons] at hempty
      rw [hempty.1, join_cons_eq_flatMap, List.nil_append]
      intro c hc
      obtain ⟨l', hl', hc⟩ := List.mem_flatMap.1 hc
      rw [hempty.2 l' hl', List.append_nil] at hc
      exact List.mem_singleton.1 hc
  have hstops : ∀ {u : Text}, Stops (·.isBlank) u → Stops (fun c ↦ decide (c = CodePoint.ofChar '\n')) u :=
    fun hu c hc hbreak ↦ hu c hc (of_decide_eq_true hbreak ▸ by decide)
  obtain ⟨gap, hgap, hgap_break⟩ := exists_join_append empty (keptLines docs ++ [[]])
  obtain ⟨gap', hgap', hgap_break'⟩ := exists_join_append (keptLines docs) [[]]
  rw [hgap, hgap', join_singleton, List.append_nil]
  refine stripWhere_append ?_ ?_ (hstops (stops_of_trim h.trim_eq)) (hstops (stops_reverse_of_trim h.trim_eq))
  · intro c hc
    rcases List.mem_append.1 hc with hc | hc
    · exact decide_eq_true (hbreak c hc)
    · exact decide_eq_true (hgap_break c hc)
  · exact fun c hc ↦ decide_eq_true (hgap_break' c hc)

theorem Canonical.unwrap_eq (h : Canonical docs) (hwritten : IsWritten docs comment) :
    unwrap comment = join "\n" (keptLines docs) := by
  have hlines : ∃ empty : List Text, (∀ l ∈ empty, l = []) ∧ comment = wrap (empty ++ keptLines docs) := by
    cases hwritten with
    | described =>
      by_cases hnil : docs.description = []
      · exact ⟨[[]], by simp, by rw [keptLines, if_pos hnil, hnil]; rfl⟩
      · exact ⟨[], by simp, by rw [keptLines, if_neg hnil]; rfl⟩
    | bare hnil => exact ⟨[], by simp, by rw [keptLines, if_pos hnil]; rfl⟩
  obtain ⟨empty, hempty, rfl⟩ := hlines
  have hbreak : ∀ l ∈ empty ++ keptLines docs, .ofChar '\n' ∉ l := by
    refine List.forall_mem_append.2 ⟨fun l hl ↦ ?_, h.newline_not_mem⟩
    rw [hempty l hl]
    exact List.not_mem_nil
  have htrim : ∀ l ∈ empty ++ keptLines docs, trimEnd l = l := by
    refine List.forall_mem_append.2 ⟨fun l hl ↦ ?_, h.trimEnd_eq⟩
    rw [hempty l hl]
    rfl
  have hstrip := h.strip_eq (List.forall_mem_cons.2 ⟨rfl, hempty⟩)
  rw [unwrap_wrap hbreak htrim, List.append_assoc]
  exact hstrip

theorem Canonical.segments (h : Canonical docs) : Segments (lines (join "\n" (keptLines docs))) docs := by
  by_cases hkept : keptLines docs = []
  · obtain ⟨hlines, htags⟩ := List.append_eq_nil_iff.1 hkept
    have hdescription : docs.description = [] := by
      by_contra hne
      rw [if_neg hne] at hlines
      exact splitWhere_ne_nil _ _ hlines
    rw [hkept]
    refine ⟨[[]], [], ⟨rfl, ?_, by simp, by simp⟩, hdescription, ?_⟩
    · rintro l hl ⟨indent, c, rest, rfl, -⟩
      simp at hl
    · rw [List.map_eq_nil_iff.1 htags]
      exact .nil
  · rw [lines_join hkept h.newline_not_mem]
    refine ⟨if docs.description = [] then [] else docs.description.lines, docs.tags.map fun t ↦ ⟨t.written, []⟩,
      ⟨?_, ?_, ?_, ?_⟩, ?_, ?_⟩
    · rw [keptLines, List.flatMap_map, List.map_eq_flatMap]
      rfl
    · intro l hl
      split at hl
      · cases hl
      · exact h.line_text l hl
    · rintro b hb
      obtain ⟨t, ht, rfl⟩ := List.mem_map.1 hb
      exact (h.tag t ht).isTagLine_written
    · rintro b hb
      obtain ⟨t, ht, rfl⟩ := List.mem_map.1 hb
      exact fun l hl ↦ by cases hl
    · split
      · assumption
      · rw [join_lines, h.description_trim]
    · rw [List.forall₂_map_left_iff]
      exact List.forall₂_same.2 fun t ht ↦ (h.tag t ht).reads

/-- Reading undoes writing. -/
theorem ofComment_of_isWritten (h : Canonical docs) (hwritten : IsWritten docs comment) : ofComment comment = docs := by
  have hread := segments_ofComment comment
  rw [h.unwrap_eq hwritten] at hread
  exact hread.unique h.segments

def counted : Documentation where
  description := "Counts things.\n\n * starred\n  @ last"
  tags := [⟨"param", some "number", some "count", some "How many"⟩, ⟨"polymer", none, none, none⟩,
    ⟨"returns", some "", none, some "the \x7bsum\x7d"⟩, ⟨"event", none, some "iron-select", none⟩]

theorem canonical_counted : Canonical counted where
  line_text := by decide
  line_trim := by decide
  description_trim := by decide
  tag := by
    simp only [counted, List.forall_mem_cons]
    refine ⟨?_, ?_, ?_, ?_, by simp⟩
    · constructor <;> decide
    · constructor <;> decide
    · constructor <;> decide
    · constructor <;> decide

def countedComment : Text :=
  join "\n" ["/**", " * Counts things.", " * ", " *  * starred", " *   @ last",
    " * @param \x7bnumber\x7d count How many", " * @polymer", " * @returns \x7b\x7d the \x7bsum\x7d",
    " * @event iron-select", " */"]

theorem isWritten_countedComment : IsWritten counted countedComment := by
  have hwrap : countedComment = wrap (counted.description.lines ++ counted.tags.map Tag.written) := by
    decide +kernel
  rw [hwrap]
  exact .described

theorem ofComment_countedComment :
    Canonical counted ∧ IsWritten counted countedComment ∧ ofComment countedComment = counted :=
  ⟨canonical_counted, isWritten_countedComment, ofComment_of_isWritten canonical_counted isWritten_countedComment⟩

end Comments

end Documentation

end PolymerAnalysis
