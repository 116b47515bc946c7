import PolymerAnalysis.Proofs.Documentation.Blocks
import PolymerAnalysis.Proofs.Peg.Matching

namespace PolymerAnalysis.Documentation

open Text Peg

variable {y l after body title words : Text} {ls before next : List Text} {isIn : CodePoint → Bool} {b : Block}
  {blocks : List Block}

section Classes

theorem isInner_iff {c : CodePoint} : isInner c ↔ c ≠ .ofChar '\n' := by
  simp [isInner, isBreak]

theorem forall_isInner (h : .ofChar '\n' ∉ l) : ∀ c ∈ l, isInner c :=
  fun _ hc ↦ isInner_iff.2 fun heq ↦ h (heq ▸ hc)

theorem isInner_of_isIndent {c : CodePoint} (h : isIndent c) : isInner c :=
  isInner_iff.2 fun heq ↦ absurd (heq ▸ h) (by decide)

theorem isBlank_of_isIndent {c : CodePoint} (h : isIndent c) : c.isBlank := by
  rcases Bool.or_eq_true_iff.1 h with h | h
  · rw [of_decide_eq_true h]
    decide
  · rw [of_decide_eq_true h]
    decide

theorem isInner_of_isLetter {c : CodePoint} (h : c.isLetter) : isInner c :=
  isInner_iff.2 fun heq ↦ absurd (heq ▸ h) (by decide)

end Classes

section Ends

def Ends (y : Text) (ls : List Text) : Prop := y = [] ∧ ls = [] ∨ y = .ofChar '\n' :: join "\n" ls

theorem exists_ends (ls : List Text) : ∃ y, Ends y ls ∧ ∀ l, join "\n" (l :: ls) = l ++ y := by
  by_cases hls : ls = []
  · exact ⟨[], .inl ⟨rfl, hls⟩, fun l ↦ by rw [hls, join_singleton, List.append_nil]⟩
  · exact ⟨_, .inr rfl, fun l ↦ by rw [join_cons _ _ hls, List.append_assoc]; rfl⟩

theorem Ends.stops (h : Ends y ls) (hbreak : ¬isIn (.ofChar '\n')) : Stops (isIn ·) y := by
  rcases h with ⟨rfl, -⟩ | rfl
  · exact stops_nil _
  · exact stops_cons hbreak

theorem Ends.stops_inner (h : Ends y ls) : Stops (isInner ·) y := h.stops (by decide)

theorem Ends.length_lt (h : Ends y ls) (hne : l ++ y ≠ []) : (join "\n" ls).length < (l ++ y).length := by
  rcases h with ⟨rfl, rfl⟩ | rfl
  · exact List.length_pos_iff.2 hne
  · rw [List.length_append, List.length_cons]
    omega

theorem length_join_lt (hne : l ≠ []) (ls next : List Text) :
    (join "\n" next).length < (join "\n" (l :: ls ++ next)).length := by
  obtain ⟨y, -, hy⟩ := exists_ends ls
  obtain ⟨gap, hgap, -⟩ := exists_join_append (l :: ls) next
  have hpos := List.length_pos_iff.2 hne
  rw [hgap, hy]
  simp only [List.length_append]
  omega

end Ends

section TextLines

theorem parse_line (hy : Ends y ls) (hl : ∀ c ∈ l, isInner c) (hne : l ++ y ≠ []) :
    ∃ tree, parse line (l ++ y) = some (tree, join "\n" ls) := by
  rcases hy with ⟨rfl, rfl⟩ | rfl
  · rw [List.append_nil] at hne ⊢
    obtain ⟨c, cs, rfl⟩ := List.exists_cons_of_ne_nil hne
    have hbroken : Pattern.rest? [⟨isInner, .many⟩, ⟨isBreak, .one⟩] (c :: cs) = none := by
      refine Option.eq_none_iff_forall_ne_some.2 fun rest hrest ↦ ?_
      obtain ⟨x, z, heq, -, hz⟩ := exists_of_takeMany hrest
      obtain ⟨d, u, rfl, hd, -⟩ := Pattern.exists_of_rest?_one hz
      have hinner := hl d (by rw [heq]; simp)
      rw [isInner, hd] at hinner
      cases hinner
    have hlast : Pattern.rest? [⟨isInner, .one⟩, ⟨isInner, .many⟩] (c :: cs) = some [] := by
      rw [Pattern.rest?_one (hl c List.mem_cons_self), Pattern.rest?_many]
      have hcs := takeMany_append (y := []) (fun d hd ↦ hl d (List.mem_cons_of_mem c hd)) (stops_nil _) rfl
      rwa [List.append_nil] at hcs
    exact ⟨_, parse_choice ((parseFirst_tail (parse_pattern_of_none hbroken)).trans
      (parseFirst_head (parse_pattern hlast)))⟩
  · have hbroken : Pattern.rest? [⟨isInner, .many⟩, ⟨isBreak, .one⟩] (l ++ .ofChar '\n' :: join "\n" ls) =
        some (join "\n" ls) :=
      takeMany_append hl (stops_cons (by decide)) (Pattern.rest?_one (by decide) [] _)
    exact ⟨_, parse_choice (parseFirst_head (parse_pattern hbroken))⟩

/-- Where a tag may start depends on the line alone. -/
theorem isSome_parse_tagStart (hy : Ends y ls) (hl : ∀ c ∈ l, isInner c) :
    (parse tagStart (l ++ y)).isSome ↔ IsTagLine l := by
  have hsome : (parse tagStart (l ++ y)).isSome ↔
      ∃ u, Pattern.rest? [⟨isIndent, .many⟩, ⟨(· = .ofChar '@'), .one⟩, ⟨(·.isLetter), .one⟩] (l ++ y) = some u := by
    rw [tagStart, parse, Option.isSome_map, Option.isSome_iff_exists]
  rw [hsome]
  constructor
  · rintro ⟨u, hu⟩
    obtain ⟨indent, z, heq, hindent, hz⟩ := exists_of_takeMany hu
    obtain ⟨d, v, rfl, hd, hv⟩ := Pattern.exists_of_rest?_one hz
    obtain ⟨c, w, rfl, hc, -⟩ := Pattern.exists_of_rest?_one hv
    obtain rfl : d = .ofChar '@' := of_decide_eq_true hd
    -- The marks that start a tag have no break among them, so that they lie on this line.
    have hstart : ∀ e ∈ indent ++ [.ofChar '@', c], isInner e := by
      intro e he
      rcases List.mem_append.1 he with he | he
      · exact isInner_of_isIndent (hindent e he)
      · rcases List.mem_pair.1 he with rfl | rfl
        · decide
        · exact isInner_of_isLetter hc
    have happend : l ++ y = (indent ++ [.ofChar '@', c]) ++ w := by
      rw [heq, List.append_assoc]
      rfl
    obtain ⟨rest, rfl, -⟩ := exists_of_append_eq hstart hl hy.stops_inner happend
    exact ⟨indent, c, rest, by rw [List.append_assoc]; rfl, hindent, hc⟩
  · rintro ⟨indent, c, rest, rfl, hindent, hc⟩
    refine ⟨rest ++ y, ?_⟩
    rw [List.append_assoc]
    refine takeMany_append hindent (stops_cons (by decide)) ?_
    rw [List.cons_append, Pattern.rest?_one (by decide), List.cons_append, Pattern.rest?_one hc]
    rfl

theorem parse_textLine (hy : Ends y ls) (hl : ∀ c ∈ l, isInner c) (hne : l ++ y ≠ []) (htag : ¬IsTagLine l) :
    ∃ tree, parse textLine (l ++ y) = some (tree, join "\n" ls) := by
  have hnone : parse tagStart (l ++ y) = none := by
    rwa [← isSome_parse_tagStart hy hl, Option.not_isSome_iff_eq_none] at htag
  obtain ⟨tree, htree⟩ := parse_line hy hl hne
  exact ⟨_, parse_sequence (parseAll_cons (parse_absent hnone) (parseAll_cons htree (parseAll_nil _)))⟩

theorem parse_textLine_of_isTagLine (hy : Ends y ls) (hl : ∀ c ∈ l, isInner c) (htag : IsTagLine l) :
    parse textLine (l ++ y) = none :=
  parse_sequence_of_none (parseAll_cons_of_none (parse_absent_of_isSome ((isSome_parse_tagStart hy hl).2 htag)))

/-- The lines of a text are taken up to the next tag line. -/
theorem exists_takes_textLine (hbefore : ∀ l ∈ before, ¬IsTagLine l) (hnext : Stops (¬IsTagLine ·) next)
    (hinner : ∀ l ∈ before ++ next, ∀ c ∈ l, isInner c) :
    ∃ trees, Takes (parse textLine) (join "\n" (before ++ next)) trees (join "\n" next) := by
  induction before with
  | nil =>
    refine ⟨[], .stop fun hne ↦ ?_⟩
    cases next with
    | nil => exact absurd rfl hne
    | cons l next =>
      obtain ⟨y, hy, hjoin⟩ := exists_ends next
      rw [List.nil_append, hjoin]
      exact parse_textLine_of_isTagLine hy (hinner l List.mem_cons_self) (not_not.1 (hnext l rfl))
  | cons l before ih =>
    rw [List.cons_append] at hinner ⊢
    rw [List.forall_mem_cons] at hbefore hinner
    obtain ⟨y, hy, hjoin⟩ := exists_ends (before ++ next)
    rw [hjoin]
    by_cases hne : l ++ y = []
    · rcases hy with ⟨-, hls⟩ | rfl
      · obtain ⟨rfl, rfl⟩ := List.append_eq_nil_iff.1 hls
        rw [hne]
        exact ⟨[], .stop fun h ↦ absurd rfl h⟩
      · cases (List.append_eq_nil_iff.1 hne).2
    · obtain ⟨tree, htree⟩ := parse_textLine hy hinner.1 hne hbefore.1
      obtain ⟨trees, htrees⟩ := ih hbefore.2 hinner.2
      exact ⟨tree :: trees, .take htree (hy.length_lt hne) htrees⟩

/-- What is matched up to some lines is the lines before these, perhaps with the break at the end. -/
theorem exists_text_eq {e : Expr} {tree : Tree} (h : parse e (join "\n" (ls ++ next)) = some (tree, join "\n" next)) :
    ∃ gap, tree.text = join "\n" ls ++ gap ∧ ∀ c ∈ gap, c.isBlank := by
  obtain ⟨gap, hgap, hbreak⟩ := exists_join_append ls next
  have htext := text_append h
  rw [hgap] at htext
  exact ⟨gap, List.append_cancel_right htext, fun c hc ↦ by rw [hbreak c hc]; decide⟩

end TextLines

section Types

theorem exists_of_parse_tagType {t rest : Text} {tree : Tree} (h : parse tagType t = some (tree, rest)) :
    ∃ inner body : Text, t = .ofChar '\x7b' :: (inner ++ .ofChar '\x7d' :: body) ∧ ∀ c ∈ inner, isInType c := by
  obtain ⟨trees, h⟩ := exists_of_parse_sequence h
  obtain ⟨_, u, _, hopen, h, -⟩ := exists_of_parseAll_cons h
  obtain ⟨_, v, _, hinner, h, -⟩ := exists_of_parseAll_cons h
  obtain ⟨_, body, _, hclose, -, -⟩ := exists_of_parseAll_cons h
  obtain ⟨inner, rfl, htype⟩ := exists_of_parse_many hinner
  obtain rfl := exists_of_parse_literal hclose
  exact ⟨inner, body, exists_of_parse_literal hopen, htype⟩

/-- A type ends on the line on which it begins. -/
theorem exists_braces {tree : Tree} {rest : Text} (hy : Ends y ls) (hl : ∀ c ∈ l, isInner c)
    (h : parse tagType (l ++ y) = some (tree, rest)) :
    ∃ inner body : Text, l = .ofChar '\x7b' :: (inner ++ .ofChar '\x7d' :: body) ∧ .ofChar '\x7d' ∉ inner := by
  obtain ⟨inner, z, heq, htype⟩ := exists_of_parse_tagType h
  have hinner : ∀ c ∈ inner, c ≠ .ofChar '\x7d' ∧ isInner c := fun c hc ↦ by
    simpa [isInType] using htype c hc
  have hclosed : ∀ c ∈ .ofChar '\x7b' :: (inner ++ [.ofChar '\x7d']), isInner c := by
    refine List.forall_mem_cons.2 ⟨by decide, List.forall_mem_append.2 ⟨fun c hc ↦ (hinner c hc).2, ?_⟩⟩
    exact List.forall_mem_singleton.2 (by decide)
  have happend : l ++ y = .ofChar '\x7b' :: (inner ++ [.ofChar '\x7d']) ++ z := by
    rw [heq]
    simp
  obtain ⟨body, rfl, -⟩ := exists_of_append_eq hclosed hl hy.stops_inner happend
  exact ⟨inner, body, by simp, fun hc ↦ (hinner _ hc).1 rfl⟩

theorem exists_parse_tagType {inner : Text} (hinner : ∀ c ∈ inner, isInType c) (z : Text) :
    ∃ tree, parse tagType (.ofChar '\x7b' :: (inner ++ .ofChar '\x7d' :: z)) = some (tree, z) ∧
      typeOf tree = inner.trim := by
  have hopen : parse (.literal "\x7b") (.ofChar '\x7b' :: (inner ++ .ofChar '\x7d' :: z)) = _ := parse_literal _ _
  have hmany := parse_many hinner (y := .ofChar '\x7d' :: z) (stops_cons (by decide))
  have hclose : parse (.literal "\x7d") (.ofChar '\x7d' :: z) = _ := parse_literal _ z
  have hsplit : .ofChar '\x7b' :: (inner ++ .ofChar '\x7d' :: z) =
      .ofChar '\x7b' :: (inner ++ [.ofChar '\x7d']) ++ z := by
    simp
  refine ⟨_, parse_sequence (parseAll_cons hopen (parseAll_cons hmany (parseAll_cons hclose (parseAll_nil z)))), ?_⟩
  change Text.trim ((consumed _ z).drop 1).dropLast = inner.trim
  rw [hsplit, consumed_left, List.drop_one, List.tail_cons, List.dropLast_concat]

theorem exists_parse_indentation (hy : Ends y ls) (l : Text) :
    ∃ indent rest : Text, l = indent ++ rest ∧ (∀ c ∈ indent, isIndent c) ∧ Stops (isIndent ·) (rest ++ y) ∧
      parse indentation (l ++ y) = some (.node indent [], rest ++ y) := by
  have hstops : Stops (isIndent ·) (l.dropWhile isIndent ++ y) :=
    stops_append (stops_dropWhile isIndent l) fun _ ↦ hy.stops (by decide)
  have hindent : ∀ c ∈ l.takeWhile isIndent, isIndent c := fun _ ↦ List.mem_takeWhile_imp
  have hparse := parse_many hindent hstops
  rw [← List.append_assoc, List.takeWhile_append_dropWhile] at hparse
  exact ⟨l.takeWhile isIndent, l.dropWhile isIndent, List.takeWhile_append_dropWhile.symm, hindent, hstops, hparse⟩

/-- Blanks, perhaps a type, and blanks again are taken from what stands behind a title. -/
theorem exists_parse_type (hy : Ends y ls) (hafter : ∀ c ∈ after, isInner c) :
    ∃ (first type second : Tree) (u v indent body : Text), parse indentation (after ++ y) = some (first, u) ∧
      parse (.repeated (some 1) tagType) u = some (type, v) ∧ parse indentation v = some (second, body ++ y) ∧
      (∀ c ∈ indent, isIndent c) ∧ (∀ c ∈ body, isInner c) ∧
      TypeIn after (type.children.head?.map typeOf) (indent ++ body) := by
  by_cases hbraces : ∃ inner body, Braces after inner body
  · obtain ⟨inner, body, hbraces⟩ := hbraces
    have htype := TypeIn.braces hbraces
    obtain ⟨indent, rfl, hindent, hclose⟩ := hbraces
    have hinner : ∀ c ∈ inner, isInType c := fun c hc ↦ by
      have hbreak := hafter c (by simp [hc])
      have hne : c ≠ .ofChar '\x7d' := fun heq ↦ hclose (heq ▸ hc)
      simp [isInType, hbreak, hne]
    have hbody : ∀ c ∈ body, isInner c := fun c hc ↦ hafter c (by simp [hc])
    obtain ⟨tree, htree, htypeOf⟩ := exists_parse_tagType hinner (body ++ y)
    have hlt : (body ++ y).length < (.ofChar '\x7b' :: (inner ++ .ofChar '\x7d' :: (body ++ y))).length := by
      simp only [List.length_cons, List.length_append]
      omega
    have hfirst : parse indentation (indent ++ .ofChar '\x7b' :: (inner ++ .ofChar '\x7d' :: (body ++ y))) = _ :=
      parse_many hindent (stops_cons (by decide))
    obtain ⟨blanks, rest, rfl, hblanks, -, hsecond⟩ := exists_parse_indentation hy body
    refine ⟨.node indent [], _, _, _, _, blanks, rest, ?_, parse_optional htree hlt, hsecond, hblanks,
      fun c hc ↦ hbody c (List.mem_append_right blanks hc), ?_⟩
    · simpa only [List.append_assoc, List.cons_append] using hfirst
    · rw [← htypeOf] at htype
      exact htype
  · obtain ⟨indent, body, hsplit, hindent, hstops, hfirst⟩ := exists_parse_indentation hy after
    have hnone : parse tagType (body ++ y) = none := by
      refine Option.eq_none_iff_forall_ne_some.2 fun result hresult ↦ ?_
      obtain ⟨inner, rest, rfl, hclose⟩ := exists_braces hy (fun c hc ↦ hafter c (by simp [hsplit, hc])) hresult
      exact hbraces ⟨inner, rest, indent, hsplit, hindent, hclose⟩
    have hsecond : parse indentation (body ++ y) = some (.node [] [], body ++ y) :=
      parse_many (x := []) (by simp) hstops
    refine ⟨_, _, _, _, _, indent, body, hfirst, parse_optional_of_none hnone, hsecond, hindent,
      fun c hc ↦ hafter c (by simp [hsplit, hc]), ?_⟩
    rw [← hsplit]
    exact .missing fun inner body h ↦ hbraces ⟨inner, body, h⟩

end Types

section Words

@[simp] theorem tagWith_title (title : Text) (type : Option Text) (body : Text) :
    (tagWith title type body).title = title := by
  rw [tagWith]
  split <;> rfl

@[simp] theorem tagWith_type (title : Text) (type : Option Text) (body : Text) :
    (tagWith title type body).type = type := by
  rw [tagWith]
  split <;> rfl

theorem kept_of_ne_nil {t : Text} (h : t ≠ []) : kept t = some t := by
  rw [kept, if_neg (by simpa using h)]

theorem cut_squeeze {t : Text} (h : squeeze t ≠ []) :
    ∃ name description, cut (squeeze t) ' ' = (name, description) ∧ .ofChar ' ' ∉ name ∧
      (description.map trim).bind kept = description ∧ join " " (name :: description.toList) = squeeze t ∧
      ∀ rest ∈ description, rest ≠ [] := by
  have hne : ∀ w ∈ t.words, w ≠ [] := fun w ↦ ne_nil_of_mem_words
  have hblank : ∀ w ∈ t.words, ∀ c ∈ w, ¬c.isBlank := fun w hw c ↦ not_isBlank_of_mem_words hw
  rw [squeeze] at h ⊢
  cases hwords : t.words with
  | nil => exact absurd (by rw [hwords]; rfl) h
  | cons name ws =>
    rw [hwords, List.forall_mem_cons] at hne hblank
    have hname : .ofChar ' ' ∉ name := fun hc ↦ hblank.1 _ hc (by decide)
    by_cases hws : ws = []
    · rw [hws, join_singleton]
      exact ⟨name, none, cut_of_not_mem hname, hname, rfl, join_singleton _ _, fun _ h ↦ by cases h⟩
    · have hrest : join " " ws ≠ [] := join_ne_nil hws hne.2
      refine ⟨name, some (join " " ws), cut_join hname hws, hname, ?_, ?_, ?_⟩
      · rw [Option.map_some, Option.bind_some, trim_join hne.2 hblank.2, kept_of_ne_nil hrest]
      · rw [join_cons _ _ hws]
        exact (join_cons _ _ (List.cons_ne_nil _ _)).trans (by rw [join_singleton])
      · rintro rest ⟨⟩
        exact hrest

theorem says_tagWith (title : Text) (type : Option Text) (t : Text) :
    Says (tagWith title type (squeeze t)) (squeeze t) := by
  by_cases hne : squeeze t = []
  · have htag : tagWith title type (squeeze t) = ⟨title, type, none, none⟩ := by
      simp [tagWith, kept, hne]
    rw [htag, hne]
    exact ⟨rfl, by simp, fun _ h ↦ (by cases h), fun _ h ↦ (by cases h)⟩
  · by_cases htitle : title ∈ namedTitles
    · obtain ⟨name, description, hcut, hname, hkept, hjoin, hdescription⟩ := cut_squeeze hne
      have htag : tagWith title type (squeeze t) = ⟨title, type, some name, description⟩ := by
        simp [tagWith, isAmong_iff.2 htitle, hne, hcut, hkept]
      rw [htag]
      exact ⟨hjoin, by simp [htitle, hne], fun _ h ↦ Option.some.inj h ▸ hname, hdescription⟩
    · have htag : tagWith title type (squeeze t) = ⟨title, type, none, some (squeeze t)⟩ := by
        simp [tagWith, isAmong_iff, htitle, kept_of_ne_nil hne]
      rw [htag]
      exact ⟨join_singleton _ _, by simp [htitle], fun _ h ↦ (by cases h), fun _ h ↦ Option.some.inj h ▸ hne⟩

end Words

section Tags

theorem parse_tagTitle {z : Text} (htitle : IsTitle title) (hz : Stops (isTitle ·) z) :
    parse tagTitle (title ++ z) = some (.node title [], z) := by
  obtain ⟨c, rest, rfl, hc, hrest⟩ := htitle
  have hpattern : Pattern.rest? [⟨(·.isLetter), .one⟩, ⟨isTitle, .many⟩] (c :: rest ++ z) = some z :=
    (Pattern.rest?_one hc _ _).trans (takeMany_append hrest hz rfl)
  rw [tagTitle, parse_pattern hpattern, consumed_left]

/-- The rest of the line of a tag is taken, and the lines after it up to the next tag line. -/
theorem exists_parse_tagBody {more : List Text} (hy : Ends y (more ++ next))
    (hjoin : join "\n" (body :: more ++ next) = body ++ y) (hbody : ∀ c ∈ body, isInner c)
    (hmore : ∀ l ∈ more, ¬IsTagLine l) (hnext : Stops (¬IsTagLine ·) next)
    (hinner : ∀ l ∈ more ++ next, ∀ c ∈ l, isInner c) :
    ∃ tree, parse tagBody (body ++ y) = some (tree, join "\n" next) ∧
      squeeze tree.text = squeeze (join "\n" (body :: more)) := by
  have hline : Pattern.rest? [⟨isInner, .many⟩, ⟨isBreak, .optional⟩] (body ++ y) =
      some (join "\n" (more ++ next)) := by
    refine takeMany_append hbody hy.stops_inner ?_
    rcases hy with ⟨rfl, hls⟩ | rfl
    · rw [hls]
      rfl
    · rfl
  obtain ⟨trees, htrees⟩ := exists_takes_textLine hmore hnext hinner
  obtain ⟨tree, htree⟩ : ∃ tree, parse tagBody (body ++ y) = some (tree, join "\n" next) :=
    ⟨_, parse_sequence (parseAll_cons (parse_pattern hline) (parseAll_cons htrees.parse_eq (parseAll_nil _)))⟩
  obtain ⟨gap, htext, hblank⟩ := exists_text_eq (hjoin.symm ▸ htree)
  exact ⟨tree, htree, by rw [htext, squeeze_append_of_blank hblank]⟩

/-- The lines of a block make a tag. -/
theorem exists_parse_tag (hline : IsTagLine b.line) (hmore : ∀ l ∈ b.more, ¬IsTagLine l)
    (hnext : Stops (¬IsTagLine ·) next) (hinner : ∀ l ∈ b.lines ++ next, ∀ c ∈ l, isInner c) :
    ∃ tree t, parse tag (join "\n" (b.lines ++ next)) = some (tree, join "\n" next) ∧ tagOf? tree = some t ∧
      Reads b t := by
  obtain ⟨line, more⟩ := b
  obtain ⟨indent, title, after, rfl, hindent, htitle, hstops⟩ := hline.exists_title
  obtain ⟨y, hy, hjoin⟩ := exists_ends (more ++ next)
  obtain ⟨hline, hlines⟩ := List.forall_mem_cons.1 hinner
  have htext : join "\n" (Block.lines ⟨indent ++ .ofChar '@' :: (title ++ after), more⟩ ++ next) =
      indent ++ .ofChar '@' :: (title ++ (after ++ y)) := by
    rw [Block.lines, List.cons_append, hjoin]
    simp only [List.append_assoc, List.cons_append]
  have hafter : ∀ d ∈ after, isInner d := fun d hd ↦ hline d (by simp [hd])
  have hindentation : parse indentation (indent ++ .ofChar '@' :: (title ++ (after ++ y))) = _ :=
    parse_many hindent (stops_cons (by decide))
  have hat : parse (.literal "@") (.ofChar '@' :: (title ++ (after ++ y))) = _ := parse_literal _ _
  have htitle_eq := parse_tagTitle htitle (stops_append hstops fun _ ↦ hy.stops (by decide))
  obtain ⟨first, type, second, u, v, blanks, body, hfirst, htype, hsecond, hblanks, hbody, htypeIn⟩ :=
    exists_parse_type hy hafter
  obtain ⟨tree, htree, hwords⟩ := exists_parse_tagBody hy (hjoin body) hbody hmore hnext hlines
  have hparse := parse_sequence (parseAll_cons hindentation (parseAll_cons hat (parseAll_cons htitle_eq
    (parseAll_cons hfirst (parseAll_cons htype (parseAll_cons hsecond (parseAll_cons htree (parseAll_nil _))))))))
  rw [htext]
  have hwords' : squeeze (join "\n" ((blanks ++ body) :: more)) = squeeze tree.text := by
    rw [join_append_cons, squeeze_blank_append fun d hd ↦ isBlank_of_isIndent (hblanks d hd), hwords]
  refine ⟨_, tagWith title (type.children.head?.map typeOf) (squeeze tree.text), hparse, rfl, indent, after,
    blanks ++ body, ?_, hindent, ?_, hstops, ?_, ?_⟩
  · rw [tagWith_title]
  · rwa [tagWith_title]
  · rwa [tagWith_type]
  · rw [hwords']
    exact says_tagWith _ _ _

theorem exists_takes_tag (hline : ∀ b ∈ blocks, IsTagLine b.line) (hmore : ∀ b ∈ blocks, ∀ l ∈ b.more, ¬IsTagLine l)
    (hinner : ∀ l ∈ blocks.flatMap Block.lines, ∀ c ∈ l, isInner c) :
    ∃ trees tags, Takes (parse tag) (join "\n" (blocks.flatMap Block.lines)) trees [] ∧
      trees.mapM tagOf? = some tags ∧ List.Forall₂ Reads blocks tags := by
  induction blocks with
  | nil => exact ⟨[], [], .stop fun h ↦ absurd rfl h, rfl, .nil⟩
  | cons b blocks ih =>
    rw [List.forall_mem_cons] at hline hmore
    rw [List.flatMap_cons] at hinner ⊢
    obtain ⟨tree, t, htree, htag, hreads⟩ := exists_parse_tag hline.1 hmore.1 (stops_flatMap_lines hline.2) hinner
    obtain ⟨trees, tags, htakes, htags, hread⟩ := ih hline.2 hmore.2 fun l hl ↦ hinner l (List.mem_append_right _ hl)
    have hne : b.line ≠ [] := by
      obtain ⟨indent, c, rest, hline, -⟩ := hline.1
      simp [hline]
    refine ⟨tree :: trees, t :: tags, .take htree (length_join_lt hne _ _) htakes, ?_, .cons hreads hread⟩
    rw [List.mapM_cons, htag, htags]
    rfl

end Tags

/-- Lines have the form of documentation, and what is read is what they segment into. -/
theorem exists_parseText {lines : List Text} (hinner : ∀ l ∈ lines, ∀ c ∈ l, isInner c) :
    ∃ tree docs, parseText documentation (join "\n" lines) = some tree ∧ ofTree? tree = some docs ∧
      Segments lines docs := by
  obtain ⟨before, blocks, hcut⟩ := exists_cut lines
  obtain rfl := hcut.lines_eq
  have hstops := stops_flatMap_lines hcut.tag_line
  obtain ⟨trees, htrees⟩ := exists_takes_textLine hcut.before_text hstops hinner
  obtain ⟨tagTrees, tags, htags, hmapM, hreads⟩ := exists_takes_tag hcut.tag_line hcut.more_text
    fun l hl ↦ hinner l (List.mem_append_right before hl)
  obtain ⟨description, hdescription⟩ : ∃ tree, parse (.repeated none textLine)
      (join "\n" (before ++ blocks.flatMap Block.lines)) = some (tree, join "\n" (blocks.flatMap Block.lines)) :=
    ⟨_, htrees.parse_eq⟩
  obtain ⟨gap, hgap, hblank⟩ := exists_text_eq hdescription
  have hparse := parse_sequence (parseAll_cons hdescription (parseAll_cons htags.parse_eq (parseAll_nil _)))
  refine ⟨_, ⟨description.text.trim, tags⟩, by rw [parseText, documentation, hparse], ?_, before, blocks, hcut, ?_,
    hreads⟩
  · change (tagTrees.mapM tagOf?).map _ = _
    rw [hmapM]
    rfl
  · change description.text.trim = _
    rw [hgap, trim_append_of_blank hblank]

theorem segments_ofComment (comment : Text) : Segments (unwrap comment).lines (ofComment comment) := by
  obtain ⟨tree, docs, hparse, hdocs, hsegments⟩ := exists_parseText fun (l : Text) (hl : l ∈ (unwrap comment).lines) ↦
    forall_isInner (newline_not_mem_of_mem_lines hl)
  rw [join_lines] at hparse
  have hread : ofComment comment = docs := by
    simp [ofComment, hparse, hdocs]
  rw [hread]
  exact hsegments

/-- Every comment has the form of documentation from its beginning to its end, and what is read from it is what its
lines segment into, which nothing else is. -/
theorem comment_segmented (comment : Text) :
    (∃ tree, parseText documentation (unwrap comment) = some tree ∧ tree.text = unwrap comment ∧
      ofTree? tree = some (ofComment comment)) ∧
    ∀ docs, Segments (unwrap comment).lines docs ↔ docs = ofComment comment := by
  have hinner : ∀ l ∈ (unwrap comment).lines, ∀ c ∈ l, isInner c :=
    fun l hl ↦ forall_isInner (newline_not_mem_of_mem_lines hl)
  obtain ⟨tree, docs, hparse, hdocs, hsegments⟩ := exists_parseText hinner
  rw [join_lines] at hparse
  have hread : ofComment comment = docs := by
    simp [ofComment, hparse, hdocs]
  rw [hread]
  refine ⟨⟨tree, hparse, text_of_parseText hparse, hdocs⟩, fun docs' ↦ ⟨fun h ↦ h.unique hsegments, ?_⟩⟩
  rintro rfl
  exact hsegments

end PolymerAnalysis.Documentation
