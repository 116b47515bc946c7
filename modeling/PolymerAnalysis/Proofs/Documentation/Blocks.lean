import PolymerAnalysis.Documentation.Reader
import PolymerAnalysis.Proofs.Text.Lines
import Mathlib.Data.List.Forall2

namespace PolymerAnalysis.Documentation

open Text

def IsTagLine (line : Text) : Prop :=
  ∃ (indent : Text) (c : CodePoint) (rest : Text),
    line = indent ++ .ofChar '@' :: c :: rest ∧ (∀ d ∈ indent, isIndent d) ∧ c.isLetter

theorem isTagLine_iff {line : Text} : IsTagLine line ↔
    ∃ c ∈ ((line.dropWhile isIndent).drop 1).head?, (line.dropWhile isIndent).head? = some (.ofChar '@') ∧ c.isLetter := by
  constructor
  · rintro ⟨indent, c, rest, rfl, hindent, hc⟩
    rw [List.dropWhile_append_of_pos hindent, List.dropWhile_cons_of_neg (by decide)]
    exact ⟨c, rfl, rfl, hc⟩
  · rintro ⟨c, hsecond, hfirst, hc⟩
    obtain ⟨rest, hrest⟩ := List.head?_eq_some_iff.1 hfirst
    rw [hrest] at hsecond
    obtain ⟨rest', rfl⟩ := List.head?_eq_some_iff.1 (Option.mem_def.1 hsecond)
    refine ⟨line.takeWhile isIndent, c, rest', ?_, fun _ ↦ List.mem_takeWhile_imp, hc⟩
    rw [← hrest, List.takeWhile_append_dropWhile]

instance : DecidablePred IsTagLine := fun _ ↦ decidable_of_iff _ isTagLine_iff.symm

/-- A tag line and the lines between it and the next one. -/
structure Block where
  line : Text
  more : List Text

def Block.lines (b : Block) : List Text := b.line :: b.more

/-- Every line stands either before the first block or in one of the blocks. -/
structure Cut (lines before : List Text) (blocks : List Block) : Prop where
  lines_eq : lines = before ++ blocks.flatMap Block.lines
  before_text : ∀ line ∈ before, ¬IsTagLine line
  tag_line : ∀ b ∈ blocks, IsTagLine b.line
  more_text : ∀ b ∈ blocks, ∀ line ∈ b.more, ¬IsTagLine line

def IsTitle (title : Text) : Prop :=
  ∃ (c : CodePoint) (rest : Text), title = c :: rest ∧ c.isLetter ∧ ∀ d ∈ rest, isTitle d

instance : DecidablePred IsTitle
  | [] => isFalse fun ⟨_, _, h, _⟩ ↦ by cases h
  | c :: rest => decidable_of_iff (c.isLetter ∧ ∀ d ∈ rest, isTitle d)
      ⟨fun ⟨hc, hrest⟩ ↦ ⟨c, rest, rfl, hc, hrest⟩, fun ⟨_, _, h, hc, hrest⟩ ↦ by cases h; exact ⟨hc, hrest⟩⟩

def Braces (after inner body : Text) : Prop :=
  ∃ indent : Text, after = indent ++ .ofChar '\x7b' :: (inner ++ .ofChar '\x7d' :: body) ∧
    (∀ c ∈ indent, isIndent c) ∧ .ofChar '\x7d' ∉ inner

/-- The type behind a title, and what is left of the line. -/
inductive TypeIn (after : Text) : Option Text → Text → Prop
  | braces {inner body : Text} : Braces after inner body → TypeIn after (some inner.trim) body
  | missing : (∀ inner body, ¬Braces after inner body) → TypeIn after none after

structure Says (tag : Tag) (words : Text) : Prop where
  words_eq : join " " (tag.name.toList ++ tag.description.toList) = words
  isSome_name : tag.name.isSome ↔ tag.title ∈ namedTitles ∧ words ≠ []
  name_word : ∀ name ∈ tag.name, .ofChar ' ' ∉ name
  description_ne_nil : ∀ description ∈ tag.description, description ≠ []

def Reads (b : Block) (tag : Tag) : Prop :=
  ∃ indent after body : Text, b.line = indent ++ .ofChar '@' :: (tag.title ++ after) ∧ (∀ c ∈ indent, isIndent c) ∧
    IsTitle tag.title ∧ Stops (isTitle ·) after ∧ TypeIn after tag.type body ∧
    Says tag (squeeze (join "\n" (body :: b.more)))

/-- The documentation in some lines. -/
def Segments (lines : List Text) (docs : Documentation) : Prop :=
  ∃ before blocks, Cut lines before blocks ∧ docs.description = trim (join "\n" before) ∧
    List.Forall₂ Reads blocks docs.tags

variable {lines before before' : List Text} {blocks blocks' : List Block} {b : Block} {tag tag' : Tag}
  {after inner inner' body body' words : Text} {type type' : Option Text} {docs docs' : Documentation}

theorem stops_flatMap_lines (h : ∀ b ∈ blocks, IsTagLine b.line) :
    Stops (¬IsTagLine ·) (blocks.flatMap Block.lines) := by
  cases blocks with
  | nil => exact stops_nil _
  | cons b blocks => exact stops_cons (not_not_intro (h b List.mem_cons_self))

theorem eq_of_flatMap_lines (h : ∀ b ∈ blocks, IsTagLine b.line)
    (hmore : ∀ b ∈ blocks, ∀ line ∈ b.more, ¬IsTagLine line) (h' : ∀ b ∈ blocks', IsTagLine b.line)
    (hmore' : ∀ b ∈ blocks', ∀ line ∈ b.more, ¬IsTagLine line)
    (heq : blocks.flatMap Block.lines = blocks'.flatMap Block.lines) : blocks = blocks' := by
  induction blocks generalizing blocks' with
  | nil =>
    cases blocks' with
    | nil => rfl
    | cons b' blocks' => cases heq
  | cons b blocks ih =>
    cases blocks' with
    | nil => cases heq
    | cons b' blocks' =>
      rw [List.forall_mem_cons] at h hmore h' hmore'
      obtain ⟨hline, htail⟩ := List.cons.inj heq
      obtain ⟨hmore_eq, hblocks⟩ := eq_of_append_eq hmore.1 (stops_flatMap_lines h.2) hmore'.1
        (stops_flatMap_lines h'.2) htail
      obtain ⟨line, more⟩ := b
      obtain ⟨line', more'⟩ := b'
      cases hline
      cases hmore_eq
      rw [ih h.2 hmore.2 h'.2 hmore'.2 hblocks]

theorem Cut.unique (h : Cut lines before blocks) (h' : Cut lines before' blocks') :
    before = before' ∧ blocks = blocks' := by
  obtain ⟨hbefore, hblocks⟩ := eq_of_append_eq h.before_text (stops_flatMap_lines h.tag_line) h'.before_text
    (stops_flatMap_lines h'.tag_line) (h.lines_eq.symm.trans h'.lines_eq)
  exact ⟨hbefore, eq_of_flatMap_lines h.tag_line h.more_text h'.tag_line h'.more_text hblocks⟩

theorem exists_cut (lines : List Text) : ∃ before blocks, Cut lines before blocks := by
  induction lines with
  | nil =>
    exact ⟨[], [], rfl, by simp, by simp, by simp⟩
  | cons line lines ih =>
    obtain ⟨before, blocks, h⟩ := ih
    by_cases hline : IsTagLine line
    · refine ⟨[], ⟨line, before⟩ :: blocks, ?_, by simp, ?_, ?_⟩
      · rw [h.lines_eq]
        rfl
      · exact List.forall_mem_cons.2 ⟨hline, h.tag_line⟩
      · exact List.forall_mem_cons.2 ⟨h.before_text, h.more_text⟩
    · exact ⟨line :: before, blocks, by rw [h.lines_eq]; rfl, List.forall_mem_cons.2 ⟨hline, h.before_text⟩,
        h.tag_line, h.more_text⟩

theorem isTitle_of_isLetter {c : CodePoint} (h : c.isLetter) : isTitle c := by
  have hlt : c.val < 0x80 := by
    simp only [CodePoint.isLetter, CodePoint.isUpper, CodePoint.isLower, Bool.or_eq_true, Bool.and_eq_true,
      decide_eq_true_eq] at h
    omega
  simp [isTitle, CodePoint.isWord, hlt, h]

/-- The title of a tag line goes as far as it can. -/
theorem IsTagLine.exists_title {line : Text} (h : IsTagLine line) :
    ∃ indent title after : Text, line = indent ++ .ofChar '@' :: (title ++ after) ∧ (∀ c ∈ indent, isIndent c) ∧
      IsTitle title ∧ Stops (isTitle ·) after := by
  obtain ⟨indent, c, rest, rfl, hindent, hc⟩ := h
  refine ⟨indent, c :: rest.takeWhile isTitle, rest.dropWhile isTitle, by simp, hindent, ?_,
    stops_dropWhile isTitle rest⟩
  exact ⟨c, _, rfl, hc, fun _ ↦ List.mem_takeWhile_imp⟩

theorem IsTitle.isTitle_of_mem {title : Text} (h : IsTitle title) : ∀ c ∈ title, isTitle c := by
  obtain ⟨c, rest, rfl, hc, hrest⟩ := h
  exact List.forall_mem_cons.2 ⟨isTitle_of_isLetter hc, hrest⟩

theorem eq_of_indent {indent indent' rest rest' : Text} {c : CodePoint} (hindent : ∀ d ∈ indent, isIndent d)
    (hindent' : ∀ d ∈ indent', isIndent d) (hc : ¬isIndent c) (h : indent ++ c :: rest = indent' ++ c :: rest') :
    rest = rest' := by
  have hstops : ∀ rest, Stops (isIndent ·) (c :: rest) := fun _ ↦ stops_cons hc
  exact (List.cons.inj (eq_of_append_eq hindent (hstops rest) hindent' (hstops rest') h).2).2

theorem Braces.unique (h : Braces after inner body) (h' : Braces after inner' body') :
    inner = inner' ∧ body = body' := by
  obtain ⟨indent, rfl, hindent, hinner⟩ := h
  obtain ⟨indent', heq, hindent', hinner'⟩ := h'
  have hrest := eq_of_indent hindent hindent' (by decide) heq
  have hstops : ∀ body, Stops (· ≠ CodePoint.ofChar '\x7d') (.ofChar '\x7d' :: body) :=
    fun _ ↦ stops_cons (not_not_intro rfl)
  obtain ⟨hinner_eq, hbody⟩ := eq_of_append_eq (List.forall_mem_ne'.2 hinner) (hstops body)
    (List.forall_mem_ne'.2 hinner') (hstops body') hrest
  exact ⟨hinner_eq, (List.cons.inj hbody).2⟩

theorem TypeIn.unique (h : TypeIn after type body) (h' : TypeIn after type' body') : type = type' ∧ body = body' := by
  cases h with
  | braces h =>
    cases h' with
    | braces h' =>
      obtain ⟨rfl, rfl⟩ := h.unique h'
      exact ⟨rfl, rfl⟩
    | missing h' => exact absurd h (h' _ _)
  | missing h =>
    cases h' with
    | braces h' => exact absurd h' (h _ _)
    | missing => exact ⟨rfl, rfl⟩

/-- The name of a tag is its first word, and the description is what follows. -/
theorem Says.cut_eq {name : Text} (h : Says tag words) (hname : tag.name = some name) :
    cut words ' ' = (name, tag.description) := by
  have hword := h.name_word name hname
  rw [← h.words_eq, hname]
  cases tag.description with
  | none => exact (congrArg (cut · ' ') (join_singleton " " name)).trans (cut_of_not_mem hword)
  | some description => exact (cut_join hword (List.cons_ne_nil _ _)).trans (by rw [join_singleton])

theorem Says.description_eq (h : Says tag words) (hname : tag.name = none) : tag.description = kept words := by
  rw [← h.words_eq, hname]
  cases hdescription : tag.description with
  | none => rfl
  | some description =>
    have hjoin : join " " ((none : Option Text).toList ++ (some description).toList) = description :=
      join_singleton " " description
    rw [hjoin, kept, if_neg (by simpa using h.description_ne_nil description hdescription)]

theorem Says.unique (h : Says tag words) (h' : Says tag' words) (htitle : tag.title = tag'.title) :
    tag.name = tag'.name ∧ tag.description = tag'.description := by
  have hsome : tag.name.isSome ↔ tag'.name.isSome := by
    rw [h.isSome_name, h'.isSome_name, htitle]
  cases hname : tag.name with
  | none =>
    have hname' : tag'.name = none := by simpa [hname] using hsome
    exact ⟨hname'.symm, (h.description_eq hname).trans (h'.description_eq hname').symm⟩
  | some name =>
    obtain ⟨name', hname'⟩ : ∃ name', tag'.name = some name' := by
      simpa [hname, Option.isSome_iff_exists] using hsome
    obtain ⟨rfl, hdescription⟩ := Prod.mk.inj ((h.cut_eq hname).symm.trans (h'.cut_eq hname'))
    exact ⟨hname'.symm, hdescription⟩

theorem Reads.unique (h : Reads b tag) (h' : Reads b tag') : tag = tag' := by
  obtain ⟨indent, after, body, hline, hindent, htitle, hstops, htype, hsays⟩ := h
  obtain ⟨indent', after', body', hline', hindent', htitle', hstops', htype', hsays'⟩ := h'
  have hrest := eq_of_indent hindent hindent' (by decide) (hline.symm.trans hline')
  obtain ⟨htitle_eq, rfl⟩ := eq_of_append_eq htitle.isTitle_of_mem hstops htitle'.isTitle_of_mem hstops' hrest
  obtain ⟨htype_eq, rfl⟩ := htype.unique htype'
  obtain ⟨hname, hdescription⟩ := hsays.unique hsays' htitle_eq
  obtain ⟨title, type, name, description⟩ := tag
  obtain ⟨title', type', name', description'⟩ := tag'
  cases htitle_eq
  cases htype_eq
  cases hname
  cases hdescription
  rfl

theorem Segments.unique (h : Segments lines docs) (h' : Segments lines docs') : docs = docs' := by
  obtain ⟨before, blocks, hcut, hdescription, htags⟩ := h
  obtain ⟨before', blocks', hcut', hdescription', htags'⟩ := h'
  obtain ⟨rfl, rfl⟩ := hcut.unique hcut'
  have hunique : Relator.RightUnique Reads := fun b tag tag' ↦ Reads.unique
  obtain ⟨description, tags⟩ := docs
  obtain ⟨description', tags'⟩ := docs'
  cases hdescription.trans hdescription'.symm
  cases hunique.forall₂ htags htags'
  rfl

end PolymerAnalysis.Documentation
