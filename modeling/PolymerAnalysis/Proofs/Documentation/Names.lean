import PolymerAnalysis.Proofs.Documentation.Segmentation
import PolymerAnalysis.Proofs.Scan.Behaviors

namespace PolymerAnalysis

open Text

variable {t : Text} {title : Text} {type : Option Text} {tag : Tag}

namespace Documentation

variable {docs : Documentation} {b : Block} {own : Text} {target : Option Node}

/-- What stands on the line of a tag behind its title and its type. -/
def OnLine (line : Text) (tag : Tag) (own : Text) : Prop :=
  ∃ indent after : Text, line = indent ++ .ofChar '@' :: (tag.title ++ after) ∧ (∀ c ∈ indent, isIndent c) ∧
    IsTitle tag.title ∧ Stops (isTitle ·) after ∧ TypeIn after tag.type own

/-- The words of a tag: those on its line, and those on the lines behind it. -/
def wordsOf (own : Text) (b : Block) : List Text := own.words ++ b.more.flatMap words

theorem wordsOf_eq_nil_iff : wordsOf own b = [] ↔ own.words = [] ∧ ∀ l ∈ b.more, l.words = [] := by
  rw [wordsOf, List.append_eq_nil_iff, List.flatMap_eq_nil_iff]

theorem Says.name_eq_head? (h : Says tag (squeeze t)) (htitle : tag.title ∈ namedTitles) :
    tag.name = t.words.head? ∧ tag.description = kept (join " " t.words.tail) := by
  have hne : ∀ w ∈ t.words, w ≠ [] := fun w ↦ ne_nil_of_mem_words
  have hblank : ∀ w ∈ t.words, .ofChar ' ' ∉ w := fun w hw hc ↦ not_isBlank_of_mem_words hw hc (by decide)
  have hsome := h.isSome_name
  rw [squeeze] at h hsome
  cases hwords : t.words with
  | nil =>
    rw [hwords] at h hsome
    have hname : tag.name = none := by simpa [htitle, join] using hsome
    exact ⟨hname, h.description_eq hname⟩
  | cons w ws =>
    rw [hwords] at h hsome hne hblank
    rw [List.forall_mem_cons] at hblank
    obtain ⟨name, hname⟩ := Option.isSome_iff_exists.1 (hsome.2 ⟨htitle, join_ne_nil (List.cons_ne_nil w ws) hne⟩)
    have hcut := h.cut_eq hname
    by_cases hws : ws = []
    · rw [hws, join_singleton, cut_of_not_mem hblank.1] at hcut
      obtain ⟨rfl, hdescription⟩ := Prod.mk.inj hcut
      exact ⟨hname, by rw [← hdescription, hws]; rfl⟩
    · have hrest : join " " ws ≠ [] := join_ne_nil hws (List.forall_mem_cons.1 hne).2
      rw [cut_join hblank.1 hws] at hcut
      obtain ⟨rfl, hdescription⟩ := Prod.mk.inj hcut
      exact ⟨hname, by rw [← hdescription, List.tail_cons, kept_of_ne_nil hrest]⟩

/-- A name that stands on the line of the tag, where there is a name at all. -/
def IsOwn (own : Text) (tag : Tag) : Prop := tag.name = none ∨ tag.name = own.words.head?

theorem isOwn_iff (h : tag.name = (wordsOf own b).head?) :
    IsOwn own tag ↔ (own.words = [] → ∀ l ∈ b.more, l.words = []) := by
  rw [IsOwn, h, List.head?_eq_none_iff, wordsOf_eq_nil_iff, wordsOf]
  cases hown : own.words with
  | nil => simp [List.head?_eq_none_iff]
  | cons w ws => simp

end Documentation

namespace Scan

def declaredName (docs : Documentation) (target : Option Node) : Except Failure (Option Text) :=
  (lift (Node.identifierName? target)).map fun o ↦ o.map fun t ↦ Documentation.qualify t (some docs)

variable {docs : Documentation} {name : Option Text}

theorem Behaviors.name?_eq (h : (Documentation.first? (some docs) title).bind (·.name) = name)
    (hne : ∀ w ∈ name, w ≠ []) (target : Option Node) :
    Behaviors.name? docs title target =
      name.elim (declaredName docs target) fun w ↦ .ok (some (Documentation.qualify w (some docs))) := by
  rw [Behaviors.name?, h]
  cases name with
  | none =>
    rw [Option.elim_none, declaredName]
    cases lift (Node.identifierName? target) <;> rfl
  | some w =>
    rw [Option.filter_some, if_pos (by simpa using hne w rfl)]
    rfl

theorem Namespaces.name?_eq (h : (Documentation.first? (some docs) "namespace").bind (·.name) = name)
    (hne : ∀ w ∈ name, w ≠ []) (target : Node) :
    Namespaces.name? target docs = name.elim (declaredName docs (some target)) fun w ↦ .ok (some w) := by
  rw [Namespaces.name?, h]
  cases name with
  | none =>
    rw [Option.elim_none, declaredName, Node.identifierName?]
    cases lift target.identifierName <;> rfl
  | some w =>
    rw [Option.filter_some, if_pos (by simpa using hne w rfl)]
    rfl

end Scan

namespace Documentation

/-- A feature has the first word of its tag for a name, or else the name that its statement declares. -/
def Calls (docs : Documentation) (title : Text) (ws : List Text) : Prop :=
  (∀ target, Scan.Behaviors.name? docs title target =
    ws.head?.elim (Scan.declaredName docs target) fun w ↦ .ok (some (qualify w (some docs)))) ∧
  (title = "namespace" → ∀ target, Scan.Namespaces.name? target docs =
    ws.head?.elim (Scan.declaredName docs (some target)) fun w ↦ .ok (some w))

theorem calls_of_first? {docs : Documentation} {ws : List Text} (h : first? (some docs) title = some tag)
    (hname : tag.name = ws.head?) (hne : ∀ w ∈ ws, w ≠ []) : Calls docs title ws := by
  have hbind : (first? (some docs) title).bind (·.name) = ws.head? := by rw [h, Option.bind_some, hname]
  have hhead : ∀ w ∈ ws.head?, w ≠ [] := fun w hw ↦ hne w (List.mem_of_mem_head? hw)
  refine ⟨Scan.Behaviors.name?_eq hbind hhead, ?_⟩
  rintro rfl
  exact Scan.Namespaces.name?_eq hbind hhead

/-- The name of a tag is the first word behind its title and its type, and the description is made of the other words.
That word stands on the line of the tag, unless there is no word on it and one on a line behind it. A feature is called
so if the tag is the first with its title. -/
theorem named_by_first_word (comment : Text) : ∃ before blocks, Cut (unwrap comment).lines before blocks ∧
    List.Forall₂ (fun b tag ↦ ∃ own, OnLine b.line tag own ∧ (tag.title ∈ namedTitles →
      tag.name = (wordsOf own b).head? ∧ tag.description = kept (join " " (wordsOf own b).tail) ∧
      (IsOwn own tag ↔ (own.words = [] → ∀ l ∈ b.more, l.words = [])) ∧
      (first? (some (ofComment comment)) tag.title = some tag → Calls (ofComment comment) tag.title (wordsOf own b))))
      blocks (ofComment comment).tags := by
  obtain ⟨before, blocks, hcut, -, htags⟩ := segments_ofComment comment
  refine ⟨before, blocks, hcut, htags.imp ?_⟩
  rintro b tag ⟨indent, after, own, hline, hindent, htitle, hstops, htype, hsays⟩
  refine ⟨own, ⟨indent, after, hline, hindent, htitle, hstops, htype⟩, fun hnamed ↦ ?_⟩
  have hwords : words (join "\n" (own :: b.more)) = wordsOf own b := by
    rw [words_join_newline, List.flatMap_cons, wordsOf]
  obtain ⟨hname, hdescription⟩ := hsays.name_eq_head? hnamed
  rw [hwords] at hname hdescription
  have hne : ∀ w ∈ wordsOf own b, w ≠ [] := hwords ▸ fun w ↦ ne_nil_of_mem_words
  exact ⟨hname, hdescription, isOwn_iff hname, fun hfirst ↦ calls_of_first? hfirst hname hne⟩

def bareNamespace : Text := "/**\n * @namespace\n * Utility functions.\n */"

/-- The first word of the prose behind a bare tag is taken for its name. -/
theorem prose_taken_for_name :
    (unwrap bareNamespace).lines = ["@namespace", "Utility functions."] ∧
      ofComment bareNamespace = ⟨[], [⟨"namespace", none, some "Utility", some "functions."⟩]⟩ ∧
      ∃ x, (Scan.Behaviors.commentedObject bareNamespace).scan [.namespaces] = .ok [.space x] ∧ x.name = "Utility" := by
  have hdocs : ofComment bareNamespace = ⟨[], [⟨"namespace", none, some "Utility", some "functions."⟩]⟩ := by
    decide +kernel
  refine ⟨by decide +kernel, hdocs, ?_⟩
  have hdeclared := Scan.Behaviors.commentedObject_bound bareNamespace rfl
  generalize Scan.Behaviors.commentedObject bareNamespace = d at hdeclared ⊢
  obtain ⟨b, hall, hcomment, -, hname⟩ := hdeclared
  obtain ⟨target, htarget⟩ : ∃ target, b.name = some target := by
    cases hnone : b.name with
    | none =>
      rw [hnone] at hname
      cases hname
    | some target => exact ⟨target, rfl⟩
  have hcalled : Scan.Namespaces.name? target (ofComment bareNamespace) = .ok (some "Utility") := by
    rw [hdocs]
    rfl
  have hhas : has (some (ofComment bareNamespace)) "namespace" := by
    rw [hdocs]
    rfl
  have hhooks : ScannerKind.namespaces.visitor d.context = .ofHooks (Binding.hooks (Scan.Namespaces.look d.context)) :=
    rfl
  have hlook : ∃ x, Scan.Namespaces.look d.context b {} = .ok { features := [.space x] } ∧ x.name = "Utility" := by
    simp only [Scan.Namespaces.look, Scan.docsOf, hcomment, htarget, Option.map_some, hhas, hcalled, bind, Except.bind]
    exact ⟨_, rfl, rfl⟩
  obtain ⟨x, hx, hxname⟩ := hlook
  refine ⟨x, ?_, hxname⟩
  rw [ParsedDocument.scan_ofHooks hhooks, Binding.foldlM_hooks, hall, List.foldlM_cons, hx]
  rfl

end Documentation

end PolymerAnalysis
