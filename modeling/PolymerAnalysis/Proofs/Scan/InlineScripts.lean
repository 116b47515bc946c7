import PolymerAnalysis.Proofs.Scan.Hooks
import PolymerAnalysis.Proofs.Source.Coordinates

namespace PolymerAnalysis

/-- A byte offset between two code points, or at an end of the text. -/
def Text.IsBoundary (t : Text) (a : Nat) : Prop := ∃ before behind, t = before ++ behind ∧ before.byteSize = a

namespace Node

/-- The node covers its own text in `t`. -/
def LiesIn (n : Node) (t : Text) : Prop :=
  ∃ before behind, t = before ++ n.text ++ behind ∧ n.start = before.byteSize ∧
    n.stop = before.byteSize + n.text.byteSize

theorem self_mem_preorder (n : Node) : n ∈ n.preorder := by
  cases n
  rw [preorder]
  exact List.mem_cons_self

theorem mem_preorderAll {ns : List Node} {n m : Node} (hn : n ∈ ns) (hm : m ∈ n.preorder) : m ∈ preorderAll ns := by
  induction ns with
  | nil => cases hn
  | cons k ns ih =>
    rw [preorderAll, List.mem_append]
    rcases List.mem_cons.1 hn with rfl | hn
    · exact .inl hm
    · exact .inr (ih hn)

mutual

theorem child_mem_preorder {x n m : Node} (hn : n ∈ x.preorder) (hm : m ∈ n.children) : m ∈ x.preorder := by
  cases x with
  | mk kind field named missing start stop text children =>
    rw [preorder] at hn ⊢
    apply List.mem_cons_of_mem
    rcases List.mem_cons.1 hn with rfl | hn
    · exact mem_preorderAll hm (self_mem_preorder m)
    · exact child_mem_preorderAll hn hm

theorem child_mem_preorderAll {xs : List Node} {n m : Node} (hn : n ∈ preorderAll xs) (hm : m ∈ n.children) :
    m ∈ preorderAll xs := by
  cases xs with
  | nil => cases hn
  | cons x xs =>
    rw [preorderAll, List.mem_append] at hn ⊢
    rcases hn with hn | hn
    · exact .inl (child_mem_preorder hn hm)
    · exact .inr (child_mem_preorderAll hn hm)

end

end Node

namespace ParsedDocument

def file (d : ParsedDocument) : Text := (d.offset.bind (·.file)).getD d.url

def positionAt (d : ParsedDocument) (a : Nat) : Position := (d.contents.position (d.contents.point a)).shift d.offset

def origin (d : ParsedDocument) : Position := Position.shift ⟨0, 0⟩ d.offset

def excerpt (d : ParsedDocument) (r : SourceRange) : Text := Text.excerpt r.start r.stop d.origin d.contents

variable {d : ParsedDocument} {n : Node}

theorem range_eq (d : ParsedDocument) (n : Node) :
    d.range n = ⟨d.file, d.positionAt n.start, d.positionAt n.stop⟩ := rfl

theorem positionAt_byteSize {before behind : Text} (h : d.contents = before ++ behind) :
    d.positionAt before.byteSize = d.origin.after before := by
  rw [positionAt, h, Text.position_point, Position.shift_after le_rfl, origin]

theorem excerpt_piece {before t behind : Text} (h : d.contents = before ++ t ++ behind) (file : Text) :
    d.excerpt ⟨file, d.positionAt before.byteSize, d.positionAt (before.byteSize + t.byteSize)⟩ = t := by
  have hfirst : d.positionAt before.byteSize = d.origin.after before := by
    apply positionAt_byteSize
    rw [h, List.append_assoc]
  have hlast : d.positionAt (before.byteSize + t.byteSize) = d.origin.after (before ++ t) := by
    rw [← Text.byteSize_append]
    exact positionAt_byteSize h
  rw [excerpt, hfirst, hlast, h, Text.excerpt_middle]

/-- The range of a node covers its text. -/
theorem excerpt_range (h : n.LiesIn d.contents) : d.excerpt (d.range n) = n.text := by
  obtain ⟨before, behind, hcontents, hstart, hstop⟩ := h
  rw [range_eq, hstart, hstop]
  exact excerpt_piece hcontents d.file

end ParsedDocument

/-- What is recorded of the script whose text is `raw`: this text, and where it begins. -/
def Records (d : ParsedDocument) (s : InlineScript) (raw : Node) : Prop :=
  s.contents = raw.text ∧ s.offset = some ⟨(d.range raw).start.line, (d.range raw).start.column, some d.file⟩

open Scan.Markup

theorem onScript_adds {d : ParsedDocument} {c : Cursor} {f g : Findings} (h : onScript d.context c f = .ok g) :
    g = f ∨ ∃ raw s, c.node.namedChildren.find? (·.kind = "raw_text") = some raw ∧ Records d s raw ∧ s.type = "js" ∧
      g = f.add (.script s) := by
  simp only [onScript] at h
  split at h
  all_goals
    obtain ⟨as, -, h⟩ := exists_of_bind_eq_ok h
    split at h
    · cases h
      exact .inl rfl
    · split at h
      · cases h
        exact .inl rfl
      · rename_i raw hraw
        cases h
        exact .inr ⟨raw, _, hraw, ⟨rfl, rfl⟩, rfl, rfl⟩

def Sound (d : ParsedDocument) (f : Findings) : Prop :=
  ∀ s, .script s ∈ f.features → ∃ raw ∈ d.root.preorder, raw.kind = "raw_text" ∧ Records d s raw

theorem scriptVisitor_keeps (d : ParsedDocument) :
    (scriptVisitor d.context).Keeps 0 (Sound d) (· ∈ d.root.preorder) := by
  refine Visitor.keeps_ofHooks (fun x hx place f g hplace hf hg ↦ ?_) 0
  cases List.mem_singleton.1 hx
  rcases onScript_adds hg with rfl | ⟨raw, s, hraw, hrecords, -, rfl⟩
  · exact hf
  · intro s' hs'
    rcases List.mem_append.1 hs' with hs' | hs'
    · exact hf s' hs'
    · cases List.mem_singleton.1 hs'
      have hchild : raw ∈ place.node.children := List.mem_of_mem_filter (List.mem_of_find?_eq_some hraw)
      refine ⟨raw, Node.child_mem_preorder hplace hchild, ?_, hrecords⟩
      simpa using List.find?_some hraw

theorem scripts_recorded {d : ParsedDocument} {features : List ScannedFeature} (h : d.scan [.scripts] = .ok features)
    {s : InlineScript} (hs : .script s ∈ features) :
    ∃ raw ∈ d.root.preorder, raw.kind = "raw_text" ∧ Records d s raw := by
  have hstart : Sound d (scriptVisitor d.context).start := fun s hs ↦ by cases hs
  obtain ⟨f, hf, rfl⟩ := ParsedDocument.exists_findings (k := .scripts) (scriptVisitor_keeps d) hstart h
  exact hf s hs

section

variable {d inline : ParsedDocument} {s : InlineScript} {raw n : Node}

/-- Each position in a recorded script is that of the same place in the document. -/
theorem Records.position (h : Records d s raw) (hraw : raw.LiesIn d.contents) {a : Nat} (ha : s.contents.IsBoundary a) :
    (s.contents.position (s.contents.point a)).shift s.offset = d.positionAt (raw.start + a) := by
  obtain ⟨before, behind, hcontents, hstart, -⟩ := hraw
  obtain ⟨inner, rest, hinner, rfl⟩ := ha
  have hoffset : s.offset = some ⟨(d.positionAt raw.start).line, (d.positionAt raw.start).column, some d.file⟩ := h.2
  have hbegin : d.positionAt raw.start = d.origin.after before := by
    rw [hstart]
    apply ParsedDocument.positionAt_byteSize
    rw [hcontents, List.append_assoc]
  have hsplit : d.contents = (before ++ inner) ++ (rest ++ behind) := by
    rw [hcontents, ← h.1, hinner]
    simp only [List.append_assoc]
  have hplace : d.positionAt (raw.start + inner.byteSize) = d.origin.after (before ++ inner) := by
    rw [hstart, ← Text.byteSize_append]
    exact ParsedDocument.positionAt_byteSize hsplit
  calc (s.contents.position (s.contents.point inner.byteSize)).shift s.offset
    _ = (Position.after ⟨0, 0⟩ inner).shift s.offset := by rw [hinner, Text.position_point]
    _ = (d.positionAt raw.start).after inner := by rw [Position.shift_after le_rfl, hoffset, Position.shift_begin]
    _ = d.origin.after (before ++ inner) := by rw [hbegin, Position.after_append]
    _ = d.positionAt (raw.start + inner.byteSize) := hplace.symm

/-- Each node in a recorded script has its range in the document's file, and this covers the text of the node. -/
theorem Records.range (h : Records d s raw) (hraw : raw.LiesIn d.contents) (hcontents : inline.contents = s.contents)
    (hoffset : inline.offset = s.offset) (hn : n.LiesIn s.contents) :
    inline.range n = ⟨d.file, d.positionAt (raw.start + n.start), d.positionAt (raw.start + n.stop)⟩ ∧
      d.excerpt (inline.range n) = n.text := by
  obtain ⟨inner, rest, hinner, hstart, hstop⟩ := hn
  have hpositions : ∀ a, s.contents.IsBoundary a → inline.positionAt a = d.positionAt (raw.start + a) := by
    intro a ha
    rw [ParsedDocument.positionAt, hcontents, hoffset, h.position hraw ha]
  have hfile : inline.file = d.file := by
    rw [ParsedDocument.file, hoffset, h.2]
    rfl
  have hfirst : s.contents.IsBoundary n.start := by
    refine ⟨inner, n.text ++ rest, ?_, hstart.symm⟩
    rw [hinner, List.append_assoc]
  have hlast : s.contents.IsBoundary n.stop := by
    refine ⟨inner ++ n.text, rest, hinner, ?_⟩
    rw [hstop, Text.byteSize_append]
  have hrange : inline.range n = ⟨d.file, d.positionAt (raw.start + n.start), d.positionAt (raw.start + n.stop)⟩ := by
    rw [ParsedDocument.range_eq, hfile, hpositions n.start hfirst, hpositions n.stop hlast]
  refine ⟨hrange, ?_⟩
  obtain ⟨before, behind, houter, hbegin, -⟩ := hraw
  have hpiece : d.contents = (before ++ inner) ++ n.text ++ (rest ++ behind) := by
    rw [houter, ← h.1, hinner]
    simp only [List.append_assoc]
  have hcovered := ParsedDocument.excerpt_piece hpiece d.file
  rw [hrange, hbegin, hstart, hstop, ← Nat.add_assoc, ← Text.byteSize_append]
  exact hcovered

end

theorem ParsedDocument.of_parseEncodable {grammar : Grammar} {language : Language} {url contents : Text}
    {place : Option (Option Offset)} {parsed : ParsedDocument}
    (h : parseEncodable grammar language url contents place = .ok parsed) :
    parsed.contents = contents ∧ parsed.offset = place.join := by
  cases language with
  | markup =>
    cases h
    exact ⟨rfl, rfl⟩
  | script =>
    simp only [parseEncodable] at h
    split at h
    · cases h
    · cases h
      exact ⟨rfl, rfl⟩

/-- A script lies in its page as it stands there: what its offset moves is at the same characters of the page. -/
theorem scripts_placed (d : ParsedDocument) {features : List ScannedFeature} (hscan : d.scan [.scripts] = .ok features)
    {s : InlineScript} (hs : .script s ∈ features) :
    ∃ raw ∈ d.root.preorder, raw.kind = "raw_text" ∧ s.contents = raw.text ∧ (raw.LiesIn d.contents →
      (∀ a, s.contents.IsBoundary a →
        (s.contents.position (s.contents.point a)).shift s.offset = d.positionAt (raw.start + a)) ∧
      ∀ grammar url inline, ParsedDocument.parseEncodable grammar .script url s.contents (some s.offset) = .ok inline →
        ∀ n ∈ inline.root.preorder, n.LiesIn s.contents →
          inline.range n = ⟨d.file, d.positionAt (raw.start + n.start), d.positionAt (raw.start + n.stop)⟩ ∧
            d.excerpt (inline.range n) = n.text) := by
  obtain ⟨raw, hmem, hkind, hrecords⟩ := scripts_recorded hscan hs
  refine ⟨raw, hmem, hkind, hrecords.1, ?_⟩
  intro hraw
  refine ⟨fun a ha ↦ hrecords.position hraw ha, ?_⟩
  intro grammar url inline hinline n _ hn
  obtain ⟨hcontents, hoffset⟩ := ParsedDocument.of_parseEncodable hinline
  exact hrecords.range hraw hcontents hoffset (hcontents ▸ hn)

def greekText : Node := .mk "raw_text" none true false 18 24 "ü;\nλ" []

def greekPage : ParsedDocument where
  language := .markup
  url := "a.html"
  contents := "<p>é</p>\n<script>ü;\nλ</script>"
  root := .mk "document" none true false 0 33 "<p>é</p>\n<script>ü;\nλ</script>" [
    .mk "element" none true false 0 9 "<p>é</p>" [],
    .mk "script_element" none true false 10 33 "<script>ü;\nλ</script>" [
      .mk "start_tag" none true false 10 18 "<script>" [.mk "tag_name" none true false 11 17 "script" []],
      greekText,
      .mk "end_tag" none true false 24 33 "</script>" [.mk "tag_name" none true false 26 32 "script" []]]]
  offset := none
  inline := false

def greekName : Node := .mk "identifier" none true false 4 6 "λ" []

def greekScript : Node :=
  .mk "program" none true false 0 6 "ü;\nλ" [
    .mk "expression_statement" none true false 0 3 "ü;" [
      .mk "identifier" none true false 0 2 "ü" [], .mk ";" none false false 2 3 ";" []],
    .mk "expression_statement" none true false 4 6 "λ" [greekName]]

theorem greekPage_placed : ∃ s inline, greekPage.scan [.scripts] = .ok [.script s] ∧
    ParsedDocument.parseEncodable (fun _ _ ↦ greekScript) .script "a.html" s.contents (some s.offset) = .ok inline ∧
    inline.range greekName = ⟨"a.html", ⟨2, 0⟩, ⟨2, 1⟩⟩ ∧ greekPage.excerpt (inline.range greekName) = "λ" ∧
    (s.contents.position (s.contents.point 3)).shift s.offset = ⟨1, 10⟩ := by
  obtain ⟨s, hscan⟩ : ∃ s, greekPage.scan [.scripts] = .ok [.script s] := ⟨_, rfl⟩
  obtain ⟨raw, hmem, hkind, hcontents, hplaced⟩ := scripts_placed greekPage hscan (List.mem_singleton_self _)
  have hraw : raw = greekText := by
    simp only [greekPage, greekText, Node.preorder, Node.preorderAll, List.append_nil, List.cons_append,
      List.nil_append, List.mem_cons, List.not_mem_nil, or_false] at hmem
    rcases hmem with rfl | rfl | rfl | rfl | rfl | rfl | rfl | rfl
    all_goals first | rfl | exact absurd hkind (by decide)
  have hlies : greekText.LiesIn greekPage.contents := ⟨"<p>é</p>\n<script>", "</script>", rfl, rfl, rfl⟩
  subst hraw
  obtain ⟨hpositions, hranges⟩ := hplaced hlies
  obtain ⟨inline, hinline, hmember⟩ : ∃ inline, ParsedDocument.parseEncodable (fun _ _ ↦ greekScript) .script "a.html"
      s.contents (some s.offset) = .ok inline ∧ greekName ∈ inline.root.preorder :=
    ⟨_, rfl, by simp [greekScript, Node.preorder, Node.preorderAll, Node.self_mem_preorder]⟩
  have hname : greekName.LiesIn s.contents := by
    rw [hcontents]
    exact ⟨"ü;\n", [], rfl, rfl, rfl⟩
  have hfirst : s.contents.IsBoundary 3 := by
    rw [hcontents]
    exact ⟨"ü;", "\nλ", rfl, rfl⟩
  obtain ⟨hrange, hcovered⟩ := hranges _ _ inline hinline greekName hmember hname
  refine ⟨s, inline, hscan, hinline, ?_, hcovered, ?_⟩
  · rw [hrange]
    rfl
  · rw [hpositions 3 hfirst]
    rfl

end PolymerAnalysis
