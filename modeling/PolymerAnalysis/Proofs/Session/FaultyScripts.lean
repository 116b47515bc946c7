import PolymerAnalysis.Proofs.Scan.ScriptOrder
import PolymerAnalysis.Proofs.Syntax.Places
import PolymerAnalysis.Session.Basic

namespace PolymerAnalysis

variable {env : Environment} {d : ParsedDocument} {features : List ScannedFeature} {s : InlineScript} {url : Text}
  {n : Node}

def InlineScript.document (s : InlineScript) (grammar : Grammar) (url : Text) : ParsedDocument where
  language := .script
  url := url
  contents := s.contents
  root := grammar .script s.contents
  offset := s.offset
  inline := true

def InlineScript.isFaulty (grammar : Grammar) (s : InlineScript) : Bool :=
  (grammar .script s.contents).preorder.any (·.isFault)

def Node.IsFirstFault (root n : Node) : Prop := IsFirst (·.isFault) root.preorder n

theorem InlineScript.exists_isFirstFault (h : s.isFaulty env.grammar) :
    ∃ n, (env.grammar .script s.contents).IsFirstFault n := exists_isFirst (List.any_eq_true.1 h)

theorem ParsedDocument.parseEncodable_faulty (h : (env.grammar .script s.contents).IsFirstFault n) :
    parseEncodable env.grammar .script url s.contents (some s.offset) =
      .error (.syntaxError ((s.document env.grammar url).syntaxWarning n)) := by
  simp only [parseEncodable, isFirst_iff.1 h]
  rfl

theorem ParsedDocument.parseEncodable_clean (h : s.isFaulty env.grammar = false) :
    parseEncodable env.grammar .script url s.contents (some s.offset) = .ok (s.document env.grammar url) := by
  have hnone : (env.grammar .script s.contents).preorder.find? (·.isFault) = none := by
    rw [List.find?_eq_none]
    simpa [InlineScript.isFaulty] using h
  simp only [parseEncodable, hnone]
  rfl

namespace ScannedFile

variable {file : ScannedFile}

def ScansTo (env : Environment) (url : Text) (s : InlineScript) (inline : Document) : Prop :=
  ∃ features, (s.document env.grammar url).scan (env.settings.scannersFor .script) = .ok features ∧
    inline = { url, features }

def WarnsOf (env : Environment) (url : Text) (s : InlineScript) (w : Warning) : Prop :=
  ∃ n, (env.grammar .script s.contents).IsFirstFault n ∧ w = (s.document env.grammar url).syntaxWarning n

def extend (file : ScannedFile) (warnings : List Warning) (inlines : List Document) : ScannedFile where
  document := { file.document with warnings := file.document.warnings ++ warnings }
  inlines := file.inlines ++ inlines

theorem addScript_faulty (file : ScannedFile) (htype : s.type = "js") (h : s.isFaulty env.grammar) :
    ∃ w, addScript env file s = .ok (file.extend [w] []) ∧ WarnsOf env file.document.url s w := by
  obtain ⟨n, hn⟩ := InlineScript.exists_isFirstFault h
  refine ⟨_, ?_, n, hn, rfl⟩
  rw [addScript, if_neg (not_not.2 htype), ParsedDocument.parseEncodable_faulty hn, extend, List.append_nil]

theorem addScript_clean (htype : s.type = "js") (h : s.isFaulty env.grammar = false) {inline : Document}
    (hinline : ScansTo env file.document.url s inline) : addScript env file s = .ok (file.extend [] [inline]) := by
  obtain ⟨features, hscan, rfl⟩ := hinline
  rw [addScript, if_neg (not_not.2 htype), ParsedDocument.parseEncodable_clean h, extend, List.append_nil]
  dsimp only
  rw [hscan]
  rfl

theorem extend_extend (file : ScannedFile) (ws ws' : List Warning) (is is' : List Document) :
    (file.extend ws is).extend ws' is' = file.extend (ws ++ ws') (is ++ is') := by
  simp only [extend, List.append_assoc]

/-- What one script after the other leaves in a file. -/
structure Leaves (env : Environment) (url : Text) (scripts : List InlineScript) (ws : List Warning)
    (is : List Document) : Prop where
  warnings : List.Forall₂ (WarnsOf env url) (scripts.filter (·.isFaulty env.grammar)) ws
  inlines : List.Forall₂ (ScansTo env url) (scripts.filter fun s ↦ !s.isFaulty env.grammar) is

namespace Leaves

variable {scripts : List InlineScript} {ws : List Warning} {is : List Document}

theorem faulty (h : Leaves env url scripts ws is) (hs : s.isFaulty env.grammar) {w : Warning}
    (hw : WarnsOf env url s w) : Leaves env url (s :: scripts) (w :: ws) is := by
  constructor
  · rw [List.filter_cons_of_pos hs]
    exact .cons hw h.warnings
  · rw [List.filter_cons_of_neg (by simpa using hs)]
    exact h.inlines

theorem clean (h : Leaves env url scripts ws is) (hs : s.isFaulty env.grammar = false) {inline : Document}
    (hinline : ScansTo env url s inline) : Leaves env url (s :: scripts) ws (inline :: is) := by
  constructor
  · rw [List.filter_cons_of_neg (by simpa using hs)]
    exact h.warnings
  · rw [List.filter_cons_of_pos (by simpa using hs)]
    exact .cons hinline h.inlines

end Leaves

theorem addScripts_leaves (file : ScannedFile) (htype : ∀ s ∈ scriptsOf features, s.type = "js")
    (hscan : ∀ s ∈ scriptsOf features, s.isFaulty env.grammar = false → ∃ inline,
      ScansTo env file.document.url s inline) :
    ∃ ws is, addScripts env file features = .ok (file.extend ws is) ∧
      Leaves env file.document.url (scriptsOf features) ws is := by
  induction features generalizing file with
  | nil =>
    refine ⟨[], [], ?_, .nil, .nil⟩
    simp only [addScripts, extend, List.append_nil]
  | cons x rest ih =>
    cases x with
    | script s =>
      have hcons : scriptsOf (.script s :: rest) = s :: scriptsOf rest := rfl
      rw [hcons] at htype hscan ⊢
      rw [List.forall_mem_cons] at htype hscan
      rw [addScripts]
      cases hfaulty : s.isFaulty env.grammar with
      | true =>
        obtain ⟨w, hw, hwarns⟩ := addScript_faulty file htype.1 hfaulty
        obtain ⟨ws, is, hrest, hleaves⟩ := ih (file.extend [w] []) htype.2 hscan.2
        refine ⟨w :: ws, is, ?_, hleaves.faulty hfaulty hwarns⟩
        rw [hw]
        exact hrest.trans (congrArg Except.ok (extend_extend file [w] ws [] is))
      | false =>
        obtain ⟨inline, hinline⟩ := hscan.1 hfaulty
        obtain ⟨ws, is, hrest, hleaves⟩ := ih (file.extend [] [inline]) htype.2 hscan.2
        refine ⟨ws, inline :: is, ?_, hleaves.clean hfaulty hinline⟩
        rw [addScript_clean htype.1 hfaulty hinline]
        exact hrest.trans (congrArg Except.ok (extend_extend file [] ws [inline] is))
    | space | declaration | link => exact ih file htype hscan

def withoutFaulty (grammar : Grammar) (features : List ScannedFeature) : List ScannedFeature :=
  features.filter fun x ↦ !x.script?.any (·.isFaulty grammar)

theorem scriptsOf_withoutFaulty (grammar : Grammar) (features : List ScannedFeature) :
    scriptsOf (withoutFaulty grammar features) = (scriptsOf features).filter fun s ↦ !s.isFaulty grammar := by
  rw [scriptsOf, withoutFaulty, List.filterMap_filter, scriptsOf, List.filter_filterMap]
  congr 1
  funext x
  cases x with
  | script s =>
    rw [ScannedFeature.script?, Option.filter_some, Option.any_some]
  | space | declaration | link => rfl

/-- A warning stands at the first fault of a script, at the place which that has in the file of the document. -/
def Reports (env : Environment) (d : ParsedDocument) (s : InlineScript) (w : Warning) : Prop :=
  ∃ n raw r, (env.grammar .script s.contents).IsFirstFault n ∧
    raw ∈ d.root.preorder ∧ raw.kind = "raw_text" ∧ Records d s raw ∧
    w = ⟨"parse-error", ParsedDocument.faultMessage n, .error, some r⟩ ∧
    (raw.LiesIn d.contents → n.LiesIn s.contents →
      r = ⟨d.file, d.positionAt (raw.start + n.start), d.positionAt (raw.start + n.stop)⟩ ∧ d.excerpt r = n.text)

theorem WarnsOf.reports {w : Warning} (h : WarnsOf env d.url s w) {raw : Node} (hraw : raw ∈ d.root.preorder)
    (hkind : raw.kind = "raw_text") (hrecords : Records d s raw) : Reports env d s w := by
  obtain ⟨n, hn, rfl⟩ := h
  exact ⟨n, raw, _, hn, hraw, hkind, hrecords, rfl, fun hlies ↦ hrecords.range hlies rfl rfl⟩

theorem language_of_mem_scannersFor {settings : Settings} {language : Language} :
    ∀ k ∈ settings.scannersFor language, k.language = language := fun _ hk ↦
  of_decide_eq_true (List.mem_filter.1 hk).2

theorem ofParsed_leaves (hmarkup : d.language = .markup) (hinline : env.settings.scanInlineScripts)
    (hscan : d.scan (env.settings.scannersFor .markup) = .ok features)
    (hscripts : ∀ s ∈ scriptsOf features, s.isFaulty env.grammar = false → ∃ inline, ScansTo env d.url s inline) :
    ∃ ws is, ofParsed env d = .ok { document := { url := d.url, features, warnings := ws }, inlines := is } ∧
      Leaves env d.url (scriptsOf features) ws is := by
  have htype : ∀ s ∈ scriptsOf features, s.type = "js" := fun s hs ↦
    (script_of_scan language_of_mem_scannersFor hscan hs).1
  obtain ⟨ws, is, hadd, hleaves⟩ :=
    addScripts_leaves { document := { url := d.url, features } } htype hscripts
  refine ⟨ws, is, ?_, hleaves⟩
  rw [ofParsed, hmarkup, hscan]
  exact (if_pos hinline).trans hadd

theorem ScansTo.unique {inline inline' : Document} (h : ScansTo env url s inline) (h' : ScansTo env url s inline') :
    inline = inline' := by
  obtain ⟨found, hfound, rfl⟩ := h
  obtain ⟨found', hfound', rfl⟩ := h'
  cases hfound.symm.trans hfound'
  rfl

theorem Leaves.of_withoutFaulty {scripts : List InlineScript} {ws ws' : List Warning} {is is' : List Document}
    (h : Leaves env url scripts ws is) (h' : Leaves env url (scripts.filter fun s ↦ !s.isFaulty env.grammar) ws' is') :
    ws' = [] ∧ is' = is := by
  constructor
  · have hnone : (scripts.filter fun s ↦ !s.isFaulty env.grammar).filter (·.isFaulty env.grammar) = [] := by
      rw [List.filter_filter, List.filter_eq_nil_iff]
      simp
    exact List.forall₂_nil_left_iff.1 (hnone ▸ h'.warnings)
  · have hsame := h'.inlines
    rw [List.filter_filter] at hsame
    simp only [Bool.and_self] at hsame
    exact List.right_unique_forall₂' (fun _ _ _ hinline hinline' ↦ hinline.unique hinline') hsame h.inlines

/-- A page has a document for each of its scripts that is grammatical, and a warning for each other one. Neither changes
what is found in the others: a page with the same features but for the faulty scripts has the same inline documents,
and no warning. -/
theorem faulty_scripts_apart (hmarkup : d.language = .markup) (hinline : env.settings.scanInlineScripts)
    (hscan : d.scan (env.settings.scannersFor .markup) = .ok features)
    (hscripts : ∀ s ∈ scriptsOf features, s.isFaulty env.grammar = false → ∃ inline, ScansTo env d.url s inline) :
    ∃ file, ofParsed env d = .ok file ∧ file.document.url = d.url ∧ file.document.features = features ∧
      List.Forall₂ (ScansTo env d.url) ((scriptsOf features).filter fun s ↦ !s.isFaulty env.grammar) file.inlines ∧
      List.Forall₂ (Reports env d) ((scriptsOf features).filter (·.isFaulty env.grammar)) file.document.warnings ∧
      (env.settings.scanners.Nodup → ∃ places, List.Sublist places (Walk.places [] d.root) ∧
        List.Forall₂ (HeldAt d) places (scriptsOf features)) ∧
      ∀ page : ParsedDocument, page.language = .markup → page.url = d.url →
        page.scan (env.settings.scannersFor .markup) = .ok (withoutFaulty env.grammar features) →
        ∃ rest, ofParsed env page = .ok rest ∧ rest.inlines = file.inlines ∧ rest.document.warnings = [] := by
  obtain ⟨ws, is, hfile, hleaves⟩ := ofParsed_leaves hmarkup hinline hscan hscripts
  refine ⟨_, hfile, rfl, rfl, hleaves.inlines, ?_, fun hnodup ↦ ?_, fun page hpage hurl hrest ↦ ?_⟩
  · have hraw : ∀ s ∈ (scriptsOf features).filter (·.isFaulty env.grammar),
        ∃ raw ∈ d.root.preorder, raw.kind = "raw_text" ∧ Records d s raw := fun s hs ↦
      (script_of_scan language_of_mem_scannersFor hscan (List.mem_filter.1 hs).1).2
    refine ((List.forall₂_and_left _ _).2 ⟨hraw, hleaves.warnings⟩).imp ?_
    rintro s w ⟨⟨raw, hmem, hkind, hrecords⟩, hw⟩
    exact hw.reports hmem hkind hrecords
  · exact scriptsOf_scan language_of_mem_scannersFor (hnodup.filter _) hscan
  · have hpageScripts : ∀ s ∈ scriptsOf (withoutFaulty env.grammar features), s.isFaulty env.grammar = false →
        ∃ inline, ScansTo env page.url s inline := by
      rw [scriptsOf_withoutFaulty, hurl]
      exact fun s hs ↦ hscripts s (List.mem_filter.1 hs).1
    obtain ⟨ws', is', hbare, hpageLeaves⟩ := ofParsed_leaves hpage hinline hrest hpageScripts
    rw [scriptsOf_withoutFaulty, hurl] at hpageLeaves
    obtain ⟨rfl, rfl⟩ := hleaves.of_withoutFaulty hpageLeaves
    exact ⟨_, hbare, rfl, rfl⟩

def scriptElement (start : Nat) (raw : Node) : Node :=
  .mk "script_element" none true false start (raw.stop + 9) ("<script>" ++ raw.text ++ "</script>") [
    .mk "start_tag" none true false start (start + 8) "<script>" [
      .mk "tag_name" none true false (start + 1) (start + 7) "script" []],
    raw,
    .mk "end_tag" none true false raw.stop (raw.stop + 9) "</script>" [
      .mk "tag_name" none true false (raw.stop + 2) (raw.stop + 8) "script" []]]

def brokenText : Node := .mk "raw_text" none true false 8 15 "var = ;" []

def callText : Node := .mk "raw_text" none true false 33 35 "f;" []

def brokenPage : ParsedDocument where
  language := .markup
  url := "a.html"
  contents := "<script>var = ;</script>\n<script>f;</script>"
  root := .mk "document" none true false 0 44 "<script>var = ;</script>\n<script>f;</script>" [
    scriptElement 0 brokenText,
    scriptElement 25 callText]
  offset := none
  inline := false

def brokenPart : Node :=
  .mk "ERROR" none true false 0 5 "var =" [
    .mk "var" none false false 0 3 "var" [], .mk "=" none false false 4 5 "=" []]

def brokenTree : Node :=
  .mk "program" none true false 0 7 "var = ;" [
    brokenPart,
    .mk "empty_statement" none true false 6 7 ";" [.mk ";" none false false 6 7 ";" []]]

def callTree : Node :=
  .mk "program" none true false 0 2 "f;" [
    .mk "expression_statement" none true false 0 2 "f;" [
      .mk "identifier" none true false 0 1 "f" [], .mk ";" none false false 1 2 ";" []]]

def brokenEnvironment : Environment where
  grammar := fun _ t ↦ if t = "var = ;" then brokenTree else callTree
  loader := Files.loader []
  settings := { followImports := true, scanInlineScripts := true, scanners := [.namespaces, .imports, .scripts]
                knownVersion := [], depthLimit := none }

theorem brokenPage_scripts : ∃ s t, brokenPage.scan (brokenEnvironment.settings.scannersFor .markup) =
    .ok [.script s, .script t] ∧ s.contents = "var = ;" ∧ t.contents = "f;" := ⟨_, _, rfl, rfl, rfl⟩

theorem isFaulty_of_var (h : s.contents = "var = ;") : s.isFaulty brokenEnvironment.grammar := by
  have htree : brokenEnvironment.grammar .script s.contents = brokenTree := by rw [h]; rfl
  rw [InlineScript.isFaulty, htree]
  decide

theorem scansTo_of_call (h : s.contents = "f;") :
    s.isFaulty brokenEnvironment.grammar = false ∧ ∃ inline, ScansTo brokenEnvironment brokenPage.url s inline := by
  have htree : brokenEnvironment.grammar .script s.contents = callTree := by rw [h]; rfl
  have hkinds : brokenEnvironment.settings.scannersFor .script = [.namespaces] := rfl
  constructor
  · rw [InlineScript.isFaulty, htree]
    decide
  · refine ⟨_, [], ?_, rfl⟩
    rw [hkinds, ParsedDocument.scan_ofHooks rfl, InlineScript.document, htree]
    rfl

theorem range_of_reports {w : Warning} (h : s.contents = "var = ;") (hw : Reports brokenEnvironment brokenPage s w) :
    w = ⟨"parse-error", "Unexpected token 'var'", .error, some ⟨"a.html", ⟨0, 8⟩, ⟨0, 13⟩⟩⟩ := by
  obtain ⟨n, raw, r, hn, hraw, hkind, hrecords, rfl, hplaced⟩ := hw
  have htree : brokenEnvironment.grammar .script s.contents = brokenTree := by rw [h]; rfl
  rw [htree] at hn
  cases Option.some.inj ((isFirst_iff.1 hn).symm.trans (rfl : _ = some brokenPart))
  have hraws : brokenPage.root.preorder.filter (·.kind = "raw_text") = [brokenText, callText] := rfl
  have htext : raw = brokenText := by
    have hmem : raw ∈ brokenPage.root.preorder.filter (·.kind = "raw_text") :=
      List.mem_filter.2 ⟨hraw, decide_eq_true hkind⟩
    rw [hraws] at hmem
    rcases List.mem_cons.1 hmem with heq | hmem
    · exact heq
    · have hcontents := hrecords.1.symm.trans h
      rw [List.mem_singleton.1 hmem] at hcontents
      exact absurd hcontents (by decide)
  have hlies : raw.LiesIn brokenPage.contents := by
    rw [htext]
    exact ⟨"<script>", "</script>\n<script>f;</script>", rfl, rfl, rfl⟩
  have hinside : brokenPart.LiesIn s.contents := by
    rw [h]
    exact ⟨[], " ;", rfl, rfl, rfl⟩
  rw [(hplaced hlies hinside).1, htext]
  rfl

theorem brokenPage_apart : ∃ file w inline, ofParsed brokenEnvironment brokenPage = .ok file ∧ file.inlines = [inline] ∧
    file.document.warnings = [w] ∧
      w = ⟨"parse-error", "Unexpected token 'var'", .error, some ⟨"a.html", ⟨0, 8⟩, ⟨0, 13⟩⟩⟩ := by
  obtain ⟨s, t, hscan, hs, ht⟩ := brokenPage_scripts
  have hfaulty := isFaulty_of_var hs
  obtain ⟨hclean, hscans⟩ := scansTo_of_call ht
  obtain ⟨file, hfile, -, -, hinlines, hwarnings, -⟩ := faulty_scripts_apart rfl rfl hscan fun u hu hu' ↦ by
    rcases List.mem_cons.1 hu with rfl | hu
    · cases hfaulty.symm.trans hu'
    · cases List.mem_singleton.1 hu
      exact hscans
  have hsplit : (scriptsOf [.script s, .script t]).filter (·.isFaulty brokenEnvironment.grammar) = [s] ∧
      (scriptsOf [.script s, .script t]).filter (fun u ↦ !u.isFaulty brokenEnvironment.grammar) = [t] := by
    have hscripts : scriptsOf [.script s, .script t] = [s, t] := rfl
    simp [hscripts, hfaulty, hclean]
  rw [hsplit.1] at hwarnings
  rw [hsplit.2] at hinlines
  obtain ⟨w, ws, hw, hnil, hwarning⟩ := List.forall₂_cons_left_iff.1 hwarnings
  obtain ⟨inline, is, -, hnil', hinline⟩ := List.forall₂_cons_left_iff.1 hinlines
  cases hnil
  cases hnil'
  exact ⟨file, w, inline, hfile, hinline, hwarning, range_of_reports hs hw⟩

end ScannedFile

end PolymerAnalysis
