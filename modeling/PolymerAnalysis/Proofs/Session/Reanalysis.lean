import PolymerAnalysis.Proofs.Session.Correspondence
import PolymerAnalysis.Proofs.Session.Pages

namespace PolymerAnalysis

namespace ScannedFile

variable {env env' : Environment}

theorem addScripts_congr (hgrammar : env'.grammar = env.grammar) (hsettings : env'.settings = env.settings)
    (file : ScannedFile) (features : List ScannedFeature) :
    addScripts env' file features = addScripts env file features := by
  induction features generalizing file with
  | nil => rfl
  | cons feature rest ih =>
    cases feature with
    | script s =>
      have hscript : addScript env' file s = addScript env file s := by
        rw [addScript, addScript, hgrammar, hsettings]
      rw [addScripts, addScripts, hscript]
      exact bind_congr fun file ↦ ih file
    | space n => exact ih file
    | declaration d => exact ih file
    | link l => exact ih file

end ScannedFile

namespace Environment

variable {env env' : Environment} {u : Text}

theorem scanFile_congr (hgrammar : env'.grammar = env.grammar) (hsettings : env'.settings = env.settings)
    (hload : env'.loader.load u = env.loader.load u) : env'.scanFile u = env.scanFile u := by
  have hparsed (parsed : ParsedDocument) : ScannedFile.ofParsed env' parsed = ScannedFile.ofParsed env parsed := by
    simp only [ScannedFile.ofParsed, hsettings, ScannedFile.addScripts_congr hgrammar hsettings]
  rw [scanFile, scanFile, hload, hgrammar]
  simp only [hparsed]

end Environment

theorem Files.load_congr {files files' : Files} {u : Text} (h : files'.lookup u = files.lookup u) :
    files'.loader.load u = files.loader.load u := by
  simp only [Files.loader, h]

theorem Files.canLoad_congr {files files' : Files} {u : Text} (h : files'.lookup u = files.lookup u) :
    files'.loader.canLoad u = files.loader.canLoad u := by
  simp only [Files.loader, Keyed.any_eq_isSome_lookup, h]

/-- Files in memory that are analyzed from time to time. It is known which files there were at the last analysis,
and what was reported since then. -/
structure Workspace where
  grammar : Grammar
  settings : Settings
  files : Files
  session : Session := {}
  analyzed : Files := files
  reported : List Text := []

namespace Workspace

def environment (w : Workspace) : Environment := ⟨w.grammar, w.files.loader, w.settings⟩

def edit (w : Workspace) (files : Files) : Workspace := { w with files }

def report (w : Workspace) (urls : List Text) : Workspace :=
  { w with session := (w.session.filesChanged urls).2, reported := urls ++ w.reported }

def analyze (w : Workspace) (urls : List Text) : Workspace :=
  { w with session := (Session.analyze w.environment urls w.session).2, analyzed := w.files, reported := [] }

/-- What has to hold when some files are analyzed: every file that is not what it was is reported, every import
that can be reached is good, and the limit is above the number of files. -/
structure Admits (w : Workspace) (urls : List Text) : Prop where
  reported : ∀ u, w.files.lookup u ≠ w.analyzed.lookup u → u ∈ w.reported
  sound : ∀ u ∈ urls, w.environment.Sound u
  roomy : w.environment.Roomy

/-- A workspace after any edits, reports and analyses, as long as what has to hold for an analysis did. -/
inductive Reached : Workspace → Prop
  | start (grammar : Grammar) (settings : Settings) (files : Files) : Reached { grammar, settings, files }
  | edit {w : Workspace} (files : Files) : Reached w → Reached (w.edit files)
  | report {w : Workspace} (urls : List Text) : Reached w → Reached (w.report urls)
  | analyze {w : Workspace} {urls : List Text} : Reached w → w.Admits urls → Reached (w.analyze urls)

structure Kept (w : Workspace) : Prop where
  upToDate : Session.UpToDate ⟨w.grammar, w.analyzed.loader, w.settings⟩ w.session
  forgotten : ∀ u ∈ w.reported, w.session.cached? u = none

variable {w : Workspace} {urls : List Text}

theorem regular_environment (w : Workspace) : w.environment.Regular := Environment.regular_of_files rfl

theorem Kept.now (h : w.Kept) (hreported : ∀ u, w.files.lookup u ≠ w.analyzed.lookup u → u ∈ w.reported) :
    Session.UpToDate w.environment w.session := by
  have hsame {u : Text} {i : DocId} (hu : w.session.cached? u = some i) :
      w.files.lookup u = w.analyzed.lookup u := by
    -- an edited file is reported, and what was reported is not in the cache
    by_contra hedited
    rw [h.forgotten u (hreported u hedited)] at hu
    cases hu
  exact h.upToDate.congr rfl (fun hu ↦ Environment.scanFile_congr rfl rfl (Files.load_congr (hsame hu)))
    fun hu ↦ Files.canLoad_congr (hsame hu)

theorem Kept.report (h : w.Kept) (urls : List Text) : (w.report urls).Kept where
  upToDate := h.upToDate.filesChanged urls
  forgotten u hu := by
    rw [Workspace.report, Session.cached?_filesChanged]
    split
    · rfl
    · next hkept =>
      rcases List.mem_append.1 hu with hu | hu
      · exact absurd ((Session.isLeast_dependents w.session urls).1.1 u hu) hkept
      · exact h.forgotten u hu

theorem Kept.analyze (h : w.Kept) (hadmits : w.Admits urls) : (w.analyze urls).Kept where
  upToDate :=
    ((h.now hadmits.reported).analyze w.regular_environment hadmits.roomy hadmits.sound).1
  forgotten u hu := by cases hu

theorem Reached.kept (h : w.Reached) : w.Kept := by
  induction h with
  | start grammar settings files => exact ⟨Session.upToDate_empty _, fun u hu ↦ by cases hu⟩
  | edit files _ ih => exact ⟨ih.upToDate, ih.forgotten⟩
  | report urls _ ih => exact ih.report urls
  | analyze _ hadmits ih => exact ih.analyze hadmits

/-- An analysis that goes on from earlier ones gives what a new one gives: the same failure, that of a file asked
for, or documents that are the same down to their numbers, with all that they lead to. -/
theorem reanalysis_isomorphic (h : w.Reached) (hadmits : w.Admits urls) :
    (∃ u ∈ urls, ∃ e, w.environment.scanFile u = .error e ∧
      (Session.analyze w.environment urls w.session).1 = .error e ∧
      (Session.analyze w.environment urls {}).1 = .error e) ∨
    ∃ is js f, (Session.analyze w.environment urls w.session).1 = .ok is ∧
      (Session.analyze w.environment urls {}).1 = .ok js ∧
      Graph.Isomorphism (Session.analyze w.environment urls w.session).2.graph
        (Session.analyze w.environment urls {}).2.graph is js f := by
  obtain ⟨hs, hresult⟩ :=
    (h.kept.now hadmits.reported).analyze w.regular_environment hadmits.roomy hadmits.sound
  obtain ⟨ht, hresult'⟩ :=
    (Session.upToDate_empty w.environment).analyze w.regular_environment hadmits.roomy hadmits.sound
  cases hfailure : w.environment.failure? urls with
  | some e =>
    rw [hfailure] at hresult hresult'
    obtain ⟨u, hu, hscan⟩ := List.exists_of_findSome?_eq_some hfailure
    refine .inl ⟨u, hu, e, ?_, hresult, hresult'⟩
    split at hscan
    · cases hscan
    · next e' he' =>
      cases hscan
      exact he'
  | none =>
    rw [hfailure] at hresult hresult'
    obtain ⟨is, his, hcached⟩ := hresult
    obtain ⟨js, hjs, hcached'⟩ := hresult'
    obtain ⟨f, hf⟩ := (hs.matching ht).exists_isomorphism (Session.forall₂_corresponds hs ht hcached hcached')
    exact .inr ⟨is, js, f, his, hjs, hf⟩

def twoPages : List Page := [⟨"a.html", some "b.html"⟩, ⟨"b.html", some "a.html"⟩, ⟨"b.html", none⟩]

def cycle : Workspace :=
  let files := Page.files [⟨"a.html", some "b.html"⟩, ⟨"b.html", some "a.html"⟩]
  { grammar := Page.grammar twoPages, settings := Page.settings 3, files }

def editedCycle : Workspace :=
  ((cycle.analyze ["a.html"]).edit (Page.files [⟨"a.html", some "b.html"⟩, ⟨"b.html", none⟩])).report ["b.html"]

theorem isSound_cycle : cycle.environment.isSound = true := by decide +kernel

theorem isSound_editedCycle : editedCycle.environment.isSound = true := by decide +kernel

theorem reached_editedCycle : editedCycle.Reached := by
  have hadmits : cycle.Admits ["a.html"] := by
    refine ⟨fun u hu ↦ absurd rfl hu, fun u _ _ v file _ hscan l hl ↦ ?_, fun limit hlimit ↦ ?_⟩
    · exact Environment.outcome_of_isSound rfl isSound_cycle hscan hl
    · cases hlimit
      decide
  exact .report _ (.edit _ (.analyze (.start _ _ _) hadmits))

theorem admits_editedCycle : editedCycle.Admits ["a.html"] := by
  refine ⟨fun u hu ↦ ?_, fun u _ _ v file _ hscan l hl ↦ ?_, fun limit hlimit ↦ ?_⟩
  · by_contra hreported
    have hne : u ≠ "b.html" := fun h ↦ hreported (List.mem_cons.2 (.inl h))
    refine hu ?_
    change List.lookup u [(Text.ofString "a.html", _), (Text.ofString "b.html", _)] =
      List.lookup u [(Text.ofString "a.html", _), (Text.ofString "b.html", _)]
    rw [List.lookup_cons, Keyed.lookup_cons_ne hne, List.lookup_cons, Keyed.lookup_cons_ne hne]
  · exact Environment.outcome_of_isSound rfl isSound_editedCycle hscan hl
  · cases hlimit
    decide

theorem reanalysis_of_editedCycle : ∃ is js f,
    (Session.analyze editedCycle.environment ["a.html"] editedCycle.session).1 = .ok is ∧
    (Session.analyze editedCycle.environment ["a.html"] {}).1 = .ok js ∧
    Graph.Isomorphism (Session.analyze editedCycle.environment ["a.html"] editedCycle.session).2.graph
      (Session.analyze editedCycle.environment ["a.html"] {}).2.graph is js f := by
  rcases reanalysis_isomorphic reached_editedCycle admits_editedCycle with ⟨u, hu, e, hscan, -⟩ | h
  · cases List.mem_singleton.1 hu
    obtain ⟨file, hfile⟩ := Environment.exists_scanFile isSound_editedCycle (v := "a.html") (by decide)
    cases hscan.symm.trans hfile
  · exact h

end Workspace

end PolymerAnalysis
