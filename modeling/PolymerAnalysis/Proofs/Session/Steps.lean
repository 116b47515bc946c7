import PolymerAnalysis.Proofs.Except
import PolymerAnalysis.Proofs.Keyed
import PolymerAnalysis.Session.Opening
import Mathlib.Logic.Relation

namespace PolymerAnalysis

open Relation

theorem ParsedDocument.url_of_parseEncodable {grammar : Grammar} {language : Language} {url contents : Text}
    {place : Option (Option Offset)} {parsed : ParsedDocument}
    (h : parseEncodable grammar language url contents place = .ok parsed) : parsed.url = url := by
  cases language with
  | markup =>
    cases h
    rfl
  | script =>
    simp only [parseEncodable] at h
    split at h
    · cases h
    · cases h
      rfl

theorem ParsedDocument.url_of_parse {grammar : Grammar} {language : Language} {url contents : Text}
    {place : Option (Option Offset)} {parsed : ParsedDocument}
    (h : parse grammar language url contents place = .ok parsed) : parsed.url = url := by
  rw [parse] at h
  split at h
  · exact url_of_parseEncodable h
  · cases h

namespace ScannedFile

variable {env : Environment} {url : Text} {file file' : ScannedFile} {s : InlineScript} {P : ScannedFile → Prop}

/-- A script that is scanned leaves a warning if it has a fault, and else a document. -/
theorem addScript_cases (h : addScript env file s = .ok file') :
    s.type ≠ "js" ∧ file' = file ∨
    (∃ w, ParsedDocument.parseEncodable env.grammar .script file.document.url s.contents (some s.offset) =
        .error (.syntaxError w) ∧
      file' = { file with document.warnings := file.document.warnings ++ [w] }) ∨
    ∃ parsed features, ParsedDocument.parseEncodable env.grammar .script file.document.url s.contents
        (some s.offset) = .ok parsed ∧
      parsed.scan (env.settings.scannersFor .script) = .ok features ∧
      file' = { file with inlines := file.inlines ++ [{ url := file.document.url, features }] } := by
  rw [addScript] at h
  split at h
  · next htype =>
    cases h
    exact .inl ⟨htype, rfl⟩
  · split at h
    · next w hparsed =>
      cases h
      exact .inr (.inl ⟨w, hparsed, rfl⟩)
    · cases h
    · next parsed hparsed =>
      obtain ⟨features, hscan, h⟩ := exists_of_bind_eq_ok h
      cases h
      exact .inr (.inr ⟨parsed, features, hparsed, hscan, rfl⟩)

theorem keeps_addScripts {features : List ScannedFeature}
    (hscript : ∀ s, .script s ∈ features → ∀ file file', P file → addScript env file s = .ok file' → P file')
    (h : P file) (hadd : addScripts env file features = .ok file') : P file' := by
  induction features generalizing file with
  | nil =>
    cases hadd
    exact h
  | cons feature rest ih =>
    have hrest (s : InlineScript) (hs : .script s ∈ rest) := hscript s (List.mem_cons_of_mem feature hs)
    cases feature with
    | script s =>
      obtain ⟨file₁, hfirst, hadd⟩ := exists_of_bind_eq_ok hadd
      exact ih hrest (hscript s List.mem_cons_self file file₁ h hfirst) hadd
    | space | declaration | link => exact ih hrest h hadd

/-- What holds of a file before its scripts are scanned and is kept by each of them holds of the whole file. -/
theorem keeps_scanFile (h : env.scanFile url = .ok file)
    (hfile : ∀ language contents parsed features, Language.ofUrl? url = some language →
      env.loader.load url = .ok contents →
      ParsedDocument.parse env.grammar language url contents none = .ok parsed →
      parsed.scan (env.settings.scannersFor parsed.language) = .ok features →
      P { document := { url := parsed.url, features } } ∧
        ∀ s, .script s ∈ features → ∀ file file', P file → addScript env file s = .ok file' → P file') :
    P file := by
  rw [Environment.scanFile] at h
  split at h
  · cases h
  · next language hlanguage =>
    obtain ⟨contents, hload, h⟩ := exists_of_bind_eq_ok h
    obtain ⟨parsed, hparsed, h⟩ := exists_of_bind_eq_ok h
    obtain ⟨features, hscan, h⟩ := exists_of_bind_eq_ok h
    obtain ⟨hstart, hscript⟩ := hfile language contents parsed features hlanguage hload hparsed hscan
    dsimp only at h
    split at h
    · exact keeps_addScripts hscript hstart h
    · cases h
      exact hstart

structure Fresh (url : Text) (file : ScannedFile) : Prop where
  url : file.document.url = url
  container : file.document.container = none
  imports : file.document.imports = []
  inlines : ∀ d ∈ file.inlines, d.imports = []

theorem Fresh.addScript (h : file.Fresh url) (hadd : addScript env file s = .ok file') : file'.Fresh url := by
  rcases addScript_cases hadd with ⟨-, rfl⟩ | ⟨w, -, rfl⟩ | ⟨parsed, features, -, -, rfl⟩
  · exact h
  · exact ⟨h.url, h.container, h.imports, h.inlines⟩
  · refine ⟨h.url, h.container, h.imports, fun d hd ↦ ?_⟩
    rcases List.mem_append.1 hd with hd | hd
    · exact h.inlines d hd
    · rw [List.mem_singleton.1 hd]

theorem fresh_of_scanFile (h : env.scanFile url = .ok file) : file.Fresh url := by
  refine keeps_scanFile h fun language contents parsed features _ _ hparsed _ ↦ ⟨?_, fun s _ file file' ↦ Fresh.addScript⟩
  exact ⟨ParsedDocument.url_of_parse hparsed, rfl, rfl, fun d hd ↦ absurd hd List.not_mem_nil⟩

end ScannedFile

namespace Session

variable {env : Environment} {s s' : Session}

/-- One thing that an analysis does: it registers a file that is not in the cache, gives warnings to a document,
or links two documents of the cache. -/
inductive Step (env : Environment) : Session → Session → Prop
  | register {s : Session} {url : Text} {file : ScannedFile} :
      s.cached? url = none → env.scanFile url = .ok file → Step env s (s.register url file).2
  | warn {s : Session} (i : DocId) (ws : List Warning) : Step env s (s.warn i ws)
  | link {s : Session} {importerUrl url : Text} {importer imported : DocId} :
      s.cached? importerUrl = some importer → s.cached? url = some imported →
      Step env s (s.link importer url imported)

theorem cached?_register (s : Session) (url : Text) (file : ScannedFile) (u : Text) :
    (s.register url file).2.cached? u = if u = url then some s.graph.size else s.cached? u :=
  Keyed.lookup_put url s.graph.size s.cache u

theorem Step.keeps_cached {u : Text} {i : DocId} (h : Step env s s') (hu : s.cached? u = some i) :
    s'.cached? u = some i := by
  cases h with
  | @register url file hurl hscan =>
    have hne : u ≠ url := by
      rintro rfl
      rw [hurl] at hu
      cases hu
    rw [cached?_register, if_neg hne]
    exact hu
  | warn => exact hu
  | link => exact hu

theorem keeps_cached {u : Text} {i : DocId} (h : ReflTransGen (Step env) s s') (hu : s.cached? u = some i) :
    s'.cached? u = some i := by
  induction h with
  | refl => exact hu
  | tail _ hstep ih => exact hstep.keeps_cached ih

/-- A way to open documents: it works in steps, and a document that it gives is in the cache. -/
def Opens (env : Environment) (opener : Text → Session → Except Failure DocId × Session) : Prop :=
  ∀ url s, ReflTransGen (Step env) s (opener url s).2 ∧
    ∀ i, (opener url s).1 = .ok i → (opener url s).2.cached? url = some i

theorem fetch_steps (env : Environment) (url : Text) (s : Session) :
    ReflTransGen (Step env) s (fetch env url s).2 ∧
      ∀ x, (fetch env url s).1 = .ok x → (fetch env url s).2.cached? url = some x.1 := by
  cases hc : s.cached? url with
  | some i =>
    simp only [fetch, hc]
    refine ⟨.refl, fun x hx ↦ ?_⟩
    cases hx
    rfl
  | none =>
    cases hf : env.scanFile url with
    | error e =>
      simp only [fetch, hc, hf]
      exact ⟨.refl, fun x hx ↦ by cases hx⟩
    | ok file =>
      simp only [fetch, hc, hf]
      refine ⟨.single (.register hc hf), fun x hx ↦ ?_⟩
      cases hx
      rw [cached?_register, if_pos rfl]
      rfl

section

variable {opener : Text → Session → Except Failure DocId × Session} {importerUrl : Text} {importer : DocId}

theorem follow_steps (ho : Opens env opener) (l : ImportFeature) (hi : s.cached? importerUrl = some importer) :
    ReflTransGen (Step env) s (follow env opener importer l s).2 := by
  cases hp : prospect env l.url with
  | error e => simpa only [follow, hp] using ReflTransGen.refl
  | ok p =>
    cases p with
    | external => simpa only [follow, hp] using ReflTransGen.refl
    | unavailable =>
      simp only [follow, hp]
      exact .single (.warn importer _)
    | available =>
      obtain ⟨hsteps, hcached⟩ := ho l.url s
      simp only [follow, hp]
      cases hopened : (opener l.url s).1 with
      | ok i => exact hsteps.tail (.link (keeps_cached hsteps hi) (hcached i hopened))
      | error e =>
        cases e with
        | load url fault => exact hsteps.tail (.warn importer _)
        | syntaxError w => exact hsteps.tail (.warn importer _)
        | _ => exact hsteps

theorem followAll_steps (ho : Opens env opener) (links : List ImportFeature)
    (hi : s.cached? importerUrl = some importer) :
    ReflTransGen (Step env) s (followAll env opener importer links s).2 := by
  induction links generalizing s with
  | nil => exact .refl
  | cons l ls ih =>
    have hfirst := follow_steps ho l hi
    rw [followAll]
    split
    · next e s₁ h =>
      rw [h] at hfirst
      exact hfirst
    · next s₁ h =>
      rw [h] at hfirst
      exact hfirst.trans (ih (keeps_cached hfirst hi))

end

theorem opens_nested {free : List Text} {depth : Nat} (h : ∀ url ∈ free, Opens env (openAt env (free.erase url) depth)) :
    Opens env (nested env free depth) := by
  intro url s
  rw [nested]
  split
  · next hmem => exact h url hmem url s
  · obtain ⟨hsteps, hcached⟩ := fetch_steps env url s
    refine ⟨hsteps, fun i hi ↦ ?_⟩
    obtain ⟨x, hx, rfl⟩ := exists_of_map_eq_ok hi
    exact hcached x hx

theorem openAt_steps (env : Environment) (free : List Text) (depth : Nat) : Opens env (openAt env free depth) := by
  intro url s
  obtain ⟨hfetch, hcached⟩ := fetch_steps env url s
  cases h : fetch env url s with
  | mk fetched s₁ =>
    rw [h] at hfetch hcached
    cases fetched with
    | error e =>
      rw [openAt_of_error h]
      exact ⟨hfetch, fun i hi ↦ by cases hi⟩
    | ok x =>
      obtain ⟨i, isNew⟩ := x
      have hi : s₁.cached? url = some i := hcached (i, isNew) rfl
      rw [openAt_of_ok h]
      split
      · have hnested : Opens env (nested env free (depth + 1)) :=
          opens_nested fun url hmem ↦ openAt_steps env (free.erase url) (depth + 1)
        have hall := followAll_steps hnested (s₁.graph.links i) hi
        refine ⟨hfetch.trans hall, fun j hj ↦ ?_⟩
        obtain ⟨-, -, rfl⟩ := exists_of_map_eq_ok hj
        exact keeps_cached hall hi
      · refine ⟨hfetch, fun j hj ↦ ?_⟩
        cases hj
        exact hi
termination_by free.length
decreasing_by
  have := List.length_erase_add_one hmem
  omega

theorem analyze_steps (env : Environment) (urls : List Text) (s : Session) :
    ReflTransGen (Step env) s (analyze env urls s).2 := by
  induction urls generalizing s with
  | nil => exact .refl
  | cons url urls ih =>
    have hopen : ReflTransGen (Step env) s (openDocument env url s).2 := (openAt_steps env _ 0 url s).1
    rw [analyze]
    split
    · next e s₁ h =>
      rw [h] at hopen
      exact hopen
    · next i s₁ h =>
      rw [h] at hopen
      exact hopen.trans (ih s₁)

end Session

end PolymerAnalysis
