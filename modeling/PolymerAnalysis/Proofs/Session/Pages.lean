import PolymerAnalysis.Proofs.Session.Outcome
import PolymerAnalysis.Proofs.Session.Outdated

namespace PolymerAnalysis

namespace Environment

/-- Whether every file that the loader lists can be scanned, and every import in it leads out of the package or to
such a file. -/
def isSound (env : Environment) : Bool :=
  env.loader.urls.all fun v ↦ match env.scanFile v with
    | .ok file => file.links.all fun l ↦ match env.outcome l with
      | .ok .outside => true
      | .ok .linked => true
      | _ => false
    | .error _ => false

variable {env : Environment} {v : Text}

theorem exists_scanFile (h : env.isSound = true) (hv : v ∈ env.loader.urls) : ∃ file, env.scanFile v = .ok file := by
  have hfile := List.all_eq_true.1 h v hv
  cases hscan : env.scanFile v with
  | ok file => exact ⟨file, rfl⟩
  | error e =>
    rw [hscan] at hfile
    cases hfile

theorem outcome_of_isSound {files : Files} (henv : env.loader = files.loader) (h : env.isSound = true)
    {file : ScannedFile} (hscan : env.scanFile v = .ok file) {l : ImportFeature} (hl : l ∈ file.links) :
    env.outcome l = .ok .outside ∨ env.outcome l = .ok .linked := by
  have hfile := List.all_eq_true.1 h v (mem_urls_of_scanFile henv hscan)
  rw [hscan] at hfile
  have hok := List.all_eq_true.1 hfile l hl
  split at hok
  · next ho => exact .inl ho
  · next ho => exact .inr ho
  · cases hok

end Environment

structure Page where
  url : Text
  target? : Option Text := none

namespace Page

def text (page : Page) : Text :=
  match page.target? with
  | some target => "<link rel=\"import\" href=\"" ++ target ++ "\">"
  | none => []

def tree (page : Page) : Node :=
  match page.target? with
  | some target =>
    let tag : Node := .mk "start_tag" none true false 0 page.text.length page.text [
      .mk "tag_name" none true false 1 5 "link" [],
      Session.attributeNode 6 "rel" "import",
      Session.attributeNode 19 "href" target]
    .mk "document" none true false 0 page.text.length page.text [
      .mk "element" none true false 0 page.text.length page.text [tag]]
  | none => .mk "document" none true false 0 0 [] []

def settings (limit : Nat) : Settings where
  followImports := true
  scanInlineScripts := true
  scanners := ScannerKind.all
  knownVersion := Metadata.schemaVersion
  depthLimit := some limit

def grammar (pages : List Page) : Grammar := fun _ text ↦ ((pages.find? (·.text = text)).map tree).getD default

def files (pages : List Page) : Files := pages.map fun page ↦ (page.url, page.text)

def environment (pages : List Page) (limit : Nat) : Environment := ⟨grammar pages, (files pages).loader, settings limit⟩

theorem regular_environment (pages : List Page) (limit : Nat) : (environment pages limit).Regular :=
  Environment.regular_of_files rfl

end Page

end PolymerAnalysis
