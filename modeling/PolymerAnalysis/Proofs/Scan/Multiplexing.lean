import PolymerAnalysis.Proofs.Scan.Barrier
import PolymerAnalysis.Scan.Registry

namespace PolymerAnalysis

def Scanner.visitor (s : Scanner Findings Failure ScannedFeature) : Visitor Findings Failure :=
  match s.steps with
  | .visit v :: _ => v
  | _ => .ofHooks []

theorem ParsedDocument.scan_gathers (d : ParsedDocument) (kinds : List ScannerKind) :
    ∃ parts, Gathers parts (kinds.map fun k ↦ d.scan [k]) ∧ d.scan kinds = parts.map List.flatten := by
  have hsteps : ∀ s ∈ kinds.map (·.scanner d.context), s.steps = [.visit s.visitor] := by
    intro s hs
    obtain ⟨k, -, rfl⟩ := List.mem_map.1 hs
    rfl
  obtain ⟨parts, hparts, hscan⟩ := Barrier.scan_gathers Scanner.visitor d.root hsteps
  rw [List.map_map] at hparts
  exact ⟨parts, hparts, hscan⟩

/-- Several scanners on one traversal of a document find one after the other what each of them finds alone. The scan
fails exactly if one of them fails alone, and as one of them does. -/
theorem ParsedDocument.scan_separately (d : ParsedDocument) (kinds : List ScannerKind) :
    ((∀ k ∈ kinds, ∃ part, d.scan [k] = .ok part) →
      ∃ parts, List.Forall₂ (fun k part ↦ d.scan [k] = .ok part) kinds parts ∧ d.scan kinds = .ok parts.flatten) ∧
    ((∃ e, d.scan kinds = .error e) ↔ ∃ k ∈ kinds, ∃ e, d.scan [k] = .error e) ∧
    ∀ e, d.scan kinds = .error e → ∃ k ∈ kinds, d.scan [k] = .error e := by
  obtain ⟨gathered, hgathers, hscan⟩ := d.scan_gathers kinds
  cases gathered with
  | ok parts =>
    have hparts : List.Forall₂ (fun k part ↦ d.scan [k] = .ok part) kinds parts := by
      have heach : kinds.map (fun k ↦ d.scan [k]) = parts.map .ok := hgathers
      rw [← List.forall₂_eq_eq_eq, List.forall₂_map_left_iff, List.forall₂_map_right_iff] at heach
      exact heach
    refine ⟨fun _ ↦ ⟨parts, hparts, hscan⟩, ⟨?_, ?_⟩, ?_⟩
    · rintro ⟨e, he⟩
      cases hscan.symm.trans he
    · rintro ⟨k, hk, e, he⟩
      exact absurd (List.mem_map.2 ⟨k, hk, he⟩) (hgathers.error_not_mem e)
    · intro e he
      cases hscan.symm.trans he
  | error e =>
    obtain ⟨k, hk, hfail⟩ := List.mem_map.1 hgathers
    refine ⟨fun hall ↦ ?_, ⟨fun _ ↦ ⟨k, hk, e, hfail⟩, fun _ ↦ ⟨e, hscan⟩⟩, fun e' he' ↦ ?_⟩
    · obtain ⟨part, hpart⟩ := hall k hk
      cases hfail.symm.trans hpart
    · cases hscan.symm.trans he'
      exact ⟨k, hk, hfail⟩

def inlinePage : ParsedDocument where
  language := .markup
  url := "a.html"
  contents := "<script>a</script>"
  root := .mk "document" none true false 0 18 "<script>a</script>" [
    .mk "script_element" none true false 0 18 "<script>a</script>" [
      .mk "start_tag" none true false 0 8 "<script>" [.mk "tag_name" none true false 1 7 "script" []],
      .mk "raw_text" none true false 8 9 "a" [],
      .mk "end_tag" none true false 9 18 "</script>" [.mk "tag_name" none true false 11 17 "script" []]]]
  offset := none
  inline := false

theorem inlinePage_scanned : ∃ x, inlinePage.scan [.scripts] = .ok [x] ∧
    inlinePage.scan [.scripts, .imports, .scripts] = .ok [x, x] := by
  obtain ⟨x, hscripts⟩ : ∃ x, inlinePage.scan [.scripts] = .ok [x] := ⟨_, rfl⟩
  have himports : inlinePage.scan [.imports] = .ok [] := rfl
  obtain ⟨parts, hparts, hscan⟩ := (inlinePage.scan_separately [.scripts, .imports, .scripts]).1 fun k hk ↦ by
    rcases List.mem_cons.1 hk with rfl | hk
    · exact ⟨_, hscripts⟩
    · rcases List.mem_cons.1 hk with rfl | hk
      · exact ⟨_, himports⟩
      · cases List.mem_singleton.1 hk
        exact ⟨_, hscripts⟩
  rcases hparts with _ | ⟨hfirst, _ | ⟨hsecond, _ | ⟨hthird, _ | _⟩⟩⟩
  cases hscripts.symm.trans hfirst
  cases himports.symm.trans hsecond
  cases hscripts.symm.trans hthird
  exact ⟨x, hscripts, hscan⟩

end PolymerAnalysis
