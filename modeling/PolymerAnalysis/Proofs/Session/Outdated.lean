import PolymerAnalysis.Proofs.Session.History

namespace PolymerAnalysis.Session

open Relation

section

variable {s : Session} {u : Text} {i j : DocId} {urls : List Text}

theorem Coherent.dropped_of_imports (h : s.Coherent) (hu : s.cached? u = some i) (hj : s.graph.Imports i j)
    (hdrop : s.graph.url j ∈ s.dependents urls) : u ∈ s.dependents urls :=
  (isLeast_dependents s urls).1.2 _ hdrop u ((h.recorded u _).2 ⟨i, j, hu, h.imports_iff.1 hj, rfl⟩)

theorem Coherent.dropped_iff (h : s.Coherent) (urls : List Text) (hu : s.cached? u = some i) :
    u ∈ s.dependents urls ↔ ∃ j, ReflTransGen s.graph.Imports i j ∧ s.graph.url j ∈ urls := by
  constructor
  · intro hdrop
    let S : Set Text := {v | v ∈ urls ∨ ∃ k, s.cached? v = some k ∧
      ∃ j, ReflTransGen s.graph.Imports k j ∧ s.graph.url j ∈ urls}
    have hS : s.ClosedOver urls S := by
      refine ⟨fun v hv ↦ .inl hv, fun v hv w hw ↦ ?_⟩
      obtain ⟨k, j, hk, hj, rfl⟩ := (h.recorded w v).1 hw
      have hstep := h.imports_iff.2 hj
      rcases hv with hv | ⟨k', hk', j', hreach, hv⟩
      · exact .inr ⟨k, hk, j, .single hstep, hv⟩
      · cases (h.linked hk hj).symm.trans hk'
        exact .inr ⟨k, hk, j', .head hstep hreach, hv⟩
    rcases (isLeast_dependents s urls).2 hS hdrop with hv | ⟨k, hk, hreach⟩
    · refine ⟨i, .refl, ?_⟩
      rw [(h.placed hu).2.1]
      exact hv
    · cases hu.symm.trans hk
      exact hreach
  · rintro ⟨j, hreach, hj⟩
    have hall : s.graph.url i ∈ s.dependents urls := by
      induction hreach using ReflTransGen.head_induction_on generalizing u with
      | refl => exact (isLeast_dependents s urls).1.1 _ hj
      | @head i k hstep hrest ih =>
        rw [(h.placed hu).2.1]
        exact h.dropped_of_imports hu hstep (ih (h.linked hu (h.imports_iff.1 hstep)))
    rw [← (h.placed hu).2.1]
    exact hall

end

/-- A document that imports a file whose address is given back stays in the cache exactly when that import does
not lead to a document, because the file was missing or broken, and no link leads to a changed file. -/
theorem outdated_import_iff (calls : List Call) (urls : List Text) (u : Text) (i : DocId) (l : ImportFeature) :
    (((after calls).filesChanged urls).2.cached? u = some i ∧
        l ∈ ((after calls).filesChanged urls).2.graph.links i ∧ Url.isExternal l.url = .ok false ∧
        l.url ∈ ((after calls).filesChanged urls).1) ↔
      (after calls).cached? u = some i ∧ l ∈ (after calls).graph.links i ∧ Url.isExternal l.url = .ok false ∧
        l.url ∈ ((after calls).filesChanged urls).1 ∧
        (∀ j, (after calls).graph.Imports i j → (after calls).graph.url j ≠ l.url) ∧
        ∀ j, ReflTransGen (after calls).graph.Imports i j → (after calls).graph.url j ∉ urls := by
  have h := coherent_after calls
  rw [cached?_filesChanged]
  constructor
  · rintro ⟨hkept, hl, hinside, hurl⟩
    split at hkept
    · cases hkept
    · next hu =>
      refine ⟨hkept, hl, hinside, hurl, fun j hj he ↦ hu (h.dropped_of_imports hkept hj ?_), fun j hreach hj ↦ ?_⟩
      · rw [he]
        exact hurl
      · exact hu ((h.dropped_iff urls hkept).2 ⟨j, hreach, hj⟩)
  · rintro ⟨hu, hl, hinside, hurl, -, hreach⟩
    refine ⟨?_, hl, hinside, hurl⟩
    rw [if_neg fun hdrop ↦ ?_, hu]
    obtain ⟨j, hj, hchanged⟩ := (h.dropped_iff urls hu).1 hdrop
    exact hreach j hj hchanged

def attributeNode (start : Nat) (name value : Text) : Node :=
  let stop := start + name.length + value.length + 3
  .mk "attribute" none true false start stop [] [
    .mk "attribute_name" none true false start (start + name.length) name [],
    .mk "quoted_attribute_value" none true false (start + name.length + 1) stop [] [
      .mk "attribute_value" none true false (start + name.length + 2) (stop - 1) value []]]

def linkPage : Node :=
  .mk "document" none true false 0 33 [] [
    .mk "element" none true false 0 33 [] [
      .mk "start_tag" none true false 0 33 [] [
        .mk "tag_name" none true false 1 5 "link" [],
        attributeNode 6 "rel" "import", attributeNode 19 "href" "b.html"]]]

def brokenPackage : Environment where
  grammar _ _ := linkPage
  loader := Files.loader [("a.html", "<link rel=\"import\" href=\"b.html\">")]
  settings :=
    { followImports := true, scanInlineScripts := true, scanners := ScannerKind.all, knownVersion := []
      depthLimit := some 64 }

theorem importer_of_missing_file_kept : ¬∀ (calls : List Call) (urls : List Text) (u : Text) (i : DocId),
    ((after calls).filesChanged urls).2.cached? u = some i →
      ∀ l ∈ ((after calls).filesChanged urls).2.graph.links i, Url.isExternal l.url = .ok false →
        l.url ∉ ((after calls).filesChanged urls).1 := by
  intro h
  have hrun : let s := after [.analyze brokenPackage ["a.html"]]
      s.cached? "a.html" = some 0 ∧ (s.graph.links 0).map (·.url) = [Text.ofString "b.html"] ∧ s.importers = [] := by
    decide +kernel
  obtain ⟨hcached, hlinks, himporters⟩ := hrun
  have hclosed : (after [.analyze brokenPackage ["a.html"]]).ClosedOver ["b.html"] {Text.ofString "b.html"} := by
    refine ⟨fun _ hu ↦ List.mem_singleton.1 hu, fun v _ u hu ↦ ?_⟩
    rw [importersOf, himporters] at hu
    cases hu
  have hkept : ((after [.analyze brokenPackage ["a.html"]]).filesChanged ["b.html"]).2.cached? "a.html" = some 0 := by
    rw [cached?_filesChanged, if_neg fun hdrop ↦ ?_, hcached]
    exact absurd ((isLeast_dependents _ _).2 hclosed hdrop) (by decide)
  obtain ⟨l, hl, hurl⟩ := List.mem_map.1 (hlinks ▸ List.mem_cons_self)
  refine h [.analyze brokenPackage ["a.html"]] ["b.html"] "a.html" 0 hkept l hl ?_ ?_
  · rw [hurl]
    rfl
  · rw [hurl]
    exact (isLeast_dependents _ _).1.1 _ List.mem_cons_self

end PolymerAnalysis.Session
