import PolymerAnalysis.Proofs.Scan.Assembly
import PolymerAnalysis.Proofs.Scan.Gathering

namespace PolymerAnalysis

def Node.Refers (root : Node) (reference : Text) : Prop :=
  ∃ c ∈ Walk.places [] root, (c.node.kind = "start_tag" ∨ c.node.kind = "self_closing_tag") ∧
    ∃ as type, Scan.Markup.attributes c.node = .ok as ∧
      Scan.Markup.target? (Scan.Markup.tagName c.node) as = some (reference, type) ∧ reference ≠ []

def ScannedFeature.ComesFrom (k : ScannerKind) (d : ParsedDocument) : ScannedFeature → Prop
  | .link l => k = .imports ∧ ∃ r, d.root.Refers r ∧ Url.resolve d.url r = .ok l.url
  | .declaration x => x.IsAnalyzed
  | _ => True

def Findings.ComeFrom (k : ScannerKind) (d : ParsedDocument) (f : Findings) : Prop :=
  ∀ x ∈ f.features, x.ComesFrom k d

variable {k : ScannerKind} {d : ParsedDocument} {f g : Findings}

theorem Findings.ComeFrom.add (h : f.ComeFrom k d) {x : ScannedFeature} (hx : x.ComesFrom k d) :
    (f.add x).ComeFrom k d := by
  intro y hy
  rcases List.mem_append.1 hy with hy | hy
  · exact h y hy
  · exact List.mem_singleton.1 hy ▸ hx

namespace Scan

theorem Markup.comeFrom_onTag {c : Cursor} (hc : c ∈ Walk.places [] d.root)
    (hkind : c.node.kind = "start_tag" ∨ c.node.kind = "self_closing_tag") (hf : f.ComeFrom .imports d)
    (h : onTag d.context c f = .ok g) : g.ComeFrom .imports d := by
  obtain ⟨as, has, h⟩ := exists_of_bind_eq_ok h
  split at h
  · cases h
    exact hf
  · next reference type htarget =>
    obtain ⟨url, hurl, h⟩ := exists_of_bind_eq_ok h
    cases h
    obtain ⟨htarget, hne⟩ := Option.filter_eq_some_iff.1 htarget
    have hresolve : Url.resolve d.url reference = .ok url := by
      cases hr : Url.resolve d.url reference with
      | ok v =>
        have hv : Except.ok v = Except.ok (ε := Failure) url := by
          rw [← hurl]
          exact (congrArg (·.mapError Failure.address) hr).symm
        cases hv
        rfl
      | error e =>
        have he : Except.error (Failure.address e) = Except.ok url := by
          rw [← hurl]
          exact (congrArg (·.mapError Failure.address) hr).symm
        cases he
    exact hf.add ⟨rfl, reference, ⟨c, hc, hkind, as, type, has, htarget, by simpa using hne⟩, hresolve⟩

end Scan

theorem ScannedFeature.Found.comesFrom (hk : k ≠ .imports) {x : ScannedFeature} (hx : x.Found k d.context) :
    x.ComesFrom k d := by
  cases x with
  | declaration x => exact Declaration.Assembled.isAnalyzed hx
  | link l => exact absurd hx hk
  | space n | script s => trivial

namespace ParsedDocument

variable {kinds : List ScannerKind} {features : List ScannedFeature}

theorem comeFrom_imports (h : d.scan [.imports] = .ok features) : ∀ x ∈ features, x.ComesFrom .imports d := by
  rw [scan_ofHooks rfl] at h
  obtain ⟨f, hf, rfl⟩ := exists_of_map_eq_ok h
  refine keeps_foldlM_of_mem (P := Findings.ComeFrom .imports d) (fun c hc f g hf hg ↦ ?_) (fun x hx ↦ by cases hx) hf
  by_cases hstart : c.node.kind = "start_tag"
  · rw [Hook.at, hstart] at hg
    exact Scan.Markup.comeFrom_onTag hc (.inl hstart) hf hg
  by_cases hclosing : c.node.kind = "self_closing_tag"
  · rw [Hook.at, hclosing] at hg
    exact Scan.Markup.comeFrom_onTag hc (.inr hclosing) hf hg
  · rw [Hook.at, List.lookup_cons, beq_eq_false_iff_ne.2 hstart, List.lookup_cons, beq_eq_false_iff_ne.2 hclosing] at hg
    cases hg
    exact hf

/-- Every feature comes from one of the scanners. -/
theorem comesFrom_scan (h : d.scan kinds = .ok features) : ∀ x ∈ features, ∃ k ∈ kinds, x.ComesFrom k d := by
  intro x hx
  obtain ⟨k, hk, part, hpart, hx⟩ := exists_scanner h hx
  refine ⟨k, hk, ?_⟩
  by_cases himports : k = .imports
  · subst himports
    exact comeFrom_imports hpart x hx
  · exact (found_scan hpart x hx).comesFrom himports

theorem refers_of_link (h : d.scan kinds = .ok features) {l : ImportFeature} (hl : .link l ∈ features) :
    .imports ∈ kinds ∧ ∃ r, d.root.Refers r ∧ Url.resolve d.url r = .ok l.url := by
  obtain ⟨k, hk, rfl, hlink⟩ := comesFrom_scan h _ hl
  exact ⟨hk, hlink⟩

theorem isAnalyzed_of_scan (h : d.scan kinds = .ok features) {x : Declaration} (hx : .declaration x ∈ features) :
    x.IsAnalyzed := by
  obtain ⟨k, -, hanalyzed⟩ := comesFrom_scan h _ hx
  exact hanalyzed

end ParsedDocument

end PolymerAnalysis
