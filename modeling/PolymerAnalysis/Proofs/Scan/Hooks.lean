import PolymerAnalysis.Proofs.Except
import PolymerAnalysis.Proofs.Scan.Multiplexing

namespace PolymerAnalysis

variable {d : ParsedDocument} {features : List ScannedFeature}

/-- What each hook keeps, the visitor that has them keeps. -/
theorem Visitor.keeps_ofHooks {hooks : List (String × Hook)} {P : Findings → Prop} {nodes : Node → Prop}
    (h : ∀ x ∈ hooks, ∀ place f g, nodes place.node → P f → x.2 place f = .ok g → P g) (i : Nat) :
    (Visitor.ofHooks hooks).Keeps i P nodes where
  enter := by
    intro place f out hplace hf hout
    rw [Visitor.enterAt] at hout
    split at hout
    · cases hout
      exact hf
    · next hook hhook =>
      obtain ⟨own, hown, rfl⟩ := Option.map_eq_some_iff.1 hhook
      obtain ⟨g, hg, rfl⟩ := exists_of_map_eq_ok hout
      obtain ⟨before, behind, hmem, -⟩ := List.lookup_eq_some_iff.1 hown
      exact h _ (hmem ▸ List.mem_append_right before List.mem_cons_self) place f g hplace hf hg
  leave := by
    intro place f out hplace hf hout
    cases hout
    exact hf

/-- A scanner makes its features of findings that have what its visitor keeps. -/
theorem ParsedDocument.exists_findings {k : ScannerKind} {P : Findings → Prop}
    (hkeeps : (k.visitor d.context).Keeps 0 P (· ∈ d.root.preorder)) (hstart : P (k.visitor d.context).start)
    (h : d.scan [k] = .ok features) : ∃ f, P f ∧ k.finish f = features := by
  have hone : d.scan [k] = ((k.visitor d.context).outcome d.root).map k.finish :=
    Barrier.scan_singleton (fun _ ↦ k.visitor d.context) d.root rfl
  rw [hone, Visitor.outcome_eq] at h
  obtain ⟨f, hf, rfl⟩ := exists_of_map_eq_ok h
  exact ⟨f, hkeeps.tour [] d.root (fun _ hn ↦ hn) hstart hf, rfl⟩

/-- What several scanners find is made of what each of them finds alone. -/
theorem ParsedDocument.exists_parts {kinds : List ScannerKind} (h : d.scan kinds = .ok features) :
    ∃ parts : List (List ScannedFeature), features = parts.flatten ∧ kinds.map (fun k ↦ d.scan [k]) = parts.map .ok := by
  obtain ⟨gathered, hgathers, hscan⟩ := d.scan_gathers kinds
  rw [hscan] at h
  obtain ⟨parts, rfl, rfl⟩ := exists_of_map_eq_ok h
  exact ⟨parts, rfl, hgathers⟩

/-- What several scanners find, one of them finds. -/
theorem ParsedDocument.exists_scanner {kinds : List ScannerKind} (h : d.scan kinds = .ok features)
    {x : ScannedFeature} (hx : x ∈ features) : ∃ k ∈ kinds, ∃ part, d.scan [k] = .ok part ∧ x ∈ part := by
  obtain ⟨parts, rfl, heach⟩ := exists_parts h
  obtain ⟨part, hpart, hx⟩ := List.mem_flatten.1 hx
  have hmem : .ok part ∈ kinds.map fun k ↦ d.scan [k] := heach ▸ List.mem_map_of_mem hpart
  obtain ⟨k, hk, hscan⟩ := List.mem_map.1 hmem
  exact ⟨k, hk, part, hscan, hx⟩

end PolymerAnalysis
