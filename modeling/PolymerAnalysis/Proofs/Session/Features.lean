import PolymerAnalysis.Proofs.Scan.Findings
import PolymerAnalysis.Proofs.Scan.InlineScripts
import PolymerAnalysis.Proofs.Session.History

namespace PolymerAnalysis

open Relation

theorem Text.wellFormed_position (t : Text) (p : Point) : (t.position p).WellFormed := by
  unfold position
  split <;> exact ⟨Int.natCast_nonneg _, Int.natCast_nonneg _⟩

theorem Position.WellFormed.shift {p : Position} (h : p.WellFormed) {offset : Option Offset}
    (hoffset : ∀ o ∈ offset, (⟨o.line, o.column⟩ : Position).WellFormed) : (p.shift offset).WellFormed := by
  cases offset with
  | none => exact h
  | some o =>
    obtain ⟨hline, hcolumn⟩ := hoffset o rfl
    refine ⟨Int.add_nonneg h.1 hline, ?_⟩
    dsimp only [Position.shift]
    split
    · exact Int.add_nonneg h.2 hcolumn
    · exact h.2

theorem ParsedDocument.wellFormed_context {d : ParsedDocument}
    (hoffset : ∀ o ∈ d.offset, (⟨o.line, o.column⟩ : Position).WellFormed) : d.context.WellFormed := by
  intro n r hr
  cases hr
  exact ⟨(Text.wellFormed_position _ _).shift hoffset, (Text.wellFormed_position _ _).shift hoffset⟩

theorem ScannedFeature.Placed.wellFormed {x : ScannedFeature} (h : x.Placed) : x.WellFormed := by
  cases x with
  | script s => trivial
  | space n | declaration d | link i => exact h

namespace ScannedFile

structure WellFormed (file : ScannedFile) : Prop where
  document : ∀ x ∈ file.document.features, x.WellFormed
  inlines : ∀ d ∈ file.inlines, ∀ x ∈ d.features, x.WellFormed

variable {env : Environment} {url : Text} {file file' : ScannedFile}

theorem WellFormed.addScript {script : InlineScript} (h : file.WellFormed)
    (hplaced : (ScannedFeature.script script).Placed) (hadd : addScript env file script = .ok file') :
    file'.WellFormed := by
  rcases addScript_cases hadd with ⟨-, rfl⟩ | ⟨w, -, rfl⟩ | ⟨parsed, features, hparsed, hscan, rfl⟩
  · exact h
  · exact ⟨h.document, h.inlines⟩
  · have hoffset : parsed.offset = script.offset := (ParsedDocument.of_parseEncodable hparsed).2
    have hctx : parsed.context.WellFormed := ParsedDocument.wellFormed_context (hoffset ▸ hplaced)
    refine ⟨h.document, fun d hd ↦ ?_⟩
    rcases List.mem_append.1 hd with hd | hd
    · exact h.inlines d hd
    · rw [List.mem_singleton.1 hd]
      exact fun x hx ↦ (ParsedDocument.placed_scan hctx hscan x hx).wellFormed

theorem wellFormed_of_scanFile (h : env.scanFile url = .ok file) : file.WellFormed := by
  refine keeps_scanFile h fun language contents parsed features _ _ hparsed hscan ↦ ?_
  rw [ParsedDocument.parse] at hparsed
  split at hparsed
  · have hoffset : parsed.offset = none := (ParsedDocument.of_parseEncodable hparsed).2
    have hctx : parsed.context.WellFormed := by
      refine ParsedDocument.wellFormed_context fun o ho ↦ ?_
      rw [hoffset] at ho
      cases ho
    have hplaced := ParsedDocument.placed_scan hctx hscan
    refine ⟨⟨fun x hx ↦ (hplaced x hx).wellFormed, fun d hd ↦ by cases hd⟩, fun s hs file file' hfile hadd ↦ ?_⟩
    exact hfile.addScript (hplaced _ hs) hadd
  · cases hparsed

end ScannedFile

section Everywhere

variable {P : ScannedFeature → Prop}

structure ScannedFile.AllFeatures (P : ScannedFeature → Prop) (file : ScannedFile) : Prop where
  document : ∀ x ∈ file.document.features, P x
  inlines : ∀ d ∈ file.inlines, ∀ x ∈ d.features, P x

def Graph.AllFeatures (P : ScannedFeature → Prop) (g : Graph) : Prop :=
  ∀ i d, g.document? i = some d → ∀ x ∈ d.features, P x

theorem Graph.AllFeatures.modify {g : Graph} (h : g.AllFeatures P) (i : DocId) {f : Document → Document}
    (hf : ∀ d, (f d).features = d.features) : (g.modify i f).AllFeatures P := by
  intro k d hd
  rw [document?_modify] at hd
  split at hd
  · obtain ⟨e, he, rfl⟩ := Option.map_eq_some_iff.1 hd
    rw [hf]
    exact h k e he
  · exact h k d hd

namespace Session

variable {env : Environment} {s s' : Session}

theorem allFeatures_register (h : s.graph.AllFeatures P) {file : ScannedFile} (hfile : file.AllFeatures P) (url : Text) :
    (s.register url file).2.graph.AllFeatures P := by
  intro i d hd
  have hmem : d ∈ (s.register url file).2.graph.documents := List.mem_of_getElem? hd
  rw [documents_register] at hmem
  rcases List.mem_append.1 hmem with hold | hnew
  · obtain ⟨k, hk⟩ := List.getElem?_of_mem hold
    exact h k d hk
  · rcases List.mem_cons.1 hnew with rfl | hnew
    · exact hfile.document
    · obtain ⟨e, he, rfl⟩ := List.mem_map.1 hnew
      exact hfile.inlines e he

variable (hscan : ∀ {env : Environment} {url file}, env.scanFile url = .ok file → file.AllFeatures P)

include hscan

theorem Step.allFeatures (h : Step env s s') (hs : s.graph.AllFeatures P) : s'.graph.AllFeatures P := by
  cases h with
  | register hurl hfile => exact allFeatures_register hs (hscan hfile) _
  | warn i ws => exact hs.modify i fun _ ↦ rfl
  | link himporter himported => exact hs.modify _ fun _ ↦ rfl

theorem allFeatures_steps (h : ReflTransGen (Step env) s s') (hs : s.graph.AllFeatures P) : s'.graph.AllFeatures P := by
  induction h with
  | refl => exact hs
  | tail _ hstep ih => exact hstep.allFeatures hscan ih

/-- What holds of the features of every file that can be scanned holds of all features of a session. -/
theorem allFeatures_after (calls : List Call) : (after calls).graph.AllFeatures P := by
  have hempty : (({} : Session).graph).AllFeatures P := fun i d hd ↦ by cases hd
  refine List.foldlRecOn (motive := fun s ↦ s.graph.AllFeatures P) calls Call.run hempty fun s hs call _ ↦ ?_
  cases call with
  | analyze env urls => exact allFeatures_steps hscan (analyze_steps env urls s) hs
  | change urls => exact hs

end Session

end Everywhere

theorem Session.wellFormed_after (calls : List Call) : (after calls).graph.WellFormed :=
  allFeatures_after (fun h ↦ ⟨(ScannedFile.wellFormed_of_scanFile h).document,
    (ScannedFile.wellFormed_of_scanFile h).inlines⟩) calls

end PolymerAnalysis
