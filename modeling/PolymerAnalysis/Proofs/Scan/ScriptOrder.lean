import PolymerAnalysis.Proofs.Scan.Gathering
import PolymerAnalysis.Proofs.Scan.InlineScripts

namespace PolymerAnalysis

open Scan.Markup

def ScannedFeature.script? : ScannedFeature → Option InlineScript
  | .script s => some s
  | _ => none

def scriptsOf (features : List ScannedFeature) : List InlineScript := features.filterMap (·.script?)

structure HeldAt (d : ParsedDocument) (c : Cursor) (s : InlineScript) : Prop where
  kind : c.node.kind = "script_element"
  type : s.type = "js"
  recorded : ∃ raw, c.node.namedChildren.find? (·.kind = "raw_text") = some raw ∧ Records d s raw

variable {d : ParsedDocument} {features : List ScannedFeature} {f g : Findings} {kinds : List ScannerKind}
  {s : InlineScript}

theorem scriptsOf_append (xs ys : List ScannedFeature) : scriptsOf (xs ++ ys) = scriptsOf xs ++ scriptsOf ys :=
  List.filterMap_append

theorem scriptsOf_map_script (ss : List InlineScript) : scriptsOf (ss.map .script) = ss := by
  rw [scriptsOf, List.filterMap_map]
  exact List.filterMap_some

theorem mem_scriptsOf : s ∈ scriptsOf features ↔ .script s ∈ features := by
  rw [scriptsOf, List.mem_filterMap]
  constructor
  · rintro ⟨x, hx, hs⟩
    cases x with
    | script t =>
      cases hs
      exact hx
    | space | declaration | link => cases hs
  · exact fun h ↦ ⟨_, h, rfl⟩

theorem script_added {c : Cursor} (h : Hook.at [("script_element", onScript d.context)] f c = .ok g) :
    g = f ∨ ∃ s, HeldAt d c s ∧ g = f.add (.script s) := by
  by_cases hkind : c.node.kind = "script_element"
  · rw [Hook.at, hkind] at h
    rcases onScript_adds h with rfl | ⟨raw, s, hraw, hrecords, htype, rfl⟩
    · exact .inl rfl
    · exact .inr ⟨s, ⟨hkind, htype, raw, hraw, hrecords⟩, rfl⟩
  · rw [Hook.at, List.lookup_cons, beq_eq_false_iff_ne.2 hkind] at h
    cases h
    exact .inl rfl

theorem scripts_added {cs : List Cursor}
    (h : cs.foldlM (Hook.at [("script_element", onScript d.context)]) f = .ok g) :
    ∃ places scripts, List.Sublist places cs ∧ List.Forall₂ (HeldAt d) places scripts ∧
      g.features = f.features ++ scripts.map .script := by
  induction cs generalizing f with
  | nil =>
    cases h
    exact ⟨[], [], List.Sublist.slnil, .nil, (List.append_nil _).symm⟩
  | cons c cs ih =>
    rw [List.foldlM_cons] at h
    obtain ⟨f₁, hstep, hrest⟩ := exists_of_bind_eq_ok h
    obtain ⟨places, scripts, hplaces, hheld, hfeatures⟩ := ih hrest
    rcases script_added hstep with rfl | ⟨s, hs, rfl⟩
    · exact ⟨places, scripts, hplaces.cons c, hheld, hfeatures⟩
    · refine ⟨c :: places, s :: scripts, hplaces.cons_cons c, .cons hs hheld, ?_⟩
      rw [hfeatures, Findings.add, List.append_assoc]
      rfl

theorem scripts_in_order (h : d.scan [.scripts] = .ok features) :
    ∃ places, List.Sublist places (Walk.places [] d.root) ∧ List.Forall₂ (HeldAt d) places (scriptsOf features) := by
  rw [ParsedDocument.scan_ofHooks rfl] at h
  obtain ⟨g, hg, rfl⟩ := exists_of_map_eq_ok h
  obtain ⟨places, scripts, hplaces, hheld, hfeatures⟩ := scripts_added hg
  have hscripts : scriptsOf g.features = scripts := by
    rw [hfeatures]
    exact scriptsOf_map_script scripts
  exact ⟨places, hplaces, hscripts ▸ hheld⟩

theorem scriptsOf_imports (h : d.scan [.imports] = .ok features) : scriptsOf features = [] := by
  have hkeeps : (importVisitor d.context).Keeps 0 (fun f ↦ scriptsOf f.features = []) (· ∈ d.root.preorder) := by
    refine Visitor.keeps_ofHooks (fun x hx place f g _ hf hg ↦ ?_) 0
    have hhook : x.2 = onTag d.context := by
      rcases List.mem_cons.1 hx with rfl | hx
      · rfl
      · rw [List.mem_singleton.1 hx]
    rw [hhook] at hg
    obtain ⟨as, -, hg⟩ := exists_of_bind_eq_ok hg
    split at hg
    · cases hg
      exact hf
    · obtain ⟨url, -, hg⟩ := exists_of_bind_eq_ok hg
      cases hg
      rw [Findings.add, scriptsOf_append, hf]
      rfl
  obtain ⟨f, hf, rfl⟩ := ParsedDocument.exists_findings (k := .imports) hkeeps rfl h
  exact hf

theorem scriptsOf_parts {parts : List (List ScannedFeature)} (hkinds : ∀ k ∈ kinds, k = .imports)
    (h : kinds.map (fun k ↦ d.scan [k]) = parts.map .ok) : scriptsOf parts.flatten = [] := by
  induction kinds generalizing parts with
  | nil =>
    cases parts with
    | nil => rfl
    | cons => cases h
  | cons k ks ih =>
    cases parts with
    | nil => cases h
    | cons part parts =>
      obtain ⟨hpart, hrest⟩ := List.cons.inj h
      rw [List.forall_mem_cons] at hkinds
      rw [hkinds.1] at hpart
      rw [List.flatten_cons, scriptsOf_append, scriptsOf_imports hpart, ih hkinds.2 hrest]
      rfl

theorem isMarkup_iff {k : ScannerKind} : k.language = .markup ↔ k = .imports ∨ k = .scripts := by
  cases k <;> decide

theorem script_of_scan (hmarkup : ∀ k ∈ kinds, k.language = .markup) (h : d.scan kinds = .ok features)
    (hs : s ∈ scriptsOf features) :
    s.type = "js" ∧ ∃ raw ∈ d.root.preorder, raw.kind = "raw_text" ∧ Records d s raw := by
  obtain ⟨k, hk, part, hpart, hmem⟩ := ParsedDocument.exists_scanner h (mem_scriptsOf.1 hs)
  rcases isMarkup_iff.1 (hmarkup k hk) with rfl | rfl
  · have hnone := mem_scriptsOf.2 hmem
    rw [scriptsOf_imports hpart] at hnone
    cases hnone
  · obtain ⟨places, -, hheld⟩ := scripts_in_order hpart
    have hboth : List.Forall₂ (fun (s : InlineScript) c ↦ s.type = "js" ∧ HeldAt d c s) (scriptsOf part) places :=
      (hheld.imp fun c s hc ↦ ⟨hc.type, hc⟩).flip
    obtain ⟨htypes, -⟩ := (List.forall₂_and_left _ _).1 hboth
    exact ⟨htypes s (mem_scriptsOf.2 hmem), scripts_recorded hpart hmem⟩

/-- If every scanner runs once, the scripts stand in the order of the page. -/
theorem scriptsOf_scan (hmarkup : ∀ k ∈ kinds, k.language = .markup) (hnodup : kinds.Nodup)
    (h : d.scan kinds = .ok features) :
    ∃ places, List.Sublist places (Walk.places [] d.root) ∧ List.Forall₂ (HeldAt d) places (scriptsOf features) := by
  obtain ⟨parts, rfl, hparts⟩ := ParsedDocument.exists_parts h
  clear h
  induction kinds generalizing parts with
  | nil =>
    cases parts with
    | nil => exact ⟨[], List.nil_sublist _, .nil⟩
    | cons => cases hparts
  | cons k ks ih =>
    cases parts with
    | nil => cases hparts
    | cons part parts =>
      obtain ⟨hpart, hrest⟩ := List.cons.inj hparts
      rw [List.forall_mem_cons] at hmarkup
      rw [List.nodup_cons] at hnodup
      rw [List.flatten_cons, scriptsOf_append]
      rcases isMarkup_iff.1 hmarkup.1 with rfl | rfl
      · rw [scriptsOf_imports hpart]
        exact ih hmarkup.2 hnodup.2 parts hrest
      · have himports : ∀ k ∈ ks, k = .imports := fun k hk ↦
          (isMarkup_iff.1 (hmarkup.2 k hk)).resolve_right fun hscripts ↦ hnodup.1 (hscripts ▸ hk)
        rw [scriptsOf_parts himports hrest, List.append_nil]
        exact scripts_in_order hpart

end PolymerAnalysis
