import PolymerAnalysis.Proofs.Graph.Updates
import PolymerAnalysis.Proofs.Session.Steps
import Mathlib.Data.Nat.Basic
import Mathlib.Order.Basic

namespace PolymerAnalysis.Session

open Relation

variable {env : Environment} {s s' : Session}

/-- What holds of the cache, the imports of its documents, and the importers that are noted for every address. -/
structure Coherent (s : Session) : Prop where
  placed : ∀ {u i}, s.cached? u = some i → i < s.graph.size ∧ s.graph.url i = u ∧ s.graph.container? i = none
  roots : ∀ {k j}, j ∈ s.graph.importsOf k → s.graph.container? k = none
  linked : ∀ {u i j}, s.cached? u = some i → j ∈ s.graph.importsOf i → s.cached? (s.graph.url j) = some j
  recorded : ∀ u v, u ∈ s.importersOf v ↔ ∃ i j, s.cached? u = some i ∧ j ∈ s.graph.importsOf i ∧ s.graph.url j = v

theorem Coherent.imports_iff (h : s.Coherent) {i j : DocId} : s.graph.Imports i j ↔ j ∈ s.graph.importsOf i := by
  constructor
  · rintro ⟨k, hk, hj⟩
    rcases Graph.eq_or_container?_of_mem_locals s.graph i hk with rfl | ⟨c, hc⟩
    · exact hj
    · rw [h.roots hj] at hc
      cases hc
  · exact fun hj ↦ ⟨i, s.graph.mem_locals_self i, hj⟩

theorem coherent_empty : Coherent {} where
  placed := fun h ↦ by cases h
  roots := fun h ↦ by cases h
  linked := fun h ↦ by cases h
  recorded := fun u v ↦ by simp [importersOf, cached?]

section Register

variable {url : Text} {file : ScannedFile}

theorem documents_foldl_add (g : Graph) (f : Document → Document) (ds : List Document) :
    (ds.foldl (fun g d ↦ g.add (f d)) g).documents = g.documents ++ ds.map f := by
  induction ds generalizing g with
  | nil => simp
  | cons d ds ih => rw [List.foldl_cons, ih, Graph.add, List.append_assoc, List.map_cons, List.singleton_append]

theorem documents_register (s : Session) (url : Text) (file : ScannedFile) :
    (s.register url file).2.graph.documents = s.graph.documents ++
      file.document :: file.inlines.map fun d ↦ { d with container := some s.graph.size } := by
  have h := documents_foldl_add (s.graph.add file.document)
    (fun d ↦ { d with container := some s.graph.size }) file.inlines
  rw [Graph.add, List.append_assoc, List.singleton_append] at h
  exact h

theorem document?_register {i : DocId} (hi : i < s.graph.size) :
    (s.register url file).2.graph.document? i = s.graph.document? i := by
  rw [Graph.document?, Graph.document?, documents_register]
  exact List.getElem?_append_left hi

theorem document?_register_new :
    (s.register url file).2.graph.document? s.graph.size = some file.document := by
  rw [Graph.document?, documents_register, Graph.size, List.getElem?_append_right le_rfl, Nat.sub_self]
  rfl

theorem size_lt_size_register : s.graph.size < (s.register url file).2.graph.size := by
  rw [Graph.size, Graph.size, documents_register, List.length_append, List.length_cons]
  omega

theorem importsOf_register (hfile : file.Fresh url) (i : DocId) :
    (s.register url file).2.graph.importsOf i = s.graph.importsOf i := by
  by_cases hi : i < s.graph.size
  · exact Graph.importsOf_congr (document?_register hi)
  · rw [Graph.importsOf_eq_nil (Nat.le_of_not_lt hi), Graph.importsOf]
    cases hd : (s.register url file).2.graph.document? i with
    | none => rfl
    | some d =>
      rw [Graph.document?, documents_register, List.getElem?_append_right (Nat.le_of_not_lt hi)] at hd
      rcases List.mem_cons.1 (List.mem_of_getElem? hd) with rfl | hmem
      · exact hfile.imports
      · obtain ⟨inline, hinline, rfl⟩ := List.mem_map.1 hmem
        exact hfile.inlines inline hinline

theorem cached_of_register {u : Text} {i j : DocId} (hfile : file.Fresh url)
    (hu : (s.register url file).2.cached? u = some i) (hj : j ∈ (s.register url file).2.graph.importsOf i) :
    s.cached? u = some i ∧ j ∈ s.graph.importsOf i := by
  rw [importsOf_register hfile] at hj
  rw [cached?_register] at hu
  split at hu
  · cases hu
    rw [Graph.importsOf_eq_nil le_rfl] at hj
    cases hj
  · exact ⟨hu, hj⟩

theorem Coherent.register (h : s.Coherent) (hurl : s.cached? url = none) (hfile : file.Fresh url) :
    (s.register url file).2.Coherent := by
  have hkeep {u : Text} {i : DocId} (hu : s.cached? u = some i) :
      (s.register url file).2.cached? u = some i ∧ (s.register url file).2.graph.url i = u := by
    have hne : u ≠ url := by
      rintro rfl
      rw [hurl] at hu
      cases hu
    obtain ⟨hi, hui, -⟩ := h.placed hu
    rw [cached?_register, if_neg hne, Graph.url_congr (document?_register hi)]
    exact ⟨hu, hui⟩
  constructor
  · intro u i hu
    rw [cached?_register] at hu
    split at hu
    · next heq =>
      cases hu
      refine ⟨size_lt_size_register, ?_, ?_⟩
      · rw [Graph.url, document?_register_new, heq]
        exact hfile.url
      · rw [Graph.container?, document?_register_new, Option.bind_some, hfile.container]
        rfl
    · obtain ⟨hi, hui, hc⟩ := h.placed hu
      rw [Graph.url_congr (document?_register hi), Graph.container?_congr (document?_register hi)]
      exact ⟨hi.trans size_lt_size_register, hui, hc⟩
  · intro k j hj
    rw [importsOf_register hfile] at hj
    rw [Graph.container?_congr (document?_register (Graph.lt_size_of_mem_importsOf hj))]
    exact h.roots hj
  · intro u i j hu hj
    obtain ⟨hu, hj⟩ := cached_of_register hfile hu hj
    have hlinked := h.linked hu hj
    rw [(hkeep hlinked).2]
    exact (hkeep hlinked).1
  · intro u v
    refine (h.recorded u v).trans ⟨?_, ?_⟩
    · rintro ⟨i, j, hu, hj, rfl⟩
      exact ⟨i, j, (hkeep hu).1, by rwa [importsOf_register hfile], (hkeep (h.linked hu hj)).2⟩
    · rintro ⟨i, j, hu, hj, rfl⟩
      obtain ⟨hu, hj⟩ := cached_of_register hfile hu hj
      exact ⟨i, j, hu, hj, (hkeep (h.linked hu hj)).2.symm⟩

end Register

section

variable (i : DocId) (ws : List Warning) (url u : Text) (imported : DocId)

@[simp] theorem graph_warn : (s.warn i ws).graph = s.graph.addWarnings i ws := rfl

@[simp] theorem cached?_warn : (s.warn i ws).cached? u = s.cached? u := rfl

@[simp] theorem importersOf_warn : (s.warn i ws).importersOf u = s.importersOf u := rfl

@[simp] theorem graph_link : (s.link i url imported).graph = s.graph.addImport i imported := rfl

@[simp] theorem cached?_link : (s.link i url imported).cached? u = s.cached? u := rfl

theorem mem_importersOf_link {v : Text} :
    v ∈ (s.link i url imported).importersOf u ↔ v ∈ s.importersOf u ∨ v = s.graph.url i ∧ u = url := by
  rw [importersOf, link, Keyed.lookup_put]
  split
  · next h =>
    subst h
    rw [Option.getD_some, Keyed.addNew]
    split
    · next hmem =>
      constructor
      · exact .inl
      · rintro (hv | ⟨rfl, -⟩)
        · exact hv
        · exact hmem
    · simp
  · next h => simp [importersOf, h]

end

theorem Coherent.warn (h : s.Coherent) (i : DocId) (ws : List Warning) : (s.warn i ws).Coherent where
  placed := fun hu ↦ by simpa using h.placed hu
  roots := fun hj ↦ by simpa using h.roots (by simpa using hj)
  linked := fun hu hj ↦ by simpa using h.linked hu (by simpa using hj)
  recorded := fun u v ↦ by simpa using h.recorded u v

theorem Coherent.link {importerUrl url : Text} {importer imported : DocId} (h : s.Coherent)
    (hfrom : s.cached? importerUrl = some importer) (hto : s.cached? url = some imported) :
    (s.link importer url imported).Coherent := by
  obtain ⟨hi, hurl, hroot⟩ := h.placed hfrom
  have hmem {k j : DocId} : j ∈ (s.link importer url imported).graph.importsOf k ↔
      j ∈ s.graph.importsOf k ∨ k = importer ∧ j = imported := by
    rw [graph_link, Graph.importsOf_addImport importer imported hi]
    split
    · next hk => simp [hk]
    · next hk => simp [hk]
  constructor
  · intro u i hu
    simpa using h.placed hu
  · intro k j hj
    rw [graph_link, Graph.container?_addImport]
    rcases hmem.1 hj with hj | ⟨rfl, -⟩
    · exact h.roots hj
    · exact hroot
  · intro u i j hu hj
    rw [graph_link, Graph.url_addImport, cached?_link]
    rcases hmem.1 hj with hj | ⟨-, rfl⟩
    · exact h.linked hu hj
    · rw [(h.placed hto).2.1]
      exact hto
  · intro u v
    rw [mem_importersOf_link, hurl, h.recorded]
    constructor
    · rintro (⟨i, j, hu, hj, rfl⟩ | ⟨rfl, rfl⟩)
      · exact ⟨i, j, hu, hmem.2 (.inl hj), Graph.url_addImport importer imported⟩
      · exact ⟨importer, imported, hfrom, hmem.2 (.inr ⟨rfl, rfl⟩), by simpa using (h.placed hto).2.1⟩
    · rintro ⟨i, j, hu, hj, rfl⟩
      rw [graph_link, Graph.url_addImport]
      rcases hmem.1 hj with hj | ⟨rfl, rfl⟩
      · exact .inl ⟨i, j, hu, hj, rfl⟩
      · exact .inr ⟨(h.placed hu).2.1.symm.trans hurl, (h.placed hto).2.1⟩

theorem Coherent.step (h : s.Coherent) (hstep : Step env s s') : s'.Coherent := by
  cases hstep with
  | register hurl hscan => exact h.register hurl (ScannedFile.fresh_of_scanFile hscan)
  | warn i ws => exact h.warn i ws
  | link hfrom hto => exact h.link hfrom hto

theorem Coherent.steps (h : s.Coherent) (hsteps : ReflTransGen (Step env) s s') : s'.Coherent := by
  induction hsteps with
  | refl => exact h
  | tail _ hstep ih => exact ih.step hstep

theorem Coherent.analyze (h : s.Coherent) (env : Environment) (urls : List Text) :
    (Session.analyze env urls s).2.Coherent := h.steps (analyze_steps env urls s)

end PolymerAnalysis.Session
