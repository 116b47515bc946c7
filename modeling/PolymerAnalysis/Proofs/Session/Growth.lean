import PolymerAnalysis.Proofs.Session.Coherence
import PolymerAnalysis.Proofs.Session.Outcome

namespace PolymerAnalysis

/-- What an analysis may do to the graph while it leaves the documents with `p` alone: the others get warnings
and imports, and new documents are added, none of them inside an older one. -/
structure Graph.Grows (p : DocId → Prop) (g g' : Graph) : Prop where
  size_le : g.size ≤ g'.size
  document? : ∀ {i}, i < g.size → p i → g'.document? i = g.document? i
  container? : ∀ {i}, i < g.size → g'.container? i = g.container? i
  outside : ∀ {i c}, g.size ≤ i → g'.container? i = some c → g.size ≤ c

namespace Graph

variable {p q : DocId → Prop} {g g' g'' : Graph} {i : DocId}

theorem Grows.refl (p : DocId → Prop) (g : Graph) : g.Grows p g where
  size_le := le_rfl
  document? _ _ := rfl
  container? _ := rfl
  outside hi hc := by
    rw [Graph.container?, document?_eq_none hi] at hc
    cases hc

theorem Grows.trans (h : g.Grows p g') (h' : g'.Grows q g'') (hpq : ∀ i < g.size, p i → q i) : g.Grows p g'' where
  size_le := h.size_le.trans h'.size_le
  document? hi hp := (h'.document? (hi.trans_le h.size_le) (hpq _ hi hp)).trans (h.document? hi hp)
  container? hi := (h'.container? (hi.trans_le h.size_le)).trans (h.container? hi)
  outside {i c} hi hc := by
    by_cases hnew : g'.size ≤ i
    · exact h.size_le.trans (h'.outside hnew hc)
    · rw [h'.container? (Nat.lt_of_not_le hnew)] at hc
      exact h.outside hi hc

theorem Grows.inlines_eq (h : g.Grows p g') (hi : i < g.size) : g'.inlines i = g.inlines i := by
  obtain ⟨n, hn⟩ := Nat.exists_eq_add_of_le h.size_le
  have hold : (List.range g.size).filter (fun j ↦ g'.container? j = some i) = g.inlines i := by
    refine List.filter_congr fun j hj ↦ ?_
    rw [h.container? (List.mem_range.1 hj)]
  have hnew : ((List.range n).map (g.size + ·)).filter (fun j ↦ g'.container? j = some i) = [] := by
    refine List.filter_eq_nil_iff.2 fun j hj hc ↦ ?_
    obtain ⟨k, -, rfl⟩ := List.mem_map.1 hj
    exact absurd (h.outside (Nat.le_add_right _ _) (of_decide_eq_true hc)) (Nat.not_le.2 hi)
  rw [inlines, ids, hn, List.range_add, List.filter_append, hold, hnew, List.append_nil]

theorem grows_modify {f : Document → Document} (hf : ∀ d, (f d).container = d.container) :
    g.Grows (· ≠ i) (g.modify i f) where
  size_le := (size_modify g i f).ge
  document? _ hne := by rw [document?_modify, if_neg hne]
  container? _ := container?_modify hf
  outside hj hc := by
    rw [container?_modify hf, Graph.container?, document?_eq_none hj] at hc
    cases hc

theorem Grows.mono (h : g.Grows p g') (hpq : ∀ i < g.size, q i → p i) : g.Grows q g' where
  size_le := h.size_le
  document? hi hq := h.document? hi (hpq _ hi hq)
  container? := h.container?
  outside := h.outside

end Graph

/-- A document of the graph is a file with its scripts, after warnings and imports have come to it. -/
structure Graph.Holds (g : Graph) (i : DocId) (file : ScannedFile) (ws : List Warning) (js : List DocId) : Prop where
  document : g.document? i = some { file.document with warnings := file.document.warnings ++ ws, imports := js }
  inlines : g.inlines i = List.range' (i + 1) file.inlines.length
  inline : ∀ {k d}, file.inlines[k]? = some d →
    g.document? (i + 1 + k) = some { d with container := some i } ∧ g.inlines (i + 1 + k) = []

namespace Graph

variable {p : DocId → Prop} {g g' : Graph} {i j : DocId} {file : ScannedFile} {ws ws' : List Warning} {js js' : List DocId}

theorem Holds.lt_size (h : g.Holds i file ws js) : i < g.size := lt_size_of_document? h.document

theorem Holds.inline_container? (h : g.Holds i file ws js) {k : Nat} {d : Document} (hd : file.inlines[k]? = some d) :
    g.container? (i + 1 + k) = some i := by
  rw [container?, (h.inline hd).1, Option.bind_some, Option.filter_some, if_pos]
  exact decide_eq_true (Nat.lt_of_lt_of_le (Nat.lt_succ_self i) (Nat.le_add_right _ k))

theorem Holds.keep (h : g.Holds i file ws js) (hg : g.Grows p g') (hi : p i)
    (hin : ∀ j, g.container? j = some i → p j) : g'.Holds i file ws js where
  document := (hg.document? h.lt_size hi).trans h.document
  inlines := (hg.inlines_eq h.lt_size).trans h.inlines
  inline {k d} hd := by
    obtain ⟨hdoc, hinner⟩ := h.inline hd
    have hlt := lt_size_of_document? hdoc
    exact ⟨(hg.document? hlt (hin _ (h.inline_container? hd))).trans hdoc, (hg.inlines_eq hlt).trans hinner⟩

theorem Holds.modify {f : Document → Document} (h : g.Holds i file ws js) (hf : ∀ d, (f d).container = d.container)
    (hd : f { file.document with warnings := file.document.warnings ++ ws, imports := js } =
      { file.document with warnings := file.document.warnings ++ ws', imports := js' }) :
    (g.modify i f).Holds i file ws' js' where
  document := by rw [document?_modify, if_pos rfl, h.document, Option.map_some, hd]
  inlines := ((grows_modify hf).inlines_eq h.lt_size).trans h.inlines
  inline {k d} hk := by
    obtain ⟨hdoc, hinner⟩ := h.inline hk
    have hne : i + 1 + k ≠ i := (container?_lt (h.inline_container? hk)).ne'
    have hlt := lt_size_of_document? hdoc
    exact ⟨by rw [document?_modify, if_neg hne, hdoc], ((grows_modify hf).inlines_eq hlt).trans hinner⟩

theorem Holds.addWarnings (h : g.Holds i file ws js) (more : List Warning) :
    (g.addWarnings i more).Holds i file (ws ++ more) js :=
  h.modify (fun _ ↦ rfl) (by rw [List.append_assoc])

theorem Holds.addImport (h : g.Holds i file ws js) (j : DocId) : (g.addImport i j).Holds i file ws (js ++ [j]) :=
  h.modify (fun _ ↦ rfl) rfl

theorem Holds.importsOf_eq (h : g.Holds i file ws js) : g.importsOf i = js := by
  rw [importsOf, h.document]
  rfl

theorem Holds.warningsOf_eq (h : g.Holds i file ws js) : g.warningsOf i = file.document.warnings ++ ws := by
  rw [warningsOf, h.document]
  rfl

theorem locals_of_inlines_eq_nil (h : g.inlines i = []) : g.locals i = [i] := by
  rw [locals]
  simp [h]

theorem Holds.locals_eq (h : g.Holds i file ws js) :
    g.locals i = i :: List.range' (i + 1) file.inlines.length := by
  rw [locals]
  congr 1
  have hsingle : ∀ j ∈ (g.inlines i).attach, g.locals j.1 = [j.1] := by
    rintro ⟨j, hj⟩ -
    rw [h.inlines, List.mem_range'_1] at hj
    obtain ⟨k, rfl⟩ := Nat.exists_eq_add_of_le hj.1
    have hk : k < file.inlines.length := Nat.lt_of_add_lt_add_left hj.2
    exact locals_of_inlines_eq_nil (h.inline (List.getElem?_eq_getElem hk)).2
  rw [List.flatMap_congr hsingle, ← List.map_eq_flatMap, List.attach_map_subtype_val, h.inlines]

theorem Holds.links_eq (h : g.Holds i file ws js) : g.links i = file.links := by
  have hinline : (List.range' (i + 1) file.inlines.length).map
      (fun j ↦ ((g.document? j).map Document.links).getD []) = file.inlines.map Document.links := by
    refine List.ext_getElem? fun k ↦ ?_
    by_cases hk : k < file.inlines.length
    · have hdoc := (h.inline (List.getElem?_eq_getElem hk)).1
      rw [List.getElem?_map, List.getElem?_range' hk, List.getElem?_map, List.getElem?_eq_getElem hk]
      simp only [Option.map_some, Nat.one_mul, hdoc, Option.getD_some]
      rfl
    · simp [hk]
  have hlinks : g.links i = (g.locals i).flatMap fun j ↦ ((g.document? j).map Document.links).getD [] := by
    rw [links]
    refine List.flatMap_congr fun j _ ↦ ?_
    cases g.document? j <;> rfl
  rw [hlinks, h.locals_eq, List.flatMap_cons, h.document, ScannedFile.links, List.flatMap_cons,
    List.flatMap_def, hinline, List.flatMap_def]
  rfl

end Graph

namespace Session

variable {env : Environment} {s : Session} {url : Text} {file : ScannedFile}

section Register

variable {k : Nat}

theorem document?_register_inline {d : Document} (hd : file.inlines[k]? = some d) :
    (s.register url file).2.graph.document? (s.graph.size + 1 + k) =
      some { d with container := some s.graph.size } := by
  rw [Graph.document?, documents_register, Graph.size, Nat.add_assoc,
    List.getElem?_append_right (Nat.le_add_right _ _), Nat.add_sub_cancel_left, Nat.add_comm 1 k,
    List.getElem?_cons_succ, List.getElem?_map, hd]
  rfl

theorem size_register : (s.register url file).2.graph.size = s.graph.size + 1 + file.inlines.length := by
  rw [Graph.size, documents_register, List.length_append, List.length_cons, List.length_map, Graph.size]
  omega

theorem container?_register_new (hfile : file.Fresh url) {i : Nat} (hi : s.graph.size ≤ i) :
    (s.register url file).2.graph.container? i =
      if s.graph.size < i ∧ i < s.graph.size + 1 + file.inlines.length then some s.graph.size else none := by
  rcases Nat.eq_or_lt_of_le hi with rfl | hlt
  · rw [Graph.container?, document?_register_new, if_neg (by omega), Option.bind_some, hfile.container]
    rfl
  · obtain ⟨k, rfl⟩ := Nat.exists_eq_add_of_le (show s.graph.size + 1 ≤ i from hlt)
    rw [Graph.container?]
    by_cases hk : k < file.inlines.length
    · rw [document?_register_inline (List.getElem?_eq_getElem hk), if_pos (by omega), Option.bind_some,
        Option.filter_some, if_pos (by simpa using hlt)]
    · rw [Graph.document?_eq_none (by rw [size_register]; omega), if_neg (by omega)]
      rfl

theorem grows_register (hfile : file.Fresh url) : s.graph.Grows (fun _ ↦ True) (s.register url file).2.graph where
  size_le := size_lt_size_register.le
  document? hi _ := document?_register hi
  container? hi := Graph.container?_congr (document?_register hi)
  outside {i c} hi hc := by
    rw [container?_register_new hfile hi] at hc
    split at hc
    · cases hc
      exact le_rfl
    · cases hc

theorem holds_register (hfile : file.Fresh url) : (s.register url file).2.graph.Holds s.graph.size file [] [] where
  document := by rw [document?_register_new, List.append_nil, ← hfile.imports]
  inlines := by
    have hbefore : (List.range (s.graph.size + 1)).filter
        (fun j ↦ (s.register url file).2.graph.container? j = some s.graph.size) = [] := by
      refine List.filter_eq_nil_iff.2 fun j hj hc ↦ ?_
      have hlt : s.graph.size < j := Graph.container?_lt (of_decide_eq_true hc)
      have hle := List.mem_range.1 hj
      omega
    have hall : (List.range' (s.graph.size + 1) file.inlines.length).filter
        (fun j ↦ (s.register url file).2.graph.container? j = some s.graph.size) =
          List.range' (s.graph.size + 1) file.inlines.length := by
      refine List.filter_eq_self.2 fun j hj ↦ decide_eq_true ?_
      have hj := List.mem_range'_1.1 hj
      rw [container?_register_new hfile (by omega), if_pos (by omega)]
    rw [Graph.inlines, Graph.ids, size_register, List.range_add, List.filter_append, hbefore, List.nil_append,
      ← List.range'_eq_map_range, hall]
  inline {k d} hd := by
    refine ⟨document?_register_inline hd, List.filter_eq_nil_iff.2 fun j hj hc ↦ ?_⟩
    have hc := of_decide_eq_true hc
    have hlt : s.graph.size + 1 + k < j := Graph.container?_lt hc
    rw [container?_register_new hfile (by omega)] at hc
    split at hc
    · have heq : s.graph.size = s.graph.size + 1 + k := Option.some_inj.1 hc
      omega
    · cases hc

end Register

structure Grows (p : DocId → Prop) (s s' : Session) : Prop where
  graph : s.graph.Grows p s'.graph
  cached? : ∀ {u i}, s.cached? u = some i → s'.cached? u = some i

variable {p q : DocId → Prop} {s' s'' : Session}

theorem Grows.refl (p : DocId → Prop) (s : Session) : s.Grows p s := ⟨.refl p s.graph, id⟩

theorem Grows.trans (h : s.Grows p s') (h' : s'.Grows q s'') (hpq : ∀ i < s.graph.size, p i → q i) :
    s.Grows p s'' :=
  ⟨h.graph.trans h'.graph hpq, fun hu ↦ h'.cached? (h.cached? hu)⟩

theorem Grows.mono (h : s.Grows p s') (hpq : ∀ i < s.graph.size, q i → p i) : s.Grows q s' :=
  ⟨h.graph.mono hpq, h.cached?⟩

theorem grows_of_register (hurl : s.cached? url = none) (hfile : env.scanFile url = .ok file) :
    s.Grows (fun _ ↦ True) (s.register url file).2 :=
  ⟨grows_register (ScannedFile.fresh_of_scanFile hfile), (Step.register hurl hfile).keeps_cached⟩

theorem grows_warn (s : Session) (i : DocId) (ws : List Warning) : s.Grows (· ≠ i) (s.warn i ws) :=
  ⟨Graph.grows_modify fun _ ↦ rfl, id⟩

theorem grows_link (s : Session) (i : DocId) (url : Text) (j : DocId) : s.Grows (· ≠ i) (s.link i url j) :=
  ⟨Graph.grows_modify fun _ ↦ rfl, id⟩

end Session

end PolymerAnalysis
