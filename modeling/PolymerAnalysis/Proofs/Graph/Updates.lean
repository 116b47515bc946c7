import PolymerAnalysis.Graph.Basic

namespace PolymerAnalysis

namespace Graph

variable {g g' : Graph} {i k : DocId}

theorem eq_or_container?_of_mem_locals (g : Graph) (i : DocId) (h : k ∈ g.locals i) :
    k = i ∨ ∃ c, g.container? k = some c := by
  rw [locals] at h
  rcases List.mem_cons.1 h with rfl | h
  · exact .inl rfl
  · obtain ⟨⟨j, hj⟩, -, hk⟩ := List.mem_flatMap.1 h
    rcases eq_or_container?_of_mem_locals g j hk with rfl | hc
    · exact .inr ⟨i, (mem_inlines.1 hj).2⟩
    · exact .inr hc
termination_by g.size - i
decreasing_by exact size_sub_lt_of_mem_inlines hj

theorem mem_locals_self (g : Graph) (i : DocId) : i ∈ g.locals i := by
  rw [locals]
  exact List.mem_cons_self

/-- Document `i`, or one inside it, imports document `j`. -/
def Imports (g : Graph) (i j : DocId) : Prop := ∃ k ∈ g.locals i, j ∈ g.importsOf k

theorem url_congr (h : g'.document? i = g.document? i) : g'.url i = g.url i := by rw [url, url, h]

theorem container?_congr (h : g'.document? i = g.document? i) : g'.container? i = g.container? i := by
  rw [container?, container?, h]

theorem importsOf_congr (h : g'.document? i = g.document? i) : g'.importsOf i = g.importsOf i := by
  rw [importsOf, importsOf, h]

theorem document?_eq_none (h : g.size ≤ i) : g.document? i = none := List.getElem?_eq_none h

theorem lt_size_of_document? {d : Document} (h : g.document? i = some d) : i < g.size := by
  refine Nat.lt_of_not_le fun hi ↦ ?_
  rw [document?_eq_none hi] at h
  cases h

theorem importsOf_eq_nil (h : g.size ≤ i) : g.importsOf i = [] := by
  rw [importsOf, document?_eq_none h]
  rfl

theorem lt_size_of_mem_importsOf {j : DocId} (h : j ∈ g.importsOf i) : i < g.size := by
  refine Nat.lt_of_not_le fun hi ↦ ?_
  rw [importsOf_eq_nil hi] at h
  cases h

theorem document?_modify (g : Graph) (i : DocId) (f : Document → Document) (k : DocId) :
    (g.modify i f).document? k = if k = i then (g.document? k).map f else g.document? k := by
  rw [modify, document?, document?, List.getElem?_modify]
  by_cases h : i = k
  · simp [h]
  · simp [h, Ne.symm h]

theorem size_modify (g : Graph) (i : DocId) (f : Document → Document) : (g.modify i f).size = g.size :=
  List.length_modify ..

theorem url_modify {f : Document → Document} (hf : ∀ d, (f d).url = d.url) :
    (g.modify i f).url k = g.url k := by
  rw [url, url, document?_modify]
  split
  · cases g.document? k <;> simp [hf]
  · rfl

theorem container?_modify {f : Document → Document} (hf : ∀ d, (f d).container = d.container) :
    (g.modify i f).container? k = g.container? k := by
  rw [container?, container?, document?_modify]
  split
  · cases g.document? k <;> simp [hf]
  · rfl

section

variable (importer imported : DocId) (ws : List Warning)

@[simp] theorem size_addImport : (g.addImport importer imported).size = g.size := size_modify ..

@[simp] theorem size_addWarnings : (g.addWarnings i ws).size = g.size := size_modify ..

@[simp] theorem url_addImport : (g.addImport importer imported).url k = g.url k := url_modify fun _ ↦ rfl

@[simp] theorem url_addWarnings : (g.addWarnings i ws).url k = g.url k := url_modify fun _ ↦ rfl

@[simp] theorem container?_addImport : (g.addImport importer imported).container? k = g.container? k :=
  container?_modify fun _ ↦ rfl

@[simp] theorem container?_addWarnings : (g.addWarnings i ws).container? k = g.container? k :=
  container?_modify fun _ ↦ rfl

theorem importsOf_addImport (hi : importer < g.size) :
    (g.addImport importer imported).importsOf k =
      if k = importer then g.importsOf k ++ [imported] else g.importsOf k := by
  rw [addImport, importsOf, importsOf, document?_modify]
  split
  · next h =>
    subst h
    obtain ⟨d, hd⟩ : ∃ d, g.document? k = some d := ⟨_, List.getElem?_eq_getElem hi⟩
    simp [hd]
  · rfl

@[simp] theorem importsOf_addWarnings : (g.addWarnings i ws).importsOf k = g.importsOf k := by
  rw [addWarnings, importsOf, importsOf, document?_modify]
  split
  · cases g.document? k <;> simp
  · rfl

end

end Graph

end PolymerAnalysis
