import PolymerAnalysis.Feature.Basic

namespace PolymerAnalysis

/-- A document with what was found in it. An inline document lies in a container. -/
structure Document where
  url : Text
  features : List ScannedFeature := []
  warnings : List Warning := []
  container : Option DocId := none
  imports : List DocId := []

def Document.isInline (d : Document) : Bool := d.container.isSome

/-- Documents that contain and import one another; a container comes before what it contains. -/
structure Graph where
  documents : List Document := []

namespace Graph

def size (g : Graph) : Nat := g.documents.length

def ids (g : Graph) : List DocId := List.range g.size

def document? (g : Graph) (i : DocId) : Option Document := g.documents[i]?

def url (g : Graph) (i : DocId) : Text := ((g.document? i).map (·.url)).getD []

def isInline (g : Graph) (i : DocId) : Bool := ((g.document? i).map (·.isInline)).getD false

def warningsOf (g : Graph) (i : DocId) : List Warning := ((g.document? i).map (·.warnings)).getD []

def importsOf (g : Graph) (i : DocId) : List DocId := ((g.document? i).map (·.imports)).getD []

def container? (g : Graph) (i : DocId) : Option DocId :=
  ((g.document? i).bind (·.container)).filter (· < i)

def inlines (g : Graph) (i : DocId) : List DocId := g.ids.filter fun j ↦ g.container? j = some i

theorem container?_lt {g : Graph} {i c : DocId} (h : g.container? i = some c) : c < i := by
  simpa using (Option.filter_eq_some_iff.1 h).2

theorem mem_ids {g : Graph} {i : DocId} : i ∈ g.ids ↔ i < g.size := List.mem_range

theorem mem_inlines {g : Graph} {i j : DocId} :
    j ∈ g.inlines i ↔ j < g.size ∧ g.container? j = some i := by
  simp [inlines, mem_ids]

theorem size_sub_lt_of_mem_inlines {g : Graph} {i j : DocId} (h : j ∈ g.inlines i) :
    g.size - j < g.size - i := by
  obtain ⟨hj, hc⟩ := mem_inlines.1 h
  exact Nat.sub_lt_sub_left (Nat.lt_trans (container?_lt hc) hj) (container?_lt hc)

def root (g : Graph) (i : DocId) : DocId :=
  match _h : g.container? i with
  | some c => g.root c
  | none => i
termination_by i
decreasing_by exact container?_lt _h

def locals (g : Graph) (i : DocId) : List DocId :=
  i :: (g.inlines i).attach.flatMap fun j ↦ g.locals j.1
termination_by g.size - i
decreasing_by exact size_sub_lt_of_mem_inlines j.2

def add (g : Graph) (d : Document) : Graph := ⟨g.documents ++ [d]⟩

def modify (g : Graph) (i : DocId) (f : Document → Document) : Graph := ⟨g.documents.modify i f⟩

def addImport (g : Graph) (importer imported : DocId) : Graph :=
  g.modify importer fun d ↦ { d with imports := d.imports ++ [imported] }

def addWarnings (g : Graph) (i : DocId) (ws : List Warning) : Graph :=
  g.modify i fun d ↦ { d with warnings := d.warnings ++ ws }

end Graph

end PolymerAnalysis
