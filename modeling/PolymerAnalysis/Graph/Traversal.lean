import PolymerAnalysis.Graph.Basic

namespace PolymerAnalysis

namespace Graph

/-- Takes documents from a queue until it is empty, and gives each with the documents inside it. Their
imports go to the end of the queue; only a document that is still `unseen` is taken. -/
def breadthFirst (g : Graph) (unseen : List DocId) : List DocId → List DocId
  | [] => []
  | i :: queue =>
    if i ∈ unseen then
      g.locals i ++ breadthFirst g (unseen.erase i) (queue ++ (g.locals i).flatMap g.importsOf)
    else breadthFirst g unseen queue
termination_by queue => (unseen.length, queue.length)
decreasing_by
  · next h =>
    have := List.length_pos_of_mem h
    exact Prod.Lex.left _ _ (by rw [List.length_erase_of_mem h]; omega)
  · exact Prod.Lex.right _ (by simp)

/-- The documents of the file that holds document `i`, and then, if `imported`, those of all files that it
imports directly or through others, nearest first. -/
def reachable (g : Graph) (i : DocId) (imported : Bool) : List DocId :=
  if imported then g.breadthFirst g.ids [g.root i] else g.locals (g.root i)

def files (g : Graph) (i : DocId) (imported : Bool) : List DocId :=
  if imported then (g.reachable i true).filter fun j ↦ !g.isInline j else [g.root i]

def featureIds (g : Graph) (i : DocId) : List FeatureId :=
  (List.range (((g.document? i).map (·.features)).getD []).length).map (⟨i, ·⟩)

def feature? (g : Graph) (f : FeatureId) : Option ScannedFeature :=
  (g.document? f.owner).bind fun d ↦ d.features[f.index]?

def declaration? (g : Graph) (f : FeatureId) : Option Declaration :=
  match g.feature? f with
  | some (.declaration d) => some d
  | _ => none

def localFeatureIds (g : Graph) (i : DocId) : List FeatureId := (g.locals i).flatMap g.featureIds

def allFeatureIds (g : Graph) : List FeatureId := g.ids.flatMap g.featureIds

def answers (g : Graph) (f : FeatureId) (kind name : Text) : Bool :=
  ((g.feature? f).map (·.answers kind name)).getD false

def find? (g : Graph) (i : DocId) (kind name : Text) (imported : Bool) : Option FeatureId :=
  ((g.reachable i imported).flatMap g.featureIds).find? fun f ↦ g.answers f kind name

theorem mem_featureIds {g : Graph} {i : DocId} {f : FeatureId} (h : f ∈ g.featureIds i) :
    f.owner = i ∧ i < g.size := by
  obtain ⟨n, hn, rfl⟩ := List.mem_map.1 h
  refine ⟨rfl, Nat.lt_of_not_le fun hi ↦ ?_⟩
  have hnone : g.document? i = none := List.getElem?_eq_none hi
  simp [hnone] at hn

theorem mem_allFeatureIds_of_mem_featureIds {g : Graph} {i : DocId} {f : FeatureId}
    (h : f ∈ g.featureIds i) : f ∈ g.allFeatureIds :=
  List.mem_flatMap.2 ⟨i, mem_ids.2 (mem_featureIds h).2, h⟩

theorem find?_answers {g : Graph} {i : DocId} {kind name : Text} {imported : Bool} {f : FeatureId}
    (h : g.find? i kind name imported = some f) : g.answers f kind name = true :=
  List.find?_some (p := fun f ↦ g.answers f kind name) h

theorem find?_mem {g : Graph} {i : DocId} {kind name : Text} {imported : Bool} {f : FeatureId}
    (h : g.find? i kind name imported = some f) : f ∈ g.allFeatureIds := by
  obtain ⟨j, _, hj⟩ := List.mem_flatMap.1 (List.mem_of_find?_eq_some h)
  exact mem_allFeatureIds_of_mem_featureIds hj

end Graph

end PolymerAnalysis
