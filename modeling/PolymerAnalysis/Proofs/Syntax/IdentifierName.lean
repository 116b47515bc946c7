import PolymerAnalysis.Proofs.Syntax.Evaluation

namespace PolymerAnalysis.Node

open Text

variable {n m : Node} {e : EvalError}

section Identifiers

/-- The name of a member access or a subscript begins with the name of its object. -/
def NamesFirst (n m : Node) : Prop :=
  (n.kind = "member_expression" ∨ n.kind = "subscript_expression") ∧ n.child? "object" = some m

/-- The object of the subscript has a name, but its index breaks off or is an integer without a numeral. -/
def IndexBreaks (n : Node) (e : EvalError) : Prop := n.kind = "subscript_expression" ∧
  (∃ object name, n.child? "object" = some object ∧ object.identifierName = .ok (some name)) ∧
  ∃ index, n.child? "index" = some index ∧ index.kind ≠ "identifier" ∧
    (index.evaluate = .error e ∨ e = .limit .writing ∧ ∃ i, index.evaluate = .ok (.int i) ∧ IsUnwritable i)

theorem objectName_eq (ns : List Node) : objectName ns = identifierName? (ns.find? (·.field = some "object")) := by
  induction ns with
  | nil => rw [objectName]; rfl
  | cons n ns ih =>
    rw [objectName]
    by_cases h : n.field = some "object"
    · simp [h, identifierName?]
    · simp [h, ih]

theorem identifierName_member (h : n.kind = "member_expression") :
    n.identifierName = (fun object ↦ match object, n.child? "property" with
      | some object, some property => some (object ++ "." ++ property.text)
      | _, _ => none) <$> identifierName? (n.child? "object") := by
  cases n
  cases h
  rw [identifierName]
  simp only [objectName_eq, keyKinds, List.mem_cons, String.reduceEq, List.not_mem_nil, or_self, if_false, if_true,
    List.append_assoc, bind_pure_comp]
  rfl

theorem identifierName_subscript (h : n.kind = "subscript_expression") :
    n.identifierName = (do
      let object ← identifierName? (n.child? "object")
      match object, n.child? "index" with
      | some object, some index => (fun segment ↦ segment.map fun s ↦ object ++ "." ++ s) <$> index.indexName
      | _, _ => pure none) := by
  cases n
  cases h
  rw [identifierName]
  simp only [objectName_eq, keyKinds, List.mem_cons, String.reduceEq, List.not_mem_nil, or_self, if_false, if_true,
    List.append_assoc, bind_pure_comp]
  rfl

theorem exists_identifierName (h : n.kind ≠ "member_expression") (h' : n.kind ≠ "subscript_expression") :
    ∃ o, n.identifierName = .ok o := by
  cases n
  simp only [kind] at h h'
  rw [identifierName]
  simp only [h, h', if_false]
  split_ifs <;> exact ⟨_, rfl⟩

theorem identifierName?_eq_error_iff {o : Option Node} :
    identifierName? o = .error e ↔ ∃ m, o = some m ∧ m.identifierName = .error e := by
  cases o with
  | none => simp [identifierName?]
  | some m => simp [identifierName?]

theorem exists_of_identifierName? {o : Option Node} {name : Text} (h : identifierName? o = .ok (some name)) :
    ∃ object name, o = some object ∧ object.identifierName = .ok (some name) := by
  cases o with
  | none => cases h
  | some object => exact ⟨object, name, rfl, h⟩

theorem indexName_eq_error_iff : n.indexName = .error e ↔ n.kind ≠ "identifier" ∧
    (n.evaluate = .error e ∨ e = .limit .writing ∧ ∃ i, n.evaluate = .ok (.int i) ∧ IsUnwritable i) := by
  rw [indexName]
  by_cases h : n.kind = "identifier"
  · simp [h]
  rw [if_neg h, bind_eq_error_iff]
  refine Iff.trans (or_congr Iff.rfl ?_) (and_iff_right h).symm
  constructor
  · rintro ⟨v, hv, hbreaks⟩
    cases v with
    | int i =>
      obtain ⟨he, hlong⟩ := written_eq_error_iff.1 hbreaks
      exact ⟨he, i, hv, hlong⟩
    | null | bool | float | text | list | dict | unevaluated => cases hbreaks
  · rintro ⟨he, i, hv, hlong⟩
    exact ⟨_, hv, written_eq_error_iff.2 ⟨he, hlong⟩⟩

theorem identifierName_eq_error_iff :
    n.identifierName = .error e ↔ n.IndexBreaks e ∨ ∃ m, n.NamesFirst m ∧ m.identifierName = .error e := by
  by_cases hmember : n.kind = "member_expression"
  · rw [identifierName_member hmember, map_eq_error_iff, identifierName?_eq_error_iff]
    simp [NamesFirst, IndexBreaks, hmember]
  by_cases hsubscript : n.kind = "subscript_expression"
  · rw [identifierName_subscript hsubscript, bind_eq_error_iff, identifierName?_eq_error_iff, or_comm]
    simp only [NamesFirst, IndexBreaks, hsubscript, or_true, true_and]
    refine or_congr ?_ Iff.rfl
    constructor
    · rintro ⟨o, ho, h⟩
      cases o with
      | none => cases h
      | some name =>
        cases hindex : n.child? "index" with
        | none =>
          simp only [hindex] at h
          cases h
        | some index =>
          simp only [hindex] at h
          obtain ⟨hkind, hbreaks⟩ := indexName_eq_error_iff.1 (map_eq_error_iff.1 h)
          exact ⟨exists_of_identifierName? ho, index, rfl, hkind, hbreaks⟩
    · rintro ⟨⟨object, name, hobject, hname⟩, index, hindex, hbreaks⟩
      refine ⟨some name, by rw [hobject]; exact hname, ?_⟩
      simp only [hindex]
      exact map_eq_error_iff.2 (indexName_eq_error_iff.2 hbreaks)
  · obtain ⟨o, ho⟩ := exists_identifierName hmember hsubscript
    simp [NamesFirst, IndexBreaks, hmember, hsubscript, ho]

theorem NamesFirst.sizeOf_lt (h : n.NamesFirst m) : sizeOf m < sizeOf n := sizeOf_lt_of_mem (mem_children_of_child? h.2)

theorem identifierName_run :
    n.identifierName = .error e ↔ ∃ m, Relation.ReflTransGen NamesFirst n m ∧ m.IndexBreaks e :=
  run_of_step (fun _ ↦ identifierName_eq_error_iff) (fun _ _ h ↦ h.sizeOf_lt) n

end Identifiers

/-- Evaluating an expression breaks off just where it gets to a string with an escape beyond all character codes, to an
operator with numbers beyond all floats, or to a key without a name. A key has none just if it is such a string or a
computed integer that is too long, and a dotted name breaks off just at an index that breaks off or is too long. -/
theorem evaluation_breaks_iff (n : Node) (e : EvalError) :
    (n.evaluate = .error e ↔ ∃ m, Relation.ReflTransGen Needs n m ∧ m.BreaksAt e) ∧
      (n.keyName = .error e ↔ n.KeyBreaks e) ∧
      (n.identifierName = .error e ↔ ∃ m, Relation.ReflTransGen NamesFirst n m ∧ m.IndexBreaks e) :=
  ⟨evaluate_run, keyName_eq_error_iff, identifierName_run⟩

def oversized : Node :=
  .mk "string" none true false 0 14 "'\\u\x7b80000000\x7d'" [
    .mk "'" none false false 0 1 "'" [],
    .mk "escape_sequence" none true false 1 13 "\\u\x7b80000000\x7d" [],
    .mk "'" none false false 13 14 "'" []]

theorem oversized_breaks : (∀ n ∈ oversized.preorder, n.isFault = false) ∧ oversized.evaluate = .error .overflow ∧
    oversized.keyName = .error .overflow := by
  refine ⟨by decide, by cbv, by cbv⟩

end PolymerAnalysis.Node
