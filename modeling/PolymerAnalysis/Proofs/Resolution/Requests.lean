import PolymerAnalysis.Proofs.Resolution.Building

namespace PolymerAnalysis

/-- What is asked of a graph: one feature, the features of a document, or those of a file and all it imports. -/
inductive Request where
  | feature (f : FeatureId)
  | document (i : DocId)
  | features (i : DocId) (kind name : Option Text) (imported : Bool)

namespace Request

def answer (g : Graph) : Request → Memo → List Feature × Memo
  | .feature f, memo => ((g.resolveFeature f memo).1.toList, (g.resolveFeature f memo).2)
  | .document i, memo => g.resolveDocument i memo
  | .features i kind name imported, memo => g.features i kind name imported memo

def asks (g : Graph) : Request → List FeatureId
  | .feature f => [f]
  | .document i => g.localFeatureIds i
  | .features i _ _ imported => g.fileFeatureIds i imported

end Request

namespace Graph

open Relation

variable {g : Graph} {f : FeatureId} {d : Declaration} {requests : List Request} {x : Option Feature}

def memoAfter (g : Graph) (requests : List Request) : Memo :=
  requests.foldl (fun memo request ↦ (request.answer g memo).2) []

/-- Some requests are made one after the other, with nothing resolved before. One of them resolves feature `f` to
`x`. -/
inductive Obtains (g : Graph) (requests : List Request) (f : FeatureId) : Option Feature → Prop
  | intro (earlier later : List Request) (request : Request) (before after : List FeatureId) :
      requests = earlier ++ request :: later → request.asks g = before ++ f :: after →
      Obtains g requests f (g.resolveFeature f (g.resolveAll before (g.memoAfter earlier)).2).1

theorem resolveAll_append (features features' : List FeatureId) (memo : Memo) :
    (g.resolveAll (features ++ features') memo).2 = (g.resolveAll features' (g.resolveAll features memo).2).2 := by
  induction features generalizing memo with
  | nil => rfl
  | cons f fs ih => exact ih _

theorem memo_answer (request : Request) (memo : Memo) :
    (request.answer g memo).2 = (g.resolveAll (request.asks g) memo).2 := by
  cases request <;> rfl

theorem memoAfter_eq (g : Graph) (requests : List Request) :
    g.memoAfter requests = (g.resolveAll (requests.flatMap (·.asks g)) []).2 := by
  have hall (memo : Memo) : requests.foldl (fun memo request ↦ (request.answer g memo).2) memo =
      (g.resolveAll (requests.flatMap (·.asks g)) memo).2 := by
    induction requests generalizing memo with
    | nil => rfl
    | cons request rest ih => rw [List.foldl_cons, ih, memo_answer, List.flatMap_cons, resolveAll_append]
  exact hall []

theorem declaration?_eq_some_iff : g.declaration? f = some d ↔ g.feature? f = some (.declaration d) := by
  cases h : g.feature? f with
  | none => simp [declaration?, h]
  | some feature => cases feature <;> simp [declaration?, h]

theorem exists_mem_of_declaration? (h : g.declaration? f = some d) :
    ∃ document ∈ g.documents, .declaration d ∈ document.features := by
  obtain ⟨document, hdocument, hfeature⟩ := Option.bind_eq_some_iff.1 (declaration?_eq_some_iff.1 h)
  exact ⟨document, List.mem_of_getElem? hdocument, List.mem_of_getElem? hfeature⟩

theorem resolveFeature_of_declaration (hd : g.declaration? f = some d) (memo : Memo) :
    g.resolveFeature f memo =
      (some (.declaration (g.resolveDeclaration f d memo).1), (g.resolveDeclaration f d memo).2) := by
  simp only [resolveFeature, declaration?_eq_some_iff.1 hd]

theorem resolveFeature_of_no_declaration (hd : g.declaration? f = none) (memo : Memo) :
    g.resolveFeature f memo = ((g.resolveFeature f []).1, memo) := by
  cases h : g.feature? f with
  | none => simp only [resolveFeature, h]
  | some feature =>
    cases feature with
    | declaration d =>
      rw [declaration?_eq_some_iff.2 h] at hd
      cases hd
    | space n => simp only [resolveFeature, h]
    | link i => simp only [resolveFeature, h]
    | script s => simp only [resolveFeature, h]

theorem resolveFeature_remembers (f : FeatureId) (memo : Memo) :
    ReflTransGen (g.Remembers []) memo (g.resolveFeature f memo).2 := by
  cases hd : g.declaration? f with
  | some d =>
    rw [resolveFeature_of_declaration hd]
    exact resolveFrom_remembers [] f d memo hd (by simp)
  | none => rw [resolveFeature_of_no_declaration hd]

theorem resolveAll_remembers (features : List FeatureId) (memo : Memo) :
    ReflTransGen (g.Remembers []) memo (g.resolveAll features memo).2 := by
  induction features generalizing memo with
  | nil => exact .refl
  | cons f fs ih => exact (resolveFeature_remembers f memo).trans (ih _)

theorem built_memoAfter (g : Graph) (requests : List Request) : g.Built (g.memoAfter requests) := by
  rw [memoAfter_eq]
  exact resolveAll_remembers _ []

theorem Obtains.lookup_memoAfter (h : g.Obtains requests f x) (hd : g.declaration? f = some d) :
    ∃ r, x = some (.declaration r) ∧ (g.memoAfter requests).lookup f = some r := by
  cases h with
  | intro earlier later request before after hrequests hasks =>
    let memo := (g.resolveAll before (g.memoAfter earlier)).2
    have hafter : g.memoAfter requests =
        (g.resolveAll (after ++ later.flatMap (·.asks g)) (g.resolveFeature f memo).2).2 := by
      rw [memoAfter_eq, hrequests, List.flatMap_append, List.flatMap_cons, hasks, resolveAll_append,
        ← memoAfter_eq, List.append_assoc, resolveAll_append, List.cons_append]
      rfl
    rw [hafter, resolveFeature_of_declaration hd]
    exact ⟨_, rfl, keeps_resolved (resolveAll_remembers _ _) (lookup_resolveFrom g [] f d memo)⟩

theorem Obtains.of_no_declaration (h : g.Obtains requests f x) (hd : g.declaration? f = none) :
    x = (g.resolveFeature f []).1 := by
  cases h with
  | intro earlier later request before after hrequests hasks => rw [resolveFeature_of_no_declaration hd]

theorem obtains_last (requests : List Request) (f : FeatureId) :
    g.Obtains (requests ++ [.feature f]) f (g.resolveFeature f (g.memoAfter requests)).1 :=
  .intro requests [] (.feature f) [] [] rfl rfl

end Graph

end PolymerAnalysis
