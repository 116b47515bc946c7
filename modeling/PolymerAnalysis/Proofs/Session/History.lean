import PolymerAnalysis.Proofs.Session.Invalidation

namespace PolymerAnalysis.Session

open Relation

/-- What a session is asked for; the files of the loader may be others each time. -/
inductive Call where
  | analyze (env : Environment) (urls : List Text)
  | change (urls : List Text)

def Call.run (s : Session) : Call → Session
  | .analyze env urls => (Session.analyze env urls s).2
  | .change urls => (s.filesChanged urls).2

/-- The session after some calls, of which any may have failed. -/
def after (calls : List Call) : Session := calls.foldl Call.run {}

theorem Coherent.run {s : Session} (h : s.Coherent) (call : Call) : (call.run s).Coherent := by
  cases call with
  | analyze env urls => exact h.analyze env urls
  | change urls => exact h.filesChanged urls

theorem coherent_after (calls : List Call) : (after calls).Coherent := by
  have hall (s : Session) (h : s.Coherent) : (calls.foldl Call.run s).Coherent := by
    induction calls generalizing s with
    | nil => exact h
    | cons call rest ih => exact ih (call.run s) (h.run call)
  exact hall {} coherent_empty

theorem Coherent.cached_of_reaches {s : Session} {u : Text} {i j : DocId} (h : s.Coherent)
    (hu : s.cached? u = some i) (hj : ReflTransGen s.graph.Imports i j) : s.cached? (s.graph.url j) = some j := by
  induction hj with
  | refl =>
    rw [(h.placed hu).2.1]
    exact hu
  | tail _ hstep ih => exact h.linked ih (h.imports_iff.1 hstep)

/-- The cache is coherent after any calls, and a change drops exactly what it has to. -/
theorem cache_coherent (calls : List Call) (urls : List Text) :
    (∀ u i, (after calls).cached? u = some i → (after calls).graph.url i = u ∧
      ∀ j, (after calls).graph.Imports i j →
        (after calls).cached? ((after calls).graph.url j) = some j ∧
          u ∈ (after calls).importersOf ((after calls).graph.url j)) ∧
    IsLeast {S | (after calls).ClosedOver urls S} {u | u ∈ ((after calls).filesChanged urls).1} ∧
    (∀ u ∈ ((after calls).filesChanged urls).1, ((after calls).filesChanged urls).2.cached? u = none) ∧
    ∀ u i j, ((after calls).filesChanged urls).2.cached? u = some i →
      ReflTransGen ((after calls).filesChanged urls).2.graph.Imports i j →
        ((after calls).filesChanged urls).2.graph.url j ∉ ((after calls).filesChanged urls).1 := by
  have h := coherent_after calls
  have hdropped : ∀ u ∈ ((after calls).filesChanged urls).1,
      ((after calls).filesChanged urls).2.cached? u = none := by
    intro u hu
    rw [cached?_filesChanged]
    exact if_pos hu
  refine ⟨fun u i hu ↦ ⟨(h.placed hu).2.1, fun j hj ↦ ?_⟩, isLeast_dependents _ urls, hdropped,
    fun u i j hu hj hdrop ↦ ?_⟩
  · have hj := h.imports_iff.1 hj
    exact ⟨h.linked hu hj, (h.recorded u _).2 ⟨i, j, hu, hj, rfl⟩⟩
  · have hcached := (h.filesChanged urls).cached_of_reaches hu hj
    rw [hdropped _ hdrop] at hcached
    cases hcached

end PolymerAnalysis.Session
