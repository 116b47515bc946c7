import PolymerAnalysis.Proofs.Value.Written

namespace PolymerAnalysis

open Text

namespace Value

variable {v w : Value} {xs : List Value} {es : List (Text × Value)}

inductive Occurs (w : Value) : Value → Prop
  | self : Occurs w w
  | item {x : Value} {xs : List Value} : x ∈ xs → Occurs w x → Occurs w (.list xs)
  | entry {e : Text × Value} {es : List (Text × Value)} : e ∈ es → Occurs w e.2 → Occurs w (.dict es)

/-- No part of an evaluated value is unevaluated. -/
theorem IsEvaluated.of_occurs (hv : v.IsEvaluated) (h : w.Occurs v) : w.IsEvaluated := by
  induction h with
  | self => exact hv
  | item hx _ ih =>
    cases hv with
    | list hxs => exact ih (hxs _ hx)
  | entry he _ ih =>
    cases hv with
    | dict _ hes => exact ih (hes _ he)

def BreaksAt (v : Value) (e : Numeral.LimitError) : Prop := ∃ n, (Value.int n).Occurs v ∧ Numeral.write n = .error e

theorem toJsonItems_cases (h : ∀ x ∈ xs, (∃ j, x.toJson = .ok j) ∨ ∃ e, x.BreaksAt e ∧ x.toJson = .error (.limit e)) :
    (∃ js, toJsonItems xs = .ok js) ∨ ∃ e, (∃ x ∈ xs, x.BreaksAt e) ∧ toJsonItems xs = .error (.limit e) := by
  induction xs with
  | nil => exact .inl ⟨[], rfl⟩
  | cons x xs ih =>
    rw [List.forall_mem_cons] at h
    rcases h.1 with ⟨j, hj⟩ | ⟨e, hbreaks, he⟩
    · rcases ih h.2 with ⟨js, hjs⟩ | ⟨e, ⟨y, hy, hbreaks⟩, he⟩
      · exact .inl ⟨j :: js, by rw [toJsonItems, hj, hjs]; rfl⟩
      · exact .inr ⟨e, ⟨y, List.mem_cons_of_mem x hy, hbreaks⟩, by rw [toJsonItems, hj, he]; rfl⟩
    · exact .inr ⟨e, ⟨x, List.mem_cons_self, hbreaks⟩, by rw [toJsonItems, he]; rfl⟩

theorem toJsonEntries_cases
    (h : ∀ p ∈ es, (∃ j, p.2.toJson = .ok j) ∨ ∃ e, p.2.BreaksAt e ∧ p.2.toJson = .error (.limit e)) :
    (∃ ds, toJsonEntries es = .ok ds) ∨ ∃ e, (∃ p ∈ es, p.2.BreaksAt e) ∧ toJsonEntries es = .error (.limit e) := by
  induction es with
  | nil => exact .inl ⟨[], rfl⟩
  | cons p es ih =>
    obtain ⟨k, x⟩ := p
    rw [List.forall_mem_cons] at h
    rcases h.1 with ⟨j, hj⟩ | ⟨e, hbreaks, he⟩
    · rcases ih h.2 with ⟨ds, hds⟩ | ⟨e, ⟨q, hq, hbreaks⟩, he⟩
      · exact .inl ⟨(k, j) :: ds, by simp only [toJsonEntries, hj, hds]; rfl⟩
      · exact .inr ⟨e, ⟨q, List.mem_cons_of_mem _ hq, hbreaks⟩, by simp only [toJsonEntries, hj, he]; rfl⟩
    · exact .inr ⟨e, ⟨(k, x), List.mem_cons_self, hbreaks⟩, by simp only [toJsonEntries, he]; rfl⟩

theorem IsEvaluated.toJson_cases (hv : v.IsEvaluated) :
    (∃ j, v.toJson = .ok j) ∨ ∃ e, v.BreaksAt e ∧ v.toJson = .error (.limit e) := by
  induction hv with
  | int n =>
    cases hn : Numeral.write n with
    | ok t => exact .inl ⟨.int n, by rw [toJson, hn]⟩
    | error e => exact .inr ⟨e, ⟨n, .self, hn⟩, by rw [toJson, hn]⟩
  | list _ ih =>
    rcases toJsonItems_cases ih with ⟨js, hjs⟩ | ⟨e, ⟨x, hx, n, hn, hlimit⟩, he⟩
    · exact .inl ⟨.array js, by rw [toJson, hjs]; rfl⟩
    · exact .inr ⟨e, ⟨n, .item hx hn, hlimit⟩, by rw [toJson, he]; rfl⟩
  | dict _ _ ih =>
    rcases toJsonEntries_cases ih with ⟨ds, hds⟩ | ⟨e, ⟨p, hp, n, hn, hlimit⟩, he⟩
    · exact .inl ⟨.object ds, by rw [toJson, hds]; rfl⟩
    · exact .inr ⟨e, ⟨n, .entry hp hn, hlimit⟩, by rw [toJson, he]; rfl⟩
  | null | bool | float | text => exact .inl ⟨_, rfl⟩

theorem IsEvaluated.written_eq (hv : v.IsEvaluated) : v.written = v.toJson.map Json.write := by
  cases hv with
  | null | bool | int | float | text | list | dict => rfl

end Value

theorem Node.evaluate_cases {n : Node} {v : Value} (h : n.evaluate = .ok v) :
    v.isUnevaluated = true ∨ v.IsEvaluated := by
  cases hknown : v.isUnevaluated with
  | true => exact .inl rfl
  | false => exact .inr (HasValue.isEvaluated ⟨h, hknown⟩)

end PolymerAnalysis
