import PolymerAnalysis.Proofs.Graph.Isomorphism
import PolymerAnalysis.Proofs.Session.UpToDate

namespace PolymerAnalysis.Session

variable {env : Environment} {s t : Session} {u : Text} {i j k k' : DocId} {file : ScannedFile}
  {done : List ImportFeature} {us : List Text} {is js : List DocId}

def Corresponds (env : Environment) (s t : Session) (k k' : DocId) : Prop :=
  ∃ u i j file, Progress env s u i file (env.followed file) ∧ Progress env t u j file (env.followed file) ∧
    ∃ m ≤ file.inlines.length, k = i + m ∧ k' = j + m

theorem Corresponds.symm (h : Corresponds env s t k k') : Corresponds env t s k' k := by
  obtain ⟨u, i, j, file, hi, hj, m, hm, hk, hk'⟩ := h
  exact ⟨u, j, i, file, hj, hi, m, hm, hk', hk⟩

theorem Progress.container?_add (h : Progress env s u i file done) (hs : s.Coherent) {m : Nat}
    (hm : m ≤ file.inlines.length) : s.graph.container? (i + m) = if m = 0 then none else some i := by
  cases m with
  | zero => exact (hs.placed h.cached).2.2
  | succ m =>
    obtain ⟨js, hholds, -⟩ := h.holds
    have hplace : i + (m + 1) = i + 1 + m := by rw [Nat.add_right_comm, Nat.add_assoc]
    rw [hplace, if_neg (Nat.succ_ne_zero m)]
    exact hholds.inline_container? (List.getElem?_eq_getElem hm)

/-- The place of a document tells its file and its position there. -/
theorem Corresponds.unique (hs : s.Coherent) {k₁ k₂ : DocId} (h₁ : Corresponds env s t k k₁)
    (h₂ : Corresponds env s t k k₂) : k₁ = k₂ := by
  obtain ⟨u₁, i₁, j₁, file₁, hi₁, hj₁, m₁, hm₁, hk₁, rfl⟩ := h₁
  obtain ⟨u₂, i₂, j₂, file₂, hi₂, hj₂, m₂, hm₂, hk₂, rfl⟩ := h₂
  have hc₁ := hi₁.container?_add hs hm₁
  have hc₂ := hi₂.container?_add hs hm₂
  rw [← hk₁] at hc₁
  rw [← hk₂] at hc₂
  have hplace : i₁ = i₂ ∧ m₁ = m₂ := by
    have hc := hc₁.symm.trans hc₂
    split at hc <;> split at hc
    · next hm₁ hm₂ =>
      subst hm₁ hm₂
      exact ⟨hk₁.symm.trans hk₂, rfl⟩
    · cases hc
    · cases hc
    · cases hc
      exact ⟨rfl, Nat.add_left_cancel (hk₁.symm.trans hk₂)⟩
  obtain ⟨rfl, rfl⟩ := hplace
  obtain rfl : u₁ = u₂ := (hs.placed hi₁.cached).2.1.symm.trans (hs.placed hi₂.cached).2.1
  rw [Option.some_inj.1 (hj₁.cached.symm.trans hj₂.cached)]

theorem Corresponds.inlines (h : Corresponds env s t k k') :
    List.Forall₂ (Corresponds env s t) (s.graph.inlines k) (t.graph.inlines k') := by
  obtain ⟨u, i, j, file, hi, hj, m, hm, rfl, rfl⟩ := h
  obtain ⟨is, hholds, -⟩ := hi.holds
  obtain ⟨js, hholds', -⟩ := hj.holds
  cases m with
  | zero =>
    rw [Nat.add_zero, Nat.add_zero, hholds.inlines, hholds'.inlines, List.range'_eq_map_range,
      List.range'_eq_map_range, List.forall₂_map_left_iff, List.forall₂_map_right_iff, List.forall₂_same]
    intro m hm
    exact ⟨u, i, j, file, hi, hj, m + 1, List.mem_range.1 hm, by rw [Nat.add_assoc, Nat.add_comm 1],
      by rw [Nat.add_assoc, Nat.add_comm 1]⟩
  | succ m =>
    obtain ⟨d, hd⟩ : ∃ d, file.inlines[m]? = some d := ⟨_, List.getElem?_eq_getElem hm⟩
    rw [← Nat.add_assoc, ← Nat.add_assoc, Nat.add_right_comm, Nat.add_right_comm j, (hholds.inline hd).2,
      (hholds'.inline hd).2]
    exact .nil

section Match

variable (hs : UpToDate env s) (ht : UpToDate env t)
include hs ht

theorem corresponds_of_cached (hi : s.cached? u = some i) (hj : t.cached? u = some j) : Corresponds env s t i j := by
  obtain ⟨file, hfile, -⟩ := hs.complete hi
  obtain ⟨file', hfile', -⟩ := ht.complete hj
  cases hfile.scanned.symm.trans hfile'.scanned
  exact ⟨u, i, j, file, hfile, hfile', 0, Nat.zero_le _, rfl, rfl⟩

theorem forall₂_corresponds (his : is.map some = us.map s.cached?) (hjs : js.map some = us.map t.cached?) :
    List.Forall₂ (Corresponds env s t) is js := by
  induction us generalizing is js with
  | nil =>
    rw [List.map_nil, List.map_eq_nil_iff] at his hjs
    rw [his, hjs]
    exact .nil
  | cons u us ih =>
    cases is with
    | nil => cases his
    | cons i is =>
      cases js with
      | nil => cases hjs
      | cons j js =>
        rw [List.map_cons, List.map_cons, List.cons_eq_cons] at his hjs
        exact .cons (corresponds_of_cached hs ht his.1.symm hjs.1.symm) (ih his.2 hjs.2)

theorem Corresponds.document? (h : Corresponds env s t k k') : ∃ d d', s.graph.document? k = some d ∧
    t.graph.document? k' = some d' ∧ d.Alike (Corresponds env s t) d' := by
  obtain ⟨u, i, j, file, hi, hj, m, hm, rfl, rfl⟩ := h
  have hfresh := ScannedFile.fresh_of_scanFile hi.scanned
  obtain ⟨is, hholds, his⟩ := hi.holds
  obtain ⟨js, hholds', hjs⟩ := hj.holds
  cases m with
  | zero =>
    refine ⟨_, _, hholds.document, hholds'.document, rfl, rfl, rfl, ?_, forall₂_corresponds hs ht his hjs⟩
    simp only [hfresh.container]
    exact .none
  | succ m =>
    obtain ⟨d, hd⟩ : ∃ d, file.inlines[m]? = some d := ⟨_, List.getElem?_eq_getElem hm⟩
    rw [← Nat.add_assoc, ← Nat.add_assoc, Nat.add_right_comm, Nat.add_right_comm j]
    refine ⟨_, _, (hholds.inline hd).1, (hholds'.inline hd).1, rfl, rfl, rfl,
      .some (corresponds_of_cached hs ht hi.cached hj.cached), ?_⟩
    simp only [hfresh.inlines d (List.mem_of_getElem? hd)]
    exact .nil

/-- Two sessions that are up to date with the same files match. -/
theorem UpToDate.matching : Graph.Matching (Corresponds env s t) s.graph t.graph where
  left _ _ _ h h' := h.symm.unique ht.coherent h'.symm
  right _ _ _ h h' := h.unique hs.coherent h'
  documents h := h.document? hs ht
  inlines h := h.inlines

end Match

end PolymerAnalysis.Session
