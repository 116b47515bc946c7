import PolymerAnalysis.Proofs.Session.Invalidation

namespace PolymerAnalysis.Session

variable {s : Session} {us vs ds es : List Text} {u : Text}

def forget (s : Session) (dropped : List Text) : Session :=
  { s with
    cache := s.cache.filter fun e ↦ !Text.isAmong e.1 dropped
    importers := (s.importers.filter fun e ↦ !Text.isAmong e.1 dropped).map fun e ↦
      (e.1, e.2.filter fun url ↦ !Text.isAmong url dropped) }

theorem filesChanged_eq (s : Session) (us : List Text) :
    s.filesChanged us = (s.dependents us, s.forget (s.dependents us)) := rfl

theorem isAmong_congr (h : ∀ u, u ∈ ds ↔ u ∈ es) (u : Text) : Text.isAmong u ds = Text.isAmong u es := by
  rw [Bool.eq_iff_iff, Text.isAmong_iff, Text.isAmong_iff, h]

theorem isAmong_append (u : Text) (ds es : List Text) :
    Text.isAmong u (ds ++ es) = (Text.isAmong u ds || Text.isAmong u es) := by
  rw [Bool.eq_iff_iff, Bool.or_eq_true]
  simp only [Text.isAmong_iff, List.mem_append]

theorem forget_congr (s : Session) (h : ∀ u, u ∈ ds ↔ u ∈ es) : s.forget ds = s.forget es := by
  simp only [forget, isAmong_congr h]

theorem forget_forget (s : Session) (ds es : List Text) : (s.forget ds).forget es = s.forget (ds ++ es) := by
  simp only [forget, isAmong_append, Bool.not_or, List.filter_map, List.map_map, List.filter_filter, Bool.and_comm,
    Function.comp_def]

theorem mem_dependents_iff : u ∈ s.dependents us ↔ ∀ S, s.ClosedOver us S → u ∈ S :=
  ⟨fun hu _ hS ↦ (isLeast_dependents s us).2 hS hu, fun h ↦ h _ (isLeast_dependents s us).1⟩

theorem ClosedOver.mono {S : Set Text} (h : s.ClosedOver vs S) (hus : us ⊆ vs) : s.ClosedOver us S :=
  ⟨fun u hu ↦ h.1 u (hus hu), h.2⟩

/-- What is closed stays closed when importers are forgotten. -/
theorem ClosedOver.filesChanged {S : Set Text} (h : s.ClosedOver vs S) (us : List Text) :
    (s.filesChanged us).2.ClosedOver vs S :=
  ⟨h.1, fun v hv u hu ↦ h.2 v hv u ((mem_importersOf_filesChanged s us u v).1 hu).2.1⟩

theorem dependents_congr (h : ∀ u, u ∈ us ↔ u ∈ vs) : u ∈ s.dependents us ↔ u ∈ s.dependents vs := by
  rw [mem_dependents_iff, mem_dependents_iff]
  exact forall_congr' fun S ↦ imp_congr_left
    ⟨fun hS ↦ hS.mono fun u hu ↦ (h u).2 hu, fun hS ↦ hS.mono fun u hu ↦ (h u).1 hu⟩

/-- A way to a changed file that the first call cuts leads through something that it has forgotten. -/
theorem mem_dependents_append : u ∈ s.dependents (us ++ vs) ↔
    u ∈ s.dependents us ∨ u ∈ (s.filesChanged us).2.dependents vs := by
  have hfirst := (isLeast_dependents s us).1
  have hlater := (isLeast_dependents (s.filesChanged us).2 vs).1
  constructor
  · intro hu
    refine mem_dependents_iff.1 hu {u | u ∈ s.dependents us ∨ u ∈ (s.filesChanged us).2.dependents vs}
      ⟨fun v hv ↦ (List.mem_append.1 hv).imp (hfirst.1 v) (hlater.1 v), fun v hv w hw ↦ ?_⟩
    by_cases hv' : v ∈ s.dependents us
    · exact .inl (hfirst.2 v hv' w hw)
    by_cases hw' : w ∈ s.dependents us
    · exact .inl hw'
    -- neither end of the step is forgotten, so that it is still there in the second call
    · have hstep := (mem_importersOf_filesChanged s us w v).2 ⟨hv', hw, hw'⟩
      exact .inr (hlater.2 v (hv.resolve_left hv') w hstep)
  · have hall := (isLeast_dependents s (us ++ vs)).1
    rintro (hu | hu)
    · exact mem_dependents_iff.1 hu _ (hall.mono (List.subset_append_left us vs))
    · exact mem_dependents_iff.1 hu _ ((hall.mono (List.subset_append_right us vs)).filesChanged us)

theorem filesChanged_append (s : Session) (us vs : List Text) :
    (s.filesChanged (us ++ vs)).2 = ((s.filesChanged us).2.filesChanged vs).2 := by
  have hlater : ((s.filesChanged us).2.filesChanged vs).2 =
      (s.forget (s.dependents us)).forget ((s.filesChanged us).2.dependents vs) := rfl
  rw [hlater, forget_forget]
  exact s.forget_congr fun u ↦ mem_dependents_append.trans List.mem_append.symm

theorem filesChanged_congr (s : Session) (h : ∀ u, u ∈ us ↔ u ∈ vs) :
    (s.filesChanged us).2 = (s.filesChanged vs).2 := s.forget_congr fun _ ↦ dependents_congr h

def changes (s : Session) : List (List Text) → List Text × Session
  | [] => ([], s)
  | us :: rest =>
    let (dropped, s) := s.filesChanged us
    let (later, s) := changes s rest
    (dropped ++ later, s)

theorem changes_cons (s : Session) (us : List Text) (rest : List (List Text)) :
    s.changes (us :: rest) =
      ((s.filesChanged us).1 ++ ((s.filesChanged us).2.changes rest).1, ((s.filesChanged us).2.changes rest).2) := rfl

theorem dependents_nil (s : Session) : s.dependents [] = [] := by
  refine List.eq_nil_iff_forall_not_mem.2 fun u hu ↦ ?_
  exact mem_dependents_iff.1 hu ∅ ⟨fun v hv ↦ absurd hv List.not_mem_nil, fun v hv ↦ hv.elim⟩

theorem filesChanged_nil (s : Session) : s.filesChanged [] = ([], s) := by
  rw [filesChanged_eq, dependents_nil]
  simp [forget, Text.isAmong]

/-- Several batches forget what all their files together do. -/
theorem changes_flatten (s : Session) (batches : List (List Text)) :
    (s.changes batches).2 = (s.filesChanged batches.flatten).2 ∧
      ∀ u, u ∈ (s.changes batches).1 ↔ u ∈ (s.filesChanged batches.flatten).1 := by
  induction batches generalizing s with
  | nil =>
    rw [List.flatten_nil, filesChanged_nil]
    exact ⟨rfl, fun u ↦ Iff.rfl⟩
  | cons us rest ih =>
    obtain ⟨hsession, hdropped⟩ := ih (s.filesChanged us).2
    rw [List.flatten_cons, changes_cons, filesChanged_append]
    refine ⟨hsession, fun u ↦ ?_⟩
    rw [List.mem_append, hdropped]
    exact mem_dependents_append.symm

/-- Changes of some files can be told in any batches and in any order, and once more. -/
theorem changes_batched (s : Session) (batches : List (List Text)) (us vs : List Text) :
    ((s.changes batches).2 = (s.filesChanged batches.flatten).2 ∧
      ∀ u, u ∈ (s.changes batches).1 ↔ u ∈ (s.filesChanged batches.flatten).1) ∧
    ((s.filesChanged (us ++ vs)).2 = ((s.filesChanged us).2.filesChanged vs).2 ∧
      ∀ u, u ∈ (s.filesChanged (us ++ vs)).1 ↔
        u ∈ (s.filesChanged us).1 ∨ u ∈ ((s.filesChanged us).2.filesChanged vs).1) ∧
    ((s.filesChanged (us ++ vs)).2 = ((s.filesChanged vs).2.filesChanged us).2 ∧
      ∀ u, u ∈ (s.filesChanged (us ++ vs)).1 ↔
        u ∈ (s.filesChanged vs).1 ∨ u ∈ ((s.filesChanged vs).2.filesChanged us).1) ∧
    ((s.filesChanged us).2.filesChanged us).2 = (s.filesChanged us).2 := by
  have hswap : ∀ u, u ∈ us ++ vs ↔ u ∈ vs ++ us := fun u ↦ by rw [List.mem_append, List.mem_append, or_comm]
  have htwice : ∀ u, u ∈ us ++ us ↔ u ∈ us := fun u ↦ by rw [List.mem_append, or_self_iff]
  refine ⟨s.changes_flatten batches, ⟨s.filesChanged_append us vs, fun u ↦ mem_dependents_append⟩, ⟨?_, fun u ↦ ?_⟩, ?_⟩
  · rw [s.filesChanged_congr hswap, filesChanged_append]
  · exact (dependents_congr hswap).trans mem_dependents_append
  · rw [← filesChanged_append, s.filesChanged_congr htwice]

end PolymerAnalysis.Session
