import PolymerAnalysis.Proofs.Session.Growth

namespace PolymerAnalysis.Session

open Relation

/-- The document of the file at `u`, as far as its imports have been followed: those that are `done` are linked,
in their order, or there are warnings for them. -/
structure Progress (env : Environment) (s : Session) (u : Text) (i : DocId) (file : ScannedFile)
    (done : List ImportFeature) : Prop where
  scanned : env.scanFile u = .ok file
  cached : s.cached? u = some i
  holds : ∃ js, s.graph.Holds i file (done.flatMap env.complaints) js ∧
    js.map some = (done.filterMap env.target?).map s.cached?
  settled : ∀ l ∈ done, ∃ o, env.outcome l = .ok o

def Whole (env : Environment) (s : Session) (u : Text) : Prop := ∃ i file, Progress env s u i file file.links

def Bare (env : Environment) (s : Session) (u : Text) : Prop := ∃ i file, Progress env s u i file []

/-- The imports of a document have been followed up to one that failed with `e`, or to one whose document is
broken itself. -/
inductive Broken (env : Environment) (s : Session) (e : Failure) : Text → Prop
  | here {u : Text} {i : DocId} {file : ScannedFile} {done rest : List ImportFeature} {l : ImportFeature} :
      Progress env s u i file done → file.links = done ++ l :: rest → env.outcome l = .error e → Broken env s e u
  | deeper {u : Text} {i : DocId} {file : ScannedFile} {done rest : List ImportFeature} {l : ImportFeature} :
      Progress env s u i file done → file.links = done ++ l :: rest → env.outcome l = .ok .linked →
      Broken env s e l.url → Broken env s e u

/-- How a document is left that was met `depth` links away. -/
def Left (env : Environment) (s : Session) (failed : Failure → Prop) (depth : Nat) (u : Text) : Prop :=
  if env.settings.followsAt depth then Whole env s u ∨ ∃ e, failed e ∧ Broken env s e u else Bare env s u

/-- On the way from one file to another, all of them new and no two the same, imports are followed up to the last
one, which is left as its depth wants it. -/
def Met (env : Environment) (s s' : Session) (failed : Failure → Prop) (depth : Nat) (v w : Text) : Prop :=
  ∃ between, env.Way v between w ∧ (w :: between).Nodup ∧ (∀ x ∈ w :: between, s.cached? x = none) ∧
    (∀ n < between.length, env.settings.followsAt (depth + n) = true) ∧
    Left env s' failed (depth + between.length) w

section Keep

variable {env : Environment} {p : DocId → Prop} {s s' : Session} {u : Text} {i : DocId} {file : ScannedFile}
  {done : List ImportFeature}

theorem Progress.keep (h : Progress env s u i file done) (hg : s.Grows p s') (hi : p i)
    (hin : ∀ j, s.graph.container? j = some i → p j) : Progress env s' u i file done where
  scanned := h.scanned
  cached := hg.cached? h.cached
  holds := by
    obtain ⟨js, hholds, hjs⟩ := h.holds
    refine ⟨js, hholds.keep hg.graph hi hin, hjs.trans (List.map_congr_left fun v hv ↦ ?_)⟩
    obtain ⟨j, -, hj⟩ := List.mem_map.1 (hjs ▸ List.mem_map_of_mem hv)
    rw [← hj]
    exact (hg.cached? hj.symm).symm
  settled := h.settled

theorem Whole.keep (h : Whole env s u) (hg : s.Grows (fun _ ↦ True) s') : Whole env s' u := by
  obtain ⟨i, file, h⟩ := h
  exact ⟨i, file, h.keep hg trivial fun _ _ ↦ trivial⟩

theorem Bare.keep (h : Bare env s u) (hg : s.Grows (fun _ ↦ True) s') : Bare env s' u := by
  obtain ⟨i, file, h⟩ := h
  exact ⟨i, file, h.keep hg trivial fun _ _ ↦ trivial⟩

theorem Broken.keep {e : Failure} (h : Broken env s e u) (hg : s.Grows (fun _ ↦ True) s') : Broken env s' e u := by
  induction h with
  | here hp hlinks ho => exact .here (hp.keep hg trivial fun _ _ ↦ trivial) hlinks ho
  | deeper hp hlinks ho _ ih => exact .deeper (hp.keep hg trivial fun _ _ ↦ trivial) hlinks ho ih

theorem Progress.keep_of_ne {importer : DocId} {importerUrl : Text} (h : Progress env s u i file done)
    (hs : s.Coherent) (himporter : s.cached? importerUrl = some importer) (hne : u ≠ importerUrl)
    (hg : s.Grows (· ≠ importer) s') : Progress env s' u i file done := by
  obtain ⟨-, hurl, hroot⟩ := hs.placed himporter
  refine h.keep hg ?_ ?_
  · rintro rfl
    exact hne ((hs.placed h.cached).2.1.symm.trans hurl)
  · rintro j hj rfl
    rw [hroot] at hj
    cases hj

theorem Left.keep_of_ne {importer : DocId} {importerUrl : Text} {failed failed' : Failure → Prop} {depth : Nat}
    (h : Left env s failed depth u) (hfailed : ∀ e, ¬failed e) (hs : s.Coherent)
    (himporter : s.cached? importerUrl = some importer) (hne : u ≠ importerUrl)
    (hg : s.Grows (· ≠ importer) s') : Left env s' failed' depth u := by
  rw [Left] at h ⊢
  split at h
  · next hdepth =>
    rw [if_pos hdepth]
    rcases h with ⟨i, file, h⟩ | ⟨e, he, -⟩
    · exact .inl ⟨i, file, h.keep_of_ne hs himporter hne hg⟩
    · exact absurd he (hfailed e)
  · next hdepth =>
    rw [if_neg hdepth]
    obtain ⟨i, file, h⟩ := h
    exact ⟨i, file, h.keep_of_ne hs himporter hne hg⟩

end Keep

section Advance

variable {env : Environment} {s s' : Session} {u : Text} {i : DocId} {file : ScannedFile}
  {done : List ImportFeature} {l : ImportFeature}

theorem progress_register (hfile : env.scanFile u = .ok file) :
    Progress env (s.register u file).2 u s.graph.size file [] where
  scanned := hfile
  cached := by rw [cached?_register, if_pos rfl]
  holds := ⟨[], holds_register (ScannedFile.fresh_of_scanFile hfile), rfl⟩
  settled l hl := by cases hl

theorem Progress.links (h : Progress env s u i file done) {rest : List ImportFeature}
    (hlinks : file.links = done ++ l :: rest) (ho : env.outcome l = .ok .linked) : env.Links u l.url :=
  ⟨file, h.scanned, l, by simp [hlinks], ho, rfl⟩

theorem Progress.advance (h : Progress env s u i file done) (more : List DocId)
    (ho : ∃ o, env.outcome l = .ok o) (hc : s'.cached? = s.cached?)
    (hholds : ∀ ws js, s.graph.Holds i file ws js → s'.graph.Holds i file (ws ++ env.complaints l) (js ++ more))
    (hmore : more.map some = (env.target? l).toList.map s.cached?) : Progress env s' u i file (done ++ [l]) where
  scanned := h.scanned
  cached := by
    rw [hc]
    exact h.cached
  holds := by
    obtain ⟨js, hjs, hlinked⟩ := h.holds
    refine ⟨js ++ more, ?_, ?_⟩
    · rw [List.flatMap_append, List.flatMap_singleton]
      exact hholds _ js hjs
    · have hlast : [l].filterMap env.target? = (env.target? l).toList := by
        cases hl : env.target? l <;> simp [hl]
      rw [hc, List.map_append, hlinked, hmore, List.filterMap_append, hlast, List.map_append]
  settled l' hl' := by
    rcases List.mem_append.1 hl' with hl' | hl'
    · exact h.settled l' hl'
    · exact List.mem_singleton.1 hl' ▸ ho

theorem Progress.outside (h : Progress env s u i file done) (ho : env.outcome l = .ok .outside) :
    Progress env s u i file (done ++ [l]) := by
  refine h.advance [] ⟨_, ho⟩ rfl (fun ws js hholds ↦ ?_) ?_
  · rw [Environment.complaints, ho, List.append_nil, List.append_nil]
    exact hholds
  · rw [Environment.target?, ho]
    rfl

theorem Progress.refused {ws : List Warning} (h : Progress env s u i file done)
    (ho : env.outcome l = .ok (.refused ws)) : Progress env (s.warn i ws) u i file (done ++ [l]) := by
  refine h.advance [] ⟨_, ho⟩ rfl (fun ws' js hholds ↦ ?_) ?_
  · rw [Environment.complaints, ho, List.append_nil]
    exact hholds.addWarnings ws
  · rw [Environment.target?, ho]
    rfl

theorem Progress.linked {j : DocId} (h : Progress env s u i file done) (ho : env.outcome l = .ok .linked)
    (hj : s.cached? l.url = some j) : Progress env (s.link i l.url j) u i file (done ++ [l]) := by
  refine h.advance [j] ⟨_, ho⟩ rfl (fun ws js hholds ↦ ?_) ?_
  · rw [Environment.complaints, ho, List.append_nil]
    exact hholds.addImport j
  · rw [Environment.target?, ho, Option.toList_some, List.map_singleton, List.map_singleton, hj]

end Advance

end PolymerAnalysis.Session
