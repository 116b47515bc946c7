import PolymerAnalysis.Proofs.Session.History
import PolymerAnalysis.Proofs.Session.Opening

namespace PolymerAnalysis.Session

open Relation

variable {env : Environment} {s s' : Session} {asked : List Text} {u v : Text} {i j : DocId} {file : ScannedFile}
  {done : List ImportFeature} {l : ImportFeature} {e : Failure}

section Progress

theorem Progress.links_eq (h : Progress env s u i file done) : s.graph.links i = file.links := by
  obtain ⟨js, hholds, -⟩ := h.holds
  exact hholds.links_eq

theorem Progress.warningsOf_eq (h : Progress env s u i file done) :
    s.graph.warningsOf i = file.document.warnings ++ done.flatMap env.complaints := by
  obtain ⟨js, hholds, -⟩ := h.holds
  exact hholds.warningsOf_eq

theorem Progress.map_importsOf (h : Progress env s u i file done) :
    (s.graph.importsOf i).map some = (done.filterMap env.target?).map s.cached? := by
  obtain ⟨js, hholds, hjs⟩ := h.holds
  rw [hholds.importsOf_eq, hjs]

theorem Progress.cached_target (h : Progress env s u i file done) (hl : l ∈ done)
    (ho : env.outcome l = .ok .linked) : ∃ j ∈ s.graph.importsOf i, s.cached? l.url = some j := by
  have hmem : s.cached? l.url ∈ (s.graph.importsOf i).map some := by
    rw [h.map_importsOf]
    exact List.mem_map_of_mem (List.mem_filterMap.2 ⟨l, hl, Environment.target?_eq_some_iff.2 ⟨ho, rfl⟩⟩)
  obtain ⟨j, hj, hcached⟩ := List.mem_map.1 hmem
  exact ⟨j, hj, hcached.symm⟩

theorem Progress.mem_importsOf_iff (h : Progress env s u i file done) :
    j ∈ s.graph.importsOf i ↔ ∃ l ∈ done, env.outcome l = .ok .linked ∧ s.cached? l.url = some j := by
  have hmem : j ∈ s.graph.importsOf i ↔ some j ∈ (done.filterMap env.target?).map s.cached? := by
    rw [← h.map_importsOf, List.mem_map_of_injective (Option.some_injective _)]
  rw [hmem, List.mem_map]
  constructor
  · rintro ⟨v, hv, hj⟩
    obtain ⟨l, hl, htarget⟩ := List.mem_filterMap.1 hv
    obtain ⟨ho, rfl⟩ := Environment.target?_eq_some_iff.1 htarget
    exact ⟨l, hl, ho, hj⟩
  · rintro ⟨l, hl, ho, hj⟩
    exact ⟨l.url, List.mem_filterMap.2 ⟨l, hl, Environment.target?_eq_some_iff.2 ⟨ho, rfl⟩⟩, hj⟩

theorem Progress.urls_importsOf (h : Progress env s u i file done) (hs : s.Coherent) :
    (s.graph.importsOf i).map s.graph.url = done.filterMap env.target? := by
  have hsome : ((s.graph.importsOf i).map some).map (Option.map s.graph.url) =
      (done.filterMap env.target?).map some := by
    rw [h.map_importsOf, List.map_map]
    refine List.map_congr_left fun v hv ↦ ?_
    obtain ⟨j, -, hj⟩ := List.mem_map.1 (h.map_importsOf ▸ List.mem_map_of_mem hv)
    rw [Function.comp_apply, ← hj, Option.map_some, (hs.placed hj.symm).2.1]
  rw [List.map_map] at hsome
  refine List.map_injective_iff.2 (Option.some_injective Text) ?_
  rw [List.map_map, ← hsome]
  rfl

end Progress

section Open

theorem ready_empty (env : Environment) : Ready env env.loader.urls {} where
  coherent := coherent_empty
  scanned hu := by cases hu
  free hlisted _ := hlisted

theorem openDocument_of_scan_error (hs : Ready env env.loader.urls s) (hscan : env.scanFile u = .error e) :
    openDocument env u s = (.error e, s) := openAt_of_scan_error hs.scanned hscan

theorem openDocument_of_cached (hu : s.cached? u = some i) : openDocument env u s = (.ok i, s) := openAt_of_cached hu

/-- A document comes to the cache only if the file that is asked for can be scanned. -/
theorem exists_scanFile_of_new (hs : Ready env env.loader.urls s) {w : Text} (hnone : s.cached? w = none)
    (hw : (openDocument env u s).2.cached? w = some i) : ∃ file, env.scanFile u = .ok file := by
  cases hscan : env.scanFile u with
  | error e =>
    rw [openDocument_of_scan_error hs hscan, hnone] at hw
    cases hw
  | ok file => exact ⟨file, rfl⟩

theorem openDocument_opened (hr : env.Regular) (hs : Ready env env.loader.urls s) (hscan : env.scanFile u = .ok file) :
    Opened env 0 u s (openDocument env u s).2 (openDocument env u s).1 :=
  openAt_opened hr (env.loader.urls.erase u) 0 (hs.erase u) hscan

theorem Ready.openDocument (hs : Ready env env.loader.urls s) (u : Text) :
    Ready env env.loader.urls (Session.openDocument env u s).2 := hs.steps (openAt_steps env _ 0 u s).1

theorem openDocument_grows (hr : env.Regular) (hs : Ready env env.loader.urls s) (u : Text) :
    s.Grows (fun _ ↦ True) (openDocument env u s).2 := by
  cases hscan : env.scanFile u with
  | error e =>
    rw [openDocument_of_scan_error hs hscan]
    exact .refl _ s
  | ok file => exact (openDocument_opened hr hs hscan).grows

end Open

theorem Left.keep {failed : Failure → Prop} {depth : Nat} (h : Left env s failed depth u)
    (hg : s.Grows (fun _ ↦ True) s') : Left env s' failed depth u := by
  rw [Left] at h ⊢
  split at h
  · next hdepth =>
    rw [if_pos hdepth]
    rcases h with hwhole | ⟨e, he, hbroken⟩
    · exact .inl (hwhole.keep hg)
    · exact .inr ⟨e, he, hbroken.keep hg⟩
  · next hdepth =>
    rw [if_neg hdepth]
    exact h.keep hg

/-- A document was met when one of some files was asked for: on a way along imports that were followed up to it,
on which no file lies twice. -/
def MetFrom (env : Environment) (asked : List Text) (s : Session) (u : Text) : Prop :=
  ∃ r ∈ asked, ∃ between, env.Way r between u ∧ (u :: between).Nodup ∧
    (∀ n < between.length, env.settings.followsAt n = true) ∧ Left env s (·.isSurvived = false) between.length u

/-- After some analyses of the same files, every document of the cache was met from a file that was asked for. -/
structure Explored (env : Environment) (asked : List Text) (s : Session) : Prop where
  ready : Ready env env.loader.urls s
  met : ∀ {u i}, s.cached? u = some i → MetFrom env asked s u

theorem MetFrom.mono {asked' : List Text} (h : MetFrom env asked s u) (hasked : asked ⊆ asked')
    (hg : s.Grows (fun _ ↦ True) s') : MetFrom env asked' s' u := by
  obtain ⟨r, hr, between, hway, hnodup, hfollows, hleft⟩ := h
  exact ⟨r, hasked hr, between, hway, hnodup, hfollows, hleft.keep hg⟩

theorem explored_empty (env : Environment) : Explored env [] {} := ⟨ready_empty env, fun hu ↦ by cases hu⟩

theorem Explored.subset {asked' : List Text} (h : Explored env asked s) (hasked : asked ⊆ asked') :
    Explored env asked' s := ⟨h.ready, fun hu ↦ (h.met hu).mono hasked (.refl _ s)⟩

theorem Explored.openDocument (hr : env.Regular) (h : Explored env asked s) (u : Text) :
    Explored env (asked ++ [u]) (Session.openDocument env u s).2 := by
  refine ⟨h.ready.openDocument u, fun {w j} hw ↦ ?_⟩
  cases hnone : s.cached? w with
  | some k => exact (h.met hnone).mono (List.subset_append_left _ _) (openDocument_grows hr h.ready u)
  | none =>
    obtain ⟨file, hscan⟩ := exists_scanFile_of_new h.ready hnone hw
    have hopened := openDocument_opened hr h.ready hscan
    obtain ⟨between, hway, hnodup, -, hfollows, hleft⟩ := hopened.met hnone hw
    simp only [Nat.zero_add] at hfollows hleft
    refine ⟨u, by simp, between, hway, hnodup, hfollows, hleft.imp fun {e} he ↦ ?_⟩
    obtain ⟨i, -, hok | ⟨e', he', hsurvived, -⟩⟩ := hopened.cached
    · cases hok.symm.trans he
    · cases he'.symm.trans he
      exact hsurvived

theorem Explored.analyze (hr : env.Regular) (h : Explored env asked s) (urls : List Text) :
    Explored env (asked ++ urls) (Session.analyze env urls s).2 := by
  induction urls generalizing asked s with
  | nil => simpa [Session.analyze] using h
  | cons u urls ih =>
    have hfirst := h.openDocument hr u
    rw [Session.analyze]
    split
    · next e s₁ hopen =>
      rw [hopen] at hfirst
      exact hfirst.subset (by simp)
    · next i s₁ hopen =>
      rw [hopen] at hfirst
      have hrest := ih hfirst
      rw [List.append_assoc] at hrest
      exact hrest

/-- The session after some analyses of the same files, of which any may have failed. -/
def afterAnalyses (env : Environment) (calls : List (List Text)) : Session := after (calls.map (.analyze env))

theorem explored_afterAnalyses (hr : env.Regular) (calls : List (List Text)) :
    Explored env calls.flatten (afterAnalyses env calls) := by
  have hall (asked : List Text) (s : Session) (h : Explored env asked s) :
      Explored env (asked ++ calls.flatten) ((calls.map (.analyze env)).foldl Call.run s) := by
    induction calls generalizing asked s with
    | nil => simpa using h
    | cons urls calls ih =>
      have hrest := ih _ _ (h.analyze hr urls)
      rw [List.append_assoc] at hrest
      exact hrest
  exact hall [] {} (explored_empty env)

theorem Broken.exists_outcome (h : Broken env s e u) :
    ∃ between v file l, env.Way u between v ∧ env.scanFile v = .ok file ∧ l ∈ file.links ∧ env.outcome l = .error e := by
  induction h with
  | @here u i file done rest l hp hlinks ho =>
    exact ⟨[], u, file, l, .refl u, hp.scanned, by rw [hlinks]; simp, ho⟩
  | @deeper u i file done rest l hp hlinks ho _ ih =>
    obtain ⟨between, v, file', l', hway, hscan, hl', ho'⟩ := ih
    exact ⟨u :: between, v, file', l', .head (hp.links hlinks ho) hway, hscan, hl', ho'⟩

theorem not_broken (houtcomes : ∀ {v file}, env.scanFile v = .ok file → ∀ l ∈ file.links, ∃ o, env.outcome l = .ok o) :
    ¬Broken env s e u := by
  intro h
  obtain ⟨-, v, file, l, -, hscan, hl, ho⟩ := h.exists_outcome
  obtain ⟨o, ho'⟩ := houtcomes hscan l hl
  cases ho.symm.trans ho'

theorem MetFrom.whole_or_bare (h : MetFrom env asked s u)
    (houtcomes : ∀ {v file}, env.scanFile v = .ok file → ∀ l ∈ file.links, ∃ o, env.outcome l = .ok o) :
    Whole env s u ∨ Bare env s u := by
  obtain ⟨r, -, between, -, -, -, hleft⟩ := h
  rw [Left] at hleft
  split at hleft
  · rcases hleft with hwhole | ⟨e, -, hbroken⟩
    · exact .inl hwhole
    · exact absurd hbroken (not_broken houtcomes)
  · exact .inr hleft

end PolymerAnalysis.Session
