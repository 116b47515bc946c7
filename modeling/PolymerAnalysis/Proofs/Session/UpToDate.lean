import PolymerAnalysis.Proofs.Session.Analyses
import PolymerAnalysis.Proofs.Session.Outdated
import Mathlib.Data.List.Perm.Subperm

namespace PolymerAnalysis

namespace Environment

def followed (env : Environment) (file : ScannedFile) : List ImportFeature :=
  if env.settings.followImports then file.links else []

/-- Every import that can be reached from a file leads out of the package or to a file that can be scanned. -/
def Sound (env : Environment) (u : Text) : Prop :=
  ∀ {between v file}, env.Way u between v → env.scanFile v = .ok file →
    ∀ l ∈ file.links, env.outcome l = .ok .outside ∨ env.outcome l = .ok .linked

def failure? (env : Environment) (urls : List Text) : Option Failure :=
  urls.findSome? fun u ↦ match env.scanFile u with
    | .ok _ => none
    | .error e => some e

def Roomy (env : Environment) : Prop :=
  ∀ limit, env.settings.depthLimit = some limit → env.loader.urls.length < limit

variable {env env' : Environment} {u v : Text} {l : ImportFeature} {between : List Text}

theorem prospect_congr (h : env'.loader.canLoad u = env.loader.canLoad u) :
    Session.prospect env' u = Session.prospect env u := by
  rw [Session.prospect, Session.prospect, h]

theorem outcome_outside_iff : env.outcome l = .ok .outside ↔ Url.isExternal l.url = .ok true := by
  refine ⟨isExternal_of_outside, fun h ↦ ?_⟩
  rw [outcome, prospect_of_external h]

/-- A way on which no file lies twice is no longer than there are files. -/
theorem Regular.length_le (hr : env.Regular) (h : env.Way u between v) (hnodup : (v :: between).Nodup) :
    between.length ≤ env.loader.urls.length := by
  have hlisted {u v : Text} {between : List Text} (h : env.Way u between v) :
      ∀ w ∈ v :: between, w = u ∨ w ∈ env.loader.urls := by
    induction h with
    | refl => simp
    | @head u v w between hlink _ ih =>
      intro x hx
      rw [List.mem_cons, List.mem_cons] at hx
      by_cases hxu : x = u
      · exact .inl hxu
      · refine .inr ?_
        rcases ih x (List.mem_cons.2 (hx.imp_right fun hx ↦ hx.resolve_left hxu)) with rfl | hx
        · exact hr.listed hlink
        · exact hx
  have hsubset : v :: between ⊆ u :: env.loader.urls := fun w hw ↦ List.mem_cons.2 (hlisted h w hw)
  exact Nat.le_of_succ_le_succ (hnodup.subperm hsubset).length_le

theorem Roomy.followsAt (h : env.Roomy) {depth : Nat} (hdepth : depth ≤ env.loader.urls.length) :
    env.settings.followsAt depth = env.settings.followImports := by
  rw [Settings.followsAt]
  cases hlimit : env.settings.depthLimit with
  | none => simp
  | some limit => simp [hdepth.trans_lt (h limit hlimit)]

end Environment

namespace Session

variable {env env' : Environment} {s s' : Session} {u v : Text} {i j : DocId} {file : ScannedFile}
  {done : List ImportFeature} {urls : List Text}

/-- Every document of the cache is what its file is at present, with all imports that are followed, and none of
these failed. -/
structure UpToDate (env : Environment) (s : Session) : Prop where
  coherent : s.Coherent
  complete : ∀ {u i}, s.cached? u = some i → ∃ file, Progress env s u i file (env.followed file) ∧
    ∀ l ∈ env.followed file, env.outcome l = .ok .outside ∨ env.outcome l = .ok .linked

theorem upToDate_empty (env : Environment) : UpToDate env {} := ⟨coherent_empty, fun hu ↦ by cases hu⟩

section Change

theorem Progress.filesChanged (h : Progress env s u i file done) (hs : s.Coherent)
    (hu : (s.filesChanged urls).2.cached? u = some i) : Progress env (s.filesChanged urls).2 u i file done where
  scanned := h.scanned
  cached := hu
  holds := by
    obtain ⟨js, hholds, hjs⟩ := h.holds
    refine ⟨js, hholds, hjs.trans (List.map_congr_left fun v hv ↦ ?_)⟩
    obtain ⟨j, hj, hcached⟩ := List.mem_map.1 (hjs ▸ List.mem_map_of_mem hv)
    have himport : s.graph.Imports i j := hs.imports_iff.2 (by rwa [hholds.importsOf_eq])
    have hkept : v ∉ s.dependents urls := by
      rw [← (hs.placed hcached.symm).2.1]
      intro hdrop
      rw [cached?_filesChanged, if_pos (hs.dropped_of_imports h.cached himport hdrop)] at hu
      cases hu
    rw [cached?_filesChanged, if_neg hkept]
  settled := h.settled

theorem UpToDate.filesChanged (h : UpToDate env s) (urls : List Text) : UpToDate env (s.filesChanged urls).2 := by
  refine ⟨h.coherent.filesChanged urls, fun {u i} hu ↦ ?_⟩
  have hcached : s.cached? u = some i := by
    rw [cached?_filesChanged] at hu
    split at hu
    · cases hu
    · exact hu
  obtain ⟨file, hprogress, houtcomes⟩ := h.complete hcached
  exact ⟨file, hprogress.filesChanged h.coherent hu, houtcomes⟩

end Change

section Edit

theorem Progress.congr (h : Progress env s u i file done) (hscan : env'.scanFile u = env.scanFile u)
    (houtcomes : ∀ l ∈ done, env'.outcome l = env.outcome l) : Progress env' s u i file done where
  scanned := hscan.trans h.scanned
  cached := h.cached
  holds := by
    have hcomplaints : done.flatMap env'.complaints = done.flatMap env.complaints :=
      List.flatMap_congr fun l hl ↦ by rw [Environment.complaints, Environment.complaints, houtcomes l hl]
    have htargets : done.filterMap env'.target? = done.filterMap env.target? :=
      List.filterMap_congr fun l hl ↦ by rw [Environment.target?, Environment.target?, houtcomes l hl]
    rw [hcomplaints, htargets]
    exact h.holds
  settled l hl := by
    rw [houtcomes l hl]
    exact h.settled l hl

/-- Files that are not in the cache may change as they like. -/
theorem UpToDate.congr (h : UpToDate env s) (hsettings : env'.settings = env.settings)
    (hscan : ∀ {u i}, s.cached? u = some i → env'.scanFile u = env.scanFile u)
    (hload : ∀ {u i}, s.cached? u = some i → env'.loader.canLoad u = env.loader.canLoad u) : UpToDate env' s := by
  refine ⟨h.coherent, fun {u i} hu ↦ ?_⟩
  obtain ⟨file, hprogress, houtcomes⟩ := h.complete hu
  have hfollowed : env'.followed file = env.followed file := by
    rw [Environment.followed, Environment.followed, hsettings]
  have hsame : ∀ l ∈ env.followed file, env'.outcome l = env.outcome l := by
    intro l hl
    rcases houtcomes l hl with ho | ho
    · rw [ho]
      exact Environment.outcome_outside_iff.2 (Environment.outcome_outside_iff.1 ho)
    · obtain ⟨j, -, hj⟩ := hprogress.cached_target hl ho
      rw [ho, Environment.outcome_linked_iff, Environment.prospect_congr (hload hj), hscan hj,
        ← Environment.outcome_linked_iff, ho]
  rw [← hfollowed] at hprogress houtcomes hsame
  exact ⟨file, hprogress.congr (hscan hu) hsame, fun l hl ↦ by rw [hsame l hl]; exact houtcomes l hl⟩

end Edit

section Analyze

theorem UpToDate.ready (h : UpToDate env s) : Ready env env.loader.urls s where
  coherent := h.coherent
  scanned hu := by
    obtain ⟨file, hprogress, -⟩ := h.complete hu
    exact ⟨file, hprogress.scanned⟩
  free hlisted _ := hlisted

theorem not_broken_of_sound {e : Failure} (hsound : env.Sound u) : ¬Broken env s e u := by
  intro h
  obtain ⟨between, v, file, l, hway, hscan, hl, ho⟩ := h.exists_outcome
  rcases hsound hway hscan l hl with ho' | ho' <;> cases ho.symm.trans ho'

theorem Left.complete {failed : Failure → Prop} {depth : Nat} (h : Left env s failed depth u)
    (hdepth : env.settings.followsAt depth = env.settings.followImports) (hsound : env.Sound u) :
    ∃ i file, Progress env s u i file (env.followed file) := by
  rw [Left, hdepth] at h
  unfold Environment.followed
  split at h
  · next hfollow =>
    rcases h with ⟨i, file, h⟩ | ⟨e, -, hbroken⟩
    · exact ⟨i, file, by rwa [if_pos hfollow]⟩
    · exact absurd hbroken (not_broken_of_sound hsound)
  · next hfollow =>
    obtain ⟨i, file, h⟩ := h
    exact ⟨i, file, by rwa [if_neg hfollow]⟩

theorem UpToDate.openDocument (hr : env.Regular) (h : UpToDate env s) (hroomy : env.Roomy) (hsound : env.Sound u) :
    UpToDate env (Session.openDocument env u s).2 := by
  refine ⟨(h.ready.openDocument u).coherent, fun {w j} hw ↦ ?_⟩
  cases hnone : s.cached? w with
  | some k =>
    obtain ⟨file, hprogress, houtcomes⟩ := h.complete hnone
    have hgrows := openDocument_grows hr h.ready u
    cases (hgrows.cached? hnone).symm.trans hw
    exact ⟨file, hprogress.keep hgrows trivial fun _ _ ↦ trivial, houtcomes⟩
  | none =>
    obtain ⟨file, hscan⟩ := exists_scanFile_of_new h.ready hnone hw
    -- a way without repetitions is too short to come to the limit
    obtain ⟨between, hway, hnodup, -, -, hleft⟩ := (openDocument_opened hr h.ready hscan).met hnone hw
    rw [Nat.zero_add] at hleft
    obtain ⟨i, file, hprogress⟩ := hleft.complete (hroomy.followsAt (hr.length_le hway hnodup))
      fun hway' ↦ hsound (hway.trans hway')
    cases hprogress.cached.symm.trans hw
    refine ⟨file, hprogress, fun l hl ↦ hsound hway hprogress.scanned l ?_⟩
    rw [Environment.followed] at hl
    split at hl
    · exact hl
    · cases hl

theorem UpToDate.openDocument_ok (hr : env.Regular) (h : UpToDate env s) (hsound : env.Sound u)
    (hscan : env.scanFile u = .ok file) : ∃ i, (Session.openDocument env u s).1 = .ok i ∧
      (Session.openDocument env u s).2.cached? u = some i := by
  obtain ⟨i, hi, hok | ⟨e, -, -, hbroken⟩⟩ := (openDocument_opened hr h.ready hscan).cached
  · exact ⟨i, hok, hi⟩
  · exact absurd hbroken (not_broken_of_sound hsound)

/-- An analysis gives the documents of the cache for the files asked for, unless one of these cannot be scanned;
and what is in the cache stays up to date. -/
theorem UpToDate.analyze (hr : env.Regular) (h : UpToDate env s) (hroomy : env.Roomy)
    (hsound : ∀ u ∈ urls, env.Sound u) :
    UpToDate env (Session.analyze env urls s).2 ∧
      match env.failure? urls with
      | none => ∃ is, (Session.analyze env urls s).1 = .ok is ∧
          is.map some = urls.map (Session.analyze env urls s).2.cached?
      | some e => (Session.analyze env urls s).1 = .error e := by
  induction urls generalizing s with
  | nil => exact ⟨h, [], rfl, rfl⟩
  | cons u urls ih =>
    have hu := h.openDocument hr hroomy (hsound u List.mem_cons_self)
    rw [Session.analyze, Environment.failure?, List.findSome?_cons]
    cases hscan : env.scanFile u with
    | error e =>
      rw [openDocument_of_scan_error h.ready hscan]
      exact ⟨h, rfl⟩
    | ok file =>
      obtain ⟨i, hi, hcached⟩ := h.openDocument_ok hr (hsound u List.mem_cons_self) hscan
      cases hopen : Session.openDocument env u s with
      | mk result s₁ =>
        rw [hopen] at hu hi hcached
        cases hi
        obtain ⟨hrest, hresult⟩ := ih hu fun v hv ↦ hsound v (List.mem_cons_of_mem u hv)
        refine ⟨hrest, ?_⟩
        rw [Environment.failure?] at hresult
        simp only
        split at hresult
        · obtain ⟨is, his, hmap⟩ := hresult
          simp only [his]
          refine ⟨i :: is, rfl, ?_⟩
          rw [List.map_cons, List.map_cons, hmap, keeps_cached (analyze_steps env urls s₁) hcached]
        · simp only [hresult]
          rfl

end Analyze

end Session

end PolymerAnalysis
