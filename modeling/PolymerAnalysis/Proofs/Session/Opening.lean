import PolymerAnalysis.Proofs.Session.Following

namespace PolymerAnalysis.Session

open Relation

/-- A session from which an analysis can go on: what is in the cache can be scanned as it stands, and what the
loader lists is in the cache or still `free`. -/
structure Ready (env : Environment) (free : List Text) (s : Session) : Prop where
  coherent : s.Coherent
  scanned : ∀ {u i}, s.cached? u = some i → ∃ file, env.scanFile u = .ok file
  free : ∀ {u}, u ∈ env.loader.urls → s.cached? u = none → u ∈ free

/-- What comes of opening the file at `v`, `depth` links away from the one asked for, if it can be scanned. -/
structure Opened (env : Environment) (depth : Nat) (v : Text) (s s' : Session) (result : Except Failure DocId) :
    Prop where
  grows : s.Grows (fun _ ↦ True) s'
  cached : ∃ i, s'.cached? v = some i ∧
    (result = .ok i ∨ ∃ e, result = .error e ∧ e.isSurvived = false ∧ Broken env s' e v)
  met : ∀ {w j}, s.cached? w = none → s'.cached? w = some j →
    Met env s s' (fun e ↦ result = .error e) depth v w

/-- What comes of following some imports, `ls`, of the file at `u` after those that are `done`; what they are
linked to is `depth` links away. -/
structure Followed (env : Environment) (depth : Nat) (u : Text) (i : DocId) (file : ScannedFile)
    (done ls : List ImportFeature) (s s' : Session) (result : Except Failure Unit) : Prop where
  grows : s.Grows (· ≠ i) s'
  progress : result = .ok () → Progress env s' u i file (done ++ ls)
  broken : ∀ {e}, result = .error e → e.isSurvived = false ∧ Broken env s' e u
  met : ∀ {w j}, s.cached? w = none → s'.cached? w = some j →
    ∃ v, env.Links u v ∧ Met env s s' (fun e ↦ result = .error e) depth v w

variable {env : Environment} {free : List Text} {depth : Nat} {s s' s'' : Session} {u v w : Text} {i j : DocId}
  {file : ScannedFile} {done ls : List ImportFeature} {l : ImportFeature}

theorem cached?_eq_none_of_keeps (hkeep : ∀ {i}, s.cached? u = some i → s'.cached? u = some i)
    (h : s'.cached? u = none) : s.cached? u = none := by
  by_contra hcached
  obtain ⟨i, hi⟩ := Option.ne_none_iff_exists'.1 hcached
  rw [hkeep hi] at h
  cases h

theorem Step.keeps_scanned (h : Step env s s') (hs : ∀ {u i}, s.cached? u = some i → ∃ file, env.scanFile u = .ok file)
    (hu : s'.cached? u = some i) : ∃ file, env.scanFile u = .ok file := by
  cases h with
  | register hurl hscan =>
    rw [cached?_register] at hu
    split at hu
    · next heq => exact ⟨_, heq ▸ hscan⟩
    · exact hs hu
  | warn => exact hs hu
  | link => exact hs hu

theorem Ready.steps (h : Ready env free s) (hsteps : ReflTransGen (Step env) s s') : Ready env free s' := by
  refine ⟨h.coherent.steps hsteps, ?_, fun hlisted hnone ↦ h.free hlisted ?_⟩
  · induction hsteps with
    | refl => exact h.scanned
    | tail _ hstep ih => exact hstep.keeps_scanned ih
  · exact cached?_eq_none_of_keeps (keeps_cached hsteps) hnone

theorem Ready.erase (h : Ready env free s) (v : Text) : Ready env (v :: free.erase v) s where
  coherent := h.coherent
  scanned := h.scanned
  free {u} hlisted hnone := by
    by_cases hu : u = v
    · exact hu ▸ List.mem_cons_self
    · exact List.mem_cons_of_mem v ((List.mem_erase_of_ne hu).2 (h.free hlisted hnone))

theorem nested_steps (env : Environment) (free : List Text) (depth : Nat) : Opens env (nested env free depth) :=
  opens_nested fun url _ ↦ openAt_steps env (free.erase url) depth

theorem Left.imp {failed failed' : Failure → Prop} (h : Left env s failed depth u)
    (hfailed : ∀ {e}, failed e → failed' e) : Left env s failed' depth u := by
  rw [Left] at h ⊢
  split at h
  · next hdepth =>
    rw [if_pos hdepth]
    rcases h with hwhole | ⟨e, he, hbroken⟩
    · exact .inl hwhole
    · exact .inr ⟨e, hfailed he, hbroken⟩
  · next hdepth =>
    rw [if_neg hdepth]
    exact h

theorem Met.imp {failed failed' : Failure → Prop} (h : Met env s s' failed depth v w)
    (hleft : ∀ {n}, Left env s' failed n w → Left env s'' failed' n w) : Met env s s'' failed' depth v w := by
  obtain ⟨between, hway, hnodup, hnew, hfollows, h⟩ := h
  exact ⟨between, hway, hnodup, hnew, hfollows, hleft h⟩

section Met

variable {failed : Failure → Prop} (hkeep : ∀ {x i}, s.cached? x = some i → s'.cached? x = some i)
include hkeep

theorem Met.weaken (h : Met env s' s'' failed depth v w) : Met env s s'' failed depth v w := by
  obtain ⟨between, hway, hnodup, hnew, hfollows, hleft⟩ := h
  exact ⟨between, hway, hnodup, fun x hx ↦ cached?_eq_none_of_keeps hkeep (hnew x hx), hfollows, hleft⟩

theorem Met.head (h : Met env s' s'' failed (depth + 1) v w) (hlinks : env.Links u v)
    (hdepth : env.settings.followsAt depth = true) (hnone : s.cached? u = none) (hu : s'.cached? u = some i) :
    Met env s s'' failed depth u w := by
  obtain ⟨between, hway, hnodup, hnew, hfollows, hleft⟩ := h
  have hunmet : u ∉ w :: between := fun hmem ↦ by
    rw [hnew u hmem] at hu
    cases hu
  refine ⟨u :: between, .head hlinks hway, ?_, ?_, ?_, ?_⟩
  · rw [List.mem_cons, not_or] at hunmet
    rw [List.nodup_cons] at hnodup ⊢
    exact ⟨List.not_mem_cons_of_ne_of_not_mem (Ne.symm hunmet.1) hnodup.1, List.nodup_cons.2 ⟨hunmet.2, hnodup.2⟩⟩
  · intro x hx
    by_cases hxu : x = u
    · rw [hxu]
      exact hnone
    · refine cached?_eq_none_of_keeps hkeep (hnew x ?_)
      simpa [hxu] using hx
  · intro n hn
    cases n with
    | zero => exact hdepth
    | succ n =>
      have h := hfollows n (Nat.lt_of_succ_lt_succ hn)
      rw [Nat.add_right_comm] at h
      exact h
  · rw [Nat.add_right_comm] at hleft
    exact hleft

end Met

def OpensAt (env : Environment) (free : List Text) (depth : Nat)
    (opener : Text → Session → Except Failure DocId × Session) : Prop :=
  ∀ {v s}, Ready env free s →
    (∀ {e}, env.scanFile v = .error e → opener v s = (.error e, s)) ∧
    ∀ {file}, env.scanFile v = .ok file → v ∈ env.loader.urls →
      Opened env depth v s (opener v s).2 (opener v s).1

section Follow

variable {opener : Text → Session → Except Failure DocId × Session}

theorem follow_eq (hopener : ∀ {e}, env.scanFile l.url = .error e → opener l.url s = (.error e, s)) :
    follow env opener i l s =
      match env.outcome l with
      | .error e => (.error e, s)
      | .ok .outside => (.ok (), s)
      | .ok (.refused ws) => (.ok (), s.warn i ws)
      | .ok .linked => settle i l (opener l.url s).1 (opener l.url s).2 := by
  rw [follow, Environment.outcome]
  cases prospect env l.url with
  | error e => rfl
  | ok p =>
    cases p with
    | external => rfl
    | unavailable => rfl
    | available =>
      cases hscan : env.scanFile l.url with
      | ok file => rfl
      | error e =>
        simp only [hopener hscan]
        cases e <;> rfl

theorem settle_of_not_survived {e : Failure} (h : e.isSurvived = false) : settle i l (.error e) s = (.error e, s) := by
  cases e <;> first | rfl | cases h

/-- A link is recorded once its file is open, and a failure that is not survived goes on up. -/
theorem settle_followed (h : Progress env s u i file done) {rest : List ImportFeature}
    (hlinks : file.links = done ++ l :: rest) (ho : env.outcome l = .ok .linked) (hs' : s'.Coherent)
    {result : Except Failure DocId} (hopened : Opened env depth l.url s s' result) :
    Followed env depth u i file done [l] s (settle i l result s').2 (settle i l result s').1 := by
  have hedge := h.links hlinks ho
  have hprogress : Progress env s' u i file done := h.keep hopened.grows trivial fun _ _ ↦ trivial
  obtain ⟨j, hj, rfl | ⟨e, rfl, hsurvived, hbroken⟩⟩ := hopened.cached
  · have hlink := grows_link s' i l.url j
    refine ⟨(hopened.grows.mono fun _ _ _ ↦ trivial).trans hlink fun _ _ hne ↦ hne,
      fun _ ↦ hprogress.linked ho hj, fun he ↦ (by cases he), fun hnone hw ↦ ⟨l.url, hedge, ?_⟩⟩
    refine (hopened.met hnone hw).imp fun hleft ↦
      hleft.keep_of_ne (fun e he ↦ by cases he) hs' hprogress.cached ?_ hlink
    rintro rfl
    rw [h.cached] at hnone
    cases hnone
  · rw [settle_of_not_survived hsurvived]
    refine ⟨hopened.grows.mono fun _ _ _ ↦ trivial, fun hok ↦ (by cases hok), fun he ↦ ?_,
      fun hnone hw ↦ ⟨l.url, hedge, (hopened.met hnone hw).imp fun hleft ↦ hleft.imp fun he ↦ ?_⟩⟩
    · cases he
      exact ⟨hsurvived, .deeper hprogress hlinks ho hbroken⟩
    · cases he
      rfl

theorem follow_followed (hr : env.Regular) (hsteps : Opens env opener) (hopener : OpensAt env free depth opener)
    (hready : Ready env free s)
    (h : Progress env s u i file done) {rest : List ImportFeature} (hlinks : file.links = done ++ l :: rest) :
    Followed env depth u i file done [l] s (follow env opener i l s).2 (follow env opener i l s).1 := by
  have hnew {s' : Session} {w : Text} {j : DocId} (hc : s'.cached? = s.cached?) (hnone : s.cached? w = none)
      (hw : s'.cached? w = some j) : False := by
    rw [hc, hnone] at hw
    cases hw
  rw [follow_eq fun hscan ↦ (hopener hready).1 hscan]
  cases ho : env.outcome l with
  | error e =>
    refine ⟨.refl _ s, fun hok ↦ (by cases hok), fun he ↦ ?_, fun hnone hw ↦ (hnew rfl hnone hw).elim⟩
    cases he
    exact ⟨hr.isSurvived_of_outcome ho, .here h hlinks ho⟩
  | ok o =>
    cases o with
    | outside =>
      exact ⟨.refl _ s, fun _ ↦ h.outside ho, fun he ↦ (by cases he), fun hnone hw ↦ (hnew rfl hnone hw).elim⟩
    | refused ws =>
      exact ⟨grows_warn s i ws, fun _ ↦ h.refused ho, fun he ↦ (by cases he), fun hnone hw ↦ (hnew rfl hnone hw).elim⟩
    | linked =>
      obtain ⟨-, target, htarget⟩ := Environment.outcome_linked_iff.1 ho
      exact settle_followed h hlinks ho (hready.coherent.steps (hsteps l.url s).1)
        ((hopener hready).2 htarget (hr.listed (h.links hlinks ho)))

theorem Followed.trans {ls' : List ImportFeature} {result : Except Failure Unit}
    (h : Followed env depth u i file done ls s s' (.ok ()))
    (h' : Followed env depth u i file (done ++ ls) ls' s' s'' result) (hs' : s'.Coherent) (hu : s.cached? u = some i) :
    Followed env depth u i file done (ls ++ ls') s s'' result where
  grows := h.grows.trans h'.grows fun _ _ hne ↦ hne
  progress hok := by
    rw [← List.append_assoc]
    exact h'.progress hok
  broken := h'.broken
  met {w j} hnone hw := by
    cases hmet : s'.cached? w with
    | none =>
      obtain ⟨v, hedge, hmet⟩ := h'.met hmet hw
      exact ⟨v, hedge, hmet.weaken h.grows.cached?⟩
    | some k =>
      -- the later imports change no document but the importer, and that one was in the cache already
      obtain ⟨v, hedge, hmet⟩ := h.met hnone hmet
      refine ⟨v, hedge, hmet.imp fun hleft ↦ hleft.keep_of_ne (fun e he ↦ by cases he) hs'
        (h.grows.cached? hu) ?_ h'.grows⟩
      rintro rfl
      rw [hu] at hnone
      cases hnone

theorem followAll_followed (hr : env.Regular) (hsteps : Opens env opener) (hopener : OpensAt env free depth opener)
    (hready : Ready env free s) (h : Progress env s u i file done) (hlinks : file.links = done ++ ls) :
    Followed env depth u i file done ls s (followAll env opener i ls s).2 (followAll env opener i ls s).1 := by
  induction ls generalizing s done with
  | nil =>
    refine ⟨.refl _ s, fun _ ↦ ?_, fun he ↦ (by cases he), fun hnone hw ↦ ?_⟩
    · rw [List.append_nil]
      exact h
    · cases hnone.symm.trans hw
  | cons l ls ih =>
    have hfirst := follow_followed hr hsteps hopener hready h hlinks
    have hwork : ReflTransGen (Step env) s (follow env opener i l s).2 := follow_steps hsteps l h.cached
    cases hfollow : follow env opener i l s with
    | mk result s' =>
      rw [hfollow] at hfirst hwork
      rw [followAll, hfollow]
      cases result with
      | error e =>
        exact ⟨hfirst.grows, fun hok ↦ (by cases hok), hfirst.broken, hfirst.met⟩
      | ok =>
        have hrest := ih (hready.steps hwork) (hfirst.progress rfl) (by rw [hlinks, List.append_assoc]; rfl)
        exact hfirst.trans hrest (hready.coherent.steps hwork) h.cached

end Follow

theorem fetch_of_scan_error (hs : ∀ {i}, s.cached? v = some i → ∃ file, env.scanFile v = .ok file) {e : Failure}
    (hscan : env.scanFile v = .error e) : fetch env v s = (.error e, s) := by
  cases hcached : s.cached? v with
  | some i =>
    obtain ⟨file, hfile⟩ := hs hcached
    cases hscan.symm.trans hfile
  | none => rw [fetch, hcached, hscan]

theorem openAt_of_scan_error (hs : ∀ {i}, s.cached? v = some i → ∃ file, env.scanFile v = .ok file) {e : Failure}
    (hscan : env.scanFile v = .error e) : openAt env free depth v s = (.error e, s) :=
  openAt_of_error (fetch_of_scan_error hs hscan)

theorem openAt_of_cached (hv : s.cached? v = some i) : openAt env free depth v s = (.ok i, s) := by
  have hfetch : fetch env v s = (.ok (i, false), s) := by rw [fetch, hv]
  rw [openAt_of_ok hfetch]
  rfl

theorem opened_of_cached (hv : s.cached? v = some i) : Opened env depth v s s (.ok i) where
  grows := .refl _ s
  cached := ⟨i, hv, .inl rfl⟩
  met hnone hw := by cases hnone.symm.trans hw

theorem Ready.register (h : Ready env (v :: free) s) (hv : s.cached? v = none) (hscan : env.scanFile v = .ok file) :
    Ready env free (s.register v file).2 := by
  have h' := h.steps (.single (.register hv hscan))
  refine ⟨h'.coherent, h'.scanned, fun {u} hlisted hnone ↦ ?_⟩
  refine (List.mem_cons.1 (h'.free hlisted hnone)).resolve_left ?_
  rintro rfl
  rw [cached?_register, if_pos rfl] at hnone
  cases hnone

theorem met_self {failed : Failure → Prop} (hv : s.cached? v = none) (h : Left env s' failed depth v) :
    Met env s s' failed depth v v :=
  ⟨[], .refl v, by simp, fun x hx ↦ List.mem_singleton.1 hx ▸ hv, fun n hn ↦ (by cases hn), h⟩

theorem opened_of_followed (hv : s.cached? v = none) (hscan : env.scanFile v = .ok file)
    (hdepth : env.settings.followsAt depth = true) {result : Except Failure Unit}
    (h : Followed env (depth + 1) v s.graph.size file [] file.links (s.register v file).2 s' result) :
    Opened env depth v s s' (result.map fun _ ↦ s.graph.size) where
  grows := (grows_of_register hv hscan).trans h.grows fun i hi _ ↦ hi.ne
  cached := by
    refine ⟨s.graph.size, h.grows.cached? (progress_register hscan).cached, ?_⟩
    cases result with
    | ok => exact .inl rfl
    | error e => exact .inr ⟨e, rfl, h.broken rfl⟩
  met {w j} hnone hw := by
    by_cases hwv : w = v
    · rw [hwv]
      refine met_self hv ?_
      rw [Left, if_pos hdepth]
      cases result with
      | ok => exact .inl ⟨s.graph.size, file, h.progress rfl⟩
      | error e => exact .inr ⟨e, rfl, (h.broken rfl).2⟩
    · have hnone' : (s.register v file).2.cached? w = none := by
        rw [cached?_register, if_neg hwv]
        exact hnone
      obtain ⟨v', hedge, hmet⟩ := h.met hnone' hw
      refine (hmet.head (grows_of_register hv hscan).cached? hedge hdepth hv
        (progress_register hscan).cached).imp fun hleft ↦ hleft.imp fun he ↦ ?_
      rw [he]
      rfl

theorem opened_of_bare (hv : s.cached? v = none) (hscan : env.scanFile v = .ok file)
    (hdepth : env.settings.followsAt depth = false) :
    Opened env depth v s (s.register v file).2 (.ok s.graph.size) where
  grows := grows_of_register hv hscan
  cached := ⟨s.graph.size, (progress_register hscan).cached, .inl rfl⟩
  met {w j} hnone hw := by
    rw [cached?_register] at hw
    split at hw
    · next heq =>
      rw [heq]
      refine met_self hv ?_
      rw [Left, if_neg (by rw [hdepth]; exact Bool.false_ne_true)]
      exact ⟨s.graph.size, file, progress_register hscan⟩
    · cases hnone.symm.trans hw

theorem nested_of_scan_error (hw : w ∉ free) (hs : ∀ {i}, s.cached? w = some i → ∃ file, env.scanFile w = .ok file)
    {e : Failure} (hscan : env.scanFile w = .error e) : nested env free depth w s = (.error e, s) := by
  rw [nested, if_neg hw, fetch_of_scan_error hs hscan]
  rfl

theorem opened_of_not_mem (hs : Ready env free s) (hw : w ∉ free) (hlisted : w ∈ env.loader.urls) :
    Opened env depth w s (nested env free depth w s).2 (nested env free depth w s).1 := by
  rw [nested, if_neg hw]
  cases hcached : s.cached? w with
  | some i =>
    rw [fetch, hcached]
    exact opened_of_cached hcached
  | none => exact absurd (hs.free hlisted hcached) hw

/-- A file that is opened is registered, and its imports are followed unless it is too far away. -/
theorem openAt_opened (hr : env.Regular) (free : List Text) (depth : Nat) {v : Text} {s : Session}
    (hready : Ready env (v :: free) s) {file : ScannedFile} (hscan : env.scanFile v = .ok file) :
    Opened env depth v s (openAt env free depth v s).2 (openAt env free depth v s).1 := by
  cases hv : s.cached? v with
  | some i =>
    rw [openAt_of_cached hv]
    exact opened_of_cached hv
  | none =>
    have hfetch : fetch env v s = (.ok (s.graph.size, true), (s.register v file).2) := by
      rw [fetch, hv, hscan]
      rfl
    have hprogress : Progress env (s.register v file).2 v s.graph.size file [] := progress_register hscan
    rw [openAt_of_ok hfetch, Bool.true_and]
    cases hdepth : env.settings.followsAt depth with
    | false => exact opened_of_bare hv hscan hdepth
    | true =>
      -- the induction is on the files that are free; one that is not lies on the way here, and is in the cache
      have hopener : OpensAt env free (depth + 1) (nested env free (depth + 1)) := by
        intro w s₁ hs₁
        by_cases hw : w ∈ free
        · rw [nested, if_pos hw]
          exact ⟨openAt_of_scan_error hs₁.scanned, fun hfile _ ↦
            openAt_opened hr (free.erase w) (depth + 1) (hs₁.erase w) hfile⟩
        · exact ⟨nested_of_scan_error hw hs₁.scanned, fun _ hlisted ↦ opened_of_not_mem hs₁ hw hlisted⟩
      obtain ⟨js, hholds, -⟩ := hprogress.holds
      rw [if_pos rfl, hholds.links_eq]
      exact opened_of_followed hv hscan hdepth (followAll_followed hr (nested_steps env free (depth + 1)) hopener
        (hready.register hv hscan) hprogress (List.nil_append _).symm)
termination_by free.length
decreasing_by
  have := List.length_pos_of_mem hw
  rw [List.length_erase_of_mem hw]
  omega

end PolymerAnalysis.Session
