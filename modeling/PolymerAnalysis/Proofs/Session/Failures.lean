import PolymerAnalysis.Proofs.Session.Analyses
import PolymerAnalysis.Proofs.Session.Pages

namespace PolymerAnalysis.Session

variable {env : Environment} {s s' : Session} {asked urls : List Text} {u v : Text} {i j : DocId} {file : ScannedFile}
  {done : List ImportFeature} {l : ImportFeature} {e : Failure}

def Settled (env : Environment) (s : Session) (i : DocId) (l : ImportFeature) : Prop :=
  match env.outcome l with
  | .ok .linked => ∃ j ∈ s.graph.importsOf i, s.graph.url j = l.url
  | .ok (.refused _) => ∃ reason, l.couldNotLoad reason ∈ s.graph.warningsOf i
  | .ok .outside => True
  | .error _ => False

theorem Progress.settled_of_mem (h : Progress env s u i file done) (hs : s.Coherent) (hl : l ∈ done) :
    Settled env s i l := by
  obtain ⟨o, ho⟩ := h.settled l hl
  rw [Settled, ho]
  cases o with
  | outside => trivial
  | refused ws =>
    obtain ⟨reason, hreason⟩ := Environment.exists_couldNotLoad ho
    refine ⟨reason, ?_⟩
    rw [h.warningsOf_eq]
    refine List.mem_append_right _ (List.mem_flatMap.2 ⟨l, hl, ?_⟩)
    rw [Environment.complaints, ho]
    exact hreason
  | linked =>
    obtain ⟨j, hj, hcached⟩ := h.cached_target hl ho
    exact ⟨j, hj, (hs.placed hcached).2.1⟩

theorem Whole.settled (h : Whole env s u) (hs : s.Coherent) (hu : s.cached? u = some i) :
    ∀ l ∈ s.graph.links i, Settled env s i l := by
  obtain ⟨i', file, h⟩ := h
  cases hu.symm.trans h.cached
  rw [h.links_eq]
  exact fun l hl ↦ h.settled_of_mem hs hl

section Repeat

theorem analyze_of_cached (hurls : ∀ u ∈ urls, ∃ i, s.cached? u = some i) :
    ∃ is, analyze env urls s = (.ok is, s) := by
  induction urls with
  | nil => exact ⟨[], rfl⟩
  | cons u urls ih =>
    obtain ⟨i, hi⟩ := hurls u List.mem_cons_self
    obtain ⟨is, his⟩ := ih fun v hv ↦ hurls v (List.mem_cons_of_mem u hv)
    refine ⟨i :: is, ?_⟩
    rw [analyze, openDocument_of_cached hi]
    simp only [his]
    rfl

theorem analyze_of_error {before after : List Text} (hbefore : ∀ v ∈ before, ∃ i, s.cached? v = some i)
    (hu : openDocument env u s = (.error e, s)) : analyze env (before ++ u :: after) s = (.error e, s) := by
  induction before with
  | nil => rw [List.nil_append, analyze, hu]
  | cons v before ih =>
    obtain ⟨i, hi⟩ := hbefore v List.mem_cons_self
    rw [List.cons_append, analyze, openDocument_of_cached hi]
    simp only [ih fun w hw ↦ hbefore w (List.mem_cons_of_mem v hw)]
    rfl

theorem analyze_error (hr : env.Regular) (hs : Explored env asked s) (h : analyze env urls s = (.error e, s')) :
    ∃ before u after, urls = before ++ u :: after ∧ (∀ v ∈ before, ∃ i, s'.cached? v = some i) ∧
      (env.scanFile u = .error e ∨ Broken env s' e u ∧ ∃ i, s'.cached? u = some i) := by
  induction urls generalizing asked s with
  | nil => cases h
  | cons u urls ih =>
    have hsteps := (openAt_steps env (env.loader.urls.erase u) 0 u s).2
    have hexplored := hs.openDocument hr u
    rw [analyze] at h
    cases hopen : openDocument env u s with
    | mk result s₁ =>
      rw [hopen] at h hexplored
      rw [← openDocument, hopen] at hsteps
      cases result with
      | error e' =>
        cases h
        refine ⟨[], u, urls, rfl, by simp, ?_⟩
        cases hscan : env.scanFile u with
        | error e' =>
          rw [openDocument_of_scan_error hs.ready hscan] at hopen
          cases hopen
          exact .inl rfl
        | ok file =>
          have hopened := openDocument_opened hr hs.ready hscan
          rw [hopen] at hopened
          obtain ⟨i, hi, hok | ⟨e', he', -, hbroken⟩⟩ := hopened.cached
          · cases hok
          · cases he'
            exact .inr ⟨hbroken, i, hi⟩
      | ok i =>
        cases hrest : analyze env urls s₁ with
        | mk rest s₂ =>
          simp only [hrest] at h
          have hs₂ : s₂ = s' := congrArg Prod.snd h
          cases rest with
          | ok is => cases congrArg Prod.fst h
          | error e' =>
            cases congrArg Prod.fst h
            subst hs₂
            obtain ⟨before, v, after, rfl, hbefore, hv⟩ := ih hexplored hrest
            refine ⟨u :: before, v, after, rfl, fun w hw ↦ ?_, hv⟩
            rcases List.mem_cons.1 hw with rfl | hw
            · have hkeep := analyze_steps env (before ++ v :: after) s₁
              rw [hrest] at hkeep
              exact ⟨i, keeps_cached hkeep (hsteps i rfl)⟩
            · exact hbefore w hw

end Repeat

/-- When an analysis fails, every document of the cache has settled its imports, or was met where imports are not
followed, or is broken. The failure is that of a file that was asked for and cannot be scanned, and then comes
again; or the document of a file that was asked for is broken, and from then on it is given back as it is. -/
theorem left_by_failure (hr : env.Regular) (calls : List (List Text))
    (h : analyze env urls (afterAnalyses env calls) = (.error e, s')) :
    (∀ u i, s'.cached? u = some i → (∀ l ∈ s'.graph.links i, Settled env s' i l) ∨
      (∃ r ∈ calls.flatten ++ urls, ∃ between, env.Way r between u ∧
        env.settings.followsAt between.length = false) ∨
      ∃ e', e'.isSurvived = false ∧ Broken env s' e' u) ∧
    ∃ before u after, urls = before ++ u :: after ∧
      (env.scanFile u = .error e ∧ analyze env urls s' = (.error e, s') ∨
        Broken env s' e u ∧ ∃ is, analyze env (before ++ [u]) s' = (.ok is, s')) := by
  have hexplored := (explored_afterAnalyses hr calls).analyze hr urls
  rw [h] at hexplored
  refine ⟨fun u i hu ↦ ?_, ?_⟩
  · obtain ⟨r, hr, between, hway, -, -, hleft⟩ := hexplored.met hu
    rw [Left] at hleft
    split at hleft
    · rcases hleft with hwhole | hbroken
      · exact .inl (hwhole.settled hexplored.ready.coherent hu)
      · exact .inr (.inr hbroken)
    · next hdepth => exact .inr (.inl ⟨r, hr, between, hway, Bool.eq_false_iff.2 hdepth⟩)
  · obtain ⟨before, u, after, rfl, hbefore, hscan | ⟨hbroken, hu⟩⟩ :=
      analyze_error hr (explored_afterAnalyses hr calls) h
    · exact ⟨before, u, after, rfl, .inl ⟨hscan,
        analyze_of_error hbefore (openDocument_of_scan_error hexplored.ready hscan)⟩⟩
    · refine ⟨before, u, after, rfl, .inr ⟨hbroken, analyze_of_cached fun v hv ↦ ?_⟩⟩
      rcases List.mem_append.1 hv with hv | hv
      · exact hbefore v hv
      · exact List.mem_singleton.1 hv ▸ hu

def malformedPackage : Environment :=
  Page.environment [⟨"a.html", some "b.html"⟩, ⟨"b.html", some "//["⟩] 64

theorem regular_malformedPackage : malformedPackage.Regular := Page.regular_environment _ 64

theorem exists_scanFile_malformedPackage : ∃ file, malformedPackage.scanFile "a.html" = .ok file := by
  have hok : (malformedPackage.scanFile "a.html").toBool = true := by decide +kernel
  cases hscan : malformedPackage.scanFile "a.html" with
  | ok file => exact ⟨file, rfl⟩
  | error e =>
    rw [hscan] at hok
    cases hok

theorem openDocument_malformedPackage :
    (openDocument malformedPackage "a.html" {}).1 = .error (.address .misplacedBrackets) := by decide +kernel

theorem analyze_malformedPackage : analyze malformedPackage ["a.html"] (afterAnalyses malformedPackage []) =
    (.error (.address .misplacedBrackets), (openDocument malformedPackage "a.html" {}).2) := by
  have hopen := openDocument_malformedPackage
  rw [analyze]
  split
  · next e s hresult =>
    have hresult : openDocument malformedPackage "a.html" {} = (.error e, s) := hresult
    rw [hresult] at hopen ⊢
    cases hopen
    rfl
  · next i s hresult =>
    have hresult : openDocument malformedPackage "a.html" {} = (.ok i, s) := hresult
    rw [hresult] at hopen
    cases hopen

theorem left_in_malformedPackage : ∃ s',
    analyze malformedPackage ["a.html"] (afterAnalyses malformedPackage []) =
      (.error (.address .misplacedBrackets), s') ∧
    Broken malformedPackage s' (.address .misplacedBrackets) "a.html" ∧
    ∃ is, analyze malformedPackage ["a.html"] s' = (.ok is, s') := by
  refine ⟨_, analyze_malformedPackage, ?_⟩
  obtain ⟨-, before, u, after, hurls, hfailed⟩ :=
    left_by_failure regular_malformedPackage [] analyze_malformedPackage
  cases before with
  | nil =>
    cases hurls
    rcases hfailed with ⟨hscan, -⟩ | hbroken
    · obtain ⟨file, hfile⟩ := exists_scanFile_malformedPackage
      cases hfile.symm.trans hscan
    · exact hbroken
  | cons v before => simp at hurls

/-- After a failure the same call may give back what it left. -/
theorem broken_document_given_back : ¬∀ (env : Environment) (files : Files), env.loader = files.loader →
    ∀ (calls : List (List Text)) (urls : List Text) (e : Failure) (s : Session),
      analyze env urls (afterAnalyses env calls) = (.error e, s) →
      (∀ u i, s.cached? u = some i → (∀ n, env.settings.followsAt n = true) →
        ∀ l ∈ s.graph.links i, Url.isExternal l.url = .ok false →
          (∃ j, s.graph.Imports i j ∧ s.graph.url j = l.url) ∨ ∃ reason, l.couldNotLoad reason ∈ s.graph.warningsOf i) ∧
      ∃ e', (analyze env urls s).1 = .error e' := by
  intro h
  obtain ⟨-, e', he'⟩ := h malformedPackage _ rfl [] ["a.html"] _ _ analyze_malformedPackage
  obtain ⟨file, hscan⟩ := exists_scanFile_malformedPackage
  obtain ⟨i, hi, -⟩ :=
    (openDocument_opened regular_malformedPackage (ready_empty malformedPackage) hscan).cached
  have hcached : ∀ u ∈ [Text.ofString "a.html"], ∃ i, (openDocument malformedPackage "a.html" {}).2.cached? u = some i := by
    intro u hu
    rw [List.mem_singleton.1 hu]
    exact ⟨i, hi⟩
  obtain ⟨is, his⟩ := analyze_of_cached hcached
  rw [his] at he'
  cases he'

/-- When a file is opened that can be scanned, every import that is followed is linked or reported with its place;
unless one of them failed in a way that is not survived, and then the file asked for is not given back either. -/
theorem imports_settled_or_failed (hr : env.Regular) (hscan : env.scanFile u = .ok file) :
    (∃ i s', openDocument env u {} = (.ok i, s') ∧ s'.cached? u = some i ∧
      ∀ v j, s'.cached? v = some j → ∃ between, env.Way u between v ∧
        (env.settings.followsAt between.length = true → ∀ l ∈ s'.graph.links j, Settled env s' j l)) ∨
    ∃ e s', openDocument env u {} = (.error e, s') ∧ e.isSurvived = false ∧
      ∃ between v file l, env.Way u between v ∧ env.scanFile v = .ok file ∧ l ∈ file.links ∧
        env.outcome l = .error e := by
  have hopened := openDocument_opened hr (ready_empty env) hscan
  have hs : (openDocument env u {}).2.Coherent := ((ready_empty env).openDocument u).coherent
  cases hopen : openDocument env u {} with
  | mk result s' =>
    rw [hopen] at hopened hs
    obtain ⟨i, hi, rfl | ⟨e, rfl, hsurvived, hbroken⟩⟩ := hopened.cached
    · refine .inl ⟨i, s', rfl, hi, fun v j hv ↦ ?_⟩
      obtain ⟨between, hway, -, -, -, hleft⟩ := hopened.met rfl hv
      refine ⟨between, hway, fun hdepth ↦ ?_⟩
      rw [Nat.zero_add, Left, if_pos hdepth] at hleft
      rcases hleft with hwhole | ⟨e, he, -⟩
      · exact hwhole.settled hs hv
      · cases he
    · exact .inr ⟨e, s', rfl, hsurvived, hbroken.exists_outcome⟩

theorem failed_in_malformedPackage : ∃ between v file l, malformedPackage.Way "a.html" between v ∧
    malformedPackage.scanFile v = .ok file ∧ l ∈ file.links ∧
      malformedPackage.outcome l = .error (.address .misplacedBrackets) := by
  obtain ⟨file, hscan⟩ := exists_scanFile_malformedPackage
  have hopen := openDocument_malformedPackage
  rcases imports_settled_or_failed regular_malformedPackage hscan with
    ⟨i, s', hok, -⟩ | ⟨e, s', he, -, hfailed⟩
  · rw [hok] at hopen
    cases hopen
  · rw [he] at hopen
    cases hopen
    exact hfailed

/-- With the default settings a file that can be scanned may still not be given back. -/
theorem importer_of_malformed_link_failed : ¬∀ (env : Environment) (files : Files), env.loader = files.loader →
    ({} : Config).settings Registry.standard = .ok env.settings →
    ∀ (u : Text) (file : ScannedFile), env.scanFile u = .ok file → ∃ i, (openDocument env u {}).1 = .ok i := by
  intro h
  have hsettings : ({} : Config).settings Registry.standard = .ok (Page.settings 64) := rfl
  obtain ⟨file, hscan⟩ := exists_scanFile_malformedPackage
  obtain ⟨i, hi⟩ := h malformedPackage _ rfl hsettings "a.html" file hscan
  cases openDocument_malformedPackage.symm.trans hi

end PolymerAnalysis.Session
