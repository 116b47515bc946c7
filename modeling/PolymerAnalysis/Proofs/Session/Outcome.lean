import PolymerAnalysis.Proofs.Session.Steps

namespace PolymerAnalysis

def Document.links (d : Document) : List ImportFeature :=
  d.features.filterMap fun f ↦ match f with
    | .link l => some l
    | _ => none

def ScannedFile.links (file : ScannedFile) : List ImportFeature :=
  (file.document :: file.inlines).flatMap Document.links

/-- Whether a document survives that failure of a file it imports. -/
def Failure.isSurvived : Failure → Bool
  | .load _ _ => true
  | .syntaxError _ => true
  | _ => false

/-- What an import comes to: it leads out of the package, it is refused with some warnings, or it is linked. -/
inductive Outcome where
  | outside
  | refused (ws : List Warning)
  | linked

namespace Environment

/-- What an import comes to. It is the files that decide this, and not what was opened before. -/
def outcome (env : Environment) (l : ImportFeature) : Except Failure Outcome :=
  match Session.prospect env l.url with
  | .error e => .error e
  | .ok .external => .ok .outside
  | .ok .unavailable => .ok (.refused [l.couldNotLoad "no loader can load it"])
  | .ok .available =>
    match env.scanFile l.url with
    | .ok _ => .ok .linked
    | .error (.load _ e) => .ok (.refused [l.couldNotLoad e.reason])
    | .error (.syntaxError w) => .ok (.refused [w, l.couldNotLoad "it could not be parsed"])
    | .error e => .error e

def target? (env : Environment) (l : ImportFeature) : Option Text :=
  match env.outcome l with
  | .ok .linked => some l.url
  | _ => none

def complaints (env : Environment) (l : ImportFeature) : List Warning :=
  match env.outcome l with
  | .ok (.refused ws) => ws
  | _ => []

def Links (env : Environment) (u v : Text) : Prop :=
  ∃ file, env.scanFile u = .ok file ∧ ∃ l ∈ file.links, env.outcome l = .ok .linked ∧ l.url = v

/-- A way along imports from one file to another, through the files listed. -/
inductive Way (env : Environment) : Text → List Text → Text → Prop
  | refl (u : Text) : Way env u [] u
  | head {u v w : Text} {between : List Text} :
      env.Links u v → Way env v between w → Way env u (u :: between) w

/-- The loader lists every file that an import is linked to, and to ask it for a file is no attempt to load one. -/
structure Regular (env : Environment) : Prop where
  listed : ∀ {u v}, env.Links u v → v ∈ env.loader.urls
  frank : ∀ {url e}, env.loader.canLoad url = .error e → e.isSurvived = false

section

variable {env : Environment} {l : ImportFeature} {u v w : Text} {e : Failure} {file : ScannedFile}

theorem prospect_of_error {fault : Url.Fault} (h : Url.isExternal u = .error fault) :
    Session.prospect env u = .error (.address fault) := by
  rw [Session.prospect, h]
  rfl

theorem prospect_of_external (h : Url.isExternal u = .ok true) : Session.prospect env u = .ok .external := by
  rw [Session.prospect, h]
  rfl

theorem prospect_of_inside (h : Url.isExternal u = .ok false) :
    Session.prospect env u = (env.loader.canLoad u).map fun known ↦ if known then .available else .unavailable := by
  rw [Session.prospect, h]
  cases hload : env.loader.canLoad u with
  | error e => simp only [Except.mapError, bind, Except.bind, Except.map, Bool.false_eq_true, if_false]
  | ok known =>
    simp only [Except.mapError, bind, Except.bind, Except.map, Bool.false_eq_true, if_false]
    cases known <;> rfl

theorem isExternal_of_prospect {p : Session.Prospect} (h : Session.prospect env u = .ok p) :
    Url.isExternal u = .ok (decide (p = .external)) := by
  cases hu : Url.isExternal u with
  | error fault =>
    rw [prospect_of_error hu] at h
    cases h
  | ok outside =>
    cases outside with
    | true =>
      rw [prospect_of_external hu] at h
      cases h
      rfl
    | false =>
      rw [prospect_of_inside hu] at h
      obtain ⟨known, -, rfl⟩ := exists_of_map_eq_ok h
      cases known <;> rfl

theorem Regular.isSurvived_of_prospect (hr : env.Regular) (h : Session.prospect env u = .error e) :
    e.isSurvived = false := by
  cases hu : Url.isExternal u with
  | error fault =>
    rw [prospect_of_error hu] at h
    cases h
    rfl
  | ok outside =>
    cases outside with
    | true =>
      rw [prospect_of_external hu] at h
      cases h
    | false =>
      rw [prospect_of_inside hu] at h
      cases hload : env.loader.canLoad u with
      | error e' =>
        rw [hload] at h
        cases h
        exact hr.frank hload
      | ok known =>
        rw [hload] at h
        cases h

theorem Regular.isSurvived_of_outcome (hr : env.Regular) (h : env.outcome l = .error e) : e.isSurvived = false := by
  rw [outcome] at h
  split at h
  · next e' hp =>
    cases h
    exact hr.isSurvived_of_prospect hp
  · cases h
  · cases h
  · split at h
    · cases h
    · cases h
    · cases h
    · next hload hparse hscan =>
      cases h
      cases e with
      | load url fault => exact absurd rfl (hload url fault)
      | syntaxError w => exact absurd rfl (hparse w)
      | _ => rfl

theorem outcome_linked_iff : env.outcome l = .ok .linked ↔
    Session.prospect env l.url = .ok .available ∧ ∃ file, env.scanFile l.url = .ok file := by
  rw [outcome]
  constructor
  · intro h
    split at h
    · cases h
    · cases h
    · cases h
    · next hp =>
      split at h
      · next file hfile => exact ⟨hp, file, hfile⟩
      · cases h
      · cases h
      · cases h
  · rintro ⟨hp, file, hfile⟩
    rw [hp, hfile]

theorem exists_couldNotLoad {ws : List Warning} (h : env.outcome l = .ok (.refused ws)) :
    ∃ reason, l.couldNotLoad reason ∈ ws := by
  rw [outcome] at h
  split at h
  · cases h
  · cases h
  · cases h
    exact ⟨_, List.mem_singleton_self _⟩
  · split at h
    · cases h
    · cases h
      exact ⟨_, List.mem_singleton_self _⟩
    · cases h
      exact ⟨_, List.mem_cons_of_mem _ (List.mem_singleton_self _)⟩
    · cases h

theorem isExternal_of_outside (h : env.outcome l = .ok .outside) : Url.isExternal l.url = .ok true := by
  rw [outcome] at h
  split at h
  · cases h
  · next hp => exact isExternal_of_prospect hp
  · cases h
  · split at h <;> cases h

theorem target?_eq_some_iff : env.target? l = some v ↔ env.outcome l = .ok .linked ∧ l.url = v := by
  rw [target?]
  split
  · next ho => simp [ho]
  · next ho => exact ⟨fun h ↦ (by cases h), fun h ↦ absurd h.1 ho⟩

theorem links_iff (h : env.scanFile u = .ok file) : env.Links u v ↔ v ∈ file.links.filterMap env.target? := by
  simp only [List.mem_filterMap, target?_eq_some_iff]
  constructor
  · rintro ⟨file', hscan, hl⟩
    cases h.symm.trans hscan
    exact hl
  · exact fun hl ↦ ⟨file, h, hl⟩

theorem Way.trans {between between' : List Text} (h : env.Way u between v) (h' : env.Way v between' w) :
    env.Way u (between ++ between') w := by
  induction h with
  | refl => exact h'
  | head hlink _ ih => exact .head hlink (ih h')

end

end Environment

theorem Files.mem_of_load {files : Files} {url text : Text} (h : files.loader.load url = .ok text) :
    url ∈ files.map (·.1) := by
  simp only [Files.loader] at h
  cases hlookup : files.lookup url with
  | none =>
    rw [hlookup] at h
    cases h
  | some contents =>
    obtain ⟨before, after, hfiles, -⟩ := List.lookup_eq_some_iff.1 hlookup
    simp [hfiles]

theorem Environment.exists_load {env : Environment} {url : Text} {file : ScannedFile}
    (h : env.scanFile url = .ok file) : ∃ text, env.loader.load url = .ok text := by
  rw [scanFile] at h
  split at h
  · cases h
  · obtain ⟨text, hload, -⟩ := exists_of_bind_eq_ok h
    exact ⟨text, hload⟩

theorem Environment.mem_urls_of_scanFile {env : Environment} {files : Files} {u : Text} {file : ScannedFile}
    (h : env.loader = files.loader) (hscan : env.scanFile u = .ok file) : u ∈ env.loader.urls := by
  obtain ⟨text, hload⟩ := exists_load hscan
  rw [h] at hload ⊢
  exact Files.mem_of_load hload

theorem Environment.regular_of_files {env : Environment} {files : Files} (h : env.loader = files.loader) :
    env.Regular where
  listed := by
    rintro u v ⟨file, -, l, -, hl, rfl⟩
    obtain ⟨-, target, htarget⟩ := outcome_linked_iff.1 hl
    exact mem_urls_of_scanFile h htarget
  frank := by
    intro url e hload
    rw [h] at hload
    cases hload

end PolymerAnalysis
