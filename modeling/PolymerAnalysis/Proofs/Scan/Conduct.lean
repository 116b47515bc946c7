import PolymerAnalysis.Failure
import PolymerAnalysis.Proofs.Except
import PolymerAnalysis.Proofs.Scan.Barrier

namespace PolymerAnalysis

namespace Barrier

variable {σ ε φ : Type} {ss : List (Scanner σ ε φ)} {s : Scanner σ ε φ} {i : Nat}

namespace Entry

def scanner : Entry ε → Nat
  | failing i => i
  | visiting i => i
  | tryingToVisit i => i
  | hook i _ => i
  | resumed i => i
  | failed i _ => i
  | returned i => i

def isHook : Entry ε → Bool
  | hook .. => true
  | _ => false

def isVisit : Entry ε → Bool
  | visiting _ => true
  | tryingToVisit _ => true
  | _ => false

def isEnd : Entry ε → Bool
  | failing _ => true
  | returned _ => true
  | _ => false

end Entry

/-- What the scanners `ss` observe, whatever they do. -/
structure Conducted (ss : List (Scanner σ ε φ)) (root : Node) (r : Run σ ε φ) : Prop where
  /-- Nobody is left waiting. -/
  settled : ∃ results : List (Except ε (List φ)), r.progress = results.map .settled ∧ results.length = ss.length
  /-- There is one traversal if somebody comes to a visit, and none otherwise. -/
  once : r.board.begun.length = if r.board.log.any (·.isVisit) then 1 else 0
  /-- The traversal begins when each scanner has visited or come to its end. It calls the hooks of exactly the first
  visitors, in the order of the scanners, and nothing comes between these calls. -/
  traversed : ∃ early calls rest, r.board.log = early ++ calls ++ rest ∧ (∀ k ∈ r.board.begun, k = early.length) ∧
    (∀ j < ss.length, ∃ entry ∈ early, entry.scanner = j ∧ (entry.isVisit || entry.isEnd) = true) ∧
    (∀ entry ∈ early ++ rest, entry.isHook = false) ∧
    List.Forall₂ (fun entry c ↦ ∃ j v, (handed 0 ss)[c.visitor]? = some (j, v) ∧ entry = .hook j c) calls
      (walk ((handed 0 ss).map (·.2)) root).calls
  /-- Each scanner makes its first step. If that is a visit, it comes to what the traversal comes to, and the visits
  after it are late. -/
  own : ∀ j s, ss[j]? = some s → (r.board.log.filter fun entry ↦ entry.scanner = j ∧ entry.isHook = false) =
    s.opening j :: s.closing j (seen ss root j)

theorem opening_scanner (s : Scanner σ ε φ) (i : Nat) : (s.opening i).scanner = i := by
  obtain ⟨_ | ⟨_ | _ | _, _⟩, _, _⟩ := s <;> rfl

theorem opening_not_hook (s : Scanner σ ε φ) (i : Nat) : (s.opening i).isHook = false := by
  obtain ⟨_ | ⟨_ | _ | _, _⟩, _, _⟩ := s <;> rfl

theorem opening_isVisit (s : Scanner σ ε φ) (i : Nat) : (s.opening i).isVisit = s.first?.isSome := by
  obtain ⟨_ | ⟨_ | _ | _, _⟩, _, _⟩ := s <;> rfl

theorem opening_visit_or_end (s : Scanner σ ε φ) (i : Nat) :
    ((s.opening i).isVisit || (s.opening i).isEnd) = true := by
  obtain ⟨_ | ⟨_ | _ | _, _⟩, _, _⟩ := s <;> rfl

theorem lateLog_own {late : ε} {steps : List (Step σ ε)} :
    ∀ entry ∈ Scanner.lateLog late i steps, entry.scanner = i ∧ entry.isHook = false := by
  induction steps with
  | nil => simp [Scanner.lateLog, Entry.scanner, Entry.isHook]
  | cons step steps ih =>
    cases step with
    | fail e => simp [Scanner.lateLog, Entry.scanner, Entry.isHook]
    | visit v => simp [Scanner.lateLog, Entry.scanner, Entry.isHook]
    | tryVisit v => simpa [Scanner.lateLog, Entry.scanner, Entry.isHook] using ih

theorem closing_own {outcome : Except ε (Option σ)} :
    ∀ entry ∈ s.closing i outcome, entry.scanner = i ∧ entry.isHook = false := by
  obtain ⟨_ | ⟨_ | _ | _, rest⟩, late, finish⟩ := s
  · simp [Scanner.closing]
  · simp [Scanner.closing]
  · cases outcome with
    | ok state => simpa [Scanner.closing, Entry.scanner, Entry.isHook] using lateLog_own
    | error e => simp [Scanner.closing, Entry.scanner, Entry.isHook]
  · cases outcome with
    | ok state => simpa [Scanner.closing, Entry.scanner, Entry.isHook] using lateLog_own
    | error e => simpa [Scanner.closing, Entry.scanner, Entry.isHook] using lateLog_own

theorem closing_eq_nil (h : s.first? = none) (outcome : Except ε (Option σ)) : s.closing i outcome = [] := by
  obtain ⟨steps, late, finish⟩ := s
  rcases steps with _ | ⟨_ | _ | _, rest⟩
  · rfl
  · rfl
  · cases h
  · cases h

/-- Where each scanner of a list has its own entries, those of one of them are found by its name. -/
theorem filter_flatMap_own {f : Scanner σ ε φ × Nat → List (Entry ε)}
    (hf : ∀ x, ∀ entry ∈ f x, entry.scanner = x.2 ∧ entry.isHook = false) {xs : List (Scanner σ ε φ × Nat)}
    (hnodup : (xs.map (·.2)).Nodup) (hmem : (s, i) ∈ xs) :
    ((xs.flatMap f).filter fun entry ↦ entry.scanner = i ∧ entry.isHook = false) = f (s, i) := by
  have hself : ((f (s, i)).filter fun entry ↦ entry.scanner = i ∧ entry.isHook = false) = f (s, i) := by
    rw [List.filter_eq_self]
    intro entry hentry
    simpa using hf (s, i) entry hentry
  have hother : ∀ x : Scanner σ ε φ × Nat, x.2 ≠ i →
      ((f x).filter fun entry ↦ entry.scanner = i ∧ entry.isHook = false) = [] := by
    intro x hx
    rw [List.filter_eq_nil_iff]
    intro entry hentry
    have := (hf x entry hentry).1
    simp [this, hx]
  induction xs with
  | nil => cases hmem
  | cons x xs ih =>
    rw [List.map_cons, List.nodup_cons] at hnodup
    rw [List.flatMap_cons, List.filter_append]
    rcases List.mem_cons.1 hmem with rfl | hmem
    · have hrest : ((xs.flatMap f).filter fun entry ↦ entry.scanner = i ∧ entry.isHook = false) = [] := by
        rw [List.filter_flatMap, List.flatMap_eq_nil_iff]
        intro y hy
        apply hother
        intro hsame
        exact hnodup.1 (List.mem_map.2 ⟨y, hy, hsame⟩)
      rw [hself, hrest, List.append_nil]
    · have hne : x.2 ≠ i := by
        intro h
        exact hnodup.1 (List.mem_map.2 ⟨(s, i), hmem, h.symm⟩)
      rw [hother x hne, List.nil_append, ih hnodup.2 hmem]

theorem resumption_perm (ss : List (Scanner σ ε φ)) : (resumption ss).Perm ss.zipIdx := by
  rw [resumption]
  cases h : ss.zipIdx.getLast? with
  | none =>
    rw [List.getLast?_eq_none_iff.1 h]
    rfl
  | some x =>
    rw [← List.dropLast_append_getLast? x h]
    simpa using (List.perm_append_singleton x _).symm

theorem hooks_own (registered : List (Nat × Visitor σ ε)) (root : Node) :
    List.Forall₂ (fun entry c ↦ ∃ j v, registered[c.visitor]? = some (j, v) ∧ entry = .hook j c)
      (hooks registered root) (walk (registered.map (·.2)) root).calls := by
  rw [hooks, List.forall₂_map_left_iff, List.forall₂_same]
  intro c hc
  have hlt : c.visitor < registered.length := by simpa using walk_visitor_lt hc
  refine ⟨registered[c.visitor].1, registered[c.visitor].2, List.getElem?_eq_getElem hlt, ?_⟩
  rw [List.getElem?_eq_getElem hlt]
  rfl

theorem hooks_are_hooks {registered : List (Nat × Visitor σ ε)} {root : Node} :
    ∀ entry ∈ hooks registered root, entry.isHook = true ∧ entry.isVisit = false := by
  intro entry h
  obtain ⟨c, -, rfl⟩ := List.mem_map.1 h
  exact ⟨rfl, rfl⟩

theorem handed_eq_nil_iff : handed 0 ss = [] ↔ ∀ x ∈ ss.zipIdx, x.1.first? = none := by
  rw [handed, List.filterMap_eq_nil_iff]
  simp only [Option.map_eq_none_iff]

theorem log_any_visit (ss : List (Scanner σ ε φ)) (root : Node) :
    (run ss root).board.log.any (·.isVisit) = !(handed 0 ss).isEmpty := by
  obtain ⟨-, -, -, hlog, -⟩ := run_spec ss root
  rw [hlog]
  by_cases hempty : handed 0 ss = []
  · have hnone := handed_eq_nil_iff.1 hempty
    rw [hempty, List.isEmpty_nil, Bool.not_true, List.any_eq_false]
    intro entry h
    rcases List.mem_append.1 h with h | h
    · rcases List.mem_append.1 h with h | h
      · obtain ⟨x, hx, rfl⟩ := List.mem_map.1 h
        simp [opening_isVisit, hnone x hx]
      · simp [(hooks_are_hooks entry h).2]
    · obtain ⟨x, hx, h⟩ := List.mem_flatMap.1 h
      rw [closing_eq_nil (hnone x ((resumption_perm ss).mem_iff.1 hx))] at h
      cases h
  · obtain ⟨x, hx, hsome⟩ : ∃ x ∈ ss.zipIdx, x.1.first? ≠ none := by
      by_contra hall
      apply hempty
      rw [handed_eq_nil_iff]
      intro x hx
      by_contra hsome
      exact hall ⟨x, hx, hsome⟩
    have hvisit : (x.1.opening x.2).isVisit = true := by
      rw [opening_isVisit]
      exact Option.isSome_iff_ne_none.2 hsome
    have hnonempty : (!(handed 0 ss).isEmpty) = true := by simpa using hempty
    rw [hnonempty, List.any_eq_true]
    refine ⟨x.1.opening x.2, ?_, hvisit⟩
    apply List.mem_append_left
    apply List.mem_append_left
    exact List.mem_map.2 ⟨x, hx, rfl⟩

/-- Of what a scanner itself does, the log holds its first step and what it does after the traversal. -/
theorem log_own (root : Node) (hs : ss[i]? = some s) :
    ((run ss root).board.log.filter fun entry ↦ entry.scanner = i ∧ entry.isHook = false) =
      s.opening i :: s.closing i (seen ss root i) := by
  obtain ⟨-, -, -, hlog, -⟩ := run_spec ss root
  have hnodup : (ss.zipIdx.map (·.2)).Nodup := by
    rw [List.zipIdx_map_snd]
    exact List.nodup_range'
  have hmem : (s, i) ∈ ss.zipIdx := List.mem_zipIdx_iff_getElem?.2 hs
  have hperm := resumption_perm ss
  have hhooks : ((hooks (handed 0 ss) root).filter fun entry ↦ entry.scanner = i ∧ entry.isHook = false) = [] := by
    rw [List.filter_eq_nil_iff]
    intro entry h
    simp [(hooks_are_hooks entry h).1]
  have hfirst := filter_flatMap_own (f := fun x : Scanner σ ε φ × Nat ↦ [x.1.opening x.2])
    (fun x entry h ↦ by
      rw [List.mem_singleton.1 h]
      exact ⟨opening_scanner x.1 x.2, opening_not_hook x.1 x.2⟩) hnodup hmem
  -- the scanners go on in another order, but each of them only once
  have hlater := filter_flatMap_own (f := fun x : Scanner σ ε φ × Nat ↦ x.1.closing x.2 (seen ss root x.2))
    (fun x entry h ↦ closing_own entry h) ((hperm.map _).nodup_iff.2 hnodup) (hperm.mem_iff.2 hmem)
  rw [hlog, List.map_eq_flatMap, List.filter_append, List.filter_append, hhooks, hfirst, hlater]
  rfl

/-- Whatever the scanners do, all of them settle, and one traversal at most goes to the first visitors. -/
theorem run_conducted (ss : List (Scanner σ ε φ)) (root : Node) : Conducted ss root (run ss root) := by
  obtain ⟨-, -, hbegun, hlog, hprogress⟩ := run_spec ss root
  refine ⟨?_, ?_, ?_, fun j s hs ↦ log_own root hs⟩
  · refine ⟨ss.zipIdx.map fun x ↦ x.1.result (seen ss root x.2), ?_, by simp⟩
    rw [hprogress, List.map_map]
    rfl
  · rw [hbegun, log_any_visit]
    by_cases hempty : handed 0 ss = [] <;> simp [hempty]
  · refine ⟨_, _, _, hlog, ?_, ?_, ?_, hooks_own (handed 0 ss) root⟩
    · intro k hk
      rw [hbegun] at hk
      split at hk
      · cases hk
      · simpa using hk
    · intro j hj
      refine ⟨ss[j].opening j, ?_, opening_scanner _ j, opening_visit_or_end _ j⟩
      refine List.mem_map.2 ⟨(ss[j], j), ?_, rfl⟩
      rw [List.mem_zipIdx_iff_getElem?]
      exact List.getElem?_eq_getElem hj
    · intro entry h
      rcases List.mem_append.1 h with h | h
      · obtain ⟨x, -, rfl⟩ := List.mem_map.1 h
        exact opening_not_hook x.1 x.2
      · obtain ⟨x, -, h⟩ := List.mem_flatMap.1 h
        exact (closing_own entry h).2

theorem collect_ok (parts : List (List φ)) :
    collect (parts.map fun part ↦ (.settled (.ok part) : Progress σ ε φ)) = .ok parts.flatten := by
  induction parts with
  | nil => rfl
  | cons part parts ih =>
    rw [List.map_cons, collect, ih]
    rfl

theorem collect_error (parts : List (List φ)) (e : ε) (rest : List (Progress σ ε φ)) :
    collect (parts.map (fun part ↦ .settled (.ok part)) ++ .settled (.error e) :: rest) = .error e := by
  induction parts with
  | nil => rfl
  | cons part parts ih =>
    rw [List.map_cons, List.cons_append, collect, ih]
    rfl

theorem lateResult_ok_iff (s : Scanner σ ε φ) (state : Option σ) (steps : List (Step σ ε)) :
    (∃ fs, s.lateResult state steps = .ok fs) ↔ ∀ step ∈ steps, ∃ v, step = .tryVisit v := by
  induction steps with
  | nil => simp [Scanner.lateResult]
  | cons step steps ih => cases step <;> simp [Scanner.lateResult, ih]

/-- A scanner survives a failed traversal if it only tries to visit. -/
theorem result_error_ok_iff (s : Scanner σ ε φ) (e : ε) :
    (∃ fs, s.result (.error e) = .ok fs) ↔ ∀ step ∈ s.steps, ∃ v, step = .tryVisit v := by
  have hlate := lateResult_ok_iff s none
  obtain ⟨_ | ⟨_ | _ | _, rest⟩, late, finish⟩ := s
  · simp [Scanner.result]
  · simp [Scanner.result]
  · simp [Scanner.result]
  · simpa [Scanner.result] using hlate rest

theorem progress_eq (ss : List (Scanner σ ε φ)) (root : Node) :
    (run ss root).progress = (ss.zipIdx.map fun x ↦ x.1.result (seen ss root x.2)).map .settled := by
  obtain ⟨-, -, -, -, hprogress⟩ := run_spec ss root
  rw [hprogress, List.map_map]
  rfl

theorem progress_all_or_first (ss : List (Scanner σ ε φ)) (root : Node) :
    (∃ parts : List (List φ), (run ss root).progress = parts.map fun part ↦ .settled (.ok part)) ∨
      ∃ (parts : List (List φ)) (e : ε) (rest : List (Progress σ ε φ)),
        (run ss root).progress = parts.map (fun part ↦ .settled (.ok part)) ++ .settled (.error e) :: rest := by
  rw [progress_eq]
  rcases all_or_first (ss.zipIdx.map fun x ↦ x.1.result (seen ss root x.2)) with ⟨parts, h⟩ | ⟨parts, e, rest, h⟩
  · left
    refine ⟨parts, ?_⟩
    rw [h, List.map_map]
    rfl
  · right
    refine ⟨parts, e, rest.map .settled, ?_⟩
    rw [h, List.map_append, List.map_map]
    rfl

theorem scan_ok_iff (ss : List (Scanner σ ε φ)) (root : Node) (fs : List φ) :
    scan ss root = .ok fs ↔ ∃ parts : List (List φ),
      (run ss root).progress = parts.map (fun part ↦ .settled (.ok part)) ∧ fs = parts.flatten := by
  rw [scan]
  constructor
  · intro h
    rcases progress_all_or_first ss root with ⟨parts, hparts⟩ | ⟨parts, e, rest, hparts⟩
    · rw [hparts, collect_ok] at h
      cases h
      exact ⟨parts, hparts, rfl⟩
    · rw [hparts, collect_error] at h
      cases h
  · rintro ⟨parts, hparts, rfl⟩
    rw [hparts, collect_ok]

theorem scan_error_iff (ss : List (Scanner σ ε φ)) (root : Node) (e : ε) :
    scan ss root = .error e ↔ ∃ (parts : List (List φ)) (rest : List (Progress σ ε φ)),
      (run ss root).progress = parts.map (fun part ↦ .settled (.ok part)) ++ .settled (.error e) :: rest := by
  rw [scan]
  constructor
  · intro h
    rcases progress_all_or_first ss root with ⟨parts, hparts⟩ | ⟨parts, e', rest, hparts⟩
    · rw [hparts, collect_ok] at h
      cases h
    · rw [hparts, collect_error] at h
      cases h
      exact ⟨parts, rest, hparts⟩
  · rintro ⟨parts, rest, hparts⟩
    rw [hparts, collect_error]

theorem scan_succeeds_iff (ss : List (Scanner σ ε φ)) (root : Node) :
    (∃ fs, scan ss root = .ok fs) ↔ ∀ x ∈ ss.zipIdx, ∃ fs, x.1.result (seen ss root x.2) = .ok fs := by
  constructor
  · rintro ⟨fs, hscan⟩ x hx
    obtain ⟨parts, hparts, -⟩ := (scan_ok_iff ss root fs).1 hscan
    have hmem : (.settled (x.1.result (seen ss root x.2)) : Progress σ ε φ) ∈ (run ss root).progress := by
      rw [progress_eq]
      exact List.mem_map_of_mem (List.mem_map.2 ⟨x, hx, rfl⟩)
    rw [hparts] at hmem
    obtain ⟨part, -, hpart⟩ := List.mem_map.1 hmem
    exact ⟨part, (Progress.settled.inj hpart).symm⟩
  · intro hall
    rcases all_or_first (ss.zipIdx.map fun x ↦ x.1.result (seen ss root x.2)) with ⟨parts, h⟩ | ⟨parts, e, rest, h⟩
    · refine ⟨parts.flatten, (scan_ok_iff ss root _).2 ⟨parts, ?_, rfl⟩⟩
      rw [progress_eq, h, List.map_map]
      rfl
    · have hmem : (.error e : Except ε (List φ)) ∈ ss.zipIdx.map fun x ↦ x.1.result (seen ss root x.2) := by
        rw [h]
        simp
      obtain ⟨x, hx, hfail⟩ := List.mem_map.1 hmem
      obtain ⟨fs, hfs⟩ := hall x hx
      cases hfs.symm.trans hfail

theorem seen_of_error {root : Node} {e : ε} (h : (run ss root).board.traversal = some (.error e)) (i : Nat) :
    seen ss root i = .error e := by
  obtain ⟨-, htraversal, -, -, -⟩ := run_spec ss root
  rw [htraversal] at h
  split at h
  · cases h
  · rw [seen, Option.some.inj h]
    rfl

/-- A scan gives the features of all scanners in order, or fails as the first scanner does that fails. A failure of the
traversal is lost if every scanner takes it for a failed try, and only then. -/
theorem scan_outcome (ss : List (Scanner σ ε φ)) (root : Node) :
    (∀ fs, scan ss root = .ok fs ↔ ∃ parts : List (List φ),
      (run ss root).progress = parts.map (fun part ↦ .settled (.ok part)) ∧ fs = parts.flatten) ∧
    (∀ e, scan ss root = .error e ↔ ∃ (parts : List (List φ)) (rest : List (Progress σ ε φ)),
      (run ss root).progress = parts.map (fun part ↦ .settled (.ok part)) ++ .settled (.error e) :: rest) ∧
    ∀ e, (run ss root).board.traversal = some (.error e) →
      ((∃ fs, scan ss root = .ok fs) ↔ ∀ s ∈ ss, ∀ step ∈ s.steps, ∃ v, step = .tryVisit v) := by
  refine ⟨scan_ok_iff ss root, scan_error_iff ss root, ?_⟩
  intro e he
  rw [scan_succeeds_iff]
  simp only [seen_of_error he, result_error_ok_iff]
  constructor
  · intro hall s hs
    rw [← List.zipIdx_map_fst 0 ss] at hs
    obtain ⟨x, hx, rfl⟩ := List.mem_map.1 hs
    exact hall x hx
  · intro hall x hx
    apply hall
    rw [← List.zipIdx_map_fst 0 ss]
    exact List.mem_map_of_mem hx

def undeterred : Scanner Unit Failure Text where
  steps := [.tryVisit {
    start := ()
    enter := fun kind ↦ if kind = "program" then some fun _ _ ↦ .error (.raised "enter program") else none
    leave := fun _ ↦ none }]
  late := .lateVisitor "<Scripted 'a'>" "test.js"
  finish := fun _ ↦ ["F"]

def statement : Node :=
  .mk "program" none true false 0 2 "a;" [
    .mk "expression_statement" none true false 0 2 "a;" [
      .mk "identifier" none true false 0 1 "a" [], .mk ";" none false false 1 2 ";" []]]

theorem traversal_failure_lost :
    (run [undeterred] statement).board.traversal = some (.error (.raised "enter program")) ∧
      scan [undeterred] statement = .ok ["F"] := ⟨rfl, rfl⟩

end Barrier

end PolymerAnalysis
