import PolymerAnalysis.Proofs.Lists
import PolymerAnalysis.Proofs.Scan.Interleaving
import PolymerAnalysis.Proofs.Scan.Scripts

namespace PolymerAnalysis

namespace Barrier

variable {σ ε φ : Type} {b : Board σ ε} {i n : Nat} {s last : Scanner σ ε φ} {result : Except ε (List σ)}
  {front ss : List (Scanner σ ε φ)}

/-- The first visitor of each scanner that has one, with the index of the scanner, from `i` on. -/
def handed (i : Nat) (ss : List (Scanner σ ε φ)) : List (Nat × Visitor σ ε) :=
  (ss.zipIdx i).filterMap fun x ↦ x.1.first?.map (x.2, ·)

theorem handed_cons (i : Nat) (s : Scanner σ ε φ) (ss : List (Scanner σ ε φ)) :
    handed i (s :: ss) = (s.first?.map (i, ·)).toList ++ handed (i + 1) ss := by
  rw [handed, List.zipIdx_cons, List.filterMap_cons]
  cases s.first? <;> rfl

def hooks (registered : List (Nat × Visitor σ ε)) (root : Node) : List (Entry ε) :=
  (walk (registered.map (·.2)) root).calls.map fun c ↦ .hook ((registered[c.visitor]?.map (·.1)).getD c.visitor) c

namespace Board

def openedAll (b : Board σ ε) (i : Nat) : List (Scanner σ ε φ) → Board σ ε
  | [] => b
  | s :: ss => (b.opened s i).openedAll (i + 1) ss

def closedAll (b : Board σ ε) (result : Except ε (List σ)) (i : Nat) : List (Scanner σ ε φ) → Board σ ε
  | [] => b
  | s :: ss => (b.closed s i (outcomeOf b.registered result i)).closedAll result (i + 1) ss

theorem openedAll_eq (b : Board σ ε) (i : Nat) (ss : List (Scanner σ ε φ)) :
    ∃ finished, b.openedAll i ss =
      { b with
        registered := b.registered ++ handed i ss
        finished
        log := b.log ++ (ss.zipIdx i).map fun x ↦ x.1.opening x.2 } := by
  induction ss generalizing b i with
  | nil =>
    refine ⟨b.finished, ?_⟩
    simp [openedAll, handed]
  | cons s ss ih =>
    obtain ⟨finished, hrest⟩ := ih (b.opened s i) (i + 1)
    refine ⟨finished, ?_⟩
    rw [openedAll, hrest, handed_cons]
    simp [opened]

theorem closedAll_eq (b : Board σ ε) (result : Except ε (List σ)) (i : Nat) (ss : List (Scanner σ ε φ)) :
    ∃ finished, b.closedAll result i ss =
      { b with
        finished
        log := b.log ++ (ss.zipIdx i).flatMap fun x ↦ x.1.closing x.2 (outcomeOf b.registered result x.2) } := by
  induction ss generalizing b i with
  | nil =>
    refine ⟨b.finished, ?_⟩
    simp [closedAll]
  | cons s ss ih =>
    obtain ⟨finished, hrest⟩ := ih (b.closed s i (outcomeOf b.registered result i)) (i + 1)
    refine ⟨finished, ?_⟩
    rw [closedAll, hrest]
    simp [closed]

structure Opening (b : Board σ ε) (n i : Nat) : Prop where
  size : b.size = n
  traversal : b.traversal = none
  present : ∀ j, (b.finished.contains j || b.registered.any (·.1 = j)) = true ↔ j < i

namespace Opening

theorem opened (h : b.Opening n i) (s : Scanner σ ε φ) : (b.opened s i).Opening n (i + 1) where
  size := h.size
  traversal := h.traversal
  present := by
    intro j
    have hsplit : ((b.opened s i).finished.contains j || (b.opened s i).registered.any (·.1 = j)) = true ↔
        (b.finished.contains j || b.registered.any (·.1 = j)) = true ∨ i = j := by
      rw [Board.opened]
      cases s.first? with
      | none =>
        simp only [Option.isSome_none, Bool.false_eq_true, if_false, Option.map_none, Option.toList_none,
          List.append_nil, List.contains_cons, Bool.or_eq_true, beq_iff_eq]
        tauto
      | some v =>
        simp only [Option.isSome_some, if_true, Option.map_some, Option.toList_some, List.any_append, List.any_cons,
          List.any_nil, Bool.or_false, Bool.or_eq_true, decide_eq_true_eq]
        tauto
    rw [hsplit, h.present]
    omega

theorem openedAll (h : b.Opening n i) (ss : List (Scanner σ ε φ)) : (b.openedAll i ss).Opening n (i + ss.length) := by
  induction ss generalizing b i with
  | nil => exact h
  | cons s ss ih =>
    have hrest := ih (h.opened s)
    rwa [List.length_cons, Nat.add_comm ss.length, ← Nat.add_assoc]

theorem complete_iff (h : b.Opening n i) : b.complete = true ↔ n ≤ i := by
  rw [complete, h.size, List.all_eq_true]
  simp only [List.mem_range, h.present]
  constructor
  · intro hall
    by_contra hlt
    exact lt_irrefl i (hall i (by omega))
  · intro hle j hj
    omega

theorem advance_waits (h : b.Opening n i) (hi : i + 1 < n) (s : Scanner σ ε φ) :
    advance s i s.steps b = (b.opened s i, s.begun) := by
  have hafter := h.opened s
  have hincomplete : ¬(b.opened s i).complete = true := by
    rw [hafter.complete_iff]
    omega
  rw [advance_opens h.traversal, traverse_of_incomplete hincomplete]
  have hnone := hafter.traversal
  generalize b.opened s i = after at hnone
  cases s.begun <;> simp only [resume, hnone]

end Opening

/-- The traversal as the last missing scanner brings it about. Where nobody has handed in a visitor there is none. -/
theorem traverse_of_complete (hnone : b.traversal = none) (h : b.complete = true) :
    b.traverse =
      { b with
        traversal := some (walk (b.registered.map (·.2)) b.root).result
        log := b.log ++ hooks b.registered b.root
        begun := b.begun ++ if b.registered = [] then [] else [b.log.length] } := by
  rw [traverse, if_neg (by simp [hnone, h])]
  by_cases hempty : b.registered = []
  · simp [hempty, hooks, walk_nil]
  · simp [hempty, hooks]

end Board

/-- All scanners make their first steps, the last one completes the barrier and goes on. -/
theorem startAll_traverses (h : b.Opening n i) (hn : n = i + front.length + 1) :
    startAll i (front ++ [last]) b =
      ((resume last (i + front.length) last.begun (b.openedAll i (front ++ [last])).traverse).1,
        front.map (·.begun) ++
          [(resume last (i + front.length) last.begun (b.openedAll i (front ++ [last])).traverse).2]) := by
  induction front generalizing b i with
  | nil =>
    simp only [List.nil_append, startAll, advance_opens h.traversal, Board.openedAll, List.length_nil,
      Nat.add_zero, List.map_nil]
  | cons s front ih =>
    rw [List.length_cons] at hn
    have hrest := ih (h.opened s) (by omega)
    have hlength : i + 1 + front.length = i + (s :: front).length := by
      rw [List.length_cons]
      omega
    rw [hlength] at hrest
    rw [List.cons_append, startAll, h.advance_waits (by omega)]
    simp only [hrest, Board.openedAll, List.map_cons, List.cons_append]

theorem resumeAll_closes (h : b.traversal = some result) (r : Except ε (List φ)) :
    resumeAll i ((front ++ [last]).zip (front.map (·.begun) ++ [.settled r])) b =
      (b.closedAll result i front,
        ((front.zipIdx i).map fun x ↦ .settled (x.1.result (outcomeOf b.registered result x.2))) ++ [.settled r]) := by
  induction front generalizing b i with
  | nil => rfl
  | cons s front ih =>
    have hrest := ih (b := b.closed s i (outcomeOf b.registered result i)) (i := i + 1) h
    simp only [List.map_cons, List.cons_append, List.zip_cons_cons, resumeAll, resume_closes h, hrest,
      Board.closedAll, List.zipIdx_cons]
    rfl

def shared (ss : List (Scanner σ ε φ)) (root : Node) : Traced ε (List σ) := walk ((handed 0 ss).map (·.2)) root

def seen (ss : List (Scanner σ ε φ)) (root : Node) (i : Nat) : Except ε (Option σ) :=
  outcomeOf (handed 0 ss) (shared ss root).result i

/-- The scanners in the order in which they go on: the last one brings the traversal about and does not wait for the
others. -/
def resumption (ss : List (Scanner σ ε φ)) : List (Scanner σ ε φ × Nat) :=
  ss.zipIdx.getLast?.toList ++ ss.zipIdx.dropLast

def Board.fresh (n : Nat) (root : Node) : Board σ ε :=
  { root, size := n, registered := [], finished := [], traversal := none, log := [] }

theorem Board.Opening.fresh (n : Nat) (root : Node) : (Board.fresh n root : Board σ ε).Opening n 0 where
  size := rfl
  traversal := rfl
  present := by simp [Board.fresh]

theorem traverse_openedAll (ss : List (Scanner σ ε φ)) (root : Node) :
    ∃ finished, ((Board.fresh ss.length root).openedAll 0 ss).traverse =
      { root
        size := ss.length
        registered := handed 0 ss
        finished
        traversal := some (shared ss root).result
        log := (ss.zipIdx.map fun x ↦ x.1.opening x.2) ++ hooks (handed 0 ss) root
        begun := if handed 0 ss = [] then [] else [ss.length] } := by
  have hopen := (Board.Opening.fresh (σ := σ) (ε := ε) ss.length root).openedAll ss
  have hcomplete := hopen.complete_iff.2 (Nat.zero_add _).ge
  obtain ⟨finished, hopened⟩ := (Board.fresh ss.length root).openedAll_eq 0 ss
  refine ⟨finished, ?_⟩
  rw [Board.traverse_of_complete hopen.traversal hcomplete, hopened]
  simp [Board.fresh, shared]

/-- All that is observed of a scan, and all that comes of it. -/
theorem run_spec (ss : List (Scanner σ ε φ)) (root : Node) :
    (run ss root).board.registered = handed 0 ss ∧
    (run ss root).board.traversal = (if ss = [] then none else some (shared ss root).result) ∧
    (run ss root).board.begun = (if handed 0 ss = [] then [] else [ss.length]) ∧
    (run ss root).board.log = (ss.zipIdx.map fun x ↦ x.1.opening x.2) ++ hooks (handed 0 ss) root ++
      (resumption ss).flatMap (fun x ↦ x.1.closing x.2 (seen ss root x.2)) ∧
    (run ss root).progress = ss.zipIdx.map fun x ↦ .settled (x.1.result (seen ss root x.2)) := by
  rcases List.eq_nil_or_concat ss with rfl | ⟨front, last, rfl⟩
  · simp [run, startAll, resumeAll, handed, hooks, walk_nil, resumption]
  rw [List.concat_eq_append]
  have hstarted : startAll 0 (front ++ [last]) (Board.fresh (front ++ [last]).length root) = _ :=
    startAll_traverses (.fresh _ root) (by simp)
  obtain ⟨finished, hafter⟩ := traverse_openedAll (front ++ [last]) root
  rw [hafter, resume_closes rfl] at hstarted
  have hrun : run (front ++ [last]) root =
      ⟨(resumeAll 0 ((front ++ [last]).zip (startAll 0 (front ++ [last]) (Board.fresh _ root)).2)
          (startAll 0 (front ++ [last]) (Board.fresh (front ++ [last]).length root)).1).1,
        (resumeAll 0 ((front ++ [last]).zip (startAll 0 (front ++ [last]) (Board.fresh _ root)).2)
          (startAll 0 (front ++ [last]) (Board.fresh (front ++ [last]).length root)).1).2⟩ := rfl
  rw [hrun, hstarted, resumeAll_closes rfl]
  obtain ⟨finished', hclosed⟩ := Board.closedAll_eq _ _ 0 front
  rw [hclosed]
  have hnames : (front ++ [last]).zipIdx = front.zipIdx ++ [(last, front.length)] := by
    rw [List.zipIdx_append, Nat.zero_add, List.zipIdx_singleton]
  have horder : resumption (front ++ [last]) = (last, front.length) :: front.zipIdx := by
    rw [resumption, hnames]
    simp
  refine ⟨rfl, ?_, rfl, ?_, ?_⟩
  · have hne : front ++ [last] ≠ [] := by simp
    rw [if_neg hne]
    rfl
  · rw [horder]
    simp [Board.closed, seen]
  · rw [hnames]
    simp [Board.closed, seen]

theorem collect_settled (rs : List (Except ε (List φ))) :
    collect (rs.map fun r ↦ (.settled r : Progress σ ε φ)) = (rs.mapM id).map List.flatten := by
  induction rs with
  | nil => rfl
  | cons r rs ih =>
    rw [List.map_cons, List.mapM_cons]
    cases r with
    | error e => rfl
    | ok fs =>
      rw [collect, ih]
      cases rs.mapM id <;> rfl

/-- A scan joins what the scanners come to, unless one of them fails. -/
theorem scan_eq_mapM (ss : List (Scanner σ ε φ)) (root : Node) :
    scan ss root =
      ((ss.zipIdx.map fun (x : Scanner σ ε φ × Nat) ↦ x.1.result (seen ss root x.2)).mapM id).map List.flatten := by
  obtain ⟨-, -, -, -, hprogress⟩ := run_spec ss root
  rw [scan, hprogress, ← collect_settled, List.map_map]
  rfl

section Once

variable (visitor : Scanner σ ε φ → Visitor σ ε)

theorem handed_once (hsteps : ∀ s ∈ ss, s.steps = [.visit (visitor s)]) (i : Nat) :
    handed i ss = (ss.zipIdx i).map fun x ↦ (x.2, visitor x.1) := by
  induction ss generalizing i with
  | nil => rfl
  | cons s ss ih =>
    have hfirst : s.first? = some (visitor s) := by rw [Scanner.first?, hsteps s List.mem_cons_self]
    have hrest := ih (fun t ht ↦ hsteps t (List.mem_cons_of_mem s ht)) (i + 1)
    rw [handed_cons, hfirst, hrest, List.zipIdx_cons]
    rfl

theorem shared_once (hsteps : ∀ s ∈ ss, s.steps = [.visit (visitor s)]) (root : Node) :
    shared ss root = walk (ss.map visitor) root := by
  have hvisitors : (ss.zipIdx.map fun x ↦ (x.2, visitor x.1)).map (·.2) = ss.map visitor := by
    calc (ss.zipIdx.map fun x ↦ (x.2, visitor x.1)).map (·.2)
      _ = (ss.zipIdx.map (·.1)).map visitor := by rw [List.map_map, List.map_map]; rfl
      _ = ss.map visitor := by rw [List.zipIdx_map_fst]
  rw [shared, handed_once visitor hsteps, hvisitors]

theorem result_once {v : Visitor σ ε} (hstep : s.steps = [.visit v]) (outcome : Except ε (Option σ)) :
    s.result outcome = outcome.map s.finish := by
  simp only [Scanner.result, hstep]
  cases outcome <;> rfl

theorem seen_once (hsteps : ∀ s ∈ ss, s.steps = [.visit (visitor s)]) (root : Node) (hi : i < ss.length) :
    seen ss root i = (walk (ss.map visitor) root).result.map (·[i]?) := by
  have hindex : (handed 0 ss).findIdx (·.1 = i) = i := by
    rw [handed_once visitor hsteps, List.findIdx_eq (by simpa using hi)]
    refine ⟨by simp, ?_⟩
    intro j hj
    simp [hj.ne]
  rw [seen, outcomeOf, shared_once visitor hsteps, hindex]

theorem scan_eq (root : Node) (hsteps : ∀ s ∈ ss, s.steps = [.visit (visitor s)]) :
    scan ss root = (walk (ss.map visitor) root).result.map
      fun states ↦ (ss.zipIdx.map fun x ↦ x.1.finish states[x.2]?).flatten := by
  have hresult : ∀ x ∈ ss.zipIdx, x.1.result (seen ss root x.2) =
      (walk (ss.map visitor) root).result.map fun states ↦ x.1.finish states[x.2]? := by
    intro x hx
    obtain ⟨-, hlt, hget⟩ := List.mem_zipIdx hx
    have hmem : x.1 ∈ ss := hget ▸ List.getElem_mem _
    rw [seen_once visitor hsteps root (by omega), result_once (hsteps x.1 hmem)]
    cases (walk (ss.map visitor) root).result <;> rfl
  rw [scan_eq_mapM, List.map_congr_left hresult]
  cases hwalk : (walk (ss.map visitor) root).result with
  | ok states =>
    simp only [Except.map, List.mapM_map]
    exact congrArg (Except.map List.flatten) List.mapM_pure
  | error e =>
    cases ss with
    | nil =>
      rw [List.map_nil, walk_nil] at hwalk
      cases hwalk
    | cons s ss => rfl

theorem scan_singleton (root : Node) (hstep : s.steps = [.visit (visitor s)]) :
    scan [s] root = ((visitor s).outcome root).map fun state ↦ s.finish (some state) := by
  have hwalk : (walk [visitor s] root).result = ((visitor s).outcome root).map ([·]) :=
    (walk_gathers [visitor s] root).singleton
  have hsteps : ∀ t ∈ [s], t.steps = [.visit (visitor t)] := by
    intro t ht
    rw [List.mem_singleton.1 ht]
    exact hstep
  rw [scan_eq visitor root hsteps, List.map_singleton, hwalk]
  cases (visitor s).outcome root with
  | error e => rfl
  | ok state => exact congrArg Except.ok (List.append_nil _)

/-- A scan with several such scanners joins what the scans with one of them give, unless one of those fails. -/
theorem scan_gathers (root : Node)
    (hsteps : ∀ s ∈ ss, s.steps = [.visit (visitor s)]) :
    ∃ parts, Gathers parts (ss.map fun s ↦ scan [s] root) ∧ scan ss root = parts.map List.flatten := by
  have hwalk := walk_gathers (ss.map visitor) root
  rw [List.map_map] at hwalk
  have hparts := hwalk.zip fun s state ↦ s.finish (some state)
  have hsingle : (ss.map fun s ↦ scan [s] root) =
      ss.map fun s ↦ ((visitor s).outcome root).map fun state ↦ s.finish (some state) :=
    List.map_congr_left fun s hs ↦ scan_singleton visitor root (hsteps s hs)
  refine ⟨_, hsingle ▸ hparts, ?_⟩
  rw [scan_eq visitor root hsteps]
  cases hresult : (walk (ss.map visitor) root).result with
  | error e => rfl
  | ok states =>
    rw [hresult] at hwalk
    have heach : ss.map ((·.outcome root) ∘ visitor) = states.map .ok := hwalk
    have hlength : states.length = ss.length := by
      have hmapped := congrArg List.length heach
      rw [List.length_map, List.length_map] at hmapped
      exact hmapped.symm
    simp only [Except.map]
    rw [map_zipIdx_eq_zipWith (fun s state ↦ s.finish state) hlength]

end Once

end Barrier

end PolymerAnalysis
