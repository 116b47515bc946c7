import PolymerAnalysis.Scan.Barrier

namespace PolymerAnalysis

open Barrier

variable {σ ε φ : Type}

namespace Scanner

/-- The visitor that a scanner hands in first. Nobody gets past a failure, so the first step decides. -/
def first? (s : Scanner σ ε φ) : Option (Visitor σ ε) :=
  match s.steps with
  | .visit v :: _ => some v
  | .tryVisit v :: _ => some v
  | _ => none

def opening (s : Scanner σ ε φ) (i : Nat) : Entry ε :=
  match s.steps with
  | [] => .returned i
  | .fail _ :: _ => .failing i
  | .visit _ :: _ => .visiting i
  | .tryVisit _ :: _ => .tryingToVisit i

def begun (s : Scanner σ ε φ) : Progress σ ε φ :=
  match s.steps with
  | [] => .settled (.ok (s.finish none))
  | .fail e :: _ => .settled (.error e)
  | .visit _ :: rest => .waiting false rest
  | .tryVisit _ :: rest => .waiting true rest

def lateLog (late : ε) (i : Nat) : List (Step σ ε) → List (Entry ε)
  | [] => [.returned i]
  | .fail _ :: _ => [.failing i]
  | .visit _ :: _ => [.visiting i, .failed i late]
  | .tryVisit _ :: rest => .tryingToVisit i :: .failed i late :: lateLog late i rest

def lateResult (s : Scanner σ ε φ) (state : Option σ) : List (Step σ ε) → Except ε (List φ)
  | [] => .ok (s.finish state)
  | .fail e :: _ => .error e
  | .visit _ :: _ => .error s.late
  | .tryVisit _ :: rest => s.lateResult state rest

/-- What is observed of scanner `i` after the traversal, whose outcome is what its first visit comes to. -/
def closing (s : Scanner σ ε φ) (i : Nat) (outcome : Except ε (Option σ)) : List (Entry ε) :=
  match s.steps, outcome with
  | .visit _ :: rest, .ok _ => .resumed i :: lateLog s.late i rest
  | .visit _ :: _, .error e => [.failed i e]
  | .tryVisit _ :: rest, .ok _ => .resumed i :: lateLog s.late i rest
  | .tryVisit _ :: rest, .error e => .failed i e :: lateLog s.late i rest
  | _, _ => []

def result (s : Scanner σ ε φ) (outcome : Except ε (Option σ)) : Except ε (List φ) :=
  match s.steps, outcome with
  | [], _ => .ok (s.finish none)
  | .fail e :: _, _ => .error e
  | .visit _ :: rest, .ok state => s.lateResult state rest
  | .visit _ :: _, .error e => .error e
  | .tryVisit _ :: rest, .ok state => s.lateResult state rest
  | .tryVisit _ :: rest, .error _ => s.lateResult none rest

end Scanner

namespace Barrier

variable {b : Board σ ε} {s : Scanner σ ε φ} {i : Nat} {result : Except ε (List σ)}

def outcomeOf (registered : List (Nat × Visitor σ ε)) (result : Except ε (List σ)) (i : Nat) : Except ε (Option σ) :=
  result.map fun states ↦ states[registered.findIdx (·.1 = i)]?

def Board.opened (b : Board σ ε) (s : Scanner σ ε φ) (i : Nat) : Board σ ε :=
  { b with
    registered := b.registered ++ (s.first?.map (i, ·)).toList
    finished := if s.first?.isSome then b.finished else i :: b.finished
    log := b.log ++ [s.opening i] }

def Board.closed (b : Board σ ε) (s : Scanner σ ε φ) (i : Nat) (outcome : Except ε (Option σ)) : Board σ ε :=
  { b with
    finished := if s.first?.isSome then i :: b.finished else b.finished
    log := b.log ++ s.closing i outcome }

theorem Board.traverse_of_isSome (h : b.traversal.isSome = true) : b.traverse = b := by
  rw [traverse, if_pos (by rw [h, Bool.true_or])]

theorem Board.traverse_of_incomplete (h : ¬b.complete = true) : b.traverse = b := by
  rw [traverse, if_pos (by simp [h])]

@[simp] theorem Board.traversal_record (b : Board σ ε) (entry : Entry ε) :
    (b.record entry).traversal = b.traversal := rfl

@[simp] theorem Board.state?_record (b : Board σ ε) (entry : Entry ε) (i : Nat) :
    (b.record entry).state? i = b.state? i := rfl

theorem Board.state?_of_none (h : b.traversal = none) (i : Nat) : b.state? i = none := by
  simp only [state?, h]

theorem Board.state?_of_error {e : ε} (h : b.traversal = some (.error e)) (i : Nat) : b.state? i = none := by
  simp only [state?, h]

theorem Board.outcomeOf_ok {states : List σ} (h : b.traversal = some (.ok states)) (i : Nat) :
    outcomeOf b.registered (.ok states) i = .ok (b.state? i) := by
  simp only [outcomeOf, Except.map, state?, h]

theorem settle_late (h : b.traversal.isSome = true) (entry : Entry ε) (r : Except ε (List φ)) :
    (b.record entry).settle i r =
      ({ b with finished := i :: b.finished, log := b.log ++ [entry] }, .settled r) := by
  have hdone : ({ b.record entry with finished := i :: b.finished } : Board σ ε).traversal.isSome = true := h
  exact congrArg (·, Progress.settled r) (Board.traverse_of_isSome hdone)

/-- After the traversal a scanner does not wait again. -/
theorem advance_late (h : b.traversal.isSome = true) (steps : List (Step σ ε)) :
    advance s i steps b =
      ({ b with finished := i :: b.finished, log := b.log ++ Scanner.lateLog s.late i steps },
        .settled (s.lateResult (b.state? i) steps)) := by
  induction steps generalizing b with
  | nil =>
    rw [advance]
    exact settle_late h _ _
  | cons step rest ih =>
    cases step with
    | fail e =>
      rw [advance]
      exact settle_late h _ _
    | visit v =>
      have hstart : (b.record (.visiting i)).traversal.isSome = true := h
      simp only [advance, hstart, if_true, settle_late hstart]
      simp only [Board.record, Scanner.lateLog, Scanner.lateResult, List.append_assoc, List.singleton_append]
    | tryVisit v =>
      have hafter : ((b.record (.tryingToVisit i)).record (.failed i s.late)).traversal.isSome = true := h
      simp only [advance, Board.traversal_record, h, if_true, ih hafter, Board.state?_record]
      simp only [Board.record, Scanner.lateLog, Scanner.lateResult, List.append_assoc, List.cons_append,
        List.nil_append]

/-- A scanner that waits for the traversal comes to its end as soon as that is over. -/
theorem resume_closes (h : b.traversal = some result) :
    resume s i s.begun b =
      (b.closed s i (outcomeOf b.registered result i), .settled (s.result (outcomeOf b.registered result i))) := by
  have hlate : b.traversal.isSome = true := by
    rw [h]
    rfl
  have hsome (entry : Entry ε) : (b.record entry).traversal.isSome = true := hlate
  obtain ⟨steps, late, finish⟩ := s
  rcases steps with _ | ⟨_ | v | v, rest⟩
  · simp [Scanner.begun, resume, Board.closed, Scanner.closing, Scanner.result, Scanner.first?]
  · simp [Scanner.begun, resume, Board.closed, Scanner.closing, Scanner.result, Scanner.first?]
  · cases result with
    | ok states =>
      rw [Board.outcomeOf_ok h]
      simp only [Scanner.begun, resume, h, advance_late (hsome _), Board.state?_record]
      simp [Board.closed, Scanner.closing, Scanner.result, Scanner.first?, Board.record]
    | error e =>
      simp only [Scanner.begun, resume, h, Bool.false_eq_true, if_false, settle_late hlate]
      simp [h, Board.closed, outcomeOf, Scanner.closing, Scanner.result, Scanner.first?, Except.map]
  · cases result with
    | ok states =>
      rw [Board.outcomeOf_ok h]
      simp only [Scanner.begun, resume, h, advance_late (hsome _), Board.state?_record]
      simp [Board.closed, Scanner.closing, Scanner.result, Scanner.first?, Board.record]
    | error e =>
      simp only [Scanner.begun, resume, h, if_true, advance_late (hsome _), Board.state?_record,
        Board.state?_of_error h]
      simp [Board.closed, outcomeOf, Scanner.closing, Scanner.result, Scanner.first?, Board.record, Except.map]

/-- Before the traversal a scanner makes its first step. Where that was the last one missing, the traversal follows
and the scanner goes on at once. -/
theorem advance_opens (h : b.traversal = none) :
    advance s i s.steps b = resume s i s.begun (b.opened s i).traverse := by
  have hstart (entry : Entry ε) : (b.record entry).traversal.isSome = false := by simp [h]
  obtain ⟨steps, late, finish⟩ := s
  rcases steps with _ | ⟨_ | v | v, rest⟩
  · simp only [advance, Board.settle, Board.state?_of_none h, Scanner.begun, resume]
    simp [Board.opened, Board.record, Scanner.first?, Scanner.opening]
  · simp only [advance, Board.settle, Scanner.begun, resume]
    simp [Board.opened, Board.record, Scanner.first?, Scanner.opening]
  all_goals
    simp only [advance, hstart, Bool.false_eq_true, if_false, Scanner.begun]
    simp only [Board.opened, Board.record, Scanner.first?, Scanner.opening, resume, Option.map_some,
      Option.toList_some, Option.isSome_some, if_true]
    generalize Board.traverse _ = after
    rcases after.traversal with _ | _ | _ <;> rfl

end Barrier

end PolymerAnalysis
