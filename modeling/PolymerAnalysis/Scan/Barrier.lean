import PolymerAnalysis.Scan.Walk

namespace PolymerAnalysis

/-- What a scanner does next: fail, or hand in a visitor and wait for the traversal. A scanner that only
tries to visit goes on if the visit fails. -/
inductive Step (σ ε : Type) where
  | fail (e : ε)
  | visit (v : Visitor σ ε)
  | tryVisit (v : Visitor σ ε)

/-- A scanner: its steps, the failure of a visit after the traversal, and the features it finally makes of
the state its visitor ended in. -/
structure Scanner (σ ε φ : Type) where
  steps : List (Step σ ε)
  late : ε
  finish : Option σ → List φ

namespace Barrier

variable {σ ε φ : Type}

inductive Entry (ε : Type) where
  | failing (scanner : Nat)
  | visiting (scanner : Nat)
  | tryingToVisit (scanner : Nat)
  | hook (scanner : Nat) (call : Call)
  | resumed (scanner : Nat)
  | failed (scanner : Nat) (e : ε)
  | returned (scanner : Nat)

/-- What the scanners of one scan share. `begun` says how much had been observed when each traversal began. -/
structure Board (σ ε : Type) where
  root : Node
  size : Nat
  registered : List (Nat × Visitor σ ε)
  finished : List Nat
  traversal : Option (Except ε (List σ))
  log : List (Entry ε)
  begun : List Nat := []

inductive Progress (σ ε φ : Type) where
  | waiting (tolerant : Bool) (rest : List (Step σ ε))
  | settled (result : Except ε (List φ))

def Board.record (b : Board σ ε) (e : Entry ε) : Board σ ε := { b with log := b.log ++ [e] }

def Board.complete (b : Board σ ε) : Bool :=
  (List.range b.size).all fun i ↦ b.finished.contains i || b.registered.any (·.1 = i)

/-- Traverses the document with all visitors, unless that has happened or somebody is still missing. -/
def Board.traverse (b : Board σ ε) : Board σ ε :=
  if b.traversal.isSome || !b.complete then b
  else if b.registered.isEmpty then { b with traversal := some (.ok []) }
  else
    let run := walk (b.registered.map (·.2)) b.root
    let entries := run.calls.map fun c ↦ Entry.hook ((b.registered[c.visitor]?.map (·.1)).getD c.visitor) c
    { b with traversal := some run.result, log := b.log ++ entries, begun := b.begun ++ [b.log.length] }

def Board.state? (b : Board σ ε) (i : Nat) : Option σ :=
  match b.traversal with
  | some (.ok states) => states[b.registered.findIdx (·.1 = i)]?
  | _ => none

def Board.settle (b : Board σ ε) (i : Nat) (result : Except ε (List φ)) : Board σ ε × Progress σ ε φ :=
  ({ b with finished := i :: b.finished }.traverse, .settled result)

def advance (s : Scanner σ ε φ) (i : Nat) : List (Step σ ε) → Board σ ε → Board σ ε × Progress σ ε φ
  | [], b => (b.record (.returned i)).settle i (.ok (s.finish (b.state? i)))
  | .fail e :: _, b => (b.record (.failing i)).settle i (.error e)
  | .visit v :: rest, b =>
    let b := b.record (.visiting i)
    if b.traversal.isSome then (b.record (.failed i s.late)).settle i (.error s.late)
    else
      let b := { b with registered := b.registered ++ [(i, v)] }.traverse
      match b.traversal with
      | none => (b, .waiting false rest)
      | some (.ok _) => advance s i rest (b.record (.resumed i))
      | some (.error e) => (b.record (.failed i e)).settle i (.error e)
  | .tryVisit v :: rest, b =>
    let b := b.record (.tryingToVisit i)
    if b.traversal.isSome then advance s i rest (b.record (.failed i s.late))
    else
      let b := { b with registered := b.registered ++ [(i, v)] }.traverse
      match b.traversal with
      | none => (b, .waiting true rest)
      | some (.ok _) => advance s i rest (b.record (.resumed i))
      | some (.error e) => advance s i rest (b.record (.failed i e))

/-- Goes on with a waiting scanner after the traversal; without one it stays waiting. -/
def resume (s : Scanner σ ε φ) (i : Nat) (p : Progress σ ε φ) (b : Board σ ε) : Board σ ε × Progress σ ε φ :=
  match p, b.traversal with
  | .waiting _ rest, some (.ok _) => advance s i rest (b.record (.resumed i))
  | .waiting tolerant rest, some (.error e) =>
    let b := b.record (.failed i e)
    if tolerant then advance s i rest b else b.settle i (.error e)
  | p, _ => (b, p)

def startAll (i : Nat) : List (Scanner σ ε φ) → Board σ ε → Board σ ε × List (Progress σ ε φ)
  | [], b => (b, [])
  | s :: ss, b =>
    let (b, p) := advance s i s.steps b
    let (b, ps) := startAll (i + 1) ss b
    (b, p :: ps)

/-- The second run of those that wait, in the order in which they began to wait. -/
def resumeAll (i : Nat) : List (Scanner σ ε φ × Progress σ ε φ) → Board σ ε → Board σ ε × List (Progress σ ε φ)
  | [], b => (b, [])
  | (s, p) :: rest, b =>
    let (b, p) := resume s i p b
    let (b, ps) := resumeAll (i + 1) rest b
    (b, p :: ps)

structure Run (σ ε φ : Type) where
  board : Board σ ε
  progress : List (Progress σ ε φ)

def run (scanners : List (Scanner σ ε φ)) (root : Node) : Run σ ε φ :=
  let (b, ps) := startAll 0 scanners
    { root, size := scanners.length, registered := [], finished := [], traversal := none, log := [] }
  let (b, ps) := resumeAll 0 (scanners.zip ps) b
  ⟨b, ps⟩

/-- All features, in the order of the scanners, or the failure of the first one that failed. -/
def collect : List (Progress σ ε φ) → Except ε (List φ)
  | [] => .ok []
  | .settled (.error e) :: _ => .error e
  | .settled (.ok fs) :: ps => do
    let rest ← collect ps
    pure (fs ++ rest)
  | .waiting .. :: ps => collect ps

end Barrier

def scan {σ ε φ : Type} (scanners : List (Scanner σ ε φ)) (root : Node) : Except ε (List φ) :=
  Barrier.collect (Barrier.run scanners root).progress

end PolymerAnalysis
