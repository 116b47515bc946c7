import PolymerAnalysis.Syntax.Cursor

namespace PolymerAnalysis

inductive Phase where
  | enter
  | leave
deriving DecidableEq

inductive Signal where
  | proceed
  | skip
deriving DecidableEq

/-- A visitor with states `σ` that starts in `start`. It has hooks for the node kinds it is interested in;
a hook fails or gives the next state. -/
structure Visitor (σ ε : Type) where
  start : σ
  enter : String → Option (Cursor → σ → Except ε (σ × Signal))
  leave : String → Option (Cursor → σ → Except ε σ)

structure Call where
  visitor : Nat
  phase : Phase
  place : Cursor

structure Traced (ε α : Type) where
  calls : List Call
  result : Except ε α

/-- How many siblings come before a node and before each node above it. No other node of the tree has the same. -/
def Cursor.id (c : Cursor) : List Nat := c.above.map (·.before.length)

structure Task where
  place : Cursor
  leaving : Bool

/-- Drives visitors through trees. It looks up who has hooks for a kind of node when it first meets one. A visitor
starts the next walk in the state in which the last one left it. -/
structure Multiplexer (σ ε : Type) where
  visitors : List (Visitor σ ε)
  entering : List (String × List (Nat × (Cursor → σ → Except ε (σ × Signal)))) := []
  leaving : List (String × List (Nat × (Cursor → σ → Except ε σ))) := []

namespace Multiplexer

variable {σ ε : Type}

def having {α : Type} (hook? : Visitor σ ε → Option α) (visitors : List (Visitor σ ε)) : List (Nat × α) :=
  visitors.zipIdx.filterMap fun x ↦ (hook? x.1).map (x.2, ·)

def enterHooks (m : Multiplexer σ ε) (kind : String) : List (Nat × (Cursor → σ → Except ε (σ × Signal))) :=
  (m.entering.lookup kind).getD (having (·.enter kind) m.visitors)

def leaveHooks (m : Multiplexer σ ε) (kind : String) : List (Nat × (Cursor → σ → Except ε σ)) :=
  (m.leaving.lookup kind).getD (having (·.leave kind) m.visitors)

def noteEnter (m : Multiplexer σ ε) (kind : String) : Multiplexer σ ε :=
  match m.entering.lookup kind with
  | some _ => m
  | none => { m with entering := (kind, m.enterHooks kind) :: m.entering }

def noteLeave (m : Multiplexer σ ε) (kind : String) : Multiplexer σ ε :=
  match m.leaving.lookup kind with
  | some _ => m
  | none => { m with leaving := (kind, m.leaveHooks kind) :: m.leaving }

end Multiplexer

/-- A walk under way. `skipping` names the visitors that see nothing at present, each with the node whose descendants
it skips. -/
structure Walker (σ ε : Type) extends Multiplexer σ ε where
  skipping : List (Nat × List Nat)
  stack : List Task
  calls : List Call
  failure : Option ε

namespace Walker

variable {σ ε : Type}

def record (w : Walker σ ε) (c : Call) : Walker σ ε := { w with calls := w.calls ++ [c] }

def breakOff (w : Walker σ ε) (e : ε) : Walker σ ε := { w with failure := some e }

def setState (w : Walker σ ε) (i : Nat) (state : σ) : Walker σ ε :=
  { w with visitors := w.visitors.modify i ({ · with start := state }) }

def skip (w : Walker σ ε) (i : Nat) (place : Cursor) : Walker σ ε :=
  { w with skipping := w.skipping ++ [(i, place.id)] }

def callEnter (place : Cursor) (w : Walker σ ε) (x : Nat × (Cursor → σ → Except ε (σ × Signal))) : Walker σ ε :=
  match w.failure, w.skipping.lookup x.1, w.visitors[x.1]? with
  | none, none, some v =>
    let w := w.record ⟨x.1, .enter, place⟩
    match x.2 place v.start with
    | .error e => w.breakOff e
    | .ok (state, .proceed) => w.setState x.1 state
    | .ok (state, .skip) => (w.setState x.1 state).skip x.1 place
  | _, _, _ => w

/-- A visitor leaves the node whose descendants it skipped. -/
def callLeave (place : Cursor) (w : Walker σ ε) (x : Nat × (Cursor → σ → Except ε σ)) : Walker σ ε :=
  match w.failure, (w.skipping.lookup x.1).filter (· ≠ place.id), w.visitors[x.1]? with
  | none, none, some v =>
    let w := w.record ⟨x.1, .leave, place⟩
    match x.2 place v.start with
    | .error e => w.breakOff e
    | .ok state => w.setState x.1 state
  | _, _, _ => w

def enter (w : Walker σ ε) (place : Cursor) : Walker σ ε :=
  (w.enterHooks place.node.kind).foldl (callEnter place)
    { w with toMultiplexer := w.noteEnter place.node.kind }

def leave (w : Walker σ ε) (place : Cursor) : Walker σ ε :=
  (w.leaveHooks place.node.kind).foldl (callLeave place)
    { w with toMultiplexer := w.noteLeave place.node.kind }

def step (w : Walker σ ε) : Walker σ ε :=
  match w.failure, w.stack with
  | none, ⟨place, false⟩ :: stack =>
    { w.enter place with stack := place.namedChildren.map (⟨·, false⟩) ++ ⟨place, true⟩ :: stack }
  | none, ⟨place, true⟩ :: stack =>
    let w := w.leave place
    { w with stack, skipping := w.skipping.filter (·.2 ≠ place.id) }
  | _, _ => w

def run : Nat → Walker σ ε → Walker σ ε
  | 0, w => w
  | n + 1, w => run n w.step

def traced (w : Walker σ ε) : Traced ε (List σ) where
  calls := w.calls
  result := match w.failure with
    | some e => .error e
    | none => .ok (w.visitors.map (·.start))

end Walker

/-- Traverses a tree once. Each node is at most twice on the stack. -/
def Multiplexer.walk {σ ε : Type} (m : Multiplexer σ ε) (root : Node) : Walker σ ε :=
  Walker.run (2 * root.preorder.length)
    { m with skipping := [], stack := [⟨.root root, false⟩], calls := [], failure := none }

def walk {σ ε : Type} (visitors : List (Visitor σ ε)) (root : Node) : Traced ε (List σ) :=
  (({ visitors } : Multiplexer σ ε).walk root).traced

end PolymerAnalysis
