import PolymerAnalysis.Scan.Walk

namespace PolymerAnalysis

namespace Traced

variable {ε α β γ : Type}

protected def pure (a : α) : Traced ε α := ⟨[], .ok a⟩

protected def bind (x : Traced ε α) (f : α → Traced ε β) : Traced ε β :=
  match x.result with
  | .error e => ⟨x.calls, .error e⟩
  | .ok a =>
    let y := f a
    ⟨x.calls ++ y.calls, y.result⟩

instance : Monad (Traced ε) where
  pure := Traced.pure
  bind := Traced.bind

@[simp] theorem result_pure (a : α) : (pure a : Traced ε α).result = pure a := rfl

@[simp] theorem result_bind (x : Traced ε α) (f : α → Traced ε β) :
    (x >>= f).result = x.result >>= fun a ↦ (f a).result := by
  show (Traced.bind x f).result = _
  rw [Traced.bind]
  cases x.result <;> rfl

@[simp] theorem calls_pure (a : α) : (pure a : Traced ε α).calls = [] := rfl

theorem bind_of_ok {x : Traced ε α} {a : α} (h : x.result = .ok a) (f : α → Traced ε β) :
    x >>= f = ⟨x.calls ++ (f a).calls, (f a).result⟩ := by
  change Traced.bind x f = _
  rw [Traced.bind, h]

theorem bind_of_error {x : Traced ε α} {e : ε} (h : x.result = .error e) (f : α → Traced ε β) :
    x >>= f = ⟨x.calls, .error e⟩ := by
  change Traced.bind x f = _
  rw [Traced.bind, h]

theorem exists_of_bind_ok {x : Traced ε α} {f : α → Traced ε β} {b : β} (h : (x >>= f).result = .ok b) :
    ∃ a, x.result = .ok a ∧ (f a).result = .ok b := by
  cases hx : x.result with
  | error e =>
    rw [bind_of_error hx] at h
    cases h
  | ok a =>
    rw [bind_of_ok hx] at h
    exact ⟨a, rfl, h⟩

theorem map_eq (f : α → β) (x : Traced ε α) : f <$> x = ⟨x.calls, x.result.map f⟩ := by
  change Traced.bind x (Traced.pure ∘ f) = _
  rw [Traced.bind]
  cases x.result with
  | error e => rfl
  | ok a => simp [Traced.pure, Except.map]

theorem bind_assoc (x : Traced ε α) (f : α → Traced ε β) (g : β → Traced ε γ) :
    x >>= f >>= g = x >>= fun a ↦ f a >>= g := by
  obtain ⟨calls, result⟩ := x
  cases result with
  | error e => rfl
  | ok a =>
    change Traced.bind ⟨calls ++ (f a).calls, (f a).result⟩ g = ⟨calls ++ (f a >>= g).calls, (f a >>= g).result⟩
    cases hf : (f a).result with
    | error e =>
      rw [bind_of_error hf]
      rfl
    | ok b =>
      rw [bind_of_ok hf]
      simp only [Traced.bind, List.append_assoc]

instance : LawfulMonad (Traced ε) :=
  LawfulMonad.mk' _
    (fun x ↦ by
      rw [map_eq]
      obtain ⟨calls, result⟩ := x
      cases result <;> rfl)
    (fun a f ↦ by rw [bind_of_ok (result_pure a), calls_pure, List.nil_append])
    bind_assoc

end Traced

namespace Walk

variable {σ ε : Type}

structure Slot (σ ε : Type) where
  visitor : Visitor σ ε
  state : σ
  muted : Bool

def Slot.fresh (v : Visitor σ ε) : Slot σ ε := ⟨v, v.start, false⟩

def enterOne (place : Cursor) (index : Nat) (s : Slot σ ε) : Traced ε (Slot σ ε) :=
  if s.muted then pure s
  else
    match s.visitor.enter place.node.kind with
    | none => pure s
    | some hook =>
      ⟨[⟨index, .enter, place⟩], (hook place s.state).map fun r ↦
        { s with state := r.1, muted := r.2 = .skip }⟩

def enterAll (place : Cursor) (index : Nat) : List (Slot σ ε) → Traced ε (List (Slot σ ε))
  | [] => pure []
  | s :: ss => do
    let s' ← enterOne place index s
    let ss' ← enterAll place (index + 1) ss
    pure (s' :: ss')

def leaveOne (place : Cursor) (index : Nat) (muted : Bool) (s : Slot σ ε) : Traced ε (Slot σ ε) :=
  let s := { s with muted }
  if muted then pure s
  else
    match s.visitor.leave place.node.kind with
    | none => pure s
    | some hook => ⟨[⟨index, .leave, place⟩], (hook place s.state).map fun state ↦ { s with state }⟩

/-- Calls the leave hooks of one node. Who was muted before the node stays so, and nobody else. -/
def leaveAll (place : Cursor) (index : Nat) : List (Slot σ ε) → List (Slot σ ε) → Traced ε (List (Slot σ ε))
  | b :: bs, s :: ss => do
    let s' ← leaveOne place index b.muted s
    let ss' ← leaveAll place (index + 1) bs ss
    pure (s' :: ss')
  | _, _ => pure []

mutual

def node (above : List Frame) (slots : List (Slot σ ε)) : Node → Traced ε (List (Slot σ ε))
  | .mk kind field named missing start stop text children => do
    let n := .mk kind field named missing start stop text children
    let entered ← enterAll ⟨n, above⟩ 0 slots
    let walked ← siblings n above [] entered children
    leaveAll ⟨n, above⟩ 0 slots walked

def siblings (parent : Node) (above : List Frame) (before : List Node) (slots : List (Slot σ ε)) :
    List Node → Traced ε (List (Slot σ ε))
  | [] => pure slots
  | n :: ns => do
    let slots ← if n.named then node (⟨parent, before⟩ :: above) slots n else pure slots
    siblings parent above (n :: before) slots ns

end

end Walk

end PolymerAnalysis
