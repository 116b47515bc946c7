import PolymerAnalysis.Proofs.Scan.Stack

namespace PolymerAnalysis

/-- One computation stands for several: it gives what all of them give, or it fails as one of them does. -/
def Gathers {ε α : Type} (x : Except ε (List α)) (xs : List (Except ε α)) : Prop :=
  match x with
  | .ok as => xs = as.map .ok
  | .error e => .error e ∈ xs

namespace Gathers

variable {ε α β γ : Type} {x : Except ε (List α)} {xs : List (Except ε α)} {as : List α}

theorem nil : Gathers (.ok [] : Except ε (List α)) [] := rfl

theorem cons (y : Except ε α) (h : Gathers x xs) :
    Gathers (do let a ← y; let as ← x; pure (a :: as)) (y :: xs) := by
  cases y with
  | error e => exact List.mem_cons_self
  | ok a =>
    cases x with
    | error e => exact List.mem_cons_of_mem _ h
    | ok as => exact congrArg _ h

theorem error_not_mem (h : Gathers (.ok as) xs) (e : ε) : .error e ∉ xs := by
  have hxs : xs = as.map .ok := h
  rw [hxs, List.mem_map]
  rintro ⟨a, -, ha⟩
  cases ha

theorem of_ok (h : Gathers x (as.map .ok)) : x = .ok as := by
  cases x with
  | error e =>
    have hself : Gathers (.ok as) (as.map (.ok : α → Except ε α)) := rfl
    exact absurd h (hself.error_not_mem e)
  | ok as' => rw [List.map_injective_iff.2 (fun _ _ ↦ Except.ok.inj) h]

theorem map (f : α → β) (h : Gathers x xs) : Gathers (x.map (List.map f)) (xs.map (Except.map f)) := by
  cases x with
  | error e => exact List.mem_map.2 ⟨_, h, rfl⟩
  | ok as =>
    cases h
    show List.map _ _ = _
    rw [List.map_map, List.map_map]
    rfl

theorem error_mem {one : α → Except ε β} {e : ε} (two : α → β → Except ε γ) (h : .error e ∈ as.map one) :
    .error e ∈ as.map fun a ↦ one a >>= two a := by
  obtain ⟨a, ha, he⟩ := List.mem_map.1 h
  refine List.mem_map.2 ⟨a, ha, ?_⟩
  rw [he]
  rfl

theorem bind_zip {one : α → Except ε β} {two : α → β → Except ε γ} {y : Except ε (List β)}
    {f : List β → Except ε (List γ)} (h : Gathers y (as.map one))
    (hf : ∀ bs, Gathers (f bs) (List.zipWith two as bs)) : Gathers (y >>= f) (as.map fun a ↦ one a >>= two a) := by
  cases y with
  | error e => exact error_mem two h
  | ok bs =>
    have hsame : List.zipWith two as bs = as.map fun a ↦ one a >>= two a := by
      calc List.zipWith two as bs
        _ = List.zipWith (fun a z ↦ z >>= two a) as (bs.map .ok) := by
          rw [List.zipWith_map_right]
          rfl
        _ = List.zipWith (fun a z ↦ z >>= two a) as (as.map one) := by rw [show as.map one = bs.map .ok from h]
        _ = as.map fun a ↦ one a >>= two a := by rw [List.zipWith_map_right, List.zipWith_self]
    rw [← hsame]
    exact hf bs

theorem bind {one : α → Except ε β} {two : β → Except ε γ} {y : Except ε (List β)}
    {f : List β → Except ε (List γ)} (h : Gathers y (as.map one)) (hf : ∀ bs, Gathers (f bs) (bs.map two)) :
    Gathers (y >>= f) (as.map fun a ↦ one a >>= two) := by
  cases y with
  | error e => exact error_mem (fun _ ↦ two) h
  | ok bs =>
    have hsame : (as.map fun a ↦ one a >>= two) = bs.map two := by
      calc (as.map fun a ↦ one a >>= two)
        _ = (as.map one).map (· >>= two) := by rw [List.map_map]; rfl
        _ = (bs.map .ok).map (· >>= two) := by rw [show as.map one = bs.map .ok from h]
        _ = bs.map two := by rw [List.map_map]; rfl
    rw [hsame]
    exact hf bs

theorem zip {one : α → Except ε β} {y : Except ε (List β)} (two : α → β → γ) (h : Gathers y (as.map one)) :
    Gathers (y.map (List.zipWith two as)) (as.map fun a ↦ (one a).map (two a)) := by
  have hmap {δ η : Type} (f : δ → η) (z : Except ε δ) : z.map f = z >>= fun c ↦ .ok (f c) := by cases z <;> rfl
  simp only [hmap]
  refine h.bind_zip fun bs ↦ ?_
  exact List.map_zipWith.symm

theorem singleton {y : Except ε α} (h : Gathers x [y]) : x = y.map ([·]) := by
  cases x with
  | error e =>
    rw [← List.mem_singleton.1 h]
    rfl
  | ok as =>
    cases y with
    | error e => cases as <;> cases h
    | ok a =>
      have hone : Gathers (.ok as) ([a].map .ok) := h
      exact hone.of_ok

end Gathers

namespace Walk

variable {σ ε : Type}

mutual

def nodeAlone (above : List Frame) (s : Slot σ ε) : Node → Except ε (Slot σ ε)
  | .mk kind field named missing start stop text children => do
    let n := .mk kind field named missing start stop text children
    let entered ← (enterOne ⟨n, above⟩ 0 s).result
    let walked ← siblingsAlone n above [] entered children
    (leaveOne ⟨n, above⟩ 0 s.muted walked).result

def siblingsAlone (parent : Node) (above : List Frame) (before : List Node) (s : Slot σ ε) :
    List Node → Except ε (Slot σ ε)
  | [] => pure s
  | n :: ns => do
    let s ← if n.named then nodeAlone (⟨parent, before⟩ :: above) s n else pure s
    siblingsAlone parent above (n :: before) s ns

end

theorem result_enterOne (place : Cursor) (index : Nat) (s : Slot σ ε) :
    (enterOne place index s).result = (enterOne place 0 s).result := by
  simp only [enterOne]
  split
  · rfl
  · split <;> rfl

theorem result_leaveOne (place : Cursor) (index : Nat) (muted : Bool) (s : Slot σ ε) :
    (leaveOne place index muted s).result = (leaveOne place 0 muted s).result := by
  simp only [leaveOne]
  split
  · rfl
  · split <;> rfl

theorem enterAll_gathers (place : Cursor) (index : Nat) (slots : List (Slot σ ε)) :
    Gathers (enterAll place index slots).result (slots.map fun s ↦ (enterOne place 0 s).result) := by
  induction slots generalizing index with
  | nil => exact .nil
  | cons s ss ih =>
    have h := (ih (index + 1)).cons (enterOne place 0 s).result
    rw [enterAll, Traced.result_bind, result_enterOne]
    simp only [Traced.result_bind, Traced.result_pure]
    exact h

theorem leaveAll_gathers (place : Cursor) (index : Nat) (before slots : List (Slot σ ε)) :
    Gathers (leaveAll place index before slots).result
      (List.zipWith (fun b s ↦ (leaveOne place 0 b.muted s).result) before slots) := by
  induction before generalizing index slots with
  | nil => exact .nil
  | cons b bs ih =>
    cases slots with
    | nil => exact .nil
    | cons s ss =>
      have h := (ih (index + 1) ss).cons (leaveOne place 0 b.muted s).result
      rw [leaveAll, Traced.result_bind, result_leaveOne]
      simp only [Traced.result_bind, Traced.result_pure]
      exact h

mutual

theorem node_gathers (above : List Frame) (slots : List (Slot σ ε)) (n : Node) :
    Gathers (node above slots n).result (slots.map fun s ↦ nodeAlone above s n) := by
  cases n with
  | mk kind field named missing start stop text children =>
    rw [node]
    simp only [Traced.result_bind, nodeAlone]
    have hentered := enterAll_gathers ⟨.mk kind field named missing start stop text children, above⟩ 0 slots
    have hwalked := hentered.bind fun entered ↦
      siblings_gathers (.mk kind field named missing start stop text children) above [] entered children
    have hleft := hwalked.bind_zip fun walked ↦
      leaveAll_gathers ⟨.mk kind field named missing start stop text children, above⟩ 0 slots walked
    simp only [bind_assoc] at hleft
    exact hleft

theorem siblings_gathers (parent : Node) (above : List Frame) (before : List Node) (slots : List (Slot σ ε))
    (ns : List Node) :
    Gathers (siblings parent above before slots ns).result
      (slots.map fun s ↦ siblingsAlone parent above before s ns) := by
  cases ns with
  | nil =>
    simp only [siblings, siblingsAlone]
    exact rfl
  | cons n ns =>
    by_cases h : n.named = true
    · simp only [siblings, siblingsAlone, if_pos h, Traced.result_bind]
      exact (node_gathers _ slots n).bind fun walked ↦ siblings_gathers parent above (n :: before) walked ns
    · simp only [siblings, siblingsAlone, if_neg h, pure_bind]
      exact siblings_gathers parent above (n :: before) slots ns

end

end Walk

variable {σ ε : Type}

def Visitor.outcome (v : Visitor σ ε) (root : Node) : Except ε σ :=
  (Walk.nodeAlone [] ⟨v, v.start, false⟩ root).map (·.state)

/-- Visitors on one walk end as each of them does alone, unless one of them fails alone. -/
theorem walk_gathers (visitors : List (Visitor σ ε)) (root : Node) :
    Gathers (walk visitors root).result (visitors.map (·.outcome root)) := by
  have h := (Walk.node_gathers [] (visitors.map Walk.Slot.fresh) root).map (·.state)
  rw [List.map_map, List.map_map] at h
  rw [walk_eq_node, Traced.map_eq]
  exact h

end PolymerAnalysis
