import PolymerAnalysis.Proofs.Scan.Walk
import Mathlib.Data.List.Infix
import Mathlib.Data.List.Nodup

namespace PolymerAnalysis

namespace Traced

variable {ε α β : Type}

def as (i : Nat) (x : Traced ε α) : Traced ε α := ⟨x.calls.map fun c ↦ { c with visitor := i }, x.result⟩

@[simp] theorem as_pure (i : Nat) (a : α) : (pure a : Traced ε α).as i = pure a := rfl

theorem as_bind (i : Nat) (x : Traced ε α) (f : α → Traced ε β) : (x >>= f).as i = x.as i >>= fun a ↦ (f a).as i := by
  obtain ⟨calls, result⟩ := x
  cases result with
  | error e => rfl
  | ok a =>
    change Traced.mk ((calls ++ (f a).calls).map _) _ = Traced.mk (calls.map _ ++ (f a).calls.map _) _
    rw [List.map_append]
    rfl

end Traced

namespace Visitor

variable {σ ε : Type} (v : Visitor σ ε) (i : Nat)

def enterAt (place : Cursor) (state : σ) : Traced ε (σ × Signal) :=
  match v.enter place.node.kind with
  | none => pure (state, .proceed)
  | some hook => ⟨[⟨i, .enter, place⟩], hook place state⟩

def leaveAt (place : Cursor) (state : σ) : Traced ε σ :=
  match v.leave place.node.kind with
  | none => pure state
  | some hook => ⟨[⟨i, .leave, place⟩], hook place state⟩

mutual

/-- The way of a visitor that has the tree for itself: it enters the node, goes through the named children unless
it skips them, and leaves the node. Its calls carry the index `i`. -/
def tour (above : List Frame) (state : σ) : Node → Traced ε σ
  | .mk kind field named missing start stop text children => do
    let n := .mk kind field named missing start stop text children
    let entered ← v.enterAt i ⟨n, above⟩ state
    let walked ← (if entered.2 = .skip then pure entered.1 else tourAll n above [] entered.1 children)
    v.leaveAt i ⟨n, above⟩ walked

def tourAll (parent : Node) (above : List Frame) (before : List Node) (state : σ) : List Node → Traced ε σ
  | [] => pure state
  | n :: ns => do
    let state ← (if n.named then tour (⟨parent, before⟩ :: above) state n else pure state)
    tourAll parent above (n :: before) state ns

end

structure Keeps (v : Visitor σ ε) (i : Nat) (P : σ → Prop) (nodes : Node → Prop) : Prop where
  enter : ∀ place state out, nodes place.node → P state → (v.enterAt i place state).result = .ok out → P out.1
  leave : ∀ place state out, nodes place.node → P state → (v.leaveAt i place state).result = .ok out → P out

mutual

/-- What the hooks keep at each node of a tree, the way through the tree keeps. -/
theorem Keeps.tour {v : Visitor σ ε} {i : Nat} {P : σ → Prop} {nodes : Node → Prop} (hv : v.Keeps i P nodes)
    (above : List Frame) (x : Node) (hx : ∀ n ∈ x.preorder, nodes n) {state out : σ} (h : P state)
    (hout : (v.tour i above state x).result = .ok out) : P out := by
  cases x with
  | mk kind field named missing start stop text children =>
    have hhere : nodes (.mk kind field named missing start stop text children) := hx _ List.mem_cons_self
    have hbelow : ∀ n ∈ Node.preorderAll children, nodes n := fun n hn ↦ hx n (List.mem_cons_of_mem _ hn)
    rw [Visitor.tour] at hout
    obtain ⟨entered, hentered, hout⟩ := Traced.exists_of_bind_ok hout
    obtain ⟨walked, hwalked, hout⟩ := Traced.exists_of_bind_ok hout
    have hinside : P entered.1 := hv.enter _ _ _ hhere h hentered
    refine hv.leave _ _ _ hhere ?_ hout
    split at hwalked
    · cases hwalked
      exact hinside
    · exact hv.tourAll _ above [] children hbelow hinside hwalked

theorem Keeps.tourAll {v : Visitor σ ε} {i : Nat} {P : σ → Prop} {nodes : Node → Prop} (hv : v.Keeps i P nodes)
    (parent : Node) (above : List Frame) (before : List Node) (xs : List Node)
    (hxs : ∀ n ∈ Node.preorderAll xs, nodes n) {state out : σ} (h : P state)
    (hout : (v.tourAll i parent above before state xs).result = .ok out) : P out := by
  cases xs with
  | nil =>
    rw [Visitor.tourAll] at hout
    cases hout
    exact h
  | cons x xs =>
    rw [Node.preorderAll] at hxs
    rw [Visitor.tourAll] at hout
    obtain ⟨walked, hwalked, hout⟩ := Traced.exists_of_bind_ok hout
    refine hv.tourAll parent above (x :: before) xs (fun n hn ↦ hxs n (List.mem_append_right _ hn)) ?_ hout
    split at hwalked
    · exact hv.tour _ x (fun n hn ↦ hxs n (List.mem_append_left _ hn)) h hwalked
    · cases hwalked
      exact h

end

theorem enterAt_as (place : Cursor) (state : σ) : v.enterAt i place state = (v.enterAt 0 place state).as i := by
  simp only [enterAt]
  split <;> rfl

theorem leaveAt_as (place : Cursor) (state : σ) : v.leaveAt i place state = (v.leaveAt 0 place state).as i := by
  simp only [leaveAt]
  split <;> rfl

mutual

theorem tour_as (above : List Frame) (state : σ) (x : Node) :
    v.tour i above state x = (v.tour 0 above state x).as i := by
  cases x with
  | mk kind field named missing start stop text children =>
    simp only [tour, Traced.as_bind, ← enterAt_as, ← leaveAt_as]
    refine bind_congr fun entered ↦ ?_
    split
    · rw [Traced.as_pure]
    · rw [← tourAll_as]

theorem tourAll_as (parent : Node) (above : List Frame) (before : List Node) (state : σ) (xs : List Node) :
    v.tourAll i parent above before state xs = (v.tourAll 0 parent above before state xs).as i := by
  cases xs with
  | nil => simp only [tourAll, Traced.as_pure]
  | cons x xs =>
    simp only [tourAll, Traced.as_bind]
    split
    · rw [← tour_as]
      exact bind_congr fun walked ↦ tourAll_as _ _ _ _ xs
    · rw [Traced.as_pure]
      exact bind_congr fun walked ↦ tourAll_as _ _ _ _ xs

end

end Visitor

namespace Walk

variable {σ ε : Type}

def eachOf (lo n : Nat) (phase : Phase) (place : Cursor) : List Call := (List.range' lo n).map (⟨·, phase, place⟩)

mutual

/-- The calls that `n` visitors can get, in the order of the walk: at each node first those of all visitors as they
enter it, one after the other, and at last those as they leave it. -/
def occasions (n : Nat) (above : List Frame) : Node → List Call
  | .mk kind field named missing start stop text children =>
    let here : Node := .mk kind field named missing start stop text children
    eachOf 0 n .enter ⟨here, above⟩ ++ (occasionsAll n here above [] children ++ eachOf 0 n .leave ⟨here, above⟩)

def occasionsAll (n : Nat) (parent : Node) (above : List Frame) (before : List Node) : List Node → List Call
  | [] => []
  | x :: xs =>
    (if x.named then occasions n (⟨parent, before⟩ :: above) x else []) ++
      occasionsAll n parent above (x :: before) xs

end

theorem mem_eachOf {lo n : Nat} {phase : Phase} {place : Cursor} {c : Call} :
    c ∈ eachOf lo n phase place ↔ (lo ≤ c.visitor ∧ c.visitor < lo + n) ∧ c.phase = phase ∧ c.place = place := by
  simp only [eachOf, List.mem_map, List.mem_range'_1]
  constructor
  · rintro ⟨i, hi, rfl⟩
    exact ⟨hi, rfl, rfl⟩
  · rintro ⟨hi, rfl, rfl⟩
    exact ⟨c.visitor, hi, rfl⟩

theorem mem_occasionsAll_cons {n : Nat} {parent : Node} {above : List Frame} {before : List Node} {x : Node}
    {xs : List Node} {c : Call} : c ∈ occasionsAll n parent above before (x :: xs) ↔
      x.named ∧ c ∈ occasions n (⟨parent, before⟩ :: above) x ∨ c ∈ occasionsAll n parent above (x :: before) xs := by
  rw [occasionsAll, List.mem_append]
  cases x.named <;> simp

theorem nodup_eachOf (lo n : Nat) (phase : Phase) (place : Cursor) : (eachOf lo n phase place).Nodup := by
  refine List.Nodup.map ?_ List.nodup_range'
  intro i j h
  exact congrArg Call.visitor h

mutual

theorem above_suffix {n : Nat} {above : List Frame} {x : Node} {c : Call} (h : c ∈ occasions n above x) :
    above <:+ c.place.above := by
  cases x with
  | mk kind field named missing start stop text children =>
    simp only [occasions, List.mem_append, mem_eachOf] at h
    rcases h with ⟨-, -, h⟩ | h | ⟨-, -, h⟩
    · rw [h]
    · obtain ⟨before, -, hsuffix⟩ := frame_suffix h
      exact (List.suffix_cons _ above).trans hsuffix
    · rw [h]

theorem frame_suffix {n : Nat} {parent : Node} {above : List Frame} {before : List Node} {xs : List Node} {c : Call}
    (h : c ∈ occasionsAll n parent above before xs) :
    ∃ nearer, before <:+ nearer ∧ (⟨parent, nearer⟩ :: above) <:+ c.place.above := by
  cases xs with
  | nil => simp only [occasionsAll, List.not_mem_nil] at h
  | cons x xs =>
    rcases mem_occasionsAll_cons.1 h with ⟨-, h⟩ | h
    · exact ⟨before, List.suffix_refl before, above_suffix h⟩
    · obtain ⟨nearer, hnearer, hsuffix⟩ := frame_suffix h
      exact ⟨nearer, (List.suffix_cons x before).trans hnearer, hsuffix⟩

end

theorem below_ne {n : Nat} {parent : Node} {above : List Frame} {before : List Node} {xs : List Node} {c : Call}
    (h : c ∈ occasionsAll n parent above before xs) (node : Node) : c.place ≠ ⟨node, above⟩ := by
  obtain ⟨nearer, -, hsuffix⟩ := frame_suffix h
  intro heq
  rw [heq] at hsuffix
  have hlength := hsuffix.length_le
  simp only [List.length_cons] at hlength
  omega

mutual

/-- No occasion comes twice: the places of a tree are different. -/
theorem nodup_occasions (n : Nat) (above : List Frame) (x : Node) : (occasions n above x).Nodup := by
  cases x with
  | mk kind field named missing start stop text children =>
    rw [occasions]
    refine (nodup_eachOf 0 n .enter _).append ((nodup_occasionsAll n _ above [] children).append
      (nodup_eachOf 0 n .leave _) ?_) ?_
    · intro c hc hleave
      exact below_ne hc _ (mem_eachOf.1 hleave).2.2
    · intro c henter hc
      obtain ⟨-, hphase, hplace⟩ := mem_eachOf.1 henter
      rcases List.mem_append.1 hc with hc | hc
      · exact below_ne hc _ hplace
      · rw [(mem_eachOf.1 hc).2.1] at hphase
        cases hphase

theorem nodup_occasionsAll (n : Nat) (parent : Node) (above : List Frame) (before : List Node) (xs : List Node) :
    (occasionsAll n parent above before xs).Nodup := by
  cases xs with
  | nil =>
    rw [occasionsAll]
    exact List.nodup_nil
  | cons x xs =>
    rw [occasionsAll]
    refine List.Nodup.append ?_ (nodup_occasionsAll n parent above (x :: before) xs) ?_
    · split
      · exact nodup_occasions n _ x
      · exact List.nodup_nil
    · intro c hfirst hrest
      split at hfirst
      · -- both frames end the same list above the place, but one has more siblings before it
        obtain ⟨nearer, hnearer, hsuffix⟩ := frame_suffix hrest
        have hsame : (⟨parent, before⟩ :: above : List Frame) = ⟨parent, nearer⟩ :: above :=
          (List.suffix_of_suffix_length_le (above_suffix hfirst) hsuffix (by simp)).eq_of_length (by simp)
        have hbefore : before = nearer := congrArg Frame.before (List.cons.inj hsame).1
        have hlength := hnearer.length_le
        rw [← hbefore] at hlength
        simp only [List.length_cons] at hlength
        omega
      · simp only [List.not_mem_nil] at hfirst

end

mutual

theorem visitor_lt {n : Nat} {above : List Frame} {x : Node} {c : Call} (h : c ∈ occasions n above x) :
    c.visitor < n := by
  cases x with
  | mk kind field named missing start stop text children =>
    simp only [occasions, List.mem_append, mem_eachOf] at h
    rcases h with ⟨h, -⟩ | h | ⟨h, -⟩
    · omega
    · exact visitor_lt_all h
    · omega

theorem visitor_lt_all {n : Nat} {parent : Node} {above : List Frame} {before : List Node} {xs : List Node} {c : Call}
    (h : c ∈ occasionsAll n parent above before xs) : c.visitor < n := by
  cases xs with
  | nil => simp only [occasionsAll, List.not_mem_nil] at h
  | cons x xs =>
    rcases mem_occasionsAll_cons.1 h with ⟨-, h⟩ | h
    · exact visitor_lt h
    · exact visitor_lt_all h

end

theorem enterOne_of_muted {s : Slot σ ε} (h : s.muted = true) (place : Cursor) (i : Nat) :
    enterOne place i s = pure s := by
  rw [enterOne, if_pos h]

theorem enterOne_of_unmuted {s : Slot σ ε} (h : s.muted = false) (place : Cursor) (i : Nat) :
    enterOne place i s =
      (fun r ↦ { s with state := r.1, muted := r.2 = .skip }) <$> s.visitor.enterAt i place s.state := by
  obtain ⟨v, state, muted⟩ := s
  cases h
  simp only [enterOne, Bool.false_eq_true, if_false, Visitor.enterAt]
  cases v.enter place.node.kind with
  | none =>
    rw [map_pure]
    rfl
  | some hook => rw [Traced.map_eq]

theorem leaveOne_muted (s : Slot σ ε) (place : Cursor) (i : Nat) :
    leaveOne place i true s = pure { s with muted := true } := by
  rw [leaveOne, if_pos rfl]

theorem leaveOne_unmuted (s : Slot σ ε) (place : Cursor) (i : Nat) :
    leaveOne place i false s =
      (fun state ↦ { s with state, muted := false }) <$> s.visitor.leaveAt i place s.state := by
  simp only [leaveOne, Bool.false_eq_true, if_false, Visitor.leaveAt]
  cases s.visitor.leave place.node.kind with
  | none => rw [map_pure]
  | some hook => rw [Traced.map_eq]

namespace Slot

def tour (i : Nat) (above : List Frame) (s : Slot σ ε) (n : Node) : Traced ε (Slot σ ε) :=
  if s.muted then pure s else (fun state ↦ { s with state }) <$> s.visitor.tour i above s.state n

def tourAll (i : Nat) (parent : Node) (above : List Frame) (before : List Node) (s : Slot σ ε) (ns : List Node) :
    Traced ε (Slot σ ε) :=
  if s.muted then pure s else (fun state ↦ { s with state }) <$> s.visitor.tourAll i parent above before s.state ns

theorem tour_mk (i : Nat) (above : List Frame) (s : Slot σ ε) (kind : String) (field : Option String)
    (named missing : Bool) (start stop : Nat) (text : Text) (children : List Node) :
    s.tour i above (.mk kind field named missing start stop text children) =
      (enterOne ⟨.mk kind field named missing start stop text children, above⟩ i s >>= fun entered ↦
        tourAll i (.mk kind field named missing start stop text children) above [] entered children) >>= fun walked ↦
          leaveOne ⟨.mk kind field named missing start stop text children, above⟩ i s.muted walked := by
  obtain ⟨v, state, muted⟩ := s
  cases muted with
  | true =>
    rw [enterOne_of_muted rfl]
    simp only [tour, tourAll, if_true, pure_bind, leaveOne_muted]
  | false =>
    rw [enterOne_of_unmuted rfl]
    simp only [tour, Bool.false_eq_true, if_false, Visitor.tour, leaveOne_unmuted, map_bind, bind_map_left,
      bind_assoc]
    refine bind_congr fun entered ↦ ?_
    by_cases hskip : entered.2 = .skip
    · simp only [hskip, tourAll, decide_true, if_true, pure_bind]
    · simp only [hskip, tourAll, decide_false, Bool.false_eq_true, if_false, bind_map_left]

theorem tourAll_nil (i : Nat) (parent : Node) (above : List Frame) (before : List Node) (s : Slot σ ε) :
    s.tourAll i parent above before [] = pure s := by
  simp only [tourAll, Visitor.tourAll, map_pure, ite_self]

theorem tourAll_cons_of_named {n : Node} (h : n.named = true) (i : Nat) (parent : Node) (above : List Frame)
    (before : List Node) (s : Slot σ ε) (ns : List Node) :
    s.tourAll i parent above before (n :: ns) = s.tour i (⟨parent, before⟩ :: above) n >>= fun walked ↦
      walked.tourAll i parent above (n :: before) ns := by
  obtain ⟨v, state, muted⟩ := s
  cases muted with
  | true => simp only [tour, tourAll, if_true, pure_bind]
  | false =>
    simp only [tour, tourAll, Bool.false_eq_true, if_false, Visitor.tourAll, h, if_true, map_bind, bind_map_left]

theorem tourAll_cons_of_unnamed {n : Node} (h : n.named = false) (i : Nat) (parent : Node) (above : List Frame)
    (before : List Node) (s : Slot σ ε) (ns : List Node) :
    s.tourAll i parent above before (n :: ns) = s.tourAll i parent above (n :: before) ns := by
  simp only [tourAll, Visitor.tourAll, h, Bool.false_eq_true, if_false, pure_bind]

end Slot

end Walk

end PolymerAnalysis
