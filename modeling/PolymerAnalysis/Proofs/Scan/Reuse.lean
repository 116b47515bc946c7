import PolymerAnalysis.Scan.Walk

namespace PolymerAnalysis

variable {σ ε α β : Type}

namespace Multiplexer

/-- What has been looked up is what a new search would find. -/
structure Informed (m : Multiplexer σ ε) : Prop where
  entering : ∀ kind hooks, m.entering.lookup kind = some hooks → hooks = having (·.enter kind) m.visitors
  leaving : ∀ kind hooks, m.leaving.lookup kind = some hooks → hooks = having (·.leave kind) m.visitors

theorem Informed.enterHooks {m : Multiplexer σ ε} (h : m.Informed) (kind : String) :
    m.enterHooks kind = having (·.enter kind) m.visitors := by
  rw [Multiplexer.enterHooks]
  cases hlookup : m.entering.lookup kind with
  | none => rfl
  | some hooks => exact h.entering kind hooks hlookup

theorem Informed.leaveHooks {m : Multiplexer σ ε} (h : m.Informed) (kind : String) :
    m.leaveHooks kind = having (·.leave kind) m.visitors := by
  rw [Multiplexer.leaveHooks]
  cases hlookup : m.leaving.lookup kind with
  | none => rfl
  | some hooks => exact h.leaving kind hooks hlookup

theorem informed_new (visitors : List (Visitor σ ε)) : ({ visitors } : Multiplexer σ ε).Informed where
  entering := by
    intro kind hooks h
    cases h
  leaving := by
    intro kind hooks h
    cases h

@[simp] theorem visitors_noteEnter (m : Multiplexer σ ε) (kind : String) :
    (m.noteEnter kind).visitors = m.visitors := by
  rw [noteEnter]
  split <;> rfl

@[simp] theorem visitors_noteLeave (m : Multiplexer σ ε) (kind : String) :
    (m.noteLeave kind).visitors = m.visitors := by
  rw [noteLeave]
  split <;> rfl

theorem Informed.noteEnter {m : Multiplexer σ ε} (h : m.Informed) (kind : String) : (m.noteEnter kind).Informed := by
  rw [Multiplexer.noteEnter]
  split
  · exact h
  · refine ⟨?_, h.leaving⟩
    intro kind' hooks hlookup
    rw [List.lookup_cons] at hlookup
    split at hlookup
    · rename_i hkind
      rw [← Option.some.inj hlookup, h.enterHooks, eq_of_beq hkind]
    · exact h.entering kind' hooks hlookup

theorem Informed.noteLeave {m : Multiplexer σ ε} (h : m.Informed) (kind : String) : (m.noteLeave kind).Informed := by
  rw [Multiplexer.noteLeave]
  split
  · exact h
  · refine ⟨h.entering, ?_⟩
    intro kind' hooks hlookup
    rw [List.lookup_cons] at hlookup
    split at hlookup
    · rename_i hkind
      rw [← Option.some.inj hlookup, h.leaveHooks, eq_of_beq hkind]
    · exact h.leaving kind' hooks hlookup

theorem having_congr {hook? : Visitor σ ε → Option α} {visitors visitors' : List (Visitor σ ε)}
    (h : visitors.map hook? = visitors'.map hook?) : having hook? visitors = having hook? visitors' := by
  have hform (vs : List (Visitor σ ε)) :
      having hook? vs = (vs.map hook?).zipIdx.filterMap fun x ↦ x.1.map (x.2, ·) := by
    rw [having, List.zipIdx_map, List.filterMap_map]
    rfl
  rw [hform, hform, h]

/-- What a visitor has apart from its state stays the same. -/
theorem map_modify_start {f : Visitor σ ε → α} (hsame : ∀ v state, f { v with start := state } = f v)
    (visitors : List (Visitor σ ε)) (i : Nat) (state : σ) :
    (visitors.modify i ({ · with start := state })).map f = visitors.map f := by
  apply List.ext_getElem?
  intro j
  simp only [List.getElem?_map, List.getElem?_modify]
  cases visitors[j]? with
  | none => rfl
  | some v =>
    by_cases hij : i = j
    · simp [hij, hsame]
    · simp [hij]

theorem Informed.setState {m : Multiplexer σ ε} (h : m.Informed) (i : Nat) (state : σ) :
    ({ m with visitors := m.visitors.modify i ({ · with start := state }) } : Multiplexer σ ε).Informed where
  entering := by
    intro kind hooks hlookup
    rw [having_congr (map_modify_start (fun _ _ ↦ rfl) m.visitors i state)]
    exact h.entering kind hooks hlookup
  leaving := by
    intro kind hooks hlookup
    rw [having_congr (map_modify_start (fun _ _ ↦ rfl) m.visitors i state)]
    exact h.leaving kind hooks hlookup

end Multiplexer

namespace Walker

structure Lasting (P : Multiplexer σ ε → Prop) : Prop where
  noteEnter : ∀ m kind, P m → P (m.noteEnter kind)
  noteLeave : ∀ m kind, P m → P (m.noteLeave kind)
  setState : ∀ m i state, P m → P { m with visitors := m.visitors.modify i ({ · with start := state }) }

namespace Lasting

variable {P : Multiplexer σ ε → Prop} {w : Walker σ ε}

theorem callEnter (hP : Lasting P) (h : P w.toMultiplexer) (place : Cursor)
    (x : Nat × (Cursor → σ → Except ε (σ × Signal))) : P (callEnter place w x).toMultiplexer := by
  rw [Walker.callEnter]
  split
  · dsimp only
    split
    · exact h
    · exact hP.setState _ x.1 _ h
    · exact hP.setState _ x.1 _ h
  · exact h

theorem callLeave (hP : Lasting P) (h : P w.toMultiplexer) (place : Cursor) (x : Nat × (Cursor → σ → Except ε σ)) :
    P (callLeave place w x).toMultiplexer := by
  rw [Walker.callLeave]
  split
  · dsimp only
    split
    · exact h
    · exact hP.setState _ x.1 _ h
  · exact h

theorem enter (hP : Lasting P) (h : P w.toMultiplexer) (place : Cursor) : P (w.enter place).toMultiplexer := by
  have hnoted : P ({ w with toMultiplexer := w.noteEnter place.node.kind } : Walker σ ε).toMultiplexer :=
    hP.noteEnter _ _ h
  rw [Walker.enter]
  generalize { w with toMultiplexer := w.noteEnter place.node.kind } = noted at hnoted
  induction w.enterHooks place.node.kind generalizing noted with
  | nil => exact hnoted
  | cons x hooks ih => exact ih _ (hP.callEnter hnoted place x)

theorem leave (hP : Lasting P) (h : P w.toMultiplexer) (place : Cursor) : P (w.leave place).toMultiplexer := by
  have hnoted : P ({ w with toMultiplexer := w.noteLeave place.node.kind } : Walker σ ε).toMultiplexer :=
    hP.noteLeave _ _ h
  rw [Walker.leave]
  generalize { w with toMultiplexer := w.noteLeave place.node.kind } = noted at hnoted
  induction w.leaveHooks place.node.kind generalizing noted with
  | nil => exact hnoted
  | cons x hooks ih => exact ih _ (hP.callLeave hnoted place x)

theorem step (hP : Lasting P) (h : P w.toMultiplexer) : P w.step.toMultiplexer := by
  rw [Walker.step]
  split
  · exact hP.enter h _
  · exact hP.leave h _
  · exact h

theorem run (hP : Lasting P) (h : P w.toMultiplexer) (n : Nat) : P (run n w).toMultiplexer := by
  induction n generalizing w with
  | zero => exact h
  | succ n ih => exact ih (hP.step h)

end Lasting

theorem lasting_informed : Lasting (Multiplexer.Informed (σ := σ) (ε := ε)) where
  noteEnter := fun _ kind h ↦ h.noteEnter kind
  noteLeave := fun _ kind h ↦ h.noteLeave kind
  setState := fun _ i state h ↦ h.setState i state

theorem lasting_hooks (hooks : List ((String → Option (Cursor → σ → Except ε (σ × Signal))) ×
    (String → Option (Cursor → σ → Except ε σ)))) :
    Lasting fun m : Multiplexer σ ε ↦ m.visitors.map (fun v ↦ (v.enter, v.leave)) = hooks where
  noteEnter := by
    intro m kind h
    rw [m.visitors_noteEnter, h]
  noteLeave := by
    intro m kind h
    rw [m.visitors_noteLeave, h]
  setState := by
    intro m i state h
    rw [Multiplexer.map_modify_start (fun _ _ ↦ rfl), h]

end Walker

open Walker

theorem Multiplexer.hooks_walk (m : Multiplexer σ ε) (root : Node) :
    (m.walk root).visitors.map (fun v ↦ (v.enter, v.leave)) = m.visitors.map fun v ↦ (v.enter, v.leave) :=
  (lasting_hooks _).run rfl _

/-- A multiplexer that has been made for some visitors and used since: it has walked trees, to the end or until a hook
failed, and between the walks somebody may have changed the states of the visitors. -/
inductive Multiplexer.Used : Multiplexer σ ε → Prop where
  | new (visitors : List (Visitor σ ε)) : Used { visitors }
  | walked {m : Multiplexer σ ε} (h : m.Used) (root : Node) : Used (m.walk root).toMultiplexer
  | changed {m : Multiplexer σ ε} (h : m.Used) (i : Nat) (state : σ) :
    Used { m with visitors := m.visitors.modify i ({ · with start := state }) }

theorem Multiplexer.Used.informed {m : Multiplexer σ ε} (h : m.Used) : m.Informed := by
  induction h with
  | new visitors => exact informed_new visitors
  | walked _ root ih => exact lasting_informed.run ih _
  | changed _ i state ih => exact ih.setState i state

end PolymerAnalysis
