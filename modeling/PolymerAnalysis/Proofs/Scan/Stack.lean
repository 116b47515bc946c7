import PolymerAnalysis.Proofs.Lists
import PolymerAnalysis.Proofs.Scan.Recursion
import PolymerAnalysis.Proofs.Scan.Reuse
import Mathlib.Data.List.Basic

namespace PolymerAnalysis

variable {σ ε α β : Type}

namespace Walker

theorem run_add (j k : Nat) (w : Walker σ ε) : run (j + k) w = run k (run j w) := by
  induction j generalizing w with
  | zero => rw [Nat.zero_add, run]
  | succ j ih => rw [Nat.succ_add, run, run, ih]

theorem step_of_failure {w : Walker σ ε} {e : ε} (h : w.failure = some e) : w.step = w := by
  simp only [step, h]

theorem step_of_stack_nil {w : Walker σ ε} (h : w.stack = []) : w.step = w := by
  simp only [step, h]
  split <;> simp_all

theorem run_eq_self {w : Walker σ ε} (h : w.step = w) (n : Nat) : run n w = w := by
  induction n with
  | zero => rfl
  | succ n ih => rw [run, h, ih]

open Walk

def Carries (visitors : List (Visitor σ ε)) (slots : List (Slot σ ε)) : Prop :=
  visitors = slots.map fun s ↦ { s.visitor with start := s.state }

def Mutes (skipping : List (Nat × List Nat)) (slots : List (Slot σ ε)) : Prop :=
  ∀ i s, slots[i]? = some s → (skipping.lookup i).isSome = s.muted

/-- From `w` on, the walk makes the calls of `y` and comes to `w'`, broken off if `y` fails. -/
structure Made (w : Walker σ ε) (y : Traced ε α) (w' : Walker σ ε) (P : α → Prop) : Prop where
  calls : w'.calls = w.calls ++ y.calls
  failed : ∀ e, y.result = .error e → w'.failure = some e
  done : ∀ a, y.result = .ok a → w'.failure = none ∧ P a

namespace Made

variable {w w' w'' : Walker σ ε} {y : Traced ε α} {P : α → Prop} {Q : β → Prop}

theorem pure {a : α} (hnone : w.failure = none) (h : P a) : Made w (pure a) w P where
  calls := (List.append_nil _).symm
  failed := by
    intro e he
    cases he
  done := by
    intro b hb
    cases hb
    exact ⟨hnone, h⟩

theorem failing (c : Call) (e : ε) : Made w ⟨[c], .error e⟩ ((w.record c).breakOff e) P where
  calls := rfl
  failed := by
    intro e' he'
    cases he'
    rfl
  done := by
    intro a ha
    cases ha

theorem calling {c : Call} {a : α} (hcalls : w'.calls = w.calls ++ [c]) (hnone : w'.failure = none) (h : P a) :
    Made w ⟨[c], .ok a⟩ w' P where
  calls := hcalls
  failed := by
    intro e he
    cases he
  done := by
    intro b hb
    cases hb
    exact ⟨hnone, h⟩

theorem bind_of_ok {f : α → Traced ε β} {a : α} (h : Made w y w' P) (hy : y.result = .ok a)
    (hrest : Made w' (f a) w'' Q) : Made w (y >>= f) w'' Q := by
  rw [Traced.bind_of_ok hy]
  refine ⟨?_, hrest.failed, hrest.done⟩
  rw [hrest.calls, h.calls, List.append_assoc]

theorem bind {f : α → Traced ε β} (h : Made w y w' P) (hstay : w'.failure ≠ none → w'' = w')
    (hnext : ∀ a, w'.failure = none → P a → Made w' (f a) w'' Q) : Made w (y >>= f) w'' Q := by
  cases hy : y.result with
  | error e =>
    have hfailed := h.failed e hy
    have hsame : w'' = w' := hstay (by simp [hfailed])
    rw [Traced.bind_of_error hy, hsame]
    refine ⟨h.calls, ?_, ?_⟩
    · intro e' he'
      cases he'
      exact hfailed
    · intro b hb
      cases hb
  | ok a =>
    obtain ⟨hnone, ha⟩ := h.done a hy
    exact h.bind_of_ok hy (hnext a hnone ha)

theorem imp {P' : α → Prop} (h : Made w y w' P) (hP : ∀ a, P a → P' a) : Made w y w' P' where
  calls := h.calls
  failed := h.failed
  done := by
    intro a ha
    exact (h.done a ha).imp_right (hP a)

/-- The walk goes on, if it has not been broken off. -/
theorem exists_run {f : α → Traced ε β} {n : Nat} {Q : Walker σ ε → β → Prop} (h : Made w y w' P)
    (hnext : ∀ a, w'.failure = none → P a → ∃ k ≤ n, Made w' (f a) (run k w') (Q (run k w'))) :
    ∃ k ≤ n, Made w (y >>= f) (run k w') (Q (run k w')) := by
  cases hy : y.result with
  | error e =>
    have hfailed := h.failed e hy
    refine ⟨0, Nat.zero_le n, h.bind (fun _ ↦ rfl) fun a hnone _ ↦ ?_⟩
    rw [hfailed] at hnone
    cases hnone
  | ok a =>
    obtain ⟨hnone, ha⟩ := h.done a hy
    obtain ⟨k, hk, hrest⟩ := hnext a hnone ha
    exact ⟨k, hk, h.bind_of_ok hy hrest⟩

theorem map (h : Made w y w' P) (f : α → β) (hQ : ∀ a, P a → Q (f a)) :
    Made w (y >>= fun a ↦ Pure.pure (f a)) w' Q :=
  h.bind (fun _ ↦ rfl) fun a hnone ha ↦ .pure hnone (hQ a ha)

end Made

variable {w : Walker σ ε} {pre rest slots : List (Slot σ ε)} {s : Slot σ ε} {place : Cursor}

theorem Carries.length {visitors : List (Visitor σ ε)} (h : Carries visitors slots) :
    visitors.length = slots.length := by
  rw [show visitors = _ from h, List.length_map]

theorem Carries.getElem? (h : Carries w.visitors (pre ++ s :: rest)) :
    w.visitors[pre.length]? = some { s.visitor with start := s.state } := by
  rw [show w.visitors = _ from h]
  simp

theorem Carries.setState (h : Carries w.visitors (pre ++ s :: rest)) (state : σ) (muted : Bool) :
    Carries (w.setState pre.length state).visitors (pre ++ { s with state, muted } :: rest) := by
  have hmiddle := modify_middle ({ · with start := state } : Visitor σ ε → Visitor σ ε)
    (pre.map fun s ↦ { s.visitor with start := s.state }) { s.visitor with start := s.state }
    (rest.map fun s ↦ { s.visitor with start := s.state })
  rw [List.length_map] at hmiddle
  rw [Walker.setState, show w.visitors = _ from h, Carries, List.map_append, List.map_cons, hmiddle, List.map_append,
    List.map_cons]

theorem Mutes.middle (h : Mutes w.skipping (pre ++ s :: rest)) : (w.skipping.lookup pre.length).isSome = s.muted :=
  h pre.length s (by simp)

def hooked (hook? : Visitor σ ε → Option α) (lo : Nat) (slots : List (Slot σ ε)) : List (Nat × α) :=
  (slots.zipIdx lo).filterMap fun x ↦ (hook? x.1.visitor).map (x.2, ·)

theorem hooked_cons (hook? : Visitor σ ε → Option α) (lo : Nat) (s : Slot σ ε) (slots : List (Slot σ ε)) :
    hooked hook? lo (s :: slots) = ((hook? s.visitor).map (lo, ·)).toList ++ hooked hook? (lo + 1) slots := by
  rw [hooked, List.zipIdx_cons, List.filterMap_cons]
  cases hook? s.visitor <;> rfl

theorem Carries.having_eq {hook? : Visitor σ ε → Option α} {visitors : List (Visitor σ ε)} (h : Carries visitors slots)
    (hsame : ∀ v state, hook? { v with start := state } = hook? v) :
    Multiplexer.having hook? visitors = hooked hook? 0 slots := by
  have hmap : visitors.map hook? = (slots.map (·.visitor)).map hook? := by
    rw [show visitors = _ from h, List.map_map, List.map_map]
    exact List.map_congr_left fun s _ ↦ hsame s.visitor s.state
  rw [Multiplexer.having_congr hmap, Multiplexer.having, List.zipIdx_map, List.filterMap_map]
  rfl

structure Entered (place : Cursor) (w w' : Walker σ ε) (stack : List Task) (slots : List (Slot σ ε)) : Prop where
  carries : Carries w'.visitors slots
  mutes : Mutes w'.skipping slots
  stack : w'.stack = stack
  skipping : ∃ new, w'.skipping = w.skipping ++ new ∧ ∀ x ∈ new, x.2 = place.id

/-- Only one slot may change where only its own entry does. -/
theorem Mutes.replace {skipping skipping' : List (Nat × List Nat)} {s' : Slot σ ε}
    (h : Mutes skipping (pre ++ s :: rest)) (hself : (skipping'.lookup pre.length).isSome = s'.muted)
    (hothers : ∀ i, i ≠ pre.length → skipping'.lookup i = skipping.lookup i) :
    Mutes skipping' (pre ++ s' :: rest) := by
  intro i t ht
  by_cases hi : i = pre.length
  · have hslot : s' = t := by simpa [hi] using ht
    rw [hi, hself, hslot]
  · rw [getElem?_middle hi] at ht
    rw [hothers i hi]
    exact h i t ht

theorem callEnter_made (hnone : w.failure = none) (hcarries : Carries w.visitors (pre ++ s :: rest))
    (hmutes : Mutes w.skipping (pre ++ s :: rest)) {hook : Cursor → σ → Except ε (σ × Signal)}
    (hhook : s.visitor.enter place.node.kind = some hook) :
    Made w (enterOne place pre.length s) (callEnter place w (pre.length, hook)) fun s' ↦
      Entered place w (callEnter place w (pre.length, hook)) w.stack (pre ++ s' :: rest) := by
  have hlookup := hmutes.middle
  cases hmuted : s.muted with
  | true =>
    obtain ⟨id, hid⟩ := Option.isSome_iff_exists.1 (hlookup.trans hmuted)
    have hsame : callEnter place w (pre.length, hook) = w := by
      simp only [callEnter, hnone, hid]
    rw [enterOne, if_pos hmuted, hsame]
    exact .pure hnone ⟨hcarries, hmutes, rfl, [], by simp, by simp⟩
  | false =>
    rw [hmuted, Option.isSome_eq_false_iff, Option.isNone_iff_eq_none] at hlookup
    rw [enterOne, if_neg (by simp [hmuted]), hhook]
    rcases hresult : hook place s.state with e | ⟨state, _ | _⟩
    · have hcall : callEnter place w (pre.length, hook) = (w.record ⟨pre.length, .enter, place⟩).breakOff e := by
        simp only [callEnter, hnone, hlookup, hcarries.getElem?, hresult]
      rw [hcall]
      simp only [hresult]
      exact .failing _ e
    · have hcall : callEnter place w (pre.length, hook) =
          (w.record ⟨pre.length, .enter, place⟩).setState pre.length state := by
        simp only [callEnter, hnone, hlookup, hcarries.getElem?, hresult]
      rw [hcall]
      simp only [hresult]
      refine .calling rfl hnone ⟨hcarries.setState state false, ?_, rfl, [], ?_, ?_⟩
      · refine hmutes.replace ?_ fun _ _ ↦ rfl
        simp [setState, record, hlookup]
      · simp [setState, record]
      · simp
    · have hcall : callEnter place w (pre.length, hook) =
          ((w.record ⟨pre.length, .enter, place⟩).setState pre.length state).skip pre.length place := by
        simp only [callEnter, hnone, hlookup, hcarries.getElem?, hresult]
      rw [hcall]
      simp only [hresult]
      refine .calling rfl hnone ⟨hcarries.setState state true, ?_, rfl, [(pre.length, place.id)], rfl, ?_⟩
      · refine hmutes.replace ?_ ?_
        · simp [skip, setState, record, List.lookup_append]
        · intro i hi
          have hne : (i == pre.length) = false := beq_false_of_ne hi
          simp [skip, setState, record, List.lookup_append, List.lookup_cons, hne]
      · simp

theorem callEnter_of_failure (h : w.failure ≠ none) (x : Nat × (Cursor → σ → Except ε (σ × Signal))) :
    callEnter place w x = w := by
  obtain ⟨e, he⟩ := Option.ne_none_iff_exists'.1 h
  simp only [callEnter, he]

theorem enterAll_made (hnone : w.failure = none) (hcarries : Carries w.visitors (pre ++ rest))
    (hmutes : Mutes w.skipping (pre ++ rest)) {w' : Walker σ ε}
    (hw' : (hooked (·.enter place.node.kind) pre.length rest).foldl (callEnter place) w = w') :
    Made w (enterAll place pre.length rest) w' fun rest' ↦ Entered place w w' w.stack (pre ++ rest') := by
  induction rest generalizing w pre with
  | nil =>
    subst hw'
    exact .pure hnone ⟨hcarries, hmutes, rfl, [], (List.append_nil _).symm, by simp⟩
  | cons s rest ih =>
    rw [hooked_cons, List.foldl_append] at hw'
    have hone : ∃ w₁, ((s.visitor.enter place.node.kind).map (pre.length, ·)).toList.foldl (callEnter place) w = w₁ ∧
        Made w (enterOne place pre.length s) w₁ fun s' ↦ Entered place w w₁ w.stack (pre ++ s' :: rest) := by
      cases hhook : s.visitor.enter place.node.kind with
      | none =>
        refine ⟨w, rfl, ?_⟩
        have hpure : enterOne place pre.length s = pure s := by simp [enterOne, hhook]
        rw [hpure]
        exact .pure hnone ⟨hcarries, hmutes, rfl, [], (List.append_nil _).symm, by simp⟩
      | some hook => exact ⟨_, rfl, callEnter_made hnone hcarries hmutes hhook⟩
    obtain ⟨w₁, hw₁, hmade⟩ := hone
    rw [hw₁] at hw'
    rw [enterAll]
    refine hmade.bind (fun hfail ↦ ?_) fun s' hnone₁ hs' ↦ ?_
    · rw [← hw', List.foldl_fixed' (callEnter_of_failure hfail)]
    · have hpre : pre ++ s' :: rest = (pre ++ [s']) ++ rest := by simp
      have hlength : pre.length + 1 = (pre ++ [s']).length := by simp
      have hcarries' := hs'.carries
      have hmutes' := hs'.mutes
      rw [hpre] at hcarries' hmutes'
      rw [hlength] at hw' ⊢
      refine (ih hnone₁ hcarries' hmutes' hw').map _ ?_
      intro rest' hrest'
      refine ⟨by simpa using hrest'.carries, by simpa using hrest'.mutes, hrest'.stack.trans hs'.stack, ?_⟩
      obtain ⟨new, hnew, hhere⟩ := hs'.skipping
      obtain ⟨new', hnew', hhere'⟩ := hrest'.skipping
      refine ⟨new ++ new', by rw [hnew', hnew, List.append_assoc], ?_⟩
      intro x hx
      rcases List.mem_append.1 hx with hx | hx
      · exact hhere x hx
      · exact hhere' x hx

structure Left (w w' : Walker σ ε) (slots : List (Slot σ ε)) : Prop where
  carries : Carries w'.visitors slots
  stack : w'.stack = w.stack
  skipping : w'.skipping = w.skipping

theorem callLeave_made (hnone : w.failure = none) (hcarries : Carries w.visitors (pre ++ s :: rest)) {muted : Bool}
    (hmuted : ((w.skipping.lookup pre.length).filter (· ≠ place.id)).isSome = muted)
    {hook : Cursor → σ → Except ε σ} (hhook : s.visitor.leave place.node.kind = some hook) :
    Made w (leaveOne place pre.length muted s) (callLeave place w (pre.length, hook)) fun s' ↦
      Left w (callLeave place w (pre.length, hook)) (pre ++ s' :: rest) ∧ s'.muted = muted := by
  cases muted with
  | true =>
    obtain ⟨id, hid⟩ := Option.isSome_iff_exists.1 hmuted
    have hsame : callLeave place w (pre.length, hook) = w := by
      simp only [callLeave, hnone, hid]
    rw [leaveOne, if_pos rfl, hsame]
    refine .pure hnone ⟨⟨?_, rfl, rfl⟩, rfl⟩
    rw [show w.visitors = _ from hcarries]
    simp [Carries]
  | false =>
    rw [Option.isSome_eq_false_iff, Option.isNone_iff_eq_none] at hmuted
    simp only [leaveOne, Bool.false_eq_true, if_false, hhook]
    cases hresult : hook place s.state with
    | error e =>
      have hcall : callLeave place w (pre.length, hook) = (w.record ⟨pre.length, .leave, place⟩).breakOff e := by
        simp only [callLeave, hnone, hmuted, hcarries.getElem?, hresult]
      rw [hcall]
      exact .failing _ e
    | ok state =>
      have hcall : callLeave place w (pre.length, hook) =
          (w.record ⟨pre.length, .leave, place⟩).setState pre.length state := by
        simp only [callLeave, hnone, hmuted, hcarries.getElem?, hresult]
      rw [hcall]
      exact .calling rfl hnone ⟨⟨hcarries.setState state false, rfl, rfl⟩, rfl⟩

theorem callLeave_of_failure (h : w.failure ≠ none) (x : Nat × (Cursor → σ → Except ε σ)) :
    callLeave place w x = w := by
  obtain ⟨e, he⟩ := Option.ne_none_iff_exists'.1 h
  simp only [callLeave, he]

theorem leaveAll_made {before : List (Slot σ ε)} (hnone : w.failure = none)
    (hcarries : Carries w.visitors (pre ++ rest)) (hlength : before.length = rest.length)
    (hmuted : ∀ k b, before[k]? = some b →
      ((w.skipping.lookup (pre.length + k)).filter (· ≠ place.id)).isSome = b.muted) {w' : Walker σ ε}
    (hw' : (hooked (·.leave place.node.kind) pre.length rest).foldl (callLeave place) w = w') :
    Made w (leaveAll place pre.length before rest) w' fun rest' ↦
      Left w w' (pre ++ rest') ∧ rest'.map (·.muted) = before.map (·.muted) := by
  induction rest generalizing w pre before with
  | nil =>
    subst hw'
    rw [List.length_eq_zero_iff.1 hlength]
    exact .pure hnone ⟨⟨hcarries, rfl, rfl⟩, rfl⟩
  | cons s rest ih =>
    obtain ⟨b, before, rfl⟩ := List.exists_cons_of_length_eq_add_one hlength
    rw [hooked_cons, List.foldl_append] at hw'
    have hone : ∃ w₁, ((s.visitor.leave place.node.kind).map (pre.length, ·)).toList.foldl (callLeave place) w = w₁ ∧
        Made w (leaveOne place pre.length b.muted s) w₁ fun s' ↦
          Left w w₁ (pre ++ s' :: rest) ∧ s'.muted = b.muted := by
      cases hhook : s.visitor.leave place.node.kind with
      | none =>
        refine ⟨w, rfl, ?_⟩
        have hpure : leaveOne place pre.length b.muted s = pure { s with muted := b.muted } := by
          simp [leaveOne, hhook]
        rw [hpure]
        refine .pure hnone ⟨⟨?_, rfl, rfl⟩, rfl⟩
        rw [show w.visitors = _ from hcarries]
        simp [Carries]
      | some hook => exact ⟨_, rfl, callLeave_made hnone hcarries (hmuted 0 b rfl) hhook⟩
    obtain ⟨w₁, hw₁, hmade⟩ := hone
    rw [hw₁] at hw'
    rw [leaveAll]
    refine hmade.bind (fun hfail ↦ ?_) fun s' hnone₁ hs' ↦ ?_
    · rw [← hw', List.foldl_fixed' (callLeave_of_failure hfail)]
    · have hpre : pre ++ s' :: rest = (pre ++ [s']) ++ rest := by simp
      have hnext : pre.length + 1 = (pre ++ [s']).length := by simp
      have hcarries' := hs'.1.carries
      rw [hpre] at hcarries'
      rw [hnext] at hw' ⊢
      have hrest : ∀ k b, before[k]? = some b →
          ((w₁.skipping.lookup ((pre ++ [s']).length + k)).filter (· ≠ place.id)).isSome = b.muted := by
        intro k b' hb'
        rw [hs'.1.skipping, ← hnext, Nat.add_assoc, Nat.add_comm 1 k]
        exact hmuted (k + 1) b' hb'
      refine (ih hnone₁ hcarries' (Nat.succ.inj hlength) hrest hw').map _ ?_
      rintro rest' ⟨hleft, hmap⟩
      refine ⟨⟨by simpa using hleft.carries, hleft.stack.trans hs'.1.stack, hleft.skipping.trans hs'.1.skipping⟩, ?_⟩
      rw [List.map_cons, List.map_cons, hmap, hs'.2]

theorem enter_made (hnone : w.failure = none) (hinformed : w.Informed) (hcarries : Carries w.visitors slots)
    (hmutes : Mutes w.skipping slots) (place : Cursor) :
    Made w (enterAll place 0 slots) (w.enter place) fun slots' ↦ Entered place w (w.enter place) w.stack slots' := by
  have hnoted : Carries (w.noteEnter place.node.kind).visitors ([] ++ slots) := by rwa [w.visitors_noteEnter]
  have henter : (hooked (·.enter place.node.kind) 0 slots).foldl (callEnter place)
      { w with toMultiplexer := w.noteEnter place.node.kind } = w.enter place := by
    rw [enter, hinformed.enterHooks, hcarries.having_eq fun _ _ ↦ rfl]
  have hmade : Made { w with toMultiplexer := w.noteEnter place.node.kind } (enterAll place 0 slots)
      (w.enter place) _ :=
    enterAll_made (w := { w with toMultiplexer := w.noteEnter place.node.kind }) hnone hnoted hmutes henter
  refine ⟨hmade.calls, hmade.failed, ?_⟩
  intro slots' h
  obtain ⟨hnone', hentered⟩ := hmade.done slots' h
  exact ⟨hnone', hentered.carries, hentered.mutes, hentered.stack, hentered.skipping⟩

theorem leave_made {before : List (Slot σ ε)} (hnone : w.failure = none) (hinformed : w.Informed)
    (hcarries : Carries w.visitors slots) (hlength : before.length = slots.length) (place : Cursor)
    (hmuted : ∀ i b, before[i]? = some b → ((w.skipping.lookup i).filter (· ≠ place.id)).isSome = b.muted) :
    Made w (leaveAll place 0 before slots) (w.leave place) fun slots' ↦
      Left w (w.leave place) slots' ∧ slots'.map (·.muted) = before.map (·.muted) := by
  have hnoted : Carries (w.noteLeave place.node.kind).visitors ([] ++ slots) := by rwa [w.visitors_noteLeave]
  have hleave : (hooked (·.leave place.node.kind) 0 slots).foldl (callLeave place)
      { w with toMultiplexer := w.noteLeave place.node.kind } = w.leave place := by
    rw [leave, hinformed.leaveHooks, hcarries.having_eq fun _ _ ↦ rfl]
  have hmuted' : ∀ i b, before[i]? = some b →
      ((w.skipping.lookup (([] : List (Slot σ ε)).length + i)).filter (· ≠ place.id)).isSome = b.muted := by
    intro i b hb
    rw [List.length_nil, Nat.zero_add]
    exact hmuted i b hb
  have hmade : Made { w with toMultiplexer := w.noteLeave place.node.kind } (leaveAll place 0 before slots)
      (w.leave place) _ :=
    leaveAll_made (w := { w with toMultiplexer := w.noteLeave place.node.kind }) hnone hnoted hlength hmuted' hleave
  refine ⟨hmade.calls, hmade.failed, ?_⟩
  intro slots' h
  obtain ⟨hnone', hleft, hmap⟩ := hmade.done slots' h
  exact ⟨hnone', ⟨hleft.carries, hleft.stack, hleft.skipping⟩, hmap⟩

theorem Mutes.congr {skipping : List (Nat × List Nat)} {slots' : List (Slot σ ε)} (h : Mutes skipping slots)
    (hmap : slots'.map (·.muted) = slots.map (·.muted)) : Mutes skipping slots' := by
  intro i s' hs'
  have hmuted : (slots.map (·.muted))[i]? = some s'.muted := by rw [← hmap, List.getElem?_map, hs', Option.map_some]
  rw [List.getElem?_map] at hmuted
  obtain ⟨s, hs, hsame⟩ := Option.map_eq_some_iff.1 hmuted
  rw [h i s hs, hsame]

theorem lookup_own {skipping new : List (Nat × List Nat)} (hother : ∀ p ∈ skipping, p.2 ≠ place.id)
    (hown : ∀ p ∈ new, p.2 = place.id) (i : Nat) :
    (((skipping ++ new).lookup i).filter (· ≠ place.id)).isSome = (skipping.lookup i).isSome := by
  rw [List.lookup_append]
  cases h : skipping.lookup i with
  | some id =>
    obtain ⟨l, r, hsplit, -⟩ := List.lookup_eq_some_iff.1 h
    have hne : id ≠ place.id := hother (i, id) (by simp [hsplit])
    simp [hne]
  | none =>
    cases h' : new.lookup i with
    | none => rfl
    | some id =>
      obtain ⟨l, r, hsplit, -⟩ := List.lookup_eq_some_iff.1 h'
      have heq : id = place.id := hown (i, id) (by simp [hsplit])
      simp [heq]

theorem filter_own {skipping new : List (Nat × List Nat)} (hother : ∀ p ∈ skipping, p.2 ≠ place.id)
    (hown : ∀ p ∈ new, p.2 = place.id) : (skipping ++ new).filter (·.2 ≠ place.id) = skipping := by
  have hfirst : skipping.filter (·.2 ≠ place.id) = skipping := by
    rw [List.filter_eq_self]
    intro p hp
    simpa using hother p hp
  have hsecond : new.filter (·.2 ≠ place.id) = [] := by
    rw [List.filter_eq_nil_iff]
    intro p hp
    simpa using hown p hp
  rw [List.filter_append, hfirst, hsecond, List.append_nil]

/-- A part of the tree lies behind the walk: what waited below it on the stack comes next, and the same visitors skip
something as before. -/
structure Through (w w' : Walker σ ε) (rest : List Task) (slots : List (Slot σ ε)) : Prop where
  carries : Carries w'.visitors slots
  mutes : Mutes w.skipping slots
  stack : w'.stack = rest
  skipping : w'.skipping = w.skipping

/-- The walk takes a node from the stack to enter it. -/
theorem step_enters {rest : List Task} (hnone : w.failure = none) (hstack : w.stack = ⟨place, false⟩ :: rest)
    (hinformed : w.Informed) (hcarries : Carries w.visitors slots) (hmutes : Mutes w.skipping slots) :
    Made w (enterAll place 0 slots) w.step fun slots' ↦
      Entered place w w.step (place.namedChildren.map (⟨·, false⟩) ++ ⟨place, true⟩ :: rest) slots' := by
  have henter := enter_made hnone hinformed hcarries hmutes place
  have hstep : w.step = { w.enter place with
      stack := place.namedChildren.map (⟨·, false⟩) ++ ⟨place, true⟩ :: rest } := by
    simp only [step, hnone, hstack]
  rw [hstep]
  refine ⟨henter.calls, henter.failed, ?_⟩
  intro slots' h
  obtain ⟨hnone', hentered⟩ := henter.done slots' h
  exact ⟨hnone', hentered.carries, hentered.mutes, rfl, hentered.skipping⟩

/-- The walk takes a node from the stack to leave it, and the visitors that skipped its descendants see again. -/
theorem step_leaves {w₀ : Walker σ ε} {rest : List Task} {before : List (Slot σ ε)} {new : List (Nat × List Nat)}
    (hnone : w.failure = none) (hstack : w.stack = ⟨place, true⟩ :: rest) (hinformed : w.Informed)
    (hcarries : Carries w.visitors slots) (hlength : before.length = slots.length) (hmutes : Mutes w₀.skipping before)
    (hskipping : w.skipping = w₀.skipping ++ new) (hother : ∀ p ∈ w₀.skipping, p.2 ≠ place.id)
    (hown : ∀ p ∈ new, p.2 = place.id) :
    Made w (leaveAll place 0 before slots) w.step fun slots' ↦ Through w₀ w.step rest slots' := by
  have hmuted : ∀ i b, before[i]? = some b → ((w.skipping.lookup i).filter (· ≠ place.id)).isSome = b.muted := by
    intro i b hb
    rw [hskipping, lookup_own hother hown, hmutes i b hb]
  have hleave := leave_made hnone hinformed hcarries hlength place hmuted
  have hstep : w.step =
      { w.leave place with stack := rest, skipping := (w.leave place).skipping.filter (·.2 ≠ place.id) } := by
    simp only [step, hnone, hstack]
  rw [hstep]
  refine ⟨hleave.calls, hleave.failed, ?_⟩
  intro slots' h
  obtain ⟨hnone', hleft, hmap⟩ := hleave.done slots' h
  refine ⟨hnone', hleft.carries, hmutes.congr hmap, rfl, ?_⟩
  change (w.leave place).skipping.filter _ = _
  rw [hleft.skipping, hskipping, filter_own hother hown]

mutual

/-- The walk of a node is the recursion over it. Each node takes a step as it is entered and one as it is left. -/
theorem node_made (above : List Frame) (slots : List (Slot σ ε)) (x : Node) (rest : List Task) {w : Walker σ ε}
    (hnone : w.failure = none) (hstack : w.stack = ⟨⟨x, above⟩, false⟩ :: rest) (hinformed : w.Informed)
    (hcarries : Carries w.visitors slots) (hmutes : Mutes w.skipping slots)
    (hdepth : ∀ p ∈ w.skipping, p.2.length < above.length) :
    ∃ k ≤ 2 * x.preorder.length, Made w (node above slots x) (run k w) fun slots' ↦
      Through w (run k w) rest slots' := by
  cases x with
  | mk kind field named missing start stop text children =>
    -- Who skips already skips below a node that lies higher, so leaving this node ends no such skip.
    have hother : ∀ p ∈ w.skipping, p.2 ≠ Cursor.id ⟨.mk kind field named missing start stop text children, above⟩ := by
      intro p hp heq
      have hlt := hdepth p hp
      rw [heq, Cursor.id, List.length_map] at hlt
      exact Nat.lt_irrefl _ hlt
    have hwhole : ∃ k ≤ 2 * (Node.preorderAll children).length + 1,
        Made w (node above slots (.mk kind field named missing start stop text children)) (run k w.step) fun slots' ↦
          Through w (run k w.step) rest slots' := by
      rw [node]
      refine (step_enters hnone hstack hinformed hcarries hmutes).exists_run (Q := fun w' ↦ Through w w' rest) ?_
      intro entered hnone₁ hentered
      obtain ⟨new, hnew, hown⟩ := hentered.skipping
      have hdepth₁ : ∀ p ∈ w.step.skipping, p.2.length < above.length + 1 := by
        intro p hp
        rw [hnew] at hp
        rcases List.mem_append.1 hp with hp | hp
        · exact Nat.lt_trans (hdepth p hp) (Nat.lt_succ_self _)
        · rw [hown p hp, Cursor.id, List.length_map]
          exact Nat.lt_succ_self _
      obtain ⟨k, hk, hbelow⟩ := siblings_made _ above [] entered children _ hnone₁ hentered.stack
        (lasting_informed.step hinformed) hentered.carries hentered.mutes hdepth₁
      refine ⟨k + 1, by omega, ?_⟩
      rw [run_add]
      refine hbelow.bind ?_ ?_
      · intro hfail
        obtain ⟨e, he⟩ := Option.ne_none_iff_exists'.1 hfail
        exact step_of_failure he
      · intro walked hnone₂ hthrough
        have hlength : slots.length = walked.length := by
          have hhooks := congrArg List.length ((lasting_hooks _).run ((lasting_hooks _).step (w := w) rfl) k)
          rw [List.length_map, List.length_map, hcarries.length, hthrough.carries.length] at hhooks
          exact hhooks.symm
        exact step_leaves hnone₂ hthrough.stack (lasting_informed.run (lasting_informed.step hinformed) k)
          hthrough.carries hlength hmutes (hthrough.skipping.trans hnew) hother hown
    obtain ⟨k, hk, hmade⟩ := hwhole
    refine ⟨1 + k, ?_, ?_⟩
    · rw [Node.preorder, List.length_cons]
      omega
    · rw [run_add]
      exact hmade

theorem siblings_made (parent : Node) (above : List Frame) (before : List Node) (slots : List (Slot σ ε))
    (xs : List Node) (rest : List Task) {w : Walker σ ε} (hnone : w.failure = none)
    (hstack : w.stack =
      ((Cursor.childrenFrom ⟨parent, above⟩ before xs).filter (·.node.named)).map (⟨·, false⟩) ++ rest)
    (hinformed : w.Informed) (hcarries : Carries w.visitors slots) (hmutes : Mutes w.skipping slots)
    (hdepth : ∀ p ∈ w.skipping, p.2.length < above.length + 1) :
    ∃ k ≤ 2 * (Node.preorderAll xs).length, Made w (siblings parent above before slots xs) (run k w) fun slots' ↦
      Through w (run k w) rest slots' := by
  cases xs with
  | nil =>
    refine ⟨0, Nat.zero_le _, ?_⟩
    rw [siblings]
    exact .pure hnone ⟨hcarries, hmutes, hstack, rfl⟩
  | cons x xs =>
    rw [Cursor.childrenFrom, List.filter_cons] at hstack
    rw [siblings]
    cases hnamed : x.named with
    | false =>
      simp only [hnamed, Bool.false_eq_true, if_false, pure_bind] at hstack ⊢
      obtain ⟨k, hk, hmade⟩ := siblings_made parent above (x :: before) slots xs rest hnone hstack hinformed hcarries
        hmutes hdepth
      refine ⟨k, ?_, hmade⟩
      rw [Node.preorderAll, List.length_append]
      omega
    | true =>
      simp only [hnamed, if_true, List.map_cons, List.cons_append] at hstack ⊢
      obtain ⟨j, hj, hfirst⟩ := node_made (⟨parent, before⟩ :: above) slots x _ hnone hstack hinformed hcarries hmutes
        hdepth
      obtain ⟨k, hk, hmade⟩ := hfirst.exists_run (n := 2 * (Node.preorderAll xs).length)
        (Q := fun w' ↦ Through w w' rest) fun walked hnone' hthrough ↦ by
          have hdepth' : ∀ p ∈ (run j w).skipping, p.2.length < above.length + 1 := by
            rw [hthrough.skipping]
            exact hdepth
          have hmutes' : Mutes (run j w).skipping walked := by
            rw [hthrough.skipping]
            exact hthrough.mutes
          obtain ⟨k, hk, hmade⟩ := siblings_made parent above (x :: before) walked xs rest hnone' hthrough.stack
            (lasting_informed.run hinformed j) hthrough.carries hmutes' hdepth'
          refine ⟨k, hk, hmade.imp fun slots' h ↦ ⟨h.carries, ?_, h.stack, h.skipping.trans hthrough.skipping⟩⟩
          rw [← hthrough.skipping]
          exact h.mutes
      refine ⟨j + k, ?_, ?_⟩
      · rw [Node.preorderAll, List.length_append]
        omega
      · rw [run_add]
        exact hmade

end

end Walker

open Walker Walk

theorem carries_fresh (visitors : List (Visitor σ ε)) : Carries visitors (visitors.map Slot.fresh) := by
  rw [Carries, List.map_map]
  exact (List.map_id _).symm

theorem mutes_fresh (visitors : List (Visitor σ ε)) : Mutes [] (visitors.map Slot.fresh) := by
  intro i s hs
  rw [List.getElem?_map] at hs
  obtain ⟨v, -, rfl⟩ := Option.map_eq_some_iff.1 hs
  rfl

/-- The steps that a walk may take suffice: it goes through the whole tree, if it is not broken off. -/
theorem Multiplexer.Informed.walk_made {m : Multiplexer σ ε} (hm : m.Informed) (root : Node) :
    Made { m with skipping := [], stack := [⟨.root root, false⟩], calls := [], failure := none }
      (node [] (m.visitors.map Slot.fresh) root) (m.walk root) fun slots ↦
        (m.walk root).stack = [] ∧ Carries (m.walk root).visitors slots := by
  let w : Walker σ ε := { m with skipping := [], stack := [⟨.root root, false⟩], calls := [], failure := none }
  obtain ⟨k, hk, hmade⟩ := node_made [] (m.visitors.map Slot.fresh) root [] (w := w) rfl rfl hm (carries_fresh _)
    (mutes_fresh _) (by simp [w])
  have hrest : m.walk root = run k w := by
    rw [Multiplexer.walk, show 2 * root.preorder.length = k + (2 * root.preorder.length - k) by omega, run_add]
    apply run_eq_self
    cases hresult : (node [] (m.visitors.map Slot.fresh) root).result with
    | error e => exact step_of_failure (hmade.failed e hresult)
    | ok slots => exact step_of_stack_nil (hmade.done slots hresult).2.stack
  rw [hrest]
  exact hmade.imp fun slots h ↦ ⟨h.stack, h.carries⟩

/-- A walk of a multiplexer is the recursion over the tree, whatever the multiplexer has looked up before. -/
theorem Multiplexer.Informed.traced_walk {m : Multiplexer σ ε} (hm : m.Informed) (root : Node) :
    (m.walk root).traced = List.map (·.state) <$> node [] (m.visitors.map Slot.fresh) root := by
  have hmade := hm.walk_made root
  have hcalls : (m.walk root).calls = (node [] (m.visitors.map Slot.fresh) root).calls := hmade.calls
  rw [Traced.map_eq, traced, hcalls]
  cases hresult : (node [] (m.visitors.map Slot.fresh) root).result with
  | error e =>
    rw [hmade.failed e hresult]
    rfl
  | ok slots =>
    obtain ⟨hnone, -, hcarries⟩ := hmade.done slots hresult
    rw [hnone, show (m.walk root).visitors = _ from hcarries, List.map_map]
    rfl

theorem walk_eq_node (visitors : List (Visitor σ ε)) (root : Node) :
    walk visitors root = List.map (·.state) <$> node [] (visitors.map Slot.fresh) root :=
  (Multiplexer.informed_new visitors).traced_walk root

/-- Earlier walks leave nothing behind but the states of the visitors. -/
theorem Multiplexer.Used.traced_walk {m : Multiplexer σ ε} (h : m.Used) (root : Node) :
    (m.walk root).traced = PolymerAnalysis.walk m.visitors root :=
  (h.informed.traced_walk root).trans (walk_eq_node m.visitors root).symm

end PolymerAnalysis
