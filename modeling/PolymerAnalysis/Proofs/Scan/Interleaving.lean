import PolymerAnalysis.Proofs.Scan.SharedRun

namespace PolymerAnalysis

namespace Walk

variable {σ ε : Type} {n i : Nat} {ms : List Call}

theorem only_eachOf {lo : Nat} (phase : Phase) (place : Cursor) (hlo : lo ≤ i) (hi : i < lo + n) :
    only i (eachOf lo n phase place) = [⟨i, phase, place⟩] := by
  have hcount : (List.range' lo n).count i = 1 :=
    List.count_eq_one_of_mem List.nodup_range' (List.mem_range'_1.2 ⟨hlo, hi⟩)
  have hone : (List.range' lo n).filter (· = i) = [i] := by
    rw [List.filter_eq, hcount]
    rfl
  calc only i (eachOf lo n phase place)
    _ = ((List.range' lo n).filter (· = i)).map (⟨·, phase, place⟩) := List.filter_map
    _ = [⟨i, phase, place⟩] := by rw [hone, List.map_singleton]

theorem fits_enterAt {v : Visitor σ ε} {place : Cursor} (state : σ) (h : only i ms = [⟨i, .enter, place⟩]) :
    Fits ms i (v.enterAt i place state) := by
  rw [Visitor.enterAt]
  split
  · exact .pure _
  · refine ⟨?_, fun _ _ ↦ List.cons_ne_nil _ _⟩
    rw [h]

theorem fits_leaveAt {v : Visitor σ ε} {place : Cursor} (state : σ) (h : only i ms = [⟨i, .leave, place⟩]) :
    Fits ms i (v.leaveAt i place state) := by
  rw [Visitor.leaveAt]
  split
  · exact .pure _
  · refine ⟨?_, fun _ _ ↦ List.cons_ne_nil _ _⟩
    rw [h]

mutual

theorem fits_tour (v : Visitor σ ε) (hi : i < n) (above : List Frame) (state : σ) (x : Node) :
    Fits (occasions n above x) i (v.tour i above state x) := by
  cases x with
  | mk kind field named missing start stop text children =>
    have hlt : i < 0 + n := by omega
    rw [occasions, Visitor.tour]
    refine (fits_enterAt state (only_eachOf .enter _ (Nat.zero_le i) hlt)).bind fun entered ↦ ?_
    refine Fits.bind ?_ fun walked ↦ fits_leaveAt walked (only_eachOf .leave _ (Nat.zero_le i) hlt)
    split
    · exact .pure _
    · exact fits_tourAll v hi _ above [] entered.1 children

theorem fits_tourAll (v : Visitor σ ε) (hi : i < n) (parent : Node) (above : List Frame) (before : List Node)
    (state : σ) (xs : List Node) : Fits (occasionsAll n parent above before xs) i (v.tourAll i parent above before state xs) := by
  cases xs with
  | nil =>
    rw [Visitor.tourAll]
    exact .pure state
  | cons x xs =>
    rw [occasionsAll, Visitor.tourAll]
    refine Fits.bind ?_ fun walked ↦ fits_tourAll v hi parent above (x :: before) walked xs
    split
    · exact fits_tour v hi _ state x
    · exact .pure state

end

theorem eachOf_succ (lo n : Nat) (phase : Phase) (place : Cursor) :
    eachOf lo (n + 1) phase place = ⟨lo, phase, place⟩ :: eachOf (lo + 1) n phase place := by
  rw [eachOf, List.range'_succ, List.map_cons]
  rfl

theorem lt_of_mem_eachOf {lo : Nat} {phase : Phase} {place : Cursor} :
    ∀ c ∈ eachOf (lo + 1) n phase place, lo < c.visitor := by
  intro c hc
  have := (mem_eachOf.1 hc).1
  omega

theorem only_eachOf_fin (lo : Nat) (phase : Phase) (place : Cursor) (k : Fin n) :
    only (lo + k) (eachOf lo n phase place) = [⟨lo + k, phase, place⟩] :=
  only_eachOf phase place (Nat.le_add_right lo k) (Nat.add_lt_add_left k.isLt lo)

theorem fits_enterOne {place : Cursor} (s : Slot σ ε) (h : only i ms = [⟨i, .enter, place⟩]) :
    Fits ms i (enterOne place i s) := by
  cases hmuted : s.muted with
  | true =>
    rw [enterOne_of_muted hmuted]
    exact .pure s
  | false =>
    rw [enterOne_of_unmuted hmuted]
    exact (fits_enterAt s.state h).map _

theorem fits_leaveOne {place : Cursor} (muted : Bool) (s : Slot σ ε) (h : only i ms = [⟨i, .leave, place⟩]) :
    Fits ms i (leaveOne place i muted s) := by
  cases muted with
  | true =>
    rw [leaveOne_muted]
    exact .pure _
  | false =>
    rw [leaveOne_unmuted]
    exact (fits_leaveAt s.state h).map _

theorem fits_slotTourAll (s : Slot σ ε) (hi : i < n) (parent : Node) (above : List Frame) (before : List Node)
    (xs : List Node) : Fits (occasionsAll n parent above before xs) i (s.tourAll i parent above before xs) := by
  rw [Slot.tourAll]
  split
  · exact .pure s
  · exact (fits_tourAll s.visitor hi parent above before s.state xs).map _

theorem enterAll_joins (lo : Nat) (place : Cursor) (slots : List (Slot σ ε)) (hn : slots.length = n) :
    Joins lo (eachOf lo n .enter place) (enterAll place lo slots)
      fun k : Fin n ↦ enterOne place (lo + k) (slots.get (k.cast hn.symm)) := by
  induction slots generalizing lo n with
  | nil =>
    subst hn
    exact .nil
  | cons s ss ih =>
    obtain rfl : n = ss.length + 1 := hn.symm
    have hfits (k : Fin (ss.length + 1)) : Fits (eachOf lo (ss.length + 1) .enter place) (lo + k)
        (enterOne place (lo + k) ((s :: ss).get k)) := fits_enterOne _ (only_eachOf_fin lo .enter place k)
    have htail := ih (lo + 1) rfl
    simp only [label_succ] at htail
    rw [eachOf_succ] at hfits ⊢
    rw [enterAll]
    simp only [bind_pure_comp]
    exact htail.cons rfl lt_of_mem_eachOf hfits

theorem leaveAll_joins (lo : Nat) (place : Cursor) (before slots : List (Slot σ ε)) (hbefore : before.length = n)
    (hn : slots.length = n) :
    Joins lo (eachOf lo n .leave place) (leaveAll place lo before slots)
      fun k : Fin n ↦
        leaveOne place (lo + k) (before.get (k.cast hbefore.symm)).muted (slots.get (k.cast hn.symm)) := by
  induction slots generalizing lo n before with
  | nil =>
    subst hn
    cases List.length_eq_zero_iff.1 hbefore
    exact .nil
  | cons s ss ih =>
    obtain rfl : n = ss.length + 1 := hn.symm
    obtain ⟨b, bs, rfl⟩ := List.exists_cons_of_length_eq_add_one hbefore
    have hfits (k : Fin (ss.length + 1)) : Fits (eachOf lo (ss.length + 1) .leave place) (lo + k)
        (leaveOne place (lo + k) ((b :: bs).get (k.cast hbefore.symm)).muted
          ((s :: ss).get k)) :=
      fits_leaveOne _ _ (only_eachOf_fin lo .leave place k)
    have htail := ih (lo + 1) bs (Nat.succ.inj hbefore) rfl
    simp only [label_succ] at htail
    rw [eachOf_succ] at hfits ⊢
    rw [leaveAll]
    simp only [bind_pure_comp]
    exact htail.cons rfl lt_of_mem_eachOf hfits

mutual

/-- Visitors share the walk of a node: each of them goes its own way. -/
theorem node_joins (above : List Frame) (slots : List (Slot σ ε)) (x : Node) (hn : slots.length = n) :
    Joins 0 (occasions n above x) (node above slots x) fun k : Fin n ↦ (slots.get (k.cast hn.symm)).tour k above x := by
  cases x with
  | mk kind field named missing start stop text children =>
    simp only [Slot.tour_mk, bind_assoc]
    rw [occasions, node]
    have henter := enterAll_joins 0 ⟨.mk kind field named missing start stop text children, above⟩ slots hn
    simp only [Nat.zero_add] at henter
    refine henter.bind ?_ ?_
    · intro k entered
      rw [Nat.zero_add]
      refine (fits_slotTourAll entered k.isLt _ above [] children).bind fun walked ↦ fits_leaveOne _ walked ?_
      simpa only [Nat.zero_add] using only_eachOf_fin 0 .leave _ k
    · intro entered hentered
      refine (siblings_joins _ above [] entered children hentered).bind ?_ ?_
      · intro k walked
        rw [Nat.zero_add]
        refine fits_leaveOne _ walked ?_
        simpa only [Nat.zero_add] using only_eachOf_fin 0 .leave _ k
      · intro walked hwalked
        have hleave := leaveAll_joins 0 ⟨.mk kind field named missing start stop text children, above⟩ slots
          walked hn hwalked
        simp only [Nat.zero_add] at hleave
        exact hleave

theorem siblings_joins (parent : Node) (above : List Frame) (before : List Node) (slots : List (Slot σ ε))
    (xs : List Node) (hn : slots.length = n) :
    Joins 0 (occasionsAll n parent above before xs) (siblings parent above before slots xs)
      fun k : Fin n ↦ (slots.get (k.cast hn.symm)).tourAll k parent above before xs := by
  cases xs with
  | nil =>
    simp only [occasionsAll, siblings, Slot.tourAll_nil]
    refine .whole ⟨⟨slots, rfl, hn, ?_⟩, List.nil_sublist _, fun k ↦ rfl⟩
    intro k s hs
    rw [List.getElem?_eq_getElem (hn ▸ k.isLt)] at hs
    exact congrArg Except.ok (Option.some.inj hs)
  | cons x xs =>
    rw [occasionsAll, siblings]
    cases hnamed : x.named with
    | true =>
      simp only [if_true, Slot.tourAll_cons_of_named hnamed]
      refine (node_joins _ slots x hn).bind ?_ fun walked hwalked ↦
        siblings_joins parent above (x :: before) walked xs hwalked
      intro k walked
      rw [Nat.zero_add]
      exact fits_slotTourAll walked k.isLt parent above (x :: before) xs
    | false =>
      simp only [Bool.false_eq_true, if_false, Slot.tourAll_cons_of_unnamed hnamed, pure_bind, List.nil_append]
      exact siblings_joins parent above (x :: before) slots xs hn

end

theorem node_singleton (above : List Frame) (s : Slot σ ε) (x : Node) :
    node above [s] x = ([·]) <$> s.tour 0 above x := by
  have hzero : ∀ {ds cs : List Call}, occasions 1 above x = ds ++ cs → ∀ {es : List Call}, es.Sublist ds →
      only 0 es = es := by
    intro ds cs hds es hes
    apply only_eq_self
    intro c hc
    have hmem : c ∈ occasions 1 above x := by
      rw [hds]
      exact List.mem_append_left cs (hes.subset hc)
    have := visitor_lt hmem
    omega
  rw [Traced.map_eq]
  cases node_joins above [s] x (n := 1) rfl with
  | whole h =>
    obtain ⟨as, has, hlength, heach⟩ := h.result
    obtain ⟨a, rfl⟩ := List.length_eq_one_iff.1 hlength
    have hresult : (s.tour 0 above x).result = .ok a := heach 0 a rfl
    have hcalls : (node above [s] x).calls = (s.tour 0 above x).calls :=
      (hzero (List.append_nil _).symm h.order).symm.trans (h.calls 0)
    rw [hresult, ← hcalls]
    exact congrArg (Traced.mk _) has
  | broken done left before c j e hms h =>
    cases Subsingleton.elim j 0
    have hresult : (s.tour 0 above x).result = .error e := h.raised
    have hcalls : (s.tour 0 above x).calls = (node above [s] x).calls := h.made.trans (hzero hms h.order)
    rw [hresult, hcalls]
    exact congrArg (Traced.mk _) h.result

end Walk

variable {σ ε : Type}

open Walk

theorem Visitor.eq_of_hooks {v v' : Visitor σ ε} (h : (v'.enter, v'.leave) = (v.enter, v.leave)) :
    v' = { v with start := v'.start } := by
  obtain ⟨henter, hleave⟩ := Prod.mk.inj h
  rw [← henter, ← hleave]

theorem tour_start (v : Visitor σ ε) (i : Nat) (root : Node) :
    Slot.tour i [] (.fresh v) root = (⟨v, ·, false⟩) <$> v.tour i [] v.start root := by
  rw [Slot.tour, Slot.fresh, if_neg Bool.false_ne_true]

theorem walk_singleton (v : Visitor σ ε) (root : Node) : walk [v] root = ([·]) <$> v.tour 0 [] v.start root := by
  rw [walk_eq_node, List.map_singleton, node_singleton, tour_start, Functor.map_map, Functor.map_map]
  rfl

theorem Visitor.outcome_eq (v : Visitor σ ε) (root : Node) : v.outcome root = (v.tour 0 [] v.start root).result := by
  have hwalk : (walk [v] root).result = (v.outcome root).map ([·]) := (walk_gathers [v] root).singleton
  rw [walk_singleton, Traced.map_eq] at hwalk
  cases hout : v.outcome root <;> cases htour : (v.tour 0 [] v.start root).result <;> rw [hout, htour] at hwalk <;>
    cases hwalk <;> rfl

/-- The call `c` fails with `e`: it is the last one that its visitor gets where it has the tree for itself. -/
def Raises (visitors : List (Visitor σ ε)) (root : Node) (c : Call) (e : ε) : Prop :=
  ∃ v, visitors[c.visitor]? = some v ∧ (v.tour c.visitor [] v.start root).result = .error e ∧
    (v.tour c.visitor [] v.start root).calls.getLast? = some c

theorem raises_iff (visitors : List (Visitor σ ε)) (root : Node) (c : Call) (e : ε) :
    Raises visitors root c e ↔
      Breaks (fun k : Fin visitors.length ↦ (visitors.get k).tour k [] (visitors.get k).start root) c e := by
  constructor
  · rintro ⟨v, hv, hresult, hlast⟩
    obtain ⟨hlt, rfl⟩ := List.getElem?_eq_some_iff.1 hv
    exact ⟨⟨c.visitor, hlt⟩, rfl, hresult, hlast⟩
  · rintro ⟨k, hk, hresult, hlast⟩
    rw [Raises, hk]
    exact ⟨visitors.get k, List.getElem?_eq_getElem k.isLt, hresult, hlast⟩

theorem walk_joins (visitors : List (Visitor σ ε)) (root : Node) :
    Joins 0 (occasions visitors.length [] root) (walk visitors root)
      fun k : Fin visitors.length ↦ (visitors.get k).tour k [] (visitors.get k).start root := by
  have hslots : (visitors.map Slot.fresh).length = visitors.length := List.length_map ..
  have hjoins := (node_joins [] _ root hslots).map (·.state)
  rw [← walk_eq_node] at hjoins
  convert hjoins using 2 with k
  have hslot : (visitors.map Slot.fresh).get (k.cast hslots.symm) = .fresh (visitors.get k) := List.getElem_map ..
  rw [hslot, tour_start, Functor.map_map, id_map']

/-- A walk calls nobody but its visitors. -/
theorem walk_visitor_lt {visitors : List (Visitor σ ε)} {root : Node} {c : Call} (h : c ∈ (walk visitors root).calls) :
    c.visitor < visitors.length := visitor_lt ((walk_joins visitors root).calls_sublist.subset h)

theorem walk_nil (root : Node) : walk ([] : List (Visitor σ ε)) root = ⟨[], .ok []⟩ := by
  have hcalls : (walk ([] : List (Visitor σ ε)) root).calls = [] := by
    apply List.eq_nil_iff_forall_not_mem.2
    intro c hc
    exact Nat.not_lt_zero _ (walk_visitor_lt hc)
  have hresult : (walk ([] : List (Visitor σ ε)) root).result = .ok [] := (walk_gathers [] root).of_ok
  calc walk [] root
    _ = ⟨(walk [] root).calls, (walk [] root).result⟩ := rfl
    _ = ⟨[], .ok []⟩ := by rw [hcalls, hresult]

/-- Visitors that share a walk do not disturb each other, in the first walk of a multiplexer as in any later one. Each
visitor gets the calls that it gets where it has the tree for itself: it enters a node, sees the node's children unless
it skips them, and leaves the node. Together the calls keep the order of the nodes, and at one node that of the
visitors. A hook that fails makes the last one. -/
theorem walk_interleaves {m : Multiplexer σ ε} (hm : m.Used) (root : Node) :
    (occasions m.visitors.length [] root).Nodup ∧
    ∃ order : List Call, order.Sublist (occasions m.visitors.length [] root) ∧
      (∀ i v, m.visitors[i]? = some v → only i order = (v.tour i [] v.start root).calls ∧
        only i order = (walk [v] root).calls.map fun c ↦ { c with visitor := i }) ∧
      match (m.walk root).failure with
      | none => (m.walk root).calls = order ∧
          List.Forall₂ (fun v v' ↦ ∃ state, (walk [v] root).result = .ok [state] ∧ v' = { v with start := state })
            m.visitors (m.walk root).visitors
      | some e => ∃ before c after, order = before ++ c :: after ∧ (m.walk root).calls = before ++ [c] ∧
          Raises m.visitors root c e ∧ ∀ d ∈ before, ∀ e', ¬Raises m.visitors root d e' := by
  have hnodup := nodup_occasions m.visitors.length [] root
  obtain ⟨order, horder, hcalls, hend⟩ := (walk_joins m.visitors root).exists_order hnodup
  rw [← hm.traced_walk] at hend
  refine ⟨hnodup, order, horder, ?_, ?_⟩
  · intro i v hv
    obtain ⟨hlt, rfl⟩ := List.getElem?_eq_some_iff.1 hv
    have hown : only i order = (m.visitors[i].tour i [] m.visitors[i].start root).calls := hcalls ⟨i, hlt⟩
    refine ⟨hown, ?_⟩
    rw [hown, Visitor.tour_as, walk_singleton, Traced.map_eq]
    rfl
  · rw [Walker.traced] at hend
    cases hfailure : (m.walk root).failure with
    | none =>
      rw [hfailure] at hend
      obtain ⟨hshared, hlength, heach⟩ := hend
      rw [List.length_map] at hlength
      refine ⟨hshared, List.forall₂_iff_get.2 ⟨hlength.symm, fun i hi hi' ↦ ?_⟩⟩
      have hstate := heach ⟨i, hi⟩ (m.walk root).visitors[i].start (by simp [hi'])
      rw [Visitor.tour_as] at hstate
      refine ⟨(m.walk root).visitors[i].start, ?_, ?_⟩
      · rw [walk_singleton, Traced.map_eq]
        exact congrArg (Except.map _) hstate
      · have hhooks := congrArg (·[i]?) (m.hooks_walk root)
        simp only [List.getElem?_map, List.getElem?_eq_getElem hi, List.getElem?_eq_getElem hi', Option.map_some,
          Option.some.injEq] at hhooks
        exact Visitor.eq_of_hooks hhooks
    | some e =>
      rw [hfailure] at hend
      obtain ⟨before, c, after, hsplit, hshared, hbreaks, hfirst⟩ := hend
      refine ⟨before, c, after, hsplit, hshared, (raises_iff m.visitors root c e).2 hbreaks, ?_⟩
      intro d hd e' hraises
      exact hfirst d hd e' ((raises_iff m.visitors root d e').1 hraises)

def outsideOfClasses : Visitor Nat String where
  start := 0
  enter kind := if kind = "class" then some fun _ n ↦ .ok (n + 1, .skip) else none
  leave kind := if kind = "class" then some fun _ n ↦ .ok (n + 1) else none

def learner : Visitor Nat String where
  start := 0
  enter kind :=
    if kind = "program" then some fun _ n ↦ .ok (n + 1, .proceed)
    else if kind = "call" then some fun _ n ↦ if n = 1 then .error "call" else .ok (n, .proceed)
    else none
  leave kind := if kind = "call" then some fun _ n ↦ .ok n else none

def callInClass : Node :=
  .mk "program" none true false 0 17 [] [
    .mk "class" none true false 0 17 [] [.mk "call" none true false 10 13 [] []]]

def pair : Multiplexer Nat String := { visitors := [outsideOfClasses, learner] }

/-- A call breaks the first walk off inside a class, which one of the visitors skips. The second walk ends well. -/
theorem pair_walks_again :
    (pair.walk callInClass).failure = some "call" ∧ ((pair.walk callInClass).walk callInClass).failure = none ∧
    ∃ order : List Call, ((pair.walk callInClass).walk callInClass).calls = order ∧
      ∀ i v, (pair.walk callInClass).visitors[i]? = some v →
        only i order = (v.tour i [] v.start callInClass).calls := by
  have hsecond : ((pair.walk callInClass).walk callInClass).failure = none := rfl
  have hused : pair.Used := .new [outsideOfClasses, learner]
  obtain ⟨-, order, -, hcalls, hend⟩ := walk_interleaves (.walked hused callInClass) callInClass
  rw [hsecond] at hend
  exact ⟨rfl, hsecond, order, hend.1, fun i v hv ↦ (hcalls i v hv).1⟩

end PolymerAnalysis
