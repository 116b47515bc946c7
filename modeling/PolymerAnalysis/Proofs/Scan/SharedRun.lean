import PolymerAnalysis.Proofs.Scan.Tour
import Mathlib.Data.Fin.SuccPred

namespace PolymerAnalysis

namespace Walk

variable {σ ε α β : Type} {lo n i : Nat} {ms ms' : List Call}

def only (i : Nat) (calls : List Call) : List Call := calls.filter (·.visitor = i)

@[simp] theorem only_nil (i : Nat) : only i [] = [] := rfl

@[simp] theorem only_append (i : Nat) (cs ds : List Call) : only i (cs ++ ds) = only i cs ++ only i ds :=
  List.filter_append ..

theorem only_cons_same {c : Call} (h : c.visitor = i) (cs : List Call) : only i (c :: cs) = c :: only i cs := by
  rw [only, List.filter_cons_of_pos (by simpa using h)]
  rfl

theorem only_cons_other {c : Call} (h : c.visitor ≠ i) (cs : List Call) : only i (c :: cs) = only i cs := by
  rw [only, List.filter_cons_of_neg (by simpa using h)]
  rfl

theorem only_eq_nil {cs : List Call} (h : ∀ c ∈ cs, c.visitor ≠ i) : only i cs = [] := by
  rw [only, List.filter_eq_nil_iff]
  intro c hc
  simpa using h c hc

theorem only_eq_self {cs : List Call} (h : ∀ c ∈ cs, c.visitor = i) : only i cs = cs := by
  rw [only, List.filter_eq_self]
  intro c hc
  simpa using h c hc

/-- A computation of visitor `i` that makes its calls on its occasions, and fails in a call if it fails. -/
structure Fits (ms : List Call) (i : Nat) (y : Traced ε α) : Prop where
  order : y.calls.Sublist (only i ms)
  called : ∀ e, y.result = .error e → y.calls ≠ []

namespace Fits

theorem pure (a : α) : Fits ms i (pure a : Traced ε α) where
  order := List.nil_sublist _
  called := by
    intro e h
    cases h

theorem map {y : Traced ε α} (h : Fits ms i y) (f : α → β) : Fits ms i (f <$> y) := by
  rw [Traced.map_eq]
  refine ⟨h.order, ?_⟩
  intro e he
  cases hy : y.result with
  | error e' => exact h.called e' hy
  | ok a =>
    rw [hy] at he
    cases he

theorem bind {y : Traced ε α} {f : α → Traced ε β} (h : Fits ms i y) (hf : ∀ a, Fits ms' i (f a)) :
    Fits (ms ++ ms') i (y >>= f) := by
  cases hy : y.result with
  | error e =>
    rw [Traced.bind_of_error hy]
    refine ⟨?_, fun _ _ ↦ h.called e hy⟩
    rw [only_append]
    exact h.order.trans (List.sublist_append_left _ _)
  | ok a =>
    rw [Traced.bind_of_ok hy]
    refine ⟨?_, ?_⟩
    · rw [only_append]
      exact h.order.append (hf a).order
    · intro e he hnil
      exact (hf a).called e he (List.append_eq_nil_iff.1 hnil).2

end Fits

/-- Computations of `n` visitors, the first of them with the index `lo`, share one run in which all came through. -/
structure Whole (lo : Nat) (ms : List Call) (x : Traced ε (List α)) (alone : Fin n → Traced ε α) : Prop where
  result : ∃ as, x.result = .ok as ∧ as.length = n ∧ ∀ (k : Fin n) a, as[k.val]? = some a → (alone k).result = .ok a
  order : x.calls.Sublist ms
  calls : ∀ k : Fin n, only (lo + k) x.calls = (alone k).calls

/-- They share one run that broke off in the call `c` of visitor `j`. The others have made their calls up to then, and
would go on alone. `done` are the occasions up to the end of the run, `left` those after it. -/
structure Broken (lo : Nat) (done left before : List Call) (c : Call) (j : Fin n) (e : ε) (x : Traced ε (List α))
    (alone : Fin n → Traced ε α) : Prop where
  result : x.result = .error e
  calls : x.calls = before ++ [c]
  order : x.calls.Sublist done
  visitor : c.visitor = lo + j
  raised : (alone j).result = .error e
  made : (alone j).calls = only (lo + j) x.calls
  others : ∀ k : Fin n, k ≠ j → ∃ rest, (alone k).calls = only (lo + k) x.calls ++ rest ∧
    rest.Sublist (only (lo + k) left) ∧ ∀ e', (alone k).result = .error e' → rest ≠ []

inductive Joins (lo : Nat) (ms : List Call) (x : Traced ε (List α)) (alone : Fin n → Traced ε α) : Prop where
  | whole (h : Whole lo ms x alone)
  | broken (done left before : List Call) (c : Call) (j : Fin n) (e : ε) (hms : ms = done ++ left)
      (h : Broken lo done left before c j e x alone)

section Cons

variable {m c : Call} {x : Traced ε (List α)} {alone : Fin (n + 1) → Traced ε α} {a : α} {e : ε} {j : Fin n}
  {done left before : List Call}

theorem only_eq_nil_of_lt (hms : ∀ c ∈ ms, lo < c.visitor) : only lo ms = [] :=
  only_eq_nil fun c hc ↦ Nat.ne_of_gt (hms c hc)

theorem label_succ (lo : Nat) (k : Fin n) : lo + 1 + k.val = lo + k.succ.val := by
  rw [Fin.val_succ]
  omega

variable (hm : m.visitor = lo) (hfirst : (alone 0).calls.Sublist [m])

include hm hfirst

theorem only_first : only lo (alone 0).calls = (alone 0).calls := by
  apply only_eq_self
  intro c hc
  rw [List.mem_singleton.1 (hfirst.subset hc), hm]

theorem only_succ_first (k : Fin n) : only (lo + k.succ) (alone 0).calls = [] := by
  apply only_eq_nil
  intro c hc
  rw [List.mem_singleton.1 (hfirst.subset hc), hm, Fin.val_succ]
  omega

/-- The first visitor fails, and the others have not begun. -/
theorem Broken.first (he : (alone 0).result = .error e)
    (hfits : ∀ k : Fin (n + 1), Fits (m :: ms) (lo + k) (alone k)) :
    Broken lo [m] ms [] m 0 e (alone 0 >>= fun a ↦ (a :: ·) <$> x) alone := by
  have hcalls : (alone 0).calls = [m] := (List.sublist_singleton.1 hfirst).resolve_left ((hfits 0).called e he)
  rw [Traced.bind_of_error he]
  refine ⟨rfl, hcalls, hfirst, hm, he, (only_first hm hfirst).symm, ?_⟩
  intro k hk
  obtain ⟨k, rfl⟩ := Fin.exists_succ_eq.2 hk
  refine ⟨(alone k.succ).calls, ?_, ?_, (hfits k.succ).called⟩
  · rw [only_succ_first hm hfirst, List.nil_append]
  · have horder := (hfits k.succ).order
    rwa [only_cons_other (by rw [hm, Fin.val_succ]; omega)] at horder

theorem Whole.cons (hms : ∀ c ∈ ms, lo < c.visitor) (ha : (alone 0).result = .ok a)
    (h : Whole (lo + 1) ms x fun k : Fin n ↦ alone k.succ) :
    Whole lo (m :: ms) (alone 0 >>= fun a ↦ (a :: ·) <$> x) alone := by
  obtain ⟨as, has, hlength, heach⟩ := h.result
  rw [Traced.bind_of_ok ha, Traced.map_eq]
  refine ⟨⟨a :: as, by rw [has]; rfl, by rw [List.length_cons, hlength], ?_⟩, hfirst.append h.order, ?_⟩
  · intro k b hb
    cases k using Fin.cases with
    | zero =>
      cases hb
      exact ha
    | succ k => exact heach k b hb
  · intro k
    rw [only_append]
    cases k using Fin.cases with
    | zero =>
      have hnone := only_eq_nil_of_lt fun c hc ↦ hms c (h.order.subset hc)
      change only lo _ ++ only lo _ = _
      rw [only_first hm hfirst, hnone, List.append_nil]
    | succ k => rw [only_succ_first hm hfirst, List.nil_append, ← label_succ, h.calls k]

theorem Broken.cons (hdone : ∀ c ∈ done, lo < c.visitor) (ha : (alone 0).result = .ok a)
    (h : Broken (lo + 1) done left before c j e x fun k : Fin n ↦ alone k.succ) :
    Broken lo (m :: done) left ((alone 0).calls ++ before) c j.succ e (alone 0 >>= fun a ↦ (a :: ·) <$> x) alone := by
  rw [Traced.bind_of_ok ha, Traced.map_eq]
  refine ⟨by rw [h.result]; rfl, by rw [h.calls, List.append_assoc], hfirst.append h.order,
    by rw [h.visitor, label_succ], h.raised, ?_, ?_⟩
  · rw [only_append, only_succ_first hm hfirst, List.nil_append, ← label_succ, h.made]
  · intro k hk
    rw [only_append]
    cases k using Fin.cases with
    | zero =>
      have hnone := only_eq_nil_of_lt fun c hc ↦ hdone c (h.order.subset hc)
      change ∃ rest, _ = only lo _ ++ only lo _ ++ rest ∧ _
      refine ⟨[], ?_, List.nil_sublist _, ?_⟩
      · rw [only_first hm hfirst, hnone, List.append_nil, List.append_nil]
      · intro e' he'
        rw [ha] at he'
        cases he'
    | succ k =>
      rw [only_succ_first hm hfirst, List.nil_append, ← label_succ]
      exact h.others k fun hkj ↦ hk (congrArg Fin.succ hkj)

end Cons

namespace Joins

theorem nil {alone : Fin 0 → Traced ε α} : Joins lo ms (pure []) alone :=
  .whole ⟨⟨[], rfl, rfl, fun k ↦ k.elim0⟩, List.nil_sublist _, fun k ↦ k.elim0⟩

theorem calls_sublist {x : Traced ε (List α)} {alone : Fin n → Traced ε α} (h : Joins lo ms x alone) :
    x.calls.Sublist ms := by
  cases h with
  | whole h => exact h.order
  | broken done left before c j e hms h =>
    rw [hms]
    exact h.order.trans (List.sublist_append_left done left)

/-- One more visitor comes first. -/
theorem cons {m : Call} {x : Traced ε (List α)} {alone : Fin (n + 1) → Traced ε α} (hm : m.visitor = lo)
    (hms : ∀ c ∈ ms, lo < c.visitor) (hfits : ∀ k : Fin (n + 1), Fits (m :: ms) (lo + k) (alone k))
    (h : Joins (lo + 1) ms x fun k : Fin n ↦ alone k.succ) :
    Joins lo (m :: ms) (alone 0 >>= fun a ↦ (a :: ·) <$> x) alone := by
  have hfirst : (alone 0).calls.Sublist [m] := by
    have horder : (alone 0).calls.Sublist (only lo (m :: ms)) := (hfits 0).order
    rwa [only_cons_same hm, only_eq_nil_of_lt hms] at horder
  cases hlo : (alone 0).result with
  | error e => exact .broken [m] ms [] m 0 e rfl (.first hm hfirst hlo hfits)
  | ok a =>
    cases h with
    | whole h => exact .whole (h.cons hm hfirst hms hlo)
    | broken done left before c j e hms' h =>
      subst hms'
      exact .broken (m :: done) left _ c j.succ e rfl
        (h.cons hm hfirst (fun c hc ↦ hms c (List.mem_append_left left hc)) hlo)

end Joins

def after (y : Traced ε α) (f : α → Traced ε β) : Traced ε β :=
  match y.result with
  | .ok a => f a
  | .error e => ⟨[], .error e⟩

theorem after_of_ok {y : Traced ε α} {a : α} (h : y.result = .ok a) (f : α → Traced ε β) : after y f = f a := by
  rw [after, h]

theorem bind_eq_after (y : Traced ε α) (f : α → Traced ε β) :
    y >>= f = ⟨y.calls ++ (after y f).calls, (after y f).result⟩ := by
  rw [after]
  cases hy : y.result with
  | ok a => rw [Traced.bind_of_ok hy]
  | error e => rw [Traced.bind_of_error hy, List.append_nil]

section Bind

variable {x : Traced ε (List α)} {y : Traced ε (List β)} {alone : Fin n → Traced ε α} {later : Fin n → Traced ε β}
  {next : Fin n → α → Traced ε β} {c : Call} {e : ε} {j : Fin n} {done left before : List Call}

theorem Whole.append (h : Whole lo ms x alone) (h' : Whole lo ms' y later) :
    Whole lo (ms ++ ms') ⟨x.calls ++ y.calls, y.result⟩
      fun k ↦ ⟨(alone k).calls ++ (later k).calls, (later k).result⟩ := by
  refine ⟨h'.result, h.order.append h'.order, ?_⟩
  intro k
  rw [only_append, h.calls k, h'.calls k]

theorem Whole.append_broken (h : Whole lo ms x alone) (h' : Broken lo done left before c j e y later) :
    Broken lo (ms ++ done) left (x.calls ++ before) c j e ⟨x.calls ++ y.calls, y.result⟩
      fun k ↦ ⟨(alone k).calls ++ (later k).calls, (later k).result⟩ := by
  refine ⟨h'.result, by rw [h'.calls, List.append_assoc], h.order.append h'.order, h'.visitor, h'.raised, ?_, ?_⟩
  · rw [only_append, h.calls j, h'.made]
  · intro k hk
    obtain ⟨rest, hcalls, horder, hfails⟩ := h'.others k hk
    refine ⟨rest, ?_, horder, hfails⟩
    rw [only_append, h.calls k, hcalls, List.append_assoc]

/-- Where the shared run breaks off, the other visitors have all of the second run still before them. -/
theorem Broken.append (h : Broken lo done left before c j e x alone)
    (hnext : ∀ (k : Fin n) a, Fits ms' (lo + k) (next k a)) :
    Broken lo done (left ++ ms') before c j e ⟨x.calls, .error e⟩
      fun k ↦ ⟨(alone k).calls ++ (after (alone k) (next k)).calls, (after (alone k) (next k)).result⟩ := by
  have hdead : after (alone j) (next j) = ⟨[], .error e⟩ := by
    rw [after, h.raised]
  refine ⟨rfl, h.calls, h.order, h.visitor, by rw [hdead], ?_, ?_⟩
  · rw [hdead, h.made, List.append_nil]
  · intro k hk
    obtain ⟨rest, hcalls, horder, hfails⟩ := h.others k hk
    refine ⟨rest ++ (after (alone k) (next k)).calls, ?_, ?_, ?_⟩
    · rw [hcalls, List.append_assoc]
    · rw [only_append]
      refine horder.append ?_
      rw [after]
      split
      · exact (hnext k _).order
      · exact List.nil_sublist _
    · intro e' he' hnil
      obtain ⟨hrest, hafter⟩ := List.append_eq_nil_iff.1 hnil
      cases hk' : (alone k).result with
      | error e'' => exact hfails e'' hk' hrest
      | ok a =>
        rw [after_of_ok hk'] at he' hafter
        exact (hnext k a).called e' he' hafter

/-- Two shared runs, one after the other. -/
theorem Joins.bind {f : List α → Traced ε (List β)} (h : Joins lo ms x alone)
    (hnext : ∀ (k : Fin n) a, Fits ms' (lo + k) (next k a))
    (hf : ∀ as (hlength : as.length = n), Joins lo ms' (f as) fun k : Fin n ↦ next k (as.get (k.cast hlength.symm))) :
    Joins lo (ms ++ ms') (x >>= f) fun k ↦ alone k >>= next k := by
  simp only [bind_eq_after (alone _)]
  cases h with
  | whole h =>
    obtain ⟨as, has, hlength, heach⟩ := h.result
    rw [Traced.bind_of_ok has]
    have hnextAll : (fun k ↦ after (alone k) (next k)) = fun k : Fin n ↦ next k (as.get (k.cast hlength.symm)) :=
      funext fun k ↦ after_of_ok (heach k _ (List.getElem?_eq_getElem (hlength ▸ k.isLt))) _
    have hrest := hf as hlength
    rw [← hnextAll] at hrest
    cases hrest with
    | whole h' => exact .whole (h.append h')
    | broken done left before c j e hms h' =>
      exact .broken (ms ++ done) left (x.calls ++ before) c j e (by rw [hms, List.append_assoc]) (h.append_broken h')
  | broken done left before c j e hms h =>
    rw [Traced.bind_of_error h.result]
    exact .broken done (left ++ ms') before c j e (by rw [hms, List.append_assoc]) (h.append hnext)

end Bind

theorem Joins.map {x : Traced ε (List α)} {alone : Fin n → Traced ε α} (h : Joins lo ms x alone) (f : α → β) :
    Joins lo ms (List.map f <$> x) fun k ↦ f <$> alone k := by
  have hboth : Joins lo (ms ++ []) (x >>= fun as ↦ pure (as.map f)) fun k ↦ alone k >>= fun a ↦ pure (f a) := by
    refine h.bind (fun k a ↦ .pure (f a)) fun as hlength ↦ ?_
    refine .whole ⟨⟨as.map f, rfl, by rw [List.length_map, hlength], ?_⟩, List.nil_sublist _, fun k ↦ rfl⟩
    intro k b hb
    rw [List.getElem?_map, List.getElem?_eq_getElem (hlength ▸ k.isLt)] at hb
    exact congrArg Except.ok (Option.some.inj hb)
  simp only [bind_pure_comp, List.append_nil] at hboth
  exact hboth

/-- The call `c` is the last one of a visitor that fails with `e` where it has the tree for itself. -/
def Breaks (alone : Fin n → Traced ε α) (c : Call) (e : ε) : Prop :=
  ∃ k : Fin n, c.visitor = k ∧ (alone k).result = .error e ∧ (alone k).calls.getLast? = some c

theorem exists_merge (left : List Call) (rests : Nat → List Call) (h : ∀ i, (rests i).Sublist (only i left)) :
    ∃ merged : List Call, merged.Sublist left ∧ ∀ i, only i merged = rests i := by
  induction left generalizing rests with
  | nil => exact ⟨[], .slnil, fun i ↦ (List.sublist_nil.1 (h i)).symm⟩
  | cons c left ih =>
    have hown := h c.visitor
    rw [only_cons_same rfl] at hown
    rcases List.sublist_cons_iff.1 hown with hskipped | ⟨rest, hrest, htaken⟩
    · obtain ⟨merged, horder, hmerged⟩ := ih rests fun i ↦ by
        by_cases hi : c.visitor = i
        · rw [← hi]
          exact hskipped
        · have hother := h i
          rwa [only_cons_other hi] at hother
      exact ⟨merged, horder.cons c, hmerged⟩
    · obtain ⟨merged, horder, hmerged⟩ := ih (Function.update rests c.visitor rest) fun i ↦ by
        by_cases hi : c.visitor = i
        · rw [← hi, Function.update_self]
          exact htaken
        · have hother := h i
          rw [only_cons_other hi] at hother
          rwa [Function.update_of_ne (Ne.symm hi)]
      refine ⟨c :: merged, horder.cons_cons c, fun i ↦ ?_⟩
      by_cases hi : c.visitor = i
      · rw [only_cons_same hi, hmerged i, ← hi, Function.update_self, hrest]
      · rw [only_cons_other hi, hmerged i, Function.update_of_ne (Ne.symm hi)]

theorem Broken.exists_rest {done left before : List Call} {c : Call} {j : Fin n} {e : ε} {x : Traced ε (List α)}
    {alone : Fin n → Traced ε α} (h : Broken 0 done left before c j e x alone) (i : Nat) :
    ∃ rest : List Call, rest.Sublist (only i left) ∧ ∀ k : Fin n, k.val = i →
      (alone k).calls = only k x.calls ++ rest ∧ (k ≠ j → ∀ e', (alone k).result = .error e' → rest ≠ []) := by
  by_cases hi : ∃ k : Fin n, k.val = i ∧ k ≠ j
  · obtain ⟨k, rfl, hk⟩ := hi
    obtain ⟨rest, hcalls, horder, hfails⟩ := h.others k hk
    rw [Nat.zero_add] at hcalls horder
    refine ⟨rest, horder, fun k' hk' ↦ ?_⟩
    rw [Fin.ext hk']
    exact ⟨hcalls, fun _ ↦ hfails⟩
  · refine ⟨[], List.nil_sublist _, fun k hk ↦ ?_⟩
    have hkj : k = j := by
      by_contra hne
      exact hi ⟨k, hk, hne⟩
    refine ⟨?_, fun hne ↦ absurd hkj hne⟩
    rw [hkj, h.made, Nat.zero_add, List.append_nil]

/-- There is one order of all that the visitors do alone, and the shared run is this, up to the first call that
fails. -/
theorem Joins.exists_order {x : Traced ε (List α)} {alone : Fin n → Traced ε α} (h : Joins 0 ms x alone)
    (hms : ms.Nodup) :
    ∃ order : List Call, order.Sublist ms ∧ (∀ k : Fin n, only k order = (alone k).calls) ∧
      match x.result with
      | .ok as => x.calls = order ∧ as.length = n ∧ ∀ (k : Fin n) a, as[k.val]? = some a → (alone k).result = .ok a
      | .error e => ∃ before c after, order = before ++ c :: after ∧ x.calls = before ++ [c] ∧ Breaks alone c e ∧
          ∀ d ∈ before, ∀ e', ¬Breaks alone d e' := by
  cases h with
  | whole h =>
    obtain ⟨as, has, hlength, heach⟩ := h.result
    refine ⟨x.calls, h.order, ?_, ?_⟩
    · intro k
      rw [← h.calls k, Nat.zero_add]
    · rw [has]
      exact ⟨rfl, hlength, heach⟩
  | broken done left before c j e hsplit h =>
    rw [hsplit] at hms
    obtain ⟨-, -, hdisjoint⟩ := List.nodup_append'.1 hms
    choose rests hrests halone using h.exists_rest
    obtain ⟨merged, hmerged, honly⟩ := exists_merge left rests hrests
    refine ⟨x.calls ++ merged, ?_, ?_, ?_⟩
    · rw [hsplit]
      exact h.order.append hmerged
    · intro k
      rw [only_append, honly, (halone k k rfl).1]
    · have hvisitor : c.visitor = j := by rw [h.visitor, Nat.zero_add]
      have hlast : (alone j).calls = only j before ++ [c] := by
        rw [h.made, Nat.zero_add, h.calls, only_append, only_cons_same hvisitor]
        rfl
      rw [h.result]
      refine ⟨before, c, merged, by rw [h.calls, List.append_assoc]; rfl, h.calls, ⟨j, hvisitor, h.raised, ?_⟩, ?_⟩
      · rw [hlast, List.getLast?_concat]
      · rintro d hd e' ⟨k, hk, hraised, hend⟩
        have hdone : d ∈ done := h.order.subset (by rw [h.calls]; exact List.mem_append_left _ hd)
        by_cases hkj : k = j
        · rw [hkj, hlast, List.getLast?_concat] at hend
          have hnodup := h.order.nodup (List.nodup_append'.1 hms).1
          rw [h.calls, List.nodup_append'] at hnodup
          exact hnodup.2.2 hd (by rw [Option.some.inj hend]; exact List.mem_singleton_self d)
        · rw [(halone k k rfl).1, List.getLast?_append_of_ne_nil _ ((halone k k rfl).2 hkj e' hraised)] at hend
          have hleft : d ∈ left := List.mem_of_mem_filter ((hrests k).subset (List.mem_of_getLast? hend))
          exact hdisjoint hdone hleft

end Walk

end PolymerAnalysis
