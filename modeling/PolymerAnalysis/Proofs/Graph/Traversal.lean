import PolymerAnalysis.Proofs.Graph.Locals
import Mathlib.Data.Nat.Find
import Mathlib.Order.Bounds.Basic

namespace PolymerAnalysis.Graph

open Relation

/-- A search under way: the files that were taken, those that wait, and the documents given so far. -/
structure Search where
  seen : List DocId := []
  queue : List DocId
  given : List DocId := []

/-- Takes one file from the queue. When it is new, its documents are given, and what they import goes to the end of
the queue. -/
def round (g : Graph) (s : Search) : Search :=
  match s.queue with
  | [] => s
  | i :: queue =>
    if i ∈ s.seen then { s with queue }
    else ⟨i :: s.seen, queue ++ (g.locals i).flatMap g.importsOf, s.given ++ g.locals i⟩

inductive Steps (g : Graph) (r : DocId) : Nat → DocId → Prop
  | zero : Steps g r 0 r
  | succ {n : Nat} {j k : DocId} : Steps g r n j → g.Imports j k → Steps g r (n + 1) k

def Apart (g : Graph) (r : DocId) (n : Nat) (j : DocId) : Prop := IsLeast {n | g.Steps r n j} n

def ImportsFiles (g : Graph) : Prop := ∀ d ∈ g.documents, ∀ j ∈ d.imports, j < g.size ∧ g.container? j = none

instance (g : Graph) : Decidable g.ImportsFiles :=
  inferInstanceAs (Decidable (∀ d ∈ g.documents, ∀ j ∈ d.imports, j < g.size ∧ g.container? j = none))

variable {g : Graph} {i j k r : DocId} {m n : Nat} {unseen queue : List DocId}

theorem mem_imports : j ∈ (g.locals i).flatMap g.importsOf ↔ g.Imports i j := List.mem_flatMap

theorem ImportsFiles.of_mem (h : g.ImportsFiles) (hj : j ∈ g.importsOf i) : j < g.size ∧ g.container? j = none := by
  rw [importsOf] at hj
  cases hd : g.document? i with
  | none =>
    rw [hd] at hj
    cases hj
  | some d =>
    rw [hd] at hj
    exact h d (List.mem_of_getElem? hd) j hj

theorem ImportsFiles.of_imports (h : g.ImportsFiles) (hj : g.Imports i j) : j < g.size ∧ g.container? j = none := by
  obtain ⟨k, -, hj⟩ := hj
  exact h.of_mem hj

theorem Steps.eq_of_zero (h : g.Steps r 0 j) : j = r := by
  cases h
  rfl

theorem exists_steps_iff : (∃ n, g.Steps r n j) ↔ ReflTransGen g.Imports r j := by
  constructor
  · rintro ⟨n, h⟩
    induction h with
    | zero => exact .refl
    | succ _ hstep ih => exact ih.tail hstep
  · intro h
    induction h with
    | refl => exact ⟨0, .zero⟩
    | tail _ hstep ih =>
      obtain ⟨n, h⟩ := ih
      exact ⟨n + 1, h.succ hstep⟩

theorem exists_apart (h : g.Steps r n j) : ∃ m ≤ n, g.Apart r m j := by
  classical
  have hex : ∃ n, g.Steps r n j := ⟨n, h⟩
  exact ⟨Nat.find hex, Nat.find_min' hex h, Nat.find_spec hex, fun _ hm ↦ Nat.find_min' hex hm⟩

theorem Steps.isFile (h : g.Steps r n j) (hfiles : g.ImportsFiles) (hr : r < g.size ∧ g.container? r = none) :
    j < g.size ∧ g.container? j = none := by
  cases h with
  | zero => exact hr
  | succ _ hstep => exact hfiles.of_imports hstep

section Rounds

theorem round_of_mem {s : Search} (hs : s.queue = i :: queue) (hi : i ∈ s.seen) : g.round s = { s with queue } := by
  rw [round, hs]
  exact if_pos hi

theorem round_of_not_mem {s : Search} (hs : s.queue = i :: queue) (hi : i ∉ s.seen) :
    g.round s = ⟨i :: s.seen, queue ++ (g.locals i).flatMap g.importsOf, s.given ++ g.locals i⟩ := by
  rw [round, hs]
  exact if_neg hi

def weight (g : Graph) (order : List DocId) : Nat := (order.flatMap g.importsOf).length

/-- Every round takes one file from the queue, so their number is that of all files that ever wait. -/
theorem iterate_round (hfiles : g.ImportsFiles) (hnodup : unseen.Nodup) (s : Search)
    (hqueue : ∀ j ∈ s.queue, j < g.size) (hseen : ∀ j < g.size, j ∈ unseen ↔ j ∉ s.seen) :
    ∃ seen, g.round^[s.queue.length + g.weight (g.breadthFirst unseen s.queue)] s =
      ⟨seen, [], s.given ++ g.breadthFirst unseen s.queue⟩ := by
  obtain ⟨seen, queue, given⟩ := s
  dsimp only at hqueue hseen ⊢
  fun_induction breadthFirst g unseen queue generalizing seen given with
  | case1 => exact ⟨seen, by simp [weight]⟩
  | case2 unseen i queue hi ih =>
    have hi' : i ∉ seen := (hseen i (hqueue i List.mem_cons_self)).1 hi
    have hqueue' : ∀ j ∈ queue ++ (g.locals i).flatMap g.importsOf, j < g.size := by
      intro j hj
      rcases List.mem_append.1 hj with hj | hj
      · exact hqueue j (List.mem_cons_of_mem i hj)
      · exact (hfiles.of_imports (mem_imports.1 hj)).1
    have hseen' : ∀ j < g.size, j ∈ unseen.erase i ↔ j ∉ i :: seen := by
      intro j hj
      rw [hnodup.mem_erase_iff, hseen j hj, List.mem_cons, not_or]
    obtain ⟨seen', hrest⟩ := ih (hnodup.erase i) (i :: seen) (given ++ g.locals i) hqueue' hseen'
    refine ⟨seen', ?_⟩
    have hlength : (i :: queue).length + g.weight (g.locals i ++ g.breadthFirst (unseen.erase i)
          (queue ++ (g.locals i).flatMap g.importsOf)) =
        (queue ++ (g.locals i).flatMap g.importsOf).length +
          g.weight (g.breadthFirst (unseen.erase i) (queue ++ (g.locals i).flatMap g.importsOf)) + 1 := by
      simp only [weight, List.flatMap_append, List.length_append, List.length_cons]
      omega
    rw [hlength, Function.iterate_succ_apply, round_of_not_mem rfl hi', hrest, List.append_assoc]
  | case3 unseen i queue hi ih =>
    have hi' : i ∈ seen := by
      by_contra hi'
      exact hi ((hseen i (hqueue i List.mem_cons_self)).2 hi')
    obtain ⟨seen', hrest⟩ := ih hnodup seen given (fun j hj ↦ hqueue j (List.mem_cons_of_mem i hj)) hseen
    refine ⟨seen', ?_⟩
    rw [List.length_cons, Nat.add_right_comm, Function.iterate_succ_apply, round_of_mem rfl hi', hrest]

end Rounds

/-- The files that wait, each with the number of imports along which it was met, while those that are not `unseen`
have been taken. -/
structure Frontier (g : Graph) (r : DocId) (unseen : List DocId) (queue : List (DocId × Nat)) : Prop where
  sorted : queue.Pairwise (·.2 ≤ ·.2)
  close : ∀ x ∈ queue, ∀ y ∈ queue, y.2 ≤ x.2 + 1
  steps : ∀ x ∈ queue, g.Steps r x.2 x.1
  start : r ∈ unseen → (r, 0) ∈ queue
  taken : ∀ j n, j ∉ unseen → g.Apart r n j → ∀ k ∈ unseen, g.Imports j k → (k, n + 1) ∈ queue

/-- Files with their distances, the nearest first; they are all those of `unseen` that can be reached. -/
structure Sorted (g : Graph) (r : DocId) (unseen : List DocId) (files : List (DocId × Nat)) : Prop where
  nodup : (files.map (·.1)).Nodup
  apart : ∀ x ∈ files, x.1 ∈ unseen ∧ g.Apart r x.2 x.1
  sorted : files.Pairwise (·.2 ≤ ·.2)
  complete : ∀ j ∈ unseen, ∀ n, g.Steps r n j → j ∈ files.map (·.1)

namespace Frontier

variable {queue : List (DocId × Nat)}

theorem initial (hids : ∀ n j, g.Steps r n j → j ∈ g.ids) : g.Frontier r g.ids [(r, 0)] where
  sorted := List.pairwise_singleton _ _
  close x hx y hy := by
    cases List.mem_singleton.1 hx
    cases List.mem_singleton.1 hy
    exact Nat.le_succ 0
  steps x hx := by
    cases List.mem_singleton.1 hx
    exact .zero
  start _ := List.mem_singleton.2 rfl
  taken j n hj h := absurd (hids n j h.1) hj

/-- A file that was not taken is at least as far away as some file that waits. -/
theorem exists_nearer (h : g.Frontier r unseen queue) (hj : j ∈ unseen) (hsteps : g.Steps r n j) :
    ∃ x ∈ queue, x.2 ≤ n := by
  induction hsteps with
  | zero => exact ⟨(r, 0), h.start hj, le_rfl⟩
  | @succ n j k hsteps hstep ih =>
    by_cases hseen : j ∈ unseen
    · obtain ⟨x, hx, hle⟩ := ih hseen
      exact ⟨x, hx, hle.trans (Nat.le_succ n)⟩
    · obtain ⟨m, hle, hm⟩ := exists_apart hsteps
      exact ⟨(k, m + 1), h.taken j m hseen hm k hj hstep, Nat.succ_le_succ hle⟩

theorem head_le (h : g.Frontier r unseen ((i, m) :: queue)) (hj : j ∈ unseen) (hsteps : g.Steps r n j) : m ≤ n := by
  obtain ⟨x, hx, hle⟩ := h.exists_nearer hj hsteps
  rcases List.mem_cons.1 hx with rfl | hx
  · exact hle
  · exact ((List.pairwise_cons.1 h.sorted).1 x hx).trans hle

theorem apart_head (h : g.Frontier r unseen ((i, m) :: queue)) (hi : i ∈ unseen) : g.Apart r m i :=
  ⟨h.steps (i, m) List.mem_cons_self, fun _ hsteps ↦ h.head_le hi hsteps⟩

theorem skip (h : g.Frontier r unseen ((i, m) :: queue)) (hi : i ∉ unseen) : g.Frontier r unseen queue where
  sorted := (List.pairwise_cons.1 h.sorted).2
  close x hx y hy := h.close x (List.mem_cons_of_mem _ hx) y (List.mem_cons_of_mem _ hy)
  steps x hx := h.steps x (List.mem_cons_of_mem _ hx)
  start hr := (List.mem_cons.1 (h.start hr)).resolve_left fun he ↦ by
    cases he
    exact hi hr
  taken j n hj hn k hk hstep := (List.mem_cons.1 (h.taken j n hj hn k hk hstep)).resolve_left fun he ↦ by
    cases he
    exact hi hk

theorem take (h : g.Frontier r unseen ((i, m) :: queue)) (hi : i ∈ unseen) (hnodup : unseen.Nodup) :
    g.Frontier r (unseen.erase i) (queue ++ ((g.locals i).flatMap g.importsOf).map (·, m + 1)) where
  sorted := by
    refine List.pairwise_append.2 ⟨(List.pairwise_cons.1 h.sorted).2, ?_, fun x hx y hy ↦ ?_⟩
    · exact List.pairwise_map.2 (List.pairwise_of_forall fun _ _ ↦ le_rfl)
    · obtain ⟨k, -, rfl⟩ := List.mem_map.1 hy
      exact h.close (i, m) List.mem_cons_self x (List.mem_cons_of_mem _ hx)
  close x hx y hy := by
    have hlow : m ≤ x.2 := by
      rcases List.mem_append.1 hx with hx | hx
      · exact (List.pairwise_cons.1 h.sorted).1 x hx
      · obtain ⟨k, -, rfl⟩ := List.mem_map.1 hx
        exact Nat.le_succ m
    have hhigh : y.2 ≤ m + 1 := by
      rcases List.mem_append.1 hy with hy | hy
      · exact h.close (i, m) List.mem_cons_self y (List.mem_cons_of_mem _ hy)
      · obtain ⟨k, -, rfl⟩ := List.mem_map.1 hy
        exact le_rfl
    exact hhigh.trans (Nat.succ_le_succ hlow)
  steps x hx := by
    rcases List.mem_append.1 hx with hx | hx
    · exact h.steps x (List.mem_cons_of_mem _ hx)
    · obtain ⟨k, hk, rfl⟩ := List.mem_map.1 hx
      exact (h.steps (i, m) List.mem_cons_self).succ (mem_imports.1 hk)
  start hr := by
    obtain ⟨hne, hr⟩ := hnodup.mem_erase_iff.1 hr
    exact List.mem_append_left _ ((List.mem_cons.1 (h.start hr)).resolve_left fun he ↦ hne (congrArg Prod.fst he))
  taken j n hj hn k hk hstep := by
    obtain ⟨hne, hk⟩ := hnodup.mem_erase_iff.1 hk
    by_cases hji : j = i
    · subst hji
      cases hn.unique (h.apart_head hi)
      exact List.mem_append_right _ (List.mem_map.2 ⟨k, mem_imports.2 hstep, rfl⟩)
    · have hold : j ∉ unseen := fun hold ↦ hj (hnodup.mem_erase_iff.2 ⟨hji, hold⟩)
      have hqueued := List.mem_cons.1 (h.taken j n hold hn k hk hstep)
      exact List.mem_append_left _ (hqueued.resolve_left fun he ↦ hne (congrArg Prod.fst he))

end Frontier

theorem breadthFirst_sorted (queue : List (DocId × Nat)) (hnodup : unseen.Nodup) (h : g.Frontier r unseen queue) :
    ∃ files, g.breadthFirst unseen (queue.map (·.1)) = (files.map (·.1)).flatMap g.locals ∧
      g.Sorted r unseen files := by
  generalize hq : queue.map (·.1) = waiting
  fun_induction breadthFirst g unseen waiting generalizing queue with
  | case1 unseen =>
    cases List.map_eq_nil_iff.1 hq
    refine ⟨[], rfl, List.nodup_nil, by simp, .nil, fun j hj n hsteps ↦ ?_⟩
    obtain ⟨x, hx, -⟩ := h.exists_nearer hj hsteps
    cases hx
  | case2 unseen i waiting hi ih =>
    obtain ⟨⟨j, m⟩, rest, rfl, hj, rfl⟩ := List.map_eq_cons_iff.1 hq
    cases hj
    obtain ⟨files, horder, hsorted⟩ := ih _ (hnodup.erase j) (h.take hi hnodup) (by simp [Function.comp_def])
    have hlater : ∀ x ∈ files, x.1 ≠ j ∧ x.1 ∈ unseen ∧ g.Apart r x.2 x.1 := by
      intro x hx
      obtain ⟨hx, hapart⟩ := hsorted.apart x hx
      obtain ⟨hne, hx⟩ := hnodup.mem_erase_iff.1 hx
      exact ⟨hne, hx, hapart⟩
    refine ⟨(j, m) :: files, by rw [horder, List.map_cons, List.flatMap_cons], ?_, ?_, ?_, ?_⟩
    · refine List.nodup_cons.2 ⟨fun hmem ↦ ?_, hsorted.nodup⟩
      obtain ⟨x, hx, he⟩ := List.mem_map.1 hmem
      exact (hlater x hx).1 he
    · intro x hx
      rcases List.mem_cons.1 hx with rfl | hx
      · exact ⟨hi, h.apart_head hi⟩
      · exact (hlater x hx).2
    · exact List.pairwise_cons.2 ⟨fun x hx ↦ h.head_le (hlater x hx).2.1 (hlater x hx).2.2.1, hsorted.sorted⟩
    · intro k hk n hsteps
      by_cases hkj : k = j
      · exact hkj ▸ List.mem_cons_self
      · exact List.mem_cons_of_mem _ (hsorted.complete k (hnodup.mem_erase_iff.2 ⟨hkj, hk⟩) n hsteps)
  | case3 unseen i waiting hi ih =>
    obtain ⟨⟨j, m⟩, rest, rfl, hj, rfl⟩ := List.map_eq_cons_iff.1 hq
    cases hj
    exact ih rest hnodup (h.skip hi) rfl

/-- `order` gives the documents that can be reached from document `i`, file by file: each file with the documents in
it, depth first, and the nearest files first. -/
structure NearestFirst (g : Graph) (i : DocId) (files order : List DocId) : Prop where
  blocks : order = files.flatMap g.locals
  depthFirst : ∀ j, g.locals j = j :: (g.inlines j).flatMap g.locals
  reached : ∀ j, j ∈ files ↔ ReflTransGen g.Imports (g.root i) j
  documents : ∀ k, k ∈ order ↔ ∃ j, ReflTransGen g.Imports (g.root i) j ∧ g.LiesIn k j
  once : order.Nodup
  nearest : files.Pairwise fun j k ↦ ∀ m n, g.Apart (g.root i) m j → g.Apart (g.root i) n k → m ≤ n

/-- What a search for a kind and a name finds from document `i` is the first feature in `order` that answers, so
that a definition in the file of `i` comes before imported ones, and one in a nearer file before one farther away. -/
structure FindsFirst (g : Graph) (i : DocId) (order : List DocId) (kind name : Text) : Prop where
  first : ∀ f, g.find? i kind name true = some f ↔ g.answers f kind name = true ∧
    ∃ before after, order.flatMap g.featureIds = before ++ f :: after ∧ ∀ t ∈ before, g.answers t kind name = false
  own : ∀ t, g.answers t kind name = true → g.LiesIn t.owner (g.root i) →
    ∃ f, g.find? i kind name true = some f ∧ g.LiesIn f.owner (g.root i)
  nearer : ∀ t, g.answers t kind name = true → ∀ n, g.Apart (g.root i) n (g.root t.owner) →
    ∃ f m, g.find? i kind name true = some f ∧ g.Apart (g.root i) m (g.root f.owner) ∧ m ≤ n

theorem root_isFile (hi : i < g.size) : g.root i < g.size ∧ g.container? (g.root i) = none :=
  ⟨(g.liesIn_root i).le.trans_lt hi, g.container?_root i⟩

theorem exists_nearestFirst (hfiles : g.ImportsFiles) (hi : i < g.size) :
    ∃ files, g.NearestFirst i files (g.reachable i true) := by
  have hroot := root_isFile hi
  have hids : ∀ n j, g.Steps (g.root i) n j → j ∈ g.ids :=
    fun n j hsteps ↦ mem_ids.2 (hsteps.isFile hfiles hroot).1
  have hnodup : g.ids.Nodup := List.nodup_range
  obtain ⟨files, horder, hsorted⟩ := breadthFirst_sorted [(g.root i, 0)] hnodup (Frontier.initial hids)
  have hblocks : g.reachable i true = (files.map (·.1)).flatMap g.locals := by
    rw [reachable, if_pos rfl, ← horder]
    rfl
  have hmem : ∀ j, j ∈ files.map (·.1) ↔ ReflTransGen g.Imports (g.root i) j := by
    intro j
    rw [← exists_steps_iff]
    constructor
    · intro hj
      obtain ⟨x, hx, rfl⟩ := List.mem_map.1 hj
      exact ⟨x.2, (hsorted.apart x hx).2.1⟩
    · rintro ⟨n, hsteps⟩
      exact hsorted.complete j (hids n j hsteps) n hsteps
  have hfile : ∀ j ∈ files.map (·.1), g.container? j = none := by
    intro j hj
    obtain ⟨n, hsteps⟩ := exists_steps_iff.2 ((hmem j).1 hj)
    exact (hsteps.isFile hfiles hroot).2
  refine ⟨files.map (·.1), ⟨hblocks, g.locals_eq, hmem, fun k ↦ ?_, ?_, ?_⟩⟩
  · rw [hblocks, List.mem_flatMap]
    exact exists_congr fun j ↦ and_congr (hmem j) mem_locals
  · rw [hblocks]
    refine List.nodup_flatMap.2 ⟨fun j _ ↦ g.nodup_locals j, hsorted.nodup.imp_of_mem ?_⟩
    intro j k hj hk hne m hm hm'
    exact hne (eq_of_liesIn (hfile j hj) (hfile k hk) (mem_locals.1 hm) (mem_locals.1 hm'))
  · refine List.pairwise_map.2 (hsorted.sorted.imp_of_mem ?_)
    intro x y hx hy hle m n hm hn
    rw [hm.unique (hsorted.apart x hx).2, hn.unique (hsorted.apart y hy).2]
    exact hle

theorem mem_featureIds_of_answers {t : FeatureId} {kind name : Text} (h : g.answers t kind name = true) :
    t ∈ g.featureIds t.owner := by
  obtain ⟨owner, index⟩ := t
  rw [answers, feature?] at h
  cases hd : g.document? owner with
  | none => simp [hd] at h
  | some d =>
    refine List.mem_map.2 ⟨index, List.mem_range.2 ?_, rfl⟩
    by_contra hlong
    have hnone : d.features[index]? = none := List.getElem?_eq_none (by simpa [hd] using hlong)
    simp [hd, hnone] at h

theorem apart_root (g : Graph) (r : DocId) : g.Apart r 0 r := ⟨.zero, fun n _ ↦ n.zero_le⟩

theorem find?_eq_some_iff {f : FeatureId} {kind name : Text} :
    g.find? i kind name true = some f ↔ g.answers f kind name = true ∧
      ∃ before after, (g.reachable i true).flatMap g.featureIds = before ++ f :: after ∧
        ∀ t ∈ before, g.answers t kind name = false := by
  simp only [find?, List.find?_eq_some_iff_append, Bool.not_eq_true']

namespace NearestFirst

variable {files order : List DocId} {kind name : Text} {s t : FeatureId}

theorem root_eq (hfile : ∀ j ∈ files, g.container? j = none) (hj : j ∈ files)
    (ht : t ∈ (g.locals j).flatMap g.featureIds) : g.root t.owner = j := by
  obtain ⟨k, hk, ht⟩ := List.mem_flatMap.1 ht
  rw [(mem_featureIds ht).1, (mem_locals.1 hk).root_eq, root_of_container?_eq_none (hfile j hj)]

theorem isFile (h : g.NearestFirst i files order) (hfiles : g.ImportsFiles) (hi : i < g.size) :
    ∀ j ∈ files, g.container? j = none := by
  intro j hj
  obtain ⟨n, hsteps⟩ := exists_steps_iff.2 ((h.reached j).1 hj)
  exact (hsteps.isFile hfiles (root_isFile hi)).2

/-- Features come in the order of the distances of their files. -/
theorem features_sorted (h : g.NearestFirst i files order) (hfile : ∀ j ∈ files, g.container? j = none) :
    (order.flatMap g.featureIds).Pairwise fun s t ↦
      ∀ m n, g.Apart (g.root i) m (g.root s.owner) → g.Apart (g.root i) n (g.root t.owner) → m ≤ n := by
  rw [h.blocks, List.flatMap_assoc]
  refine List.pairwise_flatMap.2 ⟨fun j hj ↦ ?_, h.nearest.imp_of_mem ?_⟩
  · refine List.pairwise_of_forall_mem_list fun s hs t ht m n hm hn ↦ ?_
    rw [root_eq hfile hj hs] at hm
    rw [root_eq hfile hj ht] at hn
    exact (hm.unique hn).le
  · intro j k hj hk hle s hs t ht m n hm hn
    rw [root_eq hfile hj hs] at hm
    rw [root_eq hfile hk ht] at hn
    exact hle m n hm hn

theorem mem_features (h : g.NearestFirst i files order) (ht : g.answers t kind name = true)
    (hreach : ReflTransGen g.Imports (g.root i) (g.root t.owner)) : t ∈ order.flatMap g.featureIds :=
  List.mem_flatMap.2 ⟨t.owner, (h.documents t.owner).2 ⟨g.root t.owner, hreach, g.liesIn_root t.owner⟩,
    mem_featureIds_of_answers ht⟩

/-- The document of a feature lies in a file at some distance. -/
theorem exists_apart_of_mem (h : g.NearestFirst i files order) (hfiles : g.ImportsFiles) (hi : i < g.size)
    (hs : s ∈ order.flatMap g.featureIds) : ∃ m, g.Apart (g.root i) m (g.root s.owner) := by
  obtain ⟨k, hk, hs⟩ := List.mem_flatMap.1 hs
  obtain ⟨j, hreach, hlies⟩ := (h.documents k).1 hk
  have hroot : g.root s.owner = j := by
    rw [(mem_featureIds hs).1, hlies.root_eq,
      root_of_container?_eq_none (h.isFile hfiles hi j ((h.reached j).2 hreach))]
  obtain ⟨n, hsteps⟩ := exists_steps_iff.2 hreach
  obtain ⟨m, -, hm⟩ := exists_apart hsteps
  exact ⟨m, hroot ▸ hm⟩

theorem exists_nearer (h : g.NearestFirst i files (g.reachable i true)) (hfiles : g.ImportsFiles) (hi : i < g.size)
    (ht : g.answers t kind name = true) {n : Nat} (hn : g.Apart (g.root i) n (g.root t.owner)) :
    ∃ f m, g.find? i kind name true = some f ∧ g.Apart (g.root i) m (g.root f.owner) ∧ m ≤ n := by
  have hmem := h.mem_features ht (exists_steps_iff.1 ⟨n, hn.1⟩)
  obtain ⟨f, hf⟩ : ∃ f, g.find? i kind name true = some f :=
    Option.isSome_iff_exists.1 (List.find?_isSome.2 ⟨t, hmem, ht⟩)
  obtain ⟨-, before, after, hsplit, hbefore⟩ := find?_eq_some_iff.1 hf
  have hsorted := h.features_sorted (h.isFile hfiles hi)
  rw [hsplit] at hmem hsorted
  rcases List.mem_append.1 hmem with hmem | hmem
  · rw [hbefore t hmem] at ht
    cases ht
  rcases List.mem_cons.1 hmem with rfl | hmem
  · exact ⟨t, n, hf, hn, le_rfl⟩
  · obtain ⟨m, hm⟩ := h.exists_apart_of_mem hfiles hi (hsplit ▸ List.mem_append_right before List.mem_cons_self)
    exact ⟨f, m, hf, hm, (List.pairwise_cons.1 (List.pairwise_append.1 hsorted).2.1).1 t hmem m n hm hn⟩

end NearestFirst

theorem findsFirst {files : List DocId} (h : g.NearestFirst i files (g.reachable i true)) (hfiles : g.ImportsFiles)
    (hi : i < g.size) (kind name : Text) : g.FindsFirst i (g.reachable i true) kind name where
  first _ := find?_eq_some_iff
  own t ht hlies := by
    have hroot : g.root t.owner = g.root i := by
      rw [hlies.root_eq, root_of_container?_eq_none (g.container?_root i)]
    have hhere : g.Apart (g.root i) 0 (g.root t.owner) := hroot ▸ g.apart_root (g.root i)
    obtain ⟨f, m, hf, hm, hle⟩ := h.exists_nearer hfiles hi ht hhere
    cases Nat.le_zero.1 hle
    have hsame : g.root f.owner = g.root i := hm.1.eq_of_zero
    exact ⟨f, hf, hsame ▸ g.liesIn_root f.owner⟩
  nearer t ht n hn := h.exists_nearer hfiles hi ht hn

/-- The search for documents ends, after one round for every file that ever waits in its queue, and has then given
the documents in the order of their distance; what lookups find is the first in that order. -/
theorem traversal_nearest_first (g : Graph) (hfiles : g.ImportsFiles) (i : DocId) (hi : i < g.size) :
    (∃ seen, g.round^[1 + g.weight (g.reachable i true)] { queue := [g.root i] } =
      ⟨seen, [], g.reachable i true⟩) ∧
    (∃ files, g.NearestFirst i files (g.reachable i true)) ∧
    ∀ kind name, g.FindsFirst i (g.reachable i true) kind name := by
  obtain ⟨files, hnearest⟩ := exists_nearestFirst hfiles hi
  refine ⟨?_, ⟨files, hnearest⟩, findsFirst hnearest hfiles hi⟩
  have hrun := iterate_round hfiles List.nodup_range { queue := [g.root i] }
    (fun j hj ↦ by rw [List.mem_singleton.1 hj]; exact (root_isFile hi).1) (fun j hj ↦ by simpa using hj)
  rw [reachable, if_pos rfl]
  exact hrun

def pages : Graph where
  documents := [
    { url := "a.html", imports := [2, 0, 2] },
    { url := "a.html", container := some 0, imports := [3] },
    { url := "b.html", imports := [3, 0], features := [.space { name := "N" }] },
    { url := "c.html", features := [.space { name := "N" }] }]

theorem pages_nearest_first : (∃ files, pages.NearestFirst 1 files (pages.reachable 1 true)) ∧
    pages.FindsFirst 1 (pages.reachable 1 true) "namespace" "N" ∧ pages.reachable 1 true = [0, 1, 2, 3] := by
  have h := traversal_nearest_first pages (by decide) 1 (by decide)
  exact ⟨h.2.1, h.2.2 "namespace" "N", by cbv⟩

end PolymerAnalysis.Graph
