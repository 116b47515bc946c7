import PolymerAnalysis.Keyed
import Mathlib.Data.List.Induction
import Mathlib.Data.List.Nodup

namespace PolymerAnalysis.Keyed

variable {α κ : Type} [DecidableEq κ]

/-- The items of a list that no later item has the key of. -/
def lastOfEach (key : α → κ) : List α → List α
  | [] => []
  | x :: xs => if ∃ y ∈ xs, key y = key x then lastOfEach key xs else x :: lastOfEach key xs

theorem lastOfEach_concat (key : α → κ) (xs : List α) (x : α) :
    lastOfEach key (xs ++ [x]) = replaceLast key x (lastOfEach key xs) := by
  induction xs with
  | nil => simp [lastOfEach, replaceLast]
  | cons y ys ih =>
    by_cases hys : ∃ z ∈ ys, key z = key y
    · have hall : ∃ z ∈ ys ++ [x], key z = key y := by
        obtain ⟨z, hz, he⟩ := hys
        exact ⟨z, List.mem_append_left _ hz, he⟩
      rw [List.cons_append, lastOfEach, if_pos hall, ih, lastOfEach, if_pos hys]
    · by_cases hx : key x = key y
      · have hall : ∃ z ∈ ys ++ [x], key z = key y := ⟨x, by simp, hx⟩
        rw [List.cons_append, lastOfEach, if_pos hall, ih, lastOfEach, if_neg hys]
        simp [replaceLast, hx]
      · have hall : ¬∃ z ∈ ys ++ [x], key z = key y := by
          rintro ⟨z, hz, he⟩
          rcases List.mem_append.1 hz with hz | hz
          · exact hys ⟨z, hz, he⟩
          · exact hx (List.mem_singleton.1 hz ▸ he)
        rw [List.cons_append, lastOfEach, if_neg hall, ih, lastOfEach, if_neg hys]
        simp [replaceLast, Ne.symm hx]

theorem mem_lastOfEach {key : α → κ} {items : List α} {x : α} (h : x ∈ lastOfEach key items) : x ∈ items := by
  induction items with
  | nil => cases h
  | cons y ys ih =>
    rw [lastOfEach] at h
    split at h
    · exact List.mem_cons_of_mem y (ih h)
    · rcases List.mem_cons.1 h with rfl | h
      · exact List.mem_cons_self
      · exact List.mem_cons_of_mem y (ih h)

/-- What is kept of the items that some parts hand down and of others after them. -/
theorem handed_or_own_of_mem_lastOfEach {β γ : Type} {key : α → κ} {parts : List γ} {items : γ → List β}
    {hand : γ → β → α} {own : List α} {x : α}
    (h : x ∈ lastOfEach key (parts.flatMap (fun part ↦ (items part).map (hand part)) ++ own)) :
    (∃ part ∈ parts, ∃ y ∈ items part, x = hand part y) ∨ x ∈ own := by
  refine (List.mem_append.1 (mem_lastOfEach h)).imp_left fun hx ↦ ?_
  obtain ⟨part, hpart, hx⟩ := List.mem_flatMap.1 hx
  obtain ⟨y, hy, rfl⟩ := List.mem_map.1 hx
  exact ⟨part, hpart, y, hy, rfl⟩

/-- What comes last keeps the items of the beginning that it has no key of. -/
theorem lastOfEach_append (key : α → κ) (xs ys : List α) :
    lastOfEach key (xs ++ ys) = (lastOfEach key xs).filter (fun x ↦ ¬∃ y ∈ ys, key y = key x) ++ lastOfEach key ys := by
  induction xs with
  | nil => rfl
  | cons x xs ih =>
    rw [List.cons_append, lastOfEach, lastOfEach, ih]
    simp only [List.mem_append, or_and_right, exists_or]
    by_cases hxs : ∃ y ∈ xs, key y = key x
    · rw [if_pos (.inl hxs), if_pos hxs]
    · by_cases hys : ∃ y ∈ ys, key y = key x
      · rw [if_pos (.inr hys), if_neg hxs, List.filter_cons_of_neg (by simpa using hys)]
      · rw [if_neg (not_or.2 ⟨hxs, hys⟩), if_neg hxs, List.filter_cons_of_pos (by simpa using hys), List.cons_append]

theorem mem_right_of_mem_lastOfEach {key : α → κ} {xs ys : List α} {x : α} (h : x ∈ lastOfEach key (xs ++ ys))
    (hkey : key x ∈ ys.map key) : x ∈ ys := by
  rw [lastOfEach_append] at h
  rcases List.mem_append.1 h with h | h
  · obtain ⟨y, hy, heq⟩ := List.mem_map.1 hkey
    exact absurd ⟨y, hy, heq⟩ (of_decide_eq_true (List.mem_filter.1 h).2)
  · exact mem_lastOfEach h

theorem mem_upsert {key : α → κ} {item x : α} {items : List α} (h : x ∈ upsert key item items) :
    x = item ∨ x ∈ items := by
  induction items with
  | nil => exact .inl (List.mem_singleton.1 h)
  | cons y ys ih =>
    rw [upsert] at h
    split at h
    · exact (List.mem_cons.1 h).imp_right (List.mem_cons_of_mem y)
    · rcases List.mem_cons.1 h with rfl | h
      · exact .inr List.mem_cons_self
      · exact (ih h).imp_right (List.mem_cons_of_mem y)

theorem mem_upsert_self (key : α → κ) (x : α) (xs : List α) : x ∈ upsert key x xs := by
  induction xs with
  | nil => exact List.mem_cons_self
  | cons y ys ih =>
    rw [upsert]
    split
    · exact List.mem_cons_self
    · exact List.mem_cons_of_mem y ih

theorem mem_upsert_of_ne {key : α → κ} {item x : α} {xs : List α} (hx : x ∈ xs) (hne : key x ≠ key item) :
    x ∈ upsert key item xs := by
  induction xs with
  | nil => cases hx
  | cons y ys ih =>
    rw [upsert]
    rcases List.mem_cons.1 hx with rfl | hx
    · rw [if_neg hne]
      exact List.mem_cons_self
    · split
      · exact List.mem_cons_of_mem item hx
      · exact List.mem_cons_of_mem y (ih hx)

theorem forall_mem_elim_upsert {key : α → κ} {P : α → Prop} {xs : List α} {item? : Option α}
    (hitem : ∀ x ∈ item?, P x) (hxs : ∀ x ∈ xs, P x) : ∀ x ∈ item?.elim xs fun y ↦ upsert key y xs, P x := by
  cases item? with
  | none => exact hxs
  | some y =>
    intro x hx
    rcases mem_upsert hx with rfl | hx
    · exact hitem x rfl
    · exact hxs x hx

/-- Items under other keys leave an item where it is. -/
theorem mem_foldl_upsert_of_ne {key : α → κ} {x : α} {xs items : List α} (hx : x ∈ xs)
    (hne : ∀ y ∈ items, key x ≠ key y) : x ∈ items.foldl (fun xs y ↦ upsert key y xs) xs := by
  induction items generalizing xs with
  | nil => exact hx
  | cons y items ih =>
    rw [List.forall_mem_cons] at hne
    exact ih (mem_upsert_of_ne hx hne.1) hne.2

/-- A part of a state to which each step adds items holds, after a run, what all steps added. -/
theorem foldl_part {σ ι β γ : Type} (part : σ → γ) {step : σ → ι → σ} {insert : γ → β → γ} {made : ι → List β}
    (hstep : ∀ s i, part (step s i) = (made i).foldl insert (part s)) (s : σ) (is : List ι) :
    part (is.foldl step s) = (is.flatMap made).foldl insert (part s) := by
  rw [List.foldl_flatMap]
  exact (List.foldl_hom part fun s i ↦ (hstep s i).symm).symm

/-- Removing what has the key and appending keeps exactly the last item of each key. -/
theorem foldl_replaceLast (key : α → κ) (start items : List α) :
    items.foldl (fun xs x ↦ replaceLast key x xs) (lastOfEach key start) =
      lastOfEach key (start ++ items) := by
  induction items generalizing start with
  | nil => simp
  | cons x xs ih =>
    rw [List.foldl_cons, ← lastOfEach_concat, ih, List.append_assoc, List.singleton_append]

theorem mem_addNew {x y : κ} {xs : List κ} : y ∈ addNew x xs ↔ y ∈ xs ∨ y = x := by
  rw [addNew]
  split
  · next hx => exact ⟨.inl, fun h ↦ h.elim id fun heq ↦ heq ▸ hx⟩
  · rw [List.mem_append, List.mem_singleton]

theorem nodup_addNew {xs : List κ} (hxs : xs.Nodup) (x : κ) : (addNew x xs).Nodup := by
  rw [addNew]
  split
  · exact hxs
  · next hx =>
    refine List.nodup_append.2 ⟨hxs, List.pairwise_singleton _ x, fun y hy z hz heq ↦ hx ?_⟩
    exact List.mem_singleton.1 hz ▸ heq ▸ hy

theorem addNew_eraseDups [BEq κ] [LawfulBEq κ] (x : κ) (xs : List κ) :
    addNew x xs.eraseDups = (xs ++ [x]).eraseDups := by
  by_cases h : x ∈ xs
  · simp [addNew, h, List.eraseDups_append, List.removeAll]
  · simp [addNew, h, List.eraseDups_append, List.removeAll, List.eraseDups_cons]

theorem foldl_addNew [BEq κ] [LawfulBEq κ] (start items : List κ) :
    items.foldl (fun xs x ↦ addNew x xs) start.eraseDups = (start ++ items).eraseDups := by
  induction items generalizing start with
  | nil => simp
  | cons x xs ih => rw [List.foldl_cons, addNew_eraseDups, ih, List.append_assoc, List.singleton_append]

theorem nodup_eraseDups [BEq κ] [LawfulBEq κ] (xs : List κ) : xs.eraseDups.Nodup := by
  induction xs using List.reverseRecOn with
  | nil => simp
  | append_singleton xs x ih =>
    rw [← addNew_eraseDups]
    exact nodup_addNew ih x

theorem eraseDups_of_nodup [BEq κ] [LawfulBEq κ] {xs : List κ} (h : xs.Nodup) : xs.eraseDups = xs := by
  induction xs using List.reverseRecOn with
  | nil => rfl
  | append_singleton xs x ih =>
    obtain ⟨hxs, -, hne⟩ := List.nodup_append.1 h
    have hx : x ∉ xs := fun hmem ↦ hne x hmem x List.mem_cons_self rfl
    rw [← addNew_eraseDups, ih hxs, addNew, if_neg hx]

section Last

variable {β ι : Type} {key : α → κ} {k : κ} {x : α} {xs : List α}

def last? (key : α → κ) (k : κ) (xs : List α) : Option α := (xs.filter fun x ↦ key x = k).getLast?

theorem key_of_last? (h : last? key k xs = some x) : key x = k :=
  of_decide_eq_true (List.mem_filter.1 (List.mem_of_getLast? h)).2

theorem mem_of_last? (h : last? key k xs = some x) : x ∈ xs := (List.mem_filter.1 (List.mem_of_getLast? h)).1

theorem last?_append (key : α → κ) (k : κ) (xs ys : List α) :
    last? key k (xs ++ ys) = (last? key k ys).or (last? key k xs) := by
  rw [last?, List.filter_append, List.getLast?_append, last?, last?]

theorem last?_cons (key : α → κ) (k : κ) (x : α) (xs : List α) :
    last? key k (x :: xs) = (last? key k xs).or (if key x = k then some x else none) := by
  rw [← List.singleton_append, last?_append]
  by_cases hx : key x = k <;> simp [last?, hx]

/-- Lists without a common key can change places. -/
theorem last?_append_comm {ys : List α} (h : ∀ x ∈ xs, ∀ y ∈ ys, key x ≠ key y) :
    last? key k (xs ++ ys) = last? key k (ys ++ xs) := by
  rw [last?_append, last?_append]
  cases hx : last? key k xs with
  | none => rw [Option.or_none, Option.none_or]
  | some x =>
    cases hy : last? key k ys with
    | none => rw [Option.or_none, Option.none_or]
    | some y =>
      have hkey := (key_of_last? hx).trans (key_of_last? hy).symm
      exact absurd hkey (h x (mem_of_last? hx) y (mem_of_last? hy))

theorem isSome_last? (key : α → κ) (h : x ∈ xs) : (last? key (key x) xs).isSome := by
  have hmem : x ∈ xs.filter fun y ↦ key y = key x := List.mem_filter.2 ⟨h, decide_eq_true rfl⟩
  rw [last?, List.getLast?_isSome]
  exact List.ne_nil_of_mem hmem

theorem last?_eq_none (h : ∀ x ∈ xs, key x ≠ k) : last? key k xs = none := by
  rw [last?, List.filter_eq_nil_iff.2 fun x hx ↦ by simpa using h x hx, List.getLast?_nil]

theorem mem_lastOfEach_iff (key : α → κ) (x : α) (xs : List α) :
    x ∈ lastOfEach key xs ↔ last? key (key x) xs = some x := by
  induction xs with
  | nil => simp [lastOfEach, last?]
  | cons y ys ih =>
    rw [lastOfEach, last?_cons]
    by_cases hys : ∃ z ∈ ys, key z = key y
    · rw [if_pos hys, ih]
      by_cases hy : key y = key x
      · obtain ⟨z, hz, hkey⟩ := hys
        obtain ⟨w, hw⟩ := Option.isSome_iff_exists.1 (isSome_last? key hz)
        rw [hkey, hy] at hw
        rw [hw, Option.some_or]
      · rw [if_neg hy, Option.or_none]
    · rw [if_neg hys, List.mem_cons, ih]
      by_cases hy : key y = key x
      · have hnone : last? key (key x) ys = none := by
          refine last?_eq_none fun z hz hkey ↦ hys ⟨z, hz, hkey.trans hy.symm⟩
        rw [hnone, if_pos hy, Option.none_or, Option.some.injEq, eq_comm]
        simp
      · rw [if_neg hy, Option.or_none, or_iff_right]
        rintro rfl
        exact hy rfl

/-- Lookups under keys that the keys of the items determine are not changed by the items that are dropped. -/
theorem last?_lastOfEach {κ' : Type} [DecidableEq κ'] {key' : α → κ'} (h : ∀ x y, key x = key y → key' x = key' y)
    (k : κ') (xs : List α) : last? key' k (lastOfEach key xs) = last? key' k xs := by
  induction xs with
  | nil => rfl
  | cons x xs ih =>
    rw [lastOfEach, last?_cons]
    split
    · next hxs =>
      rw [ih]
      by_cases hx : key' x = k
      · obtain ⟨y, hy, hkey⟩ := hxs
        obtain ⟨w, hw⟩ := Option.isSome_iff_exists.1 (isSome_last? key' hy)
        rw [h y x hkey, hx] at hw
        rw [hw, Option.some_or]
      · rw [if_neg hx, Option.or_none]
    · rw [last?_cons, ih]

theorem last?_map {f : α → β} {key' : β → κ} (h : ∀ x, key' (f x) = key x) (k : κ) (xs : List α) :
    last? key' k (xs.map f) = (last? key k xs).map f := by
  rw [last?, List.filter_map, List.getLast?_map, last?]
  simp only [Function.comp_def, h]

theorem last?_flatMap {xs : List β} {ys : List ι} {f : β → List α} {h : ι → List α}
    (hxs : List.Forall₂ (fun x y ↦ last? key k (f x) = last? key k (h y)) xs ys) :
    last? key k (xs.flatMap f) = last? key k (ys.flatMap h) := by
  induction hxs with
  | nil => rfl
  | cons hx _ ih => rw [List.flatMap_cons, List.flatMap_cons, last?_append, last?_append, hx, ih]

/-- An item that is the last one with a key makes the last one of what the items make, if it makes anything and what
has the key of that can be made under its key only. -/
theorem last?_filterMap {κ' : Type} [DecidableEq κ'] {make : α → Option β} {key' : β → κ'} {b : β}
    (hkey : ∀ y ∈ xs, ∀ c, make y = some c → key' c = key' b → key y = k) (h : last? key k xs = some x)
    (hb : make x = some b) : last? key' (key' b) (xs.filterMap make) = some b := by
  induction xs with
  | nil => cases h
  | cons y ys ih =>
    rw [List.forall_mem_cons] at hkey
    rw [last?_cons] at h
    cases hys : last? key k ys with
    | some z =>
      rw [hys, Option.some_or] at h
      have hrest := ih hkey.2 (hys.trans h)
      cases hy : make y with
      | none => rwa [List.filterMap_cons_none hy]
      | some c => rw [List.filterMap_cons_some hy, last?_cons, hrest, Option.some_or]
    | none =>
      rw [hys, Option.none_or] at h
      split at h
      · next hy =>
        cases h
        have hnone : last? key' (key' b) (ys.filterMap make) = none := by
          refine last?_eq_none fun c hc heq ↦ ?_
          obtain ⟨z, hz, hmake⟩ := List.mem_filterMap.1 hc
          have hsome := isSome_last? key hz
          rw [hkey.2 z hz c hmake heq, hys] at hsome
          cases hsome
        rw [List.filterMap_cons_some hb, last?_cons, hnone, Option.none_or, if_pos rfl]
      · cases h

theorem last?_upsert (hxs : (xs.map key).Nodup) (k : κ) (x : α) :
    last? key k (upsert key x xs) = if key x = k then some x else last? key k xs := by
  induction xs with
  | nil => simp [upsert, last?]
  | cons y ys ih =>
    rw [List.map_cons, List.nodup_cons] at hxs
    rw [upsert]
    split
    · next hy =>
      rw [last?_cons, last?_cons]
      by_cases hx : key x = k
      · have hnone : last? key k ys = none := by
          refine last?_eq_none fun z hz hkey ↦ hxs.1 ?_
          rw [hy, hx, ← hkey]
          exact List.mem_map_of_mem hz
        rw [if_pos hx, hnone, Option.none_or, if_pos hx]
      · rw [if_neg hx, if_neg hx, if_neg (hy ▸ hx)]
    · next hy =>
      rw [last?_cons, last?_cons, ih hxs.2]
      by_cases hx : key x = k
      · rw [if_pos hx, if_pos hx, Option.some_or]
      · rw [if_neg hx, if_neg hx]

theorem map_upsert (key : α → κ) (x : α) (xs : List α) :
    (upsert key x xs).map key = addNew (key x) (xs.map key) := by
  induction xs with
  | nil => simp [upsert, addNew]
  | cons y ys ih =>
    rw [upsert]
    by_cases hy : key y = key x
    · have hmem : key x ∈ (y :: ys).map key := List.mem_map.2 ⟨y, List.mem_cons_self, hy⟩
      rw [if_pos hy, addNew, if_pos hmem, List.map_cons, List.map_cons, hy]
    · rw [if_neg hy, List.map_cons, ih, addNew, addNew, List.map_cons]
      by_cases hys : key x ∈ ys.map key
      · rw [if_pos hys, if_pos (List.mem_cons_of_mem _ hys)]
      · rw [if_neg hys, if_neg (List.not_mem_cons_of_ne_of_not_mem (Ne.symm hy) hys), List.cons_append]

theorem nodup_upsert (hxs : (xs.map key).Nodup) (x : α) : ((upsert key x xs).map key).Nodup := by
  rw [map_upsert]
  exact nodup_addNew hxs (key x)

theorem nodup_elim_upsert (hxs : (xs.map key).Nodup) (item? : Option α) :
    ((item?.elim xs fun x ↦ upsert key x xs).map key).Nodup := by
  cases item? with
  | none => exact hxs
  | some x => exact nodup_upsert hxs x

/-- Items that are put in one after the other are there in their last form. -/
theorem last?_foldl_upsert (hxs : (xs.map key).Nodup) (k : κ) (items : List α) :
    last? key k (items.foldl (fun xs x ↦ upsert key x xs) xs) = (last? key k items).or (last? key k xs) := by
  induction items generalizing xs with
  | nil => rfl
  | cons x items ih =>
    rw [List.foldl_cons, ih (nodup_upsert hxs x), last?_upsert hxs, last?_cons, Option.or_assoc]
    split
    · rw [Option.some_or]
    · rw [Option.none_or]

theorem nodup_foldl_upsert (hxs : (xs.map key).Nodup) (items : List α) :
    ((items.foldl (fun xs x ↦ upsert key x xs) xs).map key).Nodup := by
  induction items generalizing xs with
  | nil => exact hxs
  | cons x items ih => exact ih (nodup_upsert hxs x)

theorem mem_iff_last? (hxs : (xs.map key).Nodup) (x : α) : x ∈ xs ↔ last? key (key x) xs = some x := by
  refine ⟨fun hx ↦ ?_, mem_of_last?⟩
  obtain ⟨y, hy⟩ := Option.isSome_iff_exists.1 (isSome_last? key hx)
  rw [hy, List.inj_on_of_nodup_map hxs (mem_of_last? hy) hx (key_of_last? hy)]

/-- What is there after items were put in: of each key the last one. -/
theorem mem_foldl_upsert_iff (key : α → κ) (items : List α) (x : α) :
    x ∈ items.foldl (fun xs x ↦ upsert key x xs) [] ↔ last? key (key x) items = some x := by
  have hnil : (([] : List α).map key).Nodup := List.nodup_nil
  rw [mem_iff_last? (nodup_foldl_upsert hnil items), last?_foldl_upsert hnil]
  exact Eq.congr_left Option.or_none

theorem map_foldl_upsert (key : α → κ) (xs items : List α) :
    (items.foldl (fun xs x ↦ upsert key x xs) xs).map key =
      (items.map key).foldl (fun ks k ↦ addNew k ks) (xs.map key) := by
  induction items generalizing xs with
  | nil => rfl
  | cons x items ih => rw [List.foldl_cons, ih, map_upsert, List.map_cons, List.foldl_cons]

/-- The items under keys given again and again: the last one of each key, in the order in which the keys first occur. -/
def latest (key : α → κ) (items : List α) : List α := (items.map key).eraseDups.filterMap fun k ↦ last? key k items

theorem filterMap_last? (hxs : (xs.map key).Nodup) : (xs.map key).filterMap (fun k ↦ last? key k xs) = xs := by
  rw [List.filterMap_map]
  exact (List.filterMap_congr fun x hx ↦ (mem_iff_last? hxs x).1 hx).trans List.filterMap_some

theorem foldl_upsert (key : α → κ) (items : List α) :
    items.foldl (fun xs x ↦ upsert key x xs) [] = latest key items := by
  have hnil : (([] : List α).map key).Nodup := List.nodup_nil
  have hkeys : (items.foldl (fun xs x ↦ upsert key x xs) []).map key = (items.map key).eraseDups :=
    (map_foldl_upsert key [] items).trans (foldl_addNew [] (items.map key))
  rw [← filterMap_last? (nodup_foldl_upsert hnil items), hkeys, latest]
  refine List.filterMap_congr fun k _ ↦ ?_
  rw [last?_foldl_upsert hnil]
  exact Option.or_none

theorem latest_of_nodup (hxs : (xs.map key).Nodup) : latest key xs = xs := by
  rw [latest, eraseDups_of_nodup hxs, filterMap_last? hxs]

theorem mem_of_mem_latest (h : x ∈ latest key xs) : x ∈ xs := by
  obtain ⟨k, -, hk⟩ := List.mem_filterMap.1 h
  exact mem_of_last? hk

/-- The last item is kept by a filter that it passes. -/
theorem last?_filter {P : α → Bool} (h : last? key k xs = some x) (hx : P x) : last? key k (xs.filter P) = some x := by
  obtain ⟨init, hinit⟩ := List.getLast?_eq_some_iff.1 h
  rw [last?, List.filter_comm, hinit, List.filter_append, List.filter_cons_of_pos hx, List.getLast?_append]
  rfl

/-- Lookups among what items make, under keys that match those of the items that make anything. -/
theorem last?_filterMap_eq {κ' : Type} [DecidableEq κ'] {make : α → Option β} {key' : β → κ'} {k' : κ'}
    (hkey : ∀ y ∈ xs, ∀ c, make y = some c → (key' c = k' ↔ key y = k)) :
    last? key' k' (xs.filterMap make) = (last? key k (xs.filter fun y ↦ (make y).isSome)).bind make := by
  induction xs with
  | nil => rfl
  | cons y ys ih =>
    rw [List.forall_mem_cons] at hkey
    cases hy : make y with
    | none => rw [List.filterMap_cons_none hy, List.filter_cons_of_neg (by simp [hy]), ih hkey.2]
    | some c =>
      rw [List.filterMap_cons_some hy, List.filter_cons_of_pos (by simp [hy]), last?_cons, last?_cons, ih hkey.2]
      cases hys : last? key k (ys.filter fun y ↦ (make y).isSome) with
      | some z =>
        obtain ⟨d, hd⟩ := Option.isSome_iff_exists.1 (List.mem_filter.1 (mem_of_last? hys)).2
        rw [Option.bind_some, hd, Option.some_or, Option.some_or, Option.bind_some, hd]
      | none =>
        rw [Option.bind_none, Option.none_or, Option.none_or]
        by_cases hk : key y = k
        · rw [if_pos hk, if_pos ((hkey.1 c hy).2 hk), Option.bind_some, hy]
        · rw [if_neg hk, if_neg fun heq ↦ hk ((hkey.1 c hy).1 heq), Option.bind_none]

end Last

section First

variable {key : α → κ} {xs : List α}

def addFirst (key : α → κ) (item : α) (items : List α) : List α :=
  if key item ∈ items.map key then items else items ++ [item]

/-- The items under keys given again and again: the first one of each key, in the order in which the keys first
occur. -/
def earliest (key : α → κ) (items : List α) : List α :=
  (items.map key).eraseDups.filterMap fun k ↦ items.find? fun x ↦ key x = k

theorem map_addFirst (key : α → κ) (x : α) (xs : List α) :
    (addFirst key x xs).map key = addNew (key x) (xs.map key) := by
  rw [addFirst, addNew]
  split
  · rfl
  · exact List.map_append

theorem nodup_foldl_addFirst (hxs : (xs.map key).Nodup) (items : List α) :
    ((items.foldl (fun xs x ↦ addFirst key x xs) xs).map key).Nodup := by
  induction items generalizing xs with
  | nil => exact hxs
  | cons x items ih =>
    refine ih ?_
    rw [map_addFirst]
    exact nodup_addNew hxs (key x)

theorem exists_find? {k : κ} (hk : k ∈ xs.map key) : ∃ x, xs.find? (fun x ↦ key x = k) = some x ∧ key x = k := by
  obtain ⟨y, hy, hkey⟩ := List.mem_map.1 hk
  have hsome : (xs.find? fun x ↦ key x = k).isSome := List.find?_isSome.2 ⟨y, hy, by simpa using hkey⟩
  obtain ⟨x, hx⟩ := Option.isSome_iff_exists.1 hsome
  exact ⟨x, hx, by simpa using List.find?_some hx⟩

theorem map_earliest (key : α → κ) (xs : List α) : (earliest key xs).map key = (xs.map key).eraseDups := by
  rw [earliest, List.map_filterMap]
  refine (List.filterMap_congr fun k hk ↦ ?_).trans List.filterMap_some
  obtain ⟨x, hx, rfl⟩ := exists_find? (List.mem_eraseDups.1 hk)
  rw [hx, Option.map_some]

theorem earliest_concat (key : α → κ) (xs : List α) (x : α) :
    earliest key (xs ++ [x]) = addFirst key x (earliest key xs) := by
  have hold : (xs.map key).eraseDups.filterMap (fun k ↦ (xs ++ [x]).find? fun y ↦ key y = k) = earliest key xs := by
    refine List.filterMap_congr fun k hk ↦ ?_
    obtain ⟨y, hy, -⟩ := exists_find? (List.mem_eraseDups.1 hk)
    rw [List.find?_append, hy, Option.some_or]
  rw [earliest, List.map_append, List.map_singleton, ← addNew_eraseDups, addNew, addFirst, map_earliest]
  split
  · exact hold
  · next hx =>
    have hnone : xs.find? (fun y ↦ key y = key x) = none := by
      refine List.find?_eq_none.2 fun y hy hkey ↦ hx ?_
      exact List.mem_eraseDups.2 (List.mem_map.2 ⟨y, hy, of_decide_eq_true hkey⟩)
    rw [List.filterMap_append, hold]
    simp [hnone]

theorem foldl_addFirst (key : α → κ) (items : List α) :
    items.foldl (fun xs x ↦ addFirst key x xs) [] = earliest key items := by
  induction items using List.reverseRecOn with
  | nil => rfl
  | append_singleton xs x ih => rw [List.foldl_append, ih, List.foldl_cons, List.foldl_nil, earliest_concat]

end First

section Lookup

variable {β γ : Type} [BEq κ] [LawfulBEq κ]

omit [DecidableEq κ] in
theorem lookup_cons_ne {key k : κ} (h : key ≠ k) (value : β) (entries : List (κ × β)) :
    List.lookup key ((k, value) :: entries) = entries.lookup key := by
  rw [List.lookup_cons, beq_false_of_ne h]

theorem any_eq_isSome_lookup (key : κ) (entries : List (κ × β)) :
    (entries.any fun e ↦ decide (e.1 = key)) = (entries.lookup key).isSome := by
  induction entries with
  | nil => rfl
  | cons e es ih =>
    rw [List.any_cons, ih]
    by_cases he : e.1 = key
    · simp [he]
    · rw [lookup_cons_ne (Ne.symm he), decide_eq_false he, Bool.false_or]

theorem lookup_put (key : κ) (value : β) (entries : List (κ × β)) (k : κ) :
    (put key value entries).lookup k = if k = key then some value else entries.lookup k := by
  induction entries with
  | nil =>
    by_cases hk : k = key
    · subst hk
      simp [put, upsert]
    · simp [put, upsert, hk]
  | cons e es ih =>
    obtain ⟨k', v⟩ := e
    by_cases hk' : k' = key
    · subst hk'
      by_cases hk : k = k'
      · subst hk
        simp [put, upsert]
      · simp [put, upsert, hk, lookup_cons_ne hk]
    · have hput : put key value ((k', v) :: es) = (k', v) :: put key value es := by simp [put, upsert, hk']
      rw [hput]
      by_cases hk : k = k'
      · subst hk
        rw [List.lookup_cons_self, List.lookup_cons_self, if_neg hk']
      · rw [lookup_cons_ne hk, lookup_cons_ne hk, ih]

theorem lookup_filter (p : κ → Bool) (entries : List (κ × β)) (k : κ) :
    (entries.filter fun e ↦ p e.1).lookup k = if p k then entries.lookup k else none := by
  induction entries with
  | nil => simp
  | cons e es ih =>
    obtain ⟨k', v⟩ := e
    by_cases hk : k = k'
    · subst hk
      by_cases hp : p k <;> simp [hp, ih]
    · by_cases hp : p k' <;> simp [hp, ih, lookup_cons_ne hk]

theorem lookup_erase (key : κ) (entries : List (κ × β)) (k : κ) :
    (erase key entries).lookup k = if k = key then none else entries.lookup k := by
  have h := lookup_filter (fun k ↦ decide (k ≠ key)) entries k
  simp only [decide_eq_true_eq, ite_not] at h
  exact h

theorem lookup_map (f : β → γ) (entries : List (κ × β)) (k : κ) :
    (entries.map fun e ↦ (e.1, f e.2)).lookup k = (entries.lookup k).map f := by
  induction entries with
  | nil => rfl
  | cons e es ih =>
    obtain ⟨k', v⟩ := e
    by_cases hk : k = k'
    · subst hk
      simp
    · rw [List.map_cons, lookup_cons_ne hk, lookup_cons_ne hk, ih]

end Lookup

end PolymerAnalysis.Keyed
