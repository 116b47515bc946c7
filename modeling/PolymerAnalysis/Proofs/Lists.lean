namespace PolymerAnalysis

variable {α β γ : Type}

section First

variable {p : α → Bool} {xs : List α} {x y : α}

def IsFirst (p : α → Bool) (xs : List α) (x : α) : Prop :=
  ∃ before behind, xs = before ++ x :: behind ∧ p x ∧ ∀ y ∈ before, p y = false

theorem isFirst_iff : IsFirst p xs x ↔ xs.find? p = some x := by
  rw [List.find?_eq_some_iff_append, IsFirst]
  simp only [Bool.not_eq_eq_eq_not, Bool.not_true]
  constructor
  · rintro ⟨before, behind, heq, hx, hnone⟩
    exact ⟨hx, before, behind, heq, hnone⟩
  · rintro ⟨hx, before, behind, heq, hnone⟩
    exact ⟨before, behind, heq, hx, hnone⟩

theorem IsFirst.unique (hx : IsFirst p xs x) (hy : IsFirst p xs y) : x = y :=
  Option.some.inj ((isFirst_iff.1 hx).symm.trans (isFirst_iff.1 hy))

theorem exists_isFirst (h : ∃ x ∈ xs, p x) : ∃ x, IsFirst p xs x := by
  obtain ⟨x, hx⟩ := Option.isSome_iff_exists.1 (List.find?_isSome.2 h)
  exact ⟨x, isFirst_iff.2 hx⟩

end First

section Runs

variable {P Q : α → Prop} {x : α} {l : List α}

/-- An element of one kind comes after elements of another kind only. -/
def ComesAfter (P Q : α → Prop) (l : List α) : Prop :=
  ∃ before x behind, l = before ++ x :: behind ∧ (∀ y ∈ before, P y) ∧ Q x

theorem not_comesAfter_nil : ¬ComesAfter P Q [] := by
  rintro ⟨before, x, behind, h, -⟩
  simp at h

theorem comesAfter_cons_iff : ComesAfter P Q (x :: l) ↔ Q x ∨ P x ∧ ComesAfter P Q l := by
  constructor
  · rintro ⟨before, y, behind, h, hbefore, hy⟩
    cases before with
    | nil =>
      cases h
      exact .inl hy
    | cons z before =>
      cases h
      rw [List.forall_mem_cons] at hbefore
      exact .inr ⟨hbefore.1, before, y, behind, rfl, hbefore.2, hy⟩
  · rintro (hx | ⟨hx, before, y, behind, rfl, hbefore, hy⟩)
    · exact ⟨[], x, l, rfl, by simp, hx⟩
    · exact ⟨x :: before, y, behind, rfl, List.forall_mem_cons.2 ⟨hx, hbefore⟩, hy⟩

end Runs

section Positions

variable {xs ys : List α} {a a' : α} {i : Nat}

theorem modify_middle (f : α → α) (xs : List α) (a : α) (ys : List α) :
    (xs ++ a :: ys).modify xs.length f = xs ++ f a :: ys := List.modifyTailIdx_add (List.modifyHead f) 0 xs (a :: ys)

theorem getElem?_middle (h : i ≠ xs.length) : (xs ++ a' :: ys)[i]? = (xs ++ a :: ys)[i]? := by
  rw [List.getElem?_append, List.getElem?_append]
  split
  · rfl
  · obtain ⟨k, hk⟩ : ∃ k, i - xs.length = k + 1 := ⟨i - xs.length - 1, by omega⟩
    rw [hk, List.getElem?_cons_succ, List.getElem?_cons_succ]

theorem map_zipIdx_eq_zipWith (f : α → Option β → γ) {as : List α} {bs : List β} (h : bs.length = as.length) :
    as.zipIdx.map (fun x ↦ f x.1 bs[x.2]?) = List.zipWith (fun a b ↦ f a (some b)) as bs := by
  refine List.ext_getElem (by simp [h]) fun i hi _ ↦ ?_
  have hb : i < bs.length := by
    rw [List.length_map, List.length_zipIdx] at hi
    rwa [h]
  simp [hb]

end Positions

end PolymerAnalysis
