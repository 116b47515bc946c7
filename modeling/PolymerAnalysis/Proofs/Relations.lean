import Mathlib.Data.List.Forall2
import Mathlib.Data.Nat.Init
import Mathlib.Logic.Relation

namespace PolymerAnalysis

open Relation

section Lifting

variable {α β γ : Type} {R : α → β → Prop} {S : β → γ → Prop} {as : List α} {bs : List β} {cs : List γ} {a : α}

theorem exists_of_forall₂ (h : List.Forall₂ R as bs) (ha : a ∈ as) : ∃ b ∈ bs, R a b := by
  induction h with
  | nil => cases ha
  | cons hR _ ih =>
    rcases List.mem_cons.1 ha with rfl | ha
    · exact ⟨_, List.mem_cons_self, hR⟩
    · obtain ⟨b, hb, hR⟩ := ih ha
      exact ⟨b, List.mem_cons_of_mem _ hb, hR⟩

theorem exists_getElem?_of_forall₂ (h : List.Forall₂ R as bs) {n : Nat} (ha : as[n]? = some a) :
    ∃ b, bs[n]? = some b ∧ R a b := by
  obtain ⟨hlength, hall⟩ := List.forall₂_iff_get.1 h
  obtain ⟨hn, rfl⟩ := List.getElem?_eq_some_iff.1 ha
  have hn' : n < bs.length := hlength ▸ hn
  exact ⟨bs[n], List.getElem?_eq_getElem hn', hall n hn hn'⟩

theorem forall₂_comp (h : List.Forall₂ R as bs) (h' : List.Forall₂ S bs cs) :
    List.Forall₂ (fun a c ↦ ∃ b, R a b ∧ S b c) as cs := by
  induction h generalizing cs with
  | nil =>
    cases h'
    exact .nil
  | cons hab _ ih =>
    cases h' with
    | cons hbc hrest => exact .cons ⟨_, hab, hbc⟩ (ih hrest)

variable {f : α → β} {o : Option α} {o' : Option β}

theorem map_eq_of_forall₂ (hf : ∀ a b, R a b → f a = b) (h : List.Forall₂ R as bs) : as.map f = bs := by
  induction h with
  | nil => rfl
  | cons hR _ ih => rw [List.map_cons, hf _ _ hR, ih]

theorem map_eq_of_rel (hf : ∀ a b, R a b → f a = b) (h : Option.Rel R o o') : o.map f = o' := by
  cases h with
  | none => rfl
  | some hR => rw [Option.map_some, hf _ _ hR]

theorem rel_flip (h : Option.Rel R o o') : Option.Rel (flip R) o' o := by
  cases h with
  | none => exact .none
  | some hR => exact .some hR

end Lifting

/-- Where one step leads to something smaller, what each step hands on comes from the end of a run. -/
theorem run_of_step {α : Type} [SizeOf α] {F B : α → Prop} {R : α → α → Prop}
    (hstep : ∀ a, F a ↔ B a ∨ ∃ b, R a b ∧ F b) (hlt : ∀ a b, R a b → sizeOf b < sizeOf a) (a : α) :
    F a ↔ ∃ b, ReflTransGen R a b ∧ B b := by
  constructor
  · intro h
    -- induction on the size, which each step lowers
    induction hsize : sizeOf a using Nat.strong_induction_on generalizing a with
    | _ size ih =>
      rcases (hstep a).1 h with hend | ⟨b, hab, hb⟩
      · exact ⟨a, .refl, hend⟩
      · obtain ⟨c, hbc, hc⟩ := ih (sizeOf b) (hsize ▸ hlt a b hab) b hb rfl
        exact ⟨c, .head hab hbc, hc⟩
  · rintro ⟨b, hrun, hb⟩
    induction hrun using ReflTransGen.head_induction_on with
    | refl => exact (hstep b).2 (.inl hb)
    | head hab _ ih => exact (hstep _).2 (.inr ⟨_, hab, ih⟩)

end PolymerAnalysis
