import PolymerAnalysis.Proofs.Feature.Additions
import PolymerAnalysis.Proofs.Scan.Properties
import PolymerAnalysis.Scan.Members

namespace PolymerAnalysis

variable {ctx : ScanContext} {d d' : Declaration}

def Role.untagged : Role → Role
  | .element _ superclass => .element none superclass
  | role => role

namespace Declaration

def head (d : Declaration) : Declaration :=
  { role := d.role.untagged, range := d.range, description := d.description, docs := d.docs, name := d.name
    abstract := d.abstract, privacy := d.privacy }

@[simp] theorem head_addEvent (d : Declaration) (e : Event) : (d.addEvent e).head = d.head := rfl

@[simp] theorem head_addWarning (d : Declaration) (w : Warning) : (d.addWarning w).head = d.head := rfl

@[simp] theorem head_addProperty (d : Declaration) (p : Property) : (d.addProperty p).head = d.head := by
  rw [addProperty_eq]
  rfl

@[simp] theorem head_addMixin (d : Declaration) (r : Reference) : (d.addMixin r).head = d.head := by
  rw [addMixin_eq]
  rfl

theorem head_foldl {α : Type} {step : Declaration → α → Declaration} (h : ∀ d a, (step d a).head = d.head) (as : List α)
    (d : Declaration) : (as.foldl step d).head = d.head := by
  induction as generalizing d with
  | nil => rfl
  | cons a as ih => exact (ih _).trans (h d a)

theorem head_addMixins (d : Declaration) (rs : List Reference) : (d.addMixins rs).head = d.head :=
  head_foldl head_addMixin rs d

theorem role_eq_of_head {role : Role} (hne : ∀ tag superclass, role ≠ .element tag superclass)
    (h : d.head.role = role) : d.role = role := by
  have hd : d.role.untagged = role := h
  cases hrole' : d.role with
  | element tag superclass =>
    rw [hrole'] at hd
    exact absurd hd.symm (hne _ _)
  | behavior | mixin | bare =>
    rw [hrole'] at hd
    exact hd

end Declaration

namespace Scan.Members

variable {P : Declaration → Prop}

structure Keeps (ctx : ScanContext) (P : Declaration → Prop) : Prop where
  property : ∀ d {object ps p}, Properties.analyze ctx object = .ok ps → p ∈ ps → P d → P (d.addProperty p)
  behavior : ∀ d r, P d → P { d with behaviors := d.behaviors ++ [r] }
  observers : ∀ d vs, P d → P { d with observers := d.observers ++ vs }
  listener : ∀ d l, P d → P { d with listeners := d.listeners ++ [l] }
  warning : ∀ d w, P d → P (d.addWarning w)

theorem Keeps.addBehavior (hP : Keeps ctx P) {n : Node} (hd : P d) (h : addBehavior ctx d n = .ok d') : P d' := by
  obtain ⟨found, -, h⟩ := exists_of_bind_eq_ok h
  cases found with
  | inl r =>
    cases h
    exact hP.behavior d r hd
  | inr w =>
    cases h
    exact hP.warning d w hd

theorem Keeps.addListener (hP : Keeps ctx P) {pair : Node} (hd : P d) (h : addListener d pair = .ok d') : P d' := by
  obtain ⟨event, -, h⟩ := exists_of_bind_eq_ok h
  obtain ⟨handler, -, h⟩ := exists_of_bind_eq_ok h
  split at h
  · cases h
    exact hP.listener d _ hd
  · cases h
    exact hd

theorem Keeps.apply (hP : Keeps ctx P) {key : Text} {value : Node} (hkey : key ≠ "is") (hd : P d)
    (h : apply ctx key value d = .ok d') : P d' := by
  rw [Members.apply, if_neg hkey] at h
  split at h
  · split at h
    · obtain ⟨ps, hps, h⟩ := exists_of_bind_eq_ok h
      cases h
      exact List.foldlRecOn ps Declaration.addProperty hd fun d hd p hp ↦ hP.property d hps hp hd
    · cases h
      exact hP.warning d _ hd
  split at h
  · split at h
    · exact keeps_foldlM (fun _ _ _ ↦ hP.addBehavior) hd h
    · cases h
      exact hd
  split at h
  · split at h
    · obtain ⟨vs, -, h⟩ := exists_of_bind_eq_ok h
      cases h
      exact hP.observers d vs hd
    · cases h
      exact hd
  split at h
  · split at h
    · exact keeps_foldlM (fun _ _ _ ↦ hP.addListener) hd h
    · cases h
      exact hP.warning d _ hd
  · cases h
    exact hd

/-- The member `is` gives a tag, if it has a text for a value. -/
theorem apply_is (ctx : ScanContext) (value : Node) (d : Declaration) :
    apply ctx "is" value d = (lift value.evaluate).map fun v ↦ v.text?.elim d (setTag d) := by
  rw [apply, if_pos rfl]
  cases value.evaluate with
  | error e => rfl
  | ok v => cases v <;> rfl

section All

variable (hP : Keeps ctx P) (htag : ∀ d tag, P d → P (setTag d tag))

include hP htag

theorem Keeps.apply_all {key : Text} {value : Node} (hd : P d) (h : Members.apply ctx key value d = .ok d') : P d' := by
  by_cases hkey : key = "is"
  · subst hkey
    rw [apply_is] at h
    obtain ⟨v, -, rfl⟩ := exists_of_map_eq_ok h
    cases v.text? with
    | none => exact hd
    | some tag => exact htag d tag hd
  · exact hP.apply hkey hd h

/-- What is kept by a tag as well is kept by all members of an object. -/
theorem Keeps.ofObject {object : Node} (hd : P d) (h : Members.ofObject ctx object d = .ok d') : P d' := by
  refine keeps_foldlM (fun d pair d' hd h ↦ ?_) hd h
  obtain ⟨key, -, h⟩ := exists_of_bind_eq_ok h
  split at h
  · exact hP.apply_all htag hd h
  · cases h
    exact hd

theorem Keeps.ofGetters {classNode : Node} (hd : P d) (h : Members.ofGetters ctx classNode d = .ok d') : P d' := by
  refine keeps_foldlM (fun d key d' hd h ↦ ?_) hd h
  obtain ⟨value, -, h⟩ := exists_of_bind_eq_ok h
  split at h
  · exact hP.apply_all htag hd h
  · cases h
    exact hd

end All

theorem keeps_head (ctx : ScanContext) (head : Declaration) : Keeps ctx (·.head = head) where
  property d _ _ p _ _ hd := (Declaration.head_addProperty d p).trans hd
  behavior _ _ hd := hd
  observers _ _ hd := hd
  listener _ _ hd := hd
  warning _ _ hd := hd

theorem head_setTag (d : Declaration) (tag : Text) : (setTag d tag).head = d.head := by
  rw [setTag]
  split
  · next hrole =>
    simp only [Declaration.head, hrole]
    rfl
  · rfl

theorem head_ofObject {object : Node} (h : ofObject ctx object d = .ok d') : d'.head = d.head :=
  (keeps_head ctx d.head).ofObject (fun d tag hd ↦ (head_setTag d tag).trans hd) rfl h

theorem head_ofGetters {classNode : Node} (h : ofGetters ctx classNode d = .ok d') : d'.head = d.head :=
  (keeps_head ctx d.head).ofGetters (fun d tag hd ↦ (head_setTag d tag).trans hd) rfl h

end Scan.Members

end PolymerAnalysis
