import PolymerAnalysis.Proofs.Feature.Additions
import PolymerAnalysis.Proofs.Scan.Members
import Mathlib.Logic.Relation

namespace PolymerAnalysis

open Relation

variable {ctx : ScanContext} {d d' : Declaration}

def Property.IsAnalyzed (p : Property) : Prop :=
  ∃ ctx object ps, Scan.Properties.analyze ctx object = .ok ps ∧ p ∈ ps

namespace Declaration

inductive Adds : Declaration → Declaration → Prop
  | property (d : Declaration) {p : Property} : p.IsAnalyzed → Adds d (d.addProperty p)
  | behavior (d : Declaration) (r : Reference) : Adds d { d with behaviors := d.behaviors ++ [r] }
  | mixin (d : Declaration) (r : Reference) : Adds d (d.addMixin r)
  | observers (d : Declaration) (vs : List Value) : Adds d { d with observers := d.observers ++ vs }
  | listener (d : Declaration) (l : Listener) : Adds d { d with listeners := d.listeners ++ [l] }
  | event (d : Declaration) (e : Event) : Adds d (d.addEvent e)
  | warning (d : Declaration) (w : Warning) : Adds d (d.addWarning w)

theorem Adds.role_eq (h : d.Adds d') : d'.role = d.role := by
  cases h with
  | property => rw [addProperty_eq]
  | mixin => rw [addMixin_eq]
  | behavior | observers | listener | event | warning => rfl

theorem role_eq_of_adds (h : ReflTransGen Adds d d') : d'.role = d.role := by
  induction h with
  | refl => rfl
  | tail _ hstep ih => exact hstep.role_eq.trans ih

def IsAnalyzed (d : Declaration) : Prop := ∀ p ∈ d.properties, p.IsAnalyzed

theorem adds_foldl {α : Type} {step : Declaration → α → Declaration} {as : List α}
    (h : ∀ a ∈ as, ∀ d, Adds d (step d a)) (d : Declaration) : ReflTransGen Adds d (as.foldl step d) := by
  induction as generalizing d with
  | nil => exact .refl
  | cons a as ih =>
    rw [List.forall_mem_cons] at h
    exact .head (h.1 d) (ih h.2 _)

theorem adds_events (es : List Event) (d : Declaration) : ReflTransGen Adds d (es.foldl addEvent d) :=
  adds_foldl (fun e _ d ↦ .event d e) d

theorem adds_mixins (rs : List Reference) (d : Declaration) : ReflTransGen Adds d (d.addMixins rs) :=
  adds_foldl (fun r _ d ↦ .mixin d r) d

end Declaration

namespace Scan

namespace Members

open Declaration

theorem keeps_adds (ctx : ScanContext) (d : Declaration) : Keeps ctx (ReflTransGen Adds d) where
  property d' object ps _ hps hp h := h.tail (.property d' ⟨ctx, object, ps, hps, hp⟩)
  behavior d' r h := h.tail (.behavior d' r)
  observers d' vs h := h.tail (.observers d' vs)
  listener d' l h := h.tail (.listener d' l)
  warning d' w h := h.tail (.warning d' w)

/-- Every member other than `is` adds things. -/
theorem adds_apply {key : Text} {value : Node} (hkey : key ≠ "is") (h : apply ctx key value d = .ok d') :
    ReflTransGen Adds d d' :=
  (keeps_adds ctx d).apply hkey .refl h

end Members

end Scan

end PolymerAnalysis
