import PolymerAnalysis.Proofs.Except
import PolymerAnalysis.Scan.Properties

namespace PolymerAnalysis.Scan

theorem eq_ok_of_lift {α : Type} {x : Except EvalError α} {a : α} (h : lift x = .ok a) : x = .ok a := by
  cases x with
  | error e => cases h
  | ok b =>
    cases h
    rfl

namespace Properties

variable {ctx : ScanContext} {o o' : Options} {pair : Node} {entry : Cursor} {p : Property} {P : Property → Prop}

def optionKeys : List Text :=
  ["type", "notify", "readOnly", "reflectToAttribute", "observer", "computed", "value"]

inductive Changes (pair : Node) (o : Options) : Option Text → Options → Prop
  | type (name : Option Text) (ws : List Warning) : Changes pair o (some "type")
      { o with attributeType := name, property := { o.property with warnings := o.property.warnings ++ ws } }
  | notify {b : Bool} (h : flag (pair.child? "value") = .ok b) : Changes pair o (some "notify")
      { o with property := { o.property with notify := b } }
  | readOnly {b : Bool} (h : flag (pair.child? "value") = .ok b) : Changes pair o (some "readOnly")
      { o with property := { o.property with readOnly := b } }
  | reflectToAttribute {b : Bool} (h : flag (pair.child? "value") = .ok b) :
      Changes pair o (some "reflectToAttribute") { o with property := { o.property with reflectToAttribute := b } }
  | observer {t : Option Text} (h : static? (pair.child? "value") = .ok t) : Changes pair o (some "observer")
      { o with property := { o.property with observer := t } }
  | computed {t : Option Text} (h : static? (pair.child? "value") = .ok t) : Changes pair o (some "computed")
      { o with property := { o.property with computed := t }, computed := true }
  | default {v : Value} (h : Node.evaluate? (pair.child? "value") = .ok v) : Changes pair o (some "value")
      { o with property := { o.property with default := some v } }
  | other {key : Option Text} (h : ∀ name ∈ optionKeys, key ≠ some name) : Changes pair o key o

theorem changes_of_option (h : option ctx o pair = .ok o') :
    ∃ key, pair.memberName = .ok key ∧ Changes pair o key o' := by
  obtain ⟨key, hname, h⟩ := exists_of_bind_eq_ok h
  refine ⟨key, eq_ok_of_lift hname, ?_⟩
  dsimp only at h
  by_cases htype : key = some "type"
  · rw [if_pos htype] at h
    obtain ⟨name, -, h⟩ := exists_of_bind_eq_ok h
    cases h
    exact htype ▸ .type name _
  rw [if_neg htype] at h
  by_cases hnotify : key = some "notify"
  · rw [if_pos hnotify] at h
    obtain ⟨b, hb, h⟩ := exists_of_bind_eq_ok h
    cases h
    exact hnotify ▸ .notify hb
  rw [if_neg hnotify] at h
  by_cases hreadOnly : key = some "readOnly"
  · rw [if_pos hreadOnly] at h
    obtain ⟨b, hb, h⟩ := exists_of_bind_eq_ok h
    cases h
    exact hreadOnly ▸ .readOnly hb
  rw [if_neg hreadOnly] at h
  by_cases hreflect : key = some "reflectToAttribute"
  · rw [if_pos hreflect] at h
    obtain ⟨b, hb, h⟩ := exists_of_bind_eq_ok h
    cases h
    exact hreflect ▸ .reflectToAttribute hb
  rw [if_neg hreflect] at h
  by_cases hobserver : key = some "observer"
  · rw [if_pos hobserver] at h
    obtain ⟨t, ht, h⟩ := exists_of_bind_eq_ok h
    cases h
    exact hobserver ▸ .observer ht
  rw [if_neg hobserver] at h
  by_cases hcomputed : key = some "computed"
  · rw [if_pos hcomputed] at h
    obtain ⟨t, ht, h⟩ := exists_of_bind_eq_ok h
    cases h
    exact hcomputed ▸ .computed ht
  rw [if_neg hcomputed] at h
  by_cases hvalue : key = some "value"
  · rw [if_pos hvalue] at h
    obtain ⟨v, hv, h⟩ := exists_of_bind_eq_ok h
    cases h
    exact hvalue ▸ .default (eq_ok_of_lift hv)
  rw [if_neg hvalue] at h
  cases h
  refine .other ?_
  simp only [optionKeys, List.forall_mem_cons]
  exact ⟨htype, hnotify, hreadOnly, hreflect, hobserver, hcomputed, hvalue, fun _ hname ↦ by cases hname⟩

inductive Declares (ctx : ScanContext) (entry : Cursor) : Property → Prop
  | named {name : Text} {value : Node} (hname : entry.node.memberName = .ok (some name))
      (hvalue : entry.node.child? "value" = some value) (hkind : value.kind = "identifier") :
      Declares ctx entry (withType (declared ctx entry name) (some value.text))
  | options {name : Text} {object : Node} {o : Options} (hname : entry.node.memberName = .ok (some name))
      (hvalue : entry.node.child? "value" = some object) (hkind : object.kind = "object")
      (hoptions : object.pairs.foldlM (option ctx) { property := declared ctx entry name } = .ok o) :
      Declares ctx entry
        (withType (if o.computed then { o.property with readOnly := true } else o.property) o.attributeType)

theorem declares_of_property? (h : property? ctx entry = .ok (some p)) : Declares ctx entry p := by
  obtain ⟨key, hname, h⟩ := exists_of_bind_eq_ok h
  cases key with
  | none => cases h
  | some name =>
    have hname := eq_ok_of_lift hname
    dsimp only at h
    split at h
    · cases h
    · next value hvalue =>
      split at h
      · next hkind =>
        cases h
        exact .named hname hvalue hkind
      split at h
      · next hkind =>
        obtain ⟨o, ho, h⟩ := exists_of_bind_eq_ok h
        cases h
        exact .options hname hvalue hkind ho
      · cases h

theorem keeps_property? (hdeclared : ∀ name, P (declared ctx entry name))
    (hoption : ∀ o pair o', P o.property → option ctx o pair = .ok o' → P o'.property)
    (hreadOnly : ∀ p, P p → P { p with readOnly := true }) (htype : ∀ p type, P p → P { p with type })
    (h : property? ctx entry = .ok (some p)) : P p := by
  have hwith (p : Property) (type : Option Text) (hp : P p) : P (withType p type) := by
    unfold withType
    split
    · exact htype p _ hp
    · exact hp
  cases declares_of_property? h with
  | named => exact hwith _ _ (hdeclared _)
  | options _ _ _ hoptions =>
    have ho := keeps_foldlM (P := fun o ↦ P o.property) hoption (hdeclared _) hoptions
    refine hwith _ _ ?_
    split
    · exact hreadOnly _ ho
    · exact ho

theorem exists_of_mem_analyze {object : Node} {ps : List Property} (h : analyze ctx object = .ok ps) (hp : p ∈ ps) :
    ∃ entry, property? ctx entry = .ok (some p) := by
  obtain ⟨found, hfound, h⟩ := exists_of_bind_eq_ok h
  cases h
  obtain ⟨q, hq, rfl⟩ := List.mem_filterMap.1 hp
  obtain ⟨entry, -, hentry⟩ := exists_of_mem_mapM hfound hq
  exact ⟨entry, hentry⟩

end Properties

end PolymerAnalysis.Scan
