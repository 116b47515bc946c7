import PolymerAnalysis.Proofs.Keyed
import PolymerAnalysis.Proofs.Scan.Properties
import PolymerAnalysis.Proofs.Syntax.Evaluation

namespace PolymerAnalysis

open Text

variable {n m : Node} {v : Value}

namespace Value

/-- What a script takes the value for where it wants a boolean. Every object counts as true, an empty one too. -/
def toBoolean : Value → Bool
  | .null => false
  | .bool b => b
  | .int n => n ≠ 0
  | .float x => !x.isZero && x ≠ .nan
  | .text t => !t.isEmpty
  | .list _ => true
  | .dict _ => true
  | .unevaluated _ => true

def isHollow : Value → Bool
  | .list xs => xs.isEmpty
  | .dict es => es.isEmpty
  | _ => false

theorem truthy_eq (h : v ≠ .float .nan) : v.truthy = (v.toBoolean && !v.isHollow) := by
  cases v with
  | float x =>
    have hx : x ≠ .nan := fun heq ↦ h (congrArg Value.float heq)
    simp [truthy, toBoolean, isHollow, hx]
  | null | bool | int | text | list | dict | unevaluated => simp [truthy, toBoolean, isHollow]

end Value

def Node.Negates (n m : Node) : Prop := n.kind = "unary_expression" ∧
  (∃ operator, n.child? "operator" = some operator ∧ operator.text = "!") ∧ n.child? "argument" = some m

theorem Node.Negates.evaluate (h : n.Negates m) (hv : m.evaluate = .ok v) (hknown : v.isUnevaluated = false) :
    n.evaluate = .ok (.bool !v.truthy) := by
  obtain ⟨hkind, ⟨operator, hoperator, hnot⟩, hargument⟩ := h
  rw [evaluate_unary hkind, hoperator, hargument]
  simp only [hv, hnot]
  change Except.ok (if v.isUnevaluated then _ else _) = _
  rw [hknown, if_neg (by decide)]
  rfl

inductive Flag where
  | notify
  | readOnly
  | reflectToAttribute
deriving DecidableEq

namespace Flag

def key : Flag → Text
  | .notify => "notify"
  | .readOnly => "readOnly"
  | .reflectToAttribute => "reflectToAttribute"

def of (p : Property) : Flag → Bool
  | .notify => p.notify
  | .readOnly => p.readOnly
  | .reflectToAttribute => p.reflectToAttribute

end Flag

namespace Scan.Properties

open Keyed

variable {ctx : ScanContext} {o o' : Options} {pair : Node} {pairs : List Node} {f : Flag}

def keyOf (pair : Node) : Option Text :=
  match pair.memberName with
  | .ok key => key
  | .error _ => none

theorem flag_of_evaluate (hv : m.evaluate = .ok v) (hknown : v.isUnevaluated = false) : flag (some m) = .ok v.truthy := by
  rw [flag, Node.evaluate?, hv]
  change Except.ok (!v.isUnevaluated && v.truthy) = _
  rw [hknown, Bool.not_false, Bool.true_and]

/-- An option sets the flag that it has the key of, and no other. -/
theorem of_option (h : option ctx o pair = .ok o') (f : Flag) :
    (keyOf pair = some f.key → flag (pair.child? "value") = .ok (f.of o'.property)) ∧
      (keyOf pair ≠ some f.key → f.of o'.property = f.of o.property) := by
  obtain ⟨key, hname, hchanges⟩ := changes_of_option h
  rw [keyOf, hname]
  cases hchanges with
  | notify hb | readOnly hb | reflectToAttribute hb =>
    cases f
    all_goals
      first
      | exact ⟨fun _ ↦ hb, fun hne ↦ absurd rfl hne⟩
      | exact ⟨fun heq ↦ absurd heq (by decide), fun _ ↦ rfl⟩
  | type | observer | computed | default =>
    cases f
    all_goals exact ⟨fun heq ↦ absurd heq (by decide), fun _ ↦ rfl⟩
  | other hkey =>
    have hknown : f.key ∈ optionKeys := by cases f <;> decide
    exact ⟨fun heq ↦ absurd heq (hkey f.key hknown), fun _ ↦ rfl⟩

theorem computed_option (h : option ctx o pair = .ok o') :
    o'.computed = (o.computed || decide (keyOf pair = some "computed")) := by
  obtain ⟨key, hname, hchanges⟩ := changes_of_option h
  rw [keyOf, hname]
  cases hchanges with
  | computed => exact (Bool.or_true _).symm
  | other hkey =>
    have hne : key ≠ some "computed" := hkey "computed" (by decide)
    rw [decide_eq_false hne, Bool.or_false]
  | type | notify | readOnly | reflectToAttribute | observer | default =>
    rw [decide_eq_false (by decide), Bool.or_false]

/-- Of several options with one key the last one decides. -/
theorem of_options (h : pairs.foldlM (option ctx) o = .ok o') (f : Flag) :
    (∀ pair, last? keyOf (some f.key) pairs = some pair → flag (pair.child? "value") = .ok (f.of o'.property)) ∧
      (last? keyOf (some f.key) pairs = none → f.of o'.property = f.of o.property) := by
  induction pairs generalizing o with
  | nil =>
    cases h
    exact ⟨fun pair hpair ↦ (by cases hpair), fun _ ↦ rfl⟩
  | cons pair pairs ih =>
    rw [List.foldlM_cons] at h
    obtain ⟨o₁, hfirst, hrest⟩ := exists_of_bind_eq_ok h
    obtain ⟨hset, hkept⟩ := of_option hfirst f
    obtain ⟨hlast, hnone⟩ := ih hrest
    rw [last?_cons]
    cases hlater : last? keyOf (some f.key) pairs with
    | some later =>
      rw [Option.some_or]
      refine ⟨fun x hx ↦ ?_, fun hx ↦ by cases hx⟩
      cases hx
      exact hlast _ hlater
    | none =>
      rw [Option.none_or, hnone hlater]
      by_cases hkey : keyOf pair = some f.key
      · rw [if_pos hkey]
        refine ⟨fun x hx ↦ ?_, fun hx ↦ by cases hx⟩
        cases hx
        exact hset hkey
      · rw [if_neg hkey]
        exact ⟨fun x hx ↦ (by cases hx), fun _ ↦ hkept hkey⟩

theorem computed_options (h : pairs.foldlM (option ctx) o = .ok o') :
    o'.computed = (o.computed || pairs.any fun pair ↦ keyOf pair = some "computed") := by
  induction pairs generalizing o with
  | nil =>
    cases h
    exact (Bool.or_false _).symm
  | cons pair pairs ih =>
    rw [List.foldlM_cons] at h
    obtain ⟨o₁, hfirst, hrest⟩ := exists_of_bind_eq_ok h
    rw [ih hrest, computed_option hfirst, List.any_cons, Bool.or_assoc]

theorem of_withType (p : Property) (type : Option Text) (f : Flag) : f.of (withType p type) = f.of p := by
  unfold withType
  split
  · cases f <;> rfl
  · rfl

/-- The last option for a flag in the object that an entry has for its value. -/
def HasOption (entry : Node) (f : Flag) (value : Node) : Prop :=
  ∃ object, entry.child? "value" = some object ∧ object.kind = "object" ∧
    ∃ pair, last? keyOf (some f.key) object.pairs = some pair ∧ pair.child? "value" = some value

def isComputed (entry : Node) : Bool :=
  (entry.child? "value").any fun object ↦ object.pairs.any fun pair ↦ keyOf pair = some "computed"

theorem of_property? {entry : Cursor} {p : Property} (h : property? ctx entry = .ok (some p))
    (hoption : HasOption entry.node f m) :
    ∃ b, flag (some m) = .ok b ∧ f.of p = (b || f = .readOnly && isComputed entry.node) := by
  obtain ⟨object, hvalue, hobject, pair, hpair, hm⟩ := hoption
  cases declares_of_property? h with
  | named _ hvalue' hkind =>
    cases hvalue.symm.trans hvalue'
    exact absurd (hobject.symm.trans hkind) (by decide)
  | @options _ _ o _ hvalue' _ hoptions =>
    cases hvalue.symm.trans hvalue'
    have hcomputed : o.computed = isComputed entry.node := by
      rw [computed_options hoptions, Bool.false_or, isComputed, hvalue, Option.any_some]
    refine ⟨f.of o.property, hm ▸ (of_options hoptions f).1 pair hpair, ?_⟩
    rw [of_withType, ← hcomputed]
    cases o.computed <;> cases f <;> simp [Flag.of]

end Scan.Properties

open Scan.Properties in
/-- The operator `!` and the flags of properties agree with scripts on which values count as true, but for empty lists
and dictionaries, which they take for false. A computed property is read-only whatever its option says. -/
theorem truth_agrees (hv : m.evaluate = .ok v) (hknown : v.isUnevaluated = false) (hnumber : v ≠ .float .nan) :
    (∀ n : Node, n.Negates m → n.evaluate = .ok (.bool !(v.toBoolean && !v.isHollow))) ∧
      ∀ (ctx : ScanContext) (entry : Cursor) (p : Property) (f : Flag), property? ctx entry = .ok (some p) →
        HasOption entry.node f m →
          f.of p = ((v.toBoolean && !v.isHollow) || f = .readOnly && isComputed entry.node) := by
  rw [← Value.truthy_eq hnumber]
  refine ⟨fun n hn ↦ hn.evaluate hv hknown, fun ctx entry p f hp hoption ↦ ?_⟩
  obtain ⟨b, hb, hof⟩ := of_property? hp hoption
  rw [flag_of_evaluate hv hknown] at hb
  cases hb
  exact hof

def listOfEmpty : Node :=
  .mk "array" (some "value") true false 12 16 "['']" [
    .mk "[" none false false 12 13 "[" [],
    .mk "string" none true false 13 15 "''" [
      .mk "'" none false false 13 14 "'" [],
      .mk "'" none false false 14 15 "'" []],
    .mk "]" none false false 15 16 "]" []]

def notifying (value : Node) : Node :=
  .mk "pair" none true false 0 (value.stop + 1) ("p: \x7bnotify: " ++ value.text ++ "\x7d") [
    .mk "property_identifier" (some "key") true false 0 1 "p" [],
    .mk ":" none false false 1 2 ":" [],
    .mk "object" (some "value") true false 3 (value.stop + 1) ("\x7bnotify: " ++ value.text ++ "\x7d") [
      .mk "\x7b" none false false 3 4 "\x7b" [],
      .mk "pair" none true false 4 value.stop ("notify: " ++ value.text) [
        .mk "property_identifier" (some "key") true false 4 10 "notify" [],
        .mk ":" none false false 10 11 ":" [],
        value],
      .mk "\x7d" none false false value.stop (value.stop + 1) "\x7d" []]]

def placeless : ScanContext := ⟨"a.js", fun _ ↦ none⟩

open Scan.Properties in
theorem listOfEmpty_notifies : listOfEmpty.evaluate = .ok (.list [.text []]) ∧
    property? placeless (.root (notifying listOfEmpty)) = .ok (some { name := "p", notify := true }) ∧
      HasOption (notifying listOfEmpty) .notify listOfEmpty ∧
        Flag.of { name := "p", notify := true } .notify = true := by
  have hv : listOfEmpty.evaluate = .ok (.list [.text []]) := rfl
  have hp : property? placeless (.root (notifying listOfEmpty)) = .ok (some { name := "p", notify := true }) := rfl
  have hoption : HasOption (notifying listOfEmpty) .notify listOfEmpty := ⟨_, rfl, rfl, _, rfl, rfl⟩
  exact ⟨hv, hp, hoption, (truth_agrees hv rfl nofun).2 placeless _ _ .notify hp hoption⟩

def emptyList (field : String) : Node :=
  .mk "array" (some field) true false 12 14 "[]" [
    .mk "[" none false false 12 13 "[" [],
    .mk "]" none false false 13 14 "]" []]

def notEmptyList : Node :=
  .mk "unary_expression" none true false 11 14 "![]" [
    .mk "!" (some "operator") false false 11 12 "!" [],
    emptyList "argument"]

/-- An empty list counts as true in a script, but `!` makes true of it and an option with it is not set. -/
theorem emptyList_taken_for_false :
    (∀ n ∈ notEmptyList.preorder ++ (notifying (emptyList "value")).preorder, n.isFault = false) ∧
      (∀ field, (emptyList field).evaluate = .ok (.list [])) ∧ (Value.list []).toBoolean = true ∧
      notEmptyList.Negates (emptyList "argument") ∧ notEmptyList.evaluate = .ok (.bool true) ∧
      Scan.Properties.HasOption (notifying (emptyList "value")) .notify (emptyList "value") ∧
      Scan.Properties.property? placeless (.root (notifying (emptyList "value"))) =
        .ok (some { name := "p", notify := false }) :=
  ⟨by decide, fun _ ↦ rfl, rfl, ⟨rfl, ⟨_, rfl, rfl⟩, rfl⟩, rfl, ⟨_, rfl, rfl, _, rfl, rfl⟩, rfl⟩

end PolymerAnalysis
