import PolymerAnalysis.Proofs.Except
import PolymerAnalysis.Proofs.Scan.Flags
import PolymerAnalysis.Scan.Heritage

namespace PolymerAnalysis

open Text

variable {ctx : ScanContext} {n m list core : Node} {name : Text}

namespace Scan

def named? (ctx : ScanContext) (n : Node) : Option Reference :=
  match n.identifierName with
  | .ok (some name) => some ⟨name, ctx.range n⟩
  | _ => none

def nameless? (ctx : ScanContext) (n : Node) : Option Warning :=
  match n.identifierName with
  | .ok none => some
    { code := "could-not-determine-behavior-name", severity := .warning, range := ctx.range n
      message := "Could not determine behavior name from expression of type " ++ Text.ofString n.kind }
  | _ => none

theorem reference_eq_ok (ctx : ScanContext) {o : Option Text} (h : n.identifierName = .ok o) :
    ∃ x, reference ctx n = .ok x ∧ x.getLeft? = named? ctx n ∧ x.getRight? = nameless? ctx n := by
  rw [reference, named?, nameless?, h]
  cases o <;> exact ⟨_, rfl, rfl, rfl⟩

theorem exists_lift_iff {α : Type} {x : Except EvalError α} : (∃ a, lift x = .ok a) ↔ ∃ a, x = .ok a := by
  cases x with
  | error e =>
    constructor
    all_goals
      rintro ⟨_, h⟩
      cases h
  | ok a => exact ⟨fun _ ↦ ⟨a, rfl⟩, fun _ ↦ ⟨a, rfl⟩⟩

theorem exists_reference_iff : (∃ x, reference ctx n = .ok x) ↔ ∃ o, n.identifierName = .ok o := by
  constructor
  · rintro ⟨x, h⟩
    obtain ⟨o, ho, -⟩ := exists_of_bind_eq_ok h
    exact exists_lift_iff.1 ⟨o, ho⟩
  · rintro ⟨o, ho⟩
    obtain ⟨x, hx, -⟩ := reference_eq_ok ctx ho
    exact ⟨x, hx⟩

theorem filterMap_of_mapM_reference {ns : List Node} {xs : List (Reference ⊕ Warning)}
    (h : ns.mapM (reference ctx) = .ok xs) : xs.filterMap (·.getLeft?) = ns.filterMap (named? ctx) ∧
      xs.filterMap (·.getRight?) = ns.filterMap (nameless? ctx) := by
  have hall := forall₂_of_mapM h
  clear h
  induction hall with
  | nil => exact ⟨rfl, rfl⟩
  | cons hx _ ih =>
    obtain ⟨o, ho⟩ := exists_reference_iff.1 ⟨_, hx⟩
    obtain ⟨y, hy, hleft, hright⟩ := reference_eq_ok ctx ho
    cases hx.symm.trans hy
    simp only [List.filterMap_cons, hleft, hright, ih, and_self]

end Scan

namespace Heritage

variable {apps : List Application} {r inner : Heritage}

/-- A mixin with the call that applies it, or the entries of a behavior mixin. -/
inductive Application
  | mixin (call : Node) (name : Text)
  | behaviors (entries : List Node)

namespace Application

def mixin? (ctx : ScanContext) : Application → Option Reference
  | mixin call name => some ⟨name, ctx.range call⟩
  | behaviors _ => none

def entries : Application → List Node
  | mixin _ _ => []
  | behaviors entries => entries

end Application

def entriesOf (list : Node) : List Node := if list.kind = "array" then list.parts else [list]

/-- The applications around a core, the outermost one first. The core is no call, or the call of something without
a name. -/
inductive Wraps : Node → List Application → Node → Prop
  | core {n : Node} (hcore : n.kind = "call_expression" → Node.identifierName? (n.child? "function") = .ok none) :
      Wraps n [] n
  | mixin {n m core : Node} {name : Text} {rest : List Node} {apps : List Application}
      (hkind : n.kind = "call_expression") (hname : Node.identifierName? (n.child? "function") = .ok (some name))
      (harguments : n.arguments = m :: rest) (hmixin : isBehaviorMixin name → rest.length ≠ 1)
      (hinner : Wraps m apps core) : Wraps n (.mixin n name :: apps) core
  | behaviors {n list m core : Node} {name : Text} {apps : List Application}
      (hkind : n.kind = "call_expression") (hname : Node.identifierName? (n.child? "function") = .ok (some name))
      (harguments : n.arguments = [list, m]) (hmixin : isBehaviorMixin name)
      (hinner : Wraps m apps core) : Wraps n (.behaviors (entriesOf list) :: apps) core

/-- The entries of all behavior mixins, those of the outermost one first. -/
def entries (apps : List Application) : List Node := apps.flatMap (·.entries)

theorem identifierName_call (h : n.kind = "call_expression") : n.identifierName = .ok none := by
  cases n
  cases h
  rw [Node.identifierName]
  simp [Node.keyKinds]

theorem ofPart_eq (i : Nat) (ns : List Node) : ofPart ctx i ns =
    match (ns.filter fun n ↦ n.named && !n.isComment)[i]? with
    | some n => analyze ctx n
    | none => .ok {} := by
  induction ns generalizing i with
  | nil => rw [ofPart]; rfl
  | cons n ns ih =>
    rw [ofPart.eq_def, List.filter_cons]
    cases hnamed : n.named with
    | false => simp [hnamed, ih]
    | true =>
      cases hcomment : n.isComment with
      | true => simp [hnamed, hcomment, ih]
      | false => cases i <;> simp [hnamed, hcomment, ih]

theorem ofArgument_eq (i : Nat) : ofArgument ctx i n.children =
    match n.arguments[i]? with
    | some m => analyze ctx m
    | none => .ok {} := by
  have hparts (a : Node) : a.parts = a.children.filter fun n ↦ n.named && !n.isComment := by
    simp only [Node.parts, Node.namedChildren, List.filter_filter, Node.isComment, Bool.and_comm, decide_not]
  rw [Node.arguments, Node.child?]
  induction n.children with
  | nil => rw [ofArgument]; rfl
  | cons a ns ih =>
    have hcons : ofArgument ctx i (a :: ns) =
        if a.field = some "arguments" then ofPart ctx i a.children else ofArgument ctx i ns := by
      cases a
      rw [ofArgument]
      rfl
    rw [hcons]
    by_cases h : a.field = some "arguments"
    · simp [h, ofPart_eq, hparts]
    · simp [h, ih]

theorem analyze_core (h : n.kind = "call_expression" → Node.identifierName? (n.child? "function") = .ok none) :
    analyze ctx n = (fun o ↦ { superclass := o }) <$> Scan.lift n.identifierName := by
  by_cases hkind : n.kind = "call_expression"
  · rw [identifierName_call hkind]
    have hname := h hkind
    cases n
    rw [analyze, if_neg (by simpa [Node.kind] using hkind), hname]
    rfl
  · cases n
    rw [analyze, if_pos (by simpa [Node.kind] using hkind)]
    rfl

theorem analyze_mixin (hkind : n.kind = "call_expression")
    (hname : Node.identifierName? (n.child? "function") = .ok (some name))
    {rest : List Node} (harguments : n.arguments = m :: rest) (hmixin : isBehaviorMixin name → rest.length ≠ 1) :
    analyze ctx n =
      (fun inner ↦ { inner with mixins := inner.mixins ++ [⟨name, ctx.range n⟩] }) <$> analyze ctx m := by
  have hinner : ofArgument ctx 0 n.children = analyze ctx m := by rw [ofArgument_eq, harguments]; rfl
  obtain ⟨kind, field, named, missing, start, stop, text, children⟩ := n
  rw [analyze, if_neg (by simpa [Node.kind] using hkind), hname]
  simp only [Node.children] at hinner
  simp only [Scan.lift, Except.mapError, bind, Except.bind, harguments, hinner]
  split
  · simp_all
  · rfl

theorem analyze_behaviors (hkind : n.kind = "call_expression")
    (hname : Node.identifierName? (n.child? "function") = .ok (some name))
    (harguments : n.arguments = [list, m]) (hmixin : isBehaviorMixin name) :
    analyze ctx n = (do
      let (behaviors, warnings) ← listed ctx list
      let inner ← analyze ctx m
      pure { inner with behaviors := behaviors ++ inner.behaviors, warnings := warnings ++ inner.warnings }) := by
  have hinner : ofArgument ctx 1 n.children = analyze ctx m := by rw [ofArgument_eq, harguments]; rfl
  obtain ⟨kind, field, named, missing, start, stop, text, children⟩ := n
  rw [analyze, if_neg (by simpa [Node.kind] using hkind), hname]
  simp only [Node.children] at hinner
  simp only [Scan.lift, Except.mapError, bind, Except.bind, harguments, hmixin, hinner]

theorem exists_listed_iff :
    (∃ x, listed ctx list = .ok x) ↔ ∀ m ∈ entriesOf list, ∃ o, m.identifierName = .ok o := by
  rw [listed, bind_pure_comp]
  refine exists_map_iff.trans (exists_mapM_iff.trans ?_)
  exact forall₂_congr fun m _ ↦ Scan.exists_reference_iff

theorem eq_of_listed {x : List Reference × List Warning} (h : listed ctx list = .ok x) :
    x = ((entriesOf list).filterMap (Scan.named? ctx), (entriesOf list).filterMap (Scan.nameless? ctx)) := by
  rw [listed, bind_pure_comp] at h
  obtain ⟨xs, hxs, rfl⟩ := exists_of_map_eq_ok h
  obtain ⟨hnamed, hnameless⟩ := Scan.filterMap_of_mapM_reference hxs
  exact Prod.ext hnamed hnameless

namespace Wraps

theorem exists_analyze_iff (h : Wraps n apps core) : (∃ r, analyze ctx n = .ok r) ↔
    ∀ m ∈ core :: entries apps, ∃ o, m.identifierName = .ok o := by
  induction h with
  | core hcore =>
    rw [analyze_core hcore]
    refine exists_map_iff.trans (Scan.exists_lift_iff.trans ?_)
    simp [entries]
  | mixin hkind hname harguments hmixin _ ih =>
    rw [analyze_mixin hkind hname harguments hmixin]
    exact exists_map_iff.trans ih
  | @behaviors n list m core name apps hkind hname harguments hmixin _ ih =>
    rw [analyze_behaviors hkind hname harguments hmixin]
    have hentries : entries (.behaviors (entriesOf list) :: apps) = entriesOf list ++ entries apps := rfl
    simp only [hentries, List.mem_cons, List.mem_append, or_left_comm (a := _ = core)]
    constructor
    · rintro ⟨r, hr⟩ m' (hm | hm)
      · obtain ⟨x, hx, -⟩ := exists_of_bind_eq_ok hr
        exact exists_listed_iff.1 ⟨x, hx⟩ m' hm
      · obtain ⟨x, -, hr⟩ := exists_of_bind_eq_ok hr
        obtain ⟨inner, hinner, -⟩ := exists_of_bind_eq_ok hr
        exact ih.1 ⟨inner, hinner⟩ m' (List.mem_cons.2 hm)
    · intro hall
      obtain ⟨x, hx⟩ := exists_listed_iff.2 fun m' hm ↦ hall m' (.inl hm)
      obtain ⟨inner, hinner⟩ := ih.2 fun m' hm ↦ hall m' (.inr (List.mem_cons.1 hm))
      rw [hx, hinner]
      exact ⟨_, rfl⟩

theorem analyze_eq_ok (h : Wraps n apps core) (hr : analyze ctx n = .ok r) :
    ∃ o, core.identifierName = .ok o ∧ r =
      { mixins := apps.reverse.filterMap (·.mixin? ctx)
        behaviors := (entries apps).filterMap (Scan.named? ctx)
        superclass := o
        warnings := (entries apps).filterMap (Scan.nameless? ctx) } := by
  induction h generalizing r with
  | core hcore =>
    rw [analyze_core hcore] at hr
    obtain ⟨o, ho, rfl⟩ := exists_of_map_eq_ok hr
    obtain ⟨o', ho'⟩ := Scan.exists_lift_iff.1 ⟨o, ho⟩
    rw [ho'] at ho
    cases ho
    exact ⟨o, ho', rfl⟩
  | mixin hkind hname harguments hmixin _ ih =>
    rw [analyze_mixin hkind hname harguments hmixin] at hr
    obtain ⟨inner, hinner, rfl⟩ := exists_of_map_eq_ok hr
    obtain ⟨o, ho, rfl⟩ := ih hinner
    exact ⟨o, ho, by simp [Application.mixin?, entries, Application.entries]⟩
  | behaviors hkind hname harguments hmixin _ ih =>
    rw [analyze_behaviors hkind hname harguments hmixin] at hr
    obtain ⟨x, hx, hr⟩ := exists_of_bind_eq_ok hr
    obtain ⟨inner, hinner, hr⟩ := exists_of_bind_eq_ok hr
    obtain ⟨o, ho, rfl⟩ := ih hinner
    cases eq_of_listed hx
    cases hr
    exact ⟨o, ho, by simp [Application.mixin?, entries, Application.entries]⟩

end Wraps

theorem entries_reverse (h : (apps.filter fun a ↦ !a.entries.isEmpty).length ≤ 1) :
    entries apps.reverse = entries apps := by
  have hfilter (as : List Application) : entries (as.filter fun a ↦ !a.entries.isEmpty) = entries as := by
    induction as with
    | nil => rfl
    | cons a as ih =>
      by_cases ha : a.entries = []
      · simpa [entries, ha] using ih
      · simpa [entries, ha] using ih
  rw [← hfilter apps.reverse, ← hfilter apps, List.filter_reverse]
  generalize apps.filter (fun a ↦ !a.entries.isEmpty) = listing at h
  match listing, h with
  | [], _ => rfl
  | [_], _ => rfl

/-- A class has the mixins of its chain from the innermost one to the outermost, and the name of the core. Its behaviors
are those of the outermost list first, each list in its order, with a warning instead of each that has no name. So they
stand from the innermost to the outermost where only one application lists any. -/
theorem analyze_chain (h : Wraps n apps core) (ctx : ScanContext) :
    ((∃ r, analyze ctx n = .ok r) ↔ ∀ m ∈ core :: entries apps, ∃ o, m.identifierName = .ok o) ∧
      ∀ r, analyze ctx n = .ok r →
        r.mixins = apps.reverse.filterMap (·.mixin? ctx) ∧
          r.behaviors = (entries apps).filterMap (Scan.named? ctx) ∧
          r.warnings = (entries apps).filterMap (Scan.nameless? ctx) ∧
          core.identifierName = .ok r.superclass ∧
          ((apps.filter fun a ↦ !a.entries.isEmpty).length ≤ 1 →
            r.behaviors = (entries apps.reverse).filterMap (Scan.named? ctx)) := by
  refine ⟨h.exists_analyze_iff, fun r hr ↦ ?_⟩
  obtain ⟨o, ho, rfl⟩ := h.analyze_eq_ok hr
  exact ⟨rfl, rfl, rfl, ho, fun hone ↦ by rw [entries_reverse hone]⟩

def word (field : Option String) (start : Nat) (name : Text) : Node :=
  .mk "identifier" field true false start (start + name.length) name []

def applied (start : Nat) (name : Text) (inner : Node) : Node :=
  .mk "call_expression" none true false start (inner.stop + 1) (name ++ "(" ++ inner.text ++ ")") [
    word (some "function") start name,
    .mk "arguments" (some "arguments") true false (start + name.length) (inner.stop + 1) ("(" ++ inner.text ++ ")") [
      .mk "(" none false false (start + name.length) (start + name.length + 1) "(" [], inner,
      .mk ")" none false false inner.stop (inner.stop + 1) ")" []]]

def single (start : Nat) (behavior : Text) : Node :=
  .mk "array" none true false start (start + behavior.length + 2) ("[" ++ behavior ++ "]") [
    .mk "[" none false false start (start + 1) "[" [],
    word none (start + 1) behavior,
    .mk "]" none false false (start + behavior.length + 1) (start + behavior.length + 2) "]" []]

def listing (start : Nat) (behavior : Text) (inner : Node) : Node :=
  let list := single (start + 15) behavior
  let arguments := "(" ++ list.text ++ ", " ++ inner.text ++ ")"
  .mk "call_expression" none true false start (inner.stop + 1) ("mixinBehaviors" ++ arguments) [
    word (some "function") start "mixinBehaviors",
    .mk "arguments" (some "arguments") true false (start + 14) (inner.stop + 1) arguments [
      .mk "(" none false false (start + 14) (start + 15) "(" [], list,
      .mk "," none false false list.stop (list.stop + 1) "," [], inner,
      .mk ")" none false false inner.stop (inner.stop + 1) ")" []]]

theorem listing_wraps {start : Nat} {behavior : Text}
    (harguments : (listing start behavior n).arguments = [single (start + 15) behavior, n]) (h : Wraps n apps core) :
    Wraps (listing start behavior n) (.behaviors [word none (start + 16) behavior] :: apps) core := by
  have hname : Node.identifierName? ((listing start behavior n).child? "function") = .ok (some "mixinBehaviors") := rfl
  have hwraps := Wraps.behaviors rfl hname harguments rfl h
  exact hwraps

/-- `First(mixinBehaviors([Own], Second(Base)))` -/
def interleaved : Node := applied 0 "First" (listing 6 "Own" (applied 28 "Second" (word none 35 "Base")))

theorem interleaved_analyzed : (∃ r, analyze placeless interleaved = .ok r) ∧
    ∀ r, analyze placeless interleaved = .ok r → r.mixins = [⟨"Second", none⟩, ⟨"First", none⟩] ∧
      r.behaviors = [⟨"Own", none⟩] ∧ r.warnings = [] ∧ r.superclass = some "Base" := by
  let base := word none 35 "Base"
  let second := applied 28 "Second" base
  have hbase : Wraps base [] base := .core (by decide)
  have hsecond : Wraps second [.mixin second "Second"] base := .mixin rfl rfl rfl (by decide) hbase
  have hlisting : Wraps (listing 6 "Own" second) [.behaviors [word none 22 "Own"], .mixin second "Second"] base :=
    listing_wraps rfl hsecond
  have hchain : Wraps interleaved [.mixin interleaved "First", .behaviors [word none 22 "Own"],
      .mixin second "Second"] base := .mixin rfl rfl rfl (by decide) hlisting
  obtain ⟨hexists, hall⟩ := analyze_chain hchain placeless
  refine ⟨hexists.2 ?_, fun r hr ↦ ?_⟩
  · intro m hm
    simp only [entries, Application.entries, List.flatMap_cons, List.flatMap_nil, List.append_nil, List.nil_append,
      List.mem_cons, List.not_mem_nil, or_false] at hm
    rcases hm with rfl | rfl
    · exact ⟨_, rfl⟩
    · exact ⟨_, rfl⟩
  · obtain ⟨hmixins, -, hwarnings, hcore, hone⟩ := hall r hr
    exact ⟨hmixins, hone (by decide), hwarnings, (Except.ok.inj hcore).symm⟩

/-- `mixinBehaviors([Outer], mixinBehaviors([Inner], Base))` -/
def nested : Node := listing 0 "Outer" (listing 24 "Inner" (word none 48 "Base"))

/-- Of two lists of behaviors, the one of the inner application comes last. -/
theorem nested_outermost_first : (∀ n ∈ nested.preorder, n.isFault = false) ∧
    Wraps nested [.behaviors [word none 16 "Outer"], .behaviors [word none 40 "Inner"]] (word none 48 "Base") ∧
      analyze placeless nested =
        .ok { behaviors := [⟨"Outer", none⟩, ⟨"Inner", none⟩], superclass := some "Base" } := by
  have hbase : Wraps (word none 48 "Base") [] (word none 48 "Base") := .core (by decide)
  have hinner : Wraps (listing 24 "Inner" (word none 48 "Base")) [.behaviors [word none 40 "Inner"]]
      (word none 48 "Base") := listing_wraps rfl hbase
  exact ⟨by decide, listing_wraps rfl hinner, rfl⟩

end Heritage

end PolymerAnalysis
