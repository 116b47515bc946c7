import PolymerAnalysis.Proofs.Scan.Gathering
import PolymerAnalysis.Proofs.Scan.Heritage
import PolymerAnalysis.Proofs.Scan.Members
import PolymerAnalysis.Proofs.Syntax.Places

namespace PolymerAnalysis

open Text

variable {ctx : ScanContext} {b : Binding} {docs : Documentation} {name : Text} {v : Node} {place first : Cursor}

namespace Binding

def orFunction? (c : Cursor) : Option Binding :=
  if c.node.kind = "function_declaration" then some (ofFunction c) else at? c

def allWithFunctions (root : Node) : List Binding := (Walk.places [] root).filterMap orFunction?

theorem at_functionHooks (look : Binding → Findings → Except Failure Findings) (f : Findings) (c : Cursor) :
    Hook.at (hooks look ++ [("function_declaration", fun c f ↦ look (ofFunction c) f)]) f c =
      match orFunction? c with
      | some b => look b f
      | none => .ok f := by
  by_cases h : c.node.kind = "function_declaration"
  · have hfunction : orFunction? c = some (ofFunction c) := if_pos h
    rw [Hook.at, h, hfunction]
    rfl
  · have hlookup (own : Hook) : (hooks look ++ [("function_declaration", own)]).lookup c.node.kind =
        (hooks look).lookup c.node.kind := by
      rw [List.lookup_append, List.lookup_cons, beq_eq_false_iff_ne.2 h]
      exact Option.or_none
    rw [orFunction?, if_neg h]
    refine Eq.trans ?_ (at_hooks look f c)
    simp only [Hook.at, hlookup]

/-- A statement with the documentation of a mixin and a value that is no class itself. -/
structure IsMixin (b : Binding) (docs : Documentation) (v : Node) : Prop where
  docs_eq : Scan.docsOf b.comment = some docs
  tagged : Scan.Mixins.isMixin docs
  value_eq : b.value = some v
  not_class : v.isClass = false

end Binding

namespace Cursor

def functionKinds : List String :=
  ["function", "function_expression", "arrow_function", "function_declaration", "generator_function",
    "generator_function_declaration"]

/-- A function is at the place, or is passed to a call there, which may be passed to another one in turn. -/
inductive Holds : Cursor → Cursor → Prop
  | function {f : Cursor} (hkind : f.node.kind ∈ functionKinds) : Holds f f
  | call {c list argument f : Cursor} (hkind : c.node.kind = "call_expression") (hlist : c.child? "arguments" = some list)
      (hargument : argument ∈ list.parts) (h : Holds argument f) : Holds c f

/-- The class that an expression stands for: its own, or one that the body of the function declares by that name. -/
inductive Denotes (body : Cursor) : Cursor → Cursor → Prop
  | expression {e : Cursor} (hkind : e.node.kind = "class") : Denotes body e e
  | declared {e place : Cursor} {name : Node} (hkind : e.node.kind = "identifier") (hplace : place ∈ body.namedChildren)
      (hclass : place.node.kind = "class_declaration") (hname : place.node.child? "name" = some name)
      (htext : name.text = e.node.text) : Denotes body e place
  | parenthesized {e inner place : Cursor} (hkind : e.node.kind = "parenthesized_expression") (hinner : inner ∈ e.parts)
      (h : Denotes body inner place) : Denotes body e place

/-- The class at a place is the one that the function in a value returns. -/
def IsReturned (v : Node) (place : Cursor) : Prop :=
  ∃ f body e, (root v).Holds f ∧ f.child? "body" = some body ∧ f.returned? = some e ∧ body.Denotes e place

def IsFirstClass (v : Node) (place : Cursor) : Prop := IsFirst (·.node.isClass) (root v).preorder place

variable {c r f body e : Cursor}

theorem Holds.mem_preorder (h : Holds c f) (hc : c ∈ r.preorder) : f ∈ r.preorder := by
  induction h with
  | function => exact hc
  | call _ hlist hargument _ ih =>
    exact ih (child_mem_preorder (child_mem_preorder hc (mem_children_of_child? hlist))
      (mem_children_of_mem_parts hargument))

theorem Denotes.mem_preorder (h : Denotes body e place) (hbody : body ∈ r.preorder) (he : e ∈ r.preorder) :
    place ∈ r.preorder := by
  induction h with
  | expression => exact he
  | declared _ hplace => exact child_mem_preorder hbody (mem_children_of_mem_namedChildren hplace)
  | parenthesized _ hinner _ ih => exact ih (child_mem_preorder he (mem_children_of_mem_parts hinner))

theorem Denotes.isClass (h : Denotes body e place) : place.node.isClass := by
  induction h with
  | expression hkind =>
    rw [Node.isClass, hkind]
    rfl
  | declared _ _ hclass =>
    rw [Node.isClass, hclass]
    rfl
  | parenthesized _ _ _ ih => exact ih

theorem IsReturned.exists_isFirstClass (h : IsReturned v place) : ∃ first, IsFirstClass v first := by
  obtain ⟨f, body, e, hholds, hbody, hreturned, hdenotes⟩ := h
  have hf := hholds.mem_preorder (self_mem_preorder (root v))
  have hbelow := child_mem_preorder hf (mem_children_of_child? hbody)
  have hplace := hdenotes.mem_preorder hbelow (returned_mem_preorder hf hreturned)
  exact exists_isFirst ⟨place, hplace, hdenotes.isClass⟩

/-- What the function returns at its place is what its node returns, by which static getters are read. -/
theorem IsReturned.exists_node_returned (h : IsReturned v place) : ∃ f body e : Cursor, (root v).Holds f ∧
    f.node.child? "body" = some body.node ∧ f.node.returned? = some e.node ∧ body.Denotes e place := by
  obtain ⟨f, body, e, hholds, hbody, hreturned, hdenotes⟩ := h
  refine ⟨f, body, e, hholds, ?_, ?_, hdenotes⟩
  · rw [← node_child?, hbody, Option.map_some]
  · rw [← node_returned?, hreturned, Option.map_some]

end Cursor

namespace Scan.Mixins

open Cursor

def opened (ctx : ScanContext) (b : Binding) (docs : Documentation) (name : Text) (place : Cursor)
    (heritage : Heritage) : Declaration :=
  let range := ctx.range b.statement.node
  let d := { Behaviors.start ctx .mixin name docs b.statement.node with
    warnings := heritage.warnings, behaviors := heritage.behaviors }
  ((d.addMixins heritage.mixins).addMixins (mixinsOfDocs (some docs) range)).addMixins
    (mixinsOfDocs (docsOf place.docComment?) range)

def events (ctx : ScanContext) (b : Binding) (docs : Documentation) (place : Cursor) : List Event :=
  eventsOfDocs (some docs) (ctx.range b.statement.node) ++ eventsBelow ctx place.node

def ofClass (ctx : ScanContext) (b : Binding) (docs : Documentation) (name : Text) (place : Cursor) :
    Except Failure Declaration := do
  let heritage ← Heritage.ofClass ctx place.node
  let d ← Members.ofGetters ctx place.node (opened ctx b docs name place heritage)
  pure ((events ctx b docs place).foldl Declaration.addEvent d)

inductive Finds (ctx : ScanContext) (b : Binding) : List ScannedFeature → Prop
  | mixin {docs : Documentation} {v : Node} {first : Cursor} {name : Text} {d : Declaration} (h : b.IsMixin docs v)
      (hfirst : IsFirstClass v first) (hname : Behaviors.name? docs "mixinFunction" b.name = .ok (some name))
      (hd : ofClass ctx b docs name first = .ok d) : Finds ctx b [.declaration d]
  | nameless {docs : Documentation} {v : Node} {first : Cursor} (h : b.IsMixin docs v) (hfirst : IsFirstClass v first)
      (hname : Behaviors.name? docs "mixinFunction" b.name = .ok none) : Finds ctx b []
  | classless {docs : Documentation} {v : Node} (h : b.IsMixin docs v) (hclass : ∀ first, ¬IsFirstClass v first) :
      Finds ctx b []
  | other (h : ∀ docs v, ¬b.IsMixin docs v) : Finds ctx b []

theorem look_of_isMixin (h : b.IsMixin docs v) (f : Findings) : look ctx b f =
    match (root v).preorder.find? (·.node.isClass) with
    | none => .ok f
    | some first => Behaviors.name? docs "mixinFunction" b.name >>= fun o ↦ match o with
      | none => .ok f
      | some name => (fun d ↦ f.add (.declaration d)) <$> ofClass ctx b docs name first := by
  have hdocs : b.comment.map Documentation.ofComment = some docs := h.docs_eq
  have hmixin : (!isMixin docs || v.isClass) = false := by rw [h.tagged, h.not_class]; rfl
  rw [look, hdocs, h.value_eq]
  simp only [hmixin, Bool.false_eq_true, if_false]
  cases (root v).preorder.find? (·.node.isClass) with
  | none => rfl
  | some first =>
    refine bind_congr fun o ↦ ?_
    cases o with
    | none => rfl
    | some name =>
      dsimp only
      rw [ofClass, map_bind]
      refine bind_congr fun heritage ↦ ?_
      rw [map_bind]
      rfl

theorem look_of_not (h : ∀ docs v, ¬b.IsMixin docs v) (f : Findings) : look ctx b f = .ok f := by
  rw [look]
  split
  · next docs v hdocs hvalue =>
    rw [if_pos]
    by_contra hmixin
    simp only [Bool.or_eq_true, Bool.not_eq_true', not_or, Bool.not_eq_false, Bool.not_eq_true] at hmixin
    exact h docs v ⟨hdocs, hmixin.1, hvalue, hmixin.2⟩
  · rfl

theorem look_of_isFirst (h : b.IsMixin docs v) (hfirst : IsFirstClass v first) (f : Findings) : look ctx b f =
    Behaviors.name? docs "mixinFunction" b.name >>= fun o ↦ match o with
      | none => .ok f
      | some name => (fun d ↦ f.add (.declaration d)) <$> ofClass ctx b docs name first := by
  rw [look_of_isMixin h, isFirst_iff.1 hfirst]

theorem look_of_classless (h : b.IsMixin docs v) (hclass : ∀ first, ¬IsFirstClass v first) (f : Findings) :
    look ctx b f = .ok f := by
  have hnone : (root v).preorder.find? (·.node.isClass) = none :=
    Option.eq_none_iff_forall_ne_some.2 fun first hfirst ↦ hclass first (isFirst_iff.2 hfirst)
  rw [look_of_isMixin h, hnone]

theorem look_of_named (h : b.IsMixin docs v) (hfirst : IsFirstClass v first)
    (hname : Behaviors.name? docs "mixinFunction" b.name = .ok (some name)) (f : Findings) :
    look ctx b f = (fun d ↦ f.add (.declaration d)) <$> ofClass ctx b docs name first := by
  rw [look_of_isFirst h hfirst, hname]
  rfl

theorem look_of_nameless (h : b.IsMixin docs v) (hfirst : IsFirstClass v first)
    (hname : Behaviors.name? docs "mixinFunction" b.name = .ok none) (f : Findings) : look ctx b f = .ok f := by
  rw [look_of_isFirst h hfirst, hname]
  rfl

/-- A statement binds a mixin with a class in it, a mixin without a class, or no mixin. -/
theorem mixin_cases (b : Binding) : (∃ docs v first, b.IsMixin docs v ∧ IsFirstClass v first) ∨
    (∃ docs v, b.IsMixin docs v ∧ ∀ first, ¬IsFirstClass v first) ∨ ∀ docs v, ¬b.IsMixin docs v := by
  by_cases h : ∃ docs v, b.IsMixin docs v
  · obtain ⟨docs, v, h⟩ := h
    by_cases hclass : ∃ first, IsFirstClass v first
    · obtain ⟨first, hfirst⟩ := hclass
      exact .inl ⟨docs, v, first, h, hfirst⟩
    · exact .inr (.inl ⟨docs, v, h, not_exists.1 hclass⟩)
  · exact .inr (.inr fun docs v hb ↦ h ⟨docs, v, hb⟩)

/-- What has been found before does not matter for what is found at a statement. -/
theorem look_eq (f : Findings) (b : Binding) : look ctx b f =
    ((look ctx b {}).map (·.features)).map fun xs ↦ { f with features := f.features ++ xs } := by
  have hsame : (.ok f : Except Failure Findings) = .ok { f with features := f.features ++ [] } :=
    congrArg Except.ok (congrArg (Findings.mk · f.tags) (List.append_nil f.features).symm)
  obtain ⟨docs, v, first, h, hfirst⟩ | ⟨docs, v, h, hclass⟩ | hnot := mixin_cases b
  · cases hname : Behaviors.name? docs "mixinFunction" b.name with
    | error e =>
      rw [look_of_isFirst h hfirst, look_of_isFirst h hfirst, hname]
      rfl
    | ok o =>
      cases o with
      | none =>
        rw [look_of_nameless h hfirst hname, look_of_nameless h hfirst hname]
        exact hsame
      | some name =>
        rw [look_of_named h hfirst hname, look_of_named h hfirst hname]
        cases ofClass ctx b docs name first <;> rfl
  · rw [look_of_classless h hclass, look_of_classless h hclass]
    exact hsame
  · rw [look_of_not hnot, look_of_not hnot]
    exact hsame

theorem finds_iff {part : List ScannedFeature} :
    Finds ctx b part ↔ (look ctx b {}).map (·.features) = .ok part := by
  constructor
  · intro h
    cases h with
    | mixin h hfirst hname hd =>
      rw [look_of_named h hfirst hname, hd]
      rfl
    | nameless h hfirst hname =>
      rw [look_of_nameless h hfirst hname]
      rfl
    | classless h hclass =>
      rw [look_of_classless h hclass]
      rfl
    | other h =>
      rw [look_of_not h]
      rfl
  · intro hlook
    obtain ⟨docs, v, first, h, hfirst⟩ | ⟨docs, v, h, hclass⟩ | hnot := mixin_cases b
    · rw [look_of_isFirst h hfirst] at hlook
      obtain ⟨g, hg, rfl⟩ := exists_of_map_eq_ok hlook
      obtain ⟨o, hname, hg⟩ := exists_of_bind_eq_ok hg
      cases o with
      | none =>
        cases hg
        exact .nameless h hfirst hname
      | some name =>
        obtain ⟨d, hd, rfl⟩ := exists_of_map_eq_ok hg
        exact .mixin h hfirst hname hd
    · rw [look_of_classless h hclass] at hlook
      cases hlook
      exact .classless h hclass
    · rw [look_of_not hnot] at hlook
      cases hlook
      exact .other hnot

theorem head_ofClass {d : Declaration} (h : ofClass ctx b docs name place = .ok d) :
    d.head = (Behaviors.start ctx .mixin name docs b.statement.node).head := by
  obtain ⟨heritage, -, h⟩ := exists_of_bind_eq_ok h
  obtain ⟨members, hmembers, h⟩ := exists_of_bind_eq_ok h
  cases h
  rw [Declaration.head_foldl Declaration.head_addEvent, Members.head_ofGetters hmembers, opened,
    Declaration.head_addMixins, Declaration.head_addMixins, Declaration.head_addMixins]
  rfl

theorem scan_eq_ok_iff (d : ParsedDocument) {features : List ScannedFeature} :
    d.scan [.mixins] = .ok features ↔ ∃ parts, features = parts.flatten ∧
      List.Forall₂ (Finds d.context) (Binding.allWithFunctions d.root) parts := by
  have hscan : d.scan [.mixins] = ((Binding.allWithFunctions d.root).mapM fun b ↦
      (look d.context b {}).map (·.features)).map List.flatten := by
    rw [ParsedDocument.scan_ofHooks rfl, Hook.foldlM_at (Binding.at_functionHooks (look d.context)),
      ← Binding.allWithFunctions, Findings.foldlM_add look_eq]
    cases (Binding.allWithFunctions d.root).mapM fun b ↦ (look d.context b {}).map (·.features) with
    | error e => rfl
    | ok parts => exact congrArg Except.ok (List.nil_append _)
  rw [hscan]
  constructor
  · intro h
    obtain ⟨parts, hparts, rfl⟩ := exists_of_map_eq_ok h
    exact ⟨parts, rfl, (forall₂_of_mapM hparts).imp fun _ _ ↦ finds_iff.2⟩
  · rintro ⟨parts, rfl, hparts⟩
    rw [mapM_of_forall₂ (hparts.imp fun _ _ ↦ finds_iff.1)]
    rfl

/-- A scan for mixins finds what there is at each statement, and breaks off where nothing can be said of one. A mixin
whose function returns a class has the members of the first class in its value, which is the returned one if no other
class is before it. -/
theorem mixins_scanned (d : ParsedDocument) :
    (∀ features, d.scan [.mixins] = .ok features ↔ ∃ parts, features = parts.flatten ∧
      List.Forall₂ (Finds d.context) (Binding.allWithFunctions d.root) parts) ∧
    ∀ b docs v name place part, b.IsMixin docs v → IsReturned v place →
      Behaviors.name? docs "mixinFunction" b.name = .ok (some name) → Finds d.context b part →
      ∃ first x, IsFirstClass v first ∧ (first = place ↔ IsFirstClass v place) ∧ part = [.declaration x] ∧
        ofClass d.context b docs name first = .ok x ∧ x.role = .mixin ∧ x.name = some name ∧ x.docs = some docs ∧
        x.range = d.context.range b.statement.node := by
  refine ⟨fun _ ↦ scan_eq_ok_iff d, fun b docs v name place part h hreturned hname hpart ↦ ?_⟩
  obtain ⟨first, hfirst⟩ := hreturned.exists_isFirstClass
  have hiff : first = place ↔ IsFirstClass v place := ⟨fun heq ↦ heq ▸ hfirst, fun hplace ↦ hfirst.unique hplace⟩
  rw [finds_iff, look_of_named h hfirst hname] at hpart
  obtain ⟨g, hg, rfl⟩ := exists_of_map_eq_ok hpart
  obtain ⟨x, hx, rfl⟩ := exists_of_map_eq_ok hg
  have hhead := head_ofClass hx
  have hrole : x.role = .mixin :=
    Declaration.role_eq_of_head (fun _ _ h ↦ by cases h) (congrArg Declaration.role hhead)
  exact ⟨first, x, hfirst, hiff, rfl, hx, hrole, congrArg Declaration.name hhead, congrArg Declaration.docs hhead,
    congrArg Declaration.range hhead⟩

/-- The class `class name extends mixin(b) \x7b\x7d`. -/
def extending (start : Nat) (name mixin : Text) : Node :=
  let core := start + name.length + 15
  let base := Heritage.applied core mixin (Heritage.word none (core + mixin.length + 1) "b")
  let text := "class " ++ name ++ " extends " ++ base.text ++ " \x7b\x7d"
  .mk "class_declaration" none true false start (base.stop + 3) text [
    .mk "class" none false false start (start + 5) "class" [],
    Heritage.word (some "name") (start + 6) name,
    .mk "class_heritage" none true false (core - 8) base.stop ("extends " ++ base.text) [
      .mk "extends" none false false (core - 8) (core - 1) "extends" [], base],
    .mk "class_body" (some "body") true false (base.stop + 1) (base.stop + 3) "\x7b\x7d" [
      .mk "\x7b" none false false (base.stop + 1) (base.stop + 2) "\x7b" [],
      .mk "\x7d" none false false (base.stop + 2) (base.stop + 3) "\x7d" []]]

def choosing (returned : Text) : Node :=
  let one := extending 39 "One" "X"
  let two := extending 65 "Two" "Y"
  let answer := "return " ++ returned ++ ";"
  let body := "\x7b " ++ one.text ++ " " ++ two.text ++ " " ++ answer ++ " \x7d"
  .mk "arrow_function" (some "value") true false 32 104 ("b => " ++ body) [
    Heritage.word (some "parameter") 32 "b",
    .mk "=>" none false false 34 36 "=>" [],
    .mk "statement_block" (some "body") true false 37 104 body [
      .mk "\x7b" none false false 37 38 "\x7b" [], one, two,
      .mk "return_statement" none true false 91 102 answer [
        .mk "return" none false false 91 97 "return" [],
        Heritage.word none 98 returned,
        .mk ";" none false false 101 102 ";" []],
      .mk "\x7d" none false false 103 104 "\x7d" []]]

def choosingScript (returned : Text) : ParsedDocument :=
  let statement := "const M = " ++ (choosing returned).text ++ ";"
  { language := .script, url := "test.js", contents := "/** @mixinFunction */\n" ++ statement, offset := none
    inline := false
    root := .mk "program" none true false 0 105 ("/** @mixinFunction */\n" ++ statement) [
      .mk "comment" none true false 0 21 "/** @mixinFunction */" [],
      .mk "lexical_declaration" none true false 22 105 statement [
        .mk "const" (some "kind") false false 22 27 "const" [],
        .mk "variable_declarator" none true false 28 104 ("M = " ++ (choosing returned).text) [
          Heritage.word (some "name") 28 "M",
          .mk "=" none false false 30 31 "=" [],
          choosing returned],
        .mk ";" none false false 104 105 ";" []]] }

theorem choosingScript_bound {returned : Text}
    (hone : (Binding.allWithFunctions (choosingScript returned).root).length = 1) :
    ∃ b, Binding.allWithFunctions (choosingScript returned).root = [b] ∧
      b.comment = some ("/** @mixinFunction */" : Text) ∧ b.value = some (choosing returned) ∧
        Node.identifierName? b.name = .ok (some "M") := by
  obtain ⟨b, hb⟩ := List.length_eq_one_iff.1 hone
  have hfirst : ∃ b, (Binding.allWithFunctions (choosingScript returned).root).head? = some b ∧
      b.comment = some ("/** @mixinFunction */" : Text) ∧ b.value = some (choosing returned) ∧
        Node.identifierName? b.name = .ok (some "M") := ⟨_, rfl, rfl, rfl, rfl⟩
  rw [hb] at hfirst
  obtain ⟨_, ⟨⟩, hbound⟩ := hfirst
  exact ⟨b, hb, hbound⟩

theorem choosing_first (returned : Text) : ∃ first, IsFirstClass (choosing returned) first ∧
    first.node = extending 39 "One" "X" ∧ first.docComment? = none :=
  ⟨_, isFirst_iff.2 rfl, rfl, rfl⟩

def mixinDocs : Documentation := ⟨[], [⟨"mixinFunction", none, none, none⟩]⟩

theorem ofClass_extending (ctx : ScanContext) (b : Binding) {start : Nat} {own mixin : Text}
    (h : place.node = extending start own mixin) (hdoc : place.docComment? = none)
    (hmixin : Heritage.isBehaviorMixin mixin = false) :
    ∃ x, ofClass ctx b mixinDocs "M" place = .ok x ∧ x.mixins.map (·.name) = [mixin] := by
  have hheritage : ∃ range, Heritage.ofClass ctx (extending start own mixin) =
      .ok { mixins := [⟨mixin, range⟩], superclass := some "b" } := by
    refine ⟨_, (Heritage.analyze_mixin rfl rfl rfl fun h ↦ ?_).trans rfl⟩
    rw [hmixin] at h
    cases h
  obtain ⟨range, hrange⟩ := hheritage
  rw [ofClass, events]
  simp only [opened, hdoc]
  rw [h, hrange]
  exact ⟨_, rfl, rfl⟩

theorem choosingScript_mixin (returned : Text)
    (hone : (Binding.allWithFunctions (choosingScript returned).root).length = 1) :
    ∃ b, Binding.allWithFunctions (choosingScript returned).root = [b] ∧ b.IsMixin mixinDocs (choosing returned) ∧
      Behaviors.name? mixinDocs "mixinFunction" b.name = .ok (some "M") ∧
      ∃ x, Finds (choosingScript returned).context b [.declaration x] ∧ x.mixins.map (·.name) = ["X"] := by
  have hdocs : Documentation.ofComment "/** @mixinFunction */" = mixinDocs := by decide +kernel
  obtain ⟨b, hall, hcomment, hvalue, hname⟩ := choosingScript_bound hone
  obtain ⟨first, hfirst, hnode, hdoc⟩ := choosing_first returned
  obtain ⟨x, hx, hmixins⟩ := ofClass_extending (choosingScript returned).context b hnode hdoc rfl
  have hmixin : b.IsMixin mixinDocs (choosing returned) := by
    refine ⟨?_, rfl, hvalue, rfl⟩
    rw [hcomment, docsOf, Option.map_some, hdocs]
  have hcalled : Behaviors.name? mixinDocs "mixinFunction" b.name = .ok (some "M") := by
    rw [Behaviors.name?, hname]
    rfl
  exact ⟨b, hall, hmixin, hcalled, x, .mixin hmixin hfirst hcalled hx, hmixins⟩

theorem first_class_read : ∃ b place x, Binding.allWithFunctions (choosingScript "One").root = [b] ∧
    b.IsMixin mixinDocs (choosing "One") ∧ IsReturned (choosing "One") place ∧ place.node = extending 39 "One" "X" ∧
      (choosingScript "One").scan [.mixins] = .ok [.declaration x] ∧
      ofClass (choosingScript "One").context b mixinDocs "M" place = .ok x ∧ x.mixins.map (·.name) = ["X"] := by
  have hreturned : ∃ place, IsReturned (choosing "One") place ∧ IsFirstClass (choosing "One") place ∧
      place.node = extending 39 "One" "X" :=
    ⟨_, ⟨_, _, _, .function (by decide), rfl, rfl, .declared rfl (List.mem_of_getElem? (i := 0) rfl) rfl rfl rfl⟩,
      isFirst_iff.2 rfl, rfl⟩
  obtain ⟨place, hreturned, hplace, hnode⟩ := hreturned
  obtain ⟨b, hall, hmixin, hcalled, x, hfinds, hmixins⟩ := choosingScript_mixin "One" (by decide +kernel)
  obtain ⟨hscan, hread⟩ := mixins_scanned (choosingScript "One")
  obtain ⟨first, x', -, hiff, hpart, hx, -⟩ :=
    hread b _ _ _ place _ hmixin hreturned hcalled hfinds
  cases hpart
  cases hiff.2 hplace
  refine ⟨b, place, x, hall, hmixin, hreturned, hnode, (hscan _).2 ⟨[[.declaration x]], rfl, ?_⟩, hx, hmixins⟩
  rw [hall]
  exact .cons hfinds .nil

/-- A class that the function does not return is read if it comes first. -/
theorem helper_class_read : (∀ n ∈ (choosingScript "Two").root.preorder, n.isFault = false) ∧ ∃ b place x,
    Binding.allWithFunctions (choosingScript "Two").root = [b] ∧ b.IsMixin mixinDocs (choosing "Two") ∧
      IsReturned (choosing "Two") place ∧ place.node = extending 65 "Two" "Y" ∧
      (choosingScript "Two").scan [.mixins] = .ok [.declaration x] ∧ x.mixins.map (·.name) = ["X"] ∧
      ∃ y, ofClass (choosingScript "Two").context b mixinDocs "M" place = .ok y ∧ y.mixins.map (·.name) = ["Y"] := by
  have hreturned : ∃ place, IsReturned (choosing "Two") place ∧ place.node = extending 65 "Two" "Y" ∧
      place.docComment? = none :=
    ⟨_, ⟨_, _, _, .function (by decide), rfl, rfl, .declared rfl (List.mem_of_getElem? (i := 1) rfl) rfl rfl rfl⟩, rfl,
      rfl⟩
  obtain ⟨place, hreturned, hnode, hdoc⟩ := hreturned
  obtain ⟨b, hall, hmixin, -, x, hfinds, hmixins⟩ := choosingScript_mixin "Two" (by decide +kernel)
  refine ⟨by decide +kernel, b, place, x, hall, hmixin, hreturned, hnode,
    (scan_eq_ok_iff _).2 ⟨[[.declaration x]], rfl, ?_⟩, hmixins, ofClass_extending _ b hnode hdoc rfl⟩
  rw [hall]
  exact .cons hfinds .nil

end Scan.Mixins

end PolymerAnalysis
