import PolymerAnalysis.Proofs.Documentation.Spelling
import PolymerAnalysis.Proofs.Scan.Gathering
import PolymerAnalysis.Proofs.Scan.Members

namespace PolymerAnalysis

open Text

variable {ctx : ScanContext} {b : Binding} {docs : Documentation} {comment name : Text} {v : Node} {g : Findings}

namespace Binding

/-- The first tag gives the name, or else the left side does; both are inside the namespace of the documentation. -/
def NamedBy (b : Binding) (docs : Documentation) (name : Text) : Prop :=
  let tagName := ((Documentation.first? (some docs) "polymerBehavior").bind (·.name)).filter fun t ↦ !t.isEmpty
  ∃ own, name = Documentation.qualify own (some docs) ∧
    (tagName = some own ∨ tagName = none ∧ Node.identifierName? b.name = .ok (some own))

def IsLiteral (b : Binding) : Prop := ∃ v, b.value = some v ∧ (v.kind = "object" ∨ v.kind = "array")

structure IsBehavior (b : Binding) (comment name : Text) : Prop where
  comment_eq : b.comment = some comment
  mention : includes comment "@polymerBehavior"
  named : b.NamedBy (.ofComment comment) name
  literal : b.IsLiteral

def Tagged (b : Binding) (comment : Text) : Prop :=
  b.comment = some comment ∧ Documentation.has (some (.ofComment comment)) "polymerBehavior"

theorem Tagged.mention (h : b.Tagged comment) : includes comment "@polymerBehavior" := by
  obtain ⟨-, hhas⟩ := h
  rw [Documentation.has, Bool.not_eq_true'] at hhas
  obtain ⟨tag, htag⟩ := List.exists_mem_of_ne_nil _ (List.isEmpty_eq_false_iff.1 hhas)
  obtain ⟨hmem, htitle⟩ := List.mem_filter.1 htag
  have hspelled := Documentation.includes_of_mem_tags hmem
  rwa [of_decide_eq_true htitle] at hspelled

end Binding

namespace Scan.Behaviors

theorem namedBy_iff : b.NamedBy docs name ↔ name? docs "polymerBehavior" b.name = .ok (some name) := by
  simp only [Binding.NamedBy, name?]
  generalize ((Documentation.first? (some docs) "polymerBehavior").bind (·.name)).filter (fun t ↦ !t.isEmpty) = tagName
  cases tagName with
  | some own => simp [pure, Except.pure, bind, Except.bind, eq_comm]
  | none =>
    cases Node.identifierName? b.name with
    | error e => simp [lift, Except.mapError, bind, Except.bind]
    | ok o => cases o <;> simp [lift, Except.mapError, pure, Except.pure, bind, Except.bind, eq_comm]

def members (ctx : ScanContext) (v : Node) (d : Declaration) : Except Failure Declaration :=
  if v.kind = "object" then Members.ofObject ctx v d else v.parts.foldlM (Members.addBehavior ctx) d

theorem head_members {d d' : Declaration} (h : members ctx v d = .ok d') : d'.head = d.head := by
  rw [members] at h
  split at h
  · exact Members.head_ofObject h
  · exact keeps_foldlM (fun _ _ _ ↦ (Members.keeps_head ctx _).addBehavior) rfl h

def events (ctx : ScanContext) (b : Binding) (docs : Documentation) (v : Node) : List Event :=
  eventsOfDocs (some docs) (ctx.range b.statement.node) ++ eventsBelow ctx v

theorem look_of_isBehavior (h : b.IsBehavior comment name) (hv : b.value = some v) (f : Findings) :
    look ctx b f =
      (fun d ↦ f.add (.declaration ((events ctx b (.ofComment comment) v).foldl Declaration.addEvent d))) <$>
        members ctx v (start ctx .behavior name (.ofComment comment) b.statement.node) := by
  obtain ⟨w, hw, hkind⟩ := h.literal
  cases hw.symm.trans hv
  have hfilter : b.comment.filter (fun t ↦ includes t "@polymerBehavior") = some comment := by
    rw [h.comment_eq, Option.filter_some, if_pos h.mention]
  have hliteral : (v.kind = "object" || v.kind = "array") = true := by simpa using hkind
  rw [look, hfilter, members]
  simp only [namedBy_iff.1 h.named, hv, bind, Except.bind, hliteral, if_true]
  by_cases hobject : v.kind = "object"
  · simp only [if_pos hobject]
    rfl
  · simp only [if_neg hobject]
    rfl

theorem look_of_not (h : ∀ comment name, ¬b.IsBehavior comment name) (f : Findings) :
    look ctx b f = (fun _ ↦ f) <$> look ctx b {} := by
  rw [look, look]
  cases hfilter : b.comment.filter fun t ↦ includes t "@polymerBehavior" with
  | none => rfl
  | some comment =>
    obtain ⟨hcomment, hmention⟩ := Option.filter_eq_some_iff.1 hfilter
    cases hname : name? (.ofComment comment) "polymerBehavior" b.name with
    | error e => simp only [hname]; rfl
    | ok o =>
      cases o with
      | none => simp only [hname]; rfl
      | some name =>
        cases hv : b.value with
        | none => simp only [hname]; rfl
        | some v =>
          have hliteral : (v.kind = "object" || v.kind = "array") = false := by
            refine Bool.eq_false_iff.2 fun hkind ↦ h comment name ⟨hcomment, hmention, namedBy_iff.2 hname, v, hv, ?_⟩
            simpa using hkind
          simp only [hname, bind, Except.bind, hliteral, Bool.false_eq_true, if_false]
          rfl

/-- What has been found before does not matter for what is found at a statement. -/
theorem look_eq (f : Findings) (b : Binding) : look ctx b f =
    ((look ctx b {}).map (·.features)).map fun xs ↦ { f with features := f.features ++ xs } := by
  by_cases h : ∃ comment name, b.IsBehavior comment name
  · obtain ⟨comment, name, h⟩ := h
    obtain ⟨v, hv, -⟩ := h.literal
    rw [look_of_isBehavior h hv, look_of_isBehavior h hv]
    cases members ctx v (start ctx .behavior name (.ofComment comment) b.statement.node) <;> rfl
  · have hnot : ∀ comment name, ¬b.IsBehavior comment name := fun comment name hb ↦ h ⟨comment, name, hb⟩
    rw [look_of_not hnot f, look_of_not hnot {}]
    cases look ctx b {} with
    | error e => rfl
    | ok g => exact congrArg Except.ok (congrArg (Findings.mk · f.tags) (List.append_nil f.features).symm)

theorem look_of_unmentioned (h : ∀ comment, b.comment = some comment → ¬includes comment "@polymerBehavior")
    (f : Findings) : look ctx b f = .ok f := by
  have hfilter : b.comment.filter (fun t ↦ includes t "@polymerBehavior") = none := by
    simpa [Option.filter_eq_none_iff] using h
  rw [look, hfilter]

theorem features_of_isBehavior (h : b.IsBehavior comment name) (hlook : look ctx b {} = .ok g) :
    ∃ d, g.features = [.declaration d] ∧
      d.head = (start ctx .behavior name (.ofComment comment) b.statement.node).head := by
  obtain ⟨v, hv, -⟩ := h.literal
  rw [look_of_isBehavior h hv] at hlook
  obtain ⟨d, hd, rfl⟩ := exists_of_map_eq_ok hlook
  exact ⟨_, rfl, (Declaration.head_foldl Declaration.head_addEvent _ d).trans (head_members hd)⟩

theorem features_of_not (h : ∀ comment name, ¬b.IsBehavior comment name) (hlook : look ctx b {} = .ok g) :
    g.features = [] := by
  rw [look_of_not h] at hlook
  obtain ⟨_, -, rfl⟩ := exists_of_map_eq_ok hlook
  rfl

theorem scan_eq (d : ParsedDocument) : d.scan [.behaviors] =
    ((Binding.all d.root).mapM fun b ↦ (look d.context b {}).map (·.features)).map List.flatten := by
  have hhooks : ScannerKind.behaviors.visitor d.context = .ofHooks (Binding.hooks (look d.context)) := rfl
  rw [ParsedDocument.scan_ofHooks hhooks, Binding.foldlM_hooks, Findings.foldlM_add look_eq]
  cases (Binding.all d.root).mapM fun b ↦ (look d.context b {}).map (·.features) with
  | error e => rfl
  | ok parts => exact congrArg Except.ok (List.nil_append _)

/-- A scan for behaviors finds one for each statement that is taken for one, and nothing else. It breaks off where the
look at a statement with the text of the tag does. A statement with a literal value and a name is taken for a behavior
if its documentation has the tag. -/
theorem behaviors_scanned (d : ParsedDocument) :
    (∀ features, d.scan [.behaviors] = .ok features → ∃ parts, features = parts.flatten ∧
      List.Forall₂ (fun b part ↦
        (∀ comment name, b.IsBehavior comment name → ∃ x, part = [.declaration x] ∧ x.role = .behavior ∧
          x.name = some name ∧ x.docs = some (.ofComment comment) ∧ x.range = d.context.range b.statement.node) ∧
        ((∀ comment name, ¬b.IsBehavior comment name) → part = [])) (Binding.all d.root) parts) ∧
      ((∃ features, d.scan [.behaviors] = .ok features) ↔ ∀ b ∈ Binding.all d.root, ∀ comment,
        b.comment = some comment → includes comment "@polymerBehavior" → ∃ g, look d.context b {} = .ok g) ∧
      ∀ (b : Binding) (comment name : Text), b.Tagged comment → b.NamedBy (.ofComment comment) name → b.IsLiteral →
        b.IsBehavior comment name := by
  rw [scan_eq]
  refine ⟨fun features h ↦ ?_, ?_, fun b comment name htag hname hliteral ↦ ⟨htag.1, htag.mention, hname, hliteral⟩⟩
  · obtain ⟨parts, hparts, rfl⟩ := exists_of_map_eq_ok h
    refine ⟨parts, rfl, (forall₂_of_mapM hparts).imp fun b part hpart ↦ ?_⟩
    obtain ⟨g, hg, rfl⟩ := exists_of_map_eq_ok hpart
    refine ⟨fun comment name hb ↦ ?_, fun hnot ↦ features_of_not hnot hg⟩
    obtain ⟨x, hx, hhead⟩ := features_of_isBehavior hb hg
    have hrole : x.role = .behavior :=
      Declaration.role_eq_of_head (fun _ _ h ↦ by cases h) (congrArg Declaration.role hhead)
    exact ⟨x, hx, hrole, congrArg Declaration.name hhead, congrArg Declaration.docs hhead,
      congrArg Declaration.range hhead⟩
  · refine exists_map_iff.trans (exists_mapM_iff.trans (forall₂_congr fun b _ ↦ exists_map_iff.trans ?_))
    constructor
    · exact fun h _ _ _ ↦ h
    · intro h
      by_cases hmention : ∃ comment, b.comment = some comment ∧ includes comment "@polymerBehavior"
      · obtain ⟨comment, hcomment, hmention⟩ := hmention
        exact h comment hcomment hmention
      · exact ⟨_, look_of_unmentioned (fun comment hcomment hm ↦ hmention ⟨comment, hcomment, hm⟩) {}⟩

def emptyObject (start : Nat) : Node :=
  .mk "object" (some "value") true false start (start + 2) "\x7b\x7d" [
    .mk "\x7b" none false false start (start + 1) "\x7b" [],
    .mk "\x7d" none false false (start + 1) (start + 2) "\x7d" []]

def commentedObject (comment : Text) : ParsedDocument :=
  let start := comment.length + 1
  { language := .script, url := "b.js", contents := comment ++ "\nvar B = \x7b\x7d;", offset := none, inline := false
    root := .mk "program" none true false 0 (start + 11) (comment ++ "\nvar B = \x7b\x7d;") [
      .mk "comment" none true false 0 comment.length comment [],
      .mk "variable_declaration" none true false start (start + 11) "var B = \x7b\x7d;" [
        .mk "var" none false false start (start + 3) "var" [],
        .mk "variable_declarator" none true false (start + 4) (start + 10) "B = \x7b\x7d" [
          .mk "identifier" (some "name") true false (start + 4) (start + 5) "B" [],
          .mk "=" none false false (start + 6) (start + 7) "=" [],
          emptyObject (start + 8)],
        .mk ";" none false false (start + 10) (start + 11) ";" []]] }

theorem commentedObject_bound (comment : Text) (h : startsWith comment "/**") :
    ∃ b, Binding.all (commentedObject comment).root = [b] ∧ b.comment = some comment ∧
      b.value = some (emptyObject (comment.length + 9)) ∧ Node.identifierName? b.name = .ok (some "B") := by
  obtain ⟨rest, rfl⟩ := List.isPrefixOf_iff_prefix.1 h
  exact ⟨_, rfl, rfl, rfl, rfl⟩

theorem look_emptyObject (ctx : ScanContext) (h : b.IsBehavior comment name) {start : Nat}
    (hv : b.value = some (emptyObject start)) :
    ∃ g, look ctx b {} = .ok g := by
  rw [look_of_isBehavior h hv]
  exact ⟨_, rfl⟩

theorem tagged_scanned : ∃ x, (commentedObject "/** @polymerBehavior */").scan [.behaviors] = .ok [.declaration x] ∧
    x.role = .behavior ∧ x.name = some "B" := by
  have hdocs : Documentation.ofComment "/** @polymerBehavior */" = ⟨[], [⟨"polymerBehavior", none, none, none⟩]⟩ := by
    decide +kernel
  obtain ⟨b, hall, hcomment, hvalue, hname⟩ := commentedObject_bound "/** @polymerBehavior */" rfl
  obtain ⟨hparts, hexists, hbehavior⟩ := behaviors_scanned (commentedObject "/** @polymerBehavior */")
  have hb : b.IsBehavior "/** @polymerBehavior */" "B" := by
    refine hbehavior b _ _ ⟨hcomment, by rw [hdocs]; decide⟩ ?_ ⟨_, hvalue, .inl rfl⟩
    rw [hdocs]
    exact ⟨"B", rfl, .inr ⟨rfl, hname⟩⟩
  obtain ⟨features, hfeatures⟩ := hexists.2 fun b' hb' _ _ _ ↦ by
    rw [hall, List.mem_singleton] at hb'
    exact hb' ▸ look_emptyObject _ hb hvalue
  obtain ⟨parts, rfl, hmade⟩ := hparts features hfeatures
  rw [hall] at hmade
  rcases hmade with _ | ⟨hpart, _ | _⟩
  obtain ⟨x, rfl, hrole, hxname, -⟩ := hpart.1 _ _ hb
  exact ⟨x, hfeatures, hrole, hxname⟩

theorem scan_commentedObject (h : startsWith comment "/**") (hmention : includes comment "@polymerBehavior")
    (hdocs : ∀ b : Binding, Node.identifierName? b.name = .ok (some "B") → b.NamedBy (.ofComment comment) "B") :
    ∃ x, (commentedObject comment).scan [.behaviors] = .ok [.declaration x] ∧ x.role = .behavior ∧
      x.name = some "B" := by
  obtain ⟨b, hall, hcomment, hvalue, hname⟩ := commentedObject_bound comment h
  have hb : b.IsBehavior comment "B" := ⟨hcomment, hmention, hdocs b hname, _, hvalue, .inl rfl⟩
  obtain ⟨g, hg⟩ := look_emptyObject (commentedObject comment).context hb hvalue
  obtain ⟨x, hx, hhead⟩ := features_of_isBehavior hb hg
  have hrole : x.role = .behavior :=
    Declaration.role_eq_of_head (fun _ _ h ↦ by cases h) (congrArg Declaration.role hhead)
  refine ⟨x, ?_, hrole, congrArg Declaration.name hhead⟩
  rw [scan_eq, hall, List.mapM_cons, List.mapM_nil, hg, ← hx]
  exact congrArg Except.ok (List.append_nil _)

/-- A comment that only speaks of the tag, or one with a longer tag, makes a behavior of an object. -/
theorem mention_scanned :
    (Documentation.has (some (.ofComment "/** See @polymerBehavior for details. */")) "polymerBehavior" = false ∧
      ∃ x, (commentedObject "/** See @polymerBehavior for details. */").scan [.behaviors] = .ok [.declaration x] ∧
        x.role = .behavior ∧ x.name = some "B") ∧
    Documentation.has (some (.ofComment "/** @polymerBehaviorImpl */")) "polymerBehavior" = false ∧
      ∃ x, (commentedObject "/** @polymerBehaviorImpl */").scan [.behaviors] = .ok [.declaration x] ∧
        x.role = .behavior ∧ x.name = some "B" := by
  have hprose : Documentation.ofComment "/** See @polymerBehavior for details. */" =
      ⟨"See @polymerBehavior for details.", []⟩ := by decide +kernel
  have hlonger : Documentation.ofComment "/** @polymerBehaviorImpl */" =
      ⟨[], [⟨"polymerBehaviorImpl", none, none, none⟩]⟩ := by decide +kernel
  refine ⟨⟨by rw [hprose]; rfl, scan_commentedObject rfl (by decide) fun b hname ↦ ?_⟩, by rw [hlonger]; decide,
    scan_commentedObject rfl (by decide) fun b hname ↦ ?_⟩
  · rw [hprose]
    exact ⟨"B", rfl, .inr ⟨rfl, hname⟩⟩
  · rw [hlonger]
    exact ⟨"B", rfl, .inr ⟨rfl, hname⟩⟩

end Scan.Behaviors

end PolymerAnalysis
