import PolymerAnalysis.Proofs.Keyed
import PolymerAnalysis.Proofs.Scan.Additions
import PolymerAnalysis.Proofs.Scan.Gathering

namespace PolymerAnalysis

variable {ctx : ScanContext} {d d' : Declaration} {own superclass : Option Text}

namespace Walk

variable {β : Type}

mutual

/-- What is read off the nodes alone can be read node by node. -/
theorem filterMap_places (f : Node → Option β) (above : List Frame) (n : Node) :
    (places above n).filterMap (f ·.node) =
      (f n).toList ++ n.children.flatMap fun m ↦ if m.named then (places [] m).filterMap (f ·.node) else [] := by
  cases n with
  | mk kind field named missing start stop text children =>
    rw [places, List.filterMap_cons, filterMap_placesAll]
    cases f (.mk kind field named missing start stop text children) <;> rfl

theorem filterMap_placesAll (f : Node → Option β) (parent : Node) (above : List Frame) (before ns : List Node) :
    (placesAll parent above before ns).filterMap (f ·.node) =
      ns.flatMap fun m ↦ if m.named then (places [] m).filterMap (f ·.node) else [] := by
  cases ns with
  | nil => rfl
  | cons n ns =>
    rw [placesAll, List.filterMap_append, filterMap_placesAll, List.flatMap_cons]
    by_cases h : n.named
    · rw [if_pos h, if_pos h, filterMap_places, filterMap_places]
    · rw [if_neg h, if_neg h, List.filterMap_nil]

end

variable {f : Node → Option β}

mutual

theorem filterMap_places_eq (hf : ∀ m : Node, m.children = [] → f m = none) (above : List Frame) (n : Node)
    (h : ∀ m ∈ n.preorder, m.named = false → m.children = []) :
    (places above n).filterMap (f ·.node) = n.preorder.filterMap f := by
  cases n with
  | mk kind field named missing start stop text children =>
    rw [Node.preorder, List.forall_mem_cons] at h
    rw [places, Node.preorder, List.filterMap_cons, List.filterMap_cons, filterMap_placesAll_eq hf _ _ _ _ h.2]

theorem filterMap_placesAll_eq (hf : ∀ m : Node, m.children = [] → f m = none) (parent : Node) (above : List Frame)
    (before ns : List Node) (h : ∀ m ∈ Node.preorderAll ns, m.named = false → m.children = []) :
    (placesAll parent above before ns).filterMap (f ·.node) = (Node.preorderAll ns).filterMap f := by
  cases ns with
  | nil => rfl
  | cons n ns =>
    rw [Node.preorderAll, List.forall_mem_append] at h
    rw [placesAll, Node.preorderAll, List.filterMap_append, List.filterMap_append,
      filterMap_placesAll_eq hf _ _ _ ns h.2]
    congr 1
    by_cases hnamed : n.named
    · rw [if_pos hnamed, filterMap_places_eq hf _ n h.1]
    · rw [if_neg hnamed]
      cases n with
      | mk kind field named missing start stop text children =>
        have hchildren : children = [] := h.1 _ List.mem_cons_self (Bool.eq_false_iff.2 hnamed)
        rw [Node.preorder, hchildren, List.filterMap_cons_none (hf _ rfl)]
        rfl

end

end Walk

def Role.tag? : Role → Option Text
  | .element tag _ => tag
  | _ => none

namespace Scan

namespace Members

def textOf? (n : Node) : Option Text := n.evaluate.toOption.bind (·.text?)

def pairTag? (pair : Node) : Option Text :=
  if pair.memberName.toOption.join = some ("is" : Text) then (pair.child? "value").bind textOf? else none

theorem role_apply_is {value : Node} (hrole : d.role = .element own superclass) (h : apply ctx "is" value d = .ok d') :
    d'.role = .element ((textOf? value).or own) superclass := by
  rw [apply_is] at h
  obtain ⟨v, hv, rfl⟩ := exists_of_map_eq_ok h
  rw [textOf?, eq_ok_of_lift hv]
  change (v.text?.elim d (setTag d)).role = .element (v.text?.or own) superclass
  cases v.text? with
  | none => exact hrole
  | some tag =>
    rw [Option.elim_some, setTag, hrole]
    rfl

theorem role_applyPair {pair : Node} (hrole : d.role = .element own superclass) (h : applyPair ctx d pair = .ok d') :
    d'.role = .element ((pairTag? pair).or own) superclass := by
  obtain ⟨key, hkey, h⟩ := exists_of_bind_eq_ok h
  have hjoin : pair.memberName.toOption.join = key := by
    rw [eq_ok_of_lift hkey]
    rfl
  rw [pairTag?, hjoin]
  split at h
  · next key value hvalue =>
    rw [hvalue]
    by_cases his : key = "is"
    · subst his
      rw [if_pos rfl]
      exact role_apply_is hrole h
    · rw [if_neg fun heq ↦ his (Option.some.inj heq)]
      exact (Declaration.role_eq_of_adds (adds_apply his h)).trans hrole
  · next hnot =>
    cases h
    rw [hrole]
    split
    · next hkey =>
      cases hvalue : pair.child? "value" with
      | none => rfl
      | some value => exact absurd hvalue (hnot _ _ hkey)
    · rfl

/-- The last member `is` with a text gives the tag. -/
theorem role_ofObject {object : Node} (h : ofObject ctx object d = .ok d') (hrole : d.role = .element own superclass) :
    d'.role = .element ((object.pairs.filterMap pairTag?).getLast?.or own) superclass := by
  rw [ofObject] at h
  generalize object.pairs = pairs at h ⊢
  induction pairs generalizing d own with
  | nil =>
    cases h
    exact hrole
  | cons pair pairs ih =>
    rw [List.foldlM_cons] at h
    obtain ⟨d₁, hfirst, hrest⟩ := exists_of_bind_eq_ok h
    rw [ih (role_applyPair hrole hfirst) hrest, List.filterMap_cons]
    cases pairTag? pair with
    | none => rfl
    | some tag =>
      rw [List.getLast?_cons]
      cases (pairs.filterMap pairTag?).getLast? <;> rfl

theorem role_ofGetters {classNode : Node} (h : ofGetters ctx classNode d = .ok d')
    (hrole : d.role = .element own superclass) :
    d'.role = .element (((classNode.staticValue? "is").toOption.join.bind textOf?).or own) superclass := by
  rw [ofGetters, getterKeys, List.foldlM_cons] at h
  obtain ⟨d₁, hfirst, hrest⟩ := exists_of_bind_eq_ok h
  obtain ⟨value, hvalue, hfirst⟩ := exists_of_bind_eq_ok hfirst
  have htag : d₁.role = .element (((classNode.staticValue? "is").toOption.join.bind textOf?).or own) superclass := by
    rw [eq_ok_of_lift hvalue]
    cases value with
    | none =>
      cases hfirst
      exact hrole
    | some value => exact role_apply_is hrole hfirst
  refine keeps_foldlM_of_mem (P := fun x ↦ x.role = _) (fun key hkey x y hx hy ↦ ?_) htag hrest
  have hne : key ≠ "is" := by
    rintro rfl
    exact absurd hkey (by decide)
  obtain ⟨value, -, hy⟩ := exists_of_bind_eq_ok hy
  split at hy
  · exact (Declaration.role_eq_of_adds (adds_apply hne hy)).trans hx
  · cases hy
    exact hx

end Members

namespace Elements

open Members

variable {c : Cursor} {f g : Findings}

def defined? : List Node → Option (Text × Text)
  | tag :: target :: _ => do
    let tag ← textOf? tag
    let name ← target.identifierName.toOption.join
    pure (name, tag)
  | _ => none

/-- What a call of `customElements.define` defines, also through `window`: the name of a class and its tag. -/
def definition? (n : Node) : Option (Text × Text) :=
  if n.kind = "call_expression" ∧ (Node.identifierName? (n.child? "function")).toOption.join.any isDefinition then
    defined? n.arguments
  else none

def definitions (root : Node) : List (Text × Text) := (Walk.places [] root).filterMap (definition? ·.node)

def definedTag? (root : Node) (name : Text) : Option Text :=
  (Keyed.last? Prod.fst name (definitions root)).map Prod.snd

def ownTag? (n : Node) : Option Text :=
  if n.kind = "call_expression" then ((n.arguments.head?.elim [] Node.pairs).filterMap pairTag?).getLast?
  else (n.staticValue? "is").toOption.join.bind textOf?

def nameNode? (c : Cursor) : Option Node :=
  if c.node.kind = "class_declaration" then c.node.child? "name"
  else if c.node.kind = "class" then c.node.child? "name" <|> c.declaredName?
  else c.declaredName?

/-- The declaration is that of an element at a place, in a script that defines tags for some names. -/
structure ElementAt (defined : Text → Option Text) (c : Cursor) (x : Declaration) : Prop where
  kind : c.node.kind ∈ ["call_expression", "class_declaration", "class"]
  name_eq : Node.identifierName? (nameNode? c) = .ok x.name
  role_eq : ∃ superclass, x.role = .element ((ownTag? c.node).or (x.name.bind defined)) superclass

def hooks (ctx : ScanContext) : List (String × Hook) :=
  [("call_expression", onCall ctx),
    ("class_declaration", fun c f ↦ ofClass ctx c (c.node.child? "name") f),
    ("class", fun c f ↦ ofClass ctx c (c.node.child? "name" <|> c.declaredName?) f)]

def withDefinitions (tags ps : List (Text × Text)) : List (Text × Text) :=
  ps.foldl (fun tags p ↦ Keyed.put p.1 p.2 tags) tags

theorem definition?_of_callee {n : Node} {callee : Option Text} (hkind : n.kind = "call_expression")
    (hcallee : Node.identifierName? (n.child? "function") = .ok callee) :
    definition? n = if callee.any isDefinition then defined? n.arguments else none := by
  rw [definition?, hcallee]
  simp only [hkind, true_and]
  rfl

theorem not_isDefinition_of_isFactory {callee : Text} (h : isFactory callee) : isDefinition callee = false := by
  rw [isFactory, Bool.or_eq_true, decide_eq_true_eq, decide_eq_true_eq] at h
  rcases h with rfl | rfl <;> rfl

theorem ofDefinition_ok (h : ofDefinition c f = .ok g) :
    g = { f with tags := withDefinitions f.tags (defined? c.node.arguments).toList } := by
  rw [ofDefinition] at h
  split at h
  · next tag target rest harguments =>
    obtain ⟨v, hv, h⟩ := exists_of_bind_eq_ok h
    obtain ⟨name, hname, h⟩ := exists_of_bind_eq_ok h
    have hdefined : defined? c.node.arguments = v.text?.bind fun tag ↦ name.map (·, tag) := by
      rw [harguments, defined?, textOf?, eq_ok_of_lift hv, eq_ok_of_lift hname]
      change (v.text?.bind fun tag ↦ name.bind fun name ↦ some (name, tag)) = _
      simp only [Option.map_eq_bind, Function.comp_def]
    rw [hdefined]
    split at h
    · cases h
      rfl
    · next hnot =>
      cases h
      cases v with
      | text tag =>
        cases name with
        | none => rfl
        | some name => exact absurd rfl (hnot tag name rfl)
      | null | bool | int | float | list | dict | unevaluated => rfl
  · next hnot =>
    cases h
    rw [defined?]
    · rfl
    · exact hnot

theorem elementAt_addEvents (hkind : c.node.kind ∈ ["call_expression", "class_declaration", "class"])
    (hname : Node.identifierName? (nameNode? c) = .ok d.name) (hrole : d.role = .element (ownTag? c.node) superclass)
    (es : List Event) : ElementAt (fun _ ↦ none) c (es.foldl Declaration.addEvent d) where
  kind := hkind
  name_eq := hname.trans (congrArg (Except.ok ∘ Declaration.name)
    (Declaration.head_foldl Declaration.head_addEvent es d)).symm
  role_eq := by
    refine ⟨superclass, ?_⟩
    rw [Declaration.role_eq_of_adds (Declaration.adds_events es d), hrole, Option.bind_fun_none, Option.or_none]

def AddsAt (c : Cursor) (f g : Findings) : Prop :=
  g.features = f.features ∨ ∃ x, ElementAt (fun _ ↦ none) c x ∧ g.features = f.features ++ [.declaration x]

theorem of_ofFactoryCall (hkind : c.node.kind = "call_expression") (h : ofFactoryCall ctx c f = .ok g) :
    g.tags = f.tags ∧ AddsAt c f g := by
  rw [ofFactoryCall] at h
  split at h
  · cases h
    exact ⟨rfl, .inl rfl⟩
  · next object hobject =>
    obtain ⟨name, hname, h⟩ := exists_of_bind_eq_ok h
    obtain ⟨d, hd, h⟩ := exists_of_bind_eq_ok h
    cases h
    have hfirst : c.node.arguments.head? = some object := (Option.filter_eq_some_iff.1 hobject).1
    have hown : d.role = .element (ownTag? c.node) none := by
      rw [role_ofObject hd rfl, ownTag?, if_pos hkind, hfirst, Option.or_none]
      rfl
    have hnamed : Node.identifierName? (nameNode? c) = .ok d.name := by
      have hnode : nameNode? c = c.declaredName? := by
        rw [nameNode?, hkind]
        rfl
      rw [hnode, eq_ok_of_lift hname]
      exact (congrArg (Except.ok ∘ Declaration.name) (head_ofObject hd)).symm
    exact ⟨rfl, .inr ⟨_, elementAt_addEvents (by rw [hkind]; decide) hnamed hown _, rfl⟩⟩

theorem of_ofClass (hkind : c.node.kind ∈ ["class_declaration", "class"]) (h : ofClass ctx c (nameNode? c) f = .ok g) :
    g.tags = f.tags ∧ AddsAt c f g := by
  obtain ⟨heritage, -, h⟩ := exists_of_bind_eq_ok h
  obtain ⟨isElement, -, h⟩ := exists_of_bind_eq_ok h
  split at h
  · obtain ⟨name, hname, h⟩ := exists_of_bind_eq_ok h
    obtain ⟨d, hd, h⟩ := exists_of_bind_eq_ok h
    cases h
    have hclass : c.node.kind ≠ "call_expression" := by
      rintro heq
      rw [heq] at hkind
      exact absurd hkind (by decide)
    have hown : d.role = .element (ownTag? c.node) heritage.superclass := by
      have hmixins (d : Declaration) (rs rs' : List Reference) : ((d.addMixins rs).addMixins rs').role = d.role :=
        Declaration.role_eq_of_adds ((Declaration.adds_mixins rs d).trans (Declaration.adds_mixins rs' _))
      rw [role_ofGetters hd ((hmixins _ _ _).trans rfl), ownTag?, if_neg hclass, Option.or_none]
    have hnamed : Node.identifierName? (nameNode? c) = .ok d.name := by
      have hhead := (head_ofGetters hd).trans
        ((Declaration.head_addMixins _ _).trans (Declaration.head_addMixins _ _))
      rw [eq_ok_of_lift hname]
      exact (congrArg (Except.ok ∘ Declaration.name) hhead).symm
    exact ⟨rfl, .inr ⟨_, elementAt_addEvents (List.mem_cons_of_mem _ hkind) hnamed hown _, rfl⟩⟩
  · cases h
    exact ⟨rfl, .inl rfl⟩

theorem of_call (hcall : c.node.kind = "call_expression") (h : Hook.at (hooks ctx) f c = .ok g) :
    g.tags = withDefinitions f.tags (definition? c.node).toList ∧ AddsAt c f g := by
  rw [Hook.at, hcall] at h
  obtain ⟨callee, hcallee, h⟩ := exists_of_bind_eq_ok h
  rw [definition?_of_callee hcall (eq_ok_of_lift hcallee)]
  split at h
  · cases h
    exact ⟨rfl, .inl rfl⟩
  split at h
  · next callee hfactory =>
    rw [Option.any_some, not_isDefinition_of_isFactory hfactory]
    exact of_ofFactoryCall hcall h
  split at h
  · next hdefinition =>
    rw [Option.any_some, if_pos hdefinition, ofDefinition_ok h]
    exact ⟨rfl, .inl rfl⟩
  · next hdefinition =>
    cases h
    rw [Option.any_some, if_neg hdefinition]
    exact ⟨rfl, .inl rfl⟩

/-- What the hooks do at one place. -/
theorem of_at (h : Hook.at (hooks ctx) f c = .ok g) :
    g.tags = withDefinitions f.tags (definition? c.node).toList ∧ AddsAt c f g := by
  by_cases hcall : c.node.kind = "call_expression"
  · exact of_call hcall h
  have hnone : definition? c.node = none := if_neg fun hboth ↦ hcall hboth.1
  rw [hnone]
  by_cases hdeclaration : c.node.kind = "class_declaration"
  · rw [Hook.at, hdeclaration] at h
    have hnode : nameNode? c = c.node.child? "name" := if_pos hdeclaration
    have hscan : ofClass ctx c (nameNode? c) f = .ok g := by
      rw [hnode]
      exact h
    exact of_ofClass (by rw [hdeclaration]; decide) hscan
  by_cases hclass : c.node.kind = "class"
  · rw [Hook.at, hclass] at h
    have hnode : nameNode? c = (c.node.child? "name" <|> c.declaredName?) :=
      (if_neg hdeclaration).trans (if_pos hclass)
    have hscan : ofClass ctx c (nameNode? c) f = .ok g := by
      rw [hnode]
      exact h
    exact of_ofClass (by rw [hclass]; decide) hscan
  · simp only [Hook.at, hooks, List.lookup_cons, beq_eq_false_iff_ne.2 hcall, beq_eq_false_iff_ne.2 hdeclaration,
      beq_eq_false_iff_ne.2 hclass, List.lookup_nil] at h
    cases h
    exact ⟨rfl, .inl rfl⟩

theorem withDefinitions_append (tags ps qs : List (Text × Text)) :
    withDefinitions tags (ps ++ qs) = withDefinitions (withDefinitions tags ps) qs :=
  List.foldl_append

theorem lookup_withDefinitions (tags ps : List (Text × Text)) (name : Text) :
    (withDefinitions tags ps).lookup name = ((Keyed.last? Prod.fst name ps).map Prod.snd).or (tags.lookup name) := by
  induction ps generalizing tags with
  | nil => rfl
  | cons p ps ih =>
    rw [withDefinitions, List.foldl_cons, ← withDefinitions, ih, Keyed.lookup_put, Keyed.last?_cons]
    cases Keyed.last? Prod.fst name ps with
    | some q => rfl
    | none =>
      by_cases hp : p.1 = name
      · rw [if_pos hp, if_pos hp.symm]
        rfl
      · rw [if_neg hp, if_neg (Ne.symm hp)]
        rfl

/-- What the hooks do at one place after the other. -/
theorem of_foldlM {cs : List Cursor} (h : cs.foldlM (Hook.at (hooks ctx)) f = .ok g) :
    g.tags = withDefinitions f.tags (cs.filterMap (definition? ·.node)) ∧
      ∃ places elements, List.Sublist places cs ∧ List.Forall₂ (ElementAt fun _ ↦ none) places elements ∧
        g.features = f.features ++ elements.map .declaration := by
  induction cs generalizing f with
  | nil =>
    cases h
    exact ⟨rfl, [], [], List.Sublist.slnil, .nil, (List.append_nil _).symm⟩
  | cons c cs ih =>
    rw [List.foldlM_cons] at h
    obtain ⟨f₁, hstep, hrest⟩ := exists_of_bind_eq_ok h
    obtain ⟨htags, hadds⟩ := of_at hstep
    obtain ⟨hrestTags, places, elements, hplaces, helements, hfeatures⟩ := ih hrest
    have hall : g.tags = withDefinitions f.tags ((c :: cs).filterMap (definition? ·.node)) := by
      rw [hrestTags, htags, ← withDefinitions_append, List.filterMap_cons]
      cases definition? c.node <;> rfl
    refine ⟨hall, ?_⟩
    rcases hadds with hsame | ⟨x, hx, hone⟩
    · exact ⟨places, elements, hplaces.cons c, helements, hsame ▸ hfeatures⟩
    · refine ⟨c :: places, x :: elements, hplaces.cons_cons c, .cons hx helements, ?_⟩
      rw [hfeatures, hone, List.append_assoc]
      rfl

theorem withDefinedTag_declaration {x : Declaration} (tags : List (Text × Text))
    (h : x.role = .element own superclass) : withDefinedTag tags (.declaration x) =
      .declaration { x with role := .element (own.or (x.name.bind (tags.lookup ·))) superclass } := by
  have hsame : .declaration x = ScannedFeature.declaration { x with role := .element own superclass } := by rw [← h]
  cases own with
  | some tag =>
    refine Eq.trans ?_ hsame
    simp only [withDefinedTag, h]
  | none =>
    cases htag : x.name.bind (tags.lookup ·) with
    | none =>
      refine Eq.trans ?_ hsame
      simp only [withDefinedTag, h, htag]
    | some tag => simp only [withDefinedTag, h, htag, Option.none_or]

theorem elementAt_withDefinedTag {x : Declaration} (tags : List (Text × Text)) (h : ElementAt (fun _ ↦ none) c x) :
    ∃ y, withDefinedTag tags (.declaration x) = .declaration y ∧ ElementAt (tags.lookup ·) c y := by
  obtain ⟨superclass, hrole⟩ := h.role_eq
  rw [Option.bind_fun_none, Option.or_none] at hrole
  exact ⟨_, withDefinedTag_declaration tags hrole, h.kind, h.name_eq, superclass, rfl⟩

theorem elementsAt_finish {places : List Cursor} {elements : List Declaration} (tags : List (Text × Text))
    (h : List.Forall₂ (ElementAt fun _ ↦ none) places elements) :
    ∃ tagged : List Declaration, (elements.map .declaration).map (withDefinedTag tags) = tagged.map .declaration ∧
      List.Forall₂ (ElementAt (tags.lookup ·)) places tagged := by
  induction h with
  | nil => exact ⟨[], rfl, .nil⟩
  | cons hx _ ih =>
    obtain ⟨y, hy, hat⟩ := elementAt_withDefinedTag tags hx
    obtain ⟨tagged, htagged, hall⟩ := ih
    exact ⟨y :: tagged, congrArg₂ List.cons hy htagged, .cons hat hall⟩

theorem scanned {d : ParsedDocument} {features : List ScannedFeature} (h : d.scan [.elements] = .ok features) :
    ∃ places elements, List.Sublist places (Walk.places [] d.root) ∧ features = elements.map .declaration ∧
      List.Forall₂ (ElementAt (definedTag? d.root)) places elements := by
  rw [ParsedDocument.scan_ofHooks (show _ = Visitor.ofHooks (hooks d.context) from rfl)] at h
  obtain ⟨g, hg, rfl⟩ := exists_of_map_eq_ok h
  obtain ⟨htags, places, elements, hplaces, helements, hfeatures⟩ := of_foldlM hg
  obtain ⟨tagged, htagged, hall⟩ := elementsAt_finish g.tags helements
  have hdefined : (g.tags.lookup ·) = definedTag? d.root := by
    funext name
    rw [htags, lookup_withDefinitions]
    exact Option.or_none
  refine ⟨places, tagged, hplaces, ?_, hdefined ▸ hall⟩
  rw [← htagged, ← List.nil_append (elements.map _)]
  exact congrArg (List.map (withDefinedTag g.tags)) hfeatures

def definitionsAmong (ns : List Node) : List (Text × Text) := ns.flatMap fun m ↦ if m.named then definitions m else []

/-- Trees in another order: nodes that define nothing for the same name can change places, and a node can move out of
the beginning of one that is no definition, or into it. -/
inductive Rearranged : List Node → List Node → Prop
  | nil : Rearranged [] []
  | cons {m n : Node} {ms ns : List Node} (hnamed : m.named = n.named) (hdefinition : definition? m = definition? n)
      (hbelow : Rearranged m.children n.children) (hbeside : Rearranged ms ns) : Rearranged (m :: ms) (n :: ns)
  | swap {m n : Node} (ns : List Node) (h : ∀ p ∈ definitions m, ∀ q ∈ definitions n, p.1 ≠ q.1) :
      Rearranged (m :: n :: ns) (n :: m :: ns)
  | leave {m n s : Node} (ns : List Node) (hm : m.named ∧ definition? m = none) (hn : n.named ∧ definition? n = none)
      (hchildren : m.children = s :: n.children) : Rearranged (m :: ns) (s :: n :: ns)
  | symm {ms ns : List Node} (h : Rearranged ms ns) : Rearranged ns ms
  | trans {ks ms ns : List Node} (h : Rearranged ks ms) (h' : Rearranged ms ns) : Rearranged ks ns

def Moved (root root' : Node) : Prop :=
  definition? root = definition? root' ∧ Rearranged root.children root'.children

theorem definitions_eq (n : Node) : definitions n = (definition? n).toList ++ definitionsAmong n.children :=
  Walk.filterMap_places definition? [] n

theorem definitions_eq_preorder (root : Node) (h : ∀ n ∈ root.preorder, n.named = false → n.children = []) :
    definitions root = root.preorder.filterMap definition? := by
  refine Walk.filterMap_places_eq (fun m hm ↦ ?_) [] root h
  rw [definition?, Node.child?, hm]
  exact if_neg fun hboth ↦ Bool.false_ne_true hboth.2

theorem definitionsAmong_cons (m : Node) (ms : List Node) :
    definitionsAmong (m :: ms) = (if m.named then definitions m else []) ++ definitionsAmong ms :=
  List.flatMap_cons

theorem Rearranged.last?_eq {ms ns : List Node} (h : Rearranged ms ns) (name : Text) :
    Keyed.last? Prod.fst name (definitionsAmong ms) = Keyed.last? Prod.fst name (definitionsAmong ns) := by
  induction h with
  | nil => rfl
  | cons hnamed hdefinition _ _ ihbelow ihbeside =>
    rw [definitionsAmong_cons, definitionsAmong_cons, Keyed.last?_append, Keyed.last?_append, ihbeside, hnamed]
    split
    · rw [definitions_eq, definitions_eq, Keyed.last?_append, Keyed.last?_append, ihbelow, hdefinition]
    · rfl
  | @swap m n ns h =>
    have hne : ∀ p ∈ (if m.named then definitions m else []), ∀ q ∈ (if n.named then definitions n else []),
        p.1 ≠ q.1 := by
      intro p hp q hq
      split at hp
      · split at hq
        · exact h p hp q hq
        · cases hq
      · cases hp
    simp only [definitionsAmong_cons, ← List.append_assoc]
    rw [Keyed.last?_append, Keyed.last?_append_comm hne, ← Keyed.last?_append]
  | @leave m n s ns hm hn hchildren =>
    simp only [definitionsAmong_cons, if_pos hm.1, if_pos hn.1]
    rw [definitions_eq m, definitions_eq n, hm.2, hn.2, hchildren, definitionsAmong_cons, Option.toList_none,
      List.nil_append, List.nil_append, List.append_assoc]
  | symm _ ih => exact ih.symm
  | trans _ _ ih ih' => exact ih.trans ih'

theorem definedTag?_eq_of_moved {root root' : Node} (h : Moved root root') : definedTag? root' = definedTag? root := by
  funext name
  rw [definedTag?, definedTag?, definitions_eq, definitions_eq, Keyed.last?_append, Keyed.last?_append, h.1,
    h.2.last?_eq name]

/-- The tag of an element is its own, or else the last one that is defined for its name anywhere in the script. When
definitions of different names are moved, no element gets another tag. -/
theorem tags_scanned (d : ParsedDocument) :
    (∀ features, d.scan [.elements] = .ok features →
      ∃ places elements, List.Sublist places (Walk.places [] d.root) ∧ features = elements.map .declaration ∧
        List.Forall₂ (ElementAt (definedTag? d.root)) places elements) ∧
    ((∀ n ∈ d.root.preorder, n.named = false → n.children = []) →
      definitions d.root = d.root.preorder.filterMap definition?) ∧
    ∀ d' : ParsedDocument, Moved d.root d'.root → ∀ c c' x x', ElementAt (definedTag? d.root) c x →
      ElementAt (definedTag? d'.root) c' x' → ownTag? c.node = ownTag? c'.node → x.name = x'.name →
        x.role.tag? = x'.role.tag? := by
  refine ⟨fun features ↦ scanned, definitions_eq_preorder d.root, fun d' hmoved c c' x x' hx hx' hown hname ↦ ?_⟩
  obtain ⟨superclass, hrole⟩ := hx.role_eq
  obtain ⟨superclass', hrole'⟩ := hx'.role_eq
  rw [hrole, hrole', hown, hname, definedTag?_eq_of_moved hmoved]
  rfl

def defining (start : Nat) : Node :=
  .mk "expression_statement" none true false start (start + 32) "customElements.define('x-a', A);" [
    .mk "call_expression" none true false start (start + 31) "customElements.define('x-a', A)" [
      .mk "member_expression" (some "function") true false start (start + 21) "customElements.define" [
        .mk "identifier" (some "object") true false start (start + 14) "customElements" [],
        .mk "." none false false (start + 14) (start + 15) "." [],
        .mk "property_identifier" (some "property") true false (start + 15) (start + 21) "define" []],
      .mk "arguments" (some "arguments") true false (start + 21) (start + 31) "('x-a', A)" [
        .mk "(" none false false (start + 21) (start + 22) "(" [],
        .mk "string" none true false (start + 22) (start + 27) "'x-a'" [
          .mk "'" none false false (start + 22) (start + 23) "'" [],
          .mk "string_fragment" none true false (start + 23) (start + 26) "x-a" [],
          .mk "'" none false false (start + 26) (start + 27) "'" []],
        .mk "," none false false (start + 27) (start + 28) "," [],
        .mk "identifier" none true false (start + 29) (start + 30) "A" [],
        .mk ")" none false false (start + 30) (start + 31) ")" []]],
    .mk ";" none false false (start + 31) (start + 32) ";" []]

def untagged (start : Nat) : Node :=
  .mk "class_declaration" none true false start (start + 33) "class A extends PolymerElement \x7b\x7d" [
    .mk "class" none false false start (start + 5) "class" [],
    .mk "identifier" (some "name") true false (start + 6) (start + 7) "A" [],
    .mk "class_heritage" none true false (start + 8) (start + 30) "extends PolymerElement" [
      .mk "extends" none false false (start + 8) (start + 15) "extends" [],
      .mk "identifier" none true false (start + 16) (start + 30) "PolymerElement" []],
    .mk "class_body" (some "body") true false (start + 31) (start + 33) "\x7b\x7d" [
      .mk "\x7b" none false false (start + 31) (start + 32) "\x7b" [],
      .mk "\x7d" none false false (start + 32) (start + 33) "\x7d" []]]

def twoLines (first second : Node) : ParsedDocument :=
  let contents := first.text ++ "\n" ++ second.text
  ⟨.script, "a.js", contents, .mk "program" none true false 0 66 contents [first, second], none, false⟩

theorem moved_twoLines :
    Moved (twoLines (untagged 0) (defining 34)).root (twoLines (defining 0) (untagged 33)).root := by
  have hswap : Rearranged [untagged 0, defining 34] [defining 34, untagged 0] := by
    refine .swap [] fun p hp ↦ ?_
    have hnone : definitions (untagged 0) = [] := rfl
    rw [hnone] at hp
    cases hp
  have hshift : Rearranged [defining 34, untagged 0] [defining 0, untagged 33] := by
    repeat' first | exact .nil | refine .cons rfl rfl ?_ ?_
  have hroot (first second : Node) : definition? (twoLines first second).root = none :=
    if_neg fun hboth ↦ absurd hboth.1 (show "program" ≠ "call_expression" by decide)
  exact ⟨(hroot _ _).trans (hroot _ _).symm, hswap.trans hshift⟩

theorem scan_twoLines {first second : Node}
    (h : (first, second) = (untagged 0, defining 34) ∨ (first, second) = (defining 0, untagged 33)) :
    ∃ x, (twoLines first second).scan [.elements] = .ok [.declaration x] ∧ x.name = some "A" ∧
      x.role.tag? = some "x-a" ∧ ∀ c ∈ Walk.places [] (twoLines first second).root, ownTag? c.node = none := by
  rw [ParsedDocument.scan_ofHooks rfl]
  rcases h with heq | heq
  all_goals
    cases heq
    exact ⟨_, rfl, rfl, rfl, by decide +kernel⟩

theorem exists_place {defined : Text → Option Text} {cs places : List Cursor} {elements : List Declaration}
    {x : Declaration} (hplaces : List.Sublist places cs)
    (hfeatures : [ScannedFeature.declaration x] = elements.map .declaration)
    (h : List.Forall₂ (ElementAt defined) places elements) : ∃ c ∈ cs, ElementAt defined c x := by
  cases h with
  | nil => cases hfeatures
  | @cons c y _ _ hy _ =>
    obtain ⟨heq, -⟩ := List.cons.inj hfeatures
    cases heq
    exact ⟨c, hplaces.subset List.mem_cons_self, hy⟩

/-- A class gets its tag from a definition before it as well as from one after it. -/
theorem moved_definition_found : ∃ x x', (twoLines (untagged 0) (defining 34)).scan [.elements] = .ok [.declaration x] ∧
    (twoLines (defining 0) (untagged 33)).scan [.elements] = .ok [.declaration x'] ∧
    (twoLines (defining 0) (untagged 33)).root.preorder.filterMap definition? = [(("A" : Text), ("x-a" : Text))] ∧
    x.role.tag? = some "x-a" ∧ x.role.tag? = x'.role.tag? := by
  obtain ⟨hscan, -, hmoved⟩ := tags_scanned (twoLines (untagged 0) (defining 34))
  obtain ⟨hscan', hall, -⟩ := tags_scanned (twoLines (defining 0) (untagged 33))
  obtain ⟨x, hx, hname, htag, hown⟩ := scan_twoLines (.inl rfl)
  obtain ⟨x', hx', hname', -, hown'⟩ := scan_twoLines (.inr rfl)
  obtain ⟨places, elements, hplaces, hfeatures, helements⟩ := hscan _ hx
  obtain ⟨places', elements', hplaces', hfeatures', helements'⟩ := hscan' _ hx'
  obtain ⟨c, hc, hat⟩ := exists_place hplaces hfeatures helements
  obtain ⟨c', hc', hat'⟩ := exists_place hplaces' hfeatures' helements'
  refine ⟨x, x', hx, hx', ?_, htag, hmoved _ moved_twoLines c c' x x' hat hat' ?_ ?_⟩
  · rw [← hall (by decide +kernel)]
    rfl
  · rw [hown c hc, hown' c' hc']
  · rw [hname, hname']

end Elements

end Scan

end PolymerAnalysis
