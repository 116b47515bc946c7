import PolymerAnalysis.Graph.Traversal
import PolymerAnalysis.Resolution.Composition

namespace PolymerAnalysis

abbrev Memo := List (FeatureId × ResolvedDeclaration)

namespace Graph

def target? (g : Graph) (i : DocId) (kind : ReferenceKind) (r : Reference) : Option (FeatureId × Declaration) :=
  (g.find? i kind.featureKind r.name true).bind fun f ↦ (g.declaration? f).map (f, ·)

theorem target?_eq_some {g : Graph} {i : DocId} {kind : ReferenceKind} {r : Reference} {t : FeatureId}
    {e : Declaration} (h : g.target? i kind r = some (t, e)) :
    g.find? i kind.featureKind r.name true = some t ∧ g.declaration? t = some e := by
  obtain ⟨f, hf, he⟩ := Option.bind_eq_some_iff.1 h
  obtain ⟨d, hd, heq⟩ := Option.map_eq_some_iff.1 he
  cases heq
  exact ⟨hf, hd⟩

def idle (g : Graph) (chain : List FeatureId) : List FeatureId := g.allFeatureIds.filter fun f ↦ f ∉ chain

theorem length_idle_lt {g : Graph} {chain : List FeatureId} {t : FeatureId} (ht : t ∈ g.allFeatureIds)
    (hc : t ∉ chain) : (g.idle (t :: chain)).length < (g.idle chain).length := by
  have he : g.idle (t :: chain) = (g.idle chain).filter fun f ↦ f ≠ t := by
    simp only [idle, List.filter_filter, List.mem_cons, not_or, Bool.decide_and]
  rw [he]
  exact List.length_filter_lt_length_iff_exists.2 ⟨t, by simp [idle, ht, hc], by simp⟩

/-- Resolves declaration `f`, which is `d`, unless the memo has it. The declarations of the `chain` are being
resolved; while `f` is too, a reference to any of them is ignored with a warning. -/
def resolveFrom (g : Graph) (chain : List FeatureId) (f : FeatureId) (d : Declaration) (memo : Memo) :
    ResolvedDeclaration × Memo :=
  match memo.lookup f with
  | some resolved => (resolved, memo)
  | none =>
    let start : Composition := { warnings := d.warnings }
    let (c, memo) := d.references.foldl (fun (c, memo) (kind, r) ↦
      match _h : g.target? f.owner kind r with
      | none => (c.addWarning (r.unknownWarning kind), memo)
      | some (t, e) =>
        if _hc : t ∈ f :: chain then (c.addWarning (r.cyclicWarning kind), memo)
        else
          let (resolved, memo) := resolveFrom g (f :: chain) t e memo
          (c.compose kind r resolved, memo)) (start, memo)
    let resolved := (c.addOwn f d).finish d
    (resolved, (f, resolved) :: memo)
termination_by (g.idle (f :: chain)).length
decreasing_by exact length_idle_lt (find?_mem (target?_eq_some _h).1) _hc

def composeIn (g : Graph) (i : DocId) (chain : List FeatureId) (x : Composition × Memo)
    (reference : ReferenceKind × Reference) : Composition × Memo :=
  match g.target? i reference.1 reference.2 with
  | none => (x.1.addWarning (reference.2.unknownWarning reference.1), x.2)
  | some (t, e) =>
    if t ∈ chain then (x.1.addWarning (reference.2.cyclicWarning reference.1), x.2)
    else
      let (resolved, memo) := g.resolveFrom chain t e x.2
      (x.1.compose reference.1 reference.2 resolved, memo)

theorem resolveFrom_remembered {g : Graph} {chain : List FeatureId} {f : FeatureId} {d : Declaration}
    {memo : Memo} {r : ResolvedDeclaration} (h : memo.lookup f = some r) :
    g.resolveFrom chain f d memo = (r, memo) := by
  rw [resolveFrom, h]

section

variable {g : Graph} {i : DocId} {chain : List FeatureId} {kind : ReferenceKind} {r : Reference} {t : FeatureId}
  {e : Declaration}

theorem composeIn_unknown (h : g.target? i kind r = none) (x : Composition × Memo) :
    g.composeIn i chain x (kind, r) = (x.1.addWarning (r.unknownWarning kind), x.2) := by
  simp only [composeIn, h]

theorem composeIn_cyclic (h : g.target? i kind r = some (t, e)) (hc : t ∈ chain) (x : Composition × Memo) :
    g.composeIn i chain x (kind, r) = (x.1.addWarning (r.cyclicWarning kind), x.2) := by
  simp only [composeIn, h, if_pos hc]

theorem composeIn_composed (h : g.target? i kind r = some (t, e)) (hc : t ∉ chain) (x : Composition × Memo) :
    g.composeIn i chain x (kind, r) =
      (x.1.compose kind r (g.resolveFrom chain t e x.2).1, (g.resolveFrom chain t e x.2).2) := by
  simp only [composeIn, h, if_neg hc]

end

theorem resolveFrom_computed {g : Graph} {chain : List FeatureId} {f : FeatureId} {d : Declaration}
    {memo : Memo} (h : memo.lookup f = none) :
    g.resolveFrom chain f d memo =
      let x := d.references.foldl (g.composeIn f.owner (f :: chain)) ({ warnings := d.warnings }, memo)
      let resolved := (x.1.addOwn f d).finish d
      (resolved, (f, resolved) :: x.2) := by
  have hstep : g.composeIn f.owner (f :: chain) = fun (c, memo) (kind, r) ↦
      match _h : g.target? f.owner kind r with
      | none => (c.addWarning (r.unknownWarning kind), memo)
      | some (t, e) =>
        if _hc : t ∈ f :: chain then (c.addWarning (r.cyclicWarning kind), memo)
        else
          let (resolved, memo) := g.resolveFrom (f :: chain) t e memo
          (c.compose kind r resolved, memo) := by
    funext ⟨c, memo⟩ ⟨kind, r⟩
    dsimp only
    split
    · next ht => exact composeIn_unknown ht _
    · next t e ht =>
      split
      · next hc => exact composeIn_cyclic ht hc _
      · next hc => exact composeIn_composed ht hc _
  rw [resolveFrom, h, hstep]

def resolveDeclaration (g : Graph) (f : FeatureId) (d : Declaration) (memo : Memo) : ResolvedDeclaration × Memo :=
  g.resolveFrom [] f d memo

def resolveFeature (g : Graph) (f : FeatureId) (memo : Memo) : Option Feature × Memo :=
  match g.feature? f with
  | some (.declaration d) =>
    let (resolved, memo) := g.resolveDeclaration f d memo
    (some (.declaration resolved), memo)
  | some (.space n) => (some (.space n), memo)
  | some (.link i) => (some (.link { i with description := none, docs := none }), memo)
  | some (.script _) => (none, memo)
  | none => (none, memo)

def resolveAll (g : Graph) : List FeatureId → Memo → List Feature × Memo
  | [], memo => ([], memo)
  | f :: fs, memo =>
    let (feature, memo) := g.resolveFeature f memo
    let (features, memo) := g.resolveAll fs memo
    (feature.toList ++ features, memo)

def resolveDocument (g : Graph) (i : DocId) (memo : Memo) : List Feature × Memo :=
  g.resolveAll (g.localFeatureIds i) memo

def fileFeatureIds (g : Graph) (i : DocId) (imported : Bool) : List FeatureId :=
  (g.files i imported).flatMap g.localFeatureIds

def features (g : Graph) (i : DocId) (kind name : Option Text) (imported : Bool) (memo : Memo) :
    List Feature × Memo :=
  let (features, memo) := g.resolveAll (g.fileFeatureIds i imported) memo
  (features.filter fun f ↦ kind.all (Text.isAmong · f.kinds) && name.all (Text.isAmong · f.identifiers), memo)

def warnings (g : Graph) (i : DocId) (imported : Bool) (memo : Memo) : List Warning × Memo :=
  let (features, memo) := g.features i none none imported memo
  ((g.reachable i imported).flatMap g.warningsOf ++ features.flatMap (·.warnings), memo)

/-- The features that can be reached from any of several documents, each once. -/
def featuresOfAll (g : Graph) (documents : List DocId) (memo : Memo) : List Feature × Memo :=
  g.resolveAll (documents.flatMap fun i ↦ g.fileFeatureIds i true).eraseDups memo

end Graph

end PolymerAnalysis
