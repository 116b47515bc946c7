import PolymerAnalysis.Proofs.Scan.Hooks
import PolymerAnalysis.Scan.Binding

namespace PolymerAnalysis

namespace Walk

mutual

/-- The places that a walk enters, in its order: those of the node and of the named nodes below it. -/
def places (above : List Frame) : Node → List Cursor
  | .mk kind field named missing start stop text children =>
    let n := .mk kind field named missing start stop text children
    ⟨n, above⟩ :: placesAll n above [] children

def placesAll (parent : Node) (above : List Frame) (before : List Node) : List Node → List Cursor
  | [] => []
  | n :: ns => (if n.named then places (⟨parent, before⟩ :: above) n else []) ++ placesAll parent above (n :: before) ns

end

end Walk

def Hook.at (hooks : List (String × Hook)) (f : Findings) (c : Cursor) : Except Failure Findings :=
  match hooks.lookup c.node.kind with
  | some hook => hook c f
  | none => .ok f

namespace Visitor

variable {hooks : List (String × Hook)}

theorem result_enterAt_ofHooks (place : Cursor) (f : Findings) :
    ((ofHooks hooks).enterAt 0 place f).result = (Hook.at hooks f place).map (·, .proceed) := by
  rw [enterAt, Hook.at]
  simp only [ofHooks]
  cases hooks.lookup place.node.kind <;> rfl

mutual

theorem result_tour_ofHooks (above : List Frame) (f : Findings) (n : Node) :
    ((ofHooks hooks).tour 0 above f n).result = (Walk.places above n).foldlM (Hook.at hooks) f := by
  cases n with
  | mk kind field named missing start stop text children =>
    rw [tour, Walk.places]
    simp only [Traced.result_bind, result_enterAt_ofHooks, List.foldlM_cons]
    cases Hook.at hooks f ⟨.mk kind field named missing start stop text children, above⟩ with
    | error e => rfl
    | ok g =>
      refine Eq.trans ?_ (result_tourAll_ofHooks (.mk kind field named missing start stop text children) above [] g
        children)
      exact bind_pure (Traced.result _)

theorem result_tourAll_ofHooks (parent : Node) (above : List Frame) (before : List Node) (f : Findings)
    (ns : List Node) : ((ofHooks hooks).tourAll 0 parent above before f ns).result =
      (Walk.placesAll parent above before ns).foldlM (Hook.at hooks) f := by
  cases ns with
  | nil =>
    rw [tourAll, Walk.placesAll]
    rfl
  | cons n ns =>
    rw [tourAll, Walk.placesAll]
    simp only [Traced.result_bind, List.foldlM_append]
    by_cases h : n.named
    · simp only [if_pos h, result_tour_ofHooks]
      exact bind_congr fun g ↦ result_tourAll_ofHooks parent above (n :: before) g ns
    · simp only [if_neg h, Traced.result_pure, List.foldlM_nil, pure_bind]
      exact result_tourAll_ofHooks parent above (n :: before) f ns

end

theorem outcome_ofHooks (hooks : List (String × Hook)) (root : Node) :
    (ofHooks hooks).outcome root = (Walk.places [] root).foldlM (Hook.at hooks) {} := by
  rw [outcome_eq, result_tour_ofHooks]
  rfl

end Visitor

/-- A scanner makes its features of what the hooks of its visitor do at one place after the other. -/
theorem ParsedDocument.scan_ofHooks {d : ParsedDocument} {k : ScannerKind} {hooks : List (String × Hook)}
    (h : k.visitor d.context = .ofHooks hooks) :
    d.scan [k] = ((Walk.places [] d.root).foldlM (Hook.at hooks) {}).map k.finish := by
  rw [← Visitor.outcome_ofHooks, ← h]
  exact Barrier.scan_singleton (fun _ ↦ k.visitor d.context) d.root rfl

/-- Hooks that look at some statements look at them one after the other. -/
theorem Hook.foldlM_at {hooks : List (String × Hook)} {look : Binding → Findings → Except Failure Findings}
    {bound? : Cursor → Option Binding}
    (h : ∀ f c, Hook.at hooks f c = match bound? c with
      | some b => look b f
      | none => .ok f) (cs : List Cursor) (f : Findings) :
    cs.foldlM (Hook.at hooks) f = (cs.filterMap bound?).foldlM (fun f b ↦ look b f) f := by
  rw [List.foldlM_filterMap]
  congr 1
  funext f c
  rw [h]
  cases bound? c <;> rfl

namespace Binding

def at? (c : Cursor) : Option Binding :=
  if c.node.kind ∈ ["variable_declaration", "lexical_declaration"] then ofDeclaration? c
  else if c.node.kind = "assignment_expression" then ofAssignment? c
  else none

def all (root : Node) : List Binding := (Walk.places [] root).filterMap at?

theorem at_hooks (look : Binding → Findings → Except Failure Findings) (f : Findings) (c : Cursor) :
    Hook.at (hooks look) f c = match at? c with
      | some b => look b f
      | none => .ok f := by
  by_cases hvar : c.node.kind = "variable_declaration"
  · have hat : at? c = ofDeclaration? c := if_pos (by rw [hvar]; decide)
    rw [Hook.at, hvar, hat]
    rfl
  by_cases hlexical : c.node.kind = "lexical_declaration"
  · have hat : at? c = ofDeclaration? c := if_pos (by rw [hlexical]; decide)
    rw [Hook.at, hlexical, hat]
    rfl
  by_cases hassignment : c.node.kind = "assignment_expression"
  · have hat : at? c = ofAssignment? c := (if_neg (by rw [hassignment]; decide)).trans (if_pos hassignment)
    rw [Hook.at, hassignment, hat]
    rfl
  · simp [Hook.at, at?, hooks, hvar, hlexical, hassignment, List.lookup_cons, beq_eq_false_iff_ne.2]

theorem foldlM_hooks (look : Binding → Findings → Except Failure Findings) (root : Node) :
    (Walk.places [] root).foldlM (Hook.at (hooks look)) {} = (all root).foldlM (fun f b ↦ look b f) {} :=
  Hook.foldlM_at (at_hooks look) _ _

end Binding

/-- Findings that are only added to are made of what each of several things adds. -/
theorem Findings.foldlM_add {α : Type} {step : Findings → α → Except Failure Findings}
    {found : α → Except Failure (List ScannedFeature)}
    (h : ∀ f a, step f a = (found a).map fun xs ↦ { f with features := f.features ++ xs }) (as : List α)
    (f : Findings) :
    as.foldlM step f = (as.mapM found).map fun parts ↦ { f with features := f.features ++ parts.flatten } := by
  induction as generalizing f with
  | nil =>
    rw [List.foldlM_nil, List.mapM_nil]
    simp [pure, Except.pure, Except.map]
  | cons a as ih =>
    rw [List.foldlM_cons, List.mapM_cons, h]
    cases found a with
    | error e => rfl
    | ok xs =>
      change as.foldlM step _ = _
      rw [ih]
      cases as.mapM found with
      | error e => rfl
      | ok parts => simp [pure, Except.pure, Except.map, bind, Except.bind]

end PolymerAnalysis
