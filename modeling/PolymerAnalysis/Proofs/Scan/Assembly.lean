import PolymerAnalysis.Proofs.Feature.Keys
import PolymerAnalysis.Proofs.Feature.WellFormed
import PolymerAnalysis.Proofs.Scan.Additions
import PolymerAnalysis.Proofs.Scan.Hooks

namespace PolymerAnalysis

variable {ctx : ScanContext} {d d' : Declaration}

inductive Declaration.Assembled (ctx : ScanContext) : Declaration → Prop
  | start {d : Declaration} {n : Node} (hlists : d.IsEmpty) (hmixins : d.mixins = []) (hprivacy : IsPrivacy d.privacy)
    (hrange : d.range = ctx.range n) : Assembled ctx d
  | role {d : Declaration} (hd : Assembled ctx d) (role : Role) : Assembled ctx { d with role }
  | property {d : Declaration} (hd : Assembled ctx d) {object : Node} {ps : List Property} {p : Property}
    (hps : Scan.Properties.analyze ctx object = .ok ps) (hp : p ∈ ps) : Assembled ctx (d.addProperty p)
  | behavior {d : Declaration} (hd : Assembled ctx d) (r : Reference) :
    Assembled ctx { d with behaviors := d.behaviors ++ [r] }
  | mixin {d : Declaration} (hd : Assembled ctx d) (r : Reference) : Assembled ctx (d.addMixin r)
  | observers {d : Declaration} (hd : Assembled ctx d) (vs : List Value) :
    Assembled ctx { d with observers := d.observers ++ vs }
  | listener {d : Declaration} (hd : Assembled ctx d) (l : Listener) :
    Assembled ctx { d with listeners := d.listeners ++ [l] }
  | event {d : Declaration} (hd : Assembled ctx d) (e : Event) : Assembled ctx (d.addEvent e)
  | warning {d : Declaration} (hd : Assembled ctx d) (w : Warning) : Assembled ctx (d.addWarning w)

namespace Declaration.Assembled

theorem events (hd : d.Assembled ctx) (es : List Event) : (es.foldl addEvent d).Assembled ctx :=
  List.foldlRecOn es addEvent hd fun _ hd e _ ↦ hd.event e

theorem mixins (hd : d.Assembled ctx) (rs : List Reference) : (d.addMixins rs).Assembled ctx :=
  List.foldlRecOn rs addMixin hd fun _ hd r _ ↦ hd.mixin r

theorem isAnalyzed (hd : d.Assembled ctx) : d.IsAnalyzed := by
  induction hd with
  | start hlists =>
    intro p hp
    rw [hlists.properties] at hp
    cases hp
  | property _ hps hp ih =>
    intro q hq
    rw [properties_addProperty] at hq
    rcases Keyed.mem_upsert hq with rfl | hq
    · exact ⟨ctx, _, _, hps, hp⟩
    · exact ih q hq
  | mixin _ r ih =>
    rw [addMixin_eq]
    exact ih
  | role | behavior | observers | listener | event | warning => assumption

/-- Names stay distinct and change events are never missing, whatever a scanner adds. -/
theorem isKeyed (hd : d.Assembled ctx) : d.IsKeyed := by
  induction hd with
  | start hlists hmixins => exact isKeyed_of_isEmpty hlists hmixins
  | property _ _ _ ih => exact ih.addProperty _
  | mixin _ r ih => exact ih.addMixins [r]
  | event _ e ih => exact ih.addEvent e
  | role _ _ ih | behavior _ _ ih | observers _ _ ih | listener _ _ ih | warning _ _ ih =>
    exact ⟨ih.properties, ih.attributes, ih.events, ih.mixins, ih.announced⟩

end Declaration.Assembled

namespace Scan

namespace Members

theorem keeps_assembled (ctx : ScanContext) : Keeps ctx (Declaration.Assembled ctx) where
  property _ _ _ _ hps hp hd := hd.property hps hp
  behavior _ r hd := hd.behavior r
  observers _ vs hd := hd.observers vs
  listener _ l hd := hd.listener l
  warning _ w hd := hd.warning w

theorem assembled_setTag (hd : d.Assembled ctx) (tag : Text) : (setTag d tag).Assembled ctx := by
  rw [setTag]
  split
  · exact hd.role _
  · exact hd

theorem assembled_ofObject {object : Node} (hd : d.Assembled ctx) (h : ofObject ctx object d = .ok d') :
    d'.Assembled ctx :=
  (keeps_assembled ctx).ofObject (fun _ tag hd ↦ assembled_setTag hd tag) hd h

theorem assembled_ofGetters {classNode : Node} (hd : d.Assembled ctx) (h : ofGetters ctx classNode d = .ok d') :
    d'.Assembled ctx :=
  (keeps_assembled ctx).ofGetters (fun _ tag hd ↦ assembled_setTag hd tag) hd h

end Members

end Scan

/-- What is found by a scanner: places are those of nodes, and only the scanner of imports finds links. -/
def ScannedFeature.Found (k : ScannerKind) (ctx : ScanContext) : ScannedFeature → Prop
  | .space n => ∃ statement, n.range = ctx.range statement
  | .declaration x => x.Assembled ctx
  | .link _ => k = .imports
  | .script s => ∃ raw r, ctx.range raw = some r ∧ s.offset = some ⟨r.start.line, r.start.column, some r.file⟩

def Findings.AllFound (k : ScannerKind) (ctx : ScanContext) (f : Findings) : Prop := ∀ x ∈ f.features, x.Found k ctx

variable {k : ScannerKind} {f g : Findings}

theorem Findings.AllFound.add (h : f.AllFound k ctx) {x : ScannedFeature} (hx : x.Found k ctx) :
    (f.add x).AllFound k ctx := by
  intro y hy
  rcases List.mem_append.1 hy with hy | hy
  · exact h y hy
  · exact List.mem_singleton.1 hy ▸ hx

namespace Scan

theorem Namespaces.found_look {b : Binding} (hf : f.AllFound k ctx) (h : Namespaces.look ctx b f = .ok g) :
    g.AllFound k ctx := by
  rw [Namespaces.look] at h
  split at h
  · split at h
    · cases h
      exact hf
    · obtain ⟨name, -, h⟩ := exists_of_bind_eq_ok h
      dsimp only at h
      split at h
      · cases h
        exact hf
      · split at h
        · cases h
        · next range hrange =>
          cases h
          intro x hx
          rcases Keyed.mem_upsert hx with rfl | hx
          · exact ⟨b.statement.node, hrange.symm⟩
          · exact hf x hx
  · cases h
    exact hf

theorem Behaviors.assembled_start (ctx : ScanContext) (role : Role) (name : Text) (docs : Documentation)
    (statement : Node) : (Behaviors.start ctx role name docs statement).Assembled ctx :=
  .start ⟨rfl, rfl, rfl⟩ rfl ⟨_, _, rfl⟩ rfl

theorem Behaviors.found_look {b : Binding} (hf : f.AllFound k ctx) (h : Behaviors.look ctx b f = .ok g) :
    g.AllFound k ctx := by
  rw [Behaviors.look] at h
  split at h
  · cases h
    exact hf
  · next comment _ =>
    obtain ⟨name, -, h⟩ := exists_of_bind_eq_ok h
    split at h
    · next name value _ =>
      have hstart := assembled_start ctx .behavior name (.ofComment comment) b.statement.node
      split at h
      · split at h
        · obtain ⟨x, hx, h⟩ := exists_of_bind_eq_ok h
          cases h
          exact hf.add ((Members.assembled_ofObject hstart hx).events _)
        · obtain ⟨x, hx, h⟩ := exists_of_bind_eq_ok h
          cases h
          have hmembers := keeps_foldlM (fun _ _ _ ↦ (Members.keeps_assembled ctx).addBehavior) hstart hx
          exact hf.add (hmembers.events _)
      · cases h
        exact hf
    · cases h
      exact hf

theorem Mixins.found_look {b : Binding} (hf : f.AllFound k ctx) (h : Mixins.look ctx b f = .ok g) :
    g.AllFound k ctx := by
  rw [Mixins.look] at h
  split at h
  · split at h
    · cases h
      exact hf
    · split at h
      · cases h
        exact hf
      · obtain ⟨name, -, h⟩ := exists_of_bind_eq_ok h
        split at h
        · cases h
          exact hf
        · obtain ⟨heritage, -, h⟩ := exists_of_bind_eq_ok h
          obtain ⟨x, hx, h⟩ := exists_of_bind_eq_ok h
          cases h
          refine hf.add ((Members.assembled_ofGetters ?_ hx).events _)
          exact ((Declaration.Assembled.mixins (.start ⟨rfl, rfl, rfl⟩ rfl ⟨_, _, rfl⟩ rfl) _).mixins _).mixins _
  · cases h
    exact hf

namespace Elements

theorem found_onCall {c : Cursor} (hf : f.AllFound k ctx) (h : onCall ctx c f = .ok g) : g.AllFound k ctx := by
  obtain ⟨callee, -, h⟩ := exists_of_bind_eq_ok h
  split at h
  · cases h
    exact hf
  split at h
  · rw [ofFactoryCall] at h
    split at h
    · cases h
      exact hf
    · obtain ⟨name, -, h⟩ := exists_of_bind_eq_ok h
      obtain ⟨x, hx, h⟩ := exists_of_bind_eq_ok h
      cases h
      refine hf.add ((Members.assembled_ofObject ?_ hx).events _)
      exact .start ⟨rfl, rfl, rfl⟩ rfl isPrivacy_public rfl
  split at h
  · rw [ofDefinition] at h
    split at h
    · obtain ⟨tag, -, h⟩ := exists_of_bind_eq_ok h
      obtain ⟨name, -, h⟩ := exists_of_bind_eq_ok h
      split at h <;> cases h <;> exact hf
    · cases h
      exact hf
  · cases h
    exact hf

theorem found_ofClass {c : Cursor} {target : Option Node} (hf : f.AllFound k ctx)
    (h : ofClass ctx c target f = .ok g) : g.AllFound k ctx := by
  obtain ⟨heritage, -, h⟩ := exists_of_bind_eq_ok h
  obtain ⟨isElement, -, h⟩ := exists_of_bind_eq_ok h
  split at h
  · obtain ⟨name, -, h⟩ := exists_of_bind_eq_ok h
    obtain ⟨x, hx, h⟩ := exists_of_bind_eq_ok h
    cases h
    refine hf.add ((Members.assembled_ofGetters ?_ hx).events _)
    exact (Declaration.Assembled.mixins (.start ⟨rfl, rfl, rfl⟩ rfl isPrivacy_public rfl) _).mixins _
  · cases h
    exact hf

theorem found_withDefinedTag (tags : List (Text × Text)) {x : ScannedFeature} (hx : x.Found k ctx) :
    (withDefinedTag tags x).Found k ctx := by
  unfold withDefinedTag
  split
  · split
    · exact Declaration.Assembled.role hx _
    · exact hx
  · exact hx

end Elements

namespace Markup

theorem found_onTag {c : Cursor} (hf : f.AllFound .imports ctx) (h : onTag ctx c f = .ok g) :
    g.AllFound .imports ctx := by
  obtain ⟨as, -, h⟩ := exists_of_bind_eq_ok h
  split at h
  · cases h
    exact hf
  · obtain ⟨url, -, h⟩ := exists_of_bind_eq_ok h
    cases h
    exact hf.add rfl

theorem found_onScript {c : Cursor} (hf : f.AllFound k ctx) (h : onScript ctx c f = .ok g) : g.AllFound k ctx := by
  simp only [onScript] at h
  split at h
  all_goals
    obtain ⟨as, -, h⟩ := exists_of_bind_eq_ok h
    split at h
    · cases h
      exact hf
    · split at h
      · cases h
        exact hf
      · next raw _ =>
        split at h
        · cases h
        · next r hr =>
          cases h
          exact hf.add ⟨raw, r, hr, rfl⟩

end Markup

end Scan

theorem Binding.keeps_hooks {P : Findings → Prop} {look : Binding → Findings → Except Failure Findings}
    (hlook : ∀ b f g, P f → look b f = .ok g → P g) :
    ∀ x ∈ Binding.hooks look, ∀ place f g, P f → x.2 place f = .ok g → P g := by
  intro x hx place f g hf h
  simp only [hooks, List.mem_cons, List.not_mem_nil, or_false] at hx
  rcases hx with rfl | rfl | rfl
  all_goals
    dsimp only at h
    split at h
    · exact hlook _ f g hf h
    · cases h
      exact hf

namespace ScannerKind

theorem keeps_found (k : ScannerKind) (ctx : ScanContext) (nodes : Node → Prop) :
    (k.visitor ctx).Keeps 0 (Findings.AllFound k ctx) nodes := by
  cases k with
  | namespaces =>
    refine Visitor.keeps_ofHooks (fun x hx place f g _ ↦ ?_) 0
    exact Binding.keeps_hooks (fun _ _ _ ↦ Scan.Namespaces.found_look) x hx place f g
  | behaviors =>
    refine Visitor.keeps_ofHooks (fun x hx place f g _ ↦ ?_) 0
    exact Binding.keeps_hooks (fun _ _ _ ↦ Scan.Behaviors.found_look) x hx place f g
  | elements =>
    refine Visitor.keeps_ofHooks (fun x hx place f g _ hf h ↦ ?_) 0
    rcases List.mem_cons.1 hx with rfl | hx
    · exact Scan.Elements.found_onCall hf h
    rcases List.mem_cons.1 hx with rfl | hx
    · exact Scan.Elements.found_ofClass hf h
    · cases List.mem_singleton.1 hx
      exact Scan.Elements.found_ofClass hf h
  | mixins =>
    refine Visitor.keeps_ofHooks (fun x hx place f g _ ↦ ?_) 0
    rcases List.mem_append.1 hx with hx | hx
    · exact Binding.keeps_hooks (fun _ _ _ ↦ Scan.Mixins.found_look) x hx place f g
    · cases List.mem_singleton.1 hx
      exact Scan.Mixins.found_look
  | imports =>
    refine Visitor.keeps_ofHooks (fun x hx place f g _ hf h ↦ ?_) 0
    rcases List.mem_cons.1 hx with rfl | hx
    · exact Scan.Markup.found_onTag hf h
    · cases List.mem_singleton.1 hx
      exact Scan.Markup.found_onTag hf h
  | scripts =>
    refine Visitor.keeps_ofHooks (fun x hx place f g _ hf h ↦ ?_) 0
    cases List.mem_singleton.1 hx
    exact Scan.Markup.found_onScript hf h

theorem found_start (k : ScannerKind) (ctx : ScanContext) : (k.visitor ctx).start.AllFound k ctx := by
  cases k <;> exact fun x hx ↦ by cases hx

theorem found_finish (k : ScannerKind) (hf : f.AllFound k ctx) : ∀ x ∈ k.finish f, x.Found k ctx := by
  cases k with
  | elements =>
    intro x hx
    obtain ⟨y, hy, rfl⟩ := List.mem_map.1 hx
    exact Scan.Elements.found_withDefinedTag f.tags (hf y hy)
  | namespaces | behaviors | mixins | imports | scripts => exact hf

end ScannerKind

namespace ParsedDocument

variable {p : ParsedDocument} {kinds : List ScannerKind} {features : List ScannedFeature}

theorem found_scan (h : p.scan [k] = .ok features) : ∀ x ∈ features, x.Found k p.context := by
  obtain ⟨f, hf, rfl⟩ := exists_findings (k.keeps_found p.context _) (k.found_start p.context) h
  exact k.found_finish hf

/-- Every declaration that is found has distinct names and all its change events. -/
theorem isKeyed_of_scan (h : p.scan kinds = .ok features) {x : Declaration} (hx : .declaration x ∈ features) :
    x.IsKeyed := by
  obtain ⟨k, -, part, hpart, hx⟩ := exists_scanner h hx
  have hassembled : x.Assembled p.context := found_scan hpart _ hx
  exact hassembled.isKeyed

end ParsedDocument

end PolymerAnalysis
