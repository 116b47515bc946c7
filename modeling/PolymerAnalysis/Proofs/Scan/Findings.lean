import PolymerAnalysis.Proofs.Scan.Assembly

namespace PolymerAnalysis

def ScanContext.WellFormed (ctx : ScanContext) : Prop := ∀ n, ∀ r ∈ ctx.range n, r.WellFormed

variable {ctx : ScanContext} {d : Declaration}

theorem Property.WellFormed.attribute? {p : Property} (h : p.WellFormed) {a : Attribute} (ha : p.attribute? = some a) :
    a.WellFormed := by
  rw [Property.attribute?] at ha
  split at ha
  · obtain ⟨name, -, rfl⟩ := Option.map_eq_some_iff.1 ha
    exact h.range
  · cases ha

theorem Declaration.WellFormed.addProperty (h : d.WellFormed) {p : Property} (hp : p.WellFormed) :
    (d.addProperty p).WellFormed := by
  rw [addProperty_eq]
  refine { privacy := h.privacy, range := h.range, properties := fun q hq ↦ ?_, attributes := ?_ }
  · rcases Keyed.mem_upsert hq with rfl | hq
    · exact hp
    · exact h.properties q hq
  · exact Keyed.forall_mem_elim_upsert (fun a ha ↦ hp.attribute? ha) h.attributes

namespace Scan

theorem Properties.wellFormed_option {o o' : Properties.Options} {pair : Node} (ho : o.property.WellFormed)
    (h : Properties.option ctx o pair = .ok o') : o'.property.WellFormed := by
  obtain ⟨key, -, hchanges⟩ := Properties.changes_of_option h
  cases hchanges with
  | other => exact ho
  | type | notify | readOnly | reflectToAttribute | observer | computed | default => exact ⟨ho.privacy, ho.range⟩

theorem Properties.wellFormed_analyze (hctx : ctx.WellFormed) {object : Node} {ps : List Property}
    (h : Properties.analyze ctx object = .ok ps) : ∀ p ∈ ps, p.WellFormed := by
  intro p hp
  obtain ⟨entry, hentry⟩ := Properties.exists_of_mem_analyze h hp
  exact Properties.keeps_property? (fun name ↦ ⟨⟨name, _, rfl⟩, hctx entry.node⟩) (fun _ _ _ ↦ wellFormed_option)
    (fun _ hp ↦ ⟨hp.privacy, hp.range⟩) (fun _ _ hp ↦ ⟨hp.privacy, hp.range⟩) hentry

end Scan

theorem Declaration.Assembled.wellFormed (hctx : ctx.WellFormed) (hd : d.Assembled ctx) : d.WellFormed := by
  induction hd with
  | @start d n hlists _ hprivacy hrange =>
    refine ⟨hprivacy, hrange ▸ hctx n, fun p hp ↦ ?_, fun a ha ↦ ?_⟩
    · rw [hlists.properties] at hp
      cases hp
    · rw [hlists.attributes] at ha
      cases ha
  | property _ hps hp ih => exact ih.addProperty (Scan.Properties.wellFormed_analyze hctx hps _ hp)
  | mixin _ r ih =>
    rw [addMixin_eq]
    exact ⟨ih.privacy, ih.range, ih.properties, ih.attributes⟩
  | role _ _ ih | behavior _ _ ih | observers _ _ ih | listener _ _ ih | event _ _ ih | warning _ _ ih =>
    exact ⟨ih.privacy, ih.range, ih.properties, ih.attributes⟩

def ScannedFeature.Placed : ScannedFeature → Prop
  | .script s => ∀ o ∈ s.offset, (⟨o.line, o.column⟩ : Position).WellFormed
  | x => x.WellFormed

theorem ScannedFeature.Found.placed (hctx : ctx.WellFormed) {k : ScannerKind} {x : ScannedFeature} (hx : x.Found k ctx) :
    x.Placed := by
  cases x with
  | space n =>
    obtain ⟨statement, hrange⟩ := hx
    intro r hr
    exact hctx statement r (hrange ▸ hr)
  | declaration d => exact Declaration.Assembled.wellFormed hctx hx
  | link l => trivial
  | script s =>
    obtain ⟨raw, r, hr, hoffset⟩ := hx
    intro o ho
    rw [hoffset] at ho
    cases ho
    exact (hctx raw r hr).1

theorem ParsedDocument.placed_scan {d : ParsedDocument} {kinds : List ScannerKind} {features : List ScannedFeature}
    (hctx : d.context.WellFormed) (h : d.scan kinds = .ok features) : ∀ x ∈ features, x.Placed := by
  intro x hx
  obtain ⟨k, -, part, hpart, hx⟩ := exists_scanner h hx
  exact (found_scan hpart x hx).placed hctx

end PolymerAnalysis
