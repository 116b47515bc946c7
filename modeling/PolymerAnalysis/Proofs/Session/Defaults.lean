import PolymerAnalysis.Proofs.Session.Addresses
import PolymerAnalysis.Proofs.Value.Whole

namespace PolymerAnalysis

variable {g : Graph} {f : FeatureId}

/-- The only property of a declaration is a property of what it is resolved to. -/
theorem Graph.exists_resolved_of_single {d : Declaration} {p : Property} (hd : g.declaration? f = some d)
    (hp : d.properties = [p]) : ∃ r, (g.memoAfter [.feature f]).lookup f = some r ∧ ⟨p, none⟩ ∈ r.properties := by
  obtain ⟨memo, parts, -, -, hresolve⟩ := resolveFrom_assembles [] [] hd (by simp) rfl
  have hmemo : g.memoAfter [.feature f] = (g.resolveFeature f []).2 := rfl
  rw [hmemo, resolveFeature_of_declaration hd, resolveDeclaration, hresolve]
  refine ⟨_, List.lookup_cons_self, ?_⟩
  rw [assembled, Declaration.flattened, hp, List.map_singleton, Keyed.lastOfEach_concat]
  exact List.mem_append_right _ (List.mem_singleton_self _)

namespace Session

/-- Whatever was analyzed, every property of a declaration was read off an object of properties. -/
theorem isAnalyzed_after (calls : List Call) {f : FeatureId} {d : Declaration}
    (hd : (after calls).graph.declaration? f = some d) : d.IsAnalyzed := by
  have hall : (after calls).graph.AllFeatures fun x ↦ ∀ d, x = .declaration d → d.IsAnalyzed := by
    refine allFeatures_after (fun {env url file} h ↦ ?_) calls
    have hfile := ScannedFile.standsIn_of_scanFile h
    have heach : ∀ x : ScannedFeature, x.StandsIn env url → ∀ d, x = .declaration d → d.IsAnalyzed := by
      rintro x hx d rfl
      exact hx
    exact ⟨fun x hx ↦ heach x (hfile.document x hx), fun d hd x hx ↦ heach x (hfile.inlines d hd x hx)⟩
  obtain ⟨document, hdocument, hmem⟩ := Option.bind_eq_some_iff.1 (Graph.declaration?_eq_some_iff.1 hd)
  exact hall f.owner document hdocument _ (List.mem_of_getElem? hmem) d rfl

/-- What an expression evaluates to is unevaluated or has no unevaluated part. So the default of a resolved property is
written as the source of its expression, or as the JSON of the default: nothing keeps it from being written but an
integer that is too long. -/
theorem evaluation_whole :
    (∀ (n : Node) v, n.evaluate = .ok v → v.isUnevaluated = true ∨
      v.IsEvaluated ∧ ∀ w : Value, w.Occurs v → w.isUnevaluated = false) ∧
    ∀ calls requests f r p v, ((after calls).graph.memoAfter requests).lookup f = some r → p ∈ r.properties →
      p.default = some v → (∃ source, v = .unevaluated source ∧ v.written = .ok source) ∨
        v.IsEvaluated ∧ v.written = v.toJson.map Json.write ∧
          ((∃ j : Json, v.toJson = .ok j ∧ j.value = v) ∨ ∃ e, v.BreaksAt e ∧ v.toJson = .error (.limit e)) := by
  refine ⟨fun n v h ↦ (Node.evaluate_cases h).imp_right fun hv ↦ ⟨hv, fun w hw ↦ (hv.of_occurs hw).isUnevaluated⟩,
    fun calls requests f r p v hr hp hv ↦ ?_⟩
  obtain ⟨t, d, hd, hdeclared⟩ := (Graph.built_memoAfter _ requests).exists_declaring hr p hp
  obtain ⟨ctx, object, ps, hps, hmem⟩ := isAnalyzed_after calls hd _ hdeclared
  have hsource := Scan.Properties.hasSource_analyze hps _ hmem
  cases hknown : v.isUnevaluated with
  | true =>
    cases v with
    | unevaluated source => exact .inl ⟨source, rfl, rfl⟩
    | null | bool | int | float | text | list | dict => cases hknown
  | false =>
    have hevaluated := Scan.Properties.isEvaluated_default hsource hv hknown
    refine .inr ⟨hevaluated, hevaluated.written_eq, hevaluated.toJson_cases.imp_left ?_⟩
    rintro ⟨j, hj⟩
    exact ⟨j, hj, (hevaluated.toJson_eq_ok hj).2⟩

def oneNumber : Node :=
  .mk "array" (some "value") true false 33 36 "[1]" [
    .mk "[" none false false 33 34 "[" [],
    .mk "number" none true false 34 35 "1" [],
    .mk "]" none false false 35 36 "]" []]

def defaultScript : Node :=
  .mk "program" none true false 0 40 "Polymer(\x7bproperties: \x7bp: \x7bvalue: [1]\x7d\x7d\x7d)" [
    .mk "expression_statement" none true false 0 40 "Polymer(\x7bproperties: \x7bp: \x7bvalue: [1]\x7d\x7d\x7d)" [
      .mk "call_expression" none true false 0 40 "Polymer(\x7bproperties: \x7bp: \x7bvalue: [1]\x7d\x7d\x7d)" [
        .mk "identifier" (some "function") true false 0 7 "Polymer" [],
        .mk "arguments" (some "arguments") true false 7 40 "(\x7bproperties: \x7bp: \x7bvalue: [1]\x7d\x7d\x7d)" [
          .mk "(" none false false 7 8 "(" [],
          .mk "object" none true false 8 39 "\x7bproperties: \x7bp: \x7bvalue: [1]\x7d\x7d\x7d" [
            .mk "\x7b" none false false 8 9 "\x7b" [],
            .mk "pair" none true false 9 38 "properties: \x7bp: \x7bvalue: [1]\x7d\x7d" [
              .mk "property_identifier" (some "key") true false 9 19 "properties" [],
              .mk ":" none false false 19 20 ":" [],
              .mk "object" (some "value") true false 21 38 "\x7bp: \x7bvalue: [1]\x7d\x7d" [
                .mk "\x7b" none false false 21 22 "\x7b" [],
                .mk "pair" none true false 22 37 "p: \x7bvalue: [1]\x7d" [
                  .mk "property_identifier" (some "key") true false 22 23 "p" [],
                  .mk ":" none false false 23 24 ":" [],
                  .mk "object" (some "value") true false 25 37 "\x7bvalue: [1]\x7d" [
                    .mk "\x7b" none false false 25 26 "\x7b" [],
                    .mk "pair" none true false 26 36 "value: [1]" [
                      .mk "property_identifier" (some "key") true false 26 31 "value" [],
                      .mk ":" none false false 31 32 ":" [],
                      oneNumber],
                    .mk "\x7d" none false false 36 37 "\x7d" []]],
                .mk "\x7d" none false false 37 38 "\x7d" []]],
            .mk "\x7d" none false false 38 39 "\x7d" []],
          .mk ")" none false false 39 40 ")" []]]]]

def defaultDocument : ParsedDocument := ⟨.script, "a.js", defaultScript.text, defaultScript, none, false⟩

def defaultPackage : Environment :=
  ⟨fun _ _ ↦ defaultScript, Files.loader [("a.js", defaultScript.text)],
    { Page.settings 64 with followImports := false, scanners := [.elements] }⟩

theorem exists_scan_defaultDocument : ∃ d p, defaultDocument.scan [.elements] = .ok [.declaration d] ∧
    d.properties = [p] ∧ p.default = some (.list [.int 1]) := by
  rw [ParsedDocument.scan_ofHooks rfl]
  exact ⟨_, _, rfl, rfl, rfl⟩

theorem exists_declared_defaultPackage : ∃ d p,
    (after [.analyze defaultPackage ["a.js"]]).graph.declaration? ⟨0, 0⟩ = some d ∧
      d.properties = [p] ∧ p.default = some (.list [.int 1]) := by
  obtain ⟨d, p, hscan, hd, hp⟩ := exists_scan_defaultDocument
  refine ⟨d, p, ?_, hd, hp⟩
  have hlanguage : Language.ofUrl? "a.js" = some .script := by decide
  have hload : defaultPackage.loader.load "a.js" = .ok defaultScript.text := rfl
  have hparse : ParsedDocument.parse defaultPackage.grammar .script "a.js" defaultScript.text none =
      .ok defaultDocument := rfl
  have hscanners : defaultPackage.settings.scannersFor defaultDocument.language = [.elements] := rfl
  have hfile : defaultPackage.scanFile "a.js" =
      .ok { document := { url := "a.js", features := [.declaration d] } } := by
    rw [Environment.scanFile, hlanguage]
    simp only [hload, hparse, bind, Except.bind, ScannedFile.ofParsed, hscanners, hscan]
    rfl
  have hfetch : fetch defaultPackage "a.js" {} = (.ok (0, true),
      (({} : Session).register "a.js" { document := { url := "a.js", features := [.declaration d] } }).2) := by
    simp only [fetch, hfile]
    rfl
  have hopen : openDocument defaultPackage "a.js" {} = (.ok 0,
      (({} : Session).register "a.js" { document := { url := "a.js", features := [.declaration d] } }).2) := by
    rw [openDocument, openAt_of_ok hfetch]
    rfl
  have hafter : after [.analyze defaultPackage ["a.js"]] = (Session.analyze defaultPackage ["a.js"] {}).2 := rfl
  rw [hafter, Session.analyze, hopen]
  rfl

theorem defaultPackage_written : oneNumber.evaluate = .ok (.list [.int 1]) ∧ (Value.list [.int 1]).IsEvaluated ∧
    ∃ r p, ((after [.analyze defaultPackage ["a.js"]]).graph.memoAfter [.feature ⟨0, 0⟩]).lookup ⟨0, 0⟩ = some r ∧
      p ∈ r.properties ∧ p.default = some (.list [.int 1]) ∧
      ∃ j : Json, j.value = .list [.int 1] ∧ (Value.list [.int 1]).written = .ok j.write := by
  obtain ⟨hwhole, hdefaults⟩ := evaluation_whole
  have hvalue : oneNumber.evaluate = .ok (.list [.int 1]) := rfl
  obtain ⟨hevaluated, -⟩ := (hwhole oneNumber _ hvalue).resolve_left (by decide)
  obtain ⟨d, p, hdeclared, hd, hp⟩ := exists_declared_defaultPackage
  obtain ⟨r, hr, hmem⟩ := Graph.exists_resolved_of_single hdeclared hd
  refine ⟨hvalue, hevaluated, r, ⟨p, none⟩, hr, hmem, hp, ?_⟩
  rcases hdefaults _ _ _ r ⟨p, none⟩ _ hr hmem hp with ⟨source, hsource, -⟩ | ⟨-, hwritten, hjson⟩
  · cases hsource
  · have hj : (Value.list [.int 1]).toJson = .ok (.array [.int 1]) := rfl
    rcases hjson with ⟨j, hok, hback⟩ | ⟨e, -, herror⟩
    · exact ⟨j, hback, by rw [hwritten, hok]; rfl⟩
    · rw [hj] at herror
      cases herror

end Session

end PolymerAnalysis
