import PolymerAnalysis.Proofs.Metadata.Generation
import PolymerAnalysis.Proofs.Resolution.Listing
import PolymerAnalysis.Proofs.Text.Numeral

namespace PolymerAnalysis

open Metadata Relation

def ScannedFeature.section? : ScannedFeature → Option Section
  | .declaration d => Section.ofRole? d.role
  | .space _ => some .namespaces
  | .link _ => none
  | .script _ => none

namespace Feature

def section? : Feature → Option Section
  | .declaration d => Section.ofRole? d.role
  | .space _ => some .namespaces
  | .link _ => none

def IsWritable : Feature → Prop
  | .declaration d =>
    (Section.ofRole? d.role).isSome → ∀ p ∈ d.properties, ∀ v ∈ p.default, ∃ t, v.written = .ok t
  | _ => True

end Feature

namespace Metadata

variable {package version key key' : Text} {x : Feature} {features : List Feature} {j : Json} {s : Section}
  {p : ResolvedProperty} {d : ResolvedDeclaration}

def listed (j : Json) (s : Section) : List Json :=
  let list := match s with
    | .elements => j.get? "elements"
    | .mixins => j.get? "mixins"
    | .namespaces => j.get? "namespaces"
    | .behaviors => ((j.get? "metadata").bind (·.get? "polymer")).bind (·.get? "behaviors")
  (list.map Json.items).getD []

section Sections

theorem lookup_listing_ne (h : key' ≠ key) (items : List Json) (rest : List (Text × Json)) :
    (listing key items ++ rest).lookup key' = rest.lookup key' := by
  rw [listing]
  split
  · rfl
  · exact Keyed.lookup_cons_ne h (.array items) rest

theorem lookup_listing (key : Text) (items : List Json) {rest : List (Text × Json)} (h : rest.lookup key = none) :
    (((listing key items ++ rest).lookup key).map Json.items).getD [] = items := by
  rw [listing]
  split
  · next hempty =>
    rw [List.nil_append, h, List.isEmpty_iff.1 hempty]
    rfl
  · rw [entry, List.singleton_append, List.lookup_cons_self]
    rfl

theorem listed_assemble (version : Text) (entries : List (Section × Json)) (s : Section) :
    listed (assemble version entries) s = entriesOf s entries := by
  have hlast (items : List Json) (j : Json) (key : Text) (h : key ≠ "metadata") :
      (if items.isEmpty then [] else entry "metadata" j).lookup key = none := by
    split
    · rfl
    · exact Keyed.lookup_cons_ne h j []
  cases s
  all_goals
    simp only [listed, assemble, Json.get?, Json.entries, List.append_assoc]
    rw [entry, List.singleton_append, Keyed.lookup_cons_ne (by decide)]
  · refine lookup_listing _ _ ?_
    rw [lookup_listing_ne (by decide), lookup_listing_ne (by decide), hlast _ _ _ (by decide)]
  · rw [lookup_listing_ne (by decide)]
    refine lookup_listing _ _ ?_
    rw [lookup_listing_ne (by decide), hlast _ _ _ (by decide)]
  · rw [lookup_listing_ne (by decide), lookup_listing_ne (by decide)]
    exact lookup_listing _ _ (hlast _ _ _ (by decide))
  · rw [lookup_listing_ne (by decide), lookup_listing_ne (by decide), lookup_listing_ne (by decide)]
    split
    · next hempty =>
      rw [List.isEmpty_iff.1 hempty]
      rfl
    · rw [← List.append_nil (listing "behaviors" _)]
      exact lookup_listing "behaviors" (entriesOf .behaviors entries) rfl

theorem section?_of_sectioned {o : Option (Section × Json)} (h : sectioned package x = .ok o) :
    x.section? = o.map (·.1) := by
  cases x with
  | space n | link l =>
    cases h
    rfl
  | declaration d =>
    rw [sectioned] at h
    rw [Feature.section?]
    split at h
    · next s hs =>
      obtain ⟨j, -, rfl⟩ := exists_of_map_eq_ok h
      exact hs
    · next hs =>
      cases h
      exact hs

theorem forall₂_entriesOf {entries : List (Option (Section × Json))}
    (h : List.Forall₂ (fun x o ↦ sectioned package x = .ok o) features entries) (s : Section) :
    List.Forall₂ (fun x e ↦ sectioned package x = .ok (some (s, e))) (features.filter fun x ↦ x.section? = some s)
      (entriesOf s (entries.filterMap id)) := by
  induction h with
  | nil => exact .nil
  | @cons x o features entries hx _ ih =>
    have hsection := section?_of_sectioned hx
    cases o with
    | none =>
      rw [List.filter_cons_of_neg (by simp [hsection]), List.filterMap_cons_none rfl]
      exact ih
    | some e =>
      obtain ⟨s', j⟩ := e
      rw [List.filterMap_cons_some (f := id) rfl]
      by_cases hs : s' = s
      · subst hs
        rw [List.filter_cons_of_pos (by simp [hsection]), entriesOf, List.filter_cons_of_pos (by simp)]
        exact .cons hx ih
      · rw [List.filter_cons_of_neg (by simpa [hsection] using hs), entriesOf,
          List.filter_cons_of_neg (by simpa using hs)]
        exact ih

end Sections

section Writing

theorem exists_written_int_iff (n : Int) :
    (∃ t, (Value.int n).written = .ok t) ↔ n.natAbs < 10 ^ Text.Numeral.digitLimit := by
  rw [← Text.Numeral.length_ofNat_le_iff (by decide), Value.written, Value.toJson, Text.Numeral.write]
  · by_cases h : (Text.Numeral.ofNat n.natAbs).length > Text.Numeral.digitLimit
    · rw [if_pos h]
      refine ⟨fun hwritten ↦ ?_, fun hle ↦ absurd h (Nat.not_lt.2 hle)⟩
      obtain ⟨t, ht⟩ := hwritten
      cases ht
    · rw [if_neg h]
      exact ⟨fun _ ↦ Nat.not_lt.1 h, fun _ ↦ ⟨_, rfl⟩⟩
  · intro source hsource
    cases hsource

theorem exists_property_iff : (∃ j, property package p = .ok j) ↔ ∀ v ∈ p.default, ∃ t, v.written = .ok t := by
  rw [property]
  refine exists_map_iff.trans ?_
  cases hdefault : p.default with
  | none => exact ⟨fun _ v hv ↦ absurd hv (Option.not_mem_none v), fun _ ↦ ⟨none, rfl⟩⟩
  | some v =>
    refine (exists_map_iff (x := v.written) (f := some)).trans ⟨fun h w hw ↦ ?_, fun h ↦ h v rfl⟩
    cases hw
    exact h

theorem exists_declaration_iff :
    (∃ j, declaration package d = .ok j) ↔ ∀ p ∈ d.properties, ∀ v ∈ p.default, ∃ t, v.written = .ok t := by
  rw [declaration]
  refine exists_map_iff.trans (exists_mapM_iff.trans ?_)
  exact forall₂_congr fun p _ ↦ exists_property_iff

theorem exists_sectioned_iff : (∃ o, sectioned package x = .ok o) ↔ x.IsWritable := by
  cases x with
  | space n | link l => exact ⟨fun _ ↦ trivial, fun _ ↦ ⟨_, rfl⟩⟩
  | declaration d =>
    rw [sectioned, Feature.IsWritable]
    cases Section.ofRole? d.role with
    | none => exact ⟨fun _ h ↦ absurd h Bool.false_ne_true, fun _ ↦ ⟨none, rfl⟩⟩
    | some s => exact exists_map_iff.trans (exists_declaration_iff.trans ⟨fun h _ ↦ h, fun h ↦ h rfl⟩)

theorem exists_generate_iff :
    (∃ j, generate package version features = .ok j) ↔ ∀ x ∈ features, isPlaced package x → x.IsWritable := by
  rw [generate]
  refine exists_map_iff.trans (exists_mapM_iff.trans ?_)
  simp only [exists_sectioned_iff, List.mem_filter, and_imp]

theorem forall₂_listed (h : generate package version features = .ok j) (s : Section) :
    List.Forall₂ (fun x e ↦ sectioned package x = .ok (some (s, e)))
      (features.filter fun x ↦ isPlaced package x && x.section? = some s) (listed j s) := by
  obtain ⟨entries, hentries, h⟩ := exists_of_bind_eq_ok h
  cases h
  have hall := forall₂_entriesOf (forall₂_of_mapM hentries) s
  rw [listed_assemble]
  rw [List.filter_filter] at hall
  simpa only [Bool.and_comm] using hall

end Writing

end Metadata

namespace Graph

variable {g : Graph} {documents : List DocId} {requests : List Request} {memo : Memo} {f : FeatureId} {x : Feature}
  {package version : Text} {s : Section} {answer : List Feature × Memo}

def belongs (g : Graph) (package : Text) (s : Section) (f : FeatureId) : Bool :=
  (g.feature? f).any fun x ↦ (x.range.any fun r ↦ inPackage package r.file) && x.section? = some s

theorem IsResolved.belongs_eq (h : g.IsResolved memo f x) (hmemo : g.Built memo) (package : Text) (s : Section) :
    g.belongs package s f = (isPlaced package x && x.section? = some s) := by
  cases h with
  | declaration hd hr =>
    obtain ⟨earlier, chain, d', parts, -, -, hassembles, rfl⟩ := exists_assembles hmemo rfl hr
    cases hd.symm.trans hassembles.declared
    rw [belongs, declaration?_eq_some_iff.1 hd]
    rfl
  | space hn =>
    rw [belongs, hn]
    rfl
  | link hl =>
    rw [belongs, hl]
    rfl

theorem Lists.entries (h : g.Lists documents requests answer) (hmemo : g.Built answer.2) {j : Json}
    (hj : generate package version answer.1 = .ok j) (s : Section) :
    List.Forall₂ (fun f e ↦ ∃ x, g.IsResolved answer.2 f x ∧ sectioned package x = .ok (some (s, e)))
      ((g.discovered documents).filter (g.belongs package s)) (listed j s) := by
  refine forall₂_comp ?_ (forall₂_listed hj s)
  have hsame (f : FeatureId) (x : Feature) (hx : g.IsResolved answer.2 f x) :=
    Bool.eq_iff_iff.1 (hx.belongs_eq hmemo package s)
  exact List.rel_filter hsame h.resolved

theorem exists_generate (hlists : g.Lists documents requests answer) (hmemo : g.Built answer.2)
    (hdefaults : ∀ t d, g.declaration? t = some d →
      ∀ p ∈ d.properties, ∀ v ∈ p.default, ∃ text, v.written = .ok text) (package version : Text) :
    ∃ j, generate package version answer.1 = .ok j := by
  refine exists_generate_iff.2 fun x hx _ ↦ ?_
  obtain ⟨f, -, hresolved⟩ := exists_of_forall₂ hlists.resolved.flip hx
  cases hresolved with
  | space hn | link hl => trivial
  | declaration hd hr =>
    intro _ p hp v hv
    obtain ⟨t, d, hd, hp⟩ := hmemo.exists_declaring hr p hp
    exact hdefaults t d hd p.toProperty hp v hv

/-- Whatever was asked for before, each feature that can be reached from some documents is listed once; and so is, in
generated metadata, each of those that have a place in the package and a section. -/
theorem listed_once (g : Graph) (documents : List DocId) (requests : List Request) (hfiles : g.ImportsFiles)
    (hcontainers : g.ContainersFirst) (hdocuments : ∀ i ∈ documents, i < g.size) :
    let answer := g.featuresOfAll documents (g.memoAfter requests)
    g.Lists documents requests answer ∧
    (∀ i ∈ documents, g.features i none none true (g.memoAfter requests) =
      g.featuresOfAll [i] (g.memoAfter requests)) ∧
    ∀ package version,
      ((∃ j, generate package version answer.1 = .ok j) ↔
        ∀ x ∈ answer.1, isPlaced package x → x.IsWritable) ∧
      ∀ j, generate package version answer.1 = .ok j → ∀ s,
        List.Forall₂ (fun f e ↦ ∃ x, g.IsResolved answer.2 f x ∧ sectioned package x = .ok (some (s, e)))
          ((g.discovered documents).filter (g.belongs package s)) (listed j s) := by
  have hlists := lists_featuresOfAll hfiles hcontainers hdocuments requests
  have hbuilt := built_featuresOfAll documents (built_memoAfter g requests)
  refine ⟨hlists, fun i hi ↦ features_eq hfiles hcontainers (hdocuments i hi) _, fun package version ↦ ?_⟩
  exact ⟨exists_generate_iff, fun j hj s ↦ hlists.entries hbuilt hj s⟩

def shelfElement : Declaration where
  role := .element (some "x-a") none
  range := some ⟨"b.html", ⟨0, 0⟩, ⟨1, 2⟩⟩
  properties := [{ name := "p", default := some (.int 1) }]

def shelfBehavior : Declaration where
  role := .behavior
  range := some ⟨"a.html", ⟨2, 0⟩, ⟨4, 2⟩⟩
  name := some "B"

def shelf : Graph where
  documents := [
    { url := "a.html", imports := [1]
      features := [.link { range := some ⟨"a.html", ⟨0, 0⟩, ⟨0, 30⟩⟩, url := "b.html" },
        .script { range := some ⟨"a.html", ⟨1, 0⟩, ⟨5, 9⟩⟩ },
        .space { name := "N", range := some ⟨"a.html", ⟨6, 0⟩, ⟨6, 9⟩⟩ }] },
    { url := "b.html", imports := [0], features := [.declaration shelfElement] },
    { url := "a.html", container := some 0, features := [.declaration shelfBehavior] }]

theorem shelf_defaults (t : FeatureId) (d : Declaration) (hd : shelf.declaration? t = some d) :
    ∀ p ∈ d.properties, ∀ v ∈ p.default, ∃ text, v.written = .ok text := by
  have hone : ∃ text, (Value.int 1).written = .ok text := ⟨_, rfl⟩
  obtain ⟨document, hdocument, hmem⟩ := exists_mem_of_declaration? hd
  simp only [shelf, List.mem_cons, List.not_mem_nil, or_false] at hdocument
  intro p hp v hv
  rcases hdocument with rfl | rfl | rfl
  · simp at hmem
  · cases List.mem_singleton.1 hmem
    cases List.mem_singleton.1 hp
    cases hv
    exact hone
  · cases List.mem_singleton.1 hmem
    cases hp

theorem shelf_listed : shelf.discovered [1, 0, 1] = [⟨1, 0⟩, ⟨0, 0⟩, ⟨0, 2⟩, ⟨2, 0⟩] ∧
    ∃ j, generate "" schemaVersion (shelf.featuresOfAll [1, 0, 1] (shelf.memoAfter [.document 0])).1 = .ok j ∧
      (listed j .elements).length = 1 ∧ (listed j .namespaces).length = 1 ∧ (listed j .behaviors).length = 1 := by
  obtain ⟨hlists, -, hwritten⟩ := listed_once shelf [1, 0, 1] [.document 0] (by decide) (by decide) (by decide)
  have hbuilt := built_featuresOfAll [1, 0, 1] (built_memoAfter shelf [.document 0])
  obtain ⟨j, hj⟩ := exists_generate hlists hbuilt shelf_defaults "" schemaVersion
  have hlength (s : Section) := ((hwritten "" schemaVersion).2 j hj s).length_eq
  have hdiscovered : shelf.discovered [1, 0, 1] = [⟨1, 0⟩, ⟨0, 0⟩, ⟨0, 2⟩, ⟨2, 0⟩] := by cbv
  rw [hdiscovered] at hlength
  exact ⟨hdiscovered, j, hj, (hlength .elements).symm, (hlength .namespaces).symm, (hlength .behaviors).symm⟩

def counter (n : Int) : Declaration where
  role := .behavior
  range := some ⟨"a.js", ⟨0, 0⟩, ⟨2, 2⟩⟩
  name := some "A"
  properties := [{ name := "p", default := some (.int n) }]

def counting (n : Int) : Graph where
  documents := [{ url := "a.js", features := [.declaration (counter n)] }]

theorem not_generated_of_long {n : Int} (hn : 10 ^ Text.Numeral.digitLimit ≤ n.natAbs) :
    ¬∃ j, generate "" schemaVersion ((counting n).featuresOfAll [0] []).1 = .ok j := by
  have hids : ([0].flatMap fun i ↦ (counting n).fileFeatureIds i true).eraseDups = [⟨0, 0⟩] := by cbv
  have hd : (counting n).declaration? ⟨0, 0⟩ = some (counter n) := rfl
  have hresolved : (counting n).resolveFrom [] ⟨0, 0⟩ (counter n) [] = _ := resolveFrom_computed rfl
  rw [exists_generate_iff, featuresOfAll, hids]
  simp only [resolveAll, resolveFeature_of_declaration hd, resolveDeclaration, hresolved]
  intro hall
  have hwritable := hall _ List.mem_cons_self rfl rfl _ List.mem_cons_self _ rfl
  exact absurd ((exists_written_int_iff n).1 hwritable) (Nat.not_lt.2 hn)

theorem twins_listed_otherwise :
    (twins.featuresOfAll [0, 1] (twins.memoAfter [.document 1])).1 ≠ (twins.featuresOfAll [0, 1] []).1 := by
  intro hsame
  obtain ⟨d, hd⟩ := exists_declaration_of_refersTo twins_refersTo.1
  -- asked for first, the second document has its behavior take in the first one's, which loses its own reference
  obtain ⟨r, hr, hlt⟩ := exists_longer_warnings hd twins_refersTo.1 (by decide) (.single twins_refersTo.2)
  have hids : ([0, 1].flatMap fun i ↦ twins.fileFeatureIds i true).eraseDups = [⟨0, 0⟩, ⟨1, 0⟩] := by cbv
  have hlocal : twins.localFeatureIds 1 = [⟨1, 0⟩] := by cbv
  have hmemo : twins.memoAfter [.document 1] = twins.memoAfter [.feature ⟨1, 0⟩] := by
    rw [memoAfter_eq, memoAfter_eq, List.flatMap_singleton, List.flatMap_singleton]
    rw [Request.asks, Request.asks, hlocal]
  simp only [featuresOfAll, hids, hmemo, resolveAll, resolveFeature_of_declaration hd, Option.toList_some,
    List.singleton_append, List.cons.injEq, Feature.declaration.injEq] at hsame
  rw [resolveDeclaration, resolveFrom_remembered hr] at hsame
  rw [← hsame.1] at hlt
  exact lt_irrefl _ hlt

theorem listing_depends_on_history :
    (¬∀ (g : Graph) (documents : List DocId) (requests : List Request), g.ImportsFiles → g.ContainersFirst →
      (∀ i ∈ documents, i < g.size) →
      (g.featuresOfAll documents (g.memoAfter requests)).1 = (g.featuresOfAll documents []).1) ∧
    ¬∀ (g : Graph) (documents : List DocId) (package version : Text), g.ImportsFiles → g.ContainersFirst →
      (∀ i ∈ documents, i < g.size) → ∃ j, generate package version (g.featuresOfAll documents []).1 = .ok j := by
  constructor
  · intro h
    exact twins_listed_otherwise (h twins [0, 1] [.document 1] (by decide) (by decide) (by decide))
  · intro h
    have hlong : 10 ^ Text.Numeral.digitLimit ≤ ((10 ^ Text.Numeral.digitLimit : Nat) : Int).natAbs :=
      le_of_eq (Int.natAbs_natCast _).symm
    exact not_generated_of_long hlong (h (counting _) [0] "" schemaVersion (by decide) (by decide) (by decide))

end Graph

end PolymerAnalysis
