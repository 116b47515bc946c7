import PolymerAnalysis.Proofs.Metadata.Schema
import PolymerAnalysis.Proofs.Session.Features

namespace PolymerAnalysis.Metadata

open Schema

variable {package : Text} {j : Json}

theorem allows_text (t : Option Text) : string.Allows (text t) := allows_string _

theorem allows_map_string (t : Option Text) : ∀ j ∈ t.map Json.string, string.Allows j := by
  intro j hj
  obtain ⟨t, -, rfl⟩ := Option.map_eq_some_iff.1 hj
  exact allows_string t

theorem allows_position {p : Position} (h : p.WellFormed) : Schema.position.Allows (position p) := by
  refine allows_object rfl ?_ (.append ?_ ?_)
  · simp [requiredKeys, Schema.position, entry]
  · exact fits_entry rfl (allows_count h.1)
  · exact fits_entry rfl (allows_count h.2)

theorem allows_range (package : Text) {r : SourceRange} (h : r.WellFormed) :
    Schema.range.Allows (range package r) := by
  refine allows_object rfl ?_ (.append (.append ?_ ?_) ?_)
  · simp [requiredKeys, Schema.range, entry]
  · exact fits_entry rfl (allows_string _)
  · exact fits_entry rfl (allows_position h.1)
  · exact fits_entry rfl (allows_position h.2)

theorem allows_map_range (package : Text) {r : Option SourceRange} (h : ∀ x ∈ r, x.WellFormed) :
    ∀ j ∈ r.map (range package), Schema.range.Allows j := by
  intro j hj
  obtain ⟨x, hx, rfl⟩ := Option.map_eq_some_iff.1 hj
  exact allows_range package (h x hx)

theorem allows_property {p : ResolvedProperty} (hp : p.toProperty.WellFormed) (h : property package p = .ok j) :
    member.Allows j := by
  obtain ⟨default, -, h⟩ := exists_of_bind_eq_ok h
  cases h
  refine allows_object rfl ?_ ?_
  · simp [requiredKeys, member, entry]
  iterate 7 refine Fits.append ?_ ?_
  · exact fits_entry rfl (allows_string _)
  · exact fits_entry rfl (allows_string _)
  · exact fits_entry rfl (allows_text _)
  · exact fits_entry rfl (allows_privacy hp.privacy.mem)
  · exact fits_entry rfl (allows_anyObject _)
  · exact fits_optionalEntry rfl (allows_map_range package hp.range)
  · exact fits_optionalEntry rfl (allows_map_string _)
  · exact fits_optionalEntry rfl (allows_map_string _)

theorem allows_attribute (package : Text) {a : Attribute} (ha : a.WellFormed) :
    Schema.attributeEntry.Allows (attributeEntry package a) := by
  refine allows_object rfl ?_ ?_
  · simp [requiredKeys, Schema.attributeEntry, entry]
  iterate 5 refine Fits.append ?_ ?_
  · exact fits_entry rfl (allows_string _)
  · exact fits_entry rfl (allows_text _)
  · exact fits_entry rfl (allows_anyObject _)
  · exact fits_optionalEntry rfl (allows_map_string _)
  · exact fits_optionalEntry rfl (allows_map_range package ha)
  · exact fits_optionalEntry rfl (allows_map_string _)

theorem allows_event (e : Event) : Schema.event.Allows (event e) := by
  refine allows_object rfl ?_ ?_
  · simp [requiredKeys, Schema.event, entry]
  iterate 4 refine Fits.append ?_ ?_
  · exact fits_entry rfl (allows_string _)
  · exact fits_entry rfl (allows_string _)
  · exact fits_entry rfl (allows_text _)
  · exact fits_entry rfl (allows_anyObject _)
  · exact fits_optionalEntry rfl (allows_map_string _)

theorem allows_space (package : Text) {n : NamespaceFeature} (hn : n.WellFormed) :
    Schema.space.Allows (space package n) := by
  refine allows_object rfl ?_ ?_
  · simp [requiredKeys, Schema.space, entry]
  iterate 3 refine Fits.append ?_ ?_
  · exact fits_entry rfl (allows_string _)
  · exact fits_entry rfl (allows_text _)
  · exact fits_entry rfl (allows_text _)
  · exact fits_optionalEntry rfl (allows_map_range package hn)

theorem fits_names {schema : Schema} {key : Text} (hkey : schema.members key = [arrayOf string]) (ts : List Text) :
    schema.Fits (names key ts) := by
  rw [names]
  split
  · exact fits_nil schema
  · refine fits_entry hkey (allows_arrayOf fun x hx ↦ ?_)
    obtain ⟨t, -, rfl⟩ := List.mem_map.1 hx
    exact allows_string t

theorem fits_listing {schema items : Schema} {key : Text} (hkey : schema.members key = [arrayOf items]) {js : List Json}
    (h : ∀ j ∈ js, items.Allows j) : schema.Fits (listing key js) := by
  rw [listing]
  split
  · exact fits_nil schema
  · exact fits_entry hkey (allows_arrayOf h)

/-- Elements are described as mixins are, apart from their tags and superclasses. -/
theorem allows_declaration {schema : Schema} (hschema : schema = mixin ∨ schema = element) {d : ResolvedDeclaration}
    (hd : d.WellFormed) (hrole : schema.Fits (roleEntries d.role)) (h : declaration package d = .ok j) :
    schema.Allows j := by
  obtain ⟨properties, hproperties, h⟩ := exists_of_bind_eq_ok h
  cases h
  have hmembers : (arrayOf member).Allows (.array properties) := by
    refine allows_arrayOf fun x hx ↦ ?_
    obtain ⟨p, hp, hx⟩ := exists_of_mem_mapM hproperties hx
    exact allows_property (hd.properties p hp) hx
  have hattributes : (arrayOf Schema.attributeEntry).Allows (.array (d.attributes.map (attributeEntry package))) := by
    refine allows_arrayOf fun x hx ↦ ?_
    obtain ⟨a, ha, rfl⟩ := List.mem_map.1 hx
    exact allows_attribute package (hd.attributes a ha)
  have hevents : (arrayOf Schema.event).Allows (.array (d.events.map event)) := by
    refine allows_arrayOf fun x hx ↦ ?_
    obtain ⟨e, -, rfl⟩ := List.mem_map.1 hx
    exact allows_event e
  rcases hschema with rfl | rfl
  all_goals
    refine allows_object rfl ?_ ?_
    · simp [requiredKeys, element, mixin, entry]
    iterate 12 refine Fits.append ?_ ?_
    · exact fits_entry rfl (allows_text _)
    · exact fits_entry rfl (allows_text _)
    · exact fits_entry rfl (allows_string _)
    · exact fits_entry rfl hmembers
    · exact fits_entry rfl hattributes
    · exact fits_entry rfl hevents
    · exact fits_entry rfl (allows_privacy hd.privacy.mem)
    · exact fits_entry rfl (allows_anyObject _)
    · exact fits_optionalEntry rfl (allows_map_string _)
    · exact fits_optionalEntry rfl (allows_map_range package hd.range)
    · exact fits_names rfl _
    · exact fits_names rfl _
    · exact hrole

def Section.schema : Section → Schema
  | .elements => element
  | .mixins => mixin
  | .namespaces => Schema.space
  | .behaviors => mixin

theorem allows_sectioned {f : Feature} (hf : f.WellFormed) {e : Section × Json}
    (h : sectioned package f = .ok (some e)) : e.1.schema.Allows e.2 := by
  cases f with
  | link i => cases h
  | space n =>
    cases h
    exact allows_space package hf
  | declaration d =>
    rw [sectioned] at h
    split at h
    · next s hs =>
      obtain ⟨j, hj, he⟩ := exists_of_map_eq_ok h
      cases he
      cases hrole : d.role with
      | bare =>
        rw [hrole] at hs
        cases hs
      | element tagName superclass =>
        rw [hrole] at hs
        cases hs
        refine allows_declaration (.inr rfl) hf ?_ hj
        rw [hrole]
        exact (fits_optionalEntry rfl (allows_map_string _)).append (fits_optionalEntry rfl (allows_map_string _))
      | mixin | behavior =>
        rw [hrole] at hs
        cases hs
        refine allows_declaration (.inl rfl) hf ?_ hj
        rw [hrole]
        exact fits_nil _
    · cases h

theorem allows_entriesOf {entries : List (Section × Json)} (h : ∀ e ∈ entries, e.1.schema.Allows e.2) (s : Section) :
    ∀ j ∈ entriesOf s entries, s.schema.Allows j := by
  intro j hj
  obtain ⟨e, he, rfl⟩ := List.mem_map.1 hj
  obtain ⟨hmem, hs⟩ := List.mem_filter.1 he
  exact of_decide_eq_true hs ▸ h e hmem

theorem allows_assemble (version : Text) {entries : List (Section × Json)}
    (h : ∀ e ∈ entries, e.1.schema.Allows e.2) : Schema.package.Allows (assemble version entries) := by
  refine allows_object rfl ?_ ?_
  · simp [requiredKeys, Schema.package, entry]
  iterate 4 refine Fits.append ?_ ?_
  · exact fits_entry rfl (allows_string _)
  · exact fits_listing rfl (allows_entriesOf h .elements)
  · exact fits_listing rfl (allows_entriesOf h .mixins)
  · exact fits_listing rfl (allows_entriesOf h .namespaces)
  · split
    · exact fits_nil _
    · refine fits_entry rfl (allows_object rfl (fun k hk ↦ by cases hk) (fits_entry rfl ?_))
      refine allows_object rfl (fun k hk ↦ by cases hk) ?_
      exact fits_listing rfl (allows_entriesOf h .behaviors)

theorem allows_generate {version : Text} {features : List Feature} (hfeatures : ∀ f ∈ features, f.WellFormed)
    (h : generate package version features = .ok j) :
    Schema.package.Allows j ∧ j.get? "schema_version" = some (.string version) := by
  obtain ⟨entries, hentries, h⟩ := exists_of_bind_eq_ok h
  cases h
  refine ⟨allows_assemble version fun e he ↦ ?_, rfl⟩
  obtain ⟨e, he, rfl⟩ := List.mem_filterMap.1 he
  obtain ⟨f, hf, hsectioned⟩ := exists_of_mem_mapM hentries he
  exact allows_sectioned (hfeatures f (List.mem_of_mem_filter hf)) hsectioned

theorem checkVersion_schemaVersion : checkVersion schemaVersion schemaVersion = .ok () := by decide +kernel

theorem validate_of_allows (h : Schema.package.Allows j)
    (hversion : j.get? "schema_version" = some (.string schemaVersion)) : validate schemaVersion j = .ok () := by
  rw [validate, h.check_eq_nil, hversion]
  exact checkVersion_schemaVersion

/-- Metadata that is generated is valid, whatever of well-formed features it is generated from. What is resolved of
well-formed documents is well-formed, and so are all documents of a session. -/
theorem metadata_valid :
    (∀ (package : Text) (features : List Feature) (j : Json), (∀ f ∈ features, f.WellFormed) →
      generate package schemaVersion features = .ok j → validate schemaVersion j = .ok ()) ∧
    (∀ (g : Graph) (requests : List Request) (documents : List DocId), g.WellFormed →
      ∀ f ∈ (g.featuresOfAll documents (g.memoAfter requests)).1, f.WellFormed) ∧
    ∀ calls, (Session.after calls).graph.WellFormed := by
  refine ⟨fun package features j hfeatures h ↦ ?_, fun g requests documents hg ↦ ?_, Session.wellFormed_after⟩
  · obtain ⟨hallows, hversion⟩ := allows_generate hfeatures h
    exact validate_of_allows hallows hversion
  · exact hg.resolveAll (Graph.built_memoAfter g requests) _

def libraryBehavior : Declaration where
  role := .behavior
  range := some ⟨"lib/a.js", ⟨2, 0⟩, ⟨4, 2⟩⟩
  name := some "B"
  properties := [
    { name := "p_", default := some (.int 1), privacy := "protected", range := some ⟨"lib/a.js", ⟨3, 2⟩, ⟨3, 8⟩⟩ }]

def libraryElement : Declaration where
  role := .element (some "x-a") none
  range := some ⟨"lib/a.js", ⟨0, 0⟩, ⟨1, 2⟩⟩
  behaviors := [⟨"B", none⟩]

def libraryNamespace : NamespaceFeature := { name := "N", range := some ⟨"lib/a.js", ⟨5, 0⟩, ⟨5, 9⟩⟩ }

def library : Graph where
  documents := [
    { url := "lib/a.js"
      features := [.declaration libraryElement, .declaration libraryBehavior, .space libraryNamespace] }]

theorem wellFormed_library : library.WellFormed := by
  have hrange (file : Text) (a b c d : Nat) : ∀ r ∈ some (⟨file, ⟨a, b⟩, ⟨c, d⟩⟩ : SourceRange), r.WellFormed := by
    intro r hr
    cases hr
    exact ⟨⟨Int.natCast_nonneg a, Int.natCast_nonneg b⟩, ⟨Int.natCast_nonneg c, Int.natCast_nonneg d⟩⟩
  have hprotected : IsPrivacy "protected" := ⟨"p_", none, rfl⟩
  have helement : libraryElement.WellFormed :=
    ⟨isPrivacy_public, hrange _ 0 0 1 2, fun _ hp ↦ absurd hp List.not_mem_nil, fun _ ha ↦ absurd ha List.not_mem_nil⟩
  have hbehavior : libraryBehavior.WellFormed := by
    refine ⟨isPrivacy_public, hrange _ 2 0 4 2, fun p hp ↦ ?_, fun _ ha ↦ absurd ha List.not_mem_nil⟩
    cases List.mem_singleton.1 hp
    exact ⟨hprotected, hrange _ 3 2 3 8⟩
  intro i d hd x hx
  cases i with
  | succ i => cases hd
  | zero =>
    cases hd
    rcases List.mem_cons.1 hx with rfl | hx
    · exact helement
    rcases List.mem_cons.1 hx with rfl | hx
    · exact hbehavior
    · cases List.mem_singleton.1 hx
      exact hrange _ 5 0 5 9

theorem library_valid : ∃ j, generate "lib" schemaVersion (library.featuresOfAll [0] (library.memoAfter [])).1 = .ok j ∧
    validate schemaVersion j = .ok () := by
  obtain ⟨hvalid, hresolved, -⟩ := metadata_valid
  have hj : ∃ j, generate "lib" schemaVersion (library.featuresOfAll [0] (library.memoAfter [])).1 = .ok j := by
    have hids : ([0].flatMap fun i ↦ library.fileFeatureIds i true).eraseDups = [⟨0, 0⟩, ⟨0, 1⟩, ⟨0, 2⟩] := by cbv
    have hB : library.target? 0 .behavior ⟨"B", none⟩ = some (⟨0, 1⟩, libraryBehavior) := by cbv
    have hbehavior : library.resolveFrom [⟨0, 0⟩] ⟨0, 1⟩ libraryBehavior [] = _ := Graph.resolveFrom_computed rfl
    have helement : library.resolveFrom [] ⟨0, 0⟩ libraryElement [] = _ :=
      Graph.resolveFrom_of_single rfl rfl hB (by decide)
    rw [hbehavior] at helement
    have hmemo : library.memoAfter [] = [] := rfl
    rw [Graph.featuresOfAll, hids, hmemo]
    have hfirst : library.declaration? ⟨0, 0⟩ = some libraryElement := rfl
    have hsecond : library.declaration? ⟨0, 1⟩ = some libraryBehavior := rfl
    simp only [Graph.resolveAll, Graph.resolveFeature_of_declaration hfirst, Graph.resolveDeclaration, helement,
      Graph.resolveFeature_of_declaration hsecond]
    rw [Graph.resolveFrom_remembered rfl]
    exact ⟨_, rfl⟩
  obtain ⟨j, hj⟩ := hj
  exact ⟨j, hj, hvalid _ _ j (hresolved library [] [0] wellFormed_library) hj⟩

end PolymerAnalysis.Metadata
