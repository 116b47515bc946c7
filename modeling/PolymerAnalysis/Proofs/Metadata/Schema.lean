import PolymerAnalysis.Metadata.Generation

namespace PolymerAnalysis.Schema

variable {schema : Schema} {r : Rule} {j : Json} {key : Text} {entries entries' : List (Text × Json)}

def Allows (schema : Schema) (j : Json) : Prop := ∀ path, violations path j schema = []

theorem allows_nil (j : Json) : Allows [] j := fun _ ↦ rfl

theorem allows_cons (hr : ∀ path, ruleViolations path j r = []) (h : schema.Allows j) : Allows (r :: schema) j := by
  intro path
  rw [violations, hr path, h path, List.append_nil]

theorem Allows.check_eq_nil (h : schema.Allows j) : schema.check j = [] := by
  rw [check, h Violation.rootPath, List.mergeSort_nil]

theorem allows_type {t : JsonType} (ht : t.holds j = true) (h : schema.Allows j) : Allows (.type t :: schema) j :=
  allows_cons (fun _ ↦ if_pos ht) h

theorem allows_string (t : Text) : string.Allows (.string t) := allows_type rfl (allows_nil _)

theorem allows_anyObject (entries : List (Text × Json)) : anyObject.Allows (.object entries) :=
  allows_type rfl (allows_nil _)

theorem allows_count {n : Int} (h : 0 ≤ n) : count.Allows (.int n) := by
  refine allows_type rfl (allows_cons (fun path ↦ if_neg ?_) (allows_nil _))
  simpa [Json.isBelow] using h

theorem allows_privacy {t : Text} (h : t ∈ (["public", "protected", "private"] : List Text)) :
    privacy.Allows (.string t) := by
  refine allows_cons (fun path ↦ if_pos ?_) (allows_nil _)
  exact List.any_eq_true.2 ⟨t, h, decide_eq_true rfl⟩

theorem allows_arrayOf {items : List Json} (h : ∀ x ∈ items, schema.Allows x) :
    (arrayOf schema).Allows (.array items) := by
  refine allows_type rfl (allows_cons (fun path ↦ List.flatMap_eq_nil_iff.2 ?_) (allows_nil _))
  exact fun x hx ↦ h x.1 (List.fst_mem_of_mem_zipIdx hx) _

def isForObjects : Rule → Bool
  | .type t => t = .object
  | .required _ => true
  | .property _ _ => true
  | _ => false

def requiredKeys (schema : Schema) : List Text :=
  schema.flatMap fun r ↦ match r with
    | .required keys => keys
    | _ => []

def members (schema : Schema) (key : Text) : List Schema :=
  schema.filterMap fun r ↦ match r with
    | .property k s => if k = key then some s else none
    | _ => none

def Fits (schema : Schema) (entries : List (Text × Json)) : Prop :=
  ∀ e ∈ entries, ∀ s ∈ schema.members e.1, s.Allows e.2

theorem isSome_lookup (h : key ∈ entries.map (·.1)) : (entries.lookup key).isSome = true := by
  obtain ⟨e, he, hkey⟩ := List.mem_map.1 h
  exact List.lookup_isSome_iff.2 ⟨e, he, beq_iff_eq.2 hkey.symm⟩

theorem mem_of_lookup (h : entries.lookup key = some j) : (key, j) ∈ entries := by
  obtain ⟨before, behind, rfl, -⟩ := List.lookup_eq_some_iff.1 h
  exact List.mem_append_right before List.mem_cons_self

/-- A schema allows an object that has the required keys, if it allows what stands under each key. -/
theorem allows_object (hrules : schema.all isForObjects = true)
    (hrequired : ∀ k ∈ schema.requiredKeys, k ∈ entries.map (·.1)) (hfits : schema.Fits entries) :
    schema.Allows (.object entries) := by
  have hall : ∀ r ∈ schema, ∀ path, ruleViolations path (.object entries) r = [] := by
    intro r hr path
    cases r with
    | type t =>
      have ht : t = .object := of_decide_eq_true (List.all_eq_true.1 hrules _ hr)
      rw [ruleViolations, ht]
      rfl
    | required keys =>
      rw [ruleViolations, List.map_eq_nil_iff, List.filter_eq_nil_iff]
      intro k hk hnone
      have hin : k ∈ schema.requiredKeys := List.mem_flatMap.2 ⟨_, hr, hk⟩
      have hsome : ((Json.object entries).get? k).isSome = true := isSome_lookup (hrequired k hin)
      rw [Option.isNone_iff_eq_none.1 hnone] at hsome
      cases hsome
    | property k s =>
      rw [ruleViolations]
      split
      · next x hx =>
        have hs : s ∈ schema.members k := List.mem_filterMap.2 ⟨_, hr, if_pos rfl⟩
        exact hfits _ (mem_of_lookup hx) s hs _
      · rfl
    | items | oneOf | minimum => cases List.all_eq_true.1 hrules _ hr
  clear hrules hrequired hfits
  induction schema with
  | nil => exact allows_nil _
  | cons r rs ih =>
    exact allows_cons (hall r List.mem_cons_self) (ih fun r hr ↦ hall r (List.mem_cons_of_mem _ hr))

theorem Fits.append (h : schema.Fits entries) (h' : schema.Fits entries') : schema.Fits (entries ++ entries') := by
  intro e he
  rcases List.mem_append.1 he with he | he
  · exact h e he
  · exact h' e he

theorem fits_nil (schema : Schema) : schema.Fits [] := fun _ he ↦ by cases he

variable {s : Schema}

theorem fits_entry (hkey : schema.members key = [s]) (hj : s.Allows j) : schema.Fits (Metadata.entry key j) := by
  intro e he t ht
  cases List.mem_singleton.1 he
  rw [hkey, List.mem_singleton] at ht
  exact ht ▸ hj

theorem fits_optionalEntry {value : Option Json} (hkey : schema.members key = [s]) (hj : ∀ j ∈ value, s.Allows j) :
    schema.Fits (Metadata.optionalEntry key value) := by
  cases value with
  | none => exact fits_nil schema
  | some j => exact fits_entry hkey (hj j rfl)

end PolymerAnalysis.Schema
