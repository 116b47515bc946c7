import PolymerAnalysis.Metadata.Generation
import PolymerAnalysis.Proofs.Json.Grammar
import PolymerAnalysis.Proofs.Scan.Flags
import PolymerAnalysis.Proofs.Value.Evaluated

namespace PolymerAnalysis

open Text Numeral

namespace Json

mutual

def value : Json → Value
  | .null => .null
  | .bool b => .bool b
  | .int n => .int n
  | .float x => .float x
  | .string t => .text t
  | .array xs => .list (valueItems xs)
  | .object es => .dict (valueEntries es)

def valueItems : List Json → List Value
  | [] => []
  | x :: xs => value x :: valueItems xs

def valueEntries : List (Text × Json) → List (Text × Value)
  | [] => []
  | (k, x) :: es => (k, value x) :: valueEntries es

end

mutual

theorem value_injective : ∀ {i j : Json}, i.value = j.value → i = j
  | .null, j, h => by cases j <;> simp_all [value]
  | .bool b, j, h => by cases j <;> simp_all [value]
  | .int n, j, h => by cases j <;> simp_all [value]
  | .float x, j, h => by cases j <;> simp_all [value]
  | .string t, j, h => by cases j <;> simp_all [value]
  | .array xs, j, h => by
    cases j with
    | array ys => rw [valueItems_injective (Value.list.inj h)]
    | null | bool | int | float | string | object => cases h
  | .object es, j, h => by
    cases j with
    | object ds => rw [valueEntries_injective (Value.dict.inj h)]
    | null | bool | int | float | string | array => cases h

theorem valueItems_injective : ∀ {xs ys : List Json}, valueItems xs = valueItems ys → xs = ys
  | [], [], _ => rfl
  | [], _ :: _, h => by cases h
  | _ :: _, [], h => by cases h
  | _ :: _, _ :: _, h => by
    obtain ⟨hx, hxs⟩ := List.cons.inj h
    rw [value_injective hx, valueItems_injective hxs]

theorem valueEntries_injective : ∀ {es ds : List (Text × Json)}, valueEntries es = valueEntries ds → es = ds
  | [], [], _ => rfl
  | [], _ :: _, h => by cases h
  | _ :: _, [], h => by cases h
  | (_, _) :: _, (_, _) :: _, h => by
    obtain ⟨he, hes⟩ := List.cons.inj h
    obtain ⟨hk, hx⟩ := Prod.mk.inj he
    rw [hk, value_injective hx, valueEntries_injective hes]

end

end Json

namespace Value

variable {v : Value} {j : Json} {t : Text}

theorem toJsonItems_eq_ok {xs : List Value} {js : List Json}
    (h : ∀ x ∈ xs, ∀ j, x.toJson = .ok j → j.IsProper ∧ j.value = x) (hjs : toJsonItems xs = .ok js) :
    (∀ j ∈ js, j.IsProper) ∧ Json.valueItems js = xs := by
  induction xs generalizing js with
  | nil =>
    cases hjs
    exact ⟨List.forall_mem_nil _, rfl⟩
  | cons x xs ih =>
    rw [List.forall_mem_cons] at h
    obtain ⟨j, hj, hjs⟩ := exists_of_bind_eq_ok hjs
    obtain ⟨js', hjs', hjs⟩ := exists_of_bind_eq_ok hjs
    cases hjs
    obtain ⟨hproper, hvalue⟩ := h.1 j hj
    obtain ⟨hpropers, hvalues⟩ := ih h.2 hjs'
    exact ⟨List.forall_mem_cons.2 ⟨hproper, hpropers⟩, by rw [Json.valueItems, hvalue, hvalues]⟩

theorem toJsonEntries_eq_ok {es : List (Text × Value)} {ds : List (Text × Json)}
    (h : ∀ e ∈ es, ∀ j, e.2.toJson = .ok j → j.IsProper ∧ j.value = e.2) (hds : toJsonEntries es = .ok ds) :
    (∀ d ∈ ds, d.2.IsProper) ∧ Json.valueEntries ds = es ∧ ds.map Prod.fst = es.map Prod.fst := by
  induction es generalizing ds with
  | nil =>
    cases hds
    exact ⟨List.forall_mem_nil _, rfl, rfl⟩
  | cons e es ih =>
    obtain ⟨k, x⟩ := e
    rw [List.forall_mem_cons] at h
    obtain ⟨j, hj, hds⟩ := exists_of_bind_eq_ok hds
    obtain ⟨ds', hds', hds⟩ := exists_of_bind_eq_ok hds
    cases hds
    obtain ⟨hproper, hvalue⟩ := h.1 j hj
    obtain ⟨hpropers, hvalues, hkeys⟩ := ih h.2 hds'
    exact ⟨List.forall_mem_cons.2 ⟨hproper, hpropers⟩, by rw [Json.valueEntries, hvalue, hvalues],
      by rw [List.map_cons, List.map_cons, hkeys]⟩

/-- An evaluated value is what its JSON value stands for. -/
theorem IsEvaluated.toJson_eq_ok (hv : v.IsEvaluated) (hj : v.toJson = .ok j) : j.IsProper ∧ j.value = v := by
  induction hv generalizing j with
  | null =>
    cases hj
    exact ⟨.null, rfl⟩
  | bool b =>
    cases hj
    exact ⟨.bool b, rfl⟩
  | int n =>
    rw [toJson] at hj
    split at hj
    · next hwrite =>
      cases hj
      rw [Numeral.write] at hwrite
      split at hwrite
      · cases hwrite
      · next hlength => exact ⟨.int (Nat.not_lt.1 hlength), rfl⟩
    · cases hj
  | float hx =>
    cases hj
    exact ⟨.float hx, rfl⟩
  | text t =>
    cases hj
    exact ⟨.string t, rfl⟩
  | list _ ih =>
    obtain ⟨js, hjs, hj⟩ := exists_of_bind_eq_ok hj
    cases hj
    obtain ⟨hpropers, hvalues⟩ := toJsonItems_eq_ok (fun x hx _ ↦ ih x hx) hjs
    exact ⟨.array hpropers, congrArg Value.list hvalues⟩
  | dict hkeys _ ih =>
    obtain ⟨ds, hds, hj⟩ := exists_of_bind_eq_ok hj
    cases hj
    obtain ⟨hpropers, hvalues, hsame⟩ := toJsonEntries_eq_ok (fun e he _ ↦ ih e he) hds
    exact ⟨.object (hsame ▸ hkeys) hpropers, congrArg Value.dict hvalues⟩

theorem written_eq_ok (hknown : v.isUnevaluated = false) (h : v.written = .ok t) :
    ∃ j, v.toJson = .ok j ∧ t = j.write := by
  cases v with
  | unevaluated => cases hknown
  | null | bool | int | float | text | list | dict =>
    obtain ⟨j, hj, h⟩ := exists_of_bind_eq_ok h
    cases h
    exact ⟨j, hj, rfl⟩

theorem IsEvaluated.isUnevaluated (hv : v.IsEvaluated) : v.isUnevaluated = false := by
  cases hv with
  | null | bool | int | float | text | list | dict => rfl

/-- The text of an evaluated value keeps to the grammar just if its numbers are finite. It is always read, but as the
value just if no half of a surrogate pair is followed by the other one. -/
theorem IsEvaluated.written_read (hv : v.IsEvaluated) (ht : v.written = .ok t) :
    ∃ j : Json, v.toJson = .ok j ∧ j.value = v ∧ (Json.Valid t ↔ ∀ x, Json.Occurs (.float x) j → x.isFinite) ∧
      ∃ i : Json, Json.read t = .ok i ∧ (i.value = v ↔ ∀ u, Json.Occurs (.string u) j → Json.Unpaired u) := by
  obtain ⟨j, hj, rfl⟩ := written_eq_ok hv.isUnevaluated ht
  obtain ⟨hproper, hvalue⟩ := hv.toJson_eq_ok hj
  refine ⟨j, hj, hvalue, hproper.valid_iff, j.joined, hproper.read_write, ?_⟩
  rw [← hproper.joined_eq_iff, ← hvalue]
  exact ⟨Json.value_injective, congrArg Json.value⟩

end Value

theorem Literal.number_eq_float {t : Text} {x : Binary64} (ht : ∀ c ∈ t, c ≠ '_') (hinteger : integer? t = none)
    (hx : Binary64.ofText? t = some x) : number t = .float x := by
  have hdigits : digits t = t := List.filter_eq_self.2 fun c hc ↦ decide_eq_true (ht c hc)
  rw [number, ← digits, hdigits, hinteger, hx]

namespace Scan.Properties

variable {ctx : ScanContext} {v : Value} {p : Property}

def HasSource (p : Property) : Prop := ∀ v ∈ p.default, ∃ value, Node.evaluate? value = .ok v

theorem hasSource_option {o o' : Options} {pair : Node} (ho : HasSource o.property) (h : option ctx o pair = .ok o') :
    HasSource o'.property := by
  obtain ⟨key, -, hchanges⟩ := changes_of_option h
  cases hchanges with
  | default hv =>
    intro v heq
    cases heq
    exact ⟨_, hv⟩
  | type | notify | readOnly | reflectToAttribute | observer | computed | other => exact ho

theorem hasSource_analyze {object : Node} {ps : List Property} (h : analyze ctx object = .ok ps) :
    ∀ p ∈ ps, HasSource p := by
  intro p hp
  obtain ⟨entry, hentry⟩ := exists_of_mem_analyze h hp
  exact keeps_property? (fun name v hv ↦ by cases hv) (fun _ _ _ ↦ hasSource_option) (fun _ h ↦ h) (fun _ _ h ↦ h) hentry

theorem isEvaluated_default (h : HasSource p) (hv : p.default = some v) (hknown : v.isUnevaluated = false) :
    v.IsEvaluated := by
  obtain ⟨value, hvalue⟩ := h v hv
  obtain ⟨n, rfl, hn⟩ := Node.exists_of_evaluate? hvalue hknown
  exact Node.HasValue.isEvaluated ⟨hn, hknown⟩

/-- The text of a default is what metadata has for it. -/
theorem exists_defaultValue {t : Text} (hv : p.default = some v) (ht : v.written = .ok t) (package : Text)
    (origin : Option Text) : ∃ data, Metadata.property package ⟨p, origin⟩ = .ok data ∧
      data.get? "defaultValue" = some (.string t) := by
  rw [Metadata.property, hv, Option.mapM_some, ht]
  refine ⟨_, rfl, ?_⟩
  cases p.range <;> rfl

/-- The default of a property as an entry declares it, if it is evaluated and written, is written as JSON that reads
back, but for numbers that are not finite and for texts with both halves of a surrogate pair. -/
theorem default_reads_back {object : Node} {ps : List Property} {t : Text} (h : analyze ctx object = .ok ps)
    (hp : p ∈ ps) (hv : p.default = some v) (hknown : v.isUnevaluated = false) (ht : v.written = .ok t) :
    (∀ package origin, ∃ data, Metadata.property package ⟨p, origin⟩ = .ok data ∧
      data.get? "defaultValue" = some (.string t)) ∧
    ∃ j : Json, v.toJson = .ok j ∧ j.value = v ∧ (Json.Valid t ↔ ∀ x, Json.Occurs (.float x) j → x.isFinite) ∧
      ∃ i : Json, Json.read t = .ok i ∧ (i.value = v ↔ ∀ u, Json.Occurs (.string u) j → Json.Unpaired u) :=
  ⟨exists_defaultValue hv ht, (isEvaluated_default (hasSource_analyze h p hp) hv hknown).written_read ht⟩

def defaulting (value : Node) : Node :=
  .mk "object" none true false 0 (value.stop + 2) ("\x7bp: \x7bvalue: " ++ value.text ++ "\x7d\x7d") [
    .mk "\x7b" none false false 0 1 "\x7b" [],
    .mk "pair" none true false 1 (value.stop + 1) ("p: \x7bvalue: " ++ value.text ++ "\x7d") [
      .mk "property_identifier" (some "key") true false 1 2 "p" [],
      .mk ":" none false false 2 3 ":" [],
      .mk "object" (some "value") true false 4 (value.stop + 1) ("\x7bvalue: " ++ value.text ++ "\x7d") [
        .mk "\x7b" none false false 4 5 "\x7b" [],
        .mk "pair" none true false 5 value.stop ("value: " ++ value.text) [
          .mk "property_identifier" (some "key") true false 5 10 "value" [],
          .mk ":" none false false 10 11 ":" [],
          value],
        .mk "\x7d" none false false value.stop (value.stop + 1) "\x7d" []]],
    .mk "\x7d" none false false (value.stop + 1) (value.stop + 2) "\x7d" []]

def halfAndTable : Node :=
  .mk "array" (some "value") true false 12 40 "['\\uD83D', \x7ba: [null, 1.5]\x7d]" [
    .mk "[" none false false 12 13 "[" [],
    .mk "string" none true false 13 21 "'\\uD83D'" [
      .mk "'" none false false 13 14 "'" [],
      .mk "escape_sequence" none true false 14 20 "\\uD83D" [],
      .mk "'" none false false 20 21 "'" []],
    .mk "," none false false 21 22 "," [],
    .mk "object" none true false 23 39 "\x7ba: [null, 1.5]\x7d" [
      .mk "\x7b" none false false 23 24 "\x7b" [],
      .mk "pair" none true false 24 38 "a: [null, 1.5]" [
        .mk "property_identifier" (some "key") true false 24 25 "a" [],
        .mk ":" none false false 25 26 ":" [],
        .mk "array" (some "value") true false 27 38 "[null, 1.5]" [
          .mk "[" none false false 27 28 "[" [],
          .mk "null" none true false 28 32 "null" [],
          .mk "," none false false 32 33 "," [],
          .mk "number" none true false 34 37 "1.5" [],
          .mk "]" none false false 37 38 "]" []]],
      .mk "\x7d" none false false 38 39 "\x7d" []],
    .mk "]" none false false 39 40 "]" []]

def halfAndTableJson : Json :=
  .array [.string [⟨0xD83D, by decide⟩], .object [("a", .array [.null, .float (.finite false 0x18000000000000 1022)])]]

theorem halfAndTable_reads_back :
    analyze placeless (defaulting halfAndTable) = .ok [{ name := "p", default := some halfAndTableJson.value }] ∧
      halfAndTableJson.value.written = .ok "[\"\\ud83d\", \x7b\"a\": [null, 1.5]\x7d]" ∧
      Json.Valid "[\"\\ud83d\", \x7b\"a\": [null, 1.5]\x7d]" ∧
      ∃ i : Json, Json.read "[\"\\ud83d\", \x7b\"a\": [null, 1.5]\x7d]" = .ok i ∧ i.value = halfAndTableJson.value := by
  have hnumber : Literal.number "1.5" = .float (.finite false 0x18000000000000 1022) :=
    Literal.number_eq_float (by decide) (by decide) (by decide +kernel)
  have hscan : analyze placeless (defaulting halfAndTable) =
      .ok [{ name := "p", default := some halfAndTableJson.value }] := by
    rw [halfAndTableJson]
    simp only [Json.value, Json.valueItems, Json.valueEntries, ← hnumber]
    rfl
  have htext : halfAndTableJson.value.written = .ok "[\"\\ud83d\", \x7b\"a\": [null, 1.5]\x7d]" := by decide +kernel
  refine ⟨hscan, htext, ?_⟩
  obtain ⟨-, j, hj, -, hvalid, i, hi, hback⟩ := default_reads_back hscan (List.mem_singleton.2 rfl) rfl rfl htext
  cases hj
  refine ⟨hvalid.2 ?_, i, hi, hback.2 ?_⟩
  · simp only [Json.occurs_array, Json.occurs_object, List.mem_cons, List.not_mem_nil, or_false, exists_eq_or_imp,
      exists_eq_left, reduceCtorEq, false_or]
    rintro x (h | h | h)
    · cases h
    · cases h
    · cases h
      rfl
  · simp only [Json.occurs_array, Json.occurs_object, List.mem_cons, List.not_mem_nil, or_false, exists_eq_or_imp,
      exists_eq_left, reduceCtorEq, false_or, Json.string.injEq]
    rintro u (h | rfl | h | h)
    · cases h
      decide
    · decide
    · cases h
    · cases h

def overflowing : Node := .mk "number" (some "value") true false 12 17 "1e400" []

def pairOfHalves : Node :=
  .mk "string" (some "value") true false 12 26 "'\\uD83D\\uDE00'" [
    .mk "'" none false false 12 13 "'" [],
    .mk "escape_sequence" none true false 13 19 "\\uD83D" [],
    .mk "escape_sequence" none true false 19 25 "\\uDE00" [],
    .mk "'" none false false 25 26 "'" []]

/-- An infinite default is written as a name that is not JSON, and a pair of halves is read back as one character. -/
theorem infinity_not_json :
    (∀ n ∈ (defaulting overflowing).preorder ++ (defaulting pairOfHalves).preorder, n.isFault = false) ∧
      (analyze placeless (defaulting overflowing) =
          .ok [{ name := "p", default := some (.float (.infinite false)) }] ∧
        (Value.float (.infinite false)).written = .ok "Infinity" ∧ ¬Json.Valid "Infinity") ∧
      analyze placeless (defaulting pairOfHalves) =
          .ok [{ name := "p", default := some (.text [⟨0xD83D, by decide⟩, ⟨0xDE00, by decide⟩]) }] ∧
        (Value.text [⟨0xD83D, by decide⟩, ⟨0xDE00, by decide⟩]).written = .ok "\"\\ud83d\\ude00\"" ∧
        Json.read "\"\\ud83d\\ude00\"" = .ok (.string [⟨0x1F600, by decide⟩]) := by
  have hnumber : Literal.number "1e400" = .float (.infinite false) :=
    Literal.number_eq_float (by decide) (by decide) (by decide +kernel)
  refine ⟨by decide, ⟨?_, rfl, fun h ↦ ?_⟩, rfl, rfl, ?_⟩
  · rw [← hnumber]
    rfl
  · have hproper : (Json.float (.infinite false)).IsProper := .float trivial
    have := hproper.valid_iff.1 h _ .self
    cases this
  · exact (Json.IsProper.string [⟨0xD83D, by decide⟩, ⟨0xDE00, by decide⟩]).read_write

end Scan.Properties

end PolymerAnalysis
