import PolymerAnalysis.Proofs.Syntax.Expression
import PolymerAnalysis.Proofs.Syntax.IdentifierName

namespace PolymerAnalysis

open Text

namespace Literal

open Numeral

variable {t : Text} {k : Nat}

theorem number_cases (t : Text) : (∃ k : Nat, number t = .int k ∧ integer? (digits t) = some k) ∨
    (∃ x, number t = .float x) ∨ number t = .unevaluated (digits t) := by
  rw [number, ← digits]
  cases hinteger : integer? (digits t) with
  | some k => exact .inl ⟨k, rfl, rfl⟩
  | none =>
    cases Binary64.ofText? (digits t) with
    | some x => exact .inr (.inl ⟨x, rfl⟩)
    | none => exact .inr (.inr rfl)

/-- A numeral within the limit is read as the integer that it is the numeral of. -/
theorem integer?_of_isNumeral (ht : t.IsNumeral) (hlimit : t.length ≤ digitLimit) :
    ∃ k, integer? (digits t) = some k ∧ ofNat k = t := by
  obtain ⟨m, hm⟩ := Option.isSome_iff_exists.1 (isSome_value?_iff.2 ⟨ht.ne_nil, ht.isDigit⟩)
  have hread : ¬(digitLimit < t.length ∨ t.head? = some (.ofChar '0') ∧ m ≠ 0) := by
    rintro (hlong | ⟨hzero, hne⟩)
    · omega
    · rw [ht.canonical hzero] at hm
      cases hm
      exact hne rfl
  refine ⟨m, ?_, (ht.eq_ofNat hm).symm⟩
  rw [digits_of_isDigit ht.isDigit, integer?_of_value? hm, if_neg hread]

/-- An integer is written as it was spelled just if it was spelled as a numeral. -/
theorem ofNat_eq_iff (h : integer? (digits t) = some k) (hlimit : (ofNat k).length ≤ digitLimit) :
    ofNat k = t ↔ t.IsNumeral ∧ t.length ≤ digitLimit := by
  constructor
  · rintro rfl
    exact ⟨isNumeral_ofNat k, hlimit⟩
  · rintro ⟨ht, hshort⟩
    obtain ⟨m, hm, hwritten⟩ := integer?_of_isNumeral ht hshort
    rwa [← Option.some.inj (hm.symm.trans h)]

/-- A string depends on what its pieces are and how they are spelled, not on where they stand. -/
theorem string_congr {ns ms : List Node}
    (h : ns.map (fun n ↦ (n.named, n.kind, n.text)) = ms.map fun n ↦ (n.named, n.kind, n.text)) :
    string ns = string ms := by
  induction ns generalizing ms with
  | nil =>
    rw [List.map_nil, eq_comm, List.map_eq_nil_iff] at h
    rw [h]
  | cons n ns ih =>
    cases ms with
    | nil => cases h
    | cons m ms =>
      obtain ⟨hfirst, hrest⟩ := List.cons.inj h
      simp only [Prod.mk.injEq] at hfirst
      rw [string, string, ih hrest, hfirst.1, hfirst.2.1, hfirst.2.2]

end Literal

theorem Text.Numeral.write_eq_ok_iff {k : Nat} {t : Text} :
    Numeral.write k = .ok t ↔ Numeral.ofNat k = t ∧ (Numeral.ofNat k).length ≤ Numeral.digitLimit := by
  have hsign : ¬(k : Int) < 0 := by omega
  rw [Numeral.write, Int.natAbs_natCast, if_neg hsign]
  by_cases hlong : (Numeral.ofNat k).length > Numeral.digitLimit
  · rw [if_pos hlong]
    exact iff_of_false (fun h ↦ by cases h) fun h ↦ absurd h.2 (Nat.not_le.2 hlong)
  · rw [if_neg hlong, Except.ok.injEq]
    exact (and_iff_left (Nat.not_lt.1 hlong)).symm

namespace Node

variable {t u w c s : Node} {owner name : Text}

def IsLiteral (t : Node) : Prop := t.kind = "string" ∨ t.kind = "number"

structure Alike (t u : Node) : Prop where
  kind_eq : t.kind = u.kind
  text_eq : t.text = u.text
  pieces_eq : t.children.map (fun n ↦ (n.named, n.kind, n.text)) = u.children.map fun n ↦ (n.named, n.kind, n.text)

def Brackets (c t : Node) : Prop := c.kind = "computed_property_name" ∧ c.namedChildren.head? = some t

def Subscripts (s : Node) (owner : Text) (t : Node) : Prop := s.kind = "subscript_expression" ∧
  (∃ object, s.child? "object" = some object ∧ object.identifierName = .ok (some owner)) ∧ s.child? "index" = some t

/-- The number is spelled in the way in which its value is written: as a decimal numeral, or as the shortest text that
is read as a float. -/
def IsOwnName (t : Node) : Prop := t.text.IsNumeral ∧ t.text.length ≤ Numeral.digitLimit ∨
  ∃ x, Literal.number t.text = .float x ∧ x.toText = t.text

theorem Brackets.keyName_eq (h : c.Brackets t) : c.keyName = t.literalName := by
  rw [keyName_bracketed h.1, h.2, Option.elim_some]

theorem Subscripts.identifierName_eq (h : s.Subscripts owner t) :
    s.identifierName = (Option.map (owner ++ "." ++ ·)) <$> t.indexName := by
  obtain ⟨hkind, ⟨object, hobject, hname⟩, hindex⟩ := h
  rw [identifierName_subscript hkind, hobject, hindex, identifierName?, hname]
  rfl

/-- What a subscript adds to the name of its object is the name that the index gives. -/
theorem Subscripts.names_iff (h : s.Subscripts owner t) :
    s.identifierName = .ok (some (owner ++ "." ++ name)) ↔ t.indexName = .ok (some name) := by
  rw [h.identifierName_eq]
  cases t.indexName with
  | error e => exact iff_of_false (fun h ↦ by cases h) fun h ↦ by cases h
  | ok o =>
    cases o with
    | none => exact iff_of_false (fun h ↦ by cases h) fun h ↦ by cases h
    | some u => simp [Functor.map, Except.map]

theorem literalName_string (h : t.kind = "string") : t.literalName = t.keyName := by
  rw [literalName, if_pos h, keyName_quoted h]

theorem indexName_string (h : t.kind = "string") : t.indexName = t.keyName := by
  rw [indexName, if_neg (by rw [h]; decide), evaluate_string h, keyName_quoted h]
  cases Literal.string t.children <;> rfl

theorem Alike.keyName_string (h : t.Alike u) (hu : u.kind = "string") : t.keyName = u.keyName := by
  rw [keyName_quoted (h.kind_eq.trans hu), keyName_quoted hu, Literal.string_congr h.pieces_eq]

theorem written_eq_some_iff {i : Int} : (match Numeral.write i with
    | .ok t => .ok (some t)
    | .error e => .error (.limit e) : Except EvalError (Option Text)) = .ok (some name) ↔
      Numeral.write i = .ok name := by
  cases Numeral.write i <;> simp

/-- A number in brackets is named by its value. -/
theorem literalName_number_iff (h : t.kind = "number") : t.literalName = .ok (some name) ↔
    (∃ k : Nat, Literal.number t.text = .int k ∧ Numeral.write k = .ok name) ∨
      ∃ x, Literal.number t.text = .float x ∧ x.toText = name := by
  rw [literalName, if_neg (by rw [h]; decide), if_pos h]
  rcases Literal.number_cases t.text with ⟨k, hk, -⟩ | ⟨x, hx⟩ | hnone
  · simp only [hk]
    refine written_eq_some_iff.trans ?_
    simp
  · simp [hx]
  · simp [hnone]

/-- So is a number that is an index, but only an integer names anything there. -/
theorem indexName_number_iff (h : t.kind = "number") : t.indexName = .ok (some name) ↔
    ∃ k : Nat, Literal.number t.text = .int k ∧ Numeral.write k = .ok name := by
  rw [indexName, if_neg (by rw [h]; decide), evaluate_number h]
  rcases Literal.number_cases t.text with ⟨k, hk, -⟩ | ⟨x, hx⟩ | hnone
  · rw [hk]
    refine written_eq_some_iff.trans ?_
    simp
  · simp [hx, bind, Except.bind, pure, Except.pure]
  · simp [hnone, bind, Except.bind, pure, Except.pure]

theorem eq_text_iff_of_write {k : Nat} (hk : Literal.number t.text = .int k) (hname : Numeral.write k = .ok name) :
    name = t.text ↔ t.text.IsNumeral ∧ t.text.length ≤ Numeral.digitLimit := by
  obtain ⟨rfl, hlimit⟩ := Numeral.write_eq_ok_iff.1 hname
  rcases Literal.number_cases t.text with ⟨m, hm, hinteger⟩ | ⟨x, hx⟩ | hnone
  · cases hk.symm.trans hm
    exact Literal.ofNat_eq_iff hinteger hlimit
  · cases hk.symm.trans hx
  · cases hk.symm.trans hnone

theorem IsOwnName.of_int {k : Nat} (hk : Literal.number t.text = .int k) :
    t.IsOwnName ↔ t.text.IsNumeral ∧ t.text.length ≤ Numeral.digitLimit := by
  refine or_iff_left ?_
  rintro ⟨x, hx, -⟩
  cases hk.symm.trans hx

theorem IsOwnName.of_float {x : Binary64} (hx : Literal.number t.text = .float x) :
    t.IsOwnName ↔ x.toText = t.text := by
  constructor
  · rintro (⟨ht, hshort⟩ | ⟨y, hy, hown⟩)
    · obtain ⟨m, hm, -⟩ := Literal.integer?_of_isNumeral ht hshort
      have hinteger : Literal.number t.text = .int m := by
        rw [Literal.number, ← Literal.digits]
        simp only [hm]
      cases hx.symm.trans hinteger
    · cases hx.symm.trans hy
      exact hown
  · exact fun hown ↦ .inr ⟨x, hx, hown⟩

/-- A string names the same member as a key, as a key in brackets and as an index. A number does so in brackets and as
an index, by its value; the number that is a key by itself agrees with these just where it is spelled as its value is
written. -/
theorem literal_names (ht : t.IsLiteral) (hu : u.Alike t) (hw : w.Alike t) (hc : c.Brackets u)
    (hs : s.Subscripts owner w) :
    (∀ name, s.identifierName = .ok (some (owner ++ "." ++ name)) → c.keyName = .ok (some name)) ∧
      (t.kind = "string" → c.keyName = t.keyName ∧
        s.identifierName = (Option.map (owner ++ "." ++ ·)) <$> t.keyName) ∧
      (t.kind = "number" → t.keyName = .ok (some t.text) ∧
        ∀ name, c.keyName = .ok (some name) → (name = t.text ↔ t.IsOwnName)) := by
  rw [hc.keyName_eq]
  refine ⟨fun name hname ↦ ?_, fun h ↦ ⟨?_, ?_⟩, fun h ↦ ⟨keyName_numeral h, fun name hname ↦ ?_⟩⟩
  · have hindex := hs.names_iff.1 hname
    rcases ht with h | h
    · rwa [literalName_string (hu.kind_eq.trans h), hu.keyName_string h, ← hw.keyName_string h,
        ← indexName_string (hw.kind_eq.trans h)]
    · obtain ⟨k, hk, hwrite⟩ := (indexName_number_iff (hw.kind_eq.trans h)).1 hindex
      rw [hw.text_eq, ← hu.text_eq] at hk
      exact (literalName_number_iff (hu.kind_eq.trans h)).2 (.inl ⟨k, hk, hwrite⟩)
  · rw [literalName_string (hu.kind_eq.trans h), hu.keyName_string h]
  · rw [hs.identifierName_eq, indexName_string (hw.kind_eq.trans h), hw.keyName_string h]
  · have hname := (literalName_number_iff (hu.kind_eq.trans h)).1 hname
    rw [hu.text_eq] at hname
    rcases hname with ⟨k, hk, hwrite⟩ | ⟨x, hx, rfl⟩
    · rw [IsOwnName.of_int hk, eq_text_iff_of_write hk hwrite]
    · exact (IsOwnName.of_float hx).symm

def escapedString (field : Option String) : Node :=
  .mk "string" field true false 4 11 "'a\\x62'" [
    .mk "'" none false false 4 5 "'" [],
    .mk "string_fragment" none true false 5 6 "a" [],
    .mk "escape_sequence" none true false 6 10 "\\x62" [],
    .mk "'" none false false 10 11 "'" []]

def hexNumber (field : Option String) : Node := .mk "number" field true false 4 8 "0x10" []

def inBrackets (literal : Option String → Node) : Node :=
  let t := literal none
  .mk "computed_property_name" (some "key") true false 3 (t.stop + 1) ("[" ++ t.text ++ "]") [
    .mk "[" none false false 3 4 "[" [], t, .mk "]" none false false t.stop (t.stop + 1) "]" []]

def ofFoo (literal : Option String → Node) : Node :=
  let t := literal (some "index")
  .mk "subscript_expression" none true false 0 (t.stop + 1) ("Foo[" ++ t.text ++ "]") [
    .mk "identifier" (some "object") true false 0 3 "Foo" [],
    .mk "[" none false false 3 4 "[" [], t, .mk "]" none false false t.stop (t.stop + 1) "]" []]

theorem escapedString_names : (escapedString (some "key")).keyName = .ok (some "ab") ∧
    (inBrackets escapedString).keyName = .ok (some "ab") ∧
      (ofFoo escapedString).identifierName = .ok (some ("Foo" ++ "." ++ "ab")) := by
  have hkey : (escapedString (some "key")).keyName = .ok (some "ab") := rfl
  have hindexed : (ofFoo escapedString).Subscripts "Foo" (escapedString (some "index")) :=
    ⟨rfl, ⟨_, rfl, rfl⟩, rfl⟩
  obtain ⟨-, hstring, -⟩ := literal_names (t := escapedString (some "key")) (u := escapedString none)
    (w := escapedString (some "index")) (c := inBrackets escapedString) (.inl rfl) ⟨rfl, rfl, rfl⟩ ⟨rfl, rfl, rfl⟩
    ⟨rfl, rfl⟩ hindexed
  obtain ⟨hbrackets, hindex⟩ := hstring rfl
  exact ⟨hkey, hbrackets.trans hkey, hindex.trans (by rw [hkey]; rfl)⟩

/-- A hexadecimal key is named by its spelling, but in brackets and as an index by its value. -/
theorem hexNumber_named_apart :
    (∀ n ∈ (hexNumber (some "key")).preorder ++ (inBrackets hexNumber).preorder ++ (ofFoo hexNumber).preorder,
        n.isFault = false) ∧
      (hexNumber none).Alike (hexNumber (some "key")) ∧ (hexNumber (some "index")).Alike (hexNumber (some "key")) ∧
      (inBrackets hexNumber).Brackets (hexNumber none) ∧ (ofFoo hexNumber).Subscripts "Foo" (hexNumber (some "index")) ∧
      (hexNumber (some "key")).keyName = .ok (some "0x10") ∧ (inBrackets hexNumber).keyName = .ok (some "16") ∧
      (ofFoo hexNumber).identifierName = .ok (some ("Foo" ++ "." ++ "16")) :=
  ⟨by decide, ⟨rfl, rfl, rfl⟩, ⟨rfl, rfl, rfl⟩, ⟨rfl, rfl⟩, ⟨rfl, ⟨_, rfl, rfl⟩, rfl⟩, rfl, rfl, rfl⟩

end Node

end PolymerAnalysis
