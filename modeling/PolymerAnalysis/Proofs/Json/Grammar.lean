import PolymerAnalysis.Proofs.Json.Roundtrip
import PolymerAnalysis.Proofs.Syntax.Number

namespace PolymerAnalysis.Json

open Text Numeral

variable {c : CodePoint} {t u part mark : Text} {j : Json} {ts : List Text} {n : Nat}

inductive IsBody : Text → Prop
  | nil : IsBody []
  | plain {c : CodePoint} {t : Text} (hquote : c ≠ '"') (hbackslash : c ≠ '\\') (hc : 0x20 ≤ c.val) (h : IsBody t) :
      IsBody (c :: t)
  | escaped {c : CodePoint} {t : Text} (hc : c ∈ ("\"\\/bfnrt" : Text)) (h : IsBody t) :
      IsBody (CodePoint.ofChar '\\' :: c :: t)
  | unit {digits t : Text} (hlength : digits.length = 4) (hdigits : ∀ d ∈ digits, ∃ k, d.digitValue? 16 = some k)
      (h : IsBody t) : IsBody (CodePoint.ofChar '\\' :: CodePoint.ofChar 'u' :: (digits ++ t))

inductive IsKey : Text → Prop
  | mk {before body behind : Text} (hbefore : ∀ c ∈ before, isSpace c) (h : IsBody body)
      (hbehind : ∀ c ∈ behind, isSpace c) : IsKey (before ++ ("\"" ++ body ++ "\"") ++ behind)

/-- The texts that stand for a value by the grammar. -/
inductive Valid : Text → Prop
  | null : Valid "null"
  | bool (b : Bool) : Valid (if b then "true" else "false" : Text)
  | number {sign whole part mark : Text} (hsign : sign = [] ∨ sign = "-") (hwhole : IsNumeral whole)
      (hpart : IsFraction part) (hmark : IsExponent mark) : Valid (sign ++ (whole ++ (part ++ mark)))
  | string {body : Text} (h : IsBody body) : Valid ("\"" ++ body ++ "\"")
  | emptyArray {gap : Text} (hgap : ∀ c ∈ gap, isSpace c) : Valid ("[" ++ gap ++ "]")
  | array {items : List Text} (hne : items ≠ []) (h : ∀ t ∈ items, Valid t) : Valid ("[" ++ join "," items ++ "]")
  | emptyObject {gap : Text} (hgap : ∀ c ∈ gap, isSpace c) : Valid ("\x7b" ++ gap ++ "\x7d")
  | object {members : List (Text × Text)} (hne : members ≠ []) (hkeys : ∀ m ∈ members, IsKey m.1)
      (h : ∀ m ∈ members, Valid m.2) :
      Valid ("\x7b" ++ join "," (members.map fun m ↦ m.1 ++ ":" ++ m.2) ++ "\x7d")
  | blanks {before t behind : Text} (hbefore : ∀ c ∈ before, isSpace c) (h : Valid t)
      (hbehind : ∀ c ∈ behind, isSpace c) : Valid (before ++ t ++ behind)

section Written

theorem isBody_unitEscape (hn : n < 0x10000) (ht : IsBody t) : IsBody (unitEscape n ++ t) := by
  obtain ⟨h₁, h₂, h₃, h₄, hhex, hvalue⟩ := exists_hex hn
  have hdigits := Literal.exists_digitValue? (Literal.valueFrom_of_value? hvalue)
  have hbody := IsBody.unit (by rfl) hdigits ht
  rw [unitEscape, hhex, List.append_assoc]
  exact hbody

theorem isBody_escape (c : CodePoint) (ht : IsBody t) : IsBody (escape c ++ t) := by
  rw [escape]
  split_ifs with hquote hline hreturn htab hback hform hprint hplane
  · refine .escaped ?_ ht
    rcases hquote with rfl | rfl <;> decide
  · exact .escaped (by decide) ht
  · exact .escaped (by decide) ht
  · exact .escaped (by decide) ht
  · exact .escaped (by decide) ht
  · exact .escaped (by decide) ht
  · exact .plain (fun h ↦ hquote (.inl h)) (fun h ↦ hquote (.inr h)) hprint.1 ht
  · exact isBody_unitEscape hplane ht
  · have hlt := c.isLt
    rw [List.append_assoc]
    exact isBody_unitEscape (by omega) (isBody_unitEscape (by omega) ht)

theorem isBody_flatMap (t : Text) : IsBody (t.flatMap escape) := by
  induction t with
  | nil => exact .nil
  | cons c t ih => exact isBody_escape c ih

theorem valid_writeText (t : Text) : Valid (writeText t) := .string (isBody_flatMap t)

theorem valid_ofInt (n : Int) : Valid (ofInt n) := by
  have hnumeral := isNumeral_ofNat n.natAbs
  have hnumber (sign : Text) (hsign : sign = [] ∨ sign = "-") : Valid (sign ++ ofNat n.natAbs) := by
    have hvalid := Valid.number hsign hnumeral .none .none
    rwa [List.append_nil, List.append_nil] at hvalid
  rw [ofInt]
  split
  · exact hnumber _ (.inr rfl)
  · exact hnumber _ (.inl rfl)

theorem valid_toText {s : Bool} {m p : Nat} (hx : (Binary64.finite s m p).IsCanonical) :
    Valid (Binary64.toText (.finite s m p)) := by
  obtain ⟨q, hspelling, -⟩ := Binary64.isSpelling_toText s hx
  have hnumber (sign : Text) (hsign : sign = [] ∨ sign = "-") :
      Valid (sign ++ Binary64.toText (.finite false m p)) := by
    generalize Binary64.toText (.finite false m p) = t at hspelling
    cases hspelling with
    | mk hwhole hpart hmark => exact .number hsign hwhole hpart hmark
  cases s with
  | true => exact hnumber _ (.inr rfl)
  | false => exact hnumber _ (.inl rfl)

theorem join_comma (t : Text) (ts : List Text) :
    join ", " (t :: ts) = join "," (t :: ts.map (CodePoint.ofChar ' ' :: ·)) := by
  rw [join_cons_eq_flatMap, join_cons_eq_flatMap, List.flatMap_map]
  rfl

theorem isSpace_of_mem_nil : ∀ c ∈ ([] : Text), isSpace c := List.forall_mem_nil _

theorem isSpace_of_mem_space : ∀ c ∈ [CodePoint.ofChar ' '], isSpace c := by decide

theorem valid_space (h : Valid t) : Valid (CodePoint.ofChar ' ' :: t) := by
  have hvalid := Valid.blanks isSpace_of_mem_space h isSpace_of_mem_nil
  rwa [List.append_nil] at hvalid

theorem valid_array {xs : List Json} (h : ∀ x ∈ xs, Valid x.write) : Valid (write (.array xs)) := by
  rw [write, writeItems_eq]
  cases xs with
  | nil => exact .emptyArray isSpace_of_mem_nil
  | cons x xs =>
    rw [List.forall_mem_cons] at h
    rw [List.map_cons, join_comma]
    refine .array (List.cons_ne_nil _ _) (List.forall_mem_cons.2 ⟨h.1, ?_⟩)
    rw [List.map_map, List.forall_mem_map]
    exact fun y hy ↦ valid_space (h.2 y hy)

theorem isKey_writeText (t : Text) : IsKey (writeText t) := by
  have hkey := IsKey.mk isSpace_of_mem_nil (isBody_flatMap t) isSpace_of_mem_nil
  rwa [List.append_nil] at hkey

theorem isKey_space (t : Text) : IsKey (CodePoint.ofChar ' ' :: writeText t) := by
  have hkey := IsKey.mk isSpace_of_mem_space (isBody_flatMap t) isSpace_of_mem_nil
  rwa [List.append_nil] at hkey

theorem valid_object {es : List (Text × Json)} (h : ∀ e ∈ es, Valid e.2.write) : Valid (write (.object es)) := by
  rw [write, writeEntries_eq]
  cases es with
  | nil => exact .emptyObject isSpace_of_mem_nil
  | cons e es =>
    rw [List.forall_mem_cons] at h
    have hmembers : (e :: es).map (fun d ↦ writeText d.1 ++ ": " ++ d.2.write) =
        (writeText e.1 ++ ":" ++ CodePoint.ofChar ' ' :: e.2.write) ::
          es.map fun d ↦ writeText d.1 ++ ":" ++ CodePoint.ofChar ' ' :: d.2.write := by
      simp only [List.map_cons, List.append_assoc]
      rfl
    let later (d : Text × Json) : Text × Text :=
      (CodePoint.ofChar ' ' :: writeText d.1, CodePoint.ofChar ' ' :: d.2.write)
    have hlater : (es.map fun d ↦ writeText d.1 ++ ":" ++ CodePoint.ofChar ' ' :: d.2.write).map
        (CodePoint.ofChar ' ' :: ·) = (es.map later).map fun m : Text × Text ↦ m.1 ++ ":" ++ m.2 := by
      rw [List.map_map, List.map_map]
      rfl
    have hkeys : ∀ m ∈ (writeText e.1, CodePoint.ofChar ' ' :: e.2.write) :: es.map later, IsKey m.1 := by
      rw [List.forall_mem_cons, List.forall_mem_map]
      exact ⟨isKey_writeText e.1, fun d _ ↦ isKey_space d.1⟩
    rw [hmembers, join_comma, hlater]
    refine .object (List.cons_ne_nil _ _) hkeys ?_
    rw [List.forall_mem_cons, List.forall_mem_map]
    exact ⟨valid_space h.1, fun d hd ↦ valid_space (h.2 d hd)⟩

theorem IsProper.valid (hj : IsProper j) (h : ∀ x, Occurs (.float x) j → x.isFinite) : Valid j.write := by
  induction hj with
  | null => exact .null
  | bool b => exact .bool b
  | @int n => exact valid_ofInt n
  | @float x hx =>
    cases x with
    | finite => exact valid_toText hx
    | infinite | nan => cases h _ .self
  | string t => exact valid_writeText t
  | array _ ih => exact valid_array fun x hx ↦ ih x hx fun y hy ↦ h y (.item hx hy)
  | object _ _ ih => exact valid_object fun e he ↦ ih e he fun y hy ↦ h y (.entry he hy)

end Written

section Bare

/-- Whether a place in a text lies in a string, perhaps behind a backslash. -/
inductive Place where
  | outside
  | inside
  | escaped

def bare : Place → Text → Text
  | _, [] => []
  | .outside, c :: t => if c = '"' then bare .inside t else c :: bare .outside t
  | .inside, c :: t => if c = '"' then bare .outside t else if c = '\\' then bare .escaped t else bare .inside t
  | .escaped, _ :: t => bare .inside t

def Balanced (t : Text) : Prop := ∀ rest, bare .outside (t ++ rest) = bare .outside t ++ bare .outside rest

theorem Balanced.append (ht : Balanced t) (hu : Balanced u) : Balanced (t ++ u) := by
  intro rest
  rw [List.append_assoc, ht, ht, hu, List.append_assoc]

theorem bare_append_of_not_mem (h : CodePoint.ofChar '"' ∉ t) (rest : Text) :
    bare .outside (t ++ rest) = t ++ bare .outside rest := by
  induction t with
  | nil => rfl
  | cons c t ih =>
    obtain ⟨hc, ht⟩ := not_or.1 (mt List.mem_cons.2 h)
    rw [List.cons_append, bare, if_neg (Ne.symm hc), ih ht, List.cons_append]

theorem bare_of_not_mem (h : CodePoint.ofChar '"' ∉ t) : bare .outside t = t := by
  have hbare := bare_append_of_not_mem h []
  rwa [List.append_nil, bare, List.append_nil] at hbare

theorem balanced_of_not_mem (h : CodePoint.ofChar '"' ∉ t) : Balanced t := by
  intro rest
  rw [bare_append_of_not_mem h, bare_of_not_mem h]

theorem bare_inside_append (h : ∀ c ∈ t, c ≠ '"' ∧ c ≠ '\\') (rest : Text) :
    bare .inside (t ++ rest) = bare .inside rest := by
  induction t with
  | nil => rfl
  | cons c t ih =>
    rw [List.forall_mem_cons] at h
    rw [List.cons_append, bare, if_neg h.1.1, if_neg h.1.2, ih h.2]

theorem IsBody.bare_eq (h : IsBody t) (rest : Text) :
    bare .inside (t ++ CodePoint.ofChar '"' :: rest) = bare .outside rest := by
  induction h with
  | nil => rfl
  | plain hquote hbackslash hc h ih => rw [List.cons_append, bare, if_neg hquote, if_neg hbackslash, ih]
  | escaped hc h ih =>
    rw [List.cons_append, List.cons_append, bare, if_neg (by decide), if_pos rfl, bare, ih]
  | unit hlength hdigits h ih =>
    rw [List.cons_append, List.cons_append, bare, if_neg (by decide), if_pos rfl, bare, List.append_assoc,
      bare_inside_append ?_, ih]
    intro c hc
    obtain ⟨k, hk⟩ := hdigits c hc
    refine ⟨?_, ?_⟩
    all_goals
      rintro rfl
      cases hk

theorem bare_string (h : IsBody t) : bare .outside ("\"" ++ t ++ "\"") = [] := by
  rw [List.append_assoc]
  exact h.bare_eq []

theorem balanced_string (h : IsBody t) : Balanced ("\"" ++ t ++ "\"") := by
  intro rest
  rw [bare_string h, List.append_assoc, List.append_assoc]
  exact h.bare_eq rest

theorem mem_bare_left (ht : Balanced t) (hc : c ∈ bare .outside t) (u : Text) : c ∈ bare .outside (t ++ u) :=
  ht u ▸ List.mem_append_left _ hc

theorem mem_bare_right (ht : Balanced t) (hc : c ∈ bare .outside u) : c ∈ bare .outside (t ++ u) :=
  ht u ▸ List.mem_append_right _ hc

theorem mem_bare_join {separator : Text} (hseparator : Balanced separator) (h : ∀ t ∈ ts, Balanced t) (ht : t ∈ ts)
    (hc : c ∈ bare .outside t) : c ∈ bare .outside (join separator ts) := by
  induction ts with
  | nil => cases ht
  | cons u ts ih =>
    rw [List.forall_mem_cons] at h
    cases ts with
    | nil =>
      rw [List.mem_singleton.1 ht] at hc
      rwa [join_singleton]
    | cons v ts =>
      rw [join_cons _ _ (List.cons_ne_nil v ts), List.append_assoc]
      rcases List.mem_cons.1 ht with rfl | ht
      · exact mem_bare_left h.1 hc _
      · exact mem_bare_right h.1 (mem_bare_right hseparator (ih h.2 ht))

structure Plain (t : Text) : Prop where
  balanced : Balanced t
  ne : ∀ c ∈ bare .outside t, c ≠ 'I' ∧ c ≠ 'N'

theorem Plain.append (ht : Plain t) (hu : Plain u) : Plain (t ++ u) where
  balanced := ht.balanced.append hu.balanced
  ne c hc := by
    rw [ht.balanced] at hc
    exact (List.mem_append.1 hc).elim (ht.ne c) (hu.ne c)

theorem plain_of_forall (h : ∀ c ∈ t, c ≠ '"' ∧ c ≠ 'I' ∧ c ≠ 'N') : Plain t := by
  have hquote : CodePoint.ofChar '"' ∉ t := fun hmem ↦ (h _ hmem).1 rfl
  exact ⟨balanced_of_not_mem hquote, fun c hc ↦ (h c (bare_of_not_mem hquote ▸ hc)).2⟩

theorem plain_string (h : IsBody t) : Plain ("\"" ++ t ++ "\"") := by
  refine ⟨balanced_string h, fun c hc ↦ ?_⟩
  rw [bare_string h] at hc
  cases hc

/-- Items between brackets, with commas between them. -/
theorem Plain.list {opening separator closing : Text} (hopening : ∀ c ∈ opening, c ≠ '"' ∧ c ≠ 'I' ∧ c ≠ 'N')
    (hseparator : ∀ c ∈ separator, c ≠ '"' ∧ c ≠ 'I' ∧ c ≠ 'N') (hclosing : ∀ c ∈ closing, c ≠ '"' ∧ c ≠ 'I' ∧ c ≠ 'N')
    (h : ∀ t ∈ ts, Plain t) : Plain (opening ++ join separator ts ++ closing) :=
  ((plain_of_forall hopening).append (join_closed (plain_of_forall (List.forall_mem_nil _)) Plain.append
    (plain_of_forall hseparator) h)).append (plain_of_forall hclosing)

theorem plain_spaces (h : ∀ c ∈ t, isSpace c) : Plain t := by
  refine plain_of_forall fun c hc ↦ ?_
  have hspace := h c hc
  refine ⟨?_, ?_, ?_⟩
  all_goals
    rintro rfl
    cases hspace

theorem plain_digits (h : ∀ c ∈ t, c.isDigit) : Plain t := by
  refine plain_of_forall fun c hc ↦ ?_
  have hdigit := h c hc
  refine ⟨?_, ?_, ?_⟩
  all_goals
    rintro rfl
    cases hdigit

theorem plain_fraction (h : IsFraction part) : Plain part := by
  cases h with
  | none => exact plain_of_forall (List.forall_mem_nil _)
  | some hne hdigits => exact (plain_of_forall (t := ".") (by decide)).append (plain_digits hdigits)

theorem plain_exponent (h : IsExponent mark) : Plain mark := by
  cases h with
  | none => exact plain_of_forall (List.forall_mem_nil _)
  | @some letter sign t hletter hsign hne hdigits =>
    have hstart : Plain [letter] := by
      rcases hletter with rfl | rfl <;> exact plain_of_forall (by decide)
    have hsigned : Plain sign := by
      rcases hsign with rfl | rfl | rfl <;> exact plain_of_forall (by decide)
    exact hstart.append (hsigned.append (plain_digits hdigits))

theorem IsKey.plain (h : IsKey t) : Plain t := by
  cases h with
  | mk hbefore h hbehind => exact ((plain_spaces hbefore).append (plain_string h)).append (plain_spaces hbehind)

theorem Valid.plain (h : Valid t) : Plain t := by
  induction h with
  | null => exact plain_of_forall (by decide)
  | bool b => cases b <;> exact plain_of_forall (by decide)
  | @number sign _ _ _ hsign hwhole hpart hmark =>
    have hsigned : Plain sign := by
      rcases hsign with rfl | rfl <;> exact plain_of_forall (by decide)
    exact hsigned.append ((plain_digits hwhole.isDigit).append ((plain_fraction hpart).append (plain_exponent hmark)))
  | string h => exact plain_string h
  | emptyArray hgap =>
    exact ((plain_of_forall (by decide)).append (plain_spaces hgap)).append (plain_of_forall (by decide))
  | array hne h ih => exact .list (by decide) (by decide) (by decide) ih
  | emptyObject hgap =>
    exact ((plain_of_forall (by decide)).append (plain_spaces hgap)).append (plain_of_forall (by decide))
  | object hne hkeys h ih =>
    refine .list (by decide) (by decide) (by decide) ?_
    rw [List.forall_mem_map]
    exact fun m hm ↦ ((hkeys m hm).plain.append (plain_of_forall (by decide))).append (ih m hm)
  | blanks hbefore h hbehind ih => exact ((plain_spaces hbefore).append ih).append (plain_spaces hbehind)

theorem balanced_key (k : Text) : Balanced (writeText k ++ ": ") :=
  (balanced_string (isBody_flatMap k)).append (balanced_of_not_mem (by decide))

section Items

variable {opening closing : Text} (hopening : CodePoint.ofChar '"' ∉ opening) (h : ∀ t ∈ ts, Balanced t)

include hopening h

theorem balanced_list (hclosing : CodePoint.ofChar '"' ∉ closing) : Balanced (opening ++ join ", " ts ++ closing) :=
  ((balanced_of_not_mem hopening).append (join_closed (fun _ ↦ rfl) Balanced.append
    (balanced_of_not_mem (by decide)) h)).append (balanced_of_not_mem hclosing)

theorem mem_bare_list (ht : t ∈ ts) (hc : c ∈ bare .outside t) :
    c ∈ bare .outside (opening ++ join ", " ts ++ closing) := by
  have hcomma : Balanced ", " := balanced_of_not_mem (by decide)
  have hitems : Balanced (join ", " ts) := join_closed (fun _ ↦ rfl) Balanced.append hcomma h
  rw [List.append_assoc]
  exact mem_bare_right (balanced_of_not_mem hopening) (mem_bare_left hitems (mem_bare_join hcomma h ht hc) closing)

end Items

theorem IsProper.balanced (hj : IsProper j) : Balanced j.write := by
  induction hj with
  | null => exact balanced_of_not_mem (by decide)
  | bool b => cases b <;> exact balanced_of_not_mem (by decide)
  | @int n => exact (valid_ofInt n).plain.balanced
  | @float x hx =>
    cases x with
    | finite => exact (valid_toText hx).plain.balanced
    | infinite s => cases s <;> exact balanced_of_not_mem (by decide)
    | nan => exact balanced_of_not_mem (by decide)
  | string t => exact balanced_string (isBody_flatMap t)
  | array _ ih =>
    rw [write, writeItems_eq]
    exact balanced_list (by decide) (List.forall_mem_map.2 ih) (by decide)
  | object _ _ ih =>
    rw [write, writeEntries_eq]
    exact balanced_list (by decide) (List.forall_mem_map.2 fun e he ↦ (balanced_key e.1).append (ih e he)) (by decide)

/-- The name of an infinity or of `nan` stands outside of the strings. -/
theorem IsProper.exists_name {y : Binary64} (hj : IsProper j) (h : Occurs (.float y) j) (hy : y.isFinite = false) :
    ∃ c ∈ bare .outside j.write, c = 'I' ∨ c = 'N' := by
  induction hj with
  | null | bool | int | string => cases h
  | float hx =>
    cases h
    cases y with
    | finite => cases hy
    | infinite s => cases s <;> exact ⟨'I', by decide, .inl rfl⟩
    | nan => exact ⟨'N', by decide, .inr rfl⟩
  | array hxs ih =>
    cases h with
    | item hx h =>
      obtain ⟨c, hc, hname⟩ := ih _ hx h
      have hitems := List.forall_mem_map.2 fun x hx ↦ (hxs x hx).balanced
      refine ⟨c, ?_, hname⟩
      rw [write, writeItems_eq]
      exact mem_bare_list (by decide) hitems (List.mem_map_of_mem hx) hc
  | object _ hes ih =>
    cases h with
    | key _ h => cases h
    | entry he h =>
      obtain ⟨c, hc, hname⟩ := ih _ he h
      have hentries := List.forall_mem_map.2 fun e he ↦ (balanced_key e.1).append (hes e he).balanced
      refine ⟨c, ?_, hname⟩
      rw [write, writeEntries_eq]
      exact mem_bare_list (by decide) hentries (List.mem_map_of_mem he) (mem_bare_right (balanced_key _) hc)

/-- The written text keeps to the grammar just if all numbers in the value are finite. -/
theorem IsProper.valid_iff (hj : IsProper j) : Valid j.write ↔ ∀ x, Occurs (.float x) j → x.isFinite := by
  refine ⟨fun h x hx ↦ ?_, hj.valid⟩
  by_contra hfinite
  obtain ⟨c, hc, hname⟩ := hj.exists_name hx (Bool.eq_false_of_not_eq_true hfinite)
  exact hname.elim (h.plain.ne c hc).1 (h.plain.ne c hc).2

end Bare

end PolymerAnalysis.Json
