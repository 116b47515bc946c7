import PolymerAnalysis.Proofs.Binary64.Spelling
import PolymerAnalysis.Proofs.Json.Strings

namespace PolymerAnalysis.Json

open Text Numeral

variable {negative : Bool} {c : CodePoint} {t rest whole part mark : Text} {n : Nat} {j : Json}

def Ends (rest : Text) : Prop := Stops (fun c : CodePoint ↦ ¬(c = ',' ∨ c = ']' ∨ c = '\x7d')) rest

theorem Ends.stops {P : CodePoint → Prop} (h : Ends rest) (hcomma : ¬P ',') (hbracket : ¬P ']') (hbrace : ¬P '\x7d') :
    Stops P rest := by
  refine h.mono fun c hc hend ↦ ?_
  rcases hend with rfl | rfl | rfl
  · exact hcomma hc
  · exact hbracket hc
  · exact hbrace hc

section Numbers

theorem fraction_append (hpart : IsFraction part) (hrest : Stops (fun c : CodePoint ↦ c.isDigit ∨ c = '.') rest) :
    fraction (part ++ rest) = part := by
  cases hpart with
  | none =>
    cases rest with
    | nil => rfl
    | cons c rest =>
      have hc : c ≠ '.' := fun h ↦ hrest c rfl (.inr h)
      simp [fraction, hc]
  | @some t hne hdigits =>
    rw [List.cons_append, fraction, takeWhile_append_of_stops hdigits (hrest.mono fun _ ↦ .inl)]
    simp [hne]

theorem exponentPart_append (hmark : IsExponent mark)
    (hrest : Stops (fun c : CodePoint ↦ c.isDigit ∨ c = 'e' ∨ c = 'E') rest) : exponentPart (mark ++ rest) = mark := by
  cases hmark with
  | none =>
    cases rest with
    | nil => rfl
    | cons c rest =>
      have hc : ¬(c = 'e' ∨ c = 'E') := fun h ↦ hrest c rfl (.inr h)
      simp [exponentPart, not_or.1 hc]
  | @some letter sign t hletter hsign hne hdigits =>
    have hsigns : ∀ c ∈ sign, (decide (c = CodePoint.ofChar '+') || decide (c = CodePoint.ofChar '-')) = true := by
      rcases hsign with rfl | rfl | rfl <;> decide
    have hlength : sign.length ≤ 1 := by
      rcases hsign with rfl | rfl | rfl <;> decide
    have hstops : Stops
        (fun c : CodePoint ↦ (decide (c = CodePoint.ofChar '+') || decide (c = CodePoint.ofChar '-')) = true)
        (t ++ rest) := by
      refine stops_append (fun c hc hplus ↦ ?_) fun h ↦ absurd h hne
      have hdigit := isDigit_iff.1 (hdigits c (List.mem_of_mem_head? hc))
      rw [Bool.or_eq_true, decide_eq_true_eq, decide_eq_true_eq] at hplus
      rcases hplus with rfl | rfl <;> exact absurd hdigit (by decide)
    rw [List.cons_append, List.append_assoc, exponentPart, takeWhile_append_of_stops hsigns hstops, List.drop_left,
      takeWhile_append_of_stops hdigits (hrest.mono fun _ ↦ .inl)]
    rcases hletter with rfl | rfl <;> simp [hlength, hne]

variable (hwhole : IsNumeral whole) (hpart : IsFraction part) (hmark : IsExponent mark) (hrest : Ends rest)

include hwhole in
/-- The digits before the point are read as they stand; nothing follows a leading zero. -/
theorem whole_append (hstops : Stops (fun c : CodePoint ↦ c.isDigit) rest) :
    (if ((whole ++ rest).takeWhile (·.isDigit)).head? = some (.ofChar '0')
      then ((whole ++ rest).takeWhile (·.isDigit)).take 1
      else (whole ++ rest).takeWhile (·.isDigit)) = whole := by
  rw [takeWhile_append_of_stops hwhole.isDigit hstops]
  split
  · next hzero =>
    rw [hwhole.canonical hzero]
    rfl
  · rfl

include hwhole hpart hmark hrest in
theorem pieces_append (ht : t = whole ++ (part ++ (mark ++ rest))) :
    (if (t.takeWhile (·.isDigit)).head? = some (.ofChar '0') then (t.takeWhile (·.isDigit)).take 1
      else t.takeWhile (·.isDigit)) = whole ∧
    fraction (t.drop whole.length) = part ∧ exponentPart (t.drop (whole.length + part.length)) = mark := by
  have hnumeric : Stops (fun c : CodePoint ↦ c.isDigit ∨ c = '.' ∨ c = 'e' ∨ c = 'E') rest :=
    hrest.stops (by decide) (by decide) (by decide)
  have hbehind : Stops (fun c : CodePoint ↦ c.isDigit ∨ c = '.') (mark ++ rest) :=
    stops_append hmark.stops fun _ ↦ hnumeric.mono fun _ h ↦ h.imp_right .inl
  have hstops : Stops (fun c : CodePoint ↦ c.isDigit) (part ++ (mark ++ rest)) :=
    stops_append hpart.stops fun _ ↦ hbehind.mono fun _ ↦ .inl
  subst ht
  refine ⟨whole_append hwhole hstops, ?_, ?_⟩
  · rw [List.drop_left, fraction_append hpart hbehind]
  · rw [← List.drop_drop, List.drop_left, List.drop_left,
      exponentPart_append hmark (hnumeric.mono fun _ h ↦ h.imp_right .inr)]

theorem number_ofNat (hn : (ofNat n).length ≤ digitLimit) (hrest : Ends rest) (negative : Bool) :
    number negative (ofNat n ++ rest) = .ok (.int (if negative then -(n : Int) else n), (ofNat n).length) := by
  have hread : Text.Numeral.read (ofNat n) = .ok (some n) := by
    rw [Text.Numeral.read, value?_ofNat]
    exact if_neg (Nat.not_lt.2 hn)
  have hempty : (ofNat n).isEmpty = false := by simpa using (isNumeral_ofNat n).ne_nil
  obtain ⟨hwhole, hpart, hmark⟩ := pieces_append (t := ofNat n ++ rest) (isNumeral_ofNat n) .none .none hrest rfl
  simp only [number, hwhole, hempty, hpart, hmark, hread, List.isEmpty_nil, Bool.and_self, Bool.false_eq_true,
    ↓reduceIte]

theorem number_of_isSpelling {q : ℚ} {x : Binary64} (h : Binary64.IsSpelling t q) (hrest : Ends rest)
    (hx : Binary64.unsigned? negative t = some x) : number negative (t ++ rest) = .ok (.float x, t.length) := by
  cases h with
  | @mk whole part mark _ _ hnumeral hfraction hexponent hne =>
    have hempty : whole.isEmpty = false := by simpa using hnumeral.ne_nil
    have hnonempty : (part.isEmpty && mark.isEmpty) = false := by
      rw [Bool.and_eq_false_iff, List.isEmpty_eq_false_iff, List.isEmpty_eq_false_iff]
      exact hne
    obtain ⟨hwhole, hpart, hmark⟩ := pieces_append hnumeral hfraction hexponent hrest rfl
    rw [List.append_assoc, List.append_assoc]
    simp only [number, hwhole, hempty, hpart, hmark, hnonempty, List.append_assoc, List.length_append, Nat.add_assoc, hx,
      Bool.false_eq_true, ↓reduceIte]

end Numbers

section Steps

variable {stack : List Frame} {cs : Text} {expected : Expected}

/-- One step, from the first code point that is no space. -/
theorem readFrom_step (h : t.dropWhile isSpace = c :: cs) : readFrom stack expected t = match expected with
    | .continuation j =>
      match stack with
      | [] => .error .malformed
      | .array items :: outer =>
        if c = ',' then readFrom (.array (j :: items) :: outer) .value cs
        else if c = ']' then readFrom outer (.continuation (.array (j :: items).reverse)) cs
        else .error .malformed
      | .object entries key :: outer =>
        if c = ',' then readFrom outer (.key (Keyed.put key j entries)) cs
        else if c = '\x7d' then readFrom outer (.continuation (.object (Keyed.put key j entries))) cs
        else .error .malformed
    | .colon entries key => if c = ':' then readFrom (.object entries key :: stack) .value cs else .error .malformed
    | .firstKey =>
      if c = '\x7d' then readFrom stack (.continuation (.object [])) cs
      else if c = '"' then
        match stringBody cs with
        | none => .error .malformed
        | some (key, size) => readFrom stack (.colon [] key) (cs.drop size)
      else .error .malformed
    | .key entries =>
      if c = '"' then
        match stringBody cs with
        | none => .error .malformed
        | some (key, size) => readFrom stack (.colon entries key) (cs.drop size)
      else .error .malformed
    | .firstItem =>
      if c = ']' then readFrom stack.tail (.continuation (.array [])) cs
      else if c = '[' then readFrom (.array [] :: stack) .firstItem cs
      else if c = '\x7b' then readFrom stack .firstKey cs
      else
        match scalar c cs with
        | .error e => .error e
        | .ok (j, size) => readFrom stack (.continuation j) (cs.drop size)
    | .value =>
      if c = '[' then readFrom (.array [] :: stack) .firstItem cs
      else if c = '\x7b' then readFrom stack .firstKey cs
      else
        match scalar c cs with
        | .error e => .error e
        | .ok (j, size) => readFrom stack (.continuation j) (cs.drop size) := by
  rw [readFrom.eq_def]
  split
  · next h' => cases h.symm.trans h'
  · next h' =>
    cases h.symm.trans h'
    rfl

theorem readFrom_blank (h : t.dropWhile isSpace = []) : readFrom stack expected t = match stack, expected with
    | [], .continuation j => .ok j
    | _, _ => .error .malformed := by
  rw [readFrom.eq_def]
  split
  · rfl
  · next h' => cases h.symm.trans h'

theorem dropWhile_of_not_space (hc : isSpace c = false) (cs : Text) : (c :: cs).dropWhile isSpace = c :: cs :=
  List.dropWhile_cons_of_neg (by simp [hc])

theorem readFrom_space (hc : isSpace c = true) (cs : Text) :
    readFrom stack expected (c :: cs) = readFrom stack expected cs := by
  have hdrop : (c :: cs).dropWhile isSpace = cs.dropWhile isSpace := List.dropWhile_cons_of_pos hc
  cases h : cs.dropWhile isSpace with
  | nil => rw [readFrom_blank h, readFrom_blank (hdrop.trans h)]
  | cons d ds => rw [readFrom_step h, readFrom_step (hdrop.trans h)]

theorem readFrom_firstItem (hspace : isSpace c = false) (hc : c ≠ ']') :
    readFrom stack .firstItem (c :: cs) = readFrom stack .value (c :: cs) := by
  rw [readFrom_step (dropWhile_of_not_space hspace cs), readFrom_step (dropWhile_of_not_space hspace cs)]
  exact if_neg hc

end Steps

section Scalars

/-- The text is read as a value wherever one is expected, up to what may stand behind it. -/
structure Reads (t : Text) (j : Json) : Prop where
  head : ∃ c cs, t = c :: cs ∧ isSpace c = false ∧ c ≠ ']'
  read : ∀ (stack : List Frame) (rest : Text), Ends rest →
    readFrom stack .value (t ++ rest) = readFrom stack (.continuation j) rest

theorem reads_of_scalar (hspace : isSpace c = false) (hbracket : c ≠ ']') (harray : c ≠ '[') (hobject : c ≠ '\x7b')
    (h : ∀ rest, Ends rest → scalar c (t ++ rest) = .ok (j, t.length)) : Reads (c :: t) j where
  head := ⟨c, t, rfl, hspace, hbracket⟩
  read stack rest hrest := by
    rw [List.cons_append, readFrom_step (dropWhile_of_not_space hspace _)]
    simp only [if_neg harray, if_neg hobject, h rest hrest, List.drop_left]

theorem reads_null : Reads "null" .null :=
  reads_of_scalar (t := "ull") (by decide) (by decide) (by decide) (by decide) fun rest _ ↦ by rfl

theorem reads_true : Reads "true" (.bool true) :=
  reads_of_scalar (t := "rue") (by decide) (by decide) (by decide) (by decide) fun rest _ ↦ by rfl

theorem reads_false : Reads "false" (.bool false) :=
  reads_of_scalar (t := "alse") (by decide) (by decide) (by decide) (by decide) fun rest _ ↦ by rfl

theorem reads_writeText (t : Text) : Reads (writeText t) (.string (joinPairs t)) := by
  have hcons : writeText t = CodePoint.ofChar '"' :: (t.flatMap escape ++ [CodePoint.ofChar '"']) := rfl
  rw [hcons]
  refine reads_of_scalar (by decide) (by decide) (by decide) (by decide) fun rest _ ↦ ?_
  rw [scalar, if_pos rfl, List.append_assoc, List.singleton_append, stringBody_write, List.length_append]
  rfl

/-- No keyword begins like a number. -/
theorem find?_keywords {i : Nat} {d : CodePoint} (hi : i < 2) (hd : t[i]? = some d) (hdigit : d.isDigit) :
    keywords.find? (fun k ↦ startsWith t k.1) = none := by
  refine List.find?_eq_none.2 fun k hk hstarts ↦ ?_
  obtain ⟨u, rfl⟩ := List.isPrefixOf_iff_prefix.1 hstarts
  have hletters : ∀ k ∈ keywords, ∀ i < 2, (k.1[i]?.any fun x ↦ !x.isDigit) = true := by decide
  have hletter := hletters k hk i hi
  cases hx : k.1[i]? with
  | none => simp [hx] at hletter
  | some x =>
    rw [List.getElem?_append_left (List.getElem?_eq_some_iff.1 hx).1, hx] at hd
    cases hd
    simp [hx, hdigit] at hletter

theorem reads_positive (ht : ∀ d ∈ t.head?, d.isDigit) (hne : t ≠ [])
    (h : ∀ rest, Ends rest → number false (t ++ rest) = .ok (j, t.length)) : Reads t j := by
  cases t with
  | nil => exact absurd rfl hne
  | cons c t =>
    have hc : c.isDigit := ht c rfl
    have hletter (d : Char) (hd : (CodePoint.ofChar d).isDigit = false) : c ≠ d := by
      rintro rfl
      rw [hc] at hd
      cases hd
    have hspace : isSpace c = false := by
      simp [isSpace, hletter ' ' (by decide), hletter '\n' (by decide), hletter '\r' (by decide),
        hletter '\t' (by decide)]
    refine reads_of_scalar hspace (hletter _ (by decide)) (hletter _ (by decide)) (hletter _ (by decide))
      fun rest hrest ↦ ?_
    rw [scalar, if_neg (hletter _ (by decide)), find?_keywords (i := 0) (by decide) rfl hc]
    simp only [if_neg (hletter '-' (by decide))]
    rw [← List.cons_append, h rest hrest]
    rfl

theorem reads_negative (ht : ∀ d ∈ t.head?, d.isDigit) (hne : t ≠ [])
    (h : ∀ rest, Ends rest → number true (t ++ rest) = .ok (j, t.length)) : Reads (CodePoint.ofChar '-' :: t) j := by
  refine reads_of_scalar (by decide) (by decide) (by decide) (by decide) fun rest hrest ↦ ?_
  cases t with
  | nil => exact absurd rfl hne
  | cons c t =>
    rw [scalar, if_neg (by decide), find?_keywords (i := 1) (by decide) rfl (ht c rfl)]
    simp only [↓reduceIte]
    exact h rest hrest

theorem reads_int {n : Int} (hn : (ofNat n.natAbs).length ≤ digitLimit) : Reads (ofInt n) (.int n) := by
  have hnumeral := isNumeral_ofNat n.natAbs
  have hhead : ∀ d ∈ (ofNat n.natAbs).head?, d.isDigit := fun d hd ↦ hnumeral.isDigit d (List.mem_of_mem_head? hd)
  rw [ofInt]
  split
  · refine reads_negative hhead hnumeral.ne_nil fun rest hrest ↦ (number_ofNat hn hrest true).trans ?_
    rw [if_pos rfl]
    have hneg : -(n.natAbs : Int) = n := by omega
    rw [hneg]
  · refine reads_positive hhead hnumeral.ne_nil fun rest hrest ↦ (number_ofNat hn hrest false).trans ?_
    have hpos : (n.natAbs : Int) = n := by omega
    rw [if_neg Bool.false_ne_true, hpos]

theorem reads_nan : Reads "NaN" (.float .nan) :=
  reads_of_scalar (t := "aN") (by decide) (by decide) (by decide) (by decide) fun rest _ ↦ by rfl

theorem reads_infinity : Reads "Infinity" (.float (.infinite false)) :=
  reads_of_scalar (t := "nfinity") (by decide) (by decide) (by decide) (by decide) fun rest _ ↦ by rfl

theorem reads_negativeInfinity : Reads "-Infinity" (.float (.infinite true)) :=
  reads_of_scalar (t := "Infinity") (by decide) (by decide) (by decide) (by decide) fun rest _ ↦ by rfl

theorem reads_float {x : Binary64} (hx : x.IsCanonical) : Reads (writeFloat x) (.float x) := by
  cases x with
  | nan => exact reads_nan
  | infinite s =>
    cases s with
    | true => exact reads_negativeInfinity
    | false => exact reads_infinity
  | finite s m p =>
    obtain ⟨q, hspelling, hread⟩ := Binary64.isSpelling_toText s hx
    obtain ⟨hne, hhead⟩ := hspelling.head
    cases s with
    | true => exact reads_negative hhead hne fun rest hrest ↦ number_of_isSpelling hspelling hrest hread
    | false => exact reads_positive hhead hne fun rest hrest ↦ number_of_isSpelling hspelling hrest hread

end Scalars

end PolymerAnalysis.Json
