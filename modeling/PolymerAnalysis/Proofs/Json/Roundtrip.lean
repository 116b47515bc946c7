import PolymerAnalysis.Proofs.Json.Reading
import PolymerAnalysis.Proofs.Keyed

namespace PolymerAnalysis.Json

open Text Numeral

variable {c : CodePoint} {t rest key : Text} {j x : Json} {xs : List Json} {e : Text × Json}
  {es acc : List (Text × Json)}

mutual

/-- The value with the halves of surrogate pairs joined. Of two entries that get one key the later one counts. -/
def joined : Json → Json
  | .string t => .string (joinPairs t)
  | .array xs => .array (joinedItems xs)
  | .object es => .object (Keyed.latest Prod.fst (joinedEntries es))
  | j => j

def joinedItems : List Json → List Json
  | [] => []
  | x :: xs => joined x :: joinedItems xs

def joinedEntries : List (Text × Json) → List (Text × Json)
  | [] => []
  | (k, x) :: es => (joinPairs k, joined x) :: joinedEntries es

end

/-- Its integers are not too long to be written, its floats are numbers and its keys are distinct. -/
inductive IsProper : Json → Prop
  | null : IsProper .null
  | bool (b : Bool) : IsProper (.bool b)
  | int {n : Int} (h : (ofNat n.natAbs).length ≤ digitLimit) : IsProper (.int n)
  | float {x : Binary64} (h : x.IsCanonical) : IsProper (.float x)
  | string (t : Text) : IsProper (.string t)
  | array {xs : List Json} (h : ∀ x ∈ xs, IsProper x) : IsProper (.array xs)
  | object {es : List (Text × Json)} (hkeys : (es.map Prod.fst).Nodup) (h : ∀ e ∈ es, IsProper e.2) :
      IsProper (.object es)

section Lists

theorem writeItems_eq (xs : List Json) : writeItems xs = xs.map write := by
  induction xs with
  | nil => rfl
  | cons x xs ih => rw [writeItems, ih, List.map_cons]

theorem joinedItems_eq (xs : List Json) : joinedItems xs = xs.map joined := by
  induction xs with
  | nil => rfl
  | cons x xs ih => rw [joinedItems, ih, List.map_cons]

theorem writeEntries_eq (es : List (Text × Json)) :
    writeEntries es = es.map fun e ↦ writeText e.1 ++ ": " ++ e.2.write := by
  induction es with
  | nil => rfl
  | cons e es ih => rw [writeEntries, ih, List.map_cons]

theorem joinedEntries_eq (es : List (Text × Json)) : joinedEntries es = es.map fun e ↦ (joinPairs e.1, e.2.joined) := by
  induction es with
  | nil => rfl
  | cons e es ih => rw [joinedEntries, ih, List.map_cons]

end Lists

section Containers

variable {stack : List Frame}

theorem ends_cons (hc : c = ',' ∨ c = ']' ∨ c = '\x7d') : Ends (c :: rest) := stops_cons (not_not.2 hc)

theorem ends_comma (rest : Text) : Ends (", " ++ rest) := ends_cons (.inl rfl)

theorem readFrom_comma : readFrom (.array xs :: stack) (.continuation j) (", " ++ rest) =
    readFrom (.array (j :: xs) :: stack) .value rest := by
  rw [← readFrom_space (c := ' ') (by decide) rest]
  exact (readFrom_step (dropWhile_of_not_space (by decide) _)).trans (if_pos rfl)

theorem readFrom_bracket : readFrom (.array xs :: stack) (.continuation j) (CodePoint.ofChar ']' :: rest) =
    readFrom stack (.continuation (.array (j :: xs).reverse)) rest := by
  rw [readFrom_step (dropWhile_of_not_space (by decide) _)]
  simp only [↓reduceIte]
  rw [if_neg (by decide)]

/-- The items of an array are read one after the other. -/
theorem readFrom_items (h : ∀ y ∈ x :: xs, Reads y.write y.joined) (acc : List Json) (stack : List Frame)
    (rest : Text) :
    readFrom (.array acc :: stack) .value (join ", " ((x :: xs).map write) ++ CodePoint.ofChar ']' :: rest) =
      readFrom stack (.continuation (.array (acc.reverse ++ (x :: xs).map joined))) rest := by
  induction xs generalizing x acc with
  | nil =>
    rw [List.map_singleton, join_singleton, (h x List.mem_cons_self).read _ _ (ends_cons (.inr (.inl rfl))),
      readFrom_bracket, List.reverse_cons]
    rfl
  | cons y xs ih =>
    rw [List.forall_mem_cons] at h
    rw [List.map_cons, List.map_cons, join_cons _ _ (List.cons_ne_nil _ _), List.append_assoc, List.append_assoc,
      h.1.read _ _ (ends_comma _), readFrom_comma, ← List.map_cons, ih h.2, List.reverse_cons, List.append_assoc]
    rfl

theorem reads_array (h : ∀ x ∈ xs, Reads x.write x.joined) : Reads (write (.array xs)) (joined (.array xs)) where
  head := ⟨'[', join ", " (writeItems xs) ++ "]", by rw [write]; rfl, by decide, by decide⟩
  read stack rest hrest := by
    have hopen : ∀ t, readFrom stack .value (CodePoint.ofChar '[' :: t) = readFrom (.array [] :: stack) .firstItem t :=
      fun t ↦ (readFrom_step (dropWhile_of_not_space (by decide) t)).trans (if_pos rfl)
    have hwrite : write (.array xs) ++ rest =
        CodePoint.ofChar '[' :: (join ", " (xs.map write) ++ CodePoint.ofChar ']' :: rest) := by
      rw [write, writeItems_eq, List.append_assoc, List.append_assoc]
      rfl
    rw [hwrite, hopen, joined, joinedItems_eq]
    cases xs with
    | nil =>
      exact (readFrom_step (dropWhile_of_not_space (by decide) rest)).trans (if_pos rfl)
    | cons x xs =>
      have hitems := readFrom_items h [] stack rest
      obtain ⟨c, cs, hc, hspace, hbracket⟩ := (h x List.mem_cons_self).head
      obtain ⟨ds, hds⟩ : ∃ ds, join ", " ((x :: xs).map write) ++ CodePoint.ofChar ']' :: rest = c :: ds := by
        rw [List.map_cons, join_cons_eq_flatMap, hc]
        exact ⟨_, rfl⟩
      rw [hds] at hitems ⊢
      rw [readFrom_firstItem hspace hbracket, hitems]
      rfl

/-- A key is read up to the value that belongs to it. -/
theorem readFrom_key (k : Text) (acc : List (Text × Json)) (rest : Text) :
    readFrom stack (.key acc) (writeText k ++ ": " ++ rest) =
      readFrom (.object acc (joinPairs k) :: stack) .value rest := by
  have hkey : writeText k ++ ": " ++ rest = CodePoint.ofChar '"' ::
      (k.flatMap escape ++ CodePoint.ofChar '"' :: (CodePoint.ofChar ':' :: CodePoint.ofChar ' ' :: rest)) := by
    rw [writeText, List.append_assoc, List.append_assoc, List.append_assoc]
    rfl
  rw [hkey, readFrom_step (dropWhile_of_not_space (by decide) _)]
  simp only [↓reduceIte, stringBody_write]
  rw [← List.drop_drop, List.drop_left, List.drop_one, List.tail_cons,
    readFrom_step (dropWhile_of_not_space (by decide) _)]
  simp only [↓reduceIte]
  exact readFrom_space (by decide) rest

theorem readFrom_firstKey : readFrom stack .firstKey (CodePoint.ofChar '"' :: rest) =
    readFrom stack (.key []) (CodePoint.ofChar '"' :: rest) := by
  rw [readFrom_step (dropWhile_of_not_space (by decide) rest), readFrom_step (dropWhile_of_not_space (by decide) rest)]
  exact if_neg (by decide)

theorem readFrom_nextKey : readFrom (.object acc key :: stack) (.continuation j) (", " ++ rest) =
    readFrom stack (.key (Keyed.put key j acc)) rest := by
  rw [← readFrom_space (c := ' ') (by decide) rest]
  exact (readFrom_step (dropWhile_of_not_space (by decide) _)).trans (if_pos rfl)

theorem readFrom_brace : readFrom (.object acc key :: stack) (.continuation j) (CodePoint.ofChar '\x7d' :: rest) =
    readFrom stack (.continuation (.object (Keyed.put key j acc))) rest := by
  rw [readFrom_step (dropWhile_of_not_space (by decide) _)]
  simp only [↓reduceIte]
  rw [if_neg (by decide)]

/-- The entries of an object are read one after the other. -/
theorem readFrom_entries (h : ∀ d ∈ e :: es, Reads d.2.write d.2.joined) (acc : List (Text × Json))
    (stack : List Frame) (rest : Text) :
    readFrom stack (.key acc)
        (join ", " ((e :: es).map fun d ↦ writeText d.1 ++ ": " ++ d.2.write) ++ CodePoint.ofChar '\x7d' :: rest) =
      readFrom stack (.continuation (.object
        (((e :: es).map fun d ↦ (joinPairs d.1, d.2.joined)).foldl (fun acc d ↦ Keyed.put d.1 d.2 acc) acc))) rest := by
  induction es generalizing e acc with
  | nil =>
    rw [List.map_singleton, join_singleton, List.append_assoc, readFrom_key,
      (h e List.mem_cons_self).read _ _ (ends_cons (.inr (.inr rfl))), readFrom_brace]
    rfl
  | cons d es ih =>
    rw [List.forall_mem_cons] at h
    rw [List.map_cons, List.map_cons, join_cons _ _ (List.cons_ne_nil _ _), List.append_assoc, List.append_assoc,
      List.append_assoc, readFrom_key, h.1.read _ _ (ends_comma _), readFrom_nextKey]
    exact ih h.2 _

theorem reads_object (h : ∀ e ∈ es, Reads e.2.write e.2.joined) : Reads (write (.object es)) (joined (.object es)) where
  head := ⟨'\x7b', join ", " (writeEntries es) ++ "\x7d", by rw [write]; rfl, by decide, by decide⟩
  read stack rest hrest := by
    have hopen : ∀ t, readFrom stack .value (CodePoint.ofChar '\x7b' :: t) = readFrom stack .firstKey t :=
      fun t ↦ (readFrom_step (dropWhile_of_not_space (by decide) t)).trans (if_neg (by decide))
    have hwrite : write (.object es) ++ rest = CodePoint.ofChar '\x7b' ::
        (join ", " (es.map fun d ↦ writeText d.1 ++ ": " ++ d.2.write) ++ CodePoint.ofChar '\x7d' :: rest) := by
      rw [write, writeEntries_eq, List.append_assoc, List.append_assoc]
      rfl
    rw [hwrite, hopen, joined, joinedEntries_eq, ← Keyed.foldl_upsert]
    cases es with
    | nil => exact (readFrom_step (dropWhile_of_not_space (by decide) rest)).trans (if_pos rfl)
    | cons e es =>
      have hentries := readFrom_entries h [] stack rest
      obtain ⟨ds, hds⟩ : ∃ ds, join ", " ((e :: es).map fun d ↦ writeText d.1 ++ ": " ++ d.2.write) ++
          CodePoint.ofChar '\x7d' :: rest = CodePoint.ofChar '"' :: ds := by
        rw [List.map_cons, join_cons_eq_flatMap]
        exact ⟨_, rfl⟩
      rw [hds] at hentries ⊢
      rw [readFrom_firstKey, hentries]
      rfl

end Containers

/-- What is written reads back with the halves of surrogate pairs joined. -/
theorem IsProper.reads (h : IsProper j) : Reads j.write j.joined := by
  induction h with
  | null => exact reads_null
  | bool b =>
    cases b with
    | true => exact reads_true
    | false => exact reads_false
  | int h => exact reads_int h
  | float h => exact reads_float h
  | string t => exact reads_writeText t
  | array _ ih => exact reads_array ih
  | object _ _ ih => exact reads_object ih

theorem IsProper.read_write (h : IsProper j) : read j.write = .ok j.joined := by
  have hread := h.reads.read [] [] (stops_nil _)
  rw [List.append_nil] at hread
  rw [read, hread, readFrom_blank (by rfl)]

section Exactness

/-- A part of a value; the keys of objects count as strings. -/
inductive Occurs (x : Json) : Json → Prop
  | self : Occurs x x
  | item {y : Json} {xs : List Json} (hy : y ∈ xs) (h : Occurs x y) : Occurs x (.array xs)
  | key {k : Text} {es : List (Text × Json)} (hk : k ∈ es.map Prod.fst) (h : x = .string k) : Occurs x (.object es)
  | entry {e : Text × Json} {es : List (Text × Json)} (he : e ∈ es) (h : Occurs x e.2) : Occurs x (.object es)

theorem occurs_array : Occurs x (.array xs) ↔ x = .array xs ∨ ∃ y ∈ xs, Occurs x y := by
  constructor
  · rintro (_ | ⟨hy, h⟩)
    · exact .inl rfl
    · exact .inr ⟨_, hy, h⟩
  · rintro (rfl | ⟨y, hy, h⟩)
    · exact .self
    · exact .item hy h

theorem occurs_object : Occurs x (.object es) ↔
    x = .object es ∨ ∃ e ∈ es, x = .string e.1 ∨ Occurs x e.2 := by
  constructor
  · rintro (_ | _ | ⟨hk, rfl⟩ | ⟨he, h⟩)
    · exact .inl rfl
    · obtain ⟨e, he, rfl⟩ := List.mem_map.1 hk
      exact .inr ⟨e, he, .inl rfl⟩
    · exact .inr ⟨_, he, .inr h⟩
  · rintro (rfl | ⟨e, he, rfl | h⟩)
    · exact .self
    · exact .key (List.mem_map_of_mem he) rfl
    · exact .entry he h

theorem IsProper.joined_of_unpaired (hj : IsProper j) (h : ∀ t, Occurs (.string t) j → Unpaired t) : j.joined = j := by
  induction hj with
  | null | bool | int | float => rfl
  | string t => rw [joined, joinPairs_of_unpaired (h t .self)]
  | array _ ih =>
    have heq := List.map_congr_left fun x hx ↦ ih x hx fun t ht ↦ h t (.item hx ht)
    rw [joined, joinedItems_eq, heq, List.map_id']
  | @object es hkeys _ ih =>
    have heq : ∀ e ∈ es, (joinPairs e.1, e.2.joined) = id e := fun e he ↦ Prod.ext
      (joinPairs_of_unpaired (h e.1 (.key (List.mem_map_of_mem he) rfl))) (ih e he fun t ht ↦ h t (.entry he ht))
    rw [joined, joinedEntries_eq, List.map_congr_left heq, List.map_id, Keyed.latest_of_nodup hkeys]

theorem IsProper.unpaired_of_occurs (hj : IsProper j) (h : Occurs (.string t) j.joined) : Unpaired t := by
  induction hj with
  | null | bool | int | float => cases h
  | string u =>
    rw [joined] at h
    cases h
    exact unpaired_joinPairs u
  | array _ ih =>
    rw [joined, joinedItems_eq] at h
    cases h with
    | item hy h =>
      obtain ⟨x, hx, rfl⟩ := List.mem_map.1 hy
      exact ih x hx h
  | object _ _ ih =>
    rw [joined, joinedEntries_eq] at h
    cases h with
    | key hk h =>
      cases h
      obtain ⟨e, he, rfl⟩ := List.mem_map.1 hk
      obtain ⟨d, hd, rfl⟩ := List.mem_map.1 (Keyed.mem_of_mem_latest he)
      exact unpaired_joinPairs d.1
    | entry he h =>
      obtain ⟨d, hd, rfl⟩ := List.mem_map.1 (Keyed.mem_of_mem_latest he)
      exact ih d hd h

theorem IsProper.joined_eq_iff (hj : IsProper j) : j.joined = j ↔ ∀ t, Occurs (.string t) j → Unpaired t :=
  ⟨fun h _ ht ↦ hj.unpaired_of_occurs (h.symm ▸ ht), hj.joined_of_unpaired⟩

end Exactness

end PolymerAnalysis.Json
