import PolymerAnalysis.Proofs.Except
import PolymerAnalysis.Proofs.Text.Lines
import PolymerAnalysis.Proofs.Text.Numeral
import PolymerAnalysis.Version.Reader

namespace PolymerAnalysis.Version

open Text

def Parts.numbers (p : Parts) : List Text :=
  p.epoch.toList ++ p.release ++ (p.pre.map (·.2)).toList ++ p.post.toList ++ p.dev.toList ++ p.locals

def isLong (t : Text) : Bool := t.all (·.isDigit) && Numeral.digitLimit < t.length

/-- A calculation that reads some texts in order gives way at the first that is too long, and nowhere else. -/
def Reads {α : Type} (x : Except ReadError α) (ts : List Text) : Prop :=
  match ts.find? isLong with
  | some t => x = .error (.limit (.reading t.length))
  | none => ∃ a, x = .ok a

section Reading

variable {α β : Type} {x : Except ReadError α} {f : α → Except ReadError β} {ts us : List Text} {t : Text}

theorem reads_pure (a : α) : Reads (.ok a) [] := ⟨a, rfl⟩

theorem Reads.bind (hx : Reads x ts) (hf : ∀ a, Reads (f a) us) : Reads (x >>= f) (ts ++ us) := by
  rw [Reads, List.find?_append]
  rw [Reads] at hx
  split at hx
  · next t ht =>
    rw [ht, hx]
    rfl
  · next hts =>
    obtain ⟨a, rfl⟩ := hx
    rw [hts, Option.none_or]
    exact hf a

theorem Reads.map (hx : Reads x ts) (g : α → β) : Reads (x.map g) ts := by
  rw [Reads] at hx ⊢
  split at hx
  · rw [hx]
    rfl
  · obtain ⟨a, rfl⟩ := hx
    exact ⟨g a, rfl⟩

theorem reads_mapM {g : Text → Except ReadError α} (hg : ∀ t, Reads (g t) [t]) (ts : List Text) :
    Reads (ts.mapM g) ts := by
  induction ts with
  | nil => exact reads_pure []
  | cons t ts ih =>
    rw [List.mapM_cons]
    refine (hg t).bind fun a ↦ ?_
    have hrest := ih.bind fun as ↦ reads_pure (a :: as)
    rwa [List.append_nil] at hrest

theorem reads_mapM_option {γ : Type} {g : γ → Except ReadError α} (digits : γ → Text)
    (hg : ∀ c, Reads (g c) [digits c]) (o : Option γ) : Reads (o.mapM g) (o.map digits).toList := by
  cases o with
  | none => exact reads_pure none
  | some c => exact (hg c).map some

theorem number_eq (t : Text) :
    number t = if isLong t then .error (.limit (.reading t.length)) else .ok ((Numeral.value? 10 t).getD 0) := by
  rw [number, Numeral.read, isLong]
  by_cases hdigits : ∀ c ∈ t, c.isDigit
  · rw [List.all_eq_true.2 hdigits, Bool.true_and]
    by_cases hne : t = []
    · subst hne
      rfl
    · obtain ⟨n, hn⟩ := Option.isSome_iff_exists.1 (Numeral.isSome_value?_iff.2 ⟨hne, hdigits⟩)
      rw [hn]
      by_cases hlong : Numeral.digitLimit < t.length
      · rw [if_pos (decide_eq_true hlong)]
        simp only [gt_iff_lt, if_pos hlong]
      · rw [if_neg (by simpa using hlong)]
        simp only [gt_iff_lt, if_neg hlong, Option.getD_some]
  · have hnone : Numeral.value? 10 t = none :=
      Option.not_isSome_iff_eq_none.1 fun h ↦ hdigits (Numeral.isSome_value?_iff.1 h).2
    have hall : t.all (·.isDigit) = false := Bool.eq_false_iff.2 fun h ↦ hdigits (List.all_eq_true.1 h)
    rw [hnone, hall]
    rfl

theorem reads_number (t : Text) : Reads (number t) [t] := by
  rw [Reads, number_eq, List.find?_singleton]
  by_cases ht : isLong t
  · simp only [if_pos ht]
  · simp only [if_neg ht]
    exact ⟨_, rfl⟩

theorem reads_localPart (t : Text) : Reads (localPart t) [t] := by
  rw [localPart]
  split
  · exact (reads_number t).map _
  · next hdigits =>
    have hshort : isLong t = false := by
      rw [isLong, Bool.eq_false_iff.2 hdigits, Bool.false_and]
    rw [Reads, List.find?_singleton, hshort]
    exact ⟨t, rfl⟩

/-- Reading a version gives way at the first of its numbers that is too long, and nowhere else. -/
theorem reads_read {p : Parts} (h : parts? t = some p) : Reads (read t) p.numbers := by
  have hepoch : Reads (number (p.epoch.getD [])) p.epoch.toList := by
    cases p.epoch with
    | none => exact reads_pure 0
    | some t => exact reads_number t
  have hpre : Reads (p.pre.mapM fun c ↦ (number c.2).map (c.1, ·)) (p.pre.map (·.2)).toList :=
    reads_mapM_option (·.2) (fun c ↦ (reads_number c.2).map (c.1, ·)) p.pre
  have hqualifier (o : Option Text) : Reads (o.mapM number) o.toList := by
    have hnumber := reads_mapM_option (fun t ↦ t) reads_number o
    rwa [Option.map_id'] at hnumber
  rw [read, h, Parts.numbers]
  simp only [List.append_assoc]
  refine hepoch.bind fun epoch ↦ (reads_mapM reads_number p.release).bind fun release ↦ hpre.bind fun pre ↦
    (hqualifier p.post).bind fun post ↦ (hqualifier p.dev).bind fun dev ↦ ?_
  have hlocals := (reads_mapM reads_localPart p.locals).bind fun locals ↦
    reads_pure (Version.mk epoch release pre post dev locals)
  rwa [List.append_nil] at hlocals

end Reading

section Pieces

variable {words : List Text} {t rest number w : Text} {p : Parts}

theorem digits_isInfix (t : Text) : (digits t).1 <:+: t := (List.takeWhile_prefix _).isInfix

theorem digits_isSuffix (t : Text) : (digits t).2 <:+ t := List.dropWhile_suffix _

theorem dropSeparator_isSuffix (t : Text) : dropSeparator t <:+ t := by
  cases t with
  | nil => exact List.suffix_refl _
  | cons c t =>
    rw [dropSeparator]
    split
    · exact List.suffix_cons c t
    · exact List.suffix_refl _

theorem isSuffix_of_word? (h : word? words t = some (w, rest)) : rest <:+ t := by
  obtain ⟨v, -, hv⟩ := List.exists_of_findSome?_eq_some h
  split at hv
  · cases hv
    exact List.drop_suffix _ t
  · cases hv

theorem of_qualifier? (h : qualifier? words t = some ((w, number), rest)) : number <:+: t ∧ rest <:+ t := by
  obtain ⟨⟨v, behind⟩, hword, heq⟩ := Option.map_eq_some_iff.1 h
  have hbehind := (dropSeparator_isSuffix behind).trans ((isSuffix_of_word? hword).trans (dropSeparator_isSuffix t))
  cases heq
  exact ⟨(digits_isInfix _).trans hbehind.isInfix, (digits_isSuffix _).trans hbehind⟩

theorem of_postQualifier? (h : postQualifier? t = some (number, rest)) : number <:+: t ∧ rest <:+ t := by
  simp only [postQualifier?] at h
  split at h
  · cases h
    have hdrop := List.drop_suffix 1 t
    exact ⟨(digits_isInfix _).trans hdrop.isInfix, (digits_isSuffix _).trans hdrop⟩
  · obtain ⟨⟨⟨v, n⟩, behind⟩, hqualifier, heq⟩ := Option.map_eq_some_iff.1 h
    cases heq
    exact of_qualifier? hqualifier

theorem of_releaseTail (size : Nat) (t : Text) :
    (∀ d ∈ (releaseTail size t).1, d <:+: t) ∧ (releaseTail size t).2 <:+ t := by
  induction size generalizing t with
  | zero => exact ⟨fun d hd ↦ (by cases hd), List.suffix_refl t⟩
  | succ size ih =>
    simp only [releaseTail]
    split
    · have hdrop := List.drop_suffix 1 t
      have hrest := (digits_isSuffix (t.drop 1)).trans hdrop
      obtain ⟨hmore, hend⟩ := ih (digits (t.drop 1)).2
      refine ⟨?_, hend.trans hrest⟩
      rw [List.forall_mem_cons]
      exact ⟨(digits_isInfix _).trans hdrop.isInfix, fun d hd ↦ (hmore d hd).trans hrest.isInfix⟩
    · exact ⟨fun d hd ↦ (by cases hd), List.suffix_refl t⟩

theorem isInfix_of_mem_localParts? {ps : List Text} (h : localParts? t = some ps) (hw : w ∈ ps) : w <:+: t := by
  cases t with
  | nil =>
    cases h
    cases hw
  | cons c t =>
    rw [localParts?] at h
    split at h
    · cases h
      exact List.infix_cons (isInfix_of_mem_splitWhere hw)
    · cases h

theorem of_epoch {first first' rest' : Text} {epoch : Option Text}
    (h : (if first ≠ [] ∧ rest.head? = some (.ofChar '!') then
      match digits (rest.drop 1) with
      | (number, rest) => (some first, number, rest)
      else (none, first, rest)) = (epoch, first', rest'))
    (hfirst : first <:+: t) (hrest : rest <:+: t) : (∀ e ∈ epoch, e <:+: t) ∧ first' <:+: t ∧ rest' <:+: t := by
  split at h
  · have hdrop := (List.drop_suffix 1 rest).isInfix.trans hrest
    cases h
    refine ⟨?_, (digits_isInfix _).trans hdrop, (digits_isSuffix _).isInfix.trans hdrop⟩
    rintro e ⟨⟩
    exact hfirst
  · cases h
    exact ⟨fun e he ↦ (by cases he), hfirst, hrest⟩

theorem optional_isSuffix {α : Type} {o : Option (α × Text)} (h : ∀ x ∈ o, x.2 <:+ t) :
    (o.map (·.2)).getD t <:+ t := by
  cases o with
  | none => exact List.suffix_refl t
  | some x => exact h x rfl

/-- Every number of a version is a piece of its text. -/
theorem isInfix_of_mem_numbers {d : Text} (h : parts? t = some p) (hd : d ∈ p.numbers) : d <:+: t := by
  have hstart : (if t.trim.head?.map foldLetter = some (.ofChar 'v') then t.trim.drop 1 else t.trim) <:+: t := by
    split
    · exact (List.drop_suffix 1 _).isInfix.trans (isInfix_trim t)
    · exact isInfix_trim t
  rw [parts?] at h
  split at h
  next first rest hdigits =>
  split at h
  next epoch first' rest' hepoch =>
  extract_lets jp at h
  split at h
  · cases h
  · simp -zeta only [jp] at h
    extract_lets pre rest₂ post rest₃ dev rest₄ at h
    obtain ⟨locals, hlocals, hp⟩ := Option.bind_eq_some_iff.1 h
    cases hp
    have hfirst := digits_isInfix _ |>.trans hstart
    have hrest := (digits_isSuffix _).isInfix.trans hstart
    rw [hdigits] at hfirst hrest
    have hsplit := of_epoch hepoch hfirst hrest
    obtain ⟨hmore, hbehind⟩ := of_releaseTail rest'.length rest'
    have hrest₁ := hbehind.isInfix.trans hsplit.2.2
    have hpre : ∀ x ∈ pre, x.1.2 <:+: (releaseTail rest'.length rest').2 ∧ x.2 <:+ (releaseTail rest'.length rest').2 :=
      fun x hx ↦ of_qualifier? hx
    have hrest₂ := (optional_isSuffix fun x hx ↦ (hpre x hx).2).isInfix.trans hrest₁
    have hpost : ∀ x ∈ post, x.1 <:+: rest₂ ∧ x.2 <:+ rest₂ := fun x hx ↦ of_postQualifier? hx
    have hrest₃ := (optional_isSuffix fun x hx ↦ (hpost x hx).2).isInfix.trans hrest₂
    have hdev : ∀ x ∈ dev, x.1.2 <:+: rest₃ ∧ x.2 <:+ rest₃ := fun x hx ↦ of_qualifier? hx
    have hrest₄ := (optional_isSuffix fun x hx ↦ (hdev x hx).2).isInfix.trans hrest₃
    simp only [Parts.numbers, List.mem_append, List.mem_cons, Option.mem_toList, Option.map_eq_some_iff]
      at hd
    rcases hd with ((((he | rfl | hr) | ⟨_, ⟨x, hx, rfl⟩, rfl⟩) | ⟨x, hx, rfl⟩) | ⟨x, hx, rfl⟩) | hl
    · exact hsplit.1 d he
    · exact hsplit.2.1
    · exact (hmore d hr).trans hsplit.2.2
    · exact (hpre x hx).1.trans hrest₁
    · exact (hpost x hx).1.trans hrest₂
    · exact (hdev x hx).1.trans hrest₃
    · exact (isInfix_of_mem_localParts? hlocals hl).trans hrest₄

end Pieces

section Plain

variable {t u : Text} {c : CodePoint}

def IsRun (t : Text) : Prop := t ≠ [] ∧ ∀ c ∈ t, c.isDigit

theorem digits_append (ht : ∀ c ∈ t, c.isDigit) (hu : Stops (fun c : CodePoint ↦ c.isDigit) u) :
    digits (t ++ u) = (t, u) := by
  have htake : u.takeWhile (·.isDigit) = [] := by
    cases u with
    | nil => rfl
    | cons c u => exact List.takeWhile_cons_of_neg (hu c rfl)
  rw [digits, List.takeWhile_append_of_pos ht, htake, List.append_nil, List.dropWhile_append_of_pos ht,
    dropWhile_of_stops hu]

theorem not_isBlank_of_isDigit (hc : c.isDigit) : ¬c.isBlank := by
  have hval := Numeral.isDigit_iff.1 hc
  simp [CodePoint.isBlank, inRanges]
  omega

theorem foldLetter_of_isDigit (hc : c.isDigit) : foldLetter c = c := by
  have hval := Numeral.isDigit_iff.1 hc
  rw [foldLetter, if_neg]
  simp [CodePoint.isUpper]
  omega

theorem releaseTail_cons (size : Nat) (ht : IsRun t) (hu : Stops (fun c : CodePoint ↦ c.isDigit) u) :
    releaseTail (size + 1) (.ofChar '.' :: (t ++ u)) = (t :: (releaseTail size u).1, (releaseTail size u).2) := by
  rw [releaseTail, List.drop_one, List.tail_cons, digits_append ht.2 hu]
  exact if_pos ⟨rfl, ht.1⟩

/-- What is found in three runs of digits with dots between them. -/
theorem parts?_plain {major minor patch : Text} (hmajor : IsRun major) (hminor : IsRun minor) (hpatch : IsRun patch) :
    parts? (major ++ .ofChar '.' :: (minor ++ .ofChar '.' :: patch)) =
      some { epoch := none, release := [major, minor, patch], pre := none, post := none, dev := none, locals := [] } := by
  have hdot (u : Text) : Stops (fun c : CodePoint ↦ c.isDigit) (.ofChar '.' :: u) := stops_cons (by decide)
  have hblank : ∀ c ∈ major ++ .ofChar '.' :: (minor ++ .ofChar '.' :: patch), ¬c.isBlank := by
    simp only [List.mem_append, List.mem_cons]
    rintro c (hc | rfl | hc | rfl | hc)
    · exact not_isBlank_of_isDigit (hmajor.2 c hc)
    · decide
    · exact not_isBlank_of_isDigit (hminor.2 c hc)
    · decide
    · exact not_isBlank_of_isDigit (hpatch.2 c hc)
  have htrim := trim_of_stops (stops_of_forall hblank) (stops_reverse_of_forall hblank)
  have hfirst := digits_append hmajor.2 (hdot (minor ++ .ofChar '.' :: patch))
  have htail : releaseTail (.ofChar '.' :: (minor ++ .ofChar '.' :: patch)).length
      (.ofChar '.' :: (minor ++ .ofChar '.' :: patch)) = ([minor, patch], []) := by
    obtain ⟨size, hsize⟩ : ∃ size, (.ofChar '.' :: (minor ++ .ofChar '.' :: patch) : Text).length = size + 1 + 1 :=
      ⟨minor.length + patch.length, by simp; omega⟩
    have hpatch' := releaseTail_cons size hpatch (stops_nil (fun c : CodePoint ↦ c.isDigit))
    rw [List.append_nil] at hpatch'
    rw [hsize, releaseTail_cons (size + 1) hminor (hdot patch), hpatch']
    cases size <;> rfl
  have hv : (major ++ .ofChar '.' :: (minor ++ .ofChar '.' :: patch)).head?.map foldLetter ≠ some (.ofChar 'v') := by
    obtain ⟨c, rest, rfl⟩ := List.exists_cons_of_ne_nil hmajor.1
    have hc : c.isDigit := hmajor.2 c List.mem_cons_self
    rw [List.cons_append, List.head?_cons, Option.map_some, foldLetter_of_isDigit hc]
    rintro ⟨⟩
    exact absurd hc (by decide)
  have hepoch : ¬(major ≠ [] ∧ (.ofChar '.' :: (minor ++ .ofChar '.' :: patch) : Text).head? = some (.ofChar '!')) :=
    fun h ↦ absurd (Option.some.inj h.2) (by decide)
  rw [parts?, htrim]
  simp only [if_neg hv, hfirst, if_neg hepoch, List.isEmpty_eq_false_iff.2 hmajor.1, htail]
  rfl

end Plain

end PolymerAnalysis.Version
