import PolymerAnalysis.Proofs.Metadata.Generation
import PolymerAnalysis.Proofs.Version.Reader
import Mathlib.Data.Prod.Lex

namespace PolymerAnalysis.Metadata

open Version

variable {known given t : Text} {newest v : Version} {package : Json} {major minor n : Nat}

/-- Three decimal numerals without leading zeros and with dots between them. -/
def IsPlainVersion (t : Text) (major minor : Nat) : Prop :=
  ∃ x y z : Text, x.IsNumeral ∧ y.IsNumeral ∧ z.IsNumeral ∧ t = x ++ .ofChar '.' :: (y ++ .ofChar '.' :: z) ∧
    Text.Numeral.value? 10 x = some major ∧ Text.Numeral.value? 10 y = some minor

/-- A plain version that is not newer than `newest`, whatever its last number. -/
def IsKnown (newest : Version) (t : Text) : Prop :=
  ∃ major minor, IsPlainVersion t major minor ∧ toLex (major, minor) ≤ toLex (newest.major, newest.minor)

/-- The first number that is too long to be read has `n` digits. -/
def IsTooLong (t : Text) (n : Nat) : Prop :=
  ∃ p d, parts? t = some p ∧ p.numbers.find? isLong = some d ∧ d.length = n

theorem isRun_of_isNumeral (h : t.IsNumeral) : IsRun t := ⟨h.ne_nil, h.isDigit⟩

theorem le_iff (v w : Version) : v.le w ↔ toLex (v.major, v.minor) ≤ toLex (w.major, w.minor) := by
  simp [Version.le, Prod.Lex.toLex_le_toLex]

theorem IsTooLong.unique {m : Nat} (hm : IsTooLong t m) (hn : IsTooLong t n) : m = n := by
  obtain ⟨p, d, hp, hd, rfl⟩ := hm
  obtain ⟨q, e, hq, he, rfl⟩ := hn
  cases hp.symm.trans hq
  cases hd.symm.trans he
  rfl

theorem read_of_isTooLong (h : IsTooLong t n) : Version.read t = .error (.limit (.reading n)) := by
  obtain ⟨p, d, hp, hd, rfl⟩ := h
  have hreads := reads_read hp
  rwa [Reads, hd] at hreads

theorem read_eq_of_short (h : ¬∃ n, IsTooLong t n) :
    Version.read t = .error .malformed ∨ ∃ v, Version.read t = .ok v := by
  cases hp : parts? t with
  | none =>
    rw [Version.read, hp]
    exact .inl rfl
  | some p =>
    have hreads := reads_read hp
    cases hd : p.numbers.find? isLong with
    | none =>
      rw [Reads, hd] at hreads
      exact .inr hreads
    | some d => exact absurd ⟨d.length, p, d, hp, hd, rfl⟩ h

theorem exists_schemaVersion? (h : ¬∃ n, IsTooLong t n) : ∃ o, schemaVersion? t = .ok o := by
  rw [schemaVersion?]
  rcases read_eq_of_short h with hread | ⟨v, hread⟩
  all_goals
    rw [hread]
    exact ⟨_, rfl⟩

theorem releaseText_of_three {a b c : Nat} (h : v.release = [a, b, c]) :
    v.releaseText = Text.Numeral.ofNat a ++ .ofChar '.' :: (Text.Numeral.ofNat b ++ .ofChar '.' :: Text.Numeral.ofNat c) := by
  rw [releaseText, h, List.map_cons, List.map_cons, List.map_singleton, Text.join_cons _ _ (List.cons_ne_nil _ _),
    Text.join_cons _ _ (List.cons_ne_nil _ _), Text.join_singleton, List.append_assoc, List.append_assoc]
  rfl

theorem isPlainVersion_of_schemaVersion? (h : schemaVersion? t = .ok (some v)) : IsPlainVersion t v.major v.minor := by
  rw [schemaVersion?] at h
  split at h
  · rw [Except.ok.injEq, Option.ite_none_right_eq_some, Option.some.injEq] at h
    obtain ⟨hplain, rfl⟩ := h
    simp only [Bool.and_eq_true, decide_eq_true_eq] at hplain
    obtain ⟨⟨hlength, -⟩, htext⟩ := hplain
    obtain ⟨a, b, c, hrelease⟩ := List.length_eq_three.1 hlength
    rw [major, minor, hrelease]
    rw [releaseText_of_three hrelease] at htext
    exact ⟨_, _, _, Text.Numeral.isNumeral_ofNat a, Text.Numeral.isNumeral_ofNat b, Text.Numeral.isNumeral_ofNat c,
      htext.symm, Text.Numeral.value?_ofNat a, Text.Numeral.value?_ofNat b⟩
  · cases h
  · cases h

theorem schemaVersion?_of_isPlainVersion (hplain : IsPlainVersion t major minor) (hshort : ¬∃ n, IsTooLong t n) :
    ∃ v, schemaVersion? t = .ok (some v) ∧ v.major = major ∧ v.minor = minor := by
  obtain ⟨x, y, z, hx, hy, hz, rfl, hmajor, hminor⟩ := hplain
  have hparts := parts?_plain (isRun_of_isNumeral hx) (isRun_of_isNumeral hy) (isRun_of_isNumeral hz)
  obtain ⟨patch, hpatch⟩ := Option.isSome_iff_exists.1 (Text.Numeral.isSome_value?_iff.2 ⟨hz.ne_nil, hz.isDigit⟩)
  have hread {d : Text} {k : Nat} (hd : d ∈ [x, y, z]) (hk : Text.Numeral.value? 10 d = some k) : number d = .ok k := by
    have hdshort : ¬isLong d := fun hlong ↦ by
      cases hfind : [x, y, z].find? isLong with
      | none => exact absurd hlong (List.find?_eq_none.1 hfind d hd)
      | some e => exact hshort ⟨e.length, _, e, hparts, by simpa [Parts.numbers] using hfind, rfl⟩
    rw [number_eq, if_neg hdshort, hk]
    rfl
  have hversion : Version.read (x ++ .ofChar '.' :: (y ++ .ofChar '.' :: z)) =
      .ok { epoch := 0, release := [major, minor, patch], pre := none, post := none, dev := none, locals := [] } := by
    rw [Version.read, hparts]
    simp only [List.mapM_cons, hread List.mem_cons_self hmajor,
      hread (List.mem_cons_of_mem x List.mem_cons_self) hminor, hread (by simp) hpatch]
    rfl
  refine ⟨⟨0, [major, minor, patch], none, none, none, []⟩, ?_, rfl, rfl⟩
  rw [schemaVersion?, hversion]
  have htext : releaseText ⟨0, [major, minor, patch], none, none, none, []⟩ =
      x ++ .ofChar '.' :: (y ++ .ofChar '.' :: z) := by
    rw [releaseText_of_three rfl, ← hx.eq_ofNat hmajor, ← hy.eq_ofNat hminor, ← hz.eq_ofNat hpatch]
  simp [htext, isPlain]

theorem checkVersion_of_isTooLong (hknown : Version.read known = .ok newest) (h : IsTooLong given n) :
    checkVersion known given = .error (.unreadable (.limit (.reading n))) := by
  rw [checkVersion, hknown, schemaVersion?, read_of_isTooLong h]
  rfl

theorem checkVersion_eq {o : Option Version} (hknown : Version.read known = .ok newest)
    (ho : schemaVersion? given = .ok o) :
    checkVersion known given = if o.any (·.le newest) then .ok () else .error (.version known given) := by
  rw [checkVersion, hknown, ho]
  cases o <;> rfl

theorem checkVersion_of_short (hknown : Version.read known = .ok newest) (hshort : ¬∃ n, IsTooLong given n) :
    IsKnown newest given ∧ checkVersion known given = .ok () ∨
      ¬IsKnown newest given ∧ checkVersion known given = .error (.version known given) := by
  obtain ⟨o, ho⟩ := exists_schemaVersion? hshort
  rw [checkVersion_eq hknown ho]
  have hfound {major minor : Nat} (hplain : IsPlainVersion given major minor) :
      ∃ v, o = some v ∧ v.major = major ∧ v.minor = minor := by
    obtain ⟨v, hv, hmajor, hminor⟩ := schemaVersion?_of_isPlainVersion hplain hshort
    exact ⟨v, Except.ok.inj (ho.symm.trans hv), hmajor, hminor⟩
  cases o with
  | none =>
    refine .inr ⟨?_, rfl⟩
    rintro ⟨major, minor, hplain, -⟩
    obtain ⟨v, hv, -⟩ := hfound hplain
    cases hv
  | some v =>
    have hiff : IsKnown newest given ↔ v.le newest := by
      rw [le_iff]
      constructor
      · rintro ⟨major, minor, hplain, hle⟩
        obtain ⟨w, hw, rfl, rfl⟩ := hfound hplain
        cases hw
        exact hle
      · exact fun hle ↦ ⟨v.major, v.minor, isPlainVersion_of_schemaVersion? ho, hle⟩
    by_cases hle : v.le newest
    · exact .inl ⟨hiff.2 hle, if_pos hle⟩
    · exact .inr ⟨fun h ↦ hle (hiff.1 h), if_neg hle⟩

/-- A text that keeps the limit on digits has no number beyond it. -/
theorem not_isTooLong (h : t.length ≤ Text.Numeral.digitLimit) : ¬IsTooLong t n := by
  rintro ⟨p, d, hp, hd, -⟩
  have hlong : isLong d = true := List.find?_some hd
  have hlength := (isInfix_of_mem_numbers hp (List.mem_of_find?_eq_some hd)).length_le
  rw [isLong, Bool.and_eq_true, decide_eq_true_eq] at hlong
  omega

theorem exists_version_of_check (h : Schema.package.check package = []) :
    ∃ given, package.get? "schema_version" = some (.string given) := by
  have hnone : Schema.violations Violation.rootPath package Schema.package = [] := by
    rw [← List.length_eq_zero_iff, ← List.length_mergeSort, ← Schema.check, h, List.length_nil]
  simp only [Schema.package, Schema.violations, List.append_eq_nil_iff] at hnone
  obtain ⟨hobject, hrequired, hversion, -⟩ := hnone
  cases package with
  | object entries =>
    cases hget : (Json.object entries).get? "schema_version" with
    | none => simp [Schema.ruleViolations, hget] at hrequired
    | some j =>
      rw [Schema.ruleViolations, hget] at hversion
      simp only [Schema.string, Schema.violations, List.append_nil, Schema.ruleViolations, ite_eq_left_iff] at hversion
      cases j with
      | string given => exact ⟨given, rfl⟩
      | null | bool | int | float | array | object => simp [JsonType.holds] at hversion
  | null | bool | int | float | string | array => simp [Schema.ruleViolations, JsonType.holds] at hobject

/-- Valid metadata has a version. It is accepted just if it is known, and refused otherwise, unless one of its numbers
has too many digits to be read: that is a failure of its own. No text within the limit on digits has one. -/
theorem validate_decides_version (hpackage : Schema.package.check package = []) (hknown : Version.read known = .ok newest) :
    ∃ given, package.get? "schema_version" = some (.string given) ∧
      (validate known package = .ok () ↔ IsKnown newest given ∧ ¬∃ n, IsTooLong given n) ∧
      (validate known package = .error (.version known given) ↔ ¬IsKnown newest given ∧ ¬∃ n, IsTooLong given n) ∧
      (∀ n, validate known package = .error (.unreadable (.limit (.reading n))) ↔ IsTooLong given n) ∧
      (given.length ≤ Text.Numeral.digitLimit → ¬∃ n, IsTooLong given n) := by
  obtain ⟨given, hgiven⟩ := exists_version_of_check hpackage
  have hvalidate : validate known package = checkVersion known given := by
    rw [validate, hpackage, hgiven]
  rw [hvalidate]
  refine ⟨given, hgiven, ?_⟩
  have hshort : given.length ≤ Text.Numeral.digitLimit → ¬∃ n, IsTooLong given n := by
    rintro hlength ⟨n, hn⟩
    exact not_isTooLong hlength hn
  by_cases hlong : ∃ n, IsTooLong given n
  · obtain ⟨n, hn⟩ := hlong
    rw [checkVersion_of_isTooLong hknown hn]
    refine ⟨?_, ?_, fun m ↦ ?_, hshort⟩
    · exact ⟨fun h ↦ (by cases h), fun h ↦ absurd ⟨n, hn⟩ h.2⟩
    · exact ⟨fun h ↦ (by cases h), fun h ↦ absurd ⟨n, hn⟩ h.2⟩
    · constructor
      · rintro ⟨⟩
        exact hn
      · exact fun hm ↦ by rw [hn.unique hm]
  · have hnone (n : Nat) : ¬IsTooLong given n := fun hn ↦ hlong ⟨n, hn⟩
    rcases checkVersion_of_short hknown hlong with ⟨hyes, hcheck⟩ | ⟨hno, hcheck⟩
    · rw [hcheck]
      exact ⟨iff_of_true rfl ⟨hyes, hlong⟩, iff_of_false (by simp) fun h ↦ h.1 hyes,
        fun n ↦ iff_of_false (by simp) (hnone n), hshort⟩
    · rw [hcheck]
      exact ⟨iff_of_false (by simp) fun h ↦ hno h.1, iff_of_true rfl ⟨hno, hlong⟩,
        fun n ↦ iff_of_false (by simp) (hnone n), hshort⟩

theorem later_patch_accepted : validate schemaVersion (assemble "1.0.7" []) = .ok () := by
  have hallows : Schema.package.Allows (assemble "1.0.7" []) := allows_assemble _ fun e he ↦ absurd he List.not_mem_nil
  have hknown : Version.read schemaVersion = .ok ⟨0, [1, 0, 0], none, none, none, []⟩ := rfl
  have hplain : IsPlainVersion "1.0.7" 1 0 :=
    ⟨"1", "0", "7", Text.Numeral.isNumeral_ofNat 1, Text.Numeral.isNumeral_ofNat 0, Text.Numeral.isNumeral_ofNat 7,
      rfl, rfl, rfl⟩
  obtain ⟨given, hgiven, haccepted, -, -, hshort⟩ := validate_decides_version hallows.check_eq_nil hknown
  cases hgiven
  exact haccepted.2 ⟨⟨1, 0, hplain, le_refl _⟩, hshort (by decide)⟩

def ones : Text := List.replicate 4301 (.ofChar '1')

def longVersion : Text := ("1.0." : Text) ++ ones

theorem longVersion_eq : longVersion = ("1" : Text) ++ .ofChar '.' :: (("0" : Text) ++ .ofChar '.' :: ones) := rfl

theorem isNumeral_ones : ones.IsNumeral where
  ne_nil := List.cons_ne_nil _ _
  isDigit c hc := by
    rw [List.eq_of_mem_replicate hc]
    decide
  canonical h := absurd (Option.some.inj h) (by decide)

theorem isTooLong_longVersion : IsTooLong longVersion 4301 := by
  have hparts := parts?_plain (isRun_of_isNumeral (Text.Numeral.isNumeral_ofNat 1))
    (isRun_of_isNumeral (Text.Numeral.isNumeral_ofNat 0)) (isRun_of_isNumeral isNumeral_ones)
  have hlong : isLong ones = true := by
    rw [isLong, List.all_eq_true.2 isNumeral_ones.isDigit, ones, List.length_replicate]
    rfl
  have hfirst : [Text.Numeral.ofNat 1, Text.Numeral.ofNat 0, ones].find? isLong = some ones := by
    rw [List.find?_cons_of_neg (by decide), List.find?_cons_of_neg (by decide), List.find?_cons_of_pos hlong]
  exact ⟨_, ones, hparts, by simpa [Parts.numbers] using hfirst, List.length_replicate⟩

theorem longVersion_unread :
    Schema.package.check (assemble longVersion []) = [] ∧
      (assemble longVersion []).get? "schema_version" = some (.string longVersion) ∧
      Version.read schemaVersion = .ok ⟨0, [1, 0, 0], none, none, none, []⟩ ∧
      IsKnown ⟨0, [1, 0, 0], none, none, none, []⟩ longVersion ∧
      validate schemaVersion (assemble longVersion []) = .error (.unreadable (.limit (.reading 4301))) := by
  have hallows : Schema.package.Allows (assemble longVersion []) :=
    allows_assemble _ fun e he ↦ absurd he List.not_mem_nil
  have hversion : (assemble longVersion []).get? "schema_version" = some (.string longVersion) := rfl
  have hknown : Version.read schemaVersion = .ok ⟨0, [1, 0, 0], none, none, none, []⟩ := rfl
  have hplain : IsPlainVersion longVersion 1 0 :=
    ⟨_, _, _, Text.Numeral.isNumeral_ofNat 1, Text.Numeral.isNumeral_ofNat 0, isNumeral_ones, longVersion_eq,
      rfl, rfl⟩
  refine ⟨hallows.check_eq_nil, hversion, hknown, ⟨1, 0, hplain, le_refl _⟩, ?_⟩
  rw [validate, hallows.check_eq_nil, hversion]
  exact checkVersion_of_isTooLong hknown isTooLong_longVersion

end PolymerAnalysis.Metadata
