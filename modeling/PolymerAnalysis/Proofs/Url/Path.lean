import PolymerAnalysis.Proofs.Text.Lines
import PolymerAnalysis.Url.Path
import Mathlib.Data.List.Induction

namespace PolymerAnalysis.Path

open Text

variable {rooted : Bool} {n package file path t u : Text} {ns stack rest : List Text} {c : CodePoint}

def names (path : Text) : List Text := segments (leadingSlashes path ≠ 0) path

structure IsName (n : Text) : Prop where
  ne_nil : n ≠ []
  ne_dot : n ≠ "."
  no_slash : .ofChar '/' ∉ n

/-- The names of a normal form: `..` comes before all others, and never below a root. -/
structure IsNormal (rooted : Bool) (ns : List Text) : Prop where
  isName : ∀ n ∈ ns, IsName n
  first : ns.Pairwise fun (m n : Text) ↦ n = ".." → m = ".."
  below : rooted = true → (".." : Text) ∉ ns

theorem isNormal_nil (rooted : Bool) : IsNormal rooted [] where
  isName n hn := by cases hn
  first := .nil
  below _ hn := by cases hn

theorem isNormal_concat_iff : IsNormal rooted (ns ++ [n]) ↔
    IsNormal rooted ns ∧ IsName n ∧ (n = ".." → rooted = false ∧ ∀ m ∈ ns, m = "..") := by
  constructor
  · intro h
    have hfirst := List.pairwise_append.1 h.first
    refine ⟨⟨fun m hm ↦ h.isName m (List.mem_append_left _ hm), hfirst.1,
      fun hr hup ↦ h.below hr (List.mem_append_left _ hup)⟩, h.isName n (by simp), fun hn ↦ ⟨?_, fun m hm ↦ ?_⟩⟩
    · by_contra hr
      exact h.below (by simpa using hr) (by simp [hn])
    · exact hfirst.2.2 m hm n (by simp) hn
  · rintro ⟨h, hn, hup⟩
    refine ⟨?_, List.pairwise_append.2 ⟨h.first, List.pairwise_singleton _ _, ?_⟩, ?_⟩
    · simpa [or_imp, forall_and] using ⟨h.isName, hn⟩
    · intro m hm k hk heq
      rw [List.mem_singleton.1 hk] at heq
      exact (hup heq).2 m hm
    · intro hr hmem
      rcases List.mem_append.1 hmem with hmem | hmem
      · exact h.below hr hmem
      · have hrooted := (hup (List.mem_singleton.1 hmem).symm).1
        rw [hr] at hrooted
        cases hrooted

theorem push_nil (rooted : Bool) (stack : List Text) : push rooted stack [] = stack := by simp [push]

theorem push_dot (rooted : Bool) (stack : List Text) : push rooted stack "." = stack := by simp [push]

theorem push_of_ne (hn : IsName n) (hup : n ≠ "..") : push rooted stack n = n :: stack := by
  simp [push, hn.ne_nil, hn.ne_dot, hup]

/-- A name that continues a normal form comes onto the stack. -/
theorem push_of_isNormal (h : IsNormal rooted (stack.reverse ++ [n])) : push rooted stack n = n :: stack := by
  obtain ⟨-, hn, hup⟩ := isNormal_concat_iff.1 h
  by_cases heq : n = ".."
  · obtain ⟨hrooted, hstack⟩ := hup heq
    subst heq hrooted
    cases stack with
    | nil => rfl
    | cons top stack =>
      have htop : top = ".." := hstack top (by simp)
      subst htop
      rfl
  · exact push_of_ne hn heq

theorem push_up_nil (rooted : Bool) : push rooted [] ".." = if rooted then [] else [(".." : Text)] := rfl

theorem push_up_cons (top : Text) (stack : List Text) :
    push rooted (top :: stack) ".." = if top = ".." then (".." : Text) :: top :: stack else stack := rfl

theorem isNormal_push (h : IsNormal rooted stack.reverse) (hn : .ofChar '/' ∉ n) :
    IsNormal rooted (push rooted stack n).reverse := by
  by_cases hnil : n = []
  · rwa [hnil, push_nil]
  by_cases hdot : n = "."
  · rwa [hdot, push_dot]
  have hname : IsName n := ⟨hnil, hdot, hn⟩
  by_cases hup : n = ".."
  · subst hup
    cases stack with
    | nil =>
      rw [push_up_nil]
      split
      · exact h
      · next hrooted =>
        exact isNormal_concat_iff.2 ⟨isNormal_nil _, hname, fun _ ↦ ⟨by simpa using hrooted, fun _ hm ↦ by cases hm⟩⟩
    | cons top stack =>
      have hparts := isNormal_concat_iff.1 (by simpa using h : IsNormal rooted (stack.reverse ++ [top]))
      rw [push_up_cons]
      split
      · next htop =>
        rw [List.reverse_cons]
        refine isNormal_concat_iff.2 ⟨h, hname, fun _ ↦ ⟨(hparts.2.2 htop).1, ?_⟩⟩
        simpa [htop, or_imp, forall_and] using (hparts.2.2 htop).2
      · exact hparts.1
  · rw [push_of_ne hname hup, List.reverse_cons]
    exact isNormal_concat_iff.2 ⟨h, hname, fun heq ↦ absurd heq hup⟩

theorem isNormal_foldl_push (h : IsNormal rooted stack.reverse) (hns : ∀ n ∈ ns, .ofChar '/' ∉ n) :
    IsNormal rooted (ns.foldl (push rooted) stack).reverse := by
  induction ns generalizing stack with
  | nil => exact h
  | cons n ns ih =>
    rw [List.forall_mem_cons] at hns
    exact ih (isNormal_push h hns.1) hns.2

theorem isNormal_segments (rooted : Bool) (path : Text) : IsNormal rooted (segments rooted path) := by
  refine isNormal_foldl_push (isNormal_nil rooted) fun n hn hslash ↦ ?_
  exact not_of_mem_splitWhere hn hslash (decide_eq_true rfl)

theorem isNormal_names (path : Text) : IsNormal (leadingSlashes path ≠ 0) (names path) := isNormal_segments _ path

theorem foldl_push_of_isNormal (h : IsNormal rooted (stack.reverse ++ ns)) :
    ns.foldl (push rooted) stack = ns.reverse ++ stack := by
  induction ns using List.reverseRecOn with
  | nil => rfl
  | append_singleton ns n ih =>
    rw [← List.append_assoc] at h
    have hns := ih (isNormal_concat_iff.1 h).1
    rw [List.foldl_append, hns, List.reverse_concat, List.cons_append, List.foldl_cons, List.foldl_nil]
    exact push_of_isNormal (by simpa using h)

section Writing

/-- Leading slashes are no names. -/
theorem segments_slashes_append (rooted : Bool) (k : Nat) (t : Text) :
    segments rooted (List.replicate k (.ofChar '/') ++ t) = segments rooted t := by
  induction k with
  | zero => rfl
  | succ k ih =>
    rw [← ih, List.replicate_succ, List.cons_append]
    have hsplit := splitOn_append_cons [] (List.replicate k (.ofChar '/') ++ t) (.ofChar '/')
    rw [List.nil_append] at hsplit
    rw [segments, hsplit, List.foldl_append, segments]
    rfl

theorem segments_join (h : IsNormal rooted ns) : segments rooted (Text.join "/" ns) = ns := by
  cases ns with
  | nil => rfl
  | cons n ns =>
    have hsplit : splitOn (Text.join "/" (n :: ns)) '/' = n :: ns :=
      splitOn_join (List.cons_ne_nil n ns) fun m hm ↦ (h.isName m hm).no_slash
    rw [segments, hsplit, foldl_push_of_isNormal (by simpa using h), List.append_nil, List.reverse_reverse]

theorem join_names_eq_nil_iff (h : IsNormal rooted ns) : Text.join "/" ns = [] ↔ ns = [] := by
  constructor
  · intro hjoin
    by_contra hne
    exact join_ne_nil hne (fun n hn ↦ (h.isName n hn).ne_nil) hjoin
  · rintro rfl
    rfl

/-- A normal form begins with its slashes and goes on with its names. -/
theorem normalize_eq (path : Text) : normalize path =
    if leadingSlashes path = 0 ∧ names path = [] then ("." : Text)
    else List.replicate (leadingSlashes path) (CodePoint.ofChar '/') ++ Text.join "/" (names path) := by
  set body : Text := List.replicate (leadingSlashes path) (.ofChar '/') ++ Text.join "/" (names path) with hbody
  have hempty : body.isEmpty = true ↔ leadingSlashes path = 0 ∧ names path = [] := by
    rw [List.isEmpty_iff, hbody, List.append_eq_nil_iff, List.replicate_eq_nil_iff,
      join_names_eq_nil_iff (isNormal_names path)]
  exact if_congr hempty rfl rfl

theorem stops_join_names (h : IsNormal rooted ns) (t : Text) (hne : ns ≠ []) :
    Stops (· = .ofChar '/') (Text.join "/" ns ++ t) := by
  obtain ⟨n, ns, rfl⟩ := List.exists_cons_of_ne_nil hne
  have hn := h.isName n List.mem_cons_self
  rw [join_cons_eq_flatMap, List.append_assoc]
  refine stops_append (stops_of_forall fun c hc heq ↦ hn.no_slash (heq ▸ hc)) fun hnil ↦ absurd hnil hn.ne_nil

theorem leadingSlashes_le (path : Text) : leadingSlashes path ≤ 2 := by
  rw [leadingSlashes]
  split
  · exact le_refl 2
  · split <;> decide

theorem startsWith_slash_cons (c : CodePoint) (t : Text) : startsWith (c :: t) "/" = decide (c = .ofChar '/') := by
  simp [startsWith, ofString, List.isPrefixOf, eq_comm, Bool.beq_eq_decide_eq]

theorem not_startsWith_slash {t : Text} (h : Stops (· = .ofChar '/') t) : ¬startsWith t "/" := by
  cases t with
  | nil => exact Bool.false_ne_true
  | cons c t =>
    rw [startsWith_slash_cons, decide_eq_true_iff]
    exact h c rfl

theorem not_endsWith_slash {t : Text} (h : Stops (· = .ofChar '/') t.reverse) : ¬endsWith t "/" := by
  intro hend
  obtain ⟨u, hu⟩ := List.isSuffixOf_iff_suffix.1 hend
  refine h (.ofChar '/') ?_ rfl
  rw [← hu, List.reverse_append]
  rfl

theorem startsWith_normalize (path : Text) :
    startsWith (normalize path) "/" = decide (leadingSlashes path ≠ 0) := by
  rw [normalize_eq]
  split
  · next h =>
    rw [h.1]
    rfl
  · next h =>
    by_cases hslashes : leadingSlashes path = 0
    · have hstops := stops_join_names (isNormal_names path) [] fun hnil ↦ h ⟨hslashes, hnil⟩
      rw [List.append_nil] at hstops
      rw [hslashes]
      exact Bool.eq_false_iff.2 (not_startsWith_slash hstops)
    · obtain ⟨k, hk⟩ := Nat.exists_eq_succ_of_ne_zero hslashes
      rw [hk]
      rfl

theorem segments_normalize (path : Text) :
    segments (startsWith (normalize path) "/") (normalize path) = names path := by
  rw [startsWith_normalize, normalize_eq]
  split
  · next h =>
    rw [h.1, h.2]
    rfl
  · rw [segments_slashes_append, segments_join (isNormal_names path)]

theorem splitOn_join_names (h : IsNormal rooted ns) (hne : ns ≠ []) : splitOn (Text.join "/" ns) '/' = ns :=
  splitOn_join hne fun n hn ↦ (h.isName n hn).no_slash

/-- A normal form with names is another one's beginning, up to a slash, just if the slashes agree and the names go on. -/
theorem normalize_eq_append_iff (hnames : names package ≠ []) (u : Text) :
    normalize file = normalize package ++ .ofChar '/' :: u ↔
      leadingSlashes file = leadingSlashes package ∧ names file = names package ++ splitOn u '/' := by
  have hpackage : normalize package =
      List.replicate (leadingSlashes package) (CodePoint.ofChar '/') ++ Text.join "/" (names package) := by
    rw [normalize_eq, if_neg fun h ↦ hnames h.2]
  have hslash (k : Nat) : ∀ c ∈ List.replicate k (CodePoint.ofChar '/'), c = .ofChar '/' :=
    fun c hc ↦ List.eq_of_mem_replicate hc
  rw [hpackage, List.append_assoc]
  constructor
  · intro h
    rw [normalize_eq] at h
    split at h
    · have hlength := congrArg List.length h
      have hpos := List.length_pos_iff.2 fun heq ↦ hnames ((join_names_eq_nil_iff (isNormal_names package)).1 heq)
      have hdot : ("." : Text).length = 1 := rfl
      rw [hdot, List.length_append, List.length_append, List.length_cons] at hlength
      omega
    · have hstops : Stops (· = .ofChar '/') (Text.join "/" (names file)) := by
        by_cases hnil : names file = []
        · rw [hnil]
          exact stops_nil _
        · simpa using stops_join_names (isNormal_names file) [] hnil
      obtain ⟨hslashes, hjoin⟩ := eq_of_append_eq (hslash _) hstops (hslash _)
        (stops_join_names (isNormal_names package) (.ofChar '/' :: u) hnames) h
      have hfile : names file ≠ [] := fun hnil ↦ by simp [hnil, Text.join] at hjoin
      refine ⟨by simpa using congrArg List.length hslashes, ?_⟩
      rw [← splitOn_join_names (isNormal_names file) hfile, hjoin, splitOn_append_cons,
        splitOn_join_names (isNormal_names package) hnames]
  · rintro ⟨hslashes, hfile⟩
    have hne : splitOn u '/' ≠ [] := splitWhere_ne_nil _ u
    have hjoin : Text.join "/" (splitOn u '/') = u := join_splitOn u '/'
    rw [normalize_eq, if_neg (by simp [hfile, hnames]), hslashes, hfile, join_append _ hnames hne, hjoin,
      List.append_assoc]
    rfl

theorem splitOn_normalize (h : names path ≠ []) :
    splitOn (normalize path) '/' = List.replicate (leadingSlashes path) [] ++ names path := by
  rw [normalize_eq, if_neg fun heq ↦ h heq.2]
  induction leadingSlashes path with
  | zero => exact splitOn_join_names (isNormal_names path) h
  | succ k ih =>
    have hcons := splitOn_append_cons [] (List.replicate k (.ofChar '/') ++ Text.join "/" (names path)) (.ofChar '/')
    rw [ih] at hcons
    exact hcons

theorem climbs_append (h : ∃ n ∈ ns, n ≠ "..") (rest : List Text) :
    climbs (ns ++ rest) = ((climbs ns).1, (climbs ns).2 ++ rest) := by
  obtain ⟨n, hn, hup⟩ := h
  induction ns with
  | nil => cases hn
  | cons m ns ih =>
    by_cases hm : m = ".."
    · have hrest := ih ((List.mem_cons.1 hn).resolve_left fun heq ↦ hup (heq.trans hm))
      simpa [climbs, hm] using hrest
    · simp [climbs, hm]

theorem dropCommon_append (ns rest : List Text) : dropCommon ns (ns ++ rest) = ([], rest) := by
  induction ns with
  | nil => rfl
  | cons n ns ih => rw [List.cons_append, dropCommon, if_pos rfl, ih]

/-- The way on from a normal form that begins another one. -/
theorem relativeTo_of_append (h : ∃ n ∈ names package, n ≠ "..") (hfile : names file = names package ++ rest)
    (hrest : rest ≠ []) : relativeTo (normalize package) (normalize file) = Text.join "/" rest := by
  rw [relativeTo]
  simp [segments_normalize, hfile, climbs_append h, dropCommon_append, hrest]

end Writing

section Spelling

theorem exists_ne_slash (h : names path ≠ []) : ∃ c ∈ path, c ≠ .ofChar '/' := by
  by_contra hall
  push Not at hall
  apply h
  have hslashes := segments_slashes_append (leadingSlashes path ≠ 0) path.length []
  rw [List.append_nil, ← List.eq_replicate_of_mem hall] at hslashes
  exact hslashes

theorem leadingSlashes_append (h : ∃ c ∈ path, c ≠ .ofChar '/') (t : Text) :
    leadingSlashes (path ++ t) = leadingSlashes path := by
  rcases path with _ | ⟨a, _ | ⟨b, _ | ⟨c, path⟩⟩⟩
  · simp at h
  · simp [leadingSlashes, startsWith, ofString, List.isPrefixOf] at h ⊢
    exact fun heq ↦ absurd heq.symm h
  · simp [leadingSlashes, startsWith, ofString, List.isPrefixOf] at h ⊢
    grind
  · simp [leadingSlashes, startsWith, ofString, List.isPrefixOf]

/-- A slash behind a path makes no difference, unless it has no name. -/
theorem normalize_concat_slash (h : names path ≠ []) : normalize (path ++ "/") = normalize path := by
  have hslashes := leadingSlashes_append (exists_ne_slash h) "/"
  have hsegments (rooted : Bool) : segments rooted (path ++ "/") = segments rooted path := by
    have hsplit : splitOn (path ++ "/") '/' = splitOn path '/' ++ [[]] := splitOn_append_cons path [] (.ofChar '/')
    rw [segments, hsplit, List.foldl_append, List.foldl_cons, List.foldl_nil, push_nil, segments]
  simp only [normalize, hslashes, hsegments]

theorem normalize_dot_append (h : leadingSlashes path = 0) : normalize ("./" ++ path) = normalize path := by
  have hslashes : leadingSlashes ("./" ++ path) = 0 := rfl
  have hsegments (rooted : Bool) : segments rooted ("./" ++ path) = segments rooted path := by
    have hsplit : splitOn ("./" ++ path) '/' = (".": Text) :: splitOn path '/' := splitOn_append_cons "." path (.ofChar '/')
    rw [segments, hsplit, List.foldl_cons, push_dot, segments]
  simp only [normalize, hslashes, h, hsegments]

end Spelling

end PolymerAnalysis.Path
