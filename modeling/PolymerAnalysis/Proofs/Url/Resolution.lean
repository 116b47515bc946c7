import PolymerAnalysis.Proofs.Except
import PolymerAnalysis.Proofs.Url.Path
import PolymerAnalysis.Url.Basic

namespace PolymerAnalysis

open Text

namespace Path

/-- A place seen from the root of a package: so many directories above it, and then down the directories named. -/
structure Place where
  up : Nat := 0
  down : List Text := []
deriving DecidableEq

namespace Place

/-- One segment further on: `..` leads out of the last directory, and above the root if there is none. -/
def step (p : Place) (segment : Text) : Place :=
  if segment = [] ∨ segment = "." then p
  else if segment = ".." then
    if p.down = [] then { p with up := p.up + 1 } else { p with down := p.down.dropLast }
  else { p with down := p.down ++ [segment] }

def walk (p : Place) (segments : List Text) : Place := segments.foldl step p

def names (p : Place) : List Text := List.replicate p.up (Text.ofString "..") ++ p.down

def written (p : Place) : Text := if p.names = [] then "." else Text.join "/" p.names

def Proper (p : Place) : Prop := ∀ n ∈ p.down, IsName n ∧ n ≠ ".."

end Place

end Path

/-- An address in the only form that results of a resolution have. -/
structure Url.IsCanonical (url : Text) : Prop where
  names : url = "." ∨ Path.IsNormal false (url.splitOn '/')
  no_leading : ¬startsWith url "/"
  no_trailing : ¬endsWith url "/"
  fixed : Path.normalize url = url

def Url.pathOf (reference : Text) : Text := (reference.takeWhile (· ≠ .ofChar '#')).takeWhile (· ≠ .ofChar '?')

/-- The place that a reference leads to from the document at `base`; a leading slash means the root. -/
def Url.placeOf (base reference : Text) : Path.Place :=
  let start : Path.Place :=
    if startsWith (pathOf reference) "/" then {} else Path.Place.walk {} (base.splitOn '/').dropLast
  start.walk ((pathOf reference).splitOn '/')

namespace Path

variable {p q : Place} {n t u base path : Text} {ns : List Text} {k : Nat}

namespace Place

theorem walk_append (p : Place) (ns ms : List Text) : p.walk (ns ++ ms) = (p.walk ns).walk ms := List.foldl_append

theorem proper_start : ({} : Place).Proper := fun n hn ↦ by cases hn

theorem Proper.step (h : p.Proper) (hn : .ofChar '/' ∉ n) : (p.step n).Proper := by
  rw [Place.step]
  split
  · exact h
  · next hname =>
    rw [not_or] at hname
    split
    · split
      · exact h
      · exact fun m hm ↦ h m (List.dropLast_subset _ hm)
    · next hup =>
      intro m hm
      rcases List.mem_append.1 hm with hm | hm
      · exact h m hm
      · rw [List.mem_singleton.1 hm]
        exact ⟨⟨hname.1, hname.2, hn⟩, hup⟩

theorem Proper.walk (h : p.Proper) (hns : ∀ n ∈ ns, .ofChar '/' ∉ n) : (p.walk ns).Proper := by
  induction ns generalizing p with
  | nil => exact h
  | cons n ns ih =>
    rw [List.forall_mem_cons] at hns
    exact ih (h.step hns.1) hns.2

theorem Proper.walk_splitOn (h : p.Proper) (t : Text) : (p.walk (t.splitOn '/')).Proper :=
  h.walk fun _ hn hslash ↦ not_of_mem_splitWhere hn hslash (decide_eq_true rfl)

theorem isName_up : IsName ".." := ⟨by decide, by decide, by decide⟩

theorem Proper.isNormal (h : p.Proper) : IsNormal false p.names where
  isName n hn := by
    rcases List.mem_append.1 hn with hn | hn
    · rw [List.eq_of_mem_replicate hn]
      exact isName_up
    · exact (h n hn).1
  first := by
    refine List.pairwise_append.2 ⟨?_, ?_, fun m hm n hn heq ↦ absurd heq (h n hn).2⟩
    · exact List.pairwise_replicate.2 (.inr fun _ ↦ rfl)
    · exact List.Pairwise.imp_of_mem (fun {m n} _ hn _ heq ↦ absurd heq (h n hn).2)
        (List.pairwise_of_forall fun _ _ ↦ trivial)
  below hrooted := by cases hrooted

/-- The stack of a normal form holds the names of a place. -/
theorem push_names (h : p.Proper) (n : Text) : push false p.names.reverse n = (p.step n).names.reverse := by
  by_cases hnone : n = [] ∨ n = "."
  · rw [step, if_pos hnone]
    rcases hnone with rfl | rfl
    · exact push_nil _ _
    · exact push_dot _ _
  by_cases hup : n = ".."
  · subst hup
    rw [step, if_neg hnone, if_pos rfl]
    split
    · next hdown =>
      rw [names, names, hdown, List.append_nil, List.append_nil, List.reverse_replicate, List.reverse_replicate]
      cases p.up <;> rfl
    · next hdown =>
      obtain ⟨ms, m, hm⟩ := (List.eq_nil_or_concat' p.down).resolve_left hdown
      have hne : m ≠ ".." := (h m (by simp [hm])).2
      rw [names, names, hm, List.dropLast_concat, ← List.append_assoc, List.reverse_concat, push_up_cons, if_neg hne]
  · rw [not_or] at hnone
    rw [step, if_neg (not_or.2 hnone), if_neg hup, names, names, ← List.append_assoc, List.reverse_concat]
    simp [push, hnone.1, hnone.2, hup]

theorem foldl_push_names (h : p.Proper) (hns : ∀ n ∈ ns, .ofChar '/' ∉ n) :
    ns.foldl (push false) p.names.reverse = (p.walk ns).names.reverse := by
  induction ns generalizing p with
  | nil => rfl
  | cons n ns ih =>
    rw [List.forall_mem_cons] at hns
    rw [List.foldl_cons, push_names h, ih (h.step hns.1) hns.2]
    rfl

theorem Proper.ext (hp : p.Proper) (hq : q.Proper) (h : p.names = q.names) : p = q := by
  have hup (k : Nat) : ∀ n ∈ List.replicate k (Text.ofString ".."), n = ".." := fun n hn ↦ List.eq_of_mem_replicate hn
  have hstops {p : Place} (hp : p.Proper) : Stops (· = (".." : Text)) p.down :=
    fun n hn heq ↦ (hp n (List.mem_of_mem_head? hn)).2 heq
  obtain ⟨habove, hbelow⟩ := eq_of_append_eq (hup p.up) (hstops hp) (hup q.up) (hstops hq) h
  have hcount : p.up = q.up := by simpa using congrArg List.length habove
  cases p
  cases q
  simp_all

theorem segments_eq_names (path : Text) : segments false path = (walk {} (path.splitOn '/')).names := by
  have hclean : ∀ n ∈ path.splitOn '/', .ofChar '/' ∉ n :=
    fun n hn hslash ↦ not_of_mem_splitWhere hn hslash (decide_eq_true rfl)
  have hfold := foldl_push_names proper_start hclean
  rw [segments]
  exact (congrArg List.reverse hfold).trans (List.reverse_reverse _)

theorem leadingSlashes_eq_zero (h : ¬startsWith path "/") : leadingSlashes path = 0 := by
  cases path with
  | nil => rfl
  | cons c path =>
    have hc : c ≠ .ofChar '/' := fun heq ↦ h (by rw [startsWith_slash_cons, decide_eq_true heq])
    simp [leadingSlashes, startsWith, ofString, List.isPrefixOf, hc.symm]

/-- The normal form of a path writes the place that the path leads to. -/
theorem normalize_eq_written (h : ¬startsWith path "/") : normalize path = (walk {} (path.splitOn '/')).written := by
  have hslashes := leadingSlashes_eq_zero h
  have hnames : Path.names path = (walk {} (path.splitOn '/')).names := by
    rw [Path.names, hslashes]
    exact segments_eq_names path
  rw [normalize_eq, hslashes, hnames, written]
  simp

theorem segments_written (h : p.Proper) : segments false p.written = p.names := by
  rw [written]
  split
  · next hnames =>
    rw [hnames]
    rfl
  · exact segments_join h.isNormal

theorem walk_written (h : p.Proper) : walk {} (p.written.splitOn '/') = p := by
  refine (proper_start.walk_splitOn _).ext h ?_
  rw [← segments_eq_names, segments_written h]

/-- A place is written in one way only. -/
theorem written_injective (hp : p.Proper) (hq : q.Proper) : p.written = q.written ↔ p = q := by
  refine ⟨fun h ↦ ?_, congrArg written⟩
  rw [← walk_written hp, h, walk_written hq]

theorem isCanonical_written (h : p.Proper) : Url.IsCanonical p.written := by
  have hnames : p.written = "." ∨ IsNormal false (p.written.splitOn '/') := by
    rw [written]
    split
    · exact .inl rfl
    · next hne =>
      rw [splitOn_join_names h.isNormal hne]
      exact .inr h.isNormal
  have hends {t : Text} (ht : p.written = .ofChar '/' :: t ∨ p.written = t ++ [.ofChar '/']) : False := by
    rcases hnames with hdot | hnormal
    · rw [hdot] at ht
      rcases ht with ht | ht
      · have hfirst := congrArg List.head? ht
        rw [List.head?_cons] at hfirst
        exact absurd hfirst (by decide)
      · have hlast := congrArg List.getLast? ht
        rw [List.getLast?_concat] at hlast
        exact absurd hlast (by decide)
    · refine (hnormal.isName [] ?_).ne_nil rfl
      rcases ht with ht | ht
      · rw [ht]
        have hsplit := splitOn_append_cons [] t (.ofChar '/')
        rw [List.nil_append] at hsplit
        rw [hsplit]
        exact List.mem_append_left _ (List.mem_singleton_self _)
      · rw [ht, splitOn_append_cons]
        exact List.mem_append_right _ (List.mem_singleton_self _)
  have hleading : ¬startsWith p.written "/" := by
    intro hstart
    obtain ⟨t, ht⟩ := List.isPrefixOf_iff_prefix.1 hstart
    exact hends (.inl ht.symm)
  refine ⟨hnames, hleading, fun hend ↦ ?_, ?_⟩
  · obtain ⟨t, ht⟩ := List.isSuffixOf_iff_suffix.1 hend
    exact hends (.inr ht.symm)
  · rw [normalize_eq_written hleading, walk_written h]

/-- Slashes in a row separate two paths as one does. -/
theorem walk_slashes (p : Place) (t u : Text) (k : Nat) :
    p.walk (splitOn (t ++ CodePoint.ofChar '/' :: (List.replicate k (CodePoint.ofChar '/') ++ u)) '/') =
      (p.walk (t.splitOn '/')).walk (u.splitOn '/') := by
  rw [splitOn_append_cons, walk_append]
  induction k with
  | zero => rfl
  | succ k ih =>
    have hsplit := splitOn_append_cons [] (List.replicate k (.ofChar '/') ++ u) (.ofChar '/')
    rw [List.replicate_succ, List.cons_append, ← List.nil_append (CodePoint.ofChar '/' :: _), hsplit, walk_append]
    exact ih

end Place

theorem exists_dropEndWhile (p : CodePoint → Bool) (t : Text) :
    ∃ u, t = dropEndWhile p t ++ u ∧ (∀ c ∈ u, p c) ∧ Stops (p ·) (dropEndWhile p t).reverse := by
  refine ⟨(t.reverse.takeWhile p).reverse, ?_, fun c hc ↦ ?_, ?_⟩
  · rw [dropEndWhile, ← List.reverse_append, List.takeWhile_append_dropWhile, List.reverse_reverse]
  · exact List.mem_takeWhile_imp (List.mem_reverse.1 hc)
  · rw [dropEndWhile, List.reverse_reverse]
    exact stops_dropWhile p _

theorem directory_eq (h : ∃ c ∈ dropEndWhile (· ≠ .ofChar '/') path, c ≠ .ofChar '/') :
    directory path = dropEndWhile (· = .ofChar '/') (dropEndWhile (· ≠ .ofChar '/') path) := by
  have hall : (dropEndWhile (· ≠ .ofChar '/') path).all (fun c : CodePoint ↦ c = '/') = false := by
    simpa using h
  rw [directory]
  exact if_neg (by rw [hall]; exact Bool.false_ne_true)

theorem exists_replicate_slash {t : Text} (h : ∀ c ∈ t, c = .ofChar '/') (hne : t ≠ []) :
    ∃ k, t = List.replicate k (CodePoint.ofChar '/') ++ [.ofChar '/'] := by
  obtain ⟨k, hk⟩ := Nat.exists_eq_succ_of_ne_zero (mt List.length_eq_zero_iff.1 hne)
  refine ⟨k, ?_⟩
  rw [← List.replicate_succ', ← Nat.succ_eq_add_one, ← hk]
  exact List.eq_replicate_of_mem h

/-- A relative path is a name, or its directory with slashes and a name behind it. -/
theorem directory_cases (h : ¬startsWith base "/") :
    directory base = [] ∧ .ofChar '/' ∉ base ∨
      directory base ≠ [] ∧ ¬startsWith (directory base) "/" ∧ ¬endsWith (directory base) "/" ∧
        ∃ k name, .ofChar '/' ∉ name ∧
          base = directory base ++ (List.replicate k (CodePoint.ofChar '/') ++ .ofChar '/' :: name) := by
  obtain ⟨name, hbase, hname, hhead⟩ := exists_dropEndWhile (· ≠ .ofChar '/') base
  have hname : .ofChar '/' ∉ name := fun hslash ↦ of_decide_eq_true (hname _ hslash) rfl
  set head := dropEndWhile (· ≠ .ofChar '/') base with hdef
  cases hempty : head with
  | nil =>
    left
    rw [hempty, List.nil_append] at hbase
    refine ⟨?_, hbase ▸ hname⟩
    rw [directory, ← hdef, hempty]
    rfl
  | cons c rest =>
    right
    have hc : c ≠ .ofChar '/' := by
      rintro rfl
      exact h (by rw [hbase, hempty]; rfl)
    have hdirectory : directory base = dropEndWhile (· = .ofChar '/') head :=
      directory_eq ⟨c, by rw [← hdef, hempty]; exact List.mem_cons_self, hc⟩
    obtain ⟨slashes, hsplit, hslashes, hstops⟩ := exists_dropEndWhile (· = .ofChar '/') head
    simp only [← hdirectory, decide_eq_true_eq] at hsplit hslashes hstops
    have hfirst : directory base ++ slashes = c :: rest := hsplit.symm.trans hempty
    have hne : directory base ≠ [] := by
      intro hnil
      rw [hnil, List.nil_append] at hfirst
      exact hc (hslashes c (hfirst ▸ List.mem_cons_self))
    have hstart : ¬startsWith (directory base) "/" := by
      refine not_startsWith_slash (Stops.of_append (y := slashes) ?_)
      rw [hfirst]
      exact stops_cons hc
    have hlast : slashes ≠ [] := by
      rintro rfl
      rw [List.append_nil] at hsplit
      obtain ⟨l, ls, hl⟩ := List.exists_cons_of_ne_nil (mt List.reverse_eq_nil_iff.1 hne)
      rw [hsplit, hl] at hhead
      rw [hl] at hstops
      exact hhead l rfl (decide_eq_true (hstops l rfl))
    obtain ⟨k, hreplicate⟩ := exists_replicate_slash hslashes hlast
    refine ⟨hne, hstart, not_endsWith_slash hstops, k, name, hname, ?_⟩
    calc base = directory base ++ slashes ++ name := by rw [← hsplit]; exact hbase
      _ = directory base ++ (List.replicate k (CodePoint.ofChar '/') ++ .ofChar '/' :: name) := by
        rw [hreplicate, List.append_assoc, List.append_assoc]
        rfl

/-- To join a path to the directory of a document is to go on from there. -/
theorem walk_join (hbase : ¬startsWith base "/") (hpath : ¬startsWith path "/") :
    ¬startsWith (join (directory base) path) "/" ∧
      Place.walk {} (splitOn (join (directory base) path) '/') =
        (Place.walk {} (splitOn base '/').dropLast).walk (splitOn path '/') := by
  rcases directory_cases hbase with ⟨hdirectory, hname⟩ | ⟨hne, hstart, hend, k, name, hname, heq⟩
  · have hjoin : join (directory base) path = path := by
      rw [join, if_neg hpath, hdirectory]
      rfl
    rw [hjoin, splitOn_of_not_mem hname]
    exact ⟨hpath, rfl⟩
  · have hjoin : join (directory base) path = directory base ++ .ofChar '/' :: path := by
      rw [join, if_neg hpath, if_neg (by simpa [hne] using hend), List.append_assoc]
      rfl
    refine ⟨?_, ?_⟩
    · obtain ⟨d, ds, hd⟩ := List.exists_cons_of_ne_nil hne
      rw [hjoin, hd]
      rw [hd] at hstart
      exact hstart
    · have hsplit : splitOn base '/' =
          splitOn (directory base ++ List.replicate k (CodePoint.ofChar '/')) '/' ++ [name] := by
        conv_lhs => rw [heq]
        rw [← List.append_assoc, splitOn_append_cons, splitOn_of_not_mem hname]
      have hslashes : Place.walk {} (splitOn (directory base ++ List.replicate k (CodePoint.ofChar '/')) '/') =
          Place.walk {} (splitOn (directory base) '/') := by
        cases k with
        | zero => rw [List.replicate_zero, List.append_nil]
        | succ k =>
          have hrow := Place.walk_slashes {} (directory base) [] k
          rw [List.append_nil] at hrow
          exact hrow
      rw [hjoin, splitOn_append_cons, Place.walk_append, hsplit, List.dropLast_concat, hslashes]

end Path

namespace Url

variable {base base' reference reference' : Text}

theorem resolve_of_external (h : isExternal reference = .ok true) : resolve base reference = .ok reference := by
  rw [resolve, h]
  rfl

/-- Slashes before a path make it start at the root. -/
theorem walk_rooted {path : Text} (h : startsWith path "/") :
    ¬startsWith (path.dropWhile fun c : CodePoint ↦ c = '/') "/" ∧
      Path.Place.walk {} (splitOn (path.dropWhile fun c : CodePoint ↦ c = '/') '/') =
        Path.Place.walk {} (path.splitOn '/') := by
  set rest : Text := path.dropWhile fun c : CodePoint ↦ c = '/' with hrest
  have hsplit : path = (path.takeWhile fun c : CodePoint ↦ c = '/') ++ rest := List.takeWhile_append_dropWhile.symm
  set slashes : Text := path.takeWhile fun c : CodePoint ↦ c = '/' with hdef
  have hslashes : slashes = List.replicate slashes.length (CodePoint.ofChar '/') :=
    List.eq_replicate_of_mem fun c hc ↦ of_decide_eq_true (List.mem_takeWhile_imp (p := fun c : CodePoint ↦ c = '/') hc)
  have hstops : Stops (fun c : CodePoint ↦ decide (c = .ofChar '/')) rest := stops_dropWhile _ path
  have hstart : ¬startsWith rest "/" := Path.not_startsWith_slash (by simpa only [decide_eq_true_eq] using hstops)
  refine ⟨hstart, ?_⟩
  cases hlength : slashes.length with
  | zero =>
    rw [List.length_eq_zero_iff.1 hlength, List.nil_append] at hsplit
    exact absurd (hsplit ▸ h) hstart
  | succ k =>
    rw [hlength, List.replicate_succ] at hslashes
    rw [hsplit, hslashes, List.cons_append]
    exact (Path.Place.walk_slashes {} [] rest k).symm

theorem resolve_of_inside (base : Text) (h : isExternal reference = .ok false) :
    resolve base reference = .ok (Path.normalize
      (if startsWith (pathOf reference) "/" then (pathOf reference).dropWhile (fun c : CodePoint ↦ c = '/')
        else Path.join (Path.directory base) (pathOf reference))) := by
  rw [resolve, h]
  rfl

theorem resolve_eq_written (hbase : ¬startsWith base "/") (h : isExternal reference = .ok false) :
    resolve base reference = .ok (placeOf base reference).written := by
  rw [resolve_of_inside base h, placeOf]
  split
  · next hrooted =>
    obtain ⟨hstart, hwalk⟩ := walk_rooted hrooted
    rw [Path.Place.normalize_eq_written hstart, hwalk]
  · next hrelative =>
    obtain ⟨hstart, hwalk⟩ := Path.walk_join hbase hrelative
    rw [Path.Place.normalize_eq_written hstart, hwalk]

theorem proper_placeOf (base reference : Text) : (placeOf base reference).Proper := by
  rw [placeOf]
  refine Path.Place.Proper.walk_splitOn ?_ _
  split
  · exact Path.Place.proper_start
  · refine Path.Place.proper_start.walk fun n hn hslash ↦ ?_
    exact not_of_mem_splitWhere (List.dropLast_subset _ hn) hslash (decide_eq_true rfl)

/-- Two references resolve to one address just if they lead to one place. -/
theorem resolve_eq_iff (hbase : ¬startsWith base "/") (hbase' : ¬startsWith base' "/")
    (h : isExternal reference = .ok false) (h' : isExternal reference' = .ok false) :
    resolve base reference = resolve base' reference' ↔ placeOf base reference = placeOf base' reference' := by
  rw [resolve_eq_written hbase h, resolve_eq_written hbase' h', Except.ok.injEq,
    Path.Place.written_injective (proper_placeOf base reference) (proper_placeOf base' reference')]

end Url

end PolymerAnalysis
