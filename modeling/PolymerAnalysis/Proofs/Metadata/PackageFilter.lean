import PolymerAnalysis.Metadata.Generation
import PolymerAnalysis.Proofs.Url.Path

namespace PolymerAnalysis.Metadata

open PolymerAnalysis.Path Text

variable {package file : Text} {rest : List Text}

def IsNamed (path : Text) : Prop := ∃ n ∈ Path.names path, n ≠ ".."

/-- The file lies below the directory, at the end of the way `rest`. -/
structure IsBelow (directory file : Text) (rest : List Text) : Prop where
  slashes : leadingSlashes file = leadingSlashes directory
  segments : Path.names file = Path.names directory ++ rest
  ne_nil : rest ≠ []

def IsOwn (way : List Text) : Prop := ∀ d ∈ way.dropLast, d ∉ externalDirectories

theorem all_iff_isOwn (way : List Text) : way.dropLast.all (!isAmong · externalDirectories) = true ↔ IsOwn way := by
  simp [IsOwn, ← isAmong_iff]

instance (way : List Text) : Decidable (IsOwn way) := decidable_of_iff _ (all_iff_isOwn way)

theorem IsNamed.names_ne_nil (h : IsNamed package) : Path.names package ≠ [] := by
  obtain ⟨n, hn, -⟩ := h
  exact List.ne_nil_of_mem hn

theorem IsNamed.ne_nil (h : IsNamed package) : package ≠ [] := by
  rintro rfl
  exact h.names_ne_nil rfl

/-- The way on from a directory with a name never leads up. -/
theorem IsBelow.up_not_mem (h : IsBelow package file rest) (hnamed : IsNamed package) : (".." : Text) ∉ rest := by
  intro hup
  obtain ⟨n, hn, hne⟩ := hnamed
  have hfirst := (isNormal_names file).first
  rw [h.segments, List.pairwise_append] at hfirst
  exact hne (hfirst.2.2 n hn _ hup rfl)

theorem IsBelow.no_slash (h : IsBelow package file rest) {n : Text} (hn : n ∈ rest) : .ofChar '/' ∉ n := by
  refine ((isNormal_names file).isName n ?_).no_slash
  rw [h.segments]
  exact List.mem_append_right _ hn

/-- The package is a piece in front of the file's path, and a way is left. -/
theorem isBelow_iff (h : Path.names package ≠ []) : IsBelow package file rest ↔
    ∃ u, normalize file = normalize package ++ .ofChar '/' :: u ∧ splitOn u '/' = rest := by
  constructor
  · intro hbelow
    have hsplit : splitOn (Text.join "/" rest) '/' = rest := splitOn_join hbelow.ne_nil fun n ↦ hbelow.no_slash
    refine ⟨Text.join "/" rest, ?_, hsplit⟩
    apply (normalize_eq_append_iff h _).2
    exact ⟨hbelow.slashes, by rw [hsplit, hbelow.segments]⟩
  · rintro ⟨u, hfile, rfl⟩
    obtain ⟨hslashes, hnames⟩ := (normalize_eq_append_iff h u).1 hfile
    exact ⟨hslashes, hnames, splitWhere_ne_nil _ u⟩

theorem inPackage_iff (h : IsNamed package) :
    inPackage package file = true ↔ ∃ rest, IsBelow package file rest ∧ IsOwn rest := by
  have htop : (if package.isEmpty then [] else normalize package ++ ("/" : Text)) = normalize package ++ ("/" : Text) :=
    if_neg (by simpa using h.ne_nil)
  simp only [inPackage, htop, Bool.and_eq_true, startsWith, List.isPrefixOf_iff_prefix, all_iff_isOwn]
  constructor
  · rintro ⟨⟨u, hu⟩, hown⟩
    rw [← hu, List.drop_left] at hown
    refine ⟨splitOn u '/', (isBelow_iff h.names_ne_nil).2 ⟨u, ?_, rfl⟩, hown⟩
    rw [← hu, List.append_assoc]
    rfl
  · rintro ⟨rest, hbelow, hown⟩
    obtain ⟨u, hu, rfl⟩ := (isBelow_iff h.names_ne_nil).1 hbelow
    have happend : normalize file = normalize package ++ ("/" : Text) ++ u := by
      rw [hu, List.append_assoc]
      rfl
    rw [happend, List.drop_left]
    exact ⟨List.prefix_append _ _, hown⟩

theorem isOwn_replicate_append (k : Nat) (h : rest ≠ []) : IsOwn (List.replicate k [] ++ rest) ↔ IsOwn rest := by
  have hnil : ([] : Text) ∉ externalDirectories := by decide
  simp only [IsOwn, List.dropLast_append_of_ne_nil h, List.mem_append]
  exact ⟨fun hown d hd ↦ hown d (.inr hd), fun hown d hd ↦
    hd.elim (fun hd ↦ List.eq_of_mem_replicate hd ▸ hnil) (hown d)⟩

theorem inPackage_nil_iff : inPackage [] file = true ↔ IsOwn (Path.names file) := by
  have hown : inPackage [] file = true ↔ IsOwn (splitOn (normalize file) '/') := by
    rw [← all_iff_isOwn]
    rfl
  rw [hown]
  by_cases hnames : Path.names file = []
  · have hle := leadingSlashes_le file
    obtain hslashes | hslashes | hslashes :
        leadingSlashes file = 0 ∨ leadingSlashes file = 1 ∨ leadingSlashes file = 2 := by omega
    all_goals
      rw [normalize_eq, hnames, hslashes]
      decide
  · rw [splitOn_normalize hnames, isOwn_replicate_append _ hnames]

theorem relativePath_eq (h : IsNamed package) (hbelow : IsBelow package file rest) :
    relativePath package file = Text.join "/" rest := by
  rw [relativePath, if_neg (by simpa using h.ne_nil)]
  exact relativeTo_of_append h hbelow.segments hbelow.ne_nil

/-- A package whose path names a directory has just the files below it that are in no other package, however the path is
spelled, and lists them under the way that leads there. Without a path a package has all files that are in no other
package, and lists them under their normal forms. -/
theorem files_of_package (file : Text) :
    (∀ package, IsNamed package →
      (inPackage package file = true ↔ ∃ rest, IsBelow package file rest ∧ IsOwn rest) ∧
      (∀ rest, IsBelow package file rest → relativePath package file = Text.join "/" rest ∧ (".." : Text) ∉ rest) ∧
      normalize (package ++ "/") = normalize package ∧
      (leadingSlashes package = 0 → normalize ("./" ++ package) = normalize package) ∧
      ∀ spelled, spelled ≠ [] → normalize spelled = normalize package →
        inPackage spelled file = inPackage package file ∧ relativePath spelled file = relativePath package file) ∧
      (inPackage [] file = true ↔ IsOwn (Path.names file)) ∧ relativePath [] file = normalize file := by
  refine ⟨fun package h ↦ ⟨inPackage_iff h, fun rest hbelow ↦ ⟨relativePath_eq h hbelow, hbelow.up_not_mem h⟩,
    normalize_concat_slash h.names_ne_nil, normalize_dot_append, fun spelled hspelled heq ↦ ?_⟩, inPackage_nil_iff, rfl⟩
  have hempty : spelled.isEmpty = package.isEmpty := by
    rw [List.isEmpty_eq_false_iff.2 hspelled, List.isEmpty_eq_false_iff.2 h.ne_nil]
  simp only [inPackage, relativePath, hempty, heq, and_self]

theorem spelled_package : inPackage "./pkg/" "pkg//sub/../a.js" = true ∧
    relativePath "./pkg/" "pkg//sub/../a.js" = "a.js" := by
  have hnamed : IsNamed "./pkg/" := ⟨"pkg", by decide, by decide⟩
  have hbelow : IsBelow "./pkg/" "pkg//sub/../a.js" ["a.js"] := ⟨by decide, by decide, by decide⟩
  obtain ⟨haccepted, hway, -⟩ := (files_of_package "pkg//sub/../a.js").1 "./pkg/" hnamed
  exact ⟨haccepted.2 ⟨_, hbelow, by decide⟩, (hway _ hbelow).1⟩

/-- Without a path a package has a file outside the root, and the root under its own name has no file. -/
theorem root_unlike_no_path :
    inPackage [] "../x.js" = true ∧ (∀ rest, IsBelow [] "../x.js" rest → (".." : Text) ∈ rest) ∧
      inPackage "." "x.js" = false ∧ IsBelow "." "x.js" ["x.js"] ∧ IsOwn ["x.js"] := by
  refine ⟨by decide, fun rest h ↦ ?_, by decide, ⟨by decide, by decide, by decide⟩, by decide⟩
  have hnames : Path.names "../x.js" = [("..": Text), "x.js"] := by decide
  have hway : [("..": Text), "x.js"] = rest := hnames.symm.trans h.segments
  rw [← hway]
  exact List.mem_cons_self

end PolymerAnalysis.Metadata
