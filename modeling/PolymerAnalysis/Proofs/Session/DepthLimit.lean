import PolymerAnalysis.Proofs.Session.Analyses
import PolymerAnalysis.Proofs.Session.Pages

namespace PolymerAnalysis.Session

open Relation

variable {env : Environment} {s : Session} {u v : Text} {i j : DocId} {file : ScannedFile}

def FullyLinked (env : Environment) (s : Session) (u : Text) : Prop :=
  ∃ i file, s.cached? u = some i ∧ env.scanFile u = .ok file ∧
    (s.graph.importsOf i).map s.graph.url = file.links.filterMap env.target?

theorem Whole.fullyLinked (h : Whole env s u) (hs : s.Coherent) : FullyLinked env s u := by
  obtain ⟨i, file, h⟩ := h
  exact ⟨i, file, h.cached, h.scanned, h.urls_importsOf hs⟩

theorem Bare.importsOf_eq (h : Bare env s u) (hu : s.cached? u = some i) : s.graph.importsOf i = [] := by
  obtain ⟨i', file, h⟩ := h
  cases hu.symm.trans h.cached
  exact List.map_eq_nil_iff.1 h.map_importsOf

theorem FullyLinked.exists_import (h : FullyLinked env s u) (hs : s.Coherent) (hu : s.cached? u = some i)
    (hlink : env.Links u v) : ∃ j, s.graph.Imports i j ∧ s.cached? v = some j := by
  obtain ⟨i', file, hi, hscan, hurls⟩ := h
  cases hu.symm.trans hi
  rw [Environment.links_iff hscan, ← hurls] at hlink
  obtain ⟨j, hj, rfl⟩ := List.mem_map.1 hlink
  exact ⟨j, hs.imports_iff.2 hj, hs.linked hu hj⟩

theorem fullyLinked_of_imports (hs : s.Coherent) (hleft : ∀ {u i}, s.cached? u = some i → Whole env s u ∨ Bare env s u)
    (hu : s.cached? u = some i) (hj : s.graph.Imports i j) : FullyLinked env s u ∧ env.Links u (s.graph.url j) := by
  have hj := hs.imports_iff.1 hj
  rcases hleft hu with hwhole | hbare
  · refine ⟨hwhole.fullyLinked hs, ?_⟩
    obtain ⟨i', file, h⟩ := hwhole
    cases hu.symm.trans h.cached
    obtain ⟨l, hl, ho, hcached⟩ := h.mem_importsOf_iff.1 hj
    exact ⟨file, h.scanned, l, hl, ho, (hs.placed hcached).2.1.symm⟩
  · rw [hbare.importsOf_eq hu] at hj
    cases hj

theorem reaches_iff (hs : s.Coherent) (hleft : ∀ {u i}, s.cached? u = some i → Whole env s u ∨ Bare env s u)
    (hu : s.cached? u = some i) : (∃ j, ReflTransGen s.graph.Imports i j ∧ s.graph.url j = v) ↔
      ∃ between, env.Way u between v ∧ ∀ w ∈ between, FullyLinked env s w := by
  constructor
  · rintro ⟨j, hj, rfl⟩
    induction hj using ReflTransGen.head_induction_on generalizing u with
    | refl =>
      refine ⟨[], ?_, fun w hw ↦ (by cases hw)⟩
      rw [(hs.placed hu).2.1]
      exact .refl u
    | @head i k hstep _ ih =>
      obtain ⟨hlinked, hedge⟩ := fullyLinked_of_imports hs hleft hu hstep
      obtain ⟨between, hway, hall⟩ := ih (hs.linked hu (hs.imports_iff.1 hstep))
      refine ⟨u :: between, .head hedge hway, fun w hw ↦ ?_⟩
      rcases List.mem_cons.1 hw with rfl | hw
      · exact hlinked
      · exact hall w hw
  · rintro ⟨between, hway, hall⟩
    induction hway generalizing i with
    | refl => exact ⟨i, .refl, (hs.placed hu).2.1⟩
    | head hedge _ ih =>
      obtain ⟨k, hstep, hk⟩ := (hall _ List.mem_cons_self).exists_import hs hu hedge
      obtain ⟨j, hj, hurl⟩ := ih hk fun w hw ↦ hall w (List.mem_cons_of_mem _ hw)
      exact ⟨j, .head hstep hj, hurl⟩

/-- The graph of an analyzed document has the files on the ways along imports that pass through no document that
is cut off. Which ones are cut off depends on how they were met: every document was met at the end of a way from a
file that was asked for, on which no file lies twice, and has no imports when that way has as many links as the
limit allows. -/
theorem graph_up_to_cut_off (hr : env.Regular) {limit : Nat} (hlimit : env.settings.depthLimit = some limit)
    (hfollow : env.settings.followImports = true)
    (houtcomes : ∀ {v file}, env.scanFile v = .ok file → ∀ l ∈ file.links, ∃ o, env.outcome l = .ok o)
    (calls : List (List Text)) (hscan : env.scanFile u = .ok file) :
    (∃ i, (openDocument env u (afterAnalyses env calls)).1 = .ok i ∧
      ∀ v, (∃ j, ReflTransGen (openDocument env u (afterAnalyses env calls)).2.graph.Imports i j ∧
          (openDocument env u (afterAnalyses env calls)).2.graph.url j = v) ↔
        ∃ between, env.Way u between v ∧
          ∀ w ∈ between, FullyLinked env (openDocument env u (afterAnalyses env calls)).2 w) ∧
    ∀ w j, (openDocument env u (afterAnalyses env calls)).2.cached? w = some j →
      ∃ r ∈ calls.flatten ++ [u], ∃ between, env.Way r between w ∧ (w :: between).Nodup ∧
        (between.length < limit ∧ FullyLinked env (openDocument env u (afterAnalyses env calls)).2 w ∨
          between.length = limit ∧ (openDocument env u (afterAnalyses env calls)).2.graph.importsOf j = []) := by
  have hexplored := explored_afterAnalyses hr calls
  have hopened := openDocument_opened hr hexplored.ready hscan
  have hexplored' := hexplored.openDocument hr u
  have hleft {w : Text} {j : DocId} (hw : (openDocument env u (afterAnalyses env calls)).2.cached? w = some j) :=
    (hexplored'.met hw).whole_or_bare houtcomes
  have hs := hexplored'.ready.coherent
  have hfollows (n : Nat) : env.settings.followsAt n = decide (n < limit) := by
    rw [Settings.followsAt, hfollow, hlimit, Bool.true_and, Option.all_some]
  refine ⟨?_, fun w j hw ↦ ?_⟩
  · obtain ⟨i, hi, hresult | ⟨e, -, -, hbroken⟩⟩ := hopened.cached
    · exact ⟨i, hresult, fun v ↦ reaches_iff hs hleft hi⟩
    · exact absurd hbroken (not_broken houtcomes)
  · obtain ⟨r, hr, between, hway, hnodup, hbefore, hlast⟩ := hexplored'.met hw
    refine ⟨r, hr, between, hway, hnodup, ?_⟩
    rw [Left, hfollows] at hlast
    split at hlast
    · next hnear =>
      refine .inl ⟨of_decide_eq_true hnear, ?_⟩
      rcases hlast with hwhole | ⟨e, -, hbroken⟩
      · exact hwhole.fullyLinked hs
      · exact absurd hbroken (not_broken houtcomes)
    · next hfar =>
      refine .inr ⟨le_antisymm ?_ (Nat.le_of_not_lt fun hlt ↦ hfar (decide_eq_true hlt)), hlast.importsOf_eq hw⟩
      by_contra hlong
      have hcut := hbefore limit (Nat.lt_of_not_le hlong)
      rw [hfollows] at hcut
      exact absurd (of_decide_eq_true hcut) (Nat.lt_irrefl limit)

def chainPackage : Environment :=
  Page.environment [⟨"a.html", some "b.html"⟩, ⟨"b.html", some "c.html"⟩, ⟨"c.html", none⟩] 1

theorem regular_chainPackage : chainPackage.Regular := Page.regular_environment _ 1

theorem isSound_chainPackage : chainPackage.isSound = true := by decide +kernel

theorem cut_off_chainPackage : ∃ i,
    (openDocument chainPackage "b.html" (afterAnalyses chainPackage [["a.html"]])).1 = .ok i ∧
      ∀ v, (∃ j, ReflTransGen
            (openDocument chainPackage "b.html" (afterAnalyses chainPackage [["a.html"]])).2.graph.Imports i j ∧
          (openDocument chainPackage "b.html" (afterAnalyses chainPackage [["a.html"]])).2.graph.url j = v) ↔
        ∃ between, chainPackage.Way "b.html" between v ∧ ∀ w ∈ between,
          FullyLinked chainPackage (openDocument chainPackage "b.html" (afterAnalyses chainPackage [["a.html"]])).2 w := by
  obtain ⟨file, hscan⟩ := Environment.exists_scanFile isSound_chainPackage (v := "b.html") (by decide)
  refine (graph_up_to_cut_off regular_chainPackage rfl rfl (fun hscan l hl ↦ ?_) [["a.html"]] hscan).1
  rcases Environment.outcome_of_isSound rfl isSound_chainPackage hscan hl with ho | ho <;> exact ⟨_, ho⟩

theorem targets_chainPackage : (match chainPackage.scanFile "b.html" with
    | .ok file => file.links.filterMap chainPackage.target?
    | .error _ => []) = [Text.ofString "c.html"] := by
  decide +kernel

theorem cut_in_chainPackage :
    (let s := afterAnalyses chainPackage [["a.html"]];
      (s.cached? "b.html", s.graph.importsOf 1)) = (some 1, []) := by
  decide +kernel

/-- A page that was met at the limit before stays cut off when it is asked for. -/
theorem nearby_file_cut_off : ¬∀ (env : Environment) (files : Files) (limit : Nat), env.loader = files.loader →
    env.settings.followImports = true → env.settings.depthLimit = some limit →
    (∀ v ∈ env.loader.urls, ∃ file, env.scanFile v = .ok file) →
    ∀ (calls : List (List Text)) (u v : Text) (between : List Text), env.Way u between v → between.length ≤ limit →
      ∃ i j, (openDocument env u (afterAnalyses env calls)).1 = .ok i ∧
        ReflTransGen (openDocument env u (afterAnalyses env calls)).2.graph.Imports i j ∧
        (openDocument env u (afterAnalyses env calls)).2.graph.url j = v := by
  intro h
  have hlink : chainPackage.Links "b.html" "c.html" := by
    obtain ⟨file, hscan⟩ := Environment.exists_scanFile isSound_chainPackage (v := "b.html") (by decide)
    have htargets := targets_chainPackage
    rw [hscan] at htargets
    rw [Environment.links_iff hscan]
    simp only at htargets
    rw [htargets]
    exact List.mem_singleton_self _
  obtain ⟨i, j, hopen, hreach, hurl⟩ := h chainPackage _ 1 rfl rfl rfl (fun v ↦ Environment.exists_scanFile isSound_chainPackage)
    [["a.html"]] "b.html" "c.html"
    ["b.html"] (.head hlink (.refl _)) le_rfl
  have hcoherent : (afterAnalyses chainPackage [["a.html"]]).Coherent := coherent_after _
  obtain ⟨hcached, hcut⟩ := Prod.mk.inj cut_in_chainPackage
  generalize afterAnalyses chainPackage [["a.html"]] = s at *
  rw [openDocument_of_cached hcached] at hopen hreach hurl
  cases hopen
  rcases hreach.cases_head with rfl | ⟨k, hk, -⟩
  · rw [(hcoherent.placed hcached).2.1] at hurl
    exact absurd hurl (by decide)
  · rw [hcoherent.imports_iff, hcut] at hk
    cases hk

end PolymerAnalysis.Session
