import PolymerAnalysis.Proofs.Scan.Sources
import PolymerAnalysis.Proofs.Session.FaultyScripts
import PolymerAnalysis.Proofs.Session.Features
import PolymerAnalysis.Proofs.Session.Growth
import PolymerAnalysis.Proofs.Session.Opening
import PolymerAnalysis.Proofs.Session.Pages
import PolymerAnalysis.Proofs.Url.Resolution

namespace PolymerAnalysis

open Relation

def Environment.Writes (env : Environment) (url reference : Text) : Prop :=
  ∃ language contents parsed, Language.ofUrl? url = some language ∧ env.loader.load url = .ok contents ∧
    ParsedDocument.parse env.grammar language url contents none = .ok parsed ∧ parsed.root.Refers reference

def ScannedFeature.StandsIn (env : Environment) (url : Text) : ScannedFeature → Prop
  | .link l => ∃ r, env.Writes url r ∧ Url.resolve url r = .ok l.url
  | .declaration d => d.IsAnalyzed
  | _ => True

namespace ScannedFile

variable {env : Environment} {url : Text} {file file' : ScannedFile}

/-- Scripts have no imports. -/
theorem standsIn_addScript {script : InlineScript} (h : file.AllFeatures (·.StandsIn env url))
    (hadd : addScript env file script = .ok file') : file'.AllFeatures (·.StandsIn env url) := by
  rcases addScript_cases hadd with ⟨-, rfl⟩ | ⟨w, -, rfl⟩ | ⟨parsed, features, -, hscan, rfl⟩
  · exact h
  · exact ⟨h.document, h.inlines⟩
  · refine ⟨h.document, fun d hd x hx ↦ ?_⟩
    rcases List.mem_append.1 hd with hd | hd
    · exact h.inlines d hd x hx
    · rw [List.mem_singleton.1 hd] at hx
      cases x with
      | link l =>
        have himports := (ParsedDocument.refers_of_link hscan hx).1
        cases language_of_mem_scannersFor _ himports
      | declaration d => exact ParsedDocument.isAnalyzed_of_scan hscan hx
      | space | script => trivial

theorem standsIn_of_scanFile (h : env.scanFile url = .ok file) : file.AllFeatures (·.StandsIn env url) := by
  refine keeps_scanFile h fun language contents parsed features hlanguage hload hparsed hscan ↦
    ⟨⟨fun x hx ↦ ?_, fun d hd ↦ by cases hd⟩, fun s _ file file' ↦ standsIn_addScript⟩
  have hurl := ParsedDocument.url_of_parse hparsed
  cases x with
  | link l =>
    obtain ⟨-, r, hr, hresolve⟩ := ParsedDocument.refers_of_link hscan hx
    exact ⟨r, ⟨language, contents, parsed, hlanguage, hload, hparsed, hr⟩, hurl ▸ hresolve⟩
  | declaration d => exact ParsedDocument.isAnalyzed_of_scan hscan hx
  | space | script => trivial

theorem exists_of_mem_links (h : env.scanFile url = .ok file) {l : ImportFeature} (hl : l ∈ file.links) :
    ∃ r, env.Writes url r ∧ Url.resolve url r = .ok l.url := by
  have hfile := standsIn_of_scanFile h
  obtain ⟨d, hd, hl⟩ := List.mem_flatMap.1 hl
  obtain ⟨x, hx, hlink⟩ := List.mem_filterMap.1 hl
  have hstands : x.StandsIn env url := by
    rcases List.mem_cons.1 hd with rfl | hd
    · exact hfile.document x hx
    · exact hfile.inlines d hd x hx
  cases x with
  | link l' =>
    cases hlink
    exact hstands
  | space | declaration | script => cases hlink

end ScannedFile

namespace Session

variable {env : Environment} {known : Environment → Prop} {s s' : Session} {u v url r : Text} {i j : DocId}
  {file : ScannedFile} {l : ImportFeature}

/-- The addresses of the cache are paths from the root of the package, and every import is what a reference in its
file resolves to, as that was in one of the environments. -/
structure Addressed (known : Environment → Prop) (s : Session) : Prop where
  relative : ∀ {u i}, s.cached? u = some i → ¬Text.startsWith u "/"
  written : ∀ {i j}, j ∈ s.graph.importsOf i → j < s.graph.size ∧ ∃ env r, known env ∧ env.Writes (s.graph.url i) r ∧
    Url.isExternal r = .ok false ∧ Url.resolve (s.graph.url i) r = .ok (s.graph.url j)

theorem addressed_empty (known : Environment → Prop) : Addressed known {} where
  relative h := by cases h
  written h := by cases h

theorem Addressed.register (h : s.Addressed known) (hurl : ¬Text.startsWith url "/") (hfile : file.Fresh url) :
    (s.register url file).2.Addressed known where
  relative {u i} hu := by
    rw [cached?_register] at hu
    split at hu
    · next heq => exact heq ▸ hurl
    · exact h.relative hu
  written {i j} hj := by
    rw [importsOf_register hfile] at hj
    have hi := Graph.lt_size_of_mem_importsOf hj
    obtain ⟨hlt, hwritten⟩ := h.written hj
    rw [Graph.url_congr (document?_register hi), Graph.url_congr (document?_register hlt)]
    exact ⟨hlt.trans size_lt_size_register, hwritten⟩

theorem Addressed.warn (h : s.Addressed known) (i : DocId) (ws : List Warning) : (s.warn i ws).Addressed known where
  relative hu := h.relative hu
  written hj := by simpa using h.written (by simpa using hj)

theorem Addressed.link (h : s.Addressed known) (hs : s.Coherent) (hu : s.cached? u = some i) (hv : s.cached? v = some j)
    (henv : known env) (hr : env.Writes u r) (hin : Url.isExternal r = .ok false) (hresolve : Url.resolve u r = .ok v) :
    (s.link i v j).Addressed known where
  relative hu := h.relative hu
  written {k m} hm := by
    obtain ⟨hi, hui, -⟩ := hs.placed hu
    obtain ⟨hj, hvj, -⟩ := hs.placed hv
    rw [graph_link, Graph.importsOf_addImport i j hi] at hm
    rw [graph_link, Graph.url_addImport, Graph.url_addImport, Graph.size_addImport]
    split at hm
    · next hk =>
      rcases List.mem_append.1 hm with hm | hm
      · exact h.written hm
      · rw [List.mem_singleton.1 hm, hk, hui, hvj]
        exact ⟨hj, env, r, henv, hr, hin, hresolve⟩
    · exact h.written hm

/-- A link that does not lead out of the package comes from a reference that does not, and leads to a path from the
root. -/
theorem inside_of_available (hu : ¬Text.startsWith u "/") (hresolve : Url.resolve u r = .ok l.url)
    (h : prospect env l.url = .ok .available) : Url.isExternal r = .ok false ∧ ¬Text.startsWith l.url "/" := by
  have hinside : Url.isExternal l.url = .ok false := Environment.isExternal_of_prospect h
  have hr : Url.isExternal r = .ok false := by
    cases hr : Url.isExternal r with
    | error e =>
      rw [Url.resolve, hr] at hresolve
      cases hresolve
    | ok outside =>
      cases outside with
      | false => rfl
      | true =>
        rw [Url.resolve_of_external hr, Except.ok.injEq] at hresolve
        rw [hresolve, hinside] at hr
        cases hr
  rw [Url.resolve_eq_written hu hr, Except.ok.injEq] at hresolve
  exact ⟨hr, hresolve ▸ (Path.Place.isCanonical_written (Url.proper_placeOf u r)).no_leading⟩

def KeepsAddresses (known : Environment → Prop) (opener : Text → Session → Except Failure DocId × Session) : Prop :=
  ∀ url s, ¬Text.startsWith url "/" → s.Coherent → s.Addressed known → (opener url s).2.Addressed known

section

variable {opener : Text → Session → Except Failure DocId × Session}

theorem follow_addressed (ho : Opens env opener) (hkeeps : KeepsAddresses known opener) (henv : known env)
    (hs : s.Coherent) (h : s.Addressed known) (hu : s.cached? u = some i)
    (hl : ∃ r, env.Writes u r ∧ Url.resolve u r = .ok l.url) : (follow env opener i l s).2.Addressed known := by
  cases hp : prospect env l.url with
  | error e =>
    simp only [follow, hp]
    exact h
  | ok p =>
    cases p with
    | external =>
      simp only [follow, hp]
      exact h
    | unavailable =>
      simp only [follow, hp]
      exact h.warn i _
    | available =>
      obtain ⟨r, hr, hresolve⟩ := hl
      obtain ⟨hin, hrelative⟩ := inside_of_available (h.relative hu) hresolve hp
      obtain ⟨hsteps, hcached⟩ := ho l.url s
      have hopened := hkeeps l.url s hrelative hs h
      simp only [follow, hp]
      cases hresult : (opener l.url s).1 with
      | ok j => exact hopened.link (hs.steps hsteps) (keeps_cached hsteps hu) (hcached j hresult) henv hr hin hresolve
      | error e =>
        cases e with
        | load url fault => exact hopened.warn i _
        | syntaxError w => exact hopened.warn i _
        | _ => exact hopened

theorem followAll_addressed (ho : Opens env opener) (hkeeps : KeepsAddresses known opener) (henv : known env)
    (links : List ImportFeature) (hs : s.Coherent) (h : s.Addressed known) (hu : s.cached? u = some i)
    (hlinks : ∀ l ∈ links, ∃ r, env.Writes u r ∧ Url.resolve u r = .ok l.url) :
    (followAll env opener i links s).2.Addressed known := by
  induction links generalizing s with
  | nil => exact h
  | cons l ls ih =>
    rw [List.forall_mem_cons] at hlinks
    have hsteps := follow_steps ho l hu
    have hfirst := follow_addressed ho hkeeps henv hs h hu hlinks.1
    rw [followAll]
    split
    · next e s₁ heq =>
      rw [heq] at hfirst
      exact hfirst
    · next s₁ heq =>
      rw [heq] at hfirst hsteps
      exact ih (hs.steps hsteps) hfirst (keeps_cached hsteps hu) hlinks.2

end

theorem fetch_addressed (env : Environment) (hurl : ¬Text.startsWith url "/") (h : s.Addressed known) :
    (fetch env url s).2.Addressed known ∧ ∀ i, (fetch env url s).1 = .ok (i, true) →
      ∀ l ∈ (fetch env url s).2.graph.links i, ∃ r, env.Writes url r ∧ Url.resolve url r = .ok l.url := by
  cases hc : s.cached? url with
  | some i =>
    simp only [fetch, hc]
    exact ⟨h, fun i hi ↦ by cases hi⟩
  | none =>
    cases hscan : env.scanFile url with
    | error e =>
      simp only [fetch, hc, hscan]
      exact ⟨h, fun i hi ↦ by cases hi⟩
    | ok file =>
      have hfresh := ScannedFile.fresh_of_scanFile hscan
      simp only [fetch, hc, hscan]
      refine ⟨h.register hurl hfresh, fun i hi l hl ↦ ?_⟩
      cases hi
      have hlinks : (s.register url file).2.graph.links (s.register url file).1 = file.links :=
        (holds_register hfresh).links_eq
      exact ScannedFile.exists_of_mem_links hscan (hlinks ▸ hl)

theorem openAt_addressed (henv : known env) (free : List Text) (depth : Nat) :
    KeepsAddresses known (openAt env free depth) := by
  intro url s hurl hs h
  obtain ⟨hsteps, hcached⟩ := fetch_steps env url s
  obtain ⟨hfetched, hlinks⟩ := fetch_addressed env hurl h
  cases hfetch : fetch env url s with
  | mk fetched s₁ =>
    rw [hfetch] at hsteps hcached hfetched hlinks
    cases fetched with
    | error e =>
      rw [openAt_of_error hfetch]
      exact hfetched
    | ok x =>
      obtain ⟨i, isNew⟩ := x
      rw [openAt_of_ok hfetch]
      split
      · next hnew =>
        have hkeeps : KeepsAddresses known (nested env free (depth + 1)) := by
          intro url s hurl hs h
          rw [nested]
          split
          · exact openAt_addressed henv (free.erase url) (depth + 1) url s hurl hs h
          · exact (fetch_addressed env hurl h).1
        obtain ⟨rfl, -⟩ := (Bool.and_eq_true _ _).mp hnew
        exact followAll_addressed (nested_steps env free (depth + 1)) hkeeps henv _ (hs.steps hsteps) hfetched
          (hcached (i, true) rfl) (hlinks i rfl)
      · exact hfetched
termination_by free.length
decreasing_by
  next hmem =>
    have := List.length_erase_add_one hmem
    omega

theorem analyze_addressed (henv : known env) {urls : List Text} (hurls : ∀ u ∈ urls, ¬Text.startsWith u "/")
    (hs : s.Coherent) (h : s.Addressed known) : (Session.analyze env urls s).2.Addressed known := by
  induction urls generalizing s with
  | nil => exact h
  | cons url urls ih =>
    rw [List.forall_mem_cons] at hurls
    have hsteps : ReflTransGen (Step env) s (openDocument env url s).2 := (openAt_steps env _ 0 url s).1
    have hopened : (openDocument env url s).2.Addressed known := openAt_addressed henv _ 0 url s hurls.1 hs h
    rw [Session.analyze]
    split
    · next e s₁ heq =>
      rw [heq] at hopened
      exact hopened
    · next i s₁ heq =>
      rw [heq] at hopened hsteps
      exact ih hurls.2 (hs.steps hsteps) hopened

theorem Addressed.filesChanged (h : s.Addressed known) (urls : List Text) :
    (s.filesChanged urls).2.Addressed known where
  relative hu := by
    rw [cached?_filesChanged] at hu
    split at hu
    · cases hu
    · exact h.relative hu
  written hj := h.written hj

def Call.requested : Call → List Text
  | .analyze _ urls => urls
  | .change _ => []

theorem addressed_after (calls : List Call) (h : ∀ call ∈ calls, ∀ u ∈ call.requested, ¬Text.startsWith u "/") :
    (after calls).Addressed fun env ↦ ∃ urls, .analyze env urls ∈ calls := by
  refine (List.foldlRecOn (motive := fun s ↦ s.Coherent ∧ s.Addressed fun env ↦ ∃ urls, .analyze env urls ∈ calls)
    calls Call.run ⟨coherent_empty, addressed_empty _⟩ fun s hs call hcall ↦ ⟨hs.1.run call, ?_⟩).2
  cases call with
  | analyze env urls => exact analyze_addressed ⟨urls, hcall⟩ (h _ hcall) hs.1 hs.2
  | change urls => exact hs.2.filesChanged urls

def Leads (s : Session) (u r : Text) (j : DocId) : Prop :=
  Url.isExternal r = .ok false ∧ Url.resolve u r = .ok (s.graph.url j)

/-- What a reference resolves to is the one way to write the place it leads to, so that references that lead to one
place lead to one document of a session. -/
theorem references_canonical :
    (∀ base reference, ¬Text.startsWith base "/" → Url.isExternal reference = .ok false →
      Url.resolve base reference = .ok (Url.placeOf base reference).written ∧
        Url.IsCanonical (Url.placeOf base reference).written) ∧
    (∀ base reference base' reference', ¬Text.startsWith base "/" → ¬Text.startsWith base' "/" →
      Url.isExternal reference = .ok false → Url.isExternal reference' = .ok false →
        (Url.resolve base reference = Url.resolve base' reference' ↔
          Url.placeOf base reference = Url.placeOf base' reference')) ∧
    ∀ calls, (∀ call ∈ calls, ∀ u ∈ Call.requested call, ¬Text.startsWith u "/") →
      (∀ u i j, (after calls).cached? u = some i → (after calls).graph.Imports i j →
        (after calls).cached? ((after calls).graph.url j) = some j ∧
          ∃ env urls r, .analyze env urls ∈ calls ∧ env.Writes u r ∧ (after calls).Leads u r j) ∧
      ∀ u i j r u' i' j' r', (after calls).cached? u = some i → (after calls).graph.Imports i j →
        (after calls).Leads u r j → (after calls).cached? u' = some i' → (after calls).graph.Imports i' j' →
          (after calls).Leads u' r' j' → (Url.placeOf u r = Url.placeOf u' r' ↔ j = j') := by
  refine ⟨fun base reference hbase h ↦ ⟨Url.resolve_eq_written hbase h, ?_⟩,
    fun base reference base' reference' hbase hbase' h h' ↦ Url.resolve_eq_iff hbase hbase' h h',
    fun calls hcalls ↦ ?_⟩
  · exact Path.Place.isCanonical_written (Url.proper_placeOf base reference)
  have hs := coherent_after calls
  have haddressed := addressed_after calls hcalls
  refine ⟨fun u i j hu hj ↦ ?_, fun u i j r u' i' j' r' hu hj hr hu' hj' hr' ↦ ?_⟩
  · have hj := hs.imports_iff.1 hj
    obtain ⟨-, env, r, ⟨urls, henv⟩, hwrites, hin, hresolve⟩ := haddressed.written hj
    rw [(hs.placed hu).2.1] at hwrites hresolve
    exact ⟨hs.linked hu hj, env, urls, r, henv, hwrites, hin, hresolve⟩
  · rw [← Url.resolve_eq_iff (haddressed.relative hu) (haddressed.relative hu') hr.1 hr'.1, hr.2, hr'.2,
      Except.ok.injEq]
    refine ⟨fun hurl ↦ ?_, congrArg _⟩
    have hcached := hs.linked hu (hs.imports_iff.1 hj)
    rw [hurl, hs.linked hu' (hs.imports_iff.1 hj')] at hcached
    exact (Option.some.inj hcached).symm

def linkElement (start : Nat) (target : Text) : Node :=
  let text := Page.text ⟨[], some target⟩
  .mk "element" none true false start (start + text.length) text [
    .mk "start_tag" none true false start (start + text.length) text [
      .mk "tag_name" none true false (start + 1) (start + 5) "link" [],
      attributeNode (start + 6) "rel" "import", attributeNode (start + 19) "href" target]]

def respelledPage : Node :=
  let text := Page.text ⟨[], some "./a.html"⟩ ++ Page.text ⟨[], some "x/../a.html#a"⟩
  .mk "document" none true false 0 text.length text [linkElement 0 "./a.html", linkElement 35 "x/../a.html#a"]

def respelledPackage : Environment :=
  ⟨fun _ _ ↦ respelledPage, Files.loader [("a.html", respelledPage.text)],
    { Page.settings 64 with scanners := [.imports] }⟩

def respelledFile (l l' : ImportFeature) : ScannedFile :=
  { document := { url := "a.html", features := [.link l, .link l'] } }

theorem exists_scanFile_respelledPackage : ∃ l l', respelledPackage.scanFile "a.html" = .ok (respelledFile l l') ∧
    l.url = "a.html" ∧ l'.url = "a.html" :=
  ⟨_, _, rfl, rfl, rfl⟩

theorem nested_respelledPackage {s : Session} (h : s.cached? "a.html" = some 0) :
    nested respelledPackage (respelledPackage.loader.urls.erase "a.html") 1 "a.html" s = (.ok 0, s) := by
  rw [nested, if_neg (by decide), fetch, h]
  rfl

theorem after_respelledPackage : (after [.analyze respelledPackage ["a.html"]]).cached? "a.html" = some 0 ∧
    (after [.analyze respelledPackage ["a.html"]]).graph.importsOf 0 = [0, 0] := by
  obtain ⟨l, l', hscan, hl, hl'⟩ := exists_scanFile_respelledPackage
  let s := (({} : Session).register "a.html" (respelledFile l l')).2
  have hfetch : fetch respelledPackage "a.html" {} = (.ok (0, true), s) := by
    simp only [fetch, hscan]
    rfl
  have hlinks : s.graph.links 0 = [l, l'] := (holds_register (ScannedFile.fresh_of_scanFile hscan)).links_eq
  have hprospect : prospect respelledPackage "a.html" = .ok .available := by decide
  have hfirst : nested respelledPackage _ 1 "a.html" s = (.ok 0, s) := nested_respelledPackage rfl
  have hsecond : nested respelledPackage _ 1 "a.html" (s.link 0 "a.html" 0) = (.ok 0, s.link 0 "a.html" 0) :=
    nested_respelledPackage rfl
  have hopen : openDocument respelledPackage "a.html" {} = (.ok 0, (s.link 0 "a.html" 0).link 0 "a.html" 0) := by
    rw [openDocument, openAt_of_ok hfetch, hlinks]
    simp only [followAll, follow, hl, hl', hprospect, hfirst, hsecond, settle]
    rfl
  have hafter : after [.analyze respelledPackage ["a.html"]] = (s.link 0 "a.html" 0).link 0 "a.html" 0 := by
    change (Session.analyze respelledPackage ["a.html"] {}).2 = _
    rw [Session.analyze, hopen]
    rfl
  rw [hafter]
  exact ⟨rfl, rfl⟩

theorem respelled_page_found_once :
    Url.IsCanonical (Url.placeOf "a.html" "./a.html").written ∧
      Url.resolve "a.html" "./a.html" = Url.resolve "a.html" "x/../a.html#a" ∧
      ∃ i j j', (after [.analyze respelledPackage ["a.html"]]).cached? "a.html" = some i ∧
        (after [.analyze respelledPackage ["a.html"]]).graph.Imports i j ∧
        (after [.analyze respelledPackage ["a.html"]]).Leads "a.html" "./a.html" j ∧
        (after [.analyze respelledPackage ["a.html"]]).Leads "a.html" "x/../a.html#a" j' ∧ j = j' := by
  obtain ⟨hresolve, hone, hsession⟩ := references_canonical
  have hplace : Url.placeOf "a.html" "./a.html" = Url.placeOf "a.html" "x/../a.html#a" := by decide
  have hin : Url.isExternal "./a.html" = .ok false := rfl
  have hin' : Url.isExternal "x/../a.html#a" = .ok false := rfl
  obtain ⟨hwritten, hcanonical⟩ := hresolve "a.html" "./a.html" (by decide) hin
  have hsame := (hone "a.html" "./a.html" "a.html" "x/../a.html#a" (by decide) (by decide) hin hin').2 hplace
  obtain ⟨ha, himports⟩ := after_respelledPackage
  have hs := coherent_after [.analyze respelledPackage ["a.html"]]
  obtain ⟨-, hsame_document⟩ := hsession [.analyze respelledPackage ["a.html"]] (by decide)
  have hj := hs.imports_iff.2 (himports ▸ List.mem_cons_self)
  have hleads : (after [.analyze respelledPackage ["a.html"]]).Leads "a.html" "./a.html" 0 := by
    refine ⟨hin, hwritten.trans ?_⟩
    rw [(hs.placed ha).2.1]
    decide
  have hleads' : (after [.analyze respelledPackage ["a.html"]]).Leads "a.html" "x/../a.html#a" 0 :=
    ⟨hin', hsame ▸ hleads.2⟩
  exact ⟨hcanonical, hsame, 0, 0, 0, ha, hj, hleads, hleads',
    (hsame_document "a.html" 0 0 "./a.html" "a.html" 0 0 "x/../a.html#a" ha hj hleads ha hj hleads').1 hplace⟩

end Session

end PolymerAnalysis
