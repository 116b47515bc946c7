import PolymerAnalysis.Proofs.Graph.Traversal
import PolymerAnalysis.Proofs.Resolution.Order

namespace PolymerAnalysis

def ScannedFeature.isShown : ScannedFeature → Bool
  | .script _ => false
  | _ => true

namespace Graph

open Relation

variable {g : Graph} {i : DocId} {f : FeatureId} {d : Declaration} {memo memo' : Memo} {documents order : List DocId}
  {x y : Feature}

/-- A document comes after the one that it lies in, which was there when it was made. -/
def ContainersFirst (g : Graph) : Prop := ∀ p ∈ g.documents.zipIdx, ∀ c ∈ p.1.container, c < p.2

instance (g : Graph) : Decidable g.ContainersFirst :=
  inferInstanceAs (Decidable (∀ p ∈ g.documents.zipIdx, ∀ c ∈ p.1.container, c < p.2))

def isShown (g : Graph) (f : FeatureId) : Bool := (g.feature? f).any (·.isShown)

/-- The features with a resolved form that can be reached from some documents: document by document, and of each the
features of its own file and of imported files in the order of the traversal. A feature stands where it comes first. -/
def discovered (g : Graph) (documents : List DocId) : List FeatureId :=
  (documents.flatMap fun i ↦ (g.reachable i true).flatMap g.featureIds).eraseDups.filter g.isShown

inductive IsResolved (g : Graph) (memo : Memo) (f : FeatureId) : Feature → Prop
  | declaration {d : Declaration} {r : ResolvedDeclaration} :
      g.declaration? f = some d → memo.lookup f = some r → IsResolved g memo f (.declaration r)
  | space {n : NamespaceFeature} : g.feature? f = some (.space n) → IsResolved g memo f (.space n)
  | link {l : ImportFeature} :
      g.feature? f = some (.link l) → IsResolved g memo f (.link { l with description := none, docs := none })

def memoFrom (g : Graph) (memo : Memo) (requests : List Request) : Memo :=
  requests.foldl (fun memo request ↦ (request.answer g memo).2) memo

/-- An answer lists what can be reached from some documents, each feature once. The requests that came before it may
show in what a tangled feature has been resolved to, and in nothing else; later ones change nothing. -/
structure Lists (g : Graph) (documents : List DocId) (requests : List Request) (answer : List Feature × Memo) :
    Prop where
  once : (g.discovered documents).Nodup
  reached : ∀ f, f ∈ g.discovered documents ↔
    g.isShown f ∧ ∃ i ∈ documents, ∃ j, ReflTransGen g.Imports (g.root i) j ∧ g.LiesIn f.owner j
  resolved : List.Forall₂ (g.IsResolved answer.2) (g.discovered documents) answer.1
  again : ∀ later, (g.featuresOfAll documents (g.memoFrom answer.2 later)).1 = answer.1
  alike : ∀ (requests' : List Request) (n : Nat) (f : FeatureId), (g.discovered documents)[n]? = some f →
    g.Untangled f → answer.1[n]? = (g.featuresOfAll documents (g.memoAfter requests')).1[n]?

section Traversals

theorem nodup_featureIds (g : Graph) (i : DocId) : (g.featureIds i).Nodup := by
  refine List.nodup_range.map fun a b hab ↦ ?_
  cases hab
  rfl

theorem nodup_flatMap_featureIds (h : order.Nodup) : (order.flatMap g.featureIds).Nodup := by
  refine List.nodup_flatMap.2 ⟨fun j _ ↦ g.nodup_featureIds j, h.imp fun hne t ht ht' ↦ hne ?_⟩
  rw [← (mem_featureIds ht).1, (mem_featureIds ht').1]

theorem mem_featureIds_of_isShown (h : g.isShown f) : f ∈ g.featureIds f.owner := by
  obtain ⟨owner, index⟩ := f
  obtain ⟨feature, hfeature, -⟩ := (Option.any_eq_true _ _).1 h
  obtain ⟨d, hd, hindex⟩ := Option.bind_eq_some_iff.1 hfeature
  refine List.mem_map.2 ⟨index, List.mem_range.2 ?_, rfl⟩
  rw [hd]
  exact (List.getElem?_eq_some_iff.1 hindex).1

theorem isInline_eq (h : g.ContainersFirst) (i : DocId) : g.isInline i = (g.container? i).isSome := by
  cases hd : g.document? i with
  | none => simp [isInline, container?, hd]
  | some d =>
    have hfirst : ∀ c ∈ d.container, c < i := h (d, i) (List.mem_zipIdx_iff_getElem?.2 hd)
    cases hc : d.container with
    | none => simp [isInline, container?, hd, hc, Document.isInline]
    | some c => simp [isInline, container?, hd, hc, Document.isInline, hfirst c hc]

/-- Of a file and the documents in it, the file alone is not inline. -/
theorem filter_locals (h : g.ContainersFirst) (hi : g.container? i = none) :
    (g.locals i).filter (fun j ↦ !g.isInline j) = [i] := by
  have hinner : ∀ k ∈ (g.inlines i).flatMap g.locals, ¬(!g.isInline k) = true := by
    intro k hk
    obtain ⟨j, hj, hk⟩ := List.mem_flatMap.1 hk
    have hcontained : (g.container? k).isSome := by
      rcases ReflTransGen.cases_head (mem_locals.1 hk) with rfl | ⟨c, hc, -⟩
      · exact Option.isSome_of_eq_some (mem_inlines.1 hj).2
      · exact Option.isSome_of_eq_some hc
    rw [isInline_eq h, hcontained]
    decide
  rw [locals_eq, List.filter_cons_of_pos (by rw [isInline_eq h, hi]; rfl), List.filter_eq_nil_iff.2 hinner]

theorem fileFeatureIds_eq (hfiles : g.ImportsFiles) (hcontainers : g.ContainersFirst) (hi : i < g.size) :
    g.fileFeatureIds i true = (g.reachable i true).flatMap g.featureIds := by
  obtain ⟨files, hnearest⟩ := exists_nearestFirst hfiles hi
  have hfilter : g.files i true = files := by
    rw [Graph.files, if_pos rfl, hnearest.blocks, List.filter_flatMap]
    have hmap := List.flatMap_congr fun j hj ↦ filter_locals hcontainers (hnearest.isFile hfiles hi j hj)
    rw [hmap, List.flatMap_singleton']
  rw [fileFeatureIds, hfilter, hnearest.blocks, List.flatMap_assoc]
  rfl

end Traversals

section Resolved

theorem IsResolved.keep (h : g.IsResolved memo f x) (hlater : ReflTransGen (g.Remembers []) memo memo') :
    g.IsResolved memo' f x := by
  cases h with
  | declaration hd hr => exact .declaration hd (keeps_resolved hlater hr)
  | space hn => exact .space hn
  | link hl => exact .link hl

theorem IsResolved.unique (h : g.IsResolved memo f x) (h' : g.IsResolved memo' f y)
    (hsame : ∀ r r', memo.lookup f = some r → memo'.lookup f = some r' → r = r') : x = y := by
  cases h with
  | declaration hd hr =>
    cases h' with
    | declaration hd' hr' => rw [hsame _ _ hr hr']
    | space hn => cases (declaration?_eq_some_iff.1 hd).symm.trans hn
    | link hl => cases (declaration?_eq_some_iff.1 hd).symm.trans hl
  | space hn =>
    cases h' with
    | declaration hd hr => cases (declaration?_eq_some_iff.1 hd).symm.trans hn
    | space hn' =>
      cases hn.symm.trans hn'
      rfl
    | link hl => cases hn.symm.trans hl
  | link hl =>
    cases h' with
    | declaration hd hr => cases (declaration?_eq_some_iff.1 hd).symm.trans hl
    | space hn => cases hl.symm.trans hn
    | link hl' =>
      cases hl.symm.trans hl'
      rfl

theorem resolveFeature_isResolved (hf : g.isShown f) (memo : Memo) :
    ∃ x, (g.resolveFeature f memo).1 = some x ∧ g.IsResolved (g.resolveFeature f memo).2 f x := by
  obtain ⟨feature, hfeature, hshown⟩ := (Option.any_eq_true _ _).1 hf
  cases feature with
  | declaration d =>
    have hd := declaration?_eq_some_iff.2 hfeature
    rw [resolveFeature_of_declaration hd]
    exact ⟨_, rfl, .declaration hd (lookup_resolveFrom g [] f d memo)⟩
  | space n =>
    simp only [resolveFeature, hfeature]
    exact ⟨_, rfl, .space hfeature⟩
  | link l =>
    simp only [resolveFeature, hfeature]
    exact ⟨_, rfl, .link hfeature⟩
  | script s => cases hshown

theorem resolveFeature_of_not_isShown (hf : ¬g.isShown f) (memo : Memo) : g.resolveFeature f memo = (none, memo) := by
  cases hfeature : g.feature? f with
  | none => simp only [resolveFeature, hfeature]
  | some feature =>
    cases feature with
    | script s => simp only [resolveFeature, hfeature]
    | declaration d | space n | link l => exact absurd (by rw [isShown, hfeature]; rfl) hf

/-- Every feature with a resolved form gives one item, in the form in which the memo has it in the end. -/
theorem resolveAll_isResolved (ids : List FeatureId) (memo : Memo) :
    List.Forall₂ (g.IsResolved (g.resolveAll ids memo).2) (ids.filter g.isShown) (g.resolveAll ids memo).1 := by
  induction ids generalizing memo with
  | nil => exact .nil
  | cons f ids ih =>
    by_cases hf : g.isShown f
    · obtain ⟨x, hx, hresolved⟩ := resolveFeature_isResolved hf memo
      have hlater := resolveAll_remembers (g := g) ids (g.resolveFeature f memo).2
      rw [List.filter_cons_of_pos hf, resolveAll]
      dsimp only
      rw [hx]
      exact .cons (hresolved.keep hlater) (ih _)
    · rw [List.filter_cons_of_neg hf, resolveAll, resolveFeature_of_not_isShown hf]
      exact ih memo

theorem eq_of_forall₂_isResolved {ids : List FeatureId} {xs ys : List Feature}
    (h : List.Forall₂ (g.IsResolved memo) ids xs) (h' : List.Forall₂ (g.IsResolved memo) ids ys) : xs = ys := by
  have hunique : Relator.RightUnique (g.IsResolved memo) := fun f x y hx hy ↦
    hx.unique hy fun r r' hr hr' ↦ Option.some.inj (hr.symm.trans hr')
  exact hunique.forall₂ h h'

end Resolved

section Listings

theorem mem_discovered (hfiles : g.ImportsFiles) (hdocuments : ∀ i ∈ documents, i < g.size) :
    f ∈ g.discovered documents ↔ g.isShown f ∧
      ∃ i ∈ documents, ∃ j, ReflTransGen g.Imports (g.root i) j ∧ g.LiesIn f.owner j := by
  rw [discovered, List.mem_filter, List.mem_eraseDups, List.mem_flatMap, and_comm]
  refine and_congr_right fun hshown ↦ exists_congr fun i ↦ and_congr_right fun hi ↦ ?_
  obtain ⟨files, hnearest⟩ := exists_nearestFirst hfiles (hdocuments i hi)
  rw [← hnearest.documents f.owner, List.mem_flatMap]
  constructor
  · rintro ⟨k, hk, hf⟩
    exact (mem_featureIds hf).1 ▸ hk
  · exact fun hmem ↦ ⟨f.owner, hmem, mem_featureIds_of_isShown hshown⟩

theorem nodup_discovered (g : Graph) (documents : List DocId) : (g.discovered documents).Nodup :=
  (Keyed.nodup_eraseDups _).filter _

theorem featuresOfAll_isResolved (hfiles : g.ImportsFiles) (hcontainers : g.ContainersFirst)
    (hdocuments : ∀ i ∈ documents, i < g.size) (memo : Memo) :
    List.Forall₂ (g.IsResolved (g.featuresOfAll documents memo).2) (g.discovered documents)
      (g.featuresOfAll documents memo).1 := by
  have hids := List.flatMap_congr fun i hi ↦ fileFeatureIds_eq hfiles hcontainers (hdocuments i hi)
  rw [featuresOfAll, hids]
  exact resolveAll_isResolved _ memo

theorem featuresOfAll_remembers (g : Graph) (documents : List DocId) (memo : Memo) :
    ReflTransGen (g.Remembers []) memo (g.featuresOfAll documents memo).2 :=
  resolveAll_remembers _ memo

theorem built_featuresOfAll (documents : List DocId) (h : g.Built memo) :
    g.Built (g.featuresOfAll documents memo).2 :=
  h.trans (g.featuresOfAll_remembers documents memo)

theorem memoFrom_remembers (g : Graph) (memo : Memo) (requests : List Request) :
    ReflTransGen (g.Remembers []) memo (g.memoFrom memo requests) := by
  induction requests generalizing memo with
  | nil => exact .refl
  | cons request rest ih =>
    have hfirst : ReflTransGen (g.Remembers []) memo (request.answer g memo).2 := by
      rw [memo_answer]
      exact resolveAll_remembers _ memo
    exact hfirst.trans (ih _)

theorem featuresOfAll_again (hfiles : g.ImportsFiles) (hcontainers : g.ContainersFirst)
    (hdocuments : ∀ i ∈ documents, i < g.size) (memo : Memo) (later : List Request) :
    (g.featuresOfAll documents (g.memoFrom (g.featuresOfAll documents memo).2 later)).1 =
      (g.featuresOfAll documents memo).1 := by
  -- what the first answer was made of stays in the memo, and the later one is made of the memo too
  have hfirst := featuresOfAll_isResolved hfiles hcontainers hdocuments memo
  have hlater := (g.memoFrom_remembers (g.featuresOfAll documents memo).2 later).trans
    (g.featuresOfAll_remembers documents _)
  exact eq_of_forall₂_isResolved (featuresOfAll_isResolved hfiles hcontainers hdocuments _)
    (hfirst.imp fun _ _ hx ↦ hx.keep hlater)

theorem featuresOfAll_alike (hfiles : g.ImportsFiles) (hcontainers : g.ContainersFirst)
    (hdocuments : ∀ i ∈ documents, i < g.size) (hmemo : g.Built memo) (hmemo' : g.Built memo') {n : Nat}
    (hn : (g.discovered documents)[n]? = some f) (hf : g.Untangled f) :
    (g.featuresOfAll documents memo).1[n]? = (g.featuresOfAll documents memo').1[n]? := by
  have hall (memo : Memo) := featuresOfAll_isResolved hfiles hcontainers hdocuments memo
  obtain ⟨x, hx, hresolved⟩ := exists_getElem?_of_forall₂ (hall memo) hn
  obtain ⟨y, hy, hresolved'⟩ := exists_getElem?_of_forall₂ (hall memo') hn
  have hsame := hresolved.unique hresolved' fun r r' ↦
    (built_featuresOfAll documents hmemo).lookup_unique (built_featuresOfAll documents hmemo') hf
  rw [hx, hy, hsame]

theorem lists_featuresOfAll (hfiles : g.ImportsFiles) (hcontainers : g.ContainersFirst)
    (hdocuments : ∀ i ∈ documents, i < g.size) (requests : List Request) :
    g.Lists documents requests (g.featuresOfAll documents (g.memoAfter requests)) where
  once := g.nodup_discovered documents
  reached _ := mem_discovered hfiles hdocuments
  resolved := featuresOfAll_isResolved hfiles hcontainers hdocuments _
  again := featuresOfAll_again hfiles hcontainers hdocuments _
  alike requests' _ _ := featuresOfAll_alike hfiles hcontainers hdocuments (built_memoAfter g requests)
    (built_memoAfter g requests')

theorem features_eq (hfiles : g.ImportsFiles) (hcontainers : g.ContainersFirst) (hi : i < g.size) (memo : Memo) :
    g.features i none none true memo = g.featuresOfAll [i] memo := by
  obtain ⟨files, hnearest⟩ := exists_nearestFirst hfiles hi
  have hnodup := nodup_flatMap_featureIds (g := g) hnearest.once
  rw [features, featuresOfAll, List.flatMap_singleton, fileFeatureIds_eq hfiles hcontainers hi,
    Keyed.eraseDups_of_nodup hnodup]
  simp

end Listings

end Graph

end PolymerAnalysis
