import PolymerAnalysis.Proofs.Resolution.Recursion

namespace PolymerAnalysis

variable {ρ : DocId → DocId}

def FeatureId.rename (ρ : DocId → DocId) (f : FeatureId) : FeatureId := ⟨ρ f.owner, f.index⟩

def ResolvedObserver.rename (ρ : DocId → DocId) (o : ResolvedObserver) : ResolvedObserver :=
  { o with writer := o.writer.rename ρ }

def ResolvedDeclaration.rename (ρ : DocId → DocId) (d : ResolvedDeclaration) : ResolvedDeclaration :=
  { d with observers := d.observers.map (·.rename ρ) }

def Feature.rename (ρ : DocId → DocId) : Feature → Feature
  | .space n => .space n
  | .declaration d => .declaration (d.rename ρ)
  | .link i => .link i

def Composition.rename (ρ : DocId → DocId) (c : Composition) : Composition :=
  { c with observers := c.observers.map (·.rename ρ) }

def Memo.rename (ρ : DocId → DocId) (memo : Memo) : Memo := memo.map fun e ↦ (e.1.rename ρ, e.2.rename ρ)

theorem FeatureId.rename_injective (hρ : ρ.Injective) : (FeatureId.rename ρ).Injective := by
  rintro ⟨i, n⟩ ⟨j, m⟩ h
  obtain ⟨hij, hnm⟩ := FeatureId.mk.inj h
  cases hρ hij
  cases hnm
  rfl

@[simp] theorem FeatureId.rename_id (f : FeatureId) : f.rename id = f := rfl

@[simp] theorem ResolvedDeclaration.rename_id (d : ResolvedDeclaration) : d.rename id = d := by
  have hsame : ResolvedObserver.rename id = id := rfl
  rw [rename, hsame, List.map_id]

@[simp] theorem Feature.rename_id (x : Feature) : x.rename id = x := by
  cases x with
  | declaration d => rw [rename, ResolvedDeclaration.rename_id]
  | space n => rfl
  | link i => rfl

theorem Memo.lookup_rename (hρ : ρ.Injective) (memo : Memo) (f : FeatureId) :
    (memo.rename ρ).lookup (f.rename ρ) = (memo.lookup f).map (·.rename ρ) := by
  induction memo with
  | nil => rfl
  | cons e memo ih =>
    obtain ⟨t, r⟩ := e
    by_cases h : f = t
    · subst h
      rw [List.lookup_cons_self, Memo.rename, List.map_cons, List.lookup_cons_self, Option.map_some]
    · rw [Keyed.lookup_cons_ne h, Memo.rename, List.map_cons,
        Keyed.lookup_cons_ne ((FeatureId.rename_injective hρ).ne h)]
      exact ih

theorem ResolvedObserver.repeats_rename (hρ : ρ.Injective) (o p : ResolvedObserver) :
    (o.rename ρ).repeats (p.rename ρ) = o.repeats p := by
  have hwriter : decide (o.writer.rename ρ = p.writer.rename ρ) = decide (o.writer = p.writer) :=
    decide_eq_decide.2 (FeatureId.rename_injective hρ).eq_iff
  rw [repeats, rename, rename, hwriter]
  rfl

theorem Declaration.ownObservers_rename (d : Declaration) (f : FeatureId) :
    d.ownObservers (f.rename ρ) = (d.ownObservers f).map (·.rename ρ) := by
  rw [ownObservers, ownObservers, List.map_map]
  rfl

namespace Composition

variable (c : Composition)

theorem addObserver_rename (hρ : ρ.Injective) (o : ResolvedObserver) :
    (c.rename ρ).addObserver (o.rename ρ) = (c.addObserver o).rename ρ := by
  have hsame : (c.rename ρ).observers.any (fun p ↦ !p.value.isUnevaluated && p.repeats (o.rename ρ)) =
      c.observers.any (fun p ↦ !p.value.isUnevaluated && p.repeats o) := by
    rw [rename, List.any_map]
    exact congrArg _ (funext fun p ↦ by
      rw [Function.comp_apply, ResolvedObserver.repeats_rename hρ]
      rfl)
  rw [addObserver, addObserver, hsame, apply_ite (rename ρ)]
  simp [rename, ResolvedObserver.rename]

theorem foldl_addObserver_rename (hρ : ρ.Injective) (os : List ResolvedObserver) :
    (os.map (·.rename ρ)).foldl addObserver (c.rename ρ) = (os.foldl addObserver c).rename ρ := by
  rw [List.foldl_map]
  exact List.foldl_hom (rename ρ) fun c o ↦ c.addObserver_rename hρ o

theorem foldl_rename {ε : Type} {add : Composition → ε → Composition}
    (hadd : ∀ c x, add (c.rename ρ) x = (add c x).rename ρ) (xs : List ε) :
    xs.foldl add (c.rename ρ) = (xs.foldl add c).rename ρ :=
  List.foldl_hom (rename ρ) hadd

theorem addInherited_rename (hρ : ρ.Injective) (d : ResolvedDeclaration) :
    (c.rename ρ).addInherited (d.rename ρ) = (c.addInherited d).rename ρ := by
  simp only [addInherited, ResolvedDeclaration.rename]
  rw [foldl_rename c fun _ _ ↦ rfl, foldl_rename _ fun _ _ ↦ rfl, foldl_rename _ fun _ _ ↦ rfl,
    foldl_rename _ fun _ _ ↦ rfl, foldl_addObserver_rename _ hρ]

theorem compose_rename (hρ : ρ.Injective) (kind : ReferenceKind) (r : Reference) (d : ResolvedDeclaration) :
    (c.rename ρ).compose kind r (d.rename ρ) = (c.compose kind r d).rename ρ := by
  rw [compose, compose, addInherited_rename c hρ]
  cases kind <;> rfl

theorem finish_addOwn_rename (hρ : ρ.Injective) (f : FeatureId) (d : Declaration) :
    ((c.rename ρ).addOwn (f.rename ρ) d).finish d = ((c.addOwn f d).finish d).rename ρ := by
  simp only [addOwn]
  rw [foldl_rename c fun _ _ ↦ rfl, foldl_rename _ fun _ _ ↦ rfl, foldl_rename _ fun _ _ ↦ rfl,
    foldl_rename _ fun _ _ ↦ rfl, Declaration.ownObservers_rename, foldl_addObserver_rename _ hρ]
  rfl

end Composition

end PolymerAnalysis
