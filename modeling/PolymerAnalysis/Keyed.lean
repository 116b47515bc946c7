namespace PolymerAnalysis.Keyed

variable {α κ : Type} [DecidableEq κ]

/-- Replaces the first item with the key of `item`, or appends `item`. -/
def upsert (key : α → κ) (item : α) : List α → List α
  | [] => [item]
  | x :: xs => if key x = key item then item :: xs else x :: upsert key item xs

/-- Appends `item` after removing every item with its key. -/
def replaceLast (key : α → κ) (item : α) (items : List α) : List α :=
  items.filter (fun x ↦ key x ≠ key item) ++ [item]

def addNew (x : κ) (items : List κ) : List κ := if x ∈ items then items else items ++ [x]

variable {β : Type}

def put (key : κ) (value : β) (entries : List (κ × β)) : List (κ × β) :=
  upsert Prod.fst (key, value) entries

def erase (key : κ) (entries : List (κ × β)) : List (κ × β) := entries.filter fun e ↦ e.1 ≠ key

theorem length_erase_lt [BEq κ] [LawfulBEq κ] {key : κ} {value : β} {entries : List (κ × β)}
    (h : entries.lookup key = some value) : (erase key entries).length < entries.length := by
  induction entries with
  | nil => simp at h
  | cons e es ih =>
    obtain ⟨k, v⟩ := e
    by_cases hk : k = key
    · have : (erase key es).length ≤ es.length := List.length_filter_le ..
      simpa [erase, hk] using Nat.lt_succ_of_le this
    · have hne : (key == k) = false := by simpa using fun h ↦ hk h.symm
      have := ih (by simpa [List.lookup_cons, hne] using h)
      simpa [erase, hk] using this

end PolymerAnalysis.Keyed
