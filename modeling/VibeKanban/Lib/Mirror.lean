import Mathlib

/-!
# A map and the mirror of its keys

A map is changed by operations that are sent to it; whoever sends them keeps the list of its keys
(`Mirrors.add`, `Mirrors.remove`).
-/

namespace VibeKanban.Lib

variable {κ α : Type*} [DecidableEq κ]

/-- An operation on a map; `remove` of a key that is missing does nothing. -/
inductive MapOp (κ α : Type*) where
  | replace (entries : κ → Option α)
  | add (key : κ) (value : α)
  | remove (key : κ)

def MapOp.apply (map : κ → Option α) : MapOp κ α → κ → Option α
  | .replace entries => entries
  | .add key value => Function.update map key (some value)
  | .remove key => Function.update map key none

def applyAll (ops : List (MapOp κ α)) (map : κ → Option α) : κ → Option α :=
  ops.foldl MapOp.apply map

/-- The keys of the map. -/
def Mirrors (keys : List κ) (map : κ → Option α) : Prop := ∀ k, (map k).isSome = true ↔ k ∈ keys

variable {keys : List κ} {map : κ → Option α} {ops ops' : List (MapOp κ α)} {k : κ} {a : α}

theorem applyAll_nil : applyAll [] map = map := rfl

theorem applyAll_append : applyAll (ops ++ ops') map = applyAll ops' (applyAll ops map) :=
  List.foldl_append

theorem applyAll_concat (op : MapOp κ α) :
    applyAll (ops ++ [op]) map = MapOp.apply (applyAll ops map) op := applyAll_append

omit [DecidableEq κ] in
theorem mirrors_nil : Mirrors [] (fun _ : κ => (none : Option α)) := by
  intro k
  simp

theorem Mirrors.add (h : Mirrors keys map) (k : κ) (a : α) :
    Mirrors (keys.insert k) (MapOp.apply map (.add k a)) := by
  intro x
  rw [List.mem_insert_iff, ← h x, MapOp.apply]
  by_cases hx : x = k <;> simp [hx]

theorem Mirrors.remove (h : Mirrors keys map) (k : κ) :
    Mirrors (keys.filter (· ≠ k)) (MapOp.apply map (.remove k)) := by
  intro x
  rw [List.mem_filter, ← h x, MapOp.apply]
  by_cases hx : x = k <;> simp [hx]

end VibeKanban.Lib
