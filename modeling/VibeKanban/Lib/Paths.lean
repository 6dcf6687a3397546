import Mathlib

/-!
# Paths and their components

The components of a path (on Unix), for any alphabet: a path is split at its slashes; empty parts
and dots are skipped, except for a dot at the start of a relative path. `safe_iff` tells a safe one.
-/

namespace VibeKanban.Lib.Paths

open List

variable {α β : Type*} [DecidableEq α] [DecidableEq β]

/-- The characters that mean something in a path. -/
structure Separators (α : Type*) where
  slash : α
  dot : α

inductive Component (α : Type*) where
  | rootDir
  | curDir
  | parentDir
  | normal (part : List α)
  deriving DecidableEq

variable (S : Separators α)

/-- The component of a part between two slashes. -/
def component (part : List α) : Option (Component α) :=
  if part = [] ∨ part = [S.dot] then none
  else if part = [S.dot, S.dot] then some .parentDir
  else some (.normal part)

/-- `Path::has_root` -/
def hasRoot (path : List α) : Bool := path.head? = some S.slash

/-- `Path::components` -/
def components (path : List α) : List (Component α) :=
  let rest := (path.splitOn S.slash).filterMap (component S)
  if hasRoot S path then .rootDir :: rest
  else if (path.splitOn S.slash).head? = some [S.dot] then .curDir :: rest
  else rest

def Component.isNormal : Component α → Bool
  | .normal _ => true
  | _ => false

/-- A relative path of normal components, at least one character long. -/
def safe (path : List α) : Bool :=
  !path.isEmpty && !hasRoot S path && (components S path).all Component.isNormal

variable {S} {path : List α}

theorem isNormal_component {part : List α} :
    (∀ c, component S part = some c → c.isNormal = true) ↔ part ≠ [S.dot, S.dot] := by
  unfold component
  split
  · rename_i hskip
    rcases hskip with rfl | rfl <;> simp
  · split_ifs with hparent <;> simp [hparent, Component.isNormal]

/-- The parts of a path that stays below its directory. -/
theorem safe_iff : safe S path = true ↔ path ≠ [] ∧ path.head? ≠ some S.slash ∧
    (path.splitOn S.slash).head? ≠ some [S.dot] ∧
    ∀ part ∈ path.splitOn S.slash, part ≠ [S.dot, S.dot] := by
  have hparts : ((path.splitOn S.slash).filterMap (component S)).all Component.isNormal = true ↔
      ∀ part ∈ path.splitOn S.slash, part ≠ [S.dot, S.dot] := by
    simp only [all_eq_true, mem_filterMap, ← isNormal_component]
    constructor
    · exact fun h part hmem c hc => h c ⟨part, hmem, hc⟩
    · rintro h c ⟨part, hmem, hc⟩
      exact h part hmem c hc
  unfold safe components hasRoot
  by_cases hroot : path.head? = some S.slash
  · simp [hroot]
  · by_cases hcur : (path.splitOn S.slash).head? = some [S.dot]
    · simp [hroot, hcur, Component.isNormal]
    · simp only [hroot, hcur, decide_false, Bool.not_false, Bool.and_true, if_false,
        Bool.false_eq_true, Bool.and_eq_true, hparts, ne_eq, not_false_eq_true, true_and]
      simp

/-- What a path holds besides slashes and dots, its normal components hold. -/
theorem mem_iff_normal {c : α} (hslash : c ≠ S.slash) (hdot : c ≠ S.dot) :
    c ∈ path ↔ ∃ part, .normal part ∈ components S path ∧ c ∈ part := by
  have hsplit : c ∈ path ↔ ∃ part ∈ path.splitOn S.slash, c ∈ part := by
    conv_lhs => rw [← @intercalate_splitOn _ path _ _ S.slash]
    generalize path.splitOn S.slash = parts
    induction parts with
    | nil => simp
    | cons part parts ih =>
      cases parts with
      | nil => simp
      | cons next parts => rw [intercalate_cons_cons]; simp_all
  have hpart : ∀ part, c ∈ part → component S part = some (.normal part) := by
    intro part hc
    unfold component
    rw [if_neg, if_neg]
    · rintro rfl
      simp [hdot] at hc
    · rintro (rfl | rfl) <;> simp [hdot] at hc
  have hnormal : ∀ part, .normal part ∈ components S path ↔
      ∃ x ∈ path.splitOn S.slash, component S x = some (.normal part) := by
    intro part
    unfold components
    split_ifs <;> simp
  simp only [hsplit, hnormal]
  constructor
  · rintro ⟨part, hmem, hc⟩
    exact ⟨part, ⟨part, hmem, hpart part hc⟩, hc⟩
  · rintro ⟨part, ⟨x, hmem, hx⟩, hc⟩
    unfold component at hx
    split_ifs at hx <;> cases hx
    exact ⟨part, hmem, hc⟩

/-! ## Maps of alphabets -/

/-- A map of texts that keeps the slashes and what lies between them apart. -/
structure Lift (S : Separators α) (T : Separators β) (f : List α → List β) : Prop where
  append : ∀ a b, f (a ++ S.slash :: b) = f a ++ T.slash :: f b
  slash : ∀ a, T.slash ∈ f a → S.slash ∈ a
  nil : ∀ a, f a = [] → a = []
  dot : ∀ a, f a = [T.dot] → a = [S.dot]
  parent : ∀ a, f a = [T.dot, T.dot] → a = [S.dot, S.dot]

variable {T : Separators β} {f : List α → List β}

theorem Lift.splitOn (h : Lift S T f) (path : List α) :
    (f path).splitOn T.slash = (path.splitOn S.slash).map f := by
  induction hn : path.length using Nat.strongRecOn generalizing path with
  | ind n ih =>
    subst hn
    by_cases hslash : S.slash ∈ path
    · obtain ⟨a, b, rfl, ha⟩ := eq_append_cons_of_mem hslash
      have hb := ih b.length (by simp; omega) b rfl
      rw [h.append, splitOn_append_cons_self_of_not_mem (fun hmem => ha (h.slash a hmem)),
        splitOn_append_cons_self_of_not_mem ha, hb, map_cons]
    · rw [splitOn_eq_singleton (fun hmem => hslash (h.slash path hmem)),
        splitOn_eq_singleton hslash, map_singleton]

omit [DecidableEq α] [DecidableEq β] in
theorem Lift.head (h : Lift S T f) (hhead : (f path).head? = some T.slash) :
    path.head? = some S.slash := by
  obtain ⟨a, b, rfl, ha⟩ := eq_append_cons_of_mem (h.slash path (mem_of_head? hhead))
  rw [h.append] at hhead
  cases hfa : f a with
  | nil =>
    rw [h.nil a hfa]
    rfl
  | cons c rest =>
    rw [hfa, cons_append, head?_cons, Option.some_inj] at hhead
    have hmem : T.slash ∈ f a := by rw [hfa, hhead]; exact mem_cons_self
    exact absurd (h.slash a hmem) ha

/-- A path that stays below its directory does so after the map. -/
theorem safe_of_lift (h : Lift S T f) (hsafe : safe S path = true) : safe T (f path) = true := by
  obtain ⟨hne, hroot, hcur, hparts⟩ := safe_iff.1 hsafe
  refine safe_iff.2 ⟨fun hnil => hne (h.nil path hnil), fun hhead => hroot (h.head hhead), ?_, ?_⟩
  · rw [h.splitOn]
    intro hhead
    rw [head?_map, Option.map_eq_some_iff] at hhead
    obtain ⟨part, hpart, hdot⟩ := hhead
    rw [h.dot part hdot] at hpart
    exact hcur hpart
  · rw [h.splitOn]
    intro part' hmem hparent
    obtain ⟨part, hpart, rfl⟩ := mem_map.1 hmem
    exact hparts part hpart (h.parent part hparent)

end VibeKanban.Lib.Paths
