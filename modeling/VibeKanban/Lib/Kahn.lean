import Mathlib

/-!
# Kahn's algorithm

The nodes of a graph are placed one after the other: next is the first of the nodes whose
predecessors are all placed. Nodes that a cycle keeps from being placed follow in their own order.
An implementation is a loop that keeps the ready nodes and the numbers of their predecessors
(`Loop`).

* `order_perm`, `order_of_acyclic`: every node once, and after its predecessors.
* `Inv.append_rest`: a loop computes the order.
-/

namespace VibeKanban.Lib.Kahn

open List Function

variable {α N : Type*} [DecidableEq α]

/-! ## The order -/

section Order

variable (nodes : List α) (succ : α → List α)

/-- How many predecessors of `x` are not placed. -/
def waiting (placed : List α) (x : α) : ℕ := nodes.countP fun y => x ∈ succ y && y ∉ placed

/-- `x` can be placed. -/
def Free (placed : List α) (x : α) : Prop := x ∉ placed ∧ waiting nodes succ placed x = 0
  deriving Decidable

/-- The node that is placed next. -/
def next? (placed : List α) : Option α := nodes.find? fun x => Free nodes succ placed x

/-- At most `fuel` nodes more. -/
def place : ℕ → List α → List α
  | 0, placed => placed
  | fuel + 1, placed =>
    match next? nodes succ placed with
    | none => placed
    | some x => place fuel (placed ++ [x])

/-- All nodes in the order of the graph. -/
def order : List α :=
  let placed := place nodes succ nodes.length []
  placed ++ nodes.filter (· ∉ placed)

end Order

variable {nodes placed ready rest succs : List α} {succ : α → List α} {x y next : α} {fuel : ℕ}
  {before after : List α}

theorem place_zero : place nodes succ 0 placed = placed := rfl

theorem place_succ : place nodes succ (fuel + 1) placed =
    match next? nodes succ placed with
    | none => placed
    | some x => place nodes succ fuel (placed ++ [x]) := rfl

theorem free_iff :
    Free nodes succ placed x ↔ x ∉ placed ∧ ∀ y ∈ nodes, x ∈ succ y → y ∈ placed := by
  simp [Free, waiting, countP_eq_zero]

theorem mem_of_next? (h : next? nodes succ placed = some x) : x ∈ nodes := mem_of_find?_eq_some h

theorem free_of_next? (h : next? nodes succ placed = some x) : Free nodes succ placed x := by
  simpa using find?_some h

/-- A node that is placed no longer waits for itself. -/
theorem not_mem_succ_of_free (hx : x ∈ nodes) (h : Free nodes succ placed x) : x ∉ succ x := by
  intro hmem
  exact h.1 ((free_iff.1 h).2 x hx hmem)

omit [DecidableEq α] in
/-- One element more is counted. -/
theorem countP_eq_add_one {p q : α → Bool} (hnodes : nodes.Nodup) (hx : x ∈ nodes)
    (hp : p x = false) (hq : q x = true) (h : ∀ y ∈ nodes, y ≠ x → q y = p y) :
    nodes.countP q = nodes.countP p + 1 := by
  induction nodes with
  | nil => cases hx
  | cons y nodes ih =>
    obtain ⟨hnotin, hnodup⟩ := nodup_cons.1 hnodes
    rw [countP_cons, countP_cons]
    rcases mem_cons.1 hx with rfl | hx
    · have hrest : nodes.countP q = nodes.countP p := by
        apply countP_congr
        intro y hy
        rw [h y (mem_cons_of_mem _ hy) fun heq => hnotin (heq ▸ hy)]
      simp [hp, hq, hrest]
    · have hne : y ≠ x := fun heq => hnotin (heq ▸ hx)
      rw [ih hnodup hx fun z hz => h z (mem_cons_of_mem _ hz), h y mem_cons_self hne]
      omega

/-- What placing `next` changes for the others. -/
theorem waiting_concat (hnodes : nodes.Nodup) (hnext : next ∈ nodes) (hplaced : next ∉ placed) :
    waiting nodes succ placed x =
      waiting nodes succ (placed ++ [next]) x + if x ∈ succ next then 1 else 0 := by
  split_ifs with hx
  · apply countP_eq_add_one hnodes hnext
    · simp
    · simp [hx, hplaced]
    · intro y _ hne
      simp [hne]
  · rw [Nat.add_zero]
    apply countP_congr
    intro y _
    by_cases hne : y = next
    · simp [hne, hx]
    · simp [hne]

/-! ## Enough steps -/

section

variable (hplaced : placed.Nodup) (hsub : placed ⊆ nodes)
include hplaced hsub

theorem concat_next? (h : next? nodes succ placed = some x) :
    (placed ++ [x]).Nodup ∧ placed ++ [x] ⊆ nodes := by
  constructor
  · rw [← concat_eq_append]
    exact Nodup.concat (free_of_next? h).1 hplaced
  · intro y hy
    rcases mem_append.1 hy with hy | hy
    · exact hsub hy
    · rw [mem_singleton.1 hy]
      exact mem_of_next? h

theorem place_spec :
    (place nodes succ fuel placed).Nodup ∧ place nodes succ fuel placed ⊆ nodes := by
  induction fuel generalizing placed with
  | zero => exact ⟨hplaced, hsub⟩
  | succ fuel ih =>
    rw [place_succ]
    cases hnext : next? nodes succ placed with
    | none => exact ⟨hplaced, hsub⟩
    | some x =>
      obtain ⟨hplaced', hsub'⟩ := concat_next? hplaced hsub hnext
      exact ih hplaced' hsub'

/-- When there are as many steps as nodes, no node is left that could be placed. -/
theorem next?_place (hfuel : nodes.length ≤ placed.length + fuel) :
    next? nodes succ (place nodes succ fuel placed) = none := by
  induction fuel generalizing placed with
  | zero =>
    have hperm : placed.Perm nodes := (hplaced.subperm hsub).perm_of_length_le hfuel
    rw [place_zero, next?, find?_eq_none]
    intro x hx hfree
    rw [decide_eq_true_eq] at hfree
    exact hfree.1 (hperm.mem_iff.2 hx)
  | succ fuel ih =>
    rw [place_succ]
    cases hnext : next? nodes succ placed with
    | none => exact hnext
    | some x =>
      obtain ⟨hplaced', hsub'⟩ := concat_next? hplaced hsub hnext
      apply ih hplaced' hsub'
      rw [length_append, length_singleton]
      omega

end

theorem exists_place_eq_append : ∃ rest, place nodes succ fuel placed = placed ++ rest := by
  induction fuel generalizing placed with
  | zero => exact ⟨[], (append_nil _).symm⟩
  | succ fuel ih =>
    rw [place_succ]
    cases next? nodes succ placed with
    | none => exact ⟨[], (append_nil _).symm⟩
    | some x =>
      obtain ⟨rest, hrest⟩ := @ih (placed ++ [x])
      refine ⟨x :: rest, ?_⟩
      show place nodes succ fuel (placed ++ [x]) = placed ++ x :: rest
      rw [hrest, append_assoc, singleton_append]

/-- Each node was next when it was placed. -/
theorem next?_of_place (h : place nodes succ fuel placed = placed ++ (before ++ x :: after)) :
    next? nodes succ (placed ++ before) = some x := by
  induction fuel generalizing placed before with
  | zero =>
    rw [place_zero] at h
    simpa using congrArg length h
  | succ fuel ih =>
    rw [place_succ] at h
    cases hnext : next? nodes succ placed with simp only [hnext] at h
    | none => simpa using congrArg length h
    | some y =>
      cases before with
      | nil =>
        obtain ⟨rest, hrest⟩ := @exists_place_eq_append _ _ nodes (placed ++ [y]) succ fuel
        rw [hrest, append_assoc, append_cancel_left_eq, singleton_append,
          nil_append, cons_eq_cons] at h
        rw [append_nil, hnext, h.1]
      | cons z before =>
        obtain ⟨rest, hrest⟩ := @exists_place_eq_append _ _ nodes (placed ++ [y]) succ fuel
        have hy : y = z := by
          rw [hrest, append_assoc, append_cancel_left_eq, singleton_append,
            cons_append, cons_eq_cons] at h
          exact h.1
        subst hy
        rw [← singleton_append, ← append_assoc]
        apply ih
        rw [h, append_assoc, singleton_append, cons_append]

/-! ## The order of an acyclic graph -/

/-- The order lists every node once. -/
theorem order_perm (hnodes : nodes.Nodup) : (order nodes succ).Perm nodes := by
  obtain ⟨hnodup, hsub⟩ :
      (place nodes succ nodes.length []).Nodup ∧ place nodes succ nodes.length [] ⊆ nodes :=
    place_spec nodup_nil (nil_subset nodes)
  rw [order]
  generalize place nodes succ nodes.length [] = placed at hnodup hsub
  have hdisjoint : placed.Disjoint (nodes.filter (· ∉ placed)) := by
    intro x hx hrest
    exact of_decide_eq_true (mem_filter.1 hrest).2 hx
  rw [perm_ext_iff_of_nodup (hnodup.append (hnodes.filter _) hdisjoint) hnodes]
  intro x
  rw [mem_append, mem_filter, decide_eq_true_eq]
  constructor
  · rintro (hx | ⟨hx, -⟩)
    · exact hsub hx
    · exact hx
  · intro hx
    by_cases hplaced : x ∈ placed
    · exact .inl hplaced
    · exact .inr ⟨hx, hplaced⟩

/-- `b` follows `a` in the graph. -/
def Edge (nodes : List α) (succ : α → List α) (a b : α) : Prop := a ∈ nodes ∧ b ∈ succ a

section

variable (hacyclic : ∀ x, ¬ Relation.TransGen (Edge nodes succ) x x)

include hacyclic

/-- Without cycles no node waits forever: the least node that is not placed, in the order of the
graph, could be placed. -/
theorem mem_of_acyclic (hdone : next? nodes succ placed = none) (hx : x ∈ nodes) : x ∈ placed := by
  let before : {x // x ∈ nodes} → {x // x ∈ nodes} → Prop := fun a b =>
    Relation.TransGen (Edge nodes succ) a.1 b.1
  have : Std.Irrefl before := ⟨fun a h => hacyclic a.1 h⟩
  have hwf : WellFounded before := Finite.wellFounded_of_trans_of_irrefl before
  suffices hall : ∀ y : {x // x ∈ nodes}, y.1 ∈ placed from hall ⟨x, hx⟩
  intro y
  induction y using hwf.induction with
  | _ y ih =>
    by_contra hnot
    rw [next?, find?_eq_none] at hdone
    apply hdone y.1 y.2
    rw [decide_eq_true_eq, free_iff]
    refine ⟨hnot, ?_⟩
    intro z hz hsucc
    exact ih ⟨z, hz⟩ (Relation.TransGen.single ⟨hz, hsucc⟩)

theorem order_of_acyclic : order nodes succ = place nodes succ nodes.length [] := by
  have hdone : next? nodes succ (place nodes succ nodes.length []) = none :=
    next?_place nodup_nil (nil_subset nodes) (Nat.le_add_left _ _)
  rw [order, append_right_eq_self, filter_eq_nil_iff]
  intro x hx
  simpa using mem_of_acyclic hacyclic hdone hx

/-- At each position stands the first of the nodes whose predecessors are all before it. -/
theorem next?_of_order (h : order nodes succ = before ++ x :: after) :
    next? nodes succ before = some x := by
  rw [order_of_acyclic hacyclic] at h
  have hplace : place nodes succ nodes.length [] = [] ++ (before ++ x :: after) := h
  exact next?_of_place hplace

end

/-! ## The loop -/

/-- The variables of the loop. -/
structure Loop (α N : Type*) where
  ready : List α
  ordered : List α
  remaining : List α
  indegree : α → Option N

/-- `while` there is a ready node. -/
def run (body : Loop α N → Loop α N) : ℕ → Loop α N → Loop α N
  | 0, s => s
  | fuel + 1, s => if s.ready = [] then s else run body fuel (body s)

/-- The loop has placed `s.ordered`; `count` are its numbers. -/
structure Inv (nodes : List α) (succ : α → List α) (count : ℕ → N) (s : Loop α N) : Prop where
  nodup : s.ordered.Nodup
  subset : s.ordered ⊆ nodes
  mem_ready : ∀ x, x ∈ s.ready ↔ x ∈ nodes ∧ Free nodes succ s.ordered x
  mem_remaining : ∀ x, x ∈ s.remaining ↔ x ∈ nodes ∧ x ∉ s.ordered
  nodup_remaining : s.remaining.Nodup
  indegree : ∀ x ∈ nodes, s.indegree x = some (count (waiting nodes succ s.ordered x))
  waiting_ordered : ∀ x ∈ s.ordered, waiting nodes succ s.ordered x = 0

theorem Inv.ready_eq_nil_iff {count : ℕ → N} {s : Loop α N} (h : Inv nodes succ count s) :
    s.ready = [] ↔ next? nodes succ s.ordered = none := by
  rw [eq_nil_iff_forall_not_mem, next?, find?_eq_none]
  simp only [h.mem_ready, decide_eq_true_eq, not_and]

/-- What the loop does at one successor of the node that it places: its number goes down by one,
and at zero it becomes ready. -/
def Releases (count : ℕ → N) (release : (α → Option N) × List α → α → (α → Option N) × List α) :
    Prop :=
  ∀ indegree ready x n, indegree x = some (count (n + 1)) →
    release (indegree, ready) x =
      (update indegree x (some (count n)), if n = 0 then ready ++ [x] else ready)

variable {count : ℕ → N} {release : (α → Option N) × List α → α → (α → Option N) × List α}
  {s : Loop α N} {body : Loop α N → Loop α N}

/-- All successors, in any order. -/
theorem Releases.foldl (h : Releases count release) (w : α → ℕ) (indegree : α → Option N)
    (ready : List α) (hsuccs : succs.Nodup)
    (hw : ∀ x ∈ succs, indegree x = some (count (w x)) ∧ 0 < w x) :
    (∀ x ∈ succs, (succs.foldl release (indegree, ready)).1 x = some (count (w x - 1))) ∧
      (∀ x ∉ succs, (succs.foldl release (indegree, ready)).1 x = indegree x) ∧
      ∀ x, x ∈ (succs.foldl release (indegree, ready)).2 ↔ x ∈ ready ∨ x ∈ succs ∧ w x = 1 := by
  induction succs generalizing indegree ready with
  | nil => simp
  | cons a succs ih =>
    obtain ⟨ha, hpos⟩ := hw a mem_cons_self
    obtain ⟨hnotin, hnodup⟩ := nodup_cons.1 hsuccs
    obtain ⟨n, hn⟩ : ∃ n, w a = n + 1 := ⟨w a - 1, by omega⟩
    rw [hn] at ha
    rw [foldl_cons, h indegree ready a n ha]
    have hother : ∀ x ∈ succs, update indegree a (some (count n)) x = indegree x := by
      intro x hx
      have hne : x ≠ a := fun heq => hnotin (heq ▸ hx)
      exact update_of_ne hne _ _
    obtain ⟨hin, hout, hready⟩ := ih (update indegree a (some (count n)))
      (if n = 0 then ready ++ [a] else ready) hnodup (by
        intro x hx
        rw [hother x hx]
        exact hw x (mem_cons_of_mem _ hx))
    refine ⟨?_, ?_, ?_⟩
    · intro x hx
      rcases mem_cons.1 hx with rfl | hx
      · rw [hout _ hnotin, update_self, hn, Nat.add_sub_cancel]
      · exact hin x hx
    · intro x hx
      rw [mem_cons, not_or] at hx
      rw [hout x hx.2, update_of_ne hx.1]
    · intro x
      rw [hready x, mem_cons]
      split_ifs with hzero
      · rw [mem_append, mem_singleton]
        constructor
        · rintro ((hx | rfl) | hx)
          · exact .inl hx
          · exact .inr ⟨.inl rfl, by omega⟩
          · exact .inr ⟨.inr hx.1, hx.2⟩
        · rintro (hx | ⟨rfl | hx, hone⟩)
          · exact .inl (.inl hx)
          · exact .inl (.inr rfl)
          · exact .inr ⟨hx, hone⟩
      · constructor
        · rintro (hx | hx)
          · exact .inl hx
          · exact .inr ⟨.inr hx.1, hx.2⟩
        · rintro (hx | ⟨rfl | hx, hone⟩)
          · exact .inl hx
          · omega
          · exact .inr ⟨hx, hone⟩

/-- The numbers of the successors of `next` are not zero. -/
theorem waiting_pos (hnodes : nodes.Nodup) (hnext : next? nodes succ placed = some next)
    (hx : x ∈ succ next) : 0 < waiting nodes succ placed x := by
  rw [waiting_concat hnodes (mem_of_next? hnext) (free_of_next? hnext).1, if_pos hx]
  omega

/-- One turn: `next` is placed, and its successors are released. -/
theorem Inv.step (h : Inv nodes succ count s) (hnodes : nodes.Nodup)
    (hsucc : ∀ y ∈ nodes, (succ y).Nodup ∧ succ y ⊆ nodes) (hrelease : Releases count release)
    (hnext : next? nodes succ s.ordered = some next) (hperm : succs.Perm (succ next)) :
    Inv nodes succ count
      { ready := (succs.foldl release (s.indegree, s.ready.filter (· ≠ next))).2
        ordered := s.ordered ++ [next]
        remaining := s.remaining.filter (· ≠ next)
        indegree := (succs.foldl release (s.indegree, s.ready.filter (· ≠ next))).1 } := by
  have hmem : next ∈ nodes := mem_of_next? hnext
  have hfree := free_of_next? hnext
  have hself : next ∉ succ next := not_mem_succ_of_free hmem hfree
  have hwaiting : ∀ x, waiting nodes succ s.ordered x =
      waiting nodes succ (s.ordered ++ [next]) x + if x ∈ succ next then 1 else 0 :=
    fun x => waiting_concat hnodes hmem hfree.1
  obtain ⟨hin, hout, hready⟩ := hrelease.foldl (waiting nodes succ s.ordered) s.indegree
    (s.ready.filter (· ≠ next)) (hperm.nodup_iff.2 (hsucc next hmem).1) (by
      intro x hx
      have hx : x ∈ succ next := hperm.mem_iff.1 hx
      exact ⟨h.indegree x ((hsucc next hmem).2 hx), waiting_pos hnodes hnext hx⟩)
  obtain ⟨hnodup, hsub⟩ := concat_next? h.nodup h.subset hnext
  refine ⟨hnodup, hsub, ?_, ?_, ?_, ?_, ?_⟩
  · intro x
    show x ∈ (succs.foldl release (s.indegree, s.ready.filter (· ≠ next))).2 ↔
      x ∈ nodes ∧ x ∉ s.ordered ++ [next] ∧ waiting nodes succ (s.ordered ++ [next]) x = 0
    rw [hready x, mem_filter, h.mem_ready, hperm.mem_iff, Free, hwaiting x, mem_append,
      mem_singleton, decide_eq_true_eq]
    by_cases hx : x ∈ succ next
    · have hne : x ≠ next := fun heq => hself (heq ▸ hx)
      -- what waits for `next` is not placed
      have hplaced : x ∉ s.ordered := by
        intro hx'
        have := h.waiting_ordered x hx'
        rw [hwaiting x, if_pos hx] at this
        omega
      simp [hx, hne, hplaced, (hsucc next hmem).2 hx]
    · simp [hx]
      tauto
  · intro x
    show x ∈ s.remaining.filter (· ≠ next) ↔ x ∈ nodes ∧ x ∉ s.ordered ++ [next]
    rw [mem_filter, h.mem_remaining, mem_append, mem_singleton, decide_eq_true_eq,
      not_or, and_assoc]
  · exact h.nodup_remaining.filter _
  · intro x hx
    show (succs.foldl release (s.indegree, s.ready.filter (· ≠ next))).1 x =
      some (count (waiting nodes succ (s.ordered ++ [next]) x))
    by_cases hs : x ∈ succ next
    · rw [hin x (hperm.mem_iff.2 hs), hwaiting x, if_pos hs, Nat.add_sub_cancel]
    · rw [hout x (fun hm => hs (hperm.mem_iff.1 hm)), h.indegree x hx, hwaiting x, if_neg hs,
        Nat.add_zero]
  · intro x hx
    show waiting nodes succ (s.ordered ++ [next]) x = 0
    have hold : waiting nodes succ s.ordered x = 0 := by
      rcases mem_append.1 hx with hx | hx
      · exact h.waiting_ordered x hx
      · exact mem_singleton.1 hx ▸ hfree.2
    rw [hwaiting x] at hold
    omega

/-- A loop whose body is such a turn places what `place` does. -/
theorem Inv.run (hbody : ∀ s next, Inv nodes succ count s → next? nodes succ s.ordered = some next →
      Inv nodes succ count (body s) ∧ (body s).ordered = s.ordered ++ [next])
    (h : Inv nodes succ count s) : Inv nodes succ count (Kahn.run body fuel s) ∧
      (Kahn.run body fuel s).ordered = place nodes succ fuel s.ordered := by
  induction fuel generalizing s with
  | zero => exact ⟨h, rfl⟩
  | succ fuel ih =>
    rw [Kahn.run, place_succ]
    cases hnext : next? nodes succ s.ordered with
    | none => rw [if_pos (h.ready_eq_nil_iff.2 hnext)]; exact ⟨h, rfl⟩
    | some next =>
      have hready : s.ready ≠ [] := by
        intro hnil
        rw [h.ready_eq_nil_iff.1 hnil] at hnext
        cases hnext
      obtain ⟨hinv, hordered⟩ := hbody s next h hnext
      rw [if_neg hready]
      obtain ⟨hinv', hplace⟩ := ih hinv
      exact ⟨hinv', by rw [hplace, hordered]⟩

/-! ## The choices of an implementation -/

section Rank

variable {β : Type*} [LinearOrder β] {rank : α → β}

section

variable (h : Inv nodes succ count s) (hrank : nodes.Pairwise fun a b => rank a < rank b)
include h hrank

/-- The least ready node is next. -/
theorem Inv.next?_eq (hx : x ∈ s.ready)
    (hle : ∀ y ∈ s.ready, rank x ≤ rank y) : next? nodes succ s.ordered = some x := by
  obtain ⟨hmem, hfree⟩ := (h.mem_ready x).1 hx
  obtain ⟨l, r, hsplit⟩ := append_of_mem hmem
  rw [next?, find?_eq_some_iff_append]
  refine ⟨decide_eq_true hfree, l, r, hsplit, ?_⟩
  intro y hy
  rw [Bool.not_eq_true', decide_eq_false_iff_not]
  intro hfree'
  have hy' : y ∈ nodes := hsplit ▸ mem_append_left _ hy
  have hlt : rank y < rank x := by
    rw [hsplit, pairwise_append] at hrank
    exact hrank.2.2 y hy x mem_cons_self
  exact absurd (hle y ((h.mem_ready y).2 ⟨hy', hfree'⟩)) (not_le.2 hlt)

/-- The remainder, sorted. -/
theorem Inv.rest_eq (hperm : rest.Perm s.remaining)
    (hsorted : rest.Pairwise fun a b => rank a ≤ rank b) :
    rest = nodes.filter (· ∉ s.ordered) := by
  have hkeys : (nodes.map rank).Nodup := pairwise_map.2 (hrank.imp ne_of_lt)
  have hnodup : nodes.Nodup := Nodup.of_map rank hkeys
  have hperm' : rest.Perm (nodes.filter (· ∉ s.ordered)) := by
    apply hperm.trans
    rw [perm_ext_iff_of_nodup h.nodup_remaining (hnodup.filter _)]
    intro x
    rw [h.mem_remaining, mem_filter, decide_eq_true_eq]
  refine Perm.eq_of_pairwise ?_ hsorted ?_ hperm'
  · intro a b ha hb hab hba
    have hb := (mem_filter.1 hb).1
    have ha := (mem_filter.1 (hperm'.mem_iff.1 ha)).1
    exact inj_on_of_nodup_map hkeys ha hb (le_antisymm hab hba)
  · exact (hrank.imp le_of_lt).filter _

/-- The whole order. -/
theorem Inv.append_rest (hperm : rest.Perm s.remaining)
    (hsorted : rest.Pairwise fun a b => rank a ≤ rank b)
    (hplaced : s.ordered = place nodes succ nodes.length []) :
    s.ordered ++ rest = order nodes succ := by
  rw [h.rest_eq hrank hperm hsorted, hplaced]
  rfl

end

end Rank

end VibeKanban.Lib.Kahn
