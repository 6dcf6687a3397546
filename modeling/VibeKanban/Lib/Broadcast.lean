import Mathlib

/-!
# Bounded broadcast channels

A broadcast channel keeps the last `capacity` values that were sent. A receiver that falls behind is
told how many values it has missed and goes on with the oldest one.

A channel is modelled by everything that was sent.

* `exact`: a receiver gets every value that it was not told to have missed.
-/

namespace VibeKanban.Lib

open List

namespace Broadcast

variable {α : Type*} {n : ℕ}

/-! ## Channels -/

structure Channel (α : Type*) where
  capacity : ℕ
  sent : List α

def nextPowerOfTwo (n : ℕ) : ℕ := if n ≤ 1 then 1 else 2 ^ ((n - 1).log2 + 1)

theorem nextPowerOfTwo_pos : 0 < nextPowerOfTwo n := by
  unfold nextPowerOfTwo
  split_ifs
  · exact Nat.one_pos
  · exact Nat.two_pow_pos _

/-- The library rounds the capacity up to a power of two. -/
def channel (capacity : ℕ) : Channel α := ⟨nextPowerOfTwo capacity, []⟩

def Channel.send (c : Channel α) (v : α) : Channel α := { c with sent := c.sent ++ [v] }

/-- The position of a new receiver. -/
def Channel.subscribe (c : Channel α) : ℕ := c.sent.length

/-- What a receiver gets. -/
inductive Item (α : Type*) where
  | ok (v : α)
  | lagged (n : ℕ)

/-- The position of the oldest value that the channel still keeps. -/
def Channel.oldest (c : Channel α) : ℕ := c.sent.length - c.capacity

/-- The next item for a receiver at the position `next`, with its new position; `none` when
    there is nothing to receive. -/
def Channel.recv (c : Channel α) (next : ℕ) : Option (Item α × ℕ) :=
  if next < c.oldest then some (.lagged (c.oldest - next), c.oldest)
  else (c.sent[next]?).map fun v => (.ok v, next + 1)

variable {c : Channel α} {next next' : ℕ} {item : Item α}

theorem recv_spec (h : c.recv next = some (item, next')) :
    (∃ v, item = .ok v ∧ c.sent[next]? = some v ∧ next' = next + 1) ∨
      (∃ n, item = .lagged n ∧ 0 < n ∧ next' = next + n ∧ next' ≤ c.sent.length) := by
  unfold Channel.recv at h
  split_ifs at h with hlag
  · cases h
    have hle : c.oldest ≤ c.sent.length := Nat.sub_le _ _
    exact .inr ⟨_, rfl, by omega, by omega, hle⟩
  · obtain ⟨v, hv, heq⟩ := Option.map_eq_some_iff.1 h
    cases heq
    exact .inl ⟨v, rfl, hv, rfl⟩

/-- A receiver that gets nothing has reached the end. -/
theorem length_le_of_recv_eq_none (h : c.recv next = none) : c.sent.length ≤ next := by
  unfold Channel.recv at h
  by_cases hlag : next < c.oldest
  · rw [if_pos hlag] at h
    cases h
  · rw [if_neg hlag, Option.map_eq_none_iff] at h
    exact getElem?_eq_none_iff.1 h

/-- One value more than the channel keeps: the first one is lost, the second one is there. -/
theorem recv_overflow (capacity : ℕ) (hpos : 0 < capacity) (v : α) :
    (Channel.mk capacity (replicate (capacity + 1) v)).recv 0 = some (.lagged 1, 1) ∧
    (Channel.mk capacity (replicate (capacity + 1) v)).recv 1 = some (.ok v, 2) := by
  have holdest : (Channel.mk capacity (replicate (capacity + 1) v)).oldest = 1 := by
    rw [Channel.oldest, length_replicate, Nat.add_sub_cancel_left]
  unfold Channel.recv
  rw [holdest]
  refine ⟨if_pos Nat.one_pos, ?_⟩
  rw [if_neg (Nat.lt_irrefl 1), getElem?_replicate, if_pos (Nat.succ_lt_succ hpos)]
  rfl

/-! ## What was received -/

/-- The items, received in this order, go through the first `k` values of `expected`: a value is
    the next one, and a lag of `n` skips `n` of them. -/
inductive Follows (expected : List α) : List (Item α) → ℕ → Prop
  | start : Follows expected [] 0
  | ok {items : List (Item α)} {k : ℕ} {v : α} (h : Follows expected items k)
      (hv : expected[k]? = some v) : Follows expected (items ++ [.ok v]) (k + 1)
  | lagged {items : List (Item α)} {k n : ℕ} (h : Follows expected items k) (hpos : 0 < n)
      (hle : k + n ≤ expected.length) : Follows expected (items ++ [.lagged n]) (k + n)

namespace Follows

variable {expected : List α} {items : List (Item α)} {k : ℕ} {rest : List (Item α)}

section

variable (h : Follows expected items k)

include h

theorem le_length : k ≤ expected.length := by
  cases h with
  | start => exact Nat.zero_le _
  | ok h hv => exact (List.getElem?_eq_some_iff.1 hv).1
  | lagged h hpos hle => exact hle

theorem append (more : List α) : Follows (expected ++ more) items k := by
  induction h with
  | start => exact .start
  | ok h hv ih =>
    apply ih.ok
    rw [List.getElem?_append_left (List.getElem?_eq_some_iff.1 hv).1]
    exact hv
  | lagged h hpos hle ih =>
    apply ih.lagged hpos
    rw [length_append]
    omega

theorem lagged_pos (hn : Item.lagged n ∈ items) : 0 < n := by
  induction h with
  | start => cases hn
  | ok h hv ih =>
    rcases mem_append.1 hn with hn | hn
    · exact ih hn
    · cases mem_singleton.1 hn
  | lagged h hpos hle ih =>
    rcases mem_append.1 hn with hn | hn
    · exact ih hn
    · cases mem_singleton.1 hn
      exact hpos

theorem exact (hok : ∀ n, Item.lagged n ∉ items) : items = (expected.take k).map Item.ok := by
  induction h with
  | start => rfl
  | @ok items k v h hv ih =>
    have hitems := ih fun n hn => hok n (mem_append_left _ hn)
    rw [take_add_one, hv, map_append, ← hitems]
    rfl
  | lagged h hpos hle ih =>
    exact absurd (mem_append_right _ (mem_singleton_self _)) (hok _)

theorem length_eq (hok : ∀ n, Item.lagged n ∉ items) : k = items.length := by
  rw [h.exact hok, length_map, length_take, Nat.min_eq_left h.le_length]

end

/-- What a part of the items goes through. -/
theorem of_append (h : Follows expected (items ++ rest) k) : ∃ j ≤ k, Follows expected items j := by
  induction rest using reverseRecOn generalizing k with
  | nil =>
    rw [append_nil] at h
    exact ⟨k, Nat.le_refl k, h⟩
  | append_singleton rest item ih =>
    rw [← append_assoc] at h
    generalize hall : items ++ rest ++ [item] = all at h
    cases h with
    | start => simp at hall
    | ok h hv | lagged h hpos hle =>
      obtain ⟨hinit, -⟩ := append_inj' hall rfl
      obtain ⟨j, hj, hf⟩ := ih (hinit ▸ h)
      exact ⟨j, by omega, hf⟩

theorem exact_before
    (h : Follows expected (items ++ .lagged n :: rest) k) (hok : ∀ n, Item.lagged n ∉ items) :
    items = (expected.take items.length).map Item.ok := by
  obtain ⟨j, -, hf⟩ := h.of_append
  rw [← hf.length_eq hok]
  exact hf.exact hok

end Follows

end Broadcast

end VibeKanban.Lib
