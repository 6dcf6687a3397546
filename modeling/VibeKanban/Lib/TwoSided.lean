import Mathlib

/-!
# Fields kept on two sides

The history of a field that users set on either side and that something else copies from one side to
the other, newest first. The base of a field is what the two sides last held in common
(`base_of_since`): the values on which they agreed, or a value and its copy.
-/

namespace VibeKanban.Lib

open List

variable {α β : Type*}

inductive FieldEvent (α β : Type*) where
  /-- A user sets the left side. -/
  | setLeft (a : α)
  | setRight (b : β)
  /-- The right side, `b`, is copied to the left side, where it is `a`. -/
  | copiedLeft (a : α) (b : β)
  | copiedRight (a : α) (b : β)
  /-- The sides agree. -/
  | agreed (a : α) (b : β)
  deriving DecidableEq

namespace FieldEvent

def isSet : FieldEvent α β → Bool
  | setLeft _ | setRight _ => true
  | _ => false

def isAgreed : FieldEvent α β → Bool
  | agreed .. => true
  | _ => false

def swap : FieldEvent α β → FieldEvent β α
  | setLeft a => setRight a
  | setRight b => setLeft b
  | copiedLeft a b => copiedRight b a
  | copiedRight a b => copiedLeft b a
  | agreed a b => agreed b a

end FieldEvent

/-- A history. -/
structure FieldLog (α β : Type*) where
  start : α × β
  /-- The newest event comes first. -/
  events : List (FieldEvent α β)

namespace FieldLog

def leftOf (start : α) : List (FieldEvent α β) → α
  | [] => start
  | .setLeft a :: _ | .copiedLeft a _ :: _ | .agreed a _ :: _ => a
  | .setRight _ :: es | .copiedRight _ _ :: es => leftOf start es

def baseOf (start : α × β) : List (FieldEvent α β) → α × β
  | [] => start
  | .copiedLeft a b :: _ | .copiedRight a b :: _ | .agreed a b :: _ => (a, b)
  | .setLeft _ :: es | .setRight _ :: es => baseOf start es

variable (log : FieldLog α β)

/-- The history seen from the other side. -/
def swap : FieldLog β α := ⟨log.start.swap, log.events.map FieldEvent.swap⟩

/-- What the left side holds. -/
def left : α := leftOf log.start.1 log.events

def right : β := log.swap.left

/-- What the sides last held in common. -/
def base : α × β := baseOf log.start log.events

/-- The user of the left side has set `a` since the sides last agreed. -/
def SetSinceLeft (a : α) : Prop := .setLeft a ∈ log.events.takeWhile fun e => !e.isAgreed

def SetSinceRight (b : β) : Prop := log.swap.SetSinceLeft b

/-- Only users have set the field since the history was `seen`. -/
def Since (seen : FieldLog α β) : Prop :=
  log.start = seen.start ∧ ∃ new, (∀ e ∈ new, FieldEvent.isSet e = true) ∧
    log.events = new ++ seen.events

/-- The history goes on from `seen`. -/
def From (seen : FieldLog α β) : Prop := log.start = seen.start ∧ seen.events <:+ log.events

def push (e : FieldEvent α β) : FieldLog α β := { log with events := e :: log.events }

/-- An event, and the agreement if there is one after it. -/
def record (agree : α → β → Bool) (e : FieldEvent α β) : FieldLog α β :=
  let log' := log.push e
  if agree log'.left log'.right then log'.push (.agreed log'.left log'.right) else log'

/-- The right side becomes `b`, copied from `a`; a copy that changes nothing is no event. -/
def copyRight [DecidableEq β] (agree : α → β → Bool) (a : α) (b : β) : FieldLog α β :=
  if log.right = b then log else log.record agree (.copiedRight a b)

def copyLeft [DecidableEq α] (agree : α → β → Bool) (a : α) (b : β) : FieldLog α β :=
  if log.left = a then log else log.record agree (.copiedLeft a b)

/-- A side that has moved from the base holds what its user has set since the sides last agreed. -/
structure Moved : Prop where
  left : log.left ≠ log.base.1 → log.SetSinceLeft log.left
  right : log.right ≠ log.base.2 → log.SetSinceRight log.right

/-- It was so all along. -/
def Sound : Prop := ∀ seen, log.From seen → seen.Moved

/-! ## The two sides -/

variable {log} {seen mid : FieldLog α β} {e : FieldEvent α β} {a a' : α} {b b' : β}

@[simp] theorem swap_swap : log.swap.swap = log := by
  have h : FieldEvent.swap ∘ FieldEvent.swap = (id : FieldEvent α β → FieldEvent α β) := by
    funext e
    cases e <;> rfl
  show (⟨log.start.swap.swap, (log.events.map FieldEvent.swap).map FieldEvent.swap⟩ :
    FieldLog α β) = log
  rw [map_map, h, map_id, Prod.swap_swap]

@[simp] theorem left_swap : log.swap.left = log.right := rfl

@[simp] theorem right_swap : log.swap.right = log.left := by rw [right, swap_swap]

theorem push_swap : (log.push e).swap = log.swap.push e.swap := rfl

@[simp] theorem base_swap : log.swap.base = log.base.swap := by
  obtain ⟨start, events⟩ := log
  show baseOf start.swap (events.map FieldEvent.swap) = (baseOf start events).swap
  induction events with
  | nil => rfl
  | cons e events ih => cases e <;> first | rfl | exact ih

theorem setSinceRight_swap : log.swap.SetSinceRight a ↔ log.SetSinceLeft a := by
  rw [SetSinceRight, swap_swap]

theorem From.swap (h : log.From seen) : log.swap.From seen.swap :=
  ⟨congrArg Prod.swap h.1, h.2.map _⟩

theorem Since.swap (h : log.Since seen) : log.swap.Since seen.swap := by
  obtain ⟨hstart, new, hset, hevents⟩ := h
  refine ⟨congrArg Prod.swap hstart, new.map FieldEvent.swap, ?_, ?_⟩
  · intro e he
    obtain ⟨e', he', rfl⟩ := mem_map.1 he
    have hset' := hset e' he'
    cases e' <;> first | rfl | exact hset'
  · show log.events.map _ = _ ++ seen.events.map _
    rw [hevents, map_append]

theorem Moved.swap (h : log.Moved) : log.swap.Moved where
  left := by
    rw [base_swap]
    exact h.right
  right := by
    rw [base_swap, right_swap, setSinceRight_swap]
    exact h.left

theorem Sound.swap (h : log.Sound) : log.swap.Sound := by
  intro seen hfrom
  have hseen := h seen.swap (by simpa using hfrom.swap)
  simpa using hseen.swap

/-! ## Events -/

theorem From.refl (log : FieldLog α β) : log.From log := ⟨rfl, suffix_refl _⟩

theorem From.push (h : log.From seen) : (log.push e).From seen :=
  ⟨h.1, h.2.trans (suffix_cons e _)⟩

theorem From.trans {log' : FieldLog α β} (h : log'.From log) (h' : log.From seen) :
    log'.From seen :=
  ⟨h.1.trans h'.1, h'.2.trans h.2⟩

theorem Since.from (h : log.Since seen) : log.From seen := by
  obtain ⟨hstart, new, _, hevents⟩ := h
  exact ⟨hstart, hevents ▸ suffix_append new _⟩

/-- A history before the event, or the new one. -/
theorem From.of_push (h : (log.push e).From seen) : seen = log.push e ∨ log.From seen := by
  obtain ⟨hstart, hsuffix⟩ := h
  rcases suffix_cons_iff.1 hsuffix with heq | hold
  · left
    obtain ⟨start, events⟩ := seen
    cases hstart
    cases heq
    rfl
  · exact .inr ⟨hstart, hold⟩

theorem Sound.push (h : log.Sound) (hnew : (log.push e).Moved) : (log.push e).Sound := by
  intro seen hfrom
  rcases hfrom.of_push with rfl | hold
  · exact hnew
  · exact h seen hold

theorem Sound.of_from (h : log.Sound) (hfrom : log.From seen) : seen.Sound :=
  fun _ hseen => h _ (hfrom.trans hseen)

theorem Sound.moved (h : log.Sound) : log.Moved := h log (.refl log)

/-- A base that both sides hold. -/
theorem Moved.of_base (hl : log.left = log.base.1) (hr : log.right = log.base.2) : log.Moved :=
  ⟨fun hne => absurd hl hne, fun hne => absurd hr hne⟩

theorem setSinceLeft_push (he : e.isAgreed = false) (h : log.SetSinceLeft a) :
    (log.push e).SetSinceLeft a := by
  show _ ∈ (e :: log.events).takeWhile _
  rw [takeWhile_cons_of_pos (by simp [he])]
  exact mem_cons_of_mem e h

theorem setSinceLeft_set : (log.push (.setLeft a)).SetSinceLeft a := by
  show _ ∈ (_ :: log.events).takeWhile _
  exact mem_cons_self

/-! ## Users set the field -/

theorem Moved.setLeft (h : log.Moved) : (log.push (.setLeft a)).Moved where
  left _ := setSinceLeft_set
  right hne := setSinceLeft_push rfl (h.right hne)

theorem Sound.setLeft (h : log.Sound) : (log.push (.setLeft a)).Sound := h.push h.moved.setLeft

theorem Sound.agreed (h : log.Sound) : (log.push (.agreed a b)).Sound := h.push (.of_base rfl rfl)

/-! ## What users have set meanwhile -/

section

variable (h : log.Since seen)
include h

theorem base_of_since : log.base = seen.base := by
  obtain ⟨start, events⟩ := log
  obtain ⟨rfl, new, hset, hevents⟩ := h
  cases hevents
  show baseOf seen.start (new ++ seen.events) = baseOf seen.start seen.events
  induction new with
  | nil => rfl
  | cons e new ih =>
    have hrest := ih fun e' he' => hset e' (mem_cons_of_mem e he')
    have he := hset e mem_cons_self
    cases e <;> first | exact hrest | cases he

theorem Since.of_from (hmid : log.From mid) (hseen : mid.From seen) :
    log.Since mid ∧ mid.Since seen := by
  obtain ⟨hstart, new, hset, hevents⟩ := h
  obtain ⟨hstart', n1, hn1⟩ := hmid
  obtain ⟨hstart'', n2, hn2⟩ := hseen
  have hnew : new = n1 ++ n2 := by
    apply (append_left_inj seen.events).1
    rw [← hevents, ← hn1, ← hn2, append_assoc]
  rw [hnew] at hset
  exact ⟨⟨hstart', n1, fun e he => hset e (mem_append_left n2 he), hn1.symm⟩,
    ⟨hstart'', n2, fun e he => hset e (mem_append_right n1 he), hn2.symm⟩⟩

theorem setSinceLeft_of_since (ha : seen.SetSinceLeft a) : log.SetSinceLeft a := by
  obtain ⟨_, new, hset, hevents⟩ := h
  have hall : ∀ e ∈ new, (!FieldEvent.isAgreed e) = true := by
    intro e he
    have hse := hset e he
    cases e <;> first | rfl | cases hse
  show _ ∈ log.events.takeWhile _
  rw [hevents, takeWhile_append_of_pos hall]
  exact mem_append_right new ha

/-- What the side holds is what it held, or its user has set it. -/
theorem left_of_since : log.left = seen.left ∨ log.SetSinceLeft log.left := by
  obtain ⟨start, events⟩ := log
  obtain ⟨rfl, new, hset, hevents⟩ := h
  cases hevents
  induction new with
  | nil => exact .inl rfl
  | cons e new ih =>
    have he := hset e mem_cons_self
    cases e with
    | setLeft a =>
      right
      show (push ⟨seen.start, new ++ seen.events⟩ (.setLeft a)).SetSinceLeft a
      exact setSinceLeft_set
    | setRight b =>
      rcases ih fun e' he' => hset e' (mem_cons_of_mem _ he') with heq | hset'
      · exact .inl heq
      · right
        show (push ⟨seen.start, new ++ seen.events⟩ (.setRight b)).SetSinceLeft _
        exact setSinceLeft_push rfl hset'
    | _ => cases he

end

/-- A value that was read when the side had moved, or later, and that is undisturbed since. -/
theorem Sound.setSince_left (h : log.Sound) (hs : log.Since seen) (hmid : log.From mid)
    (hseen : mid.From seen) (hne : seen.left ≠ log.base.1) : log.SetSinceLeft mid.left := by
  obtain ⟨hs1, hs2⟩ := hs.of_from hmid hseen
  refine setSinceLeft_of_since hs1 ?_
  rcases left_of_since hs2 with heq | hset
  · rw [base_of_since hs] at hne
    rw [heq]
    exact setSinceLeft_of_since hs2 ((h.of_from hs.from).moved.left hne)
  · exact hset

/-! ## Copies -/

section

variable (h : log.Sound)
include h

/-- The left side, as it was read at `mid`, is copied to the right side. -/
theorem Sound.copiedRight (hs : log.Since mid) : (log.push (.copiedRight mid.left b)).Sound := by
  refine h.push ⟨fun hne => setSinceLeft_push rfl ?_, fun hne => absurd rfl hne⟩
  exact (left_of_since hs).resolve_left hne

theorem Sound.copiedLeft (hs : log.Since mid) : (log.push (.copiedLeft a mid.right)).Sound := by
  have hswap := h.swap.copiedRight (b := a) hs.swap
  simpa [push_swap, FieldEvent.swap] using hswap.swap

theorem Sound.setRight : (log.push (.setRight b)).Sound := by
  have hswap := h.swap.setLeft (a := b)
  simpa [push_swap, FieldEvent.swap] using hswap.swap

theorem Sound.setSince_right (hs : log.Since seen) (hmid : log.From mid)
    (hseen : mid.From seen) (hne : seen.right ≠ log.base.2) : log.SetSinceRight mid.right := by
  have hswap := h.swap.setSince_left hs.swap hmid.swap hseen.swap (by simpa using hne)
  exact hswap

end

/-! ## Agreements -/

section Record

variable {agree : α → β → Bool}

theorem Sound.record (h : (log.push e).Sound) : (log.record agree e).Sound := by
  unfold FieldLog.record
  simp only
  split
  · exact h.agreed
  · exact h

theorem left_record : (log.record agree e).left = (log.push e).left := by
  unfold record
  simp only
  split <;> rfl

theorem right_record : (log.record agree e).right = (log.push e).right := by
  unfold record
  simp only
  split <;> rfl

theorem From.record (h : log.From seen) : (log.record agree e).From seen := by
  unfold FieldLog.record
  simp only
  split
  · exact h.push.push
  · exact h.push

theorem From.copyRight [DecidableEq β] (h : log.From seen) :
    (log.copyRight agree a b).From seen := by
  unfold FieldLog.copyRight
  split
  · exact h
  · exact h.record

theorem From.copyLeft [DecidableEq α] (h : log.From seen) : (log.copyLeft agree a b).From seen := by
  unfold FieldLog.copyLeft
  split
  · exact h
  · exact h.record

@[simp] theorem left_copyRight [DecidableEq β] : (log.copyRight agree a b).left = log.left := by
  unfold copyRight
  split
  · rfl
  · exact left_record

@[simp] theorem right_copyRight [DecidableEq β] : (log.copyRight agree a b).right = b := by
  unfold copyRight
  split
  · assumption
  · exact right_record

@[simp] theorem left_copyLeft [DecidableEq α] : (log.copyLeft agree a b).left = a := by
  unfold copyLeft
  split
  · assumption
  · exact left_record

@[simp] theorem right_copyLeft [DecidableEq α] : (log.copyLeft agree a b).right = log.right := by
  unfold copyLeft
  split
  · rfl
  · exact right_record

/-- A copy of the left side as it was read at `mid`, if it changes anything. -/
theorem Sound.copyRight [DecidableEq β] (h : log.Sound) (hs : log.right ≠ b → log.Since mid) :
    (log.copyRight agree mid.left b).Sound := by
  unfold FieldLog.copyRight
  split
  · exact h
  · exact (h.copiedRight (hs ‹_›)).record

theorem Sound.copyLeft [DecidableEq α] (h : log.Sound) (hs : log.left ≠ a → log.Since mid) :
    (log.copyLeft agree a mid.right).Sound := by
  unfold FieldLog.copyLeft
  split
  · exact h
  · exact (h.copiedLeft (hs ‹_›)).record

end Record

/-! ## Tests -/

instance [DecidableEq α] [DecidableEq β] (log seen : FieldLog α β) : Decidable (log.Since seen) :=
  decidable_of_iff (log.start = seen.start ∧
    (log.events.take (log.events.length - seen.events.length)).all FieldEvent.isSet = true ∧
      log.events.drop (log.events.length - seen.events.length) = seen.events) <| by
    constructor
    · rintro ⟨hstart, hall, hdrop⟩
      refine ⟨hstart, _, List.all_eq_true.1 hall, ?_⟩
      exact (List.take_append_drop _ _).symm.trans (congrArg (_ ++ ·) hdrop)
    · rintro ⟨hstart, new, hset, hevents⟩
      have hlength : log.events.length - seen.events.length = new.length := by
        rw [hevents, List.length_append]
        omega
      rw [hlength, hevents]
      refine ⟨hstart, ?_, List.drop_left⟩
      rw [List.take_left]
      exact List.all_eq_true.2 hset

instance [DecidableEq α] [DecidableEq β] (log : FieldLog α β) (a : α) :
    Decidable (log.SetSinceLeft a) :=
  inferInstanceAs (Decidable (_ ∈ _))

end FieldLog

end VibeKanban.Lib
