import VibeKanban.Auth.Sessions
import VibeKanban.Delivery.Prompt
import VibeKanban.Lib.Table

/-!
# The outbox of background subtasks (`db/src/models/background_subtask.rs`, lines 8-92)

The statements on `background_subtasks`. The rows stand in the order of their insertion, newest
first; `registeredAt` is the time of the insertion, which is not in the source. Times are in
microseconds.

* `Sound.register`, `Sound.changed`: every statement keeps the limits of a parent.
-/

namespace VibeKanban.Subtasks

open Lib List
open Auth (Uuid Instant)
open Delivery (Text)

def hour : ℤ := 3600 * 1000000

structure BackgroundSubtask where
  childWorkspaceId : Uuid
  childIssueId : Uuid
  childProjectId : Uuid
  parentWorkspaceId : Uuid
  parentSessionId : Uuid
  parentIssueId : Uuid
  notificationId : Uuid
  hopCount : ℤ
  outcome : Option Text
  handedOffAt : Option Instant
  lastError : Option Text
  createdAt : Instant
  registeredAt : Instant
  deriving DecidableEq

abbrev Rows := List BackgroundSubtask

namespace BackgroundSubtask

def pendingOf (parent : Uuid) (row : BackgroundSubtask) : Bool :=
  row.parentWorkspaceId = parent && row.handedOffAt.isNone

end BackgroundSubtask

namespace Rows

/-- `for_issue` (lines 24-29). -/
def forIssue (rows : Rows) (issue : Uuid) : Option BackgroundSubtask :=
  rows.find? (·.childIssueId = issue)

/-- The `WHERE` of the insertion in `register` (lines 37-40). -/
def admits (rows : Rows) (row : BackgroundSubtask) (since : Instant) : Bool :=
  rows.countP (·.pendingOf row.parentWorkspaceId) < 5 && rows.countP (since ≤ ·.createdAt) < 20 &&
    !rows.any (·.childWorkspaceId = row.parentWorkspaceId)

/-- A unique column of the new row is taken. -/
def conflicts (rows : Rows) (row : BackgroundSubtask) : Bool :=
  rows.any fun r => r.childIssueId = row.childIssueId ||
    r.childWorkspaceId = row.childWorkspaceId || r.notificationId = row.notificationId

/-- The columns that `register` does not bind are `NULL`. -/
def inserted (row : BackgroundSubtask) (now : Instant) : BackgroundSubtask :=
  { row with outcome := none, handedOffAt := none, lastError := none, registeredAt := now }

/-- `register` (lines 32-61), with the time from which rows count against the rate. A conflict on
    the issue does nothing, and one on another unique column is an error. -/
def register (rows : Rows) (row : BackgroundSubtask) (since now : Instant) : Rows :=
  if rows.admits row since ∧ rows.conflicts row = false then inserted row now :: rows else rows

/-- `pending` (lines 63-69): the order of rows of the same time is the database's. -/
def IsPending (rows pending : Rows) : Prop :=
  pending.Perm (rows.filter (·.handedOffAt.isNone)) ∧
    pending.Pairwise fun a b => a.createdAt ≤ b.createdAt
  deriving Decidable

/-- `record_outcome` (lines 71-79). -/
def recordOutcome (rows : Rows) (child : Uuid) (outcome : Text) : Rows :=
  update (fun row => row.childWorkspaceId = child && row.outcome.isNone)
    (fun row => { row with outcome := some outcome }) rows

/-- `hand_off` (lines 81-85). -/
def handOff (rows : Rows) (child : Uuid) (now : Instant) : Rows :=
  update (·.childWorkspaceId = child)
    (fun row => { row with handedOffAt := some now, lastError := none }) rows

/-- `record_error` (lines 87-94). -/
def recordError (rows : Rows) (child : Uuid) (error : Text) : Rows :=
  update (·.childWorkspaceId = child) (fun row => { row with lastError := some error }) rows

end Rows

/-! ## What the statements leave of a row -/

/-- The two are states of one row, the second a later one. -/
structure Keeps (row later : BackgroundSubtask) : Prop where
  childWorkspaceId : later.childWorkspaceId = row.childWorkspaceId
  childIssueId : later.childIssueId = row.childIssueId
  parentWorkspaceId : later.parentWorkspaceId = row.parentWorkspaceId
  parentSessionId : later.parentSessionId = row.parentSessionId
  parentIssueId : later.parentIssueId = row.parentIssueId
  notificationId : later.notificationId = row.notificationId
  hopCount : later.hopCount = row.hopCount
  createdAt : later.createdAt = row.createdAt
  registeredAt : later.registeredAt = row.registeredAt
  outcome : ∀ text, row.outcome = some text → later.outcome = some text
  handedOff : row.handedOffAt.isSome → later.handedOffAt.isSome

theorem Keeps.refl (row : BackgroundSubtask) : Keeps row row :=
  ⟨rfl, rfl, rfl, rfl, rfl, rfl, rfl, rfl, rfl, fun _ h => h, fun h => h⟩

theorem Keeps.trans {a b c : BackgroundSubtask} (hab : Keeps a b) (hbc : Keeps b c) :
    Keeps a c where
  childWorkspaceId := hbc.childWorkspaceId.trans hab.childWorkspaceId
  childIssueId := hbc.childIssueId.trans hab.childIssueId
  parentWorkspaceId := hbc.parentWorkspaceId.trans hab.parentWorkspaceId
  parentSessionId := hbc.parentSessionId.trans hab.parentSessionId
  parentIssueId := hbc.parentIssueId.trans hab.parentIssueId
  notificationId := hbc.notificationId.trans hab.notificationId
  hopCount := hbc.hopCount.trans hab.hopCount
  createdAt := hbc.createdAt.trans hab.createdAt
  registeredAt := hbc.registeredAt.trans hab.registeredAt
  outcome text h := hbc.outcome text (hab.outcome text h)
  handedOff h := hbc.handedOff (hab.handedOff h)

namespace Rows

variable {rows rows' : Rows} {row : BackgroundSubtask} {p : BackgroundSubtask → Bool}
  {f : BackgroundSubtask → BackgroundSubtask} {since now : Instant} {child : Uuid}

def Keeps (rows rows' : Rows) : Prop := ∀ row ∈ rows, ∃ later ∈ rows', Subtasks.Keeps row later

theorem Keeps.refl (rows : Rows) : rows.Keeps rows := fun row hrow => ⟨row, hrow, .refl row⟩

theorem Keeps.trans {rows'' : Rows} (h : rows.Keeps rows') (h' : rows'.Keeps rows'') :
    rows.Keeps rows'' := by
  intro row hrow
  obtain ⟨later, hlater, hkeeps⟩ := h row hrow
  obtain ⟨last, hlast, hkeeps'⟩ := h' later hlater
  exact ⟨last, hlast, hkeeps.trans hkeeps'⟩

/-- Some rows are changed into later states of theirs. -/
def Changed (rows rows' : Rows) : Prop :=
  ∃ p f, (∀ row, p row = true → Subtasks.Keeps row (f row)) ∧ rows' = update p f rows

theorem Changed.refl (rows : Rows) : rows.Changed rows :=
  ⟨fun _ => false, fun row => row, nofun, (update_eq_self fun _ _ => rfl).symm⟩

theorem Changed.keeps (h : rows.Changed rows') : rows.Keeps rows' := by
  obtain ⟨p, f, hkeeps, rfl⟩ := h
  exact exists_update_of_mem (P := Subtasks.Keeps) .refl hkeeps

theorem changed_recordOutcome (rows : Rows) (child : Uuid) (outcome : Text) :
    rows.Changed (rows.recordOutcome child outcome) := by
  refine ⟨_, _, fun row hp => ?_, rfl⟩
  obtain ⟨-, hnone⟩ := Bool.and_eq_true_iff.1 hp
  refine { Subtasks.Keeps.refl row with outcome := fun text htext => ?_ }
  rw [htext] at hnone
  cases hnone

theorem changed_handOff (rows : Rows) (child : Uuid) (now : Instant) :
    rows.Changed (rows.handOff child now) :=
  ⟨(·.childWorkspaceId = child), fun row => { row with handedOffAt := some now, lastError := none },
    fun row _ => { Subtasks.Keeps.refl row with handedOff := fun _ => rfl }, rfl⟩

theorem changed_recordError (rows : Rows) (child : Uuid) (error : Text) :
    rows.Changed (rows.recordError child error) :=
  ⟨(·.childWorkspaceId = child), fun row => { row with lastError := some error },
    fun row _ => { Subtasks.Keeps.refl row with }, rfl⟩

/-- Only `handOff` hands a row off. -/
theorem mem_recordOutcome {outcome : Text} (h : row ∈ rows.recordOutcome child outcome) :
    ∃ r ∈ rows, r.childWorkspaceId = row.childWorkspaceId ∧ r.handedOffAt = row.handedOffAt := by
  obtain ⟨r, hr, rfl⟩ := mem_update.1 h
  refine ⟨r, hr, ?_⟩
  split
  all_goals exact ⟨rfl, rfl⟩

theorem mem_recordError {error : Text} (h : row ∈ rows.recordError child error) :
    ∃ r ∈ rows, r.childWorkspaceId = row.childWorkspaceId ∧ r.handedOffAt = row.handedOffAt := by
  obtain ⟨r, hr, rfl⟩ := mem_update.1 h
  refine ⟨r, hr, ?_⟩
  split
  all_goals exact ⟨rfl, rfl⟩

theorem mem_handOff (h : row ∈ rows.handOff child now) :
    ∃ r ∈ rows, r.childWorkspaceId = row.childWorkspaceId ∧
      (r.childWorkspaceId = child ∨ r.handedOffAt = row.handedOffAt) := by
  obtain ⟨r, hr, rfl⟩ := mem_update.1 h
  refine ⟨r, hr, ?_⟩
  split
  · rename_i hp
    exact ⟨rfl, .inl (of_decide_eq_true hp)⟩
  · exact ⟨rfl, .inr rfl⟩

theorem register_cases (rows : Rows) (row : BackgroundSubtask) (since now : Instant) :
    rows.register row since now = rows ∨
      (rows.admits row since = true ∧ rows.conflicts row = false ∧
        rows.register row since now = inserted row now :: rows) := by
  unfold register
  split
  · rename_i h
    exact .inr ⟨h.1, h.2, rfl⟩
  · exact .inl rfl

theorem keeps_register (rows : Rows) (row : BackgroundSubtask) (since now : Instant) :
    rows.Keeps (rows.register row since now) := by
  rcases rows.register_cases row since now with heq | ⟨-, -, heq⟩ <;> rw [heq]
  · exact .refl rows
  · exact fun r hr => ⟨r, mem_cons_of_mem _ hr, .refl r⟩

/-! ## Unique keys and the fan-out -/

/-- What the statements keep of the table in every run. -/
structure Sound (rows : Rows) (now : Instant) : Prop where
  childWorkspace : Keyed (·.childWorkspaceId) rows
  childIssue : Keyed (·.childIssueId) rows
  fanout : ∀ parent, rows.countP (·.pendingOf parent) ≤ 5
  timely : ∀ row ∈ rows, row.registeredAt ≤ now
  ordered : rows.Pairwise fun newer older => older.registeredAt ≤ newer.registeredAt

theorem Sound.mono {now' : Instant} (h : rows.Sound now) (hle : now ≤ now') : rows.Sound now' :=
  { h with timely := fun row hrow => Int.le_trans (h.timely row hrow) hle }

theorem admits_iff : rows.admits row since = true ↔
    rows.countP (·.pendingOf row.parentWorkspaceId) < 5 ∧ rows.countP (since ≤ ·.createdAt) < 20 ∧
    ∀ r ∈ rows, r.childWorkspaceId ≠ row.parentWorkspaceId := by
  unfold admits
  rw [Bool.and_eq_true, Bool.and_eq_true, decide_eq_true_iff, decide_eq_true_iff, and_assoc,
    Bool.not_eq_true', any_eq_false]
  simp only [decide_eq_true_eq]

theorem conflicts_eq_false_iff : rows.conflicts row = false ↔
    ∀ r ∈ rows, r.childIssueId ≠ row.childIssueId ∧
      r.childWorkspaceId ≠ row.childWorkspaceId ∧ r.notificationId ≠ row.notificationId := by
  unfold conflicts
  rw [any_eq_false]
  simp only [Bool.or_eq_true, decide_eq_true_eq, not_or, and_assoc]

theorem Sound.register (h : rows.Sound now) (row : BackgroundSubtask) (since : Instant) :
    (rows.register row since now).Sound now := by
  rcases rows.register_cases row since now with heq | ⟨hadmits, hconflicts, heq⟩
  · rw [heq]
    exact h
  rw [heq]
  obtain ⟨hpending, -, -⟩ := admits_iff.1 hadmits
  have hnew := conflicts_eq_false_iff.1 hconflicts
  refine ⟨?_, ?_, fun parent => ?_, fun r hr => ?_, pairwise_cons.2 ⟨h.timely, h.ordered⟩⟩
  · refine nodup_cons.2 ⟨fun hmem => ?_, h.childWorkspace⟩
    obtain ⟨r, hr, hsame⟩ := mem_map.1 hmem
    exact (hnew r hr).2.1 hsame
  · refine nodup_cons.2 ⟨fun hmem => ?_, h.childIssue⟩
    obtain ⟨r, hr, hsame⟩ := mem_map.1 hmem
    exact (hnew r hr).1 hsame
  · by_cases hparent : row.parentWorkspaceId = parent
    · rw [countP_cons]
      split
      · rw [← hparent]
        exact hpending
      · exact h.fanout parent
    · rw [countP_cons_of_neg]
      · exact h.fanout parent
      · show ¬ (decide (row.parentWorkspaceId = parent) && true) = true
        rw [decide_eq_false hparent]
        exact Bool.false_ne_true
  · rcases mem_cons.1 hr with rfl | hr
    · exact Int.le_refl now
    · exact h.timely r hr

theorem countP_update_le {q : BackgroundSubtask → Bool}
    (h : ∀ row, p row = true → q (f row) = true → q row = true) :
    (update p f rows).countP q ≤ rows.countP q := by
  unfold update
  rw [countP_map]
  refine countP_mono_left fun row _ hq => ?_
  change q (if p row then f row else row) = true at hq
  split at hq
  · exact h row ‹_› hq
  · exact hq

theorem registeredAt_ite (h : ∀ row, p row = true → Subtasks.Keeps row (f row))
    (row : BackgroundSubtask) : (if p row then f row else row).registeredAt = row.registeredAt := by
  split
  · exact (h row ‹_›).registeredAt
  · rfl

theorem Sound.changed (h : rows.Sound now) (hchanged : rows.Changed rows') : rows'.Sound now := by
  obtain ⟨p, f, hkeeps, rfl⟩ := hchanged
  refine ⟨h.childWorkspace.update_of fun row hp => (hkeeps row hp).childWorkspaceId,
    h.childIssue.update_of fun row hp => (hkeeps row hp).childIssueId, fun parent => ?_, ?_, ?_⟩
  · refine (countP_update_le fun row hp hq => ?_).trans (h.fanout parent)
    unfold BackgroundSubtask.pendingOf at hq ⊢
    obtain ⟨hparent, hpending⟩ := Bool.and_eq_true_iff.1 hq
    rw [(hkeeps row hp).parentWorkspaceId] at hparent
    rw [hparent, Bool.true_and]
    by_contra hsome
    have hdone := (hkeeps row hp).handedOff (by
      rw [← Option.not_isNone, Bool.eq_false_iff.2 hsome]
      rfl)
    rw [← Option.not_isNone, hpending] at hdone
    cases hdone
  · refine forall_mem_update (fun row hrow hp => ?_) fun row hrow _ => h.timely row hrow
    rw [(hkeeps row hp).registeredAt]
    exact h.timely row hrow
  · refine pairwise_map.2 (h.ordered.imp fun hle => ?_)
    rw [registeredAt_ite hkeeps, registeredAt_ite hkeeps]
    exact hle

/-! ## Depth -/

def Flat (rows : Rows) : Prop := ∀ a ∈ rows, ∀ b ∈ rows, a.parentWorkspaceId ≠ b.childWorkspaceId

def ChildIsLeaf (rows : Rows) (row : BackgroundSubtask) : Prop :=
  row.parentWorkspaceId ≠ row.childWorkspaceId ∧
    ∀ r ∈ rows, r.parentWorkspaceId ≠ row.childWorkspaceId
  deriving Decidable

theorem flat_inserted_iff (h : rows.Flat) (hadmits : rows.admits row since = true) :
    Flat (inserted row now :: rows) ↔ rows.ChildIsLeaf row := by
  obtain ⟨-, -, hparent⟩ := admits_iff.1 hadmits
  constructor
  · intro hflat
    exact ⟨hflat (inserted row now) mem_cons_self (inserted row now) mem_cons_self,
      fun r hr => hflat r (mem_cons_of_mem _ hr) (inserted row now) mem_cons_self⟩
  · rintro ⟨hself, hleaf⟩ a ha b hb
    rcases mem_cons.1 ha with rfl | ha
    · rcases mem_cons.1 hb with rfl | hb
      · exact hself
      · exact (hparent b hb).symm
    · rcases mem_cons.1 hb with rfl | hb
      · exact hleaf a ha
      · exact h a ha b hb

theorem Flat.changed (h : rows.Flat) (hchanged : rows.Changed rows') : rows'.Flat := by
  obtain ⟨p, f, hkeeps, rfl⟩ := hchanged
  have hrow : ∀ r ∈ Lib.update p f rows, ∃ row ∈ rows, Subtasks.Keeps row r :=
    forall_mem_update (fun row hrow hp => ⟨row, hrow, hkeeps row hp⟩)
      fun row hrow _ => ⟨row, hrow, .refl row⟩
  intro a ha b hb
  obtain ⟨a', ha', hkeepsA⟩ := hrow a ha
  obtain ⟨b', hb', hkeepsB⟩ := hrow b hb
  rw [hkeepsA.parentWorkspaceId, hkeepsB.childWorkspaceId]
  exact h a' ha' b' hb'

/-! ## The rate -/

/-- Of the rows before any row fewer than twenty were inserted in the hour before it. -/
def Spaced : Rows → Prop
  | [] => True
  | row :: rows =>
    rows.countP (fun r => row.registeredAt - hour ≤ r.registeredAt) < 20 ∧ Spaced rows

/-- The check counts every row of the hour before the insertion. -/
def CountsHour (rows : Rows) (since now : Instant) : Prop :=
  ∀ r ∈ rows, now - hour ≤ r.registeredAt → since ≤ r.createdAt
  deriving Decidable

theorem Spaced.inserted (h : rows.Spaced) (hadmits : rows.admits row since = true)
    (hcounts : rows.CountsHour since now) : Spaced (inserted row now :: rows) := by
  obtain ⟨-, hrate, -⟩ := admits_iff.1 hadmits
  refine ⟨Nat.lt_of_le_of_lt (countP_mono_left fun r hr hlate => ?_) hrate, h⟩
  exact decide_eq_true (hcounts r hr (of_decide_eq_true hlate))

theorem Spaced.changed (h : rows.Spaced) (hchanged : rows.Changed rows') : rows'.Spaced := by
  obtain ⟨p, f, hkeeps, rfl⟩ := hchanged
  induction rows with
  | nil => trivial
  | cons row rows ih =>
    refine ⟨?_, ih h.2⟩
    show ((rows.map fun r => if p r then f r else r).countP _) < 20
    rw [countP_map, registeredAt_ite hkeeps]
    have hfun : ((fun r : BackgroundSubtask => decide (row.registeredAt - hour ≤ r.registeredAt)) ∘
        fun r => if p r then f r else r) =
        fun r => decide (row.registeredAt - hour ≤ r.registeredAt) := by
      funext r
      show decide (_ ≤ (if p r then f r else r).registeredAt) = _
      rw [registeredAt_ite hkeeps]
    rw [hfun]
    exact h.1

theorem Spaced.length_le (h : rows.Spaced)
    (hordered : rows.Pairwise fun newer older => older.registeredAt ≤ newer.registeredAt)
    (t : Instant) :
    (rows.filter fun r => t ≤ r.registeredAt ∧ r.registeredAt ≤ t + hour).length ≤ 20 := by
  induction rows with
  | nil => exact Nat.zero_le 20
  | cons row rows ih =>
    obtain ⟨hnewest, hrest⟩ := pairwise_cons.1 hordered
    rw [filter_cons]
    split
    · rename_i hrow
      obtain ⟨-, hlate⟩ := of_decide_eq_true hrow
      rw [length_cons, ← countP_eq_length_filter]
      refine Nat.succ_le_of_lt (Nat.lt_of_le_of_lt (countP_mono_left fun r hr hin => ?_) h.1)
      obtain ⟨hin, -⟩ := of_decide_eq_true hin
      exact decide_eq_true (Int.le_trans (Int.sub_right_le_of_le_add hlate) hin)
    · exact ih h.2 hrest

end Rows

end VibeKanban.Subtasks
