import VibeKanban.Workspaces.Archive

/-!
# Expired workspaces (`db/src/models/workspace.rs`, lines 586-648)

`find_expired_for_cleanup` is one statement: two left joins, one group for each workspace, and a
comparison of a shifted clock with the last use. `ORDER BY` is left out. The times are of the years
0 to 9999, whose texts are in the order of the times.

* `exact_iff`: when the answer is the one of the exact times.
-/

namespace VibeKanban.Workspaces

open Cluster List

/-! ## Rows -/

/-- A row of `workspaces`, as far as the statement looks at it. -/
structure ContainerRow extends Workspace where
  containerRef : Option String
  deriving DecidableEq

/-- A row of `sessions`. -/
structure SessionRow where
  id : Uuid
  workspaceId : Uuid

/-- A row of `execution_processes`. -/
structure ProcessRow where
  sessionId : Uuid
  completedAt : Option Stamp

structure Database where
  workspaces : List ContainerRow
  sessions : List SessionRow
  processes : List ProcessRow

variable (db : Database) (now : Instant) (offset : ℤ) (w : ContainerRow)

def Database.sessionsOf : List SessionRow := db.sessions.filter fun s => s.workspaceId = w.id

def Database.processesOf (s : SessionRow) : List ProcessRow :=
  db.processes.filter fun p => p.sessionId = s.id

/-! ## The statement -/

/-- A row without a match is joined with nulls. -/
def leftJoin {α : Type} (rows : List α) : List (Option α) :=
  if rows = [] then [none] else rows.map some

/-- `ep.completed_at` in the joined rows of a workspace. -/
def Database.joined : List (Option Stamp) :=
  (leftJoin (db.sessionsOf w)).flatMap fun session => match session with
    | none => [none]
    | some s => leftJoin ((db.processesOf s).filterMap ProcessRow.completedAt)

/-- `datetime` of a column cuts its time to seconds. -/
def datetime (t : Stamp) : ℤ := t.instant / 1000000000

/-- The seconds that a workspace is kept. -/
def ContainerRow.hold : ℤ := if w.archived then 3600 else 72 * 3600

/-- `datetime('now', 'localtime', …)`; the offset is that of the host, in seconds. -/
def expiryLimit : ℤ := now / 1000000000 + offset - w.hold

/-- `max` with two arguments is null if one of them is. -/
def scalarMax : Option ℤ → Option ℤ → Option ℤ
  | some a, some b => some (max a b)
  | _, _ => none

/-- `MAX` of a group passes over the nulls. -/
def aggregateMax (rows : List (Option ℤ)) : Option ℤ := rows.reduceOption.max?

/-- The condition of `HAVING`; a comparison with null does not hold. -/
def Database.having : Bool :=
  (aggregateMax ((db.joined w).map fun ep =>
    scalarMax (some (datetime w.updatedAt)) (ep.map datetime))).any fun lastUse =>
      lastUse < expiryLimit now offset w

def Database.running : List Uuid :=
  (db.sessions.filter fun s => (db.processesOf s).any fun p => p.completedAt = none).map
    SessionRow.workspaceId

def findExpiredForCleanup : List ContainerRow :=
  db.workspaces.filter fun w => w.containerRef.isSome && !w.worktreeDeleted &&
    w.id ∉ db.running && db.having now offset w

/-! ## What it is for -/

def Database.Completed (t : Stamp) : Prop :=
  ∃ s ∈ db.sessions, s.workspaceId = w.id ∧
    ∃ p ∈ db.processes, p.sessionId = s.id ∧ p.completedAt = some t

def Database.Idle : Prop :=
  w.containerRef.isSome ∧ w.worktreeDeleted = false ∧ ∀ s ∈ db.sessions, s.workspaceId = w.id →
    ∀ p ∈ db.processes, p.sessionId = s.id → p.completedAt ≠ none

/-- 72 hours ago, or one hour for an archived workspace. -/
def limit : ℤ := now - 1000000000 * w.hold

/-- The workspaces that are found are those that are idle and were not used since the limit. -/
def Exact : Prop :=
  ∀ w ∈ db.workspaces, w ∈ findExpiredForCleanup db now offset ↔
    db.Idle w ∧ w.updatedAt.instant < limit now w ∧
      ∀ t, db.Completed w t → t.instant < limit now w

/-- The update of the workspace, or the latest completion. -/
def Database.lastUse : ℤ :=
  ((db.joined w).reduceOption.map Stamp.instant).foldl max w.updatedAt.instant

/-- The limit moved by the offset of the host, at the beginning of a second. -/
def localLimit : ℤ := limit now w + 1000000000 * offset - now % 1000000000

/-! ## The answer -/

variable {db now offset w} {t : Stamp}

@[simp]
theorem mem_leftJoin {α : Type} {rows : List α} {a : α} : some a ∈ leftJoin rows ↔ a ∈ rows := by
  unfold leftJoin
  split_ifs with h
  · simp [h]
  · simp

theorem mem_joined : some t ∈ db.joined w ↔ db.Completed w t := by
  unfold Database.joined Database.Completed
  rw [mem_flatMap]
  constructor
  · rintro ⟨session, hsession, ht⟩
    cases session with
    | none => cases mem_singleton.1 ht
    | some s =>
      obtain ⟨p, hp, hcompleted⟩ := mem_filterMap.1 (mem_leftJoin.1 ht)
      obtain ⟨hs, hw⟩ := mem_filter.1 (mem_leftJoin.1 hsession)
      obtain ⟨hp, hof⟩ := mem_filter.1 hp
      exact ⟨s, hs, of_decide_eq_true hw, p, hp, of_decide_eq_true hof, hcompleted⟩
  · rintro ⟨s, hs, hw, p, hp, hof, hcompleted⟩
    refine ⟨some s, mem_leftJoin.2 (mem_filter.2 ⟨hs, decide_eq_true hw⟩), ?_⟩
    exact mem_leftJoin.2 (mem_filterMap.2 ⟨p, mem_filter.2 ⟨hp, decide_eq_true hof⟩, hcompleted⟩)

theorem aggregateMax_any {rows : List (Option ℤ)} {limit : ℤ} :
    (aggregateMax rows).any (· < limit) = true ↔
      (∃ x, some x ∈ rows) ∧ ∀ x, some x ∈ rows → x < limit := by
  simp only [aggregateMax, Option.any_eq_true, max?_eq_some_iff, decide_eq_true_eq,
    reduceOption_mem_iff]
  constructor
  · rintro ⟨m, ⟨hm, hle⟩, hlt⟩
    exact ⟨⟨m, hm⟩, fun x hx => (hle x hx).trans_lt hlt⟩
  · rintro ⟨⟨x, hx⟩, hlt⟩
    obtain ⟨m, hm⟩ := Option.isSome_iff_exists.1 (isSome_max?_of_mem (reduceOption_mem_iff.2 hx))
    obtain ⟨hmem, hle⟩ := max?_eq_some_iff.1 hm
    rw [reduceOption_mem_iff] at hmem
    exact ⟨m, ⟨hmem, fun y hy => hle y (reduceOption_mem_iff.2 hy)⟩, hlt m hmem⟩

theorem foldl_max_lt {xs : List ℤ} {a x : ℤ} : xs.foldl max a < x ↔ a < x ∧ ∀ b ∈ xs, b < x := by
  induction xs generalizing a with
  | nil => simp
  | cons b xs ih => simp [ih, and_assoc]

theorem lastUse_lt {x : Instant} : db.lastUse w < x ↔
    w.updatedAt.instant < x ∧ ∀ t, db.Completed w t → t.instant < x := by
  simp [Database.lastUse, foldl_max_lt, reduceOption_mem_iff, mem_joined]

theorem datetime_lt :
    datetime t < expiryLimit now offset w ↔ t.instant < localLimit now offset w := by
  have hlimit : localLimit now offset w = expiryLimit now offset w * 1000000000 := by
    unfold localLimit limit expiryLimit
    rw [Int.emod_def]
    ring
  rw [hlimit]
  exact Int.ediv_lt_iff_lt_mul (by decide)

theorem having_iff : db.having now offset w = true ↔
    (∃ t, db.Completed w t) ∧ db.lastUse w < localLimit now offset w := by
  have hrow (x : ℤ) : some x ∈ (db.joined w).map (fun ep =>
        scalarMax (some (datetime w.updatedAt)) (ep.map datetime)) ↔
      ∃ t, db.Completed w t ∧ max (datetime w.updatedAt) (datetime t) = x := by
    rw [mem_map]
    constructor
    · rintro ⟨ep, hep, heq⟩
      cases ep with
      | none => cases heq
      | some t => exact ⟨t, mem_joined.1 hep, Option.some.inj heq⟩
    · rintro ⟨t, ht, rfl⟩
      exact ⟨some t, mem_joined.2 ht, rfl⟩
  rw [Database.having, aggregateMax_any, lastUse_lt]
  simp only [hrow, ← datetime_lt]
  constructor
  · rintro ⟨⟨-, t, ht, -⟩, hlt⟩
    have hpast (t) (ht : db.Completed w t) := max_lt_iff.1 (hlt _ ⟨t, ht, rfl⟩)
    exact ⟨⟨t, ht⟩, (hpast t ht).1, fun t ht => (hpast t ht).2⟩
  · rintro ⟨⟨t, ht⟩, hupdated, hcompleted⟩
    refine ⟨⟨_, t, ht, rfl⟩, ?_⟩
    rintro - ⟨u, hu, rfl⟩
    exact max_lt hupdated (hcompleted u hu)

theorem notMem_running : w.id ∉ db.running ↔ ∀ s ∈ db.sessions, s.workspaceId = w.id →
    ∀ p ∈ db.processes, p.sessionId = s.id → p.completedAt ≠ none := by
  unfold Database.running Database.processesOf
  simp only [mem_map, mem_filter, any_filter, any_eq_true, not_exists, not_and, Bool.and_eq_true,
    decide_eq_true_eq, and_imp]
  grind

theorem mem_findExpiredForCleanup : w ∈ findExpiredForCleanup db now offset ↔
    w ∈ db.workspaces ∧ db.Idle w ∧ (∃ t, db.Completed w t) ∧
      db.lastUse w < localLimit now offset w := by
  rw [findExpiredForCleanup, mem_filter, Database.Idle, ← notMem_running, ← having_iff]
  simp only [Bool.and_eq_true, Bool.not_eq_true', decide_eq_true_eq, and_assoc]

/-- The answer is exact if and only if each idle workspace without a completed process was updated
    since the limit, and no other idle workspace was used last between the limit and the one moved
    by the offset. -/
theorem exact_iff (db : Database) (now : Instant) (offset : ℤ) : Exact db now offset ↔
    ∀ w ∈ db.workspaces, db.Idle w →
      ((∀ t, ¬ db.Completed w t) → limit now w ≤ w.updatedAt.instant) ∧
      ((∃ t, db.Completed w t) → db.lastUse w < min (limit now w) (localLimit now offset w) ∨
        max (limit now w) (localLimit now offset w) ≤ db.lastUse w) := by
  refine forall₂_congr fun w hw => ?_
  rw [mem_findExpiredForCleanup, and_iff_right hw, ← lastUse_lt]
  by_cases hidle : db.Idle w
  · by_cases hcompleted : ∃ t, db.Completed w t
    · have hnot : ¬ ∀ t, ¬ db.Completed w t := not_forall_not.2 hcompleted
      simp only [hidle, hcompleted, hnot, true_and, forall_const, false_implies]
      grind
    · have hnone := not_exists.1 hcompleted
      have hlast : db.lastUse w < limit now w ↔ w.updatedAt.instant < limit now w :=
        lastUse_lt.trans (and_iff_left fun t ht => absurd ht (hnone t))
      simp only [hidle, hcompleted, hlast, true_and, false_and, false_implies, and_true, false_iff,
        not_lt]
      exact ⟨fun h _ _ => h, fun h => h trivial hnone⟩
  · simp only [hidle, false_and, false_implies]

def sampleWorkspace : ContainerRow := ⟨⟨1, none, false, false, false, ⟨.utc, 0⟩⟩, some "c"⟩

/-- After a hundred hours a workspace that never ran a process is not found; one that completed a
    process is found after 71 hours, two hours east of UTC. -/
theorem not_exact : ¬ Exact ⟨[sampleWorkspace], [], []⟩ (100 * 3600 * 1000000000) 0 ∧
    ¬ Exact ⟨[sampleWorkspace], [⟨2, 1⟩], [⟨2, some ⟨.utc, 0⟩⟩]⟩ (71 * 3600 * 1000000000) 7200 := by
  constructor
  · intro h
    have hfound := (h sampleWorkspace mem_cons_self).2
      ⟨⟨rfl, rfl, nofun⟩, by decide, fun t ht => absurd ht (by simp [Database.Completed])⟩
    cases hfound
  · intro h
    have hfound := (h sampleWorkspace mem_cons_self).1 (by decide)
    exact absurd hfound.2.1 (by decide)

end VibeKanban.Workspaces
