import VibeKanban.Subtasks.Child

/-!
# The outbox of background subtasks (`server/src/background_subtasks.rs`, lines 190-342)

Any number of registrations and passes of the reconciler, child states that change at any time, and
restarts. Each statement is a step and may fail, or take effect and report an error;
`subtask_result` is a step of its own, and its calls are recorded. A registration stamps
`created_at`, takes the time for the rate and inserts in three steps.

* `outbox_laws`: five laws of all runs, and two of those whose insertions meet the condition.
-/

namespace VibeKanban.Subtasks

open Lib Option
open Auth (Uuid Instant)
open Coordinator (ExecutionProcessStatus)
open Delivery (Text)
open Function (update update_of_ne update_self)

/-! ## The calls -/

/-- A call of `subtask_result`, and whether it succeeded. -/
structure SubtaskResult where
  childWorkspaceId : Uuid
  issueId : Uuid
  sessionId : Uuid
  notificationId : Uuid
  message : Text
  hopCount : ℤ
  ok : Bool

structure World where
  rows : Rows
  children : Children
  results : List SubtaskResult
  nextId : Uuid

/-- How far a call has come; `rest` are the rows that a pass has still to reconcile. -/
inductive Call where
  | subscribed (row : BackgroundSubtask)
  | registering (row : BackgroundSubtask) (since : Instant)
  | listing
  | observing (row : BackgroundSubtask) (query : Query) (rest : Rows)
  | reading (row : BackgroundSubtask) (session turn : Uuid) (status : ExecutionProcessStatus)
      (branch : Text) (rest : Rows)
  | freezing (row : BackgroundSubtask) (message : Text) (rest : Rows)
  | rereading (row : BackgroundSubtask) (rest : Rows)
  | delivering (row : BackgroundSubtask) (message : Text) (rest : Rows)
  | handingOff (row : BackgroundSubtask) (rest : Rows)
  | reporting (row : BackgroundSubtask) (error : Text) (rest : Rows)
  | done
  deriving DecidableEq

/-- What becomes of a statement. -/
inductive Reply where
  | ok
  | failed (error : Text)
  /-- it takes effect, and the caller gets the error -/
  | lost (error : Text)

namespace Call

/-- `reconcile` of the next row begins (lines 248-254, 335). -/
def next : Rows → Call
  | [] => .done
  | row :: rest =>
    match row.outcome with
    | some message => .delivering row message rest
    | none => .observing row (.findWorkspace row.childWorkspaceId) rest

/-- What `outcome` makes of what has been observed (lines 203-227). -/
def conclude (display : Uuid → String) (children : Children) (row : BackgroundSubtask)
    (rest : Rows) : ChildOutcome → Call
  | .pending => next rest
  | .deleted => .freezing row (deletedText display row) rest
  | .archived => .freezing row (archivedText display row) rest
  | .failedToStart => .freezing row (failedToStartText display row) rest
  | .turn session turn status branch =>
    if children.hasQueued session then next rest
    else .reading row session turn status branch rest

def statement (display : Uuid → String) (w : World) (now reconciledAt : Instant) :
    Call → Option (World × Call)
  | .registering row since => some ({ w with rows := w.rows.register row since now }, .done)
  | .observing row query rest =>
    match query.answer w.children reconciledAt with
    | .inl query => some (w, .observing row query rest)
    | .inr observed => some (w, conclude display w.children row rest observed)
  | .reading row session turn status branch rest =>
    some (w, .freezing row (turnText display row session turn status branch
      (w.children.normalizedEntries turn)) rest)
  | .freezing row message rest =>
    some ({ w with rows := w.rows.recordOutcome row.childWorkspaceId message }, .rereading row rest)
  | .rereading row rest =>
    match (w.rows.forIssue row.childIssueId).bind (·.outcome) with
    | some message => some (w, .delivering row message rest)
    | none => some (w, .reporting row
        ("no rows returned by a query that expected to return at least one row").toList rest)
  | .handingOff row rest =>
    some ({ w with rows := w.rows.handOff row.childWorkspaceId now }, next rest)
  | .reporting row error rest =>
    some ({ w with rows := w.rows.recordError row.childWorkspaceId error }, next rest)
  | .subscribed _ | .listing | .delivering .. | .done => none

/-- How a call goes on when its statement has failed. -/
def onError (display : Uuid → String) (error : Text) : Call → Call
  | .observing row _ rest | .freezing row _ rest | .rereading row rest | .handingOff row rest =>
    .reporting row error rest
  | .reading row session turn status branch rest =>
    .freezing row (turnText display row session turn status branch none) rest
  | .reporting _ _ rest => next rest
  | .subscribed _ | .registering .. | .listing | .delivering .. | .done => .done

end Call

/-- The call of `subtask_result` for a row (lines 268-276). -/
def subtaskResult (row : BackgroundSubtask) (message : Text) (ok : Bool) : SubtaskResult :=
  { childWorkspaceId := row.childWorkspaceId
    issueId := row.parentIssueId
    sessionId := row.parentSessionId
    notificationId := row.notificationId
    message
    hopCount := row.hopCount
    ok }

/-! ## Runs -/

structure System where
  world : World
  now : Instant
  reconciledAt : Instant
  calls : ℕ → Option Call
  started : ℕ

inductive Action where
  | wait (elapsed : ℕ)
  | setChildren (children : Children)
  | subscribe (row : BackgroundSubtask)
  /-- `register` takes the time for the rate -/
  | takeTime (i : ℕ)
  | pass
  | list (i : ℕ) (pending : Rows)
  | statement (i : ℕ) (reply : Reply)
  | subtaskResult (i : ℕ) (error : Option Text)
  | drop (i : ℕ)
  | restart

namespace System

/-- The world changes, and call `i` goes on. -/
def proceed (s : System) (i : ℕ) (w : World) (c : Call) : System :=
  { s with world := w, calls := update s.calls i (some c) }

def call (s : System) (c : Call) : System :=
  { s with calls := update s.calls s.started (some c), started := s.started + 1 }

variable (display : Uuid → String)

/-- What a call that is at `c` gets. -/
def answered (s : System) (i : ℕ) (c : Call) (w : World) (c' : Call) : Reply → System
  | .ok => s.proceed i w c'
  | .failed error => s.proceed i s.world (c.onError display error)
  | .lost error => s.proceed i w (c.onError display error)

/-- `subscription` (lines 345-366) stamps the time and makes the id of the notification. -/
def subscription (s : System) (row : BackgroundSubtask) : BackgroundSubtask :=
  { row with notificationId := s.world.nextId, createdAt := s.now }

def step (s : System) : Action → Option System
  | .wait elapsed => some { s with now := s.now + elapsed }
  | .setChildren children => some { s with world := { s.world with children } }
  | .subscribe row =>
    some { s.call (.subscribed (s.subscription row)) with
      world := { s.world with nextId := s.world.nextId + 1 } }
  | .takeTime i =>
    match s.calls i with
    | some (.subscribed row) => some (s.proceed i s.world (.registering row (s.now - hour)))
    | _ => none
  | .pass => some (s.call .listing)
  | .list i pending =>
    if s.calls i = some .listing ∧ s.world.rows.IsPending pending then
      some (s.proceed i s.world (.next pending))
    else none
  | .statement i reply => (s.calls i).bind fun c =>
    (c.statement display s.world s.now s.reconciledAt).map fun (w, c') =>
      s.answered display i c w c' reply
  | .subtaskResult i error =>
    match s.calls i with
    | some (.delivering row message rest) =>
      some (s.proceed i
        { s.world with
          results := Subtasks.subtaskResult row message error.isNone :: s.world.results }
        (match error with
          | none => .handingOff row rest
          | some error => .reporting row error rest))
    | _ => none
  | .drop i => (s.calls i).map fun _ => s.proceed i s.world .done
  | .restart => some { s with calls := fun _ => none, reconciledAt := s.now }

/-- There are no rows, and no call has started. -/
structure Initial (s : System) : Prop where
  rows : s.world.rows = []
  results : s.world.results = []
  calls : ∀ i, s.calls i = none

/-- An insertion that the guard lets pass: the child is no parent, and the check of the rate has
    counted every row of the hour before. -/
def Meets (s : System) : Action → Prop
  | .statement i reply => (∀ error, reply ≠ .failed error) → ∀ row since,
    s.calls i = some (.registering row since) → s.world.rows.admits row since = true →
    s.world.rows.conflicts row = false →
    s.world.rows.ChildIsLeaf row ∧ s.world.rows.CountsHour since s.now
  | _ => True

end System

/-! ## What a call knows -/

namespace World

/-- An earlier state of a row of the table. -/
def Known (w : World) (row : BackgroundSubtask) : Prop := ∃ later ∈ w.rows, Keeps row later

def HasOutcome (w : World) (row : BackgroundSubtask) (message : Text) : Prop :=
  ∃ later ∈ w.rows, Keeps row later ∧ later.outcome = some message

/-- A call of `subtask_result` for the row with its outcome has succeeded. -/
def Delivered (w : World) (row : BackgroundSubtask) : Prop :=
  ∃ later ∈ w.rows, Keeps row later ∧ ∃ result ∈ w.results,
    result.childWorkspaceId = row.childWorkspaceId ∧ result.ok = true ∧
      later.outcome = some result.message

/-- The rows and the calls of `subtask_result` that there are, are still there. -/
structure Grows (w w' : World) : Prop where
  rows : w.rows.Keeps w'.rows
  results : ∀ result ∈ w.results, result ∈ w'.results

variable {w w' : World} {row : BackgroundSubtask} {message : Text}

theorem Grows.refl (w : World) : w.Grows w := ⟨.refl w.rows, fun _ h => h⟩

theorem Known.grows (h : w.Known row) (hgrows : w.Grows w') : w'.Known row := by
  obtain ⟨later, hlater, hkeeps⟩ := h
  obtain ⟨last, hlast, hkeeps'⟩ := hgrows.rows later hlater
  exact ⟨last, hlast, hkeeps.trans hkeeps'⟩

theorem HasOutcome.grows (h : w.HasOutcome row message) (hgrows : w.Grows w') :
    w'.HasOutcome row message := by
  obtain ⟨later, hlater, hkeeps, houtcome⟩ := h
  obtain ⟨last, hlast, hkeeps'⟩ := hgrows.rows later hlater
  exact ⟨last, hlast, hkeeps.trans hkeeps', hkeeps'.outcome message houtcome⟩

theorem Delivered.grows (h : w.Delivered row) (hgrows : w.Grows w') : w'.Delivered row := by
  obtain ⟨later, hlater, hkeeps, result, hresult, hchild, hok, houtcome⟩ := h
  obtain ⟨last, hlast, hkeeps'⟩ := hgrows.rows later hlater
  exact ⟨last, hlast, hkeeps.trans hkeeps', result, hgrows.results result hresult, hchild, hok,
    hkeeps'.outcome _ houtcome⟩

theorem Delivered.known (h : w.Delivered row) : w.Known row := by
  obtain ⟨later, hlater, hkeeps, -⟩ := h
  exact ⟨later, hlater, hkeeps⟩

theorem known_of_mem (h : row ∈ w.rows) : w.Known row := ⟨row, h, .refl row⟩

end World

namespace Call

variable {w w' : World} {c : Call} {row : BackgroundSubtask} {rest : Rows}

/-- What holds of the rows that a call holds. -/
def Fits (w : World) : Call → Prop
  | .observing row _ rest | .reading row _ _ _ _ rest | .freezing row _ rest
  | .rereading row rest | .reporting row _ rest => w.Known row ∧ ∀ r ∈ rest, w.Known r
  | .delivering row message rest => w.HasOutcome row message ∧ ∀ r ∈ rest, w.Known r
  | .handingOff row rest => w.Delivered row ∧ ∀ r ∈ rest, w.Known r
  | .subscribed _ | .registering .. | .listing | .done => True

theorem Fits.grows (h : c.Fits w) (hgrows : w.Grows w') : c.Fits w' := by
  cases c with
  | observing | reading | freezing | rereading | reporting | delivering row message rest =>
    exact ⟨h.1.grows hgrows, fun r hr => (h.2 r hr).grows hgrows⟩
  | handingOff row rest => exact ⟨h.1.grows hgrows, fun r hr => (h.2 r hr).grows hgrows⟩
  | _ => trivial

theorem fits_next (h : ∀ r ∈ rest, w.Known r) : (next rest).Fits w := by
  cases rest with
  | nil => trivial
  | cons row rest =>
    have hrow := h row List.mem_cons_self
    have hrest : ∀ r ∈ rest, w.Known r := fun r hr => h r (List.mem_cons_of_mem _ hr)
    cases houtcome : row.outcome with
    | some message =>
      have hnext : next (row :: rest) = .delivering row message rest := by
        simp only [next, houtcome]
      obtain ⟨later, hlater, hkeeps⟩ := hrow
      rw [hnext]
      exact ⟨⟨later, hlater, hkeeps, hkeeps.outcome message houtcome⟩, hrest⟩
    | none =>
      have hnext : next (row :: rest) =
          .observing row (.findWorkspace row.childWorkspaceId) rest := by
        simp only [next, houtcome]
      rw [hnext]
      exact ⟨hrow, hrest⟩

theorem fits_conclude {display : Uuid → String} {children : Children} (hrow : w.Known row)
    (hrest : ∀ r ∈ rest, w.Known r) (observed : ChildOutcome) :
    (conclude display children row rest observed).Fits w := by
  unfold conclude
  split
  · exact fits_next hrest
  · exact ⟨hrow, hrest⟩
  · exact ⟨hrow, hrest⟩
  · exact ⟨hrow, hrest⟩
  · split
    · exact fits_next hrest
    · exact ⟨hrow, hrest⟩

theorem Fits.onError {display : Uuid → String} {error : Text} (h : c.Fits w) :
    (c.onError display error).Fits w := by
  cases c with
  | observing | reading | freezing | rereading => exact h
  | handingOff row rest => exact ⟨h.1.known, h.2⟩
  | reporting row error rest => exact fits_next h.2
  | _ => trivial

end Call

/-! ## Sound tables -/

namespace World

variable {w w' : World} {now : Instant} {row : BackgroundSubtask}
  {p : BackgroundSubtask → Bool} {f : BackgroundSubtask → BackgroundSubtask}
  {later : BackgroundSubtask} {rows : Rows}

/-- The table is sound, each call of `subtask_result` was made with the outcome and the columns of
    its row, and one that succeeded comes before each hand-off. -/
structure Sound (w : World) (now : Instant) : Prop where
  rows : w.rows.Sound now
  called : ∀ result ∈ w.results, ∃ row ∈ w.rows,
    result = Subtasks.subtaskResult row result.message result.ok ∧ row.outcome = some result.message
  handedOff : ∀ row ∈ w.rows, row.handedOffAt.isSome → w.Delivered row

theorem Sound.mono {now' : Instant} (h : w.Sound now) (hle : now ≤ now') : w.Sound now' :=
  { h with rows := h.rows.mono hle }

theorem subtaskResult_keeps (h : Keeps row later) (message : Text) (ok : Bool) :
    Subtasks.subtaskResult row message ok = Subtasks.subtaskResult later message ok := by
  unfold Subtasks.subtaskResult
  rw [h.childWorkspaceId, h.parentIssueId, h.parentSessionId, h.notificationId, h.hopCount]

theorem Sound.called_grows (h : w.Sound now) (hgrows : w.Grows w')
    (hresults : w'.results = w.results) : ∀ result ∈ w'.results, ∃ row ∈ w'.rows,
    result = Subtasks.subtaskResult row result.message result.ok ∧
      row.outcome = some result.message := by
  intro result hresult
  rw [hresults] at hresult
  obtain ⟨row, hrow, heq, houtcome⟩ := h.called result hresult
  obtain ⟨later, hlater, hkeeps⟩ := hgrows.rows row hrow
  exact ⟨later, hlater, heq.trans (subtaskResult_keeps hkeeps _ _), hkeeps.outcome _ houtcome⟩

theorem Delivered.of_keeps (hkeyed : Keyed (·.childWorkspaceId) w.rows)
    (h : w.Delivered row) (hlater : later ∈ w.rows) (hkeeps : Keeps row later) :
    w.Delivered later := by
  obtain ⟨last, hlast, hkeeps', result, hresult, hchild, hok, houtcome⟩ := h
  obtain rfl : last = later :=
    hkeyed.eq hlast hlater (hkeeps'.childWorkspaceId.trans hkeeps.childWorkspaceId.symm)
  exact ⟨last, hlast, .refl last, result, hresult, hchild.trans hkeeps'.childWorkspaceId.symm, hok,
    houtcome⟩

theorem grows_of_keeps (h : w.rows.Keeps rows) : w.Grows { w with rows } :=
  ⟨h, fun _ hresult => hresult⟩

section

variable (h : w.Sound now)
include h

theorem Sound.changed (hchanged : w.rows.Changed rows)
    (hhanded : ∀ later ∈ rows, ∃ row ∈ w.rows, row.childWorkspaceId = later.childWorkspaceId ∧
      (w.Delivered row ∨ row.handedOffAt = later.handedOffAt)) : Sound { w with rows } now := by
  have hgrows := w.grows_of_keeps hchanged.keeps
  have hrows := h.rows.changed hchanged
  refine ⟨hrows, h.called_grows hgrows rfl, fun later hlater hdone => ?_⟩
  obtain ⟨row, hrow, hchild, hor⟩ := hhanded later hlater
  have hdelivered : w.Delivered row := by
    rcases hor with hdelivered | hsame
    · exact hdelivered
    · exact h.handedOff row hrow (hsame ▸ hdone)
  obtain ⟨later', hlater', hkeeps⟩ := hchanged.keeps row hrow
  obtain rfl : later' = later :=
    hrows.childWorkspace.eq hlater' hlater (hkeeps.childWorkspaceId.trans hchild)
  exact (hdelivered.grows hgrows).of_keeps hrows.childWorkspace hlater hkeeps

theorem Sound.register (row : BackgroundSubtask) (since : Instant) :
    Sound { w with rows := w.rows.register row since now } now := by
  have hgrows := w.grows_of_keeps (w.rows.keeps_register row since now)
  refine ⟨h.rows.register row since, h.called_grows hgrows rfl, fun r hr hdone => ?_⟩
  have hold : r ∈ w.rows := by
    change r ∈ w.rows.register row since now at hr
    rcases w.rows.register_cases row since now with heq | ⟨-, -, heq⟩
    · rwa [heq] at hr
    · rw [heq] at hr
      rcases List.mem_cons.1 hr with rfl | hr
      · cases hdone
      · exact hr
  exact (h.handedOff r hold hdone).grows hgrows

theorem Sound.recordOutcome (child : Uuid) (message : Text) :
    Sound { w with rows := w.rows.recordOutcome child message } now := by
  refine h.changed (w.rows.changed_recordOutcome child message) fun later hlater => ?_
  obtain ⟨row, hrow, hchild, hsame⟩ := Rows.mem_recordOutcome hlater
  exact ⟨row, hrow, hchild, .inr hsame⟩

theorem Sound.recordError (child : Uuid) (error : Text) :
    Sound { w with rows := w.rows.recordError child error } now := by
  refine h.changed (w.rows.changed_recordError child error) fun later hlater => ?_
  obtain ⟨row, hrow, hchild, hsame⟩ := Rows.mem_recordError hlater
  exact ⟨row, hrow, hchild, .inr hsame⟩

theorem Sound.handOff (hrow : w.Delivered row) :
    Sound { w with rows := w.rows.handOff row.childWorkspaceId now } now := by
  refine h.changed (w.rows.changed_handOff row.childWorkspaceId now) fun later hlater => ?_
  obtain ⟨r, hr, hchild, hor⟩ := Rows.mem_handOff hlater
  refine ⟨r, hr, hchild, hor.imp_left fun hsame => ?_⟩
  obtain ⟨last, hlast, hkeeps, -⟩ := id hrow
  obtain rfl : last = r :=
    h.rows.childWorkspace.eq hlast hr (hkeeps.childWorkspaceId.trans hsame.symm)
  exact hrow.of_keeps h.rows.childWorkspace hlast hkeeps

/-- What `for_issue` reads back is the outcome of the row. -/
theorem Sound.hasOutcome_of_forIssue (hrow : w.Known row) {message : Text}
    (hread : (w.rows.forIssue row.childIssueId).bind (·.outcome) = some message) :
    w.HasOutcome row message := by
  obtain ⟨later, hlater, hkeeps⟩ := hrow
  obtain ⟨r, hfind, houtcome⟩ := bind_eq_some_iff.1 hread
  obtain ⟨hr, hissue⟩ := find?_some hfind
  obtain rfl : r = later :=
    h.rows.childIssue.eq hr hlater ((of_decide_eq_true hissue).trans hkeeps.childIssueId.symm)
  exact ⟨r, hr, hkeeps, houtcome⟩

end

end World

namespace Call

variable {w w' : World} {c c' : Call} {now reconciledAt : Instant} {display : Uuid → String}

theorem Fits.statement (h : c.Fits w) (hw : w.Sound now)
    (hstatement : c.statement display w now reconciledAt = some (w', c')) :
    w.Grows w' ∧ w'.Sound now ∧ c'.Fits w' := by
  cases c with
  | registering row since =>
    cases hstatement
    exact ⟨w.grows_of_keeps (w.rows.keeps_register row since now), hw.register row since, trivial⟩
  | observing row query rest =>
    simp only [Call.statement] at hstatement
    split at hstatement <;> cases hstatement
    · exact ⟨.refl w, hw, h⟩
    · exact ⟨.refl w, hw, fits_conclude h.1 h.2 _⟩
  | reading row session turn status branch rest =>
    cases hstatement
    exact ⟨.refl w, hw, h⟩
  | freezing row message rest =>
    cases hstatement
    have hgrows := w.grows_of_keeps
      (w.rows.changed_recordOutcome row.childWorkspaceId message).keeps
    exact ⟨hgrows, hw.recordOutcome _ _, h.1.grows hgrows, fun r hr => (h.2 r hr).grows hgrows⟩
  | rereading row rest =>
    simp only [Call.statement] at hstatement
    split at hstatement <;> cases hstatement
    · rename_i hread
      exact ⟨.refl w, hw, hw.hasOutcome_of_forIssue h.1 hread, h.2⟩
    · exact ⟨.refl w, hw, h⟩
  | handingOff row rest =>
    cases hstatement
    have hgrows := w.grows_of_keeps (w.rows.changed_handOff row.childWorkspaceId now).keeps
    exact ⟨hgrows, hw.handOff h.1, fits_next fun r hr => (h.2 r hr).grows hgrows⟩
  | reporting row error rest =>
    cases hstatement
    have hgrows := w.grows_of_keeps (w.rows.changed_recordError row.childWorkspaceId error).keeps
    exact ⟨hgrows, hw.recordError _ _, fits_next fun r hr => (h.2 r hr).grows hgrows⟩
  | _ => cases hstatement

end Call

namespace System

variable {s s' : System} {a : Action} {i : ℕ} {c c' : Call} {w : World} {display : Uuid → String}

structure Consistent (s : System) : Prop where
  sound : s.world.Sound s.now
  fits : ∀ i c, s.calls i = some c → c.Fits s.world

theorem Consistent.proceed (h : s.Consistent) (hgrows : s.world.Grows w) (hw : w.Sound s.now)
    (hc : c.Fits w) : (s.proceed i w c).Consistent := by
  refine ⟨hw, fun j x hx => ?_⟩
  change update s.calls i (some c) j = some x at hx
  by_cases hj : j = i
  · rw [hj, update_self] at hx
    cases hx
    exact hc
  · rw [update_of_ne hj] at hx
    exact (h.fits j x hx).grows hgrows

theorem Consistent.call (h : s.Consistent) (hc : c.Fits s.world) : (s.call c).Consistent := by
  refine ⟨h.sound, fun j x hx => ?_⟩
  change update s.calls s.started (some c) j = some x at hx
  by_cases hj : j = s.started
  · rw [hj, update_self] at hx
    cases hx
    exact hc
  · rw [update_of_ne hj] at hx
    exact h.fits j x hx

theorem Consistent.of_world {w : World} (h : s.Consistent) (hrows : w.rows = s.world.rows)
    (hresults : w.results = s.world.results) : Consistent { s with world := w } := by
  have hgrows : s.world.Grows w := ⟨hrows ▸ .refl _, fun result hresult => hresults ▸ hresult⟩
  refine ⟨⟨?_, h.sound.called_grows hgrows hresults, fun row hrow hdone => ?_⟩,
    fun j x hx => (h.fits j x hx).grows hgrows⟩
  · show w.rows.Sound s.now
    rw [hrows]
    exact h.sound.rows
  · change row ∈ w.rows at hrow
    rw [hrows] at hrow
    exact (h.sound.handedOff row hrow hdone).grows hgrows

theorem Consistent.statement (h : s.Consistent) (hc : s.calls i = some c)
    (hstatement : c.statement display s.world s.now s.reconciledAt = some (w, c'))
    (reply : Reply) : (s.answered display i c w c' reply).Consistent := by
  have hfits := h.fits i c hc
  obtain ⟨hgrows, hw, hc'⟩ := hfits.statement h.sound hstatement
  cases reply with
  | ok => exact h.proceed hgrows hw hc'
  | failed error => exact h.proceed (.refl s.world) h.sound hfits.onError
  | lost error => exact h.proceed hgrows hw (hfits.grows hgrows).onError

theorem Consistent.subtaskResult (h : s.Consistent) {row : BackgroundSubtask} {message : Text}
    {rest : Rows} (hc : s.calls i = some (.delivering row message rest)) (error : Option Text) :
    (s.proceed i
      { s.world with
        results := Subtasks.subtaskResult row message error.isNone :: s.world.results }
      (match error with
        | none => .handingOff row rest
        | some error => .reporting row error rest)).Consistent := by
  obtain ⟨⟨later, hlater, hkeeps, houtcome⟩, hrest⟩ := h.fits i _ hc
  have hgrows : s.world.Grows { s.world with
      results := Subtasks.subtaskResult row message error.isNone :: s.world.results } :=
    ⟨.refl _, fun _ hresult => List.mem_cons_of_mem _ hresult⟩
  refine h.proceed hgrows ⟨h.sound.rows, fun result hresult => ?_,
    fun r hr hdone => (h.sound.handedOff r hr hdone).grows hgrows⟩ ?_
  · rcases List.mem_cons.1 hresult with rfl | hresult
    · exact ⟨later, hlater, World.subtaskResult_keeps hkeeps _ _, houtcome⟩
    · exact h.sound.called result hresult
  · have hrest' : ∀ r ∈ rest, World.Known _ r := fun r hr => (hrest r hr).grows hgrows
    cases error with
    | none => exact ⟨⟨later, hlater, hkeeps, _, List.mem_cons_self, rfl, rfl, houtcome⟩, hrest'⟩
    | some error => exact ⟨⟨later, hlater, hkeeps⟩, hrest'⟩

theorem Consistent.step (h : s.Consistent) (hstep : s.step display a = some s') :
    s'.Consistent := by
  cases a with
  | wait elapsed =>
    cases hstep
    exact ⟨h.sound.mono (Int.le_add_of_nonneg_right (Int.natCast_nonneg elapsed)), h.fits⟩
  | setChildren children =>
    cases hstep
    exact h.of_world rfl rfl
  | subscribe row =>
    cases hstep
    exact (h.call (c := .subscribed (s.subscription row)) trivial).of_world rfl rfl
  | takeTime i =>
    simp only [System.step] at hstep
    split at hstep <;> cases hstep
    exact h.proceed (.refl _) h.sound trivial
  | pass =>
    cases hstep
    exact h.call trivial
  | list i pending =>
    simp only [System.step] at hstep
    split at hstep <;> cases hstep
    rename_i hlist
    refine h.proceed (.refl _) h.sound (Call.fits_next fun r hr => ?_)
    exact World.known_of_mem (List.mem_of_mem_filter (hlist.2.1.mem_iff.1 hr))
  | statement i reply =>
    obtain ⟨c, hc, hstep⟩ := bind_eq_some_iff.1 hstep
    obtain ⟨⟨w, c'⟩, hstatement, rfl⟩ := map_eq_some_iff.1 hstep
    exact h.statement hc hstatement reply
  | subtaskResult i error =>
    simp only [System.step] at hstep
    split at hstep <;> cases hstep
    rename_i hc
    exact h.subtaskResult hc error
  | drop i =>
    obtain ⟨c, hc, rfl⟩ := map_eq_some_iff.1 hstep
    exact h.proceed (.refl _) h.sound trivial
  | restart =>
    cases hstep
    exact ⟨h.sound, fun j x hx => nomatch hx⟩

theorem Initial.consistent (h : s.Initial) : s.Consistent := by
  refine ⟨⟨?_, ?_, ?_⟩, fun i c hc => nomatch (h.calls i).symm.trans hc⟩
  · rw [h.rows]
    exact ⟨Keyed.nil, Keyed.nil, fun _ => Nat.zero_le 5, nofun, List.Pairwise.nil⟩
  · rw [h.results]
    exact nofun
  · rw [h.rows]
    exact nofun

theorem consistent_of_reachable {ok : System → Action → Prop}
    (h : Reachable (step display) ok Initial s) : s.Consistent :=
  h.invariant (P := Consistent) (fun _ h0 => h0.consistent) fun _ _ _ h _ hstep => h.step hstep

/-! ## What a run keeps of the rows -/

theorem answered_world (s : System) (display : Uuid → String) (i : ℕ) (c : Call) (w : World)
    (c' : Call) (reply : Reply) :
    (s.answered display i c w c' reply).world = s.world ∧ (∃ error, reply = .failed error) ∨
      (s.answered display i c w c' reply).world = w ∧ ∀ error, reply ≠ .failed error := by
  cases reply with
  | ok | lost error => exact .inr ⟨rfl, nofun⟩
  | failed error => exact .inl ⟨rfl, error, rfl⟩

theorem rows_cases (hstep : s.step display a = some s') : s.world.rows.Changed s'.world.rows ∨
    ∃ i reply row since, a = .statement i reply ∧ (∀ error, reply ≠ .failed error) ∧
      s.calls i = some (.registering row since) ∧ s.world.rows.admits row since = true ∧
      s.world.rows.conflicts row = false ∧
      s'.world.rows = Rows.inserted row s.now :: s.world.rows := by
  cases a with
  | wait | setChildren | subscribe | pass | restart =>
    cases hstep
    exact .inl (.refl _)
  | takeTime i | list i pending | subtaskResult i error =>
    simp only [System.step] at hstep
    split at hstep <;> cases hstep
    exact .inl (.refl _)
  | drop i =>
    obtain ⟨c, -, rfl⟩ := map_eq_some_iff.1 hstep
    exact .inl (.refl _)
  | statement i reply =>
    obtain ⟨c, hc, hstep⟩ := bind_eq_some_iff.1 hstep
    obtain ⟨⟨w, c'⟩, hstatement, rfl⟩ := map_eq_some_iff.1 hstep
    rcases s.answered_world display i c w c' reply with ⟨heq, -⟩ | ⟨heq, hreply⟩
    · rw [heq]
      exact .inl (.refl _)
    rw [heq]
    cases c with
    | registering row since =>
      cases hstatement
      rcases s.world.rows.register_cases row since s.now with hrows | ⟨hadmits, hconflicts, hrows⟩
      · rw [hrows]
        exact .inl (.refl _)
      · exact .inr ⟨i, reply, row, since, rfl, hreply, hc, hadmits, hconflicts, hrows⟩
    | observing row query rest | rereading row rest
    | reading row session turn status branch rest =>
      simp only [Call.statement] at hstatement
      repeat' split at hstatement
      all_goals
        cases hstatement
        exact .inl (.refl _)
    | freezing row message rest =>
      cases hstatement
      exact .inl (s.world.rows.changed_recordOutcome _ _)
    | handingOff row rest =>
      cases hstatement
      exact .inl (s.world.rows.changed_handOff _ _)
    | reporting row error rest =>
      cases hstatement
      exact .inl (s.world.rows.changed_recordError _ _)
    | _ => cases hstatement

theorem keeps_step (hstep : s.step display a = some s') : s.world.rows.Keeps s'.world.rows := by
  rcases rows_cases hstep with hchanged | ⟨-, -, row, -, -, -, -, -, -, heq⟩
  · exact hchanged.keeps
  · rw [heq]
    exact fun r hr => ⟨r, List.mem_cons_of_mem _ hr, .refl r⟩

theorem keeps_of_runs (h : Runs (step display) anyStep s s') : s.world.rows.Keeps s'.world.rows :=
  h.preserves (P := fun s' => s.world.rows.Keeps s'.world.rows)
    (fun _ _ _ hkeeps _ hstep => hkeeps.trans (keeps_step hstep)) (.refl _)

/-! ## Depth and rate -/

/-- The two laws that depend on the condition. -/
structure Good (s : System) : Prop where
  flat : s.world.rows.Flat
  spaced : s.world.rows.Spaced

theorem Good.step (h : s.Good) (hmeets : s.Meets a)
    (hstep : s.step display a = some s') : s'.Good := by
  rcases rows_cases hstep with hchanged |
    ⟨i, reply, row, since, rfl, hreply, hc, hadmits, hconflicts, heq⟩
  · exact ⟨h.flat.changed hchanged, h.spaced.changed hchanged⟩
  · obtain ⟨hleaf, hcounts⟩ := hmeets hreply row since hc hadmits hconflicts
    refine ⟨?_, ?_⟩
    · rw [heq]
      exact (Rows.flat_inserted_iff h.flat hadmits).2 hleaf
    · rw [heq]
      exact h.spaced.inserted hadmits hcounts

theorem good_of_reachable (h : Reachable (step display) Meets Initial s) : s.Good := by
  refine h.invariant (P := Good) (fun s h0 => ⟨?_, ?_⟩)
    fun _ _ _ h hmeets hstep => h.step hmeets hstep
  · rw [h0.rows]
    exact nofun
  · rw [h0.rows]
    trivial

theorem childIsLeaf_of_flat {reply : Reply} {row : BackgroundSubtask} {since : Instant}
    (h : s.world.rows.Flat) (hreply : ∀ error, reply ≠ .failed error)
    (hc : s.calls i = some (.registering row since))
    (hadmits : s.world.rows.admits row since = true)
    (hconflicts : s.world.rows.conflicts row = false)
    (hstep : s.step display (.statement i reply) = some s') (hflat : s'.world.rows.Flat) :
    s.world.rows.ChildIsLeaf row := by
  simp only [System.step, hc, bind_some, Call.statement, map_some] at hstep
  have hrows : s'.world.rows = Rows.inserted row s.now :: s.world.rows := by
    cases hstep
    rcases s.answered_world display i (.registering row since)
      { s.world with rows := s.world.rows.register row since s.now } .done reply with
      ⟨-, error, heq⟩ | ⟨heq, -⟩
    · exact absurd heq (hreply error)
    · rw [heq]
      show s.world.rows.register row since s.now = _
      rw [Rows.register, if_pos ⟨hadmits, hconflicts⟩]
  rw [hrows] at hflat
  exact (Rows.flat_inserted_iff h hadmits).1 hflat

/-! ## The laws -/

/-- In every run a parent has at most five children that are not handed off, an issue at most one
    row, an outcome that is set stays, a row that is handed off has had a call of `subtask_result`
    succeed with its outcome and its notification id, and all its calls have the same id and text.
    In a run whose insertions meet the condition no child has children, and at most twenty rows are
    registered in any hour; for the depth the condition is also necessary. -/
theorem outbox_laws (display : Uuid → String) (s : System)
    (h : Reachable (step display) anyStep Initial s) :
    (∀ parent, s.world.rows.countP (·.pendingOf parent) ≤ 5) ∧
    Keyed (·.childIssueId) s.world.rows ∧
    (∀ s', Runs (step display) anyStep s s' → ∀ row ∈ s.world.rows, ∃ later ∈ s'.world.rows,
      later.childWorkspaceId = row.childWorkspaceId ∧ later.notificationId = row.notificationId ∧
      ∀ text, row.outcome = some text → later.outcome = some text) ∧
    (∀ row ∈ s.world.rows, row.handedOffAt.isSome → ∃ result ∈ s.world.results,
      result.ok = true ∧ result.childWorkspaceId = row.childWorkspaceId ∧
      result.notificationId = row.notificationId ∧ row.outcome = some result.message) ∧
    (∀ a ∈ s.world.results, ∀ b ∈ s.world.results, a.childWorkspaceId = b.childWorkspaceId →
      a.notificationId = b.notificationId ∧ a.message = b.message) ∧
    (Reachable (step display) Meets Initial s → s.world.rows.Flat ∧
      (∀ t, (s.world.rows.filter fun row =>
        t ≤ row.registeredAt ∧ row.registeredAt ≤ t + hour).length ≤ 20) ∧
      ∀ i reply row since s', (∀ error, reply ≠ .failed error) →
        s.calls i = some (.registering row since) → s.world.rows.admits row since = true →
        s.world.rows.conflicts row = false → s.step display (.statement i reply) = some s' →
        s'.world.rows.Flat → s.world.rows.ChildIsLeaf row) := by
  have hconsistent := consistent_of_reachable h
  obtain ⟨hrows, hcalled, hhanded⟩ := hconsistent.sound
  refine ⟨hrows.fanout, hrows.childIssue, fun s' hruns row hrow => ?_, fun row hrow hdone => ?_,
    fun a ha b hb hchild => ?_, fun hmeets => ?_⟩
  · obtain ⟨later, hlater, hkeeps⟩ := keeps_of_runs hruns row hrow
    exact ⟨later, hlater, hkeeps.childWorkspaceId, hkeeps.notificationId, hkeeps.outcome⟩
  · obtain ⟨later, hlater, hkeeps, result, hresult, hchild, hok, houtcome⟩ := hhanded row hrow hdone
    obtain rfl : later = row := hrows.childWorkspace.eq hlater hrow hkeeps.childWorkspaceId
    obtain ⟨row', hrow', heq, -⟩ := hcalled result hresult
    have hchild' : result.childWorkspaceId = row'.childWorkspaceId := by
      rw [heq]
      rfl
    obtain rfl : row' = later := hrows.childWorkspace.eq hrow' hlater (hchild'.symm.trans hchild)
    refine ⟨result, hresult, hok, hchild, ?_, houtcome⟩
    rw [heq]
    rfl
  · obtain ⟨rowA, hrowA, heqA, houtcomeA⟩ := hcalled a ha
    obtain ⟨rowB, hrowB, heqB, houtcomeB⟩ := hcalled b hb
    have hsame : rowA.childWorkspaceId = rowB.childWorkspaceId := by
      rw [heqA, heqB] at hchild
      exact hchild
    obtain rfl : rowA = rowB := hrows.childWorkspace.eq hrowA hrowB hsame
    refine ⟨?_, some.inj (houtcomeA.symm.trans houtcomeB)⟩
    rw [heqA, heqB]
    rfl
  · have hgood := good_of_reachable hmeets
    exact ⟨hgood.flat, fun t => hgood.spaced.length_le hrows.ordered t,
      fun i reply row since s' hreply hc hadmits hconflicts hstep hflat =>
        childIsLeaf_of_flat hgood.flat hreply hc hadmits hconflicts hstep hflat⟩

/-! ## Examples -/

instance (s : System) (a : Action) : Decidable (s.Meets a) :=
  match a with
  | .statement i reply =>
    match hc : s.calls i with
    | some (.registering row since) =>
      decidable_of_iff ((reply matches .failed _) = false →
        s.world.rows.admits row since = true → s.world.rows.conflicts row = false →
        s.world.rows.ChildIsLeaf row ∧ s.world.rows.CountsHour since s.now) <| by
        constructor
        · intro hmeets hreply row' since' hc' hadmits hconflicts
          cases hc.symm.trans hc'
          refine hmeets ?_ hadmits hconflicts
          cases reply with
          | failed error => exact (hreply error rfl).elim
          | ok | lost => rfl
        · intro hmeets hreply hadmits hconflicts
          refine hmeets (fun error heq => ?_) row since hc hadmits hconflicts
          rw [heq] at hreply
          cases hreply
    | none => isTrue fun _ _ _ hc' => nomatch hc.symm.trans hc'
    | some (.subscribed _) | some .listing | some (.observing ..) | some (.reading ..)
    | some (.freezing ..) | some (.rereading ..) | some (.delivering ..) | some (.handingOff ..)
    | some (.reporting ..) | some .done => isTrue fun _ _ _ hc' => nomatch hc.symm.trans hc'
  | .wait _ | .setChildren _ | .subscribe _ | .takeTime _ | .pass | .list .. | .subtaskResult ..
  | .drop _ | .restart => isTrue trivial

def emptySystem : System :=
  { world := ⟨[], ⟨[], [], [], fun _ => none, fun _ => false, fun _ => none⟩, [], 0⟩
    now := 0
    reconciledAt := 0
    calls := fun _ => none
    started := 0 }

theorem initial_emptySystem : emptySystem.Initial := ⟨rfl, rfl, fun _ => rfl⟩

def child (workspace parent : Uuid) : BackgroundSubtask :=
  { childWorkspaceId := workspace
    childIssueId := workspace
    childProjectId := 0
    parentWorkspaceId := parent
    parentSessionId := parent
    parentIssueId := parent
    notificationId := 0
    hopCount := 1
    outcome := none
    handedOffAt := none
    lastError := none
    createdAt := 0
    registeredAt := 0 }

/-- The registration of a child, as call `i`. -/
def registration (i : ℕ) (workspace parent : Uuid) : List Action :=
  [.subscribe (child workspace parent), .takeTime i, .statement i .ok]

/-- A child is registered and deleted, its outcome is recorded and delivered, and after a restart
    it is delivered again and handed off. -/
def deliveredTwice : List Action :=
  registration 0 1 10 ++ [.pass, .list 1 [{ child 1 10 with notificationId := 0 }],
    .statement 1 .ok, .statement 1 .ok, .statement 1 .ok, .subtaskResult 1 none, .restart, .pass,
    .list 2 [{ child 1 10 with outcome := some (deletedText (fun _ => "") (child 1 10)) }],
    .subtaskResult 2 none, .statement 2 .ok]

theorem outbox_laws_deliveredTwice : ∃ s, Reachable (step fun _ => "") Meets Initial s ∧
    s.world.results.length = 2 ∧ s.world.rows.map (·.handedOffAt) = [some 0] ∧
    s.world.rows.Flat ∧
    ∀ a ∈ s.world.results, ∀ b ∈ s.world.results, a.childWorkspaceId = b.childWorkspaceId →
      a.notificationId = b.notificationId ∧ a.message = b.message := by
  have hexec : (exec (step fun _ => "") Meets emptySystem deliveredTwice).map (fun s =>
      (s.world.results.length, s.world.rows.map (·.handedOffAt))) = some (2, [some 0]) := by
    decide +kernel
  obtain ⟨s, hs, heq⟩ := map_eq_some_iff.1 hexec
  obtain ⟨hresults, hrows⟩ := Prod.mk.inj heq
  have hreach := reachable_of_exec initial_emptySystem hs
  obtain ⟨-, -, -, -, hsame, hmeets⟩ := outbox_laws _ s (hreach.mono fun _ _ _ => trivial)
  exact ⟨s, hreach, hresults, hrows, (hmeets hreach).1, hsame⟩

def parentBecomesChild : List Action := registration 0 1 10 ++ registration 1 10 20

/-- A row is stamped a moment before it is inserted, and twenty more are registered an hour after
    the stamp. -/
def lateInsertion : List Action :=
  [.subscribe (child 1 10), .wait 2, .takeTime 0, .statement 0 .ok, .wait (3600 * 1000000 - 1)] ++
    (List.range 20).flatMap fun k => registration (k + 1) (100 + k) (200 + k)

/-- A child has a child, and 21 rows are registered within an hour. -/
theorem outbox_laws_broken :
    (∃ s, Reachable (step fun _ => "") anyStep Initial s ∧ ¬ s.world.rows.Flat) ∧
    ∃ s, Reachable (step fun _ => "") anyStep Initial s ∧
      (s.world.rows.filter fun row => 2 ≤ row.registeredAt ∧
        row.registeredAt ≤ 2 + hour).length = 21 := by
  constructor
  · have hexec : (exec (step fun _ => "") anyStep emptySystem parentBecomesChild).map (fun s =>
        s.world.rows.map fun row => (row.childWorkspaceId, row.parentWorkspaceId)) =
        some [(10, 20), (1, 10)] := by decide +kernel
    obtain ⟨s, hs, hrows⟩ := map_eq_some_iff.1 hexec
    refine ⟨s, reachable_of_exec initial_emptySystem hs, fun hflat => ?_⟩
    have hchild : (10, 20) ∈ s.world.rows.map fun row =>
        (row.childWorkspaceId, row.parentWorkspaceId) := hrows ▸ List.mem_cons_self
    have hparent : (1, 10) ∈ s.world.rows.map fun row =>
        (row.childWorkspaceId, row.parentWorkspaceId) :=
      hrows ▸ List.mem_cons_of_mem _ List.mem_cons_self
    obtain ⟨a, ha, heqA⟩ := List.mem_map.1 hchild
    obtain ⟨b, hb, heqB⟩ := List.mem_map.1 hparent
    exact hflat b hb a ha ((Prod.mk.inj heqB).2.trans (Prod.mk.inj heqA).1.symm)
  · have hexec : (exec (step fun _ => "") anyStep emptySystem lateInsertion).map (fun s =>
        (s.world.rows.filter fun row => 2 ≤ row.registeredAt ∧
          row.registeredAt ≤ 2 + hour).length) = some 21 := by decide +kernel
    obtain ⟨s, hs, hlength⟩ := map_eq_some_iff.1 hexec
    exact ⟨s, reachable_of_exec initial_emptySystem hs, hlength⟩

end System

end VibeKanban.Subtasks
