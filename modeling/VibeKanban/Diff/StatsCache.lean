import VibeKanban.Cluster.Protocol
import VibeKanban.Lib.Runs
import VibeKanban.Lib.Tasks

/-!
# The cache of the diff stats (`services/workspace_diff_stats.rs`)

Each workspace has a slot with the latest result, behind a lock that whoever computes holds until
the result is published, and a generation that `invalidate` bumps. The computation runs in a task of
its own, with a permit; the callers wait and may be cancelled. A slot that nobody has a clone of is
pruned. One step is one access to what is shared. The invalidations of a workspace are counted
beside the code's generations.

* `cache_linearizable`: a fresh hit was computed after the last invalidation before it.
-/

namespace VibeKanban.Diff

open Lib List Option Bool Nat
open Function (update update_apply update_of_ne update_self)

abbrev Uuid := Cluster.Uuid

/-- An `Instant` or a `Duration`, in nanoseconds. -/
abbrev Time := ℕ

def seconds (n : ℕ) : Time := n * 1000000000

/-- Lines 52-60. -/
def INCOMPLETE_RETRY_AFTER : Time := seconds 60

def PRUNE_AFTER : Time := seconds (60 * 60)

def PRUNE_EVERY : Time := seconds 60

structure DiffStats where
  filesChanged : ℕ
  linesAdded : ℕ
  linesRemoved : ℕ
  deriving DecidableEq

structure DiffStatsOutcome where
  stats : DiffStats
  complete : Bool

/-- `Entry` (lines 100-104), with the number of invalidations before its computation started. -/
structure Entry where
  outcome : DiffStatsOutcome
  computedAt : Time
  generation : ℕ
  started : ℕ

/-- `is_fresh` (lines 107-114). -/
def Entry.isFresh (entry : Entry) (generation : ℕ) (maxAge now : Time) : Bool :=
  let maxAge := if entry.outcome.complete then maxAge else min maxAge INCOMPLETE_RETRY_AFTER
  entry.generation = generation && now - entry.computedAt ≤ maxAge

/-- `Slot` (lines 117-131), with the number of invalidations before it was made. -/
structure Slot where
  state : Option Entry
  locked : Bool
  generation : ℕ
  lastKnown : Option DiffStats
  made : ℕ

/-- `Slot::default`. -/
def Slot.new (made : ℕ) : Slot := ⟨none, false, 0, none, made⟩

/-- A call of `get_or_compute`; `held` is the clone of the slot that `get_within` keeps. -/
structure Call where
  workspace : Uuid
  maxAge : Time
  held : Option ℕ

/-- What the leader's task owns (lines 182-186). -/
structure Leader where
  id : ℕ
  workspace : Uuid
  slot : ℕ
  generation : ℕ

/-- The next step of a leader (lines 186-223). -/
inductive Phase where
  | permit
  | compute
  /-- `compute` runs; `started` invalidations were made before. -/
  | running (started : ℕ)
  /-- It will write `last_known`. -/
  | computed (started : ℕ) (result : Option DiffStatsOutcome)
  | check (started : ℕ) (outcome : DiffStatsOutcome)
  /-- It will write the state; `checked` invalidations were made before it looked. -/
  | store (started checked : ℕ) (outcome : DiffStatsOutcome)
  | clear (outcome : DiffStatsOutcome)
  /-- It will give the permit back. -/
  | release (stats : Option DiffStats)

inductive Task where
  /-- `get_within` will clone the slot. -/
  | within (workspace : Uuid) (maxAge : Time)
  /-- `maybe_prune` will look at `last_prune`. -/
  | prune (call : Call)
  /-- `maybe_prune` goes through the slots. -/
  | pruning (call : Call) (now : Time)
  /-- `get_or_compute` will clone the slot. -/
  | entry (call : Call)
  | lock (call : Call) (slot : ℕ)
  /-- It will load the generation; `before` invalidations were made before it had the lock. -/
  | load (call : Call) (slot before : ℕ)
  | await (call : Call) (leader : ℕ)
  | leader (leader : Leader) (phase : Phase)
  /-- It will drop the guard of the slot, then its clones; the leader's task has an output. -/
  | unlock (workspace : Uuid) (slot : ℕ) (held : Option ℕ) (output : Option (ℕ × Option DiffStats))
  | drop (workspace : Uuid) (slot : ℕ) (held : Option ℕ) (output : Option (ℕ × Option DiffStats))

inductive Reply where
  /-- A fresh hit, with the invalidations before its computation started and before the call had
  the lock. -/
  | hit (workspace : Uuid) (stats : DiffStats) (started before : ℕ)
  | computed (workspace : Uuid) (stats : Option DiffStats)
  | lastKnown (workspace : Uuid) (stats : Option DiffStats)
  deriving DecidableEq

/-- A result that was stored, with the invalidations before its computation started, before the
check and before it was stored. -/
structure Stored where
  workspace : Uuid
  started : ℕ
  checked : ℕ
  invalidated : ℕ
  deriving DecidableEq

/-- `DiffStatsCache` with its tasks; the slots are numbered as they are made. -/
structure DiffStatsCache where
  slots : Uuid → Option ℕ
  slot : ℕ → Slot
  nextSlot : ℕ
  permits : ℕ
  lastPrune : Option Time
  tasks : List Task
  nextLeader : ℕ
  outputs : ℕ → Option (Option DiffStats)
  invalidations : Uuid → ℕ
  replies : List Reply
  stores : List Stored

inductive Act where
  | getOrCompute (workspace : Uuid) (maxAge : Time)
  | getWithin (workspace : Uuid) (maxAge : Time)
  /-- A task takes its next step. -/
  | task (i : ℕ) (now : Time)
  /-- `retain` looks at a slot. -/
  | retain (i : ℕ) (workspace : Uuid)
  /-- The computation of a leader ends; a panic is like `none`. -/
  | finish (i : ℕ) (result : Option DiffStatsOutcome)
  /-- The deadline of `get_within` has passed. -/
  | timeout (i : ℕ)
  | cancel (i : ℕ)
  | invalidate (workspace : Uuid)

def Call.clones (call : Call) : List (Uuid × ℕ) := call.held.toList.map fun k => (call.workspace, k)

def Task.clones : Task → List (Uuid × ℕ)
  | .within _ _ => []
  | .prune call | .pruning call _ | .entry call | .await call _ => call.clones
  | .lock call k | .load call k _ => (call.workspace, k) :: call.clones
  | .leader l _ => [(l.workspace, l.slot)]
  | .unlock w k held _ | .drop w k held _ => (w, k) :: held.toList.map fun k => (w, k)

namespace DiffStatsCache

def start (concurrency : ℕ) : DiffStatsCache :=
  ⟨fun _ => none, fun _ => .new 0, 0, concurrency, none, [], 0, fun _ => none, fun _ => 0, [], []⟩

variable (s : DiffStatsCache)

/-- `self.slots.entry(workspace_id).or_default().clone()`. -/
def clone (w : Uuid) : ℕ × DiffStatsCache :=
  match s.slots w with
  | some k => (k, s)
  | none => (s.nextSlot, { s with
      slots := update s.slots w (some s.nextSlot)
      slot := update s.slot s.nextSlot (.new (s.invalidations w))
      nextSlot := s.nextSlot + 1 })

/-- What `retain` says of a slot (lines 271-281). -/
def retains (k : ℕ) (now : Time) : Bool :=
  s.tasks.any (fun task => task.clones.any (·.2 = k)) ||
    ((s.slot k).locked || (s.slot k).state.any fun entry => now - entry.computedAt ≤ PRUNE_AFTER)

/-- `get_or_compute` with the lock of the slot (lines 165-186). -/
def runLoad (i : ℕ) (call : Call) (k before : ℕ) (now : Time) : DiffStatsCache :=
  let generation := (s.slot k).generation
  match (s.slot k).state.filter (·.isFresh generation call.maxAge now) with
  | some entry => { s with
      replies := s.replies ++ [.hit call.workspace entry.outcome.stats entry.started before]
      tasks := s.tasks.set i (.unlock call.workspace k call.held none) }
  | none => { s with
      nextLeader := s.nextLeader + 1
      tasks := s.tasks.set i (.await call s.nextLeader) ++
        [.leader ⟨s.nextLeader, call.workspace, k, generation⟩ .permit] }

/-- The next step of a leader (lines 186-223). -/
def runLeader (i : ℕ) (l : Leader) (now : Time) : Phase → Option DiffStatsCache
  | .permit =>
    if s.permits = 0 then none
    else some { s with
      permits := s.permits - 1
      tasks := s.tasks.set i (.leader l .compute) }
  | .compute => some { s with
      tasks := s.tasks.set i (.leader l (.running (s.invalidations l.workspace))) }
  | .running _ => none
  | .computed started (some outcome) => some { s with
      slot := update s.slot l.slot { s.slot l.slot with lastKnown := some outcome.stats }
      tasks := s.tasks.set i (.leader l (.check started outcome)) }
  | .computed _ none => some { s with tasks := s.tasks.set i (.leader l (.release none)) }
  | .check started outcome =>
    if (s.slot l.slot).generation = l.generation then some { s with
      tasks := s.tasks.set i (.leader l (.store started (s.invalidations l.workspace) outcome)) }
    else some { s with tasks := s.tasks.set i (.leader l (.clear outcome)) }
  | .store started checked outcome => some { s with
      slot := update s.slot l.slot
        { s.slot l.slot with state := some ⟨outcome, now, l.generation, started⟩ }
      stores := s.stores ++ [⟨l.workspace, started, checked, s.invalidations l.workspace⟩]
      tasks := s.tasks.set i (.leader l (.release (some outcome.stats))) }
  | .clear outcome => some { s with
      slot := update s.slot l.slot { s.slot l.slot with state := none }
      tasks := s.tasks.set i (.leader l (.release (some outcome.stats))) }
  | .release stats => some { s with
      permits := s.permits + 1
      tasks := s.tasks.set i (.unlock l.workspace l.slot none (some (l.id, stats))) }

/-- The next step of a task; `none` while it waits. -/
def runTask (i : ℕ) (now : Time) : Task → Option DiffStatsCache
  | .within w maxAge =>
    let cloned := s.clone w
    some { cloned.2 with tasks := s.tasks.set i (.prune ⟨w, maxAge, some cloned.1⟩) }
  | .prune call =>
    if s.lastPrune.any fun last => now - last < PRUNE_EVERY then
      some { s with tasks := s.tasks.set i (.entry call) }
    else some { s with
      lastPrune := some now
      tasks := s.tasks.set i (.pruning call now) }
  | .pruning call _ => some { s with tasks := s.tasks.set i (.entry call) }
  | .entry call =>
    let cloned := s.clone call.workspace
    some { cloned.2 with tasks := s.tasks.set i (.lock call cloned.1) }
  | .lock call k =>
    if (s.slot k).locked then none
    else some { s with
      slot := update s.slot k { s.slot k with locked := true }
      tasks := s.tasks.set i (.load call k (s.invalidations call.workspace)) }
  | .load call k before => some (s.runLoad i call k before now)
  | .await call id =>
    match s.outputs id with
    | some stats => some { s with
        replies := s.replies ++ [.computed call.workspace stats]
        tasks := s.tasks.eraseIdx i }
    | none => none
  | .leader l phase => s.runLeader i l now phase
  | .unlock w k held output => some { s with
      slot := update s.slot k { s.slot k with locked := false }
      tasks := s.tasks.set i (.drop w k held output) }
  | .drop _ _ _ output => some { s with
      outputs := match output with
        | some (id, stats) => update s.outputs id (some stats)
        | none => s.outputs
      tasks := s.tasks.eraseIdx i }

def step (s : DiffStatsCache) : Act → Option DiffStatsCache
  | .getOrCompute w maxAge => some { s with tasks := s.tasks ++ [.prune ⟨w, maxAge, none⟩] }
  | .getWithin w maxAge => some { s with tasks := s.tasks ++ [.within w maxAge] }
  | .task i now => (s.tasks[i]?).bind (s.runTask i now)
  | .retain i w =>
    match s.tasks[i]?, s.slots w with
    | some (.pruning _ now), some k =>
      if s.retains k now then none else some { s with slots := update s.slots w none }
    | _, _ => none
  | .finish i result =>
    match s.tasks[i]? with
    | some (.leader l (.running started)) =>
      some { s with tasks := s.tasks.set i (.leader l (.computed started result)) }
    | _ => none
  | .timeout i =>
    match s.tasks[i]? with
    | some (.lock ⟨w, _, some k⟩ _) | some (.await ⟨w, _, some k⟩ _) => some { s with
        replies := s.replies ++ [.lastKnown w (s.slot k).lastKnown]
        tasks := s.tasks.eraseIdx i }
    | _ => none
  | .cancel i =>
    match s.tasks[i]? with
    | some (.lock _ _) | some (.await _ _) => some { s with tasks := s.tasks.eraseIdx i }
    | _ => none
  | .invalidate w => some { s with
      slot := match s.slots w with
        | some k => update s.slot k
            { s.slot k with generation := ((s.slot k).generation + 1) % 2 ^ 64 }
        | none => s.slot
      invalidations := update s.invalidations w (s.invalidations w + 1) }

def NoWrap (s : DiffStatsCache) : Act → Prop
  | .invalidate w => ∀ k ∈ s.slots w, (s.slot k).generation + 1 < 2 ^ 64
  | _ => True

instance (s : DiffStatsCache) : ∀ a, Decidable (NoWrap s a) := fun a => by
  cases a <;> dsimp only [NoWrap] <;> infer_instance

/-! ## What holds in every run -/

def locks (k : ℕ) : Task → Bool
  | .load _ k' _ | .unlock _ k' _ _ => k' = k
  | .leader l _ => l.slot = k
  | _ => false

def permitted : Task → Bool
  | .leader _ .permit => false
  | .leader _ _ => true
  | _ => false

def computing : Task → Bool
  | .leader _ (.running _) => true
  | _ => false

def computes (w : Uuid) : Task → Bool
  | .leader l (.running _) => l.workspace = w
  | _ => false

def PhaseOk (s : DiffStatsCache) (l : Leader) : Phase → Prop
  | .running started | .computed started _ | .check started _ =>
    (s.slot l.slot).made + l.generation ≤ started ∧ started ≤ s.invalidations l.workspace
  | .store started checked _ => (s.slot l.slot).made + l.generation ≤ started ∧ started = checked
  | .permit | .compute | .clear _ | .release _ => True

def TaskOk (s : DiffStatsCache) : Task → Prop
  | .load call _ before => before ≤ s.invalidations call.workspace
  | .leader l phase =>
    (s.slot l.slot).made + l.generation ≤ s.invalidations l.workspace ∧ PhaseOk s l phase
  | _ => True

structure Inv (concurrency : ℕ) (s : DiffStatsCache) : Prop where
  slots_lt : ∀ w k, s.slots w = some k → k < s.nextSlot
  slots_inj : ∀ w w' k, s.slots w = some k → s.slots w' = some k → w = w'
  clones : ∀ task ∈ s.tasks, ∀ c ∈ task.clones, s.slots c.1 = some c.2
  locked : ∀ k, s.tasks.countP (locks k) = (s.slot k).locked.toNat
  permits : s.tasks.countP permitted + s.permits = concurrency
  generation : ∀ w k, s.slots w = some k →
    s.invalidations w = (s.slot k).made + (s.slot k).generation
  entries : ∀ w k, s.slots w = some k → ∀ e ∈ (s.slot k).state,
    (s.slot k).made + e.generation ≤ e.started
  tasks : ∀ task ∈ s.tasks, TaskOk s task
  replies : ∀ w stats started before, .hit w stats started before ∈ s.replies → before ≤ started
  stores : ∀ stored ∈ s.stores, stored.started = stored.checked

variable {s s' : DiffStatsCache} {concurrency i k : ℕ} {w : Uuid} {now : Time} {task : Task}
  {new : List Task} {v : Slot} {l : Leader} {phase : Phase} {a : Act}

theorem Inv.start : Inv concurrency (start concurrency) :=
  ⟨nofun, nofun, nofun, fun _ => rfl, zero_add _, nofun, nofun, nofun, nofun, nofun⟩

theorem clone_of_locks (h : locks k task = true) : ∃ w, (w, k) ∈ task.clones := by
  cases task with
  | load call k' before | unlock w k' held output =>
    have hk : k' = k := of_decide_eq_true h
    rw [hk]
    exact ⟨_, mem_cons_self⟩
  | leader l phase =>
    have hk : l.slot = k := of_decide_eq_true h
    rw [← hk]
    exact ⟨_, mem_cons_self⟩
  | _ => exact absurd h false_ne_true

theorem TaskOk.mono (h : TaskOk s task)
    (hmade : ∀ c ∈ task.clones, (s'.slot c.2).made = (s.slot c.2).made)
    (hle : ∀ w, s.invalidations w ≤ s'.invalidations w) : TaskOk s' task := by
  cases task with
  | load call k before => exact le_trans h (hle call.workspace)
  | leader l phase =>
    have hslot : (s'.slot l.slot).made = (s.slot l.slot).made := hmade _ mem_cons_self
    refine ⟨?_, ?_⟩
    · rw [hslot]
      exact h.1.trans (hle l.workspace)
    · have hphase := h.2
      cases phase with
      | running started | computed started result | check started outcome =>
        simp only [PhaseOk, hslot] at hphase ⊢
        exact ⟨hphase.1, hphase.2.trans (hle l.workspace)⟩
      | store started checked outcome =>
        simp only [PhaseOk, hslot] at hphase ⊢
        exact hphase
      | _ => trivial
  | _ => trivial

/-- What a step of a task changes: the task becomes others, who take over its guard and permit. -/
structure Moved (s s' : DiffStatsCache) (i : ℕ) (task : Task) (new : List Task) : Prop where
  tasks : s'.tasks.Perm (new ++ s.tasks.eraseIdx i)
  slots : s'.slots = s.slots := by rfl
  nextSlot : s'.nextSlot = s.nextSlot := by rfl
  invalidations : s'.invalidations = s.invalidations := by rfl
  made : ∀ k, (s'.slot k).made = (s.slot k).made := by exact fun _ => rfl
  generation : ∀ k, (s'.slot k).generation = (s.slot k).generation := by exact fun _ => rfl
  locked : ∀ k, new.countP (locks k) + (s.slot k).locked.toNat =
    (locks k task).toNat + (s'.slot k).locked.toNat
  permits : new.countP permitted + s'.permits = (permitted task).toNat + s.permits

theorem Inv.move (h : Inv concurrency s) (new : List Task) (htask : s.tasks[i]? = some task)
    (hmoved : Moved s s' i task new)
    (hclones : ∀ task' ∈ new, ∀ c ∈ task'.clones, s.slots c.1 = some c.2)
    (hentries : ∀ w k, s.slots w = some k → ∀ e ∈ (s'.slot k).state,
      (s.slot k).made + e.generation ≤ e.started) (hnew : ∀ task' ∈ new, TaskOk s task')
    (hreplies : ∀ w stats started before, .hit w stats started before ∈ s'.replies →
      before ≤ started)
    (hstores : ∀ stored ∈ s'.stores, stored.started = stored.checked) : Inv concurrency s' := by
  have hmem {task' : Task} (hm : task' ∈ s'.tasks) : task' ∈ new ∨ task' ∈ s.tasks := by
    rw [hmoved.tasks.mem_iff, mem_append] at hm
    exact hm.imp_right mem_of_mem_eraseIdx
  have hok {task' : Task} (hok : TaskOk s task') : TaskOk s' task' :=
    hok.mono (fun c _ => hmoved.made c.2) fun w => by rw [hmoved.invalidations]
  constructor
  · rw [hmoved.slots, hmoved.nextSlot]
    exact h.slots_lt
  · rw [hmoved.slots]
    exact h.slots_inj
  · intro task' hm c hc
    rw [hmoved.slots]
    rcases hmem hm with hm | hm
    · exact hclones task' hm c hc
    · exact h.clones task' hm c hc
  · intro k
    have hcount := countP_of_perm (p := locks k) htask hmoved.tasks
    have hold := h.locked k
    have hlocked := hmoved.locked k
    omega
  · have hcount := countP_of_perm (p := permitted) htask hmoved.tasks
    have hold := h.permits
    have hpermits := hmoved.permits
    omega
  · intro w k hk
    rw [hmoved.slots] at hk
    rw [hmoved.invalidations, hmoved.made, hmoved.generation]
    exact h.generation w k hk
  · intro w k hk e he
    rw [hmoved.slots] at hk
    rw [hmoved.made]
    exact hentries w k hk e he
  · intro task' hm
    rcases hmem hm with hm | hm
    · exact hok (hnew task' hm)
    · exact hok (h.tasks task' hm)
  · exact hreplies
  · exact hstores

theorem apply_update {α : Type*} {f : Slot → α} (hv : f v = f (s.slot k)) (k' : ℕ) :
    f (update s.slot k v k') = f (s.slot k') := by
  by_cases hk : k' = k
  · rw [hk, update_self, hv]
  · rw [update_of_ne hk]

theorem Inv.entries_update (h : Inv concurrency s) (hv : v.state = (s.slot k).state) (w : Uuid)
    (k' : ℕ) (hk : s.slots w = some k') (e : Entry) (he : e ∈ (update s.slot k v k').state) :
    (s.slot k').made + e.generation ≤ e.started := by
  rw [apply_update hv] at he
  exact h.entries w k' hk e he

theorem Inv.set {next : Task} (h : Inv concurrency s) (htask : s.tasks[i]? = some task)
    (hlocks : ∀ k, locks k next = locks k task) (hpermitted : permitted next = permitted task)
    (hclones : ∀ c ∈ next.clones, s.slots c.1 = some c.2) (hok : TaskOk s next) :
    Inv concurrency { s with tasks := s.tasks.set i next } := by
  refine h.move [next] htask ?_ ?_ h.entries ?_ h.replies h.stores
  · refine ⟨set_perm_of_getElem? htask next, rfl, rfl, rfl, fun _ => rfl, fun _ => rfl,
      fun k => ?_, ?_⟩
    · simp only [countP_singleton, hlocks]
      cases locks k task <;> simp
    · simp only [countP_singleton, hpermitted]
      cases permitted task <;> simp
  · intro task' hm
    rw [mem_singleton.1 hm]
    exact hclones
  · intro task' hm
    rw [mem_singleton.1 hm]
    exact hok

theorem Inv.lastPrune {last : Option Time} (h : Inv concurrency s) :
    Inv concurrency { s with lastPrune := last } :=
  ⟨h.slots_lt, h.slots_inj, h.clones, h.locked, h.permits, h.generation, h.entries, h.tasks,
    h.replies, h.stores⟩

theorem Inv.clone (h : Inv concurrency s) (w : Uuid) : Inv concurrency (s.clone w).2 ∧
    (s.clone w).2.slots w = some (s.clone w).1 ∧ (s.clone w).2.tasks = s.tasks ∧
    ∀ w' k, s.slots w' = some k → (s.clone w).2.slots w' = some k := by
  unfold DiffStatsCache.clone
  cases hslot : s.slots w with
  | some k => exact ⟨h, hslot, rfl, fun _ _ hk => hk⟩
  | none =>
    -- no task has a clone of the new slot, and none of the workspace
    have hne {w' : Uuid} {k : ℕ} (hk : s.slots w' = some k) : w' ≠ w ∧ k ≠ s.nextSlot := by
      constructor
      · rintro rfl
        rw [hslot] at hk
        cases hk
      · have := h.slots_lt w' k hk
        omega
    have hcases {w' : Uuid} {k : ℕ} (hk : update s.slots w (some s.nextSlot) w' = some k) :
        w' = w ∧ k = s.nextSlot ∨ s.slots w' = some k := by
      by_cases hw : w' = w
      · rw [hw, update_self] at hk
        exact .inl ⟨hw, (some.inj hk).symm⟩
      · rw [update_of_ne hw] at hk
        exact .inr hk
    have hsame {k : ℕ} (hk : k ≠ s.nextSlot) :
        update s.slot s.nextSlot (.new (s.invalidations w)) k = s.slot k := update_of_ne hk _ _
    refine ⟨⟨?_, ?_, ?_, ?_, h.permits, ?_, ?_, ?_, h.replies, h.stores⟩, update_self _ _ _, rfl,
      fun w' k hk => ?_⟩
    · intro w' k hk
      rcases hcases hk with ⟨-, rfl⟩ | hk
      · exact lt_succ_self _
      · exact lt_succ_of_lt (h.slots_lt w' k hk)
    · intro w₁ w₂ k h₁ h₂
      rcases hcases h₁ with ⟨rfl, rfl⟩ | h₁
      · rcases hcases h₂ with ⟨rfl, -⟩ | h₂
        · rfl
        · exact absurd rfl (hne h₂).2
      · rcases hcases h₂ with ⟨-, rfl⟩ | h₂
        · exact absurd rfl (hne h₁).2
        · exact h.slots_inj w₁ w₂ k h₁ h₂
    · intro task hm c hc
      have hk := h.clones task hm c hc
      show update s.slots w (some s.nextSlot) c.1 = some c.2
      rw [update_of_ne (hne hk).1]
      exact hk
    · intro k
      show s.tasks.countP (locks k) =
        (update s.slot s.nextSlot (.new (s.invalidations w)) k).locked.toNat
      by_cases hk : k = s.nextSlot
      · rw [hk, update_self]
        refine countP_eq_zero.2 fun task hm hlocks => ?_
        obtain ⟨w', hc⟩ := clone_of_locks hlocks
        exact absurd rfl (hne (h.clones task hm _ hc)).2
      · rw [hsame hk]
        exact h.locked k
    · intro w' k hk
      show s.invalidations w' = (update s.slot s.nextSlot _ k).made +
        (update s.slot s.nextSlot _ k).generation
      rcases hcases hk with ⟨rfl, rfl⟩ | hk
      · rw [update_self]
        rfl
      · rw [hsame (hne hk).2]
        exact h.generation w' k hk
    · intro w' k hk e he
      show (update s.slot s.nextSlot (.new (s.invalidations w)) k).made + e.generation ≤ e.started
      replace he : e ∈ (update s.slot s.nextSlot (.new (s.invalidations w)) k).state := he
      rcases hcases hk with ⟨rfl, rfl⟩ | hk
      · rw [update_self] at he
        cases he
      · rw [hsame (hne hk).2] at he ⊢
        exact h.entries w' k hk e he
    · intro task hm
      refine (h.tasks task hm).mono (fun c hc => ?_) fun _ => le_rfl
      exact congrArg Slot.made (hsame (hne (h.clones task hm c hc)).2)
    · show update s.slots w (some s.nextSlot) w' = some k
      rw [update_of_ne (hne hk).1]
      exact hk

theorem Inv.eraseIdx {replies : List Reply} {outputs : ℕ → Option (Option DiffStats)}
    (h : Inv concurrency s) (htask : s.tasks[i]? = some task) (hlocks : ∀ k, locks k task = false)
    (hpermitted : permitted task = false)
    (hreplies : ∀ w stats started before, .hit w stats started before ∈ replies →
      before ≤ started) :
    Inv concurrency { s with
      replies := replies
      outputs := outputs
      tasks := s.tasks.eraseIdx i } := by
  refine h.move [] htask ?_ (fun _ hm => absurd hm not_mem_nil) h.entries
    (fun _ hm => absurd hm not_mem_nil) hreplies h.stores
  refine ⟨Perm.refl _, rfl, rfl, rfl, fun _ => rfl, fun _ => rfl, fun k => ?_, ?_⟩
  · simp [hlocks]
  · simp [hpermitted]

theorem Inv.lock {call : Call} (h : Inv concurrency s)
    (htask : s.tasks[i]? = some (.lock call k)) (hfree : (s.slot k).locked = false) :
    Inv concurrency { s with
      slot := update s.slot k { s.slot k with locked := true }
      tasks := s.tasks.set i (.load call k (s.invalidations call.workspace)) } := by
  have hclones := h.clones _ (mem_of_getElem? htask)
  refine h.move [.load call k (s.invalidations call.workspace)] htask ?_ ?_
    (h.entries_update rfl) ?_ h.replies h.stores
  · refine ⟨set_perm_of_getElem? htask _, rfl, rfl, rfl, ?_, ?_, ?_, rfl⟩
    · intro k'
      refine apply_update ?_ k'
      rfl
    · intro k'
      refine apply_update ?_ k'
      rfl
    · intro k'
      show _ = _ + (update s.slot k _ k').locked.toNat
      by_cases hk : k' = k
      · simp [hk, locks, hfree]
      · simp [hk, locks, Ne.symm hk]
  · intro task' hm
    rw [mem_singleton.1 hm]
    exact hclones
  · intro task' hm
    rw [mem_singleton.1 hm]
    exact le_rfl

theorem Inv.unlock {held : Option ℕ} {output : Option (ℕ × Option DiffStats)}
    (h : Inv concurrency s) (htask : s.tasks[i]? = some (.unlock w k held output)) :
    Inv concurrency { s with
      slot := update s.slot k { s.slot k with locked := false }
      tasks := s.tasks.set i (.drop w k held output) } := by
  have hm := mem_of_getElem? htask
  have hclones := h.clones _ hm
  have hlocked : (s.slot k).locked = true := by
    have hpos : 0 < s.tasks.countP (locks k) := countP_pos_iff.2 ⟨_, hm, by simp [locks]⟩
    rw [h.locked k] at hpos
    by_contra hfree
    rw [not_eq_true] at hfree
    rw [hfree] at hpos
    exact absurd hpos (lt_irrefl 0)
  refine h.move [.drop w k held output] htask ?_ ?_ (h.entries_update rfl) ?_ h.replies h.stores
  · refine ⟨set_perm_of_getElem? htask _, rfl, rfl, rfl, ?_, ?_, ?_, rfl⟩
    · intro k'
      refine apply_update ?_ k'
      rfl
    · intro k'
      refine apply_update ?_ k'
      rfl
    · intro k'
      show _ = _ + (update s.slot k _ k').locked.toNat
      by_cases hk : k' = k
      · simp [hk, locks, hlocked]
      · simp [hk, locks, Ne.symm hk]
  · intro task' hm'
    rw [mem_singleton.1 hm']
    exact hclones
  · intro task' hm'
    rw [mem_singleton.1 hm']
    trivial

/-- The lock of the slot is held: the entry is fresh, or a leader is spawned and gets the guard. -/
theorem Inv.runLoad {call : Call} {before : ℕ} (h : Inv concurrency s)
    (htask : s.tasks[i]? = some (.load call k before)) :
    Inv concurrency (s.runLoad i call k before now) := by
  have hm := mem_of_getElem? htask
  have hclones := h.clones _ hm
  have hslot : s.slots call.workspace = some k := hclones (call.workspace, k) mem_cons_self
  have hbefore : before ≤ s.invalidations call.workspace := h.tasks _ hm
  have hgeneration := h.generation _ _ hslot
  unfold DiffStatsCache.runLoad
  dsimp only
  split
  case h_1 entry hentry =>
    obtain ⟨hstate, hfresh⟩ := filter_eq_some_iff.1 hentry
    simp only [Entry.isFresh, and_eq_true, decide_eq_true_eq] at hfresh
    have hstarted := h.entries _ _ hslot entry hstate
    refine h.move [.unlock call.workspace k call.held none] htask ?_ ?_ h.entries ?_ ?_ h.stores
    · refine ⟨set_perm_of_getElem? htask _, rfl, rfl, rfl, fun _ => rfl, fun _ => rfl,
        fun k' => ?_, rfl⟩
      by_cases hk : k = k'
      all_goals simp [locks, hk]
    · intro task' hm'
      rw [mem_singleton.1 hm']
      exact hclones
    · intro task' hm'
      rw [mem_singleton.1 hm']
      trivial
    · intro w stats started before' hreply
      rcases mem_append.1 hreply with hreply | hreply
      · exact h.replies w stats started before' hreply
      · -- no invalidation since the leader loaded the generation
        have heq := mem_singleton.1 hreply
        injection heq with hw hstats hstarted' hbefore'
        omega
  case h_2 =>
    refine h.move [.await call s.nextLeader,
      .leader ⟨s.nextLeader, call.workspace, k, (s.slot k).generation⟩ .permit] htask ?_ ?_
      h.entries ?_ h.replies h.stores
    · refine ⟨?_, rfl, rfl, rfl, fun _ => rfl, fun _ => rfl, fun k' => ?_, rfl⟩
      · have hset := (set_perm_of_getElem? htask (.await call s.nextLeader)).append_right
          [.leader ⟨s.nextLeader, call.workspace, k, (s.slot k).generation⟩ .permit]
        refine hset.trans (Perm.cons _ ?_)
        exact perm_append_singleton _ _
      · by_cases hk : k = k'
        all_goals simp [locks, hk]
    · intro task' hm' c hc
      rcases mem_cons.1 hm' with rfl | hm'
      · exact hclones c (mem_cons_of_mem _ hc)
      · rw [mem_singleton.1 hm'] at hc
        rw [mem_singleton.1 hc]
        exact hslot
    · intro task' hm'
      rcases mem_cons.1 hm' with rfl | hm'
      · trivial
      · rw [mem_singleton.1 hm']
        exact ⟨le_of_eq hgeneration.symm, trivial⟩

theorem Inv.write {next : Phase} {stores : List Stored} (h : Inv concurrency s)
    (htask : s.tasks[i]? = some (.leader l phase))
    (hclones : ∀ c ∈ [(l.workspace, l.slot)], s.slots c.1 = some c.2)
    (hlocked : v.locked = (s.slot l.slot).locked)
    (hmade : v.made = (s.slot l.slot).made)
    (hgeneration : v.generation = (s.slot l.slot).generation)
    (hpermitted : permitted (.leader l next) = permitted (.leader l phase))
    (hentries : ∀ w k, s.slots w = some k → ∀ e ∈ (update s.slot l.slot v k).state,
      (s.slot k).made + e.generation ≤ e.started)
    (hok : TaskOk s (.leader l next))
    (hstores : ∀ stored ∈ stores, stored.started = stored.checked) :
    Inv concurrency { s with
      slot := update s.slot l.slot v
      stores := stores
      tasks := s.tasks.set i (.leader l next) } := by
  refine h.move [.leader l next] htask ?_ ?_ hentries ?_ h.replies hstores
  · refine ⟨set_perm_of_getElem? htask _, rfl, rfl, rfl, ?_, ?_, ?_, ?_⟩
    · exact apply_update hmade
    · exact apply_update hgeneration
    · intro k
      have hsame : (update s.slot l.slot v k).locked = (s.slot k).locked := apply_update hlocked k
      show _ = _ + (update s.slot l.slot v k).locked.toNat
      rw [hsame, countP_singleton, show locks k (.leader l next) = locks k (.leader l phase)
        from rfl]
      cases locks k (.leader l phase) <;> simp
    · rw [countP_singleton, hpermitted]
      cases permitted (.leader l phase) <;> simp
  · intro task' hm
    rw [mem_singleton.1 hm]
    exact hclones
  · intro task' hm
    rw [mem_singleton.1 hm]
    exact hok

section

variable (h : Inv concurrency s)

include h

theorem Inv.runLeader (htask : s.tasks[i]? = some (.leader l phase))
    (hstep : s.runLeader i l now phase = some s') : Inv concurrency s' := by
  have hm := mem_of_getElem? htask
  have hclones := h.clones _ hm
  have hslot : s.slots l.workspace = some l.slot := hclones _ mem_cons_self
  obtain ⟨hloaded, hphase⟩ : TaskOk s (.leader l phase) := h.tasks _ hm
  cases phase with
  | permit =>
    simp only [DiffStatsCache.runLeader, ite_none_left_eq_some] at hstep
    obtain ⟨hpermits, hs⟩ := hstep
    cases hs
    refine h.move [.leader l .compute] htask ?_ ?_ h.entries ?_ h.replies h.stores
    · refine ⟨set_perm_of_getElem? htask _, rfl, rfl, rfl, fun _ => rfl, fun _ => rfl,
        fun k => ?_, ?_⟩
      · simp only [countP_singleton, locks]
        by_cases hk : l.slot = k
        all_goals simp [hk]
      · show 1 + (s.permits - 1) = 0 + s.permits
        omega
    · intro task' hm'
      rw [mem_singleton.1 hm']
      exact hclones
    · intro task' hm'
      rw [mem_singleton.1 hm']
      exact ⟨hloaded, trivial⟩
  | compute =>
    cases hstep
    exact h.set htask (fun _ => rfl) rfl hclones ⟨hloaded, hloaded, le_rfl⟩
  | running started => cases hstep
  | computed started result =>
    cases result with cases hstep
    | none => exact h.set htask (fun _ => rfl) rfl hclones ⟨hloaded, trivial⟩
    | some outcome =>
      exact h.write htask hclones rfl rfl rfl rfl (h.entries_update rfl) ⟨hloaded, hphase⟩ h.stores
  | check started outcome =>
    simp only [DiffStatsCache.runLeader] at hstep
    split at hstep
    case isTrue hsame =>
      cases hstep
      refine h.set htask (fun _ => rfl) rfl hclones ⟨hloaded, hphase.1, ?_⟩
      -- the generation is the one that was loaded before the start
      have hgeneration := h.generation _ _ hslot
      simp only [PhaseOk] at hphase
      omega
    case isFalse =>
      cases hstep
      exact h.set htask (fun _ => rfl) rfl hclones ⟨hloaded, trivial⟩
  | store started checked outcome =>
    cases hstep
    refine h.write htask hclones rfl rfl rfl rfl (fun w k hk e he => ?_) ⟨hloaded, trivial⟩ ?_
    · by_cases hl : k = l.slot
      · rw [hl, update_self] at he
        rw [hl, ← some.inj he]
        exact hphase.1
      · rw [update_of_ne hl] at he
        exact h.entries w k hk e he
    · intro stored hstored
      rcases mem_append.1 hstored with hstored | hstored
      · exact h.stores stored hstored
      · rw [mem_singleton.1 hstored]
        exact hphase.2
  | clear outcome =>
    cases hstep
    refine h.write htask hclones rfl rfl rfl rfl (fun w k hk e he => ?_) ⟨hloaded, trivial⟩ h.stores
    by_cases hl : k = l.slot
    · rw [hl, update_self] at he
      cases he
    · rw [update_of_ne hl] at he
      exact h.entries w k hk e he
  | release stats =>
    cases hstep
    refine h.move [.unlock l.workspace l.slot none (some (l.id, stats))] htask ?_ ?_
      h.entries ?_ h.replies h.stores
    · refine ⟨set_perm_of_getElem? htask _, rfl, rfl, rfl, fun _ => rfl, fun _ => rfl,
        fun k => ?_, ?_⟩
      · simp only [countP_singleton, locks]
        by_cases hk : l.slot = k
        all_goals simp [hk]
      · show 0 + (s.permits + 1) = 1 + s.permits
        omega
    · intro task' hm'
      rw [mem_singleton.1 hm']
      exact hclones
    · intro task' hm'
      rw [mem_singleton.1 hm']
      trivial

theorem Inv.runTask (htask : s.tasks[i]? = some task)
    (hstep : s.runTask i now task = some s') : Inv concurrency s' := by
  have hclones := h.clones _ (mem_of_getElem? htask)
  cases task with
  | within w maxAge =>
    cases hstep
    obtain ⟨hcloned, hslot, htasks, -⟩ := h.clone w
    rw [← htasks] at htask ⊢
    refine hcloned.set htask (fun _ => rfl) rfl (fun c hc => ?_) trivial
    rw [mem_singleton.1 hc]
    exact hslot
  | prune call =>
    simp only [DiffStatsCache.runTask] at hstep
    split at hstep
    case isTrue =>
      cases hstep
      exact h.set htask (fun _ => rfl) rfl hclones trivial
    case isFalse =>
      cases hstep
      have hset : Inv concurrency { s with tasks := s.tasks.set i (.pruning call now) } :=
        h.set htask (fun _ => rfl) rfl hclones trivial
      exact hset.lastPrune
  | pruning call last =>
    cases hstep
    exact h.set htask (fun _ => rfl) rfl hclones trivial
  | entry call =>
    cases hstep
    obtain ⟨hcloned, hslot, htasks, hkept⟩ := h.clone call.workspace
    rw [← htasks] at htask ⊢
    refine hcloned.set htask (fun _ => rfl) rfl (fun c hc => ?_) trivial
    rcases mem_cons.1 hc with rfl | hc
    · exact hslot
    · exact hkept _ _ (hclones c hc)
  | lock call k =>
    simp only [DiffStatsCache.runTask, ite_none_left_eq_some] at hstep
    obtain ⟨hfree, hs⟩ := hstep
    cases hs
    exact h.lock htask (not_eq_true _ ▸ hfree)
  | load call k before =>
    cases hstep
    exact h.runLoad htask
  | await call id =>
    simp only [DiffStatsCache.runTask] at hstep
    split at hstep
    case h_1 stats _ =>
      cases hstep
      refine h.eraseIdx htask (fun _ => rfl) rfl fun w stats' started before hm => ?_
      rcases mem_append.1 hm with hm | hm
      · exact h.replies w stats' started before hm
      · exact absurd (mem_singleton.1 hm) nofun
    case h_2 => cases hstep
  | leader l phase => exact h.runLeader htask hstep
  | unlock w k held output =>
    cases hstep
    exact h.unlock htask
  | drop w k held output =>
    cases hstep
    exact h.eraseIdx htask (fun _ => rfl) rfl h.replies

theorem Inv.call (hclones : task.clones = [])
    (hlocks : ∀ k, locks k task = false) (hpermitted : permitted task = false)
    (hok : TaskOk s task) : Inv concurrency { s with tasks := s.tasks ++ [task] } := by
  have hmem {task' : Task} (hm : task' ∈ s.tasks ++ [task]) : task' ∈ s.tasks ∨ task' = task := by
    rw [mem_append, mem_singleton] at hm
    exact hm
  refine ⟨h.slots_lt, h.slots_inj, fun task' hm c hc => ?_, fun k => ?_, ?_, h.generation,
    h.entries, fun task' hm => ?_, h.replies, h.stores⟩
  · rcases hmem hm with hm | rfl
    · exact h.clones task' hm c hc
    · rw [hclones] at hc
      cases hc
  · show (s.tasks ++ [task]).countP (locks k) = (s.slot k).locked.toNat
    simp [hlocks, h.locked k]
  · show (s.tasks ++ [task]).countP permitted + s.permits = concurrency
    simp [hpermitted, h.permits]
  · rcases hmem hm with hm | rfl
    · exact h.tasks task' hm
    · exact hok

theorem Inv.retain (hslot : s.slots w = some k) (hretains : s.retains k now = false) :
    Inv concurrency { s with slots := update s.slots w none } := by
  have hsub {w' : Uuid} {k' : ℕ} (hk : update s.slots w none w' = some k') :
      s.slots w' = some k' := by
    by_cases hw : w' = w
    · rw [hw, update_self] at hk
      cases hk
    · rwa [update_of_ne hw] at hk
  refine ⟨fun w' k' hk => h.slots_lt w' k' (hsub hk),
    fun w₁ w₂ k' h₁ h₂ => h.slots_inj w₁ w₂ k' (hsub h₁) (hsub h₂), fun task hm c hc => ?_,
    h.locked,
    h.permits, fun w' k' hk => h.generation w' k' (hsub hk),
    fun w' k' hk => h.entries w' k' (hsub hk), h.tasks, h.replies, h.stores⟩
  have hk := h.clones task hm c hc
  have hne : c.1 ≠ w := by
    intro hw
    rw [hw, hslot] at hk
    have hany : s.tasks.any (fun task => task.clones.any (·.2 = k)) = true := by
      refine any_eq_true.2 ⟨task, hm, any_eq_true.2 ⟨c, hc, ?_⟩⟩
      exact decide_eq_true (some.inj hk).symm
    rw [DiffStatsCache.retains, hany, Bool.true_or] at hretains
    cases hretains
  show update s.slots w none c.1 = some c.2
  rw [update_of_ne hne]
  exact hk

theorem Inv.invalidate (hok : NoWrap s (.invalidate w))
    (hstep : step s (.invalidate w) = some s') : Inv concurrency s' := by
  cases hstep
  have hle (w' : Uuid) :
      s.invalidations w' ≤ update s.invalidations w (s.invalidations w + 1) w' := by
    by_cases hw : w' = w
    · rw [hw, update_self]
      exact le_succ _
    · rw [update_of_ne hw]
  cases hslot : s.slots w with
  | none =>
    have hne {w' : Uuid} {k : ℕ} (hk : s.slots w' = some k) : w' ≠ w := by
      rintro rfl
      rw [hslot] at hk
      cases hk
    refine ⟨h.slots_lt, h.slots_inj, h.clones, h.locked, h.permits, fun w' k hk => ?_, h.entries,
      fun task hm => (h.tasks task hm).mono (fun _ _ => rfl) hle, h.replies, h.stores⟩
    show update s.invalidations w (s.invalidations w + 1) w' = _
    rw [update_of_ne (hne hk)]
    exact h.generation w' k hk
  | some k =>
    have hwrap : ((s.slot k).generation + 1) % 2 ^ 64 = (s.slot k).generation + 1 :=
      mod_eq_of_lt (hok k hslot)
    simp only [hwrap]
    have hmade (k' : ℕ) : (update s.slot k
        { s.slot k with generation := (s.slot k).generation + 1 } k').made = (s.slot k').made :=
      apply_update (f := Slot.made) (by rfl) k'
    have hlocked (k' : ℕ) : (update s.slot k
        { s.slot k with generation := (s.slot k).generation + 1 } k').locked = (s.slot k').locked :=
      apply_update (f := Slot.locked) (by rfl) k'
    have hstate (k' : ℕ) : (update s.slot k
        { s.slot k with generation := (s.slot k).generation + 1 } k').state = (s.slot k').state :=
      apply_update (f := Slot.state) (by rfl) k'
    refine ⟨h.slots_lt, h.slots_inj, h.clones, fun k' => ?_, h.permits, fun w' k' hk => ?_,
      fun w' k' hk e he => ?_, fun task hm => (h.tasks task hm).mono (fun c _ => hmade c.2) hle,
      h.replies, h.stores⟩
    · rw [hlocked]
      exact h.locked k'
    · have hgeneration := h.generation w' k' hk
      rw [hmade]
      show update s.invalidations w (s.invalidations w + 1) w' = _ +
        (update s.slot k _ k').generation
      by_cases hw : w' = w
      · have hk' : k' = k := by
          rw [hw, hslot] at hk
          exact (some.inj hk).symm
        rw [hw] at hgeneration ⊢
        rw [hk'] at hgeneration ⊢
        rw [update_self, update_self]
        show _ = _ + ((s.slot k).generation + 1)
        omega
      · have hk' : k' ≠ k := by
          rintro rfl
          exact hw (h.slots_inj _ _ _ hk hslot)
        rw [update_of_ne hw, update_of_ne hk']
        exact hgeneration
    · rw [hstate] at he
      rw [hmade]
      exact h.entries w' k' hk e he

theorem Inv.step (hok : NoWrap s a) (hstep : step s a = some s') : Inv concurrency s' := by
  cases a with simp only [DiffStatsCache.step] at hstep
  | getOrCompute w maxAge | getWithin w maxAge =>
    cases hstep
    exact h.call rfl (fun _ => rfl) rfl trivial
  | task i now =>
    obtain ⟨task, htask, hrun⟩ := bind_eq_some_iff.1 hstep
    exact h.runTask htask hrun
  | retain i w =>
    split at hstep
    case h_1 call now k htask hslot =>
      simp only [ite_none_left_eq_some] at hstep
      rw [← some.inj hstep.2]
      exact h.retain hslot (not_eq_true _ ▸ hstep.1)
    case h_2 => cases hstep
  | finish i result =>
    split at hstep
    case h_1 l started htask =>
      cases hstep
      have hm := mem_of_getElem? htask
      have hclones := h.clones _ hm
      obtain ⟨hloaded, hphase⟩ := h.tasks _ hm
      exact h.set htask (fun _ => rfl) rfl hclones ⟨hloaded, hphase⟩
    case h_2 => cases hstep
  | timeout i =>
    split at hstep
    case h_3 => cases hstep
    all_goals
      rename_i w maxAge held _ htask
      cases hstep
      refine h.eraseIdx htask (fun _ => rfl) rfl fun w stats started before hm => ?_
      rcases mem_append.1 hm with hm | hm
      · exact h.replies w stats started before hm
      · exact absurd (mem_singleton.1 hm) nofun
  | cancel i =>
    split at hstep
    case h_3 => cases hstep
    all_goals
      rename_i htask
      cases hstep
      exact h.eraseIdx htask (fun _ => rfl) rfl h.replies
  | invalidate w => exact h.invalidate hok hstep

/-- The leader of a workspace has the guard of the slot that the workspace has. -/
theorem Inv.computes_le_one (w : Uuid) : s.tasks.countP (computes w) ≤ 1 := by
  by_cases hany : s.tasks.any (computes w) = true
  · obtain ⟨task, hm, hcomputes⟩ := any_eq_true.1 hany
    have hslot {task : Task} (hm : task ∈ s.tasks) (hcomputes : computes w task = true) :
        ∃ k, s.slots w = some k ∧ locks k task = true := by
      cases task with
      | leader l phase =>
        have hw : l.workspace = w := by
          cases phase with
          | running started => exact of_decide_eq_true hcomputes
          | _ => exact absurd hcomputes false_ne_true
        rw [← hw]
        exact ⟨l.slot, h.clones _ hm _ mem_cons_self, by simp [locks]⟩
      | _ => exact absurd hcomputes false_ne_true
    obtain ⟨k, hk, -⟩ := hslot hm hcomputes
    have hle : s.tasks.countP (computes w) ≤ s.tasks.countP (locks k) := by
      refine countP_mono_left fun task' hm' hcomputes' => ?_
      obtain ⟨k', hk', hlocks⟩ := hslot hm' hcomputes'
      rw [hk] at hk'
      rwa [some.inj hk']
    have hlocked := h.locked k
    have := toNat_le (s.slot k).locked
    omega
  · have hzero : s.tasks.countP (computes w) = 0 :=
      countP_eq_zero.2 fun task hm hc => hany (any_eq_true.2 ⟨task, hm, hc⟩)
    omega

theorem Inv.computing_le : s.tasks.countP computing ≤ concurrency := by
  have hle : s.tasks.countP computing ≤ s.tasks.countP permitted := by
    refine countP_mono_left fun task _ hcomputing => ?_
    cases task with
    | leader l phase =>
      cases phase with
      | running started => rfl
      | _ => exact absurd hcomputing false_ne_true
    | _ => exact absurd hcomputing false_ne_true
  have := h.permits
  omega

end

/-- In every run in which no generation wraps, a fresh hit was computed after the last invalidation
that was made before the call had the lock, no two computations of a workspace and no more than
`concurrency` computations run, and nothing was invalidated between the start of a computation
whose result is stored and the check before that. -/
theorem cache_linearizable (concurrency : ℕ) (s : DiffStatsCache)
    (h : Reachable step NoWrap (· = start concurrency) s) :
    (∀ w stats started before, .hit w stats started before ∈ s.replies → before ≤ started) ∧
    (∀ w, s.tasks.countP (computes w) ≤ 1) ∧ s.tasks.countP computing ≤ concurrency ∧
    ∀ stored ∈ s.stores, stored.started = stored.checked := by
  have hinv : Inv concurrency s := by
    refine h.invariant ?_ fun _ _ _ hinv hok hstep => hinv.step hok hstep
    rintro _ rfl
    exact Inv.start
  exact ⟨hinv.replies, hinv.computes_le_one, hinv.computing_le, hinv.stores⟩

/-- A workspace that is computed, its result being stored and dropped by the leader. -/
def computeOnce : List Act :=
  [.getOrCompute 7 (seconds 30), .task 0 0, .task 0 0, .task 0 0, .task 0 0, .task 0 0, .task 1 0,
    .task 1 0, .finish 1 (some ⟨⟨1, 10, 1⟩, true⟩), .task 1 0, .task 1 0, .task 1 0, .task 1 0,
    .task 1 0, .task 1 0, .task 0 0]

/-- A later call, while the slots need not be pruned. -/
def callAgain : List Act :=
  [.getOrCompute 7 (seconds 30), .task 0 1, .task 0 1, .task 0 1, .task 0 1]

/-- A call that computes the workspace anew, and what happens while it computes. -/
def computeAgain (acts : List Act) : List Act :=
  [.getOrCompute 7 (seconds 30), .task 0 1, .task 0 1, .task 0 1, .task 0 1, .task 1 1,
    .task 1 1] ++ acts ++ [.finish 1 (some ⟨⟨2, 20, 2⟩, true⟩), .task 1 1, .task 1 1, .task 1 1,
      .task 1 1, .task 1 1, .task 1 1, .task 0 1]

/-- A workspace is invalidated between two computations and during the second, and a later call has
the result of the third. -/
theorem hit_after_invalidation : ∃ s, Reachable step NoWrap (· = start 1) s ∧
    .hit 7 ⟨2, 20, 2⟩ 2 2 ∈ s.replies ∧ s.stores.map (·.started) = [0, 2] ∧
    s.tasks.countP (computes 7) ≤ 1 ∧ ∀ stored ∈ s.stores, stored.started = stored.checked := by
  have hexec : (exec step NoWrap (start 1) (computeOnce ++ [.invalidate 7] ++
      computeAgain [.invalidate 7] ++ computeAgain [] ++ callAgain)).map
        (fun s => (s.replies, s.stores.map (·.started))) =
      some ([.computed 7 (some ⟨1, 10, 1⟩), .computed 7 (some ⟨2, 20, 2⟩),
        .computed 7 (some ⟨2, 20, 2⟩), .hit 7 ⟨2, 20, 2⟩ 2 2], [0, 2]) := by decide +kernel
  obtain ⟨s, hs, hend⟩ := map_eq_some_iff.1 hexec
  obtain ⟨hreplies, hstarted⟩ := Prod.mk.inj hend
  have hreachable : Reachable step NoWrap (· = start 1) s := reachable_of_exec rfl hs
  obtain ⟨-, hcomputes, -, hstores⟩ := cache_linearizable 1 s hreachable
  exact ⟨s, hreachable, by simp [hreplies], hstarted, hcomputes 7, hstores⟩

/-- The workspace is invalidated `n` times. -/
def invalidated (s : DiffStatsCache) (w : Uuid) (k n : ℕ) : DiffStatsCache := { s with
  slot := update s.slot k { s.slot k with generation := ((s.slot k).generation + n) % 2 ^ 64 }
  invalidations := update s.invalidations w (s.invalidations w + n) }

theorem runs_invalidated (hslot : s.slots w = some k) (hlt : (s.slot k).generation < 2 ^ 64)
    (n : ℕ) : Runs step anyStep s (s.invalidated w k n) := by
  induction n with
  | zero =>
    have hsame : s.invalidated w k 0 = s := by
      simp only [invalidated, add_zero, mod_eq_of_lt hlt, Function.update_eq_self]
    rw [hsame]
    exact Runs.refl
  | succ n ih =>
    refine ih.tail (a := .invalidate w) trivial ?_
    simp only [step, invalidated, hslot, update_self, Function.update_idem, mod_add_mod,
      add_assoc]

/-- A result is stored although the workspace was invalidated after the computation started, which
the leader has looked for before; and after `2 ^ 64` invalidations an old result is a fresh hit. -/
theorem stored_and_stale : (∃ s, Reachable step anyStep (· = start 1) s ∧
      ∃ stored ∈ s.stores, stored.started < stored.invalidated) ∧
    ∃ s, Reachable step anyStep (· = start 1) s ∧ ∃ w stats started before,
      .hit w stats started before ∈ s.replies ∧ started < before := by
  constructor
  · have hexec : (exec step anyStep (start 1)
        (computeOnce.take 11 ++ [.invalidate 7, .task 1 0])).map (·.stores) =
        some [⟨7, 0, 0, 1⟩] := by decide +kernel
    obtain ⟨s, hs, hstores⟩ := map_eq_some_iff.1 hexec
    exact ⟨s, reachable_of_exec rfl hs, ⟨7, 0, 0, 1⟩, by simp [hstores], by decide⟩
  · have hcomputed : (exec step anyStep (start 1) computeOnce).map
        (fun s => (s.slots 7, (s.slot 0).generation)) = some (some 0, 0) := by decide +kernel
    obtain ⟨s, hs, hslot⟩ := map_eq_some_iff.1 hcomputed
    obtain ⟨hslot, hgeneration⟩ := Prod.mk.inj hslot
    have hagain : ((exec step anyStep (start 1) computeOnce).bind fun s =>
        exec step anyStep (s.invalidated 7 0 (2 ^ 64)) callAgain).map (·.replies) =
        some [.computed 7 (some ⟨1, 10, 1⟩), .hit 7 ⟨1, 10, 1⟩ 0 (2 ^ 64)] := by decide +kernel
    obtain ⟨s', hs', hreplies⟩ := map_eq_some_iff.1 hagain
    rw [hs, bind_some] at hs'
    have hreachable : Reachable step anyStep (· = start 1) s := reachable_of_exec rfl hs
    have hruns := runs_invalidated hslot (by rw [hgeneration]; exact Nat.two_pow_pos 64) (2 ^ 64)
    refine ⟨s', (hreachable.runs hruns).runs (runs_of_exec hs'), 7, ⟨1, 10, 1⟩, 0, 2 ^ 64, ?_,
      Nat.two_pow_pos 64⟩
    rw [hreplies]
    exact mem_cons_of_mem _ (mem_singleton_self _)

end DiffStatsCache

end VibeKanban.Diff
