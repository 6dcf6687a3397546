import VibeKanban.Lib.Runs
import VibeKanban.Lib.Tasks

/-!
# The gate of the metrics collector (`services/cluster/metrics.rs`)

`subscribe` counts a viewer and starts a collector task if none runs; a task that finds no viewer
gives up the slot and takes it back if a viewer came meanwhile (lines 314-354). Each load, store and
swap of the two atomics is a step. The slot is `collector_running`.

* `collector_gated`: one task ticks at a time, and only while there are viewers.
-/

namespace VibeKanban.Metrics

open Lib List Option

/-- A call of `subscribe` that has counted its viewer (lines 314-329). -/
inductive Subscribing where
  /-- It will swap `collector_running`. -/
  | ensure
  /-- It has found the flag down and will spawn the task. -/
  | spawn
  deriving DecidableEq

/-- The task of the collector (lines 330-353), by its next step. -/
inductive CollectorTask where
  /-- It waits for a tick and will load `subscribers`. -/
  | tick
  | collect
  /-- It has found no subscriber and will store `false`. -/
  | store
  /-- It will load `subscribers` again. -/
  | recheck
  /-- It has found a subscriber and will swap `collector_running`. -/
  | reclaim
  deriving DecidableEq

/-- The two atomics of `ClusterMetricsService` with the calls and tasks in flight; `subscriptions`
counts the guards that were returned, and `alive` says whether the service has an owner. -/
structure Collector where
  alive : Bool
  subscribers : ℕ
  collectorRunning : Bool
  subscriptions : ℕ
  subscribing : List Subscribing
  tasks : List CollectorTask

namespace Collector

inductive Act where
  /-- `subscribers.fetch_add(1)` (line 315). -/
  | subscribe
  /-- A call of `subscribe` goes on. -/
  | subscribing (i : ℕ)
  /-- `MetricsSubscription::drop` (lines 596-602). -/
  | drop
  | task (i : ℕ)
  | dropService

def start : Collector := ⟨true, 0, false, 0, [], []⟩

/-- A task holds the service during a round only (lines 335-340). -/
def isBetweenRounds (task : CollectorTask) : Bool := task = .tick

/-- `ensure_collector` (lines 325-354) after the first step of `subscribe`. -/
def runSubscribing (s : Collector) (i : ℕ) : Subscribing → Collector
  | .ensure =>
    if s.collectorRunning then
      { s with subscribing := s.subscribing.eraseIdx i, subscriptions := s.subscriptions + 1 }
    else { s with collectorRunning := true, subscribing := s.subscribing.set i .spawn }
  | .spawn => { s with
      subscribing := s.subscribing.eraseIdx i
      subscriptions := s.subscriptions + 1
      tasks := s.tasks ++ [.tick] }

/-- The loop of the task (lines 333-352). -/
def runTask (s : Collector) (i : ℕ) : CollectorTask → Collector
  | .tick =>
    if s.alive = false then { s with tasks := s.tasks.eraseIdx i }
    else if s.subscribers = 0 then { s with tasks := s.tasks.set i .store }
    else { s with tasks := s.tasks.set i .collect }
  | .collect => { s with tasks := s.tasks.set i .tick }
  | .store => { s with collectorRunning := false, tasks := s.tasks.set i .recheck }
  | .recheck =>
    if s.subscribers = 0 then { s with tasks := s.tasks.eraseIdx i }
    else { s with tasks := s.tasks.set i .reclaim }
  | .reclaim =>
    if s.collectorRunning then { s with tasks := s.tasks.eraseIdx i }
    else { s with collectorRunning := true, tasks := s.tasks.set i .tick }

def step (s : Collector) : Act → Option Collector
  | .subscribe =>
    if s.alive then some { s with
      subscribers := s.subscribers + 1
      subscribing := s.subscribing ++ [.ensure] }
    else none
  | .subscribing i => (s.subscribing[i]?).map (s.runSubscribing i)
  | .drop =>
    if s.subscriptions = 0 then none
    else
      let subscribers := if s.alive then s.subscribers - 1 else s.subscribers
      some { s with subscriptions := s.subscriptions - 1, subscribers := subscribers }
  | .task i => (s.tasks[i]?).map (s.runTask i)
  | .dropService =>
    if s.subscribing = [] ∧ s.tasks.all isBetweenRounds = true then some { s with alive := false }
    else none

/-! ## The slot -/

def holds : CollectorTask → Bool
  | .tick | .collect | .store => true
  | .recheck | .reclaim => false

def holders (s : Collector) : ℕ := s.tasks.countP holds + s.subscribing.count .spawn

/-- Someone will load `subscribers` or swap the flag. -/
def SomeoneLooks (s : Collector) : Prop :=
  .ensure ∈ s.subscribing ∨ .recheck ∈ s.tasks ∨ .reclaim ∈ s.tasks

/-- While the service has an owner: the flag is up exactly if the slot has a holder, which is one,
and with the flag down a subscriber has someone who looks. -/
structure Inv (s : Collector) : Prop where
  holders : s.holders = if s.collectorRunning then 1 else 0
  looks : s.collectorRunning = false → 0 < s.subscribers → s.SomeoneLooks

variable {s s' : Collector} {i : ℕ} {a : Act} {task : CollectorTask} {call : Subscribing}

open Collector

theorem inv_start : Inv start := ⟨rfl, nofun⟩

theorem Inv.running_of_pos (h : Inv s) (hpos : 0 < s.holders) : s.collectorRunning = true := by
  by_contra hnot
  have hzero := h.holders
  rw [if_neg hnot] at hzero
  omega

theorem Inv.running_of_task (h : Inv s) (htask : s.tasks[i]? = some task)
    (hholds : holds task = true) : s.collectorRunning = true := by
  refine h.running_of_pos ?_
  have hcount := countP_eraseIdx (p := holds) htask
  rw [if_pos hholds] at hcount
  unfold Collector.holders
  omega

theorem alive_runSubscribing : (s.runSubscribing i call).alive = s.alive := by
  cases call with
  | ensure =>
    simp only [runSubscribing]
    split <;> rfl
  | spawn => rfl

theorem alive_runTask : (s.runTask i task).alive = s.alive := by
  cases task with
  | tick =>
    simp only [runTask]
    split
    · rfl
    · split <;> rfl
  | collect => rfl
  | store => rfl
  | recheck | reclaim =>
    simp only [runTask]
    split <;> rfl

theorem Inv.runSubscribing (h : Inv s)
    (hcall : s.subscribing[i]? = some call) : Inv (s.runSubscribing i call) := by
  have hholders := h.holders
  unfold Collector.holders count at hholders
  cases call with
  | ensure =>
    by_cases hrunning : s.collectorRunning = true
    · have hcount := countP_eraseIdx (p := (· == Subscribing.spawn)) hcall
      rw [if_neg (by decide)] at hcount
      rw [Collector.runSubscribing, if_pos hrunning]
      refine ⟨?_, fun hdown => absurd (hdown.symm.trans hrunning) nofun⟩
      show s.tasks.countP holds + (s.subscribing.eraseIdx i).countP _ = _
      rw [← hholders]
      omega
    · have hcount := countP_set' (p := (· == Subscribing.spawn)) (b := .spawn) hcall
      rw [if_neg (by decide), if_pos (by decide)] at hcount
      rw [if_neg hrunning] at hholders
      rw [Collector.runSubscribing, if_neg hrunning]
      refine ⟨?_, nofun⟩
      show s.tasks.countP holds + (s.subscribing.set i .spawn).countP _ = 1
      omega
  | spawn =>
    have hcount := countP_eraseIdx (p := (· == Subscribing.spawn)) hcall
    rw [if_pos (by decide)] at hcount
    have hrunning : s.collectorRunning = true := by
      refine h.running_of_pos ?_
      unfold Collector.holders count
      omega
    refine ⟨?_, fun hdown => absurd (hdown.symm.trans hrunning) nofun⟩
    show (s.tasks ++ [CollectorTask.tick]).countP holds + (s.subscribing.eraseIdx i).countP _ =
      if s.collectorRunning then 1 else 0
    rw [← hholders, countP_append]
    show _ + 1 + _ = _
    omega

theorem Inv.runTask (h : Inv s) (halive : s.alive = true)
    (htask : s.tasks[i]? = some task) : Inv (s.runTask i task) := by
  have hholders := h.holders
  unfold Collector.holders at hholders
  -- a holder that stays one
  have hstays {b : CollectorTask} (hb : holds b = true) (ht : holds task = true) :
      Inv { s with tasks := s.tasks.set i b } := by
    have hcount := countP_set' (p := holds) (b := b) htask
    rw [if_pos ht, if_pos hb] at hcount
    have hrunning := h.running_of_task htask ht
    refine ⟨?_, fun hdown => absurd (hdown.symm.trans hrunning) nofun⟩
    show (s.tasks.set i b).countP holds + s.subscribing.count .spawn =
        if s.collectorRunning then 1 else 0
    omega
  -- a task that has no slot ends
  have hends (ht : holds task = false) (hlooks : s.collectorRunning = true ∨ s.subscribers = 0) :
      Inv { s with tasks := s.tasks.eraseIdx i } := by
    have hcount := countP_eraseIdx (p := holds) htask
    rw [ht, if_neg nofun] at hcount
    refine ⟨?_, fun hdown hpos => ?_⟩
    · show (s.tasks.eraseIdx i).countP holds + s.subscribing.count .spawn =
        if s.collectorRunning then 1 else 0
      omega
    · rcases hlooks with hrunning | hzero
      · exact absurd (hdown.symm.trans hrunning) nofun
      · have hpos : 0 < s.subscribers := hpos
        omega
  cases task with
  | tick =>
    rw [Collector.runTask, if_neg (by simp [halive])]
    split
    all_goals exact hstays rfl rfl
  | collect => exact hstays rfl rfl
  | store =>
    have hcount := countP_set' (p := holds) (b := .recheck) htask
    simp only [holds, if_true, if_false, Bool.false_eq_true] at hcount
    rw [if_pos (h.running_of_task htask rfl)] at hholders
    refine ⟨?_, fun _ _ => .inr (.inl (mem_set_self htask))⟩
    show (s.tasks.set i .recheck).countP holds + s.subscribing.count .spawn = 0
    omega
  | recheck =>
    by_cases hzero : s.subscribers = 0
    · rw [Collector.runTask, if_pos hzero]
      exact hends rfl (.inr hzero)
    · have hcount := countP_set' (p := holds) (b := .reclaim) htask
      simp only [holds, if_false, Bool.false_eq_true] at hcount
      rw [Collector.runTask, if_neg hzero]
      refine ⟨?_, fun _ _ => .inr (.inr (mem_set_self htask))⟩
      show (s.tasks.set i .reclaim).countP holds + s.subscribing.count .spawn =
        if s.collectorRunning then 1 else 0
      omega
  | reclaim =>
    by_cases hrunning : s.collectorRunning = true
    · rw [Collector.runTask, if_pos hrunning]
      exact hends rfl (.inl hrunning)
    · have hcount := countP_set' (p := holds) (b := .tick) htask
      simp only [holds, if_true, if_false, Bool.false_eq_true] at hcount
      rw [if_neg hrunning] at hholders
      rw [Collector.runTask, if_neg hrunning]
      refine ⟨?_, nofun⟩
      show (s.tasks.set i .tick).countP holds + s.subscribing.count .spawn = 1
      omega

theorem alive_of_step (hstep : step s a = some s') (halive : s'.alive = true) : s.alive = true := by
  cases a with
  | subscribe =>
    simp only [step] at hstep
    split at hstep
    · next hs => exact hs
    · cases hstep
  | subscribing i =>
    obtain ⟨call, hcall, rfl⟩ := map_eq_some_iff.1 hstep
    rwa [alive_runSubscribing] at halive
  | drop =>
    simp only [step] at hstep
    split at hstep
    · cases hstep
    · rw [← some.inj hstep] at halive
      exact halive
  | task i =>
    obtain ⟨task, htask, rfl⟩ := map_eq_some_iff.1 hstep
    rwa [alive_runTask] at halive
  | dropService =>
    simp only [step] at hstep
    split at hstep
    · rw [← some.inj hstep] at halive
      cases halive
    · cases hstep

theorem Inv.step (h : Inv s) (halive : s.alive = true) (hstep : step s a = some s')
    (halive' : s'.alive = true) : Inv s' := by
  cases a with
  | subscribe =>
    simp only [step, halive, if_true] at hstep
    cases hstep
    refine ⟨?_, fun _ _ => .inl (mem_append_right _ (mem_singleton_self _))⟩
    show s.tasks.countP holds + (s.subscribing ++ [Subscribing.ensure]).count .spawn = _
    rw [count_append]
    exact h.holders
  | subscribing i =>
    obtain ⟨call, hcall, rfl⟩ := map_eq_some_iff.1 hstep
    exact h.runSubscribing hcall
  | drop =>
    simp only [step, halive, if_true] at hstep
    split at hstep <;> cases hstep
    refine ⟨h.holders, fun hdown hpos => h.looks hdown ?_⟩
    have hpos : 0 < s.subscribers - 1 := hpos
    omega
  | task i =>
    obtain ⟨task, htask, rfl⟩ := map_eq_some_iff.1 hstep
    exact h.runTask halive htask
  | dropService =>
    simp only [step] at hstep
    split at hstep
    · rw [← some.inj hstep] at halive'
      cases halive'
    · cases hstep

theorem inv_of_reachable (h : Reachable step anyStep (· = start) s)
    (halive : s.alive = true) : Inv s := by
  have hinv : s.alive = true → Inv s := by
    refine h.invariant (P := fun s => s.alive = true → Inv s) ?_ ?_
    · rintro s rfl _
      exact inv_start
    · intro s a s' hs _ hstep halive'
      have halive := alive_of_step hstep halive'
      exact (hs halive).step halive hstep halive'
  exact hinv halive

/-! ## The gate -/

/-- No call and no task is between two steps on the atomics. -/
def Quiescent (s : Collector) : Prop :=
  s.subscribing = [] ∧ ∀ task ∈ s.tasks, task = .tick ∨ task = .collect

/-- While the service has an owner: where nothing is in flight, one task is live if there is a
subscriber, and the flag is up exactly if a task is live; and never are there two tasks that will
tick or collect. -/
theorem collector_gated (h : Reachable step anyStep (· = start) s) (halive : s.alive = true) :
    (s.Quiescent → (0 < s.subscribers → s.tasks.length = 1) ∧
      (s.collectorRunning = true ↔ s.tasks ≠ [])) ∧ s.tasks.countP holds ≤ 1 := by
  have hinv := inv_of_reachable h halive
  have hholders := hinv.holders
  unfold holders at hholders
  constructor
  · rintro ⟨hcalls, htasks⟩
    have hcount : s.tasks.countP holds = s.tasks.length := by
      rw [countP_eq_length]
      intro task hm
      rcases htasks task hm with rfl | rfl <;> rfl
    rw [hcalls, count_nil, Nat.add_zero, hcount] at hholders
    constructor
    · intro hpos
      by_cases hrunning : s.collectorRunning = true
      · rw [hholders, if_pos hrunning]
      · rw [Bool.not_eq_true] at hrunning
        rcases hinv.looks hrunning hpos with hm | hm | hm
        · rw [hcalls] at hm
          cases hm
        all_goals
          rcases htasks _ hm with heq | heq
          all_goals cases heq
    · rw [← length_pos_iff]
      split_ifs at hholders with hrunning
      · exact ⟨fun _ => by omega, fun _ => hrunning⟩
      · exact ⟨fun hr => absurd hr hrunning, fun hpos => by omega⟩
  · split at hholders <;> omega

/-- Two viewers of one collector. -/
theorem two_viewers_gated : ∃ s : Collector, s.subscribers = 2 ∧ s.tasks.length = 1 ∧
    s.tasks.countP holds ≤ 1 := by
  have hexec : exec step anyStep start [.subscribe, .subscribe, .subscribing 1,
      .subscribing 0, .subscribing 0, .task 0] = some ⟨true, 2, true, 2, [], [.collect]⟩ := by rfl
  have hgated := collector_gated (reachable_of_exec rfl hexec) rfl
  exact ⟨_, rfl, (hgated.1 ⟨rfl, by decide⟩).1 (by decide), hgated.2⟩

end Collector

end VibeKanban.Metrics
