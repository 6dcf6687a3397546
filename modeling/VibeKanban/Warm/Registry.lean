import VibeKanban.Cluster.Protocol
import VibeKanban.Lib.Runs
import VibeKanban.Lib.Table
import VibeKanban.Lib.Tasks

/-!
# The registry of warm app-servers (`local-deployment/src/container.rs`, lines 1173-1351)

An app-server that has ended a turn cleanly is parked in a map from sessions to entries. A follow-up
turn takes it out again; teardown, the idle sweep and shutdown remove entries under the lock and
kill them after its release. A step is one acquisition of that lock, one look at a child or one
kill. `processes`, those ever registered, is not in the source.

* `warm_processes_owned`: a live process has one owner, exactly as long as no re-park displaces one.
-/

namespace VibeKanban.Warm

open Cluster Lib Option Prod Bool
open List hiding find?_some

/-! ## Entries and calls -/

structure WarmReuseHandle where
  baseUrl : String
  serverPassword : String
  agentSessionId : Option String

/-- `WarmAppServer` (lines 1148-1162), under its key of the map; `child` is the process that its
    handle refers to. -/
structure WarmAppServer where
  session : Uuid
  child : ℕ
  reuse : WarmReuseHandle
  lastActive : ℕ

/-- An app-server that was registered. -/
structure Process where
  id : ℕ
  session : Uuid
  live : Bool
  deriving DecidableEq

/-- What a call has still to do; a call that has returned has nothing to kill. -/
inductive Call where
  | kill (entries : List WarmAppServer)
  /-- `sweep_idle_warm_entries`, with its candidates and the entry that it is to kill first -/
  | sweep (stale : List (Uuid × ℕ)) (entry : Option WarmAppServer)
  /-- `take_live_warm_entry`, before `is_alive` -/
  | probe (entry : WarmAppServer)
  /-- before `try_unwrap` -/
  | unwrap (entry : WarmAppServer)
  | repark (entry : WarmAppServer)

def Call.toKill : Call → List WarmAppServer
  | .kill entries => entries
  | .sweep _ entry => entry.toList
  | _ => []

/-- The entry that the call has taken for a follow-up. -/
def Call.taken : Call → List WarmAppServer
  | .probe entry => [entry]
  | .unwrap entry => [entry]
  | .repark entry => [entry]
  | _ => []

/-- The entry that is killed next, of the entries of a shutdown any, and what is left then. -/
def Call.next (j : ℕ) : Call → Option (WarmAppServer × Call)
  | .kill entries => entries[j]?.map fun e => (e, .kill (entries.eraseIdx j))
  | .sweep stale (some e) => some (e, .sweep stale none)
  | _ => none

/-- The registry, the calls, the app-servers that follow-ups have taken, and the clock. -/
structure State where
  entries : List WarmAppServer
  calls : List Call
  followUps : List WarmAppServer
  processes : List Process
  now : ℕ

inductive Action where
  | tick (d : ℕ)
  | exit (p : ℕ)
  /-- the turn of a follow-up ends and its app-server is killed -/
  | endFollowUp (i : ℕ)
  /-- a process that was not registered before is parked; it may have exited -/
  | register (p : ℕ) (session : Uuid) (reuse : WarmReuseHandle) (live : Bool)
  /-- the turn of a follow-up ends and its app-server is parked again -/
  | registerAgain (i : ℕ) (reuse : WarmReuseHandle)
  | reap (session : Uuid)
  | reapAll
  /-- `try_wait` answers for each child, and the sweep has read the clock before -/
  | inspect (alive : ℕ → Bool) (now : ℕ)
  | reapStale (i j : ℕ)
  | take (session : Uuid)
  | probe (i : ℕ) (alive : Bool)
  | unwrap (i : ℕ) (unique : Bool)
  | repark (i : ℕ)
  | kill (i j : ℕ)

/-- `WARM_IDLE_TIMEOUT`, in nanoseconds. -/
def warmIdleTimeout : ℕ := 30 * 60 * 1000000000

/-- `warm_entry_is_idle` (lines 1307-1309). -/
def warmEntryIsIdle (lastActive now timeout : ℕ) : Bool := timeout ≤ now - lastActive

namespace State

/-! ## Steps -/

def isLive (s : State) (p : ℕ) : Bool := s.processes.any fun q => q.id == p && q.live

def dead (s : State) (p : ℕ) : List Process :=
  update (fun q => q.id == p) (fun q => { q with live := false }) s.processes

def entryOf (s : State) (session : Uuid) : Option WarmAppServer :=
  s.entries.find? fun e => e.session == session

/-- `HashMap::remove`. -/
def remove (s : State) (session : Uuid) : List WarmAppServer :=
  delete (fun e => e.session == session) s.entries

/-- `HashMap::insert`. -/
def insert (s : State) (e : WarmAppServer) : List WarmAppServer := e :: s.remove e.session

/-- `reap_warm_entry` (lines 1196-1208), up to the kill. -/
def reap (s : State) (session : Uuid) : State :=
  { s with
    entries := s.remove session
    calls := s.calls ++ [.kill (s.entryOf session).toList] }

/-- `register_warm_entry` (lines 1239-1261), up to the kill. -/
def register (s : State) (e : WarmAppServer) : State :=
  { s with
    entries := s.insert e
    calls := s.calls ++ [.kill (s.entryOf e.session).toList] }

/-- `reap_all_warm_entries` (lines 1344-1351), up to the kills. -/
def reapAll (s : State) : State := { s with entries := [], calls := s.calls ++ [.kill s.entries] }

/-- The candidates of a sweep (lines 1323-1334). -/
def stale (s : State) (alive : ℕ → Bool) (now : ℕ) : List (Uuid × ℕ) :=
  (s.entries.filter fun e =>
    !alive e.child || warmEntryIsIdle e.lastActive now warmIdleTimeout).map fun e =>
      (e.session, e.lastActive)

/-- `take_live_warm_entry` (lines 1267-1270), up to `is_alive`. -/
def take (s : State) (session : Uuid) : State :=
  match s.entryOf session with
  | some e => { s with entries := s.remove session, calls := s.calls ++ [.probe e] }
  | none => s

def setCall (s : State) (i : ℕ) (c : Call) : State := { s with calls := s.calls.set i c }

/-- `reap_warm_entry_if_unchanged` (lines 1215-1226) for a candidate of the sweep `i`. -/
def reapStale (s : State) (i : ℕ) (rest : List (Uuid × ℕ)) (session : Uuid) (generation : ℕ) :
    State :=
  match s.entryOf session with
  | some e =>
    if e.lastActive = generation then
      { s.setCall i (.sweep rest (some e)) with entries := s.remove session }
    else s.setCall i (.sweep rest none)
  | none => s.setCall i (.sweep rest none)

def step (s : State) : Action → Option State
  | .tick d => some { s with now := s.now + d }
  | .exit p => some { s with processes := s.dead p }
  | .endFollowUp i =>
    s.followUps[i]?.map fun e =>
      { s with followUps := s.followUps.eraseIdx i, processes := s.dead e.child }
  | .register p session reuse live =>
    if s.processes.any fun q => q.id == p then none
    else some { s.register ⟨session, p, reuse, s.now⟩ with
      processes := s.processes ++ [⟨p, session, live⟩] }
  | .registerAgain i reuse =>
    s.followUps[i]?.map fun e =>
      { s.register ⟨e.session, e.child, reuse, s.now⟩ with followUps := s.followUps.eraseIdx i }
  | .reap session => some (s.reap session)
  | .reapAll => some s.reapAll
  | .inspect alive now =>
    if now ≤ s.now ∧ ∀ e ∈ s.entries, alive e.child = true → s.isLive e.child = true then
      some { s with calls := s.calls ++ [.sweep (s.stale alive now) none] }
    else none
  | .reapStale i j =>
    match s.calls[i]? with
    | some (.sweep stale none) =>
      stale[j]?.map fun candidate => s.reapStale i (stale.eraseIdx j) candidate.1 candidate.2
    | _ => none
  | .take session => some (s.take session)
  | .probe i alive =>
    match s.calls[i]? with
    | some (.probe e) =>
      if alive then if s.isLive e.child then some (s.setCall i (.unwrap e)) else none
      else some (s.setCall i (.kill [e]))
    | _ => none
  | .unwrap i unique =>
    match s.calls[i]? with
    | some (.unwrap e) =>
      if unique then some { s.setCall i (.kill []) with followUps := s.followUps ++ [e] }
      else some (s.setCall i (.repark e))
    | _ => none
  | .repark i =>
    match s.calls[i]? with
    | some (.repark e) => some { s.setCall i (.kill []) with entries := s.insert e }
    | _ => none
  | .kill i j =>
    (s.calls[i]?.bind (Call.next j)).map fun next =>
      { s.setCall i next.2 with processes := s.dead next.1.child }

structure Initial (s : State) : Prop where
  entries : s.entries = []
  calls : s.calls = []
  followUps : s.followUps = []
  processes : s.processes = []

/-! ## Owners -/

/-- How often the registry holds the process. -/
def inRegistry (s : State) (p : ℕ) : ℕ := s.entries.countP fun e => e.child == p

/-- How often a follow-up holds it, or the call that takes it for one. -/
def withFollowUp (s : State) (p : ℕ) : ℕ :=
  (s.followUps.countP fun e => e.child == p) +
    (s.calls.flatMap Call.taken).countP fun e => e.child == p

/-- How many steps are about to kill it. -/
def toBeKilled (s : State) (p : ℕ) : ℕ := (s.calls.flatMap Call.toKill).countP fun e => e.child == p

/-- Each live process is in one place, and a session has one at most that is neither with a
    follow-up nor about to be killed. -/
structure Owned (s : State) : Prop where
  placed : ∀ q ∈ s.processes, q.live = true →
    s.inRegistry q.id + s.withFollowUp q.id + s.toBeKilled q.id = 1
  single : ∀ q ∈ s.processes, ∀ r ∈ s.processes, q.live = true → r.live = true →
    q.session = r.session → s.withFollowUp q.id = 0 → s.withFollowUp r.id = 0 →
    s.toBeKilled q.id = 0 → s.toBeKilled r.id = 0 → q = r

/-- A re-park does not displace an entry whose process is live. -/
def KeepsOthers (s : State) : Action → Prop
  | .repark i => ∀ e, s.calls[i]? = some (.repark e) →
      ∀ e' ∈ s.entries, e'.session = e.session → s.isLive e'.child = false
  | _ => True

def owns (entries : List WarmAppServer) : Multiset (ℕ × Uuid) :=
  ↑(entries.map fun e => (e.child, e.session))

/-- The process and the session of each entry, wherever it is. -/
def owners (s : State) : Multiset (ℕ × Uuid) :=
  owns s.entries + owns s.followUps + owns (s.calls.flatMap Call.taken) +
    owns (s.calls.flatMap Call.toKill)

section Owners

variable {s s' : State} {e : WarmAppServer} {c c' : Call} {i j p : ℕ} {session : Uuid}
  {l l' : List WarmAppServer}

open Multiset

theorem owns_append : owns (l ++ l') = owns l + owns l' := by
  unfold owns
  rw [map_append, coe_add]

theorem owns_cons : owns (e :: l) = owns [e] + owns l := owns_append (l := [e])

theorem owns_nil : owns [] = 0 := rfl

theorem owns_singleton : owns [e] = {(e.child, e.session)} := rfl

theorem owns_perm (h : l.Perm l') : owns l = owns l' := coe_eq_coe.2 (h.map _)

theorem count_owns : ((owns l).map fst).count p = l.countP fun e => e.child == p := by
  unfold owns
  rw [Multiset.map_coe, Multiset.coe_count, List.map_map, List.count_eq_countP, List.countP_map]
  rfl

theorem count_owners : (s.owners.map fst).count p =
    s.inRegistry p + s.withFollowUp p + s.toBeKilled p := by
  unfold owners
  rw [map_add, map_add, map_add, count_add, count_add,
    count_add, count_owns, count_owns, count_owns, count_owns]
  unfold inRegistry withFollowUp toBeKilled
  omega

theorem owns_set (f : Call → List WarmAppServer) (h : s.calls[i]? = some c) (c' : Call) :
    owns ((s.calls.set i c').flatMap f) + owns (f c) = owns (s.calls.flatMap f) + owns (f c') := by
  have hset := owns_perm ((set_perm_of_getElem? h c').flatMap_right f)
  have hcalls := owns_perm ((perm_of_getElem? h).flatMap_right f)
  rw [flatMap_cons, owns_append] at hset hcalls
  rw [hset, hcalls]
  abel

theorem owns_concat (f : Call → List WarmAppServer) (c : Call) :
    owns ((s.calls ++ [c]).flatMap f) = owns (s.calls.flatMap f) + owns (f c) := by
  rw [flatMap_append, owns_append, flatMap_singleton]

theorem owns_eraseIdx (h : l[i]? = some e) : owns l = owns [e] + owns (l.eraseIdx i) :=
  (owns_perm (perm_of_getElem? h)).trans owns_cons

theorem owns_remove (h : Keyed WarmAppServer.session s.entries) (session : Uuid) :
    owns s.entries = owns (s.entryOf session).toList + owns (s.remove session) := by
  rw [← owns_append]
  exact owns_perm (h.perm_delete fun _ hsession => beq_iff_eq.1 hsession)

end Owners

/-! ## What a step does -/

def kills (s : State) : Multiset (ℕ × Uuid) := owns (s.calls.flatMap Call.toKill)

inductive Effect (s : State) (a : Action) (s' : State) : Prop where
  /-- an entry may change hands, but for one that is about to be killed -/
  | moved (hprocesses : s'.processes = s.processes) (howners : s'.owners = s.owners)
      (hkills : s.kills ≤ s'.kills)
  | registered (q : Process) (ha : ∃ p session reuse live, a = .register p session reuse live)
      (hfresh : ∀ r ∈ s.processes, r.id ≠ q.id)
      (hprocesses : s'.processes = s.processes ++ [q])
      (howners : s'.owners = s.owners + {(q.id, q.session)}) (hkills : s.kills ≤ s'.kills)
  | exited (p : ℕ) (hprocesses : s'.processes = s.dead p) (howners : s'.owners = s.owners)
      (hkills : s'.kills = s.kills)
  | ended (p : ℕ) (session : Uuid) (hprocesses : s'.processes = s.dead p)
      (howners : s'.owners + {(p, session)} = s.owners) (hkills : s'.kills = s.kills)
  | killed (p : ℕ) (session : Uuid) (hprocesses : s'.processes = s.dead p)
      (howners : s'.owners + {(p, session)} = s.owners)
      (hkills : s'.kills + {(p, session)} = s.kills)
  /-- a re-park displaces the entry `e` -/
  | displaced (e : WarmAppServer) (hkeeps : KeepsOthers s a → s.isLive e.child = false)
      (hprocesses : s'.processes = s.processes)
      (howners : s'.owners + {(e.child, e.session)} = s.owners) (hkills : s.kills ≤ s'.kills)

section Effect

variable {s s' : State} {a : Action} {e : WarmAppServer} {c c' : Call} {i j p : ℕ}
  {session : Uuid} {x y : Multiset (ℕ × Uuid)}

theorem owners_concat (hcalls : s'.calls = s.calls ++ [c])
    (h : owns s'.entries + owns s'.followUps + owns c.taken + owns c.toKill + x =
      owns s.entries + owns s.followUps + y) : s'.owners + x = s.owners + y := by
  unfold owners
  rw [hcalls, owns_concat, owns_concat]
  calc _ = (owns s'.entries + owns s'.followUps + owns c.taken + owns c.toKill + x) +
        (owns (s.calls.flatMap Call.taken) + owns (s.calls.flatMap Call.toKill)) := by abel
    _ = _ := by
      rw [h]
      abel

theorem kills_concat (hcalls : s'.calls = s.calls ++ [c]) : s.kills ≤ s'.kills := by
  unfold kills
  rw [hcalls, owns_concat]
  exact Multiset.le_add_right _ _

section

variable {t : State} (hget : s.calls[i]? = some c) (hset : t.calls = s.calls.set i c')
include hget hset

theorem owners_set (h : owns t.entries + owns t.followUps + owns c'.taken + owns c'.toKill + x =
      owns s.entries + owns s.followUps + owns c.taken + owns c.toKill + y) :
    t.owners + x = s.owners + y := by
  have htaken := owns_set Call.taken hget c'
  have hkill := owns_set Call.toKill hget c'
  apply add_right_cancel (b := owns c.taken + owns c.toKill)
  unfold owners
  rw [hset]
  calc _ = owns t.entries + owns t.followUps + x +
        (owns ((s.calls.set i c').flatMap Call.taken) + owns c.taken) +
        (owns ((s.calls.set i c').flatMap Call.toKill) + owns c.toKill) := by abel
    _ = (owns t.entries + owns t.followUps + owns c'.taken + owns c'.toKill + x) +
        (owns (s.calls.flatMap Call.taken) + owns (s.calls.flatMap Call.toKill)) := by
      rw [htaken, hkill]
      abel
    _ = _ := by
      rw [h]
      abel

theorem kills_set : t.kills + owns c.toKill = s.kills + owns c'.toKill := by
  unfold kills
  rw [hset]
  exact owns_set Call.toKill hget c'

end

theorem Effect.of_concat (hcalls : s'.calls = s.calls ++ [c])
    (hprocesses : s'.processes = s.processes)
    (h : owns s'.entries + owns s'.followUps + owns c.taken + owns c.toKill =
      owns s.entries + owns s.followUps) : Effect s a s' := by
  refine .moved hprocesses ?_ (kills_concat hcalls)
  have howners := owners_concat (x := 0) (y := 0) hcalls (by rw [add_zero, add_zero, h])
  rwa [add_zero, add_zero] at howners

theorem Effect.of_set (hget : s.calls[i]? = some c) (hset : s'.calls = s.calls.set i c')
    (hprocesses : s'.processes = s.processes) (hkill : c.toKill = [])
    (h : owns s'.entries + owns s'.followUps + owns c'.taken + owns c'.toKill =
      owns s.entries + owns s.followUps + owns c.taken) : Effect s a s' := by
  refine .moved hprocesses ?_ ?_
  · have howners := owners_set (x := 0) (y := 0) hget hset
      (by rw [add_zero, add_zero, h, hkill, owns_nil, add_zero])
    rwa [add_zero, add_zero] at howners
  · have hkills := kills_set hget hset
    rw [hkill, owns_nil, add_zero] at hkills
    rw [hkills]
    exact Multiset.le_add_right _ _

theorem setCall_effect (hget : s.calls[i]? = some c) (hkill : c.toKill = [])
    (h : owns c'.taken + owns c'.toKill = owns c.taken) : Effect s a (s.setCall i c') := by
  refine .of_set hget rfl rfl hkill ?_
  show owns s.entries + owns s.followUps + _ + _ = _
  rw [add_assoc _ (owns c'.taken), h]

section

variable (h : Keyed WarmAppServer.session s.entries)
include h

theorem owns_insert (e : WarmAppServer) :
    owns (s.insert e) + owns (s.entryOf e.session).toList = owns s.entries + owns [e] := by
  rw [insert, owns_cons, owns_remove h e.session]
  abel

theorem reap_effect : Effect s a (s.reap session) := by
  refine .of_concat rfl rfl ?_
  show owns (s.remove session) + owns s.followUps + owns [] + owns (s.entryOf session).toList = _
  rw [owns_remove h session, owns_nil]
  abel

end

theorem reapAll_effect : Effect s a s.reapAll := by
  refine .of_concat rfl rfl ?_
  show owns [] + owns s.followUps + owns [] + owns s.entries = _
  abel

theorem take_effect (h : Keyed WarmAppServer.session s.entries) : Effect s a (s.take session) := by
  unfold take
  split
  · rename_i e hentry
    refine .of_concat rfl rfl ?_
    show owns (s.remove session) + owns s.followUps + owns [e] + owns [] = _
    rw [owns_remove h session, hentry, owns_nil]
    show _ = owns [e] + _ + _
    abel
  · exact .moved rfl rfl le_rfl

theorem reapStale_effect {stale rest : List (Uuid × ℕ)} {generation : ℕ}
    (h : Keyed WarmAppServer.session s.entries) (hget : s.calls[i]? = some (.sweep stale none)) :
    Effect s a (s.reapStale i rest session generation) := by
  unfold reapStale
  split
  · rename_i e hentry
    split_ifs
    · refine .of_set hget rfl rfl rfl ?_
      show owns (s.remove session) + owns s.followUps + owns [] + owns [e] = _
      rw [owns_remove h session, hentry, owns_nil]
      show _ = owns [e] + _ + _ + owns []
      abel
    · exact setCall_effect hget rfl rfl
  · exact setCall_effect hget rfl rfl

theorem registered_owners (h : Keyed WarmAppServer.session s.entries) (e : WarmAppServer)
    (followUps : List WarmAppServer) (processes : List Process) :
    ({ s.register e with followUps := followUps, processes := processes } : State).owners +
        owns s.followUps = s.owners + (owns [e] + owns followUps) ∧
      s.kills ≤
        ({ s.register e with followUps := followUps, processes := processes } : State).kills := by
  refine ⟨owners_concat rfl ?_, kills_concat rfl⟩
  show owns (s.insert e) + owns followUps + owns [] + owns (s.entryOf e.session).toList +
    owns s.followUps = _
  have hinsert := owns_insert h e
  calc _ = (owns (s.insert e) + owns (s.entryOf e.session).toList) +
        (owns followUps + owns s.followUps) := by abel
    _ = _ := by
      rw [hinsert]
      abel

theorem repark_displaced {e' : WarmAppServer} (h : Keyed WarmAppServer.session s.entries)
    (hget : s.calls[i]? = some (.repark e)) (hentry : s.entryOf e.session = some e') :
    ({ s.setCall i (.kill []) with entries := s.insert e } : State).owners +
      {(e'.child, e'.session)} = s.owners := by
  have hinsert := owns_insert h e
  rw [hentry] at hinsert
  replace hinsert : owns (s.insert e) + owns [e'] = owns s.entries + owns [e] := hinsert
  have howners := owners_set (t := { s.setCall i (.kill []) with entries := s.insert e })
    (x := owns [e']) (y := 0) hget rfl ?_
  · rwa [add_zero] at howners
  · show owns (s.insert e) + owns s.followUps + owns [] + owns [] + owns [e'] =
      owns s.entries + owns s.followUps + owns [e] + owns [] + 0
    calc _ = (owns (s.insert e) + owns [e']) + owns s.followUps := by abel
      _ = _ := by
        rw [hinsert]
        abel

theorem repark_effect (h : Keyed WarmAppServer.session s.entries)
    (hget : s.calls[i]? = some (.repark e)) :
    Effect s (.repark i) { s.setCall i (.kill []) with entries := s.insert e } := by
  have hkills := kills_set (t := { s.setCall i (.kill []) with entries := s.insert e }) hget rfl
  replace hkills : State.kills { s.setCall i (.kill []) with entries := s.insert e } = s.kills :=
    add_right_cancel hkills
  cases hentry : s.entryOf e.session with
  | none =>
    refine .of_set hget rfl rfl rfl ?_
    have hinsert := owns_insert h e
    rw [hentry] at hinsert
    replace hinsert : owns (s.insert e) = owns s.entries + owns [e] := by
      rw [← hinsert]
      exact (add_zero _).symm
    show owns (s.insert e) + owns s.followUps + owns [] + owns [] =
      owns s.entries + owns s.followUps + owns [e]
    rw [hinsert, owns_nil]
    abel
  | some e' =>
    obtain ⟨he', hsession⟩ := find?_some hentry
    exact .displaced e' (fun hkeeps => hkeeps e hget e' he' (beq_iff_eq.1 hsession)) rfl
      (repark_displaced h hget hentry) hkills.ge

theorem next_cases (h : c.next j = some (e, c')) :
    c.taken = [] ∧ c'.taken = [] ∧ owns c.toKill = owns [e] + owns c'.toKill := by
  unfold Call.next at h
  split at h
  · obtain ⟨e', hget, heq⟩ := map_eq_some_iff.1 h
    cases heq
    exact ⟨rfl, rfl, owns_eraseIdx hget⟩
  · cases h
    exact ⟨rfl, rfl, rfl⟩
  · cases h

theorem kill_effect (hget : s.calls[i]? = some c) (h : c.next j = some (e, c')) :
    Effect s a { s.setCall i c' with processes := s.dead e.child } := by
  obtain ⟨htaken, htaken', hkill⟩ := next_cases h
  refine .killed e.child e.session rfl ?_ ?_
  · have howners := owners_set (t := { s.setCall i c' with processes := s.dead e.child })
      (x := owns [e]) (y := 0) hget rfl ?_
    · rwa [add_zero] at howners
    · show owns s.entries + owns s.followUps + _ + _ + _ = _
      rw [htaken, htaken', hkill]
      abel
  · have hkills := kills_set (t := { s.setCall i c' with processes := s.dead e.child }) hget rfl
    rw [hkill, ← add_assoc] at hkills
    exact add_right_cancel hkills

theorem step_effect (h : Keyed WarmAppServer.session s.entries)
    (hstep : s.step a = some s') : Effect s a s' := by
  cases a with simp only [step] at hstep
  | tick d =>
    cases hstep
    exact .moved rfl rfl le_rfl
  | exit p =>
    cases hstep
    exact .exited p rfl rfl rfl
  | endFollowUp i =>
    obtain ⟨e, hget, rfl⟩ := map_eq_some_iff.1 hstep
    refine .ended e.child e.session rfl ?_ rfl
    unfold owners
    show _ + owns (s.followUps.eraseIdx i) + _ + _ + _ = _
    rw [owns_eraseIdx hget]
    abel
  | register p session reuse live =>
    split_ifs at hstep with hany
    cases hstep
    obtain ⟨howners, hkills⟩ := registered_owners h ⟨session, p, reuse, s.now⟩ s.followUps
      (s.processes ++ [⟨p, session, live⟩])
    refine .registered ⟨p, session, live⟩ ⟨p, session, reuse, live, rfl⟩ ?_ rfl ?_ hkills
    · intro r hr heq
      exact hany (any_eq_true.2 ⟨r, hr, beq_iff_eq.2 heq⟩)
    · rw [← add_assoc] at howners
      exact add_right_cancel howners
  | registerAgain i reuse =>
    obtain ⟨e, hget, rfl⟩ := map_eq_some_iff.1 hstep
    obtain ⟨howners, hkills⟩ := registered_owners h ⟨e.session, e.child, reuse, s.now⟩
      (s.followUps.eraseIdx i) s.processes
    refine .moved rfl ?_ hkills
    have hsame : owns [(⟨e.session, e.child, reuse, s.now⟩ : WarmAppServer)] = owns [e] := rfl
    rw [hsame, ← owns_eraseIdx hget] at howners
    exact add_right_cancel howners
  | reap session =>
    cases hstep
    exact reap_effect h
  | reapAll =>
    cases hstep
    exact reapAll_effect
  | inspect alive now =>
    split_ifs at hstep
    cases hstep
    refine .of_concat rfl rfl ?_
    show owns s.entries + owns s.followUps + owns [] + owns [] = _
    rw [owns_nil, add_zero, add_zero]
  | reapStale i j =>
    split at hstep
    · obtain ⟨candidate, -, rfl⟩ := map_eq_some_iff.1 hstep
      exact reapStale_effect h ‹_›
    · cases hstep
  | take session =>
    cases hstep
    exact take_effect h
  | probe i alive =>
    split at hstep
    · split_ifs at hstep
      all_goals
        cases hstep
        exact setCall_effect ‹_› rfl rfl
    · cases hstep
  | unwrap i unique =>
    split at hstep
    · rename_i e hget
      split_ifs at hstep <;> cases hstep
      · refine .of_set hget rfl rfl rfl ?_
        show owns s.entries + owns (s.followUps ++ [e]) + owns [] + owns [] =
          owns s.entries + owns s.followUps + owns [e]
        rw [owns_append, owns_nil]
        abel
      · exact setCall_effect hget rfl rfl
    · cases hstep
  | repark i =>
    split at hstep <;> cases hstep
    rename_i hget
    exact repark_effect h hget
  | kill i j =>
    obtain ⟨⟨e, c'⟩, hnext, rfl⟩ := map_eq_some_iff.1 hstep
    obtain ⟨c, hget, hkill⟩ := bind_eq_some_iff.1 hnext
    exact kill_effect hget hkill

end Effect

/-! ## The invariant -/

/-- What every run keeps. -/
structure Consistent (s : State) : Prop where
  sessions : Keyed WarmAppServer.session s.entries
  ids : Keyed Process.id s.processes
  /-- no process is in two places -/
  once : (s.owners.map fst).Nodup
  known : ∀ o ∈ s.owners, ∃ q ∈ s.processes, q.id = o.1 ∧ q.session = o.2

def Placed (s : State) : Prop := ∀ q ∈ s.processes, q.live = true → q.id ∈ s.owners.map fst

section Invariant

variable {s s' : State} {a : Action} {e : WarmAppServer} {q : Process} {i j p : ℕ} {session : Uuid}
  {r : Process} {reuse : WarmReuseHandle} {live : Bool}

section

variable (h : Keyed WarmAppServer.session s.entries)

include h

theorem keyed_remove (session : Uuid) : Keyed WarmAppServer.session (s.remove session) := h.delete

theorem keyed_insert (e : WarmAppServer) : Keyed WarmAppServer.session (s.insert e) := by
  refine nodup_cons.2 ⟨?_, keyed_remove h e.session⟩
  intro hmem
  obtain ⟨e', he', hsession⟩ := mem_map.1 hmem
  have hne := (mem_delete.1 he').2
  rw [hsession, beq_self_eq_true] at hne
  cases hne

theorem keyed_step (hstep : s.step a = some s') : Keyed WarmAppServer.session s'.entries := by
  cases a with simp only [step] at hstep
  | tick d | exit p =>
    cases hstep
    exact h
  | endFollowUp i | kill i j =>
    obtain ⟨_, -, rfl⟩ := map_eq_some_iff.1 hstep
    exact h
  | register p session reuse live =>
    split_ifs at hstep
    cases hstep
    exact keyed_insert h _
  | registerAgain i reuse =>
    obtain ⟨e, -, rfl⟩ := map_eq_some_iff.1 hstep
    exact keyed_insert h _
  | reap session =>
    cases hstep
    exact keyed_remove h session
  | reapAll =>
    cases hstep
    exact Keyed.nil
  | reapStale i j =>
    split at hstep
    · obtain ⟨candidate, -, rfl⟩ := map_eq_some_iff.1 hstep
      unfold reapStale
      repeat' split
      all_goals first
        | exact h
        | exact keyed_remove h _
    · cases hstep
  | take session =>
    cases hstep
    unfold take
    split
    · exact keyed_remove h session
    · exact h
  | inspect alive now | probe i alive | unwrap i unique =>
    repeat' split at hstep
    all_goals cases hstep <;> exact h
  | repark i =>
    split at hstep <;> cases hstep
    exact keyed_insert h _

end

theorem mem_dead (h : r ∈ s.dead p) : ∃ q ∈ s.processes, q.id = r.id ∧ q.session = r.session ∧
      (r.live = true → q = r ∧ r.id ≠ p) := by
  obtain ⟨q, hq, rfl⟩ := mem_update.1 h
  refine ⟨q, hq, ?_⟩
  split_ifs with hid
  · exact ⟨rfl, rfl, fun hlive => hlive.elim⟩
  · exact ⟨rfl, rfl, fun _ => ⟨rfl, fun heq => hid (beq_iff_eq.2 heq)⟩⟩

theorem exists_dead (hq : q ∈ s.processes) (p : ℕ) :
    ∃ r ∈ s.dead p, r.id = q.id ∧ r.session = q.session := by
  refine ⟨_, mem_update_ite hq, ?_⟩
  split
  all_goals exact ⟨rfl, rfl⟩

theorem Consistent.step (h : s.Consistent) (hstep : s.step a = some s') : s'.Consistent := by
  have hsessions := keyed_step h.sessions hstep
  have hdead : ∀ p, Keyed Process.id (s.dead p) := fun p => h.ids.update fun _ => rfl
  have hfewer : ∀ o, s'.owners + {o} = s.owners →
      (s'.owners.map fst).Nodup ∧ ∀ o' ∈ s'.owners, o' ∈ s.owners := by
    intro o howners
    have hle : s'.owners ≤ s.owners := howners ▸ Multiset.le_add_right _ _
    exact ⟨Multiset.nodup_of_le (Multiset.map_le_map hle) h.once, fun _ => Multiset.mem_of_le hle⟩
  cases step_effect h.sessions hstep with
  | moved hprocesses howners hkills =>
    exact ⟨hsessions, hprocesses ▸ h.ids, howners ▸ h.once, hprocesses ▸ howners ▸ h.known⟩
  | registered q ha hfresh hprocesses howners hkills =>
    refine ⟨hsessions, ?_, ?_, ?_⟩
    · rw [hprocesses]
      exact h.ids.concat hfresh
    · rw [howners, Multiset.map_add, Multiset.map_singleton, add_comm, Multiset.singleton_add,
        Multiset.nodup_cons]
      refine ⟨?_, h.once⟩
      intro hmem
      obtain ⟨o, ho, hid⟩ := Multiset.mem_map.1 hmem
      obtain ⟨r, hr, hrid, -⟩ := h.known o ho
      exact hfresh r hr (hrid.trans hid)
    · intro o ho
      rw [howners, Multiset.mem_add, Multiset.mem_singleton] at ho
      rw [hprocesses]
      rcases ho with ho | rfl
      · obtain ⟨r, hr, hrest⟩ := h.known o ho
        exact ⟨r, mem_append_left _ hr, hrest⟩
      · exact ⟨q, mem_append_right _ (mem_singleton.2 rfl), rfl, rfl⟩
  | exited p hprocesses howners hkills =>
    refine ⟨hsessions, hprocesses ▸ hdead p, howners ▸ h.once, ?_⟩
    intro o ho
    rw [howners] at ho
    obtain ⟨r, hr, hid, hsession⟩ := h.known o ho
    obtain ⟨r', hr', hid', hsession'⟩ := exists_dead hr p
    exact ⟨r', hprocesses ▸ hr', hid'.trans hid, hsession'.trans hsession⟩
  | ended p session hprocesses howners hkills | killed p session hprocesses howners hkills =>
    obtain ⟨honce, hmem⟩ := hfewer _ howners
    refine ⟨hsessions, hprocesses ▸ hdead p, honce, ?_⟩
    intro o ho
    obtain ⟨r, hr, hid, hsession⟩ := h.known o (hmem o ho)
    obtain ⟨r', hr', hid', hsession'⟩ := exists_dead hr p
    exact ⟨r', hprocesses ▸ hr', hid'.trans hid, hsession'.trans hsession⟩
  | displaced e hkeeps hprocesses howners hkills =>
    obtain ⟨honce, hmem⟩ := hfewer _ howners
    refine ⟨hsessions, hprocesses ▸ h.ids, honce, ?_⟩
    intro o ho
    rw [hprocesses]
    exact h.known o (hmem o ho)

theorem Consistent.initial (h : s.Initial) : s.Consistent := by
  have howners : s.owners = 0 := by
    unfold owners
    rw [h.entries, h.calls, h.followUps]
    rfl
  refine ⟨?_, ?_, ?_, ?_⟩
  · rw [h.entries]
    exact Keyed.nil
  · rw [h.processes]
    exact Keyed.nil
  · rw [howners]
    exact Multiset.nodup_zero
  · intro o ho
    rw [howners] at ho
    exact absurd ho (Multiset.notMem_zero o)

theorem mem_owners_iff : p ∈ s.owners.map fst ↔
    0 < s.inRegistry p + s.withFollowUp p + s.toBeKilled p := by
  rw [← count_owners, Multiset.count_pos]

section

variable (h : s.Consistent)
include h

theorem Consistent.places_le (p : ℕ) : s.inRegistry p + s.withFollowUp p + s.toBeKilled p ≤ 1 := by
  rw [← count_owners]
  exact Multiset.nodup_iff_count_le_one.1 h.once p

theorem Consistent.eq_of_id (hq : q ∈ s.processes)
    (hr : r ∈ s.processes) (hid : q.id = r.id) : q = r :=
  h.ids.eq hq hr hid

theorem Consistent.exists_entry (hq : q ∈ s.processes)
    (hin : 0 < s.inRegistry q.id) : ∃ e ∈ s.entries, e.child = q.id ∧ e.session = q.session := by
  obtain ⟨e, he, hchild⟩ := countP_pos_iff.1 hin
  have hid : e.child = q.id := beq_iff_eq.1 hchild
  have hmem : (e.child, e.session) ∈ s.owners := by
    unfold owners
    rw [Multiset.mem_add, Multiset.mem_add, Multiset.mem_add]
    exact .inl (.inl (.inl (Multiset.mem_coe.2 (mem_map.2 ⟨e, he, rfl⟩))))
  obtain ⟨r, hr, hrid, hsession⟩ := h.known _ hmem
  have heq := h.eq_of_id hr hq (hrid.trans hid)
  rw [heq] at hsession
  exact ⟨e, he, hid, hsession.symm⟩

theorem Consistent.owned (hplaced : s.Placed) : s.Owned := by
  have hone : ∀ q ∈ s.processes, q.live = true →
      s.inRegistry q.id + s.withFollowUp q.id + s.toBeKilled q.id = 1 := by
    intro q hq hlive
    have hpos := mem_owners_iff.1 (hplaced q hq hlive)
    have hle := h.places_le q.id
    omega
  refine ⟨hone, ?_⟩
  intro q hq r hr hqlive hrlive hsession hqf hrf hqk hrk
  have hq1 := hone q hq hqlive
  have hr1 := hone r hr hrlive
  obtain ⟨e, he, hechild, hesession⟩ := h.exists_entry hq (by omega)
  obtain ⟨e', he', hechild', hesession'⟩ := h.exists_entry hr (by omega)
  have heq := h.sessions.eq he he' (hesession.trans (hsession.trans hesession'.symm))
  apply h.eq_of_id hq hr
  rw [← hechild, ← hechild', heq]

end

theorem Owned.placed' (h : s.Owned) : s.Placed := by
  intro q hq hlive
  apply mem_owners_iff.2
  rw [h.placed q hq hlive]
  exact Nat.one_pos

theorem isLive_iff (h : Keyed Process.id s.processes) (hq : q ∈ s.processes) :
    s.isLive q.id = true ↔ q.live = true := by
  unfold isLive
  rw [List.any_eq_true]
  constructor
  · rintro ⟨r, hr, hsel⟩
    obtain ⟨hid, hlive⟩ := and_eq_true_iff.1 hsel
    rwa [← h.eq hr hq (beq_iff_eq.1 hid)]
  · intro hlive
    exact ⟨q, hq, and_eq_true_iff.2 ⟨beq_self_eq_true _, hlive⟩⟩

theorem Placed.of_fewer (h : s.Placed) {session : Uuid} (hprocesses : s'.processes = s.dead p)
    (howners : s'.owners + {(p, session)} = s.owners) : s'.Placed := by
  intro r hr hlive
  rw [hprocesses] at hr
  obtain ⟨q, hq, -, -, heq⟩ := mem_dead hr
  obtain ⟨rfl, hne⟩ := heq hlive
  have hmem := h q hq hlive
  rw [← howners, Multiset.map_add, Multiset.map_singleton, Multiset.mem_add,
    Multiset.mem_singleton] at hmem
  exact hmem.resolve_right hne

/-- A step that does not displace a live entry leaves no live process without an owner. -/
theorem Placed.step (h : s.Placed) (hs : s.Consistent) (hkeeps : KeepsOthers s a)
    (hstep : s.step a = some s') : s'.Placed := by
  cases step_effect hs.sessions hstep with
  | moved hprocesses howners hkills =>
    intro q hq hlive
    rw [howners]
    exact h q (hprocesses ▸ hq) hlive
  | registered q ha hfresh hprocesses howners hkills =>
    intro r hr hlive
    rw [howners, Multiset.map_add, Multiset.map_singleton, Multiset.mem_add, Multiset.mem_singleton]
    rw [hprocesses] at hr
    rcases mem_append.1 hr with hr | hr
    · exact .inl (h r hr hlive)
    · obtain rfl := mem_singleton.1 hr
      exact .inr rfl
  | exited p hprocesses howners hkills =>
    intro r hr hlive
    rw [hprocesses] at hr
    obtain ⟨q, hq, -, -, heq⟩ := mem_dead hr
    obtain ⟨rfl, -⟩ := heq hlive
    rw [howners]
    exact h q hq hlive
  | ended p session hprocesses howners hkills | killed p session hprocesses howners hkills =>
      exact h.of_fewer hprocesses howners
  | displaced e hdead hprocesses howners hkills =>
    intro q hq hlive
    rw [hprocesses] at hq
    have hmem := h q hq hlive
    rw [← howners, Multiset.map_add, Multiset.map_singleton, Multiset.mem_add,
      Multiset.mem_singleton] at hmem
    refine hmem.resolve_right fun heq => ?_
    have hid : q.id = e.child := heq
    have hfalse := hdead hkeeps
    rw [← hid, eq_false_iff] at hfalse
    exact hfalse ((isLive_iff hs.ids hq).2 hlive)

/-- A re-park that displaces a live entry leaves its process without an owner. -/
theorem not_placed_of_displaced {e' : WarmAppServer} (hs : s.Consistent)
    (hget : s.calls[i]? = some (.repark e)) (he' : e' ∈ s.entries)
    (hsession : e'.session = e.session) (hlive : s.isLive e'.child = true)
    (hstep : s.step (.repark i) = some s') : ¬ s'.Placed := by
  intro hplaced
  have hentry : s.entryOf e.session = some e' :=
    hs.sessions.find?_eq (fun _ h => beq_iff_eq.1 h) he' (beq_iff_eq.2 hsession)
  simp only [State.step, hget] at hstep
  cases hstep
  have howners := repark_displaced hs.sessions hget hentry
  obtain ⟨q, hq, hsel⟩ := any_eq_true.1 hlive
  obtain ⟨hid, hqlive⟩ := and_eq_true_iff.1 hsel
  have hmem := hplaced q hq hqlive
  have honce := hs.once
  rw [← howners, Multiset.map_add, Multiset.map_singleton, add_comm, Multiset.singleton_add,
    Multiset.nodup_cons, ← beq_iff_eq.1 hid] at honce
  exact honce.1 hmem

theorem owned_step_iff (hs : s.Consistent) (hplaced : s.Placed) (hstep : s.step a = some s') :
    s'.Owned ↔ KeepsOthers s a := by
  constructor
  · intro howned
    cases a with
    | repark i =>
      intro e hget e' he' hsession
      apply eq_false_iff.2
      intro hlive
      exact not_placed_of_displaced hs hget he' hsession hlive hstep howned.placed'
    | _ => trivial
  · intro hkeeps
    exact (hs.step hstep).owned (hplaced.step hs hkeeps hstep)

/-! ## Kills, and sessions with one process -/

theorem count_kills : (s.kills.map fst).count p = s.toBeKilled p := count_owns

theorem toBeKilled_le (h : s.kills ≤ s'.kills) (p : ℕ) : s.toBeKilled p ≤ s'.toBeKilled p := by
  rw [← count_kills, ← count_kills]
  exact Multiset.count_le_of_le p (Multiset.map_le_map h)

theorem kill_withFollowUp (hs : s.Consistent) (hstep : s.step (.kill i j) = some s')
    (hq : q ∈ s.processes) (hlive : q.live = true) (hkilled : s'.isLive q.id = false) :
    s.withFollowUp q.id = 0 := by
  obtain ⟨⟨e, c'⟩, hnext, rfl⟩ := map_eq_some_iff.1 hstep
  obtain ⟨c, hget, hkill⟩ := bind_eq_some_iff.1 hnext
  obtain ⟨-, -, hto⟩ := next_cases hkill
  have heq : e.child = q.id := by
    by_contra hne
    have hmem : q ∈ s.dead e.child :=
      mem_update_of_not hq (eq_false_iff.2 fun h => hne (beq_iff_eq.1 h).symm)
    have hany : State.isLive { s.setCall i c' with processes := s.dead e.child } q.id = true :=
      any_eq_true.2 ⟨q, hmem, and_eq_true_iff.2 ⟨beq_self_eq_true _, hlive⟩⟩
    rw [hkilled] at hany
    cases hany
  have hkills := owns_set Call.toKill hget c'
  rw [hto, ← add_assoc] at hkills
  have hpos : 0 < s.toBeKilled q.id := by
    rw [← count_kills, Multiset.count_pos]
    unfold kills
    rw [← add_right_cancel hkills, Multiset.map_add, Multiset.mem_add]
    right
    rw [owns_singleton, Multiset.map_singleton, Multiset.mem_singleton, heq]
  have hle := hs.places_le q.id
  omega

def Single (s : State) : Prop :=
  ∀ q ∈ s.processes, ∀ r ∈ s.processes, q.live = true → r.live = true → q.session = r.session →
    s.toBeKilled q.id = 0 → s.toBeKilled r.id = 0 → q = r

def Alone (s : State) : Action → Prop
  | .register _ session _ live => live = true → ∀ q ∈ s.processes, q.session = session →
      q.live = true → s.withFollowUp q.id = 0
  | _ => True

/-- The processes of `s'` that are live and are not about to be killed were so in `s`. -/
theorem Single.of_le (h : s.Single) (hback : ∀ q ∈ s'.processes, q.live = true →
    s'.toBeKilled q.id = 0 → q ∈ s.processes ∧ s.toBeKilled q.id = 0) : s'.Single := by
  intro q hq r hr hqlive hrlive hsession hqk hrk
  obtain ⟨hq', hqk'⟩ := hback q hq hqlive hqk
  obtain ⟨hr', hrk'⟩ := hback r hr hrlive hrk
  exact h q hq' r hr' hqlive hrlive hsession hqk' hrk'

theorem register_toBeKilled (hs' : s'.Consistent) (hplaced : s'.Placed)
    (hstep : s.step (.register p session reuse live) = some s') (hr : r ∈ s.processes)
    (hrlive : r.live = true) (hsession : r.session = session) (hfollow : s.withFollowUp r.id = 0) :
    0 < s'.toBeKilled r.id := by
  simp only [State.step] at hstep
  split_ifs at hstep with hany
  cases hstep
  have hr' : r ∈ s.processes ++ [⟨p, session, live⟩] := mem_append_left _ hr
  have hpos := mem_owners_iff.1 (hplaced r hr' hrlive)
  have htaken : State.withFollowUp { s.register ⟨session, p, reuse, s.now⟩ with
      processes := s.processes ++ [⟨p, session, live⟩] } r.id = s.withFollowUp r.id := by
    show _ + countP _ ((s.calls ++ [_]).flatMap Call.taken) = _
    rw [flatMap_append, countP_append]
    rfl
  rw [htaken, hfollow] at hpos
  by_contra hnot
  obtain ⟨e, he, hchild, hesession⟩ := hs'.exists_entry hr' (by omega)
  rcases mem_cons.1 he with rfl | he
  · exact hany (any_eq_true.2 ⟨r, hr, beq_iff_eq.2 hchild.symm⟩)
  · have hne := (mem_delete.1 he).2
    rw [hesession, hsession, beq_self_eq_true] at hne
    cases hne

theorem Single.register (h : s.Single)
    (hs' : s'.Consistent) (hplaced : s'.Placed) (halone : Alone s (.register p session reuse live))
    (hstep : s.step (.register p session reuse live) = some s') (hkills : s.kills ≤ s'.kills) :
    s'.Single := by
  have hprocesses : s'.processes = s.processes ++ [⟨p, session, live⟩] := by
    simp only [State.step] at hstep
    split_ifs at hstep
    cases hstep
    rfl
  have hold : ∀ r ∈ s.processes, r.live = true → live = true → r.session = session →
      0 < s'.toBeKilled r.id := fun r hr hrlive hlive hsession =>
    register_toBeKilled hs' hplaced hstep hr hrlive hsession (halone hlive r hr hsession hrlive)
  have hback : ∀ r, s'.toBeKilled r = 0 → s.toBeKilled r = 0 := by
    intro r hr
    have hle := toBeKilled_le hkills r
    omega
  intro q hq r hr hqlive hrlive hsession hqk hrk
  rw [hprocesses] at hq hr
  rcases mem_append.1 hq with hq | hq
  · rcases mem_append.1 hr with hr | hr
    · exact h q hq r hr hqlive hrlive hsession (hback _ hqk) (hback _ hrk)
    · obtain rfl := mem_singleton.1 hr
      exact absurd hqk (hold q hq hqlive hrlive hsession).ne'
  · obtain rfl := mem_singleton.1 hq
    rcases mem_append.1 hr with hr | hr
    · exact absurd hrk (hold r hr hrlive hqlive hsession.symm).ne'
    · exact (mem_singleton.1 hr).symm

theorem Single.step (h : s.Single) (hs : s.Consistent) (hplaced : s.Placed)
    (hkeeps : KeepsOthers s a) (halone : Alone s a) (hstep : s.step a = some s') : s'.Single := by
  have hs' := hs.step hstep
  have hplaced' := hplaced.step hs hkeeps hstep
  have hback : ∀ p, s'.processes = s.dead p →
      (∀ r, r ≠ p → s'.toBeKilled r = 0 → s.toBeKilled r = 0) → s'.Single := by
    intro p hprocesses hkills
    refine h.of_le fun q hq hlive hqk => ?_
    rw [hprocesses] at hq
    obtain ⟨r, hr, -, -, heq⟩ := mem_dead hq
    obtain ⟨rfl, hne⟩ := heq hlive
    exact ⟨hr, hkills _ hne hqk⟩
  have hsame : s'.processes = s.processes → s.kills ≤ s'.kills → s'.Single := by
    intro hprocesses hkills
    refine h.of_le fun q hq _ hqk => ⟨hprocesses ▸ hq, ?_⟩
    have hle := toBeKilled_le hkills q.id
    omega
  cases step_effect hs.sessions hstep with
  | moved hprocesses howners hkills | displaced e hdead hprocesses howners hkills =>
      exact hsame hprocesses hkills
  | exited p hprocesses howners hkills | ended p session hprocesses howners hkills =>
    refine hback p hprocesses fun r _ hr => ?_
    rwa [← count_kills, ← hkills, count_kills]
  | killed p session hprocesses howners hkills =>
    refine hback p hprocesses fun r hne hr => ?_
    rw [← count_kills, ← hkills, Multiset.map_add, Multiset.count_add, count_kills, hr,
      Multiset.map_singleton, Multiset.count_singleton, if_neg hne]
  | registered q ha hfresh hprocesses howners hkills =>
    obtain ⟨p, session, reuse, live, rfl⟩ := ha
    exact h.register hs' hplaced' halone hstep hkills

/-! ## Runs -/

theorem consistent_of_reachable (h : Reachable step KeepsOthers Initial s) :
    s.Consistent ∧ s.Placed := by
  apply h.invariant (P := fun s => s.Consistent ∧ s.Placed)
  · intro s hinit
    refine ⟨.initial hinit, fun q hq => ?_⟩
    rw [hinit.processes] at hq
    cases hq
  · rintro s a s' ⟨hs, hplaced⟩ hkeeps hstep
    exact ⟨hs.step hstep, hplaced.step hs hkeeps hstep⟩

theorem lost_run (hs : s.Consistent) (hq : ∃ q ∈ s.processes, q.id = p)
    (hlost : p ∉ s.owners.map fst) (hruns : Runs step anyStep s s') : p ∉ s'.owners.map fst := by
  have hall : s'.Consistent ∧ (∃ q ∈ s'.processes, q.id = p) ∧ p ∉ s'.owners.map fst := by
    apply hruns.preserves (P := fun s => s.Consistent ∧ (∃ q ∈ s.processes, q.id = p) ∧
      p ∉ s.owners.map fst)
    · rintro s a s' ⟨hs, ⟨q, hq, hid⟩, hlost⟩ - hstep
      have hdead : ∀ p', s'.processes = s.dead p' → ∃ q ∈ s'.processes, q.id = p := by
        intro p' hprocesses
        obtain ⟨r, hr, hrid, -⟩ := exists_dead hq p'
        exact ⟨r, hprocesses ▸ hr, hrid.trans hid⟩
      have hfewer : ∀ o, s'.owners + {o} = s.owners → p ∉ s'.owners.map fst := by
        intro o howners hmem
        rw [← howners, Multiset.map_add, Multiset.mem_add] at hlost
        exact hlost (.inl hmem)
      refine ⟨hs.step hstep, ?_⟩
      cases step_effect hs.sessions hstep with
      | moved hprocesses howners hkills => exact ⟨⟨q, hprocesses ▸ hq, hid⟩, howners ▸ hlost⟩
      | registered r ha hfresh hprocesses howners hkills =>
        refine ⟨⟨q, hprocesses ▸ mem_append_left _ hq, hid⟩, ?_⟩
        rw [howners, Multiset.map_add, Multiset.mem_add, Multiset.map_singleton,
          Multiset.mem_singleton]
        rintro (hmem | heq)
        · exact hlost hmem
        · exact hfresh q hq (hid.trans heq)
      | exited p' hprocesses howners hkills => exact ⟨hdead p' hprocesses, howners ▸ hlost⟩
      | ended p' session hprocesses howners hkills | killed p' session hprocesses howners hkills =>
          exact ⟨hdead p' hprocesses, hfewer _ howners⟩
      | displaced e hdead hprocesses howners hkills =>
        exact ⟨⟨q, hprocesses ▸ hq, hid⟩, hfewer _ howners⟩
    · exact ⟨hs, hq, hlost⟩
  exact hall.2.2

theorem consistent_of_anyStep (h : Reachable step anyStep Initial s) : s.Consistent :=
  h.invariant (fun _ => Consistent.initial) fun _ _ _ hs _ hstep => hs.step hstep

theorem single_of_reachable
    (h : Reachable step (fun s a => KeepsOthers s a ∧ Alone s a) Initial s) : s.Single := by
  have hall : (s.Consistent ∧ s.Placed) ∧ s.Single := by
    apply h.invariant (P := fun s => (s.Consistent ∧ s.Placed) ∧ s.Single)
    · intro s hinit
      refine ⟨consistent_of_reachable (.start hinit), fun q hq => ?_⟩
      rw [hinit.processes] at hq
      cases hq
    · rintro s a s' ⟨⟨hs, hplaced⟩, hsingle⟩ ⟨hkeeps, halone⟩ hstep
      exact ⟨⟨hs.step hstep, hplaced.step hs hkeeps hstep⟩,
        hsingle.step hs hplaced hkeeps halone hstep⟩
  exact hall.2

end Invariant

/-- As long as no re-park displaces a live entry, each live process has one owner, and exactly the
    step that displaces one breaks it; what the registry kills is with no follow-up; and if no
    process is registered for a session of which a follow-up holds one, a session has one live
    process at most that is not about to be killed. -/
theorem warm_processes_owned {s : State} (h : Reachable step KeepsOthers Initial s) : s.Owned ∧
    (∀ a s', s.step a = some s' → (s'.Owned ↔ KeepsOthers s a)) ∧
    (∀ i j s', s.step (.kill i j) = some s' → ∀ q ∈ s.processes, q.live = true →
      s'.isLive q.id = false → s.withFollowUp q.id = 0) ∧
    (Reachable step (fun s a => KeepsOthers s a ∧ Alone s a) Initial s → s.Single) := by
  obtain ⟨hs, hplaced⟩ := consistent_of_reachable h
  exact ⟨hs.owned hplaced, fun _ _ hstep => owned_step_iff hs hplaced hstep,
    fun _ _ _ hstep _ hq hlive hkilled => kill_withFollowUp hs hstep hq hlive hkilled,
    single_of_reachable⟩

def empty : State := ⟨[], [], [], [], 0⟩

theorem initial_empty : Initial empty := ⟨rfl, rfl, rfl, rfl⟩

def exampleReuse : WarmReuseHandle := ⟨"http://a", "secret", none⟩

/-- An entry that a registration displaces, and its kill. -/
theorem warm_processes_owned_displaced : ∃ s s' : State, s.Owned ∧ s.toBeKilled 1 = 1 ∧
    s.step (.kill 1 0) = some s' ∧ s'.isLive 1 = false ∧ s.withFollowUp 1 = 0 := by
  have hreach : Reachable step KeepsOthers Initial
      ⟨[⟨7, 2, exampleReuse, 0⟩], [.kill [], .kill [⟨7, 1, exampleReuse, 0⟩]], [],
        [⟨1, 7, true⟩, ⟨2, 7, true⟩], 0⟩ :=
    ((Reachable.start initial_empty).next (a := .register 1 7 exampleReuse true) trivial rfl).next
      (a := .register 2 7 exampleReuse true) trivial rfl
  obtain ⟨howned, -, hkill, -⟩ := warm_processes_owned hreach
  exact ⟨_, _, howned, by decide, rfl, by decide,
    hkill 1 0 _ rfl ⟨1, 7, true⟩ (by decide) rfl (by decide)⟩

/-- A follow-up takes the first app-server of a session while its handle is shared, a second one
    is parked, and the first is parked again. -/
def sharedTake : List Action :=
  [.register 1 7 exampleReuse true, .take 7, .probe 1 true, .unwrap 1 false,
    .register 2 7 exampleReuse true, .repark 1]

/-- The second app-server is live, and neither the registry nor a follow-up nor a kill ever has it
    again. -/
theorem repark_leaks : ∃ s, Reachable step anyStep Initial s ∧ s.isLive 1 = true ∧
    s.isLive 2 = true ∧ s.inRegistry 1 = 1 ∧ ¬ s.Owned ∧ ∀ s', Runs step anyStep s s' →
      s'.inRegistry 2 + s'.withFollowUp 2 + s'.toBeKilled 2 = 0 := by
  have hexec : (exec step anyStep empty sharedTake).map (fun s => decide (s.isLive 1 = true ∧
      s.isLive 2 = true ∧ s.inRegistry 1 = 1 ∧ (⟨2, 7, true⟩ : Process) ∈ s.processes ∧
      s.inRegistry 2 + s.withFollowUp 2 + s.toBeKilled 2 = 0)) = some true := by
    decide +kernel
  obtain ⟨s, hs, hdecide⟩ := map_eq_some_iff.1 hexec
  obtain ⟨hlive₁, hlive₂, hin, hmem, hzero⟩ := of_decide_eq_true hdecide
  have hreach := reachable_of_exec initial_empty hs
  have hlost : 2 ∉ s.owners.map fst := by
    rw [mem_owners_iff, hzero]
    exact Nat.lt_irrefl 0
  refine ⟨s, hreach, hlive₁, hlive₂, hin, ?_, ?_⟩
  · intro howned
    have hone := howned.placed _ hmem rfl
    rw [hzero] at hone
    exact absurd hone Nat.zero_ne_one
  · intro s' hruns
    have hlost' := lost_run (consistent_of_anyStep hreach) ⟨_, hmem, rfl⟩ hlost hruns
    rw [mem_owners_iff] at hlost'
    exact Nat.eq_zero_of_not_pos hlost'

end State

end VibeKanban.Warm
