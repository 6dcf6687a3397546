import VibeKanban.Lib.Json
import VibeKanban.Lib.Runs
import VibeKanban.Lib.Update

/-!
# JSON-RPC with the Codex app-server (`executors/codex/jsonrpc.rs`, lines 60-275)

A request takes an id, registers a sender under it, writes its message and waits. The reader takes
the sender of the id of each response; when it ends, `shutdown` takes all senders. Each of these is
a step. `lines` and the number of the line that a sender has sent are not in the source. All callers
pass the cancel token of the reader.

* `request_pairing`: each response goes to its own request, and nobody waits for ever, if no request
  that registers after the shutdown is written, and fewer than 2^64 ids are given out.
-/

namespace VibeKanban.Codex

open Lib Option List
open Function (update update_apply update_of_ne update_self)

inductive RequestId where
  | integer (n : Int64)
  | string (s : String)
  deriving DecidableEq

/-- `JSONRPCErrorError`. -/
structure RpcError where
  code : ℤ
  message : String
  data : Option JsonValue
  deriving DecidableEq

inductive PendingResponse where
  | result (value : JsonValue)
  | error (error : RpcError)
  | shutdown
  deriving DecidableEq

/-- A line of the app-server that is not empty. -/
inductive Line where
  | response (id : RequestId) (result : JsonValue)
  | error (id : RequestId) (error : RpcError)
  | request
  | notification
  | nonJson

/-- What `resolve` is called with (lines 103-134). -/
def Line.resolves : Line → Option (RequestId × PendingResponse)
  | .response id result => some (id, .result result)
  | .error id e => some (id, .error e)
  | _ => none

/-- The `oneshot` channel of a request; `line` is the line that was answered. -/
inductive Channel where
  | empty
  | sent (response : PendingResponse) (line : Option ℕ)
  | dropped
  deriving DecidableEq

/-- How a request fails (lines 223, 240-275). -/
inductive Failure where
  | write
  | cancelled
  | decode
  | jsonRpc (error : RpcError)
  | shutdown
  | dropped
  deriving DecidableEq

inductive Outcome where
  | ok (value : JsonValue)
  | failed (failure : Failure)
  /-- the caller has dropped the request -/
  | abandoned
  deriving DecidableEq

inductive Phase where
  | issued
  | registered
  | waiting
  | done (outcome : Outcome)
  deriving DecidableEq

structure Request where
  id : RequestId
  phase : Phase
  channel : Channel
  deriving DecidableEq

namespace Request

/-- Its id is taken, and it has not ended. -/
def InUse (r : Request) : Prop := ∀ outcome, r.phase ≠ .done outcome

def Waits (r : Request) : Prop := r.phase = .registered ∨ r.phase = .waiting

/-- `sender.send`, which fails if the receiver is gone. -/
def send (r : Request) (response : PendingResponse) (line : Option ℕ) : Request :=
  match r.phase with
  | .done _ => r
  | _ => { r with channel := .sent response line }

def dropSender (r : Request) : Request :=
  match r.phase with
  | .done _ => r
  | _ => { r with channel := .dropped }

variable {r : Request}

theorem not_waits_of_done {outcome : Outcome} (h : r.phase = .done outcome) : ¬ r.Waits := by
  unfold Waits
  simp [h]

theorem Waits.inUse (h : r.Waits) : r.InUse := fun _ heq => not_waits_of_done heq h

theorem send_of_inUse (h : r.InUse) (response : PendingResponse) (line : Option ℕ) :
    r.send response line = { r with channel := .sent response line } := by
  unfold send
  split
  · exact absurd ‹_› (h _)
  · rfl

end Request

/-- `await_response` on what it has received (lines 256-275). -/
def outcomeOf (decodes : Bool) : Channel → Option Outcome
  | .empty => none
  | .sent (.result value) _ => some (if decodes then .ok value else .failed .decode)
  | .sent (.error e) _ => some (.failed (.jsonRpc e))
  | .sent .shutdown _ => some (.failed .shutdown)
  | .dropped => some (.failed .dropped)

inductive Reader where
  | reading
  | resolving (id : RequestId) (response : PendingResponse)
  | ended
  /-- `shutdown` has drained the table -/
  | shut
  deriving DecidableEq

/-- `JsonRpcPeer` with its requests, its reader and the cancel token. -/
structure JsonRpcPeer where
  idCounter : Int64
  pending : List (RequestId × ℕ)
  issued : ℕ
  requests : ℕ → Option Request
  reader : Reader
  cancelled : Bool
  lines : List (RequestId × PendingResponse)

inductive Action where
  | nextRequestId
  | register (i : ℕ)
  | write (i : ℕ) (ok : Bool)
  /-- the request receives; `decodes`: the result has the expected type -/
  | receive (i : ℕ) (decodes : Bool)
  | cancel
  /-- the request sees that the token has fired -/
  | cancelled (i : ℕ)
  /-- the caller drops the request -/
  | abandon (i : ℕ)
  /-- the reader handles a line; `stop`: its callback ends the loop -/
  | line (line : Line) (stop : Bool)
  | resolve
  /-- the loop ends without a line -/
  | stop
  | shutdown

namespace JsonRpcPeer

/-- `JsonRpcPeer::spawn`. -/
def spawn : JsonRpcPeer := ⟨1, [], 0, fun _ => none, .reading, false, []⟩

def setRequest (s : JsonRpcPeer) (i : ℕ) (r : Request) : JsonRpcPeer :=
  { s with requests := update s.requests i (some r) }

/-- `next_request_id` (lines 176-178). -/
def nextRequestId (s : JsonRpcPeer) : JsonRpcPeer :=
  { s with
    idCounter := s.idCounter + 1
    issued := s.issued + 1
    requests := update s.requests s.issued (some ⟨.integer s.idCounter, .issued, .empty⟩) }

def displace (s : JsonRpcPeer) (id : RequestId) : ℕ → Option Request := fun j =>
  (s.requests j).map fun r => if s.pending.lookup id = some j then r.dropSender else r

/-- `register` (lines 180-184). -/
def register (s : JsonRpcPeer) (i : ℕ) (r : Request) : JsonRpcPeer :=
  { s with
    pending := (r.id, i) :: s.pending.filter fun entry => entry.1 ≠ r.id
    requests := update (s.displace r.id) i (some { r with phase := .registered }) }

/-- `resolve` (lines 186-190). -/
def resolve (s : JsonRpcPeer) (id : RequestId) (response : PendingResponse) : JsonRpcPeer :=
  { s with
    reader := .reading
    pending := s.pending.filter fun entry => entry.1 ≠ id
    requests := fun j => (s.requests j).map fun r =>
      if s.pending.lookup id = some j then r.send response (some (s.lines.length - 1)) else r }

/-- `shutdown` (lines 192-198). -/
def shutdown (s : JsonRpcPeer) : JsonRpcPeer :=
  { s with
    reader := .shut
    pending := []
    requests := fun j => (s.requests j).map fun r =>
      if j ∈ s.pending.map Prod.snd then r.send .shutdown none else r }

def finish (s : JsonRpcPeer) (i : ℕ) (r : Request) (outcome : Outcome) : JsonRpcPeer :=
  s.setRequest i { r with phase := .done outcome }

/-- A line (lines 95-160). -/
def handle (s : JsonRpcPeer) (line : Line) (stop : Bool) : JsonRpcPeer :=
  if stop then { s with reader := .ended }
  else
    match line.resolves with
    | some (id, response) =>
      { s with reader := .resolving id response, lines := s.lines ++ [(id, response)] }
    | none => s

def step (s : JsonRpcPeer) : Action → Option JsonRpcPeer
  | .nextRequestId => some s.nextRequestId
  | .register i => (s.requests i).bind fun r =>
    if r.phase = .issued then some (s.register i r) else none
  | .write i ok => (s.requests i).bind fun r =>
    if r.phase = .registered then
      some (if ok then s.setRequest i { r with phase := .waiting }
        else s.finish i r (.failed .write))
    else none
  | .receive i decodes => (s.requests i).bind fun r =>
    if r.phase = .waiting then (outcomeOf decodes r.channel).map (s.finish i r) else none
  | .cancel => some { s with cancelled := true }
  | .cancelled i => (s.requests i).bind fun r =>
    if r.phase = .waiting ∧ s.cancelled then some (s.finish i r (.failed .cancelled)) else none
  | .abandon i => (s.requests i).bind fun r =>
    match r.phase with
    | .done _ => none
    | _ => some (s.finish i r .abandoned)
  | .line line stop => if s.reader = .reading then some (s.handle line stop) else none
  | .resolve =>
    match s.reader with
    | .resolving id response => some (s.resolve id response)
    | _ => none
  | .stop => if s.reader = .reading then some { s with reader := .ended } else none
  | .shutdown => if s.reader = .ended then some s.shutdown else none

/-! ## What every run keeps -/

/-- What holds of the table. -/
structure Tabled (s : JsonRpcPeer) : Prop where
  keyed : Keyed Prod.fst s.pending
  /-- the senders in the table have sent nothing -/
  entry : ∀ id i, (id, i) ∈ s.pending →
    ∃ r, s.requests i = some r ∧ r.id = id ∧ r.phase ≠ .issued ∧ r.channel = .empty
  /-- a request that has received nothing has its sender in the table -/
  waits : ∀ i r, s.requests i = some r → r.Waits → r.channel = .empty → (r.id, i) ∈ s.pending

/-- What holds of the responses that were sent. -/
structure Sent (s : JsonRpcPeer) : Prop where
  answered : ∀ i r response n, s.requests i = some r → r.channel = .sent response (some n) →
    s.lines[n]? = some (r.id, response)
  once : ∀ i j r r' response response' n, s.requests i = some r → s.requests j = some r' →
    r.channel = .sent response (some n) → r'.channel = .sent response' (some n) → i = j
  /-- the line that is being resolved was not sent -/
  resolving : ∀ id response, s.reader = .resolving id response →
    s.lines.getLast? = some (id, response) ∧
    ∀ i r response' n, s.requests i = some r → r.channel = .sent response' (some n) →
      n + 1 < s.lines.length

/-- What every run keeps. -/
structure Consistent (s : JsonRpcPeer) : Prop extends Tabled s, Sent s where
  issued : ∀ i r, s.requests i = some r → i < s.issued
  unregistered : ∀ i r, s.requests i = some r → r.phase = .issued → r.channel = .empty

variable {s s' : JsonRpcPeer} {a : Action} {i : ℕ} {r : Request}

variable {j : ℕ}

/-- What is done to the senders that are taken from the table. -/
structure Delivers (g : Request → Request) : Prop where
  id : ∀ r, (g r).id = r.id
  phase : ∀ r, (g r).phase = r.phase
  channel : ∀ r, r.Waits → (g r).channel ≠ .empty

open Request

theorem send_delivers (response : PendingResponse) (line : Option ℕ) :
    Delivers fun r => r.send response line := by
  refine ⟨fun r => ?_, fun r => ?_, fun r hr => ?_⟩
  · unfold send
    split <;> rfl
  · unfold send
    split <;> rfl
  · rw [send_of_inUse hr.inUse]
    exact nofun

theorem dropSender_delivers : Delivers dropSender := by
  refine ⟨fun r => ?_, fun r => ?_, fun r hr => ?_⟩
  · unfold dropSender
    split <;> rfl
  · unfold dropSender
    split <;> rfl
  · unfold dropSender
    split
    · exact absurd hr (not_waits_of_done ‹_›)
    · exact nofun

/-- The senders of some ids are taken from the table. -/
structure Takes (s : JsonRpcPeer) (keep : RequestId → Bool) (g : Request → Request)
    (s' : JsonRpcPeer) : Prop where
  pending : s'.pending = s.pending.filter fun entry => keep entry.1
  none : ∀ j, s.requests j = none → s'.requests j = none
  taken : ∀ j r id, s.requests j = some r → keep id = false → (id, j) ∈ s.pending →
    s'.requests j = some (g r)
  kept : ∀ j r, s.requests j = some r → (∀ id, (id, j) ∈ s.pending → keep id = true) →
    s'.requests j = some r
  issued : s'.issued = s.issued

variable {keep : RequestId → Bool} {g : Request → Request} {r' : Request}

theorem Takes.cases (h : Takes s keep g s') (hr' : s'.requests j = some r') :
    ∃ r, s.requests j = some r ∧ ((∃ id, keep id = false ∧ (id, j) ∈ s.pending) ∧ r' = g r ∨
        (∀ id, (id, j) ∈ s.pending → keep id = true) ∧ r' = r) := by
  cases hr : s.requests j with
  | none =>
    rw [h.none j hr] at hr'
    cases hr'
  | some r =>
    refine ⟨r, rfl, ?_⟩
    by_cases htaken : ∃ id, keep id = false ∧ (id, j) ∈ s.pending
    · obtain ⟨id, hkeep, hmem⟩ := htaken
      rw [h.taken j r id hr hkeep hmem, some.injEq] at hr'
      exact .inl ⟨⟨id, hkeep, hmem⟩, hr'.symm⟩
    · simp only [not_exists, not_and] at htaken
      have hall : ∀ id, (id, j) ∈ s.pending → keep id = true := by
        intro id hmem
        by_contra hkeep
        exact htaken id (Bool.eq_false_iff.2 hkeep) hmem
      rw [h.kept j r hr hall, some.injEq] at hr'
      exact .inr ⟨hall, hr'.symm⟩

theorem Tabled.takes (h : s.Tabled) (hg : Delivers g) (htakes : Takes s keep g s') : s'.Tabled := by
  refine ⟨?_, ?_, ?_⟩
  · rw [htakes.pending]
    exact Members.keyed_filter h.keyed _
  · intro id i hmem
    rw [htakes.pending] at hmem
    obtain ⟨hmem, hkeep⟩ := mem_filter.1 hmem
    obtain ⟨r, hr, hid, hphase, hchannel⟩ := h.entry id i hmem
    refine ⟨r, htakes.kept i r hr fun id' hmem' => ?_, hid, hphase, hchannel⟩
    obtain ⟨r', hr', hid', -⟩ := h.entry id' i hmem'
    rw [hr, some.injEq] at hr'
    rw [← hid', ← hr', hid]
    exact hkeep
  · intro i r' hr' hwaits hchannel
    obtain ⟨r, hr, ⟨-, rfl⟩ | ⟨hkept, rfl⟩⟩ := htakes.cases hr'
    · have hwaits' : r.Waits := by
        unfold Request.Waits at hwaits ⊢
        rwa [hg.phase] at hwaits
      exact absurd hchannel (hg.channel r hwaits')
    · have hmem := h.waits i r' hr hwaits hchannel
      rw [htakes.pending]
      exact mem_filter.2 ⟨hmem, hkept _ hmem⟩

theorem takes_of_lookup (h : s.Tabled) (id : RequestId)
    (hpending : s'.pending = s.pending.filter fun entry => entry.1 ≠ id)
    (hrequests : s'.requests = fun j => (s.requests j).map fun r =>
      if s.pending.lookup id = some j then g r else r) (hissued : s'.issued = s.issued) :
    Takes s (fun id' => decide (id' ≠ id)) g s' := by
  have hlookup : ∀ j, s.pending.lookup id = some j ↔ (id, j) ∈ s.pending := fun j =>
    Members.lookup_eq_some_iff_mem h.keyed
  refine ⟨hpending, fun j hj => ?_, fun j r id' hj hkeep hmem => ?_, fun j r hj hkept => ?_,
    hissued⟩
  · rw [hrequests]
    simp [hj]
  · obtain rfl : id' = id := by simpa using hkeep
    rw [hrequests]
    simp [hj, (hlookup j).2 hmem]
  · rw [hrequests]
    have hnot : ¬ s.pending.lookup id = some j := by
      intro heq
      have hkeep := hkept id ((hlookup j).1 heq)
      simp at hkeep
    simp [hj, hnot]

theorem takes_displace (h : s.Tabled) (id : RequestId) :
    Takes s (fun id' => decide (id' ≠ id)) dropSender
      { s with
        pending := s.pending.filter fun entry => entry.1 ≠ id
        requests := s.displace id } := takes_of_lookup h id rfl rfl rfl

theorem takes_shutdown (s : JsonRpcPeer) :
    Takes s (fun _ => false) (fun r => r.send .shutdown none) s.shutdown := by
  refine ⟨?_, fun j hj => ?_, fun j r id hj _ hmem => ?_, fun j r hj hkept => ?_, rfl⟩
  · show [] = _
    simp
  · simp [shutdown, hj]
  · have hj' : j ∈ s.pending.map Prod.snd := mem_map_of_mem (f := Prod.snd) hmem
    show (s.requests j).map _ = _
    rw [hj, map_some, if_pos hj']
  · have hj' : j ∉ s.pending.map Prod.snd := by
      intro hj'
      obtain ⟨⟨id, j'⟩, hmem, rfl⟩ := mem_map.1 hj'
      cases hkept id hmem
    show (s.requests j).map _ = _
    rw [hj, map_some, if_neg hj']

theorem Tabled.register (h : s.Tabled) (hr : s.requests i = some r) (hphase : r.phase = .issued)
    (hchannel : r.channel = .empty) : (s.register i r).Tabled := by
  obtain ⟨hkeyed, hentry, hwaits⟩ := h.takes dropSender_delivers (takes_displace h r.id)
  have hother : ∀ id j, (id, j) ∈ s.pending.filter (fun entry => entry.1 ≠ r.id) → j ≠ i := by
    rintro id j hmem rfl
    obtain ⟨r', hr', -, hphase', -⟩ := h.entry id j (mem_of_mem_filter hmem)
    rw [hr, some.injEq] at hr'
    rw [← hr'] at hphase'
    exact hphase' hphase
  refine ⟨?_, ?_, ?_⟩
  · refine Members.keyed_cons_iff.2 ⟨fun entry hentry => ?_, hkeyed⟩
    simpa using (mem_filter.1 hentry).2
  · intro id j hmem
    rcases mem_cons.1 hmem with heq | hmem
    · cases heq
      exact ⟨_, update_self _ _ _, rfl, nofun, hchannel⟩
    · obtain ⟨r', hr', hfacts⟩ := hentry id j hmem
      refine ⟨r', ?_, hfacts⟩
      show update (s.displace r.id) i _ j = _
      rw [update_of_ne (hother id j hmem)]
      exact hr'
  · intro j r' hr' hwaits' hchannel'
    rcases update_cases hr' with ⟨rfl, rfl⟩ | ⟨-, hr'⟩
    · exact mem_cons_self
    · exact mem_cons_of_mem _ (hwaits j r' hr' hwaits' hchannel')

theorem Tabled.setRequest (h : s.Tabled) (hr : s.requests i = some r)
    (hid : r'.id = r.id) (hchannel : r'.channel = r.channel) (hphase : r'.phase ≠ .issued)
    (hwaits : r'.Waits → r.Waits) : (s.setRequest i r').Tabled := by
  refine ⟨h.keyed, fun id j hmem => ?_, fun j r'' hr'' hwaits'' hchannel'' => ?_⟩
  · obtain ⟨r₀, hr₀, hfacts⟩ := h.entry id j hmem
    by_cases hj : j = i
    · subst hj
      rw [hr, some.injEq] at hr₀
      rw [← hr₀] at hfacts
      exact ⟨r', update_self _ _ _, hid.trans hfacts.1, hphase, hchannel.trans hfacts.2.2⟩
    · exact ⟨r₀, (update_of_ne hj _ _).trans hr₀, hfacts⟩
  · rcases update_cases hr'' with ⟨rfl, rfl⟩ | ⟨-, hr''⟩
    · rw [hid]
      exact h.waits j r hr (hwaits hwaits'') (hchannel.symm.trans hchannel'')
    · exact h.waits j r'' hr'' hwaits'' hchannel''

/-- No response of a line is sent. -/
theorem Sent.of (h : s.Sent) (hlines : s'.lines = s.lines) (hreader : ∀ id response,
      s'.reader = .resolving id response → s.reader = .resolving id response)
    (hrequests : ∀ j r' response n, s'.requests j = some r' → r'.channel = .sent response (some n) →
      ∃ r, s.requests j = some r ∧ r.id = r'.id ∧ r.channel = .sent response (some n)) :
    s'.Sent := by
  refine ⟨fun j r' response n hr' hsent => ?_, fun j k r' r'' response response' n hr' hr'' hsent
    hsent' => ?_, fun id response hresolving => ?_⟩
  · obtain ⟨r, hr, hid, hsent⟩ := hrequests j r' response n hr' hsent
    rw [hlines, ← hid]
    exact h.answered j r response n hr hsent
  · obtain ⟨r₁, hr₁, -, hsent₁⟩ := hrequests j r' response n hr' hsent
    obtain ⟨r₂, hr₂, -, hsent₂⟩ := hrequests k r'' response' n hr'' hsent'
    exact h.once j k r₁ r₂ response response' n hr₁ hr₂ hsent₁ hsent₂
  · obtain ⟨hlast, hunsent⟩ := h.resolving id response (hreader id response hresolving)
    rw [hlines]
    refine ⟨hlast, fun j r' response' n hr' hsent => ?_⟩
    obtain ⟨r, hr, -, hsent⟩ := hrequests j r' response' n hr' hsent
    exact hunsent j r response' n hr hsent

theorem Sent.takes (h : s.Sent) (htakes : Takes s keep g s') (hid : ∀ r, (g r).id = r.id)
    (hg : ∀ r response n, (g r).channel = .sent response (some n) →
      r.channel = .sent response (some n)) (hlines : s'.lines = s.lines)
    (hreader : ∀ id response, s'.reader = .resolving id response →
      s.reader = .resolving id response) : s'.Sent := by
  refine h.of hlines hreader fun j r' response n hr' hsent => ?_
  obtain ⟨r, hr, ⟨-, rfl⟩ | ⟨-, rfl⟩⟩ := htakes.cases hr'
  · exact ⟨r, hr, (hid r).symm, hg r response n hsent⟩
  · exact ⟨r', hr, rfl, hsent⟩

variable {response : PendingResponse} {n : ℕ} {response' : PendingResponse}

theorem channel_dropSender (h : r.dropSender.channel = .sent response (some n)) :
    r.channel = .sent response (some n) := by
  unfold dropSender at h
  split at h
  · exact h
  · cases h

theorem channel_send_none (h : (r.send response none).channel = .sent response' (some n)) :
    r.channel = .sent response' (some n) := by
  unfold send at h
  split at h
  · exact h
  · cases h

theorem channel_send {m : ℕ} (h : (r.send response (some m)).channel = .sent response' (some n)) :
    r.channel = .sent response' (some n) ∨ response' = response ∧ n = m := by
  unfold send at h
  split at h
  · exact .inl h
  · cases h
    exact .inr ⟨rfl, rfl⟩

theorem Sent.resolve {id : RequestId} (h : s.Sent) (ht : s.Tabled)
    (hreader : s.reader = .resolving id response) : (s.resolve id response).Sent := by
  obtain ⟨hlast, hunsent⟩ := h.resolving id response hreader
  have htakes : Takes s (fun id' => decide (id' ≠ id))
      (fun r => r.send response (some (s.lines.length - 1))) (s.resolve id response) :=
    takes_of_lookup ht id rfl rfl rfl
  have hline : s.lines[s.lines.length - 1]? = some (id, response) := by
    rw [← getLast?_eq_getElem?]
    exact hlast
  have hcases : ∀ j r' response' n, (s.resolve id response).requests j = some r' →
      r'.channel = .sent response' (some n) → ∃ r, s.requests j = some r ∧ r.id = r'.id ∧
        (r.channel = .sent response' (some n) ∨
          (id, j) ∈ s.pending ∧ r'.id = id ∧ response' = response ∧ n = s.lines.length - 1) := by
    intro j r' response' n hr' hsent
    obtain ⟨r, hr, ⟨⟨id', hkeep, hmem⟩, rfl⟩ | ⟨-, rfl⟩⟩ := htakes.cases hr'
    · obtain rfl : id' = id := by simpa using hkeep
      have hid := (send_delivers response (some (s.lines.length - 1))).id r
      refine ⟨r, hr, hid.symm, (channel_send hsent).imp id fun hnew => ⟨hmem, ?_, hnew⟩⟩
      obtain ⟨r₀, hr₀, hid₀, -⟩ := ht.entry id' j hmem
      rw [hr, some.injEq] at hr₀
      rw [hid, hr₀, hid₀]
    · exact ⟨r', hr, rfl, .inl hsent⟩
  refine ⟨fun j r' response' n hr' hsent => ?_, fun j k r' r'' response' response'' n hr' hr''
    hsent hsent' => ?_, nofun⟩
  · obtain ⟨r, hr, hid, hsent | ⟨-, hid', rfl, rfl⟩⟩ := hcases j r' response' n hr' hsent
    · rw [← hid]
      exact h.answered j r response' n hr hsent
    · rw [hid']
      exact hline
  · obtain ⟨r₁, hr₁, -, hsent₁ | ⟨hmem₁, -, -, hn₁⟩⟩ := hcases j r' response' n hr' hsent
    · obtain ⟨r₂, hr₂, -, hsent₂ | ⟨-, -, -, hn₂⟩⟩ := hcases k r'' response'' n hr'' hsent'
      · exact h.once j k r₁ r₂ response' response'' n hr₁ hr₂ hsent₁ hsent₂
      · have hlt := hunsent j r₁ response' n hr₁ hsent₁
        omega
    · obtain ⟨r₂, hr₂, -, hsent₂ | ⟨hmem₂, -, -, -⟩⟩ := hcases k r'' response'' n hr'' hsent'
      · have hlt := hunsent k r₂ response'' n hr₂ hsent₂
        omega
      · have hlookup₁ := (Members.lookup_eq_some_iff_mem ht.keyed).2 hmem₁
        have hlookup₂ := (Members.lookup_eq_some_iff_mem ht.keyed).2 hmem₂
        rw [hlookup₁, some.injEq] at hlookup₂
        exact hlookup₂

theorem Consistent.setRequest (h : s.Consistent) (hr : s.requests i = some r)
    (hid : r'.id = r.id) (hchannel : r'.channel = r.channel) (hphase : r'.phase ≠ .issued)
    (hwaits : r'.Waits → r.Waits) : (s.setRequest i r').Consistent := by
  have hcases : ∀ j r'', (s.setRequest i r').requests j = some r'' →
      j = i ∧ r'' = r' ∨ j ≠ i ∧ s.requests j = some r'' :=
    fun j r'' hr'' => update_cases hr''
  refine ⟨h.toTabled.setRequest hr hid hchannel hphase hwaits,
    h.toSent.of rfl (fun _ _ heq => heq) fun j r'' response n hr'' hsent => ?_,
    fun j r'' hr'' => ?_, fun j r'' hr'' hissued => ?_⟩
  · rcases hcases j r'' hr'' with ⟨rfl, rfl⟩ | ⟨-, hr''⟩
    · exact ⟨r, hr, hid.symm, hchannel.symm.trans hsent⟩
    · exact ⟨r'', hr'', rfl, hsent⟩
  · rcases hcases j r'' hr'' with ⟨rfl, rfl⟩ | ⟨-, hr''⟩
    · exact h.issued j r hr
    · exact h.issued j r'' hr''
  · rcases hcases j r'' hr'' with ⟨rfl, rfl⟩ | ⟨-, hr''⟩
    · exact absurd hissued hphase
    · exact h.unregistered j r'' hr'' hissued

theorem Consistent.finish {outcome : Outcome} (h : s.Consistent) (hr : s.requests i = some r) :
    (s.finish i r outcome).Consistent := by
  refine h.setRequest hr rfl rfl nofun fun hwaits => ?_
  exact absurd hwaits (not_waits_of_done rfl)

section

variable (h : s.Consistent)

include h

theorem Consistent.takes
    (hg : Delivers g) (htakes : Takes s keep g s') (hsent : s'.Sent) : s'.Consistent := by
  refine ⟨h.toTabled.takes hg htakes, hsent, fun j r' hr' => ?_, fun j r' hr' hissued => ?_⟩
  · obtain ⟨r, hr, -⟩ := htakes.cases hr'
    rw [htakes.issued]
    exact h.issued j r hr
  · obtain ⟨r, hr, ⟨⟨id, -, hmem⟩, rfl⟩ | ⟨-, rfl⟩⟩ := htakes.cases hr'
    · obtain ⟨r₀, hr₀, -, hphase, -⟩ := h.entry id j hmem
      rw [hr, some.injEq] at hr₀
      rw [hg.phase, hr₀] at hissued
      exact absurd hissued hphase
    · exact h.unregistered j r' hr hissued

theorem Consistent.nextRequestId : s.nextRequestId.Consistent := by
  have hold : ∀ j r, s.requests j = some r → s.nextRequestId.requests j = some r := by
    intro j r hr
    show update s.requests s.issued _ j = _
    rw [update_of_ne (Nat.ne_of_lt (h.issued j r hr))]
    exact hr
  refine ⟨⟨h.keyed, fun id j hmem => ?_, fun j r hr hwaits hchannel => ?_⟩,
    h.toSent.of rfl (fun _ _ heq => heq) fun j r response n hr hsent => ?_, fun j r hr => ?_,
    fun j r hr hissued => ?_⟩
  · obtain ⟨r, hr, hfacts⟩ := h.entry id j hmem
    exact ⟨r, hold j r hr, hfacts⟩
  · rcases update_cases hr with ⟨rfl, rfl⟩ | ⟨-, hr⟩
    · rcases hwaits with heq | heq <;> cases heq
    · exact h.waits j r hr hwaits hchannel
  · rcases update_cases hr with ⟨rfl, rfl⟩ | ⟨-, hr⟩
    · cases hsent
    · exact ⟨r, hr, rfl, hsent⟩
  · rcases update_cases hr with ⟨rfl, rfl⟩ | ⟨-, hr⟩
    · exact Nat.lt_succ_self _
    · exact Nat.lt_succ_of_lt (h.issued j r hr)
  · rcases update_cases hr with ⟨rfl, rfl⟩ | ⟨-, hr⟩
    · rfl
    · exact h.unregistered j r hr hissued

theorem Consistent.register (hr : s.requests i = some r)
    (hphase : r.phase = .issued) : (s.register i r).Consistent := by
  have hchannel := h.unregistered i r hr hphase
  have hdisplaced := h.takes dropSender_delivers (takes_displace h.toTabled r.id)
    (h.toSent.takes (takes_displace h.toTabled r.id) dropSender_delivers.id
      (fun r response n => channel_dropSender) rfl fun _ _ heq => heq)
  refine ⟨h.toTabled.register hr hphase hchannel,
    hdisplaced.toSent.of rfl (fun _ _ heq => heq) fun j r' response n hr' hsent => ?_,
    fun j r' hr' => ?_, fun j r' hr' hissued => ?_⟩
  · rcases update_cases hr' with ⟨rfl, rfl⟩ | ⟨-, hr'⟩
    · rw [show _ = Channel.empty from hchannel] at hsent
      cases hsent
    · exact ⟨r', hr', rfl, hsent⟩
  · rcases update_cases hr' with ⟨rfl, rfl⟩ | ⟨-, hr'⟩
    · exact h.issued j r hr
    · exact hdisplaced.issued j r' hr'
  · rcases update_cases hr' with ⟨rfl, rfl⟩ | ⟨-, hr'⟩
    · cases hissued
    · exact hdisplaced.unregistered j r' hr' hissued

theorem Consistent.handle (line : Line) (stop : Bool) : (s.handle line stop).Consistent := by
  unfold JsonRpcPeer.handle
  split_ifs
  · exact ⟨⟨h.keyed, h.entry, h.waits⟩, ⟨h.answered, h.once, nofun⟩, h.issued, h.unregistered⟩
  · split
    · rename_i id response hresolves
      refine ⟨⟨h.keyed, h.entry, h.waits⟩, ⟨fun j r response' n hr hsent => ?_, h.once,
        fun id' response' heq => ⟨?_, fun j r response'' n hr hsent => ?_⟩⟩, h.issued,
        h.unregistered⟩
      · have hline := h.answered j r response' n hr hsent
        show (s.lines ++ [(id, response)])[n]? = _
        rw [List.getElem?_append_left (List.getElem?_eq_some_iff.1 hline).1]
        exact hline
      · cases heq
        exact getLast?_concat
      · have hline := (List.getElem?_eq_some_iff.1 (h.answered j r response'' n hr hsent)).1
        show n + 1 < (s.lines ++ [(id, response)]).length
        rw [length_append]
        exact Nat.succ_lt_succ hline
    · exact h

theorem Consistent.step (hstep : s.step a = some s') : s'.Consistent := by
  cases a with
  | nextRequestId =>
    cases hstep
    exact h.nextRequestId
  | register i =>
    obtain ⟨r, hr, hstep⟩ := bind_eq_some_iff.1 hstep
    split_ifs at hstep with hphase
    cases hstep
    exact h.register hr hphase
  | write i ok =>
    obtain ⟨r, hr, hstep⟩ := bind_eq_some_iff.1 hstep
    split_ifs at hstep with hphase <;> cases hstep
    · exact h.setRequest hr rfl rfl nofun fun _ => .inl hphase
    · exact h.finish hr
  | receive i decodes =>
    obtain ⟨r, hr, hstep⟩ := bind_eq_some_iff.1 hstep
    split_ifs at hstep
    obtain ⟨outcome, -, rfl⟩ := map_eq_some_iff.1 hstep
    exact h.finish hr
  | cancel =>
    cases hstep
    exact ⟨⟨h.keyed, h.entry, h.waits⟩, ⟨h.answered, h.once, h.resolving⟩, h.issued, h.unregistered⟩
  | cancelled i | abandon i =>
    obtain ⟨r, hr, hstep⟩ := bind_eq_some_iff.1 hstep
    split at hstep <;> cases hstep
    exact h.finish hr
  | line line stop =>
    simp only [JsonRpcPeer.step] at hstep
    split_ifs at hstep
    cases hstep
    exact h.handle line stop
  | resolve =>
    simp only [JsonRpcPeer.step] at hstep
    split at hstep <;> cases hstep
    exact h.takes (send_delivers _ _) (takes_of_lookup h.toTabled _ rfl rfl rfl)
      (h.toSent.resolve h.toTabled ‹_›)
  | stop =>
    simp only [JsonRpcPeer.step] at hstep
    split_ifs at hstep
    cases hstep
    exact ⟨⟨h.keyed, h.entry, h.waits⟩, ⟨h.answered, h.once, nofun⟩, h.issued, h.unregistered⟩
  | shutdown =>
    simp only [JsonRpcPeer.step] at hstep
    split_ifs at hstep
    cases hstep
    refine h.takes (send_delivers _ _) (takes_shutdown s) (h.toSent.takes (takes_shutdown s)
      (send_delivers _ _).id (fun r response n => channel_send_none) rfl nofun)

end

/-! ## Runs in which requests come to their end -/

def Distinct (s : JsonRpcPeer) : Prop :=
  ∀ i j r r', s.requests i = some r → s.requests j = some r' → r.InUse → r'.InUse →
    r.id = r'.id → i = j

/-- After the shutdown every request that waits has something to receive, or the token has
    fired. -/
def Ends (s : JsonRpcPeer) : Prop :=
  s.reader = .shut → s.cancelled = false → ∀ i r, s.requests i = some r → r.phase = .waiting →
    r.channel ≠ .empty

/-- Fewer than 2^64 ids were given out. -/
def IdsLeft (s : JsonRpcPeer) : Action → Prop
  | .nextRequestId => s.issued < 2 ^ 64
  | _ => True

/-- No request that has registered after the shutdown is written before the token fires. -/
def InTime (s : JsonRpcPeer) : Action → Prop
  | .write i ok => ok = true → s.reader = .shut → s.cancelled = false →
    ∀ r, s.requests i = some r → r.channel ≠ .empty
  | _ => True

/-- What a step does to a request. -/
structure Moves (a : Action) (j : ℕ) (r r' : Request) : Prop where
  id : r'.id = r.id
  inUse : r'.InUse → r.InUse
  waiting : r'.phase = .waiting → r.phase = .waiting ∨ a = .write j true
  channel : r'.InUse → r'.channel = .empty → r.channel = .empty
  told : ∀ response, r'.channel = .sent response none →
    r.channel = .sent response none ∨ response = .shutdown

theorem Moves.refl (a : Action) (j : ℕ) (r : Request) : Moves a j r r :=
  ⟨rfl, fun h => h, .inl, fun _ h => h, fun _ => .inl⟩

theorem Moves.finish (a : Action) (j : ℕ) (r : Request) (outcome : Outcome) :
    Moves a j r { r with phase := .done outcome } :=
  ⟨rfl, fun h => absurd rfl (h outcome), nofun, fun h => absurd rfl (h outcome), fun _ => .inl⟩

theorem moves_send (a : Action) (j : ℕ) (response : PendingResponse) (line : Option ℕ)
    (hnone : line = none → response = .shutdown) : Moves a j r (r.send response line) := by
  have hg := send_delivers response line
  refine ⟨hg.id r, fun h => ?_, fun h => .inl ((hg.phase r).symm.trans h), fun h heq => ?_,
    fun response' heq => ?_⟩
  · unfold Request.InUse at h ⊢
    rwa [hg.phase] at h
  · unfold send at heq
    split at heq
    · exact heq
    · cases heq
  · unfold send at heq
    split at heq
    · exact .inl heq
    · cases heq
      exact .inr (hnone rfl)

theorem moves_dropSender (a : Action) (j : ℕ) : Moves a j r r.dropSender := by
  have hg := dropSender_delivers
  refine ⟨hg.id r, fun h => ?_, fun h => .inl ((hg.phase r).symm.trans h), fun h heq => ?_,
    fun response heq => ?_⟩
  · unfold Request.InUse at h ⊢
    rwa [hg.phase] at h
  · unfold dropSender at heq
    split at heq
    · exact heq
    · cases heq
  · unfold dropSender at heq
    split at heq
    · exact .inl heq
    · cases heq

theorem moves_of_step (hstep : s.step a = some s') (hr' : s'.requests j = some r') :
    (∃ r, s.requests j = some r ∧ Moves a j r r') ∨
      a = .nextRequestId ∧ j = s.issued ∧ r' = ⟨.integer s.idCounter, .issued, .empty⟩ := by
  have hfinish : ∀ i r outcome, s.requests i = some r → s' = s.finish i r outcome →
      ∃ r, s.requests j = some r ∧ Moves a j r r' := by
    rintro i r outcome hr rfl
    rcases update_cases hr' with ⟨rfl, rfl⟩ | ⟨-, hr'⟩
    · exact ⟨r, hr, .finish a j r outcome⟩
    · exact ⟨r', hr', .refl a j r'⟩
  cases a with
  | nextRequestId =>
    cases hstep
    rcases update_cases hr' with ⟨rfl, rfl⟩ | ⟨-, hr'⟩
    · exact .inr ⟨rfl, rfl, rfl⟩
    · exact .inl ⟨r', hr', .refl _ j r'⟩
  | register i =>
    obtain ⟨r, hr, hstep⟩ := bind_eq_some_iff.1 hstep
    split_ifs at hstep with hphase
    cases hstep
    left
    rcases update_cases hr' with ⟨rfl, rfl⟩ | ⟨-, hr'⟩
    · refine ⟨r, hr, rfl, fun _ => ?_, nofun, fun _ heq => heq, fun _ => .inl⟩
      unfold Request.InUse
      rw [hphase]
      exact nofun
    · obtain ⟨r₀, hr₀, rfl⟩ := map_eq_some_iff.1 hr'
      refine ⟨r₀, hr₀, ?_⟩
      split_ifs
      · exact moves_dropSender _ j
      · exact .refl _ j r₀
  | write i ok =>
    obtain ⟨r, hr, hstep⟩ := bind_eq_some_iff.1 hstep
    split_ifs at hstep with hphase hok <;> cases hstep
    · left
      rcases update_cases hr' with ⟨rfl, rfl⟩ | ⟨-, hr'⟩
      · refine ⟨r, hr, rfl, fun _ => Request.Waits.inUse (.inl hphase), fun _ => .inr ?_,
          fun _ heq => heq, fun _ => .inl⟩
        rw [hok]
      · exact ⟨r', hr', .refl _ j r'⟩
    · exact .inl (hfinish i r _ hr rfl)
  | receive i decodes =>
    obtain ⟨r, hr, hstep⟩ := bind_eq_some_iff.1 hstep
    split_ifs at hstep
    obtain ⟨outcome, -, rfl⟩ := map_eq_some_iff.1 hstep
    exact .inl (hfinish i r outcome hr rfl)
  | cancel =>
    cases hstep
    exact .inl ⟨r', hr', .refl _ j r'⟩
  | cancelled i | abandon i =>
    obtain ⟨r, hr, hstep⟩ := bind_eq_some_iff.1 hstep
    split at hstep <;> cases hstep
    exact .inl (hfinish i r _ hr rfl)
  | line line stop =>
    simp only [step] at hstep
    split_ifs at hstep
    cases hstep
    refine .inl ⟨r', ?_, .refl _ j r'⟩
    unfold handle at hr'
    split_ifs at hr'
    · exact hr'
    · split at hr' <;> exact hr'
  | resolve =>
    simp only [step] at hstep
    split at hstep <;> cases hstep
    left
    obtain ⟨r₀, hr₀, rfl⟩ := map_eq_some_iff.1 hr'
    refine ⟨r₀, hr₀, ?_⟩
    split_ifs
    · exact moves_send _ j _ _ nofun
    · exact .refl _ j r₀
  | stop =>
    simp only [step] at hstep
    split_ifs at hstep
    cases hstep
    exact .inl ⟨r', hr', .refl _ j r'⟩
  | shutdown =>
    simp only [step] at hstep
    split_ifs at hstep
    cases hstep
    left
    obtain ⟨r₀, hr₀, rfl⟩ := map_eq_some_iff.1 hr'
    refine ⟨r₀, hr₀, ?_⟩
    split_ifs
    · exact moves_send _ j _ _ fun _ => rfl
    · exact .refl _ j r₀

/-- Only the shutdown leaves the reader shut down; that and the token stay; and only
    `next_request_id` moves the counter. -/
theorem signals_of_step (hstep : s.step a = some s') :
    (s'.reader = s.reader ∨ s.reader ≠ .shut ∧ (s'.reader = .shut → a = .shutdown)) ∧
      (s'.cancelled = s.cancelled ∨ a = .cancel ∧ s'.cancelled = true) ∧
      (a = .nextRequestId ∨ s'.idCounter = s.idCounter ∧ s'.issued = s.issued) := by
  cases a with
  | nextRequestId =>
    cases hstep
    exact ⟨.inl rfl, .inl rfl, .inl rfl⟩
  | register i | write i ok | cancelled i | abandon i =>
    obtain ⟨r, -, hstep⟩ := bind_eq_some_iff.1 hstep
    repeat' split at hstep
    all_goals cases hstep <;> exact ⟨.inl rfl, .inl rfl, .inr ⟨rfl, rfl⟩⟩
  | receive i decodes =>
    obtain ⟨r, -, hstep⟩ := bind_eq_some_iff.1 hstep
    split_ifs at hstep
    obtain ⟨outcome, -, rfl⟩ := map_eq_some_iff.1 hstep
    exact ⟨.inl rfl, .inl rfl, .inr ⟨rfl, rfl⟩⟩
  | cancel =>
    cases hstep
    exact ⟨.inl rfl, .inr ⟨rfl, rfl⟩, .inr ⟨rfl, rfl⟩⟩
  | line line stop =>
    simp only [step] at hstep
    split_ifs at hstep with hreading
    cases hstep
    unfold handle
    rw [hreading]
    split_ifs
    · exact ⟨.inr ⟨nofun, nofun⟩, .inl rfl, .inr ⟨rfl, rfl⟩⟩
    · split
      · exact ⟨.inr ⟨nofun, nofun⟩, .inl rfl, .inr ⟨rfl, rfl⟩⟩
      · exact ⟨.inl hreading, .inl rfl, .inr ⟨rfl, rfl⟩⟩
  | resolve =>
    simp only [step] at hstep
    split at hstep <;> cases hstep
    rename_i hresolving
    rw [hresolving]
    exact ⟨.inr ⟨nofun, nofun⟩, .inl rfl, .inr ⟨rfl, rfl⟩⟩
  | stop =>
    simp only [step] at hstep
    split_ifs at hstep with hreading
    cases hstep
    rw [hreading]
    exact ⟨.inr ⟨nofun, nofun⟩, .inl rfl, .inr ⟨rfl, rfl⟩⟩
  | shutdown =>
    simp only [step] at hstep
    split_ifs at hstep with hended
    cases hstep
    rw [hended]
    exact ⟨.inr ⟨nofun, fun _ => rfl⟩, .inl rfl, .inr ⟨rfl, rfl⟩⟩

/-- The ids are those of the counter, one after the other. -/
structure Numbered (s : JsonRpcPeer) : Prop where
  ids : ∀ i r, s.requests i = some r → r.id = .integer (.ofNat (i + 1))
  counter : s.idCounter = .ofNat (s.issued + 1)
  bound : s.issued ≤ 2 ^ 64

theorem Numbered.step (h : s.Numbered) (hleft : IdsLeft s a) (hstep : s.step a = some s') :
    s'.Numbered := by
  obtain ⟨-, -, rfl | ⟨hcounter, hissued⟩⟩ := signals_of_step hstep
  · cases hstep
    refine ⟨fun i r hr => ?_, ?_, hleft⟩
    · rcases update_cases hr with ⟨rfl, rfl⟩ | ⟨-, hr⟩
      · exact congrArg _ h.counter
      · exact h.ids i r hr
    · show s.idCounter + 1 = _
      rw [h.counter]
      exact (Int64.ofNat_add _ 1).symm
  · refine ⟨fun i r' hr' => ?_, by rw [hcounter, hissued, h.counter], hissued ▸ h.bound⟩
    rcases moves_of_step hstep hr' with ⟨r, hr, hmoves⟩ | ⟨rfl, -, -⟩
    · rw [hmoves.id]
      exact h.ids i r hr
    · cases hstep
      exact absurd hissued (Nat.succ_ne_self _)

theorem Numbered.distinct (h : s.Numbered) (hc : s.Consistent) : s.Distinct := by
  intro i j r r' hr hr' _ _ heq
  have hi := hc.issued i r hr
  have hj := hc.issued j r' hr'
  have hbound := h.bound
  rw [h.ids i r hr, h.ids j r' hr', RequestId.integer.injEq] at heq
  have hnat := congrArg (fun n : Int64 => n.toBitVec.toNat) heq
  simp only [Int64.toBitVec_ofNat', BitVec.toNat_ofNat] at hnat
  omega

theorem Tabled.ends_shutdown (h : s.Tabled) : s.shutdown.Ends := by
  intro _ _ i r' hr' hphase hempty
  obtain ⟨r, hr, ⟨⟨id, -, hmem⟩, rfl⟩ | ⟨hkept, rfl⟩⟩ := (takes_shutdown s).cases hr'
  · obtain ⟨r₀, hr₀, -, -, hchannel⟩ := h.entry id i hmem
    have hwaits : r.Waits := .inr (((send_delivers .shutdown none).phase r).symm.trans hphase)
    exact (send_delivers .shutdown none).channel r hwaits hempty
  · exact absurd (hkept _ (h.waits i r' hr (.inr hphase) hempty)) Bool.false_ne_true

theorem Ends.step_iff (h : s.Ends) (hc : s.Consistent) (hstep : s.step a = some s') :
    s'.Ends ↔ InTime s a := by
  obtain ⟨hreader, hcancelled, -⟩ := signals_of_step hstep
  constructor
  · intro h'
    cases a with
    | write i ok =>
      intro hok hshut hlive r hr hempty
      obtain ⟨r₀, hr₀, hstep⟩ := bind_eq_some_iff.1 hstep
      rw [hr, some.injEq] at hr₀
      subst hr₀
      split_ifs at hstep
      cases hstep
      exact h' hshut hlive i _ (update_self _ _ _) rfl hempty
    | _ => trivial
  · intro htime
    by_cases hshutdown : a = .shutdown
    · subst hshutdown
      simp only [JsonRpcPeer.step] at hstep
      split_ifs at hstep
      cases hstep
      exact hc.toTabled.ends_shutdown
    · intro hshut hlive i r' hr' hphase hempty
      have hshut : s.reader = .shut := by
        rcases hreader with heq | ⟨-, hnot⟩
        · rw [← heq]
          exact hshut
        · exact absurd (hnot hshut) hshutdown
      have hlive : s.cancelled = false := by
        rcases hcancelled with heq | ⟨-, heq⟩
        · rw [← heq]
          exact hlive
        · rw [heq] at hlive
          cases hlive
      rcases moves_of_step hstep hr' with ⟨r, hr, hmoves⟩ | ⟨-, -, rfl⟩
      · have huse : r'.InUse := Request.Waits.inUse (.inr hphase)
        have hempty := hmoves.channel huse hempty
        rcases hmoves.waiting hphase with hwaiting | rfl
        · exact h hshut hlive i r hr hwaiting hempty
        · exact htime rfl hshut hlive r hr hempty
      · cases hphase

/-- What is sent without a line is the shutdown. -/
def Told (s : JsonRpcPeer) : Prop :=
  ∀ i r response, s.requests i = some r → r.channel = .sent response none → response = .shutdown

theorem Told.step (h : s.Told) (hstep : s.step a = some s') : s'.Told := by
  intro i r' response hr' hchannel
  rcases moves_of_step hstep hr' with ⟨r, hr, hmoves⟩ | ⟨-, -, rfl⟩
  · rcases hmoves.told response hchannel with hchannel | hshutdown
    · exact h i r response hr hchannel
    · exact hshutdown
  · cases hchannel

/-- What the condition allows at each step. -/
def Meets (s : JsonRpcPeer) (a : Action) : Prop := IdsLeft s a ∧ InTime s a

theorem consistent_spawn : spawn.Consistent :=
  ⟨⟨nodup_nil, fun _ _ hmem => (nomatch hmem), fun _ _ hr => nomatch hr⟩,
    ⟨fun _ _ _ _ hr => (nomatch hr), fun _ _ _ _ _ _ _ hr => (nomatch hr),
      fun _ _ hr => nomatch hr⟩,
    fun _ _ hr => (nomatch hr), fun _ _ hr => nomatch hr⟩

theorem told_spawn : spawn.Told := fun _ _ _ hr => nomatch hr

theorem numbered_spawn : spawn.Numbered := ⟨fun _ _ hr => (nomatch hr), rfl, Nat.zero_le _⟩

theorem ends_spawn : spawn.Ends := nofun

theorem reachable_facts (h : Reachable step Meets (· = spawn) s) :
    s.Consistent ∧ s.Told ∧ s.Numbered ∧ s.Ends := by
  refine h.invariant (P := fun s => s.Consistent ∧ s.Told ∧ s.Numbered ∧ s.Ends) ?_ ?_
  · rintro s rfl
    exact ⟨consistent_spawn, told_spawn, numbered_spawn, ends_spawn⟩
  · rintro s a s' ⟨hc, htold, hnumbered, hends⟩ ⟨hleft, htime⟩ hstep
    exact ⟨hc.step hstep, htold.step hstep, hnumbered.step hleft hstep,
      (hends.step_iff hc hstep).2 htime⟩

def Finishes (s : JsonRpcPeer) (i : ℕ) (r : Request) (outcome : Outcome) : Prop :=
  ∃ a, s.step a = some (s.finish i r outcome)

/-- A request that waits after the shutdown can end; with an error, unless a line has answered
    it. -/
theorem Ends.finishes (h : s.Ends) (htold : s.Told) (hshut : s.reader = .shut)
    (hr : s.requests i = some r) (hphase : r.phase = .waiting) : ∃ outcome, Finishes s i r outcome ∧
      ((∀ response n, r.channel ≠ .sent response (some n)) →
        ∃ failure, outcome = .failed failure) := by
  cases hcancelled : s.cancelled with
  | true =>
    refine ⟨.failed .cancelled, ⟨.cancelled i, ?_⟩, fun _ => ⟨_, rfl⟩⟩
    simp [step, hr, hphase, hcancelled]
  | false =>
    have hreceive : ∀ outcome, outcomeOf true r.channel = some outcome →
        Finishes s i r outcome := by
      intro outcome houtcome
      refine ⟨.receive i true, ?_⟩
      simp [step, hr, hphase, houtcome]
    have hempty := h hshut hcancelled i r hr hphase
    cases hchannel : r.channel with
    | empty => exact absurd hchannel hempty
    | dropped => exact ⟨_, hreceive _ (by rw [hchannel]; rfl), fun _ => ⟨_, rfl⟩⟩
    | sent response line =>
      obtain ⟨outcome, houtcome⟩ : ∃ outcome, outcomeOf true r.channel = some outcome := by
        rw [hchannel]
        cases response <;> exact ⟨_, rfl⟩
      refine ⟨outcome, hreceive outcome houtcome, fun hnot => ?_⟩
      cases line with
      | some n => exact absurd rfl (hnot response n)
      | none =>
        rw [hchannel, htold i r response hr hchannel] at houtcome
        exact ⟨.shutdown, (some.inj houtcome).symm⟩

/-- In every run of the condition a response goes to the request that has registered under its id,
    a line to one request only, the ids in use are distinct, and after the shutdown each request
    that waits can end, with an error unless a line has answered it. A write that is not in time
    leads to a state in which a request waits for nothing. -/
theorem request_pairing (s : JsonRpcPeer) (h : Reachable step Meets (· = spawn) s) :
    (∀ i r response n, s.requests i = some r → r.channel = .sent response (some n) →
      s.lines[n]? = some (r.id, response) ∧
        ∀ j r' response', s.requests j = some r' → r'.channel = .sent response' (some n) → i = j) ∧
    s.Distinct ∧ (s.reader = .ended → ∃ s', s.step .shutdown = some s' ∧ s'.reader = .shut) ∧
    (s.reader = .shut → ∀ i r, s.requests i = some r → r.phase = .waiting →
      ∃ outcome, Finishes s i r outcome ∧ ((∀ response n, r.channel ≠ .sent response (some n)) →
          ∃ failure, outcome = .failed failure)) ∧
    ∀ a s', s.step a = some s' → (s'.Ends ↔ InTime s a) := by
  obtain ⟨hc, htold, hnumbered, hends⟩ := reachable_facts h
  refine ⟨fun i r response n hr hsent => ⟨hc.answered i r response n hr hsent, ?_⟩,
    hnumbered.distinct hc, fun hended => ⟨s.shutdown, if_pos hended, rfl⟩,
    fun hshut i r hr hphase => ?_,
    fun a s' hstep => ?_⟩
  · intro j r' response' hr' hsent'
    exact hc.once i j r r' response response' n hr hr' hsent hsent'
  · exact hends.finishes htold hshut hr hphase
  · exact hends.step_iff hc hstep

/-! ## Examples -/

instance (s : JsonRpcPeer) (a : Action) : Decidable (IdsLeft s a) := by
  cases a <;> dsimp only [IdsLeft] <;> infer_instance

instance (s : JsonRpcPeer) (a : Action) : Decidable (InTime s a) := by
  cases a <;> dsimp only [InTime] <;> infer_instance

instance (s : JsonRpcPeer) (a : Action) : Decidable (Meets s a) :=
  inferInstanceAs (Decidable (_ ∧ _))

/-- A request is answered and another one is open when the reader ends. -/
def answeredThenEnd : List Action :=
  [.nextRequestId, .nextRequestId, .register 0, .write 0 true, .register 1, .write 1 true,
    .line (.response (.integer 1) .null) false, .resolve, .stop, .shutdown]

theorem request_pairing_shutdown : ∃ s, Reachable step Meets (· = spawn) s ∧ s.reader = .shut ∧
    s.requests 0 = some ⟨.integer 1, .waiting, .sent (.result .null) (some 0)⟩ ∧
    ∃ r failure, s.requests 1 = some r ∧ Finishes s 1 r (.failed failure) := by
  have hexec : ((exec step Meets spawn answeredThenEnd).map fun s => decide (s.reader = .shut ∧
        s.requests 0 = some ⟨.integer 1, .waiting, .sent (.result .null) (some 0)⟩ ∧
        s.requests 1 = some ⟨.integer 2, .waiting, .sent .shutdown none⟩)) = some true := by
    decide +kernel
  obtain ⟨s, hs, hdecide⟩ := map_eq_some_iff.1 hexec
  obtain ⟨hshut, hfirst, hsecond⟩ := of_decide_eq_true hdecide
  have hreach : Reachable step Meets (· = spawn) s := reachable_of_exec rfl hs
  obtain ⟨-, -, -, hends, -⟩ := request_pairing s hreach
  obtain ⟨outcome, hfinishes, herror⟩ := hends hshut 1 _ hsecond rfl
  obtain ⟨failure, rfl⟩ := herror nofun
  exact ⟨s, hreach, hshut, hfirst, _, failure, hsecond, hfinishes⟩

/-- A request waits for nothing. -/
structure Forgotten (i : ℕ) (s : JsonRpcPeer) : Prop where
  consistent : s.Consistent
  numbered : s.Numbered
  shut : s.reader = .shut
  live : s.cancelled = false
  waiting : ∃ r, s.requests i = some r ∧ r.phase = .waiting ∧ r.channel = .empty

/-- The token does not fire, and the caller does not drop the request. -/
def LeftAlone (i : ℕ) (s : JsonRpcPeer) (a : Action) : Prop :=
  IdsLeft s a ∧ a ≠ .cancel ∧ a ≠ .abandon i

section

variable (h : Forgotten i s) (hok : LeftAlone i s a) (hstep : s.step a = some s')
include h hok hstep

theorem Forgotten.waiting_step : ∀ r, s.requests i = some r → s'.requests i = some r := by
  obtain ⟨-, hcancel, habandon⟩ := hok
  obtain ⟨r, hr, hphase, hempty⟩ := h.waiting
  intro r₀ hr₀
  obtain rfl : r = r₀ := some.inj (hr.symm.trans hr₀)
  have hother : ∀ j r', s.requests j = some r' → r'.phase ≠ .waiting → i ≠ j := by
    rintro j r' hr' hphase' rfl
    rw [hr, some.injEq] at hr'
    exact hphase' (hr' ▸ hphase)
  cases a with
  | nextRequestId =>
    cases hstep
    exact (update_of_ne (Nat.ne_of_lt (h.consistent.issued i r hr)) _ _).trans hr
  | register j =>
    obtain ⟨r', hr', hstep⟩ := bind_eq_some_iff.1 hstep
    split_ifs at hstep with hissued
    cases hstep
    have hne := hother j r' hr' (by rw [hissued]; exact nofun)
    -- its id is not that of the request which registers
    have hlookup : ¬ s.pending.lookup r'.id = some i := by
      intro hlookup
      obtain ⟨r₁, hr₁, hid, -⟩ := h.consistent.entry r'.id i (Members.mem_of_lookup hlookup)
      obtain rfl : r = r₁ := some.inj (hr.symm.trans hr₁)
      refine hne (h.numbered.distinct h.consistent i j r r' hr hr'
        (Request.Waits.inUse (.inr hphase)) ?_ hid)
      unfold Request.InUse
      rw [hissued]
      exact nofun
    show update (s.displace r'.id) j _ i = _
    rw [update_of_ne hne]
    simp [displace, hr, hlookup]
  | write j ok =>
    obtain ⟨r', hr', hstep⟩ := bind_eq_some_iff.1 hstep
    split_ifs at hstep with hregistered
    all_goals
      have hne := hother j r' hr' (by rw [hregistered]; exact nofun)
      cases hstep
      exact (update_of_ne hne _ _).trans hr
  | receive j decodes =>
    obtain ⟨r', hr', hstep⟩ := bind_eq_some_iff.1 hstep
    split_ifs at hstep
    obtain ⟨outcome, houtcome, rfl⟩ := map_eq_some_iff.1 hstep
    refine (update_of_ne ?_ _ _).trans hr
    rintro rfl
    rw [hr, some.injEq] at hr'
    rw [← hr', hempty] at houtcome
    cases houtcome
  | cancel => exact absurd rfl hcancel
  | cancelled j =>
    obtain ⟨r', -, hstep⟩ := bind_eq_some_iff.1 hstep
    split_ifs at hstep with hcancelled
    rw [h.live] at hcancelled
    cases hcancelled.2
  | abandon j =>
    obtain ⟨r', -, hstep⟩ := bind_eq_some_iff.1 hstep
    split at hstep <;> cases hstep
    refine (update_of_ne ?_ _ _).trans hr
    rintro rfl
    exact habandon rfl
  | _ => simp [step, h.shut] at hstep

theorem Forgotten.step : Forgotten i s' := by
  obtain ⟨r, hr, hfacts⟩ := h.waiting
  obtain ⟨hreader, hcancelled, -⟩ := signals_of_step hstep
  refine ⟨h.consistent.step hstep, h.numbered.step hok.1 hstep, ?_, ?_, r,
    h.waiting_step hok hstep r hr, hfacts⟩
  · rcases hreader with heq | ⟨hnot, -⟩
    · exact heq.trans h.shut
    · exact absurd h.shut hnot
  · rcases hcancelled with heq | ⟨heq, -⟩
    · exact heq.trans h.live
    · exact absurd heq hok.2.1

end

theorem facts_of_runs {s₀ : JsonRpcPeer} (h : Runs step IdsLeft s₀ s)
    (h₀ : s₀.Consistent ∧ s₀.Numbered) : s.Consistent ∧ s.Numbered := by
  refine h.preserves (P := fun s => s.Consistent ∧ s.Numbered) ?_ h₀
  rintro s a s' ⟨hc, hnumbered⟩ hleft hstep
  exact ⟨hc.step hstep, hnumbered.step hleft hstep⟩

/-- A request starts after the shutdown, its write succeeds, and unless the token fires or the
    caller drops it, it waits for ever. -/
theorem waits_forever : ∃ s₀ s, Runs step IdsLeft spawn s₀ ∧ s₀.reader = .shut ∧
    s₀.requests 0 = none ∧ Runs step IdsLeft s₀ s ∧ ∀ s', Runs step (LeftAlone 0) s s' →
      ∃ r, s'.requests 0 = some r ∧ r.phase = .waiting ∧ r.channel = .empty := by
  have hfirst : ((exec step IdsLeft spawn [.stop, .shutdown]).map fun s₀ =>
      decide (s₀.reader = .shut ∧ s₀.requests 0 = none ∧
        ((exec step IdsLeft s₀ [.nextRequestId, .register 0, .write 0 true]).map fun s =>
          decide (s.reader = .shut ∧ s.cancelled = false ∧
            s.requests 0 = some ⟨.integer 1, .waiting, .empty⟩)) = some true)) = some true := by
    decide +kernel
  obtain ⟨s₀, hs₀, hdecide⟩ := map_eq_some_iff.1 hfirst
  obtain ⟨hshut₀, hnone, hsecond⟩ := of_decide_eq_true hdecide
  obtain ⟨s, hs, hdecide⟩ := map_eq_some_iff.1 hsecond
  obtain ⟨hshut, hlive, hrequest⟩ := of_decide_eq_true hdecide
  obtain ⟨hc, hnumbered⟩ := facts_of_runs (runs_of_exec hs)
    (facts_of_runs (runs_of_exec hs₀) ⟨consistent_spawn, numbered_spawn⟩)
  refine ⟨s₀, s, runs_of_exec hs₀, hshut₀, hnone, runs_of_exec hs, fun s' hruns' => ?_⟩
  have hforgotten : Forgotten 0 s' :=
    hruns'.preserves (P := Forgotten 0) (fun _ _ _ h hok hstep => h.step hok hstep)
      ⟨hc, hnumbered, hshut, hlive, _, hrequest, rfl, rfl⟩
  exact hforgotten.waiting

end JsonRpcPeer

end VibeKanban.Codex
