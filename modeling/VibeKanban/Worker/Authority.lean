import VibeKanban.Lib.Runs
import VibeKanban.Cluster.Protocol

/-!
# The authority of a worker request

`worker/src/worker_api.rs`, lines 720-797. `validate_authority` reads the clock for the drift check,
waits for the lock of `seen_nonces`, reads the clock again for every nonce that it retains and once
more for the one that it inserts. Requests wait at the same time. All readings are of one clock, in
nanoseconds, which does not go back.

* `authority_accepted_once`: an envelope is accepted once, up to what a wait for the lock allows.
-/

namespace VibeKanban.Worker.Authority

open Lib Cluster List

/-- Clock readings and times of issue are in nanoseconds. -/
def nanosPerSecond : ℤ := 1000000000

/-- `PROTOCOL_VERSION` of the cluster protocol. -/
def protocolVersion : ℕ := 1

/-- `MAX_TIMESTAMP_DRIFT_SECONDS` (line 50). -/
def maxTimestampDriftSeconds : ℤ := 30

/-- `NONCE_RETENTION` (line 51). -/
def nonceRetention : ℤ := 120 * nanosPerSecond

/-- `RequestAuthority` (`cluster-protocol/src/lib.rs`, line 17). -/
structure RequestAuthority where
  protocolVersion : ℕ
  coordinatorId : Uuid
  workerNodeId : Uuid
  correlationId : Uuid
  issuedAt : ℤ
  nonce : String

/-- What identifies a signed envelope. -/
def RequestAuthority.envelope (authority : RequestAuthority) : Uuid × ℤ × String :=
  (authority.workerNodeId, authority.issuedAt, authority.nonce)

inductive WorkerApiError where
  | unauthorized
  | forbidden

/-! ## The signature -/

/-- A request as `require_signature` sees it: a header is `none` when it is missing or does not
    parse, the body is `none` when reading it fails or exceeds the limit. -/
structure SignedRequest (Key : Type*) where
  timestamp : Option ℤ
  signature : Option Key
  contentDigest : Option String
  method : String
  signedTarget : String
  body : Option String

/-- `i64::saturating_sub`. -/
def saturatingSub (a b : ℤ) : ℤ := max (-2 ^ 63) (min (2 ^ 63 - 1) (a - b))

section Signature

/-! `verifyStrict` is the verification by the coordinator's key and `digest` the encoded SHA-256
    of a body. -/

variable {Key : Type*} (verifyStrict : String → Key → Bool) (digest : String → String)

/-- `require_signature` (line 743), with its reading of the clock. It hands the request on by
    returning the body. -/
def requireSignature (now : ℤ) (request : SignedRequest Key) : Except WorkerApiError String :=
  match request.timestamp with
  | none => .error .unauthorized
  | some timestamp =>
    if maxTimestampDriftSeconds < |saturatingSub (now / nanosPerSecond) timestamp| then
      .error .unauthorized
    else
      match request.signature, request.contentDigest, request.body with
      | some signature, some contentDigest, some body =>
        if contentDigest ≠ digest body then .error .unauthorized
        else if verifyStrict s!"{timestamp}.{request.method}.{request.signedTarget}.{contentDigest}"
            signature then .ok body
        else .error .unauthorized
      | _, _, _ => .error .unauthorized

end Signature

/-! ## `validate_authority` -/

/-- The identity of the worker. -/
structure WorkerApiState where
  workerNodeId : Uuid
  coordinatorId : Uuid

/-- The first check (line 724). -/
def identityMatches (state : WorkerApiState) (authority : RequestAuthority) : Bool :=
  authority.protocolVersion = protocolVersion && authority.workerNodeId = state.workerNodeId &&
    authority.coordinatorId = state.coordinatorId

/-- The drift check (line 731): `num_seconds` truncates toward zero. -/
def withinDrift (now issuedAt : ℤ) : Bool :=
  ((now - issuedAt).tdiv nanosPerSecond).natAbs ≤ maxTimestampDriftSeconds

/-- `seen.elapsed() <= NONCE_RETENTION`; the elapsed time saturates at zero. -/
def retained (now seen : ℤ) : Bool := max 0 (now - seen) ≤ nonceRetention

/-- A request that has passed the drift check and waits for the lock. -/
structure Validation where
  authority : RequestAuthority
  checkedAt : ℤ

/-- An accepted request, with its first and its last reading of the clock. -/
structure Acceptance where
  authority : RequestAuthority
  checkedAt : ℤ
  insertedAt : ℤ

/-- The worker: its last clock reading, the requests that wait for the lock, `seen_nonces` and
    the log of accepted requests. -/
structure WorkerApi where
  clock : ℤ
  waiting : List Validation
  seenNonces : List (String × ℤ)
  accepted : List Acceptance

inductive Action (Key : Type*) where
  /-- A request arrives: `require_signature` reads the clock at `signedAt`, `validate_authority`
      at `now`. -/
  | request (request : SignedRequest Key) (signedAt now : ℤ)
  /-- The `i`-th waiting request takes the lock. -/
  | lock (i : ℕ) (elapsedAt : String → ℤ) (insertedAt : ℤ)
  /-- The `i`-th waiting request is dropped with its connection. -/
  | drop (i : ℕ)

section Step

/-! `authorityOf` reads the authority of the JSON body. -/

variable {Key : Type*} (verifyStrict : String → Key → Bool) (digest : String → String)
  (authorityOf : String → Option RequestAuthority) (state : WorkerApiState)

/-- The part of `validate_authority` before the lock (lines 724-733). -/
def precheck (now : ℤ) (authority : RequestAuthority) : Except WorkerApiError Validation :=
  if identityMatches state authority && withinDrift now authority.issuedAt then .ok ⟨authority, now⟩
  else .error .forbidden

/-- The part of `validate_authority` under the lock (lines 735-740). -/
def checkNonce (elapsedAt : String → ℤ) (insertedAt : ℤ) (seenNonces : List (String × ℤ))
    (authority : RequestAuthority) : List (String × ℤ) × Except WorkerApiError Unit :=
  let nonces := seenNonces.filter fun (nonce, seen) => retained (elapsedAt nonce) seen
  if nonces.any fun (nonce, _) => nonce = authority.nonce then (nonces, .error .forbidden)
  else (nonces ++ [(authority.nonce, insertedAt)], .ok ())

/-- The readings of one hold of the lock lie between the last reading and `insertedAt`. -/
def ordered (clock : ℤ) (elapsedAt : String → ℤ) (insertedAt : ℤ)
    (seenNonces : List (String × ℤ)) : Bool :=
  clock ≤ insertedAt &&
    seenNonces.all fun (nonce, _) => clock ≤ elapsedAt nonce && elapsedAt nonce ≤ insertedAt

def step (w : WorkerApi) : Action Key → Option WorkerApi
  | .request request signedAt now =>
    if w.clock ≤ now ∧ signedAt ≤ now then
      let w := { w with clock := now }
      match requireSignature verifyStrict digest signedAt request with
      | .error _ => some w
      | .ok body =>
        match authorityOf body with
        | none => some w
        | some authority =>
          match precheck state now authority with
          | .error _ => some w
          | .ok validation => some { w with waiting := w.waiting ++ [validation] }
    else none
  | .lock i elapsedAt insertedAt =>
    match w.waiting[i]? with
    | none => none
    | some validation =>
      if ordered w.clock elapsedAt insertedAt w.seenNonces then
        let w := { w with clock := insertedAt, waiting := w.waiting.eraseIdx i }
        match checkNonce elapsedAt insertedAt w.seenNonces validation.authority with
        | (nonces, .error _) => some { w with seenNonces := nonces }
        | (nonces, .ok ()) =>
          some { w with
            seenNonces := nonces
            accepted := w.accepted ++ [⟨validation.authority, validation.checkedAt, insertedAt⟩] }
      else none
  | .drop i =>
    if i < w.waiting.length then some { w with waiting := w.waiting.eraseIdx i } else none

def Started (w : WorkerApi) : Prop := w.waiting = [] ∧ w.seenNonces = [] ∧ w.accepted = []

end Step

/-! ## Arithmetic of the two windows -/

variable {now : ℤ}

theorem withinDrift_iff {issuedAt : ℤ} : withinDrift now issuedAt = true ↔
      issuedAt - 31 * nanosPerSecond < now ∧ now < issuedAt + 31 * nanosPerSecond := by
  unfold withinDrift
  rw [decide_eq_true_eq, Int.natAbs_tdiv]
  show ((((now - issuedAt).natAbs / 1000000000 : ℕ) : ℤ) ≤ 30) ↔
    issuedAt - 31 * 1000000000 < now ∧ now < issuedAt + 31 * 1000000000
  omega

theorem retained_iff {seen : ℤ} : retained now seen = true ↔ now ≤ seen + nonceRetention := by
  unfold retained
  rw [decide_eq_true_eq]
  show max 0 (now - seen) ≤ 120 * 1000000000 ↔ now ≤ seen + 120 * 1000000000
  omega

/-! ## The lock -/

variable {Key : Type*} {verifyStrict : String → Key → Bool} {digest : String → String}
  {authorityOf : String → Option RequestAuthority} {state : WorkerApiState}

variable {insertedAt : ℤ} {elapsedAt : String → ℤ} {seenNonces : List (String × ℤ)}
  {authority : RequestAuthority} {nonces : List (String × ℤ)}

theorem ordered_iff {clock : ℤ} : ordered clock elapsedAt insertedAt seenNonces = true ↔
      clock ≤ insertedAt ∧
        ∀ entry ∈ seenNonces, clock ≤ elapsedAt entry.1 ∧ elapsedAt entry.1 ≤ insertedAt := by
  simp only [ordered, Bool.and_eq_true, decide_eq_true_eq, all_eq_true]

theorem mem_checkNonce {entry : String × ℤ}
    (hentry : entry ∈ seenNonces) (hr : elapsedAt entry.1 ≤ entry.2 + nonceRetention) :
    entry ∈ (checkNonce elapsedAt insertedAt seenNonces authority).1 := by
  have hmem : entry ∈ seenNonces.filter fun (nonce, seen) => retained (elapsedAt nonce) seen :=
    mem_filter.2 ⟨hentry, retained_iff.2 hr⟩
  simp only [checkNonce]
  split
  · exact hmem
  · exact mem_append_left _ hmem

theorem not_retained_of_checkNonce
    (h : checkNonce elapsedAt insertedAt seenNonces authority = (nonces, .ok ())) :
    (authority.nonce, insertedAt) ∈ nonces ∧ ∀ entry ∈ seenNonces, entry.1 = authority.nonce →
        entry.2 + nonceRetention < elapsedAt entry.1 := by
  simp only [checkNonce] at h
  split at h <;> cases h
  rename_i hany
  refine ⟨mem_append_right _ (mem_singleton_self _), ?_⟩
  intro entry hentry hnonce
  by_contra hle
  apply hany
  rw [any_eq_true]
  exact ⟨entry, mem_filter.2 ⟨hentry, retained_iff.2 (by omega)⟩, decide_eq_true hnonce⟩

/-! ## What is tracked -/

/-- The invariant of the worker. -/
structure Tracked (w : WorkerApi) : Prop where
  waiting : ∀ v ∈ w.waiting, withinDrift v.checkedAt v.authority.issuedAt = true
  accepted : ∀ a ∈ w.accepted, withinDrift a.checkedAt a.authority.issuedAt = true ∧
    a.checkedAt ≤ a.insertedAt ∧ a.insertedAt ≤ w.clock
  remembered : ∀ a ∈ w.accepted, (a.authority.nonce, a.insertedAt) ∈ w.seenNonces ∨
    a.insertedAt + nonceRetention < w.clock
  checked : ∀ v ∈ w.waiting, v.checkedAt ≤ w.clock

variable {w : WorkerApi} {w' : WorkerApi} {a : Action Key}

theorem Tracked.start (h : Started w) : Tracked w := by
  obtain ⟨hwaiting, -, haccepted⟩ := h
  constructor
  all_goals
    intro v hv
    simp only [hwaiting, haccepted] at hv
    cases hv

section

variable (h : Tracked w)
include h

theorem Tracked.tick (hnow : w.clock ≤ now) : Tracked { w with clock := now } := by
  refine ⟨h.waiting, ?_, ?_, ?_⟩
  · intro a ha
    obtain ⟨hdrift, hle, hclock⟩ := h.accepted a ha
    exact ⟨hdrift, hle, hclock.trans hnow⟩
  · intro a ha
    rcases h.remembered a ha with hmem | hpast
    · exact .inl hmem
    · exact .inr (lt_of_lt_of_le hpast hnow)
  · intro v hv
    exact (h.checked v hv).trans hnow

theorem Tracked.erase (i : ℕ) : Tracked { w with waiting := w.waiting.eraseIdx i } := by
  refine ⟨?_, h.accepted, h.remembered, ?_⟩
  · intro v hv
    exact h.waiting v (mem_of_mem_eraseIdx hv)
  · intro v hv
    exact h.checked v (mem_of_mem_eraseIdx hv)

/-- What a hold of the lock leaves of the invariant, whatever it answers. -/
theorem Tracked.locked (hord : ordered w.clock elapsedAt insertedAt w.seenNonces = true)
    (authority : RequestAuthority) :
    Tracked { w with
      clock := insertedAt
      seenNonces := (Authority.checkNonce elapsedAt insertedAt w.seenNonces authority).1 } := by
  obtain ⟨hclock, hread⟩ := ordered_iff.1 hord
  have htick := h.tick hclock
  refine ⟨htick.waiting, htick.accepted, ?_, htick.checked⟩
  intro a ha
  rcases h.remembered a ha with hmem | hpast
  · by_cases hr : elapsedAt a.authority.nonce ≤ a.insertedAt + nonceRetention
    · exact .inl (mem_checkNonce hmem hr)
    · right
      have hle : elapsedAt a.authority.nonce ≤ insertedAt := (hread _ hmem).2
      show a.insertedAt + nonceRetention < insertedAt
      omega
  · exact .inr (lt_of_lt_of_le hpast hclock)

theorem Tracked.next (hs : step verifyStrict digest authorityOf state w a = some w') :
    Tracked w' := by
  cases a with simp only [step] at hs
  | request request signedAt now =>
    split at hs
    · rename_i hnow
      have htick := h.tick hnow.1
      split at hs
      · cases hs
        exact htick
      · split at hs
        · cases hs
          exact htick
        · split at hs <;> cases hs
          · exact htick
          · rename_i hpre
            unfold precheck at hpre
            split at hpre
            · rename_i hchecks
              cases hpre
              rw [Bool.and_eq_true] at hchecks
              refine ⟨?_, htick.accepted, htick.remembered, ?_⟩
              · intro v hv
                rcases mem_append.1 hv with hold | hnew
                · exact h.waiting v hold
                · rw [mem_singleton.1 hnew]
                  exact hchecks.2
              · intro v hv
                rcases mem_append.1 hv with hold | hnew
                · exact htick.checked v hold
                · rw [mem_singleton.1 hnew]
            · cases hpre
    · cases hs
  | lock i elapsedAt insertedAt =>
    split at hs
    · cases hs
    · rename_i validation hv
      split at hs
      · rename_i hord
        have hmem : validation ∈ w.waiting := mem_of_getElem? hv
        have hheld := (h.locked hord validation.authority).erase i
        split at hs <;> cases hs
        · rename_i hcheck
          rw [hcheck] at hheld
          exact hheld
        · rename_i hcheck
          rw [hcheck] at hheld
          refine ⟨hheld.waiting, ?_, ?_, hheld.checked⟩
          · intro a ha
            rcases mem_append.1 ha with hold | hnew
            · exact hheld.accepted a hold
            · rw [mem_singleton.1 hnew]
              exact ⟨h.waiting _ hmem, (h.checked _ hmem).trans (ordered_iff.1 hord).1, le_refl _⟩
          · intro a ha
            rcases mem_append.1 ha with hold | hnew
            · exact hheld.remembered a hold
            · rw [mem_singleton.1 hnew]
              exact .inl (not_retained_of_checkNonce hcheck).1
      · cases hs
  | drop i =>
    split at hs <;> cases hs
    exact h.erase i

end

/-! ## Acceptances -/

/-- The later of two acceptances of one envelope spent more than 58 seconds between its drift
    check and the insertion of its nonce. -/
def Delayed (earlier later : Acceptance) : Prop :=
  earlier.authority.envelope = later.authority.envelope →
    later.checkedAt + 58 * nanosPerSecond < later.insertedAt

/-- An envelope that is accepted while an acceptance of it is on record has outlived the
    retention of its nonce, which ends at least 58 seconds after its drift window. -/
theorem delayed_of_checkNonce (h : Tracked w) {v : Validation} (hv : v ∈ w.waiting)
    (hord : ordered w.clock elapsedAt insertedAt w.seenNonces = true)
    (hcheck : checkNonce elapsedAt insertedAt w.seenNonces v.authority = (nonces, .ok ()))
    {earlier : Acceptance} (hearlier : earlier ∈ w.accepted) :
    Delayed earlier ⟨v.authority, v.checkedAt, insertedAt⟩ := by
  intro henvelope
  obtain ⟨hclock, hread⟩ := ordered_iff.1 hord
  have hnonce : earlier.authority.nonce = v.authority.nonce :=
    congrArg (fun e : Uuid × ℤ × String => e.2.2) henvelope
  have hissued : earlier.authority.issuedAt = v.authority.issuedAt :=
    congrArg (fun e : Uuid × ℤ × String => e.2.1) henvelope
  obtain ⟨hdrift, hle, -⟩ := h.accepted earlier hearlier
  have hfirst := (withinDrift_iff.1 hdrift).1
  have hsecond := (withinDrift_iff.1 (h.waiting v hv)).2
  have hgone : earlier.insertedAt + nonceRetention < insertedAt := by
    rcases h.remembered earlier hearlier with hmem | hpast
    · have hlate := (not_retained_of_checkNonce hcheck).2 _ hmem hnonce
      exact lt_of_lt_of_le hlate (hread _ hmem).2
    · exact lt_of_lt_of_le hpast hclock
  show v.checkedAt + 58 * 1000000000 < insertedAt
  simp only [nonceRetention, nanosPerSecond] at hfirst hsecond hgone
  omega

theorem pairwise_delayed_step (ht : Tracked w) (h : w.accepted.Pairwise Delayed)
    (hs : step verifyStrict digest authorityOf state w a = some w') :
    w'.accepted.Pairwise Delayed := by
  cases a with simp only [step] at hs
  | request request signedAt now =>
    repeat' split at hs
    all_goals cases hs <;> exact h
  | lock i elapsedAt insertedAt =>
    split at hs
    · cases hs
    · rename_i hv
      split at hs
      · rename_i hord
        split at hs <;> cases hs
        · exact h
        · rename_i hcheck
          rw [pairwise_append]
          refine ⟨h, pairwise_singleton _ _, ?_⟩
          intro earlier hearlier later hlater
          rw [mem_singleton.1 hlater]
          exact delayed_of_checkNonce ht (mem_of_getElem? hv) hord hcheck hearlier
      · cases hs
  | drop i =>
    split at hs <;> cases hs
    exact h

/-! ## The result -/

/-- In every run, of any number of requests that wait for each other: the nonce
    of an accepted envelope is retained as long as a clock reading can be within the drift of the
    envelope, and an envelope is accepted a second time only by a request that spent more than
    58 seconds between its drift check and the insertion of its nonce. -/
theorem authority_accepted_once {w : WorkerApi}
    (h : Reachable (step verifyStrict digest authorityOf state) anyStep Started w) :
    (∀ a ∈ w.accepted, (a.authority.nonce, a.insertedAt) ∈ w.seenNonces ∨
      ∀ now, w.clock ≤ now → withinDrift now a.authority.issuedAt = false) ∧
    w.accepted.Pairwise Delayed := by
  have hinv : Tracked w ∧ w.accepted.Pairwise Delayed := by
    apply h.invariant (P := fun w => Tracked w ∧ w.accepted.Pairwise Delayed)
    · intro w₀ h₀
      refine ⟨Tracked.start h₀, ?_⟩
      rw [h₀.2.2]
      exact List.Pairwise.nil
    · intro w₁ a w₂ hw _ hs
      exact ⟨hw.1.next hs, pairwise_delayed_step hw.1 hw.2 hs⟩
  refine ⟨?_, hinv.2⟩
  intro a ha
  rcases hinv.1.remembered a ha with hmem | hpast
  · exact .inl hmem
  · right
    intro now hnow
    obtain ⟨hdrift, hle, -⟩ := hinv.1.accepted a ha
    have hfirst := (withinDrift_iff.1 hdrift).1
    rw [← Bool.not_eq_true, withinDrift_iff]
    simp only [nonceRetention, nanosPerSecond] at hpast hfirst ⊢
    omega

def exampleStart : WorkerApi := ⟨100 * nanosPerSecond, [], [], []⟩

def exampleAuthority : RequestAuthority := ⟨protocolVersion, 7, 8, 1, 100 * nanosPerSecond, "n"⟩

/-- A request whose signature, digest and timestamp are in order. -/
def exampleRequest : SignedRequest Unit :=
  ⟨some 100, some (), some "", "POST", "/v1/terminals", some ""⟩

/-- The worker `8` of the coordinator `7`. -/
def exampleStep : WorkerApi → Action Unit → Option WorkerApi :=
  step (fun _ _ => true) (fun _ => "") (fun _ => some exampleAuthority) ⟨8, 7⟩

/-- The times of acceptance, and how many requests wait. -/
def WorkerApi.outcome (w : WorkerApi) : List (ℤ × ℤ) × ℕ :=
  (w.accepted.map fun a => (a.checkedAt / nanosPerSecond, a.insertedAt / nanosPerSecond),
    w.waiting.length)

/-- A request of `exampleRequest` at `now`, in seconds. -/
def arrives (now : ℤ) : Action Unit :=
  .request exampleRequest (now * nanosPerSecond) (now * nanosPerSecond)

/-- The first waiting request gets the lock at `now`, in seconds. -/
def locks (now : ℤ) : Action Unit := .lock 0 (fun _ => now * nanosPerSecond) (now * nanosPerSecond)

/-- The second of two copies is refused at any time of its arrival within the drift. -/
theorem second_copy_refused :
    ∃ w, exec exampleStep anyStep exampleStart [arrives 100, locks 100, arrives 130, locks 131] =
      some w ∧ w.outcome = ([(100, 100)], 0) ∧
      ((∀ a ∈ w.accepted, (a.authority.nonce, a.insertedAt) ∈ w.seenNonces ∨
        ∀ now, w.clock ≤ now → withinDrift now a.authority.issuedAt = false) ∧
      w.accepted.Pairwise Delayed) := by
  have hstart : Started exampleStart := ⟨rfl, rfl, rfl⟩
  have hrun : exec exampleStep anyStep exampleStart
      [arrives 100, locks 100, arrives 130, locks 131] = some _ := rfl
  exact ⟨_, hrun, by decide, authority_accepted_once (reachable_of_exec hstart hrun)⟩

/-- A copy that is checked within the drift and gets the lock after the retention is accepted
    again. -/
theorem second_copy_accepted_late :
    ∃ w, Reachable exampleStep anyStep Started w ∧
      ¬ (w.accepted.map fun a => a.authority.envelope).Nodup := by
  have hstart : Started exampleStart := ⟨rfl, rfl, rfl⟩
  have hrun : exec exampleStep anyStep exampleStart
      [arrives 100, locks 100, arrives 101, locks 221] = some _ := rfl
  exact ⟨_, reachable_of_exec hstart hrun, by decide⟩

end VibeKanban.Worker.Authority
