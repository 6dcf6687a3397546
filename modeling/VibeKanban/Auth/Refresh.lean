import VibeKanban.Auth.Sessions
import VibeKanban.Lib.Runs
import VibeKanban.Lib.Update

/-!
# Refreshing and revoking auth sessions (`remote/src/routes/tokens.rs`, lines 80-278)

Any number of calls of `refresh_token`, of `redeem` (its part on the session), of the two
revocations and of `request_context_from_access_token` (`auth/middleware.rs`, lines 100-204). Each
statement is a step; those of a transaction take effect at its commit, with the `NOW()` and the rows
of its beginning. The looks at the clock and the work elsewhere are steps. Ids are fresh. The
replaced tokens are not in the source.

* `consistent_of_reachable`: what every run keeps.
-/

namespace VibeKanban.Auth

open Lib Option Nat List
open Function (update update_of_ne update_self)

/-! ## The calls -/

/-- The claims of a refresh token; `expiresAt` is in seconds. -/
structure RefreshToken where
  id : Uuid
  sessionId : Uuid
  userId : Uuid
  expiresAt : ℤ
  deriving DecidableEq

structure AccessToken where
  sessionId : Uuid
  userId : Uuid
  expiresAt : ℤ
  deriving DecidableEq

/-- `exp` lies more than `DEFAULT_JWT_LEEWAY_SECONDS` back. -/
def tokenExpired (expiresAt : ℤ) (now : Instant) : Bool := expiresAt < now / 1000000 - 60

inductive RefreshError where
  | invalidToken
  | sessionRevoked
  | tokenReuseDetected
  | providerTokenRevoked
  /-- `HandoffError::Denied` -/
  | denied
  /-- of the database, of a provider, or about a user -/
  | other
  deriving DecidableEq

inductive Outcome where
  | tokens (session token : Uuid)
  | redeemed (session token : Uuid)
  | revoked
  | authenticated (user session : Uuid)
  | unauthorized
  | error (error : RefreshError)
  | dropped
  deriving DecidableEq

/-- How far a call has come: what it does next, and what it holds. -/
inductive Call where
  | started (token : RefreshToken)
  | fetched (token : RefreshToken) (row : AuthSession)
  | looking (token : RefreshToken) (row : AuthSession) (previous : Bool)
  | validating (token : RefreshToken) (row : AuthSession) (previous : Bool)
  | beginning (token : RefreshToken) (new : Uuid)
  | rotating (token : RefreshToken) (new : Uuid) (began : Instant)
  | refetching (token : RefreshToken)
  | refetched (token : RefreshToken) (row : AuthSession)
  | answering (session token : Uuid)
  | revoking (session : Uuid) (reply : Outcome)
  | revokingCommit (session : Uuid) (tokens : List Uuid) (began : Instant) (reply : Outcome)
  | revokingUser (user : Uuid) (reply : Outcome)
  | revokingUserCommit (user : Uuid) (tokens : List Uuid) (began : Instant) (reply : Outcome)
  | redeem (session : Uuid)
  | redeemRead (session : Uuid) (row : AuthSession)
  | deactivating (session : Uuid) (reply : Outcome)
  | issuing (session : Uuid)
  | assigning (session token : Uuid)
  | redeemTouching (session token : Uuid)
  | authenticate (claims : AccessToken)
  | authenticateRead (claims : AccessToken) (row : AuthSession)
  | loading (claims : AccessToken) (row : AuthSession)
  | touching (claims : AccessToken) (row : AuthSession)
  | done (outcome : Outcome)
  deriving DecidableEq

/-- What the calls act on. -/
structure World where
  auth : AuthTables
  nextId : Uuid
  /-- the tokens that were the current one of a session and have been replaced -/
  retired : List (Uuid × Uuid)
  /-- the tokens that a rotation has replaced, with their successors -/
  replacements : List (Uuid × Uuid)

/-- The tokens that `revoke_all_user_sessions` selects. -/
def World.userTokens (w : World) (user : Uuid) : List Uuid :=
  (List.range w.nextId).flatMap fun id =>
    ((w.auth.sessions id).filter (·.userId = user)).elim [] AuthSession.tokens

/-- The current token of a session is replaced. -/
def World.retire (w : World) (session : Uuid) : List (Uuid × Uuid) :=
  (((w.auth.sessions session).bind AuthSession.refreshTokenId).toList.map (session, ·)) ++ w.retired

namespace Call

/-- `current_session_tokens_response` (lines 80-101). -/
def respond (session : Uuid) (row : AuthSession) : Call :=
  match row.refreshTokenId, row.refreshTokenIssuedAt with
  | some token, some _ => .answering session token
  | _, _ => .done (.error .sessionRevoked)

/-- Whether the token is taken for a reused one (lines 123-136). -/
def reused (token : RefreshToken) (row : AuthSession) (previous revoked : Bool) : Bool :=
  (revoked ∨ row.refreshTokenId ≠ some token.id) ∧ ¬ previous

/-- The comparison at the end of `request_context_from_access_token`. -/
def authenticated (claims : AccessToken) (row : AuthSession) : Call :=
  .done (if row.userId = claims.userId then .authenticated row.userId claims.sessionId
    else .unauthorized)

def statement (w : World) (now : Instant) (overlap : ℤ) : Call → Option (World × Call)
  | .started token =>
    match w.auth.sessions token.sessionId with
    | none => some (w, .done (.error .sessionRevoked))
    | some row => some (w, .fetched token row)
  | .looking token row previous =>
    some (w, if reused token row previous (w.auth.isRefreshTokenRevoked token.id) then
        .revoking token.sessionId (.error .tokenReuseDetected)
      else .validating token row previous)
  | .beginning token new => some (w, .rotating token new now)
  | .rotating token new began =>
    match w.auth.rotateTokens token.sessionId token.id new began overlap with
    | some auth =>
      some ({ w with
          auth
          retired := (token.sessionId, token.id) :: w.retired
          replacements := (token.id, new) :: w.replacements },
        .answering token.sessionId new)
    | none => some (w, .refetching token)
  | .refetching token =>
    match w.auth.sessions token.sessionId with
    | none => some (w, .done (.error .sessionRevoked))
    | some row => some (w, .refetched token row)
  | .revoking session reply =>
    some (w, .revokingCommit session (((w.auth.sessions session).map (·.tokens)).getD []) now reply)
  | .revokingCommit session tokens began reply =>
    some ({ w with auth := w.auth.revokeAuthSession session tokens began }, .done reply)
  | .revokingUser user reply => some (w, .revokingUserCommit user (w.userTokens user) now reply)
  | .revokingUserCommit user tokens began reply =>
    some ({ w with auth := w.auth.revokeAllUserSessions user tokens began }, .done reply)
  | .redeem session =>
    match w.auth.sessions session with
    | none => some (w, .done (.error .other))
    | some row => some (w, .redeemRead session row)
  | .deactivating session reply =>
    some ({ w with auth := w.auth.modify session (·.revoke now) }, .done reply)
  | .assigning session token =>
    some ({ w with
        auth := w.auth.modify session (·.setCurrentRefreshToken token now)
        retired := w.retire session },
      .redeemTouching session token)
  | .redeemTouching session token =>
    some ({ w with auth := w.auth.modify session (·.touch now) }, .done (.redeemed session token))
  | .authenticate claims =>
    match w.auth.sessions claims.sessionId with
    | none => some (w, .done .unauthorized)
    | some row => some (w, .authenticateRead claims row)
  | .touching claims row =>
    some ({ w with auth := w.auth.modify claims.sessionId (·.touch now) }, authenticated claims row)
  | .fetched .. | .validating .. | .refetched .. | .answering .. | .redeemRead .. | .issuing _
  | .authenticateRead .. | .loading .. | .done _ => none

/-- How a call goes on when its statement has failed. -/
def onError : Call → Call
  | .deactivating _ .unauthorized => .done .unauthorized
  | .revokingUser _ (.error error) | .revokingUserCommit _ _ _ (.error error) =>
    .done (.error error)
  | .touching claims row => authenticated claims row
  | _ => .done (.error .other)

/-- How a call goes on with what it has read. -/
def examine (now : Instant) : Call → Option Call
  | .fetched token row =>
    some <| if row.revokedAt.isSome then .done (.error .sessionRevoked)
      else .looking token row (row.isPreviousRefreshTokenWithinGrace token.id now)
  | .refetched token row =>
    some <|
      if row.revokedAt.isNone ∧ row.isPreviousRefreshTokenWithinGrace token.id now then
        respond token.sessionId row
      else .revoking token.sessionId (.error .tokenReuseDetected)
  | .answering session token => some (.done (.tokens session token))
  | .redeemRead session row =>
    some <| if row.revokedAt.isSome then .done (.error .denied)
      else if maxSessionInactivityDuration < row.inactivityDuration now then
        .deactivating session (.error .denied)
      else .issuing session
  | .authenticateRead claims row =>
    some <| if row.revokedAt.isSome then .done .unauthorized
      else if maxSessionInactivityDuration < row.inactivityDuration now then
        .deactivating claims.sessionId .unauthorized
      else .loading claims row
  | _ => none

/-- What comes of the work elsewhere. -/
inductive Work where
  | ok
  /-- the validator takes the provider's token for revoked -/
  | rejected
  | failed
  deriving DecidableEq

def work (w : World) (result : Work) : Call → Option (World × Call)
  | .validating token row previous =>
    match result with
    | .ok =>
      if previous then some (w, respond token.sessionId row)
      else some ({ w with nextId := w.nextId + 1 }, .beginning token w.nextId)
    | .rejected => some (w, .revokingUser token.userId (.error .providerTokenRevoked))
    | .failed => some (w, .done (.error .other))
  | .issuing session =>
    match result with
    | .ok => some ({ w with nextId := w.nextId + 1 }, .assigning session w.nextId)
    | _ => some (w, .done (.error .other))
  | .loading claims row =>
    match result with
    | .ok => some (w, .touching claims row)
    | _ => some (w, .done .unauthorized)
  | _ => none

end Call

/-! ## Runs -/

structure System where
  world : World
  now : Instant
  calls : ℕ → Option Call
  started : ℕ

inductive Action where
  | tick (now : Instant)
  | create (user : Uuid)
  | refresh (token : RefreshToken)
  | redeem (session : Uuid)
  | authenticate (claims : AccessToken)
  | revokeAuthSession (session : Uuid)
  | revokeAllUserSessions (user : Uuid)
  | statement (i : ℕ) (answer : Answer)
  | examine (i : ℕ)
  | work (i : ℕ) (result : Call.Work)
  | drop (i : ℕ)

namespace System

/-- The world changes, and call `i` goes on. -/
def proceed (s : System) (i : ℕ) (w : World) (c : Call) : System :=
  { s with world := w, calls := update s.calls i (some c) }

/-- What a call that is at `c` and its caller get. -/
def answered (s : System) (i : ℕ) (c : Call) (w : World) (c' : Call) : Answer → System
  | .ok => s.proceed i w c'
  | .failed => s.proceed i s.world c.onError
  | .lost => s.proceed i w c.onError

def call (s : System) (c : Call) : System :=
  { s with calls := update s.calls s.started (some c), started := s.started + 1 }

/-- `decode_refresh_token` comes first. -/
def refresh (s : System) (token : RefreshToken) : Call :=
  if tokenExpired token.expiresAt s.now then .done (.error .invalidToken) else .started token

/-- `decode_access_token` comes first. -/
def authenticate (s : System) (claims : AccessToken) : Call :=
  if tokenExpired claims.expiresAt s.now then .done .unauthorized else .authenticate claims

variable (overlap : ℤ) in
def step (s : System) : Action → Option System
  | .tick now => if s.now ≤ now then some { s with now } else none
  | .create user =>
    some { s with world := { s.world with
      auth := s.world.auth.create s.world.nextId user none s.now
      nextId := s.world.nextId + 1 } }
  | .refresh token => some (s.call (s.refresh token))
  | .redeem session => some (s.call (.redeem session))
  | .authenticate claims => some (s.call (s.authenticate claims))
  | .revokeAuthSession session => some (s.call (.revoking session .revoked))
  | .revokeAllUserSessions user => some (s.call (.revokingUser user .revoked))
  | .statement i answer => (s.calls i).bind fun c =>
    (c.statement s.world s.now overlap).map fun (w, c') => s.answered i c w c' answer
  | .examine i => (s.calls i).bind fun c => (c.examine s.now).map fun c' => s.proceed i s.world c'
  | .work i result => (s.calls i).bind fun c =>
    (c.work s.world result).map fun (w, c') => s.proceed i w c'
  | .drop i => (s.calls i).bind fun c =>
    match c with
    | .done _ => none
    | _ => some (s.proceed i s.world (.done .dropped))

/-- There are no sessions, and no call has started. -/
structure Initial (s : System) : Prop where
  sessions : ∀ id, s.world.auth.sessions id = none
  revoked : s.world.auth.revokedRefreshTokens = []
  retired : s.world.retired = []
  replacements : s.world.replacements = []
  calls : ∀ i, s.calls i = none

end System

/-! ## What a step does to the sessions -/

namespace World

variable {w w' : World} {session session' token : Uuid} {row row' : AuthSession}

/-- The token is the current one of a session, has been, or is in `revoked_refresh_tokens`. -/
def Known (w : World) (token : Uuid) : Prop :=
  (∃ session row, w.auth.sessions session = some row ∧ row.refreshTokenId = some token) ∨
    (∃ session, (session, token) ∈ w.retired) ∨ token ∈ w.auth.revokedRefreshTokens

/-- What holds of the world alone. -/
structure Sound (w : World) : Prop where
  known : ∀ token, w.Known token → token < w.nextId
  sessions : ∀ session row, w.auth.sessions session = some row → session < w.nextId
  current : ∀ session session' row token, w.auth.sessions session = some row →
    row.refreshTokenId = some token → (session', token) ∉ w.retired
  owner : ∀ session session' row row' token, w.auth.sessions session = some row →
    w.auth.sessions session' = some row' → row.refreshTokenId = some token →
    row'.refreshTokenId = some token → session = session'
  previous : ∀ session row token, w.auth.sessions session = some row →
    row.previousRefreshTokenId = some token → (session, token) ∈ w.retired
  live : ∀ session row token, w.auth.sessions session = some row → row.revokedAt = none →
    row.refreshTokenId = some token → token ∉ w.auth.revokedRefreshTokens
  retired : ∀ session token, (session, token) ∈ w.retired →
    ∃ row, w.auth.sessions session = some row
  replaced : ∀ old new, (old, new) ∈ w.replacements → ∃ session, (session, old) ∈ w.retired
  unique : ∀ old new new', (old, new) ∈ w.replacements → (old, new') ∈ w.replacements → new = new'

/-- What a step does, which gives a session a new token if `new` says so. -/
structure Evolves (w w' : World) (new : Option (Uuid × Uuid)) : Prop where
  nextId : w.nextId ≤ w'.nextId
  kept : ∀ session row, w.auth.sessions session = some row → ∃ row',
    w'.auth.sessions session = some row' ∧ row'.userId = row.userId ∧
      (row.revokedAt.isSome → row'.revokedAt.isSome)
  origin : ∀ session row', w'.auth.sessions session = some row' →
    (∃ row, w.auth.sessions session = some row) ∨ session < w'.nextId
  current : ∀ session row' token, w'.auth.sessions session = some row' →
    row'.refreshTokenId = some token → new = some (session, token) ∨
      ∃ row, w.auth.sessions session = some row ∧ row.refreshTokenId = some token
  assigned : ∀ session token, new = some (session, token) →
    ∃ row', w'.auth.sessions session = some row' ∧ row'.refreshTokenId = some token
  previous : ∀ session row' token, w'.auth.sessions session = some row' →
    row'.previousRefreshTokenId = some token →
    (∃ row, w.auth.sessions session = some row ∧ row.previousRefreshTokenId = some token ∧
      row'.previousRefreshTokenGraceExpiresAt = row.previousRefreshTokenGraceExpiresAt) ∨
    (∃ row, w.auth.sessions session = some row ∧ row.refreshTokenId = some token) ∧
      (session, token) ∈ w'.retired
  retained : ∀ session row token, w.auth.sessions session = some row →
    row.refreshTokenId = some token → (session, token) ∈ w'.retired ∨
      ∃ row', w'.auth.sessions session = some row' ∧ row'.refreshTokenId = some token
  retired : ∀ entry, entry ∈ w.retired → entry ∈ w'.retired
  retires : ∀ session token, (session, token) ∈ w'.retired → (session, token) ∈ w.retired ∨
    (∃ row, w.auth.sessions session = some row ∧ row.refreshTokenId = some token) ∧
      new.map Prod.fst = some session
  revoked : ∀ token, token ∈ w.auth.revokedRefreshTokens → token ∈ w'.auth.revokedRefreshTokens
  revokes : ∀ token, token ∈ w'.auth.revokedRefreshTokens →
    token ∈ w.auth.revokedRefreshTokens ∨ w.Known token ∧ ∀ session row',
      w'.auth.sessions session = some row' → row'.refreshTokenId = some token →
        row'.revokedAt.isSome
  replacements : w'.replacements = w.replacements ∨ ∃ session row old new,
    w'.replacements = (old, new) :: w.replacements ∧ w.auth.sessions session = some row ∧
      row.refreshTokenId = some old ∧ (session, old) ∈ w'.retired

variable {new : Option (Uuid × Uuid)} {tokens : List Uuid} {now : Instant}

theorem Evolves.known (h : Evolves w w' new) (hknown : w.Known token) : w'.Known token := by
  rcases hknown with ⟨session, row, hrow, htoken⟩ | ⟨session, hretired⟩ | hrevoked
  · rcases h.retained session row token hrow htoken with hretired | ⟨row', hrow', htoken'⟩
    · exact .inr (.inl ⟨session, hretired⟩)
    · exact .inl ⟨session, row', hrow', htoken'⟩
  · exact .inr (.inl ⟨session, h.retired _ hretired⟩)
  · exact .inr (.inr (h.revoked token hrevoked))

theorem Evolves.known_cases (h : Evolves w w' new) (hknown : w'.Known token) :
    w.Known token ∨ ∃ session, new = some (session, token) := by
  rcases hknown with ⟨session, row', hrow', htoken⟩ | ⟨session, hretired⟩ | hrevoked
  · rcases h.current session row' token hrow' htoken with hnew | ⟨row, hrow, htoken⟩
    · exact .inr ⟨session, hnew⟩
    · exact .inl (.inl ⟨session, row, hrow, htoken⟩)
  · rcases h.retires session token hretired with hretired | ⟨⟨row, hrow, htoken⟩, -⟩
    · exact .inl (.inr (.inl ⟨session, hretired⟩))
    · exact .inl (.inl ⟨session, row, hrow, htoken⟩)
  · rcases h.revokes token hrevoked with hrevoked | ⟨hknown, -⟩
    · exact .inl (.inr (.inr hrevoked))
    · exact .inl hknown

theorem Sound.evolves (h : w.Sound) (hevolves : Evolves w w' new)
    (hnew : ∀ session token, new = some (session, token) → ¬ w.Known token ∧ token < w'.nextId) :
    w'.Sound := by
  have hcurrent : ∀ session row' token, w'.auth.sessions session = some row' →
      row'.refreshTokenId = some token → w.Known token →
      ∃ row, w.auth.sessions session = some row ∧ row.refreshTokenId = some token := by
    intro session row' token hrow' htoken hknown
    rcases hevolves.current session row' token hrow' htoken with heq | hold
    · exact absurd hknown (hnew session token heq).1
    · exact hold
  -- what a step retires is current no more
  have hretires : ∀ session session' row' token, w'.auth.sessions session = some row' →
      row'.refreshTokenId = some token → (session', token) ∈ w'.retired → False := by
    intro session session' row' token hrow' htoken hretired
    rcases hevolves.retires session' token hretired with hold | ⟨⟨row₀, hrow₀, htoken₀⟩, hat⟩
    · obtain ⟨row, hrow, htoken⟩ := hcurrent session row' token hrow' htoken (.inr (.inl ⟨_, hold⟩))
      exact h.current session session' row token hrow htoken hold
    · obtain ⟨row, hrow, htoken'⟩ :=
        hcurrent session row' token hrow' htoken (.inl ⟨_, _, hrow₀, htoken₀⟩)
      obtain rfl := h.owner session session' row row₀ token hrow hrow₀ htoken' htoken₀
      obtain ⟨⟨session, token'⟩, heq, rfl⟩ := map_eq_some_iff.1 hat
      obtain ⟨row₁, hrow₁, htoken₁⟩ := hevolves.assigned session token' heq
      rw [hrow', some.injEq] at hrow₁
      rw [← hrow₁, htoken, some.injEq] at htoken₁
      subst htoken₁
      exact (hnew session token heq).1 (.inl ⟨_, _, hrow, htoken'⟩)
  refine ⟨fun token hknown => ?_, fun session row' hrow' => ?_,
    fun session session' row' token hrow' htoken hretired =>
      hretires session session' row' token hrow' htoken hretired,
    fun session session' row row' token hrow hrow' htoken htoken' => ?_,
    fun session row' token hrow' htoken => ?_, fun session row' token hrow' hlive htoken hrevoked =>
      ?_, fun session token hretired => ?_, fun old new' hreplaced => ?_,
    fun old n n' hn hn' => ?_⟩
  · rcases hevolves.known_cases hknown with hknown | ⟨session, heq⟩
    · exact lt_of_lt_of_le (h.known token hknown) hevolves.nextId
    · exact (hnew session token heq).2
  · rcases hevolves.origin session row' hrow' with ⟨row, hrow⟩ | hlt
    · exact lt_of_lt_of_le (h.sessions session row hrow) hevolves.nextId
    · exact hlt
  · rcases hevolves.current session row token hrow htoken with heq | ⟨row₁, hrow₁, htoken₁⟩
    · rcases hevolves.current session' row' token hrow' htoken' with heq' | ⟨row₂, hrow₂, htoken₂⟩
      · rw [heq, some.injEq, Prod.mk.injEq] at heq'
        exact heq'.1
      · exact absurd (.inl ⟨_, _, hrow₂, htoken₂⟩) (hnew session token heq).1
    · obtain ⟨row₂, hrow₂, htoken₂⟩ :=
        hcurrent session' row' token hrow' htoken' (.inl ⟨_, _, hrow₁, htoken₁⟩)
      exact h.owner session session' row₁ row₂ token hrow₁ hrow₂ htoken₁ htoken₂
  · rcases hevolves.previous session row' token hrow' htoken with ⟨row, hrow, hold, -⟩ | ⟨-, hold⟩
    · exact hevolves.retired _ (h.previous session row token hrow hold)
    · exact hold
  · rcases hevolves.revokes token hrevoked with hold | ⟨hknown, htargets⟩
    · obtain ⟨row, hrow, htoken'⟩ := hcurrent session row' token hrow' htoken (.inr (.inr hold))
      obtain ⟨row₁, hrow₁, -, hkept⟩ := hevolves.kept session row hrow
      rw [hrow', some.injEq] at hrow₁
      refine h.live session row token hrow ?_ htoken' hold
      cases hrevoked' : row.revokedAt with
      | none => rfl
      | some time =>
        have hsome := hkept (by rw [hrevoked']; rfl)
        rw [← hrow₁, hlive] at hsome
        cases hsome
    · have hsome := htargets session row' hrow' htoken
      rw [hlive] at hsome
      cases hsome
  · rcases hevolves.retires session token hretired with hold | ⟨⟨row, hrow, -⟩, -⟩
    · obtain ⟨row, hrow⟩ := h.retired session token hold
      obtain ⟨row', hrow', -⟩ := hevolves.kept session row hrow
      exact ⟨row', hrow'⟩
    · obtain ⟨row', hrow', -⟩ := hevolves.kept session row hrow
      exact ⟨row', hrow'⟩
  · have hold : ∀ old new', (old, new') ∈ w.replacements →
        ∃ session, (session, old) ∈ w'.retired := by
      intro old new' hmem
      obtain ⟨session, hretired⟩ := h.replaced old new' hmem
      exact ⟨session, hevolves.retired _ hretired⟩
    rcases hevolves.replacements with heq | ⟨session, row, old', n, heq, -, -, hretired⟩
    · rw [heq] at hreplaced
      exact hold old new' hreplaced
    · rw [heq] at hreplaced
      rcases mem_cons.1 hreplaced with hnew' | hmem
      · cases hnew'
        exact ⟨session, hretired⟩
      · exact hold old new' hmem
  · rcases hevolves.replacements with heq | ⟨session, row, old', n₀, heq, hrow, htoken, -⟩
    · rw [heq] at hn hn'
      exact h.unique old n n' hn hn'
    · -- a token that has a successor already is not the current one
      have hnot : ∀ n, (old', n) ∉ w.replacements := by
        intro n hmem
        obtain ⟨session', hretired⟩ := h.replaced old' n hmem
        exact h.current session session' row old' hrow htoken hretired
      rw [heq] at hn hn'
      rcases mem_cons.1 hn with hnew' | hmem
      · cases hnew'
        rcases mem_cons.1 hn' with hnew'' | hmem'
        · cases hnew''
          rfl
        · exact absurd hmem' (hnot n')
      · rcases mem_cons.1 hn' with hnew'' | hmem'
        · cases hnew''
          exact absurd hmem (hnot n)
        · exact h.unique old n n' hmem hmem'

/-- What an update of a row leaves alone. -/
structure KeepsTokens (row row' : AuthSession) : Prop where
  userId : row'.userId = row.userId
  refreshTokenId : row'.refreshTokenId = row.refreshTokenId
  previous : row'.previousRefreshTokenId = row.previousRefreshTokenId
  expires : row'.previousRefreshTokenGraceExpiresAt = row.previousRefreshTokenGraceExpiresAt
  revoked : row.revokedAt.isSome → row'.revokedAt.isSome

theorem KeepsTokens.refl (row : AuthSession) : KeepsTokens row row :=
  ⟨rfl, rfl, rfl, rfl, fun h => h⟩

theorem keepsTokens_touch (row : AuthSession) (now : Instant) :
    KeepsTokens row (row.touch now) := by
  unfold AuthSession.touch
  split
  · exact ⟨rfl, rfl, rfl, rfl, fun h => h⟩
  · exact .refl row

theorem keepsTokens_revoke (row : AuthSession) (now : Instant) : KeepsTokens row (row.revoke now) :=
  ⟨rfl, rfl, rfl, rfl, fun _ => rfl⟩

theorem keepsTokens_revokeUnlessRevoked (row : AuthSession) (now : Instant) :
    KeepsTokens row (row.revokeUnlessRevoked now) := by
  unfold AuthSession.revokeUnlessRevoked
  split
  · exact keepsTokens_revoke row now
  · exact .refl row

theorem revokeUnlessRevoked_isSome (row : AuthSession) (now : Instant) :
    (row.revokeUnlessRevoked now).revokedAt.isSome := by
  unfold AuthSession.revokeUnlessRevoked
  split
  · rfl
  · rename_i hsome
    cases hrevoked : row.revokedAt with
    | none =>
      rw [hrevoked] at hsome
      exact absurd rfl hsome
    | some time => rfl

theorem evolves_rows {g : Uuid → AuthSession → AuthSession}
    (hsessions : ∀ id, w'.auth.sessions id = (w.auth.sessions id).map (g id))
    (hg : ∀ id row, w.auth.sessions id = some row → KeepsTokens row (g id row))
    (hnextId : w'.nextId = w.nextId) (hretired : w'.retired = w.retired)
    (hreplacements : w'.replacements = w.replacements)
    (hrevoked : ∀ token, token ∈ w.auth.revokedRefreshTokens → token ∈ w'.auth.revokedRefreshTokens)
    (hrevokes : ∀ token, token ∈ w'.auth.revokedRefreshTokens →
      token ∈ w.auth.revokedRefreshTokens ∨ w.Known token ∧ ∀ session row,
        w.auth.sessions session = some row → row.refreshTokenId = some token →
          (g session row).revokedAt.isSome) : Evolves w w' none := by
  have hback : ∀ id row', w'.auth.sessions id = some row' →
      ∃ row, w.auth.sessions id = some row ∧ row' = g id row ∧ KeepsTokens row row' := by
    intro id row' hrow'
    rw [hsessions] at hrow'
    obtain ⟨row, hrow, rfl⟩ := map_eq_some_iff.1 hrow'
    exact ⟨row, hrow, rfl, hg id row hrow⟩
  have hforth : ∀ id row, w.auth.sessions id = some row →
      w'.auth.sessions id = some (g id row) := by
    intro id row hrow
    rw [hsessions, hrow, map_some]
  refine ⟨le_of_eq hnextId.symm, fun session row hrow => ?_, fun session row' hrow' => ?_,
    fun session row' token hrow' htoken => ?_, nofun,
    fun session row' token hrow' htoken => ?_, fun session row token hrow htoken => ?_,
    fun entry hentry => ?_, fun session token hentry => ?_, hrevoked, fun token htoken => ?_,
    .inl hreplacements⟩
  · have hkeeps := hg session row hrow
    exact ⟨_, hforth session row hrow, hkeeps.userId, hkeeps.revoked⟩
  · obtain ⟨row, hrow, -⟩ := hback session row' hrow'
    exact .inl ⟨row, hrow⟩
  · obtain ⟨row, hrow, -, hkeeps⟩ := hback session row' hrow'
    exact .inr ⟨row, hrow, hkeeps.refreshTokenId.symm.trans htoken⟩
  · obtain ⟨row, hrow, -, hkeeps⟩ := hback session row' hrow'
    exact .inl ⟨row, hrow, hkeeps.previous.symm.trans htoken, hkeeps.expires⟩
  · have hkeeps := hg session row hrow
    exact .inr ⟨_, hforth session row hrow, hkeeps.refreshTokenId.trans htoken⟩
  · rw [hretired]
    exact hentry
  · rw [hretired] at hentry
    exact .inl hentry
  · rcases hrevokes token htoken with hold | ⟨hknown, htargets⟩
    · exact .inl hold
    · refine .inr ⟨hknown, fun session row' hrow' htoken' => ?_⟩
      obtain ⟨row, hrow, rfl, hkeeps⟩ := hback session row' hrow'
      exact htargets session row hrow (hkeeps.refreshTokenId.symm.trans htoken')

theorem Evolves.refl (w : World) : Evolves w w none :=
  evolves_rows (g := fun _ row => row) (fun _ => by simp) (fun _ row _ => .refl row) rfl rfl rfl
    (fun _ h => h) fun _ => .inl

theorem Evolves.fresh {new : Option (Uuid × Uuid)} (h : Evolves w w' new)
    (hnextId : w'.nextId ≤ session) : Evolves w { w' with nextId := session } new :=
  ⟨le_trans h.nextId hnextId, h.kept, fun id row' hrow' =>
      (h.origin id row' hrow').imp_right fun hlt => lt_of_lt_of_le hlt hnextId,
    h.current, h.assigned, h.previous, h.retained, h.retired, h.retires, h.revoked, h.revokes,
    h.replacements⟩

theorem sessions_modify (w : World) {f : AuthSession → AuthSession} (id id' : Uuid) :
    (w.auth.modify id f).sessions id' =
      (w.auth.sessions id').map fun row => if id' = id then f row else row := by
  show update w.auth.sessions id _ id' = _
  by_cases hid : id' = id
  · subst hid
    simp
  · rw [update_of_ne hid]
    simp [hid]

theorem evolves_modify {f : AuthSession → AuthSession} (id : Uuid)
    (hf : ∀ row, KeepsTokens row (f row)) :
    Evolves w { w with auth := w.auth.modify id f } none := by
  refine evolves_rows (sessions_modify w id) (fun id' row _ => ?_) rfl rfl rfl (fun _ h => h)
    fun _ => .inl
  split
  · exact hf row
  · exact .refl row

/-- The tokens that a revocation has selected are known, and in use in the sessions that it revokes
    only. -/
def Selects (w : World) (tokens : List Uuid) (targets : Uuid → AuthSession → Prop) : Prop :=
  ∀ token ∈ tokens, w.Known token ∧ ∀ session row, w.auth.sessions session = some row →
    row.refreshTokenId = some token → targets session row

theorem evolves_revoked {auth : AuthTables} {targets : Uuid → AuthSession → Prop}
    [∀ id row, Decidable (targets id row)] (h : w.Selects tokens targets)
    (hsessions : ∀ id, auth.sessions id = (w.auth.sessions id).map fun row =>
      if targets id row then row.revokeUnlessRevoked now else row)
    (htokens : auth.revokedRefreshTokens = tokens ++ w.auth.revokedRefreshTokens) :
    Evolves w { w with auth := auth } none := by
  refine evolves_rows hsessions (fun id row _ => ?_) rfl rfl rfl (fun token hold => ?_)
    fun token htoken => ?_
  · split
    · exact keepsTokens_revokeUnlessRevoked row now
    · exact .refl row
  · rw [htokens]
    exact mem_append_right _ hold
  · rw [htokens] at htoken
    rcases mem_append.1 htoken with hselected | hold
    · obtain ⟨hknown, htargets⟩ := h token hselected
      refine .inr ⟨hknown, fun id row hrow htoken => ?_⟩
      rw [if_pos (htargets id row hrow htoken)]
      exact revokeUnlessRevoked_isSome row now
    · exact .inl hold

theorem evolves_revokeAuthSession (h : w.Selects tokens fun id _ => id = session) :
    Evolves w { w with auth := w.auth.revokeAuthSession session tokens now } none :=
  evolves_revoked h (sessions_modify w session) rfl

theorem evolves_revokeAllUserSessions {user : Uuid}
    (h : w.Selects tokens fun _ row => row.userId = user) :
    Evolves w { w with auth := w.auth.revokeAllUserSessions user tokens now } none :=
  evolves_revoked h (fun _ => rfl) rfl

theorem evolves_create (h : w.Sound) (user : Uuid) (now : Instant) :
    Evolves w { w with
      auth := w.auth.create w.nextId user none now
      nextId := w.nextId + 1 } none := by
  have hnone : w.auth.sessions w.nextId = none := by
    cases hrow : w.auth.sessions w.nextId with
    | none => rfl
    | some row => exact absurd (h.sessions _ row hrow) (lt_irrefl _)
  have hforth : ∀ id row, w.auth.sessions id = some row →
      (w.auth.create w.nextId user none now).sessions id = some row := by
    intro id row hrow
    refine (update_of_ne ?_ _ _).trans hrow
    rintro rfl
    rw [hnone] at hrow
    cases hrow
  have hback : ∀ id row', (w.auth.create w.nextId user none now).sessions id = some row' →
      id = w.nextId ∧ row' = .created user none now ∨ id ≠ w.nextId ∧
        w.auth.sessions id = some row' := fun _ _ hrow' => update_cases hrow'
  refine ⟨le_succ _, fun session row hrow => ⟨row, hforth session row hrow, rfl, fun h => h⟩,
    fun session row' hrow' => ?_, fun session row' token hrow' htoken => ?_,
    nofun, fun session row' token hrow' htoken => ?_,
    fun session row token hrow htoken => .inr ⟨row, hforth session row hrow, htoken⟩,
    fun _ h => h, fun _ _ => .inl, fun _ h => h, fun _ => .inl, .inl rfl⟩
  · rcases hback session row' hrow' with ⟨rfl, -⟩ | ⟨-, hrow⟩
    · exact .inr (lt_succ_self _)
    · exact .inl ⟨row', hrow⟩
  · rcases hback session row' hrow' with ⟨-, rfl⟩ | ⟨-, hrow⟩
    · cases htoken
    · exact .inr ⟨row', hrow, htoken⟩
  · rcases hback session row' hrow' with ⟨-, rfl⟩ | ⟨-, hrow⟩
    · cases htoken
    · exact .inl ⟨row', hrow, htoken, rfl⟩

theorem evolves_assign (h : w.Sound) (hnew : ¬ w.Known token)
    (hrow : w.auth.sessions session = some row)
    (hsessions : w'.auth.sessions = update w.auth.sessions session (some row'))
    (htoken : row'.refreshTokenId = some token) (huser : row'.userId = row.userId)
    (hrevokedAt : row'.revokedAt = row.revokedAt) (hprevious : row'.previousRefreshTokenId = none ∨
      row'.previousRefreshTokenId = row.refreshTokenId)
    (hretired : ∀ id token, (id, token) ∈ w'.retired ↔
      (id, token) ∈ w.retired ∨ id = session ∧ row.refreshTokenId = some token)
    (hnextId : w'.nextId = w.nextId) (hrevoked : ∀ token, token ∈ w.auth.revokedRefreshTokens →
      token ∈ w'.auth.revokedRefreshTokens)
    (hrevokes : ∀ token, token ∈ w'.auth.revokedRefreshTokens →
      token ∈ w.auth.revokedRefreshTokens ∨ row.refreshTokenId = some token)
    (hreplacements : w'.replacements = w.replacements ∨ ∃ old, row.refreshTokenId = some old ∧
      w'.replacements = (old, token) :: w.replacements) : Evolves w w' (some (session, token)) := by
  have hback : ∀ id x, w'.auth.sessions id = some x →
      id = session ∧ x = row' ∨ id ≠ session ∧ w.auth.sessions id = some x := by
    intro id x hx
    rw [hsessions] at hx
    exact update_cases hx
  have hself : w'.auth.sessions session = some row' := by rw [hsessions, update_self]
  have hother : ∀ id, id ≠ session → w'.auth.sessions id = w.auth.sessions id := by
    intro id hid
    rw [hsessions, update_of_ne hid]
  refine ⟨le_of_eq hnextId.symm, fun id x hx => ?_, fun id x hx => ?_, fun id x t hx ht => ?_,
    fun id t heq => ?_, fun id x t hx ht => ?_, fun id x t hx ht => ?_,
    fun entry hentry => (hretired entry.1 entry.2).2 (.inl hentry), fun id t hentry => ?_, hrevoked,
    fun t ht => ?_, ?_⟩
  · by_cases hid : id = session
    · subst hid
      rw [hrow, some.injEq] at hx
      subst hx
      exact ⟨row', hself, huser, fun hsome => by rwa [hrevokedAt]⟩
    · exact ⟨x, (hother id hid).trans hx, rfl, fun hsome => hsome⟩
  · rcases hback id x hx with ⟨rfl, -⟩ | ⟨-, hx⟩
    · exact .inl ⟨row, hrow⟩
    · exact .inl ⟨x, hx⟩
  · rcases hback id x hx with ⟨rfl, rfl⟩ | ⟨-, hx⟩
    · rw [htoken, some.injEq] at ht
      rw [ht]
      exact .inl rfl
    · exact .inr ⟨x, hx, ht⟩
  · cases heq
    exact ⟨row', hself, htoken⟩
  · rcases hback id x hx with ⟨rfl, rfl⟩ | ⟨-, hx⟩
    · rcases hprevious with hnone | heq
      · rw [hnone] at ht
        cases ht
      · rw [heq] at ht
        exact .inr ⟨⟨row, hrow, ht⟩, (hretired id t).2 (.inr ⟨rfl, ht⟩)⟩
    · exact .inl ⟨x, hx, ht, rfl⟩
  · by_cases hid : id = session
    · subst hid
      rw [hrow, some.injEq] at hx
      subst hx
      exact .inl ((hretired id t).2 (.inr ⟨rfl, ht⟩))
    · exact .inr ⟨x, (hother id hid).trans hx, ht⟩
  · rcases (hretired id t).1 hentry with hold | ⟨rfl, ht⟩
    · exact .inl hold
    · exact .inr ⟨⟨row, hrow, ht⟩, rfl⟩
  · rcases hrevokes t ht with hold | hcurrent
    · exact .inl hold
    · have hknown : w.Known t := .inl ⟨session, row, hrow, hcurrent⟩
      refine .inr ⟨hknown, fun id x hx ht' => ?_⟩
      rcases hback id x hx with ⟨rfl, rfl⟩ | ⟨hid, hx⟩
      · rw [htoken, some.injEq] at ht'
        rw [ht'] at hnew
        exact absurd hknown hnew
      · exact absurd (h.owner id session x row t hx hrow ht' hcurrent) hid
  · rcases hreplacements with heq | ⟨old, hold, heq⟩
    · exact .inl heq
    · exact .inr ⟨session, row, old, token, heq, hrow, hold,
        (hretired session old).2 (.inr ⟨rfl, hold⟩)⟩

theorem Selects.evolves {targets : Uuid → AuthSession → Prop}
    (h : w.Selects tokens targets) (hevolves : Evolves w w' new)
    (hnew : ∀ session token, new = some (session, token) → ¬ w.Known token)
    (htargets : ∀ id row row', row'.userId = row.userId → targets id row → targets id row') :
    w'.Selects tokens targets := by
  intro token htoken
  obtain ⟨hknown, hin⟩ := h token htoken
  refine ⟨hevolves.known hknown, fun session row' hrow' hcurrent => ?_⟩
  rcases hevolves.current session row' token hrow' hcurrent with heq | ⟨row, hrow, hold⟩
  · exact absurd hknown (hnew session token heq)
  · obtain ⟨row₁, hrow₁, huser, -⟩ := hevolves.kept session row hrow
    rw [hrow', some.injEq] at hrow₁
    rw [hrow₁]
    exact htargets session row row₁ huser (hin session row hrow hold)

theorem Sound.selects (h : w.Sound) (session : Uuid) :
    w.Selects (((w.auth.sessions session).map (·.tokens)).getD []) fun id _ => id = session := by
  intro token htoken
  cases hrow : w.auth.sessions session with rw [hrow] at htoken
  | none => cases htoken
  | some row =>
    rcases mem_append.1 htoken with hcurrent | hprevious
    · have hcurrent := mem_toList.1 hcurrent
      exact ⟨.inl ⟨session, row, hrow, hcurrent⟩, fun id row' hrow' hcurrent' =>
        h.owner id session row' row token hrow' hrow hcurrent' hcurrent⟩
    · have hretired := h.previous session row token hrow (mem_toList.1 hprevious)
      exact ⟨.inr (.inl ⟨session, hretired⟩), fun id row' hrow' hcurrent' =>
        absurd hretired (h.current id session row' token hrow' hcurrent')⟩

theorem Sound.selects_user (h : w.Sound) (user : Uuid) :
    w.Selects (w.userTokens user) fun _ row => row.userId = user := by
  intro token htoken
  obtain ⟨id, -, htoken⟩ := mem_flatMap.1 htoken
  cases hrow : w.auth.sessions id with rw [hrow] at htoken
  | none => cases htoken
  | some row =>
    by_cases huser : row.userId = user
    · have hselected : token ∈ (((w.auth.sessions id).map (·.tokens)).getD []) := by
        rw [hrow]
        simpa [Option.filter, huser] using htoken
      obtain ⟨hknown, hin⟩ := h.selects id token hselected
      refine ⟨hknown, fun id' row' hrow' hcurrent => ?_⟩
      obtain rfl := hin id' row' hrow' hcurrent
      rw [hrow, Option.some.injEq] at hrow'
      rw [← hrow']
      exact huser
    · simp [Option.filter, huser] at htoken

end World

/-! ## What every run keeps -/

/-- The token that a call has generated and not yet given to its session. -/
def Call.pending? : Call → Option Uuid
  | .beginning _ new | .rotating _ new _ | .assigning _ new => some new
  | _ => none

def Call.Selected (w : World) : Call → Prop
  | .revokingCommit session tokens _ _ => w.Selects tokens fun id _ => id = session
  | .revokingUserCommit user tokens _ _ => w.Selects tokens fun _ row => row.userId = user
  | _ => True

structure Fits (w : World) (c : Call) : Prop where
  pending : ∀ token, c.pending? = some token → token < w.nextId ∧ ¬ w.Known token
  selected : c.Selected w

structure System.Consistent (s : System) : Prop where
  world : s.world.Sound
  fits : ∀ i c, s.calls i = some c → Fits s.world c
  pending : ∀ i j c c' token, s.calls i = some c → s.calls j = some c' →
    c.pending? = some token → c'.pending? = some token → i = j
  started : ∀ i, s.started ≤ i → s.calls i = none

variable {overlap : ℤ} {s s' : System} {a : Action} {w w' : World} {i j : ℕ} {c c' : Call}
  {new : Option (Uuid × Uuid)}

theorem Fits.evolves (h : Fits w c) (hevolves : World.Evolves w w' new)
    (hnew : ∀ session token, new = some (session, token) →
      ¬ w.Known token ∧ c.pending? ≠ some token) : Fits w' c := by
  have hunknown := fun session token heq => (hnew session token heq).1
  refine ⟨fun token htoken => ?_, ?_⟩
  · obtain ⟨hlt, hknown⟩ := h.pending token htoken
    refine ⟨lt_of_lt_of_le hlt hevolves.nextId, fun hknown' => ?_⟩
    rcases hevolves.known_cases hknown' with hold | ⟨session, heq⟩
    · exact hknown hold
    · exact (hnew session token heq).2 htoken
  · have hselected := h.selected
    cases c with
    | revokingCommit session tokens began reply =>
      exact hselected.evolves hevolves hunknown fun _ _ _ _ heq => heq
    | revokingUserCommit user tokens began reply =>
      exact hselected.evolves hevolves hunknown fun _ _ _ huser heq => huser.trans heq
    | _ => trivial

/-- A call that goes from `c` to `c'` changes the world from `w` to `w'`. -/
structure Advance (w w' : World) (c c' : Call) : Prop where
  evolves : ∃ new, World.Evolves w w' new ∧ ∀ session token, new = some (session, token) →
    c.pending? = some token
  fits : Fits w' c'
  pending : ∀ token, c'.pending? = some token → c.pending? = some token ∨ token = w.nextId

theorem fits_of_none (hpending : c.pending? = none) (hselected : c.Selected w) : Fits w c := by
  refine ⟨fun token htoken => ?_, hselected⟩
  rw [hpending] at htoken
  cases htoken

theorem Advance.of_none (hevolves : World.Evolves w w' none) (hpending : c'.pending? = none)
    (hselected : c'.Selected w') : Advance w w' c c' := by
  refine ⟨⟨none, hevolves, nofun⟩, fits_of_none hpending hselected, fun token htoken => ?_⟩
  rw [hpending] at htoken
  cases htoken

theorem Advance.to {x : Call} (h : Advance w w' c c') (hpending : x.pending? = none)
    (hselected : x.Selected w') : Advance w w' c x := by
  refine ⟨h.evolves, fits_of_none hpending hselected, fun token htoken => ?_⟩
  rw [hpending] at htoken
  cases htoken

theorem respond_facts (session : Uuid) (row : AuthSession) :
    (Call.respond session row).pending? = none ∧ (Call.respond session row).Selected w := by
  unfold Call.respond
  split <;> exact ⟨rfl, trivial⟩

theorem onError_facts (c : Call) : c.onError.pending? = none ∧ c.onError.Selected w := by
  unfold Call.onError
  split <;> exact ⟨rfl, trivial⟩

open World

theorem advance_rotating {token : RefreshToken} {new : Uuid} {began : Instant} {auth : AuthTables}
    (hw : w.Sound) (h : Fits w (.rotating token new began))
    (hrotate : w.auth.rotateTokens token.sessionId token.id new began overlap = some auth) :
    Advance w { w with
        auth
        retired := (token.sessionId, token.id) :: w.retired
        replacements := (token.id, new) :: w.replacements }
      (.rotating token new began) (.answering token.sessionId new) := by
  obtain ⟨row, hrow, hcurrent, rfl⟩ := AuthTables.rotateTokens_eq_some_iff.1 hrotate
  refine ⟨⟨some (token.sessionId, new), evolves_assign hw (h.pending new rfl).2 hrow rfl rfl
    rfl rfl (.inr hcurrent.symm) (fun id t => ?_) rfl (fun _ => mem_cons_of_mem _)
    (fun t ht => ?_) (.inr ⟨token.id, hcurrent, rfl⟩), fun session t heq => ?_⟩,
    fits_of_none rfl trivial, nofun⟩
  · rw [mem_cons, Prod.mk.injEq, hcurrent, some.injEq, or_comm, eq_comm (a := t)]
  · rcases mem_cons.1 ht with rfl | ht
    · exact .inr hcurrent
    · exact .inl ht
  · cases heq
    rfl

theorem advance_assigning {session token : Uuid} {now : Instant} (hw : w.Sound)
    (h : Fits w (.assigning session token)) :
    Advance w { w with
        auth := w.auth.modify session (·.setCurrentRefreshToken token now)
        retired := w.retire session }
      (.assigning session token) (.redeemTouching session token) := by
  cases hrow : w.auth.sessions session with
  | none =>
    refine .of_none (evolves_rows (g := fun _ row => row) (fun id => ?_)
      (fun _ row _ => .refl row) rfl ?_ rfl (fun _ h => h) fun _ => .inl) rfl trivial
    · by_cases hid : id = session
      · subst hid
        show update w.auth.sessions id _ id = _
        simp [hrow]
      · show update w.auth.sessions session _ id = _
        rw [update_of_ne hid]
        simp
    · simp [retire, hrow]
  | some row =>
    have hsessions : (w.auth.modify session (·.setCurrentRefreshToken token now)).sessions =
        update w.auth.sessions session (some (row.setCurrentRefreshToken token now)) := by
      simp [AuthTables.modify, hrow]
    refine ⟨⟨some (session, token), evolves_assign hw (h.pending token rfl).2 hrow
      hsessions rfl rfl rfl (.inl rfl) (fun id t => ?_) rfl
      (fun _ h => h) (fun _ => .inl) (.inl rfl), fun session' t heq => ?_⟩,
      fits_of_none rfl trivial, nofun⟩
    · simp only [retire, hrow, bind_some, mem_append, List.mem_map,
        mem_toList, Prod.mk.injEq, exists_eq_right_right]
      rw [or_comm, and_comm, eq_comm (a := session)]
    · cases heq
      rfl

theorem advance_statement {now : Instant} (hw : w.Sound) (h : Fits w c)
    (hstatement : c.statement w now overlap = some (w', c')) : Advance w w' c c' := by
  have hsame : ∀ c' : Call, c'.pending? = none → c'.Selected w → Advance w w c c' :=
    fun c' hpending hselected => .of_none (.refl w) hpending hselected
  cases c with
  | started token | refetching token | redeem session | authenticate claims =>
    simp only [Call.statement] at hstatement
    split at hstatement <;> cases hstatement <;> exact hsame _ rfl trivial
  | looking token row previous =>
    cases hstatement
    split_ifs <;> exact hsame _ rfl trivial
  | beginning token new =>
    cases hstatement
    exact ⟨⟨none, .refl w, nofun⟩, ⟨h.pending, trivial⟩, fun _ => .inl⟩
  | rotating token new began =>
    simp only [Call.statement] at hstatement
    split at hstatement <;> cases hstatement
    · exact advance_rotating hw h ‹_›
    · exact hsame _ rfl trivial
  | revoking session reply =>
    cases hstatement
    exact hsame _ rfl (hw.selects session)
  | revokingCommit session tokens began reply =>
    cases hstatement
    exact .of_none (evolves_revokeAuthSession h.selected) rfl trivial
  | revokingUser user reply =>
    cases hstatement
    exact hsame _ rfl (hw.selects_user user)
  | revokingUserCommit user tokens began reply =>
    cases hstatement
    exact .of_none (evolves_revokeAllUserSessions h.selected) rfl trivial
  | deactivating session reply =>
    cases hstatement
    exact .of_none (evolves_modify session fun row => keepsTokens_revoke row now) rfl
      trivial
  | assigning session token =>
    cases hstatement
    exact advance_assigning hw h
  | redeemTouching session token =>
    cases hstatement
    exact .of_none (evolves_modify session fun row => keepsTokens_touch row now) rfl
      trivial
  | touching claims row =>
    cases hstatement
    exact .of_none (evolves_modify _ fun row => keepsTokens_touch row now) rfl trivial
  | _ => cases hstatement

theorem examine_facts {now : Instant} (hexamine : c.examine now = some c') :
    c'.pending? = none ∧ c'.Selected w := by
  cases c with cases hexamine
  | fetched token row | redeemRead session row | authenticateRead claims row =>
    split_ifs <;> exact ⟨rfl, trivial⟩
  | refetched token row =>
    split_ifs
    · exact respond_facts token.sessionId row
    · exact ⟨rfl, trivial⟩
  | answering session token => exact ⟨rfl, trivial⟩

theorem advance_fresh (hw : w.Sound) (hpending : c'.pending? = some w.nextId)
    (hselected : ∀ w, c'.Selected w) : Advance w { w with nextId := w.nextId + 1 } c c' := by
  refine ⟨⟨none, (World.Evolves.refl w).fresh (le_succ _), nofun⟩,
    ⟨fun token htoken => ?_, hselected _⟩, fun token htoken => ?_⟩
  · rw [hpending, some.injEq] at htoken
    subst htoken
    exact ⟨lt_succ_self _, fun hknown => lt_irrefl _ (hw.known _ hknown)⟩
  · rw [hpending, some.injEq] at htoken
    exact .inr htoken.symm

theorem advance_work {result : Call.Work} (hw : w.Sound)
    (hwork : c.work w result = some (w', c')) : Advance w w' c c' := by
  have hsame : ∀ c' : Call, c'.pending? = none → c'.Selected w → Advance w w c c' :=
    fun c' hpending hselected => .of_none (.refl w) hpending hselected
  cases c with
  | validating token row previous =>
    cases result with
    | ok =>
      simp only [Call.work] at hwork
      split_ifs at hwork <;> cases hwork
      · exact hsame _ (respond_facts (w := w) token.sessionId row).1
          (respond_facts token.sessionId row).2
      · exact advance_fresh hw rfl fun _ => trivial
    | rejected | failed =>
      cases hwork
      exact hsame _ rfl trivial
  | issuing session =>
    simp only [Call.work] at hwork
    split at hwork <;> cases hwork
    · exact advance_fresh hw rfl fun _ => trivial
    · exact hsame _ rfl trivial
  | loading claims row =>
    simp only [Call.work] at hwork
    split at hwork <;> cases hwork <;> exact hsame _ rfl trivial
  | _ => cases hwork

namespace System

theorem start_facts (s : System) (w : World) (c : Call)
    (hc : (∃ token, c = s.refresh token) ∨ (∃ claims, c = s.authenticate claims) ∨
      (∃ session, c = .redeem session) ∨ (∃ session reply, c = .revoking session reply) ∨
      ∃ user reply, c = .revokingUser user reply) : c.pending? = none ∧ c.Selected w := by
  rcases hc with ⟨token, rfl⟩ | ⟨claims, rfl⟩ | ⟨session, rfl⟩ | ⟨session, reply, rfl⟩ |
    ⟨user, reply, rfl⟩
  · unfold refresh
    split <;> exact ⟨rfl, trivial⟩
  · unfold authenticate
    split <;> exact ⟨rfl, trivial⟩
  all_goals exact ⟨rfl, trivial⟩

theorem Consistent.step_cases (h : s.Consistent) (hstep : s.step overlap a = some s') :
    (∃ now, s.now ≤ now ∧ s' = { s with now }) ∨
    (∃ user, s' = { s with world := { s.world with
      auth := s.world.auth.create s.world.nextId user none s.now
      nextId := s.world.nextId + 1 } }) ∨
    (∃ c, s' = s.call c ∧ ∀ w, c.pending? = none ∧ c.Selected w) ∨
    ∃ i w c c', s.calls i = some c ∧ s' = s.proceed i w c' ∧ Advance s.world w c c' := by
  cases a with
  | tick now =>
    simp only [step] at hstep
    split_ifs at hstep with hle
    cases hstep
    exact .inl ⟨now, hle, rfl⟩
  | create user =>
    cases hstep
    exact .inr (.inl ⟨user, rfl⟩)
  | refresh token =>
    cases hstep
    exact .inr (.inr (.inl ⟨_, rfl, fun w => s.start_facts w _ (.inl ⟨_, rfl⟩)⟩))
  | redeem session =>
    cases hstep
    exact .inr (.inr (.inl ⟨_, rfl, fun w => s.start_facts w _ (.inr (.inr (.inl ⟨_, rfl⟩)))⟩))
  | authenticate claims =>
    cases hstep
    exact .inr (.inr (.inl ⟨_, rfl, fun w => s.start_facts w _ (.inr (.inl ⟨_, rfl⟩))⟩))
  | revokeAuthSession session | revokeAllUserSessions user =>
    cases hstep
    exact .inr (.inr (.inl ⟨_, rfl, fun _ => ⟨rfl, trivial⟩⟩))
  | statement i answer =>
    obtain ⟨c, hc, hstep⟩ := bind_eq_some_iff.1 hstep
    obtain ⟨⟨w, c'⟩, hstatement, rfl⟩ := map_eq_some_iff.1 hstep
    have hadvance := advance_statement h.world (h.fits i c hc) hstatement
    refine .inr (.inr (.inr ?_))
    cases answer with
    | ok => exact ⟨i, w, c, c', hc, rfl, hadvance⟩
    | failed =>
      exact ⟨i, s.world, c, c.onError, hc, rfl, .of_none (.refl _)
        (onError_facts (w := s.world) c).1 (onError_facts c).2⟩
    | lost =>
      exact ⟨i, w, c, c.onError, hc, rfl, hadvance.to (onError_facts (w := w) c).1
        (onError_facts c).2⟩
  | examine i =>
    obtain ⟨c, hc, hstep⟩ := bind_eq_some_iff.1 hstep
    obtain ⟨c', hexamine, rfl⟩ := map_eq_some_iff.1 hstep
    obtain ⟨hpending, hselected⟩ := examine_facts (w := s.world) hexamine
    exact .inr (.inr (.inr ⟨i, _, c, c', hc, rfl, .of_none (.refl _) hpending hselected⟩))
  | work i result =>
    obtain ⟨c, hc, hstep⟩ := bind_eq_some_iff.1 hstep
    obtain ⟨⟨w, c'⟩, hwork, rfl⟩ := map_eq_some_iff.1 hstep
    exact .inr (.inr (.inr ⟨i, w, c, c', hc, rfl, advance_work h.world hwork⟩))
  | drop i =>
    obtain ⟨c, hc, hstep⟩ := bind_eq_some_iff.1 hstep
    split at hstep <;> cases hstep
    exact .inr (.inr (.inr ⟨i, _, c, _, hc, rfl, .of_none (.refl _) rfl trivial⟩))

section

variable (h : s.Consistent)
include h

theorem Consistent.unknown (hc : s.calls i = some c)
    (hnew : ∀ session token, new = some (session, token) → c.pending? = some token) :
    ∀ session token, new = some (session, token) →
      ¬ s.world.Known token ∧ token < s.world.nextId := by
  intro session token heq
  obtain ⟨hlt, hknown⟩ := (h.fits i c hc).pending token (hnew session token heq)
  exact ⟨hknown, hlt⟩

theorem Consistent.lt_started (hc : s.calls i = some c) : i < s.started := by
  by_contra hge
  rw [h.started i (Nat.le_of_not_lt hge)] at hc
  cases hc

theorem Consistent.evolves (hstep : s.step overlap a = some s') :
    ∃ new, World.Evolves s.world s'.world new ∧
      ∀ session token, new = some (session, token) → ¬ s.world.Known token := by
  rcases h.step_cases hstep with ⟨now, -, rfl⟩ | ⟨user, rfl⟩ | ⟨c, rfl, -⟩ |
    ⟨i, w, c, c', hc, rfl, hadvance⟩
  · exact ⟨none, .refl _, nofun⟩
  · exact ⟨none, evolves_create h.world user s.now, nofun⟩
  · exact ⟨none, .refl _, nofun⟩
  · obtain ⟨new, hevolves, hnew⟩ := hadvance.evolves
    exact ⟨new, hevolves, fun session token heq => (h.unknown hc hnew session token heq).1⟩

theorem Consistent.step (hstep : s.step overlap a = some s') : s'.Consistent := by
  rcases h.step_cases hstep with ⟨now, -, rfl⟩ | ⟨user, rfl⟩ | ⟨c, rfl, hstart⟩ |
    ⟨i, w, c, c', hc, rfl, hadvance⟩
  · exact ⟨h.world, h.fits, h.pending, h.started⟩
  · have hevolves := evolves_create h.world user s.now
    exact ⟨h.world.evolves hevolves nofun,
      fun i c hc => (h.fits i c hc).evolves hevolves nofun, h.pending, h.started⟩
  · refine ⟨h.world, fun i x hx => ?_, fun i j x y token hx hy htoken htoken' => ?_, fun i hi => ?_⟩
    · rcases update_cases hx with ⟨-, rfl⟩ | ⟨-, hx⟩
      · exact fits_of_none (hstart s.world).1 (hstart s.world).2
      · exact h.fits i x hx
    · rcases update_cases hx with ⟨-, rfl⟩ | ⟨-, hx⟩
      · rw [(hstart s.world).1] at htoken
        cases htoken
      · rcases update_cases hy with ⟨-, rfl⟩ | ⟨-, hy⟩
        · rw [(hstart s.world).1] at htoken'
          cases htoken'
        · exact h.pending i j x y token hx hy htoken htoken'
    · show update s.calls s.started _ i = none
      rw [update_of_ne (ne_of_gt hi)]
      exact h.started i (le_of_succ_le hi)
  · obtain ⟨new, hevolves, hnew⟩ := hadvance.evolves
    have hunknown := h.unknown hc hnew
    have hold : ∀ j x token, j ≠ i → s.calls j = some x → x.pending? = some token →
        c'.pending? ≠ some token := by
      intro j x token hj hx htoken htoken'
      rcases hadvance.pending token htoken' with hc' | rfl
      · exact hj (h.pending j i x c token hx hc htoken hc')
      · exact lt_irrefl _ ((h.fits j x hx).pending _ htoken).1
    refine ⟨h.world.evolves hevolves fun session token heq => ?_, fun j x hx => ?_,
      fun j k x y token hx hy htoken htoken' => ?_, fun j hj => ?_⟩
    · obtain ⟨hknown, hlt⟩ := hunknown session token heq
      exact ⟨hknown, lt_of_lt_of_le hlt hevolves.nextId⟩
    · rcases update_cases hx with ⟨rfl, rfl⟩ | ⟨hj, hxj⟩
      · exact hadvance.fits
      · refine (h.fits j x hxj).evolves hevolves fun session token heq => ?_
        refine ⟨(hunknown session token heq).1, fun htoken => ?_⟩
        exact hj (h.pending j i x c token hxj hc htoken (hnew session token heq))
    · rcases update_cases hx with ⟨rfl, rfl⟩ | ⟨hj, hxj⟩
      · rcases update_cases hy with ⟨rfl, rfl⟩ | ⟨hk, hyk⟩
        · rfl
        · exact absurd htoken (hold k y token hk hyk htoken')
      · rcases update_cases hy with ⟨rfl, rfl⟩ | ⟨hk, hyk⟩
        · exact absurd htoken' (hold j x token hj hxj htoken)
        · exact h.pending j k x y token hxj hyk htoken htoken'
    · have hne : j ≠ i := ne_of_gt (lt_of_lt_of_le (h.lt_started hc) hj)
      show update s.calls i _ j = none
      rw [update_of_ne hne]
      exact h.started j hj

end

theorem Initial.consistent (h : s.Initial) : s.Consistent := by
  have hknown : ∀ token, ¬ s.world.Known token := by
    rintro token (⟨session, row, hrow, -⟩ | ⟨session, hretired⟩ | hrevoked)
    · rw [h.sessions session] at hrow
      cases hrow
    · rw [h.retired] at hretired
      cases hretired
    · rw [h.revoked] at hrevoked
      cases hrevoked
  have hno : ∀ {session row}, s.world.auth.sessions session ≠ some row := by
    intro session row hrow
    rw [h.sessions session] at hrow
    cases hrow
  have hcalls : ∀ {i c}, s.calls i ≠ some c := by
    intro i c hc
    rw [h.calls i] at hc
    cases hc
  have hreplacements : ∀ {entry}, entry ∉ s.world.replacements := by
    intro entry hentry
    rw [h.replacements] at hentry
    cases hentry
  exact ⟨⟨fun token hk => absurd hk (hknown token), fun _ _ hrow => absurd hrow hno,
      fun _ _ _ _ hrow => absurd hrow hno, fun _ _ _ _ _ hrow => absurd hrow hno,
      fun _ _ _ hrow => absurd hrow hno, fun _ _ _ hrow => absurd hrow hno,
      fun session token hretired => absurd (.inr (.inl ⟨session, hretired⟩)) (hknown token),
      fun _ _ hmem => absurd hmem hreplacements, fun _ _ _ hmem => absurd hmem hreplacements⟩,
    fun _ _ hc => absurd hc hcalls, fun _ _ _ _ _ hc => absurd hc hcalls, fun i _ => h.calls i⟩

theorem consistent_of_reachable (h : Reachable (step overlap) anyStep Initial s) : s.Consistent :=
  h.invariant (P := Consistent) (fun _ => Initial.consistent) fun _ _ _ h _ hstep => h.step hstep

/-! ## Examples -/

def emptySystem : System := ⟨⟨⟨fun _ => none, []⟩, 0, [], []⟩, 0, fun _ => none, 0⟩

theorem initial_emptySystem : emptySystem.Initial := ⟨fun _ => rfl, rfl, rfl, rfl, fun _ => rfl⟩

/-- The claims of a token of session 0, which has expired after a year. -/
def tokenOf (id : Uuid) : RefreshToken := ⟨id, 0, 7, 365 * 86400⟩

/-- A login as number 0 that gives session 0 the token 1. -/
def login : List Action :=
  [.create 7, .redeem 0, .statement 0 .ok, .examine 0, .work 0 .ok, .statement 0 .ok,
    .statement 0 .ok]

/-- A refresh from its start to its end, with a rotation. -/
def refreshSteps (i : ℕ) (id : Uuid) : List Action :=
  [.refresh (tokenOf id), .statement i .ok, .examine i, .statement i .ok, .work i .ok,
    .statement i .ok, .statement i .ok, .examine i]

end System

end VibeKanban.Auth
