import Mathlib

/-!
# Auth sessions and revoked refresh tokens (`remote/src/db/auth.rs`, lines 28-311)

The statements of `AuthSessionRepository`. Times are in microseconds, and `now` is the `NOW()` of
the transaction. The trigger `trg_auth_sessions_last_used_at` sets `last_used_at` in every update.
-/

namespace VibeKanban.Auth

open Function (update update_of_ne update_self)

abbrev Uuid := ℕ

abbrev Instant := ℤ

/-- What becomes of a statement. -/
inductive Answer where
  | ok
  | failed
  /-- it takes effect, and the caller gets an error -/
  | lost
  deriving DecidableEq

structure AuthSession where
  userId : Uuid
  createdAt : Instant
  lastUsedAt : Option Instant
  revokedAt : Option Instant
  refreshTokenId : Option Uuid
  refreshTokenIssuedAt : Option Instant
  previousRefreshTokenId : Option Uuid
  previousRefreshTokenGraceExpiresAt : Option Instant
  deriving DecidableEq

def day : ℤ := 86400 * 1000000

def maxSessionInactivityDuration : ℤ := 365 * day

namespace AuthSession

/-- `inactivity_duration` (`api-types/src/auth.rs`, lines 19-25). -/
def inactivityDuration (session : AuthSession) (now : Instant) : ℤ :=
  now - session.lastUsedAt.getD session.createdAt

/-- `is_previous_refresh_token_within_grace` (lines 300-310). -/
def isPreviousRefreshTokenWithinGrace (session : AuthSession) (token : Uuid) (now : Instant) :
    Bool :=
  session.previousRefreshTokenId = some token ∧
    session.previousRefreshTokenGraceExpiresAt.any (now < ·)

/-- The row that `create` inserts (lines 36-62). -/
def created (userId : Uuid) (refreshTokenId : Option Uuid) (now : Instant) : AuthSession :=
  { userId, refreshTokenId
    createdAt := now
    lastUsedAt := none
    revokedAt := none
    refreshTokenIssuedAt := none
    previousRefreshTokenId := none
    previousRefreshTokenGraceExpiresAt := none }

/-- `touch` (lines 88-103). -/
def touch (session : AuthSession) (now : Instant) : AuthSession :=
  if session.lastUsedAt.all (· < now - now % day) then { session with lastUsedAt := some now }
  else session

/-- The update of `rotate_tokens` (lines 116-130). -/
def rotate (session : AuthSession) (old new : Uuid) (now overlap : ℤ) : AuthSession :=
  { session with
    lastUsedAt := some now
    refreshTokenId := some new
    refreshTokenIssuedAt := some now
    previousRefreshTokenId := some old
    previousRefreshTokenGraceExpiresAt := some (now + overlap) }

/-- `set_current_refresh_token` (lines 159-179). -/
def setCurrentRefreshToken (session : AuthSession) (token : Uuid) (now : Instant) : AuthSession :=
  { session with
    lastUsedAt := some now
    refreshTokenId := some token
    refreshTokenIssuedAt := some now
    previousRefreshTokenId := none
    previousRefreshTokenGraceExpiresAt := none }

/-- The update of `revoke` (lines 287-298). -/
def revoke (session : AuthSession) (now : Instant) : AuthSession :=
  { session with lastUsedAt := some now, revokedAt := some now }

/-- The update of `revoke_auth_session` and `revoke_all_user_sessions` (lines 208-218, 253-263). -/
def revokeUnlessRevoked (session : AuthSession) (now : Instant) : AuthSession :=
  if session.revokedAt.isNone then session.revoke now else session

/-- The tokens that these two insert into `revoked_refresh_tokens`. -/
def tokens (session : AuthSession) : List Uuid :=
  session.refreshTokenId.toList ++ session.previousRefreshTokenId.toList

variable {session : AuthSession} {token : Uuid} {now : Instant}

@[simp] theorem touch_refreshTokenId :
    (session.touch now).refreshTokenId = session.refreshTokenId := by
  unfold touch
  split <;> rfl

@[simp] theorem touch_revokedAt : (session.touch now).revokedAt = session.revokedAt := by
  unfold touch
  split <;> rfl

theorem isPrevious_iff : session.isPreviousRefreshTokenWithinGrace token now = true ↔
    session.previousRefreshTokenId = some token ∧
      ∃ expires, session.previousRefreshTokenGraceExpiresAt = some expires ∧ now < expires := by
  unfold isPreviousRefreshTokenWithinGrace
  simp [Option.any_eq_true]

end AuthSession

/-- `auth_sessions` by their ids, and the token ids of `revoked_refresh_tokens`. -/
structure AuthTables where
  sessions : Uuid → Option AuthSession
  revokedRefreshTokens : List Uuid

namespace AuthTables

/-- `UPDATE auth_sessions … WHERE id = $1`. -/
def modify (t : AuthTables) (id : Uuid) (f : AuthSession → AuthSession) : AuthTables :=
  { t with sessions := update t.sessions id ((t.sessions id).map f) }

def create (t : AuthTables) (id userId : Uuid) (refreshTokenId : Option Uuid) (now : Instant) :
    AuthTables :=
  { t with sessions := update t.sessions id (some (.created userId refreshTokenId now)) }

/-- `rotate_tokens` (lines 105-157); `none` is `TokenReuseDetected`. -/
def rotateTokens (t : AuthTables) (id old new : Uuid) (now overlap : ℤ) : Option AuthTables :=
  (t.sessions id).bind fun session =>
    if session.refreshTokenId = some old then
      some ⟨update t.sessions id (some (session.rotate old new now overlap)),
        old :: t.revokedRefreshTokens⟩
    else none

/-- The commit of `revoke_auth_session`, with the tokens that its insert has selected
    (lines 181-222). -/
def revokeAuthSession (t : AuthTables) (id : Uuid) (tokens : List Uuid) (now : Instant) :
    AuthTables :=
  let t' := t.modify id (·.revokeUnlessRevoked now)
  { t' with revokedRefreshTokens := tokens ++ t'.revokedRefreshTokens }

/-- The commit of `revoke_all_user_sessions` (lines 224-269). -/
def revokeAllUserSessions (t : AuthTables) (userId : Uuid) (tokens : List Uuid) (now : Instant) :
    AuthTables :=
  ⟨fun id => (t.sessions id).map fun session =>
      if session.userId = userId then session.revokeUnlessRevoked now else session,
    tokens ++ t.revokedRefreshTokens⟩

/-- `is_refresh_token_revoked` (lines 271-285). -/
def isRefreshTokenRevoked (t : AuthTables) (token : Uuid) : Bool := token ∈ t.revokedRefreshTokens

variable {t t' : AuthTables} {id id' : Uuid} {f : AuthSession → AuthSession}
  {session session' : AuthSession}

theorem modify_some (h : t.sessions id = some session) :
    (t.modify id f).sessions id = some (f session) := by
  show update t.sessions id _ id = _
  rw [update_self, h, Option.map_some]

theorem modify_of_ne (h : id' ≠ id) : (t.modify id f).sessions id' = t.sessions id' :=
  update_of_ne h _ _

theorem rotateTokens_eq_some_iff {old new : Uuid} {now overlap : ℤ} :
    t.rotateTokens id old new now overlap = some t' ↔
      ∃ session, t.sessions id = some session ∧ session.refreshTokenId = some old ∧
        t' = ⟨update t.sessions id (some (session.rotate old new now overlap)),
          old :: t.revokedRefreshTokens⟩ := by
  unfold rotateTokens
  cases t.sessions id with
  | none => simp
  | some session =>
    simp only [Option.bind_some, Option.some.injEq, exists_eq_left']
    split_ifs with hcurrent
    · simp [hcurrent, eq_comm]
    · simp [hcurrent]

end AuthTables

end VibeKanban.Auth
