import VibeKanban.Auth.Sessions
import VibeKanban.Lib.Runs
import VibeKanban.Lib.Update

/-!
# The OAuth handoff (`remote/src/auth/handoff.rs`, lines 176-390, `remote/src/db/oauth.rs`,
# lines 142-292)

One handoff from its creation on, with any number of calls. Each statement is a step, which may
fail, or take effect without its answer; so are a call's work elsewhere and its looks at the clock.
Ids are fresh. The number of authorizations and the assigned tokens are not in the source.

* `handoff_single_use`: it is authorized and redeemed once at most, as long as the steps meet the
  condition.
-/

namespace VibeKanban.Auth.Handoff

open Lib Option Nat
open Function (update update_of_ne update_self)

/-! ## The handoff -/

inductive AuthorizationStatus where
  | pending
  | authorized
  | redeemed
  | error
  | expired
  deriving DecidableEq

/-- A row of `oauth_handoffs`. -/
structure OAuthHandoff where
  provider : String
  state : String
  appChallenge : String
  appCodeHash : Option String
  status : AuthorizationStatus
  errorCode : Option String
  expiresAt : Instant
  userId : Option Uuid
  sessionId : Option Uuid
  deriving DecidableEq

namespace OAuthHandoff

/-- `is_expired` (`handoff.rs`, lines 464-466). -/
def isExpired (record : OAuthHandoff) (now : Instant) : Bool := record.expiresAt ≤ now

/-- `set_status` (lines 206-229). -/
def setStatus (handoff : OAuthHandoff) (status : AuthorizationStatus) (errorCode : String) :
    OAuthHandoff :=
  { handoff with status, errorCode := some errorCode }

/-- `mark_authorized` (lines 231-256). -/
def markAuthorized (handoff : OAuthHandoff) (user session : Uuid) (appCodeHash : String) :
    OAuthHandoff :=
  { handoff with
    status := .authorized
    errorCode := none
    userId := some user
    sessionId := some session
    appCodeHash := some appCodeHash }

/-- `mark_redeemed` (lines 258-282); `none` is `AlreadyRedeemed`. -/
def markRedeemed (handoff : OAuthHandoff) : Option OAuthHandoff :=
  if handoff.status = .authorized then some { handoff with status := .redeemed } else none

end OAuthHandoff

/-- The registered providers with their names, and `hash_sha256_hex`. -/
structure Config where
  providers : String → Option String
  hash : String → String

inductive HandoffError where
  | unsupportedProvider (name : String)
  | notFound
  | expired
  | denied
  | failed (reason : String)
  | notAuthorized
  | alreadyRedeemed
  /-- of a provider, of the database, or about a user -/
  | other
  deriving DecidableEq

inductive Outcome where
  | url
  | callbackSuccess (appCode : String)
  | callbackError (error : String)
  | redeemed (session token : Uuid)
  | error (error : HandoffError)
  | dropped
  deriving DecidableEq

inductive Request where
  | authorizeUrl (provider : String)
  | handleCallback (provider : String) (state code error : Option String)
  | redeem (appCode appVerifier : String)

/-- How far a call has come: what it does next, and what it holds. -/
inductive Call where
  | authorizeUrl (provider : String)
  | authorizeRead (provider : String) (record : OAuthHandoff)
  | redirecting
  | callback (provider state : String) (code error : Option String)
  | callbackRead (provider : String) (code error : Option String) (record : OAuthHandoff)
  | refused (error : String)
  | identifying
  | creating (user : Uuid) (appCode : String)
  | authorizing (user session : Uuid) (appCode : String)
  | redeem (appCode appVerifier : String)
  | redeemable (appCode appVerifier : String)
  | redeemRead (appCode appVerifier : String) (record : OAuthHandoff)
  | redeemSession (session : Uuid)
  | redeemSessionRead (session : Uuid) (row : AuthSession)
  | revoking (session : Uuid)
  | issuing (session : Uuid)
  | assigning (session token : Uuid)
  | touching (session token : Uuid)
  | redeeming (session token : Uuid)
  | expiring
  | done (outcome : Outcome)
  deriving DecidableEq

/-- What the calls act on. -/
structure World where
  handoff : OAuthHandoff
  auth : AuthTables
  nextId : Uuid
  authorizations : ℕ
  /-- the call, the session and the token of each `set_current_refresh_token` -/
  assigned : List (ℕ × Uuid × Uuid)

namespace Call

/-- What a call does before its first statement. -/
def start (config : Config) : Request → Call
  | .authorizeUrl provider =>
    match config.providers provider with
    | none => .done (.error (.unsupportedProvider provider))
    | some name => .authorizeUrl name
  | .handleCallback provider state code error =>
    match config.providers provider with
    | none => .done (.error (.unsupportedProvider provider))
    | some name =>
      match state with
      | none => .done (.callbackError "missing_state")
      | some state => .callback name state code error
  | .redeem appCode appVerifier => .redeem appCode appVerifier

/-- `ensure_redeemable` on the row (`oauth.rs`, lines 284-292). -/
def ensureRedeemable (handoff : OAuthHandoff) (next : Call) : Call :=
  match handoff.status with
  | .authorized => next
  | .pending => .done (.error .notAuthorized)
  | _ => .done (.error .alreadyRedeemed)

/-- The next statement of a call, which it makes as number `i`. -/
def statement (w : World) (now : Instant) (config : Config) (i : ℕ) : Call → Option (World × Call)
  | .authorizeUrl provider => some (w, .authorizeRead provider w.handoff)
  | .callback provider state code error =>
    some (w, if w.handoff.state = state then .callbackRead provider code error w.handoff
      else .done (.error .notFound))
  | .refused error =>
    some ({ w with handoff := w.handoff.setStatus .error error }, .done (.callbackError error))
  | .creating user appCode =>
    some ({ w with auth := w.auth.create w.nextId user none now, nextId := w.nextId + 1 },
      .authorizing user w.nextId appCode)
  | .authorizing user session appCode =>
    some ({ w with
        handoff := w.handoff.markAuthorized user session (config.hash appCode)
        authorizations := w.authorizations + 1 },
      .done (.callbackSuccess appCode))
  | .redeem appCode appVerifier =>
    some (w, ensureRedeemable w.handoff (.redeemable appCode appVerifier))
  | .redeemable appCode appVerifier => some (w, .redeemRead appCode appVerifier w.handoff)
  | .redeemSession session =>
    match w.auth.sessions session with
    | none => some (w, .done (.error .notFound))
    | some row => some (w, .redeemSessionRead session row)
  | .revoking session =>
    some ({ w with auth := w.auth.modify session (·.revoke now) }, .done (.error .denied))
  | .assigning session token =>
    some ({ w with
        auth := w.auth.modify session (·.setCurrentRefreshToken token now)
        assigned := (i, session, token) :: w.assigned },
      .touching session token)
  | .touching session token =>
    some ({ w with auth := w.auth.modify session (·.touch now) }, .redeeming session token)
  | .redeeming session token =>
    match w.handoff.markRedeemed with
    | some handoff => some ({ w with handoff }, .done (.redeemed session token))
    | none => some (w, .done (.error .alreadyRedeemed))
  | .expiring =>
    some ({ w with handoff := w.handoff.setStatus .expired "expired" }, .done (.error .expired))
  | .authorizeRead .. | .redirecting | .callbackRead .. | .identifying | .redeemRead ..
  | .redeemSessionRead .. | .issuing _ | .done _ => none

/-- How a call goes on with what it has read. -/
def examine (config : Config) (now : Instant) : Call → Option Call
  | .authorizeRead provider record =>
    some <| if record.provider ≠ provider then .done (.error (.unsupportedProvider record.provider))
      else if record.isExpired now then .expiring
      else if record.status ≠ .pending then .done (.error (.failed "invalid_state"))
      else .redirecting
  | .callbackRead provider code error record =>
    some <| if record.provider ≠ provider then .done (.error (.unsupportedProvider record.provider))
      else if record.isExpired now then .expiring
      else
        match error, code with
        | some error, _ => .refused error
        | none, none => .done (.error (.failed "missing_code"))
        | none, some _ => .identifying
  | .redeemRead appCode appVerifier record =>
    some <| if record.isExpired now then .expiring
      else
        match record.appCodeHash with
        | none => .done (.error (.failed "missing_app_code"))
        | some expected =>
          if config.hash appCode ≠ expected then .done (.error (.failed "invalid_app_code"))
          else if config.hash appVerifier ≠ record.appChallenge then
            .done (.error (.failed "invalid_app_verifier"))
          else
            match record.sessionId, record.userId with
            | none, _ => .done (.error (.failed "missing_session"))
            | some _, none => .done (.error (.failed "missing_user"))
            | some session, some _ => .redeemSession session
  | .redeemSessionRead session row =>
    some <| if row.revokedAt.isSome then .done (.error .denied)
      else if maxSessionInactivityDuration < row.inactivityDuration now then .revoking session
      else .issuing session
  | _ => none

/-- What a call does elsewhere, with the user and the code for the app of a callback; `none`: it
    fails. -/
def work (w : World) (result : Option (Uuid × String)) : Call → Option (World × Call)
  | .redirecting => some (w, if result.isSome then .done .url else .done (.error .other))
  | .identifying =>
    match result with
    | some (user, appCode) => some (w, .creating user appCode)
    | none => some (w, .done (.error .other))
  | .issuing session =>
    match result with
    | some _ => some ({ w with nextId := w.nextId + 1 }, .assigning session w.nextId)
    | none => some (w, .done (.error .other))
  | _ => none

end Call

/-! ## Runs -/

structure System where
  world : World
  now : Instant
  calls : ℕ → Option Call
  started : ℕ

inductive Action where
  | tick (now : Instant)
  | call (request : Request)
  | statement (i : ℕ) (answer : Answer)
  | examine (i : ℕ)
  | work (i : ℕ) (result : Option (Uuid × String))
  | drop (i : ℕ)

namespace System

/-- The world changes, and call `i` goes on. -/
def proceed (s : System) (i : ℕ) (w : World) (c : Call) : System :=
  { s with world := w, calls := update s.calls i (some c) }

/-- What a call and its caller get. -/
def answered (s : System) (i : ℕ) (w : World) (c : Call) : Answer → System
  | .ok => s.proceed i w c
  | .failed => s.proceed i s.world (.done (.error .other))
  | .lost => s.proceed i w (.done (.error .other))

variable (config : Config) in
def step (s : System) : Action → Option System
  | .tick now => if s.now ≤ now then some { s with now } else none
  | .call request =>
    some { s with
      calls := update s.calls s.started (some (.start config request))
      started := s.started + 1 }
  | .statement i answer => (s.calls i).bind fun c =>
    (c.statement s.world s.now config i).map fun (w, c') => s.answered i w c' answer
  | .examine i => (s.calls i).bind fun c =>
    (c.examine config s.now).map fun c' => s.proceed i s.world c'
  | .work i result => (s.calls i).bind fun c =>
    (c.work s.world result).map fun (w, c') => s.proceed i w c'
  | .drop i => (s.calls i).bind fun c =>
    match c with
    | .done _ => none
    | _ => some (s.proceed i s.world (.done .dropped))

/-- The handoff has been created, and no call has started. -/
structure Initial (s : System) : Prop where
  status : s.world.handoff.status = .pending
  session : s.world.handoff.sessionId = none
  user : s.world.handoff.userId = none
  appCodeHash : s.world.handoff.appCodeHash = none
  authorizations : s.world.authorizations = 0
  assigned : s.world.assigned = []
  calls : ∀ i, s.calls i = none
  fresh : ∀ id, s.world.nextId ≤ id → s.world.auth.sessions id = none

end System

/-! ## What every run keeps -/

/-- The refresh token is the current one of its session, which is not revoked. -/
def World.Current (w : World) (session token : Uuid) : Prop :=
  ∃ row, w.auth.sessions session = some row ∧ row.refreshTokenId = some token ∧ row.revokedAt = none
  deriving Decidable

namespace Call

def session? : Call → Option Uuid
  | .authorizeRead _ record | .callbackRead _ _ _ record | .redeemRead _ _ record =>
    record.sessionId
  | .redeemSession session | .redeemSessionRead session _ | .revoking session | .issuing session
  | .assigning session _ | .touching session _ | .redeeming session _
  | .done (.redeemed session _) => some session
  | _ => none

def token? : Call → Option Uuid
  | .assigning _ token | .touching _ token | .redeeming _ token | .done (.redeemed _ token) =>
    some token
  | _ => none

def assigns? : Call → Option (Uuid × Uuid)
  | .touching session token | .redeeming session token | .done (.redeemed session token) =>
    some (session, token)
  | _ => none

def creates? : Call → Option Uuid
  | .authorizing _ session _ => some session
  | _ => none

end Call

/-- What a call holds is what the world says. -/
structure Fits (w : World) (i : ℕ) (c : Call) : Prop where
  session : ∀ session, c.session? = some session → w.handoff.sessionId = some session
  token : ∀ token, c.token? = some token → token < w.nextId
  creates : ∀ session, c.creates? = some session → session < w.nextId
  assigns : ∀ session token, c.assigns? = some (session, token) → (i, session, token) ∈ w.assigned
  assigned : ∀ entry ∈ w.assigned, entry.1 = i → c.assigns? ≠ none ∨ c = .done .dropped
  redeemed : ∀ session token, c = .done (.redeemed session token) →
    w.handoff.status = .redeemed ∧ w.Current session token

/-- What holds of the world alone. -/
structure World.Sound (w : World) : Prop where
  session : ∀ session, w.handoff.sessionId = some session → session < w.nextId
  authorizations : w.authorizations ≤ 1
  unauthorized : w.handoff.sessionId = none → w.authorizations = 0
  pending : w.handoff.status = .pending → w.handoff.sessionId = none
  authorized : w.handoff.status = .authorized ∨ w.handoff.status = .redeemed → w.authorizations = 1

/-- What every run of the condition keeps. -/
structure System.Consistent (s : System) : Prop where
  world : s.world.Sound
  fits : ∀ i c, s.calls i = some c → Fits s.world i c
  tokens : ∀ i j c c' token, s.calls i = some c → s.calls j = some c' →
    c.token? = some token → c'.token? = some token → i = j
  started : ∀ i, s.started ≤ i → s.calls i = none
  assigned : ∀ entry ∈ s.world.assigned, entry.1 < s.started
  redeemed : s.world.handoff.status = .redeemed →
    ∃ i session token, s.calls i = some (.done (.redeemed session token))

variable {config : Config} {s s' : System} {a : Action} {w w' : World} {i j : ℕ} {c c' : Call}

/-- What a step of call `j` leaves to the other calls. -/
structure Keeps (w w' : World) (j : ℕ) : Prop where
  session : ∀ session, w.handoff.sessionId = some session → w'.handoff.sessionId = some session
  nextId : w.nextId ≤ w'.nextId
  assigned : ∀ entry, entry ∈ w.assigned → entry ∈ w'.assigned
  assigns : ∀ entry, entry ∈ w'.assigned → entry ∈ w.assigned ∨ entry.1 = j
  redeemed : w.handoff.status = .redeemed → w'.handoff.status = .redeemed
  current : w.handoff.status = .redeemed → ∀ session token,
    w.handoff.sessionId = some session → w.Current session token → w'.Current session token

open Call

theorem Keeps.refl (w : World) (j : ℕ) : Keeps w w j :=
  ⟨fun _ h => h, le_refl _, fun _ h => h, fun _ => .inl, fun h => h, fun _ _ _ _ h => h⟩

theorem Fits.keeps (h : Fits w i c) (hkeeps : Keeps w w' j) (hne : i ≠ j) : Fits w' i c := by
  refine ⟨fun session hs => hkeeps.session session (h.session session hs),
    fun token ht => lt_of_lt_of_le (h.token token ht) hkeeps.nextId,
    fun session hs => lt_of_lt_of_le (h.creates session hs) hkeeps.nextId,
    fun session token ha => hkeeps.assigned _ (h.assigns session token ha),
    fun entry hentry heq => ?_, fun session token hc => ?_⟩
  · rcases hkeeps.assigns entry hentry with hentry | hj
    · exact h.assigned entry hentry heq
    · exact absurd (heq.symm.trans hj) hne
  · obtain ⟨hstatus, hcurrent⟩ := h.redeemed session token hc
    have hsession := h.session session (by rw [hc]; rfl)
    exact ⟨hkeeps.redeemed hstatus, hkeeps.current hstatus session token hsession hcurrent⟩

theorem Fits.move (h : Fits w i c) (hc : c.assigns? = none) (hdropped : c ≠ .done .dropped)
    (hsession : ∀ session, c'.session? = some session → w.handoff.sessionId = some session)
    (hcreates : c'.creates? = none) (htoken : c'.token? = none) (hc' : c'.assigns? = none) :
    Fits w i c' := by
  refine ⟨hsession, fun token ht => ?_, fun session hs => ?_, fun session token ha => ?_,
    fun entry hentry heq => ?_, fun session token heq => ?_⟩
  · rw [htoken] at ht
    cases ht
  · rw [hcreates] at hs
    cases hs
  · rw [hc'] at ha
    cases ha
  · rcases h.assigned entry hentry heq with hne | hdone
    · exact absurd hc hne
    · exact absurd hdone hdropped
  · rw [heq] at htoken
    cases htoken

theorem Fits.drop (i : ℕ) : Fits w i (.done .dropped) :=
  ⟨nofun, nofun, nofun, nofun, fun _ _ _ => .inr rfl, nofun⟩

/-- Call `i` goes from `c` to `c'`, and the world from `w` to `w'`. -/
structure Advance (w w' : World) (i : ℕ) (c c' : Call) : Prop where
  keeps : Keeps w w' i
  sound : w'.Sound
  fits : Fits w' i c'
  token : ∀ token, c'.token? = some token → c.token? = some token ∨ token = w.nextId
  unfinished : ∀ outcome, c ≠ .done outcome
  redeemed : w'.handoff.status = .redeemed → w.handoff.status = .redeemed ∨
    ∃ session token, c' = .done (.redeemed session token)

namespace System

theorem proceed_cases (s : System) {i j : ℕ} {w : World} {c x : Call}
    (h : (s.proceed i w c).calls j = some x) : j = i ∧ x = c ∨ j ≠ i ∧ s.calls j = some x :=
  update_cases h

theorem proceed_of_ne (s : System) {w : World} (hj : j ≠ i) :
    (s.proceed i w c).calls j = s.calls j := update_of_ne hj _ _

theorem Consistent.lt_started (h : s.Consistent) (hc : s.calls i = some c) : i < s.started := by
  by_contra hge
  rw [h.started i (Nat.le_of_not_lt hge)] at hc
  cases hc

theorem Consistent.proceed (h : s.Consistent) (hc : s.calls i = some c)
    (hadvance : Advance s.world w i c c') : (s.proceed i w c').Consistent := by
  have hfits : ∀ j x, (s.proceed i w c').calls j = some x → Fits w j x := by
    intro j x hx
    rcases s.proceed_cases hx with ⟨rfl, rfl⟩ | ⟨hj, hx⟩
    · exact hadvance.fits
    · exact (h.fits j x hx).keeps hadvance.keeps hj
  -- a token that is new differs from the others
  have htoken : ∀ j x token, j ≠ i → s.calls j = some x → x.token? = some token →
      c'.token? ≠ some token := by
    intro j x token hj hx ht ht'
    rcases hadvance.token token ht' with ht' | rfl
    · exact hj (h.tokens j i x c token hx hc ht ht')
    · exact lt_irrefl _ ((h.fits j x hx).token _ ht)
  refine ⟨hadvance.sound, hfits, fun j k x y token hx hy ht ht' => ?_, fun j hj => ?_,
    fun entry hentry => ?_, fun hredeemed => ?_⟩
  · rcases s.proceed_cases hx with ⟨rfl, rfl⟩ | ⟨hj, hxj⟩
    · rcases s.proceed_cases hy with ⟨rfl, rfl⟩ | ⟨hk, hyk⟩
      · rfl
      · exact absurd ht (htoken k y token hk hyk ht')
    · rcases s.proceed_cases hy with ⟨rfl, rfl⟩ | ⟨hk, hyk⟩
      · exact absurd ht' (htoken j x token hj hxj ht)
      · exact h.tokens j k x y token hxj hyk ht ht'
  · have hlt := h.lt_started hc
    rw [s.proceed_of_ne (ne_of_gt (lt_of_lt_of_le hlt hj))]
    exact h.started j hj
  · rcases hadvance.keeps.assigns entry hentry with hentry | heq
    · exact h.assigned entry hentry
    · rw [heq]
      exact h.lt_started hc
  · rcases hadvance.redeemed hredeemed with hredeemed | ⟨session, token, rfl⟩
    · obtain ⟨j, session, token, hj⟩ := h.redeemed hredeemed
      have hne : j ≠ i := by
        rintro rfl
        rw [hc, some.injEq] at hj
        exact hadvance.unfinished _ hj
      exact ⟨j, session, token, (s.proceed_of_ne hne).trans hj⟩
    · exact ⟨i, session, token, update_self _ _ _⟩

end System

/-! ## The condition -/

def AuthorizationStatus.Final (status : AuthorizationStatus) : Prop :=
  status = .redeemed ∨ status = .error ∨ status = .expired
  deriving Decidable

def MeetsStatement (w : World) (answer : Answer) : Call → Prop
  | .authorizing .. => answer ≠ .failed → w.handoff.status = .pending
  | .expiring => answer ≠ .failed → w.handoff.status.Final → w.handoff.status = .expired
  | .refused _ => answer ≠ .failed → w.handoff.status.Final → w.handoff.status = .error
  | .revoking _ => answer ≠ .failed → w.handoff.status ≠ .redeemed
  | .assigning .. => answer ≠ .lost ∧ (answer = .ok → w.handoff.status ≠ .redeemed)
  | .touching .. => answer = .ok
  | .redeeming session token =>
    answer = .ok ∧ w.handoff.status = .authorized ∧ w.Current session token
  | _ => True

def System.Meets (s : System) : Action → Prop
  | .statement i answer => ∀ c, s.calls i = some c → MeetsStatement s.world answer c
  | _ => True

/-! ## Steps that meet the condition -/

theorem Advance.same (hw : w.Sound) (hfits : Fits w i c') (hdone : ∀ outcome, c ≠ .done outcome)
    (htoken : c'.token? = none) : Advance w w i c c' := by
  refine ⟨.refl w i, hw, hfits, fun token ht => ?_, hdone, .inl⟩
  rw [htoken] at ht
  cases ht

theorem Advance.read (hw : w.Sound) (h : Fits w i c) (hc : c.assigns? = none)
    (hdone : ∀ outcome, c ≠ .done outcome)
    (hsession : ∀ session, c'.session? = some session → w.handoff.sessionId = some session)
    (hcreates : c'.creates? = none) (htoken : c'.token? = none) (hc' : c'.assigns? = none) :
    Advance w w i c c' :=
  .same hw (h.move hc (hdone _) hsession hcreates htoken hc') hdone htoken

theorem Advance.error {error : HandoffError} (h : Advance w w' i c c') (hc' : c'.assigns? = none)
    (hdropped : c' ≠ .done .dropped) : Advance w w' i c (.done (.error error)) := by
  refine ⟨h.keeps, h.sound, h.fits.move hc' hdropped nofun rfl rfl rfl,
    nofun, h.unfinished, fun hredeemed => ?_⟩
  rcases h.redeemed hredeemed with hredeemed | ⟨session, token, rfl⟩
  · exact .inl hredeemed
  · cases hc'

theorem advance_setStatus {status : AuthorizationStatus} {error : String} (hw : w.Sound)
    (h : Fits w i c) (hc : c.assigns? = none) (hdone : ∀ outcome, c ≠ .done outcome)
    (hstatus : status = .error ∨ status = .expired)
    (hmeets : w.handoff.status.Final → w.handoff.status = status)
    (hsession : c'.session? = none) (hcreates : c'.creates? = none) (htoken : c'.token? = none)
    (hc' : c'.assigns? = none) :
    Advance w { w with handoff := w.handoff.setStatus status error } i c c' := by
  have hnot : w.handoff.status ≠ .redeemed := by
    intro hredeemed
    have heq := hmeets (.inl hredeemed)
    rw [hredeemed] at heq
    rcases hstatus with rfl | rfl <;> cases heq
  have hkeeps : Keeps w { w with handoff := w.handoff.setStatus status error } i :=
    ⟨fun _ h => h, le_refl _, fun _ h => h, fun _ => .inl, fun h => absurd h hnot,
      fun h => absurd h hnot⟩
  have hne : status ≠ .pending ∧ status ≠ .authorized ∧ status ≠ .redeemed := by
    rcases hstatus with rfl | rfl <;> simp
  refine ⟨hkeeps, ⟨hw.session, hw.authorizations, hw.unauthorized, fun h => absurd h hne.1,
    fun h => ?_⟩, ?_, fun token ht => ?_, hdone, fun h => absurd h hne.2.2⟩
  · exact absurd h (not_or.2 hne.2)
  · have hfits : Fits w i c' := h.move hc (hdone _) (fun session hs => ?_) hcreates htoken hc'
    · exact ⟨hfits.session, hfits.token, hfits.creates, hfits.assigns, hfits.assigned,
        fun session token heq => by rw [heq] at hc'; cases hc'⟩
    · rw [hsession] at hs
      cases hs
  · rw [htoken] at ht
    cases ht

namespace World

variable {session token : Uuid}

theorem Current.of_sessions (h : w.Current session token)
    (heq : w'.auth.sessions session = w.auth.sessions session) : w'.Current session token := by
  unfold Current
  rw [heq]
  exact h

theorem Current.touch (h : w.Current session token) (session' : Uuid) (now : Instant) :
    { w with auth := w.auth.modify session' (·.touch now) }.Current session token := by
  by_cases hne : session = session'
  · subst hne
    obtain ⟨row, hrow, htoken, hrevoked⟩ := h
    exact ⟨row.touch now, AuthTables.modify_some hrow, by simpa using htoken,
      by simpa using hrevoked⟩
  · exact h.of_sessions (AuthTables.modify_of_ne hne)

end World

variable {now : Instant} {user : Uuid} {appCode : String}

theorem advance_creating (hw : w.Sound) (h : Fits w i (.creating user appCode)) :
    Advance w { w with
        auth := w.auth.create w.nextId user none now
        nextId := w.nextId + 1 } i (.creating user appCode)
      (.authorizing user w.nextId appCode) := by
  refine ⟨⟨fun _ h => h, le_succ _, fun _ h => h, fun _ => .inl, fun h => h,
      fun _ session token hsession hcurrent => ?_⟩,
    ⟨fun session hs => lt_succ_of_lt (hw.session session hs), hw.authorizations,
      hw.unauthorized, hw.pending, hw.authorized⟩, ?_, nofun, nofun, .inl⟩
  · exact hcurrent.of_sessions (update_of_ne (Nat.ne_of_lt (hw.session session hsession)) _ _)
  · refine ⟨nofun, nofun, fun session heq => ?_, nofun, fun entry hentry heq => ?_, nofun⟩
    · cases heq
      exact lt_succ_self _
    · rcases h.assigned entry hentry heq with hne | hdone
      · exact absurd rfl hne
      · cases hdone

variable {session : Uuid} {hash : String}

theorem advance_authorizing (hw : w.Sound)
    (h : Fits w i (.authorizing user session appCode)) (hpending : w.handoff.status = .pending) :
    Advance w { w with
        handoff := w.handoff.markAuthorized user session hash
        authorizations := w.authorizations + 1 } i (.authorizing user session appCode)
      (.done (.callbackSuccess appCode)) := by
  have hnone := hw.pending hpending
  have hzero := hw.unauthorized hnone
  refine ⟨⟨fun session' hs => ?_, le_refl _, fun _ h => h, fun _ => .inl, fun hredeemed => ?_,
      fun hredeemed => ?_⟩, ⟨fun session' hs => ?_, ?_, nofun, nofun, fun _ => ?_⟩, ?_,
    nofun, nofun, nofun⟩
  · rw [hnone] at hs
    cases hs
  · rw [hpending] at hredeemed
    cases hredeemed
  · rw [hpending] at hredeemed
    cases hredeemed
  · cases hs
    exact h.creates session rfl
  · show w.authorizations + 1 ≤ 1
    omega
  · show w.authorizations + 1 = 1
    omega
  · refine ⟨nofun, nofun, nofun, nofun, fun entry hentry heq => ?_, nofun⟩
    rcases h.assigned entry hentry heq with hne | hdone
    · exact absurd rfl hne
    · cases hdone

theorem advance_revoking (hw : w.Sound)
    (h : Fits w i (.revoking session)) (hstatus : w.handoff.status ≠ .redeemed) :
    Advance w { w with auth := w.auth.modify session (·.revoke now) } i (.revoking session)
      (.done (.error .denied)) := by
  refine ⟨⟨fun _ h => h, le_refl _, fun _ h => h, fun _ => .inl, fun h => h,
      fun h => absurd h hstatus⟩,
    ⟨hw.session, hw.authorizations, hw.unauthorized, hw.pending, hw.authorized⟩, ?_,
    nofun, nofun, .inl⟩
  refine ⟨nofun, nofun, nofun, nofun, fun entry hentry heq => ?_, nofun⟩
  rcases h.assigned entry hentry heq with hne | hdone
  · exact absurd rfl hne
  · cases hdone

variable {token : Uuid} {answer : Answer}

theorem advance_assigning (hw : w.Sound)
    (h : Fits w i (.assigning session token)) (hstatus : w.handoff.status ≠ .redeemed) :
    Advance w { w with
        auth := w.auth.modify session (·.setCurrentRefreshToken token now)
        assigned := (i, session, token) :: w.assigned } i (.assigning session token)
      (.touching session token) := by
  refine ⟨⟨fun _ h => h, le_refl _, fun _ => List.mem_cons_of_mem _, fun entry hentry => ?_,
      fun h => h, fun h => absurd h hstatus⟩,
    ⟨hw.session, hw.authorizations, hw.unauthorized, hw.pending, hw.authorized⟩, ?_,
    fun _ heq => .inl heq, nofun, .inl⟩
  · rcases List.mem_cons.1 hentry with rfl | hentry
    · exact .inr rfl
    · exact .inl hentry
  · refine ⟨h.session, h.token, nofun, fun session' token' heq => ?_,
      fun entry hentry heq => .inl nofun, nofun⟩
    cases heq
    exact List.mem_cons_self

theorem advance_touching (hw : w.Sound) (h : Fits w i (.touching session token)) :
    Advance w { w with auth := w.auth.modify session (·.touch now) } i (.touching session token)
      (.redeeming session token) :=
  ⟨⟨fun _ h => h, le_refl _, fun _ h => h, fun _ => .inl, fun h => h,
      fun _ _ _ _ hcurrent => hcurrent.touch session now⟩,
    ⟨hw.session, hw.authorizations, hw.unauthorized, hw.pending, hw.authorized⟩,
    ⟨h.session, h.token, nofun, h.assigns, fun _ _ _ => .inl nofun, nofun⟩,
    fun _ heq => .inl heq, nofun, .inl⟩

theorem advance_redeeming (hw : w.Sound)
    (h : Fits w i (.redeeming session token)) (hstatus : w.handoff.status = .authorized)
    (hcurrent : w.Current session token) :
    Advance w { w with handoff := { w.handoff with status := .redeemed } } i
      (.redeeming session token) (.done (.redeemed session token)) := by
  refine ⟨⟨fun _ h => h, le_refl _, fun _ h => h, fun _ => .inl, fun _ => rfl,
      fun _ _ _ _ hcurrent => hcurrent⟩, ⟨hw.session, hw.authorizations, hw.unauthorized, nofun,
      fun _ => hw.authorized (.inl hstatus)⟩, ⟨h.session, h.token, nofun, h.assigns,
      fun _ _ _ => .inl nofun, fun session' token' heq => ?_⟩,
    fun _ heq => .inl heq, nofun, fun _ => .inr ⟨session, token, rfl⟩⟩
  cases heq
  exact ⟨rfl, hcurrent⟩

theorem ensureRedeemable_cases (handoff : OAuthHandoff) (next : Call) :
    ensureRedeemable handoff next = next ∨
      ∃ error, ensureRedeemable handoff next = .done (.error error) := by
  unfold ensureRedeemable
  split
  · exact .inl rfl
  all_goals exact .inr ⟨_, rfl⟩

theorem advance_statement (hw : w.Sound) (h : Fits w i c)
    (hmeets : MeetsStatement w answer c) (hanswer : answer ≠ .failed)
    (hstatement : c.statement w now config i = some (w', c')) : Advance w w' i c c' := by
  cases c with
  | authorizeUrl provider | redeemable appCode appVerifier =>
    cases hstatement
    exact .read hw h rfl nofun (fun _ hs => hs) rfl rfl rfl
  | callback provider state code error =>
    cases hstatement
    split_ifs
    · exact .read hw h rfl nofun (fun _ hs => hs) rfl rfl rfl
    · exact .read hw h rfl nofun nofun rfl rfl rfl
  | refused error =>
    cases hstatement
    exact advance_setStatus hw h rfl nofun (.inl rfl) (hmeets hanswer) rfl rfl rfl rfl
  | creating user appCode =>
    cases hstatement
    exact advance_creating hw h
  | authorizing user session appCode =>
    cases hstatement
    exact advance_authorizing hw h (hmeets hanswer)
  | redeem appCode appVerifier =>
    cases hstatement
    rcases ensureRedeemable_cases w.handoff (.redeemable appCode appVerifier) with heq | ⟨e, heq⟩
    all_goals
      rw [heq]
      exact .read hw h rfl nofun nofun rfl rfl rfl
  | redeemSession session =>
    simp only [statement] at hstatement
    split at hstatement <;> cases hstatement
    · exact .read hw h rfl nofun nofun rfl rfl rfl
    · exact .read hw h rfl nofun h.session rfl rfl rfl
  | revoking session =>
    cases hstatement
    exact advance_revoking hw h (hmeets hanswer)
  | assigning session token =>
    cases hstatement
    refine advance_assigning hw h (hmeets.2 ?_)
    cases answer with
    | ok => rfl
    | failed => exact absurd rfl hanswer
    | lost => exact absurd rfl hmeets.1
  | touching session token =>
    cases hstatement
    exact advance_touching hw h
  | redeeming session token =>
    obtain ⟨-, hstatus, hcurrent⟩ := hmeets
    simp only [statement, OAuthHandoff.markRedeemed, hstatus, if_true] at hstatement
    cases hstatement
    exact advance_redeeming hw h hstatus hcurrent
  | expiring =>
    cases hstatement
    exact advance_setStatus hw h rfl nofun (.inr rfl) (hmeets hanswer) rfl rfl rfl rfl
  | _ => cases hstatement

theorem advance_examine (hw : w.Sound) (h : Fits w i c)
    (hexamine : c.examine config now = some c') : Advance w w i c c' := by
  cases c with
  | authorizeRead provider record =>
    cases hexamine
    split_ifs
    all_goals
      exact .read hw h rfl nofun nofun rfl rfl rfl
  | callbackRead provider code error record =>
    cases hexamine
    repeat' split
    all_goals exact .read hw h rfl nofun nofun rfl rfl rfl
  | redeemRead appCode appVerifier record =>
    have hleave : ∀ c' : Call, c'.session? = none → c'.creates? = none → c'.token? = none →
        c'.assigns? = none → Advance w w i (.redeemRead appCode appVerifier record) c' := by
      intro c' hsession hcreates htoken hassigns
      refine .read hw h rfl nofun (fun session heq => ?_) hcreates htoken hassigns
      rw [hsession] at heq
      cases heq
    cases hexamine
    repeat' split
    all_goals first
      | exact hleave _ rfl rfl rfl rfl
      | refine .read hw h rfl nofun (fun session heq => ?_) rfl rfl rfl
        cases heq
        exact h.session _ ‹record.sessionId = _›
  | redeemSessionRead session row =>
    cases hexamine
    split_ifs
    · exact .read hw h rfl nofun nofun rfl rfl rfl
    all_goals exact .read hw h rfl nofun h.session rfl rfl rfl
  | _ => cases hexamine

theorem advance_issuing (hw : w.Sound) (h : Fits w i (.issuing session)) :
    Advance w { w with nextId := w.nextId + 1 } i (.issuing session)
      (.assigning session w.nextId) := by
  refine ⟨⟨fun _ h => h, le_succ _, fun _ h => h, fun _ => .inl, fun h => h, fun _ _ _ _ h => h⟩,
    ⟨fun session hs => lt_succ_of_lt (hw.session session hs), hw.authorizations,
      hw.unauthorized, hw.pending, hw.authorized⟩, ?_, fun token ht => ?_, nofun, .inl⟩
  · refine ⟨h.session, fun token ht => ?_, nofun, nofun, fun entry hentry heq => ?_, nofun⟩
    · cases ht
      exact lt_succ_self _
    · rcases h.assigned entry hentry heq with hne | hdone
      · exact absurd rfl hne
      · cases hdone
  · cases ht
    exact .inr rfl

theorem advance_work {result : Option (Uuid × String)} (hw : w.Sound) (h : Fits w i c)
    (hwork : c.work w result = some (w', c')) : Advance w w' i c c' := by
  cases c with
  | redirecting =>
    cases hwork
    split_ifs
    all_goals
      exact .read hw h rfl nofun nofun rfl rfl rfl
  | identifying =>
    simp only [work] at hwork
    split at hwork
    all_goals
      cases hwork
      exact .read hw h rfl nofun nofun rfl rfl rfl
  | issuing session =>
    simp only [work] at hwork
    split at hwork <;> cases hwork
    · exact advance_issuing hw h
    · exact .read hw h rfl nofun nofun rfl rfl rfl
  | _ => cases hwork

theorem advance_answered (hw : w.Sound) (h : Fits w i c) (hmeets : MeetsStatement w answer c)
    (hstatement : c.statement w now config i = some (w', c')) :
    match answer with
    | .ok => Advance w w' i c c'
    | .failed => Advance w w i c (.done (.error .other))
    | .lost => Advance w w' i c (.done (.error .other)) := by
  have hdone : ∀ outcome, c ≠ .done outcome := by
    rintro outcome rfl
    cases hstatement
  cases answer with
  | ok => exact advance_statement hw h hmeets nofun hstatement
  | failed =>
    have hc : c.assigns? = none := by
      cases c with
      | touching session token => cases hmeets
      | redeeming session token => cases hmeets.1
      | done outcome => exact absurd rfl (hdone outcome)
      | _ => rfl
    exact .read hw h hc hdone nofun rfl rfl rfl
  | lost =>
    have hadvance := advance_statement hw h hmeets nofun hstatement
    have hc : c'.assigns? = none ∧ c' ≠ .done .dropped := by
      cases c with
      | assigning session token => exact absurd rfl hmeets.1
      | touching session token => cases hmeets
      | redeeming session token => cases hmeets.1
      | callback provider state code error =>
        cases hstatement
        split_ifs <;> exact ⟨rfl, nofun⟩
      | redeem appCode appVerifier =>
        cases hstatement
        rcases ensureRedeemable_cases w.handoff (.redeemable appCode appVerifier) with
          heq | ⟨e, heq⟩
        all_goals
          rw [heq]
          exact ⟨rfl, nofun⟩
      | redeemSession session =>
        simp only [statement] at hstatement
        split at hstatement <;> cases hstatement <;> exact ⟨rfl, nofun⟩
      | authorizeUrl | refused | creating | authorizing | redeemable | revoking | expiring =>
        cases hstatement
        exact ⟨rfl, nofun⟩
      | _ => cases hstatement
    exact hadvance.error hc.1 hc.2

namespace System

variable (config) in
theorem start_facts (request : Request) : (start config request).session? = none ∧
    (start config request).creates? = none ∧ (start config request).token? = none ∧
    (start config request).assigns? = none ∧
    ∀ session token, start config request ≠ .done (.redeemed session token) := by
  unfold start
  split
  · split <;> exact ⟨rfl, rfl, rfl, rfl, nofun⟩
  · split
    · exact ⟨rfl, rfl, rfl, rfl, nofun⟩
    · split <;> exact ⟨rfl, rfl, rfl, rfl, nofun⟩
  · exact ⟨rfl, rfl, rfl, rfl, nofun⟩

theorem Consistent.call (h : s.Consistent) (request : Request)
    (hstep : s.step config (.call request) = some s') : s'.Consistent := by
  cases hstep
  obtain ⟨hsession, hcreates, htoken, hassigns, hredeemed⟩ := start_facts config request
  have hcases : ∀ j x, update s.calls s.started (some (.start config request)) j = some x →
      j = s.started ∧ x = .start config request ∨ j ≠ s.started ∧ s.calls j = some x :=
    fun _ _ hx => update_cases hx
  refine ⟨h.world, fun j x hx => ?_, fun j k x y token hx hy ht ht' => ?_, fun j hj => ?_,
    fun entry hentry => lt_succ_of_lt (h.assigned entry hentry), fun hstatus => ?_⟩
  · rcases hcases j x hx with ⟨rfl, rfl⟩ | ⟨-, hx⟩
    · refine ⟨fun _ heq => ?_, fun _ heq => ?_, fun _ heq => ?_, fun _ _ heq => ?_,
        fun entry hentry heq => ?_, fun session token heq => ?_⟩
      · rw [hsession] at heq
        cases heq
      · rw [htoken] at heq
        cases heq
      · rw [hcreates] at heq
        cases heq
      · rw [hassigns] at heq
        cases heq
      · exact absurd heq (Nat.ne_of_lt (h.assigned entry hentry))
      · exact absurd heq (hredeemed session token)
    · exact h.fits j x hx
  · rcases hcases j x hx with ⟨rfl, rfl⟩ | ⟨-, hxj⟩
    · rw [htoken] at ht
      cases ht
    · rcases hcases k y hy with ⟨rfl, rfl⟩ | ⟨-, hyk⟩
      · rw [htoken] at ht'
        cases ht'
      · exact h.tokens j k x y token hxj hyk ht ht'
  · have hne : j ≠ s.started := ne_of_gt hj
    show update s.calls s.started _ j = none
    rw [update_of_ne hne]
    exact h.started j (le_of_succ_le hj)
  · obtain ⟨j, session, token, hj⟩ := h.redeemed hstatus
    exact ⟨j, session, token, (update_of_ne (Nat.ne_of_lt (h.lt_started hj)) _ _).trans hj⟩

theorem Consistent.step (h : s.Consistent) (hmeets : s.Meets a)
    (hstep : s.step config a = some s') : s'.Consistent := by
  cases a with
  | tick now =>
    simp only [System.step] at hstep
    split_ifs at hstep
    cases hstep
    exact ⟨h.world, h.fits, h.tokens, h.started, h.assigned, h.redeemed⟩
  | call request => exact h.call request hstep
  | statement i answer =>
    obtain ⟨c, hc, hstep⟩ := bind_eq_some_iff.1 hstep
    obtain ⟨⟨w, c'⟩, hstatement, rfl⟩ := map_eq_some_iff.1 hstep
    have hadvance := advance_answered h.world (h.fits i c hc) (hmeets c hc) hstatement
    cases answer with
    | ok | failed | lost => exact h.proceed hc hadvance
  | examine i =>
    obtain ⟨c, hc, hstep⟩ := bind_eq_some_iff.1 hstep
    obtain ⟨c', hexamine, rfl⟩ := map_eq_some_iff.1 hstep
    exact h.proceed hc (advance_examine h.world (h.fits i c hc) hexamine)
  | work i result =>
    obtain ⟨c, hc, hstep⟩ := bind_eq_some_iff.1 hstep
    obtain ⟨⟨w, c'⟩, hwork, rfl⟩ := map_eq_some_iff.1 hstep
    exact h.proceed hc (advance_work h.world (h.fits i c hc) hwork)
  | drop i =>
    obtain ⟨c, hc, hstep⟩ := bind_eq_some_iff.1 hstep
    split at hstep <;> cases hstep
    rename_i hdone
    exact h.proceed hc (.same h.world (.drop i) hdone rfl)

/-! ## Single use -/

/-- The handoff has been authorized once at most, one redeem at most has returned tokens, which are
    the current ones, and no redeem that has returned an error has assigned any. -/
structure Good (s : System) : Prop where
  authorized : s.world.authorizations ≤ 1
  redeemed : ∀ i j session token session' token',
    s.calls i = some (.done (.redeemed session token)) →
    s.calls j = some (.done (.redeemed session' token')) → i = j
  failed : ∀ i session token error, (i, session, token) ∈ s.world.assigned →
    s.calls i ≠ some (.done (.error error))
  current : ∀ i session token, s.calls i = some (.done (.redeemed session token)) →
    s.world.Current session token

def KeepsFinal (s s' : System) : Prop :=
  s.world.handoff.status.Final → s'.world.handoff.status = s.world.handoff.status

theorem Consistent.good (h : s.Consistent) : s.Good := by
  refine ⟨h.world.authorizations, fun i j session token session' token' hi hj => ?_,
    fun i session token error hentry hi => ?_, fun i session token hi =>
      ((h.fits i _ hi).redeemed session token rfl).2⟩
  · obtain ⟨-, row, hrow, htoken, -⟩ := (h.fits i _ hi).redeemed session token rfl
    obtain ⟨-, row', hrow', htoken', -⟩ := (h.fits j _ hj).redeemed session' token' rfl
    have hsession := (h.fits i _ hi).session session rfl
    rw [(h.fits j _ hj).session session' rfl, some.injEq] at hsession
    rw [hsession, hrow, some.injEq] at hrow'
    rw [← hrow', htoken, some.injEq] at htoken'
    exact h.tokens i j _ _ token hi hj rfl (congrArg some htoken'.symm)
  · rcases (h.fits i _ hi).assigned _ hentry rfl with hne | heq
    · exact hne rfl
    · cases heq

theorem statement_final {now : Instant} (hmeets : MeetsStatement w answer c)
    (hanswer : answer ≠ .failed) (hfinal : w.handoff.status.Final)
    (hstatement : c.statement w now config i = some (w', c')) :
    w'.handoff.status = w.handoff.status := by
  cases c with
  | refused error | expiring =>
    cases hstatement
    exact (hmeets hanswer hfinal).symm
  | authorizing user session appCode =>
    rw [hmeets hanswer] at hfinal
    rcases hfinal with heq | heq | heq <;> cases heq
  | redeeming session token =>
    rw [hmeets.2.1] at hfinal
    rcases hfinal with heq | heq | heq <;> cases heq
  | redeemSession session =>
    simp only [statement] at hstatement
    split at hstatement <;> cases hstatement <;> rfl
  | authorizeUrl | callback | creating | redeem | redeemable | revoking | assigning | touching =>
    cases hstatement
    rfl
  | _ => cases hstatement

theorem keepsFinal_of_meets (hmeets : s.Meets a) (hstep : s.step config a = some s') :
    KeepsFinal s s' := by
  intro hfinal
  cases a with
  | tick now =>
    simp only [System.step] at hstep
    split_ifs at hstep
    cases hstep
    rfl
  | call request =>
    cases hstep
    rfl
  | statement i answer =>
    obtain ⟨c, hc, hstep⟩ := bind_eq_some_iff.1 hstep
    obtain ⟨⟨w, c'⟩, hstatement, rfl⟩ := map_eq_some_iff.1 hstep
    cases answer with
    | ok | lost => exact statement_final (hmeets c hc) nofun hfinal hstatement
    | failed => rfl
  | examine i =>
    obtain ⟨c, hc, hstep⟩ := bind_eq_some_iff.1 hstep
    obtain ⟨c', hexamine, rfl⟩ := map_eq_some_iff.1 hstep
    rfl
  | work i result =>
    obtain ⟨c, hc, hstep⟩ := bind_eq_some_iff.1 hstep
    obtain ⟨⟨w, c'⟩, hwork, rfl⟩ := map_eq_some_iff.1 hstep
    cases c with
    | redirecting =>
      cases hwork
      rfl
    | identifying | issuing session =>
      simp only [work] at hwork
      split at hwork <;> cases hwork <;> rfl
    | _ => cases hwork
  | drop i =>
    obtain ⟨c, hc, hstep⟩ := bind_eq_some_iff.1 hstep
    split at hstep <;> cases hstep
    rfl

/-! ### Steps that do not meet the condition -/

theorem Consistent.meets_authorizing {session : Uuid}
    (h : s.Consistent) (hgood : s.world.authorizations + 1 ≤ 1)
    (hfinal : s.world.handoff.status.Final →
      (s.world.handoff.markAuthorized user session hash).status = s.world.handoff.status) :
    s.world.handoff.status = .pending := by
  cases hstatus : s.world.handoff.status with
  | pending => rfl
  | authorized =>
    have hone := h.world.authorized (.inl hstatus)
    omega
  | redeemed =>
    have heq := hfinal (.inl hstatus)
    rw [hstatus] at heq
    cases heq
  | error =>
    have heq := hfinal (.inr (.inl hstatus))
    rw [hstatus] at heq
    cases heq
  | expired =>
    have heq := hfinal (.inr (.inr hstatus))
    rw [hstatus] at heq
    cases heq

theorem Consistent.not_redeemed {session : Uuid} {f : AuthSession → AuthSession}
    {w : World} (h : s.Consistent) (hc : s.calls i = some c) (hdone : ∀ outcome, c ≠ .done outcome)
    (hsession : c.session? = some session) (hgood : (s.proceed i w c').Good)
    (hw : w.auth = s.world.auth.modify session f)
    (hf : ∀ row token, row.revokedAt = none → (f row).revokedAt = none →
      (f row).refreshTokenId = some token → c.token? = some token) :
    s.world.handoff.status ≠ .redeemed := by
  intro hstatus
  obtain ⟨j, session', token, hj⟩ := h.redeemed hstatus
  have hne : j ≠ i := by
    rintro rfl
    rw [hc, some.injEq] at hj
    exact hdone _ hj
  have heq := (h.fits j _ hj).session session' rfl
  rw [(h.fits i c hc).session session hsession, some.injEq] at heq
  subst heq
  obtain ⟨row, hrow, -, hrevoked⟩ := ((h.fits j _ hj).redeemed session token rfl).2
  obtain ⟨row', hrow', htoken', hrevoked'⟩ :=
    hgood.current j session token ((s.proceed_of_ne hne).trans hj)
  change w.auth.sessions session = some row' at hrow'
  rw [hw, AuthTables.modify_some hrow, some.injEq] at hrow'
  subst hrow'
  have htoken := hf row token hrevoked hrevoked' htoken'
  exact hne (h.tokens j i _ c token hj hc rfl htoken)

theorem Consistent.meets_of_good (h : s.Consistent) (hstep : s.step config a = some s')
    (hgood : s'.Good) (hfinal : KeepsFinal s s') : s.Meets a := by
  cases a with
  | statement i answer =>
    intro c hc
    obtain ⟨c₀, hc₀, hstep⟩ := bind_eq_some_iff.1 hstep
    obtain rfl : c = c₀ := some.inj (hc.symm.trans hc₀)
    obtain ⟨⟨w, c'⟩, hstatement, rfl⟩ := map_eq_some_iff.1 hstep
    have hfits := h.fits i c hc
    cases c with
    | authorizing user session appCode =>
      cases hstatement
      intro hanswer
      cases answer with
      | failed => exact absurd rfl hanswer
      | ok | lost => exact h.meets_authorizing hgood.authorized hfinal
    | expiring | refused error =>
      cases hstatement
      intro hanswer hf
      cases answer with
      | failed => exact absurd rfl hanswer
      | ok | lost => exact (hfinal hf).symm
    | revoking session =>
      cases hstatement
      intro hanswer
      cases answer with
      | failed => exact absurd rfl hanswer
      | ok | lost => exact h.not_redeemed hc nofun rfl hgood rfl nofun
    | assigning session token =>
      cases hstatement
      refine ⟨?_, ?_⟩
      · rintro rfl
        exact absurd (update_self _ _ _) (hgood.failed i session token _ List.mem_cons_self)
      · rintro rfl
        exact h.not_redeemed hc nofun rfl hgood rfl fun row token _ _ heq => heq
    | touching session token =>
      have hentry := hfits.assigns session token rfl
      cases hstatement
      cases answer with
      | ok => rfl
      | failed | lost => exact absurd (update_self _ _ _) (hgood.failed i session token _ hentry)
    | redeeming session token =>
      have hentry := hfits.assigns session token rfl
      simp only [statement, OAuthHandoff.markRedeemed] at hstatement
      split_ifs at hstatement with hstatus <;> cases hstatement
      · cases answer with
        | ok => exact ⟨rfl, hstatus, hgood.current i session token (update_self _ _ _)⟩
        | failed | lost => exact absurd (update_self _ _ _) (hgood.failed i session token _ hentry)
      · cases answer with
        | ok | failed | lost =>
            exact absurd (update_self _ _ _) (hgood.failed i session token _ hentry)
    | _ => trivial
  | _ => trivial

theorem Initial.consistent (h : s.Initial) : s.Consistent := by
  have hno : ∀ {i c}, s.calls i ≠ some c := by
    intro i c hc
    rw [h.calls i] at hc
    cases hc
  refine ⟨⟨fun session hs => ?_, ?_, fun _ => h.authorizations, fun _ => h.session, fun hs => ?_⟩,
    fun i c hc => absurd hc hno, fun i j c c' token hc => absurd hc hno, fun i _ => h.calls i,
    fun entry hentry => ?_, fun hs => ?_⟩
  · rw [h.session] at hs
    cases hs
  · rw [h.authorizations]
    exact zero_le 1
  · rw [h.status] at hs
    rcases hs with hs | hs <;> cases hs
  · rw [h.assigned] at hentry
    cases hentry
  · rw [h.status] at hs
    cases hs

/-- In every run of the condition the handoff is authorized and redeemed once at most, a redeem
    that fails has changed no session, the tokens of the one that succeeds are the current ones, and
    the final states stay. A step keeps all this exactly if it meets the condition. -/
theorem handoff_single_use (config : Config) (s : System)
    (h : Reachable (step config) Meets Initial s) :
    s.Good ∧ (∀ s', Runs (step config) Meets s s' → KeepsFinal s s') ∧
      ∀ a s', s.step config a = some s' → (s'.Good ∧ KeepsFinal s s' ↔ s.Meets a) := by
  have hconsistent : s.Consistent :=
    h.invariant (P := Consistent) (fun _ => Initial.consistent)
      fun _ _ _ h hmeets hstep => h.step hmeets hstep
  refine ⟨hconsistent.good, fun s' hruns => ?_, fun a s' hstep => ⟨fun ⟨hgood, hfinal⟩ =>
    hconsistent.meets_of_good hstep hgood hfinal, fun hmeets =>
      ⟨(hconsistent.step hmeets hstep).good, keepsFinal_of_meets hmeets hstep⟩⟩⟩
  refine hruns.preserves (P := KeepsFinal s) (fun t a t' ht hmeets hstep hfinal => ?_) fun _ => rfl
  have heq := ht hfinal
  rw [← heq] at hfinal
  exact (keepsFinal_of_meets hmeets hstep hfinal).trans heq

/-! ## Examples -/

instance (w : World) (answer : Answer) (c : Call) : Decidable (MeetsStatement w answer c) := by
  cases c <;> dsimp only [MeetsStatement] <;> infer_instance

instance (s : System) (a : Action) : Decidable (s.Meets a) := by
  cases a <;> dsimp only [Meets] <;> infer_instance

def exampleConfig : Config := ⟨some, fun text => text⟩

def start : System where
  world := ⟨⟨"github", "state", "verifier", none, .pending, none, 600, none, none⟩,
    ⟨fun _ => none, []⟩, 1, 0, []⟩
  now := 0
  calls := fun _ => none
  started := 0

theorem initial_start : start.Initial :=
  ⟨rfl, rfl, rfl, rfl, rfl, rfl, fun _ => rfl, fun _ _ => rfl⟩

def callbackSteps (i : ℕ) (appCode : String) : List Action :=
  [.call (.handleCallback "github" (some "state") (some "code") none), .statement i .ok,
    .examine i, .work i (some (0, appCode)), .statement i .ok, .statement i .ok]

def redeemSteps (i : ℕ) (appCode : String) : List Action :=
  [.call (.redeem appCode "verifier"), .statement i .ok, .statement i .ok, .examine i,
    .statement i .ok, .examine i, .work i (some (0, ""))]

def finishSteps (i : ℕ) : List Action := List.replicate 3 (.statement i .ok)

theorem handoff_single_use_redeemed : ∃ s, Reachable (step exampleConfig) Meets Initial s ∧
    s.calls 1 = some (.done (.redeemed 1 2)) ∧ s.calls 2 = some (.done (.error .alreadyRedeemed)) ∧
    s.Good := by
  have hexec : ((exec (step exampleConfig) Meets start (callbackSteps 0 "app" ++
      redeemSteps 1 "app" ++ finishSteps 1 ++ [.call (.redeem "app" "verifier"),
        .statement 2 .ok])).map fun s => decide (s.calls 1 = some (.done (.redeemed 1 2)) ∧
      s.calls 2 = some (.done (.error .alreadyRedeemed)))) = some true := by
    decide +kernel
  obtain ⟨s, hs, hdecide⟩ := map_eq_some_iff.1 hexec
  obtain ⟨hredeemed, hfailed⟩ := of_decide_eq_true hdecide
  have hreach := reachable_of_exec initial_start hs
  exact ⟨s, hreach, hredeemed, hfailed, (handoff_single_use exampleConfig s hreach).1⟩

/-- A callback with the state of a redeemed handoff authorizes it again, and it is redeemed again.
    Of two redeems in flight, the one that fails has replaced the token of the other one. -/
theorem handoff_reused : (∃ s s', Reachable (step exampleConfig) anyStep Initial s ∧
      Runs (step exampleConfig) anyStep s s' ∧ s.world.handoff.status = .redeemed ∧
      s'.world.handoff.status = .authorized ∧ s'.world.authorizations = 2) ∧
    (∃ s, Reachable (step exampleConfig) anyStep Initial s ∧
      s.calls 1 = some (.done (.redeemed 1 2)) ∧ s.calls 3 = some (.done (.redeemed 3 4))) ∧
    ∃ s, Reachable (step exampleConfig) anyStep Initial s ∧
      s.calls 1 = some (.done (.redeemed 1 2)) ∧
      s.calls 2 = some (.done (.error .alreadyRedeemed)) ∧ ¬ s.world.Current 1 2 := by
  refine ⟨?_, ?_, ?_⟩
  · have hexec : ((exec (step exampleConfig) anyStep start (callbackSteps 0 "app" ++
        redeemSteps 1 "app" ++ finishSteps 1)).map fun s =>
        decide (s.world.handoff.status = .redeemed ∧
          ((exec (step exampleConfig) anyStep s (callbackSteps 2 "other")).map fun s' =>
            decide (s'.world.handoff.status = .authorized ∧ s'.world.authorizations = 2)) =
              some true)) = some true := by
      decide +kernel
    obtain ⟨s, hs, hdecide⟩ := map_eq_some_iff.1 hexec
    obtain ⟨hredeemed, hexec'⟩ := of_decide_eq_true hdecide
    obtain ⟨s', hs', hdecide'⟩ := map_eq_some_iff.1 hexec'
    exact ⟨s, s', reachable_of_exec initial_start hs, runs_of_exec hs', hredeemed,
      of_decide_eq_true hdecide'⟩
  · have hexec : ((exec (step exampleConfig) anyStep start (callbackSteps 0 "app" ++
        redeemSteps 1 "app" ++ finishSteps 1 ++ callbackSteps 2 "other" ++
        redeemSteps 3 "other" ++ finishSteps 3)).map fun s =>
        decide (s.calls 1 = some (.done (.redeemed 1 2)) ∧
          s.calls 3 = some (.done (.redeemed 3 4)))) = some true := by
      decide +kernel
    obtain ⟨s, hs, hdecide⟩ := map_eq_some_iff.1 hexec
    exact ⟨s, reachable_of_exec initial_start hs, of_decide_eq_true hdecide⟩
  · have hexec : ((exec (step exampleConfig) anyStep start (callbackSteps 0 "app" ++
        redeemSteps 1 "app" ++ redeemSteps 2 "app" ++ [.statement 1 .ok, .statement 2 .ok,
          .statement 1 .ok, .statement 1 .ok, .statement 2 .ok, .statement 2 .ok])).map fun s =>
        decide (s.calls 1 = some (.done (.redeemed 1 2)) ∧
          s.calls 2 = some (.done (.error .alreadyRedeemed)) ∧ ¬ s.world.Current 1 2)) =
            some true := by
      decide +kernel
    obtain ⟨s, hs, hdecide⟩ := map_eq_some_iff.1 hexec
    exact ⟨s, reachable_of_exec initial_start hs, of_decide_eq_true hdecide⟩

end System

end VibeKanban.Auth.Handoff
