import VibeKanban.Auth.Theft

/-!
# Refreshes side by side (`remote/src/routes/tokens.rs`, lines 103-278)

Runs of refreshes alone, from any state that the system reaches in which no call is going on.

* `refresh_keeps_sessions`: no request revokes a session, if none is overtaken.
-/

namespace VibeKanban.Auth

open Lib Option AuthSession
open Function (update update_of_ne update_self)

/-- The token is the current one of a session that is not revoked, or the previous one within its
    overlap. -/
def World.Live (w : World) (now : Instant) (session token : Uuid) : Prop :=
  ∃ row, w.auth.sessions session = some row ∧ row.revokedAt = none ∧
    (row.refreshTokenId = some token ∨ row.isPreviousRefreshTokenWithinGrace token now)
  deriving Decidable

namespace Call

/-- The token that has to stay in use: the one that a request presents, until it is decided which
    one it answers with. -/
def relies? : Call → Option (Uuid × Uuid)
  | .started token | .beginning token _ | .rotating token _ _ | .refetching token =>
    some (token.sessionId, token.id)
  | .fetched token row | .looking token row _ | .validating token row _ | .refetched token row =>
    row.refreshTokenId.map (token.sessionId, ·)
  | .answering session token => some (session, token)
  | _ => none

/-- The end of the overlap that a request has read and has yet to compare with the clock. -/
def window? : Call → Option Instant
  | .fetched token row =>
    if row.refreshTokenId = some token.id then none else row.previousRefreshTokenGraceExpiresAt
  | .refetched _ row => row.previousRefreshTokenGraceExpiresAt
  | _ => none

/-- The request has read the session with its token as the current one, and has yet to look it up
    in `revoked_refresh_tokens`. -/
def LooksUp (id : Uuid) : Call → Prop
  | .fetched token _ => token.id = id
  | .looking token _ previous => token.id = id ∧ previous = false
  | _ => False

end Call

namespace System

/-- The rotation of a call takes effect. -/
def Rotates (s : System) (answer : Answer) : Call → Prop
  | .rotating token _ _ => answer ≠ .failed ∧
    ∃ row, s.world.auth.sessions token.sessionId = some row ∧ row.refreshTokenId = some token.id
  | _ => False

/-- What the claim promises: only refreshes, each with a token in use, which stays so as long as
    the request needs it, and whose provider's token is valid. -/
def InDomain (overlap : ℤ) (s : System) : Action → Prop
  | .tick now => ∀ i c, s.calls i = some c →
    (∀ session token, c.relies? = some (session, token) → s.world.Live now session token) ∧
      ∀ expires, c.window? = some expires → now < expires
  | .refresh token => s.world.Live s.now token.sessionId token.id
  | .statement i answer => ∀ token new began, s.calls i = some (.rotating token new began) →
    s.Rotates answer (.rotating token new began) → ∀ j c, j ≠ i → s.calls j = some c →
      ∀ id, c.relies? = some (token.sessionId, id) → id = token.id ∧ s.now < began + overlap
  | .work _ result => result ≠ .rejected
  | .examine _ | .drop _ => True
  | _ => False

/-- No rotation commits between another request's read of the session and its lookup. -/
def LookedUp (s : System) : Action → Prop
  | .statement i answer => ∀ token new began, s.calls i = some (.rotating token new began) →
    s.Rotates answer (.rotating token new began) → ∀ j c, j ≠ i → s.calls j = some c →
      c.relies? = some (token.sessionId, token.id) → ¬ c.LooksUp token.id
  | _ => True

def MeetsOverlap (overlap : ℤ) (s : System) (a : Action) : Prop :=
  s.InDomain overlap a ∧ s.LookedUp a

end System

/-! ## What every run keeps -/

def AuthSession.Overlaps (row : AuthSession) (now : Instant) (token : Uuid) : Prop :=
  row.previousRefreshTokenId = some token ∧
    ∃ expires, row.previousRefreshTokenGraceExpiresAt = some expires ∧ now < expires

/-- What a request answers with from a row is in use. -/
def World.Answerable (w : World) (now : Instant) (session : Uuid) (row : AuthSession) : Prop :=
  ∀ token, row.refreshTokenId = some token → w.Live now session token

/-- No request is on its way to revoke its session. -/
def Call.Safe (w : World) (now : Instant) : Call → Prop
  | .started token | .beginning token _ | .rotating token _ _ => w.Live now token.sessionId token.id
  | .fetched token row => row.revokedAt = none ∧ w.Answerable now token.sessionId row ∧
    (row.refreshTokenId = some token.id ∧ token.id ∉ w.auth.revokedRefreshTokens ∨
      row.refreshTokenId ≠ some token.id ∧ row.Overlaps now token.id)
  | .looking token row previous => w.Answerable now token.sessionId row ∧
    (previous = false → row.refreshTokenId = some token.id ∧ token.id ∉ w.auth.revokedRefreshTokens)
  | .validating token row previous => w.Answerable now token.sessionId row ∧
    (previous = false → row.refreshTokenId = some token.id)
  | .refetching token => w.Live now token.sessionId token.id ∧ ∀ row,
    w.auth.sessions token.sessionId = some row → row.refreshTokenId ≠ some token.id
  | .refetched token row => row.revokedAt = none ∧ w.Answerable now token.sessionId row ∧
    row.Overlaps now token.id
  | .answering session token => w.Live now session token
  | .done _ => True
  | _ => False

variable {overlap : ℤ} {s s' : System} {a : Action} {w w' : World} {i j : ℕ} {c c' : Call}
  {now : Instant} {session id : Uuid}

open Call

theorem Call.Safe.live (h : c.Safe w now) (hrelies : c.relies? = some (session, id)) :
    w.Live now session id := by
  cases c with
  | started token | beginning token new | rotating token new began | answering session token =>
    cases hrelies
    exact h
  | refetching token =>
    cases hrelies
    exact h.1
  | fetched token row | refetched token row =>
    obtain ⟨t, ht, heq⟩ := map_eq_some_iff.1 hrelies
    cases heq
    exact h.2.1 _ ht
  | looking token row previous | validating token row previous =>
    obtain ⟨t, ht, heq⟩ := map_eq_some_iff.1 hrelies
    cases heq
    exact h.1 _ ht
  | _ => cases hrelies

/-- A request stays safe when the token that it relies on stays in use, its lookup is not changed,
    and its window stays open. -/
theorem Call.Safe.keeps {later : Instant} (h : c.Safe w now)
    (hlive : ∀ session id, c.relies? = some (session, id) → w'.Live later session id)
    (hwindow : ∀ expires, c.window? = some expires → later < expires)
    (hrevoked : ∀ id, c.LooksUp id → c.relies?.map Prod.snd = some id →
      id ∉ w.auth.revokedRefreshTokens → id ∉ w'.auth.revokedRefreshTokens)
    (hcurrent : ∀ session id, c.relies? = some (session, id) →
      (∀ row, w.auth.sessions session = some row → row.refreshTokenId ≠ some id) →
        ∀ row, w'.auth.sessions session = some row → row.refreshTokenId ≠ some id) :
    c.Safe w' later := by
  have hanswerable : ∀ (token : RefreshToken) (row : AuthSession),
      (∀ session id, row.refreshTokenId.map (token.sessionId, ·) = some (session, id) →
        w'.Live later session id) → w'.Answerable later token.sessionId row := by
    intro token row hall t ht
    exact hall _ _ (by rw [ht]; rfl)
  cases c with
  | started token | beginning token new | rotating token new began | answering session token =>
      exact hlive _ _ rfl
  | refetching token => exact ⟨hlive _ _ rfl, hcurrent _ _ rfl h.2⟩
  | fetched token row =>
    refine ⟨h.1, hanswerable token row hlive, ?_⟩
    rcases h.2.2 with ⟨hcur, hnot⟩ | ⟨hcur, hprevious, expires, hexpires, -⟩
    · exact .inl ⟨hcur, hrevoked token.id rfl (by simp [relies?, hcur]) hnot⟩
    · refine .inr ⟨hcur, hprevious, expires, hexpires, hwindow expires ?_⟩
      simp [window?, hcur, hexpires]
  | looking token row previous =>
    refine ⟨hanswerable token row hlive, fun hprevious => ?_⟩
    obtain ⟨hcur, hnot⟩ := h.2 hprevious
    exact ⟨hcur, hrevoked token.id ⟨rfl, hprevious⟩ (by simp [relies?, hcur]) hnot⟩
  | validating token row previous => exact ⟨hanswerable token row hlive, h.2⟩
  | refetched token row =>
    obtain ⟨hprevious, expires, hexpires, -⟩ := h.2.2
    exact ⟨h.1, hanswerable token row hlive, hprevious, expires, hexpires, hwindow expires hexpires⟩
  | done outcome => trivial
  | _ => exact h.elim

theorem Call.Safe.of_auth (h : c.Safe w now) (hauth : w'.auth = w.auth) : c.Safe w' now := by
  have hlive : ∀ session id, w'.Live now session id ↔ w.Live now session id := by
    intro session id
    unfold World.Live
    rw [hauth]
  cases c with
  | started token | beginning token new | rotating token new began | answering session token =>
      exact (hlive _ _).2 h
  | refetching token => exact ⟨(hlive _ _).2 h.1, by rw [hauth]; exact h.2⟩
  | fetched token row =>
    exact ⟨h.1, fun t ht => (hlive _ _).2 (h.2.1 t ht), by rw [hauth]; exact h.2.2⟩
  | looking token row previous =>
    exact ⟨fun t ht => (hlive _ _).2 (h.1 t ht), by rw [hauth]; exact h.2⟩
  | validating token row previous => exact ⟨fun t ht => (hlive _ _).2 (h.1 t ht), h.2⟩
  | refetched token row => exact ⟨h.1, fun t ht => (hlive _ _).2 (h.2.1 t ht), h.2.2⟩
  | done outcome => trivial
  | _ => exact h.elim

/-! ## The steps of a request -/

variable {row : AuthSession}

theorem World.answerable_of_row (hrow : w.auth.sessions session = some row)
    (hrevoked : row.revokedAt = none) : w.Answerable now session row :=
  fun _ htoken => ⟨row, hrow, hrevoked, .inl htoken⟩

theorem safe_respond (h : w.Answerable now session row) : (respond session row).Safe w now := by
  unfold respond
  split
  · exact h _ ‹_›
  · trivial

theorem Call.Safe.onError (h : c.Safe w now) : c.onError.Safe w now := by
  cases c with
  | deactivating | revokingUser | revokingUserCommit | touching => exact h.elim
  | _ => trivial

variable {token : RefreshToken} {new : Uuid} {began : Instant}

theorem Call.Safe.fetched (hw : w.Sound)
    (h : (started token).Safe w now) (hrow : w.auth.sessions token.sessionId = some row) :
    (fetched token row).Safe w now := by
  obtain ⟨row', hrow', hrevoked, hlive⟩ := h
  rw [hrow, some.injEq] at hrow'
  subst hrow'
  refine ⟨hrevoked, World.answerable_of_row hrow hrevoked, ?_⟩
  by_cases hcurrent : row.refreshTokenId = some token.id
  · exact .inl ⟨hcurrent, hw.live _ row _ hrow hrevoked hcurrent⟩
  · exact .inr ⟨hcurrent, isPrevious_iff.1 (hlive.resolve_left hcurrent)⟩

theorem Call.Safe.refetched
    (h : (refetching token).Safe w now) (hrow : w.auth.sessions token.sessionId = some row) :
    (refetched token row).Safe w now := by
  obtain ⟨⟨row', hrow', hrevoked, hlive⟩, hcurrent⟩ := h
  rw [hrow, some.injEq] at hrow'
  subst hrow'
  exact ⟨hrevoked, World.answerable_of_row hrow hrevoked,
    isPrevious_iff.1 (hlive.resolve_left (hcurrent row hrow))⟩

theorem Call.Safe.refetching (h : (rotating token new began).Safe w now)
    (hrotate : w.auth.rotateTokens token.sessionId token.id new began overlap = none) :
    (refetching token).Safe w now := by
  refine ⟨h, fun row hrow hcurrent => ?_⟩
  have hsome : w.auth.rotateTokens token.sessionId token.id new began overlap ≠ none := by
    rw [ne_none_iff_exists']
    exact ⟨_, AuthTables.rotateTokens_eq_some_iff.2 ⟨row, hrow, hcurrent, rfl⟩⟩
  exact hsome hrotate

theorem Call.Safe.statement (hw : w.Sound) (h : c.Safe w now)
    (hstatement : c.statement w now overlap = some (w', c'))
    (hrotating : ∀ token new began, c = .rotating token new began →
      w.auth.rotateTokens token.sessionId token.id new began overlap = none) :
    w' = w ∧ c'.Safe w now := by
  cases c with
  | started token =>
    obtain ⟨row, hrow, -⟩ := id h
    simp only [statement, hrow] at hstatement
    cases hstatement
    exact ⟨rfl, h.fetched hw hrow⟩
  | looking token row previous =>
    cases hstatement
    have hnot : reused token row previous (w.auth.isRefreshTokenRevoked token.id) = false := by
      cases previous with
      | true => simp [reused]
      | false =>
        obtain ⟨hcurrent, hnot⟩ := h.2 rfl
        simp [reused, AuthTables.isRefreshTokenRevoked, hcurrent, hnot]
    rw [hnot]
    exact ⟨rfl, h.1, fun hprevious => (h.2 hprevious).1⟩
  | beginning token new =>
    cases hstatement
    exact ⟨rfl, h⟩
  | rotating token new began =>
    have hnone := hrotating token new began rfl
    simp only [statement, hnone] at hstatement
    cases hstatement
    exact ⟨rfl, h.refetching hnone⟩
  | refetching token =>
    obtain ⟨⟨row, hrow, -⟩, -⟩ := id h
    simp only [statement, hrow] at hstatement
    cases hstatement
    exact ⟨rfl, h.refetched hrow⟩
  | fetched | validating | refetched | answering | done => cases hstatement
  | _ => exact h.elim

theorem Call.Safe.examine (h : c.Safe w now) (hexamine : c.examine now = some c') :
    c'.Safe w now := by
  cases c with
  | fetched token row =>
    obtain ⟨hrevoked, hanswerable, hcases⟩ := h
    cases hexamine
    rw [if_neg (by rw [hrevoked]; exact Bool.false_ne_true)]
    refine ⟨hanswerable, fun hnot => ?_⟩
    rcases hcases with hcurrent | ⟨-, hoverlaps⟩
    · exact hcurrent
    · rw [isPrevious_iff.2 hoverlaps] at hnot
      cases hnot
  | refetched token row =>
    obtain ⟨hrevoked, hanswerable, hoverlaps⟩ := h
    cases hexamine
    rw [if_pos ⟨by rw [hrevoked]; rfl, isPrevious_iff.2 hoverlaps⟩]
    exact safe_respond hanswerable
  | answering session token =>
    cases hexamine
    trivial
  | started | looking | validating | beginning | rotating | refetching | done => cases hexamine
  | _ => exact h.elim

theorem Call.Safe.work {result : Work} (h : c.Safe w now) (hresult : result ≠ .rejected)
    (hwork : c.work w result = some (w', c')) : w'.auth = w.auth ∧ c'.Safe w' now := by
  cases c with
  | validating token row previous =>
    cases result with
    | ok =>
      simp only [work] at hwork
      split_ifs at hwork with hprevious <;> cases hwork
      · exact ⟨rfl, safe_respond h.1⟩
      · exact ⟨rfl, h.1 token.id (h.2 (Bool.eq_false_iff.2 hprevious))⟩
    | rejected => exact absurd rfl hresult
    | failed =>
      cases hwork
      exact ⟨rfl, trivial⟩
  | started | fetched | looking | beginning | rotating | refetching | refetched | answering
  | done => cases hwork
  | _ => exact h.elim

/-! ## Rotations -/

theorem Call.Safe.window {expires : Instant} (h : c.Safe w now)
    (hwindow : c.window? = some expires) : now < expires := by
  cases c with
  | fetched token row =>
    simp only [window?] at hwindow
    split_ifs at hwindow with hcurrent
    rcases h.2.2 with ⟨hcur, -⟩ | ⟨-, -, e, he, hlt⟩
    · exact absurd hcur hcurrent
    · rw [hwindow, some.injEq] at he
      rw [he]
      exact hlt
  | refetched token row =>
    obtain ⟨-, e, he, hlt⟩ := h.2.2
    rw [show row.previousRefreshTokenGraceExpiresAt = some expires from hwindow, some.injEq] at he
    rw [he]
    exact hlt
  | _ => cases hwindow

theorem Call.Safe.rotated (hw : w.Sound) (h : c.Safe w now)
    (hrow : w.auth.sessions token.sessionId = some row) (hrevoked : row.revokedAt = none)
    (hcurrent : row.refreshTokenId = some token.id)
    (hauth : w'.auth = ⟨update w.auth.sessions token.sessionId
      (some (row.rotate token.id new began overlap)), token.id :: w.auth.revokedRefreshTokens⟩)
    (hdomain : ∀ id, c.relies? = some (token.sessionId, id) → id = token.id ∧ now < began + overlap)
    (hlooked : c.relies? = some (token.sessionId, token.id) → ¬ c.LooksUp token.id) :
    c.Safe w' now := by
  have hself : w'.auth.sessions token.sessionId = some (row.rotate token.id new began overlap) := by
    rw [hauth]
    exact update_self _ _ _
  have hother : ∀ session, session ≠ token.sessionId →
      w'.auth.sessions session = w.auth.sessions session := by
    intro session hne
    rw [hauth]
    exact update_of_ne hne _ _
  refine h.keeps (fun session id hrelies => ?_) (fun expires => h.window)
    (fun id hlooks hid hnot => ?_) fun session id hrelies hnot row' hrow' => ?_
  · by_cases hsession : session = token.sessionId
    · subst hsession
      obtain ⟨rfl, hlt⟩ := hdomain id hrelies
      exact ⟨_, hself, hrevoked, .inr (isPrevious_iff.2 ⟨rfl, _, rfl, hlt⟩)⟩
    · obtain ⟨row', hrow', hfacts⟩ := h.live hrelies
      exact ⟨row', (hother session hsession).trans hrow', hfacts⟩
  · rw [hauth]
    intro hmem
    obtain rfl := (List.mem_cons.1 hmem).resolve_right hnot
    -- the token is the current one of this session alone
    obtain ⟨⟨session, id⟩, hrelies, hid⟩ := map_eq_some_iff.1 hid
    obtain rfl : id = token.id := hid
    obtain ⟨row', hrow', -, hcur | hprevious⟩ := h.live hrelies
    · obtain rfl := hw.owner session _ row' row _ hrow' hrow hcur hcurrent
      exact hlooked hrelies hlooks
    · have hretired := hw.previous session row' _ hrow' (isPrevious_iff.1 hprevious).1
      exact hw.current _ session row _ hrow hcurrent hretired
  · by_cases hsession : session = token.sessionId
    · subst hsession
      obtain ⟨rfl, -⟩ := hdomain id hrelies
      exact absurd hcurrent (hnot row hrow)
    · rw [hother session hsession] at hrow'
      exact hnot row' hrow'

namespace System

/-- No request is on its way to revoke its session. -/
def Safe (s : System) : Prop := ∀ i c, s.calls i = some c → c.Safe s.world s.now

theorem Safe.proceed (h : s.Safe) (hauth : w'.auth = s.world.auth) (hc : c'.Safe w' s.now) :
    (s.proceed i w' c').Safe := by
  intro j x hx
  rcases update_cases hx with ⟨-, rfl⟩ | ⟨-, hx⟩
  · exact hc
  · exact (h j x hx).of_auth hauth

def KeepsRevoked (s s' : System) : Prop :=
  ∀ session row, s.world.auth.sessions session = some row → ∃ row',
    s'.world.auth.sessions session = some row' ∧ row'.revokedAt = row.revokedAt

theorem KeepsRevoked.of_auth (h : s'.world.auth = s.world.auth) : KeepsRevoked s s' := by
  intro session row hrow
  rw [h]
  exact ⟨row, hrow, rfl⟩

theorem KeepsRevoked.trans {s'' : System} (h : KeepsRevoked s s') (h' : KeepsRevoked s' s'') :
    KeepsRevoked s s'' := by
  intro session row hrow
  obtain ⟨row', hrow', heq⟩ := h session row hrow
  obtain ⟨row'', hrow'', heq'⟩ := h' session row' hrow'
  exact ⟨row'', hrow'', heq'.trans heq⟩

variable {answer : Answer}

theorem Safe.statement (hconsistent : s.Consistent) (h : s.Safe)
    (hmeets : s.MeetsOverlap overlap (.statement i answer)) (hc : s.calls i = some c)
    (hstatement : c.statement s.world s.now overlap = some (w', c')) :
    (s.answered i c w' c' answer).Safe ∧ KeepsRevoked s (s.answered i c w' c' answer) := by
  have hsafe := h i c hc
  by_cases hrotates : answer ≠ .failed ∧ ∃ token new began auth, c = .rotating token new began ∧
      s.world.auth.rotateTokens token.sessionId token.id new began overlap = some auth
  · obtain ⟨hanswer, token, new, began, auth, rfl, hrotate⟩ := hrotates
    obtain ⟨row, hrow, hcurrent, rfl⟩ := AuthTables.rotateTokens_eq_some_iff.1 hrotate
    simp only [statement, hrotate] at hstatement
    cases hstatement
    obtain ⟨row', hrow', hrevoked, -⟩ := hsafe
    rw [hrow, some.injEq] at hrow'
    subst hrow'
    have hdomain := hmeets.1 token new began hc ⟨hanswer, row, hrow, hcurrent⟩
    have hlooked := hmeets.2 token new began hc ⟨hanswer, row, hrow, hcurrent⟩
    have hfinish : ∀ x : Call, (x = .answering token.sessionId new ∨ ∃ outcome, x = .done outcome) →
        (s.proceed i { s.world with
          auth := ⟨update s.world.auth.sessions token.sessionId
            (some (row.rotate token.id new began overlap)),
            token.id :: s.world.auth.revokedRefreshTokens⟩
          retired := (token.sessionId, token.id) :: s.world.retired
          replacements := (token.id, new) :: s.world.replacements } x).Safe ∧
        KeepsRevoked s (s.proceed i { s.world with
          auth := ⟨update s.world.auth.sessions token.sessionId
            (some (row.rotate token.id new began overlap)),
            token.id :: s.world.auth.revokedRefreshTokens⟩
          retired := (token.sessionId, token.id) :: s.world.retired
          replacements := (token.id, new) :: s.world.replacements } x) := by
      intro x hx
      refine ⟨fun j y hy => ?_, fun session row₁ hrow₁ => ?_⟩
      · rcases update_cases hy with ⟨-, rfl⟩ | ⟨hj, hy⟩
        · rcases hx with rfl | ⟨outcome, rfl⟩
          · exact ⟨_, update_self _ _ _, hrevoked, .inl rfl⟩
          · trivial
        · exact (h j y hy).rotated hconsistent.world hrow hrevoked hcurrent rfl (hdomain j y hj hy)
            (hlooked j y hj hy)
      · by_cases hsession : session = token.sessionId
        · subst hsession
          rw [hrow, some.injEq] at hrow₁
          subst hrow₁
          exact ⟨_, update_self _ _ _, rfl⟩
        · exact ⟨row₁, (update_of_ne hsession _ _).trans hrow₁, rfl⟩
    cases answer with
    | ok => exact hfinish _ (.inl rfl)
    | failed => exact absurd rfl hanswer
    | lost => exact hfinish _ (.inr ⟨_, rfl⟩)
  · have hplain : answer ≠ .failed → w' = s.world ∧ c'.Safe s.world s.now := by
      intro hanswer
      refine hsafe.statement hconsistent.world hstatement fun token new began heq => ?_
      rw [eq_none_iff_forall_ne_some]
      intro auth hrotate
      exact hrotates ⟨hanswer, token, new, began, auth, heq, hrotate⟩
    cases answer with
    | ok =>
      obtain ⟨rfl, hc'⟩ := hplain (by rintro ⟨⟩)
      exact ⟨h.proceed rfl hc', .of_auth rfl⟩
    | failed => exact ⟨h.proceed rfl hsafe.onError, .of_auth rfl⟩
    | lost =>
      obtain ⟨rfl, -⟩ := hplain (by rintro ⟨⟩)
      exact ⟨h.proceed rfl hsafe.onError, .of_auth rfl⟩

theorem Safe.step (hconsistent : s.Consistent) (h : s.Safe) (hmeets : s.MeetsOverlap overlap a)
    (hstep : s.step overlap a = some s') : s'.Safe ∧ KeepsRevoked s s' := by
  cases a with
  | tick now =>
    simp only [System.step] at hstep
    split_ifs at hstep
    cases hstep
    refine ⟨fun i c hc => ?_, .of_auth rfl⟩
    obtain ⟨hlive, hwindow⟩ := hmeets.1 i c hc
    exact (h i c hc).keeps hlive hwindow (fun _ _ _ hnot => hnot) fun _ _ _ hnot => hnot
  | refresh token =>
    cases hstep
    refine ⟨fun i c hc => ?_, .of_auth rfl⟩
    rcases update_cases hc with ⟨-, rfl⟩ | ⟨-, hc⟩
    · unfold System.refresh
      split
      · trivial
      · exact hmeets.1
    · exact h i c hc
  | statement i answer =>
    obtain ⟨c, hc, hstep⟩ := bind_eq_some_iff.1 hstep
    obtain ⟨⟨w, c'⟩, hstatement, rfl⟩ := map_eq_some_iff.1 hstep
    exact h.statement hconsistent hmeets hc hstatement
  | examine i =>
    obtain ⟨c, hc, hstep⟩ := bind_eq_some_iff.1 hstep
    obtain ⟨c', hexamine, rfl⟩ := map_eq_some_iff.1 hstep
    exact ⟨h.proceed rfl ((h i c hc).examine hexamine), .of_auth rfl⟩
  | work i result =>
    obtain ⟨c, hc, hstep⟩ := bind_eq_some_iff.1 hstep
    obtain ⟨⟨w, c'⟩, hwork, rfl⟩ := map_eq_some_iff.1 hstep
    obtain ⟨hauth, hc'⟩ := (h i c hc).work hmeets.1 hwork
    exact ⟨h.proceed hauth hc', .of_auth hauth⟩
  | drop i =>
    obtain ⟨c, hc, hstep⟩ := bind_eq_some_iff.1 hstep
    split at hstep <;> cases hstep
    exact ⟨h.proceed rfl trivial, .of_auth rfl⟩
  | create | redeem | authenticate | revokeAuthSession | revokeAllUserSessions =>
    exact hmeets.1.elim

/-- The domain is what the claim promises: the tokens that requests rely on stay in use after the
    step, and the overlaps that they have read do not end. -/
theorem Safe.inDomain (hconsistent : s.Consistent) (h : s.Safe)
    (hstep : s.step overlap a = some s') (hkind : match a with
      | .refresh token => s.world.Live s.now token.sessionId token.id
      | .work _ result => result ≠ .rejected
      | .tick _ | .statement .. | .examine _ | .drop _ => True
      | _ => False)
    (hstays : ∀ i c, s.calls i = some c →
      (∀ session id, c.relies? = some (session, id) → s'.world.Live s'.now session id) ∧
        ∀ expires, c.window? = some expires → s'.now < expires) : s.InDomain overlap a := by
  cases a with
  | tick now =>
    simp only [System.step] at hstep
    split_ifs at hstep
    cases hstep
    exact hstays
  | refresh | work => exact hkind
  | examine | drop => trivial
  | create | redeem | authenticate | revokeAuthSession | revokeAllUserSessions => exact hkind.elim
  | statement i answer =>
    intro token new began hi hrotates j c _ hc id hrelies
    obtain ⟨hanswer, row, hrow, hcurrent⟩ := hrotates
    have hrotate : s.world.auth.rotateTokens token.sessionId token.id new began overlap =
        some ⟨update s.world.auth.sessions token.sessionId (some (row.rotate token.id new began
          overlap)), token.id :: s.world.auth.revokedRefreshTokens⟩ :=
      AuthTables.rotateTokens_eq_some_iff.2 ⟨row, hrow, hcurrent, rfl⟩
    have hafter : s'.now = s.now ∧ s'.world.auth.sessions token.sessionId =
        some (row.rotate token.id new began overlap) := by
      simp only [System.step, hi, bind_some, Call.statement, hrotate, map_some] at hstep
      cases answer <;> cases hstep
      · exact ⟨rfl, update_self _ _ _⟩
      · exact absurd rfl hanswer
      · exact ⟨rfl, update_self _ _ _⟩
    obtain ⟨row', hrow', -, hlive⟩ := (hstays j c hc).1 _ _ hrelies
    rw [hafter.2, some.injEq] at hrow'
    subst hrow'
    rcases hlive with hnew | hprevious
    · -- no request relies on a token that is yet to be given out
      cases hnew
      refine absurd ?_ ((hconsistent.fits i _ hi).pending new rfl).2
      obtain ⟨row', hrow', -, hcur | hprevious⟩ := (h j c hc).live hrelies
      · exact .inl ⟨_, _, hrow', hcur⟩
      · exact .inr (.inl ⟨_, hconsistent.world.previous _ _ _ hrow' (isPrevious_iff.1 hprevious).1⟩)
    · obtain ⟨hid, expires, hexpires, hlt⟩ := isPrevious_iff.1 hprevious
      cases hid
      cases hexpires
      exact ⟨rfl, hafter.1 ▸ hlt⟩

/-! ## No logout -/

def Quiet (s : System) : Prop := ∀ i c, s.calls i = some c → ∃ outcome, c = .done outcome

theorem Quiet.safe (h : s.Quiet) : s.Safe := by
  intro i c hc
  obtain ⟨outcome, rfl⟩ := h i c hc
  trivial

variable {s₀ : System}

theorem safe_of_runs (h₀ : Reachable (step overlap) anyStep Initial s₀)
    (hquiet : s₀.Quiet) (h : Runs (step overlap) (MeetsOverlap overlap) s₀ s) :
    s.Consistent ∧ s.Safe ∧ KeepsRevoked s₀ s := by
  refine h.preserves (P := fun s => s.Consistent ∧ s.Safe ∧ KeepsRevoked s₀ s) ?_
    ⟨consistent_of_reachable h₀, hquiet.safe, .of_auth rfl⟩
  rintro s a s' ⟨hconsistent, hsafe, hkeeps⟩ hmeets hstep
  obtain ⟨hsafe', hkeeps'⟩ := hsafe.step hconsistent hmeets hstep
  exact ⟨hconsistent.step hstep, hsafe', hkeeps.trans hkeeps'⟩

/-- In every run of refreshes that meets the condition no request revokes a session or is about to,
    and a token that a request returns is then the current one of its session or the previous one
    within its overlap. -/
theorem refresh_keeps_sessions (overlap : ℤ) (s₀ s : System)
    (h₀ : Reachable (step overlap) anyStep Initial s₀) (hquiet : s₀.Quiet)
    (h : Runs (step overlap) (MeetsOverlap overlap) s₀ s) : KeepsRevoked s₀ s ∧
    (∀ i session reply, s.calls i ≠ some (.revoking session reply)) ∧
    (∀ i session tokens began reply,
      s.calls i ≠ some (.revokingCommit session tokens began reply)) ∧
    ∀ i session token s', s.calls i = some (.answering session token) →
      s.step overlap (.examine i) = some s' →
      s'.calls i = some (.done (.tokens session token)) ∧ s'.world.Live s'.now session token := by
  obtain ⟨-, hsafe, hkeeps⟩ := safe_of_runs h₀ hquiet h
  refine ⟨hkeeps, fun i session reply hc => hsafe i _ hc,
    fun i session tokens began reply hc => hsafe i _ hc, fun i session token s' hc hstep => ?_⟩
  have hlive := hsafe i _ hc
  simp only [System.step, hc, bind_some] at hstep
  cases hstep
  exact ⟨update_self _ _ _, hlive⟩

/-! ## Examples -/

instance (id : Uuid) (c : Call) : Decidable (c.LooksUp id) := by
  cases c <;> dsimp only [LooksUp] <;> infer_instance

/-- The condition on a rotation, for the calls that have started; `looked`: with that on the
    lookups. -/
def CheckedRotation (overlap : ℤ) (looked : Bool) (s : System) (i : ℕ) : Prop :=
  ∀ j < s.started, j ≠ i → (s.calls i).all fun x => (s.calls j).all fun c =>
    c.relies?.all fun entry => match x with
    | .rotating token _ began =>
      decide ((s.world.auth.sessions token.sessionId).any (·.refreshTokenId = some token.id) →
        entry.1 = token.sessionId → entry.2 = token.id ∧ s.now < began + overlap ∧
          (looked = true → ¬ c.LooksUp token.id))
    | _ => true

instance (overlap : ℤ) (looked : Bool) (s : System) (i : ℕ) :
    Decidable (CheckedRotation overlap looked s i) :=
  inferInstanceAs (Decidable (∀ j < s.started, j ≠ i → _))

variable {looked : Bool} {ok : System → Action → Prop}

theorem CheckedRotation.entry {token : RefreshToken} (h : CheckedRotation overlap looked s i)
    (hj : j < s.started)
    (hne : j ≠ i) (hi : s.calls i = some (.rotating token new began))
    (hrotates : s.Rotates answer (.rotating token new began)) (hc : s.calls j = some c)
    (hrelies : c.relies? = some (token.sessionId, id)) :
    id = token.id ∧ s.now < began + overlap ∧ (looked = true → ¬ c.LooksUp token.id) := by
  obtain ⟨-, row, hrow, hcurrent⟩ := hrotates
  have hall := h j hj hne
  simp only [hi, hc, hrelies, hrow, hcurrent, all_some, any_some, decide_eq_true_eq] at hall
  exact hall trivial trivial

/-- The condition at a time that stands still. -/
def Checked (overlap : ℤ) (looked : Bool) (s : System) : Action → Prop
  | .refresh token => s.world.Live s.now token.sessionId token.id
  | .statement i _ => CheckedRotation overlap looked s i
  | .work _ result => result ≠ .rejected
  | .examine _ | .drop _ => True
  | _ => False

instance (overlap : ℤ) (looked : Bool) (s : System) (a : Action) :
    Decidable (Checked overlap looked s a) := by
  cases a <;> dsimp only [Checked] <;> infer_instance

theorem Checked.inDomain (hconsistent : s.Consistent)
    (h : Checked overlap looked s a) : s.InDomain overlap a := by
  cases a with
  | statement i answer =>
    intro token new began hi hrotates j c hj hc id hrelies
    obtain ⟨heq, hlt, -⟩ := h.entry (hconsistent.lt_started hc) hj hi hrotates hc hrelies
    exact ⟨heq, hlt⟩
  | refresh token => exact h
  | work i result => exact h
  | examine | drop => trivial
  | _ => exact h.elim

theorem Checked.meets (hconsistent : s.Consistent) (h : Checked overlap true s a) :
    s.MeetsOverlap overlap a := by
  refine ⟨h.inDomain hconsistent, ?_⟩
  cases a with
  | statement i answer =>
    intro token new began hi hrotates j c hj hc hrelies
    obtain ⟨-, -, hlooked⟩ := h.entry (hconsistent.lt_started hc) hj hi hrotates hc hrelies
    exact hlooked rfl
  | _ => trivial

theorem runs_of_checked (h₀ : s₀.Consistent) (h : Runs (step overlap) (Checked overlap looked) s₀ s)
    (hok : ∀ s a, s.Consistent → Checked overlap looked s a → ok s a) :
    Runs (step overlap) ok s₀ s := by
  have hruns : s.Consistent ∧ Runs (step overlap) ok s₀ s := by
    refine h.preserves (P := fun s => s.Consistent ∧ Runs (step overlap) ok s₀ s) ?_ ⟨h₀, .refl⟩
    rintro s a s' ⟨hconsistent, hruns⟩ hchecked hstep
    exact ⟨hconsistent.step hstep, hruns.tail (hok s a hconsistent hchecked) hstep⟩
  exact hruns.2

theorem quiet_of_started (h : s.Consistent) (hdone : ∀ i < s.started,
    (s.calls i).all fun c => c matches .done _) : s.Quiet := by
  intro i c hc
  have hall := hdone i (h.lt_started hc)
  rw [hc, all_some] at hall
  cases c with
  | done outcome => exact ⟨outcome, rfl⟩
  | _ => cases hall

theorem runs_of_exec_login (looked : Bool) (as : List Action) (Q : System → Prop) [DecidablePred Q]
    (hok : ∀ s a, s.Consistent → Checked 60000000 looked s a → ok s a)
    (hexec : ((exec (step 60000000) anyStep emptySystem login).bind fun s₀ =>
      (exec (step 60000000) (Checked 60000000 looked) s₀ as).map fun s =>
        decide ((∀ i < s₀.started, (s₀.calls i).all fun c => c matches .done _) ∧
          ¬ s₀.Revoked 0 ∧ Q s)) = some true) :
    ∃ s₀ s, Reachable (step 60000000) anyStep Initial s₀ ∧ s₀.Quiet ∧
      ¬ s₀.Revoked 0 ∧ Runs (step 60000000) ok s₀ s ∧ Q s := by
  obtain ⟨s₀, hs₀, hexec⟩ := bind_eq_some_iff.1 hexec
  obtain ⟨s, hs, hdecide⟩ := map_eq_some_iff.1 hexec
  obtain ⟨hdone, hlive, hQ⟩ := of_decide_eq_true hdecide
  have hreach := reachable_of_exec initial_emptySystem hs₀
  have hconsistent := consistent_of_reachable hreach
  exact ⟨s₀, s, hreach, quiet_of_started hconsistent hdone, hlive,
    runs_of_checked hconsistent (runs_of_exec hs) hok, hQ⟩

/-- Two requests with one token, the second of which loses the rotation. -/
def sideBySide : List Action :=
  [.refresh (tokenOf 1), .refresh (tokenOf 1), .statement 1 .ok, .statement 2 .ok, .examine 1,
    .examine 2, .statement 1 .ok, .statement 2 .ok, .work 1 .ok, .work 2 .ok, .statement 1 .ok,
    .statement 2 .ok, .statement 1 .ok, .statement 2 .ok, .statement 2 .ok, .examine 2]

theorem refresh_keeps_sessions_conflict : ∃ s₀ s,
    Reachable (step 60000000) anyStep Initial s₀ ∧ s₀.Quiet ∧
    Runs (step 60000000) (MeetsOverlap 60000000) s₀ s ∧
    s.calls 1 = some (.answering 0 2) ∧ s.calls 2 = some (.answering 0 2) ∧ KeepsRevoked s₀ s := by
  obtain ⟨s₀, s, hreach, hquiet, -, hruns, hfirst, hsecond⟩ :=
    runs_of_exec_login true sideBySide
      (fun s => s.calls 1 = some (.answering 0 2) ∧ s.calls 2 = some (.answering 0 2))
      (fun _ _ hconsistent h => h.meets hconsistent) (by decide +kernel)
  exact ⟨s₀, s, hreach, hquiet, hruns, hfirst, hsecond,
    (refresh_keeps_sessions _ s₀ s hreach hquiet hruns).1⟩

/-- The first request rotates between the second one's read and its lookup. -/
def betweenReadAndLookup : List Action :=
  [.refresh (tokenOf 1), .refresh (tokenOf 1), .statement 1 .ok, .examine 1, .statement 1 .ok,
    .work 1 .ok, .statement 1 .ok, .statement 2 .ok, .statement 1 .ok, .examine 2,
    .statement 2 .ok, .statement 2 .ok, .statement 2 .ok]

/-- Two requests with the current token of a session, one rotation, and a clock that stands still:
    the second request revokes the session. -/
theorem refresh_revokes : ∃ s₀ s, Reachable (step 60000000) anyStep Initial s₀ ∧ s₀.Quiet ∧
    ¬ s₀.Revoked 0 ∧ Runs (step 60000000) (InDomain 60000000) s₀ s ∧
    s.calls 2 = some (.done (.error .tokenReuseDetected)) ∧ s.Revoked 0 :=
  runs_of_exec_login false betweenReadAndLookup
    (fun s => s.calls 2 = some (.done (.error .tokenReuseDetected)) ∧ s.Revoked 0)
    (fun _ _ hconsistent h => h.inDomain hconsistent) (by decide +kernel)

end System

end VibeKanban.Auth
