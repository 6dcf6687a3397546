import VibeKanban.Auth.Refresh

/-!
# A stolen refresh token (`remote/src/routes/tokens.rs`, lines 103-278, `auth/middleware.rs`,
# lines 100-204)

* `theft_contained`: a token has one successor, and a stale one that is used leaves the session
  revoked.
-/

namespace VibeKanban.Auth

open Lib Option
open Function (update update_of_ne update_self)

namespace System

variable {overlap : ℤ} {s s' : System} {a : Action} {i : ℕ} {c : Call} {token : RefreshToken}
  {session : Uuid} {row : AuthSession} {now : Instant} {outcome : Outcome}
  {ok : System → Action → Prop}

/-! ## One call in a run -/

/-- What becomes of a call in a step. -/
inductive Follows (overlap : ℤ) (s s' : System) (a : Action) (i : ℕ) (c : Call) : Prop
  | same (h : s'.calls i = some c)
  | statement (w : World) (c' : Call) (h : c.statement s.world s.now overlap = some (w, c'))
    (hc : s'.calls i = some c') (hw : s'.world = w)
  | failed (w : World) (c' : Call) (h : c.statement s.world s.now overlap = some (w, c'))
    (hc : s'.calls i = some c.onError) (ha : ∃ answer, answer ≠ .ok ∧ a = .statement i answer)
  | examine (c' : Call) (h : c.examine s.now = some c') (hc : s'.calls i = some c')
  | work (result : Call.Work) (w : World) (c' : Call) (h : c.work s.world result = some (w, c'))
    (hc : s'.calls i = some c')
  | drop (h : ∀ outcome, c ≠ .done outcome) (hc : s'.calls i = some (.done .dropped))

theorem Consistent.follows (h : s.Consistent) (hc : s.calls i = some c)
    (hstep : s.step overlap a = some s') : Follows overlap s s' a i c := by
  have hcall : ∀ x, (s.call x).calls i = some c := by
    intro x
    show update s.calls s.started _ i = _
    rw [update_of_ne (Nat.ne_of_lt (h.lt_started hc))]
    exact hc
  have hother : ∀ j w x, i ≠ j → (s.proceed j w x).calls i = some c := by
    intro j w x hij
    exact (update_of_ne hij _ _).trans hc
  have hself : ∀ w x, (s.proceed i w x).calls i = some x := fun w x => update_self _ _ _
  have hwho : ∀ {j x}, s.calls j = some x → i = j ∧ c = x ∨ i ≠ j := by
    intro j x hx
    by_cases hij : i = j
    · subst hij
      exact .inl ⟨rfl, Option.some.inj (hc.symm.trans hx)⟩
    · exact .inr hij
  cases a with
  | tick now =>
    simp only [System.step] at hstep
    split_ifs at hstep
    cases hstep
    exact .same hc
  | create user =>
    cases hstep
    exact .same hc
  | refresh | redeem | authenticate | revokeAuthSession | revokeAllUserSessions =>
    cases hstep
    exact .same (hcall _)
  | statement j answer =>
    obtain ⟨x, hx, hstep⟩ := bind_eq_some_iff.1 hstep
    obtain ⟨⟨w, x'⟩, hstatement, rfl⟩ := map_eq_some_iff.1 hstep
    rcases hwho hx with ⟨rfl, rfl⟩ | hij
    · cases answer with
      | ok => exact .statement w x' hstatement (hself _ _) rfl
      | failed | lost => exact .failed w x' hstatement (hself _ _) ⟨_, by rintro ⟨⟩, rfl⟩
    · cases answer <;> exact .same (hother _ _ _ hij)
  | examine j =>
    obtain ⟨x, hx, hstep⟩ := bind_eq_some_iff.1 hstep
    obtain ⟨x', hexamine, rfl⟩ := map_eq_some_iff.1 hstep
    rcases hwho hx with ⟨rfl, rfl⟩ | hij
    · exact .examine x' hexamine (hself _ _)
    · exact .same (hother _ _ _ hij)
  | work j result =>
    obtain ⟨x, hx, hstep⟩ := bind_eq_some_iff.1 hstep
    obtain ⟨⟨w, x'⟩, hwork, rfl⟩ := map_eq_some_iff.1 hstep
    rcases hwho hx with ⟨rfl, rfl⟩ | hij
    · exact .work result w x' hwork (hself _ _)
    · exact .same (hother _ _ _ hij)
  | drop j =>
    obtain ⟨x, hx, hstep⟩ := bind_eq_some_iff.1 hstep
    split at hstep <;> cases hstep
    rename_i hdone
    rcases hwho hx with ⟨rfl, rfl⟩ | hij
    · exact .drop hdone (hself _ _)
    · exact .same (hother _ _ _ hij)

/-! ## What stays -/

def Revoked (s : System) (session : Uuid) : Prop :=
  ∃ row, s.world.auth.sessions session = some row ∧ row.revokedAt.isSome
  deriving Decidable

/-- The token has been replaced, and is neither the current one of its session nor the previous one
    within its overlap. -/
def Stale (s : System) (token : RefreshToken) : Prop :=
  (token.sessionId, token.id) ∈ s.world.retired ∧
    ∀ row, s.world.auth.sessions token.sessionId = some row →
      row.refreshTokenId ≠ some token.id ∧
        row.isPreviousRefreshTokenWithinGrace token.id s.now = false
  deriving Decidable

theorem Consistent.revoked_step (h : s.Consistent) (hrevoked : s.Revoked session)
    (hstep : s.step overlap a = some s') : s'.Revoked session := by
  obtain ⟨new, hevolves, -⟩ := h.evolves hstep
  obtain ⟨row, hrow, hsome⟩ := hrevoked
  obtain ⟨row', hrow', -, hkept⟩ := hevolves.kept session row hrow
  exact ⟨row', hrow', hkept hsome⟩

theorem Consistent.now_le (h : s.Consistent) (hstep : s.step overlap a = some s') :
    s.now ≤ s'.now := by
  rcases h.step_cases hstep with ⟨now, hle, rfl⟩ | ⟨user, rfl⟩ | ⟨c, rfl, -⟩ |
    ⟨i, w, c, c', -, rfl, -⟩
  · exact hle
  all_goals exact Int.le_refl _

theorem isPrevious_later {id : Uuid} {later : Instant}
    (h : row.isPreviousRefreshTokenWithinGrace id now = false) (hle : now ≤ later) :
    row.isPreviousRefreshTokenWithinGrace id later = false := by
  rw [Bool.eq_false_iff, ne_eq, AuthSession.isPrevious_iff] at h ⊢
  rintro ⟨hprevious, expires, hexpires, hlt⟩
  exact h ⟨hprevious, expires, hexpires, Int.lt_of_le_of_lt hle hlt⟩

theorem Consistent.stale_step (h : s.Consistent) (hstale : s.Stale token)
    (hstep : s.step overlap a = some s') : s'.Stale token := by
  obtain ⟨new, hevolves, -⟩ := h.evolves hstep
  obtain ⟨hretired, hrow⟩ := hstale
  have hretired' := hevolves.retired _ hretired
  refine ⟨hretired', fun row' hrow' => ⟨fun hcurrent => ?_, ?_⟩⟩
  · exact (h.step hstep).world.current _ _ row' token.id hrow' hcurrent hretired'
  · rw [Bool.eq_false_iff, ne_eq, AuthSession.isPrevious_iff]
    rintro ⟨hprevious, expires, hexpires, hlt⟩
    rcases hevolves.previous _ row' token.id hrow' hprevious with
      ⟨row, hold, hprevious', heq⟩ | ⟨⟨row, hold, hcurrent⟩, -⟩
    · have hnot := (hrow row hold).2
      rw [Bool.eq_false_iff, ne_eq, AuthSession.isPrevious_iff] at hnot
      have hle := h.now_le hstep
      exact hnot ⟨hprevious', expires, heq.symm.trans hexpires, Int.lt_of_le_of_lt hle hlt⟩
    · exact (hrow row hold).1 hcurrent

/-! ## A request with a stale token -/

/-- The request has not got past its reading, or revokes the session, unless a statement of it
    has `failed`. -/
def Caught (failed : Prop) (s : System) (token : RefreshToken) : Call → Prop
  | .started token' => token' = token
  | .fetched token' row => token' = token ∧ (row.revokedAt.isSome → s.Revoked token.sessionId) ∧
      row.refreshTokenId ≠ some token.id ∧
        row.isPreviousRefreshTokenWithinGrace token.id s.now = false
  | .looking token' row previous => token' = token ∧ previous = false ∧
      row.refreshTokenId ≠ some token.id
  | .revoking session reply => session = token.sessionId ∧ reply = .error .tokenReuseDetected
  | .revokingCommit session _ _ reply =>
      session = token.sessionId ∧ reply = .error .tokenReuseDetected
  | .done outcome =>
      outcome = .dropped ∨ outcome = .error .other ∧ failed ∨ s.Revoked token.sessionId
  | _ => False

theorem revoked_revokeAuthSession {w : World} {tokens : List Uuid}
    (hrow : w.auth.sessions session = some row) :
    ∃ row', (w.auth.revokeAuthSession session tokens now).sessions session = some row' ∧
      row'.revokedAt.isSome :=
  ⟨_, AuthTables.modify_some hrow, World.revokeUnlessRevoked_isSome row now⟩

theorem Consistent.caught_step {failed : Prop} (h : s.Consistent) (hstale : s.Stale token)
    (hc : s.calls i = some c) (hcaught : Caught failed s token c)
    (hfails : ∀ answer, answer ≠ .ok → a = .statement i answer → failed)
    (hstep : s.step overlap a = some s') :
    ∃ c', s'.calls i = some c' ∧ Caught failed s' token c' := by
  have hrevoked : s.Revoked token.sessionId → s'.Revoked token.sessionId :=
    fun hrevoked => h.revoked_step hrevoked hstep
  obtain ⟨row₀, hrow₀⟩ := h.world.retired _ _ hstale.1
  obtain ⟨hcurrent₀, hprevious₀⟩ := hstale.2 row₀ hrow₀
  have hle := h.now_le hstep
  cases h.follows hc hstep with
  | same hsame =>
    refine ⟨c, hsame, ?_⟩
    cases c with
    | fetched token' row =>
      obtain ⟨htoken, hsome, hcurrent, hprevious⟩ := hcaught
      exact ⟨htoken, fun hr => hrevoked (hsome hr), hcurrent, isPrevious_later hprevious hle⟩
    | done outcome => exact hcaught.imp_right fun hr => hr.imp_right hrevoked
    | _ => exact hcaught
  | statement w c' hstatement hc' hw =>
    refine ⟨c', hc', ?_⟩
    cases c with
    | started token' =>
      obtain rfl : token' = token := hcaught
      simp only [Call.statement, hrow₀] at hstatement
      cases hstatement
      exact ⟨rfl, fun hsome => hrevoked ⟨row₀, hrow₀, hsome⟩, hcurrent₀,
        isPrevious_later hprevious₀ hle⟩
    | looking token' row previous =>
      obtain ⟨rfl, rfl, hcurrent⟩ := hcaught
      simp only [Call.statement] at hstatement
      rw [if_pos (by simp [Call.reused, hcurrent])] at hstatement
      cases hstatement
      exact ⟨rfl, rfl⟩
    | revoking session reply =>
      cases hstatement
      exact hcaught
    | revokingCommit session tokens began reply =>
      obtain ⟨rfl, rfl⟩ := hcaught
      cases hstatement
      refine .inr (.inr ?_)
      unfold Revoked
      rw [hw]
      exact revoked_revokeAuthSession hrow₀
    | fetched | done => cases hstatement
    | _ => exact hcaught.elim
  | failed w c' hstatement hc' ha =>
    obtain ⟨answer, hne, ha⟩ := ha
    refine ⟨_, hc', ?_⟩
    cases c with
    | started token' | looking token' row previous | revokingCommit session tokens began reply =>
        exact .inr (.inl ⟨rfl, hfails answer hne ha⟩)
    | revoking session reply =>
      exact .inr (.inl ⟨rfl, hfails answer hne ha⟩)
    | fetched | done => cases hstatement
    | _ => exact hcaught.elim
  | examine c' hexamine hc' =>
    refine ⟨c', hc', ?_⟩
    cases c with
    | fetched token' row =>
      obtain ⟨rfl, hsome, hcurrent, hprevious⟩ := hcaught
      cases hexamine
      split_ifs with hr
      · exact .inr (.inr (hrevoked (hsome hr)))
      · exact ⟨rfl, hprevious, hcurrent⟩
    | started | looking | revoking | revokingCommit | done => cases hexamine
    | _ => exact hcaught.elim
  | work result w c' hwork hc' =>
    cases c with
    | validating | issuing | loading => exact hcaught.elim
    | _ => cases hwork
  | drop hdone hc' => exact ⟨_, hc', .inl rfl⟩

/-! ## After the revocation -/

/-- A request after the revocation: it gets neither tokens nor an authentication. -/
def Barred (session : Uuid) : Call → Prop
  | .started token => token.sessionId = session
  | .fetched _ row => row.revokedAt.isSome
  | .authenticate claims => claims.sessionId = session
  | .authenticateRead _ row => row.revokedAt.isSome
  | .done (.tokens ..) => False
  | .done (.authenticated ..) => False
  | .done _ => True
  | _ => False

theorem Consistent.barred_step (h : s.Consistent) (hrevoked : s.Revoked session)
    (hc : s.calls i = some c) (hbarred : Barred session c) (hstep : s.step overlap a = some s') :
    ∃ c', s'.calls i = some c' ∧ Barred session c' := by
  obtain ⟨row₀, hrow₀, hsome₀⟩ := hrevoked
  cases h.follows hc hstep with
  | same hsame => exact ⟨c, hsame, hbarred⟩
  | statement w c' hstatement hc' hw =>
    refine ⟨c', hc', ?_⟩
    cases c with
    | started token | authenticate claims =>
      obtain rfl : _ = session := hbarred
      simp only [Call.statement, hrow₀] at hstatement
      cases hstatement
      exact hsome₀
    | fetched | authenticateRead | done => cases hstatement
    | _ => exact hbarred.elim
  | failed w c' hstatement hc' =>
    refine ⟨_, hc', ?_⟩
    cases c with
    | started | authenticate => trivial
    | fetched | authenticateRead | done => cases hstatement
    | _ => exact hbarred.elim
  | examine c' hexamine hc' =>
    refine ⟨c', hc', ?_⟩
    cases c with
    | fetched token row | authenticateRead claims row =>
      cases hexamine
      rw [if_pos (show row.revokedAt.isSome from hbarred)]
      trivial
    | started | authenticate | done => cases hexamine
    | _ => exact hbarred.elim
  | work result w c' hwork hc' =>
    cases c with
    | validating | issuing | loading => exact hbarred.elim
    | _ => cases hwork
  | drop hdone hc' => exact ⟨_, hc', trivial⟩

/-! ## Containment -/

/-- A request is answered as number `s.started` in a run from `s` with steps in `ok`. -/
def Answers (overlap : ℤ) (ok : System → Action → Prop) (s : System) (a : Action) (s' : System)
    (outcome : Outcome) : Prop :=
  ∃ s₁, s.step overlap a = some s₁ ∧ Runs (step overlap) ok s₁ s' ∧
    s'.calls s.started = some (.done outcome)

theorem call_self (s : System) (c : Call) : (s.call c).calls s.started = some c := update_self _ _ _

theorem Consistent.caught_answers (h : s.Consistent) (hstale : s.Stale token)
    (hlive : tokenExpired token.expiresAt s.now = false)
    (hanswers : Answers overlap ok s (.refresh token) s' outcome) :
    outcome = .dropped ∨ (outcome = .error .other ∧
      ∃ t answer, answer ≠ .ok ∧ ok t (.statement s.started answer)) ∨
      s'.Revoked token.sessionId := by
  obtain ⟨s₁, hstep, hruns, hdone⟩ := hanswers
  have hstart : s₁ = s.call (.started token) := by
    simp only [System.step, System.refresh, hlive, Bool.false_eq_true, if_false] at hstep
    exact (some.inj hstep).symm
  have hcaught : s'.Consistent ∧ s'.Stale token ∧ ∃ c, s'.calls s.started = some c ∧
      Caught (∃ t answer, answer ≠ .ok ∧ ok t (.statement s.started answer)) s' token c := by
    refine hruns.preserves (P := fun t => t.Consistent ∧ t.Stale token ∧
      ∃ c, t.calls s.started = some c ∧ Caught _ t token c) ?_
      ⟨h.step hstep, h.stale_step hstale hstep, .started token, ?_, ?_⟩
    · rintro t a t' ⟨ht, hstale, c, hc, hcaught⟩ hok hstep
      exact ⟨ht.step hstep, ht.stale_step hstale hstep, ht.caught_step hstale hc hcaught
        (fun answer hne ha => ⟨t, answer, hne, ha ▸ hok⟩) hstep⟩
    · rw [hstart]
      exact s.call_self _
    · rfl
  obtain ⟨-, -, c, hc, hcaught⟩ := hcaught
  rw [hdone, some.injEq] at hc
  subst hc
  exact hcaught

theorem Consistent.barred_answers (h : s.Consistent)
    (hrevoked : s.Revoked session) (hbarred : ∀ s₁, s.step overlap a = some s₁ →
      ∃ c, s₁.calls s.started = some c ∧ Barred session c)
    (hanswers : Answers overlap ok s a s' outcome) : Barred session (.done outcome) := by
  obtain ⟨s₁, hstep, hruns, hdone⟩ := hanswers
  have hrun : s'.Consistent ∧ s'.Revoked session ∧ ∃ c, s'.calls s.started = some c ∧
      Barred session c := by
    refine hruns.preserves (P := fun t => t.Consistent ∧ t.Revoked session ∧
      ∃ c, t.calls s.started = some c ∧ Barred session c) ?_
      ⟨h.step hstep, h.revoked_step hrevoked hstep, hbarred s₁ hstep⟩
    rintro t a t' ⟨ht, hrevoked, c, hc, hbarred⟩ - hstep
    exact ⟨ht.step hstep, ht.revoked_step hrevoked hstep, ht.barred_step hrevoked hc hbarred hstep⟩
  obtain ⟨-, -, c, hc, hbarred⟩ := hrun
  rw [hdone, some.injEq] at hc
  subst hc
  exact hbarred

/-- In every run: a token is replaced by one successor at most. A request with a stale token that
    has not expired leaves the session revoked when it is answered, unless the run lets a statement
    of it fail. After the revocation a request with a token of the session gets no tokens, and one
    with an access token is not authenticated. -/
theorem theft_contained (overlap : ℤ) (s : System)
    (h : Reachable (step overlap) anyStep Initial s) :
    (∀ old new new', (old, new) ∈ s.world.replacements → (old, new') ∈ s.world.replacements →
      new = new') ∧
    (∀ token ok s' outcome, s.Stale token → tokenExpired token.expiresAt s.now = false →
      Answers overlap ok s (.refresh token) s' outcome →
      outcome = .dropped ∨ (outcome = .error .other ∧
        ∃ t answer, answer ≠ .ok ∧ ok t (.statement s.started answer)) ∨
        s'.Revoked token.sessionId) ∧
    ∀ session, s.Revoked session → (∀ token s' session' new, token.sessionId = session →
        ¬ Answers overlap anyStep s (.refresh token) s' (.tokens session' new)) ∧
      ∀ claims s' user session', claims.sessionId = session →
        ¬ Answers overlap anyStep s (.authenticate claims) s' (.authenticated user session') := by
  have hconsistent := consistent_of_reachable h
  refine ⟨hconsistent.world.unique, fun token ok s' outcome hstale hlive hanswers =>
    hconsistent.caught_answers hstale hlive hanswers, fun session hrevoked =>
      ⟨fun token s' session' new htoken hanswers => ?_, fun claims s' user session' hclaims
        hanswers => ?_⟩⟩
  · refine hconsistent.barred_answers hrevoked (fun s₁ hstep => ?_) hanswers
    cases hstep
    refine ⟨_, s.call_self _, ?_⟩
    unfold System.refresh
    split
    · trivial
    · exact htoken
  · refine hconsistent.barred_answers hrevoked (fun s₁ hstep => ?_) hanswers
    cases hstep
    refine ⟨_, s.call_self _, ?_⟩
    unfold System.authenticate
    split
    · trivial
    · exact hclaims

/-! ## Examples -/

variable (overlap token) in
theorem answers_of_exec (as bs : List Action) (outcome : Outcome) (Q : System → System → Prop)
    [∀ s s', Decidable (Q s s')]
    (hexec : ((exec (step overlap) anyStep emptySystem as).bind fun s =>
      (s.step overlap (.refresh token)).bind fun s₁ =>
        (exec (step overlap) anyStep s₁ bs).map fun s' =>
          decide (s.Stale token ∧ s'.calls s.started = some (.done outcome) ∧ Q s s')) =
      some true) :
    ∃ s s', Reachable (step overlap) anyStep Initial s ∧ s.Stale token ∧
      Answers overlap anyStep s (.refresh token) s' outcome ∧ Q s s' := by
  obtain ⟨s, hs, hexec⟩ := bind_eq_some_iff.1 hexec
  obtain ⟨s₁, hstep, hexec⟩ := bind_eq_some_iff.1 hexec
  obtain ⟨s', hs', hdecide⟩ := map_eq_some_iff.1 hexec
  obtain ⟨hstale, hdone, hQ⟩ := of_decide_eq_true hdecide
  exact ⟨s, s', reachable_of_exec initial_emptySystem hs, hstale,
    ⟨s₁, hstep, runs_of_exec hs', hdone⟩, hQ⟩

/-- The overlap is over, and the old token comes again. -/
theorem theft_contained_reuse : ∃ s s', Reachable (step 60000000) anyStep Initial s ∧
    s.Stale (tokenOf 1) ∧
    Answers 60000000 anyStep s (.refresh (tokenOf 1)) s' (.error .tokenReuseDetected) ∧
    s'.Revoked 0 := by
  obtain ⟨s, s', hreach, hstale, hanswers, hlive⟩ :=
    answers_of_exec 60000000 (tokenOf 1) (login ++ refreshSteps 1 1 ++ [.tick 61000000])
      [.statement 2 .ok, .examine 2, .statement 2 .ok, .statement 2 .ok, .statement 2 .ok]
      (.error .tokenReuseDetected) (fun s _ => tokenExpired (tokenOf 1).expiresAt s.now = false)
      (by decide +kernel)
  refine ⟨s, s', hreach, hstale, hanswers, ?_⟩
  rcases (theft_contained _ s hreach).2.1 _ _ _ _ hstale hlive hanswers with
    heq | ⟨heq, -⟩ | hrevoked
  · cases heq
  · cases heq
  · exact hrevoked

/-- A stale token that has expired, and one whose lookup fails: the session stays in use. -/
theorem theft_unnoticed :
    (∃ s s', Reachable (step 60000000) anyStep Initial s ∧ s.Stale (tokenOf 1) ∧
      Answers 60000000 anyStep s (.refresh (tokenOf 1)) s' (.error .invalidToken) ∧
      ¬ s'.Revoked 0) ∧
    ∃ s s', Reachable (step 60000000) anyStep Initial s ∧ s.Stale (tokenOf 1) ∧
      Answers 60000000 anyStep s (.refresh (tokenOf 1)) s' (.error .other) ∧ ¬ s'.Revoked 0 := by
  refine ⟨?_, ?_⟩
  · exact answers_of_exec _ _ (login ++ refreshSteps 1 1 ++ [.tick (366 * 86400 * 1000000)]) [] _
      (fun _ s' => ¬ s'.Revoked 0) (by decide +kernel)
  · exact answers_of_exec _ _ (login ++ refreshSteps 1 1 ++ [.tick 61000000])
      [.statement 2 .ok, .examine 2, .statement 2 .failed] _ (fun _ s' => ¬ s'.Revoked 0)
      (by decide +kernel)

end System

end VibeKanban.Auth
