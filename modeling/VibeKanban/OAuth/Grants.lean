import VibeKanban.Lib.Utf8
import VibeKanban.OAuth.Ledger

/-!
# Grant safety of the OAuth server

`TaskOk` says what a token request may rely on between its steps.

* `grants_safe`: what is resolved, minted, rotated and verified, in every reachable state.
-/

namespace VibeKanban.OAuth

open Lib Option Store Prod

variable {crypto : Crypto} {s s' : Server} {a : McpOAuthAuthorization} {g : Uuid} {now : Instant}
  {task : TokenTask}

/-! ## What a request relies on -/

/-- The row that the look-up of a code has returned: that of the approval which gave the code
    out. -/
def BoundCode (crypto : Crypto) (s : Server) (request : TokenRequest) (code : String)
    (a : McpOAuthAuthorization) : Prop :=
  request.code = some code ∧ ∃ row, .resolved row (some code) ∈ s.history ∧
    row.codeHash = some (crypto.digest code) ∧ SameRow row a

/-- The record that the look-up of a refresh token has returned. -/
def BoundRefresh (s : Server) (request : TokenRequest) (token : String)
    (record : McpOAuthTokenRecord) : Prop :=
  request.refreshToken = some token ∧
    (⟨token, .refresh, record.grantId⟩ : IssuedToken) ∈ issuedTokens s.history

/-- The answers to a correctly bound presentation of a code. One that is recognised as the
    second has left no live token of the grant, unless its row has been pruned. -/
def CodeAnswer (s : Server) (code : String) (a : McpOAuthAuthorization) (now : Instant)
    (response : Response) : Prop :=
  response = serverError ∨
    (∃ g tokens, response = .tokens tokens ∧ .minted code a.id g tokens ∈ s.history ∧
      a.status = .approved) ∨
    (response = codeExpired ∧ a.status = .approved ∧ a.expiresAt ≤ now) ∨
    response = codeAlreadyUsed ∧ ((∃ row ∈ s.db.1.authorizations, row.id = a.id) →
      ∃ g tokens, .minted code a.id g tokens ∈ s.history ∧ Closed s g)

/-- The answers to a correctly bound presentation of a refresh token. -/
def RefreshAnswer (s : Server) (token : String) (record : McpOAuthTokenRecord) (now : Instant)
    (response : Response) : Prop :=
  response = serverError ∨
    (∃ tokens, response = .tokens tokens ∧ .rotated token record.grantId tokens ∈ s.history ∧
      record.revokedAt = none) ∨
    (response = refreshExpired ∧ record.revokedAt = none ∧
      (record.grantRevokedAt ≠ none ∨ record.expiresAt ≤ now)) ∨
    response = refreshAlreadyUsed ∧ Closed s record.grantId

/-- What holds of a token request between two of its steps. -/
def TaskOk (crypto : Crypto) (s : Server) (task : TokenTask) : Prop :=
  match task.pc with
  | .arrived | .authenticated _ => True
  | .findingCode _ code _ _ _ => task.request.code = some code
  | .exchanging code a now =>
    BoundCode crypto s task.request code a ∧ a.status = .approved ∧ now < a.expiresAt
  | .findingReplayed code a _ =>
    BoundCode crypto s task.request code a ∧
      ∀ row ∈ s.db.1.authorizations, row.id = a.id → row.status = .exchanged
  | .revokingReplayed code a g _ =>
    BoundCode crypto s task.request code a ∧ ∃ tokens, .minted code a.id g tokens ∈ s.history
  | .findingRefresh _ token _ => task.request.refreshToken = some token
  | .rotating token record _ => BoundRefresh s task.request token record ∧ record.revokedAt = none
  | .revokingReused token record _ => BoundRefresh s task.request token record
  | .answered response (.code a now) =>
    ∃ code, BoundCode crypto s task.request code a ∧ CodeAnswer s code a now response
  | .answered response (.refresh record now) =>
    ∃ token, BoundRefresh s task.request token record ∧ RefreshAnswer s token record now response
  | .answered _ .nothing => True

section Later

variable {request : TokenRequest} {response : Response}

theorem BoundCode.later {code : String}
    (h : BoundCode crypto s request code a) (hs : Extends s s') :
    BoundCode crypto s' request code a := by
  obtain ⟨hcode, row, hres, hash, hrow⟩ := h
  exact ⟨hcode, row, hs.history _ hres, hash, hrow⟩

theorem issuedTokens_later {i : IssuedToken} (hi : i ∈ issuedTokens s.history)
    (hs : Extends s s') : i ∈ issuedTokens s'.history := by
  obtain ⟨e, he, hie⟩ := List.mem_flatMap.1 hi
  exact List.mem_flatMap.2 ⟨e, hs.history e he, hie⟩

theorem BoundRefresh.later {token : String}
    {record : McpOAuthTokenRecord} (h : BoundRefresh s request token record)
    (hs : Extends s s') : BoundRefresh s' request token record :=
  ⟨h.1, issuedTokens_later h.2 hs⟩

section

variable (hl : Ledger crypto s)
include hl

theorem CodeAnswer.later {code : String} (hb : BoundCode crypto s request code a)
    (h : CodeAnswer s code a now response) (hs : Extends s s') :
    CodeAnswer s' code a now response := by
  rcases h with herr | ⟨g, tokens, hresp, hmint, hstatus⟩ | hexp | ⟨hused, hclosed⟩
  · exact .inl herr
  · exact .inr (.inl ⟨g, tokens, hresp, hs.history _ hmint, hstatus⟩)
  · exact .inr (.inr (.inl hexp))
  · refine .inr (.inr (.inr ⟨hused, ?_⟩))
    rintro ⟨row', hrow', hid⟩
    obtain ⟨-, row, hres, -, hsame⟩ := hb
    have hdrawn : row'.id ∈ s.drawnIds := by
      rw [hid, hsame.id]
      exact (hl.resolved_drawn row _ hres).1
    obtain ⟨row₀, hrow₀, hid₀, -⟩ := hs.rows row' hrow' hdrawn
    obtain ⟨g, tokens, hmint, hc⟩ := hclosed ⟨row₀, hrow₀, hid₀.trans hid⟩
    exact ⟨g, tokens, hs.history _ hmint, hs.closed g (hl.minted_drawn _ _ _ _ hmint) hc⟩

theorem RefreshAnswer.later {token : String} {record : McpOAuthTokenRecord}
    (hb : BoundRefresh s request token record) (h : RefreshAnswer s token record now response)
    (hs : Extends s s') : RefreshAnswer s' token record now response := by
  rcases h with herr | ⟨tokens, hresp, hrot, hlive⟩ | hexp | ⟨hused, hclosed⟩
  · exact .inl herr
  · exact .inr (.inl ⟨tokens, hresp, hs.history _ hrot, hlive⟩)
  · exact .inr (.inr (.inl hexp))
  · exact .inr (.inr (.inr ⟨hused, hs.closed _ (hl.issued_drawn _ hb.2).2 hclosed⟩))

theorem TaskOk.later (h : TaskOk crypto s task) (hs : Extends s s') : TaskOk crypto s' task := by
  obtain ⟨config, request, pc⟩ := task
  cases pc with
  | arrived => trivial
  | authenticated clientId => trivial
  | findingCode clientId code redirectUri verifier now => exact h
  | exchanging code a now => exact ⟨h.1.later hs, h.2⟩
  | findingReplayed code a now =>
    refine ⟨h.1.later hs, ?_⟩
    intro row' hrow' hid
    obtain ⟨-, row, hres, -, hsame⟩ := h.1
    have hdrawn : row'.id ∈ s.drawnIds := by
      rw [hid, hsame.id]
      exact (hl.resolved_drawn row _ hres).1
    obtain ⟨row₀, hrow₀, hid₀, hex⟩ := hs.rows row' hrow' hdrawn
    exact hex (h.2 row₀ hrow₀ (hid₀.trans hid))
  | revokingReplayed code a g now =>
    obtain ⟨tokens, hmint⟩ := h.2
    exact ⟨h.1.later hs, tokens, hs.history _ hmint⟩
  | findingRefresh clientId token now => exact h
  | rotating token record now => exact ⟨h.1.later hs, h.2⟩
  | revokingReused token record now => exact BoundRefresh.later h hs
  | answered response lookedUp =>
    cases lookedUp with
    | nothing => trivial
    | code a now =>
      obtain ⟨code, hb, ha⟩ := h
      exact ⟨code, hb.later hs, ha.later hl hb hs⟩
    | refresh record now =>
      obtain ⟨token, hb, ha⟩ := h
      exact ⟨token, hb.later hs, ha.later hl hb hs⟩

end

end Later

/-! ## Steps of the requests -/

variable {request : TokenRequest} {code : String}

theorem bound_of_find (h : Ledger crypto s) (hcode : request.code = some code)
    (hfind : s.db.findAuthorizationByCode (crypto.digest code) = some a) :
    BoundCode crypto s request code a ∧ a ∈ s.db.1.authorizations ∧
      (a.status = .approved ∧ (∀ code' g tokens, .minted code' a.id g tokens ∉ s.history) ∨
        a.status = .exchanged) := by
  obtain ⟨ha, hash⟩ := find?_some hfind
  have hhash : a.codeHash = some (crypto.digest code) := of_decide_eq_true hash
  have hcodes : ∀ {row : McpOAuthAuthorization} {code' : String},
      row.codeHash = some (crypto.digest code') → SameRow row a → code' = code := by
    intro row code' hrow hsame
    rw [hsame.codeHash, hrow] at hhash
    exact crypto.digest_injective (some.inj hhash)
  cases h.authorization a ha with
  | pending status none | denied status none => rw [none] at hhash; cases hhash
  | approved status row code' resolved hrow same unminted =>
    cases hcodes hrow same
    exact ⟨⟨hcode, row, resolved, hrow, same⟩, ha, .inl ⟨status, unminted⟩⟩
  | exchanged status row code' resolved hrow same =>
    cases hcodes hrow same
    exact ⟨⟨hcode, row, resolved, hrow, same⟩, ha, .inr status⟩

variable {config : McpOAuthConfig} {clientId : String}

theorem taskOk_codeFound (h : Ledger crypto s)
    {redirectUri verifier : String} (hcode : request.code = some code) :
    TaskOk crypto s ⟨config, request, codeFound crypto clientId code redirectUri verifier now
      (s.db.findAuthorizationByCode (crypto.digest code))⟩ := by
  cases hfind : s.db.findAuthorizationByCode (crypto.digest code) with
  | none => trivial
  | some a =>
    obtain ⟨hb, ha, hstatus⟩ := bound_of_find h hcode hfind
    dsimp only [codeFound]
    split_ifs with hbind hex hexp
    · trivial
    · refine ⟨hb, ?_⟩
      intro row hrow hid
      rw [s.db.2.authorizations_keyed.eq hrow ha hid]
      exact hex
    · have happroved := (hstatus.resolve_right hex).1
      have hle := hexp.resolve_left (not_not.2 happroved)
      exact ⟨code, hb, .inr (.inr (.inl ⟨rfl, happroved, hle⟩))⟩
    · rw [not_or, not_not, not_le] at hexp
      exact ⟨hb, hexp⟩

variable {token : String}

theorem taskOk_refreshFound (h : Ledger crypto s) (htoken : request.refreshToken = some token) :
    TaskOk crypto s ⟨config, request, refreshFound clientId token now
      (s.db.findToken (crypto.digest token))⟩ := by
  cases hfind : s.db.findToken (crypto.digest token) with
  | none => trivial
  | some record =>
    have hb : record.kind = .refresh → BoundRefresh s request token record := by
      intro hkind
      obtain ⟨t, ht, g, hg, hash, hid, heq⟩ := findToken_eq_some hfind
      obtain ⟨i, hi, hdigest, hikind, higrant⟩ := h.token t ht
      have hsame : i.token = token := crypto.digest_injective (hdigest.trans hash)
      refine ⟨htoken, ?_⟩
      have hrefresh : i = ⟨token, .refresh, record.grantId⟩ := by
        rw [← hsame, ← hkind, heq, ← hikind, ← higrant]
      rw [← hrefresh]
      exact hi
    dsimp only [refreshFound]
    split_ifs with hkind hrev hexp
    · trivial
    · rw [not_or, not_not] at hkind
      exact hb hkind.1
    · rw [not_or, not_not] at hkind
      exact ⟨token, hb hkind.1, .inr (.inr (.inl ⟨rfl, not_not.1 hrev, hexp⟩))⟩
    · rw [not_or, not_not] at hkind
      exact ⟨hb hkind.1, not_not.1 hrev⟩

/-- What a step leaves behind: the tables in order, and nothing undone. -/
structure Advances (crypto : Crypto) (s s' : Server) : Prop where
  ledger : Ledger crypto s'
  later : Extends s s'
  requests : s'.requests = s.requests

theorem Advances.trans {s'' : Server} (h : Advances crypto s s') (h' : Advances crypto s' s'') :
    Advances crypto s s'' :=
  ⟨h'.ledger, h.later.trans h'.later, h'.requests.trans h.requests⟩

theorem Advances.refl (h : Ledger crypto s) : Advances crypto s s := ⟨h, Extends.refl s, rfl⟩

theorem advances_draw (h : Ledger crypto s) (secrets : List String) (ids : List Uuid) :
    Advances crypto s (s.draw secrets ids) :=
  ⟨ledger_draw h secrets ids, extends_draw s secrets ids, rfl⟩

theorem taskOk_serverError_code (hb : BoundCode crypto s request code a) :
    TaskOk crypto s ⟨config, request, .answered serverError (.code a now)⟩ :=
  ⟨code, hb, .inl rfl⟩

variable {record : McpOAuthTokenRecord}

theorem taskOk_serverError_refresh (hb : BoundRefresh s request token record) :
    TaskOk crypto s ⟨config, request, .answered serverError (.refresh record now)⟩ :=
  ⟨token, hb, .inl rfl⟩

variable {draw : Draw} {ok : Bool} {pc : TokenPc}

section

variable (h : Ledger crypto s)
include h

theorem step_exchanging (hb : BoundCode crypto s request code a) (hstatus : a.status = .approved)
    (hlive : now < a.expiresAt)
    (hstep : tokenStep crypto s ⟨config, request, .exchanging code a now⟩ draw ok = some (s', pc)) :
    Advances crypto s s' ∧ TaskOk crypto s' ⟨config, request, pc⟩ := by
  simp only [tokenStep] at hstep
  split_ifs at hstep with hfresh
  · have hfresh' : s.Fresh [draw.tokens.accessToken, draw.tokens.refreshToken] [draw.grantId] :=
      hfresh
    have hdraw := advances_draw h [draw.accessToken, draw.refreshToken] [draw.grantId]
    obtain ⟨hcode, row, hres, hash, hrow⟩ := hb
    split at hstep <;> cases hstep
    · rename_i hex
      rcases exchangeCode_eq_ok hex with ⟨hout, -⟩ | ⟨hout, hfound, hdb⟩ <;> cases hout
      obtain ⟨hl, he⟩ := ledger_exchange h hres hrow hfresh' hfound hdb
      refine ⟨⟨hl, he, rfl⟩, code, ⟨hcode, row, he.history _ hres, hash, hrow⟩, ?_⟩
      exact .inr (.inl ⟨_, _, rfl, List.mem_append_right _ (List.mem_singleton.2 rfl), hstatus⟩)
    · rename_i hex
      rcases exchangeCode_eq_ok hex with ⟨-, hsame, hnone⟩ | ⟨hout, -⟩
      · rw [record_nil, hsame]
        refine ⟨hdraw, ⟨hcode, row, hres, hash, hrow⟩, ?_⟩
        -- the code had not expired, so only another exchange can have taken it
        intro row' hrow' hid
        have hne : row'.status ≠ .approved := by
          intro happroved
          have hnot := hnone row' hrow'
          have hexp : row'.expiresAt = a.expiresAt := by
            rw [h.same_row hrow' hres (hid.trans hrow.id).symm, hrow]
          rw [isApproved, hid, happroved, hexp] at hnot
          simp [hlive] at hnot
        exact (h.exchanged_row hrow' hres (hid.trans hrow.id).symm hne).1
      · cases hout
    · exact ⟨hdraw, taskOk_serverError_code ⟨hcode, row, hres, hash, hrow⟩⟩
  · cases hstep
    have hdraw := advances_draw h [draw.accessToken, draw.refreshToken] [draw.grantId]
    exact ⟨hdraw, taskOk_serverError_code (hb.later hdraw.later)⟩

theorem step_rotating (hb : BoundRefresh s request token record) (hlive : record.revokedAt = none)
    (hstep : tokenStep crypto s ⟨config, request, .rotating token record now⟩ draw ok =
      some (s', pc)) : Advances crypto s s' ∧ TaskOk crypto s' ⟨config, request, pc⟩ := by
  simp only [tokenStep] at hstep
  split_ifs at hstep with hfresh
  · have hfresh' : s.Fresh [draw.tokens.accessToken, draw.tokens.refreshToken] [] := hfresh
    have hdraw := advances_draw h [draw.accessToken, draw.refreshToken] []
    split at hstep <;> cases hstep
    · rename_i hrot
      rcases rotateRefresh_eq_ok hrot with ⟨hout, -⟩ | ⟨-, hfound, hdb⟩
      · cases hout
      · obtain ⟨hl, he⟩ := ledger_rotate h hb.2 hfresh' hfound hdb
        refine ⟨⟨hl, he, rfl⟩, token, hb.later he, ?_⟩
        exact .inr (.inl ⟨_, rfl, List.mem_append_right _ (List.mem_singleton.2 rfl), hlive⟩)
    · rename_i hrot
      rcases rotateRefresh_eq_ok hrot with ⟨-, hsame⟩ | ⟨hout, -⟩
      · rw [record_nil, hsame]
        exact ⟨hdraw, hb.later hdraw.later⟩
      · cases hout
    · exact ⟨hdraw, taskOk_serverError_refresh (hb.later hdraw.later)⟩
  · cases hstep
    have hdraw := advances_draw h [draw.accessToken, draw.refreshToken] []
    exact ⟨hdraw, taskOk_serverError_refresh (hb.later hdraw.later)⟩

theorem step_findingReplayed (hb : BoundCode crypto s request code a)
    (hex : ∀ row ∈ s.db.1.authorizations, row.id = a.id → row.status = .exchanged)
    (hstep : tokenStep crypto s ⟨config, request, .findingReplayed code a now⟩ draw ok =
      some (s', pc)) : Advances crypto s s' ∧ TaskOk crypto s' ⟨config, request, pc⟩ := by
  obtain ⟨hcode, row, hres, hash, hrow⟩ := hb
  -- a row that is still there carries the grant, or the grant is gone
  have hrowof : ∀ row' ∈ s.db.1.authorizations, row'.id = a.id →
      ∃ g tokens, .minted code a.id g tokens ∈ s.history ∧
        (row'.grantId = some g ∨ row'.grantId = none ∧ Closed s g) := by
    intro row' hrow' hid
    have hne : row'.status ≠ .approved := by
      rw [hex row' hrow' hid]
      exact AuthorizationStatus.noConfusion
    obtain ⟨-, g, tokens, hmint, hg⟩ := h.exchanged_row hrow' hres (hid.trans hrow.id).symm hne
    rw [hid] at hmint
    exact ⟨g, tokens, hmint, hg⟩
  simp only [tokenStep] at hstep
  split_ifs at hstep
  · split at hstep <;> cases hstep
    · rename_i g hg
      refine ⟨Advances.refl h, ⟨hcode, row, hres, hash, hrow⟩, ?_⟩
      obtain ⟨row', hfind, hgrant⟩ := bind_eq_some_iff.1 hg
      obtain ⟨hrow', hp⟩ := find?_some hfind
      rw [Bool.and_eq_true, decide_eq_true_eq, decide_eq_true_eq] at hp
      obtain ⟨g', tokens, hmint, hg'⟩ := hrowof row' hrow' hp.1
      have hsome : row'.grantId = some g := hgrant
      rcases hg' with heq | ⟨hnone, -⟩
      · rw [hsome] at heq
        cases heq
        exact ⟨tokens, hmint⟩
      · rw [hsome] at hnone
        cases hnone
    · rename_i hg
      refine ⟨Advances.refl h, code, ⟨hcode, row, hres, hash, hrow⟩, ?_⟩
      refine .inr (.inr (.inr ⟨rfl, ?_⟩))
      rintro ⟨row', hrow', hid⟩
      obtain ⟨g, tokens, hmint, hg'⟩ := hrowof row' hrow' hid
      refine ⟨g, tokens, hmint, ?_⟩
      have hfind : s.db.1.authorizations.find?
          (fun b => b.id = a.id && b.status = .exchanged) = some row' := by
        apply s.db.2.authorizations_keyed.find?_eq (k := a.id) _ hrow'
        · rw [Bool.and_eq_true, decide_eq_true_eq, decide_eq_true_eq]
          exact ⟨hid, hex row' hrow' hid⟩
        · intro b hb
          rw [Bool.and_eq_true, decide_eq_true_eq] at hb
          exact hb.1
      have hnone : row'.grantId = none := by
        rw [exchangedGrant, hfind] at hg
        exact hg
      rcases hg' with heq | ⟨-, hclosed⟩
      · rw [hnone] at heq
        cases heq
      · exact hclosed
  · cases hstep
    exact ⟨Advances.refl h, taskOk_serverError_code ⟨hcode, row, hres, hash, hrow⟩⟩

end

variable {db : Store}

theorem step_revoking (h : Ledger crypto s) {revoked : Bool}
    (hrev : s.db.revokeGrant g now = .ok (db, revoked)) :
    Advances crypto s (s.record db (revocation g revoked)) ∧
      Closed (s.record db (revocation g revoked)) g := by
  obtain ⟨hl, he, hc⟩ := ledger_revokeGrant h hrev
  exact ⟨⟨hl, he, rfl⟩, hc⟩

theorem tokenStep_ok (h : Ledger crypto s) (ht : TaskOk crypto s task)
    (hstep : tokenStep crypto s task draw ok = some (s', pc)) :
    Advances crypto s s' ∧ TaskOk crypto s' { task with pc := pc } := by
  obtain ⟨config, request, pc₀⟩ := task
  cases pc₀ with
  | arrived =>
    simp only [tokenStep] at hstep
    split at hstep
    · split_ifs at hstep <;> cases hstep
      · refine ⟨Advances.refl h, ?_⟩
        unfold clientFound
        split
        · split_ifs <;> trivial
        · trivial
      · exact ⟨Advances.refl h, trivial⟩
    · cases hstep
      exact ⟨Advances.refl h, trivial⟩
  | authenticated clientId =>
    cases hstep
    refine ⟨Advances.refl h, ?_⟩
    unfold dispatch
    split_ifs
    · trivial
    · trivial
    · split
      · rename_i hcode _ _
        exact hcode
      · trivial
    · split
      · rename_i htoken
        exact htoken
      · trivial
    · trivial
  | findingCode clientId code redirectUri verifier now =>
    simp only [tokenStep] at hstep
    split_ifs at hstep <;> cases hstep
    · exact ⟨Advances.refl h, taskOk_codeFound h ht⟩
    · exact ⟨Advances.refl h, trivial⟩
  | exchanging code a now => exact step_exchanging h ht.1 ht.2.1 ht.2.2 hstep
  | findingReplayed code a now => exact step_findingReplayed h ht.1 ht.2 hstep
  | revokingReplayed code a g now =>
    simp only [tokenStep] at hstep
    obtain ⟨hb, tokens, hmint⟩ := ht
    split_ifs at hstep
    · split at hstep <;> cases hstep
      · rename_i hrev
        obtain ⟨hadv, hclosed⟩ := step_revoking h hrev
        refine ⟨hadv, code, hb.later hadv.later, .inr (.inr (.inr ⟨rfl, ?_⟩))⟩
        intro _
        exact ⟨g, tokens, hadv.later.history _ hmint, hclosed⟩
      · exact ⟨Advances.refl h, taskOk_serverError_code hb⟩
    · cases hstep
      exact ⟨Advances.refl h, taskOk_serverError_code hb⟩
  | findingRefresh clientId token now =>
    simp only [tokenStep] at hstep
    split_ifs at hstep <;> cases hstep
    · exact ⟨Advances.refl h, taskOk_refreshFound h ht⟩
    · exact ⟨Advances.refl h, trivial⟩
  | rotating token record now => exact step_rotating h ht.1 ht.2 hstep
  | revokingReused token record now =>
    simp only [tokenStep] at hstep
    have hb : BoundRefresh s request token record := ht
    split_ifs at hstep
    · split at hstep <;> cases hstep
      · rename_i hrev
        obtain ⟨hadv, hclosed⟩ := step_revoking h hrev
        exact ⟨hadv, token, hb.later hadv.later, .inr (.inr (.inr ⟨rfl, hclosed⟩))⟩
      · exact ⟨Advances.refl h, taskOk_serverError_refresh hb⟩
    · cases hstep
      exact ⟨Advances.refl h, taskOk_serverError_refresh hb⟩
  | answered response lookedUp => cases hstep

variable {id : Uuid}

theorem step_resolving (h : Ledger crypto s) (hfresh : s.Fresh [code] [])
    {given : Option String} (hgiven : ∀ c, given = some c → c = code)
    {expiresAt : Instant} {done : Bool}
    (hres : s.db.resolvePending id (given.map fun code => (crypto.digest code, expiresAt)) now =
      .ok (db, done)) :
    (done = true → Advances crypto s ((s.draw [code] []).record db
      ((db.findAuthorization id).toList.map fun row => .resolved row given))) ∧
    (done = false → Advances crypto s ((s.draw [code] []).record db [])) := by
  obtain ⟨hdb, hdone⟩ := resolvePending_eq_ok hres
  constructor
  · intro htrue
    obtain ⟨x, hx, hpending⟩ := hdone.1 htrue
    have hxid : x.id = id := by
      simp only [isPending, Bool.and_eq_true, decide_eq_true_eq] at hpending
      exact hpending.1.1
    have hfind : db.findAuthorization id = some (resolved (approval crypto given expiresAt) x) := by
      apply db.2.authorizations_keyed.find?_eq (k := id)
      · intro b hb
        exact of_decide_eq_true hb
      · rw [hdb]
        exact mem_update_of hx hpending
      · rw [decide_eq_true_eq, resolved_id]
        exact hxid
    rw [hfind]
    have hnew : ∀ c, given = some c → c ∉ s.drawn := by
      intro c hc
      rw [hgiven c hc]
      exact hfresh.2.1 code (List.mem_singleton.2 rfl)
    obtain ⟨hl, he⟩ := ledger_resolve h hnew
      (fun c hc => List.mem_singleton.2 (hgiven c hc)) hx hpending hdb
    exact ⟨hl, he, rfl⟩
  · intro hfalse
    have hnone : ∀ a ∈ s.db.1.authorizations, isPending id now a = false := by
      intro a ha
      by_contra hne
      rw [hdone.2 ⟨a, ha, by simpa using hne⟩] at hfalse
      cases hfalse
    have hsame : db = s.db := by
      apply Subtype.ext
      rw [hdb, update_eq_self hnone]
    rw [record_nil, hsame]
    exact advances_draw h [code] []

theorem decisionStep_ok (h : Ledger crypto s) {decision : DecisionTask}
    {pc : DecisionPc} (hstep : decisionStep crypto s decision code ok = some (s', pc)) :
    Advances crypto s s' := by
  obtain ⟨config, form, pc₀⟩ := decision
  cases pc₀ with
  | arrived | found authorization =>
    simp only [decisionStep] at hstep
    repeat' split at hstep
    all_goals
      cases hstep
      exact Advances.refl h
  | resolving authorization approved now =>
    simp only [decisionStep] at hstep
    have hgiven : ∀ c, (if approved = true then some code else none) = some c → c = code := by
      intro c hc
      split_ifs at hc
      exact (some.inj hc).symm
    generalize (if approved = true then some code else none) = given at hgiven hstep
    split_ifs at hstep with hfresh
    · split at hstep <;> cases hstep
      · rename_i hres
        exact (step_resolving h hfresh hgiven hres).1 rfl
      · rename_i hres
        exact (step_resolving h hfresh hgiven hres).2 rfl
      · exact advances_draw h [code] []
    · cases hstep
      exact advances_draw h [code] []
  | answered response => cases hstep

/-! ## Steps of the server -/

/-- The invariant of the server. -/
structure Safe (crypto : Crypto) (s : Server) : Prop where
  ledger : Ledger crypto s
  tasks : ∀ task ∈ s.requests, TaskOk crypto s task

theorem Safe.advance (h : Safe crypto s) (ha : Advances crypto s s') : Safe crypto s' := by
  refine ⟨ha.ledger, ?_⟩
  intro task htask
  exact (h.tasks task (ha.requests ▸ htask)).later h.ledger ha.later

theorem Ledger.congr (h : Ledger crypto s) (clock : Instant) (decisions : List DecisionTask)
    (requests : List TokenTask) :
    Ledger crypto { s with clock := clock, decisions := decisions, requests := requests } :=
  { h with
    authorization := fun a ha => (h.authorization a ha).later (fun _ he => he)
      (fun _ _ he => .inl he) (fun _ _ _ he => he) fun _ _ _ _ hg => hg }

theorem Extends.congr (s : Server) (clock : Instant) (decisions : List DecisionTask)
    (requests : List TokenTask) :
    Extends s { s with clock := clock, decisions := decisions, requests := requests } :=
  ⟨fun _ h => h, fun _ h => h, fun _ _ h => h, fun a ha _ => ⟨a, ha, rfl, fun hs => hs⟩⟩

theorem Safe.congr (h : Safe crypto s) (clock : Instant) (decisions : List DecisionTask)
    {requests : List TokenTask} (hr : ∀ task ∈ requests, TaskOk crypto s task) :
    Safe crypto { s with clock := clock, decisions := decisions, requests := requests } :=
  ⟨h.ledger.congr clock decisions requests, fun task htask =>
    (hr task htask).later h.ledger (Extends.congr s clock decisions requests)⟩

section

variable (h : Ledger crypto s)
include h

theorem advances_reduces (hr : Reduces s.db.1 db.1) : Advances crypto s (s.record db []) := by
  rw [record_nil]
  exact ⟨ledger_reduces h hr, extends_reduces hr, rfl⟩

theorem advances_authorizePage {query : AuthorizeQuery} {requestId : Uuid} {consent : String}
    (hstep : step crypto s (.authorizePage config query requestId consent now) = some s') :
    Advances crypto s s' := by
  have hdraw := advances_draw h [consent] [requestId]
  simp only [step] at hstep
  split_ifs at hstep with hguard
  split at hstep
  · split at hstep
    · rename_i clientId hclient _ redirectUri codeChallenge hcheck
      split at hstep <;> cases hstep
      · rename_i hins
        have hnew : (newAuthorization crypto config query clientId redirectUri codeChallenge
            requestId consent now).id ∉ s.drawnIds :=
          hguard.2.2.2.2 _ (List.mem_singleton.2 rfl)
        obtain ⟨hl, he⟩ := ledger_insert h [consent] hnew rfl rfl (commit_eq_ok.1 hins)
        rw [record_nil]
        exact ⟨hl, he, rfl⟩
      · exact hdraw
    · cases hstep
      exact hdraw
  · cases hstep
    exact hdraw

theorem advances_register {secret : Option String} {redirectUris : List String}
    (hstep : step crypto s (.register clientId secret redirectUris now) = some s') :
    Advances crypto s s' := by
  have hdraw := advances_draw h (clientId :: secret.toList) []
  simp only [step] at hstep
  split_ifs at hstep
  split at hstep <;> cases hstep
  · rename_i hins
    exact hdraw.trans (advances_reduces hdraw.ledger (reduces_insertClient hins))
  · exact hdraw

end

variable {i : ℕ} {action : Action}

theorem step_serve (hstep : step crypto s (.serve i draw ok) = some s') :
    ∃ task s₁ pc, s.requests[i]? = some task ∧ tokenStep crypto s task draw ok = some (s₁, pc) ∧
      s' = s₁.setRequest i task pc := by
  obtain ⟨task, htask, hstep⟩ := bind_eq_some_iff.1 hstep
  obtain ⟨⟨s₁, pc⟩, htok, hstep⟩ := bind_eq_some_iff.1 hstep
  exact ⟨task, s₁, pc, htask, htok, (some.inj hstep).symm⟩

section

variable (h : Safe crypto s) (hstep : step crypto s action = some s')
include h hstep

theorem step_cases :
    ∃ s₁ clock decisions requests, Advances crypto s s₁ ∧
      s' = { s₁ with clock := clock, decisions := decisions, requests := requests } ∧
      (requests = s.requests ∨
        (∃ config request, requests = s.requests ++ [⟨config, request, .arrived⟩]) ∨
        ∃ (i : ℕ) (task : TokenTask) (draw : Draw) (ok : Bool) (pc : TokenPc),
          s.requests[i]? = some task ∧ tokenStep crypto s task draw ok = some (s₁, pc) ∧
          requests = s.requests.set i { task with pc := pc }) := by
  have hrefl := Advances.refl h.ledger
  cases action with
  | tick now =>
    simp only [step] at hstep
    split_ifs at hstep
    cases hstep
    exact ⟨s, _, _, _, hrefl, rfl, .inl rfl⟩
  | prune now =>
    simp only [step] at hstep
    split_ifs at hstep
    split at hstep <;> cases hstep
    · rename_i hprune
      exact ⟨_, _, _, _, advances_reduces h.ledger (reduces_prune hprune), rfl, .inl rfl⟩
    · exact ⟨s, _, _, _, hrefl, rfl, .inl rfl⟩
  | register clientId secret redirectUris now =>
    have hadv := advances_register h.ledger hstep
    exact ⟨s', _, _, _, hadv, rfl, .inl hadv.requests⟩
  | authorizePage config query requestId consent now =>
    have hadv := advances_authorizePage h.ledger hstep
    exact ⟨s', _, _, _, hadv, rfl, .inl hadv.requests⟩
  | submit config form =>
    cases hstep
    exact ⟨s, _, _, _, hrefl, rfl, .inl rfl⟩
  | decide i code ok =>
    obtain ⟨decision, -, hstep⟩ := bind_eq_some_iff.1 hstep
    obtain ⟨⟨s₁, pc⟩, hdec, hstep⟩ := bind_eq_some_iff.1 hstep
    cases hstep
    have hadv := decisionStep_ok h.ledger hdec
    exact ⟨s₁, _, _, _, hadv, rfl, .inl hadv.requests⟩
  | present config request =>
    cases hstep
    exact ⟨s, _, _, _, hrefl, rfl, .inr (.inl ⟨config, request, rfl⟩)⟩
  | serve i draw ok =>
    obtain ⟨task, s₁, pc, htask, htok, rfl⟩ := step_serve hstep
    have hadv := (tokenStep_ok h.ledger (h.tasks task (List.mem_of_getElem? htask)) htok).1
    exact ⟨s₁, _, _, _, hadv, rfl, .inr (.inr ⟨i, task, draw, ok, pc, htask, htok,
      congrArg (List.set · i _) hadv.requests⟩)⟩
  | revokeGrant grantId now =>
    simp only [step] at hstep
    split_ifs at hstep
    split at hstep <;> cases hstep
    · rename_i hrev
      exact ⟨_, _, _, _, (step_revoking h.ledger hrev).1, rfl, .inl rfl⟩
    · exact ⟨s, _, _, _, hrefl, rfl, .inl rfl⟩

/-- **Step lemma.** Every step of every request keeps the invariant and undoes nothing. -/
theorem safe_step : Safe crypto s' ∧ Extends s s' := by
  obtain ⟨s₁, clock, decisions, requests, hadv, rfl, hrequests⟩ := step_cases h hstep
  have h1 := h.advance hadv
  refine ⟨h1.congr clock decisions ?_, hadv.later.trans (Extends.congr s₁ clock decisions _)⟩
  intro task htask
  rcases hrequests with rfl | ⟨config, request, rfl⟩ | ⟨i, old, draw, ok, pc, hi, htok, rfl⟩
  · exact h1.tasks task (hadv.requests ▸ htask)
  · rcases List.mem_append.1 htask with hold | hnew
    · exact h1.tasks task (hadv.requests ▸ hold)
    · rw [List.mem_singleton.1 hnew]
      trivial
  · rcases List.mem_or_eq_of_mem_set htask with hold | rfl
    · exact h1.tasks task (hadv.requests ▸ hold)
    · exact (tokenStep_ok h.ledger (h.tasks old (List.mem_of_getElem? hi)) htok).2

end

theorem safe_of_initial (h : Initial s) : Safe crypto s := by
  obtain ⟨clock, rfl⟩ := h
  refine ⟨?_, fun task htask => by cases htask⟩
  exact
    { resolved_once := Distinct.nil
      approved_once := Distinct.nil
      minted_once := Distinct.nil
      rotated_once := Distinct.nil
      issued_once := Keyed.nil
      authorization_drawn := fun _ h => by cases h
      resolved_drawn := fun _ _ h => by cases h
      minted_drawn := fun _ _ _ _ h => by cases h
      issued_drawn := fun _ h => by cases h
      minted_approved := fun _ _ _ _ h => by cases h
      authorization := fun _ h => by cases h
      grant := fun _ h => by cases h
      token := fun _ h => by cases h
      rotated := fun _ _ _ h => by cases h
      revoked := fun _ h => by cases h }

theorem safe_of_reachable (h : Reachable (step crypto) anyStep Initial s) : Safe crypto s :=
  Reachable.invariant (P := Safe crypto) h (fun _ => safe_of_initial)
    fun _ _ _ hs _ hstep => (safe_step hs hstep).1

theorem safe_runs (h : Safe crypto s) (hr : Runs (step crypto) anyStep s s') :
    Safe crypto s' ∧ Extends s s' :=
  hr.preserves (P := fun s' => Safe crypto s' ∧ Extends s s')
    (fun _ _ _ hs _ hstep =>
      ⟨(safe_step hs.1 hstep).1, hs.2.trans (safe_step hs.1 hstep).2⟩) ⟨h, Extends.refl s⟩

/-! ## Presentations after the exchange or the rotation -/

/-- What a request has looked up so far. -/
def TokenPc.lookedUp : TokenPc → LookedUp
  | .exchanging _ a now | .findingReplayed _ a now | .revokingReplayed _ a _ now => .code a now
  | .rotating _ record now | .revokingReused _ record now => .refresh record now
  | .answered _ lookedUp => lookedUp
  | _ => .nothing

theorem lookedUp_clientFound (secret : Option String) (client : Option McpOAuthClient) :
    (clientFound crypto secret client).lookedUp = .nothing := by
  unfold clientFound
  split
  · split_ifs <;> rfl
  · rfl

theorem lookedUp_dispatch (config : McpOAuthConfig) (request : TokenRequest) (clientId : String)
    (now : Instant) : (dispatch config request clientId now).lookedUp = .nothing := by
  unfold dispatch
  split_ifs
  · rfl
  · rfl
  · split <;> rfl
  · split <;> rfl
  · rfl

theorem lookedUp_codeFound (clientId code redirectUri verifier : String) (now : Instant)
    (o : Option McpOAuthAuthorization) :
    (codeFound crypto clientId code redirectUri verifier now o).lookedUp = .nothing ∨
      ∃ a, o = some a ∧
        (codeFound crypto clientId code redirectUri verifier now o).lookedUp = .code a now := by
  cases o with
  | none => exact .inl rfl
  | some a =>
    dsimp only [codeFound]
    split_ifs
    · exact .inl rfl
    all_goals exact .inr ⟨a, rfl, rfl⟩

theorem lookedUp_refreshFound (clientId token : String) (now : Instant)
    (o : Option McpOAuthTokenRecord) : (refreshFound clientId token now o).lookedUp = .nothing ∨
      ∃ record, o = some record ∧
        (refreshFound clientId token now o).lookedUp = .refresh record now := by
  cases o with
  | none => exact .inl rfl
  | some record =>
    dsimp only [refreshFound]
    split_ifs
    · exact .inl rfl
    all_goals exact .inr ⟨record, rfl, rfl⟩

/-- A request looks its secret up once, and never forgets what it has found. -/
theorem lookedUp_step (hstep : tokenStep crypto s task draw ok = some (s', pc)) :
    pc.lookedUp = task.pc.lookedUp ∨ pc.lookedUp = .nothing ∨
      (∃ clientId code redirectUri verifier now a,
        task.pc = .findingCode clientId code redirectUri verifier now ∧
        s.db.findAuthorizationByCode (crypto.digest code) = some a ∧ pc.lookedUp = .code a now) ∨
      ∃ clientId token now record, task.pc = .findingRefresh clientId token now ∧
        s.db.findToken (crypto.digest token) = some record ∧ pc.lookedUp = .refresh record now := by
  obtain ⟨config, request, pc₀⟩ := task
  cases pc₀ with simp only [tokenStep] at hstep
  | arrived =>
    refine .inr (.inl ?_)
    split at hstep
    · split_ifs at hstep <;> cases hstep
      · exact lookedUp_clientFound _ _
      · rfl
    · cases hstep
      rfl
  | authenticated clientId =>
    cases hstep
    exact .inr (.inl (lookedUp_dispatch _ _ _ _))
  | findingCode clientId code redirectUri verifier now =>
    split_ifs at hstep <;> cases hstep
    · rcases lookedUp_codeFound clientId code redirectUri verifier now
        (s.db.findAuthorizationByCode (crypto.digest code)) with hnone | ⟨a, hfind, heq⟩
      · exact .inr (.inl hnone)
      · exact .inr (.inr (.inl ⟨_, _, _, _, _, a, rfl, hfind, heq⟩))
    · exact .inl rfl
  | findingRefresh clientId token now =>
    split_ifs at hstep <;> cases hstep
    · rcases lookedUp_refreshFound clientId token now (s.db.findToken (crypto.digest token)) with
        hnone | ⟨record, hfind, heq⟩
      · exact .inr (.inl hnone)
      · exact .inr (.inr (.inr ⟨_, _, _, record, rfl, hfind, heq⟩))
    · exact .inl rfl
  | answered response lookedUp => cases hstep
  | _ =>
    repeat' split at hstep
    all_goals cases hstep <;> exact .inl rfl

/-- A step changes the request `i` only by serving it. -/
theorem requests_step (h : Safe crypto s)
    (hstep : step crypto s action = some s') (hi : s.requests[i]? = some task) :
    s'.requests[i]? = some task ∨ ∃ draw ok s₁ pc, tokenStep crypto s task draw ok = some (s₁, pc) ∧
        s'.requests[i]? = some { task with pc := pc } := by
  have hlt := (List.getElem?_eq_some_iff.1 hi).1
  obtain ⟨s₁, _, _, _, -, rfl, hrequests⟩ := step_cases h hstep
  rcases hrequests with rfl | ⟨config, request, rfl⟩ | ⟨j, task', draw, ok, pc, hj, htok, rfl⟩
  · exact .inl hi
  · left
    rwa [List.getElem?_append_left hlt]
  · by_cases hij : j = i
    · subst hij
      obtain rfl : task' = task := some.inj (hj.symm.trans hi)
      exact .inr ⟨draw, ok, s₁, pc, htok, List.getElem?_set_self hlt⟩
    · left
      rwa [List.getElem?_set_ne hij]

variable {tokens : IssuedTokens} {task' : TokenTask}

def FoundAfter (crypto : Crypto) (e : Event) (request : TokenRequest) (looked : LookedUp) : Prop :=
  ∃ s task, Safe crypto s ∧ e ∈ s.history ∧ TaskOk crypto s task ∧ task.request = request ∧
    ((∃ clientId code redirectUri verifier now a,
        task.pc = .findingCode clientId code redirectUri verifier now ∧
        s.db.findAuthorizationByCode (crypto.digest code) = some a ∧ looked = .code a now) ∨
      ∃ clientId token now record, task.pc = .findingRefresh clientId token now ∧
        s.db.findToken (crypto.digest token) = some record ∧ looked = .refresh record now)

theorem lookedUp_runs {e : Event} (h : Safe crypto s) (hi : s.requests[i]? = some task)
    (hearly : task.pc.lookedUp = .nothing) (he : e ∈ s.history)
    (hr : Runs (step crypto) anyStep s s') (hi' : s'.requests[i]? = some task') :
    task'.pc.lookedUp = .nothing ∨ FoundAfter crypto e task.request task'.pc.lookedUp := by
  have hinv := hr.preserves (P := fun s' => Safe crypto s' ∧ e ∈ s'.history ∧
      ∃ task', s'.requests[i]? = some task' ∧ task'.request = task.request ∧
        (task'.pc.lookedUp = .nothing ∨ FoundAfter crypto e task.request task'.pc.lookedUp)) ?_
    ⟨h, he, task, hi, rfl, .inl hearly⟩
  · obtain ⟨-, -, task₁, hi₁, -, hafter⟩ := hinv
    obtain rfl : task₁ = task' := some.inj (hi₁.symm.trans hi')
    exact hafter
  · rintro s₁ action s₂ ⟨hsafe, hm, task₁, hi₁, hrequest, hafter⟩ - hstep
    obtain ⟨hsafe₂, hext⟩ := safe_step hsafe hstep
    refine ⟨hsafe₂, hext.history _ hm, ?_⟩
    rcases requests_step hsafe hstep hi₁ with hkept | ⟨draw, ok, s₃, pc, htok, hnew⟩
    · exact ⟨task₁, hkept, hrequest, hafter⟩
    · refine ⟨_, hnew, hrequest, ?_⟩
      have hok := hsafe.tasks task₁ (List.mem_of_getElem? hi₁)
      rcases lookedUp_step htok with hsame | hnone | hfound
      · rw [hsame]
        exact hafter
      · exact .inl hnone
      · exact .inr ⟨s₁, task₁, hsafe, hm, hok, hrequest, hfound⟩

section

variable (h : Safe crypto s) (hi : s.requests[i]? = some task)
  (hearly : task.pc.lookedUp = .nothing)
include h hi hearly

theorem second_code_recognised (hcode : task.request.code = some code)
    (hmint : .minted code id g tokens ∈ s.history)
    (hr : Runs (step crypto) anyStep s s') (hi' : s'.requests[i]? = some task')
    (hfound : task'.pc.lookedUp = .code a now) : a.status = .exchanged := by
  have hlooked := lookedUp_runs h hi hearly hmint hr hi'
  rw [hfound] at hlooked
  obtain ⟨s₁, task₁, hsafe, hm, hok, hrequest, hcase⟩ := hlooked.resolve_left nofun
  rcases hcase with ⟨_, code', _, _, now', a', hpc, hfind, heq⟩ | ⟨_, _, _, _, -, -, heq⟩
  · cases heq
    unfold TaskOk at hok
    rw [hpc] at hok
    obtain ⟨⟨-, row, hres, -, hrow⟩, -, hstatus⟩ := bound_of_find hsafe.ledger hok hfind
    apply hstatus.resolve_left
    rintro ⟨-, hunminted⟩
    -- the approval that gave the code out is the one that was exchanged
    obtain ⟨row', hres', hid⟩ := hsafe.ledger.minted_approved _ _ _ _ hm
    have hsame : code' = code := some.inj (hok.symm.trans (hrequest ▸ hcode))
    rw [hsame] at hres
    rw [hsafe.ledger.approved_eq hres' hres, ← hrow.id] at hid
    rw [← hid] at hm
    exact hunminted _ _ _ hm
  · cases heq

theorem second_refresh_recognised (htoken : task.request.refreshToken = some token)
    (hrot : .rotated token g tokens ∈ s.history) (hr : Runs (step crypto) anyStep s s')
    (hi' : s'.requests[i]? = some task')
    (hfound : task'.pc.lookedUp = .refresh record now) : record.revokedAt ≠ none := by
  have hlooked := lookedUp_runs h hi hearly hrot hr hi'
  rw [hfound] at hlooked
  obtain ⟨s₁, task₁, hsafe, hm, hok, hrequest, hcase⟩ := hlooked.resolve_left nofun
  rcases hcase with ⟨_, _, _, _, _, _, -, -, heq⟩ | ⟨_, token', now', record', hpc, hfind, heq⟩
  · cases heq
  · cases heq
    unfold TaskOk at hok
    rw [hpc] at hok
    have hsame : token' = token := some.inj (hok.symm.trans (hrequest ▸ htoken))
    obtain ⟨t, ht, g', hg', hash, hid, heq⟩ := findToken_eq_some hfind
    rw [heq]
    rw [hsame] at hash
    exact (hsafe.ledger.rotated _ _ _ hm).2 t ht hash

end

/-! ## The result -/

/-- The transaction that a request is about to run fails. -/
def TransactionFails (crypto : Crypto) (s : Server) (draw : Draw) : TokenPc → Prop
  | .exchanging _ a now =>
    ∃ e, s.db.exchangeCode a draw.grantId (tokenHashes crypto draw.tokens now) now = .error e
  | .rotating token record now => ∃ e, s.db.rotateRefresh (crypto.digest token) record.grantId
      (tokenHashes crypto draw.tokens now) now = .error e
  | .revokingReplayed _ _ g now => ∃ e, s.db.revokeGrant g now = .error e
  | .revokingReused _ record now => ∃ e, s.db.revokeGrant record.grantId now = .error e
  | _ => False

def Event.tokens? : Event → Option IssuedTokens
  | .minted _ _ _ tokens | .rotated _ _ tokens => some tokens
  | _ => none

/-- An error of the server answers a failed statement, and tokens answer the request that has drawn
    them. -/
def Explains (crypto : Crypto) (s s' : Server) (draw : Draw) (ok : Bool) (pc : TokenPc)
    (response : Response) : Prop :=
  (response = serverError → ok = false ∨ TransactionFails crypto s draw pc) ∧
    ∀ tokens, response = .tokens tokens → tokens = draw.tokens ∧
      ∃ e : Event, e.tokens? = some tokens ∧ s'.history = s.history ++ [e]

theorem tokenStep_answered {response : Response} {lookedUp : LookedUp}
    (hstep : tokenStep crypto s task draw ok = some (s', .answered response lookedUp)) :
    Explains crypto s s' draw ok task.pc response := by
  have hrefused {status : ℕ} {error description : String} (hne : status ≠ 503) :
      Explains crypto s s' draw ok task.pc (.error status error description) :=
    ⟨fun heq => absurd (Response.error.inj heq).1 hne, fun _ heq => Response.noConfusion heq⟩
  have herror (h : ok = false ∨ TransactionFails crypto s draw task.pc) :
      Explains crypto s s' draw ok task.pc serverError :=
    ⟨fun _ => h, fun _ heq => Response.noConfusion heq⟩
  obtain ⟨config, request, pc⟩ := task
  cases pc with simp only [tokenStep] at hstep
  | arrived =>
    split at hstep
    · split_ifs at hstep with hok
      · unfold clientFound at hstep
        repeat' split at hstep
        all_goals cases hstep <;> exact hrefused (by decide)
      · cases hstep
        exact herror (.inl (Bool.eq_false_iff.2 hok))
    · rename_i hcredentials
      unfold credentials at hcredentials
      repeat' split at hcredentials
      all_goals cases hcredentials <;> cases hstep <;> exact hrefused (by decide)
  | authenticated clientId =>
    unfold dispatch at hstep
    repeat' split at hstep
    all_goals cases hstep <;> exact hrefused (by decide)
  | findingCode clientId code redirectUri verifier now =>
    split_ifs at hstep with hok
    · unfold codeFound at hstep
      repeat' split at hstep
      all_goals cases hstep <;> exact hrefused (by decide)
    · cases hstep
      exact herror (.inl (Bool.eq_false_iff.2 hok))
  | findingRefresh clientId token now =>
    split_ifs at hstep with hok
    · unfold refreshFound at hstep
      repeat' split at hstep
      all_goals cases hstep <;> exact hrefused (by decide)
    · cases hstep
      exact herror (.inl (Bool.eq_false_iff.2 hok))
  | exchanging code a now | rotating token record now =>
    split_ifs at hstep with hfresh hok
    · split at hstep <;> cases hstep
      · exact ⟨fun heq => Response.noConfusion heq, fun _ heq => by
          cases heq
          exact ⟨rfl, _, rfl, rfl⟩⟩
      · rename_i hfails
        exact herror (.inr ⟨_, hfails⟩)
    · cases hstep
      exact herror (.inl (Bool.eq_false_iff.2 hok))
  | findingReplayed code a now =>
    split_ifs at hstep with hok
    · split at hstep <;> cases hstep
      exact hrefused (by decide)
    · cases hstep
      exact herror (.inl (Bool.eq_false_iff.2 hok))
  | revokingReplayed code a g now | revokingReused token record now =>
    split_ifs at hstep with hok
    · split at hstep <;> cases hstep
      · exact hrefused (by decide)
      · rename_i hfails
        exact herror (.inr ⟨_, hfails⟩)
    · cases hstep
      exact herror (.inl (Bool.eq_false_iff.2 hok))
  | answered response lookedUp => cases hstep

/-- The grounds on which a token verifies: it is an unexpired access token of a grant that has
    not been revoked, minted from an authorization that the owner approved for the resource. -/
structure Warranted (s : Server) (token resource : String) (now : Instant)
    (record : McpOAuthTokenRecord) : Prop where
  issued : (⟨token, .access, record.grantId⟩ : IssuedToken) ∈ issuedTokens s.history
  unexpired : now < record.expiresAt
  unrevoked : .revoked record.grantId ∉ s.history
  approved : ∃ row code tokens, .resolved row (some code) ∈ s.history ∧ row.resource = resource ∧
    .minted code row.id record.grantId tokens ∈ s.history

theorem warranted_of_verify (h : Ledger crypto s) {resource : String}
    (hv : s.db.verifyAccessToken (crypto.digest token) resource now = some record) :
    Warranted s token resource now record := by
  obtain ⟨hfind, hkind, hlive, hgrant, hexp, hresource⟩ := verifyAccessToken_eq_some hv
  obtain ⟨t, ht, g, hg, hash, hid, heq⟩ := findToken_eq_some hfind
  obtain ⟨i, hi, hdigest, hikind, higrant⟩ := h.token t ht
  have hsame : i.token = token := crypto.digest_injective (hdigest.trans hash)
  have htg : record.grantId = t.grantId := by rw [heq]
  constructor
  · have hissue : i = ⟨token, .access, record.grantId⟩ := by
      rw [← hsame, ← hkind, heq, ← hikind, ← higrant]
    rw [← hissue]
    exact hi
  · exact hexp
  · intro hrev
    have hnone : t.revokedAt = none := by
      rw [heq] at hlive
      exact hlive
    exact (h.revoked _ hrev).2 t ht htg.symm hnone
  · obtain ⟨row, code, tokens, hres, hmint, hrow⟩ := h.grant g hg
    refine ⟨row, code, tokens, hres, ?_, ?_⟩
    · rw [← hrow, ← hresource, heq]
    · rw [htg, ← hid]
      exact hmint

/-- In no later state does a grant minted from the code have a live token. -/
def CodeDead (crypto : Crypto) (s : Server) (code : String) : Prop :=
  ∀ s', Runs (step crypto) anyStep s s' →
    ∀ id g tokens, .minted code id g tokens ∈ s'.history → Closed s' g

/-- In no later state does the grant have a live token. -/
def GrantDead (crypto : Crypto) (s : Server) (g : Uuid) : Prop :=
  ∀ s', Runs (step crypto) anyStep s s' → Closed s' g

theorem codeDead_of_closed (h : Safe crypto s)
    (hmint : .minted code id g tokens ∈ s.history) (hc : Closed s g) : CodeDead crypto s code := by
  intro s' hr id' g' tokens' hmint'
  obtain ⟨hsafe, hext⟩ := safe_runs h hr
  rw [(hsafe.ledger.minted_eq hmint' (hext.history _ hmint)).2]
  exact hext.closed g (h.ledger.minted_drawn _ _ _ _ hmint) hc

theorem grantDead_of_closed (h : Safe crypto s) (hg : g ∈ s.drawnIds) (hc : Closed s g) :
    GrantDead crypto s g := by
  intro s' hr
  exact (safe_runs h hr).2.closed g hg hc

/-- In every reachable state: a consent request is resolved, a code exchanged
    and a refresh token rotated at most once, and a token that verifies is warranted. A
    correctly bound presentation of a code or of a refresh token that has been answered, other
    than by an error of the server, was given tokens, or had found the secret unused and
    expired, or is recognised as a second one; then no token of the grant is live ever after
    (for a code: while its row is retained). It is recognised whenever the exchange or the
    rotation precedes its look-up. -/
theorem grants_safe (h : Reachable (step crypto) anyStep Initial s) :
    (Distinct Event.resolvedId? s.history ∧ Distinct Event.mintedCode? s.history ∧
      Distinct Event.rotatedToken? s.history) ∧ (∀ token resource now record,
      s.db.verifyAccessToken (crypto.digest token) resource now = some record →
        Warranted s token resource now record) ∧
    (∀ task ∈ s.requests, ∀ response a now, task.pc = .answered response (.code a now) →
      ∃ code, task.request.code = some code ∧ a.codeHash = some (crypto.digest code) ∧
        (response = serverError ∨
          (∃ g tokens, response = .tokens tokens ∧ .minted code a.id g tokens ∈ s.history ∧
            a.status = .approved) ∨
          (response = codeExpired ∧ a.status = .approved ∧ a.expiresAt ≤ now) ∨
          response = codeAlreadyUsed ∧
            ((∃ row ∈ s.db.1.authorizations, row.id = a.id) → CodeDead crypto s code))) ∧
    (∀ task ∈ s.requests, ∀ response record now,
      task.pc = .answered response (.refresh record now) →
      ∃ token, task.request.refreshToken = some token ∧
        (⟨token, .refresh, record.grantId⟩ : IssuedToken) ∈ issuedTokens s.history ∧
        (response = serverError ∨ (∃ tokens, response = .tokens tokens ∧
            .rotated token record.grantId tokens ∈ s.history ∧ record.revokedAt = none) ∨
          (response = refreshExpired ∧ record.revokedAt = none ∧
            (record.grantRevokedAt ≠ none ∨ record.expiresAt ≤ now)) ∨
          response = refreshAlreadyUsed ∧ GrantDead crypto s record.grantId)) ∧
    (∀ (i : ℕ) task, s.requests[i]? = some task → task.pc.lookedUp = .nothing → ∀ s',
      Runs (step crypto) anyStep s s' → ∀ task', s'.requests[i]? = some task' →
        (∀ code id g tokens, task.request.code = some code → .minted code id g tokens ∈ s.history →
          ∀ a now, task'.pc.lookedUp = .code a now → a.status = .exchanged ∧ ∀ response,
            task'.pc = .answered response (.code a now) →
              response = serverError ∨ response = codeAlreadyUsed) ∧
        (∀ token g tokens, task.request.refreshToken = some token →
          .rotated token g tokens ∈ s.history →
          ∀ record now, task'.pc.lookedUp = .refresh record now → record.revokedAt ≠ none ∧
            ∀ response, task'.pc = .answered response (.refresh record now) →
              response = serverError ∨ response = refreshAlreadyUsed)) ∧
    (∀ task ∈ s.requests, ∀ draw ok s' response lookedUp,
      tokenStep crypto s task draw ok = some (s', .answered response lookedUp) →
      (response = serverError → ok = false ∨ TransactionFails crypto s draw task.pc) ∧
        ∀ tokens, response = .tokens tokens → tokens = draw.tokens ∧
          ∃ e : Event, e.tokens? = some tokens ∧ s'.history = s.history ++ [e]) := by
  have hsafe := safe_of_reachable h
  refine ⟨⟨hsafe.ledger.resolved_once, hsafe.ledger.mintedCode_distinct,
    hsafe.ledger.rotated_once⟩, fun token resource now record => warranted_of_verify hsafe.ledger,
    ?_, ?_, ?_, fun task _ draw ok s' response lookedUp => tokenStep_answered⟩
  · intro task htask response a now hpc
    have hok := hsafe.tasks task htask
    unfold TaskOk at hok
    rw [hpc] at hok
    obtain ⟨code, ⟨hcode, row, -, hash, hrow⟩, hanswer⟩ := hok
    refine ⟨code, hcode, hrow.codeHash.trans hash, ?_⟩
    refine hanswer.imp_right (Or.imp_right (Or.imp_right ?_))
    rintro ⟨hused, hclosed⟩
    refine ⟨hused, ?_⟩
    intro hretained
    obtain ⟨g, tokens, hmint, hc⟩ := hclosed hretained
    exact codeDead_of_closed hsafe hmint hc
  · intro task htask response record now hpc
    have hok := hsafe.tasks task htask
    unfold TaskOk at hok
    rw [hpc] at hok
    obtain ⟨token, ⟨htoken, hissued⟩, hanswer⟩ := hok
    refine ⟨token, htoken, hissued, ?_⟩
    refine hanswer.imp_right (Or.imp_right (Or.imp_right ?_))
    rintro ⟨hused, hclosed⟩
    exact ⟨hused, grantDead_of_closed hsafe (hsafe.ledger.issued_drawn _ hissued).2 hclosed⟩
  · intro i task hi hearly s' hr task' hi'
    have hok := (safe_runs hsafe hr).1.tasks task' (List.mem_of_getElem? hi')
    unfold TaskOk at hok
    constructor
    · intro code id g tokens hcode hmint a now hfound
      have hex := second_code_recognised hsafe hi hearly hcode hmint hr hi' hfound
      refine ⟨hex, fun response hpc => ?_⟩
      rw [hpc] at hok
      obtain ⟨-, -, herr | ⟨-, -, -, -, hstatus⟩ | ⟨-, hstatus, -⟩ | ⟨hused, -⟩⟩ := hok
      · exact .inl herr
      · cases hex.symm.trans hstatus
      · cases hex.symm.trans hstatus
      · exact .inr hused
    · intro token g tokens htoken hrot record now hfound
      have hrevoked := second_refresh_recognised hsafe hi hearly htoken hrot hr hi' hfound
      refine ⟨hrevoked, fun response hpc => ?_⟩
      rw [hpc] at hok
      obtain ⟨-, -, herr | ⟨-, -, -, hlive⟩ | ⟨-, hlive, -⟩ | ⟨hused, -⟩⟩ := hok
      · exact .inl herr
      · exact absurd hlive hrevoked
      · exact absurd hlive hrevoked
      · exact .inr hused

/-! ## Runs on concrete inputs -/

/-- UTF-8 in place of SHA-256, with the challenge of the test vector of `crypto.rs`. -/
def exampleCrypto : Crypto where
  digest secret := Utf8.encode secret.toList
  s256Challenge verifier :=
    if verifier = "dBjftJeZ4CVP-mB92K27uhbUJU1p1r_wW1gFWFOEjXk" then
      "E9Melhoa2OwvFrEMTJguCHaoeK1t8URWbuGJSstw-cM"
    else verifier
  digest_injective := by
    intro a b heq
    have h : Utf8.lossy (Utf8.encode a.toList) = Utf8.lossy (Utf8.encode b.toList) :=
      congrArg Utf8.lossy heq
    rw [Utf8.lossy_encode, Utf8.lossy_encode] at h
    exact String.toList_injective h

def exampleConfig : McpOAuthConfig := ⟨"https://vibe"⟩

/-- The presentation of the code `code` by the public client `app`. -/
def examplePresentation : TokenRequest :=
  { basic := none
    grantType := some "authorization_code"
    code := some "code"
    redirectUri := some "https://app/cb"
    codeVerifier := some "dBjftJeZ4CVP-mB92K27uhbUJU1p1r_wW1gFWFOEjXk"
    refreshToken := none
    clientId := some "app"
    clientSecret := none
    scope := none
    resource := none }

def exampleQuery : AuthorizeQuery :=
  { responseType := some "code"
    clientId := some "app"
    redirectUri := none
    codeChallenge := some "E9Melhoa2OwvFrEMTJguCHaoeK1t8URWbuGJSstw-cM"
    codeChallengeMethod := some "S256"
    state := none
    scope := none
    resource := none }

def exampleStart : Server := ⟨empty, 0, [], [], [], [], []⟩

def noDraw : Draw := ⟨"", "", 0⟩

/-- The owner approves a request; its code expires at second 60. -/
def approvalActions : List Action :=
  [.register "app" none ["https://app/cb"] 0,
   .authorizePage exampleConfig exampleQuery 1 "consent" 0,
   .submit exampleConfig ⟨1, "consent", "approve"⟩,
   .decide 0 "" true, .decide 0 "" true, .decide 0 "code" true]

/-- The first presentation has found the code approved; the second one reads the clock when the
    code has expired, and is answered. -/
def expiredActions : List Action :=
  approvalActions ++
    [.present exampleConfig examplePresentation,
     .serve 0 noDraw true, .serve 0 noDraw true, .serve 0 noDraw true,
     .tick (seconds 60),
     .present exampleConfig examplePresentation,
     .serve 1 noDraw true, .serve 1 noDraw true, .serve 1 noDraw true]

/-- The answer to the presentation of a code by the request `i`, what its look-up returned, and
    whether the row is still retained. -/
def codeAnswer (s : Server) (i : ℕ) : Option (Response × AuthorizationStatus × Bool) :=
  match (s.requests[i]?).map TokenTask.pc with
  | some (.answered response (.code a _)) =>
    some (response, a.status, s.db.1.authorizations.any fun row => row.id = a.id)
  | _ => none

def verifies (s : Server) (token : String) : Bool :=
  (s.db.verifyAccessToken (exampleCrypto.digest token) exampleConfig.resource s.clock).isSome

theorem codeAnswer_eq_some {response : Response} {status : AuthorizationStatus}
    {retained : Bool} (h : codeAnswer s i = some (response, status, retained)) :
    ∃ task a now, s.requests[i]? = some task ∧ task.pc = .answered response (.code a now) ∧
      a.status = status ∧ (s.db.1.authorizations.any fun row => row.id = a.id) = retained := by
  unfold codeAnswer at h
  split at h <;> cases h
  rename_i a now hpc
  obtain ⟨task, htask, hpc⟩ := map_eq_some_iff.1 hpc
  exact ⟨task, a, now, htask, hpc, rfl, rfl⟩

theorem reachable_of_start {actions : List Action}
    (h : exec (step exampleCrypto) anyStep exampleStart actions = some s) :
    Reachable (step exampleCrypto) anyStep Initial s :=
  reachable_of_exec ⟨0, rfl⟩ h

/-- A second presentation that finds the code approved but expired is answered without a
    revocation; the first one, whose reading of the clock is earlier, mints after that. -/
theorem second_presentation_before_mint : ∃ s s', Reachable (step exampleCrypto) anyStep Initial s ∧
      Runs (step exampleCrypto) anyStep s s' ∧
      s.requests.map TokenTask.request = [examplePresentation, examplePresentation] ∧
      codeAnswer s 1 = some (codeExpired, .approved, true) ∧
      codeAnswer s' 0 = some (.tokens ⟨"access", "refresh"⟩, .approved, true) ∧
      verifies s' "access" = true := by
  have hx : (exec (step exampleCrypto) anyStep exampleStart expiredActions).map
      (fun s => (s.requests.map TokenTask.request, codeAnswer s 1)) =
      some ([examplePresentation, examplePresentation], some (codeExpired, .approved, true)) := by
    decide +kernel
  have hy : ((exec (step exampleCrypto) anyStep exampleStart expiredActions).bind fun s =>
      exec (step exampleCrypto) anyStep s [.serve 0 ⟨"access", "refresh", 7⟩ true]).map
      (fun s => (codeAnswer s 0, verifies s "access")) =
      some (some (.tokens ⟨"access", "refresh"⟩, .approved, true), true) := by
    decide +kernel
  obtain ⟨s, s', hs, hr, hf, hg⟩ := exists_runs_of_exec hx hy
  obtain ⟨hf1, hf2⟩ := mk.inj hf
  obtain ⟨hg1, hg2⟩ := mk.inj hg
  exact ⟨s, s', reachable_of_start hs, hr, hf1, hf2, hg1, hg2⟩

/-- The code is exchanged and presented again: the second presentation revokes the grant. -/
def replayActions : List Action :=
  approvalActions ++
    [.present exampleConfig examplePresentation,
     .serve 0 noDraw true, .serve 0 noDraw true, .serve 0 noDraw true,
     .serve 0 ⟨"access", "refresh", 7⟩ true,
     .present exampleConfig examplePresentation,
     .serve 1 noDraw true, .serve 1 noDraw true, .serve 1 noDraw true, .serve 1 noDraw true,
     .serve 1 noDraw true]

theorem replayed_code_dead :
    ∃ s, Reachable (step exampleCrypto) anyStep Initial s ∧ verifies s "access" = false ∧
      CodeDead exampleCrypto s "code" := by
  have hx : (exec (step exampleCrypto) anyStep exampleStart replayActions).map
      (fun s => (s.requests.map TokenTask.request, codeAnswer s 1, verifies s "access")) =
      some ([examplePresentation, examplePresentation],
        some (codeAlreadyUsed, .exchanged, true), false) := by
    decide +kernel
  obtain ⟨s, hs, hf⟩ := map_eq_some_iff.1 hx
  obtain ⟨hrequests, hf⟩ := mk.inj hf
  obtain ⟨hanswer, hdead⟩ := mk.inj hf
  obtain ⟨task, a, now, htask, hpc, -, hretained⟩ := codeAnswer_eq_some hanswer
  have hr := reachable_of_start hs
  refine ⟨s, hr, hdead, ?_⟩
  obtain ⟨-, -, hcodes, -⟩ := grants_safe hr
  obtain ⟨code, hcode, -, hcase⟩ := hcodes task (List.mem_of_getElem? htask) _ a now hpc
  have hrow : ∃ row ∈ s.db.1.authorizations, row.id = a.id := by
    obtain ⟨row, hrow, hid⟩ := List.any_eq_true.1 hretained
    exact ⟨row, hrow, of_decide_eq_true hid⟩
  have hsame : code = "code" := by
    have hreq : task.request ∈ [examplePresentation, examplePresentation] := by
      rw [← hrequests]
      exact List.mem_map_of_mem (List.mem_of_getElem? htask)
    have heq : task.request = examplePresentation := by
      rcases List.mem_cons.1 hreq with heq | hreq
      · exact heq
      · exact List.mem_singleton.1 hreq
    rw [heq] at hcode
    exact (some.inj hcode).symm
  rw [← hsame]
  rcases hcase with herr | ⟨_, _, htokens, -⟩ | ⟨hexp, -⟩ | ⟨-, hcodeDead⟩
  · cases herr
  · cases htokens
  · exact absurd hexp (by decide)
  · exact hcodeDead hrow

end VibeKanban.OAuth
