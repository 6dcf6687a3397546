import VibeKanban.OAuth.Endpoints

/-!
# The tables of the OAuth server and its history

`Ledger` relates the tables to what the transactions have committed: which rows were approved or
exchanged by which event, which tokens were issued for which grant, and that a revoked grant has no
live token. `Extends` is what later states keep of a state.

* `Ledger.recorded`, `ledger_exchange`, `ledger_rotate`: every transaction keeps it.
-/

namespace VibeKanban.OAuth

open Lib List Store Bool

/-! ## What the history says -/

structure IssuedToken where
  token : String
  kind : TokenKind
  grant : Uuid

namespace Event

/-- The consent request that the event resolves. -/
def resolvedId? : Event → Option Uuid
  | .resolved row _ => some row.id
  | _ => none

def approvedCode? : Event → Option String
  | .resolved _ code => code
  | _ => none

def mintedAuthorization? : Event → Option Uuid
  | .minted _ authorization _ _ => some authorization
  | _ => none

def mintedCode? : Event → Option String
  | .minted code _ _ _ => some code
  | _ => none

def rotatedToken? : Event → Option String
  | .rotated refreshToken _ _ => some refreshToken
  | _ => none

def pair (tokens : IssuedTokens) (grant : Uuid) : List IssuedToken :=
  [⟨tokens.accessToken, .access, grant⟩, ⟨tokens.refreshToken, .refresh, grant⟩]

def issued : Event → List IssuedToken
  | .minted _ _ grant tokens => pair tokens grant
  | .rotated _ grant tokens => pair tokens grant
  | _ => []

end Event

def issuedTokens (history : List Event) : List IssuedToken := history.flatMap Event.issued

@[simp] theorem issuedTokens_append (history events : List Event) :
    issuedTokens (history ++ events) = issuedTokens history ++ issuedTokens events :=
  flatMap_append

variable {crypto : Crypto} {s s' s'' : Server} {row a : McpOAuthAuthorization} {g : Uuid}
  {now : Instant} {t : McpOAuthToken}

/-! ## Invariants of the tables -/

def Closed (s : Server) (g : Uuid) : Prop := ∀ t ∈ s.db.1.tokens, t.grantId = g → t.revokedAt ≠ none

/-- Two states of one authorization row: only its status and its grant may differ. -/
def SameRow (row a : McpOAuthAuthorization) : Prop :=
  a = { row with status := a.status, grantId := a.grantId }

/-- How a row of the table of authorizations stands to the history. -/
inductive Standing (crypto : Crypto) (s : Server) (a : McpOAuthAuthorization) : Prop
  | pending (status : a.status = .pending) (code : a.codeHash = none)
      (unresolved : ∀ row code, .resolved row code ∈ s.history → row.id ≠ a.id)
  | denied (status : a.status = .denied) (code : a.codeHash = none) (row : McpOAuthAuthorization)
      (resolved : .resolved row none ∈ s.history) (same : SameRow row a)
  | approved (status : a.status = .approved) (row : McpOAuthAuthorization) (code : String)
      (resolved : .resolved row (some code) ∈ s.history)
      (hash : row.codeHash = some (crypto.digest code)) (same : SameRow row a)
      (unminted : ∀ code' g tokens, .minted code' a.id g tokens ∉ s.history)
  | exchanged (status : a.status = .exchanged) (row : McpOAuthAuthorization) (code : String)
      (resolved : .resolved row (some code) ∈ s.history)
      (hash : row.codeHash = some (crypto.digest code)) (same : SameRow row a)
      (g : Uuid) (tokens : IssuedTokens) (minted : .minted code a.id g tokens ∈ s.history)
      (grant : a.grantId = some g ∨ a.grantId = none ∧ ∀ g' ∈ s.db.1.grants, g'.id ≠ g)

/-- What relates the tables, the history and the drawn secrets. -/
structure Ledger (crypto : Crypto) (s : Server) : Prop where
  resolved_once : Distinct Event.resolvedId? s.history
  approved_once : Distinct Event.approvedCode? s.history
  minted_once : Distinct Event.mintedAuthorization? s.history
  rotated_once : Distinct Event.rotatedToken? s.history
  issued_once : Keyed IssuedToken.token (issuedTokens s.history)
  authorization_drawn : ∀ a ∈ s.db.1.authorizations, a.id ∈ s.drawnIds
  resolved_drawn : ∀ row code, .resolved row code ∈ s.history →
    row.id ∈ s.drawnIds ∧ ∀ c, code = some c → c ∈ s.drawn
  minted_drawn : ∀ code id g tokens, .minted code id g tokens ∈ s.history → g ∈ s.drawnIds
  issued_drawn : ∀ i ∈ issuedTokens s.history, i.token ∈ s.drawn ∧ i.grant ∈ s.drawnIds
  minted_approved : ∀ code id g tokens, .minted code id g tokens ∈ s.history →
    ∃ row, .resolved row (some code) ∈ s.history ∧ row.id = id
  authorization : ∀ a ∈ s.db.1.authorizations, Standing crypto s a
  grant : ∀ g ∈ s.db.1.grants, ∃ row code tokens, .resolved row (some code) ∈ s.history ∧
    .minted code row.id g.id tokens ∈ s.history ∧ g.resource = row.resource
  token : ∀ t ∈ s.db.1.tokens, ∃ i ∈ issuedTokens s.history,
    crypto.digest i.token = t.tokenHash ∧ i.kind = t.kind ∧ i.grant = t.grantId
  rotated : ∀ token g tokens, .rotated token g tokens ∈ s.history → token ∈ s.drawn ∧
    ∀ t ∈ s.db.1.tokens, t.tokenHash = crypto.digest token → t.revokedAt ≠ none
  revoked : ∀ g, .revoked g ∈ s.history → g ∈ s.drawnIds ∧ Closed s g

/-! ## What later states keep -/

/-- What a request may rely on after a look-up: nothing recorded is forgotten, a grant
    without live tokens stays so, rows do not come back and an exchange is not undone. -/
structure Extends (s s' : Server) : Prop where
  history : ∀ e ∈ s.history, e ∈ s'.history
  drawnIds : ∀ id ∈ s.drawnIds, id ∈ s'.drawnIds
  closed : ∀ g ∈ s.drawnIds, Closed s g → Closed s' g
  rows : ∀ a' ∈ s'.db.1.authorizations, a'.id ∈ s.drawnIds →
    ∃ a ∈ s.db.1.authorizations, a.id = a'.id ∧ (a.status = .exchanged → a'.status = .exchanged)

theorem Extends.refl (s : Server) : Extends s s :=
  ⟨fun _ h => h, fun _ h => h, fun _ _ h => h, fun a ha _ => ⟨a, ha, rfl, id⟩⟩

theorem Extends.trans (h : Extends s s') (h' : Extends s' s'') : Extends s s'' := by
  constructor
  · intro e he
    exact h'.history e (h.history e he)
  · intro id hid
    exact h'.drawnIds id (h.drawnIds id hid)
  · intro g hg hc
    exact h'.closed g (h.drawnIds g hg) (h.closed g hg hc)
  · intro a'' ha'' hid
    obtain ⟨a', ha', heq', hex'⟩ := h'.rows a'' ha'' (h.drawnIds _ hid)
    obtain ⟨a, ha, heq, hex⟩ := h.rows a' ha' (heq' ▸ hid)
    exact ⟨a, ha, heq.trans heq', fun hs => hex' (hex hs)⟩

/-! ## Facts about the tables -/

theorem SameRow.id (h : SameRow row a) : a.id = row.id := by rw [h]

theorem SameRow.codeHash (h : SameRow row a) : a.codeHash = row.codeHash := by rw [h]

namespace Ledger

variable {row : McpOAuthAuthorization} {row' : McpOAuthAuthorization}

theorem resolved_eq (h : Ledger crypto s)
    {code code' : Option String} (h1 : .resolved row code ∈ s.history)
    (h2 : .resolved row' code' ∈ s.history) (hid : row.id = row'.id) :
    row = row' ∧ code = code' := by
  have heq := h.resolved_once.eq h1 h2 rfl (by rw [Event.resolvedId?, hid])
  cases heq
  exact ⟨rfl, rfl⟩

variable {code : String}

section

variable (h : Ledger crypto s)

include h

theorem approved_eq
    (h1 : .resolved row (some code) ∈ s.history) (h2 : .resolved row' (some code) ∈ s.history) :
    row = row' := by
  have heq := h.approved_once.eq h1 h2 rfl rfl
  cases heq
  rfl

theorem minted_eq {id id' g g' : Uuid}
    {tokens tokens' : IssuedTokens} (h1 : .minted code id g tokens ∈ s.history)
    (h2 : .minted code id' g' tokens' ∈ s.history) : id = id' ∧ g = g' := by
  obtain ⟨row, hrow, hid⟩ := h.minted_approved _ _ _ _ h1
  obtain ⟨row', hrow', hid'⟩ := h.minted_approved _ _ _ _ h2
  have hsame : id = id' := by rw [← hid, ← hid', h.approved_eq hrow hrow']
  subst hsame
  have heq := h.minted_once.eq h1 h2 rfl rfl
  cases heq
  exact ⟨rfl, rfl⟩

theorem mintedCode_distinct : Distinct Event.mintedCode? s.history := by
  apply h.minted_once.of_determines
  intro e he e' he' code hcode hcode'
  cases e with
  | minted c id g tokens =>
    cases e' with
    | minted c' id' g' tokens' =>
      cases hcode
      cases hcode'
      obtain ⟨rfl, -⟩ := h.minted_eq he he'
      exact ⟨id, rfl, rfl⟩
    | _ => cases hcode'
  | _ => cases hcode

/-- The row of an approved request differs from the approval in its status and grant only. -/
theorem same_row (ha : a ∈ s.db.1.authorizations) {code : Option String}
    (hres : .resolved row code ∈ s.history) (hid : row.id = a.id) : SameRow row a := by
  cases h.authorization a ha with
  | pending status hash unresolved => exact absurd hid (unresolved row code hres)
  | denied status hash row' resolved same | approved status row' code' resolved hash same unminted
  | exchanged status row' code' resolved hash same =>
    rw [(h.resolved_eq hres resolved (hid.trans same.id)).1]
    exact same

theorem exchanged_row (ha : a ∈ s.db.1.authorizations)
    (hres : .resolved row (some code) ∈ s.history)
    (hid : row.id = a.id) (hne : a.status ≠ .approved) :
    a.status = .exchanged ∧ ∃ g tokens, .minted code a.id g tokens ∈ s.history ∧
      (a.grantId = some g ∨ a.grantId = none ∧ Closed s g) := by
  cases h.authorization a ha with
  | pending status hash unresolved => exact absurd hid (unresolved row (some code) hres)
  | denied status hash row' resolved same =>
    have heq := (h.resolved_eq hres resolved (hid.trans same.id)).2
    cases heq
  | approved status row' code' resolved hash same unminted => exact absurd status hne
  | exchanged status row' code' resolved hash same g tokens minted grant =>
    have heq := (h.resolved_eq hres resolved (hid.trans same.id)).2
    cases heq
    refine ⟨status, g, tokens, minted, grant.imp_right ?_⟩
    rintro ⟨hnone, hgone⟩
    refine ⟨hnone, ?_⟩
    intro t ht htg
    -- a token of a grant that is gone would violate the foreign key
    obtain ⟨g', hg', hgid⟩ := s.db.2.token_grant t ht
    exact absurd (hgid.trans htg) (hgone g' hg')

end

end Ledger

theorem record_nil (s : Server) (db : Store) : s.record db [] = { s with db := db } := by
  rw [Server.record, append_nil]

theorem Standing.later (h : Standing crypto s a) (hhist : ∀ e ∈ s.history, e ∈ s'.history)
    (hres : ∀ row code, .resolved row code ∈ s'.history →
      .resolved row code ∈ s.history ∨ row.id ≠ a.id)
    (hmint : ∀ code g tokens, .minted code a.id g tokens ∈ s'.history →
      .minted code a.id g tokens ∈ s.history)
    (hgone : ∀ code g tokens, .minted code a.id g tokens ∈ s.history →
      (∀ g' ∈ s.db.1.grants, g'.id ≠ g) → ∀ g' ∈ s'.db.1.grants, g'.id ≠ g) :
    Standing crypto s' a := by
  cases h with
  | pending status code unresolved =>
    apply Standing.pending status code
    intro row c hrow
    rcases hres row c hrow with hold | hne
    · exact unresolved row c hold
    · exact hne
  | denied status code row resolved same =>
    exact Standing.denied status code row (hhist _ resolved) same
  | approved status row code resolved hash same unminted =>
    apply Standing.approved status row code (hhist _ resolved) hash same
    intro code' g tokens hm
    exact unminted code' g tokens (hmint code' g tokens hm)
  | exchanged status row code resolved hash same g tokens minted grant =>
    refine Standing.exchanged status row code (hhist _ resolved) hash same g tokens
      (hhist _ minted) (grant.imp_right ?_)
    rintro ⟨hnone, hg⟩
    exact ⟨hnone, hgone code g tokens minted hg⟩

/-! ## Recording an event -/

/-- A new event: nothing like it is in the history, and what it names is drawn. -/
def Event.Fits (crypto : Crypto) (s s' : Server) : Event → Prop
  | .resolved row code =>
    (∀ row' code', .resolved row' code' ∈ s.history → row'.id ≠ row.id) ∧ row.id ∈ s'.drawnIds ∧
      ∀ c, code = some c → c ∉ s.drawn ∧ c ∈ s'.drawn
  | .minted code id g _ =>
    (∀ code' g' tokens', .minted code' id g' tokens' ∉ s.history) ∧ g ∈ s'.drawnIds ∧
      ∃ row, .resolved row (some code) ∈ s.history ∧ row.id = id
  | .rotated token _ _ =>
    (∀ g' tokens', .rotated token g' tokens' ∉ s.history) ∧ token ∈ s.drawn ∧
      ∀ t ∈ s'.db.1.tokens, t.tokenHash = crypto.digest token → t.revokedAt ≠ none
  | .revoked g => g ∈ s'.drawnIds ∧ Closed s' g

/-- A token row after a transaction: an old one, revoked at most, or one of the tokens issued. -/
def TokenFrom (crypto : Crypto) (s : Server) (issued : List IssuedToken) (t' : McpOAuthToken) :
    Prop :=
  (∃ t ∈ s.db.1.tokens, t' = { t with revokedAt := t'.revokedAt } ∧
    (t'.revokedAt = none → t.revokedAt = none)) ∨
  ∃ i ∈ issued, crypto.digest i.token = t'.tokenHash ∧ i.kind = t'.kind ∧ i.grant = t'.grantId

theorem TokenFrom.old {issued : List IssuedToken} (ht : t ∈ s.db.1.tokens) :
    TokenFrom crypto s issued t :=
  .inl ⟨t, ht, rfl, fun h => h⟩

theorem Standing.recorded (h : Standing crypto s a) {e : Event}
    (hhist : s'.history = s.history ++ [e])
    (hres : ∀ row code, e = .resolved row code → row.id ≠ a.id)
    (hmint : ∀ code g tokens, e ≠ .minted code a.id g tokens)
    (hgone : ∀ code g tokens, .minted code a.id g tokens ∈ s.history →
      (∀ g' ∈ s.db.1.grants, g'.id ≠ g) → ∀ g' ∈ s'.db.1.grants, g'.id ≠ g) :
    Standing crypto s' a := by
  have hmem : ∀ e', e' ∈ s'.history → e' ∈ s.history ∨ e' = e := by
    intro e' he
    rw [hhist] at he
    exact (mem_append.1 he).imp_right mem_singleton.1
  refine h.later ?_ ?_ ?_ hgone
  · intro e' he
    rw [hhist]
    exact mem_append_left _ he
  · exact fun row code he => (hmem _ he).imp_right fun heq => hres row code heq.symm
  · exact fun code g tokens he => (hmem _ he).resolve_right fun heq => hmint code g tokens heq.symm

theorem Ledger.recorded (h : Ledger crypto s) {e : Event} (hhist : s'.history = s.history ++ [e])
    (hdrawn : ∀ secret ∈ s.drawn, secret ∈ s'.drawn) (hids : ∀ id ∈ s.drawnIds, id ∈ s'.drawnIds)
    (hfits : e.Fits crypto s s') (hnodup : (e.issued.map IssuedToken.token).Nodup)
    (hissued : ∀ i ∈ e.issued, i.token ∉ s.drawn ∧ i.token ∈ s'.drawn ∧ i.grant ∈ s'.drawnIds)
    (hauth : ∀ a ∈ s'.db.1.authorizations, a.id ∈ s'.drawnIds ∧ Standing crypto s' a)
    (hgrant : ∀ g' ∈ s'.db.1.grants, g' ∈ s.db.1.grants ∨ ∃ row code tokens,
      .resolved row (some code) ∈ s.history ∧ e = .minted code row.id g'.id tokens ∧
        g'.resource = row.resource) (htoken : ∀ t ∈ s'.db.1.tokens, TokenFrom crypto s e.issued t)
    (hclosed : ∀ g ∈ s.drawnIds, Closed s g → Closed s' g) : Ledger crypto s' := by
  have hmem : ∀ e', e' ∈ s'.history ↔ e' ∈ s.history ∨ e' = e := by
    intro e'
    rw [hhist, mem_append, mem_singleton]
  have hkeep : ∀ e' ∈ s.history, e' ∈ s'.history := fun e' he => (hmem e').2 (.inl he)
  have htokens : issuedTokens s'.history = issuedTokens s.history ++ e.issued := by
    rw [hhist, issuedTokens_append]
    exact congrArg _ (flatMap_singleton _ _)
  constructor
  case resolved_once =>
    rw [hhist]
    refine h.resolved_once.concat fun k hk e' he heq => ?_
    cases e with cases hk
    | resolved row code =>
      cases e' with
      | resolved row' code' => exact hfits.1 row' code' he (Option.some.inj heq)
      | _ => cases heq
  case approved_once =>
    rw [hhist]
    refine h.approved_once.concat fun k hk e' he heq => ?_
    cases e with
    | resolved row code =>
      cases e' with
      | resolved row' code' => exact (hfits.2.2 k hk).1 ((h.resolved_drawn row' code' he).2 k heq)
      | _ => cases heq
    | _ => cases hk
  case minted_once =>
    rw [hhist]
    refine h.minted_once.concat fun k hk e' he heq => ?_
    cases e <;> cases hk
    cases e' <;> cases heq
    exact hfits.1 _ _ _ he
  case rotated_once =>
    rw [hhist]
    refine h.rotated_once.concat fun k hk e' he heq => ?_
    cases e <;> cases hk
    cases e' <;> cases heq
    exact hfits.1 _ _ he
  case issued_once =>
    unfold Keyed
    rw [htokens, map_append, nodup_append]
    refine ⟨h.issued_once, hnodup, ?_⟩
    intro token hold token' hnew heq
    obtain ⟨i, hi, rfl⟩ := mem_map.1 hold
    obtain ⟨i', hi', rfl⟩ := mem_map.1 hnew
    exact (hissued i' hi').1 (heq ▸ (h.issued_drawn i hi).1)
  case authorization_drawn => exact fun a ha => (hauth a ha).1
  case authorization => exact fun a ha => (hauth a ha).2
  case resolved_drawn =>
    intro row code he
    rcases (hmem _).1 he with hin | rfl
    · obtain ⟨hid, hcode⟩ := h.resolved_drawn row code hin
      exact ⟨hids _ hid, fun c hc => hdrawn _ (hcode c hc)⟩
    · exact ⟨hfits.2.1, fun c hc => (hfits.2.2 c hc).2⟩
  case minted_drawn =>
    intro code id g tokens he
    rcases (hmem _).1 he with hin | rfl
    · exact hids _ (h.minted_drawn _ _ _ _ hin)
    · exact hfits.2.1
  case issued_drawn =>
    intro i hi
    rw [htokens] at hi
    rcases mem_append.1 hi with hin | hnew
    · exact ⟨hdrawn _ (h.issued_drawn i hin).1, hids _ (h.issued_drawn i hin).2⟩
    · exact (hissued i hnew).2
  case minted_approved =>
    intro code id g tokens he
    obtain ⟨row, hrow, hid⟩ : ∃ row, .resolved row (some code) ∈ s.history ∧ row.id = id := by
      rcases (hmem _).1 he with hin | rfl
      · exact h.minted_approved _ _ _ _ hin
      · exact hfits.2.2
    exact ⟨row, hkeep _ hrow, hid⟩
  case grant =>
    intro g' hg'
    rcases hgrant g' hg' with hin | ⟨row, code, tokens, hres, heq, hresource⟩
    · obtain ⟨row, code, tokens, hres, hmint, heq⟩ := h.grant g' hin
      exact ⟨row, code, tokens, hkeep _ hres, hkeep _ hmint, heq⟩
    · exact ⟨row, code, tokens, hkeep _ hres, (hmem _).2 (.inr heq.symm), hresource⟩
  case token =>
    intro t' ht'
    rw [htokens]
    rcases htoken t' ht' with ⟨t, ht, heq, -⟩ | ⟨i, hi, hi'⟩
    · obtain ⟨i, hi, hi'⟩ := h.token t ht
      rw [heq]
      exact ⟨i, mem_append_left _ hi, hi'⟩
    · exact ⟨i, mem_append_right _ hi, hi'⟩
  case rotated =>
    intro token g tokens he
    rcases (hmem _).1 he with hin | rfl
    · obtain ⟨hold, hrevoked⟩ := h.rotated token g tokens hin
      refine ⟨hdrawn _ hold, ?_⟩
      intro t' ht' hash hnone
      rcases htoken t' ht' with ⟨t, ht, heq, hlive⟩ | ⟨i, hi, hi', -⟩
      · have hhash : t.tokenHash = crypto.digest token := by rw [← hash, heq]
        exact hrevoked t ht hhash (hlive hnone)
      · -- the hash of a new token is not that of a secret drawn before
        have hsame := crypto.digest_injective (hi'.trans hash)
        exact (hissued i hi).1 (hsame ▸ hold)
    · exact ⟨hdrawn _ hfits.2.1, hfits.2.2⟩
  case revoked =>
    intro g he
    rcases (hmem _).1 he with hin | rfl
    · obtain ⟨hid, hc⟩ := h.revoked g hin
      exact ⟨hids g hid, hclosed g hid hc⟩
    · exact hfits

/-! ## Steps that mint nothing -/

section Reduce

variable {db' : Store}

theorem closed_reduces (hr : Reduces s.db.1 db'.1) (hc : Closed s g) :
    Closed { s with db := db' } g := by
  intro t' ht' htg hnone
  obtain ⟨t, ht, heq, hold⟩ := hr.tokens t' ht'
  have hgrant : t.grantId = g := by rw [← htg, heq]
  exact hc t ht hgrant (hold hnone)

theorem standing_reduces (hr : Reduces s.db.1 db'.1) {a' : McpOAuthAuthorization}
    (ha' : a' ∈ db'.1.authorizations) (hs : ∀ a ∈ s.db.1.authorizations, Standing crypto s a) :
    Standing crypto { s with db := db' } a' := by
  obtain ⟨a, ha, heq, hgrant⟩ := hr.authorizations a' ha'
  have hid : a'.id = a.id := by rw [heq]
  have hstatus : a'.status = a.status := by rw [heq]
  have hcode : a'.codeHash = a.codeHash := by rw [heq]
  have hsame : ∀ row, SameRow row a → SameRow row a' := by
    intro row h
    rw [SameRow, heq, h]
  cases hs a ha with
  | pending status code unresolved =>
    exact Standing.pending (hstatus.trans status) (hcode.trans code) (hid ▸ unresolved)
  | denied status code row resolved same =>
    exact Standing.denied (hstatus.trans status) (hcode.trans code) row resolved (hsame row same)
  | approved status row code resolved hash same unminted =>
    exact Standing.approved (hstatus.trans status) row code resolved hash (hsame row same)
      (hid ▸ unminted)
  | exchanged status row code resolved hash same g tokens minted grant =>
    refine Standing.exchanged (hstatus.trans status) row code resolved hash (hsame row same) g
      tokens (hid ▸ minted) ?_
    have hgone : (∀ g' ∈ s.db.1.grants, g'.id ≠ g) → ∀ g' ∈ db'.1.grants, g'.id ≠ g := by
      intro hg g' hg'
      obtain ⟨g₀, hg₀, hgeq, -⟩ := hr.grants g' hg'
      rw [hgeq]
      exact hg g₀ hg₀
    rcases hgrant with hkept | ⟨hnone, hgrants⟩
    · rw [hkept]
      exact grant.imp_right fun h => ⟨h.1, hgone h.2⟩
    · refine .inr ⟨hnone, ?_⟩
      rcases grant with hsome | ⟨-, hg⟩
      · intro g' hg' hgid
        exact hgrants g' hg' (by rw [hsome, hgid])
      · exact hgone hg

theorem ledger_reduces (h : Ledger crypto s) (hr : Reduces s.db.1 db'.1) :
    Ledger crypto { s with db := db' } where
  resolved_once := h.resolved_once
  approved_once := h.approved_once
  minted_once := h.minted_once
  rotated_once := h.rotated_once
  issued_once := h.issued_once
  authorization_drawn := by
    intro a' ha'
    obtain ⟨a, ha, heq, -⟩ := hr.authorizations a' ha'
    rw [heq]
    exact h.authorization_drawn a ha
  resolved_drawn := h.resolved_drawn
  minted_drawn := h.minted_drawn
  issued_drawn := h.issued_drawn
  minted_approved := h.minted_approved
  authorization := fun _ ha' => standing_reduces hr ha' h.authorization
  grant := by
    intro g' hg'
    obtain ⟨g, hg, heq, -⟩ := hr.grants g' hg'
    rw [heq]
    exact h.grant g hg
  token := by
    intro t' ht'
    obtain ⟨t, ht, heq, -⟩ := hr.tokens t' ht'
    rw [heq]
    exact h.token t ht
  rotated := by
    intro token g tokens he
    refine ⟨(h.rotated token g tokens he).1, ?_⟩
    intro t' ht' hash hnone
    obtain ⟨t, ht, heq, hold⟩ := hr.tokens t' ht'
    have hhash : t.tokenHash = crypto.digest token := by rw [← hash, heq]
    exact (h.rotated token g tokens he).2 t ht hhash (hold hnone)
  revoked := fun g he => ⟨(h.revoked g he).1, closed_reduces hr (h.revoked g he).2⟩

theorem extends_reduces (hr : Reduces s.db.1 db'.1) : Extends s { s with db := db' } := by
  refine ⟨fun _ h => h, fun _ h => h, fun g _ hc => closed_reduces hr hc, ?_⟩
  intro a' ha' _
  obtain ⟨a, ha, heq, -⟩ := hr.authorizations a' ha'
  refine ⟨a, ha, by rw [heq], ?_⟩
  intro hs
  rw [heq]
  exact hs

end Reduce

theorem ledger_draw (h : Ledger crypto s) (secrets : List String) (ids : List Uuid) :
    Ledger crypto (s.draw secrets ids) :=
  { h with
    authorization_drawn := fun a ha => mem_append_left _ (h.authorization_drawn a ha)
    resolved_drawn := fun row code he =>
      ⟨mem_append_left _ (h.resolved_drawn row code he).1,
        fun c hc => mem_append_left _ ((h.resolved_drawn row code he).2 c hc)⟩
    minted_drawn := fun code id g tokens he =>
      mem_append_left _ (h.minted_drawn code id g tokens he)
    issued_drawn := fun i hi =>
      ⟨mem_append_left _ (h.issued_drawn i hi).1, mem_append_left _ (h.issued_drawn i hi).2⟩
    authorization := fun a ha => (h.authorization a ha).later (fun _ he => he)
      (fun _ _ he => .inl he) (fun _ _ _ he => he) fun _ _ _ _ hg => hg
    rotated := fun token g tokens he =>
      ⟨mem_append_left _ (h.rotated token g tokens he).1, (h.rotated token g tokens he).2⟩
    revoked := fun g he => ⟨mem_append_left _ (h.revoked g he).1, (h.revoked g he).2⟩ }

theorem extends_draw (s : Server) (secrets : List String) (ids : List Uuid) :
    Extends s (s.draw secrets ids) :=
  ⟨fun _ h => h, fun _ h => mem_append_left _ h, fun _ _ h => h, fun a ha _ => ⟨a, ha, rfl, id⟩⟩

variable {revoked : Bool}

theorem ledger_revocation (h : Ledger crypto s)
    (hg : revoked = true → g ∈ s.drawnIds) (hc : Closed s g) :
    Ledger crypto { s with history := s.history ++ revocation g revoked } := by
  cases revoked with
  | false =>
    rw [revocation, if_neg Bool.false_ne_true, append_nil]
    exact h
  | true =>
    refine h.recorded rfl (fun _ hs => hs) (fun _ hid => hid) ⟨hg rfl, hc⟩ nodup_nil nofun ?_
      (fun _ hg => .inl hg) (fun _ ht => .old ht) (fun _ _ hc => hc)
    intro a ha
    exact ⟨h.authorization_drawn a ha,
      (h.authorization a ha).recorded rfl nofun nofun fun _ _ _ _ hgone => hgone⟩

theorem extends_history (s : Server) (events : List Event) :
    Extends s { s with history := s.history ++ events } :=
  ⟨fun _ h => mem_append_left _ h, fun _ h => h, fun _ _ h => h, fun a ha _ => ⟨a, ha, rfl, id⟩⟩

variable {db' : Store} {x : McpOAuthAuthorization}

/-- `revoke_grant` leaves no live token of the grant. -/
theorem closed_revokeGrant
    (hr : s.db.revokeGrant g now = .ok (db', revoked)) : Closed { s with db := db' } g := by
  intro t' ht' htg
  have hmem : t' ∈ db'.1.tokens := ht'
  rw [revokeGrant_eq_ok hr] at hmem
  obtain ⟨t, ht, rfl⟩ := mem_update.1 hmem
  by_cases hlive : isLiveTokenOf g t = true
  · rw [if_pos hlive]
    simp [revokedToken]
  · rw [if_neg hlive] at htg ⊢
    intro hnone
    apply hlive
    simp [isLiveTokenOf, htg, hnone]

theorem ledger_revokeGrant (h : Ledger crypto s)
    (hr : s.db.revokeGrant g now = .ok (db', revoked)) :
    Ledger crypto (s.record db' (revocation g revoked)) ∧
      Extends s (s.record db' (revocation g revoked)) ∧
      Closed (s.record db' (revocation g revoked)) g := by
  have hred := reduces_revokeGrant hr
  have hdrawn : revoked = true → g ∈ s.drawnIds := by
    intro hrev
    obtain ⟨g₀, hg₀, hid⟩ := exists_of_revokeGrant hr hrev
    obtain ⟨row, code, tokens, -, hmint, -⟩ := h.grant g₀ hg₀
    rw [← hid]
    exact h.minted_drawn _ _ _ _ hmint
  refine ⟨?_, ?_, closed_revokeGrant hr⟩
  · exact ledger_revocation (ledger_reduces h hred) hdrawn (closed_revokeGrant hr)
  · exact (extends_reduces hred).trans (extends_history _ _)

/-! ## Consent requests -/

theorem ledger_insert (h : Ledger crypto s) {row : McpOAuthAuthorization}
    (secrets : List String) (hid : row.id ∉ s.drawnIds) (hstatus : row.status = .pending)
    (hcode : row.codeHash = none)
    (hdb : db'.1 = { s.db.1 with authorizations := s.db.1.authorizations ++ [row] }) :
    Ledger crypto { s.draw secrets [row.id] with db := db' } ∧
      Extends s { s.draw secrets [row.id] with db := db' } := by
  have htokens : db'.1.tokens = s.db.1.tokens := by rw [hdb]
  have hgrants : db'.1.grants = s.db.1.grants := by rw [hdb]
  have hmem : ∀ a, a ∈ db'.1.authorizations ↔ a ∈ s.db.1.authorizations ∨ a = row := by
    intro a
    rw [hdb, mem_append, mem_singleton]
  have hd := ledger_draw h secrets [row.id]
  have hclosed : ∀ g, Closed s g → Closed { s.draw secrets [row.id] with db := db' } g := by
    intro g hc t ht
    exact hc t (htokens ▸ ht)
  refine ⟨?_, fun _ he => he, fun _ h => mem_append_left _ h, fun g _ hc => hclosed g hc, ?_⟩
  · exact
      { hd with
        authorization_drawn := by
          intro a ha
          rcases (hmem a).1 ha with hold | rfl
          · exact hd.authorization_drawn a hold
          · exact mem_append_right _ (mem_singleton.2 rfl)
        authorization := by
          intro a ha
          rcases (hmem a).1 ha with hold | rfl
          · refine (h.authorization a hold).later (fun _ he => he) (fun _ _ he => .inl he)
              (fun _ _ _ he => he) ?_
            intro code g tokens _ hg
            show ∀ g' ∈ db'.1.grants, g'.id ≠ g
            rw [hgrants]
            exact hg
          · apply Standing.pending hstatus hcode
            intro row code he heq
            exact hid (heq ▸ (h.resolved_drawn row code he).1)
        grant := by
          intro g hg
          exact h.grant g (hgrants ▸ hg)
        token := by
          intro t ht
          exact h.token t (htokens ▸ ht)
        rotated := by
          intro token g tokens he
          refine ⟨(hd.rotated token g tokens he).1, ?_⟩
          intro t ht
          exact (h.rotated token g tokens he).2 t (htokens ▸ ht)
        revoked := fun g he => ⟨(hd.revoked g he).1, hclosed g (h.revoked g he).2⟩ }
  · intro a ha hdrawn
    rcases (hmem a).1 ha with hold | rfl
    · exact ⟨a, hold, rfl, id⟩
    · exact absurd hdrawn hid

/-- What `resolve_pending` makes of a row, for a code. -/
def approval (crypto : Crypto) (code : Option String) (expiresAt : Instant) :
    Option (Digest × Instant) :=
  code.map fun code => (crypto.digest code, expiresAt)

theorem resolved_id (ac : Option (Digest × Instant)) (a : McpOAuthAuthorization) :
    (resolved ac a).id = a.id := by
  cases ac <;> rfl

theorem mem_updated {p : McpOAuthAuthorization → Bool}
    {f : McpOAuthAuthorization → McpOAuthAuthorization}
    {rows : List McpOAuthAuthorization} (hkeyed : Keyed McpOAuthAuthorization.id rows)
    (hx : x ∈ rows) (hpx : p x = true) (hp : ∀ a, p a = true → a.id = x.id)
    {a : McpOAuthAuthorization} (ha : a ∈ update p f rows) : a = f x ∨ a ∈ rows ∧ a.id ≠ x.id := by
  obtain ⟨b, hb, rfl⟩ := mem_update.1 ha
  split_ifs with hpb
  · rw [hkeyed.eq hb hx (hp b hpb)]
    exact .inl rfl
  · refine .inr ⟨hb, ?_⟩
    intro heq
    rw [hkeyed.eq hb hx heq] at hpb
    exact hpb hpx

theorem ledger_resolve (h : Ledger crypto s) {id : Uuid} {code : Option String}
    {expiresAt : Instant} {secrets : List String} (hfresh : ∀ c, code = some c → c ∉ s.drawn)
    (hsecret : ∀ c, code = some c → c ∈ secrets)
    (hx : x ∈ s.db.1.authorizations) (hpending : isPending id now x = true)
    (hdb : db'.1 = { s.db.1 with
      authorizations := update (isPending id now)
        (resolved (approval crypto code expiresAt)) s.db.1.authorizations }) :
    let row := resolved (approval crypto code expiresAt) x
    Ledger crypto ((s.draw secrets []).record db' [.resolved row code]) ∧
      Extends s ((s.draw secrets []).record db' [.resolved row code]) := by
  intro row
  have htokens : db'.1.tokens = s.db.1.tokens := by rw [hdb]
  have hgrants : db'.1.grants = s.db.1.grants := by rw [hdb]
  have hpid : ∀ a, isPending id now a = true → a.id = x.id := by
    intro a ha
    simp only [isPending, and_eq_true, decide_eq_true_eq] at ha hpending
    rw [ha.1.1, hpending.1.1]
  have hmem : ∀ a ∈ db'.1.authorizations, a = row ∨ a ∈ s.db.1.authorizations ∧ a.id ≠ x.id := by
    intro a ha
    rw [hdb] at ha
    exact mem_updated s.db.2.authorizations_keyed hx hpending hpid ha
  have hrowid : row.id = x.id := resolved_id _ x
  -- the row was pending, so nothing has resolved it before
  have hunresolved : ∀ row' code', .resolved row' code' ∈ s.history → row'.id ≠ x.id := by
    simp only [isPending, and_eq_true, decide_eq_true_eq] at hpending
    cases h.authorization x hx with
    | pending status code unresolved => exact unresolved
    | denied status | approved status | exchanged status =>
        rw [hpending.1.2] at status; cases status
  have hnew : .resolved row code ∈ s.history ++ [.resolved row code] :=
    mem_append_right _ (mem_singleton.2 rfl)
  have hstanding : Standing crypto ((s.draw secrets []).record db' [.resolved row code]) row := by
    cases code with
    | none =>
      have hrow : row = { x with status := .denied, codeHash := none } := rfl
      exact Standing.denied (by rw [hrow]) (by rw [hrow]) row hnew rfl
    | some c =>
      have hrow : row =
          { x with
            status := .approved
            codeHash := some (crypto.digest c)
            expiresAt := expiresAt } := rfl
      refine Standing.approved (by rw [hrow]) row c hnew (by rw [hrow]) rfl ?_
      intro code' g tokens he
      rcases mem_append.1 he with hin | hin
      · obtain ⟨row', hres, hid⟩ := h.minted_approved _ _ _ _ hin
        exact hunresolved row' _ hres (hid.trans hrowid)
      · cases mem_singleton.1 hin
  have hclosed : ∀ g, Closed s g →
      Closed ((s.draw secrets []).record db' [.resolved row code]) g := by
    intro g hc t ht
    exact hc t (htokens ▸ ht)
  have hdrawn : row.id ∈ s.drawnIds := hrowid ▸ h.authorization_drawn x hx
  refine ⟨?_, fun _ he => mem_append_left _ he, fun _ h => mem_append_left _ h,
    fun g _ hc => hclosed g hc, ?_⟩
  · refine h.recorded rfl (fun _ hs => mem_append_left _ hs)
      (fun _ hid => mem_append_left _ hid) ?_ nodup_nil (fun _ h => by cases h) ?_
      (fun _ hg => .inl (hgrants ▸ hg)) (fun _ ht => .old (htokens ▸ ht)) fun g _ => hclosed g
    · exact ⟨fun row' code' he => hrowid ▸ hunresolved row' code' he, mem_append_left _ hdrawn,
        fun c hc => ⟨hfresh c hc, mem_append_right _ (hsecret c hc)⟩⟩
    · intro a ha
      rcases hmem a ha with rfl | ⟨hin, hne⟩
      · exact ⟨mem_append_left _ hdrawn, hstanding⟩
      · refine ⟨mem_append_left _ (h.authorization_drawn a hin),
          (h.authorization a hin).recorded rfl ?_ (fun _ _ _ h => by cases h) ?_⟩
        · intro row' code' he heq
          cases he
          exact hne (heq.symm.trans hrowid)
        · intro code' g tokens _ hg
          show ∀ g' ∈ db'.1.grants, g'.id ≠ g
          rw [hgrants]
          exact hg
  · intro a ha _
    rcases hmem a ha with rfl | ⟨hin, -⟩
    · refine ⟨x, hx, hrowid.symm, ?_⟩
      intro hex
      simp only [isPending, and_eq_true, decide_eq_true_eq] at hpending
      rw [hpending.1.2] at hex
      cases hex
    · exact ⟨a, hin, rfl, fun h => h⟩

/-! ## Steps that mint -/

section Mint

variable {db' : Store} {tokens : IssuedTokens} {i : IssuedToken}

theorem mem_pair (hi : i ∈ Event.pair tokens g) :
    i.token ∈ [tokens.accessToken, tokens.refreshToken] ∧ i.grant = g := by
  rcases mem_cons.1 hi with rfl | hi
  · exact ⟨mem_cons_self, rfl⟩
  · rw [mem_singleton.1 hi]
    exact ⟨mem_cons_of_mem _ (mem_singleton.2 rfl), rfl⟩

theorem mem_insertTokenPair {rows : Rows}
    (ht : t ∈ (insertTokenPair rows g (tokenHashes crypto tokens now)).tokens) :
    t ∈ rows.tokens ∨ t.grantId = g ∧ ∃ i ∈ Event.pair tokens g,
      crypto.digest i.token = t.tokenHash ∧ i.kind = t.kind ∧ i.grant = t.grantId := by
  apply (mem_append.1 ht).imp_right
  intro hnew
  rcases mem_cons.1 hnew with rfl | hnew
  · exact ⟨rfl, _, mem_cons_self, rfl, rfl, rfl⟩
  · rw [mem_singleton.1 hnew]
    exact ⟨rfl, _, mem_cons_of_mem _ (mem_singleton.2 rfl), rfl, rfl, rfl⟩

theorem issued_fresh {ids : List Uuid}
    (hfresh : s.Fresh [tokens.accessToken, tokens.refreshToken] ids)
    (hi : i ∈ Event.pair tokens g) (hg : g ∈ s.drawnIds ++ ids) :
    i.token ∉ s.drawn ∧ i.token ∈ s.drawn ++ [tokens.accessToken, tokens.refreshToken] ∧
      i.grant ∈ s.drawnIds ++ ids := by
  obtain ⟨htoken, hgrant⟩ := mem_pair hi
  exact ⟨hfresh.2.1 _ htoken, mem_append_right _ htoken, hgrant ▸ hg⟩

theorem ledger_exchange (h : Ledger crypto s) {code : String} {row : McpOAuthAuthorization}
    (hres : .resolved row (some code) ∈ s.history) (hrow : SameRow row a)
    (hfresh : s.Fresh [tokens.accessToken, tokens.refreshToken] [g])
    (hfound : ∃ x ∈ s.db.1.authorizations, isApproved a.id now x = true)
    (hdb : db'.1 = insertTokenPair
      { s.db.1 with
        grants := s.db.1.grants ++ [⟨g, a.clientId, a.resource, none⟩]
        authorizations := update (isApproved a.id now) (exchanged g)
          s.db.1.authorizations } g (tokenHashes crypto tokens now)) :
    let s' := (s.draw [tokens.accessToken, tokens.refreshToken] [g]).record db'
      [.minted code a.id g tokens]
    Ledger crypto s' ∧ Extends s s' := by
  intro s'
  obtain ⟨x, hx, happroved⟩ := hfound
  have hgfresh : g ∉ s.drawnIds := hfresh.2.2.2 g (mem_singleton.2 rfl)
  have hgrants : ∀ g' ∈ db'.1.grants,
      g' ∈ s.db.1.grants ∨ g' = ⟨g, a.clientId, a.resource, none⟩ := by
    intro g' hg'
    rw [hdb] at hg'
    exact (mem_append.1 hg').imp_right mem_singleton.1
  have htokens : ∀ t ∈ db'.1.tokens, t ∈ s.db.1.tokens ∨ t.grantId = g ∧
      ∃ i ∈ Event.pair tokens g,
        crypto.digest i.token = t.tokenHash ∧ i.kind = t.kind ∧ i.grant = t.grantId := by
    intro t ht
    rw [hdb] at ht
    exact mem_insertTokenPair ht
  have hpid : ∀ b, isApproved a.id now b = true → b.id = x.id := by
    intro b hb
    simp only [isApproved, and_eq_true, decide_eq_true_eq] at hb happroved
    rw [hb.1.1, happroved.1.1]
  have hmem : ∀ b ∈ db'.1.authorizations,
      b = exchanged g x ∨ b ∈ s.db.1.authorizations ∧ b.id ≠ x.id := by
    intro b hb
    rw [hdb] at hb
    exact mem_updated s.db.2.authorizations_keyed hx happroved hpid hb
  have hxid : x.id = a.id ∧ x.status = .approved := by
    simp only [isApproved, and_eq_true, decide_eq_true_eq] at happroved
    exact happroved.1
  -- the row in the table is the approved one, with the code that was presented
  obtain ⟨hxrow, hxhash, hunminted⟩ : SameRow row x ∧ row.codeHash = some (crypto.digest code) ∧
      ∀ code' g' tokens', .minted code' x.id g' tokens' ∉ s.history := by
    cases h.authorization x hx with
    | pending status | denied status | exchanged status => rw [hxid.2] at status; cases status
    | approved status row' code' resolved hash same unminted =>
      have hid : row'.id = row.id := by rw [← same.id, ← hrow.id, hxid.1]
      obtain ⟨rfl, heq⟩ := h.resolved_eq resolved hres hid
      cases heq
      exact ⟨same, hash, unminted⟩
  have hclosed : ∀ g' ∈ s.drawnIds, Closed s g' → Closed s' g' := by
    intro g' hdrawn hc t ht htg
    rcases htokens t ht with hin | ⟨heq, -⟩
    · exact hc t hin htg
    · rw [← htg, heq] at hdrawn
      exact absurd hdrawn hgfresh
  have hkeep : ∀ e ∈ s.history, e ∈ s'.history := fun e he => mem_append_left _ he
  have hledger : Ledger crypto s' := by
    refine h.recorded rfl (fun _ hs => mem_append_left _ hs)
      (fun _ hid => mem_append_left _ hid) ?_ hfresh.1 ?_ ?_ ?_ ?_ hclosed
    · refine ⟨fun code' g' tokens' he => hunminted code' g' tokens' (hxid.1 ▸ he), ?_,
        row, hres, hrow.id.symm⟩
      exact mem_append_right _ (mem_singleton.2 rfl)
    · exact fun i hi => issued_fresh hfresh hi (mem_append_right _ (mem_singleton.2 rfl))
    · intro b hb
      rcases hmem b hb with rfl | ⟨hin, hne⟩
      · refine ⟨mem_append_left _ (h.authorization_drawn x hx), ?_⟩
        have hminted : .minted code (exchanged g x).id g tokens ∈ s'.history := by
          show Event.minted code x.id g tokens ∈ _
          rw [hxid.1]
          exact mem_append_right _ (mem_singleton.2 rfl)
        refine Standing.exchanged rfl row code (hkeep _ hres) hxhash ?_ g tokens hminted (.inl rfl)
        rw [SameRow, hxrow]
        rfl
      · refine ⟨mem_append_left _ (h.authorization_drawn b hin),
          (h.authorization b hin).recorded rfl (fun _ _ h => by cases h) ?_ ?_⟩
        · intro code' g' tokens' heq
          have hid : a.id = b.id := by injection heq
          exact hne (hid.symm.trans hxid.1.symm)
        · intro code' g' tokens' hm hgone g₀ hg₀ heq
          rcases hgrants g₀ hg₀ with hin' | rfl
          · exact hgone g₀ hin' heq
          · have hdrawn := h.minted_drawn _ _ _ _ hm
            rw [← heq] at hdrawn
            exact hgfresh hdrawn
    · intro g' hg'
      rcases hgrants g' hg' with hin | rfl
      · exact .inl hin
      · refine .inr ⟨row, code, tokens, hres, by rw [hrow.id], ?_⟩
        show a.resource = row.resource
        rw [hrow]
    · intro t ht
      rcases htokens t ht with hin | ⟨-, hnew⟩
      · exact .old hin
      · exact .inr hnew
  refine ⟨hledger, hkeep, fun _ hid => mem_append_left _ hid, hclosed, ?_⟩
  intro b hb _
  rcases hmem b hb with rfl | ⟨hin, -⟩
  · exact ⟨x, hx, rfl, fun _ => rfl⟩
  · exact ⟨b, hin, rfl, fun hs => hs⟩

theorem ledger_rotate (h : Ledger crypto s) {token : String}
    (htoken : ⟨token, .refresh, g⟩ ∈ issuedTokens s.history)
    (hfresh : s.Fresh [tokens.accessToken, tokens.refreshToken] [])
    (hfound : ∃ t ∈ s.db.1.tokens, isUnrotated (crypto.digest token) t = true)
    (hdb : db'.1 = insertTokenPair
      { s.db.1 with
        tokens := update (isUnrotated (crypto.digest token)) (revokedToken now)
          s.db.1.tokens } g (tokenHashes crypto tokens now)) :
    let s' := (s.draw [tokens.accessToken, tokens.refreshToken] []).record db'
      [.rotated token g tokens]
    Ledger crypto s' ∧ Extends s s' := by
  intro s'
  obtain ⟨x, hx, hunrotated⟩ := hfound
  have hgrants : db'.1.grants = s.db.1.grants := by rw [hdb]; rfl
  have hauth : db'.1.authorizations = s.db.1.authorizations := by rw [hdb]; rfl
  have hxlive : x.tokenHash = crypto.digest token ∧ x.revokedAt = none := by
    simp only [isUnrotated, and_eq_true, decide_eq_true_eq] at hunrotated
    exact ⟨hunrotated.1.1, hunrotated.2⟩
  have hdrawn := h.issued_drawn _ htoken
  -- the token belongs to the grant that its issue recorded
  have hxgrant : x.grantId = g := by
    obtain ⟨i, hi, hash, -, hgrant⟩ := h.token x hx
    have hsame : i.token = token := crypto.digest_injective (hash.trans hxlive.1)
    have heq := h.issued_once.eq hi htoken hsame
    rw [← hgrant, heq]
  have htokens : ∀ t' ∈ db'.1.tokens,
      (∃ t ∈ s.db.1.tokens, t' = { t with revokedAt := t'.revokedAt } ∧
        (t'.revokedAt = none → t.revokedAt = none ∧ t.tokenHash ≠ crypto.digest token)) ∨
      t'.grantId = g ∧ ∃ i ∈ Event.pair tokens g,
        crypto.digest i.token = t'.tokenHash ∧ i.kind = t'.kind ∧ i.grant = t'.grantId := by
    intro t' ht'
    rw [hdb] at ht'
    apply (mem_insertTokenPair ht').imp_left
    intro hin
    obtain ⟨t, ht, rfl⟩ := mem_update.1 hin
    refine ⟨t, ht, ?_, ?_⟩
    · split <;> rfl
    · split
      · intro hnone
        cases hnone
      · rename_i hnot
        intro hnone
        refine ⟨hnone, ?_⟩
        intro hash
        have heq := s.db.2.tokens_keyed.eq ht hx (hash.trans hxlive.1.symm)
        rw [heq] at hnot
        exact hnot hunrotated
  have hkeep : ∀ e ∈ s.history, e ∈ s'.history := fun e he => mem_append_left _ he
  have hclosed : ∀ g', Closed s g' → Closed s' g' := by
    intro g' hc t' ht' htg hnone
    rcases htokens t' ht' with ⟨t, ht, heq, hlive⟩ | ⟨heq, -⟩
    · have hgrant : t.grantId = g' := by rw [← htg, heq]
      exact hc t ht hgrant (hlive hnone).1
    · -- the grant still had the token that is being rotated
      exact hc x hx (hxgrant.trans (heq.symm.trans htg)) hxlive.2
  have hledger : Ledger crypto s' := by
    refine h.recorded rfl (fun _ hs => mem_append_left _ hs)
      (fun _ hid => mem_append_left _ hid) ?_ hfresh.1 ?_ ?_
      (fun _ hg' => .inl (hgrants ▸ hg')) ?_ fun g' _ => hclosed g'
    · refine ⟨fun g' tokens' he => (h.rotated _ g' tokens' he).2 x hx hxlive.1 hxlive.2,
        hdrawn.1, ?_⟩
      intro t' ht' hash hnone
      rcases htokens t' ht' with ⟨t, ht, heq, hlive⟩ | ⟨-, i, hi, hi', -⟩
      · have hhash : t.tokenHash = crypto.digest token := by rw [← hash, heq]
        exact (hlive hnone).2 hhash
      · have hsame := crypto.digest_injective (hi'.trans hash)
        exact hfresh.2.1 _ (mem_pair hi).1 (hsame ▸ hdrawn.1)
    · exact fun i hi => issued_fresh hfresh hi (mem_append_left _ hdrawn.2)
    · intro b hb
      refine ⟨mem_append_left _ (h.authorization_drawn b (hauth ▸ hb)),
        (h.authorization b (hauth ▸ hb)).recorded rfl
          (fun _ _ h => by cases h) (fun _ _ _ h => by cases h) ?_⟩
      intro code' g' tokens' _ hgone
      show ∀ g₀ ∈ db'.1.grants, g₀.id ≠ g'
      rw [hgrants]
      exact hgone
    · intro t' ht'
      rcases htokens t' ht' with ⟨t, ht, heq, hlive⟩ | ⟨-, hnew⟩
      · exact .inl ⟨t, ht, heq, fun hnone => (hlive hnone).1⟩
      · exact .inr hnew
  refine ⟨hledger, hkeep, fun _ hid => mem_append_left _ hid, fun g' _ hc => hclosed g' hc, ?_⟩
  intro b hb _
  exact ⟨b, hauth ▸ hb, rfl, fun hs => hs⟩

end Mint

end VibeKanban.OAuth
