import VibeKanban.Cluster.Protocol
import VibeKanban.Lib.Table

/-!
# The tables of the embedded OAuth server

`db/src/models/mcp_oauth.rs` over the schema of the migration `20261004000000_mcp_oauth.sql`.
Timestamps are in microseconds. A `Store` is a database that satisfies the schema's constraints:
every transaction ends in `commit`, which fails where one would be violated. The columns `scope`,
`client_name`, `token_endpoint_auth_method`, `last_used_at` and `created_at` (except a client's) are
left out.
-/

namespace VibeKanban.OAuth

open Lib Option

abbrev Uuid := Cluster.Uuid

/-- A point in time, in microseconds (`timestamp`, line 11). -/
abbrev Instant := ℤ

/-- The bytes of a SHA-256 digest. -/
abbrev Digest := List UInt8

def seconds (n : ℕ) : ℤ := n * 1000000

/-- `UNCLAIMED_CLIENT_TTL` (line 117): 24 hours. -/
def UNCLAIMED_CLIENT_TTL : ℤ := seconds (24 * 60 * 60)

/-- `AUTHORIZATION_RETENTION` (line 120): one day. -/
def AUTHORIZATION_RETENTION : ℤ := seconds (24 * 60 * 60)

/-! ## Rows -/

structure McpOAuthClient where
  clientId : String
  clientSecretHash : Option Digest
  redirectUris : List String
  createdAt : Instant

/-- The values that the column `status` of an authorization may have. -/
inductive AuthorizationStatus where
  | pending
  | approved
  | exchanged
  | denied
  deriving DecidableEq

structure McpOAuthAuthorization where
  id : Uuid
  clientId : String
  redirectUri : String
  codeChallenge : String
  resource : String
  state : Option String
  consentHash : Digest
  codeHash : Option Digest
  status : AuthorizationStatus
  grantId : Option Uuid
  expiresAt : Instant

structure McpOAuthGrant where
  id : Uuid
  clientId : String
  resource : String
  revokedAt : Option Instant

/-- The values that the column `kind` of a token may have. -/
inductive TokenKind where
  | access
  | refresh
  deriving DecidableEq

structure McpOAuthToken where
  tokenHash : Digest
  grantId : Uuid
  kind : TokenKind
  expiresAt : Instant
  revokedAt : Option Instant

/-- A token row joined with the grant it belongs to. -/
structure McpOAuthTokenRecord where
  grantId : Uuid
  kind : TokenKind
  expiresAt : Instant
  revokedAt : Option Instant
  clientId : String
  resource : String
  grantRevokedAt : Option Instant

structure IssuedTokenHashes where
  accessHash : Digest
  accessExpiresAt : Instant
  refreshHash : Digest
  refreshExpiresAt : Instant

structure Rows where
  clients : List McpOAuthClient
  grants : List McpOAuthGrant
  authorizations : List McpOAuthAuthorization
  tokens : List McpOAuthToken

/-! ## Constraints -/

/-- The primary keys, unique columns and foreign keys of the schema. -/
@[mk_iff]
structure Rows.Valid (rows : Rows) : Prop where
  clients_keyed : Keyed McpOAuthClient.clientId rows.clients
  grants_keyed : Keyed McpOAuthGrant.id rows.grants
  authorizations_keyed : Keyed McpOAuthAuthorization.id rows.authorizations
  tokens_keyed : Keyed McpOAuthToken.tokenHash rows.tokens
  code_unique : Distinct McpOAuthAuthorization.codeHash rows.authorizations
  grant_client : ∀ g ∈ rows.grants, ∃ c ∈ rows.clients, c.clientId = g.clientId
  authorization_client : ∀ a ∈ rows.authorizations, ∃ c ∈ rows.clients, c.clientId = a.clientId
  authorization_grant : ∀ a ∈ rows.authorizations, ∀ id ∈ a.grantId.toList,
    ∃ g ∈ rows.grants, g.id = id
  token_grant : ∀ t ∈ rows.tokens, ∃ g ∈ rows.grants, g.id = t.grantId

instance (rows : Rows) : Decidable rows.Valid := decidable_of_iff _ (Rows.valid_iff rows).symm

/-- A database whose rows satisfy the constraints. -/
abbrev Store := {rows : Rows // rows.Valid}

/-- A statement that violates a constraint fails, and the transaction with it. -/
inductive SqlxError where
  | constraint

def commit (rows : Rows) : Except SqlxError Store :=
  if h : rows.Valid then .ok ⟨rows, h⟩ else .error .constraint

@[simp] theorem commit_eq_ok {rows : Rows} {db : Store} : commit rows = .ok db ↔ db.1 = rows := by
  unfold commit
  constructor
  · intro h
    split at h <;> cases h
    rfl
  · rintro rfl
    rw [dif_pos db.2]

theorem bind_eq_ok {α β : Type} {x : Except SqlxError α} {f : α → Except SqlxError β} {b : β}
    (h : x >>= f = .ok b) : ∃ a, x = .ok a ∧ f a = .ok b := by
  cases x with
  | error e => cases h
  | ok a => exact ⟨a, rfl, h⟩

def Store.empty : Store := ⟨⟨[], [], [], []⟩, by decide⟩

namespace Store

variable {db db' : Store} {now : Instant}

/-! ## Pruning -/

/-- `DELETE FROM mcp_oauth_grants`: tokens go with their grant, an authorization forgets it. -/
def deleteGrants (p : McpOAuthGrant → Bool) (rows : Rows) : Rows :=
  let gone (id : Uuid) := rows.grants.any fun g => g.id = id && p g
  { rows with
    grants := delete p rows.grants
    tokens := delete (fun t => gone t.grantId) rows.tokens
    authorizations :=
      update (fun a => a.grantId.any gone) (fun a => { a with grantId := none })
        rows.authorizations }

/-- `DELETE FROM mcp_oauth_clients`: grants and authorizations go with their client. -/
def deleteClients (p : McpOAuthClient → Bool) (rows : Rows) : Rows :=
  let gone (id : String) := rows.clients.any fun c => c.clientId = id && p c
  let rows := deleteGrants (fun g => gone g.clientId) rows
  { rows with
    clients := delete p rows.clients
    authorizations := delete (fun a => gone a.clientId) rows.authorizations }

def pruneExpired (now : Instant) (rows : Rows) : Rows :=
  { rows with
    authorizations :=
      delete (fun a => a.expiresAt < now - AUTHORIZATION_RETENTION) rows.authorizations
    tokens := delete (fun t => t.expiresAt < now) rows.tokens }

/-- The grants revoked long ago or left with no tokens. -/
def pruneGrants (now : Instant) (rows : Rows) : Rows :=
  deleteGrants
    (fun g => g.revokedAt.any (fun revokedAt => revokedAt < now - AUTHORIZATION_RETENTION) ||
    !rows.tokens.any fun t => t.grantId = g.id) rows

/-- The registrations that never obtained a grant. -/
def pruneClients (now : Instant) (rows : Rows) : Rows :=
  deleteClients (fun c => c.createdAt < now - UNCLAIMED_CLIENT_TTL &&
    !(rows.grants.any fun g => g.clientId = c.clientId) &&
    !(rows.authorizations.any fun a => a.clientId = c.clientId && now ≤ a.expiresAt)) rows

/-- `prune` (line 127). -/
def prune (db : Store) (now : Instant) : Except SqlxError Store :=
  commit (pruneClients now (pruneGrants now (pruneExpired now db.1)))

/-! ## Clients and consent requests -/

/-- `insert_client` (line 171). -/
def insertClient (db : Store) (client : McpOAuthClient) (maxClients : ℕ) :
    Except SqlxError (Store × Bool) :=
  if db.1.clients.length < maxClients then do
    let db ← commit { db.1 with clients := db.1.clients ++ [client] }
    return (db, true)
  else .ok (db, false)

/-- `find_client` (line 198). -/
def findClient (db : Store) (clientId : String) : Option McpOAuthClient :=
  db.1.clients.find? fun c => c.clientId = clientId

/-- `insert_authorization` (line 212). -/
def insertAuthorization (db : Store) (authorization : McpOAuthAuthorization) :
    Except SqlxError Store :=
  commit { db.1 with authorizations := db.1.authorizations ++ [authorization] }

/-- `find_authorization` (line 241). -/
def findAuthorization (db : Store) (id : Uuid) : Option McpOAuthAuthorization :=
  db.1.authorizations.find? fun a => a.id = id

/-- `find_authorization_by_code` (line 254). -/
def findAuthorizationByCode (db : Store) (codeHash : Digest) : Option McpOAuthAuthorization :=
  db.1.authorizations.find? fun a => a.codeHash = some codeHash

/-- The rows that `resolve_pending` updates. -/
def isPending (id : Uuid) (now : Instant) (a : McpOAuthAuthorization) : Bool :=
  a.id = id && a.status = .pending && now < a.expiresAt

/-- What `resolve_pending` sets: a code and its expiry, or the denial. -/
def resolved (approvedCode : Option (Digest × Instant)) (a : McpOAuthAuthorization) :
    McpOAuthAuthorization :=
  match approvedCode with
  | some (codeHash, expiresAt) =>
    { a with status := .approved, codeHash := some codeHash, expiresAt := expiresAt }
  | none => { a with status := .denied, codeHash := none }

/-- `resolve_pending` (line 270). -/
def resolvePending (db : Store) (id : Uuid) (approvedCode : Option (Digest × Instant))
    (now : Instant) : Except SqlxError (Store × Bool) := do
  let tx ← commit { db.1 with
    authorizations := update (isPending id now) (resolved approvedCode) db.1.authorizations }
  return (tx, affected (isPending id now) db.1.authorizations = 1)

/-! ## Grants and tokens -/

inductive ExchangeOutcome where
  | issued (grantId : Uuid)
  | notApproved

inductive RotateOutcome where
  | rotated
  | alreadyRevoked

/-- `insert_token_pair` (line 486). -/
def insertTokenPair (rows : Rows) (grantId : Uuid) (tokens : IssuedTokenHashes) : Rows :=
  { rows with
    tokens := rows.tokens ++
      [⟨tokens.accessHash, grantId, .access, tokens.accessExpiresAt, none⟩,
       ⟨tokens.refreshHash, grantId, .refresh, tokens.refreshExpiresAt, none⟩] }

/-- The rows that `exchange_code` updates. -/
def isApproved (id : Uuid) (now : Instant) (a : McpOAuthAuthorization) : Bool :=
  a.id = id && a.status = .approved && now < a.expiresAt

def exchanged (grantId : Uuid) (a : McpOAuthAuthorization) : McpOAuthAuthorization :=
  { a with status := .exchanged, grantId := some grantId }

/-- `exchange_code` (line 299). -/
def exchangeCode (db : Store) (authorization : McpOAuthAuthorization) (grantId : Uuid)
    (tokens : IssuedTokenHashes) (now : Instant) : Except SqlxError (Store × ExchangeOutcome) := do
  let tx ← commit { db.1 with
    grants := db.1.grants ++ [⟨grantId, authorization.clientId, authorization.resource, none⟩] }
  if affected (isApproved authorization.id now) tx.1.authorizations ≠ 1 then
    return (db, .notApproved)
  let tx ← commit <| insertTokenPair
    { tx.1 with
      authorizations := update (isApproved authorization.id now) (exchanged grantId)
        tx.1.authorizations } grantId tokens
  return (tx, .issued grantId)

/-- `find_token` (line 339). -/
def findToken (db : Store) (tokenHash : Digest) : Option McpOAuthTokenRecord := do
  let t ← db.1.tokens.find? fun t => t.tokenHash = tokenHash
  let g ← db.1.grants.find? fun g => g.id = t.grantId
  return ⟨t.grantId, t.kind, t.expiresAt, t.revokedAt, g.clientId, g.resource, g.revokedAt⟩

/-- The rows that `rotate_refresh` updates. -/
def isUnrotated (oldRefreshHash : Digest) (t : McpOAuthToken) : Bool :=
  t.tokenHash = oldRefreshHash && t.kind = .refresh && t.revokedAt = none

def revokedToken (now : Instant) (t : McpOAuthToken) : McpOAuthToken :=
  { t with revokedAt := some now }

/-- `rotate_refresh` (line 358). -/
def rotateRefresh (db : Store) (oldRefreshHash : Digest) (grantId : Uuid)
    (tokens : IssuedTokenHashes) (now : Instant) : Except SqlxError (Store × RotateOutcome) := do
  if affected (isUnrotated oldRefreshHash) db.1.tokens ≠ 1 then return (db, .alreadyRevoked)
  let tx ← commit <| insertTokenPair
    { db.1 with tokens := update (isUnrotated oldRefreshHash) (revokedToken now) db.1.tokens }
    grantId tokens
  return (tx, .rotated)

/-- The query of `revoke_exchanged_grant` (line 388). -/
def exchangedGrant (db : Store) (authorizationId : Uuid) : Option Uuid := do
  let a ← db.1.authorizations.find? fun a => a.id = authorizationId && a.status = .exchanged
  a.grantId

def isLiveGrant (grantId : Uuid) (g : McpOAuthGrant) : Bool := g.id = grantId && g.revokedAt = none

def isLiveTokenOf (grantId : Uuid) (t : McpOAuthToken) : Bool :=
  t.grantId = grantId && t.revokedAt = none

/-- `revoke_grant` (line 407). -/
def revokeGrant (db : Store) (grantId : Uuid) (now : Instant) :
    Except SqlxError (Store × Bool) := do
  let tx ← commit { db.1 with
    grants := update (isLiveGrant grantId) (fun g => { g with revokedAt := some now }) db.1.grants
    tokens := update (isLiveTokenOf grantId) (revokedToken now) db.1.tokens }
  return (tx, affected (isLiveGrant grantId) db.1.grants = 1)

/-- `verify_access_token` (line 434). -/
def verifyAccessToken (db : Store) (tokenHash : Digest) (resource : String) (now : Instant) :
    Option McpOAuthTokenRecord := do
  let record ← db.findToken tokenHash
  if record.kind = .access ∧ record.revokedAt = none ∧ record.grantRevokedAt = none ∧
      now < record.expiresAt ∧ record.resource = resource then some record else none

/-! ## What each transaction does -/

theorem resolvePending_eq_ok {id : Uuid} {approvedCode : Option (Digest × Instant)} {done : Bool}
    (h : db.resolvePending id approvedCode now = .ok (db', done)) :
    db'.1 = { db.1 with
        authorizations := update (isPending id now) (resolved approvedCode) db.1.authorizations } ∧
      (done = true ↔ ∃ a ∈ db.1.authorizations, isPending id now a = true) := by
  obtain ⟨tx, hc, htx⟩ := bind_eq_ok h
  cases htx
  refine ⟨commit_eq_ok.1 hc, ?_⟩
  rw [decide_eq_true_eq]
  apply affected_eq_one_iff db.2.authorizations_keyed
  intro a ha
  simp only [isPending, Bool.and_eq_true, decide_eq_true_eq] at ha
  exact ha.1.1

variable {grantId : Uuid} {tokens : IssuedTokenHashes}

/-- An exchange that finds its row approved mints; one that does not changes nothing. -/
theorem exchangeCode_eq_ok {authorization : McpOAuthAuthorization} {outcome : ExchangeOutcome}
    (h : db.exchangeCode authorization grantId tokens now = .ok (db', outcome)) :
    (outcome = .notApproved ∧ db' = db ∧
        ∀ a ∈ db.1.authorizations, isApproved authorization.id now a = false) ∨
      (outcome = .issued grantId ∧
        (∃ a ∈ db.1.authorizations, isApproved authorization.id now a = true) ∧
        db'.1 = insertTokenPair
          { db.1 with
            grants := db.1.grants ++
              [⟨grantId, authorization.clientId, authorization.resource, none⟩]
            authorizations := update (isApproved authorization.id now) (exchanged grantId)
              db.1.authorizations } grantId tokens) := by
  obtain ⟨tx, hc, h⟩ := bind_eq_ok h
  have htx := commit_eq_ok.1 hc
  have hone : affected (isApproved authorization.id now) tx.1.authorizations = 1 ↔
      ∃ a ∈ db.1.authorizations, isApproved authorization.id now a = true := by
    rw [htx]
    apply affected_eq_one_iff db.2.authorizations_keyed
    intro a ha
    simp only [isApproved, Bool.and_eq_true, decide_eq_true_eq] at ha
    exact ha.1.1
  split_ifs at h with hn
  · cases h
    refine .inl ⟨rfl, rfl, ?_⟩
    intro a ha
    by_contra hne
    exact hn (hone.2 ⟨a, ha, by simpa using hne⟩)
  · obtain ⟨tx', hc', htx'⟩ := bind_eq_ok h
    cases htx'
    refine .inr ⟨rfl, hone.1 (not_not.1 hn), ?_⟩
    rw [commit_eq_ok.1 hc', htx]

/-- A rotation that finds its token unrevoked mints; one that does not changes nothing. -/
theorem rotateRefresh_eq_ok {oldRefreshHash : Digest} {outcome : RotateOutcome}
    (h : db.rotateRefresh oldRefreshHash grantId tokens now = .ok (db', outcome)) :
    (outcome = .alreadyRevoked ∧ db' = db) ∨
      (outcome = .rotated ∧ (∃ t ∈ db.1.tokens, isUnrotated oldRefreshHash t = true) ∧
        db'.1 = insertTokenPair
          { db.1 with
            tokens := update (isUnrotated oldRefreshHash) (revokedToken now) db.1.tokens }
          grantId tokens) := by
  have hone : affected (isUnrotated oldRefreshHash) db.1.tokens = 1 ↔
      ∃ t ∈ db.1.tokens, isUnrotated oldRefreshHash t = true := by
    apply affected_eq_one_iff db.2.tokens_keyed
    intro t ht
    simp only [isUnrotated, Bool.and_eq_true, decide_eq_true_eq] at ht
    exact ht.1.1
  unfold rotateRefresh at h
  split_ifs at h with hn
  · cases h
    exact .inl ⟨rfl, rfl⟩
  · obtain ⟨tx, hc, htx⟩ := bind_eq_ok h
    cases htx
    exact .inr ⟨rfl, hone.1 (not_not.1 hn), commit_eq_ok.1 hc⟩

variable {revoked : Bool} {tokenHash : Digest} {record : McpOAuthTokenRecord}

section

variable (h : db.revokeGrant grantId now = .ok (db', revoked))
include h

theorem revokeGrant_eq_ok :
    db'.1 = { db.1 with
      grants := update (isLiveGrant grantId) (fun g => { g with revokedAt := some now }) db.1.grants
      tokens := update (isLiveTokenOf grantId) (revokedToken now) db.1.tokens } := by
  obtain ⟨tx, hc, htx⟩ := bind_eq_ok h
  cases htx
  exact commit_eq_ok.1 hc

/-- `revoke_grant` reports a live grant that it found. -/
theorem exists_of_revokeGrant (hr : revoked = true) : ∃ g ∈ db.1.grants, g.id = grantId := by
  obtain ⟨tx, -, htx⟩ := bind_eq_ok h
  have hn : decide (affected (isLiveGrant grantId) db.1.grants = 1) = revoked := by
    cases htx
    rfl
  rw [hr, decide_eq_true_eq] at hn
  have hpos : 0 < db.1.grants.countP (isLiveGrant grantId) := by
    rw [show db.1.grants.countP (isLiveGrant grantId) = 1 from hn]
    exact Nat.one_pos
  obtain ⟨g, hg, hlive⟩ := List.countP_pos_iff.1 hpos
  simp only [isLiveGrant, Bool.and_eq_true, decide_eq_true_eq] at hlive
  exact ⟨g, hg, hlive.1⟩

end

theorem findToken_eq_some (h : db.findToken tokenHash = some record) :
    ∃ t ∈ db.1.tokens, ∃ g ∈ db.1.grants, t.tokenHash = tokenHash ∧ g.id = t.grantId ∧
      record = ⟨t.grantId, t.kind, t.expiresAt, t.revokedAt, g.clientId, g.resource,
        g.revokedAt⟩ := by
  obtain ⟨t, ht, h⟩ := bind_eq_some_iff.1 h
  obtain ⟨g, hg, h⟩ := bind_eq_some_iff.1 h
  obtain ⟨htm, hth⟩ := find?_some ht
  obtain ⟨hgm, hgh⟩ := find?_some hg
  exact ⟨t, htm, g, hgm, of_decide_eq_true hth, of_decide_eq_true hgh, (some.inj h).symm⟩

theorem verifyAccessToken_eq_some {resource : String}
    (h : db.verifyAccessToken tokenHash resource now = some record) :
    db.findToken tokenHash = some record ∧ record.kind = .access ∧ record.revokedAt = none ∧
      record.grantRevokedAt = none ∧ now < record.expiresAt ∧ record.resource = resource := by
  obtain ⟨record', hfind, h⟩ := bind_eq_some_iff.1 h
  split at h <;> cases h
  rename_i hlive
  exact ⟨hfind, hlive⟩

/-! ## Transactions that mint nothing -/

/-- The rows `rows'` are what is left of `rows` after deletions and revocations. -/
structure Reduces (rows rows' : Rows) : Prop where
  tokens : ∀ t' ∈ rows'.tokens, ∃ t ∈ rows.tokens, t' = { t with revokedAt := t'.revokedAt } ∧
    (t'.revokedAt = none → t.revokedAt = none)
  grants : ∀ g' ∈ rows'.grants, ∃ g ∈ rows.grants, g' = { g with revokedAt := g'.revokedAt } ∧
    (g'.revokedAt = none → g.revokedAt = none)
  authorizations : ∀ a' ∈ rows'.authorizations, ∃ a ∈ rows.authorizations,
    a' = { a with grantId := a'.grantId } ∧
      (a'.grantId = a.grantId ∨ a'.grantId = none ∧ ∀ g' ∈ rows'.grants, a.grantId ≠ some g'.id)

variable {rows rows' rows'' : Rows}

theorem Reduces.trans (h : Reduces rows rows') (h' : Reduces rows' rows'') :
    Reduces rows rows'' := by
  constructor
  · intro t'' ht''
    obtain ⟨t', ht', heq', hnone'⟩ := h'.tokens t'' ht''
    obtain ⟨t, ht, heq, hnone⟩ := h.tokens t' ht'
    refine ⟨t, ht, ?_, fun hn => hnone (hnone' hn)⟩
    rw [heq', heq]
  · intro g'' hg''
    obtain ⟨g', hg', heq', hnone'⟩ := h'.grants g'' hg''
    obtain ⟨g, hg, heq, hnone⟩ := h.grants g' hg'
    refine ⟨g, hg, ?_, fun hn => hnone (hnone' hn)⟩
    rw [heq', heq]
  · intro a'' ha''
    obtain ⟨a', ha', heq', hgrant'⟩ := h'.authorizations a'' ha''
    obtain ⟨a, ha, heq, hgrant⟩ := h.authorizations a' ha'
    refine ⟨a, ha, by rw [heq', heq], ?_⟩
    rcases hgrant' with h1 | ⟨h1, h2⟩
    · rw [h1]
      apply hgrant.imp_right
      rintro ⟨h3, h4⟩
      refine ⟨h3, ?_⟩
      intro g'' hg''
      obtain ⟨g', hg', hid, -⟩ := h'.grants g'' hg''
      rw [hid]
      exact h4 g' hg'
    · rcases hgrant with h3 | ⟨h3, h4⟩
      · rw [← h3]
        exact .inr ⟨h1, h2⟩
      · refine .inr ⟨h1, ?_⟩
        intro g'' hg''
        obtain ⟨g', hg', hid, -⟩ := h'.grants g'' hg''
        rw [hid]
        exact h4 g' hg'

theorem reduces_deleteGrants (h : Keyed McpOAuthGrant.id rows.grants)
    (p : McpOAuthGrant → Bool) : Reduces rows (deleteGrants p rows) := by
  constructor
  · intro t ht
    exact ⟨t, mem_of_mem_delete ht, rfl, id⟩
  · intro g hg
    exact ⟨g, mem_of_mem_delete hg, rfl, id⟩
  · intro a' ha'
    obtain ⟨a, ha, rfl⟩ := mem_update.1 ha'
    refine ⟨a, ha, ?_, ?_⟩
    · split <;> rfl
    · split
      · rename_i hany
        obtain ⟨hs, hgone⟩ := (any_eq_true_iff_get _ _).1 hany
        have hid : a.grantId = some (a.grantId.get hs) := (some_get hs).symm
        refine .inr ⟨rfl, ?_⟩
        intro g' hg' heq
        obtain ⟨g, hg, hp⟩ := List.any_eq_true.1 hgone
        simp only [Bool.and_eq_true, decide_eq_true_eq] at hp
        obtain ⟨hgm, hnp⟩ := mem_delete.1 hg'
        rw [hid] at heq
        have hsame : g = g' := h.eq hg hgm (hp.1.trans (some.inj heq))
        rw [← hsame, hp.2] at hnp
        cases hnp
      · exact .inl rfl

theorem reduces_deleteClients (h : Keyed McpOAuthGrant.id rows.grants)
    (p : McpOAuthClient → Bool) : Reduces rows (deleteClients p rows) := by
  refine (reduces_deleteGrants h
    fun g => rows.clients.any fun c => c.clientId = g.clientId && p c).trans ?_
  constructor
  · intro t ht
    exact ⟨t, ht, rfl, id⟩
  · intro g hg
    exact ⟨g, hg, rfl, id⟩
  · intro a ha
    exact ⟨a, mem_of_mem_delete ha, rfl, .inl rfl⟩

theorem reduces_pruneExpired (now : Instant) : Reduces rows (pruneExpired now rows) := by
  constructor
  · intro t ht
    exact ⟨t, mem_of_mem_delete ht, rfl, id⟩
  · intro g hg
    exact ⟨g, hg, rfl, id⟩
  · intro a ha
    exact ⟨a, mem_of_mem_delete ha, rfl, .inl rfl⟩

theorem reduces_prune (h : db.prune now = .ok db') : Reduces db.1 db'.1 := by
  rw [prune, commit_eq_ok] at h
  rw [h]
  apply Reduces.trans (reduces_pruneExpired now)
  have hkeyed : Keyed McpOAuthGrant.id (pruneExpired now db.1).grants := db.2.grants_keyed
  apply Reduces.trans (reduces_deleteGrants hkeyed _)
  apply reduces_deleteClients
  exact hkeyed.delete

theorem reduces_revokeGrant
    (h : db.revokeGrant grantId now = .ok (db', revoked)) : Reduces db.1 db'.1 := by
  rw [revokeGrant_eq_ok h]
  constructor
  · intro t' ht'
    obtain ⟨t, ht, rfl⟩ := mem_update.1 ht'
    refine ⟨t, ht, ?_, ?_⟩
    · split <;> rfl
    · split
      · intro hnone
        cases hnone
      · exact id
  · intro g' hg'
    obtain ⟨g, hg, rfl⟩ := mem_update.1 hg'
    refine ⟨g, hg, ?_, ?_⟩
    · split <;> rfl
    · split
      · intro hnone
        cases hnone
      · exact id
  · intro a ha
    exact ⟨a, ha, rfl, .inl rfl⟩

theorem reduces_insertClient {client : McpOAuthClient} {maxClients : ℕ} {inserted : Bool}
    (h : db.insertClient client maxClients = .ok (db', inserted)) : Reduces db.1 db'.1 := by
  have hsame : db'.1.grants = db.1.grants ∧ db'.1.authorizations = db.1.authorizations ∧
      db'.1.tokens = db.1.tokens := by
    unfold insertClient at h
    split at h
    · obtain ⟨tx, hc, htx⟩ := bind_eq_ok h
      cases htx
      rw [commit_eq_ok.1 hc]
      exact ⟨rfl, rfl, rfl⟩
    · cases h
      exact ⟨rfl, rfl, rfl⟩
  obtain ⟨hgrants, hauthorizations, htokens⟩ := hsame
  constructor
  · intro t ht
    exact ⟨t, htokens ▸ ht, rfl, id⟩
  · intro g hg
    exact ⟨g, hgrants ▸ hg, rfl, id⟩
  · intro a ha
    exact ⟨a, hauthorizations ▸ ha, rfl, .inl rfl⟩

end Store

end VibeKanban.OAuth
