import VibeKanban.Lib.Runs
import VibeKanban.OAuth.Store

/-!
# The endpoints of the embedded OAuth server

`server/src/mcp_oauth/mod.rs`: the consent form, the token endpoint and the revocation by the owner.
Requests run concurrently; a step of a request is one query, one transaction, or the reading of the
clock between two of them. Whether a query fails, which secrets are drawn and how far the clock has
moved is part of the action. The history records what the transactions have committed and what was
drawn. A request that is dropped takes no further step.
-/

namespace VibeKanban.OAuth

open Lib

/-! ## Constants and configuration -/

def SCOPE : String := "mcp"

def CONSENT_TTL : ℤ := seconds (10 * 60)

def CODE_TTL : ℤ := seconds 60

def ACCESS_TTL : ℤ := seconds (60 * 60)

def REFRESH_TTL : ℤ := seconds (30 * 24 * 60 * 60)

def MAX_CLIENTS : ℕ := 200

def MAX_STATE_LEN : ℕ := 1024

def RESOURCE_PATH : String := "/oauth/mcp"

structure McpOAuthConfig where
  issuer : String

/-- `resource` (`config.rs`, line 57). -/
def McpOAuthConfig.resource (config : McpOAuthConfig) : String := config.issuer ++ RESOURCE_PATH

/-! ## Secrets -/

/-- SHA-256 and the encoding of a challenge (`crypto.rs`). No two secrets share a digest. -/
structure Crypto where
  digest : String → Digest
  s256Challenge : String → String
  digest_injective : Function.Injective digest

def isUnreserved (c : Char) : Bool := c.isAlphanum || c = '-' || c = '.' || c = '_' || c = '~'

/-- `is_valid_code_verifier` (`crypto.rs`, line 28). -/
def isValidCodeVerifier (verifier : String) : Bool :=
  43 ≤ verifier.utf8ByteSize && verifier.utf8ByteSize ≤ 128 && verifier.toList.all isUnreserved

/-- `is_valid_s256_challenge` (line 37). -/
def isValidS256Challenge (challenge : String) : Bool :=
  challenge.utf8ByteSize = 43 && challenge.toList.all fun c => c.isAlphanum || c = '-' || c = '_'

/-- `digest_matches` (line 23). -/
def digestMatches (crypto : Crypto) (secret : String) (expected : Digest) : Bool :=
  crypto.digest secret = expected

/-- `pkce_matches` (line 49). -/
def pkceMatches (crypto : Crypto) (verifier challenge : String) : Bool :=
  isValidCodeVerifier verifier && crypto.s256Challenge verifier = challenge

/-- The characters with the Unicode property `White_Space`. -/
def isWhitespace (c : Char) : Bool :=
  9 ≤ c.toNat && c.toNat ≤ 13 || 0x2000 ≤ c.toNat && c.toNat ≤ 0x200A ||
    [0x20, 0x85, 0xA0, 0x1680, 0x2028, 0x2029, 0x202F, 0x205F, 0x3000].contains c.toNat

/-- `scope_is_supported` (line 405). -/
def scopeIsSupported (scope : Option String) : Bool :=
  scope.all fun scope =>
    (scope.toList.splitOnP isWhitespace).all fun word => word = [] || String.ofList word = SCOPE

/-! ## The consent page -/

structure AuthorizeQuery where
  responseType : Option String
  clientId : Option String
  redirectUri : Option String
  codeChallenge : Option String
  codeChallengeMethod : Option String
  state : Option String
  scope : Option String
  resource : Option String

/-- How `authorize_page` refuses a query: with a page, or by redirecting to the client. -/
inductive AuthorizeError where
  | page (message : String)
  | redirect (redirectUri error description : String) (state : Option String)

/-- The redirect URI that a query selects among the registered ones. -/
def selectRedirectUri (registered : List String) (redirectUri : Option String) : Option String :=
  match redirectUri, registered with
  | some uri, _ => if uri ∈ registered then some uri else none
  | none, [uri] => some uri
  | none, _ => none

/-- The checks of `authorize_page` (line 409) against the client's registration: the redirect
    URI and the challenge to store. -/
def checkAuthorize (config : McpOAuthConfig) (client : Option McpOAuthClient)
    (query : AuthorizeQuery) : Except AuthorizeError (String × String) := do
  let some client := client
    | throw (.page "This application is not registered (or its registration expired).")
  let some redirectUri := selectRedirectUri client.redirectUris query.redirectUri
    | throw (.page "The redirect URI does not match the application's registration.")
  if query.state.any fun state => MAX_STATE_LEN < state.utf8ByteSize then
    throw (.redirect redirectUri "invalid_request" "state is too long" none)
  let fail error description := AuthorizeError.redirect redirectUri error description query.state
  if query.responseType ≠ some "code" then
    throw (fail "unsupported_response_type" "response_type must be code")
  let some codeChallenge := query.codeChallenge.filter isValidS256Challenge
    | throw (fail "invalid_request" "a valid PKCE code_challenge is required")
  if query.codeChallengeMethod ≠ some "S256" then
    throw (fail "invalid_request" "code_challenge_method must be S256")
  if !scopeIsSupported query.scope then
    throw (fail "invalid_scope" "only the mcp scope is supported")
  if query.resource.any (· ≠ config.resource) then
    throw (fail "invalid_target" "resource must be this server's MCP endpoint")
  return (redirectUri, codeChallenge)

/-! ## Requests -/

structure ConsentForm where
  requestId : Uuid
  consent : String
  decision : String

inductive DecisionResponse where
  | page (status : ℕ) (message : String)
  | redirect (redirectUri : String) (params : List (String × String))
  | unavailable

/-- Where `authorize_decision` stands: before looking up the request, before reading the
    clock, before `resolve_pending`. -/
inductive DecisionPc where
  | arrived
  | found (authorization : McpOAuthAuthorization)
  | resolving (authorization : McpOAuthAuthorization) (approved : Bool) (now : Instant)
  | answered (response : DecisionResponse)

structure DecisionTask where
  config : McpOAuthConfig
  form : ConsentForm
  pc : DecisionPc

/-- The form of a token request; `basic` are the credentials of its authorization header. -/
structure TokenRequest where
  basic : Option (String × String)
  grantType : Option String
  code : Option String
  redirectUri : Option String
  codeVerifier : Option String
  refreshToken : Option String
  clientId : Option String
  clientSecret : Option String
  scope : Option String
  resource : Option String
  deriving DecidableEq

structure IssuedTokens where
  accessToken : String
  refreshToken : String
  deriving DecidableEq

inductive Response where
  | tokens (tokens : IssuedTokens)
  | error (status : ℕ) (error description : String)
  deriving DecidableEq

def invalidGrant (description : String) : Response := .error 400 "invalid_grant" description

def invalidClient (description : String) : Response := .error 401 "invalid_client" description

def invalidRequest (description : String) : Response := .error 400 "invalid_request" description

/-- `server_error` (line 628). -/
def serverError : Response :=
  .error 503 "temporarily_unavailable"
    "the authorization server could not complete the request; retry shortly"

def codeExpired : Response := invalidGrant "the authorization code has expired"

/-- The answer of `code_replayed` (line 859). -/
def codeAlreadyUsed : Response := invalidGrant "the authorization code was already used"

def refreshExpired : Response :=
  invalidGrant "the refresh token has expired or was revoked; reconnect the application"

/-- The answer of `revoke_for_reuse` (line 891). -/
def refreshAlreadyUsed : Response :=
  invalidGrant "the refresh token was already used; reconnect the application"

/-- What a request had looked up when it was answered, with its reading of the clock: nothing
    that it is entitled to, the authorization of its code, or its refresh token. -/
inductive LookedUp where
  | nothing
  | code (authorization : McpOAuthAuthorization) (now : Instant)
  | refresh (record : McpOAuthTokenRecord) (now : Instant)

/-- Where a token request stands: before `find_client`, before reading the clock, before a
    query or a transaction of `exchange_code`, `code_replayed` or `refresh`. -/
inductive TokenPc where
  | arrived
  | authenticated (clientId : String)
  | findingCode (clientId code redirectUri verifier : String) (now : Instant)
  | exchanging (code : String) (authorization : McpOAuthAuthorization) (now : Instant)
  | findingReplayed (code : String) (authorization : McpOAuthAuthorization) (now : Instant)
  | revokingReplayed (code : String) (authorization : McpOAuthAuthorization) (grantId : Uuid)
      (now : Instant)
  | findingRefresh (clientId refreshToken : String) (now : Instant)
  | rotating (refreshToken : String) (record : McpOAuthTokenRecord) (now : Instant)
  | revokingReused (refreshToken : String) (record : McpOAuthTokenRecord) (now : Instant)
  | answered (response : Response) (lookedUp : LookedUp)

structure TokenTask where
  config : McpOAuthConfig
  request : TokenRequest
  pc : TokenPc

/-! ## The server -/

/-- What a transaction has committed. -/
inductive Event where
  /-- A consent request was approved with a code, or denied; the row as it was left. -/
  | resolved (row : McpOAuthAuthorization) (code : Option String)
  | minted (code : String) (authorization grant : Uuid) (tokens : IssuedTokens)
  | rotated (refreshToken : String) (grant : Uuid) (tokens : IssuedTokens)
  | revoked (grant : Uuid)

structure Server where
  db : Store
  clock : Instant
  drawn : List String
  drawnIds : List Uuid
  decisions : List DecisionTask
  requests : List TokenTask
  history : List Event

/-- The secrets and the identifier that a request draws. -/
structure Draw where
  accessToken : String
  refreshToken : String
  grantId : Uuid

def Draw.tokens (draw : Draw) : IssuedTokens := ⟨draw.accessToken, draw.refreshToken⟩

inductive Action where
  | tick (now : Instant)
  | prune (now : Instant)
  | register (clientId : String) (secret : Option String) (redirectUris : List String)
      (now : Instant)
  | authorizePage (config : McpOAuthConfig) (query : AuthorizeQuery) (requestId : Uuid)
      (consent : String) (now : Instant)
  | submit (config : McpOAuthConfig) (form : ConsentForm)
  | decide (i : ℕ) (code : String) (ok : Bool)
  | present (config : McpOAuthConfig) (request : TokenRequest)
  | serve (i : ℕ) (draw : Draw) (ok : Bool)
  | revokeGrant (grantId : Uuid) (now : Instant)

namespace Server

/-- Secrets and identifiers that differ from each other and from all drawn before. -/
def Fresh (s : Server) (secrets : List String) (ids : List Uuid) : Prop :=
  secrets.Nodup ∧ (∀ secret ∈ secrets, secret ∉ s.drawn) ∧ ids.Nodup ∧ ∀ id ∈ ids, id ∉ s.drawnIds
  deriving Decidable

def draw (s : Server) (secrets : List String) (ids : List Uuid) : Server :=
  { s with drawn := s.drawn ++ secrets, drawnIds := s.drawnIds ++ ids }

def record (s : Server) (db : Store) (events : List Event) : Server :=
  { s with db := db, history := s.history ++ events }

def setRequest (s : Server) (i : ℕ) (task : TokenTask) (pc : TokenPc) : Server :=
  { s with requests := s.requests.set i { task with pc := pc } }

def setDecision (s : Server) (i : ℕ) (task : DecisionTask) (pc : DecisionPc) : Server :=
  { s with decisions := s.decisions.set i { task with pc := pc } }

end Server

/-! ## The consent decision -/

def rejected : DecisionPc :=
  .answered (.page 400 "This approval link is invalid, expired or was already used.")

/-- The redirect that carries a code, or the owner's refusal, to the client. -/
def decisionRedirect (config : McpOAuthConfig) (authorization : McpOAuthAuthorization)
    (code : Option String) : DecisionResponse :=
  let state := authorization.state.toList.map fun state => ("state", state)
  match code with
  | some code =>
    .redirect authorization.redirectUri ([("code", code)] ++ state ++ [("iss", config.issuer)])
  | none =>
    .redirect authorization.redirectUri
      ([("error", "access_denied"), ("error_description", "the owner denied the request")] ++
        state ++ [("iss", config.issuer)])

/-- One step of `authorize_decision` (line 524). -/
def decisionStep (crypto : Crypto) (s : Server) (task : DecisionTask) (code : String) (ok : Bool) :
    Option (Server × DecisionPc) :=
  match task.pc with
  | .arrived =>
    if ok then
      match s.db.findAuthorization task.form.requestId with
      | some authorization =>
        if digestMatches crypto task.form.consent authorization.consentHash then
          some (s, .found authorization)
        else some (s, rejected)
      | none => some (s, rejected)
    else some (s, .answered .unavailable)
  | .found authorization =>
    if task.form.decision = "approve" then some (s, .resolving authorization true s.clock)
    else if task.form.decision = "deny" then some (s, .resolving authorization false s.clock)
    else some (s, .answered (.page 400 "Unknown decision."))
  | .resolving authorization approved now =>
    if s.Fresh [code] [] then
      let s := s.draw [code] []
      let code := if approved then some code else none
      if ok then
        match s.db.resolvePending authorization.id
            (code.map fun code => (crypto.digest code, now + CODE_TTL)) now with
        | .ok (db, true) =>
          some (s.record db
              ((db.findAuthorization authorization.id).toList.map fun row => .resolved row code),
            .answered (decisionRedirect task.config authorization code))
        | .ok (db, false) => some (s.record db [], rejected)
        | .error _ => some (s, .answered .unavailable)
      else some (s, .answered .unavailable)
    else none
  | .answered _ => none

/-! ## The token endpoint -/

/-- The client that a request names and its secret (`authenticate_client`, line 661). -/
def credentials (request : TokenRequest) : Except Response (String × Option String) :=
  match request.basic, request.clientId with
  | some (id, secret), some bodyId =>
    if id ≠ bodyId then .error (invalidClient "client_id does not match the credentials")
    else .ok (id, some secret)
  | some (id, secret), none => .ok (id, some secret)
  | none, some id => .ok (id, request.clientSecret)
  | none, none => .error (invalidClient "client authentication is required")

/-- Whether a client is authenticated as it is registered. -/
def authenticates (crypto : Crypto) (client : McpOAuthClient) (secret : Option String) : Bool :=
  match client.clientSecretHash, secret with
  | none, none => true
  | some hash, some secret => digestMatches crypto secret hash
  | _, _ => false

/-- What `authenticate_client` makes of the row it finds. -/
def clientFound (crypto : Crypto) (secret : Option String) : Option McpOAuthClient → TokenPc
  | some client =>
    if authenticates crypto client secret then .authenticated client.clientId
    else .answered (invalidClient "client authentication failed") .nothing
  | none => .answered (invalidClient "unknown client") .nothing

/-- The checks of `token` (line 750) and of the two grant types up to the reading of the clock. -/
def dispatch (config : McpOAuthConfig) (request : TokenRequest) (clientId : String)
    (now : Instant) : TokenPc :=
  if request.resource.any (· ≠ config.resource) then
    .answered (.error 400 "invalid_target" "resource must be this server's MCP endpoint") .nothing
  else if !scopeIsSupported request.scope then
    .answered (.error 400 "invalid_scope" "only the mcp scope is supported") .nothing
  else if request.grantType = some "authorization_code" then
    match request.code, request.redirectUri, request.codeVerifier with
    | some code, some redirectUri, some verifier =>
      .findingCode clientId code redirectUri verifier now
    | _, _, _ =>
      .answered (invalidRequest "code, redirect_uri and code_verifier are required") .nothing
  else if request.grantType = some "refresh_token" then
    match request.refreshToken with
    | some refreshToken => .findingRefresh clientId refreshToken now
    | none => .answered (invalidRequest "refresh_token is required") .nothing
  else
    .answered (.error 400 "unsupported_grant_type"
      "grant_type must be authorization_code or refresh_token") .nothing

/-- What `exchange_code` (line 798) makes of the row of its code. -/
def codeFound (crypto : Crypto) (clientId code redirectUri verifier : String) (now : Instant) :
    Option McpOAuthAuthorization → TokenPc
  | some authorization =>
    if authorization.clientId ≠ clientId ∨ authorization.redirectUri ≠ redirectUri ∨
        pkceMatches crypto verifier authorization.codeChallenge = false then
      .answered (invalidGrant
        "the authorization code does not match this client, redirect_uri or code_verifier") .nothing
    else if authorization.status = .exchanged then .findingReplayed code authorization now
    else if authorization.status ≠ .approved ∨ authorization.expiresAt ≤ now then
      .answered codeExpired (.code authorization now)
    else .exchanging code authorization now
  | none => .answered (invalidGrant "the authorization code is invalid") .nothing

/-- What `refresh` (line 875) makes of the record of its token. -/
def refreshFound (clientId refreshToken : String) (now : Instant) :
    Option McpOAuthTokenRecord → TokenPc
  | some record =>
    if record.kind ≠ .refresh ∨ record.clientId ≠ clientId then
      .answered (invalidGrant "the refresh token is invalid") .nothing
    else if record.revokedAt ≠ none then .revokingReused refreshToken record now
    else if record.grantRevokedAt ≠ none ∨ record.expiresAt ≤ now then
      .answered refreshExpired (.refresh record now)
    else .rotating refreshToken record now
  | none => .answered (invalidGrant "the refresh token is invalid") .nothing

/-- `token_hashes` (line 737). -/
def tokenHashes (crypto : Crypto) (tokens : IssuedTokens) (now : Instant) : IssuedTokenHashes :=
  ⟨crypto.digest tokens.accessToken, now + ACCESS_TTL,
    crypto.digest tokens.refreshToken, now + REFRESH_TTL⟩

/-- A grant is recorded as revoked when `revoke_grant` reports that it was live. -/
def revocation (grantId : Uuid) (revoked : Bool) : List Event :=
  if revoked then [.revoked grantId] else []

def tokenStep (crypto : Crypto) (s : Server) (task : TokenTask) (draw : Draw) (ok : Bool) :
    Option (Server × TokenPc) :=
  match task.pc with
  | .arrived =>
    match credentials task.request with
    | .ok (clientId, secret) =>
      if ok then some (s, clientFound crypto secret (s.db.findClient clientId))
      else some (s, .answered serverError .nothing)
    | .error response => some (s, .answered response .nothing)
  | .authenticated clientId => some (s, dispatch task.config task.request clientId s.clock)
  | .findingCode clientId code redirectUri verifier now =>
    if ok then
      some (s, codeFound crypto clientId code redirectUri verifier now
        (s.db.findAuthorizationByCode (crypto.digest code)))
    else some (s, .answered serverError .nothing)
  | .exchanging code authorization now =>
    if s.Fresh [draw.accessToken, draw.refreshToken] [draw.grantId] then
      let s := s.draw [draw.accessToken, draw.refreshToken] [draw.grantId]
      if ok then
        match s.db.exchangeCode authorization draw.grantId (tokenHashes crypto draw.tokens now)
            now with
        | .ok (db, .issued grantId) =>
          some (s.record db [.minted code authorization.id grantId draw.tokens],
            .answered (.tokens draw.tokens) (.code authorization now))
        | .ok (db, .notApproved) => some (s.record db [], .findingReplayed code authorization now)
        | .error _ => some (s, .answered serverError (.code authorization now))
      else some (s, .answered serverError (.code authorization now))
    else none
  | .findingReplayed code authorization now =>
    if ok then
      match s.db.exchangedGrant authorization.id with
      | some grantId => some (s, .revokingReplayed code authorization grantId now)
      | none => some (s, .answered codeAlreadyUsed (.code authorization now))
    else some (s, .answered serverError (.code authorization now))
  | .revokingReplayed _ authorization grantId now =>
    if ok then
      match s.db.revokeGrant grantId now with
      | .ok (db, revoked) =>
        some (s.record db (revocation grantId revoked),
          .answered codeAlreadyUsed (.code authorization now))
      | .error _ => some (s, .answered serverError (.code authorization now))
    else some (s, .answered serverError (.code authorization now))
  | .findingRefresh clientId refreshToken now =>
    if ok then
      some (s, refreshFound clientId refreshToken now (s.db.findToken (crypto.digest refreshToken)))
    else some (s, .answered serverError .nothing)
  | .rotating refreshToken record now =>
    if s.Fresh [draw.accessToken, draw.refreshToken] [] then
      let s := s.draw [draw.accessToken, draw.refreshToken] []
      if ok then
        match s.db.rotateRefresh (crypto.digest refreshToken) record.grantId
            (tokenHashes crypto draw.tokens now) now with
        | .ok (db, .rotated) =>
          some (s.record db [.rotated refreshToken record.grantId draw.tokens],
            .answered (.tokens draw.tokens) (.refresh record now))
        | .ok (db, .alreadyRevoked) =>
          some (s.record db [], .revokingReused refreshToken record now)
        | .error _ => some (s, .answered serverError (.refresh record now))
      else some (s, .answered serverError (.refresh record now))
    else none
  | .revokingReused _ record now =>
    if ok then
      match s.db.revokeGrant record.grantId now with
      | .ok (db, revoked) =>
        some (s.record db (revocation record.grantId revoked),
          .answered refreshAlreadyUsed (.refresh record now))
      | .error _ => some (s, .answered serverError (.refresh record now))
    else some (s, .answered serverError (.refresh record now))
  | .answered _ _ => none

/-! ## Steps of the server -/

/-- The row that `authorize_page` inserts. -/
def newAuthorization (crypto : Crypto) (config : McpOAuthConfig) (query : AuthorizeQuery)
    (clientId redirectUri codeChallenge : String) (requestId : Uuid) (consent : String)
    (now : Instant) : McpOAuthAuthorization :=
  { id := requestId
    clientId := clientId
    redirectUri := redirectUri
    codeChallenge := codeChallenge
    resource := config.resource
    state := query.state
    consentHash := crypto.digest consent
    codeHash := none
    status := .pending
    grantId := none
    expiresAt := now + CONSENT_TTL }

/-- One step of the server. A reading of the clock that an action carries is any earlier one:
    the request took it before its statement ran. -/
def step (crypto : Crypto) (s : Server) : Action → Option Server
  | .tick now => if s.clock ≤ now then some { s with clock := now } else none
  | .prune now =>
    if now ≤ s.clock then
      match s.db.prune now with
      | .ok db => some (s.record db [])
      | .error _ => some s
    else none
  | .register clientId secret redirectUris now =>
    if now ≤ s.clock ∧ s.Fresh (clientId :: secret.toList) [] then
      let s := s.draw (clientId :: secret.toList) []
      match s.db.insertClient ⟨clientId, secret.map crypto.digest, redirectUris, now⟩
          MAX_CLIENTS with
      | .ok (db, _) => some (s.record db [])
      | .error _ => some s
    else none
  | .authorizePage config query requestId consent now =>
    if now ≤ s.clock ∧ s.Fresh [consent] [requestId] then
      let s := s.draw [consent] [requestId]
      match query.clientId with
      | some clientId =>
        match checkAuthorize config (s.db.findClient clientId) query with
        | .ok (redirectUri, codeChallenge) =>
          match s.db.insertAuthorization
              (newAuthorization crypto config query clientId redirectUri codeChallenge requestId
                consent now) with
          | .ok db => some (s.record db [])
          | .error _ => some s
        | .error _ => some s
      | none => some s
    else none
  | .submit config form => some { s with decisions := s.decisions ++ [⟨config, form, .arrived⟩] }
  | .decide i code ok => do
    let task ← s.decisions[i]?
    let (s, pc) ← decisionStep crypto s task code ok
    return s.setDecision i task pc
  | .present config request =>
    some { s with requests := s.requests ++ [⟨config, request, .arrived⟩] }
  | .serve i draw ok => do
    let task ← s.requests[i]?
    let (s, pc) ← tokenStep crypto s task draw ok
    return s.setRequest i task pc
  | .revokeGrant grantId now =>
    if now ≤ s.clock then
      match s.db.revokeGrant grantId now with
      | .ok (db, revoked) => some (s.record db (revocation grantId revoked))
      | .error _ => some s
    else none

def Initial (s : Server) : Prop := ∃ clock, s = ⟨Store.empty, clock, [], [], [], [], []⟩

end VibeKanban.OAuth
