import VibeKanban.Lib.FormUrlencoded
import VibeKanban.Relay.Signing

/-!
# Relay requests (`server/src/middleware/relay_request_signature.rs`)

The signature of a request travels in its headers or in its query; from a query it is taken out, and
the path that was signed is made again of the pairs that are left. An adversary delivers any
requests at any time. Signatures cannot be forged, and the hash is injective.

* `accepted_requests`: what is accepted was signed by the peer of the session, and is accepted once.
-/

namespace VibeKanban.Relay.Signing

open Lib List Function
open Delivery (Text Uuid)

/-! ## Requests -/

/-- The path and the query of the URI that was asked for, by any method but CONNECT. -/
structure OriginalUri where
  rawPath : Text
  query : Option Text
  no_query : '?' ∉ rawPath

def orSlash (text : Text) : Text := if text = [] then ['/'] else text

/-- `Uri::path` -/
def OriginalUri.path (uri : OriginalUri) : Text := orSlash uri.rawPath

/-- `PathAndQuery::as_str` -/
def OriginalUri.pathAndQuery (uri : OriginalUri) : Text :=
  orSlash (match uri.query with
    | some query => uri.rawPath ++ '?' :: query
    | none => uri.rawPath)

structure Request where
  method : Method
  originalUri : Option OriginalUri
  headers : List (Text × List UInt8)
  body : List UInt8

inductive ApiError where
  | unauthorized
  | payloadTooLarge

def signingSessionHeader : Text := "x-vk-sig-session".toList

def timestampHeader : Text := "x-vk-sig-ts".toList

def nonceHeader : Text := "x-vk-sig-nonce".toList

def requestSignatureHeader : Text := "x-vk-sig-signature".toList

def relayHeader : Text := "x-vk-relayed".toList

/-- The names of the four parts of a signature. -/
def isSignatureParameter (name : Text) : Bool :=
  name = signingSessionHeader ∨ name = timestampHeader ∨ name = nonceHeader ∨
    name = requestSignatureHeader

/-- `HeaderValue::to_str`: only visible ASCII. -/
def toStr (value : List UInt8) : Option Text :=
  if value.all fun b => (32 ≤ b && b < 127) || b == 9 then some (FormUrlencoded.asciiText value)
  else none

/-- `parse_header_optional` (line 247): the first header of a name. -/
def parseHeaderOptional (request : Request) (name : Text) : Option Text :=
  (request.headers.find? fun header => header.1 = name).bind fun header => toStr header.2

/-- `is_relay_request` (line 263). -/
def isRelayRequest (request : Request) : Bool :=
  match parseHeaderOptional request relayHeader with
  | some value => trim Delivery.isWhitespace value = "1".toList
  | none => false

/-- `i64::from_str` -/
def parseI64 (text : Text) : Option ℤ :=
  let number (digits : Text) : Option ℤ :=
    if digits ≠ [] ∧ digits.all Char.isDigit then some (Nat.ofDigitChars 10 digits 0 : ℕ) else none
  let value := match text with
    | '-' :: digits => (number digits).map fun n => -n
    | '+' :: digits => number digits
    | digits => number digits
  value.filter fun n => i64Min ≤ n ∧ n ≤ i64Max

/-- All of the four parts, or none of them; both forms have this check. -/
def parseSignature (p : Primitives)
    (signingSession timestamp nonce requestSignature : Option Text) :
    Except ApiError (Option RequestSignature) :=
  let parts := [signingSession, timestamp, nonce, requestSignature]
  let anyPresent := parts.any Option.isSome
  let allPresent := parts.all Option.isSome
  if anyPresent && !allPresent then .error .unauthorized
  else if !allPresent then .ok none
  else
    match signingSession.bind p.parseUuid, timestamp.bind parseI64, nonce.bind p.parseUuid,
      requestSignature with
    | some signingSessionId, some timestamp, some nonce, some signatureB64 =>
      .ok (some ⟨signingSessionId, timestamp, nonce, signatureB64⟩)
    | _, _, _, _ => .error .unauthorized

/-- `try_parse_signature_from_headers` (line 131). -/
def tryParseSignatureFromHeaders (p : Primitives) (request : Request) :
    Except ApiError (Option (RequestSignature × Text)) :=
  match parseSignature p (parseHeaderOptional request signingSessionHeader)
    (parseHeaderOptional request timestampHeader) (parseHeaderOptional request nonceHeader)
    (parseHeaderOptional request requestSignatureHeader) with
  | .error e => .error e
  | .ok none => .ok none
  | .ok (some signature) =>
    match request.originalUri with
    | none => .error .unauthorized
    | some uri => .ok (some (signature, uri.pathAndQuery))

def lastValue (pairs : List (Text × Text)) (name : Text) : Option Text :=
  ((pairs.filter fun pair => pair.1 = name).getLast?).map Prod.snd

def otherPairs (pairs : List (Text × Text)) : List (Text × Text) :=
  pairs.filter fun pair => !isSignatureParameter pair.1

/-- `form_urlencoded::parse` of a text -/
def parseQuery (query : Text) : List (Text × Text) := FormUrlencoded.parse (Utf8.encode query)

/-- `try_parse_signature_from_query` (line 176). -/
def tryParseSignatureFromQuery (p : Primitives) (request : Request) :
    Except ApiError (Option (RequestSignature × Text)) :=
  match request.originalUri with
  | none => .error .unauthorized
  | some uri =>
    let query := uri.query.getD []
    if query = [] then .ok none
    else
      let pairs := parseQuery query
      match parseSignature p (lastValue pairs signingSessionHeader)
        (lastValue pairs timestampHeader) (lastValue pairs nonceHeader)
        (lastValue pairs requestSignatureHeader) with
      | .error e => .error e
      | .ok none => .ok none
      | .ok (some signature) =>
        let filtered := FormUrlencoded.asciiText (FormUrlencoded.serialize (otherPairs pairs))
        .ok (some (signature, if filtered = [] then uri.path else uri.path ++ '?' :: filtered))

/-- `extract_request_signature` (line 119). -/
def extractRequestSignature (p : Primitives) (request : Request) :
    Except ApiError (RequestSignature × Text) :=
  match tryParseSignatureFromHeaders p request with
  | .error e => .error e
  | .ok (some result) => .ok result
  | .ok none =>
    match tryParseSignatureFromQuery p request with
    | .error e => .error e
    | .ok (some result) => .ok result
    | .ok none => .error .unauthorized

def relaySignedBodyMaxBytes : ℕ := 50 * 1024 * 1024

/-- `require_relay_request_signature` (line 30), up to the next handler; a request that is not
    relayed goes there unchecked, without a signature. -/
def requireRelayRequestSignature (p : Primitives) (clock : Readings) (sessions : Sessions)
    (request : Request) : Sessions × Except ApiError (Option (RequestSignature × Text)) :=
  if !isRelayRequest request then (sessions, .ok none)
  else
    match extractRequestSignature p request with
    | .error e => (sessions, .error e)
    | .ok (signature, pathAndQuery) =>
      if relaySignedBodyMaxBytes < request.body.length then (sessions, .error .payloadTooLarge)
      else
        match verifyRequest p clock sessions signature request.method.val pathAndQuery
          request.body with
        | (sessions, .ok ()) => (sessions, .ok (some (signature, pathAndQuery)))
        | (sessions, .error _) => (sessions, .error .unauthorized)

/-! ## What is asked for -/

def pathOf (pathAndQuery : Text) : Text :=
  orSlash (match splitOnce '?' pathAndQuery with
    | some (path, _) => path
    | none => pathAndQuery)

/-- The decoded pairs of a text that is signed, without those of a signature. -/
def pairsOf (pathAndQuery : Text) : List (Text × Text) :=
  match splitOnce '?' pathAndQuery with
  | some (_, query) => otherPairs (parseQuery query)
  | none => []

def OriginalUri.pairs (uri : OriginalUri) : List (Text × Text) :=
  otherPairs (parseQuery (uri.query.getD []))

theorem orSlash_orSlash (text : Text) : orSlash (orSlash text) = orSlash text := by
  unfold orSlash
  by_cases hnil : text = [] <;> simp [hnil]

variable {text : Text} {path query : Text}

theorem notMem_orSlash (h : '?' ∉ text) : '?' ∉ orSlash text := by
  unfold orSlash
  split
  · decide
  · exact h

theorem pathOf_of_notMem (h : '?' ∉ text) : pathOf text = orSlash text := by
  unfold pathOf
  rw [splitOnce_eq_none_iff.2 h]

theorem pairsOf_of_notMem (h : '?' ∉ text) : pairsOf text = [] := by
  unfold pairsOf
  rw [splitOnce_eq_none_iff.2 h]

theorem pathOf_append (h : '?' ∉ path) : pathOf (path ++ '?' :: query) = orSlash path := by
  unfold pathOf
  rw [splitOnce_append h]

theorem pairsOf_append (h : '?' ∉ path) :
    pairsOf (path ++ '?' :: query) = otherPairs (parseQuery query) := by
  unfold pairsOf
  rw [splitOnce_append h]

theorem OriginalUri.of_pathAndQuery (uri : OriginalUri) :
    pathOf uri.pathAndQuery = uri.path ∧ pairsOf uri.pathAndQuery = uri.pairs := by
  obtain ⟨path, query, hpath⟩ := uri
  unfold OriginalUri.pathAndQuery OriginalUri.path OriginalUri.pairs
  cases query with
  | none =>
    rw [pathOf_of_notMem (notMem_orSlash hpath), pairsOf_of_notMem (notMem_orSlash hpath),
      orSlash_orSlash]
    exact ⟨rfl, rfl⟩
  | some query =>
    have hne : orSlash (path ++ '?' :: query) = path ++ '?' :: query := if_neg (by simp)
    rw [hne, pathOf_append hpath, pairsOf_append hpath]
    exact ⟨rfl, rfl⟩

theorem otherPairs_otherPairs (pairs : List (Text × Text)) :
    otherPairs (otherPairs pairs) = otherPairs pairs := by
  unfold otherPairs
  rw [filter_filter]
  congr 1
  funext pair
  exact Bool.and_self _

theorem OriginalUri.of_filtered (uri : OriginalUri) :
    let filtered := FormUrlencoded.asciiText (FormUrlencoded.serialize uri.pairs)
    let signed := if filtered = [] then uri.path else uri.path ++ '?' :: filtered
    pathOf signed = uri.path ∧ pairsOf signed = uri.pairs := by
  have hpath : '?' ∉ uri.path := notMem_orSlash uri.no_query
  have hpairs : otherPairs uri.pairs = uri.pairs := otherPairs_otherPairs _
  dsimp only
  split
  · rename_i hnil
    have hempty : uri.pairs = [] := by
      rw [← FormUrlencoded.serialize_eq_nil_iff]
      exact map_eq_nil_iff.1 hnil
    rw [pathOf_of_notMem hpath, pairsOf_of_notMem hpath, hempty]
    exact ⟨orSlash_orSlash _, rfl⟩
  · rw [pathOf_append hpath, pairsOf_append hpath, parseQuery,
      FormUrlencoded.parse_encode_serialize, hpairs]
    exact ⟨orSlash_orSlash _, rfl⟩

theorem extractRequestSignature_ok {p : Primitives} {request : Request} {sig : RequestSignature}
    {pathAndQuery : Text} (h : extractRequestSignature p request = .ok (sig, pathAndQuery)) :
    ∃ uri, request.originalUri = some uri ∧ pathOf pathAndQuery = uri.path ∧
      pairsOf pathAndQuery = uri.pairs := by
  have hheaders : ∀ {result}, tryParseSignatureFromHeaders p request = .ok (some result) →
      ∃ uri, request.originalUri = some uri ∧ pathOf result.2 = uri.path ∧
        pairsOf result.2 = uri.pairs := by
    intro result hok
    unfold tryParseSignatureFromHeaders at hok
    split at hok
    · cases hok
    · cases hok
    · split at hok
      · cases hok
      · rename_i uri huri
        rw [← Option.some.inj (Except.ok.inj hok)]
        exact ⟨uri, huri, uri.of_pathAndQuery⟩
  have hquery : ∀ {result}, tryParseSignatureFromQuery p request = .ok (some result) →
      ∃ uri, request.originalUri = some uri ∧ pathOf result.2 = uri.path ∧
        pairsOf result.2 = uri.pairs := by
    intro result hok
    unfold tryParseSignatureFromQuery at hok
    split at hok
    · cases hok
    · rename_i uri huri
      dsimp only at hok
      split at hok
      · cases hok
      · split at hok
        · cases hok
        · cases hok
        · rw [← Option.some.inj (Except.ok.inj hok)]
          exact ⟨uri, huri, uri.of_filtered⟩
  unfold extractRequestSignature at h
  split at h
  · cases h
  · rename_i hok
    rw [Except.ok.inj h] at hok
    exact hheaders hok
  · split at h
    · cases h
    · rename_i hok
      rw [Except.ok.inj h] at hok
      exact hquery hok
    · cases h

/-! ## The system -/

/-- A call of `verify_request` that has accepted. -/
structure Accepted where
  request : Request
  signature : RequestSignature
  pathAndQuery : Text
  clock : Readings

def Accepted.signed (a : Accepted) : SignedRequest where
  timestamp := a.signature.timestamp
  method := a.request.method
  pathAndQuery := a.pathAndQuery
  signingSessionId := a.signature.signingSessionId
  nonce := a.signature.nonce
  body := a.request.body

/-- The last three fields are not in the source: the sessions that were created, with their keys
    and times, what was signed with which key, and what was accepted. -/
structure State where
  sessions : Sessions
  now : ℕ
  created : List (Uuid × VerifyingKey × ℕ)
  signed : List (VerifyingKey × Message)
  accepted : List Accepted

inductive Action where
  /-- identifiers are drawn at random, and are new; the time is read before the lock is taken -/
  | createSession (id : Uuid) (peerPublicKey : VerifyingKey) (createdAt now : ℕ)
  | sign (key : VerifyingKey) (message : Message)
  /-- any request reaches the middleware; the timestamp may have been checked long before -/
  | handle (request : Request) (clock : Readings)

namespace State

def Initial (s : State) : Prop := (∀ id, s.sessions id = none) ∧ s.created = [] ∧ s.accepted = []

variable (p : Primitives)

def step (s : State) : Action → Option State
  | .createSession id peerPublicKey createdAt now =>
    if id ∉ s.created.map Prod.fst ∧ createdAt ≤ now ∧ s.now ≤ now then
      some { s with
        sessions := registerSession s.sessions id peerPublicKey createdAt
        now := now
        created := s.created ++ [(id, peerPublicKey, createdAt)] }
    else none
  | .sign key message => some { s with signed := s.signed ++ [(key, message)] }
  | .handle request clock =>
    if s.now ≤ clock.looked then
      match requireRelayRequestSignature p clock s.sessions request with
      | (sessions, .ok (some (signature, pathAndQuery))) =>
        some { s with
          sessions := sessions
          now := clock.used
          accepted := s.accepted ++ [⟨request, signature, pathAndQuery, clock⟩] }
      | (sessions, _) => some { s with sessions := sessions, now := clock.used }
    else none

/-- A signature that is delivered is valid only for texts that the holder of the key has signed. -/
def Unforged (s : State) : Action → Prop
  | .handle request _ => ∀ signature pathAndQuery bytes key,
      extractRequestSignature p request = .ok (signature, pathAndQuery) →
      parseSignatureB64 signature.signatureB64 = .ok bytes →
      let message := buildRequestSigningMessage p.sha256 signature request.method.val pathAndQuery
        request.body
      p.verify key message bytes = true →
      ∃ m, (key, m) ∈ s.signed ∧ m.text p.sha256 = message
  | _ => True

end State

def lastUse (accepted : List Accepted) (id : Uuid) (createdAt : ℕ) : ℕ :=
  match (accepted.filter fun a => a.signature.signingSessionId = id).getLast? with
  | some a => a.clock.used
  | none => createdAt

/-- A request that is rightly accepted, after those that were accepted before it. -/
structure Accepted.Authentic (s : State) (before : List Accepted) (a : Accepted) : Prop where
  session : ∃ key createdAt, (a.signature.signingSessionId, key, createdAt) ∈ s.created ∧
    (key, .request a.signed) ∈ s.signed ∧
    a.clock.looked - createdAt ≤ sessionTtl ∧
    a.clock.looked - lastUse before a.signature.signingSessionId createdAt ≤ sessionIdleTtl
  uri : ∃ uri, a.request.originalUri = some uri ∧ uri.path = pathOf a.signed.pathAndQuery ∧
    uri.pairs = pairsOf a.signed.pathAndQuery

/-! ## Steps -/

section Steps

variable {p : Primitives} {s s' : State} {clock : Readings} {request : Request} {a : Accepted}

def Pruned (clock : Readings) (sessions sessions' : Sessions) : Prop :=
  ∀ id session', sessions' id = some session' → ∃ session, sessions id = some session ∧
    (session' = session ∨ session' = session.retainNonces clock.pruned)

/-- What a request that is accepted has passed. -/
structure Passed (p : Primitives) (clock : Readings) (sessions sessions' : Sessions)
    (a : Accepted) (session : RelaySigningSession) (bytes : List UInt8) : Prop where
  extracted : extractRequestSignature p a.request = .ok (a.signature, a.pathAndQuery)
  found : sessions a.signature.signingSessionId = some session
  valid : session.isValid clock.looked = true
  drift : |((clock.checked / second : ℕ) : ℤ) - a.signature.timestamp| ≤ 30
  parsed : parseSignatureB64 a.signature.signatureB64 = .ok bytes
  fresh : (session.retainNonces clock.pruned).seenNonces a.signature.nonce = none
  verified : p.verify session.peerPublicKey (buildRequestSigningMessage p.sha256 a.signature
    a.request.method.val a.pathAndQuery a.request.body) bytes = true
  sessions_eq : sessions' = update (sessions.retain clock.looked) a.signature.signingSessionId
    (some ((session.retainNonces clock.pruned).use a.signature.nonce clock.seen clock.used))

theorem requireRelayRequestSignature_cases (p : Primitives) (clock : Readings)
    (sessions : Sessions) (request : Request) :
    (∃ sessions' result, requireRelayRequestSignature p clock sessions request =
        (sessions', result) ∧ (∀ x, result ≠ .ok (some x)) ∧ Pruned clock sessions sessions') ∨
      ∃ sessions' signature pathAndQuery session bytes,
        requireRelayRequestSignature p clock sessions request =
          (sessions', .ok (some (signature, pathAndQuery))) ∧
        Passed p clock sessions sessions' ⟨request, signature, pathAndQuery, clock⟩ session
          bytes := by
  have hsame : Pruned clock sessions sessions := fun _ session' hid => ⟨session', hid, .inl rfl⟩
  unfold requireRelayRequestSignature
  split
  · exact .inl ⟨_, _, rfl, nofun, hsame⟩
  · split
    · exact .inl ⟨_, _, rfl, nofun, hsame⟩
    · rename_i hextract
      split
      · exact .inl ⟨_, _, rfl, nofun, hsame⟩
      · split
        · rename_i hverify
          obtain ⟨session, bytes, hsession, hvalid, hdrift, hparsed, hfresh, hverified, heq⟩ :=
            verifyRequest_ok hverify
          exact .inr ⟨_, _, _, session, bytes, rfl, hextract, hsession, hvalid, hdrift, hparsed,
            hfresh, hverified, heq⟩
        · rename_i hverify
          exact .inl ⟨_, _, rfl, nofun, verifyRequest_error hverify⟩

theorem handle_cases (h : s.step p (.handle request clock) = some s') :
    s.now ≤ clock.looked ∧ s'.now = clock.used ∧ s'.created = s.created ∧ s'.signed = s.signed ∧
      (s'.accepted = s.accepted ∧ Pruned clock s.sessions s'.sessions ∨
        ∃ a session bytes, a.request = request ∧ a.clock = clock ∧ s'.accepted = s.accepted ++ [a] ∧
          Passed p clock s.sessions s'.sessions a session bytes) := by
  unfold State.step at h
  dsimp only at h
  split_ifs at h with hnow
  rcases requireRelayRequestSignature_cases p clock s.sessions request with
    ⟨sessions', result, heq, hresult, hpruned⟩ |
      ⟨sessions', signature, pathAndQuery, session, bytes, heq, hpassed⟩
  · rw [heq] at h
    split at h
    · rename_i hsome
      exact absurd (Prod.mk.inj hsome).2 (hresult _)
    · rename_i hother
      cases h
      refine ⟨hnow, rfl, rfl, rfl, .inl ⟨rfl, ?_⟩⟩
      rw [← (Prod.mk.inj hother).1]
      exact hpruned
  · rw [heq] at h
    cases h
    exact ⟨hnow, rfl, rfl, rfl, .inr ⟨_, session, bytes, rfl, rfl, rfl, hpassed⟩⟩

/-! ## What the sessions know -/

theorem lastUse_append_self (accepted : List Accepted) (a : Accepted) (createdAt : ℕ) :
    lastUse (accepted ++ [a]) a.signature.signingSessionId createdAt = a.clock.used := by
  unfold lastUse
  rw [filter_append, filter_cons_of_pos (by simp), filter_nil, getLast?_concat]

variable {id : Uuid} {createdAt : ℕ} {accepted : List Accepted} {session : RelaySigningSession}

theorem lastUse_append_of_ne (h : a.signature.signingSessionId ≠ id) :
    lastUse (accepted ++ [a]) id createdAt = lastUse accepted id createdAt := by
  unfold lastUse
  rw [filter_append, filter_cons_of_neg (by simpa using h), filter_nil, append_nil]

theorem lastUse_of_notMem (h : ∀ a ∈ accepted, a.signature.signingSessionId ≠ id) :
    lastUse accepted id createdAt = createdAt := by
  unfold lastUse
  rw [filter_eq_nil_iff.2 fun a ha => by simpa using h a ha]
  rfl

structure Recorded (s : State) : Prop where
  created : ∀ id session, s.sessions id = some session →
    (id, session.peerPublicKey, session.createdAt) ∈ s.created
  used : ∀ id session, s.sessions id = some session →
    session.lastUsedAt = lastUse s.accepted id session.createdAt
  known : ∀ a ∈ s.accepted, a.signature.signingSessionId ∈ s.created.map Prod.fst
  past : ∀ a ∈ s.accepted, a.clock.used ≤ s.now
  drift : ∀ a ∈ s.accepted, |((a.clock.checked / second : ℕ) : ℤ) - a.signature.timestamp| ≤ 30
  /-- a nonce is noted until it is too old -/
  nonces : ∀ a ∈ s.accepted, ∀ session, s.sessions a.signature.signingSessionId = some session →
    (∃ seenAt, session.seenNonces a.signature.nonce = some seenAt ∧ a.clock.seen ≤ seenAt) ∨
      a.clock.seen + nonceTtl < s.now

theorem Recorded.initial (h : s.Initial) : Recorded s := by
  obtain ⟨hsessions, -, haccepted⟩ := h
  constructor
  iterate 2
    intro id session hid
    rw [hsessions] at hid
    cases hid
  all_goals
    intro a ha
    rw [haccepted] at ha
    cases ha

theorem Recorded.createSession (h : Recorded s) {key : VerifyingKey}
    {now : ℕ} (hstep : s.step p (.createSession id key createdAt now) = some s') : Recorded s' := by
  unfold State.step at hstep
  dsimp only at hstep
  split_ifs at hstep with hguard
  obtain ⟨hnew, -, hnow⟩ := hguard
  cases hstep
  have hother : ∀ a ∈ s.accepted, a.signature.signingSessionId ≠ id := by
    intro a ha heq
    exact hnew (heq ▸ h.known a ha)
  have hcases : ∀ other session, registerSession s.sessions id key createdAt other = some session →
      other = id ∧ session = ⟨key, createdAt, createdAt, fun _ => none⟩ ∨
        other ≠ id ∧ s.sessions other = some session := by
    intro other session hsession
    unfold registerSession at hsession
    by_cases heq : other = id
    · rw [heq, update_self] at hsession
      exact .inl ⟨heq, (Option.some.inj hsession).symm⟩
    · rw [update_of_ne heq] at hsession
      exact .inr ⟨heq, hsession⟩
  constructor
  · intro other session hsession
    rcases hcases other session hsession with ⟨rfl, rfl⟩ | ⟨-, hold⟩
    · exact mem_append_right _ (mem_singleton.2 rfl)
    · exact mem_append_left _ (h.created other session hold)
  · intro other session hsession
    rcases hcases other session hsession with ⟨rfl, rfl⟩ | ⟨-, hold⟩
    · exact (lastUse_of_notMem hother).symm
    · exact h.used other session hold
  · intro a ha
    show _ ∈ (s.created ++ [(id, key, createdAt)]).map Prod.fst
    rw [map_append]
    exact mem_append_left _ (h.known a ha)
  · exact fun a ha => (h.past a ha).trans hnow
  · exact h.drift
  · intro a ha session hsession
    rcases hcases _ session hsession with ⟨heq, -⟩ | ⟨-, hold⟩
    · exact absurd heq (hother a ha)
    · exact (h.nonces a ha session hold).imp_right fun hlt => hlt.trans_le hnow

theorem nonces_retain {nonce : Uuid} {seen now now' : ℕ}
    (h : (∃ seenAt, session.seenNonces nonce = some seenAt ∧ seen ≤ seenAt) ∨
      seen + nonceTtl < now) (hnow : now ≤ clock.looked) (hnow' : clock.pruned nonce ≤ now') :
    (∃ seenAt, (session.retainNonces clock.pruned).seenNonces nonce = some seenAt ∧
      seen ≤ seenAt) ∨ seen + nonceTtl < now' := by
  have hlooked := clock.looked_le nonce
  rcases h with ⟨seenAt, hsome, hle⟩ | hlt
  · by_cases hkeep : clock.pruned nonce - seenAt ≤ nonceTtl
    · left
      refine ⟨seenAt, ?_, hle⟩
      show (session.seenNonces nonce).filter _ = some seenAt
      rw [hsome]
      exact Option.filter_some_pos (by simpa using hkeep)
    · right
      omega
  · right
    omega

theorem Recorded.handle (h : Recorded s) (hstep : s.step p (.handle request clock) = some s') :
    Recorded s' := by
  obtain ⟨hnow, hnow', hcreated, -, hcases⟩ := handle_cases hstep
  have hlate : ∀ nonce, clock.pruned nonce ≤ s'.now := by
    intro nonce
    rw [hnow']
    exact (clock.pruned_le nonce).trans clock.seen_le
  have hlooked : s.now ≤ clock.seen := by
    have hany := (clock.looked_le ⟨replicate 16 0, rfl⟩).trans (clock.pruned_le _)
    omega
  have hused := clock.seen_le
  rcases hcases with ⟨haccepted, hpruned⟩ | ⟨a, session, bytes, -, rfl, haccepted, hpassed⟩
  · constructor
    · intro id session' hid
      obtain ⟨session, hsession, rfl | rfl⟩ := hpruned id session' hid <;> rw [hcreated]
      · exact h.created id session' hsession
      · exact h.created id session hsession
    · intro id session' hid
      rw [haccepted]
      obtain ⟨session, hsession, rfl | rfl⟩ := hpruned id session' hid
      · exact h.used id session' hsession
      · exact h.used id session hsession
    · rw [haccepted, hcreated]
      exact h.known
    · rw [haccepted]
      intro a ha
      have hpast := h.past a ha
      omega
    · rw [haccepted]
      exact h.drift
    · rw [haccepted]
      intro a ha session' hid
      obtain ⟨session, hsession, rfl | rfl⟩ := hpruned _ session' hid
      · refine (h.nonces a ha session' hsession).imp_right fun hlt => ?_
        omega
      · exact nonces_retain (h.nonces a ha session hsession) hnow (hlate _)
  · have hsession' : ∀ id session', s'.sessions id = some session' →
        id = a.signature.signingSessionId ∧ session' = (session.retainNonces a.clock.pruned).use
          a.signature.nonce a.clock.seen a.clock.used ∨
        id ≠ a.signature.signingSessionId ∧ s.sessions id = some session' := by
      intro id session' hid
      rw [hpassed.sessions_eq] at hid
      by_cases heq : id = a.signature.signingSessionId
      · rw [heq, update_self] at hid
        exact .inl ⟨heq, (Option.some.inj hid).symm⟩
      · rw [update_of_ne heq] at hid
        exact .inr ⟨heq, (Option.filter_eq_some_iff.1 hid).1⟩
    have hsplit : ∀ b ∈ s'.accepted, b ∈ s.accepted ∨ b = a := by
      intro b hb
      rw [haccepted] at hb
      exact (mem_append.1 hb).imp_right mem_singleton.1
    constructor
    · intro id session' hid
      rw [hcreated]
      rcases hsession' id session' hid with ⟨rfl, rfl⟩ | ⟨-, hold⟩
      · exact h.created _ session hpassed.found
      · exact h.created id session' hold
    · intro id session' hid
      rw [haccepted]
      rcases hsession' id session' hid with ⟨rfl, rfl⟩ | ⟨hne, hold⟩
      · exact (lastUse_append_self _ _ _).symm
      · rw [lastUse_append_of_ne hne.symm]
        exact h.used id session' hold
    · intro b hb
      rw [hcreated]
      rcases hsplit b hb with hb | rfl
      · exact h.known b hb
      · exact mem_map_of_mem (h.created _ _ hpassed.found)
    · intro b hb
      rcases hsplit b hb with hb | rfl
      · have hpast := h.past b hb
        omega
      · exact hnow'.ge
    · intro b hb
      rcases hsplit b hb with hb | rfl
      · exact h.drift b hb
      · exact hpassed.drift
    · intro b hb session' hid
      rcases hsession' _ session' hid with ⟨heq, rfl⟩ | ⟨hne, hold⟩
      · rcases hsplit b hb with hb | rfl
        · by_cases hnonce : b.signature.nonce = a.signature.nonce
          · left
            refine ⟨a.clock.seen, ?_, ?_⟩
            · show update _ _ _ _ = _
              rw [hnonce, update_self]
            · have hpast := h.past b hb
              have hseen := b.clock.seen_le
              omega
          · have hkept := nonces_retain (h.nonces b hb session (heq ▸ hpassed.found)) hnow
              (hlate b.signature.nonce)
            refine hkept.imp_left ?_
            rintro ⟨seenAt, hsome, hle⟩
            refine ⟨seenAt, ?_, hle⟩
            show update _ _ _ _ = _
            rw [update_of_ne hnonce]
            exact hsome
        · left
          refine ⟨b.clock.seen, ?_, le_rfl⟩
          show update _ _ _ _ = _
          rw [update_self]
      · rcases hsplit b hb with hb | rfl
        · refine (h.nonces b hb session' hold).imp_right fun hlt => ?_
          omega
        · exact absurd rfl hne

variable {action : Action}

theorem Recorded.step (h : Recorded s) (hstep : s.step p action = some s') : Recorded s' := by
  cases action with
  | createSession id key createdAt now => exact h.createSession hstep
  | sign key message =>
    cases hstep
    exact ⟨h.created, h.used, h.known, h.past, h.drift, h.nonces⟩
  | handle request clock => exact h.handle hstep

/-! ## What is accepted -/

theorem Accepted.Authentic.mono {before : List Accepted} (h : a.Authentic s before)
    (hcreated : s.created ⊆ s'.created) (hsigned : s.signed ⊆ s'.signed) :
    a.Authentic s' before := by
  obtain ⟨key, createdAt, hmem, hsign, hold, hidle⟩ := h.session
  exact ⟨⟨key, createdAt, hcreated hmem, hsigned hsign, hold, hidle⟩, h.uri⟩

theorem Passed.authentic {bytes : List UInt8} {sessions : Sessions}
    (hpassed : Passed p clock s.sessions sessions a session bytes) (hclock : a.clock = clock)
    (h : Recorded s) (hsha : Injective p.sha256)
    (hunforged : State.Unforged p s (.handle a.request clock)) : a.Authentic s s.accepted := by
  obtain ⟨m, hsigned, htext⟩ := hunforged _ _ _ _ hpassed.extracted hpassed.parsed hpassed.verified
  have hm : m = .request a.signed := Message.text_inj hsha htext
  obtain ⟨uri, huri, hpath, hpairs⟩ := extractRequestSignature_ok hpassed.extracted
  have hvalid := hpassed.valid
  unfold RelaySigningSession.isValid at hvalid
  rw [decide_eq_true_eq, h.used _ _ hpassed.found, ← hclock] at hvalid
  refine ⟨⟨session.peerPublicKey, session.createdAt, h.created _ _ hpassed.found, ?_, hvalid⟩,
    uri, huri, hpath.symm, hpairs.symm⟩
  rw [← hm]
  exact hsigned

def AllAuthentic (s : State) : Prop :=
  ∀ (i : ℕ) (a : Accepted), s.accepted[i]? = some a → a.Authentic s (s.accepted.take i)

theorem AllAuthentic.step (h : AllAuthentic s) (hrecorded : Recorded s)
    (hsha : Injective p.sha256) (hunforged : State.Unforged p s action)
    (hstep : s.step p action = some s') : AllAuthentic s' := by
  cases action with
  | createSession id key createdAt now =>
    unfold State.step at hstep
    dsimp only at hstep
    split_ifs at hstep
    cases hstep
    intro i a ha
    exact (h i a ha).mono (subset_append_left _ _) (Subset.refl _)
  | sign key message =>
    cases hstep
    intro i a ha
    exact (h i a ha).mono (Subset.refl _) (subset_append_left _ _)
  | handle request clock =>
    obtain ⟨-, -, hcreated, hsigned, hcases⟩ := handle_cases hstep
    have hcreated' : s.created ⊆ s'.created := hcreated ▸ Subset.refl _
    have hsigned' : s.signed ⊆ s'.signed := hsigned ▸ Subset.refl _
    rcases hcases with ⟨haccepted, -⟩ | ⟨a, session, bytes, rfl, hclock, haccepted, hpassed⟩
    · intro i a ha
      rw [haccepted] at ha ⊢
      exact (h i a ha).mono hcreated' hsigned'
    · intro i b hb
      rw [haccepted] at hb ⊢
      rcases Nat.lt_or_ge i s.accepted.length with hlt | hge
      · rw [getElem?_append_left hlt] at hb
        rw [take_append_of_le_length hlt.le]
        exact (h i b hb).mono hcreated' hsigned'
      · rw [getElem?_append_right hge] at hb
        have hlength : i = s.accepted.length := by
          have hlt := (List.getElem?_eq_some_iff.1 hb).1
          rw [length_singleton] at hlt
          omega
        rw [hlength, Nat.sub_self] at hb
        rw [hlength, take_left, ← Option.some.inj hb]
        exact (hpassed.authentic hclock hrecorded hsha hunforged).mono hcreated' hsigned'

/-- A request that has been accepted is accepted again only by a call that notes the nonce more than
    59 seconds after the check of the timestamp. -/
def Once (s : State) : Prop :=
  s.accepted.Pairwise fun b a => b.signed = a.signed → a.clock.checked + 59 * second < a.clock.seen

theorem Once.step (h : Once s) (hrecorded : Recorded s)
    (hstep : s.step p action = some s') : Once s' := by
  cases action with
  | createSession id key createdAt now =>
    unfold State.step at hstep
    dsimp only at hstep
    split_ifs at hstep
    cases hstep
    exact h
  | sign key message =>
    cases hstep
    exact h
  | handle request clock =>
    obtain ⟨hnow, -, -, -, hcases⟩ := handle_cases hstep
    unfold Once
    rcases hcases with ⟨haccepted, -⟩ | ⟨a, session, bytes, -, rfl, haccepted, hpassed⟩
    · rw [haccepted]
      exact h
    · rw [haccepted, pairwise_append]
      refine ⟨h, pairwise_singleton _ _, ?_⟩
      intro b hb a' ha' heq
      rw [mem_singleton.1 ha'] at heq ⊢
      have hsession := congrArg SignedRequest.signingSessionId heq
      have hnonce := congrArg SignedRequest.nonce heq
      have htime := congrArg SignedRequest.timestamp heq
      dsimp only [Accepted.signed] at hsession hnonce htime
      have hnoted := nonces_retain (hrecorded.nonces b hb session (hsession ▸ hpassed.found)) hnow
        (a.clock.pruned_le b.signature.nonce)
      rw [hnonce, hpassed.fresh] at hnoted
      have hlate := hnoted.resolve_left (by simp)
      -- the two timestamps are one, so that their checks are about a minute apart at most
      have hdrift := abs_le.1 (hrecorded.drift b hb)
      have hdrift' := abs_le.1 hpassed.drift
      have hchecked := b.clock.checked_le
      have hlooked := b.clock.looked_le b.signature.nonce
      have hseen := b.clock.pruned_le b.signature.nonce
      rw [htime] at hdrift
      unfold nonceTtl at hlate
      unfold second at *
      omega

end Steps

/-- Each request that is accepted is one that the peer of its session has signed,
    with its method, path, pairs and body, and the session was neither too old nor idle for too
    long. It is accepted again only by a call that has waited for about a minute. -/
theorem accepted_requests {p : Primitives} {s : State} (hsha : Injective p.sha256)
    (h : Reachable (State.step p) (State.Unforged p) State.Initial s) :
    (∀ (i : ℕ) (a : Accepted), s.accepted[i]? = some a → a.Authentic s (s.accepted.take i)) ∧
      s.accepted.Pairwise fun b a =>
        b.signed = a.signed → a.clock.checked + 59 * second < a.clock.seen := by
  have hinvariant : Recorded s ∧ AllAuthentic s ∧ Once s := by
    apply h.invariant (P := fun s => Recorded s ∧ AllAuthentic s ∧ Once s)
    · rintro s hinitial
      refine ⟨Recorded.initial hinitial, ?_, ?_⟩
      · intro i a ha
        rw [hinitial.2.2] at ha
        cases ha
      · unfold Once
        rw [hinitial.2.2]
        exact Pairwise.nil
    · rintro s action s' ⟨hrecorded, hauthentic, honce⟩ hunforged hstep
      exact ⟨hrecorded.step hstep, hauthentic.step hrecorded hsha hunforged hstep,
        honce.step hrecorded hstep⟩
  exact hinvariant.2

/-! ## Two runs -/

def exampleId (b : UInt8) : Uuid := ⟨replicate 16 b, by simp⟩

def exampleSigned : SignedRequest where
  timestamp := 100
  method := ⟨"GET".toList, by decide⟩
  pathAndQuery := "/api/info?a=b+c".toList
  signingSessionId := exampleId 1
  nonce := exampleId 2
  body := []

/-- A hash that keeps its input, and a scheme with one signature. -/
def examplePrimitives : Primitives where
  sha256 bytes := bytes
  verify key text signature := key = [7] ∧
    text = (Message.request exampleSigned).text (fun bytes => bytes) ∧
    signature = replicate 64 0
  parseUuid := Delivery.parseUuid

def exampleSignature : Text := Base64.encodeChars (replicate 64 0)

def exampleRequest : Request where
  method := exampleSigned.method
  originalUri := some ⟨"/api/info".toList, some "a=b+c".toList, by decide⟩
  headers := [(relayHeader, Utf8.encode "1".toList),
    (signingSessionHeader, Utf8.encode (exampleId 1).hyphenated),
    (timestampHeader, Utf8.encode "100".toList),
    (nonceHeader, Utf8.encode (exampleId 2).hyphenated),
    (requestSignatureHeader, Utf8.encode exampleSignature)]
  body := []

/-- The signature in the query, between a pair that is written in another way. -/
def exampleQueryRequest : Request where
  method := exampleSigned.method
  originalUri := some ⟨"/api/info".toList, some (signingSessionHeader ++ '=' ::
    ((exampleId 1).hyphenated ++ "&a=b%20c&".toList ++ timestampHeader ++ "=100&".toList ++
      nonceHeader ++ '=' :: ((exampleId 2).hyphenated ++ '&' :: (requestSignatureHeader ++
        '=' :: exampleSignature)))), by decide +kernel⟩
  headers := [(relayHeader, Utf8.encode "1".toList)]
  body := []

/-- The timestamp is checked at one time, and all else happens at another one. -/
def Readings.ofDelayed (checked now : ℕ) (h : checked ≤ now) : Readings where
  checked := checked
  looked := now
  pruned _ := now
  seen := now
  used := now
  checked_le := h
  looked_le _ := le_rfl
  pruned_le _ := le_rfl
  seen_le := le_rfl

def exampleStart : State := ⟨fun _ => none, 0, [], [], []⟩

def SignedFirst (s : State) : Action → Prop
  | .handle _ _ => ([7], .request exampleSigned) ∈ s.signed
  | _ => True

instance (s : State) (action : Action) : Decidable (SignedFirst s action) := by
  cases action
  all_goals
    simp only [SignedFirst]
    infer_instance

theorem unforged_of_signedFirst {s : State} {action : Action} (h : SignedFirst s action) :
    State.Unforged examplePrimitives s action := by
  cases action with
  | createSession id key createdAt now => trivial
  | sign key message => trivial
  | handle request clock =>
    intro signature pathAndQuery bytes key _ _ _ hverify
    obtain ⟨rfl, htext, -⟩ := of_decide_eq_true hverify
    exact ⟨_, h, htext.symm⟩

def exampleActions : List Action :=
  [.createSession (exampleId 1) [7] (60 * second) (60 * second), .sign [7] (.request exampleSigned),
    .handle exampleRequest (.ofDelayed (70 * second) (70 * second) le_rfl)]

/-- A copy at once, an altered copy, and a copy in the query that waits for the sessions. -/
def exampleCopies : List Action :=
  [.handle exampleRequest (.ofDelayed (71 * second) (71 * second) le_rfl),
    .handle { exampleRequest with body := [1] } (.ofDelayed (72 * second) (72 * second) le_rfl),
    .handle exampleQueryRequest (.ofDelayed (130 * second) (190 * second + 1) (by decide))]

/-- A request is accepted, and of the copies only the last. -/
theorem accepted_example : ∃ s,
    Reachable (State.step examplePrimitives) (State.Unforged examplePrimitives) State.Initial s ∧
      s.accepted.map (fun a => (a.signed, a.clock.checked)) =
        [(exampleSigned, 70 * second), (exampleSigned, 130 * second)] ∧
      (∀ (i : ℕ) (a : Accepted), s.accepted[i]? = some a → a.Authentic s (s.accepted.take i)) ∧
      s.accepted.Pairwise fun b a =>
        b.signed = a.signed → a.clock.checked + 59 * second < a.clock.seen := by
  have hrun : (exec (State.step examplePrimitives) SignedFirst exampleStart
      (exampleActions ++ exampleCopies)).map
        (fun s => s.accepted.map fun a => (a.signed, a.clock.checked)) =
      some [(exampleSigned, 70 * second), (exampleSigned, 130 * second)] := by
    decide +kernel
  obtain ⟨s, hexec, hsigned⟩ := Option.map_eq_some_iff.1 hrun
  have hreach : Reachable (State.step examplePrimitives) (State.Unforged examplePrimitives)
      State.Initial s :=
    ⟨exampleStart, ⟨fun _ => rfl, rfl, rfl⟩,
      (runs_of_exec hexec).mono fun s action => unforged_of_signedFirst⟩
  exact ⟨s, hreach, hsigned, accepted_requests (fun _ _ h => h) hreach⟩

/-- A copy whose timestamp has been checked in time waits for the sessions until the nonce is
    dropped. -/
theorem request_accepted_twice : ∃ s,
    Reachable (State.step examplePrimitives) (State.Unforged examplePrimitives) State.Initial s ∧
      Injective examplePrimitives.sha256 ∧
      s.accepted.map Accepted.signed = [exampleSigned, exampleSigned] := by
  have hrun : (exec (State.step examplePrimitives) SignedFirst exampleStart (exampleActions ++
      [.handle exampleQueryRequest (.ofDelayed (130 * second) (190 * second + 1) (by decide))])).map
        (fun s => s.accepted.map Accepted.signed) = some [exampleSigned, exampleSigned] := by
    decide +kernel
  obtain ⟨s, hexec, hsigned⟩ := Option.map_eq_some_iff.1 hrun
  refine ⟨s, ⟨exampleStart, ⟨fun _ => rfl, rfl, rfl⟩, (runs_of_exec hexec).mono ?_⟩,
    fun _ _ h => h, hsigned⟩
  exact fun s action => unforged_of_signedFirst

end VibeKanban.Relay.Signing
