import VibeKanban.Delivery.Extract
import VibeKanban.Relay.Frames

/-!
# Signed relay requests (`relay-control/src/signing.rs`)

A peer signs a text that is made of its request. The texts that are signed with the same key for
other ends (responses, frames of a WebSocket, refreshes) are told from it by their fields.

* `Message.text_inj`: two messages with one text are the same.
-/

namespace VibeKanban.Relay.Signing

open Lib Function List Envelope
open Delivery (Text Uuid)

/-! ## What is signed -/

/-- A method of the router: neither does it have a bar nor is it a number. -/
abbrev Method := { name : Text // '|' ∉ name ∧ name.all Char.isDigit = false }

abbrev VerifyingKey := List UInt8

structure RequestSignature where
  signingSessionId : Uuid
  timestamp : ℤ
  nonce : Uuid
  signatureB64 : Text

/-- `Display` of an `i64` -/
def i64Text : ℤ → Text
  | .ofNat n => Envelope.digits n
  | .negSucc n => '-' :: Envelope.digits (n + 1)

def hashText (sha256 : List UInt8 → List UInt8) (body : List UInt8) : Text :=
  Base64.encodeChars (sha256 body)

/-- `build_request_signing_message` (line 33). -/
def buildRequestSigningMessage (sha256 : List UInt8 → List UInt8) (sig : RequestSignature)
    (method pathAndQuery : Text) (body : List UInt8) : Text :=
  "v1|".toList ++ (i64Text sig.timestamp ++ '|' :: (method ++ '|' :: (pathAndQuery ++
    '|' :: (sig.signingSessionId.hyphenated ++ '|' :: (sig.nonce.hyphenated ++
      '|' :: hashText sha256 body)))))

/-- A request that is signed. -/
structure SignedRequest where
  timestamp : ℤ
  method : Method
  pathAndQuery : Text
  signingSessionId : Uuid
  nonce : Uuid
  body : List UInt8
  deriving DecidableEq

/-- What the holder of a key signs with it. -/
inductive Message where
  | request (request : SignedRequest)
  /-- `build_response_signing_message` -/
  | response (timestamp : ℤ) (status : ℕ) (pathAndQuery : Text)
      (signingSessionId requestNonce responseNonce : Uuid) (body : List UInt8)
  /-- `ws_signing_input` (`relay-ws/src/crypto.rs`) -/
  | frame (signingSessionId nonce : Uuid) (seq : ℕ) (msgType : RelayWsMessageType)
      (payload : List UInt8)
  /-- `build_refresh_message` (`trusted-key-auth/src/refresh.rs`) -/
  | refresh (timestamp : ℤ) (nonce : Text) (clientId : Uuid)
  /-- such as a message of the SSH server, which has the same key -/
  | other (text : Text) (h : ¬ "v1|".toList <+: text)
  deriving DecidableEq

def Message.text (sha256 : List UInt8 → List UInt8) : Message → Text
  | .request r =>
    buildRequestSigningMessage sha256 ⟨r.signingSessionId, r.timestamp, r.nonce, []⟩ r.method.val
      r.pathAndQuery r.body
  | .response timestamp status pathAndQuery signingSessionId requestNonce responseNonce body =>
    "v1|".toList ++ (i64Text timestamp ++ '|' :: (Envelope.digits status ++ '|' :: (pathAndQuery ++
      '|' :: (signingSessionId.hyphenated ++ '|' :: (requestNonce.hyphenated ++
        '|' :: (responseNonce.hyphenated ++ '|' :: hashText sha256 body))))))
  | .frame signingSessionId nonce seq msgType payload =>
    "v1|".toList ++ (signingSessionId.hyphenated ++ '|' :: (nonce.hyphenated ++
      '|' :: (Envelope.digits seq ++ '|' :: (msgType.asStr.toList ++
        '|' :: hashText sha256 payload))))
  | .refresh timestamp nonce clientId =>
    "v1|".toList ++ ("refresh".toList ++ '|' :: (i64Text timestamp ++ '|' :: (nonce ++
      '|' :: clientId.hyphenated)))
  | .other text _ => text

/-! ## Sessions -/

/-- Times are nanoseconds of one clock, which both `Instant` and `SystemTime` read. -/
def second : ℕ := 1000000000

structure RelaySigningSession where
  peerPublicKey : VerifyingKey
  createdAt : ℕ
  lastUsedAt : ℕ
  seenNonces : Uuid → Option ℕ

abbrev Sessions := Uuid → Option RelaySigningSession

inductive RelaySignatureValidationError where
  | timestampOutOfDrift
  | missingSigningSession
  | invalidNonce
  | replayNonce
  | invalidSignature

def maxTimestampDriftSecs : ℕ := 30

def sessionTtl : ℕ := 60 * 60 * second

def sessionIdleTtl : ℕ := 15 * 60 * second

def nonceTtl : ℕ := 2 * 60 * second

/-- The hash and the signature scheme; `Uuid::from_str`. -/
structure Primitives where
  sha256 : List UInt8 → List UInt8
  verify : VerifyingKey → Text → List UInt8 → Bool
  parseUuid : Text → Option Uuid

/-- The times that a call of `verify_request` reads: when it checks the timestamp, when it has the
    sessions to itself and drops the old ones, when it drops each nonce or keeps it, and when it
    notes the nonce and the use. -/
structure Readings where
  checked : ℕ
  looked : ℕ
  pruned : Uuid → ℕ
  seen : ℕ
  used : ℕ
  checked_le : checked ≤ looked
  looked_le : ∀ nonce, looked ≤ pruned nonce
  pruned_le : ∀ nonce, pruned nonce ≤ seen
  seen_le : seen ≤ used

def i64Max : ℤ := 2 ^ 63 - 1

def i64Min : ℤ := -2 ^ 63

/-- `i64::saturating_sub` -/
def saturatingSub (a b : ℤ) : ℤ := max i64Min (min i64Max (a - b))

/-- `validate_timestamp` (line 301); the error says whether it fails. -/
def validateTimestamp (now : ℕ) (timestamp : ℤ) : Except RelaySignatureValidationError Unit :=
  let nowSecs : ℤ := (now / second : ℕ)
  if i64Max < nowSecs then .error .timestampOutOfDrift
  else if (maxTimestampDriftSecs : ℤ) < |saturatingSub nowSecs timestamp| then
    .error .timestampOutOfDrift
  else .ok ()

/-- `parse_signature_b64` (line 317): a signature has 64 bytes. -/
def parseSignatureB64 (signatureB64 : Text) : Except RelaySignatureValidationError (List UInt8) :=
  match Base64.decodeChars signatureB64 with
  | some bytes => if bytes.length = 64 then .ok bytes else .error .invalidSignature
  | none => .error .invalidSignature

/-- Neither too old nor unused for too long. -/
def RelaySigningSession.isValid (session : RelaySigningSession) (now : ℕ) : Bool :=
  now - session.createdAt ≤ sessionTtl ∧ now - session.lastUsedAt ≤ sessionIdleTtl

/-- The sessions that `get_valid_session` keeps (line 290). -/
def Sessions.retain (sessions : Sessions) (now : ℕ) : Sessions :=
  fun id => (sessions id).filter (·.isValid now)

/-- The nonces that are kept (line 240). -/
def RelaySigningSession.retainNonces (session : RelaySigningSession) (pruned : Uuid → ℕ) :
    RelaySigningSession :=
  { session with seenNonces := fun nonce =>
      (session.seenNonces nonce).filter fun seenAt => pruned nonce - seenAt ≤ nonceTtl }

/-- A request has been accepted. -/
def RelaySigningSession.use (session : RelaySigningSession) (nonce : Uuid) (seen used : ℕ) :
    RelaySigningSession :=
  { session with
    seenNonces := update session.seenNonces nonce (some seen)
    lastUsedAt := used }

/-- `register_session` (line 208); `create_session` calls it with a new identifier. -/
def registerSession (sessions : Sessions) (id : Uuid) (peerPublicKey : VerifyingKey) (now : ℕ) :
    Sessions :=
  update sessions id (some ⟨peerPublicKey, now, now, fun _ => none⟩)

/-- `verify_request` (line 225). -/
def verifyRequest (p : Primitives) (clock : Readings) (sessions : Sessions)
    (sig : RequestSignature) (method pathAndQuery : Text) (body : List UInt8) :
    Sessions × Except RelaySignatureValidationError Unit :=
  match validateTimestamp clock.checked sig.timestamp with
  | .error e => (sessions, .error e)
  | .ok () =>
    match parseSignatureB64 sig.signatureB64 with
    | .error e => (sessions, .error e)
    | .ok signature =>
      let sessions := sessions.retain clock.looked
      match sessions sig.signingSessionId with
      | none => (sessions, .error .missingSigningSession)
      | some session =>
        let session := session.retainNonces clock.pruned
        let sessions := update sessions sig.signingSessionId (some session)
        if (session.seenNonces sig.nonce).isSome then (sessions, .error .replayNonce)
        else
          let message := buildRequestSigningMessage p.sha256 sig method pathAndQuery body
          if p.verify session.peerPublicKey message signature then
            (update sessions sig.signingSessionId
              (some (session.use sig.nonce clock.seen clock.used)), .ok ())
          else (sessions, .error .invalidSignature)

/-! ## Fields without a bar -/

theorem inUuid_hyphenated (id : Uuid) : ∀ c ∈ id.hyphenated, Delivery.InUuid c :=
  Delivery.inUuid_of_parseUuid (Delivery.parseUuid_hyphenated id)

theorem bar_not_mem_hyphenated (id : Uuid) : '|' ∉ id.hyphenated := by
  intro h
  exact absurd (inUuid_hyphenated id _ h) (by decide)

theorem bar_not_mem_i64Text (n : ℤ) : '|' ∉ i64Text n := by
  cases n with
  | ofNat n => exact bar_not_mem_digits n
  | negSucc n =>
    rw [i64Text, notMem_cons]
    exact ⟨by decide, bar_not_mem_digits _⟩

theorem bar_not_mem_hashText (sha256 : List UInt8 → List UInt8) (body : List UInt8) :
    '|' ∉ hashText sha256 body := by
  intro h
  rcases Base64.mem_encodeChars h with h | h
  all_goals
    revert h
    decide

theorem hyphen_not_mem_tail (n : ℤ) : '-' ∉ (i64Text n).tail := by
  have hdigits : ∀ m, '-' ∉ digits m := by
    intro m h
    have hdigit : Char.isDigit '-' = true := Nat.isDigit_of_mem_toDigits (by decide) (by decide) h
    revert hdigit
    decide
  cases n with
  | ofNat n => exact fun h => hdigits n (mem_of_mem_tail h)
  | negSucc n => exact hdigits _

theorem hyphen_mem_tail_hyphenated (id : Uuid) : '-' ∈ id.hyphenated.tail := by
  have h : id.hyphenated[8]? = some '-' := Delivery.getElem?_hyphenated id 8 (by decide)
  rw [← getElem?_tail] at h
  exact mem_of_getElem? h

theorem i64Text_ne_hyphenated (n : ℤ) (id : Uuid) : i64Text n ≠ id.hyphenated := by
  intro h
  exact hyphen_not_mem_tail n (h ▸ hyphen_mem_tail_hyphenated id)

theorem i64Text_ne_refresh (n : ℤ) : i64Text n ≠ "refresh".toList := by
  intro h
  have hmem : 'f' ∈ i64Text n := by
    rw [h]
    decide
  have hdigits : ∀ m, 'f' ∉ digits m := by
    intro m hm
    have hdigit : Char.isDigit 'f' = true := Nat.isDigit_of_mem_toDigits (by decide) (by decide) hm
    revert hdigit
    decide
  cases n with
  | ofNat n => exact hdigits n hmem
  | negSucc n =>
    rcases mem_cons.1 hmem with h | h
    · cases h
    · exact hdigits _ h

theorem i64Text_injective {m n : ℤ} (h : i64Text m = i64Text n) : m = n := by
  have hsign : ∀ (k l : ℕ), digits k ≠ '-' :: digits l := by
    intro k l heq
    have hmem : '-' ∈ digits k := by
      rw [heq]
      exact mem_cons_self
    have hdigit : Char.isDigit '-' = true :=
      Nat.isDigit_of_mem_toDigits (by decide) (by decide) hmem
    revert hdigit
    decide
  cases m with
  | ofNat m =>
    cases n with
    | ofNat n => exact congrArg Int.ofNat (digits_injective h)
    | negSucc n => exact absurd h (hsign m _)
  | negSucc m =>
    cases n with
    | ofNat n => exact absurd h.symm (hsign n _)
    | negSucc n => rw [Nat.succ.inj (digits_injective (cons.inj h).2)]

theorem digits_ne_method (n : ℕ) (method : Method) : digits n ≠ method.val := by
  intro h
  have hall : (digits n).all Char.isDigit = true := by
    rw [all_eq_true]
    exact fun c hc => Nat.isDigit_of_mem_toDigits (by decide) (by decide) hc
  rw [h, method.property.2] at hall
  cases hall

/-! ## A text is signed for one request -/

variable {sha256 : List UInt8 → List UInt8} {body : List UInt8}

theorem hashText_injective (hsha : Injective sha256) {body' : List UInt8}
    (h : hashText sha256 body = hashText sha256 body') :
    body = body' := by
  have hdecode := congrArg Base64.decodeChars h
  unfold hashText at hdecode
  rw [Base64.decodeChars_encodeChars, Base64.decodeChars_encodeChars] at hdecode
  exact hsha (Option.some.inj hdecode)

theorem lastFields_inj {x x' : Text} {s s' n n' : Uuid} {h h' : Text} (hh : '|' ∉ h)
    (hh' : '|' ∉ h')
    (heq : x ++ '|' :: (s.hyphenated ++ '|' :: (n.hyphenated ++ '|' :: h)) =
      x' ++ '|' :: (s'.hyphenated ++ '|' :: (n'.hyphenated ++ '|' :: h'))) :
    x = x' ∧ s = s' ∧ n = n' ∧ h = h' := by
  have hassoc : ∀ (x h : Text) (s n : Uuid),
      x ++ '|' :: (s.hyphenated ++ '|' :: (n.hyphenated ++ '|' :: h)) =
        ((x ++ '|' :: s.hyphenated) ++ '|' :: n.hyphenated) ++ '|' :: h := by
    intro x h s n
    simp
  rw [hassoc, hassoc] at heq
  obtain ⟨hrest, rfl⟩ := eq_of_append_sep_right hh hh' heq
  obtain ⟨hrest', hn⟩ := eq_of_append_sep_right (bar_not_mem_hyphenated n)
    (bar_not_mem_hyphenated n') hrest
  obtain ⟨rfl, hs⟩ := eq_of_append_sep_right (bar_not_mem_hyphenated s)
    (bar_not_mem_hyphenated s') hrest'
  exact ⟨rfl, Delivery.hyphenated_injective hs, Delivery.hyphenated_injective hn, rfl⟩

theorem Message.text_inj (hsha : Injective sha256)
    {m : Message} {r : SignedRequest} (h : m.text sha256 = (Message.request r).text sha256) :
    m = .request r := by
  have hcut : ∀ {x y : Text}, "v1|".toList ++ x = "v1|".toList ++ y → x = y :=
    fun heq => append_cancel_left heq
  cases m with
  | request r' =>
    obtain ⟨htime, hrest⟩ := eq_of_append_sep (bar_not_mem_i64Text _) (bar_not_mem_i64Text _)
      (hcut h)
    obtain ⟨hmethod, hlast⟩ := eq_of_append_sep r'.method.property.1 r.method.property.1 hrest
    obtain ⟨hpath, hsession, hnonce, hhash⟩ :=
      lastFields_inj (bar_not_mem_hashText _ _) (bar_not_mem_hashText _ _) hlast
    congr 1
    rw [SignedRequest.mk.injEq]
    exact ⟨i64Text_injective htime, Subtype.ext hmethod, hpath, hsession, hnonce,
      hashText_injective hsha hhash⟩
  | response timestamp status pathAndQuery signingSessionId requestNonce responseNonce body =>
    obtain ⟨-, hrest⟩ := eq_of_append_sep (bar_not_mem_i64Text _) (bar_not_mem_i64Text _) (hcut h)
    obtain ⟨hmethod, -⟩ := eq_of_append_sep (bar_not_mem_digits _) r.method.property.1 hrest
    exact absurd hmethod (digits_ne_method _ _)
  | frame signingSessionId nonce seq msgType payload =>
    obtain ⟨htime, -⟩ := eq_of_append_sep (bar_not_mem_hyphenated _) (bar_not_mem_i64Text _)
      (hcut h)
    exact absurd htime.symm (i64Text_ne_hyphenated _ _)
  | refresh timestamp nonce clientId =>
    obtain ⟨htime, -⟩ := eq_of_append_sep (by decide) (bar_not_mem_i64Text _) (hcut h)
    exact absurd htime.symm (i64Text_ne_refresh _)
  | other text hother =>
    refine absurd ?_ hother
    show "v1|".toList <+: text
    rw [show text = (Message.request r).text sha256 from h]
    exact prefix_append _ _

/-! ## What is accepted -/

theorem validateTimestamp_ok {now : ℕ} {timestamp : ℤ}
    (h : validateTimestamp now timestamp = .ok ()) :
    |((now / second : ℕ) : ℤ) - timestamp| ≤ 30 := by
  unfold validateTimestamp at h
  dsimp only at h
  split_ifs at h with hmax hdrift
  have hle := not_lt.1 hdrift
  unfold saturatingSub at hle
  rw [show ((maxTimestampDriftSecs : ℕ) : ℤ) = 30 from rfl, abs_le] at hle
  rw [abs_le]
  unfold i64Max i64Min at hle
  omega

variable {p : Primitives} {clock : Readings} {sessions sessions' : Sessions}
  {sig : RequestSignature} {method pathAndQuery : Text}

theorem verifyRequest_ok
    (h : verifyRequest p clock sessions sig method pathAndQuery body = (sessions', .ok ())) :
    ∃ session signature, sessions sig.signingSessionId = some session ∧
      session.isValid clock.looked = true ∧
      |((clock.checked / second : ℕ) : ℤ) - sig.timestamp| ≤ 30 ∧
      parseSignatureB64 sig.signatureB64 = .ok signature ∧
      (session.retainNonces clock.pruned).seenNonces sig.nonce = none ∧
      p.verify session.peerPublicKey
        (buildRequestSigningMessage p.sha256 sig method pathAndQuery body) signature = true ∧
      sessions' = update (sessions.retain clock.looked) sig.signingSessionId
        (some ((session.retainNonces clock.pruned).use sig.nonce clock.seen clock.used)) := by
  unfold verifyRequest at h
  split at h
  · cases h
  · rename_i htime
    split at h
    · cases h
    · rename_i signature hsignature
      dsimp only at h
      split at h
      · cases h
      · rename_i session hsession
        obtain ⟨hsome, hvalid⟩ := Option.filter_eq_some_iff.1 hsession
        split_ifs at h with hnonce hverify
        · exact nomatch (Prod.mk.inj h).2
        · rw [update_idem] at h
          exact ⟨session, signature, hsome, hvalid, validateTimestamp_ok htime, hsignature,
            by simpa using hnonce, hverify, (Prod.mk.inj h).1.symm⟩
        · exact nomatch (Prod.mk.inj h).2

theorem verifyRequest_error {e : RelaySignatureValidationError}
    (h : verifyRequest p clock sessions sig method pathAndQuery body = (sessions', .error e)) :
    ∀ id session', sessions' id = some session' → ∃ session, sessions id = some session ∧
      (session' = session ∨ session' = session.retainNonces clock.pruned) := by
  intro id session' hid
  have hretain : ∀ {session}, sessions.retain clock.looked id = some session →
      sessions id = some session := fun hsome => (Option.filter_eq_some_iff.1 hsome).1
  have hupdate : ∀ {session}, sessions.retain clock.looked sig.signingSessionId = some session →
      update (sessions.retain clock.looked) sig.signingSessionId
        (some (session.retainNonces clock.pruned)) id = some session' →
      ∃ session, sessions id = some session ∧
        (session' = session ∨ session' = session.retainNonces clock.pruned) := by
    intro session hsession hsome
    by_cases heq : id = sig.signingSessionId
    · rw [heq, update_self] at hsome
      rw [heq]
      exact ⟨session, (Option.filter_eq_some_iff.1 hsession).1, .inr (Option.some.inj hsome).symm⟩
    · rw [update_of_ne heq] at hsome
      exact ⟨session', hretain hsome, .inl rfl⟩
  unfold verifyRequest at h
  split at h
  · cases h
    exact ⟨session', hid, .inl rfl⟩
  · split at h
    · cases h
      exact ⟨session', hid, .inl rfl⟩
    · dsimp only at h
      split at h
      · cases h
        exact ⟨session', hretain hid, .inl rfl⟩
      · rename_i hsession
        split_ifs at h <;> cases h <;> exact hupdate hsession hid

end VibeKanban.Relay.Signing
