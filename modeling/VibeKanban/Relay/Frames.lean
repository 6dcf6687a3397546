import VibeKanban.Lib.Runs
import VibeKanban.Lib.Search
import VibeKanban.Lib.Table
import VibeKanban.Relay.Envelope

/-!
# Signed frames of a relayed WebSocket (`relay-ws/src/crypto.rs`)

The sender numbers and signs its frames; the receiver accepts a frame with the number that it
expects and a valid signature. Between them an adversary delivers any bytes at any time. Hashing,
signing, Base64 and JSON are parameters.

* `frames_intact`: what is accepted was sent, in order and once, up to 2^64 - 1 frames.
-/

namespace VibeKanban.Relay

open Lib Cluster List Prod Nat

/-! ## Model -/

structure RelayWsFrame where
  msgType : RelayWsMessageType
  payload : List UInt8

/-- What the codec is built from, for one signing key. -/
structure Primitives where
  base64 : Base64.Codec
  sha256 : List UInt8 → List UInt8
  /-- `Display` of a `Uuid` -/
  uuidText : Uuid → String
  signBytes : List UInt8 → List UInt8
  /-- `Signature::from_slice` and `verify` -/
  verify : List UInt8 → List UInt8 → Bool
  toVec : SignedWsEnvelope → List UInt8
  fromSlice : List UInt8 → Option SignedWsEnvelope

/-- The fields of a `RequestSignature` that frames are bound to. -/
structure RequestSignature where
  signingSessionId : Uuid
  nonce : Uuid

def envelopeVersion : ℕ := 1

section

variable (p : Primitives) (sig : RequestSignature)

/-- `ws_signing_input` (lines 143-156). -/
def wsSigningInput (seq : ℕ) (msgType : RelayWsMessageType) (payload : List UInt8) : List Char :=
  "v1|".toList ++ ((p.uuidText sig.signingSessionId).toList ++ ('|' ::
    ((p.uuidText sig.nonce).toList ++ ('|' :: (Envelope.digits seq ++ ('|' ::
      (msgType.asStr.toList ++ ('|' :: (p.base64.encode (p.sha256 payload)).toList))))))))

def signedBytes (seq : ℕ) (frame : RelayWsFrame) : List UInt8 :=
  Utf8.encode (wsSigningInput p sig seq frame.msgType frame.payload)

def signedEnvelope (seq : ℕ) (frame : RelayWsFrame) : SignedWsEnvelope where
  version := envelopeVersion
  seq := seq
  msgType := frame.msgType
  payloadB64 := p.base64.encode frame.payload
  signatureB64 := p.base64.encode (p.signBytes (signedBytes p sig seq frame))

/-- `encode` (lines 40-59), from `outbound_seq`; it gives the new number and the bytes. -/
def encode (outboundSeq : ℕ) (frame : RelayWsFrame) : ℕ × List UInt8 :=
  let seq := saturatingAdd outboundSeq 1
  (seq, p.toVec (signedEnvelope p sig seq frame))

/-- `decode` (lines 83-124), from `inbound_seq`; it gives the new number and the frame. -/
def decode (inboundSeq : ℕ) (raw : List UInt8) : Except String (ℕ × RelayWsFrame) :=
  match p.fromSlice raw with
  | none => .error "invalid relay WS envelope JSON"
  | some envelope =>
    if envelope.version ≠ envelopeVersion then .error "unsupported relay WS envelope version"
    else
      let expectedSeq := saturatingAdd inboundSeq 1
      if envelope.seq ≠ expectedSeq then
        .error ("invalid relay WS sequence: expected " ++ toString expectedSeq ++ ", got " ++
          toString envelope.seq)
      else
        match p.base64.decode envelope.payloadB64 with
        | .error _ => .error "invalid relay WS payload"
        | .ok payload =>
          match p.base64.decode envelope.signatureB64 with
          | .error _ => .error "invalid relay WS frame signature encoding"
          | .ok signature =>
            if p.verify (signedBytes p sig envelope.seq ⟨envelope.msgType, payload⟩) signature then
              .ok (envelope.seq, ⟨envelope.msgType, payload⟩)
            else .error "invalid relay WS frame signature"

end

/-! ## The system -/

/-- A sender and a receiver. The last two fields are not in the source: the frames that were
    encoded, with their numbers, and those that were accepted, with their bytes. -/
structure Channel where
  outboundSeq : ℕ
  inboundSeq : ℕ
  sent : List (ℕ × RelayWsFrame)
  accepted : List (List UInt8 × RelayWsFrame)

inductive ChannelAction where
  | encode (frame : RelayWsFrame)
  /-- any bytes reach the receiver -/
  | deliver (raw : List UInt8)

namespace Channel

variable (p : Primitives) (sig : RequestSignature)

def step (s : Channel) : ChannelAction → Option Channel
  | .encode frame =>
    let seq := (Relay.encode p sig s.outboundSeq frame).1
    some { s with outboundSeq := seq, sent := s.sent ++ [(seq, frame)] }
  | .deliver raw =>
    match decode p sig s.inboundSeq raw with
    | .ok (seq, frame) =>
      some { s with inboundSeq := seq, accepted := s.accepted ++ [(raw, frame)] }
    | .error _ => some s

def Initial (s : Channel) : Prop :=
  s.outboundSeq = 0 ∧ s.inboundSeq = 0 ∧ s.sent = [] ∧ s.accepted = []

/-- A signature that is delivered is valid only for bytes that the sender has signed. -/
def Unforged (s : Channel) : ChannelAction → Prop
  | .deliver raw => ∀ envelope payload signature, p.fromSlice raw = some envelope →
      p.base64.decode envelope.payloadB64 = .ok payload →
      p.base64.decode envelope.signatureB64 = .ok signature →
      p.verify (signedBytes p sig envelope.seq ⟨envelope.msgType, payload⟩) signature = true →
      ∃ e ∈ s.sent, signedBytes p sig envelope.seq ⟨envelope.msgType, payload⟩ =
        signedBytes p sig e.1 e.2
  | .encode _ => True

/-- And the receiver's number is not the largest one. -/
def Numbered (s : Channel) (a : ChannelAction) : Prop :=
  Unforged p sig s a ∧ ((∃ raw, a = .deliver raw) → s.inboundSeq < u64Max)

end Channel

/-! ## The signed text -/

section

variable {p : Primitives} {sig : RequestSignature} {t t' : RelayWsMessageType}

theorem encode_injective {bytes bytes' : List UInt8}
    (h : (p.base64.encode bytes).toList = (p.base64.encode bytes').toList) : bytes = bytes' := by
  have hdecode := p.base64.decode_encode bytes
  rw [String.toList_injective h, p.base64.decode_encode, Except.ok.injEq] at hdecode
  exact hdecode.symm

theorem bar_not_mem_digits (n : ℕ) : '|' ∉ Envelope.digits n := by
  intro hmem
  have hdigit : Char.isDigit '|' = true := isDigit_of_mem_toDigits (by decide) (by decide) hmem
  revert hdigit
  decide

theorem bar_not_mem_asStr (t : RelayWsMessageType) : '|' ∉ t.asStr.toList := by cases t <;> decide

theorem asStr_injective (h : t.asStr.toList = t'.asStr.toList) : t = t' := by
  have hname := congrArg Envelope.msgType (String.toList_injective h)
  rw [Envelope.msgType_asStr, Envelope.msgType_asStr, Option.some.injEq] at hname
  exact hname

theorem digits_injective {m n : ℕ} (h : Envelope.digits m = Envelope.digits n) : m = n := by
  have hvalue : ofDigitChars 10 (Envelope.digits m) 0 = m := ofDigitChars_ten_toDigits
  rw [h] at hvalue
  exact hvalue.symm.trans ofDigitChars_ten_toDigits

variable {seq : ℕ} {seq' : ℕ}

theorem wsSigningInput_inj (hsha : Function.Injective p.sha256) {payload payload' : List UInt8}
    (h : wsSigningInput p sig seq t payload = wsSigningInput p sig seq' t' payload') :
    seq = seq' ∧ t = t' ∧ payload = payload' := by
  unfold wsSigningInput at h
  have hfields := tail_eq_of_cons_eq (append_cancel_left (tail_eq_of_cons_eq
    (append_cancel_left (append_cancel_left h))))
  obtain ⟨hseq, hrest⟩ :=
    eq_of_append_sep (bar_not_mem_digits seq) (bar_not_mem_digits seq') hfields
  obtain ⟨ht, hhash⟩ := eq_of_append_sep (bar_not_mem_asStr t) (bar_not_mem_asStr t') hrest
  exact ⟨digits_injective hseq, asStr_injective ht, hsha (encode_injective hhash)⟩

variable {frame : RelayWsFrame} {inboundSeq : ℕ} {raw : List UInt8}

theorem signedBytes_inj (hsha : Function.Injective p.sha256) {frame' : RelayWsFrame}
    (h : signedBytes p sig seq frame = signedBytes p sig seq' frame') :
    seq = seq' ∧ frame = frame' := by
  have htext := congrArg Utf8.lossy h
  unfold signedBytes at htext
  rw [Utf8.lossy_encode, Utf8.lossy_encode] at htext
  obtain ⟨hseq, ht, hpayload⟩ := wsSigningInput_inj hsha htext
  refine ⟨hseq, ?_⟩
  cases frame
  cases frame'
  exact congrArg₂ RelayWsFrame.mk ht hpayload

/-! ## What is accepted -/

theorem decode_ok (h : decode p sig inboundSeq raw = .ok (seq, frame)) :
    seq = saturatingAdd inboundSeq 1 ∧ ∃ envelope signature, p.fromSlice raw = some envelope ∧
      envelope.seq = seq ∧ envelope.msgType = frame.msgType ∧
      p.base64.decode envelope.payloadB64 = .ok frame.payload ∧
      p.base64.decode envelope.signatureB64 = .ok signature ∧
      p.verify (signedBytes p sig seq frame) signature = true := by
  unfold decode at h
  split at h
  · cases h
  · rename_i envelope hparse
    split_ifs at h
    dsimp only at h
    split_ifs at h with hseq
    split at h
    · cases h
    · rename_i hpayload
      split at h
      · cases h
      · rename_i signature hsignature
        split_ifs at h with hverify
        cases h
        exact ⟨not_not.1 hseq, envelope, signature, hparse, rfl, rfl, hpayload, hsignature, hverify⟩

theorem decode_signedEnvelope
    (hraw : p.fromSlice raw = some (signedEnvelope p sig (saturatingAdd inboundSeq 1) frame))
    (hverify : p.verify (signedBytes p sig (saturatingAdd inboundSeq 1) frame)
      (p.signBytes (signedBytes p sig (saturatingAdd inboundSeq 1) frame)) = true) :
    decode p sig inboundSeq raw = .ok (saturatingAdd inboundSeq 1, frame) := by
  unfold decode
  rw [hraw]
  simp only [signedEnvelope, ne_eq, not_true_eq_false, if_false, p.base64.decode_encode, hverify,
    if_true]

end

namespace Channel

variable {p : Primitives} {sig : RequestSignature} {s s' : Channel}

/-! ## The invariant -/

/-- The sender's frames are numbered from one, up to the largest number; the receiver has accepted
    the first of them, and the frame with the largest number may be any of those that have it. -/
structure Intact (p : Primitives) (s : Channel) : Prop where
  outbound : s.outboundSeq = min s.sent.length u64Max
  numbers : ∀ i e, s.sent[i]? = some e → e.1 = min (i + 1) u64Max
  inbound : s.inboundSeq = s.accepted.length
  bound : s.accepted.length ≤ u64Max
  first : s.accepted.length < u64Max → s.accepted.map snd = (s.sent.map snd).take s.accepted.length
  order : (s.accepted.map snd).Sublist (s.sent.map snd)
  numbered : ∀ k x, s.accepted[k]? = some x →
    ∃ envelope, p.fromSlice x.1 = some envelope ∧ envelope.seq = k + 1

theorem Intact.initial (h : Initial s) : Intact p s := by
  obtain ⟨hout, hin, hsent, haccepted⟩ := h
  constructor
  · rw [hout, hsent]
    rfl
  · rw [hsent]
    intro i e he
    cases he
  · rw [hin, haccepted]
    rfl
  · rw [haccepted]
    exact zero_le _
  · rw [haccepted]
    exact fun _ => rfl
  · rw [haccepted]
    exact nil_sublist _
  · rw [haccepted]
    intro k x hx
    cases hx

theorem Intact.nextSeq (h : Intact p s) :
    saturatingAdd s.outboundSeq 1 = min (s.sent.length + 1) u64Max := by
  have hout := h.outbound
  unfold saturatingAdd
  omega

theorem Intact.encode (h : Intact p s) (frame : RelayWsFrame) :
    Intact p { s with
      outboundSeq := saturatingAdd s.outboundSeq 1
      sent := s.sent ++ [(saturatingAdd s.outboundSeq 1, frame)] } := by
  have hbefore : s.accepted.length ≤ s.sent.length := by
    have hlength := h.order.length_le
    rwa [length_map, length_map] at hlength
  constructor
  · rw [length_append, length_singleton]
    exact h.nextSeq
  · intro i e he
    rcases getElem?_concat_cases he with hold | ⟨rfl, rfl⟩
    · exact h.numbers i e hold
    · exact h.nextSeq
  · exact h.inbound
  · exact h.bound
  · intro hlt
    rw [map_append, take_append_of_le_length]
    · exact h.first hlt
    · rw [length_map]
      exact hbefore
  · rw [map_append]
    exact h.order.trans (sublist_append_left _ _)
  · exact h.numbered

theorem Intact.position (h : Intact p s) {e : ℕ × RelayWsFrame} (he : e ∈ s.sent)
    (hseq : e.1 = s.accepted.length + 1) : ∃ i, s.sent[i]? = some e ∧ s.accepted.length ≤ i ∧
      (s.accepted.length + 1 < u64Max → i = s.accepted.length) := by
  obtain ⟨i, hi⟩ := mem_iff_getElem?.1 he
  have hnumber := h.numbers i e hi
  refine ⟨i, hi, ?_, ?_⟩
  · omega
  · intro hbelow
    omega

variable {frame : RelayWsFrame}

theorem Intact.accept (h : Intact p s) {raw : List UInt8} {envelope : SignedWsEnvelope}
    (hlt : s.accepted.length < u64Max)
    (hraw : p.fromSlice raw = some envelope) (hseq : envelope.seq = s.accepted.length + 1)
    (hsent : (s.accepted.length + 1, frame) ∈ s.sent) :
    Intact p { s with
      inboundSeq := s.accepted.length + 1
      accepted := s.accepted ++ [(raw, frame)] } := by
  obtain ⟨i, hi, hle, heq⟩ := h.position hsent rfl
  have hframe : (s.sent.map snd)[i]? = some frame := by
    rw [getElem?_map, hi]
    rfl
  constructor
  · exact h.outbound
  · exact h.numbers
  · rw [length_append, length_singleton]
  · rw [length_append, length_singleton]
    exact hlt
  · rw [length_append, length_singleton]
    intro hbelow
    rw [heq hbelow] at hframe
    rw [map_append, h.first hlt, take_add_one, hframe]
    rfl
  · -- the new frame comes after the ones that were accepted
    have hdrop : [frame].Sublist ((s.sent.map snd).drop s.accepted.length) := by
      rw [singleton_sublist, mem_iff_getElem?]
      refine ⟨i - s.accepted.length, ?_⟩
      rw [getElem?_drop, Nat.add_sub_cancel' hle]
      exact hframe
    rw [map_append, h.first hlt]
    have hboth := (Sublist.refl ((s.sent.map snd).take s.accepted.length)).append hdrop
    rwa [take_append_drop] at hboth
  · intro k x hx
    rcases getElem?_concat_cases hx with hold | ⟨rfl, rfl⟩
    · exact h.numbered k x hold
    · exact ⟨envelope, hraw, hseq⟩

theorem Intact.step {a : ChannelAction} (h : Intact p s) (hsha : Function.Injective p.sha256)
    (hok : Numbered p sig s a) (hs : s.step p sig a = some s') : Intact p s' := by
  cases a with
  | encode frame =>
    cases hs
    exact h.encode frame
  | deliver raw =>
    obtain ⟨hunforged, hbound⟩ := hok
    have hlt : s.accepted.length < u64Max := h.inbound ▸ hbound ⟨raw, rfl⟩
    simp only [Channel.step] at hs
    split at hs <;> cases hs
    · rename_i frame hdecode
      obtain ⟨hseq, envelope, signature, hraw, rfl, ht, hpayload, hsignature, hverify⟩ :=
        decode_ok hdecode
      have hnext : envelope.seq = s.accepted.length + 1 := by
        rw [hseq, h.inbound]
        exact saturatingAdd_of_le hlt
      have hframe : (⟨envelope.msgType, frame.payload⟩ : RelayWsFrame) = frame := by rw [ht]
      obtain ⟨e, he, hbytes⟩ := hunforged envelope frame.payload signature hraw hpayload hsignature
        (hframe ▸ hverify)
      rw [hframe] at hbytes
      obtain ⟨heseq, heframe⟩ := signedBytes_inj hsha hbytes
      rw [hnext]
      apply h.accept hlt hraw hnext
      rw [← hnext, heseq, heframe]
      exact he
    · exact h

theorem intact_of_reachable (hsha : Function.Injective p.sha256)
    (h : Reachable (step p sig) (Numbered p sig) Initial s) : Intact p s :=
  h.invariant (fun _ => Intact.initial) fun _ _ _ hintact hok hs => hintact.step hsha hok hs

/-! ## Every run -/

/-- With signatures that cannot be forged and an injective hash, what the receiver has accepted is
    a subsequence of the sender's frames, each with its type and payload and none twice, and no
    bytes were accepted twice; as long as nothing is delivered at the largest number. -/
theorem frames_intact (hsha : Function.Injective p.sha256)
    (h : Reachable (step p sig) (Numbered p sig) Initial s) :
    (s.accepted.map snd).Sublist (s.sent.map snd) ∧ (s.accepted.map fst).Nodup := by
  have hintact := intact_of_reachable hsha h
  refine ⟨hintact.order, ?_⟩
  rw [nodup_iff_getElem?_ne_getElem?]
  intro i j hij hj heq
  rw [length_map] at hj
  rw [getElem?_map, getElem?_map, getElem?_eq_getElem hj,
    getElem?_eq_getElem (lt_trans hij hj), Option.map_some, Option.map_some,
    Option.some.injEq] at heq
  -- equal bytes have one number
  obtain ⟨e, he, hnum⟩ := hintact.numbered i _ (getElem?_eq_getElem (lt_trans hij hj))
  obtain ⟨e', he', hnum'⟩ := hintact.numbered j _ (getElem?_eq_getElem hj)
  rw [heq, he', Option.some.injEq] at he
  rw [← he, hnum'] at hnum
  omega

/-! ## Examples -/

/-- The bytes of the sender's frame with a number. -/
def rawOf (p : Primitives) (sig : RequestSignature) (seq : ℕ) (frame : RelayWsFrame) : List UInt8 :=
  p.toVec (signedEnvelope p sig seq frame)

theorem unforged_rawOf {seq : ℕ} (hsent : (seq, frame) ∈ s.sent)
    (hread : p.fromSlice (rawOf p sig seq frame) = some (signedEnvelope p sig seq frame)) :
    Unforged p sig s (.deliver (rawOf p sig seq frame)) := by
  intro envelope payload signature hparse hpayload _ _
  rw [hread, Option.some.injEq] at hparse
  subst hparse
  refine ⟨(seq, frame), hsent, ?_⟩
  simp only [signedEnvelope, p.base64.decode_encode, Except.ok.injEq] at hpayload
  rw [← hpayload]
  rfl

/-- A signature scheme and a hash that keep their input. -/
def examplePrimitives : Primitives where
  base64 := Base64.standard
  sha256 bytes := bytes
  uuidText _ := "00000000-0000-0000-0000-000000000000"
  signBytes bytes := bytes
  verify bytes signature := bytes == signature
  toVec := Envelope.write
  fromSlice := Envelope.read

def exampleSignature : RequestSignature := ⟨0, 0⟩

/-- The text `hi`. -/
def exampleFrame : RelayWsFrame := ⟨.text, [104, 105]⟩

def exampleRaw (seq : ℕ) : List UInt8 := rawOf examplePrimitives exampleSignature seq exampleFrame

theorem read_exampleRaw (seq : ℕ) : examplePrimitives.fromSlice (exampleRaw seq) =
    some (signedEnvelope examplePrimitives exampleSignature seq exampleFrame) :=
  Envelope.read_write (Envelope.quote_not_mem_standard _) (Envelope.quote_not_mem_standard _)

theorem decode_exampleRaw (inboundSeq : ℕ) :
    decode examplePrimitives exampleSignature inboundSeq (exampleRaw (saturatingAdd inboundSeq 1)) =
      .ok (saturatingAdd inboundSeq 1, exampleFrame) :=
  decode_signedEnvelope (read_exampleRaw _) (beq_self_eq_true _)

theorem step_of_decode {raw : List UInt8} {seq : ℕ}
    (h : decode p sig s.inboundSeq raw = .ok (seq, frame)) : step p sig s (.deliver raw) =
      some { s with inboundSeq := seq, accepted := s.accepted ++ [(raw, frame)] } := by
  simp only [step, h]

/-- The sender has encoded the frame `n` times, and the receiver has accepted each. -/
def exampleChannel (n : ℕ) : Channel where
  outboundSeq := n
  inboundSeq := n
  sent := (range n).map fun i => (i + 1, exampleFrame)
  accepted := (range n).map fun i => (exampleRaw (i + 1), exampleFrame)

variable {n : ℕ}

theorem step_exampleChannel (hn : n < u64Max) :
    ∃ s₁, step examplePrimitives exampleSignature (exampleChannel n) (.encode exampleFrame) =
        some s₁ ∧ (n + 1, exampleFrame) ∈ s₁.sent ∧ s₁.inboundSeq = n ∧
      step examplePrimitives exampleSignature s₁ (.deliver (exampleRaw (n + 1))) =
        some (exampleChannel (n + 1)) := by
  have hnext : saturatingAdd n 1 = n + 1 := saturatingAdd_of_le hn
  have hdecode := decode_exampleRaw n
  rw [hnext] at hdecode
  refine ⟨_, rfl, ?_, rfl, ?_⟩
  · apply mem_append_right
    show (n + 1, exampleFrame) ∈ [(saturatingAdd n 1, exampleFrame)]
    rw [hnext]
    exact mem_cons_self
  · rw [step_of_decode hdecode]
    simp only [exampleChannel, Relay.encode, hnext, range_succ, map_append, map_singleton]

theorem reachable_exampleChannel {ok : Channel → ChannelAction → Prop} (hn : n ≤ u64Max)
    (hencode : ∀ s frame, ok s (.encode frame))
    (hdeliver : ∀ s k, k < u64Max → s.inboundSeq = k → (k + 1, exampleFrame) ∈ s.sent →
      ok s (.deliver (exampleRaw (k + 1)))) :
    Reachable (step examplePrimitives exampleSignature) ok Initial (exampleChannel n) := by
  induction n with
  | zero => exact Reachable.start ⟨rfl, rfl, rfl, rfl⟩
  | succ n ih =>
    obtain ⟨s₁, hencoded, hsent, hinbound, hdelivered⟩ := step_exampleChannel hn
    have hfirst := (ih (le_of_succ_le hn)).next (hencode _ _) hencoded
    exact hfirst.next (hdeliver s₁ n hn hinbound hsent) hdelivered

/-- Three frames are accepted in order. -/
theorem frames_accepted :
    (exampleChannel 3).accepted.map snd = [exampleFrame, exampleFrame, exampleFrame] ∧
    ((exampleChannel 3).accepted.map fst).Nodup := by
  have hreach : Reachable (step examplePrimitives exampleSignature)
      (Numbered examplePrimitives exampleSignature) Initial (exampleChannel 3) := by
    apply reachable_exampleChannel (by decide)
    · exact fun s frame => ⟨trivial, fun ⟨_, heq⟩ => nomatch heq⟩
    · intro s k hk hinbound hsent
      exact ⟨unforged_rawOf hsent (read_exampleRaw _), fun _ => hinbound ▸ hk⟩
  exact ⟨rfl, (frames_intact Function.injective_id hreach).2⟩

theorem mem_exampleChannel : (n + 1, exampleFrame) ∈ (exampleChannel (n + 1)).sent ∧
    exampleRaw (n + 1) ∈ (exampleChannel (n + 1)).accepted.map fst := by
  have hmem : n ∈ range (n + 1) := mem_range.2 (lt_succ_self n)
  refine ⟨mem_map.2 ⟨n, hmem, rfl⟩, ?_⟩
  rw [mem_map]
  exact ⟨(exampleRaw (n + 1), exampleFrame), mem_map.2 ⟨n, hmem, rfl⟩, rfl⟩

/-- Where the number does not grow, the last frame is accepted a second time. -/
theorem replayed_of_saturated (hn : n + 1 ≤ u64Max) (hlast : saturatingAdd (n + 1) 1 = n + 1) : ∃ s,
    Reachable (step examplePrimitives exampleSignature)
      (Unforged examplePrimitives exampleSignature) Initial s ∧
    s.sent.length = n + 1 ∧ s.accepted.length = n + 2 ∧
    ¬ (s.accepted.map snd).Sublist (s.sent.map snd) ∧ ¬ (s.accepted.map fst).Nodup := by
  have hreach : Reachable (step examplePrimitives exampleSignature)
      (Unforged examplePrimitives exampleSignature) Initial (exampleChannel (n + 1)) := by
    apply reachable_exampleChannel hn
    · exact fun _ _ => trivial
    · exact fun s k _ _ hsent => unforged_rawOf hsent (read_exampleRaw _)
  obtain ⟨hsent, hbefore⟩ := mem_exampleChannel (n := n)
  have hdecode := decode_exampleRaw (n + 1)
  rw [hlast] at hdecode
  have hlength : (exampleChannel (n + 1)).accepted.length = n + 1 := by
    simp only [exampleChannel, length_map, length_range]
  have hlength' : (exampleChannel (n + 1)).sent.length = n + 1 := by
    simp only [exampleChannel, length_map, length_range]
  refine ⟨_, hreach.next (unforged_rawOf hsent (read_exampleRaw _)) (step_of_decode hdecode),
    hlength', ?_, ?_, ?_⟩
  · rw [length_append, hlength, length_singleton]
  · intro hsub
    have hle := hsub.length_le
    rw [length_map, length_map, length_append, hlength, hlength', length_singleton] at hle
    omega
  · rw [map_append, nodup_append]
    rintro ⟨-, -, hdisjoint⟩
    exact hdisjoint _ hbefore _ (mem_singleton_self _) rfl

/-- After as many frames as there are numbers, the last one is accepted again. -/
theorem last_frame_replayed : ∃ s, Reachable (step examplePrimitives exampleSignature)
      (Unforged examplePrimitives exampleSignature) Initial s ∧
    s.sent.length = u64Max ∧ s.accepted.length = u64Max + 1 ∧
    ¬ (s.accepted.map snd).Sublist (s.sent.map snd) ∧ ¬ (s.accepted.map fst).Nodup :=
  replayed_of_saturated (le_refl u64Max) (by decide)

end Channel

end VibeKanban.Relay
