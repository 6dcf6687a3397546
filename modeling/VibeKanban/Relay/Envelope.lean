import VibeKanban.Cluster.Protocol
import VibeKanban.Lib.Base64
import VibeKanban.Lib.Utf8

/-!
# The envelope of a relay frame

`SignedWsEnvelope` (`relay-ws/src/crypto.rs`, lines 134-141) and its JSON text; the reader takes
texts without white space, whose strings need no escape: `read_write`.
-/

namespace VibeKanban.Relay

open Lib List Option

/-- `RelayWsMessageType` (`relay-protocol/src/lib.rs`). -/
inductive RelayWsMessageType where
  | text
  | binary
  | ping
  | pong
  | close
  deriving DecidableEq

def RelayWsMessageType.asStr : RelayWsMessageType → String
  | .text => "text"
  | .binary => "binary"
  | .ping => "ping"
  | .pong => "pong"
  | .close => "close"

structure SignedWsEnvelope where
  version : ℕ
  seq : ℕ
  msgType : RelayWsMessageType
  payloadB64 : String
  signatureB64 : String

namespace Envelope

/-! ## The text -/

def digits (n : ℕ) : List Char := Nat.toDigits 10 n

def text (e : SignedWsEnvelope) : List Char :=
  "\x7b\"version\":".toList ++ (digits e.version ++ (",\"seq\":".toList ++ (digits e.seq ++
    (",\"msg_type\":\"".toList ++ (e.msgType.asStr.toList ++ ("\",\"payload_b64\":\"".toList ++
      (e.payloadB64.toList ++ ("\",\"signature_b64\":\"".toList ++
        (e.signatureB64.toList ++ "\"\x7d".toList)))))))))

def expect : List Char → List Char → Option (List Char)
  | [], rest => some rest
  | c :: lit, d :: rest => if c = d then expect lit rest else none
  | _ :: _, [] => none

def number (text : List Char) : Option (ℕ × List Char) :=
  match text.takeWhile Char.isDigit with
  | [] => none
  | c :: cs => some (Nat.ofDigitChars 10 (c :: cs) 0, text.dropWhile Char.isDigit)

/-- Reads to the next quote. -/
def string (text : List Char) : String × List Char :=
  (String.ofList (text.takeWhile (· ≠ '"')), text.dropWhile (· ≠ '"'))

def msgType (name : String) : Option RelayWsMessageType :=
  [.text, .binary, .ping, .pong, .close].find? fun t => t.asStr == name

def parse (text : List Char) : Option SignedWsEnvelope := do
  let rest ← expect "\x7b\"version\":".toList text
  let (version, rest) ← number rest
  let rest ← expect ",\"seq\":".toList rest
  let (seq, rest) ← number rest
  let rest ← expect ",\"msg_type\":\"".toList rest
  let t ← msgType (string rest).1
  let rest ← expect "\",\"payload_b64\":\"".toList (string rest).2
  let payload := string rest
  let rest ← expect "\",\"signature_b64\":\"".toList payload.2
  let signature := string rest
  let rest ← expect "\"\x7d".toList signature.2
  if rest = [] then some ⟨version, seq, t, payload.1, signature.1⟩ else none

/-- `serde_json::to_vec` -/
def write (e : SignedWsEnvelope) : List UInt8 := Utf8.encode (text e)

/-- `serde_json::from_slice` -/
def read (raw : List UInt8) : Option SignedWsEnvelope := parse (Utf8.lossy raw)

/-! ## Reading back -/

theorem expect_append (lit rest : List Char) : expect lit (lit ++ rest) = some rest := by
  induction lit with
  | nil => rfl
  | cons c lit ih => rw [cons_append, expect, if_pos rfl, ih]

variable {lit : List Char}

theorem takeWhile_append_of {p : Char → Bool} {l : List Char} {c : Char} (rest : List Char)
    (hl : ∀ d ∈ l, p d = true) (hlit : lit.head? = some c) (hc : p c = false) :
    (l ++ (lit ++ rest)).takeWhile p = l ∧ (l ++ (lit ++ rest)).dropWhile p = lit ++ rest := by
  obtain ⟨tail, rfl⟩ := head?_eq_some_iff.1 hlit
  rw [takeWhile_append_of_pos hl, dropWhile_append_of_pos hl, cons_append,
    takeWhile_cons_of_neg (hc ▸ Bool.false_ne_true),
    dropWhile_cons_of_neg (hc ▸ Bool.false_ne_true), append_nil]
  exact ⟨rfl, rfl⟩

theorem number_digits (n : ℕ) {rest : List Char} (hlit : lit.head? = some ',') :
    number (digits n ++ (lit ++ rest)) = some (n, lit ++ rest) := by
  have hdigits : ∀ c ∈ digits n, c.isDigit = true :=
    fun c hc => Nat.isDigit_of_mem_toDigits (by decide) (by decide) hc
  have hcomma : Char.isDigit ',' = false := by decide
  obtain ⟨htake, hdrop⟩ := takeWhile_append_of rest hdigits hlit hcomma
  have hne : digits n ≠ [] := Nat.toDigits_ne_nil
  have hvalue : Nat.ofDigitChars 10 (digits n) 0 = n := Nat.ofDigitChars_ten_toDigits
  unfold number
  rw [htake, hdrop]
  cases hcs : digits n with
  | nil => exact absurd hcs hne
  | cons c cs =>
    rw [hcs] at hvalue
    show some (Nat.ofDigitChars 10 (c :: cs) 0, lit ++ rest) = _
    rw [hvalue]

theorem string_append {s : String} (rest : List Char) (hs : '"' ∉ s.toList)
    (hlit : lit.head? = some '"') : string (s.toList ++ (lit ++ rest)) = (s, lit ++ rest) := by
  have hl : ∀ c ∈ s.toList, decide (c ≠ '"') = true := by
    intro c hc
    rw [decide_eq_true_iff]
    rintro rfl
    exact hs hc
  have hquote : decide ('"' ≠ '"') = false := by decide
  obtain ⟨htake, hdrop⟩ := takeWhile_append_of rest hl hlit hquote
  unfold string
  rw [htake, hdrop, String.ofList_toList]

theorem msgType_asStr (t : RelayWsMessageType) : msgType t.asStr = some t := by cases t <;> decide

theorem quote_not_mem_asStr (t : RelayWsMessageType) : '"' ∉ t.asStr.toList := by cases t <;> decide

variable {e : SignedWsEnvelope}

section

variable (hpayload : '"' ∉ e.payloadB64.toList) (hsignature : '"' ∉ e.signatureB64.toList)
include hpayload hsignature

theorem parse_text : parse (text e) = some e := by
  have hend : string (e.signatureB64.toList ++ "\"\x7d".toList) =
      (e.signatureB64, "\"\x7d".toList) := by
    rw [← append_nil "\"\x7d".toList]
    exact string_append [] hsignature rfl
  have hlast : expect "\"\x7d".toList "\"\x7d".toList = some [] := by decide
  unfold parse text
  simp only [bind_eq_bind, bind_some, expect_append]
  rw [number_digits e.version rfl]
  simp only [bind_some, expect_append]
  rw [number_digits e.seq rfl]
  simp only [bind_some, expect_append]
  rw [string_append _ (quote_not_mem_asStr e.msgType) rfl, msgType_asStr]
  simp only [bind_some, expect_append]
  rw [string_append _ hpayload rfl]
  simp only [bind_some, expect_append]
  rw [hend]
  simp only [hlast, bind_some, if_true]

theorem read_write : read (write e) = some e := by
  rw [read, write, Utf8.lossy_encode]
  exact parse_text hpayload hsignature

end

theorem quote_not_mem_standard (bytes : List UInt8) :
    '"' ∉ (Base64.standard.encode bytes).toList := by
  show '"' ∉ (String.ofList (Base64.encodeChars bytes)).toList
  rw [String.toList_ofList]
  intro h
  rcases Base64.mem_encodeChars h with h | h
  all_goals
    revert h
    decide

end Envelope

end VibeKanban.Relay
