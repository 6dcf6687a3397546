import VibeKanban.Lib.Cut
import VibeKanban.Lib.Utf8

/-!
# Form encoding

The format `application/x-www-form-urlencoded` (URL Standard, section 5): pairs of texts, written as
bytes. Parsing accepts any bytes, and gives back what was written (`parse_serialize`).
-/

namespace VibeKanban.Lib.FormUrlencoded

open List

abbrev Text := List Char

/-! ## Writing -/

/-- Letters, digits and `*-._` stand for themselves. -/
def isUnchanged (b : UInt8) : Bool :=
  (48 ≤ b && b ≤ 57) || (65 ≤ b && b ≤ 90) || (97 ≤ b && b ≤ 122) || b == 42 || b == 45 ||
    b == 46 || b == 95

def hexDigit (n : ℕ) : UInt8 := UInt8.ofNat (if n < 10 then 48 + n else 55 + n)

/-- A blank is written as `+`, other bytes as `%XX`. -/
def encodeByte (b : UInt8) : List UInt8 :=
  if isUnchanged b then [b]
  else if b = 32 then [43]
  else [37, hexDigit (b.toNat / 16), hexDigit (b.toNat % 16)]

def encodeText (text : Text) : List UInt8 := (Utf8.encode text).flatMap encodeByte

/-- `key=value` -/
def encodePair (pair : Text × Text) : List UInt8 := encodeText pair.1 ++ 61 :: encodeText pair.2

/-- The pairs with `&` between them. -/
def serialize (pairs : List (Text × Text)) : List UInt8 :=
  List.intercalate [38] (pairs.map encodePair)

/-! ## Reading -/

def hexValue (b : UInt8) : Option ℕ :=
  if 48 ≤ b ∧ b ≤ 57 then some (b.toNat - 48)
  else if 65 ≤ b ∧ b ≤ 70 then some (b.toNat - 55)
  else if 97 ≤ b ∧ b ≤ 102 then some (b.toNat - 87)
  else none

/-- A `%` without two digits stands for itself. -/
def percentDecode : List UInt8 → List UInt8
  | [] => []
  | [b] => [b]
  | [b, c] => [b, c]
  | b :: c :: d :: rest =>
    if b = 37 then
      match hexValue c, hexValue d with
      | some x, some y => UInt8.ofNat (16 * x + y) :: percentDecode rest
      | _, _ => b :: percentDecode (c :: d :: rest)
    else b :: percentDecode (c :: d :: rest)

def replacePlus (bytes : List UInt8) : List UInt8 := bytes.map fun b => if b = 43 then 32 else b

def decode (bytes : List UInt8) : Text := Utf8.lossy (percentDecode (replacePlus bytes))

/-- Cut at the first `=`. -/
def parsePair (bytes : List UInt8) : Text × Text :=
  match splitOnce 61 bytes with
  | some (key, value) => (decode key, decode value)
  | none => (decode bytes, [])

/-- Empty parts between `&` are left out. -/
def parse (input : List UInt8) : List (Text × Text) :=
  ((input.splitOn 38).filter (· ≠ [])).map parsePair

/-! ## A byte -/

/-- What is written of a byte, and how it is read. -/
theorem encodeByte_spec : ∀ n < 256,
    (encodeByte (UInt8.ofNat n)).all (fun b => b < 128 ∧ b ≠ 38 ∧ b ≠ 61) ∧
      (isUnchanged (UInt8.ofNat n) = true → UInt8.ofNat n ≠ 43 ∧ UInt8.ofNat n ≠ 37) := by
  decide +kernel

theorem hexDigit_spec : ∀ n < 16, hexDigit n ≠ 43 ∧ hexValue (hexDigit n) = some n := by
  decide +kernel

theorem of_encodeByte (b : UInt8) : (∀ c ∈ encodeByte b, c < 128 ∧ c ≠ 38 ∧ c ≠ 61) ∧
    (isUnchanged b = true → b ≠ 43 ∧ b ≠ 37) := by
  have h := encodeByte_spec b.toNat b.toNat_lt
  rw [UInt8.ofNat_toNat] at h
  simpa only [all_eq_true, decide_eq_true_eq] using h

variable {b : UInt8}

theorem percentDecode_cons (h : b ≠ 37) (rest : List UInt8) :
    percentDecode (b :: rest) = b :: percentDecode rest := by
  match rest with
  | [] => rfl
  | [c] => rfl
  | c :: d :: rest => rw [percentDecode, if_neg h]

theorem percentDecode_replacePlus_encodeByte (b : UInt8) (rest : List UInt8) :
    percentDecode (replacePlus (encodeByte b ++ rest)) = b :: percentDecode (replacePlus rest) := by
  unfold encodeByte replacePlus
  split_ifs with hsame hblank
  · obtain ⟨hplus, hpercent⟩ := (of_encodeByte b).2 hsame
    simp [hplus, percentDecode_cons hpercent]
  · rw [hblank]
    exact percentDecode_cons (by decide) _
  · have hlt := b.toNat_lt
    obtain ⟨hplus, hvalue⟩ := hexDigit_spec (b.toNat / 16) (by omega)
    obtain ⟨hplus', hvalue'⟩ := hexDigit_spec (b.toNat % 16) (by omega)
    have hbyte : 16 * (b.toNat / 16) + b.toNat % 16 = b.toNat := Nat.div_add_mod b.toNat 16
    simp [percentDecode, hplus, hplus', hvalue, hvalue', hbyte]

/-! ## Texts and pairs -/

theorem decode_encodeText (text : Text) : decode (encodeText text) = text := by
  have hbytes : ∀ bytes : List UInt8,
      percentDecode (replacePlus (bytes.flatMap encodeByte)) = bytes := by
    intro bytes
    induction bytes with
    | nil => rfl
    | cons b bytes ih => rw [flatMap_cons, percentDecode_replacePlus_encodeByte, ih]
  rw [decode, encodeText, hbytes, Utf8.lossy_encode]

theorem mem_encodeText {text : Text} (h : b ∈ encodeText text) : b < 128 ∧ b ≠ 38 ∧ b ≠ 61 := by
  obtain ⟨c, -, hb⟩ := mem_flatMap.1 h
  exact (of_encodeByte c).1 b hb

theorem parsePair_encodePair (pair : Text × Text) : parsePair (encodePair pair) = pair := by
  have hkey : 61 ∉ encodeText pair.1 := fun h => (mem_encodeText h).2.2 rfl
  rw [parsePair, encodePair, splitOnce_append hkey]
  show (decode (encodeText pair.1), decode (encodeText pair.2)) = pair
  rw [decode_encodeText, decode_encodeText]

theorem notMem_encodePair (pair : Text × Text) : 38 ∉ encodePair pair := by
  intro h
  rcases mem_append.1 h with h | h
  · exact (mem_encodeText h).2.1 rfl
  · rcases mem_cons.1 h with h | h
    · cases h
    · exact (mem_encodeText h).2.1 rfl

/-- Pairs that are written are read again. -/
theorem parse_serialize (pairs : List (Text × Text)) : parse (serialize pairs) = pairs := by
  by_cases hnil : pairs = []
  · rw [hnil]
    decide
  · have hsplit : (serialize pairs).splitOn 38 = pairs.map encodePair := by
      apply splitOn_intercalate
      · intro part hpart
        obtain ⟨pair, -, rfl⟩ := mem_map.1 hpart
        exact notMem_encodePair pair
      · simpa using hnil
    have hkeep : (pairs.map encodePair).filter (· ≠ []) = pairs.map encodePair := by
      rw [filter_eq_self]
      intro part hpart
      obtain ⟨pair, -, rfl⟩ := mem_map.1 hpart
      simp [encodePair]
    rw [parse, hsplit, hkeep, map_map]
    show pairs.map (fun pair => parsePair (encodePair pair)) = pairs
    simp [parsePair_encodePair]

variable {pairs : List (Text × Text)}

theorem serialize_eq_nil_iff : serialize pairs = [] ↔ pairs = [] := by
  constructor
  · intro h
    rw [← parse_serialize pairs, h]
    decide
  · rintro rfl
    rfl

/-! ## As a text -/

/-- The text of ASCII bytes. -/
def asciiText (bytes : List UInt8) : Text := bytes.map fun b => Char.ofNat b.toNat

theorem encode_asciiText {bytes : List UInt8} (h : ∀ b ∈ bytes, b < 128) :
    Utf8.encode (asciiText bytes) = bytes := by
  have hbyte : ∀ n < 128, String.utf8EncodeChar (Char.ofNat n) = [UInt8.ofNat n] := by
    decide +kernel
  induction bytes with
  | nil => rfl
  | cons b bytes ih =>
    obtain ⟨hb, hrest⟩ := forall_mem_cons.1 h
    show String.utf8EncodeChar (Char.ofNat b.toNat) ++ Utf8.encode (asciiText bytes) = b :: bytes
    rw [hbyte b.toNat (UInt8.lt_iff_toNat_lt.1 hb), ih hrest, UInt8.ofNat_toNat]
    rfl

theorem lt_of_mem_serialize (h : b ∈ serialize pairs) : b < 128 := by
  induction pairs with
  | nil => cases h
  | cons pair pairs ih =>
    have hpair : ∀ b ∈ encodePair pair, b < 128 := by
      intro b hb
      rcases mem_append.1 hb with hb | hb
      · exact (mem_encodeText hb).1
      · rcases mem_cons.1 hb with rfl | hb
        · decide
        · exact (mem_encodeText hb).1
    cases pairs with
    | nil => exact hpair b (by simpa [serialize] using h)
    | cons next pairs =>
      unfold serialize at h ih
      rw [map_cons, map_cons, intercalate_cons_cons, mem_append,
        mem_append] at h
      rcases h with (h | h) | h
      · exact hpair b h
      · rw [mem_singleton.1 h]
        decide
      · exact ih h

theorem parse_encode_serialize (pairs : List (Text × Text)) :
    parse (Utf8.encode (asciiText (serialize pairs))) = pairs := by
  rw [encode_asciiText fun b hb => lt_of_mem_serialize hb, parse_serialize]

end VibeKanban.Lib.FormUrlencoded
