import Mathlib

/-!
# Base64

A codec between byte strings and texts, as its users see it, and the standard padded alphabet (RFC
4648, section 4) as one: `decodeChars_encodeChars`.
-/

namespace VibeKanban.Lib.Base64

open List

/-- An encoding of byte strings; decoding a text that is no encoding gives the message of an
    error. -/
structure Codec where
  encode : List UInt8 → String
  decode : String → Except String (List UInt8)
  decode_encode : ∀ bytes, decode (encode bytes) = .ok bytes

/-! ## The standard alphabet -/

/-- The digits, in order of their values. -/
def alphabet : List Char :=
  "ABCDEFGHIJKLMNOPQRSTUVWXYZabcdefghijklmnopqrstuvwxyz0123456789+/".toList

def digit (n : ℕ) : Char := alphabet.getD n '='

/-- The value of a digit, `none` for any other character. -/
def value (c : Char) : Option ℕ := alphabet.findIdx? (· == c)

theorem value_digit : ∀ n < 64, value (digit n) = some n := by decide +kernel

theorem digit_ne_pad : ∀ n < 64, digit n ≠ '=' := by decide +kernel

/-- Three bytes give four digits; one or two bytes at the end are padded. -/
def encodeChars : List UInt8 → List Char
  | a :: b :: c :: rest =>
    digit (a.toNat / 4) :: digit (a.toNat % 4 * 16 + b.toNat / 16) ::
      digit (b.toNat % 16 * 4 + c.toNat / 64) :: digit (c.toNat % 64) :: encodeChars rest
  | [a, b] =>
    [digit (a.toNat / 4), digit (a.toNat % 4 * 16 + b.toNat / 16), digit (b.toNat % 16 * 4), '=']
  | [a] => [digit (a.toNat / 4), digit (a.toNat % 4 * 16), '=', '=']
  | [] => []

/-- Four characters give up to three bytes; unused bits of a padded group are zero. -/
def decodeChars : List Char → Option (List UInt8)
  | c₁ :: c₂ :: c₃ :: c₄ :: rest =>
    match value c₁, value c₂ with
    | some x, some y =>
      if c₃ = '=' then
        if c₄ = '=' ∧ rest = [] ∧ y % 16 = 0 then some [UInt8.ofNat (x * 4 + y / 16)] else none
      else if c₄ = '=' then
        match value c₃ with
        | some z =>
          if rest = [] ∧ z % 4 = 0 then
            some [UInt8.ofNat (x * 4 + y / 16), UInt8.ofNat (y % 16 * 16 + z / 4)]
          else none
        | none => none
      else
        match value c₃, value c₄, decodeChars rest with
        | some z, some w, some bytes =>
          some (UInt8.ofNat (x * 4 + y / 16) :: UInt8.ofNat (y % 16 * 16 + z / 4) ::
            UInt8.ofNat (z % 4 * 64 + w) :: bytes)
        | _, _, _ => none
    | _, _ => none
  | [] => some []
  | _ => none

theorem ofNat_eq {n : ℕ} {b : UInt8} (h : n = b.toNat) : UInt8.ofNat n = b := by
  rw [h, UInt8.ofNat_toNat]

theorem decodeChars_encodeChars (bytes : List UInt8) :
    decodeChars (encodeChars bytes) = some bytes := by
  induction bytes using encodeChars.induct with
  | case1 a b c rest ih =>
    have ha := a.toNat_lt
    have hb := b.toNat_lt
    have hc := c.toNat_lt
    have h1 := value_digit (a.toNat / 4) (by omega)
    have h2 := value_digit (a.toNat % 4 * 16 + b.toNat / 16) (by omega)
    have h3 := value_digit (b.toNat % 16 * 4 + c.toNat / 64) (by omega)
    have h4 := value_digit (c.toNat % 64) (by omega)
    have h5 := digit_ne_pad (b.toNat % 16 * 4 + c.toNat / 64) (by omega)
    have h6 := digit_ne_pad (c.toNat % 64) (by omega)
    simp only [encodeChars, decodeChars, h1, h2, h3, h4, h5, h6, ih, if_false, Option.some.injEq,
      cons.injEq, and_true]
    exact ⟨ofNat_eq (by omega), ofNat_eq (by omega), ofNat_eq (by omega)⟩
  | case2 a b =>
    have ha := a.toNat_lt
    have hb := b.toNat_lt
    have h1 := value_digit (a.toNat / 4) (by omega)
    have h2 := value_digit (a.toNat % 4 * 16 + b.toNat / 16) (by omega)
    have h3 := value_digit (b.toNat % 16 * 4) (by omega)
    have h4 := digit_ne_pad (b.toNat % 16 * 4) (by omega)
    have h5 : b.toNat % 16 * 4 % 4 = 0 := by omega
    simp only [encodeChars, decodeChars, h1, h2, h3, h4, h5, if_false, if_true, and_self,
      Option.some.injEq, cons.injEq, and_true]
    exact ⟨ofNat_eq (by omega), ofNat_eq (by omega)⟩
  | case3 a =>
    have ha := a.toNat_lt
    have h1 := value_digit (a.toNat / 4) (by omega)
    have h2 := value_digit (a.toNat % 4 * 16) (by omega)
    have h3 : a.toNat % 4 * 16 % 16 = 0 := by omega
    simp only [encodeChars, decodeChars, h1, h2, h3, if_true, and_self, Option.some.injEq,
      cons.injEq, and_true]
    exact ofNat_eq (by omega)
  | case4 => rfl

theorem digit_mem (n : ℕ) : digit n ∈ alphabet ∨ digit n = '=' := by
  by_cases hn : n < alphabet.length
  · left
    rw [digit, getD_eq_getElem _ _ hn]
    exact getElem_mem hn
  · right
    exact getD_eq_default _ _ (Nat.le_of_not_lt hn)

theorem mem_encodeChars {bytes : List UInt8} {c : Char} (h : c ∈ encodeChars bytes) :
    c ∈ alphabet ∨ c = '=' := by
  induction bytes using encodeChars.induct with
  | case1 a b d rest ih =>
    simp only [encodeChars, mem_cons] at h
    rcases h with rfl | rfl | rfl | rfl | h
    iterate 4 exact digit_mem _
    exact ih h
  | case2 a b =>
    simp only [encodeChars, mem_cons, not_mem_nil, or_false] at h
    rcases h with rfl | rfl | rfl | rfl
    iterate 3 exact digit_mem _
    exact .inr rfl
  | case3 a =>
    simp only [encodeChars, mem_cons, not_mem_nil, or_false] at h
    rcases h with rfl | rfl | rfl | rfl
    iterate 2 exact digit_mem _
    all_goals exact .inr rfl
  | case4 => cases h

def standard : Codec where
  encode bytes := String.ofList (encodeChars bytes)
  decode text :=
    match decodeChars text.toList with
    | some bytes => .ok bytes
    | none => .error "Invalid padding"
  decode_encode bytes := by rw [String.toList_ofList, decodeChars_encodeChars]

end VibeKanban.Lib.Base64
