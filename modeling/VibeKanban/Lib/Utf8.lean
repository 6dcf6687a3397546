import Mathlib

/-!
# Lossy UTF-8 decoding

The decoder that replaces every maximal ill-formed subsequence by U+FFFD (Unicode, section 3.9;
`String::from_utf8_lossy` in Rust), on lists of bytes, against Lean's encoder
`String.utf8EncodeChar`: `lossy_encode_append`, `lossy_chunks_eq_iff`.
-/

namespace VibeKanban.Lib.Utf8

open List UInt8

/-! ## The decoder -/

/-- U+FFFD, the replacement character. -/
def replacement : Char := Char.ofNat 0xFFFD

/-- A continuation byte `10xxxxxx`. -/
def isContinuation (b : UInt8) : Bool := 0x80 ≤ b.toNat ∧ b.toNat ≤ 0xBF

/-- The second bytes allowed after a leading byte of a three-byte sequence. -/
def isSecondOfThree (x y : ℕ) : Bool :=
  x = 0xE0 ∧ 0xA0 ≤ y ∧ y ≤ 0xBF ∨ 0xE1 ≤ x ∧ x ≤ 0xEC ∧ 0x80 ≤ y ∧ y ≤ 0xBF ∨
    x = 0xED ∧ 0x80 ≤ y ∧ y ≤ 0x9F ∨ 0xEE ≤ x ∧ x ≤ 0xEF ∧ 0x80 ≤ y ∧ y ≤ 0xBF

/-- The second bytes allowed after a leading byte of a four-byte sequence. -/
def isSecondOfFour (x y : ℕ) : Bool :=
  x = 0xF0 ∧ 0x90 ≤ y ∧ y ≤ 0xBF ∨ 0xF1 ≤ x ∧ x ≤ 0xF3 ∧ 0x80 ≤ y ∧ y ≤ 0xBF ∨
    x = 0xF4 ∧ 0x80 ≤ y ∧ y ≤ 0x8F

/-- The character that starts at the byte `b` and how many bytes of `rest` it takes; an
    ill-formed or cut-off sequence gives the replacement character for its longest
    well-formed beginning. Past the end, a byte reads as zero. -/
def decodeUnit (b : UInt8) (rest : List UInt8) : Char × ℕ :=
  let x := b.toNat
  let y := (rest.getD 0 0).toNat
  let z := (rest.getD 1 0).toNat
  let w := (rest.getD 2 0).toNat
  if x < 0x80 then (Char.ofNat x, 0)
  else if 0xC2 ≤ x ∧ x ≤ 0xDF then
    if isContinuation (rest.getD 0 0) then (Char.ofNat (x % 32 * 64 + y % 64), 1)
    else (replacement, 0)
  else if 0xE0 ≤ x ∧ x ≤ 0xEF then
    if isSecondOfThree x y then
      if isContinuation (rest.getD 1 0) then (Char.ofNat (x % 16 * 4096 + y % 64 * 64 + z % 64), 2)
      else (replacement, 1)
    else (replacement, 0)
  else if 0xF0 ≤ x ∧ x ≤ 0xF4 then
    if isSecondOfFour x y then
      if isContinuation (rest.getD 1 0) then
        if isContinuation (rest.getD 2 0) then
          (Char.ofNat (x % 8 * 262144 + y % 64 * 4096 + z % 64 * 64 + w % 64), 3)
        else (replacement, 2)
      else (replacement, 1)
    else (replacement, 0)
  else (replacement, 0)

/-- Decodes after skipping the given number of bytes, which belong to the character before. -/
def lossyFrom : ℕ → List UInt8 → List Char
  | _, [] => []
  | skip + 1, _ :: rest => lossyFrom skip rest
  | 0, b :: rest => (decodeUnit b rest).1 :: lossyFrom (decodeUnit b rest).2 rest

/-- Lossy decoding. -/
def lossy (bytes : List UInt8) : List Char := lossyFrom 0 bytes

/-- The encoding of a text. -/
def encode (text : List Char) : List UInt8 := text.flatMap String.utf8EncodeChar

@[simp] theorem encode_nil : encode [] = [] := rfl

@[simp] theorem encode_cons (c : Char) (text : List Char) :
    encode (c :: text) = String.utf8EncodeChar c ++ encode text := rfl

@[simp] theorem lossy_nil : lossy [] = [] := rfl

/-! ## One character -/

theorem toNat_lt_or (c : Char) : c.toNat < 0xD800 ∨ 0xDFFF < c.toNat ∧ c.toNat < 0x110000 := by
  have h := c.valid
  simpa [UInt32.isValidChar, Nat.isValidChar] using h

variable {n : ℕ}

theorem isContinuation_ofNat (h1 : 0x80 ≤ n) (h2 : n ≤ 0xBF) : isContinuation (ofNat n) = true := by
  have h3 : (ofNat n).toNat = n := by
    rw [toNat_ofNat']
    omega
  simp only [isContinuation, h3, h1, h2, and_self, decide_true]

theorem toNat_ofNat (h : n < 256) : (ofNat n).toNat = n := by
  rw [toNat_ofNat']
  omega

/-- The shape of an encoded character: a byte that is no continuation byte, then
    continuation bytes; the decoder takes exactly these and gives the character back. -/
theorem utf8EncodeChar_spec (c : Char) : ∃ b tail, String.utf8EncodeChar c = b :: tail ∧
    isContinuation b = false ∧ (∀ t ∈ tail, isContinuation t = true) ∧
    ∀ rest, decodeUnit b (tail ++ rest) = (c, tail.length) := by
  have hv := toNat_lt_or c
  have hc : Char.ofNat c.toNat = c := Char.ofNat_toNat c
  have hval : c.val.toNat = c.toNat := rfl
  unfold String.utf8EncodeChar
  dsimp only
  rw [hval]
  generalize c.toNat = v at hv hc
  split_ifs
  all_goals
    refine ⟨_, _, rfl, ?_, ?_, fun rest => ?_⟩
    · refine decide_eq_false ?_
      rw [toNat_ofNat] <;> omega
    · simp (disch := omega) only [forall_mem_cons, isContinuation_ofNat, not_mem_nil,
        IsEmpty.forall_iff, implies_true, and_self]
    · simp (disch := omega) only [decodeUnit, cons_append, nil_append, getD_cons_zero,
        getD_cons_succ, toNat_ofNat, isContinuation_ofNat, isSecondOfThree, isSecondOfFour, if_pos,
        if_neg, decide_eq_true_eq]
      exact Prod.ext ((congrArg Char.ofNat (by omega)).trans hc) rfl

/-! ## Decoding an encoding -/

theorem lossyFrom_length_append (skipped rest : List UInt8) :
    lossyFrom skipped.length (skipped ++ rest) = lossyFrom 0 rest := by
  induction skipped with
  | nil => rfl
  | cons b skipped ih => exact ih

theorem lossy_encode_append (text : List Char) (rest : List UInt8) :
    lossy (encode text ++ rest) = text ++ lossy rest := by
  induction text with
  | nil => rfl
  | cons c text ih =>
    obtain ⟨b, tail, h1, -, -, h4⟩ := utf8EncodeChar_spec c
    rw [encode_cons, h1, append_assoc, cons_append, lossy, lossyFrom, h4, lossyFrom_length_append]
    exact congrArg (c :: ·) ih

/-- The decoder inverts the encoder. -/
@[simp] theorem lossy_encode (text : List Char) : lossy (encode text) = text := by
  simpa using lossy_encode_append text []

/-! ## Counting bytes that start a character -/

/-- The number of bytes that are not continuation bytes. -/
def starts (bytes : List UInt8) : ℕ := bytes.countP (fun b => !isContinuation b)

@[simp] theorem starts_append (l r : List UInt8) : starts (l ++ r) = starts l + starts r :=
  countP_append

@[simp] theorem starts_flatten (chunks : List (List UInt8)) :
    starts chunks.flatten = (chunks.map starts).sum := by
  induction chunks with
  | nil => rfl
  | cons chunk chunks ih => rw [flatten_cons, starts_append, ih, map_cons, sum_cons]

variable {bytes : List UInt8}

theorem starts_eq_zero (h : ∀ b ∈ bytes, isContinuation b = true) : starts bytes = 0 := by
  rw [starts, countP_eq_zero]
  intro b hb
  simp [h b hb]

/-- An encoding has one such byte for each character. -/
@[simp] theorem starts_encode (text : List Char) : starts (encode text) = text.length := by
  induction text with
  | nil => rfl
  | cons c text ih =>
    obtain ⟨b, tail, h1, h2, h3, -⟩ := utf8EncodeChar_spec c
    have h4 : starts (b :: tail) = 1 := by
      have h5 : starts (b :: tail) = starts [b] + starts tail := starts_append [b] tail
      rw [h5, starts_eq_zero h3]
      simp [starts, h2]
    rw [encode_cons, starts_append, h1, h4, ih, length_cons, Nat.add_comm]

/-- The bytes that a character takes after its first are continuation bytes. -/
theorem isContinuation_of_decodeUnit (b : UInt8) (rest : List UInt8) {i : ℕ}
    (h : i < (decodeUnit b rest).2) : isContinuation (rest.getD i 0) = true := by
  have hthree : ∀ x, isSecondOfThree x (rest.getD 0 0).toNat = true →
      isContinuation (rest.getD 0 0) = true := by
    intro x hx
    simp only [isSecondOfThree, isContinuation, decide_eq_true_eq] at hx ⊢
    omega
  have hfour : ∀ x, isSecondOfFour x (rest.getD 0 0).toNat = true →
      isContinuation (rest.getD 0 0) = true := by
    intro x hx
    simp only [isSecondOfFour, isContinuation, decide_eq_true_eq] at hx ⊢
    omega
  unfold decodeUnit at h
  dsimp only at h
  split_ifs at h with h1 h2 h3 h4 h5 h6 h7 h8 h9 h10
  all_goals first
    | exact absurd h (Nat.not_lt_zero i)
    | skip
  · obtain rfl : i = 0 := by omega
    exact h3
  · obtain rfl | rfl : i = 0 ∨ i = 1 := by omega
    · exact hthree _ h5
    · exact h6
  · obtain rfl : i = 0 := by omega
    exact hthree _ h5
  · obtain rfl | rfl | rfl : i = 0 ∨ i = 1 ∨ i = 2 := by omega
    · exact hfour _ h8
    · exact h9
    · exact h10
  · obtain rfl | rfl : i = 0 ∨ i = 1 := by omega
    · exact hfour _ h8
    · exact h9
  · obtain rfl : i = 0 := by omega
    exact hfour _ h8

theorem starts_take_decodeUnit (b : UInt8) (rest : List UInt8) :
    starts (rest.take (decodeUnit b rest).2) = 0 := by
  refine starts_eq_zero fun c hc => ?_
  obtain ⟨i, hi, rfl⟩ := mem_iff_getElem.1 hc
  rw [length_take] at hi
  have h : isContinuation (rest.getD i 0) = true := isContinuation_of_decodeUnit b rest (by omega)
  rw [getD_eq_getElem?_getD, getElem?_eq_getElem (by omega), Option.getD_some] at h
  rw [getElem_take]
  exact h

theorem starts_drop_le_length (skip : ℕ) (bytes : List UInt8) :
    starts (bytes.drop skip) ≤ (lossyFrom skip bytes).length := by
  induction bytes generalizing skip with
  | nil => simp [lossyFrom, starts]
  | cons b rest ih =>
    cases skip with
    | succ skip => exact ih skip
    | zero =>
      have h1 := ih (decodeUnit b rest).2
      have h2 : starts rest = starts (rest.drop (decodeUnit b rest).2) := by
        have h3 := starts_append (rest.take (decodeUnit b rest).2) (rest.drop (decodeUnit b rest).2)
        rw [take_append_drop, starts_take_decodeUnit] at h3
        omega
      have h3 : starts (b :: rest) = starts [b] + starts rest := starts_append [b] rest
      have h4 : starts [b] ≤ 1 := by
        exact countP_le_length
      rw [drop_zero, lossyFrom, length_cons]
      omega

/-- A decoding has at least one character for each byte that starts one. -/
theorem starts_le_length_lossy (bytes : List UInt8) : starts bytes ≤ (lossy bytes).length :=
  starts_drop_le_length 0 bytes

variable {b : UInt8}

/-- A leading continuation byte costs a replacement character of its own. -/
theorem starts_lt_length_lossy (rest : List UInt8) (h : isContinuation b = true) :
    starts (b :: rest) < (lossy (b :: rest)).length := by
  have h1 : decodeUnit b rest = (replacement, 0) := by
    simp only [isContinuation, decide_eq_true_eq] at h
    unfold decodeUnit
    rw [if_neg (by omega), if_neg (by omega), if_neg (by omega), if_neg (by omega)]
  have h2 : starts (b :: rest) = starts [b] + starts rest := starts_append [b] rest
  have h3 : starts [b] = 0 := starts_eq_zero (by simpa using h)
  have h4 := starts_le_length_lossy rest
  have h5 : lossy (b :: rest) = replacement :: lossy rest := by
    rw [lossy, lossyFrom, h1]
    rfl
  rw [h5, length_cons]
  omega

/-! ## Cutting an encoding -/

variable {text : List Char}

/-- A cut in front of a byte that is no continuation byte, or at the end, falls between two
    characters. -/
theorem split_encode {l r : List UInt8} (h : l ++ r = encode text)
    (hr : ∀ b, r.head? = some b → isContinuation b = false) :
    ∃ t₁ t₂, text = t₁ ++ t₂ ∧ l = encode t₁ ∧ r = encode t₂ := by
  induction text generalizing l with
  | nil =>
    rw [encode_nil, append_eq_nil_iff] at h
    exact ⟨[], [], rfl, h.1, h.2⟩
  | cons c text ih =>
    cases l with
    | nil => exact ⟨[], c :: text, rfl, rfl, h⟩
    | cons b₀ l =>
      obtain ⟨b, tail, h1, -, h3, -⟩ := utf8EncodeChar_spec c
      rw [encode_cons, h1, cons_append, cons_append, cons.injEq] at h
      obtain ⟨rfl, h⟩ := h
      rcases append_eq_append_iff.1 h with ⟨as, h4, h5⟩ | ⟨bs, h4, h5⟩
      · cases as with
        | nil =>
          rw [append_nil] at h4
          refine ⟨[c], text, rfl, ?_, h5⟩
          rw [encode_cons, h1, encode_nil, append_nil, h4]
        | cons a as =>
          -- the cut falls inside the character, in front of one of its continuation bytes
          have h6 : isContinuation a = true := h3 a (by rw [h4]; simp)
          rw [hr a (by rw [h5]; rfl)] at h6
          cases h6
      · obtain ⟨t₁, t₂, h6, h7, h8⟩ := ih h5.symm
        refine ⟨c :: t₁, t₂, by rw [h6, cons_append], ?_, h8⟩
        rw [encode_cons, h1, h4, h7, cons_append]

/-- The bytes are the encoding of some text. -/
def Valid (bytes : List UInt8) : Prop := ∃ text, bytes = encode text

variable {chunks : List (List UInt8)}

/-- Chunks none of which starts with a continuation byte are cut between characters. -/
theorem valid_of_heads (h : chunks.flatten = encode text) (hne : ∀ chunk ∈ chunks, chunk ≠ [])
    (hheads : ∀ chunk ∈ chunks, ∀ b, chunk.head? = some b → isContinuation b = false) :
    ∀ chunk ∈ chunks, Valid chunk := by
  induction chunks generalizing text with
  | nil => simp
  | cons chunk chunks ih =>
    have hr : ∀ b, chunks.flatten.head? = some b → isContinuation b = false := by
      intro b hb
      cases chunks with
      | nil => cases hb
      | cons chunk₂ chunks =>
        refine hheads chunk₂ (by simp) b ?_
        obtain ⟨b₂, tail, h2⟩ := exists_cons_of_ne_nil (hne chunk₂ (by simp))
        rw [h2] at hb ⊢
        simpa using hb
    obtain ⟨t₁, t₂, -, h1, h2⟩ := split_encode h hr
    intro c hc
    rcases mem_cons.1 hc with rfl | hc
    · exact ⟨t₁, h1⟩
    · exact ih h2 (fun c hc => hne c (mem_cons_of_mem _ hc))
        (fun c hc => hheads c (mem_cons_of_mem _ hc)) c hc

/-! ## Decoding chunk by chunk -/

theorem length_flatMap_lossy (chunks : List (List UInt8)) :
    (chunks.map starts).sum ≤ (chunks.flatMap lossy).length := by
  induction chunks with
  | nil => simp
  | cons chunk chunks ih =>
    have h := starts_le_length_lossy chunk
    rw [map_cons, sum_cons, flatMap_cons, length_append]
    omega

theorem length_flatMap_lossy_lt {chunk : List UInt8}
    (hmem : chunk ∈ chunks) (hb : chunk.head? = some b) (h : isContinuation b = true) :
    (chunks.map starts).sum < (chunks.flatMap lossy).length := by
  induction chunks with
  | nil => cases hmem
  | cons chunk₁ chunks ih =>
    rw [map_cons, sum_cons, flatMap_cons, length_append]
    rcases mem_cons.1 hmem with rfl | hmem
    · have h1 := length_flatMap_lossy chunks
      cases chunk with cases hb
      | cons b' rest =>
        have h2 := starts_lt_length_lossy rest h
        omega
    · have h1 := ih hmem
      have h2 := starts_le_length_lossy chunk₁
      omega

/-- Decoding each chunk of an encoding on its own gives the text back exactly when each chunk
    is an encoding: a character that straddles two chunks becomes at least two. -/
theorem lossy_chunks_eq_iff
    (h : chunks.flatten = encode text) (hne : ∀ chunk ∈ chunks, chunk ≠ []) :
    chunks.flatMap lossy = text ↔ ∀ chunk ∈ chunks, Valid chunk := by
  constructor
  · intro heq
    refine valid_of_heads h hne fun chunk hmem b hb => ?_
    by_contra hcont
    have h1 := length_flatMap_lossy_lt hmem hb (by simpa using hcont)
    rw [heq, ← starts_flatten, h, starts_encode] at h1
    omega
  · intro hvalid
    have h1 : encode (chunks.flatMap lossy) = encode text := by
      rw [← h]
      clear h
      induction chunks with
      | nil => rfl
      | cons chunk chunks ih =>
        obtain ⟨t, rfl⟩ := hvalid chunk (by simp)
        rw [flatMap_cons, lossy_encode, flatten_cons, encode, flatMap_append]
        exact congrArg (encode t ++ ·) (ih (fun c hc => hne c (mem_cons_of_mem _ hc))
          (fun c hc => hvalid c (mem_cons_of_mem _ hc)))
    rw [← lossy_encode text, ← h1, lossy_encode]

/-! ## ASCII bytes -/

theorem decodeUnit_ascii (h : b.toNat < 0x80) (rest : List UInt8) :
    decodeUnit b rest = (Char.ofNat b.toNat, 0) := by
  unfold decodeUnit
  rw [if_pos h]

theorem toNat_char_ofNat (h : n < 0xD800 ∨ 0xDFFF < n ∧ n < 0x110000) :
    (Char.ofNat n).toNat = n := by
  unfold Char.ofNat
  rw [dif_pos (show n.isValidChar from h)]
  rfl

/-- Only an ASCII byte gives an ASCII character. -/
theorem le_toNat_decodeUnit (h : 0x80 ≤ b.toNat) (rest : List UInt8) :
    0x80 ≤ (decodeUnit b rest).1.toNat := by
  have hreplacement : 0x80 ≤ replacement.toNat := by decide
  unfold decodeUnit
  dsimp only
  split_ifs with h1 h2 h3 h4 h5 h6 h7 h8
  all_goals first
    | exact hreplacement
    | omega
    | skip
  · rw [toNat_char_ofNat (by omega)]
    omega
  · simp only [isSecondOfThree, decide_eq_true_eq] at h5
    rw [toNat_char_ofNat (by omega)]
    omega
  · simp only [isSecondOfFour, decide_eq_true_eq] at h8
    rw [toNat_char_ofNat (by omega)]
    omega

variable {s : UInt8}

theorem not_isContinuation_ascii (h : s.toNat < 0x80) : isContinuation s = false := by
  simp only [isContinuation, decide_eq_false_iff_not]
  omega

theorem not_isSecond_ascii (h : s.toNat < 0x80) (x : ℕ) :
    isSecondOfThree x s.toNat = false ∧ isSecondOfFour x s.toNat = false := by
  simp only [isSecondOfThree, isSecondOfFour, decide_eq_false_iff_not]
  omega

/-- What follows an ASCII byte does not change the character before it. -/
theorem decodeUnit_append (h : s.toNat < 0x80) (b : UInt8) (rest after : List UInt8) :
    decodeUnit b (rest ++ s :: after) = decodeUnit b rest := by
  have hs := not_isContinuation_ascii h
  have h0 : isContinuation 0 = false := by decide
  have hsecond := not_isSecond_ascii h b.toNat
  have hzero : isSecondOfThree b.toNat 0 = false ∧ isSecondOfFour b.toNat 0 = false :=
    not_isSecond_ascii (s := 0) (by decide) b.toNat
  unfold decodeUnit
  match rest with
  | [] => simp [hs, h0, hsecond, hzero]
  | [y] => simp [hs, h0]
  | [y, z] => simp [hs, h0]
  | y :: z :: w :: rest => simp

theorem snd_decodeUnit_le (b : UInt8) (rest : List UInt8) :
    (decodeUnit b rest).2 ≤ rest.length := by
  by_contra hlt
  have hcont := isContinuation_of_decodeUnit b rest (i := rest.length) (by omega)
  rw [getD_eq_getElem?_getD, getElem?_eq_none (Nat.le_refl _)] at hcont
  cases hcont

theorem lossyFrom_append (h : s.toNat < 0x80) (bytes after : List UInt8) (skip : ℕ)
    (hskip : skip ≤ bytes.length) : lossyFrom skip (bytes ++ s :: after) =
      lossyFrom skip bytes ++ Char.ofNat s.toNat :: lossy after := by
  induction bytes generalizing skip with
  | nil =>
    obtain rfl : skip = 0 := Nat.le_zero.1 hskip
    show lossyFrom 0 (s :: after) = Char.ofNat s.toNat :: lossy after
    rw [lossyFrom, decodeUnit_ascii h]
    rfl
  | cons b bytes ih =>
    cases skip with
    | succ skip => exact ih skip (Nat.le_of_succ_le_succ hskip)
    | zero =>
      show lossyFrom 0 (b :: (bytes ++ s :: after)) = _
      rw [lossyFrom, decodeUnit_append h, ih _ (snd_decodeUnit_le b bytes)]
      rfl

/-- An ASCII byte is decoded on its own. -/
theorem lossy_append (h : s.toNat < 0x80) (bytes after : List UInt8) :
    lossy (bytes ++ s :: after) = lossy bytes ++ Char.ofNat s.toNat :: lossy after :=
  lossyFrom_append h bytes after 0 (Nat.zero_le _)

theorem mem_of_mem_lossyFrom {c : Char} (hc : c.toNat < 0x80) {skip : ℕ}
    (h : c ∈ lossyFrom skip bytes) : ofNat c.toNat ∈ bytes := by
  induction bytes generalizing skip with
  | nil => cases skip <;> cases h
  | cons b bytes ih =>
    cases skip with
    | succ skip => exact mem_cons_of_mem _ (ih h)
    | zero =>
      rcases mem_cons.1 h with hb | htail
      · by_cases hascii : b.toNat < 0x80
        · rw [decodeUnit_ascii hascii] at hb
          rw [hb, toNat_char_ofNat (by omega), UInt8.ofNat_toNat]
          exact mem_cons_self
        · have hle := le_toNat_decodeUnit (Nat.not_lt.1 hascii) bytes
          rw [← hb] at hle
          omega
      · exact mem_cons_of_mem _ (ih htail)

/-- An ASCII character comes from its byte. -/
theorem mem_of_mem_lossy {c : Char} (hc : c.toNat < 0x80)
    (h : c ∈ lossy bytes) : ofNat c.toNat ∈ bytes := mem_of_mem_lossyFrom hc h

/-- What is decoded to ASCII is ASCII. -/
theorem eq_map_of_lossy (h : ∀ c ∈ lossy bytes, c.toNat < 0x80) :
    bytes = (lossy bytes).map fun c => ofNat c.toNat := by
  induction bytes with
  | nil => rfl
  | cons b bytes ih =>
    rw [lossy, lossyFrom] at h ⊢
    have hb : b.toNat < 0x80 := by
      by_contra hge
      have hle := le_toNat_decodeUnit (Nat.not_lt.1 hge) bytes
      have hlt := h _ mem_cons_self
      omega
    rw [decodeUnit_ascii hb] at h ⊢
    rw [map_cons, toNat_char_ofNat (by omega), UInt8.ofNat_toNat]
    exact congrArg (b :: ·) (ih fun c hc => h c (mem_cons_of_mem _ hc))

end VibeKanban.Lib.Utf8
