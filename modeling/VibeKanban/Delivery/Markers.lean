import VibeKanban.Delivery.Prompt

/-!
# Which comments a stored prompt records

The JSON text of a prompt contains the needle of a comment where the prompt has the comment's marker
line after a line break, or after the two characters that a line break is escaped to.

* `markers_sound_iff`: the search finds the comments of the prompt, exactly if nothing in it spells
  the marker of another one.
-/

namespace VibeKanban.Delivery

open Lib List Nat

/-! ## Characters of identifiers, dates and numbers -/

/-- Characters that neither begin nor end a marker, and need no escape. -/
def Neutral (c : Char) : Prop := Plain c ∧ c ≠ '<' ∧ c ≠ '>'
  deriving Decidable

variable {c : Char}

theorem Neutral.ne_newline (h : Neutral c) : c ≠ '\n' := by
  rintro rfl
  exact absurd h (by decide)

theorem Neutral.ne_backslash (h : Neutral c) : c ≠ '\\' := h.1.2.1

variable {n : ℕ}

theorem neutral_digitChar (h : n < 16) : Neutral (digitChar n) := by
  have hall : ∀ n : Fin 16, Neutral (digitChar n) := by decide
  exact hall ⟨n, h⟩

theorem neutral_hex {b : UInt8} : ∀ c ∈ hex b, Neutral c := by
  have hb : b.toNat < 256 := b.toNat_lt
  intro c hc
  rcases mem_cons.1 hc with rfl | hc
  · exact neutral_digitChar (by omega)
  · rw [mem_singleton.1 hc]
    exact neutral_digitChar (by omega)

theorem neutral_flatMap_hex {bytes : List UInt8} : ∀ c ∈ bytes.flatMap hex, Neutral c := by
  intro c hc
  obtain ⟨b, -, hb⟩ := mem_flatMap.1 hc
  exact neutral_hex c hb

theorem neutral_hyphenated (id : Uuid) : ∀ c ∈ id.hyphenated, Neutral c := by
  intro c hc
  simp only [Uuid.hyphenated, append_assoc, cons_append, mem_append, mem_cons] at hc
  rcases hc with h | rfl | h | rfl | h | rfl | h | rfl | h
  all_goals first
    | exact neutral_flatMap_hex c h
    | decide

theorem neutral_of_isDigit (h : c.isDigit = true) : Neutral c := by
  have hc : 48 ≤ c.toNat ∧ c.toNat ≤ 57 := by
    rw [Char.isDigit_iff_toNat] at h
    exact h
  have hne : ∀ d : Char, d.toNat < 48 ∨ 57 < d.toNat → c ≠ d := by
    rintro d hd rfl
    omega
  exact ⟨⟨hne _ (by decide), hne _ (by decide), by omega⟩, hne _ (by decide), hne _ (by decide)⟩

theorem neutral_toDigits : ∀ c ∈ toDigits 10 n, Neutral c := by
  intro c hc
  exact neutral_of_isDigit (isDigit_of_mem_toDigits (by decide) (by decide) hc)

theorem neutral_padded {width : ℕ} : ∀ c ∈ padded width n, Neutral c := by
  intro c hc
  rcases mem_append.1 hc with h | h
  · rw [eq_of_mem_replicate h]
    decide
  · exact neutral_toDigits c h

theorem neutral_format (t : CreatedAt) : ∀ c ∈ t.format, Neutral c := by
  have hsign : ∀ c ∈ (if t.year < 0 then ['-'] else if 9999 < t.year then ['+'] else []),
      Neutral c := by
    split
    · exact all_iff_forall_prop.1 (by decide)
    · split
      all_goals exact all_iff_forall_prop.1 (by decide)
  intro c hc
  simp only [CreatedAt.format, append_assoc, cons_append, mem_append, mem_cons] at hc
  rcases hc with h | h | rfl | h | rfl | h | rfl | h | rfl | h | h
  · exact hsign c h
  all_goals first
    | exact neutral_padded c h
    | decide
    | exact all_iff_forall_prop.1 (by decide) c h

/-! ## Identifiers are shown unambiguously -/

theorem digitChar_injective {m : ℕ} (hm : m < 16) (hn : n < 16)
    (h : digitChar m = digitChar n) : m = n := by
  have hall : ∀ m n : Fin 16, digitChar m = digitChar n → m = n := by decide
  exact congrArg Fin.val (hall ⟨m, hm⟩ ⟨n, hn⟩ h)

theorem hex_injective {a b : UInt8} (h : hex a = hex b) : a = b := by
  have ha : a.toNat < 256 := a.toNat_lt
  have hb : b.toNat < 256 := b.toNat_lt
  rw [hex, hex, cons.injEq, cons.injEq] at h
  have hhigh := digitChar_injective (by omega) (by omega) h.1
  have hlow := digitChar_injective (by omega) (by omega) h.2.1
  apply UInt8.toNat_inj.1
  omega

theorem flatMap_hex_injective {a b : List UInt8} (h : a.flatMap hex = b.flatMap hex) : a = b := by
  induction a generalizing b with
  | nil =>
    cases b with
    | nil => rfl
    | cons y b => cases h
  | cons x a ih =>
    cases b with
    | nil => cases h
    | cons y b =>
      obtain ⟨hxy, hrest⟩ := append_inj h rfl
      rw [hex_injective hxy, ih hrest]

theorem length_flatMap_hex (bytes : List UInt8) :
    (bytes.flatMap hex).length = 2 * bytes.length := by
  induction bytes with
  | nil => rfl
  | cons b bytes ih =>
    rw [flatMap_cons, length_append, ih, length_cons]
    show 2 + 2 * bytes.length = 2 * (bytes.length + 1)
    omega

theorem length_hyphenated (id : Uuid) : id.hyphenated.length = 36 := by
  simp only [Uuid.hyphenated, length_append, length_cons, length_flatMap_hex,
    length_take, length_drop, id.length_eq]
  rfl

theorem filter_hyphenated (id : Uuid) : id.hyphenated.filter (· ≠ '-') = id.bytes.flatMap hex := by
  have hhex : ∀ bytes : List UInt8, (bytes.flatMap hex).filter (· ≠ '-') = bytes.flatMap hex := by
    intro bytes
    apply filter_eq_self.2
    intro c hc
    obtain ⟨b, -, hb⟩ := mem_flatMap.1 hc
    have hall : ∀ n : Fin 16, digitChar n ≠ '-' := by decide
    have hlt : b.toNat < 256 := b.toNat_lt
    rw [decide_eq_true_eq]
    rcases mem_cons.1 hb with rfl | hb
    · exact hall ⟨b.toNat / 16, by omega⟩
    · rw [mem_singleton.1 hb]
      exact hall ⟨b.toNat % 16, by omega⟩
  have hhyphen : ∀ text : Text, ('-' :: text).filter (· ≠ '-') = text.filter (· ≠ '-') :=
    fun _ => rfl
  simp only [Uuid.hyphenated, filter_append, hhyphen, hhex]
  obtain ⟨bytes, hlen⟩ := id
  match bytes, hlen with
  | [_, _, _, _, _, _, _, _, _, _, _, _, _, _, _, _], _ => rfl

theorem hyphenated_injective {a b : Uuid} (h : a.hyphenated = b.hyphenated) : a = b := by
  have hbytes : a.bytes = b.bytes := by
    apply flatMap_hex_injective
    rw [← filter_hyphenated, ← filter_hyphenated, h]
  cases a
  cases b
  cases hbytes
  rfl

/-! ## Marker lines -/

theorem mem_markerLine {id : Uuid} (h : c ∈ markerLine id) :
    c ∈ "<!-- vk-issue-comment:v1: -->".toList ∨ c ∈ id.hyphenated := by
  unfold markerLine deliveryMarker at h
  simp only [append_assoc, mem_append] at h
  rcases h with h | h | h | h
  all_goals first
    | exact .inr h
    | exact .inl (all_iff_forall_prop.1 (by decide) c h)

theorem plain_markerLine (id : Uuid) : ∀ c ∈ markerLine id, Plain c := by
  have hfixed : ∀ c ∈ "<!-- vk-issue-comment:v1: -->".toList, Plain c :=
    all_iff_forall_prop.1 (by decide)
  intro c hc
  rcases mem_markerLine hc with h | h
  · exact hfixed c h
  · exact (neutral_hyphenated id c h).1

theorem newline_not_mem_markerLine (id : Uuid) : '\n' ∉ markerLine id := by
  intro h
  exact absurd (plain_markerLine id _ h) (by decide)

theorem getLast?_markerLine (id : Uuid) : (markerLine id).getLast? = some '>' := by
  unfold markerLine
  rw [getLast?_append_of_ne_nil _ (by decide)]
  rfl

/-- Marker lines begin with `<`. -/
theorem markerLine_eq (id : Uuid) : ∃ rest, markerLine id = '<' :: rest := ⟨_, rfl⟩

theorem markerLine_injective {a b : Uuid} (h : markerLine a = markerLine b) : a = b := by
  exact hyphenated_injective (append_cancel_left (append_cancel_left (append_cancel_right h)))

theorem length_markerLine (a b : Uuid) : (markerLine a).length = (markerLine b).length := by
  unfold markerLine deliveryMarker
  simp only [length_append, length_hyphenated]

/-! ## Searching a prompt -/

/-- A word that is searched for in a prompt: it begins with a line break or a backslash, has no
    other line break, ends with `>`, and goes on with `<` after a line break. `hit` tells the
    comments whose marker line completes it. -/
structure Needle (x : Char) (w : Text) (hit : Uuid → Prop) : Prop where
  start : x = '\n' ∨ x = '\\'
  stop : (x :: w).getLast? = some '>'
  oneLine : '\n' ∉ w
  /-- After a line break that no `<` follows, the search starts anew. -/
  lineBreak : ∀ rest, rest.head? ≠ some '<' → (x :: w <:+: '\n' :: rest ↔ x :: w <:+: rest)
  /-- At a marker line the word is found, or the search starts anew after it. -/
  marker : ∀ id rest, rest.head? ≠ some '<' →
    (x :: w <:+: '\n' :: (markerLine id ++ '\n' :: rest) ↔ hit id ∨ x :: w <:+: rest)

theorem prefix_markerLine_iff (c id : Uuid) (rest : Text) :
    markerLine c <+: markerLine id ++ rest ↔ c = id := by
  have hsame : markerLine c ++ [] <+: markerLine id ++ rest ↔
      markerLine c = markerLine id ∧ [] <+: rest :=
    prefix_append_inj_of_length_eq (length_markerLine c id)
  rw [append_nil] at hsame
  rw [hsame]
  constructor
  · rintro ⟨heq, -⟩
    exact markerLine_injective heq
  · rintro rfl
    exact ⟨rfl, nil_prefix⟩

theorem not_prefix_of_head {c : Uuid} {rest : Text} (h : rest.head? ≠ some '<') :
    ¬ markerLine c <+: rest := by
  intro hpre
  obtain ⟨tail, htail⟩ := markerLine_eq c
  obtain ⟨more, rfl⟩ := hpre
  exact h rfl

theorem needle_newline (c : Uuid) : Needle '\n' (markerLine c) (fun id => c = id) := by
  have hbreak : ∀ rest : Text, rest.head? ≠ some '<' →
      ('\n' :: markerLine c <:+: '\n' :: rest ↔ '\n' :: markerLine c <:+: rest) := by
    intro rest hrest
    rw [infix_cons_iff, cons_prefix_cons]
    constructor
    · rintro (⟨-, hpre⟩ | hin)
      · exact absurd hpre (not_prefix_of_head hrest)
      · exact hin
    · exact .inr
  refine ⟨.inl rfl, ?_, newline_not_mem_markerLine c, hbreak, ?_⟩
  · obtain ⟨tail, htail⟩ := markerLine_eq c
    have hlast := getLast?_markerLine c
    rw [htail] at hlast ⊢
    exact hlast
  · intro id rest hrest
    rw [infix_cons_iff, cons_prefix_cons, prefix_markerLine_iff,
      infix_skip (newline_not_mem_markerLine id), hbreak rest hrest]
    simp only [true_and]

theorem needle_escaped (c : Uuid) : Needle '\\' ('n' :: markerLine c) (fun _ => False) := by
  have hbreak : ∀ rest : Text, '\\' :: 'n' :: markerLine c <:+: '\n' :: rest ↔
      '\\' :: 'n' :: markerLine c <:+: rest := by
    intro rest
    exact infix_skip_cons (by decide)
  refine ⟨.inr rfl, ?_, ?_, fun rest _ => hbreak rest, ?_⟩
  · obtain ⟨tail, htail⟩ := markerLine_eq c
    have hlast := getLast?_markerLine c
    rw [htail] at hlast ⊢
    exact hlast
  · intro h
    rcases mem_cons.1 h with h | h
    · cases h
    · exact newline_not_mem_markerLine c h
  · intro id rest _
    have hskip : '\\' ∉ markerLine id := by
      intro h
      exact absurd (plain_markerLine id _ h) (by decide)
    rw [hbreak, infix_skip hskip, hbreak, false_or]

section Search

variable {x : Char} {w : Text} {hit : Uuid → Prop} (hn : Needle x w hit)

include hn

theorem Needle.skip {f r : Text} (hf : ∀ c ∈ f, c ≠ '\n' ∧ c ≠ '\\') :
    x :: w <:+: f ++ r ↔ x :: w <:+: r := by
  apply infix_skip
  intro hx
  rcases hn.start with h | h
  · exact (hf x hx).1 h
  · exact (hf x hx).2 h

theorem Needle.skip_cons {c : Char} (hc : c ≠ '\n') (hc' : c ≠ '\\') {r : Text} :
    x :: w <:+: c :: r ↔ x :: w <:+: r := by
  apply infix_skip_cons
  rcases hn.start with h | h
  · exact h ▸ hc.symm
  · exact h ▸ hc'.symm

variable {rest : Text}

/-- A text in front of the rest of a line: the word is in the text, or starts later. -/
theorem Needle.cut {l f : Text} (hf : '>' ∉ f) (hrest : rest.head? ≠ some '<') :
    x :: w <:+: l ++ (f ++ '\n' :: rest) ↔ x :: w <:+: l ∨ x :: w <:+: rest := by
  rw [infix_cut hn.stop hf hn.oneLine, hn.lineBreak rest hrest]

theorem Needle.quoteLine (line : Text) (hrest : rest.head? ≠ some '<') :
    x :: w <:+: Delivery.quoteLine line ++ rest ↔ x :: w <:+: line ∨ x :: w <:+: rest := by
  unfold Delivery.quoteLine
  split
  · rename_i hnil
    subst hnil
    show x :: w <:+: '>' :: '\n' :: rest ↔ x :: w <:+: [] ∨ _
    rw [hn.skip_cons (by decide) (by decide), hn.lineBreak rest hrest]
    simp only [infix_nil, cons_ne_nil, false_or]
  · show x :: w <:+: '>' :: ' ' :: ((line ++ ['\n']) ++ rest) ↔ _
    rw [hn.skip_cons (by decide) (by decide), hn.skip_cons (by decide) (by decide), append_assoc]
    exact hn.cut (f := []) (not_mem_nil) hrest

omit hn in
theorem head?_quoteLines (ls : List Text) (hrest : rest.head? ≠ some '<') :
    (ls.flatMap Delivery.quoteLine ++ rest).head? ≠ some '<' := by
  cases ls with
  | nil => exact hrest
  | cons line ls =>
    rw [flatMap_cons]
    unfold Delivery.quoteLine
    split
    all_goals exact (by decide : some '>' ≠ some '<')

theorem Needle.quoteLines (ls : List Text) (hrest : rest.head? ≠ some '<') :
    x :: w <:+: ls.flatMap Delivery.quoteLine ++ rest ↔
      (∃ line ∈ ls, x :: w <:+: line) ∨ x :: w <:+: rest := by
  induction ls with
  | nil =>
    show x :: w <:+: rest ↔ _
    simp only [not_mem_nil, false_and, exists_false, false_or]
  | cons line ls ih =>
    rw [flatMap_cons, append_assoc, hn.quoteLine line (head?_quoteLines ls hrest), ih,
      exists_mem_cons_iff, or_assoc]

theorem Needle.commentBlock (comment : DeliveredComment) (hrest : rest.head? ≠ some '<') :
    x :: w <:+: Delivery.commentBlock comment ++ rest ↔
      (hit comment.commentId ∨ x :: w <:+: comment.author ∨
        ∃ line ∈ comment.quotedLines, x :: w <:+: line) ∨ x :: w <:+: rest := by
  have hend : '>' ∉ headingEnd comment := by
    intro h
    unfold headingEnd at h
    simp only [append_assoc, mem_append] at h
    rcases h with h | h | h | h | h
    · exact absurd h (by decide)
    · exact (neutral_format _ _ h).2.2 rfl
    · exact absurd h (by decide)
    · exact (neutral_hyphenated _ _ h).2.2 rfl
    · exact absurd h (by decide)
  have hlines := head?_quoteLines comment.quotedLines hrest
  have hbreak : ('\n' :: (comment.quotedLines.flatMap Delivery.quoteLine ++ rest)).head? ≠
      some '<' := by
    show some '\n' ≠ some '<'
    decide
  unfold Delivery.commentBlock
  rw [cons_append, append_assoc, cons_append,
    hn.marker _ _ (by exact (by decide : some '*' ≠ some '<')), append_assoc,
    append_assoc, hn.skip (all_iff_forall_prop.1 (by decide)), append_assoc,
    cons_append, cons_append,
    hn.cut hend hbreak, hn.lineBreak _ hlines, hn.quoteLines _ hrest]
  simp only [or_assoc]

omit hn in
theorem head?_commentBlocks (comments : List DeliveredComment) :
    (comments.flatMap Delivery.commentBlock).head? ≠ some '<' := by
  cases comments with
  | nil => exact (by decide : none ≠ some '<')
  | cons comment comments => exact (by decide : some '\n' ≠ some '<')

theorem Needle.commentBlocks (comments : List DeliveredComment) :
    x :: w <:+: comments.flatMap Delivery.commentBlock ↔
      ∃ comment ∈ comments, hit comment.commentId ∨ x :: w <:+: comment.author ∨
        ∃ line ∈ comment.quotedLines, x :: w <:+: line := by
  induction comments with
  | nil =>
    show x :: w <:+: [] ↔ _
    simp only [infix_nil, cons_ne_nil, not_mem_nil, false_and, exists_false]
  | cons comment comments ih =>
    rw [flatMap_cons, hn.commentBlock comment (head?_commentBlocks comments), ih,
      exists_mem_cons_iff]

omit hn in
theorem mem_opening_fst (count : ℕ) : ∀ c ∈ (opening count).1, c ≠ '\n' ∧ c ≠ '\\' := by
  have hone : ∀ c ∈ "A reply was posted on issue ".toList, c ≠ '\n' ∧ c ≠ '\\' :=
    all_iff_forall_prop.1 (by decide)
  have hmany : ∀ c ∈ " replies were posted on issue ".toList, c ≠ '\n' ∧ c ≠ '\\' :=
    all_iff_forall_prop.1 (by decide)
  intro c hc
  unfold opening at hc
  split at hc
  · exact hone c hc
  · rcases mem_append.1 hc with h | h
    · exact ⟨(neutral_toDigits c h).ne_newline, (neutral_toDigits c h).ne_backslash⟩
    · exact hmany c h

omit hn in
theorem stop_not_mem_opening_snd (count : ℕ) : '>' ∉ (opening count).2 := by
  unfold opening
  split
  all_goals
    simp only [mem_append, not_or]
    decide +kernel

/-- **Main lemma.** The word is in the label, completed by a marker line, or in the name or the
    text of a comment. -/
theorem Needle.prompt (label : Text) (comments : List DeliveredComment) :
    x :: w <:+: composeDeliveryPrompt label comments ↔
      x :: w <:+: label ∨ ∃ comment ∈ comments, hit comment.commentId ∨
        x :: w <:+: comment.author ∨ ∃ line ∈ comment.quotedLines, x :: w <:+: line := by
  have hfront := mem_opening_fst comments.length
  have hback := stop_not_mem_opening_snd comments.length
  unfold composeDeliveryPrompt
  rw [append_assoc, hn.skip hfront, hn.cut hback (head?_commentBlocks comments), hn.commentBlocks]

end Search

/-! ## The stored prompt -/

/-- A text spells the marker of `c`: after a line break, or after the two characters `\n`. -/
def Spells (c : Uuid) (text : Text) : Prop :=
  '\n' :: markerLine c <:+: text ∨ '\\' :: 'n' :: markerLine c <:+: text

/-- The label, an author name or a line of a message spells the marker of `c`. -/
def SpelledIn (c : Uuid) (label : Text) (comments : List DeliveredComment) : Prop :=
  Spells c label ∨ ∃ comment ∈ comments, Spells c comment.author ∨
    ∃ line ∈ comment.quotedLines, Spells c line

/-- `instr(executor_action, needle) > 0`, on the prompt. -/
def Contains (e : Escaping) (label : Text) (comments : List DeliveredComment) (c : Uuid) : Prop :=
  storedMarkerNeedle c <:+: e.encode (composeDeliveryPrompt label comments)

theorem contains_needle_iff (e : Escaping) (label : Text) (comments : List DeliveredComment)
    (c : Uuid) : Contains e label comments c ↔
      c ∈ comments.map DeliveredComment.commentId ∨ SpelledIn c label comments := by
  have hquote : '"' ∉ storedMarkerNeedle c := by
    intro h
    rcases mem_cons.1 h with h | h
    · cases h
    · rcases mem_cons.1 h with h | h
      · cases h
      · exact absurd (plain_markerLine c _ h) (by decide)
  unfold Contains
  rw [storedMarkerNeedle, Escaping.infix_encode_iff hquote,
    Escaping.newline_infix_iff (plain_markerLine c), (needle_newline c).prompt,
    (needle_escaped c).prompt, mem_map]
  constructor
  · rintro ((h | ⟨comment, hmem, h | h | ⟨line, hline, h⟩⟩) |
      h | ⟨comment, hmem, h | h | ⟨line, hline, h⟩⟩)
    · exact .inr (.inl (.inl h))
    · exact .inl ⟨comment, hmem, h.symm⟩
    · exact .inr (.inr ⟨comment, hmem, .inl (.inl h)⟩)
    · exact .inr (.inr ⟨comment, hmem, .inr ⟨line, hline, .inl h⟩⟩)
    · exact .inr (.inl (.inr h))
    · exact h.elim
    · exact .inr (.inr ⟨comment, hmem, .inl (.inr h)⟩)
    · exact .inr (.inr ⟨comment, hmem, .inr ⟨line, hline, .inr h⟩⟩)
  · rintro (⟨comment, hmem, h⟩ | (h | h) | ⟨comment, hmem, (h | h) | ⟨line, hline, h | h⟩⟩)
    · exact .inl (.inr ⟨comment, hmem, .inl h.symm⟩)
    · exact .inl (.inl h)
    · exact .inr (.inl h)
    · exact .inl (.inr ⟨comment, hmem, .inr (.inl h)⟩)
    · exact .inr (.inr ⟨comment, hmem, .inr (.inl h)⟩)
    · exact .inl (.inr ⟨comment, hmem, .inr (.inr ⟨line, hline, h⟩)⟩)
    · exact .inr (.inr ⟨comment, hmem, .inr (.inr ⟨line, hline, h⟩)⟩)

/-! ## The result -/

/-- For every label and list of comments: the stored prompt contains the needles
    of exactly the comments delivered in it if and only if label, author names and messages spell
    the marker of no other comment. -/
theorem markers_sound_iff (e : Escaping) (label : Text) (comments : List DeliveredComment) :
    (∀ c, Contains e label comments c ↔ c ∈ comments.map DeliveredComment.commentId) ↔
      ∀ c, SpelledIn c label comments → c ∈ comments.map DeliveredComment.commentId := by
  constructor
  · intro hsound c hspelled
    exact (hsound c).1 ((contains_needle_iff e label comments c).2 (.inr hspelled))
  · intro hspelled c
    rw [contains_needle_iff]
    constructor
    · rintro (hmem | h)
      · exact hmem
      · exact hspelled c h
    · exact .inl

theorem serdeEscape_plain (h : Plain c) : serdeEscape c = [c] := by
  have hne : ∀ d : Char, d.toNat < 32 → c ≠ d := by
    rintro d hd rfl
    exact absurd h.2.2 (by omega)
  have hle := h.2.2
  unfold serdeEscape
  rw [if_neg h.1, if_neg h.2.1, if_neg (hne _ (by decide)), if_neg (hne _ (by decide)),
    if_neg (hne _ (by decide)), if_neg (by omega), if_neg (by omega), if_neg (by omega)]

theorem serdeEscape_other (h : ¬ Plain c) (hn : c ≠ '\n') (hb : c ≠ '\\') :
    ∃ mark rest, serdeEscape c = '\\' :: mark :: rest ∧ mark ≠ 'n' ∧ '\\' ∉ mark :: rest := by
  unfold serdeEscape
  split
  · exact ⟨_, _, rfl, by decide, by decide⟩
  · rename_i hq
    split
    · exact ⟨_, _, rfl, by decide, by decide⟩
    · split
      · exact ⟨_, _, rfl, by decide, by decide⟩
      · split
        · exact ⟨_, _, rfl, by decide, by decide⟩
        · split
          · exact ⟨_, _, rfl, by decide, by decide⟩
          · have hlt : c.toNat < 32 := by
              by_contra hge
              exact h ⟨hq, hb, by omega⟩
            rw [if_pos hlt]
            have hdigits : ∀ n : Fin 32, '\\' ∉
                ['u', '0', '0', digitChar (n / 16), digitChar (n % 16)] := by decide
            exact ⟨_, _, rfl, by decide, hdigits ⟨c.toNat, hlt⟩⟩

/-- The encoder that stores prompts. -/
def serdeJson : Escaping :=
  { escape := serdeEscape
    plain := fun _ h => serdeEscape_plain h
    newline := rfl
    backslash := rfl
    other := fun _ => serdeEscape_other }

/-- The UUID that ends in the byte `n`. -/
def exampleId (n : UInt8) : Uuid := ⟨[0, 0, 0, 0, 0, 0, 0, 0, 0, 0, 0, 0, 0, 0, 0, n], rfl⟩

/-- A comment whose text is `\n`, as two characters, and the marker line of another comment. -/
def exampleForgery : DeliveredComment :=
  { commentId := exampleId 2
    authorName := none
    createdAt := ⟨2026, 10, 19, 4, 45⟩
    message := storedMarkerNeedle (exampleId 1) }

/-- The prompt of that comment records a delivery of the other one. -/
theorem forged_marker_recorded :
    Contains serdeJson (issueLabel "VAS-1".toList "t".toList) [exampleForgery] (exampleId 1) ∧
      exampleId 1 ∉ [exampleForgery].map DeliveredComment.commentId := by
  refine ⟨?_, by decide⟩
  rw [contains_needle_iff]
  have hlines : exampleForgery.quotedLines = [storedMarkerNeedle (exampleId 1)] := by rfl
  refine .inr (.inr ⟨exampleForgery, mem_singleton_self _,
    .inr ⟨storedMarkerNeedle (exampleId 1), ?_, .inr (infix_refl _)⟩⟩)
  rw [hlines]
  exact mem_singleton_self _

end VibeKanban.Delivery
