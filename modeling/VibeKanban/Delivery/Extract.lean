import VibeKanban.Delivery.Markers

/-!
# Reading the markers of a prompt back

`extract_markers` (`services/src/services/issue_comment_delivery.rs`, line 287) takes the lines of a
prompt that begin with a marker.

* `extractMarkers_eq_ids_iff`: these are the comments of the prompt, exactly if no later line of the
  label or of an author's name is a marker.
-/

namespace VibeKanban.Delivery

open Lib List Option Nat

/-! ## The parser -/

/-- `char::to_digit(16)` -/
def hexValue (c : Char) : Option ℕ :=
  if '0' ≤ c ∧ c ≤ '9' then some (c.toNat - 48)
  else if 'a' ≤ c ∧ c ≤ 'f' then some (c.toNat - 87)
  else if 'A' ≤ c ∧ c ≤ 'F' then some (c.toNat - 55)
  else none

def parseHex : Text → Option (List UInt8)
  | [] => some []
  | [_] => none
  | a :: b :: text => do
    let high ← hexValue a
    let low ← hexValue b
    let bytes ← parseHex text
    return UInt8.ofNat (16 * high + low) :: bytes

/-- `Uuid::from_str` on 36 bytes: of the forms it knows only the hyphenated one is that long. -/
def parseUuid (text : Text) : Option Uuid :=
  if text.length = 36 ∧ ∀ i ∈ [8, 13, 18, 23], text[i]? = some '-' then
    (parseHex (text.filter (· ≠ '-'))).bind fun bytes =>
      if h : bytes.length = 16 then some ⟨bytes, h⟩ else none
  else none

/-- `str::get(..n)`: the first `n` bytes, if a character ends there. -/
def getBytes : Text → ℕ → Option Text
  | _, 0 => some []
  | [], _ + 1 => none
  | c :: text, n + 1 =>
    if c.utf8Size ≤ n + 1 then (getBytes text (n + 1 - c.utf8Size)).map (c :: ·) else none

/-- What a line begins with that is a marker. -/
def opener : Text := "<!-- ".toList ++ deliveryMarkerPrefix

/-- The identifier that a line is the marker of (lines 291-292). -/
def markerOf (line : Text) : Option Uuid :=
  if opener <+: line then (getBytes (line.drop opener.length) 36).bind parseUuid else none

/-- `extract_markers` (line 287). -/
def extractMarkers (prompt : Text) : List Uuid := (lines prompt).filterMap markerOf

/-- The markers in the lines of a text after its first. -/
def laterMarkers (text : Text) : List Uuid := (lines text).tail.filterMap markerOf

/-! ## Identifiers -/

/-- Characters of an identifier. -/
def InUuid (c : Char) : Prop := (hexValue c).isSome = true ∨ c = '-'
  deriving Decidable

theorem hexValue_digitChar {n : ℕ} (h : n < 16) : hexValue (digitChar n) = some n := by
  have hall : ∀ n : Fin 16, hexValue (digitChar n) = some n.val := by decide
  exact hall ⟨n, h⟩

theorem parseHex_flatMap_hex (bytes : List UInt8) : parseHex (bytes.flatMap hex) = some bytes := by
  induction bytes with
  | nil => rfl
  | cons b bytes ih =>
    have hb : b.toNat < 256 := b.toNat_lt
    show parseHex (digitChar _ :: digitChar _ :: bytes.flatMap hex) = _
    simp only [parseHex, hexValue_digitChar (show b.toNat / 16 < 16 by omega),
      hexValue_digitChar (show b.toNat % 16 < 16 by omega), ih]
    show some (UInt8.ofNat (16 * (b.toNat / 16) + b.toNat % 16) :: bytes) = _
    rw [div_add_mod, UInt8.ofNat_toNat]

theorem getElem?_hyphenated (id : Uuid) : ∀ i ∈ [8, 13, 18, 23], id.hyphenated[i]? = some '-' := by
  obtain ⟨bytes, hlen⟩ := id
  match bytes, hlen with
  | [_, _, _, _, _, _, _, _, _, _, _, _, _, _, _, _], _ =>
    intro i hi
    simp only [mem_cons, not_mem_nil, or_false] at hi
    rcases hi with rfl | rfl | rfl | rfl <;> rfl

theorem parseUuid_hyphenated (id : Uuid) : parseUuid id.hyphenated = some id := by
  unfold parseUuid
  rw [if_pos ⟨length_hyphenated id, getElem?_hyphenated id⟩, filter_hyphenated,
    parseHex_flatMap_hex]
  exact dif_pos id.length_eq

theorem inUuid_of_parseHex {text : Text} {bytes : List UInt8} (h : parseHex text = some bytes) :
    ∀ c ∈ text, InUuid c := by
  induction text using parseHex.induct generalizing bytes with
  | case1 => simp
  | case2 => cases h
  | case3 a b text ih =>
    simp only [parseHex, bind, bind_eq_some_iff] at h
    obtain ⟨high, ha, low, hb, rest, hrest, -⟩ := h
    intro c hc
    rcases mem_cons.1 hc with rfl | hc
    · exact .inl (by simp [ha])
    · rcases mem_cons.1 hc with rfl | hc
      · exact .inl (by simp [hb])
      · exact ih hrest c hc

theorem inUuid_of_parseUuid {text : Text} {id : Uuid} (h : parseUuid text = some id) :
    ∀ c ∈ text, InUuid c := by
  unfold parseUuid at h
  split at h
  · obtain ⟨bytes, hbytes, -⟩ := bind_eq_some_iff.1 h
    intro c hc
    by_cases hhyphen : c = '-'
    · exact .inr hhyphen
    · exact inUuid_of_parseHex hbytes c (mem_filter.2 ⟨hc, by simpa using hhyphen⟩)
  · cases h

/-! ## The first bytes -/

def byteLength (text : Text) : ℕ := (text.map Char.utf8Size).sum

variable {front : Text}

theorem getBytes_eq_some_iff {text : Text} {n : ℕ} :
    getBytes text n = some front ↔ front <+: text ∧ byteLength front = n := by
  induction text, n using getBytes.induct generalizing front with
  | case1 text =>
    rw [getBytes]
    constructor
    · intro h
      cases h
      exact ⟨ nil_prefix, rfl⟩
    · rintro ⟨-, h⟩
      cases front with
      | nil => rfl
      | cons c front =>
        have hpos := Char.utf8Size_pos c
        simp only [byteLength, map_cons, sum_cons] at h
        omega
  | case2 n =>
    constructor
    · intro h
      cases h
    · rintro ⟨h, hlen⟩
      rw [prefix_nil.1 h] at hlen
      cases hlen
  | case3 c text n hle ih =>
    rw [getBytes, if_pos hle, map_eq_some_iff]
    constructor
    · rintro ⟨rest, hrest, rfl⟩
      obtain ⟨hstart, hlen⟩ := ih.1 hrest
      refine ⟨cons_prefix_cons.2 ⟨rfl, hstart⟩, ?_⟩
      show c.utf8Size + byteLength rest = n + 1
      omega
    · rintro ⟨hstart, hlen⟩
      cases front with
      | nil => cases hlen
      | cons d front =>
        obtain ⟨rfl, hrest⟩ := cons_prefix_cons.1 hstart
        have hsum : d.utf8Size + byteLength front = n + 1 := hlen
        exact ⟨front, ih.2 ⟨hrest, by omega⟩, rfl⟩
  | case4 c text n hle =>
    rw [getBytes, if_neg hle]
    constructor
    · intro h
      cases h
    · rintro ⟨hstart, hlen⟩
      cases front with
      | nil => cases hlen
      | cons d front =>
        obtain ⟨rfl, -⟩ := cons_prefix_cons.1 hstart
        have hsum : d.utf8Size + byteLength front = n + 1 := hlen
        omega

theorem markerOf_eq_some_iff {line : Text} {id : Uuid} : markerOf line = some id ↔
      ∃ front, opener ++ front <+: line ∧ byteLength front = 36 ∧ parseUuid front = some id := by
  unfold markerOf
  split
  · rename_i hopener
    obtain ⟨rest, rfl⟩ := hopener
    rw [drop_left, bind_eq_some_iff]
    simp only [getBytes_eq_some_iff, prefix_append_right_inj, and_assoc]
  · rename_i hopener
    constructor
    · intro h
      cases h
    · rintro ⟨front, hstart, -⟩
      exact absurd ((prefix_append opener front).trans hstart) hopener

theorem utf8Size_of_inUuid {c : Char} (h : InUuid c) : c.utf8Size = 1 := by
  have hle : c ≤ 'f' := by
    rcases h with h | rfl
    · unfold hexValue at h
      split_ifs at h with h1 h2 h3
      · exact h1.2.trans (by decide)
      · exact h2.2
      · exact h3.2.trans (by decide)
      · cases h
    · decide
  exact if_pos (hle.trans (by decide : 'f' ≤ Char.ofNat 127))

theorem byteLength_hyphenated (id : Uuid) : byteLength id.hyphenated = 36 := by
  have hones : id.hyphenated.map Char.utf8Size = replicate 36 1 := by
    refine eq_replicate_iff.2 ⟨?_, ?_⟩
    · rw [length_map, length_hyphenated]
    · intro n hn
      obtain ⟨c, hc, rfl⟩ := mem_map.1 hn
      exact utf8Size_of_inUuid (inUuid_of_parseUuid (parseUuid_hyphenated id) c hc)
  rw [byteLength, hones]
  rfl

/-! ## Markers of lines -/

theorem markerOf_markerLine (id : Uuid) (rest : Text) :
    markerOf (markerLine id ++ rest) = some id := by
  refine markerOf_eq_some_iff.2 ⟨id.hyphenated, ?_, byteLength_hyphenated id,
    parseUuid_hyphenated id⟩
  unfold markerLine deliveryMarker opener
  simp only [append_assoc]
  exact prefix_append_right_inj _ |>.2 (prefix_append_right_inj _ |>.2 (prefix_append _ _))

theorem markerOf_of_head {line : Text} (h : line.head? ≠ some '<') : markerOf line = none := by
  rw [eq_none_iff_forall_ne_some]
  intro id hid
  obtain ⟨front, ⟨rest, rfl⟩, -⟩ := markerOf_eq_some_iff.1 hid
  exact h rfl

/-- A text that no marker goes on with: it begins with no character of an identifier, nor as an
    opener goes on. -/
def Ends : Text → Prop
  | [] => True
  | c :: text => ¬InUuid c ∧ (c ∈ opener → c = ' ' ∧ text.head? ≠ some 'v')

instance (text : Text) : Decidable (Ends text) := by
  cases text <;> dsimp only [Ends] <;> infer_instance

theorem opener_blank : ∀ i, opener[i]? = some ' ' → opener[i + 1]? = some 'v' := by
  have hall : ∀ i : Fin opener.length, opener[i.val]? = some ' ' →
      opener[i.val + 1]? = some 'v' := by
    decide
  intro i hi
  exact hall ⟨i, (List.getElem?_eq_some_iff.1 hi).1⟩ hi

/-- What follows on a marker in its line does not matter. -/
theorem markerOf_append {line text : Text} (h : Ends text) :
    markerOf (line ++ text) = markerOf line := by
  refine ext fun id => ?_
  rw [markerOf_eq_some_iff, markerOf_eq_some_iff]
  constructor
  · rintro ⟨front, hstart, hlen, hparse⟩
    refine ⟨front, ?_, hlen, hparse⟩
    rcases prefix_or_prefix_of_prefix hstart (prefix_append line text) with h1 | h1
    · exact h1
    · obtain ⟨more, hmore⟩ := h1
      cases more with
      | nil => exact ⟨[], by rw [← hmore, append_nil, append_nil]⟩
      | cons c more =>
        rw [← hmore, prefix_append_right_inj] at hstart
        obtain ⟨rest, rfl⟩ := hstart
        obtain ⟨hno, hopener⟩ := h
        have hc : (opener ++ front)[line.length]? = some c := by simp [← hmore]
        have hnext : (opener ++ front)[line.length + 1]? = more.head? := by
          rw [← hmore, getElem?_append_right (by omega)]
          cases more <;> simp
        rcases lt_or_ge line.length opener.length with hlt | hge
        · -- the line ends within the opener
          rw [getElem?_append_left hlt] at hc
          obtain ⟨rfl, hhead⟩ := hopener (mem_of_getElem? hc)
          have hv := opener_blank _ hc
          rw [List.getElem?_append_left (List.getElem?_eq_some_iff.1 hv).1, hv] at hnext
          refine absurd ?_ hhead
          show (more ++ rest).head? = some 'v'
          rw [head?_append, ← hnext]
          rfl
        · rw [getElem?_append_right hge] at hc
          exact absurd (inUuid_of_parseUuid hparse c (mem_of_getElem? hc)) hno
  · rintro ⟨front, hstart, hlen, hparse⟩
    exact ⟨front, hstart.trans (prefix_append line text), hlen, hparse⟩

theorem markerOf_stripLineEnd (line : Text) : markerOf (stripLineEnd line) = markerOf line := by
  have hends : ∃ text, Ends text ∧ line = stripLineEnd line ++ text := by
    unfold stripLineEnd
    split
    · rename_i hlast
      have hline := dropLast_append_getLast? _ hlast
      split
      · rename_i hlast'
        have hline' := dropLast_append_getLast? _ hlast'
        refine ⟨['\r', '\n'], by decide, ?_⟩
        rw [append_cons, hline', hline]
      · exact ⟨['\n'], by decide, hline.symm⟩
    · exact ⟨[], trivial, (append_nil _).symm⟩
  obtain ⟨text, hend, hline⟩ := hends
  conv_rhs => rw [hline, markerOf_append hend]

/-! ## Markers of texts -/

/-- The markers of the lines of a text, with their ends. -/
def marks (text : Text) : List Uuid := (splitInclusive (· = '\n') text).filterMap markerOf

theorem extractMarkers_eq_marks (text : Text) : extractMarkers text = marks text := by
  unfold extractMarkers lines marks
  rw [filterMap_map]
  congr 1
  funext line
  exact markerOf_stripLineEnd line

theorem laterMarkers_eq (text : Text) :
    laterMarkers text = (splitInclusive (· = '\n') text).tail.filterMap markerOf := by
  unfold laterMarkers lines
  rw [← map_tail, filterMap_map]
  congr 1
  funext line
  exact markerOf_stripLineEnd line

variable {line text rest : Text}

theorem marks_append_line (h : IsLine '\n' line) (rest : Text) :
    marks (line ++ rest) = (markerOf line).toList ++ marks rest := by
  unfold marks
  rw [splitInclusive_append_of_isLine h, filterMap_cons]
  cases markerOf line <;> rfl

theorem marks_of_notMem (h : '\n' ∉ line) : marks line = (markerOf line).toList := by
  cases line with
  | nil => rfl
  | cons c line =>
    unfold marks
    rw [splitInclusive_of_notMem h (cons_ne_nil c line), filterMap_cons]
    cases markerOf (c :: line) <;> rfl

theorem marks_append (hno : '\n' ∉ text) (hends : Ends (text ++ ['\n'])) (label rest : Text) :
    marks (label ++ (text ++ '\n' :: rest)) = marks label ++ marks rest := by
  induction hlen : label.length using Nat.strong_induction_on generalizing label with
  | _ n ih =>
    cases hsplit : splitFirst '\n' label with
    | none =>
      have hlabel := splitFirst_none hsplit
      have hline : IsLine '\n' (label ++ (text ++ ['\n'])) := IsLine.append ⟨text, hno, rfl⟩ hlabel
      have htext : label ++ (text ++ '\n' :: rest) = label ++ (text ++ ['\n']) ++ rest := by simp
      rw [htext, marks_append_line hline, markerOf_append hends, marks_of_notMem hlabel]
    | some parts =>
      obtain ⟨line, more⟩ := parts
      obtain ⟨hline, rfl⟩ := splitFirst_some hsplit
      have hpos : 0 < line.length := length_pos_of_mem hline.sep_mem
      rw [length_append] at hlen
      rw [append_assoc, marks_append_line hline, marks_append_line hline,
        ih more.length (by omega) more rfl, append_assoc]

theorem marks_append_inline (hfront : '\n' ∉ front) (hne : front ≠ [])
    (hhead : front.head? ≠ some '<') (hno : '\n' ∉ text) (hends : Ends (text ++ ['\n']))
    (label rest : Text) :
    marks (front ++ label ++ (text ++ '\n' :: rest)) = laterMarkers label ++ marks rest := by
  have hnone : ∀ more : Text, markerOf (front ++ more) = none := by
    intro more
    refine markerOf_of_head ?_
    cases front with
    | nil => exact absurd rfl hne
    | cons c front => exact hhead
  rw [marks_append hno hends, laterMarkers_eq]
  congr 1
  cases hsplit : splitFirst '\n' label with
  | none =>
    have hlabel := splitFirst_none hsplit
    have hmem : '\n' ∉ front ++ label := by
      rw [mem_append]
      exact fun h => h.elim hfront hlabel
    rw [marks_of_notMem hmem, hnone]
    cases label with
    | nil => rfl
    | cons c label => rw [splitInclusive_of_notMem hlabel (cons_ne_nil c label)]; rfl
  | some parts =>
    obtain ⟨hline, rfl⟩ := splitFirst_some hsplit
    rw [← append_assoc, marks_append_line (hline.append hfront), hnone,
      splitInclusive_append_of_isLine hline]
    rfl

theorem marks_newline (rest : Text) : marks ('\n' :: rest) = marks rest := by
  have hline : IsLine '\n' ['\n'] := ⟨[], not_mem_nil, rfl⟩
  exact marks_append_line hline rest

/-! ## The prompt -/

theorem notMem_of_mem_lines (h : line ∈ lines text) : '\n' ∉ line := by
  obtain ⟨whole, hwhole, rfl⟩ := mem_map.1 h
  obtain ⟨hne, hinit⟩ := mem_splitInclusive hwhole
  have hdrop : '\n' ∉ whole.dropLast := fun hmem => by simpa using hinit _ hmem
  unfold stripLineEnd
  split
  · split
    · exact fun hmem => hdrop (mem_of_mem_dropLast hmem)
    · exact hdrop
  · rename_i hlast
    intro hmem
    rw [← dropLast_append_getLast hne, mem_append, mem_singleton] at hmem
    rcases hmem with hmem | hmem
    · exact hdrop hmem
    · exact hlast (by rw [getLast?_eq_some_getLast hne, ← hmem])

/-- Quoted lines are no markers. -/
theorem marks_quoteLines {quoted : List Text} (h : ∀ line ∈ quoted, '\n' ∉ line) (rest : Text) :
    marks (quoted.flatMap quoteLine ++ rest) = marks rest := by
  induction quoted with
  | nil => rfl
  | cons line quoted ih =>
    have hno := h line mem_cons_self
    have hline : IsLine '\n' (quoteLine line) := by
      unfold quoteLine
      split
      · exact ⟨['>'], by decide, rfl⟩
      · exact ⟨'>' :: ' ' :: line, by simp [hno], rfl⟩
    have hnone : markerOf (quoteLine line) = none := by
      refine markerOf_of_head ?_
      unfold quoteLine
      split <;> exact (by decide : some '>' ≠ some '<')
    rw [flatMap_cons, append_assoc, marks_append_line hline, hnone,
      ih fun l hl => h l (mem_cons_of_mem line hl)]
    rfl

theorem notMem_headingEnd (comment : DeliveredComment) : '\n' ∉ headingEnd comment := by
  unfold headingEnd
  simp only [append_assoc, mem_append, not_or]
  refine ⟨by decide, ?_, by decide, ?_, by decide⟩
  · exact fun h => (neutral_format _ _ h).ne_newline rfl
  · exact fun h => (neutral_hyphenated _ _ h).ne_newline rfl

theorem marks_commentBlock (comment : DeliveredComment) (rest : Text) :
    marks (commentBlock comment ++ rest) =
      comment.commentId :: laterMarkers comment.author ++ marks rest := by
  have hmarker : IsLine '\n' (markerLine comment.commentId ++ ['\n']) :=
    ⟨_, newline_not_mem_markerLine _, rfl⟩
  have hends : Ends (headingEnd comment ++ ['\n']) :=
    ⟨by decide, fun _ => ⟨rfl, (by decide : some '·' ≠ some 'v')⟩⟩
  have hquoted : ∀ line ∈ comment.quotedLines, '\n' ∉ line := fun _ => notMem_of_mem_lines
  have hblock : commentBlock comment ++ rest = '\n' :: (markerLine comment.commentId ++ ['\n'] ++
      ("**Comment from ".toList ++ comment.author ++ (headingEnd comment ++
        '\n' :: '\n' :: (comment.quotedLines.flatMap quoteLine ++ rest)))) := by
    simp [commentBlock]
  rw [hblock, marks_newline, marks_append_line hmarker, markerOf_markerLine,
    marks_append_inline (by decide) (by decide) (by decide) (notMem_headingEnd comment) hends,
    marks_newline, marks_quoteLines hquoted]
  rfl

theorem marks_commentBlocks (comments : List DeliveredComment) :
    marks (comments.flatMap commentBlock) =
      comments.flatMap fun comment => comment.commentId :: laterMarkers comment.author := by
  induction comments with
  | nil => rfl
  | cons comment comments ih => rw [flatMap_cons, marks_commentBlock, ih, flatMap_cons]

theorem notMem_opening_snd (count : ℕ) : '\n' ∉ (opening count).2 := by
  unfold opening
  split
  all_goals
    simp only [mem_append, not_or]
    decide

theorem ends_opening_snd (count : ℕ) : Ends ((opening count).2 ++ ['\n']) := by
  unfold opening
  split
  all_goals exact ⟨by decide, fun _ => ⟨rfl, by decide⟩⟩

theorem head?_opening_fst (count : ℕ) :
    (opening count).1 ≠ [] ∧ (opening count).1.head? ≠ some '<' := by
  unfold opening
  split
  · decide
  · have hne : toDigits 10 count ≠ [] := toDigits_ne_nil
    obtain ⟨c, digits, hdigits⟩ := exists_cons_of_ne_nil hne
    have hc : Neutral c := neutral_toDigits c (hdigits ▸ mem_cons_self)
    show toDigits 10 count ++ _ ≠ [] ∧ (toDigits 10 count ++ _).head? ≠ some '<'
    rw [hdigits]
    exact ⟨cons_ne_nil _ _, fun h => hc.2.1 (some.inj h)⟩

/-- **Main lemma.** The markers of a prompt are those of its comments, and those that later lines
    of the label and of the names begin with. -/
theorem extractMarkers_composeDeliveryPrompt (label : Text) (comments : List DeliveredComment) :
    extractMarkers (composeDeliveryPrompt label comments) =
      laterMarkers label ++
        comments.flatMap fun comment => comment.commentId :: laterMarkers comment.author := by
  obtain ⟨hne, hhead⟩ := head?_opening_fst comments.length
  rw [extractMarkers_eq_marks, composeDeliveryPrompt,
    marks_append_inline (fun h => (mem_opening_fst _ _ h).1 rfl) hne hhead
      (notMem_opening_snd _) (ends_opening_snd _), marks_commentBlocks]

theorem length_flatMap_markers (comments : List DeliveredComment) :
    comments.length ≤ (comments.flatMap fun comment =>
        comment.commentId :: laterMarkers comment.author).length ∧
      ((comments.flatMap fun comment =>
          comment.commentId :: laterMarkers comment.author).length = comments.length →
        ∀ comment ∈ comments, laterMarkers comment.author = []) := by
  induction comments with
  | nil => simp
  | cons comment comments ih =>
    obtain ⟨hle, hall⟩ := ih
    simp only [flatMap_cons, length_append, length_cons]
    refine ⟨by omega, fun hlen => ?_⟩
    have hnil : laterMarkers comment.author = [] := length_eq_zero_iff.1 (by omega)
    exact forall_mem_cons.2 ⟨hnil, hall (by omega)⟩

/-- The markers of a prompt are its comments' ids in order if and only if no line
    of the label or of an author's name after its first begins with a marker. -/
theorem extractMarkers_eq_ids_iff (label : Text) (comments : List DeliveredComment) :
    extractMarkers (composeDeliveryPrompt label comments) =
        comments.map DeliveredComment.commentId ↔
      laterMarkers label = [] ∧ ∀ comment ∈ comments, laterMarkers comment.author = [] := by
  rw [extractMarkers_composeDeliveryPrompt]
  constructor
  · intro h
    have hlen := congrArg length h
    obtain ⟨hle, hall⟩ := length_flatMap_markers comments
    rw [length_append, length_map] at hlen
    exact ⟨length_eq_zero_iff.1 (by omega), hall (by omega)⟩
  · rintro ⟨hlabel, hauthors⟩
    rw [hlabel, nil_append]
    induction comments with
    | nil => rfl
    | cons comment comments ih =>
      rw [flatMap_cons, hauthors comment mem_cons_self,
        ih fun c hc => hauthors c (mem_cons_of_mem comment hc)]
      rfl

/-- A comment whose author's name has a second line. -/
def exampleAuthor : DeliveredComment :=
  { commentId := exampleId 2
    authorName := some ("Ada\n".toList ++ markerLine (exampleId 1))
    createdAt := ⟨2026, 10, 19, 4, 45⟩
    message := "ok".toList }

/-- Its prompt shows the marker of another comment. -/
theorem extractMarkers_exampleAuthor :
    extractMarkers (composeDeliveryPrompt (issueLabel "VAS-1".toList "t".toList) [exampleAuthor]) =
        [exampleId 2, exampleId 1] ∧
      [exampleAuthor].map DeliveredComment.commentId = [exampleId 2] := by
  refine ⟨?_, rfl⟩
  rw [extractMarkers_composeDeliveryPrompt]
  decide +kernel

end VibeKanban.Delivery
