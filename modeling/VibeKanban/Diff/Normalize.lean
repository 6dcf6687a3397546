import VibeKanban.Diff.Unified

/-!
# What normalization keeps of a diff

A unified diff with its hunks, written down as text, and what `normalizeUnifiedDiff` makes of it.

* `normalized_iff`: when it keeps the hunks.
-/

namespace VibeKanban.Diff.Unified

open Lib List
open Delivery (Text isWhitespace trimEnd)

/-! ## Diffs -/

/-- A text on one line. -/
abbrev Line := { line : Text // '\n' ∉ line }

inductive Sign where
  | context
  | deletion
  | addition
  deriving DecidableEq

def Sign.char : Sign → Char
  | .context => ' '
  | .deletion => '-'
  | .addition => '+'

/-- A body line, and whether `\ No newline at end of file` follows. -/
structure BodyLine where
  sign : Sign
  text : Line
  noNewline : Bool

/-- `start` or `start,count`. -/
structure HunkRange where
  start : ℕ
  count : Option ℕ

inductive HunkHeader where
  | bare
  /-- `@@ -old +new @@`, and what follows in the line -/
  | ranges (old new : HunkRange) (heading : Line)

/-- A line that opens no hunk. -/
abbrev HeaderLine := { line : Text // '\n' ∉ line ∧ startsHunk line = false }

/-- A hunk, and the lines of file headers up to the next one. -/
structure Hunk where
  header : HunkHeader
  first : BodyLine
  rest : List BodyLine
  after : List HeaderLine

/-- The lines of the first file header, and the hunks. -/
structure UnifiedDiff where
  fileHeader : List HeaderLine
  hunks : List Hunk

/-! ## Their texts -/

def BodyLine.line (body : BodyLine) : Text := body.sign.char :: body.text.val

def noNewlineMarker : Text := "\\ No newline at end of file".toList

def BodyLine.lines (body : BodyLine) : List Text :=
  body.line :: if body.noNewline then [noNewlineMarker] else []

def HunkRange.text (range : HunkRange) : Text :=
  digits range.start ++ match range.count with
    | none => []
    | some count => ',' :: digits count

def HunkHeader.line : HunkHeader → Text
  | .bare => "@@".toList
  | .ranges old new heading =>
    "@@ -".toList ++ old.text ++ " +".toList ++ new.text ++ " @@".toList ++ heading.val

def Hunk.body (hunk : Hunk) : List BodyLine := hunk.first :: hunk.rest

/-- The lines after the header. -/
def Hunk.tail (hunk : Hunk) : List Text :=
  hunk.body.flatMap BodyLine.lines ++ hunk.after.map Subtype.val

def UnifiedDiff.lines (diff : UnifiedDiff) : List Text :=
  diff.fileHeader.map Subtype.val ++ diff.hunks.flatMap fun hunk => hunk.header.line :: hunk.tail

def UnifiedDiff.text (diff : UnifiedDiff) : Text := render diff.lines

/-! ## What is asked of normalization -/

/-- The number of lines that a range is for. -/
def HunkRange.lineCount (range : HunkRange) : ℕ := range.count.getD 1

/-- The counts of the header are those of the lines. -/
def HunkHeader.Counts (header : HunkHeader) (body : List BodyLine) : Prop :=
  match header with
  | .bare => False
  | .ranges old new _ =>
    old.lineCount = body.countP (fun line => line.sign ≠ .addition) ∧
      new.lineCount = body.countP (fun line => line.sign ≠ .deletion)

def Hunk.linesUnder (header : HunkHeader) (hunk : Hunk) : List Text :=
  header.line :: hunk.body.map BodyLine.line

/-- The normalized diff is the hunks in order, with all of their body lines and with headers that
    count them, and it is normalized to itself. -/
structure Normalized (filePath : Text) (diff : UnifiedDiff) : Prop where
  preserved : ∃ headers : List HunkHeader,
    Forall₂ (fun header hunk => header.Counts hunk.body) headers diff.hunks ∧
      normalizeUnifiedDiff filePath diff.text = fileHeader filePath ++
        render (zipWith Hunk.linesUnder headers diff.hunks).flatten
  stable : normalizeUnifiedDiff filePath (normalizeUnifiedDiff filePath diff.text) =
    normalizeUnifiedDiff filePath diff.text

/-! ## When it is met -/

/-- A hunk that is kept. -/
structure Hunk.Kept (hunk : Hunk) : Prop where
  counts : hunk.header.Counts hunk.body
  ends : ∀ line ∈ hunk.body, line.text.val.getLast? ≠ some '\r'
  marker : ∀ line ∈ hunk.body.dropLast, line.noNewline = false
  closed : (hunk.rest.getLastD hunk.first).noNewline = true ∨
    ∀ line ∈ hunk.after.head?, startsBody line.val = false

/-- A header that a second pass leaves as it is. -/
def HunkHeader.Stable : HunkHeader → Prop
  | .bare => True
  | .ranges _ _ heading => ¬ "\r\r".toList <:+ heading.val

/-- No line of the file header is taken for a hunk with a body. -/
def Quiet (filePath : Text) : Prop :=
  (headerLines filePath).IsChain fun line next => startsHunk line = true → startsBody next = false

structure Fits (filePath : Text) (diff : UnifiedDiff) : Prop where
  quiet : Quiet filePath
  kept : ∀ hunk ∈ diff.hunks, hunk.Kept
  stable : ∀ hunk ∈ diff.hunks, hunk.header.Stable
  /-- without a hunk it takes a path with a line that looks like one -/
  hunks : diff.hunks = [] → (∀ line ∈ diff.fileHeader, startsBody line.val = false) ∧
    ∃ line ∈ headerLines filePath, startsHunk line = true

/-! ## The lines of a diff -/

variable {hunk : Hunk} {line : Text} {filePath : Text} {diff : UnifiedDiff}
  {first : BodyLine} {rest : List BodyLine} {after : List HeaderLine} {old new : HunkRange}
  {heading : Line}

open HunkHeader

theorem BodyLine.startsBody_line (body : BodyLine) : startsBody body.line = true := by
  unfold BodyLine.line
  cases body.sign <;> rfl

theorem BodyLine.notMem_line (body : BodyLine) : '\n' ∉ body.line := by
  unfold BodyLine.line
  rw [notMem_cons]
  refine ⟨?_, body.text.property⟩
  cases body.sign <;> decide

theorem HunkRange.notMem_text (range : HunkRange) : '\n' ∉ range.text := by
  unfold HunkRange.text
  rw [mem_append, not_or]
  refine ⟨notMem_digits _ (by decide), ?_⟩
  split
  · exact not_mem_nil
  · exact notMem_cons.2 ⟨by decide, notMem_digits _ (by decide)⟩

theorem HunkHeader.notMem_line (header : HunkHeader) : '\n' ∉ header.line := by
  cases header with
  | bare => decide
  | ranges old new heading =>
    unfold line
    simp only [mem_append, not_or]
    exact ⟨⟨⟨⟨⟨by decide, old.notMem_text⟩, by decide⟩, new.notMem_text⟩, by decide⟩,
      heading.property⟩

theorem HunkHeader.startsHunk_line (header : HunkHeader) : startsHunk header.line = true := by
  cases header with
  | bare => decide
  | ranges old new heading => rfl

theorem Hunk.mem_tail (h : line ∈ hunk.tail) : '\n' ∉ line ∧ startsHunk line = false := by
  rcases mem_append.1 h with h | h
  · obtain ⟨body, -, hline⟩ := mem_flatMap.1 h
    rcases mem_cons.1 hline with rfl | hmarker
    · refine ⟨body.notMem_line, ?_⟩
      unfold BodyLine.line
      cases body.sign <;> rfl
    · split at hmarker
      · rw [mem_singleton.1 hmarker]
        decide
      · cases hmarker
  · obtain ⟨header, -, rfl⟩ := mem_map.1 h
    exact header.property

theorem UnifiedDiff.notMem_lines (diff : UnifiedDiff) : ∀ line ∈ diff.lines, '\n' ∉ line := by
  intro line hline
  rcases mem_append.1 hline with hline | hline
  · obtain ⟨header, -, rfl⟩ := mem_map.1 hline
    exact header.property.1
  · obtain ⟨hunk, -, hline⟩ := mem_flatMap.1 hline
    rcases mem_cons.1 hline with rfl | hline
    · exact hunk.header.notMem_line
    · exact (Hunk.mem_tail hline).1

/-- The lines that the first pass takes for the body of a hunk. -/
def Hunk.taken (hunk : Hunk) : List Text := hunk.tail.takeWhile startsBody

theorem collect_hunks (hunks : List Hunk) :
    collect (hunks.flatMap fun hunk => hunk.header.line :: hunk.tail) =
      hunks.map fun hunk => (hunk.header.line, hunk.taken) := by
  induction hunks with
  | nil => rfl
  | cons hunk hunks ih =>
    have hhead : ∀ line ∈ (hunks.flatMap fun hunk => hunk.header.line :: hunk.tail).head?,
        startsHunk line = true := by
      cases hunks with
      | nil => exact nofun
      | cons next hunks =>
        intro line hline
        cases hline
        exact next.header.startsHunk_line
    rw [flatMap_cons, collect_append_of_head hhead, ih, collect,
      if_pos hunk.header.startsHunk_line, collect_eq_nil fun line hline => (Hunk.mem_tail hline).2]
    rfl

theorem collect_lines (diff : UnifiedDiff) :
    collect diff.lines = diff.hunks.map fun hunk => (hunk.header.line, hunk.taken) := by
  have hheader : ∀ line ∈ diff.fileHeader.map Subtype.val, startsHunk line = false := by
    intro line hline
    obtain ⟨header, -, rfl⟩ := mem_map.1 hline
    exact header.property.2
  have hhead : ∀ line ∈ (diff.hunks.flatMap fun hunk => hunk.header.line :: hunk.tail).head?,
      startsHunk line = true := by
    cases diff.hunks with
    | nil => exact nofun
    | cons next hunks =>
      intro line hline
      cases hline
      exact next.header.startsHunk_line
  rw [UnifiedDiff.lines, collect_append_of_head hhead, collect_eq_nil hheader, collect_hunks]
  rfl

theorem any_startsHunk_lines (h : diff.hunks ≠ []) : diff.lines.any startsHunk = true := by
  obtain ⟨hunk, hunks, hcons⟩ := exists_cons_of_ne_nil h
  rw [any_eq_true]
  refine ⟨hunk.header.line, ?_, hunk.header.startsHunk_line⟩
  unfold UnifiedDiff.lines
  rw [hcons]
  simp

/-! ## What is taken of a hunk -/

theorem Hunk.taken_ne_nil (hunk : Hunk) : hunk.taken ≠ [] := by
  unfold Hunk.taken Hunk.tail Hunk.body
  rw [flatMap_cons, BodyLine.lines, cons_append, cons_append,
    takeWhile_cons_of_pos hunk.first.startsBody_line]
  exact cons_ne_nil _ _

/-- What is taken begins with the first line, and goes on unless a marker follows. -/
theorem takeWhile_lines (first : BodyLine) (rest : List Text) :
    (first.lines ++ rest).takeWhile startsBody =
      first.line :: if first.noNewline then [] else rest.takeWhile startsBody := by
  unfold BodyLine.lines
  rw [cons_append, takeWhile_cons_of_pos first.startsBody_line]
  cases first.noNewline <;> rfl

/-- Where as many lines are taken as the body has. -/
theorem marker_closed_of_length
    (h : (((first :: rest).flatMap BodyLine.lines ++ after.map Subtype.val).takeWhile
      startsBody).length = (first :: rest).length) :
    (∀ line ∈ (first :: rest).dropLast, line.noNewline = false) ∧
      ((rest.getLastD first).noNewline = true ∨
        ∀ line ∈ after.head?, startsBody line.val = false) := by
  induction rest generalizing first with
  | nil =>
    refine ⟨by simp, ?_⟩
    cases hmarker : first.noNewline with
    | true => exact .inl hmarker
    | false =>
      right
      rw [flatMap_cons, append_assoc, takeWhile_lines, hmarker] at h
      intro line hline
      cases after with
      | nil => cases hline
      | cons next after =>
        rw [← Option.some.inj hline]
        cases hbody : startsBody next.val with
        | true => simp [takeWhile_cons_of_pos hbody] at h
        | false => rfl
  | cons next rest ih =>
    rw [flatMap_cons, append_assoc, takeWhile_lines] at h
    cases hmarker : first.noNewline with
    | true => simp [hmarker] at h
    | false =>
      rw [hmarker, if_neg (by simp), length_cons, length_cons, Nat.add_right_cancel_iff] at h
      obtain ⟨hrest, hclosed⟩ := ih h
      rw [getLastD_cons]
      refine ⟨?_, hclosed⟩
      rw [dropLast_cons_of_ne_nil (cons_ne_nil _ _), forall_mem_cons]
      exact ⟨hmarker, hrest⟩

theorem takeWhile_of_marker_closed
    (hmarkers : ∀ line ∈ (first :: rest).dropLast, line.noNewline = false)
    (hclosed : (rest.getLastD first).noNewline = true ∨
      ∀ line ∈ after.head?, startsBody line.val = false) :
    ((first :: rest).flatMap BodyLine.lines ++ after.map Subtype.val).takeWhile startsBody =
      (first :: rest).map BodyLine.line := by
  induction rest generalizing first with
  | nil =>
    rw [flatMap_cons, append_assoc, takeWhile_lines, flatMap_nil, nil_append]
    cases hmarker : first.noNewline with
    | true => rfl
    | false =>
      have hhead := hclosed.resolve_left (by simp [hmarker])
      cases after with
      | nil => rfl
      | cons next after =>
        rw [if_neg (by simp), map_cons, takeWhile_cons_of_neg (by simp [hhead next rfl])]
        rfl
  | cons next rest ih =>
    rw [dropLast_cons_of_ne_nil (cons_ne_nil _ _), forall_mem_cons] at hmarkers
    rw [getLastD_cons] at hclosed
    rw [flatMap_cons, append_assoc, takeWhile_lines, hmarkers.1, if_neg (by simp),
      ih hmarkers.2 hclosed]
    rfl

/-! ## Headers -/

theorem digits_append_inj {m n : ℕ} {x y : Text} (hx : ∀ c ∈ x.head?, c.isDigit = false)
    (hy : ∀ c ∈ y.head?, c.isDigit = false) (h : digits m ++ x = digits n ++ y) :
    m = n ∧ x = y := by
  have htake : ∀ (k : ℕ) (z : Text), (∀ c ∈ z.head?, c.isDigit = false) →
      (digits k ++ z).takeWhile Char.isDigit = digits k := by
    intro k z hz
    have hall : ∀ c ∈ digits k, c.isDigit = true :=
      fun c hc => Nat.isDigit_of_mem_toDigits (by decide) (by decide) hc
    rw [takeWhile_append_of_pos hall]
    cases z with
    | nil => simp
    | cons c z => rw [takeWhile_cons_of_neg (by simp [hz c rfl]), append_nil]
  have hdigits : digits m = digits n := by rw [← htake m x hx, h, htake n y hy]
  refine ⟨?_, append_cancel_left (hdigits ▸ h)⟩
  have hofDigits := congrArg (fun ds => Nat.ofDigitChars 10 ds 0) hdigits
  simpa [digits, Nat.ofDigitChars_ten_toDigits] using hofDigits

theorem HunkRange.text_append_inj {range range' : HunkRange} {x y : Text}
    (h : range.text ++ ' ' :: x = range'.text ++ ' ' :: y) : range = range' ∧ x = y := by
  obtain ⟨start, count⟩ := range
  obtain ⟨start', count'⟩ := range'
  unfold HunkRange.text at h
  rw [append_assoc, append_assoc] at h
  have hhead : ∀ (count : Option ℕ) (z : Text), ∀ c ∈ ((match count with
      | none => []
      | some count => ',' :: digits count) ++ ' ' :: z).head?, c.isDigit = false := by
    intro count z c hc
    cases count <;> rw [← Option.some.inj hc] <;> rfl
  obtain ⟨rfl, hrest⟩ := digits_append_inj (hhead count x) (hhead count' y) h
  cases count with
  | none =>
    cases count' with
    | none => exact ⟨rfl, (cons.inj hrest).2⟩
    | some count' => exact absurd (cons.inj hrest).1 (by decide)
  | some count =>
    cases count' with
    | none => exact absurd (cons.inj hrest).1 (by decide)
    | some count' =>
      obtain ⟨rfl, hrest'⟩ := digits_append_inj (by simp) (by simp) (cons.inj hrest).2
      exact ⟨rfl, (cons.inj hrest').2⟩

theorem ranges_inj {old' new' : HunkRange} {heading' : Line}
    (h : (ranges old new heading).line = (ranges old' new' heading').line) :
    old = old' ∧ new = new' ∧ heading = heading' := by
  have hline : ∀ (old new : HunkRange) (heading : Line),
      (HunkHeader.ranges old new heading).line = "@@ -".toList ++
        (old.text ++ ' ' :: '+' :: (new.text ++ ' ' :: ("@@".toList ++ heading.val))) := by
    intro old new heading
    unfold line
    dsimp only
    rw [append_assoc, append_assoc, append_assoc, append_assoc]
    rfl
  rw [hline, hline] at h
  obtain ⟨rfl, hnew⟩ := HunkRange.text_append_inj (append_cancel_left h)
  obtain ⟨rfl, hheading⟩ := HunkRange.text_append_inj (cons.inj hnew).2
  exact ⟨rfl, rfl, Subtype.ext (append_cancel_left hheading)⟩

theorem HunkRange.text_one (count : ℕ) :
    (HunkRange.mk 1 (some count)).text = '1' :: ',' :: digits count := by
  have hone : digits 1 = ['1'] := rfl
  unfold HunkRange.text
  rw [hone]
  rfl

/-- The header that is made for lines, merged with the first of them. -/
theorem countsHeader_append (ls : List Text) (heading : Line) : countsHeader ls ++ heading.val =
      (ranges ⟨1, some (countOld ls)⟩ ⟨1, some (countNew ls)⟩ heading).line := by
  unfold countsHeader line
  dsimp only
  rw [HunkRange.text_one, HunkRange.text_one]
  generalize digits (countOld ls) = old
  generalize digits (countNew ls) = new
  simp

variable {text : Text}

theorem mem_trim {c : Char} (h : c ∈ text) (hc : isWhitespace c = false) : c ∈ trim text := by
  have hdrop : ∀ text : Text, c ∈ text → c ∈ text.dropWhile isWhitespace := by
    intro text h
    rw [← takeWhile_append_dropWhile (p := isWhitespace) (l := text), mem_append] at h
    refine h.resolve_left fun hmem => ?_
    rw [mem_takeWhile_imp hmem] at hc
    cases hc
  exact hdrop _ (mem_reverse.2 (hdrop _ (mem_reverse.2 h)))

theorem trim_ranges (old new : HunkRange) (heading : Line) :
    trim ((HunkHeader.ranges old new heading).line ++ ['\n']) ≠ "@@".toList := by
  have hmem : '-' ∈ (ranges old new heading).line ++ ['\n'] := by
    unfold line
    iterate 6 rw [mem_append]; left
    decide
  intro htrim
  have hdash := mem_trim hmem (by decide)
  rw [htrim] at hdash
  revert hdash
  decide

/-- A heading without a carriage return at its end. -/
def Line.strip (line : Line) : Line := ⟨Unified.strip line.val, forall_mem_strip line.property⟩

theorem strip_append {front : Text} (h : front.getLast? ≠ some '\r') :
    strip (front ++ text) = front ++ strip text := by
  unfold strip
  by_cases hnil : text = []
  · rw [hnil, append_nil, if_neg h]
    simp
  · rw [getLast?_append_of_ne_nil _ hnil]
    split
    · rw [dropLast_append_of_ne_nil hnil]
    · rfl

theorem strip_ranges (old new : HunkRange) (heading : Line) : strip (ranges old new heading).line =
      (ranges old new (Line.strip heading)).line := by
  unfold line
  rw [strip_append]
  · rfl
  · rw [getLast?_append_of_ne_nil _ (by decide)]
    decide

theorem keeps_ranges (old new : HunkRange) (heading : Line) :
    keeps (ranges old new heading).line = true := rfl

theorem strip_line (body : BodyLine) :
    strip body.line = body.sign.char :: (Line.strip body.text).val := by
  have hsign : [body.sign.char].getLast? ≠ some '\r' := by cases body.sign <;> decide
  exact strip_append hsign

theorem strip_cons {c : Char} (h : startsBody (c :: text) = true) :
    strip (c :: text) = c :: strip text := by
  have hc : [c].getLast? ≠ some '\r' := by
    intro hlast
    have heq : c = '\r' := by simpa using hlast
    rw [heq] at h
    exact absurd h (by simp [startsBody])
  exact strip_append hc

theorem startsBody_strip (h : startsBody line = true) : startsBody (strip line) = true := by
  cases line with
  | nil => cases h
  | cons c text =>
    rw [strip_cons h]
    exact h

theorem head?_strip (h : startsBody line = true) : (strip line).head? = line.head? := by
  cases line with
  | nil => cases h
  | cons c text =>
    rw [strip_cons h]
    rfl

theorem strip_eq_self_iff : strip text = text ↔ text.getLast? ≠ some '\r' := by
  unfold strip
  split
  · rename_i hlast
    have hne : text ≠ [] := by
      rintro rfl
      cases hlast
    have hlength : text.dropLast ≠ text := by
      intro heq
      have hlen := congrArg length heq
      have hpos := length_pos_iff.2 hne
      rw [length_dropLast] at hlen
      omega
    exact ⟨fun h => absurd h hlength, fun h => absurd hlast h⟩
  · rename_i hlast
    exact ⟨fun _ => hlast, fun _ => rfl⟩

theorem strip_line_eq_self_iff (body : BodyLine) :
    strip body.line = body.line ↔ body.text.val.getLast? ≠ some '\r' := by
  rw [strip_line, ← strip_eq_self_iff]
  exact ⟨fun h => (cons.inj h).2, fun h => congrArg _ h⟩

/-! ## The hunks of the normalized diff -/

theorem forall_mem_taken (hunk : Hunk) : ∀ line ∈ hunk.taken, startsBody line = true :=
  fun _ h => mem_takeWhile_imp h

variable {ls : List Text}

theorem filter_keeps (h : ∀ line ∈ ls, startsBody line = true) :
    (ls.map strip).filter keeps = ls.map strip := by
  rw [filter_eq_self]
  intro line hline
  obtain ⟨raw, hraw, rfl⟩ := mem_map.1 hline
  rw [keeps, startsBody_strip (h raw hraw), Bool.or_true]

theorem keptLines_ranges (hne : ls ≠ [])
    (h : ∀ line ∈ ls, startsBody line = true) : keptLines ((ranges old new heading).line, ls) =
      (ranges old new (Line.strip heading)).line :: ls.map strip := by
  unfold keptLines
  rw [fixedLines_of_not_bare hne (trim_ranges old new heading), map_cons, strip_ranges,
    filter_cons_of_pos (keeps_ranges _ _ _), filter_keeps h]

theorem keptLines_bare {line : Text} (hline : '\n' ∉ line)
    (h : ∀ body ∈ line :: ls, startsBody body = true) : keptLines (bare.line, line :: ls) =
      (ranges ⟨1, some (countOld (line :: ls))⟩ ⟨1, some (countNew (line :: ls))⟩
        (Line.strip ⟨line, hline⟩)).line :: ls.map strip := by
  have hbare : trim (HunkHeader.bare.line ++ ['\n']) = "@@".toList := by decide
  unfold keptLines
  rw [fixedLines_of_bare hbare, map_cons, countsHeader_append _ ⟨line, hline⟩, strip_ranges,
    filter_cons_of_pos (keeps_ranges _ _ _),
    filter_keeps fun body hbody => h body (mem_cons_of_mem _ hbody)]

theorem countOld_map_line (body : List BodyLine) :
    countOld (body.map BodyLine.line) = body.countP fun line => line.sign ≠ .addition := by
  unfold countOld
  rw [countP_map]
  congr 1
  funext line
  show decide (some line.sign.char = some '-' ∨ some line.sign.char = some ' ') = _
  cases line.sign <;> rfl

theorem countNew_map_line (body : List BodyLine) :
    countNew (body.map BodyLine.line) = body.countP fun line => line.sign ≠ .deletion := by
  unfold countNew
  rw [countP_map]
  congr 1
  funext line
  show decide (some line.sign.char = some '+' ∨ some line.sign.char = some ' ') = _
  cases line.sign <;> rfl

theorem counts_map_strip (h : ∀ line ∈ ls, startsBody line = true) :
    countOld (ls.map strip) = countOld ls ∧ countNew (ls.map strip) = countNew ls := by
  unfold countOld countNew
  rw [countP_map, countP_map]
  constructor
  all_goals
    apply countP_congr
    intro line hline
    show decide ((strip line).head? = _ ∨ (strip line).head? = _) = true ↔ _
    rw [head?_strip (h line hline)]

/-- A line counts on one side at least. -/
theorem counts_cons_ne (h : startsBody line = true) :
    countOld (line :: ls) ≠ countOld ls ∨ countNew (line :: ls) ≠ countNew ls := by
  unfold countOld countNew startsBody at *
  rcases of_decide_eq_true h with h | h | h
  · left
    simp [h]
  · right
    simp [h]
  · left
    simp [h]

/-- A header without a carriage return at its end. -/
def HunkHeader.strip : HunkHeader → HunkHeader
  | .bare => .bare
  | .ranges old new heading => .ranges old new (Line.strip heading)

theorem map_strip_body (h : hunk.Kept) :
    (hunk.body.map BodyLine.line).map strip = hunk.body.map BodyLine.line := by
  rw [map_map]
  apply map_congr_left
  intro body hbody
  exact (strip_line_eq_self_iff body).2 (h.ends body hbody)

theorem keptLines_of_kept (h : hunk.Kept) :
    keptLines (hunk.header.line, hunk.taken) = hunk.linesUnder hunk.header.strip := by
  have htaken : hunk.taken = hunk.body.map BodyLine.line :=
    takeWhile_of_marker_closed h.marker h.closed
  have hcounts := h.counts
  cases hheader : hunk.header with
  | bare =>
    rw [hheader] at hcounts
    exact hcounts.elim
  | ranges old new heading =>
    rw [keptLines_ranges hunk.taken_ne_nil (forall_mem_taken hunk), htaken, map_strip_body h]
    rfl

/-- **A hunk is kept** if what is written of it is its lines under a header that counts them. -/
theorem kept_iff (hunk : Hunk) : (∃ header : HunkHeader, header.Counts hunk.body ∧
        keptLines (hunk.header.line, hunk.taken) = hunk.linesUnder header) ↔ hunk.Kept := by
  constructor
  · rintro ⟨header, hcounts, hlines⟩
    cases hheader : hunk.header with
    | bare =>
      -- the first line is in the header: its counts are of one line more than follow
      obtain ⟨ls, htaken⟩ : ∃ ls, hunk.taken = hunk.first.line :: ls := by
        unfold Hunk.taken Hunk.tail Hunk.body
        rw [flatMap_cons, append_assoc, takeWhile_lines]
        exact ⟨_, rfl⟩
      have hbody : ∀ line ∈ hunk.first.line :: ls, startsBody line = true := by
        rw [← htaken]
        exact forall_mem_taken hunk
      rw [hheader, htaken, keptLines_bare hunk.first.notMem_line hbody] at hlines
      obtain ⟨hhead, hrest⟩ := cons.inj hlines
      cases header with
      | bare => exact hcounts.elim
      | ranges old new heading =>
        obtain ⟨rfl, rfl, -⟩ := ranges_inj hhead
        obtain ⟨hold, hnew⟩ := hcounts
        obtain ⟨hold', hnew'⟩ :=
          counts_map_strip fun line hline => hbody line (mem_cons_of_mem _ hline)
        rw [← countOld_map_line, ← hrest, hold'] at hold
        rw [← countNew_map_line, ← hrest, hnew'] at hnew
        rcases counts_cons_ne hunk.first.startsBody_line with h | h
        · exact (h hold).elim
        · exact (h hnew).elim
    | ranges old new heading =>
      rw [hheader, keptLines_ranges hunk.taken_ne_nil (forall_mem_taken hunk)] at hlines
      obtain ⟨hhead, hrest⟩ := cons.inj hlines
      have hlength : hunk.taken.length = hunk.body.length := by simpa using congrArg length hrest
      obtain ⟨hmarker, hclosed⟩ := marker_closed_of_length hlength
      have htaken : hunk.taken = hunk.body.map BodyLine.line :=
        takeWhile_of_marker_closed hmarker hclosed
      refine ⟨?_, ?_, hmarker, hclosed⟩
      · cases header with
        | bare => exact hcounts.elim
        | ranges old' new' heading' =>
          obtain ⟨rfl, rfl, -⟩ := ranges_inj hhead
          rw [hheader]
          exact hcounts
      · intro body hbody
        rw [htaken, map_map, map_inj_left] at hrest
        exact (strip_line_eq_self_iff body).1 (hrest body hbody)
  · intro hkept
    refine ⟨hunk.header.strip, ?_, keptLines_of_kept hkept⟩
    have hcounts := hkept.counts
    cases hheader : hunk.header with rw [hheader] at hcounts
    | bare => exact hcounts.elim
    | ranges old new heading => exact hcounts

theorem block_append_inj {ls' rest rest' : List Text}
    (h : ∀ line ∈ ls, startsBody line = true) (h' : ∀ line ∈ ls', startsBody line = true)
    (hrest : ∀ line ∈ rest.head?, startsBody line = false)
    (hrest' : ∀ line ∈ rest'.head?, startsBody line = false) (heq : ls ++ rest = ls' ++ rest') :
    ls = ls' ∧ rest = rest' := by
  have htake : ∀ ls rest : List Text, (∀ line ∈ ls, startsBody line = true) →
      (∀ line ∈ rest.head?, startsBody line = false) →
      (ls ++ rest).takeWhile startsBody = ls := by
    intro ls rest hls hhead
    rw [takeWhile_append_of_pos hls]
    cases rest with
    | nil => simp
    | cons line rest => rw [takeWhile_cons_of_neg (by simp [hhead line rfl]), append_nil]
  have hsame : ls = ls' := by rw [← htake ls rest h hrest, heq, htake ls' rest' h' hrest']
  exact ⟨hsame, append_cancel_left (hsame ▸ heq)⟩

/-- What is written of a hunk: a line that opens it, and body lines. -/
theorem keptLines_eq_cons (hunk : Hunk) : ∃ header body,
    keptLines (hunk.header.line, hunk.taken) = header :: body ∧ startsHunk header = true ∧
      ∀ line ∈ body, startsBody line = true := by
  obtain ⟨line, ls, htaken⟩ := exists_cons_of_ne_nil hunk.taken_ne_nil
  have hbody : ∀ body ∈ line :: ls, startsBody body = true := by
    rw [← htaken]
    exact forall_mem_taken hunk
  have hstrip : ∀ ls : List Text, (∀ body ∈ ls, startsBody body = true) →
      ∀ body ∈ ls.map strip, startsBody body = true := by
    intro ls h body hmem
    obtain ⟨raw, hraw, rfl⟩ := mem_map.1 hmem
    exact startsBody_strip (h raw hraw)
  cases hheader : hunk.header with
  | bare =>
    have hline : '\n' ∉ line := by
      have hmem : line ∈ hunk.tail :=
        takeWhile_subset _ (htaken ▸ mem_cons_self : line ∈ hunk.taken)
      exact (Hunk.mem_tail hmem).1
    rw [htaken, keptLines_bare hline hbody]
    exact ⟨_, _, rfl, startsHunk_line _,
      hstrip ls fun body hmem => hbody body (mem_cons_of_mem _ hmem)⟩
  | ranges old new heading =>
    rw [htaken, keptLines_ranges (cons_ne_nil _ _) hbody]
    exact ⟨_, _, rfl, startsHunk_line _, hstrip _ hbody⟩

theorem head?_flatMap_keptLines (hunks : List Hunk) :
    ∀ line ∈ (hunks.flatMap fun hunk => keptLines (hunk.header.line, hunk.taken)).head?,
      startsBody line = false := by
  cases hunks with
  | nil => exact nofun
  | cons hunk hunks =>
    obtain ⟨header, body, hlines, hstart, -⟩ := keptLines_eq_cons hunk
    intro line hline
    rw [flatMap_cons, hlines] at hline
    cases hline
    exact startsBody_of_startsHunk hstart

theorem forall_mem_bodyLines (hunk : Hunk) :
    ∀ line ∈ hunk.body.map BodyLine.line, startsBody line = true := by
  intro line hline
  obtain ⟨body, -, rfl⟩ := mem_map.1 hline
  exact body.startsBody_line

theorem preserved_iff (hunks : List Hunk) :
    (∃ headers : List HunkHeader,
        Forall₂ (fun header hunk => header.Counts hunk.body) headers hunks ∧
          (hunks.flatMap fun hunk => keptLines (hunk.header.line, hunk.taken)) =
            (zipWith Hunk.linesUnder headers hunks).flatten) ↔
      ∀ hunk ∈ hunks, hunk.Kept := by
  induction hunks with
  | nil =>
    constructor
    · exact fun _ => forall_mem_nil _
    · exact fun _ => ⟨[], .nil, rfl⟩
  | cons hunk hunks ih =>
    rw [forall_mem_cons, ← ih, ← kept_iff]
    constructor
    · rintro ⟨headers, hcounts, hlines⟩
      cases hcounts with
      | cons hcount hcounts =>
        rename_i header headers
        rw [flatMap_cons, zipWith_cons_cons, flatten_cons] at hlines
        obtain ⟨first, body, hkept, -, hbody⟩ := keptLines_eq_cons hunk
        have hrest : ∀ line ∈ (zipWith Hunk.linesUnder headers hunks).flatten.head?,
            startsBody line = false := by
          cases hcounts with
          | nil => exact nofun
          | cons _ _ =>
            intro line hline
            cases hline
            exact startsBody_of_startsHunk (startsHunk_line _)
        rw [hkept, Hunk.linesUnder, cons_append, cons_append] at hlines
        obtain ⟨hfirst, hlines'⟩ := cons.inj hlines
        obtain ⟨hsame, hothers⟩ := block_append_inj hbody (forall_mem_bodyLines hunk)
          (head?_flatMap_keptLines hunks) hrest hlines'
        refine ⟨⟨header, hcount, ?_⟩, headers, hcounts, hothers⟩
        rw [hkept, hfirst, hsame]
        rfl
    · rintro ⟨⟨header, hcount, hline⟩, headers, hcounts, hlines⟩
      refine ⟨header :: headers, .cons hcount hcounts, ?_⟩
      rw [flatMap_cons, zipWith_cons_cons, flatten_cons, hline, hlines]

/-! ## Normalizing again -/

theorem keptLines_eq_nil_iff {header : Text}
    (h : ∀ line ∈ ls, '\n' ∉ line ∧ startsBody line = true) :
    keptLines (header, ls) = [] ↔ ls = [] := by
  constructor
  · intro hnil
    cases ls with
    | nil => rfl
    | cons line ls =>
      obtain ⟨hline, hbody⟩ := h line mem_cons_self
      unfold keptLines at hnil
      by_cases hbare : trim (header ++ ['\n']) = "@@".toList
      · rw [fixedLines_of_bare hbare, map_cons, countsHeader_append _ ⟨line, hline⟩,
          strip_ranges, filter_cons_of_pos (keeps_ranges _ _ _)] at hnil
        cases hnil
      · rw [fixedLines_of_not_bare (cons_ne_nil _ _) hbare, filter_eq_nil_iff] at hnil
        refine absurd ?_ (hnil (strip line) (by simp))
        rw [keeps, startsBody_strip hbody, Bool.or_true]
  · rintro rfl
    rfl

/-- Lines give no hunk if no body line follows on one that opens a hunk. -/
theorem flatMap_keptLines_eq_nil_iff (h : ∀ line ∈ ls, '\n' ∉ line) :
    (collect ls).flatMap keptLines = [] ↔
      ls.IsChain fun line next => startsHunk line = true → startsBody next = false := by
  have hmem : ∀ hunk ∈ collect ls, ∀ line ∈ hunk.2, '\n' ∉ line ∧ startsBody line = true := by
    intro hunk hhunk line hline
    obtain ⟨-, -, hbody⟩ := mem_collect hhunk
    exact ⟨h _ (hbody line hline).1, (hbody line hline).2⟩
  have hempty : (collect ls).flatMap keptLines = [] ↔ ∀ hunk ∈ collect ls, hunk.2 = [] := by
    rw [flatMap_eq_nil_iff]
    constructor
    · intro hnil hunk hhunk
      exact (keptLines_eq_nil_iff (hmem hunk hhunk)).1 (hnil hunk hhunk)
    · intro hnil hunk hhunk
      exact (keptLines_eq_nil_iff (hmem hunk hhunk)).2 (hnil hunk hhunk)
  rw [hempty]
  clear hempty hmem h
  induction ls with
  | nil => simp [collect]
  | cons line ls ih =>
    have hfirst : (∀ hunk ∈ collect (line :: ls), hunk.2 = []) ↔
        (startsHunk line = true → ls.takeWhile startsBody = []) ∧
          ∀ hunk ∈ collect ls, hunk.2 = [] := by
      rw [collect]
      split
      · rename_i hhunk
        rw [forall_mem_cons]
        exact ⟨fun h => ⟨fun _ => h.1, h.2⟩, fun h => ⟨h.1 hhunk, h.2⟩⟩
      · rename_i hhunk
        exact ⟨fun h => ⟨fun hstart => absurd hstart hhunk, h⟩, fun h => h.2⟩
    refine (hfirst.trans (and_congr_right fun _ => ih)).trans ?_
    cases ls with
    | nil => simp
    | cons next ls =>
      rw [isChain_cons_cons]
      have hnext : (next :: ls).takeWhile startsBody = [] ↔ startsBody next = false := by
        cases hbody : startsBody next with
        | true => simp [takeWhile_cons_of_pos hbody]
        | false => simp [takeWhile_cons_of_neg, hbody]
      rw [hnext]

theorem getLast?_strip_iff (text : Text) :
    (strip text).getLast? = some '\r' ↔ "\r\r".toList <:+ text := by
  unfold strip
  split
  · rename_i hlast
    obtain ⟨front, rfl⟩ := getLast?_eq_some_iff.1 hlast
    rw [dropLast_concat, getLast?_eq_some_iff]
    constructor
    · rintro ⟨rest, rfl⟩
      exact ⟨rest, by simp⟩
    · rintro ⟨rest, hrest⟩
      refine ⟨rest, append_cancel_right (?_ : _ ++ ['\r'] = _ ++ ['\r'])⟩
      rw [← hrest]
      simp
  · rename_i hlast
    constructor
    · exact fun h => absurd h hlast
    · rintro ⟨rest, rfl⟩
      refine absurd ?_ hlast
      rw [getLast?_append_of_ne_nil _ (by decide)]
      decide

theorem strip_strip_line_iff {header : HunkHeader} :
    header.strip.strip.line = header.strip.line ↔ header.Stable := by
  cases header with
  | bare => exact ⟨fun _ => trivial, fun _ => rfl⟩
  | ranges old new heading =>
    show (ranges old new (Line.strip (Line.strip heading))).line =
      (HunkHeader.ranges old new (Line.strip heading)).line ↔ ¬ "\r\r".toList <:+ heading.val
    rw [← getLast?_strip_iff]
    constructor
    · intro h
      exact strip_eq_self_iff.1 (congrArg Subtype.val (ranges_inj h).2.2)
    · intro h
      rw [show Line.strip (Line.strip heading) = Line.strip heading from
        Subtype.ext (strip_eq_self_iff.2 h)]

theorem keptLines_strip (h : hunk.Kept) :
    keptLines (hunk.header.strip.line, hunk.body.map BodyLine.line) =
      hunk.linesUnder hunk.header.strip.strip := by
  have hcounts := h.counts
  cases hheader : hunk.header with
  | bare =>
    rw [hheader] at hcounts
    exact hcounts.elim
  | ranges old new heading =>
    have hne : hunk.body.map BodyLine.line ≠ [] := cons_ne_nil _ _
    have hlines : keptLines
        ((ranges old new (Line.strip heading)).line, hunk.body.map BodyLine.line) = _ :=
      keptLines_ranges hne (forall_mem_bodyLines hunk)
    rw [map_strip_body h] at hlines
    exact hlines

/-- The hunks as lines, with the given headers. -/
theorem collect_linesUnder (header : Hunk → HunkHeader) (hunks : List Hunk) :
    collect (hunks.flatMap fun hunk => hunk.linesUnder (header hunk)) =
      hunks.map fun hunk => ((header hunk).line, hunk.body.map BodyLine.line) := by
  have hblocks : (hunks.flatMap fun hunk => hunk.linesUnder (header hunk)) =
      (hunks.map fun hunk => ((header hunk).line, hunk.body.map BodyLine.line)).flatMap
        fun block => block.1 :: block.2 := by
    rw [flatMap_map]
    rfl
  rw [hblocks]
  apply collect_flatMap
  intro block hblock
  obtain ⟨hunk, -, rfl⟩ := mem_map.1 hblock
  exact ⟨startsHunk_line _, forall_mem_bodyLines hunk⟩

theorem stable_iff {hunks : List Hunk} (hne : hunks ≠ []) (hkept : ∀ hunk ∈ hunks, hunk.Kept)
    (filePath : Text) :
    outLines (headerLines filePath ++ hunks.flatMap fun hunk => hunk.linesUnder hunk.header.strip) =
        (hunks.flatMap fun hunk => hunk.linesUnder hunk.header.strip) ↔
      Quiet filePath ∧ ∀ hunk ∈ hunks, hunk.header.Stable := by
  have hhead : ∀ line ∈ (hunks.flatMap fun hunk => hunk.linesUnder hunk.header.strip).head?,
      startsHunk line = true := by
    obtain ⟨first, rest, rfl⟩ := exists_cons_of_ne_nil hne
    intro line hline
    cases hline
    exact startsHunk_line _
  have hany : (headerLines filePath ++
      hunks.flatMap fun hunk => hunk.linesUnder hunk.header.strip).any startsHunk = true := by
    obtain ⟨first, rest, rfl⟩ := exists_cons_of_ne_nil hne
    rw [any_eq_true]
    refine ⟨first.header.strip.line, ?_, startsHunk_line _⟩
    simp [Hunk.linesUnder]
  have hagain : outLines (headerLines filePath ++
      hunks.flatMap fun hunk => hunk.linesUnder hunk.header.strip) =
        (collect (headerLines filePath)).flatMap keptLines ++
          hunks.flatMap fun hunk => hunk.linesUnder hunk.header.strip.strip := by
    rw [outLines, if_pos hany, collect_append_of_head hhead, flatMap_append,
      collect_linesUnder (fun hunk => hunk.header.strip), flatMap_map]
    congr 1
    exact flatMap_congr fun hunk hhunk => keptLines_strip (hkept hunk hhunk)
  rw [hagain, Quiet, ← flatMap_keptLines_eq_nil_iff (notMem_headerLines filePath)]
  constructor
  · intro heq
    have hlength := congrArg length heq
    have hnil : (collect (headerLines filePath)).flatMap keptLines = [] := by
      apply length_eq_zero_iff.1
      simpa [Hunk.linesUnder] using hlength
    refine ⟨hnil, ?_⟩
    rw [hnil, nil_append] at heq
    have hblocks := congrArg collect heq
    rw [collect_linesUnder (fun hunk => hunk.header.strip.strip),
      collect_linesUnder (fun hunk => hunk.header.strip), map_inj_left] at hblocks
    intro hunk hhunk
    exact strip_strip_line_iff.1 (Prod.mk.inj (hblocks hunk hhunk)).1
  · rintro ⟨hnil, hstable⟩
    rw [hnil, nil_append]
    apply flatMap_congr
    intro hunk hhunk
    rw [Hunk.linesUnder, Hunk.linesUnder, strip_strip_line_iff.2 (hstable hunk hhunk)]

/-! ## Diffs without hunks -/

theorem outLines_eq_nil_iff (hany : ls.any startsHunk = false) :
    outLines ls = [] ↔ ∀ line ∈ ls, startsBody line = false := by
  have hfilter : ls.filter startsBody = [] ↔ ∀ line ∈ ls, startsBody line = false := by
    simp [filter_eq_nil_iff]
  rw [outLines, if_neg (by simp [hany]), ← hfilter]
  dsimp only
  split
  · rename_i hnil
    exact ⟨fun _ => hnil, fun _ => rfl⟩
  · rename_i hne
    refine ⟨fun hnil => absurd hnil ?_, fun hnil => absurd hnil hne⟩
    obtain ⟨line, ls', hcons⟩ := exists_cons_of_ne_nil hne
    have hbody : startsBody line = true :=
      (mem_filter.1 (hcons ▸ mem_cons_self : line ∈ ls.filter startsBody)).2
    rw [filter_eq_nil_iff]
    intro hall
    refine absurd ?_ (hall (strip line) (by simp [hcons]))
    rw [keeps, startsBody_strip hbody, Bool.or_true]

theorem notMem_linesUnder (headers : List HunkHeader) (hunks : List Hunk) :
    ∀ line ∈ (zipWith Hunk.linesUnder headers hunks).flatten, '\n' ∉ line := by
  induction hunks generalizing headers with
  | nil => simp
  | cons hunk hunks ih =>
    cases headers with
    | nil => simp
    | cons header headers =>
      intro line hline
      rw [zipWith_cons_cons, flatten_cons, mem_append] at hline
      rcases hline with hline | hline
      · rcases mem_cons.1 hline with rfl | hline
        · exact header.notMem_line
        · obtain ⟨body, -, rfl⟩ := mem_map.1 hline
          exact body.notMem_line
      · exact ih headers line hline

theorem normalized_iff_lines (filePath : Text) (diff : UnifiedDiff) :
    Normalized filePath diff ↔
      (∃ headers : List HunkHeader,
        Forall₂ (fun header hunk => header.Counts hunk.body) headers diff.hunks ∧
          outLines diff.lines = (zipWith Hunk.linesUnder headers diff.hunks).flatten) ∧
        outLines (headerLines filePath ++ outLines diff.lines) = outLines diff.lines := by
  have hout := forall_mem_outLines diff.notMem_lines
  have hlines : ∀ line ∈ headerLines filePath ++ outLines diff.lines, '\n' ∉ line := by
    rw [forall_mem_append]
    exact ⟨notMem_headerLines filePath, hout⟩
  have hnormal : normalizeUnifiedDiff filePath diff.text =
      fileHeader filePath ++ render (outLines diff.lines) :=
    normalizeUnifiedDiff_render filePath diff.notMem_lines
  have hagain : normalizeUnifiedDiff filePath
      (fileHeader filePath ++ render (outLines diff.lines)) =
        fileHeader filePath ++ render (outLines (headerLines filePath ++ outLines diff.lines)) := by
    rw [← normalizeUnifiedDiff_render filePath hlines, render_append, render_headerLines]
  have hsame : ∀ ls ls' : List Text, (∀ line ∈ ls, '\n' ∉ line) → (∀ line ∈ ls', '\n' ∉ line) →
      (fileHeader filePath ++ render ls = fileHeader filePath ++ render ls' ↔ ls = ls') := by
    intro ls ls' h h'
    rw [append_cancel_left_eq]
    exact ⟨render_injective h h', congrArg render⟩
  constructor
  · rintro ⟨⟨headers, hcounts, hpreserved⟩, hstable⟩
    rw [hnormal] at hpreserved hstable
    rw [hagain] at hstable
    exact ⟨⟨headers, hcounts, (hsame _ _ hout (notMem_linesUnder _ _)).1 hpreserved⟩,
      (hsame _ _ (forall_mem_outLines hlines) hout).1 hstable⟩
  · rintro ⟨⟨headers, hcounts, hpreserved⟩, hstable⟩
    refine ⟨⟨headers, hcounts, ?_⟩, ?_⟩
    · rw [hnormal]
      exact (hsame _ _ hout (notMem_linesUnder _ _)).2 hpreserved
    · rw [hnormal, hagain]
      exact (hsame _ _ (forall_mem_outLines hlines) hout).2 hstable

/-- A file header alone is normalized to itself where a line of it opens a hunk. -/
theorem outLines_headerLines_iff (filePath : Text) : outLines (headerLines filePath) = [] ↔
      Quiet filePath ∧ ∃ line ∈ headerLines filePath, startsHunk line = true := by
  have hany := any_eq_true (l := headerLines filePath) (p := startsHunk)
  cases hsome : (headerLines filePath).any startsHunk with
  | true =>
    rw [outLines, if_pos hsome, flatMap_keptLines_eq_nil_iff (notMem_headerLines filePath)]
    exact ⟨fun hquiet => ⟨hquiet, hany.1 hsome⟩, And.left⟩
  | false =>
    obtain ⟨line, hline, hbody⟩ := exists_startsBody_headerLines filePath
    rw [outLines_eq_nil_iff hsome]
    constructor
    · intro hnone
      rw [hnone line hline] at hbody
      cases hbody
    · rintro ⟨-, hopens⟩
      rw [hany.2 hopens] at hsome
      cases hsome

/-- A diff is normalized as a diff exactly if it fits. -/
theorem normalized_iff (filePath : Text) (diff : UnifiedDiff) :
    Normalized filePath diff ↔ Fits filePath diff := by
  rw [normalized_iff_lines]
  by_cases hnil : diff.hunks = []
  · have hlines : diff.lines = diff.fileHeader.map Subtype.val := by simp [UnifiedDiff.lines, hnil]
    have hany : diff.lines.any startsHunk = false := by
      rw [hlines, any_eq_false]
      intro line hline
      obtain ⟨header, -, rfl⟩ := mem_map.1 hline
      simp [header.property.2]
    have hempty : outLines diff.lines = [] ↔
        ∀ line ∈ diff.fileHeader, startsBody line.val = false := by
      rw [outLines_eq_nil_iff hany, hlines, forall_mem_map]
    constructor
    · rintro ⟨⟨headers, hcounts, hout⟩, hstable⟩
      rw [hnil, zipWith_nil_right, flatten_nil] at hout
      rw [hout, append_nil, outLines_headerLines_iff] at hstable
      exact ⟨hstable.1, by simp [hnil], by simp [hnil], fun _ => ⟨hempty.1 hout, hstable.2⟩⟩
    · intro hfits
      obtain ⟨hbody, hopens⟩ := hfits.hunks hnil
      rw [hempty.2 hbody, append_nil, outLines_headerLines_iff]
      exact ⟨⟨[], hnil ▸ .nil, by simp⟩, hfits.quiet, hopens⟩
  · have hout : outLines diff.lines =
        diff.hunks.flatMap fun hunk => keptLines (hunk.header.line, hunk.taken) := by
      rw [outLines, if_pos (any_startsHunk_lines hnil), collect_lines, flatMap_map]
    have hstrip : (∀ hunk ∈ diff.hunks, hunk.Kept) →
        outLines diff.lines = diff.hunks.flatMap fun hunk => hunk.linesUnder hunk.header.strip := by
      intro hkept
      rw [hout]
      exact flatMap_congr fun hunk hhunk => keptLines_of_kept (hkept hunk hhunk)
    constructor
    · rintro ⟨hpreserved, hstable⟩
      rw [hout] at hpreserved
      have hkept := (preserved_iff diff.hunks).1 hpreserved
      rw [hstrip hkept, stable_iff hnil hkept] at hstable
      exact ⟨hstable.1, hkept, hstable.2, fun hempty => absurd hempty hnil⟩
    · intro hfits
      rw [hstrip hfits.kept, stable_iff hnil hfits.kept, ← hstrip hfits.kept, hout]
      exact ⟨(preserved_iff diff.hunks).2 hfits.kept, hfits.quiet, hfits.stable⟩

/-! ## What is lost -/

/-- `-old`, a marker, and `+new`. -/
def replacedLastLine : UnifiedDiff where
  fileHeader := []
  hunks := [{
    header := .ranges ⟨1, none⟩ ⟨1, none⟩ ⟨[], by decide⟩
    first := ⟨.deletion, ⟨"old".toList, by decide⟩, true⟩
    rest := [⟨.addition, ⟨"new".toList, by decide⟩, false⟩]
    after := [] }]

/-- The line `+new` is lost. -/
theorem replacedLastLine_loses_line :
    replacedLastLine.text = "@@ -1 +1 @@\n-old\n\\ No newline at end of file\n+new\n".toList ∧
      normalizeUnifiedDiff "f".toList replacedLastLine.text =
        "diff --git a/f b/f\n--- a/f\n+++ b/f\n@@ -1 +1 @@\n-old\n".toList ∧
      ¬ Normalized "f".toList replacedLastLine := by
  refine ⟨by decide +kernel, by decide +kernel, ?_⟩
  rw [normalized_iff_lines]
  rintro ⟨⟨headers, hcounts, hout⟩, -⟩
  have hlines : outLines replacedLastLine.lines = ["@@ -1 +1 @@".toList, "-old".toList] := by
    decide +kernel
  obtain ⟨header, rfl⟩ := length_eq_one_iff.1 hcounts.length_eq
  -- the hunk has three lines
  have hlength := congrArg length hout
  rw [hlines] at hlength
  simp [Hunk.linesUnder, Hunk.body, replacedLastLine] at hlength

end VibeKanban.Diff.Unified
