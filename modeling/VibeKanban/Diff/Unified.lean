import VibeKanban.Delivery.Prompt

/-!
# Unified diffs (`utils/src/diff.rs`, lines 79-225)

Agents report their edits as texts that are more or less unified diffs. `normalizeUnifiedDiff`
writes their hunks behind one file header.

* `normalizeUnifiedDiff_render`: what becomes of a text in lines.
-/

namespace VibeKanban.Diff.Unified

open Lib List
open Delivery (Text lines isWhitespace stripLineEnd trimEnd)

/-! ## The passes -/

def startsHunk (line : Text) : Bool := "@@".toList.isPrefixOf line

/-- `starts_with([' ', '+', '-'])` -/
def startsBody (line : Text) : Bool :=
  line.head? = some ' ' ∨ line.head? = some '+' ∨ line.head? = some '-'

def countOld (ls : List Text) : ℕ :=
  ls.countP fun line => line.head? = some '-' ∨ line.head? = some ' '

def countNew (ls : List Text) : ℕ :=
  ls.countP fun line => line.head? = some '+' ∨ line.head? = some ' '

def digits (n : ℕ) : Text := Nat.toDigits 10 n

/-- The header that is made for lines without one. -/
def countsHeader (ls : List Text) : Text :=
  "@@ -1,".toList ++ digits (countOld ls) ++ " +1,".toList ++ digits (countNew ls) ++ " @@".toList

/-- `str::trim` -/
def trim (text : Text) : Text := (trimEnd text).dropWhile isWhitespace

def flush (hunks : List Text) : Option Text → List Text
  | some hunk => if hunk = [] then hunks else hunks ++ [hunk]
  | none => hunks

/-- The loop over the lines (lines 113-133): the hunks so far and the current one. -/
def collectLine (state : List Text × Option Text) (line : Text) : List Text × Option Text :=
  if startsHunk line then (flush state.1 state.2, some line)
  else
    match state.2 with
    | some hunk =>
      if startsBody line then (state.1, some (hunk ++ line)) else (flush state.1 (some hunk), none)
    | none => state

/-- `fix_hunk_headers` (line 149), for a hunk. -/
def fixHunkHeader (hunk : Text) : Option Text :=
  match splitInclusive (· = '\n') hunk with
  | header :: line :: rest =>
    if ¬ startsHunk header then none
    else if trim header = "@@".toList then
      -- the new header has no line end
      some (countsHeader (line :: rest) ++ (line :: rest).flatten)
    else some hunk
  | _ => none

/-- `extract_unified_diff_hunks` (line 81). -/
def extractUnifiedDiffHunks (unifiedDiff : Text) : List Text :=
  let ls := splitInclusive (· = '\n') unifiedDiff
  if ls.any startsHunk then
    let (hunks, current) := ls.foldl collectLine ([], none)
    (flush hunks current).filterMap fixHunkHeader
  else
    let hunk := (ls.filter startsBody).flatten
    if hunk = [] then [] else [countsHeader ls ++ '\n' :: hunk]

def fileHeader (filePath : Text) : Text :=
  "diff --git a/".toList ++ filePath ++ " b/".toList ++ filePath ++ "\n--- a/".toList ++
    filePath ++ "\n+++ b/".toList ++ filePath ++ "\n".toList

/-- What is kept of the lines of a hunk. -/
def keeps (line : Text) : Bool := "@@ ".toList.isPrefixOf line || startsBody line

/-- `concatenate_diff_hunks` (line 198). -/
def concatenateDiffHunks (filePath : Text) (hunks : List Text) : Text :=
  if hunks = [] then fileHeader filePath
  else
    let unifiedDiff := fileHeader filePath ++
      intercalate ['\n'] ((hunks.flatMap lines).filter keeps)
    if unifiedDiff.getLast? = some '\n' then unifiedDiff else unifiedDiff ++ ['\n']

/-- `normalize_unified_diff` (line 222). -/
def normalizeUnifiedDiff (filePath unifiedDiff : Text) : Text :=
  concatenateDiffHunks filePath (extractUnifiedDiffHunks unifiedDiff)

/-! ## Lines -/

/-- The text of complete lines. -/
def render (ls : List Text) : Text := ls.flatMap fun line => line ++ ['\n']

variable {ls : List Text} {line text : Text}
  {ls' : List Text} {hunk : Text × List Text} {header : Text}

theorem splitInclusive_render (h : ∀ line ∈ ls, '\n' ∉ line) :
    splitInclusive (· = '\n') (render ls) = ls.map (· ++ ['\n']) := by
  have hlines : ∀ line ∈ ls.map (· ++ ['\n']), IsLine '\n' line := by
    intro line hmem
    obtain ⟨text, htext, rfl⟩ := mem_map.1 hmem
    exact ⟨text, h text htext, rfl⟩
  have hsplit := splitInclusive_flatten hlines []
  rw [append_nil, splitInclusive, append_nil] at hsplit
  rw [render, flatMap_def, hsplit]

theorem render_injective (h : ∀ line ∈ ls, '\n' ∉ line)
    (h' : ∀ line ∈ ls', '\n' ∉ line) (heq : render ls = render ls') : ls = ls' := by
  have hsplit := splitInclusive_render h
  rw [heq, splitInclusive_render h'] at hsplit
  exact (map_injective_iff.2 (fun a b hab => append_cancel_right hab) hsplit).symm

theorem render_append (ls ls' : List Text) : render (ls ++ ls') = render ls ++ render ls' :=
  flatMap_append

/-- A line without a carriage return at its end. -/
def strip (line : Text) : Text := if line.getLast? = some '\r' then line.dropLast else line

theorem stripLineEnd_append (line : Text) : stripLineEnd (line ++ ['\n']) = strip line := by
  unfold stripLineEnd strip
  rw [getLast?_concat, if_pos rfl, dropLast_concat]

theorem lines_render (h : ∀ line ∈ ls, '\n' ∉ line) : lines (render ls) = ls.map strip := by
  rw [lines, splitInclusive_render h, map_map]
  exact map_congr_left fun line _ => stripLineEnd_append line

theorem getLast?_ne_of_notMem (h : '\n' ∉ line) : line.getLast? ≠ some '\n' :=
  fun hlast => h (mem_of_getLast? hlast)

/-- Lines put together, and the end of the last one. -/
theorem intercalate_append (h : ls ≠ []) : intercalate ['\n'] ls ++ ['\n'] = render ls := by
  induction ls with
  | nil => exact absurd rfl h
  | cons line ls ih =>
    cases ls with
    | nil => simp [render]
    | cons next ls =>
      have hrest := ih (cons_ne_nil _ _)
      rw [intercalate_cons_cons, append_assoc, hrest]
      simp [render]

/-! ## Beginnings of lines -/

@[simp] theorem startsHunk_append_newline (line : Text) :
    startsHunk (line ++ ['\n']) = startsHunk line := by
  match line with
  | [] => rfl
  | [c] => simp [startsHunk, isPrefixOf]
  | c :: d :: line => simp [startsHunk, isPrefixOf]

@[simp] theorem startsBody_append_newline (line : Text) :
    startsBody (line ++ ['\n']) = startsBody line := by
  cases line <;> rfl

theorem startsBody_of_startsHunk (h : startsHunk line = true) : startsBody line = false := by
  match line with
  | [] => rfl
  | [c] => simp [startsHunk, isPrefixOf] at h
  | c :: d :: line =>
    simp only [startsHunk, String.reduceToList, isPrefixOf, Bool.and_true, Bool.and_eq_true,
      beq_iff_eq] at h
    rw [← h.1]
    rfl

theorem countOld_map_newline (ls : List Text) : countOld (ls.map (· ++ ['\n'])) = countOld ls := by
  unfold countOld
  rw [countP_map]
  congr 1
  funext line
  cases line <;> rfl

theorem countNew_map_newline (ls : List Text) : countNew (ls.map (· ++ ['\n'])) = countNew ls := by
  unfold countNew
  rw [countP_map]
  congr 1
  funext line
  cases line <;> rfl

theorem countsHeader_map_newline (ls : List Text) :
    countsHeader (ls.map (· ++ ['\n'])) = countsHeader ls := by
  unfold countsHeader
  rw [countOld_map_newline, countNew_map_newline]

/-! ## Collecting hunks -/

/-- Each line that opens a hunk, with the body lines right after it. -/
def collect : List Text → List (Text × List Text)
  | [] => []
  | line :: ls =>
    if startsHunk line then (line, ls.takeWhile startsBody) :: collect ls else collect ls

theorem foldl_collectLine (ls : List Text) (hunks : List Text) (current : Option Text)
    (h : current ≠ some []) :
    flush ((ls.map (· ++ ['\n'])).foldl collectLine (hunks, current)).1
        ((ls.map (· ++ ['\n'])).foldl collectLine (hunks, current)).2 =
      flush hunks (current.map (· ++ render (ls.takeWhile startsBody))) ++
        (collect ls).map fun hunk => render (hunk.1 :: hunk.2) := by
  induction ls generalizing hunks current with
  | nil => cases current <;> simp [collect, render]
  | cons line ls ih =>
    rw [map_cons, foldl_cons]
    unfold collect
    cases hhunk : startsHunk line with
    | true =>
      have hstep : collectLine (hunks, current) (line ++ ['\n']) =
          (flush hunks current, some (line ++ ['\n'])) := by
        simp [collectLine, hhunk]
      rw [hstep, ih _ _ (by simp), if_pos rfl,
        takeWhile_cons_of_neg (by simp [startsBody_of_startsHunk hhunk])]
      simp [flush, render]
    | false =>
      cases current with
      | none =>
        have hstep : collectLine (hunks, none) (line ++ ['\n']) = (hunks, none) := by
          simp [collectLine, hhunk]
        rw [hstep, ih _ _ (by simp)]
        rfl
      | some hunk =>
        have hne : hunk ≠ [] := fun heq => h (by rw [heq])
        cases hbody : startsBody line with
        | true =>
          have hstep : collectLine (hunks, some hunk) (line ++ ['\n']) =
              (hunks, some (hunk ++ (line ++ ['\n']))) := by
            simp [collectLine, hhunk, hbody]
          rw [hstep, ih _ _ (by simp), takeWhile_cons_of_pos hbody]
          simp [render]
        | false =>
          have hstep : collectLine (hunks, some hunk) (line ++ ['\n']) =
              (hunks ++ [hunk], none) := by
            simp [collectLine, hhunk, hbody, flush, hne]
          rw [hstep, ih _ _ (by simp), takeWhile_cons_of_neg (by simp [hbody])]
          simp [flush, render, hne]

theorem mem_collect (h : hunk ∈ collect ls) : startsHunk hunk.1 = true ∧ hunk.1 ∈ ls ∧
      ∀ line ∈ hunk.2, line ∈ ls ∧ startsBody line = true := by
  induction ls with
  | nil => cases h
  | cons line ls ih =>
    unfold collect at h
    split_ifs at h with hhunk
    · rcases mem_cons.1 h with rfl | h
      · refine ⟨hhunk, mem_cons_self, ?_⟩
        intro body hbody
        exact ⟨mem_cons_of_mem _ (takeWhile_subset _ hbody), mem_takeWhile_imp hbody⟩
      · obtain ⟨hstart, hmem, hrest⟩ := ih h
        exact ⟨hstart, mem_cons_of_mem _ hmem,
          fun body hbody => ⟨mem_cons_of_mem _ (hrest body hbody).1, (hrest body hbody).2⟩⟩
    · obtain ⟨hstart, hmem, hrest⟩ := ih h
      exact ⟨hstart, mem_cons_of_mem _ hmem,
        fun body hbody => ⟨mem_cons_of_mem _ (hrest body hbody).1, (hrest body hbody).2⟩⟩

theorem collect_append_of_head (h : ∀ line ∈ ls'.head?, startsHunk line = true) :
    collect (ls ++ ls') = collect ls ++ collect ls' := by
  induction ls with
  | nil => rfl
  | cons line ls ih =>
    have htake : (ls ++ ls').takeWhile startsBody = ls.takeWhile startsBody := by
      cases ls' with
      | nil => rw [append_nil]
      | cons next ls' =>
        have hnext : startsBody next = false := startsBody_of_startsHunk (h next rfl)
        rw [takeWhile_append]
        split
        · rw [takeWhile_cons_of_neg (by simp [hnext]), append_nil]
          rename_i hlen
          exact (( takeWhile_prefix _).eq_of_length hlen).symm
        · rfl
    rw [cons_append, collect, collect, ih, htake]
    split <;> rfl

theorem collect_eq_nil (h : ∀ line ∈ ls, startsHunk line = false) : collect ls = [] := by
  induction ls with
  | nil => rfl
  | cons line ls ih =>
    rw [collect, if_neg (by simp [h line mem_cons_self]),
      ih fun other hother => h other (mem_cons_of_mem _ hother)]

theorem collect_flatMap {hunks : List (Text × List Text)}
    (h : ∀ hunk ∈ hunks, startsHunk hunk.1 = true ∧ ∀ line ∈ hunk.2, startsBody line = true) :
    collect (hunks.flatMap fun hunk => hunk.1 :: hunk.2) = hunks := by
  induction hunks with
  | nil => rfl
  | cons hunk hunks ih =>
    obtain ⟨hstart, hbody⟩ := h hunk mem_cons_self
    have hrest := ih fun other hother => h other (mem_cons_of_mem _ hother)
    have hhead : ∀ line ∈ (hunks.flatMap fun hunk => hunk.1 :: hunk.2).head?,
        startsHunk line = true := by
      cases hunks with
      | nil => exact nofun
      | cons next hunks =>
        intro line hline
        cases hline
        exact (h next (by simp)).1
    rw [flatMap_cons, collect_append_of_head hhead, hrest, collect, if_pos hstart,
      collect_eq_nil fun line hline => ?_, takeWhile_eq_self_iff.2 hbody]
    · rfl
    · cases hhunk : startsHunk line with
      | true =>
        have hnot := startsBody_of_startsHunk hhunk
        rw [hbody line hline] at hnot
        cases hnot
      | false => rfl

/-! ## Fixing headers -/

theorem notMem_digits (n : ℕ) {c : Char} (hc : c.isDigit = false) : c ∉ digits n := by
  intro h
  have hdigit := Nat.isDigit_of_mem_toDigits (by decide) (by decide) h
  rw [hdigit] at hc
  cases hc

theorem notMem_countsHeader (ls : List Text) : '\n' ∉ countsHeader ls := by
  unfold countsHeader
  simp only [mem_append, not_or]
  refine ⟨⟨⟨⟨by decide, notMem_digits _ (by decide)⟩, by decide⟩, notMem_digits _ (by decide)⟩,
    by decide⟩

/-- The lines of a hunk with its header fixed: a bare header takes the first line in. -/
def fixedLines : Text × List Text → List Text
  | (_, []) => []
  | (header, line :: ls) =>
    if trim (header ++ ['\n']) = "@@".toList then (countsHeader (line :: ls) ++ line) :: ls
    else header :: line :: ls

theorem fixedLines_of_bare {line : Text} {ls : List Text}
    (h : trim (header ++ ['\n']) = "@@".toList) :
    fixedLines (header, line :: ls) = (countsHeader (line :: ls) ++ line) :: ls := if_pos h

theorem fixedLines_of_not_bare {ls : List Text} (hne : ls ≠ [])
    (h : trim (header ++ ['\n']) ≠ "@@".toList) : fixedLines (header, ls) = header :: ls := by
  cases ls with
  | nil => exact absurd rfl hne
  | cons line ls => exact if_neg h

theorem forall_mem_fixedLines
    (h : ∀ line ∈ hunk.1 :: hunk.2, '\n' ∉ line) : ∀ line ∈ fixedLines hunk, '\n' ∉ line := by
  obtain ⟨header, body⟩ := hunk
  cases body with
  | nil => exact nofun
  | cons line ls =>
    by_cases hbare : trim (header ++ ['\n']) = "@@".toList
    · rw [fixedLines_of_bare hbare]
      intro text htext
      rcases mem_cons.1 htext with rfl | htext
      · rw [mem_append, not_or]
        exact ⟨notMem_countsHeader _, h line (by simp)⟩
      · exact h text (by simp [htext])
    · rw [fixedLines_of_not_bare (cons_ne_nil _ _) hbare]
      exact h

theorem fixHunkHeader_render (hhunk : startsHunk hunk.1 = true)
    (h : ∀ line ∈ hunk.1 :: hunk.2, '\n' ∉ line) : fixHunkHeader (render (hunk.1 :: hunk.2)) =
      if fixedLines hunk = [] then none else some (render (fixedLines hunk)) := by
  obtain ⟨header, body⟩ := hunk
  unfold fixHunkHeader
  rw [splitInclusive_render h]
  cases body with
  | nil => rfl
  | cons line ls =>
    have hlines : (line ++ ['\n']) :: ls.map (· ++ ['\n']) = (line :: ls).map (· ++ ['\n']) := rfl
    rw [map_cons, map_cons]
    dsimp only
    rw [if_neg (by simpa using hhunk), hlines, countsHeader_map_newline]
    by_cases hbare : trim (header ++ ['\n']) = "@@".toList
    · rw [if_pos hbare, fixedLines_of_bare hbare, if_neg (cons_ne_nil _ _)]
      simp [render, flatMap_def]
    · rw [if_neg hbare, fixedLines_of_not_bare (cons_ne_nil _ _) hbare, if_neg (cons_ne_nil _ _)]

/-! ## The normalized diff -/

/-- The lines of a hunk in the normalized diff. -/
def keptLines (hunk : Text × List Text) : List Text := ((fixedLines hunk).map strip).filter keeps

/-- The lines behind the file header. -/
def outLines (ls : List Text) : List Text :=
  if ls.any startsHunk then (collect ls).flatMap keptLines
  else
    let body := ls.filter startsBody
    if body = [] then [] else ((countsHeader ls :: body).map strip).filter keeps

theorem forall_mem_strip (h : '\n' ∉ line) : '\n' ∉ strip line := by
  unfold strip
  split
  · exact fun hmem => h (dropLast_subset _ hmem)
  · exact h

theorem ne_nil_of_keeps (h : keeps line = true) : line ≠ [] := by
  rintro rfl
  simp [keeps, startsBody] at h

theorem concatenateDiffHunks_render (filePath : Text) (hunks : List (List Text))
    (h : ∀ hunk ∈ hunks, ∀ line ∈ hunk, '\n' ∉ line) :
    concatenateDiffHunks filePath (hunks.map render) =
      fileHeader filePath ++ render ((hunks.flatMap fun hunk => hunk.map strip).filter keeps) := by
  have hlines : (hunks.map render).flatMap lines = hunks.flatMap fun hunk => hunk.map strip := by
    rw [flatMap_map]
    exact flatMap_congr fun hunk hmem => lines_render (h hunk hmem)
  unfold concatenateDiffHunks
  rw [hlines]
  generalize hkept : (hunks.flatMap fun hunk => hunk.map strip).filter keeps = kept
  have hnewline : ∀ line ∈ kept, '\n' ∉ line := by
    intro line hmem
    rw [← hkept] at hmem
    obtain ⟨hunk, hhunk, hline⟩ := mem_flatMap.1 (mem_filter.1 hmem).1
    obtain ⟨raw, hraw, rfl⟩ := mem_map.1 hline
    exact forall_mem_strip (h hunk hhunk raw hraw)
  have hne : ∀ line ∈ kept, line ≠ [] := by
    intro line hmem
    rw [← hkept] at hmem
    exact ne_nil_of_keeps (mem_filter.1 hmem).2
  split
  · rename_i hnil
    rw [map_eq_nil_iff] at hnil
    rw [hnil] at hkept
    rw [← hkept]
    exact (append_nil _).symm
  · dsimp only
    cases kept using reverseRecOn with
    | nil =>
      have hlast : (fileHeader filePath).getLast? = some '\n' := by
        exact getLast?_concat
      simp [hlast, render]
    | append_singleton kept last =>
      have hmem : last ∈ kept ++ [last] := mem_append_right _ (mem_singleton.2 rfl)
      have hjoin : intercalate ['\n'] (kept ++ [last]) = render kept ++ last := by
        refine append_cancel_right (?_ : _ ++ ['\n'] = _ ++ ['\n'])
        rw [intercalate_append (by simp), render_append]
        simp [render]
      have hlast : (fileHeader filePath ++ (render kept ++ last)).getLast? ≠ some '\n' := by
        rw [← append_assoc, getLast?_append_of_ne_nil _ (hne last hmem)]
        exact getLast?_ne_of_notMem (hnewline last hmem)
      rw [hjoin, if_neg hlast, render_append]
      simp [render]

/-- The hunks that are taken out of lines some of which open a hunk. -/
theorem filterMap_fixHunkHeader (h : ∀ line ∈ ls, '\n' ∉ line) :
    ((collect ls).map fun hunk => render (hunk.1 :: hunk.2)).filterMap fixHunkHeader =
      (((collect ls).map fixedLines).filter (· ≠ [])).map render := by
  have hmem : ∀ hunk ∈ collect ls, startsHunk hunk.1 = true ∧
      ∀ line ∈ hunk.1 :: hunk.2, '\n' ∉ line := by
    intro hunk hhunk
    obtain ⟨hstart, hheader, hbody⟩ := mem_collect hhunk
    exact ⟨hstart, forall_mem_cons.2 ⟨h _ hheader, fun line hline => h _ (hbody line hline).1⟩⟩
  generalize collect ls = hunks at hmem
  induction hunks with
  | nil => rfl
  | cons hunk hunks ih =>
    obtain ⟨hstart, hlines⟩ := hmem hunk mem_cons_self
    have hrest := ih fun other hother => hmem other (mem_cons_of_mem _ hother)
    rw [map_cons, filterMap_cons, fixHunkHeader_render hstart hlines, map_cons]
    by_cases hnil : fixedLines hunk = []
    · simp only [hnil, if_true, hrest]
      simp
    · simp only [hnil, if_false, hrest]
      simp [hnil]

theorem normalizeUnifiedDiff_render (filePath : Text) (h : ∀ line ∈ ls, '\n' ∉ line) :
    normalizeUnifiedDiff filePath (render ls) = fileHeader filePath ++ render (outLines ls) := by
  have hany : (ls.map (· ++ ['\n'])).any startsHunk = ls.any startsHunk := by
    rw [any_map]
    congr 1
    funext line
    exact startsHunk_append_newline line
  have hbody : ((ls.map (· ++ ['\n'])).filter startsBody).flatten =
      render (ls.filter startsBody) := by
    rw [filter_map, render, flatMap_def]
    congr 3
    funext line
    exact startsBody_append_newline line
  unfold normalizeUnifiedDiff extractUnifiedDiffHunks outLines
  dsimp only
  rw [splitInclusive_render h, hany]
  split
  · have hfold := foldl_collectLine ls [] none nofun
    rw [show flush [] (Option.map _ none) = [] from rfl, nil_append] at hfold
    rw [hfold, filterMap_fixHunkHeader h, concatenateDiffHunks_render]
    · congr 2
      generalize collect ls = hunks
      induction hunks with
      | nil => rfl
      | cons hunk hunks ih =>
        rw [map_cons, flatMap_cons, ← ih, keptLines]
        by_cases hnil : fixedLines hunk = []
        all_goals simp [hnil]
    · intro hunk hhunk
      obtain ⟨pair, hpair, rfl⟩ := mem_map.1 (mem_filter.1 hhunk).1
      obtain ⟨-, hheader, hlines⟩ := mem_collect hpair
      exact forall_mem_fixedLines
        (forall_mem_cons.2 ⟨h _ hheader, fun line hline => h _ (hlines line hline).1⟩)
  · rw [hbody, countsHeader_map_newline]
    by_cases hnil : ls.filter startsBody = []
    · simp [hnil, render, concatenateDiffHunks]
    · have hne : render (ls.filter startsBody) ≠ [] := by
        obtain ⟨line, rest, hcons⟩ := exists_cons_of_ne_nil hnil
        simp [hcons, render]
      have hhunk : countsHeader ls ++ '\n' :: render (ls.filter startsBody) =
          render (countsHeader ls :: ls.filter startsBody) := by
        simp [render]
      rw [if_neg hne, if_neg hnil, hhunk]
      have hconcat := concatenateDiffHunks_render filePath
        [countsHeader ls :: ls.filter startsBody] ?_
      · simpa using hconcat
      · intro hunk hmem line hline
        rw [mem_singleton.1 hmem] at hline
        rcases mem_cons.1 hline with rfl | hline
        · exact notMem_countsHeader _
        · exact h _ (mem_filter.1 hline).1

theorem forall_mem_outLines (h : ∀ line ∈ ls, '\n' ∉ line) : ∀ line ∈ outLines ls, '\n' ∉ line := by
  intro line hline
  unfold outLines at hline
  split at hline
  · obtain ⟨hunk, hhunk, hkept⟩ := mem_flatMap.1 hline
    obtain ⟨raw, hraw, rfl⟩ := mem_map.1 (mem_filter.1 hkept).1
    obtain ⟨-, hheader, hbody⟩ := mem_collect hhunk
    exact forall_mem_strip (forall_mem_fixedLines
      (forall_mem_cons.2 ⟨h _ hheader, fun body hmem => h _ (hbody body hmem).1⟩) raw hraw)
  · dsimp only at hline
    split at hline
    · cases hline
    · obtain ⟨raw, hraw, rfl⟩ := mem_map.1 (mem_filter.1 hline).1
      apply forall_mem_strip
      rcases mem_cons.1 hraw with rfl | hraw
      · exact notMem_countsHeader _
      · exact h _ (mem_filter.1 hraw).1

/-! ## The file header -/

/-- The lines of a text whose last line ends. -/
def split : Text → List Text
  | [] => [[]]
  | c :: text =>
    if c = '\n' then [] :: split text
    else
      match split text with
      | [] => [[c]]
      | line :: ls => (c :: line) :: ls

theorem split_ne_nil (text : Text) : split text ≠ [] := by
  cases text with
  | nil => exact cons_ne_nil _ _
  | cons c text =>
    unfold split
    split
    · exact cons_ne_nil _ _
    · split <;> exact cons_ne_nil _ _

theorem render_split (text : Text) : render (split text) = text ++ ['\n'] := by
  induction text with
  | nil => rfl
  | cons c text ih =>
    unfold split
    split
    · rename_i hc
      rw [hc, cons_append, ← ih]
      rfl
    · cases hsplit : split text with
      | nil => exact absurd hsplit (split_ne_nil text)
      | cons line ls =>
        rw [cons_append, ← ih, hsplit]
        simp [render]

theorem notMem_split (text : Text) : ∀ line ∈ split text, '\n' ∉ line := by
  induction text with
  | nil => simp [split]
  | cons c text ih =>
    unfold split
    split
    · rw [forall_mem_cons]
      exact ⟨not_mem_nil, ih⟩
    · rename_i hc
      cases hsplit : split text with
      | nil => simpa using Ne.symm hc
      | cons line ls =>
        rw [hsplit, forall_mem_cons] at ih
        rw [forall_mem_cons]
        exact ⟨notMem_cons.2 ⟨hc, ih.1⟩, ih.2⟩

/-- The lines of the file header; more than three if the path has several lines. -/
def headerLines (filePath : Text) : List Text :=
  split ("diff --git a/".toList ++ filePath ++ " b/".toList ++ filePath) ++
    split ("--- a/".toList ++ filePath) ++ split ("+++ b/".toList ++ filePath)

theorem render_headerLines (filePath : Text) :
    render (headerLines filePath) = fileHeader filePath := by
  unfold headerLines fileHeader
  rw [render_append, render_append, render_split, render_split, render_split]
  simp

theorem notMem_headerLines (filePath : Text) : ∀ line ∈ headerLines filePath, '\n' ∉ line := by
  intro line hmem
  rcases mem_append.1 hmem with hmem | hmem
  · rcases mem_append.1 hmem with hmem | hmem
    all_goals exact notMem_split _ line hmem
  · exact notMem_split _ line hmem

/-- The line `--- a/…` can be taken for a body line. -/
theorem exists_startsBody_headerLines (filePath : Text) :
    ∃ line ∈ headerLines filePath, startsBody line = true := by
  have hhead : ∃ line ∈ split ("--- a/".toList ++ filePath), startsBody line = true := by
    show ∃ line ∈ split ('-' :: ("-- a/".toList ++ filePath)), startsBody line = true
    rw [split, if_neg (by decide)]
    split
    all_goals exact ⟨_, mem_cons_self, rfl⟩
  obtain ⟨line, hmem, hbody⟩ := hhead
  exact ⟨line, mem_append_left _ (mem_append_right _ hmem), hbody⟩

end VibeKanban.Diff.Unified
