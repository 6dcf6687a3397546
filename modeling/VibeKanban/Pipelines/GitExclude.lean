import VibeKanban.Lib.Firsts
import VibeKanban.Lib.Lines

/-!
# The managed block of `info/exclude` (`pipelines/git_exclude.rs`, lines 69-144)

Results:

* `places`: which lines of a text are in a block. A block without an end marker goes to the end of
  the text.
* `managed_block`: `with_managed_block` leaves one block and keeps the lines outside of blocks; a
  second call changes nothing, and without patterns it takes the block away again.
-/

namespace VibeKanban.GitExclude

open Lib List

abbrev Text := List Char

/-! ## Model -/

def BLOCK_START : Text :=
  "# >>> Vibe Kanban: pipeline artifacts kept out of git (repo setting, managed)".toList

def BLOCK_END : Text := "# <<< Vibe Kanban: pipeline artifacts".toList

def BASE_PATTERNS : List Text := ["**/specs/vk/".toList, "**/.specify/".toList]

local instance lawfulText : LawfulBEq Text := inferInstance

/-- `if !patterns.contains(&pattern) { patterns.push(pattern) }` -/
def pushNew (patterns : List Text) (pattern : Text) : List Text :=
  if pattern ∈ patterns then patterns else patterns ++ [pattern]

def keyPattern (key : Text) : Text := "**/specs/".toList ++ key.takeWhile (· ≠ '/') ++ ['/']

/-- `required_patterns` (lines 90-101). -/
def requiredPatterns (featureKeys : List Text) : List Text :=
  ((featureKeys.filter fun key => key.takeWhile (· ≠ '/') ≠ []).map keyPattern).foldl pushNew
    BASE_PATTERNS

/-- `trim_end_matches(['\n', '\r'])`. -/
def content (line : Text) : Text := line.rdropWhile fun c => c = '\n' || c = '\r'

/-- The variables of the loop. -/
structure Scan where
  out : Text
  previous : List Text
  inBlock : Bool
  deriving DecidableEq

/-- The body of the loop (lines 109-124). -/
def Scan.step (s : Scan) (line : Text) : Scan :=
  let trimmed := content line
  if s.inBlock then
    if trimmed = BLOCK_END then { s with inBlock := false }
    else if trimmed = [] then s
    else { s with previous := pushNew s.previous trimmed }
  else if trimmed = BLOCK_START then { s with inBlock := true }
  else { s with out := s.out ++ line }

def scan (text : Text) : Scan := (splitInclusive (· = '\n') text).foldl Scan.step ⟨[], [], false⟩

/-- A newline is put after a last line that lacks one. -/
def closeLine (text : Text) : Text :=
  if text = [] ∨ text.getLast? = some '\n' then text else text ++ ['\n']

/-- The lines that are appended. -/
def blockLines (patterns : List Text) : List Text :=
  (BLOCK_START ++ ['\n']) :: patterns.map (· ++ ['\n']) ++ [BLOCK_END ++ ['\n']]

/-- `with_managed_block` (lines 105-144). -/
def withManagedBlock (text : Text) : Option (List Text) → Text
  | none => (scan text).out
  | some required => closeLine (scan text).out ++
      (blockLines (required.foldl pushNew (scan text).previous)).flatten

/-! ## The lines of a text -/

inductive Place where
  | outside
  | start
  | inside
  | stop
  deriving DecidableEq

/-- Where the lines are. -/
@[grind =]
def places : Bool → List Text → List (Place × Text)
  | _, [] => []
  | false, line :: ls =>
    if content line = BLOCK_START then (.start, line) :: places true ls
    else (.outside, line) :: places false ls
  | true, line :: ls =>
    if content line = BLOCK_END then (.stop, line) :: places false ls
    else (.inside, line) :: places true ls

def linesAt (place : Place) (ps : List (Place × Text)) : List Text :=
  (ps.filter fun p => p.1 = place).map Prod.snd

/-- The lines of a text at a place. -/
def textAt (place : Place) (text : Text) : List Text :=
  linesAt place (places false (splitInclusive (· = '\n') text))

/-- What the blocks of a text say. -/
def patternsOf (text : Text) : List Text := ((textAt .inside text).map content).filter (· ≠ [])

/-- A pattern is a line of a block. -/
structure IsPattern (x : Text) : Prop where
  ne_nil : x ≠ []
  newline : '\n' ∉ x
  content : content x = x
  ne_end : x ≠ BLOCK_END

variable {x line text tail : Text} {s : Scan} {ls us patterns required : List Text}

@[simp]
theorem content_newline (text : Text) : content (text ++ ['\n']) = content text :=
  rdropWhile_concat_pos _ _ _ (by simp)

theorem content_idem (line : Text) : content (content line) = content line :=
  rdropWhile_idempotent _ _

theorem notMem_content (h : '\n' ∉ line) : '\n' ∉ content line :=
  fun hmem => h (( rdropWhile_prefix _ line).subset hmem)

theorem isPattern_keyPattern {key : Text} (h : '\n' ∉ key) : IsPattern (keyPattern key) where
  ne_nil := append_ne_nil_of_right_ne_nil _ (cons_ne_nil _ _)
  newline hmem := by
    rcases mem_append.1 hmem with hmem | hmem
    · rcases mem_append.1 hmem with hmem | hmem
      · exact absurd hmem (by decide)
      · exact h (( takeWhile_prefix _).subset hmem)
    · exact absurd hmem (by decide)
  content := rdropWhile_concat_neg _ _ _ (by decide)
  ne_end heq := by
    have hhead : (keyPattern key).head? = some '*' := rfl
    rw [heq] at hhead
    cases hhead

theorem end_ne_nil : BLOCK_END ≠ [] := by decide

/-! ## Patterns -/

theorem pushNew_eq : pushNew = Firsts.pushNew id := by
  funext patterns pattern
  simp [pushNew, Firsts.pushNew]

theorem mem_foldl_pushNew : x ∈ required.foldl pushNew patterns ↔ x ∈ patterns ∨ x ∈ required := by
  have h := @Firsts.mem_map_foldl _ _ _ id required patterns x
  rwa [map_id, map_id, map_id, ← pushNew_eq] at h

theorem nodup_foldl_pushNew (h : patterns.Nodup) : (required.foldl pushNew patterns).Nodup := by
  rw [pushNew_eq, ← map_id (foldl _ _ _)]
  exact Firsts.nodup_foldl (by rwa [map_id])

theorem foldl_pushNew_of_nodup (h : (patterns ++ required).Nodup) :
    required.foldl pushNew patterns = patterns ++ required := by
  rw [pushNew_eq]
  exact Firsts.foldl_of_nodup (by rwa [map_id])

theorem foldl_pushNew_of_subset (h : ∀ y ∈ required, y ∈ patterns) :
    required.foldl pushNew patterns = patterns := by
  rw [pushNew_eq]
  exact Firsts.foldl_of_subset (by rwa [map_id])

/-! ## The loop -/

/-- The loop tells the places of the lines. -/
theorem foldl_step (ls : List Text) (s : Scan) :
    (ls.foldl Scan.step s).out = s.out ++ (linesAt .outside (places s.inBlock ls)).flatten ∧
    (ls.foldl Scan.step s).previous =
      (((linesAt .inside (places s.inBlock ls)).map content).filter (· ≠ [])).foldl pushNew
        s.previous := by
  induction ls generalizing s with
  | nil => simp [places, linesAt]
  | cons line ls ih =>
    obtain ⟨out, previous, inBlock⟩ := s
    obtain ⟨hout, hprevious⟩ := ih (Scan.step ⟨out, previous, inBlock⟩ line)
    rw [foldl_cons, hout, hprevious]
    cases inBlock with
    | false => by_cases hstart : content line = BLOCK_START <;>
        simp [Scan.step, places, linesAt, hstart]
    | true =>
      by_cases hend : content line = BLOCK_END
      · simp [Scan.step, places, linesAt, hend]
      · by_cases hnil : content line = []
        · simp [Scan.step, places, linesAt, end_ne_nil, hnil]
        · simp [Scan.step, places, linesAt, hend, hnil]

theorem scan_out (text : Text) : (scan text).out = (textAt .outside text).flatten :=
  (foldl_step _ _).1

theorem scan_previous (text : Text) : (scan text).previous = (patternsOf text).foldl pushNew [] :=
  (foldl_step _ _).2

/-! ## The places -/

theorem map_snd_places (b : Bool) (ls : List Text) : (places b ls).map Prod.snd = ls := by
  induction ls generalizing b with
  | nil => simp [places]
  | cons line ls ih => cases b <;> rw [places] <;> split_ifs <;> rw [map_cons, ih]

theorem linesAt_sublist (place : Place) (b : Bool) (ls : List Text) :
    linesAt place (places b ls) <+ ls := by
  conv_rhs => rw [← map_snd_places b ls]
  exact filter_sublist.map Prod.snd

theorem content_of_mem_places {b : Bool} :
    ((.outside, line) ∈ places b ls → content line ≠ BLOCK_START) ∧
    ((.inside, line) ∈ places b ls → content line ≠ BLOCK_END) := by
  induction ls generalizing b with
  | nil => simp [places]
  | cons l ls ih =>
    cases b with
    | false | true => rw [places]; split_ifs <;> grind

theorem mem_linesAt {place : Place} {b : Bool} :
    line ∈ linesAt place (places b ls) ↔ (place, line) ∈ places b ls := by
  simp [linesAt]

theorem places_outside (h : ∀ u ∈ us, content u ≠ BLOCK_START) (ls : List Text) :
    places false (us ++ ls) = us.map (Prod.mk .outside) ++ places false ls := by
  induction us with
  | nil => rfl
  | cons u us ih =>
    obtain ⟨hu, hus⟩ := forall_mem_cons.1 h
    rw [cons_append, places, if_neg hu, ih hus]
    rfl

theorem places_inside (h : ∀ x ∈ patterns, IsPattern x) (ls : List Text) :
    places true (patterns.map (· ++ ['\n']) ++ ls) =
      patterns.map (fun x => (.inside, x ++ ['\n'])) ++ places true ls := by
  induction patterns with
  | nil => rfl
  | cons x patterns ih =>
    obtain ⟨hx, hpatterns⟩ := forall_mem_cons.1 h
    have hend : content (x ++ ['\n']) ≠ BLOCK_END := by
      rw [content_newline, hx.content]
      exact hx.ne_end
    rw [map_cons, cons_append, places, if_neg hend, ih hpatterns]
    rfl

theorem ne_start_of_linesAt (h : linesAt .start (places false ls) = []) :
    ∀ u ∈ ls, content u ≠ BLOCK_START := by
  induction ls with
  | nil => exact nofun
  | cons line ls ih =>
    rw [places] at h
    split_ifs at h with hstart
    · cases h
    · exact forall_mem_cons.2 ⟨hstart, ih h⟩

theorem textAt_outside (h : textAt .start text = []) :
    textAt .outside text = splitInclusive (· = '\n') text := by
  have hplaces := places_outside (ne_start_of_linesAt h) []
  rw [append_nil] at hplaces
  simp [textAt, hplaces, places, linesAt, filter_map, Function.comp_def]

theorem isPattern_of_mem (h : x ∈ patternsOf text) : IsPattern x := by
  obtain ⟨hmem, hne⟩ := mem_filter.1 h
  obtain ⟨line, hline, rfl⟩ := mem_map.1 hmem
  refine ⟨by simpa using hne, ?_, content_idem line, content_of_mem_places.2 (mem_linesAt.1 hline)⟩
  obtain ⟨-, hnewline⟩ := mem_splitInclusive ((linesAt_sublist _ _ _).subset hline)
  rcases eq_nil_or_concat line with rfl | ⟨cs, c, rfl⟩
  · exact not_mem_nil
  · rw [concat_eq_append, dropLast_concat] at hnewline
    have hcs : '\n' ∉ cs := fun hmem => by simpa using hnewline _ hmem
    rw [concat_eq_append]
    by_cases hc : c = '\n'
    · rw [hc, content_newline]
      exact notMem_content hcs
    · exact notMem_content (by simp [hcs, Ne.symm hc])

/-! ## The result -/

theorem closeLine_flatten (h : ∀ u ∈ us, IsLine '\n' u) : closeLine us.flatten = us.flatten := by
  rcases eq_nil_or_concat us with rfl | ⟨us, u, rfl⟩
  · rfl
  · obtain ⟨cs, -, rfl⟩ := h u (by simp)
    simp [closeLine]

theorem closeLine_append (htail : '\n' ∉ tail) (hne : tail ≠ []) :
    closeLine (text ++ tail) = text ++ (tail ++ ['\n']) := by
  rw [closeLine, if_neg, append_assoc]
  rw [getLast?_append_of_ne_nil _ hne]
  rintro (hnil | hlast)
  · exact hne (append_eq_nil_iff.1 hnil).2
  · exact htail (mem_of_getLast? hlast)

/-- The lines outside of blocks, with a newline after the last. -/
theorem exists_outside (text : Text) :
    ∃ us : List Text, (∀ u ∈ us, IsLine '\n' u) ∧ (∀ u ∈ us, content u ≠ BLOCK_START) ∧
      closeLine (textAt .outside text).flatten = us.flatten := by
  have hstart : ∀ u ∈ textAt .outside text, content u ≠ BLOCK_START :=
    fun u hu => content_of_mem_places.1 (mem_linesAt.1 hu)
  have hsub : textAt .outside text <+ splitInclusive (· = '\n') text := linesAt_sublist _ _ _
  obtain ⟨ls, tail, hls, htail, heq⟩ := exists_lines '\n' text
  rw [heq, splitInclusive_flatten hls, ← heq] at hsub
  obtain ⟨us, us', hus, hsub, hsub'⟩ := sublist_append_iff.1 hsub
  have hlines : ∀ u ∈ us, IsLine '\n' u := fun u hu => hls u (hsub.subset hu)
  rw [hus] at hstart ⊢
  obtain ⟨hfirst, hlast⟩ := forall_mem_append.1 hstart
  by_cases hne : us' = []
  · rw [hne, append_nil]
    exact ⟨us, hlines, hfirst, closeLine_flatten hlines⟩
  · have htailNe : tail ≠ [] := by
      rintro rfl
      exact hne (sublist_nil.1 hsub')
    rw [splitInclusive_of_notMem htail htailNe] at hsub'
    obtain rfl := (sublist_singleton.1 hsub').resolve_left hne
    refine ⟨us ++ [tail ++ ['\n']], ?_, ?_, ?_⟩
    · exact forall_mem_append.2 ⟨hlines, forall_mem_singleton.2 ⟨tail, htail, rfl⟩⟩
    · refine forall_mem_append.2 ⟨hfirst, forall_mem_singleton.2 ?_⟩
      rw [content_newline]
      exact hlast tail mem_cons_self
    · rw [flatten_append, flatten_singleton, closeLine_append htail htailNe]
      simp

/-- What a call with patterns leaves. -/
structure Managed (text : Text) (required : List Text) (r : Text) : Prop where
  start : textAt .start r = [BLOCK_START ++ ['\n']]
  outside : (textAt .outside r).flatten = closeLine (textAt .outside text).flatten
  patterns : patternsOf r = required.foldl pushNew (scan text).previous
  nodup : (patternsOf r).Nodup
  mem : ∀ x, x ∈ patternsOf r ↔ x ∈ patternsOf text ∨ x ∈ required
  closed : closeLine (textAt .outside r).flatten = (textAt .outside r).flatten

def blockPlaces (us patterns : List Text) : List (Place × Text) :=
  us.map (Prod.mk .outside) ++ (.start, BLOCK_START ++ ['\n']) ::
    (patterns.map (fun x => (.inside, x ++ ['\n'])) ++ [(.stop, BLOCK_END ++ ['\n'])])

theorem textAt_block (hlines : ∀ u ∈ us, IsLine '\n' u)
    (hstart : ∀ u ∈ us, content u ≠ BLOCK_START) (h : ∀ x ∈ patterns, IsPattern x)
    (place : Place) : textAt place (us ++ blockLines patterns).flatten =
      linesAt place (blockPlaces us patterns) := by
  have hline {x : Text} (hx : '\n' ∉ x) : IsLine '\n' (x ++ ['\n']) := ⟨x, hx, rfl⟩
  have hall : ∀ l ∈ us ++ blockLines patterns, IsLine '\n' l := by
    refine forall_mem_append.2 ⟨hlines, forall_mem_append.2 ⟨forall_mem_cons.2 ⟨?_, ?_⟩, ?_⟩⟩
    · exact hline (by decide)
    · exact forall_mem_map.2 fun x hx => hline (h x hx).newline
    · exact forall_mem_singleton.2 (hline (by decide))
  have hsplit := splitInclusive_flatten hall []
  rw [append_nil, splitInclusive, append_nil] at hsplit
  have hbegin : content (BLOCK_START ++ ['\n']) = BLOCK_START := by decide
  have hend : content (BLOCK_END ++ ['\n']) = BLOCK_END := by decide
  rw [textAt, hsplit, places_outside hstart, blockLines, cons_append, places, if_pos hbegin,
    places_inside h, places, if_pos hend, places]
  rfl

theorem managed_withManagedBlock (text : Text) (h : ∀ x ∈ required, IsPattern x) :
    Managed text required (withManagedBlock text (some required)) := by
  obtain ⟨us, hlines, hstart, hus⟩ := exists_outside text
  have hmem (x : Text) : x ∈ required.foldl pushNew (scan text).previous ↔
      x ∈ patternsOf text ∨ x ∈ required := by
    rw [scan_previous, mem_foldl_pushNew, mem_foldl_pushNew, or_iff_right not_mem_nil]
  have hnodup : (required.foldl pushNew (scan text).previous).Nodup := by
    rw [scan_previous]
    exact nodup_foldl_pushNew (nodup_foldl_pushNew nodup_nil)
  have hpattern : ∀ x ∈ required.foldl pushNew (scan text).previous, IsPattern x :=
    fun x hx => ((hmem x).1 hx).elim isPattern_of_mem (h x)
  have hr : withManagedBlock text (some required) =
      (us ++ blockLines (required.foldl pushNew (scan text).previous)).flatten := by
    rw [withManagedBlock, scan_out, hus, flatten_append]
  rw [hr]
  generalize hpatterns : required.foldl pushNew (scan text).previous = patterns at *
  have hat := textAt_block hlines hstart hpattern
  have houtside : textAt .outside (us ++ blockLines patterns).flatten = us := by
    rw [hat]
    simp [blockPlaces, linesAt, filter_map, Function.comp_def]
  have hinside : patternsOf (us ++ blockLines patterns).flatten = patterns := by
    have hkeep : patterns.map (content ∘ (· ++ ['\n'])) = patterns.map id :=
      map_congr_left fun x hx => (content_newline x).trans (hpattern x hx).content
    have hne : patterns.filter (· ≠ []) = patterns :=
      filter_eq_self.2 fun x hx => by simpa using (hpattern x hx).ne_nil
    have hlines : linesAt .inside (blockPlaces us patterns) = patterns.map (· ++ ['\n']) := by
      simp [blockPlaces, linesAt, filter_map, Function.comp_def]
    rw [patternsOf, hat, hlines, map_map, hkeep, map_id, hne]
  refine ⟨?_, by rw [houtside, hus], hinside.trans hpatterns.symm, ?_, fun x => ?_, ?_⟩
  · rw [hat]
    simp [blockPlaces, linesAt, filter_map, Function.comp_def]
  · rwa [hinside]
  · rw [hinside]
    exact hmem x
  · rw [houtside]
    exact closeLine_flatten hlines

theorem isPattern_of_required {featureKeys : List Text} (h : ∀ key ∈ featureKeys, '\n' ∉ key) :
    ∀ x ∈ requiredPatterns featureKeys, IsPattern x := by
  have hbase : ∀ x ∈ BASE_PATTERNS, IsPattern x := forall_mem_cons.2
    ⟨⟨nofun, by decide, by decide, by decide⟩, forall_mem_singleton.2
      ⟨nofun, by decide, by decide, by decide⟩⟩
  intro x hx
  rcases mem_foldl_pushNew.1 hx with hx | hx
  · exact hbase x hx
  · obtain ⟨key, hkey, rfl⟩ := mem_map.1 hx
    exact isPattern_keyPattern (h key (mem_of_mem_filter hkey))

/-- Syncs with the patterns of several workspaces, one after another. -/
def syncAll (text : Text) (syncs : List (List Text)) : Text :=
  syncs.foldl (fun text required => withManagedBlock text (some required)) text

theorem mem_syncAll {syncs : List (List Text)} (h : ∀ p ∈ syncs, ∀ x ∈ p, IsPattern x) :
    x ∈ patternsOf (syncAll text syncs) ↔ x ∈ patternsOf text ∨ ∃ p ∈ syncs, x ∈ p := by
  induction syncs generalizing text with
  | nil => simp [syncAll]
  | cons p syncs ih =>
    obtain ⟨hp, hsyncs⟩ := forall_mem_cons.1 h
    rw [syncAll, foldl_cons, ← syncAll, ih hsyncs, (managed_withManagedBlock text hp).mem]
    simp [or_assoc]

/-- With patterns there is one block, which has the patterns of all blocks and the new ones, each
    once, and the lines outside of blocks stay in order; the same call again changes nothing, and
    one without patterns gives the text back if it had no block. -/
theorem managed_block (text : Text) (required : List Text) (h : ∀ x ∈ required, IsPattern x) :
    let r := withManagedBlock text (some required)
    (textAt .start r).length = 1 ∧
    (textAt .outside r).flatten = closeLine (textAt .outside text).flatten ∧
    (patternsOf r).Nodup ∧ (∀ x, x ∈ patternsOf r ↔ x ∈ patternsOf text ∨ x ∈ required) ∧
    withManagedBlock r (some required) = r ∧
    (textAt .start text = [] → withManagedBlock r none = closeLine text) ∧
    ∀ syncs : List (List Text), (∀ p ∈ syncs, ∀ x ∈ p, IsPattern x) →
      ∀ x, x ∈ patternsOf (syncAll text syncs) ↔ x ∈ patternsOf text ∨ ∃ p ∈ syncs, x ∈ p := by
  have hr := managed_withManagedBlock text h
  refine ⟨by rw [hr.start, length_singleton], hr.outside, hr.nodup, hr.mem, ?_, fun hstart => ?_,
    fun syncs hsyncs x => mem_syncAll hsyncs⟩
  · have hprevious : (scan (withManagedBlock text (some required))).previous =
        required.foldl pushNew (scan text).previous := by
      rw [scan_previous, foldl_pushNew_of_nodup hr.nodup, nil_append, hr.patterns]
    have hsame : required.foldl pushNew (required.foldl pushNew (scan text).previous) =
        required.foldl pushNew (scan text).previous :=
      foldl_pushNew_of_subset fun y hy => mem_foldl_pushNew.2 (.inr hy)
    rw [withManagedBlock, hprevious, hsame, scan_out, hr.closed, hr.outside, ← scan_out]
    rfl
  · rw [withManagedBlock, scan_out, hr.outside, textAt_outside hstart, flatten_splitInclusive]

/-- A block that another tool has left open. -/
def openBlock : Text := BLOCK_START ++ "\n*.log\n*.log\n".toList

theorem managed_block_example :
    withManagedBlock (withManagedBlock openBlock (some (requiredPatterns ["dv/a".toList])))
        (some (requiredPatterns ["dv/a".toList])) =
      withManagedBlock openBlock (some (requiredPatterns ["dv/a".toList])) :=
  (managed_block openBlock _ (isPattern_of_required
    (forall_mem_singleton.2 (by decide)))).2.2.2.2.1

/-- The second line after a start marker without an end marker is lost, and an empty pattern moves
    when the call is repeated. -/
theorem open_block_shrinks :
    withManagedBlock openBlock (some []) = BLOCK_START ++ "\n*.log\n".toList ++ BLOCK_END ++
      ['\n'] ∧
    withManagedBlock (withManagedBlock [] (some [[], ['a']])) (some [[], ['a']]) ≠
      withManagedBlock [] (some [[], ['a']]) := by
  decide

end VibeKanban.GitExclude
