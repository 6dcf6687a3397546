import VibeKanban.Output.PlainText

/-!
# The text in the entries of a `PlainTextLogProcessor`

An identity transform leaves chunks, lines and the content of entries as they are. The entry that
stands for the buffer is the current one, and the last; concluded entries are never patched again.

* `processor_loses_nothing`: the concluded entries and the buffer hold the text, if no chunk is
  late.
-/

namespace VibeKanban.Output

open Lib List Conversation Text

/-! ## Buffers -/

theorem Text.len_append (s t : Text) : len (s ++ t) = len s + len t := by
  unfold len
  rw [map_append, sum_append]

theorem Text.len_flatten (lines : List Text) :
    len lines.flatten = (lines.map len).sum := by
  induction lines with
  | nil => rfl
  | cons line lines ih =>
    rw [flatten_cons, len_append, ih]
    rfl

theorem Text.len_eq_zero {t : Text} : len t = 0 ↔ t = [] := by
  constructor
  · intro h
    cases t with
    | nil => rfl
    | cons c cs =>
      have hpos : 0 < c.utf8Size := Char.utf8Size_pos c
      have hsum : c.utf8Size + len cs = 0 := h
      omega
  · rintro rfl
    rfl

namespace PlainTextBuffer

def text (b : PlainTextBuffer) : Text := b.lines.flatten

/-- The cached length is the length of the text. -/
def Measured (b : PlainTextBuffer) : Prop := b.totalLen = Text.len b.text

variable {b : PlainTextBuffer}

theorem Measured.isEmpty_iff (h : b.Measured) : b.isEmpty = true ↔ b.text = [] := by
  rw [isEmpty, decide_eq_true_eq, h, len_eq_zero]

theorem lines_eq_of_partialLine {currentPartial : Text} (h : b.partialLine = some currentPartial) :
    b.lines = b.lines.dropLast ++ [currentPartial] := by
  unfold partialLine at h
  split at h
  · rename_i hlast
    split at h <;> cases h
    exact (dropLast_append_getLast? _ hlast).symm
  · cases h

theorem text_ingest (b : PlainTextBuffer) (textChunk : Text) :
    (b.ingest textChunk).text = b.text ++ textChunk := by
  unfold ingest
  split
  · rename_i hpartial
    show (b.lines.dropLast ++ splitInclusive _ _).flatten = b.lines.flatten ++ textChunk
    rw [flatten_append, flatten_splitInclusive]
    conv_rhs => rw [lines_eq_of_partialLine hpartial]
    rw [flatten_append, flatten_singleton, append_assoc]
  · show (b.lines ++ splitInclusive _ _).flatten = b.lines.flatten ++ textChunk
    rw [flatten_append, flatten_splitInclusive]

theorem Measured.ingest (h : b.Measured) (textChunk : Text) : (b.ingest textChunk).Measured := by
  unfold Measured at h ⊢
  rw [text_ingest, len_append]
  unfold PlainTextBuffer.ingest
  split
  · rename_i currentPartial hpartial
    show b.totalLen - len currentPartial + len (currentPartial ++ textChunk) = _
    have hle : len currentPartial ≤ b.totalLen := by
      rw [h, text, lines_eq_of_partialLine hpartial, flatten_append, len_append,
        flatten_singleton]
      exact Nat.le_add_left _ _
    rw [len_append, ← h]
    omega
  · show b.totalLen + len textChunk = _
    rw [h]

theorem text_drainLines (b : PlainTextBuffer) (n : ℕ) :
    (b.drainLines n).2.flatten ++ (b.drainLines n).1.text = b.text := by
  show (b.lines.take n).flatten ++ (b.lines.drop n).flatten = b.lines.flatten
  rw [← flatten_append, take_append_drop]

theorem foldl_sub_len (lines : List Text) (total : ℕ) :
    lines.foldl (fun total line => total - len line) total =
      total - len lines.flatten := by
  induction lines generalizing total with
  | nil => rfl
  | cons line lines ih => rw [foldl_cons, ih, flatten_cons, len_append, Nat.sub_sub]

theorem Measured.drainLines (h : b.Measured) (n : ℕ) : (b.drainLines n).1.Measured := by
  have htext : len (b.lines.take n).flatten + len (b.lines.drop n).flatten =
      len b.text := by
    rw [← len_append, ← flatten_append, take_append_drop]
    rfl
  show (b.lines.take n).foldl _ b.totalLen = len (b.lines.drop n).flatten
  rw [foldl_sub_len, h]
  omega

theorem measured_recomputeLen (b : PlainTextBuffer) : b.recomputeLen.Measured :=
  (len_flatten b.lines).symm

theorem drainLines_eq_self {n : ℕ} (h : (b.drainLines n).2 = []) : (b.drainLines n).1 = b := by
  have htake : b.lines.take n = [] := h
  have hdrop : b.lines.drop n = b.lines := by
    have happ := take_append_drop n b.lines
    rw [htake, nil_append] at happ
    exact happ
  unfold drainLines
  rw [htake, hdrop]
  rfl

theorem length_drainLines_lt {n : ℕ} (h : (b.drainLines n).2 ≠ []) :
    (b.drainLines n).1.lines.length < b.lines.length := by
  have hpos : 0 < (b.lines.take n).length := length_pos_of_ne_nil h
  have hsum : (b.lines.take n).length + (b.lines.drop n).length = b.lines.length := by
    rw [← length_append, take_append_drop]
  show (b.lines.drop n).length < b.lines.length
  omega

end PlainTextBuffer

/-! ## Entries -/

variable {Entry : Type*} {content : Entry → Text} {c : Config Entry}

/-- Formatting, line transforms and the production of entries leave the text as it is. -/
structure Identity (content : Entry → Text) (c : Config Entry) : Prop where
  formatChunk : ∀ f, c.formatChunk = some f → ∀ partialLine text, f partialLine text = text
  transformLines : ∀ f, c.transformLines = some f → ∀ lines, f lines = lines
  producer : ∀ text, content (c.normalizedEntryProducer text) = text

def published (content : Entry → Text) (entries : Entries Entry) : Text :=
  (entries.map fun e => content e.2).flatten

theorem published_append (l r : Entries Entry) :
    published content (l ++ r) = published content l ++ published content r := by
  unfold published
  rw [map_append, flatten_append]

/-- The entries that no later patch touches: all but the current one. -/
def concluded (p : Processor) (entries : Entries Entry) : Entries Entry :=
  match p.currentEntryIndex with
  | none => entries
  | some _ => entries.dropLast

/-- Where the text of a conversation is. -/
structure Accounted (content : Entry → Text) (p : Processor) (entries : Entries Entry)
    (received : Text) : Prop where
  measured : p.buffer.Measured
  increasing : entries.Pairwise fun e e' => e.1 < e'.1
  below : ∀ e ∈ entries, e.1 < p.indexProvider
  /-- The current entry is the last one and holds a beginning of the buffered text. -/
  current : ∀ i, p.currentEntryIndex = some i →
    ∃ rest entry, entries = rest ++ [(i, entry)] ∧ content entry <+: p.buffer.text
  account : published content (concluded p entries) ++ p.buffer.text = received

theorem applyPatch_replace {rest : Entries Entry} {i : ℕ} {entry new : Entry}
    (h : (rest ++ [(i, entry)]).Pairwise fun e e' => e.1 < e'.1) :
    applyPatch (rest ++ [(i, entry)]) (.replace i new) = rest ++ [(i, new)] := by
  have hrest : rest.map (fun e => if e.1 = i then (i, new) else e) = rest := by
    conv_rhs => rw [← map_id rest]
    apply map_congr_left
    intro e he
    have hlt : e.1 < i := (pairwise_append.1 h).2.2 e he (i, entry) (mem_singleton_self _)
    rw [if_neg (Nat.ne_of_lt hlt)]
    rfl
  show (rest ++ [(i, entry)]).map _ = _
  rw [map_append, hrest]
  show rest ++ [if i = i then (i, new) else (i, entry)] = _
  rw [if_pos rfl]

/-- What `create_patch` leaves: an entry with the lines at the end of the concluded ones. -/
structure Patched (c : Config Entry) (p : Processor) (entries : Entries Entry) (lines : List Text)
    (buffer : PlainTextBuffer) (p' : Processor) (entries' : Entries Entry) : Prop where
  buffer : p'.buffer = buffer
  entries : ∃ i, p'.currentEntryIndex = some i ∧
    entries' = concluded p entries ++ [(i, c.normalizedEntryProducer lines.flatten)]
  increasing : entries'.Pairwise fun e e' => e.1 < e'.1
  below : ∀ e ∈ entries', e.1 < p'.indexProvider

variable {p : Processor} {entries : Entries Entry} {received : Text} {buffer : PlainTextBuffer}

theorem patched_createPatch
    (h : Accounted content p entries received) (buffer : PlainTextBuffer) (lines : List Text) :
    Patched c p entries lines buffer (createPatch c { p with buffer := buffer } lines).1
      (applyPatch entries (createPatch c { p with buffer := buffer } lines).2) := by
  cases hcur : p.currentEntryIndex with
  | none =>
    have hconcluded : concluded p entries = entries := by
      unfold concluded
      rw [hcur]
    refine ⟨rfl, ⟨p.indexProvider, rfl, by rw [hconcluded]; rfl⟩, ?_, ?_⟩
    · show (entries ++ [(p.indexProvider, _)]).Pairwise _
      rw [pairwise_append]
      refine ⟨h.increasing, pairwise_singleton _ _, ?_⟩
      intro e he e' he'
      rw [mem_singleton.1 he']
      exact h.below e he
    · intro e he
      rcases mem_append.1 he with hold | hnew
      · exact Nat.lt_succ_of_lt (h.below e hold)
      · rw [mem_singleton.1 hnew]
        exact Nat.lt_succ_self _
  | some i =>
    obtain ⟨rest, entry, rfl, -⟩ := h.current i hcur
    have hconcluded : concluded p (rest ++ [(i, entry)]) = rest := by
      unfold concluded
      rw [hcur]
      exact dropLast_concat
    have hpatch : ∀ new, applyPatch (rest ++ [(i, entry)]) (.replace i new) = rest ++ [(i, new)] :=
      fun new => applyPatch_replace h.increasing
    refine ⟨rfl, ⟨i, rfl, by rw [hconcluded]; exact hpatch _⟩, ?_, ?_⟩
    · show (applyPatch (rest ++ [(i, entry)]) (.replace i _)).Pairwise _
      rw [hpatch, pairwise_append]
      obtain ⟨hrest, -, hlast⟩ := pairwise_append.1 h.increasing
      refine ⟨hrest, pairwise_singleton _ _, ?_⟩
      intro e he e' he'
      rw [mem_singleton.1 he']
      exact hlast e he (i, entry) (mem_singleton_self _)
    · show ∀ e ∈ applyPatch (rest ++ [(i, entry)]) (.replace i _), e.1 < p.indexProvider
      rw [hpatch]
      intro e he
      rcases mem_append.1 he with hold | hnew
      · exact h.below e (mem_append_left _ hold)
      · rw [mem_singleton.1 hnew]
        exact h.below (i, entry) (mem_append_right _ (mem_singleton_self _))

theorem published_patched (hid : Identity content c) (entries : Entries Entry) (i : ℕ)
    (lines : List Text) :
    published content (entries ++ [(i, c.normalizedEntryProducer lines.flatten)]) =
      published content entries ++ lines.flatten := by
  rw [published_append]
  show _ ++ [content (c.normalizedEntryProducer lines.flatten)].flatten = _
  rw [hid.producer, flatten_singleton]

/-- Concluding an entry with drained lines keeps the account. -/
theorem accounted_concludeEntry (hid : Identity content c)
    (h : Accounted content p entries received) {lines : List Text} (hm : buffer.Measured)
    (htext : lines.flatten ++ buffer.text = p.buffer.text) :
    Accounted content (concludeEntry c { p with buffer := buffer } lines).1
        (applyPatch entries (concludeEntry c { p with buffer := buffer } lines).2) received ∧
      concluded p entries <+: concluded (concludeEntry c { p with buffer := buffer } lines).1
        (applyPatch entries (concludeEntry c { p with buffer := buffer } lines).2) := by
  obtain ⟨hbuffer, ⟨i, -, hentries⟩, hinc, hbelow⟩ := patched_createPatch (c := c) h buffer lines
  have hconcluded : ∀ entries' : Entries Entry,
      concluded (concludeEntry c { p with buffer := buffer } lines).1 entries' = entries' :=
    fun _ => rfl
  have hbuffer' : (concludeEntry c { p with buffer := buffer } lines).1.buffer = buffer := hbuffer
  constructor
  · refine ⟨?_, hinc, hbelow, ?_, ?_⟩
    · rw [hbuffer']
      exact hm
    · intro j hj
      cases hj
    · rw [hconcluded, hbuffer', ← h.account, ← htext]
      show published content (applyPatch entries (createPatch c _ lines).2) ++ _ = _
      rw [hentries, published_patched hid, append_assoc]
  · rw [hconcluded]
    show _ <+: applyPatch entries (createPatch c _ lines).2
    rw [hentries]
    exact prefix_append _ _

/-! ## The loops -/

theorem applyPatches_concat (entries : Entries Entry) (patches : List (Patch Entry))
    (patch : Patch Entry) :
    applyPatches entries (patches ++ [patch]) =
      applyPatch (applyPatches entries patches) patch := by
  unfold applyPatches
  rw [foldl_append]
  rfl

/-- The answer of the boundary predicate to the buffered lines. -/
def Config.boundary (c : Config Entry) (p : Processor) : Option MessageBoundary :=
  c.messageBoundaryPredicate.bind fun predicate => predicate p.buffer.lines

variable {fuel : ℕ} {p' : Processor} {patches : List (Patch Entry)} {chunk : Chunk}

section

variable (hid : Identity content c)
include hid

theorem accounted_boundaryLoop {patches' : List (Patch Entry)}
    {goOn : Bool} (h : Accounted content p (applyPatches entries patches) received)
    (hl : boundaryLoop c fuel p patches = some (p', patches', goOn)) :
    Accounted content p' (applyPatches entries patches') received ∧
      concluded p (applyPatches entries patches) <+: concluded p' (applyPatches entries patches') ∧
      (goOn = false → c.boundary p' = some .incompleteContent) := by
  induction fuel generalizing p patches with
  | zero => cases hl
  | succ fuel ih =>
    rw [boundaryLoop] at hl
    split at hl
    · rename_i lineIdx hsplit
      by_cases hdrained : (p.buffer.drainLines lineIdx).2 = []
      · simp only [hdrained, ne_eq, not_true_eq_false, if_false] at hl
        rw [PlainTextBuffer.drainLines_eq_self hdrained] at hl
        exact ih h hl
      · simp only [ne_eq, hdrained, not_false_eq_true, if_true] at hl
        obtain ⟨hacc, hpre⟩ := accounted_concludeEntry hid h (h.measured.drainLines lineIdx)
          (p.buffer.text_drainLines lineIdx)
        rw [← applyPatches_concat] at hacc hpre
        obtain ⟨hacc', hpre', hwithheld⟩ := ih hacc hl
        exact ⟨hacc', hpre.trans hpre', hwithheld⟩
    · rename_i hincomplete
      cases hl
      exact ⟨h, prefix_refl _, fun _ => hincomplete⟩
    · cases hl
      refine ⟨h, prefix_refl _, ?_⟩
      intro hgo
      cases hgo

theorem accounted_sizeLoop {sizeThreshold : ℕ}
    (h : Accounted content p (applyPatches entries patches) received) :
    Accounted content (sizeLoop c sizeThreshold fuel p patches).1
        (applyPatches entries (sizeLoop c sizeThreshold fuel p patches).2) received ∧
      concluded p (applyPatches entries patches) <+:
        concluded (sizeLoop c sizeThreshold fuel p patches).1
          (applyPatches entries (sizeLoop c sizeThreshold fuel p patches).2) := by
  induction fuel generalizing p patches with
  | zero => exact ⟨h, prefix_refl _⟩
  | succ fuel ih =>
    rw [sizeLoop]
    split
    · by_cases hdrained : (p.buffer.drainSize sizeThreshold).2 = []
      · simp only [hdrained, if_true]
        have hself : (p.buffer.drainSize sizeThreshold).1 = p.buffer :=
          PlainTextBuffer.drainLines_eq_self hdrained
        rw [hself]
        exact ⟨h, prefix_refl _⟩
      · simp only [hdrained, if_false]
        obtain ⟨hacc, hpre⟩ := accounted_concludeEntry hid h
          (h.measured.drainLines (PlainTextBuffer.linesToDrain sizeThreshold p.buffer.lines 0 0))
          (p.buffer.text_drainLines _)
        rw [← applyPatches_concat] at hacc hpre
        obtain ⟨hacc', hpre'⟩ := ih hacc
        exact ⟨hacc', hpre.trans hpre'⟩
    · exact ⟨h, prefix_refl _⟩

theorem accounted_cutBySize (h : Accounted content p (applyPatches entries patches) received) :
    Accounted content (cutBySize c p patches).1
        (applyPatches entries (cutBySize c p patches).2) received ∧
      concluded p (applyPatches entries patches) <+:
        concluded (cutBySize c p patches).1 (applyPatches entries (cutBySize c p patches).2) := by
  unfold cutBySize
  split
  · exact accounted_sizeLoop hid h
  · exact ⟨h, prefix_refl _⟩

end

/-! ## A call -/

/-- All text is in the entries, unless the predicate withholds what is left in the buffer. -/
def Shown (content : Entry → Text) (c : Config Entry) (p : Processor) (entries : Entries Entry)
    (received : Text) : Prop :=
  published content entries = received ∨ c.boundary p = some .incompleteContent

theorem accounted_stream (hid : Identity content c) (h : Accounted content p entries received) :
    Accounted content (createPatch c p p.buffer.lines).1
        (applyPatch entries (createPatch c p p.buffer.lines).2) received ∧
      concluded p entries <+: concluded (createPatch c p p.buffer.lines).1
        (applyPatch entries (createPatch c p p.buffer.lines).2) ∧
      published content (applyPatch entries (createPatch c p p.buffer.lines).2) = received := by
  obtain ⟨hbuffer, ⟨i, hcur, hentries⟩, hinc, hbelow⟩ :=
    patched_createPatch (c := c) h p.buffer p.buffer.lines
  have hsame : { p with buffer := p.buffer } = p := rfl
  have hconcluded : concluded (createPatch c p p.buffer.lines).1
      (applyPatch entries (createPatch c p p.buffer.lines).2) = concluded p entries := by
    unfold concluded at hentries ⊢
    rw [hcur, hentries]
    exact dropLast_concat
  refine ⟨⟨?_, hinc, hbelow, ?_, ?_⟩, ?_, ?_⟩
  · rw [hbuffer]
    exact h.measured
  · intro j hj
    rw [hcur] at hj
    cases hj
    refine ⟨_, _, hentries, ?_⟩
    rw [hbuffer, hid.producer]
    exact prefix_refl _
  · rw [hconcluded, hbuffer]
    exact h.account
  · exact prefix_iff_eq_append.2 (by rw [hconcluded, drop_length, append_nil])
  · rw [hentries, published_patched hid]
    exact h.account

theorem published_of_isEmpty
    (h : Accounted content p entries received) (hempty : p.buffer.isEmpty = true) :
    published content entries = received := by
  have htext : p.buffer.text = [] := h.measured.isEmpty_iff.1 hempty
  have haccount := h.account
  rw [htext, append_nil] at haccount
  cases hcur : p.currentEntryIndex with
  | none =>
    unfold concluded at haccount
    rw [hcur] at haccount
    exact haccount
  | some i =>
    obtain ⟨rest, entry, rfl, hpre⟩ := h.current i hcur
    rw [htext, prefix_nil] at hpre
    unfold concluded at haccount
    rw [hcur] at haccount
    have hrest : published content rest = received := by
      rw [← haccount]
      exact congrArg (published content) dropLast_concat.symm
    rw [published_append, hrest]
    show received ++ [content entry].flatten = received
    rw [hpre]
    exact append_nil _

theorem accounted_cluster (hid : Identity content c)
    (h : Accounted content p entries received) (hc : cluster c p = some (p', patches)) :
    Accounted content p' (applyPatches entries patches) received ∧
      concluded p entries <+: concluded p' (applyPatches entries patches) ∧
      Shown content c p' (applyPatches entries patches) received := by
  unfold cluster at hc
  split at hc
  · cases hc
  · rename_i hloop
    cases hc
    obtain ⟨hacc, hpre, hwithheld⟩ := accounted_boundaryLoop hid h hloop
    exact ⟨hacc, hpre, .inr (hwithheld rfl)⟩
  · rename_i hloop
    obtain ⟨hacc, hpre, -⟩ := accounted_boundaryLoop hid h hloop
    obtain ⟨hacc₂, hpre₂⟩ := accounted_cutBySize hid hacc
    simp only at hc
    split at hc <;> cases hc
    · rename_i hempty
      exact ⟨hacc₂, hpre.trans hpre₂, .inl (published_of_isEmpty hacc₂ hempty)⟩
    · obtain ⟨hacc₃, hpre₃, hshown⟩ := accounted_stream hid hacc₂
      rw [applyPatches_concat]
      exact ⟨hacc₃, (hpre.trans hpre₂).trans hpre₃, .inl hshown⟩

theorem accounted_ingest (h : Accounted content p entries received) (arrivedAt : ℕ)
    {text : Text} (hm : buffer.Measured) (htext : buffer.text = p.buffer.text ++ text) :
    Accounted content { p with lastChunkArrivalTime := arrivedAt, buffer := buffer } entries
      (received ++ text) := by
  refine ⟨hm, h.increasing, h.below, ?_, ?_⟩
  · intro i hi
    obtain ⟨rest, entry, hentries, hpre⟩ := h.current i hi
    refine ⟨rest, entry, hentries, ?_⟩
    rw [htext]
    exact hpre.trans (prefix_append _ _)
  · rw [htext, ← append_assoc]
    exact congrArg (· ++ text) h.account

theorem accounted_accept (hid : Identity content c)
    (hchunk : chunk.text ≠ []) (h : Accounted content p entries received)
    (ha : accept c p chunk = some (p', patches)) :
    Accounted content p' (applyPatches entries patches) (received ++ chunk.text) ∧
      concluded p entries <+: concluded p' (applyPatches entries patches) ∧
      Shown content c p' (applyPatches entries patches) (received ++ chunk.text) := by
  have hformat : c.formatted p.buffer.partialLine chunk.text = chunk.text := by
    unfold Config.formatted
    split
    · rename_i formatChunk hf
      exact hid.formatChunk formatChunk hf _ _
    · rfl
  have hm := h.measured.ingest chunk.text
  have htext := p.buffer.text_ingest chunk.text
  unfold accept at ha
  simp only [hformat, if_neg hchunk] at ha
  split at ha
  · have hclustered := accounted_cluster hid (accounted_ingest h chunk.arrivedAt hm htext) ha
    exact hclustered
  · rename_i transformLines htransform
    rw [hid.transformLines transformLines htransform] at ha
    have hm' := PlainTextBuffer.measured_recomputeLen (p.buffer.ingest chunk.text)
    split at ha
    · rename_i hempty
      exfalso
      have hnil : (p.buffer.ingest chunk.text).text = [] := hm'.isEmpty_iff.1 hempty
      rw [htext] at hnil
      exact hchunk (append_eq_nil_iff.1 hnil).2
    · have hclustered := accounted_cluster hid (accounted_ingest h chunk.arrivedAt hm' htext) ha
      exact hclustered

/-! ## Runs -/

/-- A chunk with text that does not arrive after the time gap. -/
def Prompt (c : Config Entry) (s : Conversation Entry) (chunk : Chunk) : Prop :=
  chunk.text ≠ [] ∧ late c s.processor chunk = false
  deriving Decidable

/-- Every split of the boundary predicate takes a buffered line. -/
def Productive (c : Config Entry) : Prop :=
  ∀ predicate, c.messageBoundaryPredicate = some predicate → ∀ lines lineIdx,
    predicate lines = some (.split lineIdx) → 0 < lineIdx ∧ lines ≠ []

namespace Conversation

/-- The entries that no later patch touches. -/
def concluded (s : Conversation Entry) : Entries Entry := Output.concluded s.processor s.entries

def Kept (content : Entry → Text) (c : Config Entry) (s : Conversation Entry) : Prop :=
  Accounted content s.processor s.entries s.received ∧
    Shown content c s.processor s.entries s.received

variable {s : Conversation Entry}

theorem Kept.start (h : s.Fresh) : s.Kept content c := by
  obtain ⟨hbuffer, hcur, hentries, hreceived⟩ := h
  refine ⟨⟨?_, ?_, ?_, ?_, ?_⟩, .inl ?_⟩
  · rw [hbuffer]
    rfl
  · rw [hentries]
    exact Pairwise.nil
  · intro e he
    rw [hentries] at he
    cases he
  · intro i hi
    rw [hcur] at hi
    cases hi
  · unfold Output.concluded
    rw [hcur, hbuffer, hentries, hreceived]
    rfl
  · rw [hentries, hreceived]
    rfl

theorem accounted_taken {p : Processor} {entries : Entries Entry} {received : Text}
    (h : Accounted content p entries received) (taken : ℕ) :
    Accounted content { p with indexProvider := p.indexProvider + taken } entries received :=
  ⟨h.measured, h.increasing, fun e he => Nat.lt_add_right taken (h.below e he), h.current,
    h.account⟩

/-- **Step lemma.** A prompt chunk keeps the account and the concluded entries. -/
theorem Kept.next (hid : Identity content c) {s' : Conversation Entry} (h : s.Kept content c)
    (hp : Prompt c s chunk) (hs : step c s chunk = some s') :
    s'.Kept content c ∧ s.concluded <+: s'.concluded := by
  obtain ⟨⟨p, patches⟩, hprocess, rfl⟩ := Option.map_eq_some_iff.1 hs
  obtain ⟨hchunk, hlate⟩ := hp
  have hlate' : late c { s.processor with
      indexProvider := s.processor.indexProvider + chunk.taken } chunk = false := hlate
  unfold process at hprocess
  rw [if_neg hchunk, hlate', if_neg (by simp)] at hprocess
  obtain ⟨hacc, hpre, hshown⟩ :=
    accounted_accept hid hchunk (accounted_taken h.1 chunk.taken) hprocess
  exact ⟨⟨hacc, hshown⟩, hpre⟩

end Conversation

/-! ## Calls that return -/

theorem buffer_createPatch (c : Config Entry) (p : Processor) (lines : List Text) :
    (createPatch c p lines).1.buffer = p.buffer := by
  unfold createPatch
  cases p.currentEntryIndex <;> rfl

theorem buffer_concludeEntry (c : Config Entry) (p : Processor) (lines : List Text) :
    (concludeEntry c p lines).1.buffer = p.buffer := buffer_createPatch c p lines

section

variable (hprod : Productive c)
include hprod

/-- A boundary predicate whose splits all take a line lets the loop end. -/
theorem exists_boundaryLoop (patches : List (Patch Entry)) (hfuel : p.buffer.lines.length < fuel) :
    ∃ result, boundaryLoop c fuel p patches = some result := by
  induction fuel generalizing p patches with
  | zero => exact absurd hfuel (Nat.not_lt_zero _)
  | succ fuel ih =>
    rw [boundaryLoop]
    split
    · rename_i lineIdx hsplit
      obtain ⟨predicate, hpredicate, hanswer⟩ := Option.bind_eq_some_iff.1 hsplit
      obtain ⟨hpos, hne⟩ := hprod predicate hpredicate _ _ hanswer
      have hdrained : (p.buffer.drainLines lineIdx).2 ≠ [] := by
        intro hnil
        rcases take_eq_nil_iff.1 hnil with hzero | hnone
        · omega
        · exact hne hnone
      simp only [ne_eq, hdrained, not_false_eq_true, if_true]
      apply ih
      have hlt := PlainTextBuffer.length_drainLines_lt hdrained
      rw [buffer_concludeEntry]
      show (p.buffer.drainLines lineIdx).1.lines.length < fuel
      omega
    all_goals exact ⟨_, rfl⟩

theorem exists_cluster (p : Processor) : ∃ result, cluster c p = some result := by
  obtain ⟨⟨p', patches, goOn⟩, hloop⟩ := exists_boundaryLoop hprod [] (Nat.lt_succ_self _)
  unfold cluster
  rw [hloop]
  cases goOn with
  | false => exact ⟨_, rfl⟩
  | true =>
    simp only
    split
    all_goals exact ⟨_, rfl⟩

theorem exists_accept (p : Processor) (chunk : Chunk) :
    ∃ result, accept c p chunk = some result := by
  unfold accept
  simp only
  split
  · exact ⟨_, rfl⟩
  · split
    · exact exists_cluster hprod _
    · split
      · exact ⟨_, rfl⟩
      · exact exists_cluster hprod _

theorem exists_process (p : Processor) (chunk : Chunk) :
    ∃ result, process c p chunk = some result := by
  unfold process
  split
  · exact ⟨_, rfl⟩
  · split
    · simp only
      split
      · exact ⟨_, rfl⟩
      · exact exists_accept hprod _ _
    · exact exists_accept hprod _ _

end

/-! ## The result -/

/-- For every identity configuration and every run without a late chunk: the
    concluded entries and the buffer hold the text received, in order; the current entry holds a
    beginning of the buffer; indices increase; the entries hold all of the text, unless the
    boundary predicate asks for more content; concluded entries stay as they are; and every
    further call returns when the splits of the predicate take lines. -/
theorem processor_loses_nothing (hid : Identity content c) {s₀ s : Conversation Entry}
    (h₀ : s₀.Fresh) (h : Runs (Conversation.step c) (Prompt c) s₀ s) :
    published content s.concluded ++ s.processor.buffer.text = s.received ∧
    (∀ i, s.processor.currentEntryIndex = some i → ∃ rest entry,
      s.entries = rest ++ [(i, entry)] ∧ content entry <+: s.processor.buffer.text) ∧
    (s.entries.Pairwise fun e e' => e.1 < e'.1) ∧
    (published content s.entries = s.received ∨ c.boundary s.processor = some .incompleteContent) ∧
    (∀ s', Runs (Conversation.step c) (Prompt c) s s' → s.concluded <+: s'.concluded) ∧
    (Productive c → ∀ chunk, ∃ s', Conversation.step c s chunk = some s') := by
  have hkept : s.Kept content c := by
    apply h.preserves (P := fun s => s.Kept content c)
    · intro s₁ chunk s₂ hk hp hs
      exact (hk.next hid hp hs).1
    · exact Conversation.Kept.start h₀
  refine ⟨hkept.1.account, hkept.1.current, hkept.1.increasing, hkept.2, ?_, ?_⟩
  · intro s' hrun
    have hboth : s'.Kept content c ∧ s.concluded <+: s'.concluded := by
      apply hrun.preserves (P := fun s' => s'.Kept content c ∧ s.concluded <+: s'.concluded)
      · intro s₁ chunk s₂ hk hp hs
        obtain ⟨hk', hpre⟩ := hk.1.next hid hp hs
        exact ⟨hk', hk.2.trans hpre⟩
      · exact ⟨hkept, prefix_refl _⟩
    exact hboth.2
  · intro hprod chunk
    obtain ⟨result, hresult⟩ := exists_process hprod
      { s.processor with indexProvider := s.processor.indexProvider + chunk.taken } chunk
    refine ⟨⟨result.1, applyPatches s.entries result.2, s.received ++ chunk.text⟩, ?_⟩
    show Option.map _ (process c _ chunk) = _
    rw [hresult]
    rfl

def Conversation.empty : Conversation Text := ⟨⟨.new, 0, 0, none⟩, [], []⟩

/-- A chunk that arrives at `now`, in seconds. -/
def chunkAt (now : ℕ) (text : String) : Chunk := ⟨text.toList, now, now, 0⟩

/-- A configuration whose predicate always asks for more content. -/
def waitingConfig : Config Text :=
  .build id none none none none (some fun _ => some .incompleteContent)

theorem identity_stderrConfig : Identity id (stderrConfig id) := ⟨nofun, nofun, fun _ => rfl⟩

/-- Two chunks of one entry. -/
theorem prompt_chunks_kept :
    ∃ s, Runs (Conversation.step (stderrConfig id)) (Prompt (stderrConfig id))
        Conversation.empty s ∧ s.entries = [(0, "error: no\nsuch".toList)] ∧
      published id s.concluded ++ s.processor.buffer.text = s.received := by
  have hrun : exec (Conversation.step (stderrConfig id)) (Prompt (stderrConfig id))
      Conversation.empty [chunkAt 0 "error: ", chunkAt 1 "no\nsuch"] = some _ := rfl
  have hfresh : Conversation.empty.Fresh := ⟨rfl, rfl, rfl, rfl⟩
  exact ⟨_, runs_of_exec hrun, by decide,
    (processor_loses_nothing identity_stderrConfig hfresh (runs_of_exec hrun)).1⟩

/-- Withheld text is in no entry, although nothing is lost; and in a run with a late chunk that
    chunk is dropped, and the next one replaces what came before. -/
theorem withheld_and_late_text :
    (∃ s, exec (Conversation.step waitingConfig) anyStep Conversation.empty [chunkAt 0 "a"] =
        some s ∧ s.received = "a".toList ∧ s.entries = []) ∧
    ∃ s, exec (Conversation.step (stderrConfig id)) anyStep Conversation.empty
        [chunkAt 0 "a", chunkAt 3 "b", chunkAt 4 "c"] = some s ∧
      s.received = "abc".toList ∧ s.entries = [(0, "c".toList)] :=
  ⟨⟨_, rfl, by decide, by decide⟩, ⟨_, rfl, by decide, by decide⟩⟩

end VibeKanban.Output
