import VibeKanban.Lib.Runs
import VibeKanban.Lib.Lines

/-!
# `PlainTextLogProcessor`

`executors/src/logs/plain_text_processor.rs`. A processor clusters the chunks of a plain-text stream
into entries: it buffers lines, cuts the buffer at message boundaries and at a size threshold, and
streams what remains as an entry that later patches replace. A `String` is the list of its
characters. Other users may take indices between two chunks.
-/

namespace VibeKanban.Output

open Lib

abbrev Text := List Char

/-- `String::len`, in bytes. -/
def Text.len (text : Text) : ℕ := (text.map Char.utf8Size).sum

/-! ## `PlainTextBuffer` -/

/-- `MessageBoundary` (line 32). -/
inductive MessageBoundary where
  | split (line : ℕ)
  | incompleteContent

/-- `PlainTextBuffer` (line 44). -/
structure PlainTextBuffer where
  lines : List Text
  totalLen : ℕ

namespace PlainTextBuffer

def new : PlainTextBuffer := ⟨[], 0⟩

/-- `partial_line` (line 140). -/
def partialLine (b : PlainTextBuffer) : Option Text :=
  match b.lines.getLast? with
  | some last => if last.getLast? = some '\n' then none else some last
  | none => none

/-- `ingest` (line 61). -/
def ingest (b : PlainTextBuffer) (textChunk : Text) : PlainTextBuffer :=
  match b.partialLine with
  | some currentPartial =>
    let combinedText := currentPartial ++ textChunk
    { lines := b.lines.dropLast ++ splitInclusive (· = '\n') combinedText
      totalLen := b.totalLen - Text.len currentPartial + Text.len combinedText }
  | none =>
    { lines := b.lines ++ splitInclusive (· = '\n') textChunk
      totalLen := b.totalLen + Text.len textChunk }

/-- `drain_lines` (line 87). -/
def drainLines (b : PlainTextBuffer) (n : ℕ) : PlainTextBuffer × List Text :=
  let drained := b.lines.take n
  ({ lines := b.lines.drop n
     totalLen := drained.foldl (fun total line => total - Text.len line) b.totalLen }, drained)

/-- The loop of `drain_size` (line 105): how many lines make up the length. -/
def linesToDrain (len : ℕ) : List Text → (drainedLen count : ℕ) → ℕ
  | [], _, count => count
  | line :: lines, drainedLen, count =>
    if len ≤ drainedLen ∧ 0 < count then count
    else linesToDrain len lines (drainedLen + Text.len line) (count + 1)

/-- `drain_size` (line 101). -/
def drainSize (b : PlainTextBuffer) (len : ℕ) : PlainTextBuffer × List Text :=
  b.drainLines (linesToDrain len b.lines 0 0)

/-- `flush` (line 117). -/
def flush (b : PlainTextBuffer) : PlainTextBuffer × List Text := (⟨[], 0⟩, b.lines)

/-- `recompute_len` (line 135). -/
def recomputeLen (b : PlainTextBuffer) : PlainTextBuffer :=
  { b with totalLen := (b.lines.map Text.len).sum }

/-- `is_empty` (line 150). -/
def isEmpty (b : PlainTextBuffer) : Bool := b.totalLen = 0

end PlainTextBuffer

/-! ## `PlainTextLogProcessor` -/

variable {Entry : Type*}

/-- The parameters of a processor (line 176). -/
structure Config (Entry : Type*) where
  entrySizeThreshold : Option ℕ
  timeGap : Option ℕ
  formatChunk : Option (Option Text → Text → Text)
  transformLines : Option (List Text → List Text)
  messageBoundaryPredicate : Option (List Text → Option MessageBoundary)
  normalizedEntryProducer : Text → Entry

/-- The builder (line 330): a default threshold of 8 KiB when nothing else cuts the text. -/
def Config.build (normalizedEntryProducer : Text → Entry) (sizeThreshold timeGap : Option ℕ)
    (formatChunk : Option (Option Text → Text → Text))
    (transformLines : Option (List Text → List Text))
    (messageBoundaryPredicate : Option (List Text → Option MessageBoundary)) : Config Entry :=
  { entrySizeThreshold :=
      if sizeThreshold.isNone && timeGap.isNone then some (8 * 1024) else sizeThreshold
    timeGap := timeGap
    formatChunk := formatChunk
    transformLines := transformLines
    messageBoundaryPredicate := messageBoundaryPredicate
    normalizedEntryProducer := normalizedEntryProducer }

/-- A patch of one operation on `/entries/{index}`. -/
inductive Patch (Entry : Type*) where
  | add (index : ℕ) (entry : Entry)
  | replace (index : ℕ) (entry : Entry)

/-- The mutable fields; `indexProvider` is the next index that the provider gives out. -/
structure Processor where
  buffer : PlainTextBuffer
  indexProvider : ℕ
  lastChunkArrivalTime : ℕ
  currentEntryIndex : Option ℕ

/-- A call of `process`: the text, the clock readings of line 204 and line 214, and how many
    indices other users of the provider have taken since the last call. -/
structure Chunk where
  text : Text
  elapsedAt : ℕ
  arrivedAt : ℕ
  taken : ℕ

/-- `create_patch` (line 285). -/
def createPatch (c : Config Entry) (p : Processor) (lines : List Text) : Processor × Patch Entry :=
  let entry := c.normalizedEntryProducer lines.flatten
  match p.currentEntryIndex with
  | some index => (p, .replace index entry)
  | none =>
    ({ p with indexProvider := p.indexProvider + 1, currentEntryIndex := some p.indexProvider },
      .add p.indexProvider entry)

/-- `create_patch`, followed by the move to the next entry. -/
def concludeEntry (c : Config Entry) (p : Processor) (lines : List Text) :
    Processor × Patch Entry :=
  let (p, patch) := createPatch c p lines
  ({ p with currentEntryIndex := none }, patch)

/-- The loop over message boundaries (lines 239-263). It is told whether to go on with the size
    threshold. A split that drains no line leaves everything as it was, so that the loop does not
    end; the fuel then runs out. -/
def boundaryLoop (c : Config Entry) : ℕ → Processor → List (Patch Entry) →
    Option (Processor × List (Patch Entry) × Bool)
  | 0, _, _ => none
  | fuel + 1, p, patches =>
    match c.messageBoundaryPredicate.bind fun predicate => predicate p.buffer.lines with
    | some (.split lineIdx) =>
      let (buffer, lines) := p.buffer.drainLines lineIdx
      if lines ≠ [] then
        let (p, patch) := concludeEntry c { p with buffer := buffer } lines
        boundaryLoop c fuel p (patches ++ [patch])
      else boundaryLoop c fuel { p with buffer := buffer } patches
    | some .incompleteContent => some (p, patches, false)
    | none => some (p, patches, true)

/-- The loop over the size threshold (lines 268-276); every round drains a line. -/
def sizeLoop (c : Config Entry) (sizeThreshold : ℕ) : ℕ → Processor → List (Patch Entry) →
    Processor × List (Patch Entry)
  | 0, p, patches => (p, patches)
  | fuel + 1, p, patches =>
    if sizeThreshold ≤ p.buffer.totalLen then
      let (buffer, lines) := p.buffer.drainSize sizeThreshold
      if lines = [] then ({ p with buffer := buffer }, patches)
      else
        let (p, patch) := concludeEntry c { p with buffer := buffer } lines
        sizeLoop c sizeThreshold fuel p (patches ++ [patch])
    else (p, patches)

/-- The size threshold, where there is one (lines 266-277). -/
def cutBySize (c : Config Entry) (p : Processor) (patches : List (Patch Entry)) :
    Processor × List (Patch Entry) :=
  match c.entrySizeThreshold with
  | some sizeThreshold => sizeLoop c sizeThreshold p.buffer.lines.length p patches
  | none => (p, patches)

/-- Lines 236-282. -/
def cluster (c : Config Entry) (p : Processor) : Option (Processor × List (Patch Entry)) :=
  match boundaryLoop c (p.buffer.lines.length + 1) p [] with
  | none => none
  | some (p, patches, false) => some (p, patches)
  | some (p, patches, true) =>
    let (p, patches) := cutBySize c p patches
    if p.buffer.isEmpty then some (p, patches)
    else
      let (p, patch) := createPatch c p p.buffer.lines
      some (p, patches ++ [patch])

/-- The optional formatting of a chunk (lines 216-220). -/
def Config.formatted (c : Config Entry) (partialLine : Option Text) (textChunk : Text) : Text :=
  match c.formatChunk with
  | some formatChunk => formatChunk partialLine textChunk
  | none => textChunk

/-- Lines 214-282. -/
def accept (c : Config Entry) (p : Processor) (chunk : Chunk) :
    Option (Processor × List (Patch Entry)) :=
  let p := { p with lastChunkArrivalTime := chunk.arrivedAt }
  let formattedChunk := c.formatted p.buffer.partialLine chunk.text
  if formattedChunk = [] then some (p, [])
  else
    let p := { p with buffer := p.buffer.ingest formattedChunk }
    match c.transformLines with
    | none => cluster c p
    | some transformLines =>
      let buffer := { p.buffer with lines := transformLines p.buffer.lines }.recomputeLen
      let p := { p with buffer := buffer }
      if buffer.isEmpty then some (p, []) else cluster c p

/-- The condition of the time gap (lines 199-205). -/
def late (c : Config Entry) (p : Processor) (chunk : Chunk) : Bool :=
  !p.buffer.isEmpty &&
    c.timeGap.any fun timeGap => timeGap ≤ chunk.elapsedAt - p.lastChunkArrivalTime

/-- `process` (line 194). -/
def process (c : Config Entry) (p : Processor) (chunk : Chunk) :
    Option (Processor × List (Patch Entry)) :=
  if chunk.text = [] then some (p, [])
  else if late c p chunk then
    let (buffer, lines) := p.buffer.flush
    if lines ≠ [] then
      let (p, patch) := createPatch c { p with buffer := buffer } lines
      some (p, [patch])
    else accept c { p with buffer := buffer, currentEntryIndex := none } chunk
  else accept c p chunk

/-- The configuration of `normalize_stderr_logs` (`stderr_processor.rs`, line 47), with the
    removal of ANSI escapes as a parameter; its clock counts seconds. -/
def stderrConfig (stripStr : Text → Text) : Config Text :=
  .build stripStr none (some 2) none none none

/-! ## Applying the patches -/

/-- The entries of one processor, in the order of their addition, with their indices. -/
abbrev Entries (Entry : Type*) := List (ℕ × Entry)

def applyPatch (entries : Entries Entry) : Patch Entry → Entries Entry
  | .add index entry => entries ++ [(index, entry)]
  | .replace index entry => entries.map fun e => if e.1 = index then (index, entry) else e

def applyPatches (entries : Entries Entry) (patches : List (Patch Entry)) : Entries Entry :=
  patches.foldl applyPatch entries

/-- A processor with the entries that its patches have built and the text that it was given. -/
structure Conversation (Entry : Type*) where
  processor : Processor
  entries : Entries Entry
  received : Text

def Conversation.step (c : Config Entry) (s : Conversation Entry) (chunk : Chunk) :
    Option (Conversation Entry) :=
  let p := { s.processor with indexProvider := s.processor.indexProvider + chunk.taken }
  (process c p chunk).map fun (p, patches) =>
    ⟨p, applyPatches s.entries patches, s.received ++ chunk.text⟩

/-- A processor just built, whose provider stands at any index. -/
def Conversation.Fresh (s : Conversation Entry) : Prop :=
  s.processor.buffer = .new ∧ s.processor.currentEntryIndex = none ∧ s.entries = [] ∧
    s.received = []

end VibeKanban.Output
