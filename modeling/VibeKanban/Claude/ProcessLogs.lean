import VibeKanban.Cluster.Protocol
import VibeKanban.Delivery.Prompt
import VibeKanban.Lib.Cut

/-!
# The log of Claude (`executors/claude.rs`, lines 1647-1782)

`process_logs` handles each complete line and carries the rest to the next chunk. `serde_json`,
`normalize_entries` and the patch of a system message are parameters. The index provider is shared.

* `processLogs_eq`: the chunks do not matter.
-/

namespace VibeKanban.Claude

open Cluster Delivery Lib List

/-! ## Model -/

/-- `ClaudeJson`, as far as `process_logs` looks at it; `other` are the variants of which
    `extract_session_id` takes none, and `φ` is the rest of the message. -/
inductive ClaudeJson (φ : Type) where
  | assistant (sessionId uuid : Option String) (rest : φ)
  | user (sessionId uuid : Option String) (rest : φ)
  | toolUse (sessionId : Option String) (rest : φ)
  | toolResult (sessionId : Option String) (rest : φ)
  | result (sessionId : Option String) (rest : φ)
  | rateLimitEvent (sessionId : Option String) (rest : φ)
  | toolProgress (sessionId : Option String) (rest : φ)
  | other (rest : φ)

/-- `extract_session_id` (lines 1785-1804). -/
def ClaudeJson.extractSessionId {φ : Type} : ClaudeJson φ → Option String
  | .assistant sessionId _ _ | .user sessionId _ _ | .toolUse sessionId _
  | .toolResult sessionId _ | .result sessionId _ | .rateLimitEvent sessionId _
  | .toolProgress sessionId _ => sessionId
  | .other _ => none

/-- What is called: `normalizeEntries` is given the indices that the provider will hand out, and
    says how many it takes. -/
structure Normalizer (φ σ π : Type) where
  fromStr : Text → Option (ClaudeJson φ)
  normalizeEntries : σ → ClaudeJson φ → (ℕ → ℕ) → σ × List π × ℕ
  systemMessage : ℕ → Text → π

inductive Push (π : Type) where
  | sessionId (id : String)
  | messageId (id : String)
  | patch (patch : π)
  deriving DecidableEq

/-- The variables of the task but the buffer, the indices it has taken, and what it has pushed. -/
structure LogState (σ π : Type) where
  sessionIdExtracted : Bool
  processor : σ
  pendingAssistantUuid : Option String
  taken : ℕ
  pushed : List (Push π)

variable {φ σ π : Type} (n : Normalizer φ σ π) (indices : ℕ → ℕ)

def LogState.push (s : LogState σ π) (pushes : List (Push π)) : LogState σ π :=
  { s with pushed := s.pushed ++ pushes }

/-- Lines 1694-1703. -/
def LogState.extract (s : LogState σ π) (json : ClaudeJson φ) : LogState σ π :=
  if s.sessionIdExtracted then s
  else
    match json.extractSessionId with
    | some id => { s.push [.sessionId id] with sessionIdExtracted := true }
    | none => s

/-- Lines 1705-1725. -/
def LogState.track (s : LogState σ π) : ClaudeJson φ → LogState σ π
  | .user _ uuid _ =>
    { s.push (uuid.toList.map .messageId) with pendingAssistantUuid := none }
  | .assistant _ uuid _ => { s with pendingAssistantUuid := uuid }
  | .result _ _ =>
    { s.push (s.pendingAssistantUuid.toList.map .messageId) with pendingAssistantUuid := none }
  | _ => s

/-- Lines 1727-1760; the call that blocks is the same call. -/
def LogState.normalize (s : LogState σ π) (json : ClaudeJson φ) : LogState σ π :=
  let (processor, patches, k) := n.normalizeEntries s.processor json fun i => indices (s.taken + i)
  { s.push (patches.map .patch) with processor := processor, taken := s.taken + k }

def LogState.report (s : LogState σ π) (text : Text) : LogState σ π :=
  { s.push [.patch (n.systemMessage (indices s.taken) text)] with taken := s.taken + 1 }

/-- `str::trim`. -/
def trimText (text : Text) : Text := trim isWhitespace text

def isRouterMessage (trimmed : Text) : Bool :=
  "Service not running, starting service".toList.isPrefixOf trimmed ||
    decide ("claude code router service has been successfully stopped".toList <:+: trimmed)

/-- The body of the loop over the complete lines. -/
def processLine (s : LogState σ π) (line : Text) : LogState σ π :=
  let trimmed := trimText line
  if trimmed = [] ∨ isRouterMessage trimmed then s
  else
    match n.fromStr trimmed with
    | some json => ((s.extract json).track json).normalize n indices json
    | none => s.report n indices trimmed

/-- The lines of `split_inclusive` that end with a newline. -/
def completeLines (buffer : Text) : List Text :=
  (splitInclusive (· = '\n') buffer).filter fun line => line.getLast? = some '\n'

/-- The first part of `rsplit('\n')`. -/
def partialLine (buffer : Text) : Text := buffer.rtakeWhile (· ≠ '\n')

/-- The loop over the messages, and what remains in the buffer. -/
def processMessages (s : LogState σ π) (buffer : Text) : List LogMsg → LogState σ π × Text
  | [] | .finished :: _ => (s, buffer)
  | .stdout chunk :: msgs =>
    let buffer := buffer ++ chunk.toList
    processMessages ((completeLines buffer).foldl (processLine n indices) s)
      (partialLine buffer) msgs
  | _ :: msgs => processMessages s buffer msgs

/-- Lines 1768-1781. -/
def processRest (s : LogState σ π) (buffer : Text) : LogState σ π :=
  if trimText buffer = [] then s else s.report n indices (trimText buffer)

def processLogs (processor : σ) (msgs : List LogMsg) : List (Push π) :=
  let (s, buffer) := processMessages n indices ⟨false, processor, none, 0, []⟩ [] msgs
  (processRest n indices s buffer).pushed

/-- The stdout up to the end of the stream. -/
def stdoutText : List LogMsg → Text
  | [] | .finished :: _ => []
  | .stdout text :: msgs => text.toList ++ stdoutText msgs
  | _ :: msgs => stdoutText msgs

/-! ## Complete lines -/

variable {text chunk tail : Text} {ls : List Text}

theorem split_buffer (hls : ∀ l ∈ ls, IsLine '\n' l) (htail : '\n' ∉ tail) :
    completeLines (ls.flatten ++ tail) = ls ∧ partialLine (ls.flatten ++ tail) = tail := by
  constructor
  · have hfilter : ls.filter (fun line => line.getLast? = some '\n') = ls := by
      refine filter_eq_self.2 fun l hl => ?_
      obtain ⟨cs, -, rfl⟩ := hls l hl
      simp
    rw [completeLines, splitInclusive_flatten hls, filter_append, hfilter]
    by_cases hne : tail = []
    · simp [hne, splitInclusive]
    · rw [splitInclusive_of_notMem htail hne]
      have hlast : tail.getLast? ≠ some '\n' := fun h => htail (mem_of_getLast? h)
      simp [hlast]
  · unfold partialLine
    induction tail using reverseRecOn with
    | nil =>
      rcases eq_nil_or_concat ls with rfl | ⟨ls, l, rfl⟩
      · rfl
      · obtain ⟨cs, -, rfl⟩ := hls l (by simp)
        rw [append_nil, concat_eq_append, flatten_append, flatten_singleton, ← append_assoc,
          rtakeWhile_concat_neg]
        simp
    | append_singleton tail c ih =>
      rw [mem_append, not_or, mem_singleton] at htail
      rw [← append_assoc, rtakeWhile_concat_pos _ _ _ (by simpa using Ne.symm htail.2), ih htail.1]

theorem split_append (text chunk : Text) : completeLines (text ++ chunk) =
        completeLines text ++ completeLines (partialLine text ++ chunk) ∧
      partialLine (text ++ chunk) = partialLine (partialLine text ++ chunk) := by
  obtain ⟨ls, tail, hls, htail, rfl⟩ := exists_lines '\n' text
  obtain ⟨ls', tail', hls', htail', heq⟩ := exists_lines '\n' (tail ++ chunk)
  obtain ⟨hcomplete, hpartial⟩ := split_buffer hls htail
  obtain ⟨hcomplete', hpartial'⟩ := split_buffer hls' htail'
  rw [hcomplete, hpartial, append_assoc, heq, hcomplete', hpartial', ← append_assoc,
    ← flatten_append]
  exact split_buffer (forall_mem_append.2 ⟨hls, hls'⟩) htail'

/-! ## Runs -/

variable {n indices} {s : LogState σ π}

theorem processMessages_eq (before : Text) (msgs : List LogMsg) :
    processMessages n indices ((completeLines before).foldl (processLine n indices) s)
        (partialLine before) msgs =
      ((completeLines (before ++ stdoutText msgs)).foldl (processLine n indices) s,
        partialLine (before ++ stdoutText msgs)) := by
  induction msgs generalizing before with
  | nil => rw [stdoutText, append_nil]; rfl
  | cons msg msgs ih =>
    cases msg with
    | finished => rw [stdoutText, append_nil]; rfl
    | stdout chunk =>
      obtain ⟨hcomplete, hpartial⟩ := split_append before chunk.toList
      rw [processMessages, stdoutText, ← append_assoc, ← ih, hcomplete, foldl_append, hpartial]
    | _ => exact ih before

theorem processLogs_run (processor : σ) (msgs : List LogMsg) :
    processLogs n indices processor msgs = (processRest n indices
        ((completeLines (stdoutText msgs)).foldl (processLine n indices)
          ⟨false, processor, none, 0, []⟩) (partialLine (stdoutText msgs))).pushed := by
  have hrun : processMessages n indices ⟨false, processor, none, 0, []⟩ [] msgs = _ :=
    processMessages_eq [] msgs
  rw [processLogs, hrun]
  rfl

theorem stdoutText_map (ls : List Text) :
    stdoutText (ls.map fun line => .stdout (.ofList line)) = ls.flatten := by
  induction ls with
  | nil => rfl
  | cons line ls ih => rw [map_cons, stdoutText, ih, String.toList_ofList, flatten_cons]

/-- The chunks and the messages between them do not matter: what is pushed is that for the stdout
    line by line. Each complete line is handled once, in order, and the rest after the last newline
    is reported once, unless it is white space. -/
theorem processLogs_eq (n : Normalizer φ σ π) (indices : ℕ → ℕ) (processor : σ)
    (msgs : List LogMsg) :
    processLogs n indices processor msgs = processLogs n indices processor
        ((splitInclusive (· = '\n') (stdoutText msgs)).map fun line => .stdout (.ofList line)) ∧
    ∃ (ls : List Text) (rest : Text), (∀ line ∈ ls, IsLine '\n' line) ∧ '\n' ∉ rest ∧
      stdoutText msgs = ls.flatten ++ rest ∧
      let s := ls.foldl (processLine n indices) ⟨false, processor, none, 0, []⟩
      processLogs n indices processor msgs = s.pushed ++ if trimText rest = [] then []
        else [.patch (n.systemMessage (indices s.taken) (trimText rest))] := by
  constructor
  · rw [processLogs_run, processLogs_run, stdoutText_map, flatten_splitInclusive]
  · obtain ⟨ls, rest, hls, hrest, heq⟩ := exists_lines '\n' (stdoutText msgs)
    obtain ⟨hcomplete, hpartial⟩ := split_buffer hls hrest
    refine ⟨ls, rest, hls, hrest, heq, ?_⟩
    rw [processLogs_run, heq, hcomplete, hpartial, processRest]
    split_ifs
    · exact (append_nil _).symm
    · rfl

/-- A task for which no line is JSON. -/
def plainNormalizer : Normalizer Unit Unit (ℕ × Text) where
  fromStr _ := none
  normalizeEntries _ _ _ := ((), [], 0)
  systemMessage := Prod.mk

/-- Two blanks after the last newline are not reported. -/
theorem blank_unreported :
    processLogs plainNormalizer id () [.stdout "a\n  "] = [.patch (0, ['a'])] ∧
      partialLine (stdoutText [.stdout "a\n  "]) = [' ', ' '] := by
  decide

end VibeKanban.Claude
