import VibeKanban.Delivery.Prompt
import VibeKanban.Lib.Cut
import VibeKanban.Lib.Json
import VibeKanban.Lib.Runs
import VibeKanban.Lib.Utf8

/-!
# The control protocol of Claude (`executors/claude/protocol.rs`, lines 64-259)

One biased `select!` waits for the cancel token, for two deadlines and for `read_line`; the branches
that lose are dropped, and `read_line` with the bytes it has read. A step is one poll, the end of an
`await`, or a step of the environment. `written`, `lines` and `handled` are not in the source.

* `read_loop_whole`: lines are handled whole, once and in order, in runs that are on time.
-/

namespace VibeKanban.Claude

open Delivery Lib List Option

/-! ## Messages -/

inductive ControlRequestType where
  | canUseTool
  | hookCallback
  deriving DecidableEq

/-- `CLIMessage`, as far as the loop looks at it. -/
inductive CliMessage where
  | controlRequest (requestId : String) (request : ControlRequestType)
  | controlResponse
  | controlCancelRequest
  | result (value : JsonValue)
  | other (value : JsonValue)

/-- `ControlResponseType`. -/
inductive ControlResponse where
  | success (requestId : String) (response : JsonValue)
  | error (requestId error : String)

def ControlResponse.requestId : ControlResponse → String
  | .success requestId _ => requestId
  | .error requestId _ => requestId

/-- What the client answers to a request; `cancelled` is `ExecutorApprovalError::Cancelled`. -/
inductive Answer where
  | ok (value : JsonValue)
  | cancelled (error : String)
  | error (error : String)

/-- The response of `handle_control_request` (lines 209-259). -/
def respond (requestId : String) : ControlRequestType → Answer → Option ControlResponse
  | _, .ok value => some (.success requestId value)
  | .canUseTool, .cancelled _ => none
  | .hookCallback, .cancelled error => some (.error requestId error)
  | _, .error error => some (.error requestId error)

def asBool : JsonValue → Option Bool
  | .bool b => some b
  | _ => none

/-- A successful result with no turns (lines 150-156). -/
def isZeroTurn : Option CliMessage → Bool
  | some (.result value) =>
    (match value.get "num_turns" with
      | some (.number text) => text = "0"
      | _ => false) && !((value.get "is_error").bind asBool).getD false
  | _ => false

/-- Resume history (lines 183-185). -/
def isReplayed (value : JsonValue) : Bool :=
  ["isReplay", "isSynthetic"].any fun k => ((value.get k).bind asBool).getD false

/-- A message that shows that the turn runs (lines 165-193). -/
def isActivity : Option CliMessage → Bool
  | some (.controlRequest _ _) => true
  | some (.other value) => !isReplayed value && match (value.get "type").bind JsonValue.asStr with
    | some type => type = "assistant" || type = "stream_event" || type = "user"
    | none => false
  | _ => false

/-! ## The loop -/

/-- Why the loop ended. -/
inductive Outcome where
  | eof
  | readError
  | grace
  | spurious
  /-- the log or the response could not be written -/
  | failed
  deriving DecidableEq

/-- What the loop awaits. -/
inductive Phase where
  | select
  | interrupting
  | logging
  | answering (requestId : String) (request : ControlRequestType)
  | ended (outcome : Outcome)
  deriving DecidableEq

/-- A line that was handed on, with its responses. -/
structure Handled where
  text : Text
  message : Option CliMessage
  /-- a zero-turn result that is ignored -/
  ignored : Bool
  responses : List ControlResponse
  cancelled : Bool

/-- `POST_RESULT_GRACE`, in nanoseconds. -/
def postResultGrace : ℕ := 500 * 1000000

/-- `SPURIOUS_RESULT_FALLBACK`, in nanoseconds. -/
def spuriousResultFallback : ℕ := 30 * 1000000000

def newline : UInt8 := 10

/-- The lines of a stream, with their newlines. -/
def splitLines (bytes : List UInt8) : List (List UInt8) := splitInclusive (· = newline) bytes

/-- The CLI's stdout, the variables of `read_loop` and what it has done. -/
structure Loop where
  now : ℕ
  written : List UInt8
  pipe : List UInt8
  closed : Bool
  cancelled : Bool
  /-- read by the `read_line` that is pending -/
  part : List UInt8
  interruptSent : Bool
  graceDeadline : Option ℕ
  spuriousFallback : Option ℕ
  phase : Phase
  lines : List (List UInt8)
  handled : List Handled

inductive Action where
  | tick (d : ℕ)
  | write (bytes : List UInt8)
  | close
  | cancel
  /-- a poll that sees `n` bytes of the pipe at most; a deadline that has passed may have `fired` -/
  | poll (fired : Bool) (n : ℕ)
  /-- a poll that finds the pipe broken -/
  | readFails
  | interrupted
  | logged (ok : Bool)
  | answered (answer : Answer) (ok : Bool)

/-- `String::from_utf8`. -/
def fromUtf8 (bytes : List UInt8) : Option Text :=
  if Utf8.encode (Utf8.lossy bytes) = bytes then some (Utf8.lossy bytes) else none

/-- The line as the loop sees it, if it is not blank (lines 113-117). -/
def trimmed (line : List UInt8) : Option Text := (fromUtf8 line).map (trim isWhitespace)

namespace Loop

variable (parse : Text → Option CliMessage)

/-- A line that is read to its end (lines 113-162). -/
def receive (s : Loop) (line rest : List UInt8) : Loop :=
  match trimmed line with
  | none => { s with part := line, pipe := rest, phase := .ended .readError }
  | some text =>
    let s := { s with part := [], pipe := rest, lines := s.lines ++ [line] }
    if text = [] then s
    else
      let s := { s with graceDeadline := s.graceDeadline.map fun _ => s.now + postResultGrace }
      let message := parse text
      let ignored := !s.interruptSent && isZeroTurn message
      let s := { s with handled := s.handled ++ [Handled.mk text message ignored [] false] }
      if ignored then
        { s with
          spuriousFallback := s.spuriousFallback <|> some (s.now + spuriousResultFallback) }
      else { s with phase := .logging }

/-- A poll of `read_line`. -/
def readLine (s : Loop) (n : ℕ) : Loop :=
  match splitFirst newline (s.pipe.take n) with
  | some (l, rest) => s.receive parse (s.part ++ l) (rest ++ s.pipe.drop n)
  | none =>
    let s := { s with part := s.part ++ s.pipe.take n, pipe := s.pipe.drop n }
    if s.closed ∧ s.pipe = [] then
      if s.part = [] then { s with phase := .ended .eof } else s.receive parse s.part []
    else s

/-- The cancel branch is enabled and ready (line 97). -/
def seesCancel (s : Loop) : Bool := s.cancelled && !s.interruptSent && s.graceDeadline.isNone

/-- The deadline that the `select!` waits for. -/
def deadline (s : Loop) : Option ℕ :=
  match s.graceDeadline with
  | some d => some d
  | none => s.spuriousFallback

/-- A deadline has passed. -/
def expired (s : Loop) : Bool := s.deadline.any fun d => d ≤ s.now

/-- A poll of the `select!`, in the order of its branches (lines 92-112). -/
def poll (s : Loop) (fired : Bool) (n : ℕ) : Loop :=
  if s.seesCancel then { s with interruptSent := true, part := [], phase := .interrupting }
  else if fired ∧ s.expired then
    { s with phase := .ended (if s.graceDeadline.isSome then .grace else .spurious) }
  else s.readLine parse n

/-- The last line that was handed on. -/
def current (s : Loop) : Option CliMessage := s.handled.getLast?.bind Handled.message

/-- After the line is logged (lines 164-198). -/
def dispatch (s : Loop) : Loop :=
  match s.current with
  | some (.controlRequest requestId request) =>
    { s with spuriousFallback := none, phase := .answering requestId request }
  | some (.result _) =>
    { s with
      spuriousFallback := none
      graceDeadline := s.graceDeadline <|> some (s.now + postResultGrace)
      phase := .select }
  | message =>
    { s with
      spuriousFallback := if isActivity message then none else s.spuriousFallback
      phase := .select }

/-- Records what became of the last line. -/
def setLast (handled : List Handled) (f : Handled → Handled) : List Handled :=
  match handled.getLast? with
  | some x => handled.dropLast ++ [f x]
  | none => []

/-- After the client has answered and the response is written, or not. -/
def answer (s : Loop) (requestId : String) (request : ControlRequestType) (answer : Answer)
    (ok : Bool) : Loop :=
  match respond requestId request answer with
  | none =>
    { s with
      handled := setLast s.handled fun x => { x with cancelled := true }
      phase := .select }
  | some response =>
    if ok then
      { s with
        handled := setLast s.handled fun x => { x with responses := x.responses ++ [response] }
        phase := .select }
    else { s with phase := .ended .failed }

def step (s : Loop) : Action → Option Loop
  | .tick d => some { s with now := s.now + d }
  | .write bytes =>
    if s.closed then none
    else some { s with written := s.written ++ bytes, pipe := s.pipe ++ bytes }
  | .close => some { s with closed := true }
  | .cancel => some { s with cancelled := true }
  | .poll fired n => if s.phase = .select then some (s.poll parse fired n) else none
  | .readFails =>
    if s.phase = .select ∧ s.seesCancel = false then some { s with phase := .ended .readError }
    else none
  | .interrupted => if s.phase = .interrupting then some { s with phase := .select } else none
  | .logged ok =>
    if s.phase = .logging then some (if ok then s.dispatch else { s with phase := .ended .failed })
    else none
  | .answered answer ok =>
    match s.phase with
    | .answering requestId request => some (s.answer requestId request answer ok)
    | _ => none

/-- The loop before its first poll. -/
structure Initial (s : Loop) : Prop where
  written : s.written = []
  pipe : s.pipe = []
  part : s.part = []
  graceDeadline : s.graceDeadline = none
  spuriousFallback : s.spuriousFallback = none
  phase : s.phase = .select
  lines : s.lines = []
  handled : s.handled = []

/-! ## What the loop keeps -/

/-- The text that a line hands on. -/
def nonBlank (line : List UInt8) : Option Text := (trimmed line).filter fun text => text ≠ []

/-- A control request has one response, under its ID, unless its approval was cancelled; other
    lines have none. -/
def Answered (x : Handled) : Prop :=
  match x.message with
  | some (.controlRequest requestId _) =>
    x.cancelled = true ∧ x.responses = [] ∨ ∃ r, x.responses = [r] ∧ r.requestId = requestId
  | _ => x.responses = []

/-- The line was not answered yet. -/
def Fresh (x : Handled) : Prop := x.responses = [] ∧ x.cancelled = false

/-- What the phase says of the last line. -/
def LastOk (phase : Phase) (x : Handled) : Prop :=
  match phase with
  | .logging => Fresh x ∧ x.ignored = false
  | .answering requestId request => Fresh x ∧ x.message = some (.controlRequest requestId request)
  | .ended .failed => Fresh x
  | _ => Answered x

/-- The lines that were read are complete, but for one at the end of the stream. -/
def LinesOk (s : Loop) : Prop :=
  (∀ l ∈ s.lines, IsLine newline l) ∨ s.closed = true ∧ s.part = [] ∧ s.pipe = [] ∧
    ∃ ls l, s.lines = ls ++ [l] ∧ (∀ l' ∈ ls, IsLine newline l') ∧ newline ∉ l ∧ l ≠ []

/-- The last line was not logged yet. -/
def Unlogged (s : Loop) : Prop := s.phase = .logging ∨ s.phase = .ended .failed

/-- A zero-turn result was ignored, and no activity was logged since. -/
def Quiet (s : Loop) : Prop :=
  ∃ before x after, s.handled = before ++ x :: after ∧ x.ignored = true ∧
    ∀ y ∈ x :: after, isActivity y.message = true → s.Unlogged ∧ s.current = y.message

/-- What holds of the lines that were handed on. -/
structure HandledOk (s : Loop) : Prop where
  texts : s.handled.map Handled.text = s.lines.filterMap nonBlank
  parsed : ∀ x ∈ s.handled, x.message = parse x.text
  answered : ∀ x ∈ s.handled.dropLast, Answered x
  last : ∀ x ∈ s.handled.getLast?, LastOk s.phase x
  quiet : s.spuriousFallback.isSome → Quiet s

/-- What a run keeps, in which the token does not fire in the middle of a line. -/
structure Consistent (s : Loop) : Prop extends HandledOk parse s where
  bytes : s.lines.flatten ++ (s.part ++ s.pipe) = s.written
  lines : LinesOk s
  part : s.phase ≠ .ended .readError → newline ∉ s.part

/-- No deadline has passed while a complete line is unread. -/
def Timely (s : Loop) : Prop := s.phase = .select → newline ∈ s.pipe → ∀ d ∈ s.deadline, s.now < d

/-- The token does not fire in the middle of a line. -/
def Uncut (s : Loop) : Action → Prop
  | .poll _ _ => s.seesCancel = true → s.part = []
  | _ => True

/-- The deadline that `dispatch` leaves, unless it sets one. -/
def keptDeadline (s : Loop) : Option ℕ :=
  match s.current with
  | some (.controlRequest _ _) => none
  | some (.result _) => s.graceDeadline
  | message => if isActivity message then s.graceDeadline else s.deadline

/-- The loop gets to a complete line before its deadline. -/
def Prompt (s : Loop) : Action → Prop
  | .tick d => s.phase = .select → newline ∈ s.pipe → ∀ t ∈ s.deadline, s.now + d < t
  | .write bytes => s.phase = .select → newline ∈ bytes → ∀ t ∈ s.deadline, s.now < t
  | .interrupted => newline ∈ s.pipe → ∀ t ∈ s.deadline, s.now < t
  | .logged _ => newline ∈ s.pipe → ∀ t ∈ s.keptDeadline, s.now < t
  | .answered _ _ => newline ∈ s.pipe → ∀ t ∈ s.deadline, s.now < t
  | _ => True

/-- The condition under which no line is lost. -/
def OnTime (s : Loop) (a : Action) : Prop := Uncut s a ∧ Prompt s a

/-- Nothing is awaited for the last line, and nothing failed for it. -/
def Settled : Phase → Prop
  | .logging | .answering _ _ | .ended .failed => False
  | _ => True

section Consistent

variable {parse} {s s' : Loop} {a : Action} {line rest : List UInt8}

theorem nonBlank_of_ne {text : Text} (h : trimmed line = some text) (hne : text ≠ []) :
    nonBlank line = some text := by
  unfold nonBlank
  rw [h]
  exact filter_some_pos (decide_eq_true hne)

theorem nonBlank_blank (h : trimmed line = some []) : nonBlank line = none := by
  unfold nonBlank
  rw [h]
  exact filter_some_neg (by simp)

theorem LinesOk.all (h : LinesOk s) (hne : s.part ++ s.pipe ≠ []) :
    ∀ l ∈ s.lines, IsLine newline l := by
  rcases h with hall | ⟨-, hpart, hpipe, -⟩
  · exact hall
  · rw [hpart, hpipe] at hne
    exact absurd rfl hne

theorem LinesOk.moved (h : LinesOk s) (hlines : s'.lines = s.lines) (hclosed : s'.closed = s.closed)
    (hbytes : s'.part ++ s'.pipe = s.part ++ s.pipe) : LinesOk s' := by
  rcases h with hall | ⟨hclosed', hpart, hpipe, hlast⟩
  · left
    rw [hlines]
    exact hall
  · rw [hpart, hpipe] at hbytes
    obtain ⟨hpart', hpipe'⟩ := append_eq_nil_iff.1 hbytes
    refine .inr ⟨hclosed.trans hclosed', hpart', hpipe', ?_⟩
    rw [hlines]
    exact hlast

variable {x : Handled}

theorem LastOk.answered {phase : Phase} (h : LastOk phase x)
    (hsettled : Settled phase) : Answered x := by
  unfold LastOk at h
  split at h
  · exact absurd hsettled id
  · exact absurd hsettled id
  · exact absurd hsettled id
  · exact h

/-- All lines are answered when nothing is awaited. -/
theorem HandledOk.all (h : s.HandledOk parse) (hsettled : Settled s.phase) :
    ∀ x ∈ s.handled, Answered x := by
  intro x hx
  have hne := ne_nil_of_mem hx
  rw [← dropLast_append_getLast hne] at hx
  rcases mem_append.1 hx with hx | hx
  · exact h.answered x hx
  · obtain rfl := mem_singleton.1 hx
    exact (h.last _ (getLast?_eq_some_getLast hne)).answered hsettled

theorem settled_select (hphase : s.phase = .select) : Settled s.phase := by
  rw [hphase]
  trivial

theorem Quiet.of_logged (h : Quiet s) (hphase : ¬ s.Unlogged) (hhandled : s'.handled = s.handled) :
    Quiet s' := by
  obtain ⟨before, x, after, heq, hignored, hafter⟩ := h
  refine ⟨before, x, after, hhandled.trans heq, hignored, fun y hy hactive => ?_⟩
  exact absurd (hafter y hy hactive).1 hphase

theorem not_unlogged (hphase : s.phase = .select) : ¬ s.Unlogged := by
  unfold Unlogged
  rw [hphase]
  exact fun h => h.elim nofun nofun

theorem Quiet.concat (h : Quiet s) (hphase : s.phase = .select)
    (hhandled : s'.handled = s.handled ++ [x])
    (hx : isActivity x.message = true → s'.phase = .logging) : Quiet s' := by
  obtain ⟨before, y, after, heq, hignored, hafter⟩ := h
  refine ⟨before, y, after ++ [x], ?_, hignored, fun z hz hactive => ?_⟩
  · rw [hhandled, heq]
    simp
  · rw [← cons_append] at hz
    rcases mem_append.1 hz with hz | hz
    · exact absurd (hafter z hz hactive).1 (not_unlogged hphase)
    · obtain rfl := mem_singleton.1 hz
      refine ⟨.inl (hx hactive), ?_⟩
      unfold current
      rw [hhandled, getLast?_concat]
      rfl

section

variable (h : s.HandledOk parse) (hphase : s.phase = .select)
include h hphase

theorem HandledOk.of_select (hhandled : s'.handled = s.handled)
    (htexts : s'.lines.filterMap nonBlank = s.lines.filterMap nonBlank)
    (hlast : ∀ x, Answered x → LastOk s'.phase x)
    (hfallback : s'.spuriousFallback.isSome → s.spuriousFallback.isSome) : s'.HandledOk parse := by
  refine ⟨?_, ?_, ?_, ?_, ?_⟩
  · rw [hhandled, htexts]
    exact h.texts
  · rw [hhandled]
    exact h.parsed
  · rw [hhandled]
    exact h.answered
  · intro x hx
    rw [hhandled] at hx
    exact hlast x (h.all (settled_select hphase) x (mem_of_getLast? hx))
  · intro hsome
    exact (h.quiet (hfallback hsome)).of_logged (not_unlogged hphase) hhandled

theorem HandledOk.concat (hhandled : s'.handled = s.handled ++ [x])
    (hlines : s'.lines = s.lines ++ [line])
    (htext : nonBlank line = some x.text) (hparsed : x.message = parse x.text)
    (hlast : LastOk s'.phase x) (hquiet : s'.spuriousFallback.isSome → Quiet s') :
    s'.HandledOk parse := by
  refine ⟨?_, ?_, ?_, ?_, hquiet⟩
  · rw [hhandled, hlines, map_append, filterMap_append, h.texts]
    simp [htext]
  · intro y hy
    rw [hhandled] at hy
    rcases mem_append.1 hy with hy | hy
    · exact h.parsed y hy
    · obtain rfl := mem_singleton.1 hy
      exact hparsed
  · rw [hhandled, dropLast_concat]
    exact h.all (settled_select hphase)
  · intro y hy
    rw [hhandled, getLast?_concat] at hy
    cases hy
    exact hlast

end

/-- What a received line is: complete, or the last bytes of the stream. -/
def Received (s : Loop) (line rest : List UInt8) : Prop :=
  (∀ l ∈ s.lines, IsLine newline l) ∧
    (IsLine newline line ∨ s.closed = true ∧ rest = [] ∧ newline ∉ line ∧ line ≠ [])

theorem LinesOk.receive (h : Received s line rest) (hlines : s'.lines = s.lines ++ [line])
    (hclosed : s'.closed = s.closed) (hpart : s'.part = []) (hpipe : s'.pipe = rest) :
    LinesOk s' := by
  obtain ⟨hall, hline | ⟨hclosed', hrest, hno, hne⟩⟩ := h
  · left
    intro l hl
    rw [hlines] at hl
    rcases mem_append.1 hl with hl | hl
    · exact hall l hl
    · obtain rfl := mem_singleton.1 hl
      exact hline
  · exact .inr ⟨hclosed.trans hclosed', hpart, hpipe.trans hrest, s.lines, line, hlines, hall, hno,
      hne⟩

theorem isZeroTurn_result {message : Option CliMessage} (h : isZeroTurn message = true) :
    ∃ value, message = some (.result value) := by
  unfold isZeroTurn at h
  split at h
  · exact ⟨_, rfl⟩
  · cases h

theorem receive_consistent (h : s.HandledOk parse) (hphase : s.phase = .select)
    (hreceived : Received s line rest) (hbytes : s.lines.flatten ++ (line ++ rest) = s.written) :
    (s.receive parse line rest).Consistent parse := by
  have hmoved : (s.lines ++ [line]).flatten ++ ([] ++ rest) = s.written := by
    rw [flatten_append, ← hbytes]
    simp
  unfold receive
  split
  · refine ⟨h.of_select hphase rfl rfl (fun _ hx => hx) fun hsome => hsome, hbytes,
      .inl hreceived.1, fun hne => absurd rfl hne⟩
  · rename_i htrim
    dsimp only
    split_ifs with hblank hignored
    · refine ⟨h.of_select hphase rfl ?_ (fun _ hx => ?_) fun hsome => hsome, hmoved,
        .receive hreceived rfl rfl rfl rfl, fun _ => not_mem_nil⟩
      · rw [hblank] at htrim
        rw [filterMap_append, filterMap_cons_none (nonBlank_blank htrim), filterMap_nil, append_nil]
      · show LastOk s.phase _
        rw [hphase]
        exact hx
    · refine ⟨h.concat hphase rfl rfl (nonBlank_of_ne htrim hblank) rfl ?_ fun _ => ?_, hmoved,
        .receive hreceived rfl rfl rfl rfl, fun _ => not_mem_nil⟩
      · obtain ⟨value, hvalue⟩ := isZeroTurn_result (Bool.and_eq_true_iff.1 hignored).2
        show LastOk s.phase _
        rw [hphase]
        show Answered _
        unfold Answered
        rw [hvalue]
      · obtain ⟨value, hvalue⟩ := isZeroTurn_result (Bool.and_eq_true_iff.1 hignored).2
        cases hfallback : s.spuriousFallback with
        | none =>
          refine ⟨s.handled, _, [], rfl, hignored, fun y hy hactive => ?_⟩
          obtain rfl := mem_singleton.1 hy
          rw [hvalue] at hactive
          cases hactive
        | some d =>
          refine (h.quiet (by rw [hfallback]; rfl)).concat hphase rfl fun hactive => ?_
          rw [hvalue] at hactive
          cases hactive
    · refine ⟨h.concat hphase rfl rfl (nonBlank_of_ne htrim hblank) rfl ?_ fun hsome => ?_, hmoved,
        .receive hreceived rfl rfl rfl rfl, fun _ => not_mem_nil⟩
      · exact ⟨⟨rfl, rfl⟩, Bool.eq_false_iff.2 hignored⟩
      · exact (h.quiet hsome).concat hphase rfl fun _ => rfl

theorem readLine_consistent (h : s.Consistent parse) (hphase : s.phase = .select) (n : ℕ) :
    (s.readLine parse n).Consistent parse := by
  have hpart : newline ∉ s.part := h.part (by rw [hphase]; exact nofun)
  have htake : s.pipe.take n ++ s.pipe.drop n = s.pipe := take_append_drop n s.pipe
  unfold readLine
  split
  · rename_i l rest hsplit
    obtain ⟨hline, heq⟩ := splitFirst_some hsplit
    have hpipe : s.pipe = l ++ (rest ++ s.pipe.drop n) := by rw [← append_assoc, ← heq, htake]
    apply receive_consistent h.toHandledOk hphase
    · refine ⟨h.lines.all ?_, .inl (hline.append hpart)⟩
      intro hnil
      have hmem := hline.sep_mem
      rw [hpipe] at hnil
      simp at hnil
      rw [hnil.2.1] at hmem
      cases hmem
    · rw [append_assoc s.part, ← hpipe]
      exact h.bytes
  · rename_i hsplit
    have hno : newline ∉ s.part ++ s.pipe.take n := by
      rw [mem_append, not_or]
      exact ⟨hpart, splitFirst_none hsplit⟩
    have hmoved : (s.part ++ s.pipe.take n) ++ s.pipe.drop n = s.part ++ s.pipe := by
      rw [append_assoc, htake]
    have hbytes : s.lines.flatten ++ ((s.part ++ s.pipe.take n) ++ s.pipe.drop n) = s.written := by
      rw [hmoved]
      exact h.bytes
    dsimp only
    split_ifs with heof hnil
    · exact ⟨h.toHandledOk.of_select hphase rfl rfl (fun _ hx => hx) fun hsome => hsome, hbytes,
        h.lines.moved rfl rfl hmoved, fun _ => hno⟩
    · refine receive_consistent (h.toHandledOk.of_select hphase rfl rfl ?_ fun hsome => hsome)
        hphase ⟨h.lines.all ?_, .inr ⟨heof.1, rfl, hno, hnil⟩⟩ ?_
      · intro x hx
        show LastOk s.phase x
        rw [hphase]
        exact hx
      · intro hempty
        rw [hempty] at hmoved
        exact hnil (append_eq_nil_iff.1 hmoved).1
      · have hdrop : s.pipe.drop n = [] := heof.2
        rw [hdrop] at hbytes
        exact hbytes
    · refine ⟨h.toHandledOk.of_select hphase rfl rfl ?_ fun hsome => hsome, hbytes,
        h.lines.moved rfl rfl hmoved, fun _ => hno⟩
      intro x hx
      show LastOk s.phase x
      rw [hphase]
      exact hx

theorem ended_consistent {outcome : Outcome} (h : s.Consistent parse) (hphase : s.phase = .select)
    (hlast : ∀ x, Answered x → LastOk (.ended outcome) x) :
    ({ s with phase := .ended outcome } : Loop).Consistent parse :=
  ⟨h.toHandledOk.of_select hphase rfl rfl hlast fun hsome => hsome, h.bytes, h.lines,
    fun _ => h.part (by rw [hphase]; exact nofun)⟩

variable {n : ℕ} {fired : Bool} {f : Handled → Handled}

theorem poll_consistent (h : s.Consistent parse) (hphase : s.phase = .select)
    (huncut : s.seesCancel = true → s.part = []) : (s.poll parse fired n).Consistent parse := by
  unfold poll
  split_ifs with hcancel
  · have hpart := huncut hcancel
    refine ⟨h.toHandledOk.of_select hphase rfl rfl (fun _ hx => hx) fun hsome => hsome, ?_,
      h.lines.moved rfl rfl ?_, fun _ => not_mem_nil⟩
    · rw [← h.bytes, hpart]
    · rw [hpart]
  · exact ended_consistent h hphase fun _ hx => hx
  · exact ended_consistent h hphase fun _ hx => hx
  · exact readLine_consistent h hphase n

/-- The end of an `await`: the lines stay, and no bytes are read. -/
theorem Consistent.resume (h : s.Consistent parse) (hphase : s.phase ≠ .ended .readError)
    (hhandled : s'.handled = s.handled)
    (hlast : ∀ x ∈ s.handled.getLast?, LastOk s.phase x → LastOk s'.phase x)
    (hquiet : s'.spuriousFallback.isSome → Quiet s') (hlines : s'.lines = s.lines)
    (hbytes : s'.written = s.written) (hclosed : s'.closed = s.closed) (hpart : s'.part = s.part)
    (hpipe : s'.pipe = s.pipe) : s'.Consistent parse := by
  refine ⟨⟨?_, ?_, ?_, ?_, hquiet⟩, ?_, h.lines.moved hlines hclosed ?_, fun _ => ?_⟩
  · rw [hhandled, hlines]
    exact h.texts
  · rw [hhandled]
    exact h.parsed
  · rw [hhandled]
    exact h.answered
  · intro x hx
    rw [hhandled] at hx
    exact hlast x hx (h.last x hx)
  · rw [hlines, hpart, hpipe, hbytes]
    exact h.bytes
  · rw [hpart, hpipe]
  · rw [hpart]
    exact h.part hphase

theorem current_of_last (hx : x ∈ s.handled.getLast?) : s.current = x.message := by
  unfold current
  rw [hx]
  rfl

theorem Fresh.answered (h : Fresh x)
    (hother : ∀ requestId request, x.message ≠ some (.controlRequest requestId request)) :
    Answered x := by
  unfold Answered
  split
  · exact absurd ‹_› (hother _ _)
  · exact h.1

theorem dispatch_consistent (h : s.Consistent parse) (hphase : s.phase = .logging) :
    s.dispatch.Consistent parse := by
  have hne : s.phase ≠ .ended .readError := by
    rw [hphase]
    exact nofun
  have hfresh : ∀ x, LastOk s.phase x → Fresh x := by
    intro x hx
    rw [hphase] at hx
    exact hx.1
  unfold dispatch
  split
  · rename_i hcurrent
    refine h.resume hne rfl (fun x hx hok => ?_) (fun hsome => by cases hsome) rfl rfl rfl rfl rfl
    exact ⟨hfresh x hok, (current_of_last hx).symm.trans hcurrent⟩
  · rename_i hcurrent
    refine h.resume hne rfl (fun x hx hok => ?_) (fun hsome => by cases hsome) rfl rfl rfl rfl rfl
    refine (hfresh x hok).answered fun requestId request heq => ?_
    rw [← current_of_last hx, hcurrent] at heq
    cases heq
  · rename_i hrequest hresult
    refine h.resume hne rfl (fun x hx hok => ?_) (fun hsome => ?_) rfl rfl rfl rfl rfl
    · refine (hfresh x hok).answered fun requestId request heq => ?_
      exact hrequest requestId request ((current_of_last hx).trans heq)
    · dsimp only at hsome
      split_ifs at hsome with hactive
      · cases hsome
      · obtain ⟨before, x, after, heq, hignored, hafter⟩ := h.quiet hsome
        refine ⟨before, x, after, heq, hignored, fun y hy hactive' => ?_⟩
        rw [← (hafter y hy hactive').2] at hactive'
        exact absurd hactive' hactive

theorem setLast_of {handled : List Handled}
    (hx : handled.getLast? = some x) : Loop.setLast handled f = handled.dropLast ++ [f x] := by
  unfold Loop.setLast
  rw [hx]

theorem Consistent.setLast (h : s.Consistent parse) (hphase : s.phase ≠ .ended .readError)
    (hf : ∀ x, (f x).text = x.text ∧ (f x).message = x.message)
    (hlast : ∀ x, LastOk s.phase x → Answered (f x)) (hquiet : s.spuriousFallback = none) :
    ({ s with handled := Loop.setLast s.handled f, phase := .select } : Loop).Consistent parse := by
  cases hx : s.handled.getLast? with
  | none =>
    have hnil : s.handled = [] := getLast?_eq_none_iff.1 hx
    have hset : Loop.setLast s.handled f = s.handled := by
      rw [hnil]
      rfl
    refine h.resume hphase hset (fun x hx' => ?_) (fun hsome => ?_) rfl rfl rfl rfl rfl
    · rw [hx] at hx'
      cases hx'
    · exact absurd hsome (by simp [hquiet])
  | some x =>
    have hset := setLast_of (f := f) hx
    have hsplit : s.handled.dropLast ++ [x] = s.handled := by
      obtain ⟨ls, hls⟩ := getLast?_eq_some_iff.1 hx
      rw [hls, dropLast_concat]
    refine ⟨⟨?_, ?_, ?_, ?_, fun hsome => ?_⟩, h.bytes, h.lines, fun _ => h.part hphase⟩
    · show (Loop.setLast s.handled f).map Handled.text = _
      rw [hset, map_append, map_singleton, (hf x).1, ← h.texts]
      conv_rhs => rw [← hsplit, map_append, map_singleton]
    · intro y hy
      rw [show _ = _ from hset] at hy
      rcases mem_append.1 hy with hy | hy
      · exact h.parsed y (mem_of_mem_dropLast hy)
      · obtain rfl := mem_singleton.1 hy
        rw [(hf x).1, (hf x).2]
        exact h.parsed x (mem_of_getLast? hx)
    · rw [show _ = _ from hset, dropLast_concat]
      exact h.answered
    · intro y hy
      rw [show _ = _ from hset, getLast?_concat] at hy
      cases hy
      exact hlast x (h.last x hx)
    · exact absurd hsome (by simp [hquiet])

variable {requestId : String} {request : ControlRequestType} {answer : Answer}

theorem Consistent.fallback_of_answering
    (h : s.Consistent parse) (hphase : s.phase = .answering requestId request) :
    s.spuriousFallback = none := by
  by_contra hsome
  obtain ⟨before, x, after, heq, -, hafter⟩ := h.quiet (isSome_iff_ne_none.2 hsome)
  have hlast : s.handled.getLast? = (x :: after).getLast? := by rw [heq, getLast?_append_cons]
  have hy := getLast?_eq_some_getLast (cons_ne_nil x after)
  have hok := h.last _ (hlast.trans hy)
  rw [hphase] at hok
  have hunlogged := (hafter _ (mem_of_getLast? hy) (by rw [hok.2]; rfl)).1
  unfold Unlogged at hunlogged
  rw [hphase] at hunlogged
  exact hunlogged.elim nofun nofun

theorem respond_some {r : ControlResponse} (h : respond requestId request answer = some r) :
    r.requestId = requestId := by
  cases request <;> cases answer <;> cases h <;> rfl

theorem answer_consistent
    {ok : Bool} (h : s.Consistent parse) (hphase : s.phase = .answering requestId request) :
    (s.answer requestId request answer ok).Consistent parse := by
  have hne : s.phase ≠ .ended .readError := by
    rw [hphase]
    exact nofun
  have hfallback := h.fallback_of_answering hphase
  have hfresh : ∀ x, LastOk s.phase x →
      Fresh x ∧ x.message = some (.controlRequest requestId request) := by
    intro x hx
    rw [hphase] at hx
    exact hx
  unfold Loop.answer
  split
  · refine h.setLast hne (fun x => ⟨rfl, rfl⟩) (fun x hx => ?_) hfallback
    obtain ⟨⟨hnil, -⟩, hmessage⟩ := hfresh x hx
    rw [show _ = some (CliMessage.controlRequest requestId request) from hmessage]
    exact .inl ⟨rfl, hnil⟩
  · rename_i response hresponse
    split_ifs
    · refine h.setLast hne (fun x => ⟨rfl, rfl⟩) (fun x hx => ?_) hfallback
      obtain ⟨⟨hnil, -⟩, hmessage⟩ := hfresh x hx
      rw [show _ = some (CliMessage.controlRequest requestId request) from hmessage]
      refine .inr ⟨response, ?_, respond_some hresponse⟩
      show x.responses ++ [response] = [response]
      rw [hnil]
      rfl
    · refine h.resume hne rfl (fun x _ hx => (hfresh x hx).1) (fun hsome => ?_) rfl rfl rfl rfl rfl
      exact absurd hsome (by simp [hfallback])

theorem Consistent.step (h : s.Consistent parse) (huncut : Uncut s a)
    (hstep : s.step parse a = some s') : s'.Consistent parse := by
  cases a with simp only [Loop.step] at hstep
  | tick d | cancel =>
    cases hstep
    exact ⟨⟨h.texts, h.parsed, h.answered, h.last, h.quiet⟩, h.bytes, h.lines, h.part⟩
  | write bytes =>
    split_ifs at hstep with hclosed
    cases hstep
    refine ⟨⟨h.texts, h.parsed, h.answered, h.last, h.quiet⟩, ?_, .inl ?_, h.part⟩
    · show s.lines.flatten ++ (s.part ++ (s.pipe ++ bytes)) = s.written ++ bytes
      rw [← h.bytes]
      simp
    · rcases h.lines with hall | ⟨hclosed', -⟩
      · exact hall
      · exact absurd hclosed' hclosed
  | close =>
    cases hstep
    refine ⟨⟨h.texts, h.parsed, h.answered, h.last, h.quiet⟩, h.bytes, ?_, h.part⟩
    exact h.lines.imp id fun hend => ⟨rfl, hend.2⟩
  | poll fired n =>
    split_ifs at hstep with hphase
    cases hstep
    exact poll_consistent h hphase huncut
  | readFails =>
    split_ifs at hstep with hphase
    cases hstep
    exact ended_consistent h hphase.1 fun _ hx => hx
  | interrupted =>
    split_ifs at hstep with hphase
    cases hstep
    refine h.resume (by rw [hphase]; exact nofun) rfl (fun x _ hok => ?_)
      (fun hsome => ?_) rfl rfl rfl rfl rfl
    · rw [hphase] at hok
      exact hok
    · refine (h.quiet hsome).of_logged ?_ rfl
      unfold Unlogged
      rw [hphase]
      exact fun h => h.elim nofun nofun
  | logged ok =>
    split_ifs at hstep with hphase <;> cases hstep
    · exact dispatch_consistent h hphase
    · refine h.resume (by rw [hphase]; exact nofun) rfl (fun x _ hx => ?_)
        (fun hsome => ?_) rfl rfl rfl rfl rfl
      · rw [hphase] at hx
        exact hx.1
      · obtain ⟨before, x, after, heq, hignored, hafter⟩ := h.quiet hsome
        exact ⟨before, x, after, heq, hignored,
          fun y hy hactive => ⟨.inr rfl, (hafter y hy hactive).2⟩⟩
  | answered answer ok =>
    split at hstep <;> cases hstep
    exact answer_consistent h ‹_›

/-! ## The deadlines -/

theorem receive_timely (h : newline ∈ rest → ∀ d ∈ s.deadline, s.now < d) :
    (s.receive parse line rest).Timely := by
  intro hphase hmem
  unfold receive at hphase hmem ⊢
  split at hphase
  · cases hphase
  · rename_i htrim
    simp only [htrim] at hmem ⊢
    dsimp only at hphase hmem ⊢
    split_ifs at hphase hmem ⊢
    · exact h hmem
    · intro d hd
      unfold deadline at h hd
      cases hgrace : s.graceDeadline with
      | some g =>
        simp only [hgrace, map_some] at hd
        cases hd
        show s.now < s.now + postResultGrace
        simp [postResultGrace]
      | none =>
        simp only [hgrace, map_none] at h hd
        cases hfallback : s.spuriousFallback with
        | some f =>
          rw [hfallback] at h hd
          exact h hmem d hd
        | none =>
          rw [hfallback] at hd
          cases hd
          show s.now < s.now + spuriousResultFallback
          simp [spuriousResultFallback]

theorem mem_drop_of_split {bytes : List UInt8} {b : UInt8}
    (hsplit : splitFirst newline (bytes.take n) = some (line, rest))
    (hmem : b ∈ rest ++ bytes.drop n) : b ∈ bytes := by
  rw [← take_append_drop n bytes, (splitFirst_some hsplit).2, append_assoc]
  exact mem_append_right line hmem

theorem readLine_timely (h : s.Timely) (hphase : s.phase = .select) (n : ℕ) :
    (s.readLine parse n).Timely := by
  unfold readLine
  split
  · rename_i hsplit
    exact receive_timely fun hmem => h hphase (mem_drop_of_split hsplit hmem)
  · dsimp only
    split_ifs
    · exact nofun
    · exact receive_timely fun hmem => absurd hmem not_mem_nil
    · exact fun _ hmem => h hphase (mem_of_mem_drop hmem)

theorem poll_timely (h : s.Timely) (hphase : s.phase = .select) :
    (s.poll parse fired n).Timely := by
  unfold poll
  split_ifs
  · exact nofun
  · exact nofun
  · exact nofun
  · exact readLine_timely h hphase n

theorem keptDeadline_of_other
    (hrequest : ∀ requestId request, s.current ≠ some (.controlRequest requestId request))
    (hresult : ∀ value, s.current ≠ some (.result value)) :
    s.keptDeadline = if isActivity s.current then s.graceDeadline else s.deadline := by
  unfold keptDeadline
  split
  · exact absurd ‹_› (hrequest _ _)
  · exact absurd ‹_› (hresult _)
  · rfl

theorem keptDeadline_of_result {value : JsonValue} (h : s.current = some (.result value)) :
    s.keptDeadline = s.graceDeadline := by
  unfold keptDeadline
  rw [h]

theorem dispatch_timely (h : newline ∈ s.pipe → ∀ t ∈ s.keptDeadline, s.now < t) :
    s.dispatch.Timely := by
  unfold dispatch
  split
  · exact nofun
  · rename_i hcurrent
    rw [keptDeadline_of_result hcurrent] at h
    intro _ hmem d hd
    cases hgrace : s.graceDeadline with
    | some g =>
      rw [hgrace] at h hd
      exact h hmem d hd
    | none =>
      rw [hgrace] at hd
      cases hd
      show s.now < s.now + postResultGrace
      simp [postResultGrace]
  · rename_i hrequest hresult
    intro _ hmem d hd
    have hkept := h hmem
    rw [keptDeadline_of_other hrequest hresult] at hkept
    unfold deadline at hd
    split_ifs at hkept hd
    · split at hd
      · rename_i hgrace
        exact hkept d (hgrace.trans hd)
      · cases hd
    · exact hkept d hd

theorem Timely.step (h : s.Timely) (hprompt : Prompt s a) (hstep : s.step parse a = some s') :
    s'.Timely := by
  cases a with simp only [Loop.step] at hstep
  | tick d =>
    cases hstep
    exact hprompt
  | write bytes =>
    split_ifs at hstep
    cases hstep
    intro hphase hmem
    rcases mem_append.1 hmem with hmem | hmem
    · exact h hphase hmem
    · exact hprompt hphase hmem
  | close | cancel =>
    cases hstep
    exact h
  | poll fired n =>
    split_ifs at hstep with hphase
    cases hstep
    exact poll_timely h hphase
  | readFails =>
    split_ifs at hstep
    cases hstep
    exact nofun
  | interrupted =>
    split_ifs at hstep
    cases hstep
    exact fun _ => hprompt
  | logged ok =>
    split_ifs at hstep <;> cases hstep
    · exact dispatch_timely hprompt
    · exact nofun
  | answered answer ok =>
    split at hstep <;> cases hstep
    unfold Loop.answer
    split
    · exact fun _ => hprompt
    · split_ifs
      · exact fun _ => hprompt
      · exact nofun

/-- The loop ended on a deadline. -/
def timedOut : Phase → Prop
  | .ended .grace | .ended .spurious => True
  | _ => False

/-- The end of the loop on one of its deadlines. -/
structure TimesOut (s s' : Loop) : Prop where
  select : s.phase = .select
  expired : s.expired = true
  eq : s' = { s with phase := .ended (if s.graceDeadline.isSome then .grace else .spurious) }

theorem receive_phase_not_timedOut (hphase : s.phase = .select) :
    ¬ timedOut (s.receive parse line rest).phase := by
  unfold receive
  split
  · exact id
  · dsimp only
    split_ifs
    · show ¬ timedOut s.phase
      rw [hphase]
      exact id
    · show ¬ timedOut s.phase
      rw [hphase]
      exact id
    · exact id

theorem readLine_phase (hphase : s.phase = .select) (n : ℕ) :
    ¬ timedOut (s.readLine parse n).phase := by
  unfold readLine
  split
  · exact receive_phase_not_timedOut hphase
  · dsimp only
    split_ifs
    · exact id
    · exact receive_phase_not_timedOut hphase
    · show ¬ timedOut s.phase
      rw [hphase]
      exact id

theorem timesOut_of_step (hstep : s.step parse a = some s') (hend : timedOut s'.phase)
    (hbefore : ¬ timedOut s.phase) : TimesOut s s' := by
  cases a with simp only [Loop.step] at hstep
  | tick d | close | cancel =>
    cases hstep
    exact absurd hend hbefore
  | write bytes =>
    split_ifs at hstep
    cases hstep
    exact absurd hend hbefore
  | poll fired n =>
    split_ifs at hstep with hphase
    cases hstep
    by_cases hcancel : s.seesCancel = true
    · rw [poll, if_pos hcancel] at hend
      cases hend
    · by_cases hexpired : fired ∧ s.expired
      · refine ⟨hphase, hexpired.2, ?_⟩
        rw [poll, if_neg hcancel, if_pos hexpired]
      · rw [poll, if_neg hcancel, if_neg hexpired] at hend
        exact absurd hend (readLine_phase hphase n)
  | readFails | interrupted =>
    split_ifs at hstep
    cases hstep
    cases hend
  | logged ok =>
    split_ifs at hstep <;> cases hstep
    · unfold dispatch at hend
      split at hend <;> cases hend
    · cases hend
  | answered answer ok =>
    split at hstep <;> cases hstep
    unfold Loop.answer at hend
    split at hend
    · cases hend
    · split_ifs at hend <;> cases hend

end Consistent

/-! ## Results -/

/-- What is promised of the lines that the CLI has written. -/
structure Whole (s : Loop) : Prop where
  /-- whole lines, in order -/
  lines : splitLines s.written = s.lines ++ splitLines (s.part ++ s.pipe)
  /-- the lines that are not blank are handed on once -/
  handled : s.handled.map Handled.text = s.lines.filterMap nonBlank
  parsed : ∀ x ∈ s.handled, x.message = parse x.text
  /-- each request is answered before the next line -/
  answered : ∀ x ∈ s.handled.dropLast, Answered x
  settled : Settled s.phase → ∀ x ∈ s.handled, Answered x

section Results

variable {parse} {s s' : Loop}

theorem Consistent.whole (h : s.Consistent parse) : s.Whole parse := by
  refine ⟨?_, h.texts, h.parsed, h.answered, h.toHandledOk.all⟩
  unfold splitLines
  rw [← h.bytes]
  rcases h.lines with hall | ⟨-, hpart, hpipe, ls, l, hlines, hall, hno, hne⟩
  · exact splitInclusive_flatten hall _
  · rw [hlines, hpart, hpipe, flatten_append, append_assoc, splitInclusive_flatten hall]
    simp [splitInclusive_of_notMem hno hne, splitInclusive]

theorem initial_consistent (h : Initial s) : s.Consistent parse := by
  refine ⟨⟨?_, ?_, ?_, ?_, fun hsome => ?_⟩, ?_, .inl ?_, fun _ => ?_⟩
  · rw [h.handled, h.lines]
    rfl
  · simp [h.handled]
  · simp [h.handled]
  · simp [h.handled]
  · rw [h.spuriousFallback] at hsome
    cases hsome
  · rw [h.lines, h.part, h.pipe, h.written]
    rfl
  · simp [h.lines]
  · simp [h.part]

theorem onTime_invariant (h : Reachable (step parse) OnTime Initial s) :
    s.Consistent parse ∧ s.Timely := by
  refine h.invariant (P := fun s => s.Consistent parse ∧ s.Timely) (fun s hs => ?_) ?_
  · refine ⟨initial_consistent hs, fun _ hmem => ?_⟩
    rw [hs.pipe] at hmem
    cases hmem
  · intro s a s' hs hok hstep
    exact ⟨hs.1.step hok.1 hstep, hs.2.step hok.2 hstep⟩

theorem exists_deadline (h : s.expired = true) : ∃ d, s.deadline = some d ∧ d ≤ s.now := by
  unfold expired at h
  cases hd : s.deadline with rw [hd] at h
  | none => cases h
  | some d => exact ⟨d, rfl, of_decide_eq_true h⟩

theorem TimesOut.newline_notMem (h : TimesOut s s') (htimely : s.Timely) : newline ∉ s.pipe := by
  intro hmem
  obtain ⟨d, hd, hpassed⟩ := exists_deadline h.expired
  have hlt := htimely h.select hmem d hd
  omega

/-- The fallback is over: no activity since a result was ignored. -/
def Spurious (s : Loop) : Prop :=
  ∃ before x after, s.handled = before ++ x :: after ∧ x.ignored = true ∧
    ∀ y ∈ x :: after, isActivity y.message = false

/-- Every result that is ignored comes before the activity of the turn. -/
def Resumed (s : Loop) : Prop :=
  ∀ before x after, s.handled = before ++ x :: after → x.ignored = true →
    ∀ y ∈ before, isActivity y.message = false

theorem TimesOut.spurious (h : TimesOut s s') (hs : s.Consistent parse)
    (hend : s'.phase = .ended .spurious) : s.Spurious := by
  obtain ⟨d, hd, -⟩ := exists_deadline h.expired
  cases hgrace : s.graceDeadline with
  | some g =>
    rw [h.eq] at hend
    simp [hgrace] at hend
  | none =>
    unfold deadline at hd
    rw [hgrace] at hd
    obtain ⟨before, x, after, heq, hignored, hafter⟩ := hs.quiet (isSome_of_eq_some hd)
    refine ⟨before, x, after, heq, hignored, fun y hy => ?_⟩
    rw [Bool.eq_false_iff]
    exact fun hactive => not_unlogged h.select (hafter y hy hactive).1

/-- In runs that are on time, lines are handled whole, once and in order, requests are answered
    once before the next line, and no deadline ends the loop over a line that was written, nor the
    fallback after activity. -/
theorem read_loop_whole (h : Reachable (step parse) OnTime Initial s) : s.Whole parse ∧
    ∀ a s', s.step parse a = some s' → timedOut s'.phase → ¬ timedOut s.phase →
      newline ∉ s.pipe ∧ (s'.phase = .ended .spurious → s.Spurious ∧
        (s.Resumed → ∀ y ∈ s.handled, isActivity y.message = false)) := by
  obtain ⟨hs, htimely⟩ := onTime_invariant h
  refine ⟨hs.whole, fun a s' hstep hend hbefore => ?_⟩
  have hout := timesOut_of_step hstep hend hbefore
  refine ⟨hout.newline_notMem htimely, fun hspurious => ?_⟩
  have hquiet := hout.spurious hs hspurious
  refine ⟨hquiet, fun hresumed y hy => ?_⟩
  obtain ⟨before, x, after, heq, hignored, hafter⟩ := hquiet
  rw [heq] at hy
  rcases mem_append.1 hy with hy | hy
  · exact hresumed before x after heq hignored y hy
  · exact hafter y hy

/-! ### Runs on fixed inputs -/

def start : Loop := ⟨0, [], [], false, false, [], false, none, none, .select, [], []⟩

theorem initial_start : Initial start := ⟨rfl, rfl, rfl, rfl, rfl, rfl, rfl, rfl⟩

def resultText : String := "\x7b\"type\":\"result\",\"num_turns\":1\x7d"

def requestText : String :=
  "\x7b\"type\":\"control_request\",\"request_id\":\"h\",\"request\":" ++
    "\x7b\"subtype\":\"hook_callback\",\"callback_id\":\"c\",\"input\":null\x7d\x7d"

/-- `serde_json::from_str::<CLIMessage>` on the two lines. -/
def parseExample (text : Text) : Option CliMessage :=
  if text = resultText.toList then some (.result (.object [("num_turns", .number "1")]))
  else if text = requestText.toList then some (.controlRequest "h" .hookCallback)
  else none

def lineOf (text : String) : List UInt8 := Utf8.encode (text.toList ++ ['\n'])

instance (s : Loop) (a : Action) : Decidable (Uncut s a) := by
  cases a <;> dsimp only [Uncut] <;> infer_instance

instance (s : Loop) (a : Action) : Decidable (Prompt s a) := by
  cases a <;> dsimp only [Prompt] <;> infer_instance

instance (s : Loop) (a : Action) : Decidable (OnTime s a) :=
  inferInstanceAs (Decidable (Uncut s a ∧ Prompt s a))

def hookRun : List Action :=
  [.write (lineOf resultText), .poll false 100, .logged true, .tick 1000,
    .write (lineOf requestText), .poll false 20, .poll false 200, .logged true,
    .answered (.ok .null) true, .tick postResultGrace]

/-- The request is answered, and the loop ends on the grace deadline. -/
theorem read_loop_whole_hook : ∃ s s' : Loop, s.Whole parseExample ∧ s.handled.length = 2 ∧
    s.step parseExample (.poll true 0) = some s' ∧ s'.phase = .ended .grace ∧ newline ∉ s.pipe := by
  have hexec : (exec (step parseExample) OnTime start hookRun).map (fun s =>
      decide (s.handled.length = 2 ∧ s.phase = .select ∧ s.seesCancel = false ∧
        s.expired = true ∧ s.graceDeadline.isSome)) = some true := by
    decide +kernel
  obtain ⟨s, hs, hdecide⟩ := map_eq_some_iff.1 hexec
  obtain ⟨hlength, hphase, hcancel, hexpired, hgrace⟩ := of_decide_eq_true hdecide
  have hstep : s.step parseExample (.poll true 0) = some { s with phase := .ended .grace } := by
    simp [step, poll, hphase, hcancel, hexpired, hgrace]
  have hwhole := read_loop_whole (reachable_of_exec initial_start hs)
  refine ⟨s, _, hwhole.1, hlength, hstep, rfl, ?_⟩
  refine (hwhole.2 _ _ hstep trivial ?_).1
  rw [hphase]
  exact id

/-- The token fires when a part of a request is read. -/
def cutRun : List Action :=
  [.write ((lineOf requestText).take 20), .poll false 100, .cancel, .poll false 0, .interrupted,
    .write ((lineOf requestText).drop 20), .poll false 200, .logged true]

/-- The rest of the line is handled as a line, and the request is never answered. -/
theorem cancel_loses_part : ∃ s, Reachable (step parseExample) Prompt Initial s ∧
    splitLines s.written = [lineOf requestText] ∧
    s.handled.map Handled.text = [requestText.toList.drop 20] ∧
    s.handled.map Handled.responses = [[]] ∧ s.phase = .select := by
  have hexec : (exec (step parseExample) Prompt start cutRun).map (fun s =>
      decide (splitLines s.written = [lineOf requestText] ∧
        s.handled.map Handled.text = [requestText.toList.drop 20] ∧
        s.handled.map (length ∘ Handled.responses) = [0] ∧ s.phase = .select)) =
      some true := by
    decide +kernel
  obtain ⟨s, hs, hdecide⟩ := map_eq_some_iff.1 hexec
  obtain ⟨hwritten, htexts, hresponses, hphase⟩ := of_decide_eq_true hdecide
  refine ⟨s, reachable_of_exec initial_start hs, hwritten, htexts, ?_, hphase⟩
  obtain ⟨x, hx⟩ := length_eq_one_iff.1 (by
    rw [← length_map (f := Handled.text), htexts]
    rfl : s.handled.length = 1)
  rw [hx] at hresponses ⊢
  simpa using hresponses

end Results

end Loop

end VibeKanban.Claude
