import VibeKanban.Coordinator.Obligations

/-!
# The raw log across coordinator handoffs

A coordinator that shuts down gracefully stops its tracker, lets the raw-log writer drain the store
and persists the pushed sequence; the next one seeds a store with the log, has the writer skip the
seeded lines, and resumes after the persisted cursor. The log is a series of sections of the
worker's output, one for each attachment.

* `raw_log_continues`: the sections follow each other; a writer that was cut off leaves out only
  what the next attachment repeats.
-/

namespace VibeKanban.Coordinator

open Cluster Lib Output Worker List RawLogWriter

/-! ## Output in the log -/

/-- The raw lines of a list of events. -/
def rawOutput (events : List ExecutionEvent) : List LogMsg :=
  events.flatMap fun e => (eventMessages e.payload).filter isRaw

@[simp] theorem rawOutput_nil : rawOutput [] = [] := rfl

@[simp] theorem rawOutput_append (events more : List ExecutionEvent) :
    rawOutput (events ++ more) = rawOutput events ++ rawOutput more := flatMap_append

@[simp] theorem rawOutput_singleton (e : ExecutionEvent) :
    rawOutput [e] = (eventMessages e.payload).filter isRaw := by
  rw [rawOutput, flatMap_singleton]

theorem length_eventMessages_le (payload : ExecutionEventPayload) :
    (eventMessages payload).length ≤ 1 := by
  have hpush : ∀ data stderr,
      (pushWorkerBytes Base64.standard [] data stderr : List LogMsg).length ≤ 1 := by
    intro data stderr
    unfold pushWorkerBytes
    split
    · cases stderr <;> exact le_rfl
    · exact le_rfl
  unfold eventMessages
  split
  · exact hpush _ _
  · exact hpush _ _
  · split
    · exact le_rfl
    · exact Nat.zero_le 1
    · exact le_rfl
  · exact le_rfl
  · exact Nat.zero_le 1

/-- An event has at most one line, so every part of the lines is that of some events. -/
theorem exists_take_rawOutput (events : List ExecutionEvent) (k : ℕ) :
    ∃ i ≤ events.length, rawOutput (events.take i) = (rawOutput events).take k := by
  induction events generalizing k with
  | nil => exact ⟨0, le_rfl, by simp⟩
  | cons e events ih =>
    have hcons : rawOutput (e :: events) = rawOutput [e] ++ rawOutput events :=
      rawOutput_append [e] events
    have hone : (rawOutput [e]).length ≤ 1 := by
      rw [rawOutput_singleton]
      exact (length_filter_le _ _).trans (length_eventMessages_le e.payload)
    rcases Nat.lt_or_ge k (rawOutput [e]).length with hk | hk
    · refine ⟨0, Nat.zero_le _, ?_⟩
      rw [show k = 0 by omega]
      rfl
    · obtain ⟨i, hi, htake⟩ := ih (k - (rawOutput [e]).length)
      refine ⟨i + 1, Nat.succ_le_succ hi, ?_⟩
      rw [take_succ_cons, hcons, take_append, take_of_length_le hk, ← htake]
      exact rawOutput_append [e] _

theorem exists_section (history : List ExecutionEvent) {m n : ℕ} (hmn : m ≤ n) (k : ℕ) :
    ∃ i, m ≤ i ∧ i ≤ n ∧ rawOutput (sectionOf history m i) =
      (rawOutput (sectionOf history m n)).take k := by
  obtain ⟨i, hi, htake⟩ := exists_take_rawOutput (sectionOf history m n) k
  have hlen : i ≤ n - m := hi.trans (length_take_le _ _)
  refine ⟨m + i, Nat.le_add_right _ _, by omega, ?_⟩
  rw [← htake, sectionOf, sectionOf, Nat.add_sub_cancel_left, take_take, min_eq_left hlen]

namespace RawLogWriter

variable {w w' : RawLogWriter} {lines : List LogMsg}

/-- The lines that the writer still has to append. -/
def unwritten (w : RawLogWriter) : List LogMsg := (w.stream.filter isRaw).drop w.remaining

/-- The writer skips only lines that it has yet to read. -/
def SkipsSeeded (w : RawLogWriter) : Prop := w.remaining ≤ (w.stream.filter isRaw).length

theorem skipsSeeded_resumed (seeded : List LogMsg) : (resumed seeded).SkipsSeeded := by
  show seeded.countP isRaw ≤ (seeded.filter isRaw).length
  rw [countP_eq_length_filter]

/-- Everything seeded is skipped, whatever part of it the store still holds. -/
theorem unwritten_resumed (seeded : List LogMsg) : (resumed seeded).unwritten = [] := by
  show (seeded.filter isRaw).drop (seeded.countP isRaw) = []
  rw [countP_eq_length_filter, drop_length]

theorem skipsSeeded_push (h : w.SkipsSeeded) (messages : List LogMsg) :
    (w.push messages).SkipsSeeded := by
  show w.remaining ≤ ((w.stream ++ messages).filter isRaw).length
  unfold SkipsSeeded at h
  rw [filter_append, length_append]
  omega

theorem unwritten_push (h : w.SkipsSeeded) (messages : List LogMsg) :
    (w.push messages).unwritten = w.unwritten ++ messages.filter isRaw := by
  show ((w.stream ++ messages).filter isRaw).drop w.remaining = _
  rw [filter_append, drop_append_of_le_length h]
  rfl

theorem unwritten_next (h : w.next = some (w', lines)) (hw : w.SkipsSeeded) :
    lines ++ w'.unwritten = w.unwritten ∧ w'.SkipsSeeded := by
  unfold next at h
  split at h
  · rename_i message stream hended hstream
    unfold SkipsSeeded at hw
    unfold SkipsSeeded unwritten
    rw [hstream] at hw ⊢
    have hother : isRaw message = false → w.remaining ≤ (stream.filter isRaw).length ∧
        (stream.filter isRaw).drop w.remaining =
          ((message :: stream).filter isRaw).drop w.remaining := by
      intro hraw
      rw [filter_cons_of_neg (by rw [hraw]; simp)] at hw ⊢
      exact ⟨hw, rfl⟩
    have hline : isRaw message = true →
        ((message :: stream).filter isRaw) = message :: stream.filter isRaw :=
      fun hraw => filter_cons_of_pos hraw
    unfold read at h
    split at h
    iterate 2
      rw [hline rfl] at hw ⊢
      split at h <;> cases h
      · rename_i hrem
        rw [hrem] at hw ⊢
        exact ⟨rfl, by simpa using hw⟩
      · rename_i hrem
        rw [hrem]
        exact ⟨rfl, Nat.zero_le _⟩
    · cases h
      exact ⟨(hother rfl).2, (hother rfl).1⟩
    · rename_i hout herr hfin
      cases h
      have hraw : isRaw message = false := by
        unfold isRaw
        split
        · exact absurd rfl (hout _)
        · exact absurd rfl (herr _)
        · rfl
      exact ⟨(hother hraw).2, (hother hraw).1⟩
  · cases h

def Open (w : RawLogWriter) : Prop := w.ended = false ∧ .finished ∉ w.stream

/-- Only the last message of the store ends the writer. -/
def Whole (w : RawLogWriter) : Prop :=
  (w.ended = true → w.stream = []) ∧ .finished ∉ w.stream.dropLast

theorem Open.whole (h : w.Open) : w.Whole :=
  ⟨fun hended => Bool.noConfusion (h.1.symm.trans hended),
    fun hmem => h.2 (mem_of_mem_dropLast hmem)⟩

/-- A writer that has come to the end of the store has appended everything. -/
theorem Whole.unwritten_eq (h : w.Whole) (hended : w.ended = true) : w.unwritten = [] := by
  rw [unwritten, h.1 hended, filter_nil, drop_nil]

theorem Open.push (h : w.Open) {messages : List LogMsg} (hm : .finished ∉ messages) :
    (w.push messages).Open :=
  ⟨h.1, fun hmem => (mem_append.1 hmem).elim h.2 hm⟩

theorem Open.whole_push_finished (h : w.Open) : (w.push [.finished]).Whole := by
  refine ⟨fun hended => ?_, ?_⟩
  · rw [show (w.push [.finished]).ended = w.ended from rfl, h.1] at hended
    cases hended
  · show LogMsg.finished ∉ (w.stream ++ [LogMsg.finished]).dropLast
    rw [dropLast_concat]
    exact h.2

theorem next_stream (h : w.next = some (w', lines)) : ∃ message,
    w.stream = message :: w'.stream ∧ (w'.ended = true → message = .finished) := by
  unfold next at h
  split at h
  · rename_i message stream hended hstream
    refine ⟨message, ?_⟩
    unfold read at h
    split at h
    iterate 2
      split at h <;> cases h <;> exact ⟨hstream, fun h1 => by rw [hended] at h1; cases h1⟩
    · cases h
      exact ⟨hstream, fun _ => rfl⟩
    · cases h
      exact ⟨hstream, fun h1 => by rw [hended] at h1; cases h1⟩
  · cases h

theorem open_next (h : w.next = some (w', lines)) (hw : w.Open) : w'.Open := by
  obtain ⟨message, hstream, hended⟩ := next_stream h
  have hnot := hw.2
  rw [hstream, mem_cons, not_or] at hnot
  exact ⟨Bool.eq_false_iff.2 fun h1 => hnot.1 (hended h1).symm, hnot.2⟩

theorem whole_next (h : w.next = some (w', lines)) (hw : w.Whole) : w'.Whole := by
  obtain ⟨message, hstream, hended⟩ := next_stream h
  have hnot := hw.2
  rw [hstream] at hnot
  by_cases hnil : w'.stream = []
  · exact ⟨fun _ => hnil, by rw [hnil]; exact not_mem_nil⟩
  · rw [dropLast_cons_of_ne_nil hnil, mem_cons, not_or] at hnot
    exact ⟨fun h1 => absurd (hended h1).symm hnot.1, hnot.2⟩

end RawLogWriter

/-! ## Attachments -/

/-- A coordinator that starts after the cursor `n` goes on where the attachments before it left
    off: no later than they stopped, and no earlier than what the last handoff persisted. -/
inductive Resumed : List Attachment → ℕ → Prop where
  | fresh : Resumed [] 0
  | again {before : List Attachment} {last : Attachment} {n : ℕ} : Resumed before last.start →
      last.start ≤ last.stop → n ≤ last.stop →
      (last.persisted = true → asI64 last.pushed ≤ n) → Resumed (before ++ [last]) n

/-- What the log holds of an attachment: all of it, or what a writer that was cut off has
    appended. -/
def Cut (a part : Attachment) : Prop :=
  part = { a with stop := part.stop } ∧ part.stop ≤ a.stop ∧
    (a.persisted = true → part.stop = a.stop)

/-- The raw lines of a series of attachments. -/
def attachedOutput (history : List ExecutionEvent) (attachments : List Attachment) : List LogMsg :=
  attachments.flatMap fun a => rawOutput (sectionOf history a.start a.stop)

theorem attachedOutput_concat (history : List ExecutionEvent) (before : List Attachment)
    (last : Attachment) : attachedOutput history (before ++ [last]) =
      attachedOutput history before ++ rawOutput (sectionOf history last.start last.stop) := by
  rw [attachedOutput, flatMap_append, flatMap_singleton]
  rfl

theorem isRaw_of_mem_attachedOutput {history : List ExecutionEvent}
    {attachments : List Attachment} {message : LogMsg}
    (h : message ∈ attachedOutput history attachments) : isRaw message = true := by
  obtain ⟨a, -, hpart⟩ := mem_flatMap.1 h
  obtain ⟨e, -, hevent⟩ := mem_flatMap.1 hpart
  exact (mem_filter.1 hevent).2

variable {attachments : List Attachment} {n : ℕ}

/-- Nothing is lost: the attachments cover every sequence number up to the cursor from which
    the next one starts. -/
theorem Resumed.covered {k : ℕ} (h : Resumed attachments n)
    (hpos : 0 < k) (hk : k ≤ n) : ∃ a ∈ attachments, a.start < k ∧ k ≤ a.stop := by
  induction h with
  | fresh => omega
  | @again before last n hbefore hle hn hsaved ih =>
    by_cases hlt : last.start < k
    · exact ⟨last, by simp, hlt, by omega⟩
    · obtain ⟨a, ha, hak⟩ := ih (by omega)
      exact ⟨a, mem_append_left _ ha, hak⟩

/-- A handoff that persisted a pushed sequence which had caught up with the tracker. -/
def Attachment.Clean (a : Attachment) : Prop :=
  a.persisted = true ∧ a.pushed = a.stop ∧ a.stop < 2 ^ 63

instance (a : Attachment) : Decidable a.Clean := inferInstanceAs (Decidable (_ ∧ _ ∧ _))

theorem forall_clean {sections : List Attachment} (hcut : Forall₂ Cut attachments sections)
    (h : ∀ a ∈ attachments, a.Clean) : ∀ a ∈ sections, a.Clean := by
  induction hcut with
  | nil => exact h
  | cons hlast hcut ih =>
    obtain ⟨hclean, hrest⟩ := forall_mem_cons.1 h
    obtain ⟨heq, -, hstop⟩ := hlast
    refine forall_mem_cons.2 ⟨?_, ih hrest⟩
    rw [heq, hstop hclean.1]
    exact hclean

theorem Resumed.attachedOutput_eq (h : Resumed attachments n) (history : List ExecutionEvent)
    (hclean : ∀ a ∈ attachments, a.Clean) :
    attachedOutput history attachments = rawOutput (sectionOf history 0 n) := by
  induction h with
  | fresh => simp [attachedOutput]
  | @again before last n hbefore hle hn hsaved ih =>
    obtain ⟨hpersisted, hpushed, hsmall⟩ := hclean last (by simp)
    have hcast : asI64 last.pushed = last.stop := by rw [hpushed, asI64, if_pos hsmall]
    have hstart : n = last.stop := by
      have hge := hsaved hpersisted
      omega
    rw [attachedOutput_concat, ih fun a ha => hclean a (mem_append_left _ ha), hstart,
      ← rawOutput_append, sectionOf_append_sectionOf (Nat.zero_le _) hle]

/-- A failed append, a stream error of the writer, or an event that forwards the end of its
    own stream. -/
def TrackingAction.breaksLog : TrackingAction → Bool
  | .write ok => !ok
  | .writerFails => true
  | .append _ payload => decide (.finished ∈ eventMessages payload)
  | _ => false

namespace Tracking

variable {s s' : Tracking} {t t' : Tracker} {w w' : RawLogWriter} {note : List LogMsg}
  {messages : List LogMsg} {job : ExecutionWorkerJob} {c : CoordinatorProcess} {pushed : Option ℕ}
  {sections : List Attachment}

/-! ## The invariant -/

/-- Polls find no gap, and coordinators end by a handoff. -/
def Graceful (s : Tracking) (a : TrackingAction) : Prop :=
  (a = .tracker .poll →
    ∀ t ∈ s.coordinator.tracker, (s.journal.replayAfter t.cursor).replayGap = false) ∧
  a ≠ .crash
  deriving Decidable

/-- A writer that has not come to the end of the store lacks only lines behind the sequence
    in the row, from where the next attachment polls. -/
def Replayable (s : Tracking) : Prop :=
  s.status = .running → ∀ t ∈ s.coordinator.tracker, ∀ w ∈ s.coordinator.writer,
    w.ended = false → w.unwritten.length ≤
      (rawOutput (sectionOf s.history s.job.lastEventSequence.toNat t.cursor)).length
  deriving Decidable

/-- In addition nothing goes wrong with the log, and a handoff cuts a writer off only where its
    lines can be replayed. -/
def Flushed (s : Tracking) (a : TrackingAction) : Prop :=
  s.Graceful a ∧ a.breaksLog = false ∧ (a = .handOff true ∨ a = .handOff false → s.Replayable)
  deriving Decidable

/-- What the tracker tells the chat when it gives up on a silent worker. -/
def closingNote : List LogMsg := (silenceSettlement false).note

/-- Without gaps the tracker stays on the plain path. -/
def PlainPc (t : Tracker) : Prop :=
  match t.pc with
  | .gap _ | .liveGap _ | .gapOutcome _ _ | .regressed _ => False
  | .acking durable _ | .acked durable => durable ≤ t.cursor
  | .settling settlement | .recording settlement =>
    settlement.note = [] ∨ settlement.note = closingNote ∧ settlement.heedsStop = false
  | _ => True

/-- The tracker has pushed `note` after the worker's output: nothing, or its closing note. -/
def Closing (s : Tracking) (t : Tracker) (note : List LogMsg) : Prop :=
  note = [] ∨ note = closingNote ∧ s.outcomes ≠ [] ∧ (t.pc = .finalizing ∨ t.pc = .done)

/-- The invariant of an attached coordinator, where the log holds `sections` of the
    attachments before. -/
structure Attached (s : Tracking) (sections : List Attachment) (t : Tracker) (w : RawLogWriter) :
    Prop where
  skips : w.SkipsSeeded
  whole : w.Whole
  resumed : Resumed sections s.start
  persisted : s.start ≤ s.job.lastEventSequence.toNat ∧ s.job.lastEventSequence.toNat ≤ t.cursor
  cursor_le : t.cursor ≤ s.history.length
  pushed_le : t.pushed ≤ t.cursor
  written : ∃ note, s.Closing t note ∧ s.rawLog ++ w.unwritten =
    attachedOutput s.history sections ++ rawOutput (sectionOf s.history s.start t.cursor) ++ note

structure Continuous (s : Tracking) (sections : List Attachment) : Prop where
  tracked : s.Tracked
  cut : Forall₂ Cut s.attachments sections
  stops : ∀ a ∈ sections, a.stop ≤ s.history.length
  unfinished : ∀ e ∈ s.history, .finished ∉ eventMessages e.payload
  attached : ∀ t w, s.coordinator.tracker = some t → s.coordinator.writer = some w →
    s.Attached sections t w
  plain : ∀ t w, s.coordinator = .tracking t w → PlainPc t ∧ (t.pc ≠ .done → w.Open)
  handingOff : ∀ t pushed w, s.coordinator = .handingOff t (some pushed) w → pushed ≤ t.cursor
  down : s.coordinator = .down → s.status = .running →
    Resumed sections s.job.lastEventSequence.toNat ∧ s.rawLog = attachedOutput s.history sections

@[simp] theorem filter_closingNote : closingNote.filter isRaw = closingNote := rfl

theorem push_nil (w : RawLogWriter) : w.push [] = w := by rw [push, append_nil]

theorem Attached.start_le (h : s.Attached sections t w) : s.start ≤ t.cursor :=
  h.persisted.1.trans h.persisted.2

theorem Closing.eq_nil (hT : s.Tracked) (h : s.Closing t note) (hrun : s.status = .running) :
    note = [] :=
  h.resolve_right fun h1 => hT.running h1.2.1 hrun

theorem attached_local (h : s.Attached sections t w) (hc : t'.cursor = t.cursor)
    (hp : t'.pushed ≤ t.cursor) (hlog : s'.rawLog = s.rawLog) (hh : s'.history = s.history)
    (hs : s'.start = s.start) (hj : s.start ≤ s'.job.lastEventSequence.toNat ∧
      s'.job.lastEventSequence.toNat ≤ t.cursor) (hwhole : (w.push messages).Whole)
    (hclose : ∀ note, s.Closing t note → s'.Closing t' (note ++ messages.filter isRaw)) :
    s'.Attached sections t' (w.push messages) := by
  obtain ⟨note, hnote, hwritten⟩ := h.written
  refine ⟨skipsSeeded_push h.skips messages, hwhole, ?_, ?_, ?_, ?_,
    note ++ messages.filter isRaw, hclose note hnote, ?_⟩
  · rw [hs]
    exact h.resumed
  · rw [hs, hc]
    exact hj
  · rw [hh, hc]
    exact h.cursor_le
  · rw [hc]
    exact hp
  · rw [unwritten_push h.skips, hlog, hh, hs, hc, ← append_assoc, hwritten, append_assoc]

theorem continuous_tracking (h : s.Continuous sections) (hT : s'.Tracked)
    (hh : s'.history = s.history) (ha : s'.attachments = s.attachments)
    (hc : s'.coordinator = .tracking t' w') (hatt : s'.Attached sections t' w')
    (hplain : PlainPc t') (hopen : t'.pc ≠ .done → w'.Open) : s'.Continuous sections := by
  refine ⟨hT, by rw [ha]; exact h.cut, by rw [hh]; exact h.stops,
    by rw [hh]; exact h.unfinished, ?_, ?_, ?_, ?_⟩
  · intro t'' w'' h1 h2
    rw [hc] at h1 h2
    cases h1
    cases h2
    exact hatt
  · intro t'' w'' heq
    rw [hc] at heq
    cases heq
    exact ⟨hplain, hopen⟩
  · intro t'' pushed w'' heq
    rw [hc] at heq
    cases heq
  · intro heq
    rw [hc] at heq
    cases heq

theorem continuous_track (h : s.Continuous sections) (hatt : s.Attached sections t w)
    (hT : (s.track t' w).Tracked) (hc : t'.cursor = t.cursor) (hp : t'.pushed ≤ t.cursor)
    (hopen : t.pc ≠ .finalizing ∧ t.pc ≠ .done) (hw : t.pc ≠ .done → w.Open)
    (hplain : PlainPc t') : (s.track t' w).Continuous sections := by
  have hatt' : (s.track t' w).Attached sections t' (w.push []) := by
    refine attached_local hatt hc hp rfl rfl rfl hatt.persisted (by rw [push_nil]; exact hatt.whole)
      fun note hnote => ?_
    rcases hnote with hnone | ⟨-, -, hpc | hpc⟩
    · exact .inl (by rw [hnone]; rfl)
    · exact absurd hpc hopen.1
    · exact absurd hpc hopen.2
  rw [push_nil] at hatt'
  exact continuous_tracking h hT rfl rfl rfl hatt' hplain fun _ => hw hopen.2

theorem toNat_asI64_le (n : ℕ) : (asI64 n).toNat ≤ n := by
  unfold asI64
  split_ifs <;> omega

theorem toNat_acknowledge_le {k : ℕ} {latest : ℤ}
    (h : job.lastEventSequence.toNat ≤ k) (hn : n ≤ k) (ok : Bool) :
    (if ok = true then job.acknowledgeSequence (asI64 n) latest
      else job).lastEventSequence.toNat ≤ k := by
  split_ifs
  · rcases acknowledgeSequence_cases job (asI64 n) latest with heq | ⟨-, heq⟩ <;> rw [heq]
    · exact h
    · exact (toNat_asI64_le n).trans hn
  · exact h

/-! ## Every step keeps the invariant -/

theorem continuous_event (h : s.Continuous sections) (hatt : s.Attached sections t w)
    {batch : OpenBatch} {e : ExecutionEvent} {events : List ExecutionEvent} (hsound : s.Sound t)
    (hpc : t.pc = .batch batch) (hevents : batch.events = e :: events)
    (hw : t.pc ≠ .done → w.Open)
    (hT : (s.track (t.event batch e events) (w.push (eventMessages e.payload))).Tracked) :
    (s.track (t.event batch e events) (w.push (eventMessages e.payload))).Continuous sections := by
  have hserved : s.Served t.cursor (e :: events) := by
    rw [← hevents]
    exact (hsound.at hpc).1
  obtain ⟨hmem, hnext, -⟩ := hserved.tail
  obtain ⟨note, hnote, hwritten⟩ := hatt.written
  have hnone : note = [] := by
    rcases hnote with hnone | ⟨-, -, h1 | h1⟩
    · exact hnone
    all_goals
      rw [hpc] at h1
      cases h1
  rw [hnone, append_nil] at hwritten
  have hstart := hatt.start_le
  have hpersisted := hatt.persisted
  have hpushed := hatt.pushed_le
  have hdur := durableWorkerCursor_le e.sequence t.unresolved
  have hopen : (w.push (eventMessages e.payload)).Open :=
    (hw (by rw [hpc]; simp)).push (h.unfinished e hmem)
  refine continuous_tracking h hT rfl rfl rfl ⟨skipsSeeded_push hatt.skips _, hopen.whole,
    hatt.resumed, ⟨hpersisted.1, ?_⟩, h.tracked.follows.numbered.number_le hmem, ?_, [],
    .inl rfl, ?_⟩ ?_ fun _ => hopen
  · show s.job.lastEventSequence.toNat ≤ e.sequence
    omega
  · show (if (batch.batchOutputOnly && workerEventIsOutput e.payload) = true then
      max t.pushed (durableWorkerCursor e.sequence t.unresolved) else t.pushed) ≤ e.sequence
    split_ifs <;> omega
  · -- the section grows by the event, the store by its lines
    show s.rawLog ++ (w.push (eventMessages e.payload)).unwritten =
      attachedOutput s.history sections ++
        rawOutput (sectionOf s.history s.start e.sequence) ++ []
    rw [unwritten_push hatt.skips, ← append_assoc, hwritten,
      sectionOf_succ h.tracked.follows.numbered hmem hnext hstart, rawOutput_append,
      rawOutput_singleton, append_nil, append_assoc]
  · unfold PlainPc Tracker.event
    cases e.payload
    case indeterminate => exact .inl rfl
    all_goals trivial

theorem poll_of_no_gap (hf : Follows s.journal s.history) (hle : t.cursor ≤ s.journal.lastSequence)
    (hgap : (s.journal.replayAfter t.cursor).replayGap = false) :
    ∃ batch, t.poll s.journal = { t with pc := .batch batch } := by
  have hreg : workerJournalRegressed t.cursor (s.journal.replayAfter t.cursor).latestAvailable =
      false := decide_eq_false (Nat.not_lt.2 hle)
  unfold Tracker.poll
  dsimp only
  rw [EventJournal.validateEventBatch_replayAfter hf.contiguous hgap]
  rw [hreg, if_neg (by simp)]
  exact ⟨_, rfl⟩

theorem continuous_job (h : s.Continuous sections) (hatt : s.Attached sections t w)
    {pc : TrackerPc}
    (hT : Tracked { s with job := job, coordinator := .tracking { t with pc := pc } w })
    (hgrow : s.job.lastEventSequence ≤ job.lastEventSequence)
    (hjob : job.lastEventSequence.toNat ≤ t.cursor)
    (hopen : t.pc ≠ .finalizing ∧ t.pc ≠ .done) (hw : t.pc ≠ .done → w.Open)
    (hplain : PlainPc { t with pc := pc }) :
    Continuous { s with job := job, coordinator := .tracking { t with pc := pc } w } sections := by
  obtain ⟨s₁, hs₁⟩ : ∃ s₁ : Tracking, s₁ =
      { s with job := job, coordinator := .tracking { t with pc := pc } w } := ⟨_, rfl⟩
  have hbounds : s.start ≤ job.lastEventSequence.toNat ∧ job.lastEventSequence.toNat ≤ t.cursor :=
    ⟨hatt.persisted.1.trans (Int.toNat_le_toNat hgrow), hjob⟩
  have hatt' : s₁.Attached sections { t with pc := pc } (w.push []) := by
    rw [hs₁]
    refine attached_local hatt rfl hatt.pushed_le rfl rfl rfl hbounds
      (by rw [push_nil]; exact hatt.whole) fun note hnote => ?_
    rcases hnote with hnone | ⟨-, -, hpc | hpc⟩
    · exact .inl (by rw [hnone]; rfl)
    · exact absurd hpc hopen.1
    · exact absurd hpc hopen.2
  rw [push_nil, hs₁] at hatt'
  exact continuous_tracking h hT rfl rfl rfl hatt' hplain fun _ => hw hopen.2

theorem continuous_settled (h : s.Continuous sections) (hatt : s.Attached sections t w)
    (hw : t.pc ≠ .done → w.Open) (hopen : t.pc ≠ .finalizing ∧ t.pc ≠ .done)
    {settlement : Settlement}
    (hc : t'.cursor = t.cursor) (hp : t'.pushed = t.pushed) (hh : s'.history = s.history)
    (ha : s'.attachments = s.attachments) (hs : s'.start = s.start) (hlog : s'.rawLog = s.rawLog)
    (hj : s'.job = s.job) (hT : (s'.track t' (w.push (settledNote t'.pc settlement))).Tracked)
    (hnote : settledNote t'.pc settlement = [] ∨ settledNote t'.pc settlement = closingNote ∧
      s'.outcomes ≠ [] ∧ t'.pc = .finalizing) (hplain : PlainPc t') :
    (s'.track t' (w.push (settledNote t'.pc settlement))).Continuous sections := by
  have hpush : (w.push (settledNote t'.pc settlement)).Open := by
    refine (hw hopen.2).push ?_
    rcases hnote with h1 | ⟨h1, -⟩ <;> rw [h1]
    · exact not_mem_nil
    · simp [closingNote, silenceSettlement]
  have hatt' : (s'.track t' (w.push (settledNote t'.pc settlement))).Attached sections t'
      (w.push (settledNote t'.pc settlement)) := by
    refine attached_local hatt hc (by rw [hp]; exact hatt.pushed_le) hlog hh hs ?_ hpush.whole
      fun note hclose => ?_
    · show s.start ≤ s'.job.lastEventSequence.toNat ∧ s'.job.lastEventSequence.toNat ≤ t.cursor
      rw [hj]
      exact hatt.persisted
    · have hnone : note = [] := by
        rcases hclose with hnone | ⟨-, -, hpc | hpc⟩
        · exact hnone
        · exact absurd hpc hopen.1
        · exact absurd hpc hopen.2
      rw [hnone, nil_append]
      rcases hnote with h1 | ⟨h1, h2, h3⟩ <;> rw [h1]
      · exact .inl rfl
      · exact .inr ⟨filter_closingNote, h2, .inl h3⟩
  exact continuous_tracking h hT hh ha rfl hatt' hplain fun _ => hpush

theorem continuous_trackerStep {a : TrackerAction} (h : s.Continuous sections)
    (hc : s.coordinator = .tracking t w) (hok : s.Flushed (.tracker a)) (hT : s'.Tracked)
    (hstep : s.trackerStep t w a = some s') : s'.Continuous sections := by
  have hatt : s.Attached sections t w := h.attached t w (by rw [hc]; rfl) (by rw [hc]; rfl)
  obtain ⟨hplain, hw⟩ := h.plain t w hc
  have hsound := h.tracked.tracking t w hc
  have hf := h.tracked.follows
  unfold PlainPc at hplain
  cases a with simp only [trackerStep] at hstep
  | poll =>
    split at hstep <;> cases hstep
    rename_i hpc
    have hgap : (s.journal.replayAfter t.cursor).replayGap = false :=
        hok.1.1 rfl t (by rw [hc]; rfl)
    obtain ⟨batch, hbatch⟩ := poll_of_no_gap hf hsound.cursor_le hgap
    rw [hbatch] at hT ⊢
    exact continuous_track h hatt hT rfl hatt.pushed_le (by simp [hpc]) hw trivial
  | checkGap inventory | markIncomplete ok | checkRegression inventory ok =>
    split at hstep
    all_goals first
      | rename_i hpc
        rw [hpc] at hplain
        exact hplain.elim
      | cases hstep
  | event =>
    split at hstep
    · rename_i hpc
      split at hstep <;> cases hstep
      rename_i hevents
      exact continuous_event h hatt hsound hpc hevents hw hT
    · cases hstep
  | endBatch =>
    split at hstep
    · rename_i hpc
      split at hstep <;> cases hstep
      have hdur := durableWorkerCursor_le t.cursor t.unresolved
      refine continuous_track h hatt hT ?_ ?_ (by simp [hpc]) hw ?_
      all_goals unfold Tracker.endBatch
      · split
        · rfl
        · split_ifs <;> rfl
      · split
        · exact hatt.pushed_le
        · split_ifs <;> exact hatt.pushed_le
      · split
        · exact .inl rfl
        · split_ifs
          · exact hdur
          · trivial
    · cases hstep
  | acknowledgeSequence ok =>
    split at hstep <;> cases hstep
    rename_i hpc
    rw [hpc] at hplain
    exact continuous_job h hatt hT (lastEventSequence_le_ite _ _ _ _)
      (toNat_acknowledge_le hatt.persisted.2 hplain ok) (by simp [hpc]) hw hplain
  | acknowledged =>
    split at hstep <;> cases hstep
    rename_i hpc
    rw [hpc] at hplain
    exact continuous_track h hatt hT rfl (max_le hatt.pushed_le hplain) (by simp [hpc]) hw trivial
  | readStopped ok =>
    split at hstep <;> cases hstep
    rename_i settlement hpc
    rw [hpc] at hplain
    have hsame : (t.settle settlement (ok && s.status.wasStopped)).cursor = t.cursor ∧
        (t.settle settlement (ok && s.status.wasStopped)).pushed = t.pushed := by
      unfold Tracker.settle
      split_ifs
      · split <;> exact ⟨rfl, rfl⟩
      · exact ⟨rfl, rfl⟩
    refine continuous_settled h hatt hw (by simp [hpc]) hsame.1 hsame.2 rfl rfl rfl rfl rfl hT ?_ ?_
    all_goals unfold Tracker.settle
    · split_ifs with hstopped
      · split
        · exact .inl rfl
        · -- giving up does not ask whether the row was stopped
          rcases hplain with hnote | ⟨-, hheeds⟩
          · exact .inl hnote
          · rw [hheeds] at hstopped
            cases hstopped
      · exact .inl rfl
    · split_ifs
      · split <;> trivial
      · exact hplain
  | recordOutcome ok =>
    split at hstep <;> cases hstep
    rename_i settlement hpc
    rw [hpc] at hplain
    have hsame : (t.recorded settlement ok).cursor = t.cursor ∧
        (t.recorded settlement ok).pushed = t.pushed := by
      unfold Tracker.recorded
      split_ifs
      all_goals split <;> exact ⟨rfl, rfl⟩
    have hopen : t.pc ≠ .finalizing ∧ t.pc ≠ .done := by simp [hpc]
    have hpl : PlainPc (t.recorded settlement ok) := by
      unfold Tracker.recorded
      split_ifs
      · split <;> trivial
      · split
        · exact hplain
        · exact hplain
        · trivial
    cases ok with
    | false =>
      refine continuous_settled h hatt hw hopen hsame.1 hsame.2 rfl rfl rfl rfl rfl hT (.inl ?_) hpl
      unfold Tracker.recorded
      rw [if_neg (by simp)]
      split <;> rfl
    | true =>
      refine continuous_settled h hatt hw hopen hsame.1 hsame.2 rfl rfl rfl rfl rfl hT ?_ hpl
      have hne : (s.updateCompletion settlement.processState).outcomes ≠ [] :=
        append_ne_nil_of_right_ne_nil _ (cons_ne_nil _ _)
      unfold Tracker.recorded
      rw [if_pos rfl]
      split
      · exact .inl rfl
      · rcases hplain with hnote | ⟨hnote, -⟩
        · exact .inl hnote
        · exact .inr ⟨hnote, hne, rfl⟩
  | release ok =>
    split at hstep <;> cases hstep
    rename_i hpc
    exact continuous_job h hatt hT (lastEventSequence_le_ite _ _ _ _)
      (toNat_acknowledge_le hatt.persisted.2 le_rfl ok) (by simp [hpc]) hw trivial
  | giveUp pollFailed =>
    split at hstep <;> cases hstep
    rename_i hpc
    refine continuous_track h hatt hT rfl hatt.pushed_le (by simp [hpc]) hw ?_
    cases pollFailed
    · exact .inr ⟨rfl, rfl⟩
    · exact .inl rfl
  | finish =>
    split at hstep <;> cases hstep
    rename_i hpc
    refine continuous_tracking h hT rfl rfl rfl (attached_local hatt rfl hatt.pushed_le rfl rfl rfl
      hatt.persisted (hw (by simp [hpc])).whole_push_finished fun note hnote => ?_) trivial
      fun hne => absurd rfl hne
    show Closing _ _ (note ++ [])
    rw [append_nil]
    rcases hnote with hnone | ⟨hclose, hout, -⟩
    · exact .inl hnone
    · exact .inr ⟨hclose, hout, .inr rfl⟩

theorem attachedOutput_append {history : List ExecutionEvent}
    (more : List ExecutionEvent) (h : ∀ a ∈ attachments, a.stop ≤ history.length) :
    attachedOutput (history ++ more) attachments = attachedOutput history attachments := by
  unfold attachedOutput
  rw [flatMap_def, flatMap_def]
  congr 1
  refine map_congr_left fun a ha => ?_
  rw [sectionOf_append (h a ha)]

theorem continuous_append (h : s.Continuous sections) {more : List ExecutionEvent}
    {journal : EventJournal} (hmore : ∀ e ∈ more, .finished ∉ eventMessages e.payload)
    (hT : Tracked { s with journal := journal, history := s.history ++ more }) :
    Continuous { s with journal := journal, history := s.history ++ more } sections := by
  have hbody := attachedOutput_append more h.stops
  have hlen : ∀ {n}, n ≤ s.history.length → n ≤ (s.history ++ more).length := by
    intro n hn
    rw [length_append]
    omega
  refine ⟨hT, h.cut, fun a ha => hlen (h.stops a ha),
    fun e he => (mem_append.1 he).elim (h.unfinished e) (hmore e), fun t w h1 h2 => ?_, h.plain,
    h.handingOff, fun hdown hrun => ?_⟩
  · have hatt := h.attached t w h1 h2
    obtain ⟨note, hnote, hwritten⟩ := hatt.written
    refine ⟨hatt.skips, hatt.whole, hatt.resumed, hatt.persisted, hlen hatt.cursor_le,
      hatt.pushed_le, note, hnote, ?_⟩
    show _ = attachedOutput (s.history ++ more) sections ++
      rawOutput (sectionOf (s.history ++ more) s.start t.cursor) ++ note
    rw [hbody, sectionOf_append hatt.cursor_le]
    exact hwritten
  · obtain ⟨hresumed, hlog⟩ := h.down hdown hrun
    refine ⟨hresumed, ?_⟩
    show s.rawLog = attachedOutput (s.history ++ more) sections
    rw [hbody]
    exact hlog

theorem continuous_same (h : s.Continuous sections) (hT : s'.Tracked)
    (hh : s'.history = s.history) (ha : s'.attachments = s.attachments) (hs : s'.start = s.start)
    (hlog : s'.rawLog = s.rawLog) (hj : s'.job = s.job)
    (ho : s.outcomes ≠ [] → s'.outcomes ≠ []) (hrun : s'.status = .running → s.status = .running)
    (hc : s'.coordinator = s.coordinator) : s'.Continuous sections := by
  refine ⟨hT, by rw [ha]; exact h.cut, by rw [hh]; exact h.stops,
    by rw [hh]; exact h.unfinished, fun t w h1 h2 => ?_, fun t w h1 => ?_,
    fun t pushed w h1 => ?_, fun hdown hrunning => ?_⟩
  · rw [hc] at h1 h2
    have hatt := h.attached t w h1 h2
    have hatt' : s'.Attached sections t (w.push []) := by
      refine attached_local hatt rfl hatt.pushed_le hlog hh hs (by rw [hj]; exact hatt.persisted)
        (by rw [push_nil]; exact hatt.whole) fun note hnote => ?_
      rw [filter_nil, append_nil]
      exact hnote.imp_right fun h1 => ⟨h1.1, ho h1.2.1, h1.2.2⟩
    rwa [push_nil] at hatt'
  · rw [hc] at h1
    exact h.plain t w h1
  · rw [hc] at h1
    exact h.handingOff t pushed w h1
  · rw [hc] at hdown
    rw [hj, hlog, hh]
    exact h.down hdown (hrun hrunning)

theorem CoordinatorProcess.exists_tracker (h : c.writer = some w) : ∃ t, c.tracker = some t := by
  cases c
  · cases h
  all_goals exact ⟨_, rfl⟩

theorem tracker_setWriter (c : CoordinatorProcess) (w : RawLogWriter) :
    (c.setWriter w).tracker = c.tracker := by
  cases c <;> rfl

theorem writer_setWriter (h : c.writer = some w) (w' : RawLogWriter) :
    (c.setWriter w').writer = some w' := by
  cases c
  · cases h
  · rfl
  · rfl

section

variable (h : s.Continuous sections)
include h

theorem continuous_setWriter {rawLog : List LogMsg}
    (hw : s.coordinator.writer = some w) (hskips : w'.SkipsSeeded) (hwhole : w'.Whole)
    (hopen : w.Open → w'.Open) (hlog : rawLog ++ w'.unwritten = s.rawLog ++ w.unwritten)
    (hT : Tracked { s with rawLog := rawLog, coordinator := s.coordinator.setWriter w' }) :
    Continuous { s with rawLog := rawLog, coordinator := s.coordinator.setWriter w' }
      sections := by
  refine ⟨hT, h.cut, h.stops, h.unfinished, fun t w'' h1 h2 => ?_, fun t w'' h1 => ?_,
    fun t pushed w'' h1 => ?_,
    fun hdown _ => ?_⟩
  · have h1' : s.coordinator.tracker = some t := by
      rw [← tracker_setWriter s.coordinator w']
      exact h1
    have h2' : w' = w'' := Option.some.inj ((writer_setWriter hw w').symm.trans h2)
    have hatt := h.attached t w h1' hw
    obtain ⟨note, hnote, hwritten⟩ := hatt.written
    rw [← h2']
    refine ⟨hskips, hwhole, hatt.resumed, hatt.persisted, hatt.cursor_le, hatt.pushed_le, note,
      hnote, ?_⟩
    show rawLog ++ w'.unwritten = _
    rw [hlog]
    exact hwritten
  · obtain ⟨w₀, hc⟩ := CoordinatorProcess.setWriter_eq_tracking h1
    have hw₀ : w₀ = w := by
      rw [hc] at hw
      exact Option.some.inj hw
    have hw'' : w' = w'' := by
      change s.coordinator.setWriter w' = .tracking t w'' at h1
      rw [hc] at h1
      cases h1
      rfl
    rw [← hw'']
    exact (h.plain t w₀ hc).imp_right fun h2 hpc => hopen (hw₀ ▸ h2 hpc)
  · obtain ⟨w₀, hc⟩ := CoordinatorProcess.setWriter_eq_handingOff h1
    exact h.handingOff t pushed w₀ hc
  · exfalso
    have h1 := writer_setWriter hw w'
    change s.coordinator.setWriter w' = .down at hdown
    rw [hdown] at h1
    cases h1

theorem continuous_abort (hatt : s.Attached sections t w)
    (hp : ∀ p, pushed = some p → p ≤ t.cursor) (hraw : messages.filter isRaw = [])
    (hwhole : (w.push messages).Whole)
    (hT : Tracked { s with coordinator := .handingOff t pushed (w.push messages) }) :
    Continuous { s with coordinator := .handingOff t pushed (w.push messages) } sections := by
  refine ⟨hT, h.cut, h.stops, h.unfinished, fun t' w' h1 h2 => ?_, fun t' w' h1 => ?_,
    fun t' p w' h1 => ?_, fun hdown _ => ?_⟩
  · cases h1
    cases h2
    refine attached_local hatt rfl hatt.pushed_le rfl rfl rfl hatt.persisted hwhole
      fun note hnote => ?_
    rw [hraw, append_nil]
    exact hnote
  · cases h1
  · cases h1
    exact hp p rfl
  · cases hdown

/-- How far the log goes when the coordinator ends: to the tracker's cursor if the writer has come
    to the end of the store, and otherwise no less far than the sequence in the row. -/
theorem exists_reach (hatt : s.Attached sections t w)
    (hc : s.coordinator = .handingOff t pushed w) (hreplay : s.Replayable) :
    ∃ reach, s.job.lastEventSequence.toNat ≤ reach ∧ reach ≤ t.cursor ∧
      (w.ended = true → reach = t.cursor) ∧ (s.status = .running → s.rawLog =
        attachedOutput s.history sections ++ rawOutput (sectionOf s.history s.start reach)) := by
  obtain ⟨hstart, hcursor⟩ := hatt.persisted
  obtain ⟨note, hnote, hwritten⟩ := hatt.written
  by_cases hended : w.ended = true
  · refine ⟨t.cursor, hcursor, le_rfl, fun _ => rfl, fun hrun => ?_⟩
    rw [hatt.whole.unwritten_eq hended, hnote.eq_nil h.tracked hrun, append_nil,
      append_nil] at hwritten
    exact hwritten
  by_cases hrun : s.status = .running
  · have hlen := hreplay hrun t (by rw [hc]; rfl) w (by rw [hc]; rfl)
      (Bool.eq_false_iff.2 hended)
    rw [hnote.eq_nil h.tracked hrun, append_nil,
      ← sectionOf_append_sectionOf hstart hcursor, rawOutput_append, ← append_assoc] at hwritten
    obtain ⟨reach, hle, hreach, htake⟩ := exists_section s.history hcursor
      ((rawOutput (sectionOf s.history s.job.lastEventSequence.toNat t.cursor)).length -
        w.unwritten.length)
    refine ⟨reach, hle, hreach, fun h1 => absurd h1 hended, fun _ => ?_⟩
    rw [← sectionOf_append_sectionOf hstart hle, rawOutput_append, ← append_assoc, htake]
    rcases append_eq_append_iff.1 hwritten with ⟨rest, hrest, hunwritten⟩ | ⟨kept, hkept, hall⟩
    · have hnil : rest = [] := by
        rw [hunwritten, length_append] at hlen
        exact eq_nil_of_length_eq_zero (by omega)
      rw [hunwritten, hnil, nil_append, Nat.sub_self, take_zero, append_nil, hrest, hnil,
        append_nil]
    · rw [hkept, hall, length_append, Nat.add_sub_cancel, take_left]
  · exact ⟨t.cursor, hcursor, le_rfl, fun _ => rfl, fun h1 => absurd h1 hrun⟩

theorem continuous_handOff (hatt : s.Attached sections t w)
    (hc : s.coordinator = .handingOff t pushed w) (hreplay : s.Replayable) {persisted : Bool}
    (hended : persisted = true → w.ended = true) (hT : s'.Tracked)
    (hs : s' = { s with
      job :=
        if persisted then
          s.job.acknowledgeSequence (asI64 (pushed.getD 0)) (asI64 (pushed.getD 0))
        else s.job
      coordinator := .down
      attachments := s.attachments ++
        [{ start := s.start, stop := t.cursor, pushed := pushed.getD 0,
           persisted := persisted }] }) :
    ∃ sections', s'.Continuous sections' := by
  subst hs
  obtain ⟨reach, hle, hreach, hwhole, hlog⟩ := exists_reach h hatt hc hreplay
  refine ⟨sections ++ [⟨s.start, reach, pushed.getD 0, persisted⟩], hT,
    rel_append h.cut (.cons ⟨rfl, hreach, fun hp => hwhole (hended hp)⟩ .nil), fun a ha => ?_,
    h.unfinished, fun _ _ h1 _ => (by cases h1), fun _ _ h1 => (by cases h1),
    fun _ _ _ h1 => (by cases h1), fun _ hrun => ⟨?_, ?_⟩⟩
  · rcases mem_append.1 ha with hold | hnew
    · exact h.stops a hold
    · rw [mem_singleton.1 hnew]
      exact hreach.trans hatt.cursor_le
  · refine Resumed.again hatt.resumed (hatt.persisted.1.trans hle) ?_ fun hsaved => ?_
    · have hpushed : pushed.getD 0 ≤ t.cursor := by
        cases hp : pushed with
        | none => exact Nat.zero_le _
        | some p =>
          rw [hp] at hc
          exact h.handingOff t p w hc
      cases persisted with
      | false => exact hle
      | true =>
        have heq : reach = t.cursor := hwhole (hended rfl)
        exact toNat_acknowledge_le hle (by rw [heq]; exact hpushed) true
    · change persisted = true at hsaved
      subst hsaved
      show asI64 (pushed.getD 0) ≤ ((s.job.acknowledgeSequence (asI64 (pushed.getD 0))
        (asI64 (pushed.getD 0))).lastEventSequence.toNat : ℤ)
      rw [ExecutionWorkerJob.acknowledgeSequence]
      split_ifs with hle
      · exact Int.self_le_toNat _
      · exact (not_le.1 hle).le.trans (Int.self_le_toNat _)
  · rw [attachedOutput_concat]
    exact hlog hrun

/-- A new attachment goes on from the persisted cursor; the log holds what it seeds. -/
theorem continuous_reattach (hdown : s.coordinator = .down)
    (hrun : s.status = .running) (evicted : ℕ) (hT : s'.Tracked)
    (hs : s' = { s with
      coordinator := .tracking (Tracker.start s.job.lastEventSequence.toNat)
        (resumed (s.rawLog.drop evicted))
      start := s.job.lastEventSequence.toNat }) : s'.Continuous sections := by
  subst hs
  obtain ⟨hresumed, hlog⟩ := h.down hdown hrun
  have hopen : (resumed (s.rawLog.drop evicted)).Open := by
    refine ⟨rfl, fun hmem => ?_⟩
    have hraw := mem_of_mem_drop hmem
    rw [hlog] at hraw
    cases isRaw_of_mem_attachedOutput hraw
  have hle : s.job.lastEventSequence.toNat ≤ s.history.length := by
    rw [h.tracked.follows.length_eq]
    exact (hT.tracking _ _ rfl).cursor_le
  refine continuous_tracking h hT rfl rfl rfl ⟨skipsSeeded_resumed _, hopen.whole, hresumed,
    ⟨le_rfl, le_rfl⟩, hle, le_rfl, [], .inl rfl, ?_⟩ trivial fun _ => hopen
  show s.rawLog ++ (resumed (s.rawLog.drop evicted)).unwritten =
    attachedOutput s.history sections ++
      rawOutput (sectionOf s.history s.job.lastEventSequence.toNat
        s.job.lastEventSequence.toNat) ++ []
  rw [unwritten_resumed, sectionOf_self, rawOutput_nil, append_nil, append_nil, append_nil]
  exact hlog

end

theorem continuous_step {a : TrackingAction} (h : s.Continuous sections) (hok : s.Flushed a)
    (hstep : s.step a = some s') : ∃ sections', s'.Continuous sections' := by
  have hT := tracked_step h.tracked hstep
  cases a with simp only [step] at hstep
  | append ts payload =>
    split at hstep <;> cases hstep
    · refine ⟨sections, continuous_append h (fun e he => ?_) hT⟩
      rw [mem_singleton.1 he]
      exact of_decide_eq_false hok.2.1
    · exact ⟨sections, h⟩
  | deliver sequence =>
    split at hstep
    · split_ifs at hstep
      cases hstep
      exact ⟨sections, continuous_same h hT rfl rfl rfl rfl rfl id id rfl⟩
    · cases hstep
  | resolve sequence =>
    split at hstep
    · rename_i t w hc
      split_ifs at hstep
      cases hstep
      have hatt := h.attached t w (by rw [hc]; rfl) (by rw [hc]; rfl)
      have hatt' : (s.track { t with unresolved := t.unresolved.filter (fun k => k ≠ sequence) }
          w).Attached sections { t with unresolved := t.unresolved.filter (fun k => k ≠ sequence) }
          (w.push []) := by
        refine attached_local hatt rfl hatt.pushed_le rfl rfl rfl hatt.persisted
          (by rw [push_nil]; exact hatt.whole) fun note hnote => ?_
        rw [filter_nil, append_nil]
        exact hnote
      rw [push_nil] at hatt'
      obtain ⟨hplain, hw⟩ := h.plain t w hc
      exact ⟨sections, continuous_tracking h hT rfl rfl rfl hatt' hplain hw⟩
    · cases hstep
  | recordOther status =>
    split_ifs at hstep with hne
    cases hstep
    exact ⟨sections, continuous_same h hT rfl rfl rfl rfl rfl
      (fun _ => append_ne_nil_of_right_ne_nil _ (cons_ne_nil _ _)) (fun h1 => absurd h1 hne) rfl⟩
  | tracker a =>
    split at hstep
    · rename_i hc
      exact ⟨sections, continuous_trackerStep h hc hok hT hstep⟩
    · cases hstep
  | write ok =>
    have hwrite : ok = true := by
      cases ok
      · cases hok.2.1
      · rfl
    subst hwrite
    split at hstep
    · rename_i w hw
      split at hstep <;> cases hstep
      rename_i hnext
      obtain ⟨t, ht⟩ := CoordinatorProcess.exists_tracker hw
      have hatt := h.attached t w ht hw
      obtain ⟨hlines, hskips⟩ := unwritten_next hnext hatt.skips
      refine ⟨sections, continuous_setWriter h hw hskips (whole_next hnext hatt.whole)
        (open_next hnext) ?_ hT⟩
      rw [if_pos rfl, append_assoc, hlines]
    · cases hstep
  | writerFails => cases hok.2.1
  | abort =>
    split at hstep
    · rename_i t w hc
      have hatt := h.attached t w (by rw [hc]; rfl) (by rw [hc]; rfl)
      split at hstep <;> cases hstep
      · rw [← push_nil w] at hT ⊢
        exact ⟨sections, continuous_abort h hatt (fun _ h1 => by cases h1) rfl
          (by rw [push_nil]; exact hatt.whole) hT⟩
      · rename_i hdone
        refine ⟨sections, continuous_abort h hatt (fun p h1 => ?_) rfl
          ((h.plain t w hc).2 hdone).whole_push_finished hT⟩
        cases h1
        exact hatt.pushed_le
    · cases hstep
  | handOff ok =>
    split at hstep <;> cases hstep
    rename_i t pushed w hc
    have hatt := h.attached t w (by rw [hc]; rfl) (by rw [hc]; rfl)
    refine continuous_handOff h hatt hc (hok.2.2 (by cases ok <;> simp)) (fun hp => ?_) hT rfl
    rw [Bool.and_eq_true, Bool.and_eq_true] at hp
    exact hp.1.1
  | crash => exact absurd rfl hok.1.2
  | reattach evicted =>
    split at hstep
    · rename_i hdown
      split_ifs at hstep with hrun
      cases hstep
      exact ⟨sections, continuous_reattach h hdown hrun evicted hT rfl⟩
    · cases hstep

theorem continuous_of_initial (h : s.Initial) : s.Continuous [] := by
  have hT := tracked_of_initial h
  obtain ⟨-, hjob, -, hlog, hc, hhistory, -, -, -, hstart, hattachments⟩ := h
  have hopen : (resumed []).Open := ⟨rfl, not_mem_nil⟩
  refine ⟨hT, by rw [hattachments]; exact .nil, by simp, by rw [hhistory]; simp,
    fun t w h1 h2 => ?_, fun t w h1 => ?_, fun t pushed w h1 => ?_, fun hdown => ?_⟩
  · rw [hc] at h1 h2
    cases h1
    cases h2
    refine ⟨skipsSeeded_resumed [], hopen.whole, ?_, ?_, Nat.zero_le _, le_rfl, [], .inl rfl, ?_⟩
    · rw [hstart]
      exact Resumed.fresh
    · rw [hstart, hjob]
      exact ⟨le_rfl, le_rfl⟩
    · rw [hlog, hstart, unwritten_resumed]
      show _ = [] ++ rawOutput (sectionOf s.history 0 0) ++ []
      rfl
  · rw [hc] at h1
    cases h1
    exact ⟨trivial, fun _ => hopen⟩
  · rw [hc] at h1
    cases h1
  · rw [hc] at hdown
    cases hdown

/-! ## The result -/

/-- In every run without gaps whose coordinators end by handoffs: the log and what the writer
    still has to append are, in order, the worker's output of what the log holds of every
    attachment, up to a closing note of a tracker that has given up, and an ended writer has
    nothing to append. Every event that any tracker has handled lies in one of these sections; an
    attachment starts no later than the section before it stops and no earlier than the sequence
    persisted, so that what it repeats lies between the two; and after clean handoffs every line
    is there once. -/
theorem raw_log_continues (h : Reachable step Flushed Initial s)
    (ht : s.coordinator.tracker = some t) (hw : s.coordinator.writer = some w) :
    ∃ sections note, Forall₂ Cut s.attachments sections ∧
      (note = [] ∨ note = closingNote ∧ s.status ≠ .running) ∧
      s.rawLog ++ w.unwritten = attachedOutput s.history sections ++
        rawOutput (sectionOf s.history s.start t.cursor) ++ note ∧
      (w.ended = true → w.unwritten = []) ∧
      (∀ e ∈ s.history, e.sequence ≤ t.cursor →
        s.start < e.sequence ∨ ∃ a ∈ sections, a.start < e.sequence ∧ e.sequence ≤ a.stop) ∧
      Resumed sections s.start ∧ s.start ≤ t.cursor ∧ ((∀ a ∈ s.attachments, a.Clean) →
        s.rawLog ++ w.unwritten = rawOutput (sectionOf s.history 0 t.cursor) ++ note) := by
  obtain ⟨sections, hinv⟩ := Reachable.invariant
    (P := fun s : Tracking => ∃ sections, s.Continuous sections) h
    (fun _ h0 => ⟨[], continuous_of_initial h0⟩)
    fun _ _ _ ⟨_, hi⟩ hok hstep => continuous_step hi hok hstep
  have hatt := hinv.attached t w ht hw
  obtain ⟨note, hnote, hwritten⟩ := hatt.written
  refine ⟨sections, note, hinv.cut, hnote.imp_right fun h1 => ⟨h1.1, hinv.tracked.running h1.2.1⟩,
    hwritten, hatt.whole.unwritten_eq, fun e he hle => ?_, hatt.resumed, hatt.start_le,
    fun hclean => ?_⟩
  · by_cases hlt : s.start < e.sequence
    · exact .inl hlt
    · have hpos := hinv.tracked.follows.numbered.number_pos he
      exact .inr (hatt.resumed.covered hpos (by omega))
  · rw [hwritten, hatt.resumed.attachedOutput_eq s.history (forall_clean hinv.cut hclean),
      ← rawOutput_append, sectionOf_append_sectionOf (Nat.zero_le _) hatt.start_le]

/-! ## Runs on concrete inputs -/

/-- The output that a coordinator has made of a worker's events: the persisted log and what is
    on its way into it. -/
def collected (s : Tracking) : List LogMsg :=
  s.rawLog ++ match s.coordinator.writer with
    | some w => w.unwritten
    | none => []

/-- A handoff whose writer reads `n` messages of the store, and the next start. -/
def handsOver (n : ℕ) : List TrackingAction :=
  .abort :: replicate n (.write true) ++ [.handOff true, .reattach 0]

/-- Output behind a request that still waits is in the log twice after a handoff, and output
    whose writer had ended on a stream error is in it not at all. -/
theorem raw_log_repeats_or_loses : (∃ s, Reachable step Graceful Initial s ∧ s.history.length = 3 ∧
      rawOutput s.history = [.stdout "a"] ∧ s.collected = [.stdout "a", .stdout "a"]) ∧
    ∃ s, Reachable step Graceful Initial s ∧ s.history.length = 2 ∧
      rawOutput s.history = [.stdout "a"] ∧ s.collected = [] := by
  refine ⟨?_, ?_⟩
  · refine reachable_of_exec_dispatched 8 ([.append 0 .accepted,
      .append 1 (.interactionRequested 7), .append 2 (.stdout "YQ==")] ++ polls 3 ++
      acknowledges ++ handsOver 2 ++ polls 2) ?_
    decide +kernel
  · refine reachable_of_exec_dispatched 8 ([.append 0 .accepted, .append 1 (.stdout "YQ==")] ++
      polls 2 ++ acknowledges ++ [.writerFails] ++ handsOver 0) ?_
    decide +kernel

/-- A clean handoff, and then one that cuts the writer off in front of a line that the next
    attachment polls again. -/
theorem raw_log_kept_over_handoffs : ∃ s : Tracking,
    s.attachments.map Attachment.persisted = [true, false] ∧
    s.collected = [.stdout "a", .stdout "b"] ∧
    ∃ sections, Forall₂ Cut s.attachments sections ∧ Resumed sections s.start ∧
      s.collected = attachedOutput s.history sections ++ [.stdout "b"] := by
  have hrun : ∃ s, Reachable step Flushed Initial s ∧
      s.attachments.map Attachment.persisted = [true, false] ∧ s.status = .running ∧
      s.collected = [.stdout "a", .stdout "b"] ∧
      ∃ t ∈ s.coordinator.tracker, ∃ w ∈ s.coordinator.writer,
        rawOutput (sectionOf s.history s.start t.cursor) = [.stdout "b"] := by
    refine reachable_of_exec_dispatched 8 ([.append 0 .accepted, .append 1 (.stdout "YQ==")] ++
      polls 2 ++ acknowledges ++ handsOver 2 ++ [.append 2 (.stdout "Yg==")] ++ polls 1 ++
      handsOver 1 ++ polls 1) ?_
    decide +kernel
  obtain ⟨s, hreach, hpersisted, hrunning, hcollected, t, ht, w, hw, hout⟩ := hrun
  obtain ⟨sections, note, hcut, hnote, hwritten, -, -, hresumed, -⟩ :=
    raw_log_continues hreach ht hw
  refine ⟨s, hpersisted, hcollected, sections, hcut, hresumed, ?_⟩
  have hnone : note = [] := hnote.resolve_right fun h1 => h1.2 hrunning
  have hlog : s.collected = s.rawLog ++ w.unwritten := by
    unfold collected
    rw [Option.mem_def.1 hw]
  rw [hlog, hwritten, hout, hnone, append_nil]

end Tracking

end VibeKanban.Coordinator
