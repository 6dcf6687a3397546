import VibeKanban.Lib.Edits
import VibeKanban.Lib.Except
import VibeKanban.Messages.Store

/-!
# The entries of a conversation (`executors/src/logs/utils/entry_index.rs`, `patch.rs`)

Several tasks turn the output of one process into entries: each asks the shared provider for an
index, makes a patch that adds an entry there, and pushes the patch to the shared store later.

* `adds_in_order`: the history is applicable, in runs that push each `add` in its turn.
* `startFrom_gt_iff`, `startFrom_le_added`: the index from which a provider starts again.
-/

namespace VibeKanban.Messages

open Lib Cluster List Edit PatchOperation Nat

/-! ## Patches of entries -/

/-- `format!("/entries/{entry_index}")` -/
def entryPath (index : ℕ) : String := "/entries/" ++ toString index

/-- The patches of `ConversationPatch` for an entry: `add_normalized_entry`, `add_stdout` and
    `add_stderr` differ in the value only (lines 51-85), and `replace` (lines 143-151). The value
    is a `PatchType` as JSON. -/
def conversationPatch : Edit JsonValue → Patch
  | .add index value => [.add (entryPath index) value]
  | .replace index value => [.replace (entryPath index) value]

/-- The position in the list of entries that a pointer names; an array index has neither a sign
    nor leading zeros. -/
def arrayIndex (path : String) : Option ℕ :=
  (entryIndex path).filter fun index => entryPath index = path

/-- An operation as an edit of the list of entries; `none` for operations of another kind. -/
def PatchOperation.edit? : PatchOperation → Option (Edit JsonValue)
  | .add path value => (arrayIndex path).map (.add · value)
  | .replace path value => (arrayIndex path).map (.replace · value)
  | _ => none

def LogMsg.operations : LogMsg → Patch
  | .jsonPatch patch => patch
  | _ => []

def Inner.operations (inner : Inner) : Patch := inner.messages.flatMap LogMsg.operations

/-- The history as edits of the list of entries. -/
def Inner.edits (inner : Inner) : Option (List (Edit JsonValue)) := inner.operations.mapM edit?

def PatchOperation.addedIndex : PatchOperation → Option ℕ
  | .add path _ => entryIndex path
  | _ => none

/-- The index that `start_from` takes from a message (lines 41-56). -/
def LogMsg.addedIndex (msg : LogMsg) : Option ℕ :=
  msg.operations.findSome? PatchOperation.addedIndex

/-- `EntryIndexProvider::start_from` -/
def startFrom (inner : Inner) : ℕ :=
  match (inner.messages.filterMap LogMsg.addedIndex).max? with
  | some index => saturatingAdd index 1
  | none => 0

/-! ## The system -/

/-- A task: the indices that it has allocated, and the patches that it has made and not pushed
    yet, in the order in which it pushes them. -/
structure Producer where
  owned : List ℕ
  patches : List (Edit JsonValue)

/-- An entry as its producer wrote it; `none` is a producer that is gone. -/
structure Write where
  task : Option ℕ
  edit : Edit JsonValue

/-- The provider, the store and the tasks that share them. The last two fields are not in the
    source: the indices of the provider so far, and what was pushed. -/
structure Conversation where
  provider : ℕ
  inner : Inner
  producers : List Producer
  allocated : List ℕ
  written : List Write

inductive ConversationAction where
  /-- `next()`, with the patch that adds an entry there -/
  | next (task : ℕ) (value : JsonValue)
  | replace (task index : ℕ) (value : JsonValue)
  /-- `push_patch` -/
  | push (task : ℕ) (now : String)
  | log (msg : LogMsg) (now : String)

namespace Conversation

def setProducer (s : Conversation) (task : ℕ) (p : Producer) : Conversation :=
  { s with producers := s.producers.set task p }

variable (f : Formats)

/-- One step; `fetch_add` wraps around. -/
def step (s : Conversation) : ConversationAction → Option Conversation
  | .next task value => do
    let p ← s.producers[task]?
    let s := s.setProducer task ⟨s.provider :: p.owned, p.patches ++ [.add s.provider value]⟩
    return { s with
      provider := (s.provider + 1) % (u64Max + 1)
      allocated := s.allocated ++ [s.provider] }
  | .replace task index value => do
    let p ← s.producers[task]?
    if index ∈ p.owned then return s.setProducer task ⟨p.owned, p.patches ++ [.replace index value]⟩
    else none
  | .push task now => do
    let p ← s.producers[task]?
    let edit ← p.patches.head?
    let s := s.setProducer task ⟨p.owned, p.patches.tail⟩
    return { s with
      inner := (s.inner.record f (.jsonPatch (conversationPatch edit)) now).1
      written := s.written ++ [⟨some task, edit⟩] }
  | .log msg now =>
    match msg with
    | .jsonPatch _ => none
    | msg => some { s with inner := (s.inner.record f msg now).1 }

def evicted (s : Conversation) (msg : LogMsg) (now : String) : List StoredMsg :=
  let bytes := (s.inner.enriched f msg now).2.approxBytes f.toJson
  s.inner.history.take
    (s.inner.history.length - (evict bytes s.inner.history s.inner.totalBytes).1.length)

def KeepsPatches (s : Conversation) (msg : LogMsg) (now : String) : Prop :=
  ∀ stored ∈ s.evicted f msg now, stored.msg.operations.isEmpty
  deriving Decidable

/-- An `add` is pushed when no task holds one with a lower index, the history has room for its
    patches, and the counter of the indices has not wrapped. -/
def InTurn (s : Conversation) : ConversationAction → Prop
  | .next _ _ => s.allocated.length ≤ u64Max
  | .replace _ _ _ => True
  | .push task now =>
    match s.producers[task]?.bind (·.patches.head?) with
    | some edit =>
      (edit.isAdd → ∀ p ∈ s.producers, ∀ i ∈ added p.patches, edit.index ≤ i) ∧
        s.KeepsPatches f (.jsonPatch (conversationPatch edit)) now
    | none => True
  | .log msg now => s.KeepsPatches f msg now

/-- Any number of tasks, and a provider that starts from the history of the store. What is there
    was built in order by patches of one operation, as it is in a new store. -/
def Seeded (s : Conversation) : Prop :=
  ∃ inner edits tasks, inner.Accounted f ∧ (∀ msg ∈ inner.messages, msg.operations.length ≤ 1) ∧
    inner.edits = some edits ∧ InOrder edits ∧
    s = ⟨startFrom inner, inner, replicate tasks ⟨[], []⟩,
      range (added edits).length, edits.map (⟨none, ·⟩)⟩

end Conversation

/-- The value of an entry in the store: as it was written, or with a time. -/
def Dated (written stored : JsonValue) : Prop :=
  stored = written ∨ ∃ content timestamp,
    (written.get "content").bind JsonValue.asObject = some content ∧
    stored = written.set "content"
      (.object (JsonValue.insert "timestamp" (.string timestamp) content))

/-- An edit that was pushed and the one in the history. -/
structure Stored (written stored : Edit JsonValue) : Prop where
  isAdd : written.isAdd = stored.isAdd
  index : written.index = stored.index
  value : Dated written.value stored.value

def Conversation.Owns (s : Conversation) (task i : ℕ) : Prop :=
  ∃ p, s.producers[task]? = some p ∧ i ∈ p.owned

/-- The history is edits in order, which build the entries: at each index is what was last written
    there, by the one task that allocated the index. -/
structure Conversation.Builds (s : Conversation) (edits : List (Edit JsonValue))
    (entries : List JsonValue) : Prop where
  history : s.inner.edits = some edits
  inOrder : InOrder edits
  applies : applyAll edits [] = some entries
  seated : ∀ i, entries[i]? = lastWrite edits i
  stored : Forall₂ Stored (s.written.map Write.edit) edits
  producer : ∀ w ∈ s.written, ∀ task, w.task = some task → s.Owns task w.edit.index
  exclusive : ∀ task task' i, s.Owns task i → s.Owns task' i → task = task'

/-- The history is applicable, and every entry is where its producer allocated it. -/
def Conversation.Ordered (s : Conversation) : Prop := ∃ edits entries, s.Builds edits entries

/-! ## Paths -/

variable {i : ℕ}

theorem parseUsize_digits {digits : List Char} (hdigit : ∀ c ∈ digits, c.isDigit = true)
    (hne : digits ≠ []) (hi : i ≤ u64Max)
    (hvalue : digits.foldl (fun n c => 10 * n + (c.toNat - '0'.toNat)) 0 = i) :
    parseUsize digits = some i := by
  have hall : digits.any (fun c => !c.isDigit) = false := by
    rw [any_eq_false]
    intro c hc
    rw [hdigit c hc]
    decide
  unfold parseUsize
  split
  -- a digit is not a sign
  · exact absurd (hdigit '+' mem_cons_self) (by decide)
  · dsimp only
    rw [hall, hvalue, if_pos hi, if_neg (by simp [hne])]

theorem parseUsize_toString (hi : i ≤ u64Max) : parseUsize (toString i).toList = some i := by
  rw [toString_eq_repr, toList_repr]
  apply parseUsize_digits _ toDigits_ne_nil hi
  · rw [← ofDigitChars_eq_foldl]
    exact ofDigitChars_ten_toDigits
  · exact fun c hc => isDigit_of_mem_toDigits (by omega) (by omega) hc

theorem entryIndex_entryPath (hi : i ≤ u64Max) : entryIndex (entryPath i) = some i := by
  unfold entryIndex entryPath
  rw [String.toList_append, if_pos ( isPrefixOf_iff_prefix.2 (prefix_append _ _)), drop_left]
  exact parseUsize_toString hi

theorem arrayIndex_entryPath (hi : i ≤ u64Max) : arrayIndex (entryPath i) = some i := by
  rw [arrayIndex, entryIndex_entryPath hi]
  simp

variable {edit : Edit JsonValue}

theorem edits_conversationPatch (hi : edit.index ≤ u64Max) :
    (conversationPatch edit).mapM edit? = some [edit] := by
  cases edit with
  | add i value | replace i value =>
    have hpath : arrayIndex (entryPath i) = some i := arrayIndex_entryPath hi
    simp [conversationPatch, edit?, hpath]

/-! ## The times of the entries -/

variable {f : Formats} {inner : Inner} {msg : LogMsg} {now : String}

theorem enrichEntry_dated (t : EntryTimestamps) (path : String) (value : JsonValue)
    (inserts : Bool) : Dated value (enrichEntry f.isRfc3339 now t path value inserts).2 := by
  unfold enrichEntry
  by_cases hroot : path = "/entries"
  · rw [if_pos hroot]
    exact .inl rfl
  rw [if_neg hroot]
  cases entryIndex path with
  | none => exact .inl rfl
  | some index =>
    dsimp only
    generalize (if inserts = true then t.shiftUp index else t) = t'
    split
    · exact .inl rfl
    · split
      · exact .inl rfl
      · rename_i content hcontent
        split
        · exact .inl rfl
        · rename_i timestamp _
          exact .inr ⟨content, timestamp, hcontent, rfl⟩

theorem enriched_conversationPatch (inner : Inner) (edit : Edit JsonValue) (now : String) :
    ∃ edit', Stored edit edit' ∧ (inner.enriched f (.jsonPatch (conversationPatch edit)) now).2 =
        .jsonPatch (conversationPatch edit') := by
  unfold Inner.enriched
  cases inner.entryTimestamps with
  | none => exact ⟨edit, ⟨rfl, rfl, .inl rfl⟩, rfl⟩
  | some t =>
    cases edit with
    | add i value =>
      exact ⟨.add i (enrichEntry f.isRfc3339 now t (entryPath i) value true).2,
        ⟨rfl, rfl, enrichEntry_dated t _ value true⟩, rfl⟩
    | replace i value =>
      exact ⟨.replace i (enrichEntry f.isRfc3339 now t (entryPath i) value false).2,
        ⟨rfl, rfl, enrichEntry_dated t _ value false⟩, rfl⟩

theorem enriched_eq_of_not_patch (h : msg.operations = []) :
    (inner.enriched f msg now).2.operations = [] := by
  unfold Inner.enriched
  cases inner.entryTimestamps with
  | none => exact h
  | some t =>
    cases msg with
    | jsonPatch patch =>
      rw [show patch = [] from h]
      rfl
    | _ => rfl

/-! ## The history -/

theorem flatMap_operations_eq_nil {history : List StoredMsg}
    (h : ∀ stored ∈ history, stored.msg.operations.isEmpty) :
    (history.map StoredMsg.msg).flatMap LogMsg.operations = [] := by
  rw [flatMap_eq_nil_iff]
  intro msg hmsg
  obtain ⟨stored, hstored, rfl⟩ := mem_map.1 hmsg
  exact isEmpty_iff.1 (h stored hstored)

/-- What the loop of `push` leaves is the end of the history. -/
theorem evict_eq_drop (bytes : ℕ) (history : List StoredMsg) (total : ℕ) :
    (evict bytes history total).1 =
      history.drop (history.length - (evict bytes history total).1.length) := by
  suffices hsuffix : (evict bytes history total).1 <:+ history from suffix_iff_eq_drop.1 hsuffix
  induction history generalizing total with
  | nil => exact suffix_refl []
  | cons front history ih =>
    unfold evict
    split_ifs
    · exact (ih _).trans (suffix_cons front history)
    · exact suffix_refl _

theorem operations_record {s : Conversation} (hkeeps : s.KeepsPatches f msg now) :
    (s.inner.record f msg now).1.operations =
      s.inner.operations ++ (s.inner.enriched f msg now).2.operations := by
  unfold Conversation.KeepsPatches Conversation.evicted at hkeeps
  show (((s.inner.store f (s.inner.enriched f msg now).1
    (s.inner.enriched f msg now).2).history).map
    StoredMsg.msg).flatMap LogMsg.operations = _
  unfold Inner.operations Inner.messages Inner.store
  generalize (s.inner.enriched f msg now).2 = msg' at hkeeps ⊢
  dsimp only at hkeeps ⊢
  have hdrop := evict_eq_drop (msg'.approxBytes f.toJson) s.inner.history s.inner.totalBytes
  generalize (evict (msg'.approxBytes f.toJson) s.inner.history s.inner.totalBytes).1 = kept
    at hkeeps hdrop ⊢
  have hhistory : s.inner.history =
      s.inner.history.take (s.inner.history.length - kept.length) ++ kept := by
    conv_lhs => rw [← take_append_drop (s.inner.history.length - kept.length) s.inner.history]
    rw [← hdrop]
  conv_rhs => rw [hhistory]
  rw [map_append, map_append, flatMap_append, flatMap_append,
    flatMap_operations_eq_nil hkeeps, nil_append, map_singleton, flatMap_singleton]

/-! ## The provider -/

variable {edits : List (Edit JsonValue)}

theorem edits_eq_some_iff : inner.edits = some edits ↔
    Forall₂ (fun operation edit => operation.edit? = some edit) inner.operations edits :=
  mapM_eq_some_iff

theorem addedIndex_of_edit {operation : PatchOperation} (h : operation.edit? = some edit) :
    operation.addedIndex = if edit.isAdd then some edit.index else none := by
  cases operation with
  | add path value =>
    obtain ⟨i, hi, rfl⟩ := Option.map_eq_some_iff.1 h
    exact (Option.filter_eq_some_iff.1 hi).1
  | replace path value =>
    obtain ⟨i, hi, rfl⟩ := Option.map_eq_some_iff.1 h
    rfl
  | remove path => cases h
  | move source path => cases h
  | copy source path => cases h
  | test path value => cases h

theorem filterMap_addedIndex {operations : Patch}
    (h : Forall₂ (fun operation edit => operation.edit? = some edit) operations edits) :
    operations.filterMap addedIndex = added edits := by
  induction h with
  | nil => rfl
  | cons hedit _ ih =>
    rename_i edit operations edits _
    rw [filterMap_cons, addedIndex_of_edit hedit, ih]
    cases edit <;> rfl

/-- For patches of one operation `start_from` sees every operation. -/
theorem filterMap_messages (hone : ∀ msg ∈ inner.messages, msg.operations.length ≤ 1) :
    inner.messages.filterMap LogMsg.addedIndex =
      inner.operations.filterMap PatchOperation.addedIndex := by
  unfold Inner.operations
  generalize inner.messages = messages at hone ⊢
  induction messages with
  | nil => rfl
  | cons msg messages ih =>
    have hmsg : msg.operations.filterMap PatchOperation.addedIndex = msg.addedIndex.toList := by
      have hlen := hone msg mem_cons_self
      unfold LogMsg.addedIndex
      match msg.operations, hlen with
      | [], _ => rfl
      | [operation], _ =>
        rw [filterMap_cons, findSome?_cons]
        cases operation.addedIndex <;> rfl
    rw [filterMap_cons, flatMap_cons, filterMap_append, hmsg,
      ih fun msg hmsg => hone msg (mem_cons_of_mem _ hmsg)]
    cases msg.addedIndex <;> rfl

theorem length_le_historyBytes (haccounted : inner.Accounted f) :
    inner.history.length ≤ historyBytes := by
  have hpos : ∀ stored ∈ inner.history, 1 ≤ stored.bytes := by
    intro stored hstored
    rw [haccounted.sizes stored hstored]
    cases stored.msg with
    | ready | finished | _ => exact le_add_left _ _
  rcases haccounted.bounded with hle | ⟨stored, hone, -⟩
  · have hsum : (inner.history.map StoredMsg.bytes).length ≤
        (inner.history.map StoredMsg.bytes).sum := by
      apply length_le_sum_of_one_le
      intro n hn
      obtain ⟨stored, hstored, rfl⟩ := mem_map.1 hn
      exact hpos stored hstored
    rw [length_map, ← haccounted.total] at hsum
    exact hsum.trans hle
  · rw [hone]
    show 1 ≤ historyBytes
    decide

section

variable (haccounted : inner.Accounted f) (hone : ∀ msg ∈ inner.messages, msg.operations.length ≤ 1)
  (hedits : inner.edits = some edits)
include haccounted hone hedits

theorem added_length_le : (added edits).length ≤ historyBytes := by
  have hlen : (added edits).length = (inner.messages.filterMap LogMsg.addedIndex).length := by
    rw [filterMap_messages hone, filterMap_addedIndex (edits_eq_some_iff.1 hedits)]
  rw [hlen]
  apply le_trans (length_filterMap_le _ _)
  rw [Inner.messages, length_map]
  exact length_le_historyBytes haccounted

/-- `start_from` gives the number of the entries that the history has. -/
theorem startFrom_eq (horder : InOrder edits) : startFrom inner = (added edits).length := by
  have hlen := added_length_le haccounted hone hedits
  unfold startFrom
  rw [filterMap_messages hone, filterMap_addedIndex (edits_eq_some_iff.1 hedits),
    horder.added_eq_range]
  generalize (added edits).length = n at hlen ⊢
  cases n with
  | zero => rfl
  | succ n =>
    have hmax : (range (n + 1)).max? = some n := by
      rw [max?_eq_some_iff]
      constructor
      · exact mem_range.2 (lt_succ_self n)
      · exact fun i hi => le_of_lt_succ (mem_range.1 hi)
    rw [hmax, length_range]
    apply saturatingAdd_of_le
    have hbytes : historyBytes < u64Max := by decide
    omega

end

def Inner.Adds (inner : Inner) (index : ℕ) : Prop :=
  ∃ operation ∈ inner.operations, operation.addedIndex = some index

theorem exists_addedIndex (h : inner.Adds i) :
    ∃ msg ∈ inner.messages, ∃ j, msg.addedIndex = some j := by
  obtain ⟨operation, hoperation, hi⟩ := h
  obtain ⟨msg, hmsg, hmem⟩ := mem_flatMap.1 hoperation
  refine ⟨msg, hmsg, Option.isSome_iff_exists.1 (findSome?_isSome_iff.2 ⟨operation, hmem, ?_⟩)⟩
  rw [hi]
  rfl

/-- `start_from` takes the first index that each patch adds: the next index is greater than all
    the others if and only if each is at most one of these, and less than `usize::MAX`. -/
theorem startFrom_gt_iff (inner : Inner) : (∀ i, inner.Adds i → i < startFrom inner) ↔
    ∀ i, inner.Adds i →
      i < u64Max ∧ ∃ msg ∈ inner.messages, ∃ j, msg.addedIndex = some j ∧ i ≤ j := by
  refine forall₂_congr fun i hi => ?_
  have hsome : (inner.messages.filterMap LogMsg.addedIndex).max?.isSome := by
    obtain ⟨msg, hmsg, j, hj⟩ := exists_addedIndex hi
    exact isSome_max?_of_mem (mem_filterMap.2 ⟨msg, hmsg, hj⟩)
  obtain ⟨m, hm⟩ := Option.isSome_iff_exists.1 hsome
  obtain ⟨hmem, hmax⟩ := max?_eq_some_iff.1 hm
  unfold startFrom saturatingAdd
  rw [hm]
  show i < min (m + 1) u64Max ↔ _
  rw [lt_min_iff, Order.lt_add_one_iff, and_comm]
  refine and_congr_right fun _ => ⟨fun hle => ?_, ?_⟩
  · obtain ⟨msg, hmsg, hj⟩ := mem_filterMap.1 hmem
    exact ⟨msg, hmsg, m, hj, hle⟩
  · rintro ⟨msg, hmsg, j, hj, hle⟩
    exact hle.trans (hmax j (mem_filterMap.2 ⟨msg, hmsg, hj⟩))

/-- A patch that adds two entries. -/
theorem startFrom_le_added :
    let inner : Inner := ⟨[⟨.jsonPatch [.add "/entries/0" .null, .add "/entries/1" .null], 0⟩], 0,
      none⟩
    inner.Adds 1 ∧ startFrom inner = 1 :=
  ⟨⟨.add "/entries/1" .null, mem_cons_of_mem _ mem_cons_self, by decide +kernel⟩, by decide +kernel⟩

/-! ## The invariant -/

theorem Stored.concat {edit' : Edit JsonValue} (h : Stored edit edit') (horder : InOrder edits)
    (hadd : edit.isAdd → edit.index = (added edits).length)
    (hreplace : edit.isAdd = false → edit.index < (added edits).length) :
    InOrder (edits ++ [edit']) ∧ (added (edits ++ [edit'])).length =
      if edit.isAdd then (added edits).length + 1 else (added edits).length := by
  rw [h.index, h.isAdd] at hadd hreplace
  rw [h.isAdd]
  cases edit' with
  | add i value =>
    refine ⟨horder.concat_add (hadd rfl) value, ?_⟩
    rw [added_concat_add, length_append]
    rfl
  | replace i value =>
    refine ⟨horder.concat_replace (horder.mem_added_iff.2 (hreplace rfl)) value, ?_⟩
    rw [added_concat_replace]
    rfl

/-- The patches that a task has still to push, when `published` entries are in the history: an
    entry is added once, and before it is replaced. -/
structure Producer.Queued (p : Producer) (published : ℕ) : Prop where
  owned : ∀ edit ∈ p.patches, edit.index ∈ p.owned
  once : (added p.patches).Nodup
  pending : ∀ i ∈ added p.patches, published ≤ i
  order : ∀ before i value after, p.patches = before ++ .replace i value :: after →
    i < published ∨ i ∈ added before

def Conversation.Pending (s : Conversation) (task i : ℕ) : Prop :=
  ∃ p, s.producers[task]? = some p ∧ i ∈ added p.patches

/-- The invariant: the indices are given out in order, and each of them is published or in the
    queue of the task that owns it. -/
structure Conversation.Consistent (s : Conversation) (edits : List (Edit JsonValue)) : Prop where
  allocated : s.allocated = range s.allocated.length
  provider : s.provider = s.allocated.length % (u64Max + 1)
  bounded : s.allocated.length ≤ u64Max + 1
  published : (added edits).length ≤ s.allocated.length
  history : s.inner.edits = some edits
  inOrder : InOrder edits
  stored : Forall₂ Stored (s.written.map Write.edit) edits
  producer : ∀ w ∈ s.written, ∀ task, w.task = some task → s.Owns task w.edit.index
  exclusive : ∀ task task' i, s.Owns task i → s.Owns task' i → task = task'
  owned : ∀ task i, s.Owns task i → i ∈ s.allocated
  queued : ∀ (task : ℕ) (p : Producer), s.producers[task]? = some p → p.Queued (added edits).length
  unpublished : ∀ i ∈ s.allocated, (added edits).length ≤ i → ∃ task, s.Pending task i

namespace Producer.Queued

variable {p : Producer} {n : ℕ}

theorem add (h : p.Queued n) {i : ℕ} (hi : i ∉ p.owned) (hn : n ≤ i) (value : JsonValue) :
    Queued ⟨i :: p.owned, p.patches ++ [.add i value]⟩ n where
  owned edit hedit := by
    rcases mem_append.1 hedit with hold | hnew
    · exact mem_cons_of_mem _ (h.owned edit hold)
    · rw [mem_singleton.1 hnew]
      exact mem_cons_self
  once := by
    show (added (p.patches ++ [.add i value])).Nodup
    rw [added_concat_add, nodup_append]
    refine ⟨h.once, nodup_singleton i, ?_⟩
    rintro j hj k hk rfl
    obtain ⟨edit, hedit, rfl⟩ := index_mem_of_mem_added hj
    rw [← mem_singleton.1 hk] at hi
    exact hi (h.owned edit hedit)
  pending j hj := by
    replace hj : j ∈ added (p.patches ++ [.add i value]) := hj
    rw [added_concat_add, mem_append, mem_singleton] at hj
    rcases hj with hj | rfl
    · exact h.pending j hj
    · exact hn
  order before j v after heq := by
    rcases concat_eq_append_cons heq with ⟨-, hedit, -⟩ | ⟨after, -, hold⟩
    · cases hedit
    · exact h.order before j v after hold

theorem replace (h : p.Queued n) {i : ℕ} (hi : i ∈ p.owned)
    (hadded : i < n ∨ i ∈ added p.patches) (value : JsonValue) :
    Queued ⟨p.owned, p.patches ++ [.replace i value]⟩ n where
  owned edit hedit := by
    rcases mem_append.1 hedit with hold | hnew
    · exact h.owned edit hold
    · rw [mem_singleton.1 hnew]
      exact hi
  once := by
    show (added (p.patches ++ [.replace i value])).Nodup
    rw [added_concat_replace]
    exact h.once
  pending j hj := by
    replace hj : j ∈ added (p.patches ++ [.replace i value]) := hj
    rw [added_concat_replace] at hj
    exact h.pending j hj
  order before j v after heq := by
    rcases concat_eq_append_cons heq with ⟨-, hedit, hbefore⟩ | ⟨after, -, hold⟩
    · cases hedit
      rw [← hbefore]
      exact hadded
    · exact h.order before j v after hold

theorem tail {edit : Edit JsonValue} {patches : List (Edit JsonValue)} (h : p.Queued n)
    (hp : p.patches = edit :: patches) (hadd : edit.isAdd → edit.index = n) :
    Queued ⟨p.owned, patches⟩ (if edit.isAdd then n + 1 else n) where
  owned edit hedit := h.owned edit (by rw [hp]; exact mem_cons_of_mem _ hedit)
  once := by
    have honce := h.once
    rw [hp] at honce
    cases edit with
    | add i value => exact (nodup_cons.1 honce).2
    | replace i value => exact honce
  pending j hj := by
    have honce := h.once
    have hpending := h.pending j
    rw [hp] at honce hpending
    cases edit with
    | add i value =>
      have hi : i = n := hadd rfl
      have hle : n ≤ j := hpending (mem_cons_of_mem _ hj)
      have hne : i ≠ j := by
        rintro rfl
        exact (nodup_cons.1 honce).1 hj
      show n + 1 ≤ j
      omega
    | replace i value => exact hpending hj
  order before j v after heq := by
    have horder := h.order (edit :: before) j v after (by
      rw [hp, show patches = _ from heq]
      rfl)
    cases edit with
    | add i value =>
      have hi : i = n := hadd rfl
      show j < n + 1 ∨ _
      rcases horder with hlt | hmem
      · exact .inl (lt_succ_of_lt hlt)
      · rcases mem_cons.1 hmem with rfl | hmem
        · exact .inl (by omega)
        · exact .inr hmem
    | replace i value => exact horder

theorem succ (h : p.Queued n) (hn : n ∉ added p.patches) : p.Queued (n + 1) where
  owned := h.owned
  once := h.once
  pending i hi := by
    apply lt_of_le_of_ne (h.pending i hi)
    rintro rfl
    exact hn hi
  order before i v after heq := (h.order before i v after heq).imp_left lt_succ_of_lt

end Producer.Queued

namespace Conversation

variable {s s' : Conversation} {edits : List (Edit JsonValue)} {task : ℕ} {p q : Producer}

section

variable (h : s.producers[task]? = some p)

include h

theorem getElem?_setProducer (task' : ℕ) : (s.setProducer task q).producers[task']? =
      if task = task' then some q else s.producers[task']? := by
  show (s.producers.set task q)[task']? = _
  rw [List.getElem?_set]
  obtain ⟨hlt, -⟩ := List.getElem?_eq_some_iff.1 h
  by_cases heq : task = task'
  · rw [if_pos heq, if_pos heq, if_pos hlt]
  · rw [if_neg heq, if_neg heq]

theorem forall_setProducer {P : Producer → Prop} (hq : P q)
    (hother : ∀ task' p', task ≠ task' → s.producers[task']? = some p' → P p') (task' : ℕ)
    (p' : Producer) (hp' : (s.setProducer task q).producers[task']? = some p') : P p' := by
  rw [getElem?_setProducer h] at hp'
  split_ifs at hp' with heq
  · rw [← Option.some.inj hp']
    exact hq
  · exact hother task' p' heq hp'

theorem owns_setProducer (task' i : ℕ) : (s.setProducer task q).Owns task' i ↔
      if task = task' then i ∈ q.owned else s.Owns task' i := by
  unfold Owns
  rw [getElem?_setProducer h]
  split_ifs
  · simp
  · rfl

theorem pending_setProducer (task' i : ℕ) : (s.setProducer task q).Pending task' i ↔
      if task = task' then i ∈ added q.patches else s.Pending task' i := by
  unfold Pending
  rw [getElem?_setProducer h]
  split_ifs
  · simp
  · rfl

theorem owns_iff (i : ℕ) : s.Owns task i ↔ i ∈ p.owned := by simp [Owns, h]

theorem owns_setProducer_of_eq (hq : q.owned = p.owned)
    (task' i : ℕ) : (s.setProducer task q).Owns task' i ↔ s.Owns task' i := by
  rw [owns_setProducer h, hq]
  split_ifs with heq
  · rw [← heq, owns_iff h]
  · rfl

end

namespace Consistent

variable {i : ℕ}

section

variable (h : s.Consistent edits)
include h

theorem mem_allocated_iff : i ∈ s.allocated ↔ i < s.allocated.length := by
  conv_lhs => rw [h.allocated, mem_range]

theorem index_le (hp : s.producers[task]? = some p) : ∀ edit ∈ p.patches, edit.index ≤ u64Max := by
  intro edit hedit
  have hmem := h.owned task _ ⟨p, hp, (h.queued task p hp).owned edit hedit⟩
  rw [h.mem_allocated_iff] at hmem
  have hbounded := h.bounded
  omega

theorem published_or_queued (hp : s.producers[task]? = some p)
    (hi : i ∈ p.owned) : i < (added edits).length ∨ i ∈ added p.patches := by
  by_cases hlt : i < (added edits).length
  · exact .inl hlt
  · right
    have howns : s.Owns task i := ⟨p, hp, hi⟩
    obtain ⟨task', p', hp', hmem⟩ := h.unpublished i (h.owned task i howns) (Nat.le_of_not_lt hlt)
    have howns' : s.Owns task' i := by
      obtain ⟨edit, hedit, rfl⟩ := index_mem_of_mem_added hmem
      exact ⟨p', hp', (h.queued task' p' hp').owned edit hedit⟩
    have heq := h.exclusive task task' i howns howns'
    rw [← heq, hp] at hp'
    rw [Option.some.inj hp']
    exact hmem

/-- As long as the counter has not wrapped, it gives out a new index. -/
theorem provider_eq (hlen : s.allocated.length ≤ u64Max) :
    s.provider = s.allocated.length ∧ s.provider ∉ s.allocated := by
  have hprovider := h.provider
  rw [mod_eq_of_lt (lt_succ_of_le hlen)] at hprovider
  refine ⟨hprovider, ?_⟩
  rw [h.mem_allocated_iff, hprovider]
  exact lt_irrefl _

end

variable {value : JsonValue}

section

variable (h : s.Consistent edits)

include h

theorem next (hlen : s.allocated.length ≤ u64Max)
    (hstep : s.step f (.next task value) = some s') : s'.Consistent edits := by
  obtain ⟨hprovider, hfresh⟩ := h.provider_eq hlen
  obtain ⟨p, hp, hstep⟩ := Option.bind_eq_some_iff.1 hstep
  cases hstep
  have hnew : ∀ task', ¬s.Owns task' s.provider := fun task' howns => hfresh (h.owned task' _ howns)
  generalize hq : Producer.mk (s.provider :: p.owned) (p.patches ++ [.add s.provider value]) = q
  have howns : ∀ task' i, (s.setProducer task q).Owns task' i ↔
      s.Owns task' i ∨ (task' = task ∧ i = s.provider) := by
    intro task' i
    rw [owns_setProducer hp, ← hq]
    split_ifs with heq
    · rw [← heq, owns_iff hp, mem_cons]
      tauto
    · have hne : task' ≠ task := Ne.symm heq
      tauto
  refine ⟨?_, ?_, ?_, ?_, h.history, h.inOrder, h.stored, ?_, ?_, ?_, ?_, ?_⟩
  · show s.allocated ++ [s.provider] = range (s.allocated ++ [s.provider]).length
    rw [length_append, length_singleton, range_succ, ← h.allocated, hprovider]
  · show (s.provider + 1) % (u64Max + 1) = (s.allocated ++ [s.provider]).length % (u64Max + 1)
    rw [length_append, length_singleton, hprovider]
  · show (s.allocated ++ [s.provider]).length ≤ u64Max + 1
    rw [length_append, length_singleton]
    omega
  · show _ ≤ (s.allocated ++ [s.provider]).length
    rw [length_append]
    exact le_add_right_of_le h.published
  · intro w hw task' htask'
    exact (howns task' _).2 (.inl (h.producer w hw task' htask'))
  · intro task₁ task₂ i h₁ h₂
    rcases (howns task₁ i).1 h₁ with hold₁ | ⟨rfl, rfl⟩
    · rcases (howns task₂ i).1 h₂ with hold₂ | ⟨rfl, rfl⟩
      · exact h.exclusive task₁ task₂ i hold₁ hold₂
      · exact absurd hold₁ (hnew task₁)
    · rcases (howns task₂ _).1 h₂ with hold₂ | ⟨rfl, -⟩
      · exact absurd hold₂ (hnew task₂)
      · rfl
  · intro task' i hi
    show i ∈ s.allocated ++ [s.provider]
    rw [mem_append, mem_singleton]
    exact ((howns task' i).1 hi).imp (h.owned task' i) And.right
  · apply forall_setProducer (P := (Producer.Queued · (added edits).length)) hp
    · rw [← hq]
      apply (h.queued task p hp).add _ (hprovider ▸ h.published)
      exact fun hmem => hnew task ⟨p, hp, hmem⟩
    · exact fun task' p' _ => h.queued task' p'
  · intro i hi hle
    show ∃ task', (s.setProducer task q).Pending task' i
    have hadded : added q.patches = added p.patches ++ [s.provider] := by
      rw [← hq]
      exact added_concat_add
    rcases mem_append.1 hi with hold | hlast
    · obtain ⟨task', p', hp', hmem⟩ := h.unpublished i hold hle
      refine ⟨task', (pending_setProducer hp task' i).2 ?_⟩
      split_ifs with heq
      · rw [← heq, hp] at hp'
        rw [hadded, Option.some.inj hp']
        exact mem_append_left _ hmem
      · exact ⟨p', hp', hmem⟩
    · refine ⟨task, (pending_setProducer hp task i).2 ?_⟩
      rw [if_pos rfl, hadded]
      exact mem_append_right _ hlast

theorem replace (hstep : s.step f (.replace task i value) = some s') : s'.Consistent edits := by
  obtain ⟨p, hp, hstep⟩ := Option.bind_eq_some_iff.1 hstep
  split_ifs at hstep with hi
  cases hstep
  generalize hq : Producer.mk p.owned (p.patches ++ [.replace i value]) = q
  have howns := owns_setProducer_of_eq (q := q) hp (by rw [← hq])
  refine ⟨h.allocated, h.provider, h.bounded, h.published, h.history, h.inOrder, h.stored, ?_, ?_,
    ?_, ?_, ?_⟩
  · exact fun w hw task' htask' => (howns task' _).2 (h.producer w hw task' htask')
  · intro task₁ task₂ j h₁ h₂
    exact h.exclusive task₁ task₂ j ((howns task₁ j).1 h₁) ((howns task₂ j).1 h₂)
  · exact fun task' j hj => h.owned task' j ((howns task' j).1 hj)
  · apply forall_setProducer (P := (Producer.Queued · (added edits).length)) hp
    · rw [← hq]
      exact (h.queued task p hp).replace hi (h.published_or_queued hp hi) value
    · exact fun task' p' _ => h.queued task' p'
  · intro j hj hle
    obtain ⟨task', p', hp', hmem⟩ := h.unpublished j hj hle
    refine ⟨task', (pending_setProducer hp task' j).2 ?_⟩
    split_ifs with heq
    · rw [← heq, hp] at hp'
      rw [← hq, Option.some.inj hp']
      show j ∈ added (p'.patches ++ [.replace i value])
      rw [added_concat_replace]
      exact hmem
    · exact ⟨p', hp', hmem⟩

theorem index_eq (hp : s.producers[task]? = some p) (hi : i ∈ added p.patches)
    (hfirst : ∀ p' ∈ s.producers, ∀ j ∈ added p'.patches, i ≤ j) : i = (added edits).length := by
  have hle := (h.queued task p hp).pending i hi
  have hlt : i ∈ s.allocated := by
    obtain ⟨edit, hedit, rfl⟩ := index_mem_of_mem_added hi
    exact h.owned task _ ⟨p, hp, (h.queued task p hp).owned edit hedit⟩
  rw [h.mem_allocated_iff] at hlt
  obtain ⟨task', p', hp', hmem⟩ :=
    h.unpublished _ (h.mem_allocated_iff.2 (lt_of_le_of_lt hle hlt)) (le_refl _)
  exact le_antisymm (hfirst p' (mem_of_getElem? hp') _ hmem) hle

theorem pending_exclusive {task' : ℕ} {p' : Producer}
    (hp : s.producers[task]? = some p) (hp' : s.producers[task']? = some p')
    (hi : i ∈ added p.patches) (hi' : i ∈ added p'.patches) : task = task' := by
  obtain ⟨edit, hedit, rfl⟩ := index_mem_of_mem_added hi
  obtain ⟨edit', hedit', heq⟩ := index_mem_of_mem_added hi'
  apply h.exclusive task task' edit.index ⟨p, hp, (h.queued task p hp).owned edit hedit⟩
  rw [← heq]
  exact ⟨p', hp', (h.queued task' p' hp').owned edit' hedit'⟩

theorem replaced_lt (hp : s.producers[task]? = some p) {patches : List (Edit JsonValue)}
    (hpatches : p.patches = .replace i value :: patches) : i < (added edits).length := by
  rcases (h.queued task p hp).order [] i value patches hpatches with hlt | hmem
  · exact hlt
  · cases hmem

end

variable {now : String}

section

variable (h : s.Consistent edits)
include h

theorem history_push (hp : s.producers[task]? = some p)
    {edit : Edit JsonValue} (hedit : edit ∈ p.patches)
    (hkeeps : s.KeepsPatches f (.jsonPatch (conversationPatch edit)) now) :
    ∃ edit', Stored edit edit' ∧
      (s.inner.record f (.jsonPatch (conversationPatch edit)) now).1.edits =
        some (edits ++ [edit']) := by
  obtain ⟨edit', hstored, hmsg⟩ := enriched_conversationPatch (f := f) s.inner edit now
  refine ⟨edit', hstored, ?_⟩
  have hle : edit'.index ≤ u64Max := hstored.index ▸ h.index_le hp edit hedit
  have hold : s.inner.operations.mapM edit? = some edits := h.history
  unfold Inner.edits
  rw [operations_record hkeeps, hmsg, mapM_append, hold]
  show (do
    let edits' ← (conversationPatch edit').mapM edit?
    return edits ++ edits') = _
  rw [edits_conversationPatch hle]
  rfl

theorem push (hturn : s.InTurn f (.push task now))
    (hstep : s.step f (.push task now) = some s') : ∃ edits', s'.Consistent edits' := by
  obtain ⟨p, hp, hstep⟩ := Option.bind_eq_some_iff.1 hstep
  obtain ⟨edit, hhead, hstep⟩ := Option.bind_eq_some_iff.1 hstep
  cases hstep
  obtain ⟨patches, hpatches⟩ := head?_eq_some_iff.1 hhead
  obtain ⟨hfirst, hkeeps⟩ : (edit.isAdd → ∀ p ∈ s.producers, ∀ i ∈ added p.patches,
      edit.index ≤ i) ∧ s.KeepsPatches f (.jsonPatch (conversationPatch edit)) now := by
    unfold InTurn at hturn
    simp only [hp, Option.bind_some, hhead] at hturn
    exact hturn
  have hmem : edit ∈ p.patches := hpatches ▸ mem_cons_self
  have hindex : edit.isAdd → edit.index = (added edits).length := by
    intro hadd
    exact h.index_eq hp (mem_added hmem hadd) (hfirst hadd)
  obtain ⟨edit', hstored, hhistory⟩ := h.history_push hp hmem hkeeps
  obtain ⟨horder, hlen⟩ := hstored.concat h.inOrder hindex fun hreplace => by
    cases edit with
    | add i value => cases hreplace
    | replace i value => exact h.replaced_lt hp hpatches
  have htail := (h.queued task p hp).tail hpatches hindex
  rw [hpatches, tail_cons]
  generalize hq : Producer.mk p.owned patches = q at htail
  have howns := owns_setProducer_of_eq (q := q) hp (by rw [← hq])
  refine ⟨edits ++ [edit'], h.allocated, h.provider, h.bounded, ?_, hhistory, horder, ?_, ?_, ?_,
    ?_, ?_, ?_⟩
  · rw [hlen]
    split_ifs with hadd
    · have hallocated := h.owned task _ ⟨p, hp, (h.queued task p hp).owned edit hmem⟩
      rw [hindex hadd, h.mem_allocated_iff] at hallocated
      exact hallocated
    · exact h.published
  · show Forall₂ Stored ((s.written ++ [Write.mk (some task) edit]).map Write.edit)
      (edits ++ [edit'])
    rw [map_append]
    exact rel_append h.stored (.cons hstored .nil)
  · intro w hw task' htask'
    apply (howns task' _).2
    rcases mem_append.1 hw with hold | hnew
    · exact h.producer w hold task' htask'
    · rw [mem_singleton.1 hnew] at htask' ⊢
      cases htask'
      exact ⟨p, hp, (h.queued task p hp).owned edit hmem⟩
  · intro task₁ task₂ j h₁ h₂
    exact h.exclusive task₁ task₂ j ((howns task₁ j).1 h₁) ((howns task₂ j).1 h₂)
  · exact fun task' j hj => h.owned task' j ((howns task' j).1 hj)
  · rw [hlen]
    apply forall_setProducer (P := (Producer.Queued · (if edit.isAdd then
      (added edits).length + 1 else (added edits).length))) hp
    · rw [← hq] at htail ⊢
      exact htail
    · intro task' p' hne hp'
      split_ifs with hadd
      · apply (h.queued task' p' hp').succ
        rw [← hindex hadd]
        intro hmem'
        exact hne (h.pending_exclusive hp hp' (mem_added hmem hadd) hmem')
      · exact h.queued task' p' hp'
  · intro j hj hle
    rw [hlen] at hle
    obtain ⟨task', p', hp', hmem'⟩ := h.unpublished j hj (by split_ifs at hle <;> omega)
    refine ⟨task', (pending_setProducer hp task' j).2 ?_⟩
    split_ifs with heq
    · rw [← heq, hp] at hp'
      rw [← hq]
      rw [← Option.some.inj hp', hpatches] at hmem'
      cases edit with
      | add i value =>
        rcases mem_cons.1 hmem' with rfl | hrest
        · have hi : j = (added edits).length := hindex rfl
          replace hle : (added edits).length + 1 ≤ j := hle
          omega
        · exact hrest
      | replace i value => exact hmem'
    · exact ⟨p', hp', hmem'⟩

theorem log (hturn : s.InTurn f (.log msg now))
    (hstep : s.step f (.log msg now) = some s') : s'.Consistent edits := by
  have hkeeps : s.KeepsPatches f msg now := hturn
  have hmsg : msg.operations = [] ∧ s' = { s with inner := (s.inner.record f msg now).1 } := by
    simp only [step] at hstep
    split at hstep <;> cases hstep
    rename_i hpatch
    refine ⟨?_, rfl⟩
    cases msg with
    | jsonPatch patch => exact absurd rfl (hpatch patch)
    | _ => rfl
  obtain ⟨hempty, rfl⟩ := hmsg
  refine ⟨h.allocated, h.provider, h.bounded, h.published, ?_, h.inOrder, h.stored, h.producer,
    h.exclusive, h.owned, h.queued, h.unpublished⟩
  show (s.inner.record f msg now).1.operations.mapM edit? = some edits
  rw [operations_record hkeeps, enriched_eq_of_not_patch hempty, append_nil]
  exact h.history

end

theorem step {a : ConversationAction} (h : s.Consistent edits) (hturn : s.InTurn f a)
    (hstep : s.step f a = some s') : ∃ edits', s'.Consistent edits' := by
  cases a with
  | next task value => exact ⟨edits, h.next hturn hstep⟩
  | replace task index value => exact ⟨edits, h.replace hstep⟩
  | push task now => exact h.push hturn hstep
  | log msg now => exact ⟨edits, h.log hturn hstep⟩

theorem builds (h : s.Consistent edits) : s.Ordered := by
  obtain ⟨entries, happlies, -, hseated⟩ := h.inOrder.applyAll
  exact ⟨edits, entries, h.history, h.inOrder, happlies, hseated, h.stored, h.producer, h.exclusive⟩

end Consistent

theorem consistent_of_seeded (h : s.Seeded f) : ∃ edits, s.Consistent edits := by
  obtain ⟨inner, edits, tasks, haccounted, hone, hedits, horder, rfl⟩ := h
  have hlen := added_length_le haccounted hone hedits
  have hbytes : historyBytes ≤ u64Max := by decide
  have hidle : ∀ (task : ℕ) (p : Producer),
      (replicate tasks (Producer.mk [] []))[task]? = some p → p = ⟨[], []⟩ :=
    fun task p hp => eq_of_mem_replicate (mem_of_getElem? hp)
  refine ⟨edits, ?_, ?_, ?_, ?_, hedits, horder, ?_, ?_, ?_, ?_, ?_, ?_⟩
  · show range _ = range (range _).length
    rw [length_range]
  · show startFrom inner = (range _).length % (u64Max + 1)
    rw [length_range, startFrom_eq haccounted hone hedits horder, mod_eq_of_lt (by omega)]
  · show (range _).length ≤ u64Max + 1
    rw [length_range]
    omega
  · show _ ≤ (range _).length
    rw [length_range]
  · show Forall₂ Stored ((edits.map (⟨none, ·⟩)).map Write.edit) edits
    rw [map_map, show Write.edit ∘ (Write.mk none) = id from rfl, map_id]
    exact forall₂_same.2 fun edit _ => ⟨rfl, rfl, .inl rfl⟩
  · intro w hw task htask
    obtain ⟨edit, -, rfl⟩ := mem_map.1 hw
    cases htask
  · rintro task task' i ⟨p, hp, hi⟩ -
    rw [hidle task p hp] at hi
    cases hi
  · rintro task i ⟨p, hp, hi⟩
    rw [hidle task p hp] at hi
    cases hi
  · intro task p hp
    rw [hidle task p hp]
    exact ⟨nofun, nodup_nil, nofun, fun before i v after heq => by simp at heq⟩
  · intro i hi hle
    rw [mem_range] at hi
    omega

/-- In a run that pushes each `add` in its turn, the history is at every time applicable, and each
    entry is where its producer allocated it. -/
theorem adds_in_order (h : Reachable (step f) (InTurn f) (Seeded f) s) : s.Ordered := by
  have hconsistent : ∃ edits, s.Consistent edits := by
    apply h.invariant
    · exact fun s hs => consistent_of_seeded hs
    · rintro s a s' ⟨edits, hs⟩ hturn hstep
      exact hs.step hturn hstep
  obtain ⟨edits, hs⟩ := hconsistent
  exact hs.builds

instance (f : Formats) (s : Conversation) (a : ConversationAction) : Decidable (s.InTurn f a) :=
  match a with
  | .next _ _ => inferInstanceAs (Decidable (_ ≤ _))
  | .replace _ _ _ => inferInstanceAs (Decidable True)
  | .push task now =>
    match h : s.producers[task]?.bind (·.patches.head?) with
    | some edit => decidable_of_iff
        ((edit.isAdd → ∀ p ∈ s.producers, ∀ i ∈ added p.patches, edit.index ≤ i) ∧
          s.KeepsPatches f (.jsonPatch (conversationPatch edit)) now) (by simp [InTurn, h])
    | none => decidable_of_iff True (by simp [InTurn, h])
  | .log msg now => inferInstanceAs (Decidable (s.KeepsPatches f msg now))

/-- An empty store that two tasks share. -/
def exampleConversation : Conversation :=
  ⟨startFrom ⟨[], 0, none⟩, ⟨[], 0, none⟩, replicate 2 ⟨[], []⟩, [], []⟩

theorem seeded_exampleConversation : exampleConversation.Seeded exampleFormats :=
  ⟨⟨[], 0, none⟩, [], 2, ⟨nofun, rfl, .inl (zero_le _)⟩, nofun, rfl, .nil, rfl⟩

/-- The entries that the history builds, when they are text. -/
def texts (s : Conversation) : Option (List (Option String)) :=
  (s.inner.edits.bind (applyAll · [])).map (map JsonValue.asStr)

/-- Two tasks publish in the order of their indices, and the first one replaces its entry. -/
def exampleInTurn : List ConversationAction :=
  [.next 0 (.string "out"), .next 1 (.string "err"), .replace 0 0 (.string "output"),
    .push 0 "", .push 1 "", .push 0 ""]

theorem ordered_inTurn : ∃ s : Conversation,
    s.Ordered ∧ s.texts = some [some "output", some "err"] := by
  have hexec : (exec (step Store.exampleFormats) (InTurn Store.exampleFormats) exampleConversation
      exampleInTurn).map texts = some (some [some "output", some "err"]) := by decide +kernel
  obtain ⟨s, hs, htexts⟩ := Option.map_eq_some_iff.1 hexec
  exact ⟨s, adds_in_order (reachable_of_exec seeded_exampleConversation hs), htexts⟩

/-- The task with the second index publishes first. -/
def exampleOvertaken : List ConversationAction :=
  [.next 0 (.string "out"), .next 1 (.string "err"), .push 1 ""]

/-- The tasks need not publish in the order of their indices: then an `add` is out of range. -/
theorem add_overtaken : ∃ s,
    Reachable (step Store.exampleFormats) anyStep (Seeded Store.exampleFormats) s ∧ ¬s.Ordered := by
  have hexec : (exec (step Store.exampleFormats) anyStep exampleConversation
      exampleOvertaken).map texts = some none := by decide +kernel
  obtain ⟨s, hs, htexts⟩ := Option.map_eq_some_iff.1 hexec
  refine ⟨s, reachable_of_exec seeded_exampleConversation hs, ?_⟩
  rintro ⟨edits, entries, hbuilds⟩
  unfold texts at htexts
  rw [hbuilds.history, Option.bind_some, hbuilds.applies] at htexts
  cases htexts

end Conversation

end VibeKanban.Messages
