import VibeKanban.Cluster.Protocol
import VibeKanban.Lib.Json

/-!
# Log messages and the times of their entries (`utils/src/log_msg.rs`, `utils/src/msg_store.rs`)

A message is text or a JSON patch on the list of entries. A live store dates the entries that its
patches add or replace: it remembers one time for each index and moves the times with the entries.
-/

namespace VibeKanban.Messages

open Lib Cluster

/-! ## Messages -/

/-- `isize::MAX`, the largest size of an allocation. `usize` is `u64`. -/
def isizeMax : ℕ := 2 ^ 63 - 1

/-- A `String` that is held in memory. -/
abbrev Text := { s : String // s.utf8ByteSize ≤ isizeMax }

def Text.len (text : Text) : ℕ := text.1.utf8ByteSize

/-- `json_patch::PatchOperation` -/
inductive PatchOperation where
  | add (path : String) (value : JsonValue)
  | remove (path : String)
  | replace (path : String) (value : JsonValue)
  | move (source path : String)
  | copy (source path : String)
  | test (path : String) (value : JsonValue)
  deriving BEq

abbrev Patch := List PatchOperation

inductive LogMsg where
  | stdout (text : Text)
  | stderr (text : Text)
  | jsonPatch (patch : Patch)
  | sessionId (id : Text)
  | messageId (id : Text)
  | ready
  | finished

/-- The names of the events (lines 5-11). -/
def LogMsg.name : LogMsg → String
  | .stdout _ => "stdout"
  | .stderr _ => "stderr"
  | .jsonPatch _ => "json_patch"
  | .sessionId _ => "session_id"
  | .messageId _ => "message_id"
  | .ready => "ready"
  | .finished => "finished"

/-- `OVERHEAD` of `approx_bytes` -/
def overhead : ℕ := 8

/-- `approx_bytes` (lines 69-83); `toJson` is `serde_json::to_string`. -/
def LogMsg.approxBytes (toJson : Patch → Option Text) (msg : LogMsg) : ℕ :=
  match msg with
  | .stdout s | .stderr s | .sessionId s | .messageId s => msg.name.utf8ByteSize + s.len + overhead
  | .jsonPatch patch => msg.name.utf8ByteSize + ((toJson patch).map Text.len).getD 2 + overhead
  | .ready | .finished => msg.name.utf8ByteSize + overhead

theorem name_le (msg : LogMsg) : msg.name.utf8ByteSize ≤ 10 := by
  cases msg with
  | stdout s => show "stdout".utf8ByteSize ≤ 10; decide
  | stderr s => show "stderr".utf8ByteSize ≤ 10; decide
  | jsonPatch patch => show "json_patch".utf8ByteSize ≤ 10; decide
  | sessionId s => show "session_id".utf8ByteSize ≤ 10; decide
  | messageId s => show "message_id".utf8ByteSize ≤ 10; decide
  | ready => decide
  | finished => decide

theorem approxBytes_le (toJson : Patch → Option Text) (msg : LogMsg) :
    msg.approxBytes toJson ≤ u64Max := by
  have hname := name_le msg
  have hbytes : ∀ n, n ≤ isizeMax → msg.name.utf8ByteSize + n + overhead ≤ u64Max := by
    intro n hn
    unfold isizeMax at hn
    unfold overhead u64Max
    omega
  cases msg with
  | stdout s | stderr s | sessionId s | messageId s => exact hbytes s.len s.2
  | jsonPatch patch =>
    show _ + ((toJson patch).map Text.len).getD 2 + overhead ≤ u64Max
    apply hbytes
    cases toJson patch with
    | some s => exact s.2
    | none => show 2 ≤ isizeMax; decide
  | ready | finished => exact hbytes 0 (Nat.zero_le _)

/-! ## The times of the entries -/

def maxEntryTimestamps : ℕ := 100000

/-- `str::parse::<usize>`: digits, after an optional plus sign. -/
def parseUsize (s : List Char) : Option ℕ :=
  let digits := match s with
    | '+' :: rest => rest
    | _ => s
  if digits = [] ∨ digits.any (fun c => !c.isDigit) then none
  else
    let n := digits.foldl (fun n c => 10 * n + (c.toNat - '0'.toNat)) 0
    if n ≤ u64Max then some n else none

/-- `entry_index` (lines 34-36). -/
def entryIndex (path : String) : Option ℕ :=
  let root := "/entries/".toList
  if root.isPrefixOf path.toList then parseUsize (path.toList.drop root.length) else none

/-- `EntryTimestamps`, the map as a list of its entries. -/
structure EntryTimestamps where
  times : List (ℕ × String)
  keyed : Keyed Prod.fst times
  bounded : times.length ≤ maxEntryTimestamps

namespace EntryTimestamps

/-- `EntryTimestamps::default` -/
def default : EntryTimestamps := ⟨[], Keyed.nil, Nat.zero_le _⟩

variable (t : EntryTimestamps)

def get (index : ℕ) : Option String := t.times.lookup index

def containsKey (index : ℕ) : Bool := t.times.any fun entry => entry.1 == index

def remove (index : ℕ) : EntryTimestamps where
  times := delete (fun entry => entry.1 == index) t.times
  keyed := t.keyed.delete
  bounded := le_trans (List.length_filter_le _ _) t.bounded

/-- `insert` for an index that is there, or while there is room. -/
def record (index : ℕ) (time : String) : EntryTimestamps :=
  if h : t.containsKey index then
    { times := update (fun entry => entry.1 == index) (fun entry => (entry.1, time)) t.times
      keyed := t.keyed.update fun _ => rfl
      bounded := by
        rw [length_update]
        exact t.bounded }
  else if hlen : t.times.length < maxEntryTimestamps then
    { times := t.times ++ [(index, time)]
      keyed := by
        apply t.keyed.concat
        intro entry hmem heq
        exact h (List.any_eq_true.2 ⟨entry, hmem, beq_iff_eq.2 heq⟩)
      bounded := by
        rw [List.length_append]
        exact hlen }
  else t

/-- The entries from `index` on move up by one; a key that would overflow is dropped. -/
def shiftUp (index : ℕ) : EntryTimestamps where
  times := t.times.filterMap fun entry =>
    if index ≤ entry.1 then (checkedAdd entry.1 1).map fun key => (key, entry.2) else some entry
  keyed := by
    apply t.keyed.filterMap
    intro a ha b hb a' b' hfa hfb heq
    split_ifs at hfa hfb <;> grind [checkedAdd]
  bounded := le_trans (List.length_filterMap_le _ _) t.bounded

/-- The entry `index` goes and those after it move down by one. -/
def shiftDown (index : ℕ) : EntryTimestamps where
  times := (t.remove index).times.filterMap fun entry =>
    if index ≤ entry.1 then some (entry.1 - 1, entry.2) else some entry
  keyed := by
    apply (t.remove index).keyed.filterMap
    intro a ha b hb a' b' hfa hfb heq
    have hane := (mem_delete.1 ha).2
    have hbne := (mem_delete.1 hb).2
    split_ifs at hfa hfb <;> grind
  bounded := le_trans (List.length_filterMap_le _ _) (t.remove index).bounded

end EntryTimestamps

section

variable (isRfc3339 : String → Bool) (now : String)

/-- The part of `enrich` for an entry that is added or replaced (lines 55-97). -/
def enrichEntry (t : EntryTimestamps) (path : String) (value : JsonValue) (inserts : Bool) :
    EntryTimestamps × JsonValue :=
  if path = "/entries" then (EntryTimestamps.default, value)
  else
    match entryIndex path with
    | none => (t, value)
    | some index =>
      let t := if inserts then t.shiftUp index else t
      if (value.get "type").bind JsonValue.asStr ≠ some "NORMALIZED_ENTRY" then
        (t.remove index, value)
      else
        match (value.get "content").bind JsonValue.asObject with
        | none => (t, value)
        | some content =>
          let source := ((content.lookup "timestamp").bind JsonValue.asStr).filter isRfc3339
          let timestamp := (source.or (t.get index)).or
            (if t.times.length < maxEntryTimestamps then some now else none)
          match timestamp with
          | none => (t, value)
          | some timestamp =>
            let content := JsonValue.insert "timestamp" (.string timestamp) content
            (t.record index timestamp, value.set "content" (.object content))

/-- The body of the loop of `enrich` (lines 40-98). -/
def enrichOperation (t : EntryTimestamps) : PatchOperation → EntryTimestamps × PatchOperation
  | .add path value =>
    let (t, value) := enrichEntry isRfc3339 now t path value true
    (t, .add path value)
  | .replace path value =>
    let (t, value) := enrichEntry isRfc3339 now t path value false
    (t, .replace path value)
  | .remove path =>
    if path = "/entries" then (EntryTimestamps.default, .remove path)
    else
      match entryIndex path with
      | some index => (t.shiftDown index, .remove path)
      | none => (t, .remove path)
  | operation => (t, operation)

/-- `enrich` (lines 39-99). -/
def enrich (t : EntryTimestamps) : Patch → EntryTimestamps × Patch
  | [] => (t, [])
  | operation :: patch =>
    let (t, operation) := enrichOperation isRfc3339 now t operation
    let (t, patch) := enrich t patch
    (t, operation :: patch)

end

end VibeKanban.Messages
