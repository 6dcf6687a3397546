import VibeKanban.Cluster.Protocol
import VibeKanban.Lib.Base64
import VibeKanban.Lib.Utf8

/-!
# From a process's standard output to the message store

The output of an agent reaches the `MsgStore` on three paths, each of which decodes every chunk on
its own: the worker's journal (`stream_output` in `worker/src/execution.rs`, `push_worker_bytes` in
`local-deployment/src/container.rs`), a local child's pipe (`track_child_msgs_in_store`) and a raw
log file (`track_raw_file_msgs_in_store`).

* `stdoutText_eq_iff`: the text is kept exactly if no chunk ends inside a character.
-/

namespace VibeKanban.Output

open Cluster Lib List

/-! ## Model -/

/-- The messages of a `MsgStore`, oldest first. -/
abbrev MsgStore := List LogMsg

/-- `MsgStore::push`. -/
def MsgStore.push (store : MsgStore) (message : LogMsg) : MsgStore := store ++ [message]

/-- `String::from_utf8_lossy`. -/
def fromUtf8Lossy (bytes : List UInt8) : String := String.ofList (Utf8.lossy bytes)

/-- The event of a chunk in `stream_output` (worker, lines 1714-1720). -/
def streamOutput (base64 : Base64.Codec) (stderr : Bool) (chunk : List UInt8) :
    ExecutionEventPayload :=
  let dataBase64 := base64.encode chunk
  if stderr then .stderr dataBase64 else .stdout dataBase64

/-- `push_worker_bytes` (container, lines 1039-1054). -/
def pushWorkerBytes (base64 : Base64.Codec) (store : MsgStore) (encoded : String)
    (stderr : Bool) : MsgStore :=
  match base64.decode encoded with
  | .ok bytes =>
    let message := fromUtf8Lossy bytes
    if stderr then store.push (.stderr message) else store.push (.stdout message)
  | .error error => store.push (.stderr ("Worker returned invalid base64 output: " ++ error))

/-- The tracker's handling of an output event (container, lines 3561-3567). -/
def pushOutputEvent (base64 : Base64.Codec) (store : MsgStore) : ExecutionEventPayload → MsgStore
  | .stdout dataBase64 => pushWorkerBytes base64 store dataBase64 false
  | .stderr dataBase64 => pushWorkerBytes base64 store dataBase64 true
  | _ => store

/-- The three ways in which standard output is read. -/
inductive Path where
  /-- a worker's 8 KiB reads, through the journal -/
  | worker
  /-- the chunks of a `ReaderStream` on a local child's pipe -/
  | child
  /-- 64 KiB reads of a raw log file -/
  | rawFile

/-- The messages that a path pushes for the chunks it reads. -/
def Path.push (base64 : Base64.Codec) (chunks : List (List UInt8)) : Path → MsgStore
  | .worker => (chunks.map (streamOutput base64 false)).foldl (pushOutputEvent base64) []
  | .child => (chunks.map fun chunk => LogMsg.stdout (fromUtf8Lossy chunk)).foldl MsgStore.push []
  | .rawFile =>
    chunks.foldl (fun store chunk => MsgStore.push store (.stdout (fromUtf8Lossy chunk))) []

/-- The text of a `Stdout` message. -/
def stdoutOf : LogMsg → List Char
  | .stdout text => text.toList
  | _ => []

/-- The concatenation of the `Stdout` strings in a store. -/
def stdoutText (store : MsgStore) : String := String.ofList (store.flatMap stdoutOf)

/-! ## What the paths push -/

theorem stdoutOf_fromUtf8Lossy (bytes : List UInt8) :
    stdoutOf (.stdout (fromUtf8Lossy bytes)) = Utf8.lossy bytes := by
  rw [stdoutOf, fromUtf8Lossy, String.toList_ofList]

/-- A chunk that went through the journal is pushed decoded, like any other. -/
theorem pushOutputEvent_streamOutput (base64 : Base64.Codec) (store : MsgStore)
    (chunk : List UInt8) : pushOutputEvent base64 store (streamOutput base64 false chunk) =
      store.push (.stdout (fromUtf8Lossy chunk)) := by
  simp [streamOutput, pushOutputEvent, pushWorkerBytes, base64.decode_encode]

theorem foldl_push (store : MsgStore) (chunks : List (List UInt8)) :
    chunks.foldl (fun store chunk => MsgStore.push store (.stdout (fromUtf8Lossy chunk))) store =
      store ++ chunks.map fun chunk => LogMsg.stdout (fromUtf8Lossy chunk) := by
  induction chunks generalizing store with
  | nil => simp
  | cons chunk chunks ih =>
    rw [foldl_cons, ih, MsgStore.push, append_assoc]
    rfl

section

variable (base64 : Base64.Codec) (chunks : List (List UInt8)) (path : Path)
include base64 chunks path

theorem push_eq :
    path.push base64 chunks = chunks.map fun chunk => LogMsg.stdout (fromUtf8Lossy chunk) := by
  cases path with
  | worker =>
    rw [Path.push, foldl_map]
    simp only [pushOutputEvent_streamOutput]
    rw [foldl_push, nil_append]
  | child => rw [Path.push, foldl_map, foldl_push, nil_append]
  | rawFile => rw [Path.push, foldl_push, nil_append]

theorem stdoutText_push :
    stdoutText (path.push base64 chunks) = String.ofList (chunks.flatMap Utf8.lossy) := by
  rw [push_eq, stdoutText, flatMap_map]
  simp only [stdoutOf_fromUtf8Lossy]

end

/-- On every path and for every split of a valid stream into chunks, the
    store holds the stream's text exactly when no chunk ends inside a character. -/
theorem stdoutText_eq_iff (base64 : Base64.Codec) (path : Path) (text : String)
    {chunks : List (List UInt8)} (hstream : chunks.flatten = Utf8.encode text.toList)
    (hne : ∀ chunk ∈ chunks, chunk ≠ []) :
    stdoutText (path.push base64 chunks) = text ↔ ∀ chunk ∈ chunks, Utf8.Valid chunk := by
  rw [stdoutText_push, ← Utf8.lossy_chunks_eq_iff hstream hne]
  constructor
  · intro h
    rw [← h, String.toList_ofList]
  · intro h
    rw [h, String.ofList_toList]

/-- The two bytes of an `é` that arrive in different chunks become two replacement characters,
    on every path. -/
theorem straddling_character_altered : [[0xC3], [0xA9]].flatten = Utf8.encode "é".toList ∧
      ∀ path : Path, stdoutText (path.push Base64.standard [[0xC3], [0xA9]]) = "\uFFFD\uFFFD" ∧
          stdoutText (path.push Base64.standard [[0xC3], [0xA9]]) ≠ "é" := by
  refine ⟨by decide +kernel, fun path => ?_⟩
  rw [stdoutText_push]
  exact ⟨by decide +kernel, by decide +kernel⟩

/-- Chunks that end between two characters keep the text, on every path. -/
theorem whole_characters_kept :
    [[0x61, 0xC3, 0xA9], [0xE2, 0x82, 0xAC, 0x62]].flatten = Utf8.encode "aé€b".toList ∧
      ∀ path : Path, stdoutText (path.push Base64.standard
        [[0x61, 0xC3, 0xA9], [0xE2, 0x82, 0xAC, 0x62]]) = "aé€b" := by
  have hstream : [[0x61, 0xC3, 0xA9], [0xE2, 0x82, 0xAC, 0x62]].flatten =
      Utf8.encode "aé€b".toList := by decide +kernel
  refine ⟨hstream, fun path =>
    (stdoutText_eq_iff Base64.standard path "aé€b" hstream (by decide)).2 ?_⟩
  intro chunk hchunk
  rcases mem_pair.1 hchunk with rfl | rfl
  · exact ⟨"aé".toList, by decide +kernel⟩
  · exact ⟨"€b".toList, by decide +kernel⟩

end VibeKanban.Output
