import VibeKanban.Lib.Chunks

/-!
# Fragments of a data-channel message (`relay-webrtc/src/fragment.rs`)

A message is sent in chunks, each with a header byte whose lowest bit marks the last chunk.

* `messages_roundtrip`: the receiver of an ordered channel puts the messages together again.
-/

namespace VibeKanban.Relay

open Lib List

/-! ## Model -/

def chunkPayloadSize : ℕ := 60 * 1024

/-- Reliable and ordered mode, more chunks follow. -/
def bitfieldMore : UInt8 := 0b00000110

/-- Reliable and ordered mode, end of message. -/
def bitfieldEnd : UInt8 := 0b00000111

/-- The default maximum size of an SCTP message (line 21). -/
def maxMessageSize : ℕ := 65536

/-- `fragment` (lines 32-59). -/
def fragment (data : List UInt8) : List (List UInt8) :=
  if data.length ≤ chunkPayloadSize then [bitfieldEnd :: data]
  else
    let pieces := chunks chunkPayloadSize data
    let lastIdx := pieces.length - 1
    pieces.mapIdx fun i payload => (if i = lastIdx then bitfieldEnd else bitfieldMore) :: payload

structure Defragmenter where
  buffer : List UInt8

def Defragmenter.new : Defragmenter := ⟨[]⟩

/-- `header & 0x01 != 0` -/
def isEnd (header : UInt8) : Bool := header &&& 0x01 != 0

/-- `process` (lines 79-100). -/
def Defragmenter.process (d : Defragmenter) (data : List UInt8) :
    Defragmenter × Option (List UInt8) :=
  match data with
  | [] => (d, none)
  | header :: payload =>
    if d.buffer.isEmpty && isEnd header then (d, some payload)
    else
      let buffer := d.buffer ++ payload
      if isEnd header then (⟨[]⟩, some buffer) else (⟨buffer⟩, none)

/-! ## One message -/

open Defragmenter

theorem process_more (buffer payload : List UInt8) :
    process ⟨buffer⟩ (bitfieldMore :: payload) = (⟨buffer ++ payload⟩, none) := by
  have hmore : isEnd bitfieldMore = false := by decide
  simp only [process, hmore, Bool.and_false, Bool.false_eq_true, if_false]

/-- The last chunk empties the buffer, whether the message had other chunks or not. -/
theorem process_end (buffer payload : List UInt8) : process ⟨buffer⟩ (bitfieldEnd :: payload) =
      (new, some (buffer ++ payload)) := by
  have hend : isEnd bitfieldEnd = true := by decide
  cases buffer with
  | nil | cons b buffer => simp only [process, hend]; rfl

theorem feed_more (pieces : List (List UInt8)) (buffer : List UInt8) :
    feed process ⟨buffer⟩ (pieces.map (bitfieldMore :: ·)) =
      (⟨buffer ++ pieces.flatten⟩, replicate pieces.length none) := by
  induction pieces generalizing buffer with
  | nil =>
    rw [flatten_nil, append_nil]
    rfl
  | cons piece pieces ih =>
    rw [map_cons, feed, process_more, ih, flatten_cons, append_assoc, length_cons, replicate_succ]

theorem mapIdx_header (pieces : List (List UInt8)) (last : List UInt8) :
    ((pieces ++ [last]).mapIdx fun i payload =>
      (if i = (pieces ++ [last]).length - 1 then bitfieldEnd else bitfieldMore) :: payload) =
    pieces.map (bitfieldMore :: ·) ++ [bitfieldEnd :: last] := by
  rw [mapIdx_concat, length_append, length_singleton, Nat.add_sub_cancel, if_pos rfl]
  congr 1
  apply ext_getElem
  · rw [length_mapIdx, length_map]
  · intro i h1 h2
    have hi : i < pieces.length := length_mapIdx ▸ h1
    rw [getElem_mapIdx, getElem_map, if_neg (Nat.ne_of_lt hi)]

theorem exists_pieces (data : List UInt8) : ∃ (pieces : List (List UInt8)) (last : List UInt8),
    fragment data = pieces.map (bitfieldMore :: ·) ++ [bitfieldEnd :: last] ∧
    pieces.flatten ++ last = data ∧
    (∀ piece ∈ pieces, piece.length ≤ chunkPayloadSize) ∧ last.length ≤ chunkPayloadSize := by
  unfold fragment
  split_ifs with hsmall
  · refine ⟨[], data, rfl, rfl, ?_, hsmall⟩
    intro piece hpiece
    cases hpiece
  · have hsize : 0 < chunkPayloadSize := by decide
    have hne : data ≠ [] := by
      rintro rfl
      exact hsmall (Nat.zero_le _)
    have hpieces : chunks chunkPayloadSize data ≠ [] := chunks_ne_nil hsize hne
    obtain ⟨pieces, last, hcut⟩ := (eq_nil_or_concat' _).resolve_left hpieces
    have hflat := flatten_chunks hsize data
    have hlength : ∀ piece ∈ chunks chunkPayloadSize data,
        piece ≠ [] ∧ piece.length ≤ chunkPayloadSize :=
      fun piece hpiece => length_of_mem_chunks hsize hpiece
    rw [hcut] at hflat hlength
    refine ⟨pieces, last, ?_, ?_, ?_, ?_⟩
    · rw [hcut]
      exact mapIdx_header pieces last
    · rw [← hflat, flatten_append, flatten_singleton]
    · exact fun piece hpiece => (hlength piece (mem_append_left _ hpiece)).2
    · exact (hlength last (mem_append_right _ mem_cons_self)).2

/-- A message is complete after its last chunk, and nothing of it is left in the buffer. -/
theorem feed_fragment (data : List UInt8) : feed process new (fragment data) =
      (new, replicate ((fragment data).length - 1) none ++ [some data]) := by
  obtain ⟨pieces, last, hcut, hdata, -, -⟩ := exists_pieces data
  rw [hcut, feed_append, new, feed_more, nil_append, feed, process_end, hdata,
    length_append, length_map, length_singleton, Nat.add_sub_cancel]
  rfl

/-! ## A sequence of messages -/

/-- The chunks of any messages, fed to one defragmenter, give the messages, each with its last
    chunk; the buffer is empty after each message, and no chunk is larger than the channel
    allows. -/
theorem messages_roundtrip (messages : List (List UInt8)) :
    feed process new (messages.flatMap fragment) =
      (new, messages.flatMap fun data =>
        replicate ((fragment data).length - 1) none ++ [some data]) ∧
    (∀ before after, messages = before ++ after →
      (feed process new (before.flatMap fragment)).1.buffer = []) ∧
    ∀ data ∈ messages, fragment data ≠ [] ∧
      ∀ chunk ∈ fragment data, chunk ≠ [] ∧ chunk.length ≤ maxMessageSize := by
  have hfeed (sent : List (List UInt8)) :
      feed process new (sent.flatMap fragment) =
        (new, sent.flatMap fun data =>
          replicate ((fragment data).length - 1) none ++ [some data]) :=
    feed_flatMap fun data _ => feed_fragment data
  refine ⟨hfeed messages, ?_, ?_⟩
  · intro before _ _
    rw [hfeed before]
    rfl
  intro data _
  obtain ⟨pieces, last, hcut, -, hpieces, hlast⟩ := exists_pieces data
  have hlimit : ∀ (header : UInt8) (payload : List UInt8), payload.length ≤ chunkPayloadSize →
      header :: payload ≠ [] ∧ (header :: payload).length ≤ maxMessageSize := by
    intro header payload hlength
    refine ⟨cons_ne_nil _ _, ?_⟩
    rw [length_cons]
    unfold chunkPayloadSize at hlength
    unfold maxMessageSize
    omega
  rw [hcut]
  refine ⟨?_, ?_⟩
  · exact append_ne_nil_of_right_ne_nil _ (cons_ne_nil _ _)
  · intro chunk hchunk
    rcases mem_append.1 hchunk with hmore | hend
    · obtain ⟨piece, hpiece, rfl⟩ := mem_map.1 hmore
      exact hlimit _ piece (hpieces piece hpiece)
    · rw [mem_singleton.1 hend]
      exact hlimit _ last hlast

end VibeKanban.Relay
