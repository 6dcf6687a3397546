import VibeKanban.Lib.Broadcast
import VibeKanban.Lib.Runs
import VibeKanban.Messages.LogMsg

/-!
# The message store (`utils/src/msg_store.rs`)

`push` records a message and publishes it while it holds the write lock; `history_plus_stream`
subscribes and copies the history under the read lock, and gives a stream of the history followed by
what the channel delivers. One step is taking a lock, one action under it, or one item of a stream.

* `stream_exact`: a stream has every message once and in order, up to its first lag.
-/

namespace VibeKanban.Messages

open Lib Cluster Broadcast List

/-! ## The history -/

def historyBytes : ℕ := 100000 * 1024

structure StoredMsg where
  msg : LogMsg
  bytes : ℕ

structure Inner where
  /-- oldest message first -/
  history : List StoredMsg
  totalBytes : ℕ
  entryTimestamps : Option EntryTimestamps

/-- The loop of `push` that makes room for `bytes` (lines 144-150). -/
def evict (bytes : ℕ) : List StoredMsg → ℕ → List StoredMsg × ℕ
  | [], totalBytes => ([], totalBytes)
  | front :: history, totalBytes =>
    if historyBytes < saturatingAdd totalBytes bytes then
      evict bytes history (totalBytes - front.bytes)
    else (front :: history, totalBytes)

/-- What `push` takes from outside: `serde_json::to_string` of a patch, the check for RFC 3339. -/
structure Formats where
  toJson : Patch → Option Text
  isRfc3339 : String → Bool

section

variable (f : Formats)

/-- The message that is stored and sent, with the times after it (lines 138-142). -/
def Inner.enriched (inner : Inner) (msg : LogMsg) (now : String) :
    Option EntryTimestamps × LogMsg :=
  match inner.entryTimestamps, msg with
  | some timestamps, .jsonPatch patch =>
    let (timestamps, patch) := enrich f.isRfc3339 now timestamps patch
    (some timestamps, .jsonPatch patch)
  | timestamps, msg => (timestamps, msg)

/-- The history with a message more (lines 143-155). -/
def Inner.store (inner : Inner) (timestamps : Option EntryTimestamps) (msg : LogMsg) : Inner :=
  let bytes := msg.approxBytes f.toJson
  let left := evict bytes inner.history inner.totalBytes
  { history := left.1 ++ [⟨msg, bytes⟩]
    totalBytes := saturatingAdd left.2 bytes
    entryTimestamps := timestamps }

/-- `push` up to the sending, at the time `now`. -/
def Inner.record (inner : Inner) (msg : LogMsg) (now : String) : Inner × LogMsg :=
  let (timestamps, msg) := inner.enriched f msg now
  (inner.store f timestamps msg, msg)

end

def Inner.messages (inner : Inner) : List LogMsg := inner.history.map StoredMsg.msg

/-! ## The system -/

/-- A call of `history_plus_stream` and the stream that it gives. -/
inductive SubscriberPos where
  | locked
  | subscribed (rx : ℕ)
  /-- the stream: what is left of the copied history, and the receiver -/
  | streaming (rest : List LogMsg) (rx : ℕ)

/-- A subscriber with what its stream has yielded. The last two fields are not in the source: the
    messages retained when it took the lock, and the number of messages pushed before. -/
structure Subscriber where
  pos : SubscriberPos
  items : List (Item LogMsg)
  retained : List LogMsg
  since : ℕ

def Subscriber.reading (sub : Subscriber) : Bool :=
  match sub.pos with
  | .locked | .subscribed _ => true
  | .streaming _ _ => false

/-- The `push` that holds the write lock. -/
inductive Pushing where
  | locked (msg : LogMsg)
  /-- the history has the message, which is not sent yet -/
  | recorded (msg : LogMsg)

/-- A store with its subscribers. `pushed` is not in the source: every message, as it was put
    into the history. -/
structure Store where
  inner : Inner
  sender : Channel LogMsg
  pushing : Option Pushing
  subscribers : List Subscriber
  pushed : List LogMsg

inductive StoreAction where
  /-- a `push` gets the write lock -/
  | lock (msg : LogMsg)
  | record (now : String)
  /-- it sends the message and releases the lock -/
  | send
  /-- a `history_plus_stream` gets the read lock -/
  | lockRead
  | subscribe (i : ℕ)
  /-- it copies the history and releases the lock -/
  | copy (i : ℕ)
  /-- a stream yields its next item -/
  | next (i : ℕ)

namespace Store

/-- `with_capacity` (lines 124-134); `live` also has times. -/
def withCapacity (capacity : ℕ) (timestamps : Option EntryTimestamps) : Store where
  inner := ⟨[], 0, timestamps⟩
  sender := channel capacity
  pushing := none
  subscribers := []
  pushed := []

/-- `new`: 100000 messages fit the channel. -/
def new : Store := withCapacity 100000 none

/-- Replaces the subscriber `i`. -/
def setSubscriber (s : Store) (i : ℕ) (sub : Subscriber) : Store :=
  { s with subscribers := s.subscribers.set i sub }

/-- The next item of a stream (`chain_history_and_live`, lines 231-243). -/
def nextItem (sender : Channel LogMsg) : SubscriberPos → Option (Item LogMsg × SubscriberPos)
  | .streaming (msg :: rest) rx => some (.ok msg, .streaming rest rx)
  | .streaming [] rx => (sender.recv rx).map fun (item, rx) => (item, .streaming [] rx)
  | _ => none

variable (f : Formats)

def step (s : Store) : StoreAction → Option Store
  | .lock msg =>
    if s.pushing.isNone ∧ s.subscribers.all (fun sub => !Subscriber.reading sub) then
      some { s with pushing := some (.locked msg) }
    else none
  | .record now =>
    match s.pushing with
    | some (.locked msg) =>
      let (inner, msg) := s.inner.record f msg now
      some { s with
        inner := inner
        pushing := some (.recorded msg)
        pushed := s.pushed ++ [msg] }
    | _ => none
  | .send =>
    match s.pushing with
    | some (.recorded msg) => some { s with sender := s.sender.send msg, pushing := none }
    | _ => none
  | .lockRead =>
    if s.pushing.isNone then
      some { s with
        subscribers := s.subscribers ++ [⟨.locked, [], s.inner.messages, s.pushed.length⟩] }
    else none
  | .subscribe i =>
    match s.subscribers[i]? with
    | some ⟨.locked, items, retained, since⟩ =>
      some (s.setSubscriber i ⟨.subscribed s.sender.subscribe, items, retained, since⟩)
    | _ => none
  | .copy i =>
    match s.subscribers[i]? with
    | some ⟨.subscribed rx, items, retained, since⟩ =>
      some (s.setSubscriber i ⟨.streaming s.inner.messages rx, items, retained, since⟩)
    | _ => none
  | .next i => do
    let sub ← s.subscribers[i]?
    let (item, pos) ← nextItem s.sender sub.pos
    return s.setSubscriber i ⟨pos, sub.items ++ [item], sub.retained, sub.since⟩

end Store

/-! ## The account of the history -/

/-- `total_bytes` is the size of what is retained, and within the cap unless that is a single
    message. -/
structure Inner.Accounted (f : Formats) (inner : Inner) : Prop where
  sizes : ∀ stored ∈ inner.history, stored.bytes = stored.msg.approxBytes f.toJson
  total : inner.totalBytes = (inner.history.map StoredMsg.bytes).sum
  bounded : inner.totalBytes ≤ historyBytes ∨
    ∃ stored, inner.history = [stored] ∧ historyBytes < stored.bytes

variable {f : Formats} {bytes : ℕ} {history : List StoredMsg}

/-- What the loop leaves: the newest messages, with their size, and room unless it is nothing. -/
theorem evict_spec : ∀ {total : ℕ}, total = (history.map StoredMsg.bytes).sum →
    (∃ dropped, history = dropped ++ (evict bytes history total).1) ∧
      (evict bytes history total).2 = ((evict bytes history total).1.map StoredMsg.bytes).sum ∧
      (saturatingAdd (evict bytes history total).2 bytes ≤ historyBytes ∨
        (evict bytes history total).1 = []) := by
  induction history with
  | nil =>
    intro total htotal
    exact ⟨⟨[], rfl⟩, htotal, .inr rfl⟩
  | cons front history ih =>
    intro total htotal
    unfold evict
    split_ifs with hover
    · have hrest : total - front.bytes = (history.map StoredMsg.bytes).sum := by
        rw [htotal, map_cons, sum_cons]
        omega
      obtain ⟨⟨dropped, hdropped⟩, hsum, hroom⟩ := ih hrest
      refine ⟨⟨front :: dropped, ?_⟩, hsum, hroom⟩
      rw [cons_append, ← hdropped]
    · exact ⟨⟨[], rfl⟩, htotal, .inl (Nat.le_of_not_lt hover)⟩

theorem saturatingAdd_eq {a b : ℕ} (h : saturatingAdd a b ≤ historyBytes) :
    saturatingAdd a b = a + b := by
  apply saturatingAdd_of_le
  have hlt : historyBytes < u64Max := by decide
  unfold saturatingAdd at h
  omega

theorem Inner.Accounted.store {inner : Inner} (h : inner.Accounted f)
    (timestamps : Option EntryTimestamps) (msg : LogMsg) :
    (inner.store f timestamps msg).Accounted f := by
  have hspec := @evict_spec (msg.approxBytes f.toJson) _ _ h.total
  dsimp only [Inner.store]
  generalize evict (msg.approxBytes f.toJson) inner.history inner.totalBytes = left at hspec
  obtain ⟨kept, total⟩ := left
  obtain ⟨⟨dropped, hdropped⟩, hsum, hroom⟩ := hspec
  replace hdropped : inner.history = dropped ++ kept := hdropped
  replace hsum : total = (kept.map StoredMsg.bytes).sum := hsum
  -- adding does not saturate: the sum is within the cap, or it is one message
  have hadd : saturatingAdd total (msg.approxBytes f.toJson) =
      total + msg.approxBytes f.toJson := by
    rcases hroom with hle | hnil
    · exact saturatingAdd_eq hle
    · apply saturatingAdd_of_le
      rw [hsum, show kept = [] from hnil, map_nil, sum_nil, Nat.zero_add]
      exact approxBytes_le f.toJson msg
  refine ⟨?_, ?_, ?_⟩
  · intro stored hstored
    rcases mem_append.1 hstored with hold | hnew
    · exact h.sizes stored (hdropped ▸ mem_append_right _ hold)
    · rw [mem_singleton.1 hnew]
  · show saturatingAdd total _ = ((kept ++ [_]).map StoredMsg.bytes).sum
    rw [hadd, hsum, map_append, sum_append, map_singleton, sum_singleton]
  · show saturatingAdd total _ ≤ historyBytes ∨ _
    by_cases hle : saturatingAdd total (msg.approxBytes f.toJson) ≤ historyBytes
    · exact .inl hle
    · right
      have hnil : kept = [] := hroom.resolve_left hle
      refine ⟨⟨msg, msg.approxBytes f.toJson⟩, by rw [hnil]; rfl, ?_⟩
      rw [hadd, hsum, hnil, map_nil, sum_nil, Nat.zero_add] at hle
      exact Nat.lt_of_not_le hle

/-! ## Streams -/

/-- Everything that the stream of a subscriber has to yield by now. -/
def Subscriber.expected (sub : Subscriber) (pushed : List LogMsg) : List LogMsg :=
  sub.retained ++ pushed.drop sub.since

/-- Where a subscriber stands: its items go through the first messages of `expected`, and what
    comes next is in its copy of the history or at its position in the channel. -/
def Subscriber.Sound (s : Store) (sub : Subscriber) : Prop :=
  sub.since ≤ s.pushed.length ∧
  match sub.pos with
  | .locked => sub.items = [] ∧ sub.retained = s.inner.messages ∧ sub.since = s.pushed.length
  | .subscribed rx => sub.items = [] ∧ sub.retained = s.inner.messages ∧
      sub.since = s.pushed.length ∧ rx = sub.since
  | .streaming rest rx => ∃ k, Follows (sub.expected s.pushed) sub.items k ∧
      ((k ≤ sub.retained.length ∧ rest = sub.retained.drop k ∧ rx = sub.since) ∨
        (rest = [] ∧ sub.retained.length ≤ k ∧ rx + sub.retained.length = sub.since + k))

/-- The messages that were pushed and not sent yet. -/
def Store.unsent (s : Store) : List LogMsg :=
  match s.pushing with
  | some (.recorded msg) => [msg]
  | _ => []

/-- The invariant of the store. -/
structure Store.Consistent (f : Formats) (s : Store) : Prop where
  accounted : s.inner.Accounted f
  pushed : s.pushed = s.sender.sent ++ s.unsent
  exclusive : s.pushing.isSome → ∀ sub ∈ s.subscribers, sub.reading = false
  sound : ∀ sub ∈ s.subscribers, sub.Sound s

variable {s s' : Store} {sub : Subscriber} {msg : LogMsg} {item : Item LogMsg} {pos : SubscriberPos}

/-- A step that leaves the history alone leaves the other subscribers where they are. -/
theorem Subscriber.Sound.of_eq (h : sub.Sound s) (hinner : s'.inner.messages = s.inner.messages)
    (hpushed : s'.pushed = s.pushed) : sub.Sound s' := by
  unfold Subscriber.Sound at h ⊢
  rw [hinner, hpushed]
  exact h

theorem Subscriber.Sound.push (h : sub.Sound s) (hreading : sub.reading = false)
    (hpushed : s'.pushed = s.pushed ++ [msg]) : sub.Sound s' := by
  obtain ⟨pos, items, retained, since⟩ := sub
  cases pos with
  | locked | subscribed rx => cases hreading
  | streaming rest rx =>
    obtain ⟨hsince, k, hfollows, hpos⟩ := h
    replace hsince : since ≤ s.pushed.length := hsince
    refine ⟨?_, k, ?_, hpos⟩
    · rw [hpushed, length_append]
      exact Nat.le_add_right_of_le hsince
    · show Follows (retained ++ s'.pushed.drop since) items k
      rw [hpushed, drop_append_of_le_length hsince, ← append_assoc]
      exact hfollows.append [msg]

/-- The message at a position of the channel, as a message of `expected`. -/
theorem expected_getElem? {rx k : ℕ} (hk : sub.retained.length ≤ k)
    (hrx : rx + sub.retained.length = sub.since + k) :
    (sub.expected s.pushed)[k]? = s.pushed[rx]? := by
  unfold Subscriber.expected
  rw [getElem?_append_right hk, getElem?_drop]
  congr 1
  omega

theorem Subscriber.Sound.next (hcon : s.Consistent f) (h : sub.Sound s)
    (hnext : Store.nextItem s.sender sub.pos = some (item, pos)) :
    Subscriber.Sound s ⟨pos, sub.items ++ [item], sub.retained, sub.since⟩ := by
  obtain ⟨pos', items, retained, since⟩ := sub
  cases pos' with
  | locked => cases hnext
  | subscribed rx => cases hnext
  | streaming rest rx =>
    obtain ⟨hsince, k, hfollows, hpos⟩ := h
    replace hsince : since ≤ s.pushed.length := hsince
    cases rest with
    | cons msg rest =>
      cases hnext
      rcases hpos with ⟨hk, hrest, hrx⟩ | ⟨hnil, -⟩
      · have hmsg : retained[k]? = some msg := by
          rw [← head?_drop, ← show msg :: rest = retained.drop k from hrest]
          rfl
        have hlt : k < retained.length := (List.getElem?_eq_some_iff.1 hmsg).1
        refine ⟨hsince, k + 1, hfollows.ok ?_, .inl ⟨hlt, ?_, hrx⟩⟩
        · show (retained ++ s.pushed.drop since)[k]? = some msg
          rw [getElem?_append_left hlt]
          exact hmsg
        · rw [← tail_drop, ← show msg :: rest = retained.drop k from hrest]
          rfl
      · cases hnil
    | nil =>
      obtain ⟨⟨item', rx'⟩, hrecv, heq⟩ := Option.map_eq_some_iff.1 hnext
      cases heq
      -- the history is used up, so that the receiver's position tells how far it is
      have hlive : retained.length ≤ k ∧ rx + retained.length = since + k := by
        rcases hpos with ⟨hk, hrest, hrx⟩ | ⟨-, hlive⟩
        · have hend : retained.length ≤ k := drop_eq_nil_iff.1 (Eq.symm hrest)
          replace hrx : rx = since := hrx
          replace hk : k ≤ retained.length := hk
          omega
        · exact hlive
      obtain ⟨hk, hrx⟩ := hlive
      rcases recv_spec hrecv with ⟨v, rfl, hv, rfl⟩ | ⟨n, rfl, hn, rfl, hle⟩
      · refine ⟨hsince, k + 1, hfollows.ok ?_, .inr ⟨rfl, ?_, ?_⟩⟩
        · rw [expected_getElem? hk hrx, hcon.pushed]
          rw [List.getElem?_append_left (List.getElem?_eq_some_iff.1 hv).1]
          exact hv
        · exact Nat.le_succ_of_le hk
        · show rx + 1 + retained.length = since + (k + 1)
          omega
      · have hsent : s.sender.sent.length ≤ s.pushed.length := by
          rw [hcon.pushed, length_append]
          exact Nat.le_add_right _ _
        refine ⟨hsince, k + n, hfollows.lagged hn ?_, .inr ⟨rfl, ?_, ?_⟩⟩
        · show k + n ≤ (retained ++ s.pushed.drop since).length
          rw [length_append, length_drop]
          omega
        · exact Nat.le_add_right_of_le hk
        · show rx + n + retained.length = since + (k + n)
          omega

/-! ## The invariant -/

namespace Store

theorem consistent_withCapacity (capacity : ℕ) (timestamps : Option EntryTimestamps) :
    (withCapacity capacity timestamps).Consistent f where
  accounted := ⟨nofun, rfl, .inl (Nat.zero_le _)⟩
  pushed := rfl
  exclusive _ _ h := nomatch h
  sound _ h := nomatch h

section

variable (h : s.Consistent f)

include h

theorem Consistent.setSubscriber (i : ℕ) (hsub : sub.Sound s)
    (hreading : s.pushing.isSome → sub.reading = false) :
    (s.setSubscriber i sub).Consistent f where
  accounted := h.accounted
  pushed := h.pushed
  exclusive hpushing sub' hmem := by
    rcases mem_or_eq_of_mem_set hmem with hold | rfl
    · exact h.exclusive hpushing sub' hold
    · exact hreading hpushing
  sound sub' hmem := by
    apply Subscriber.Sound.of_eq (s := s) _ rfl rfl
    rcases mem_or_eq_of_mem_set hmem with hold | rfl
    · exact h.sound sub' hold
    · exact hsub

theorem Consistent.sent_eq (hmem : sub ∈ s.subscribers)
    (hreading : sub.reading = true) : s.pushing = none ∧ s.sender.sent = s.pushed := by
  have hnone : s.pushing = none := by
    rw [← Option.not_isSome_iff_eq_none]
    intro hsome
    rw [h.exclusive hsome sub hmem] at hreading
    cases hreading
  refine ⟨hnone, ?_⟩
  rw [h.pushed, unsent, hnone, append_nil]

theorem Consistent.lock (hstep : s.step f (.lock msg) = some s') : s'.Consistent f := by
  delta step at hstep
  dsimp only at hstep
  split_ifs at hstep with hfree
  cases hstep
  obtain ⟨hnone, hreading⟩ := hfree
  rw [Option.isNone_iff_eq_none] at hnone
  refine ⟨h.accounted, ?_, ?_, ?_⟩
  · rw [show s.pushed = s.sender.sent ++ s.unsent from h.pushed, unsent, hnone]
    rfl
  · intro _ sub hmem
    have hall := all_eq_true.1 hreading sub hmem
    rw [Bool.not_eq_true'] at hall
    exact hall
  · exact fun sub hmem => (h.sound sub hmem).of_eq rfl rfl

theorem Consistent.record {now : String}
    (hstep : s.step f (.record now) = some s') : s'.Consistent f := by
  delta step at hstep
  dsimp only at hstep
  split at hstep <;> cases hstep
  rename_i hlocked
  have hsent : s.pushed = s.sender.sent := by rw [h.pushed, unsent, hlocked, append_nil]
  have hreading := h.exclusive (by rw [hlocked]; rfl)
  refine ⟨h.accounted.store _ _, ?_, fun _ => hreading, ?_⟩
  · show s.pushed ++ [_] = s.sender.sent ++ [_]
    rw [hsent]
  · exact fun sub hmem => (h.sound sub hmem).push (hreading sub hmem) rfl

theorem Consistent.send (hstep : s.step f .send = some s') : s'.Consistent f := by
  delta step at hstep
  dsimp only at hstep
  split at hstep <;> cases hstep
  rename_i msg hrecorded
  refine ⟨h.accounted, ?_, nofun, ?_⟩
  · show s.pushed = s.sender.sent ++ [msg] ++ []
    rw [h.pushed, unsent, hrecorded, append_nil]
  · exact fun sub hmem => (h.sound sub hmem).of_eq rfl rfl

theorem Consistent.lockRead (hstep : s.step f .lockRead = some s') : s'.Consistent f := by
  delta step at hstep
  dsimp only at hstep
  split_ifs at hstep with hnone
  cases hstep
  rw [Option.isNone_iff_eq_none] at hnone
  refine ⟨h.accounted, h.pushed, ?_, ?_⟩
  · intro hsome
    rw [show s.pushing = none from hnone] at hsome
    cases hsome
  · intro sub hmem
    rcases mem_append.1 hmem with hold | hnew
    · exact (h.sound sub hold).of_eq rfl rfl
    · rw [mem_singleton.1 hnew]
      exact ⟨Nat.le_refl _, rfl, rfl, rfl⟩

theorem Consistent.subscribe {i : ℕ}
    (hstep : s.step f (.subscribe i) = some s') : s'.Consistent f := by
  delta step at hstep
  dsimp only at hstep
  split at hstep <;> cases hstep
  rename_i since hsub
  have hmem := mem_of_getElem? hsub
  obtain ⟨hsince, hitems, hretained, hnow⟩ := h.sound _ hmem
  obtain ⟨hnone, hsent⟩ := h.sent_eq hmem rfl
  apply h.setSubscriber i
  · refine ⟨hsince, hitems, hretained, hnow, ?_⟩
    show s.sender.sent.length = since
    rw [hsent]
    exact Eq.symm hnow
  · intro hsome
    rw [hnone] at hsome
    cases hsome

theorem Consistent.copy {i : ℕ} (hstep : s.step f (.copy i) = some s') : s'.Consistent f := by
  delta step at hstep
  dsimp only at hstep
  split at hstep <;> cases hstep
  rename_i items retained since hsub
  obtain ⟨hsince, hitems, hretained, hnow, hrx⟩ := h.sound _ (mem_of_getElem? hsub)
  replace hitems : items = [] := hitems
  apply h.setSubscriber i _ fun _ => rfl
  refine ⟨hsince, 0, ?_, .inl ⟨Nat.zero_le _, Eq.symm hretained, hrx⟩⟩
  rw [hitems]
  exact .start

end

theorem nextItem_streaming {sender : Channel LogMsg} {pos' : SubscriberPos}
    (h : nextItem sender pos = some (item, pos')) :
    ∃ rest rx, pos' = .streaming rest rx := by
  unfold nextItem at h
  split at h
  · cases h
    exact ⟨_, _, rfl⟩
  · obtain ⟨r, -, heq⟩ := Option.map_eq_some_iff.1 h
    cases heq
    exact ⟨_, _, rfl⟩
  · cases h

theorem Consistent.next (h : s.Consistent f) {i : ℕ}
    (hstep : s.step f (.next i) = some s') : s'.Consistent f := by
  obtain ⟨sub, hsub, hstep⟩ := Option.bind_eq_some_iff.1 hstep
  obtain ⟨⟨item, pos⟩, hnext, hstep⟩ := Option.bind_eq_some_iff.1 hstep
  cases hstep
  apply h.setSubscriber i ((h.sound sub (mem_of_getElem? hsub)).next h hnext)
  obtain ⟨rest, rx, rfl⟩ := nextItem_streaming hnext
  exact fun _ => rfl

theorem Consistent.step {a : StoreAction} (h : s.Consistent f) (hstep : s.step f a = some s') :
    s'.Consistent f := by
  cases a with
  | lock msg => exact h.lock hstep
  | record now => exact h.record hstep
  | send => exact h.send hstep
  | lockRead => exact h.lockRead hstep
  | subscribe i => exact h.subscribe hstep
  | copy i => exact h.copy hstep
  | next i => exact h.next hstep

def Fresh (s : Store) : Prop := ∃ capacity timestamps, s = withCapacity capacity timestamps

theorem consistent_of_reachable (h : Reachable (step f) anyStep Fresh s) : s.Consistent f := by
  apply h.invariant
  · rintro s ⟨capacity, timestamps, rfl⟩
    exact consistent_withCapacity capacity timestamps
  · exact fun s a s' hs _ hstep => hs.step hstep

/-- The stream has nothing to yield, and no push is between the history and the channel. -/
def Drained (s : Store) (sub : Subscriber) : Prop :=
  sub.reading = false ∧ nextItem s.sender sub.pos = none ∧ s.unsent = []

/-- The stream of a subscriber has yielded the messages retained when it subscribed and those
    pushed since, in their order and each once, up to its first lag error; a lag error says how
    many messages are left out where it stands; once the stream is drained nothing is missing. -/
structure Exact (s : Store) (sub : Subscriber) : Prop where
  before_lag : ∀ items n rest, sub.items = items ++ .lagged n :: rest →
    (∀ m, Item.lagged m ∉ items) →
      0 < n ∧ items = ((sub.expected s.pushed).take items.length).map Item.ok
  no_lag : (∀ n, Item.lagged n ∉ sub.items) →
    sub.items = ((sub.expected s.pushed).take sub.items.length).map Item.ok
  drained : (∀ n, Item.lagged n ∉ sub.items) → s.Drained sub →
    sub.items = (sub.expected s.pushed).map Item.ok
  gaps : ∃ k, Follows (sub.expected s.pushed) sub.items k ∧
    (s.Drained sub → k = (sub.expected s.pushed).length)

theorem Consistent.follows (h : s.Consistent f) (hsub : sub.Sound s) :
    ∃ k, Follows (sub.expected s.pushed) sub.items k ∧
      (s.Drained sub → k = (sub.expected s.pushed).length) := by
  obtain ⟨pos, items, retained, since⟩ := sub
  cases pos with
  | locked | subscribed rx =>
    obtain ⟨-, hitems, -⟩ := hsub
    replace hitems : items = [] := hitems
    rw [hitems]
    exact ⟨0, .start, fun hdrained => nomatch hdrained.1⟩
  | streaming rest rx =>
    obtain ⟨hsince, k, hfollows, hpos⟩ := hsub
    refine ⟨k, hfollows, ?_⟩
    rintro ⟨-, hnone, hunsent⟩
    cases rest with
    | cons msg rest => cases hnone
    | nil =>
      have hend := length_le_of_recv_eq_none (Option.map_eq_none_iff.1 hnone)
      have hle := hfollows.le_length
      have hsent : s.sender.sent.length = s.pushed.length := by rw [h.pushed, hunsent, append_nil]
      have hlen : (Subscriber.expected ⟨.streaming [] rx, items, retained, since⟩ s.pushed).length =
          retained.length + (s.pushed.length - since) := by
        rw [Subscriber.expected, length_append, length_drop]
      replace hsince : since ≤ s.pushed.length := hsince
      rcases hpos with ⟨hk, hrest, hrx⟩ | ⟨-, hk, hrx⟩
      · have hk' : retained.length ≤ k := drop_eq_nil_iff.1 (Eq.symm hrest)
        replace hrx : rx = since := hrx
        replace hk : k ≤ retained.length := hk
        omega
      · replace hrx : rx + retained.length = since + k := hrx
        omega

/-- In every reachable state the size of the history is accounted for, and each stream is exact. -/
theorem stream_exact (h : Reachable (step f) anyStep Fresh s) :
    s.inner.Accounted f ∧ ∀ sub ∈ s.subscribers, s.Exact sub := by
  have hcon := consistent_of_reachable h
  refine ⟨hcon.accounted, ?_⟩
  intro sub hmem
  obtain ⟨k, hfollows, hdrained⟩ := hcon.follows (hcon.sound sub hmem)
  have hexact : (∀ n, Item.lagged n ∉ sub.items) →
      sub.items = ((sub.expected s.pushed).take k).map Item.ok := hfollows.exact
  refine ⟨?_, ?_, ?_, ⟨k, hfollows, hdrained⟩⟩
  · intro items n rest hitems hok
    rw [hitems] at hfollows
    exact ⟨hfollows.lagged_pos (mem_append_right _ mem_cons_self), hfollows.exact_before hok⟩
  · intro hok
    rw [← hfollows.length_eq hok]
    exact hexact hok
  · intro hok hend
    rw [hexact hok, hdrained hend, take_length]

/-- For runs without patches. -/
def exampleFormats : Formats := ⟨fun _ => none, fun _ => false⟩

/-- One message before the subscription, one after it, and two items of the stream. -/
def exampleHandoff : List StoreAction :=
  [.lock (.stdout ⟨"history", by decide⟩), .record "", .send, .lockRead, .subscribe 0, .copy 0,
    .lock (.stdout ⟨"live", by decide⟩), .record "", .send, .next 0, .next 0]

/-- Each of the two messages is delivered once, and the history has both. -/
theorem handoff_delivered : ∃ (s : Store) (sub : Subscriber),
    s.subscribers = [sub] ∧ s.inner.Accounted exampleFormats ∧ s.inner.totalBytes = 39 ∧
    s.Exact sub ∧
    sub.items = [.ok (.stdout ⟨"history", by decide⟩), .ok (.stdout ⟨"live", by decide⟩)] := by
  have hexec : ∃ (s : Store) (sub : Subscriber),
      exec (step exampleFormats) anyStep (withCapacity 8 none) exampleHandoff = some s ∧
      s.subscribers = [sub] ∧ s.inner.totalBytes = 39 ∧
      sub.items = [.ok (.stdout ⟨"history", by decide⟩), .ok (.stdout ⟨"live", by decide⟩)] :=
    ⟨_, _, rfl, rfl, rfl, rfl⟩
  obtain ⟨s, sub, hs, hsub, htotal, hitems⟩ := hexec
  have hreach : Reachable (step exampleFormats) anyStep Fresh s :=
    reachable_of_exec ⟨8, none, rfl⟩ hs
  obtain ⟨haccounted, hexact⟩ := stream_exact hreach
  refine ⟨s, sub, hsub, haccounted, htotal, hexact sub ?_, hitems⟩
  rw [hsub]
  exact mem_singleton_self sub

theorem runs_pushes (f : Formats) (n : ℕ) (hidle : s.pushing = none)
    (hreading : ∀ sub ∈ s.subscribers, sub.reading = false) :
    ∃ s', Runs (step f) anyStep s s' ∧ s'.subscribers = s.subscribers ∧
      s'.sender = { s.sender with sent := s.sender.sent ++ replicate n .ready } := by
  suffices hruns : ∃ s', Runs (step f) anyStep s s' ∧ s'.pushing = none ∧
      s'.subscribers = s.subscribers ∧
      s'.sender = { s.sender with sent := s.sender.sent ++ replicate n .ready } by
    obtain ⟨s', hruns, -, hs'⟩ := hruns
    exact ⟨s', hruns, hs'⟩
  induction n with
  | zero =>
    refine ⟨s, Runs.refl, hidle, rfl, ?_⟩
    rw [replicate_zero, append_nil]
  | succ n ih =>
    obtain ⟨s₁, hruns, hnone, hsubs, hsender⟩ := ih
    have hall : s₁.subscribers.all (fun sub => !sub.reading) = true := by
      rw [hsubs, all_eq_true]
      intro sub hmem
      rw [hreading sub hmem]
      rfl
    have hlock : step f s₁ (.lock .ready) = some { s₁ with pushing := some (.locked .ready) } := by
      simp only [step]
      rw [if_pos ⟨by rw [hnone]; rfl, hall⟩]
    have henriched : (s₁.inner.enriched f .ready "").2 = .ready := by
      unfold Inner.enriched
      cases s₁.inner.entryTimestamps <;> rfl
    obtain ⟨s₂, hrecord, hpushing, hsubs₂, hsender₂⟩ : ∃ s₂,
        step f { s₁ with pushing := some (.locked .ready) } (.record "") = some s₂ ∧
        s₂.pushing = some (.recorded .ready) ∧ s₂.subscribers = s₁.subscribers ∧
        s₂.sender = s₁.sender := by
      refine ⟨_, rfl, ?_, rfl, rfl⟩
      show some (Pushing.recorded (s₁.inner.enriched f .ready "").2) = _
      rw [henriched]
    have hsend : step f s₂ .send =
        some { s₂ with sender := s₂.sender.send .ready, pushing := none } := by
      simp only [step, hpushing]
    refine ⟨_, ((hruns.tail trivial hlock).tail trivial hrecord).tail trivial hsend, rfl,
      hsubs₂.trans hsubs, ?_⟩
    show s₂.sender.send .ready = _
    rw [hsender₂, hsender, Channel.send, replicate_succ', append_assoc]

theorem step_next {s : Store} {sub : Subscriber} (f : Formats) (hsub : s.subscribers = [sub])
    (hnext : nextItem s.sender sub.pos = some (item, pos)) : step f s (.next 0) =
      some { s with subscribers := [⟨pos, sub.items ++ [item], sub.retained, sub.since⟩] } := by
  simp only [step, setSubscriber, hsub, getElem?_cons_zero, hnext, Option.bind_eq_bind,
    Option.bind_some, set_cons_zero]
  rfl

theorem yields_after_lag (f : Formats) (capacity : ℕ) : ∃ (s : Store) (sub : Subscriber),
    Reachable (step f) anyStep (· = withCapacity capacity none) s ∧
    s.subscribers = [sub] ∧ sub.items = [.lagged 1, .ok .ready] := by
  obtain ⟨s₁, h₁, hidle, hsubs, hsender⟩ : ∃ s₁ : Store,
      exec (step f) anyStep (withCapacity capacity none) [.lockRead, .subscribe 0, .copy 0] =
        some s₁ ∧
      s₁.pushing = none ∧ s₁.subscribers = [⟨.streaming [] 0, [], [], 0⟩] ∧
      s₁.sender = channel capacity := ⟨_, rfl, rfl, rfl, rfl⟩
  have hreading : ∀ sub ∈ s₁.subscribers, sub.reading = false := by
    intro sub hmem
    rw [hsubs] at hmem
    rw [mem_singleton.1 hmem]
    rfl
  obtain ⟨s₂, hruns, hsubs₂, hsender₂⟩ := runs_pushes f (nextPowerOfTwo capacity + 1) hidle hreading
  rw [hsubs] at hsubs₂
  rw [hsender, channel, nil_append] at hsender₂
  obtain ⟨hlag, hok⟩ := recv_overflow (nextPowerOfTwo capacity) nextPowerOfTwo_pos LogMsg.ready
  rw [← hsender₂] at hlag hok
  have hitem₁ := step_next f hsubs₂
    (show nextItem s₂.sender (.streaming [] 0) = some (.lagged 1, .streaming [] 1) by
      rw [nextItem, hlag]
      rfl)
  generalize hs₃ : ({ s₂ with subscribers := _ } : Store) = s₃ at hitem₁
  have hsubs₃ : s₃.subscribers = [⟨.streaming [] 1, [] ++ [.lagged 1], [], 0⟩] := by rw [← hs₃]
  have hitem₂ := step_next f hsubs₃
    (show nextItem s₃.sender (.streaming [] 1) = some (.ok .ready, .streaming [] 2) by
      rw [nextItem, ← hs₃, show ({ s₂ with subscribers := _ } : Store).sender = s₂.sender from rfl,
        hok]
      rfl)
  have hreach : Reachable (step f) anyStep (· = withCapacity capacity none) s₂ :=
    ⟨withCapacity capacity none, rfl, (runs_of_exec h₁).trans hruns⟩
  exact ⟨_, _, (hreach.next trivial hitem₁).next trivial hitem₂, rfl, rfl⟩

/-- The stream goes on after its lag error, with the messages that the channel still keeps. -/
theorem stream_outlives_lag : ∃ (s : Store) (sub : Subscriber),
    Reachable (step exampleFormats) anyStep (· = new) s ∧
    s.subscribers = [sub] ∧ sub.items = [.lagged 1, .ok .ready] :=
  yields_after_lag exampleFormats 100000

end Store

end VibeKanban.Messages
