import VibeKanban.Browser.Session
import VibeKanban.Lib.Search

/-!
# Commands are performed once (`services/browser/session.rs`)

A command id is reserved while a request owns it, and recorded once the driver was asked. The record
is kept until 256 other commands have been recorded.

* `commands_performed_once`: what it takes for a command to be performed again.
-/

namespace VibeKanban.Browser

open Lib Cluster List Function Option

def ExecutePos.owns : ExecutePos → Bool
  | .called | .opened | .waiting _ | .finished _ | .returned _ | .dropped => false
  | _ => true

/-- The driver was asked, and the outcome is not recorded yet. -/
def ExecutePos.asked : ExecutePos → Bool
  | .performing _ | .paging _ _ | .finishing true _ => true
  | _ => false

theorem owns_of_asked {pos : ExecutePos} (h : pos.asked = true) : pos.owns = true := by
  unfold ExecutePos.asked at h
  split at h
  · rfl
  · rfl
  · rfl
  · cases h

/-! ## The records -/

namespace IdempotencyCache

variable {cache : IdempotencyCache} {id : Uuid}

theorem evict_eq (entries : Uuid → Option IdemEntry) {order : List Uuid}
    (h : order.length ≤ idempotencyCapacity) : evict entries order = ⟨entries, order⟩ := by
  cases order with
  | nil => rfl
  | cons oldest order =>
    unfold evict
    rw [if_neg (Nat.not_lt.2 h)]

theorem recordDone_cases (outcome : IdemOutcome) (hid : id ∉ cache.order)
    (hlen : cache.order.length ≤ idempotencyCapacity) :
    cache.recordDone id outcome = ⟨update cache.entries id (some (.done outcome)),
        cache.order ++ [id]⟩ ∧ cache.order.length < idempotencyCapacity ∨
      ∃ oldest rest, cache.order = oldest :: rest ∧ (oldest :: rest).length = idempotencyCapacity ∧
        cache.recordDone id outcome =
          ⟨update (update cache.entries id (some (.done outcome))) oldest none, rest ++ [id]⟩ := by
  unfold recordDone
  rw [if_neg hid]
  by_cases hroom : cache.order.length < idempotencyCapacity
  · left
    refine ⟨evict_eq _ ?_, hroom⟩
    rw [length_append]
    exact hroom
  · right
    have hfull : cache.order.length = idempotencyCapacity := by omega
    cases horder : cache.order with
    | nil =>
      rw [horder] at hfull
      cases hfull
    | cons oldest rest =>
      rw [horder, length_cons] at hfull
      refine ⟨oldest, rest, rfl, hfull, ?_⟩
      have hover : idempotencyCapacity < (oldest :: (rest ++ [id])).length := by
        rw [length_cons, length_append, length_singleton]
        omega
      rw [cons_append, evict, if_pos hover, evict_eq]
      rw [length_append, length_singleton]
      omega

/-- The records are those in the order, at most `IDEMPOTENCY_CAPACITY`. -/
structure WellFormed (cache : IdempotencyCache) : Prop where
  nodup : cache.order.Nodup
  length_le : cache.order.length ≤ idempotencyCapacity
  recorded : ∀ id, id ∈ cache.order ↔ ∃ outcome, cache.entries id = some (.done outcome)

theorem wellFormed_new : new.WellFormed where
  nodup := nodup_nil
  length_le := Nat.zero_le _
  recorded id := by
    constructor
    · intro h
      cases h
    · rintro ⟨outcome, h⟩
      cases h

section

variable (h : cache.WellFormed) (hid : id ∉ cache.order)
include h hid

theorem WellFormed.setEntry {entry : Option IdemEntry}
    (hentry : ∀ outcome, entry ≠ some (.done outcome)) :
    (cache.setEntry id entry).WellFormed where
  nodup := h.nodup
  length_le := h.length_le
  recorded id' := by
    show id' ∈ cache.order ↔ ∃ outcome, update cache.entries id entry id' = _
    rw [update_apply]
    split_ifs with heq
    · rw [heq]
      exact ⟨fun hmem => absurd hmem hid, fun ⟨outcome, hdone⟩ => absurd hdone (hentry outcome)⟩
    · exact h.recorded id'

theorem WellFormed.recordDone (outcome : IdemOutcome) :
    (cache.recordDone id outcome).WellFormed := by
  have hnodup : (cache.order ++ [id]).Nodup := by
    rw [nodup_append]
    refine ⟨h.nodup, nodup_singleton _, ?_⟩
    rintro a ha b hb rfl
    rw [mem_singleton.1 hb] at ha
    exact hid ha
  rcases recordDone_cases outcome hid h.length_le with
    ⟨heq, hroom⟩ | ⟨oldest, rest, horder, hfull, heq⟩
  · rw [heq]
    refine ⟨hnodup, ?_, ?_⟩
    · rw [length_append]
      exact hroom
    · intro id'
      show id' ∈ cache.order ++ [id] ↔ ∃ outcome', update _ _ _ id' = _
      rw [mem_append, mem_singleton, update_apply]
      split_ifs with hnew
      · exact ⟨fun _ => ⟨outcome, rfl⟩, fun _ => .inr hnew⟩
      · rw [h.recorded id', or_iff_left hnew]
  · rw [heq]
    rw [horder, cons_append, nodup_cons] at hnodup
    refine ⟨hnodup.2, ?_, ?_⟩
    · show (rest ++ [id]).length ≤ _
      rw [length_append, ← hfull]
      exact Nat.le_refl _
    · intro id'
      show id' ∈ rest ++ [id] ↔ ∃ outcome', update _ _ _ id' = _
      rw [update_apply]
      split_ifs with hold
      · rw [hold]
        exact ⟨fun hmem => absurd hmem hnodup.1, fun ⟨_, hdone⟩ => nomatch hdone⟩
      · rw [update_apply, mem_append, mem_singleton]
        split_ifs with hnew
        · exact ⟨fun _ => ⟨outcome, rfl⟩, fun _ => .inr hnew⟩
        · rw [← h.recorded id', or_iff_left hnew, horder, mem_cons, or_iff_right hold]

theorem WellFormed.recordDone_inFlight (outcome : IdemOutcome) (id' : Uuid) (k : ℕ) :
    (cache.recordDone id outcome).entries id' = some (.inFlight k) ↔
      id' ≠ id ∧ cache.entries id' = some (.inFlight k) := by
  have hone : update cache.entries id (some (.done outcome)) id' = some (.inFlight k) ↔
      id' ≠ id ∧ cache.entries id' = some (.inFlight k) := by
    rw [update_apply]
    split_ifs with hnew
    · exact ⟨nofun, fun hk => absurd hnew hk.1⟩
    · exact ⟨fun hk => ⟨hnew, hk⟩, fun hk => hk.2⟩
  rcases recordDone_cases outcome hid h.length_le with
    ⟨heq, -⟩ | ⟨oldest, rest, horder, -, heq⟩
  · rw [heq]
    exact hone
  · rw [heq]
    dsimp only
    rw [update_apply]
    split_ifs with hold
    · -- the oldest one was a record
      obtain ⟨outcome', hdone⟩ := (h.recorded id').1 (by
        rw [horder, hold]
        exact mem_cons_self)
      rw [hdone]
      exact ⟨nofun, fun hk => nomatch hk.2⟩
    · exact hone

end

end IdempotencyCache

namespace SessionRuntime

variable {s s' : SessionRuntime} {i : ℕ} {r : Request} {pos : ExecutePos}

/-! ## Reservations -/

/-- The cache is well formed, and each reservation belongs to the request that owns it. -/
structure Reserved (s : SessionRuntime) : Prop where
  cache : s.idempotency.WellFormed
  inFlight : ∀ (id : Uuid) (k : ℕ), s.idempotency.entries id = some (.inFlight k) →
    ∃ r, s.requests[k]? = some r ∧ r.commandId = id ∧ r.pos.owns = true
  owner : ∀ (k : ℕ) (r : Request), s.requests[k]? = some r → r.pos.owns = true →
    s.idempotency.entries r.commandId = some (.inFlight k)

theorem reserved_new (leaseTtl now : Time) : (new leaseTtl now).Reserved where
  cache := IdempotencyCache.wellFormed_new
  inFlight _ _ h := nomatch h
  owner _ _ h := nomatch h

section

variable (h : s.Reserved)

include h

theorem Reserved.of_eq (hcache : s'.idempotency = s.idempotency)
    (hrequests : s'.requests = s.requests) : s'.Reserved := by
  obtain ⟨h1, h2, h3⟩ := h
  constructor
  · rw [hcache]
    exact h1
  · rw [hcache, hrequests]
    exact h2
  · rw [hcache, hrequests]
    exact h3

theorem Reserved.owner_eq {j k : ℕ} {r r' : Request}
    (hr : s.requests[j]? = some r) (hr' : s.requests[k]? = some r') (hown : r.pos.owns = true)
    (hown' : r'.pos.owns = true) (hid : r.commandId = r'.commandId) : j = k := by
  have hj := h.owner j r hr hown
  have hk := h.owner k r' hr' hown'
  rw [hid, hk] at hj
  cases hj
  rfl

section

variable (hr : s.requests[i]? = some r)
include hr

theorem Reserved.not_mem_order (hown : r.pos.owns = true) : r.commandId ∉ s.idempotency.order := by
  intro hmem
  obtain ⟨outcome, hdone⟩ := (h.cache.recorded _).1 hmem
  rw [h.owner i r hr hown] at hdone
  cases hdone

theorem Reserved.move (howns : pos.owns = r.pos.owns) : (s.moveRequest i r pos).Reserved where
  cache := h.cache
  inFlight id k hk := by
    obtain ⟨r', hr', hid, hown⟩ := h.inFlight id k hk
    by_cases heq : k = i
    · subst heq
      rw [hr] at hr'
      cases hr'
      exact ⟨{ r with pos := pos }, getElem?_set_same hr _, hid, howns.trans hown⟩
    · exact ⟨r', (getElem?_set_ne (Ne.symm heq)).trans hr', hid, hown⟩
  owner k r' hr' hown := by
    rcases getElem?_set_cases hr' with ⟨rfl, rfl⟩ | ⟨-, hold⟩
    · exact h.owner k r hr (howns.symm.trans hown)
    · exact h.owner k r' hold hown

theorem Reserved.enter (hfree : s.idempotency.entries r.commandId = none)
    (hnot : r.pos.owns = false) :
    ((s.setCache (s.idempotency.setEntry r.commandId (some (.inFlight i)))).moveRequest i r
      .owning).Reserved := by
  have hnew : r.commandId ∉ s.idempotency.order := by
    intro hmem
    obtain ⟨outcome, hdone⟩ := (h.cache.recorded _).1 hmem
    rw [hfree] at hdone
    cases hdone
  refine ⟨h.cache.setEntry hnew nofun, ?_, ?_⟩
  · intro id k hk
    replace hk : update s.idempotency.entries r.commandId (some (.inFlight i)) id =
      some (.inFlight k) := hk
    rw [update_apply] at hk
    split_ifs at hk with hid
    · cases hk
      exact ⟨{ r with pos := .owning }, getElem?_set_same hr _, hid.symm, rfl⟩
    · obtain ⟨r', hr', hid', hown⟩ := h.inFlight id k hk
      have hne : k ≠ i := by
        rintro rfl
        rw [hr] at hr'
        cases hr'
        rw [hnot] at hown
        cases hown
      exact ⟨r', (getElem?_set_ne (Ne.symm hne)).trans hr', hid', hown⟩
  · intro k r' hr' hown
    show update s.idempotency.entries r.commandId (some (.inFlight i)) r'.commandId = _
    rcases getElem?_set_cases hr' with ⟨rfl, rfl⟩ | ⟨-, hold⟩
    · exact update_self _ _ _
    · have hentry := h.owner k r' hold hown
      rw [update_apply]
      split_ifs with hid
      · rw [hid, hfree] at hentry
        cases hentry
      · exact hentry

end

section

variable (hr : s.requests[i]? = some r) (hown : r.pos.owns = true) (hpos : pos.owns = false)
include hr hown hpos

theorem Reserved.leave {cache : IdempotencyCache} (hcache : cache.WellFormed)
    (hentries : ∀ id k, cache.entries id = some (.inFlight k) ↔
      id ≠ r.commandId ∧ s.idempotency.entries id = some (.inFlight k)) :
    ((s.setCache cache).moveRequest i r pos).Reserved where
  cache := hcache
  inFlight id k hk := by
    obtain ⟨hid, hold⟩ := (hentries id k).1 hk
    obtain ⟨r', hr', hid', hown'⟩ := h.inFlight id k hold
    have hne : k ≠ i := by
      rintro rfl
      rw [hr] at hr'
      cases hr'
      exact hid hid'.symm
    exact ⟨r', (getElem?_set_ne (Ne.symm hne)).trans hr', hid', hown'⟩
  owner k r' hr' hown' := by
    rcases getElem?_set_cases hr' with ⟨rfl, rfl⟩ | ⟨hne, hold⟩
    · rw [show ({ r with pos := pos } : Request).pos = pos from rfl, hpos] at hown'
      cases hown'
    · have hid : r'.commandId ≠ r.commandId := fun hid => hne (h.owner_eq hold hr hown' hown hid)
      exact (hentries _ k).2 ⟨hid, h.owner k r' hold hown'⟩

theorem Reserved.remove :
    ((s.setCache (s.idempotency.setEntry r.commandId none)).moveRequest i r pos).Reserved := by
  apply h.leave hr hown hpos
  · exact h.cache.setEntry (h.not_mem_order hr hown) nofun
  · intro id k
    show update s.idempotency.entries r.commandId none id = _ ↔ _
    rw [update_apply]
    split_ifs with hid
    · exact ⟨nofun, fun hk => absurd hid hk.1⟩
    · exact ⟨fun hk => ⟨hid, hk⟩, fun hk => hk.2⟩

theorem Reserved.record (outcome : IdemOutcome) :
    ((s.setCache (s.idempotency.recordDone r.commandId outcome)).moveRequest i r pos).Reserved :=
  h.leave hr hown hpos (h.cache.recordDone (h.not_mem_order hr hown) outcome)
    (h.cache.recordDone_inFlight (h.not_mem_order hr hown) outcome)

end

end

theorem closeStep_frame {j : ℕ} {pos : ClosePos} {action : CloseAction}
    (h : s.closeStep j pos action = some s') : s'.idempotency = s.idempotency ∧
      s'.requests = s.requests ∧ s'.events = s.events := by
  unfold closeStep at h
  split at h
  case h_2 =>
    split_ifs at h
    cases h
    exact ⟨rfl, rfl, rfl⟩
  case h_7 => cases h
  all_goals
    cases h
    exact ⟨rfl, rfl, rfl⟩

theorem Reserved.requestStep (h : s.Reserved) (hr : s.requests[i]? = some r)
    {action : RequestAction} (hstep : s.requestStep i r r.pos action = some s') : s'.Reserved := by
  generalize hpos : r.pos = pos at hstep
  have hmove : ∀ {s₁ : SessionRuntime} {pos' : ExecutePos}, s₁.idempotency = s.idempotency →
      s₁.requests = s.requests → pos'.owns = pos.owns → (s₁.moveRequest i r pos').Reserved := by
    intro s₁ pos' hcache hrequests howns
    apply (h.of_eq hcache hrequests).move (hrequests ▸ hr)
    rw [hpos]
    exact howns
  unfold SessionRuntime.requestStep at hstep
  split at hstep
  case h_1 =>
    cases hstep
    apply hmove rfl rfl
    split_ifs <;> rfl
  case h_2 =>
    cases hstep
    unfold SessionRuntime.reserve
    split
    · exact hmove rfl rfl rfl
    · exact hmove rfl rfl rfl
    · rename_i hfree
      exact h.enter hr hfree (by rw [hpos]; rfl)
  case h_3 =>
    obtain ⟨outcome, -, rfl⟩ := map_eq_some_iff.1 hstep
    exact hmove rfl rfl rfl
  case h_4 =>
    dsimp only at hstep
    split at hstep <;> cases hstep <;> exact hmove rfl rfl rfl
  case h_5 | h_6 => split at hstep <;> cases hstep <;> exact hmove rfl rfl rfl
  case h_7 =>
    cases hstep
    apply hmove rfl rfl
    split_ifs <;> rfl
  case h_10 =>
    cases hstep
    unfold SessionRuntime.failed
    split_ifs <;> exact hmove rfl rfl rfl
  case h_13 =>
    cases hstep
    unfold SessionRuntime.finish
    split_ifs
    · exact (h.record hr (by rw [hpos]; rfl) rfl _).of_eq rfl rfl
    · exact h.remove hr (by rw [hpos]; rfl) rfl
  case h_19 =>
    have hown : r.pos.owns = true := by rw [hpos]; rfl
    rw [h.owner i r hr hown] at hstep
    cases hstep
    exact h.remove hr hown rfl
  case h_20 => cases hstep
  all_goals
    cases hstep
    exact hmove rfl rfl rfl

theorem Reserved.step (h : s.Reserved) {a : SessionAction} (hstep : s.step a = some s') :
    s'.Reserved := by
  cases a with
  | tick now =>
    simp only [SessionRuntime.step] at hstep
    split_ifs at hstep
    cases hstep
    exact h.of_eq rfl rfl
  | control op | close =>
    cases hstep
    exact h.of_eq rfl rfl
  | execute principal commandId expected =>
    cases hstep
    refine ⟨h.cache, ?_, ?_⟩
    · intro id k hk
      obtain ⟨r, hr, hid, hown⟩ := h.inFlight id k hk
      exact ⟨r, List.getElem?_append_left (List.getElem?_eq_some_iff.1 hr).1 ▸ hr, hid, hown⟩
    · intro k r hr hown
      rcases getElem?_concat_cases hr with hold | ⟨-, rfl⟩
      · exact h.owner k r hold hown
      · cases hown
  | request i action =>
    obtain ⟨r, hr, hstep⟩ := bind_eq_some_iff.1 hstep
    exact h.requestStep hr hstep
  | closer j action =>
    obtain ⟨pos, -, hstep⟩ := bind_eq_some_iff.1 hstep
    obtain ⟨hcache, hrequests, -⟩ := closeStep_frame hstep
    exact h.of_eq hcache hrequests

end SessionRuntime

/-! ## Commands that the driver was asked for -/

/-- Command `id` was recorded in these events, and then 256 other ones. -/
def Superseded (id : Uuid) (events : List CommandEvent) : Prop :=
  ∃ before after, events = before ++ .recorded id :: after ∧
    ∃ others : List Uuid, others.Nodup ∧ others.length = idempotencyCapacity ∧
      ∀ other ∈ others, other ≠ id ∧ .recorded other ∈ after

variable {events : List CommandEvent}

theorem Superseded.append {id : Uuid} (h : Superseded id events)
    (more : List CommandEvent) : Superseded id (events ++ more) := by
  obtain ⟨before, after, rfl, others, hnodup, hlength, hothers⟩ := h
  refine ⟨before, after ++ more, by rw [append_assoc, cons_append], others, hnodup, hlength, ?_⟩
  intro other hother
  obtain ⟨hne, hmem⟩ := hothers other hother
  exact ⟨hne, mem_append_left _ hmem⟩

/-- The driver starts command `id` again only after it has not reached the browser, or when it is
    superseded. -/
def Once (id : Uuid) (events : List CommandEvent) : Prop :=
  ∀ before mid after, events = before ++ .started id :: (mid ++ .started id :: after) →
    .unreached id ∈ mid ∨ Superseded id mid

theorem Once.concat {id : Uuid} {event : CommandEvent} (h : Once id events)
    (hnew : event = .started id → ∀ before mid, events = before ++ .started id :: mid →
      .unreached id ∈ mid ∨ Superseded id mid) : Once id (events ++ [event]) := by
  intro before mid after heq
  rcases concat_eq_append_cons heq with ⟨hnil, -⟩ | ⟨rest, hrest, hevents⟩
  · exact absurd hnil (append_ne_nil_of_right_ne_nil _ (cons_ne_nil _ _))
  · rcases concat_eq_append_cons hrest.symm with ⟨-, hevent, rfl⟩ | ⟨after', -, rfl⟩
    · exact hnew hevent before rest hevents
    · exact h before mid after' hevents

namespace SessionRuntime

variable {s s' : SessionRuntime} {i : ℕ} {r : Request} {pos : ExecutePos}

/-- Where a command is, when the events since the driver started it are `events`: a request has
    yet to record its outcome, or it is recorded and those recorded later are behind it, or it
    is superseded. -/
def Accounted (s : SessionRuntime) (id : Uuid) (events : List CommandEvent) : Prop :=
  (∃ (k : ℕ) (r : Request), s.requests[k]? = some r ∧ r.commandId = id ∧ r.pos.asked = true) ∨
  (∃ before after older newer, events = before ++ .recorded id :: after ∧
    s.idempotency.order = older ++ id :: newer ∧ ∀ other ∈ newer, .recorded other ∈ after) ∨
  Superseded id events

theorem Accounted.mono {id : Uuid} (h : s.Accounted id events)
    (horder : s'.idempotency.order = s.idempotency.order)
    (hasked : ∀ (k : ℕ) (r : Request), s.requests[k]? = some r → r.commandId = id →
      r.pos.asked = true → ∃ r', s'.requests[k]? = some r' ∧ r'.commandId = id ∧
        r'.pos.asked = true) (more : List CommandEvent) : s'.Accounted id (events ++ more) := by
  rcases h with ⟨k, r, hr, hid, hpos⟩ | ⟨before, after, older, newer, rfl, hold, hnewer⟩ | h
  · exact .inl ⟨k, hasked k r hr hid hpos⟩
  · refine .inr (.inl ⟨before, after ++ more, older, newer, ?_, horder.trans hold, ?_⟩)
    · rw [append_assoc, cons_append]
    · exact fun other hother => mem_append_left _ (hnewer other hother)
  · exact .inr (.inr (h.append more))

theorem Accounted.record {id id' : Uuid} (h : s.Accounted id events)
    (hwf : s.idempotency.WellFormed) (hnew : id' ∉ s.idempotency.order) (outcome : IdemOutcome)
    (horder : s'.idempotency.order = (s.idempotency.recordDone id' outcome).order)
    (hasked : ∀ (k : ℕ) (r : Request), s.requests[k]? = some r → r.commandId = id →
      r.pos.asked = true → ∃ r', s'.requests[k]? = some r' ∧ r'.commandId = id ∧
        r'.pos.asked = true) : s'.Accounted id (events ++ [.recorded id']) := by
  rcases h with ⟨k, r, hr, hid, hpos⟩ | ⟨before, after, older, newer, rfl, hold, hnewer⟩ | h
  · exact .inl ⟨k, hasked k r hr hid hpos⟩
  · right
    have hevents : (before ++ .recorded id :: after) ++ [.recorded id'] =
        before ++ .recorded id :: (after ++ [.recorded id']) := by
      rw [append_assoc, cons_append]
    have hmem : ∀ other ∈ newer ++ [id'],
        CommandEvent.recorded other ∈ after ++ [.recorded id'] := by
      intro other hother
      rcases mem_append.1 hother with hother | hother
      · exact mem_append_left _ (hnewer other hother)
      · rw [mem_singleton.1 hother]
        exact mem_append_right _ (mem_singleton_self _)
    rcases IdempotencyCache.recordDone_cases outcome hnew hwf.length_le with
      ⟨heq, -⟩ | ⟨oldest, rest, hcons, hfull, heq⟩
    · left
      refine ⟨before, _, older, newer ++ [id'], hevents, ?_, hmem⟩
      rw [horder, heq]
      show s.idempotency.order ++ [id'] = _
      rw [hold, append_assoc, cons_append]
    · rw [heq] at horder
      replace horder : s'.idempotency.order = rest ++ [id'] := horder
      rw [hold] at hcons
      cases older with
      | cons x older =>
        -- another one goes
        left
        obtain ⟨-, rfl⟩ := cons.inj hcons
        refine ⟨before, _, older, newer ++ [id'], hevents, ?_, hmem⟩
        rw [horder]
        exact append_assoc older (id :: newer) [id']
      | nil =>
        -- it is the oldest one, and all that are left were recorded later
        right
        cases hcons
        have hnodup := hwf.nodup
        rw [hold, nil_append, nodup_cons] at hnodup
        refine ⟨before, _, hevents, newer ++ [id'], ?_, ?_, ?_⟩
        · rw [nodup_append]
          refine ⟨hnodup.2, nodup_singleton _, ?_⟩
          rintro x hx y hy rfl
          rw [mem_singleton.1 hy] at hx
          rw [hold, nil_append] at hnew
          exact hnew (mem_cons_of_mem _ hx)
        · rw [length_append, ← hfull]
          rfl
        · intro other hother
          refine ⟨?_, hmem other hother⟩
          rintro rfl
          rcases mem_append.1 hother with hother | hother
          · exact hnodup.1 hother
          · rw [hold, nil_append, mem_singleton.1 hother] at hnew
            exact hnew mem_cons_self
  · exact .inr (.inr (h.append _))

/-- The invariant of a command. -/
structure Spent (s : SessionRuntime) (id : Uuid) : Prop where
  reserved : s.Reserved
  accounted : ∀ before mid, s.events = before ++ .started id :: mid →
    .unreached id ∉ mid → s.Accounted id mid
  once : Once id s.events

variable {id : Uuid}

theorem spent_new (id : Uuid) (leaseTtl now : Time) : (new leaseTtl now).Spent id where
  reserved := reserved_new leaseTtl now
  accounted before _ h := absurd h.symm (append_ne_nil_of_right_ne_nil before (by simp))
  once before _ _ h := absurd h.symm (append_ne_nil_of_right_ne_nil before (by simp))

theorem Spent.frame (h : s.Spent id) (hreserved : s'.Reserved)
    (horder : s'.idempotency.order = s.idempotency.order) (hevents : s'.events = s.events)
    (hasked : ∀ (k : ℕ) (r : Request), s.requests[k]? = some r → r.commandId = id →
      r.pos.asked = true →
      ∃ r', s'.requests[k]? = some r' ∧ r'.commandId = id ∧ r'.pos.asked = true) :
    s'.Spent id where
  reserved := hreserved
  accounted before mid heq hmid := by
    rw [hevents] at heq
    rw [← append_nil mid]
    exact (h.accounted before mid heq hmid).mono horder hasked []
  once := by
    rw [hevents]
    exact h.once

theorem asked_set (hr : s.requests[i]? = some r) {requests : List Request}
    (hrequests : requests = s.requests.set i { r with pos := pos }) {k : ℕ} {r' : Request}
    (hr' : s.requests[k]? = some r') (hid : r'.commandId = id) (hasked : r'.pos.asked = true)
    (hkeep : r.commandId = id → r.pos.asked = true → pos.asked = true) :
    ∃ r'', requests[k]? = some r'' ∧ r''.commandId = id ∧ r''.pos.asked = true := by
  rw [hrequests]
  by_cases heq : k = i
  · subst heq
    rw [hr] at hr'
    cases hr'
    exact ⟨{ r with pos := pos }, getElem?_set_same hr _, hid, hkeep hid hasked⟩
  · exact ⟨r', (getElem?_set_ne (Ne.symm heq)).trans hr', hid, hasked⟩

section

variable (h : s.Spent id) (hr : s.requests[i]? = some r) (hreserved : s'.Reserved)
include h hr hreserved

theorem Spent.move (horder : s'.idempotency.order = s.idempotency.order)
    (hevents : s'.events = s.events)
    (hrequests : s'.requests = s.requests.set i { r with pos := pos })
    (hkeep : r.commandId = id → r.pos.asked = true → pos.asked = true) : s'.Spent id := by
  apply h.frame hreserved horder hevents
  intro k r' hr' hid hasked
  exact asked_set hr hrequests hr' hid hasked hkeep

theorem Spent.perform (hown : r.pos.owns = true) (hnot : r.pos.asked = false)
    (hpos : pos.asked = true) (horder : s'.idempotency.order = s.idempotency.order)
    (hevents : s'.events = s.events ++ [.started r.commandId])
    (hrequests : s'.requests = s.requests.set i { r with pos := pos }) : s'.Spent id where
  reserved := hreserved
  accounted before mid heq hmid := by
    rw [hevents] at heq
    rcases concat_eq_append_cons heq with ⟨-, hid, -⟩ | ⟨mid', rfl, hold⟩
    · cases hid
      refine .inl ⟨i, { r with pos := pos }, ?_, rfl, hpos⟩
      rw [hrequests]
      exact getElem?_set_same hr _
    · apply (h.accounted before mid' hold fun hin => hmid (mem_append_left _ hin)).mono horder
      intro k r' hr' hid hasked
      exact asked_set hr hrequests hr' hid hasked fun _ _ => hpos
  once := by
    rw [hevents]
    apply h.once.concat
    rintro hid before mid hold
    cases hid
    by_cases hmid : CommandEvent.unreached r.commandId ∈ mid
    · exact .inl hmid
    · rcases h.accounted before mid hold hmid with
        ⟨k, r', hr', hid, hasked⟩ | ⟨_, _, older, newer, -, horder, -⟩ | hsuper
      · -- the request that was asked owns the command too
        obtain rfl := h.reserved.owner_eq hr' hr (owns_of_asked hasked) hown hid
        rw [hr] at hr'
        cases hr'
        rw [hnot] at hasked
        cases hasked
      · refine absurd ?_ (h.reserved.not_mem_order hr hown)
        rw [horder]
        exact mem_append_right _ mem_cons_self
      · exact .inr hsuper

theorem Spent.unreached (horder : s'.idempotency.order = s.idempotency.order)
    (hevents : s'.events = s.events ++ [.unreached r.commandId])
    (hrequests : s'.requests = s.requests.set i { r with pos := pos }) : s'.Spent id where
  reserved := hreserved
  accounted before mid heq hmid := by
    rw [hevents] at heq
    rcases concat_eq_append_cons heq with ⟨-, hid, -⟩ | ⟨mid', rfl, hold⟩
    · cases hid
    · have hne : id ≠ r.commandId := by
        rintro rfl
        exact hmid (mem_append_right _ (mem_singleton_self _))
      apply (h.accounted before mid' hold fun hin => hmid (mem_append_left _ hin)).mono horder
      intro k r' hr' hid hasked
      exact asked_set hr hrequests hr' hid hasked fun hsame _ => absurd hsame.symm hne
  once := by
    rw [hevents]
    exact h.once.concat nofun

theorem Spent.record (hown : r.pos.owns = true) (outcome : IdemOutcome)
    (horder : s'.idempotency.order = (s.idempotency.recordDone r.commandId outcome).order)
    (hevents : s'.events = s.events ++ [.recorded r.commandId])
    (hrequests : s'.requests = s.requests.set i { r with pos := pos }) : s'.Spent id where
  reserved := hreserved
  accounted before mid heq hmid := by
    rw [hevents] at heq
    have hnew := h.reserved.not_mem_order hr hown
    rcases concat_eq_append_cons heq with ⟨-, hid, -⟩ | ⟨mid', rfl, hold⟩
    · cases hid
    · by_cases hid : id = r.commandId
      · -- it is the newest record
        subst hid
        rcases IdempotencyCache.recordDone_cases outcome hnew
          h.reserved.cache.length_le with ⟨hcase, -⟩ | ⟨oldest, rest, -, -, hcase⟩
        all_goals
          rw [hcase] at horder
          exact .inr (.inl ⟨mid', [], _, [], rfl, horder, nofun⟩)
      · apply (h.accounted before mid' hold fun hin =>
          hmid (mem_append_left _ hin)).record h.reserved.cache hnew outcome horder
        intro k r' hr' hid' hasked
        exact asked_set hr hrequests hr' hid' hasked fun hsame _ => absurd hsame.symm hid
  once := by
    rw [hevents]
    exact h.once.concat nofun

end

/-- No request for command `id` is dropped while the driver performs it. -/
def undropped (id : Uuid) (s : SessionRuntime) : SessionAction → Bool
  | .request i .drop => (s.requests[i]?).all fun r => r.commandId ≠ id || !r.pos.asked
  | _ => true

def Undropped (id : Uuid) (s : SessionRuntime) (a : SessionAction) : Prop := undropped id s a = true
  deriving Decidable

theorem Spent.requestStep (h : s.Spent id) (hr : s.requests[i]? = some r) {action : RequestAction}
    (hok : Undropped id s (.request i action))
    (hstep : s.requestStep i r r.pos action = some s') : s'.Spent id := by
  have hreserved := h.reserved.requestStep hr hstep
  generalize hpos : r.pos = pos at hstep
  have hmove : ∀ {s₁ : SessionRuntime} {pos' : ExecutePos},
      s₁.idempotency.order = s.idempotency.order → s₁.events = s.events →
      s₁.requests = s.requests → (r.commandId = id → pos.asked = true → pos'.asked = true) →
      (s₁.moveRequest i r pos').Reserved → (s₁.moveRequest i r pos').Spent id := by
    intro s₁ pos' horder hevents hrequests hkeep hreserved
    have hset : (s₁.moveRequest i r pos').requests = s.requests.set i { r with pos := pos' } := by
      rw [← hrequests]
      rfl
    apply h.move hr hreserved horder hevents hset
    rw [hpos]
    exact hkeep
  unfold SessionRuntime.requestStep at hstep
  split at hstep
  case h_1 =>
    cases hstep
    exact hmove rfl rfl rfl nofun hreserved
  case h_2 =>
    cases hstep
    unfold SessionRuntime.reserve at hreserved ⊢
    revert hreserved
    split <;> intro hreserved <;> exact hmove rfl rfl rfl nofun hreserved
  case h_3 =>
    obtain ⟨outcome, -, rfl⟩ := map_eq_some_iff.1 hstep
    exact hmove rfl rfl rfl nofun hreserved
  case h_4 =>
    dsimp only at hstep
    split at hstep <;> cases hstep <;> exact hmove rfl rfl rfl nofun hreserved
  case h_5 | h_6 | h_19 =>
    split at hstep <;> cases hstep <;> exact hmove rfl rfl rfl nofun hreserved
  case h_8 =>
    cases hstep
    exact h.perform hr hreserved (by rw [hpos]; rfl) (by rw [hpos]; rfl) rfl rfl rfl rfl
  case h_9 | h_11 | h_12 =>
    cases hstep
    exact hmove rfl rfl rfl (fun _ _ => rfl) hreserved
  case h_10 e =>
    cases hstep
    unfold SessionRuntime.failed at hreserved ⊢
    split_ifs at hreserved ⊢ with hexecuted
    · exact hmove rfl rfl rfl (fun _ _ => by rw [hexecuted]; rfl) hreserved
    · exact h.unreached hr hreserved rfl rfl rfl
  case h_13 =>
    cases hstep
    unfold SessionRuntime.finish at hreserved ⊢
    split_ifs at hreserved ⊢ with hexecuted
    · exact h.record hr hreserved (by rw [hpos]; rfl) _ rfl rfl rfl
    · refine hmove rfl rfl rfl (fun _ hasked => ?_) hreserved
      rw [Bool.eq_false_iff.2 hexecuted] at hasked
      cases hasked
  case h_17 | h_18 =>
    cases hstep
    refine hmove rfl rfl rfl (fun hid _ => ?_) hreserved
    simp [Undropped, undropped, hr, hpos, hid, ExecutePos.asked] at hok
  case h_20 => cases hstep
  all_goals
    cases hstep
    exact hmove rfl rfl rfl nofun hreserved

theorem Spent.step (h : s.Spent id) {a : SessionAction} (hok : Undropped id s a)
    (hstep : s.step a = some s') : s'.Spent id := by
  have hreserved := h.reserved.step hstep
  cases a with
  | tick now =>
    simp only [SessionRuntime.step] at hstep
    split_ifs at hstep
    cases hstep
    exact h.frame hreserved rfl rfl fun k r hr hid hasked => ⟨r, hr, hid, hasked⟩
  | control op | close =>
    cases hstep
    exact h.frame hreserved rfl rfl fun k r hr hid hasked => ⟨r, hr, hid, hasked⟩
  | execute principal commandId expected =>
    cases hstep
    apply h.frame hreserved rfl rfl
    intro k r hr hid hasked
    exact ⟨r, List.getElem?_append_left (List.getElem?_eq_some_iff.1 hr).1 ▸ hr, hid, hasked⟩
  | request i action =>
    obtain ⟨r, hr, hstep⟩ := bind_eq_some_iff.1 hstep
    exact h.requestStep hr hok hstep
  | closer j action =>
    obtain ⟨pos, -, hstep⟩ := bind_eq_some_iff.1 hstep
    obtain ⟨hcache, hrequests, hevents⟩ := closeStep_frame hstep
    apply h.frame hreserved (by rw [hcache]) hevents
    intro k r hr hid hasked
    exact ⟨r, hrequests ▸ hr, hid, hasked⟩

/-- Where no request for a command is dropped while the driver performs it, the driver starts the
    command again only if it has answered that the command did not reach the browser, or if 256
    others were recorded after it. -/
theorem commands_performed_once (h : Reachable step (Undropped id) Fresh s) : Once id s.events := by
  have hspent : s.Spent id := by
    apply h.invariant (P := fun s => s.Spent id)
    · rintro s ⟨leaseTtl, now, rfl⟩
      exact spent_new id leaseTtl now
    · exact fun s a s' hs hok hstep => hs.step hok hstep
  exact hspent.once

/-- The request `i` for command 7 of the agent 1, up to the driver. -/
def exampleRequest (i : ℕ) : List SessionAction :=
  [.execute (.agent 1) 7 none, .request i .ensureOpen, .request i .reserve, .request i .admission,
    .request i .lockGate, .request i .recheck, .request i .currentHandle, .request i .perform]

/-- The driver answers, and the same command is submitted again. -/
def exampleDuplicate : List SessionAction :=
  .control (.acquire (.agent 1) false false none) :: (exampleRequest 0 ++
    [.request 0 (.answer (.ok none)), .request 0 (.page none), .request 0 .finish,
      .request 0 .leave, .execute (.agent 1) 7 none, .request 1 .ensureOpen, .request 1 .reserve])

/-- The duplicate gets the recorded outcome. -/
theorem duplicate_not_performed :
    ∃ s, exec step (Undropped 7) (new 60 0) exampleDuplicate = some s ∧
    s.events = [.started 7, .recorded 7] ∧ Once 7 s.events := by
  have hexec : ∃ s, exec step (Undropped 7) (new 60 0) exampleDuplicate = some s ∧
      s.events = [.started 7, .recorded 7] := ⟨_, rfl, rfl⟩
  obtain ⟨s, hs, hevents⟩ := hexec
  exact ⟨s, hs, hevents, commands_performed_once (reachable_of_exec ⟨60, 0, rfl⟩ hs)⟩

/-- The request is dropped while the driver performs its command, which is submitted again. -/
def exampleDropped : List SessionAction :=
  .control (.acquire (.agent 1) false false none) :: (exampleRequest 0 ++
    [.request 0 .drop, .request 0 .dropGuard] ++ exampleRequest 1)

/-- The browser process exits while the driver performs the command. -/
def exampleGone : List SessionAction :=
  .control (.acquire (.agent 1) false false none) :: (exampleRequest 0 ++
    [.request 0 (.answer (.error .gone)), .request 0 .finish, .request 0 .leave] ++
    exampleRequest 1)

/-- The driver starts command 7 twice: after its request was dropped, and after the driver has
    answered that the browser is gone. -/
theorem command_performed_twice :
    (∃ s, Reachable step anyStep Fresh s ∧ s.events = [.started 7, .started 7]) ∧
    ∃ s, Reachable step anyStep Fresh s ∧ s.events = [.started 7, .unreached 7, .started 7] := by
  have hdropped : ∃ s, exec step anyStep (new 60 0) exampleDropped = some s ∧
      s.events = [.started 7, .started 7] := ⟨_, rfl, rfl⟩
  have hgone : ∃ s, exec step anyStep (new 60 0) exampleGone = some s ∧
      s.events = [.started 7, .unreached 7, .started 7] := ⟨_, rfl, rfl⟩
  obtain ⟨s, hs, hevents⟩ := hdropped
  obtain ⟨s', hs', hevents'⟩ := hgone
  exact ⟨⟨s, reachable_of_exec ⟨60, 0, rfl⟩ hs, hevents⟩,
    s', reachable_of_exec ⟨60, 0, rfl⟩ hs', hevents'⟩

end SessionRuntime

end VibeKanban.Browser
