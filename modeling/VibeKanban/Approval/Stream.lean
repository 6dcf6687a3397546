import VibeKanban.Approval.Resolution

/-!
# What the streams of patches tell (`services/approvals.rs`)

A stream takes its snapshot before it subscribes, and a patch is sent after the change that it tells
of.

* `client_eq_pendingInfos`: a client whose stream is drained holds the pending approvals, in the
  timely runs.
-/

namespace VibeKanban.Approval

open Lib Cluster Broadcast List Option
open Function (update update_apply update_of_ne update_self)

/-! ## Patches applied in order -/

def ApprovalPatch.about : ApprovalPatch → Uuid
  | .created info => info.approvalId
  | .resolved id => id

/-- What a client holds for the approval after the patch. -/
def ApprovalPatch.value : ApprovalPatch → Option ApprovalInfo
  | .created info => some info
  | .resolved _ => none

namespace Approvals

variable {client client' : Uuid → Option ApprovalInfo} {patch : ApprovalPatch}
  {patches : List ApprovalPatch} {id : Uuid}

theorem applyPatch_eq : applyPatch client patch = update client patch.about patch.value := by
  cases patch <;> rfl

def applyPatches (client : Uuid → Option ApprovalInfo) (patches : List ApprovalPatch) :
    Uuid → Option ApprovalInfo := patches.foldl applyPatch client

theorem applyPatches_append : applyPatches client (patches ++ [patch]) =
    update (applyPatches client patches) patch.about patch.value := by
  rw [applyPatches, foldl_append, ← applyPatch_eq]
  rfl

theorem applyPatches_congr (h : client id = client' id) :
    applyPatches client patches id = applyPatches client' patches id := by
  induction patches using reverseRecOn with
  | nil => exact h
  | append_singleton patches patch ih =>
    rw [applyPatches_append, applyPatches_append, update_apply, update_apply, ih]

theorem applyPatches_eq_of_forall
    (h : ∀ patch ∈ patches, patch.about = id → patch.value = client id) :
    applyPatches client patches id = client id := by
  induction patches using reverseRecOn with
  | nil => rfl
  | append_singleton patches patch ih =>
    rw [applyPatches_append, update_apply]
    have hinit := ih fun p hp => h p (mem_append_left _ hp)
    split_ifs with hid
    · exact h patch (mem_append_right _ (mem_singleton_self _)) hid.symm
    · exact hinit

/-! ## The patches that are sent -/

inductive Sends (s : Approvals) : ApprovalAction → ApprovalPatch → Prop
  | created {id : Uuid} {approval : PendingApproval}
    (h : s.creations id = some ⟨approval, .inserted⟩) :
    Sends s (.creation id) (.created (approval.info id))
  | timedOut {id : Uuid} (h : s.watchers id = some .removed) : Sends s (.watch id) (.resolved id)
  | answered {k : ℕ} {id : Uuid} {status : ApprovalOutcome} {p : PendingApproval}
    (h : s.responds k = some ⟨id, status, .answered p⟩) :
    Sends s (.respondStep k) (.resolved id)
  | cancelled {k : ℕ} {id : Uuid} (h : s.cancels k = some ⟨id, .recorded⟩) :
    Sends s (.cancelStep k) (.resolved id)

variable {s s' : Approvals} {k : ℕ} {a : ApprovalAction}

theorem patches_of_step (hm : s.Moves a s') : (s'.patches = s.patches ∧ ∀ patch, ¬s.Sends a patch) ∨
      ∃ patch, s.Sends a patch ∧ s'.patches = s.patches.send patch := by
  cases hm with
  | announce hc => exact .inr ⟨_, .created hc, rfl⟩
  | watcherPatch hw => exact .inr ⟨_, .timedOut hw, rfl⟩
  | respondPatch hr => exact .inr ⟨_, .answered hr, rfl⟩
  | cancelPatch hc => exact .inr ⟨_, .cancelled hc, rfl⟩
  | _ =>
    refine .inl ⟨rfl, ?_⟩
    intro patch hsends
    cases hsends <;> simp_all

theorem sent_step (hm : s.Moves a s') (h : patch ∈ s.patches.sent) : patch ∈ s'.patches.sent := by
  rcases patches_of_step hm with ⟨hsame, -⟩ | ⟨patch', -, hsend⟩
  · rw [hsame]
    exact h
  · rw [hsend]
    exact mem_append_left _ h

theorem mem_sent_of_step (hm : s.Moves a s') (h : patch ∈ s'.patches.sent) :
    patch ∈ s.patches.sent ∨ s.Sends a patch := by
  rcases patches_of_step hm with ⟨hsame, -⟩ | ⟨patch', hsends, hsend⟩
  · rw [hsame] at h
    exact .inl h
  · rw [hsend] at h
    rcases mem_append.1 h with hold | hnew
    · exact .inl hold
    · rw [mem_singleton.1 hnew]
      exact .inr hsends

/-- The patch that announces the approval was sent. -/
def announced : Option Creation → Bool
  | some ⟨_, .announced⟩ | some ⟨_, .returned⟩ => true
  | _ => false

theorem not_uncreated_of_announced {c : Option Creation} (h : announced c = true) :
    uncreated c = false := by
  unfold announced at h
  split at h
  · rfl
  · rfl
  · cases h

/-- Which patches were sent. -/
structure Published (s : Approvals) : Prop where
  created : ∀ info, .created info ∈ s.patches.sent →
    announced (s.creations info.approvalId) = true ∧
      (s.creations info.approvalId).map (fun c => c.approval.info info.approvalId) = some info
  resolved : ∀ id, .resolved id ∈ s.patches.sent →
    s.owner id ≠ .nobody ∧ s.owner id ≠ .table ∧ ∀ k, s.owner id ≠ .respond k
  spent : ∀ id, s.owner id = .spent → .resolved id ∈ s.patches.sent ∨
    ∃ k status p, s.responds k = some ⟨id, status, .answered p⟩
  watcher : ∀ id, s.watchers id = some .patched → .resolved id ∈ s.patches.sent
  cancel : ∀ k id, s.cancels k = some ⟨id, .patched⟩ → .resolved id ∈ s.patches.sent

theorem published_new (now : Timestamp) : (new now).Published := by
  constructor <;> simp [new, channel]

theorem answered_step (hm : s.Moves a s') {status : ApprovalOutcome} {p : PendingApproval}
    (hr : s.responds k = some ⟨id, status, .answered p⟩) :
    s'.responds k = some ⟨id, status, .answered p⟩ ∨ .resolved id ∈ s'.patches.sent := by
  by_cases hmine : a = .respondStep k
  · right
    subst hmine
    cases hm with
    | respondPatch hr' =>
      cases hr.symm.trans hr'
      exact mem_append_right _ (mem_singleton_self _)
    | respondRemove hr' | respondMiss hr' | respondRefuse hr' | respondPutBack hr'
    | respondRecord hr' | respondSend hr' => cases hr.symm.trans hr'
  · exact .inl (responds_of_ne hm hr hmine)

variable {info : ApprovalInfo}

section

variable (h : s.Published)

include h

theorem Published.created_step (hm : s.Moves a s') (hmem : .created info ∈ s'.patches.sent) :
    announced (s'.creations info.approvalId) = true ∧
      (s'.creations info.approvalId).map (fun c => c.approval.info info.approvalId) =
        some info := by
  rcases mem_sent_of_step hm hmem with hmem' | hsends
  · obtain ⟨hannounced, hinfo⟩ := h.created info hmem'
    cases hm with
    | create | insert | announce | spawn => grind [update_apply, announced]
    | _ => exact ⟨hannounced, hinfo⟩
  · cases hsends with
    | @created id approval hc =>
      cases hm with
      | insert hc' | spawn hc' => cases hc.symm.trans hc'
      | announce hc' =>
        cases hc.symm.trans hc'
        show announced (update s.creations id _ id) = true ∧
          Option.map _ (update s.creations id _ id) = _
        rw [update_self]
        exact ⟨rfl, rfl⟩

theorem Published.resolved_step (hans : s.Answered) (ho : s.Owned)
    (hm : s.Moves a s') (hmem : .resolved id ∈ s'.patches.sent) :
    s'.owner id ≠ .nobody ∧ s'.owner id ≠ .table ∧ ∀ k, s'.owner id ≠ .respond k := by
  rcases mem_sent_of_step hm hmem with hmem' | hsends
  · obtain ⟨hnobody, htable, hrespond⟩ := h.resolved id hmem'
    have hpending := ho.table id
    cases hm with
    | insert hc =>
      have hown := (ho.nobody _).2 (congrArg uncreated hc)
      grind [update_apply]
    | respondPutBack hr =>
      have hown := (ho.respond _ _).2 (congrArg responding hr)
      grind [update_apply]
    | watcherRemove | watcherSend | respondRemove | respondSend | cancelRemove | cancelDrop =>
      grind [update_apply]
    | _ => exact ⟨hnobody, htable, hrespond⟩
  · cases hsends with
    | timedOut hw =>
      have hown := (ho.watcher _).2 (congrArg watching hw)
      cases hm <;> simp_all
    | answered hr =>
      have hv := hans.sent _ _ hr rfl
      have hown := (ho.spent _).2 (by rw [hv]; exact some_ne_none _)
      cases hm <;> simp_all
    | cancelled hc =>
      have hown := (ho.cancel _ _).2 (congrArg cancelling hc)
      cases hm <;> simp_all

theorem Published.spent_step (hm : s.Moves a s')
    (hspent : s'.owner id = .spent) : .resolved id ∈ s'.patches.sent ∨
      ∃ k status p, s'.responds k = some ⟨id, status, .answered p⟩ := by
  by_cases hold : s.owner id = .spent
  · rcases h.spent id hold with hmem | ⟨k, status, p, hr⟩
    · exact .inl (sent_step hm hmem)
    · rcases answered_step hm hr with hr' | hmem
      · exact .inr ⟨k, status, p, hr'⟩
      · exact .inl hmem
  · cases hm with
    | watcherSend hw =>
      have hmem := h.watcher _ hw
      grind [update_apply]
    | cancelDrop hc =>
      have hmem := h.cancel _ _ hc
      grind [update_apply]
    | @respondSend k id' status p hr =>
      by_cases hid : id = id'
      · subst hid
        exact .inr ⟨k, status, p, update_self _ _ _⟩
      · exact absurd ((update_of_ne hid _ _).symm.trans hspent) hold
    | insert | watcherRemove | respondRemove | respondPutBack | cancelRemove => grind [update_apply]
    | _ => exact absurd hspent hold

theorem Published.watcher_step (hm : s.Moves a s')
    (hw : s'.watchers id = some .patched) : .resolved id ∈ s'.patches.sent := by
  by_cases hold : s.watchers id = some .patched
  · exact sent_step hm (h.watcher id hold)
  · cases hm with
    | @watcherPatch id' hw' =>
      by_cases hid : id = id'
      · rw [hid]
        exact mem_append_right _ (mem_singleton_self _)
      · exact absurd ((update_of_ne hid _ _).symm.trans hw) hold
    | spawn | deadline | wake | watcherRecord | watcherRemove | watcherMiss | watcherSend =>
      grind [update_apply]
    | _ => exact absurd hw hold

theorem Published.cancel_step (hm : s.Moves a s')
    (hc : s'.cancels k = some ⟨id, .patched⟩) : .resolved id ∈ s'.patches.sent := by
  by_cases hold : s.cancels k = some ⟨id, .patched⟩
  · exact sent_step hm (h.cancel k id hold)
  · cases hm with
    | @cancelPatch k' id' hc' =>
      by_cases hk : k = k'
      · subst hk
        cases (update_self k _ s.cancels).symm.trans hc
        exact mem_append_right _ (mem_singleton_self _)
      · exact absurd ((update_of_ne hk _ _).symm.trans hc) hold
    | cancel | cancelRemove | cancelMiss | cancelRecord | cancelDrop => grind [update_apply]
    | _ => exact absurd hc hold

theorem Published.step (hans : s.Answered) (ho : s.Owned) (hm : s.Moves a s') : s'.Published where
  created _ := h.created_step hm
  resolved _ := h.resolved_step hans ho hm
  spent _ := h.spent_step hm
  watcher _ := h.watcher_step hm
  cancel _ _ := h.cancel_step hm

end

/-! ## What the clients will hold -/

/-- The approval was announced and nobody has resolved it. -/
def Open (s : Approvals) (id : Uuid) (approval : PendingApproval) : Prop :=
  (s.creations id = some ⟨approval, .announced⟩ ∨ s.creations id = some ⟨approval, .returned⟩) ∧
    (s.pending id ≠ none ∨ s.Withheld id)

theorem Published.not_open (h : s.Published) (ho : s.Owned)
    (hmem : .resolved id ∈ s.patches.sent) (approval : PendingApproval) : ¬s.Open id approval := by
  obtain ⟨-, htable, hrespond⟩ := h.resolved id hmem
  rintro ⟨-, hp | hwithheld⟩
  · exact htable ((ho.table id).2 hp)
  · obtain ⟨k, hk⟩ := hwithheld.owner_respond ho
    exact hrespond k hk

variable {approval : PendingApproval}

theorem Published.info_eq (h : s.Published)
    (hopen : s.Open info.approvalId approval) (hmem : .created info ∈ s.patches.sent) :
    info = approval.info info.approvalId := by
  obtain ⟨-, heq⟩ := h.created info hmem
  rcases hopen.1 with hc | hc
  all_goals
    rw [hc] at heq
    exact (some_inj.1 heq).symm

theorem open_of_step (hm : s.Moves a s')
    (h : s'.Open id approval) : s.Open id approval ∨ s.Sends a (.created (approval.info id)) := by
  obtain ⟨hpos, hp⟩ := h
  have hwithheld := fun hh : s'.Withheld id => withheld_of_step hm hh
  unfold Open
  cases hm with
  | @announce id' _ hc =>
    by_cases hid : id = id'
    · subst hid
      simp only [update_self, some.injEq, Creation.mk.injEq] at hpos
      right
      obtain ⟨rfl, -⟩ | ⟨-, hpos⟩ := hpos
      · exact .created hc
      · cases hpos
    · left
      simp only [update_of_ne hid] at hpos
      exact ⟨hpos, hp⟩
  | respondPutBack hr hbad =>
    left
    refine ⟨hpos, ?_⟩
    have hmine : s.Withheld _ := ⟨_, _, _, _, hr, hbad⟩
    grind [update_apply]
  | create | insert | spawn | watcherRemove | respondRemove | cancelRemove => grind [update_apply]
  | _ =>
    left
    exact ⟨hpos, by grind⟩

theorem uncreated_of_step (hm : s.Moves a s') (h : uncreated (s'.creations id) = true) :
    uncreated (s.creations id) = true := by
  cases hm with
  | create | insert | announce | spawn => grind [update_apply, uncreated]
  | _ => exact h

def behind (sent : List ApprovalPatch) : StreamPos → List ApprovalPatch
  | .live rx => sent.drop rx
  | _ => []

/-- What the client will hold when the stream is drained. -/
def ahead (s : Approvals) (st : PatchStream) : Uuid → Option ApprovalInfo :=
  applyPatches st.client (behind s.patches.sent st.pos)

/-- The client will hold the announced approvals that nobody has resolved. -/
structure Converges (s : Approvals) (st : PatchStream) : Prop where
  resolved : ∀ id, .resolved id ∈ s.patches.sent → s.ahead st id = none
  opened : ∀ id approval, s.Open id approval → s.ahead st id = some (approval.info id)
  absent : ∀ id, uncreated (s.creations id) = true → s.ahead st id = none
  bound : ∀ rx, st.pos = .live rx → rx ≤ s.patches.sent.length
  later : ∀ rx id n, st.pos = .live rx → rx ≤ n → .resolved id ∈ s.patches.sent →
    applyPatches (fun _ => none) (s.patches.sent.drop n) id = none

/-- The patch tells a client that has its snapshot and no subscription nothing new. -/
def Reflects (s : Approvals) (client : Uuid → Option ApprovalInfo) : ApprovalPatch → Prop
  | .created info => s.pending info.approvalId ≠ none ∨ s.Withheld info.approvalId →
      client info.approvalId = some info
  | .resolved id => client id = none

/-- The patch announces an approval that a patch has already told to be resolved. -/
def Outdated (s : Approvals) : ApprovalPatch → Prop
  | .created info => .resolved info.approvalId ∈ s.patches.sent
  | .resolved _ => False

/-- No patch is lost between a snapshot and its subscription, no live stream gets an outdated
    patch, and no snapshot is taken while an entry is withheld. -/
structure Timely (s : Approvals) (a : ApprovalAction) : Prop where
  reflected : ∀ patch, s.Sends a patch → ∀ i client,
    s.streams i = some ⟨.snapshotted, client⟩ → s.Reflects client patch
  ordered : ∀ patch, s.Sends a patch → s.Outdated patch → ∀ i rx client,
    s.streams i ≠ some ⟨.live rx, client⟩
  snapshot : ∀ i, a = .streamStep i → ∀ id, s.Consults a id → ¬s.Withheld id

variable {st : PatchStream}

theorem Converges.keep (h : s.Converges st) (hm : s.Moves a s') (hsent : s'.patches = s.patches)
    (hnone : ∀ patch, ¬s.Sends a patch) : s'.Converges st := by
  obtain ⟨h1, h2, h3, h4, h5⟩ := h
  refine ⟨?_, ?_, ?_, ?_, ?_⟩
  · intro id hmem
    rw [hsent] at hmem
    rw [ahead, hsent]
    exact h1 id hmem
  · intro id approval hopen
    rw [ahead, hsent]
    rcases open_of_step hm hopen with hold | hsends
    · exact h2 id approval hold
    · exact absurd hsends (hnone _)
  · intro id hu
    rw [ahead, hsent]
    exact h3 id (uncreated_of_step hm hu)
  · rw [hsent]
    exact h4
  · rw [hsent]
    exact h5

theorem Sends.unique {patch' : ApprovalPatch} (h : s.Sends a patch) (h' : s.Sends a patch') :
    patch = patch' := by
  cases h <;> cases h' <;> simp_all

theorem Sends.same_pending (h : s.Sends a (.created info))
    (hm : s.Moves a s') : s'.pending = s.pending ∧ s'.responds = s.responds := by
  cases h with
  | created hc =>
    cases hm with
    | insert hc' | spawn hc' => cases hc.symm.trans hc'
    | announce => exact ⟨rfl, rfl⟩

/-- An approval that a patch is about is not new. -/
theorem Published.not_uncreated (h : s.Published) (ho : s.Owned) (hmem : patch ∈ s.patches.sent)
    (hu : uncreated (s.creations patch.about) = true) : False := by
  cases patch with
  | created info =>
    obtain ⟨hannounced, -⟩ := h.created info hmem
    cases (not_uncreated_of_announced hannounced).symm.trans hu
  | resolved id => exact (h.resolved id hmem).1 ((ho.nobody id).2 hu)

theorem Converges.send_snapshotted (h : s.Converges ⟨.snapshotted, client⟩) (hm : s.Moves a s')
    (hsends : s.Sends a patch) (hsend : s'.patches = s.patches.send patch)
    (hreflects : s.Reflects client patch) : s'.Converges ⟨.snapshotted, client⟩ := by
  refine ⟨?_, ?_, ?_, nofun, nofun⟩
  · intro id hmem
    rw [hsend] at hmem
    rcases mem_append.1 hmem with hold | hnew
    · exact h.resolved id hold
    · rw [← mem_singleton.1 hnew] at hreflects
      exact hreflects
  · intro id approval hopen
    rcases open_of_step hm hopen with hold | hcreated
    · exact h.opened id approval hold
    · rw [hsends.unique hcreated] at hreflects
      apply hreflects
      obtain ⟨hpending, hresponds⟩ := hcreated.same_pending hm
      have hp := hopen.2
      rw [Withheld, hpending, hresponds] at hp
      exact hp
  · exact fun id hu => h.absent id (uncreated_of_step hm hu)

variable {rx : ℕ}

theorem ahead_send (hsend : s'.patches = s.patches.send patch) (hle : rx ≤ s.patches.sent.length) :
    s'.ahead ⟨.live rx, client⟩ = update (s.ahead ⟨.live rx, client⟩) patch.about patch.value := by
  rw [ahead, ahead, hsend, ← applyPatches_append]
  congr 1
  exact drop_append_of_le_length hle

theorem Converges.send_live (h : s.Converges ⟨.live rx, client⟩) (hm : s.Moves a s')
    (hsends : s.Sends a patch) (hsend : s'.patches = s.patches.send patch)
    (hordered : ¬s.Outdated patch) (hpub : s'.Published) (ho : s'.Owned) :
    s'.Converges ⟨.live rx, client⟩ := by
  have hle := h.bound rx rfl
  have hmem : patch ∈ s'.patches.sent := by
    rw [hsend]
    exact mem_append_right _ (mem_singleton_self _)
  -- a patch about an approval that is resolved says so
  have hvalue : ∀ id, .resolved id ∈ s'.patches.sent → patch.about = id → patch.value = none := by
    intro id hresolved habout
    cases patch with
    | resolved id' => rfl
    | created info =>
      rw [hsend] at hresolved
      rcases mem_append.1 hresolved with hold | hnew
      · rw [← habout] at hold
        exact absurd hold hordered
      · cases mem_singleton.1 hnew
  have hold : ∀ id, .resolved id ∈ s'.patches.sent → patch.about ≠ id →
      .resolved id ∈ s.patches.sent := by
    intro id hresolved habout
    rw [hsend] at hresolved
    rcases mem_append.1 hresolved with hold | hnew
    · exact hold
    · rw [← mem_singleton.1 hnew] at habout
      exact absurd rfl habout
  refine ⟨?_, ?_, ?_, ?_, ?_⟩
  · intro id hresolved
    rw [ahead_send hsend hle, update_apply]
    split_ifs with hid
    · exact hvalue id hresolved hid.symm
    · exact h.resolved id (hold id hresolved (Ne.symm hid))
  · intro id approval hopen
    rw [ahead_send hsend hle, update_apply]
    rcases open_of_step hm hopen with hopen' | hcreated
    · by_cases hid : id = patch.about
      · exfalso
        cases patch with
        | resolved id' =>
          replace hid : id = id' := hid
          subst hid
          exact hpub.not_open ho hmem approval hopen
        | created info =>
          replace hid : id = info.approvalId := hid
          cases hsends with
          | created hc =>
            replace hid : id = _ := hid
            subst hid
            rcases hopen'.1 with hc' | hc'
            all_goals cases hc.symm.trans hc'
      · rw [if_neg hid]
        exact h.opened id approval hopen'
    · rw [hsends.unique hcreated]
      exact if_pos rfl
  · intro id hu
    rw [ahead_send hsend hle, update_apply]
    by_cases hid : id = patch.about
    · rw [hid] at hu
      exact absurd hu fun hu => hpub.not_uncreated ho hmem hu
    · rw [if_neg hid]
      exact h.absent id (uncreated_of_step hm hu)
  · intro rx' hrx
    cases hrx
    rw [hsend]
    exact hle.trans (by simp [Channel.send])
  · intro rx' id n hrx hn hresolved
    rw [hsend]
    by_cases hlen : n ≤ s.patches.sent.length
    · rw [Channel.send, drop_append_of_le_length hlen, applyPatches_append, update_apply]
      split_ifs with hid
      · exact hvalue id hresolved hid.symm
      · exact h.later rx' id n hrx hn (hold id hresolved (Ne.symm hid))
    · rw [drop_eq_nil_of_le (by simp [Channel.send]; omega)]
      rfl

theorem Published.snapshot (h : s.Published) (ho : s.Owned) :
    (∀ id, .resolved id ∈ s.patches.sent → s.pendingInfos id = none) ∧
      (∀ id, uncreated (s.creations id) = true → s.pendingInfos id = none) := by
  constructor
  · intro id hmem
    have htable := (h.resolved id hmem).2.1
    rw [ne_eq, ho.table, not_not] at htable
    rw [pendingInfos, htable]
    rfl
  · intro id hu
    have htable : s.owner id ≠ .table := by
      rw [(ho.nobody id).2 hu]
      exact nofun
    rw [ne_eq, ho.table, not_not] at htable
    rw [pendingInfos, htable]
    rfl

theorem pendingInfos_of_open (ho : s.Owned) (h : s.Open id approval) (hnot : ¬s.Withheld id) :
    s.pendingInfos id = some (approval.info id) := by
  obtain ⟨p, hp⟩ := ne_none_iff_exists'.1 (h.2.resolve_right hnot)
  have hentry := ho.entry id p hp
  have heq : p = approval := by
    rcases h.1 with hc | hc
    all_goals
      rw [hc] at hentry
      exact (some_inj.1 hentry).symm
  rw [pendingInfos, hp, heq]
  rfl

theorem converges_snapshot (hpub : s.Published) (ho : s.Owned) (hnot : ∀ id, ¬s.Withheld id) :
    s.Converges ⟨.snapshotted, s.pendingInfos⟩ where
  resolved := (hpub.snapshot ho).1
  opened id _ hopen := pendingInfos_of_open ho hopen (hnot id)
  absent := (hpub.snapshot ho).2
  bound := nofun
  later := nofun

theorem Converges.subscribe (h : s.Converges ⟨.snapshotted, client⟩) :
    s.Converges ⟨.live s.patches.subscribe, client⟩ := by
  have hahead : s.ahead ⟨.live s.patches.subscribe, client⟩ = s.ahead ⟨.snapshotted, client⟩ := by
    show applyPatches client (s.patches.sent.drop s.patches.sent.length) = client
    rw [drop_length]
    rfl
  refine ⟨?_, ?_, ?_, ?_, ?_⟩
  · rw [hahead]
    exact h.resolved
  · rw [hahead]
    exact h.opened
  · rw [hahead]
    exact h.absent
  · intro rx hrx
    cases hrx
    exact Nat.le_refl _
  · intro rx id n hrx hn _
    cases hrx
    rw [drop_eq_nil_of_le hn]
    rfl

theorem Converges.receive {rx' : ℕ} (h : s.Converges ⟨.live rx, client⟩)
    (hrecv : s.patches.recv rx = some (.ok patch, rx')) :
    s.Converges ⟨.live rx', applyPatch client patch⟩ := by
  rcases recv_spec hrecv with ⟨v, hv, hget, rfl⟩ | ⟨n, hn, -⟩
  · cases hv
    obtain ⟨hlt, hget⟩ := List.getElem?_eq_some_iff.1 hget
    have hahead : s.ahead ⟨.live (rx + 1), applyPatch client patch⟩ =
        s.ahead ⟨.live rx, client⟩ := by
      show applyPatches (applyPatch client patch) (s.patches.sent.drop (rx + 1)) =
        applyPatches client (s.patches.sent.drop rx)
      rw [List.drop_eq_getElem_cons hlt, hget]
      rfl
    refine ⟨?_, ?_, ?_, ?_, ?_⟩
    · rw [hahead]
      exact h.resolved
    · rw [hahead]
      exact h.opened
    · rw [hahead]
      exact h.absent
    · intro rx' hrx
      cases hrx
      exact hlt
    · intro rx' id n hrx hn hmem
      cases hrx
      exact h.later rx id n rfl (by omega) hmem
  · cases hn

theorem Converges.lag {rx' n : ℕ} (h : s.Converges ⟨.live rx, client⟩)
    (hrecv : s.patches.recv rx = some (.lagged n, rx')) (hpub : s.Published) (ho : s.Owned)
    (hnot : ∀ id, ¬s.Withheld id) : s.Converges ⟨.live rx', s.pendingInfos⟩ := by
  rcases recv_spec hrecv with ⟨v, hv, -⟩ | ⟨n, -, -, rfl, hle⟩
  · cases hv
  · obtain ⟨hresolved, hnew⟩ := hpub.snapshot ho
    refine ⟨?_, ?_, ?_, ?_, ?_⟩
    · intro id hmem
      have hsame : s.pendingInfos id = (fun _ => none) id := hresolved id hmem
      exact (applyPatches_congr hsame).trans (h.later rx id (rx + n) rfl (by omega) hmem)
    · intro id approval hopen
      have hinfo := pendingInfos_of_open ho hopen (hnot id)
      rw [← hinfo]
      apply applyPatches_eq_of_forall
      intro patch hmem habout
      replace hmem := mem_of_mem_drop hmem
      show patch.value = s.pendingInfos id
      rw [hinfo]
      cases patch with cases habout
      | resolved id' => exact absurd hopen (hpub.not_open ho hmem approval)
      | created info => exact congrArg some (hpub.info_eq hopen hmem)
    · intro id hu
      show applyPatches s.pendingInfos (s.patches.sent.drop (rx + n)) id = none
      rw [← hnew id hu]
      apply applyPatches_eq_of_forall
      intro patch hmem habout
      rw [← habout] at hu
      exact absurd hu fun hu => hpub.not_uncreated ho (mem_of_mem_drop hmem) hu
    · intro rx' hrx
      cases hrx
      exact hle
    · intro rx' id m hrx hm hmem
      cases hrx
      exact h.later rx id m rfl (by omega) hmem

def AllConverge (s : Approvals) : Prop :=
  ∀ i st, s.streams i = some st → st.pos ≠ .called → s.Converges st

theorem AllConverge.update_stream (h : s.AllConverge) (i : ℕ)
    (hst : st.pos ≠ .called → s.Converges st) :
    AllConverge { s with streams := update s.streams i (some st) } := by
  intro i' st' hst' hpos
  by_cases hi : i' = i
  · subst hi
    cases (update_self i' _ s.streams).symm.trans hst'
    obtain ⟨h1, h2, h3, h4, h5⟩ := hst hpos
    exact ⟨h1, h2, h3, h4, h5⟩
  · obtain ⟨h1, h2, h3, h4, h5⟩ := h i' st' ((update_of_ne hi _ _).symm.trans hst') hpos
    exact ⟨h1, h2, h3, h4, h5⟩

section

variable (h : s.AllConverge) (htimely : s.Timely a) (hm : s.Moves a s')
include h htimely hm

theorem AllConverge.send (hsends : s.Sends a patch) (hsend : s'.patches = s.patches.send patch)
    (hpub : s'.Published)
    (ho : s'.Owned) : s'.AllConverge := by
  have hstreams : s'.streams = s.streams := by cases hsends <;> cases hm <;> rfl
  intro i st hst hpos
  rw [hstreams] at hst
  have hcon := h i st hst hpos
  obtain ⟨pos, client⟩ := st
  cases pos with
  | called => exact absurd rfl hpos
  | snapshotted =>
    exact hcon.send_snapshotted hm hsends hsend (htimely.reflected patch hsends i client hst)
  | live rx =>
    apply hcon.send_live hm hsends hsend ?_ hpub ho
    exact fun hout => htimely.ordered patch hsends hout i rx client hst

theorem AllConverge.step (hpub : s.Published) (ho : s.Owned) (hpub' : s'.Published)
    (ho' : s'.Owned) :
    s'.AllConverge := by
  rcases patches_of_step hm with ⟨hsame, hnone⟩ | ⟨patch, hsends, hsend⟩
  · have hkeep : s'.streams = s.streams → s'.AllConverge := by
      intro hstreams i st hst hpos
      rw [hstreams] at hst
      exact (h i st hst hpos).keep hm hsame hnone
    cases hm with
    | stream hnew => exact h.update_stream _ fun hpos => absurd rfl hpos
    | @snapshot i client hs =>
      apply h.update_stream
      intro _
      apply converges_snapshot hpub ho
      exact fun id => htimely.snapshot i rfl id ⟨_, hs, .inl rfl⟩
    | subscribe hs =>
      apply h.update_stream
      exact fun _ => (h _ _ hs nofun).subscribe
    | receive hs hrecv =>
      apply h.update_stream
      exact fun _ => (h _ _ hs nofun).receive hrecv
    | @lag i _ _ _ _ hs hrecv =>
      apply h.update_stream
      intro _
      apply (h _ _ hs nofun).lag hrecv hpub ho
      exact fun id => htimely.snapshot i rfl id ⟨_, hs, .inr ⟨_, _, _, rfl, hrecv⟩⟩
    | _ => exact hkeep rfl
  · exact h.send htimely hm hsends hsend hpub' ho'

end

theorem converge_of_reachable (h : Reachable step Timely Start s) :
    s.Owned ∧ s.Answered ∧ s.Published ∧ s.AllConverge := by
  apply h.invariant (P := fun s => s.Owned ∧ s.Answered ∧ s.Published ∧ s.AllConverge)
  · rintro s ⟨now, rfl⟩
    exact ⟨owned_new now, answered_new now, published_new now, nofun⟩
  · rintro s a s' ⟨ho, hans, hpub, hcon⟩ htimely hstep
    have hm := moves_of_step hstep
    have ho' := ho.step hm
    have hpub' := hpub.step hans ho hm
    exact ⟨ho', hans.step ho hm, hpub', hcon.step htimely hm hpub ho hpub' ho'⟩

def Drained (s : Approvals) (st : PatchStream) : Prop :=
  ∃ rx, st.pos = .live rx ∧ s.patches.recv rx = none

/-- In the timely runs a client has the pending approvals when no step is under way and its
    stream is drained. -/
theorem client_eq_pendingInfos (h : Reachable step Timely Start s)
    (hquiet : ∀ id, s.creations id ≠ none → s.Quiet id) {i : ℕ} (hst : s.streams i = some st)
    (hdrained : s.Drained st) : st.client = s.pendingInfos := by
  obtain ⟨ho, hans, hpub, hcon⟩ := converge_of_reachable h
  obtain ⟨pos, client⟩ := st
  obtain ⟨rx, hpos, hrecv⟩ := hdrained
  replace hpos : pos = .live rx := hpos
  subst hpos
  have hc := hcon i _ hst nofun
  have hahead : s.ahead ⟨.live rx, client⟩ = client := by
    show applyPatches client (s.patches.sent.drop rx) = client
    rw [drop_eq_nil_of_le (length_le_of_recv_eq_none hrecv)]
    rfl
  obtain ⟨hsnapshot, hnew⟩ := hpub.snapshot ho
  funext id
  show client id = s.pendingInfos id
  rw [← hahead]
  by_cases hcreated : s.creations id = none
  · have hu : uncreated (s.creations id) = true := by rw [hcreated]; rfl
    rw [hc.absent id hu, hnew id hu]
  · have hq := hquiet id hcreated
    rcases hq.owner ho with htable | hspent
    · obtain ⟨approval, hreturned⟩ := hq.returned
      have hopen : s.Open id approval := ⟨.inr hreturned, .inl ((ho.table id).1 htable)⟩
      have hnot : ¬s.Withheld id := by
        intro hwithheld
        obtain ⟨k, hk⟩ := hwithheld.owner_respond ho
        cases htable.symm.trans hk
      rw [hc.opened id approval hopen, pendingInfos_of_open ho hopen hnot]
    · have hresolved : .resolved id ∈ s.patches.sent := by
        rcases hpub.spent id hspent with hmem | ⟨k, status, p, hr⟩
        · exact hmem
        · cases (hq.respond k _ hr rfl).symm.trans (step_of_moves (.respondPatch hr))
      rw [hc.resolved id hresolved, hsnapshot id hresolved]

theorem timely_streamStep {i : ℕ} (hr : s.responds = fun _ => none) : s.Timely (.streamStep i) := by
  refine ⟨nofun, nofun, ?_⟩
  rintro i - id - ⟨k, status, p, e, hr', -⟩
  rw [hr] at hr'
  cases hr'

theorem timely_of_live (hgap : ∀ i client, s.streams i ≠ some ⟨.snapshotted, client⟩)
    (hsent : ∀ id, .resolved id ∉ s.patches.sent) (ha : ∀ i, a ≠ .streamStep i) : s.Timely a := by
  refine ⟨fun _ _ i client hs => absurd hs (hgap i client), ?_, fun i hi => absurd hi (ha i)⟩
  intro patch _ hout
  cases patch with
  | created info => exact absurd hout (hsent _)
  | resolved id => exact hout.elim

/-- A stream that is live before the approval 7 is created. -/
theorem live_client_eq : ∃ (s : Approvals) (st : PatchStream), s.streams 0 = some st ∧
    s.Drained st ∧ st.client = s.pendingInfos ∧ st.client 7 = some (exampleApproval.info 7) := by
  have h0 : Reachable step Timely Start (new 0) := .start ⟨0, rfl⟩
  have h1 := h0.next (a := .stream 0) (timely_of_live nofun (fun _ => not_mem_nil) nofun) rfl
  have h2 := h1.next (a := .streamStep 0) (timely_streamStep rfl) rfl
  have h3 := h2.next (a := .streamStep 0) (timely_streamStep rfl) rfl
  have hlive : ∀ (st st' : Option PatchStream) (rx : ℕ) (client : Uuid → Option ApprovalInfo)
      (i : ℕ) (client' : Uuid → Option ApprovalInfo),
      update (update (update (fun _ => none) 0 st) 0 st') 0 (some ⟨.live rx, client⟩) i ≠
        some ⟨.snapshotted, client'⟩ := by
    intro st st' rx client i client'
    by_cases hi : i = 0
    · subst hi
      exact nofun
    · rw [update_of_ne hi, update_of_ne hi, update_of_ne hi]
      exact nofun
  have h4 := h3.next (a := .create 7 exampleApproval)
    (timely_of_live (hlive _ _ _ _) (fun _ => not_mem_nil) nofun) rfl
  have h5 := h4.next (a := .creation 7)
    (timely_of_live (hlive _ _ _ _) (fun _ => not_mem_nil) nofun) rfl
  have h6 := h5.next (a := .creation 7)
    (timely_of_live (hlive _ _ _ _) (fun _ => not_mem_nil) nofun) rfl
  have hcreated : ∀ id, .resolved id ∉ [ApprovalPatch.created (exampleApproval.info 7)] := by
    intro id hmem
    cases mem_singleton.1 hmem
  have h7 := h6.next (a := .creation 7) (timely_of_live (hlive _ _ _ _) hcreated nofun) rfl
  have h8 := h7.next (a := .streamStep 0) (timely_streamStep rfl) rfl
  refine ⟨_, _, rfl, ⟨1, rfl, rfl⟩, client_eq_pendingInfos h8 ?_ (i := 0) rfl ⟨1, rfl, rfl⟩, rfl⟩
  intro id hid
  by_cases hseven : id = 7
  · subst hseven
    exact ⟨hid, rfl, rfl, rfl, nofun, nofun⟩
  · simp [hseven, new] at hid

/-- The announcement is sent between the snapshot and the subscription. -/
def exampleGap : List ApprovalAction :=
  [.stream 0, .streamStep 0, .create 7 exampleApproval, .creation 7, .creation 7, .creation 7,
    .streamStep 0]

/-- The answer is told before the announcement. -/
def exampleOutdated : List ApprovalAction :=
  [.stream 0, .streamStep 0, .streamStep 0, .create 7 exampleApproval, .creation 7,
    .respond 0 7 .approved, .respondStep 0, .respondStep 0, .respondStep 0, .respondStep 0,
    .creation 7, .creation 7, .watch 7, .watch 7, .watch 7, .streamStep 0, .streamStep 0]

/-- A client misses a pending approval; a client keeps one that is resolved. -/
theorem client_misses_and_keeps :
    (∃ (s : Approvals) (st : PatchStream), Reachable step anyStep Start s ∧
      (∀ id, s.creations id ≠ none → s.Quiet id) ∧ s.streams 0 = some st ∧ s.Drained st ∧
      st.client 7 = none ∧ s.pendingInfos 7 = some (exampleApproval.info 7)) ∧
    ∃ (s : Approvals) (st : PatchStream), Reachable step anyStep Start s ∧
      (∀ id, s.creations id ≠ none → s.Quiet id) ∧ s.streams 0 = some st ∧ s.Drained st ∧
      st.client 7 = some (exampleApproval.info 7) ∧ s.pendingInfos 7 = none := by
  constructor
  · obtain ⟨s, hs, hquiet, hrest⟩ : ∃ s : Approvals, exec step anyStep (new 0) exampleGap = some s ∧
        (∀ id, s.creations id ≠ none → s.Quiet id) ∧ ∃ st, s.streams 0 = some st ∧ s.Drained st ∧
        st.client 7 = none ∧ s.pendingInfos 7 = some (exampleApproval.info 7) := by
      refine ⟨_, rfl, ?_, _, rfl, ⟨1, rfl, rfl⟩, rfl, rfl⟩
      intro id hid
      by_cases hseven : id = 7
      · subst hseven
        exact ⟨hid, rfl, rfl, rfl, (fun _ _ h => by cases h), (fun _ _ h => by cases h)⟩
      · simp [hseven, new] at hid
    obtain ⟨st, hrest⟩ := hrest
    exact ⟨s, st, reachable_of_exec ⟨0, rfl⟩ hs, hquiet, hrest⟩
  · obtain ⟨s, hs, hquiet, hrest⟩ : ∃ s : Approvals,
        exec step anyStep (new 0) exampleOutdated = some s ∧
        (∀ id, s.creations id ≠ none → s.Quiet id) ∧ ∃ st, s.streams 0 = some st ∧ s.Drained st ∧
        st.client 7 = some (exampleApproval.info 7) ∧ s.pendingInfos 7 = none := by
      refine ⟨_, rfl, ?_, _, rfl, ⟨2, rfl, rfl⟩, rfl, rfl⟩
      intro id hid
      by_cases hseven : id = 7
      · subst hseven
        refine ⟨hid, rfl, rfl, rfl, ?_, (fun _ _ h => by cases h)⟩
        rintro k r hr -
        by_cases hk : k = 0
        · rw [hk]
          rfl
        · simp [hk, new, moveRespond] at hr
      · simp [hseven, new, moveRespond] at hid
    obtain ⟨st, hrest⟩ := hrest
    exact ⟨s, st, reachable_of_exec ⟨0, rfl⟩ hs, hquiet, hrest⟩

end Approvals

end VibeKanban.Approval
