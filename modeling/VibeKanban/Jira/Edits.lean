import VibeKanban.Jira.Sync

/-!
# Whether a sync loses edits

What a pass writes on one side should be what the other side's user set after the sides last held
equal values.

* `lawful_of_meets`: it is, as long as the snapshot of the merge holds what the sides last held in
  common, and they do not come to agree between a read and the write.
-/

namespace VibeKanban.Jira.Sync

open Jira Lib

/-! ## The condition -/

section Condition

variable {α β : Type} (log seen : FieldLog α β)

/-- Only users have set the field since `seen`, and the snapshot is the base of the field, or both
    sides, read as `a` and `b`, have moved from it. -/
def Fits (snapshotIsBase : Prop) (a : α) (b : β) : Prop :=
  log.Since seen ∧ (snapshotIsBase ∨ a ≠ log.base.1 ∧ b ≠ log.base.2)

instance [DecidableEq α] [DecidableEq β] (snapshotIsBase : Prop) [Decidable snapshotIsBase] (a : α)
    (b : β) : Decidable (Fits log seen snapshotIsBase a b) :=
  inferInstanceAs (Decidable (_ ∧ _))

end Condition

namespace Work

variable (w : Work)

def TitleFits (log seen : FieldLog String String) : Prop :=
  Fits log seen (log.base = (w.link.lastSyncedTitle.getD "", w.link.lastSyncedTitle.getD ""))
    w.found.summary w.issue.title
  deriving Decidable

def DescriptionFits (log seen : FieldLog (Option String) (Option String)) : Prop :=
  Fits log seen (log.base = (normalizeDescription w.link.lastSyncedDescription,
    normalizeDescription w.link.lastSyncedDescription))
    (normalizeDescription w.found.description) (normalizeDescription w.issue.description)
  deriving Decidable

def StatusFits (log seen : FieldLog JiraStatus Uuid) : Prop :=
  Fits log seen (eqIgnoreAsciiCase log.base.1.name (w.link.lastSyncedJiraStatus.getD "") = true ∧
    w.link.lastSyncedStatusId = some log.base.2) w.found.status w.issue.statusId
  deriving Decidable

end Work

namespace System

variable (p : Project) (s : System)

/-- The condition on a write of texts to Jira: it changes nothing, or fits. -/
def WriteMeets (atLoad : History) (w : Work) : Prop :=
  (w.title = .writeJira → s.world.jira.summary = w.issue.title ∨
    w.TitleFits s.history.title atLoad.title) ∧
  (w.description = .writeJira →
    normalizeDescription s.world.jira.description = normalizeDescription w.issue.description ∨
      w.DescriptionFits s.history.description atLoad.description)
  deriving Decidable

def TransitionMeets (atLoad : History) (w : Work) (status : JiraStatus) : Prop :=
  s.world.jira.status = status ∨ w.StatusFits s.history.status atLoad.status
  deriving Decidable

def SaveMeets (atSearch : History) (w : Work) (jiraNow : JiraIssueData) : Prop :=
  (w.title = .writeVk → s.world.issue.title = jiraNow.summary ∨
    w.TitleFits s.history.title atSearch.title) ∧
  (w.description = .writeVk →
    normalizeDescription s.world.issue.description = normalizeDescription jiraNow.description ∨
      w.DescriptionFits s.history.description atSearch.description) ∧
  ∀ id ∈ w.newStatusId p.index jiraNow,
    s.world.issue.statusId = id ∨ w.StatusFits s.history.status atSearch.status
  deriving Decidable

def Meets (s : System) : Action → Prop
  | .work i answer =>
    match s.passes[i]? with
    | some pass =>
      match pass.phase with
      | .writing w => answer.reply ≠ .failed → s.WriteMeets pass.atLoad w
      | .transitioning w _ =>
        answer.reply ≠ .failed → w.push p.index ≠ .none → w.push p.index ≠ .noMapping →
          s.TransitionMeets pass.atLoad w answer.status
      | .saving w jiraNow _ => answer.reply ≠ .failed → s.SaveMeets p pass.atSearch w jiraNow
      | _ => True
    | none => True
  | _ => True

end System

/-! ## The law -/

/-- A step overwrites a field of one side only with what the user of the other side has set since
    the sides last held equal values; `mapping` is that of the pass. -/
structure Lawful (p : Project) (mapping : JiraStatusMapping) (s s' : System) : Prop where
  title_vk : s'.world.issue.title ≠ s.world.issue.title →
    s.history.title.SetSinceLeft s'.world.issue.title
  title_jira : s'.world.jira.summary ≠ s.world.jira.summary →
    s.history.title.SetSinceRight s'.world.jira.summary
  description_vk :
    normalizeDescription s'.world.issue.description ≠
        normalizeDescription s.world.issue.description →
      s.history.description.SetSinceLeft (normalizeDescription s'.world.issue.description)
  description_jira :
    normalizeDescription s'.world.jira.description ≠ normalizeDescription s.world.jira.description →
      s.history.description.SetSinceRight (normalizeDescription s'.world.jira.description)
  status_vk : s'.world.issue.statusId ≠ s.world.issue.statusId →
    ∃ status, s.history.status.SetSinceLeft status ∧
      vkStatusOf mapping p.index status = some s'.world.issue.statusId
  status_jira : s'.world.jira.status ≠ s.world.jira.status →
    ∃ id target, s.history.status.SetSinceRight id ∧
      mapping.resolveVkToJira ((p.index.nameById id).getD "") = some target ∧
      eqIgnoreAsciiCase s'.world.jira.status.name target = true

theorem Lawful.of_eq {p : Project} {mapping : JiraStatusMapping} {s s' : System}
    (hj : s'.world.jira = s.world.jira) (hi : s'.world.issue = s.world.issue) :
    Lawful p mapping s s' := by
  constructor <;> simp [hj, hi]

/-! ## What a copy takes -/

structure History.Sound (h : History) : Prop where
  title : h.title.Sound
  description : h.description.Sound
  status : h.status.Sound

section Copies

variable {p : Project} {s : System} {pass : Pass} {mapping : JiraStatusMapping}
  {atSearch atLoad atReread : History} {w : Work} {jiraNow : JiraIssueData}

section

variable (hw : Pass.KnowsWork p mapping atSearch atLoad w)

include hw

section

variable (hsound : s.history.Sound)
include hsound

theorem title_setSince_left (haction : w.title = .writeVk)
    (hfits : w.TitleFits s.history.title atSearch.title)
    (hfrom : s.history.From atReread) (horder : atReread.From atSearch)
    (hnow : atReread.ShowsJira jiraNow) : s.history.title.SetSinceLeft jiraNow.summary := by
  rw [← hnow.title]
  refine hsound.title.setSince_left hfits.1 hfrom.title horder.title ?_
  rw [hw.found.title]
  rcases hfits.2 with hbase | hmoved
  · rw [hw.decided] at haction
    rw [hbase]
    exact of_decide_eq_false (fieldAction_eq_writeVk haction)
  · exact hmoved.1

theorem title_setSince_right (haction : w.title = .writeJira)
    (hfits : w.TitleFits s.history.title atLoad.title) :
    s.history.title.SetSinceRight w.issue.title := by
  rw [← hw.issue.title]
  refine hsound.title.setSince_right hfits.1 hfits.1.from (.refl _) ?_
  rw [hw.issue.title]
  rcases hfits.2 with hbase | hmoved
  · rw [hw.decided] at haction
    rw [hbase]
    exact of_decide_eq_false (fieldAction_eq_writeJira haction)
  · exact hmoved.2

theorem description_setSince_left (haction : w.description = .writeVk)
    (hfits : w.DescriptionFits s.history.description atSearch.description)
    (hfrom : s.history.From atReread) (horder : atReread.From atSearch)
    (hnow : atReread.ShowsJira jiraNow) :
    s.history.description.SetSinceLeft (normalizeDescription jiraNow.description) := by
  rw [← hnow.description]
  refine hsound.description.setSince_left hfits.1 hfrom.description horder.description ?_
  rw [hw.found.description]
  rcases hfits.2 with hbase | hmoved
  · rw [hw.decided] at haction
    rw [hbase]
    exact of_decide_eq_false (fieldAction_eq_writeVk haction)
  · exact hmoved.1

theorem description_setSince_right (haction : w.description = .writeJira)
    (hfits : w.DescriptionFits s.history.description atLoad.description) :
    s.history.description.SetSinceRight (normalizeDescription w.issue.description) := by
  rw [← hw.issue.description]
  refine hsound.description.setSince_right hfits.1 hfits.1.from (.refl _) ?_
  rw [hw.issue.description]
  rcases hfits.2 with hbase | hmoved
  · rw [hw.decided] at haction
    rw [hbase]
    exact of_decide_eq_false (fieldAction_eq_writeJira haction)
  · exact hmoved.2

theorem status_setSince_left (haction : w.status = .writeVk)
    (hfits : w.StatusFits s.history.status atSearch.status)
    (hfrom : s.history.From atReread) (horder : atReread.From atSearch)
    (hnow : atReread.ShowsJira jiraNow) : s.history.status.SetSinceLeft jiraNow.status := by
  rw [← hnow.status]
  refine hsound.status.setSince_left hfits.1 hfrom.status horder.status ?_
  rw [hw.found.status]
  rcases hfits.2 with ⟨hbase, _⟩ | hmoved
  · rw [hw.decided] at haction
    have hchanged := (decideStatusAction_eq_writeVk haction)
    intro heq
    rw [heq, hbase] at hchanged
    cases hchanged
  · exact hmoved.1

theorem status_setSince_right (haction : w.status = .writeJira)
    (hfits : w.StatusFits s.history.status atLoad.status) :
    s.history.status.SetSinceRight w.issue.statusId := by
  rw [← hw.issue.status]
  refine hsound.status.setSince_right hfits.1 hfits.1.from (.refl _) ?_
  rw [hw.issue.status]
  rcases hfits.2 with ⟨_, hbase⟩ | hmoved
  · rw [hw.decided] at haction
    have hchanged := (decideStatusAction_eq_writeJira haction)
    intro heq
    exact hchanged (hbase.trans (congrArg some heq.symm))
  · exact hmoved.2

end

end

end Copies

/-! ## Steps that meet the condition -/

namespace History

variable {p : Project} {h : History}

theorem Sound.editJira (hs : h.Sound) (e : Edit JiraStatus) : (h.editJira p e).Sound := by
  cases e with
  | title text => exact ⟨hs.title.setLeft.record, hs.description, hs.status⟩
  | description text => exact ⟨hs.title, hs.description.setLeft.record, hs.status⟩
  | status status => exact ⟨hs.title, hs.description, hs.status.setLeft.record⟩
  | other => exact hs

theorem Sound.editIssue (hs : h.Sound) (e : Edit Uuid) : (h.editIssue p e).Sound := by
  cases e with
  | title text => exact ⟨hs.title.setRight.record, hs.description, hs.status⟩
  | description text => exact ⟨hs.title, hs.description.setRight.record, hs.status⟩
  | status status => exact ⟨hs.title, hs.description, hs.status.setRight.record⟩
  | other => exact hs

end History

namespace System

variable {p : Project} {s s' : System} {mapping : JiraStatusMapping}
  {atSearch atLoad atReread : History} {w : Work} {jiraNow : JiraIssueData}
  {updated : Option Instant} {status : JiraStatus}
  {index : StatusIndex} {target : String} {answer : Answer}

theorem Initial.sound (h : Initial s) : s.history.Sound := by
  have hstart : ∀ {α β : Type} (a : α) (b : β), (⟨(a, b), []⟩ : FieldLog α β).Sound := by
    intro α β a b seen hfrom
    obtain ⟨start, events⟩ := seen
    obtain ⟨hst, hsuffix⟩ := hfrom
    cases hst
    cases List.suffix_nil.1 hsuffix
    exact .of_base rfl rfl
  rw [h.history]
  exact ⟨hstart _ _, hstart _ _, hstart _ _⟩

section

variable (h : s.Consistent p) (hsound : s.history.Sound)
  (hw : Pass.KnowsWork p mapping atSearch atLoad w)
include h hsound hw

theorem sound_writeFields (hmeets : s.WriteMeets atLoad w) : (s.history.writeFields w).Sound := by
  refine ⟨?_, ?_, hsound.status⟩
  · simp only [History.writeFields]
    split
    · rename_i haction
      rw [← hw.issue.title]
      refine hsound.title.copyLeft fun hne => ?_
      rw [h.jira.title, hw.issue.title] at hne
      exact ((hmeets.1 haction).resolve_left hne).1
    · exact hsound.title
  · simp only [History.writeFields]
    split
    · rename_i haction
      rw [← hw.issue.description]
      refine hsound.description.copyLeft fun hne => ?_
      rw [h.jira.description, hw.issue.description] at hne
      exact ((hmeets.2 haction).resolve_left hne).1
    · exact hsound.description

theorem sound_transition (hmeets : s.TransitionMeets atLoad w status) :
    (s.history.transition p w status).Sound := by
  refine ⟨hsound.title, hsound.description, ?_⟩
  simp only [History.transition]
  rw [← hw.issue.status]
  refine hsound.status.copyLeft fun hne => ?_
  rw [h.jira.status] at hne
  exact (hmeets.resolve_left hne).1

end

theorem since_of_from {α β : Type} {log seen mid : FieldLog α β} (h : log.Since seen)
    (hmid : log.From mid) (hseen : mid.From seen) : log.Since mid :=
  (h.of_from hmid hseen).1

theorem sound_save (h : s.Consistent p) (hsound : s.history.Sound)
    (hfrom : s.history.From atReread) (horder : atReread.From atSearch)
    (hnow : atReread.ShowsJira jiraNow) (hmeets : s.SaveMeets p atSearch w jiraNow) :
    (s.history.save p w jiraNow).Sound := by
  refine ⟨?_, ?_, ?_⟩
  · simp only [History.save]
    split
    · rename_i haction
      rw [← hnow.title]
      refine hsound.title.copyRight fun hne => ?_
      rw [h.issue.title, hnow.title] at hne
      exact since_of_from ((hmeets.1 haction).resolve_left hne).1 hfrom.title horder.title
    · exact hsound.title
  · simp only [History.save]
    split
    · rename_i haction
      rw [← hnow.description]
      refine hsound.description.copyRight fun hne => ?_
      rw [h.issue.description, hnow.description] at hne
      exact since_of_from ((hmeets.2.1 haction).resolve_left hne).1 hfrom.description
        horder.description
    · exact hsound.description
  · simp only [History.save]
    split
    · rename_i id hid
      rw [← hnow.status]
      refine hsound.status.copyRight fun hne => ?_
      rw [h.issue.status] at hne
      exact since_of_from ((hmeets.2.2 id hid).resolve_left hne).1 hfrom.status horder.status
    · exact hsound.status

theorem lawful_writeFields (hsound : s.history.Sound)
    (hw : Pass.KnowsWork p mapping atSearch atLoad w) (hmeets : s.WriteMeets atLoad w)
    (hj : s'.world.jira = w.writeFields updated s.world.jira)
    (hi : s'.world.issue = s.world.issue) : Lawful p mapping s s' where
  title_vk hne := absurd (congrArg Issue.title hi) hne
  title_jira hne := by
    rw [hj] at hne ⊢
    simp only [Work.writeFields] at hne ⊢
    split at hne
    · rename_i haction
      rw [if_pos haction]
      exact title_setSince_right hw hsound haction ((hmeets.1 haction).resolve_left (Ne.symm hne))
    · exact absurd rfl hne
  description_vk hne := absurd (by rw [hi]) hne
  description_jira hne := by
    rw [hj] at hne ⊢
    simp only [Work.writeFields] at hne ⊢
    split at hne
    · rename_i haction
      rw [if_pos haction]
      simp only [History.normalizeDescription_normalize] at hne ⊢
      exact description_setSince_right hw hsound haction
        ((hmeets.2 haction).resolve_left (Ne.symm hne))
    · exact absurd rfl hne
  status_vk hne := absurd (congrArg Issue.statusId hi) hne
  status_jira hne := absurd (by rw [hj]; rfl) hne

theorem push_eq_transition (h : w.push index = .transition target) : w.status = .writeJira ∧
      w.mapping.resolveVkToJira ((index.nameById w.issue.statusId).getD "") = some target := by
  unfold Work.push at h
  split at h
  · rename_i haction
    refine ⟨haction, ?_⟩
    split at h
    · rename_i hresolve
      split at h <;> cases h
      exact hresolve
    · cases h
  · cases h

theorem lawful_transition (hsound : s.history.Sound)
    (hw : Pass.KnowsWork p mapping atSearch atLoad w)
    (hpush : w.push p.index = .transition target)
    (hname : eqIgnoreAsciiCase status.name target = true)
    (hmeets : s.TransitionMeets atLoad w status)
    (hj : s'.world.jira = { s.world.jira with status, updated })
    (hi : s'.world.issue = s.world.issue) : Lawful p mapping s s' where
  title_vk hne := absurd (congrArg Issue.title hi) hne
  title_jira hne := absurd (by rw [hj]) hne
  description_vk hne := absurd (by rw [hi]) hne
  description_jira hne := absurd (by rw [hj]) hne
  status_vk hne := absurd (congrArg Issue.statusId hi) hne
  status_jira hne := by
    rw [hj] at hne ⊢
    obtain ⟨haction, hresolve⟩ := push_eq_transition hpush
    have hmapping : w.mapping = mapping := congrArg Work.mapping hw.decided
    rw [hmapping] at hresolve
    exact ⟨w.issue.statusId, target, status_setSince_right hw hsound haction
      (hmeets.resolve_left (Ne.symm hne)), hresolve, hname⟩

theorem newStatusId_eq_some {id : Uuid} (h : w.newStatusId index jiraNow = some id) :
    w.status = .writeVk ∧ vkStatusOf w.mapping index jiraNow.status = some id := by
  unfold Work.newStatusId at h
  split at h
  · exact ⟨‹_›, h⟩
  · cases h

theorem lawful_save (hsound : s.history.Sound)
    (hw : Pass.KnowsWork p mapping atSearch atLoad w) (hfrom : s.history.From atReread)
    (horder : atReread.From atSearch) (hnow : atReread.ShowsJira jiraNow)
    (hmeets : s.SaveMeets p atSearch w jiraNow) {now : Instant}
    (hj : s'.world.jira = s.world.jira)
    (hi : s'.world.issue = w.savedIssue p.index jiraNow now s.world.issue) :
    Lawful p mapping s s' where
  title_vk hne := by
    rw [hi, History.savedIssue_title] at hne ⊢
    split at hne
    · rename_i haction
      rw [if_pos haction]
      exact title_setSince_left hw hsound haction
        ((hmeets.1 haction).resolve_left (Ne.symm hne)) hfrom horder hnow
    · exact absurd rfl hne
  title_jira hne := absurd (by rw [hj]) hne
  description_vk hne := by
    rw [hi, History.savedIssue_description] at hne ⊢
    split at hne
    · rename_i haction
      rw [if_pos haction]
      simp only [History.normalizeDescription_normalize] at hne ⊢
      exact description_setSince_left hw hsound haction
        ((hmeets.2.1 haction).resolve_left (Ne.symm hne)) hfrom horder hnow
    · exact absurd rfl hne
  description_jira hne := absurd (by rw [hj]) hne
  status_vk hne := by
    rw [hi, History.savedIssue_statusId] at hne ⊢
    cases hid : w.newStatusId p.index jiraNow with
    | none =>
      rw [hid] at hne
      exact absurd rfl hne
    | some id =>
      rw [hid, Option.getD_some] at hne
      obtain ⟨haction, hresolve⟩ := newStatusId_eq_some hid
      have hmapping : w.mapping = mapping := congrArg Work.mapping hw.decided
      rw [hmapping] at hresolve
      exact ⟨jiraNow.status, status_setSince_left hw hsound haction
        ((hmeets.2.2 id hid).resolve_left (Ne.symm hne)) hfrom horder hnow, hresolve⟩
  status_jira hne := absurd (by rw [hj]) hne

theorem work_of_meets (h : s.Consistent p) (hsound : s.history.Sound) {i : ℕ} {pass : Pass}
    (hi : s.passes[i]? = some pass) (hmeets : s.Meets p (.work i answer))
    (hstep : s.work p i pass answer = some s') : s'.history.Sound ∧ Lawful p pass.mapping s s' := by
  obtain ⟨hwithin, hknows⟩ := h.passes pass (List.mem_of_getElem? hi)
  simp only [Meets, hi] at hmeets
  obtain ⟨config, mapping, phase, atSearch, atLoad, atReread⟩ := pass
  cases phase with simp only [System.work] at hstep
  | searched found | importing found | loading found link | failing linkId
  | rereading w wroteJira pushError =>
    repeat' split at hstep
    all_goals
      cases hstep
      exact ⟨hsound, .of_eq rfl rfl⟩
  | linking found issue =>
    have hcreated : ∀ pass phase,
        (((s.createLink pass found issue).goOn i pass phase).history.Sound ∧
        Lawful p mapping s ((s.createLink pass found issue).goOn i pass phase)) := by
      intro pass phase
      refine ⟨?_, ?_⟩
      · show (s.createLink pass found issue).history.Sound
        rw [history_createLink]
        exact hsound
      · unfold System.createLink
        split <;> exact .of_eq rfl rfl
    split at hstep <;> cases hstep
    · exact hcreated _ _
    · exact hcreated _ _
    · exact ⟨hsound, .of_eq rfl rfl⟩
  | writing w =>
    repeat' split at hstep
    all_goals cases hstep
    -- the write is made, or it is not
    all_goals first
      | exact ⟨hsound, .of_eq rfl rfl⟩
      | rename_i hreply
        replace hmeets := hmeets (by simp [hreply])
        exact ⟨sound_writeFields h hsound hknows hmeets,
          lawful_writeFields hsound hknows hmeets rfl rfl⟩
  | transitioning w wroteJira =>
    cases hpush : w.push p.index with
    | none | noMapping =>
      simp only [hpush] at hstep
      cases hstep
      exact ⟨hsound, .of_eq rfl rfl⟩
    | transition target =>
      simp only [hpush] at hstep hmeets
      split at hstep
      · rename_i hname
        split at hstep <;> cases hstep
        all_goals first
          | exact ⟨hsound, .of_eq rfl rfl⟩
          | rename_i hreply
            replace hmeets := hmeets (by simp [hreply]) (by simp) (by simp)
            exact ⟨sound_transition h hsound hknows hmeets,
              lawful_transition hsound hknows hpush hname hmeets rfl rfl⟩
      · cases hstep
  | saving w jiraNow pushError =>
    obtain ⟨hw, horder, hnow⟩ := hknows
    split at hstep <;> cases hstep
    all_goals first
      | exact ⟨hsound, .of_eq rfl rfl⟩
      | rename_i hreply
        replace hmeets := hmeets (by simp [hreply])
        exact ⟨sound_save h hsound hwithin.atReread horder hnow hmeets,
          lawful_save hsound hw hwithin.atReread horder hnow hmeets rfl rfl⟩
  | done => cases hstep

theorem sound_step (h : s.Consistent p) (hsound : s.history.Sound) {a : Action}
    (hmeets : s.Meets p a) (hstep : s.step p a = some s') : s'.history.Sound := by
  cases a with
  | editJira edit updated =>
    cases hstep
    exact hsound.editJira edit
  | editIssue edit updatedAt =>
    cases hstep
    exact hsound.editIssue edit
  | deleteConfig =>
    cases hstep
    exact hsound
  | createConfig =>
    simp only [System.step] at hstep
    split at hstep <;> cases hstep
    exact hsound
  | search vkToJira | crash i =>
    obtain ⟨_, _, hstep⟩ := Option.bind_eq_some_iff.1 hstep
    cases hstep
    exact hsound
  | work i answer =>
    obtain ⟨pass, hi, hstep⟩ := Option.bind_eq_some_iff.1 hstep
    exact (work_of_meets h hsound hi hmeets hstep).1

section

variable (h : Reachable (step p) (Meets p) Initial s)
include h

theorem invariant_of_reachable : s.Consistent p ∧ s.history.Sound :=
  h.invariant (P := fun s => s.Consistent p ∧ s.history.Sound)
    (fun _ h0 => ⟨h0.consistent, h0.sound⟩)
    fun _ _ _ h hmeets hstep => ⟨h.1.step hstep, sound_step h.1 h.2 hmeets hstep⟩

theorem lawful_of_meets {i : ℕ} {pass : Pass}
    (hi : s.passes[i]? = some pass) (hmeets : s.Meets p (.work i answer))
    (hstep : s.work p i pass answer = some s') : Lawful p pass.mapping s s' :=
  (work_of_meets (invariant_of_reachable h).1 (invariant_of_reachable h).2 hi hmeets hstep).2

end

end System

end VibeKanban.Jira.Sync
