import VibeKanban.Jira.Edits

/-!
# Whether a sync settles

Users edit nothing any more, every read and write succeeds and statuses map both ways.

* `sync_keeps_edits`: passes overwrite what the other side's user has set, and two of them settle
  it.
-/

namespace VibeKanban.Jira.Sync

open Jira Lib Option List

variable {p : Project}

/-! ## Quiet runs -/

/-- The status of Jira has a column, and the column of the issue a status. -/
def MapsBothWays (p : Project) (world : World) (mapping : JiraStatusMapping) : Prop :=
  mapping.jiraToVk = p.jiraToVk ∧ (vkStatusOf mapping p.index world.jira.status).isSome = true ∧
    (mapping.resolveVkToJira ((p.index.nameById world.issue.statusId).getD "")).isSome = true

def Pass.isDone (pass : Pass) : Bool :=
  match pass.phase with
  | .done => true
  | _ => false

def Quiet (p : Project) (s : System) : Action → Prop
  | .search vkToJira => (∀ pass ∈ s.passes, pass.isDone = true) ∧
      MapsBothWays p s.world ⟨p.jiraToVk, vkToJira⟩
  | .work _ answer => answer.reply = .ok
  | _ => False

/-! ## How far the passes have come -/

/-- A pass has nothing to do. -/
structure Settled (p : Project) (world : World) (link : JiraIssueLink) : Prop where
  linked : world.link = some link
  error : link.lastError = false
  title : world.jira.summary = world.issue.title
  description :
    normalizeDescription world.jira.description = normalizeDescription world.issue.description
  status : ∀ mapping : JiraStatusMapping, mapping.jiraToVk = p.jiraToVk →
    decideStatusAction world.jira.status (link.lastSyncedJiraStatus.getD "") world.issue.statusId
      link.lastSyncedStatusId world.jira.updated world.issue.updatedAt mapping p.index = .noOp

/-- After `k` passes. -/
def Stage (p : Project) (k : ℕ) (world : World) : Prop :=
  (1 ≤ k → world.link ≠ none) ∧ (2 ≤ k → ∃ link, Settled p world link)

/-- Jira holds what the pass has brought there. -/
structure Written (w : Work) (world : World) : Prop where
  issue : world.issue = w.issue
  link : world.link = some w.link
  title : world.jira.summary = if w.title = .writeJira then w.issue.title else w.found.summary
  description : normalizeDescription world.jira.description =
    if w.description = .writeJira then normalizeDescription w.issue.description
    else normalizeDescription w.found.description

/-- What holds during the pass after `k` passes. -/
def Quietly (p : Project) (k : ℕ) (world : World) (pass : Pass) : Prop :=
  match pass.phase with
  | .searched found =>
    MapsBothWays p world pass.mapping ∧ world.config = some pass.config ∧ found = world.jira ∧
      Stage p k world
  | .importing found =>
    MapsBothWays p world pass.mapping ∧ world.config = some pass.config ∧ found = world.jira ∧
      k = 0 ∧ world.link = none
  | .linking _ _ => world.config = some pass.config ∧ k = 0 ∧ world.link = none
  | .loading found link =>
    MapsBothWays p world pass.mapping ∧ found = world.jira ∧ Stage p k world ∧
      world.link = some link
  | .writing w =>
    MapsBothWays p world pass.mapping ∧ k ≤ 1 ∧ world.link = some w.link ∧
      w.found = world.jira ∧ w.issue = world.issue ∧
        w = decideWork pass.mapping p.index w.found w.link w.issue
  | .transitioning w wroteJira =>
    (w.mapping.resolveVkToJira ((p.index.nameById w.issue.statusId).getD "")).isSome = true ∧
      k ≤ 1 ∧ Written w world ∧ w = decideWork pass.mapping p.index w.found w.link w.issue ∧
      (wroteJira = false → w.found = world.jira)
  | .rereading w wroteJira pushError =>
    k ≤ 1 ∧ Written w world ∧ pushError = false ∧
      w = decideWork pass.mapping p.index w.found w.link w.issue ∧
        (wroteJira = false → w.found = world.jira)
  | .saving w jiraNow pushError =>
    k ≤ 1 ∧ Written w world ∧ pushError = false ∧
      w = decideWork pass.mapping p.index w.found w.link w.issue ∧ jiraNow = world.jira
  | .failing _ => False
  | .done => Stage p (k + 1) world

/-- No pass has come yet after the first `n`, or all but the last are done. -/
def Orderly (p : Project) (n : ℕ) (s : System) : Prop :=
  s.passes.length = n ∨
    ∃ front pass, s.passes = front ++ [pass] ∧ (∀ q ∈ front, q.isDone = true) ∧ n ≤ front.length ∧
      Quietly p (front.length - n) s.world pass

/-! ## One pass -/

variable {world : World} {link : JiraIssueLink} {k : ℕ} {w : Work} {mapping : JiraStatusMapping}

variable {pass : Pass}

theorem isDone_iff : pass.isDone = true ↔ pass.phase = .done := by
  unfold Pass.isDone
  cases pass.phase <;> simp

theorem Settled.stage (h : Settled p world link) : Stage p k world :=
  ⟨fun _ => by simp [h.linked], fun _ => ⟨link, h⟩⟩

theorem settled_of_nothingToDo (hmapping : mapping.jiraToVk = p.jiraToVk)
    (hlink : world.link = some link)
    (h : (decideWork mapping p.index world.jira link world.issue).nothingToDo = true) :
    Settled p world link := by
  simp only [Work.nothingToDo, Bool.and_eq_true, decide_eq_true_eq, Bool.not_eq_true'] at h
  obtain ⟨⟨⟨htitle, hdescription⟩, hstatus⟩, herror⟩ := h
  refine ⟨hlink, herror, fieldAction_eq_noOp htitle, fieldAction_eq_noOp hdescription, ?_⟩
  intro mapping' hmapping'
  rw [← hstatus]
  obtain ⟨forward, reverse⟩ := mapping
  obtain ⟨forward', reverse'⟩ := mapping'
  cases hmapping
  cases hmapping'
  rfl

theorem Settled.nothingToDo (h : Settled p world link) (hmapping : mapping.jiraToVk = p.jiraToVk) :
    (decideWork mapping p.index world.jira link world.issue).nothingToDo = true := by
  have htitle : (decideWork mapping p.index world.jira link world.issue).title = .noOp := by
    simp only [decideWork, h.title]
    exact fieldAction_self
  have hdescription :
      (decideWork mapping p.index world.jira link world.issue).description = .noOp := by
    simp only [decideWork, h.description]
    exact fieldAction_self
  have hstatus : (decideWork mapping p.index world.jira link world.issue).status = .noOp :=
    h.status mapping hmapping
  simp only [Work.nothingToDo, htitle, hdescription, hstatus]
  simpa [decideWork] using h.error

theorem settled_of_saved {jiraNow : JiraIssueData} {now : Instant} (hwritten : Written w world)
    (hw : w = decideWork mapping p.index w.found w.link w.issue) (hnow : jiraNow = world.jira)
    (s : System) (hs : s.world = world) : Settled p (s.save p w jiraNow false now).world
      (w.savedLink jiraNow false (w.finalIssue p.index jiraNow now world.issue)) := by
  subst hnow hs
  have hfinal : w.finalIssue p.index s.world.jira now s.world.issue =
      w.savedIssue p.index s.world.jira now s.world.issue := by
    simp only [Work.finalIssue, Work.savedIssue, hwritten.issue]
  rw [hfinal]
  refine ⟨?_, rfl, ?_, ?_, ?_⟩
  · simp [System.save, System.onLink, hwritten.link, hfinal]
  · show s.world.jira.summary = (w.savedIssue p.index s.world.jira now s.world.issue).title
    rw [History.savedIssue_title]
    split
    · rfl
    · rename_i hvk
      rw [hwritten.title, hwritten.issue]
      split
      · rfl
      · rename_i hjira
        have hnoOp : w.title = .noOp := by
          cases haction : w.title with
          | noOp => rfl
          | writeVk => exact absurd haction hvk
          | writeJira => exact absurd haction hjira
        rw [hw] at hnoOp
        exact fieldAction_eq_noOp hnoOp
  · show normalizeDescription s.world.jira.description =
      normalizeDescription (w.savedIssue p.index s.world.jira now s.world.issue).description
    rw [History.savedIssue_description]
    split
    · simp
    · rename_i hvk
      rw [hwritten.description, hwritten.issue]
      split
      · rfl
      · rename_i hjira
        have hnoOp : w.description = .noOp := by
          cases haction : w.description with
          | noOp => rfl
          | writeVk => exact absurd haction hvk
          | writeJira => exact absurd haction hjira
        rw [hw] at hnoOp
        exact fieldAction_eq_noOp hnoOp
  · intro mapping' _
    exact decideStatusAction_unchanged (eqIgnoreAsciiCase_refl _)

theorem push_ne_noMapping
    (h : (w.mapping.resolveVkToJira ((p.index.nameById w.issue.statusId).getD "")).isSome = true) :
    w.push p.index ≠ .noMapping := by
  obtain ⟨target, htarget⟩ := isSome_iff_exists.1 h
  simp only [Work.push, htarget]
  split
  · split <;> simp
  · simp

theorem passes_createLink (s : System) {found : JiraIssueData} {issue : Issue} :
    (s.createLink pass found issue).passes = s.passes := by
  unfold System.createLink
  split <;> rfl

variable {answer : Answer}

theorem Quietly.work {s s' : System} {i : ℕ}
    (h : Quietly p k s.world pass) (hreply : answer.reply = .ok)
    (hstep : s.work p i pass answer = some s') :
    ∃ pass', s'.passes = s.passes.set i pass' ∧ Quietly p k s'.world pass' := by
  obtain ⟨config, mapping, phase, atSearch, atLoad, atReread⟩ := pass
  cases phase with
  | searched found =>
    obtain ⟨hmaps, hconfig, hfound, hstage⟩ := h
    simp only [System.work, hreply] at hstep
    cases hlink : s.world.link with simp only [hlink] at hstep
    | none =>
      cases hstep
      refine ⟨_, rfl, hmaps, hconfig, hfound, ?_, hlink⟩
      by_contra hk
      exact hstage.1 (by omega) hlink
    | some link =>
      cases hstep
      exact ⟨_, rfl, hmaps, hfound, hstage, hlink⟩
  | importing found =>
    obtain ⟨hmaps, hconfig, rfl, hk, hlink⟩ := h
    simp only [System.work, hreply] at hstep
    rw [if_neg (by simp [isNone_eq_false_iff.2 hmaps.2.1])] at hstep
    cases hstep
    exact ⟨_, rfl, hconfig, hk, hlink⟩
  | linking found issue =>
    obtain ⟨hconfig, rfl, hlink⟩ := h
    simp only [System.work, hreply] at hstep
    cases hstep
    refine ⟨_, congrArg (set · i _) (passes_createLink s), ?_, fun hk => by omega⟩
    intro _
    show (s.createLink _ found issue).world.link ≠ none
    unfold System.createLink
    rw [if_pos ⟨hconfig, hlink⟩]
    simp
  | loading found link =>
    obtain ⟨hmaps, rfl, hstage, hlink⟩ := h
    simp only [System.work, hreply] at hstep
    cases hstep
    refine ⟨_, rfl, ?_⟩
    by_cases hnothing :
        (decideWork mapping p.index s.world.jira link s.world.issue).nothingToDo = true
    · rw [if_pos hnothing]
      exact (settled_of_nothingToDo hmaps.1 hlink hnothing).stage
    · rw [if_neg hnothing]
      refine ⟨hmaps, ?_, hlink, rfl, rfl, rfl⟩
      by_contra hk
      obtain ⟨link', hsettled⟩ := hstage.2 (by omega)
      cases hlink.symm.trans hsettled.linked
      exact hnothing (hsettled.nothingToDo hmaps.1)
  | writing w =>
    obtain ⟨hmaps, hk, hlink, hfound, hissue, hw⟩ := h
    have hmap : (w.mapping.resolveVkToJira
        ((p.index.nameById w.issue.statusId).getD "")).isSome = true := by
      have hmapping : w.mapping = mapping := congrArg Work.mapping hw
      rw [hmapping, hissue]
      exact hmaps.2.2
    simp only [System.work, hreply] at hstep
    split at hstep
    · cases hstep
      refine ⟨_, rfl, hmap, hk, ⟨hissue.symm, hlink, ?_, ?_⟩, hw, (by rintro ⟨⟩)⟩
      · show (if w.title = .writeJira then _ else _) = _
        rw [hfound]
      · show normalizeDescription (if w.description = .writeJira then _ else _) = _
        rw [hfound]
        split <;> simp
    · rename_i hno
      obtain ⟨htitle, hdescription⟩ : w.title ≠ .writeJira ∧ w.description ≠ .writeJira := by
        simpa [Work.writesFields] using hno
      cases hstep
      refine ⟨_, rfl, hmap, hk, ⟨hissue.symm, hlink, ?_, ?_⟩, hw, fun _ => hfound⟩
      · rw [if_neg htitle, hfound]
        rfl
      · rw [if_neg hdescription, hfound]
        rfl
  | transitioning w wroteJira =>
    obtain ⟨hmap, hk, hwritten, hw, hfound⟩ := h
    simp only [System.work, hreply] at hstep
    cases hpush : w.push p.index with
    | none =>
      simp only [hpush] at hstep
      cases hstep
      exact ⟨_, rfl, hk, hwritten, rfl, hw, hfound⟩
    | noMapping => exact absurd hpush (push_ne_noMapping hmap)
    | transition target =>
      simp only [hpush] at hstep
      split at hstep <;> cases hstep
      exact ⟨_, rfl, hk, ⟨hwritten.issue, hwritten.link, hwritten.title, hwritten.description⟩,
        rfl, hw, (by rintro ⟨⟩)⟩
  | rereading w wroteJira pushError =>
    obtain ⟨hk, hwritten, rfl, hw, hfound⟩ := h
    simp only [System.work, hreply] at hstep
    split at hstep <;> cases hstep
    · exact ⟨_, rfl, hk, hwritten, rfl, hw, rfl⟩
    · rename_i hno
      exact ⟨_, rfl, hk, hwritten, rfl, hw, hfound (by simpa using hno)⟩
  | saving w jiraNow pushError =>
    obtain ⟨hk, hwritten, rfl, hw, hnow⟩ := h
    simp only [System.work, hreply] at hstep
    cases hstep
    exact ⟨_, rfl, (settled_of_saved hwritten hw hnow s rfl).stage⟩
  | failing linkId => exact h.elim
  | done => cases hstep

/-! ## Runs of passes -/

variable {s s' : System} {n i : ℕ} {a : Action} {pass : Pass} {front : List Pass}

/-- The steps that a pass can still take. -/
def Phase.stepsLeft : Phase → ℕ
  | .searched _ => 7
  | .loading .. => 6
  | .writing _ => 5
  | .transitioning .. => 4
  | .rereading .. => 3
  | .importing _ | .saving .. => 2
  | .linking .. | .failing _ => 1
  | .done => 0

theorem work_stepsLeft (hstep : s.work p i pass answer = some s') :
    ∃ pass', s'.passes = s.passes.set i pass' ∧ pass'.phase.stepsLeft < pass.phase.stepsLeft := by
  have hgoOn : ∀ {s₁ : System} {pass₁ : Pass} {phase : Phase}, s₁.passes = s.passes →
      phase.stepsLeft < pass.phase.stepsLeft → ∃ pass', (s₁.goOn i pass₁ phase).passes =
        s.passes.set i pass' ∧ pass'.phase.stepsLeft < pass.phase.stepsLeft :=
    fun hpasses hless => ⟨_, congrArg (set · i _) hpasses, hless⟩
  unfold System.work at hstep
  split at hstep
  all_goals rename_i hphase
  all_goals rw [hphase] at hgoOn
  all_goals repeat' split at hstep
  all_goals
    cases hstep <;> rw [hphase] <;>
      first
      | exact hgoOn rfl (by simp only [Phase.stepsLeft]; omega)
      | exact hgoOn (passes_createLink s) (by simp only [Phase.stepsLeft]; omega)
      | exact hgoOn rfl (by split <;> simp only [Phase.stepsLeft] <;> omega)

theorem length_work (hstep : s.work p i pass answer = some s') :
    s'.passes.length = s.passes.length := by
  obtain ⟨pass', hpasses, _⟩ := work_stepsLeft hstep
  rw [hpasses, length_set]

theorem Orderly.search {vkToJira : OrderedMap String String} (h : Orderly p n s)
    (hquiet : Quiet p s (.search vkToJira)) (hstep : s.step p (.search vkToJira) = some s') :
    Orderly p n s' := by
  obtain ⟨hdone, hmaps⟩ := hquiet
  obtain ⟨config, hconfig, hstep⟩ := bind_eq_some_iff.1 hstep
  cases hstep
  right
  rcases h with hlength | ⟨front, pass, hpasses, hfront, hn, hpass⟩
  · refine ⟨s.passes, _, rfl, hdone, hlength.ge, hmaps, hconfig, rfl, ?_, ?_⟩
    all_goals (intro hk; omega)
  · refine ⟨s.passes, _, rfl, hdone, ?_, hmaps, hconfig, rfl, ?_⟩
    · rw [hpasses, length_append]
      omega
    · have hlast := isDone_iff.1 (hdone pass (by simp [hpasses]))
      simp only [Quietly, hlast] at hpass
      rw [hpasses, length_append, length_singleton, Nat.sub_add_comm hn]
      exact hpass

theorem Quietly.step (h : Quietly p k s.world pass)
    (hpasses : s.passes = front ++ [pass]) (hfront : ∀ q ∈ front, q.isDone = true)
    (hquiet : Quiet p s (.work i answer)) (hstep : s.step p (.work i answer) = some s') :
    s.work p i pass answer = some s' ∧
      ∃ pass', s'.passes = front ++ [pass'] ∧ Quietly p k s'.world pass' := by
  obtain ⟨working, hi, hwork⟩ := bind_eq_some_iff.1 hstep
  rw [hpasses] at hi
  rcases getElem?_concat_cases hi with hbefore | ⟨rfl, rfl⟩
  · -- a pass that is done does nothing
    have hphase := isDone_iff.1 (hfront working (mem_of_getElem? hbefore))
    simp only [System.work, hphase] at hwork
    cases hwork
  · obtain ⟨pass', hpasses', hpass'⟩ := h.work hquiet hwork
    refine ⟨hwork, pass', ?_, hpass'⟩
    rw [hpasses', hpasses, set_append_right _ _ le_rfl, Nat.sub_self]
    rfl

theorem Orderly.step (h : Orderly p n s) (hquiet : Quiet p s a) (hstep : s.step p a = some s') :
    Orderly p n s' := by
  cases a with
  | search vkToJira => exact h.search hquiet hstep
  | work i answer =>
    rcases h with hlength | ⟨front, pass, hpasses, hfront, hn, hpass⟩
    · obtain ⟨pass, _, hwork⟩ := bind_eq_some_iff.1 hstep
      exact .inl ((length_work hwork).trans hlength)
    · obtain ⟨_, pass', hpasses', hpass'⟩ := hpass.step hpasses hfront hquiet hstep
      exact .inr ⟨front, pass', hpasses', hfront, hn, hpass'⟩
  | _ => exact hquiet.elim

theorem Quietly.settled (h : Quietly p k world pass)
    (htwo : 2 ≤ k + if pass.isDone = true then 1 else 0) : ∃ link, Settled p world link := by
  obtain ⟨config, mapping, phase, atSearch, atLoad, atReread⟩ := pass
  cases phase with
  | searched found => exact h.2.2.2.2 htwo
  | importing found => exact absurd (h.2.2.2.1 ▸ htwo : 2 ≤ 0) (by omega)
  | linking found issue => exact absurd (h.2.1 ▸ htwo : 2 ≤ 0) (by omega)
  | loading found link => exact h.2.2.1.2 htwo
  | writing w | transitioning w wroteJira => exact absurd (h.2.1.trans' htwo) (by omega)
  | rereading w wroteJira pushError | saving w jiraNow pushError =>
      exact absurd (h.1.trans' htwo) (by omega)
  | failing linkId => exact h.elim
  | done => exact h.2 htwo

theorem Quietly.unchanged (h : Quietly p k s.world pass) (htwo : 2 ≤ k)
    (hreply : answer.reply = .ok) (hstep : s.work p i pass answer = some s') :
    s'.world = s.world := by
  obtain ⟨config, mapping, phase, atSearch, atLoad, atReread⟩ := pass
  cases phase with
  | searched found =>
    simp only [System.work, hreply] at hstep
    split at hstep <;> (cases hstep; rfl)
  | importing found => exact absurd (h.2.2.2.1 ▸ htwo : 2 ≤ 0) (by omega)
  | linking found issue => exact absurd (h.2.1 ▸ htwo : 2 ≤ 0) (by omega)
  | loading found link =>
    simp only [System.work, hreply] at hstep
    cases hstep
    rfl
  | writing w | transitioning w wroteJira => exact absurd (h.2.1.trans' htwo) (by omega)
  | rereading w wroteJira pushError | saving w jiraNow pushError =>
      exact absurd (h.1.trans' htwo) (by omega)
  | failing linkId => exact h.elim
  | done => cases hstep

theorem isDone_of_work (hstep : s.work p i pass answer = some s') : pass.isDone = false := by
  refine Bool.eq_false_iff.2 fun hdone => ?_
  simp only [System.work, isDone_iff.1 hdone] at hstep
  cases hstep

/-- As many passes as this, after the first `n`, are done. -/
def doneAfter (n : ℕ) (s : System) : ℕ := (s.passes.drop n).countP Pass.isDone

theorem doneAfter_eq (hpasses : s.passes = front ++ [pass])
    (hfront : ∀ q ∈ front, q.isDone = true) (hn : n ≤ front.length) :
    doneAfter n s = front.length - n + if pass.isDone = true then 1 else 0 := by
  have hall : (front.drop n).countP Pass.isDone = front.length - n := by
    rw [countP_eq_length.2 fun q hq => hfront q (mem_of_mem_drop hq), length_drop]
  rw [doneAfter, hpasses, drop_append_of_le_length hn, countP_append, hall,
    countP_singleton]

theorem doneAfter_zero (hlength : s.passes.length = n) : doneAfter n s = 0 := by
  rw [doneAfter, ← hlength, drop_length]
  rfl

section

variable (h : Orderly p n s) (htwo : 2 ≤ doneAfter n s)
include h htwo

theorem Orderly.settled : ∃ link, Settled p s.world link := by
  rcases h with hlength | ⟨front, pass, hpasses, hfront, hn, hpass⟩
  · rw [doneAfter_zero hlength] at htwo
    omega
  · rw [doneAfter_eq hpasses hfront hn] at htwo
    exact hpass.settled htwo

theorem Orderly.unchanged (hquiet : Quiet p s a)
    (hstep : s.step p a = some s') : s'.world = s.world ∧ 2 ≤ doneAfter n s' := by
  rcases h with hlength | ⟨front, pass, hpasses, hfront, hn, hpass⟩
  · rw [doneAfter_zero hlength] at htwo
    omega
  cases a with
  | search vkToJira =>
    obtain ⟨config, _, hstep⟩ := bind_eq_some_iff.1 hstep
    cases hstep
    refine ⟨rfl, ?_⟩
    show 2 ≤ ((s.passes ++ _).drop n).countP _
    rw [drop_append, countP_append]
    exact htwo.trans (Nat.le_add_right _ _)
  | work i answer =>
    obtain ⟨hwork, pass', hpasses', _⟩ := hpass.step hpasses hfront hquiet hstep
    rw [doneAfter_eq hpasses hfront hn, isDone_of_work hwork] at htwo
    rw [doneAfter_eq hpasses' hfront hn]
    exact ⟨hpass.unchanged htwo hquiet hwork, Nat.le_add_right_of_le htwo⟩
  | _ => exact hquiet.elim

end

/-- Once nobody edits and all writes succeed, both sides agree after two more passes, and what
    comes after them writes nothing. -/
theorem settled_of_runs {s₀ : System} (hruns : Runs (System.step p) (Quiet p) s₀ s)
    (htwo : 2 ≤ doneAfter s₀.passes.length s) : s.world.jira.summary = s.world.issue.title ∧
      normalizeDescription s.world.jira.description =
        normalizeDescription s.world.issue.description ∧
      ∀ s', Runs (System.step p) (Quiet p) s s' → s'.world = s.world := by
  have hstart : Orderly p s₀.passes.length s₀ := .inl rfl
  have horderly := hruns.preserves (P := Orderly p s₀.passes.length)
    (fun _ _ _ h hquiet hstep => h.step hquiet hstep) hstart
  obtain ⟨link, hsettled⟩ := horderly.settled htwo
  refine ⟨hsettled.title, hsettled.description, fun s' hruns' => ?_⟩
  have hkeeps := hruns'.preserves (P := fun s' => Orderly p s₀.passes.length s' ∧
      2 ≤ doneAfter s₀.passes.length s' ∧ s'.world = s.world)
    (fun _ _ _ h hquiet hstep => by
      obtain ⟨hworld, htwo'⟩ := h.1.unchanged h.2.1 hquiet hstep
      exact ⟨h.1.step hquiet hstep, htwo', hworld.trans h.2.2⟩)
    ⟨horderly, htwo, rfl⟩
  exact hkeeps.2.2

/-! ## The claim of the sync -/

namespace System

instance (p : Project) (s : System) (a : Action) : Decidable (s.Meets p a) := by
  cases a <;> simp only [Meets] <;> repeat' split
  all_goals infer_instance

instance (p : Project) (s : System) (a : Action) : Decidable (Quiet p s a) := by
  cases a with
  | search vkToJira => exact inferInstanceAs (Decidable (_ ∧ _ ∧ _ ∧ _))
  | work i answer => exact inferInstanceAs (Decidable (answer.reply = .ok))
  | _ => exact inferInstanceAs (Decidable False)

/-- What passes overwrite, in runs that meet the condition, is what the other side's user has set
    since the sides last agreed; and once nobody edits and all goes well, two passes settle it. -/
theorem sync_keeps_edits (p : Project) :
    (∀ s, Reachable (step p) (Meets p) Initial s → ∀ i pass answer s',
      s.passes[i]? = some pass → s.Meets p (.work i answer) →
        s.work p i pass answer = some s' → Lawful p pass.mapping s s') ∧
    ∀ s₀ s, Runs (step p) (Quiet p) s₀ s → 2 ≤ doneAfter s₀.passes.length s →
      s.world.jira.summary = s.world.issue.title ∧ normalizeDescription s.world.jira.description =
          normalizeDescription s.world.issue.description ∧
        ∀ s', Runs (step p) (Quiet p) s s' → s'.world = s.world :=
  ⟨fun _ hreach _ _ _ _ hi hmeets hwork => lawful_of_meets hreach hi hmeets hwork,
    fun _ _ hruns htwo => settled_of_runs hruns htwo⟩

def board : Project :=
  ⟨⟨fun id => if id = 0 then some "To do" else none,
    fun name => if name = "To do" then some 0 else none, id, some 0⟩, .empty⟩

def linked : System :=
  ⟨⟨⟨"old", none, ⟨"Backlog", some "new"⟩, none⟩, ⟨"old", none, 0, 0⟩,
      some ⟨0, some "old", none, some 0, some "Backlog", false⟩, some 1, 2⟩,
    ⟨⟨("old", "old"), []⟩, ⟨(none, none), []⟩, ⟨(⟨"Backlog", some "new"⟩, 0), []⟩⟩, []⟩

theorem initial_linked : Initial linked where
  title := rfl
  description := rfl
  link := by
    rintro l ⟨⟩
    exact ⟨rfl, rfl, rfl, rfl⟩
  ids := by
    rintro l ⟨⟩
    decide
  history := rfl
  passes := rfl

def reverse : OrderedMap String String := OrderedMap.empty.insert "To do" "Backlog"

def succeeds : Answer := ⟨.ok, none, 1, ⟨"Backlog", some "new"⟩⟩

/-- A pass that has come to its transaction. -/
def upToSaving (i : ℕ) : List Action :=
  [.search reverse, .work i succeeds, .work i succeeds, .work i succeeds, .work i succeeds,
    .work i succeeds]

theorem sync_keeps_edits_newTitle :
    (∃ s s' : System, s.world.issue.title = "old" ∧ s'.world.issue.title = "new" ∧
      s.history.title.SetSinceLeft s'.world.issue.title) ∧
    ∃ s : System, s.world.jira.summary = "new" ∧ s.world.jira.summary = s.world.issue.title := by
  have hfirst : (exec (step board) (Meets board) linked
      (.editJira (.title "new") none :: upToSaving 0)).map (fun s =>
        (s.world.issue.title, decide (s.Meets board (.work 0 succeeds)),
          s.passes[0]?.map fun pass =>
            (s.work board 0 pass succeeds).map fun s' => s'.world.issue.title)) =
      some ("old", true, some (some "new")) := by
    decide +kernel
  have hsecond : ((exec (step board) anyStep linked [.editJira (.title "new") none]).bind fun s₀ =>
      exec (step board) (Quiet board) s₀ (upToSaving 0 ++
        [.work 0 succeeds, .search reverse, .work 1 succeeds, .work 1 succeeds])).map (fun s =>
          (s.world.jira.summary, decide (2 ≤ doneAfter 0 s))) = some ("new", true) := by
    decide +kernel
  refine ⟨?_, ?_⟩
  · obtain ⟨s, hs, heq⟩ := map_eq_some_iff.1 hfirst
    obtain ⟨htitle, heq⟩ := Prod.mk.inj heq
    obtain ⟨hmeets, heq⟩ := Prod.mk.inj heq
    obtain ⟨pass, hi, heq⟩ := map_eq_some_iff.1 heq
    obtain ⟨s', hwork, htitle'⟩ := map_eq_some_iff.1 heq
    have hlawful := (sync_keeps_edits board).1 s (reachable_of_exec initial_linked hs) 0 pass
      succeeds s' hi (of_decide_eq_true hmeets) hwork
    refine ⟨s, s', htitle, htitle', hlawful.title_vk ?_⟩
    rw [htitle, htitle']
    decide
  · obtain ⟨s, hs, heq⟩ := map_eq_some_iff.1 hsecond
    obtain ⟨s₀, hs₀, hs⟩ := bind_eq_some_iff.1 hs
    cases hs₀
    obtain ⟨htitle, htwo⟩ := Prod.mk.inj heq
    have hsettled := (sync_keeps_edits board).2 _ s (runs_of_exec hs) (of_decide_eq_true htwo)
    exact ⟨s, htitle, hsettled.1⟩

/-- Both users set the same title, a pass finds the sides equal, and one user takes it back. -/
def takesBack : List Action :=
  [.editJira (.title "new") none, .editIssue (.title "new") 0, .search reverse, .work 0 succeeds,
    .work 0 succeeds, .editIssue (.title "old") 0] ++ upToSaving 1

/-- The next pass overwrites what this user has set, with a title from before. -/
theorem sync_keeps_edits_broken :
    ∃ s s' pass, Reachable (step board) anyStep Initial s ∧ s.passes[1]? = some pass ∧
      s.work board 1 pass succeeds = some s' ∧
        s.history.title.events.head? = some (.setRight "old") ∧ s.world.issue.title = "old" ∧
          s'.world.issue.title = "new" ∧ ¬s.history.title.SetSinceLeft "new" ∧
            ¬Lawful board pass.mapping s s' := by
  have hexec : (exec (step board) anyStep linked takesBack).map (fun s =>
      (s.history.title.events.head?, s.world.issue.title,
        decide (s.history.title.SetSinceLeft "new"), s.passes[1]?.map fun pass =>
          (s.work board 1 pass succeeds).map fun s' => s'.world.issue.title)) =
      some (some (.setRight "old"), "old", false, some (some "new")) := by
    decide +kernel
  obtain ⟨s, hs, heq⟩ := map_eq_some_iff.1 hexec
  obtain ⟨hset, heq⟩ := Prod.mk.inj heq
  obtain ⟨htitle, heq⟩ := Prod.mk.inj heq
  obtain ⟨hnot, heq⟩ := Prod.mk.inj heq
  obtain ⟨pass, hi, heq⟩ := map_eq_some_iff.1 heq
  obtain ⟨s', hwork, htitle'⟩ := map_eq_some_iff.1 heq
  refine ⟨s, s', pass, reachable_of_exec initial_linked hs, hi, hwork, hset, htitle, htitle',
    of_decide_eq_false hnot, fun hlawful => of_decide_eq_false hnot ?_⟩
  rw [← htitle']
  refine hlawful.title_vk ?_
  rw [htitle, htitle']
  decide

end System

end VibeKanban.Jira.Sync
