import VibeKanban.Jira.Merge
import VibeKanban.Lib.Runs
import VibeKanban.Lib.TwoSided

/-!
# Passes over a linked issue (`remote/src/jira/sync.rs`, lines 160-600)

One issue on both sides with its link. Passes run in any number, each reading and writing step by
step, and a step can fail, be lost after it took effect, or never come. Users edit either side,
delete the configuration (and the link) and create another one. The histories of the three fields
are kept along with the state, and with a pass those at the times of its reads.

* `Consistent.step`: what every step keeps.
-/

namespace VibeKanban.Jira.Sync

open Jira Lib FieldLog

/-! ## State -/

/-- What does not change: the columns, and what Jira statuses map to. -/
structure Project where
  index : StatusIndex
  jiraToVk : OrderedMap String String

structure World where
  jira : JiraIssueData
  issue : Issue
  link : Option JiraIssueLink
  config : Option ℕ
  nextId : ℕ

/-- What happened to the three fields; Jira is on the left. -/
structure History where
  title : FieldLog String String
  description : FieldLog (Option String) (Option String)
  status : FieldLog JiraStatus Uuid

/-- A pass, by what it does next. -/
inductive Phase where
  /-- `list_links_by_project`. -/
  | searched (found : JiraIssueData)
  /-- `find_issue_id_by_jira_metadata` and `find_by_id` of `import_new_issue`. -/
  | importing (found : JiraIssueData)
  /-- `create_link`. -/
  | linking (found : JiraIssueData) (issue : Issue)
  /-- `find_by_id` of `sync_linked_issue`. -/
  | loading (found : JiraIssueData) (link : JiraIssueLink)
  /-- `update_issue_fields`. -/
  | writing (w : Work)
  /-- `transition_to_status`. -/
  | transitioning (w : Work) (wroteJira : Bool)
  /-- `get_issue`. -/
  | rereading (w : Work) (wroteJira : Bool) (pushError : Bool)
  | saving (w : Work) (jiraNow : JiraIssueData) (pushError : Bool)
  /-- `set_link_error`. -/
  | failing (linkId : ℕ)
  | done

structure Pass where
  config : ℕ
  mapping : JiraStatusMapping
  phase : Phase
  atSearch : History
  atLoad : History
  /-- The history when Jira was read last. -/
  atReread : History

structure System where
  world : World
  history : History
  passes : List Pass

/-- What a user changes on a side whose statuses are `σ`. -/
inductive Edit (σ : Type) where
  | title (title : String)
  | description (description : Option String)
  | status (status : σ)
  | other

inductive Reply where
  | ok
  | failed
  /-- It took effect, but an error came back. -/
  | lost
  deriving DecidableEq

/-- What a step of a pass gets: the reply, the time that the side it writes notes down, and the
    status that Jira shows after a transition. -/
structure Answer where
  reply : Reply
  updated : Option Instant
  now : Instant
  status : JiraStatus

inductive Action where
  | editJira (edit : Edit JiraStatus) (updated : Option Instant)
  | editIssue (edit : Edit Uuid) (updatedAt : Instant)
  | deleteConfig
  | createConfig
  /-- A pass starts and searches Jira, with a reverse table. -/
  | search (vkToJira : OrderedMap String String)
  | work (i : ℕ) (answer : Answer)
  | crash (i : ℕ)

/-! ## What is written -/

def Edit.applyJira (updated : Option Instant) (j : JiraIssueData) : Edit JiraStatus → JiraIssueData
  | .title text => { j with summary := text, updated }
  | .description text => { j with description := text, updated }
  | .status name => { j with status := name, updated }
  | .other => { j with updated }

def Edit.applyIssue (updatedAt : Instant) (issue : Issue) : Edit Uuid → Issue
  | .title text => { issue with title := text, updatedAt }
  | .description text => { issue with description := text, updatedAt }
  | .status id => { issue with statusId := id, updatedAt }
  | .other => { issue with updatedAt }

namespace Work

variable (w : Work)

/-- `out_summary` or `out_description` is there (lines 488-490). -/
def writesFields : Bool := w.title = .writeJira || w.description = .writeJira

/-- `update_issue_fields`; Jira keeps the text that it is given. -/
def writeFields (updated : Option Instant) (j : JiraIssueData) : JiraIssueData :=
  { j with
    summary := if w.title = .writeJira then w.issue.title else j.summary
    description :=
      if w.description = .writeJira then normalizeDescription w.issue.description
      else j.description
    updated }

/-- The transition that the status of the issue maps to, if it is to be made (lines 499-527). -/
inductive Push where
  | none
  | noMapping
  | transition (target : String)
  deriving DecidableEq

def push (index : StatusIndex) : Push :=
  if w.status = .writeJira then
    match w.mapping.resolveVkToJira ((index.nameById w.issue.statusId).getD "") with
    | some target =>
      if eqIgnoreAsciiCase target w.found.status.name then .none else .transition target
    | Option.none => .noMapping
  else .none

/-- `new_status_id` (lines 553-562). -/
def newStatusId (index : StatusIndex) (jiraNow : JiraIssueData) : Option Uuid :=
  if w.status = .writeVk then vkStatusOf w.mapping index jiraNow.status else Option.none

/-- `IssueRepository::update`, if anything is to be written (lines 565-590). -/
def writeIssue (index : StatusIndex) (jiraNow : JiraIssueData) (now : Instant) (issue : Issue) :
    Issue :=
  { title := if w.title = .writeVk then jiraNow.summary else issue.title
    description :=
      if w.description = .writeVk then normalizeDescription jiraNow.description
      else issue.description
    statusId := (w.newStatusId index jiraNow).getD issue.statusId
    updatedAt := now }

def writesIssue (index : StatusIndex) (jiraNow : JiraIssueData) : Bool :=
  w.title = .writeVk || w.description = .writeVk || (w.newStatusId index jiraNow).isSome

def savedIssue (index : StatusIndex) (jiraNow : JiraIssueData) (now : Instant) (issue : Issue) :
    Issue :=
  if w.writesIssue index jiraNow then w.writeIssue index jiraNow now issue else issue

/-- `final_issue`: what the update returns, or what was read at the start. -/
def finalIssue (index : StatusIndex) (jiraNow : JiraIssueData) (now : Instant) (issue : Issue) :
    Issue :=
  if w.writesIssue index jiraNow then w.writeIssue index jiraNow now issue else w.issue

/-- The link with the new snapshot (lines 592-622). -/
def savedLink (jiraNow : JiraIssueData) (pushError : Bool) (final : Issue) : JiraIssueLink :=
  { w.link with
    lastSyncedTitle := some final.title
    lastSyncedDescription := normalizeDescription final.description
    lastSyncedStatusId :=
      some (if pushError then w.link.lastSyncedStatusId.getD final.statusId else final.statusId)
    lastSyncedJiraStatus :=
      some (if pushError then w.link.lastSyncedJiraStatus.getD "" else jiraNow.status.name)
    lastError := false }

end Work

/-- The link that `import_new_issue` creates (lines 376-399). -/
def newLink (id : ℕ) (found : JiraIssueData) (issue : Issue) : JiraIssueLink :=
  { id
    lastSyncedTitle := some found.summary
    lastSyncedDescription := normalizeDescription found.description
    lastSyncedStatusId := some issue.statusId
    lastSyncedJiraStatus := some found.status.name
    lastError := false }

/-! ## Histories -/

variable (p : Project)

def sameValue {γ : Type} [DecidableEq γ] (a b : γ) : Bool := a = b

/-- The status of the issue is the one that the Jira status maps to. -/
def sameStatus (a : JiraStatus) (b : Uuid) : Bool :=
  vkStatusOf ⟨p.jiraToVk, .empty⟩ p.index a = some b

namespace History

variable (h : History)

def editJira : Edit JiraStatus → History
  | .title title => { h with title := h.title.record sameValue (.setLeft title) }
  | .description description =>
    { h with
      description := h.description.record sameValue (.setLeft (normalizeDescription description)) }
  | .status status => { h with status := h.status.record (sameStatus p) (.setLeft status) }
  | .other => h

def editIssue : Edit Uuid → History
  | .title title => { h with title := h.title.record sameValue (.setRight title) }
  | .description description =>
    { h with
      description := h.description.record sameValue (.setRight (normalizeDescription description)) }
  | .status status => { h with status := h.status.record (sameStatus p) (.setRight status) }
  | .other => h

def writeFields (w : Work) : History :=
  { h with
    title :=
      if w.title = .writeJira then h.title.copyLeft sameValue w.issue.title w.issue.title
      else h.title
    description :=
      if w.description = .writeJira then
        h.description.copyLeft sameValue (normalizeDescription w.issue.description)
          (normalizeDescription w.issue.description)
      else h.description }

def transition (w : Work) (status : JiraStatus) : History :=
  { h with status := h.status.copyLeft (sameStatus p) status w.issue.statusId }

def save (w : Work) (jiraNow : JiraIssueData) : History where
  title :=
    if w.title = .writeVk then h.title.copyRight sameValue jiraNow.summary jiraNow.summary
    else h.title
  description :=
    if w.description = .writeVk then
      h.description.copyRight sameValue (normalizeDescription jiraNow.description)
        (normalizeDescription jiraNow.description)
    else h.description
  status :=
    match w.newStatusId p.index jiraNow with
    | some id => h.status.copyRight (sameStatus p) jiraNow.status id
    | none => h.status

end History

/-! ## Steps -/

namespace System

variable (s : System)

def goOn (i : ℕ) (pass : Pass) (phase : Phase) : System :=
  { s with passes := s.passes.set i { pass with phase } }

def writeJira (w : Work) (updated : Option Instant) : System :=
  { s with
    world := { s.world with jira := w.writeFields updated s.world.jira }
    history := s.history.writeFields w }

/-- Jira takes the issue to another status. -/
def transition (w : Work) (updated : Option Instant) (status : JiraStatus) : System :=
  { s with
    world := { s.world with jira := { s.world.jira with status, updated } }
    history := s.history.transition p w status }

def onLink (id : ℕ) (f : JiraIssueLink → JiraIssueLink) : System :=
  { s with
    world := { s.world with link := s.world.link.map fun l => if l.id = id then f l else l } }

/-- The transaction of `sync_linked_issue`. -/
def save (w : Work) (jiraNow : JiraIssueData) (pushError : Bool) (now : Instant) : System :=
  let final := w.finalIssue p.index jiraNow now s.world.issue
  let saved : System :=
    { s with
      world := { s.world with issue := w.savedIssue p.index jiraNow now s.world.issue }
      history := s.history.save p w jiraNow }
  saved.onLink w.link.id fun _ => w.savedLink jiraNow pushError final

/-- The row of `create_link`: the configuration must be there, and no other link. -/
def createLink (pass : Pass) (found : JiraIssueData) (issue : Issue) : System :=
  if s.world.config = some pass.config ∧ s.world.link = none then
    { s with
      world := { s.world with
        link := some (newLink s.world.nextId found issue)
        nextId := s.world.nextId + 1 } }
  else s

/-- The next step of a pass. -/
def work (i : ℕ) (pass : Pass) (answer : Answer) : Option System :=
  match pass.phase with
  | .searched found =>
    match answer.reply with
    | .ok =>
      match s.world.link with
      | none => some (s.goOn i pass (.importing found))
      | some link => some (s.goOn i pass (.loading found link))
    | .failed | .lost => some (s.goOn i pass .done)
  | .importing found =>
    if (vkStatusOf pass.mapping p.index found.status).isNone && p.index.defaultStatusId.isNone then
      some (s.goOn i pass .done)
    else
      match answer.reply with
      | .ok => some (s.goOn i pass (.linking found s.world.issue))
      | .failed | .lost => some (s.goOn i pass .done)
  | .linking found issue =>
    match answer.reply with
    | .ok | .lost => some ((s.createLink pass found issue).goOn i pass .done)
    | .failed => some (s.goOn i pass .done)
  | .loading found link =>
    match answer.reply with
    | .ok =>
      let w := decideWork pass.mapping p.index found link s.world.issue
      let pass := { pass with atLoad := s.history }
      some (s.goOn i pass (if w.nothingToDo then .done else .writing w))
    | .failed | .lost => some (s.goOn i pass (.failing link.id))
  | .writing w =>
    if w.writesFields then
      match answer.reply with
      | .ok => some ((s.writeJira w answer.updated).goOn i pass (.transitioning w true))
      | .failed => some (s.goOn i pass (.failing w.link.id))
      | .lost => some ((s.writeJira w answer.updated).goOn i pass (.failing w.link.id))
    else some (s.goOn i pass (.transitioning w false))
  | .transitioning w wroteJira =>
    match w.push p.index with
    | .none => some (s.goOn i pass (.rereading w wroteJira false))
    | .noMapping => some (s.goOn i pass (.rereading w wroteJira true))
    | .transition target =>
      -- the transition that the client takes leads to a status of this name
      if eqIgnoreAsciiCase answer.status.name target then
        let moved := s.transition p w answer.updated answer.status
        match answer.reply with
        | .ok => some (moved.goOn i pass (.rereading w true false))
        | .failed => some (s.goOn i pass (.rereading w wroteJira true))
        | .lost => some (moved.goOn i pass (.rereading w wroteJira true))
      else none
  | .rereading w wroteJira pushError =>
    if wroteJira then
      match answer.reply with
      | .ok =>
        let pass := { pass with atReread := s.history }
        some (s.goOn i pass (.saving w s.world.jira pushError))
      | .failed | .lost => some (s.goOn i pass (.failing w.link.id))
    else some (s.goOn i { pass with atReread := pass.atSearch } (.saving w w.found pushError))
  | .saving w jiraNow pushError =>
    match answer.reply with
    | .ok =>
      some ((s.save p w jiraNow pushError answer.now).goOn i pass
        (if pushError then .failing w.link.id else .done))
    | .failed => some (s.goOn i pass (.failing w.link.id))
    | .lost => some ((s.save p w jiraNow pushError answer.now).goOn i pass (.failing w.link.id))
  | .failing linkId =>
    match answer.reply with
    | .ok | .lost =>
      some ((s.onLink linkId fun l => { l with lastError := true }).goOn i pass .done)
    | .failed => some (s.goOn i pass .done)
  | .done => none

def step : Action → Option System
  | .editJira edit updated =>
    some { s with
      world := { s.world with jira := edit.applyJira updated s.world.jira }
      history := s.history.editJira p edit }
  | .editIssue edit updatedAt =>
    some { s with
      world := { s.world with issue := edit.applyIssue updatedAt s.world.issue }
      history := s.history.editIssue p edit }
  | .deleteConfig => some { s with world := { s.world with link := none, config := none } }
  | .createConfig =>
    match s.world.config with
    | none =>
      some { s with
        world := { s.world with config := some s.world.nextId, nextId := s.world.nextId + 1 } }
    | some _ => none
  | .search vkToJira => do
    let config ← s.world.config
    some { s with
      passes := s.passes ++
        [⟨config, ⟨p.jiraToVk, vkToJira⟩, .searched s.world.jira, s.history, s.history,
          s.history⟩] }
  | .work i answer => do
    let pass ← s.passes[i]?
    s.work p i pass answer
  | .crash i => do
    let pass ← s.passes[i]?
    some (s.goOn i pass .done)

/-- The issue has just been imported: the texts are those of Jira, and the link, if there is one,
    holds what both sides hold. -/
structure Initial (s : System) : Prop where
  title : s.world.issue.title = s.world.jira.summary
  description :
    normalizeDescription s.world.issue.description = normalizeDescription s.world.jira.description
  link : ∀ l, s.world.link = some l →
    l.lastSyncedTitle = some s.world.issue.title ∧
      normalizeDescription l.lastSyncedDescription =
        normalizeDescription s.world.issue.description ∧
      l.lastSyncedStatusId = some s.world.issue.statusId ∧
      l.lastSyncedJiraStatus = some s.world.jira.status.name
  ids : ∀ l, s.world.link = some l → l.id < s.world.nextId
  history : s.history =
    ⟨⟨(s.world.jira.summary, s.world.issue.title), []⟩,
      ⟨(normalizeDescription s.world.jira.description,
        normalizeDescription s.world.issue.description), []⟩,
      ⟨(s.world.jira.status, s.world.issue.statusId), []⟩⟩
  passes : s.passes = []

end System

/-! ## What histories tell -/

namespace History

/-- The histories tell what Jira holds. -/
structure ShowsJira (h : History) (j : JiraIssueData) : Prop where
  title : h.title.left = j.summary
  description : h.description.left = normalizeDescription j.description
  status : h.status.left = j.status

structure ShowsIssue (h : History) (issue : Issue) : Prop where
  title : h.title.right = issue.title
  description : h.description.right = normalizeDescription issue.description
  status : h.status.right = issue.statusId

/-- The histories go on from `seen`. -/
structure From (h seen : History) : Prop where
  title : h.title.From seen.title
  description : h.description.From seen.description
  status : h.status.From seen.status

variable {p} {h h' seen : History} {j : JiraIssueData} {issue : Issue} {w : Work}

theorem From.refl (h : History) : h.From h := ⟨.refl _, .refl _, .refl _⟩

theorem From.trans (hh : h'.From h) (h1 : h.From seen) : h'.From seen :=
  ⟨hh.title.trans h1.title, hh.description.trans h1.description, hh.status.trans h1.status⟩

theorem From.editJira (e : Edit JiraStatus) : (h.editJira p e).From h := by
  cases e <;> exact ⟨by first | exact (FieldLog.From.refl _).record | exact .refl _,
    by first | exact (FieldLog.From.refl _).record | exact .refl _,
    by first | exact (FieldLog.From.refl _).record | exact .refl _⟩

theorem From.editIssue (e : Edit Uuid) : (h.editIssue p e).From h := by
  cases e <;> exact ⟨by first | exact (FieldLog.From.refl _).record | exact .refl _,
    by first | exact (FieldLog.From.refl _).record | exact .refl _,
    by first | exact (FieldLog.From.refl _).record | exact .refl _⟩

theorem From.writeFields (w : Work) : (h.writeFields w).From h := by
  refine ⟨?_, ?_, .refl _⟩
  all_goals
    simp only [History.writeFields]
    split
    · exact (FieldLog.From.refl _).copyLeft
    · exact .refl _

theorem From.transition (w : Work) (status : JiraStatus) : (h.transition p w status).From h :=
  ⟨.refl _, .refl _, (FieldLog.From.refl _).copyLeft⟩

theorem From.save (w : Work) (jiraNow : JiraIssueData) : (h.save p w jiraNow).From h := by
  refine ⟨?_, ?_, ?_⟩
  all_goals
    simp only [History.save]
    split
    · exact (FieldLog.From.refl _).copyRight
    · exact .refl _

theorem ShowsJira.editJira (hj : h.ShowsJira j) (e : Edit JiraStatus) (updated : Option Instant) :
    (h.editJira p e).ShowsJira (e.applyJira updated j) := by
  cases e with
  | title text => exact ⟨left_record, hj.description, hj.status⟩
  | description text => exact ⟨hj.title, left_record, hj.status⟩
  | status status => exact ⟨hj.title, hj.description, left_record⟩
  | other => exact ⟨hj.title, hj.description, hj.status⟩

theorem ShowsJira.editIssue (hj : h.ShowsJira j) (e : Edit Uuid) :
    (h.editIssue p e).ShowsJira j := by
  cases e with
  | title text => exact ⟨left_record.trans hj.title, hj.description, hj.status⟩
  | description text => exact ⟨hj.title, left_record.trans hj.description, hj.status⟩
  | status status => exact ⟨hj.title, hj.description, left_record.trans hj.status⟩
  | other => exact hj

theorem ShowsIssue.editJira (hi : h.ShowsIssue issue) (e : Edit JiraStatus) :
    (h.editJira p e).ShowsIssue issue := by
  cases e with
  | title text => exact ⟨right_record.trans hi.title, hi.description, hi.status⟩
  | description text => exact ⟨hi.title, right_record.trans hi.description, hi.status⟩
  | status status => exact ⟨hi.title, hi.description, right_record.trans hi.status⟩
  | other => exact hi

theorem ShowsIssue.editIssue (hi : h.ShowsIssue issue) (e : Edit Uuid) (updatedAt : Instant) :
    (h.editIssue p e).ShowsIssue (e.applyIssue updatedAt issue) := by
  cases e with
  | title text => exact ⟨right_record, hi.description, hi.status⟩
  | description text => exact ⟨hi.title, right_record, hi.status⟩
  | status status => exact ⟨hi.title, hi.description, right_record⟩
  | other => exact ⟨hi.title, hi.description, hi.status⟩

@[simp] theorem normalizeDescription_normalize (d : Option String) :
    normalizeDescription (normalizeDescription d) = normalizeDescription d := by
  simp [normalizeDescription, Option.filter_filter]

theorem ShowsJira.writeFields (hj : h.ShowsJira j) (w : Work) (updated : Option Instant) :
    (h.writeFields w).ShowsJira (w.writeFields updated j) := by
  refine ⟨?_, ?_, hj.status⟩
  · simp only [History.writeFields, Work.writeFields]
    split
    · exact left_copyLeft
    · exact hj.title
  · simp only [History.writeFields, Work.writeFields]
    split
    · simp
    · exact hj.description

theorem ShowsIssue.writeFields (hi : h.ShowsIssue issue) (w : Work) :
    (h.writeFields w).ShowsIssue issue := by
  refine ⟨?_, ?_, hi.status⟩
  · simp only [History.writeFields]
    split
    · exact right_copyLeft.trans hi.title
    · exact hi.title
  · simp only [History.writeFields]
    split
    · exact right_copyLeft.trans hi.description
    · exact hi.description

theorem ShowsJira.transition (hj : h.ShowsJira j) (w : Work) (updated : Option Instant)
    (status : JiraStatus) : (h.transition p w status).ShowsJira { j with status, updated } :=
  ⟨hj.title, hj.description, left_copyLeft⟩

theorem ShowsIssue.transition (hi : h.ShowsIssue issue) (w : Work) (status : JiraStatus) :
    (h.transition p w status).ShowsIssue issue :=
  ⟨hi.title, hi.description, right_copyLeft.trans hi.status⟩

theorem ShowsJira.save (hj : h.ShowsJira j) (w : Work) (jiraNow : JiraIssueData) :
    (h.save p w jiraNow).ShowsJira j := by
  refine ⟨?_, ?_, ?_⟩
  · simp only [History.save]
    split
    · exact left_copyRight.trans hj.title
    · exact hj.title
  · simp only [History.save]
    split
    · exact left_copyRight.trans hj.description
    · exact hj.description
  · simp only [History.save]
    split
    · exact left_copyRight.trans hj.status
    · exact hj.status

variable {index : StatusIndex} {jiraNow : JiraIssueData}

theorem writesIssue_of_writeVk (h : w.writesIssue index jiraNow = false) :
    w.title ≠ .writeVk ∧ w.description ≠ .writeVk ∧ w.newStatusId index jiraNow = none := by
  simpa [Work.writesIssue, and_assoc] using h

variable {now : Instant}

theorem savedIssue_title : (w.savedIssue index jiraNow now issue).title =
      if w.title = .writeVk then jiraNow.summary else issue.title := by
  unfold Work.savedIssue
  split
  · rfl
  · rename_i hno
    exact (if_neg (writesIssue_of_writeVk (Bool.eq_false_iff.2 hno)).1).symm

theorem savedIssue_description : (w.savedIssue index jiraNow now issue).description =
      if w.description = .writeVk then normalizeDescription jiraNow.description
      else issue.description := by
  unfold Work.savedIssue
  split
  · rfl
  · rename_i hno
    exact (if_neg (writesIssue_of_writeVk (Bool.eq_false_iff.2 hno)).2.1).symm

theorem savedIssue_statusId : (w.savedIssue index jiraNow now issue).statusId =
      (w.newStatusId index jiraNow).getD issue.statusId := by
  unfold Work.savedIssue
  split
  · rfl
  · rename_i hno
    rw [(writesIssue_of_writeVk (Bool.eq_false_iff.2 hno)).2.2]
    rfl

theorem ShowsIssue.save (hi : h.ShowsIssue issue) (w : Work) (jiraNow : JiraIssueData)
    (now : Instant) : (h.save p w jiraNow).ShowsIssue (w.savedIssue p.index jiraNow now issue) := by
  refine ⟨?_, ?_, ?_⟩
  · rw [savedIssue_title]
    simp only [History.save]
    split
    · exact right_copyRight
    · exact hi.title
  · rw [savedIssue_description]
    simp only [History.save]
    split
    · simp
    · exact hi.description
  · rw [savedIssue_statusId]
    simp only [History.save]
    split
    · rename_i hid
      rw [hid]
      exact right_copyRight
    · rename_i hnone
      rw [hnone]
      exact hi.status

end History

/-! ## What passes know -/

namespace Pass

/-- The decisions are those for what was read. -/
structure KnowsWork (p : Project) (mapping : JiraStatusMapping) (atSearch atLoad : History)
    (w : Work) : Prop where
  decided : w = decideWork mapping p.index w.found w.link w.issue
  found : atSearch.ShowsJira w.found
  issue : atLoad.ShowsIssue w.issue
  order : atLoad.From atSearch

def Knows (p : Project) (pass : Pass) : Prop :=
  match pass.phase with
  | .searched found | .importing found | .linking found _ | .loading found _ =>
    pass.atSearch.ShowsJira found
  | .writing w | .transitioning w _ | .rereading w _ _ =>
    KnowsWork p pass.mapping pass.atSearch pass.atLoad w
  | .saving w jiraNow _ =>
    KnowsWork p pass.mapping pass.atSearch pass.atLoad w ∧
      pass.atReread.From pass.atSearch ∧ pass.atReread.ShowsJira jiraNow
  | .failing _ | .done => True

/-- The reads of the pass lie in the past. -/
structure Within (h : History) (pass : Pass) : Prop where
  mapping : pass.mapping.jiraToVk = p.jiraToVk
  atSearch : h.From pass.atSearch
  atLoad : h.From pass.atLoad
  atReread : h.From pass.atReread

end Pass

namespace System

variable {p} {s s' : System} {a : Action} {i : ℕ} {pass pass' : Pass} {phase : Phase} {w : Work}

/-- The histories tell what the sides hold, and the passes know what they have read. -/
structure Consistent (p : Project) (s : System) : Prop where
  jira : s.history.ShowsJira s.world.jira
  issue : s.history.ShowsIssue s.world.issue
  passes : ∀ pass ∈ s.passes, pass.Within p s.history ∧ pass.Knows p

theorem Initial.consistent (h : Initial s) : s.Consistent p where
  jira := by
    rw [h.history]
    exact ⟨rfl, rfl, rfl⟩
  issue := by
    rw [h.history]
    exact ⟨rfl, rfl, rfl⟩
  passes := by
    rw [h.passes]
    simp

theorem within_of_from {h h' : History} (hw : pass.Within p h) (hfrom : h'.From h) :
    pass.Within p h' :=
  ⟨hw.mapping, hfrom.trans hw.atSearch, hfrom.trans hw.atLoad, hfrom.trans hw.atReread⟩

section

variable (h : s.Consistent p)
include h

theorem Consistent.of_from (hfrom : s'.history.From s.history)
    (hjira : s'.history.ShowsJira s'.world.jira) (hissue : s'.history.ShowsIssue s'.world.issue)
    (hpasses : ∀ pass ∈ s'.passes, pass ∈ s.passes ∨ pass.Within p s'.history ∧ pass.Knows p) :
    s'.Consistent p where
  jira := hjira
  issue := hissue
  passes := by
    intro pass hpass
    rcases hpasses pass hpass with hold | hnew
    · obtain ⟨hwithin, hknows⟩ := h.passes pass hold
      exact ⟨within_of_from hwithin hfrom, hknows⟩
    · exact hnew

theorem Consistent.goOn (hwithin : pass.Within p s.history)
    (hknows : { pass with phase }.Knows p) : (s.goOn i pass phase).Consistent p := by
  refine h.of_from (.refl _) h.jira h.issue fun pass' hpass' => ?_
  rcases List.mem_or_eq_of_mem_set hpass' with hold | rfl
  · exact .inl hold
  · exact .inr ⟨⟨hwithin.mapping, hwithin.atSearch, hwithin.atLoad, hwithin.atReread⟩, hknows⟩

theorem Consistent.onLink (id : ℕ) (f : JiraIssueLink → JiraIssueLink) :
    (s.onLink id f).Consistent p :=
  ⟨h.jira, h.issue, h.passes⟩

theorem Consistent.createLink (pass : Pass) (found : JiraIssueData)
    (issue : Issue) : (s.createLink pass found issue).Consistent p := by
  unfold System.createLink
  split
  · exact ⟨h.jira, h.issue, h.passes⟩
  · exact h

end

theorem history_createLink {found : JiraIssueData} {issue : Issue} :
    (s.createLink pass found issue).history = s.history := by
  unfold System.createLink
  split <;> rfl

section

variable (h : s.Consistent p)

include h

theorem Consistent.writeJira (w : Work) (updated : Option Instant) :
    (s.writeJira w updated).Consistent p :=
  h.of_from (.writeFields w) (h.jira.writeFields w updated) (h.issue.writeFields w)
    fun _ hpass => .inl hpass

theorem Consistent.transition (w : Work) (updated : Option Instant)
    (status : JiraStatus) : (s.transition p w updated status).Consistent p :=
  h.of_from (.transition w status) (h.jira.transition w updated status)
    (h.issue.transition w status) fun _ hpass => .inl hpass

theorem Consistent.save (w : Work) (jiraNow : JiraIssueData)
    (pushError : Bool) (now : Instant) : (s.save p w jiraNow pushError now).Consistent p :=
  h.of_from (.save w jiraNow) (h.jira.save w jiraNow) (h.issue.save w jiraNow now)
    fun _ hpass => .inl hpass

theorem Consistent.work (hi : s.passes[i]? = some pass) {answer : Answer}
    (hstep : s.work p i pass answer = some s') : s'.Consistent p := by
  obtain ⟨hwithin, hknows⟩ := h.passes pass (List.mem_of_getElem? hi)
  obtain ⟨config, mapping, phase, atSearch, atLoad, atReread⟩ := pass
  cases phase with simp only [System.work] at hstep
  | searched found | importing found =>
    repeat' split at hstep
    all_goals cases hstep
    all_goals first
      | exact h.goOn hwithin hknows
      | exact h.goOn hwithin trivial
  | linking found issue =>
    have hcreated := h.createLink
      ⟨config, mapping, .linking found issue, atSearch, atLoad, atReread⟩
      found issue
    have hwithin' := hwithin
    rw [← history_createLink] at hwithin'
    split at hstep <;> cases hstep
    · exact hcreated.goOn hwithin' trivial
    · exact hcreated.goOn hwithin' trivial
    · exact h.goOn hwithin trivial
  | loading found link =>
    split at hstep
    · cases hstep
      have hnew :
          (Pass.mk config mapping (.loading found link) atSearch s.history atReread).Within p
          s.history :=
        ⟨hwithin.mapping, hwithin.atSearch, .refl _, hwithin.atReread⟩
      refine h.goOn hnew ?_
      split
      · trivial
      · exact ⟨rfl, hknows, h.issue, hwithin.atSearch⟩
    all_goals (cases hstep; exact h.goOn hwithin trivial)
  | writing w =>
    have hwritten := h.writeJira w answer.updated
    have hwithin' := within_of_from hwithin (.writeFields w)
    repeat' split at hstep
    all_goals cases hstep
    · exact hwritten.goOn hwithin' hknows
    · exact h.goOn hwithin trivial
    · exact hwritten.goOn hwithin' trivial
    · exact h.goOn hwithin hknows
  | transitioning w wroteJira =>
    have hmoved := h.transition w answer.updated answer.status
    have hwithin' := within_of_from hwithin (.transition (p := p) w answer.status)
    repeat' split at hstep
    all_goals cases hstep
    all_goals first
      | exact h.goOn hwithin hknows
      | exact hmoved.goOn hwithin' hknows
  | rereading w wroteJira pushError =>
    split at hstep
    · split at hstep
      · cases hstep
        refine h.goOn ⟨hwithin.mapping, hwithin.atSearch, hwithin.atLoad, .refl _⟩ ?_
        exact ⟨⟨hknows.decided, hknows.found, hknows.issue, hknows.order⟩, hwithin.atSearch, h.jira⟩
      all_goals (cases hstep; exact h.goOn hwithin trivial)
    · cases hstep
      refine h.goOn ⟨hwithin.mapping, hwithin.atSearch, hwithin.atLoad, hwithin.atSearch⟩ ?_
      exact ⟨⟨hknows.decided, hknows.found, hknows.issue, hknows.order⟩, .refl _, hknows.found⟩
  | saving w jiraNow pushError =>
    have hsaved := h.save w jiraNow pushError answer.now
    have hwithin' := within_of_from hwithin (.save (p := p) w jiraNow)
    split at hstep <;> cases hstep
    · refine hsaved.goOn hwithin' ?_
      split <;> trivial
    · exact h.goOn hwithin trivial
    · exact hsaved.goOn hwithin' trivial
  | failing linkId =>
    split at hstep <;> cases hstep
    · exact (h.onLink _ _).goOn hwithin trivial
    · exact (h.onLink _ _).goOn hwithin trivial
    · exact h.goOn hwithin trivial
  | done => cases hstep

theorem Consistent.step (hstep : s.step p a = some s') : s'.Consistent p := by
  cases a with
  | editJira edit updated =>
    cases hstep
    exact h.of_from (.editJira edit) (h.jira.editJira edit updated) (h.issue.editJira edit)
      fun _ hpass => .inl hpass
  | editIssue edit updatedAt =>
    cases hstep
    exact h.of_from (.editIssue edit) (h.jira.editIssue edit) (h.issue.editIssue edit updatedAt)
      fun _ hpass => .inl hpass
  | deleteConfig =>
    cases hstep
    exact ⟨h.jira, h.issue, h.passes⟩
  | createConfig =>
    simp only [System.step] at hstep
    split at hstep <;> cases hstep
    exact ⟨h.jira, h.issue, h.passes⟩
  | search vkToJira =>
    obtain ⟨config, _, hstep⟩ := Option.bind_eq_some_iff.1 hstep
    cases hstep
    refine h.of_from (.refl _) h.jira h.issue fun pass hpass => ?_
    rcases List.mem_append.1 hpass with hold | hnew
    · exact .inl hold
    · rw [List.mem_singleton.1 hnew]
      exact .inr ⟨⟨rfl, .refl _, .refl _, .refl _⟩, h.jira⟩
  | work i answer =>
    obtain ⟨pass, hi, hstep⟩ := Option.bind_eq_some_iff.1 hstep
    exact h.work hi hstep
  | crash i =>
    obtain ⟨pass, hi, hstep⟩ := Option.bind_eq_some_iff.1 hstep
    cases hstep
    exact h.goOn (h.passes pass (List.mem_of_getElem? hi)).1 trivial

end

end System

end VibeKanban.Jira.Sync
