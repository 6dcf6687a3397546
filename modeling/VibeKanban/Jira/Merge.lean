import VibeKanban.Delivery.Prompt
import VibeKanban.Jira.Mapping

/-!
# The decisions of a Jira sync (`remote/src/jira/merge.rs`, `remote/src/jira/sync.rs`)

A pass compares each side of a field with the snapshot of the link and copies the side that has
changed; when both have, the times of the issues decide, and a tie goes to Jira.
-/

namespace VibeKanban.Jira.Sync

open Delivery (isWhitespace)
open Jira

abbrev Uuid := ℕ

abbrev Instant := ℕ

/-! ## The two sides -/

structure JiraStatus where
  name : String
  category : Option String
  deriving DecidableEq

/-- What the client reads of a Jira issue (`JiraIssueData`). -/
structure JiraIssueData where
  summary : String
  description : Option String
  status : JiraStatus
  updated : Option Instant

/-- The columns of an issue that the sync reads and writes. -/
structure Issue where
  title : String
  description : Option String
  statusId : Uuid
  updatedAt : Instant

/-- A row of `jira_issue_links` that is active; of an error only its presence counts. -/
structure JiraIssueLink where
  id : ℕ
  lastSyncedTitle : Option String
  lastSyncedDescription : Option String
  lastSyncedStatusId : Option Uuid
  lastSyncedJiraStatus : Option String
  lastError : Bool

/-- `StatusIndex` (lines 145-158); `lowercase` is `str::to_lowercase`. -/
structure StatusIndex where
  nameById : Uuid → Option String
  idByLowerName : String → Option Uuid
  lowercase : String → String
  defaultStatusId : Option Uuid

def StatusIndex.idForName (index : StatusIndex) (name : String) : Option Uuid :=
  index.idByLowerName (index.lowercase name)

/-- `normalize_description` (lines 406-408). -/
def normalizeDescription (description : Option String) : Option String :=
  description.filter fun d => !d.toList.all isWhitespace

/-! ## Decisions -/

/-- `FieldAction` (`merge.rs`, line 22). -/
inductive FieldAction where
  | noOp
  | writeVk
  | writeJira
  deriving DecidableEq

/-- `decide_field` (`merge.rs`, lines 36-53). -/
def decideField (jiraMatchesSnapshot vkMatchesSnapshot : Bool) (jiraUpdated : Option Instant)
    (vkUpdated : Instant) : FieldAction :=
  match jiraMatchesSnapshot, vkMatchesSnapshot with
  | true, true => .noOp
  | false, true => .writeVk
  | true, false => .writeJira
  | false, false =>
    match jiraUpdated with
    | some jiraUpdated => if jiraUpdated < vkUpdated then .writeJira else .writeVk
    | none => .writeVk

/-- `field_action` (lines 613-631). -/
def fieldAction {γ : Type} [DecidableEq γ] (jiraMatchesSnapshot vkMatchesSnapshot : Bool)
    (jiraValue vkValue : γ) (jiraUpdated : Option Instant) (vkUpdated : Instant) : FieldAction :=
  if jiraValue = vkValue then .noOp
  else decideField jiraMatchesSnapshot vkMatchesSnapshot jiraUpdated vkUpdated

/-- The column that a Jira status maps to. -/
def vkStatusOf (mapping : JiraStatusMapping) (index : StatusIndex) (status : JiraStatus) :
    Option Uuid :=
  (mapping.resolveJiraToVk status.name status.category).bind index.idForName

/-- `decide_status_action` (lines 633-658). -/
def decideStatusAction (jiraStatus : JiraStatus) (snapJiraStatus : String) (vkStatusId : Uuid)
    (snapStatusId : Option Uuid) (jiraUpdated : Option Instant) (vkUpdated : Instant)
    (mapping : JiraStatusMapping) (index : StatusIndex) : FieldAction :=
  let mappedVkId := vkStatusOf mapping index jiraStatus
  let jiraChanged := !eqIgnoreAsciiCase jiraStatus.name snapJiraStatus
  let vkChanged := decide (snapStatusId ≠ some vkStatusId)
  if mappedVkId = some vkStatusId && !jiraChanged then .noOp
  else decideField (!jiraChanged) (!vkChanged) jiraUpdated vkUpdated

/-- What `sync_linked_issue` has read and decided. -/
structure Work where
  found : JiraIssueData
  link : JiraIssueLink
  issue : Issue
  mapping : JiraStatusMapping
  title : FieldAction
  description : FieldAction
  status : FieldAction

/-- The decisions of `sync_linked_issue` (lines 432-478). -/
def decideWork (mapping : JiraStatusMapping) (index : StatusIndex) (found : JiraIssueData)
    (link : JiraIssueLink) (issue : Issue) : Work :=
  let snapTitle := link.lastSyncedTitle.getD ""
  let jiraDesc := normalizeDescription found.description
  let vkDesc := normalizeDescription issue.description
  let snapDesc := normalizeDescription link.lastSyncedDescription
  { found, link, issue, mapping
    title := fieldAction (found.summary = snapTitle) (issue.title = snapTitle) found.summary
      issue.title found.updated issue.updatedAt
    description := fieldAction (jiraDesc = snapDesc) (vkDesc = snapDesc) jiraDesc vkDesc
      found.updated issue.updatedAt
    status := decideStatusAction found.status (link.lastSyncedJiraStatus.getD "") issue.statusId
      link.lastSyncedStatusId found.updated issue.updatedAt mapping index }

/-- The pass leaves the issue and its link alone (lines 479-484). -/
def Work.nothingToDo (w : Work) : Bool :=
  w.title = .noOp && w.description = .noOp && w.status = .noOp && !w.link.lastError

/-! ## What is copied -/

variable {jm vm : Bool} {ju : Option Instant} {vu : Instant}

theorem decideField_eq_writeVk (h : decideField jm vm ju vu = .writeVk) : jm = false := by
  cases jm with
  | false => rfl
  | true => cases vm <;> cases h

theorem decideField_eq_writeJira (h : decideField jm vm ju vu = .writeJira) : vm = false := by
  cases vm with
  | false => rfl
  | true => cases jm <;> cases h

section Fields

variable {γ : Type} [DecidableEq γ] {jv vv : γ}

theorem fieldAction_eq_writeVk (h : fieldAction jm vm jv vv ju vu = .writeVk) : jm = false := by
  unfold fieldAction at h
  split at h
  · cases h
  · exact decideField_eq_writeVk h

theorem fieldAction_eq_writeJira (h : fieldAction jm vm jv vv ju vu = .writeJira) : vm = false := by
  unfold fieldAction at h
  split at h
  · cases h
  · exact decideField_eq_writeJira h

/-- Nothing is copied when the sides agree, and only then if the snapshot compares as it should. -/
theorem fieldAction_eq_noOp {snap : γ}
    (h : fieldAction (jv = snap) (vv = snap) jv vv ju vu = .noOp) : jv = vv := by
  unfold fieldAction at h
  split at h
  · assumption
  · unfold decideField at h
    split at h
    · rename_i hj hv
      exact (of_decide_eq_true hj).trans (of_decide_eq_true hv).symm
    · cases h
    · cases h
    · split at h
      · split at h <;> cases h
      · cases h

theorem fieldAction_self : fieldAction jm vm jv jv ju vu = .noOp := if_pos rfl

end Fields

section Statuses

variable {status : JiraStatus} {snap : String} {id : Uuid} {snapId : Option Uuid}
  {mapping : JiraStatusMapping} {index : StatusIndex}

theorem decideStatusAction_eq_writeVk
    (h : decideStatusAction status snap id snapId ju vu mapping index = .writeVk) :
    eqIgnoreAsciiCase status.name snap = false := by
  unfold decideStatusAction at h
  simp only at h
  split at h
  · cases h
  · have hm := decideField_eq_writeVk h
    simpa using hm

theorem decideStatusAction_eq_writeJira
    (h : decideStatusAction status snap id snapId ju vu mapping index = .writeJira) :
    snapId ≠ some id := by
  unfold decideStatusAction at h
  simp only at h
  split at h
  · cases h
  · have hm := decideField_eq_writeJira h
    simpa using hm

/-- A status that neither side has changed since the snapshot is left alone. -/
theorem decideStatusAction_unchanged (h : eqIgnoreAsciiCase status.name snap = true) :
    decideStatusAction status snap id (some id) ju vu mapping index = .noOp := by
  unfold decideStatusAction
  simp only [h, Bool.not_true, Bool.not_false, Bool.and_true, ne_eq, not_true_eq_false,
    decide_false, decideField]
  split <;> rfl

end Statuses

end VibeKanban.Jira.Sync
