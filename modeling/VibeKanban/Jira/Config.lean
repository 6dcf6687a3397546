import VibeKanban.Auth.Sessions
import VibeKanban.Jira.Mapping

/-!
# The configuration rows of Jira syncs (`remote/src/db/jira_sync.rs`, lines 72-318)

The statements on `project_jira_configs` that decide when a pass runs: due, lease and request are
all in the order of three times of one row. Times are in microseconds; `now` is the `NOW()` of the
statement. The claims, and the mapping that was saved last, are not in the source. `delete_config`
is left out.

* `claimDueConfig_eq_some_iff`: what a claim takes.
* `Sound.claim`: a configuration has one open claim.
-/

namespace VibeKanban.Jira

open Lib Option
open Auth (Uuid Instant)
open Function (update update_of_ne update_self)

def second : ℤ := 1000000

def leaseTime : ℤ := 3600 * second

inductive JiraAuthMode where
  | cloudBasic
  | serverPat
  deriving DecidableEq

structure JiraSyncConfig where
  projectId : Uuid
  jiraBaseUrl : String
  authMode : JiraAuthMode
  jiraEmail : Option String
  encryptedCredential : String
  jql : String
  enabled : Bool
  createdByUserId : Option Uuid
  syncIntervalSeconds : ℤ
  statusMapping : JiraStatusMapping
  syncRequestedAt : Option Instant
  lastSyncStartedAt : Option Instant
  lastSyncCompletedAt : Option Instant
  lastSyncError : Option String
  deriving DecidableEq

structure UpsertJiraSyncConfigArgs where
  projectId : Uuid
  jiraBaseUrl : String
  authMode : JiraAuthMode
  jiraEmail : Option String
  encryptedCredential : Option String
  jql : String
  enabled : Bool
  syncIntervalSeconds : ℤ
  statusMapping : JiraStatusMapping
  createdByUserId : Uuid
  deriving DecidableEq

namespace JiraSyncConfig

/-- Never synced, interval elapsed, or a request that is newer than the last start. -/
def isDue (config : JiraSyncConfig) (now : Instant) : Bool :=
  config.lastSyncCompletedAt.all (· ≤ now - config.syncIntervalSeconds * second) ||
    config.syncRequestedAt.any fun requested => config.lastSyncStartedAt.all (· < requested)

/-- No pass holds the lease, or the one that does is stale. -/
def isFree (config : JiraSyncConfig) (now : Instant) : Bool :=
  config.lastSyncStartedAt.all fun started =>
    config.lastSyncCompletedAt.any (started ≤ ·) || started < now - leaseTime

/-- The condition of `list_due_config_ids` and of `claim_due_config`. -/
def claimable (config : JiraSyncConfig) (now : Instant) : Bool :=
  config.enabled && config.isDue now && config.isFree now

end JiraSyncConfig

namespace UpsertJiraSyncConfigArgs

/-- The `CHECK` of the column. -/
def valid (args : UpsertJiraSyncConfigArgs) : Bool :=
  60 ≤ args.syncIntervalSeconds && args.syncIntervalSeconds ≤ 3600

def inserted (args : UpsertJiraSyncConfigArgs) : JiraSyncConfig :=
  { projectId := args.projectId
    jiraBaseUrl := args.jiraBaseUrl
    authMode := args.authMode
    jiraEmail := args.jiraEmail
    encryptedCredential := args.encryptedCredential.getD ""
    jql := args.jql
    enabled := args.enabled
    createdByUserId := some args.createdByUserId
    syncIntervalSeconds := args.syncIntervalSeconds
    statusMapping := args.statusMapping
    syncRequestedAt := none
    lastSyncStartedAt := none
    lastSyncCompletedAt := none
    lastSyncError := none }

/-- `DO UPDATE SET`. -/
def updated (args : UpsertJiraSyncConfigArgs) (config : JiraSyncConfig) : JiraSyncConfig :=
  { config with
    jiraBaseUrl := args.jiraBaseUrl
    authMode := args.authMode
    jiraEmail := args.jiraEmail
    encryptedCredential := args.encryptedCredential.getD config.encryptedCredential
    jql := args.jql
    enabled := args.enabled
    syncIntervalSeconds := args.syncIntervalSeconds
    statusMapping := args.statusMapping }

/-- The condition of the conflict update; `lower` is the database's `LOWER`. -/
def applies (lower : String → String) (args : UpsertJiraSyncConfigArgs)
    (config : JiraSyncConfig) : Bool :=
  args.encryptedCredential.isSome ||
    (lower config.jiraBaseUrl = lower args.jiraBaseUrl && config.authMode = args.authMode)

end UpsertJiraSyncConfigArgs

/-- A claim that has been made. -/
structure Claim where
  config : Uuid
  /-- the time that the claim stamped -/
  lease : Instant
  completed : Bool
  deriving DecidableEq

/-- The claim is younger than 60 minutes and uncompleted. -/
def Claim.running (claim : Claim) (id : Uuid) (now : Instant) : Bool :=
  claim.config = id && !claim.completed && now - claim.lease < leaseTime

structure World where
  configs : Uuid → Option JiraSyncConfig
  nextId : Uuid
  claims : List Claim
  saved : Uuid → Option JiraStatusMapping

namespace World

def modify (w : World) (id : Uuid) (f : JiraSyncConfig → JiraSyncConfig) : World :=
  { w with configs := update w.configs id ((w.configs id).map f) }

def configOf (w : World) (project : Uuid) : Option Uuid :=
  (List.range w.nextId).find? fun id => (w.configs id).any (·.projectId = project)

/-- `upsert_config` (lines 79-146); `none`: the check of the column fails. -/
def upsertConfig (lower : String → String) (w : World) (args : UpsertJiraSyncConfigArgs) :
    Option World :=
  if args.valid then
    match w.configOf args.projectId with
    | none => some
        { w with
          configs := update w.configs w.nextId (some args.inserted)
          nextId := w.nextId + 1
          saved := update w.saved w.nextId (some args.statusMapping) }
    | some id =>
      if (w.configs id).any (args.applies lower) then
        some { w.modify id args.updated with
          saved := update w.saved id (some args.statusMapping) }
      else some w
  else none

/-- `update_status_mapping` (lines 149-162). -/
def updateStatusMapping (w : World) (id : Uuid) (mapping : JiraStatusMapping) : World :=
  w.modify id fun config => { config with statusMapping := mapping }

/-- `request_sync_now` (lines 179-195). -/
def requestSyncNow (w : World) (project : Uuid) (now : Instant) : World :=
  { w with
    configs := fun id => (w.configs id).map fun config =>
      if config.projectId = project then { config with syncRequestedAt := some now } else config }

/-- The rows that `list_due_config_ids` (lines 202-225) selects. -/
def dueConfigIds (w : World) (now : Instant) : List Uuid :=
  (List.range w.nextId).filter fun id => (w.configs id).any (·.claimable now)

/-- The result of `list_due_config_ids`: the selected rows by their last completion, the order of
    equal ones being the database's. -/
def ListsDue (w : World) (now : Instant) (due : List Uuid) : Prop :=
  due.Perm (w.dueConfigIds now) ∧ due.Pairwise fun a b =>
    ((w.configs a).bind (·.lastSyncCompletedAt)).all fun completed =>
      ((w.configs b).bind (·.lastSyncCompletedAt)).any (completed ≤ ·)
  deriving Decidable

/-- A claim, with the row that it stamps. -/
def claim (w : World) (id : Uuid) (now : Instant) : World :=
  { w.modify id fun config => { config with lastSyncStartedAt := some now } with
    claims := ⟨id, now, false⟩ :: w.claims }

/-- `claim_due_config` (lines 247-290), with the row that it returns. -/
def claimDueConfig (w : World) (id : Uuid) (now : Instant) : Option (World × JiraSyncConfig) :=
  ((w.configs id).filter (·.claimable now)).map fun config =>
    (w.claim id now, { config with lastSyncStartedAt := some now })

def mark (id : Uuid) (lease : Instant) (claim : Claim) : Claim :=
  if claim.config = id ∧ claim.lease = lease then { claim with completed := true } else claim

/-- `mark_sync_completed` (lines 296-318). -/
def markSyncCompleted (w : World) (id : Uuid) (lease : Instant) (error : Option String)
    (now : Instant) : World :=
  if (w.configs id).any (·.lastSyncStartedAt = some lease) then
    { w.modify id fun config =>
        { config with lastSyncCompletedAt := some now, lastSyncError := error } with
      claims := w.claims.map (mark id lease) }
  else w

end World

/-! ## Due and free rows -/

namespace JiraSyncConfig

variable {config : JiraSyncConfig} {now : Instant}

theorem isDue_iff : config.isDue now = true ↔ (∀ completed ∈ config.lastSyncCompletedAt,
      completed ≤ now - config.syncIntervalSeconds * second) ∨
    ∃ requested ∈ config.syncRequestedAt, ∀ started ∈ config.lastSyncStartedAt,
      started < requested := by
  rw [isDue, Bool.or_eq_true, all_eq_true, any_eq_true]
  simp only [decide_eq_true_eq, all_eq_true, mem_def]

theorem isFree_iff : config.isFree now = true ↔ ∀ started ∈ config.lastSyncStartedAt,
      (∃ completed ∈ config.lastSyncCompletedAt, started ≤ completed) ∨
      started < now - leaseTime := by
  rw [isFree, all_eq_true]
  simp only [Bool.or_eq_true, any_eq_true, decide_eq_true_eq, mem_def]

theorem claimable_iff : config.claimable now = true ↔
    config.enabled = true ∧ config.isDue now = true ∧ config.isFree now = true := by
  rw [claimable, Bool.and_eq_true, Bool.and_eq_true, and_assoc]

/-- The times of a row lie in the past, and its interval is a valid one. -/
structure Timely (config : JiraSyncConfig) (now : Instant) : Prop where
  requested : ∀ t, config.syncRequestedAt = some t → t ≤ now
  started : ∀ t, config.lastSyncStartedAt = some t → t ≤ now
  completed : ∀ t, config.lastSyncCompletedAt = some t → t ≤ now
  interval : 60 ≤ config.syncIntervalSeconds ∧ config.syncIntervalSeconds ≤ 3600

theorem Timely.mono {now' : Instant} (h : config.Timely now) (hle : now ≤ now') :
    config.Timely now' where
  requested t ht := (h.requested t ht).trans hle
  started t ht := (h.started t ht).trans hle
  completed t ht := (h.completed t ht).trans hle
  interval := h.interval

theorem Timely.started_lt (h : config.Timely now) (hclaimable : config.claimable now = true)
    {started : Instant} (hstarted : config.lastSyncStartedAt = some started) : started < now := by
  obtain ⟨-, hdue, hfree⟩ := claimable_iff.1 hclaimable
  rcases isFree_iff.1 hfree started hstarted with ⟨completed, hcompleted, hle⟩ | hstale
  · rcases isDue_iff.1 hdue with helapsed | ⟨requested, hrequested, hlt⟩
    · have hlate := helapsed completed hcompleted
      have hinterval := h.interval.1
      have hlt : completed < now := by
        refine Int.lt_of_le_of_lt hlate ?_
        have hpos : 0 < config.syncIntervalSeconds * 1000000 := by omega
        exact Int.sub_lt_self now hpos
      exact Int.lt_of_le_of_lt hle hlt
    · exact Int.lt_of_lt_of_le (hlt started hstarted) (h.requested requested hrequested)
  · exact Int.lt_trans hstale (Int.sub_lt_self now (by decide))

theorem Timely.claimable_of_late (h : config.Timely now) (henabled : config.enabled = true)
    (hstarted : ∀ t, config.lastSyncStartedAt = some t → t < now - leaseTime)
    (hcompleted : ∀ t, config.lastSyncCompletedAt = some t → t ≤ now - leaseTime) :
    config.claimable now = true := by
  refine claimable_iff.2 ⟨henabled, isDue_iff.2 (.inl fun t ht => ?_),
    isFree_iff.2 fun t ht => .inr (hstarted t ht)⟩
  refine (hcompleted t ht).trans (Int.sub_le_sub_left ?_ now)
  exact Int.mul_le_mul_of_nonneg_right h.interval.2 (by decide)

end JiraSyncConfig

/-! ## What the statements do -/

namespace World

variable {w w' : World} {now : Instant} {id id' : Uuid} {config config' : JiraSyncConfig}
  {f : JiraSyncConfig → JiraSyncConfig} {lower : String → String}
  {args : UpsertJiraSyncConfigArgs} {lease : Instant}

theorem modify_some (h : w.configs id = some config) : (w.modify id f).configs id = f config := by
  show update w.configs id ((w.configs id).map f) id = _
  rw [update_self, h, map_some]

theorem modify_of_ne (h : id' ≠ id) : (w.modify id f).configs id' = w.configs id' :=
  update_of_ne h _ _

theorem modify_cases (h : (w.modify id f).configs id' = some config') :
    ∃ config, w.configs id' = some config ∧
      (id' ≠ id ∧ config' = config ∨ id' = id ∧ config' = f config) := by
  by_cases hid : id' = id
  · subst hid
    change update w.configs id' ((w.configs id').map f) id' = _ at h
    rw [update_self, map_eq_some_iff] at h
    obtain ⟨config, hconfig, rfl⟩ := h
    exact ⟨config, hconfig, .inr ⟨rfl, rfl⟩⟩
  · rw [modify_of_ne hid] at h
    exact ⟨config', h, .inl ⟨hid, rfl⟩⟩

/-- The statement stamps no claim and no completion. -/
structure Quiet (now : Instant) (w w' : World) : Prop where
  claims : w'.claims = w.claims
  keeps : ∀ id config, w.configs id = some config → ∃ config', w'.configs id = some config' ∧
    config'.lastSyncStartedAt = config.lastSyncStartedAt ∧
    config'.lastSyncCompletedAt = config.lastSyncCompletedAt
  /-- an inserted row has no times -/
  timely : ∀ id config', w'.configs id = some config' → config'.Timely now
  fresh : ∀ id, w'.nextId ≤ id → w'.configs id = none

/-- What holds of the rows and the claims. -/
structure Sound (w : World) (now : Instant) : Prop where
  timely : ∀ id config, w.configs id = some config → config.Timely now
  fresh : ∀ id, w.nextId ≤ id → w.configs id = none
  stamped : ∀ claim ∈ w.claims, ∃ config started, w.configs claim.config = some config ∧
    config.lastSyncStartedAt = some started ∧ claim.lease ≤ started
  increasing : w.claims.Pairwise fun newer older =>
    older.config = newer.config → older.lease < newer.lease
  newer : ∀ claim ∈ w.claims, claim.completed = false → ∀ config completed,
    w.configs claim.config = some config → config.lastSyncStartedAt = some claim.lease →
    config.lastSyncCompletedAt = some completed → completed ≤ claim.lease

theorem Sound.mono {now' : Instant} (h : w.Sound now) (hle : now ≤ now') : w.Sound now' :=
  { h with timely := fun id config hconfig => (h.timely id config hconfig).mono hle }

section

variable (h : w.Sound now)
include h

theorem Sound.quiet (hquiet : w.Quiet now w') : w'.Sound now where
  timely := hquiet.timely
  fresh := hquiet.fresh
  stamped claim hclaim := by
    rw [hquiet.claims] at hclaim
    obtain ⟨config, started, hconfig, hstarted, hle⟩ := h.stamped claim hclaim
    obtain ⟨config', hconfig', hstarted', -⟩ := hquiet.keeps _ config hconfig
    exact ⟨config', started, hconfig', hstarted'.trans hstarted, hle⟩
  increasing := by
    rw [hquiet.claims]
    exact h.increasing
  newer claim hclaim hopen config' completed hconfig' hstarted hcompleted := by
    rw [hquiet.claims] at hclaim
    obtain ⟨config, -, hconfig, -⟩ := h.stamped claim hclaim
    obtain ⟨config'', hconfig'', hstarted'', hcompleted''⟩ := hquiet.keeps _ config hconfig
    obtain rfl : config' = config'' := some.inj (hconfig'.symm.trans hconfig'')
    exact h.newer claim hclaim hopen config completed hconfig (hstarted''.symm.trans hstarted)
      (hcompleted''.symm.trans hcompleted)

theorem Quiet.refl : w.Quiet now w where
  claims := rfl
  keeps _ config hconfig := ⟨config, hconfig, rfl, rfl⟩
  timely := h.timely
  fresh := h.fresh

theorem Quiet.modify (hstarted : ∀ config, (f config).lastSyncStartedAt = config.lastSyncStartedAt)
    (hcompleted : ∀ config, (f config).lastSyncCompletedAt = config.lastSyncCompletedAt)
    (htimely : ∀ config, config.Timely now → (f config).Timely now) :
    w.Quiet now (w.modify id f) where
  claims := rfl
  keeps id' config hconfig := by
    by_cases hid : id' = id
    · subst hid
      exact ⟨f config, modify_some hconfig, hstarted config, hcompleted config⟩
    · exact ⟨config, (modify_of_ne hid).trans hconfig, rfl, rfl⟩
  timely id' config' hconfig' := by
    obtain ⟨config, hconfig, ⟨-, rfl⟩ | ⟨-, rfl⟩⟩ := modify_cases hconfig'
    · exact h.timely id' _ hconfig
    · exact htimely config (h.timely id' config hconfig)
  fresh id' hid' := by
    have hnone := h.fresh id' hid'
    by_cases hid : id' = id
    · subst hid
      show update w.configs id' ((w.configs id').map f) id' = none
      rw [update_self, hnone, map_none]
    · exact (modify_of_ne hid).trans hnone

theorem Quiet.updateStatusMapping (id : Uuid) (mapping : JiraStatusMapping) :
    w.Quiet now (w.updateStatusMapping id mapping) :=
  .modify h (fun _ => rfl) (fun _ => rfl) fun _ htimely => { htimely with }

theorem Quiet.requestSyncNow (project : Uuid) : w.Quiet now (w.requestSyncNow project now) where
  claims := rfl
  keeps id config hconfig := by
    refine ⟨_, congrArg (Option.map _) hconfig, ?_, ?_⟩
    all_goals
      dsimp only
      split <;> rfl
  timely id config' hconfig' := by
    obtain ⟨config, hconfig, rfl⟩ := Option.map_eq_some_iff.1 hconfig'
    have htimely := h.timely id config hconfig
    split
    · exact { htimely with requested := fun t ht => (Option.some.inj ht).symm.le }
    · exact htimely
  fresh id hid := congrArg (Option.map _) (h.fresh id hid)

end

theorem valid_iff : args.valid = true ↔
    60 ≤ args.syncIntervalSeconds ∧ args.syncIntervalSeconds ≤ 3600 := by
  rw [UpsertJiraSyncConfigArgs.valid, Bool.and_eq_true, decide_eq_true_iff, decide_eq_true_iff]

theorem Quiet.upsertConfig (h : w.Sound now)
    (hupsert : w.upsertConfig lower args = some w') : w.Quiet now w' := by
  unfold World.upsertConfig at hupsert
  split at hupsert
  · rename_i hvalid
    have hinterval := valid_iff.1 hvalid
    split at hupsert
    · cases hupsert
      refine ⟨rfl, fun id config hconfig => ?_, fun id config' hconfig' => ?_, fun id hid => ?_⟩
      · have hne : id ≠ w.nextId := fun hid => by
          rw [h.fresh id hid.ge] at hconfig
          cases hconfig
        exact ⟨config, (update_of_ne hne _ _).trans hconfig, rfl, rfl⟩
      · change update w.configs w.nextId (some args.inserted) id = _ at hconfig'
        by_cases hid : id = w.nextId
        · rw [hid, update_self] at hconfig'
          cases hconfig'
          exact ⟨nofun, nofun, nofun, hinterval⟩
        · rw [update_of_ne hid] at hconfig'
          exact h.timely id config' hconfig'
      · exact (update_of_ne (Nat.ne_of_gt hid) _ _).trans (h.fresh id (Nat.le_of_succ_le hid))
    · rename_i id _
      split at hupsert <;> cases hupsert
      · have hquiet : w.Quiet now (w.modify id args.updated) :=
          .modify h (fun _ => rfl) (fun _ => rfl) fun _ htimely =>
            { htimely with interval := hinterval }
        exact { hquiet with }
      · exact .refl h
  · cases hupsert

/-! ### Claims -/

theorem claim_some (h : w.configs id = some config) :
    (w.claim id now).configs id = some { config with lastSyncStartedAt := some now } :=
  modify_some h

theorem claim_of_ne (h : id' ≠ id) : (w.claim id now).configs id' = w.configs id' := modify_of_ne h

theorem claimDueConfig_eq_some_iff {config' : JiraSyncConfig} :
    w.claimDueConfig id now = some (w', config') ↔
      ∃ config, w.configs id = some config ∧ config.claimable now = true ∧
        w' = w.claim id now ∧ config' = { config with lastSyncStartedAt := some now } := by
  unfold claimDueConfig
  rw [map_eq_some_iff]
  constructor
  · rintro ⟨config, hfilter, heq⟩
    obtain ⟨hconfig, hclaimable⟩ := filter_eq_some_iff.1 hfilter
    cases heq
    exact ⟨config, hconfig, hclaimable, rfl, rfl⟩
  · rintro ⟨config, hconfig, hclaimable, rfl, rfl⟩
    exact ⟨config, filter_eq_some_iff.2 ⟨hconfig, hclaimable⟩, rfl⟩

section

variable (h : w.Sound now) (hconfig : w.configs id = some config)
  (hclaimable : config.claimable now = true)
include h hconfig hclaimable

theorem Sound.lease_lt {claim : Claim} (hclaim : claim ∈ w.claims)
    (hid : claim.config = id) : claim.lease < now := by
  obtain ⟨config', started, hconfig', hstarted, hle⟩ := h.stamped claim hclaim
  rw [hid, hconfig] at hconfig'
  cases hconfig'
  exact Int.lt_of_le_of_lt hle ((h.timely id _ hconfig).started_lt hclaimable hstarted)

theorem Sound.claim : (w.claim id now).Sound now where
  timely id' config' hconfig' := by
    obtain ⟨config, hconfig, ⟨-, rfl⟩ | ⟨-, rfl⟩⟩ := modify_cases hconfig'
    · exact h.timely id' _ hconfig
    · exact { h.timely id' config hconfig with
        started := fun t ht => (some.inj ht).symm.le }
  fresh id' hid' := by
    by_cases hid : id' = id
    · rw [hid] at hid'
      rw [h.fresh id hid'] at hconfig
      cases hconfig
    · exact (claim_of_ne hid).trans (h.fresh id' hid')
  stamped claim hclaim := by
    rcases List.mem_cons.1 hclaim with rfl | hclaim
    · exact ⟨_, now, claim_some hconfig, rfl, le_rfl⟩
    · obtain ⟨config', started, hconfig', hstarted, hle⟩ := h.stamped claim hclaim
      by_cases hid : claim.config = id
      · rw [hid]
        exact ⟨_, now, claim_some hconfig, rfl, (h.lease_lt hconfig hclaimable hclaim hid).le⟩
      · exact ⟨config', started, (claim_of_ne hid).trans hconfig', hstarted, hle⟩
  increasing := List.pairwise_cons.2
    ⟨fun _ hclaim hid => h.lease_lt hconfig hclaimable hclaim hid, h.increasing⟩
  newer claim hclaim hopen config' completed hconfig' hstarted hcompleted := by
    obtain ⟨config'', hconfig'', ⟨hne, rfl⟩ | ⟨hid, rfl⟩⟩ := modify_cases hconfig'
    · rcases List.mem_cons.1 hclaim with rfl | hclaim
      · exact absurd rfl hne
      · exact h.newer claim hclaim hopen _ completed hconfig'' hstarted hcompleted
    · have hle := (h.timely _ _ hconfig'').completed completed hcompleted
      cases hstarted
      exact hle

end

/-! ### Completions -/

@[simp] theorem mark_config (id : Uuid) (lease : Instant) (claim : Claim) :
    (mark id lease claim).config = claim.config := by
  unfold mark
  split <;> rfl

@[simp] theorem mark_lease (id : Uuid) (lease : Instant) (claim : Claim) :
    (mark id lease claim).lease = claim.lease := by
  unfold mark
  split <;> rfl

theorem mark_open {claim : Claim} (h : (mark id lease claim).completed = false) :
    mark id lease claim = claim ∧ ¬ (claim.config = id ∧ claim.lease = lease) := by
  unfold mark at h ⊢
  split at h
  · cases h
  · rename_i hne
    exact ⟨if_neg hne, hne⟩

theorem mark_of_ne {claim : Claim}
    (h : ¬ (claim.config = id ∧ claim.lease = lease)) : mark id lease claim = claim :=
  if_neg h

theorem markSyncCompleted_cases (w : World) (id : Uuid) (lease : Instant) (error : Option String)
    (now : Instant) :
    (w.markSyncCompleted id lease error now = w ∧
      ∀ config, w.configs id = some config → config.lastSyncStartedAt ≠ some lease) ∨
    ∃ config, w.configs id = some config ∧ config.lastSyncStartedAt = some lease ∧
      w.markSyncCompleted id lease error now =
        { w.modify id fun config =>
            { config with lastSyncCompletedAt := some now, lastSyncError := error } with
          claims := w.claims.map (mark id lease) } := by
  unfold markSyncCompleted
  split
  · rename_i hany
    obtain ⟨config, hconfig, hlease⟩ := (any_eq_true _ _).1 hany
    exact .inr ⟨config, hconfig, of_decide_eq_true hlease, rfl⟩
  · rename_i hany
    refine .inl ⟨rfl, fun config hconfig hlease => hany ?_⟩
    rw [hconfig, any_some, hlease]
    exact decide_eq_true rfl

theorem Sound.markSyncCompleted (h : w.Sound now) (id : Uuid) (lease : Instant)
    (error : Option String) : (w.markSyncCompleted id lease error now).Sound now := by
  rcases w.markSyncCompleted_cases id lease error now with ⟨heq, -⟩ | ⟨config, hconfig, hlease, heq⟩
  · rw [heq]
    exact h
  rw [heq]
  refine ⟨fun id' config' hconfig' => ?_, fun id' hid' => ?_, fun claim hclaim => ?_, ?_,
    fun claim hclaim hopen config' completed hconfig' hstarted hcompleted => ?_⟩
  · obtain ⟨config, hconfig, ⟨-, rfl⟩ | ⟨-, rfl⟩⟩ := modify_cases hconfig'
    · exact h.timely id' _ hconfig
    · exact { h.timely id' config hconfig with
        completed := fun t ht => (some.inj ht).symm.le }
  · by_cases hid : id' = id
    · rw [hid] at hid'
      rw [h.fresh id hid'] at hconfig
      cases hconfig
    · exact (modify_of_ne hid).trans (h.fresh id' hid')
  · obtain ⟨claim, hmem, rfl⟩ := List.mem_map.1 hclaim
    obtain ⟨config', started, hconfig', hstarted, hle⟩ := h.stamped claim hmem
    rw [mark_config, mark_lease]
    by_cases hid : claim.config = id
    · rw [hid] at hconfig' ⊢
      exact ⟨_, started, modify_some hconfig', hstarted, hle⟩
    · exact ⟨config', started, (modify_of_ne hid).trans hconfig', hstarted, hle⟩
  · refine List.pairwise_map.2 (h.increasing.imp fun hlt => ?_)
    rw [mark_config, mark_config, mark_lease, mark_lease]
    exact hlt
  · obtain ⟨claim, hmem, rfl⟩ := List.mem_map.1 hclaim
    obtain ⟨hmark, hne⟩ := mark_open hopen
    rw [hmark] at hopen hconfig' hstarted ⊢
    obtain ⟨config'', hconfig'', ⟨-, rfl⟩ | ⟨hid, rfl⟩⟩ := modify_cases hconfig'
    · exact h.newer claim hmem hopen _ completed hconfig'' hstarted hcompleted
    · rw [hid, hconfig] at hconfig''
      cases hconfig''
      rw [hlease] at hstarted
      exact absurd ⟨hid, (some.inj hstarted).symm⟩ hne

end World

end VibeKanban.Jira
