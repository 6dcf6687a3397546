import VibeKanban.Diff.StatsCache
import VibeKanban.Lib.Mirror

/-!
# The diff stream (`services/diff_stream.rs`)

A task watches a worktree and sends JSON patches to a client, which holds the diffs by the paths of
their files. The task keeps the paths in `known_paths`. What git, the file system and the database
answer is part of the action; a failed git call is `none`. The client is what the patches make of an
empty map.

* `stream_agrees`: the client agrees after each step, exactly as long as the steps are faithful.
-/

namespace VibeKanban.Diff

open Lib Option List Bool

abbrev Oid := ℕ

abbrev Path := String

/-- The modification time and the length of a file. -/
structure Stat where
  modified : ℕ
  len : ℕ
  deriving DecidableEq

/-- A `Diff`, without the kind of its change. -/
structure FileDiff where
  oldPath : Option Path
  newPath : Option Path
  oldContent : Option String
  newContent : Option String
  contentOmitted : Bool
  additions : Option ℕ
  deletions : Option ℕ
  repoId : Option Uuid

/-- `GitService::diff_path`. -/
def FileDiff.path (diff : FileDiff) : Path := (diff.newPath.or diff.oldPath).getD ""

/-- `MAX_CUMULATIVE_DIFF_BYTES` (line 122). -/
def MAX_CUMULATIVE_DIFF_BYTES : ℕ := 200 * 1024 * 1024

/-- `DiffStreamArgs`, as far as the patches depend on it, and `compute_line_change_counts`. -/
structure DiffStreamArgs where
  repoId : Uuid
  statsOnly : Bool
  pathPrefix : Option String
  lineChangeCounts : String → String → ℕ × ℕ

/-! ## Diffs as they are sent -/

/-- `omit_diff_contents` (line 720). -/
def omitDiffContents (args : DiffStreamArgs) (diff : FileDiff) : FileDiff :=
  let counts := args.lineChangeCounts (diff.oldContent.getD "") (diff.newContent.getD "")
  let counted := diff.additions.isNone && diff.deletions.isNone &&
    (diff.oldContent.isSome || diff.newContent.isSome)
  { diff with
    additions := if counted then some counts.1 else diff.additions
    deletions := if counted then some counts.2 else diff.deletions
    oldContent := none
    newContent := none
    contentOmitted := true }

/-- `apply_stream_omit_policy` (line 694), with the bytes that were sent. -/
def applyStreamOmitPolicy (args : DiffStreamArgs) (diff : FileDiff) (sentBytes : ℕ) :
    FileDiff × ℕ :=
  if args.statsOnly then (omitDiffContents args diff, sentBytes)
  else
    let size := (diff.oldContent.elim 0 String.utf8ByteSize) +
      diff.newContent.elim 0 String.utf8ByteSize
    if size = 0 then (diff, sentBytes)
    else if MAX_CUMULATIVE_DIFF_BYTES < sentBytes + size then
      (omitDiffContents args diff, sentBytes)
    else (diff, sentBytes + size)

/-- `prefix_path` (line 687). -/
def prefixPath (args : DiffStreamArgs) (path : Path) : Path :=
  match args.pathPrefix with
  | some pre => pre ++ "/" ++ path
  | none => path

/-- The paths and the repository of a diff that is sent (lines 369-375, 791-797). -/
def stamp (args : DiffStreamArgs) (diff : FileDiff) : FileDiff :=
  { diff with
    oldPath := diff.oldPath.map (prefixPath args)
    newPath := diff.newPath.map (prefixPath args)
    repoId := some args.repoId }

/-! ## The manager -/

abbrev PatchOp := MapOp Path FileDiff

/-- Where `run` (line 255) is. -/
inductive StreamPhase where
  | created
  | running
  | ended
  deriving DecidableEq

/-- `DiffStreamManager` (line 196) and `StreamPhase`. `pendingReset` says that `pending_reset_since`
is set. `sent` has the patches, which are all under the key of the repository, and `discovered` what
the last step discovered, if it was a reconcile that succeeded; both are not in the source. -/
structure DiffStreamManager where
  knownPaths : List Path
  sentFileStats : Path → Option Stat
  cumulative : ℕ
  currentBaseCommit : Oid
  currentTargetBranch : String
  lastHeadCommit : Option Oid
  reconcileCycle : ℕ
  baseLookupErrorLogged : Bool
  needsPostResetDiscovery : Bool
  pendingReset : Bool
  phase : StreamPhase
  sent : List (List PatchOp)
  discovered : Option (List Path)

namespace DiffStreamManager

/-- `new` (line 238). -/
def new (baseCommit : Oid) (targetBranch : String) : DiffStreamManager where
  knownPaths := []
  sentFileStats _ := none
  cumulative := 0
  currentBaseCommit := baseCommit
  currentTargetBranch := targetBranch
  lastHeadCommit := none
  reconcileCycle := 0
  baseLookupErrorLogged := false
  needsPostResetDiscovery := false
  pendingReset := false
  phase := .created
  sent := []
  discovered := none

def client (m : DiffStreamManager) : Path → Option FileDiff := applyAll m.sent.flatten fun _ => none

/-- `send_patch` (line 338). -/
def sendPatch (m : DiffStreamManager) (ops : List PatchOp) : DiffStreamManager :=
  if ops = [] then m else { m with sent := m.sent ++ [ops] }

/-- A path that is sent, with what the file system says of its file. -/
def know (m : DiffStreamManager) (path : Path) (stat : Option Stat) : DiffStreamManager :=
  { m with
    knownPaths := m.knownPaths.insert path
    sentFileStats := match stat with
      | some stat => Function.update m.sentFileStats path (some stat)
      | none => m.sentFileStats }

def forget (m : DiffStreamManager) (path : Path) : DiffStreamManager :=
  { m with
    knownPaths := m.knownPaths.filter (· ≠ path)
    sentFileStats := Function.update m.sentFileStats path none }

/-! ## A reset -/

/-- `fetch_diffs` (line 387), once git has answered. -/
def fetchDiffs (args : DiffStreamArgs) (diffs : List FileDiff) (cumulative : ℕ) :
    List FileDiff × ℕ :=
  diffs.foldl (fun fetched diff =>
    let omitted := applyStreamOmitPolicy args diff fetched.2
    (fetched.1 ++ [omitted.1], omitted.2)) ([], cumulative)

/-- One diff of the snapshot (lines 355-378). -/
def addEntry (args : DiffStreamArgs) (stat : Path → Option Stat)
    (snapshot : DiffStreamManager × (Path → Option FileDiff)) (diff : FileDiff) :
    DiffStreamManager × (Path → Option FileDiff) :=
  (snapshot.1.know diff.path (stat diff.path),
    Function.update snapshot.2 diff.path (some (stamp args diff)))

/-- `reset_stream` (line 345); whether it succeeds. -/
def resetStream (args : DiffStreamArgs) (m : DiffStreamManager) (diffs : Option (List FileDiff))
    (stat : Path → Option Stat) : DiffStreamManager × Bool :=
  let m := { m with
    needsPostResetDiscovery := true
    pendingReset := false
    cumulative := 0
    sentFileStats := fun _ => none
    knownPaths := [] }
  match diffs with
  | none => (m, false)
  | some diffs =>
    let fetched := fetchDiffs args diffs m.cumulative
    let snapshot := fetched.1.foldl (addEntry args stat)
      ({ m with cumulative := fetched.2 }, fun _ => none)
    (snapshot.1.sendPatch [.replace snapshot.2], true)

/-! ## Changes of files -/

/-- One diff of `process_file_changes` (lines 774-802). -/
def addDiff (args : DiffStreamArgs) (stat : Path → Option Stat)
    (patched : DiffStreamManager × List PatchOp) (diff : FileDiff) :
    DiffStreamManager × List PatchOp :=
  let omitted := applyStreamOmitPolicy args diff patched.1.cumulative
  ({ patched.1.know diff.path (stat diff.path) with cumulative := omitted.2 },
    patched.2 ++ [.add diff.path (stamp args omitted.1)])

def removeDiff (patched : DiffStreamManager × List PatchOp) (path : Path) :
    DiffStreamManager × List PatchOp :=
  (patched.1.forget path, patched.2 ++ [.remove path])

/-- `process_file_changes` (line 756), once git has answered. -/
def processFileChanges (args : DiffStreamArgs) (m : DiffStreamManager) (changed : List Path)
    (diffs : List FileDiff) (stat : Path → Option Stat) : DiffStreamManager × List PatchOp :=
  let filesWithDiffs := diffs.map FileDiff.path
  changed.foldl
    (fun patched path => if path ∉ filesWithDiffs then removeDiff patched path else patched)
    (diffs.foldl (addDiff args stat) (m, []))

/-- `handle_fs_events` (line 406) for the changed paths; an error is only logged. -/
def handleFsEvents (args : DiffStreamArgs) (m : DiffStreamManager) (changed : List Path)
    (diffs : Option (List FileDiff)) (stat : Path → Option Stat) : DiffStreamManager :=
  if changed = [] then m
  else
    match diffs with
    | none => m
    | some diffs =>
      let patched := processFileChanges args m changed diffs stat
      patched.1.sendPatch patched.2

/-! ## A reconcile -/

/-- The answers that a reconcile gets: the head, the base commit, whether the head is a child of the
last one, the diffs for a reset; the paths of the current diff, the diffs of the files that it asks
for, and what the file system says of a file at first and later. -/
structure ReconcileAnswers where
  head : Option Oid
  base : Option Oid
  isChild : Bool
  reset : Option (List FileDiff)
  fresh : Option (List Path)
  diffs : Option (List FileDiff)
  stat : Path → Option Stat
  statLater : Path → Option Stat

/-- What the head means for the rest of a reconcile. -/
inductive HeadCheck where
  | reset (m : DiffStreamManager)
  | goOn (m : DiffStreamManager) (forceDiscovery : Bool)

/-- The first part of `handle_reconcile` (lines 497-545). -/
def checkHead (m : DiffStreamManager) (answers : ReconcileAnswers) : HeadCheck :=
  if answers.head = m.lastHeadCommit then .goOn m false
  else
    match answers.base with
    | some base =>
      let isCommit := m.lastHeadCommit.isSome && answers.isChild
      let m := { m with baseLookupErrorLogged := false, lastHeadCommit := answers.head }
      if base ≠ m.currentBaseCommit then .reset { m with currentBaseCommit := base }
      else if !isCommit then .reset m
      else .goOn m true
    | none => .goOn { m with baseLookupErrorLogged := true } true

/-- `stat_changed` (lines 551-570). -/
def statChanged (m : DiffStreamManager) (answers : ReconcileAnswers) : List Path :=
  m.knownPaths.filter fun path => answers.stat path ≠ m.sentFileStats path

/-- `run_discovery` (line 573), in the next cycle. -/
def runDiscovery (m : DiffStreamManager) (forceDiscovery : Bool) (answers : ReconcileAnswers) :
    Bool :=
  forceDiscovery || m.needsPostResetDiscovery || !(m.statChanged answers).isEmpty ||
    (m.reconcileCycle + 1) % 256 % 6 = 0

/-- The removal of the known paths that are not fresh (lines 589-607). -/
def removeMissing (m : DiffStreamManager) (fresh : List Path) : DiffStreamManager :=
  let removed := (m.knownPaths.filter (· ∉ fresh)).foldl removeDiff (m, [])
  removed.1.sendPatch removed.2

/-- `paths_to_diff` (lines 609-617). The paths that were removed before are not fresh, so that it
does not matter here whether they are known. -/
def pathsToDiff (m : DiffStreamManager) (answers : ReconcileAnswers) (fresh : List Path) :
    List Path :=
  (m.statChanged answers).filter (· ∈ fresh) ++ fresh.filter (· ∉ m.knownPaths)

/-- `rediff_paths` (line 626); whether it succeeds. -/
def rediffPaths (args : DiffStreamArgs) (m : DiffStreamManager) (paths : List Path)
    (answers : ReconcileAnswers) : DiffStreamManager × Bool :=
  match answers.diffs with
  | none => (m, false)
  | some diffs =>
    let patched := processFileChanges args m paths diffs answers.statLater
    (patched.1.sendPatch patched.2, true)

def found (m : DiffStreamManager) (fresh : List Path) : DiffStreamManager :=
  { m with discovered := some fresh }

/-- The second part of `handle_reconcile` (lines 547-624). -/
def discover (args : DiffStreamArgs) (m : DiffStreamManager) (forceDiscovery : Bool)
    (answers : ReconcileAnswers) : DiffStreamManager × Bool :=
  let next := { m with reconcileCycle := (m.reconcileCycle + 1) % 256 }
  if (m.statChanged answers).isEmpty && !m.runDiscovery forceDiscovery answers then (next, true)
  else
    match answers.fresh with
    | none => (next, false)
    | some fresh =>
      let next := { next with needsPostResetDiscovery := false }.removeMissing fresh
      let paths := m.pathsToDiff answers fresh
      let rediffed := if paths = [] then (next, true) else rediffPaths args next paths answers
      if rediffed.2 then (rediffed.1.found fresh, true) else rediffed

/-- `handle_reconcile` (line 491); whether it succeeds. -/
def handleReconcile (args : DiffStreamArgs) (m : DiffStreamManager) (answers : ReconcileAnswers) :
    DiffStreamManager × Bool :=
  if m.pendingReset then (m, true)
  else
    match checkHead m answers with
    | .reset m => resetStream args m answers.reset answers.stat
    | .goOn m forceDiscovery => discover args m forceDiscovery answers

/-! ## Steps -/

/-- What happens next, with all answers. -/
inductive Action where
  | start (diffs : Option (List FileDiff)) (stat : Path → Option Stat) (head : Option Oid)
    (watches : Bool)
  | filesystem (changed : List Path) (diffs : Option (List FileDiff)) (stat : Path → Option Stat)
  | watcherError
  | gitStateChange (isChild : Bool)
  | checkTarget (targetBranch : Option String) (base : Option Oid) (diffs : Option (List FileDiff))
    (stat : Path → Option Stat)
  | reconcile (answers : ReconcileAnswers)
  | debouncedReset (base : Option Oid) (head : Option Oid) (diffs : Option (List FileDiff))
    (stat : Path → Option Stat)

/-- A step with `?`: an error ends the stream. -/
def orEnd (result : DiffStreamManager × Bool) : DiffStreamManager :=
  if result.2 then result.1 else { result.1 with phase := .ended }

/-- `run` (line 255) up to its loop (line 278). -/
def start (args : DiffStreamArgs) (m : DiffStreamManager) (diffs : Option (List FileDiff))
    (stat : Path → Option Stat) (head : Option Oid) (watches : Bool) : DiffStreamManager :=
  let reset := resetStream args m diffs stat
  orEnd ({ reset.1 with phase := .running, lastHeadCommit := head }, reset.2 && watches)

/-- `handle_git_state_change` (line 448). -/
def handleGitStateChange (m : DiffStreamManager) (isChild : Bool) : DiffStreamManager :=
  if m.lastHeadCommit.isSome && isChild then m else { m with pendingReset := true }

/-- `handle_target_check` (line 470); `targetBranch` is `none` if the database has no answer. -/
def handleTargetCheck (args : DiffStreamArgs) (m : DiffStreamManager) (targetBranch : Option String)
    (base : Option Oid) (diffs : Option (List FileDiff)) (stat : Path → Option Stat) :
    DiffStreamManager × Bool :=
  match targetBranch, base with
  | some targetBranch, some base =>
    if targetBranch ≠ m.currentTargetBranch then
      resetStream args { m with currentTargetBranch := targetBranch, currentBaseCommit := base }
        diffs stat
    else (m, true)
  | _, _ => (m, true)

/-- `DiffEvent::DebouncedReset` (lines 323-332). -/
def debouncedReset (args : DiffStreamArgs) (m : DiffStreamManager) (base head : Option Oid)
    (diffs : Option (List FileDiff)) (stat : Path → Option Stat) : DiffStreamManager × Bool :=
  resetStream args
    { m with currentBaseCommit := base.getD m.currentBaseCommit, lastHeadCommit := head } diffs stat

/-- One event of `run`. -/
def step (args : DiffStreamArgs) (m : DiffStreamManager) (action : Action) :
    Option DiffStreamManager :=
  let m := { m with discovered := none }
  match m.phase, action with
  | .created, .start diffs stat head watches => some (m.start args diffs stat head watches)
  | .running, .filesystem changed diffs stat => some (m.handleFsEvents args changed diffs stat)
  | .running, .watcherError => some { m with phase := .ended }
  | .running, .gitStateChange isChild => some (m.handleGitStateChange isChild)
  | .running, .checkTarget targetBranch base diffs stat =>
    some (orEnd (m.handleTargetCheck args targetBranch base diffs stat))
  | .running, .reconcile answers => some (m.handleReconcile args answers).1
  | .running, .debouncedReset base head diffs stat =>
    if m.pendingReset then some (orEnd (m.debouncedReset args base head diffs stat)) else none
  | _, _ => none

def Created (m : DiffStreamManager) : Prop :=
  ∃ baseCommit targetBranch, m = new baseCommit targetBranch

variable {args : DiffStreamArgs} {m m' : DiffStreamManager}
  {patched : DiffStreamManager × List PatchOp} {diffs : List FileDiff} {stat : Path → Option Stat}
  {ops : List PatchOp} {path : Path} {paths changed fresh : List Path}
  {answers : ReconcileAnswers} {forceDiscovery : Bool} {action : Action}

/-! ## Known paths -/

theorem knownPaths_sendPatch : (m.sendPatch ops).knownPaths = m.knownPaths := by
  unfold sendPatch
  split_ifs <;> rfl

theorem mem_knownPaths_addDiffs : path ∈ (diffs.foldl (addDiff args stat) patched).1.knownPaths ↔
      path ∈ diffs.map FileDiff.path ∨ path ∈ patched.1.knownPaths := by
  induction diffs generalizing patched with
  | nil => simp
  | cons diff diffs ih =>
    rw [foldl_cons, ih, map_cons, mem_cons]
    have hone : path ∈ (addDiff args stat patched diff).1.knownPaths ↔
        path = diff.path ∨ path ∈ patched.1.knownPaths := mem_insert_iff
    tauto

theorem mem_knownPaths_removeDiffs : path ∈ (paths.foldl removeDiff patched).1.knownPaths ↔
      path ∈ patched.1.knownPaths ∧ path ∉ paths := by
  induction paths generalizing patched with
  | nil => simp
  | cons gone paths ih =>
    rw [foldl_cons, ih, mem_cons]
    have hone : path ∈ (removeDiff patched gone).1.knownPaths ↔
        path ∈ patched.1.knownPaths ∧ path ≠ gone := by
      show path ∈ patched.1.knownPaths.filter (· ≠ gone) ↔ _
      simp
    tauto

theorem processFileChanges_eq : processFileChanges args m changed diffs stat =
    (changed.filter (· ∉ diffs.map FileDiff.path)).foldl removeDiff
      (diffs.foldl (addDiff args stat) (m, [])) := by
  rw [foldl_filter]
  simp only [decide_eq_true_eq]
  rfl

theorem mem_knownPaths_processFileChanges :
    path ∈ (processFileChanges args m changed diffs stat).1.knownPaths ↔
      path ∈ diffs.map FileDiff.path ∨ path ∈ m.knownPaths ∧ path ∉ changed := by
  rw [processFileChanges_eq, mem_knownPaths_removeDiffs, mem_knownPaths_addDiffs, mem_filter,
    decide_eq_true_eq]
  tauto

theorem mem_knownPaths_removeMissing :
    path ∈ (m.removeMissing fresh).knownPaths ↔ path ∈ m.knownPaths ∧ path ∈ fresh := by
  rw [removeMissing, knownPaths_sendPatch, mem_knownPaths_removeDiffs, mem_filter,
    decide_eq_true_eq]
  tauto

theorem mem_of_not_mem_pathsToDiff (h : path ∉ m.pathsToDiff answers fresh)
    (hfresh : path ∈ fresh) : path ∈ m.knownPaths := by
  by_contra hknown
  exact h (mem_append_right _ (mem_filter.2 ⟨hfresh, by simpa using hknown⟩))

theorem mem_fresh_of_mem_pathsToDiff (h : path ∈ m.pathsToDiff answers fresh) : path ∈ fresh := by
  obtain h | h := mem_append.1 h
  · simpa using (mem_filter.1 h).2
  · exact (mem_filter.1 h).1

/-! ## The client -/

def Mirrored (m : DiffStreamManager) : Prop := Mirrors m.knownPaths m.client

theorem client_sendPatch : (m.sendPatch ops).client = applyAll ops m.client := by
  unfold sendPatch
  split_ifs with h
  · rw [h, applyAll_nil]
  · show applyAll (m.sent ++ [ops]).flatten _ = _
    rw [flatten_append, applyAll_append]
    simp [client]

/-- A patch that is made of a mirrored state `m`: the client will hold the known paths once it has
it. -/
structure Patching (m : DiffStreamManager) (patched : DiffStreamManager × List PatchOp) : Prop where
  sent : patched.1.sent = m.sent
  phase : patched.1.phase = m.phase
  discovered : patched.1.discovered = m.discovered
  mirrors : Mirrors patched.1.knownPaths (applyAll patched.2 m.client)

theorem Mirrored.patching (h : m.Mirrored) : Patching m (m, []) := ⟨rfl, rfl, rfl, h⟩

section

variable (h : Patching m patched)
include h

theorem Patching.addDiff (diff : FileDiff) : Patching m (addDiff args stat patched diff) where
  sent := h.sent
  phase := h.phase
  discovered := h.discovered
  mirrors := by
    show Mirrors (patched.1.knownPaths.insert diff.path) (applyAll (patched.2 ++ [_]) _)
    rw [applyAll_concat]
    exact h.mirrors.add _ _

theorem Patching.removeDiff (path : Path) : Patching m (removeDiff patched path) where
  sent := h.sent
  phase := h.phase
  discovered := h.discovered
  mirrors := by
    show Mirrors (patched.1.knownPaths.filter (· ≠ path)) (applyAll (patched.2 ++ [_]) _)
    rw [applyAll_concat]
    exact h.mirrors.remove _

theorem Patching.addDiffs :
    Patching m (diffs.foldl (DiffStreamManager.addDiff args stat) patched) := by
  induction diffs generalizing patched with
  | nil => exact h
  | cons diff diffs ih => exact ih (h.addDiff diff)

theorem Patching.removeDiffs (paths : List Path) :
    Patching m (paths.foldl DiffStreamManager.removeDiff patched) := by
  induction paths generalizing patched with
  | nil => exact h
  | cons path paths ih => exact ih (h.removeDiff path)

end

theorem patching_processFileChanges (h : m.Mirrored) :
    Patching m (processFileChanges args m changed diffs stat) := by
  rw [processFileChanges_eq]
  exact h.patching.addDiffs.removeDiffs _

/-- What a patch that is sent keeps. -/
structure Patched (m m' : DiffStreamManager) : Prop where
  mirrored : m'.Mirrored
  phase : m'.phase = m.phase
  discovered : m'.discovered = m.discovered

theorem Patching.sendPatch (h : Patching m patched) :
    Patched m (patched.1.sendPatch patched.2) where
  mirrored := by
    have hclient : patched.1.client = m.client := by
      unfold client
      rw [h.sent]
    unfold Mirrored
    rw [knownPaths_sendPatch, client_sendPatch, hclient]
    exact h.mirrors
  phase := by
    rw [← h.phase]
    unfold DiffStreamManager.sendPatch
    split_ifs <;> rfl
  discovered := by
    rw [← h.discovered]
    unfold DiffStreamManager.sendPatch
    split_ifs <;> rfl

theorem patched_handleFsEvents {diffs : Option (List FileDiff)} (h : m.Mirrored) :
    Patched m (m.handleFsEvents args changed diffs stat) := by
  unfold handleFsEvents
  split_ifs
  · exact ⟨h, rfl, rfl⟩
  · cases diffs with
    | none => exact ⟨h, rfl, rfl⟩
    | some diffs => exact (patching_processFileChanges h).sendPatch

theorem patched_removeMissing (h : m.Mirrored) (fresh : List Path) :
    Patched m (m.removeMissing fresh) :=
  (h.patching.removeDiffs (m.knownPaths.filter (· ∉ fresh))).sendPatch

theorem patched_rediffPaths (h : m.Mirrored) (args : DiffStreamArgs) (paths : List Path)
    (answers : ReconcileAnswers) : Patched m (m.rediffPaths args paths answers).1 := by
  unfold rediffPaths
  cases answers.diffs with
  | none => exact ⟨h, rfl, rfl⟩
  | some diffs => exact (patching_processFileChanges h).sendPatch

/-! ## Resets -/

/-- A snapshot that is made of the state `m`: its entries are at the known paths. -/
structure Snapshot (m : DiffStreamManager)
    (snapshot : DiffStreamManager × (Path → Option FileDiff)) : Prop where
  phase : snapshot.1.phase = m.phase
  discovered : snapshot.1.discovered = m.discovered
  mirrors : Mirrors snapshot.1.knownPaths snapshot.2

theorem Snapshot.addEntries {snapshot : DiffStreamManager × (Path → Option FileDiff)}
    (h : Snapshot m snapshot) : Snapshot m (diffs.foldl (addEntry args stat) snapshot) := by
  induction diffs generalizing snapshot with
  | nil => exact h
  | cons diff diffs ih => exact ih ⟨h.phase, h.discovered, h.mirrors.add _ _⟩

theorem patched_resetStream {diffs : List FileDiff} :
    Patched m (resetStream args m (some diffs) stat).1 := by
  have hsnapshot : Snapshot m (foldl (addEntry args stat) ({ m with
      needsPostResetDiscovery := true
      pendingReset := false
      cumulative := (fetchDiffs args diffs 0).2
      sentFileStats := fun _ => none
      knownPaths := [] }, fun _ => none) (fetchDiffs args diffs 0).1) :=
    Snapshot.addEntries ⟨rfl, rfl, mirrors_nil⟩
  refine ⟨?_, hsnapshot.phase, hsnapshot.discovered⟩
  unfold Mirrored resetStream
  rw [knownPaths_sendPatch, client_sendPatch]
  exact hsnapshot.mirrors

theorem mirrored_resetStream_none (h : m.Mirrored) :
    (resetStream args m none stat).1.Mirrored ↔ m.knownPaths = [] := by
  show Mirrors [] m.client ↔ _
  constructor
  · intro hnone
    rw [eq_nil_iff_forall_not_mem]
    intro path hpath
    exact not_mem_nil ((hnone path).1 ((h path).2 hpath))
  · intro hnil
    rw [← hnil]
    exact h

theorem phase_resetStream {diffs : Option (List FileDiff)} :
    (resetStream args m diffs stat).1.phase = m.phase := by
  cases diffs with
  | none => rfl
  | some diffs => exact patched_resetStream.phase

theorem discovered_resetStream {diffs : Option (List FileDiff)} :
    (resetStream args m diffs stat).1.discovered = m.discovered := by
  cases diffs with
  | none => rfl
  | some diffs => exact patched_resetStream.discovered

/-! ## Reconciles -/

/-- The client holds the known paths, and after a discovery the paths that it found. -/
structure Agrees (m : DiffStreamManager) : Prop where
  mirrored : ∀ path, (m.client path).isSome = true ↔ path ∈ m.knownPaths
  discovered : ∀ fresh, m.discovered = some fresh →
    ∀ path, (m.client path).isSome = true ↔ path ∈ fresh

theorem agrees_of_none (h : m.Mirrored) (hnone : m.discovered = none) : m.Agrees where
  mirrored := h
  discovered fresh hfresh := by simp [hnone] at hfresh

theorem agrees_found (h : m.Mirrored) (fresh : List Path) :
    (m.found fresh).Agrees ↔ ∀ path, path ∈ m.knownPaths ↔ path ∈ fresh := by
  constructor
  · intro hagrees path
    rw [← h path]
    exact hagrees.discovered fresh rfl path
  · intro hknown
    refine ⟨h, fun fresh' hfresh' path => ?_⟩
    obtain rfl : fresh = fresh' := some.inj hfresh'
    rw [← hknown path]
    exact h path

/-- The diffs of the files that a discovery asks git for are theirs, all of them, or also of other
files that are fresh. -/
def AsAsked (m : DiffStreamManager) (answers : ReconcileAnswers) (fresh : List Path) : Prop :=
  m.pathsToDiff answers fresh ≠ [] → ∀ diffs ∈ answers.diffs,
    m.pathsToDiff answers fresh ⊆ diffs.map FileDiff.path ∧ diffs.map FileDiff.path ⊆ fresh
  deriving Decidable

theorem mem_knownPaths_of_pathsToDiff_nil (h : m.pathsToDiff answers fresh = []) :
    path ∈ m.knownPaths ∧ path ∈ fresh ↔ path ∈ fresh := by
  constructor
  · exact And.right
  · intro hfresh
    have hnot : path ∉ m.pathsToDiff answers fresh := by simp [h]
    exact ⟨mem_of_not_mem_pathsToDiff hnot hfresh, hfresh⟩

/-- The known paths after a discovery that asks git for some: they are the fresh ones exactly if
git reports the files it was asked for, and no others that are not fresh. -/
theorem rediffed_iff {reported : List Path} :
    (∀ path, path ∈ reported ∨ (path ∈ m.knownPaths ∧ path ∈ fresh) ∧
        path ∉ m.pathsToDiff answers fresh ↔ path ∈ fresh) ↔
      m.pathsToDiff answers fresh ⊆ reported ∧ reported ⊆ fresh := by
  constructor
  · intro h
    constructor
    · intro path hpath
      have hreported := (h path).2 (mem_fresh_of_mem_pathsToDiff hpath)
      tauto
    · intro path hpath
      exact (h path).1 (.inl hpath)
  · rintro ⟨hasked, hreported⟩ path
    constructor
    · rintro (h | h)
      · exact hreported h
      · exact h.1.2
    · intro hfresh
      by_cases hpath : path ∈ m.pathsToDiff answers fresh
      · exact .inl (hasked hpath)
      · exact .inr ⟨⟨mem_of_not_mem_pathsToDiff hpath hfresh, hfresh⟩, hpath⟩

theorem skips_iff :
    ((m.statChanged answers).isEmpty && !m.runDiscovery forceDiscovery answers) = true ↔
      m.runDiscovery forceDiscovery answers = false := by
  rw [and_eq_true, not_eq_true']
  constructor
  · exact And.right
  · intro h
    refine ⟨?_, h⟩
    unfold runDiscovery at h
    simp only [or_eq_false_iff, not_eq_false'] at h
    exact h.1.2

theorem agrees_rediffed (args : DiffStreamArgs) (answers : ReconcileAnswers)
    {next : DiffStreamManager} (h : next.Mirrored)
    (hnone : next.discovered = none)
    (hknown : ∀ path, path ∈ next.knownPaths ↔ path ∈ m.knownPaths ∧ path ∈ fresh) :
    let rediffed := if m.pathsToDiff answers fresh = [] then (next, true)
      else rediffPaths args next (m.pathsToDiff answers fresh) answers
    (if rediffed.2 then (rediffed.1.found fresh, true) else rediffed).1.Agrees ↔
      m.AsAsked answers fresh := by
  intro rediffed
  unfold rediffed AsAsked
  by_cases hpaths : m.pathsToDiff answers fresh = []
  · have hagrees : (next.found fresh).Agrees := (agrees_found h fresh).2 fun path => by
      rw [hknown, mem_knownPaths_of_pathsToDiff_nil hpaths]
    simpa [hpaths] using hagrees
  · have hrediff := (patched_rediffPaths h args (m.pathsToDiff answers fresh) answers).mirrored
    unfold rediffPaths at hrediff ⊢
    cases hdiffs : answers.diffs with
    | none => simp [hpaths, agrees_of_none h hnone]
    | some diffs =>
      rw [hdiffs] at hrediff
      have hfound := (agrees_found hrediff fresh).trans <| forall_congr' fun path => by
        show (path ∈ (DiffStreamManager.sendPatch _ _).knownPaths ↔ path ∈ fresh) ↔ _
        rw [knownPaths_sendPatch, mem_knownPaths_processFileChanges, hknown]
      rw [rediffed_iff] at hfound
      simpa only [hpaths, if_false, if_true, ne_eq, not_false_eq_true, forall_const,
        mem_def, some.injEq, forall_eq'] using hfound

theorem agrees_discover (h : m.Mirrored) (hnone : m.discovered = none) :
    (m.discover args forceDiscovery answers).1.Agrees ↔
      (m.runDiscovery forceDiscovery answers = true →
        ∀ fresh ∈ answers.fresh, m.AsAsked answers fresh) := by
  have hnext : Agrees { m with reconcileCycle := (m.reconcileCycle + 1) % 256 } :=
    agrees_of_none h hnone
  unfold discover
  split_ifs with hskip
  · rw [skips_iff] at hskip
    simp [hskip, hnext]
  · rw [skips_iff, not_eq_false] at hskip
    cases hfresh : answers.fresh with
    | none => simp [hnext]
    | some fresh =>
      have hremoved := patched_removeMissing (m := { m with
        reconcileCycle := (m.reconcileCycle + 1) % 256
        needsPostResetDiscovery := false }) h fresh
      have hrediffed := agrees_rediffed (m := m) args answers hremoved.mirrored
        (hremoved.discovered.trans hnone) fun _ => mem_knownPaths_removeMissing
      simpa [hskip] using hrediffed

theorem phase_discover (h : m.Mirrored) :
    (m.discover args forceDiscovery answers).1.phase = m.phase := by
  unfold discover
  split_ifs
  · rfl
  · cases answers.fresh with
    | none => rfl
    | some fresh =>
      have hremoved := patched_removeMissing (m := { m with
        reconcileCycle := (m.reconcileCycle + 1) % 256
        needsPostResetDiscovery := false }) h fresh
      have hrediff := patched_rediffPaths hremoved.mirrored args (m.pathsToDiff answers fresh)
        answers
      dsimp only
      by_cases hpaths : m.pathsToDiff answers fresh = []
      · rw [if_pos hpaths, if_pos rfl]
        exact hremoved.phase
      · rw [if_neg hpaths]
        split_ifs
        all_goals exact hrediff.phase.trans hremoved.phase

def HeadCheck.state : HeadCheck → DiffStreamManager
  | .reset m => m
  | .goOn m _ => m

theorem patched_checkHead (h : m.Mirrored) (answers : ReconcileAnswers) :
    Patched m (m.checkHead answers).state := by
  unfold checkHead
  split_ifs
  · exact ⟨h, rfl, rfl⟩
  · cases answers.base with
    | none => exact ⟨h, rfl, rfl⟩
    | some base =>
      dsimp only
      split_ifs <;> exact ⟨h, rfl, rfl⟩

/-- The rest of a reconcile keeps the client together with the known paths and with what it
discovers: git answers a reset, or no path is known; and a discovery gets the diffs that it asks
for. -/
def HeadCheck.Faithful (answers : ReconcileAnswers) : HeadCheck → Prop
  | .reset m => answers.reset = none → m.knownPaths = []
  | .goOn m forceDiscovery =>
    m.runDiscovery forceDiscovery answers = true → ∀ fresh ∈ answers.fresh, m.AsAsked answers fresh

def Faithful (m : DiffStreamManager) : Action → Prop
  | .reconcile answers => m.pendingReset = false → (m.checkHead answers).Faithful answers
  | _ => True

instance : (check : HeadCheck) → Decidable (check.Faithful answers)
  | .reset m => inferInstanceAs (Decidable (_ → m.knownPaths = []))
  | .goOn m _ => inferInstanceAs (Decidable (_ → ∀ fresh ∈ answers.fresh, m.AsAsked answers fresh))

instance (action : Action) : Decidable (m.Faithful action) := by
  cases action <;> dsimp only [Faithful] <;> infer_instance

theorem agrees_handleReconcile (args : DiffStreamArgs) (h : m.Mirrored)
    (hnone : m.discovered = none) :
    (m.handleReconcile args answers).1.Agrees ↔ m.Faithful (.reconcile answers) := by
  have hcheck := patched_checkHead h answers
  unfold handleReconcile
  show _ ↔ (_ → HeadCheck.Faithful answers _)
  split_ifs with hpending
  · simpa [hpending] using agrees_of_none h hnone
  · rw [not_eq_true] at hpending
    simp only [hpending, forall_const]
    cases hhead : m.checkHead answers with rw [hhead] at hcheck
    | goOn next forceDiscovery =>
      exact agrees_discover hcheck.mirrored (hcheck.discovered.trans hnone)
    | reset next =>
      have hreset : (resetStream args next answers.reset answers.stat).1.discovered = none :=
        discovered_resetStream.trans (hcheck.discovered.trans hnone)
      have hmirrored : (resetStream args next answers.reset answers.stat).1.Mirrored ↔
          (answers.reset = none → next.knownPaths = []) := by
        cases answers.reset with
        | none =>
          rw [mirrored_resetStream_none (m := next) hcheck.mirrored]
          simp
        | some diffs => simpa using patched_resetStream.mirrored
      exact ⟨fun hagrees => hmirrored.1 hagrees.mirrored,
        fun hknown => agrees_of_none (hmirrored.2 hknown) hreset⟩

theorem phase_handleReconcile (h : m.Mirrored) :
    (m.handleReconcile args answers).1.phase = m.phase := by
  have hcheck := patched_checkHead h answers
  unfold handleReconcile
  split_ifs
  · rfl
  · cases hhead : m.checkHead answers with rw [hhead] at hcheck
    | goOn next forceDiscovery => exact (phase_discover hcheck.mirrored).trans hcheck.phase
    | reset next => exact phase_resetStream.trans hcheck.phase

/-! ## Runs -/

def EndedOrAgrees (m : DiffStreamManager) : Prop := m.phase = .ended ∨ m.Agrees

theorem faithful_clear : Faithful { m with discovered := none } action ↔ m.Faithful action := by
  cases action with
  | reconcile answers =>
    unfold Faithful checkHead
    by_cases hhead : answers.head = m.lastHeadCommit
    · simp only [hhead, if_true]
      rfl
    · simp only [hhead, if_false]
      cases answers.base with
      | none => rfl
      | some base =>
        dsimp only
        split_ifs <;> rfl
  | _ => rfl

theorem Patched.agrees (h : Patched m m') (hnone : m.discovered = none) : m'.Agrees :=
  agrees_of_none h.mirrored (h.discovered.trans hnone)

theorem endedOrAgrees_reset {diffs : Option (List FileDiff)} (hnone : m.discovered = none) :
    (orEnd (resetStream args m diffs stat)).EndedOrAgrees := by
  cases diffs with
  | none => exact .inl rfl
  | some diffs => exact .inr (patched_resetStream.agrees hnone)

theorem endedOrAgrees_start {diffs : Option (List FileDiff)} {head : Option Oid} {watches : Bool}
    (hnone : m.discovered = none) : (m.start args diffs stat head watches).EndedOrAgrees := by
  cases diffs with
  | none => exact .inl rfl
  | some diffs =>
    cases watches with
    | false => exact .inl rfl
    | true =>
      exact .inr (agrees_of_none patched_resetStream.mirrored
        (patched_resetStream.discovered.trans hnone))

theorem endedOrAgrees_handleTargetCheck {targetBranch : Option String} {base : Option Oid}
    {diffs : Option (List FileDiff)} (h : m.Mirrored) (hnone : m.discovered = none) :
    (orEnd (m.handleTargetCheck args targetBranch base diffs stat)).EndedOrAgrees := by
  have hsame : (orEnd (m, true)).EndedOrAgrees := .inr (agrees_of_none h hnone)
  unfold handleTargetCheck
  split
  · split_ifs
    · exact endedOrAgrees_reset hnone
    · exact hsame
  · exact hsame

theorem endedOrAgrees_step (h : m.Mirrored)
    (hstep : step args m action = some m') : m'.EndedOrAgrees ↔ m.Faithful action := by
  rw [← faithful_clear]
  have hclear : Mirrored { m with discovered := none } := h
  unfold step at hstep
  generalize hgen : { m with discovered := none } = next at hstep hclear ⊢
  have hnone : next.discovered = none := by rw [← hgen]
  cases hphase : next.phase with
  | ended => cases action <;> simp [hphase] at hstep
  | created =>
    cases action <;> simp only [hphase, reduceCtorEq, some.injEq] at hstep
    subst hstep
    exact iff_of_true (endedOrAgrees_start hnone) trivial
  | running =>
    cases action with simp only [hphase, some.injEq] at hstep
    | start => simp at hstep
    | reconcile answers =>
      subst hstep
      rw [← agrees_handleReconcile args hclear hnone]
      unfold EndedOrAgrees
      rw [phase_handleReconcile hclear, hphase]
      simp
    | filesystem changed diffs stat =>
      subst hstep
      exact iff_of_true (.inr ((patched_handleFsEvents hclear).agrees hnone)) trivial
    | watcherError =>
      subst hstep
      exact iff_of_true (.inl rfl) trivial
    | gitStateChange isChild =>
      subst hstep
      refine iff_of_true (.inr ?_) trivial
      unfold handleGitStateChange
      split_ifs <;> exact agrees_of_none hclear hnone
    | checkTarget targetBranch base diffs stat =>
      subst hstep
      exact iff_of_true (endedOrAgrees_handleTargetCheck hclear hnone) trivial
    | debouncedReset base head diffs stat =>
      simp only [ite_none_right_eq_some, some.injEq] at hstep
      obtain ⟨-, rfl⟩ := hstep
      exact iff_of_true (endedOrAgrees_reset hnone) trivial

theorem created_agrees (h : Created m) : m.Agrees := by
  obtain ⟨baseCommit, targetBranch, rfl⟩ := h
  exact agrees_of_none mirrors_nil rfl

theorem not_ended_of_step (hstep : step args m action = some m') : m.phase ≠ .ended := by
  intro hended
  unfold step at hstep
  cases action <;> simp [hended] at hstep

theorem endedOrAgrees_of_reachable (h : Reachable (step args) Faithful Created m) :
    m.EndedOrAgrees := by
  refine h.invariant (fun m hm => .inr (created_agrees hm)) ?_
  intro m action m' hm hfaithful hstep
  obtain hended | hagrees := hm
  · exact absurd hended (not_ended_of_step hstep)
  · exact (endedOrAgrees_step hagrees.mirrored hstep).2 hfaithful

/-- In every run whose steps are faithful, the client agrees after each step, as long as the stream
has not ended; and the next step keeps it so exactly if it is faithful. -/
theorem stream_agrees (args : DiffStreamArgs) (m : DiffStreamManager)
    (h : Reachable (step args) Faithful Created m) : m.EndedOrAgrees ∧
      ∀ action m', step args m action = some m' → (m'.EndedOrAgrees ↔ m.Faithful action) := by
  have hm := endedOrAgrees_of_reachable h
  refine ⟨hm, fun action m' hstep => ?_⟩
  obtain hended | hagrees := hm
  · exact absurd hended (not_ended_of_step hstep)
  · exact endedOrAgrees_step hagrees.mirrored hstep

def exampleArgs : DiffStreamArgs where
  repoId := 7
  statsOnly := false
  pathPrefix := none
  lineChangeCounts _ _ := (0, 0)

def exampleDiff (path : Path) : FileDiff where
  oldPath := none
  newPath := some path
  oldContent := none
  newContent := some "text"
  contentOmitted := false
  additions := some 1
  deletions := some 0
  repoId := none

/-- The worktree has only the file `b.txt`. -/
def exampleAnswers (isChild : Bool) (head : Oid) (reset : Option (List FileDiff)) :
    ReconcileAnswers where
  head := some head
  base := some 0
  isChild := isChild
  reset := reset
  fresh := some ["b.txt"]
  diffs := some [exampleDiff "b.txt"]
  stat _ := none
  statLater _ := none

/-- The stream starts when the worktree has only the file `a.txt`. -/
def exampleStart : Action := .start (some [exampleDiff "a.txt"]) (fun _ => none) (some 1) true

/-- A commit replaces the file by `b.txt`. -/
def exampleCommit : List Action := [exampleStart, .reconcile (exampleAnswers true 2 none)]

theorem agrees_after_commit : ∃ m,
    exec (step exampleArgs) Faithful (new 0 "main") exampleCommit = some m ∧
      m.EndedOrAgrees ∧ m.phase = .running ∧ m.discovered = some ["b.txt"] := by
  obtain ⟨m, hm⟩ : ∃ m, exec (step exampleArgs) Faithful (new 0 "main") exampleCommit = some m :=
    isSome_iff_exists.1 (by decide +kernel)
  have hphase : (exec (step exampleArgs) Faithful (new 0 "main") exampleCommit).map
      (fun m => (m.phase, m.discovered)) = some (.running, some ["b.txt"]) := by decide +kernel
  rw [hm, map_some, some.injEq, Prod.mk.injEq] at hphase
  exact ⟨m, hm, (stream_agrees exampleArgs m
    ((Reachable.start ⟨0, "main", rfl⟩).runs (runs_of_exec hm))).1, hphase⟩

/-- The head moves to a commit that is not a child of the last one, which replaces the file too, and
git fails at the reset. Two reconciles follow, the second one after a commit. -/
def exampleCheckout : List Action :=
  [exampleStart, .reconcile (exampleAnswers false 2 none), .reconcile (exampleAnswers true 2 none),
    .reconcile (exampleAnswers true 3 none)]

/-- The file `a.txt` is gone, but neither reconcile removes it. -/
theorem stale_file : ∃ m, exec (step exampleArgs) anyStep (new 0 "main") exampleCheckout = some m ∧
      m.discovered = some ["b.txt"] ∧ m.knownPaths = ["b.txt"] ∧ (m.client "a.txt").isSome ∧
      ¬ m.EndedOrAgrees := by
  obtain ⟨m, hm⟩ : ∃ m, exec (step exampleArgs) anyStep (new 0 "main") exampleCheckout = some m :=
    isSome_iff_exists.1 (by decide +kernel)
  have hfields : (exec (step exampleArgs) anyStep (new 0 "main") exampleCheckout).map
      (fun m => (m.phase, m.discovered, m.knownPaths, (m.client "a.txt").isSome)) =
      some (.running, some ["b.txt"], ["b.txt"], true) := by decide +kernel
  rw [hm, map_some, some.injEq] at hfields
  obtain ⟨hphase, hdiscovered, hknown, hclient⟩ : m.phase = .running ∧
      m.discovered = some ["b.txt"] ∧ m.knownPaths = ["b.txt"] ∧
      (m.client "a.txt").isSome = true := by simpa using hfields
  refine ⟨m, hm, hdiscovered, hknown, hclient, ?_⟩
  rintro (hended | hagrees)
  · simp [hphase] at hended
  · have hmem := (hagrees.mirrored "a.txt").1 hclient
    simp [hknown] at hmem

end DiffStreamManager

end VibeKanban.Diff
