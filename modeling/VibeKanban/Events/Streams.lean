import VibeKanban.Events.Records
import VibeKanban.Lib.Replica

/-!
# Patches and stream filters (`services/events/patches.rs`, `services/events/streams.rs`)

A stream starts from a query and lets each later patch through, drops it or turns it into another
one. It should show the rows that its query selects; a client keeps its copy by key, takes a
replacement as an upsert and ignores the removal of what it does not hold.

* `effect_hookPatch`, `effect_removePatch`: what a patch does to a client's copy.
* `snapshot_eq`: a snapshot is what the query selects.
-/

namespace VibeKanban.Events

open Lib Database Option RecordTypes

/-! ## Patches -/

/-- The operations that the update hook reports; a deletion spawns no work. -/
inductive Operation where
  | insert
  | update
  deriving DecidableEq

inductive Path where
  | workspaces (id : Uuid)
  | executionProcesses (id : Uuid)
  | scratch
  | browserSessions (id : Uuid)
  | entries (n : ℕ)

inductive Value where
  | content (content : Content)
  /-- `{"id": …, "payload": {"type": …}, "deleted": true}`. -/
  | deletedScratch (id : Uuid) (scratchType : ScratchType)
  /-- `EventPatchInner` of a record that was not found. -/
  | event (dbOp : Operation) (table : HookTables) (rowid : ℤ)

inductive Patch where
  | add (path : Path) (value : Value)
  | replace (path : Path) (value : Value)
  | remove (path : Path)

def Patch.path : Patch → Path
  | add path _ | replace path _ | remove path => path

def Patch.value? : Patch → Option Value
  | add _ value | replace _ value => some value
  | remove _ => none

/-! ### `execution_process_patch` -/

def ExecutionProcessPatch.add (p : ExecutionProcess) : Patch :=
  .add (.executionProcesses p.id) (.content (.executionProcess p))

def ExecutionProcessPatch.replace (p : ExecutionProcess) : Patch :=
  .replace (.executionProcesses p.id) (.content (.executionProcess p))

def ExecutionProcessPatch.remove (id : Uuid) : Patch := .remove (.executionProcesses id)

/-! ### `workspace_patch` -/

def WorkspacePatch.add (w : WorkspaceWithStatus) : Patch :=
  .add (.workspaces w.workspace.id) (.content (.workspace w))

def WorkspacePatch.replace (w : WorkspaceWithStatus) : Patch :=
  .replace (.workspaces w.workspace.id) (.content (.workspace w))

def WorkspacePatch.remove (id : Uuid) : Patch := .remove (.workspaces id)

/-! ### `scratch_patch` -/

def ScratchPatch.add (s : Scratch) : Patch := .add .scratch (.content (.scratch s))

def ScratchPatch.replace (s : Scratch) : Patch := .replace .scratch (.content (.scratch s))

/-- A replacement by a marker, since all scratches share one path. -/
def ScratchPatch.remove (id : Uuid) (scratchType : ScratchType) : Patch :=
  .replace .scratch (.deletedScratch id scratchType)

/-! ### `browser_session_patch` -/

def BrowserSessionPatch.add (b : BrowserSession) : Patch :=
  .add (.browserSessions b.id) (.content (.browserSession b))

def BrowserSessionPatch.replace (b : BrowserSession) : Patch :=
  .replace (.browserSessions b.id) (.content (.browserSession b))

def BrowserSessionPatch.remove (id : Uuid) : Patch := .remove (.browserSessions id)

/-- The patch of a row that was read (`events.rs`, lines 217-288). -/
def hookPatch (operation : Operation) : Content → Patch
  | .workspace w =>
    match operation with
    | .insert => WorkspacePatch.add w
    | .update => WorkspacePatch.replace w
  | .executionProcess p =>
    match operation with
    | .insert => ExecutionProcessPatch.add p
    | .update => ExecutionProcessPatch.replace p
  | .scratch s =>
    match operation with
    | .insert => ScratchPatch.add s
    | .update => ScratchPatch.replace s
  | .browserSession b =>
    match operation with
    | .insert => BrowserSessionPatch.add b
    | .update => BrowserSessionPatch.replace b

/-- The patch of the preupdate hook (lines 83-126). -/
def removePatch : Key → Patch
  | .workspaces id => WorkspacePatch.remove id
  | .executionProcesses id => ExecutionProcessPatch.remove id
  | .scratch id scratchType => ScratchPatch.remove id scratchType
  | .browserSessions id => BrowserSessionPatch.remove id

/-- The fallback for a process or a scratch that was not found (lines 318-341). -/
def entryPatch (n : ℕ) (operation : Operation) (table : HookTables) (rowid : ℤ) : Patch :=
  .add (.entries n) (.event operation table rowid)

/-! ## Streams -/

inductive Stream where
  /-- `stream_execution_processes_for_session_raw` (line 43). -/
  | executionProcesses (sessionId : Uuid) (showSoftDeleted : Bool)
  /-- `stream_scratch_raw` (line 172). -/
  | scratch (id : Uuid) (scratchType : ScratchType)
  /-- `stream_workspaces_raw` (line 257). -/
  | workspaces (archived : Option Bool) (limit : Option ℕ)
  /-- `stream_browser_sessions_for_workspace_raw` (line 353). -/
  | browserSessions (workspaceId : Uuid)

/-- The filter of the process stream (lines 88-160). The older format, at other paths, is only
    written for records that were not found and without their session. -/
def filterProcesses (sessionId : Uuid) (showSoftDeleted : Bool) (patch : Patch) : Option Patch :=
  match patch.path with
  | .executionProcesses _ =>
    match patch with
    | .add _ value | .replace _ value =>
      match value with
      | .content (.executionProcess p) =>
        if p.sessionId = sessionId then
          if !showSoftDeleted && p.dropped then some (ExecutionProcessPatch.remove p.id)
          else some patch
        else none
      | _ => none
    | .remove _ => some patch
  | _ => none

/-- The filter of the scratch stream (lines 213-247). -/
def filterScratch (id : Uuid) (scratchType : ScratchType) (patch : Patch) : Option Patch :=
  match patch.path with
  | .scratch =>
    match patch.value? with
    | some (.content (.scratch s)) =>
      if s.id = id ∧ s.scratchType = scratchType then some patch else none
    | some (.deletedScratch id' scratchType') =>
      if id' = id ∧ scratchType' = scratchType then some patch else none
    | _ => none
  | _ => none

/-- `v.get("archived")`. -/
def Value.archived? : Value → Option Bool
  | content (.workspace w) => some w.workspace.archived
  | _ => none

/-- The filter of the workspace stream (lines 284-345). -/
def filterWorkspaces (archived : Option Bool) (patch : Patch) : Option Patch :=
  match patch.path with
  | .workspaces _ =>
    match archived with
    | none => some patch
    | some archivedFilter =>
      match patch.value? with
      | none => some patch
      | some value =>
        match value.archived? with
        | none => some patch
        | some wsArchived =>
          if wsArchived = archivedFilter then
            -- a replacement may bring in a workspace that the filter did not let in before
            some (.add patch.path value)
          else some (.remove patch.path)
  | _ => none

/-- The filter of the stream of browser sessions (lines 385-418). -/
def filterBrowserSessions (workspaceId : Uuid) (patch : Patch) : Option Patch :=
  match patch.path with
  | .browserSessions _ =>
    match patch.value? with
    | none => some patch
    | some (.content (.browserSession b)) =>
      if b.workspaceId = workspaceId then some patch else none
    | some _ => none
  | _ => none

namespace Stream

def filter : Stream → Patch → Option Patch
  | executionProcesses sessionId showSoftDeleted => filterProcesses sessionId showSoftDeleted
  | scratch id scratchType => filterScratch id scratchType
  | workspaces archived _ => filterWorkspaces archived
  | browserSessions workspaceId => filterBrowserSessions workspaceId

/-- The rows of the first message. -/
def contents (d : Database) : Stream → List Content
  | executionProcesses sessionId showSoftDeleted =>
    (d.findBySessionId sessionId showSoftDeleted).map .executionProcess
  | scratch id scratchType => (d.findScratch id scratchType).toList.map .scratch
  | workspaces archived limit => (d.findAllWithStatus archived limit).map .workspace
  | browserSessions workspaceId => (d.findByWorkspace workspaceId).map .browserSession

def snapshot (st : Stream) (d : Database) : Key → Option Content := lookup (st.contents d)

/-- The condition of the query. -/
def selects : Stream → Content → Bool
  | executionProcesses sessionId showSoftDeleted, .executionProcess p =>
    p.sessionId = sessionId && (showSoftDeleted || !p.dropped)
  | scratch id scratchType, .scratch s => s.id = id && s.scratchType = scratchType
  | workspaces archived _, .workspace w => archived.all (· == w.workspace.archived)
  | browserSessions workspaceId, .browserSession b => b.workspaceId = workspaceId
  | _, _ => false

/-- What a client of the stream should hold. -/
def rows (st : Stream) (d : Database) (k : Key) : Option Content := (d.content k).filter st.selects

/-- The contents that the filter answers with a patch, if only with a removal. -/
def scope : Stream → Content → Bool
  | executionProcesses sessionId _, .executionProcess p => p.sessionId = sessionId
  | scratch id scratchType, .scratch s => s.id = id && s.scratchType = scratchType
  | workspaces _ _, .workspace _ => true
  | browserSessions workspaceId, .browserSession b => b.workspaceId = workspaceId
  | _, _ => false

/-- The keys whose removals the filter lets through. -/
def carries : Stream → Key → Bool
  | executionProcesses _ _, .executionProcesses _ => true
  | scratch id scratchType, .scratch id' scratchType' => id' = id && scratchType' = scratchType
  | workspaces _ _, .workspaces _ => true
  | browserSessions _, .browserSessions _ => true
  | _, _ => false

end Stream

/-! ## The client's side -/

def Patch.write : Patch → Option (Key × Option Content)
  | add path value | replace path value =>
    match path, value with
    | .workspaces id, .content c => some (.workspaces id, some c)
    | .executionProcesses id, .content c => some (.executionProcesses id, some c)
    | .browserSessions id, .content c => some (.browserSessions id, some c)
    | .scratch, .content (.scratch s) => some (.scratch s.id s.scratchType, some (.scratch s))
    | .scratch, .deletedScratch id scratchType => some (.scratch id scratchType, none)
    | _, _ => none
  | remove path =>
    match path with
    | .workspaces id => some (.workspaces id, none)
    | .executionProcesses id => some (.executionProcesses id, none)
    | .browserSessions id => some (.browserSessions id, none)
    | _ => none

/-- What a patch does to the copy of a client. -/
def Stream.effect (st : Stream) (patch : Patch) (k : Key) : Option (Option Content) :=
  match (st.filter patch).bind Patch.write with
  | some (k', c) => if k' = k then some c else none
  | none => none

/-! ## What patches do -/

namespace Stream

variable {st : Stream} {c c' : Content} {k k' : Key} {o : Operation} {d : Database}
  {patch : Patch} {archived : Option Bool}

theorem write_hookPatch : (hookPatch o c).write = some (c.key, some c) := by
  cases c <;> cases o <;> rfl

theorem write_removePatch : (removePatch k).write = some (k, none) := by cases k <;> rfl

theorem effect_of_write {p : Patch} {w : Option Content} (hf : st.filter patch = some p)
    (hw : p.write = some (k', w)) : st.effect patch k = if k' = k then some w else none := by
  simp only [effect, hf, bind_some, hw]

theorem effect_of_dropped (hf : st.filter patch = none) : st.effect patch k = none := by
  simp only [effect, hf, bind_none]

theorem filter_hookPatch_of_not_scope (h : st.scope c = false) :
    st.filter (hookPatch o c) = none := by
  cases st with
  | executionProcesses sessionId showSoftDeleted =>
    cases c with
    | executionProcess p =>
      have hne : p.sessionId ≠ sessionId := of_decide_eq_false h
      cases o <;> exact if_neg hne
    | _ => cases o <;> rfl
  | scratch id scratchType =>
    cases c with
    | scratch s =>
      have hne : ¬(s.id = id ∧ s.scratchType = scratchType) := by simpa [scope] using h
      cases o <;> exact if_neg hne
    | _ => cases o <;> rfl
  | workspaces archived limit =>
    cases c with
    | workspace w => cases h
    | _ => cases o <;> rfl
  | browserSessions workspaceId =>
    cases c with
    | browserSession b =>
      have hne : b.workspaceId ≠ workspaceId := of_decide_eq_false h
      cases o <;> exact if_neg hne
    | _ => cases o <;> rfl

theorem filter_hookPatch_of_scope (h : st.scope c = true) :
    ∃ p, st.filter (hookPatch o c) = some p ∧
      p.write = some (c.key, if st.selects c then some c else none) := by
  cases st with
  | executionProcesses sessionId showSoftDeleted =>
    cases c with
    | executionProcess p =>
      have heq : p.sessionId = sessionId := of_decide_eq_true h
      have hfilter : filterProcesses sessionId showSoftDeleted (hookPatch o (.executionProcess p)) =
          if !showSoftDeleted && p.dropped then some (ExecutionProcessPatch.remove p.id)
          else some (hookPatch o (.executionProcess p)) := by
        cases o <;> exact if_pos heq
      refine ⟨_, hfilter.trans (apply_ite some _ _ _).symm, ?_⟩
      have hsel : (executionProcesses sessionId showSoftDeleted).selects (.executionProcess p) =
          !(!showSoftDeleted && p.dropped) := by
        simp [selects, heq]
      rw [hsel]
      cases !showSoftDeleted && p.dropped with
      | true => rfl
      | false =>
        show (hookPatch o (.executionProcess p)).write = some (_, some _)
        exact write_hookPatch
    | _ => cases h
  | scratch id scratchType =>
    cases c with
    | scratch s =>
      have heq : s.id = id ∧ s.scratchType = scratchType := by simpa [scope] using h
      refine ⟨hookPatch o (.scratch s), ?_, ?_⟩
      · cases o <;> exact if_pos heq
      · rw [show (selects (.scratch id scratchType) (.scratch s)) = true from h]
        exact write_hookPatch
    | _ => cases h
  | workspaces archived limit =>
    cases c with
    | workspace w =>
      cases archived with
      | none => exact ⟨hookPatch o (.workspace w), by cases o <;> rfl, write_hookPatch⟩
      | some a =>
        have hfilter : filterWorkspaces (some a) (hookPatch o (.workspace w)) =
            if w.workspace.archived = a then some (WorkspacePatch.add w)
            else some (WorkspacePatch.remove w.workspace.id) := by
          cases o <;> rfl
        refine ⟨_, hfilter.trans (apply_ite some _ _ _).symm, ?_⟩
        by_cases ha : w.workspace.archived = a
        · simp only [selects, ha, all_some, beq_self_eq_true]
          rfl
        · have hsel : (a == w.workspace.archived) = false := beq_eq_false_iff_ne.2 (Ne.symm ha)
          simp only [selects, ha, hsel, all_some]
          rfl
    | _ => cases h
  | browserSessions workspaceId =>
    cases c with
    | browserSession b =>
      refine ⟨hookPatch o (.browserSession b), ?_, ?_⟩
      · cases o <;> exact if_pos (of_decide_eq_true h)
      · rw [show (selects (.browserSessions workspaceId) (.browserSession b)) = true from h]
        exact write_hookPatch
    | _ => cases h

/-- A row that was read: a client in whose scope it is holds it from now on, or does not hold it
    when the query leaves it out. -/
theorem effect_hookPatch : st.effect (hookPatch o c) k =
    if c.key = k ∧ st.scope c = true then some (if st.selects c then some c else none)
    else none := by
  cases h : st.scope c with
  | true =>
    obtain ⟨p, hf, hw⟩ := filter_hookPatch_of_scope (o := o) h
    rw [effect_of_write hf hw]
    simp
  | false =>
    rw [effect_of_dropped (filter_hookPatch_of_not_scope h)]
    simp

/-- A deletion: a client of the stream of the row does not hold it from now on. -/
theorem effect_removePatch : st.effect (removePatch k') k =
    if k' = k ∧ st.carries k' = true then some none else none := by
  have hcarried : st.filter (removePatch k') =
      if st.carries k' then some (removePatch k') else none := by
    cases st with
    | scratch id scratchType =>
      cases k' with
      | scratch id' scratchType' =>
        show (if id' = id ∧ scratchType' = scratchType then _ else none) = _
        simp [carries]
      | _ => rfl
    | workspaces archived limit => cases k' <;> cases archived <;> rfl
    | _ => cases k' <;> rfl
  cases h : st.carries k' with
  | true =>
    rw [effect_of_write (hcarried.trans (if_pos h)) write_removePatch]
    simp
  | false =>
    rw [effect_of_dropped (hcarried.trans (if_neg (by simp [h])))]
    simp

theorem effect_entry {n : ℕ} {table : HookTables} {rowid : ℤ} :
    st.effect (entryPatch n o table rowid) k = none := by
  cases st <;> rfl

theorem scope_of_selects (h : st.selects c = true) : st.scope c = true := by
  cases st with
  | executionProcesses sessionId showSoftDeleted =>
    cases c with
    | executionProcess p => exact (Bool.and_eq_true_iff.1 h).1
    | _ => cases h
  | workspaces archived limit =>
    cases c with
    | workspace w => rfl
    | _ => cases h
  | scratch id scratchType =>
    cases c with
    | scratch s => exact h
    | _ => cases h
  | browserSessions workspaceId =>
    cases c with
    | browserSession b => exact h
    | _ => cases h

theorem carries_of_scope (h : st.scope c = true) : st.carries c.key = true := by
  cases st <;> cases c <;> first | rfl | exact h

theorem scope_congr (hk : c.key = c'.key) (ho : c.record.owner = c'.record.owner) :
    st.scope c = st.scope c' := by
  cases c <;> cases c' <;> first | cases hk | skip
  · cases st <;> rfl
  · cases st <;> simp_all [scope, Content.record, owner]
  · cases st <;> simp_all [scope, Content.key, Content.record, key]
  · cases st <;> simp_all [scope, Content.record, owner]

/-! ## Snapshots -/

/-- The limit of the query does not cut anything off. -/
def Unlimited (d : Database) : Stream → Prop
  | workspaces archived (some limit) => (d.findAllWithStatus archived none).length ≤ limit
  | _ => True

instance (d : Database) : Decidable (st.Unlimited d) := by
  unfold Unlimited
  split <;> infer_instance

theorem mem_executionProcesses {p : ExecutionProcess} :
    p ∈ d.executionProcesses ↔ ∃ row ∈ d.rows, row.record = .executionProcess p := by
  rw [Database.executionProcesses, List.mem_filterMap]
  refine exists_congr fun row => and_congr_right fun _ => ?_
  cases row.record <;> simp [executionProcess?]

theorem mem_workspaces {w : Workspace} :
    w ∈ d.workspaces ↔ ∃ row ∈ d.rows, row.record = .workspace w := by
  rw [Database.workspaces, List.mem_filterMap]
  refine exists_congr fun row => and_congr_right fun _ => ?_
  cases row.record <;> simp [workspace?]

theorem mem_findAllWithStatus {w : WorkspaceWithStatus} :
    w ∈ d.findAllWithStatus archived none ↔ ∃ row ∈ d.rows, d.contentOf row.record = .workspace w ∧
        archived.all (· == w.workspace.archived) = true := by
  simp only [findAllWithStatus, List.mem_filter, List.mem_map, List.mem_insertionSort,
    mem_workspaces]
  constructor
  · rintro ⟨⟨ws, ⟨row, hrow, hr⟩, rfl⟩, ha⟩
    exact ⟨row, hrow, by rw [hr]; rfl, ha⟩
  · rintro ⟨row, hrow, hc, ha⟩
    cases hr : row.record with rw [hr] at hc
    | workspace ws => exact ⟨⟨ws, ⟨row, hrow, hr⟩, Content.workspace.inj hc⟩, ha⟩
    | _ => cases hc

theorem findAllWithStatus_eq {limit : Option ℕ} (hl : (workspaces archived limit).Unlimited d) :
    d.findAllWithStatus archived limit = d.findAllWithStatus archived none := by
  cases limit with
  | none => rfl
  | some n => exact List.take_of_length_le hl

theorem mem_findScratch (hd : d.Sound) {id : Uuid} {scratchType : ScratchType} {s : Scratch} :
    d.findScratch id scratchType = some s ↔
      ∃ row ∈ d.rows, row.record = .scratch s ∧ s.id = id ∧ s.scratchType = scratchType := by
  constructor
  · intro h
    obtain ⟨row, hfind, hs⟩ := bind_eq_some_iff.1 h
    obtain ⟨hmem, hk⟩ := find_eq_some hfind
    have hrecord : row.record = .scratch s := by
      cases hr : row.record with rw [hr] at hs
      | scratch s' => exact congrArg _ (some.inj hs)
      | _ => cases hs
    rw [Row.key, hrecord] at hk
    exact ⟨row, hmem, hrecord, Key.scratch.inj hk⟩
  · rintro ⟨row, hmem, hrecord, rfl, rfl⟩
    have hfind := hd.find hmem
    rw [Row.key, hrecord] at hfind
    refine bind_eq_some_iff.2 ⟨row, hfind, ?_⟩
    rw [hrecord]
    rfl

theorem mem_contents (hd : d.Sound) (hl : st.Unlimited d) : c ∈ st.contents d ↔
      ∃ row ∈ d.rows, d.contentOf row.record = c ∧ st.selects c = true := by
  cases st with
  | executionProcesses sessionId showSoftDeleted =>
    simp only [contents, List.mem_map, findBySessionId, List.mem_filter, mem_executionProcesses]
    constructor
    · rintro ⟨p, ⟨⟨row, hrow, hr⟩, hsel⟩, rfl⟩
      exact ⟨row, hrow, by rw [hr]; rfl, hsel⟩
    · rintro ⟨row, hrow, rfl, hsel⟩
      cases hr : row.record with rw [hr] at hsel
      | executionProcess p => exact ⟨p, ⟨⟨row, hrow, hr⟩, hsel⟩, rfl⟩
      | _ => cases hsel
  | scratch id scratchType =>
    simp only [contents, List.mem_map, mem_toList, mem_findScratch hd]
    constructor
    · rintro ⟨s, ⟨row, hrow, hr, hid, htype⟩, rfl⟩
      exact ⟨row, hrow, by rw [hr]; rfl, by simp [selects, hid, htype]⟩
    · rintro ⟨row, hrow, rfl, hsel⟩
      cases hr : row.record with rw [hr] at hsel
      | scratch s =>
        have hown : s.id = id ∧ s.scratchType = scratchType := by
          simpa [selects, contentOf] using hsel
        exact ⟨s, ⟨row, hrow, hr, hown⟩, rfl⟩
      | _ => cases hsel
  | workspaces archived limit =>
    simp only [contents, List.mem_map, findAllWithStatus_eq hl, mem_findAllWithStatus]
    constructor
    · rintro ⟨w, ⟨row, hrow, hc, hsel⟩, rfl⟩
      exact ⟨row, hrow, hc, hsel⟩
    · rintro ⟨row, hrow, hc, hsel⟩
      cases c with
      | workspace w => exact ⟨w, ⟨row, hrow, hc, hsel⟩, rfl⟩
      | _ => cases hsel
  | browserSessions workspaceId =>
    simp only [contents, List.mem_map, findByWorkspace, List.mem_filter, List.mem_filterMap]
    constructor
    · rintro ⟨b, ⟨⟨row, hrow, hb⟩, hsel⟩, rfl⟩
      refine ⟨row, hrow, ?_, hsel⟩
      cases hr : row.record with rw [hr] at hb
      | browserSession b' => exact congrArg _ (some.inj hb)
      | _ => cases hb
    · rintro ⟨row, hrow, rfl, hsel⟩
      cases hr : row.record with rw [hr] at hsel
      | browserSession b => exact ⟨b, ⟨⟨row, hrow, by rw [hr]; rfl⟩, hsel⟩, rfl⟩
      | _ => cases hsel

theorem snapshot_eq (hd : d.Sound) (hl : st.Unlimited d) : st.snapshot d k = st.rows d k := by
  apply ext
  intro c
  rw [rows, filter_eq_some_iff, content_eq_some_iff hd, snapshot, lookup]
  constructor
  · intro h
    obtain ⟨hmem, hk⟩ := find?_some h
    obtain ⟨row, hrow, rfl, hsel⟩ := (mem_contents hd hl).1 hmem
    exact ⟨⟨row, hrow, key_contentOf.symm.trans (of_decide_eq_true hk), rfl⟩, hsel⟩
  · rintro ⟨⟨row, hrow, rfl, rfl⟩, hsel⟩
    have hmem := (mem_contents hd hl).2 ⟨row, hrow, rfl, hsel⟩
    cases hf : (st.contents d).find? fun c => c.key = row.key with
    | none =>
      have hno := find?_none hf _ hmem
      exact absurd key_contentOf (of_decide_eq_false hno)
    | some c' =>
      obtain ⟨hmem', hk'⟩ := find?_some hf
      obtain ⟨row', hrow', rfl, _⟩ := (mem_contents hd hl).1 hmem'
      have hkey : row'.key = row.key := key_contentOf.symm.trans (of_decide_eq_true hk')
      rw [hd.keys.eq hrow' hrow hkey]

end Stream

end VibeKanban.Events
