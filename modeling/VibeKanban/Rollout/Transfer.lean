import VibeKanban.Cluster.Protocol
import VibeKanban.Lib.Except
import VibeKanban.Lib.Paths
import VibeKanban.Lib.Utf8

/-!
# Rollout manifests (`codex/rollout_transfer.rs`)

A rollout is the file of one session; its first line names the parent session. `resolve_manifest`
walks from a session to its oldest ancestor and lists the files on the way, oldest first; the worker
that receives them validates the list. The file system, the parsers and the hash are parameters.

* `resolveManifest_sound`: what the walk lists, and that a cycle is an error.
* `digestInput_injective_iff`: when two accepted manifests with one digest are the same.
-/

namespace VibeKanban.Rollout

open Nat

open Lib Cluster List Utf8

/-! ## Types -/

/-- `CODEX_ROLLOUT_MAX_FILE_BYTES` -/
def maxFileBytes : ℕ := 32 * 1024 * 1024

/-- `CODEX_ROLLOUT_MAX_LINEAGE_BYTES` -/
def maxLineageBytes : ℕ := 128 * 1024 * 1024

/-- `CODEX_ROLLOUT_MAX_LINEAGE_FILES` -/
def maxLineageFiles : ℕ := 32

def maxMetadataLineBytes : ℕ := 1024 * 1024

inductive RolloutTransferError where
  | missing (threadId : Uuid)
  | unsafePath
  | invalidMetadata (threadId : Uuid) (reason : String)
  | cycle (threadId : Uuid)
  | fileTooLarge (threadId : Uuid) (limit : ℕ)
  | lineageTooLarge
  | invalidManifest
  | ioError
  deriving DecidableEq

structure CanonicalMeta where
  id : Uuid
  forkedFromId : Option Uuid
  parentThreadId : Option Uuid

structure RolloutEnvelope where
  kind : String
  payload : CanonicalMeta

structure CodexRolloutManifestEntry where
  threadId : Uuid
  parentThreadId : Option Uuid
  relativePath : String
  sizeBytes : ℕ
  sha256 : String

structure CodexRolloutManifest where
  operationId : Uuid
  workspaceId : Uuid
  sourceExecutionId : Uuid
  sourceWorkerNodeId : Uuid
  targetWorkerNodeId : Uuid
  leafThreadId : Uuid
  entries : List CodexRolloutManifestEntry
  manifestSha256 : String

abbrev Path := List UInt8

/-- What `symlink_metadata` tells. -/
structure Metadata where
  isFile : Bool
  isSymlink : Bool
  len : ℕ

/-- What the walk takes from outside. -/
structure Env where
  sessionsRoot : Path
  /-- the regular files that `index_rollouts` comes across, in its order -/
  rolloutFiles : Except RolloutTransferError (List Path)
  symlinkMetadata : Path → Except RolloutTransferError Metadata
  /-- the first line, or as much of it as `read_line` may read -/
  firstLine : Path → Except RolloutTransferError (List Char)
  canonicalize : Path → Except RolloutTransferError Path
  contents : Path → Except RolloutTransferError (List UInt8)
  /-- `Uuid::parse_str` -/
  parseStr : List UInt8 → Option Uuid
  /-- `serde_json::from_str` -/
  fromStr : List Char → Option RolloutEnvelope
  sha256 : List UInt8 → String

/-! ## Paths -/

def unixBytes : Paths.Separators UInt8 := ⟨0x2F, 0x2E⟩

def unixChars : Paths.Separators Char := ⟨'/', '.'⟩

def toStringLossy (path : Path) : String := String.ofList (lossy path)

/-- `validate_relative` (lines 689-699) for a path of the file system. -/
def validateRelative (path : Path) : Except RolloutTransferError Unit :=
  if Paths.safe unixBytes path then .ok () else .error .unsafePath

/-- `validate_relative` for a path that is a text. -/
def validateRelativeText (path : String) : Except RolloutTransferError Unit :=
  if Paths.safe unixChars path.toList then .ok () else .error .unsafePath

/-- `Path::strip_prefix` for canonical paths. -/
def stripPrefix (root path : Path) : Option Path :=
  if path = root then some [] else path.dropPrefix? (root ++ [unixBytes.slash])

/-- `DirEntry::file_name` -/
def fileName (path : Path) : Path := ((path.splitOn unixBytes.slash).getLast?).getD []

/-- `rollout_id_from_name` (lines 681-687). -/
def rolloutIdFromName (parseStr : List UInt8 → Option Uuid) (name : List Char) : Option Uuid := do
  let stem ← name.dropPrefix? "rollout-".toList
  let stem ← stem.dropSuffix? ".jsonl".toList
  if '-' ∈ stem then
    let bytes := encode stem
    if bytes.length < 36 then none
    else
      let id := bytes.drop (bytes.length - 36)
      -- `str::get` fails inside a character
      if (id.head?.map isContinuation) = some true then none
      else parseStr id
  else none

variable (env : Env)

/-- `index_rollouts` (lines 521-551). -/
def indexRollouts : Except RolloutTransferError (Uuid → Option Path) := do
  let files ← env.rolloutFiles
  files.foldlM (fun index path =>
    match rolloutIdFromName env.parseStr (lossy (fileName path)) with
    | some id =>
      if (index id).isSome then .error (.invalidMetadata id "duplicate rollout identity")
      else .ok (Function.update index id (some path))
    | none => .ok index) fun _ => none

/-- `read_canonical_meta` (lines 658-679). -/
def readCanonicalMeta (path : Path) (expected : Uuid) :
    Except RolloutTransferError CanonicalMeta := do
  let line ← env.firstLine path
  if maxMetadataLineBytes < (encode line).length then
    .error (.invalidMetadata expected "metadata line is oversized")
  else
    match env.fromStr line with
    | none => .error (.invalidMetadata expected "first line is not valid session metadata")
    | some envelope =>
      if envelope.kind ≠ "session_meta" ∨ envelope.payload.id ≠ expected then
        .error (.invalidMetadata expected "canonical thread identity mismatch")
      else .ok envelope.payload

/-- `relative_path` (lines 553-560). -/
def relativePath (path : Path) : Except RolloutTransferError String := do
  let canonical ← env.canonicalize path
  match stripPrefix env.sessionsRoot canonical with
  | none => .error .unsafePath
  | some relative => do
    validateRelative relative
    .ok (toStringLossy relative)

/-- `sha256_file` (lines 772-783). -/
def sha256File (path : Path) (limit : ℕ) : Except RolloutTransferError String := do
  let bytes ← env.contents path
  if limit < bytes.length then .error .lineageTooLarge else .ok (env.sha256 bytes)

/-! ## The walk -/

/-- The parent that the metadata name. -/
def CanonicalMeta.parent (data : CanonicalMeta) : Option Uuid :=
  data.parentThreadId.or data.forkedFromId

/-- What `resolve_ancestors` reads of a session before it goes on to the parent. -/
structure Session where
  path : Path
  len : ℕ
  parent : Option Uuid

variable (index : Uuid → Option Path) {path : Path}

/-- `resolve_ancestors`, before it goes on to the parent (lines 163-186). -/
def readSession (threadId : Uuid) : Except RolloutTransferError Session := do
  match index threadId with
  | none => .error (.missing threadId)
  | some path => do
    let metadata ← env.symlinkMetadata path
    if !metadata.isFile || metadata.isSymlink then .error .unsafePath
    else if maxFileBytes < metadata.len then .error (.fileTooLarge threadId maxFileBytes)
    else do
      let data ← readCanonicalMeta env path threadId
      match data.parentThreadId, data.forkedFromId with
      | some parent, some forkedFrom =>
        if parent ≠ forkedFrom then
          .error (.invalidMetadata threadId "conflicting parent_thread_id and forked_from_id")
        else .ok ⟨path, metadata.len, data.parent⟩
      | _, _ => .ok ⟨path, metadata.len, data.parent⟩

/-- What `resolve_ancestors` changes. -/
structure Walk where
  visiting : Finset Uuid
  entries : List CodexRolloutManifestEntry
  total : ℕ

/-- `resolve_ancestors`, after the parent (lines 190-207). -/
def pushEntry (threadId : Uuid) (session : Session) (walk : Walk) :
    Except RolloutTransferError Walk :=
  if 2 ^ 64 ≤ walk.total + session.len then .error .lineageTooLarge
  else if maxLineageBytes < walk.total + session.len ∨ maxLineageFiles ≤ walk.entries.length then
    .error .lineageTooLarge
  else do
    let relativePath ← relativePath env session.path
    let sha256 ← sha256File env session.path maxFileBytes
    .ok {
      visiting := walk.visiting.erase threadId
      entries := walk.entries ++ [⟨threadId, session.parent, relativePath, session.len, sha256⟩]
      total := walk.total + session.len }

/-- `resolve_ancestors` (lines 146-208). -/
def resolveAncestors (threadId : Uuid) (walk : Walk) : Except RolloutTransferError Walk :=
  if walk.entries.any (fun entry => entry.threadId = threadId) then .ok walk
  else if _hcycle : threadId ∈ walk.visiting then .error (.cycle threadId)
  else if _hlimit : maxLineageFiles < (insert threadId walk.visiting).card then
    .error .lineageTooLarge
  else
    match readSession env index threadId with
    | .error e => .error e
    | .ok session =>
      match session.parent with
      | none =>
        pushEntry env threadId session { walk with visiting := insert threadId walk.visiting }
      | some parent =>
        match resolveAncestors parent { walk with visiting := insert threadId walk.visiting } with
        | .error e => .error e
        | .ok walk => pushEntry env threadId session walk
termination_by maxLineageFiles + 1 - walk.visiting.card
decreasing_by
  rw [Finset.card_insert_of_notMem _hcycle] at _hlimit ⊢
  omega

/-! ## Manifests -/

/-- The `width` bytes of a number, the highest first. -/
def toBeBytes (width n : ℕ) : List UInt8 :=
  (range width).map fun i => UInt8.ofNat (n / 256 ^ (width - 1 - i))

/-- `Uuid::as_bytes` -/
def uuidBytes (id : Uuid) : List UInt8 := toBeBytes 16 id

/-- `manifest_digest` (lines 752-770); the digest of the manifest itself is not part of it. -/
def manifestDigest (manifest : CodexRolloutManifest) : String :=
  env.sha256 (uuidBytes manifest.operationId ++ uuidBytes manifest.workspaceId ++
    uuidBytes manifest.sourceExecutionId ++ uuidBytes manifest.sourceWorkerNodeId ++
    uuidBytes manifest.targetWorkerNodeId ++ uuidBytes manifest.leafThreadId ++
    manifest.entries.flatMap fun entry =>
      uuidBytes entry.threadId ++ (entry.parentThreadId.map uuidBytes).getD [] ++
        encode entry.relativePath.toList ++ toBeBytes 8 entry.sizeBytes ++
        encode entry.sha256.toList)

/-- `resolve_manifest` (lines 112-144). -/
def resolveManifest (operationId workspaceId sourceExecutionId sourceWorkerNodeId
    targetWorkerNodeId leafThreadId : Uuid) :
    Except RolloutTransferError CodexRolloutManifest := do
  let index ← indexRollouts env
  let walk ← resolveAncestors env index leafThreadId ⟨∅, [], 0⟩
  let manifest : CodexRolloutManifest := ⟨operationId, workspaceId, sourceExecutionId,
    sourceWorkerNodeId, targetWorkerNodeId, leafThreadId, walk.entries, ""⟩
  .ok { manifest with manifestSha256 := manifestDigest env manifest }

/-- What the loop of `validate_manifest` has seen. -/
structure Seen where
  previous : Option Uuid
  seen : Finset Uuid
  total : ℕ

/-- The loop body of `validate_manifest` (lines 731-745). -/
def validateEntry (s : Seen) (entry : CodexRolloutManifestEntry) :
    Except RolloutTransferError Seen := do
  validateRelativeText entry.relativePath
  if entry.threadId ∈ s.seen ∨ maxFileBytes < entry.sizeBytes then .error .invalidManifest
  else if entry.parentThreadId ≠ s.previous then .error .invalidManifest
  else if 2 ^ 64 ≤ s.total + entry.sizeBytes then .error .invalidManifest
  else .ok ⟨some entry.threadId, insert entry.threadId s.seen, s.total + entry.sizeBytes⟩

/-- `validate_manifest` (lines 721-750). -/
def validateManifest (manifest : CodexRolloutManifest) : Except RolloutTransferError Unit :=
  if manifest.entries.isEmpty ∨ maxLineageFiles < manifest.entries.length ∨
      manifest.entries.getLast?.map (·.threadId) ≠ some manifest.leafThreadId ∨
      manifestDigest env manifest ≠ manifest.manifestSha256 then .error .invalidManifest
  else do
    let s ← manifest.entries.foldlM validateEntry ⟨none, ∅, 0⟩
    if maxLineageBytes < s.total then .error .invalidManifest else .ok ()

/-! ## What a path looks like to the validator -/

theorem lift_lossy : Paths.Lift unixBytes unixChars lossy where
  append a b := lossy_append (by decide) a b
  slash a h := mem_of_mem_lossy (c := '/') (by decide) h
  nil a h := by
    have hascii : ∀ c ∈ lossy a, c.toNat < 0x80 := by
      rw [h]
      exact nofun
    rw [eq_map_of_lossy hascii, h]
    rfl
  dot a h := by
    have hascii : ∀ c ∈ lossy a, c.toNat < 0x80 := by
      intro c hc
      have hdot : c = unixChars.dot := by simpa [h] using hc
      rw [hdot]
      decide
    rw [eq_map_of_lossy hascii, h]
    rfl
  parent a h := by
    have hascii : ∀ c ∈ lossy a, c.toNat < 0x80 := by
      intro c hc
      have hdot : c = unixChars.dot := by simpa [h] using hc
      rw [hdot]
      decide
    rw [eq_map_of_lossy hascii, h]
    rfl

theorem validateRelativeText_toStringLossy (h : validateRelative path = .ok ()) :
    validateRelativeText (toStringLossy path) = .ok () := by
  unfold validateRelative at h
  split_ifs at h with hsafe
  have hlossy : Paths.safe unixChars (toStringLossy path).toList = true := by
    rw [toStringLossy, String.toList_ofList]
    exact Paths.safe_of_lift lift_lossy hsafe
  rw [validateRelativeText, if_pos hlossy]

variable {env index}

theorem validateRelativeText_relativePath {text : String}
    (h : relativePath env path = .ok text) : validateRelativeText text = .ok () := by
  obtain ⟨canonical, -, h⟩ := bind_eq_ok_iff.1 h
  split at h
  · cases h
  · obtain ⟨_, hvalid, h⟩ := bind_eq_ok_iff.1 h
    cases h
    exact validateRelativeText_toStringLossy hvalid

/-! ## Lineages -/

/-- The entry is the one of a session. -/
structure EntryOf (entry : CodexRolloutManifestEntry) (id : Uuid) (session : Session) : Prop where
  threadId : entry.threadId = id
  parent : entry.parentThreadId = session.parent
  relativePath : validateRelativeText entry.relativePath = .ok ()
  size : entry.sizeBytes ≤ maxFileBytes

variable (env index)

/-- The entries are those of the ancestors of a session and its own, oldest first. -/
inductive Lineage : Uuid → List CodexRolloutManifestEntry → Prop
  | root {id : Uuid} {session : Session} {entry : CodexRolloutManifestEntry}
    (hread : readSession env index id = .ok session) (hroot : session.parent = none)
    (hentry : EntryOf entry id session) : Lineage id [entry]
  | child {id parent : Uuid} {session : Session} {entry : CodexRolloutManifestEntry}
    {entries : List CodexRolloutManifestEntry} (h : Lineage parent entries)
    (hread : readSession env index id = .ok session) (hparent : session.parent = some parent)
    (hentry : EntryOf entry id session) : Lineage id (entries ++ [entry])

variable {env index}

variable {id : Uuid} {session : Session} {walk walk' : Walk}

theorem readSession_len
    (h : readSession env index id = .ok session) : session.len ≤ maxFileBytes := by
  unfold readSession at h
  split at h
  · cases h
  · obtain ⟨metadata, -, h⟩ := bind_eq_ok_iff.1 h
    split_ifs at h with hfile hsize
    obtain ⟨data, -, h⟩ := bind_eq_ok_iff.1 h
    split at h
    · split_ifs at h
      cases h
      exact not_lt.1 hsize
    · cases h
      exact not_lt.1 hsize

theorem pushEntry_spec
    (hlen : session.len ≤ maxFileBytes) (h : pushEntry env id session walk = .ok walk') :
    ∃ entry, EntryOf entry id session ∧ walk'.entries = walk.entries ++ [entry] ∧
      walk'.visiting = walk.visiting.erase id ∧
      walk'.total = walk.total + entry.sizeBytes ∧ walk'.total ≤ maxLineageBytes ∧
      walk'.entries.length ≤ maxLineageFiles := by
  unfold pushEntry at h
  split_ifs at h with hoverflow hlimit
  obtain ⟨text, htext, h⟩ := bind_eq_ok_iff.1 h
  obtain ⟨digest, -, h⟩ := bind_eq_ok_iff.1 h
  cases h
  rw [not_or, not_lt, not_le] at hlimit
  refine ⟨_, ⟨rfl, rfl, validateRelativeText_relativePath htext, hlen⟩, rfl, rfl, rfl, hlimit.1, ?_⟩
  rw [length_append]
  exact hlimit.2

/-- What the walk has found when it comes back from a session. -/
structure Resolved (env : Env) (index : Uuid → Option Path) (id : Uuid) (held : Finset Uuid)
    (walk : Walk) : Prop where
  lineage : Lineage env index id walk.entries
  visiting : walk.visiting = held
  fresh : ∀ entry ∈ walk.entries, entry.threadId ∉ held
  nodup : (walk.entries.map (·.threadId)).Nodup
  files : walk.entries.length ≤ maxLineageFiles
  total : walk.total = (walk.entries.map (·.sizeBytes)).sum
  bytes : walk.total ≤ maxLineageBytes

theorem resolveAncestors_spec (hentries : walk.entries = [])
    (htotal : walk.total = 0) (h : resolveAncestors env index id walk = .ok walk') :
    Resolved env index id walk.visiting walk' := by
  fun_induction resolveAncestors env index id walk generalizing walk' with
  | case1 id walk hknown =>
    rw [hentries] at hknown
    cases hknown
  | case2 | case3 | case4 | case6 => cases h
  | case5 id walk _ hcycle _ session hread hroot =>
    have hlen := readSession_len hread
    obtain ⟨entry, hentry, hnew, hvisiting, hsum, hbytes, hfiles⟩ := pushEntry_spec hlen h
    replace hnew : walk'.entries = [entry] := by
      rw [hnew]
      show walk.entries ++ [entry] = [entry]
      rw [hentries, nil_append]
    refine ⟨?_, ?_, ?_, ?_, hfiles, ?_, hbytes⟩
    · rw [hnew]
      exact .root hread hroot hentry
    · exact hvisiting.trans (Finset.erase_insert hcycle)
    · intro entry' hmem
      rw [hnew] at hmem
      rw [mem_singleton.1 hmem, hentry.threadId]
      exact hcycle
    · rw [hnew]
      exact nodup_singleton _
    · rw [hnew, hsum]
      show walk.total + entry.sizeBytes = entry.sizeBytes + 0
      rw [htotal, zero_add]
      rfl
  | case7 id walk _ hcycle _ session hread parent hparent walk₁ hwalk ih =>
    have hlen := readSession_len hread
    obtain ⟨hlineage, hvisiting₁, hfresh, hnodup, -, hsum₁, -⟩ := ih hentries htotal hwalk
    obtain ⟨entry, hentry, hnew, hvisiting, hsum, hbytes, hfiles⟩ := pushEntry_spec hlen h
    refine ⟨?_, ?_, ?_, ?_, hfiles, ?_, hbytes⟩
    · rw [hnew]
      exact .child hlineage hread hparent hentry
    · rw [hvisiting, hvisiting₁]
      exact Finset.erase_insert hcycle
    · intro entry' hmem
      rw [hnew] at hmem
      rcases mem_append.1 hmem with hold | hlast
      · exact fun hheld => hfresh entry' hold (Finset.mem_insert_of_mem hheld)
      · rw [mem_singleton.1 hlast, hentry.threadId]
        exact hcycle
    · rw [hnew, map_append, map_singleton, ← concat_eq_append, nodup_concat]
      refine ⟨?_, hnodup⟩
      rw [hentry.threadId]
      intro hmem
      obtain ⟨entry', hmem', heq⟩ := mem_map.1 hmem
      apply hfresh entry' hmem'
      rw [heq]
      exact Finset.mem_insert_self _ _
    · rw [hsum, hnew, hsum₁, map_append, List.sum_append_nat]
      rfl

/-! ## The validator -/

theorem validateEntry_ok {s : Seen} {entry : CodexRolloutManifestEntry}
    (hentry : EntryOf entry id session) (hparent : session.parent = s.previous)
    (hnew : id ∉ s.seen) (hsum : s.total + entry.sizeBytes < 2 ^ 64) :
    validateEntry s entry = .ok ⟨some id, insert id s.seen, s.total + entry.sizeBytes⟩ := by
  have hcheck : ¬(entry.threadId ∈ s.seen ∨ maxFileBytes < entry.sizeBytes) := by
    rw [hentry.threadId]
    exact not_or.2 ⟨hnew, not_lt.2 hentry.size⟩
  have hprevious : ¬entry.parentThreadId ≠ s.previous := by
    rw [hentry.parent, hparent]
    exact fun hne => hne rfl
  unfold validateEntry
  rw [hentry.relativePath]
  show (if entry.threadId ∈ s.seen ∨ maxFileBytes < entry.sizeBytes then _ else _) = _
  rw [if_neg hcheck, if_neg hprevious, if_neg (not_le.2 hsum), hentry.threadId]

variable {entries : List CodexRolloutManifestEntry}

theorem validateEntries_lineage
    (h : Lineage env index id entries) (hnodup : (entries.map (·.threadId)).Nodup)
    (hsum : (entries.map (·.sizeBytes)).sum ≤ maxLineageBytes) :
    ∃ s, entries.foldlM validateEntry ⟨none, ∅, 0⟩ = .ok s ∧ s.previous = some id ∧
      (∀ x, x ∈ s.seen ↔ x ∈ entries.map (·.threadId)) ∧
      s.total = (entries.map (·.sizeBytes)).sum := by
  have hbound : maxLineageBytes < 2 ^ 64 := by decide
  induction h with
  | @root id session entry hread hroot hentry =>
    have hstep := validateEntry_ok (s := ⟨none, ∅, 0⟩) hentry hroot (Finset.notMem_empty _)
      (by simp at hsum ⊢; omega)
    refine ⟨_, (foldlM_concat (l := []) rfl).trans hstep, rfl, ?_, ?_⟩
    · intro x
      rw [map_singleton, mem_singleton, hentry.threadId]
      simp
    · simp
  | @child id parent session entry entries hlineage hread hparent hentry ih =>
    rw [map_append, map_singleton, ← concat_eq_append, nodup_concat] at hnodup
    rw [map_append, List.sum_append_nat, map_singleton, sum_singleton] at hsum
    obtain ⟨s, hs, hprevious, hseen, htotal⟩ := ih hnodup.2 (by omega)
    have hnew : id ∉ s.seen := by
      rw [hseen, ← hentry.threadId]
      exact hnodup.1
    have hstep := validateEntry_ok hentry (hparent.trans hprevious.symm) hnew (by omega)
    refine ⟨_, (foldlM_concat hs).trans hstep, rfl, ?_, ?_⟩
    · intro x
      rw [Finset.mem_insert, hseen, map_append, mem_append, map_singleton,
        mem_singleton, hentry.threadId]
      exact Or.comm
    · rw [map_append, List.sum_append_nat, map_singleton, sum_singleton]
      show s.total + entry.sizeBytes = _
      rw [htotal]

/-! ## Cycles -/

variable (env index) in
/-- The metadata of a session name its parent. -/
def Link (child parent : Uuid) : Prop :=
  ∃ path data, index child = some path ∧ readCanonicalMeta env path child = .ok data ∧
    data.parent = some parent

theorem parent_of_link {parent : Uuid}
    (h : readSession env index id = .ok session) (hlink : Link env index id parent) :
    session.parent = some parent := by
  obtain ⟨path, data, hpath, hdata, hparent⟩ := hlink
  unfold readSession at h
  rw [hpath] at h
  obtain ⟨metadata, -, h⟩ := bind_eq_ok_iff.1 h
  split_ifs at h
  obtain ⟨data', hdata', h⟩ := bind_eq_ok_iff.1 h
  cases hdata.symm.trans hdata'
  split at h
  · split_ifs at h
    cases h
    exact hparent
  · cases h
    exact hparent

/-- A session with a lineage has no cycle among its ancestors. -/
theorem not_cyclic_of_lineage (h : Lineage env index id entries) {x : Uuid}
    (hreach : Relation.ReflTransGen (Link env index) id x) :
    ¬Relation.TransGen (Link env index) x x := by
  induction h generalizing x with
  | root hread hroot hentry =>
    intro hcycle
    rcases hreach.cases_head with rfl | ⟨y, hlink, -⟩
    · obtain ⟨y, hlink, -⟩ := Relation.TransGen.head'_iff.1 hcycle
      cases hroot.symm.trans (parent_of_link hread hlink)
    · cases hroot.symm.trans (parent_of_link hread hlink)
  | child hlineage hread hparent hentry ih =>
    intro hcycle
    rcases hreach.cases_head with rfl | ⟨y, hlink, hrest⟩
    · obtain ⟨y, hlink, hrest⟩ := Relation.TransGen.head'_iff.1 hcycle
      cases hparent.symm.trans (parent_of_link hread hlink)
      exact ih Relation.ReflTransGen.refl (Relation.TransGen.tail' hrest hlink)
    · cases hparent.symm.trans (parent_of_link hread hlink)
      exact ih hrest hcycle

/-! ## Manifests -/

/-- A manifest that the validator accepts: a chain from a session without parent to the requested
    one, no session twice, within all limits. -/
structure Sound (env : Env) (leaf : Uuid) (manifest : CodexRolloutManifest) : Prop where
  accepted : validateManifest env manifest = .ok ()
  last : manifest.entries.getLast?.map (·.threadId) = some leaf
  first : ∀ entry, manifest.entries.head? = some entry → entry.parentThreadId = none
  linked : manifest.entries.IsChain fun e e' => e'.parentThreadId = some e.threadId
  nodup : (manifest.entries.map (·.threadId)).Nodup
  files : manifest.entries.length ≤ maxLineageFiles
  sizes : ∀ entry ∈ manifest.entries, entry.sizeBytes ≤ maxFileBytes
  bytes : (manifest.entries.map (·.sizeBytes)).sum ≤ maxLineageBytes

section

variable (h : Lineage env index id entries)

include h

theorem Lineage.getLast : entries.getLast?.map (·.threadId) = some id := by
  cases h with
  | root hread hroot hentry => exact congrArg some hentry.threadId
  | child hlineage hread hparent hentry =>
    rw [getLast?_concat]
    exact congrArg some hentry.threadId

theorem Lineage.ne_nil : entries ≠ [] := by
  rintro rfl
  cases h.getLast

theorem Lineage.first (entry : CodexRolloutManifestEntry)
    (hhead : entries.head? = some entry) : entry.parentThreadId = none := by
  induction h with
  | root hread hroot hentry =>
    cases hhead
    exact hentry.parent.trans hroot
  | child hlineage hread hparent hentry ih =>
    rw [head?_append_of_ne_nil _ hlineage.ne_nil] at hhead
    exact ih hhead

theorem Lineage.linked : entries.IsChain fun e e' => e'.parentThreadId = some e.threadId := by
  induction h with
  | root hread hroot hentry => exact isChain_singleton _
  | child hlineage hread hparent hentry ih =>
    refine isChain_append.2 ⟨ih, isChain_singleton _, ?_⟩
    intro e he e' he'
    cases he'
    have hlast := hlineage.getLast
    rw [he] at hlast
    rw [hentry.parent, hparent]
    exact hlast.symm

theorem Lineage.sizes : ∀ entry ∈ entries, entry.sizeBytes ≤ maxFileBytes := by
  induction h with
  | root hread hroot hentry =>
    intro entry hmem
    rw [mem_singleton.1 hmem]
    exact hentry.size
  | child hlineage hread hparent hentry ih =>
    intro entry hmem
    rcases mem_append.1 hmem with hold | hlast
    · exact ih entry hold
    · rw [mem_singleton.1 hlast]
      exact hentry.size

end

/-- The validator accepts a lineage within the limits under its digest. -/
theorem validateManifest_lineage {manifest : CodexRolloutManifest}
    (h : Lineage env index manifest.leafThreadId manifest.entries)
    (hnodup : (manifest.entries.map (·.threadId)).Nodup)
    (hfiles : manifest.entries.length ≤ maxLineageFiles)
    (hsum : (manifest.entries.map (·.sizeBytes)).sum ≤ maxLineageBytes)
    (hdigest : manifestDigest env manifest = manifest.manifestSha256) :
    validateManifest env manifest = .ok () := by
  obtain ⟨s, hs, -, -, htotal⟩ := validateEntries_lineage h hnodup hsum
  unfold validateManifest
  rw [if_neg]
  · refine bind_eq_ok_iff.2 ⟨s, hs, if_neg ?_⟩
    rw [htotal]
    exact not_lt.2 hsum
  · have hempty : manifest.entries.isEmpty = false := by
      rw [isEmpty_eq_false_iff]
      exact h.ne_nil
    rw [hempty, h.getLast, hdigest]
    simp [not_lt.2 hfiles]

/-- `resolve_manifest` fails or returns a manifest that the validator accepts; a cycle among the
    ancestors of the session is an error. -/
theorem resolveManifest_sound (env : Env) (operationId workspaceId sourceExecutionId
    sourceWorkerNodeId targetWorkerNodeId leaf : Uuid) :
    (∀ manifest, resolveManifest env operationId workspaceId sourceExecutionId sourceWorkerNodeId
      targetWorkerNodeId leaf = .ok manifest → Sound env leaf manifest) ∧
    (∀ index x, indexRollouts env = .ok index →
      Relation.ReflTransGen (Link env index) leaf x → Relation.TransGen (Link env index) x x →
      ∃ e, resolveManifest env operationId workspaceId sourceExecutionId sourceWorkerNodeId
        targetWorkerNodeId leaf = .error e) := by
  constructor
  · intro manifest h
    obtain ⟨index, -, h⟩ := bind_eq_ok_iff.1 h
    obtain ⟨walk, hwalk, h⟩ := bind_eq_ok_iff.1 h
    cases h
    obtain ⟨hlineage, -, -, hnodup, hfiles, htotal, hbytes⟩ := resolveAncestors_spec rfl rfl hwalk
    rw [htotal] at hbytes
    exact ⟨validateManifest_lineage hlineage hnodup hfiles hbytes rfl, hlineage.getLast,
      hlineage.first, hlineage.linked, hnodup, hfiles, hlineage.sizes, hbytes⟩
  · intro index x hindex hreach hcycle
    cases hresult : resolveManifest env operationId workspaceId sourceExecutionId
      sourceWorkerNodeId targetWorkerNodeId leaf with
    | error e => exact ⟨e, rfl⟩
    | ok manifest =>
      obtain ⟨index', hindex', hwalk⟩ := bind_eq_ok_iff.1 hresult
      cases hindex.symm.trans hindex'
      obtain ⟨walk, hwalk, -⟩ := bind_eq_ok_iff.1 hwalk
      have hlineage := (resolveAncestors_spec rfl rfl hwalk).lineage
      exact absurd hcycle (not_cyclic_of_lineage hlineage hreach)

/-- The text of the session id that ends in the digit. -/
def exampleUuid (digit : Char) : List Char :=
  "00000000-0000-0000-0000-00000000000".toList ++ [digit]

def examplePath (digit : Char) : Path :=
  Utf8.encode ("/s/rollout-a-".toList ++ exampleUuid digit ++ ".jsonl".toList)

/-- Three sessions: 1 has no parent, 1 is the parent of 2, and 3 is its own parent. -/
def exampleEnv : Env where
  sessionsRoot := Utf8.encode "/s".toList
  rolloutFiles := .ok [examplePath '1', examplePath '2', examplePath '3']
  symlinkMetadata _ := .ok ⟨true, false, 100⟩
  firstLine path :=
    if path = examplePath '1' then .ok "first".toList
    else if path = examplePath '2' then .ok "second".toList
    else .ok "third".toList
  canonicalize path := .ok path
  contents _ := .ok []
  parseStr bytes :=
    if bytes = encode (exampleUuid '1') then some 1
    else if bytes = encode (exampleUuid '2') then some 2
    else if bytes = encode (exampleUuid '3') then some 3
    else none
  fromStr line :=
    if line = "first".toList then some ⟨"session_meta", ⟨1, none, none⟩⟩
    else if line = "second".toList then some ⟨"session_meta", ⟨2, none, some 1⟩⟩
    else if line = "third".toList then some ⟨"session_meta", ⟨3, some 3, none⟩⟩
    else none
  sha256 bytes := String.ofList (bytes.map UInt8.toChar)

def exampleIndex : Uuid → Option Path :=
  Function.update (Function.update (Function.update (fun _ => none) 1 (some (examplePath '1'))) 2
    (some (examplePath '2'))) 3 (some (examplePath '3'))

/-- The walk from the session 2 goes to 1 and back; the one from 3 ends with an error. -/
theorem example_resolved : (∃ manifest : CodexRolloutManifest,
      resolveManifest exampleEnv 10 11 12 13 14 2 = .ok manifest ∧ Sound exampleEnv 2 manifest ∧
      manifest.entries.map (·.threadId) = [1, 2]) ∧
    ∃ e, resolveManifest exampleEnv 10 11 12 13 14 3 = .error e := by
  have hindex : indexRollouts exampleEnv = .ok exampleIndex := rfl
  constructor
  · have hread₁ : readSession exampleEnv exampleIndex 1 = .ok ⟨examplePath '1', 100, none⟩ := rfl
    have hread₂ : readSession exampleEnv exampleIndex 2 = .ok ⟨examplePath '2', 100, some 1⟩ := rfl
    obtain ⟨walk, hwalk, hentries⟩ : ∃ walk : Walk,
        resolveAncestors exampleEnv exampleIndex 2 ⟨∅, [], 0⟩ = .ok walk ∧
          walk.entries.map (·.threadId) = [1, 2] := by
      rw [resolveAncestors, if_neg (by decide), dif_neg (by decide), dif_neg (by decide), hread₂]
      dsimp only
      rw [resolveAncestors, if_neg (by decide), dif_neg (by decide), dif_neg (by decide), hread₁]
      exact ⟨_, rfl, rfl⟩
    obtain ⟨manifest, hmanifest, hsame⟩ : ∃ manifest : CodexRolloutManifest,
        resolveManifest exampleEnv 10 11 12 13 14 2 = .ok manifest ∧
          manifest.entries = walk.entries :=
      ⟨_, bind_eq_ok_iff.2 ⟨_, hindex, bind_eq_ok_iff.2 ⟨_, hwalk, rfl⟩⟩, rfl⟩
    rw [← hsame] at hentries
    exact ⟨_, hmanifest, (resolveManifest_sound exampleEnv 10 11 12 13 14 2).1 _ hmanifest,
      hentries⟩
  · have hlink : Link exampleEnv exampleIndex 3 3 :=
      ⟨examplePath '3', ⟨3, some 3, none⟩, rfl, rfl, rfl⟩
    exact (resolveManifest_sound exampleEnv 10 11 12 13 14 3).2 exampleIndex 3 hindex .refl
      (.single hlink)

/-! ## What the digest of a manifest binds -/

/-- What `manifest_digest` hashes of an entry. -/
def entryBytes (entry : CodexRolloutManifestEntry) : List UInt8 :=
  uuidBytes entry.threadId ++ (entry.parentThreadId.map uuidBytes).getD [] ++
    encode entry.relativePath.toList ++ toBeBytes 8 entry.sizeBytes ++
    encode entry.sha256.toList

/-- Everything it hashes. -/
def digestInput (manifest : CodexRolloutManifest) : List UInt8 :=
  uuidBytes manifest.operationId ++ uuidBytes manifest.workspaceId ++
    uuidBytes manifest.sourceExecutionId ++ uuidBytes manifest.sourceWorkerNodeId ++
    uuidBytes manifest.targetWorkerNodeId ++ uuidBytes manifest.leafThreadId ++
    manifest.entries.flatMap entryBytes

theorem manifestDigest_eq (env : Env) (manifest : CodexRolloutManifest) :
    manifestDigest env manifest = env.sha256 (digestInput manifest) := rfl

/-- The ids are values of `Uuid`, which has 128 bits. -/
def Typed (manifest : CodexRolloutManifest) : Prop :=
  ∀ id ∈ [manifest.operationId, manifest.workspaceId, manifest.sourceExecutionId,
    manifest.sourceWorkerNodeId, manifest.targetWorkerNodeId, manifest.leafThreadId] ++
      manifest.entries.map (·.threadId), id < 256 ^ 16

def textLengths (entry : CodexRolloutManifestEntry) : ℕ × ℕ :=
  ((encode entry.relativePath.toList).length, (encode entry.sha256.toList).length)

/-- A path without NUL and a hash of 64 characters, like those of a file that exists. -/
def Delimited (entry : CodexRolloutManifestEntry) : Prop :=
  0 ∉ encode entry.relativePath.toList ∧ (encode entry.sha256.toList).length = 64

section Digest

variable {entry entry' : CodexRolloutManifestEntry}
  {entries entries' : List CodexRolloutManifestEntry} {s s' t t' : Seen} {width m n : ℕ}

@[simp] theorem length_toBeBytes : (toBeBytes width n).length = width := by simp [toBeBytes]

theorem toBeBytes_succ :
    toBeBytes (width + 1) n = UInt8.ofNat (n / 256 ^ width) :: toBeBytes width n := by
  simp [toBeBytes, range_succ_eq_map, Nat.sub_sub, Nat.add_comm]

theorem toBeBytes_mod (h : toBeBytes width m = toBeBytes width n) :
    m % 256 ^ width = n % 256 ^ width := by
  induction width with
  | zero => simp [mod_one]
  | succ width ih =>
    rw [toBeBytes_succ, toBeBytes_succ] at h
    obtain ⟨hfirst, hrest⟩ := cons.inj h
    have hdigit : m / 256 ^ width % 256 = n / 256 ^ width % 256 := by
      simpa using congrArg UInt8.toNat hfirst
    rw [mod_pow_succ, mod_pow_succ, ih hrest, hdigit]

theorem toBeBytes_injective (hm : m < 256 ^ width) (hn : n < 256 ^ width)
    (h : toBeBytes width m = toBeBytes width n) : m = n := by
  simpa [mod_eq_of_lt hm, mod_eq_of_lt hn] using toBeBytes_mod h

theorem encode_injective {a b : String} (h : encode a.toList = encode b.toList) : a = b :=
  String.toList_injective (by simpa using congrArg lossy h)

theorem validateEntry_facts (h : validateEntry s entry = .ok t) :
    entry.parentThreadId = s.previous ∧ entry.sizeBytes ≤ maxFileBytes ∧
    t.previous = some entry.threadId := by
  obtain ⟨-, -, h⟩ := bind_eq_ok_iff.1 h
  split_ifs at h with h1 h2
  cases h
  exact ⟨not_not.1 h2, not_lt.1 fun hlt => h1 (.inr hlt), rfl⟩

theorem length_entryBytes : (entryBytes entry).length =
    16 + (if entry.parentThreadId.isSome then 16 else 0) + (textLengths entry).1 + 8 +
      (textLengths entry).2 := by
  cases hparent : entry.parentThreadId <;>
    simp [entryBytes, uuidBytes, textLengths, hparent] <;> omega

theorem entry_eq (hid : entry.threadId < 256 ^ 16) (hid' : entry'.threadId < 256 ^ 16)
    (hsize : entry.sizeBytes ≤ maxFileBytes) (hsize' : entry'.sizeBytes ≤ maxFileBytes)
    (hparent : entry.parentThreadId = entry'.parentThreadId)
    (hlengths : textLengths entry = textLengths entry') (h : entryBytes entry = entryBytes entry') :
    entry = entry' := by
  have hmax : maxFileBytes < 256 ^ 8 := by decide
  simp only [entryBytes, append_assoc] at h
  obtain ⟨huuid, h⟩ := append_inj h (by simp [uuidBytes])
  obtain ⟨-, h⟩ := append_inj h (by rw [hparent])
  obtain ⟨hpath, h⟩ := append_inj h (congrArg Prod.fst hlengths)
  obtain ⟨hbytes, hhash⟩ := append_inj h (by simp)
  have h1 := toBeBytes_injective hid hid' huuid
  have h2 := toBeBytes_injective (hsize.trans_lt hmax) (hsize'.trans_lt hmax) hbytes
  have h3 := encode_injective hpath
  have h4 := encode_injective hhash
  cases entry
  cases entry'
  simp_all

theorem entries_eq (hprevious : s.previous = s'.previous)
    (h : entries.foldlM validateEntry s = .ok t) (h' : entries'.foldlM validateEntry s' = .ok t')
    (hids : ∀ entry ∈ entries, entry.threadId < 256 ^ 16)
    (hids' : ∀ entry ∈ entries', entry.threadId < 256 ^ 16)
    (hlengths : entries.map textLengths = entries'.map textLengths)
    (hbytes : entries.flatMap entryBytes = entries'.flatMap entryBytes) : entries = entries' := by
  induction entries generalizing entries' s s' with
  | nil => exact (map_eq_nil_iff.1 hlengths.symm).symm
  | cons entry entries ih =>
    cases entries' with
    | nil => cases hlengths
    | cons entry' entries' =>
      obtain ⟨s₁, hstep, hrun⟩ := bind_eq_ok_iff.1 h
      obtain ⟨s₁', hstep', hrun'⟩ := bind_eq_ok_iff.1 h'
      obtain ⟨hparent, hsize, hnext⟩ := validateEntry_facts hstep
      obtain ⟨hparent', hsize', hnext'⟩ := validateEntry_facts hstep'
      have hsame := hparent.trans (hprevious.trans hparent'.symm)
      obtain ⟨hlength, hothers⟩ := cons.inj hlengths
      obtain ⟨hfirst, hrest⟩ := append_inj hbytes (by
        rw [length_entryBytes, length_entryBytes, hsame, hlength])
      obtain ⟨hid, htail⟩ := forall_mem_cons.1 hids
      obtain ⟨hid', htail'⟩ := forall_mem_cons.1 hids'
      obtain rfl := entry_eq hid hid' hsize hsize' hsame hlength hfirst
      rw [ih (hnext.trans hnext'.symm) hrun hrun' htail htail' hothers hrest]

/-- The first byte of a size is zero, so it ends a path without NUL. -/
theorem textLengths_eq (hparent : entry.parentThreadId.isSome = entry'.parentThreadId.isSome)
    (hsize : entry.sizeBytes ≤ maxFileBytes) (hsize' : entry'.sizeBytes ≤ maxFileBytes)
    (hd : Delimited entry) (hd' : Delimited entry') {rest rest' : List UInt8}
    (h : entryBytes entry ++ rest = entryBytes entry' ++ rest') :
    textLengths entry = textLengths entry' := by
  have hzero : ∀ {n}, n ≤ maxFileBytes → toBeBytes 8 n = 0 :: toBeBytes 7 n := by
    intro n hn
    have hsmall : n / 256 ^ 7 = 0 := div_eq_of_lt (hn.trans_lt (by decide))
    rw [toBeBytes_succ, hsmall]
    rfl
  have htake : ∀ {path tail : List UInt8}, 0 ∉ path →
      (path ++ 0 :: tail).takeWhile (· ≠ 0) = path := by
    intro path tail hpath
    rw [takeWhile_append_of_pos (by grind)]
    simp
  simp only [entryBytes, append_assoc, hzero hsize, hzero hsize', cons_append] at h
  obtain ⟨-, h⟩ := append_inj h (by simp [uuidBytes])
  obtain ⟨-, h⟩ := append_inj h (by
    cases hp : entry.parentThreadId <;> cases hp' : entry'.parentThreadId <;> simp_all [uuidBytes])
  have hpath := congrArg (takeWhile (· ≠ 0)) h
  rw [htake hd.1, htake hd'.1] at hpath
  exact Prod.ext (congrArg length hpath) (hd.2.trans hd'.2.symm)

theorem map_textLengths_eq (hprevious : s.previous.isSome = s'.previous.isSome)
    (h : entries.foldlM validateEntry s = .ok t) (h' : entries'.foldlM validateEntry s' = .ok t')
    (hd : ∀ entry ∈ entries, Delimited entry) (hd' : ∀ entry ∈ entries', Delimited entry)
    (hbytes : entries.flatMap entryBytes = entries'.flatMap entryBytes) :
    entries.map textLengths = entries'.map textLengths := by
  have hne : ∀ entry rest, entryBytes entry ++ rest ≠ [] := by
    intro entry rest heq
    have := congrArg length heq
    simp [length_entryBytes] at this
  induction entries generalizing entries' s s' with
  | nil =>
    cases entries' with
    | nil => rfl
    | cons entry' entries' => exact absurd hbytes.symm (hne entry' _)
  | cons entry entries ih =>
    cases entries' with
    | nil => exact absurd hbytes (hne entry _)
    | cons entry' entries' =>
      obtain ⟨s₁, hstep, hrun⟩ := bind_eq_ok_iff.1 h
      obtain ⟨s₁', hstep', hrun'⟩ := bind_eq_ok_iff.1 h'
      obtain ⟨hparent, hsize, hnext⟩ := validateEntry_facts hstep
      obtain ⟨hparent', hsize', hnext'⟩ := validateEntry_facts hstep'
      obtain ⟨hfirst, hd⟩ := forall_mem_cons.1 hd
      obtain ⟨hfirst', hd'⟩ := forall_mem_cons.1 hd'
      have hsome : entry.parentThreadId.isSome = entry'.parentThreadId.isSome := by
        rw [hparent, hparent', hprevious]
      have hlength := textLengths_eq hsome hsize hsize' hfirst hfirst' hbytes
      obtain ⟨-, hrest⟩ := append_inj hbytes (by
        rw [length_entryBytes, length_entryBytes, hsome, hlength])
      rw [map_cons, map_cons, hlength, ih (by rw [hnext, hnext']; rfl) hrun hrun' hd hd' hrest]

end Digest

theorem validateManifest_facts {env : Env} {manifest : CodexRolloutManifest}
    (h : validateManifest env manifest = .ok ()) :
    manifestDigest env manifest = manifest.manifestSha256 ∧
      ∃ s, manifest.entries.foldlM validateEntry ⟨none, ∅, 0⟩ = .ok s := by
  unfold validateManifest at h
  split_ifs at h with hbad
  obtain ⟨s, hs, -⟩ := bind_eq_ok_iff.1 h
  simp only [not_or, not_not] at hbad
  exact ⟨hbad.2.2.2, s, hs⟩

/-- Two accepted manifests that hash the same bytes are the same when their texts
have the same lengths, and only then; where all paths and hashes are delimited, they have. -/
theorem digestInput_injective_iff (env : Env) (manifest manifest' : CodexRolloutManifest)
    (h : validateManifest env manifest = .ok ()) (h' : validateManifest env manifest' = .ok ())
    (htyped : Typed manifest) (htyped' : Typed manifest') :
    (digestInput manifest = digestInput manifest' → (manifest.entries = manifest'.entries ↔
        manifest.entries.map textLengths = manifest'.entries.map textLengths) ∧
      ((∀ entry ∈ manifest.entries ++ manifest'.entries, Delimited entry) →
        manifest.entries = manifest'.entries)) ∧
    (env.sha256.Injective → manifest.manifestSha256 = manifest'.manifestSha256 →
      (manifest = manifest' ↔
        manifest.entries.map textLengths = manifest'.entries.map textLengths)) := by
  obtain ⟨hdigest, s, hs⟩ := validateManifest_facts h
  obtain ⟨hdigest', s', hs'⟩ := validateManifest_facts h'
  simp only [Typed, forall_mem_append, forall_mem_cons, forall_mem_map] at htyped htyped'
  have hsplit : digestInput manifest = digestInput manifest' →
      (manifest.entries = manifest'.entries → manifest.manifestSha256 = manifest'.manifestSha256 →
        manifest = manifest') ∧
      manifest.entries.flatMap entryBytes = manifest'.entries.flatMap entryBytes := by
    intro hinput
    obtain ⟨hids, hbytes⟩ := append_inj hinput (by simp [uuidBytes])
    refine ⟨fun hentries hsha => ?_, hbytes⟩
    obtain ⟨hids, h6⟩ := append_inj hids (by simp [uuidBytes])
    obtain ⟨hids, h5⟩ := append_inj hids (by simp [uuidBytes])
    obtain ⟨hids, h4⟩ := append_inj hids (by simp [uuidBytes])
    obtain ⟨hids, h3⟩ := append_inj hids (by simp [uuidBytes])
    obtain ⟨h1, h2⟩ := append_inj hids (by simp [uuidBytes])
    obtain ⟨⟨t1, t2, t3, t4, t5, t6, -⟩, -⟩ := htyped
    obtain ⟨⟨t1', t2', t3', t4', t5', t6', -⟩, -⟩ := htyped'
    cases manifest
    cases manifest'
    simp only [CodexRolloutManifest.mk.injEq]
    exact ⟨toBeBytes_injective t1 t1' h1, toBeBytes_injective t2 t2' h2,
      toBeBytes_injective t3 t3' h3, toBeBytes_injective t4 t4' h4,
      toBeBytes_injective t5 t5' h5, toBeBytes_injective t6 t6' h6, hentries, hsha⟩
  have hentries : digestInput manifest = digestInput manifest' →
      manifest.entries.map textLengths = manifest'.entries.map textLengths →
        manifest.entries = manifest'.entries := fun hinput hlengths =>
    entries_eq rfl hs hs' htyped.2 htyped'.2 hlengths (hsplit hinput).2
  refine ⟨fun hinput => ⟨⟨fun heq => by rw [heq], hentries hinput⟩, fun hd => ?_⟩,
    fun hinjective hsha => ⟨fun heq => by rw [heq], fun hlengths => ?_⟩⟩
  · obtain ⟨hd, hd'⟩ := forall_mem_append.1 hd
    exact hentries hinput (map_textLengths_eq rfl hs hs' hd hd' (hsplit hinput).2)
  · rw [← hdigest, ← hdigest', manifestDigest_eq, manifestDigest_eq] at hsha
    have hinput := hinjective hsha
    exact (hsplit hinput).1 (hentries hinput hlengths)
      (by rw [← hdigest, ← hdigest', manifestDigest_eq, manifestDigest_eq, hinput])

def exampleManifest (path : String) (size : ℕ) (sha : String) : CodexRolloutManifest :=
  let manifest : CodexRolloutManifest :=
    ⟨10, 11, 12, 13, 14, 2, [⟨1, none, "b", 1, "y"⟩, ⟨2, some 1, path, size, sha⟩], ""⟩
  { manifest with manifestSha256 := manifestDigest exampleEnv manifest }

theorem validateManifest_example {path : String} {size : ℕ} (sha : String)
    (hpath : validateRelativeText path = .ok ()) (hsize : size ≤ maxFileBytes) :
    validateManifest exampleEnv (exampleManifest path size sha) = .ok () := by
  have hsmall : ¬ maxFileBytes < size := not_lt.2 hsize
  have hsum : ¬ 2 ^ 64 ≤ 1 + size := by
    unfold maxFileBytes at hsize
    omega
  have hbytes : ¬ maxLineageBytes < 1 + size := by
    unfold maxLineageBytes maxFileBytes at *
    omega
  have hfirst : validateEntry ⟨none, ∅, 0⟩ ⟨1, none, "b", 1, "y"⟩ = .ok ⟨some 1, {1}, 1⟩ :=
    bind_eq_ok_iff.2 ⟨(), by decide, rfl⟩
  have hsecond : validateEntry ⟨some 1, {1}, 1⟩ ⟨2, some 1, path, size, sha⟩ =
      .ok ⟨some 2, {2, 1}, 1 + size⟩ := by
    refine bind_eq_ok_iff.2 ⟨(), hpath, ?_⟩
    rw [if_neg (by simp [hsmall]), if_neg (not_not.2 rfl), if_neg hsum]
  unfold validateManifest
  rw [if_neg (by simp [exampleManifest, manifestDigest, maxLineageFiles])]
  refine bind_eq_ok_iff.2 ⟨⟨some 2, {2, 1}, 1 + size⟩, ?_, if_neg hbytes⟩
  exact bind_eq_ok_iff.2 ⟨_, hfirst, bind_eq_ok_iff.2 ⟨_, hsecond, rfl⟩⟩

/-- The last byte of the size of one is the first of the hash of the other. -/
theorem digestInput_shifted : let manifest := exampleManifest "a" 1 "x"
    let manifest' := exampleManifest "a\x00" 376 ""
    validateManifest exampleEnv manifest = .ok () ∧ validateManifest exampleEnv manifest' = .ok () ∧
      digestInput manifest = digestInput manifest' ∧ manifest.entries ≠ manifest'.entries :=
  ⟨validateManifest_example "x" (by decide) (by decide),
    validateManifest_example "" (by decide) (by decide), rfl, by simp [exampleManifest]⟩

/-- Two manifests with one digest, as their texts have other lengths, under an injective hash. -/
theorem digestInput_injective_example : let manifest := exampleManifest "a" 1 "x"
    let manifest' := exampleManifest "a\x00" 376 ""
    exampleEnv.sha256.Injective ∧ manifest.manifestSha256 = manifest'.manifestSha256 ∧
      manifest ≠ manifest' ∧
      manifest.entries.map textLengths ≠ manifest'.entries.map textLengths := by
  intro manifest manifest'
  have hinjective : exampleEnv.sha256.Injective := by
    intro bytes bytes' h
    refine map_injective_iff.2 (fun b b' h => ?_) (String.ofList_injective h)
    exact UInt8.toNat_inj.1 (congrArg Char.toNat h)
  have hsha : manifest.manifestSha256 = manifest'.manifestSha256 := rfl
  have hne : manifest ≠ manifest' := by simp [manifest, manifest', exampleManifest]
  have hiff := (digestInput_injective_iff exampleEnv manifest manifest'
    (validateManifest_example "x" (by decide) (by decide))
    (validateManifest_example "" (by decide) (by decide))
    (by simp [Typed, manifest, exampleManifest])
    (by simp [Typed, manifest', exampleManifest])).2 hinjective hsha
  exact ⟨hinjective, hsha, hne, fun hlengths => hne (hiff.2 hlengths)⟩

end VibeKanban.Rollout
