import VibeKanban.Lib.Crash

/-!
# Seeding the pipelines (`services/pipelines/mod.rs`)

`ensure_seeded` refreshes the files that are still an older default, creates the defaults that are
not known yet, and then writes a manifest of the defaults, which the next call takes for known.

The directory is a map from the names of its entries, on a Unix file system. The texts of the
defaults and `serde_json` are parameters. `exists`, `is_file` and `read_dir`, which turn their
errors into an answer, answer what is there.

* `crash_consistent_iff`: when a run after an interrupted one leaves what one run would have left.
-/

namespace VibeKanban.Pipelines

open Lib Lib.Program Nat List AList

/-- The name of a directory entry. -/
abbrev Name := List Char

abbrev Bytes := List UInt8

/-! ## The file system -/

inductive Node where
  | file (content : Bytes)
  | directory
  deriving DecidableEq

abbrev Dir := AList fun _ : Name => Node

/-- The directory, and `SEED_TEMP_COUNTER`, which is memory of the process. A crash leaves only the
directory. -/
structure System where
  dir : Dir
  counter : ℕ

inductive ErrorKind where
  | notFound
  | alreadyExists
  | other
  deriving DecidableEq

section Operations

variable {ρ : Type} (s : System) (name : Name)

/-- A failure that changes nothing. -/
def fails (s : System) (e : ErrorKind) (s' : System) : Prop := e = .other ∧ s' = s

def query (f : Dir → ρ) : Operation System ErrorKind ρ where
  run s := (.ok (f s.dir), s)
  fails _ _ _ := False
  torn _ _ := False

/-- `create_dir_all`; a directory that is missing has no entries. -/
def createDirAll : Operation System ErrorKind Unit where
  run s := (.ok (), s)
  fails := fails
  torn _ _ := False

/-- `fs::read`. -/
def read : Operation System ErrorKind Bytes where
  run s := (match s.dir.lookup name with
    | some (.file content) => .ok content
    | some .directory => .error .other
    | none => .error .notFound, s)
  fails := fails
  torn _ _ := False

/-- `OpenOptions::new().write(true).create_new(true).open`. -/
def createNew : Operation System ErrorKind Unit where
  run s := if (s.dir.lookup name).isSome then (.error .alreadyExists, s)
    else (.ok (), { s with dir := s.dir.insert name (.file []) })
  fails := fails
  torn _ _ := False

def System.write (content : Bytes) : System := { s with dir := s.dir.insert name (.file content) }

/-- `write_all` to the file that was just created. -/
def writeAll (content : Bytes) : Operation System ErrorKind Unit where
  run s := (.ok (), s.write name content)
  fails s e s' := e = .other ∧ ∃ k, s' = s.write name (content.take k)
  torn s s' := ∃ k, s' = s.write name (content.take k)

def syncAll : Operation System ErrorKind Unit where
  run s := (.ok (), s)
  fails := fails
  torn _ _ := False

/-- `replace_file` (lines 519-522). -/
def replaceFile (destination : Name) : Operation System ErrorKind Unit where
  run s := match s.dir.lookup name with
    | some node =>
      if s.dir.lookup destination = some .directory then (.error .other, s)
      else (.ok (), { s with dir := (s.dir.erase name).insert destination node })
    | none => (.error .notFound, s)
  fails := fails
  torn _ _ := False

def removeFile : Operation System ErrorKind Unit where
  run s := match s.dir.lookup name with
    | some (.file _) => (.ok (), { s with dir := s.dir.erase name })
    | some .directory => (.error .other, s)
    | none => (.error .notFound, s)
  fails := fails
  torn _ _ := False

/-- `SEED_TEMP_COUNTER.fetch_add(1)`. -/
def fetchAdd : Operation System ErrorKind ℕ where
  run s := (.ok s.counter, { s with counter := s.counter + 1 })
  fails _ _ _ := False
  torn _ _ := False

end Operations

/-! ## The defaults -/

inductive PipelineError where
  | io (kind : ErrorKind)
  | invalid (message : String)
  deriving DecidableEq

abbrev FileProgram := Program System ErrorKind

structure SeedManifest where
  version : ℕ
  bundled : List Name

local instance lawfulName : LawfulBEq Name := inferInstance

/-- The names of `BUNDLED` (lines 45-62). -/
def BUNDLED : List Name :=
  ["basic.toml", "wikillm.toml", "speckit.toml", "parallel-subagents.toml"].map String.toList

def SEED_MANIFEST : Name := ".bundled-pipelines.json".toList

def SEED_MANIFEST_VERSION : ℕ := 1

def LEGACY_BUNDLED : List Name := ["basic.toml", "wikillm.toml", "speckit.toml"].map String.toList

/-- The names of `HISTORICAL_BUNDLED` (lines 80-107). -/
def HISTORICAL_BUNDLED : List Name :=
  ["basic.toml", "wikillm.toml", "speckit.toml", "parallel-subagents.toml"].map String.toList

/-- `current_seed_manifest` (lines 510-518). -/
def currentSeedManifest : SeedManifest := ⟨SEED_MANIFEST_VERSION, BUNDLED⟩

/-- What is not in the source: the texts of the defaults and of their predecessors, the JSON parser
and printer, of which a manifest comes back, and the path of the manifest in messages. -/
structure Assets where
  content : Name → Bytes
  historical : Name → List Bytes
  fromSlice : Bytes → Except String SeedManifest
  toVecPretty : SeedManifest → Bytes
  display : String
  fromSlice_toVecPretty :
    fromSlice (toVecPretty currentSeedManifest ++ [10]) = .ok currentSeedManifest

/-- `Path::extension`. -/
def extension (name : Name) : Option Name :=
  if '.' ∈ name.tail then some (name.rtakeWhile (· ≠ '.')) else none

def isToml (name : Name) : Bool := extension name = some "toml".toList

def Node.isFile : Node → Bool
  | .file _ => true
  | .directory => false

/-- `has_toml` (lines 465-475). -/
def hasToml (dir : Dir) : Bool := dir.entries.any fun entry => entry.2.isFile && isToml entry.1

/-- `Path::new(name).file_name()` is the name. -/
def isFileName (name : Name) : Bool := name ≠ [] && name ≠ ['.'] && name ≠ ['.', '.'] && '/' ∉ name

/-- `validate_manifest` (lines 477-494). -/
def validateManifest (manifest : SeedManifest) : Except PipelineError (List Name) :=
  if manifest.version ≠ SEED_MANIFEST_VERSION then
    .error (.invalid ("unsupported pipeline seed manifest version: " ++ toString manifest.version))
  else if manifest.bundled.any fun name => !isFileName name || !".toml".toList.isSuffixOf name then
    .error (.invalid "pipeline seed manifest contains an invalid filename")
  else .ok manifest.bundled

variable (a : Assets) (pid : ℕ)

/-- What is read from a manifest (lines 501-507). -/
def Assets.parse (raw : Bytes) : Except PipelineError (List Name) :=
  match a.fromSlice raw with
  | .error e => .error (.invalid ("invalid pipeline seed manifest " ++ a.display ++ ": " ++ e))
  | .ok manifest => validateManifest manifest

/-- `read_seed_manifest` (lines 496-508). -/
def readSeedManifest : FileProgram (Except PipelineError (Option (List Name))) := do
  match ← call (query fun dir => (dir.lookup SEED_MANIFEST).isSome) with
  | .ok true =>
    andThen (mapError PipelineError.io (call (read SEED_MANIFEST))) (fun raw =>
      pure ((a.parse raw).map some))
  | _ => pure (.ok none)

/-- A file is written under another name and then put in its place (lines 567-578, 610-621). -/
def writeThrough (temp : Name) (content : Bytes) (path : Name) :
    FileProgram (Except ErrorKind Unit) := do
  let result ← andThen (call (createNew temp)) fun () =>
    andThen (call (writeAll temp content)) fun () =>
      andThen (call syncAll) fun () => call (replaceFile temp path)
  match result with
  | .ok () => pure (.ok ())
  | .error e => do
    let _ ← call (removeFile temp)
    pure (.error e)

def tempName (prefixed : Name) (pid nonce : ℕ) : Name :=
  prefixed ++ toDigits 10 pid ++ '-' :: toDigits 10 nonce

/-- What a manifest file holds. -/
def Assets.manifest : Bytes := a.toVecPretty currentSeedManifest ++ [10]

/-- `write_seed_manifest` (lines 553-580). -/
def writeSeedManifest : FileProgram (Except PipelineError Unit) :=
  andThen (mapError .io (call fetchAdd)) fun nonce =>
    mapError .io (writeThrough (tempName (SEED_MANIFEST ++ ".tmp-".toList) pid nonce) a.manifest
      SEED_MANIFEST)

/-- `refresh_if_historical` (lines 589-623). -/
def refreshIfHistorical (name : Name) : FileProgram (Except PipelineError Unit) := do
  match ← call (read name) with
  | .error .notFound => pure (.ok ())
  | .error e => pure (.error (.io e))
  | .ok existing =>
    if existing ∉ a.historical name then pure (.ok ())
    else andThen (mapError .io (call fetchAdd)) fun nonce =>
      mapError .io (writeThrough
        (tempName ('.' :: name ++ ".bundle-refresh-".toList) pid nonce) (a.content name) name)

/-- `refresh_unmodified_historical_defaults` (lines 582-587). -/
def refreshUnmodifiedHistoricalDefaults : List Name → FileProgram (Except PipelineError Unit)
  | [] => pure (.ok ())
  | name :: names => andThen (refreshIfHistorical a pid name) fun () =>
      refreshUnmodifiedHistoricalDefaults names

/-- `remove_created` (lines 625-635). -/
def removeAll : List Name → FileProgram Unit
  | [] => pure ()
  | name :: names => do
    let _ ← call (removeFile name)
    removeAll names

def removeCreated (created : List Name) : FileProgram Unit := removeAll created.reverse

/-- The rollback before an error is returned. -/
def rollBack {α : Type} (created : List Name) (e : PipelineError) :
    FileProgram (Except PipelineError α) := do
  removeCreated created
  pure (.error e)

/-- The loop of `ensure_seeded` (lines 662-686). -/
def createBundled (known : List Name) :
    List Name → List Name → FileProgram (Except PipelineError (List Name))
  | [], created => pure (.ok created)
  | name :: names, created =>
    if name ∈ known then createBundled known names created
    else do
      match ← call (createNew name) with
      | .ok () =>
        match ← call (writeAll name (a.content name)) with
        | .ok () => createBundled known names (created ++ [name])
        | .error e => rollBack (created ++ [name]) (.io e)
      | .error e =>
        match ← call (query fun dir => (dir.lookup name).any Node.isFile) with
        | .ok true =>
          if e = .alreadyExists then createBundled known names created
          else rollBack created (.io e)
        | _ => rollBack created (.io e)

/-- `ensure_seeded` (lines 641-693). -/
def ensureSeeded : FileProgram (Except PipelineError Unit) :=
  andThen (mapError .io (call createDirAll)) fun () =>
    andThen (readSeedManifest a) fun recorded => do
      let toml ← call (query hasToml)
      let known := if toml = .ok true then recorded.getD LEGACY_BUNDLED else []
      andThen (refreshUnmodifiedHistoricalDefaults a pid HISTORICAL_BUNDLED) fun () =>
        andThen (createBundled a known BUNDLED []) fun created => do
          match ← writeSeedManifest a pid with
          | .error e => rollBack created e
          | .ok () => pure (.ok ())

/-! ## The names that matter -/

/-- The pipelines and the manifest; the other names are of temporary files. -/
def Plain (name : Name) : Prop := isToml name = true ∨ name = SEED_MANIFEST

theorem extension_append {l r : Name} (hl : l ≠ []) (hr : '.' ∉ r) :
    extension (l ++ '.' :: r) = some r := by
  obtain ⟨c, l, rfl⟩ := exists_cons_of_ne_nil hl
  have htail : '.' ∈ (c :: l ++ '.' :: r).tail := by simp
  have hreverse : (c :: l ++ '.' :: r).reverse = r.reverse ++ '.' :: (c :: l).reverse := by simp
  rw [extension, if_pos htail, rtakeWhile, hreverse, takeWhile_append_of_pos]
  · simp
  · intro c hc
    rw [mem_reverse] at hc
    simp only [decide_eq_true_eq]
    rintro rfl
    exact hr hc

theorem not_plain_tempName {l r : Name} {pid nonce : ℕ} (hl : l ≠ []) (hr : '.' ∉ r) :
    ¬ Plain (tempName (l ++ '.' :: r) pid nonce) := by
  have hdigits (n : ℕ) : '.' ∉ toDigits 10 n := by
    intro h
    exact absurd (isDigit_of_mem_toDigits (by decide) (by decide) h) (by decide)
  have hname : tempName (l ++ '.' :: r) pid nonce =
      l ++ '.' :: (r ++ toDigits 10 pid ++ '-' :: toDigits 10 nonce) := by
    simp [tempName]
  have hext : extension (tempName (l ++ '.' :: r) pid nonce) =
      some (r ++ toDigits 10 pid ++ '-' :: toDigits 10 nonce) := by
    rw [hname]
    exact extension_append hl (by simp [hr, hdigits])
  have hdash : '-' ∈ r ++ toDigits 10 pid ++ '-' :: toDigits 10 nonce := by simp
  generalize r ++ toDigits 10 pid ++ '-' :: toDigits 10 nonce = ext at hext hdash
  rintro (h | h)
  · rw [isToml, decide_eq_true_eq, hext, Option.some.injEq] at h
    rw [h] at hdash
    exact absurd hdash (by decide)
  · rw [h] at hext
    have hjson : extension SEED_MANIFEST = some "json".toList := by decide
    rw [hjson, Option.some.injEq] at hext
    rw [← hext] at hdash
    exact absurd hdash (by decide)

theorem isToml_of_mem {name : Name} (h : name ∈ BUNDLED) : isToml name = true := by
  have hall : BUNDLED.all isToml = true := by decide
  exact all_eq_true.1 hall name h

theorem ne_manifest {name : Name} (h : isToml name = true) : name ≠ SEED_MANIFEST := by
  rintro rfl
  cases h

/-- The directories have the same pipelines and the same manifest. -/
def Agrees (dir dir' : Dir) : Prop := ∀ name, Plain name → dir'.lookup name = dir.lookup name

variable {dir dir₀ dir' : Dir} {s s' : System} {name temp path : Name} {a : Assets} {pid : ℕ}
  {content : Bytes}

theorem Agrees.refl : Agrees dir dir := fun _ _ => rfl

theorem Agrees.trans (h : Agrees dir₀ dir) (h' : Agrees dir dir') : Agrees dir₀ dir' :=
  fun name hname => (h' name hname).trans (h name hname)

theorem agrees_insert {node : Node} (htemp : ¬ Plain temp) : Agrees dir (dir.insert temp node) := by
  intro name hname
  refine lookup_insert_ne ?_
  rintro rfl
  exact htemp hname

theorem agrees_erase (htemp : ¬ Plain temp) : Agrees dir (dir.erase temp) := by
  intro name hname
  refine lookup_erase_ne ?_
  rintro rfl
  exact htemp hname

theorem agrees_removeFile (htemp : ¬ Plain temp) :
    Agrees s.dir ((removeFile temp).run s).2.dir := by
  cases hnode : s.dir.lookup temp with
  | none =>
    simp only [removeFile, hnode]
    exact Agrees.refl
  | some node =>
    cases node with simp only [removeFile, hnode]
    | file content => exact agrees_erase htemp
    | directory => exact Agrees.refl

theorem hasToml_iff : hasToml dir = true ↔
    ∃ name content, isToml name = true ∧ dir.lookup name = some (.file content) := by
  rw [hasToml, any_eq_true]
  constructor
  · rintro ⟨⟨name, node⟩, hm, hnode⟩
    rw [Bool.and_eq_true] at hnode
    cases node with
    | directory => exact absurd hnode.1 Bool.false_ne_true
    | file content => exact ⟨name, content, hnode.2, mem_lookup_iff.2 hm⟩
  · rintro ⟨name, content, hname, hlookup⟩
    exact ⟨⟨name, .file content⟩, mem_lookup_iff.1 hlookup, by simp [hname, Node.isFile]⟩

theorem Agrees.hasToml_eq (h : Agrees dir dir') : hasToml dir' = hasToml dir := by
  rw [Bool.eq_iff_iff, hasToml_iff, hasToml_iff]
  refine exists_congr fun name => exists_congr fun content => and_congr_right fun hname => ?_
  rw [h name (.inl hname)]

/-! ## Files that are replaced -/

theorem wp_writeThrough {K : Dir → Prop} {Q : Except ErrorKind Unit → System → Prop}
    (htemp : ¬ Plain temp) (hpath : Plain path)
    (hold : ∀ s', Agrees s.dir s'.dir → K s'.dir ∧ ∀ e, Q (.error e) s')
    (hnew : ∀ s', s'.dir.lookup path = some (.file content) →
      (∀ name, Plain name → name ≠ path → s'.dir.lookup name = s.dir.lookup name) →
      K s'.dir ∧ Q (.ok ()) s') :
    (writeThrough temp content path).wp (fun s => K s.dir) Q s := by
  have hne : path ≠ temp := by
    rintro rfl
    exact htemp hpath
  -- until the file is in its place the other entries are as before
  have hreplace : ∀ s', Agrees s.dir s'.dir ∧ s'.dir.lookup temp = some (.file content) →
      (call (replaceFile temp path)).wp (fun s => K s.dir) (fun r s' => match r with
        | .ok () => s'.dir.lookup path = some (.file content) ∧
          ∀ name, Plain name → name ≠ path → s'.dir.lookup name = s.dir.lookup name
        | .error _ => Agrees s.dir s'.dir) s' := by
    rintro s' ⟨hagrees, hlookup⟩
    refine wp_call (hold s' hagrees).1 nofun ?_ ?_
    · simp only [replaceFile, hlookup]
      split
      · exact ⟨(hold s' hagrees).1, hagrees⟩
      · have hplaced : ((s'.dir.erase temp).insert path (Node.file content)).lookup path =
            some (.file content) := lookup_insert _
        have hothers (name : Name) (hname : Plain name) (hother : name ≠ path) :
            ((s'.dir.erase temp).insert path (Node.file content)).lookup name =
              s.dir.lookup name := by
          rw [lookup_insert_ne hother, agrees_erase htemp name hname, hagrees name hname]
        exact ⟨(hnew _ hplaced hothers).1, hplaced, hothers⟩
    · rintro e s'' ⟨-, rfl⟩
      exact ⟨(hold s'' hagrees).1, hagrees⟩
  have hsync : ∀ s', Agrees s.dir s'.dir ∧ s'.dir.lookup temp = some (.file content) →
      (call syncAll).wp (fun s => K s.dir) (fun r s' => Agrees s.dir s'.dir ∧
        (r = .ok () → s'.dir.lookup temp = some (.file content))) s' := by
    rintro s' ⟨hagrees, hlookup⟩
    refine wp_call (hold s' hagrees).1 nofun ⟨(hold s' hagrees).1, hagrees, fun _ => hlookup⟩ ?_
    rintro e s'' ⟨-, rfl⟩
    exact ⟨(hold s'' hagrees).1, hagrees, nofun⟩
  have hwrite : ∀ s', Agrees s.dir s'.dir →
      (call (writeAll temp content)).wp (fun s => K s.dir) (fun r s' => Agrees s.dir s'.dir ∧
        (r = .ok () → s'.dir.lookup temp = some (.file content))) s' := by
    intro s' hagrees
    have hwritten (content' : Bytes) : Agrees s.dir (s'.write temp content').dir :=
      hagrees.trans (agrees_insert htemp)
    refine wp_call (hold s' hagrees).1 ?_ ⟨(hold _ (hwritten content)).1, hwritten content, ?_⟩ ?_
    · rintro s'' ⟨k, rfl⟩
      exact (hold _ (hwritten _)).1
    · exact fun _ => lookup_insert _
    · rintro e s'' ⟨-, k, rfl⟩
      exact ⟨(hold _ (hwritten _)).1, hwritten _, nofun⟩
  have hcreate : (call (createNew temp)).wp (fun s => K s.dir)
      (fun _ s' => Agrees s.dir s'.dir) s := by
    have hhere := hold s Agrees.refl
    refine wp_call hhere.1 nofun ?_ ?_
    · simp only [createNew]
      split
      · exact ⟨hhere.1, Agrees.refl⟩
      · have hcreated : Agrees s.dir (s.dir.insert temp (.file [])) := agrees_insert htemp
        exact ⟨(hold { s with dir := s.dir.insert temp (.file []) } hcreated).1, hcreated⟩
    · rintro e s' ⟨-, rfl⟩
      exact ⟨hhere.1, Agrees.refl⟩
  refine wp_bind (wp_mono (fun _ hK => hK) ?_ (wp_and (wp_andThen hcreate
    (fun _ s' hs' => wp_andThen (hwrite s' hs')
      (fun _ s' hs' => wp_andThen (hsync s' ⟨hs'.1, hs'.2 rfl⟩)
        (fun _ s' hs' => hreplace s' ⟨hs'.1, hs'.2 rfl⟩) (fun _ _ hs' => hs'.1))
      (fun _ _ hs' => hs'.1))
    (fun _ _ hs' => hs'))))
  rintro (e | ⟨⟩) s' ⟨hK, hr⟩
  · -- the temporary file is removed
    have hremove : (call (removeFile temp)).wp (fun s => K s.dir)
        (fun _ s' => Agrees s.dir s'.dir) s' := by
      have hremoved := hr.trans (agrees_removeFile htemp)
      refine wp_call hK nofun ⟨(hold _ hremoved).1, hremoved⟩ ?_
      rintro e' s'' ⟨-, rfl⟩
      exact ⟨hK, hr⟩
    exact wp_bind (wp_mono (fun _ hK => hK)
      (fun _ s' hs' => ⟨(hold s' hs').1, (hold s' hs').2 e⟩) hremove)
  · exact ⟨hK, (hnew s' hr.1 hr.2).2⟩

/-! ## What a run makes of the directory -/

def Assets.recorded (a : Assets) (dir : Dir) : Except PipelineError (Option (List Name)) :=
  match dir.lookup SEED_MANIFEST with
  | none => .ok none
  | some .directory => .error (.io .other)
  | some (.file raw) => (a.parse raw).map some

/-- The defaults that a run which starts from the directory does not create. -/
def Assets.known (a : Assets) (dir : Dir) : List Name :=
  if hasToml dir then
    match a.recorded dir with
    | .ok recorded => recorded.getD LEGACY_BUNDLED
    | .error _ => []
  else []

/-- A superseded default becomes the current one. -/
def Assets.refreshed (a : Assets) (name : Name) : Node → Node
  | .file content =>
    if name ∈ HISTORICAL_BUNDLED ∧ content ∈ a.historical name then .file (a.content name)
    else .file content
  | .directory => .directory

/-- What an interrupted run may leave: the entries that were there, perhaps refreshed, and files
under names of defaults. -/
structure Kept (a : Assets) (dir₀ dir : Dir) : Prop where
  manifest : dir.lookup SEED_MANIFEST = dir₀.lookup SEED_MANIFEST ∨
    dir.lookup SEED_MANIFEST = some (.file a.manifest)
  old : ∀ name node, isToml name = true → dir₀.lookup name = some node →
    dir.lookup name = some node ∨ dir.lookup name = some (a.refreshed name node)
  new : ∀ name, isToml name = true → dir₀.lookup name = none → dir.lookup name = none ∨
    name ∈ BUNDLED ∧ ∃ content, dir.lookup name = some (.file content)

/-- The refresh has reached the names of `done`. -/
def AtRefresh (a : Assets) (done : List Name) (dir₀ dir : Dir) : Prop :=
  ∀ name, Plain name → dir.lookup name =
    if name ∈ done then (dir₀.lookup name).map (a.refreshed name) else dir₀.lookup name

/-- The refresh is over, and the creation of what is missing has reached the names of `done`. -/
def AtCreate (a : Assets) (known done : List Name) (dir₀ dir : Dir) : Prop :=
  ∀ name, Plain name → dir.lookup name = match dir₀.lookup name with
    | some node => some (a.refreshed name node)
    | none => if name ∈ done ∧ name ∉ known then some (.file (a.content name)) else none

/-- What a run that completes makes of the pipelines. -/
def Seeded (a : Assets) (dir₀ dir : Dir) : Prop :=
  ∀ name, isToml name = true → dir.lookup name = match dir₀.lookup name with
    | some node => some (a.refreshed name node)
    | none => if name ∈ BUNDLED ∧ name ∉ a.known dir₀ then some (.file (a.content name)) else none

variable {known done names created : List Name} {node : Node} {R : System → Prop}

theorem refreshed_of_notMem (h : name ∉ HISTORICAL_BUNDLED) : a.refreshed name node = node := by
  cases node with
  | directory => rfl
  | file content => exact if_neg fun hm => h hm.1

theorem manifest_notMem : SEED_MANIFEST ∉ BUNDLED := by decide

section

variable (h : Agrees dir dir')
include h

theorem Agrees.recorded_eq : a.recorded dir' = a.recorded dir := by
  rw [Assets.recorded, Assets.recorded, h SEED_MANIFEST (.inr rfl)]

theorem Agrees.known_eq : a.known dir' = a.known dir := by
  rw [Assets.known, Assets.known, h.hasToml_eq, h.recorded_eq]

theorem Agrees.kept : Kept a dir dir' := by
  refine ⟨.inl (h _ (.inr rfl)), fun name node hname hnode => .inl ?_, fun name hname hnone =>
    .inl ?_⟩
  · rw [h name (.inl hname), hnode]
  · rw [h name (.inl hname), hnone]

end

theorem Kept.agrees (hkept : Kept a dir₀ dir) (h : Agrees dir dir') : Kept a dir₀ dir' := by
  refine ⟨?_, fun name node hname hnode => ?_, fun name hname hnone => ?_⟩
  · rw [h _ (.inr rfl)]
    exact hkept.manifest
  · rw [h name (.inl hname)]
    exact hkept.old name node hname hnode
  · rw [h name (.inl hname)]
    exact hkept.new name hname hnone

theorem AtRefresh.kept (h : AtRefresh a done dir₀ dir) (hdone : ∀ name ∈ done, name ∈ BUNDLED) :
    Kept a dir₀ dir := by
  refine ⟨.inl ?_, fun name node hname hnode => ?_, fun name hname hnone => .inl ?_⟩
  · rw [h _ (.inr rfl), if_neg fun hm => manifest_notMem (hdone _ hm)]
  · rw [h name (.inl hname), hnode]
    split
    · exact .inr rfl
    · exact .inl rfl
  · rw [h name (.inl hname), hnone]
    split <;> rfl

theorem AtCreate.kept (h : AtCreate a known done dir₀ dir) (hdone : ∀ name ∈ done, name ∈ BUNDLED) :
    Kept a dir₀ dir := by
  refine ⟨.inl ?_, fun name node hname hnode => .inr ?_, fun name hname hnone => ?_⟩
  · rw [h _ (.inr rfl)]
    cases dir₀.lookup SEED_MANIFEST with
    | none => exact if_neg fun hm => manifest_notMem (hdone _ hm.1)
    | some node =>
      show some (a.refreshed SEED_MANIFEST node) = some node
      rw [refreshed_of_notMem (by decide)]
  · rw [h name (.inl hname), hnode]
  · rw [h name (.inl hname), hnone]
    by_cases hm : name ∈ done ∧ name ∉ known
    · exact .inr ⟨hdone name hm.1, a.content name, if_pos hm⟩
    · exact .inl (if_neg hm)

theorem Kept.change {dir' : Dir} (h : Kept a dir₀ dir) (hname : isToml name = true)
    (hnone : dir₀.lookup name = none)
    (hother : ∀ other, other ≠ name → dir'.lookup other = dir.lookup other)
    (hnew : dir'.lookup name = none ∨
      name ∈ BUNDLED ∧ ∃ content, dir'.lookup name = some (.file content)) : Kept a dir₀ dir' := by
  refine ⟨?_, fun other node htoml hnode => ?_, fun other htoml hnone' => ?_⟩
  · rw [hother _ (ne_manifest hname).symm]
    exact h.manifest
  · have hne : other ≠ name := by
      rintro rfl
      rw [hnone] at hnode
      cases hnode
    rw [hother other hne]
    exact h.old other node htoml hnode
  · by_cases hne : other = name
    · rwa [hne]
    · rw [hother other hne]
      exact h.new other htoml hnone'

theorem Kept.erase (h : Kept a dir₀ dir) (hname : isToml name = true)
    (hnone : dir₀.lookup name = none) : Kept a dir₀ (dir.erase name) :=
  h.change hname hnone (fun _ => lookup_erase_ne) (.inl (lookup_erase _ _))

theorem Kept.insert (h : Kept a dir₀ dir) (hname : name ∈ BUNDLED)
    (hnone : dir₀.lookup name = none) : Kept a dir₀ (dir.insert name (.file content)) :=
  h.change (isToml_of_mem hname) hnone (fun _ => lookup_insert_ne)
    (.inr ⟨hname, content, lookup_insert _⟩)

/-! ## What the functions do -/

/-- The directory is one that an interrupted run may leave. -/
abbrev KeptBy (a : Assets) (dir₀ : Dir) (s : System) : Prop := Kept a dir₀ s.dir

theorem wp_query {ρ : Type} {Q : Except ErrorKind ρ → System → Prop}
    {f : Dir → ρ} (hR : R s) (hQ : Q (.ok (f s.dir)) s) : (call (query f)).wp R Q s :=
  wp_call hR nofun ⟨hR, hQ⟩ nofun

theorem wp_read {Q : Except ErrorKind Bytes → System → Prop} (hR : R s)
    (hQ : Q ((read name).run s).1 s) (hfail : Q (.error .other) s) :
    (call (read name)).wp R Q s := by
  refine wp_call hR nofun ⟨hR, hQ⟩ ?_
  rintro e s' ⟨rfl, rfl⟩
  exact ⟨hR, hfail⟩

theorem wp_readSeedManifest (hR : R s) :
    (readSeedManifest a).wp R (fun r s' => s' = s ∧
      (r = a.recorded s.dir ∨ r = .error (.io .other))) s := by
  refine wp_bind (wp_query hR ?_)
  cases hnode : s.dir.lookup SEED_MANIFEST with
  | none => exact ⟨hR, rfl, .inl (by rw [Assets.recorded, hnode])⟩
  | some node =>
    have hread : (mapError PipelineError.io (call (read SEED_MANIFEST))).wp R (fun r s' => s' = s ∧
        ((∃ raw, node = .file raw ∧ r = .ok raw) ∨ r = .error (.io .other))) s := by
      refine wp_mapError (wp_read hR ⟨rfl, ?_⟩ ⟨rfl, .inr rfl⟩)
      simp only [read, hnode]
      cases node with
      | file raw => exact .inl ⟨raw, rfl, rfl⟩
      | directory => exact .inr rfl
    refine wp_andThen hread ?_ ?_
    · rintro raw s' ⟨rfl, ⟨raw', rfl, heq⟩ | heq⟩
      · cases heq
        exact ⟨hR, rfl, .inl (by rw [Assets.recorded, hnode])⟩
      · cases heq
    · rintro e s' ⟨rfl, ⟨raw', -, heq⟩ | heq⟩
      · cases heq
      · rw [Except.error.inj heq]
        exact ⟨rfl, .inr rfl⟩

/-- An error of the file system, with the directory as an interrupted run may leave it. -/
def Fails (a : Assets) (dir₀ : Dir) (e : PipelineError) (s : System) : Prop :=
  (∃ kind, e = .io kind) ∧ KeptBy a dir₀ s

theorem wp_refreshIfHistorical (h : AtRefresh a done dir₀ s.dir)
    (hdone : ∀ name ∈ done, name ∈ BUNDLED) (hname : name ∈ HISTORICAL_BUNDLED)
    (hnew : name ∉ done) :
    (refreshIfHistorical a pid name).wp (KeptBy a dir₀) (fun r s' => match r with
      | .ok () => AtRefresh a (done ++ [name]) dir₀ s'.dir
      | .error e => Fails a dir₀ e s') s := by
  have hkept : KeptBy a dir₀ s := h.kept hdone
  have hplain : Plain name := .inl (isToml_of_mem hname)
  have hlookup : s.dir.lookup name = dir₀.lookup name := by rw [h name hplain, if_neg hnew]
  -- the entry is right as it is
  have hsame (hnode : (dir₀.lookup name).map (a.refreshed name) = dir₀.lookup name) :
      AtRefresh a (done ++ [name]) dir₀ s.dir := by
    intro other hother
    rw [h other hother]
    by_cases hne : other = name
    · rw [hne, if_neg hnew, if_pos (by simp), hnode]
    · simp only [mem_append, mem_singleton, hne, or_false]
  refine wp_bind (wp_read hkept ?_ ?_)
  · cases hnode : s.dir.lookup name with
    | none =>
      simp only [read, hnode]
      refine wp_pure hkept (hsame ?_)
      rw [← hlookup, hnode, Option.map_none]
    | some node =>
      cases node with simp only [read, hnode]
      | directory => exact wp_pure hkept ⟨⟨.other, rfl⟩, hkept⟩
      | file content =>
        rw [hlookup] at hnode
        split
        case isTrue hcustom =>
          refine wp_pure hkept (hsame ?_)
          rw [hnode, Option.map_some, Assets.refreshed, if_neg fun hm => hcustom hm.2]
        case isFalse hhistorical =>
          have hnonce : (mapError PipelineError.io (call fetchAdd)).wp (KeptBy a dir₀)
              (fun r s' => s'.dir = s.dir ∧ ∃ nonce, r = .ok nonce) s :=
            wp_mapError (wp_call hkept nofun ⟨hkept, rfl, s.counter, rfl⟩ nofun)
          refine wp_andThen hnonce ?_ ?_
          · rintro nonce s' ⟨hdir, -⟩
            refine wp_mapError (wp_writeThrough (not_plain_tempName (by simp) (by decide)) hplain
              (fun s'' hagrees => ?_) fun s'' hwritten hothers => ?_)
            · rw [hdir] at hagrees
              have hkept'' : KeptBy a dir₀ s'' := hkept.agrees hagrees
              exact ⟨hkept'', fun e => ⟨⟨e, rfl⟩, hkept''⟩⟩
            · have hrefreshed : AtRefresh a (done ++ [name]) dir₀ s''.dir := by
                intro other hother
                by_cases hne : other = name
                · rw [hne, hwritten, if_pos (by simp), hnode, Option.map_some, Assets.refreshed,
                    if_pos ⟨hname, not_not.1 hhistorical⟩]
                · rw [hothers other hother hne, hdir, h other hother]
                  simp only [mem_append, mem_singleton, hne, or_false]
              refine ⟨hrefreshed.kept fun other hm => ?_, hrefreshed⟩
              rcases mem_append.1 hm with hm | hm
              · exact hdone other hm
              · rw [mem_singleton.1 hm]
                exact hname
          · rintro e s' ⟨-, nonce, heq⟩
            cases heq
  · exact wp_pure hkept ⟨⟨.other, rfl⟩, hkept⟩

theorem wp_refreshUnmodifiedHistoricalDefaults (names : List Name) (h : AtRefresh a done dir₀ s.dir)
    (hsub : ∀ name ∈ done ++ names, name ∈ BUNDLED) (hnodup : (done ++ names).Nodup) :
    (refreshUnmodifiedHistoricalDefaults a pid names).wp (KeptBy a dir₀) (fun r s' => match r with
      | .ok () => AtRefresh a (done ++ names) dir₀ s'.dir
      | .error e => Fails a dir₀ e s') s := by
  have hdone (name : Name) (hm : name ∈ done) : name ∈ BUNDLED := hsub name (by simp [hm])
  induction names generalizing done s with
  | nil =>
    rw [append_nil]
    exact wp_pure (h.kept hdone) h
  | cons name names ih =>
    have hnew : name ∉ done := fun hm => disjoint_of_nodup_append hnodup hm mem_cons_self
    have hassoc : done ++ name :: names = (done ++ [name]) ++ names := by simp
    rw [hassoc] at hsub hnodup ⊢
    refine wp_andThen (wp_refreshIfHistorical h hdone (hsub name (by simp)) hnew)
      (fun _ s' hs' => ?_) fun e s' hs' => hs'
    exact ih hs' hsub hnodup fun other hm => hsub other (by simp only [mem_append] at hm ⊢; tauto)

theorem wp_removeAll (h : KeptBy a dir₀ s)
    (hnames : ∀ name ∈ names, isToml name = true ∧ dir₀.lookup name = none) :
    (removeAll names).wp (KeptBy a dir₀) (fun _ s' => KeptBy a dir₀ s') s := by
  induction names generalizing s with
  | nil => exact wp_pure h h
  | cons name names ih =>
    obtain ⟨hname, hnone⟩ := hnames name mem_cons_self
    have hrest (other : Name) (hm : other ∈ names) := hnames other (mem_cons_of_mem _ hm)
    have hremoved : KeptBy a dir₀ ((removeFile name).run s).2 := by
      cases hnode : s.dir.lookup name with
      | none =>
        simp only [removeFile, hnode]
        exact h
      | some node =>
        cases node with simp only [removeFile, hnode]
        | file content => exact Kept.erase h hname hnone
        | directory => exact h
    refine wp_bind (wp_call h nofun ⟨hremoved, ih hremoved hrest⟩ ?_)
    rintro e s' ⟨-, rfl⟩
    exact ⟨h, ih h hrest⟩

theorem wp_rollBack {α : Type} {e : PipelineError}
    {Q : Except PipelineError α → System → Prop} (h : KeptBy a dir₀ s)
    (hcreated : ∀ name ∈ created, name ∈ BUNDLED ∧ dir₀.lookup name = none)
    (hQ : ∀ s', KeptBy a dir₀ s' → Q (.error e) s') :
    (rollBack created e).wp (KeptBy a dir₀) Q s := by
  have hremove : (removeCreated created).wp (KeptBy a dir₀) (fun _ s' => KeptBy a dir₀ s') s := by
    refine wp_removeAll h fun name hm => ?_
    obtain ⟨hname, hnone⟩ := hcreated name (mem_reverse.1 hm)
    exact ⟨isToml_of_mem hname, hnone⟩
  exact wp_bind (wp_mono (fun _ hK => hK) (fun _ s' hs' => wp_pure hs' (hQ s' hs')) hremove)

theorem AtCreate.skip (h : AtCreate a known done dir₀ dir)
    (hskip : dir₀.lookup name ≠ none ∨ name ∈ known) :
    AtCreate a known (done ++ [name]) dir₀ dir := by
  intro other hother
  rw [h other hother]
  by_cases hne : other = name
  · rw [hne]
    cases hnode : dir₀.lookup name with
    | some node => rfl
    | none =>
      have hknown := hskip.resolve_left fun hs => hs hnode
      show (if _ then _ else _) = if _ then _ else _
      rw [if_neg fun hm => hm.2 hknown, if_neg fun hm => hm.2 hknown]
  · simp only [mem_append, mem_singleton, hne, or_false]

theorem AtCreate.create (h : AtCreate a known done dir₀ dir) (hnone : dir₀.lookup name = none)
    (hknown : name ∉ known) :
    AtCreate a known (done ++ [name]) dir₀ (dir.insert name (.file (a.content name))) := by
  intro other hother
  by_cases hne : other = name
  · rw [hne, lookup_insert, hnone]
    exact (if_pos ⟨by simp, hknown⟩).symm
  · rw [lookup_insert_ne hne, h other hother]
    simp only [mem_append, mem_singleton, hne, or_false]

theorem wp_createBundled (names created : List Name) (h : AtCreate a known done dir₀ s.dir)
    (hsub : ∀ name ∈ done ++ names, name ∈ BUNDLED) (hnodup : (done ++ names).Nodup)
    (hcreated : ∀ name ∈ created, name ∈ BUNDLED ∧ dir₀.lookup name = none) :
    (createBundled a known names created).wp (KeptBy a dir₀) (fun r s' => match r with
      | .ok created => AtCreate a known (done ++ names) dir₀ s'.dir ∧
        ∀ name ∈ created, name ∈ BUNDLED ∧ dir₀.lookup name = none
      | .error e => Fails a dir₀ e s') s := by
  induction names generalizing done s created with
  | nil =>
    rw [append_nil]
    exact wp_pure (h.kept fun name hm => hsub name (by simp [hm])) ⟨h, hcreated⟩
  | cons name names ih =>
    have hkept : KeptBy a dir₀ s := h.kept fun other hm => hsub other (by simp [hm])
    have hname : name ∈ BUNDLED := hsub name (by simp)
    have hnew : name ∉ done := fun hm => disjoint_of_nodup_append hnodup hm mem_cons_self
    have hassoc : done ++ name :: names = (done ++ [name]) ++ names := by simp
    rw [hassoc] at hsub hnodup ⊢
    have hfails {created : List Name} {e : ErrorKind} {s' : System} (hs' : KeptBy a dir₀ s')
        (hcreated : ∀ name ∈ created, name ∈ BUNDLED ∧ dir₀.lookup name = none) :
        (rollBack created (.io e) : FileProgram (Except PipelineError (List Name))).wp
          (KeptBy a dir₀) (fun r s' => match r with
            | .ok created => AtCreate a known ((done ++ [name]) ++ names) dir₀ s'.dir ∧
              ∀ name ∈ created, name ∈ BUNDLED ∧ dir₀.lookup name = none
            | .error e => Fails a dir₀ e s') s' :=
      wp_rollBack hs' hcreated fun s'' hs'' => ⟨⟨e, rfl⟩, hs''⟩
    unfold createBundled
    split
    case isTrue hknown => exact ih _ (h.skip (.inr hknown)) hsub hnodup hcreated
    case isFalse hknown =>
      have hlookup := h name (.inl (isToml_of_mem hname))
      refine wp_bind (wp_call hkept nofun ?_ ?_)
      · cases hnode : dir₀.lookup name with
        | none =>
          have hmissing : s.dir.lookup name = none := by
            rw [hlookup, hnode]
            exact if_neg fun hm => hnew hm.1
          simp only [createNew, hmissing, Option.isSome_none, Bool.false_eq_true, if_false]
          have hwritten (content : Bytes) : Kept a dir₀ (s.dir.insert name (.file content)) :=
            Kept.insert hkept hname hnode
          have hcreated' : ∀ other ∈ created ++ [name],
              other ∈ BUNDLED ∧ dir₀.lookup other = none := by
            intro other hm
            rcases mem_append.1 hm with hm | hm
            · exact hcreated other hm
            · rw [mem_singleton.1 hm]
              exact ⟨hname, hnode⟩
          -- the content is written over what was created
          have hover (content : Bytes) : ((s.dir.insert name (.file [])).insert name
              (.file content)) = s.dir.insert name (.file content) := insert_insert ..
          refine ⟨hwritten [], wp_bind (wp_call (hwritten []) ?_ ?_ ?_)⟩
          · rintro s' ⟨k, rfl⟩
            show Kept a dir₀ (insert name _ (insert name _ s.dir))
            rw [hover]
            exact hwritten _
          · show Kept a dir₀ (insert name _ (insert name _ s.dir)) ∧ _
            have hnext := h.create hnode hknown
            refine ⟨by rw [hover]; exact hwritten _, ih _ ?_ hsub hnodup hcreated'⟩
            show AtCreate a known _ dir₀ (insert name _ (insert name _ s.dir))
            rw [hover]
            exact hnext
          · rintro e s' ⟨rfl, k, rfl⟩
            have hs' : KeptBy a dir₀ (System.write { s with dir := s.dir.insert name (.file []) }
                name ((a.content name).take k)) := by
              show Kept a dir₀ (insert name _ (insert name _ s.dir))
              rw [hover]
              exact hwritten _
            exact ⟨hs', hfails hs' hcreated'⟩
        | some node =>
          have hthere : s.dir.lookup name = some (a.refreshed name node) := by rw [hlookup, hnode]
          simp only [createNew, hthere, Option.isSome_some, if_true]
          refine ⟨hkept, wp_bind (wp_query hkept ?_)⟩
          rw [hthere]
          cases hrefreshed : a.refreshed name node with
          | directory => exact hfails hkept hcreated
          | file content =>
            refine ih _ (h.skip (.inl ?_)) hsub hnodup hcreated
            rw [hnode]
            exact Option.some_ne_none _
      · rintro e s' ⟨rfl, rfl⟩
        refine ⟨hkept, wp_bind (wp_query hkept ?_)⟩
        cases (s'.dir.lookup name).any Node.isFile with
        | true | false => exact hfails hkept hcreated

theorem wp_writeSeedManifest (h : KeptBy a dir₀ s) :
    (writeSeedManifest a pid).wp (KeptBy a dir₀) (fun r s' => match r with
      | .ok () => ∀ name, isToml name = true → s'.dir.lookup name = s.dir.lookup name
      | .error e => Fails a dir₀ e s') s := by
  have hnonce : (mapError PipelineError.io (call fetchAdd)).wp (KeptBy a dir₀)
      (fun r s' => s'.dir = s.dir ∧ ∃ nonce, r = .ok nonce) s :=
    wp_mapError (wp_call h nofun ⟨h, rfl, s.counter, rfl⟩ nofun)
  refine wp_andThen hnonce ?_ ?_
  · rintro nonce s' ⟨hdir, -⟩
    refine wp_mapError (wp_writeThrough (not_plain_tempName (by decide) (by decide)) (.inr rfl)
      (fun s'' hagrees => ?_) fun s'' hwritten hothers => ?_)
    · rw [hdir] at hagrees
      have hkept : KeptBy a dir₀ s'' := Kept.agrees h hagrees
      exact ⟨hkept, fun e => ⟨⟨e, rfl⟩, hkept⟩⟩
    · have htomls (name : Name) (hname : isToml name = true) :
          s''.dir.lookup name = s.dir.lookup name := by
        rw [hothers name (.inl hname) (ne_manifest hname), hdir]
      refine ⟨⟨.inr hwritten, fun name node hname hnode => ?_, fun name hname hnone => ?_⟩, htomls⟩
      · rw [htomls name hname]
        exact h.old name node hname hnode
      · rw [htomls name hname]
        exact h.new name hname hnone
  · rintro e s' ⟨-, nonce, heq⟩
    cases heq

/-- Where a run may stop: nothing has changed if the manifest is refused. -/
structure Left (a : Assets) (dir₀ dir : Dir) : Prop where
  kept : Kept a dir₀ dir
  refused : (∀ recorded, a.recorded dir₀ ≠ .ok recorded) → Agrees dir₀ dir

theorem wp_ensureSeeded (s : System) :
    (ensureSeeded a pid).wp (fun s' => Left a s.dir s'.dir) (fun r s' => match r with
      | .ok () => (∃ recorded, a.recorded s.dir = .ok recorded) ∧ Seeded a s.dir s'.dir
      | .error (.io _) => True
      | .error (.invalid _) =>
        (∀ recorded, a.recorded s.dir ≠ .ok recorded) ∧ Agrees s.dir s'.dir) s := by
  have hhere : Left a s.dir s.dir := ⟨Agrees.refl.kept, fun _ => Agrees.refl⟩
  have hdir : (mapError PipelineError.io (call createDirAll)).wp (fun s' => Left a s.dir s'.dir)
      (fun r s' => s' = s ∧ (r = .ok () ∨ r = .error (.io .other))) s := by
    refine wp_mapError (wp_call hhere nofun ⟨hhere, rfl, .inl rfl⟩ ?_)
    rintro e s' ⟨rfl, rfl⟩
    exact ⟨hhere, rfl, .inr rfl⟩
  refine wp_andThen hdir ?_ ?_
  · rintro - s₁ ⟨rfl, -⟩
    refine wp_andThen (wp_readSeedManifest hhere) ?_ ?_
    · rintro recorded s₂ ⟨rfl, hrecorded⟩
      have hrecorded : a.recorded s₂.dir = .ok recorded := by
        rcases hrecorded with heq | heq
        · exact heq.symm
        · cases heq
      -- the manifest is accepted, and the rest is about the files
      have hleft (s' : System) (hs' : KeptBy a s₂.dir s') : Left a s₂.dir s'.dir :=
        ⟨hs', fun hrefused => absurd hrecorded (hrefused recorded)⟩
      refine wp_bind (wp_query hhere ?_)
      have hknown : (if (Except.ok (hasToml s₂.dir) : Except ErrorKind Bool) = .ok true
          then recorded.getD LEGACY_BUNDLED else []) = a.known s₂.dir := by
        rw [Assets.known, hrecorded]
        cases hasToml s₂.dir <;> rfl
      simp only [hknown]
      have hstart : AtRefresh a [] s₂.dir s₂.dir := fun _ _ => by simp
      refine wp_mono hleft (fun _ _ hQ => hQ) (wp_andThen
        (wp_refreshUnmodifiedHistoricalDefaults HISTORICAL_BUNDLED hstart (by decide)
          (by decide)) ?_ ?_)
      · intro _ s₃ hs₃
        have hcreate : AtCreate a (a.known s₂.dir) [] s₂.dir s₃.dir := by
          intro name hname
          rw [hs₃ name hname]
          cases hnode : s₂.dir.lookup name with
          | none => simp
          | some node =>
            by_cases hm : name ∈ HISTORICAL_BUNDLED
            · simp [hm]
            · simp [hm, refreshed_of_notMem hm]
        refine wp_andThen (wp_createBundled BUNDLED [] hcreate (by decide)
          (by decide) (by simp)) ?_ ?_
        · rintro created s₄ ⟨hs₄, hcreated⟩
          have hkept : KeptBy a s₂.dir s₄ := hs₄.kept (by simp)
          refine wp_bind (wp_mono (fun _ hK => hK) ?_ (wp_and (wp_writeSeedManifest hkept)))
          rintro (e | ⟨⟩) s₅ ⟨hs₅, hr⟩
          · obtain ⟨⟨kind, rfl⟩, -⟩ := hr
            exact wp_rollBack hs₅ hcreated fun _ _ => trivial
          · refine wp_pure hs₅ ⟨⟨recorded, hrecorded⟩, fun name hname => ?_⟩
            rw [hr name hname, hs₄ name (.inl hname)]
            rfl
        · rintro e s₄ ⟨⟨kind, rfl⟩, -⟩
          trivial
      · rintro e s₃ ⟨⟨kind, rfl⟩, -⟩
        trivial
    · rintro e s₂ ⟨rfl, hrecorded⟩
      cases e with
      | io kind => trivial
      | invalid message =>
        refine ⟨fun recorded hr => ?_, Agrees.refl⟩
        rcases hrecorded with heq | heq
        · rw [hr] at heq
          cases heq
        · cases heq
  · rintro e s' ⟨rfl, heq | heq⟩
    · cases heq
    · rw [Except.error.inj heq]
      trivial

/-! ## Interrupted runs -/

/-- The run is not interrupted by an error of the file system. -/
def Completes : Except PipelineError Unit → Prop
  | .ok () | .error (.invalid _) => True
  | .error (.io _) => False

/-- The two directories have the same pipelines. -/
def SameTomls (dir dir' : Dir) : Prop :=
  ∀ name, isToml name = true → dir.lookup name = dir'.lookup name

/-- What an interrupted run has left of the defaults that were missing: a default that is still
missing is known as before, and one that is there was to be created and is complete, or is a
superseded default, which the next run refreshes. -/
def Resumable (a : Assets) (dir₀ dir : Dir) : Prop :=
  ∀ name ∈ BUNDLED, dir₀.lookup name = none → match dir.lookup name with
    | none => name ∈ a.known dir₀ ↔ name ∈ a.known dir
    | some node => name ∉ a.known dir₀ ∧ a.refreshed name node = .file (a.content name)

instance (a : Assets) (dir₀ dir : Dir) : Decidable (Resumable a dir₀ dir) :=
  have (name : Name) : Decidable (match dir.lookup name with
      | none => name ∈ a.known dir₀ ↔ name ∈ a.known dir
      | some node => name ∉ a.known dir₀ ∧ a.refreshed name node = .file (a.content name)) := by
    cases dir.lookup name <;> dsimp only <;> infer_instance
  inferInstanceAs (Decidable (∀ name ∈ BUNDLED, dir₀.lookup name = none → _))

theorem refreshed_refreshed : a.refreshed name (a.refreshed name node) = a.refreshed name node := by
  cases node with
  | directory => rfl
  | file content =>
    by_cases hm : name ∈ HISTORICAL_BUNDLED ∧ content ∈ a.historical name
    · simp only [Assets.refreshed, hm, true_and, if_true]
      split <;> rfl
    · simp only [Assets.refreshed, hm, if_false]

theorem recorded_manifest (h : dir.lookup SEED_MANIFEST = some (.file a.manifest)) :
    a.recorded dir = .ok (some BUNDLED) := by
  have hvalid : validateManifest currentSeedManifest = .ok BUNDLED := by decide
  simp only [Assets.recorded, h, Assets.parse, Assets.manifest, a.fromSlice_toVecPretty, hvalid]
  rfl

/-- The pipelines after two runs that complete, one of which starts where another has stopped. -/
theorem Left.same_iff {f f' : System} (h : Left a dir₀ dir) (hf : Seeded a dir₀ f.dir)
    (hf' : Seeded a dir f'.dir) : SameTomls f.dir f'.dir ↔ Resumable a dir₀ dir := by
  -- one name at a time
  have hname (name : Name) (hname : isToml name = true) :
      f.dir.lookup name = f'.dir.lookup name ↔
        (name ∈ BUNDLED → dir₀.lookup name = none → match dir.lookup name with
          | none => name ∈ a.known dir₀ ↔ name ∈ a.known dir
          | some node => name ∉ a.known dir₀ ∧ a.refreshed name node = .file (a.content name)) := by
    rw [hf name hname, hf' name hname]
    cases hnode : dir₀.lookup name with
    | some node =>
      refine iff_of_true ?_ (fun _ hnone => absurd hnone nofun)
      rcases h.kept.old name node hname hnode with hsame | hsame <;> rw [hsame]
      show some _ = some _
      rw [refreshed_refreshed]
    | none =>
      rcases h.kept.new name hname hnode with hmissing | ⟨hbundled, content, hthere⟩
      · rw [hmissing]
        by_cases hbundled : name ∈ BUNDLED
        · by_cases hk : name ∈ a.known dir₀
          · by_cases hk' : name ∈ a.known dir
            · simp [hk, hk']
            · simp [hbundled, hk, hk']
          · by_cases hk' : name ∈ a.known dir
            · simp [hbundled, hk, hk']
            · simp [hk, hk']
        · simp [hbundled]
      · rw [hthere]
        by_cases hk : name ∈ a.known dir₀
        · simp [hbundled, hk]
        · simp [hbundled, hk, eq_comm]
  constructor
  · intro hsame name hbundled
    exact (hname name (isToml_of_mem hbundled)).1 (hsame name (isToml_of_mem hbundled)) hbundled
  · intro hresumable name htoml
    exact (hname name htoml).2 fun hbundled => hresumable name hbundled

/-- Where a run was interrupted at any point, by a crash or an error, the next run that completes
leaves the same pipelines as an uninterrupted one exactly if the interrupted run can be resumed.
Each run may be of another process, with its own number and its own counter. -/
theorem crash_consistent_iff (a : Assets) (pid pid₁ pid₂ counter₁ counter₂ : ℕ)
    {s s' f f' : System} {r r' : Except PipelineError Unit}
    (hcrash : (ensureSeeded a pid).Crashes s s')
    (hrun : (ensureSeeded a pid₁).Ends ⟨s.dir, counter₁⟩ r f) (hr : Completes r)
    (hagain : (ensureSeeded a pid₂).Ends ⟨s'.dir, counter₂⟩ r' f') (hr' : Completes r') :
    SameTomls f.dir f'.dir ↔ Resumable a s.dir s'.dir := by
  have hleft := (wp_sound (wp_ensureSeeded s)).2 s' hcrash
  have hend := (wp_sound (wp_ensureSeeded ⟨s.dir, counter₁⟩)).1 r f hrun
  have hend' := (wp_sound (wp_ensureSeeded ⟨s'.dir, counter₂⟩)).1 r' f' hagain
  cases r with
  | ok _ =>
    obtain ⟨hrecorded, hseeded⟩ := hend
    cases r' with
    | ok _ => exact hleft.same_iff hseeded hend'.2
    | error e =>
      cases e with
      | io kind => exact absurd hr' id
      | invalid message =>
        -- the manifest is the one that was accepted, or a new one
        exfalso
        rcases hleft.kept.manifest with hsame | hnew
        · obtain ⟨recorded, hrecorded⟩ := hrecorded
          refine hend'.1 recorded ?_
          rw [Assets.recorded, hsame]
          exact hrecorded
        · exact hend'.1 _ (recorded_manifest hnew)
  | error e =>
    cases e with
    | io kind => exact absurd hr id
    | invalid message =>
      obtain ⟨hrefused, hagrees⟩ := hend
      have hagrees' := hleft.refused hrefused
      cases r' with
      | ok _ =>
        obtain ⟨⟨recorded, hrecorded⟩, -⟩ := hend'
        rw [hagrees'.recorded_eq] at hrecorded
        exact absurd hrecorded (hrefused recorded)
      | error e =>
        cases e with
        | io kind => exact absurd hr' id
        | invalid message' =>
          refine iff_of_true (fun name hname => ?_) fun name hbundled hnone => ?_
          · have hplain : Plain name := .inl hname
            rw [hagrees name hplain, hend'.2 name hplain, hagrees' name hplain]
          · rw [hagrees' name (.inl (isToml_of_mem hbundled)), hnone, hagrees'.known_eq]

def sampleAssets : Assets where
  content name := name.map fun c => UInt8.ofNat c.toNat
  historical _ := []
  fromSlice raw := if raw = [123, 125, 10] then .ok currentSeedManifest else .error "expected value"
  toVecPretty _ := [123, 125]
  display := "pipelines/.bundled-pipelines.json"
  fromSlice_toVecPretty := rfl

/-- A directory with a pipeline of the user, for which the older defaults are known. -/
def userDir : Dir := (∅ : Dir).insert "user.toml".toList (.file [])

/-- A crash after the only unknown default was written, and with the file of the manifest created
under its temporary name. -/
theorem resumed_seed : ∃ s' f f', (ensureSeeded sampleAssets 1).Crashes ⟨userDir, 5⟩ s' ∧
    s'.dir.lookup "parallel-subagents.toml".toList =
      some (.file (sampleAssets.content "parallel-subagents.toml".toList)) ∧
    (s'.dir.lookup ".bundled-pipelines.json.tmp-1-5".toList).isSome = true ∧
    s'.dir.lookup SEED_MANIFEST = none ∧
    (ensureSeeded sampleAssets 1).Ends ⟨userDir, 5⟩ (.ok ()) f ∧
    (ensureSeeded sampleAssets 2).Ends ⟨s'.dir, 0⟩ (.ok ()) f' ∧ SameTomls f.dir f'.dir := by
  have hcrash := crashes_runFor 11 (ensureSeeded sampleAssets 1) ⟨userDir, 5⟩
  have hleft : let dir := ((ensureSeeded sampleAssets 1).runFor 11 ⟨userDir, 5⟩).dir
      dir.lookup "parallel-subagents.toml".toList =
        some (.file (sampleAssets.content "parallel-subagents.toml".toList)) ∧
      (dir.lookup ".bundled-pipelines.json.tmp-1-5".toList).isSome = true ∧
      dir.lookup SEED_MANIFEST = none ∧ Resumable sampleAssets userDir dir ∧
      ((ensureSeeded sampleAssets 1).run ⟨userDir, 5⟩).1 = .ok () ∧
      ((ensureSeeded sampleAssets 2).run ⟨dir, 0⟩).1 = .ok () := by
    decide +kernel
  generalize (ensureSeeded sampleAssets 1).runFor 11 ⟨userDir, 5⟩ = s' at hcrash hleft
  obtain ⟨hwritten, htemp, hmanifest, hresumable, hok, hok'⟩ := hleft
  have hrun := ends_run (ensureSeeded sampleAssets 1) ⟨userDir, 5⟩
  have hagain := ends_run (ensureSeeded sampleAssets 2) ⟨s'.dir, 0⟩
  rw [hok] at hrun
  rw [hok'] at hagain
  exact ⟨s', _, _, hcrash, hwritten, htemp, hmanifest, hrun, hagain,
    (crash_consistent_iff sampleAssets 1 1 2 5 0 hcrash hrun trivial hagain trivial).2 hresumable⟩

/-- A crash after the first default was created and before it is written: it stays empty, and of
the others only the last is created. -/
theorem interrupted_seed : ∃ s s' f f', (ensureSeeded sampleAssets 1).Crashes s s' ∧
    (ensureSeeded sampleAssets 1).Ends s (.ok ()) f ∧
    (ensureSeeded sampleAssets 2).Ends ⟨s'.dir, 0⟩ (.ok ()) f' ∧
    f'.dir.lookup "basic.toml".toList = some (.file []) ∧
    f'.dir.lookup "wikillm.toml".toList = none ∧ ¬ SameTomls f.dir f'.dir := by
  have hrun := ends_run (ensureSeeded sampleAssets 1) ⟨∅, 0⟩
  have hcrash := crashes_runFor 8 (ensureSeeded sampleAssets 1) ⟨∅, 0⟩
  have hagain := ends_run (ensureSeeded sampleAssets 2)
    ⟨((ensureSeeded sampleAssets 1).runFor 8 ⟨∅, 0⟩).dir, 0⟩
  have hok : ((ensureSeeded sampleAssets 1).run ⟨∅, 0⟩).1 = .ok () := by decide +kernel
  have hok' : ((ensureSeeded sampleAssets 2).run
      ⟨((ensureSeeded sampleAssets 1).runFor 8 ⟨∅, 0⟩).dir, 0⟩).1 = .ok () := by decide +kernel
  rw [hok] at hrun
  rw [hok'] at hagain
  have hwikillm : ((ensureSeeded sampleAssets 2).run ⟨((ensureSeeded sampleAssets 1).runFor 8
      ⟨∅, 0⟩).dir, 0⟩).2.dir.lookup "wikillm.toml".toList = none := by decide +kernel
  refine ⟨_, _, _, _, hcrash, hrun, hagain, by decide +kernel, hwikillm, fun hsame => ?_⟩
  have hcreated : (((ensureSeeded sampleAssets 1).run ⟨∅, 0⟩).2.dir.lookup
      "wikillm.toml".toList).isSome = true := by decide +kernel
  rw [hsame _ (by decide), hwikillm] at hcreated
  cases hcreated

end VibeKanban.Pipelines
