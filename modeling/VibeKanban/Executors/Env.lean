import VibeKanban.Lib.Firsts
import VibeKanban.Lib.Paths

/-!
# The PATH of an agent

`executors/src/env.rs` with `utils/src/shell.rs` and `utils/src/github_auth.rs`, built for Unix.

* `withProfile_path`: the directory of the `gh` shim, then the entries of the profile, then what
  else the runtime has.
-/

namespace VibeKanban.Executors

open List Lib.Firsts Lib.Paths

abbrev Text := List Char

/-- The variables of an `ExecutionEnv`. -/
abbrev Vars := String → Option Text

structure CmdOverrides where
  env : Option Vars

def AGENT_PATH_ENV := "VK_AGENT_PATH"

/-- What a `PathBuf` is compared by. -/
def key (path : Text) : List (Component Char) := components ⟨'/', '.'⟩ path

/-- `Path::join` with a relative path. -/
def join (dir name : Text) : Text :=
  if dir = [] ∨ dir.getLast? = some '/' then dir ++ name else dir ++ '/' :: name

/-- `github_auth_bin_dir`; the asset directory depends on the host. -/
def githubAuthBinDir (assetDir : Text) : Text :=
  join (join assetDir "github-auth".toList) "bin".toList

def splitPaths (path : Text) : List Text := path.splitOn ':'

/-- `join_paths`: an entry must not hold the separator. -/
def joinPaths (entries : List Text) : Option Text :=
  if ∃ entry ∈ entries, ':' ∈ entry then none else some ([':'].intercalate entries)

def entries (path : Text) : List Text := (splitPaths path).filter (· ≠ [])

/-- `merge_paths` (shell.rs, lines 83-94). -/
def mergePaths (primary secondary : Text) : Text :=
  (joinPaths ((entries primary ++ entries secondary).foldl (pushNew key) [])).getD []

/-- `preserve_shim_precedence` (github_auth.rs, lines 143-153). -/
def preserveShimPrecedence (assetDir path runtimePath : Text) : Text :=
  let shimDir := githubAuthBinDir assetDir
  if ∃ entry ∈ splitPaths runtimePath, key entry = key shimDir then mergePaths shimDir path
  else path

def envPath (env : Vars) : Option Text := env "PATH"

def merge (vars other : Vars) : Vars := fun name => (other name).or (vars name)

def insert (vars : Vars) (name : String) (value : Text) : Vars :=
  Function.update vars name (some value)

/-- `with_profile` (env.rs, lines 197-232). -/
def withProfile (assetDir : Text) (vars : Vars) (cmd : CmdOverrides) : Vars :=
  match cmd.env with
  | none => vars
  | some profileEnv =>
    let merged := merge vars profileEnv
    let vars' := match envPath profileEnv, envPath vars with
      | none, _ => merged
      | some profilePath, some runtimePath => insert merged "PATH"
          (preserveShimPrecedence assetDir (mergePaths profilePath runtimePath) runtimePath)
      | some profilePath, none => insert merged "PATH" profilePath
    match vars' AGENT_PATH_ENV, envPath vars' with
    | some _, some path => insert vars' AGENT_PATH_ENV path
    | _, _ => vars'

/-! ## Entries -/

variable {assetDir p r path entry : Text} {l : List Text}

def HasShim (assetDir path : Text) : Prop :=
  ∃ entry ∈ entries path, key entry = key (githubAuthBinDir assetDir)
  deriving Decidable

theorem not_mem_of_mem_splitPaths (h : entry ∈ splitPaths path) : ':' ∉ entry := by
  unfold splitPaths at h
  induction path generalizing entry with
  | nil =>
    rw [splitOn_nil, mem_singleton] at h
    simp [h]
  | cons c path ih =>
    obtain ⟨part, parts, hparts⟩ := exists_cons_of_ne_nil (splitOn_ne_nil ':' path)
    rw [hparts] at ih
    rw [splitOn_cons_eq_if_modifyHead, hparts] at h
    by_cases hc : c = ':'
    · rw [if_pos (by simpa using hc), mem_cons] at h
      rcases h with rfl | h
      · exact not_mem_nil
      · exact ih h
    · rw [if_neg (by simpa using hc), modifyHead_cons, mem_cons] at h
      rcases h with rfl | h
      · exact fun hmem => (mem_cons.1 hmem).elim (fun h => hc h.symm) (ih mem_cons_self)
      · exact ih (mem_cons_of_mem _ h)

/-- Entries that a PATH can hold. -/
def Plain (l : List Text) : Prop := ∀ entry ∈ l, entry ≠ [] ∧ ':' ∉ entry

theorem plain_entries (path : Text) : Plain (entries path) := by
  intro entry h
  obtain ⟨hmem, hne⟩ := mem_filter.1 h
  exact ⟨by simpa using hne, not_mem_of_mem_splitPaths hmem⟩

theorem Plain.foldl {xs : List Text} (hl : Plain l) (hxs : Plain xs) :
    Plain (xs.foldl (pushNew key) l) := by
  obtain ⟨new, hsub, heq⟩ := exists_sublist key xs l
  rw [heq]
  intro entry h
  exact (mem_append.1 h).elim (hl entry) fun h => hxs entry (hsub.subset h)

theorem Plain.entries_intercalate (h : Plain l) : entries ([':'].intercalate l) = l := by
  by_cases hl : l = []
  · subst hl
    rfl
  · rw [entries, splitPaths, splitOn_intercalate ':' (fun entry he => (h entry he).2) hl]
    exact filter_eq_self.2 fun entry he => by simpa using (h entry he).1

theorem Plain.joinPaths (h : Plain l) : joinPaths l = some ([':'].intercalate l) :=
  if_neg fun ⟨entry, hmem, hcolon⟩ => (h entry hmem).2 hcolon

theorem plain_append (p r : Text) : Plain (entries p ++ entries r) :=
  fun entry h => (mem_append.1 h).elim (plain_entries p entry) (plain_entries r entry)

theorem mergePaths_eq (p r : Text) :
    mergePaths p r = [':'].intercalate ((entries p ++ entries r).foldl (pushNew key) []) := by
  have hplain : Plain ((entries p ++ entries r).foldl (pushNew key) []) :=
    Plain.foldl (fun _ h => nomatch h) (plain_append p r)
  rw [mergePaths, hplain.joinPaths, Option.getD_some]

/-! ## The shim -/

theorem mem_iff_key {c : Char} (hslash : c ≠ '/') (hdot : c ≠ '.') :
    c ∈ path ↔ ∃ part, .normal part ∈ key path ∧ c ∈ part :=
  mem_iff_normal hslash hdot

theorem bin_mem : 'b' ∈ githubAuthBinDir assetDir := by
  unfold githubAuthBinDir join
  split_ifs <;> simp

theorem key_shim_ne : key (githubAuthBinDir assetDir) ≠ key [] := by
  intro h
  obtain ⟨part, hpart, -⟩ :=
    (mem_iff_key (by decide) (by decide)).1 (bin_mem : 'b' ∈ githubAuthBinDir assetDir)
  rw [h] at hpart
  exact not_mem_nil hpart

theorem hasShim_iff : HasShim assetDir path ↔
    ∃ entry ∈ splitPaths path, key entry = key (githubAuthBinDir assetDir) := by
  constructor
  · rintro ⟨entry, hmem, hkey⟩
    exact ⟨entry, mem_of_mem_filter hmem, hkey⟩
  · rintro ⟨entry, hmem, hkey⟩
    refine ⟨entry, mem_filter.2 ⟨hmem, ?_⟩, hkey⟩
    simp only [decide_eq_true_eq]
    rintro rfl
    exact key_shim_ne hkey.symm

theorem HasShim.entries_shim (h : HasShim assetDir path) :
    entries (githubAuthBinDir assetDir) = [githubAuthBinDir assetDir] := by
  obtain ⟨entry, hmem, hkey⟩ := h
  have hcolon : ':' ∉ githubAuthBinDir assetDir := by
    intro hc
    obtain ⟨part, hpart, hc⟩ := (mem_iff_key (by decide) (by decide)).1 hc
    rw [← hkey] at hpart
    exact (plain_entries path entry hmem).2
      ((mem_iff_key (by decide) (by decide)).2 ⟨part, hpart, hc⟩)
  rw [entries, splitPaths, splitOn_eq_singleton hcolon]
  exact filter_eq_self.2 fun x hx => by
    rw [mem_singleton.1 hx]
    simpa using ne_nil_of_mem bin_mem

/-- The shim directory, when it stays in front. -/
def front (assetDir r : Text) : List Text :=
  if HasShim assetDir r then [githubAuthBinDir assetDir] else []

/-- The entries of the merged PATH. -/
def composed (assetDir p r : Text) : List Text :=
  (entries p ++ entries r).foldl (pushNew key) (front assetDir r)

theorem plain_composed : Plain (composed assetDir p r) := by
  refine Plain.foldl ?_ (plain_append p r)
  unfold front
  split_ifs with h
  · exact h.entries_shim ▸ plain_entries _
  · exact fun _ h => nomatch h

theorem preserveShimPrecedence_eq :
    preserveShimPrecedence assetDir (mergePaths p r) r =
      [':'].intercalate (composed assetDir p r) := by
  have hplain : Plain ((entries p ++ entries r).foldl (pushNew key) []) :=
    Plain.foldl (fun _ h => by cases h) (plain_append p r)
  unfold preserveShimPrecedence composed front
  simp only [← hasShim_iff]
  split_ifs with h
  · rw [mergePaths_eq, mergePaths_eq, hplain.entries_intercalate, h.entries_shim, foldl_append,
      foldl_cons, foldl_nil]
    exact congrArg _ (foldl_foldl fun _ h => by cases h)
  · exact mergePaths_eq p r

/-! ## The composition -/

theorem hasShim_composed : HasShim assetDir ([':'].intercalate (composed assetDir p r)) ↔
    HasShim assetDir p ∨ HasShim assetDir r := by
  have hfront : key (githubAuthBinDir assetDir) ∈ (front assetDir r).map key ↔
      HasShim assetDir r := by
    unfold front
    split_ifs with h <;> simp [h]
  unfold HasShim at hfront ⊢
  rw [plain_composed.entries_intercalate, ← mem_map, composed, mem_map_foldl, hfront, map_append,
    mem_append, mem_map, mem_map, or_comm, or_assoc, or_self]

theorem composed_composed (h : HasShim assetDir r ∨ ¬ HasShim assetDir p) :
    composed assetDir p ([':'].intercalate (composed assetDir p r)) = composed assetDir p r := by
  have hfront : front assetDir ([':'].intercalate (composed assetDir p r)) = front assetDir r :=
    if_congr (hasShim_composed.trans (by tauto)) rfl rfl
  rw [composed, plain_composed.entries_intercalate, hfront, foldl_append]
  conv_rhs => rw [composed, foldl_append]
  rw [composed, foldl_append]
  exact foldl_foldl fun _ h => mem_map_of_mem h

/-- No entry of the PATH is empty, stands twice or is the shim directory. -/
def Tidy (assetDir p : Text) : Prop :=
  [':'].intercalate (entries p) = p ∧ ((entries p).map key).Nodup ∧ ¬ HasShim assetDir p

theorem Tidy.composed_self (h : Tidy assetDir p) :
    [':'].intercalate (composed assetDir p p) = p := by
  obtain ⟨hpath, honce, hshim⟩ := h
  have hfirst : (entries p).foldl (pushNew key) [] = entries p := foldl_of_nodup honce
  rw [composed, front, if_neg hshim, foldl_append, hfirst,
    foldl_of_subset fun _ => mem_map_of_mem, hpath]

/-- What becomes of the entries of a profile's PATH and of those of the runtime's. -/
structure Composed (assetDir p r path : Text) : Prop where
  order : ∃ profile runtime, profile <+ entries p ∧ runtime <+ entries r ∧
    (∀ entry ∈ entries p, key entry ∈ (front assetDir r ++ profile).map key) ∧
    entries path = front assetDir r ++ profile ++ runtime
  once : ((entries path).map key).Nodup
  covers : ∀ k, k ∈ (entries path).map key ↔ k ∈ (entries p).map key ∨ k ∈ (entries r).map key

theorem composed_spec (assetDir p r : Text) :
    Composed assetDir p r ([':'].intercalate (composed assetDir p r)) where
  order := by
    obtain ⟨profile, hp, hprofile⟩ := exists_sublist key (entries p) (front assetDir r)
    obtain ⟨runtime, hr, hruntime⟩ := exists_sublist key (entries r) (front assetDir r ++ profile)
    refine ⟨profile, runtime, hp, hr, fun entry hentry => ?_, ?_⟩
    · rw [← hprofile]
      exact mem_map_foldl.2 (.inr (mem_map_of_mem hentry))
    · rw [plain_composed.entries_intercalate, composed, foldl_append, hprofile, hruntime]
  once := by
    rw [plain_composed.entries_intercalate]
    refine nodup_foldl ?_
    unfold front
    split_ifs <;> simp
  covers k := by
    have hfront : k ∈ (front assetDir r).map key → k ∈ (entries r).map key := by
      unfold front
      split_ifs with h
      · obtain ⟨entry, hmem, hkey⟩ := h
        intro hk
        rw [map_singleton, mem_singleton] at hk
        exact mem_map.2 ⟨entry, hmem, hkey.trans hk.symm⟩
      · exact fun h => nomatch h
    rw [plain_composed.entries_intercalate, composed, mem_map_foldl, map_append, mem_append]
    tauto

/-! ## The environment -/

variable {vars profileEnv : Vars}

/-- The PATH after `with_profile`. -/
def effectivePath (assetDir : Text) : Option Text → Option Text → Option Text
  | some p, some r => some ([':'].intercalate (composed assetDir p r))
  | some p, none => some p
  | none, r => r

/-- What a second application of the profile's PATH `p` leaves as it is. -/
def Settles (assetDir p : Text) : Option Text → Prop
  | some r => HasShim assetDir r ∨ ¬ HasShim assetDir p
  | none => Tidy assetDir p

theorem effectivePath_effectivePath {p r : Option Text}
    (h : ∀ p', p = some p' → Settles assetDir p' r) :
    effectivePath assetDir p (effectivePath assetDir p r) = effectivePath assetDir p r := by
  rcases p with _ | p
  · rfl
  · rcases r with _ | r
    · exact congrArg some (h p rfl).composed_self
    · exact congrArg (fun l => some ([':'].intercalate l)) (composed_composed (h p rfl))

theorem withProfile_eq (assetDir : Text) (vars profileEnv : Vars) (name : String) :
    withProfile assetDir vars ⟨some profileEnv⟩ name =
      if name = "PATH" then effectivePath assetDir (profileEnv "PATH") (vars "PATH")
      else if name = AGENT_PATH_ENV then ((profileEnv name).or (vars name)).map fun agentPath =>
        (effectivePath assetDir (profileEnv "PATH") (vars "PATH")).getD agentPath
      else (profileEnv name).or (vars name) := by
  have hne : AGENT_PATH_ENV ≠ "PATH" := by decide
  unfold withProfile envPath
  -- the variables before the copy of the PATH
  generalize hvars : (match profileEnv "PATH", vars "PATH" with
    | none, _ => merge vars profileEnv
    | some profilePath, some runtimePath => insert (merge vars profileEnv) "PATH"
        (preserveShimPrecedence assetDir (mergePaths profilePath runtimePath) runtimePath)
    | some profilePath, none => insert (merge vars profileEnv) "PATH" profilePath) = vars'
  have hvars' : ∀ name, vars' name =
      if name = "PATH" then effectivePath assetDir (profileEnv "PATH") (vars "PATH")
      else (profileEnv name).or (vars name) := by
    intro name
    subst hvars
    unfold effectivePath
    rcases hp : profileEnv "PATH" with _ | p <;> rcases hr : vars "PATH" with _ | r <;>
      by_cases hname : name = "PATH" <;>
      simp [insert, merge, hname, hp, hr, preserveShimPrecedence_eq]
  simp only [hvars, hvars' "PATH", hvars' AGENT_PATH_ENV, if_neg hne, if_true]
  rcases hagent : (profileEnv AGENT_PATH_ENV).or (vars AGENT_PATH_ENV) with _ | agentPath <;>
    rcases hpath : effectivePath assetDir (profileEnv "PATH") (vars "PATH") with _ | path <;>
    by_cases hname : name = "PATH" <;> by_cases hname' : name = AGENT_PATH_ENV <;>
    simp [insert, hvars', hagent, hpath, hname, hname', hne, hne.symm]

/-- The PATH of an agent, whatever the runtime and the profile give it. -/
theorem withProfile_path (assetDir : Text) (vars profileEnv : Vars) :
    let env := withProfile assetDir vars ⟨some profileEnv⟩
    (∀ p r, profileEnv "PATH" = some p → vars "PATH" = some r →
      ∃ path, env "PATH" = some path ∧ Composed assetDir p r path) ∧
    (profileEnv "PATH" = none → env "PATH" = vars "PATH") ∧
    (vars "PATH" = none → env "PATH" = profileEnv "PATH") ∧
    (∀ path, env "PATH" = some path → env AGENT_PATH_ENV ≠ none → env AGENT_PATH_ENV = some path) ∧
    ((∀ p, profileEnv "PATH" = some p → Settles assetDir p (vars "PATH")) →
      withProfile assetDir env ⟨some profileEnv⟩ = env) ∧
    withProfile assetDir (withProfile assetDir env ⟨some profileEnv⟩) ⟨some profileEnv⟩ =
      withProfile assetDir env ⟨some profileEnv⟩ := by
  have hpath : ∀ vars : Vars, withProfile assetDir vars ⟨some profileEnv⟩ "PATH" =
      effectivePath assetDir (profileEnv "PATH") (vars "PATH") :=
    fun vars => withProfile_eq assetDir vars profileEnv "PATH"
  -- a second application changes nothing when it keeps the PATH
  have hsame : ∀ vars : Vars,
      effectivePath assetDir (profileEnv "PATH")
          (effectivePath assetDir (profileEnv "PATH") (vars "PATH")) =
        effectivePath assetDir (profileEnv "PATH") (vars "PATH") →
      withProfile assetDir (withProfile assetDir vars ⟨some profileEnv⟩) ⟨some profileEnv⟩ =
        withProfile assetDir vars ⟨some profileEnv⟩ := by
    intro vars heq
    funext name
    rw [withProfile_eq, hpath, heq, withProfile_eq assetDir vars profileEnv name]
    split_ifs with h1 h2
    · rfl
    · cases profileEnv name <;> cases vars name <;>
        cases effectivePath assetDir (profileEnv "PATH") (vars "PATH") <;> rfl
    · cases profileEnv name <;> rfl
  refine ⟨?_, ?_, ?_, ?_, ?_, ?_⟩
  · intro p r hp hr
    exact ⟨_, by rw [hpath, hp, hr]; rfl, composed_spec assetDir p r⟩
  · intro hp
    rw [hpath, hp]
    rfl
  · intro hr
    rw [hpath, hr]
    cases profileEnv "PATH" <;> rfl
  · intro path heq hagent
    rw [hpath] at heq
    rw [withProfile_eq, if_neg (by decide), if_pos rfl, heq] at hagent ⊢
    cases h : (profileEnv AGENT_PATH_ENV).or (vars AGENT_PATH_ENV) with
    | none => exact absurd (congrArg _ h) hagent
    | some agentPath => rfl
  · exact fun h => hsame vars (effectivePath_effectivePath h)
  · refine hsame _ (effectivePath_effectivePath ?_)
    rintro p hp
    rw [hpath, hp]
    rcases hr : vars "PATH" with _ | r
    · exact em _
    · show HasShim _ _ ∨ _
      rw [hasShim_composed]
      tauto

/-- Repeated entries of a profile's PATH stay where the runtime has no PATH. -/
theorem repeats_stay : let vars : Vars := fun _ => none
    let cmd : CmdOverrides := ⟨some (insert vars "PATH" "/a:/a".toList)⟩
    let env := withProfile [] vars cmd
    (env "PATH").map splitPaths = some ["/a".toList, "/a".toList] ∧
    withProfile [] env cmd ≠ env := by
  refine ⟨by decide, fun h => ?_⟩
  exact absurd (congrFun h "PATH") (by decide)

end VibeKanban.Executors
