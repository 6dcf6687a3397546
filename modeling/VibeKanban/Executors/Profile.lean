import Mathlib

/-!
# Executor profiles (`executors/profile.rs`)

Results:

* `restore_eq_iff`: when the overrides of a profile bring it back. Nothing (no recent models, no
  disabled models, not disabled) cannot be told from no override.
* `canonicalised_perm_iff`: when the order of the hash map does not matter for the variant keys.
-/

namespace VibeKanban.Executors

open Std ExtHashMap List Option

/-! ## Model -/

structure ExecutorRecentModels where
  models : List String
  reasoningByModel : ExtHashMap String String
  deriving DecidableEq

structure ExecutorProfile (CodingAgent : Type) where
  recentlyUsedModels : Option ExecutorRecentModels
  disabledModels : List String
  disabled : Bool
  configurations : ExtHashMap String CodingAgent

/-- The hash map `executors`. -/
abbrev ExecutorConfigs (BaseCodingAgent CodingAgent : Type) :=
  BaseCodingAgent → Option (ExecutorProfile CodingAgent)

inductive ProfileError (BaseCodingAgent : Type) where
  | cannotDeleteExecutor (executor : BaseCodingAgent)
  | cannotDeleteBuiltInConfig (executor : BaseCodingAgent) (variant : String)

def eqIgnoreAsciiCase (a b : String) : Bool :=
  a.toList.map Char.toUpper = b.toList.map Char.toUpper

/-- `canonical_variant_key`; `toScreamingSnake` is the conversion of `convert_case`, to snake case
and from there to screaming snake case. -/
def canonicalVariantKey (toScreamingSnake : String → String) (key : String) : String :=
  if eqIgnoreAsciiCase key "DEFAULT" then "DEFAULT" else toScreamingSnake key

section

variable {BaseCodingAgent CodingAgent : Type}

/-- The body of the second loop of `canonicalise`. -/
def replaceKey (configurations : ExtHashMap String CodingAgent) (replacement : String × String) :
    ExtHashMap String CodingAgent :=
  match configurations[replacement.1]? with
  | some cfg => (configurations.erase replacement.1).insertIfNew replacement.2 cfg
  | none => configurations

/-- The loops of `canonicalise`, where the hash map lists its keys in `order`. -/
def canonicalised (canonical : String → String) (order : List String)
    (configurations : ExtHashMap String CodingAgent) : ExtHashMap String CodingAgent :=
  ((order.map fun key => (key, canonical key)).filter fun r => r.2 ≠ r.1).foldl replaceKey
    configurations

/-- `canonicalise`, where the hash maps list their keys in `order`. -/
def canonicalise (canonical : String → String) (order : BaseCodingAgent → List String)
    (configs : ExecutorConfigs BaseCodingAgent CodingAgent) :
    ExecutorConfigs BaseCodingAgent CodingAgent := fun executor =>
  (configs executor).map fun profile =>
    { profile with
      configurations := canonicalised canonical (order executor) profile.configurations }

/-- The merge of one profile (lines 349-361). -/
def ExecutorProfile.merge (default override : ExecutorProfile CodingAgent) :
    ExecutorProfile CodingAgent where
  configurations := default.configurations ∪ override.configurations
  recentlyUsedModels :=
    if override.recentlyUsedModels.isSome then override.recentlyUsedModels
    else default.recentlyUsedModels
  disabledModels :=
    if override.disabledModels ≠ [] then override.disabledModels else default.disabledModels
  disabled := if override.disabled then true else default.disabled

/-- `merge_with_defaults` (lines 344-371). -/
def mergeWithDefaults (defaults overrides : ExecutorConfigs BaseCodingAgent CodingAgent) :
    ExecutorConfigs BaseCodingAgent CodingAgent := fun executor =>
  match overrides executor, defaults executor with
  | some override, some default => some (default.merge override)
  | some override, none => some override
  | none, default => default

/-- The scan for illegal deletions (lines 380-399), where the defaults list their executors and
their variants in `order`. -/
def checkDeletions (order : List (BaseCodingAgent × List String))
    (current : ExecutorConfigs BaseCodingAgent CodingAgent) :
    Except (ProfileError BaseCodingAgent) Unit :=
  order.forM fun (executor, variants) =>
    match current executor with
    | none => .error (.cannotDeleteExecutor executor)
    | some profile => variants.forM fun name =>
      if name ∈ profile.configurations then .ok ()
      else .error (.cannotDeleteBuiltInConfig executor name)

variable [DecidableEq CodingAgent]

/-- `override_profile` (lines 402-438). -/
def ExecutorProfile.override (default current : ExecutorProfile CodingAgent) :
    ExecutorProfile CodingAgent where
  configurations :=
    current.configurations.filter fun name config => default.configurations[name]? ≠ some config
  recentlyUsedModels :=
    if current.recentlyUsedModels ≠ default.recentlyUsedModels then
      current.recentlyUsedModels.or (some ⟨[], ∅⟩)
    else none
  disabledModels :=
    if current.disabledModels ≠ default.disabledModels then current.disabledModels else []
  disabled := if current.disabled ≠ default.disabled then current.disabled else false

/-- The override that is written (lines 440-446). -/
def ExecutorProfile.override? (default current : ExecutorProfile CodingAgent) :
    Option (ExecutorProfile CodingAgent) :=
  let o := default.override current
  if !o.configurations.isEmpty || o.recentlyUsedModels.isSome || o.disabledModels ≠ [] ||
      o.disabled then some o
  else none

/-- `compute_overrides` (lines 374-457). -/
def computeOverrides (order : List (BaseCodingAgent × List String))
    (defaults current : ExecutorConfigs BaseCodingAgent CodingAgent) :
    Except (ProfileError BaseCodingAgent) (ExecutorConfigs BaseCodingAgent CodingAgent) := do
  checkDeletions order current
  return fun executor =>
    match current executor, defaults executor with
    | some profile, some default => default.override? profile
    | profile, none => profile
    | none, some _ => none

/-! ## Overrides -/

/-- The keys of a hash map, in the order of an iteration. -/
def Lists (keys : List String) (configurations : ExtHashMap String CodingAgent) : Prop :=
  keys.Nodup ∧ ∀ key, key ∈ keys ↔ key ∈ configurations

def Scans (order : List (BaseCodingAgent × List String))
    (defaults : ExecutorConfigs BaseCodingAgent CodingAgent) : Prop :=
  (order.map Prod.fst).Nodup ∧ (∀ executor, executor ∈ order.map Prod.fst ↔
    (defaults executor).isSome) ∧ ∀ entry ∈ order, ∀ default, defaults entry.1 = some default →
      Lists entry.2 default.configurations

def Covers (current defaults : ExecutorConfigs BaseCodingAgent CodingAgent) : Prop :=
  ∀ executor default, defaults executor = some default → ∃ profile,
    current executor = some profile ∧ ∀ name ∈ default.configurations, name ∈ profile.configurations

/-- Nothing is set back to nothing. -/
def Sticky (default current : ExecutorProfile CodingAgent) : Prop :=
  (current.recentlyUsedModels = none → default.recentlyUsedModels = none) ∧
    (current.disabledModels = [] → default.disabledModels = []) ∧
    (current.disabled = false → default.disabled = false)

/-- What is loaded for a profile that was saved. -/
def restore (default current : ExecutorProfile CodingAgent) : ExecutorProfile CodingAgent :=
  ((default.override? current).map default.merge).getD default

theorem forM_eq_ok {ε α : Type} {l : List α} {f : α → Except ε Unit} (h : ∀ a ∈ l, f a = .ok ()) :
    l.forM f = .ok () := by
  induction l with
  | nil => rfl
  | cons a l ih =>
    obtain ⟨ha, hl⟩ := forall_mem_cons.1 h
    show (f a >>= fun _ => l.forM f) = _
    rw [ha]
    exact ih hl

variable {default current : ExecutorProfile CodingAgent}

theorem restore_eq_merge : restore default current = default.merge (default.override current) := by
  rw [restore, ExecutorProfile.override?]
  split_ifs with hwritten
  · rfl
  · simp only [Bool.or_eq_true, not_or, Bool.not_eq_true', Bool.not_eq_false, decide_eq_true_eq,
      not_not, ExtHashMap.isEmpty_iff, Bool.not_eq_true] at hwritten
    obtain ⟨⟨⟨hconfigurations, hrecent⟩, hmodels⟩, hdisabled⟩ := hwritten
    have hunion : default.configurations ∪ ∅ = default.configurations :=
      ext_getElem? fun name => by simp [getElem?_union]
    simp [ExecutorProfile.merge, hconfigurations, hrecent, hmodels, hdisabled, hunion]

/-- The overrides bring a profile back, unless they would have to set something back to nothing. -/
theorem restore_eq_iff (h : ∀ name ∈ default.configurations, name ∈ current.configurations) :
    restore default current = current ↔ Sticky default current := by
  have hconfigurations : default.configurations ∪ (default.override current).configurations =
      current.configurations := by
    refine ext_getElem? fun name => ?_
    rw [getElem?_union, ExecutorProfile.override, ExtHashMap.getElem?_filter']
    have hname := h name
    rw [mem_iff_isSome_getElem?, mem_iff_isSome_getElem?] at hname
    cases hcurrent : current.configurations[name]? with
    | none =>
      rw [hcurrent] at hname
      simpa using hname
    | some config =>
      by_cases heq : default.configurations[name]? = some config <;> simp [heq, Option.filter]
  rw [restore_eq_merge, ExecutorProfile.merge, hconfigurations]
  obtain ⟨recent, models, disabled, configurations⟩ := current
  simp only [ExecutorProfile.override, ExecutorProfile.mk.injEq, and_true, Sticky]
  refine and_congr ?_ (and_congr ?_ ?_)
  · by_cases heq : recent = default.recentlyUsedModels
    · simp [heq]
    · have hne := Ne.symm heq
      cases recent <;> simp [heq, hne]
  · by_cases heq : models = default.disabledModels
    · simp [heq]
    · by_cases hnil : models = [] <;> simp [heq, hnil, eq_comm]
  · cases disabled <;> cases default.disabled <;> simp

variable {defaults current : ExecutorConfigs BaseCodingAgent CodingAgent}
  {order : List (BaseCodingAgent × List String)}

omit [DecidableEq CodingAgent] in
theorem checkDeletions_eq_ok (h : Covers current defaults) (hscans : Scans order defaults) :
    checkDeletions order current = .ok () := by
  refine forM_eq_ok fun entry hentry => ?_
  obtain ⟨default, hdefault⟩ := isSome_iff_exists.1 ((hscans.2.1 entry.1).1 (mem_map_of_mem hentry))
  obtain ⟨profile, hprofile, hextends⟩ := h entry.1 default hdefault
  simp only [hprofile]
  exact forM_eq_ok fun name hname =>
    if_pos (hextends name (((hscans.2.2 entry hentry default hdefault).2 name).1 hname))

theorem mergeWithDefaults_computeOverrides (h : Covers current defaults)
    (hscans : Scans order defaults) :
    (computeOverrides order defaults current).map (mergeWithDefaults defaults) = .ok current ↔
      ∀ executor default profile, defaults executor = some default →
        current executor = some profile → Sticky default profile := by
  rw [computeOverrides, checkDeletions_eq_ok h hscans]
  show Except.ok (mergeWithDefaults _ _) = Except.ok _ ↔ _
  rw [Except.ok.injEq, funext_iff]
  refine forall_congr' fun executor => ?_
  unfold mergeWithDefaults
  cases hdefault : defaults executor with
  | none => cases hcurrent : current executor <;> simp [hdefault, hcurrent]
  | some default =>
    obtain ⟨profile, hprofile, hextends⟩ := h executor default hdefault
    have hrestore := restore_eq_iff hextends
    unfold restore at hrestore
    cases hoverride : default.override? profile <;>
      simpa [hdefault, hprofile, hoverride] using hrestore

end

/-! ## Variant keys -/

section

variable {CodingAgent : Type} {canonical : String → String}
  {configurations : ExtHashMap String CodingAgent} {keys : List String}

def Agrees (canonical : String → String) (configurations : ExtHashMap String CodingAgent) : Prop :=
  ∀ key ∈ configurations, ∀ key' ∈ configurations, canonical key = canonical key' →
    canonical key ∉ configurations → configurations[key]? = configurations[key']?

def replaced (canonical : String → String) (configurations : ExtHashMap String CodingAgent)
    (key : String) (keys : List String) : Option CodingAgent :=
  keys.findSome? fun old => if canonical old = key then configurations[old]? else none

theorem replaced_cons (key old : String) : replaced canonical configurations key (old :: keys) =
    (if canonical old = key then configurations[old]? else none).or
      (replaced canonical configurations key keys) := by
  rw [replaced, findSome?_cons]
  cases if canonical old = key then configurations[old]? else none <;> rfl

theorem replaced_eq_some_iff (h : Agrees canonical configurations) {key : String}
    (hnone : key ∉ configurations) {cfg : CodingAgent} :
    replaced canonical configurations key keys = some cfg ↔
      ∃ old ∈ keys, canonical old = key ∧ configurations[old]? = some cfg := by
  have hfound {cfg : CodingAgent} (hcfg : replaced canonical configurations key keys = some cfg) :
      ∃ old ∈ keys, canonical old = key ∧ configurations[old]? = some cfg := by
    obtain ⟨old, hold, heq⟩ := exists_of_findSome?_eq_some hcfg
    split_ifs at heq with hkey
    exact ⟨old, hold, hkey, heq⟩
  refine ⟨hfound, ?_⟩
  rintro ⟨old, hold, rfl, hget⟩
  cases hother : replaced canonical configurations (canonical old) keys with
  | none =>
    have hnever := findSome?_eq_none_iff.1 hother old hold
    rw [if_pos rfl, hget] at hnever
    cases hnever
  | some other =>
    obtain ⟨old', -, heq, hget'⟩ := hfound hother
    have hmem {old cfg} (h : configurations[old]? = some cfg) : old ∈ configurations :=
      mem_iff_isSome_getElem?.2 (isSome_of_eq_some h)
    rw [← hget', ← hget, h old (hmem hget) old' (hmem hget') heq.symm hnone]

theorem canonicalised_cons (old : String) :
    canonicalised canonical (old :: keys) configurations = canonicalised canonical keys
      (if canonical old ≠ old then replaceKey configurations (old, canonical old)
        else configurations) := by
  by_cases hold : canonical old = old <;> simp [canonicalised, hold]

theorem getElem?_replaceKey {old new : String} {cfg : CodingAgent}
    (hcfg : configurations[old]? = some cfg) (hnew : new ≠ old) (key : String) :
    (replaceKey configurations (old, new))[key]? =
      if new = key then configurations[key]?.or (some cfg)
      else if old = key then none else configurations[key]? := by
  simp only [replaceKey, hcfg]
  grind

variable (hidem : ∀ key, canonical (canonical key) = canonical key)
include hidem

theorem getElem?_canonicalised (key : String) :
    (canonicalised canonical keys configurations)[key]? =
      if canonical key = key then
        configurations[key]?.or (replaced canonical configurations key keys)
      else if key ∈ keys then none else configurations[key]? := by
  induction keys generalizing configurations with
  | nil => simp [canonicalised, replaced]
  | cons old keys ih =>
    rw [canonicalised_cons, replaced_cons, ih]
    by_cases hold : canonical old = old
    · -- the key stays
      grind
    · cases hcfg : configurations[old]? with
      | none =>
        have hsame : replaceKey configurations (old, canonical old) = configurations := by
          rw [replaceKey, hcfg]
        grind
      | some cfg =>
        have hget := getElem?_replaceKey hcfg hold
        -- the keys that are to become `key` are left as they are
        have hrest (hnew : canonical old ≠ key) :
            replaced canonical (replaceKey configurations (old, canonical old)) key keys =
              replaced canonical configurations key keys := by
          unfold replaced
          congr 1
          grind
        grind

theorem canonicalised_perm_iff (hlists : Lists keys configurations) :
    (∀ keys', keys'.Perm keys → canonicalised canonical keys' configurations =
      canonicalised canonical keys configurations) ↔ Agrees canonical configurations := by
  constructor
  · intro h key hkey key' hkey' heq hnone
    have hfirst {first} (hfirst : first ∈ configurations) (heq : canonical first = canonical key) :
        (canonicalised canonical keys configurations)[canonical key]? = configurations[first]? := by
      obtain ⟨cfg, hcfg⟩ := isSome_iff_exists.1 (mem_iff_isSome_getElem?.1 hfirst)
      rw [← h _ (perm_cons_erase ((hlists.2 first).2 hfirst)).symm, getElem?_canonicalised hidem,
        if_pos (hidem key), getElem?_eq_none hnone, none_or, replaced_cons, if_pos heq, hcfg,
        some_or]
    exact (hfirst hkey rfl).symm.trans (hfirst hkey' heq.symm)
  · intro h keys' hperm
    refine ext_getElem? fun key => ?_
    have hreplaced (hnone : key ∉ configurations) :
        replaced canonical configurations key keys' =
          replaced canonical configurations key keys := by
      ext cfg
      rw [replaced_eq_some_iff h hnone, replaced_eq_some_iff h hnone]
      simp only [hperm.mem_iff]
    simp only [getElem?_canonicalised hidem, hperm.mem_iff]
    grind

theorem canonicalise_perm_iff {BaseCodingAgent : Type} [DecidableEq BaseCodingAgent]
    {configs : ExecutorConfigs BaseCodingAgent CodingAgent} {order : BaseCodingAgent → List String}
    (hlists : ∀ executor profile, configs executor = some profile →
      Lists (order executor) profile.configurations) :
    (∀ order', (∀ executor, (order' executor).Perm (order executor)) →
      canonicalise canonical order' configs = canonicalise canonical order configs) ↔
    ∀ executor profile, configs executor = some profile →
      Agrees canonical profile.configurations := by
  constructor
  · intro h executor profile hprofile
    refine (canonicalised_perm_iff hidem (hlists executor profile hprofile)).1 fun keys hperm => ?_
    have heq := congrFun (h (Function.update order executor keys) fun other => by
      by_cases hother : other = executor
      · subst hother
        rwa [Function.update_self]
      · rw [Function.update_of_ne hother]) executor
    rw [canonicalise, canonicalise, hprofile, Function.update_self] at heq
    exact (ExecutorProfile.mk.inj (some.inj heq)).2.2.2
  · intro h order' hperm
    funext executor
    unfold canonicalise
    cases hprofile : configs executor with
    | none => rfl
    | some profile =>
      have heq := (canonicalised_perm_iff hidem (hlists executor profile hprofile)).2
        (h executor profile hprofile) (order' executor) (hperm executor)
      simp only [map_some, heq]

end

/-! ## Main results -/

theorem canonicalVariantKey_idem {toScreamingSnake : String → String}
    (hupper : ∀ key, (toScreamingSnake key).toList.map Char.toUpper = (toScreamingSnake key).toList)
    (hidem : ∀ key, toScreamingSnake (toScreamingSnake key) = toScreamingSnake key) (key : String) :
    canonicalVariantKey toScreamingSnake (canonicalVariantKey toScreamingSnake key) =
      canonicalVariantKey toScreamingSnake key := by
  unfold canonicalVariantKey
  split_ifs with hdefault hagain hagain
  · rfl
  · exact absurd (by decide) hagain
  · unfold eqIgnoreAsciiCase at hagain
    rw [decide_eq_true_eq, hupper] at hagain
    exact (String.ext hagain).symm
  · exact hidem key

/-- Loading brings back what was saved just where nothing is set back to nothing, and the order of
the hash maps does not matter just where the spellings of a variant agree. -/
theorem overrides_round_trip {BaseCodingAgent CodingAgent : Type} [DecidableEq BaseCodingAgent]
    [DecidableEq CodingAgent] {toScreamingSnake : String → String}
    (hupper : ∀ key, (toScreamingSnake key).toList.map Char.toUpper = (toScreamingSnake key).toList)
    (hidem : ∀ key, toScreamingSnake (toScreamingSnake key) = toScreamingSnake key) :
    (∀ (defaults current : ExecutorConfigs BaseCodingAgent CodingAgent) order,
      Covers current defaults → Scans order defaults →
        ((computeOverrides order defaults current).map (mergeWithDefaults defaults) = .ok current ↔
          ∀ executor default profile, defaults executor = some default →
            current executor = some profile → Sticky default profile)) ∧
    ∀ (configs : ExecutorConfigs BaseCodingAgent CodingAgent) order,
      (∀ executor profile, configs executor = some profile →
        Lists (order executor) profile.configurations) →
      ((∀ order', (∀ executor, (order' executor).Perm (order executor)) →
        canonicalise (canonicalVariantKey toScreamingSnake) order' configs =
          canonicalise (canonicalVariantKey toScreamingSnake) order configs) ↔
        ∀ executor profile, configs executor = some profile →
          Agrees (canonicalVariantKey toScreamingSnake) profile.configurations) :=
  ⟨fun _ _ _ => mergeWithDefaults_computeOverrides,
    fun _ _ => canonicalise_perm_iff (canonicalVariantKey_idem hupper hidem)⟩

def exampleDefaults : ExecutorConfigs Unit ℕ := fun _ =>
  some ⟨none, [], false, ((∅ : ExtHashMap String ℕ).insert "DEFAULT" 1).insert "PLAN" 2⟩

/-- A variant is changed and one is added, and a model and the executor are disabled. -/
def exampleCurrent : ExecutorConfigs Unit ℕ := fun _ =>
  some ⟨none, ["old"], true,
    (((∅ : ExtHashMap String ℕ).insert "DEFAULT" 1).insert "PLAN" 3).insert "FAST" 4⟩

def exampleSpellings : ExecutorConfigs Unit ℕ := fun _ =>
  some ⟨none, [], false, ((∅ : ExtHashMap String ℕ).insert "FAST" 3).insert "fast" 4⟩

theorem overrides_round_trip_variants :
    (computeOverrides [((), ["PLAN", "DEFAULT"])] exampleDefaults exampleCurrent).map
        (mergeWithDefaults exampleDefaults) = .ok exampleCurrent ∧
      canonicalise (canonicalVariantKey fun _ => "FAST") (fun _ => ["FAST", "fast"])
          exampleSpellings =
        canonicalise (canonicalVariantKey fun _ => "FAST") (fun _ => ["fast", "FAST"])
          exampleSpellings := by
  obtain ⟨hround, hspelled⟩ := @overrides_round_trip Unit ℕ _ _ (fun _ => "FAST") (fun _ => rfl)
    fun _ => rfl
  constructor
  · refine (hround exampleDefaults exampleCurrent _ ?_ ?_).2 ?_
    · rintro _ _ ⟨⟩
      exact ⟨_, rfl, by simp; tauto⟩
    · refine ⟨by decide, by simp [exampleDefaults], fun entry hentry default hdefault => ?_⟩
      cases mem_singleton.1 hentry
      cases hdefault
      exact ⟨by decide, fun name => by simp [eq_comm (a := name)]⟩
    · rintro _ _ _ ⟨⟩ ⟨⟩
      exact ⟨fun _ => rfl, fun _ => rfl, fun _ => rfl⟩
  · refine (hspelled exampleSpellings (fun _ => ["fast", "FAST"]) ?_).2 ?_ _ fun _ =>
      Perm.swap _ _ []
    · rintro _ _ ⟨⟩
      exact ⟨by decide, fun name => by simp [eq_comm (a := name)]⟩
    · rintro _ _ ⟨⟩ key hkey _ _ _ hmissing
      refine absurd ?_ hmissing
      have hcases : key = "FAST" ∨ key = "fast" := by
        simpa [eq_comm (b := key), or_comm] using hkey
      rcases hcases with rfl | rfl <;> simp [canonicalVariantKey, eqIgnoreAsciiCase]

/-- With two spellings of a variant and no canonical one, the first in the hash map stays. -/
theorem spellings_collide :
    let configurations := ((∅ : ExtHashMap String ℕ).insert "fast" 1).insert "Fast" 2
    canonicalised (canonicalVariantKey fun _ => "FAST") ["fast", "Fast"] configurations ≠
      canonicalised (canonicalVariantKey fun _ => "FAST") ["Fast", "fast"] configurations := by
  intro configurations h
  have hidem := @canonicalVariantKey_idem (fun _ => "FAST") (fun _ => rfl) fun _ => rfl
  have hfast := congrArg (·["FAST"]?) h
  simp only [getElem?_canonicalised hidem] at hfast
  simp [canonicalVariantKey, eqIgnoreAsciiCase, replaced, configurations,
    ExtHashMap.getElem_insert] at hfast

end VibeKanban.Executors
