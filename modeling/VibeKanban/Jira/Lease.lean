import VibeKanban.Jira.Config
import VibeKanban.Lib.Runs

/-!
# The lease of a Jira sync pass (`remote/src/jira/sync.rs`, lines 66-150, 190-232)

Any number of server instances, with their ticks and the passes of the due configurations one after
the other, and any saves and requests. Each statement is a step and may fail, or take effect and
report an error. What Jira answers and the part of a pass on the issues are free. A crash ends a
call anywhere.

* `pass_lease`: one pass at a time, and no entry of the mapping is lost, if the steps meet the
  condition.
-/

namespace VibeKanban.Jira

open Lib Option Nat List
open Auth (Uuid Instant Answer)
open Function (update update_of_ne update_self)

/-! ## The calls -/

/-- A claimed pass, with the rest of its tick. -/
structure Pass where
  id : Uuid
  config : JiraSyncConfig
  lease : Instant
  due : List Uuid
  deriving DecidableEq

/-- How far a call has come. -/
inductive Call where
  | listing
  | claiming (due : List Uuid)
  | searching (pass : Pass)
  | seeding (pass : Pass) (observed : List Observed)
  | syncing (pass : Pass)
  | completing (pass : Pass) (error : Option String)
  | saving (args : UpsertJiraSyncConfigArgs)
  | requesting (project : Uuid)
  | done
  deriving DecidableEq

/-- `PassStats::error_summary` (lines 99-108). -/
def errorSummary : List String → Option String
  | [] => none
  | [only] => some only
  | first :: errors =>
    some (toString (errors.length + 1) ++ " issues failed to sync; first: " ++ first)

/-- What comes of the work between the statements. -/
inductive Work where
  /-- the text of a `PassError` -/
  | failed (error : String)
  /-- the statuses of the issues that the query returns -/
  | found (observed : List Observed)
  | synced (errors : List String)

namespace Call

/-- The beginning of `run_pass` (lines 115-119). -/
def startPass (id : Uuid) (config : JiraSyncConfig) (due : List Uuid) : Call :=
  match config.lastSyncStartedAt with
  | some lease => .searching ⟨id, config, lease, due⟩
  | none => .claiming due

def statement (lower : String → String) (w : World) (now : Instant) : Call → Option (World × Call)
  | .claiming (id :: due) =>
    match w.claimDueConfig id now with
    | some (w', config) => some (w', startPass id config due)
    | none => some (w, .claiming due)
  | .seeding pass observed =>
    some (w.updateStatusMapping pass.id (pass.config.statusMapping.seedVkToJira observed).1,
      .syncing pass)
  | .completing pass error =>
    some (w.markSyncCompleted pass.id pass.lease error now, .claiming pass.due)
  | .saving args => some ((w.upsertConfig lower args).getD w, .done)
  | .requesting project => some (w.requestSyncNow project now, .done)
  | .listing | .claiming [] | .searching _ | .syncing _ | .done => none

/-- How a call goes on when its statement has failed. -/
def onError : Call → Call
  | .claiming (_ :: due) => .claiming due
  | .seeding pass _ => .completing pass (some "database error")
  | .completing pass _ => .claiming pass.due
  | _ => .done

/-- How a call goes on after its work between the statements. -/
def work : Call → Work → Option Call
  | .searching pass, .found observed =>
    some (if (pass.config.statusMapping.seedVkToJira observed).2 then .seeding pass observed
      else .syncing pass)
  | .syncing pass, .synced errors => some (.completing pass (errorSummary errors))
  | .searching pass, .failed error | .syncing pass, .failed error =>
    some (.completing pass (some error))
  | _, _ => none

def claim? : Call → Option (Uuid × Instant)
  | .searching pass | .seeding pass _ | .syncing pass | .completing pass _ =>
    some (pass.id, pass.lease)
  | .listing | .claiming _ | .saving _ | .requesting _ | .done => none

end Call

/-! ## Runs -/

structure System where
  world : World
  now : Instant
  calls : ℕ → Option Call
  started : ℕ

inductive Action where
  | wait (elapsed : ℕ)
  | tick
  | save (args : UpsertJiraSyncConfigArgs)
  | request (project : Uuid)
  | list (i : ℕ) (due : List Uuid)
  | statement (i : ℕ) (answer : Answer)
  | work (i : ℕ) (result : Work)
  | crash (i : ℕ)

namespace System

/-- The world changes, and call `i` goes on. -/
def proceed (s : System) (i : ℕ) (w : World) (c : Call) : System :=
  { s with world := w, calls := update s.calls i (some c) }

def call (s : System) (c : Call) : System :=
  { s with calls := update s.calls s.started (some c), started := s.started + 1 }

/-- What a call that is at `c` and its caller get. -/
def answered (s : System) (i : ℕ) (c : Call) (w : World) (c' : Call) : Answer → System
  | .ok => s.proceed i w c'
  | .failed => s.proceed i s.world c.onError
  | .lost => s.proceed i w c.onError

variable (lower : String → String) in
def step (s : System) : Action → Option System
  | .wait elapsed => some { s with now := s.now + elapsed }
  | .tick => some (s.call .listing)
  | .save args => some (s.call (.saving args))
  | .request project => some (s.call (.requesting project))
  | .list i due =>
    if s.calls i = some .listing ∧ s.world.ListsDue s.now due then
      some (s.proceed i s.world (.claiming due))
    else none
  | .statement i answer => (s.calls i).bind fun c =>
    (c.statement lower s.world s.now).map fun (w, c') => s.answered i c w c' answer
  | .work i result => (s.calls i).bind fun c => (c.work result).map fun c' => s.proceed i s.world c'
  | .crash i => (s.calls i).map fun _ => s.proceed i s.world .done

/-- There are no configurations, and no call has started. -/
structure Initial (s : System) : Prop where
  configs : ∀ id, s.world.configs id = none
  claims : s.world.claims = []
  saved : ∀ id, s.world.saved id = none
  calls : ∀ i, s.calls i = none

/-! ## The laws and the condition -/

/-- At most one claim of a configuration is younger than 60 minutes and uncompleted. -/
def AtMostOneRunning (s : System) : Prop :=
  ∀ id, (s.world.claims.filter (·.running id s.now)).length ≤ 1

end System

/-- The entries that a user saved last are in the mapping. -/
def World.SavedKept (w : World) : Prop :=
  ∀ id config saved, w.configs id = some config → w.saved id = some saved →
    config.statusMapping.Extends saved

/-- A claim finds no pass at work whose claim was stamped with the very time of the last
    completion, and the seeded mapping that a pass writes back has the entries of the last save. -/
def Call.Meets (w : World) (now : Instant) : Call → Prop
  | .claiming (id :: _) =>
    ∀ config, w.configs id = some config → config.claimable now = true →
      config.lastSyncStartedAt = config.lastSyncCompletedAt →
      ∀ claim ∈ w.claims, claim.config = id → config.lastSyncStartedAt = some claim.lease →
        claim.running id now = false
  | .seeding pass observed =>
    ∀ saved, w.saved pass.id = some saved → pass.config.statusMapping.Covers observed saved
  | _ => True

namespace System

def Meets (s : System) : Action → Prop
  | .statement i answer => answer ≠ .failed → ∀ c, s.calls i = some c → c.Meets s.world s.now
  | _ => True

end System

instance (w : World) (now : Instant) (c : Call) : Decidable (c.Meets w now) :=
  match c with
  | .claiming (id :: _) =>
    match h : w.configs id with
    | none => isTrue fun _ hconfig => nomatch h.symm.trans hconfig
    | some config =>
      decidable_of_iff (config.claimable now = true →
        config.lastSyncStartedAt = config.lastSyncCompletedAt →
        ∀ claim ∈ w.claims, claim.config = id → config.lastSyncStartedAt = some claim.lease →
          claim.running id now = false)
        ⟨fun hc _ hconfig' => some.inj (h.symm.trans hconfig') ▸ hc, fun hc => hc config h⟩
  | .seeding pass observed =>
    match h : w.saved pass.id with
    | none => isTrue fun _ hsaved => nomatch h.symm.trans hsaved
    | some saved =>
      decidable_of_iff (pass.config.statusMapping.Covers observed saved)
        ⟨fun hc _ hsaved' => some.inj (h.symm.trans hsaved') ▸ hc, fun hc => hc saved h⟩
  | .listing | .claiming [] | .searching _ | .syncing _ | .completing .. | .saving _
  | .requesting _ | .done => isTrue trivial

instance (s : System) (a : Action) : Decidable (s.Meets a) :=
  match a with
  | .statement i answer =>
    match h : s.calls i with
    | none => isTrue fun _ _ hc => nomatch h.symm.trans hc
    | some c =>
      decidable_of_iff (answer ≠ .failed → c.Meets s.world s.now)
        ⟨fun hm hanswer _ hc' => some.inj (h.symm.trans hc') ▸ hm hanswer,
          fun hm hanswer => hm hanswer c h⟩
  | .wait _ | .tick | .save _ | .request _ | .list .. | .work .. | .crash _ => isTrue trivial

/-! ## What a statement does -/

namespace Call

variable {w w' : World} {now : Instant} {c c' : Call} {lower : String → String}

theorem claim?_startPass {id : Uuid} {config : JiraSyncConfig} {lease : Instant} {due : List Uuid}
    (h : config.lastSyncStartedAt = some lease) :
    (startPass id config due).claim? = some (id, lease) := by
  unfold startPass
  rw [h]
  rfl

theorem claim?_onError {p : Uuid × Instant} (h : c.onError.claim? = some p) :
    c.claim? = some p := by
  cases c with
  | seeding pass observed => exact h
  | claiming due =>
    cases due with
    | nil | cons id due => cases h
  | _ => cases h

theorem statement_cases (hw : w.Sound now) (h : c.statement lower w now = some (w', c')) :
    (w.Quiet now w' ∧ ∀ p, c'.claim? = some p → c.claim? = some p) ∨
    (∃ id config due, c = .claiming (id :: due) ∧ w.configs id = some config ∧
      config.claimable now = true ∧ w' = w.claim id now ∧ c'.claim? = some (id, now)) ∨
    ∃ pass error, c = .completing pass error ∧
      w' = w.markSyncCompleted pass.id pass.lease error now ∧ c'.claim? = none := by
  cases c with
  | claiming due =>
    cases due with
    | nil => cases h
    | cons id due =>
      cases hclaim : w.claimDueConfig id now with simp only [statement, hclaim] at h
      | none =>
        cases h
        exact .inl ⟨.refl hw, nofun⟩
      | some claimed =>
        cases h
        obtain ⟨config, hconfig, hclaimable, hworld, hreturned⟩ :=
          World.claimDueConfig_eq_some_iff.1 hclaim
        refine .inr (.inl ⟨id, config, due, rfl, hconfig, hclaimable, hworld, ?_⟩)
        exact claim?_startPass (by rw [hreturned])
  | seeding pass observed =>
    cases h
    exact .inl ⟨.updateStatusMapping hw _ _, fun p hp => hp⟩
  | completing pass error =>
    cases h
    exact .inr (.inr ⟨pass, error, rfl, rfl, rfl⟩)
  | saving args =>
    cases h
    refine .inl ⟨?_, nofun⟩
    cases hupsert : w.upsertConfig lower args with
    | none => exact .refl hw
    | some w' => exact .upsertConfig hw hupsert
  | requesting project =>
    cases h
    exact .inl ⟨.requestSyncNow hw project, nofun⟩
  | _ => cases h

theorem work_claim? {result : Work} (h : c.work result = some c') {p : Uuid × Instant}
    (hp : c'.claim? = some p) : c.claim? = some p := by
  cases c with
  | searching pass =>
    cases result with cases h
    | found observed => split at hp <;> exact hp
    | failed error => exact hp
  | syncing pass =>
    cases result with cases h
    | failed error | synced errors => exact hp
  | _ => cases h

end Call

namespace System

variable {s s' : System} {a : Action} {i j : ℕ} {c c' : Call} {w : World} {id : Uuid}
  {lower : String → String} {p : Uuid × Instant}

/-! ## Passes and their claims -/

def claimOf (s : System) (i : ℕ) : Option (Uuid × Instant) := (s.calls i).bind Call.claim?

theorem claimOf_eq (h : s.calls i = some c) : s.claimOf i = c.claim? := by
  rw [claimOf, h, bind_some]

theorem claimOf_proceed_self : (s.proceed i w c').claimOf i = c'.claim? :=
  claimOf_eq (update_self _ _ _)

theorem claimOf_proceed_of_ne (h : j ≠ i) : (s.proceed i w c').claimOf j = s.claimOf j := by
  show (update s.calls i (some c') j).bind Call.claim? = _
  rw [update_of_ne h]
  rfl

theorem claimOf_call (h : c.claim? = none) (hp : (s.call c).claimOf i = some p) :
    s.claimOf i = some p := by
  change (update s.calls s.started (some c) i).bind Call.claim? = some p at hp
  by_cases hi : i = s.started
  · rw [hi, update_self, bind_some, h] at hp
    cases hp
  · rw [update_of_ne hi] at hp
    exact hp

/-- The rows and the claims are sound, and each pass is the only one of its claim, which is
    uncompleted. -/
structure Consistent (s : System) : Prop where
  sound : s.world.Sound s.now
  held : ∀ i id lease, s.claimOf i = some (id, lease) → ⟨id, lease, false⟩ ∈ s.world.claims
  unique : ∀ i j p, s.claimOf i = some p → s.claimOf j = some p → i = j

section

variable (h : s.Consistent)

include h

theorem Consistent.of_claimOf (hsound : s'.world.Sound s'.now)
    (hclaims : s'.world.claims = s.world.claims)
    (hclaimOf : ∀ i p, s'.claimOf i = some p → s.claimOf i = some p) : s'.Consistent where
  sound := hsound
  held i id lease hp := by
    rw [hclaims]
    exact h.held i id lease (hclaimOf i _ hp)
  unique i j p hi hj := h.unique i j p (hclaimOf i p hi) (hclaimOf j p hj)

theorem Consistent.proceed (hquiet : s.world.Quiet s.now w)
    (hc : s.calls i = some c) (hclaim : ∀ p, c'.claim? = some p → c.claim? = some p) :
    (s.proceed i w c').Consistent := by
  refine h.of_claimOf (h.sound.quiet hquiet) hquiet.claims fun j p hp => ?_
  by_cases hj : j = i
  · rw [hj, claimOf_proceed_self] at hp
    rw [hj, claimOf_eq hc]
    exact hclaim p hp
  · rwa [claimOf_proceed_of_ne hj] at hp

theorem Consistent.claim {config : JiraSyncConfig}
    (hconfig : s.world.configs id = some config) (hclaimable : config.claimable s.now = true)
    (hclaim : ∀ p, c'.claim? = some p → p = (id, s.now)) :
    (s.proceed i (s.world.claim id s.now) c').Consistent := by
  have hnew : ∀ j, j ≠ i → s.claimOf j ≠ some (id, s.now) := by
    intro j _ hj
    have hlt := h.sound.lease_lt hconfig hclaimable (h.held j id s.now hj) rfl
    exact Int.lt_irrefl _ hlt
  refine ⟨h.sound.claim hconfig hclaimable, fun j id' lease hp => ?_, fun j k p hj hk => ?_⟩
  · by_cases hj : j = i
    · rw [hj, claimOf_proceed_self] at hp
      cases hclaim _ hp
      exact mem_cons_self
    · rw [claimOf_proceed_of_ne hj] at hp
      exact mem_cons_of_mem _ (h.held j id' lease hp)
  · by_cases hji : j = i
    · by_cases hki : k = i
      · rw [hji, hki]
      · rw [hji, claimOf_proceed_self] at hj
        rw [claimOf_proceed_of_ne hki, hclaim p hj] at hk
        exact absurd hk (hnew k hki)
    · rw [claimOf_proceed_of_ne hji] at hj
      by_cases hki : k = i
      · rw [hki, claimOf_proceed_self] at hk
        rw [hclaim p hk] at hj
        exact absurd hj (hnew j hji)
      · rw [claimOf_proceed_of_ne hki] at hk
        exact h.unique j k p hj hk

theorem Consistent.markSyncCompleted {pass : Pass} {error : Option String}
    (hc : s.calls i = some (.completing pass error)) (hclaim : c'.claim? = none) :
    (s.proceed i (s.world.markSyncCompleted pass.id pass.lease error s.now) c').Consistent := by
  have hclaimOf : ∀ j p, (s.proceed i (s.world.markSyncCompleted pass.id pass.lease error s.now)
      c').claimOf j = some p → j ≠ i ∧ s.claimOf j = some p := by
    intro j p hp
    by_cases hj : j = i
    · rw [hj, claimOf_proceed_self, hclaim] at hp
      cases hp
    · rw [claimOf_proceed_of_ne hj] at hp
      exact ⟨hj, hp⟩
  refine ⟨h.sound.markSyncCompleted _ _ _, fun j id' lease hp => ?_, fun j k p hj hk =>
    h.unique j k p (hclaimOf j p hj).2 (hclaimOf k p hk).2⟩
  obtain ⟨hj, hp⟩ := hclaimOf j _ hp
  have hheld := h.held j id' lease hp
  rcases s.world.markSyncCompleted_cases pass.id pass.lease error s.now with
    ⟨heq, -⟩ | ⟨config, -, -, heq⟩
  · show _ ∈ (s.world.markSyncCompleted pass.id pass.lease error s.now).claims
    rw [heq]
    exact hheld
  · show _ ∈ (s.world.markSyncCompleted pass.id pass.lease error s.now).claims
    rw [heq]
    refine mem_map.2 ⟨_, hheld, World.mark_of_ne ?_⟩
    rintro ⟨hid, hlease⟩
    change id' = pass.id at hid
    change lease = pass.lease at hlease
    rw [hid, hlease] at hp
    exact hj (h.unique j i _ hp (claimOf_eq hc))

theorem Consistent.statement (hc : s.calls i = some c)
    (hstatement : c.statement lower s.world s.now = some (w, c')) (answer : Answer) :
    (s.answered i c w c' answer).Consistent := by
  have herror : ∀ p, c.onError.claim? = some p → c.claim? = some p := fun p hp =>
    Call.claim?_onError hp
  rcases Call.statement_cases h.sound hstatement with ⟨hquiet, hclaim⟩ |
    ⟨id, config, due, rfl, hconfig, hclaimable, rfl, hclaim⟩ | ⟨pass, error, rfl, rfl, hclaim⟩
  · cases answer with
    | ok => exact h.proceed hquiet hc hclaim
    | failed => exact h.proceed (.refl h.sound) hc herror
    | lost => exact h.proceed hquiet hc herror
  · cases answer with
    | ok => exact h.claim hconfig hclaimable fun p hp => some.inj (hp.symm.trans hclaim)
    | failed => exact h.proceed (.refl h.sound) hc herror
    | lost => exact h.claim hconfig hclaimable nofun
  · cases answer with
    | ok => exact h.markSyncCompleted hc hclaim
    | failed => exact h.proceed (.refl h.sound) hc herror
    | lost => exact h.markSyncCompleted hc rfl

theorem Consistent.call (hclaim : c.claim? = none) : (s.call c).Consistent :=
  h.of_claimOf h.sound rfl fun _ _ hp => claimOf_call hclaim hp

end

theorem now_le_wait (s : System) (elapsed : ℕ) : s.now ≤ s.now + elapsed :=
  Int.le_add_of_nonneg_right (Int.natCast_nonneg elapsed)

theorem Consistent.step (h : s.Consistent) (hstep : s.step lower a = some s') : s'.Consistent := by
  cases a with
  | wait elapsed =>
    cases hstep
    exact h.of_claimOf (h.sound.mono (s.now_le_wait elapsed)) rfl fun _ _ hp => hp
  | tick | save args | request project =>
    cases hstep
    exact h.call rfl
  | list i due =>
    simp only [System.step] at hstep
    split at hstep <;> cases hstep
    rename_i hlist
    exact h.proceed (.refl h.sound) hlist.1 nofun
  | statement i answer =>
    obtain ⟨c, hc, hstep⟩ := bind_eq_some_iff.1 hstep
    obtain ⟨⟨w, c'⟩, hstatement, rfl⟩ := map_eq_some_iff.1 hstep
    exact h.statement hc hstatement answer
  | work i result =>
    obtain ⟨c, hc, hstep⟩ := bind_eq_some_iff.1 hstep
    obtain ⟨c', hwork, rfl⟩ := map_eq_some_iff.1 hstep
    exact h.proceed (.refl h.sound) hc fun p hp => Call.work_claim? hwork hp
  | crash i =>
    obtain ⟨c, hc, rfl⟩ := map_eq_some_iff.1 hstep
    exact h.proceed (.refl h.sound) hc nofun

theorem Initial.consistent (h : s.Initial) : s.Consistent where
  sound :=
    { timely := fun id config hconfig => nomatch (h.configs id).symm.trans hconfig
      fresh := fun id _ => h.configs id
      stamped := fun claim hclaim => by
        rw [h.claims] at hclaim
        cases hclaim
      increasing := by
        rw [h.claims]
        exact List.Pairwise.nil
      newer := fun claim hclaim => by
        rw [h.claims] at hclaim
        exact nomatch hclaim }
  held i id lease hp := by
    rw [claimOf, h.calls i] at hp
    cases hp
  unique i j p hp := by
    rw [claimOf, h.calls i] at hp
    cases hp

theorem consistent_of_reachable {ok : System → Action → Prop}
    (h : Reachable (step lower) ok Initial s) : s.Consistent :=
  h.invariant (P := Consistent) (fun _ h0 => h0.consistent) fun _ _ _ h _ hstep => h.step hstep

end System

/-! ## One running claim, and the saved entries -/

namespace World

variable {w w' : World} {now : Instant} {id : Uuid} {config : JiraSyncConfig}
  {f : JiraSyncConfig → JiraSyncConfig} {lower : String → String}

/-- A claim that is neither completed nor the last one of its configuration is stale. -/
def Closed (w : World) (now : Instant) : Prop :=
  ∀ claim ∈ w.claims, claim.completed = false → ∀ config, w.configs claim.config = some config →
    config.lastSyncStartedAt = some claim.lease ∨ claim.lease ≤ now - leaseTime

theorem Closed.mono {now' : Instant} (h : w.Closed now) (hle : now ≤ now') : w.Closed now' :=
  fun claim hclaim hopen config hconfig =>
    (h claim hclaim hopen config hconfig).imp_right fun hstale =>
      hstale.trans (Int.sub_le_sub_right hle leaseTime)

theorem Closed.quiet (h : w.Closed now) (hw : w.Sound now) (hquiet : w.Quiet now w') :
    w'.Closed now := by
  intro claim hclaim hopen config' hconfig'
  rw [hquiet.claims] at hclaim
  obtain ⟨config, -, hconfig, -⟩ := hw.stamped claim hclaim
  obtain ⟨config'', hconfig'', hstarted, -⟩ := hquiet.keeps _ config hconfig
  obtain rfl : config' = config'' := some.inj (hconfig'.symm.trans hconfig'')
  rw [hstarted]
  exact h claim hclaim hopen config hconfig

theorem running_iff {claim : Claim} : claim.running id now = true ↔
    claim.config = id ∧ claim.completed = false ∧ now - claim.lease < leaseTime := by
  rw [Claim.running, Bool.and_eq_true, Bool.and_eq_true, decide_eq_true_iff, decide_eq_true_iff,
    Bool.not_eq_true', and_assoc]

/-- A lease that is not stale is not free either, except when the claim and the last completion
    were stamped at the same time. -/
theorem Closed.claim (h : w.Closed now) (hw : w.Sound now) (hconfig : w.configs id = some config)
    (hclaimable : config.claimable now = true)
    (hmeets : config.lastSyncStartedAt = config.lastSyncCompletedAt → ∀ claim ∈ w.claims,
      claim.config = id → config.lastSyncStartedAt = some claim.lease →
      claim.running id now = false) : (w.claim id now).Closed now := by
  intro claim hclaim hopen config' hconfig'
  obtain ⟨config'', hconfig'', ⟨hne, rfl⟩ | ⟨hid, rfl⟩⟩ := modify_cases hconfig'
  · rcases mem_cons.1 hclaim with rfl | hclaim
    · exact absurd rfl hne
    · exact h claim hclaim hopen _ hconfig''
  rcases mem_cons.1 hclaim with rfl | hclaim
  · exact .inl rfl
  refine .inr ?_
  rw [hid, hconfig] at hconfig''
  cases hconfig''
  rw [← hid] at hconfig
  rcases h claim hclaim hopen config hconfig with hlast | hstale
  · obtain ⟨-, -, hfree⟩ := JiraSyncConfig.claimable_iff.1 hclaimable
    rcases JiraSyncConfig.isFree_iff.1 hfree _ hlast with ⟨completed, hcompleted, hle⟩ | hstale
    · have hge := hw.newer claim hclaim hopen config completed hconfig hlast hcompleted
      have heq : completed = claim.lease := Int.le_antisymm hge hle
      rw [heq] at hcompleted
      have hover := hmeets (hlast.trans hcompleted.symm) claim hclaim hid hlast
      by_contra hyoung
      have hrunning := running_iff.2 ⟨hid, hopen, Int.sub_lt_of_sub_lt (Int.lt_of_not_ge hyoung)⟩
      rw [hover] at hrunning
      exact Bool.false_ne_true hrunning
    · exact hstale.le
  · exact hstale

theorem Closed.markSyncCompleted (h : w.Closed now) (id : Uuid) (lease : Instant)
    (error : Option String) : (w.markSyncCompleted id lease error now).Closed now := by
  rcases w.markSyncCompleted_cases id lease error now with ⟨heq, -⟩ | ⟨config, -, -, heq⟩
  · rw [heq]
    exact h
  · rw [heq]
    intro claim hclaim hopen config' hconfig'
    obtain ⟨claim, hmem, rfl⟩ := mem_map.1 hclaim
    obtain ⟨hmark, -⟩ := mark_open hopen
    rw [hmark] at hopen hconfig' ⊢
    obtain ⟨config'', hconfig'', ⟨-, rfl⟩ | ⟨-, rfl⟩⟩ := modify_cases hconfig'
    · exact h claim hmem hopen _ hconfig''
    · exact h claim hmem hopen config'' hconfig''

theorem Closed.length_le_one (h : w.Closed now) (hw : w.Sound now) (id : Uuid) :
    (w.claims.filter (·.running id now)).length ≤ 1 := by
  have hpairwise := (hw.increasing.filter (·.running id now))
  have hrunning : ∀ claim ∈ w.claims.filter (·.running id now), ∃ config,
      w.configs id = some config ∧ claim.config = id ∧
        config.lastSyncStartedAt = some claim.lease := by
    intro claim hclaim
    obtain ⟨hmem, hrunning⟩ := mem_filter.1 hclaim
    obtain ⟨rfl, hopen, hyoung⟩ := running_iff.1 hrunning
    obtain ⟨config, -, hconfig, -⟩ := hw.stamped claim hmem
    refine ⟨config, hconfig, rfl, (h claim hmem hopen config hconfig).resolve_right ?_⟩
    exact Int.not_le.2 (Int.sub_lt_of_sub_lt hyoung)
  cases hclaims : w.claims.filter (·.running id now) with
  | nil => exact zero_le 1
  | cons newer rest =>
    cases rest with
    | nil => exact le_refl 1
    | cons older rest =>
      rw [hclaims] at hpairwise hrunning
      obtain ⟨config, hconfig, hnewer, hstarted⟩ := hrunning newer mem_cons_self
      obtain ⟨config', hconfig', holder, hstarted'⟩ :=
        hrunning older (mem_cons_of_mem _ mem_cons_self)
      rw [hconfig] at hconfig'
      cases hconfig'
      have hlt := (pairwise_cons.1 hpairwise).1 older mem_cons_self
        (holder.trans hnewer.symm)
      rw [hstarted] at hstarted'
      rw [some.inj hstarted'] at hlt
      exact absurd hlt (Int.lt_irrefl _)

/-! ### The saved entries -/

theorem SavedKept.modify (h : w.SavedKept)
    (hf : ∀ config, w.configs id = some config → ∀ saved, w.saved id = some saved →
      (f config).statusMapping.Extends saved) : (w.modify id f).SavedKept := by
  intro id' config' saved hconfig' hsaved
  obtain ⟨config, hconfig, ⟨-, rfl⟩ | ⟨rfl, rfl⟩⟩ := modify_cases hconfig'
  · exact h id' _ saved hconfig hsaved
  · exact hf config hconfig saved hsaved

theorem SavedKept.upsertConfig (h : w.SavedKept) {args : UpsertJiraSyncConfigArgs}
    (hupsert : w.upsertConfig lower args = some w') : w'.SavedKept := by
  unfold World.upsertConfig at hupsert
  split at hupsert
  · split at hupsert
    · cases hupsert
      intro id config saved hconfig hsaved
      change update w.configs w.nextId _ id = _ at hconfig
      change update w.saved w.nextId _ id = _ at hsaved
      by_cases hid : id = w.nextId
      · rw [hid, update_self] at hconfig hsaved
        cases hconfig
        cases hsaved
        exact .refl _
      · rw [update_of_ne hid] at hconfig hsaved
        exact h id config saved hconfig hsaved
    · split at hupsert <;> cases hupsert
      · intro id config saved hconfig hsaved
        change update w.saved _ _ id = _ at hsaved
        obtain ⟨config', hconfig', ⟨hne, rfl⟩ | ⟨rfl, rfl⟩⟩ := modify_cases hconfig
        · rw [update_of_ne hne] at hsaved
          exact h id _ saved hconfig' hsaved
        · rw [update_self] at hsaved
          cases hsaved
          exact .refl _
      · exact h
  · cases hupsert

/-- The copy that a claim takes has the saved entries, so that it may be written back as long as no
    user saves others. -/
theorem SavedKept.meets_seeding {pass : Pass} {config : JiraSyncConfig} {observed : List Observed}
    {later : Instant} (h : w.SavedKept) (hclaim : w.claimDueConfig pass.id now = some (w₁, config))
    (hpass : pass.config = config) (hsame : w'.saved pass.id = w.saved pass.id) :
    (Call.seeding pass observed).Meets w' later := by
  intro saved hsaved
  obtain ⟨row, hrow, -, -, rfl⟩ := claimDueConfig_eq_some_iff.1 hclaim
  have hextends := h pass.id row saved hrow (hsame.symm.trans hsaved)
  rw [hpass]
  exact ⟨hextends.jiraToVk, fun k v hk => .inl (hextends.vkToJira k v hk)⟩

theorem SavedKept.statement {c c' : Call} (h : w.SavedKept) (hmeets : c.Meets w now)
    (hstatement : c.statement lower w now = some (w', c')) : w'.SavedKept := by
  cases c with
  | claiming due =>
    cases due with
    | nil => cases hstatement
    | cons id due =>
      cases hclaim : w.claimDueConfig id now with simp only [Call.statement, hclaim] at hstatement
      | none =>
        cases hstatement
        exact h
      | some claimed =>
        cases hstatement
        obtain ⟨config, -, -, hworld, -⟩ := claimDueConfig_eq_some_iff.1 hclaim
        rw [hworld]
        exact h.modify fun config hconfig saved hsaved => h id config saved hconfig hsaved
  | seeding pass observed =>
    cases hstatement
    exact h.modify fun config hconfig saved hsaved =>
      JiraStatusMapping.extends_seedVkToJira_iff.2 (hmeets saved hsaved)
  | completing pass error =>
    cases hstatement
    rcases w.markSyncCompleted_cases pass.id pass.lease error now with ⟨heq, -⟩ | ⟨-, -, -, heq⟩
    · rw [heq]
      exact h
    · rw [heq]
      exact h.modify (f := fun config => { config with
          lastSyncCompletedAt := some now, lastSyncError := error })
        fun config hconfig saved hsaved => h pass.id config saved hconfig hsaved
  | saving args =>
    cases hstatement
    cases hupsert : w.upsertConfig lower args with
    | none => exact h
    | some w' => exact h.upsertConfig hupsert
  | requesting project =>
    cases hstatement
    intro id config' saved hconfig' hsaved
    obtain ⟨config, hconfig, rfl⟩ := map_eq_some_iff.1 hconfig'
    have hkept := h id config saved hconfig hsaved
    split
    all_goals exact hkept
  | _ => cases hstatement

end World

namespace System

variable {s s' : System} {a : Action} {i j : ℕ} {c c' : Call} {w : World} {id : Uuid}
  {lower : String → String} {p : Uuid × Instant}

/-- The two laws that depend on the condition. -/
structure Good (s : System) : Prop where
  closed : s.world.Closed s.now
  saved : s.world.SavedKept

theorem answered_world (s : System) (i : ℕ) (c : Call) (w : World) (c' : Call) (answer : Answer) :
    (s.answered i c w c' answer).world = if answer = .failed then s.world else w := by
  cases answer <;> rfl

theorem answered_now (s : System) (i : ℕ) (c : Call) (w : World) (c' : Call) (answer : Answer) :
    (s.answered i c w c' answer).now = s.now := by
  cases answer <;> rfl

theorem Good.of_world (h : s.Good) (hworld : s'.world = s.world) (hnow : s.now ≤ s'.now) :
    s'.Good := by
  refine ⟨?_, ?_⟩
  · rw [hworld]
    exact h.closed.mono hnow
  · rw [hworld]
    exact h.saved

theorem Good.statement (h : s.Good) (hconsistent : s.Consistent)
    (hstatement : c.statement lower s.world s.now = some (w, c'))
    (hmeets : c.Meets s.world s.now) : w.Closed s.now ∧ w.SavedKept := by
  refine ⟨?_, h.saved.statement hmeets hstatement⟩
  rcases Call.statement_cases hconsistent.sound hstatement with ⟨hquiet, -⟩ |
    ⟨id, config, due, rfl, hconfig, hclaimable, rfl, -⟩ | ⟨pass, error, rfl, rfl, -⟩
  · exact h.closed.quiet hconsistent.sound hquiet
  · exact h.closed.claim hconsistent.sound hconfig hclaimable (hmeets config hconfig hclaimable)
  · exact h.closed.markSyncCompleted _ _ _

theorem step_world (hstep : s.step lower a = some s') : (s'.world = s.world ∧ s.now ≤ s'.now) ∨
      ∃ i answer c w c', a = .statement i answer ∧ answer ≠ .failed ∧ s.calls i = some c ∧
        c.statement lower s.world s.now = some (w, c') ∧ s' = s.answered i c w c' answer ∧
        s'.world = w ∧ s'.now = s.now := by
  cases a with
  | wait elapsed =>
    cases hstep
    exact .inl ⟨rfl, s.now_le_wait elapsed⟩
  | tick | save args | request project =>
    cases hstep
    exact .inl ⟨rfl, le_rfl⟩
  | list i due =>
    simp only [System.step] at hstep
    split at hstep <;> cases hstep
    exact .inl ⟨rfl, le_rfl⟩
  | statement i answer =>
    obtain ⟨c, hc, hstep⟩ := bind_eq_some_iff.1 hstep
    obtain ⟨⟨w, c'⟩, hstatement, rfl⟩ := map_eq_some_iff.1 hstep
    by_cases hanswer : answer = .failed
    · exact .inl ⟨by rw [answered_world, if_pos hanswer], (answered_now s i c w c' answer).ge⟩
    · exact .inr ⟨i, answer, c, w, c', rfl, hanswer, hc, hstatement, rfl,
        by rw [answered_world, if_neg hanswer], answered_now s i c w c' answer⟩
  | work i result =>
    obtain ⟨c, -, hstep⟩ := bind_eq_some_iff.1 hstep
    obtain ⟨c', -, rfl⟩ := map_eq_some_iff.1 hstep
    exact .inl ⟨rfl, le_rfl⟩
  | crash i =>
    obtain ⟨c, -, rfl⟩ := map_eq_some_iff.1 hstep
    exact .inl ⟨rfl, le_rfl⟩

theorem Good.step (h : s.Good) (hconsistent : s.Consistent) (hmeets : s.Meets a)
    (hstep : s.step lower a = some s') : s'.Good := by
  rcases step_world hstep with ⟨hworld, hnow⟩ |
    ⟨i, answer, c, w, c', rfl, hanswer, hc, hstatement, -, rfl, hnow⟩
  · exact h.of_world hworld hnow
  · obtain ⟨hclosed, hsaved⟩ := h.statement hconsistent hstatement (hmeets hanswer c hc)
    rw [← hnow] at hclosed
    exact ⟨hclosed, hsaved⟩

theorem Initial.good (h : s.Initial) : s.Good where
  closed claim hclaim := by
    rw [h.claims] at hclaim
    cases hclaim
  saved id config _ hconfig := nomatch (h.configs id).symm.trans hconfig

theorem good_of_reachable (h : Reachable (step lower) Meets Initial s) : s.Consistent ∧ s.Good :=
  h.invariant (P := fun s => s.Consistent ∧ s.Good) (fun _ h0 => ⟨h0.consistent, h0.good⟩)
    fun _ _ _ h hmeets hstep => ⟨h.1.step hstep, h.2.step h.1 hmeets hstep⟩

/-! ## The condition is necessary -/

theorem two_le_length_filter {claims : List Claim} {q : Claim → Bool} {newer older : Claim}
    (hnewer : q newer = true) (hmem : older ∈ claims) (holder : q older = true) :
    2 ≤ ((newer :: claims).filter q).length := by
  rw [filter_cons_of_pos hnewer, length_cons]
  exact succ_le_succ (length_pos_of_mem (mem_filter.2 ⟨hmem, holder⟩))

theorem Consistent.meets (h : s.Consistent) (hstep : s.step lower a = some s')
    (hone : s'.AtMostOneRunning) (hsaved : s'.world.SavedKept) : s.Meets a := by
  cases a with
  | statement i answer =>
    obtain ⟨c, hc, hstep⟩ := bind_eq_some_iff.1 hstep
    obtain ⟨⟨w, c'⟩, hstatement, rfl⟩ := map_eq_some_iff.1 hstep
    intro hanswer x hx
    obtain rfl : c = x := some.inj (hc.symm.trans hx)
    rw [answered_world, if_neg hanswer] at hsaved
    unfold AtMostOneRunning at hone
    rw [answered_world, if_neg hanswer, answered_now] at hone
    cases c with
    | claiming due =>
      cases due with
      | nil => cases hstatement
      | cons id due =>
        intro config hconfig hclaimable htie claim hclaim hid hlast
        have hclaimed := World.claimDueConfig_eq_some_iff.2 ⟨config, hconfig, hclaimable, rfl, rfl⟩
        simp only [Call.statement, hclaimed] at hstatement
        cases hstatement
        by_contra hrunning
        have hnew : (Claim.mk id s.now false).running id s.now = true :=
          World.running_iff.2 ⟨rfl, rfl, by
            show s.now - s.now < leaseTime
            rw [Int.sub_self]
            decide⟩
        have htwo := two_le_length_filter (q := (·.running id s.now)) hnew hclaim
          (Bool.eq_true_of_not_eq_false hrunning)
        exact absurd (htwo.trans (hone id)) (by decide)
    | seeding pass observed =>
      intro saved hpass
      have hheld := h.held i pass.id pass.lease (claimOf_eq hc)
      obtain ⟨config, -, hconfig, -⟩ := h.sound.stamped _ hheld
      cases hstatement
      exact JiraStatusMapping.extends_seedVkToJira_iff.1
        (hsaved pass.id _ saved (World.modify_some hconfig) hpass)
    | _ => trivial
  | _ => trivial

/-! ## Lost leases and disabled configurations -/

variable {answer : Answer}

theorem Consistent.lost_lease (h : s.Consistent) {pass : Pass} {error : Option String}
    (hc : s.calls i = some (.completing pass error))
    (hlost : ∃ claim ∈ s.world.claims, claim.config = pass.id ∧ pass.lease < claim.lease)
    (hstep : s.step lower (.statement i answer) = some s') : s'.world = s.world := by
  have hworld : s.world.markSyncCompleted pass.id pass.lease error s.now = s.world := by
    rcases s.world.markSyncCompleted_cases pass.id pass.lease error s.now with
      ⟨heq, -⟩ | ⟨config, hconfig, hlease, -⟩
    · exact heq
    · obtain ⟨claim, hclaim, hid, hlt⟩ := hlost
      obtain ⟨config', started, hconfig', hstarted, hle⟩ := h.sound.stamped claim hclaim
      rw [hid, hconfig] at hconfig'
      cases hconfig'
      rw [hlease] at hstarted
      rw [← some.inj hstarted] at hle
      exact absurd hlt (Int.not_lt.2 hle)
  simp only [System.step, hc, bind_some, Call.statement, map_some] at hstep
  cases hstep
  rw [answered_world, hworld, ite_self]

def Claims (s s' : System) (id : Uuid) : Prop :=
  s'.world.claims = ⟨id, s.now, false⟩ :: s.world.claims

theorem not_claims_of_length (h : s'.world.claims.length = s.world.claims.length) :
    ¬ s.Claims s' id := by
  intro hclaims
  rw [hclaims, length_cons] at h
  exact absurd h (succ_ne_self _)

theorem length_claims_markSyncCompleted (w : World) (id : Uuid) (lease : Instant)
    (error : Option String) (now : Instant) :
    (w.markSyncCompleted id lease error now).claims.length = w.claims.length := by
  rcases w.markSyncCompleted_cases id lease error now with ⟨heq, -⟩ | ⟨config, -, -, heq⟩
  · rw [heq]
  · rw [heq]
    exact length_map _

theorem Consistent.enabled_of_claims (h : s.Consistent) (hstep : s.step lower a = some s')
    (hclaims : s.Claims s' id) :
    ∃ config, s.world.configs id = some config ∧ config.enabled = true := by
  rcases step_world hstep with ⟨hworld, -⟩ | ⟨i, answer, c, w, c', -, -, -, hstatement, -, rfl, -⟩
  · exact absurd hclaims (not_claims_of_length (by rw [hworld]))
  rcases Call.statement_cases h.sound hstatement with ⟨hquiet, -⟩ |
    ⟨id', config, due, -, hconfig, hclaimable, heq, -⟩ | ⟨pass, error, -, heq, -⟩
  · exact absurd hclaims (not_claims_of_length (by rw [hquiet.claims]))
  · rw [Claims, heq] at hclaims
    cases (cons.inj hclaims).1
    exact ⟨config, hconfig, (JiraSyncConfig.claimable_iff.1 hclaimable).1⟩
  · refine absurd hclaims (not_claims_of_length ?_)
    rw [heq]
    exact length_claims_markSyncCompleted _ _ _ _ _

/-! ## Requests are followed by claims -/

/-- What a step without a claim of the row does to it: the last start stays, and the last
    completion does too, or the one pass that works for the last claim has completed it. -/
def KeepsRow (s s' : System) (id : Uuid) (config : JiraSyncConfig) : Prop :=
  ∃ config', s'.world.configs id = some config' ∧
    config'.lastSyncStartedAt = config.lastSyncStartedAt ∧
    (config'.lastSyncCompletedAt = config.lastSyncCompletedAt ∨
      ∃ lease i, config.lastSyncStartedAt = some lease ∧ s.claimOf i = some (id, lease) ∧
        ∀ j, s'.claimOf j ≠ some (id, lease))

variable {config : JiraSyncConfig}

theorem KeepsRow.of_world (hconfig : s.world.configs id = some config)
    (hworld : s'.world = s.world) : s.KeepsRow s' id config :=
  ⟨config, hworld ▸ hconfig, rfl, .inl rfl⟩

theorem Consistent.keepsRow_complete (h : s.Consistent) {pass : Pass}
    {error : Option String} (hc : s.calls i = some (.completing pass error))
    (hclaim : c'.claim? = none) (hanswer : answer ≠ .failed)
    (hconfig : s.world.configs id = some config) : s.KeepsRow (s.answered i (.completing pass error)
      (s.world.markSyncCompleted pass.id pass.lease error s.now) c' answer) id config := by
  unfold KeepsRow
  rw [answered_world, if_neg hanswer]
  rcases s.world.markSyncCompleted_cases pass.id pass.lease error s.now with
    ⟨heq, -⟩ | ⟨config', hconfig', hlease, heq⟩
  · rw [heq]
    exact ⟨config, hconfig, rfl, .inl rfl⟩
  rw [heq]
  by_cases hid : id = pass.id
  · subst hid
    rw [hconfig] at hconfig'
    cases hconfig'
    refine ⟨_, World.modify_some hconfig, rfl, .inr ⟨pass.lease, i, hlease, claimOf_eq hc, ?_⟩⟩
    intro j hj
    by_cases hji : j = i
    · subst hji
      cases answer with
      | failed => exact hanswer rfl
      | ok =>
        have hself : c'.claim? = some _ := claimOf_proceed_self.symm.trans hj
        rw [hclaim] at hself
        cases hself
      | lost =>
        have hself : (Call.claiming pass.due).claim? = some _ := claimOf_proceed_self.symm.trans hj
        cases hself
    · have hother : s.claimOf j = some (pass.id, pass.lease) := by
        cases answer with
        | failed => exact absurd rfl hanswer
        | ok | lost => exact (claimOf_proceed_of_ne hji).symm.trans hj
      exact hji (h.unique j i _ hother (claimOf_eq hc))
  · exact ⟨config, (World.modify_of_ne hid).trans hconfig, rfl, .inl rfl⟩

theorem Consistent.keepsRow (h : s.Consistent)
    (hstep : s.step lower a = some s') (hconfig : s.world.configs id = some config)
    (hnot : ¬ s.Claims s' id) : s.KeepsRow s' id config := by
  rcases step_world hstep with ⟨hworld, -⟩ |
    ⟨i, answer, c, w, c', -, hanswer, hc, hstatement, hs', rfl, -⟩
  · exact .of_world hconfig hworld
  rcases Call.statement_cases h.sound hstatement with ⟨hquiet, -⟩ |
    ⟨id', config', due, rfl, -, -, heq, -⟩ | ⟨pass, error, rfl, heq, hclaim⟩
  · obtain ⟨config', hconfig', hstarted, hcompleted⟩ := hquiet.keeps id config hconfig
    exact ⟨config', hconfig', hstarted, .inl hcompleted⟩
  · have hne : id ≠ id' := by
      rintro rfl
      refine hnot ?_
      rw [Claims, heq]
      rfl
    refine ⟨config, ?_, rfl, .inl rfl⟩
    rw [heq]
    exact (World.claim_of_ne hne).trans hconfig
  · rw [hs', heq]
    exact h.keepsRow_complete hc hclaim hanswer hconfig

section

variable (hc : s.calls i = some c) (hclaim : ∀ p, c'.claim? = some p → c.claim? = some p)
include hc hclaim

theorem claimOf_of_proceed (hp : (s.proceed i w c').claimOf j = some p) : s.claimOf j = some p := by
  by_cases hj : j = i
  · rw [hj, claimOf_proceed_self] at hp
    rw [hj, claimOf_eq hc]
    exact hclaim p hp
  · rwa [claimOf_proceed_of_ne hj] at hp

theorem claimOf_of_answered (hp : (s.answered i c w c' answer).claimOf j = some p) :
    s.claimOf j = some p := by
  cases answer with
  | ok => exact claimOf_of_proceed hc hclaim hp
  | failed | lost => exact claimOf_of_proceed hc (fun _ => Call.claim?_onError) hp

end

theorem Consistent.claimOf_step (h : s.Consistent) (hstep : s.step lower a = some s')
    (hnot : ¬ s.Claims s' p.1) (hp : s'.claimOf j = some p) : s.claimOf j = some p := by
  cases a with
  | wait =>
    cases hstep
    exact hp
  | tick | save | request =>
    cases hstep
    exact claimOf_call rfl hp
  | list i due =>
    simp only [System.step] at hstep
    split at hstep <;> cases hstep
    rename_i hlist
    exact claimOf_of_proceed hlist.1 (fun _ hnone => by cases hnone) hp
  | statement i answer =>
    obtain ⟨c, hc, hstep⟩ := bind_eq_some_iff.1 hstep
    obtain ⟨⟨w, c'⟩, hstatement, rfl⟩ := map_eq_some_iff.1 hstep
    rcases Call.statement_cases h.sound hstatement with ⟨-, hclaim⟩ |
      ⟨id, config, due, rfl, -, -, rfl, hclaim⟩ | ⟨pass, error, rfl, rfl, hclaim⟩
    · exact claimOf_of_answered hc hclaim hp
    · cases answer with
      | ok =>
        by_cases hj : j = i
        · rw [hj] at hp
          have hself := claimOf_proceed_self.symm.trans hp
          rw [hclaim] at hself
          cases hself
          exact absurd rfl hnot
        · exact (claimOf_proceed_of_ne hj).symm.trans hp
      | failed | lost => exact claimOf_of_proceed hc (fun _ => Call.claim?_onError) hp
    · refine claimOf_of_answered hc (fun p hnone => ?_) hp
      rw [hclaim] at hnone
      cases hnone
  | work i result =>
    obtain ⟨c, hc, hstep⟩ := bind_eq_some_iff.1 hstep
    obtain ⟨c', hwork, rfl⟩ := map_eq_some_iff.1 hstep
    exact claimOf_of_proceed hc (fun _ => Call.work_claim? hwork) hp
  | crash i =>
    obtain ⟨c, hc, rfl⟩ := map_eq_some_iff.1 hstep
    exact claimOf_of_proceed hc (fun _ hnone => by cases hnone) hp

theorem now_le_step (hstep : s.step lower a = some s') : s.now ≤ s'.now := by
  rcases step_world hstep with ⟨-, hnow⟩ | ⟨-, -, -, -, -, -, -, -, -, -, -, hnow⟩
  · exact hnow
  · exact hnow.ge

end System

structure InfiniteRun (lower : String → String) where
  state : ℕ → System
  action : ℕ → Action
  step : ∀ n, (state n).step lower (action n) = some (state (n + 1))

namespace InfiniteRun

variable {lower : String → String} {run : InfiniteRun lower} {n m : ℕ} {id : Uuid}

/-- `request_sync_now` takes effect on the configuration. -/
def Requests (run : InfiniteRun lower) (n : ℕ) (id : Uuid) : Prop :=
  ∃ i answer project config, run.action n = .statement i answer ∧ answer ≠ .failed ∧
    (run.state n).calls i = some (.requesting project) ∧
    (run.state n).world.configs id = some config ∧ config.projectId = project

def StaysEnabled (run : InfiniteRun lower) (n : ℕ) (id : Uuid) : Prop :=
  ∀ m ≥ n, ∃ config, (run.state m).world.configs id = some config ∧ config.enabled = true

/-- Again and again a tick lists the due configurations, and its claim of each of them is carried
    out. -/
def TicksContinue (run : InfiniteRun lower) : Prop :=
  ∀ n t, ∃ m ≥ n, t ≤ (run.state m).now ∧ ∃ i due, run.action m = .list i due ∧
    ∀ id ∈ due, ∃ k > m, ∃ rest answer, run.action k = .statement i answer ∧ answer ≠ .failed ∧
      (run.state k).calls i = some (.claiming (id :: rest))

/-- A configuration is claimed in step `n`. -/
def Claims (run : InfiniteRun lower) (n : ℕ) (id : Uuid) : Prop :=
  (run.state n).Claims (run.state (n + 1)) id

theorem consistent (h : (run.state 0).Consistent) (n : ℕ) : (run.state n).Consistent := by
  induction n with
  | zero => exact h
  | succ n ih => exact ih.step (run.step n)

theorem now_mono (hle : n ≤ m) : (run.state n).now ≤ (run.state m).now := by
  induction m, hle using le_induction with
  | base => exact le_rfl
  | succ m _ ih => exact ih.trans (System.now_le_step (run.step m))

variable {config : JiraSyncConfig}

theorem started_stays (h : (run.state 0).Consistent)
    (hconfig : (run.state n).world.configs id = some config) (hnot : ∀ m ≥ n, ¬ run.Claims m id)
    (hle : n ≤ m) : ∃ config', (run.state m).world.configs id = some config' ∧
      config'.lastSyncStartedAt = config.lastSyncStartedAt := by
  induction m, hle using le_induction with
  | base => exact ⟨config, hconfig, rfl⟩
  | succ m hle ih =>
    obtain ⟨config', hconfig', hstarted'⟩ := ih
    obtain ⟨config'', hconfig'', hstarted'', -⟩ :=
      (consistent h m).keepsRow (run.step m) hconfig' (hnot m hle)
    exact ⟨config'', hconfig'', hstarted''.trans hstarted'⟩

theorem idle_stays (h : (run.state 0).Consistent) {lease : Instant}
    (hidle : ∀ j, (run.state n).claimOf j ≠ some (id, lease)) (hnot : ∀ m ≥ n, ¬ run.Claims m id)
    (hle : n ≤ m) : ∀ j, (run.state m).claimOf j ≠ some (id, lease) := by
  induction m, hle using le_induction with
  | base => exact hidle
  | succ m hle ih =>
    intro j hj
    exact ih j ((consistent h m).claimOf_step (run.step m) (hnot m hle) hj)

/-- From here on no pass completes the last claim of the row. -/
def Settled (run : InfiniteRun lower) (n : ℕ) (id : Uuid) (started : Option Instant) : Prop :=
  ∀ m ≥ n, ∀ lease, started = some lease → ∀ i, (run.state m).claimOf i = some (id, lease) →
    ∃ j, (run.state (m + 1)).claimOf j = some (id, lease)

section

variable (h : (run.state 0).Consistent) (hconfig : (run.state n).world.configs id = some config)
  (hnot : ∀ m ≥ n, ¬ run.Claims m id)
include h hconfig hnot

theorem completed_stays (hsettled : run.Settled n id config.lastSyncStartedAt) (hle : n ≤ m) :
    ∃ config', (run.state m).world.configs id = some config' ∧
      config'.lastSyncStartedAt = config.lastSyncStartedAt ∧
      config'.lastSyncCompletedAt = config.lastSyncCompletedAt := by
  induction m, hle using le_induction with
  | base => exact ⟨config, hconfig, rfl, rfl⟩
  | succ m hle ih =>
    obtain ⟨config', hconfig', hstarted', hcompleted'⟩ := ih
    obtain ⟨config'', hconfig'', hstarted'', hkept | ⟨lease, i, hlease, hclaim, hgone⟩⟩ :=
      (consistent h m).keepsRow (run.step m) hconfig' (hnot m hle)
    · exact ⟨config'', hconfig'', hstarted''.trans hstarted', hkept.trans hcompleted'⟩
    · obtain ⟨j, hj⟩ := hsettled m hle lease (hstarted'.symm.trans hlease) i hclaim
      exact absurd hj (hgone j)

theorem exists_settled : ∃ k ≥ n, ∃ config', (run.state k).world.configs id = some config' ∧
      run.Settled k id config'.lastSyncStartedAt := by
  by_cases hsettled : run.Settled n id config.lastSyncStartedAt
  · exact ⟨n, le_rfl, config, hconfig, hsettled⟩
  · -- the pass of the last claim ends somewhere, and no other one can take its place
    unfold Settled at hsettled
    push Not at hsettled
    obtain ⟨m, hle, lease, hlease, i, -, hgone⟩ := hsettled
    obtain ⟨config', hconfig', hstarted'⟩ := started_stays h hconfig hnot (hle.trans (le_succ m))
    refine ⟨m + 1, hle.trans (le_succ m), config', hconfig', fun k hk lease' hlease' j hj => ?_⟩
    rw [hstarted', hlease] at hlease'
    cases hlease'
    exact absurd hj (idle_stays h hgone (fun k hk => hnot k (hle.trans ((le_succ m).trans hk)))
      hk j)

end

theorem claims_of_claimable {i : ℕ} {rest : List Uuid} {answer : Answer}
    (haction : run.action n = .statement i answer) (hanswer : answer ≠ .failed)
    (hc : (run.state n).calls i = some (.claiming (id :: rest)))
    (hconfig : (run.state n).world.configs id = some config)
    (hclaimable : config.claimable (run.state n).now = true) : run.Claims n id := by
  have hclaimed := World.claimDueConfig_eq_some_iff.2 ⟨config, hconfig, hclaimable, rfl, rfl⟩
  have hstep := run.step n
  rw [haction] at hstep
  simp only [System.step, hc, bind_some, Call.statement, hclaimed, map_some] at hstep
  unfold Claims System.Claims
  rw [← some.inj hstep, System.answered_world, if_neg hanswer]
  rfl

theorem exists_claims (h : (run.state 0).Consistent) (henabled : run.StaysEnabled n id)
    (hticks : run.TicksContinue) : ∃ m ≥ n, run.Claims m id := by
  by_contra hnone
  push Not at hnone
  obtain ⟨config₀, hconfig₀, -⟩ := henabled n le_rfl
  obtain ⟨k, hk, config, hconfig, hsettled⟩ := exists_settled h hconfig₀ hnone
  have hnot : ∀ m ≥ k, ¬ run.Claims m id := fun m hm => hnone m (hk.trans hm)
  have htimely := (consistent h k).sound.timely id config hconfig
  -- an hour later the row can be claimed
  have hlate : ∀ m ≥ k, (run.state k).now + leaseTime + 1 ≤ (run.state m).now →
      ∃ config', (run.state m).world.configs id = some config' ∧
        config'.claimable (run.state m).now = true := by
    intro m hm hnow
    obtain ⟨config', hconfig', hstarted, hcompleted⟩ := completed_stays h hconfig hnot hsettled hm
    obtain ⟨config'', hconfig'', hon⟩ := henabled m (hk.trans hm)
    obtain rfl : config' = config'' := some.inj (hconfig'.symm.trans hconfig'')
    have hpast : (run.state k).now < (run.state m).now - leaseTime :=
      Int.lt_sub_right_of_add_lt (Int.lt_of_add_one_le hnow)
    refine ⟨config', hconfig', ((consistent h m).sound.timely id config'
      hconfig').claimable_of_late hon (fun t ht => ?_) fun t ht => ?_⟩
    · exact Int.lt_of_le_of_lt (htimely.started t (hstarted.symm.trans ht)) hpast
    · exact (htimely.completed t (hcompleted.symm.trans ht)).trans hpast.le
  obtain ⟨m, hm, hnow, i, due, hlist, hattempts⟩ := hticks k ((run.state k).now + leaseTime + 1)
  obtain ⟨config', hconfig', hclaimable⟩ := hlate m hm hnow
  have hdue : id ∈ due := by
    have hstep := run.step m
    rw [hlist] at hstep
    simp only [System.step] at hstep
    split at hstep
    · rename_i hlists
      refine hlists.2.1.mem_iff.2 (mem_filter.2 ⟨mem_range.2 ?_, ?_⟩)
      · by_contra hge
        rw [(consistent h m).sound.fresh id (Nat.le_of_not_lt hge)] at hconfig'
        cases hconfig'
      · rw [hconfig', any_some]
        exact hclaimable
    · cases hstep
  obtain ⟨j, hj, rest, answer, haction, hanswer, hc⟩ := hattempts id hdue
  have hmj : m ≤ j := le_of_lt hj
  obtain ⟨config'', hconfig'', hclaimable''⟩ := hlate j (hm.trans hmj) (hnow.trans (now_mono hmj))
  exact hnot j (hm.trans hmj) (claims_of_claimable haction hanswer hc hconfig'' hclaimable'')

end InfiniteRun

namespace System

variable {s s' : System} {lower : String → String}

/-- In every run whose steps meet the condition at most one claim of a configuration is younger
    than 60 minutes and uncompleted, and the entries that a user saved last are in the mapping; a
    step keeps this exactly if it meets the condition. In every run the claims of a configuration
    have growing leases, a pass does not complete a lease that has been taken over, only an enabled
    configuration is claimed, and a request is followed by a claim. -/
theorem pass_lease (lower : String → String) (s : System)
    (h : Reachable (step lower) anyStep Initial s) :
    (Reachable (step lower) Meets Initial s → s.AtMostOneRunning ∧ s.world.SavedKept ∧
      ∀ a s', s.step lower a = some s' → (s'.AtMostOneRunning ∧ s'.world.SavedKept ↔ s.Meets a)) ∧
    (s.world.claims.Pairwise fun newer older =>
      older.config = newer.config → older.lease < newer.lease) ∧
    (∀ i pass error answer s', s.calls i = some (.completing pass error) →
      (∃ claim ∈ s.world.claims, claim.config = pass.id ∧ pass.lease < claim.lease) →
      s.step lower (.statement i answer) = some s' → s'.world = s.world) ∧
    (∀ a s' id, s.step lower a = some s' → s.Claims s' id →
      ∃ config, s.world.configs id = some config ∧ config.enabled = true) ∧
    ∀ run : InfiniteRun lower, run.state 0 = s → ∀ n id, run.Requests n id →
      run.StaysEnabled n id → run.TicksContinue → ∃ m > n, run.Claims m id := by
  have hconsistent := consistent_of_reachable h
  refine ⟨fun hmeets => ?_, hconsistent.sound.increasing,
    fun i pass error answer s' hc hlost hstep => hconsistent.lost_lease hc hlost hstep,
    fun a s' id hstep hclaims => hconsistent.enabled_of_claims hstep hclaims, ?_⟩
  · obtain ⟨-, hgood⟩ := good_of_reachable hmeets
    refine ⟨hgood.closed.length_le_one hconsistent.sound, hgood.saved, fun a s' hstep =>
      ⟨fun hlaws => hconsistent.meets hstep hlaws.1 hlaws.2, fun hok => ?_⟩⟩
    have hgood' := hgood.step hconsistent hok hstep
    exact ⟨hgood'.closed.length_le_one (hconsistent.step hstep).sound, hgood'.saved⟩
  · rintro run rfl n id - henabled hticks
    exact InfiniteRun.exists_claims (n := n + 1) hconsistent
      (fun m hm => henabled m (le_of_succ_le hm)) hticks

/-! ## Examples -/

def emptySystem : System :=
  { world := ⟨fun _ => none, 0, [], fun _ => none⟩
    now := 0
    calls := fun _ => none
    started := 0 }

theorem initial_emptySystem : emptySystem.Initial := ⟨fun _ => rfl, rfl, fun _ => rfl, fun _ => rfl⟩

/-- A save of an enabled configuration with this reverse table. -/
def savedWith (vkToJira : OrderedMap String String) : UpsertJiraSyncConfigArgs :=
  { projectId := 7
    jiraBaseUrl := "https://jira.example"
    authMode := .serverPat
    jiraEmail := none
    encryptedCredential := some "secret"
    jql := "project = VK"
    enabled := true
    syncIntervalSeconds := 300
    statusMapping := ⟨.empty, vkToJira⟩
    createdByUserId := 1 }

def claimed (vkToJira : OrderedMap String String) : List Action :=
  [.save (savedWith vkToJira), .statement 0 .ok, .tick, .list 1 [0], .statement 1 .ok]

def inProgress : List Observed := [("In Progress", some "indeterminate")]

/-- A pass that seeds the mapping and completes, and a second one after a request. -/
def twoPasses : List Action :=
  claimed (.insert .empty "Done" "Closed") ++ [.work 1 (.found inProgress), .statement 1 .ok,
    .work 1 (.synced []), .wait 1, .statement 1 .ok, .wait 1, .request 7, .statement 2 .ok, .tick,
    .list 3 [0], .statement 3 .ok]

theorem pass_lease_twoPasses : ∃ s, Reachable (step id) Meets Initial s ∧
    s.world.claims = [⟨0, 2, false⟩, ⟨0, 0, true⟩] ∧
    ((s.world.configs 0).map fun config => ["Done", "In progress"].map
      config.statusMapping.vkToJira.get?) = some [some "Closed", some "In Progress"] ∧
    s.AtMostOneRunning ∧ s.world.SavedKept := by
  have hexec : (exec (step id) Meets emptySystem twoPasses).map (fun s =>
      decide (s.world.claims = [⟨0, 2, false⟩, ⟨0, 0, true⟩] ∧
        ((s.world.configs 0).map fun config => ["Done", "In progress"].map
          config.statusMapping.vkToJira.get?) = some [some "Closed", some "In Progress"])) =
      some true := by decide +kernel
  obtain ⟨s, hs, hdecide⟩ := map_eq_some_iff.1 hexec
  obtain ⟨hclaims, hseeded⟩ := of_decide_eq_true hdecide
  have hreach := reachable_of_exec initial_emptySystem hs
  have hlaws := (pass_lease id s (hreach.mono fun _ _ _ => trivial)).1 hreach
  exact ⟨s, hreach, hclaims, hseeded, hlaws.1, hlaws.2.1⟩

/-- A save during the pass, before it writes the seeded mapping back. -/
def saveDuringPass : List Action :=
  claimed .empty ++ [.save (savedWith (OrderedMap.empty.insert "Done" "Closed")), .statement 2 .ok,
    .work 1 (.found inProgress), .statement 1 .ok]

/-- The first pass completes, and a second one is claimed for a request, in the same instant; a
    later request then lets a third one be claimed beside the second one. -/
def sameInstant : List Action :=
  claimed .empty ++ [.wait 1, .request 7, .statement 2 .ok, .work 1 (.failed "unreachable"),
    .statement 1 .ok, .tick, .list 3 [0], .statement 3 .ok, .wait 1, .request 7, .statement 4 .ok,
    .tick, .list 5 [0], .statement 5 .ok]

/-- An entry that a user has saved is removed by a pass, and two passes hold the lease. -/
theorem pass_lease_broken : (∃ s config saved, Reachable (step id) anyStep Initial s ∧
      s.world.configs 0 = some config ∧ s.world.saved 0 = some saved ∧
      saved.vkToJira.get? "Done" = some "Closed" ∧
      config.statusMapping.vkToJira.get? "Done" = none) ∧
    ∃ s, Reachable (step id) anyStep Initial s ∧ ¬ s.AtMostOneRunning := by
  constructor
  · have hexec : (exec (step id) anyStep emptySystem saveDuringPass).map (fun s =>
        ((s.world.configs 0).map fun config => config.statusMapping.vkToJira.get? "Done",
          (s.world.saved 0).map fun saved => saved.vkToJira.get? "Done")) =
        some (some none, some (some "Closed")) := by decide +kernel
    obtain ⟨s, hs, heq⟩ := map_eq_some_iff.1 hexec
    obtain ⟨hkept, hsaved⟩ := Prod.mk.inj heq
    obtain ⟨config, hconfig, hnone⟩ := map_eq_some_iff.1 hkept
    obtain ⟨saved, hsome, hclosed⟩ := map_eq_some_iff.1 hsaved
    exact ⟨s, config, saved, reachable_of_exec initial_emptySystem hs, hconfig, hsome, hclosed,
      hnone⟩
  · have hexec : (exec (step id) anyStep emptySystem sameInstant).map (fun s =>
        (s.world.claims.filter (·.running 0 s.now)).length) = some 2 := by decide +kernel
    obtain ⟨s, hs, htwo⟩ := map_eq_some_iff.1 hexec
    refine ⟨s, reachable_of_exec initial_emptySystem hs, fun hone => ?_⟩
    have hle := hone 0
    rw [htwo] at hle
    exact absurd hle (by decide)

end System

end VibeKanban.Jira
