import VibeKanban.Cluster.Protocol

/-!
# The control lease of a browser session (`services/browser/arbiter.rs`, `types.rs`)

One principal at a time may control a session. Each operation expires a lapsed lease first, and each
change of the controller takes a new generation, a `u64` that wraps.

* `apply_follows`: the controller changes only with the generation.
* `agent_controller`: how an agent comes to control a session.
-/

namespace VibeKanban.Browser

open Cluster

/-- A point in time or a duration, in any unit. -/
abbrev Time := ℤ

/-! ## Types -/

inductive BrowserController where
  | none
  | agent (executionId : Uuid)
  | human (userId : String) (connectionId : Uuid)
  deriving DecidableEq

def BrowserController.isNone : BrowserController → Bool
  | .none => true
  | _ => false

inductive ControlPrincipal where
  | agent (executionId : Uuid)
  | human (userId : String) (connectionId : Uuid)

def ControlPrincipal.toController : ControlPrincipal → BrowserController
  | .agent executionId => .agent executionId
  | .human userId connectionId => .human userId connectionId

/-- `matches` -/
def ControlPrincipal.controls (principal : ControlPrincipal) (controller : BrowserController) :
    Bool :=
  principal.toController == controller

inductive ControlTransitionReason where
  | acquire
  | release
  | transfer
  | takeover
  | expired
  | disconnected
  | executionCompleted
  | closed
  deriving DecidableEq

/-- The errors of `BrowserSessionError` that a session gives. -/
inductive BrowserSessionError where
  | controlConflict (controller : BrowserController) (generation : ℕ)
  | staleGeneration (controller : BrowserController) (generation : ℕ)
  | controlLost (controller : BrowserController) (generation : ℕ)
  | sessionClosed
  | browserUnavailable (message : String)
  | driver (message : String)
  | timeout

structure Transition where
  controller : BrowserController
  generation : ℕ
  reason : ControlTransitionReason
  deriving DecidableEq

inductive TransferTarget where
  | none
  | agent (executionId : Uuid)

def TransferTarget.controller : TransferTarget → BrowserController
  | .none => .none
  | .agent executionId => .agent executionId

/-- `ControlArbiter`. The last field is not in the source: the number of transitions so far. -/
structure ControlArbiter where
  controller : BrowserController
  generation : ℕ
  leaseExpiresAt : Option Time
  leaseTtl : Time
  transitions : ℕ

/-- `+` on `u64` of a build without overflow checks. -/
def wrappingAdd (a b : ℕ) : ℕ := (a + b) % 2 ^ 64

namespace ControlArbiter

/-! ## Operations -/

/-- `new` (lines 39-46). -/
def new (leaseTtl : Time) : ControlArbiter := ⟨.none, 0, none, leaseTtl, 0⟩

variable (a : ControlArbiter) (principal : ControlPrincipal) (now : Time)

def conflict : BrowserSessionError := .controlConflict a.controller a.generation

def stale : BrowserSessionError := .staleGeneration a.controller a.generation

/-- What an operation that changes nothing answers. -/
def unchanged (reason : ControlTransitionReason) : Transition :=
  ⟨a.controller, a.generation, reason⟩

/-- The arbiter after `transition` (lines 94-112). -/
def moved (controller : BrowserController) : ControlArbiter :=
  { a with
    generation := wrappingAdd a.generation 1
    leaseExpiresAt := if controller.isNone then none else some (now + a.leaseTtl)
    controller := controller
    transitions := a.transitions + 1 }

/-- `transition` with its answer. -/
def transition (controller : BrowserController) (reason : ControlTransitionReason) :
    ControlArbiter × Transition :=
  let a := a.moved now controller
  (a, a.unchanged reason)

def lapsed : Bool :=
  !a.controller.isNone && (match a.leaseExpiresAt with
    | some deadline => deadline ≤ now
    | none => false)

/-- `expire_if_lapsed` (lines 50-62). -/
def expireIfLapsed : ControlArbiter × Option Transition :=
  if a.lapsed now then
    let (a, t) := a.transition now .none .expired
    (a, some t)
  else (a, none)

def renewed : ControlArbiter := { a with leaseExpiresAt := some (now + a.leaseTtl) }

def mismatches (expected : Option ℕ) : Bool :=
  match expected with
  | some expected => expected != a.generation
  | none => false

/-- Who may take the control from whom, and the reason that is recorded (lines 144-156). -/
def mayAcquire (controller : BrowserController) (takeFromAgent force : Bool) :
    Bool × ControlTransitionReason :=
  match controller, principal with
  | .none, _ => (true, .acquire)
  | .agent _, .human _ _ => if takeFromAgent || force then (true, .takeover) else (false, .acquire)
  | .human _ _, .human _ _ => if force then (true, .takeover) else (false, .acquire)
  | _, .agent _ => (false, .acquire)

/-- `acquire` (lines 122-160). -/
def acquire (takeFromAgent force : Bool) (expected : Option ℕ) :
    ControlArbiter × Except BrowserSessionError Transition :=
  let a := (a.expireIfLapsed now).1
  if a.mismatches expected then (a, .error a.stale)
  else if principal.controls a.controller then (a.renewed now, .ok (a.unchanged .acquire))
  else
    let (allowed, reason) := mayAcquire principal a.controller takeFromAgent force
    if !allowed then (a, .error a.conflict)
    else
      let (a, t) := a.transition now principal.toController reason
      (a, .ok t)

/-- `release` (lines 165-194). -/
def release (expected : Option ℕ) : ControlArbiter × Except BrowserSessionError Transition :=
  let a := (a.expireIfLapsed now).1
  if a.mismatches expected then (a, .error a.stale)
  else if a.controller.isNone then (a, .ok (a.unchanged .release))
  else if !principal.controls a.controller then (a, .error a.conflict)
  else
    let (a, t) := a.transition now .none .release
    (a, .ok t)

/-- `transfer` (lines 198-220). -/
def transfer (target : TransferTarget) (expected : ℕ) :
    ControlArbiter × Except BrowserSessionError Transition :=
  let a := (a.expireIfLapsed now).1
  if expected ≠ a.generation then (a, .error a.stale)
  else if a.controller.isNone then (a, .error a.conflict)
  else if !principal.controls a.controller then (a, .error a.conflict)
  else
    let (a, t) := a.transition now target.controller .transfer
    (a, .ok t)

/-- `release_if` (lines 225-239). -/
def releaseIf (predicate : BrowserController → Bool) (reason : ControlTransitionReason) :
    ControlArbiter × Option Transition :=
  if a.controller.isNone then (a, none)
  else if predicate a.controller then
    let (a, t) := a.transition now .none reason
    (a, some t)
  else (a, none)

/-- `admit_command` (lines 244-261). -/
def admitCommand (expected : Option ℕ) : ControlArbiter × Except BrowserSessionError ℕ :=
  let a := (a.expireIfLapsed now).1
  if a.mismatches expected then (a, .error a.stale)
  else if !principal.controls a.controller then (a, .error a.conflict)
  else (a.renewed now, .ok a.generation)

/-- `recheck_generation` (lines 266-274). -/
def recheckGeneration (admitted : ℕ) : Except BrowserSessionError Unit :=
  if admitted ≠ a.generation then .error (.controlLost a.controller a.generation) else .ok ()

end ControlArbiter

/-- The operations on the control, other than the admission of a command. -/
inductive ControlOp where
  | acquire (principal : ControlPrincipal) (takeFromAgent force : Bool) (expected : Option ℕ)
  | release (principal : ControlPrincipal) (expected : Option ℕ)
  | transfer (principal : ControlPrincipal) (target : TransferTarget) (expected : ℕ)
  | releaseIf (predicate : BrowserController → Bool) (reason : ControlTransitionReason)
  | expireIfLapsed

namespace ControlArbiter

def apply (a : ControlArbiter) (now : Time) : ControlOp → ControlArbiter
  | .acquire principal takeFromAgent force expected =>
    (a.acquire principal now takeFromAgent force expected).1
  | .release principal expected => (a.release principal now expected).1
  | .transfer principal target expected => (a.transfer principal now target expected).1
  | .releaseIf predicate reason => (a.releaseIf now predicate reason).1
  | .expireIfLapsed => (a.expireIfLapsed now).1

/-! ## What the operations do -/

/-- The generation is the number of transitions, as a `u64`. -/
def Numbered (a : ControlArbiter) : Prop := a.generation = a.transitions % 2 ^ 64

/-- What any sequence of operations does: more transitions, or the same controller. -/
structure Follows (a a' : ControlArbiter) : Prop where
  transitions_le : a.transitions ≤ a'.transitions
  controller_eq : a'.transitions = a.transitions → a'.controller = a.controller
  numbered : a.Numbered → a'.Numbered

variable {a a' a'' : ControlArbiter} {principal : ControlPrincipal} {now : Time}
  {expected : Option ℕ} {executionId : Uuid}

theorem Numbered.generation_eq (h : a.Numbered) (hfit : a.transitions ≤ u64Max) :
    a.generation = a.transitions := by
  unfold u64Max at hfit
  rw [h]
  exact Nat.mod_eq_of_lt (by omega)

theorem Follows.refl : Follows a a := ⟨Nat.le_refl _, fun _ => rfl, fun h => h⟩

theorem Follows.trans (h : Follows a a') (h' : Follows a' a'') : Follows a a'' where
  transitions_le := le_trans h.transitions_le h'.transitions_le
  controller_eq heq := by
    have hle := h.transitions_le
    have hle' := h'.transitions_le
    rw [h'.controller_eq (by omega), h.controller_eq (by omega)]
  numbered hn := h'.numbered (h.numbered hn)

theorem follows_moved (controller : BrowserController) : Follows a (a.moved now controller) where
  transitions_le := Nat.le_succ _
  controller_eq heq := absurd heq (Nat.succ_ne_self _)
  numbered hn := by
    show wrappingAdd a.generation 1 = (a.transitions + 1) % 2 ^ 64
    rw [hn, wrappingAdd, Nat.mod_add_mod]

theorem follows_renewed : Follows a (a.renewed now) := ⟨Nat.le_refl _, fun _ => rfl, fun h => h⟩

/-- The lazy expiry takes the control from a holder whose lease has lapsed. -/
theorem expireIfLapsed_fst :
    (a.expireIfLapsed now).1 = if a.lapsed now then a.moved now .none else a := by
  unfold expireIfLapsed
  split_ifs <;> rfl

theorem follows_expireIfLapsed : Follows a (a.expireIfLapsed now).1 := by
  rw [expireIfLapsed_fst]
  split_ifs
  · exact follows_moved .none
  · exact Follows.refl

theorem controller_expireIfLapsed : (a.expireIfLapsed now).1.controller =
    if a.lapsed now then .none else a.controller := by
  rw [expireIfLapsed_fst]
  split_ifs <;> rfl

/-- `acquire` in cases: nothing, a renewal or a transition after the expiry. -/
theorem acquire_cases (takeFromAgent force : Bool) :
    (a.acquire principal now takeFromAgent force expected).1 = (a.expireIfLapsed now).1 ∨
      (a.acquire principal now takeFromAgent force expected).1 =
        (a.expireIfLapsed now).1.renewed now ∨
      ((mayAcquire principal (a.expireIfLapsed now).1.controller takeFromAgent force).1 = true ∧
        (a.acquire principal now takeFromAgent force expected).1 =
          (a.expireIfLapsed now).1.moved now principal.toController) := by
  unfold acquire
  dsimp only
  generalize (a.expireIfLapsed now).1 = b
  split
  · rename_i hstale
    exact .inl rfl
  · split
    · rename_i hholder
      exact .inr (.inl rfl)
    · by_cases hallowed : (mayAcquire principal b.controller takeFromAgent force).1 = true
      · rw [hallowed]
        exact .inr (.inr ⟨rfl, rfl⟩)
      · rw [Bool.eq_false_iff.2 hallowed]
        exact .inl rfl

theorem release_cases : (a.release principal now expected).1 = (a.expireIfLapsed now).1 ∨
    (a.release principal now expected).1 = (a.expireIfLapsed now).1.moved now .none := by
  unfold release
  dsimp only
  split_ifs
  · exact .inl rfl
  · exact .inl rfl
  · exact .inl rfl
  · exact .inr rfl

theorem transfer_cases (target : TransferTarget) (expected : ℕ) :
    (a.transfer principal now target expected).1 = (a.expireIfLapsed now).1 ∨
      (principal.controls (a.expireIfLapsed now).1.controller = true ∧
        (a.transfer principal now target expected).1 =
          (a.expireIfLapsed now).1.moved now target.controller) := by
  unfold transfer
  dsimp only
  split_ifs with hstale hnone hholder
  · exact .inl rfl
  · exact .inl rfl
  · exact .inl rfl
  · right
    rw [Bool.not_eq_true', Bool.not_eq_false] at hholder
    exact ⟨hholder, rfl⟩

theorem releaseIf_cases (predicate : BrowserController → Bool)
    (reason : ControlTransitionReason) : (a.releaseIf now predicate reason).1 = a ∨
      (a.releaseIf now predicate reason).1 = a.moved now .none := by
  unfold releaseIf
  split_ifs
  · exact .inl rfl
  · exact .inr rfl
  · exact .inl rfl

theorem apply_follows (op : ControlOp) : Follows a (a.apply now op) := by
  have hexpire : Follows a (a.expireIfLapsed now).1 := follows_expireIfLapsed
  cases op with
  | acquire principal takeFromAgent force expected =>
    show Follows a (a.acquire principal now takeFromAgent force expected).1
    rcases acquire_cases takeFromAgent force with h | h | ⟨-, h⟩ <;> rw [h]
    · exact hexpire
    · exact hexpire.trans follows_renewed
    · exact hexpire.trans (follows_moved _)
  | release principal expected =>
    show Follows a (a.release principal now expected).1
    rcases release_cases with h | h <;> rw [h]
    · exact hexpire
    · exact hexpire.trans (follows_moved _)
  | transfer principal target expected =>
    show Follows a (a.transfer principal now target expected).1
    rcases transfer_cases target expected with h | ⟨-, h⟩ <;> rw [h]
    · exact hexpire
    · exact hexpire.trans (follows_moved _)
  | releaseIf predicate reason =>
    show Follows a (a.releaseIf now predicate reason).1
    rcases releaseIf_cases predicate reason with h | h <;> rw [h]
    · exact Follows.refl
    · exact follows_moved _
  | expireIfLapsed => exact hexpire

theorem admitCommand_ok {g : ℕ} (h : (a.admitCommand principal now expected).2 = .ok g) :
    (a.admitCommand principal now expected).1.generation = g ∧
      (a.admitCommand principal now expected).1.controller = principal.toController := by
  unfold admitCommand at h ⊢
  dsimp only at h ⊢
  split_ifs at h ⊢ with hstale hholder
  cases h
  rw [Bool.not_eq_true', Bool.not_eq_false] at hholder
  exact ⟨rfl, (beq_iff_eq.1 hholder).symm⟩

theorem admitCommand_follows : Follows a (a.admitCommand principal now expected).1 := by
  have hexpire : Follows a (a.expireIfLapsed now).1 := follows_expireIfLapsed
  unfold admitCommand
  dsimp only
  split_ifs
  · exact hexpire
  · exact hexpire
  · exact hexpire.trans follows_renewed

theorem controller_admitCommand : (a.admitCommand principal now expected).1.controller =
    (a.expireIfLapsed now).1.controller := by
  unfold admitCommand
  dsimp only
  split_ifs <;> rfl

/-! ## How an agent becomes the controller -/

theorem mayAcquire_agent {controller : BrowserController} {takeFromAgent force : Bool}
    (h : (mayAcquire (.agent executionId) controller takeFromAgent force).1 = true) :
    controller = .none := by
  cases controller with
  | none => rfl
  | agent e => cases h
  | human u c => cases h

/-- An operation that makes an agent the controller takes the control from nobody, from a holder
    whose lease has lapsed, or is that holder's transfer. -/
theorem agent_controller {op : ControlOp} (h : (a.apply now op).controller = .agent executionId)
    (hne : a.controller ≠ .agent executionId) : a.controller = .none ∨ a.lapsed now = true ∨
      ∃ principal target expected, op = .transfer principal target expected ∧
        principal.controls a.controller = true := by
  have hexpire : ∀ b : ControlArbiter, b.controller = (a.expireIfLapsed now).1.controller →
      b.controller = .agent executionId → False := by
    intro b hb hagent
    rw [hb, controller_expireIfLapsed] at hagent
    split_ifs at hagent
    exact hne hagent
  -- what the controller was after the expiry, it was before unless the lease had lapsed
  have hback : ∀ {P : BrowserController → Prop}, P (a.expireIfLapsed now).1.controller →
      P a.controller ∨ a.lapsed now = true := by
    intro P hP
    rw [controller_expireIfLapsed] at hP
    split_ifs at hP with hlapsed
    · exact .inr hlapsed
    · exact .inl hP
  cases op with
  | acquire principal takeFromAgent force expected =>
    replace h : (a.acquire principal now takeFromAgent force expected).1.controller =
      .agent executionId := h
    rcases acquire_cases takeFromAgent force with heq | heq | ⟨hallowed, heq⟩ <;> rw [heq] at h
    · exact (hexpire _ rfl h).elim
    · exact (hexpire _ rfl h).elim
    · have hprincipal : principal = .agent executionId := by
        cases principal with cases h
        | agent e => rfl
      rw [hprincipal] at hallowed
      rcases hback (P := (· = .none)) (mayAcquire_agent hallowed) with hnone | hlapsed
      · exact .inl hnone
      · exact .inr (.inl hlapsed)
  | release principal expected =>
    replace h : (a.release principal now expected).1.controller = .agent executionId := h
    rcases release_cases with heq | heq <;> rw [heq] at h
    · exact (hexpire _ rfl h).elim
    · cases h
  | transfer principal target expected =>
    replace h : (a.transfer principal now target expected).1.controller = .agent executionId := h
    rcases transfer_cases target expected with heq | ⟨hholder, heq⟩ <;> rw [heq] at h
    · exact (hexpire _ rfl h).elim
    · rcases hback (P := (principal.controls · = true)) hholder with hcontrols | hlapsed
      · exact .inr (.inr ⟨principal, target, expected, rfl, hcontrols⟩)
      · exact .inr (.inl hlapsed)
  | releaseIf predicate reason =>
    replace h : (a.releaseIf now predicate reason).1.controller = .agent executionId := h
    rcases releaseIf_cases predicate reason with heq | heq <;> rw [heq] at h
    · exact absurd h hne
    · cases h
  | expireIfLapsed => exact (hexpire _ rfl h).elim

end ControlArbiter

end VibeKanban.Browser
