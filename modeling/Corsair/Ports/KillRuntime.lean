import Mathlib.Logic.Function.Basic
import Corsair.Verified.Runs
import Corsair.Ports.RiskMonitor

/-!
# The runtime tasks around the kill slot

Four tasks fire kills: the periodic risk check, the per-fill check, the trader
watchdog and the error pump.  The first two check and fire under one lock.
The other two look at the slot under one lock, each only for its own source,
and fire under another.  Having fired, every task publishes the event and then
sweeps the resting orders.  A `Connected` event and the session rollover run
the two clear operations.

`step` takes one of these steps; a task's place between two of its locks is
its `Phase`.  `fired` lists every event given to `fire`, in order.

## Main results

* `disconnect_kill_unsticks` — an error that fires a disconnect kill over a
  sticky one, and the reconnect after it, leave the monitor without a kill.
* `sticky_kill_stays` — where no disconnect kill is fired over a sticky one,
  a monitor that has ever fired a sticky kill stays killed.
-/

namespace Corsair.Ports.KillRuntime

open Corsair.Verified
open Corsair.Verified.Runs
open Corsair.Ports.Kill
open Corsair.Ports.RiskMonitor

/-- `BrokerError`. -/
inductive BrokerError
  | connectionLost (message : String)
  | notConnected (message : String)
  | orderRejected (orderId : Option Nat) (reason : String)
  | cancelTerminal (message : String)
  | modifyTerminal (message : String)
  | contractNotFound (message : String)
  | rateLimited (message : String)
  | account (message : String)
  | invalidRequest (message : String)
  | protocol (code : Option Int) (message : String)
  | internal (message : String)
  deriving DecidableEq, Repr

/-- The codes that `pump_errors` takes for a disconnect. -/
def disconnectCodes : List Int := [1100, 1102, 1300, 504]

/-- `disconnect_kill`: the reason with which `pump_errors` fires, if it
does. -/
def disconnectReason : BrokerError → Option String
  | .connectionLost message => some ("broker error → ConnectionLost: " ++ message)
  | .protocol (some code) message =>
      if code ∈ disconnectCodes then
        some ("broker error → Protocol " ++ toString code ++ ": " ++ message)
      else none
  | _ => none

/-- The tasks that fire kills. -/
inductive TaskName
  | riskCheck
  | fills
  | watchdog
  | errors
  deriving DecidableEq, Repr

/-- Where a task stands between two of its locks. -/
inductive Phase
  | idle
  | firing (ev : KillEvent)
  | publishing (ev : KillEvent)
  | sweeping (ev : KillEvent)
  deriving DecidableEq, Repr

/-- The task is about to fire. -/
def Phase.isFiring : Phase → Bool
  | .firing _ => true
  | _ => false

/-- The monitor, the tasks, and every event that was fired. -/
structure KillState (F : Type) where
  risk : RiskMonitor F
  tasks : TaskName → Phase
  fired : List KillEvent

/-- A step of one task, with what it reads. -/
inductive KillStep (F : Type)
  | riskCheck (inp : CheckInput F)
  | fillCheck (inp : CheckInput F)
  | watchdogTick (timeoutNs last now : Nat)
  | brokerError (err : BrokerError) (now : Nat)
  | advance (task : TaskName)
  | connected
  | rollover

variable {F : Type}

/-- Move a task to a phase. -/
def KillState.setPhase (s : KillState F) (task : TaskName) (phase : Phase) : KillState F :=
  { s with tasks := Function.update s.tasks task phase }

/-- `RiskMonitor::fire` on the shared monitor. -/
def KillState.fire (s : KillState F) (ev : KillEvent) : KillState F :=
  { s with risk := (s.risk.fire ev).2, fired := s.fired ++ [ev] }

/-- A check under the lock, by a task that acts on `Killed`. -/
def KillState.afterCheck (s : KillState F) (task : TaskName)
    (result : RiskCheckOutcome × RiskMonitor F) : KillState F :=
  match result.1 with
  | .killed ev =>
      { s with
        risk := result.2
        tasks := Function.update s.tasks task (.publishing ev)
        fired := s.fired ++ [ev] }
  | _ => { s with risk := result.2 }

/-- The event of `trader_watchdog`. -/
def traderSilentEvent (last now : Nat) : KillEvent :=
  { reason := "TRADER SILENT: no commands-ring frame for " ++
      toString ((now - last) / 1000000) ++ "ms"
    source := .traderSilent
    killType := .halt
    timestampNs := now }

/-- The event of `pump_errors`. -/
def disconnectEvent (reason : String) (now : Nat) : KillEvent :=
  { reason := reason, source := .disconnect, killType := .halt, timestampNs := now }

/-- The slot holds the kill of a source that satisfies `p`. -/
def KillState.killedFor (s : KillState F) (p : KillSource → Bool) : Bool :=
  (s.risk.killed.map fun ev => p ev.source).getD false

theorem killedFor_eq_false {s : KillState F} {p : KillSource → Bool}
    (h : s.killedFor p = false) : ∀ ev, s.risk.killed = some ev → p ev.source = false := by
  intro ev hheld
  simpa [KillState.killedFor, hheld] using h

/-- The next step of a task that is inside its kill path. -/
def KillState.advance (s : KillState F) (task : TaskName) : KillState F :=
  match s.tasks task with
  | .idle => s
  | .firing ev => (s.fire ev).setPhase task (.publishing ev)
  | .publishing ev => s.setPhase task (.sweeping ev)
  | .sweeping _ => s.setPhase task .idle

/-! ## What each piece does to the slot -/

/-- The slot holds a sticky kill. -/
def StickyHeld (m : RiskMonitor F) : Prop :=
  ∃ held, m.killed = some held ∧ held.source.Sticky

instance (m : RiskMonitor F) : Decidable (StickyHeld m) :=
  match h : m.killed with
  | none => isFalse (by rintro ⟨held, hheld, -⟩; simp [h] at hheld)
  | some held => decidable_of_iff held.source.Sticky (by simp [StickyHeld, h])

/-- The effect of a step on the slot and the list of fired events. -/
inductive SlotStep (s : KillState F) (st : KillStep F) (s' : KillState F) : Prop
  | kept (hslot : s'.risk.killed = s.risk.killed) (hfired : s'.fired = s.fired)
  | filled (ev : KillEvent) (hempty : s.risk.killed = none)
      (hslot : s'.risk.killed = some ev) (hfired : s'.fired = s.fired ++ [ev])
  | overwritten (task : TaskName) (ev : KillEvent) (hstep : st = .advance task)
      (hphase : s.tasks task = .firing ev)
      (hslot : s'.risk.killed = some ev) (hfired : s'.fired = s.fired ++ [ev])
  | cleared (held : KillEvent) (hheld : s.risk.killed = some held)
      (hloose : ¬ held.source.Sticky) (hslot : s'.risk.killed = none)
      (hfired : s'.fired = s.fired)

/-- **A check.** It leaves all as it is, or it fills an empty slot and its task publishes. -/
theorem afterCheck_cases (s : KillState F) (task : TaskName) (trigger : Option KillEvent) :
    s.afterCheck task (s.risk.checkWith trigger) = s ∨
      ∃ ev, s.risk.killed = none ∧ s.afterCheck task (s.risk.checkWith trigger) =
        { s with
          risk := { s.risk with killed := some ev }
          tasks := Function.update s.tasks task (.publishing ev)
          fired := s.fired ++ [ev] } := by
  rcases checkWith_cases s.risk trigger with ⟨hsame, hquiet⟩ | ⟨ev, hempty, -, hfire⟩
  · unfold KillState.afterCheck
    left
    split
    · rename_i ev hkilled
      exact absurd hkilled (hquiet ev)
    · rw [hsame]
  · rw [hfire]
    exact .inr ⟨ev, hempty, rfl⟩

theorem slotStep_afterCheck (s : KillState F) (st : KillStep F) (task : TaskName)
    (trigger : Option KillEvent) :
    SlotStep s st (s.afterCheck task (s.risk.checkWith trigger)) := by
  rcases afterCheck_cases s task trigger with hsame | ⟨ev, hempty, hfire⟩
  · rw [hsame]
    exact .kept rfl rfl
  · rw [hfire]
    exact .filled ev hempty rfl rfl

theorem slotStep_advance (s : KillState F) (task : TaskName) :
    SlotStep s (.advance task) (s.advance task) := by
  unfold KillState.advance
  cases hphase : s.tasks task with
  | idle => exact .kept rfl rfl
  | firing ev => exact .overwritten task ev rfl hphase rfl rfl
  | publishing ev => exact .kept rfl rfl
  | sweeping ev => exact .kept rfl rfl

theorem slotStep_connected (s : KillState F) :
    SlotStep s .connected { s with risk := s.risk.clearDisconnectKill.2 } := by
  unfold clearDisconnectKill
  cases hheld : s.risk.killed with
  | none => exact .kept rfl rfl
  | some held =>
      by_cases hsource : held.source.isDisconnect
      · refine .cleared held hheld ?_ (by simp [hsource]) rfl
        intro hsticky
        rw [((KillSource.sticky_iff held.source).mp hsticky).1] at hsource
        cases hsource
      · exact .kept (by simp [hsource, hheld]) rfl

theorem slotStep_rollover (s : KillState F) :
    SlotStep s .rollover { s with risk := s.risk.clearDailyHalt.2 } := by
  unfold clearDailyHalt
  cases hheld : s.risk.killed with
  | none => exact .kept rfl rfl
  | some held =>
      by_cases hsource : held.source.isDailyClearable
      · refine .cleared held hheld ?_ (by simp [hsource]) rfl
        intro hsticky
        rw [((KillSource.sticky_iff held.source).mp hsticky).2] at hsource
        cases hsource
      · exact .kept (by simp [hsource, hheld]) rfl

/-! ## The tasks that fire past the slot -/

/-- Only the watchdog and the error pump stand before a fire, each with its
own source. -/
def FiringSources (s : KillState F) : Prop :=
  ∀ task ev, s.tasks task = .firing ev →
    (task = .watchdog ∧ ev.source = .traderSilent) ∨
      (task = .errors ∧ ev.source = .disconnect)

theorem FiringSources.setPhase {s : KillState F} (h : FiringSources s) {task : TaskName}
    {phase : Phase}
    (hphase : ∀ ev, phase = .firing ev → (task = .watchdog ∧ ev.source = .traderSilent) ∨
      (task = .errors ∧ ev.source = .disconnect)) :
    FiringSources (s.setPhase task phase) := by
  intro task' ev hfiring
  by_cases hsame : task' = task
  · subst hsame
    simp only [KillState.setPhase, Function.update_self] at hfiring
    exact hphase ev hfiring
  · simp only [KillState.setPhase, Function.update_of_ne hsame] at hfiring
    exact h task' ev hfiring

theorem FiringSources.afterCheck {s : KillState F} (h : FiringSources s) (task : TaskName)
    (result : RiskCheckOutcome × RiskMonitor F) :
    FiringSources (s.afterCheck task result) := by
  unfold KillState.afterCheck
  split
  · exact FiringSources.setPhase (s := { s with risk := result.2, fired := _ }) h
      (by intro ev hev; cases hev)
  · exact h

/-! ## The step function -/

variable [F64 F]

/-- One step.  A task that is inside its kill path takes no new input. -/
def step (s : KillState F) : KillStep F → KillState F
  | .riskCheck inp =>
      if s.tasks .riskCheck = .idle then s.afterCheck .riskCheck (s.risk.check inp) else s
  | .fillCheck inp =>
      if s.tasks .fills = .idle then s.afterCheck .fills (s.risk.checkDailyPnlOnly inp) else s
  | .watchdogTick timeoutNs last now =>
      if s.tasks .watchdog = .idle then
        if last = 0 then s
        else if now - last ≤ timeoutNs then s
        else if s.killedFor (· == .traderSilent) then s
        else s.setPhase .watchdog (.firing (traderSilentEvent last now))
      else s
  | .brokerError err now =>
      if s.tasks .errors = .idle then
        match disconnectReason err with
        | none => s
        | some reason =>
            if s.killedFor KillSource.isDisconnect then s
            else s.setPhase .errors (.firing (disconnectEvent reason now))
      else s
  | .advance task => s.advance task
  | .connected => { s with risk := s.risk.clearDisconnectKill.2 }
  | .rollover => { s with risk := s.risk.clearDailyHalt.2 }

/-- A freshly started runtime. -/
def start (cfg : RiskConfig F) : KillState F :=
  { risk := { cfg := cfg, killed := none }
    tasks := fun _ => .idle
    fired := [] }

/-- An error that loses the connection while the trader-silent kill is in the
slot, and the reconnect after it. -/
def unstickingRun : List (KillStep ℚ) :=
  [.watchdogTick 5000000000 1 6000000000, .advance .watchdog,
    .brokerError (.connectionLost "reset by peer") 6100000000, .advance .errors, .connected]

/-- The disconnect kill replaces the trader-silent one, and the reconnect
clears it: a sticky kill has been fired and the monitor is not killed. -/
theorem disconnect_kill_unsticks :
    let s := run step (start ⟨1, 1, none⟩) unstickingRun
    (∃ ev ∈ s.fired, ev.source.Sticky) ∧ s.risk.isKilled = false := by
  decide

/-! ## What a step can do -/

/-- The event that a step publishes: a task that stands before its
`publish_kill` is advanced. -/
def publishes (s : KillState F) : KillStep F → Option KillEvent
  | .advance task =>
      match s.tasks task with
      | .publishing ev => some ev
      | _ => none
  | _ => none

/-- The effect of a step.  The guards of `step` and the inputs that they read
do not come back in what follows. -/
inductive StepCase (s : KillState F) (st : KillStep F) (s' : KillState F) : Prop
  | waited (hquiet : publishes s st = none) (hstep : s' = s)
  | checked (task : TaskName) (trigger : Option KillEvent) (hquiet : publishes s st = none)
      (hstep : s' = s.afterCheck task (s.risk.checkWith trigger))
  | armed (task : TaskName) (ev : KillEvent) (hquiet : publishes s st = none)
      (hidle : s.tasks task = .idle)
      (hsource : (task = .watchdog ∧ ev.source = .traderSilent) ∨
        (task = .errors ∧ ev.source = .disconnect))
      (hstep : s' = s.setPhase task (.firing ev))
  | advanced (task : TaskName) (hadvance : st = .advance task) (hstep : s' = s.advance task)
  | connected (hconnected : st = .connected)
      (hstep : s' = { s with risk := s.risk.clearDisconnectKill.2 })
  | rollover (hrollover : st = .rollover)
      (hstep : s' = { s with risk := s.risk.clearDailyHalt.2 })

theorem stepCase_watchdogTick (s : KillState F) (timeoutNs last now : Nat) :
    StepCase s (.watchdogTick timeoutNs last now) (step s (.watchdogTick timeoutNs last now)) := by
  simp only [step]
  split
  · rename_i hidle
    split
    · exact .waited rfl rfl
    · split
      · exact .waited rfl rfl
      · split
        · exact .waited rfl rfl
        · exact .armed .watchdog _ rfl hidle (.inl ⟨rfl, rfl⟩) rfl
  · exact .waited rfl rfl

theorem stepCase_brokerError (s : KillState F) (err : BrokerError) (now : Nat) :
    StepCase s (.brokerError err now) (step s (.brokerError err now)) := by
  simp only [step]
  split
  · rename_i hidle
    split
    · exact .waited rfl rfl
    · split
      · exact .waited rfl rfl
      · exact .armed .errors _ rfl hidle (.inr ⟨rfl, rfl⟩) rfl
  · exact .waited rfl rfl

/-- Every step is one of the six. -/
theorem step_cases (s : KillState F) (st : KillStep F) : StepCase s st (step s st) := by
  cases st with
  | riskCheck inp =>
      simp only [step]
      split
      · exact .checked .riskCheck _ rfl rfl
      · exact .waited rfl rfl
  | fillCheck inp =>
      simp only [step]
      split
      · exact .checked .fills _ rfl rfl
      · exact .waited rfl rfl
  | watchdogTick timeoutNs last now => exact stepCase_watchdogTick s timeoutNs last now
  | brokerError err now => exact stepCase_brokerError s err now
  | advance task => exact .advanced task rfl rfl
  | connected => exact .connected rfl rfl
  | rollover => exact .rollover rfl rfl

/-- Every step is one of the four. -/
theorem step_slotStep (s : KillState F) (st : KillStep F) : SlotStep s st (step s st) := by
  cases step_cases s st with
  | waited hquiet hstep =>
      rw [hstep]
      exact .kept rfl rfl
  | checked task trigger hquiet hstep =>
      rw [hstep]
      exact slotStep_afterCheck s st task trigger
  | armed task ev hquiet hidle hsource hstep =>
      rw [hstep]
      exact .kept rfl rfl
  | advanced task hadvance hstep =>
      rw [hstep, hadvance]
      exact slotStep_advance s task
  | connected hconnected hstep =>
      rw [hstep, hconnected]
      exact slotStep_connected s
  | rollover hrollover hstep =>
      rw [hstep, hrollover]
      exact slotStep_rollover s

/-- A clear operation finds a kill of its source. -/
def clears (s : KillState F) : KillStep F → Bool
  | .connected => s.killedFor KillSource.isDisconnect
  | .rollover => s.killedFor KillSource.isDailyClearable
  | _ => false

/-- The effect of a step on the slot and on the events that are yet to be
published. -/
inductive PublishStep (s : KillState F) (st : KillStep F) (s' : KillState F) : Prop
  | quiet (hnone : publishes s st = none) (hslot : s'.risk.killed = s.risk.killed)
      (htasks : ∀ task ev, s'.tasks task = .publishing ev ↔ s.tasks task = .publishing ev)
  | fired (task : TaskName) (ev : KillEvent) (hnone : publishes s st = none)
      (hslot : s'.risk.killed = some ev) (htask : s'.tasks task = .publishing ev)
      (hother : ∀ task' ev', s'.tasks task' = .publishing ev' →
        s.tasks task' = .publishing ev' ∨ ev' = ev)
  | published (task : TaskName) (ev : KillEvent) (hsome : publishes s st = some ev)
      (hslot : s'.risk.killed = s.risk.killed)
      (htask : s.tasks task = .publishing ev)
      (hother : ∀ task' ev', s'.tasks task' = .publishing ev' ↔
        task' ≠ task ∧ s.tasks task' = .publishing ev')
  | cleared (hnone : publishes s st = none) (hclears : clears s st = true)

omit [F64 F] in
/-- Moving a task between phases other than `publishing` is quiet. -/
theorem setPhase_publishing {s : KillState F} {task : TaskName} {phase : Phase}
    (hfrom : ∀ ev, s.tasks task ≠ .publishing ev) (hto : ∀ ev, phase ≠ .publishing ev)
    (task' : TaskName) (ev : KillEvent) :
    (s.setPhase task phase).tasks task' = .publishing ev ↔ s.tasks task' = .publishing ev := by
  by_cases hsame : task' = task
  · subst hsame
    simp [KillState.setPhase, hfrom ev, hto ev]
  · simp [KillState.setPhase, Function.update_of_ne hsame]

omit [F64 F] in
theorem publishStep_afterCheck (s : KillState F) (st : KillStep F) (task : TaskName)
    (trigger : Option KillEvent) (hnone : publishes s st = none) :
    PublishStep s st (s.afterCheck task (s.risk.checkWith trigger)) := by
  rcases afterCheck_cases s task trigger with hsame | ⟨ev, hempty, hfire⟩
  · rw [hsame]
    exact .quiet hnone rfl fun _ _ => Iff.rfl
  · rw [hfire]
    apply PublishStep.fired task ev hnone rfl
    · simp
    · intro task' ev' htask'
      by_cases hsame : task' = task
      · subst hsame
        simp only [Function.update_self, Phase.publishing.injEq] at htask'
        exact .inr htask'.symm
      · simp only [Function.update_of_ne hsame] at htask'
        exact .inl htask'

omit [F64 F] in
theorem publishStep_advance (s : KillState F) (task : TaskName) :
    PublishStep s (.advance task) (s.advance task) := by
  unfold KillState.advance
  cases hphase : s.tasks task with
  | idle => exact .quiet (by simp [publishes, hphase]) rfl fun _ _ => Iff.rfl
  | firing ev =>
      apply PublishStep.fired task ev (by simp [publishes, hphase]) rfl
      · simp [KillState.setPhase]
      · intro task' ev' htask'
        by_cases hsame : task' = task
        · subst hsame
          simp only [KillState.setPhase, Function.update_self, Phase.publishing.injEq] at htask'
          exact .inr htask'.symm
        · simp only [KillState.setPhase, Function.update_of_ne hsame] at htask'
          exact .inl htask'
  | publishing ev =>
      have hother : ∀ task' ev',
          (s.setPhase task (.sweeping ev)).tasks task' = .publishing ev' ↔
            task' ≠ task ∧ s.tasks task' = .publishing ev' := by
        intro task' ev'
        by_cases hsame : task' = task
        · subst hsame
          simp [KillState.setPhase]
        · simp [KillState.setPhase, hsame]
      exact .published task ev (by simp [publishes, hphase]) rfl hphase hother
  | sweeping ev =>
      exact .quiet (by simp [publishes, hphase]) rfl
        (setPhase_publishing (by simp [hphase]) (by simp))

/-- Every step is one of the four. -/
theorem step_publishStep (s : KillState F) (st : KillStep F) : PublishStep s st (step s st) := by
  cases step_cases s st with
  | waited hquiet hstep =>
      rw [hstep]
      exact .quiet hquiet rfl fun _ _ => Iff.rfl
  | checked task trigger hquiet hstep =>
      rw [hstep]
      exact publishStep_afterCheck s st task trigger hquiet
  | armed task ev hquiet hidle hsource hstep =>
      rw [hstep]
      exact .quiet hquiet rfl (setPhase_publishing (by simp [hidle]) (by simp))
  | advanced task hadvance hstep =>
      rw [hstep, hadvance]
      exact publishStep_advance s task
  | connected hconnected hstep =>
      rw [hstep, hconnected]
      cases hclears : clears s .connected with
      | true => exact .cleared rfl hclears
      | false =>
          have hkeeps := clearDisconnectKill_keeps (killedFor_eq_false hclears)
          exact .quiet rfl (congrArg RiskMonitor.killed hkeeps) fun _ _ => Iff.rfl
  | rollover hrollover hstep =>
      rw [hstep, hrollover]
      cases hclears : clears s .rollover with
      | true => exact .cleared rfl hclears
      | false =>
          have hkeeps := clearDailyHalt_keeps (killedFor_eq_false hclears)
          exact .quiet rfl (congrArg RiskMonitor.killed hkeeps) fun _ _ => Iff.rfl

omit [F64 F] in
theorem FiringSources.advance {s : KillState F} (h : FiringSources s) (task : TaskName) :
    FiringSources (s.advance task) := by
  unfold KillState.advance
  split
  · exact h
  · exact FiringSources.setPhase (s := s.fire _) h (by intro ev hev; cases hev)
  · exact h.setPhase (by intro ev hev; cases hev)
  · exact h.setPhase (by intro ev hev; cases hev)

theorem FiringSources.step {s : KillState F} (h : FiringSources s) (st : KillStep F) :
    FiringSources (step s st) := by
  cases step_cases s st with
  | waited hquiet hstep =>
      rw [hstep]
      exact h
  | checked task trigger hquiet hstep =>
      rw [hstep]
      exact h.afterCheck task _
  | armed task ev hquiet hidle hsource hstep =>
      rw [hstep]
      apply h.setPhase
      intro ev' hev
      cases hev
      exact hsource
  | advanced task hadvance hstep =>
      rw [hstep]
      exact h.advance task
  | connected hconnected hstep =>
      rw [hstep]
      exact h
  | rollover hrollover hstep =>
      rw [hstep]
      exact h

/-! ## Sticky kills over whole runs -/

/-- The step does not fire a disconnect kill over a sticky one. -/
def SparesSticky (s : KillState F) : KillStep F → Prop
  | .advance .errors => (s.tasks .errors).isFiring = true → ¬ StickyHeld s.risk
  | _ => True

instance (s : KillState F) (st : KillStep F) : Decidable (SparesSticky s st) := by
  unfold SparesSticky
  split <;> infer_instance

/-- Once a sticky kill has been fired, the slot holds a sticky kill. -/
structure StickyInv (s : KillState F) : Prop where
  sources : FiringSources s
  held : (∃ ev ∈ s.fired, ev.source.Sticky) → StickyHeld s.risk

omit [F64 F] in
theorem start_stickyInv (cfg : RiskConfig F) : StickyInv (start cfg) where
  sources := by
    intro task ev hfiring
    cases hfiring
  held := by
    rintro ⟨ev, hev, -⟩
    cases hev

theorem StickyInv.step {s : KillState F} (h : StickyInv s) {st : KillStep F}
    (hspares : SparesSticky s st) : StickyInv (step s st) := by
  refine ⟨h.sources.step st, ?_⟩
  rintro ⟨ev, hev, hsticky⟩
  cases step_slotStep s st with
  | kept hslot hfired =>
      rw [hfired] at hev
      rcases h.held ⟨ev, hev, hsticky⟩ with ⟨held, hheld, hs⟩
      exact ⟨held, hslot.trans hheld, hs⟩
  | filled ev' hempty hslot hfired =>
      rw [hfired, List.mem_append, List.mem_singleton] at hev
      rcases hev with hold | rfl
      · -- A sticky kill fired before would still be in the slot.
        rcases h.held ⟨ev, hold, hsticky⟩ with ⟨held, hheld, -⟩
        rw [hempty] at hheld
        cases hheld
      · exact ⟨ev, hslot, hsticky⟩
  | overwritten task ev' hstep hphase hslot hfired =>
      rcases h.sources task ev' hphase with ⟨-, hsource⟩ | ⟨rfl, hsource⟩
      · refine ⟨ev', hslot, ?_⟩
        rw [hsource]
        trivial
      · rw [hfired, List.mem_append, List.mem_singleton] at hev
        have hfree : ¬ StickyHeld s.risk := by
          subst hstep
          exact hspares (by rw [hphase]; rfl)
        rcases hev with hold | rfl
        · exact absurd (h.held ⟨ev, hold, hsticky⟩) hfree
        · rw [hsource] at hsticky
          exact hsticky.elim
  | cleared held hheld hloose hslot hfired =>
      rw [hfired] at hev
      rcases h.held ⟨ev, hev, hsticky⟩ with ⟨held', hheld', hs⟩
      rw [hheld] at hheld'
      cases hheld'
      exact absurd hs hloose

/-- **Sticky kills stay.** In every run of the runtime's tasks, in any order,
in which no disconnect kill is fired over a sticky one: once a sticky kill has
been fired, the monitor is killed. -/
theorem sticky_kill_stays (cfg : RiskConfig F) (steps : List (KillStep F))
    (hspares : Meets step SparesSticky (start cfg) steps) :
    let s := run step (start cfg) steps
    ∀ ev ∈ s.fired, ev.source.Sticky → s.risk.isKilled = true := by
  intro s ev hev hsticky
  have hinv : StickyInv s :=
    run_invariant_of_meets StickyInv (fun _ _ hst h => h.step hst) (start_stickyInv cfg)
      steps hspares
  rcases hinv.held ⟨ev, hev, hsticky⟩ with ⟨held, hheld, -⟩
  rw [isKilled, hheld]
  rfl

/-- A disconnect kill that the watchdog overwrites before the reconnect. -/
def stickingRun : List (KillStep ℚ) :=
  [.brokerError (.protocol (some 1100) "connectivity lost") 5900000000, .advance .errors,
    .watchdogTick 5000000000 1 6000000000, .advance .watchdog, .connected, .rollover]

theorem sticky_kill_stays_over_reconnect :
    Meets step SparesSticky (start ⟨1, 1, none⟩) stickingRun ∧
      (∃ ev ∈ (run step (start ⟨1, 1, none⟩) stickingRun).fired, ev.source.Sticky) ∧
      ∀ ev ∈ (run step (start ⟨1, 1, none⟩) stickingRun).fired, ev.source.Sticky →
        (run step (start ⟨1, 1, none⟩) stickingRun).risk.isKilled = true :=
  ⟨by decide, by decide, sticky_kill_stays ⟨1, 1, none⟩ stickingRun (by decide)⟩

end Corsair.Ports.KillRuntime
