import Corsair.Ports.TraderHalt
import Corsair.Ports.OrderTracking

/-!
# The fail-safe gates of the trader

A weekend pause, a risk state that blocks all and a surface older than two
minutes are each a gate of `decide_on_tick`: while one of them is shut for an
option, no tick quotes it.  The staleness loop prices and amends the resting
orders from the same scalars and surfaces and has none of the gates, neither
where it collects the amends of a pass nor where it writes them.

`Gated` says that a gate is shut for an option at a clock, and `GatesBind` that
what a step quotes is an option whose gates are open.

## Main results

* `decideOnTick_gated` — the gates bind the tick path in every state.
* `gated_orders_amended` — each gate shut in turn, and a staleness pass writes a
  `modify_order` all the same.
* `fail_safe_gates_bind` — they bind every step of a run in which no pass
  collects over a drift-stale order of a gated option, and no event shuts a gate
  of an option of which a pass has an amend left.
-/

namespace Corsair.Ports.FailSafeGates

open Corsair.Verified
open Corsair.Verified.Runs
open Corsair.Ports.TraderState
open Corsair.Ports.DecideOnTick
open Corsair.Ports.Trader
open Corsair.Ports.TraderHalt
open Corsair.Ports.OrderTracking

variable {F : Type}

/-! ## The gates -/

/-- The option's surface has a fit time and is more than 120 s older than the
wall clock. -/
def SurfaceStale (s : SharedState F) (clock : Clock F) (expiry : String) (right : Char) : Prop :=
  ∃ vp ∈ s.lookupVolSurface expiry right,
    0 < vp.fitTsNs ∧ 120000000000 < clock.wallNs - vp.fitTsNs

instance (s : SharedState F) (clock : Clock F) (expiry : String) (right : Char) :
    Decidable (SurfaceStale s clock expiry right) := by
  unfold SurfaceStale
  infer_instance

/-- What the steps trade in: the option of a tick, or that of the next action of the
pass, with the clock that is read for it. -/
def tradedAt (s : TraderSys F) : TraderStep F → Option (Clock F × String × Char)
  | .event (.tick msg) clock _ =>
      (firstUpper msg.right).map fun right => (clock, msg.expiry, right)
  | .event _ _ _ => none
  | .collect _ => none
  | .act _ =>
      s.pass.bind fun pass =>
        pass.actions.head?.map fun action =>
          (pass.clock, (actionKey action).2.1, (actionKey action).2.2.1)

variable [F64 F]

/-- A fail-safe gate is shut for the option. -/
def Gated (s : SharedState F) (clock : Clock F) (expiry : String) (right : Char) : Prop :=
  s.scalars.weekendPaused = true ∨ (computeRiskGates s.scalars clock.monoNs).1.blockAll = true ∨
    SurfaceStale s clock expiry right

instance (s : SharedState F) (clock : Clock F) (expiry : String) (right : Char) :
    Decidable (Gated s clock expiry right) := by
  unfold Gated
  infer_instance

/-- The gates bind a step: a place or a modify that it writes is for an option none of
whose gates is shut. -/
def GatesBind (pricing : Pricing F) (placesOrders : Bool) (s : TraderSys F)
    (st : TraderStep F) : Prop :=
  ∀ command ∈ (traderStep pricing placesOrders s st).1, command.Quotes →
    ∃ t ∈ tradedAt s st, ¬ Gated s.shared t.1 t.2.1 t.2.2

instance (pricing : Pricing F) (placesOrders : Bool) (s : TraderSys F) (st : TraderStep F) :
    Decidable (GatesBind pricing placesOrders s st) := by
  unfold GatesBind
  infer_instance

/-- The gates read the scalars and the surfaces only. -/
theorem gated_congr {s s' : SharedState F} (hscalars : s'.scalars = s.scalars)
    (hsurfaces : s'.volSurfaces = s.volSurfaces) (clock : Clock F) (expiry : String)
    (right : Char) : Gated s' clock expiry right ↔ Gated s clock expiry right := by
  unfold Gated SurfaceStale SharedState.lookupVolSurface
  rw [hscalars, hsurfaces]

theorem gated_of_tradeFrame {s s' : SharedState F} (h : TradeFrame s s') (clock : Clock F)
    (expiry : String) (right : Char) :
    Gated s' clock expiry right ↔ Gated s clock expiry right := by
  obtain ⟨_, _, _, _, _, _, rfl⟩ := h
  exact gated_congr rfl rfl clock expiry right

/-! ## The tick path -/

theorem fitGate_of_stale {snap : ScalarState F} {vp : VolSurfaceEntry F} {strike : F}
    {nowWall : Nat} (h : 0 < vp.fitTsNs ∧ 120000000000 < nowWall - vp.fitTsNs) :
    fitGate snap vp strike nowWall = some .skipVolSurfaceStale :=
  if_pos h

/-- **The tick path has the gates.** With one of them shut for its option, a tick
decides at most to cancel. -/
theorem decideOnTick_gated (pricing : Pricing F) (s : SharedState F) (clock : Clock F)
    (tick : TickMsg F) (right : Char) (hgated : Gated s clock tick.expiry right) :
    let decisions :=
      (decideOnTick pricing clock.timeToExpiry s tick right clock.monoNs clock.wallNs).1
    decisions = [] ∨ decisions = cancelResting s := by
  unfold decideOnTick
  split
  · exact .inl rfl
  split
  · exact .inl rfl
  split
  · exact .inl rfl
  rename_i hpaused
  split
  · exact .inl rfl
  rename_i vp hsurface
  simp only
  split
  · exact .inl rfl
  split
  · exact .inr rfl
  rename_i hblock
  split
  · exact .inl rfl
  split
  · exact .inl rfl
  rename_i hfit
  -- the pause and the risk gate are open here, so the surface is the stale one
  rcases hgated with hpause | hrisk | ⟨vp', hvp', hstale⟩
  · exact absurd hpause hpaused
  · exact absurd hrisk hblock
  · obtain rfl : vp = vp' := Option.some.inj (hsurface.symm.trans hvp')
    have hshut : fitGate s.scalars vp tick.strike clock.wallNs = none := hfit
    rw [fitGate_of_stale hstale] at hshut
    cases hshut

/-- A cancel of the resting orders attempts cancels only. -/
theorem cancelResting_no_quote (s : SharedState F) (tick : TickMsg F) (right : Char)
    (gtdSeconds : Nat) (clock : Clock F) :
    ∀ attempt ∈ (cancelResting s).flatMap (decisionAttempts tick right gtdSeconds clock),
      ¬ attempt.1.Quotes := by
  intro attempt hattempt
  unfold cancelResting at hattempt
  simp only at hattempt
  split at hattempt
  · cases hattempt
  · rw [List.flatMap_singleton] at hattempt
    obtain ⟨orderId, -, rfl⟩ := List.mem_map.mp hattempt
    exact id

theorem tickAttempts_gated (pricing : Pricing F) (placesOrders : Bool) (s : SharedState F)
    (clock : Clock F) {tick : TickMsg F} {right : Char}
    (hright : firstUpper tick.right = some right) (hgated : Gated s clock tick.expiry right) :
    ∀ attempt ∈ tickAttempts pricing placesOrders s clock tick, ¬ attempt.1.Quotes := by
  have hmerged : Gated (mergeTick s tick right).2 clock (mergeTick s tick right).1.expiry right :=
    (gated_of_tradeFrame (tradeFrame_mergeTick s tick right) clock tick.expiry right).mpr hgated
  intro attempt hattempt
  simp only [tickAttempts, hright] at hattempt
  split at hattempt
  · rcases decideOnTick_gated pricing _ clock _ right hmerged with hnothing | hcancel
    · rw [hnothing] at hattempt
      cases hattempt
    · rw [hcancel] at hattempt
      exact cancelResting_no_quote _ _ _ _ _ attempt hattempt
  · cases hattempt

omit [F64 F] in
theorem mem_of_mem_taken {attempts : List (Attempt F)} {accepts : Nat → Bool}
    {command : Command F} (h : command ∈ taken (answered attempts accepts)) :
    ∃ attempt ∈ attempts, attempt.1 = command := by
  obtain ⟨answer, hanswer, rfl⟩ := List.mem_map.mp h
  obtain ⟨frame, hframe, rfl⟩ := List.mem_map.mp (List.mem_of_mem_filter hanswer)
  exact List.mem_map.mp (List.fst_mem_of_mem_zipIdx hframe)

theorem onTick_gated (pricing : Pricing F) (placesOrders : Bool) (s : SharedState F)
    (clock : Clock F) (accepts : Nat → Bool) {tick : TickMsg F} {right : Char}
    (hright : firstUpper tick.right = some right) (hgated : Gated s clock tick.expiry right) :
    ∀ command ∈ (onTick pricing placesOrders s clock accepts tick).1, ¬ command.Quotes := by
  intro command hcommand
  rw [(onTick_spec pricing placesOrders s clock accepts tick).1] at hcommand
  obtain ⟨attempt, hattempt, rfl⟩ := mem_of_mem_taken hcommand
  exact tickAttempts_gated pricing placesOrders s clock hright hgated attempt hattempt

/-! ## What shuts a gate -/

/-- The event shuts a gate of the option, as the pass with this clock would see it: a
pause, a risk state or a configuration that blocks all, or a surface that is old when it
arrives. -/
def shutsGate (s : SharedState F) (clock passClock : Clock F) (expiry : String)
    (right : Char) : Event F → Prop
  | .weekendPause paused => paused = true
  | .riskState msg =>
      (computeRiskGates (onRiskState s clock msg).scalars passClock.monoNs).1.blockAll = true
  | .hello msg => ∃ cfg ∈ msg.config,
      (computeRiskGates (applyHelloConfig s.scalars cfg) passClock.monoNs).1.blockAll = true
  | .volSurface msg => SurfaceStale (onVolSurface s msg) passClock expiry right
  | _ => False

instance (s : SharedState F) (clock passClock : Clock F) (expiry : String) (right : Char)
    (ev : Event F) : Decidable (shutsGate s clock passClock expiry right ev) := by
  cases ev <;> unfold shutsGate <;> infer_instance

omit [F64 F] in
/-- The kills that a hello names move no gate. -/
theorem gates_onHello (s : SharedState F) (h : HelloMsg F) :
    (onHello s h).volSurfaces = s.volSurfaces ∧
      (onHello s h).scalars =
        (h.config.map (applyHelloConfig s.scalars)).getD s.scalars := by
  have hfold (sources : List String) (s : SharedState F) :
      (sources.foldl (fun s source =>
          s.insertKill source "rehydrated_from_hello") s).volSurfaces = s.volSurfaces ∧
        (sources.foldl (fun s source =>
          s.insertKill source "rehydrated_from_hello") s).scalars = s.scalars := by
    induction sources generalizing s with
    | nil => exact ⟨rfl, rfl⟩
    | cons source rest ih => exact ih (s.insertKill source "rehydrated_from_hello")
  unfold onHello
  cases h.config with
  | none => exact hfold ..
  | some cfg => exact hfold ..

theorem gated_onHello {s : SharedState F} {h : HelloMsg F} {clock : Clock F} {expiry : String}
    {right : Char} (hgated : Gated (onHello s h) clock expiry right) :
    Gated s clock expiry right ∨ ∃ cfg ∈ h.config,
      (computeRiskGates (applyHelloConfig s.scalars cfg) clock.monoNs).1.blockAll = true := by
  obtain ⟨hsurfaces, hscalars⟩ := gates_onHello s h
  cases hconfig : h.config with
  | none =>
      rw [hconfig] at hscalars
      exact .inl ((gated_congr hscalars hsurfaces clock expiry right).mp hgated)
  | some cfg =>
      rw [hconfig, Option.map_some, Option.getD_some] at hscalars
      unfold Gated SurfaceStale SharedState.lookupVolSurface at hgated
      rw [hsurfaces, hscalars] at hgated
      rcases hgated with hpause | hrisk | hstale
      · exact .inl (.inl hpause)
      · exact .inr ⟨cfg, rfl, hrisk⟩
      · exact .inl (.inr (.inr hstale))

/-- A gate that is shut after an event was shut before it, or the event shuts it. -/
theorem gated_processEvent (pricing : Pricing F) (placesOrders : Bool) (s : SharedState F)
    (clock passClock : Clock F) (accepts : Nat → Bool) (ev : Event F) (expiry : String)
    (right : Char)
    (hgated : Gated (processEvent pricing placesOrders s clock accepts ev).2 passClock expiry
      right) :
    Gated s passClock expiry right ∨ shutsGate s clock passClock expiry right ev := by
  have hframe {s' : SharedState F} (h : TradeFrame s s')
      (hgated : Gated s' passClock expiry right) :
      Gated s passClock expiry right ∨ shutsGate s clock passClock expiry right ev :=
    .inl ((gated_of_tradeFrame h passClock expiry right).mp hgated)
  cases ev with
  | undecodable => exact hframe (tradeFrame_bump ..) hgated
  | unknown => exact .inl hgated
  | tick msg => exact hframe (tradeFrame_onTick ..) hgated
  | underlyingTick price => exact .inl hgated
  | placeAck msg => exact hframe (tradeFrame_onPlaceAck ..) hgated
  | orderStatus msg => exact hframe (tradeFrame_onOrderStatus ..) hgated
  | weekendPause paused =>
      rcases hgated with hpause | hrest
      · exact .inr hpause
      · exact .inl (.inr hrest)
  | riskState msg =>
      rcases hgated with hpause | hrisk | hstale
      · exact .inl (.inl hpause)
      · exact .inr hrisk
      · exact .inl (.inr (.inr hstale))
  | volSurface msg =>
      have hscalars : (onVolSurface s msg).scalars = s.scalars := by
        unfold onVolSurface
        simp only
        split <;> rfl
      rcases hgated with hpause | hrisk | hstale
      · exact .inl (.inl (by rw [← hscalars]; exact hpause))
      · exact .inl (.inr (.inl (by rw [← hscalars]; exact hrisk)))
      · exact .inr hstale
  | kill msg =>
      have hkept : (onKill s msg).scalars = s.scalars ∧
          (onKill s msg).volSurfaces = s.volSurfaces := by
        unfold onKill
        split <;> exact ⟨rfl, rfl⟩
      exact .inl ((gated_congr hkept.1 hkept.2 passClock expiry right).mp hgated)
  | resume msg =>
      have hkept : (onResume s msg).scalars = s.scalars ∧
          (onResume s msg).volSurfaces = s.volSurfaces := by
        unfold onResume
        split <;> exact ⟨rfl, rfl⟩
      exact .inl ((gated_congr hkept.1 hkept.2 passClock expiry right).mp hgated)
  | hello msg => exact gated_onHello hgated

/-! ## The passes of the staleness loop -/

/-- A pass does not collect over a drift-stale order of a gated option, and no event shuts
a gate of an option of which the pass has an amend left. -/
def CalmWhileGated (pricing : Pricing F) (placesOrders : Bool) (s : TraderSys F) :
    TraderStep F → Prop
  | .event ev clock _ =>
      ∀ pass ∈ s.pass, ∀ action ∈ pass.actions, Action.Amends action →
        ¬ shutsGate s.shared clock pass.clock (actionKey action).2.1 (actionKey action).2.2.1 ev
  | .collect clock =>
      (placesOrders && s.pass.isNone) = true → ∀ e ∈ s.shared.ourOrders.entries,
        Gated s.shared clock e.1.2.1 e.1.2.2.1 → ¬ DriftStale pricing s.shared clock e.1 e.2
  | .act _ => True

instance (pricing : Pricing F) (placesOrders : Bool) (s : TraderSys F) (st : TraderStep F) :
    Decidable (CalmWhileGated pricing placesOrders s st) :=
  match st with
  | .event ev clock _ =>
      inferInstanceAs (Decidable (∀ pass ∈ s.pass, ∀ action ∈ pass.actions,
        Action.Amends action →
          ¬ shutsGate s.shared clock pass.clock (actionKey action).2.1 (actionKey action).2.2.1 ev))
  | .collect clock =>
      inferInstanceAs (Decidable ((placesOrders && s.pass.isNone) = true →
        ∀ e ∈ s.shared.ourOrders.entries,
          Gated s.shared clock e.1.2.1 e.1.2.2.1 →
            ¬ DriftStale pricing s.shared clock e.1 e.2))
  | .act _ => .isTrue trivial

/-- **The pass invariant.** The amends left are for options whose gates are open. -/
def OpenPass (s : TraderSys F) : Prop :=
  ∀ pass ∈ s.pass, ∀ action ∈ pass.actions, Action.Amends action →
    ¬ Gated s.shared pass.clock (actionKey action).2.1 (actionKey action).2.2.1

/-- **Step lemma.** -/
theorem OpenPass.step {s : TraderSys F} (h : OpenPass s) (pricing : Pricing F)
    (placesOrders : Bool) {st : TraderStep F}
    (hcalm : CalmWhileGated pricing placesOrders s st) :
    OpenPass (nextState pricing placesOrders s st) := by
  cases st with
  | event ev clock accepts =>
      -- the event does not touch the pass, so an amend left is left from before
      intro pass hpass action haction hamends hgated
      rcases gated_processEvent pricing placesOrders s.shared clock pass.clock accepts ev _ _
        hgated with hbefore | hshuts
      · exact h pass hpass action haction hamends hbefore
      · exact hcalm pass hpass action haction hamends hshuts
  | collect clock =>
      show OpenPass (traderStep pricing placesOrders s (.collect clock)).2
      simp only [traderStep]
      split
      · rename_i hbegins
        rintro pass hpass action haction hamends hgated
        obtain rfl := Option.some.inj hpass
        obtain ⟨e, he, hsome⟩ := List.mem_filterMap.mp haction
        rw [(orderId_stalenessAction hsome).1] at hgated
        exact hcalm hbegins e he hgated (driftStale_of_amends hsome hamends)
      · exact h
  | act accepted =>
      intro pass hpass action haction hamends hgated
      have hframe := tradeFrame_act pricing placesOrders s accepted
      rw [gated_of_tradeFrame hframe] at hgated
      -- what is left after the action was left before it, in the same pass
      rcases hbefore : s.pass with _ | ⟨clock, gtd, _ | ⟨first, rest⟩⟩
      · simp [nextState, traderStep, hbefore] at hpass
      · simp [nextState, traderStep, hbefore] at hpass
      · have hafter : (nextState pricing placesOrders s (.act accepted)).pass =
            some ⟨clock, gtd, rest⟩ := by
          simp only [nextState, traderStep, hbefore]
        obtain rfl := Option.some.inj (hafter.symm.trans hpass)
        exact h _ hbefore action (List.mem_cons_of_mem first haction) hamends hgated

/-- Where the amends left are for open options, the gates bind the next step. -/
theorem OpenPass.gatesBind {s : TraderSys F} (h : OpenPass s) (pricing : Pricing F)
    (placesOrders : Bool) (st : TraderStep F) : GatesBind pricing placesOrders s st := by
  intro command hcommand hquotes
  cases st with
  | event ev clock accepts =>
      cases ev with
      | tick msg =>
          have hwritten : command ∈
            (onTick pricing placesOrders s.shared clock accepts msg).1 := hcommand
          cases hright : firstUpper msg.right with
          | none =>
              simp only [onTick, hright] at hwritten
              cases hwritten
          | some right =>
              refine ⟨(clock, msg.expiry, right), ?_, fun hgated => ?_⟩
              · simp [tradedAt, hright]
              · exact onTick_gated pricing placesOrders s.shared clock accepts hright hgated
                  command hwritten hquotes
      | _ => cases hcommand
  | collect clock =>
      simp only [traderStep] at hcommand
      split at hcommand <;> cases hcommand
  | act accepted =>
      rcases hpass : s.pass with _ | ⟨clock, gtd, _ | ⟨action, rest⟩⟩
      · simp [traderStep, hpass] at hcommand
      · simp [traderStep, hpass] at hcommand
      · have hwritten : command ∈ (applyAction clock gtd s.shared accepted action).1 := by
          simpa only [traderStep, hpass] using hcommand
        have hamends : Action.Amends action := by
          by_contra hcancel
          exact applyAction_no_quote clock gtd s.shared accepted hcancel command hwritten hquotes
        have htraded : tradedAt s (.act accepted) =
            some (clock, (actionKey action).2.1, (actionKey action).2.2.1) := by
          simp [tradedAt, hpass]
        exact ⟨_, htraded, h _ hpass action List.mem_cons_self hamends⟩

/-! Three resting bids that a pass amends with a gate shut: the bid of 0.5 on a call worth
0.3587, with the market paused, with a risk state of five seconds ago and more, and with a
surface of two minutes ago and more. -/

def calmRisk (ns : Nat) : TraderStep ℚ :=
  .event
    (.riskState
      { marginPct := 1 / 10, hedgeDelta := 0, effectiveDelta := 0, theta := 0, vega := 0 })
    (quarterYear ns) fun _ => true

def weekendBegins (ns : Nat) : TraderStep ℚ :=
  .event (.weekendPause true) (quarterYear ns) fun _ => true

/-- A pass that has collected over the bid. -/
def passOver (history : List (TraderStep ℚ)) (ns : Nat) : TraderSys ℚ :=
  run (nextState atTheMoney true) (traderStart 0)
    (overpricedBid ++ history ++ [.collect (quarterYear ns)])

theorem gated_orders_amended :
    let paused := passOver [calmRisk 4, weekendBegins 4] 5
    let blocked := passOver [calmRisk 4] 6000000000
    let aged := passOver [calmRisk 121000000000] 121000000001
    (paused.shared.scalars.weekendPaused = true ∧ ¬ GatesBind atTheMoney true paused (.act true)) ∧
      ((computeRiskGates blocked.shared.scalars 6000000000).1.blockAll = true ∧
        ¬ GatesBind atTheMoney true blocked (.act true)) ∧
      (SurfaceStale aged.shared (quarterYear 121000000001) "20260526" 'C' ∧
        ¬ GatesBind atTheMoney true aged (.act true)) := by
  decide +kernel

/-- **The fail-safe gates.** In a run in which no pass collects over a drift-stale order of
a gated option, and no event shuts a gate of an option of which a pass has an amend left,
what a step quotes is an option whose gates are open. -/
theorem fail_safe_gates_bind (pricing : Pricing F) (placesOrders : Bool) (burstWindowNs : Nat)
    (history : List (TraderStep F))
    (hcalm : Meets (nextState pricing placesOrders) (CalmWhileGated pricing placesOrders)
      (traderStart burstWindowNs) history) :
    Meets (nextState pricing placesOrders) (GatesBind pricing placesOrders)
      (traderStart burstWindowNs) history := by
  apply Meets.imp_of_invariant OpenPass ?_ ?_ ?_ hcalm
  · exact fun s st hcond hopen => hopen.step pricing placesOrders hcond
  · exact fun s st hopen _ => hopen.gatesBind pricing placesOrders st
  · intro pass hpass
    cases hpass

/-- A bid that is amended in time, and a pause after it. -/
theorem fail_safe_gates_bind_after_amend :
    let history := overpricedBid ++ [calmRisk 4] ++ onePass 5 ++ [weekendBegins 6] ++ onePass 7
    (∃ command ∈ commandsOf atTheMoney true (traderStart 0) history, command.Quotes) ∧
      Meets (nextState atTheMoney true) (GatesBind atTheMoney true) (traderStart 0) history :=
  ⟨by decide +kernel, fail_safe_gates_bind atTheMoney true 0 _ (by decide +kernel)⟩

end Corsair.Ports.FailSafeGates
