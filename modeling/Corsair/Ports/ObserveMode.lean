import Corsair.Ports.HedgePlacement
import Corsair.Ports.HedgePnl

/-!
# `corsair_hedge`: the P&L of rebalances in observe mode

In observe mode a rebalance takes its trade as filled, at the forward that the call is given.
A trade at the price at which the hedge is then marked moves what is realized and marked
together by nothing.  `rebalance_on_fill` is given no forward, and trades at 6.

## Main results

* `worth_applyFill` — what a fill adds at a mark, whatever the state it finds.
* `staysOrTrades_run` — a call leaves the hedge alone, or trades it to its target.
* `observe_neutral_iff` — when that leaves the P&L as it was.
-/

namespace Corsair.Ports.ObserveMode

open Corsair.Verified
open Corsair.Verified.AverageCost
open Corsair.Ports.BrokerApi
open Corsair.Ports.Hedge (HedgeMode)
open Corsair.Ports.PositionBook (PortfolioState)
open Corsair.Ports.HedgeManager
open Corsair.Ports.HedgeReconcile (hgManager)
open Corsair.Ports.HedgePlacement (aim targetQty_eq_aim hgBook)
open Corsair.Ports.HedgePnl

/-! ## A fill at a mark -/

/-- What is realized, with the mark-to-market. -/
def worth (multiplier : ℚ) (s : HedgeState ℚ) (mark : ℚ) : ℚ :=
  s.realizedPnlUsd + s.mtmUsd mark multiplier

/-- The state with its books opened anew: nothing realized, and no average where it is flat. -/
def reopened (s : HedgeState ℚ) : HedgeState ℚ :=
  { s with
    avgEntryF := if s.hedgeQty = 0 then 0 else s.avgEntryF
    realizedPnlUsd := 0 }

theorem worth_reopened (multiplier : ℚ) (s : HedgeState ℚ) (mark : ℚ) :
    worth multiplier s mark = s.realizedPnlUsd + worth multiplier (reopened s) mark := by
  unfold worth Hedge.HedgeState.mtmUsd
  by_cases hflat : s.hedgeQty = 0
  · simp [reopened, hflat]
  · simp [reopened, hflat]

/-- A fill does not look at what is realized, nor at the average of a flat state. -/
theorem applyFill_reopened (s : HedgeState ℚ) (isBuy : Bool) (qty : Nat)
    (price multiplier : ℚ) (now : Nat) :
    s.applyFill isBuy qty price multiplier now =
      { (reopened s).applyFill isBuy qty price multiplier now with
        realizedPnlUsd := s.realizedPnlUsd +
          ((reopened s).applyFill isBuy qty price multiplier now).realizedPnlUsd } := by
  unfold HedgeState.applyFill reopened
  by_cases hflat : s.hedgeQty = 0
  · have hsame : 0 ≤ signedQty isBuy qty ∨ signedQty isBuy qty ≤ 0 := le_total _ _
    simp only [hflat, if_true, zero_add, le_refl, true_and, hsame, rat_ofInt, Int.natAbs_zero,
      Nat.cast_zero, Int.cast_zero, mul_zero, zero_mul, add_zero]
    split_ifs <;> simp
  · simp only [hflat, if_false, zero_add]
    split_ifs <;> simp

/-- **A fill at a mark** adds what its quantity gains from its price to the mark. -/
theorem worth_applyFill (multiplier : ℚ) (s : HedgeState ℚ) {f : HedgeFill}
    (hqty : f.qty < 2 ^ 31)
    (hsum : -2 ^ 31 ≤ s.hedgeQty + f.effect ∧ s.hedgeQty + f.effect < 2 ^ 31) {mark : ℚ}
    (hmark : 0 < mark) :
    worth multiplier (s.applyFill f.isBuy f.qty f.price multiplier f.now) mark =
      worth multiplier s mark + f.effect * (mark - f.price) * multiplier := by
  let h : Holding ℚ := {
    qty := s.hedgeQty
    avg := if s.hedgeQty = 0 then 0 else s.avgEntryF
    flat := fun hflat => if_pos hflat }
  have hkeeps : Keeps multiplier (reopened s) h 0 := ⟨rfl, rfl, (zero_mul _).symm⟩
  have hafter := applyFill_refines hkeeps hqty hsum
  have hbefore : worth multiplier (reopened s) mark = h.gain mark * multiplier := by
    rw [worth, mtmUsd_eq_gain hkeeps hmark, hkeeps.2.2, zero_mul, zero_add]
  have hthen : worth multiplier ((reopened s).applyFill f.isBuy f.qty f.price multiplier f.now)
      mark = ((h.fill f.effect f.price).gain mark + h.realized f.effect f.price) * multiplier := by
    rw [worth, mtmUsd_eq_gain hafter hmark, hafter.2.2]
    ring
  have hsplit : worth multiplier (s.applyFill f.isBuy f.qty f.price multiplier f.now) mark =
      s.realizedPnlUsd +
        worth multiplier ((reopened s).applyFill f.isBuy f.qty f.price multiplier f.now) mark := by
    rw [applyFill_reopened]
    exact add_assoc _ _ _
  rw [hsplit, hthen, h.gain_fill, worth_reopened multiplier s mark, hbefore]
  ring

/-! ## The calls that rebalance -/

/-- The entry points of a rebalance. -/
inductive Rebalance
  | onFill
  | periodic
  | forceFlat
  deriving DecidableEq, Repr

/-- The manager after a call at the current forward. -/
def Rebalance.run (call : Rebalance) (m : HedgeManager ℚ) (portfolio : PortfolioState ℚ)
    (forward : ℚ) (now : Nat) : HedgeManager ℚ :=
  match call with
  | .onFill => (m.rebalanceOnFill portfolio now).2
  | .periodic => (m.rebalancePeriodic portfolio forward now).2
  | .forceFlat => (m.forceFlat portfolio forward now).2

/-- The price that its trade is taken at. -/
def Rebalance.price (call : Rebalance) (forward : ℚ) : ℚ :=
  match call with
  | .onFill => 6
  | .periodic | .forceFlat => forward

/-- No `i32` overflows on the way to the target. -/
structure Fits (m : HedgeManager ℚ) (portfolio : PortfolioState ℚ) : Prop where
  qty : -2 ^ 31 ≤ m.state.hedgeQty ∧ m.state.hedgeQty < 2 ^ 31
  target : -2 ^ 31 ≤ aim portfolio m ∧ aim portfolio m < 2 ^ 31
  change : -2 ^ 31 < aim portfolio m - m.state.hedgeQty ∧
    aim portfolio m - m.state.hedgeQty < 2 ^ 31

/-- The trade to the target. -/
def trade (m : HedgeManager ℚ) (portfolio : PortfolioState ℚ) (price : ℚ) (now : Nat) :
    HedgeFill where
  isBuy := decide (0 < aim portfolio m - m.state.hedgeQty)
  qty := (aim portfolio m - m.state.hedgeQty).natAbs
  price
  now

theorem effect_trade (m : HedgeManager ℚ) (portfolio : PortfolioState ℚ) (price : ℚ) (now : Nat) :
    (trade m portfolio price now).effect = aim portfolio m - m.state.hedgeQty := by
  unfold HedgeFill.effect trade
  simp only [decide_eq_true_eq]
  split_ifs <;> omega

/-- The hedge after it. -/
def traded (m : HedgeManager ℚ) (portfolio : PortfolioState ℚ) (price : ℚ) (now : Nat) :
    HedgeState ℚ :=
  let f := trade m portfolio price now
  m.state.applyFill f.isBuy f.qty f.price m.cfg.multiplier f.now

/-- A call leaves the hedge alone, or trades it to a target that it is off. -/
def StaysOrTrades (m : HedgeManager ℚ) (portfolio : PortfolioState ℚ) (price : ℚ) (now : Nat)
    (s' : HedgeState ℚ) : Prop :=
  s' = m.state ∨ aim portfolio m ≠ m.state.hedgeQty ∧ s' = traded m portfolio price now

section Calls

variable {m : HedgeManager ℚ} {portfolio : PortfolioState ℚ}

theorem staysOrTrades_rebalance (hmode : m.cfg.mode = .observe) (hfits : Fits m portfolio)
    (reason : String) (forward : ℚ) (now : Nat) :
    StaysOrTrades m portfolio forward now (m.rebalance portfolio reason forward now).2.state := by
  have hchange : i32 (aim portfolio m - m.state.hedgeQty) = aim portfolio m - m.state.hedgeQty :=
    i32_of_bounds hfits.change.1.le hfits.change.2
  unfold HedgeManager.rebalance
  simp only [targetQty_eq_aim hfits.target.1 hfits.target.2, hchange, hmode, sub_eq_zero]
  split
  · exact .inl rfl
  · rename_i hoff
    exact .inr ⟨hoff, rfl⟩

theorem staysOrTrades_maybeRebalance (hmode : m.cfg.mode = .observe) (hfits : Fits m portfolio)
    (reason : String) (forward : ℚ) (now : Nat) :
    StaysOrTrades m portfolio forward now
      (m.maybeRebalance portfolio reason forward now).2.state := by
  unfold maybeRebalance
  split
  · exact .inl rfl
  · exact staysOrTrades_rebalance hmode hfits reason forward now

theorem staysOrTrades_run (hmode : m.cfg.mode = .observe) (hfits : Fits m portfolio)
    (call : Rebalance) (forward : ℚ) (now : Nat) :
    StaysOrTrades m portfolio (call.price forward) now (call.run m portfolio forward now).state := by
  -- the clocks that a periodic call sets play no part in the trade
  have hperiodic (reason : String) (last drain : Nat) :
      StaysOrTrades m portfolio forward now
        ({ m with lastPeriodicNs := last, priorityDrainUntilNs := drain }.maybeRebalance portfolio
          reason forward now).2.state :=
    staysOrTrades_maybeRebalance
      (m := { m with lastPeriodicNs := last, priorityDrainUntilNs := drain }) hmode
      ⟨hfits.qty, hfits.target, hfits.change⟩ reason forward now
  cases call with
  | onFill =>
      have hprice : (F64.lit 6 0 : ℚ) = 6 := by simp [rat_lit]
      unfold Rebalance.run Rebalance.price rebalanceOnFill
      dsimp only
      split
      · rw [← hprice]
        exact staysOrTrades_maybeRebalance hmode hfits "fill" _ now
      · exact .inl rfl
  | periodic =>
      unfold Rebalance.run Rebalance.price rebalancePeriodic
      dsimp only
      split
      · exact hperiodic "priority_drain_periodic" now m.priorityDrainUntilNs
      · split
        · exact hperiodic "priority_drain_clear" now 0
        · split
          · exact .inl rfl
          · exact hperiodic "periodic" now m.priorityDrainUntilNs
  | forceFlat => exact staysOrTrades_rebalance hmode hfits "delta_kill_force_flat" forward now

theorem cfg_run (m : HedgeManager ℚ) (portfolio : PortfolioState ℚ) (call : Rebalance)
    (forward : ℚ) (now : Nat) : (call.run m portfolio forward now).cfg = m.cfg := by
  cases call with
  | onFill => exact (m.sameSetup_rebalanceOnFill portfolio now).cfg
  | periodic => exact (m.sameSetup_rebalancePeriodic portfolio forward now).cfg
  | forceFlat => exact (m.sameSetup_rebalance portfolio _ forward now).cfg

theorem qty_trade_lt (hfits : Fits m portfolio) (price : ℚ) (now : Nat) :
    (trade m portfolio price now).qty < 2 ^ 31 := by
  have hchange := hfits.change
  show (aim portfolio m - m.state.hedgeQty).natAbs < 2 ^ 31
  omega

/-- The trade reaches the target. -/
theorem hedgeQty_traded (hfits : Fits m portfolio) (price : ℚ) (now : Nat) :
    (traded m portfolio price now).hedgeQty = aim portfolio m := by
  unfold traded
  rw [hedgeQty_applyFill, signedQty_eq_effect (qty_trade_lt hfits price now), effect_trade, add_sub_cancel,
    i32_of_bounds hfits.target.1 hfits.target.2]

/-- What the trade adds at a mark. -/
theorem worth_traded (hfits : Fits m portfolio) (price : ℚ) (now : Nat) {mark : ℚ}
    (hmark : 0 < mark) :
    worth m.cfg.multiplier (traded m portfolio price now) mark =
      worth m.cfg.multiplier m.state mark +
        (aim portfolio m - m.state.hedgeQty : Int) * (mark - price) * m.cfg.multiplier := by
  have hsum : -2 ^ 31 ≤ m.state.hedgeQty + (trade m portfolio price now).effect ∧
      m.state.hedgeQty + (trade m portfolio price now).effect < 2 ^ 31 := by
    rw [effect_trade, add_sub_cancel]
    exact hfits.target
  have hfill := worth_applyFill m.cfg.multiplier m.state (qty_trade_lt hfits price now) hsum hmark
  rw [effect_trade] at hfill
  exact hfill

end Calls

/-- Both halves of what a rebalance is to do: the P&L at the forward is what it was, and the
hedge is the delta of the options, rounded and turned around, so that half a contract remains at
most. -/
structure Neutral (m m' : HedgeManager ℚ) (portfolio : PortfolioState ℚ) (forward : ℚ) : Prop where
  worth : worth m'.cfg.multiplier m'.state forward = worth m.cfg.multiplier m.state forward
  target : m'.state.hedgeQty = -ratRound (portfolio.deltaForProduct m.cfg.product)
  within : |portfolio.deltaForProduct m.cfg.product + m'.state.hedgeQty| ≤ 1 / 2

/-- **A rebalance in observe mode is P&L neutral** just if it is not the one on a fill, unless
the forward is 6 or a point is worth nothing. -/
theorem observe_neutral_iff (m : HedgeManager ℚ) (hmode : m.cfg.mode = .observe)
    (portfolio : PortfolioState ℚ) (hfits : Fits m portfolio) (call : Rebalance) (forward : ℚ)
    (hforward : 0 < forward) (now : Nat)
    (hmoved : (call.run m portfolio forward now).state ≠ m.state) :
    Neutral m (call.run m portfolio forward now) portfolio forward ↔
      call ≠ .onFill ∨ forward = 6 ∨ m.cfg.multiplier = 0 := by
  rcases staysOrTrades_run hmode hfits call forward now with hstays | ⟨hoff, htraded⟩
  · exact absurd hstays hmoved
  have hworth := worth_traded hfits (call.price forward) now hforward
  have hqty := hedgeQty_traded hfits (call.price forward) now
  rw [← htraded] at hworth hqty
  have hgain : (aim portfolio m - m.state.hedgeQty : Int) * (forward - call.price forward) *
      m.cfg.multiplier = 0 ↔ call ≠ .onFill ∨ forward = 6 ∨ m.cfg.multiplier = 0 := by
    have hopen : ((aim portfolio m - m.state.hedgeQty : Int) : ℚ) ≠ 0 :=
      Int.cast_ne_zero.mpr (sub_ne_zero.mpr hoff)
    rw [mul_eq_zero, mul_eq_zero, sub_eq_zero, or_iff_right hopen]
    cases call with
    | onFill => simp [Rebalance.price]
    | periodic => simp [Rebalance.price]
    | forceFlat => simp [Rebalance.price]
  have hwithin : |portfolio.deltaForProduct m.cfg.product + (aim portfolio m : ℚ)| ≤ 1 / 2 := by
    unfold aim
    rw [Int.cast_neg, ← sub_eq_add_neg]
    exact abs_sub_ratRound_le _
  rw [← hgain]
  constructor
  · intro h
    have hsame := h.worth
    rw [cfg_run, hworth] at hsame
    linarith
  · intro hzero
    exact {
      worth := by
        rw [cfg_run, hworth, hzero, add_zero]
      target := hqty
      within := by
        rw [hqty]
        exact hwithin }

/-! ## Two calls -/

/-- A flat manager in observe mode. -/
def observer : HedgeManager ℚ :=
  { hgManager 0 with cfg := { (hgManager 0).cfg with mode := .observe } }

theorem observer_fits : Fits observer hgBook :=
  ⟨by decide +kernel, by decide +kernel, by decide +kernel⟩

theorem observer_moves : (Rebalance.onFill.run observer hgBook 7 1).state ≠ observer.state := by
  intro hsame
  have hqty : (Rebalance.onFill.run observer hgBook 7 1).state.hedgeQty = 0 :=
    congrArg (fun s : HedgeState ℚ => s.hedgeQty) hsame
  exact absurd hqty (by decide +kernel)

theorem observe_neutral_iff_on_fill :
    Neutral observer (Rebalance.onFill.run observer hgBook 7 1) hgBook 7 ↔
      Rebalance.onFill ≠ .onFill ∨ (7 : ℚ) = 6 ∨ observer.cfg.multiplier = 0 :=
  observe_neutral_iff observer rfl hgBook observer_fits .onFill 7 (by decide +kernel) 1
    observer_moves

/-- Three contracts are sold at 6 where the forward is 7. -/
theorem on_fill_not_neutral :
    ¬ ∀ m : HedgeManager ℚ, m.cfg.mode = .observe → ∀ portfolio, Fits m portfolio →
      ∀ (call : Rebalance) (forward : ℚ), 0 < forward → ∀ now,
        (call.run m portfolio forward now).state ≠ m.state →
          Neutral m (call.run m portfolio forward now) portfolio forward := by
  intro hall
  have hneutral := hall observer rfl hgBook observer_fits .onFill 7 (by decide +kernel) 1
    observer_moves
  exact absurd hneutral.worth (by decide +kernel)

end Corsair.Ports.ObserveMode
