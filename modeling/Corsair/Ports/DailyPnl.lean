import Mathlib.Algebra.BigOperators.Group.List.Basic
import Mathlib.Tactic.Linarith
import Mathlib.Tactic.Ring
import Corsair.Ports.PositionBook
import Corsair.Ports.RiskMonitor

/-!
# The daily P&L: the monitor, the snapshot and the anchor

The monitor compares the day's P&L with its threshold; `SnapshotPublisher::build`
publishes a number of the same name; the account poll and the session rollover
set the realized part.  The monitor leaves out the managers in observe mode, and
the other three do not.

Of a snapshot only the P&L and the hedges are modelled.

## Main results

* `dailyPnl_build` — the published number, in terms of the compared one.
* `comparedPnl_agrees_iff` — when the two agree.
* `realizedPart_anchored_iff` — when the anchors hold.
-/

namespace Corsair.Ports.DailyPnl

open Corsair.Verified
open Corsair.Ports.Portfolio
open Corsair.Ports.Hedge
open Corsair.Ports.RiskMonitor
open Corsair.Ports.BrokerApi (AccountSnapshot)

variable {F : Type} [F64 F]

/-! ## The snapshot -/

/-- `resolve_hedge_mark`. -/
def resolveHedgeMark (market : MarketView F) (product : String) : F :=
  match market.hedgeUnderlyingPrice product with
  | some p => p
  | none => (market.underlyingPrice product).getD F64.zero

/-- `PortfolioSnapshot`. -/
structure PortfolioSnapshot (F : Type) where
  hedgeDelta : Int
  realizedPnlPersisted : F
  mtmPnl : F
  dailyPnl : F

/-- `HedgeSnapshot`. -/
structure HedgeSnapshot (F : Type) where
  product : String
  hedgeQty : Int
  avgEntryF : F
  realizedPnlUsd : F
  mtmUsd : F
  mode : String
  forward : F

/-- `Snapshot`. -/
structure Snapshot (F : Type) where
  portfolio : PortfolioSnapshot F
  hedges : List (HedgeSnapshot F)

/-- The totals of `build` over the managers: mark-to-market and realized. -/
def hedgeTotals (hedge : List (HedgeManager F)) (market : MarketView F) : F × F :=
  hedge.foldl
    (fun sums m =>
      let f := resolveHedgeMark market m.cfg.product
      (sums.1 + m.mtmUsd f, sums.2 + m.state.realizedPnlUsd))
    (F64.zero, F64.zero)

/-- `build`. -/
def build (portfolio : PortfolioState F) (hedge : List (HedgeManager F))
    (market : MarketView F) : Snapshot F :=
  let (hedgeMtmTotal, hedgeRealizedTotal) := hedgeTotals hedge market
  let optionsMtm := portfolio.computeMtmPnl market
  let mtmPnl := optionsMtm + hedgeMtmTotal
  { portfolio := {
      hedgeDelta := (hedge.map (·.state.hedgeQty)).sum
      realizedPnlPersisted := portfolio.realizedPnlPersisted
      mtmPnl
      dailyPnl := portfolio.realizedPnlPersisted + hedgeRealizedTotal + mtmPnl }
    hedges := hedge.map fun m =>
      let f := resolveHedgeMark market m.cfg.product
      { product := m.cfg.product
        hedgeQty := m.state.hedgeQty
        avgEntryF := m.state.avgEntryF
        realizedPnlUsd := m.state.realizedPnlUsd
        mtmUsd := m.mtmUsd f
        mode := match m.cfg.mode with
          | .observe => "observe"
          | .execute => "execute"
        forward := f } }

/-! ## The realized part -/

/-- `resync_realized_pnl_from_ibkr`; the log line is left out. -/
def resyncRealizedPnlFromIbkr (portfolio : PositionBook.PortfolioState F)
    (hedge : List (HedgeManager F)) (account : AccountSnapshot F) :
    PositionBook.PortfolioState F :=
  let hedgeRealized := hedge.foldl (fun total m => total + m.state.realizedPnlUsd) F64.zero
  { portfolio with realizedPnlPersisted := account.realizedPnlToday - hedgeRealized }

/-- `reset_daily`. -/
def resetDaily (portfolio : PositionBook.PortfolioState F) : PositionBook.PortfolioState F :=
  { portfolio with
    fillsToday := 0
    spreadCaptureToday := F64.zero
    spreadCaptureMidToday := F64.zero }

/-- `daily_halt_rollover`, one tick at the given hour and day: the book, the
monitor and the last day that fired. -/
def dailyHaltRollover (portfolio : PositionBook.PortfolioState F) (risk : RiskMonitor F)
    (lastFiredDay : Option Date) (hour : Nat) (today : Date) :
    PositionBook.PortfolioState F × RiskMonitor F × Option Date :=
  if 17 ≤ hour ∧ lastFiredDay ≠ some today then
    ({ resetDaily portfolio with realizedPnlPersisted := F64.zero }, risk.clearDailyHalt.2,
      some today)
  else (portfolio, risk, lastFiredDay)

/-- The book as the checks and the snapshot read it. -/
def accounts (portfolio : PositionBook.PortfolioState F) : PortfolioState F where
  positions := portfolio.positions.map (·.toPosition)
  realizedPnlPersisted := portfolio.realizedPnlPersisted

/-- The realized part of the daily P&L that the checks compare. -/
def realizedPart (portfolio : PositionBook.PortfolioState F) (hedge : List (HedgeManager F))
    (market : MarketView F) : F :=
  portfolio.realizedPnlPersisted + (hedgePnl hedge market).2

/-! ## What the checks compare -/

/-- The daily P&L as `check` and `check_daily_pnl_only` compute it. -/
def comparedPnl (portfolio : PortfolioState F) (hedge : List (HedgeManager F))
    (market : MarketView F) : F :=
  portfolio.realizedPnlPersisted + portfolio.computeMtmPnl market + (hedgePnl hedge market).1 +
    (hedgePnl hedge market).2

/-- There is a daily-halt event just if that number is below the threshold. -/
theorem dailyHaltEvent_isSome (cfg : RiskConfig F) (path : String) (inp : CheckInput F) :
    (dailyHaltEvent cfg path inp).isSome =
      cfg.dailyHaltThreshold.any
        (F64.lt (comparedPnl inp.portfolio inp.hedge inp.market) ·) := by
  unfold dailyHaltEvent
  cases cfg.dailyHaltThreshold with
  | none => rfl
  | some threshold =>
      dsimp only [Option.any_some]
      split
      · rename_i hbelow
        exact hbelow.symm
      · rename_i habove
        exact (Bool.eq_false_iff.mpr habove).symm

/-! ## In exact arithmetic -/

/-- The managers of a mode. -/
def ofMode (mode : HedgeMode) (hedge : List (HedgeManager F)) : List (HedgeManager F) :=
  hedge.filter (·.cfg.mode = mode)

/-- The mark-to-market of some managers. -/
def mtmTotal (hedge : List (HedgeManager ℚ)) (market : MarketView ℚ) : ℚ :=
  (hedge.map fun m => m.mtmUsd (resolveHedgeMark market m.cfg.product)).sum

/-- The realized P&L of some managers. -/
def realizedTotal (hedge : List (HedgeManager ℚ)) : ℚ :=
  (hedge.map fun m => m.state.realizedPnlUsd).sum

/-- What is summed over all managers is summed over each mode. -/
theorem sum_ofMode (f : HedgeManager ℚ → ℚ) (hedge : List (HedgeManager ℚ)) :
    (hedge.map f).sum =
      ((ofMode .execute hedge).map f).sum + ((ofMode .observe hedge).map f).sum := by
  induction hedge with
  | nil => simp [ofMode]
  | cons m rest ih =>
      rw [List.map_cons, List.sum_cons, ih]
      cases hmode : m.cfg.mode with
      | observe =>
          simp only [ofMode, List.filter_cons, hmode, reduceCtorEq, decide_false, decide_true,
            Bool.false_eq_true, if_true, if_false, List.map_cons, List.sum_cons]
          ring
      | execute =>
          simp only [ofMode, List.filter_cons, hmode, reduceCtorEq, decide_false, decide_true,
            Bool.false_eq_true, if_true, if_false, List.map_cons, List.sum_cons]
          ring

theorem mark_eq_resolveHedgeMark (market : MarketView F) (product : String) :
    ((market.hedgeUnderlyingPrice product).or (market.underlyingPrice product)).getD F64.zero =
      resolveHedgeMark market product := by
  unfold resolveHedgeMark
  cases market.hedgeUnderlyingPrice product with
  | none => rfl
  | some p => rfl

/-- The monitor sums what the snapshot sums, over the managers in execute mode. -/
theorem hedgePnl_eq_hedgeTotals (hedge : List (HedgeManager F)) (market : MarketView F) :
    hedgePnl hedge market = hedgeTotals (ofMode .execute hedge) market := by
  unfold hedgePnl hedgeTotals
  generalize ((F64.zero, F64.zero) : F × F) = sums
  induction hedge generalizing sums with
  | nil => rfl
  | cons m rest ih =>
      rw [List.foldl_cons, ih]
      cases hmode : m.cfg.mode with
      | observe => simp [ofMode, hmode]
      | execute =>
          have hcounted : ofMode .execute (m :: rest) = m :: ofMode .execute rest := by
            simp [ofMode, hmode]
          rw [hcounted, List.foldl_cons]
          dsimp only
          rw [mark_eq_resolveHedgeMark]

theorem hedgeTotals_eq (hedge : List (HedgeManager ℚ)) (market : MarketView ℚ) :
    hedgeTotals hedge market = (mtmTotal hedge market, realizedTotal hedge) := by
  have hfold : ∀ (managers : List (HedgeManager ℚ)) (sums : ℚ × ℚ),
      managers.foldl
        (fun sums m =>
          let f := resolveHedgeMark market m.cfg.product
          (sums.1 + m.mtmUsd f, sums.2 + m.state.realizedPnlUsd)) sums =
        (sums.1 + mtmTotal managers market, sums.2 + realizedTotal managers) := by
    intro managers
    induction managers with
    | nil => simp [mtmTotal, realizedTotal]
    | cons m rest ih =>
        intro sums
        rw [List.foldl_cons, ih]
        simp [mtmTotal, realizedTotal, add_assoc]
  rw [hedgeTotals, hfold, rat_zero, zero_add, zero_add]

/-- **The published daily P&L** is the compared one and what the managers in
observe mode have made. -/
theorem dailyPnl_build (portfolio : PortfolioState ℚ) (hedge : List (HedgeManager ℚ))
    (market : MarketView ℚ) :
    (build portfolio hedge market).portfolio.dailyPnl =
      comparedPnl portfolio hedge market +
        (mtmTotal (ofMode .observe hedge) market + realizedTotal (ofMode .observe hedge)) := by
  have hmtm : mtmTotal hedge market = mtmTotal (ofMode .execute hedge) market +
    mtmTotal (ofMode .observe hedge) market := sum_ofMode _ hedge
  have hrealized : realizedTotal hedge = realizedTotal (ofMode .execute hedge) +
    realizedTotal (ofMode .observe hedge) := sum_ofMode _ hedge
  show portfolio.realizedPnlPersisted + (hedgeTotals hedge market).2 +
    (portfolio.computeMtmPnl market + (hedgeTotals hedge market).1) = _
  rw [comparedPnl, hedgePnl_eq_hedgeTotals, hedgeTotals_eq, hedgeTotals_eq, hmtm, hrealized]
  ring

/-- **Agreement.** The checks compare `comparedPnl` with the threshold, and it is
the published number exactly where the managers in observe mode have made nothing
on balance. -/
theorem comparedPnl_agrees_iff (cfg : RiskConfig ℚ) (path : String) (inp : CheckInput ℚ) :
    (dailyHaltEvent cfg path inp).isSome = cfg.dailyHaltThreshold.any
        (F64.lt (comparedPnl inp.portfolio inp.hedge inp.market) ·) ∧
      (comparedPnl inp.portfolio inp.hedge inp.market =
          (build inp.portfolio inp.hedge inp.market).portfolio.dailyPnl ↔
        mtmTotal (ofMode .observe inp.hedge) inp.market +
          realizedTotal (ofMode .observe inp.hedge) = 0) := by
  refine ⟨dailyHaltEvent_isSome cfg path inp, ?_⟩
  rw [dailyPnl_build]
  exact left_eq_add

/-- A simulated hedge of two copper futures, bought a dollar above the mark. -/
def observedHedge : HedgeManager ℚ where
  cfg := { product := "HG", multiplier := 25000, mode := .observe }
  state := { hedgeQty := 2, avgEntryF := 6, realizedPnlUsd := 0 }

/-- A check of an empty book beside it. -/
def observedInput : CheckInput ℚ where
  portfolio := { positions := [], realizedPnlPersisted := 0 }
  marginUsed := 0
  market := {
    underlyingPrice := fun _ => some 5
    currentPrice := fun _ _ _ _ => none
    hedgeUnderlyingPrice := fun _ => some 5 }
  hedge := [observedHedge]
  sentinelDir := "/tmp"
  sentinelFiles := fun _ => .absent
  now := 0

/-- An idle monitor with a halt at five percent of its capital. -/
def armedMonitor : RiskMonitor ℚ where
  cfg := { capital := 500000, marginKillPct := 1, dailyHaltThreshold := some (-25000) }
  killed := none

/-- The dashboard shows a loss of fifty thousand, and the check with a threshold of
twenty-five thousand is healthy. -/
theorem observed_loss_not_compared :
    (build observedInput.portfolio observedInput.hedge
        observedInput.market).portfolio.dailyPnl = -50000 ∧
      comparedPnl observedInput.portfolio observedInput.hedge observedInput.market = 0 ∧
      (armedMonitor.checkDailyPnlOnly observedInput).1 = .healthy := by
  decide +kernel

/-! ## The anchors -/

/-- The realized part after a resync misses what the managers in observe mode have
realized. -/
theorem realizedPart_resync (portfolio : PositionBook.PortfolioState ℚ)
    (hedge : List (HedgeManager ℚ)) (account : AccountSnapshot ℚ) (market : MarketView ℚ) :
    realizedPart (resyncRealizedPnlFromIbkr portfolio hedge account) hedge market =
      account.realizedPnlToday - realizedTotal (ofMode .observe hedge) := by
  have hfold : hedge.foldl (fun total m => total + m.state.realizedPnlUsd) F64.zero =
      realizedTotal hedge := by
    rw [realizedTotal, List.sum_eq_foldl, List.foldl_map, rat_zero]
  have hsplit : realizedTotal hedge = realizedTotal (ofMode .execute hedge) +
    realizedTotal (ofMode .observe hedge) := sum_ofMode _ hedge
  show account.realizedPnlToday -
    hedge.foldl (fun total m => total + m.state.realizedPnlUsd) F64.zero +
      (hedgePnl hedge market).2 = _
  rw [hfold, hsplit, hedgePnl_eq_hedgeTotals, hedgeTotals_eq]
  ring

/-- After a rollover it is what the managers in execute mode have realized. -/
theorem realizedPart_rollover (portfolio : PositionBook.PortfolioState ℚ)
    (hedge : List (HedgeManager ℚ)) (market : MarketView ℚ) (risk : RiskMonitor ℚ)
    {lastFiredDay : Option Date} {hour : Nat} {today : Date}
    (hfires : 17 ≤ hour ∧ lastFiredDay ≠ some today) :
    realizedPart (dailyHaltRollover portfolio risk lastFiredDay hour today).1 hedge market =
      realizedTotal (ofMode .execute hedge) := by
  rw [dailyHaltRollover, if_pos hfires]
  show F64.zero + (hedgePnl hedge market).2 = _
  rw [hedgePnl_eq_hedgeTotals, hedgeTotals_eq, rat_zero, zero_add]

/-- **Anchoring.** The realized part is the account's after a resync and zero after
a rollover, exactly where the managers of each mode have realized nothing on
balance. -/
theorem realizedPart_anchored_iff (portfolio : PositionBook.PortfolioState ℚ)
    (hedge : List (HedgeManager ℚ)) (account : AccountSnapshot ℚ) (market : MarketView ℚ)
    (risk : RiskMonitor ℚ) {lastFiredDay : Option Date} {hour : Nat} {today : Date}
    (hfires : 17 ≤ hour ∧ lastFiredDay ≠ some today) :
    (realizedPart (resyncRealizedPnlFromIbkr portfolio hedge account) hedge market =
          account.realizedPnlToday ↔
        realizedTotal (ofMode .observe hedge) = 0) ∧
      (realizedPart (dailyHaltRollover portfolio risk lastFiredDay hour today).1 hedge market =
          0 ↔
        realizedTotal (ofMode .execute hedge) = 0) := by
  constructor
  · rw [realizedPart_resync]
    exact sub_eq_self
  · rw [realizedPart_rollover portfolio hedge market risk hfires]

/-- An account that has realized a thousand. -/
def thousandRealized : AccountSnapshot ℚ where
  netLiquidation := 500000
  maintenanceMargin := 0
  initialMargin := 0
  buyingPower := 500000
  realizedPnlToday := 1000
  timestampNs := 1

/-- A flat manager of a mode that has realized seven hundred. -/
def realizedHedge (mode : HedgeMode) : HedgeManager ℚ where
  cfg := { product := "HG", multiplier := 25000, mode }
  state := { hedgeQty := 0, avgEntryF := 0, realizedPnlUsd := 700 }

theorem realizedPart_anchored_flat :
    (realizedPart (resyncRealizedPnlFromIbkr (.new ∅) [observedHedge] thousandRealized)
          [observedHedge] observedInput.market = 1000 ↔
        realizedTotal (ofMode .observe [observedHedge]) = 0) ∧
      (realizedPart (dailyHaltRollover (.new ∅) armedMonitor none 17 ⟨2026, 5, 5⟩).1 [observedHedge]
            observedInput.market = 0 ↔
        realizedTotal (ofMode .execute [observedHedge]) = 0) :=
  realizedPart_anchored_iff (.new ∅) [observedHedge] thousandRealized observedInput.market
    armedMonitor (by decide)

/-- A simulated gain is taken off the account's number and not added back, and a
hedge's gain outlives the session. -/
theorem realized_part_not_anchored :
    realizedPart (resyncRealizedPnlFromIbkr (.new ∅) [realizedHedge .observe] thousandRealized)
        [realizedHedge .observe] observedInput.market = 300 ∧
      thousandRealized.realizedPnlToday = 1000 ∧
      realizedPart (dailyHaltRollover (.new ∅) armedMonitor none 17 ⟨2026, 5, 5⟩).1
        [realizedHedge .execute] observedInput.market = 700 := by
  decide +kernel

end Corsair.Ports.DailyPnl
