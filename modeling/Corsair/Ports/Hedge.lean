import Corsair.Ports.Portfolio

/-!
# `corsair_hedge`: hedge managers and their P&L

One manager per product, with the futures position it holds.  `hedgePnl` is
the sum that the kill switch sees: it skips managers in observe mode, whose
fills are simulated.
-/

namespace Corsair.Ports.Hedge

open Corsair.Verified
open Corsair.Ports.Portfolio

/-- `HedgeMode`. -/
inductive HedgeMode
  | observe
  | execute
  deriving DecidableEq, Repr

/-- `HedgeConfig`. -/
structure HedgeConfig (F : Type) where
  product : String
  multiplier : F
  mode : HedgeMode

/-- `HedgeState`. -/
structure HedgeState (F : Type) where
  hedgeQty : Int
  avgEntryF : F
  realizedPnlUsd : F

/-- `HedgeManager`. -/
structure HedgeManager (F : Type) where
  cfg : HedgeConfig F
  state : HedgeState F

variable {F : Type} [F64 F]

/-- `HedgeState::mtm_usd`. -/
def HedgeState.mtmUsd (s : HedgeState F) (currentF multiplier : F) : F :=
  if s.hedgeQty = 0 ∨ F64.le currentF F64.zero then F64.zero
  else (currentF - s.avgEntryF) * F64.ofInt s.hedgeQty * multiplier

/-- `HedgeManager::mtm_usd`. -/
def HedgeManager.mtmUsd (m : HedgeManager F) (currentF : F) : F :=
  m.state.mtmUsd currentF m.cfg.multiplier

/-- `hedge_pnl`: the mark-to-market and the realized P&L of the managers, at
the hedge contract's own mark where there is one. -/
def hedgePnl (managers : List (HedgeManager F)) (market : MarketView F) : F × F :=
  managers.foldl
    (fun sums m =>
      match m.cfg.mode with
      | .observe => sums
      | .execute =>
          let f := ((market.hedgeUnderlyingPrice m.cfg.product).or
            (market.underlyingPrice m.cfg.product)).getD F64.zero
          (sums.1 + m.mtmUsd f, sums.2 + m.state.realizedPnlUsd))
    (F64.zero, F64.zero)

end Corsair.Ports.Hedge
