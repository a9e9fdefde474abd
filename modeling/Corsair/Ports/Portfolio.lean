import Corsair.Verified.F64

/-!
# `corsair_position`: positions, the market view and the mark-to-market

The book of option positions and the read interface to the market, as far as
the P&L reads them.  `MarketView` is a trait of the source and a record of
functions here.
-/

namespace Corsair.Ports.Portfolio

open Corsair.Verified

/-- `Right`. -/
inductive Right
  | call
  | put
  deriving DecidableEq, Repr

/-- `NaiveDate`. -/
structure Date where
  year : Int
  month : Nat
  day : Nat
  deriving DecidableEq, Repr

/-- `Position`. -/
structure Position (F : Type) where
  product : String
  strike : F
  expiry : Date
  right : Right
  quantity : Int
  avgFillPrice : F
  multiplier : F
  currentPrice : F

/-- `MarketView`. -/
structure MarketView (F : Type) where
  underlyingPrice : String → Option F
  currentPrice : String → F → Date → Right → Option F
  hedgeUnderlyingPrice : String → Option F

/-- `PortfolioState`. -/
structure PortfolioState (F : Type) where
  positions : List (Position F)
  realizedPnlPersisted : F

variable {F : Type} [F64 F]

/-- `compute_mtm_pnl`: a position without a positive live or cached price is
skipped. -/
def PortfolioState.computeMtmPnl (portfolio : PortfolioState F) (market : MarketView F) : F :=
  portfolio.positions.foldl
    (fun total p =>
      let live := (market.currentPrice p.product p.strike p.expiry p.right).getD p.currentPrice
      if F64.le live F64.zero then total
      else total + F64.ofInt p.quantity * (live - p.avgFillPrice) * p.multiplier)
    F64.zero

end Corsair.Ports.Portfolio
