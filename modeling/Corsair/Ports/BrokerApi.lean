import Corsair.Ports.Portfolio

/-!
# `corsair_broker_api`: contracts, orders and their lifecycle

The value types that the broker adapters produce and the runtime reads.  Ids
are natural numbers below `2 ^ 64`, quantities below `2 ^ 32`.
-/

namespace Corsair.Ports.BrokerApi

open Corsair.Verified
open Corsair.Ports.Portfolio (Right Date)

/-- `ContractKind`. -/
inductive ContractKind
  | future
  | option
  deriving DecidableEq, Repr

/-- `Exchange`. -/
inductive Exchange
  | cme
  | comex
  | nymex
  | cbot
  | other (code : Nat)
  deriving DecidableEq, Repr

/-- `Currency`. -/
inductive Currency
  | usd
  | eur
  | gbp
  | jpy
  deriving DecidableEq, Repr

/-- `Contract`. -/
structure Contract (F : Type) where
  instrumentId : Nat
  kind : ContractKind
  symbol : String
  localSymbol : String
  expiry : Date
  strike : Option F
  right : Option Right
  multiplier : F
  exchange : Exchange
  currency : Currency
  tradingClass : String
  deriving DecidableEq, Repr

/-- `Side`. -/
inductive Side
  | buy
  | sell
  deriving DecidableEq, Repr

/-- `OrderType`. -/
inductive OrderType (F : Type)
  | limit
  | market
  | stopLimit (stopPrice : F)
  deriving DecidableEq, Repr

/-- `TimeInForce`. -/
inductive TimeInForce
  | gtc
  | day
  | gtd
  | ioc
  | fok
  deriving DecidableEq, Repr

/-- `OrderStatus`. -/
inductive OrderStatus
  | pendingSubmit
  | submitted
  | filled
  | cancelled
  | rejected
  | pendingCancel
  | inactive
  deriving DecidableEq, Repr

/-- `is_terminal`: no further updates are expected. -/
def OrderStatus.isTerminal : OrderStatus → Bool
  | .filled | .cancelled | .rejected => true
  | _ => false

/-- `OpenOrder`; a `DateTime<Utc>` is in nanoseconds since the epoch. -/
structure OpenOrder (F : Type) where
  orderId : Nat
  contract : Contract F
  side : Side
  qty : Nat
  orderType : OrderType F
  price : Option F
  tif : TimeInForce
  gtdUntilUtc : Option Int
  clientOrderRef : String
  status : OrderStatus
  filledQty : Nat
  remainingQty : Nat
  deriving DecidableEq, Repr

/-- `OrderStatusUpdate`. -/
structure OrderStatusUpdate (F : Type) where
  orderId : Nat
  status : OrderStatus
  filledQty : Nat
  remainingQty : Nat
  avgFillPrice : F
  lastFillPrice : Option F
  timestampNs : Nat
  rejectReason : Option String
  deriving DecidableEq, Repr

/-- `PlaceOrderReq`. -/
structure PlaceOrderReq (F : Type) where
  contract : Contract F
  side : Side
  qty : Nat
  orderType : OrderType F
  price : Option F
  tif : TimeInForce
  gtdUntilUtc : Option Int
  clientOrderRef : String
  account : Option String
  deriving DecidableEq, Repr

/-- `ModifyOrderReq`. -/
structure ModifyOrderReq (F : Type) where
  price : Option F
  qty : Option Nat
  gtdUntilUtc : Option Int
  deriving DecidableEq, Repr

/-- `Fill`. -/
structure Fill (F : Type) where
  execId : String
  instrumentId : Nat
  side : Side
  qty : Nat
  price : F
  deriving DecidableEq, Repr

/-- `position::Position`. -/
structure BrokerPosition (F : Type) where
  contract : Contract F
  quantity : Int
  avgCost : F
  deriving DecidableEq, Repr

/-- `AccountSnapshot`. -/
structure AccountSnapshot (F : Type) where
  netLiquidation : F
  maintenanceMargin : F
  initialMargin : F
  buyingPower : F
  realizedPnlToday : F
  timestampNs : Nat
  deriving DecidableEq, Repr

/-! ## Integer casts -/

/-- A signed integer `as u64`. -/
def asU64 (n : Int) : Nat := (n % 2 ^ 64).toNat

/-- A `u64` `as i64`. -/
def asI64 (n : Nat) : Int :=
  if n % 2 ^ 64 < 2 ^ 63 then (n % 2 ^ 64 : Nat) else (n % 2 ^ 64 : Nat) - 2 ^ 64

/-- A `u64` `as i32`: its low 32 bits, read with a sign. -/
def asI32 (n : Nat) : Int :=
  if n % 2 ^ 32 < 2 ^ 31 then (n % 2 ^ 32 : Nat) else (n % 2 ^ 32 : Nat) - 2 ^ 32

/-- An order id of the adapter survives the trip through `OrderId`. -/
theorem asI32_asU64 {n : Int} (hlo : -2 ^ 31 ≤ n) (hhi : n < 2 ^ 31) : asI32 (asU64 n) = n := by
  unfold asI32 asU64
  have hpos : 0 ≤ n % 2 ^ 64 := by omega
  have hlow : ((n % 2 ^ 64).toNat % 2 ^ 32 : Nat) = (n % 2 ^ 32).toNat := by omega
  rw [hlow]
  split
  · omega
  · omega

/-- An `i32` holds a number modulo `2 ^ 32`: its sums wrap around. -/
def i32 (n : Int) : Int := (n + 2 ^ 31) % 2 ^ 32 - 2 ^ 31

theorem i32_i32_add (a b : Int) : i32 (i32 a + b) = i32 (a + b) := by
  unfold i32
  omega

theorem i32_of_bounds {n : Int} (hlo : -2 ^ 31 ≤ n) (hhi : n < 2 ^ 31) : i32 n = n := by
  unfold i32
  omega

theorem i32_bounds (n : Int) : -2 ^ 31 ≤ i32 n ∧ i32 n < 2 ^ 31 := by
  unfold i32
  omega

theorem i32_asI32 (n : Nat) : i32 (asI32 n) = i32 n := by
  unfold i32 asI32
  split
  · omega
  · omega

/-- A quantity with the sign of its side: `qty as i32`, or its negation. -/
def signedQty (isBuy : Bool) (qty : Nat) : Int := if isBuy then asI32 qty else i32 (-asI32 qty)

theorem i32_eq_iff {a b : Int} : i32 a = i32 b ↔ a % 2 ^ 32 = b % 2 ^ 32 := by
  unfold i32
  omega

/-- Up to wrapping around, a signed quantity is the quantity or its negation. -/
theorem signedQty_emod (isBuy : Bool) (qty : Nat) :
    signedQty isBuy qty % 2 ^ 32 = (if isBuy then (qty : Int) else -qty) % 2 ^ 32 := by
  have hcast := i32_eq_iff.mp (i32_asI32 qty)
  cases isBuy with
  | true => exact hcast
  | false =>
      simp only [signedQty, i32, Bool.false_eq_true, if_false]
      omega

theorem signedQty_bounds (isBuy : Bool) (qty : Nat) :
    -2 ^ 31 ≤ signedQty isBuy qty ∧ signedQty isBuy qty < 2 ^ 31 := by
  unfold signedQty
  split
  · unfold asI32
    split
    · omega
    · omega
  · exact i32_bounds _

/-- `Side::Buy`. -/
def Side.isBuy : Side → Bool
  | .buy => true
  | .sell => false

/-- A double `as u32`: towards zero, saturating. -/
def asU32 {F : Type} [F64 F] (x : F) : Nat := (F64.toInt 0 4294967295 x).toNat

end Corsair.Ports.BrokerApi
