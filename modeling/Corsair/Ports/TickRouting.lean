import Corsair.Ports.NativeDecoder
import Corsair.Ports.QuoteBook

/-!
# `corsair_broker_ibkr_native`: inbound market data

Price, size and depth messages carry the id of the request that asked for them.  `route`
turns the request id into the instrument id of the subscription and the message into a
tick or a depth update for the channels; messages of no subscription, and ticks of kinds
that nobody reads, go no further.

## Main results

* `routeTick_shaped` — a routed tick has a price and no size, or a size and no price.
-/

namespace Corsair.Ports.TickRouting

open Corsair.Verified
open Corsair.Ports.Portfolio (Right Date)
open Corsair.Ports.NativeDecoder
open Corsair.Ports.QuoteBook

variable {F : Type} [F64 F]

/-! ## Decoding -/

/-- `TickPriceMsg`, `TickSizeMsg` and `MarketDepthMsg`, as far as they are routed. -/
inductive MarketMsg (F : Type)
  | tickPrice (reqId tickType : Int) (price : F)
  | tickSize (reqId tickType : Int) (size : F)
  | marketDepth (reqId position operation side : Int) (price size : F)
  deriving DecidableEq, Repr

/-- `parse_tick_price`. -/
def parseTickPrice (fmt : TextFormats F Date) (fields : Frame) : Except NativeError (MarketMsg F) :=
  if fields.length < 6 then .error (tooShort "tickPrice" fields)
  else do
    let reqId ← parseInt fmt (getField fields 2)
    let tickType ← parseInt fmt (getField fields 3)
    let price ← parseF64 fmt (getField fields 4)
    let _attribs ← parseInt fmt (fields[6]?.getD "0")
    return .tickPrice reqId tickType price

/-- `parse_tick_size`. -/
def parseTickSize (fmt : TextFormats F Date) (fields : Frame) : Except NativeError (MarketMsg F) :=
  if fields.length < 5 then .error (tooShort "tickSize" fields)
  else do
    let reqId ← parseInt fmt (getField fields 2)
    let tickType ← parseInt fmt (getField fields 3)
    let size ← parseF64 fmt (getField fields 4)
    return .tickSize reqId tickType size

/-- `parse_market_depth`. -/
def parseMarketDepth (fmt : TextFormats F Date) (fields : Frame) (isL2 : Bool) :
    Except NativeError (MarketMsg F) :=
  if fields.length < (if isL2 then 8 else 7) then
    .error (tooShort ("marketDepth (L2=" ++ toString isL2 ++ ")") fields)
  else do
    -- A level-two message has the market maker in the fourth place.
    let skip := if isL2 then 1 else 0
    let reqId ← parseInt fmt (getField fields 1)
    let position ← parseInt fmt (getField fields 2)
    let operation ← parseInt fmt (getField fields (3 + skip))
    let side ← parseInt fmt (getField fields (4 + skip))
    let price ← parseF64 fmt (getField fields (5 + skip))
    let size ← parseF64 fmt (getField fields (6 + skip))
    return .marketDepth reqId position operation side price size

def inTickPrice : Int := 1

def inTickSize : Int := 2

def inMarketDepth : Int := 12

def inMarketDepthL2 : Int := 13

/-- `parse_inbound`, on market data; a frame of another type gives none. -/
def parseMarket (fmt : TextFormats F Date) : Frame → Except NativeError (Option (MarketMsg F))
  | [] => .error (.malformed "empty frame")
  | ty :: body => do
      let typeId ← parseInt fmt ty
      if typeId = inTickPrice then return some (← parseTickPrice fmt (ty :: body))
      else if typeId = inTickSize then return some (← parseTickSize fmt (ty :: body))
      else if typeId = inMarketDepth then return some (← parseMarketDepth fmt (ty :: body) false)
      else if typeId = inMarketDepthL2 then return some (← parseMarketDepth fmt (ty :: body) true)
      else return none

/-! ## Routing -/

/-- `BrokerState`, as far as market data goes: the instruments of the requests, and the
rights of those that ask for an option. -/
structure TickRoutes where
  tickRoutes : AList (fun _ : Int => Nat)
  tickRouteRight : AList (fun _ : Int => Right)
  depthRoutes : AList (fun _ : Int => Nat)

namespace TickRoutes

def empty : TickRoutes := ⟨∅, ∅, ∅⟩

/-- `subscribe_ticks`, once the request is out. -/
def subscribeTicks (s : TickRoutes) (reqId : Int) (iid : Nat) (right : Option Right) :
    TickRoutes where
  tickRoutes := s.tickRoutes.insert reqId iid
  tickRouteRight := match right with
    | some r => s.tickRouteRight.insert reqId r
    | none => s.tickRouteRight
  depthRoutes := s.depthRoutes

/-- `unsubscribe_ticks`, and `subscribe_ticks` where the request is not sent. -/
def unsubscribeTicks (s : TickRoutes) (reqId : Int) : TickRoutes where
  tickRoutes := s.tickRoutes.erase reqId
  tickRouteRight := s.tickRouteRight.erase reqId
  depthRoutes := s.depthRoutes

/-- `subscribe_market_depth`, once the request is out. -/
def subscribeDepth (s : TickRoutes) (reqId : Int) (iid : Nat) : TickRoutes :=
  { s with depthRoutes := s.depthRoutes.insert reqId iid }

/-- `unsubscribe_market_depth`, and `subscribe_market_depth` where the request is not
sent. -/
def unsubscribeDepth (s : TickRoutes) (reqId : Int) : TickRoutes :=
  { s with depthRoutes := s.depthRoutes.erase reqId }

end TickRoutes

/-- The kind of a price message; delayed data has types of its own. -/
def priceKind (tickType : Int) : Option TickKind :=
  if tickType = 1 ∨ tickType = 66 then some .bid
  else if tickType = 2 ∨ tickType = 67 then some .ask
  else if tickType = 4 ∨ tickType = 68 then some .last
  else none

/-- The kind of a size message. -/
def sizeKind (tickType : Int) : Option TickKind :=
  if tickType = 0 ∨ tickType = 69 then some .bidSize
  else if tickType = 3 ∨ tickType = 70 then some .askSize
  else if tickType = 8 ∨ tickType = 29 ∨ tickType = 30 ∨ tickType = 71 then some .optionVolume
  else if tickType = 27 ∨ tickType = 28 then some .optionOpenInterest
  else none

/-- The message counts calls where the leg is a put, or puts where it is a call. -/
def wrongSide (tickType : Int) : Right → Bool
  | .call => tickType = 28 ∨ tickType = 30
  | .put => tickType = 27 ∨ tickType = 29

/-- `f64 as u64`. -/
def asU64F (x : F) : Nat := (F64.toInt 0 18446744073709551615 x).toNat

/-- `route`, on a message for the tick channel. -/
def routeTick (s : TickRoutes) (msg : MarketMsg F) (recvNs : Nat) : Option (Tick F) :=
  match msg with
  | .tickPrice reqId tickType price => do
      let kind ← priceKind tickType
      let iid ← s.tickRoutes.lookup reqId
      return {
        instrumentId := iid, kind, price := some price, size := none, timestampNs := recvNs }
  | .tickSize reqId tickType size =>
      if (s.tickRouteRight.lookup reqId).any (wrongSide tickType) then none
      else do
        let kind ← sizeKind tickType
        let iid ← s.tickRoutes.lookup reqId
        return {
          instrumentId := iid, kind, price := none, size := some (asU64F size)
          timestampNs := recvNs }
  | .marketDepth .. => none

/-- `DepthUpdate`. -/
structure DepthUpdate (F : Type) where
  instrumentId : Nat
  position : Int
  operation : Int
  isBid : Bool
  price : F
  size : Nat
  timestampNs : Nat
  deriving DecidableEq, Repr

/-- `route`, on a message for the depth channel. -/
def routeDepth (s : TickRoutes) (msg : MarketMsg F) (recvNs : Nat) : Option (DepthUpdate F) :=
  match msg with
  | .marketDepth reqId position operation side price size => do
      let iid ← s.depthRoutes.lookup reqId
      return {
        instrumentId := iid, position, operation, isBid := side = 1, price
        size := asU64F size, timestampNs := recvNs }
  | _ => none

/-- A tick of the native broker: a price tick has a price and no size, and a size tick has
a size and no price. -/
def Shaped (t : Tick F) : Prop :=
  match t.kind with
  | .bid | .ask | .last => t.price.isSome ∧ t.size = none
  | _ => t.price = none ∧ t.size.isSome

omit [F64 F] in
theorem shaped_of_priceKind {tickType : Int} {kind : TickKind} (h : priceKind tickType = some kind)
    (iid : Nat) (price : F) (tsNs : Nat) :
    Shaped { instrumentId := iid, kind, price := some price, size := none, timestampNs := tsNs } := by
  unfold priceKind at h
  repeat' split at h
  all_goals cases h
  all_goals exact ⟨rfl, rfl⟩

omit [F64 F] in
theorem shaped_of_sizeKind {tickType : Int} {kind : TickKind} (h : sizeKind tickType = some kind)
    (iid size tsNs : Nat) :
    Shaped ({ instrumentId := iid, kind, price := none, size := some size, timestampNs := tsNs } :
      Tick F) := by
  unfold sizeKind at h
  repeat' split at h
  all_goals cases h
  all_goals exact ⟨rfl, rfl⟩

/-- **A routed tick** has a price and no size, or a size and no price. -/
theorem routeTick_shaped {s : TickRoutes} {msg : MarketMsg F} {recvNs : Nat} {t : Tick F}
    (h : routeTick s msg recvNs = some t) : Shaped t := by
  cases msg with
  | tickPrice reqId tickType price =>
      obtain ⟨kind, hkind, h⟩ := Option.bind_eq_some_iff.mp h
      obtain ⟨iid, -, h⟩ := Option.bind_eq_some_iff.mp h
      obtain rfl := Option.some.inj h
      exact shaped_of_priceKind hkind iid price recvNs
  | tickSize reqId tickType size =>
      simp only [routeTick] at h
      split at h
      · cases h
      · obtain ⟨kind, hkind, h⟩ := Option.bind_eq_some_iff.mp h
        obtain ⟨iid, -, h⟩ := Option.bind_eq_some_iff.mp h
        obtain rfl := Option.some.inj h
        exact shaped_of_sizeKind hkind iid _ recvNs
  | marketDepth => cases h

end Corsair.Ports.TickRouting
