import Mathlib.Data.List.AList
import Corsair.Verified.F64

/-!
# `corsair_trader::state` and `corsair_trader::messages`

The trader's shared state, the messages it decodes and the commands it writes.

The concurrent maps are association lists with distinct keys; their order
stands for the unspecified iteration order of the source's.  Interned strings
are strings.  The typed wrappers of a double (`FitForward`, `SpotAtFit`) only
keep two doubles of one record apart, which the field names do here.  The
latency histograms are written for telemetry and read by nothing else, so they
are left out; the decision counters are kept as one function of the counter's
name.
-/

namespace Corsair.Ports.TraderState

open Corsair.Verified

/-! ## Keys and entries -/

/-- `OptionKey`. -/
abbrev OptionKey := Int × String × Char

/-- `VolSurfaceKey`. -/
abbrev VolSurfaceKey := String × Char

/-- `TheoCacheKey`. -/
abbrev TheoCacheKey := Int × String × Char × Nat

/-- `OurOrderKey`: strike key, expiry, right, side. -/
abbrev OurOrderKey := Int × String × Char × Char

/-- `OptionState`. -/
structure OptionState (F : Type) where
  bid : Option F
  ask : Option F
  bidSize : Option Int
  askSize : Option Int
  deriving DecidableEq, Repr

/-- `VolParams`. -/
structure VolParams (F : Type) where
  model : String
  a : Option F
  b : Option F
  rho : Option F
  m : Option F
  sigma : Option F
  alpha : Option F
  beta : Option F
  nu : Option F
  deriving DecidableEq, Repr

/-- `VolSurfaceEntry`. -/
structure VolSurfaceEntry (F : Type) where
  forward : F
  params : VolParams F
  fitTsNs : Nat
  calibratedMinK : Option F
  calibratedMaxK : Option F
  spotAtFit : F
  deriving DecidableEq, Repr

/-- `OurOrder`. -/
structure OurOrder (F : Type) where
  price : F
  placeMonotonicNs : Nat
  orderId : Option Int
  deriving DecidableEq, Repr

/-- `TheoGreeks`. -/
structure TheoGreeks (F : Type) where
  theo : F
  delta : F
  theta : F
  vega : F
  deriving DecidableEq, Repr

/-- `ScalarState`; a tick works on a copy of it, `ScalarSnapshot`. -/
structure ScalarState (F : Type) where
  underlyingPrice : F
  riskEffectiveDelta : Option F
  riskMarginPct : Option F
  riskHedgeDelta : Option Int
  riskTheta : Option F
  riskVega : Option F
  riskStateAgeMonotonicNs : Nat
  minEdgeTicks : Int
  tickSize : F
  deltaCeiling : F
  thetaKill : F
  vegaKill : F
  marginCeilingPct : F
  contractMultiplier : F
  weekendPaused : Bool
  gtdLifetimeS : F
  gtdRefreshLeadS : F
  deadBandTicks : Int
  skipIfSpreadOverEdgeMul : F
  deriving DecidableEq, Repr

/-- `OutboundLimiter`: the two timestamp slots. -/
structure OutboundLimiter where
  slotA : Nat
  slotB : Nat
  deriving DecidableEq, Repr

/-- The fields of `DecisionCounters`. -/
inductive Counter
  | place
  | skipNoVolSurface
  | skipVolSurfaceStale
  | skipUncalibratedStrike
  | skipUnackInflight
  | droppedParseErrors
  | skipOffAtm
  | skipItm
  | skipThinBook
  | skipOneSidedOrDark
  | skipWideSpread
  | skipForwardDrift
  | skipInBand
  | skipCooldown
  | skipTargetNonpositive
  | skipWouldCrossAsk
  | skipWouldCrossBid
  | skipOther
  | riskBlock
  | riskBlockBuy
  | riskBlockSell
  | stalenessCancel
  | stalenessCancelDark
  | stalenessModify
  | modify
  | placeDropped
  | skipBurstCap
  | riskStatePartial
  deriving DecidableEq, Repr

/-- `SharedState`, with the counters. -/
structure SharedState (F : Type) where
  options : AList (fun _ : OptionKey => OptionState F)
  volSurfaces : AList (fun _ : VolSurfaceKey => VolSurfaceEntry F)
  theoCache : AList (fun _ : TheoCacheKey => TheoGreeks F)
  ourOrders : AList (fun _ : OurOrderKey => OurOrder F)
  orderidToKey : AList (fun _ : Int => OurOrderKey)
  kills : AList (fun _ : String => String)
  killsCount : Nat
  scalars : ScalarState F
  outboundLimiter : OutboundLimiter
  burstWindowNs : Nat
  counters : Counter → Nat

/-! ## Operations -/

variable {F : Type}

/-- `fetch_add` on a counter. -/
def SharedState.bump (s : SharedState F) (counter : Counter) (n : Nat) : SharedState F :=
  { s with counters := fun c => if c = counter then s.counters c + n else s.counters c }

/-- `lookup_vol_surface`: the right itself, then `'C'`, then `'P'`. -/
def SharedState.lookupVolSurface (s : SharedState F) (expiry : String) (right : Char) :
    Option (VolSurfaceEntry F) :=
  ((s.volSurfaces.lookup (expiry, right)).or (s.volSurfaces.lookup (expiry, 'C'))).or
    (s.volSurfaces.lookup (expiry, 'P'))

/-- `try_consume`, undisturbed: the compare-and-exchange succeeds at once. -/
def OutboundLimiter.tryConsume (l : OutboundLimiter) (now maxAge : Nat) :
    Bool × OutboundLimiter :=
  if now - l.slotA < maxAge ∧ now - l.slotB < maxAge then (false, l)
  else if l.slotA ≤ l.slotB then (true, { l with slotA := now })
  else (true, { l with slotB := now })

/-- `kills.insert`, which counts a source only when it is new. -/
def SharedState.insertKill (s : SharedState F) (source reason : String) : SharedState F :=
  { s with
    kills := s.kills.insert source reason
    killsCount := if (s.kills.lookup source).isNone then s.killsCount + 1 else s.killsCount }

/-- `kills.remove`, which counts a source down only when it was there. -/
def SharedState.removeKill (s : SharedState F) (source : String) : SharedState F :=
  { s with
    kills := s.kills.erase source
    killsCount := if (s.kills.lookup source).isSome then s.killsCount - 1 else s.killsCount }

/-- Remove an order by its id, from both maps. -/
def SharedState.removeOrder (s : SharedState F) (orderId : Int) : SharedState F :=
  match s.orderidToKey.lookup orderId with
  | none => s
  | some key =>
      { s with
        orderidToKey := s.orderidToKey.erase orderId
        ourOrders := s.ourOrders.erase key }

/-- `get_mut` on a resting order. -/
def SharedState.modifyOrder (s : SharedState F) (key : OurOrderKey)
    (f : OurOrder F → OurOrder F) : SharedState F :=
  match s.ourOrders.lookup key with
  | none => s
  | some order => { s with ourOrders := s.ourOrders.replace key (f order) }

/-! ## The kill map and its mirror -/

/-- The count mirrors the size of the kill map. -/
def SharedState.KillsCounted (s : SharedState F) : Prop :=
  s.killsCount = s.kills.keys.length

theorem SharedState.KillsCounted.insertKill {s : SharedState F} (h : s.KillsCounted)
    (source reason : String) : (s.insertKill source reason).KillsCounted := by
  unfold SharedState.KillsCounted SharedState.insertKill at *
  simp only [AList.keys_insert, List.length_cons, Option.isNone_iff_eq_none,
    AList.lookup_eq_none, AList.mem_keys]
  by_cases hmem : source ∈ s.kills.keys
  · have hpos := List.length_pos_of_mem hmem
    rw [if_neg (not_not_intro hmem), List.length_erase_of_mem hmem, h]
    omega
  · rw [if_pos hmem, List.erase_of_not_mem hmem, h]

theorem SharedState.KillsCounted.removeKill {s : SharedState F} (h : s.KillsCounted)
    (source : String) : (s.removeKill source).KillsCounted := by
  unfold SharedState.KillsCounted SharedState.removeKill at *
  simp only [AList.keys_erase, AList.lookup_isSome, AList.mem_keys]
  by_cases hmem : source ∈ s.kills.keys
  · rw [if_pos hmem, List.length_erase_of_mem hmem, h]
  · rw [if_neg hmem, List.erase_of_not_mem hmem, h]

/-- A source in the map keeps the count positive. -/
theorem SharedState.KillsCounted.pos {s : SharedState F} (h : s.KillsCounted) {source : String}
    (hmem : source ∈ s.kills) : 0 < s.killsCount := by
  rw [h]
  exact List.length_pos_of_mem (AList.mem_keys.mp hmem)

theorem SharedState.mem_insertKill {s : SharedState F} {source reason key : String} :
    key ∈ (s.insertKill source reason).kills ↔ key = source ∨ key ∈ s.kills :=
  AList.mem_insert _

theorem SharedState.mem_removeKill {s : SharedState F} {source key : String} :
    key ∈ (s.removeKill source).kills ↔ key ≠ source ∧ key ∈ s.kills :=
  AList.mem_erase

variable [F64 F]

/-- `strike_key`. -/
def strikeKey (strike : F) : Int :=
  F64.toInt (-2 ^ 63) (2 ^ 63 - 1) (F64.round (strike * F64.lit 10000 0))

/-- `ScalarState::new`. -/
def ScalarState.new : ScalarState F :=
  { underlyingPrice := F64.lit 0 0
    riskEffectiveDelta := none
    riskMarginPct := none
    riskHedgeDelta := none
    riskTheta := none
    riskVega := none
    riskStateAgeMonotonicNs := 0
    minEdgeTicks := 2
    tickSize := F64.lit 5 4
    deltaCeiling := F64.lit 3 0
    thetaKill := F64.lit (-500) 0
    vegaKill := F64.lit 0 0
    marginCeilingPct := F64.lit 50 2
    contractMultiplier := F64.lit 25000 0
    weekendPaused := false
    gtdLifetimeS := F64.lit 30 0
    gtdRefreshLeadS := F64.lit 35 1
    deadBandTicks := 1
    skipIfSpreadOverEdgeMul := F64.lit 4 0 }

/-- `SharedState::new`; the burst window comes from the environment. -/
def SharedState.new (burstWindowNs : Nat) : SharedState F :=
  { options := ∅
    volSurfaces := ∅
    theoCache := ∅
    ourOrders := ∅
    orderidToKey := ∅
    kills := ∅
    killsCount := 0
    scalars := ScalarState.new
    outboundLimiter := { slotA := 0, slotB := 0 }
    burstWindowNs := burstWindowNs
    counters := fun _ => 0 }

/-! ## Messages and commands -/

/-- `TickMsg`. -/
structure TickMsg (F : Type) where
  strike : F
  expiry : String
  right : String
  bid : Option F
  ask : Option F
  bidSize : Option Int
  askSize : Option Int
  tsNs : Option Nat
  brokerRecvNs : Option Nat
  depthBid0 : Option F
  depthBid1 : Option F
  depthAsk0 : Option F
  depthAsk1 : Option F
  deriving DecidableEq, Repr

/-- `VolSurfaceMsg`. -/
structure VolSurfaceMsg (F : Type) where
  expiry : String
  side : String
  forward : F
  params : VolParams F
  tsNs : Option Nat
  calibratedMinK : Option F
  calibratedMaxK : Option F
  spotAtFit : Option F

/-- `RiskStateMsg`. -/
structure RiskStateMsg (F : Type) where
  marginPct : F
  hedgeDelta : Int
  effectiveDelta : F
  theta : F
  vega : F

/-- `PlaceAckMsg`. -/
structure PlaceAckMsg (F : Type) where
  orderId : Int
  strike : F
  expiry : String
  right : String
  side : String
  price : F

/-- `OrderAckMsg`. -/
structure OrderAckMsg where
  orderId : Option Int
  status : Option String

/-- `KillMsg`, of a kill and of a resume. -/
structure KillMsg where
  source : Option String
  reason : Option String

/-- `HelloConfig`. -/
structure HelloConfig (F : Type) where
  minEdgeTicks : Option Int
  tickSize : Option F
  deltaCeiling : Option F
  marginCeilingPct : Option F
  contractMultiplier : Option F
  gtdLifetimeS : Option F
  gtdRefreshLeadS : Option F
  deadBandTicks : Option Int
  skipIfSpreadOverEdgeMul : Option F
  thetaKill : Option F
  vegaKill : Option F

/-- `HelloMsg`. -/
structure HelloMsg (F : Type) where
  config : Option (HelloConfig F)
  activeKills : List String

/-- `PlaceOrder`. -/
structure PlaceOrder (F : Type) where
  tsNs : Nat
  strike : F
  expiry : String
  right : String
  side : String
  qty : Int
  price : F
  orderRef : String
  gtdSeconds : Nat
  triggeringTickBrokerRecvNs : Option Nat
  deriving DecidableEq, Repr

/-- `ModifyOrder`. -/
structure ModifyOrder (F : Type) where
  tsNs : Nat
  orderId : Int
  price : F
  gtdSeconds : Nat
  triggeringTickBrokerRecvNs : Option Nat
  deriving DecidableEq, Repr

/-- `CancelOrder`. -/
structure CancelOrder where
  tsNs : Nat
  orderId : Int
  deriving DecidableEq, Repr

/-- An order command on the commands ring. -/
inductive Command (F : Type)
  | place (order : PlaceOrder F)
  | modify (order : ModifyOrder F)
  | cancel (order : CancelOrder)
  deriving DecidableEq, Repr

/-- The command puts an order in the market, or keeps one there. -/
def Command.Quotes : Command F → Prop
  | .place _ => True
  | .modify _ => True
  | .cancel _ => False

instance : DecidablePred (Command.Quotes (F := F))
  | .place _ => isTrue trivial
  | .modify _ => isTrue trivial
  | .cancel _ => isFalse id

end Corsair.Ports.TraderState
