import Corsair.Ports.TraderState

/-!
# `corsair_trader::decision`: what a tick makes the trader do

`decideOnTick` is the gate chain of `decide_on_tick` in the order of the
source, over the state it reads and the state it leaves behind: the decision
counters, the theo cache and the burst limiter.  Its early returns are grouped
into gates (`strikeGate`, `fitGate`, `bookGate`) that name the counter they
bump; the loop body over the sides is cut the same way, into the price of a
side (`quoteTarget`), the order that rests at its key (`restingGate`) and the
sending (`sendSide`).

The implied-vol and Black-76 formulas are a parameter (`Pricing`), and so is
the time to expiry, which depends on the clock.

## Main results

* `decideOnTick_killed` — with a kill in force no decision is made and the
  state is left as it is, whatever the tick.
* `decideFrame_decideOnTick`, `decideOnTick_cases` — what a tick leaves of the
  state, and what it may decide.
-/

namespace Corsair.Ports.DecideOnTick

open Corsair.Verified
open Corsair.Ports.TraderState

/-! ## Constants -/

variable {F : Type} [F64 F]

/-- `MAX_STRIKE_OFFSET_USD`. -/
def maxStrikeOffsetUsd : F := F64.lit 30 2

/-- `STALENESS_TICKS`. -/
def stalenessTicks : Int := 1

/-- `COOLDOWN_NS`. -/
def cooldownNs : Nat := 250000000

/-- `UNACK_INFLIGHT_NS`. -/
def unackInflightNs : Nat := 2000000000

/-- `RISK_STATE_STALE_S`. -/
def riskStateStaleS : F := F64.lit 5 0

/-- `MIN_BBO_SIZE`. -/
def minBboSize : Int := 1

/-- `MAX_FORWARD_DRIFT_TICKS`. -/
def maxForwardDriftTicks : Int := 200

/-- `ATM_TOL_USD`. -/
def atmTolUsd : F := F64.lit 25 3

/-! ## Pricing -/

/-- The price and greeks of `black76_greeks`. -/
structure Greeks (F : Type) where
  price : F
  delta : F
  theta : F
  vega : F

/-- The formulas of `crate::pricing`, in the argument order of the source. -/
structure Pricing (F : Type) where
  sviImpliedVol : (f strike tte a b rho m sigma : F) → F
  sabrImpliedVol : (f strike tte alpha beta rho nu : F) → F
  black76Greeks : (f strike tte iv r : F) → Char → Greeks F

/-- The implied vol of the model that the parameters name; a missing parameter
is an early return. -/
def impliedVol (pricing : Pricing F) (forward strike tte : F) (params : VolParams F) :
    Option F :=
  if params.model = "svi" then do
    return pricing.sviImpliedVol forward strike tte (← params.a) (← params.b)
      (← params.rho) (← params.m) (← params.sigma)
  else if params.model = "sabr" then do
    return pricing.sabrImpliedVol forward strike tte (← params.alpha) (← params.beta)
      (← params.rho) (← params.nu)
  else none

/-- `compute_theo`. -/
def computeTheo (pricing : Pricing F) (forward strike tte : F) (right : Char)
    (params : VolParams F) : Option (F × TheoGreeks F) :=
  if F64.le forward F64.zero || F64.le strike F64.zero || F64.le tte F64.zero then none
  else
    (impliedVol pricing forward strike tte params).bind fun iv =>
      if F64.le iv F64.zero || F64.isNan iv then none
      else
        let g := pricing.black76Greeks forward strike tte iv F64.zero right
        if !F64.gt g.price F64.zero || !F64.isFinite g.delta || !F64.isFinite g.theta ||
            !F64.isFinite g.vega then none
        else some (iv, { theo := g.price, delta := g.delta, theta := g.theta, vega := g.vega })

/-! ## Risk gates -/

/-- `Side`. -/
inductive Side
  | buy
  | sell
  deriving DecidableEq, Repr

/-- `Side::as_str`. -/
def Side.asStr : Side → String
  | .buy => "BUY"
  | .sell => "SELL"

/-- `Side::as_char`. -/
def Side.asChar : Side → Char
  | .buy => 'B'
  | .sell => 'S'

/-- `Decision`. -/
inductive Decision (F : Type)
  | place (side : Side) (price : F) (cancelOldOid : Option Int)
  | modify (side : Side) (orderId : Int) (price : F)
  | cancelAll (orderIds : List Int)
  deriving DecidableEq, Repr

/-- `RiskGates`. -/
structure RiskGates where
  blockAll : Bool
  thetaBreach : Bool
  deltaBreachDir : Option Int
  deriving DecidableEq, Repr

/-- `compute_risk_gates`, with the number of times it counts a partial risk
state.  A state that never arrived has infinite age. -/
def computeRiskGates (snap : ScalarState F) (now : Nat) : RiskGates × Nat :=
  let blocked : RiskGates := ⟨true, false, none⟩
  let stale :=
    if snap.riskStateAgeMonotonicNs > 0 then
      F64.gt (F64.ofInt (now - snap.riskStateAgeMonotonicNs : Nat) / F64.lit 1000000000 0)
        (riskStateStaleS : F)
    else true
  match snap.riskEffectiveDelta, snap.riskMarginPct with
  | some eff, some marginPct =>
      if stale then (blocked, 0)
      else if F64.ge marginPct snap.marginCeilingPct then (blocked, 0)
      else
        let (thetaBreach, partialTheta) :=
          if F64.lt snap.thetaKill F64.zero then
            match snap.riskTheta with
            | some theta => (F64.lt theta snap.thetaKill, 0)
            | none => (false, 1)
          else (false, 0)
        let (vegaBreach, partialVega) :=
          if F64.gt snap.vegaKill F64.zero then
            match snap.riskVega with
            | some vega => (F64.ge (F64.abs vega) snap.vegaKill, 0)
            | none => (false, 1)
          else (false, 0)
        if vegaBreach then (⟨true, thetaBreach, none⟩, partialTheta)
        else
          let dir :=
            if F64.gt eff snap.deltaCeiling then some 1
            else if F64.lt eff (-snap.deltaCeiling) then some (-1)
            else none
          (⟨false, thetaBreach, dir⟩, partialTheta + partialVega)
  | _, _ => (blocked, 0)

/-- `improving_passes`. -/
def improvingPasses (g : RiskGates) (side : Side) (gx : TheoGreeks F) : Bool :=
  if !F64.isFinite gx.theta || !F64.isFinite gx.delta then false
  else
    let qtySigned : F :=
      match side with
      | .buy => F64.lit 1 0
      | .sell => F64.lit (-1) 0
    if g.thetaBreach && F64.le (qtySigned * gx.theta) F64.zero then false
    else
      match g.deltaBreachDir with
      | some dir => !F64.gt (F64.ofInt dir * (qtySigned * gx.delta)) F64.zero
      | none => true

/-! ## One side -/

/-- What both sides of a quote share. -/
structure QuoteContext (F : Type) where
  snap : ScalarState F
  strikeKey : Int
  expiry : String
  right : Char
  gates : RiskGates
  greeks : TheoGreeks F
  theo : F
  edge : F
  bid : F
  ask : F
  rawBid : F
  rawAsk : F
  now : Nat

/-- `theo` less or plus the edge, and one tick ahead of an external incumbent
where that still leaves the edge. -/
def jumpedTarget (c : QuoteContext F) : Side → F → F
  | .buy, target =>
      if F64.gt c.bid F64.zero then
        let jumped := c.bid + c.snap.tickSize
        if F64.lt target jumped && F64.ge (c.theo - jumped) c.edge then jumped else target
      else target
  | .sell, target =>
      if F64.gt c.ask F64.zero then
        let jumped := c.ask - c.snap.tickSize
        if F64.gt target jumped && F64.ge (jumped - c.theo) c.edge then jumped else target
      else target

/-- The price of a side on the tick grid, or the counter of the gate that
stopped it. -/
def quoteTarget (c : QuoteContext F) (side : Side) : Except Counter F :=
  let naive :=
    match side with
    | .buy => c.theo - c.edge
    | .sell => c.theo + c.edge
  if F64.le naive F64.zero then .error .skipTargetNonpositive
  else
    let target := jumpedTarget c side naive
    let crosses :=
      match side with
      | .buy => F64.gt c.ask F64.zero && F64.ge target c.ask
      | .sell => F64.gt c.bid F64.zero && F64.le target c.bid
    if crosses then
      match side with
      | .buy => .error .skipWouldCrossAsk
      | .sell => .error .skipWouldCrossBid
    else
      let mktMid := (c.rawBid + c.rawAsk) * F64.lit 5 1
      let capped :=
        match side with
        | .buy => F64.min target (mktMid - c.edge)
        | .sell => F64.max target (mktMid + c.edge)
      if F64.le capped F64.zero then .error .skipTargetNonpositive
      else
        let targetQ := F64.round (capped / c.snap.tickSize) * c.snap.tickSize
        .ok (F64.round (targetQ * F64.lit 10000 0) / F64.lit 10000 0)

/-- The gate of the order that rests at the key: unacknowledged, in the dead
band, or in its cooldown. -/
def restingGate (c : QuoteContext F) (targetQ : F) (ex : OurOrder F) : Option Counter :=
  let age := c.now - ex.placeMonotonicNs
  if ex.orderId.isNone && age < unackInflightNs then some .skipUnackInflight
  else
    let ageS := F64.ofInt (age : Nat) / F64.lit 1000000000 0
    let inBand :=
      F64.lt (F64.abs (targetQ - ex.price)) (F64.ofInt c.snap.deadBandTicks * c.snap.tickSize)
    let needsGtdRefresh := F64.gt ageS (c.snap.gtdLifetimeS - c.snap.gtdRefreshLeadS)
    if inBand && !needsGtdRefresh then some .skipInBand
    else if age < cooldownNs then some .skipCooldown
    else none

/-- The burst cap, then an amend where the key has a live order id and a fresh
order where it has none. -/
def sendSide (c : QuoteContext F) (s : SharedState F) (side : Side) (targetQ : F)
    (existing : Option (OurOrder F)) : Option (Decision F) × SharedState F :=
  let claim :=
    if s.burstWindowNs > 0 then s.outboundLimiter.tryConsume c.now s.burstWindowNs
    else (true, s.outboundLimiter)
  if claim.1 then
    let s := { s with outboundLimiter := claim.2 }
    match existing.bind OurOrder.orderId with
    | some oid => (some (.modify side oid targetQ), s.bump .modify 1)
    | none => (some (.place side targetQ none), s.bump .place 1)
  else (none, s.bump .skipBurstCap 1)

/-- The counter of a side that the risk gates block. -/
def riskBlockCounter : Side → Counter
  | .buy => .riskBlockBuy
  | .sell => .riskBlockSell

/-- The loop body of `decide_on_tick`. -/
def decideSide (c : QuoteContext F) (s : SharedState F) (side : Side) :
    Option (Decision F) × SharedState F :=
  match quoteTarget c side with
  | .error counter => (none, s.bump counter 1)
  | .ok targetQ =>
      if improvingPasses c.gates side c.greeks then
        let existing := s.ourOrders.lookup (c.strikeKey, c.expiry, c.right, side.asChar)
        match existing.bind (restingGate c targetQ) with
        | some counter => (none, s.bump counter 1)
        | none => sendSide c s side targetQ existing
      else (none, s.bump (riskBlockCounter side) 1)

/-- The two sides, one after the other. -/
def decideSides (c : QuoteContext F) (s : SharedState F) :
    List (Decision F) × SharedState F :=
  let (buy, s) := decideSide c s .buy
  let (sell, s) := decideSide c s .sell
  (buy.toList ++ sell.toList, s)

/-! ## The whole tick -/

/-- The theo and greeks at the fit: from the cache, else computed and
cached. -/
def theoAtFit (pricing : Pricing F) (s : SharedState F) (vp : VolSurfaceEntry F)
    (key : TheoCacheKey) (strike tte : F) (right : Char) :
    Option (TheoGreeks F) × SharedState F :=
  match s.theoCache.lookup key with
  | some gx => (some gx, s)
  | none =>
      match computeTheo pricing vp.forward strike tte right vp.params with
      | none => (none, s.bump .skipOther 1)
      | some (_, gx) =>
          let kept :=
            if s.theoCache.entries.length > 200 then
              (s.theoCache.keys.filter fun k => k.2.2.2 ≠ vp.fitTsNs).foldl
                (fun m k => m.erase k) s.theoCache
            else s.theoCache
          (some gx, { s with theoCache := kept.insert key gx })

/-- The best price on a side that is not our own order: the next depth level
where our order is the top of the book, else nothing. -/
def externalPrice (our depth0 depth1 : Option F) (raw : F) : F :=
  let isOurs (p : F) := F64.lt (F64.abs (p - depth0.getD raw)) (F64.lit 1 9)
  let oursOnTop := (our.map isOurs).getD false
  match depth0 with
  | some d0 => if oursOnTop then depth1.getD F64.zero else d0
  | none => if oursOnTop then F64.zero else raw

/-- The gates on the strike: outside the window around the pricing forward, or
in the money. -/
def strikeGate (vp : VolSurfaceEntry F) (strike : F) (right : Char) : Option Counter :=
  if F64.gt (F64.abs (strike - vp.forward)) maxStrikeOffsetUsd then some .skipOffAtm
  else if right = 'C' ∧ F64.lt strike (vp.forward - atmTolUsd) then some .skipItm
  else if right = 'P' ∧ F64.gt strike (vp.forward + atmTolUsd) then some .skipItm
  else none

/-- The gates on the fit: stale, outside the calibrated strikes, or too far
from spot. -/
def fitGate (snap : ScalarState F) (vp : VolSurfaceEntry F) (strike : F) (nowWall : Nat) :
    Option Counter :=
  let slack := snap.tickSize * F64.lit 5 1
  let uncalibrated :=
    match vp.calibratedMinK, vp.calibratedMaxK with
    | some minK, some maxK => F64.lt strike (minK - slack) || F64.gt strike (maxK + slack)
    | _, _ => false
  let drift := F64.abs (snap.underlyingPrice - vp.forward)
  if vp.fitTsNs > 0 ∧ nowWall - vp.fitTsNs > 120000000000 then some .skipVolSurfaceStale
  else if uncalibrated then some .skipUncalibratedStrike
  else if F64.gt drift (F64.ofInt maxForwardDriftTicks * snap.tickSize) then
    some .skipForwardDrift
  else none

/-- The gates on the book: one-sided, thin, or too wide for the edge. -/
def bookGate (snap : ScalarState F) (tick : TickMsg F) (rawBid rawAsk edge : F) :
    Option Counter :=
  let halfSpread := (rawAsk - rawBid) * F64.lit 5 1
  if F64.le rawBid F64.zero || F64.le rawAsk F64.zero then some .skipOneSidedOrDark
  else if tick.bidSize.getD 0 < minBboSize ∨ tick.askSize.getD 0 < minBboSize then
    some .skipThinBook
  else if F64.gt snap.skipIfSpreadOverEdgeMul F64.zero &&
      F64.gt halfSpread (snap.skipIfSpreadOverEdgeMul * edge) then some .skipWideSpread
  else none

/-- The quote of a tick whose surface has passed its gates. -/
def quoteContext (s : SharedState F) (vp : VolSurfaceEntry F) (gates : RiskGates)
    (gx : TheoGreeks F) (tick : TickMsg F) (right : Char) (now : Nat) : QuoteContext F :=
  let snap := s.scalars
  let sk := strikeKey tick.strike
  let rawBid := tick.bid.getD F64.zero
  let rawAsk := tick.ask.getD F64.zero
  let ourPrice (side : Char) :=
    (s.ourOrders.lookup (sk, tick.expiry, right, side)).map OurOrder.price
  { snap := snap
    strikeKey := sk
    expiry := tick.expiry
    right := right
    gates := gates
    greeks := gx
    theo := F64.max (gx.theo + gx.delta * (snap.underlyingPrice - vp.spotAtFit)) (F64.lit 1 2)
    edge := F64.ofInt snap.minEdgeTicks * snap.tickSize
    bid := externalPrice (ourPrice 'B') tick.depthBid0 tick.depthBid1 rawBid
    ask := externalPrice (ourPrice 'S') tick.depthAsk0 tick.depthAsk1 rawAsk
    rawBid := rawBid
    rawAsk := rawAsk
    now := now }

/-- `decide_on_tick` from the theo on. -/
def quoteAt (pricing : Pricing F) (s : SharedState F) (vp : VolSurfaceEntry F)
    (gates : RiskGates) (tick : TickMsg F) (right : Char) (tte : F) (now : Nat) :
    List (Decision F) × SharedState F :=
  let key : TheoCacheKey := (strikeKey tick.strike, tick.expiry, right, vp.fitTsNs)
  let fit := theoAtFit pricing s vp key tick.strike tte right
  match fit.1 with
  | none => ([], fit.2)
  | some gx =>
      let c := quoteContext fit.2 vp gates gx tick right now
      match bookGate c.snap tick c.rawBid c.rawAsk c.edge with
      | some counter => ([], fit.2.bump counter 2)
      | none => decideSides c fit.2

/-- The ids of the resting orders, cancelled together when the risk gates
block all. -/
def cancelResting (s : SharedState F) : List (Decision F) :=
  let orderIds := s.ourOrders.entries.filterMap fun e => e.2.orderId
  if orderIds.isEmpty then [] else [.cancelAll orderIds]

/-- `decide_on_tick`. -/
def decideOnTick (pricing : Pricing F) (timeToExpiry : String → Option F)
    (s : SharedState F) (tick : TickMsg F) (right : Char) (nowMono nowWall : Nat) :
    List (Decision F) × SharedState F :=
  if F64.le s.scalars.underlyingPrice F64.zero then ([], s)
  else if s.killsCount > 0 then ([], s)
  else if s.scalars.weekendPaused then ([], s)
  else
    match s.lookupVolSurface tick.expiry right with
    | none => ([], s.bump .skipNoVolSurface 1)
    | some vp =>
        let risk := computeRiskGates s.scalars nowMono
        let s := s.bump .riskStatePartial risk.2
        match strikeGate vp tick.strike right with
        | some counter => ([], s.bump counter 1)
        | none =>
            if risk.1.blockAll then (cancelResting s, s.bump .riskBlock 2)
            else
              match (timeToExpiry tick.expiry).filter fun t => F64.gt t F64.zero with
              | none => ([], s)
              | some tte =>
                  match fitGate s.scalars vp tick.strike nowWall with
                  | some counter => ([], s.bump counter 1)
                  | none => quoteAt pricing s vp risk.1 tick right tte nowMono

/-- **The kill gate.** With a kill in force a tick decides nothing. -/
theorem decideOnTick_killed (pricing : Pricing F) (timeToExpiry : String → Option F)
    (s : SharedState F) (tick : TickMsg F) (right : Char) (nowMono nowWall : Nat)
    (hkilled : 0 < s.killsCount) :
    decideOnTick pricing timeToExpiry s tick right nowMono nowWall = ([], s) := by
  unfold decideOnTick
  rw [if_pos hkilled, ite_self]

/-! ### What a decision is and what it leaves -/

/-- Only the counters, the theo cache and the burst limiter differ. -/
def DecideFrame (s s' : SharedState F) : Prop :=
  ∃ counters theoCache outboundLimiter,
    s' =
      { s with
        counters := counters
        theoCache := theoCache
        outboundLimiter := outboundLimiter }

omit [F64 F] in
theorem DecideFrame.refl (s : SharedState F) : DecideFrame s s := ⟨_, _, _, rfl⟩

omit [F64 F] in
theorem DecideFrame.trans {s s' s'' : SharedState F} (h : DecideFrame s s')
    (h' : DecideFrame s' s'') : DecideFrame s s'' := by
  obtain ⟨_, _, _, rfl⟩ := h
  obtain ⟨_, _, _, rfl⟩ := h'
  exact ⟨_, _, _, rfl⟩

omit [F64 F] in
theorem decideFrame_bump (s : SharedState F) (counter : Counter) (n : Nat) :
    DecideFrame s (s.bump counter n) := ⟨_, _, _, rfl⟩

/-- Only the counters and the burst limiter differ. -/
def SideFrame (s s' : SharedState F) : Prop :=
  ∃ counters outboundLimiter,
    s' = { s with counters := counters, outboundLimiter := outboundLimiter }

omit [F64 F] in
theorem SideFrame.trans {s s' s'' : SharedState F} (h : SideFrame s s')
    (h' : SideFrame s' s'') : SideFrame s s'' := by
  obtain ⟨_, _, rfl⟩ := h
  obtain ⟨_, _, rfl⟩ := h'
  exact ⟨_, _, rfl⟩

omit [F64 F] in
theorem decideFrame_of_sideFrame {s s' : SharedState F} (h : SideFrame s s') :
    DecideFrame s s' := by
  obtain ⟨_, _, rfl⟩ := h
  exact ⟨_, _, _, rfl⟩

omit [F64 F] in
theorem sideFrame_bump (s : SharedState F) (counter : Counter) (n : Nat) :
    SideFrame s (s.bump counter n) := ⟨_, _, rfl⟩

omit [F64 F] in
theorem sideFrame_sendSide (c : QuoteContext F) (s : SharedState F) (side : Side)
    (targetQ : F) (existing : Option (OurOrder F)) :
    SideFrame s (sendSide c s side targetQ existing).2 := by
  unfold sendSide
  extract_lets claim
  split
  · split <;> exact ⟨_, _, rfl⟩
  · exact sideFrame_bump ..

theorem sideFrame_decideSide (c : QuoteContext F) (s : SharedState F) (side : Side) :
    SideFrame s (decideSide c s side).2 := by
  unfold decideSide
  split
  · exact sideFrame_bump ..
  · split
    · simp only
      split
      · exact sideFrame_bump ..
      · exact sideFrame_sendSide ..
    · exact sideFrame_bump ..

theorem sideFrame_decideSides (c : QuoteContext F) (s : SharedState F) :
    SideFrame s (decideSides c s).2 :=
  (sideFrame_decideSide c s .buy).trans (sideFrame_decideSide c _ .sell)

theorem decideFrame_decideSide (c : QuoteContext F) (s : SharedState F) (side : Side) :
    DecideFrame s (decideSide c s side).2 :=
  decideFrame_of_sideFrame (sideFrame_decideSide c s side)

theorem decideFrame_theoAtFit (pricing : Pricing F) (s : SharedState F) (vp : VolSurfaceEntry F)
    (key : TheoCacheKey) (strike tte : F) (right : Char) :
    DecideFrame s (theoAtFit pricing s vp key strike tte right).2 := by
  unfold theoAtFit
  split
  · exact .refl s
  · split
    · exact decideFrame_bump ..
    · exact ⟨_, _, _, rfl⟩

theorem decideFrame_quoteAt (pricing : Pricing F) (s : SharedState F) (vp : VolSurfaceEntry F)
    (gates : RiskGates) (tick : TickMsg F) (right : Char) (tte : F) (now : Nat) :
    DecideFrame s (quoteAt pricing s vp gates tick right tte now).2 := by
  have htheo := decideFrame_theoAtFit pricing s vp
    (strikeKey tick.strike, tick.expiry, right, vp.fitTsNs) tick.strike tte right
  simp only [quoteAt]
  split
  · exact htheo
  · split
    · exact htheo.trans (decideFrame_bump ..)
    · exact htheo.trans (decideFrame_of_sideFrame (sideFrame_decideSides ..))

/-- **The frame of a decision.** -/
theorem decideFrame_decideOnTick (pricing : Pricing F) (timeToExpiry : String → Option F)
    (s : SharedState F) (tick : TickMsg F) (right : Char) (nowMono nowWall : Nat) :
    DecideFrame s (decideOnTick pricing timeToExpiry s tick right nowMono nowWall).2 := by
  unfold decideOnTick
  split
  · exact .refl s
  split
  · exact .refl s
  split
  · exact .refl s
  split
  · exact decideFrame_bump ..
  simp only
  split
  · exact ⟨_, _, _, rfl⟩
  split
  · exact ⟨_, _, _, rfl⟩
  split
  · exact ⟨_, _, _, rfl⟩
  split
  · exact ⟨_, _, _, rfl⟩
  · exact (decideFrame_bump ..).trans (decideFrame_quoteAt ..)

/-- The key of our order on a side of the tick's option. -/
def quoteKey (tick : TickMsg F) (right : Char) (side : Side) : OurOrderKey :=
  (strikeKey tick.strike, tick.expiry, right, side.asChar)

/-- The decision quotes the side: a fresh order where no acknowledged one is at
its key, an amend of the one that is there. -/
def Decision.Quotes (s : SharedState F) (tick : TickMsg F) (right : Char) (side : Side) :
    Decision F → Prop
  | .place side' _ cancelOldOid =>
      side' = side ∧ cancelOldOid = none ∧
        (s.ourOrders.lookup (quoteKey tick right side)).bind OurOrder.orderId = none
  | .modify side' orderId _ =>
      side' = side ∧
        (s.ourOrders.lookup (quoteKey tick right side)).bind OurOrder.orderId = some orderId
  | .cancelAll _ => False

theorem quotes_sendSide {c : QuoteContext F} {s : SharedState F} {side : Side} {targetQ : F}
    {tick : TickMsg F} {right : Char} {d : Decision F}
    (h : (sendSide c s side targetQ (s.ourOrders.lookup (quoteKey tick right side))).1 = some d) :
    d.Quotes s tick right side := by
  unfold sendSide at h
  extract_lets claim at h
  split at h
  · split at h
    · rename_i oid horder
      obtain rfl := Option.some.inj h
      exact ⟨rfl, horder⟩
    · rename_i horder
      obtain rfl := Option.some.inj h
      exact ⟨rfl, rfl, horder⟩
  · cases h

theorem quotes_decideSide {s s' : SharedState F} {vp : VolSurfaceEntry F} {gates : RiskGates}
    {gx : TheoGreeks F} {tick : TickMsg F} {right : Char} {now : Nat} {side : Side}
    {d : Decision F}
    (h : (decideSide (quoteContext s' vp gates gx tick right now) s side).1 = some d) :
    d.Quotes s tick right side := by
  unfold decideSide at h
  split at h
  · cases h
  · split at h
    · simp only at h
      split at h
      · cases h
      · exact quotes_sendSide h
    · cases h

/-- The decisions of a tick: one at most on each side of its option. -/
def QuotesSides (s : SharedState F) (tick : TickMsg F) (right : Char)
    (decisions : List (Decision F)) : Prop :=
  ∃ buy sell : Option (Decision F), decisions = buy.toList ++ sell.toList ∧
    (∀ d, buy = some d → d.Quotes s tick right .buy) ∧
      ∀ d, sell = some d → d.Quotes s tick right .sell

theorem quotesSides_nil (s : SharedState F) (tick : TickMsg F) (right : Char) :
    QuotesSides s tick right [] :=
  ⟨none, none, rfl, fun _ h => (nomatch h), fun _ h => (nomatch h)⟩

theorem Decision.Quotes.congr {s s' : SharedState F} {tick : TickMsg F} {right : Char}
    {side : Side} {d : Decision F} (h : d.Quotes s tick right side)
    (hframe : DecideFrame s' s) : d.Quotes s' tick right side := by
  obtain ⟨_, _, _, rfl⟩ := hframe
  exact h

theorem quotesSides_quoteAt (pricing : Pricing F) (s : SharedState F) (vp : VolSurfaceEntry F)
    (gates : RiskGates) (tick : TickMsg F) (right : Char) (tte : F) (now : Nat) :
    QuotesSides s tick right (quoteAt pricing s vp gates tick right tte now).1 := by
  have htheo := decideFrame_theoAtFit pricing s vp
    (strikeKey tick.strike, tick.expiry, right, vp.fitTsNs) tick.strike tte right
  simp only [quoteAt]
  split
  · exact quotesSides_nil ..
  · split
    · exact quotesSides_nil ..
    · refine ⟨_, _, rfl, fun d h => ?_, fun d h => ?_⟩
      · exact (quotes_decideSide h).congr htheo
      · exact (quotes_decideSide h).congr (htheo.trans (decideFrame_decideSide ..))

/-- **What a tick decides.** It cancels every acknowledged order, or quotes the
sides of its option. -/
theorem decideOnTick_cases (pricing : Pricing F) (timeToExpiry : String → Option F)
    (s : SharedState F) (tick : TickMsg F) (right : Char) (nowMono nowWall : Nat) :
    let decisions := (decideOnTick pricing timeToExpiry s tick right nowMono nowWall).1
    decisions = cancelResting s ∨ QuotesSides s tick right decisions := by
  unfold decideOnTick
  split
  · exact .inr (quotesSides_nil ..)
  split
  · exact .inr (quotesSides_nil ..)
  split
  · exact .inr (quotesSides_nil ..)
  split
  · exact .inr (quotesSides_nil ..)
  simp only
  split
  · exact .inr (quotesSides_nil ..)
  split
  · exact .inl rfl
  split
  · exact .inr (quotesSides_nil ..)
  split
  · exact .inr (quotesSides_nil ..)
  · right
    obtain ⟨buy, sell, hdecisions, hbuy, hsell⟩ := quotesSides_quoteAt pricing
      (s.bump .riskStatePartial (computeRiskGates s.scalars nowMono).2) _
      (computeRiskGates s.scalars nowMono).1 tick right _ nowMono
    exact ⟨buy, sell, hdecisions, fun d h => (hbuy d h).congr (decideFrame_bump ..),
      fun d h => (hsell d h).congr (decideFrame_bump ..)⟩

end Corsair.Ports.DecideOnTick
