import Corsair.Verified.Runs
import Corsair.Ports.DecideOnTick

/-!
# `corsair_trader::main`: the hot loop and the staleness loop

`processEvent` is the dispatch of `process_event` on a decoded message,
`onTick` the tick path with its frames and its tracking, `stalenessCheck` one
pass of the background loop.  Each returns the order commands it put on the
commands ring, in order, and the state it leaves.

A call of `write_frame` answers true or false; the answers of one step are the
function `accepts` of the frame's index.  The clocks, and with them the time
to expiry, are read once a step (`Clock`).  A body that does not decode is
`undecodable`, whatever its type: all of them only count a parse error.

The two loops run on threads of their own.  `traderStep` interleaves them: the
hot loop processes an event in one step, and the staleness loop takes one step
to collect the actions of a pass and one for each of them, so that any number
of events may come between.

## Main results

* `pass_alone` — undisturbed, the steps of a pass are `stalenessCheck`.
* `tradeFrame_onTick`, `tradeFrame_act` — trading leaves the scalars, the surfaces and the
  kills alone.
-/

namespace Corsair.Ports.Trader

open Corsair.Verified
open Corsair.Verified.Runs
open Corsair.Ports.TraderState
open Corsair.Ports.DecideOnTick

/-- A decoded event. -/
inductive Event (F : Type)
  | undecodable
  | unknown
  | tick (msg : TickMsg F)
  | underlyingTick (price : F)
  | volSurface (msg : VolSurfaceMsg F)
  | riskState (msg : RiskStateMsg F)
  | placeAck (msg : PlaceAckMsg F)
  | orderStatus (msg : OrderAckMsg)
  | kill (msg : KillMsg)
  | resume (msg : KillMsg)
  | weekendPause (paused : Bool)
  | hello (msg : HelloMsg F)

/-- The clocks of one step. -/
structure Clock (F : Type) where
  monoNs : Nat
  wallNs : Nat
  timeToExpiry : String → Option F

/-- `chars().next()` with `to_ascii_uppercase`. -/
def firstUpper (s : String) : Option Char := s.toList.head?.map Char.toUpper

/-- The states `process_event` takes for terminal. -/
def terminalStatuses : List String :=
  ["Filled", "Cancelled", "ApiCancelled", "Inactive", "Rejected", "ApiRejected"]

variable {F : Type} [F64 F]

/-! ## The tick path -/

/-- The frames of a tick and what each load-bearing frame will track. -/
structure TickFrames (F : Type) where
  frames : List (Command F)
  places : List (OurOrderKey × OurOrder F × Option Int × Nat)
  modifies : List (OurOrderKey × F × Int × Nat)
  cancels : List (Int × Nat)
  cancelAllFired : Bool

/-- The frame of a cancel. -/
def cancelCommand (wallNs : Nat) (orderId : Int) : Command F :=
  .cancel { tsNs := wallNs, orderId := orderId }

/-- The loop over the decisions: encode each and remember its frame. -/
def TickFrames.add (tick : TickMsg F) (right : Char) (gtdSeconds : Nat) (clock : Clock F)
    (acc : TickFrames F) : Decision F → TickFrames F
  | .place side price cancelOldOid =>
      let acc : TickFrames F :=
        match cancelOldOid with
        | some oid => { acc with frames := acc.frames ++ [cancelCommand clock.wallNs oid] }
        | none => acc
      let key : OurOrderKey := (strikeKey tick.strike, tick.expiry, right, side.asChar)
      let order : OurOrder F :=
        { price := price, placeMonotonicNs := clock.monoNs, orderId := none }
      { acc with
        frames := acc.frames ++
          [.place
            { tsNs := clock.wallNs
              strike := tick.strike
              expiry := tick.expiry
              right := tick.right
              side := side.asStr
              qty := 1
              price := price
              orderRef := "corsair_trader_rust"
              gtdSeconds := gtdSeconds
              triggeringTickBrokerRecvNs := tick.brokerRecvNs }]
        places := acc.places ++ [(key, order, cancelOldOid, acc.frames.length)] }
  | .modify side orderId price =>
      let key : OurOrderKey := (strikeKey tick.strike, tick.expiry, right, side.asChar)
      { acc with
        frames := acc.frames ++
          [.modify
            { tsNs := clock.wallNs
              orderId := orderId
              price := price
              gtdSeconds := gtdSeconds
              triggeringTickBrokerRecvNs := tick.brokerRecvNs }]
        modifies := acc.modifies ++ [(key, price, orderId, acc.frames.length)] }
  | .cancelAll orderIds =>
      let cancels := orderIds.zipIdx acc.frames.length
      { frames := acc.frames ++ orderIds.map (cancelCommand clock.wallNs)
        places := []
        modifies := []
        cancels := acc.cancels ++ cancels
        cancelAllFired := true }

/-- The frames that were written, and the count of those that were not. -/
def writeFrames (s : SharedState F) (accepts : Nat → Bool) (frames : List (Command F)) :
    List (Command F) × SharedState F :=
  let answers := frames.zipIdx.map fun f => (f.1, accepts f.2)
  ((answers.filter (·.2)).map (·.1), s.bump .placeDropped (answers.countP fun a => !a.2))

/-- The tracking after the ring write: only frames that were written move the
maps. -/
def TickFrames.track (acc : TickFrames F) (accepts : Nat → Bool) (clock : Clock F)
    (s : SharedState F) : SharedState F :=
  let s :=
    if acc.cancelAllFired then
      acc.cancels.foldl (fun s c => if accepts c.2 then s.removeOrder c.1 else s) s
    else s
  let s :=
    acc.places.foldl
      (fun s p =>
        let (key, order, cancelOldOid, idx) := p
        if accepts idx then
          let s :=
            match cancelOldOid with
            | some oid => { s with orderidToKey := s.orderidToKey.erase oid }
            | none => s
          { s with ourOrders := s.ourOrders.insert key order }
        else s)
      s
  acc.modifies.foldl
    (fun s m =>
      let (key, price, _, idx) := m
      if accepts idx then
        s.modifyOrder key fun o =>
          { o with price := price, placeMonotonicNs := clock.monoNs }
      else s)
    s

/-- `gtd_lifetime_s as u32`. -/
def gtdSeconds (snap : ScalarState F) : Nat := (F64.toInt 0 (2 ^ 32 - 1) snap.gtdLifetimeS).toNat

/-- The tick with the cached side where it has none, and the cache with the
result. -/
def mergeTick (s : SharedState F) (tick : TickMsg F) (right : Char) :
    TickMsg F × SharedState F :=
  let key : OptionKey := (strikeKey tick.strike, tick.expiry, right)
  let cached := s.options.lookup key
  let merged : OptionState F :=
    { bid := tick.bid.or (cached.bind OptionState.bid)
      ask := tick.ask.or (cached.bind OptionState.ask)
      bidSize := tick.bidSize.or (cached.bind OptionState.bidSize)
      askSize := tick.askSize.or (cached.bind OptionState.askSize) }
  ( { tick with
      bid := merged.bid
      ask := merged.ask
      bidSize := merged.bidSize
      askSize := merged.askSize },
    { s with options := s.options.insert key merged })

/-- `on_tick`. -/
def onTick (pricing : Pricing F) (placesOrders : Bool) (s : SharedState F) (clock : Clock F)
    (accepts : Nat → Bool) (tick : TickMsg F) : List (Command F) × SharedState F :=
  match firstUpper tick.right with
  | none => ([], s.bump .droppedParseErrors 1)
  | some right =>
      let (tick, s) := mergeTick s tick right
      let gtd := gtdSeconds s.scalars
      let (decisions, s) :=
        decideOnTick pricing clock.timeToExpiry s tick right clock.monoNs clock.wallNs
      if decisions.isEmpty || !placesOrders then ([], s)
      else
        let acc := decisions.foldl (TickFrames.add tick right gtd clock) ⟨[], [], [], [], false⟩
        let (written, s) := writeFrames s accepts acc.frames
        (written, acc.track accepts clock s)

/-! ## The other events -/

/-- `vol_surface`. -/
def onVolSurface (s : SharedState F) (vs : VolSurfaceMsg F) : SharedState F :=
  let entry : VolSurfaceEntry F :=
    { forward := vs.forward
      params := vs.params
      fitTsNs := vs.tsNs.getD 0
      calibratedMinK := vs.calibratedMinK
      calibratedMaxK := vs.calibratedMaxK
      spotAtFit := vs.spotAtFit.getD s.scalars.underlyingPrice }
  let sideUpper := String.ofList (vs.side.toList.map Char.toUpper)
  if sideUpper = "BOTH" then
    { s with
      volSurfaces := (s.volSurfaces.insert (vs.expiry, 'C') entry).insert (vs.expiry, 'P') entry }
  else
    let sideChar := sideUpper.toList.head?.getD 'C'
    { s with volSurfaces := s.volSurfaces.insert (vs.expiry, sideChar) entry }

/-- `risk_state`. -/
def onRiskState (s : SharedState F) (clock : Clock F) (r : RiskStateMsg F) : SharedState F :=
  { s with
    scalars :=
      { s.scalars with
        riskEffectiveDelta := some r.effectiveDelta
        riskMarginPct := some r.marginPct
        riskHedgeDelta := some r.hedgeDelta
        riskTheta := some r.theta
        riskVega := some r.vega
        riskStateAgeMonotonicNs := clock.monoNs } }

/-- `place_ack`. -/
def onPlaceAck (s : SharedState F) (clock : Clock F) (p : PlaceAckMsg F) : SharedState F :=
  match firstUpper p.right with
  | none => s.bump .droppedParseErrors 1
  | some right =>
      let sideChar :=
        if p.side = "BUY" then some 'B' else if p.side = "SELL" then some 'S' else none
      match sideChar with
      | none => s
      | some side =>
          let key : OurOrderKey := (strikeKey p.strike, p.expiry, right, side)
          let order : OurOrder F :=
            match s.ourOrders.lookup key with
            | some o => { o with orderId := some p.orderId }
            | none =>
                { price := p.price
                  placeMonotonicNs := clock.monoNs
                  orderId := some p.orderId }
          { s with
            ourOrders := s.ourOrders.insert key order
            orderidToKey := s.orderidToKey.insert p.orderId key }

/-- `order_status` and `order_ack`. -/
def onOrderStatus (s : SharedState F) (a : OrderAckMsg) : SharedState F :=
  match a.orderId with
  | none => s
  | some oid => if a.status.getD "" ∈ terminalStatuses then s.removeOrder oid else s

/-- The source of a kill or a resume, if it is usable. -/
def KillMsg.usableSource (k : KillMsg) : Option String :=
  k.source.filter fun source => source ≠ ""

/-- `kill`. -/
def onKill (s : SharedState F) (k : KillMsg) : SharedState F :=
  match KillMsg.usableSource k with
  | none => s.bump .droppedParseErrors 1
  | some source => s.insertKill source (k.reason.getD "?")

/-- `resume`. -/
def onResume (s : SharedState F) (k : KillMsg) : SharedState F :=
  match KillMsg.usableSource k with
  | none => s.bump .droppedParseErrors 1
  | some source => s.removeKill source

/-- The configuration of a `hello`; the tick counts are cast to 32 bits. -/
def applyHelloConfig (sc : ScalarState F) (cfg : HelloConfig F) : ScalarState F :=
  { sc with
    minEdgeTicks := (cfg.minEdgeTicks.map fun v => v.bmod (2 ^ 32)).getD sc.minEdgeTicks
    tickSize := cfg.tickSize.getD sc.tickSize
    deltaCeiling := cfg.deltaCeiling.getD sc.deltaCeiling
    marginCeilingPct := cfg.marginCeilingPct.getD sc.marginCeilingPct
    gtdLifetimeS := cfg.gtdLifetimeS.getD sc.gtdLifetimeS
    gtdRefreshLeadS := cfg.gtdRefreshLeadS.getD sc.gtdRefreshLeadS
    deadBandTicks := (cfg.deadBandTicks.map fun v => v.bmod (2 ^ 32)).getD sc.deadBandTicks
    skipIfSpreadOverEdgeMul := cfg.skipIfSpreadOverEdgeMul.getD sc.skipIfSpreadOverEdgeMul
    thetaKill := cfg.thetaKill.getD sc.thetaKill
    vegaKill := cfg.vegaKill.getD sc.vegaKill
    contractMultiplier := cfg.contractMultiplier.getD sc.contractMultiplier }

/-- `hello`: the configuration, then the kills in force at the broker. -/
def onHello (s : SharedState F) (h : HelloMsg F) : SharedState F :=
  let s :=
    match h.config with
    | some cfg => { s with scalars := applyHelloConfig s.scalars cfg }
    | none => s
  h.activeKills.foldl (fun s source => s.insertKill source "rehydrated_from_hello") s

/-! ### What the handlers do to the kill map -/

omit [F64 F] in
theorem mem_onKill {s : SharedState F} {k : KillMsg} {key : String} :
    key ∈ (onKill s k).kills ↔ KillMsg.usableSource k = some key ∨ key ∈ s.kills := by
  unfold onKill
  split
  · rename_i hnone
    simp [SharedState.bump, hnone]
  · rename_i source hsome
    rw [SharedState.mem_insertKill, hsome, Option.some_inj, eq_comm]

omit [F64 F] in
theorem mem_onResume {s : SharedState F} {k : KillMsg} {key : String} :
    key ∈ (onResume s k).kills ↔ KillMsg.usableSource k ≠ some key ∧ key ∈ s.kills := by
  unfold onResume
  split
  · rename_i hnone
    simp [SharedState.bump, hnone]
  · rename_i source hsome
    rw [SharedState.mem_removeKill, hsome, ne_eq, ne_eq, Option.some_inj, eq_comm]

omit [F64 F] in
theorem mem_onHello {s : SharedState F} {h : HelloMsg F} {key : String} :
    key ∈ (onHello s h).kills ↔ key ∈ h.activeKills ∨ key ∈ s.kills := by
  have hfold : ∀ (sources : List String) (s : SharedState F),
      key ∈ (sources.foldl (fun s source => s.insertKill source "rehydrated_from_hello") s).kills ↔
        key ∈ sources ∨ key ∈ s.kills := by
    intro sources
    induction sources with
    | nil => simp
    | cons source rest ih =>
        intro s
        rw [List.foldl_cons, ih, SharedState.mem_insertKill, List.mem_cons]
        tauto
  unfold onHello
  split <;> exact hfold ..

omit [F64 F] in
theorem killsCounted_onKill {s : SharedState F} (hs : s.KillsCounted) (k : KillMsg) :
    (onKill s k).KillsCounted := by
  unfold onKill
  split
  · exact hs
  · exact hs.insertKill ..

omit [F64 F] in
theorem killsCounted_onResume {s : SharedState F} (hs : s.KillsCounted) (k : KillMsg) :
    (onResume s k).KillsCounted := by
  unfold onResume
  split
  · exact hs
  · exact hs.removeKill ..

omit [F64 F] in
theorem killsCounted_onHello {s : SharedState F} (hs : s.KillsCounted) (h : HelloMsg F) :
    (onHello s h).KillsCounted := by
  have hfold : ∀ (sources : List String) {s : SharedState F}, s.KillsCounted →
      (sources.foldl (fun s source =>
        s.insertKill source "rehydrated_from_hello") s).KillsCounted := by
    intro sources s hs
    exact List.foldlRecOn (motive := SharedState.KillsCounted) sources _ hs
      fun s hs source _ => hs.insertKill ..
  unfold onHello
  split
  · exact hfold _ hs
  · exact hfold _ hs

/-! ### The dispatch -/

/-- `process_event`. -/
def processEvent (pricing : Pricing F) (placesOrders : Bool) (s : SharedState F)
    (clock : Clock F) (accepts : Nat → Bool) : Event F → List (Command F) × SharedState F
  | .undecodable => ([], s.bump .droppedParseErrors 1)
  | .unknown => ([], s)
  | .tick msg => onTick pricing placesOrders s clock accepts msg
  | .underlyingTick price => ([], { s with scalars := { s.scalars with underlyingPrice := price } })
  | .volSurface msg => ([], onVolSurface s msg)
  | .riskState msg => ([], onRiskState s clock msg)
  | .placeAck msg => ([], onPlaceAck s clock msg)
  | .orderStatus msg => ([], onOrderStatus s msg)
  | .kill msg => ([], onKill s msg)
  | .resume msg => ([], onResume s msg)
  | .weekendPause paused => ([], { s with scalars := { s.scalars with weekendPaused := paused } })
  | .hello msg => ([], onHello s msg)

/-! ## The staleness loop -/

/-- `Action` of `staleness_check`. -/
inductive Action (F : Type)
  | modify (orderId : Int) (key : OurOrderKey) (newPrice : F)
  | cancel (orderId : Int) (key : OurOrderKey)
  deriving DecidableEq

/-- The theo that `staleness_check` compares an order with, where it has
one. -/
def restingTheo (pricing : Pricing F) (s : SharedState F) (clock : Clock F)
    (key : OurOrderKey) : Option F :=
  let (sk, expiry, right, _) := key
  (s.lookupVolSurface expiry right).bind fun vp =>
    ((clock.timeToExpiry expiry).filter fun t => F64.gt t F64.zero).bind fun tte =>
      (computeTheo pricing vp.forward (F64.ofInt sk / F64.lit 10000 0) tte right
        vp.params).map fun r =>
          F64.max (r.2.theo + r.2.delta * (s.scalars.underlyingPrice - vp.spotAtFit))
            (F64.lit 1 2)

/-- The order's price is on the wrong side of theo by more than the
threshold. -/
def drifted (snap : ScalarState F) (key : OurOrderKey) (order : OurOrder F) (theo : F) : Bool :=
  let drift := if key.2.2.2 = 'B' then order.price - theo else theo - order.price
  F64.gt drift (F64.ofInt stalenessTicks * snap.tickSize)

/-- The price to which a drifted order is amended; none if it would not
move. -/
def refreshPrice (snap : ScalarState F) (key : OurOrderKey) (order : OurOrder F) (theo : F) :
    Option F :=
  let minEdge := F64.ofInt snap.minEdgeTicks * snap.tickSize
  let rawNew := if key.2.2.2 = 'B' then theo - minEdge else theo + minEdge
  let newPrice := F64.round (rawNew / snap.tickSize) * snap.tickSize
  if F64.gt (F64.abs (newPrice - order.price)) (snap.tickSize * F64.lit 1 2) then some newPrice
  else none

/-- The cached market of the order is dark. -/
def marketDark (latest : OptionState F) : Bool :=
  !(latest.bid.any fun b => F64.gt b F64.zero) || !(latest.ask.any fun a => F64.gt a F64.zero) ||
    latest.bidSize.getD 0 ≤ 0 || latest.askSize.getD 0 ≤ 0

/-- The loop body over the resting orders: an unacknowledged order and one
without a theo are skipped. -/
def stalenessAction (pricing : Pricing F) (s : SharedState F) (clock : Clock F)
    (key : OurOrderKey) (order : OurOrder F) : Option (Action F) :=
  match order.orderId, restingTheo pricing s clock key with
  | some orderId, some theo =>
      if drifted s.scalars key order theo then
        (refreshPrice s.scalars key order theo).map fun p => .modify orderId key p
      else
        match s.options.lookup (key.1, key.2.1, key.2.2.1) with
        | some latest => if marketDark latest then some (.cancel orderId key) else none
        | none => none
  | _, _ => none

/-- Carry out one action; `accepted` is the answer of its `write_frame`. -/
def applyAction (clock : Clock F) (gtd : Nat) (s : SharedState F) (accepted : Bool) :
    Action F → List (Command F) × SharedState F
  | .modify orderId key newPrice =>
      if accepted then
        let frame : Command F :=
          .modify
            { tsNs := clock.wallNs
              orderId := orderId
              price := newPrice
              gtdSeconds := gtd
              triggeringTickBrokerRecvNs := none }
        let s := s.modifyOrder key fun o =>
          { o with price := newPrice, placeMonotonicNs := clock.monoNs }
        ([frame], s.bump .stalenessModify 1)
      else ([], s.bump .placeDropped 1)
  | .cancel orderId key =>
      let removed (s : SharedState F) : SharedState F :=
        { s with
          ourOrders := s.ourOrders.erase key
          orderidToKey := s.orderidToKey.erase orderId }
      if accepted then
        ([cancelCommand clock.wallNs orderId], (removed s).bump .stalenessCancelDark 1)
      else ([], (removed (s.bump .placeDropped 1)).bump .stalenessCancelDark 1)

/-- The loop over the actions. -/
def applyActions (clock : Clock F) (gtd : Nat) (accepts : Nat → Bool)
    (actions : List (Action F)) (s : SharedState F) : List (Command F) × SharedState F :=
  actions.zipIdx.foldl
    (fun out a =>
      let (frames, s) := applyAction clock gtd out.2 (accepts a.2) a.1
      (out.1 ++ frames, s))
    ([], s)

/-- `staleness_check`, its first loop. -/
def collectActions (pricing : Pricing F) (s : SharedState F) (clock : Clock F) :
    List (Action F) :=
  s.ourOrders.entries.filterMap fun e => stalenessAction pricing s clock e.1 e.2

/-- `staleness_check`. -/
def stalenessCheck (pricing : Pricing F) (s : SharedState F) (clock : Clock F)
    (accepts : Nat → Bool) : List (Command F) × SharedState F :=
  applyActions clock (gtdSeconds s.scalars) accepts (collectActions pricing s clock) s

/-! ## The two loops -/

/-- A pass that has collected its actions and has some of them left. -/
structure Pass (F : Type) where
  clock : Clock F
  gtdSeconds : Nat
  actions : List (Action F)

/-- What the loops share, and the pass that the staleness loop is inside of. -/
structure TraderSys (F : Type) where
  shared : SharedState F
  pass : Option (Pass F)

/-- A step of the trader.  The hot loop processes an event; the staleness loop
begins a pass, or takes the next step of the one it is inside of. -/
inductive TraderStep (F : Type)
  | event (ev : Event F) (clock : Clock F) (accepts : Nat → Bool)
  | collect (clock : Clock F)
  | act (accepted : Bool)

/-- The commands that a step writes, and the trader after it. -/
def traderStep (pricing : Pricing F) (placesOrders : Bool) (s : TraderSys F) :
    TraderStep F → List (Command F) × TraderSys F
  | .event ev clock accepts =>
      let (commands, shared) := processEvent pricing placesOrders s.shared clock accepts ev
      (commands, { s with shared := shared })
  | .collect clock =>
      if placesOrders && s.pass.isNone then
        let pass : Pass F :=
          { clock := clock
            gtdSeconds := gtdSeconds s.shared.scalars
            actions := collectActions pricing s.shared clock }
        ([], { s with pass := some pass })
      else ([], s)
  | .act accepted =>
      match s.pass with
      | none => ([], s)
      | some ⟨_, _, []⟩ => ([], { s with pass := none })
      | some ⟨clock, gtd, action :: rest⟩ =>
          let (commands, shared) := applyAction clock gtd s.shared accepted action
          (commands, { shared := shared, pass := some ⟨clock, gtd, rest⟩ })

/-- The trader after a step. -/
def nextState (pricing : Pricing F) (placesOrders : Bool) (s : TraderSys F)
    (st : TraderStep F) : TraderSys F :=
  (traderStep pricing placesOrders s st).2

/-- The commands that a run writes. -/
def commandsOf (pricing : Pricing F) (placesOrders : Bool) :
    TraderSys F → List (TraderStep F) → List (Command F)
  | _, [] => []
  | s, st :: rest =>
      (traderStep pricing placesOrders s st).1 ++
        commandsOf pricing placesOrders (nextState pricing placesOrders s st) rest

/-- A trader that has just started; no pass runs. -/
def traderStart (burstWindowNs : Nat) : TraderSys F :=
  { shared := SharedState.new burstWindowNs, pass := none }

/-- The steps of a pass after its first, one for each of its actions, counted
from `k`. -/
def actSteps (accepts : Nat → Bool) (actions : List (Action F)) (k : Nat) :
    List (TraderStep F) :=
  (actions.zipIdx k).map fun a => .act (accepts a.2)

/-- The loop over the actions is a run of `act` steps. -/
theorem foldl_applyAction_eq (pricing : Pricing F) (placesOrders : Bool) (clock : Clock F)
    (gtd : Nat) (accepts : Nat → Bool) (actions : List (Action F)) (k : Nat)
    (commands : List (Command F)) (s : SharedState F) :
    let sys : TraderSys F := { shared := s, pass := some ⟨clock, gtd, actions⟩ }
    let steps := actSteps accepts actions k
    (actions.zipIdx k).foldl
        (fun out a =>
          let (frames, s) := applyAction clock gtd out.2 (accepts a.2) a.1
          (out.1 ++ frames, s))
        (commands, s) =
      (commands ++ commandsOf pricing placesOrders sys steps,
        (run (nextState pricing placesOrders) sys steps).shared) := by
  induction actions generalizing k commands s with
  | nil => simp [actSteps, commandsOf]
  | cons action rest ih =>
      simp only [List.zipIdx_cons, List.foldl_cons] at ih ⊢
      rw [ih]
      simp [actSteps, commandsOf, nextState, traderStep]

/-- **A pass on its own.** Where nothing comes between its steps, a pass is
`stalenessCheck`. -/
theorem pass_alone (pricing : Pricing F) (s : SharedState F) (clock : Clock F)
    (accepts : Nat → Bool) :
    let sys : TraderSys F := { shared := s, pass := none }
    let steps := .collect clock :: actSteps accepts (collectActions pricing s clock) 0
    stalenessCheck pricing s clock accepts =
      (commandsOf pricing true sys steps, (run (nextState pricing true) sys steps).shared) :=
  foldl_applyAction_eq pricing true clock (gtdSeconds s.scalars) accepts
    (collectActions pricing s clock) 0 [] s

/-! ## What trading leaves alone -/

omit [F64 F]

/-- Only the cached markets, the tracked orders, the theo cache, the limiter and
the counters differ: no scalar, no surface and no kill. -/
def TradeFrame (s s' : SharedState F) : Prop :=
  ∃ options theoCache ourOrders orderidToKey outboundLimiter counters,
    s' =
      { s with
        options := options
        theoCache := theoCache
        ourOrders := ourOrders
        orderidToKey := orderidToKey
        outboundLimiter := outboundLimiter
        counters := counters }

theorem TradeFrame.refl (s : SharedState F) : TradeFrame s s := ⟨_, _, _, _, _, _, rfl⟩

theorem TradeFrame.trans {s s' s'' : SharedState F} (h : TradeFrame s s')
    (h' : TradeFrame s' s'') : TradeFrame s s'' := by
  obtain ⟨_, _, _, _, _, _, rfl⟩ := h
  obtain ⟨_, _, _, _, _, _, rfl⟩ := h'
  exact ⟨_, _, _, _, _, _, rfl⟩

theorem tradeFrame_of_decideFrame {s s' : SharedState F} (h : DecideFrame s s') :
    TradeFrame s s' := by
  obtain ⟨_, _, _, rfl⟩ := h
  exact ⟨_, _, _, _, _, _, rfl⟩

/-- Only the tracked orders and the counters differ. -/
def OrderFrame (s s' : SharedState F) : Prop :=
  ∃ ourOrders orderidToKey counters,
    s' =
      { s with
        ourOrders := ourOrders
        orderidToKey := orderidToKey
        counters := counters }

theorem OrderFrame.refl (s : SharedState F) : OrderFrame s s := ⟨_, _, _, rfl⟩

theorem OrderFrame.trans {s s' s'' : SharedState F} (h : OrderFrame s s')
    (h' : OrderFrame s' s'') : OrderFrame s s'' := by
  obtain ⟨_, _, _, rfl⟩ := h
  obtain ⟨_, _, _, rfl⟩ := h'
  exact ⟨_, _, _, rfl⟩

theorem tradeFrame_of_orderFrame {s s' : SharedState F} (h : OrderFrame s s') :
    TradeFrame s s' := by
  obtain ⟨_, _, _, rfl⟩ := h
  exact ⟨_, _, _, _, _, _, rfl⟩

theorem orderFrame_bump (s : SharedState F) (counter : Counter) (n : Nat) :
    OrderFrame s (s.bump counter n) := ⟨_, _, _, rfl⟩

theorem tradeFrame_bump (s : SharedState F) (counter : Counter) (n : Nat) :
    TradeFrame s (s.bump counter n) := tradeFrame_of_orderFrame (orderFrame_bump s counter n)

theorem orderFrame_removeOrder (s : SharedState F) (oid : Int) :
    OrderFrame s (s.removeOrder oid) := by
  unfold SharedState.removeOrder
  split <;> exact ⟨_, _, _, rfl⟩

theorem orderFrame_modifyOrder (s : SharedState F) (key : OurOrderKey)
    (f : OurOrder F → OurOrder F) : OrderFrame s (s.modifyOrder key f) := by
  unfold SharedState.modifyOrder
  split <;> exact ⟨_, _, _, rfl⟩

/-- A fold of steps that each keep to the frame keeps to it. -/
theorem orderFrame_foldl {β : Type} {f : SharedState F → β → SharedState F}
    (hf : ∀ s b, OrderFrame s (f s b)) (bs : List β) (s : SharedState F) :
    OrderFrame s (bs.foldl f s) := by
  induction bs generalizing s with
  | nil => exact .refl s
  | cons b bs ih => exact (hf s b).trans (ih (f s b))

theorem orderFrame_track (acc : TickFrames F) (accepts : Nat → Bool) (clock : Clock F)
    (s : SharedState F) : OrderFrame s (acc.track accepts clock s) := by
  unfold TickFrames.track
  refine OrderFrame.trans ?_ (.trans (orderFrame_foldl ?_ acc.places _)
    (orderFrame_foldl ?_ acc.modifies _))
  · split
    · refine orderFrame_foldl (fun s c => ?_) acc.cancels s
      split
      · exact orderFrame_removeOrder ..
      · exact .refl s
    · exact .refl s
  · intro s p
    simp only
    split
    · split <;> exact ⟨_, _, _, rfl⟩
    · exact .refl s
  · intro s m
    simp only
    split
    · exact orderFrame_modifyOrder ..
    · exact .refl s

theorem orderFrame_onOrderStatus (s : SharedState F) (a : OrderAckMsg) :
    OrderFrame s (onOrderStatus s a) := by
  unfold onOrderStatus
  split
  · exact .refl s
  · split
    · exact orderFrame_removeOrder ..
    · exact .refl s

theorem tradeFrame_onOrderStatus (s : SharedState F) (a : OrderAckMsg) :
    TradeFrame s (onOrderStatus s a) :=
  tradeFrame_of_orderFrame (orderFrame_onOrderStatus s a)

theorem orderFrame_applyAction (clock : Clock F) (gtd : Nat) (s : SharedState F)
    (accepted : Bool) (action : Action F) :
    OrderFrame s (applyAction clock gtd s accepted action).2 := by
  cases action with
  | modify orderId key newPrice =>
      simp only [applyAction]
      split
      · exact (orderFrame_modifyOrder ..).trans (orderFrame_bump ..)
      · exact orderFrame_bump ..
  | cancel orderId key =>
      simp only [applyAction]
      split <;> exact ⟨_, _, _, rfl⟩

theorem tradeFrame_stalenessLoop (clock : Clock F) (gtd : Nat) (accepts : Nat → Bool)
    (actions : List (Action F)) (s : SharedState F) :
    TradeFrame s (applyActions clock gtd accepts actions s).2 := by
  unfold applyActions
  refine List.foldlRecOn
    (motive := fun out : List (Command F) × SharedState F => TradeFrame s out.2)
    _ _ (.refl s) ?_
  intro out hout a _
  exact hout.trans (tradeFrame_of_orderFrame (orderFrame_applyAction ..))

variable [F64 F]

theorem tradeFrame_mergeTick (s : SharedState F) (tick : TickMsg F) (right : Char) :
    TradeFrame s (mergeTick s tick right).2 := ⟨_, _, _, _, _, _, rfl⟩

theorem tradeFrame_onTick (pricing : Pricing F) (placesOrders : Bool) (s : SharedState F)
    (clock : Clock F) (accepts : Nat → Bool) (tick : TickMsg F) :
    TradeFrame s (onTick pricing placesOrders s clock accepts tick).2 := by
  unfold onTick
  split
  · exact tradeFrame_bump ..
  · rename_i right _
    have hdecide := (tradeFrame_mergeTick s tick right).trans
      (tradeFrame_of_decideFrame (decideFrame_decideOnTick pricing clock.timeToExpiry
        (mergeTick s tick right).2 (mergeTick s tick right).1 right clock.monoNs clock.wallNs))
    simp only
    split
    · exact hdecide
    · exact hdecide.trans (tradeFrame_of_orderFrame
        ((orderFrame_bump ..).trans (orderFrame_track ..)))

theorem orderFrame_onPlaceAck (s : SharedState F) (clock : Clock F) (p : PlaceAckMsg F) :
    OrderFrame s (onPlaceAck s clock p) := by
  unfold onPlaceAck
  split
  · exact orderFrame_bump ..
  · simp only
    split
    · exact .refl s
    · exact ⟨_, _, _, rfl⟩

theorem tradeFrame_onPlaceAck (s : SharedState F) (clock : Clock F) (p : PlaceAckMsg F) :
    TradeFrame s (onPlaceAck s clock p) :=
  tradeFrame_of_orderFrame (orderFrame_onPlaceAck s clock p)

theorem orderFrame_collect (pricing : Pricing F) (placesOrders : Bool) (s : TraderSys F)
    (clock : Clock F) :
    OrderFrame s.shared (nextState pricing placesOrders s (.collect clock)).shared := by
  simp only [nextState, traderStep]
  split <;> exact .refl _

theorem tradeFrame_collect (pricing : Pricing F) (placesOrders : Bool) (s : TraderSys F)
    (clock : Clock F) :
    TradeFrame s.shared (nextState pricing placesOrders s (.collect clock)).shared :=
  tradeFrame_of_orderFrame (orderFrame_collect pricing placesOrders s clock)

theorem orderFrame_act (pricing : Pricing F) (placesOrders : Bool) (s : TraderSys F)
    (accepted : Bool) :
    OrderFrame s.shared (nextState pricing placesOrders s (.act accepted)).shared := by
  simp only [nextState, traderStep]
  split
  · exact .refl _
  · exact .refl _
  · exact orderFrame_applyAction ..

theorem tradeFrame_act (pricing : Pricing F) (placesOrders : Bool) (s : TraderSys F)
    (accepted : Bool) :
    TradeFrame s.shared (nextState pricing placesOrders s (.act accepted)).shared :=
  tradeFrame_of_orderFrame (orderFrame_act pricing placesOrders s accepted)

end Corsair.Ports.Trader
