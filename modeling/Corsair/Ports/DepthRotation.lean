import Corsair.Ports.TickFastPath
import Corsair.Ports.TickRouting
import Corsair.Verified.Runs

/-!
# `corsair_broker::subscriptions`: depth subscriptions in rotation

The rotator holds a handful of depth subscriptions and moves them over the legs.  The
adapter routes the updates of a request to its instrument and into a channel, and the pump
applies them to the book of the leg.  The book stays with the leg when its subscription
ends, and every tick of the leg shows the two best levels of each side.

A turn of the rotator is the cancels of what it no longer wants and then the additions
(`cadence`); frames, the pump and ticks may come in between.  Which legs it wants depends on
the market data and on the order of a hash map, and every choice is allowed here.  A handle
is the request id that it stands for, and request ids are counted without wrapping around.
Each update in the channel has its request beside it, and `applied` keeps what the pump has
taken; the code has neither.

## Main results

* `mem_applyDepth` — where a level of a book comes from.
* `depth_levels_live` — a tick shows depth for subscribed legs only, and every level comes
  from an update of a subscription that is active.
-/

namespace Corsair.Ports.DepthRotation

open Corsair.Verified
open Corsair.Verified.Runs
open Corsair.Ports.Portfolio (Date)
open Corsair.Ports.PositionBook (PositionKey)
open Corsair.Ports.NativeDecoder
open Corsair.Ports.QuoteBook
open Corsair.Ports.TickRouting
open Corsair.Ports.TickFastPath

variable {F : Type} [F64 F]

/-! ## The state -/

/-- The market data, the adapter's routes, the rotator's subscriptions by instrument id, the
next request id, the depth channel, and what the pump has applied. -/
structure DepthState (F : Type) [F64 F] where
  md : MarketData F
  routes : TickRoutes
  active : AList (fun _ : Nat => Int)
  nextReqId : Int
  channel : List (Int × DepthUpdate F)
  applied : List (Int × DepthUpdate F)

/-- The rotator has not run yet. -/
def DepthState.start (md : MarketData F) : DepthState F where
  md
  routes := .empty
  active := ∅
  nextReqId := 1
  channel := []
  applied := []

inductive DepthStep (F : Type)
  | cancel (iid : Nat)
  | add (iid : Nat) (sent : Bool)
  | inbound (frame : Frame) (recvNs : Nat)
  | pump
  | lag (n : Nat)
  | tick (t : Tick F)

omit [F64 F] in
/-- The request that a message answers. -/
def requestOf : MarketMsg F → Int
  | .tickPrice reqId _ _ | .tickSize reqId _ _ | .marketDepth reqId _ _ _ _ _ => reqId

/-- What a frame puts into the depth channel. -/
def heard (fmt : TextFormats F Date) (routes : TickRoutes) (frame : Frame) (recvNs : Nat) :
    List (Int × DepthUpdate F) :=
  match parseMarket fmt frame with
  | .ok (some msg) => ((routeDepth routes msg recvNs).map fun u => (requestOf msg, u)).toList
  | _ => []

/-- The rotator cancels a subscription that it holds.  The cancel may fail on the wire; what
the process knows of the subscription is gone by then. -/
def DepthState.cancel (s : DepthState F) (iid : Nat) : DepthState F :=
  match s.active.lookup iid with
  | some reqId =>
      { s with active := s.active.erase iid, routes := s.routes.unsubscribeDepth reqId }
  | none => s

/-- The rotator adds a subscription that it does not hold; a request that is not sent is
taken back. -/
def DepthState.add (s : DepthState F) (iid : Nat) (sent : Bool) : DepthState F :=
  if (s.active.lookup iid).isSome then s
  else
    let subscribed := s.routes.subscribeDepth s.nextReqId iid
    { s with
      nextReqId := s.nextReqId + 1
      active := if sent then s.active.insert iid s.nextReqId else s.active
      routes := if sent then subscribed else subscribed.unsubscribeDepth s.nextReqId }

/-- `pump_depth`, on the next update. -/
def DepthState.pump (s : DepthState F) : DepthState F :=
  match s.channel with
  | [] => s
  | (reqId, u) :: rest =>
      { s with
        md := s.md.applyDepth u.instrumentId u.isBid u.position u.operation u.price u.size
          u.timestampNs
        channel := rest
        applied := s.applied ++ [(reqId, u)] }

/-- One step. -/
def depthStep (fmt : TextFormats F Date) (s : DepthState F) : DepthStep F → DepthState F
  | .cancel iid => s.cancel iid
  | .add iid sent => s.add iid sent
  | .inbound frame recvNs =>
      { s with channel := s.channel ++ heard fmt s.routes frame recvNs }
  | .pump => s.pump
  | .lag n => { s with channel := s.channel.drop n }
  | .tick t => { s with md := pumpTick s.md t }

/-- The steps of a turn of `run_depth_rotator` towards its target. -/
def cadence (active : AList (fun _ : Nat => Int)) (target : List Nat) (sent : Nat → Bool) :
    List (DepthStep F) :=
  (active.keys.filter (· ∉ target)).map .cancel ++ target.map fun iid => .add iid (sent iid)

/-! ## What is asked of it -/

/-- The leg has an active subscription. -/
def Subscribed (s : DepthState F) (k : PositionKey) : Prop :=
  ∃ iid reqId, s.active.lookup iid = some reqId ∧ s.md.keyOf iid = some k

/-- The levels of a side. -/
def levelsOf (isBid : Bool) (book : DepthBook F) : List (DepthLevel F) :=
  if isBid then book.bids else book.asks

/-- The level is that of an update which a subscription of the leg brought, and the
subscription is active. -/
def FromActive (s : DepthState F) (k : PositionKey) (isBid : Bool) (level : DepthLevel F) : Prop :=
  ∃ iid reqId u, s.active.lookup iid = some reqId ∧ s.md.keyOf iid = some k ∧
    (reqId, u) ∈ s.applied ∧ u.isBid = isBid ∧ level = ⟨u.price, u.size⟩

omit [F64 F] in
/-- The event shows a level. -/
def ShowsDepth (ev : TickEvent F) : Prop :=
  ev.depthBid0.isSome ∨ ev.depthBid1.isSome ∨ ev.depthAsk0.isSome ∨ ev.depthAsk1.isSome

/-- A tick that comes now shows depth for a subscribed leg only, on either path to the
trader, and every level of a book comes from an active subscription. -/
structure Live (fmt : TextFormats F Date) (s : DepthState F) : Prop where
  shown : ∀ cache t ev,
    (tickFastPath fmt cache s.md t).2 = some (.tick ev) ∨
      (forwardTick fmt cache s.md t).2 = some (.tick ev) →
    ShowsDepth ev → ∃ k, s.md.keyOf t.instrumentId = some k ∧ Subscribed s k
  levels : ∀ k isBid, ∀ level ∈ levelsOf isBid (s.md.quoteOf k).depth, FromActive s k isBid level

/-- A subscription ends with an empty book and with none of its updates in the channel. -/
def Drained (s : DepthState F) : DepthStep F → Prop
  | .cancel iid =>
      ∀ reqId, s.active.lookup iid = some reqId →
        (∀ k, s.md.keyOf iid = some k → (s.md.quoteOf k).depth = ⟨[], []⟩) ∧
          ∀ e ∈ s.channel, e.1 ≠ reqId
  | _ => True

/-! ## Books -/

/-- A level of a leg's book after an update is the update's, or it was there before. -/
theorem mem_applyDepth {md : MarketData F} {u : DepthUpdate F} {k : PositionKey} {isBid : Bool}
    {level : DepthLevel F}
    (h : level ∈ levelsOf isBid ((md.applyDepth u.instrumentId u.isBid u.position u.operation
      u.price u.size u.timestampNs).quoteOf k).depth) :
    (md.keyOf u.instrumentId = some k ∧ u.isBid = isBid ∧ level = ⟨u.price, u.size⟩) ∨
      level ∈ levelsOf isBid (md.quoteOf k).depth := by
  unfold MarketData.applyDepth at h
  rw [MarketData.quoteOf_updateLeg md _ _ (fun _ => rfl)] at h
  split at h
  · rename_i hkey
    simp only [DepthBook.apply] at h
    cases hside : u.isBid with
    | true =>
        rw [hside, if_pos rfl] at h
        cases isBid with
        | true =>
            rcases mem_applyLevels h with hnew | hold
            · exact .inl ⟨hkey, rfl, hnew⟩
            · exact .inr hold
        | false => exact .inr h
    | false =>
        rw [hside, if_neg (by simp)] at h
        cases isBid with
        | true => exact .inr h
        | false =>
            rcases mem_applyLevels h with hnew | hold
            · exact .inl ⟨hkey, rfl, hnew⟩
            · exact .inr hold
  · exact .inr h

theorem keyOf_applyDepth (md : MarketData F) (u : DepthUpdate F) (iid : Nat) :
    (md.applyDepth u.instrumentId u.isBid u.position u.operation u.price u.size
      u.timestampNs).keyOf iid = md.keyOf iid := by
  unfold MarketData.keyOf MarketData.applyDepth
  rw [MarketData.legs_updateLeg md _ _ rfl]

/-- A tick leaves the books. -/
theorem depth_pumpTick (md : MarketData F) (t : Tick F) (k : PositionKey) :
    ((pumpTick md t).quoteOf k).depth = (md.quoteOf k).depth := by
  rw [quoteOf_pumpTick]
  split
  · unfold tickQuote
    split <;> rfl
  · rfl

theorem underlyingEvent_ne_tick {t : Tick F} {ev : TickEvent F} :
    underlyingEvent t ≠ some (.tick ev) := by
  intro h
  unfold underlyingEvent at h
  split at h
  all_goals first
    | cases h
    | exact absurd (Option.map_eq_some_iff.mp h) (by simp)

/-- Without a leg no tick event is published. -/
theorem forwardTick_of_no_leg {fmt : TextFormats F Date} {cache : TickCache F}
    {md : MarketData F} {t : Tick F} (h : legOf md t = none) (ev : TickEvent F) :
    (forwardTick fmt cache md t).2 ≠ some (.tick ev) := by
  have hmeta := optionMeta_eq md t.instrumentId
  unfold legOf at h
  unfold forwardTick
  split
  · exact underlyingEvent_ne_tick
  · rename_i hunder
    split
    · exact nofun
    · rename_i hkind
      rw [if_pos ⟨by simpa using hkind, by simpa using hunder⟩] at h
      rw [h, Option.map_none, Option.map_eq_none_iff] at hmeta
      rw [hmeta]
      exact nofun

/-- An event shows the book of its leg. -/
theorem event_depth {fmt : TextFormats F Date} {cache : TickCache F} {md : MarketData F}
    {t : Tick F} {ev : TickEvent F}
    (h : (tickFastPath fmt cache md t).2 = some (.tick ev) ∨
      (forwardTick fmt cache md t).2 = some (.tick ev)) :
    ∃ k entry, md.keyOf t.instrumentId = some k ∧
      ev = tickEvent entry (md.quoteOf k).depth t := by
  cases hleg : legOf md t with
  | none =>
      rw [(tickFastPath_of_legOf_none hleg).1, or_self] at h
      exact absurd h (forwardTick_of_no_leg hleg ev)
  | some leg =>
      obtain ⟨opt, q⟩ := leg
      have hbook : ∃ k, md.keyOf t.instrumentId = some k ∧ q = md.quoteOf k := by
        unfold legOf at hleg
        split at hleg
        · obtain ⟨k, hkey, hleg⟩ := Option.bind_eq_some_iff.mp hleg
          obtain ⟨opt', -, hleg⟩ := Option.bind_eq_some_iff.mp hleg
          exact ⟨k, hkey, (Prod.mk.inj (Option.some.inj hleg)).2.symm⟩
        · cases hleg
      obtain ⟨k, hkey, rfl⟩ := hbook
      rw [tickFastPath_of_legOf hleg, forwardTick_of_legOf hleg] at h
      rcases h with h | h
      · exact ⟨k, _, hkey, (Published.tick.inj (Option.some.inj h)).symm⟩
      · exact ⟨k, _, hkey, (Published.tick.inj (Option.some.inj h)).symm⟩

omit [F64 F] in
theorem exists_level_of_showsDepth {entry : ConsolidatedTick F} {book : DepthBook F} {t : Tick F}
    (h : ShowsDepth (tickEvent entry book t)) : ∃ isBid level, level ∈ levelsOf isBid book := by
  have hlevel (side : List (DepthLevel F)) (i : Nat) (hsome : (side[i]?.map (·.price)).isSome) :
      ∃ level, level ∈ side := by
    obtain ⟨level, hget⟩ := Option.isSome_iff_exists.mp (Option.isSome_map ▸ hsome)
    exact ⟨level, List.mem_of_getElem? hget⟩
  rcases h with h | h | h | h
  · exact ⟨true, hlevel book.bids 0 h⟩
  · exact ⟨true, hlevel book.bids 1 h⟩
  · exact ⟨false, hlevel book.asks 0 h⟩
  · exact ⟨false, hlevel book.asks 1 h⟩

/-- Where every level comes from an active subscription, so does what a tick shows. -/
theorem live_of_levels {fmt : TextFormats F Date} {s : DepthState F}
    (h : ∀ k isBid, ∀ level ∈ levelsOf isBid (s.md.quoteOf k).depth, FromActive s k isBid level) :
    Live fmt s where
  levels := h
  shown cache t ev hev hshows := by
    obtain ⟨k, entry, hkey, rfl⟩ := event_depth hev
    obtain ⟨isBid, level, hlevel⟩ := exists_level_of_showsDepth hshows
    obtain ⟨iid, reqId, -, hactive, hleg, -⟩ := h k isBid level hlevel
    exact ⟨k, hkey, iid, reqId, hactive, hleg⟩

/-! ## What holds all along -/

/-- The routes are those of the active subscriptions, whose requests are different ones;
updates in the channel are for active subscriptions; and the levels come from them. -/
structure Inv (s : DepthState F) : Prop where
  routes : ∀ iid reqId, s.routes.depthRoutes.lookup reqId = some iid ↔
    s.active.lookup iid = some reqId
  older : ∀ iid reqId, s.active.lookup iid = some reqId → reqId < s.nextReqId
  channel : ∀ e ∈ s.channel, s.active.lookup e.2.instrumentId = some e.1
  levels : ∀ k isBid, ∀ level ∈ levelsOf isBid (s.md.quoteOf k).depth, FromActive s k isBid level

theorem inv_start {md : MarketData F} (hempty : ∀ k, (md.quoteOf k).depth = ⟨[], []⟩) :
    Inv (.start md) where
  routes _ _ := ⟨nofun, nofun⟩
  older _ _ := nofun
  channel _ := nofun
  levels k isBid level hlevel := by
    have hbook : levelsOf isBid (md.quoteOf k).depth = [] := by
      rw [hempty k]
      cases isBid <;> rfl
    rw [show (DepthState.start md).md = md from rfl, hbook] at hlevel
    cases hlevel

/-- Two subscriptions do not share a request. -/
theorem Inv.active_inj {s : DepthState F} (h : Inv s) {iid iid' : Nat} {reqId : Int}
    (hleft : s.active.lookup iid = some reqId) (hright : s.active.lookup iid' = some reqId) :
    iid = iid' := by
  have hsame := ((h.routes iid reqId).mpr hleft).symm.trans ((h.routes iid' reqId).mpr hright)
  exact Option.some.inj hsame

/-- **A cancel** of a drained subscription. -/
theorem Inv.cancel {s : DepthState F} (h : Inv s) {iid : Nat} (hdrained : Drained s (.cancel iid)) :
    Inv (s.cancel iid) := by
  unfold DepthState.cancel
  cases hown : s.active.lookup iid with
  | none => exact h
  | some own =>
      obtain ⟨hbook, hflight⟩ := hdrained own hown
      show Inv { s with active := s.active.erase iid, routes := s.routes.unsubscribeDepth own }
      have hkept {iid' : Nat} (hne : iid' ≠ iid) :
          (s.active.erase iid).lookup iid' = s.active.lookup iid' := AList.lookup_erase_ne hne
      exact {
        routes := fun iid' reqId => by
          show (s.routes.depthRoutes.erase own).lookup reqId = some iid' ↔
            (s.active.erase iid).lookup iid' = some reqId
          by_cases hiid : iid' = iid
          · rw [hiid, AList.lookup_erase]
            by_cases hreq : reqId = own
            · rw [hreq, AList.lookup_erase]
              exact ⟨nofun, nofun⟩
            · rw [AList.lookup_erase_ne hreq, h.routes, hown]
              exact ⟨fun hsame => absurd (Option.some.inj hsame).symm hreq, nofun⟩
          · rw [hkept hiid]
            by_cases hreq : reqId = own
            · rw [hreq, AList.lookup_erase]
              exact ⟨nofun, fun hactive => absurd (h.active_inj hactive hown) hiid⟩
            · rw [AList.lookup_erase_ne hreq]
              exact h.routes iid' reqId
        older := fun iid' reqId hactive => by
          by_cases hiid : iid' = iid
          · rw [hiid] at hactive
            exact absurd hactive (by simp)
          · exact h.older iid' reqId (hkept hiid ▸ hactive)
        channel := fun e he => by
          have hactive := h.channel e he
          have hne : e.2.instrumentId ≠ iid := by
            intro hsame
            rw [hsame, hown] at hactive
            exact hflight e he (Option.some.inj hactive).symm
          exact (hkept hne).trans hactive
        levels := fun k isBid level hlevel => by
          obtain ⟨iid', reqId, u, hactive, hkey, hu⟩ := h.levels k isBid level hlevel
          have hne : iid' ≠ iid := by
            intro hsame
            have hlevel' : level ∈ levelsOf isBid (s.md.quoteOf k).depth := hlevel
            rw [hbook k (hsame ▸ hkey)] at hlevel'
            cases isBid <;> cases hlevel'
          exact ⟨iid', reqId, u, (hkept hne).trans hactive, hkey, hu⟩ }

/-- **An addition.** -/
theorem Inv.add {s : DepthState F} (h : Inv s) (iid : Nat) (sent : Bool) : Inv (s.add iid sent) := by
  unfold DepthState.add
  split
  · exact h
  · rename_i hnone
    have hnew : s.active.lookup iid = none := by simpa using hnone
    have hfree (iid' : Nat) : s.active.lookup iid' ≠ some s.nextReqId := fun hactive =>
      absurd (h.older iid' _ hactive) (lt_irrefl _)
    cases sent with
    | false =>
        show Inv { s with
          nextReqId := s.nextReqId + 1
          routes := (s.routes.subscribeDepth s.nextReqId iid).unsubscribeDepth s.nextReqId }
        refine { h with routes := fun iid' reqId => ?_, older := fun iid' reqId hactive => ?_ }
        · show ((s.routes.depthRoutes.insert s.nextReqId iid).erase s.nextReqId).lookup reqId =
            some iid' ↔ s.active.lookup iid' = some reqId
          by_cases hreq : reqId = s.nextReqId
          · rw [hreq, AList.lookup_erase]
            exact ⟨nofun, fun hactive => absurd hactive (hfree iid')⟩
          · rw [AList.lookup_erase_ne hreq, AList.lookup_insert_ne hreq]
            exact h.routes iid' reqId
        · have hlt := h.older iid' reqId hactive
          show reqId < s.nextReqId + 1
          omega
    | true =>
        show Inv { s with
          nextReqId := s.nextReqId + 1
          active := s.active.insert iid s.nextReqId
          routes := s.routes.subscribeDepth s.nextReqId iid }
        have hkept {iid' : Nat} {reqId : Int} (hactive : s.active.lookup iid' = some reqId) :
            (s.active.insert iid s.nextReqId).lookup iid' = some reqId := by
          have hne : iid' ≠ iid := by
            rintro rfl
            rw [hnew] at hactive
            cases hactive
          rw [AList.lookup_insert_ne hne]
          exact hactive
        exact {
          routes := fun iid' reqId => by
            show (s.routes.depthRoutes.insert s.nextReqId iid).lookup reqId = some iid' ↔
              (s.active.insert iid s.nextReqId).lookup iid' = some reqId
            by_cases hiid : iid' = iid
            · rw [hiid, AList.lookup_insert]
              by_cases hreq : reqId = s.nextReqId
              · rw [hreq, AList.lookup_insert]
                exact iff_of_true rfl rfl
              · rw [AList.lookup_insert_ne hreq, h.routes, hnew]
                exact ⟨nofun, fun hsame => absurd (Option.some.inj hsame).symm hreq⟩
            · rw [AList.lookup_insert_ne hiid]
              by_cases hreq : reqId = s.nextReqId
              · rw [hreq, AList.lookup_insert]
                exact ⟨fun hsame => absurd (Option.some.inj hsame).symm hiid,
                  fun hactive => absurd hactive (hfree iid')⟩
              · rw [AList.lookup_insert_ne hreq]
                exact h.routes iid' reqId
          older := fun iid' reqId hactive => by
            show reqId < s.nextReqId + 1
            by_cases hiid : iid' = iid
            · rw [hiid, AList.lookup_insert] at hactive
              have hsame := Option.some.inj hactive
              omega
            · rw [AList.lookup_insert_ne hiid] at hactive
              have hlt := h.older iid' reqId hactive
              omega
          channel := fun e he => hkept (h.channel e he)
          levels := fun k isBid level hlevel => by
            obtain ⟨iid', reqId, u, hactive, hu⟩ := h.levels k isBid level hlevel
            exact ⟨iid', reqId, u, hkept hactive, hu⟩ }

/-- A routed update is for the instrument that its request subscribed. -/
theorem routeDepth_spec {routes : TickRoutes} {msg : MarketMsg F} {recvNs : Nat}
    {u : DepthUpdate F} (h : routeDepth routes msg recvNs = some u) :
    routes.depthRoutes.lookup (requestOf msg) = some u.instrumentId := by
  cases msg with
  | marketDepth reqId position operation side price size =>
      obtain ⟨iid, hlookup, h⟩ := Option.bind_eq_some_iff.mp h
      obtain rfl := Option.some.inj h
      exact hlookup
  | tickPrice => cases h
  | tickSize => cases h

theorem mem_heard {fmt : TextFormats F Date} {routes : TickRoutes} {frame : Frame} {recvNs : Nat}
    {e : Int × DepthUpdate F} (h : e ∈ heard fmt routes frame recvNs) :
    routes.depthRoutes.lookup e.1 = some e.2.instrumentId := by
  unfold heard at h
  split at h
  · obtain ⟨u, hu, rfl⟩ := Option.map_eq_some_iff.mp (Option.mem_toList.mp h)
    exact routeDepth_spec hu
  · cases h

/-- **The pump** takes an update of an active subscription. -/
theorem Inv.pump {s : DepthState F} (h : Inv s) : Inv s.pump := by
  unfold DepthState.pump
  split
  · exact h
  · rename_i reqId u rest hchannel
    have hactive : s.active.lookup u.instrumentId = some reqId :=
      h.channel (reqId, u) (by rw [hchannel]; exact List.mem_cons_self)
    have hkey (iid : Nat) := keyOf_applyDepth s.md u iid
    exact {
      routes := h.routes
      older := h.older
      channel := fun e he => h.channel e (by rw [hchannel]; exact List.mem_cons_of_mem _ he)
      levels := fun k isBid level hlevel => by
        rcases mem_applyDepth hlevel with ⟨hleg, hside, hnew⟩ | hold
        · exact ⟨u.instrumentId, reqId, u, hactive, (hkey _).trans hleg, by simp, hside, hnew⟩
        · obtain ⟨iid, reqId', u', hactive', hleg, hmem, hu⟩ := h.levels k isBid level hold
          exact ⟨iid, reqId', u', hactive', (hkey iid).trans hleg, List.mem_append_left _ hmem,
            hu⟩ }

theorem Inv.step {fmt : TextFormats F Date} {s : DepthState F} (h : Inv s) {a : DepthStep F}
    (hdrained : Drained s a) : Inv (depthStep fmt s a) := by
  cases a with
  | cancel iid => exact h.cancel hdrained
  | add iid sent => exact h.add iid sent
  | inbound frame recvNs =>
      refine { h with channel := fun e he => ?_ }
      rcases List.mem_append.mp he with hold | hnew
      · exact h.channel e hold
      · exact (h.routes _ _).mp (mem_heard hnew)
  | pump => exact h.pump
  | lag n => exact { h with channel := fun e he => h.channel e (List.mem_of_mem_drop he) }
  | tick t =>
      refine { h with levels := fun k isBid level hlevel => ?_ }
      have hlevel' : level ∈ levelsOf isBid ((pumpTick s.md t).quoteOf k).depth := hlevel
      rw [depth_pumpTick] at hlevel'
      obtain ⟨iid, reqId, u, hactive, hleg, hu⟩ := h.levels k isBid level hlevel'
      exact ⟨iid, reqId, u, hactive, (keyOf_pumpTick s.md t iid).trans hleg, hu⟩

/-- **Every run of cadences, updates and ticks.** If subscriptions end drained, a tick shows
depth for subscribed legs only, and every level comes from an active subscription. -/
theorem depth_levels_live (fmt : TextFormats F Date) (md : MarketData F)
    (hempty : ∀ k, (md.quoteOf k).depth = ⟨[], []⟩) (schedule : List (DepthStep F))
    (hdrained : Meets (depthStep fmt) Drained (.start md) schedule) :
    Live fmt (run (depthStep fmt) (.start md) schedule) := by
  have hinv : Inv (run (depthStep fmt) (.start md) schedule) :=
    run_invariant_of_meets Inv (fun _ _ hcond h => h.step hcond) (inv_start hempty) schedule
      hdrained
  exact live_of_levels hinv.levels

/-! ## Runs -/

/-- Six calls. -/
def sixCalls : MarketData ℚ :=
  [100, 101, 102, 103, 104, 105].foldl
    (fun md iid => md.registerOption { InstrumentRouting.callUnder iid with strike := iid / 20 })
    .new

theorem sixCalls_empty (k : PositionKey) : (sixCalls.quoteOf k).depth = ⟨[], []⟩ := rfl

/-- The first five calls are subscribed, and a bid level comes for the fifth. -/
def firstTurn : List (DepthStep ℚ) :=
  cadence ∅ [100, 101, 102, 103, 104] (fun _ => true) ++
    [.inbound ["12", "5", "0", "0", "1", "2", "3"] 1, .pump]

/-- The next turn takes the sixth call in place of the fifth. -/
def secondTurn : List (DepthStep ℚ) :=
  cadence (run (depthStep RestingSweep.plainFormats) (.start sixCalls) firstTurn).active
    [100, 101, 105, 102, 103] (fun _ => true)

/-- The state after both turns. -/
def rotated : DepthState ℚ :=
  run (depthStep RestingSweep.plainFormats) (.start sixCalls) (firstTurn ++ secondTurn)

/-- What a tick of the fifth call then shows. -/
def staleEvent : TickEvent ℚ where
  strike := 26 / 5
  expiry := "20260626"
  right := "C"
  bid := none
  ask := none
  bidSize := some 1
  askSize := none
  tsNs := 9
  brokerRecvNs := 9
  depthBid0 := some 2
  depthBid1 := none
  depthAsk0 := none
  depthAsk1 := none

/-- The fifth call shows the level that it was left with. -/
theorem stale_level_shown :
    ¬∀ schedule, Live RestingSweep.plainFormats
      (run (depthStep RestingSweep.plainFormats) (.start sixCalls) schedule) := by
  intro hall
  have hlive : Live RestingSweep.plainFormats rotated := hall (firstTurn ++ secondTurn)
  have hshown : (forwardTick RestingSweep.plainFormats ∅ rotated.md
      ⟨104, .bidSize, none, some 1, 9⟩).2 = some (.tick staleEvent) := by decide +kernel
  obtain ⟨k, hkey, iid, reqId, hactive, hleg⟩ :=
    hlive.shown ∅ ⟨104, .bidSize, none, some 1, 9⟩ staleEvent (.inr hshown) (.inl rfl)
  have hothers : ∀ iid ∈ rotated.active.keys, rotated.md.keyOf iid ≠ rotated.md.keyOf 104 := by
    decide +kernel
  have hmem : iid ∈ rotated.active.keys :=
    AList.mem_keys.mp (AList.lookup_isSome.mp (by rw [hactive]; rfl))
  exact hothers iid hmem (hleg.trans hkey.symm)

/-- A level comes and goes, and the subscription is taken anew. -/
def drainedTurns : List (DepthStep ℚ) :=
  [.add 104 true, .inbound ["12", "1", "0", "0", "1", "2", "3"] 1, .pump,
   .inbound ["12", "1", "0", "2", "1", "2", "3"] 2, .pump, .cancel 104, .add 104 true]

theorem depth_live_after_drain :
    Live RestingSweep.plainFormats
      (run (depthStep RestingSweep.plainFormats) (.start sixCalls) drainedTurns) := by
  refine depth_levels_live RestingSweep.plainFormats sixCalls sixCalls_empty drainedTurns
    ⟨trivial, trivial, trivial, trivial, trivial, fun reqId _ => ⟨fun k hkey => ?_, ?_⟩, trivial,
      trivial⟩
  · have hbook : ((run (depthStep RestingSweep.plainFormats) (.start sixCalls)
        (drainedTurns.take 5)).md.keyOf 104).map (fun k =>
          ((run (depthStep RestingSweep.plainFormats) (.start sixCalls)
            (drainedTurns.take 5)).md.quoteOf k).depth) = some ⟨[], []⟩ := by decide +kernel
    obtain ⟨k', hkey', hdepth⟩ := Option.map_eq_some_iff.mp hbook
    obtain rfl : k' = k := Option.some.inj (hkey'.symm.trans hkey)
    exact hdepth
  · have hchannel : (run (depthStep RestingSweep.plainFormats) (.start sixCalls)
        (drainedTurns.take 5)).channel = [] := by decide +kernel
    intro e he
    have he' : e ∈ (run (depthStep RestingSweep.plainFormats) (.start sixCalls)
        (drainedTurns.take 5)).channel := he
    rw [hchannel] at he'
    cases he'

end Corsair.Ports.DepthRotation
