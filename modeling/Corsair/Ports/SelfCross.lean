import Mathlib.Algebra.Order.Group.MinMax
import Mathlib.Tactic.Linarith
import Corsair.Ports.FailSafeGates

/-!
# The two sides of an option

The trader holds one order at most on each side of an option and prices the two on
their own: each side has its own dead band, cooldown, burst slot and frame, and the
check against crossing the market leaves our own orders out.  Nothing compares the
two prices.

What keeps them apart is the pricing: a tick prices a side the edge away from the
theo and from the mid of its book, whichever is farther.  Two sides priced by one
tick cannot cross, and a side priced alone cannot cross an order that the theo or the
mid of the tick's book has not passed, as where that order is in the book.

Prices are computed exactly here (`ℚ`).

## Main results

* `PricedBy.of_step` — where the price of an order comes from.
* `quoteTarget_beyond` — a tick's price and the fair value of its side.
* `amend_moves_away` — as it is collected, an amend of a pass moves its order away
  from the other side.
* `noSelfCross_stalenessCheck` — so a pass on its own keeps the sides apart.
* `resting_sides_cross` — four runs into a self-cross.
* `sides_stay_apart` — the condition under which a run keeps the sides apart.
-/

namespace Corsair.Ports.SelfCross

open Corsair.Verified
open Corsair.Verified.Runs
open Corsair.Verified.Filing
open Corsair.Ports.TraderState
open Corsair.Ports.DecideOnTick
open Corsair.Ports.Trader
open Corsair.Ports.TraderHalt
open Corsair.Ports.OrderTracking
open Corsair.Ports.FailSafeGates

variable {F : Type} [F64 F]

/-! ## Where a price comes from -/

/-- What a tick prices its sides with, where it comes that far. -/
def contextAt (pricing : Pricing F) (timeToExpiry : String → Option F) (s : SharedState F)
    (tick : TickMsg F) (right : Char) (nowMono : Nat) : Option (QuoteContext F) :=
  (s.lookupVolSurface tick.expiry right).bind fun vp =>
    ((timeToExpiry tick.expiry).filter fun t => F64.gt t F64.zero).bind fun tte =>
      let key : TheoCacheKey := (strikeKey tick.strike, tick.expiry, right, vp.fitTsNs)
      (theoAtFit pricing s vp key tick.strike tte right).1.map fun gx =>
        quoteContext s vp (computeRiskGates s.scalars nowMono).1 gx tick right nowMono

def tickContext (pricing : Pricing F) (s : SharedState F) (clock : Clock F)
    (tick : TickMsg F) : Option (QuoteContext F) :=
  (firstUpper tick.right).bind fun right =>
    let (tick, s) := mergeTick s tick right
    contextAt pricing clock.timeToExpiry s tick right clock.monoNs

/-- The key of our order on a side of the option that is priced. -/
def sideKey (c : QuoteContext F) (side : Side) : OurOrderKey :=
  (c.strikeKey, c.expiry, c.right, side.asChar)

theorem contextAt_spec {pricing : Pricing F} {timeToExpiry : String → Option F}
    {s : SharedState F} {tick : TickMsg F} {right : Char} {nowMono : Nat} {c : QuoteContext F}
    (h : contextAt pricing timeToExpiry s tick right nowMono = some c) :
    c.snap = s.scalars ∧ c.now = nowMono ∧ ∀ side, sideKey c side = quoteKey tick right side := by
  obtain ⟨vp, -, h⟩ := Option.bind_eq_some_iff.mp h
  obtain ⟨tte, -, h⟩ := Option.bind_eq_some_iff.mp h
  obtain ⟨gx, -, rfl⟩ := Option.map_eq_some_iff.mp h
  exact ⟨rfl, rfl, fun _ => rfl⟩

/-- The price that a decision sets, and the side. -/
def Decision.sets : Decision F → Option (Side × F)
  | .place side price _ => some (side, price)
  | .modify side _ price => some (side, price)
  | .cancelAll _ => none

omit [F64 F] in
theorem sets_sendSide {c : QuoteContext F} {s : SharedState F} {side : Side}
    {targetQ : F} {existing : Option (OurOrder F)} {d : Decision F}
    (h : (sendSide c s side targetQ existing).1 = some d) :
    Decision.sets d = some (side, targetQ) := by
  unfold sendSide at h
  extract_lets claim at h
  split at h
  · split at h
    · obtain rfl := Option.some.inj h
      rfl
    · obtain rfl := Option.some.inj h
      rfl
  · cases h

theorem sets_decideSide {c : QuoteContext F} {s : SharedState F} {side : Side} {d : Decision F}
    (h : (decideSide c s side).1 = some d) :
    ∃ price, quoteTarget c side = .ok price ∧ Decision.sets d = some (side, price) := by
  unfold decideSide at h
  split at h
  · cases h
  · rename_i price hprice
    split at h
    · simp only at h
      split at h
      · cases h
      · exact ⟨price, hprice, sets_sendSide h⟩
    · cases h

theorem theoAtFit_bump (pricing : Pricing F) (s : SharedState F) (counter : Counter) (n : Nat)
    (vp : VolSurfaceEntry F) (key : TheoCacheKey) (strike tte : F) (right : Char) :
    (theoAtFit pricing (s.bump counter n) vp key strike tte right).1 =
      (theoAtFit pricing s vp key strike tte right).1 := by
  simp only [theoAtFit, SharedState.bump]
  cases s.theoCache.lookup key with
  | some gx => rfl
  | none => cases computeTheo pricing vp.forward strike tte right vp.params <;> rfl

theorem quoteContext_of_decideFrame {s s' : SharedState F} (h : DecideFrame s s')
    (vp : VolSurfaceEntry F) (gates : RiskGates) (gx : TheoGreeks F) (tick : TickMsg F)
    (right : Char) (now : Nat) :
    quoteContext s' vp gates gx tick right now = quoteContext s vp gates gx tick right now := by
  obtain ⟨_, _, _, rfl⟩ := h
  rfl

/-- What `quoteAt` decides, it decides for a side of its context. -/
theorem decided_quoteAt {pricing : Pricing F} {s : SharedState F} {vp : VolSurfaceEntry F}
    {gates : RiskGates} {tick : TickMsg F} {right : Char} {tte : F} {now : Nat} {d : Decision F}
    (h : d ∈ (quoteAt pricing s vp gates tick right tte now).1) :
    ∃ gx side s',
      (theoAtFit pricing s vp (strikeKey tick.strike, tick.expiry, right, vp.fitTsNs) tick.strike
        tte right).1 = some gx ∧
      DecideFrame s s' ∧
      (decideSide (quoteContext s vp gates gx tick right now) s' side).1 = some d := by
  have htheo := decideFrame_theoAtFit pricing s vp
    (strikeKey tick.strike, tick.expiry, right, vp.fitTsNs) tick.strike tte right
  simp only [quoteAt] at h
  split at h
  · cases h
  · rename_i gx hgx
    split at h
    · cases h
    · rw [quoteContext_of_decideFrame htheo] at h
      simp only [decideSides, List.mem_append, Option.mem_toList] at h
      rcases h with hbuy | hsell
      · exact ⟨gx, _, _, hgx, htheo, hbuy⟩
      · exact ⟨gx, _, _, hgx, htheo.trans (decideFrame_decideSide ..), hsell⟩

/-- What a tick decides but a cancel, it decides for a side of its context. -/
theorem decided_decideOnTick {pricing : Pricing F} {timeToExpiry : String → Option F}
    {s : SharedState F} {tick : TickMsg F} {right : Char} {nowMono nowWall : Nat}
    {d : Decision F}
    (hd : d ∈ (decideOnTick pricing timeToExpiry s tick right nowMono nowWall).1)
    (hsets : Decision.sets d ≠ none) :
    ∃ c side s', contextAt pricing timeToExpiry s tick right nowMono = some c ∧
      DecideFrame s s' ∧ (decideSide c s' side).1 = some d := by
  unfold decideOnTick at hd
  split at hd
  · cases hd
  split at hd
  · cases hd
  split at hd
  · cases hd
  split at hd
  · cases hd
  rename_i vp hsurface
  simp only at hd
  split at hd
  · cases hd
  split at hd
  · simp only [cancelResting] at hd
    split at hd
    · cases hd
    · obtain rfl := List.mem_singleton.mp hd
      exact absurd rfl hsets
  split at hd
  · cases hd
  rename_i tte htte
  split at hd
  · cases hd
  obtain ⟨gx, side, s', hgx, hframe, hside⟩ := decided_quoteAt hd
  rw [theoAtFit_bump] at hgx
  refine ⟨_, side, s', ?_, (decideFrame_bump ..).trans hframe, hside⟩
  unfold contextAt
  rw [hsurface, Option.bind_some, htte, Option.bind_some]
  simp only
  rw [hgx]
  rfl

/-- **The prices of a tick.** A price that a tick decides on is the target of its
context. -/
theorem sets_decideOnTick {pricing : Pricing F} {timeToExpiry : String → Option F}
    {s : SharedState F} {tick : TickMsg F} {right : Char} {nowMono nowWall : Nat}
    {d : Decision F} {side : Side} {price : F}
    (hd : d ∈ (decideOnTick pricing timeToExpiry s tick right nowMono nowWall).1)
    (hsets : Decision.sets d = some (side, price)) :
    ∃ c, contextAt pricing timeToExpiry s tick right nowMono = some c ∧
      quoteTarget c side = .ok price := by
  obtain ⟨c, side', s', hcontext, -, hside⟩ :=
    decided_decideOnTick hd (by rw [hsets]; exact Option.some_ne_none _)
  obtain ⟨price', htarget, hsets'⟩ := sets_decideSide hside
  obtain ⟨rfl, rfl⟩ := Prod.mk.inj (Option.some.inj (hsets'.symm.trans hsets))
  exact ⟨c, hcontext, htarget⟩

/-- A price that an attempt of a decision would leave is the one that the decision
sets. -/
theorem sets_of_writes {tick : TickMsg F} {right : Char} {gtdSeconds : Nat} {clock : Clock F}
    {d : Decision F} {attempt : Attempt F} {key : OurOrderKey} {found : Option (OurOrder F)}
    {o : OurOrder F}
    (hattempt : attempt ∈ decisionAttempts tick right gtdSeconds clock d)
    (hwrites : attempt.2.writes key found = some o) :
    ∃ side, key = quoteKey tick right side ∧ Decision.sets d = some (side, o.price) := by
  cases d with
  | place side price cancelOldOid =>
      obtain rfl := List.mem_singleton.mp hattempt
      obtain ⟨hkey, hput⟩ := Option.ite_none_right_eq_some.mp hwrites
      obtain rfl := Option.some.inj hput
      exact ⟨side, hkey.symm, rfl⟩
  | modify side orderId price =>
      obtain rfl := List.mem_singleton.mp hattempt
      obtain ⟨hkey, hamended⟩ := Option.ite_none_right_eq_some.mp hwrites
      obtain ⟨old, -, rfl⟩ := Option.map_eq_some_iff.mp hamended
      exact ⟨side, hkey.symm, rfl⟩
  | cancelAll orderIds =>
      obtain ⟨orderId, -, rfl⟩ := List.mem_map.mp hattempt
      cases hwrites

/-- An order of this price rests under the key. -/
def RestsAt (s : SharedState F) (key : OurOrderKey) (price : F) : Prop :=
  ∃ o ∈ s.ourOrders.lookup key, o.price = price

/-- A step prices the order under a key: a tick at the target of its context, an ack of an
order that is not tracked at the price it reports, the staleness loop at the price it
collected. -/
inductive PricedBy (pricing : Pricing F) (s : TraderSys F) :
    TraderStep F → OurOrderKey → F → Prop
  | tick {msg : TickMsg F} {clock : Clock F} {accepts : Nat → Bool} {c : QuoteContext F}
      {side : Side} {price : F} (hcontext : tickContext pricing s.shared clock msg = some c)
      (htarget : quoteTarget c side = .ok price) :
      PricedBy pricing s (.event (.tick msg) clock accepts) (sideKey c side) price
  | ack {p : PlaceAckMsg F} {clock : Clock F} {accepts : Nat → Bool} {key : OurOrderKey}
      (hkey : ackKey p = some key) (hnew : s.shared.ourOrders.lookup key = none) :
      PricedBy pricing s (.event (.placeAck p) clock accepts) key p.price
  | act {clock : Clock F} {gtdSeconds : Nat} {orderId : Int} {key : OurOrderKey} {price : F}
      {rest : List (Action F)} {own : OurOrder F}
      (hpass : s.pass = some ⟨clock, gtdSeconds, .modify orderId key price :: rest⟩)
      (hown : s.shared.ourOrders.lookup key = some own) :
      PricedBy pricing s (.act true) key price

/-- A tick prices what it leaves, or leaves it as it was. -/
theorem PricedBy.of_tick {pricing : Pricing F} {placesOrders : Bool} {s : TraderSys F}
    {msg : TickMsg F} {clock : Clock F} {accepts : Nat → Bool} {key : OurOrderKey}
    {o : OurOrder F}
    (h : (onTick pricing placesOrders s.shared clock accepts msg).2.ourOrders.lookup key =
      some o) :
    RestsAt s.shared key o.price ∨
      PricedBy pricing s (.event (.tick msg) clock accepts) key o.price := by
  obtain ⟨-, moves, htracking, hmoves⟩ :=
    onTick_spec pricing placesOrders s.shared clock accepts msg
  have hslot : (run apply (tracking s.shared) moves).slot key = some o := by
    rw [← htracking]
    exact h
  rcases slot_run_cases hslot with hbefore | ⟨m, hm, found, hwrites⟩
  · exact .inl ⟨o, hbefore, rfl⟩
  · right
    obtain ⟨i, command, -, hattempt⟩ := hmoves m hm
    have hmem := List.mem_of_getElem? hattempt
    unfold tickAttempts at hmem
    cases hright : firstUpper msg.right with
    | none =>
        rw [hright] at hmem
        cases hmem
    | some right =>
        rw [hright] at hmem
        simp only at hmem
        split at hmem
        · obtain ⟨d, hd, hfrom⟩ := List.mem_flatMap.mp hmem
          obtain ⟨side, rfl, hsets⟩ := sets_of_writes hfrom hwrites
          obtain ⟨c, hcontext, htarget⟩ := sets_decideOnTick hd hsets
          rw [← (contextAt_spec hcontext).2.2 side]
          refine .tick ?_ htarget
          rw [tickContext, hright]
          exact hcontext
        · cases hmem

theorem PricedBy.of_ack {pricing : Pricing F} {s : TraderSys F} {p : PlaceAckMsg F}
    {clock : Clock F} {accepts : Nat → Bool} {key : OurOrderKey} {o : OurOrder F}
    (h : (onPlaceAck s.shared clock p).ourOrders.lookup key = some o) :
    RestsAt s.shared key o.price ∨
      PricedBy pricing s (.event (.placeAck p) clock accepts) key o.price := by
  have hslot : (tracking (onPlaceAck s.shared clock p)).slot key = some o := h
  rw [tracking_onPlaceAck] at hslot
  cases hkey : ackKey p with
  | none =>
      rw [hkey] at hslot
      exact .inl ⟨o, hslot, rfl⟩
  | some k =>
      rw [hkey, Option.toList_some, List.map_singleton, run_cons, run_nil] at hslot
      rcases slot_apply_cases hslot with hbefore | hwrites
      · exact .inl ⟨o, hbefore, rfl⟩
      · obtain ⟨rfl, hfiled⟩ := Option.ite_none_right_eq_some.mp hwrites
        obtain rfl := Option.some.inj hfiled
        cases hfound : s.shared.ourOrders.lookup k with
        | none =>
            have hprice : (ackedOrder clock p ((tracking s.shared).slot k)).price = p.price := by
              show (ackedOrder clock p (s.shared.ourOrders.lookup k)).price = p.price
              rw [hfound]
              rfl
            rw [hprice]
            exact .inr (.ack hkey hfound)
        | some old =>
            left
            refine ⟨old, hfound, ?_⟩
            show old.price = (ackedOrder clock p (s.shared.ourOrders.lookup k)).price
            rw [hfound]
            rfl

theorem PricedBy.of_act {pricing : Pricing F} {placesOrders : Bool} {s : TraderSys F}
    {accepted : Bool} {key : OurOrderKey} {o : OurOrder F}
    (h : (nextState pricing placesOrders s (.act accepted)).shared.ourOrders.lookup key =
      some o) :
    RestsAt s.shared key o.price ∨ PricedBy pricing s (.act accepted) key o.price := by
  rcases hpass : s.pass with _ | ⟨clock, gtd, _ | ⟨action, rest⟩⟩
  · simp only [nextState, traderStep, hpass] at h
    exact .inl ⟨o, h, rfl⟩
  · simp only [nextState, traderStep, hpass] at h
    exact .inl ⟨o, h, rfl⟩
  · simp only [nextState, traderStep, hpass] at h
    have hslot : (tracking (applyAction clock gtd s.shared accepted action).2).slot key =
        some o := h
    rw [tracking_applyAction] at hslot
    rcases slot_run_cases hslot with hbefore | ⟨m, hm, -⟩
    · exact .inl ⟨o, hbefore, rfl⟩
    · cases action with
      | cancel orderId k =>
          rw [actionMoves, run_cons, run_nil] at hslot
          rcases slot_apply_cases hslot with hbefore | hwrites
          · exact .inl ⟨o, hbefore, rfl⟩
          · cases hwrites
      | modify orderId k price =>
          cases accepted with
          | false => cases hm
          | true =>
              rw [actionMoves, if_pos rfl, run_cons, run_nil] at hslot
              rcases slot_apply_cases hslot with hbefore | hwrites
              · exact .inl ⟨o, hbefore, rfl⟩
              · obtain ⟨rfl, hamended⟩ := Option.ite_none_right_eq_some.mp hwrites
                obtain ⟨own, hown, rfl⟩ := Option.map_eq_some_iff.mp hamended
                exact .inr (.act hpass hown)

/-- **Where a price comes from.** The price of an order after a step was its price before,
or the step has priced it. -/
theorem PricedBy.of_step {pricing : Pricing F} {placesOrders : Bool} {s : TraderSys F}
    {st : TraderStep F} {key : OurOrderKey} {o : OurOrder F}
    (h : (nextState pricing placesOrders s st).shared.ourOrders.lookup key = some o) :
    RestsAt s.shared key o.price ∨ PricedBy pricing s st key o.price := by
  have hkept {s' : SharedState F} (htracking : tracking s' = tracking s.shared)
      (h : s'.ourOrders.lookup key = some o) : RestsAt s.shared key o.price := by
    have hslot : (tracking s').slot key = some o := h
    rw [htracking] at hslot
    exact ⟨o, hslot, rfl⟩
  cases st with
  | event ev clock accepts =>
      cases ev with
      | tick msg => exact PricedBy.of_tick h
      | placeAck p => exact PricedBy.of_ack h
      | orderStatus a =>
          left
          have hslot : (tracking (onOrderStatus s.shared a)).slot key = some o := h
          rw [tracking_onOrderStatus] at hslot
          rcases slot_run_cases hslot with hbefore | ⟨m, hm, found, hwrites⟩
          · exact ⟨o, hbefore, rfl⟩
          · obtain ⟨orderId, -, rfl⟩ := List.mem_map.mp hm
            cases hwrites
      | volSurface msg => exact .inl (hkept (tracking_onVolSurface s.shared msg) h)
      | kill msg => exact .inl (hkept (tracking_onKill s.shared msg) h)
      | resume msg => exact .inl (hkept (tracking_onResume s.shared msg) h)
      | hello msg => exact .inl (hkept (tracking_onHello s.shared msg) h)
      | undecodable => exact .inl ⟨o, h, rfl⟩
      | unknown => exact .inl ⟨o, h, rfl⟩
      | underlyingTick price => exact .inl ⟨o, h, rfl⟩
      | riskState msg => exact .inl ⟨o, h, rfl⟩
      | weekendPause paused => exact .inl ⟨o, h, rfl⟩
  | collect clock =>
      left
      simp only [nextState, traderStep] at h
      split at h <;> exact ⟨o, h, rfl⟩
  | act accepted => exact PricedBy.of_act h

/-! ## The edge of a price -/

/-- The mid of the tick's book. -/
def mid (c : QuoteContext F) : F := (c.rawBid + c.rawAsk) * F64.lit 5 1

/-- What a tick keeps the edge away from: the theo or the mid, whichever is farther out. -/
def fair (c : QuoteContext ℚ) : Side → ℚ
  | .buy => min c.theo (mid c)
  | .sell => max c.theo (mid c)

/-- What the rounding of a price costs: half a tick for the grid, and half a unit in the
fourth decimal place. -/
def slack (c : QuoteContext ℚ) : ℚ := c.snap.tickSize / 2 + 1 / 20000

theorem abs_fourPlaces_sub_le (x : ℚ) :
    |F64.round (x * F64.lit 10000 0) / F64.lit 10000 0 - x| ≤ 1 / 20000 := by
  have hlit : (F64.lit 10000 0 : ℚ) = 10000 := by simp [rat_lit]
  have hgrid := abs_grid_sub_le x (show (0 : ℚ) < 1 / 10000 by norm_num)
  have hscaled : x / (1 / 10000) = x * 10000 := by ring
  have hback (y : ℚ) : y * (1 / 10000) = y / 10000 := by ring
  rw [hscaled, hback] at hgrid
  rw [hlit]
  exact hgrid.trans_eq (by norm_num)

/-- The two roundings together. -/
theorem abs_rounded_sub_le (c : QuoteContext ℚ) (htick : 0 < c.snap.tickSize) (x : ℚ) :
    |F64.round (F64.round (x / c.snap.tickSize) * c.snap.tickSize * F64.lit 10000 0) /
        F64.lit 10000 0 - x| ≤ slack c := by
  have hgrid := abs_le.mp (abs_grid_sub_le x htick)
  have hplaces := abs_le.mp
    (abs_fourPlaces_sub_le (F64.round (x / c.snap.tickSize) * c.snap.tickSize))
  rw [abs_le]
  unfold slack
  constructor
  · linarith
  · linarith

/-- The theo less or plus the edge. -/
def naiveTarget (c : QuoteContext F) : Side → F
  | .buy => c.theo - c.edge
  | .sell => c.theo + c.edge

/-- In exact arithmetic no jump is taken: it asks for a price ahead of the naive one that
leaves the edge, and the naive one leaves no more than that. -/
theorem jumpedTarget_naive (c : QuoteContext ℚ) (side : Side) :
    jumpedTarget c side (naiveTarget c side) = naiveTarget c side := by
  cases side with
  | buy =>
      have hstays : (F64.lt (naiveTarget c .buy) (c.bid + c.snap.tickSize) &&
          F64.ge (c.theo - (c.bid + c.snap.tickSize)) c.edge) = false := by
        rw [Bool.and_eq_false_imp]
        intro hahead
        have hlt : c.theo - c.edge < c.bid + c.snap.tickSize := of_decide_eq_true hahead
        show decide (c.edge ≤ c.theo - (c.bid + c.snap.tickSize)) = false
        rw [decide_eq_false_iff_not]
        linarith
      simp only [jumpedTarget, hstays, Bool.false_eq_true, if_false, ite_self]
  | sell =>
      have hstays : (F64.gt (naiveTarget c .sell) (c.ask - c.snap.tickSize) &&
          F64.ge (c.ask - c.snap.tickSize - c.theo) c.edge) = false := by
        rw [Bool.and_eq_false_imp]
        intro hahead
        have hlt : c.ask - c.snap.tickSize < c.theo + c.edge := of_decide_eq_true hahead
        show decide (c.edge ≤ c.ask - c.snap.tickSize - c.theo) = false
        rw [decide_eq_false_iff_not]
        linarith
      simp only [jumpedTarget, hstays, Bool.false_eq_true, if_false, ite_self]

/-- The fair value of the side less or plus the edge: the price before it is rounded. -/
def edgePrice (c : QuoteContext ℚ) : Side → ℚ
  | .buy => fair c .buy - c.edge
  | .sell => fair c .sell + c.edge

/-- The naive price and the cap against the mid together. -/
theorem capped_eq_edgePrice (c : QuoteContext ℚ) :
    F64.min (naiveTarget c .buy) (mid c - c.edge) = edgePrice c .buy ∧
      F64.max (naiveTarget c .sell) (mid c + c.edge) = edgePrice c .sell := by
  constructor
  · rw [rat_min]
    exact min_sub_sub_right c.theo (mid c) c.edge
  · rw [rat_max]
    exact max_add_add_right c.theo (mid c) c.edge

/-- The naive price crosses the external price of the other side, where there is one. -/
def Crosses (c : QuoteContext ℚ) : Side → Prop
  | .buy => 0 < c.ask ∧ c.ask ≤ naiveTarget c .buy
  | .sell => 0 < c.bid ∧ naiveTarget c .sell ≤ c.bid

/-- **The price of a side.** It is the edge away from the fair value, before it is rounded
to the tick and to four places. -/
theorem quoteTarget_ok {c : QuoteContext ℚ} {side : Side} {price : ℚ}
    (h : quoteTarget c side = .ok price) :
    0 < edgePrice c side ∧ ¬ Crosses c side ∧
      price =
        F64.round (F64.round (edgePrice c side / c.snap.tickSize) * c.snap.tickSize *
          F64.lit 10000 0) / F64.lit 10000 0 := by
  unfold quoteTarget at h
  extract_lets naive target crosses mktMid capped targetQ at h
  have htarget : target = naiveTarget c side := by
    cases side with
    | buy => exact jumpedTarget_naive c .buy
    | sell => exact jumpedTarget_naive c .sell
  have hcapped : capped = edgePrice c side := by
    obtain ⟨hbuy, hsell⟩ := capped_eq_edgePrice c
    cases side with
    | buy => exact (congrArg (F64.min · (mid c - c.edge)) htarget).trans hbuy
    | sell => exact (congrArg (F64.max · (mid c + c.edge)) htarget).trans hsell
  split at h
  · cases h
  split at h
  · cases side <;> cases h
  rename_i hclear
  split at h
  · cases h
  rename_i hpositive
  refine ⟨?_, ?_, ?_⟩
  · rw [hcapped, rat_zero] at hpositive
    exact lt_of_not_ge fun hle => hpositive (decide_eq_true hle)
  · intro hcrosses
    apply hclear
    cases side with
    | buy =>
        show (F64.gt c.ask F64.zero && F64.ge target c.ask) = true
        rw [htarget, rat_zero, Bool.and_eq_true]
        exact ⟨decide_eq_true hcrosses.1, decide_eq_true hcrosses.2⟩
    | sell =>
        show (F64.gt c.bid F64.zero && F64.le target c.bid) = true
        rw [htarget, rat_zero, Bool.and_eq_true]
        exact ⟨decide_eq_true hcrosses.1, decide_eq_true hcrosses.2⟩
  · rw [← hcapped]
    exact (Except.ok.inj h).symm

/-- The price is the edge away from the fair value of its side, on its side, up to the
rounding. -/
def HasEdge (c : QuoteContext ℚ) : Side → ℚ → Prop
  | .buy, price => price ≤ fair c .buy - c.edge + slack c
  | .sell, price => fair c .sell + c.edge - slack c ≤ price

theorem quoteTarget_buy_le {c : QuoteContext ℚ} {price : ℚ} (htick : 0 < c.snap.tickSize)
    (h : quoteTarget c .buy = .ok price) : price ≤ fair c .buy - c.edge + slack c := by
  obtain ⟨-, -, rfl⟩ := quoteTarget_ok h
  have hrounded := (abs_le.mp (abs_rounded_sub_le c htick (edgePrice c .buy))).2
  have hedge : edgePrice c .buy = fair c .buy - c.edge := rfl
  linarith

theorem le_quoteTarget_sell {c : QuoteContext ℚ} {price : ℚ} (htick : 0 < c.snap.tickSize)
    (h : quoteTarget c .sell = .ok price) : fair c .sell + c.edge - slack c ≤ price := by
  obtain ⟨-, -, rfl⟩ := quoteTarget_ok h
  have hrounded := (abs_le.mp (abs_rounded_sub_le c htick (edgePrice c .sell))).1
  have hedge : edgePrice c .sell = fair c .sell + c.edge := rfl
  linarith

/-- **The edge of a price.** -/
theorem quoteTarget_beyond {c : QuoteContext ℚ} {side : Side} {price : ℚ}
    (htick : 0 < c.snap.tickSize) (h : quoteTarget c side = .ok price) :
    HasEdge c side price := by
  cases side with
  | buy => exact quoteTarget_buy_le htick h
  | sell => exact le_quoteTarget_sell htick h

/-- The new price is farther from the other side than the old one, or the same. -/
def MovesAway (key : OurOrderKey) (old new : ℚ) : Prop :=
  if key.2.2.2 = 'B' then new ≤ old else old ≤ new

instance (key : OurOrderKey) (old new : ℚ) : Decidable (MovesAway key old new) := by
  unfold MovesAway
  infer_instance

section Amend

/-- The theo less the edge for a bid, and plus the edge for an offer. -/
def edgeFrom (snap : ScalarState ℚ) (key : OurOrderKey) (theo : ℚ) : ℚ :=
  if key.2.2.2 = 'B' then theo - snap.minEdgeTicks * snap.tickSize
  else theo + snap.minEdgeTicks * snap.tickSize

/-- The price on the tick grid next to the edge. -/
def refreshed (snap : ScalarState ℚ) (key : OurOrderKey) (theo : ℚ) : ℚ :=
  F64.round (edgeFrom snap key theo / snap.tickSize) * snap.tickSize

variable {snap : ScalarState ℚ} {key : OurOrderKey} {order : OurOrder ℚ} {theo : ℚ}

theorem drifted_iff :
    drifted snap key order theo = true ↔
      snap.tickSize < if key.2.2.2 = 'B' then order.price - theo else theo - order.price := by
  have hone : F64.ofInt stalenessTicks * snap.tickSize = snap.tickSize := by
    rw [rat_ofInt, stalenessTicks, Int.cast_one, one_mul]
  rw [drifted, hone]
  exact decide_eq_true_iff

/-- The nearest multiple lies within half a tick, and the drift is more than a tick. -/
theorem refreshed_apart (htick : 0 < snap.tickSize) (hedge : 0 ≤ snap.minEdgeTicks)
    (hdrift : drifted snap key order theo = true) :
    if key.2.2.2 = 'B' then refreshed snap key theo + snap.tickSize / 2 < order.price
    else order.price + snap.tickSize / 2 < refreshed snap key theo := by
  have hnear := abs_le.mp (abs_grid_sub_le (edgeFrom snap key theo) htick)
  have hwidth : 0 ≤ (snap.minEdgeTicks : ℚ) * snap.tickSize :=
    mul_nonneg (by exact_mod_cast hedge) htick.le
  rw [drifted_iff] at hdrift
  unfold refreshed
  by_cases hside : key.2.2.2 = 'B'
  · rw [if_pos hside] at hdrift ⊢
    rw [edgeFrom, if_pos hside] at hnear ⊢
    linarith [hnear.2]
  · rw [if_neg hside] at hdrift ⊢
    rw [edgeFrom, if_neg hside] at hnear ⊢
    linarith [hnear.1]

/-- **An order that has drifted is amended.** The guard against an amend that would not move
never stops one. -/
theorem refreshPrice_of_drifted (htick : 0 < snap.tickSize) (hedge : 0 ≤ snap.minEdgeTicks)
    (hdrift : drifted snap key order theo = true) :
    refreshPrice snap key order theo = some (refreshed snap key theo) := by
  have hlit : (F64.lit 1 2 : ℚ) = 1 / 100 := by norm_num [rat_lit]
  have hmoved : snap.tickSize * (1 / 100) < |refreshed snap key theo - order.price| := by
    have hapart := refreshed_apart htick hedge hdrift
    split_ifs at hapart with hside
    · refine lt_of_lt_of_le ?_ (neg_le_abs _)
      linarith
    · refine lt_of_lt_of_le ?_ (le_abs_self _)
      linarith
  have hmoves : F64.gt (F64.abs (refreshed snap key theo - order.price))
      (snap.tickSize * F64.lit 1 2) = true := by
    rw [rat_abs, hlit]
    exact decide_eq_true hmoved
  exact if_pos hmoves

end Amend

/-- **The safe direction.** As a pass collects it, an amend moves its order away from the
other side. -/
theorem amend_moves_away {pricing : Pricing ℚ} {s : SharedState ℚ} {clock : Clock ℚ}
    {key key' : OurOrderKey} {order : OurOrder ℚ} {orderId : Int} {price : ℚ}
    (htick : 0 < s.scalars.tickSize) (hedge : 0 ≤ s.scalars.minEdgeTicks)
    (h : stalenessAction pricing s clock key order = some (.modify orderId key' price)) :
    MovesAway key order.price price := by
  unfold stalenessAction at h
  split at h
  · rename_i id theo _ _
    split at h
    · rename_i hdrift
      rw [refreshPrice_of_drifted htick hedge hdrift] at h
      obtain ⟨-, -, rfl⟩ := Action.modify.inj (Option.some.inj h)
      have hapart := refreshed_apart htick hedge hdrift
      unfold MovesAway
      split_ifs at hapart ⊢ with hside
      · linarith
      · linarith
    · split at h
      · split at h
        · cases h
        · cases h
      · cases h
  · cases h

/-! ## The sides apart -/

/-- The same option's key on the other side. -/
def otherKey (key : OurOrderKey) : OurOrderKey :=
  (key.1, key.2.1, key.2.2.1, if key.2.2.2 = 'B' then 'S' else 'B')

/-- The price does not trade against the one on the other side. -/
def Clear (key : OurOrderKey) (price other : ℚ) : Prop :=
  if key.2.2.2 = 'B' then price < other else other < price

instance (key : OurOrderKey) (price other : ℚ) : Decidable (Clear key price other) := by
  unfold Clear
  infer_instance

/-- No order would trade against our own order on the other side. -/
def NoSelfCross (s : SharedState ℚ) : Prop :=
  ∀ strike expiry right, ∀ buy ∈ s.ourOrders.lookup (strike, expiry, right, 'B'),
    ∀ sell ∈ s.ourOrders.lookup (strike, expiry, right, 'S'), buy.price < sell.price

/-- The order under the key has a price that it did not have before. -/
def Repriced (s s' : SharedState F) (key : OurOrderKey) : Prop :=
  ∃ o ∈ s'.ourOrders.lookup key, ¬ RestsAt s key o.price

instance (s s' : SharedState ℚ) (key : OurOrderKey) : Decidable (Repriced s s' key) := by
  unfold Repriced RestsAt
  infer_instance

/-- The fair value of a side has not passed an order on the other side. -/
def NotPassed (c : QuoteContext ℚ) : Side → ℚ → Prop
  | .buy, other => fair c .buy ≤ other
  | .sell, other => other ≤ fair c .sell

instance (c : QuoteContext ℚ) (side : Side) (other : ℚ) : Decidable (NotPassed c side other) := by
  cases side <;> unfold NotPassed <;> infer_instance

def Side.other : Side → Side
  | .buy => .sell
  | .sell => .buy

/-- A tick that prices a side has an edge wider than the rounding, and where it leaves the
other side as it was, the fair value has not passed the order there. -/
def TickKeepsClear (s s' : SharedState ℚ) (c : QuoteContext ℚ) (side : Side) : Prop :=
  Repriced s s' (sideKey c side) →
    0 < c.snap.tickSize ∧ slack c < c.edge ∧
      (¬ Repriced s s' (sideKey c (Side.other side)) →
        ∀ other ∈ s.ourOrders.lookup (sideKey c (Side.other side)),
          NotPassed c side other.price)

instance (s s' : SharedState ℚ) (c : QuoteContext ℚ) (side : Side) :
    Decidable (TickKeepsClear s s' c side) := by
  unfold TickKeepsClear
  infer_instance

/-- An amend that is written still moves its order away from the other side. -/
def AmendKeepsClear (s : SharedState ℚ) : Action ℚ → Prop
  | .modify _ key price =>
      ∀ own ∈ s.ourOrders.lookup key, ∀ _other ∈ s.ourOrders.lookup (otherKey key),
        MovesAway key own.price price
  | .cancel _ _ => True

instance (s : SharedState ℚ) (action : Action ℚ) : Decidable (AmendKeepsClear s action) := by
  cases action <;> unfold AmendKeepsClear <;> infer_instance

/-- A step keeps the sides apart. -/
def KeepsClear (pricing : Pricing ℚ) (placesOrders : Bool) (s : TraderSys ℚ) :
    TraderStep ℚ → Prop
  | .event (.tick msg) clock accepts =>
      let s' := (onTick pricing placesOrders s.shared clock accepts msg).2
      ∀ c ∈ tickContext pricing s.shared clock msg,
        TickKeepsClear s.shared s' c .buy ∧ TickKeepsClear s.shared s' c .sell
  | .event (.placeAck p) _ _ =>
      ∀ key ∈ ackKey p, s.shared.ourOrders.lookup key = none →
        ∀ other ∈ s.shared.ourOrders.lookup (otherKey key), Clear key p.price other.price
  | .event _ _ _ => True
  | .collect _ => True
  | .act accepted =>
      accepted = true → ∀ pass ∈ s.pass, ∀ action ∈ pass.actions.head?,
        AmendKeepsClear s.shared action

instance (pricing : Pricing ℚ) (placesOrders : Bool) (s : TraderSys ℚ) (st : TraderStep ℚ) :
    Decidable (KeepsClear pricing placesOrders s st) := by
  cases st with
  | event ev clock accepts => cases ev <;> unfold KeepsClear <;> infer_instance
  | collect clock => exact isTrue trivial
  | act accepted => unfold KeepsClear; infer_instance

theorem NoSelfCross.clear {s : SharedState ℚ} (h : NoSelfCross s) {key : OurOrderKey}
    (hside : key.2.2.2 = 'B' ∨ key.2.2.2 = 'S') {own other : OurOrder ℚ}
    (hown : s.ourOrders.lookup key = some own)
    (hother : s.ourOrders.lookup (otherKey key) = some other) :
    Clear key own.price other.price := by
  obtain ⟨strike, expiry, right, side⟩ := key
  rcases hside with hbuy | hsell
  · obtain rfl : side = 'B' := hbuy
    exact h strike expiry right own hown other hother
  · obtain rfl : side = 'S' := hsell
    exact h strike expiry right other hother own hown

/-- With an edge wider than the rounding, a price is on its side of what its fair value
has not passed. -/
theorem HasEdge.clear {c : QuoteContext ℚ} {side : Side} {price other : ℚ}
    (h : HasEdge c side price) (hslack : slack c < c.edge) (hpassed : NotPassed c side other) :
    Clear (sideKey c side) price other := by
  cases side with
  | buy =>
      have hprice : price ≤ fair c .buy - c.edge + slack c := h
      have hother : fair c .buy ≤ other := hpassed
      show price < other
      linarith
  | sell =>
      have hprice : fair c .sell + c.edge - slack c ≤ price := h
      have hother : other ≤ fair c .sell := hpassed
      show other < price
      linarith

/-- An order that a step prices alone is clear of the other side. -/
theorem PricedBy.alone {pricing : Pricing ℚ} {placesOrders : Bool} {s : TraderSys ℚ}
    {st : TraderStep ℚ} {key : OurOrderKey} {price : ℚ} {other : OurOrder ℚ}
    (h : PricedBy pricing s st key price) (hapart : NoSelfCross s.shared)
    (hkeeps : KeepsClear pricing placesOrders s st)
    (hside : key.2.2.2 = 'B' ∨ key.2.2.2 = 'S')
    (hrepriced : Repriced s.shared (nextState pricing placesOrders s st).shared key)
    (hleft : ¬ Repriced s.shared (nextState pricing placesOrders s st).shared (otherKey key))
    (hother : s.shared.ourOrders.lookup (otherKey key) = some other) :
    Clear key price other.price := by
  cases h with
  | @tick msg clock accepts c side _ hcontext htarget =>
      have hboth := hkeeps c hcontext
      have hotherKey : otherKey (sideKey c side) = sideKey c (Side.other side) := by
        cases side <;> rfl
      rw [hotherKey] at hleft hother
      have htick : TickKeepsClear s.shared
          (onTick pricing placesOrders s.shared clock accepts msg).2 c side := by
        cases side with
        | buy => exact hboth.1
        | sell => exact hboth.2
      obtain ⟨hsize, hslack, hpassed⟩ := htick hrepriced
      exact (quoteTarget_beyond hsize htarget).clear hslack (hpassed hleft other hother)
  | ack hkey hnew => exact hkeeps key hkey hnew other hother
  | @act clock gtd orderId _ _ rest own hpass hown =>
      have haway : MovesAway key own.price price :=
        hkeeps rfl _ hpass _ rfl own hown other hother
      have hclear := hapart.clear hside hown hother
      unfold MovesAway at haway
      unfold Clear at hclear ⊢
      split
      · rename_i hbuy
        rw [if_pos hbuy] at haway hclear
        exact haway.trans_lt hclear
      · rename_i hsell
        rw [if_neg hsell] at haway hclear
        exact hclear.trans_le haway

/-- Two sides that one step prices are apart: only a tick prices two. -/
theorem PricedBy.together {pricing : Pricing ℚ} {placesOrders : Bool} {s : TraderSys ℚ}
    {st : TraderStep ℚ} {key : OurOrderKey} {price other : ℚ}
    (h : PricedBy pricing s st key price) (hother : PricedBy pricing s st (otherKey key) other)
    (hkeeps : KeepsClear pricing placesOrders s st) (hside : key.2.2.2 = 'B')
    (hrepriced : Repriced s.shared (nextState pricing placesOrders s st).shared key) :
    price < other := by
  have hne : otherKey key ≠ key := by
    intro heq
    have hchar := congrArg (fun k : OurOrderKey => k.2.2.2) heq
    simp [otherKey, hside] at hchar
  generalize hk : otherKey key = key' at hother hne
  cases h with
  | @tick msg clock accepts c side _ hcontext htarget =>
      cases hother with
      | @tick _ _ _ c' side' _ hcontext' htarget' =>
          obtain rfl : c = c' := Option.some.inj (hcontext.symm.trans hcontext')
          have hboth := hkeeps c hcontext
          cases side with
          | sell =>
              have hchar : 'S' = 'B' := hside
              exact absurd hchar (by decide)
          | buy =>
              cases side' with
              | buy => exact absurd rfl hne
              | sell =>
                  obtain ⟨hsize, hslack, -⟩ := hboth.1 hrepriced
                  have hbuy := quoteTarget_buy_le hsize htarget
                  have hsell := le_quoteTarget_sell hsize htarget'
                  have hfair : fair c .buy ≤ fair c .sell :=
                    (min_le_left ..).trans (le_max_left ..)
                  linarith
  | ack hkey hnew =>
      cases hother with
      | ack hkey' hnew' => exact absurd (Option.some.inj (hkey'.symm.trans hkey)) hne
  | act hpass hown =>
      cases hother with
      | act hpass' hown' =>
          have heq := Option.some.inj (hpass.symm.trans hpass')
          simp only [Pass.mk.injEq, List.cons.injEq, Action.modify.injEq] at heq
          exact absurd heq.2.2.1.2.1.symm hne

/-- **Step lemma.** -/
theorem NoSelfCross.step {s : TraderSys ℚ} (h : NoSelfCross s.shared) {pricing : Pricing ℚ}
    {placesOrders : Bool} {st : TraderStep ℚ} (hkeeps : KeepsClear pricing placesOrders s st) :
    NoSelfCross (nextState pricing placesOrders s st).shared := by
  intro strike expiry right buy hbuy sell hsell
  -- each price is new, or an order had it before
  by_cases hbuyOld : RestsAt s.shared (strike, expiry, right, 'B') buy.price
  · obtain ⟨b, hb, hbprice⟩ := id hbuyOld
    by_cases hsellOld : RestsAt s.shared (strike, expiry, right, 'S') sell.price
    · obtain ⟨o, ho, hoprice⟩ := hsellOld
      rw [← hbprice, ← hoprice]
      exact h strike expiry right b hb o ho
    · have hleft : ¬ Repriced s.shared (nextState pricing placesOrders s st).shared
          (strike, expiry, right, 'B') := by
        rintro ⟨o, ho, hnew⟩
        obtain rfl := Option.some.inj (hbuy.symm.trans ho)
        exact hnew hbuyOld
      have hclear := ((PricedBy.of_step hsell).resolve_left hsellOld).alone h hkeeps (.inr rfl)
        ⟨sell, hsell, hsellOld⟩ hleft hb
      rw [← hbprice]
      exact hclear
  · have hbuyPriced := (PricedBy.of_step hbuy).resolve_left hbuyOld
    by_cases hsellOld : RestsAt s.shared (strike, expiry, right, 'S') sell.price
    · obtain ⟨o, ho, hoprice⟩ := id hsellOld
      have hleft : ¬ Repriced s.shared (nextState pricing placesOrders s st).shared
          (strike, expiry, right, 'S') := by
        rintro ⟨o', ho', hnew⟩
        obtain rfl := Option.some.inj (hsell.symm.trans ho')
        exact hnew hsellOld
      have hclear := hbuyPriced.alone h hkeeps (.inl rfl) ⟨buy, hbuy, hbuyOld⟩ hleft ho
      rw [← hoprice]
      exact hclear
    · exact hbuyPriced.together ((PricedBy.of_step hsell).resolve_left hsellOld) hkeeps rfl
        ⟨buy, hbuy, hbuyOld⟩

/-! ## A pass on its own -/

/-- The amends that a pass has left move their orders away, and no two of its actions have
one key. -/
def MovingAway (s : TraderSys ℚ) : Prop :=
  ∀ pass ∈ s.pass, (pass.actions.map actionKey).Nodup ∧
    ∀ orderId key price, Action.modify orderId key price ∈ pass.actions →
      ∀ own ∈ s.shared.ourOrders.lookup key, MovesAway key own.price price

/-- Each order is collected once, under its own key. -/
theorem nodup_collectActions (pricing : Pricing F) (s : SharedState F) (clock : Clock F) :
    ((collectActions pricing s clock).map actionKey).Nodup := by
  have hsublist (entries : List (Sigma fun _ : OurOrderKey => OurOrder F)) :
      ((entries.filterMap fun e => stalenessAction pricing s clock e.1 e.2).map
        actionKey).Sublist (entries.map Sigma.fst) := by
    induction entries with
    | nil => exact .slnil
    | cons e rest ih =>
        rw [List.map_cons]
        cases haction : stalenessAction pricing s clock e.1 e.2 with
        | none =>
            simp only [List.filterMap_cons, haction]
            exact ih.cons _
        | some action =>
            simp only [List.filterMap_cons, haction, List.map_cons,
              (orderId_stalenessAction haction).1]
            exact ih.cons_cons _
  exact s.ourOrders.keys_nodup.sublist (hsublist s.ourOrders.entries)

theorem movingAway_collect (pricing : Pricing ℚ) {s : SharedState ℚ} (clock : Clock ℚ)
    (htick : 0 < s.scalars.tickSize) (hedge : 0 ≤ s.scalars.minEdgeTicks) :
    MovingAway (nextState pricing true { shared := s, pass := none } (.collect clock)) := by
  intro pass hpass
  obtain rfl := Option.some.inj hpass
  refine ⟨nodup_collectActions pricing s clock, fun orderId key price hmodify own hown => ?_⟩
  obtain ⟨e, he, haction⟩ := List.mem_filterMap.mp hmodify
  obtain ⟨hkey, -⟩ := orderId_stalenessAction haction
  have hentry : s.ourOrders.lookup e.1 = some e.2 :=
    List.mem_dlookup s.ourOrders.nodupKeys he
  obtain rfl : key = e.1 := hkey
  obtain rfl := Option.some.inj (hentry.symm.trans hown)
  exact amend_moves_away htick hedge haction

/-- An action changes nothing under the keys of the others. -/
theorem MovingAway.act {s : TraderSys ℚ} (h : MovingAway s) (pricing : Pricing ℚ)
    (placesOrders : Bool) (accepted : Bool) :
    MovingAway (nextState pricing placesOrders s (.act accepted)) := by
  rcases hbefore : s.pass with _ | ⟨clock, gtd, _ | ⟨action, rest⟩⟩
  · intro pass hpass
    simp [nextState, traderStep, hbefore] at hpass
  · intro pass hpass
    simp [nextState, traderStep, hbefore] at hpass
  · obtain ⟨hnodup, hmoves⟩ := h _ hbefore
    rw [List.map_cons, List.nodup_cons] at hnodup
    intro pass hpass
    have hafter : (nextState pricing placesOrders s (.act accepted)).pass =
        some ⟨clock, gtd, rest⟩ := by
      simp only [nextState, traderStep, hbefore]
    obtain rfl := Option.some.inj (hafter.symm.trans hpass)
    refine ⟨hnodup.2, fun orderId key price hmodify own hown => ?_⟩
    refine hmoves orderId key price (List.mem_cons_of_mem action hmodify) own ?_
    have hne : actionKey action ≠ key := by
      intro heq
      exact hnodup.1 (heq ▸ List.mem_map_of_mem hmodify)
    simp only [nextState, traderStep, hbefore] at hown
    have hslot : (tracking (applyAction clock gtd s.shared accepted action).2).slot key =
        some own := hown
    rw [tracking_applyAction, slot_actionMoves hne] at hslot
    exact hslot

theorem MovingAway.keepsClear {s : TraderSys ℚ} (h : MovingAway s) (pricing : Pricing ℚ)
    (placesOrders : Bool) (accepted : Bool) :
    KeepsClear pricing placesOrders s (.act accepted) := by
  intro _ pass hpass action haction
  cases action with
  | cancel orderId key => trivial
  | modify orderId key price =>
      intro own hown _ _
      exact (h pass hpass).2 orderId key price (List.mem_of_mem_head? haction) own hown

/-- **A pass on its own.** Where nothing comes between its steps, a pass of the staleness
loop keeps the sides apart. -/
theorem noSelfCross_stalenessCheck (pricing : Pricing ℚ) {s : SharedState ℚ}
    (h : NoSelfCross s) (clock : Clock ℚ) (accepts : Nat → Bool)
    (htick : 0 < s.scalars.tickSize) (hedge : 0 ≤ s.scalars.minEdgeTicks) :
    NoSelfCross (stalenessCheck pricing s clock accepts).2 := by
  have hacts (steps : List (TraderStep ℚ)) (hsteps : ∀ st ∈ steps, ∃ accepted, st = .act accepted)
      {sys : TraderSys ℚ} (hapart : NoSelfCross sys.shared) (haway : MovingAway sys) :
      NoSelfCross (run (nextState pricing true) sys steps).shared := by
    induction steps generalizing sys with
    | nil => exact hapart
    | cons st rest ih =>
        rw [List.forall_mem_cons] at hsteps
        obtain ⟨⟨accepted, rfl⟩, hrest⟩ := hsteps
        exact ih hrest (hapart.step (haway.keepsClear pricing true accepted))
          (haway.act pricing true accepted)
  have hcollected : NoSelfCross
      (nextState pricing true { shared := s, pass := none } (.collect clock)).shared := h
  rw [pass_alone]
  refine hacts (actSteps accepts (collectActions pricing s clock) 0) (fun st hst => ?_) hcollected
    (movingAway_collect pricing clock htick hedge)
  obtain ⟨action, -, rfl⟩ := List.mem_map.mp hst
  exact ⟨_, rfl⟩

/-! The 6.00 call, worth 0.3587 with the future at 6.00 and 0.3640 at 6.01. -/

/-- The market opens: the future, the surface and the risk state. -/
def opening : List (TraderStep ℚ) := overpricedBid.take 2 ++ [calmRisk 1000000000]

def futureAt (ns : Nat) (price : ℚ) : TraderStep ℚ :=
  .event (.underlyingTick price) (quarterYear ns) fun _ => true

def callTick (ns : Nat) (bid ask : ℚ) : TraderStep ℚ :=
  .event
    (.tick
      { strike := 6
        expiry := "20260526"
        right := "C"
        bid := some bid
        ask := some ask
        bidSize := some 5
        askSize := some 5
        tsNs := none
        brokerRecvNs := none
        depthBid0 := none
        depthBid1 := none
        depthAsk0 := none
        depthAsk1 := none })
    (quarterYear ns) fun _ => true

def ackOf (ns : Nat) (orderId : Int) (side : String) (price : ℚ) : TraderStep ℚ :=
  .event
    (.placeAck
      { orderId := orderId
        strike := 6
        expiry := "20260526"
        right := "C"
        side := side
        price := price })
    (quarterYear ns) fun _ => true

/-- The edge and the limit on the spread are both configured to be zero. -/
def zeroEdge (ns : Nat) : TraderStep ℚ :=
  .event
    (.hello
      { config := some
          { minEdgeTicks := some 0
            tickSize := none
            deltaCeiling := none
            marginCeilingPct := none
            contractMultiplier := none
            gtdLifetimeS := none
            gtdRefreshLeadS := none
            deadBandTicks := none
            skipIfSpreadOverEdgeMul := some 0
            thetaKill := none
            vegaKill := none }
        activeKills := [] })
    (quarterYear ns) fun _ => true

/-- The offer is on its way and no tick shows it when the bid is amended past it. -/
def offerInFlight : List (TraderStep ℚ) :=
  opening ++
    [callTick 1000000000 (3600 / 10000) (3640 / 10000), ackOf 1100000000 7 "BUY" (3575 / 10000),
      callTick 2000000000 (3550 / 10000) (3620 / 10000), futureAt 2050000000 (601 / 100),
      callTick 2100000000 (3595 / 10000) (3675 / 10000)]

/-- Both sides are quoted and acknowledged. -/
def bothSides : List (TraderStep ℚ) :=
  opening ++
    [callTick 1000000000 (3550 / 10000) (3620 / 10000), ackOf 1100000000 7 "BUY" (3575 / 10000),
      ackOf 1100000000 8 "SELL" (3595 / 10000)]

/-- The pass collects the amend of the offer, the future moves on and a tick reprices both
sides before the amend is written. -/
def lateAmend : List (TraderStep ℚ) :=
  bothSides ++
    [futureAt 1200000000 (601 / 100), .collect (quarterYear 1300000000),
      futureAt 1900000000 (603 / 100), callTick 2000000000 (3700 / 10000) (3775 / 10000),
      .act true]

/-- Both sides are priced at the theo. -/
def noEdge : List (TraderStep ℚ) :=
  opening ++ [zeroEdge 1000000000, callTick 1000000000 (3550 / 10000) (3620 / 10000)]

/-- An offer that the trader does not track is acknowledged below its bid. -/
def untrackedOffer : List (TraderStep ℚ) :=
  opening ++
    [callTick 1000000000 (3600 / 10000) (3640 / 10000), ackOf 1100000000 9 "SELL" (3570 / 10000)]

/-- The trader after a run with a burst window of 50 ms. -/
def after (history : List (TraderStep ℚ)) : SharedState ℚ :=
  (run (nextState atTheMoney true) (traderStart 50000000) history).shared

theorem not_noSelfCross {s : SharedState ℚ} {strike : Int} {expiry : String} {right : Char}
    (h : ∃ buy ∈ s.ourOrders.lookup (strike, expiry, right, 'B'),
      ∃ sell ∈ s.ourOrders.lookup (strike, expiry, right, 'S'), sell.price ≤ buy.price) :
    ¬ NoSelfCross s := by
  obtain ⟨buy, hbuy, sell, hsell, hcrossed⟩ := h
  intro hapart
  exact absurd (hapart strike expiry right buy hbuy sell hsell) hcrossed.not_gt

theorem resting_sides_cross :
    ¬ NoSelfCross (after offerInFlight) ∧ ¬ NoSelfCross (after lateAmend) ∧
      ¬ NoSelfCross (after noEdge) ∧ ¬ NoSelfCross (after untrackedOffer) := by
  have hcrossed {history : List (TraderStep ℚ)}
      (h : ∃ buy ∈ (after history).ourOrders.lookup (60000, "20260526", 'C', 'B'),
        ∃ sell ∈ (after history).ourOrders.lookup (60000, "20260526", 'C', 'S'),
          sell.price ≤ buy.price) : ¬ NoSelfCross (after history) := not_noSelfCross h
  exact ⟨hcrossed (by decide +kernel), hcrossed (by decide +kernel),
    hcrossed (by decide +kernel), hcrossed (by decide +kernel)⟩

/-- **The sides stay apart.** In a run in which every tick that prices a side alone finds the
order on the other side not passed by the theo or by the mid of its book, with an edge wider
than the rounding, in which every amend of a pass still moves its order away when it is
written, and in which no ack reports an untracked order across our own, no bid rests at or
above our own offer. -/
theorem sides_stay_apart (pricing : Pricing ℚ) (placesOrders : Bool) (burstWindowNs : Nat)
    (history : List (TraderStep ℚ))
    (hkeeps : Meets (nextState pricing placesOrders) (KeepsClear pricing placesOrders)
      (traderStart burstWindowNs) history) (front : List (TraderStep ℚ))
    (hfront : front <+: history) :
    NoSelfCross
      (run (nextState pricing placesOrders) (traderStart burstWindowNs) front).shared := by
  obtain ⟨back, rfl⟩ := hfront
  apply run_invariant_of_meets (fun s : TraderSys ℚ => NoSelfCross s.shared) ?_ ?_ front
    hkeeps.front
  · exact fun s st hcond h => h.step hcond
  · intro strike expiry right buy hbuy
    cases hbuy

/-- The book shows the offer that is on its way, the bid follows the theo up to it, and
the next pass moves the offer on. -/
def offerInBook : List (TraderStep ℚ) :=
  opening ++
    [callTick 1000000000 (3600 / 10000) (3640 / 10000), ackOf 1100000000 7 "BUY" (3575 / 10000),
      callTick 2000000000 (3550 / 10000) (3620 / 10000), futureAt 2050000000 (601 / 100),
      callTick 2100000000 (3590 / 10000) (3595 / 10000),
      ackOf 2200000000 8 "SELL" (3595 / 10000)] ++
    onePass 2300000000

theorem sides_stay_apart_offerInBook :
    ((after offerInBook).ourOrders.lookup (60000, "20260526", 'C', 'B')).map OurOrder.price =
        some (3585 / 10000) ∧
      ((after offerInBook).ourOrders.lookup (60000, "20260526", 'C', 'S')).map OurOrder.price =
        some (3650 / 10000) ∧
      NoSelfCross (after offerInBook) :=
  ⟨by decide +kernel, by decide +kernel,
    sides_stay_apart atTheMoney true 50000000 offerInBook (by decide +kernel) _
      (List.prefix_refl _)⟩

end Corsair.Ports.SelfCross
