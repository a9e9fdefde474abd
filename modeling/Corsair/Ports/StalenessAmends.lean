import Corsair.Ports.SelfCross

/-!
# The prices of staleness amends

The staleness loop amends an order that has come to lie more than a tick on the wrong side of
theo.  It takes the edge from the theo and goes to the nearest multiple of the tick size.  That
is less than the drift, so the order always moves away from the market.

`decide_on_tick` does not quote at a price that is not positive; the staleness loop does not
ask.

Prices are computed exactly here (`ℚ`).

## Main results

* `mem_collectActions_modify` — the orders that have drifted are amended.
* `staleness_amends_valid_iff` — the amends that keep a valid price.
-/

namespace Corsair.Ports.StalenessAmends

open Corsair.Verified
open Corsair.Verified.Runs
open Corsair.Ports.TraderState
open Corsair.Ports.DecideOnTick
open Corsair.Ports.Trader
open Corsair.Ports.OrderTracking
open Corsair.Ports.TraderHalt
open Corsair.Ports.SelfCross

/-! ## One order -/

/-- A bid goes down and an offer goes up. -/
def StrictlyAway (key : OurOrderKey) (old new : ℚ) : Prop :=
  if key.2.2.2 = 'B' then new < old else old < new

section Order

variable {snap : ScalarState ℚ} {key : OurOrderKey} {order : OurOrder ℚ} {theo : ℚ}

theorem strictlyAway_refreshed (htick : 0 < snap.tickSize) (hedge : 0 ≤ snap.minEdgeTicks)
    (hdrift : drifted snap key order theo = true) :
    StrictlyAway key order.price (refreshed snap key theo) := by
  have hapart := refreshed_apart htick hedge hdrift
  unfold StrictlyAway
  split_ifs at hapart ⊢ with hside
  · linarith
  · linarith

/-- A bid that has drifted is amended to a positive price just if its edge reaches half a tick,
and so is an offer. -/
theorem refreshed_pos_iff (htick : 0 < snap.tickSize) :
    0 < refreshed snap key theo ↔ snap.tickSize / 2 ≤ edgeFrom snap key theo :=
  grid_pos_iff (edgeFrom snap key theo) htick

end Order

/-! ## A pass -/

/-- What an amend does to the order at the key: it moves it away from the market, to the tick
grid next to its edge, and to a price above zero. -/
structure ValidAmend (snap : ScalarState ℚ) (key : OurOrderKey) (old theo new : ℚ) : Prop where
  away : StrictlyAway key old new
  onGrid : ∃ n : Int, new = n * snap.tickSize
  nearEdge : |new - edgeFrom snap key theo| ≤ snap.tickSize / 2
  positive : 0 < new

theorem validAmend_iff {snap : ScalarState ℚ} {key : OurOrderKey} {order : OurOrder ℚ} {theo : ℚ}
    (htick : 0 < snap.tickSize) (hedge : 0 ≤ snap.minEdgeTicks)
    (hdrift : drifted snap key order theo = true) :
    ValidAmend snap key order.price theo (refreshed snap key theo) ↔
      snap.tickSize / 2 ≤ edgeFrom snap key theo := by
  rw [← refreshed_pos_iff htick]
  constructor
  · intro h
    exact h.positive
  · intro h
    exact ⟨strictlyAway_refreshed htick hedge hdrift, ⟨_, rfl⟩, abs_grid_sub_le _ htick, h⟩

/-- The amends that a pass collects: of the acknowledged orders that have drifted. -/
theorem mem_collectActions_modify {pricing : Pricing ℚ} {s : SharedState ℚ} {clock : Clock ℚ}
    {key : OurOrderKey} {orderId : Int} {price : ℚ}
    (htick : 0 < s.scalars.tickSize) (hedge : 0 ≤ s.scalars.minEdgeTicks) :
    Action.modify orderId key price ∈ collectActions pricing s clock ↔
      ∃ order theo, s.ourOrders.lookup key = some order ∧ order.orderId = some orderId ∧
        restingTheo pricing s clock key = some theo ∧
        drifted s.scalars key order theo = true ∧ price = refreshed s.scalars key theo := by
  constructor
  · intro h
    obtain ⟨⟨key', order⟩, hentry, haction⟩ := List.mem_filterMap.mp h
    obtain ⟨hkey, horderId⟩ := orderId_stalenessAction haction
    obtain rfl : key = key' := hkey
    have horder := List.mem_dlookup s.ourOrders.nodupKeys hentry
    unfold stalenessAction at haction
    split at haction
    · rename_i id theo _ htheo
      split at haction
      · rename_i hdrift
        rw [refreshPrice_of_drifted htick hedge hdrift] at haction
        obtain ⟨-, -, rfl⟩ := Action.modify.inj (Option.some.inj haction)
        exact ⟨order, theo, horder, horderId, htheo, hdrift, rfl⟩
      · split at haction
        · split at haction
          · cases haction
          · cases haction
        · cases haction
    · cases haction
  · rintro ⟨order, theo, horder, horderId, htheo, hdrift, rfl⟩
    refine List.mem_filterMap.mpr ⟨⟨key, order⟩, AList.mem_lookup_iff.mp horder, ?_⟩
    simp only [stalenessAction, horderId, htheo, hdrift, if_true,
      refreshPrice_of_drifted htick hedge hdrift, Option.map_some]

/-- **Where staleness amends are valid.** All amends of a pass are just if the edge of every
order that has drifted is at least half a tick. -/
theorem staleness_amends_valid_iff (pricing : Pricing ℚ) (s : SharedState ℚ) (clock : Clock ℚ)
    (htick : 0 < s.scalars.tickSize) (hedge : 0 ≤ s.scalars.minEdgeTicks) :
    (∀ orderId key price, Action.modify orderId key price ∈ collectActions pricing s clock →
        ∃ order theo, s.ourOrders.lookup key = some order ∧
          restingTheo pricing s clock key = some theo ∧
          ValidAmend s.scalars key order.price theo price) ↔
      ∀ key order theo, s.ourOrders.lookup key = some order → order.orderId.isSome = true →
        restingTheo pricing s clock key = some theo →
        drifted s.scalars key order theo = true →
        s.scalars.tickSize / 2 ≤ edgeFrom s.scalars key theo := by
  constructor
  · intro hvalid key order theo horder hacked htheo hdrift
    obtain ⟨orderId, horderId⟩ := Option.isSome_iff_exists.mp hacked
    obtain ⟨order', theo', horder', htheo', hamend⟩ := hvalid orderId key _
      ((mem_collectActions_modify htick hedge).mpr
        ⟨order, theo, horder, horderId, htheo, hdrift, rfl⟩)
    obtain rfl := Option.some.inj (horder.symm.trans horder')
    obtain rfl := Option.some.inj (htheo.symm.trans htheo')
    exact (validAmend_iff htick hedge hdrift).mp hamend
  · intro hedges orderId key price hmodify
    obtain ⟨order, theo, horder, horderId, htheo, hdrift, rfl⟩ :=
      (mem_collectActions_modify htick hedge).mp hmodify
    exact ⟨order, theo, horder, htheo, (validAmend_iff htick hedge hdrift).mpr
      (hedges key order theo horder (by rw [horderId]; rfl) htheo hdrift)⟩

/-! The bid of 0.5 on the 6.00 call, worth 0.3587, when the future falls to 5.00 and the theo to
the 0.01 that it is not below. -/

/-- An edge of so many ticks is configured. -/
def edgeOf (minEdgeTicks : Int) : TraderStep ℚ :=
  .event
    (.hello
      { config := some
          { minEdgeTicks := some minEdgeTicks
            tickSize := none
            deltaCeiling := none
            marginCeilingPct := none
            contractMultiplier := none
            gtdLifetimeS := none
            gtdRefreshLeadS := none
            deadBandTicks := none
            skipIfSpreadOverEdgeMul := none
            thetaKill := none
            vegaKill := none }
        activeKills := [] })
    (quarterYear 4) fun _ => true

def fallen (minEdgeTicks : Int) : SharedState ℚ :=
  after (overpricedBid ++ [edgeOf minEdgeTicks, futureAt 5 5])

/-- With an edge of 20 ticks the bid is amended to zero. -/
theorem staleness_amends_to_zero :
    ¬ ∀ (pricing : Pricing ℚ) (s : SharedState ℚ) (clock : Clock ℚ),
      0 < s.scalars.tickSize → 0 ≤ s.scalars.minEdgeTicks →
      ∀ orderId key price, Action.modify orderId key price ∈ collectActions pricing s clock →
        ∃ order theo, s.ourOrders.lookup key = some order ∧
          restingTheo pricing s clock key = some theo ∧
          ValidAmend s.scalars key order.price theo price := by
  intro hall
  have hmodify : Action.modify 7 (60000, "20260526", 'C', 'B') 0 ∈
      collectActions atTheMoney (fallen 20) (quarterYear 6) := by
    decide +kernel
  obtain ⟨_, _, _, _, hvalid⟩ := hall atTheMoney (fallen 20) (quarterYear 6) (by decide +kernel)
    (by decide +kernel) 7 _ 0 hmodify
  exact lt_irrefl 0 hvalid.positive

/-- With the default of two ticks it goes to 0.009. -/
theorem staleness_amends_valid_iff_two_ticks :
    Action.modify 7 (60000, "20260526", 'C', 'B') (9 / 1000) ∈
        collectActions atTheMoney (fallen 2) (quarterYear 6) ∧
      ((∀ orderId key price,
          Action.modify orderId key price ∈ collectActions atTheMoney (fallen 2) (quarterYear 6) →
          ∃ order theo, (fallen 2).ourOrders.lookup key = some order ∧
            restingTheo atTheMoney (fallen 2) (quarterYear 6) key = some theo ∧
            ValidAmend (fallen 2).scalars key order.price theo price) ↔
        ∀ key order theo, (fallen 2).ourOrders.lookup key = some order →
          order.orderId.isSome = true →
          restingTheo atTheMoney (fallen 2) (quarterYear 6) key = some theo →
          drifted (fallen 2).scalars key order theo = true →
          (fallen 2).scalars.tickSize / 2 ≤ edgeFrom (fallen 2).scalars key theo) :=
  ⟨by decide +kernel, staleness_amends_valid_iff atTheMoney (fallen 2) (quarterYear 6)
    (by decide +kernel) (by decide +kernel)⟩

end Corsair.Ports.StalenessAmends
