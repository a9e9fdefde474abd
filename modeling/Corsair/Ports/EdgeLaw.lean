import Corsair.Ports.SelfCross

/-!
# What the roundings leave of a price

A tick prices a side the edge away from the theo and from the mid, and does so exactly: the
cap is taken after the jump and the cross check.  The price then goes to the nearest multiple
of the tick size, and to four decimal places, and nothing is checked after that.  Half of
the prices move towards the market.

So a bid may rest less than the edge below the theo or the mid, at the offer it was just
found to be below, or at zero; an offer likewise.

Prices are computed exactly here (`ℚ`).

## Main results

* `edge_law_iff` — the prices that keep the edge.
* `no_cross_iff` — the prices that stay on their side of the external book.
* `edgeSurvives_buy_of_wholeTick`, `edgeSurvives_sell_of_wholeTick` — the edge on a tick size of
  four places: the part of a tick that a price lies past the grid decides.
-/

namespace Corsair.Ports.EdgeLaw

open Corsair.Verified
open Corsair.Verified.Runs
open Corsair.Ports.TraderState
open Corsair.Ports.DecideOnTick
open Corsair.Ports.Trader
open Corsair.Ports.TraderHalt
open Corsair.Ports.FailSafeGates
open Corsair.Ports.SelfCross

/-! ## The two roundings -/

section Rounding

variable {tickSize x : ℚ}

/-- The multiple of the tick size nearest to a price, the upper of two. -/
def gridPoint (tickSize x : ℚ) : ℚ := ⌊x / tickSize + 1 / 2⌋ * tickSize

/-- To the tick, and to four decimal places. -/
def rounded (tickSize x : ℚ) : ℚ :=
  F64.round (F64.round (x / tickSize) * tickSize * F64.lit 10000 0) / F64.lit 10000 0

theorem gridPoint_nonneg (htick : 0 < tickSize) (hx : 0 < x) : 0 ≤ gridPoint tickSize x := by
  have hquotient : 0 < x / tickSize := div_pos hx htick
  have hfloor : 0 ≤ ⌊x / tickSize + 1 / 2⌋ := Int.floor_nonneg.mpr (by linarith)
  exact mul_nonneg (by exact_mod_cast hfloor) htick.le

theorem rounded_eq (htick : 0 < tickSize) (hx : 0 < x) :
    rounded tickSize x = ratRound (10000 * gridPoint tickSize x) / 10000 := by
  have hlit : (F64.lit 10000 0 : ℚ) = 10000 := by simp [rat_lit]
  have hgrid : (F64.round (x / tickSize) : ℚ) = ⌊x / tickSize + 1 / 2⌋ :=
    congrArg (Int.cast : Int → ℚ) (ratRound_of_nonneg (div_pos hx htick).le)
  rw [rounded, hgrid, hlit, mul_comm _ (10000 : ℚ)]
  rfl

/-- A price in units of the fourth place. -/
theorem div_le_iff_le_floor (n : Int) (bound : ℚ) :
    (n : ℚ) / 10000 ≤ bound ↔ n ≤ ⌊10000 * bound⌋ := by
  rw [div_le_iff₀' (by norm_num), Int.le_floor]

theorem le_div_iff_ceil_le (n : Int) (bound : ℚ) :
    bound ≤ (n : ℚ) / 10000 ↔ ⌈10000 * bound⌉ ≤ n := by
  rw [le_div_iff₀' (by norm_num), Int.ceil_le]

theorem rounded_le_iff (htick : 0 < tickSize) (hx : 0 < x) (bound : ℚ) :
    rounded tickSize x ≤ bound ↔
      10000 * gridPoint tickSize x + 1 / 2 < ⌊10000 * bound⌋ + 1 := by
  have hpoint : 0 ≤ 10000 * gridPoint tickSize x := by
    have := gridPoint_nonneg htick hx
    linarith
  rw [rounded_eq htick hx, div_le_iff_le_floor, ← Int.lt_add_one_iff, ratRound_lt hpoint]
  push_cast
  rfl

theorem le_rounded_iff (htick : 0 < tickSize) (hx : 0 < x) (bound : ℚ) :
    bound ≤ rounded tickSize x ↔ ⌈10000 * bound⌉ ≤ 10000 * gridPoint tickSize x + 1 / 2 := by
  have hpoint : 0 ≤ 10000 * gridPoint tickSize x := by
    have := gridPoint_nonneg htick hx
    linarith
  rw [rounded_eq htick hx, le_div_iff_ceil_le, le_ratRound hpoint]

theorem rounded_lt_iff (htick : 0 < tickSize) (hx : 0 < x) (bound : ℚ) :
    rounded tickSize x < bound ↔ 10000 * gridPoint tickSize x + 1 / 2 < ⌈10000 * bound⌉ := by
  rw [← not_le, le_rounded_iff htick hx, not_le]

theorem lt_rounded_iff (htick : 0 < tickSize) (hx : 0 < x) (bound : ℚ) :
    bound < rounded tickSize x ↔
      ⌊10000 * bound⌋ + 1 ≤ 10000 * gridPoint tickSize x + 1 / 2 := by
  rw [← not_le, rounded_le_iff htick hx, not_lt]

end Rounding

/-- The multiple of the tick size that a side is quoted at, up to its fourth place. -/
def quotePoint (c : QuoteContext ℚ) (side : Side) : ℚ :=
  gridPoint c.snap.tickSize (edgePrice c side)

/-! ## The edge -/

/-- A price above zero with the whole edge. -/
def WholeEdge (c : QuoteContext ℚ) : Side → ℚ → Prop
  | .buy, price => 0 < price ∧ price ≤ min c.theo (mid c) - c.edge
  | .sell, price => 0 < price ∧ max c.theo (mid c) + c.edge ≤ price

instance (c : QuoteContext ℚ) (side : Side) (price : ℚ) : Decidable (WholeEdge c side price) := by
  cases side <;> unfold WholeEdge <;> infer_instance

/-- The roundings leave the edge.  A bid: the multiple of the tick size nearest to its exact
price is less than half of the fourth place past the last four places that are not above that
price, and is not below the middle of the first.  An offer: it reaches the first four places
that are not below its price, or the middle before them. -/
def EdgeSurvives (c : QuoteContext ℚ) : Side → Prop
  | .buy =>
      1 ≤ 10000 * quotePoint c .buy + 1 / 2 ∧
        10000 * quotePoint c .buy + 1 / 2 < ⌊10000 * edgePrice c .buy⌋ + 1
  | .sell => ⌈10000 * edgePrice c .sell⌉ ≤ 10000 * quotePoint c .sell + 1 / 2

instance (c : QuoteContext ℚ) (side : Side) : Decidable (EdgeSurvives c side) := by
  cases side <;> unfold EdgeSurvives <;> infer_instance

theorem wholeEdge_iff {c : QuoteContext ℚ} {side : Side} {price : ℚ}
    (htick : 0 < c.snap.tickSize) (h : quoteTarget c side = .ok price) :
    WholeEdge c side price ↔ EdgeSurvives c side := by
  obtain ⟨hpositive, -, hprice⟩ := quoteTarget_ok h
  have hrounded : price = rounded c.snap.tickSize (edgePrice c side) := hprice
  cases side with
  | buy =>
      have hzero : 0 < price ↔ 1 ≤ 10000 * quotePoint c .buy + 1 / 2 := by
        rw [hrounded, lt_rounded_iff htick hpositive, mul_zero, Int.floor_zero, Int.cast_zero,
          zero_add]
        rfl
      have hedge : price ≤ edgePrice c .buy ↔
          10000 * quotePoint c .buy + 1 / 2 < ⌊10000 * edgePrice c .buy⌋ + 1 := by
        rw [hrounded]
        exact rounded_le_iff htick hpositive _
      exact and_congr hzero hedge
  | sell =>
      have hedge : edgePrice c .sell ≤ price ↔ EdgeSurvives c .sell := by
        rw [hrounded]
        exact le_rounded_iff htick hpositive _
      show 0 < price ∧ edgePrice c .sell ≤ price ↔ EdgeSurvives c .sell
      rw [hedge]
      exact and_iff_right_of_imp fun hkeeps => hpositive.trans_le (hedge.mpr hkeeps)

/-! ### A tick size of four places -/

section WholeTick

variable {c : QuoteContext ℚ} {places : ℕ}

theorem nearest_le_iff (ticks : ℚ) : (⌊ticks + 1 / 2⌋ : ℚ) ≤ ticks ↔ Int.fract ticks < 1 / 2 := by
  have hsplit : (⌊ticks⌋ : ℚ) + Int.fract ticks = ticks := Int.floor_add_fract ticks
  calc (⌊ticks + 1 / 2⌋ : ℚ) ≤ ticks ↔ ⌊ticks + 1 / 2⌋ ≤ ⌊ticks⌋ := Int.le_floor.symm
    _ ↔ ⌊ticks + 1 / 2⌋ < ⌊ticks⌋ + 1 := Int.lt_add_one_iff.symm
    _ ↔ ticks + 1 / 2 < (⌊ticks⌋ + 1 : Int) := Int.floor_lt
    _ ↔ Int.fract ticks < 1 / 2 := by
      push_cast
      constructor
      · intro h
        linarith
      · intro h
        linarith

theorem le_nearest_iff (ticks : ℚ) :
    ticks ≤ (⌊ticks + 1 / 2⌋ : ℚ) ↔ Int.fract ticks = 0 ∨ 1 / 2 ≤ Int.fract ticks := by
  have hsplit : (⌊ticks⌋ : ℚ) + Int.fract ticks = ticks := Int.floor_add_fract ticks
  have hle := Int.floor_le (ticks + 1 / 2)
  constructor
  · intro h
    by_contra hbetween
    obtain ⟨hne, hlt⟩ := not_or.mp hbetween
    have hdown : ⌊ticks + 1 / 2⌋ ≤ ⌊ticks⌋ :=
      Int.le_floor.mpr ((nearest_le_iff ticks).mpr (not_le.mp hlt))
    have hcast : (⌊ticks + 1 / 2⌋ : ℚ) ≤ ⌊ticks⌋ := by exact_mod_cast hdown
    have hnonneg := Int.fract_nonneg ticks
    exact hne (by linarith)
  · rintro (hzero | hhalf)
    · have hdown : ⌊ticks⌋ ≤ ⌊ticks + 1 / 2⌋ := Int.floor_le_floor (by linarith)
      have hcast : (⌊ticks⌋ : ℚ) ≤ ⌊ticks + 1 / 2⌋ := by exact_mod_cast hdown
      linarith
    · have hup : ⌊ticks⌋ + 1 ≤ ⌊ticks + 1 / 2⌋ := by
        rw [Int.le_floor]
        push_cast
        linarith
      have hcast : (⌊ticks⌋ : ℚ) + 1 ≤ ⌊ticks + 1 / 2⌋ := by exact_mod_cast hup
      have hbelow := Int.fract_lt_one ticks
      linarith

/-- Between two integers a half makes no difference. -/
theorem add_half_lt_iff (n k : Int) : (n : ℚ) + 1 / 2 < k ↔ n < k := by
  constructor
  · intro h
    have hlt : (n : ℚ) < k := by linarith
    exact_mod_cast hlt
  · intro h
    have hle : (n : ℚ) + 1 ≤ k := by exact_mod_cast h
    linarith

theorem le_add_half_iff (n k : Int) : (k : ℚ) ≤ n + 1 / 2 ↔ k ≤ n := by
  rw [← not_lt, add_half_lt_iff, not_lt]

/-- The multiples of the tick size are prices of four places. -/
theorem quotePoint_wholeTick (htick : c.snap.tickSize = places / 10000) (side : Side) :
    10000 * quotePoint c side =
      (⌊edgePrice c side / c.snap.tickSize + 1 / 2⌋ * places : Int) := by
  rw [quotePoint, gridPoint]
  push_cast
  rw [htick]
  ring

theorem edgePrice_wholeTick (hplaces : 0 < places) (htick : c.snap.tickSize = places / 10000)
    (side : Side) :
    10000 * edgePrice c side = edgePrice c side / c.snap.tickSize * places := by
  have hne : (places : ℚ) ≠ 0 := by exact_mod_cast hplaces.ne'
  rw [htick]
  field_simp

/-- A bid keeps its edge where its exact price is a whole tick at least and lies in the
lower half of its tick. -/
theorem edgeSurvives_buy_of_wholeTick (hplaces : 0 < places)
    (htick : c.snap.tickSize = places / 10000) :
    EdgeSurvives c .buy ↔
      1 ≤ edgePrice c .buy / c.snap.tickSize ∧
        Int.fract (edgePrice c .buy / c.snap.tickSize) < 1 / 2 := by
  have hpos : (0 : ℚ) < places := by exact_mod_cast hplaces
  have hposInt : (0 : Int) < places := by exact_mod_cast hplaces
  simp only [EdgeSurvives]
  rw [quotePoint_wholeTick htick, edgePrice_wholeTick hplaces htick, ← nearest_le_iff]
  generalize edgePrice c .buy / c.snap.tickSize = ticks
  have hone : (1 : ℚ) ≤ (⌊ticks + 1 / 2⌋ * places : Int) + 1 / 2 ↔ 1 ≤ ⌊ticks + 1 / 2⌋ := by
    have hunits := le_add_half_iff (⌊ticks + 1 / 2⌋ * places) 1
    rw [Int.cast_one] at hunits
    rw [hunits]
    exact mul_pos_iff_of_pos_right hposInt
  have hfloor : ((⌊ticks + 1 / 2⌋ * places : Int) : ℚ) + 1 / 2 < (⌊ticks * places⌋ : ℚ) + 1 ↔
      (⌊ticks + 1 / 2⌋ : ℚ) ≤ ticks := by
    have hunits := add_half_lt_iff (⌊ticks + 1 / 2⌋ * places) (⌊ticks * places⌋ + 1)
    rw [Int.cast_add, Int.cast_one, Int.lt_add_one_iff, Int.le_floor] at hunits
    rw [hunits]
    push_cast
    exact mul_le_mul_iff_left₀ hpos
  rw [hone, hfloor]
  constructor
  · rintro ⟨hwhole, hdown⟩
    have hcast : (1 : ℚ) ≤ ⌊ticks + 1 / 2⌋ := by exact_mod_cast hwhole
    exact ⟨hcast.trans hdown, hdown⟩
  · rintro ⟨hwhole, hdown⟩
    refine ⟨Int.le_floor.mpr ?_, hdown⟩
    push_cast
    linarith

/-- An offer keeps its edge where its exact price lies in the upper half of its tick, or on
the grid. -/
theorem edgeSurvives_sell_of_wholeTick (hplaces : 0 < places)
    (htick : c.snap.tickSize = places / 10000) :
    EdgeSurvives c .sell ↔
      Int.fract (edgePrice c .sell / c.snap.tickSize) = 0 ∨
        1 / 2 ≤ Int.fract (edgePrice c .sell / c.snap.tickSize) := by
  have hpos : (0 : ℚ) < places := by exact_mod_cast hplaces
  simp only [EdgeSurvives]
  rw [quotePoint_wholeTick htick, edgePrice_wholeTick hplaces htick, ← le_nearest_iff,
    le_add_half_iff, Int.ceil_le]
  push_cast
  exact mul_le_mul_iff_left₀ hpos

end WholeTick

/-! ### All of a tick's decisions -/

/-- One of the decisions prices the side. -/
def Quoted (decisions : List (Decision ℚ)) (side : Side) : Prop :=
  ∃ d ∈ decisions, (Decision.sets d).map Prod.fst = some side

instance (decisions : List (Decision ℚ)) (side : Side) : Decidable (Quoted decisions side) := by
  unfold Quoted
  infer_instance

/-- Where a property of a tick's prices comes down to one of its context, so it does for all
that the tick decides. -/
theorem quoted_iff {law : QuoteContext ℚ → Side → ℚ → Prop} {keeps : QuoteContext ℚ → Side → Prop}
    (pricing : Pricing ℚ) (timeToExpiry : String → Option ℚ) (s : SharedState ℚ)
    (tick : TickMsg ℚ) (right : Char) (nowMono nowWall : Nat)
    (hiff : ∀ {c side price}, c.snap = s.scalars → quoteTarget c side = .ok price →
      (law c side price ↔ keeps c side)) :
    let decisions := (decideOnTick pricing timeToExpiry s tick right nowMono nowWall).1
    let context := contextAt pricing timeToExpiry s tick right nowMono
    (∀ d ∈ decisions, ∀ side price, Decision.sets d = some (side, price) →
        ∃ c ∈ context, law c side price) ↔
      ∀ side, Quoted decisions side → ∃ c ∈ context, keeps c side := by
  intro decisions context
  constructor
  · rintro hlaw side ⟨d, hd, hside⟩
    obtain ⟨⟨side', price⟩, hsets, hsame⟩ := Option.map_eq_some_iff.mp hside
    obtain rfl : side' = side := hsame
    obtain ⟨c, hcontext, htarget⟩ := sets_decideOnTick hd hsets
    obtain ⟨c', hc', hholds⟩ := hlaw d hd side' price hsets
    obtain rfl : c = c' := Option.some.inj (hcontext.symm.trans hc')
    exact ⟨c, hcontext, (hiff (contextAt_spec hcontext).1 htarget).mp hholds⟩
  · intro hkeeps d hd side price hsets
    obtain ⟨c, hcontext, htarget⟩ := sets_decideOnTick hd hsets
    obtain ⟨c', hc', hholds⟩ := hkeeps side ⟨d, hd, congrArg (Option.map Prod.fst) hsets⟩
    obtain rfl : c = c' := Option.some.inj (hcontext.symm.trans hc')
    exact ⟨c, hcontext, (hiff (contextAt_spec hcontext).1 htarget).mpr hholds⟩

/-- **The edge of a tick's prices.** What a tick decides keeps the edge just if the roundings
leave it on every side that it quotes. -/
theorem edge_law_iff (pricing : Pricing ℚ) (timeToExpiry : String → Option ℚ)
    (s : SharedState ℚ) (tick : TickMsg ℚ) (right : Char) (nowMono nowWall : Nat)
    (htick : 0 < s.scalars.tickSize) :
    let decisions := (decideOnTick pricing timeToExpiry s tick right nowMono nowWall).1
    let context := contextAt pricing timeToExpiry s tick right nowMono
    (∀ d ∈ decisions, ∀ side price, Decision.sets d = some (side, price) →
        ∃ c ∈ context, WholeEdge c side price) ↔
      ∀ side, Quoted decisions side → ∃ c ∈ context, EdgeSurvives c side :=
  quoted_iff pricing timeToExpiry s tick right nowMono nowWall
    fun hsnap htarget => wholeEdge_iff (hsnap ▸ htick) htarget

/-! The 6.00 call of the market that has opened, with the configured tick of 0.0005 and edge
of two ticks. -/

/-- The book of the call, and of its depth the best bid and offer. -/
def bookOf (bid ask : ℚ) (depthBid0 depthAsk0 : Option ℚ) : TickMsg ℚ :=
  { strike := 6
    expiry := "20260526"
    right := "C"
    bid := some bid
    ask := some ask
    bidSize := some 5
    askSize := some 5
    tsNs := none
    brokerRecvNs := none
    depthBid0 := depthBid0
    depthBid1 := none
    depthAsk0 := depthAsk0
    depthAsk1 := none }

/-- What the call's tick decides one second after the start. -/
def decided (history : List (TraderStep ℚ)) (tick : TickMsg ℚ) : List (Decision ℚ) :=
  (decideOnTick atTheMoney (quarterYear 1000000000).timeToExpiry (after history) tick 'C'
    1000000000 1000000000).1

def contextOf (history : List (TraderStep ℚ)) (tick : TickMsg ℚ) : Option (QuoteContext ℚ) :=
  contextAt atTheMoney (quarterYear 1000000000).timeToExpiry (after history) tick 'C' 1000000000

/-- A decision priced against a law. -/
theorem not_law {law : QuoteContext ℚ → Side → ℚ → Prop} {decisions : List (Decision ℚ)}
    {context : Option (QuoteContext ℚ)}
    (h : ∃ d ∈ decisions, ∃ set ∈ Decision.sets d, ∀ c ∈ context, ¬ law c set.1 set.2) :
    ¬ ∀ d ∈ decisions, ∀ side price, Decision.sets d = some (side, price) →
        ∃ c ∈ context, law c side price := by
  obtain ⟨d, hd, ⟨side, price⟩, hsets, hbroken⟩ := h
  intro hlaw
  obtain ⟨c, hcontext, hholds⟩ := hlaw d hd side price hsets
  exact hbroken c hcontext hholds

/-- The best bid and offer are 0.3571 and 0.3596: the bid goes up to 0.3575, from 0.35735, and
the offer down to 0.3595, from 0.3597. -/
def narrowBook : TickMsg ℚ := bookOf (3571 / 10000) (3596 / 10000) none none

/-- They are 0.0010 and 0.0014, and the depth has another offer: the bid goes to zero. -/
def pennyBook : TickMsg ℚ := bookOf (10 / 10000) (14 / 10000) none (some (3640 / 10000))

theorem rounded_into_the_edge :
    (0 < (after opening).scalars.tickSize ∧ 0 ≤ (after opening).scalars.minEdgeTicks) ∧
      (¬ ∀ d ∈ decided opening narrowBook, ∀ side price, Decision.sets d = some (side, price) →
          ∃ c ∈ contextOf opening narrowBook, WholeEdge c side price) ∧
      (¬ ∀ d ∈ decided opening pennyBook, ∀ side price, Decision.sets d = some (side, price) →
          ∃ c ∈ contextOf opening pennyBook, WholeEdge c side price) ∧
      ∃ d ∈ decided opening pennyBook, Decision.sets d = some (.buy, 0) :=
  ⟨by decide +kernel, not_law (by decide +kernel), not_law (by decide +kernel),
    by decide +kernel⟩

/-- The best bid and offer are 0.3600 and 0.3640: the bid goes down to 0.3575, from
0.3577. -/
def wideBook : TickMsg ℚ := bookOf (3600 / 10000) (3640 / 10000) none none

theorem edge_law_iff_lower_half :
    Quoted (decided opening wideBook) .buy ∧
      ∀ d ∈ decided opening wideBook, ∀ side price, Decision.sets d = some (side, price) →
        ∃ c ∈ contextOf opening wideBook, WholeEdge c side price := by
  have hsurvives (side : Side) (h : Quoted (decided opening wideBook) side) :
      ∃ c ∈ contextOf opening wideBook, EdgeSurvives c side := by
    cases side with
    | buy => decide +kernel
    | sell => exact absurd h (by decide +kernel)
  exact ⟨by decide +kernel, (edge_law_iff atTheMoney (quarterYear 1000000000).timeToExpiry
    (after opening) wideBook 'C' 1000000000 1000000000 (by decide +kernel)).mpr hsurvives⟩

/-! ## The external book -/

/-- The price does not reach the best external price of the other side, where there is
one. -/
def NoCross (c : QuoteContext ℚ) : Side → ℚ → Prop
  | .buy, price => 0 < c.ask → price < c.ask
  | .sell, price => 0 < c.bid → c.bid < price

instance (c : QuoteContext ℚ) (side : Side) (price : ℚ) : Decidable (NoCross c side price) := by
  cases side <;> unfold NoCross <;> infer_instance

/-- The roundings do not reach the external price: the multiple of the tick size nearest to
the exact price stays half of the fourth place clear of it. -/
def ClearSurvives (c : QuoteContext ℚ) : Side → Prop
  | .buy => 0 < c.ask → 10000 * quotePoint c .buy + 1 / 2 < ⌈10000 * c.ask⌉
  | .sell => 0 < c.bid → ⌊10000 * c.bid⌋ + 1 ≤ 10000 * quotePoint c .sell + 1 / 2

instance (c : QuoteContext ℚ) (side : Side) : Decidable (ClearSurvives c side) := by
  cases side <;> unfold ClearSurvives <;> infer_instance

theorem noCross_iff {c : QuoteContext ℚ} {side : Side} {price : ℚ}
    (htick : 0 < c.snap.tickSize) (h : quoteTarget c side = .ok price) :
    NoCross c side price ↔ ClearSurvives c side := by
  obtain ⟨hpositive, -, hprice⟩ := quoteTarget_ok h
  have hrounded : price = rounded c.snap.tickSize (edgePrice c side) := hprice
  cases side with
  | buy =>
      refine imp_congr_right fun _ => ?_
      rw [hrounded]
      exact rounded_lt_iff htick hpositive _
  | sell =>
      refine imp_congr_right fun _ => ?_
      rw [hrounded]
      exact lt_rounded_iff htick hpositive _

/-- On a tick size of four places, a bid stays below an external offer on the grid where
more than half a tick lies between them. -/
theorem clearSurvives_buy_of_wholeTick {c : QuoteContext ℚ} {places : ℕ} {ticks : Int}
    (hplaces : 0 < places) (htick : c.snap.tickSize = places / 10000)
    (hask : c.ask = ticks * c.snap.tickSize) :
    ClearSurvives c .buy ↔ (0 < c.ask → edgePrice c .buy + c.snap.tickSize / 2 < c.ask) := by
  have hposInt : (0 : Int) < places := by exact_mod_cast hplaces
  have hposTick : 0 < c.snap.tickSize := by
    rw [htick]
    positivity
  have hunits : 10000 * c.ask = (ticks * places : Int) := by
    rw [hask, htick]
    push_cast
    ring
  have hticks : edgePrice c .buy + c.snap.tickSize / 2 =
      (edgePrice c .buy / c.snap.tickSize + 1 / 2) * c.snap.tickSize := by
    field_simp
  refine imp_congr_right fun _ => ?_
  rw [quotePoint_wholeTick htick, hunits, Int.ceil_intCast, add_half_lt_iff, hticks, hask,
    mul_lt_mul_iff_left₀ hposInt, mul_lt_mul_iff_left₀ hposTick]
  exact Int.floor_lt

/-- An offer stays above an external bid on the grid where half a tick lies between
them. -/
theorem clearSurvives_sell_of_wholeTick {c : QuoteContext ℚ} {places : ℕ} {ticks : Int}
    (hplaces : 0 < places) (htick : c.snap.tickSize = places / 10000)
    (hbid : c.bid = ticks * c.snap.tickSize) :
    ClearSurvives c .sell ↔ (0 < c.bid → c.bid + c.snap.tickSize / 2 ≤ edgePrice c .sell) := by
  have hposInt : (0 : Int) < places := by exact_mod_cast hplaces
  have hposTick : 0 < c.snap.tickSize := by
    rw [htick]
    positivity
  have hunits : 10000 * c.bid = (ticks * places : Int) := by
    rw [hbid, htick]
    push_cast
    ring
  have hticks : edgePrice c .sell - c.snap.tickSize / 2 =
      (edgePrice c .sell / c.snap.tickSize - 1 / 2) * c.snap.tickSize := by
    field_simp
  refine imp_congr_right fun _ => ?_
  have hgrid : ⌊10000 * c.bid⌋ + 1 ≤ 10000 * quotePoint c .sell + 1 / 2 ↔
      ticks + 1 ≤ ⌊edgePrice c .sell / c.snap.tickSize + 1 / 2⌋ := by
    have hhalf := le_add_half_iff (⌊edgePrice c .sell / c.snap.tickSize + 1 / 2⌋ * places)
      (ticks * places + 1)
    rw [quotePoint_wholeTick htick, hunits, Int.floor_intCast]
    push_cast at hhalf ⊢
    rw [hhalf, Int.add_one_le_iff, Int.add_one_le_iff, mul_lt_mul_iff_left₀ hposInt]
  rw [hgrid, Int.le_floor, ← le_sub_iff_add_le, hticks, hbid, mul_le_mul_iff_left₀ hposTick]
  push_cast
  constructor
  · intro h
    linarith
  · intro h
    linarith

/-- **The external book and a tick's prices.** What a tick decides stays on its side of the
external book just if the roundings do not reach it on any side that it quotes. -/
theorem no_cross_iff (pricing : Pricing ℚ) (timeToExpiry : String → Option ℚ)
    (s : SharedState ℚ) (tick : TickMsg ℚ) (right : Char) (nowMono nowWall : Nat)
    (htick : 0 < s.scalars.tickSize) :
    let decisions := (decideOnTick pricing timeToExpiry s tick right nowMono nowWall).1
    let context := contextAt pricing timeToExpiry s tick right nowMono
    (∀ d ∈ decisions, ∀ side price, Decision.sets d = some (side, price) →
        ∃ c ∈ context, NoCross c side price) ↔
      ∀ side, Quoted decisions side → ∃ c ∈ context, ClearSurvives c side :=
  quoted_iff pricing timeToExpiry s tick right nowMono nowWall
    fun hsnap htarget => noCross_iff (hsnap ▸ htick) htarget

/-- No edge is configured and the book is 0.3585 at 0.3589: the offer goes down to the bid,
from the theo of 0.3587. -/
def lockedBook : TickMsg ℚ := bookOf (3585 / 10000) (3589 / 10000) none none

/-- With the edge: the depth has a bid at 0.3595, and the offer goes down to it from 0.3597. -/
def depthAhead : TickMsg ℚ := bookOf (3560 / 10000) (3600 / 10000) (some (3595 / 10000)) none

def noEdgeConfigured : List (TraderStep ℚ) := opening ++ [zeroEdge 1000000000]

theorem rounded_across_the_book :
    ((0 < (after noEdgeConfigured).scalars.tickSize ∧
          0 ≤ (after noEdgeConfigured).scalars.minEdgeTicks) ∧
        ¬ ∀ d ∈ decided noEdgeConfigured lockedBook, ∀ side price,
          Decision.sets d = some (side, price) →
            ∃ c ∈ contextOf noEdgeConfigured lockedBook, NoCross c side price) ∧
      (0 < (after opening).scalars.tickSize ∧ 0 ≤ (after opening).scalars.minEdgeTicks) ∧
        ¬ ∀ d ∈ decided opening depthAhead, ∀ side price, Decision.sets d = some (side, price) →
          ∃ c ∈ contextOf opening depthAhead, NoCross c side price :=
  ⟨⟨by decide +kernel, not_law (by decide +kernel)⟩, by decide +kernel, not_law (by decide +kernel)⟩

theorem no_cross_iff_clear :
    (Quoted (decided opening narrowBook) .buy ∧ Quoted (decided opening narrowBook) .sell) ∧
      ∀ d ∈ decided opening narrowBook, ∀ side price, Decision.sets d = some (side, price) →
        ∃ c ∈ contextOf opening narrowBook, NoCross c side price := by
  have hsurvives (side : Side) (_ : Quoted (decided opening narrowBook) side) :
      ∃ c ∈ contextOf opening narrowBook, ClearSurvives c side := by
    cases side with
    | buy => decide +kernel
    | sell => decide +kernel
  exact ⟨by decide +kernel, (no_cross_iff atTheMoney (quarterYear 1000000000).timeToExpiry
    (after opening) narrowBook 'C' 1000000000 1000000000 (by decide +kernel)).mpr hsurvives⟩

end Corsair.Ports.EdgeLaw
