import Corsair.Ports.NativeDecoder
import Corsair.Ports.QuoteBook
import Corsair.Ports.RestingSweep

/-!
# `corsair_broker::ipc`: two ways for a tick to the trader

The broker publishes ticks either from a hook in the dispatcher or, where the adapter has
no hook, from `forward_ticks`.  Both keep the sides of each instrument in a cache of their
own and publish all of them with every tick.  The hook fills a new entry from the market
data, and gives an entry the identity that the market data has now; `forward_ticks` starts
with an empty entry and keeps the identity that it saw first.

Each tick comes with the market data that it meets, which may have changed in any way
since the tick before it.

## Main results

* `isSome_tickFastPath` — both publish something or neither does.
* `tick_paths_agree_iff` — they publish the same exactly if every new entry has nothing to
  be filled with, and no identity changes.
-/

namespace Corsair.Ports.TickFastPath

open Corsair.Verified
open Corsair.Verified.Runs
open Corsair.Ports.Portfolio (Right Date)
open Corsair.Ports.BrokerApi (asI32)
open Corsair.Ports.PositionBook (PositionKey)
open Corsair.Ports.Fills (OptionTick)
open Corsair.Ports.NativeDecoder (TextFormats)
open Corsair.Ports.QuoteBook

/-! ## What is published -/

/-- `ConsolidatedTick`. -/
structure ConsolidatedTick (F : Type) where
  expiry : String
  right : String
  strike : F
  bid : Option F
  ask : Option F
  bidSize : Option Int
  askSize : Option Int
  deriving DecidableEq, Repr

/-- `TickEvent`. -/
structure TickEvent (F : Type) where
  strike : F
  expiry : String
  right : String
  bid : Option F
  ask : Option F
  bidSize : Option Int
  askSize : Option Int
  tsNs : Nat
  brokerRecvNs : Nat
  depthBid0 : Option F
  depthBid1 : Option F
  depthAsk0 : Option F
  depthAsk1 : Option F
  deriving DecidableEq, Repr

/-- `UnderlyingTickEvent` or `TickEvent`. -/
inductive Published (F : Type)
  | underlying (price : F) (tsNs : Nat)
  | tick (ev : TickEvent F)
  deriving DecidableEq, Repr

/-- A published event without its timestamps. -/
def Published.unstamped {F : Type} : Published F → Published F
  | .underlying price _ => .underlying price 0
  | .tick ev => .tick { ev with tsNs := 0, brokerRecvNs := 0 }

/-- The entries of a path, by instrument id. -/
abbrev TickCache (F : Type) := AList (fun _ : Nat => ConsolidatedTick F)

variable {F : Type} [F64 F]

/-- A kind that changes an entry. -/
def isConsumable : TickKind → Bool
  | .bid | .ask | .bidSize | .askSize => true
  | _ => false

def rightText : Right → String
  | .call => "C"
  | .put => "P"

/-- The entry with the side that the tick brings. -/
def ConsolidatedTick.withTick (entry : ConsolidatedTick F) (t : Tick F) : ConsolidatedTick F :=
  match t.kind with
  | .bid => { entry with bid := t.price }
  | .ask => { entry with ask := t.price }
  | .bidSize => { entry with bidSize := t.size.map asI32 }
  | .askSize => { entry with askSize := t.size.map asI32 }
  | _ => entry

/-- The event of an entry and of the depth of its leg. -/
def tickEvent (entry : ConsolidatedTick F) (depth : DepthBook F) (t : Tick F) : TickEvent F where
  strike := entry.strike
  expiry := entry.expiry
  right := entry.right
  bid := entry.bid
  ask := entry.ask
  bidSize := entry.bidSize
  askSize := entry.askSize
  tsNs := t.timestampNs
  brokerRecvNs := t.timestampNs
  depthBid0 := depth.bids[0]?.map (·.price)
  depthBid1 := depth.bids[1]?.map (·.price)
  depthAsk0 := depth.asks[0]?.map (·.price)
  depthAsk1 := depth.asks[1]?.map (·.price)

/-- The event of a tick for an underlying. -/
def underlyingEvent (t : Tick F) : Option (Published F) :=
  match t.kind with
  | .bid | .ask | .last =>
      (t.price.filter (F64.gt · F64.zero)).map fun price => .underlying price t.timestampNs
  | _ => none

/-! ## The hook -/

/-- What the hook fills a new entry with. -/
def seed (fmt : TextFormats F Date) (opt : OptionTick F) (q : LegQuote F) : ConsolidatedTick F where
  expiry := fmt.formatYmd opt.expiry
  right := rightText opt.right
  strike := opt.strike
  bid := if F64.gt q.bid F64.zero then some q.bid else none
  ask := if F64.gt q.ask F64.zero then some q.ask else none
  bidSize := if 0 < q.bidSize then some (asI32 q.bidSize) else none
  askSize := if 0 < q.askSize then some (asI32 q.askSize) else none

/-- The identity of the entry is that of the market data. -/
def sameIdentity (entry seeded : ConsolidatedTick F) : Bool :=
  F64.feq entry.strike seeded.strike && entry.expiry = seeded.expiry && entry.right = seeded.right

/-- The guard against stale keys. -/
def refreshed (entry seeded : ConsolidatedTick F) : ConsolidatedTick F :=
  if sameIdentity entry seeded then entry
  else { entry with expiry := seeded.expiry, right := seeded.right, strike := seeded.strike }

/-- The publisher that `install_tick_fastpath` installs, on one tick: the cache that it
leaves, and what it publishes. -/
def tickFastPath (fmt : TextFormats F Date) (cache : TickCache F) (md : MarketData F) (t : Tick F) :
    TickCache F × Option (Published F) :=
  if ¬ (isConsumable t.kind ∨ t.kind = .last) then (cache, none)
  else if (md.productForUnderlying t.instrumentId).isSome then (cache, underlyingEvent t)
  else if ¬ isConsumable t.kind then (cache, none)
  else
    match md.optionByIid t.instrumentId with
    | none => (cache, none)
    | some (opt, q) =>
        let seeded := seed fmt opt q
        let entry := (refreshed ((cache.lookup t.instrumentId).getD seeded) seeded).withTick t
        (cache.insert t.instrumentId entry, some (.tick (tickEvent entry q.depth t)))

/-! ## The pump -/

/-- What `forward_ticks` starts an entry with. -/
def blank (fmt : TextFormats F Date) (strike : F) (expiry : Date) (right : Right) :
    ConsolidatedTick F where
  expiry := fmt.formatYmd expiry
  right := rightText right
  strike
  bid := none
  ask := none
  bidSize := none
  askSize := none

/-- `forward_ticks`, on one tick. -/
def forwardTick (fmt : TextFormats F Date) (cache : TickCache F) (md : MarketData F) (t : Tick F) :
    TickCache F × Option (Published F) :=
  if (md.productForUnderlying t.instrumentId).isSome then (cache, underlyingEvent t)
  else if ¬ isConsumable t.kind then (cache, none)
  else
    match md.legs.optionMeta t.instrumentId with
    | none => (cache, none)
    | some (_, strike, expiry, right) =>
        let entry :=
          ((cache.lookup t.instrumentId).getD (blank fmt strike expiry right)).withTick t
        let depth := ((md.optionByIid t.instrumentId).map (·.2.depth)).getD ⟨[], []⟩
        (cache.insert t.instrumentId entry, some (.tick (tickEvent entry depth t)))

/-- What a path publishes for a sequence of ticks, each with the market data that it
meets. -/
def published (path : TickCache F → MarketData F → Tick F → TickCache F × Option (Published F)) :
    TickCache F → List (MarketData F × Tick F) → List (Published F)
  | _, [] => []
  | cache, (md, t) :: rest =>
      (path cache md t).2.toList ++ published path (path cache md t).1 rest

/-! ## One tick -/

/-- The leg of a tick that the trader reads. -/
def legOf (md : MarketData F) (t : Tick F) : Option (OptionTick F × LegQuote F) :=
  if isConsumable t.kind ∧ md.productForUnderlying t.instrumentId = none then
    md.optionByIid t.instrumentId
  else none

/-- The market data has no side of the leg but the one that the tick brings. -/
def NothingToSeed (kind : TickKind) (q : LegQuote F) : Prop :=
  (kind ≠ .bid → F64.gt q.bid F64.zero = false) ∧ (kind ≠ .ask → F64.gt q.ask F64.zero = false) ∧
    (kind ≠ .bidSize → q.bidSize = 0) ∧ (kind ≠ .askSize → q.askSize = 0)

/-- The entry has the identity of the leg. -/
def SameLeg (fmt : TextFormats F Date) (entry : ConsolidatedTick F) (opt : OptionTick F) : Prop :=
  entry.expiry = fmt.formatYmd opt.expiry ∧ entry.right = rightText opt.right ∧
    (F64.feq entry.strike opt.strike = true ∨ entry.strike = opt.strike)

/-- A new entry has nothing to be filled with, and an old one has the identity of its
leg. -/
def SameEntry (fmt : TextFormats F Date) (cache : TickCache F) (a : MarketData F × Tick F) : Prop :=
  ∀ opt q, legOf a.1 a.2 = some (opt, q) →
    match cache.lookup a.2.instrumentId with
    | none => NothingToSeed a.2.kind q
    | some entry => SameLeg fmt entry opt

/-- The meta data and the leg of an id come from one place. -/
theorem optionMeta_eq (md : MarketData F) (iid : Nat) :
    (md.legs.optionMeta iid).map (·.2) =
      (md.optionByIid iid).map fun leg => (leg.1.strike, leg.1.expiry, leg.1.right) := by
  rw [InstrumentRouting.optionMeta_map_snd]
  simp only [MarketData.optionByIid, MarketData.keyOf,
    InstrumentRouting.MarketDataState.optionByIid, Option.bind_eq_bind]
  cases md.legs.byInstrument.lookup iid with
  | none => rfl
  | some k =>
      simp only [Option.bind_some]
      cases md.legs.options.lookup k with
      | none => rfl
      | some t => rfl

/-- The hook on a tick that changes no entry: the pump does the same. -/
theorem tickFastPath_of_legOf_none {fmt : TextFormats F Date} {cache : TickCache F}
    {md : MarketData F} {t : Tick F} (h : legOf md t = none) :
    tickFastPath fmt cache md t = forwardTick fmt cache md t ∧
      (forwardTick fmt cache md t).1 = cache := by
  have hmeta := optionMeta_eq md t.instrumentId
  unfold legOf at h
  unfold tickFastPath forwardTick
  cases hunder : md.productForUnderlying t.instrumentId with
  | some product =>
      cases hkind : t.kind <;> simp [isConsumable, underlyingEvent, hkind]
  | none =>
      by_cases hconsumable : isConsumable t.kind = true
      · rw [if_pos ⟨hconsumable, hunder⟩] at h
        rw [h] at hmeta ⊢
        simp only [Option.map_none, Option.map_eq_none_iff] at hmeta
        simp [hconsumable, hmeta]
      · simp [hconsumable]

/-- The hook on a tick that changes an entry. -/
theorem tickFastPath_of_legOf {fmt : TextFormats F Date} {cache : TickCache F}
    {md : MarketData F} {t : Tick F} {opt : OptionTick F} {q : LegQuote F}
    (h : legOf md t = some (opt, q)) :
    let entry := (refreshed ((cache.lookup t.instrumentId).getD (seed fmt opt q))
      (seed fmt opt q)).withTick t
    tickFastPath fmt cache md t =
      (cache.insert t.instrumentId entry, some (.tick (tickEvent entry q.depth t))) := by
  unfold legOf at h
  split at h
  · rename_i hleg
    simp [tickFastPath, hleg.1, hleg.2, h]
  · cases h

/-- The pump on such a tick. -/
theorem forwardTick_of_legOf {fmt : TextFormats F Date} {cache : TickCache F}
    {md : MarketData F} {t : Tick F} {opt : OptionTick F} {q : LegQuote F}
    (h : legOf md t = some (opt, q)) :
    let entry := ((cache.lookup t.instrumentId).getD
      (blank fmt opt.strike opt.expiry opt.right)).withTick t
    forwardTick fmt cache md t =
      (cache.insert t.instrumentId entry, some (.tick (tickEvent entry q.depth t))) := by
  unfold legOf at h
  split at h
  · rename_i hleg
    have hmeta := optionMeta_eq md t.instrumentId
    rw [h] at hmeta
    obtain ⟨⟨product, strike, expiry, right⟩, hsome, heq⟩ := Option.map_eq_some_iff.mp hmeta
    simp only [Prod.mk.injEq] at heq
    obtain ⟨rfl, rfl, rfl⟩ := heq
    simp [forwardTick, hleg.1, hleg.2, h, hsome]
  · cases h

/-- Both paths publish something, or neither does. -/
theorem isSome_tickFastPath (fmt : TextFormats F Date) (cache : TickCache F) (md : MarketData F)
    (t : Tick F) :
    (tickFastPath fmt cache md t).2.isSome = (forwardTick fmt cache md t).2.isSome := by
  cases hleg : legOf md t with
  | none => rw [(tickFastPath_of_legOf_none hleg).1]
  | some leg => rw [tickFastPath_of_legOf hleg, forwardTick_of_legOf hleg]; rfl

omit [F64 F] in
/-- An event shows all of its entry. -/
theorem unstamped_tickEvent_iff {entry entry' : ConsolidatedTick F} (depth : DepthBook F)
    (t : Tick F) :
    (Published.tick (tickEvent entry depth t)).unstamped =
        (Published.tick (tickEvent entry' depth t)).unstamped ↔ entry = entry' := by
  constructor
  · intro h
    simp only [Published.unstamped, tickEvent, Published.tick.injEq, TickEvent.mk.injEq] at h
    obtain ⟨hstrike, hexpiry, hright, hbid, hask, hbidSize, haskSize, -⟩ := h
    cases entry
    cases entry'
    simp only at hstrike hexpiry hright hbid hask hbidSize haskSize
    subst hstrike hexpiry hright hbid hask hbidSize haskSize
    rfl
  · rintro rfl
    rfl

theorem refreshed_self (seeded : ConsolidatedTick F) : refreshed seeded seeded = seeded := by
  unfold refreshed
  split
  · rfl
  · rfl

omit [F64 F] in
theorem withTick_identity (entry : ConsolidatedTick F) (t : Tick F) :
    (entry.withTick t).expiry = entry.expiry ∧ (entry.withTick t).right = entry.right ∧
      (entry.withTick t).strike = entry.strike := by
  unfold ConsolidatedTick.withTick
  split
  all_goals exact ⟨rfl, rfl, rfl⟩

/-- A new entry is the same on both paths just if there is nothing to fill it with. -/
theorem withTick_seed_iff (fmt : TextFormats F Date) (opt : OptionTick F) (q : LegQuote F)
    {t : Tick F} (hkind : isConsumable t.kind = true) :
    (seed fmt opt q).withTick t = (blank fmt opt.strike opt.expiry opt.right).withTick t ↔
      NothingToSeed t.kind q := by
  obtain ⟨iid, kind, price, size, tsNs⟩ := t
  cases kind <;> simp [isConsumable] at hkind <;>
    simp [ConsolidatedTick.withTick, seed, blank, NothingToSeed]

/-- An old entry is the same on both paths just if it has the identity of its leg. -/
theorem withTick_refreshed_iff (fmt : TextFormats F Date) (opt : OptionTick F) (q : LegQuote F)
    (entry : ConsolidatedTick F) (t : Tick F) :
    (refreshed entry (seed fmt opt q)).withTick t = entry.withTick t ↔ SameLeg fmt entry opt := by
  constructor
  · intro h
    unfold refreshed at h
    split at h
    · rename_i hsame
      simp only [sameIdentity, Bool.and_eq_true, decide_eq_true_eq] at hsame
      exact ⟨hsame.1.2, hsame.2, .inl hsame.1.1⟩
    · obtain ⟨hexpiry, hright, hstrike⟩ := withTick_identity entry t
      rw [← h] at hexpiry hright hstrike
      obtain ⟨hexpiry', hright', hstrike'⟩ := withTick_identity
        { entry with expiry := (seed fmt opt q).expiry, right := (seed fmt opt q).right,
                     strike := (seed fmt opt q).strike } t
      exact ⟨hexpiry.symm.trans hexpiry', hright.symm.trans hright',
        .inr (hstrike.symm.trans hstrike')⟩
  · rintro ⟨hexpiry, hright, hstrike⟩
    suffices hkept : refreshed entry (seed fmt opt q) = entry by rw [hkept]
    unfold refreshed
    split
    · rfl
    · rename_i hsame
      rcases hstrike with heq | heq
      · simp [sameIdentity, seed, hexpiry, hright, heq] at hsame
      · simp [seed, ← hexpiry, ← hright, ← heq]

/-- **One tick.** The entry that the hook leaves is the pump's just if a new one has
nothing to be filled with and an old one has the identity of its leg. -/
theorem entry_eq_iff {fmt : TextFormats F Date} {cache : TickCache F} {md : MarketData F}
    {t : Tick F} {opt : OptionTick F} {q : LegQuote F} (h : legOf md t = some (opt, q)) :
    (refreshed ((cache.lookup t.instrumentId).getD (seed fmt opt q)) (seed fmt opt q)).withTick t =
        ((cache.lookup t.instrumentId).getD
          (blank fmt opt.strike opt.expiry opt.right)).withTick t ↔
      SameEntry fmt cache (md, t) := by
  have hkind : isConsumable t.kind = true := by
    unfold legOf at h
    split at h
    · rename_i hleg
      exact hleg.1
    · cases h
  have hentry : SameEntry fmt cache (md, t) ↔
      match cache.lookup t.instrumentId with
      | none => NothingToSeed t.kind q
      | some entry => SameLeg fmt entry opt := by
    simp [SameEntry, h]
  rw [hentry]
  cases hlookup : cache.lookup t.instrumentId with
  | none =>
      rw [Option.getD_none, Option.getD_none, refreshed_self]
      exact withTick_seed_iff fmt opt q hkind
  | some entry => exact withTick_refreshed_iff fmt opt q entry t

/-- Where the entries agree, so does all that the two paths do. -/
theorem tickFastPath_eq_of_sameEntry {fmt : TextFormats F Date} {cache : TickCache F}
    {md : MarketData F} {t : Tick F} (h : SameEntry fmt cache (md, t)) :
    tickFastPath fmt cache md t = forwardTick fmt cache md t := by
  cases hleg : legOf md t with
  | none => exact (tickFastPath_of_legOf_none hleg).1
  | some leg =>
      rw [tickFastPath_of_legOf hleg, forwardTick_of_legOf hleg, (entry_eq_iff hleg).mpr h]

/-- Where they do not, the two events differ. -/
theorem sameEntry_of_published_eq {fmt : TextFormats F Date} {cache : TickCache F}
    {md : MarketData F} {t : Tick F}
    (h : (tickFastPath fmt cache md t).2.map (·.unstamped) =
      (forwardTick fmt cache md t).2.map (·.unstamped)) : SameEntry fmt cache (md, t) := by
  cases hleg : legOf md t with
  | none =>
      intro opt q hsome
      rw [show legOf md t = _ from hsome] at hleg
      cases hleg
  | some leg =>
      rw [tickFastPath_of_legOf hleg, forwardTick_of_legOf hleg] at h
      simp only [Option.map_some, Option.some.injEq, unstamped_tickEvent_iff] at h
      exact (entry_eq_iff hleg).mp h

/-! ## Whole sequences -/

/-- The entries after a tick, with the hook. -/
def cacheStep (fmt : TextFormats F Date) (cache : TickCache F) (a : MarketData F × Tick F) :
    TickCache F :=
  (tickFastPath fmt cache a.1 a.2).1

theorem published_eq_iff (fmt : TextFormats F Date) (cache : TickCache F)
    (ticks : List (MarketData F × Tick F)) :
    (published (tickFastPath fmt) cache ticks).map (·.unstamped) =
        (published (forwardTick fmt) cache ticks).map (·.unstamped) ↔
      Meets (cacheStep fmt) (SameEntry fmt) cache ticks := by
  induction ticks generalizing cache with
  | nil => exact iff_of_true rfl trivial
  | cons a rest ih =>
      obtain ⟨md, t⟩ := a
      show List.map _ (_ ++ _) = List.map _ (_ ++ _) ↔
        SameEntry fmt cache (md, t) ∧ Meets _ _ (cacheStep fmt cache (md, t)) rest
      rw [List.map_append, List.map_append]
      have hlength : ((tickFastPath fmt cache md t).2.toList.map (·.unstamped)).length =
          ((forwardTick fmt cache md t).2.toList.map (·.unstamped)).length := by
        have hsome := isSome_tickFastPath fmt cache md t
        cases hfast : (tickFastPath fmt cache md t).2 <;>
          cases hslow : (forwardTick fmt cache md t).2 <;> simp [hfast, hslow] at hsome ⊢
      constructor
      · intro h
        obtain ⟨hhead, htail⟩ := List.append_inj h hlength
        have hsame : SameEntry fmt cache (md, t) := by
          refine sameEntry_of_published_eq ?_
          have hfirst := congrArg List.head? hhead
          rwa [List.head?_map, List.head?_map, Option.head?_toList, Option.head?_toList] at hfirst
        refine ⟨hsame, (ih _).mp ?_⟩
        rw [cacheStep, htail, ← tickFastPath_eq_of_sameEntry hsame]
      · rintro ⟨hsame, hrest⟩
        have heq := tickFastPath_eq_of_sameEntry hsame
        have htail := (ih _).mpr hrest
        rw [cacheStep, heq] at htail
        rw [heq, htail]

/-- **The two paths** publish the same for a sequence of ticks just if every new entry of
the hook has nothing to be filled with, and every old one has the identity of its leg. -/
theorem tick_paths_agree_iff (fmt : TextFormats F Date) (ticks : List (MarketData F × Tick F)) :
    (published (tickFastPath fmt) ∅ ticks).map (·.unstamped) =
        (published (forwardTick fmt) ∅ ticks).map (·.unstamped) ↔
      Meets (cacheStep fmt) (SameEntry fmt) ∅ ticks :=
  published_eq_iff fmt ∅ ticks

/-- A bid size of five lots for the instrument. -/
def bidSizeTick (instrumentId : Nat) : Tick ℚ := ⟨instrumentId, .bidSize, none, some 5, 1⟩

/-- The call, and the call with a bid of two. -/
def quietCall : MarketData ℚ := MarketData.new.registerOption (InstrumentRouting.callUnder 100)

def bidCall : MarketData ℚ := quietCall.updateBid 100 2 0 1

/-- The put at the same strike, under the id that the call had. -/
def putUnderSameId : MarketData ℚ :=
  quietCall.registerOption { InstrumentRouting.callUnder 100 with right := .put }

/-- The hook shows a bid that the pump never saw, and the put that the pump takes for the
call. -/
theorem tick_paths_differ :
    (published (tickFastPath RestingSweep.plainFormats) ∅ [(bidCall, bidSizeTick 100)]).map
          (·.unstamped) ≠
        (published (forwardTick RestingSweep.plainFormats) ∅ [(bidCall, bidSizeTick 100)]).map
          (·.unstamped) ∧
      (published (tickFastPath RestingSweep.plainFormats) ∅
          [(quietCall, bidSizeTick 100), (putUnderSameId, bidSizeTick 100)]).map (·.unstamped) ≠
        (published (forwardTick RestingSweep.plainFormats) ∅
          [(quietCall, bidSizeTick 100), (putUnderSameId, bidSizeTick 100)]).map (·.unstamped) := by
  decide +kernel

end Corsair.Ports.TickFastPath
