import Corsair.Ports.BrokerApi
import Corsair.Ports.InstrumentRouting

/-!
# `corsair_market_data`: prices, sizes and depth of the legs

A leg of the option book has a contract part, which `register_option` writes once, and a
quote part, which the ticks write.  `InstrumentRouting` has the contract parts and the
map from instrument ids to legs; here are the quotes, one for every leg, empty until a
tick comes.  Ticks for the underlying and for the hedge go to maps of their own.

## Main results

* `quoteOf_pumpTick` — a tick changes the quote of the leg that its id stands for, and no
  other.
* `legs_pumpTick` — a tick registers nothing.
-/

namespace Corsair.Ports.QuoteBook

open Corsair.Verified
open Corsair.Ports.Portfolio (Right Date)
open Corsair.Ports.BrokerApi (asU64)
open Corsair.Ports.PositionBook (PositionKey)
open Corsair.Ports.Fills (OptionTick)
open Corsair.Ports.InstrumentRouting (MarketDataState)
open Corsair.Ports.InstrumentRouting.MarketDataState (Registration)

/-! ## The depth book -/

/-- `DepthLevel`. -/
structure DepthLevel (F : Type) where
  price : F
  size : Nat
  deriving DecidableEq, Repr

/-- `DepthBook`: five levels a side, the best first. -/
structure DepthBook (F : Type) where
  bids : List (DepthLevel F)
  asks : List (DepthLevel F)
  deriving DecidableEq, Repr

/-- `DepthBook::apply`, on one side of the book. -/
def applyLevels {F : Type} (book : List (DepthLevel F)) (pos : Nat) (op : Int)
    (level : DepthLevel F) : List (DepthLevel F) :=
  if op = 0 then
    if 5 < pos then book
    else
      -- On a full book the deepest level makes room.
      let kept := if book.length = 5 then book.dropLast else book
      kept.insertIdx (min pos kept.length) level
  else if op = 1 then
    if pos < book.length then book.set pos level
    else if pos = book.length ∧ book.length < 5 then book ++ [level]
    else book
  else if op = 2 then
    if pos < book.length then book.eraseIdx pos else book
  else book

/-- `DepthBook::apply`.  A negative position is a huge one once it is cast. -/
def DepthBook.apply {F : Type} (book : DepthBook F) (isBid : Bool) (position op : Int) (price : F)
    (size : Nat) : DepthBook F :=
  if isBid then { book with bids := applyLevels book.bids (asU64 position) op ⟨price, size⟩ }
  else { book with asks := applyLevels book.asks (asU64 position) op ⟨price, size⟩ }

/-- A level of the book is the new one or an old one. -/
theorem mem_applyLevels {F : Type} {book : List (DepthLevel F)} {pos : Nat} {op : Int}
    {level x : DepthLevel F} (h : x ∈ applyLevels book pos op level) : x = level ∨ x ∈ book := by
  unfold applyLevels at h
  split at h
  · split at h
    · exact .inr h
    · rcases List.eq_or_mem_of_mem_insertIdx h with hnew | hold
      · exact .inl hnew
      · refine .inr ?_
        split at hold
        · exact List.mem_of_mem_dropLast hold
        · exact hold
  · split at h
    · split at h
      · rcases List.mem_or_eq_of_mem_set h with hold | hnew
        · exact .inr hold
        · exact .inl hnew
      · split at h
        · rcases List.mem_append.mp h with hold | hnew
          · exact .inr hold
          · exact .inl (List.mem_singleton.mp hnew)
        · exact .inr h
    · split at h
      · split at h
        · exact .inr (List.mem_of_mem_eraseIdx h)
        · exact .inr h
      · exact .inr h

/-! ## The state -/

/-- `OptionTick`, the part that ticks write. -/
structure LegQuote (F : Type) where
  bid : F
  ask : F
  bidSize : Nat
  askSize : Nat
  last : F
  openInterest : Nat
  volume : Nat
  depth : DepthBook F
  lastUpdatedNs : Nat
  deriving DecidableEq, Repr

variable {F : Type} [F64 F]

/-- `OptionTick::new`, that part. -/
def LegQuote.new : LegQuote F where
  bid := F64.zero
  ask := F64.zero
  bidSize := 0
  askSize := 0
  last := F64.zero
  openInterest := 0
  volume := 0
  depth := ⟨[], []⟩
  lastUpdatedNs := 0

/-- `MarketDataState`. -/
structure MarketData (F : Type) [F64 F] where
  legs : MarketDataState F
  quotes : AList (fun _ : PositionKey => LegQuote F)
  underlying : AList (fun _ : String => F)
  underlyingInstruments : AList (fun _ : Nat => String)
  hedgeUnderlying : AList (fun _ : String => F)
  hedgeUnderlyingInstruments : AList (fun _ : Nat => String)

namespace MarketData

/-- `new`. -/
def new : MarketData F := ⟨.new, ∅, ∅, ∅, ∅, ∅⟩

/-- The leg that an instrument id stands for. -/
def keyOf (s : MarketData F) (iid : Nat) : Option PositionKey := s.legs.byInstrument.lookup iid

/-- The quote of a leg. -/
def quoteOf (s : MarketData F) (k : PositionKey) : LegQuote F := (s.quotes.lookup k).getD .new

/-- `register_option`. -/
def registerOption (s : MarketData F) (r : Registration F) : MarketData F :=
  { s with legs := s.legs.registerOption r }

/-- `register_underlying`. -/
def registerUnderlying (s : MarketData F) (product : String) (iid : Nat) : MarketData F :=
  { s with underlyingInstruments := s.underlyingInstruments.insert iid product }

/-- `register_hedge_underlying`. -/
def registerHedgeUnderlying (s : MarketData F) (product : String) (iid : Nat) : MarketData F :=
  { s with hedgeUnderlyingInstruments := s.hedgeUnderlyingInstruments.insert iid product }

/-- `product_for_underlying`. -/
def productForUnderlying (s : MarketData F) (iid : Nat) : Option String :=
  s.underlyingInstruments.lookup iid

/-- `underlying_price`. -/
def underlyingPrice (s : MarketData F) (product : String) : Option F :=
  (s.underlying.lookup product).filter (F64.gt · F64.zero)

/-- `option_by_iid`. -/
def optionByIid (s : MarketData F) (iid : Nat) : Option (OptionTick F × LegQuote F) := do
  let k ← s.keyOf iid
  let t ← s.legs.options.lookup k
  return (t, s.quoteOf k)

/-- `options_for_product`. -/
def optionsForProduct (s : MarketData F) (product : String) : List (OptionTick F × LegQuote F) :=
  (s.legs.options.entries.filter (·.1.product = product)).map fun e => (e.2, s.quoteOf e.1)

/-! ## Updates -/

/-- A price for the underlying of a product or for its hedge, or for both. -/
def underlyingTick (s : MarketData F) (iid : Nat) (price : F) : MarketData F :=
  if F64.gt price F64.zero then
    { s with
      underlying := match s.underlyingInstruments.lookup iid with
        | some product => s.underlying.insert product price
        | none => s.underlying
      hedgeUnderlying := match s.hedgeUnderlyingInstruments.lookup iid with
        | some product => s.hedgeUnderlying.insert product price
        | none => s.hedgeUnderlying }
  else s

/-- What an update does: to the quote of the leg if the id stands for one, and something
else otherwise.  A leg that an id stands for is always stored. -/
def updateLeg (s : MarketData F) (iid : Nat) (f : LegQuote F → LegQuote F)
    (otherwise : MarketData F) : MarketData F :=
  match s.keyOf iid with
  | some k => { s with quotes := s.quotes.insert k (f (s.quoteOf k)) }
  | none => otherwise

/-- A price replaces the one before it if it is positive. -/
def positiveOr (price held : F) : F := if F64.gt price F64.zero then price else held

/-- `update_bid`. -/
def updateBid (s : MarketData F) (iid : Nat) (price : F) (size tsNs : Nat) : MarketData F :=
  s.updateLeg iid
    (fun q => { q with bid := positiveOr price q.bid, bidSize := size, lastUpdatedNs := tsNs })
    (s.underlyingTick iid price)

/-- `update_ask`. -/
def updateAsk (s : MarketData F) (iid : Nat) (price : F) (size tsNs : Nat) : MarketData F :=
  s.updateLeg iid
    (fun q => { q with ask := positiveOr price q.ask, askSize := size, lastUpdatedNs := tsNs })
    (s.underlyingTick iid price)

/-- `update_last`. -/
def updateLast (s : MarketData F) (iid : Nat) (price : F) (tsNs : Nat) : MarketData F :=
  s.updateLeg iid (fun q => { q with last := positiveOr price q.last, lastUpdatedNs := tsNs })
    (s.underlyingTick iid price)

/-- `update_bid_size`. -/
def updateBidSize (s : MarketData F) (iid size tsNs : Nat) : MarketData F :=
  s.updateLeg iid (fun q => { q with bidSize := size, lastUpdatedNs := tsNs }) s

/-- `update_ask_size`. -/
def updateAskSize (s : MarketData F) (iid size tsNs : Nat) : MarketData F :=
  s.updateLeg iid (fun q => { q with askSize := size, lastUpdatedNs := tsNs }) s

/-- `update_open_interest`. -/
def updateOpenInterest (s : MarketData F) (iid oi tsNs : Nat) : MarketData F :=
  s.updateLeg iid (fun q => { q with openInterest := oi, lastUpdatedNs := tsNs }) s

/-- `update_option_volume`. -/
def updateOptionVolume (s : MarketData F) (iid vol tsNs : Nat) : MarketData F :=
  s.updateLeg iid (fun q => { q with volume := vol, lastUpdatedNs := tsNs }) s

/-- `apply_depth`. -/
def applyDepth (s : MarketData F) (iid : Nat) (isBid : Bool) (position op : Int) (price : F)
    (size tsNs : Nat) : MarketData F :=
  s.updateLeg iid
    (fun q => { q with depth := q.depth.apply isBid position op price size, lastUpdatedNs := tsNs })
    s

end MarketData

/-! ## Ticks -/

/-- `TickKind`. -/
inductive TickKind
  | bid
  | ask
  | last
  | bidSize
  | askSize
  | volume
  | optionOpenInterest
  | optionVolume
  deriving DecidableEq, Repr

/-- `Tick`. -/
structure Tick (F : Type) where
  instrumentId : Nat
  kind : TickKind
  price : Option F
  size : Option Nat
  timestampNs : Nat
  deriving DecidableEq, Repr

/-- `pump_ticks`, on one tick. -/
def pumpTick (md : MarketData F) (t : Tick F) : MarketData F :=
  match t.kind with
  | .bid =>
      match t.price with
      | some p => md.updateBid t.instrumentId p (t.size.getD 0) t.timestampNs
      | none => md
  | .ask =>
      match t.price with
      | some p => md.updateAsk t.instrumentId p (t.size.getD 0) t.timestampNs
      | none => md
  | .last =>
      match t.price with
      | some p => md.updateLast t.instrumentId p t.timestampNs
      | none => md
  | .bidSize =>
      match t.size with
      | some s => md.updateBidSize t.instrumentId s t.timestampNs
      | none => md
  | .askSize =>
      match t.size with
      | some s => md.updateAskSize t.instrumentId s t.timestampNs
      | none => md
  | .optionOpenInterest =>
      match t.size with
      | some s => md.updateOpenInterest t.instrumentId s t.timestampNs
      | none => md
  | .optionVolume =>
      match t.size with
      | some s => md.updateOptionVolume t.instrumentId s t.timestampNs
      | none => md
  | .volume => md

/-- What a tick does to the quote of its leg. -/
def tickQuote (t : Tick F) (q : LegQuote F) : LegQuote F :=
  match t.kind, t.price, t.size with
  | .bid, some p, size =>
      { q with bid := MarketData.positiveOr p q.bid, bidSize := size.getD 0,
               lastUpdatedNs := t.timestampNs }
  | .ask, some p, size =>
      { q with ask := MarketData.positiveOr p q.ask, askSize := size.getD 0,
               lastUpdatedNs := t.timestampNs }
  | .last, some p, _ =>
      { q with last := MarketData.positiveOr p q.last, lastUpdatedNs := t.timestampNs }
  | .bidSize, _, some s => { q with bidSize := s, lastUpdatedNs := t.timestampNs }
  | .askSize, _, some s => { q with askSize := s, lastUpdatedNs := t.timestampNs }
  | .optionOpenInterest, _, some s => { q with openInterest := s, lastUpdatedNs := t.timestampNs }
  | .optionVolume, _, some s => { q with volume := s, lastUpdatedNs := t.timestampNs }
  | _, _, _ => q

namespace MarketData

@[simp] theorem legs_underlyingTick (s : MarketData F) (iid : Nat) (price : F) :
    (s.underlyingTick iid price).legs = s.legs := by
  unfold underlyingTick
  split
  · rfl
  · rfl

@[simp] theorem quoteOf_underlyingTick (s : MarketData F) (iid : Nat) (price : F)
    (k : PositionKey) : (s.underlyingTick iid price).quoteOf k = s.quoteOf k := by
  unfold underlyingTick
  split
  · rfl
  · rfl

theorem legs_updateLeg (s : MarketData F) (iid : Nat) (f : LegQuote F → LegQuote F)
    {otherwise : MarketData F} (hother : otherwise.legs = s.legs) :
    (s.updateLeg iid f otherwise).legs = s.legs := by
  unfold updateLeg
  split
  · rfl
  · exact hother

/-- An update changes the quote of the leg that its id stands for, and no other. -/
theorem quoteOf_updateLeg (s : MarketData F) (iid : Nat) (f : LegQuote F → LegQuote F)
    {otherwise : MarketData F} (hother : ∀ k, otherwise.quoteOf k = s.quoteOf k)
    (k : PositionKey) :
    (s.updateLeg iid f otherwise).quoteOf k =
      if s.keyOf iid = some k then f (s.quoteOf k) else s.quoteOf k := by
  unfold updateLeg
  cases hkey : s.keyOf iid with
  | none => simpa using hother k
  | some k' =>
      simp only [Option.some.injEq]
      by_cases hk : k' = k
      · subst hk
        simp [quoteOf]
      · simp [quoteOf, hk, AList.lookup_insert_ne (Ne.symm hk)]

end MarketData

open MarketData

@[simp] theorem legs_pumpTick (md : MarketData F) (t : Tick F) : (pumpTick md t).legs = md.legs := by
  unfold pumpTick
  repeat' split
  all_goals first
    | rfl
    | exact legs_updateLeg md _ _ (legs_underlyingTick md _ _)
    | exact legs_updateLeg md _ _ rfl

@[simp] theorem keyOf_pumpTick (md : MarketData F) (t : Tick F) (iid : Nat) :
    (pumpTick md t).keyOf iid = md.keyOf iid := by
  unfold keyOf
  rw [legs_pumpTick]

/-- **One tick** changes the quote of the leg that its id stands for, and no other. -/
theorem quoteOf_pumpTick (md : MarketData F) (t : Tick F) (k : PositionKey) :
    (pumpTick md t).quoteOf k =
      if md.keyOf t.instrumentId = some k then tickQuote t (md.quoteOf k) else md.quoteOf k := by
  obtain ⟨iid, kind, price, size, tsNs⟩ := t
  cases kind <;> cases price <;> cases size <;>
    first
      | exact (ite_self _).symm
      | exact quoteOf_updateLeg md iid _ (quoteOf_underlyingTick md iid _) k
      | exact quoteOf_updateLeg md iid _ (fun _ => rfl) k

end Corsair.Ports.QuoteBook
