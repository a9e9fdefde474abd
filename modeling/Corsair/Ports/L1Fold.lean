import Corsair.Verified.LastWrite
import Corsair.Ports.RestingSweep
import Corsair.Ports.TickRouting

/-!
# Top of book: prices and sizes from separate messages

The gateway sends the price and the size of a side in messages of their own.  `route` puts
the ticks of both into one channel, and `pump_ticks` folds them into the legs.  A price
tick has no size: `pump_ticks` takes the missing size for a zero, and `update_bid` and
`update_ask` write it.

A run is a list of turns of the socket, of the pump and of whoever subscribes and
registers; the ticks that the pump received for a leg are kept beside the state.

## Main results

* `folded_pump_iff` — one tick of the pump.
* `l1_fold_iff` — after every turn the legs hold the last positive prices and the last
  sizes, and no price tick changes a size, exactly if price ticks come only to sides whose
  size is zero.
-/

namespace Corsair.Ports.L1Fold

open Corsair.Verified
open Corsair.Verified.Runs
open Corsair.Verified.LastWrite
open Corsair.Ports.Portfolio (Right Date)
open Corsair.Ports.PositionBook (PositionKey)
open Corsair.Ports.InstrumentRouting.MarketDataState (Registration)
open Corsair.Ports.NativeDecoder (TextFormats Frame)
open Corsair.Ports.QuoteBook
open Corsair.Ports.TickRouting

/-! ## The sides of a quote -/

inductive BookSide
  | bid
  | ask
  deriving DecidableEq, Repr

namespace BookSide

def priceKind : BookSide → TickKind
  | bid => .bid
  | ask => .ask

def sizeKind : BookSide → TickKind
  | bid => .bidSize
  | ask => .askSize

def price {F : Type} (q : LegQuote F) : BookSide → F
  | bid => q.bid
  | ask => q.ask

def size {F : Type} (q : LegQuote F) : BookSide → Nat
  | bid => q.bidSize
  | ask => q.askSize

end BookSide

variable {F : Type} [F64 F]

/-- The positive price that a tick brings for a side. -/
def priceOf (side : BookSide) (t : Tick F) : Option F :=
  if t.kind = side.priceKind then t.price.filter (F64.gt · F64.zero) else none

/-- The size that a tick brings for a side. -/
def sizeOf (side : BookSide) (t : Tick F) : Option Nat :=
  if t.kind = side.priceKind ∨ t.kind = side.sizeKind then t.size else none

/-- A price tick for the side, with no size. -/
def SizelessPrice (side : BookSide) (t : Tick F) : Prop :=
  t.kind = side.priceKind ∧ t.size = none

theorem getD_filter_positive (p held : F) :
    ((some p).filter (F64.gt · F64.zero)).getD held = MarketData.positiveOr p held := by
  unfold MarketData.positiveOr
  rw [Option.filter_some]
  split
  · rfl
  · rfl

theorem price_tickQuote (side : BookSide) (t : Tick F) (q : LegQuote F) :
    side.price (tickQuote t q) = (priceOf side t).getD (side.price q) := by
  obtain ⟨iid, kind, price, size, tsNs⟩ := t
  cases side <;> cases kind <;> cases price <;> cases size <;>
    simp [tickQuote, priceOf, BookSide.price, BookSide.priceKind, ← getD_filter_positive]

/-- Where the tick has the shape of the native broker's, a price tick leaves a zero and a
size tick its size. -/
theorem size_tickQuote (side : BookSide) {t : Tick F} (hshape : Shaped t) (q : LegQuote F) :
    (SizelessPrice side t → side.size (tickQuote t q) = 0) ∧
      (¬ SizelessPrice side t → side.size (tickQuote t q) = (sizeOf side t).getD (side.size q)) := by
  obtain ⟨iid, kind, price, size, tsNs⟩ := t
  cases side <;> cases kind <;> cases price <;> cases size <;>
    simp_all [Shaped, SizelessPrice, tickQuote, sizeOf, BookSide.size, BookSide.priceKind,
      BookSide.sizeKind]

/-! ## The system -/

/-- The routes of the broker, the legs, the ticks in the channel, and the ticks that the
pump received for each leg so far. -/
structure L1State (F : Type) [F64 F] where
  routes : TickRoutes
  md : MarketData F
  channel : List (Tick F)
  received : List (PositionKey × Tick F)
  shaped : ∀ t ∈ channel, Shaped t

def L1State.start : L1State F := ⟨.empty, .new, [], [], by simp⟩

/-- One turn. -/
inductive L1Turn (F : Type)
  | subscribe (reqId : Int) (iid : Nat) (right : Option Right)
  | unsubscribe (reqId : Int)
  | register (r : Registration F)
  | registerUnderlying (product : String) (iid : Nat)
  | registerHedge (product : String) (iid : Nat)
  | inbound (fields : Frame) (recvNs : Nat)
  | pump
  | lag (missed : Nat)

/-- The tick that a frame becomes; a frame that does not decode is left out. -/
def tickOfFrame (fmt : TextFormats F Date) (routes : TickRoutes) (fields : Frame) (recvNs : Nat) :
    Option (Tick F) :=
  match parseMarket fmt fields with
  | .ok (some msg) => routeTick routes msg recvNs
  | _ => none

theorem tickOfFrame_shaped {fmt : TextFormats F Date} {routes : TickRoutes} {fields : Frame}
    {recvNs : Nat} {t : Tick F} (h : tickOfFrame fmt routes fields recvNs = some t) :
    Shaped t := by
  unfold tickOfFrame at h
  split at h
  · exact routeTick_shaped h
  · cases h

/-- The pump takes the first tick of the channel. -/
def pumpTurn (s : L1State F) : L1State F where
  routes := s.routes
  md := s.channel.head?.elim s.md (pumpTick s.md)
  channel := s.channel.tail
  received :=
    s.received ++ (s.channel.head?.bind fun t => (s.md.keyOf t.instrumentId).map (·, t)).toList
  shaped := fun t ht => s.shaped t (List.mem_of_mem_tail ht)

def l1Step (fmt : TextFormats F Date) (s : L1State F) : L1Turn F → L1State F
  | .subscribe reqId iid right => { s with routes := s.routes.subscribeTicks reqId iid right }
  | .unsubscribe reqId => { s with routes := s.routes.unsubscribeTicks reqId }
  | .register r => { s with md := s.md.registerOption r }
  | .registerUnderlying product iid => { s with md := s.md.registerUnderlying product iid }
  | .registerHedge product iid => { s with md := s.md.registerHedgeUnderlying product iid }
  | .inbound fields recvNs =>
      { s with
        channel := s.channel ++ (tickOfFrame fmt s.routes fields recvNs).toList
        shaped := fun t ht => by
          rcases List.mem_append.mp ht with hold | hnew
          · exact s.shaped t hold
          · exact tickOfFrame_shaped (Option.mem_toList.mp hnew) }
  | .pump => pumpTurn s
  | .lag missed =>
      -- The pump was too slow, and the channel has dropped its oldest ticks.
      { s with
        channel := s.channel.drop missed
        shaped := fun t ht => s.shaped t (List.mem_of_mem_drop ht) }

/-- What the ticks for a leg bring. -/
def ofLeg {β : Type} (k : PositionKey) (brings : Tick F → Option β) (e : PositionKey × Tick F) :
    Option β :=
  if e.1 = k then brings e.2 else none

/-- Each side of each leg holds the last positive price and the last size received for
it. -/
def Folded (s : L1State F) : Prop :=
  ∀ (k : PositionKey) (side : BookSide),
    side.price (s.md.quoteOf k) = lastWrite (ofLeg k (priceOf side)) F64.zero s.received ∧
      side.size (s.md.quoteOf k) = lastWrite (ofLeg k (sizeOf side)) 0 s.received

/-- The turn changes no size by a price tick that has none. -/
def SizesKept (fmt : TextFormats F Date) (s : L1State F) (a : L1Turn F) : Prop :=
  ∀ t, a = .pump → s.channel.head? = some t → ∀ side, SizelessPrice side t →
    ∀ k, side.size ((l1Step fmt s a).md.quoteOf k) = side.size (s.md.quoteOf k)

/-- A price tick that has no size is pumped only where the side of its leg has the size
zero. -/
def SizeStillZero (s : L1State F) (a : L1Turn F) : Prop :=
  ∀ t, a = .pump → s.channel.head? = some t → ∀ side, SizelessPrice side t →
    ∀ k, s.md.keyOf t.instrumentId = some k → side.size (s.md.quoteOf k) = 0

/-! ## One turn -/

theorem md_pumpTurn {s : L1State F} {t : Tick F} (h : s.channel.head? = some t) :
    (pumpTurn s).md = pumpTick s.md t := by
  simp [pumpTurn, h]

theorem received_pumpTurn {s : L1State F} {t : Tick F} (h : s.channel.head? = some t) :
    (pumpTurn s).received =
      s.received ++ ((s.md.keyOf t.instrumentId).map (·, t)).toList := by
  simp [pumpTurn, h]

theorem folded_pumpTurn_empty {s : L1State F} (h : s.channel.head? = none) :
    Folded (pumpTurn s) ↔ Folded s := by
  have hmd : (pumpTurn s).md = s.md := by simp [pumpTurn, h]
  have hreceived : (pumpTurn s).received = s.received := by simp [pumpTurn, h]
  unfold Folded
  rw [hmd, hreceived]

/-- What a leg last received, once the pump has taken a tick. -/
theorem lastWrite_received_pumpTurn {β : Type} {s : L1State F} {t : Tick F}
    (h : s.channel.head? = some t) (k : PositionKey) (brings : Tick F → Option β) (b : β) :
    lastWrite (ofLeg k brings) b (pumpTurn s).received =
      if s.md.keyOf t.instrumentId = some k then
        (brings t).getD (lastWrite (ofLeg k brings) b s.received)
      else lastWrite (ofLeg k brings) b s.received := by
  rw [received_pumpTurn h]
  cases hkey : s.md.keyOf t.instrumentId with
  | none => simp
  | some k' =>
      show lastWrite _ b (s.received ++ [(k', t)]) = _
      rw [lastWrite_concat]
      by_cases hk : k' = k
      · simp [ofLeg, hk]
      · simp [ofLeg, hk]

/-- **One tick of the pump** keeps the legs at the last prices and sizes just if it is no
price tick, or the size it zeroes was zero. -/
theorem folded_pump_iff {s : L1State F} (hfolded : Folded s) :
    Folded (pumpTurn s) ↔ SizeStillZero s .pump := by
  cases hhead : s.channel.head? with
  | none =>
      refine iff_of_true ((folded_pumpTurn_empty hhead).mpr hfolded) fun t _ ht => ?_
      rw [hhead] at ht
      cases ht
  | some t =>
      have hshape : Shaped t := s.shaped t (List.mem_of_mem_head? hhead)
      constructor
      · intro hnext t' _ ht' side hsizeless k hkey
        obtain rfl : t = t' := Option.some.inj (hhead.symm.trans ht')
        have hsize := (hnext k side).2
        have hnone : sizeOf side t = none := by
          simp [sizeOf, hsizeless.2]
        rw [md_pumpTurn hhead, quoteOf_pumpTick, if_pos hkey,
          (size_tickQuote side hshape _).1 hsizeless, lastWrite_received_pumpTurn hhead,
          if_pos hkey, hnone, Option.getD_none] at hsize
        rw [(hfolded k side).2, ← hsize]
      · intro hzero k side
        obtain ⟨hprice, hsize⟩ := hfolded k side
        rw [md_pumpTurn hhead, quoteOf_pumpTick, lastWrite_received_pumpTurn hhead,
          lastWrite_received_pumpTurn hhead]
        by_cases hkey : s.md.keyOf t.instrumentId = some k
        · rw [if_pos hkey, if_pos hkey, if_pos hkey, ← hprice, ← hsize]
          refine ⟨price_tickQuote side t _, ?_⟩
          by_cases hsizeless : SizelessPrice side t
          · have hnone : sizeOf side t = none := by
              simp [sizeOf, hsizeless.2]
            rw [(size_tickQuote side hshape _).1 hsizeless, hnone, Option.getD_none,
              hzero t rfl hhead side hsizeless k hkey]
          · exact (size_tickQuote side hshape _).2 hsizeless
        · rw [if_neg hkey, if_neg hkey, if_neg hkey]
          exact ⟨hprice, hsize⟩

/-- Every other turn leaves the quotes, and what was received. -/
theorem folded_step_iff (fmt : TextFormats F Date) (s : L1State F) (a : L1Turn F)
    (hfolded : Folded s) : Folded (l1Step fmt s a) ↔ SizeStillZero s a := by
  cases a with
  | pump => exact folded_pump_iff hfolded
  | subscribe => exact iff_of_true hfolded nofun
  | unsubscribe => exact iff_of_true hfolded nofun
  | register => exact iff_of_true hfolded nofun
  | registerUnderlying => exact iff_of_true hfolded nofun
  | registerHedge => exact iff_of_true hfolded nofun
  | inbound => exact iff_of_true hfolded nofun
  | lag => exact iff_of_true hfolded nofun

/-- A price tick leaves the sizes just if the one that it zeroes was zero. -/
theorem sizesKept_iff (fmt : TextFormats F Date) (s : L1State F) (a : L1Turn F) :
    SizesKept fmt s a ↔ SizeStillZero s a := by
  constructor
  · intro hkept t ha hhead side hsizeless k hkey
    have hshape : Shaped t := s.shaped t (List.mem_of_mem_head? hhead)
    have hsame := hkept t ha hhead side hsizeless k
    subst ha
    rw [show (l1Step fmt s .pump).md = _ from md_pumpTurn hhead, quoteOf_pumpTick, if_pos hkey,
      (size_tickQuote side hshape _).1 hsizeless] at hsame
    exact hsame.symm
  · intro hzero t ha hhead side hsizeless k
    have hshape : Shaped t := s.shaped t (List.mem_of_mem_head? hhead)
    subst ha
    rw [show (l1Step fmt s .pump).md = _ from md_pumpTurn hhead, quoteOf_pumpTick]
    split
    · rename_i hkey
      rw [(size_tickQuote side hshape _).1 hsizeless, hzero t rfl hhead side hsizeless k hkey]
    · rfl

/-! ## Whole runs -/

/-- **The fold.** After every turn each side holds the last positive price and the last
size received for it, and no price tick changes a size, just if price ticks are pumped
only for sides whose size is zero. -/
theorem l1_fold_iff (fmt : TextFormats F Date) (turns : List (L1Turn F)) :
    ((∀ front, front <+: turns → Folded (run (l1Step fmt) .start front)) ∧
        Meets (l1Step fmt) (SizesKept fmt) .start turns) ↔
      Meets (l1Step fmt) SizeStillZero .start turns := by
  have hstart : Folded (.start : L1State F) := by
    intro k side
    cases side with
    | bid => exact ⟨rfl, rfl⟩
    | ask => exact ⟨rfl, rfl⟩
  rw [run_invariant_iff_meets Folded (folded_step_iff fmt) hstart]
  have hsame : Meets (l1Step fmt) (SizesKept fmt) .start turns ↔
      Meets (l1Step fmt) SizeStillZero .start turns :=
    meets_iff_meets (fun _ => True) (fun s a _ => sizesKept_iff fmt s a) (fun _ _ _ _ => trivial)
      trivial turns
  rw [hsame, and_self]

/-- Five lots are bid, and the price of the bid comes after them. -/
def sizeThenPrice : List (L1Turn ℚ) :=
  [.register (InstrumentRouting.callUnder 100), .subscribe 7 100 (some .call),
    .inbound ["2", "6", "7", "0", "5"] 1, .pump,
    .inbound ["1", "6", "7", "1", "2", "0"] 2, .pump]

/-- The price tick zeroes the size. -/
theorem price_tick_zeroes_size :
    ¬ Folded (run (l1Step RestingSweep.plainFormats) .start sizeThenPrice) := by
  intro h
  have hsize := (h (InstrumentRouting.callUnder 100).key .bid).2
  revert hsize
  decide +kernel

end Corsair.Ports.L1Fold
