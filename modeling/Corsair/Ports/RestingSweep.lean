import Corsair.Ports.NativeBroker

/-!
# The kill sweep over the open-order cache

`cancel_all_resting` asks the adapter for its open orders and cancels those
with a quantity that remains.  The adapter's cache takes that quantity from
the decoder of `openOrder` messages, which has none to give, and no status
update maintains it.

## Main results

* `mem_sweep_iff` — the sweep cancels the cached orders with a quantity that
  remains, each under its own id.
* `sweep_cancels_nothing` — after every sequence of frames there is no such
  order.
* `sweep_covers_iff` — the sweep covers every resting order exactly if the
  messages leave no order resting.
-/

namespace Corsair.Ports.RestingSweep

open Corsair.Verified
open Corsair.Verified.Runs
open Corsair.Ports.Portfolio (Date)
open Corsair.Ports.BrokerApi
open Corsair.Ports.NativeDecoder
open Corsair.Ports.NativeBroker

variable {F : Type}

/-! ## The sweep -/

/-- `Broker::open_orders`. -/
def openOrders (s : BrokerState F) : List (OpenOrder F) := s.openOrders.entries.map Sigma.snd

/-- `requests::cancel_order`: the fields of the frame. -/
def cancelOrderFrame (orderId : Int) : Frame := ["4", "1", toString orderId, ""]

/-- `Broker::cancel_order`: the frame that is sent. -/
def cancelOrder (id : Nat) : Frame := cancelOrderFrame (asI32 id)

/-- `cancel_all_resting`: the ids that it picks. -/
def actionable (opens : List (OpenOrder F)) : List Nat :=
  (opens.filter (0 < ·.remainingQty)).map (·.orderId)

/-- `cancel_all_resting`: the frames that it sends.  They are sent
concurrently, so their order stands for any. -/
def cancelAllResting (s : BrokerState F) : List Frame := (actionable (openOrders s)).map cancelOrder

theorem mem_openOrders {s : BrokerState F} {order : OpenOrder F} :
    order ∈ openOrders s ↔ ∃ id, s.openOrders.lookup id = some order := by
  unfold openOrders
  constructor
  · intro h
    obtain ⟨⟨id, _⟩, hmem, rfl⟩ := List.mem_map.mp h
    exact ⟨id, AList.mem_lookup_iff.mpr hmem⟩
  · rintro ⟨id, h⟩
    exact List.mem_map.mpr ⟨⟨id, order⟩, AList.mem_lookup_iff.mp h, rfl⟩

/-! ## What the cache says of an order -/

variable [F64 F]

/-- What `native_to_open_order` makes of a message that it takes. -/
theorem nativeToOpenOrder_spec {fmt : TextFormats F Date} {o : OpenOrderMsg F}
    {order : OpenOrder F} (h : nativeToOpenOrder fmt o = some order) :
    order.orderId = asU64 o.orderId ∧ order.qty = asU32 o.totalQuantity ∧
      order.status = .pendingSubmit ∧ order.filledQty = 0 ∧
      order.remainingQty = asU32 o.remaining := by
  unfold nativeToOpenOrder at h
  obtain ⟨kind, _, h⟩ := Option.bind_eq_some_iff.mp h
  obtain ⟨side, _, h⟩ := Option.bind_eq_some_iff.mp h
  cases h
  exact ⟨rfl, rfl, rfl, rfl, rfl⟩

/-- What is true of the order cached under an id: it is filed under its own
id, and nothing of it remains. -/
structure Counted (id : Int) (order : OpenOrder F) : Prop where
  orderId : order.orderId = asU64 id
  lower : -2 ^ 31 ≤ id
  upper : id < 2 ^ 31
  remaining : order.remainingQty = 0

/-- Every order of the cache is `Counted`. -/
def CacheInv (s : BrokerState F) : Prop :=
  ∀ id order, s.openOrders.lookup id = some order → Counted id order

theorem Counted.opened [LawfulCasts F] {fmt : TextFormats F Date} {fields : Frame}
    {o : OpenOrderMsg F} {order : OpenOrder F} (hdecoded : parseOpenOrder fmt fields = .ok o)
    (horder : nativeToOpenOrder fmt o = some order) : Counted o.orderId order := by
  obtain ⟨⟨hlower, hupper⟩, hzero⟩ := parseOpenOrder_spec hdecoded
  obtain ⟨horderId, _, _, _, hremaining⟩ := nativeToOpenOrder_spec horder
  have hcast : asU32 (F64.zero : F) = 0 := by
    unfold asU32
    rw [LawfulCasts.toInt_zero 0 4294967295 (by decide) (by decide)]
    rfl
  rw [hzero, hcast] at hremaining
  exact ⟨horderId, hlower, hupper, hremaining⟩

theorem Counted.withStatus {id : Int} {order : OpenOrder F} (h : Counted id order)
    (o : OrderStatusMsg F) : Counted id (withStatus order o) :=
  ⟨h.orderId, h.lower, h.upper, h.remaining⟩

/-- **One frame.** -/
theorem CacheInv.step [LawfulCasts F] (fmt : TextFormats F Date) (s : BrokerState F) (a : Arrival)
    (h : CacheInv s) : CacheInv (dispatch fmt s a) := by
  intro id order hlookup
  unfold dispatch at hlookup
  cases hparse : parseInbound fmt a.frame with
  | error e =>
      rw [hparse] at hlookup
      exact h id order hlookup
  | ok msg =>
      rw [hparse] at hlookup
      have htrack : track fmt id (s.openOrders.lookup id) msg = some order := by
        rw [← lookup_route fmt s msg a.now a.later id]
        exact hlookup
      cases msg with
      | openOrder o =>
          simp only [track] at htrack
          split at htrack
          · rename_i hid
            rcases Option.or_eq_some_iff.mp htrack with hopened | ⟨_, hcached⟩
            · rw [← hid]
              exact Counted.opened (parseInbound_openOrder hparse) hopened
            · exact h id order hcached
          · exact h id order htrack
      | orderStatus o =>
          simp only [track] at htrack
          split at htrack
          · obtain ⟨cached, hcached, rfl⟩ := Option.map_eq_some_iff.mp htrack
            exact (h id cached hcached).withStatus o
          · exact h id order htrack
      | error e => exact h id order htrack
      | other typeId => exact h id order htrack

/-- **Every sequence of frames.** -/
theorem cacheInv_dispatchAll [LawfulCasts F] (fmt : TextFormats F Date)
    (arrivals : List Arrival) : CacheInv (dispatchAll fmt arrivals) := by
  have hinit : CacheInv (emptyState : BrokerState F) := by
    intro id order hlookup
    cases hlookup
  exact run_invariant CacheInv (CacheInv.step fmt) hinit arrivals

/-! ## What the sweep cancels -/

/-- Every cached order is filed under its own id, an `i32`. -/
def Filed (s : BrokerState F) : Prop :=
  ∀ id order, s.openOrders.lookup id = some order →
    order.orderId = asU64 id ∧ -2 ^ 31 ≤ id ∧ id < 2 ^ 31

omit [F64 F] in
theorem CacheInv.filed {s : BrokerState F} (h : CacheInv s) : Filed s := fun id order hlookup =>
  ⟨(h id order hlookup).orderId, (h id order hlookup).lower, (h id order hlookup).upper⟩

omit [F64 F] in
/-- **The sweep itself.** Where the cache files the orders under their ids, it
cancels exactly those with a quantity that remains. -/
theorem mem_sweep_iff {s : BrokerState F} (hfiled : Filed s) (frame : Frame) :
    frame ∈ cancelAllResting s ↔
      ∃ id order, s.openOrders.lookup id = some order ∧ 0 < order.remainingQty ∧
        frame = cancelOrderFrame id := by
  unfold cancelAllResting actionable
  simp only [List.mem_map, List.mem_filter, decide_eq_true_eq, mem_openOrders]
  constructor
  · rintro ⟨_, ⟨order, ⟨⟨id, hlookup⟩, hpos⟩, rfl⟩, rfl⟩
    obtain ⟨horderId, hlower, hupper⟩ := hfiled id order hlookup
    refine ⟨id, order, hlookup, hpos, ?_⟩
    unfold cancelOrder
    rw [horderId, asI32_asU64 hlower hupper]
  · rintro ⟨id, order, hlookup, hpos, rfl⟩
    obtain ⟨horderId, hlower, hupper⟩ := hfiled id order hlookup
    refine ⟨order.orderId, ⟨order, ⟨⟨id, hlookup⟩, hpos⟩, rfl⟩, ?_⟩
    unfold cancelOrder
    rw [horderId, asI32_asU64 hlower hupper]

/-- After every sequence of frames the sweep finds nothing to cancel. -/
theorem sweep_cancels_nothing [LawfulCasts F] (fmt : TextFormats F Date)
    (arrivals : List Arrival) : cancelAllResting (dispatchAll fmt arrivals) = [] := by
  have hinv := cacheInv_dispatchAll fmt arrivals
  apply List.eq_nil_iff_forall_not_mem.mpr
  intro frame hmem
  obtain ⟨id, order, hlookup, hpos, _⟩ := (mem_sweep_iff hinv.filed frame).mp hmem
  have hzero := (hinv id order hlookup).remaining
  omega

/-! ## Resting orders -/

/-- The order is not terminal and not filled. -/
def Resting (order : OpenOrder F) : Prop :=
  order.status.isTerminal = false ∧ order.filledQty < order.qty

/-- The sweep cancels every resting order of the cache. -/
def SweepCovers (s : BrokerState F) : Prop :=
  ∀ id order, s.openOrders.lookup id = some order → Resting order →
    cancelOrderFrame id ∈ cancelAllResting s

/-- What is left of an order that opened with a quantity, by its last status
if it had any. -/
def OpenAfter (qty : Nat) : Option (OrderStatusMsg F) → Prop
  | some o => (parseStatus o.status).isTerminal = false ∧ asU32 o.filled < qty
  | none => 0 < qty

/-- The messages leave the id resting: the last open order for it that the
cache takes is not terminal and not filled by the last status after it. -/
def LeavesResting (fmt : TextFormats F Date) (id : Int) (msgs : List (InboundMsg F)) : Prop :=
  ∃ before o after, msgs = before ++ .openOrder o :: after ∧ Opens fmt id (.openOrder o) ∧
    (∀ msg ∈ after, ¬ Opens fmt id msg) ∧
    OpenAfter (asU32 o.totalQuantity) (statusesOf id after).getLast?

theorem resting_afterStatuses {fmt : TextFormats F Date} {o : OpenOrderMsg F}
    {opened : OpenOrder F} (h : nativeToOpenOrder fmt o = some opened)
    (updates : List (OrderStatusMsg F)) :
    Resting (afterStatuses opened updates) ↔
      OpenAfter (asU32 o.totalQuantity) updates.getLast? := by
  obtain ⟨_, hqty, hstatus, hfilled, _⟩ := nativeToOpenOrder_spec h
  unfold afterStatuses Resting
  cases updates.getLast? with
  | none => simp [OpenAfter, hqty, hstatus, hfilled, OrderStatus.isTerminal]
  | some last => simp [OpenAfter, withStatus, hqty]

/-- The cache holds a resting order for an id exactly if the messages leave the
id resting. -/
theorem exists_resting_iff (fmt : TextFormats F Date) (arrivals : List Arrival) (id : Int) :
    (∃ order, (dispatchAll fmt arrivals).openOrders.lookup id = some order ∧ Resting order) ↔
      LeavesResting fmt id (inbound fmt arrivals) := by
  simp only [lookup_dispatchAll, tracked_eq_some_iff]
  constructor
  · rintro ⟨order, ⟨before, o, after, opened, hmsgs, hid, hopened, hlast, rfl⟩, hresting⟩
    have hopens : Opens fmt id (.openOrder o) := ⟨hid, by simp [hopened]⟩
    exact ⟨before, o, after, hmsgs, hopens, hlast, (resting_afterStatuses hopened _).mp hresting⟩
  · rintro ⟨before, o, after, hmsgs, ⟨hid, hopens⟩, hlast, hleft⟩
    obtain ⟨opened, hopened⟩ := Option.isSome_iff_exists.mp hopens
    exact ⟨_, ⟨before, o, after, opened, hmsgs, hid, hopened, hlast, rfl⟩,
      (resting_afterStatuses hopened _).mpr hleft⟩

/-- **When the sweep covers the resting orders.** After every sequence of
frames it does so exactly if the messages leave no order resting. -/
theorem sweep_covers_iff [LawfulCasts F] (fmt : TextFormats F Date) (arrivals : List Arrival) :
    SweepCovers (dispatchAll fmt arrivals) ↔
      ∀ id, ¬ LeavesResting fmt id (inbound fmt arrivals) := by
  have hnothing := sweep_cancels_nothing fmt arrivals
  constructor
  · intro hcovers id hleaves
    obtain ⟨order, hlookup, hresting⟩ := (exists_resting_iff fmt arrivals id).mpr hleaves
    have hmem := hcovers id order hlookup hresting
    rw [hnothing] at hmem
    exact List.not_mem_nil hmem
  · intro hnone id order hlookup hresting
    exact absurd ((exists_resting_iff fmt arrivals id).mp ⟨order, hlookup, hresting⟩) (hnone id)

/-! ## One order on the wire -/

def padded (width n : Nat) : String :=
  String.ofList (List.replicate (width - (toString n).length) '0') ++ toString n

def ymdText (d : Date) : String := padded 4 d.year.toNat ++ padded 2 d.month ++ padded 2 d.day

/-- The date of a day counted from the epoch; years are taken from March on. -/
def civilDate (days : Int) : Date :=
  let era := (days + 719468) / 146097
  let dayOfEra := (days + 719468) % 146097
  let yearOfEra := (dayOfEra - dayOfEra / 1460 + dayOfEra / 36524 - dayOfEra / 146096) / 365
  let dayOfYear := dayOfEra - (365 * yearOfEra + yearOfEra / 4 - yearOfEra / 100)
  let month := (5 * dayOfYear + 2) / 153
  { year := yearOfEra + era * 400 + if month < 10 then 0 else 1
    month := (if month < 10 then month + 3 else month - 9).toNat
    day := (dayOfYear - (153 * month + 2) / 5 + 1).toNat }

def utcText (t : Int) : String :=
  let seconds := t / 1000000000
  let clock := (seconds % 86400).toNat
  ymdText (civilDate (seconds / 86400)) ++ " " ++ padded 2 (clock / 3600) ++ ":" ++
    padded 2 (clock / 60 % 60) ++ ":" ++ padded 2 (clock % 60) ++ " UTC"

/-- Formats for fields that are whole numbers or dates. -/
def plainFormats : TextFormats ℚ Date where
  float s :=
    match parseSigned (-1000000000) 1000000000 s with
    | .ok n => .ok n
    | .error _ => .error "invalid float literal"
  ymd s :=
    match parseUp 9999 0 (s.toList.take 4), parseUp 12 0 ((s.toList.drop 4).take 2),
      parseUp 31 0 (s.toList.drop 6) with
    | .ok year, .ok month, .ok day => some ⟨year, month.toNat, day.toNat⟩
    | _, _, _ => none
  debug s := "\"" ++ s ++ "\""
  formatYmd := ymdText
  formatUtc := utcText

/-- The gateway's echo of a one-lot bid. -/
def openOrder17 : Frame :=
  ["5", "17", "712565973", "HG", "FOP", "20260626", "6", "C", "25000", "COMEX", "USD",
    "HXEM6 C6", "HXE", "BUY", "1", "LMT", "2", "0", "GTD", "", "DU1", "", "0", "corsair"]

def orderStatus17 (status filled remaining : String) : Frame :=
  ["3", "17", status, filled, remaining, "2", "1", "0", "2", "0", "", "0"]

/-- The cached order after the echo and a status. -/
def order17 (status : OrderStatus) (filledQty : Nat) : OpenOrder ℚ where
  orderId := 17
  contract := {
    instrumentId := 712565973, kind := .option, symbol := "HG", localSymbol := "HXEM6 C6"
    expiry := ⟨2026, 6, 26⟩, strike := some 6, right := some .call, multiplier := 25000
    exchange := .comex, currency := .usd, tradingClass := "HXE" }
  side := .buy
  qty := 1
  orderType := .limit
  price := some 2
  tif := .gtd
  gtdUntilUtc := none
  clientOrderRef := "corsair"
  status
  filledQty
  remainingQty := 0

/-- A live bid, echoed and submitted, survives the sweep. -/
theorem resting_bid_survives_sweep :
    ¬ SweepCovers (dispatchAll plainFormats
      [⟨openOrder17, 1, 1⟩, ⟨orderStatus17 "Submitted" "0" "1", 2, 2⟩]) := by
  intro hcovers
  have hcached : (dispatchAll plainFormats
      [⟨openOrder17, 1, 1⟩, ⟨orderStatus17 "Submitted" "0" "1", 2, 2⟩]).openOrders.lookup 17 =
        some (order17 .submitted 0) := by decide +kernel
  have hmem := hcovers 17 _ hcached ⟨by decide, by decide⟩
  have hsent : cancelAllResting (dispatchAll plainFormats
      [⟨openOrder17, 1, 1⟩, ⟨orderStatus17 "Submitted" "0" "1", 2, 2⟩]) = [] := by
    decide +kernel
  rw [hsent] at hmem
  exact List.not_mem_nil hmem

/-- Once it is filled, nothing rests and the sweep has nothing to miss. -/
theorem sweep_covers_filled_bid :
    SweepCovers (dispatchAll plainFormats
      [⟨openOrder17, 1, 1⟩, ⟨orderStatus17 "Filled" "1" "0", 2, 2⟩]) := by
  apply (sweep_covers_iff plainFormats _).mpr
  intro id hleaves
  obtain ⟨order, hlookup, hresting⟩ := (exists_resting_iff plainFormats _ id).mpr hleaves
  have hcached : openOrders (dispatchAll plainFormats
      [⟨openOrder17, 1, 1⟩, ⟨orderStatus17 "Filled" "1" "0", 2, 2⟩]) = [order17 .filled 1] := by
    decide +kernel
  have hmem := mem_openOrders.mpr ⟨id, hlookup⟩
  rw [hcached] at hmem
  rw [List.mem_singleton.mp hmem] at hresting
  exact absurd hresting.1 (by decide)

end Corsair.Ports.RestingSweep
