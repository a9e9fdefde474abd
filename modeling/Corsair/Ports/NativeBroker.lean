import Mathlib.Data.List.AList
import Mathlib.Data.List.Induction
import Corsair.Verified.Runs
import Corsair.Ports.BrokerApi
import Corsair.Ports.KillRuntime
import Corsair.Ports.NativeDecoder

/-!
# `corsair_broker_ibkr_native::broker`: the order caches behind the dispatcher

The dispatcher decodes each inbound frame and routes the message.  Routing
changes the caches under one lock and then answers waiters and broadcasts.
`route` is one message, `dispatch` one frame, and a run of `dispatch` is any
sequence of frames.

Modelled are the caches keyed by order id and the three messages that touch
them.  A waiter is a number; `Outbound` lists what leaves a call of `route`.
The hash maps are association lists with distinct keys.

## Main results

* `lookup_dispatchAll` — what the open-order cache holds for an order id is
  decided by the messages about that id alone.
* `tracked_eq_some_iff` — and of those by the last one that opens it and the
  last status after it.
-/

namespace Corsair.Ports.NativeBroker

open Corsair.Verified
open Corsair.Verified.Runs
open Corsair.Ports.Portfolio (Right Date)
open Corsair.Ports.BrokerApi
open Corsair.Ports.KillRuntime (BrokerError)
open Corsair.Ports.NativeDecoder

variable {F : Type}

/-! ## From the wire's words to the API's values -/

/-- `parse_status`. -/
def parseStatus (s : String) : OrderStatus :=
  if s = "PendingSubmit" ∨ s = "ApiPending" ∨ s = "PreSubmitted" then .pendingSubmit
  else if s = "Submitted" then .submitted
  else if s = "Filled" then .filled
  else if s = "Cancelled" ∨ s = "ApiCancelled" then .cancelled
  else if s = "PendingCancel" then .pendingCancel
  else if s = "Rejected" ∨ s = "ApiRejected" then .rejected
  else .inactive

/-- `parse_side`. -/
def parseSide (s : String) : Option Side :=
  if s = "BUY" then some .buy else if s = "SELL" then some .sell else none

/-- `parse_order_type`. -/
def parseOrderType (s : String) (aux : F) : OrderType F :=
  if s = "MKT" then .market
  else if s = "LMT" then .limit
  else if s = "STP LMT" then .stopLimit aux
  else .limit

/-- `parse_tif`. -/
def parseTif (s : String) : TimeInForce :=
  if s = "GTC" then .gtc
  else if s = "DAY" then .day
  else if s = "GTD" then .gtd
  else if s = "IOC" then .ioc
  else if s = "FOK" then .fok
  else .day

/-- `parse_right`. -/
def parseRight (s : String) : Option Right :=
  if s = "C" ∨ s = "CALL" then some .call
  else if s = "P" ∨ s = "PUT" then some .put
  else none

/-- `parse_kind`. -/
def parseKind (s : String) : Option ContractKind :=
  if s = "FUT" then some .future
  else if s = "OPT" ∨ s = "FOP" then some .option
  else none

/-- `parse_exchange`. -/
def parseExchange (s : String) : Exchange :=
  if s = "COMEX" then .comex
  else if s = "NYMEX" then .nymex
  else if s = "CBOT" then .cbot
  else if s = "CME" then .cme
  else .other 0

/-- `parse_currency`. -/
def parseCurrency (s : String) : Currency :=
  if s = "USD" then .usd
  else if s = "EUR" then .eur
  else if s = "GBP" then .gbp
  else if s = "JPY" then .jpy
  else .usd

/-- The date that stands for one that cannot be read. -/
def epochDate : Date := { year := 1970, month := 1, day := 1 }

section Doubles

variable [F64 F]

/-- `native_to_open_order`. -/
def nativeToOpenOrder (fmt : TextFormats F Date) (o : OpenOrderMsg F) : Option (OpenOrder F) := do
  let kind ← parseKind o.contract.secType
  let contract : Contract F := {
    instrumentId := asU64 o.contract.conId
    kind
    symbol := o.contract.symbol
    localSymbol := o.contract.localSymbol
    expiry := (fmt.ymd o.contract.lastTradeDate).getD epochDate
    strike := if F64.gt o.contract.strike F64.zero then some o.contract.strike else none
    right := parseRight o.contract.right
    multiplier := (fmt.float o.contract.multiplier).toOption.getD F64.zero
    exchange := parseExchange o.contract.exchange
    currency := parseCurrency o.contract.currency
    tradingClass := o.contract.tradingClass }
  let side ← parseSide o.action
  return {
    orderId := asU64 o.orderId
    contract
    side
    qty := asU32 o.totalQuantity
    orderType := parseOrderType o.orderType F64.zero
    price :=
      if F64.isFinite o.lmtPrice && F64.gt o.lmtPrice F64.zero then some o.lmtPrice else none
    tif := parseTif o.tif
    gtdUntilUtc := none
    clientOrderRef := o.orderRef
    status := .pendingSubmit
    filledQty := 0
    remainingQty := asU32 o.remaining }

/-- `is_order_error`. -/
def isOrderError (code : Int) : Bool := code ∈ [201, 203, 434, 436, 10148, 10197]

/-- `error_to_broker_error`. -/
def errorToBrokerError (e : ErrorMsg) : BrokerError :=
  if e.errorCode ∈ [1100, 1101, 1102, 1300] then .connectionLost e.errorString
  else if e.errorCode = 100 then .rateLimited e.errorString
  else if e.errorCode ∈ [110, 200, 321, 322] then .contractNotFound e.errorString
  else .protocol (some e.errorCode) e.errorString

/-! ## Routing -/

/-- `ContractRequest`, from which a contract template is encoded. -/
structure ContractRequest (F : Type) where
  conId : Int
  symbol : String
  secType : String
  lastTradeDate : String
  strike : F
  right : String
  multiplier : String
  exchange : String
  primaryExchange : String
  currency : String
  localSymbol : String
  tradingClass : String
  deriving DecidableEq, Repr

/-- `BrokerState`: its caches keyed by order id, and the contract templates
keyed by instrument id. -/
structure BrokerState (F : Type) where
  openOrders : AList (fun _ : Int => OpenOrder F)
  pendingPlaceAcks : AList (fun _ : Int => Nat)
  wireSendNs : AList (fun _ : Int => Nat)
  wireAckNs : AList (fun _ : Int => Nat)
  strictAckNs : AList (fun _ : Int => Nat)
  expectedAmendPrices : AList (fun _ : Int => F)
  placeTemplates : AList (fun _ : Nat => ContractRequest F)

/-- `BrokerState::default`. -/
def emptyState : BrokerState F := ⟨∅, ∅, ∅, ∅, ∅, ∅, ∅⟩

/-- What a call of `route` sends: the answer to a waiter, and broadcasts. -/
inductive Outbound (F : Type)
  | ack (waiter : Nat) (result : Except BrokerError Unit)
  | status (update : OrderStatusUpdate F)
  | error (err : BrokerError)

/-- `entry(id).or_insert(v)`. -/
def orInsert (m : AList (fun _ : Int => Nat)) (id : Int) (v : Nat) : AList (fun _ : Int => Nat) :=
  if (m.lookup id).isSome then m else m.insert id v

/-- `AMEND_PRICE_EPS`. -/
def amendPriceEps : F := F64.lit 1 6

/-- The waiter of an order id, told of the result. -/
def BrokerState.answer (s : BrokerState F) (id : Int) (result : Except BrokerError Unit) :
    List (Outbound F) :=
  match s.pendingPlaceAcks.lookup id with
  | some waiter => [.ack waiter result]
  | none => []

/-- `route`, on an `OpenOrder`. -/
def routeOpenOrder (fmt : TextFormats F Date) (s : BrokerState F) (o : OpenOrderMsg F)
    (now : Nat) : BrokerState F × List (Outbound F) :=
  let openOrders :=
    match nativeToOpenOrder fmt o with
    | some order => s.openOrders.insert o.orderId order
    | none => s.openOrders
  let strictAckNs :=
    match s.expectedAmendPrices.lookup o.orderId with
    | some price =>
        if F64.lt (F64.abs (o.lmtPrice - price)) amendPriceEps then
          orInsert s.strictAckNs o.orderId now
        else s.strictAckNs
    | none => s.strictAckNs
  ({ s with
      openOrders
      wireAckNs := orInsert s.wireAckNs o.orderId now
      strictAckNs
      pendingPlaceAcks := s.pendingPlaceAcks.erase o.orderId },
    s.answer o.orderId (.ok ()))

/-- The statuses that answer a waiter. -/
def resolvesWaiter : OrderStatus → Bool
  | .submitted | .pendingSubmit | .filled | .cancelled | .pendingCancel => true
  | .rejected | .inactive => false

/-- What a status does to the cached order: its status and its filled quantity
are the message's. -/
def withStatus (order : OpenOrder F) (o : OrderStatusMsg F) : OpenOrder F :=
  { order with status := parseStatus o.status, filledQty := asU32 o.filled }

/-- `route`, on an `OrderStatus`; the clock is read once under the lock and
once for the broadcast. -/
def routeOrderStatus (s : BrokerState F) (o : OrderStatusMsg F) (now later : Nat) :
    BrokerState F × List (Outbound F) :=
  let openOrders :=
    match s.openOrders.lookup o.orderId with
    | some order => s.openOrders.insert o.orderId (withStatus order o)
    | none => s.openOrders
  let update : OrderStatusUpdate F := {
    orderId := asU64 o.orderId
    status := parseStatus o.status
    filledQty := asU32 o.filled
    remainingQty := asU32 o.remaining
    avgFillPrice := o.avgFillPrice
    lastFillPrice := if F64.gt o.lastFillPrice F64.zero then some o.lastFillPrice else none
    timestampNs := later
    rejectReason := none }
  if resolvesWaiter (parseStatus o.status) then
    ({ s with
        openOrders
        wireAckNs := orInsert s.wireAckNs o.orderId now
        pendingPlaceAcks := s.pendingPlaceAcks.erase o.orderId },
      s.answer o.orderId (.ok ()) ++ [.status update])
  else ({ s with openOrders }, [.status update])

/-- `route`, on an `Error`: an order error fails the waiter of its id. -/
def routeError (s : BrokerState F) (e : ErrorMsg) : BrokerState F × List (Outbound F) :=
  if 0 < e.reqId ∧ isOrderError e.errorCode then
    ({ s with pendingPlaceAcks := s.pendingPlaceAcks.erase e.reqId },
      s.answer e.reqId (.error (.orderRejected (some (asU64 e.reqId)) e.errorString)) ++
        [.error (errorToBrokerError e)])
  else (s, [.error (errorToBrokerError e)])

/-- `route`. -/
def route (fmt : TextFormats F Date) (s : BrokerState F) (msg : InboundMsg F) (now later : Nat) :
    BrokerState F × List (Outbound F) :=
  match msg with
  | .openOrder o => routeOpenOrder fmt s o now
  | .orderStatus o => routeOrderStatus s o now later
  | .error e => routeError s e
  | .other _ => (s, [])

/-- A frame, with the two readings of the clock while it is routed. -/
structure Arrival where
  frame : Frame
  now : Nat
  later : Nat

/-- One turn of the dispatcher: a frame that does not parse is skipped. -/
def dispatch (fmt : TextFormats F Date) (s : BrokerState F) (a : Arrival) : BrokerState F :=
  match parseInbound fmt a.frame with
  | .ok msg => (route fmt s msg a.now a.later).1
  | .error _ => s

/-- The state after a sequence of frames. -/
def dispatchAll (fmt : TextFormats F Date) (arrivals : List Arrival) : BrokerState F :=
  run (dispatch fmt) emptyState arrivals

/-! ## The open-order cache, one order id at a time -/

/-- What a message does to the cached order of one id. -/
def track (fmt : TextFormats F Date) (id : Int) (cached : Option (OpenOrder F)) :
    InboundMsg F → Option (OpenOrder F)
  | .openOrder o => if o.orderId = id then (nativeToOpenOrder fmt o).or cached else cached
  | .orderStatus o => if o.orderId = id then cached.map (withStatus · o) else cached
  | .error _ => cached
  | .other _ => cached

theorem lookup_routeOpenOrder (fmt : TextFormats F Date) (s : BrokerState F) (o : OpenOrderMsg F)
    (now : Nat) (id : Int) :
    (routeOpenOrder fmt s o now).1.openOrders.lookup id =
      track fmt id (s.openOrders.lookup id) (.openOrder o) := by
  show AList.lookup id (match nativeToOpenOrder fmt o with
    | some order => s.openOrders.insert o.orderId order
    | none => s.openOrders) = _
  simp only [track]
  by_cases hid : o.orderId = id
  · rw [if_pos hid, ← hid]
    cases nativeToOpenOrder fmt o with
    | none => rfl
    | some order => exact AList.lookup_insert s.openOrders
  · rw [if_neg hid]
    cases nativeToOpenOrder fmt o with
    | none => rfl
    | some order => exact AList.lookup_insert_ne (Ne.symm hid)

theorem lookup_routeOrderStatus (fmt : TextFormats F Date) (s : BrokerState F)
    (o : OrderStatusMsg F) (now later : Nat) (id : Int) :
    (routeOrderStatus s o now later).1.openOrders.lookup id =
      track fmt id (s.openOrders.lookup id) (.orderStatus o) := by
  have hcache : (routeOrderStatus s o now later).1.openOrders =
      match s.openOrders.lookup o.orderId with
      | some order => s.openOrders.insert o.orderId (withStatus order o)
      | none => s.openOrders := by
    by_cases hack : resolvesWaiter (parseStatus o.status) = true
    · simp only [routeOrderStatus, hack, if_true]
    · simp only [routeOrderStatus, hack, Bool.false_eq_true, if_false]
  rw [hcache]
  simp only [track]
  by_cases hid : o.orderId = id
  · rw [if_pos hid, ← hid]
    cases hcached : s.openOrders.lookup o.orderId with
    | none => exact hcached
    | some order => exact AList.lookup_insert s.openOrders
  · rw [if_neg hid]
    cases s.openOrders.lookup o.orderId with
    | none => rfl
    | some order => exact AList.lookup_insert_ne (Ne.symm hid)

/-- **One message.** The cached order of an id is tracked on its own. -/
theorem lookup_route (fmt : TextFormats F Date) (s : BrokerState F) (msg : InboundMsg F)
    (now later : Nat) (id : Int) :
    (route fmt s msg now later).1.openOrders.lookup id =
      track fmt id (s.openOrders.lookup id) msg := by
  cases msg with
  | openOrder o => exact lookup_routeOpenOrder fmt s o now id
  | orderStatus o => exact lookup_routeOrderStatus fmt s o now later id
  | error e =>
      show (routeError s e).1.openOrders.lookup id = s.openOrders.lookup id
      unfold routeError
      split <;> rfl
  | other typeId => rfl

/-- The messages among the frames that parse. -/
def inbound (fmt : TextFormats F Date) (arrivals : List Arrival) : List (InboundMsg F) :=
  arrivals.filterMap fun a => (parseInbound fmt a.frame).toOption

/-- **Every sequence of frames.** What the cache holds for an order id is the
fold of `track` over the messages. -/
theorem lookup_dispatchAll (fmt : TextFormats F Date) (arrivals : List Arrival) (id : Int) :
    (dispatchAll fmt arrivals).openOrders.lookup id =
      (inbound fmt arrivals).foldl (track fmt id) none := by
  induction arrivals using List.reverseRecOn with
  | nil => rfl
  | append_singleton front a ih =>
      have hstep : dispatchAll fmt (front ++ [a]) = dispatch fmt (dispatchAll fmt front) a := by
        simp [dispatchAll]
      rw [hstep, inbound, List.filterMap_append, List.foldl_append]
      show _ = (List.filterMap _ [a]).foldl (track fmt id)
        ((inbound fmt front).foldl (track fmt id) none)
      rw [← ih]
      unfold dispatch
      cases hparse : parseInbound fmt a.frame with
      | error e => simp [hparse, Except.toOption]
      | ok msg => simp [hparse, Except.toOption, lookup_route]

/-! ## What decides a cached order -/

/-- The message opens the id: it is an open order that the cache takes. -/
def Opens (fmt : TextFormats F Date) (id : Int) : InboundMsg F → Prop
  | .openOrder o => o.orderId = id ∧ (nativeToOpenOrder fmt o).isSome
  | _ => False

/-- The status updates of an order id. -/
def statusesOf (id : Int) (msgs : List (InboundMsg F)) : List (OrderStatusMsg F) :=
  msgs.filterMap fun
    | .orderStatus o => if o.orderId = id then some o else none
    | _ => none

/-- The order as the last of its status updates leaves it. -/
def afterStatuses (order : OpenOrder F) (updates : List (OrderStatusMsg F)) : OpenOrder F :=
  match updates.getLast? with
  | some o => withStatus order o
  | none => order

theorem afterStatuses_append (order : OpenOrder F) (front back : List (OrderStatusMsg F)) :
    afterStatuses order (front ++ back) = afterStatuses (afterStatuses order front) back := by
  unfold afterStatuses
  rw [List.getLast?_append]
  cases back.getLast? with
  | none => rfl
  | some o =>
      cases front.getLast? with
      | none => rfl
      | some earlier => rfl

omit [F64 F] in
theorem statusesOf_append (id : Int) (front back : List (InboundMsg F)) :
    statusesOf id (front ++ back) = statusesOf id front ++ statusesOf id back :=
  List.filterMap_append

theorem track_of_not_opens {fmt : TextFormats F Date} {id : Int} {msg : InboundMsg F}
    (h : ¬ Opens fmt id msg) (cached : Option (OpenOrder F)) :
    track fmt id cached msg = cached.map (afterStatuses · (statusesOf id [msg])) := by
  cases msg with
  | openOrder o =>
      simp only [track]
      by_cases hid : o.orderId = id
      · have hnone : nativeToOpenOrder fmt o = none := by
          simpa [Opens, hid] using h
        simp [hnone, statusesOf, afterStatuses]
      · simp [hid, statusesOf, afterStatuses]
  | orderStatus o =>
      simp only [track]
      by_cases hid : o.orderId = id
      · simp [hid, statusesOf, afterStatuses]
      · simp [hid, statusesOf, afterStatuses]
  | error e => simp [track, statusesOf, afterStatuses]
  | other typeId => simp [track, statusesOf, afterStatuses]

/-- Messages that do not open the id leave the order with the last of their
status updates. -/
theorem foldl_track_of_not_opens {fmt : TextFormats F Date} {id : Int}
    {msgs : List (InboundMsg F)} (h : ∀ msg ∈ msgs, ¬ Opens fmt id msg)
    (cached : Option (OpenOrder F)) :
    msgs.foldl (track fmt id) cached = cached.map (afterStatuses · (statusesOf id msgs)) := by
  induction msgs using List.reverseRecOn with
  | nil => simp [statusesOf, afterStatuses]
  | append_singleton front msg ih =>
      have hfront := ih fun m hm => h m (by simp [hm])
      have hlast := track_of_not_opens (h msg (by simp)) (front.foldl (track fmt id) cached)
      rw [List.foldl_append, List.foldl_cons, List.foldl_nil, hlast, hfront, Option.map_map]
      simp only [statusesOf_append, afterStatuses_append]
      rfl

/-- **What decides a cached order.** An order is cached exactly if a message
opened it; it is the last such message's, with the last status after it. -/
theorem tracked_eq_some_iff (fmt : TextFormats F Date) (id : Int) (msgs : List (InboundMsg F))
    (order : OpenOrder F) :
    msgs.foldl (track fmt id) none = some order ↔
      ∃ before o after opened, msgs = before ++ .openOrder o :: after ∧ o.orderId = id ∧
        nativeToOpenOrder fmt o = some opened ∧ (∀ msg ∈ after, ¬ Opens fmt id msg) ∧
        order = afterStatuses opened (statusesOf id after) := by
  constructor
  · intro h
    induction msgs using List.reverseRecOn generalizing order with
    | nil => cases h
    | append_singleton front msg ih =>
        by_cases hopens : Opens fmt id msg
        · match msg, hopens with
          | .openOrder o, hopens =>
              obtain ⟨opened, hopened⟩ := Option.isSome_iff_exists.mp hopens.2
              have htrack : order = opened := by
                simpa [track, hopens.1, hopened, eq_comm] using h
              exact ⟨front, o, [], opened, rfl, hopens.1, hopened, by simp, htrack⟩
        · rw [List.foldl_append, List.foldl_cons, List.foldl_nil, track_of_not_opens hopens] at h
          obtain ⟨cached, hcached, rfl⟩ := Option.map_eq_some_iff.mp h
          obtain ⟨before, o, after, opened, rfl, hid, hopened, hnone, rfl⟩ := ih cached hcached
          have hnone' : ∀ m ∈ after ++ [msg], ¬ Opens fmt id m := by
            intro m hm
            rcases List.mem_append.mp hm with hm | hm
            · exact hnone m hm
            · rw [List.mem_singleton.mp hm]
              exact hopens
          refine ⟨before, o, after ++ [msg], opened, by simp, hid, hopened, hnone', ?_⟩
          rw [statusesOf_append, afterStatuses_append]
  · rintro ⟨before, o, after, opened, rfl, hid, hopened, hnone, rfl⟩
    rw [List.foldl_append, List.foldl_cons, foldl_track_of_not_opens hnone]
    simp [track, hid, hopened]

end Doubles

end Corsair.Ports.NativeBroker
