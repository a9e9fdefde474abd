import Corsair.Ports.AckRouting

/-!
# What the adapter holds under an order id

Five maps of the adapter are keyed by the order id: the waiter of a call, the time at which
a call was sent, the time of the first answer after that, the price that an amend expects
to be echoed, and the time of that echo.  `place_order` and `modify_order` fill some of
them, the dispatcher fills others, and what takes an entry out depends on how a call ends
and on who drains the timings.

`mapsOf` is what the five hold of one id.  Each function of the adapter changes them for
one id alone, and there by the record that its lemma names.

## Main results

* `mapsOf_preparePlace`, `mapsOf_prepareModify` — what a call puts in before it sends.
* `mapsOf_sendFailed`, `mapsOf_dropWaiter` — what a failed send and a timeout take out.
* `mapsOf_route` — what a message does.
* `mapsOf_drainWireTiming`, `mapsOf_drainStrictAmendAckNs` — what the drains take out.
* `mapsOf_callStep` — what a step leaves of the entries of an order id.
-/

namespace Corsair.Ports.OrderMaps

open Corsair.Verified.Table
open Corsair.Ports.Portfolio (Date)
open Corsair.Ports.BrokerApi
open Corsair.Ports.KillRuntime (BrokerError)
open Corsair.Ports.NativeDecoder
open Corsair.Ports.NativeBroker
open Corsair.Ports.NativeOrders
open Corsair.Ports.AckRouting
open Corsair.Verified

/-- The entries of one order id. -/
@[ext] structure OrderEntries (F : Type) where
  waiter : Option Nat
  sendNs : Option Nat
  ackNs : Option Nat
  expectedPrice : Option F
  strictNs : Option Nat
  deriving DecidableEq

section Maps

variable {F : Type}

/-- The five maps, by order id. -/
def mapsOf (s : BrokerState F) (id : Int) : OrderEntries F where
  waiter := s.pendingPlaceAcks.lookup id
  sendNs := s.wireSendNs.lookup id
  ackNs := s.wireAckNs.lookup id
  expectedPrice := s.expectedAmendPrices.lookup id
  strictNs := s.strictAckNs.lookup id

/-- Nothing is held. -/
def OrderEntries.none : OrderEntries F := ⟨.none, .none, .none, .none, .none⟩

/-- Two adapters hold the same, but for one order id. -/
theorem mapsOf_eq_update {s s' : BrokerState F} {id : Int} {m : OrderEntries F}
    (hid : mapsOf s' id = m) (hother : ∀ k, k ≠ id → mapsOf s' k = mapsOf s k) :
    mapsOf s' = Function.update (mapsOf s) id m := by
  funext k
  by_cases hk : k = id
  · rw [hk, Function.update_self, hid]
  · rw [Function.update_of_ne hk, hother k hk]

theorem lookup_orInsert (m : AList (fun _ : Int => Nat)) (id : Int) (v : Nat) :
    (orInsert m id v).lookup id = (m.lookup id).or (some v) := by
  unfold orInsert
  cases hlookup : m.lookup id with
  | none => simp
  | some old => simp [hlookup]

theorem lookup_orInsert_ne (m : AList (fun _ : Int => Nat)) {id k : Int} (v : Nat) (h : k ≠ id) :
    (orInsert m id v).lookup k = m.lookup k := by
  unfold orInsert
  split
  · rfl
  · exact AList.lookup_insert_ne h

/-! ## The drains and the disconnect -/

/-- `drain_wire_timing`: without a send time the answer's time stays. -/
def drainWireTiming (s : BrokerState F) (id : Nat) : Option (Nat × Nat) × BrokerState F :=
  match s.wireSendNs.lookup (asI32 id) with
  | none => (none, s)
  | some send =>
      let s := { s with wireSendNs := s.wireSendNs.erase (asI32 id) }
      match s.wireAckNs.lookup (asI32 id) with
      | none => (none, s)
      | some ack => (some (send, ack), { s with wireAckNs := s.wireAckNs.erase (asI32 id) })

/-- `drain_strict_amend_ack_ns`: the expected price goes too. -/
def drainStrictAmendAckNs (s : BrokerState F) (id : Nat) : Option Nat × BrokerState F :=
  (s.strictAckNs.lookup (asI32 id),
    { s with
      expectedAmendPrices := s.expectedAmendPrices.erase (asI32 id)
      strictAckNs := s.strictAckNs.erase (asI32 id) })

/-- What `disconnect` tells the waiters. -/
def disconnected : BrokerError := .connectionLost "disconnect during pending place_order ack"

/-- `disconnect`, as far as the waiters of orders go. -/
def disconnect (s : AckState F) : AckState F :=
  { s with
    broker := { s.broker with pendingPlaceAcks := ∅ }
    calls := s.broker.pendingPlaceAcks.entries.foldl
      (fun calls e => deliver calls (.ack e.2 (.error disconnected) : Outbound F)) s.calls }

theorem drainWireTiming_fst (s : BrokerState F) (id : Nat) :
    (drainWireTiming s id).1 = (mapsOf s (asI32 id)).sendNs.bind fun send =>
      (mapsOf s (asI32 id)).ackNs.map fun ack => (send, ack) := by
  unfold drainWireTiming mapsOf
  cases hsend : s.wireSendNs.lookup (asI32 id) with
  | none => rfl
  | some send =>
      cases hack : s.wireAckNs.lookup (asI32 id) with
      | none => simp [hack]
      | some ack => simp [hack]

theorem mapsOf_drainWireTiming (s : BrokerState F) (id : Nat) :
    mapsOf (drainWireTiming s id).2 =
      let m := mapsOf s (asI32 id)
      Function.update (mapsOf s) (asI32 id)
        { m with
          sendNs := none
          ackNs := if m.sendNs.isSome then none else m.ackNs } := by
  apply mapsOf_eq_update
  · unfold drainWireTiming mapsOf
    cases hsend : s.wireSendNs.lookup (asI32 id) with
    | none => simp [hsend]
    | some send =>
        cases hack : s.wireAckNs.lookup (asI32 id) with
        | none => simp [hack]
        | some ack => simp [hack]
  · intro k hk
    unfold drainWireTiming
    split
    · rfl
    · dsimp only
      split
      · simp [mapsOf, AList.lookup_erase_ne hk]
      · simp [mapsOf, AList.lookup_erase_ne hk]

theorem mapsOf_drainStrictAmendAckNs (s : BrokerState F) (id : Nat) :
    mapsOf (drainStrictAmendAckNs s id).2 =
      Function.update (mapsOf s) (asI32 id)
        { mapsOf s (asI32 id) with expectedPrice := none, strictNs := none } := by
  apply mapsOf_eq_update
  · simp [drainStrictAmendAckNs, mapsOf]
  · intro k hk
    simp [drainStrictAmendAckNs, mapsOf, AList.lookup_erase_ne hk]

@[simp] theorem mapsOf_disconnect (s : AckState F) (id : Int) :
    mapsOf (disconnect s).broker id = { mapsOf s.broker id with waiter := none } := by
  simp [disconnect, mapsOf]

/-! ## The calls -/

theorem mapsOf_sendFailed (s : BrokerState F) (id : Int) :
    mapsOf (sendFailed s id) =
      Function.update (mapsOf s) id { mapsOf s id with waiter := none, sendNs := none } := by
  apply mapsOf_eq_update
  · simp [sendFailed, mapsOf]
  · intro k hk
    simp [sendFailed, mapsOf, AList.lookup_erase_ne hk]

theorem mapsOf_dropWaiter (s : BrokerState F) (id : Int) :
    mapsOf (dropWaiter s id) = Function.update (mapsOf s) id .none := by
  apply mapsOf_eq_update
  · simp [dropWaiter, mapsOf, OrderEntries.none]
  · intro k hk
    simp [dropWaiter, mapsOf, AList.lookup_erase_ne hk]

theorem broker_wake (s : AckState F) (ticket : Nat) (pastDeadline : Bool) :
    (s.wake ticket pastDeadline).broker = s.broker := by
  unfold AckState.wake
  split
  · split
    · split
      · rfl
      · split
        · rfl
        · rfl
    · rfl
  · rfl

variable [F64 F]

theorem mapsOf_templateFor (fmt : TextFormats F Date) (s : BrokerState F) (c : Contract F) :
    mapsOf (templateFor fmt s c).2 = mapsOf s := by
  unfold templateFor
  split
  · rfl
  · rfl

/-- `place_order` puts in its waiter and the time. -/
theorem mapsOf_preparePlace {fmt : TextFormats F Date} {account : String} {s s' : BrokerState F}
    {orderId : Int} {waiter now : Nat} {req : PlaceOrderReq F} {frame : OrderFrame F}
    (h : preparePlace fmt account s orderId waiter now req = .ok (frame, s')) :
    mapsOf s' = Function.update (mapsOf s) orderId
      { mapsOf s orderId with waiter := some waiter, sendNs := some now } := by
  unfold preparePlace at h
  split at h
  · cases h
  · split at h
    · cases h
    · obtain ⟨params, -, h⟩ := ok_of_bind h
      have hkept := mapsOf_templateFor fmt s req.contract
      generalize templateFor fmt s req.contract = template at h hkept
      obtain ⟨-, rfl⟩ := Prod.mk.inj (Except.ok.inj h)
      rw [← hkept]
      apply mapsOf_eq_update
      · simp [mapsOf]
      · intro k hk
        simp [mapsOf, AList.lookup_insert_ne hk]

/-- `modify_order` puts in the price that it asks for as well. -/
theorem mapsOf_prepareModify {fmt : TextFormats F Date} {account : String} {s s' : BrokerState F}
    {id waiter now : Nat} {req : ModifyOrderReq F} {frame : OrderFrame F}
    (h : prepareModify fmt account s id waiter now req = .ok (frame, s')) :
    ∃ existing, s.openOrders.lookup (asI32 id) = some existing ∧
      mapsOf s' = Function.update (mapsOf s) (asI32 id)
        { mapsOf s (asI32 id) with
          waiter := some waiter
          sendNs := some now
          expectedPrice := some ((req.price.or existing.price).getD F64.zero) } := by
  unfold prepareModify at h
  split at h
  · rename_i existing hexisting
    obtain ⟨params, -, h⟩ := ok_of_bind h
    have hkept := mapsOf_templateFor fmt s existing.contract
    generalize templateFor fmt s existing.contract = template at h hkept
    obtain ⟨-, rfl⟩ := Prod.mk.inj (Except.ok.inj h)
    refine ⟨existing, hexisting, ?_⟩
    rw [← hkept]
    apply mapsOf_eq_update
    · simp [mapsOf]
    · intro k hk
      simp [mapsOf, AList.lookup_insert_ne hk]
  · cases h

/-- What a message does to the entries of its order id. -/
def routedEntries (m : OrderEntries F) (now : Nat) : InboundMsg F → OrderEntries F
  | .openOrder o =>
      { m with
        waiter := none
        ackNs := m.ackNs.or (some now)
        strictNs :=
          if m.expectedPrice.any fun p => F64.lt (F64.abs (o.lmtPrice - p)) amendPriceEps then
            m.strictNs.or (some now)
          else m.strictNs }
  | .orderStatus o =>
      if resolvesWaiter (parseStatus o.status) then
        { m with waiter := none, ackNs := m.ackNs.or (some now) }
      else m
  | .error e => if 0 < e.reqId ∧ isOrderError e.errorCode then { m with waiter := none } else m
  | .other _ => m

omit [F64 F] in
/-- The order id that a message is about. -/
def orderIdOf : InboundMsg F → Option Int
  | .openOrder o => some o.orderId
  | .orderStatus o => some o.orderId
  | .error e => some e.reqId
  | .other _ => none

theorem mapsOf_routeOpenOrder (fmt : TextFormats F Date) (s : BrokerState F)
    (o : OpenOrderMsg F) (now : Nat) :
    mapsOf (routeOpenOrder fmt s o now).1 =
      Function.update (mapsOf s) o.orderId
        (routedEntries (mapsOf s o.orderId) now (.openOrder o)) := by
  have hstrict (k : Int) : (routeOpenOrder fmt s o now).1.strictAckNs.lookup k =
      if k = o.orderId ∧ ((s.expectedAmendPrices.lookup o.orderId).any fun p =>
          F64.lt (F64.abs (o.lmtPrice - p)) amendPriceEps) = true then
        (s.strictAckNs.lookup k).or (some now)
      else s.strictAckNs.lookup k := by
    simp only [routeOpenOrder]
    cases s.expectedAmendPrices.lookup o.orderId with
    | none => simp
    | some price =>
        by_cases hecho : F64.lt (F64.abs (o.lmtPrice - price)) amendPriceEps = true
        · by_cases hk : k = o.orderId
          · subst hk
            simp [hecho, lookup_orInsert]
          · simp [hecho, hk, lookup_orInsert_ne]
        · simp [hecho]
  apply mapsOf_eq_update
  · apply OrderEntries.ext
    · simp [mapsOf, routeOpenOrder, routedEntries]
    · rfl
    · exact lookup_orInsert s.wireAckNs o.orderId now
    · rfl
    · simp [mapsOf, routedEntries, hstrict]
  · intro k hk
    apply OrderEntries.ext
    · exact AList.lookup_erase_ne hk
    · rfl
    · exact lookup_orInsert_ne s.wireAckNs now hk
    · rfl
    · simp [mapsOf, hstrict, hk]

theorem mapsOf_routeOrderStatus (s : BrokerState F) (o : OrderStatusMsg F) (now later : Nat) :
    mapsOf (routeOrderStatus s o now later).1 =
      Function.update (mapsOf s) o.orderId
        (routedEntries (mapsOf s o.orderId) now (.orderStatus o)) := by
  unfold routeOrderStatus
  by_cases hresolves : resolvesWaiter (parseStatus o.status) = true
  · simp only [hresolves, if_true]
    apply mapsOf_eq_update
    · simp [mapsOf, routedEntries, hresolves, lookup_orInsert]
    · intro k hk
      simp [mapsOf, AList.lookup_erase_ne hk, lookup_orInsert_ne _ _ hk]
  · simp only [hresolves]
    apply mapsOf_eq_update
    · simp [mapsOf, routedEntries, hresolves]
    · intro k hk
      rfl

omit [F64 F] in
theorem mapsOf_routeError (s : BrokerState F) (e : ErrorMsg) :
    mapsOf (routeError s e).1 =
      Function.update (mapsOf s) e.reqId
        (if 0 < e.reqId ∧ isOrderError e.errorCode then
          { mapsOf s e.reqId with waiter := none }
        else mapsOf s e.reqId) := by
  unfold routeError
  by_cases hrejects : 0 < e.reqId ∧ isOrderError e.errorCode = true
  · rw [if_pos hrejects, if_pos hrejects]
    apply mapsOf_eq_update
    · simp [mapsOf]
    · intro k hk
      simp [mapsOf, AList.lookup_erase_ne hk]
  · rw [if_neg hrejects, if_neg hrejects, Function.update_eq_self]

/-- **Routing.** A message changes the entries of the order id that it is about, and no
others. -/
theorem mapsOf_route (fmt : TextFormats F Date) (s : BrokerState F) (msg : InboundMsg F)
    (now later : Nat) (id : Int) :
    mapsOf (route fmt s msg now later).1 id =
      if orderIdOf msg = some id then routedEntries (mapsOf s id) now msg else mapsOf s id := by
  cases msg with
  | openOrder o =>
      show mapsOf (routeOpenOrder fmt s o now).1 id = _
      rw [mapsOf_routeOpenOrder, Function.update_apply]
      simp only [orderIdOf, Option.some_inj, @eq_comm _ id]
      split
      · next hid => rw [hid]
      · rfl
  | orderStatus o =>
      show mapsOf (routeOrderStatus s o now later).1 id = _
      rw [mapsOf_routeOrderStatus, Function.update_apply]
      simp only [orderIdOf, Option.some_inj, @eq_comm _ id]
      split
      · next hid => rw [hid]
      · rfl
  | error e =>
      show mapsOf (routeError s e).1 id = _
      rw [mapsOf_routeError, Function.update_apply]
      simp only [orderIdOf, Option.some_inj, @eq_comm _ id]
      split
      · next hid =>
        subst hid
        rfl
      · rfl
  | other typeId => rfl

/-! ## The steps -/

omit [F64 F] in
/-- A step of the calls and the dispatcher, a disconnect, or a drain of an order id. -/
inductive CallStep (F : Type)
  | call (a : AckStep F)
  | disconnect
  | drainWire (id : Nat)
  | drainStrict (id : Nat)

def callStep (fmt : TextFormats F Date) (account : String) (s : AckState F) :
    CallStep F → AckState F
  | .call a => step fmt account s a
  | .disconnect => disconnect s
  | .drainWire id => { s with broker := (drainWireTiming s.broker id).2 }
  | .drainStrict id => { s with broker := (drainStrictAmendAckNs s.broker id).2 }

/-- What a step leaves of the entries `m` of an order id: the maps of one id are a machine of
their own, which looks at the calls only for whose they are. -/
def entriesAfter (fmt : TextFormats F Date) (account : String) (s : AckState F) (id : Int)
    (m : OrderEntries F) : CallStep F → OrderEntries F
  | .call (.place orderId now req) =>
      if orderId = id ∧
          (preparePlace fmt account s.broker orderId s.next now req).toOption.isSome then
        { m with waiter := some s.next, sendNs := some now }
      else m
  | .call (.modify k now req) =>
      if asI32 k = id ∧
          (prepareModify fmt account s.broker k s.next now req).toOption.isSome then
        { m with
          waiter := some s.next
          sendNs := some now
          expectedPrice := some ((req.price.or ((s.broker.openOrders.lookup (asI32 k)).bind
            BrokerApi.OpenOrder.price)).getD F64.zero) }
      else m
  | .call (.sent ticket (some _)) =>
      if ∃ call ∈ s.calls.lookup ticket, call.sent = false ∧ call.orderId = id then
        { m with waiter := none, sendNs := none }
      else m
  | .call (.route msg now _) => if orderIdOf msg = some id then routedEntries m now msg else m
  | .call (.withdraw ticket) =>
      if ∃ call ∈ s.calls.lookup ticket, call.expired = true ∧ call.orderId = id then .none else m
  | .disconnect => { m with waiter := none }
  | .drainWire k =>
      if asI32 k = id then
        { m with sendNs := none, ackNs := if m.sendNs.isSome then none else m.ackNs }
      else m
  | .drainStrict k => if asI32 k = id then { m with expectedPrice := none, strictNs := none } else m
  | .call (.sent _ none) | .call (.poll _) | .call (.elapse _) => m

omit [F64 F] in
/-- The entries of one id are rewritten, seen from another. -/
theorem update_mapsOf (s : BrokerState F) (k id : Int) (g : OrderEntries F → OrderEntries F) :
    Function.update (mapsOf s) k (g (mapsOf s k)) id =
      if k = id then g (mapsOf s id) else mapsOf s id := by
  rw [Function.update_apply]
  by_cases hid : id = k
  · rw [if_pos hid, if_pos hid.symm, hid]
  · rw [if_neg hid, if_neg (Ne.symm hid)]

/-- **The entries of an order id**, after a step. -/
theorem mapsOf_callStep (fmt : TextFormats F Date) (account : String) (s : AckState F)
    (a : CallStep F) (id : Int) :
    mapsOf (callStep fmt account s a).broker id =
      entriesAfter fmt account s id (mapsOf s.broker id) a := by
  match a with
  | .call (.place orderId now req) =>
      cases hprepared : preparePlace fmt account s.broker orderId s.next now req with
      | error e => simp [callStep, step, AckState.begin, entriesAfter, hprepared, Except.toOption]
      | ok prepared =>
          obtain ⟨frame, broker⟩ := prepared
          have hbroker : (callStep fmt account s (.call (.place orderId now req))).broker =
              broker := by
            simp only [callStep, step, AckState.begin, hprepared]
          rw [hbroker, mapsOf_preparePlace hprepared]
          refine (update_mapsOf s.broker orderId id
            fun m => { m with waiter := some s.next, sendNs := some now }).trans ?_
          simp [entriesAfter, hprepared, Except.toOption]
  | .call (.modify k now req) =>
      cases hprepared : prepareModify fmt account s.broker k s.next now req with
      | error e => simp [callStep, step, AckState.begin, entriesAfter, hprepared, Except.toOption]
      | ok prepared =>
          obtain ⟨frame, broker⟩ := prepared
          obtain ⟨existing, hexisting, hmaps⟩ := mapsOf_prepareModify hprepared
          have hbroker : (callStep fmt account s (.call (.modify k now req))).broker = broker := by
            simp only [callStep, step, AckState.begin, hprepared]
          rw [hbroker, hmaps]
          refine (update_mapsOf s.broker (asI32 k) id fun m =>
            { m with
              waiter := some s.next
              sendNs := some now
              expectedPrice := some ((req.price.or existing.price).getD F64.zero) }).trans ?_
          simp [entriesAfter, hprepared, hexisting, Except.toOption]
  | .call (.sent ticket failure) =>
      cases hcall : s.calls.lookup ticket with
      | none => cases failure <;> simp [callStep, step, AckState.afterSend, entriesAfter, hcall]
      | some call =>
          cases failure with
          | none =>
              cases hsent : call.sent <;>
                simp [callStep, step, AckState.afterSend, entriesAfter, hcall, hsent]
          | some e =>
              cases hsent : call.sent with
              | true => simp [callStep, step, AckState.afterSend, entriesAfter, hcall, hsent]
              | false =>
                  have hbroker : (callStep fmt account s (.call (.sent ticket (some e)))).broker =
                      sendFailed s.broker call.orderId := by
                    simp [callStep, step, AckState.afterSend, hcall, hsent, AckState.finish]
                  rw [hbroker, mapsOf_sendFailed]
                  refine (update_mapsOf s.broker call.orderId id
                    fun m => { m with waiter := none, sendNs := none }).trans ?_
                  simp [entriesAfter, hcall, hsent]
  | .call (.route msg now later) => exact mapsOf_route fmt s.broker msg now later id
  | .call (.poll ticket) => exact congrArg (mapsOf · id) (broker_wake s ticket false)
  | .call (.elapse ticket) => exact congrArg (mapsOf · id) (broker_wake s ticket true)
  | .call (.withdraw ticket) =>
      cases hcall : s.calls.lookup ticket with
      | none => simp [callStep, step, AckState.withdraw, entriesAfter, hcall]
      | some call =>
          cases hexpired : call.expired with
          | false => simp [callStep, step, AckState.withdraw, entriesAfter, hcall, hexpired]
          | true =>
              have hbroker : (callStep fmt account s (.call (.withdraw ticket))).broker =
                  dropWaiter s.broker call.orderId := by
                simp [callStep, step, AckState.withdraw, hcall, hexpired, AckState.finish]
              rw [hbroker, mapsOf_dropWaiter]
              refine (update_mapsOf s.broker call.orderId id fun _ => .none).trans ?_
              simp [entriesAfter, hcall, hexpired]
  | .disconnect => exact mapsOf_disconnect s id
  | .drainWire k =>
      refine (congrFun (mapsOf_drainWireTiming s.broker k) id).trans ?_
      exact update_mapsOf s.broker (asI32 k) id fun m =>
        { m with sendNs := none, ackNs := if m.sendNs.isSome then none else m.ackNs }
  | .drainStrict k =>
      refine (congrFun (mapsOf_drainStrictAmendAckNs s.broker k) id).trans ?_
      exact update_mapsOf s.broker (asI32 k) id fun m =>
        { m with expectedPrice := none, strictNs := none }

omit [F64 F] in
/-- An answer leaves every call with the order id that it has. -/
theorem orderId_deliver (calls : AList (fun _ : Nat => Call)) (waiter : Nat)
    (result : Except BrokerError Unit) (ticket : Nat) :
    ((deliver calls (.ack waiter result : Outbound F)).lookup ticket).map Call.orderId =
      (calls.lookup ticket).map Call.orderId := by
  rw [lookup_deliver]
  split
  · rw [Option.map_map]
    rfl
  · rfl

omit [F64 F] in
theorem orderId_disconnect (s : AckState F) (ticket : Nat) :
    ((disconnect s).calls.lookup ticket).map Call.orderId =
      (s.calls.lookup ticket).map Call.orderId := by
  have hfold : ∀ (waiters : List (Sigma fun _ : Int => Nat)) (calls : AList fun _ : Nat => Call),
      ((waiters.foldl (fun calls e =>
          deliver calls (.ack e.2 (.error disconnected) : Outbound F)) calls).lookup ticket).map
        Call.orderId = (calls.lookup ticket).map Call.orderId := by
    intro waiters
    induction waiters with
    | nil => exact fun _ => rfl
    | cons e rest ih =>
        intro calls
        rw [List.foldl_cons, ih, orderId_deliver]
  exact hfold _ _

theorem orderId_route (fmt : TextFormats F Date) (account : String) (s : AckState F)
    (msg : InboundMsg F) (now later ticket : Nat) :
    ((step fmt account s (.route msg now later)).calls.lookup ticket).map Call.orderId =
      (s.calls.lookup ticket).map Call.orderId := by
  have hroute := route_answers fmt account s msg now later
  dsimp only at hroute
  split at hroute
  · rw [hroute.2]
    split
    · exact orderId_deliver ..
    · rfl
  · rw [hroute.2]

omit [F64 F] in
theorem mem_calls_of_orderId {s s' : AckState F} {ticket : Nat}
    (h : (s'.calls.lookup ticket).map Call.orderId = (s.calls.lookup ticket).map Call.orderId) :
    ticket ∈ s'.calls ↔ ticket ∈ s.calls := by
  rw [← AList.lookup_isSome, ← AList.lookup_isSome, ← Option.isSome_map (f := Call.orderId), h,
    Option.isSome_map]

/-- Tickets stay given out in order. -/
theorem ticketsGiven_callStep {fmt : TextFormats F Date} {account : String} {s : AckState F}
    (h : TicketsGiven s) (a : CallStep F) : TicketsGiven (callStep fmt account s a) := by
  cases a with
  | call a => exact h.step (step_effect fmt account s a)
  | disconnect =>
      constructor
      · intro ticket hticket
        exact h.calls ticket ((mem_calls_of_orderId (orderId_disconnect s ticket)).mp hticket)
      · intro id ticket hlookup
        cases hlookup
  | drainWire id =>
      refine ⟨h.calls, fun k ticket hlookup => h.waiters k ticket ?_⟩
      have hkept : (mapsOf (drainWireTiming s.broker id).2 k).waiter = (mapsOf s.broker k).waiter := by
        rw [mapsOf_drainWireTiming, Function.update_apply]
        split
        · next hk => rw [hk]
        · rfl
      exact hkept.symm.trans hlookup
  | drainStrict id => exact ⟨h.calls, h.waiters⟩

end Maps

end Corsair.Ports.OrderMaps
