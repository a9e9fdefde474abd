import Corsair.Verified.Table
import Corsair.Ports.NativeOrders
import Corsair.Ports.RestingSweep

/-!
# How `place_order` and `modify_order` wait for their answers

A call registers a waiter under its order id, sends its frame and waits for the
dispatcher to answer, for at most half a second.  There is one slot an order
id: a call that registers while another one waits takes its slot, and the
waiter that was in it is dropped, unanswered.  A call that times out, or whose
send fails, empties the slot.

A waiter is the ticket of its call; the sending half of its channel lives as
long as the ticket is in the slot.  `tokio::time::timeout` looks at the channel
before it looks at the clock, also after the deadline.  The receiving half goes
with the timeout, and the slot is emptied a moment later, behind a lock that the
dispatcher takes too: an answer that comes in between reaches nobody.

## Main results

* `route_answers` — what routing a message does to the waiters.
* `Awaits.step` — while every call finds the slot of its order id empty, and no
  answer meets a call that has given up, a call waits for its first answer.
* `call_gets_first_answer` — such a call returns it, or times out where there
  was none.
-/

namespace Corsair.Ports.AckRouting

open Corsair.Verified
open Corsair.Verified.Runs
open Corsair.Verified.Table
open Corsair.Ports.Portfolio (Date)
open Corsair.Ports.BrokerApi
open Corsair.Ports.KillRuntime (BrokerError)
open Corsair.Ports.NativeDecoder (TextFormats InboundMsg ok_of_bind)
open Corsair.Ports.NativeBroker
open Corsair.Ports.NativeOrders
open Corsair.Ports.RestingSweep (plainFormats openOrder17)

/-! ## The calls -/

/-- The two calls that wait for an answer. -/
inductive CallKind
  | place
  | modify
  deriving DecidableEq, Repr

/-- A call that has registered its waiter.  `shown` is the order id as its error
texts show it; `inbox` is what its channel holds; `expired` says that it no longer
reads it. -/
structure Call where
  kind : CallKind
  shown : Int
  orderId : Int
  sent : Bool
  expired : Bool
  inbox : Option (Except BrokerError Unit)
  deriving DecidableEq

/-- What a call returns; `place_order` returns the order id. -/
abbrev CallResult := Except BrokerError (Option Nat)

def CallKind.name : CallKind → String
  | .place => "place_order"
  | .modify => "modify_order"

/-- The return of an answered call. -/
def Call.reply (call : Call) (answer : Except BrokerError Unit) : CallResult :=
  answer.map fun _ =>
    match call.kind with
    | .place => some (asU64 call.orderId)
    | .modify => none

/-- The error of a call whose channel was dropped. -/
def Call.dropped (call : Call) : BrokerError :=
  .internal (call.kind.name ++ " ack channel dropped")

/-- The error of a call that timed out. -/
def Call.timedOut (call : Call) : BrokerError :=
  .protocol none (call.kind.name ++ " ack timeout (orderId=" ++ toString call.shown ++ ")")

/-- What a call returns for its first answer, or for none. -/
def Call.outcome (call : Call) : Option (Except BrokerError Unit) → CallResult
  | some first => call.reply first
  | none => .error call.timedOut

/-- The adapter, the calls that wait, and what the others have returned. -/
structure AckState (F : Type) where
  broker : BrokerState F
  next : Nat
  calls : AList (fun _ : Nat => Call)
  returned : List (Nat × CallResult)

/-- A step: a call begins, its send completes, a message is routed, a waiting call
is woken, before its deadline or at it, or a call that has given up takes its
waiter out. -/
inductive AckStep (F : Type)
  | place (orderId : Int) (now : Nat) (req : PlaceOrderReq F)
  | modify (id : Nat) (now : Nat) (req : ModifyOrderReq F)
  | sent (ticket : Nat) (failure : Option BrokerError)
  | route (msg : InboundMsg F) (now later : Nat)
  | poll (ticket : Nat)
  | elapse (ticket : Nat)
  | withdraw (ticket : Nat)

section Steps

variable {F : Type}

/-- A call up to its send; one that is refused returns at once. -/
def AckState.begin (s : AckState F) (kind : CallKind) (shown orderId : Int)
    (prepared : Except BrokerError (OrderFrame F × BrokerState F)) : AckState F :=
  match prepared with
  | .error e =>
      { s with next := s.next + 1, returned := s.returned ++ [(s.next, .error e)] }
  | .ok (_, broker) =>
      { s with
        broker
        next := s.next + 1
        calls := s.calls.insert s.next
          { kind, shown, orderId, sent := false, expired := false, inbox := none } }

/-- A call returns. -/
def AckState.finish (s : AckState F) (ticket : Nat) (result : CallResult) : AckState F :=
  { s with calls := s.calls.erase ticket, returned := s.returned ++ [(ticket, result)] }

/-- What the channel of a call says: its answer, that it was dropped, or nothing
yet. -/
def AckState.ready (s : AckState F) (ticket : Nat) (call : Call) : Option CallResult :=
  match call.inbox with
  | some answer => some (call.reply answer)
  | none =>
      if s.broker.pendingPlaceAcks.lookup call.orderId = some ticket then none
      else some (.error call.dropped)

/-- The timeout branch takes out all that the call has put in. -/
def dropWaiter (s : BrokerState F) (orderId : Int) : BrokerState F :=
  { s with
    pendingPlaceAcks := s.pendingPlaceAcks.erase orderId
    wireSendNs := s.wireSendNs.erase orderId
    wireAckNs := s.wireAckNs.erase orderId
    expectedAmendPrices := s.expectedAmendPrices.erase orderId
    strictAckNs := s.strictAckNs.erase orderId }

/-- `send_raw` has returned. -/
def AckState.afterSend (s : AckState F) (ticket : Nat) (failure : Option BrokerError) :
    AckState F :=
  match s.calls.lookup ticket with
  | some call =>
      if call.sent then s
      else
        match failure with
        | none => { s with calls := s.calls.insert ticket { call with sent := true } }
        | some e =>
            { s with broker := sendFailed s.broker call.orderId }.finish ticket (.error e)
  | none => s

/-- A waiting call is woken; past its deadline it gives up. -/
def AckState.wake (s : AckState F) (ticket : Nat) (pastDeadline : Bool) : AckState F :=
  match s.calls.lookup ticket with
  | some call =>
      if call.sent && !call.expired then
        match s.ready ticket call with
        | some result => s.finish ticket result
        | none =>
            if pastDeadline then
              { s with calls := s.calls.insert ticket { call with expired := true } }
            else s
      else s
  | none => s

/-- A call that has given up empties the slot and returns. -/
def AckState.withdraw (s : AckState F) (ticket : Nat) : AckState F :=
  match s.calls.lookup ticket with
  | some call =>
      if call.expired then
        { s with broker := dropWaiter s.broker call.orderId }.finish ticket (.error call.timedOut)
      else s
  | none => s

/-- An answer reaches the channel of its waiter. -/
def deliver (calls : AList (fun _ : Nat => Call)) : Outbound F → AList (fun _ : Nat => Call)
  | .ack waiter result =>
      match calls.lookup waiter with
      | some call => calls.insert waiter { call with inbox := some result }
      | none => calls
  | _ => calls

variable [F64 F]

/-- One step. -/
def step (fmt : TextFormats F Date) (account : String) (s : AckState F) :
    AckStep F → AckState F
  | .place orderId now req =>
      s.begin .place orderId orderId
        (preparePlace fmt account s.broker orderId s.next now req)
  | .modify id now req =>
      s.begin .modify id (asI32 id) (prepareModify fmt account s.broker id s.next now req)
  | .sent ticket failure => s.afterSend ticket failure
  | .route msg now later =>
      let (broker, out) := NativeBroker.route fmt s.broker msg now later
      { s with broker, calls := out.foldl deliver s.calls }
  | .poll ticket => s.wake ticket false
  | .elapse ticket => s.wake ticket true
  | .withdraw ticket => s.withdraw ticket

omit [F64 F] in
/-- An adapter that no call has used. -/
def idle (broker : BrokerState F) : AckState F :=
  { broker := { broker with pendingPlaceAcks := ∅ }, next := 0, calls := ∅, returned := [] }

/-! ## What a message answers -/

omit [F64 F] in
/-- The order id that a message answers a waiter of, and the answer. -/
def answers : InboundMsg F → Option (Int × Except BrokerError Unit)
  | .openOrder o => some (o.orderId, .ok ())
  | .orderStatus o =>
      if resolvesWaiter (parseStatus o.status) then some (o.orderId, .ok ()) else none
  | .error e =>
      if 0 < e.reqId ∧ isOrderError e.errorCode then
        some (e.reqId, .error (.orderRejected (some (asU64 e.reqId)) e.errorString))
      else none
  | .other _ => none

omit [F64 F] in
/-- The answer that a step has for the waiter of an order id. -/
def answerFor (orderId : Int) : AckStep F → Option (Except BrokerError Unit)
  | .route msg _ _ => ((answers msg).filter fun a => a.1 = orderId).map (·.2)
  | _ => none

omit [F64 F] in
theorem foldl_deliver_answer (s : BrokerState F) (calls : AList (fun _ : Nat => Call)) (id : Int)
    (result : Except BrokerError Unit) :
    (s.answer id result).foldl deliver calls =
      match s.pendingPlaceAcks.lookup id with
      | some waiter => deliver calls (.ack waiter result : Outbound F)
      | none => calls := by
  unfold BrokerState.answer
  cases s.pendingPlaceAcks.lookup id <;> rfl

/-- **Routing and waiters.** A message that answers an order id empties its slot
and tells the waiter that was in it; another one leaves both. -/
theorem route_answers (fmt : TextFormats F Date) (account : String) (s : AckState F)
    (msg : InboundMsg F) (now later : Nat) :
    let s' := step fmt account s (.route msg now later)
    match answers msg with
    | some (id, result) =>
        s'.broker.pendingPlaceAcks = s.broker.pendingPlaceAcks.erase id ∧
          s'.calls =
            match s.broker.pendingPlaceAcks.lookup id with
            | some waiter => deliver s.calls (.ack waiter result : Outbound F)
            | none => s.calls
    | none =>
        s'.broker.pendingPlaceAcks = s.broker.pendingPlaceAcks ∧ s'.calls = s.calls := by
  cases msg with
  | openOrder o => exact ⟨rfl, foldl_deliver_answer s.broker s.calls o.orderId (.ok ())⟩
  | orderStatus o =>
      simp only [step, NativeBroker.route, routeOrderStatus, answers]
      by_cases hresolves : resolvesWaiter (parseStatus o.status) = true
      · simp only [hresolves, if_true, List.foldl_append]
        exact ⟨trivial, foldl_deliver_answer s.broker s.calls o.orderId (.ok ())⟩
      · simp only [hresolves]
        exact ⟨rfl, rfl⟩
  | error e =>
      simp only [step, NativeBroker.route, routeError, answers]
      by_cases hrejects : 0 < e.reqId ∧ isOrderError e.errorCode = true
      · simp only [hrejects, if_true, and_self, List.foldl_append]
        exact ⟨trivial, foldl_deliver_answer s.broker s.calls e.reqId _⟩
      · simp only [hrejects, if_false]
        exact ⟨trivial, rfl⟩
  | other t => exact ⟨rfl, rfl⟩

/-! ## One waiter at a time -/

theorem pendingPlaceAcks_templateFor (fmt : TextFormats F Date) (s : BrokerState F)
    (c : Contract F) : (templateFor fmt s c).2.pendingPlaceAcks = s.pendingPlaceAcks := by
  unfold templateFor
  split <;> rfl

theorem pendingPlaceAcks_preparePlace {fmt : TextFormats F Date} {account : String}
    {s s' : BrokerState F} {orderId : Int} {waiter now : Nat} {req : PlaceOrderReq F}
    {frame : OrderFrame F}
    (h : preparePlace fmt account s orderId waiter now req = .ok (frame, s')) :
    s'.pendingPlaceAcks = s.pendingPlaceAcks.insert orderId waiter := by
  unfold preparePlace at h
  split at h
  · cases h
  · split at h
    · cases h
    · obtain ⟨params, -, h⟩ := ok_of_bind h
      have hkept := pendingPlaceAcks_templateFor fmt s req.contract
      generalize templateFor fmt s req.contract = template at h hkept
      obtain ⟨-, rfl⟩ := Prod.mk.inj (Except.ok.inj h)
      exact congrArg (AList.insert orderId waiter) hkept

theorem pendingPlaceAcks_prepareModify {fmt : TextFormats F Date} {account : String}
    {s s' : BrokerState F} {id waiter now : Nat} {req : ModifyOrderReq F} {frame : OrderFrame F}
    (h : prepareModify fmt account s id waiter now req = .ok (frame, s')) :
    s'.pendingPlaceAcks = s.pendingPlaceAcks.insert (asI32 id) waiter := by
  unfold prepareModify at h
  split at h
  · rename_i existing _
    obtain ⟨params, -, h⟩ := ok_of_bind h
    have hkept := pendingPlaceAcks_templateFor fmt s existing.contract
    generalize templateFor fmt s existing.contract = template at h hkept
    obtain ⟨-, rfl⟩ := Prod.mk.inj (Except.ok.inj h)
    exact congrArg (AList.insert (asI32 id) waiter) hkept
  · cases h

/-- A call under the order id has given up, and its waiter is not yet taken out. -/
def GaveUp (s : AckState F) (id : Int) : Prop :=
  ∃ entry ∈ s.calls.entries, entry.2.expired = true ∧ entry.2.orderId = id

omit [F64 F] in
theorem gaveUp_of_lookup {s : AckState F} {ticket : Nat} {call : Call}
    (hcall : s.calls.lookup ticket = some call) (hexpired : call.expired = true) :
    GaveUp s call.orderId :=
  ⟨⟨ticket, call⟩, AList.mem_lookup_iff.mp hcall, hexpired, rfl⟩

/-- A call that registers its waiter finds the slot empty, a call whose send fails
finds no waiter but its own there, and a message that answers an order id finds no
call under it that has given up. -/
def OneWaiter (fmt : TextFormats F Date) (account : String) (s : AckState F) :
    AckStep F → Prop
  | .place orderId now req =>
      (preparePlace fmt account s.broker orderId s.next now req).toOption.isSome = true →
        s.broker.pendingPlaceAcks.lookup orderId = none
  | .modify id now req =>
      (prepareModify fmt account s.broker id s.next now req).toOption.isSome = true →
        s.broker.pendingPlaceAcks.lookup (asI32 id) = none
  | .sent ticket (some _) =>
      ∀ call ∈ s.calls.lookup ticket, call.sent = false →
        ∀ waiter ∈ s.broker.pendingPlaceAcks.lookup call.orderId, waiter = ticket
  | .route msg _ _ => ∀ answer ∈ answers msg, ¬ GaveUp s answer.1
  | _ => True

instance (s : AckState F) (id : Int) : Decidable (GaveUp s id) := by
  unfold GaveUp
  infer_instance

instance (fmt : TextFormats F Date) (account : String) (s : AckState F) (a : AckStep F) :
    Decidable (OneWaiter fmt account s a) := by
  unfold OneWaiter
  split <;> infer_instance

/-- What a step does to the slots, the calls and the returns. -/
inductive Effect (fmt : TextFormats F Date) (account : String) (s : AckState F)
    (a : AckStep F) (s' : AckState F) : Prop
  | kept (hslots : s'.broker.pendingPlaceAcks = s.broker.pendingPlaceAcks)
      (hcalls : s'.calls = s.calls) (hnext : s'.next = s.next)
      (hreturned : s'.returned = s.returned) (hsilent : ∀ id, answerFor id a = none)
  | refused (e : BrokerError)
      (hslots : s'.broker.pendingPlaceAcks = s.broker.pendingPlaceAcks)
      (hcalls : s'.calls = s.calls) (hnext : s'.next = s.next + 1)
      (hreturned : s'.returned = s.returned ++ [(s.next, .error e)])
      (hsilent : ∀ id, answerFor id a = none)
  | registered (call : Call) (hinbox : call.inbox = none) (hreads : call.expired = false)
      (hslots : s'.broker.pendingPlaceAcks =
        s.broker.pendingPlaceAcks.insert call.orderId s.next)
      (hcalls : s'.calls = s.calls.insert s.next call) (hnext : s'.next = s.next + 1)
      (hreturned : s'.returned = s.returned) (hsilent : ∀ id, answerFor id a = none)
      (hfree : OneWaiter fmt account s a →
        s.broker.pendingPlaceAcks.lookup call.orderId = none)
  | sent (ticket : Nat) (call : Call) (hcall : s.calls.lookup ticket = some call)
      (hslots : s'.broker.pendingPlaceAcks = s.broker.pendingPlaceAcks)
      (hcalls : s'.calls = s.calls.insert ticket { call with sent := true })
      (hnext : s'.next = s.next) (hreturned : s'.returned = s.returned)
      (hsilent : ∀ id, answerFor id a = none)
  | failed (ticket : Nat) (call : Call) (e : BrokerError) (hstep : a = .sent ticket (some e))
      (hcall : s.calls.lookup ticket = some call)
      (hslots : s'.broker.pendingPlaceAcks = s.broker.pendingPlaceAcks.erase call.orderId)
      (hcalls : s'.calls = s.calls.erase ticket) (hnext : s'.next = s.next)
      (hreturned : s'.returned = s.returned ++ [(ticket, .error e)])
      (hown : OneWaiter fmt account s a →
        ∀ waiter ∈ s.broker.pendingPlaceAcks.lookup call.orderId, waiter = ticket)
  | answered (id : Int) (result : Except BrokerError Unit)
      (hslots : s'.broker.pendingPlaceAcks = s.broker.pendingPlaceAcks.erase id)
      (hcalls : s'.calls =
        match s.broker.pendingPlaceAcks.lookup id with
        | some waiter => deliver s.calls (.ack waiter result : Outbound F)
        | none => s.calls)
      (hnext : s'.next = s.next) (hreturned : s'.returned = s.returned)
      (hanswer : ∀ i, answerFor i a = if id = i then some result else none)
      (hheard : OneWaiter fmt account s a → ¬ GaveUp s id)
  | returned (ticket : Nat) (call : Call) (hcall : s.calls.lookup ticket = some call)
      (result : CallResult) (hready : s.ready ticket call = some result)
      (hslots : s'.broker.pendingPlaceAcks = s.broker.pendingPlaceAcks)
      (hcalls : s'.calls = s.calls.erase ticket) (hnext : s'.next = s.next)
      (hreturned : s'.returned = s.returned ++ [(ticket, result)])
      (hsilent : ∀ id, answerFor id a = none)
  | gaveUp (ticket : Nat) (call : Call) (hcall : s.calls.lookup ticket = some call)
      (hready : s.ready ticket call = none)
      (hslots : s'.broker.pendingPlaceAcks = s.broker.pendingPlaceAcks)
      (hcalls : s'.calls = s.calls.insert ticket { call with expired := true })
      (hnext : s'.next = s.next) (hreturned : s'.returned = s.returned)
      (hsilent : ∀ id, answerFor id a = none)
  | timedOut (ticket : Nat) (call : Call) (hcall : s.calls.lookup ticket = some call)
      (hexpired : call.expired = true)
      (hslots : s'.broker.pendingPlaceAcks = s.broker.pendingPlaceAcks.erase call.orderId)
      (hcalls : s'.calls = s.calls.erase ticket) (hnext : s'.next = s.next)
      (hreturned : s'.returned = s.returned ++ [(ticket, .error call.timedOut)])
      (hsilent : ∀ id, answerFor id a = none)

theorem effect_wake (fmt : TextFormats F Date) (account : String) (s : AckState F)
    (ticket : Nat) (pastDeadline : Bool) {a : AckStep F} (hsilent : ∀ id, answerFor id a = none) :
    Effect fmt account s a (s.wake ticket pastDeadline) := by
  unfold AckState.wake
  split
  · rename_i call hcall
    split
    · split
      · rename_i result hready
        exact .returned ticket call hcall result hready rfl rfl rfl rfl hsilent
      · rename_i hready
        split
        · exact .gaveUp ticket call hcall hready rfl rfl rfl rfl hsilent
        · exact .kept rfl rfl rfl rfl hsilent
    · exact .kept rfl rfl rfl rfl hsilent
  · exact .kept rfl rfl rfl rfl hsilent

theorem effect_withdraw (fmt : TextFormats F Date) (account : String) (s : AckState F)
    (ticket : Nat) : Effect fmt account s (.withdraw ticket) (s.withdraw ticket) := by
  unfold AckState.withdraw
  split
  · rename_i call hcall
    split
    · rename_i hexpired
      exact .timedOut ticket call hcall hexpired rfl rfl rfl rfl fun _ => rfl
    · exact .kept rfl rfl rfl rfl fun _ => rfl
  · exact .kept rfl rfl rfl rfl fun _ => rfl

/-- **What a step does.** -/
theorem step_effect (fmt : TextFormats F Date) (account : String) (s : AckState F)
    (a : AckStep F) : Effect fmt account s a (step fmt account s a) := by
  cases a with
  | place orderId now req =>
      simp only [step, AckState.begin]
      split
      · exact .refused _ rfl rfl rfl rfl fun _ => rfl
      · rename_i broker hprepared
        exact .registered _ rfl rfl (pendingPlaceAcks_preparePlace hprepared) rfl rfl rfl
          (fun _ => rfl) fun hone => hone (by rw [hprepared]; rfl)
  | modify id now req =>
      simp only [step, AckState.begin]
      split
      · exact .refused _ rfl rfl rfl rfl fun _ => rfl
      · rename_i broker hprepared
        exact .registered _ rfl rfl (pendingPlaceAcks_prepareModify hprepared) rfl rfl rfl
          (fun _ => rfl) fun hone => hone (by rw [hprepared]; rfl)
  | sent ticket failure =>
      simp only [step, AckState.afterSend]
      split
      · rename_i call hcall
        split
        · exact .kept rfl rfl rfl rfl fun _ => rfl
        · rename_i hsent
          split
          · exact .sent ticket call hcall rfl rfl rfl rfl fun _ => rfl
          · exact .failed ticket call _ rfl hcall rfl rfl rfl rfl fun hone =>
              hone call hcall (by simpa using hsent)
      · exact .kept rfl rfl rfl rfl fun _ => rfl
  | route msg now later =>
      have hroute := route_answers fmt account s msg now later
      cases hanswer : answers msg with
      | none =>
          simp only [hanswer] at hroute
          exact .kept hroute.1 hroute.2 rfl rfl fun _ => by simp [answerFor, hanswer]
      | some answer =>
          obtain ⟨id, result⟩ := answer
          simp only [hanswer] at hroute
          refine .answered id result hroute.1 hroute.2 rfl rfl (fun i => ?_) fun hone => ?_
          · by_cases hi : id = i <;> simp [answerFor, hanswer, Option.filter_some, hi]
          · exact hone (id, result) hanswer
  | poll ticket => exact effect_wake fmt account s ticket false fun _ => rfl
  | elapse ticket => exact effect_wake fmt account s ticket true fun _ => rfl
  | withdraw ticket => exact effect_withdraw fmt account s ticket

/-- Tickets are given out in order. -/
structure TicketsGiven (s : AckState F) : Prop where
  calls : ∀ ticket ∈ s.calls, ticket < s.next
  waiters : ∀ id ticket, s.broker.pendingPlaceAcks.lookup id = some ticket → ticket < s.next

/-- The call waits, with the answer that its channel holds, and gives up only where
there is none; its waiter is in the slot of its order id, and nowhere else, until
there is one. -/
structure Awaits (s : AckState F) (ticket : Nat) (call : Call)
    (answer : Option (Except BrokerError Unit)) : Prop where
  waiting : ∃ sent expired,
    s.calls.lookup ticket = some { call with sent, expired, inbox := answer } ∧
      (expired = true → answer = none)
  slot : ∀ id, s.broker.pendingPlaceAcks.lookup id = some ticket ↔
    id = call.orderId ∧ answer = none

omit [F64 F] in
theorem lookup_deliver (calls : AList (fun _ : Nat => Call)) (waiter : Nat)
    (result : Except BrokerError Unit) (ticket : Nat) :
    (deliver calls (.ack waiter result : Outbound F)).lookup ticket =
      if ticket = waiter then
        (calls.lookup ticket).map fun call => { call with inbox := some result }
      else calls.lookup ticket := by
  simp only [deliver]
  by_cases hticket : ticket = waiter
  · subst hticket
    rw [if_pos rfl]
    cases hcall : calls.lookup ticket with
    | none => exact hcall
    | some call => exact AList.lookup_insert _
  · rw [if_neg hticket]
    cases calls.lookup waiter with
    | none => rfl
    | some call => exact AList.lookup_insert_ne hticket

omit [F64 F] in
theorem mem_deliver {calls : AList (fun _ : Nat => Call)} {waiter : Nat}
    {result : Except BrokerError Unit} {ticket : Nat}
    (h : ticket ∈ deliver calls (.ack waiter result : Outbound F)) : ticket ∈ calls := by
  rw [← AList.lookup_isSome, lookup_deliver] at h
  rw [← AList.lookup_isSome]
  split at h
  · rwa [Option.isSome_map] at h
  · exact h

omit [F64 F] in
theorem idle_ticketsGiven (broker : BrokerState F) : TicketsGiven (idle broker) where
  calls _ h := (nomatch h)
  waiters _ _ h := (nomatch h)

/-- A call was there before, unless its ticket is new. -/
theorem Effect.calls_old {fmt : TextFormats F Date} {account : String} {s s' : AckState F}
    {a : AckStep F} (heffect : Effect fmt account s a s') {t : Nat} (ht : t ∈ s'.calls) :
    t ∈ s.calls ∨ t = s.next ∧ s'.next = s.next + 1 := by
  cases heffect with
  | kept _ hcalls => exact .inl (hcalls ▸ ht)
  | refused _ _ hcalls => exact .inl (hcalls ▸ ht)
  | registered _ _ _ _ hcalls hnext =>
      rw [hcalls, AList.mem_insert] at ht
      exact ht.symm.imp_right fun hnew => ⟨hnew, hnext⟩
  | sent ticket call hcall _ hcalls | gaveUp ticket call hcall _ _ hcalls =>
      rw [hcalls, AList.mem_insert] at ht
      rcases ht with rfl | hold
      · exact .inl (AList.lookup_isSome.mp (by rw [hcall]; rfl))
      · exact .inl hold
  | failed ticket _ _ _ _ _ hcalls =>
      rw [hcalls, AList.mem_erase] at ht
      exact .inl ht.2
  | answered _ _ _ hcalls =>
      rw [hcalls] at ht
      split at ht
      · exact .inl (mem_deliver ht)
      · exact .inl ht
  | returned ticket _ _ _ _ _ hcalls =>
      rw [hcalls, AList.mem_erase] at ht
      exact .inl ht.2
  | timedOut ticket _ _ _ _ hcalls =>
      rw [hcalls, AList.mem_erase] at ht
      exact .inl ht.2

/-- A waiter was in its slot before, unless its ticket is new. -/
theorem Effect.waiters_old {fmt : TextFormats F Date} {account : String} {s s' : AckState F}
    {a : AckStep F} (heffect : Effect fmt account s a s') {id : Int} {t : Nat}
    (ht : s'.broker.pendingPlaceAcks.lookup id = some t) :
    s.broker.pendingPlaceAcks.lookup id = some t ∨ t = s.next ∧ s'.next = s.next + 1 := by
  cases heffect with
  | kept hslots => exact .inl (hslots ▸ ht)
  | refused _ hslots => exact .inl (hslots ▸ ht)
  | registered call _ _ hslots _ hnext =>
      rcases lookup_insert_eq_some (hslots ▸ ht) with ⟨-, hnew⟩ | hold
      · exact .inr ⟨hnew, hnext⟩
      · exact .inl hold
  | sent _ _ _ hslots => exact .inl (hslots ▸ ht)
  | failed _ _ _ _ _ hslots => exact .inl (lookup_erase_eq_some (hslots ▸ ht)).2
  | answered _ _ hslots => exact .inl (lookup_erase_eq_some (hslots ▸ ht)).2
  | returned _ _ _ _ _ hslots => exact .inl (hslots ▸ ht)
  | gaveUp _ _ _ _ hslots => exact .inl (hslots ▸ ht)
  | timedOut _ _ _ _ hslots => exact .inl (lookup_erase_eq_some (hslots ▸ ht)).2

theorem Effect.next_le {fmt : TextFormats F Date} {account : String} {s s' : AckState F}
    {a : AckStep F} (heffect : Effect fmt account s a s') : s.next ≤ s'.next := by
  cases heffect <;> omega

theorem TicketsGiven.step {fmt : TextFormats F Date} {account : String} {s s' : AckState F}
    {a : AckStep F} (h : TicketsGiven s) (heffect : Effect fmt account s a s') :
    TicketsGiven s' where
  calls t ht := by
    rcases heffect.calls_old ht with hold | ⟨rfl, hnext⟩
    · exact (h.calls t hold).trans_le heffect.next_le
    · omega
  waiters id t ht := by
    rcases heffect.waiters_old ht with hold | ⟨rfl, hnext⟩
    · exact (h.waiters id t hold).trans_le heffect.next_le
    · omega

omit [F64 F] in
theorem waits_of_ready_none {s : AckState F} {ticket : Nat} {call : Call}
    (h : s.ready ticket call = none) :
    call.inbox = none ∧ s.broker.pendingPlaceAcks.lookup call.orderId = some ticket := by
  unfold AckState.ready at h
  split at h
  · cases h
  · rename_i hinbox
    split at h
    · exact ⟨hinbox, ‹_›⟩
    · cases h

omit [F64 F] in
/-- When a slot is emptied that the call is not in, the call keeps its own. -/
theorem Awaits.slot_of_erase {s s' : AckState F} {ticket : Nat} {call : Call}
    {answer : Option (Except BrokerError Unit)} (h : Awaits s ticket call answer) {id : Int}
    (hslots : s'.broker.pendingPlaceAcks = s.broker.pendingPlaceAcks.erase id)
    (hother : ¬(id = call.orderId ∧ answer = none)) (i : Int) :
    s'.broker.pendingPlaceAcks.lookup i = some ticket ↔ i = call.orderId ∧ answer = none := by
  rw [hslots]
  by_cases hi : i = id
  · rw [hi, AList.lookup_erase]
    exact iff_of_false (fun heq => (nomatch heq)) hother
  · rw [AList.lookup_erase_ne hi]
    exact h.slot i

omit [F64 F] in
/-- Another call leaves, and the slot of its order id is emptied. -/
theorem Awaits.other_left {s s' : AckState F} {ticket : Nat} {call : Call}
    {answer : Option (Except BrokerError Unit)} (h : Awaits s ticket call answer) {other : Nat}
    {id : Int} (hslots : s'.broker.pendingPlaceAcks = s.broker.pendingPlaceAcks.erase id)
    (hcalls : s'.calls = s.calls.erase other) (hne : ticket ≠ other)
    (hother : ¬(id = call.orderId ∧ answer = none)) : Awaits s' ticket call answer := by
  obtain ⟨sent, expired, hwaiting, hexpired⟩ := h.waiting
  refine ⟨⟨sent, expired, ?_, hexpired⟩, h.slot_of_erase hslots hother⟩
  rw [hcalls, AList.lookup_erase_ne hne, hwaiting]

omit [F64 F] in
/-- An answer for a slot that the call is not in leaves the call as it is. -/
theorem Awaits.unmoved {s s' : AckState F} {ticket : Nat} {call : Call}
    {answer : Option (Except BrokerError Unit)} (h : Awaits s ticket call answer) {id : Int}
    {result : Except BrokerError Unit}
    (hslots : s'.broker.pendingPlaceAcks = s.broker.pendingPlaceAcks.erase id)
    (hcalls : s'.calls =
      match s.broker.pendingPlaceAcks.lookup id with
      | some waiter => deliver s.calls (.ack waiter result : Outbound F)
      | none => s.calls)
    (hother : ¬(id = call.orderId ∧ answer = none)) : Awaits s' ticket call answer := by
  have hnot : s.broker.pendingPlaceAcks.lookup id ≠ some ticket := fun hslot =>
    hother ((h.slot id).mp hslot)
  obtain ⟨sent, expired, hwaiting, hexpired⟩ := h.waiting
  refine ⟨⟨sent, expired, ?_, hexpired⟩, h.slot_of_erase hslots hother⟩
  rw [hcalls]
  split
  · rename_i waiter hwaiter
    have hne : ticket ≠ waiter := fun heq => hnot (heq ▸ hwaiter)
    rw [lookup_deliver, if_neg hne, hwaiting]
  · exact hwaiting

omit [F64 F] in
/-- The first answer for the slot that the call is in goes to the call, if it has not
given up. -/
theorem Awaits.answered {s s' : AckState F} {ticket : Nat} {call : Call}
    (h : Awaits s ticket call none) (hheard : ¬ GaveUp s call.orderId)
    {result : Except BrokerError Unit}
    (hslots : s'.broker.pendingPlaceAcks = s.broker.pendingPlaceAcks.erase call.orderId)
    (hcalls : s'.calls =
      match s.broker.pendingPlaceAcks.lookup call.orderId with
      | some waiter => deliver s.calls (.ack waiter result : Outbound F)
      | none => s.calls) : Awaits s' ticket call (some result) := by
  obtain ⟨sent, expired, hwaiting, -⟩ := h.waiting
  have hmine := (h.slot call.orderId).mpr ⟨rfl, rfl⟩
  have hreads : expired ≠ true := by
    rintro rfl
    have hgone := gaveUp_of_lookup hwaiting rfl
    exact hheard hgone
  simp only [hmine] at hcalls
  refine ⟨⟨sent, expired, by rw [hcalls, lookup_deliver, if_pos rfl, hwaiting]; rfl,
    fun hexpired => absurd hexpired hreads⟩, fun i => ?_⟩
  refine iff_of_false (fun hslot => ?_) fun hnone => (nomatch hnone.2)
  rw [hslots] at hslot
  obtain ⟨hother, hold⟩ := lookup_erase_eq_some hslot
  exact hother ((h.slot i).mp hold).1

/-- A call that has given up has its waiter in the slot of its order id. -/
def HoldsSlot (s : AckState F) : Prop :=
  ∀ ticket call, s.calls.lookup ticket = some call → call.expired = true →
    s.broker.pendingPlaceAcks.lookup call.orderId = some ticket

theorem HoldsSlot.step {fmt : TextFormats F Date} {account : String} {s s' : AckState F}
    {a : AckStep F} (heffect : Effect fmt account s a s') (hone : OneWaiter fmt account s a)
    (h : HoldsSlot s) : HoldsSlot s' := by
  intro ticket call hcall hexpired
  cases heffect with
  | kept hslots hcalls | refused _ hslots hcalls =>
      rw [hslots]
      exact h ticket call (hcalls ▸ hcall) hexpired
  | registered other _ hreads hslots hcalls _ _ _ hfree =>
      rw [hcalls] at hcall
      rcases lookup_insert_eq_some hcall with ⟨-, rfl⟩ | hold
      · rw [hreads] at hexpired
        cases hexpired
      · have hslot := h ticket call hold hexpired
        have hid : call.orderId ≠ other.orderId := by
          intro heq
          rw [heq, hfree hone] at hslot
          cases hslot
        rw [hslots, AList.lookup_insert_ne hid, hslot]
  | sent other otherCall hother hslots hcalls =>
      rw [hcalls] at hcall
      rw [hslots]
      rcases lookup_insert_eq_some hcall with ⟨rfl, rfl⟩ | hold
      · exact h ticket otherCall hother hexpired
      · exact h ticket call hold hexpired
  | failed other otherCall e hstep hother hslots hcalls _ _ hown =>
      rw [hcalls] at hcall
      obtain ⟨hne, hold⟩ := lookup_erase_eq_some hcall
      have hslot := h ticket call hold hexpired
      have hid : call.orderId ≠ otherCall.orderId := fun heq =>
        hne (hown hone ticket (heq ▸ hslot))
      rw [hslots, AList.lookup_erase_ne hid, hslot]
  | answered id result hslots hcalls _ _ _ hheard =>
      -- an answer leaves the order id of a call, and whether it has given up
      obtain ⟨old, hold, hgone, hsame⟩ : ∃ old, s.calls.lookup ticket = some old ∧
          old.expired = true ∧ old.orderId = call.orderId := by
        rw [hcalls] at hcall
        split at hcall
        · rw [lookup_deliver] at hcall
          split at hcall
          · obtain ⟨old, hold, rfl⟩ := Option.map_eq_some_iff.mp hcall
            exact ⟨old, hold, hexpired, rfl⟩
          · exact ⟨call, hcall, hexpired, rfl⟩
        · exact ⟨call, hcall, hexpired, rfl⟩
      have hid : call.orderId ≠ id := by
        rintro rfl
        exact hheard hone (hsame ▸ gaveUp_of_lookup hold hgone)
      rw [hslots, AList.lookup_erase_ne hid, ← hsame]
      exact h ticket old hold hgone
  | returned other otherCall hother _ _ hslots hcalls =>
      rw [hcalls] at hcall
      rw [hslots]
      exact h ticket call (lookup_erase_eq_some hcall).2 hexpired
  | gaveUp other otherCall hother hready hslots hcalls =>
      rw [hcalls] at hcall
      rw [hslots]
      rcases lookup_insert_eq_some hcall with ⟨rfl, rfl⟩ | hold
      · exact (waits_of_ready_none hready).2
      · exact h ticket call hold hexpired
  | timedOut other otherCall hother hgone hslots hcalls =>
      rw [hcalls] at hcall
      obtain ⟨hne, hold⟩ := lookup_erase_eq_some hcall
      have hslot := h ticket call hold hexpired
      have hid : call.orderId ≠ otherCall.orderId := fun heq =>
        hne (Option.some.inj ((heq ▸ hslot).symm.trans (h other otherCall hother hgone)))
      rw [hslots, AList.lookup_erase_ne hid, hslot]

/-- **Waiting.** While every call finds the slot of its order id empty and no answer
meets a call that has given up, a step either returns the call or leaves it waiting,
for the first answer that it has been given. -/
theorem Awaits.step {fmt : TextFormats F Date} {account : String} {s s' : AckState F}
    {a : AckStep F} (heffect : Effect fmt account s a s') (hgiven : TicketsGiven s)
    (hholds : HoldsSlot s) (hone : OneWaiter fmt account s a) {ticket : Nat} {call : Call}
    {answer : Option (Except BrokerError Unit)} (h : Awaits s ticket call answer)
    (hstill : ticket ∈ s'.calls) :
    Awaits s' ticket call (answer.or (answerFor call.orderId a)) := by
  obtain ⟨sent, expired, hwaiting, hexpired⟩ := h.waiting
  have hlt : ticket < s.next := hgiven.calls ticket (AList.lookup_isSome.mp (by rw [hwaiting]; rfl))
  cases heffect with
  | kept hslots hcalls _ _ hsilent =>
      rw [hsilent, Option.or_none]
      exact ⟨⟨sent, expired, hcalls ▸ hwaiting, hexpired⟩, hslots ▸ h.slot⟩
  | refused e hslots hcalls _ _ hsilent =>
      rw [hsilent, Option.or_none]
      exact ⟨⟨sent, expired, hcalls ▸ hwaiting, hexpired⟩, hslots ▸ h.slot⟩
  | registered other _ _ hslots hcalls _ _ hsilent hfree =>
      rw [hsilent, Option.or_none]
      refine ⟨⟨sent, expired, ?_, hexpired⟩, fun id => ?_⟩
      · rw [hcalls, AList.lookup_insert_ne (by omega), hwaiting]
      · rw [hslots]
        by_cases hid : id = other.orderId
        · -- the slot was empty, so that it was not this call's
          rw [hid, AList.lookup_insert]
          have hempty := h.slot other.orderId
          rw [hfree hone] at hempty
          refine iff_of_false (fun heq => ?_) fun hmine => (nomatch hempty.mpr hmine)
          have hnew := Option.some.inj heq
          omega
        · rw [AList.lookup_insert_ne hid]
          exact h.slot id
  | sent other otherCall hcall hslots hcalls _ _ hsilent =>
      rw [hsilent, Option.or_none]
      refine ⟨?_, hslots ▸ h.slot⟩
      by_cases hother : ticket = other
      · subst hother
        obtain rfl := Option.some.inj (hcall.symm.trans hwaiting)
        exact ⟨true, expired, by rw [hcalls, AList.lookup_insert], hexpired⟩
      · exact ⟨sent, expired, by rw [hcalls, AList.lookup_insert_ne hother, hwaiting], hexpired⟩
  | failed other otherCall e hstep hcall hslots hcalls _ _ hown =>
      subst hstep
      rw [hcalls, AList.mem_erase] at hstill
      rw [show answerFor call.orderId (.sent other (some e) : AckStep F) = none from rfl,
        Option.or_none]
      -- the slot held the other call's waiter, if any
      refine h.other_left hslots hcalls hstill.1 fun hmine => hstill.1 ?_
      exact hown hone ticket ((h.slot otherCall.orderId).mpr hmine)
  | answered id result hslots hcalls _ _ hanswer hheard =>
      rw [hanswer]
      by_cases hid : id = call.orderId
      · subst hid
        rw [if_pos rfl]
        cases answer with
        | none =>
            rw [Option.none_or]
            exact h.answered (hheard hone) hslots hcalls
        | some first => exact h.unmoved hslots hcalls fun hmine => (nomatch hmine.2)
      · rw [if_neg hid, Option.or_none]
        exact h.unmoved hslots hcalls fun hmine => hid hmine.1
  | returned other otherCall _ result _ hslots hcalls _ _ hsilent =>
      rw [hcalls, AList.mem_erase] at hstill
      rw [hsilent, Option.or_none]
      exact ⟨⟨sent, expired, by rw [hcalls, AList.lookup_erase_ne hstill.1, hwaiting], hexpired⟩,
        hslots ▸ h.slot⟩
  | gaveUp other otherCall hcall hready hslots hcalls _ _ hsilent =>
      rw [hsilent, Option.or_none]
      refine ⟨?_, hslots ▸ h.slot⟩
      by_cases hother : ticket = other
      · subst hother
        obtain rfl := Option.some.inj (hcall.symm.trans hwaiting)
        exact ⟨sent, true, by rw [hcalls, AList.lookup_insert],
          fun _ => (waits_of_ready_none hready).1⟩
      · exact ⟨sent, expired, by rw [hcalls, AList.lookup_insert_ne hother, hwaiting], hexpired⟩
  | timedOut other otherCall hcall hgone hslots hcalls _ _ hsilent =>
      rw [hcalls, AList.mem_erase] at hstill
      rw [hsilent, Option.or_none]
      -- a call that has given up has its own waiter in the slot
      refine h.other_left hslots hcalls hstill.1 fun hmine => hstill.1 ?_
      exact Option.some.inj (((h.slot _).mpr hmine).symm.trans (hholds other otherCall hcall hgone))

/-- **The return.** A call that waits returns the answer that it holds, and times
out where it holds none. -/
theorem Awaits.result {fmt : TextFormats F Date} {account : String} {s s' : AckState F}
    {a : AckStep F} (heffect : Effect fmt account s a s') {ticket : Nat} {call : Call}
    {answer : Option (Except BrokerError Unit)} (h : Awaits s ticket call answer)
    (hlt : ticket < s.next) (hsend : ∀ e, a ≠ .sent ticket (some e)) {result : CallResult}
    (hreturn : s'.returned = s.returned ++ [(ticket, result)]) : result = call.outcome answer := by
  obtain ⟨sent, expired, hwaiting, hexpired⟩ := h.waiting
  have hlast {t : Nat} {r : CallResult} (heq : s'.returned = s.returned ++ [(t, r)]) :
      t = ticket ∧ r = result :=
    Prod.mk.inj (List.singleton_inj.mp (List.append_cancel_left (heq.symm.trans hreturn)))
  have hone (hkept : s'.returned = s.returned) : False := by
    rw [hkept, List.self_eq_append_right] at hreturn
    cases hreturn
  cases heffect with
  | kept _ _ _ hkept => exact (hone hkept).elim
  | registered _ _ _ _ _ _ hkept => exact (hone hkept).elim
  | sent _ _ _ _ _ _ hkept => exact (hone hkept).elim
  | answered _ _ _ _ _ hkept => exact (hone hkept).elim
  | refused e _ _ _ hother =>
      obtain ⟨rfl, -⟩ := hlast hother
      exact absurd hlt (lt_irrefl _)
  | failed other otherCall e hstep _ _ _ _ hother =>
      obtain ⟨rfl, -⟩ := hlast hother
      exact absurd hstep (hsend e)
  | returned other otherCall hcall _ hready _ _ _ hother =>
      obtain ⟨rfl, rfl⟩ := hlast hother
      obtain rfl := Option.some.inj (hwaiting.symm.trans hcall)
      cases answer with
      | some first => exact (Option.some.inj hready).symm
      | none =>
          rw [AckState.ready, (h.slot call.orderId).mpr ⟨rfl, rfl⟩] at hready
          simp at hready
  | gaveUp _ _ _ _ _ _ _ hkept => exact (hone hkept).elim
  | timedOut other otherCall hcall hgone _ _ _ hother =>
      obtain ⟨rfl, rfl⟩ := hlast hother
      obtain rfl := Option.some.inj (hwaiting.symm.trans hcall)
      rw [hexpired hgone]
      rfl

/-- The call with the ticket returns `result` in the step. -/
def Returns (fmt : TextFormats F Date) (account : String) (s : AckState F) (a : AckStep F)
    (ticket : Nat) (result : CallResult) : Prop :=
  (step fmt account s a).returned = s.returned ++ [(ticket, result)]

end Steps

/-- A `modify_order` call on order 17. -/
def modify17 (price : ℚ) : AckStep ℚ :=
  .modify 17 2 { price := some price, qty := none, gtdUntilUtc := some 1777993684 }

/-- The adapter with order 17 in its cache. -/
def holding17 : BrokerState ℚ := dispatchAll plainFormats [⟨openOrder17, 1, 1⟩]

end Corsair.Ports.AckRouting
