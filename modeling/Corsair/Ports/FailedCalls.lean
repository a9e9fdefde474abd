import Corsair.Ports.OrderMaps

/-!
# What a failed order call leaves behind

A call that fails should leave none of the five entries of its order id.  The timeout takes
all of them out.  The other error exits do not: a send that fails takes out the waiter and
the send time, and a reject, a dropped channel and a disconnect take out nothing but the
waiter.  And once the call is gone, a message about its order id stamps a new answer time.

`FailState` keeps, beside the calls, whether the last call that returned for an order id
failed.

## Main results

* `nothingLeft_finish` — what an error exit has to find.
* `nothing_left_iff` — in a run from idle, failed calls leave nothing behind all the way just
  if every error exit but the timeout finds the entries gone that it does not take out, and
  no answer comes for an order id whose last call failed and that no call waits for.
* `failed_modify_send_leaves_price`, `returned_error_leaves_send_time` — a lone call that
  fails by its send or returns an error it was sent does leave something.
-/

namespace Corsair.Ports.FailedCalls

open Corsair.Verified
open Corsair.Verified.Runs
open Corsair.Ports.Portfolio (Date)
open Corsair.Ports.BrokerApi
open Corsair.Ports.KillRuntime (BrokerError)
open Corsair.Ports.NativeDecoder
open Corsair.Ports.NativeBroker
open Corsair.Ports.NativeOrders
open Corsair.Ports.RestingSweep (plainFormats)
open Corsair.Ports.AckRouting
open Corsair.Ports.OrderMaps

section Failed

variable {F : Type}

/-- The calls, and whether the last one that returned for an order id failed. -/
structure FailState (F : Type) where
  ack : AckState F
  failed : Int → Bool

/-- The result is an error. -/
def isError : CallResult → Bool
  | .error _ => true
  | .ok _ => false

/-- A call that had registered returns. -/
def noteReturn (calls : AList (fun _ : Nat => Call)) (failed : Int → Bool)
    (returned : Nat × CallResult) : Int → Bool :=
  match calls.lookup returned.1 with
  | some call => Function.update failed call.orderId (isError returned.2)
  | none => failed

/-- A call is outstanding for the order id. -/
def Waiting (s : FailState F) (id : Int) : Prop :=
  ∃ ticket call, s.ack.calls.lookup ticket = some call ∧ call.orderId = id

/-- No other call is outstanding for the order id. -/
def Alone (s : FailState F) (ticket : Nat) (id : Int) : Prop :=
  ∀ other call, s.ack.calls.lookup other = some call → call.orderId = id → other = ticket

/-- The last call that returned for the order id failed, and no other is outstanding. -/
def Owed (s : FailState F) (id : Int) : Prop := s.failed id = true ∧ ¬ Waiting s id

/-- Failed calls have left nothing behind. -/
def NothingLeft (s : FailState F) : Prop := ∀ id, Owed s id → mapsOf s.ack.broker id = .none

/-- Only one order id is touched. -/
theorem nothingLeft_iff_of_touched {s s' : FailState F} (h : NothingLeft s) (touched : Int)
    (howed : ∀ id, id ≠ touched → (Owed s' id → Owed s id))
    (hmaps : ∀ id, id ≠ touched → mapsOf s.ack.broker id = .none →
      mapsOf s'.ack.broker id = .none) :
    NothingLeft s' ↔ (Owed s' touched → mapsOf s'.ack.broker touched = .none) := by
  constructor
  · exact fun hleft => hleft touched
  · intro htouched id hid
    by_cases heq : id = touched
    · subst heq
      exact htouched hid
    · exact hmaps id heq (h id (howed id heq hid))

/-- The same calls are outstanding, and nothing returned. -/
theorem owed_iff_of_kept {s s' : FailState F} (hfailed : s'.failed = s.failed)
    (hcalls : ∀ ticket, (s'.ack.calls.lookup ticket).map Call.orderId =
      (s.ack.calls.lookup ticket).map Call.orderId) (id : Int) : Owed s' id ↔ Owed s id := by
  have hwaiting : Waiting s' id ↔ Waiting s id := by
    have hsome (s : FailState F) : Waiting s id ↔
        ∃ ticket, (s.ack.calls.lookup ticket).map Call.orderId = some id := by
      simp only [Waiting, Option.map_eq_some_iff]
    rw [hsome, hsome]
    simp only [hcalls]
  unfold Owed
  rw [hfailed, hwaiting]

/-- A call registers: what is still owed is so of another order id. -/
theorem Owed.of_registered {s s' : FailState F} {ticket : Nat} {call : Call}
    (hfresh : s.ack.calls.lookup ticket = none)
    (hcalls : s'.ack.calls = s.ack.calls.insert ticket call) (hfailed : s'.failed = s.failed)
    {id : Int} (hid : Owed s' id) : id ≠ call.orderId ∧ Owed s id := by
  constructor
  · rintro rfl
    exact hid.2 ⟨ticket, call, by rw [hcalls, AList.lookup_insert], rfl⟩
  · refine ⟨hfailed ▸ hid.1, ?_⟩
    rintro ⟨other, c, hlookup, horder⟩
    have hne : other ≠ ticket := by
      rintro rfl
      rw [hfresh] at hlookup
      cases hlookup
    exact hid.2 ⟨other, c, by rw [hcalls, AList.lookup_insert_ne hne, hlookup], horder⟩

section Finish

variable {s s' : FailState F} {ticket : Nat} {call : Call} {result : CallResult}

/-- A call has returned. -/
theorem owed_finish (hcall : s.ack.calls.lookup ticket = some call)
    (hcalls : s'.ack.calls = s.ack.calls.erase ticket)
    (hfailed : s'.failed = Function.update s.failed call.orderId (isError result)) (id : Int) :
    Owed s' id ↔
      if id = call.orderId then isError result = true ∧ Alone s ticket id else Owed s id := by
  have hwaiting : Waiting s' id ↔
      ∃ other c, other ≠ ticket ∧ s.ack.calls.lookup other = some c ∧ c.orderId = id := by
    unfold Waiting
    rw [hcalls]
    constructor
    · rintro ⟨other, c, hlookup, hid⟩
      obtain ⟨hne, hold⟩ := Table.lookup_erase_eq_some hlookup
      exact ⟨other, c, hne, hold, hid⟩
    · rintro ⟨other, c, hne, hold, hid⟩
      exact ⟨other, c, by rw [AList.lookup_erase_ne hne, hold], hid⟩
  unfold Owed
  rw [hfailed, hwaiting, Function.update_apply]
  split
  · next hid =>
    unfold Alone
    constructor
    · rintro ⟨herror, hnone⟩
      refine ⟨herror, fun other c hlookup horder => ?_⟩
      by_contra hne
      exact hnone ⟨other, c, hne, hlookup, horder⟩
    · rintro ⟨herror, halone⟩
      refine ⟨herror, ?_⟩
      rintro ⟨other, c, hne, hlookup, horder⟩
      exact hne (halone other c hlookup horder)
  · next hid =>
    -- the call that returned was not one of this order id
    have hsame : (∃ other c, other ≠ ticket ∧ s.ack.calls.lookup other = some c ∧
        c.orderId = id) ↔ Waiting s id := by
      constructor
      · rintro ⟨other, c, -, hlookup, horder⟩
        exact ⟨other, c, hlookup, horder⟩
      · rintro ⟨other, c, hlookup, horder⟩
        refine ⟨other, c, ?_, hlookup, horder⟩
        rintro rfl
        rw [hcall] at hlookup
        exact hid (by rw [← horder, ← Option.some.inj hlookup])
    rw [hsame]

/-- **An error exit.** It leaves nothing just if it is no error, or another call is
outstanding, or the entries of its order id are gone. -/
theorem nothingLeft_finish (h : NothingLeft s) (hcall : s.ack.calls.lookup ticket = some call)
    (hcalls : s'.ack.calls = s.ack.calls.erase ticket)
    (hfailed : s'.failed = Function.update s.failed call.orderId (isError result))
    (hmaps : ∀ id, id ≠ call.orderId → mapsOf s'.ack.broker id = mapsOf s.ack.broker id) :
    NothingLeft s' ↔ (isError result = true → Alone s ticket call.orderId →
      mapsOf s'.ack.broker call.orderId = .none) := by
  have howed := owed_finish hcall hcalls hfailed
  rw [nothingLeft_iff_of_touched h call.orderId
    (fun id hid => by rw [howed, if_neg hid]; exact fun hold => hold)
    (fun id hid hnone => by rw [hmaps id hid, hnone]), howed, if_pos rfl, and_imp]

end Finish

/-! ## The steps -/

variable [F64 F]

def failStep (fmt : TextFormats F Date) (account : String) (s : FailState F) (a : CallStep F) :
    FailState F :=
  let ack := callStep fmt account s.ack a
  { ack
    failed := (ack.returned.drop s.ack.returned.length).foldl (noteReturn s.ack.calls) s.failed }

omit [F64 F] in
/-- Nobody has called. -/
def quiet (broker : BrokerState F) : FailState F :=
  { ack := idle broker, failed := fun _ => false }

/-- The step is no error exit that leaves entries, and no answer for an order id whose last
call failed and that no call waits for: where a send fails, there is no time of an answer,
expected price or time of an echo; where a call returns another error than its timeout,
there is no entry at all. -/
def Undone (s : FailState F) : CallStep F → Prop
  | .call (.sent ticket (some _)) =>
      ∀ call ∈ s.ack.calls.lookup ticket, call.sent = false → Alone s ticket call.orderId →
        let m := mapsOf s.ack.broker call.orderId
        m.ackNs = none ∧ m.expectedPrice = none ∧ m.strictNs = none
  | .call (.poll ticket) | .call (.elapse ticket) =>
      ∀ call ∈ s.ack.calls.lookup ticket, call.sent = true → call.expired = false →
        ∀ e, s.ack.ready ticket call = some (.error e) → Alone s ticket call.orderId →
          mapsOf s.ack.broker call.orderId = .none
  | .call (.route msg _ _) => ∀ id, answers msg = some (id, .ok ()) → ¬ Owed s id
  | _ => True

section Step

variable {fmt : TextFormats F Date} {account : String} {s : FailState F} {a : CallStep F}

theorem failed_of_kept (h : (callStep fmt account s.ack a).returned = s.ack.returned) :
    (failStep fmt account s a).failed = s.failed := by
  show ((callStep fmt account s.ack a).returned.drop s.ack.returned.length).foldl _ _ = _
  rw [h, List.drop_length]
  rfl

theorem failed_of_returned {ticket : Nat} {result : CallResult}
    (h : (callStep fmt account s.ack a).returned = s.ack.returned ++ [(ticket, result)]) :
    (failStep fmt account s a).failed =
      noteReturn s.ack.calls s.failed (ticket, result) := by
  show ((callStep fmt account s.ack a).returned.drop s.ack.returned.length).foldl _ _ = _
  rw [h, List.drop_left]
  rfl

/-- The same calls are outstanding, nothing returned, and what is gone stays gone. -/
theorem nothingLeft_kept (h : NothingLeft s)
    (hreturned : (callStep fmt account s.ack a).returned = s.ack.returned)
    (hcalls : ∀ ticket, ((callStep fmt account s.ack a).calls.lookup ticket).map Call.orderId =
      (s.ack.calls.lookup ticket).map Call.orderId)
    (hmaps : ∀ id, Owed s id → mapsOf s.ack.broker id = .none →
      mapsOf (callStep fmt account s.ack a).broker id = .none) :
    NothingLeft (failStep fmt account s a) := by
  intro id hid
  have howed : Owed s id := (owed_iff_of_kept (failed_of_kept hreturned) hcalls id).mp hid
  exact hmaps id howed (h id howed)

/-- The step finds nothing to do. -/
theorem nothingLeft_unchanged (h : NothingLeft s)
    (hsame : callStep fmt account s.ack a = s.ack) : NothingLeft (failStep fmt account s a) :=
  nothingLeft_kept h (by rw [hsame]) (fun _ => by rw [hsame])
    fun _ _ hnone => by rw [hsame, hnone]

/-- A call returns, and the adapter's maps change for its order id at most. -/
theorem nothingLeft_returned (h : NothingLeft s) {ticket : Nat} {call : Call}
    (hcall : s.ack.calls.lookup ticket = some call) {broker : BrokerState F} {result : CallResult}
    (hstep : callStep fmt account s.ack a =
      { s.ack with broker := broker }.finish ticket result)
    (hmaps : ∀ id, id ≠ call.orderId → mapsOf broker id = mapsOf s.ack.broker id) :
    NothingLeft (failStep fmt account s a) ↔
      (isError result = true → Alone s ticket call.orderId →
        mapsOf broker call.orderId = .none) := by
  have hack : (failStep fmt account s a).ack =
      { s.ack with broker := broker }.finish ticket result := hstep
  have hreturned : (callStep fmt account s.ack a).returned =
      s.ack.returned ++ [(ticket, result)] := by
    rw [hstep]
    rfl
  have hnote : (failStep fmt account s a).failed =
      Function.update s.failed call.orderId (isError result) := by
    rw [failed_of_returned hreturned, noteReturn, hcall]
  have hcalls : (failStep fmt account s a).ack.calls = s.ack.calls.erase ticket := by
    rw [hack]
    rfl
  have hbroker : (failStep fmt account s a).ack.broker = broker := by
    rw [hack]
    rfl
  have hiff := nothingLeft_finish h hcall hcalls hnote fun id hid => by rw [hbroker, hmaps id hid]
  rwa [hbroker] at hiff

omit [F64 F] in
/-- A call is written anew, under the order id that it has. -/
theorem orderId_insert {calls : AList (fun _ : Nat => Call)} {ticket : Nat} {call call' : Call}
    (hcall : calls.lookup ticket = some call) (hid : call'.orderId = call.orderId) (other : Nat) :
    ((calls.insert ticket call').lookup other).map Call.orderId =
      (calls.lookup other).map Call.orderId := by
  by_cases hother : other = ticket
  · rw [hother, AList.lookup_insert, hcall]
    exact congrArg some hid
  · rw [AList.lookup_insert_ne hother]

/-- A call returns with what it was told, and takes nothing out. -/
theorem nothingLeft_wake (h : NothingLeft s) (ticket : Nat) (pastDeadline : Bool)
    (hstep : callStep fmt account s.ack a = s.ack.wake ticket pastDeadline) :
    NothingLeft (failStep fmt account s a) ↔
      ∀ call ∈ s.ack.calls.lookup ticket, call.sent = true → call.expired = false →
        ∀ e, s.ack.ready ticket call = some (.error e) → Alone s ticket call.orderId →
          mapsOf s.ack.broker call.orderId = .none := by
  have hkept (hsame : s.ack.wake ticket pastDeadline = s.ack) :
      NothingLeft (failStep fmt account s a) := nothingLeft_unchanged h (hstep.trans hsame)
  cases hcall : s.ack.calls.lookup ticket with
  | none => exact iff_of_true (hkept (by simp [AckState.wake, hcall])) (by simp)
  | some call =>
      simp only [Option.mem_some_iff, forall_eq']
      by_cases hwoken : call.sent = true ∧ call.expired = false
      · obtain ⟨hsent, hreads⟩ := hwoken
        cases hready : s.ack.ready ticket call with
        | some result =>
            have hwake : callStep fmt account s.ack a =
                { s.ack with broker := s.ack.broker }.finish ticket result := by
              rw [hstep]
              simp [AckState.wake, hcall, hsent, hreads, hready]
            rw [nothingLeft_returned h hcall hwake fun _ _ => rfl]
            cases result with
            | ok id => simp [isError]
            | error e => simp [isError, hsent, hreads]
        | none =>
            refine iff_of_true ?_ (by simp)
            cases pastDeadline with
            | false => exact hkept (by simp [AckState.wake, hcall, hsent, hreads, hready])
            | true =>
                -- the call gives up, and its entries wait for it to take them out
                have hwake : callStep fmt account s.ack a =
                    { s.ack with
                      calls := s.ack.calls.insert ticket { call with expired := true } } := by
                  rw [hstep]
                  simp [AckState.wake, hcall, hsent, hreads, hready]
                refine nothingLeft_kept h (by rw [hwake]) (fun other => ?_) fun _ _ hnone => ?_
                · rw [hwake]
                  exact orderId_insert hcall (by rfl) other
                · rw [hwake, hnone]
      · refine iff_of_true (hkept ?_) fun hsent hreads => absurd ⟨hsent, hreads⟩ hwoken
        have hasleep : (call.sent && !call.expired) = false := by
          cases hsent : call.sent with
          | false => rfl
          | true => simpa [hsent] using hwoken
        simp [AckState.wake, hcall, hasleep]

/-- A call that has given up takes all of its entries out. -/
theorem nothingLeft_withdraw (h : NothingLeft s) (ticket : Nat) :
    NothingLeft (failStep fmt account s (.call (.withdraw ticket))) := by
  have hstep : callStep fmt account s.ack (.call (.withdraw ticket)) = s.ack.withdraw ticket := rfl
  have hkept (hsame : s.ack.withdraw ticket = s.ack) :
      NothingLeft (failStep fmt account s (.call (.withdraw ticket))) :=
    nothingLeft_unchanged h (hstep.trans hsame)
  cases hcall : s.ack.calls.lookup ticket with
  | none => exact hkept (by simp [AckState.withdraw, hcall])
  | some call =>
      cases hexpired : call.expired with
      | false => exact hkept (by simp [AckState.withdraw, hcall, hexpired])
      | true =>
          have hgone : callStep fmt account s.ack (.call (.withdraw ticket)) =
              { s.ack with broker := dropWaiter s.ack.broker call.orderId }.finish ticket
                (.error call.timedOut) := by
            rw [hstep]
            simp [AckState.withdraw, hcall, hexpired]
          rw [nothingLeft_returned h hcall hgone fun id hid => by
            rw [mapsOf_dropWaiter, Function.update_of_ne hid]]
          intro _ _
          rw [mapsOf_dropWaiter, Function.update_self]

/-- A send that fails takes out the waiter and its time. -/
theorem nothingLeft_sent (h : NothingLeft s) (ticket : Nat) (failure : Option BrokerError) :
    NothingLeft (failStep fmt account s (.call (.sent ticket failure))) ↔
      Undone s (.call (.sent ticket failure)) := by
  have hstep : callStep fmt account s.ack (.call (.sent ticket failure)) =
      s.ack.afterSend ticket failure := rfl
  have hkept (hsame : s.ack.afterSend ticket failure = s.ack) :
      NothingLeft (failStep fmt account s (.call (.sent ticket failure))) :=
    nothingLeft_unchanged h (hstep.trans hsame)
  cases hcall : s.ack.calls.lookup ticket with
  | none =>
      refine iff_of_true (hkept (by simp [AckState.afterSend, hcall])) ?_
      cases failure with
      | none => trivial
      | some e => simp [Undone, hcall]
  | some call =>
      cases hsent : call.sent with
      | true =>
          refine iff_of_true (hkept (by simp [AckState.afterSend, hcall, hsent])) ?_
          cases failure with
          | none => trivial
          | some e => simp [Undone, hcall, hsent]
      | false =>
          cases failure with
          | none =>
              have hafter : callStep fmt account s.ack (.call (.sent ticket none)) =
                  { s.ack with calls := s.ack.calls.insert ticket { call with sent := true } } := by
                rw [hstep]
                simp [AckState.afterSend, hcall, hsent]
              refine iff_of_true (nothingLeft_kept h (by rw [hafter]) ?_ ?_) trivial
              · intro other
                rw [hafter]
                exact orderId_insert hcall (by rfl) other
              · intro _ _ hnone
                rw [hafter, hnone]
          | some e =>
              have hafter : callStep fmt account s.ack (.call (.sent ticket (some e))) =
                  { s.ack with broker := sendFailed s.ack.broker call.orderId }.finish ticket
                    (.error e) := by
                rw [hstep]
                simp [AckState.afterSend, hcall, hsent]
              rw [nothingLeft_returned h hcall hafter fun id hid => by
                rw [mapsOf_sendFailed, Function.update_of_ne hid]]
              rw [mapsOf_sendFailed, Function.update_self]
              simp [Undone, hcall, hsent, isError, OrderEntries.none]

omit [F64 F] in
theorem accepts_of_stamped {msg : InboundMsg F} {id : Int} (h : answers msg = some (id, .ok ())) :
    orderIdOf msg = some id := by
  cases msg with
  | openOrder o =>
      simp only [answers, Option.some.injEq, Prod.mk.injEq] at h
      exact congrArg some h.1
  | orderStatus o =>
      simp only [answers] at h
      split at h
      · simp only [Option.some.injEq, Prod.mk.injEq] at h
        exact congrArg some h.1
      · cases h
  | error e =>
      simp only [answers] at h
      split at h
      · cases h
      · cases h
  | other typeId => cases h

/-- Of a message only an answer that accepts leaves an entry where there is none. -/
theorem routedEntries_none_iff {msg : InboundMsg F} {id : Int} (h : orderIdOf msg = some id)
    (now : Nat) :
    routedEntries (.none : OrderEntries F) now msg = .none ↔ answers msg ≠ some (id, .ok ()) := by
  cases msg with
  | openOrder o =>
      have hid : o.orderId = id := Option.some.inj h
      simp [routedEntries, answers, OrderEntries.none, hid]
  | orderStatus o =>
      have hid : o.orderId = id := Option.some.inj h
      by_cases hresolves : resolvesWaiter (parseStatus o.status) = true
      · simp [routedEntries, answers, OrderEntries.none, hid, hresolves]
      · simp [routedEntries, answers, hresolves]
  | error e =>
      by_cases hrejects : 0 < e.reqId ∧ isOrderError e.errorCode = true
      · simp [routedEntries, answers, OrderEntries.none, hrejects]
      · simp [routedEntries, answers, hrejects]
  | other typeId => cases h

/-- A message leaves what failed calls have left as it is, but for its time. -/
theorem nothingLeft_route (h : NothingLeft s) (msg : InboundMsg F) (now later : Nat) :
    NothingLeft (failStep fmt account s (.call (.route msg now later))) ↔
      Undone s (.call (.route msg now later)) := by
  have hmaps (id : Int) :
      mapsOf (callStep fmt account s.ack (.call (.route msg now later))).broker id =
        if orderIdOf msg = some id then routedEntries (mapsOf s.ack.broker id) now msg
        else mapsOf s.ack.broker id := mapsOf_route fmt s.ack.broker msg now later id
  constructor
  · intro hleft id hanswer howed
    have hkept : Owed (failStep fmt account s (.call (.route msg now later))) id ↔
        Owed s id := by
      apply owed_iff_of_kept
      · exact failed_of_kept rfl
      · exact orderId_route fmt account s.ack msg now later
    have hid := accepts_of_stamped hanswer
    have hnone : mapsOf (callStep fmt account s.ack (.call (.route msg now later))).broker id =
        .none := hleft id (hkept.mpr howed)
    rw [hmaps id, if_pos hid, h id howed] at hnone
    exact (routedEntries_none_iff hid now).mp hnone hanswer
  · intro hundone
    refine nothingLeft_kept h rfl (orderId_route fmt account s.ack msg now later) ?_
    intro id howed hnone
    rw [hmaps id]
    split
    · next hid =>
      rw [hnone]
      exact (routedEntries_none_iff hid now).mpr fun hanswer => hundone id hanswer howed
    · exact hnone

/-- A call that registers is outstanding. -/
theorem nothingLeft_begin (h : NothingLeft s) (hgiven : TicketsGiven s.ack) (kind : CallKind)
    (shown orderId : Int) {prepared : Except BrokerError (OrderFrame F × BrokerState F)}
    (hmaps : ∀ frame broker, prepared = .ok (frame, broker) → ∀ id, id ≠ orderId →
      mapsOf broker id = mapsOf s.ack.broker id)
    (hstep : callStep fmt account s.ack a = s.ack.begin kind shown orderId prepared) :
    NothingLeft (failStep fmt account s a) := by
  have hfresh : s.ack.calls.lookup s.ack.next = none := by
    rw [AList.lookup_eq_none]
    exact fun hmem => lt_irrefl _ (hgiven.calls _ hmem)
  cases prepared with
  | error e =>
      have hbegin : callStep fmt account s.ack a =
          { s.ack with
            next := s.ack.next + 1
            returned := s.ack.returned ++ [(s.ack.next, .error e)] } := hstep
      have hfailed : (failStep fmt account s a).failed = s.failed := by
        rw [failed_of_returned (by rw [hbegin]), noteReturn, hfresh]
      intro id hid
      have howed := (owed_iff_of_kept hfailed (fun ticket => by
        show ((callStep fmt account s.ack a).calls.lookup ticket).map _ = _
        rw [hbegin]) id).mp hid
      show mapsOf (callStep fmt account s.ack a).broker id = .none
      rw [hbegin]
      exact h id howed
  | ok prepared =>
      obtain ⟨frame, broker⟩ := prepared
      have hbegin : callStep fmt account s.ack a =
          { s.ack with
            broker
            next := s.ack.next + 1
            calls := s.ack.calls.insert s.ack.next
              { kind, shown, orderId, sent := false, expired := false, inbox := none } } := hstep
      have hfailed : (failStep fmt account s a).failed = s.failed :=
        failed_of_kept (by rw [hbegin])
      have hcalls : (failStep fmt account s a).ack.calls = s.ack.calls.insert s.ack.next
          { kind, shown, orderId, sent := false, expired := false, inbox := none } := by
        show (callStep fmt account s.ack a).calls = _
        rw [hbegin]
      intro id hid
      obtain ⟨hother, howed⟩ := hid.of_registered hfresh hcalls hfailed
      show mapsOf (callStep fmt account s.ack a).broker id = .none
      rw [hbegin]
      exact (hmaps frame broker rfl id hother).trans (h id howed)

/-- **Step lemma.** From a state where nothing is left behind, a step keeps it so just if it
meets the condition. -/
theorem nothingLeft_step (h : NothingLeft s) (hgiven : TicketsGiven s.ack) (a : CallStep F) :
    NothingLeft (failStep fmt account s a) ↔ Undone s a := by
  match a with
  | .call (.place orderId now req) =>
      refine iff_of_true (nothingLeft_begin h hgiven .place orderId orderId ?_ rfl) trivial
      intro frame broker hprepared id hid
      rw [mapsOf_preparePlace hprepared, Function.update_of_ne hid]
  | .call (.modify id now req) =>
      refine iff_of_true (nothingLeft_begin h hgiven .modify id (asI32 id) ?_ rfl) trivial
      intro frame broker hprepared other hother
      obtain ⟨existing, -, hmaps⟩ := mapsOf_prepareModify hprepared
      rw [hmaps, Function.update_of_ne hother]
  | .call (.sent ticket failure) => exact nothingLeft_sent h ticket failure
  | .call (.route msg now later) => exact nothingLeft_route h msg now later
  | .call (.poll ticket) => exact nothingLeft_wake h ticket false rfl
  | .call (.elapse ticket) => exact nothingLeft_wake h ticket true rfl
  | .call (.withdraw ticket) => exact iff_of_true (nothingLeft_withdraw h ticket) trivial
  | .disconnect =>
      refine iff_of_true (nothingLeft_kept h rfl (orderId_disconnect s.ack) ?_) trivial
      intro id _ hnone
      rw [mapsOf_callStep, hnone]
      rfl
  | .drainWire id | .drainStrict id =>
      refine iff_of_true (nothingLeft_kept h rfl (fun _ => rfl) ?_) trivial
      intro other _ hnone
      rw [mapsOf_callStep, hnone]
      simp only [entriesAfter]
      split
      · rfl
      · rfl

end Step

/-! ## Whole runs -/

theorem ticketsGiven_failRun (fmt : TextFormats F Date) (account : String) (broker : BrokerState F)
    (schedule : List (CallStep F)) :
    TicketsGiven (run (failStep fmt account) (quiet broker) schedule).ack :=
  run_invariant (fun s : FailState F => TicketsGiven s.ack) (fun _ a h => ticketsGiven_callStep h a)
    (idle_ticketsGiven broker) schedule

/-- **When failed calls leave nothing behind.**  In a run from an adapter that nobody has
called they do so all the way just if every step meets the condition. -/
theorem nothing_left_iff (fmt : TextFormats F Date) (account : String) (broker : BrokerState F)
    (schedule : List (CallStep F)) :
    (∀ front, front <+: schedule →
        NothingLeft (run (failStep fmt account) (quiet broker) front)) ↔
      Meets (failStep fmt account) Undone (quiet broker) schedule := by
  have hgiven := ticketsGiven_failRun fmt account broker
  have hstart : NothingLeft (quiet broker) ∧ TicketsGiven (quiet broker).ack :=
    ⟨fun _ h => (nomatch h.1), idle_ticketsGiven broker⟩
  have hstep (s : FailState F) (a : CallStep F) (h : NothingLeft s ∧ TicketsGiven s.ack) :
      (NothingLeft (failStep fmt account s a) ∧ TicketsGiven (failStep fmt account s a).ack) ↔
        Undone s a := by
    have hnext : TicketsGiven (failStep fmt account s a).ack := ticketsGiven_callStep h.2 a
    rw [and_iff_left hnext]
    exact nothingLeft_step h.1 h.2 a
  have hiff := run_invariant_iff_meets
    (fun s : FailState F => NothingLeft s ∧ TicketsGiven s.ack) hstep hstart schedule
  rw [← hiff]
  constructor
  · exact fun hall front hfront => ⟨hall front hfront, hgiven front⟩
  · exact fun hall front hfront => (hall front hfront).1

/-- A lone amend whose send fails leaves its expected price. -/
theorem failed_modify_send_leaves_price {fmt : TextFormats F Date} {account : String}
    {s : FailState F} (h : NothingLeft s) (hgiven : TicketsGiven s.ack) {id now : Nat}
    {req : ModifyOrderReq F} {prepared : OrderFrame F × BrokerState F}
    (hprepared : prepareModify fmt account s.ack.broker id s.ack.next now req = .ok prepared)
    (halone : ¬ Waiting s (asI32 id)) (e : BrokerError) :
    ¬ NothingLeft (run (failStep fmt account) s
      [.call (.modify id now req), .call (.sent s.ack.next (some e))]) := by
  obtain ⟨frame, broker⟩ := prepared
  obtain ⟨existing, -, hmaps⟩ := mapsOf_prepareModify hprepared
  let begun := failStep fmt account s (.call (.modify id now req))
  let call : Call :=
    { kind := .modify
      shown := id
      orderId := asI32 id
      sent := false
      expired := false
      inbox := none }
  have hbegun : begun.ack =
      { s.ack with
        broker
        next := s.ack.next + 1
        calls := s.ack.calls.insert s.ack.next call } := by
    show s.ack.begin .modify id (asI32 id) (prepareModify fmt account s.ack.broker id
      s.ack.next now req) = _
    rw [hprepared]
    rfl
  have hcall : begun.ack.calls.lookup s.ack.next = some call := by
    rw [hbegun]
    exact AList.lookup_insert _
  have hlone : Alone begun s.ack.next (asI32 id) := by
    intro other c hlookup horder
    by_contra hne
    rw [hbegun] at hlookup
    exact halone ⟨other, c, (AList.lookup_insert_ne hne).symm.trans hlookup, horder⟩
  have hleft : NothingLeft begun :=
    (nothingLeft_step h hgiven (.call (.modify id now req))).mpr trivial
  have hgiven' : TicketsGiven begun.ack :=
    ticketsGiven_callStep hgiven (.call (.modify id now req))
  show ¬ NothingLeft (failStep fmt account begun (.call (.sent s.ack.next (some e))))
  rw [nothingLeft_step hleft hgiven']
  intro hundone
  have hprice := (hundone call hcall rfl hlone).2.1
  rw [hbegun, hmaps, Function.update_self] at hprice
  cases hprice

/-- A lone call that returns the answer it was sent, a reject or the disconnect, leaves its
send time. -/
theorem returned_error_leaves_send_time {fmt : TextFormats F Date} {account : String}
    {s : FailState F} (h : NothingLeft s) (hgiven : TicketsGiven s.ack) {ticket sendNs : Nat}
    {call : Call} {e : BrokerError} (hcall : s.ack.calls.lookup ticket = some call)
    (hsent : call.sent = true) (hreads : call.expired = false)
    (hinbox : call.inbox = some (.error e))
    (halone : Alone s ticket call.orderId)
    (hsend : (mapsOf s.ack.broker call.orderId).sendNs = some sendNs) :
    ¬ NothingLeft (failStep fmt account s (.call (.poll ticket))) := by
  rw [nothingLeft_step h hgiven]
  intro hundone
  have hready : s.ack.ready ticket call = some (.error e) := by
    simp [AckState.ready, hinbox, Call.reply, Except.map]
  have hnone := hundone call hcall hsent hreads e hready halone
  rw [hnone] at hsend
  cases hsend

end Failed

/-- An amend of order 17 whose connection is gone: the price that it expected stays. -/
theorem failed_amend_leaves_price :
    let s := run (failStep plainFormats "DU1") (quiet holding17)
      [.call (modify17 3), .call (.sent 0 (some (.notConnected "socket closed")))]
    s.ack.returned = [(0, .error (.notConnected "socket closed"))] ∧
      (mapsOf s.ack.broker 17).expectedPrice = some 3 ∧ ¬ NothingLeft s := by
  intro s
  have hprice : (mapsOf s.ack.broker 17).expectedPrice = some 3 := by decide +kernel
  have hfailed : s.failed 17 = true := by decide +kernel
  have hcalls : s.ack.calls.entries = [] := by decide +kernel
  refine ⟨by decide +kernel, hprice, fun hleft => ?_⟩
  have hnone := hleft 17 ⟨hfailed, ?_⟩
  · rw [hnone] at hprice
    cases hprice
  · rintro ⟨ticket, call, hlookup, -⟩
    have hmem := AList.mem_lookup_iff.mp hlookup
    rw [hcalls] at hmem
    cases hmem

end Corsair.Ports.FailedCalls
