import Corsair.Ports.OrderMaps

/-!
# Which answer a send time is paired with

`drain_wire_timing` takes the time at which a call was sent and the time of an answer, both
by order id.  The send time is written anew by every call.  The answer's time is written
where there is none, by every accept-state message, also one that nobody waits for, and it
goes only with a drain or a timeout.  So a call may find the time of an answer that came
before it, and the drain pairs the two.

An answer is tied to the call it follows by the history: `Follows` cuts it at the call and
finds the answer behind the cut.

## Main results

* `Stamped.step` — while every call that registers finds no answer's time, the answer's
  time under an order id is of an answer behind the call whose send time is there.
* `wire_timing_causal` — in such a run every pair that is drained is of a call and an
  answer behind it; with a clock that does not go back, the answer is not before the send.
* `drain_after_stale_answer` — a call that finds an answer's time is paired with it.
-/

namespace Corsair.Ports.WireTiming

open Corsair.Verified
open Corsair.Verified.Runs
open Corsair.Ports.Portfolio (Date)
open Corsair.Ports.BrokerApi
open Corsair.Ports.KillRuntime (BrokerError)
open Corsair.Ports.NativeDecoder
open Corsair.Ports.NativeBroker
open Corsair.Ports.NativeOrders
open Corsair.Ports.RestingSweep (plainFormats openOrder17)
open Corsair.Ports.AckRouting
open Corsair.Ports.OrderMaps

section Timing

variable {F : Type}

/-! ## The history -/

/-- The order id and the time of a call. -/
def sendOf : CallStep F → Option (Int × Nat)
  | .call (.place orderId now _) => some (orderId, now)
  | .call (.modify id now _) => some (asI32 id, now)
  | _ => none

/-- The order id and the time of an answer that accepts. -/
def answerOf : CallStep F → Option (Int × Nat)
  | .call (.route msg now _) => (answers msg).bind fun a =>
      match a.2 with
      | .ok () => some (a.1, now)
      | .error _ => none
  | _ => none

/-- The reading of the clock in a step. -/
def timeOf (st : CallStep F) : Option Nat :=
  match st with
  | .call (.place _ now _) => some now
  | .call (.modify _ now _) => some now
  | .call (.route _ now _) => some now
  | _ => none

/-- The clock does not go back. -/
def Ticking (history : List (CallStep F)) : Prop :=
  (history.filterMap timeOf).Pairwise (· ≤ ·)

/-- An answer at the second time is behind a call at the first one. -/
def Follows (history : List (CallStep F)) (id : Int) (send ack : Nat) : Prop :=
  ∃ before call between, history = before ++ call :: between ∧ sendOf call = some (id, send) ∧
    ∃ answer ∈ between, answerOf answer = some (id, ack)

theorem timeOf_of_sendOf {st : CallStep F} {id : Int} {now : Nat}
    (h : sendOf st = some (id, now)) : timeOf st = some now := by
  match st with
  | .call (.place orderId _ _) =>
      rw [sendOf, Option.some.injEq, Prod.mk.injEq] at h
      rw [timeOf, h.2]
  | .call (.modify id _ _) =>
      rw [sendOf, Option.some.injEq, Prod.mk.injEq] at h
      rw [timeOf, h.2]

theorem timeOf_of_answerOf {st : CallStep F} {id : Int} {now : Nat}
    (h : answerOf st = some (id, now)) : timeOf st = some now := by
  match st with
  | .call (.route msg time later) =>
      simp only [answerOf, Option.bind_eq_some_iff] at h
      obtain ⟨answer, -, hsome⟩ := h
      split at hsome
      · rw [Option.some.injEq, Prod.mk.injEq] at hsome
        rw [timeOf, hsome.2]
      · cases hsome
  | .call (.place ..) | .call (.modify ..) | .call (.sent ..) | .call (.poll _)
  | .call (.elapse _) | .call (.withdraw _) | .disconnect | .drainWire _ | .drainStrict _ => cases h

/-- An answer behind a call is not before it. -/
theorem le_of_follows {history : List (CallStep F)} (hclock : Ticking history) {id : Int}
    {send ack : Nat} (h : Follows history id send ack) : send ≤ ack := by
  obtain ⟨before, call, between, rfl, hsend, answer, hmem, hanswer⟩ := h
  unfold Ticking at hclock
  rw [List.filterMap_append, List.filterMap_cons_some (timeOf_of_sendOf hsend)] at hclock
  have htime : ack ∈ between.filterMap timeOf :=
    List.mem_filterMap.mpr ⟨answer, hmem, timeOf_of_answerOf hanswer⟩
  exact List.rel_of_pairwise_cons (List.pairwise_append.mp hclock).2.1 htime

/-! ## What a step does to the two times -/

/-- The two times under an order id after a step: a call writes the send time, and found no
answer's time if it was `free`; an answer writes its own where there is none; and otherwise a
time only goes. -/
structure TimesMove (free : Prop) (st : CallStep F) (id : Int) (m m' : OrderEntries F) :
    Prop where
  send : m'.sendNs = m.sendNs ∨ m'.sendNs = none ∨
    m'.ackNs = m.ackNs ∧ (free → m.ackNs = none) ∧
      ∃ now, sendOf st = some (id, now) ∧ m'.sendNs = some now
  ack : m'.ackNs = m.ackNs ∨ m'.ackNs = none ∨
    m.ackNs = none ∧ ∃ now, answerOf st = some (id, now) ∧ m'.ackNs = some now

theorem TimesMove.of_eq {free : Prop} {st : CallStep F} {id : Int} {m m' : OrderEntries F}
    (h : m' = m) : TimesMove free st id m m' := by
  subst h
  exact ⟨.inl rfl, .inl rfl⟩

variable [F64 F]

/-- A message may answer the call. -/
theorem timesMove_routed (free : Prop) {msg : InboundMsg F} {id : Int}
    (hid : orderIdOf msg = some id) (now later : Nat) (m : OrderEntries F) :
    TimesMove free (.call (.route msg now later)) id m (routedEntries m now msg) := by
  have hnew (hanswer : answers msg = some (id, .ok ())) :
      m.ackNs.or (some now) = m.ackNs ∨ m.ackNs.or (some now) = none ∨
        m.ackNs = none ∧ ∃ t, answerOf (.call (.route msg now later)) = some (id, t) ∧
          m.ackNs.or (some now) = some t := by
    cases hack : m.ackNs with
    | none => exact .inr (.inr ⟨rfl, now, by simp [answerOf, hanswer], rfl⟩)
    | some old => exact .inl rfl
  cases msg with
  | openOrder o => exact ⟨.inl rfl, hnew (by simp [answers, Option.some.inj hid])⟩
  | orderStatus o =>
      by_cases hresolves : resolvesWaiter (parseStatus o.status) = true
      · have hanswer : answers (.orderStatus o : InboundMsg F) = some (id, .ok ()) := by
          simp [answers, hresolves, Option.some.inj hid]
        simp only [routedEntries, hresolves, if_true]
        exact ⟨.inl rfl, hnew hanswer⟩
      · simp only [routedEntries, hresolves]
        exact .of_eq rfl
  | error e =>
      simp only [routedEntries]
      split
      · exact ⟨.inl rfl, .inl rfl⟩
      · exact .of_eq rfl
  | other typeId => cases hid

/-- A call that registers finds no time of an answer under its order id. -/
def FindsNoAnswer (fmt : TextFormats F Date) (account : String) (s : AckState F) :
    CallStep F → Prop
  | .call (.place orderId now req) =>
      (preparePlace fmt account s.broker orderId s.next now req).toOption.isSome = true →
        (mapsOf s.broker orderId).ackNs = none
  | .call (.modify id now req) =>
      (prepareModify fmt account s.broker id s.next now req).toOption.isSome = true →
        (mapsOf s.broker (asI32 id)).ackNs = none
  | _ => True

instance (fmt : TextFormats F Date) (account : String) (s : AckState F) (a : CallStep F) :
    Decidable (FindsNoAnswer fmt account s a) := by
  unfold FindsNoAnswer
  split
  · infer_instance
  · infer_instance
  · infer_instance

/-- **What a step does to the two times.** -/
theorem timesMove_callStep (fmt : TextFormats F Date) (account : String) (s : AckState F)
    (st : CallStep F) (id : Int) :
    TimesMove (FindsNoAnswer fmt account s st) st id (mapsOf s.broker id)
      (mapsOf (callStep fmt account s st).broker id) := by
  rw [mapsOf_callStep]
  match st with
  | .call (.place orderId now req) =>
      simp only [entriesAfter]
      split
      · next h =>
        obtain ⟨rfl, hprepared⟩ := h
        exact ⟨.inr (.inr ⟨rfl, fun hfree => hfree hprepared, now, rfl, rfl⟩), .inl rfl⟩
      · exact .of_eq rfl
  | .call (.modify k now req) =>
      simp only [entriesAfter]
      split
      · next h =>
        obtain ⟨rfl, hprepared⟩ := h
        exact ⟨.inr (.inr ⟨rfl, fun hfree => hfree hprepared, now, rfl, rfl⟩), .inl rfl⟩
      · exact .of_eq rfl
  | .call (.sent _ (some _)) =>
      simp only [entriesAfter]
      split
      · exact ⟨.inr (.inl rfl), .inl rfl⟩
      · exact .of_eq rfl
  | .call (.route msg now later) =>
      simp only [entriesAfter]
      split
      · next hid => exact timesMove_routed _ hid now later _
      · exact .of_eq rfl
  | .call (.withdraw _) =>
      simp only [entriesAfter]
      split
      · exact ⟨.inr (.inl rfl), .inr (.inl rfl)⟩
      · exact .of_eq rfl
  | .disconnect => exact ⟨.inl rfl, .inl rfl⟩
  | .drainWire _ =>
      simp only [entriesAfter]
      split
      · refine ⟨.inr (.inl rfl), ?_⟩
        dsimp only
        split
        · exact .inr (.inl rfl)
        · exact .inl rfl
      · exact .of_eq rfl
  | .drainStrict _ =>
      simp only [entriesAfter]
      split
      · exact ⟨.inl rfl, .inl rfl⟩
      · exact .of_eq rfl
  | .call (.sent _ none) | .call (.poll _) | .call (.elapse _) => exact .of_eq rfl

/-! ## The pairs -/

omit [F64 F] in
/-- **The invariant.** The send time under an order id is of a call in the history, and the
answer's time, if there is one, of an answer behind that call. -/
def Stamped (history : List (CallStep F)) (id : Int) (m : OrderEntries F) : Prop :=
  ∀ send, m.sendNs = some send → ∃ before call between, history = before ++ call :: between ∧
    sendOf call = some (id, send) ∧
    ∀ ack, m.ackNs = some ack → ∃ answer ∈ between, answerOf answer = some (id, ack)

omit [F64 F] in
/-- **Step lemma.** -/
theorem Stamped.step {history : List (CallStep F)} {id : Int} {m m' : OrderEntries F}
    {st : CallStep F} {free : Prop} (h : Stamped history id m) (hmove : TimesMove free st id m m')
    (hfree : free) : Stamped (history ++ [st]) id m' := by
  intro send hsend
  rcases hmove.send with hkept | hgone | ⟨hack, hnone, now, hcall, hwritten⟩
  · -- the call is the one from before, and an answer in this step is behind it
    obtain ⟨before, call, between, rfl, hcall, hanswers⟩ := h send (hkept ▸ hsend)
    refine ⟨before, call, between ++ [st], by simp, hcall, fun ack hack => ?_⟩
    rcases hmove.ack with hsame | hnone | ⟨-, now, hanswer, hstamped⟩
    · obtain ⟨answer, hmem, hanswer⟩ := hanswers ack (hsame ▸ hack)
      exact ⟨answer, List.mem_append_left _ hmem, hanswer⟩
    · rw [hnone] at hack
      cases hack
    · rw [hstamped] at hack
      exact ⟨st, by simp, Option.some.inj hack ▸ hanswer⟩
  · rw [hgone] at hsend
    cases hsend
  · refine ⟨history, st, [], rfl, ?_, fun ack hstamped => ?_⟩
    · rw [hwritten] at hsend
      exact Option.some.inj hsend ▸ hcall
    · rw [hack, hnone hfree] at hstamped
      cases hstamped

/-- **Run lemma.** -/
theorem stamped_run (fmt : TextFormats F Date) (account : String) (history : List (CallStep F))
    (hfresh : Meets (callStep fmt account) (FindsNoAnswer fmt account) (idle emptyState) history)
    (id : Int) : Stamped history id
      (mapsOf (run (callStep fmt account) (idle emptyState) history).broker id) := by
  induction history using List.reverseRecOn with
  | nil => exact fun send hsend => nomatch hsend
  | append_singleton front st ih =>
      rw [run_append]
      exact (ih hfresh.front).step (timesMove_callStep fmt account _ st id) hfresh.at_step

/-- **Wire timing is causal.**  In a run from an adapter that has just started, in which
every call that registers finds no time of an answer under its order id, each pair that a
drain returns is of a call and an answer behind it; where the clock does not go back, the
answer's time is not before the call's. -/
theorem wire_timing_causal (fmt : TextFormats F Date) (account : String)
    (history : List (CallStep F)) (hclock : Ticking history)
    (hfresh : Meets (callStep fmt account) (FindsNoAnswer fmt account) (idle emptyState) history)
    (front : List (CallStep F)) (id : Nat) (back : List (CallStep F))
    (hsplit : history = front ++ .drainWire id :: back) (send ack : Nat)
    (hpair : (drainWireTiming (run (callStep fmt account) (idle emptyState) front).broker id).1 =
      some (send, ack)) :
    send ≤ ack ∧ Follows front (asI32 id) send ack := by
  subst hsplit
  rw [drainWireTiming_fst] at hpair
  obtain ⟨send', hsend, hmap⟩ := Option.bind_eq_some_iff.mp hpair
  obtain ⟨ack', hack, heq⟩ := Option.map_eq_some_iff.mp hmap
  obtain ⟨rfl, rfl⟩ := Prod.mk.inj heq
  obtain ⟨before, call, between, hfront, hcall, hanswers⟩ :=
    stamped_run fmt account front hfresh.front (asI32 id) send' hsend
  have hfollows : Follows front (asI32 id) send' ack' :=
    ⟨before, call, between, hfront, hcall, hanswers ack' hack⟩
  have hticking : Ticking front := by
    unfold Ticking at hclock ⊢
    rw [List.filterMap_append] at hclock
    exact (List.pairwise_append.mp hclock).1
  exact ⟨le_of_follows hticking hfollows, hfollows⟩

/-- A call that finds an answer's time is paired with it, by a drain right behind it. -/
theorem drain_after_stale_answer {fmt : TextFormats F Date} {account : String} {s : AckState F}
    {id now ack : Nat} {req : ModifyOrderReq F} {prepared : OrderFrame F × BrokerState F}
    (hprepared : prepareModify fmt account s.broker id s.next now req = .ok prepared)
    (hstale : (mapsOf s.broker (asI32 id)).ackNs = some ack) :
    (drainWireTiming (callStep fmt account s (.call (.modify id now req))).broker id).1 =
      some (now, ack) := by
  obtain ⟨frame, broker⟩ := prepared
  obtain ⟨existing, -, hmaps⟩ := mapsOf_prepareModify hprepared
  have hbroker : (callStep fmt account s (.call (.modify id now req))).broker = broker := by
    show (s.begin .modify id (asI32 id) (prepareModify fmt account s.broker id s.next now
      req)).broker = _
    rw [hprepared]
    rfl
  rw [drainWireTiming_fst, hbroker, hmaps, Function.update_self]
  simp [hstale]

end Timing

/-! A one-lot bid is placed, its timing is drained, and it is amended. -/

def bid17 : PlaceOrderReq ℚ where
  contract :=
    { instrumentId := 712565973
      kind := .option
      symbol := "HG"
      localSymbol := "HXEM6 C6"
      expiry := ⟨2026, 6, 26⟩
      strike := some 6
      right := some .call
      multiplier := 25000
      exchange := .comex
      currency := .usd
      tradingClass := "HXE" }
  side := .buy
  qty := 1
  orderType := .limit
  price := some 2
  tif := .day
  gtdUntilUtc := none
  clientOrderRef := "corsair"
  account := none

/-- The gateway's echo of the bid. -/
def echo17 (now : Nat) : CallStep ℚ :=
  match parseInbound plainFormats openOrder17 with
  | .ok msg => .call (.route msg now now)
  | .error _ => .disconnect

/-- The bid is placed, echoed and returned, and its timing is drained. -/
def placed17 : List (CallStep ℚ) :=
  [.call (.place 17 1 bid17), .call (.sent 0 none), echo17 3, .call (.poll 0), .drainWire 17]

/-- The bid is amended and the amend is echoed and returns. -/
def amended17 : List (CallStep ℚ) :=
  [.call (.modify 17 10 { price := some 3, qty := none, gtdUntilUtc := some 1777993684 }),
    .call (.sent 1 none), echo17 12, .call (.poll 1)]

/-- An echo at 5, for which nobody waits, is taken for the answer to the amend at 10. -/
theorem amend_paired_with_older_answer :
    let history := placed17 ++ echo17 5 :: amended17
    let s := run (callStep plainFormats "DU1") (idle emptyState) history
    Ticking history ∧ s.returned = [(0, .ok (some 17)), (1, .ok none)] ∧
      (drainWireTiming s.broker 17).1 = some (10, 5) := by
  unfold Ticking
  decide +kernel

theorem wire_timing_causal_of_place :
    let s := run (callStep plainFormats "DU1") (idle emptyState) (placed17.take 4)
    (drainWireTiming s.broker 17).1 = some (1, 3) ∧ Follows (placed17.take 4) 17 1 3 := by
  intro s
  have hpair : (drainWireTiming s.broker 17).1 = some (1, 3) := by decide +kernel
  have hcausal := wire_timing_causal plainFormats "DU1" placed17 (by unfold Ticking; decide +kernel)
    (by decide +kernel) (placed17.take 4) 17 [] rfl 1 3 hpair
  exact ⟨hpair, hcausal.2⟩

end Corsair.Ports.WireTiming
