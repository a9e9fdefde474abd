import Mathlib.Data.List.AList
import Corsair.Verified.Runs
import Corsair.Verified.Tickets
import Corsair.Ports.BrokerApi
import Corsair.Ports.RestingSweep

/-!
# `corsair_broker_ibkr_native::client`: order ids

Callers of `alloc_order_id` take the number under a lock and leave it one higher.  A call
that finds no positive number looks again, fifty times at most, and returns zero in the
end.  The reader of the socket raises the number to the id of a `nextValidId` message if
that is higher, under the same lock.

Between two turns of a call any other call and any message may come: a run is a list of
single turns.

## Main results

* `dispenser_step` — what one turn does to the number and to the ids that were returned.
* `alloc_order_id_increasing` — the positive ids are returned in increasing order.
-/

namespace Corsair.Ports.OrderIds

open Corsair.Verified
open Corsair.Verified.Runs
open Corsair.Verified.Tickets (Dispenser Ordered)
open Corsair.Ports.Portfolio (Date)
open Corsair.Ports.BrokerApi (i32 i32_of_bounds)
open Corsair.Ports.NativeDecoder (TextFormats parseInt parseInt_mem Frame)

/-! ## The client -/

/-- `IN_NEXT_VALID_ID`. -/
def inNextValidId : Int := 9

/-- `NativeClient`, as far as order ids go: the number, the calls of `alloc_order_id` that
have not returned, with the looks at the number that each has left, and what the others
returned, in the order in which they did. -/
structure ClientState where
  nextOrderId : Int
  calls : AList (fun _ : Nat => Nat)
  returned : List (Nat × Int)

/-- `NativeClient::new`. -/
def newClient : ClientState := ⟨0, ∅, []⟩

/-- The looks of one call: one at once, and one after each of fifty naps. -/
def looks : Nat := 1 + 50

/-- The body of `alloc_order_id` under the lock: the id, if there is one, and the number
that is left. -/
def takeId (nextOrderId : Int) : Option Int × Int :=
  if 0 < nextOrderId then (some nextOrderId, i32 (nextOrderId + 1)) else (none, nextOrderId)

/-- A call begins. -/
def beginCall (s : ClientState) (call : Nat) : ClientState :=
  if call ∈ s.calls then s else { s with calls := s.calls.insert call looks }

/-- A call looks at the number once: it returns the id, or goes back to sleep, or gives up
with a zero. -/
def lookOnce (s : ClientState) (call : Nat) : ClientState :=
  match s.calls.lookup call with
  | none => s
  | some left =>
      match takeId s.nextOrderId with
      | (some id, next) =>
          { nextOrderId := next, calls := s.calls.erase call, returned := s.returned ++ [(call, id)] }
      | (none, next) =>
          if left ≤ 1 then
            { nextOrderId := next, calls := s.calls.erase call, returned := s.returned ++ [(call, 0)] }
          else { s with nextOrderId := next, calls := s.calls.insert call (left - 1) }

/-- The reader, on one frame: the number after a `nextValidId` is the higher one. -/
def recvNextValidId {F : Type} (fmt : TextFormats F Date) (nextOrderId : Int) (fields : Frame) :
    Int :=
  match fields with
  | ty :: _ :: oidField :: _ =>
      match parseInt fmt ty, parseInt fmt oidField with
      | .ok id, .ok oid =>
          if id = inNextValidId then if nextOrderId < oid then oid else nextOrderId
          else nextOrderId
      | _, _ => nextOrderId
  | _ => nextOrderId

/-- One turn. -/
inductive ClientStep
  | call (call : Nat)
  | look (call : Nat)
  | frame (fields : Frame)
  deriving DecidableEq, Repr

def clientStep {F : Type} (fmt : TextFormats F Date) (s : ClientState) : ClientStep → ClientState
  | .call call => beginCall s call
  | .look call => lookOnce s call
  | .frame fields => { s with nextOrderId := recvNextValidId fmt s.nextOrderId fields }

/-- `i32::MAX`. -/
def i32Max : Int := 2147483647

/-- The number is below `i32::MAX`. -/
def BelowMax (s : ClientState) (_ : ClientStep) : Prop := s.nextOrderId < i32Max

instance (s : ClientState) (a : ClientStep) : Decidable (BelowMax s a) :=
  inferInstanceAs (Decidable (_ < _))

/-- The positive ids that were returned, in the order of the turns that took them. -/
def positiveIds (s : ClientState) : List Int := (s.returned.map (·.2)).filter (0 < ·)

/-! ## The client as a dispenser -/

/-- The dispenser that the client is: its number and the ids taken from it. -/
def dispenser (s : ClientState) : Dispenser Int := ⟨s.nextOrderId, positiveIds s⟩

theorem takeId_of_pos {next : Int} (hpos : 0 < next) (hroom : next < i32Max) :
    takeId next = (some next, next + 1) := by
  have hfits : i32 (next + 1) = next + 1 :=
    i32_of_bounds (by omega) (by unfold i32Max at hroom; omega)
  rw [takeId, if_pos hpos, hfits]

theorem takeId_of_not_pos {next : Int} (hpos : ¬ 0 < next) : takeId next = (none, next) :=
  if_neg hpos

/-- A frame never lowers the number. -/
theorem le_recvNextValidId {F : Type} (fmt : TextFormats F Date) (next : Int)
    (fields : Frame) : next ≤ recvNextValidId fmt next fields := by
  unfold recvNextValidId
  repeat' split
  all_goals omega

theorem dispenser_beginCall (s : ClientState) (call : Nat) :
    dispenser (beginCall s call) = dispenser s := by
  unfold beginCall
  split
  · rfl
  · rfl

/-- A look takes the number, or leaves number and ids as they are. -/
theorem dispenser_lookOnce {s : ClientState} (call : Nat) (hroom : s.nextOrderId < i32Max) :
    dispenser (lookOnce s call) = dispenser s ∨
      dispenser (lookOnce s call) = (dispenser s).take (s.nextOrderId + 1) := by
  unfold lookOnce
  split
  · exact .inl rfl
  · by_cases hpos : 0 < s.nextOrderId
    · rw [takeId_of_pos hpos hroom]
      right
      simp [dispenser, Dispenser.take, positiveIds, hpos]
    · rw [takeId_of_not_pos hpos]
      left
      dsimp only
      split
      · -- The call gives up, and its zero is no id.
        simp [dispenser, positiveIds]
      · rfl

/-- **One turn.** The client gives out no id and its number stays, or it gives out the
number and counts on, or the number is raised. -/
theorem dispenser_step {F : Type} (fmt : TextFormats F Date) (s : ClientState) (a : ClientStep)
    (hroom : s.nextOrderId < i32Max) :
    dispenser (clientStep fmt s a) = dispenser s ∨
      dispenser (clientStep fmt s a) = (dispenser s).take (s.nextOrderId + 1) ∨
      ∃ oid, dispenser (clientStep fmt s a) = (dispenser s).raise oid := by
  cases a with
  | call call => exact .inl (dispenser_beginCall s call)
  | look call =>
      rcases dispenser_lookOnce call hroom with hkept | htaken
      · exact .inl hkept
      · exact .inr (.inl htaken)
  | frame fields =>
      refine .inr (.inr ⟨recvNextValidId fmt s.nextOrderId fields, ?_⟩)
      have hmax := max_eq_right (le_recvNextValidId fmt s.nextOrderId fields)
      simp only [dispenser, Dispenser.raise, hmax]
      rfl

theorem ordered_step {F : Type} (fmt : TextFormats F Date) (s : ClientState) (a : ClientStep)
    (hroom : BelowMax s a) (h : Ordered (dispenser s)) :
    Ordered (dispenser (clientStep fmt s a)) := by
  rcases dispenser_step fmt s a hroom with hkept | htaken | ⟨oid, hraised⟩
  · rw [hkept]
    exact h
  · rw [htaken]
    exact h.take (by show s.nextOrderId < s.nextOrderId + 1; omega)
  · rw [hraised]
    exact h.raise oid

/-- **Order ids are unique.** However the calls and the messages interleave, and as long as
the number is below `i32::MAX`, the positive ids that were returned increase in the order
of the turns that took them, and no two are the same. -/
theorem alloc_order_id_increasing {F : Type} (fmt : TextFormats F Date) (turns : List ClientStep)
    (hroom : Meets (clientStep fmt) BelowMax newClient turns) :
    (positiveIds (run (clientStep fmt) newClient turns)).Pairwise (· < ·) ∧
      (positiveIds (run (clientStep fmt) newClient turns)).Nodup := by
  have hordered : Ordered (dispenser (run (clientStep fmt) newClient turns)) :=
    run_invariant_of_meets (fun s => Ordered (dispenser s)) (ordered_step fmt)
      (Ordered.first 0) turns hroom
  exact ⟨hordered.sorted, hordered.nodup⟩

/-- Two calls, of which one waits for the first message, and a message with an old id. -/
def twoCalls : List ClientStep :=
  [.call 0, .look 0, .call 1, .frame ["9", "1", "40"], .look 1, .frame ["9", "1", "12"], .look 0]

theorem alloc_order_id_two_calls :
    (positiveIds (run (clientStep RestingSweep.plainFormats) newClient twoCalls)).Pairwise (· < ·) ∧
      (positiveIds (run (clientStep RestingSweep.plainFormats) newClient twoCalls)).Nodup :=
  alloc_order_id_increasing RestingSweep.plainFormats twoCalls (by decide +kernel)

example : positiveIds (run (clientStep RestingSweep.plainFormats) newClient twoCalls) = [40, 41] := by
  decide +kernel

end Corsair.Ports.OrderIds
