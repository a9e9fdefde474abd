import Corsair.Ports.OrderTrackingRuns
import Corsair.Ports.EdgeLaw

/-!
# The unack gate

The trader places an order under a key and does not know its id until the ack comes.  Until
then it must not place another one there, or the orders pile up at the broker: a place over
an order without an id waits `unackInflightNs` from the last time that order was written.
Once the id is known the trader amends, and places again only when the entry is gone.

A step is here an event of the hot loop or a whole pass of the staleness loop.

## Main results

* `quoterStep_written`, `quoterNext_moves` — what a step writes, and what it does to the
  tracked orders.
* `PlacedSince.step`, `PlacedSince.spaced` — an order written at a time and the places that follow
  it.
* `Acknowledged.step`, `emitted_acknowledged` — an order with an id, and the frames for its
  key.
* `unack_gate` — both over a run in which the entry stays.
-/

namespace Corsair.Ports.UnackGate

open Corsair.Verified
open Corsair.Verified.Runs
open Corsair.Verified.Filing
open Corsair.Ports.TraderState
open Corsair.Ports.DecideOnTick
open Corsair.Ports.Trader
open Corsair.Ports.TraderHalt
open Corsair.Ports.OrderTracking
open Corsair.Ports.OrderTrackingRuns
open Corsair.Ports.FailSafeGates
open Corsair.Ports.SelfCross

variable {F : Type} [F64 F]

/-! ## The loops in turn -/

/-- `process_event`, or `staleness_check`. -/
inductive QuoterStep (F : Type)
  | event (ev : Event F) (clock : Clock F) (accepts : Nat → Bool)
  | staleness (clock : Clock F) (accepts : Nat → Bool)

def QuoterStep.monoNs : QuoterStep F → Nat
  | .event _ clock _ => clock.monoNs
  | .staleness clock _ => clock.monoNs

/-- The commands that a step writes, and the trader after it. -/
def quoterStep (pricing : Pricing F) (placesOrders : Bool) (s : SharedState F) :
    QuoterStep F → List (Command F) × SharedState F
  | .event ev clock accepts => processEvent pricing placesOrders s clock accepts ev
  | .staleness clock accepts =>
      if placesOrders then stalenessCheck pricing s clock accepts else ([], s)

def quoterNext (pricing : Pricing F) (placesOrders : Bool) (s : SharedState F)
    (st : QuoterStep F) : SharedState F :=
  (quoterStep pricing placesOrders s st).2

/-- A frame that is handed to the ring: the key that it is for, and the ring's answer.  A
cancel of the tick path has an id only. -/
structure Emitted (F : Type) where
  key : Option OurOrderKey
  command : Command F
  accepted : Bool

/-- The key that a move is made at. -/
def moveKey : OrderMove F → Option OurOrderKey
  | .file _ key _ => some key
  | .put key _ => some key
  | .amend _ key _ => some key
  | .release _ => none
  | .discard _ key => some key

/-- The frame of an action of the staleness loop. -/
def emittedAction (clock : Clock F) (gtd : Nat) (accepts : Nat → Bool) (a : Action F × Nat) :
    Emitted F :=
  { key := some (actionKey a.1)
    command := actionFrame clock gtd a.1
    accepted := accepts a.2 }

/-- The frames that a step hands to the ring. -/
def emitted (pricing : Pricing F) (placesOrders : Bool) (s : SharedState F) :
    QuoterStep F → List (Emitted F)
  | .event (.tick msg) clock accepts =>
      (tickAttempts pricing placesOrders s clock msg).zipIdx.map fun a =>
        { key := moveKey a.1.2, command := a.1.1, accepted := accepts a.2 }
  | .event _ _ _ => []
  | .staleness clock accepts =>
      if placesOrders then
        (collectActions pricing s clock).zipIdx.map
          (emittedAction clock (gtdSeconds s.scalars) accepts)
      else []

/-- Those that the ring took. -/
def acceptedOf (frames : List (Emitted F)) : List (Command F) :=
  (frames.filter Emitted.accepted).map Emitted.command

omit [F64 F] in
/-- The loop over the actions. -/
theorem foldl_applyAction_spec (clock : Clock F) (gtd : Nat) (accepts : Nat → Bool)
    (items : List (Action F × Nat)) (out : List (Command F) × SharedState F) :
    let after := items.foldl
      (fun out a =>
        let (frames, s) := applyAction clock gtd out.2 (accepts a.2) a.1
        (out.1 ++ frames, s)) out
    after.1 = out.1 ++ acceptedOf (items.map (emittedAction clock gtd accepts)) ∧
      tracking after.2 =
        run apply (tracking out.2)
          (items.flatMap fun a => actionMoves clock (accepts a.2) a.1) := by
  induction items generalizing out with
  | nil => exact ⟨(List.append_nil _).symm, rfl⟩
  | cons a rest ih =>
      obtain ⟨hwritten, htracking⟩ := ih
        (out.1 ++ (applyAction clock gtd out.2 (accepts a.2) a.1).1,
          (applyAction clock gtd out.2 (accepts a.2) a.1).2)
      rw [List.foldl_cons]
      refine ⟨hwritten.trans ?_, htracking.trans ?_⟩
      · rw [List.append_assoc, applyAction_written]
        cases haccepted : accepts a.2 <;>
          simp [acceptedOf, emittedAction, taken, haccepted]
      · rw [tracking_applyAction, List.flatMap_cons, run_append]

omit [F64 F] in
theorem acceptedOf_attempts (attempts : List (Attempt F)) (accepts : Nat → Bool) :
    acceptedOf (attempts.zipIdx.map fun a =>
        { key := moveKey a.1.2, command := a.1.1, accepted := accepts a.2 }) =
      taken (answered attempts accepts) := by
  simp [acceptedOf, taken, answered, List.zipIdx_map, List.filter_map, Function.comp_def]

/-- **What a step writes.** -/
theorem quoterStep_written (pricing : Pricing F) (placesOrders : Bool) (s : SharedState F)
    (st : QuoterStep F) :
    (quoterStep pricing placesOrders s st).1 =
      acceptedOf (emitted pricing placesOrders s st) := by
  cases st with
  | event ev clock accepts =>
      cases ev with
      | tick msg =>
          exact (onTick_spec pricing placesOrders s clock accepts msg).1.trans
            (acceptedOf_attempts ..).symm
      | _ => rfl
  | staleness clock accepts =>
      cases placesOrders with
      | false => rfl
      | true =>
          exact (foldl_applyAction_spec clock (gtdSeconds s.scalars) accepts
            (collectActions pricing s clock).zipIdx ([], s)).1

/-- **Where a frame comes from.** A tick attempts it, or the staleness loop has an action for
it. -/
theorem mem_emitted {pricing : Pricing F} {placesOrders : Bool} {s : SharedState F}
    {st : QuoterStep F} {e : Emitted F} (he : e ∈ emitted pricing placesOrders s st) :
    (∃ msg clock accepts attempt i, st = .event (.tick msg) clock accepts ∧
      (tickAttempts pricing placesOrders s clock msg)[i]? = some attempt ∧
      e = { key := moveKey attempt.2, command := attempt.1, accepted := accepts i }) ∨
    ∃ clock accepts action i, st = .staleness clock accepts ∧
      action ∈ collectActions pricing s clock ∧
      e = emittedAction clock (gtdSeconds s.scalars) accepts (action, i) := by
  cases st with
  | event ev clock accepts =>
      cases ev with
      | tick msg =>
          obtain ⟨⟨attempt, i⟩, hitem, rfl⟩ := List.mem_map.mp he
          exact .inl ⟨msg, clock, accepts, attempt, i, rfl,
            List.mem_zipIdx_iff_getElem?.mp hitem, rfl⟩
      | _ => cases he
  | staleness clock accepts =>
      cases placesOrders with
      | false => cases he
      | true =>
          obtain ⟨⟨action, i⟩, hitem, rfl⟩ := List.mem_map.mp he
          exact .inr ⟨clock, accepts, action, i, rfl, List.fst_mem_of_mem_zipIdx hitem, rfl⟩

/-- The staleness loop places nothing. -/
theorem attempted_of_placed {pricing : Pricing F} {placesOrders : Bool} {s : SharedState F}
    {st : QuoterStep F} {e : Emitted F} (he : e ∈ emitted pricing placesOrders s st)
    {key : OurOrderKey} (hplaced : placedKey e.command = some key) :
    ∃ msg clock accepts attempt i, st = .event (.tick msg) clock accepts ∧
      (tickAttempts pricing placesOrders s clock msg)[i]? = some attempt ∧
      e = { key := moveKey attempt.2, command := attempt.1, accepted := accepts i } := by
  cases mem_emitted he with
  | inl htick => exact htick
  | inr haction =>
      obtain ⟨clock, accepts, action, i, -, -, rfl⟩ := haction
      cases action with
      | cancel orderId k => cases hplaced
      | modify orderId k price => cases hplaced

/-- A move that a step may make. -/
inductive QuoterMove (pricing : Pricing F) (placesOrders : Bool) (s : SharedState F) :
    QuoterStep F → OrderMove F → Prop
  | ack {clock : Clock F} {accepts : Nat → Bool} {p : PlaceAckMsg F} {key : OurOrderKey}
      (hkey : ackKey p = some key) :
      QuoterMove pricing placesOrders s (.event (.placeAck p) clock accepts)
        (.file p.orderId key (ackedOrder clock p))
  | ended {clock : Clock F} {accepts : Nat → Bool} {a : OrderAckMsg} {orderId : Int}
      (hended : endedOrder a = some orderId) :
      QuoterMove pricing placesOrders s (.event (.orderStatus a) clock accepts)
        (.release orderId)
  | tick {clock : Clock F} {accepts : Nat → Bool} {msg : TickMsg F} {attempt : Attempt F}
      (hattempt : attempt ∈ tickAttempts pricing placesOrders s clock msg) :
      QuoterMove pricing placesOrders s (.event (.tick msg) clock accepts) attempt.2
  | act {clock : Clock F} {accepts : Nat → Bool} {action : Action F} {accepted : Bool}
      {m : OrderMove F} (haction : action ∈ collectActions pricing s clock)
      (hmove : m ∈ actionMoves clock accepted action) :
      QuoterMove pricing placesOrders s (.staleness clock accepts) m

/-- **What a step does to the tracked orders.** -/
theorem quoterNext_moves (pricing : Pricing F) (placesOrders : Bool) (s : SharedState F)
    (st : QuoterStep F) :
    ∃ moves, tracking (quoterNext pricing placesOrders s st) = run apply (tracking s) moves ∧
      ∀ m ∈ moves, QuoterMove pricing placesOrders s st m := by
  cases st with
  | event ev clock accepts =>
      obtain ⟨-, moves, htracking, hmoves, -⟩ := traderStep_spec pricing placesOrders
        { shared := s, pass := none } (.event ev clock accepts)
      refine ⟨moves, htracking, fun m hm => ?_⟩
      cases hmoves m hm with
      | ack hkey => exact .ack hkey
      | ended hended => exact .ended hended
      | tick _ hattempt => exact .tick (List.mem_of_getElem? hattempt)
  | staleness clock accepts =>
      cases placesOrders with
      | false => exact ⟨[], rfl, fun m hm => (nomatch hm)⟩
      | true =>
          refine ⟨_, (foldl_applyAction_spec clock (gtdSeconds s.scalars) accepts
            (collectActions pricing s clock).zipIdx ([], s)).2, fun m hm => ?_⟩
          obtain ⟨⟨action, i⟩, hitem, hmove⟩ := List.mem_flatMap.mp hm
          exact .act (List.fst_mem_of_mem_zipIdx hitem) hmove

/-! ## What a place waits for -/

/-- A side is placed over an order only where that has no id and was written a while ago. -/
theorem place_decideSide {c : QuoteContext F} {s : SharedState F} {side side' : Side}
    {price : F} {cancelOldOid : Option Int} {own : OurOrder F}
    (h : (decideSide c s side).1 = some (.place side' price cancelOldOid))
    (hown : s.ourOrders.lookup (sideKey c side) = some own) :
    side' = side ∧ own.placeMonotonicNs + unackInflightNs ≤ c.now := by
  have hlookup : s.ourOrders.lookup (c.strikeKey, c.expiry, c.right, side.asChar) = some own :=
    hown
  unfold decideSide at h
  split at h
  · cases h
  split at h
  · rename_i targetQ _ _
    simp only [hlookup, Option.bind_some] at h
    split at h
    · cases h
    · rename_i hgate
      unfold sendSide at h
      extract_lets claim at h
      split at h
      · split at h
        · cases h
        · rename_i hid
          obtain ⟨rfl, -, -⟩ := Decision.place.inj (Option.some.inj h)
          refine ⟨rfl, ?_⟩
          have hnone : own.orderId.isNone = true := by
            rw [Option.isNone_iff_eq_none]
            exact hid
          have hwaited : ¬ c.now - own.placeMonotonicNs < unackInflightNs := by
            intro hyoung
            simp [restingGate, hnone, hyoung] at hgate
          have hgap : unackInflightNs = 2000000000 := rfl
          omega
      · cases h
  · cases h

/-- What a decision attempts is written at the time of the tick. -/
theorem placed_of_writes {tick : TickMsg F} {right : Char} {gtdSeconds : Nat} {clock : Clock F}
    {d : Decision F} {attempt : Attempt F} {key : OurOrderKey} {found : Option (OurOrder F)}
    {o : OurOrder F} (hattempt : attempt ∈ decisionAttempts tick right gtdSeconds clock d)
    (hwrites : attempt.2.writes key found = some o) : o.placeMonotonicNs = clock.monoNs := by
  cases d with
  | place side price cancelOldOid =>
      obtain rfl := List.mem_singleton.mp hattempt
      obtain ⟨-, hput⟩ := Option.ite_none_right_eq_some.mp hwrites
      obtain rfl := Option.some.inj hput
      rfl
  | modify side orderId price =>
      obtain rfl := List.mem_singleton.mp hattempt
      obtain ⟨-, hamended⟩ := Option.ite_none_right_eq_some.mp hwrites
      obtain ⟨old, -, rfl⟩ := Option.map_eq_some_iff.mp hamended
      rfl
  | cancelAll orderIds =>
      obtain ⟨orderId, -, rfl⟩ := List.mem_map.mp hattempt
      cases hwrites

/-- An attempt of a tick comes from one of its decisions. -/
theorem decided_of_mem_tickAttempts {pricing : Pricing F} {placesOrders : Bool}
    {s : SharedState F} {clock : Clock F} {msg : TickMsg F} {attempt : Attempt F}
    (h : attempt ∈ tickAttempts pricing placesOrders s clock msg) :
    ∃ right, firstUpper msg.right = some right ∧
      ∃ d ∈ (decideOnTick pricing clock.timeToExpiry (mergeTick s msg right).2
          (mergeTick s msg right).1 right clock.monoNs clock.wallNs).1,
        attempt ∈ decisionAttempts (mergeTick s msg right).1 right
          (gtdSeconds (mergeTick s msg right).2.scalars) clock d := by
  unfold tickAttempts at h
  split at h
  · cases h
  · rename_i right hright
    simp only at h
    split at h
    · obtain ⟨d, hd, hattempt⟩ := List.mem_flatMap.mp h
      exact ⟨right, hright, d, hd, hattempt⟩
    · cases h

/-- A place of a tick over an order: the order was written a while ago. -/
theorem place_tickAttempts {pricing : Pricing F} {placesOrders : Bool} {s : SharedState F}
    {clock : Clock F} {msg : TickMsg F} {attempt : Attempt F} {key : OurOrderKey}
    {own : OurOrder F} (h : attempt ∈ tickAttempts pricing placesOrders s clock msg)
    (hplaced : placedKey attempt.1 = some key) (hown : s.ourOrders.lookup key = some own) :
    own.placeMonotonicNs + unackInflightNs ≤ clock.monoNs := by
  obtain ⟨right, hright, d, hd, hattempt⟩ := decided_of_mem_tickAttempts h
  cases d with
  | place side price cancelOldOid =>
      obtain rfl := List.mem_singleton.mp hattempt
      obtain ⟨c, side', s', hcontext, ⟨_, _, _, rfl⟩, hdecided⟩ :=
        decided_decideOnTick hd (Option.some_ne_none _)
      obtain ⟨-, hnow, hkeys⟩ := contextAt_spec hcontext
      obtain ⟨price', -, hsets⟩ := sets_decideSide hdecided
      obtain rfl : side = side' := congrArg Prod.fst (Option.some.inj hsets)
      have hmerged : firstUpper (mergeTick s msg right).1.right = some right := hright
      obtain rfl : quoteKey (mergeTick s msg right).1 right side = key := by
        cases side <;>
          simpa [placedKey, orderKey, hmerged, Side.asStr, Side.asChar, quoteKey] using hplaced
      rw [← hkeys side] at hown
      rw [← hnow]
      exact (place_decideSide hdecided hown).2
  | modify side orderId price =>
      obtain rfl := List.mem_singleton.mp hattempt
      cases hplaced
  | cancelAll orderIds =>
      obtain ⟨orderId, -, rfl⟩ := List.mem_map.mp hattempt
      cases hplaced

/-! ## Orders under a key -/

/-- The order under the key was written at that time or later. -/
def PlacedSince (t : Nat) (key : OurOrderKey) (s : SharedState F) : Prop :=
  ∀ o ∈ s.ourOrders.lookup key, t ≤ o.placeMonotonicNs

/-- The order under the key has an id. -/
def Acknowledged (key : OurOrderKey) (s : SharedState F) : Prop :=
  ∀ o ∈ s.ourOrders.lookup key, o.orderId.isSome = true

omit [F64 F] in
/-- An action writes an order only by repricing the one that it finds. -/
theorem repriced_of_writes {clock : Clock F} {accepted : Bool} {action : Action F}
    {m : OrderMove F} (hmove : m ∈ actionMoves clock accepted action) {key : OurOrderKey}
    {found : Option (OurOrder F)} {o : OurOrder F} (hwrites : m.writes key found = some o) :
    ∃ old price, found = some old ∧ o = reprice clock price old := by
  cases action with
  | cancel orderId k =>
      obtain rfl := List.mem_singleton.mp hmove
      cases hwrites
  | modify orderId k price =>
      obtain ⟨-, rfl⟩ : accepted = true ∧ m = _ := by simpa [actionMoves] using hmove
      obtain ⟨-, hamended⟩ := Option.ite_none_right_eq_some.mp hwrites
      obtain ⟨old, hold, rfl⟩ := Option.map_eq_some_iff.mp hamended
      exact ⟨old, price, hold, rfl⟩

theorem QuoterMove.keeps_placedSince {pricing : Pricing F} {placesOrders : Bool}
    {s : SharedState F} {st : QuoterStep F} {m : OrderMove F}
    (h : QuoterMove pricing placesOrders s st m) {t : Nat} (ht : t ≤ st.monoNs)
    (key : OurOrderKey) : m.Keeps (fun o => t ≤ o.placeMonotonicNs) key := by
  intro found hfound o hwrites
  cases h with
  | @ack clock accepts p k hkey =>
      obtain ⟨rfl, hfiled⟩ := Option.ite_none_right_eq_some.mp hwrites
      obtain rfl := Option.some.inj hfiled
      cases found with
      | none => exact ht
      | some old => exact hfound old rfl
  | ended hended => cases hwrites
  | tick hattempt =>
      obtain ⟨right, -, d, -, hfrom⟩ := decided_of_mem_tickAttempts hattempt
      rw [placed_of_writes hfrom hwrites]
      exact ht
  | @act clock accepts action accepted _ haction hmove =>
      obtain ⟨old, price, -, rfl⟩ := repriced_of_writes hmove hwrites
      exact ht

/-- **Step lemma.** -/
theorem PlacedSince.step {t : Nat} {key : OurOrderKey} {s : SharedState F}
    (h : PlacedSince t key s) (pricing : Pricing F) (placesOrders : Bool) {st : QuoterStep F}
    (ht : t ≤ st.monoNs) : PlacedSince t key (quoterNext pricing placesOrders s st) := by
  obtain ⟨moves, htracking, hmoves⟩ := quoterNext_moves pricing placesOrders s st
  have hkept := slot_run_keeps (d := tracking s)
    (fun m hm => (hmoves m hm).keeps_placedSince ht key) h
  rw [← htracking] at hkept
  exact hkept

/-- A place that the ring takes writes the order at the time of the step. -/
theorem placedSince_of_place {pricing : Pricing F} {placesOrders : Bool} {s : SharedState F}
    {st : QuoterStep F} {key : OurOrderKey} {e : Emitted F}
    (he : e ∈ emitted pricing placesOrders s st) (haccepted : e.accepted = true)
    (hplaced : placedKey e.command = some key) :
    PlacedSince st.monoNs key (quoterNext pricing placesOrders s st) := by
  obtain ⟨msg, clock, accepts, attempt, i, rfl, hattempt, rfl⟩ := attempted_of_placed he hplaced
  obtain ⟨k, hon⟩ := on_of_mem (List.mem_of_getElem? hattempt)
  obtain ⟨rfl, -, order, hput⟩ := hon.put_of_placed hplaced
  obtain ⟨-, moves, htracking, hmoves, hputs⟩ :=
    onTick_tracked pricing placesOrders s clock accepts msg
  have hkeeps {a : Attempt F} (ha : a ∈ tickAttempts pricing placesOrders s clock msg) :
      a.2.Keeps (fun o => clock.monoNs ≤ o.placeMonotonicNs) key :=
    (show QuoterMove pricing placesOrders s (.event (.tick msg) clock accepts) a.2 from
      .tick ha).keeps_placedSince le_rfl key
  have hkeepsPut := hkeeps (List.mem_of_getElem? hattempt)
  rw [hput] at hkeepsPut
  have hwritten := slot_run_of_put (d := tracking s)
    (hputs i attempt.1 key order haccepted (hattempt.trans (by rw [← hput])))
    (hkeepsPut none (fun _ h => (nomatch h)) order (if_pos rfl)) fun m hm => by
      obtain ⟨j, command, -, hj⟩ := hmoves m hm
      exact hkeeps (List.mem_of_getElem? hj)
  rw [← htracking] at hwritten
  exact hwritten

/-- **The wait.** A place for a key under which an order was written at a time comes
`unackInflightNs` later. -/
theorem PlacedSince.spaced {t : Nat} {key : OurOrderKey} {s : SharedState F}
    (h : PlacedSince t key s) (hfiled : (s.ourOrders.lookup key).isSome = true)
    {pricing : Pricing F} {placesOrders : Bool} {st : QuoterStep F} {e : Emitted F}
    (he : e ∈ emitted pricing placesOrders s st) (hplaced : placedKey e.command = some key) :
    t + unackInflightNs ≤ st.monoNs := by
  obtain ⟨own, hown⟩ := Option.isSome_iff_exists.mp hfiled
  have hwritten : t ≤ own.placeMonotonicNs := h own hown
  obtain ⟨msg, clock, accepts, attempt, i, rfl, hattempt, rfl⟩ := attempted_of_placed he hplaced
  have hwaited := place_tickAttempts (List.mem_of_getElem? hattempt) hplaced hown
  show t + unackInflightNs ≤ clock.monoNs
  omega

/-- A step puts no order without an id over one that has an id. -/
theorem QuoterMove.keeps_acknowledged {pricing : Pricing F} {placesOrders : Bool}
    {s : SharedState F} {st : QuoterStep F} {m : OrderMove F}
    (h : QuoterMove pricing placesOrders s st m) {key : OurOrderKey} {orderId : Int}
    (howner : (tracking s).ownerAt OurOrder.orderId key = some orderId) :
    m.Keeps (fun o => o.orderId.isSome = true) key := by
  intro found hfound o hwrites
  cases h with
  | @ack clock accepts p k hkey =>
      obtain ⟨rfl, hfiled⟩ := Option.ite_none_right_eq_some.mp hwrites
      obtain rfl := Option.some.inj hfiled
      rw [orderId_ackedOrder]
      rfl
  | ended hended => cases hwrites
  | @tick clock accepts msg attempt hattempt =>
      obtain ⟨k, hon⟩ := on_of_mem hattempt
      obtain ⟨command, m⟩ := attempt
      have hmove := hon.2.2
      cases m with
      | file i k' f => cases hmove
      | put k' order =>
          obtain ⟨hfree, -⟩ := (hon.put_of_placed hmove.2.2).2
          obtain ⟨rfl, -⟩ := Option.ite_none_right_eq_some.mp hwrites
          rw [hmove.1, hfree] at howner
          cases howner
      | amend i k' f =>
          obtain ⟨-, hamended⟩ := Option.ite_none_right_eq_some.mp hwrites
          obtain ⟨old, hold, rfl⟩ := Option.map_eq_some_iff.mp hamended
          rw [hmove.2]
          exact hfound old hold
      | release i => cases hwrites
      | discard i k' => cases hmove
  | @act clock accepts action accepted _ haction hmove =>
      obtain ⟨old, price, hold, rfl⟩ := repriced_of_writes hmove hwrites
      exact hfound old hold

/-- **Step lemma.** -/
theorem Acknowledged.step {key : OurOrderKey} {s : SharedState F} (h : Acknowledged key s)
    (hfiled : (s.ourOrders.lookup key).isSome = true) (pricing : Pricing F) (placesOrders : Bool)
    (st : QuoterStep F) : Acknowledged key (quoterNext pricing placesOrders s st) := by
  obtain ⟨own, hown⟩ := Option.isSome_iff_exists.mp hfiled
  obtain ⟨orderId, hid⟩ := Option.isSome_iff_exists.mp (h own hown)
  have howner := ownerAt_tracking_iff.mpr ⟨own, hown, hid⟩
  obtain ⟨moves, htracking, hmoves⟩ := quoterNext_moves pricing placesOrders s st
  have hkept := slot_run_keeps (d := tracking s)
    (fun m hm => (hmoves m hm).keeps_acknowledged howner) h
  rw [← htracking] at hkept
  exact hkept

/-- The frames of a step for a key whose order has an id: none is a place, and an amend names
that id. -/
theorem emitted_acknowledged {pricing : Pricing F} {placesOrders : Bool} {s : SharedState F}
    {st : QuoterStep F} {key : OurOrderKey} {orderId : Int}
    (howner : (tracking s).ownerAt OurOrder.orderId key = some orderId) {e : Emitted F}
    (he : e ∈ emitted pricing placesOrders s st) :
    placedKey e.command ≠ some key ∧
      ∀ order, e.command = .modify order → e.key = some key → order.orderId = orderId := by
  constructor
  · intro hplaced
    obtain ⟨msg, clock, accepts, attempt, i, rfl, hattempt, rfl⟩ := attempted_of_placed he hplaced
    obtain ⟨k, hon⟩ := on_of_mem (List.mem_of_getElem? hattempt)
    obtain ⟨rfl, hfree, -⟩ := hon.put_of_placed hplaced
    cases hfree.symm.trans howner
  · intro order hcommand hkey
    obtain ⟨msg, clock, accepts, ⟨command, m⟩, i, rfl, hattempt, rfl⟩ |
      ⟨clock, accepts, action, i, rfl, haction, rfl⟩ := mem_emitted he
    · obtain ⟨k, habout, hnamed, hmove⟩ := on_of_mem (List.mem_of_getElem? hattempt)
      obtain rfl : command = .modify order := hcommand
      cases m with
      | file i k' f => cases hmove
      | put k' order => cases habout
      | amend i k' f =>
          obtain rfl : k' = key := Option.some.inj hkey
          rw [hmove.1, hnamed] at howner
          exact Option.some.inj howner
      | release i => cases hkey
      | discard i k' => cases hmove
    · have hcollected := ownerAt_of_mem_collectActions haction
      cases action with
      | cancel orderId k => cases hcommand
      | modify orderId k price =>
          obtain rfl := Command.modify.inj hcommand
          obtain rfl : k = key := Option.some.inj hkey
          exact Option.some.inj (hcollected.symm.trans howner)

/-- A step places at a key once. -/
theorem emitted_once {pricing : Pricing F} {placesOrders : Bool} {s : SharedState F}
    {st : QuoterStep F} {key : OurOrderKey} {i j : Nat} {e e' : Emitted F}
    (hi : (emitted pricing placesOrders s st)[i]? = some e)
    (hplaced : placedKey e.command = some key)
    (hj : (emitted pricing placesOrders s st)[j]? = some e')
    (hplaced' : placedKey e'.command = some key) : i = j := by
  obtain ⟨msg, clock, accepts, _, _, rfl, -⟩ :=
    attempted_of_placed (List.mem_of_getElem? hi) hplaced
  obtain ⟨keys, hnodup, hkeys⟩ := tickAttempts_on pricing placesOrders s clock msg
  -- the attempt in that place is at the key
  have hat {n : Nat} {e : Emitted F}
      (hn : (emitted pricing placesOrders s (.event (.tick msg) clock accepts))[n]? = some e)
      (hplaced : placedKey e.command = some key) : keys[n]? = some key := by
    simp only [emitted, List.getElem?_map, List.getElem?_zipIdx] at hn
    obtain ⟨⟨attempt, m⟩, hitem, rfl⟩ := Option.map_eq_some_iff.mp hn
    obtain ⟨attempt', hattempt, hpair⟩ := Option.map_eq_some_iff.mp hitem
    obtain ⟨rfl, -⟩ := Prod.mk.inj hpair
    obtain ⟨k, hk, hon⟩ := on_of_getElem? hkeys hattempt
    rw [hk, hon.placedKey_eq hplaced]
  exact (List.getElem?_inj (List.getElem?_eq_some_iff.mp (hat hi hplaced)).1 hnodup).mp
    ((hat hi hplaced).trans (hat hj hplaced').symm)

/-! ## Runs -/

/-- The key under which a step acknowledges an order. -/
def ackedKey : QuoterStep F → Option OurOrderKey
  | .event (.placeAck p) _ _ => ackKey p
  | _ => none

theorem acknowledged_of_ack {st : QuoterStep F} {key : OurOrderKey}
    (hacked : ackedKey st = some key) (pricing : Pricing F) (placesOrders : Bool)
    (s : SharedState F) : Acknowledged key (quoterNext pricing placesOrders s st) := by
  cases st with
  | event ev clock accepts =>
      cases ev with
      | placeAck p =>
          have hkey : ackKey p = some key := hacked
          intro own hown
          have hslot : (tracking (onPlaceAck s clock p)).slot key = some own := hown
          rw [tracking_onPlaceAck, hkey, Option.toList_some, List.map_singleton, run_cons,
            run_nil] at hslot
          obtain rfl : ackedOrder clock p ((tracking s).slot key) = own := by
            simpa [apply] using hslot
          rw [orderId_ackedOrder]
          rfl
      | _ => cases hacked
  | staleness clock accepts => cases hacked

/-- An entry is filed under the key when the step is taken. -/
def Files (key : OurOrderKey) (s : SharedState F) (_ : QuoterStep F) : Prop :=
  (s.ourOrders.lookup key).isSome = true

instance (key : OurOrderKey) (s : SharedState F) (st : QuoterStep F) :
    Decidable (Files key s st) := by
  unfold Files
  infer_instance

/-- **The unack gate.** Take two steps of a run between which the entry of a key is not
removed.  If the ring takes a place for the key in the first and the last attempts another,
they are `unackInflightNs` apart.  If the first is an ack for the key, the last attempts no
place for it, and every amend for it names the id that its entry has.  No step places twice
for a key. -/
theorem unack_gate (pricing : Pricing F) (placesOrders : Bool) (s : SharedState F)
    (first last : QuoterStep F) (between : List (QuoterStep F)) (key : OurOrderKey)
    (hclock : (first :: (between ++ [last])).Pairwise fun a b => a.monoNs ≤ b.monoNs)
    (hfiled : Meets (quoterNext pricing placesOrders) (Files key)
      (quoterNext pricing placesOrders s first) (between ++ [last])) :
    let before := run (quoterNext pricing placesOrders)
      (quoterNext pricing placesOrders s first) between
    (∀ e ∈ emitted pricing placesOrders s first, e.accepted = true →
        placedKey e.command = some key →
      ∀ e' ∈ emitted pricing placesOrders before last, placedKey e'.command = some key →
        first.monoNs + unackInflightNs ≤ last.monoNs) ∧
      (ackedKey first = some key → ∀ e' ∈ emitted pricing placesOrders before last,
        placedKey e'.command ≠ some key ∧
          ∀ order, e'.command = .modify order → e'.key = some key →
            ∃ own ∈ before.ourOrders.lookup key, own.orderId = some order.orderId) ∧
        ∀ (i j : Nat) (e e' : Emitted F), (emitted pricing placesOrders s first)[i]? = some e →
          placedKey e.command = some key → (emitted pricing placesOrders s first)[j]? = some e' →
            placedKey e'.command = some key → i = j := by
  intro before
  have hlast : Files key before last := hfiled.at_step
  refine ⟨fun e he haccepted hplaced e' he' hplaced' => ?_, fun hacked e' he' => ?_,
    fun i j e e' hi hplaced hj hplaced' => emitted_once hi hplaced hj hplaced'⟩
  · have hlater : ∀ st ∈ between, first.monoNs ≤ st.monoNs := fun st hst =>
      List.rel_of_pairwise_cons hclock (List.mem_append_left _ hst)
    have hsince : PlacedSince first.monoNs key before :=
      run_invariant_of_meets (PlacedSince first.monoNs key)
        (fun s st hlater h => h.step pricing placesOrders hlater)
        (placedSince_of_place he haccepted hplaced) between (meets_of_forall hlater _)
    exact hsince.spaced hlast he' hplaced'
  · have hknown : Acknowledged key before :=
      run_invariant_of_meets (Acknowledged key)
        (fun s st hfiled h => h.step hfiled pricing placesOrders st)
        (acknowledged_of_ack hacked pricing placesOrders s) between hfiled.front
    obtain ⟨own, hown⟩ := Option.isSome_iff_exists.mp hlast
    obtain ⟨orderId, hid⟩ := Option.isSome_iff_exists.mp (hknown own hown)
    obtain ⟨hplace, hamend⟩ := emitted_acknowledged
      (ownerAt_tracking_iff.mpr ⟨own, hown, hid⟩) he'
    exact ⟨hplace, fun order hcommand hkey =>
      ⟨own, hown, by rw [hamend order hcommand hkey]; exact hid⟩⟩

/-! The bid on the 6.00 call: placed at one second, and its ack is lost, or comes a tenth of
a second later. -/

def bookTick (ns : Nat) (bid ask : ℚ) : QuoterStep ℚ :=
  .event (.tick (EdgeLaw.bookOf bid ask none none)) (quarterYear ns) fun _ => true

def ackAt (ns : Nat) (orderId : Int) : QuoterStep ℚ :=
  .event
    (.placeAck
      { orderId := orderId
        strike := 6
        expiry := "20260526"
        right := "C"
        side := "BUY"
        price := 3575 / 10000 })
    (quarterYear ns) fun _ => true

/-- The bid is placed in a wide book. -/
def bidPlaced : QuoterStep ℚ := bookTick 1000000000 (3600 / 10000) (3640 / 10000)

/-- The market is lower: a tick for which the bid is too high. -/
def lowerBook (ns : Nat) : QuoterStep ℚ := bookTick ns (3520 / 10000) (3590 / 10000)

theorem unack_gate_of_bid :
    let before := run (quoterNext atTheMoney true)
      (quoterNext atTheMoney true (after opening) bidPlaced) [lowerBook 1500000000]
    (∃ e ∈ emitted atTheMoney true (after opening) bidPlaced,
        e.accepted = true ∧ placedKey e.command = some bidKey) ∧
      (∃ e ∈ emitted atTheMoney true before (lowerBook 3000000000),
        placedKey e.command = some bidKey) ∧
      bidPlaced.monoNs + unackInflightNs ≤ (lowerBook 3000000000).monoNs ∧
      let placed := quoterNext atTheMoney true (after opening) bidPlaced
      let acked := quoterNext atTheMoney true placed (ackAt 1100000000 7)
      (∃ e ∈ emitted atTheMoney true acked (lowerBook 2000000000), e.key = some bidKey) ∧
        ∀ e ∈ emitted atTheMoney true acked (lowerBook 2000000000),
          placedKey e.command ≠ some bidKey := by
  intro before
  have hfirst : ∃ e ∈ emitted atTheMoney true (after opening) bidPlaced,
      e.accepted = true ∧ placedKey e.command = some bidKey := by decide +kernel
  have hlast : ∃ e ∈ emitted atTheMoney true before (lowerBook 3000000000),
      placedKey e.command = some bidKey := by decide +kernel
  obtain ⟨e, he, haccepted, hplaced⟩ := id hfirst
  obtain ⟨e', he', hplaced'⟩ := id hlast
  refine ⟨hfirst, hlast, (unack_gate atTheMoney true (after opening) bidPlaced
    (lowerBook 3000000000) [lowerBook 1500000000] bidKey (by decide +kernel)
    (by decide +kernel)).1 e he haccepted hplaced e' he' hplaced', by decide +kernel,
    fun e he => ?_⟩
  exact ((unack_gate atTheMoney true (quoterNext atTheMoney true (after opening) bidPlaced)
    (ackAt 1100000000 7) (lowerBook 2000000000) [] bidKey (by decide +kernel)
    (by decide +kernel)).2.1 (by decide +kernel) e he).1

end Corsair.Ports.UnackGate
