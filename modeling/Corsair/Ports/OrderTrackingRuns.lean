import Corsair.Ports.OrderTracking
import Corsair.Ports.TraderHalt

/-!
# What the trader knows of its orders, over its runs

Three properties of `our_orders` and `orderid_to_key`, each with the condition
under which the trader has it.

An order is forgotten once its terminal status has been processed, unless the
status overtakes the ack: a status for an id that the reverse map does not know
is ignored, and the ack then files the order for good.

An entry is touched only for the sake of its own order, as long as every ack
comes in turn, that is, finds no other order at its key, neither in the map nor
in an action that the staleness loop still has to carry out.

A frame that the ring refuses leaves the tracking of its order alone, unless it
is a cancel of the staleness loop for an order that the reverse map still
knows: that loop removes the order whatever the ring answers.

## Main results

* `KeptTo.run`, `Inverse.run` — the two invariants.
* `forgets_ended_orders`, `touches_own_orders`, `dropped_frame_keeps_tracking`.
-/

namespace Corsair.Ports.OrderTrackingRuns

open Corsair.Verified
open Corsair.Verified.Runs
open Corsair.Verified.Filing
open Corsair.Ports.TraderState
open Corsair.Ports.DecideOnTick
open Corsair.Ports.Trader
open Corsair.Ports.OrderTracking
open Corsair.Ports.TraderHalt

variable {F : Type} [F64 F]

/-! ## The actions that a pass has left -/

/-- The actions that the staleness loop still has to carry out. -/
def pendingActions (s : TraderSys F) : List (Action F) := (s.pass.map Pass.actions).getD []

/-- An action is collected from the entry under its key, which has its id. -/
theorem ownerAt_of_mem_collectActions {pricing : Pricing F} {s : SharedState F}
    {clock : Clock F} {a : Action F} (h : a ∈ collectActions pricing s clock) :
    (tracking s).ownerAt OurOrder.orderId (actionKey a) = some (actionOrder a) := by
  obtain ⟨⟨key, order⟩, hentry, haction⟩ := List.mem_filterMap.mp h
  obtain ⟨rfl, horder⟩ := orderId_stalenessAction haction
  exact ownerAt_tracking_iff.mpr
    ⟨order, List.mem_dlookup s.ourOrders.nodupKeys hentry, horder⟩

/-- **Where pending actions come from.** An action that is pending after a step
was pending before it, or the step has just collected it. -/
theorem pending_nextState {pricing : Pricing F} {placesOrders : Bool} {s : TraderSys F}
    {st : TraderStep F} {a : Action F}
    (h : a ∈ pendingActions (nextState pricing placesOrders s st)) :
    a ∈ pendingActions s ∨
      (nextState pricing placesOrders s st).shared = s.shared ∧
        (tracking s.shared).ownerAt OurOrder.orderId (actionKey a) = some (actionOrder a) := by
  cases st with
  | event ev clock accepts => exact .inl h
  | collect clock =>
      simp only [nextState, traderStep] at h ⊢
      split at h
      · rename_i hcollects
        rw [if_pos hcollects]
        exact .inr ⟨rfl, ownerAt_of_mem_collectActions h⟩
      · exact .inl h
  | act accepted =>
      left
      rcases hpass : s.pass with _ | ⟨clock, gtdSeconds, _ | ⟨action, rest⟩⟩
      · simp only [nextState, traderStep, hpass] at h
        exact h
      · simp [nextState, traderStep, hpass, pendingActions] at h
      · simp only [nextState, traderStep, hpass, pendingActions, Option.map_some,
          Option.getD_some] at h ⊢
        exact List.mem_cons_of_mem _ h

/-! ## Orders that end -/

/-- The key under which a step acknowledges an order. -/
def acks (orderId : Int) : TraderStep F → Option OurOrderKey
  | .event (.placeAck p) _ _ => if p.orderId = orderId then ackKey p else none
  | _ => none

/-- The step processes a terminal status of an order. -/
def ends (orderId : Int) : TraderStep F → Bool
  | .event (.orderStatus a) _ _ => endedOrder a == some orderId
  | _ => false

/-- The order is filed under one key only, also where the staleness loop still
has to do with it. -/
structure KeptTo (orderId : Int) (key : OurOrderKey) (s : TraderSys F) : Prop where
  filed : FiledAt OurOrder.orderId (tracking s.shared) orderId key
  pending : ∀ a ∈ pendingActions s, actionOrder a = orderId → actionKey a = key

theorem KeptTo.step {orderId : Int} {key : OurOrderKey} {s : TraderSys F}
    (h : KeptTo orderId key s) (pricing : Pricing F) (placesOrders : Bool) {st : TraderStep F}
    (hacks : ∀ k, acks orderId st = some k → k = key) :
    KeptTo orderId key (nextState pricing placesOrders s st) where
  filed := by
    obtain ⟨-, moves, htracking, hmoves, -⟩ := traderStep_spec pricing placesOrders s st
    rw [htracking]
    refine h.filed.run (fun m hm => (hmoves m hm).lawful) fun m hm => ?_
    cases hmoves m hm with
    | ack hkey =>
        intro hid
        exact hacks _ ((if_pos hid).trans hkey)
    | ended hended => trivial
    | tick haccepts hattempt =>
        obtain ⟨k, hon⟩ := on_of_mem (List.mem_of_getElem? hattempt)
        exact hon.move.2.2 ..
    | @act _ _ action _ _ _ hpass hmove =>
        have hpending : action ∈ pendingActions s := by simp [pendingActions, hpass]
        obtain ⟨-, hfiles, habout, hstrikes⟩ := spec_of_mem_actionMoves hmove
        have hkeeps := h.pending action hpending
        cases m with
        | discard i k =>
            intro hid
            obtain rfl := Option.some.inj (hstrikes (tracking s.shared))
            exact hkeeps ((Option.some.inj habout).symm.trans hid)
        | file i k f => exact absurd trivial hfiles
        | put k order => trivial
        | amend i k f => trivial
        | release i => trivial
  pending a ha hid := by
    rcases pending_nextState ha with hold | ⟨-, howner⟩
    · exact h.pending a hold hid
    · rw [hid] at howner
      exact (h.filed.record (actionKey a) howner).1

theorem traderStart_keptTo (burstWindowNs : Nat) (orderId : Int) (key : OurOrderKey) :
    KeptTo orderId key (traderStart burstWindowNs : TraderSys F) where
  filed := ⟨fun _ h => (nomatch h), fun _ h => (nomatch h)⟩
  pending _ ha := (nomatch ha)

/-- **One key an order.** An order whose acks all name one key is filed under
that key only. -/
theorem KeptTo.run {orderId : Int} {key : OurOrderKey} (pricing : Pricing F)
    (placesOrders : Bool) {s : TraderSys F} (h : KeptTo orderId key s)
    {history : List (TraderStep F)}
    (hacks : ∀ st ∈ history, ∀ k, acks orderId st = some k → k = key) :
    KeptTo orderId key (run (nextState pricing placesOrders) s history) := by
  induction history generalizing s with
  | nil => exact h
  | cons st rest ih =>
      rw [List.forall_mem_cons] at hacks
      exact ih (h.step pricing placesOrders hacks.1) hacks.2

/-- An order whose acks are past is forgotten once it is released. -/
theorem unlisted_step {orderId : Int} {s : TraderSys F}
    (h : Unlisted OurOrder.orderId (tracking s.shared) orderId) (pricing : Pricing F)
    (placesOrders : Bool) {st : TraderStep F} (hacks : acks orderId st = none) :
    Unlisted OurOrder.orderId (tracking (nextState pricing placesOrders s st).shared)
      orderId := by
  obtain ⟨-, moves, htracking, hmoves, -⟩ := traderStep_spec pricing placesOrders s st
  rw [htracking]
  refine h.run (fun m hm => (hmoves m hm).lawful) fun m hm key f hfile => ?_
  subst hfile
  obtain ⟨p, clock, accepts, rfl, hid, hkey⟩ := (hmoves _ hm).file
  cases hkey.symm.trans ((if_pos hid).symm.trans hacks)

theorem unlisted_run {orderId : Int} (pricing : Pricing F) (placesOrders : Bool)
    {s : TraderSys F} (h : Unlisted OurOrder.orderId (tracking s.shared) orderId)
    {history : List (TraderStep F)} (hacks : ∀ st ∈ history, acks orderId st = none) :
    Unlisted OurOrder.orderId
      (tracking (run (nextState pricing placesOrders) s history).shared) orderId := by
  induction history generalizing s with
  | nil => exact h
  | cons st rest ih =>
      rw [List.forall_mem_cons] at hacks
      exact ih (unlisted_step h pricing placesOrders hacks.1) hacks.2

/-- A terminal status of an order that is filed under one key. -/
theorem unlisted_of_ends {orderId : Int} {key : OurOrderKey} {s : TraderSys F}
    (h : KeptTo orderId key s) (pricing : Pricing F) (placesOrders : Bool) {st : TraderStep F}
    (hends : ends orderId st = true) :
    Unlisted OurOrder.orderId (tracking (nextState pricing placesOrders s st).shared)
      orderId := by
  unfold ends at hends
  split at hends
  · rename_i a clock accepts
    have hended : endedOrder a = some orderId := by simpa using hends
    have htracking : tracking (nextState pricing placesOrders s
        (.event (.orderStatus a) clock accepts)).shared =
          run apply (tracking s.shared) ((endedOrder a).toList.map Move.release) :=
      tracking_onOrderStatus s.shared a
    rw [htracking, hended]
    exact unlisted_release h.filed
  · cases hends

/-- Right after its ack an order has an entry. -/
theorem ownerAt_of_acks {orderId : Int} {key : OurOrderKey} (pricing : Pricing F)
    (placesOrders : Bool) (s : TraderSys F) {st : TraderStep F}
    (hacks : acks orderId st = some key) :
    (tracking (nextState pricing placesOrders s st).shared).ownerAt OurOrder.orderId key =
      some orderId := by
  unfold acks at hacks
  split at hacks
  · rename_i p clock accepts
    split at hacks
    · rename_i hid
      subst hid
      have htracking : tracking (nextState pricing placesOrders s
          (.event (.placeAck p) clock accepts)).shared =
            run apply (tracking s.shared)
              ((ackKey p).toList.map fun key => .file p.orderId key (ackedOrder clock p)) :=
        tracking_onPlaceAck s.shared clock p
      rw [htracking, hacks]
      simp [Directory.ownerAt, apply, orderId_ackedOrder]
    · cases hacks
  · cases hacks

/-! A bid of 0.3575 and an offer of 0.36 on a call worth 0.3587. -/

/-- A tick of the call, with size on both sides; the ring takes all of its
frames or none. -/
def liveCall (ns : Nat) (bid : ℚ) (accepted : Bool) : TraderStep ℚ :=
  .event
    (.tick
      { strike := 6
        expiry := "20260526"
        right := "C"
        bid := some bid
        ask := some (3605 / 10000)
        bidSize := some 10
        askSize := some 10
        tsNs := none
        brokerRecvNs := none
        depthBid0 := none
        depthBid1 := none
        depthAsk0 := none
        depthAsk1 := none })
    (quarterYear ns) fun _ => accepted

def calmRisk (ns : Nat) : TraderStep ℚ :=
  .event
    (.riskState
      { marginPct := 1 / 10, hedgeDelta := 0, effectiveDelta := 0, theta := 0, vega := 0 })
    (quarterYear ns) fun _ => true

/-- The ack of a bid on the call. -/
def ackBidAt (ns : Nat) (orderId : Int) (price : ℚ) : TraderStep ℚ :=
  .event
    (.placeAck
      { orderId := orderId
        strike := 6
        expiry := "20260526"
        right := "C"
        side := "BUY"
        price := price })
    (quarterYear ns) fun _ => true

/-- The ack of our first bid. -/
def ackBid (ns : Nat) (orderId : Int) : TraderStep ℚ := ackBidAt ns orderId (3575 / 10000)

def statusOf (ns : Nat) (orderId : Int) (status : String) : TraderStep ℚ :=
  .event (.orderStatus { orderId := some orderId, status := some status }) (quarterYear ns)
    fun _ => true

/-- Spot, surface and risk have arrived, and a tick has placed the two orders. -/
def quotedCall : List (TraderStep ℚ) :=
  overpricedBid.take 2 ++ [calmRisk 3, liveCall 4 (357 / 1000) true]

/-- The key of the bid. -/
def bidKey : OurOrderKey := (60000, "20260526", 'C', 'B')

/-- The bid fills before its ack has been published. -/
theorem fast_fill_leaves_ghost_order :
    let history := quotedCall ++ [statusOf 5 7 "Filled", ackBid 6 7]
    (history.filter fun st => (acks 7 st).isSome).length = 1 ∧
      (∃ st ∈ history, ends 7 st = true) ∧
        ((run (nextState atTheMoney true) (traderStart 0) history).shared.ourOrders.lookup
          bidKey).bind OurOrder.orderId = some 7 := by
  decide +kernel

/-- **No ghost orders, exactly.** Take an order that is acknowledged once.  It
has no entry in any state after both its ack and a terminal status, if and only
if no terminal status came before the ack. -/
theorem forgets_ended_orders (pricing : Pricing F) (placesOrders : Bool) (burstWindowNs : Nat)
    (orderId : Int) (key : OurOrderKey) (front : List (TraderStep F)) (ack : TraderStep F)
    (back : List (TraderStep F)) (hack : acks orderId ack = some key)
    (honce : ∀ st ∈ front ++ back, acks orderId st = none) :
    (∀ mid rest, back = mid ++ rest → (∃ st ∈ front ++ mid, ends orderId st = true) →
        ∀ k order, (run (nextState pricing placesOrders) (traderStart burstWindowNs)
            (front ++ ack :: mid)).shared.ourOrders.lookup k = some order →
          order.orderId ≠ some orderId) ↔
      ∀ st ∈ front, ends orderId st = false := by
  rw [List.forall_mem_append] at honce
  constructor
  · intro hgone st hst
    by_contra hends
    obtain ⟨order, hlookup, horder⟩ := ownerAt_tracking_iff.mp (ownerAt_of_acks pricing
      placesOrders (run (nextState pricing placesOrders) (traderStart burstWindowNs) front) hack)
    refine hgone [] back rfl ⟨st, by simpa using hst, by simpa using hends⟩ key order ?_ horder
    rwa [run_append]
  · rintro hfront mid rest rfl ⟨st, hst, hends⟩ k order hlookup horder
    have hmid : st ∈ mid := (List.mem_append.mp hst).resolve_left fun hst =>
      Bool.false_ne_true ((hfront st hst).symm.trans hends)
    obtain ⟨before, after, rfl⟩ := List.append_of_mem hmid
    -- up to the status the order is filed under its key
    have hkept : KeptTo orderId key (run (nextState pricing placesOrders)
        (traderStart burstWindowNs) (front ++ ack :: before)) := by
      refine (traderStart_keptTo burstWindowNs orderId key).run pricing placesOrders ?_
      intro st' hst' k' hk'
      rcases List.mem_append.mp hst' with h | h
      · cases (honce.1 st' h).symm.trans hk'
      · rcases List.mem_cons.mp h with rfl | h
        · exact Option.some.inj (hk'.symm.trans hack)
        · cases (honce.2 st' (by simp [h])).symm.trans hk'
    -- and from then on it is gone
    have hafter : ∀ st' ∈ after, acks orderId st' = none := fun st' hst' =>
      honce.2 st' (by simp [hst'])
    have hunlisted := unlisted_run pricing placesOrders
      (unlisted_of_ends hkept pricing placesOrders hends) hafter
    rw [show front ++ ack :: (before ++ st :: after) = front ++ ack :: before ++ st :: after by
      simp, run_append] at hlookup
    exact hunlisted k (ownerAt_tracking_iff.mpr ⟨order, hlookup, horder⟩)

/-- The bid fills after its ack. -/
theorem forgets_ended_orders_after_ack :
    (∀ st ∈ quotedCall, ends 7 st = false) ∧
      ∀ mid rest, [statusOf 6 7 "Filled"] = mid ++ rest →
        (∃ st ∈ quotedCall ++ mid, ends 7 st = true) →
          ∀ k order, (run (nextState atTheMoney true) (traderStart 0)
              (quotedCall ++ ackBid 5 7 :: mid)).shared.ourOrders.lookup k = some order →
            order.orderId ≠ some 7 := by
  have hfront : ∀ st ∈ quotedCall, ends 7 st = false := by decide +kernel
  exact ⟨hfront, (forgets_ended_orders atTheMoney true 0 7 bidKey quotedCall (ackBid 5 7)
    [statusOf 6 7 "Filled"] (by decide +kernel) (by decide +kernel)).mpr hfront⟩

/-! ## Whose order a step touches -/

/-- The ack finds no other order at its key: neither in the map, nor in an action
that the staleness loop has left to carry out. -/
def AckInTurn (s : TraderSys F) : TraderStep F → Prop
  | .event (.placeAck p) _ _ =>
      ∀ key ∈ ackKey p,
        (∀ orderId ∈ (s.shared.ourOrders.lookup key).bind OurOrder.orderId,
            orderId = p.orderId) ∧
          ∀ a ∈ pendingActions s, actionKey a = key → actionOrder a = p.orderId
  | _ => True

instance (s : TraderSys F) (st : TraderStep F) : Decidable (AckInTurn s st) :=
  match st with
  | .event ev _ _ =>
      match ev with
      | .placeAck p =>
          inferInstanceAs (Decidable (∀ key ∈ ackKey p,
            (∀ orderId ∈ (s.shared.ourOrders.lookup key).bind OurOrder.orderId,
                orderId = p.orderId) ∧
              ∀ a ∈ pendingActions s, actionKey a = key → actionOrder a = p.orderId))
      | .undecodable | .unknown | .tick _ | .underlyingTick _ | .volSurface _ | .riskState _
      | .orderStatus _ | .kill _ | .resume _ | .weekendPause _ | .hello _ => .isTrue trivial
  | .collect _ | .act _ => .isTrue trivial

/-- The step is about the order: it processes an event about it, writes a
command about it, or carries out an action about it. -/
def Concerns (pricing : Pricing F) (placesOrders : Bool) (s : TraderSys F) (st : TraderStep F)
    (orderId : Int) : Prop :=
  (match st with
    | .event (.placeAck p) _ _ => p.orderId = orderId
    | .event (.orderStatus a) _ _ => a.orderId = some orderId
    | .act _ => (pendingActions s).head?.map actionOrder = some orderId
    | _ => False) ∨
    ∃ command ∈ (traderStep pricing placesOrders s st).1, commandAbout command = some orderId

omit [F64 F] in
theorem mem_taken_answered {attempts : List (Attempt F)} {accepts : Nat → Bool} {i : Nat}
    {attempt : Attempt F} (haccepts : accepts i = true) (hattempt : attempts[i]? = some attempt) :
    attempt.1 ∈ taken (answered attempts accepts) := by
  refine List.mem_map.mpr ⟨(attempt.1, true), List.mem_filter.mpr ⟨?_, rfl⟩, rfl⟩
  refine List.mem_map.mpr ⟨(attempt.1, i), ?_, by rw [haccepts]⟩
  rw [List.mem_zipIdx_iff_getElem?, List.getElem?_map, hattempt]
  rfl

/-- A move is about an order only in a step that is. -/
theorem concerns_of_stepMove {pricing : Pricing F} {placesOrders : Bool} {s : TraderSys F}
    {st : TraderStep F} {m : OrderMove F} (h : StepMove pricing placesOrders s st m)
    {orderId : Int} (habout : m.about = some orderId) :
    Concerns pricing placesOrders s st orderId := by
  cases h with
  | ack hkey => exact .inl (Option.some.inj habout)
  | @ended _ _ a _ hended =>
      left
      obtain rfl := Option.some.inj habout
      exact (Option.filter_eq_some_iff.mp hended).1
  | @tick clock accepts msg _ _ haccepts hattempt =>
      right
      obtain ⟨key, hon⟩ := on_of_mem (List.mem_of_getElem? hattempt)
      rw [(traderStep_spec pricing placesOrders s (.event (.tick msg) clock accepts)).1]
      exact ⟨_, mem_taken_answered haccepts hattempt, hon.1.symm.trans habout⟩
  | act hpass hmove =>
      left
      obtain ⟨-, -, hid, -⟩ := spec_of_mem_actionMoves hmove
      simpa [pendingActions, hpass] using hid.symm.trans habout

/-- The reverse map points at entries of its orders, and no action waits at the
key of another order. -/
structure Inverse (s : TraderSys F) : Prop where
  points : Points OurOrder.orderId (tracking s.shared)
  pending : ∀ a ∈ pendingActions s, ∀ j,
    (tracking s.shared).ownerAt OurOrder.orderId (actionKey a) = some j → j = actionOrder a

/-- A move of a step that is in turn strikes no entry of another order. -/
theorem Inverse.proper {s : TraderSys F} (h : Inverse s) {pricing : Pricing F}
    {placesOrders : Bool} {st : TraderStep F} (hturn : AckInTurn s st) {m : OrderMove F}
    (hmove : StepMove pricing placesOrders s st m) :
    m.Proper OurOrder.orderId (tracking s.shared) := by
  cases hmove with
  | ack hkey =>
      rintro _ ⟨⟩ j hj
      exact congrArg some ((hturn _ hkey).1 j hj).symm
  | ended hended => exact h.points.proper_release _
  | tick haccepts hattempt =>
      obtain ⟨key, hon⟩ := on_of_mem (List.mem_of_getElem? hattempt)
      exact hon.proper fun i _ => h.points.proper_release i
  | @act _ _ action _ _ _ hpass hmove =>
      obtain ⟨-, -, habout, hstrikes⟩ := spec_of_mem_actionMoves hmove
      intro k hk j hj
      obtain rfl : actionKey action = k := Option.some.inj ((hstrikes _).symm.trans hk)
      rw [habout, h.pending action (by simp [pendingActions, hpass]) j hj]

/-- The moves of a step, all of them proper when they are made. -/
theorem Inverse.meets {s : TraderSys F} (h : Inverse s) (pricing : Pricing F)
    (placesOrders : Bool) {st : TraderStep F} (hturn : AckInTurn s st) :
    ∃ moves, tracking (nextState pricing placesOrders s st).shared =
        run apply (tracking s.shared) moves ∧
      (∀ m ∈ moves, StepMove pricing placesOrders s st m) ∧
        Meets apply (fun d m => m.Lawful OurOrder.orderId ∧ m.Proper OurOrder.orderId d)
          (tracking s.shared) moves := by
  obtain ⟨-, moves, htracking, hmoves, hfiles | ⟨m, rfl⟩⟩ :=
    traderStep_spec pricing placesOrders s st
  · exact ⟨moves, htracking, hmoves, meets_proper (fun m hm => (hmoves m hm).lawful) hfiles
      fun m hm => h.proper hturn (hmoves m hm)⟩
  · have hm := hmoves m (List.mem_singleton_self m)
    exact ⟨[m], htracking, hmoves, ⟨hm.lawful, h.proper hturn hm⟩, trivial⟩

theorem Inverse.step {s : TraderSys F} (h : Inverse s) (pricing : Pricing F)
    (placesOrders : Bool) {st : TraderStep F} (hturn : AckInTurn s st) :
    Inverse (nextState pricing placesOrders s st) where
  points := by
    obtain ⟨moves, htracking, -, hmeets⟩ := h.meets pricing placesOrders hturn
    rw [htracking]
    exact h.points.run hmeets
  pending a ha j hj := by
    rcases pending_nextState ha with hold | ⟨hshared, howner⟩
    · obtain ⟨-, moves, htracking, hmoves, -⟩ := traderStep_spec pricing placesOrders s st
      rw [htracking] at hj
      rcases ownerAt_run (fun m hm => (hmoves m hm).lawful) hj with hbefore | ⟨f, hfile⟩
      · exact h.pending a hold j hbefore
      · obtain ⟨p, clock, accepts, rfl, rfl, hkey⟩ := (hmoves _ hfile).file
        exact ((hturn _ hkey).2 a hold rfl).symm
    · rw [hshared] at hj
      exact Option.some.inj (hj.symm.trans howner)

theorem traderStart_inverse (burstWindowNs : Nat) :
    Inverse (traderStart burstWindowNs : TraderSys F) where
  points _ _ h := (nomatch h)
  pending _ ha := (nomatch ha)

/-- **The maps stay inverse**, as far as acks come in turn. -/
theorem Inverse.run (pricing : Pricing F) (placesOrders : Bool) {s : TraderSys F}
    (h : Inverse s) {history : List (TraderStep F)}
    (hturn : Meets (nextState pricing placesOrders) AckInTurn s history) :
    Inverse (run (nextState pricing placesOrders) s history) :=
  run_invariant_of_meets Inverse (fun _ _ hturn h => h.step pricing placesOrders hturn) h history
    hturn

/-- The first bid goes unacknowledged for two seconds and the book falls, so a tick places a
second one at its key; both are acknowledged, and the end of the first removes the entry of
the second. -/
theorem ended_order_removes_another :
    let lower := liveCall 2100000000 (3545 / 10000) true
    let history := quotedCall ++ [lower, ackBid 2100000001 7,
      ackBidAt 2100000002 8 (3565 / 10000)]
    let quoted := run (nextState atTheMoney true) (traderStart 0) quotedCall
    let before := run (nextState atTheMoney true) (traderStart 0) history
    let st := statusOf 2100000003 7 "Cancelled"
    ((∃ command ∈ (traderStep atTheMoney true quoted lower).1, placedKey command = some bidKey) ∧
      (before.shared.ourOrders.lookup bidKey).bind OurOrder.orderId = some 8 ∧
        ¬ Concerns atTheMoney true before st 8) ∧
      (nextState atTheMoney true before st).shared.ourOrders.lookup bidKey = none := by
  refine ⟨⟨by decide +kernel, by decide +kernel, ?_⟩, by decide +kernel⟩
  rintro (habout | ⟨command, hcommand, -⟩)
  · cases habout
  · cases hcommand

/-- **Whose order a step touches.** In a run whose acks all come in turn, an
entry with an order id stays as it is through every step that is not about that
order, and the reverse map sends every id that it knows to an entry with that
id. -/
theorem touches_own_orders (pricing : Pricing F) (placesOrders : Bool) (burstWindowNs : Nat)
    (history : List (TraderStep F))
    (hturn : Meets (nextState pricing placesOrders) AckInTurn (traderStart burstWindowNs)
      history) :
    (∀ front st back, history = front ++ st :: back →
      let before := run (nextState pricing placesOrders) (traderStart burstWindowNs) front
      let after := nextState pricing placesOrders before st
      ∀ key order orderId, before.shared.ourOrders.lookup key = some order →
        order.orderId = some orderId → ¬ Concerns pricing placesOrders before st orderId →
          after.shared.ourOrders.lookup key = some order) ∧
    ∀ front back, history = front ++ back →
      let s := (run (nextState pricing placesOrders) (traderStart burstWindowNs) front).shared
      ∀ orderId key, s.orderidToKey.lookup orderId = some key →
        ∃ order, s.ourOrders.lookup key = some order ∧ order.orderId = some orderId := by
  constructor
  · rintro front st back rfl before after key order orderId hlookup horder hconcerns
    have hinverse : Inverse before :=
      (traderStart_inverse burstWindowNs).run pricing placesOrders hturn.front
    obtain ⟨moves, htracking, hmoves, hmeets⟩ := hinverse.meets pricing placesOrders hturn.at_step
    have hsame := sameFor_run hmeets fun m hm habout =>
      hconcerns (concerns_of_stepMove (hmoves m hm) habout)
    rw [← htracking] at hsame
    exact (hsame.kept key (ownerAt_tracking_iff.mpr ⟨order, hlookup, horder⟩)).trans hlookup
  · rintro front back rfl s orderId key hhome
    exact ownerAt_tracking_iff.mp
      (((traderStart_inverse burstWindowNs).run pricing placesOrders hturn.front).points orderId
        key hhome)

/-- One place, acknowledged and ended. -/
theorem touches_own_orders_of_one_bid :
    (∀ front st back, quotedCall ++ [ackBid 5 7, statusOf 6 7 "Filled"] = front ++ st :: back →
      let before := run (nextState atTheMoney true) (traderStart 0) front
      let after := nextState atTheMoney true before st
      ∀ key order orderId, before.shared.ourOrders.lookup key = some order →
        order.orderId = some orderId → ¬ Concerns atTheMoney true before st orderId →
          after.shared.ourOrders.lookup key = some order) ∧
    ∀ front back, quotedCall ++ [ackBid 5 7, statusOf 6 7 "Filled"] = front ++ back →
      let s := (run (nextState atTheMoney true) (traderStart 0) front).shared
      ∀ orderId key, s.orderidToKey.lookup orderId = some key →
        ∃ order, s.ourOrders.lookup key = some order ∧ order.orderId = some orderId :=
  touches_own_orders atTheMoney true 0 _ (by decide +kernel)

/-! ## Frames that the ring refuses -/

/-- The entries of the order that a command concerns are the same: those at its
key for a place, those with its id for an amend and a cancel. -/
def SameTracking (before after : SharedState F) (command : Command F) : Prop :=
  (∀ key, placedKey command = some key →
      after.ourOrders.lookup key = before.ourOrders.lookup key ∧
        ∀ orderId, after.orderidToKey.lookup orderId = some key ↔
          before.orderidToKey.lookup orderId = some key) ∧
    ∀ orderId, commandAbout command = some orderId →
      SameFor OurOrder.orderId (tracking before) (tracking after) orderId

/-- The step drops a cancel of the staleness loop for an order that the reverse
map knows. -/
def DropsKnownCancel (s : TraderSys F) : TraderStep F → Prop
  | .act accepted =>
      match (pendingActions s).head? with
      | some (.cancel orderId _) =>
          accepted = false ∧ (s.shared.orderidToKey.lookup orderId).isSome = true
      | _ => False
  | _ => False

instance (s : TraderSys F) (st : TraderStep F) : Decidable (DropsKnownCancel s st) :=
  match st with
  | .act accepted =>
      match hhead : (pendingActions s).head? with
      | some (.cancel orderId _) =>
          decidable_of_iff
            (accepted = false ∧ (s.shared.orderidToKey.lookup orderId).isSome = true)
            (by rw [DropsKnownCancel, hhead])
      | some (.modify _ _ _) | none => .isFalse (by rw [DropsKnownCancel, hhead]; exact id)
  | .event _ _ _ | .collect _ => .isFalse id

theorem sameTracking_of_eq {before after : SharedState F} (h : tracking after = tracking before)
    (command : Command F) : SameTracking before after command := by
  refine ⟨fun key _ => ⟨congrFun (congrArg Directory.slot h) key, fun orderId => ?_⟩,
    fun orderId _ => h ▸ .refl _ orderId⟩
  rw [show after.orderidToKey.lookup orderId = before.orderidToKey.lookup orderId from
    congrFun (congrArg Directory.home h) orderId]

omit [F64 F] in
theorem mem_answered {attempts : List (Attempt F)} {accepts : Nat → Bool}
    {answer : Command F × Bool} (h : answer ∈ answered attempts accepts) :
    ∃ i attempt, attempts[i]? = some attempt ∧ answer = (attempt.1, accepts i) := by
  obtain ⟨⟨command, i⟩, hmem, rfl⟩ := List.mem_map.mp h
  rw [List.mem_zipIdx_iff_getElem?, List.getElem?_map] at hmem
  obtain ⟨attempt, hattempt, rfl⟩ := Option.map_eq_some_iff.mp hmem
  exact ⟨i, attempt, hattempt, rfl⟩

/-- **A frame dropped in a tick.** The other frames of the tick are about other
orders, each under a key of its own. -/
theorem sameTracking_tick (pricing : Pricing F) (placesOrders : Bool) {s : SharedState F}
    {keyOf : Int → OurOrderKey}
    (hfiled : ∀ orderId, FiledAt OurOrder.orderId (tracking s) orderId (keyOf orderId))
    (clock : Clock F) (accepts : Nat → Bool) (msg : TickMsg F) {command : Command F}
    (hdropped : (command, false) ∈
      answered (tickAttempts pricing placesOrders s clock msg) accepts) :
    SameTracking s (onTick pricing placesOrders s clock accepts msg).2 command := by
  obtain ⟨keys, hnodup, hon⟩ := tickAttempts_on pricing placesOrders s clock msg
  obtain ⟨-, moves, htracking, hmoves⟩ := onTick_spec pricing placesOrders s clock accepts msg
  obtain ⟨i, attempt, hattempt, hanswer⟩ := mem_answered hdropped
  obtain ⟨rfl, hrefused⟩ := Prod.mk.inj hanswer
  obtain ⟨key, hkey, hattemptOn⟩ := on_of_getElem? hon hattempt
  have hhome (k : OurOrderKey) (orderId : Int)
      (howner : (tracking s).ownerAt OurOrder.orderId k = some orderId) :
      (tracking s).home orderId = some k := by
    obtain ⟨rfl, hindex⟩ := (hfiled orderId).record k howner
    exact hindex
  -- a move that is made belongs to an attempt at another key
  have hother (m : OrderMove F) (hm : m ∈ moves) :
      ∃ k command, k ≠ key ∧ Attempt.On (tracking s) k (command, m) := by
    obtain ⟨j, command, haccepts, hj⟩ := hmoves m hm
    obtain ⟨k, hk, hmoveOn⟩ := on_of_getElem? hon hj
    refine ⟨k, command, ?_, hmoveOn⟩
    rintro rfl
    obtain rfl : i = j := (List.getElem?_inj (List.getElem?_eq_some_iff.mp hkey).1 hnodup).mp
      (hkey.trans hk.symm)
    cases hrefused.trans haccepts
  have hlawful (m : OrderMove F) (hm : m ∈ moves) :
      m.Lawful OurOrder.orderId ∧ ¬ m.Files := by
    obtain ⟨k, command, -, hmoveOn⟩ := hother m hm
    exact ⟨hmoveOn.move.1, hmoveOn.move.2.1⟩
  have hmeets := meets_proper (fun m hm => (hlawful m hm).1) (fun m hm => (hlawful m hm).2)
    fun m hm => by
      obtain ⟨k, command, -, hmoveOn⟩ := hother m hm
      exact hmoveOn.proper fun i hi => proper_release_of_filedAt (hfiled i) hi
  constructor
  · intro k hplaced
    obtain rfl := hattemptOn.placedKey_eq hplaced
    have hslot := slot_run (k := k) (fun m hm => (hlawful m hm).1) (fun m hm => (hlawful m hm).2)
      (fun m hm hstrikes => by
        obtain ⟨k', command, hne, hmoveOn⟩ := hother m hm
        have htouches := (hmoveOn.touches (hhome k')).1
        exact hne (Option.some.inj (htouches.symm.trans hstrikes)))
      fun m hm orderId habout hindex => by
        obtain ⟨k', command, hne, hmoveOn⟩ := hother m hm
        have htouches := (hmoveOn.touches (hhome k')).2 orderId habout
        exact hne (Option.some.inj (htouches.symm.trans hindex))
    rwa [← htracking] at hslot
  · intro orderId habout
    rw [htracking]
    refine sameFor_run hmeets fun m hm habout' => ?_
    obtain ⟨k, command, hne, hmoveOn⟩ := hother m hm
    have hkeyHome := hhome key orderId (hattemptOn.2.1.trans habout)
    have hkHome := (hmoveOn.touches (hhome k)).2 orderId habout'
    exact hne (Option.some.inj (hkHome.symm.trans hkeyHome))

/-- **A frame dropped by the staleness loop.** -/
theorem sameTracking_act_iff (pricing : Pricing F) (placesOrders : Bool) {s : TraderSys F}
    {keyOf : Int → OurOrderKey} (hkept : ∀ orderId, KeptTo orderId (keyOf orderId) s)
    {accepted : Bool} {command : Command F}
    (hdropped : (command, false) ∈ stepAttempts pricing placesOrders s (.act accepted)) :
    SameTracking s.shared (nextState pricing placesOrders s (.act accepted)).shared command ↔
      ¬ DropsKnownCancel s (.act accepted) := by
  rcases hpass : s.pass with _ | ⟨clock, gtdSeconds, _ | ⟨action, rest⟩⟩
  · simp [stepAttempts, hpass] at hdropped
  · simp [stepAttempts, hpass] at hdropped
  · obtain ⟨rfl, rfl⟩ : command = actionFrame clock gtdSeconds action ∧ accepted = false := by
      simpa [stepAttempts, hpass, eq_comm] using hdropped
    have htracking : tracking (nextState pricing placesOrders s (.act false)).shared =
        run apply (tracking s.shared) (actionMoves clock false action) := by
      simp only [nextState, traderStep, hpass]
      exact tracking_applyAction clock gtdSeconds s.shared false action
    cases action with
    | modify orderId key newPrice =>
        exact iff_of_true (sameTracking_of_eq htracking _)
          (by simp [DropsKnownCancel, pendingActions, hpass])
    | cancel orderId key =>
        have hknown : DropsKnownCancel s (.act false) ↔
            (s.shared.orderidToKey.lookup orderId).isSome = true := by
          simp [DropsKnownCancel, pendingActions, hpass]
        rw [hknown, Bool.not_eq_true, Option.isSome_eq_false_iff, Option.isNone_iff_eq_none]
        constructor
        · intro hsame
          have hindex := (hsame.2 orderId rfl).index
          rw [htracking] at hindex
          exact hindex.symm.trans (Function.update_self ..)
        · intro hgone
          have hunlisted (k : OurOrderKey) :
              (tracking s.shared).ownerAt OurOrder.orderId k ≠ some orderId := fun howner =>
            absurd ((hkept orderId).filed.record k howner).2 (by simp [tracking, hgone])
          refine ⟨fun k hplaced => (by cases hplaced), fun orderId' habout => ?_⟩
          obtain rfl : orderId = orderId' := Option.some.inj habout
          rw [htracking]
          refine ⟨fun k howner => absurd howner (hunlisted k), fun k howner => ?_, ?_⟩
          · rcases ownerAt_run (by simp [actionMoves, Move.Lawful]) howner with hbefore | ⟨f, hf⟩
            · exact absurd hbefore (hunlisted k)
            · simp [actionMoves] at hf
          · exact (Function.update_self ..).trans hgone.symm

/-- The market of our bid goes dark, and the ring refuses the cancel. -/
theorem dropped_dark_cancel_forgets_order :
    let history := quotedCall ++ [ackBid 5 7, liveCall 6 0 true, .collect (quarterYear 7)]
    let before := run (nextState atTheMoney true) (traderStart 0) history
    (cancelCommand 7 7, false) ∈ stepAttempts atTheMoney true before (.act false) ∧
      (before.shared.ourOrders.lookup bidKey).bind OurOrder.orderId = some 7 ∧
        ¬ SameTracking before.shared
          (nextState atTheMoney true before (.act false)).shared (cancelCommand 7 7) := by
  refine ⟨by decide +kernel, by decide +kernel, fun hsame => ?_⟩
  have hindex := (hsame.2 7 rfl).index
  revert hindex
  decide +kernel

/-- **Dropped frames, exactly.** Where the acks of each order name one key, a
frame that the ring refuses leaves the tracking of its order as it was, if and
only if it is not a cancel of the staleness loop for an order that the reverse
map knows. -/
theorem dropped_frame_keeps_tracking (pricing : Pricing F) (placesOrders : Bool)
    (burstWindowNs : Nat) (keyOf : Int → OurOrderKey) (history : List (TraderStep F))
    (hacks : ∀ st ∈ history, ∀ orderId key, acks orderId st = some key → key = keyOf orderId)
    (st : TraderStep F) (command : Command F)
    (hdropped : (command, false) ∈ stepAttempts pricing placesOrders
      (run (nextState pricing placesOrders) (traderStart burstWindowNs) history) st) :
    let before := run (nextState pricing placesOrders) (traderStart burstWindowNs) history
    let after := nextState pricing placesOrders before st
    SameTracking before.shared after.shared command ↔ ¬ DropsKnownCancel before st := by
  intro before after
  have hkept (orderId : Int) : KeptTo orderId (keyOf orderId) before :=
    (traderStart_keptTo burstWindowNs orderId (keyOf orderId)).run pricing placesOrders
      fun st hst k hk => hacks st hst orderId k hk
  unfold stepAttempts at hdropped
  split at hdropped
  · rename_i msg clock accepts
    exact iff_of_true
      (sameTracking_tick pricing placesOrders (fun orderId => (hkept orderId).filed) clock accepts
        msg hdropped)
      id
  · cases hdropped
  · cases hdropped
  · exact sameTracking_act_iff pricing placesOrders hkept hdropped

/-- No risk state has arrived, so that a tick cancels the bid; the ring refuses the
cancel. -/
theorem dropped_frame_keeps_tracking_of_cancel :
    let before := run (nextState atTheMoney true) (traderStart 0) overpricedBid
    let after := nextState atTheMoney true before (liveCall 5 (357 / 1000) false)
    SameTracking before.shared after.shared (cancelCommand 5 7) ↔
      ¬ DropsKnownCancel before (liveCall 5 (357 / 1000) false) := by
  refine dropped_frame_keeps_tracking atTheMoney true 0 (fun _ => bidKey) overpricedBid ?_
    (liveCall 5 (357 / 1000) false) (cancelCommand 5 7) (by decide +kernel)
  intro st hst orderId key hacks
  simp only [overpricedBid, List.mem_cons, List.not_mem_nil, or_false] at hst
  rcases hst with rfl | rfl | rfl
  · cases hacks
  · cases hacks
  · simp only [acks] at hacks
    split at hacks
    · exact Option.some.inj (hacks.symm.trans (by decide +kernel))
    · cases hacks

end Corsair.Ports.OrderTrackingRuns
