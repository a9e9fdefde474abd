import Corsair.Ports.RestingSweep

/-!
# The life of a cached order

Two streams write the open-order cache.  An `OrderStatus` patches the status and the
filled quantity of the cached order.  An `OpenOrder` makes the whole entry anew: it is
pending and nothing of it is filled, whatever was known of the id before.

## Main results

* `lawfulStep_iff` — what a message must not be, for the cached orders to keep what
  is known of them.
* `order_life_iff_meets` — the runs in which they do.
-/

namespace Corsair.Ports.OrderLife

open Corsair.Verified
open Corsair.Verified.Runs
open Corsair.Ports.Portfolio (Date)
open Corsair.Ports.BrokerApi
open Corsair.Ports.NativeDecoder
open Corsair.Ports.NativeBroker
open Corsair.Ports.RestingSweep

variable {F : Type} [F64 F]

/-! ## Messages and what they have ended -/

/-- A message, with the two readings of the clock while it is routed. -/
structure Routed (F : Type) where
  msg : InboundMsg F
  now : Nat
  later : Nat

/-- The caches, and the ids for which a terminal status has been routed. -/
structure LifeState (F : Type) where
  broker : BrokerState F
  ended : List Int

/-- The order that a message ends. -/
def endsOrder : InboundMsg F → Option Int
  | .orderStatus o => if (parseStatus o.status).isTerminal then some o.orderId else none
  | _ => none

/-- A message is routed. -/
def step (fmt : TextFormats F Date) (s : LifeState F) (r : Routed F) : LifeState F where
  broker := (route fmt s.broker r.msg r.now r.later).1
  ended := (endsOrder r.msg).toList ++ s.ended

/-- Before any message. -/
def start : LifeState F := ⟨emptyState, []⟩

/-- The cached order of an id. -/
def LifeState.cached (s : LifeState F) (id : Int) : Option (OpenOrder F) :=
  s.broker.openOrders.lookup id

/-- The orders that have ended are not cached as live ones. -/
def StayEnded (s : LifeState F) : Prop :=
  ∀ id ∈ s.ended, ∀ order ∈ s.cached id, order.status.isTerminal = true

/-- After the message the orders that have ended are not cached as live ones, and no
cached filled quantity is less than it was. -/
structure LawfulStep (fmt : TextFormats F Date) (s : LifeState F) (r : Routed F) : Prop where
  ended : StayEnded (step fmt s r)
  filled : ∀ id, ∀ order ∈ s.cached id, ∀ order' ∈ (step fmt s r).cached id,
    order.filledQty ≤ order'.filledQty

/-- No `OpenOrder` is for an order that has ended or is filled in part, and no
`OrderStatus` brings a cached order back to life or takes a fill back. -/
def InOrder (fmt : TextFormats F Date) (s : LifeState F) (r : Routed F) : Prop :=
  match r.msg with
  | .openOrder o =>
      (nativeToOpenOrder fmt o).isSome →
        o.orderId ∉ s.ended ∧ ∀ order ∈ s.cached o.orderId, order.filledQty = 0
  | .orderStatus o =>
      ∀ order ∈ s.cached o.orderId,
        (o.orderId ∈ s.ended → (parseStatus o.status).isTerminal = true) ∧
          order.filledQty ≤ asU32 o.filled
  | _ => True

theorem cached_step (fmt : TextFormats F Date) (s : LifeState F) (r : Routed F) (id : Int) :
    (step fmt s r).cached id = track fmt id (s.cached id) r.msg :=
  lookup_route fmt s.broker r.msg r.now r.later id

/-! ## One message -/

/-- A message that leaves the cached orders alone and ends none is lawful. -/
theorem lawfulStep_of_same {fmt : TextFormats F Date} {s : LifeState F} {r : Routed F}
    (h : StayEnded s) (hcached : ∀ id, (step fmt s r).cached id = s.cached id)
    (hended : endsOrder r.msg = none) : LawfulStep fmt s r := by
  constructor
  · intro id hid order horder
    rw [hcached] at horder
    have hbefore : id ∈ s.ended := by simpa [step, hended] using hid
    exact h id hbefore order horder
  · intro id order horder order' horder'
    rw [hcached] at horder'
    obtain rfl := Option.some.inj (horder.symm.trans horder')
    exact le_rfl

/-- **A message about one order** is lawful just if it is so for that order. -/
theorem lawfulStep_iff_of_one {fmt : TextFormats F Date} {s : LifeState F} {r : Routed F}
    (id : Int) (h : StayEnded s)
    (hcached : ∀ other, other ≠ id → (step fmt s r).cached other = s.cached other)
    (hended : ∀ other, other ≠ id → other ∈ (step fmt s r).ended → other ∈ s.ended) :
    LawfulStep fmt s r ↔
      (id ∈ (step fmt s r).ended →
        ∀ order' ∈ (step fmt s r).cached id, order'.status.isTerminal = true) ∧
      ∀ order ∈ s.cached id, ∀ order' ∈ (step fmt s r).cached id,
        order.filledQty ≤ order'.filledQty := by
  constructor
  · intro hlawful
    exact ⟨hlawful.ended id, hlawful.filled id⟩
  · rintro ⟨hterminal, hfilled⟩
    constructor
    · intro other hid order' horder'
      by_cases hsame : other = id
      · subst hsame
        exact hterminal hid order' horder'
      · rw [hcached other hsame] at horder'
        exact h other (hended other hsame hid) order' horder'
    · intro other order horder order' horder'
      by_cases hsame : other = id
      · subst hsame
        exact hfilled order horder order' horder'
      · rw [hcached other hsame] at horder'
        obtain rfl := Option.some.inj (horder.symm.trans horder')
        exact le_rfl

/-- **One `OpenOrder`.** -/
theorem lawfulStep_openOrder_iff (fmt : TextFormats F Date) (s : LifeState F)
    (o : OpenOrderMsg F) (now later : Nat) (h : StayEnded s) :
    LawfulStep fmt s ⟨.openOrder o, now, later⟩ ↔ InOrder fmt s ⟨.openOrder o, now, later⟩ := by
  have hcached := cached_step fmt s ⟨.openOrder o, now, later⟩
  simp only [track] at hcached
  cases hparse : nativeToOpenOrder fmt o with
  | none =>
      refine iff_of_true (lawfulStep_of_same h (fun id => ?_) rfl) fun hsome => ?_
      · rw [hcached id, hparse]
        split
        · rfl
        · rfl
      · rw [hparse] at hsome
        cases hsome
  | some opened =>
      obtain ⟨-, -, hstatus, hfilled, -⟩ := nativeToOpenOrder_spec hparse
      have hopened : (step fmt s ⟨.openOrder o, now, later⟩).cached o.orderId = some opened := by
        rw [hcached, if_pos rfl, hparse]
        rfl
      have hended : (step fmt s ⟨.openOrder o, now, later⟩).ended = s.ended := rfl
      rw [lawfulStep_iff_of_one o.orderId h
        (fun other hother => by rw [hcached, if_neg (Ne.symm hother)])
        fun other _ hid => hended ▸ hid]
      constructor
      · rintro ⟨hterminal, hkept⟩ _
        constructor
        · intro hid
          have hpending := hterminal hid opened hopened
          rw [hstatus] at hpending
          cases hpending
        · intro order horder
          have hle := hkept order horder opened hopened
          omega
      · intro hin
        obtain ⟨hlive, hunfilled⟩ := hin (by rw [hparse]; rfl)
        refine ⟨fun hid => absurd hid hlive, fun order horder order' _ => ?_⟩
        have hzero := hunfilled order horder
        omega

/-- **One `OrderStatus`.** -/
theorem lawfulStep_orderStatus_iff (fmt : TextFormats F Date) (s : LifeState F)
    (o : OrderStatusMsg F) (now later : Nat) (h : StayEnded s) :
    LawfulStep fmt s ⟨.orderStatus o, now, later⟩ ↔
      InOrder fmt s ⟨.orderStatus o, now, later⟩ := by
  have hcached := cached_step fmt s ⟨.orderStatus o, now, later⟩
  simp only [track] at hcached
  have hended (id : Int) : id ∈ (step fmt s ⟨.orderStatus o, now, later⟩).ended ↔
      (parseStatus o.status).isTerminal = true ∧ id = o.orderId ∨ id ∈ s.ended := by
    by_cases hterminal : (parseStatus o.status).isTerminal = true
    · simp [step, endsOrder, hterminal]
    · simp [step, endsOrder, hterminal]
  rw [lawfulStep_iff_of_one o.orderId h
    (fun other hother => by rw [hcached, if_neg (Ne.symm hother)])
    fun other hother hid => ((hended other).mp hid).resolve_left fun hown => hother hown.2]
  rw [hcached, if_pos rfl]
  constructor
  · rintro ⟨hterminal, hkept⟩ order horder
    have hpatched : withStatus order o ∈ (s.cached o.orderId).map fun order => withStatus order o :=
      Option.mem_map_of_mem _ horder
    exact ⟨fun hid => hterminal ((hended _).mpr (.inr hid)) _ hpatched,
      hkept order horder _ hpatched⟩
  · intro hin
    constructor
    · intro hid order' horder'
      obtain ⟨order, horder, rfl⟩ := Option.map_eq_some_iff.mp horder'
      rcases (hended _).mp hid with ⟨hterminal, -⟩ | hbefore
      · exact hterminal
      · exact (hin order horder).1 hbefore
    · intro order horder order' horder'
      rw [horder] at horder'
      obtain rfl := Option.some.inj horder'
      exact (hin order horder).2

theorem lawfulStep_iff (fmt : TextFormats F Date) (s : LifeState F) (r : Routed F)
    (h : StayEnded s) : LawfulStep fmt s r ↔ InOrder fmt s r := by
  obtain ⟨msg, now, later⟩ := r
  cases msg with
  | openOrder o => exact lawfulStep_openOrder_iff fmt s o now later h
  | orderStatus o => exact lawfulStep_orderStatus_iff fmt s o now later h
  | error e => exact iff_of_true (lawfulStep_of_same h (fun id => cached_step fmt s _ id) rfl) trivial
  | other typeId =>
      exact iff_of_true (lawfulStep_of_same h (fun id => cached_step fmt s _ id) rfl) trivial

/-- **The life of an order.** Every message of a run leaves the orders that have ended
as ended and takes no fill back exactly if every message is in order. -/
theorem order_life_iff_meets (fmt : TextFormats F Date) (msgs : List (Routed F)) :
    Meets (step fmt) (LawfulStep fmt) start msgs ↔ Meets (step fmt) (InOrder fmt) start msgs :=
  meets_iff_meets StayEnded (lawfulStep_iff fmt) (fun _ _ _ hlawful => hlawful.ended)
    (fun _ hid => absurd hid List.not_mem_nil) msgs

/-- The messages of some frames. -/
def routed (frames : List Frame) : List (Routed ℚ) :=
  (inbound plainFormats (frames.map (⟨·, 1, 1⟩))).map (⟨·, 1, 1⟩)

/-- A bid is filled, and its echo comes late: the cache shows it as pending, with
nothing filled. -/
theorem late_echo_revives_order :
    let filled := run (step plainFormats) start
      (routed [openOrder17, orderStatus17 "Filled" "1" "0"])
    let echoed := run (step plainFormats) filled (routed [openOrder17])
    filled.cached 17 = some (order17 .filled 1) ∧ filled.ended = [17] ∧
      echoed.cached 17 = some (order17 .pendingSubmit 0) ∧
      ¬ Meets (step plainFormats) (LawfulStep plainFormats) start
        (routed [openOrder17, orderStatus17 "Filled" "1" "0", openOrder17]) := by
  intro filled echoed
  refine ⟨by decide +kernel, by decide +kernel, by decide +kernel, fun hlawful => ?_⟩
  have hended := run_invariant_of_meets StayEnded (fun _ _ hstep _ => hstep.ended)
    (fun _ hid => absurd hid List.not_mem_nil) _ hlawful
  have hterminal := hended 17 (by decide +kernel) (order17 .pendingSubmit 0) (by decide +kernel)
  cases hterminal

end Corsair.Ports.OrderLife
