import Mathlib.Data.List.Induction
import Corsair.Verified.Filing
import Corsair.Verified.Table
import Corsair.Ports.Trader

/-!
# `corsair_trader::main`: what the trader knows of its orders

`our_orders` and `orderid_to_key` are a directory in the sense of
`Corsair.Verified.Filing`: the orders are filed under their keys, an
acknowledged order belongs to its order id, and the reverse map is the index.
Every step of the trader is a list of moves on it: an ack files, a terminal
status and a cancel of the tick path release through the index, a place puts an
order of nobody, an amend keeps the owner, and a cancel of the staleness loop
discards the slot it remembers.

## Main results

* `onTick_tracked` — the frames of a tick that were written are those of its
  attempts that were accepted.
* `traderStep_spec` — the trader's steps refine the moves of the directory.
-/

namespace Corsair.Ports.OrderTracking

open Corsair.Verified
open Corsair.Verified.Runs
open Corsair.Verified.Filing
open Corsair.Verified.Table
open Corsair.Ports.TraderState
open Corsair.Ports.DecideOnTick
open Corsair.Ports.Trader

variable {F : Type}

/-! ## The maps as a directory -/

/-- `our_orders` and `orderid_to_key`. -/
def tracking (s : SharedState F) : Directory OurOrderKey Int (OurOrder F) :=
  { slot := fun key => s.ourOrders.lookup key
    home := fun orderId => s.orderidToKey.lookup orderId }

/-- A move on the trader's maps. -/
abbrev OrderMove (F : Type) := Move OurOrderKey Int (OurOrder F)

theorem ownerAt_tracking_iff {s : SharedState F} {key : OurOrderKey} {orderId : Int} :
    (tracking s).ownerAt OurOrder.orderId key = some orderId ↔
      ∃ order, s.ourOrders.lookup key = some order ∧ order.orderId = some orderId :=
  Option.bind_eq_some_iff

theorem slot_insert (s : SharedState F) (key : OurOrderKey) (order : OurOrder F) :
    (fun k => (s.ourOrders.insert key order).lookup k) =
      Function.update (tracking s).slot key (some order) :=
  lookup_insert_eq_update s.ourOrders key order

theorem slot_erase (s : SharedState F) (key : OurOrderKey) :
    (fun k => (s.ourOrders.erase key).lookup k) = Function.update (tracking s).slot key none :=
  lookup_erase_eq_update s.ourOrders key

theorem home_insert (s : SharedState F) (orderId : Int) (key : OurOrderKey) :
    (fun i => (s.orderidToKey.insert orderId key).lookup i) =
      Function.update (tracking s).home orderId (some key) :=
  lookup_insert_eq_update s.orderidToKey orderId key

theorem home_erase (s : SharedState F) (orderId : Int) :
    (fun i => (s.orderidToKey.erase orderId).lookup i) =
      Function.update (tracking s).home orderId none :=
  lookup_erase_eq_update s.orderidToKey orderId

theorem slot_replace (s : SharedState F) {key : OurOrderKey} {old : OurOrder F}
    (hold : s.ourOrders.lookup key = some old) (order : OurOrder F) :
    (fun k => (s.ourOrders.replace key order).lookup k) =
      Function.update (tracking s).slot key (some order) :=
  lookup_replace_eq_update hold order

/-- A cancel releases its order. -/
theorem tracking_removeOrder (s : SharedState F) (orderId : Int) :
    tracking (s.removeOrder orderId) = apply (tracking s) (.release orderId) := by
  unfold SharedState.removeOrder
  cases hhome : s.orderidToKey.lookup orderId with
  | none => exact (apply_release_none hhome).symm
  | some key =>
      rw [apply_release_some (show (tracking s).home orderId = some key from hhome)]
      exact Directory.ext (slot_erase s key) (home_erase s orderId)

/-- An amend keeps the key and the id. -/
theorem tracking_modifyOrder (s : SharedState F) (orderId : Int) (key : OurOrderKey)
    (f : OurOrder F → OurOrder F) :
    tracking (s.modifyOrder key f) = apply (tracking s) (.amend orderId key f) := by
  have hslot : ∀ key, (tracking s).slot key = s.ourOrders.lookup key := fun _ => rfl
  unfold SharedState.modifyOrder
  cases horder : s.ourOrders.lookup key with
  | none =>
      refine Directory.ext ?_ rfl
      simp only [apply, hslot, horder, Option.map_none]
      exact (Function.update_eq_self_iff.mpr horder.symm).symm
  | some order =>
      refine Directory.ext ?_ rfl
      simp only [apply, hslot, horder, Option.map_some]
      exact slot_replace s horder (f order)

theorem tracking_place (s : SharedState F) (key : OurOrderKey) (order : OurOrder F) :
    tracking { s with ourOrders := s.ourOrders.insert key order } =
      apply (tracking s) (.put key order) :=
  Directory.ext (slot_insert s key order) rfl

variable [F64 F]

/-! ## Acks and statuses -/

/-- The key of an order by its words, if they are usable. -/
def orderKey (strike : F) (expiry right side : String) : Option OurOrderKey :=
  (firstUpper right).bind fun right =>
    (if side = "BUY" then some 'B' else if side = "SELL" then some 'S' else none).map
      fun side => (strikeKey strike, expiry, right, side)

/-- The key that a `place_ack` names. -/
def ackKey (p : PlaceAckMsg F) : Option OurOrderKey := orderKey p.strike p.expiry p.right p.side

/-- The order under its key once it is acknowledged. -/
def ackedOrder (clock : Clock F) (p : PlaceAckMsg F) : Option (OurOrder F) → OurOrder F
  | some o => { o with orderId := some p.orderId }
  | none =>
      { price := p.price
        placeMonotonicNs := clock.monoNs
        orderId := some p.orderId }

omit [F64 F] in
theorem orderId_ackedOrder (clock : Clock F) (p : PlaceAckMsg F) (o : Option (OurOrder F)) :
    (ackedOrder clock p o).orderId = some p.orderId := by
  cases o <;> rfl

theorem tracking_onPlaceAck (s : SharedState F) (clock : Clock F) (p : PlaceAckMsg F) :
    tracking (onPlaceAck s clock p) =
      run apply (tracking s)
        ((ackKey p).toList.map fun key => .file p.orderId key (ackedOrder clock p)) := by
  unfold onPlaceAck ackKey orderKey
  cases firstUpper p.right with
  | none => rfl
  | some right =>
      simp only [Option.bind_some]
      generalize (if p.side = "BUY" then some 'B' else if p.side = "SELL" then some 'S' else none)
        = sideChar
      cases sideChar with
      | none => rfl
      | some side => exact Directory.ext (slot_insert ..) (home_insert ..)

/-- The order that a status ends. -/
def endedOrder (a : OrderAckMsg) : Option Int :=
  a.orderId.filter fun _ => a.status.getD "" ∈ terminalStatuses

omit [F64 F] in
theorem tracking_onOrderStatus (s : SharedState F) (a : OrderAckMsg) :
    tracking (onOrderStatus s a) =
      run apply (tracking s) ((endedOrder a).toList.map Move.release) := by
  unfold onOrderStatus endedOrder
  cases a.orderId with
  | none => rfl
  | some orderId =>
      by_cases hterminal : a.status.getD "" ∈ terminalStatuses
      · simpa [hterminal, Option.filter_some] using tracking_removeOrder s orderId
      · simp [hterminal, Option.filter_some]

/-! ## Events that leave the maps -/

omit [F64 F] in
theorem tracking_onVolSurface (s : SharedState F) (vs : VolSurfaceMsg F) :
    tracking (onVolSurface s vs) = tracking s := by
  unfold onVolSurface
  extract_lets
  split <;> rfl

omit [F64 F] in
theorem tracking_onKill (s : SharedState F) (k : KillMsg) :
    tracking (onKill s k) = tracking s := by
  unfold onKill
  split <;> rfl

omit [F64 F] in
theorem tracking_onResume (s : SharedState F) (k : KillMsg) :
    tracking (onResume s k) = tracking s := by
  unfold onResume
  split <;> rfl

omit [F64 F] in
theorem tracking_onHello (s : SharedState F) (h : HelloMsg F) :
    tracking (onHello s h) = tracking s := by
  have hfold (sources : List String) (s' : SharedState F) :
      tracking (sources.foldl (fun s source => s.insertKill source "rehydrated_from_hello") s') =
        tracking s' := by
    induction sources generalizing s' with
    | nil => rfl
    | cons source rest ih => exact ih _
  unfold onHello
  split <;> exact hfold ..

/-! ## Ticks -/

/-- A frame, and the move that the trader makes once the ring takes it. -/
abbrev Attempt (F : Type) := Command F × OrderMove F

/-- The order once it is amended. -/
def reprice (clock : Clock F) (price : F) (o : OurOrder F) : OurOrder F :=
  { o with price := price, placeMonotonicNs := clock.monoNs }

/-- What the trader attempts for one decision. -/
def decisionAttempts (tick : TickMsg F) (right : Char) (gtdSeconds : Nat) (clock : Clock F) :
    Decision F → List (Attempt F)
  | .place side price _ =>
      [(.place
          { tsNs := clock.wallNs
            strike := tick.strike
            expiry := tick.expiry
            right := tick.right
            side := side.asStr
            qty := 1
            price := price
            orderRef := "corsair_trader_rust"
            gtdSeconds := gtdSeconds
            triggeringTickBrokerRecvNs := tick.brokerRecvNs },
        .put (quoteKey tick right side)
          { price := price, placeMonotonicNs := clock.monoNs, orderId := none })]
  | .modify side orderId price =>
      [(.modify
          { tsNs := clock.wallNs
            orderId := orderId
            price := price
            gtdSeconds := gtdSeconds
            triggeringTickBrokerRecvNs := tick.brokerRecvNs },
        .amend orderId (quoteKey tick right side) (reprice clock price))]
  | .cancelAll orderIds =>
      orderIds.map fun orderId => (cancelCommand clock.wallNs orderId, .release orderId)

/-- The decision asks for no cancel of an older order at its key. -/
def Decision.Plain : Decision F → Prop
  | .place _ _ cancelOldOid => cancelOldOid = none
  | _ => True

/-- The frames of a tick are those attempted, and each is tracked as its attempt
says. -/
structure TickFrames.Covers (acc : TickFrames F) (clock : Clock F)
    (attempts : List (Attempt F)) : Prop where
  frames : acc.frames = attempts.map (·.1)
  places : ∀ p ∈ acc.places, p.2.2.1 = none ∧
    ∃ command, attempts[p.2.2.2]? = some (command, .put p.1 p.2.1)
  modifies : ∀ m ∈ acc.modifies,
    ∃ command, attempts[m.2.2.2]? = some (command, .amend m.2.2.1 m.1 (reprice clock m.2.1))
  cancels : ∀ c ∈ acc.cancels, ∃ command, attempts[c.2]? = some (command, .release c.1)

theorem TickFrames.Covers.add {acc : TickFrames F} {clock : Clock F}
    {attempts : List (Attempt F)} (h : TickFrames.Covers acc clock attempts) (tick : TickMsg F)
    (right : Char) (gtdSeconds : Nat) {d : Decision F} (hplain : Decision.Plain d) :
    TickFrames.Covers (acc.add tick right gtdSeconds clock d) clock
      (attempts ++ decisionAttempts tick right gtdSeconds clock d) := by
  have hlength : acc.frames.length = attempts.length := by
    rw [h.frames, List.length_map]
  have hnewest (attempt : Attempt F) :
      (attempts ++ [attempt])[acc.frames.length]? = some attempt := by
    rw [hlength, List.getElem?_concat_length]
  -- what was attempted before keeps its place
  have hearlier : ∀ {i : Nat} {attempt : Attempt F} (more : List (Attempt F)),
      attempts[i]? = some attempt → (attempts ++ more)[i]? = some attempt := by
    intro i attempt more hi
    rw [List.getElem?_append_left (List.getElem?_eq_some_iff.mp hi).1, hi]
  have hplaces := fun (more : List (Attempt F)) p hp =>
    And.imp_right (Exists.imp fun _ => hearlier more) (h.places p hp)
  have hmodifies := fun (more : List (Attempt F)) m hm =>
    Exists.imp (fun _ => hearlier more) (h.modifies m hm)
  have hcancels := fun (more : List (Attempt F)) c hc =>
    Exists.imp (fun _ => hearlier more) (h.cancels c hc)
  cases d with
  | place side price cancelOldOid =>
      obtain rfl : cancelOldOid = none := hplain
      refine ⟨?_, fun p hp => ?_, hmodifies _, hcancels _⟩
      · simp [TickFrames.add, decisionAttempts, h.frames]
      · rcases List.mem_append.mp hp with hold | hnew
        · exact hplaces _ p hold
        · obtain rfl := List.mem_singleton.mp hnew
          exact ⟨rfl, _, hnewest _⟩
  | modify side orderId price =>
      refine ⟨?_, hplaces _, fun m hm => ?_, hcancels _⟩
      · simp [TickFrames.add, decisionAttempts, h.frames]
      · rcases List.mem_append.mp hm with hold | hnew
        · exact hmodifies _ m hold
        · obtain rfl := List.mem_singleton.mp hnew
          exact ⟨_, hnewest _⟩
  | cancelAll orderIds =>
      refine ⟨?_, fun p hp => (List.not_mem_nil hp).elim,
        fun m hm => (List.not_mem_nil hm).elim, fun c hc => ?_⟩
      · simp [TickFrames.add, decisionAttempts, h.frames]
      · rcases List.mem_append.mp hc with hold | hnew
        · exact hcancels _ c hold
        · obtain ⟨orderId, i⟩ := c
          obtain ⟨hle, hid⟩ := List.mem_zipIdx_iff_le_and_getElem?_sub.mp hnew
          rw [hlength] at hle hid
          refine ⟨cancelCommand clock.wallNs orderId, ?_⟩
          rw [List.getElem?_append_right hle]
          simp [decisionAttempts, hid]

theorem covers_foldl (tick : TickMsg F) (right : Char) (gtdSeconds : Nat) (clock : Clock F)
    {decisions : List (Decision F)} (hplain : ∀ d ∈ decisions, Decision.Plain d) :
    TickFrames.Covers
      (decisions.foldl (TickFrames.add tick right gtdSeconds clock) ⟨[], [], [], [], false⟩) clock
      (decisions.flatMap (decisionAttempts tick right gtdSeconds clock)) := by
  induction decisions using List.reverseRecOn with
  | nil =>
      exact ⟨rfl, fun p hp => (nomatch hp), fun m hm => (nomatch hm), fun c hc => (nomatch hc)⟩
  | append_singleton decisions d ih =>
      rw [List.forall_mem_append] at hplain
      rw [List.foldl_append, List.flatMap_append, List.flatMap_singleton]
      exact (ih hplain.1).add tick right gtdSeconds (hplain.2 d (List.mem_singleton_self d))

/-- The moves of the frames that were written. -/
def TickFrames.moves (acc : TickFrames F) (accepts : Nat → Bool) (clock : Clock F) :
    List (OrderMove F) :=
  (if acc.cancelAllFired then
      (acc.cancels.filter fun c => accepts c.2).map fun c => .release c.1
    else []) ++
    ((acc.places.filter fun p => accepts p.2.2.2).map fun p => .put p.1 p.2.1) ++
    (acc.modifies.filter fun m => accepts m.2.2.2).map fun m =>
      .amend m.2.2.1 m.1 (reprice clock m.2.1)

omit [F64 F] in
/-- A loop that carries out the moves of the accepted items. -/
theorem tracking_foldl {β : Type} (items : List β) (accepted : β → Bool) (move : β → OrderMove F)
    (f : SharedState F → β → SharedState F)
    (hf : ∀ b ∈ items, ∀ s, tracking (f s b) =
      if accepted b then apply (tracking s) (move b) else tracking s)
    (s : SharedState F) :
    tracking (items.foldl f s) =
      run apply (tracking s) ((items.filter accepted).map move) := by
  induction items generalizing s with
  | nil => rfl
  | cons b rest ih =>
      rw [List.forall_mem_cons] at hf
      rw [List.foldl_cons, ih hf.2, hf.1]
      by_cases hb : accepted b
      · rw [if_pos hb, List.filter_cons_of_pos hb]
        rfl
      · rw [if_neg hb, List.filter_cons_of_neg hb]

omit [F64 F] in
theorem tracking_track (acc : TickFrames F) (accepts : Nat → Bool) (clock : Clock F)
    (hplain : ∀ p ∈ acc.places, p.2.2.1 = none) (s : SharedState F) :
    tracking (acc.track accepts clock s) =
      run apply (tracking s) (TickFrames.moves acc accepts clock) := by
  simp only [TickFrames.track, TickFrames.moves, run_append]
  -- the amends, the places and the cancels, from the last loop to the first
  rw [tracking_foldl acc.modifies (fun m => accepts m.2.2.2)
    (fun m => .amend m.2.2.1 m.1 (reprice clock m.2.1))]
  · rw [tracking_foldl acc.places (fun p => accepts p.2.2.2) (fun p => .put p.1 p.2.1)]
    · congr 2
      by_cases hfired : acc.cancelAllFired
      · rw [if_pos hfired, if_pos hfired, tracking_foldl acc.cancels (fun c => accepts c.2)
          (fun c => .release c.1)]
        rintro ⟨orderId, i⟩ _ s
        by_cases hi : accepts i
        · simpa [hi] using tracking_removeOrder s orderId
        · simp [hi]
      · rw [if_neg hfired, if_neg hfired]
        rfl
    · rintro ⟨key, order, cancelOldOid, i⟩ hp s
      obtain rfl : cancelOldOid = none := hplain _ hp
      by_cases hi : accepts i
      · simpa [hi] using tracking_place s key order
      · simp [hi]
  · rintro ⟨key, price, orderId, i⟩ _ s
    by_cases hi : accepts i
    · rw [if_pos hi, if_pos hi]
      exact tracking_modifyOrder s orderId key (reprice clock price)
    · rw [if_neg hi, if_neg hi]

/-- What a tick attempts. -/
def tickAttempts (pricing : Pricing F) (placesOrders : Bool) (s : SharedState F)
    (clock : Clock F) (tick : TickMsg F) : List (Attempt F) :=
  match firstUpper tick.right with
  | none => []
  | some right =>
      let (tick, s) := mergeTick s tick right
      let decisions :=
        (decideOnTick pricing clock.timeToExpiry s tick right clock.monoNs clock.wallNs).1
      if placesOrders then
        decisions.flatMap (decisionAttempts tick right (gtdSeconds s.scalars) clock)
      else []

/-- The frames of some attempts with the answers of the ring. -/
def answered (attempts : List (Attempt F)) (accepts : Nat → Bool) : List (Command F × Bool) :=
  (attempts.map (·.1)).zipIdx.map fun f => (f.1, accepts f.2)

/-- The frames that the ring took. -/
def taken (answers : List (Command F × Bool)) : List (Command F) :=
  (answers.filter (·.2)).map (·.1)

omit [F64 F] in
theorem writeFrames_written (s : SharedState F) (accepts : Nat → Bool)
    (attempts : List (Attempt F)) :
    (writeFrames s accepts (attempts.map (·.1))).1 = taken (answered attempts accepts) := rfl

omit [F64 F] in
theorem TickFrames.Covers.mem_moves {acc : TickFrames F} {clock : Clock F}
    {attempts : List (Attempt F)} (h : TickFrames.Covers acc clock attempts)
    {accepts : Nat → Bool} {m : OrderMove F} (hm : m ∈ TickFrames.moves acc accepts clock) :
    ∃ i command, accepts i = true ∧ attempts[i]? = some (command, m) := by
  simp only [TickFrames.moves, List.mem_append] at hm
  rcases hm with (hcancel | hplace) | hmodify
  · split at hcancel
    · obtain ⟨c, hc, rfl⟩ := List.mem_map.mp hcancel
      obtain ⟨hc, haccepts⟩ := List.mem_filter.mp hc
      obtain ⟨command, hattempt⟩ := h.cancels c hc
      exact ⟨c.2, command, haccepts, hattempt⟩
    · cases hcancel
  · obtain ⟨p, hp, rfl⟩ := List.mem_map.mp hplace
    obtain ⟨hp, haccepts⟩ := List.mem_filter.mp hp
    obtain ⟨-, command, hattempt⟩ := h.places p hp
    exact ⟨p.2.2.2, command, haccepts, hattempt⟩
  · obtain ⟨a, ha, rfl⟩ := List.mem_map.mp hmodify
    obtain ⟨ha, haccepts⟩ := List.mem_filter.mp ha
    obtain ⟨command, hattempt⟩ := h.modifies a ha
    exact ⟨a.2.2.2, command, haccepts, hattempt⟩

/-- Every decision of a tick is plain. -/
theorem plain_decideOnTick (pricing : Pricing F) (timeToExpiry : String → Option F)
    (s : SharedState F) (tick : TickMsg F) (right : Char) (nowMono nowWall : Nat) :
    ∀ d ∈ (decideOnTick pricing timeToExpiry s tick right nowMono nowWall).1,
      Decision.Plain d := by
  have hquotes {side : Side} {d : Decision F} (h : d.Quotes s tick right side) :
      Decision.Plain d := by
    cases d with
    | place side' price cancelOldOid => exact h.2.1
    | modify side' orderId price => trivial
    | cancelAll orderIds => trivial
  intro d hd
  rcases decideOnTick_cases pricing timeToExpiry s tick right nowMono nowWall with
    hcancel | ⟨buy, sell, hsides, hbuy, hsell⟩
  · rw [hcancel, cancelResting] at hd
    split at hd
    · cases hd
    · obtain rfl := List.mem_singleton.mp hd
      trivial
  · rw [hsides, List.mem_append, Option.mem_toList, Option.mem_toList] at hd
    exact hd.elim (fun h => hquotes (hbuy d h)) fun h => hquotes (hsell d h)

/-- Unless it cancels all, every place of a tick is tracked. -/
theorem mem_places_foldl (tick : TickMsg F) (right : Char) (gtdSeconds : Nat) (clock : Clock F)
    {decisions : List (Decision F)} (hplain : ∀ d ∈ decisions, Decision.Plain d)
    (hquotes : ∀ d ∈ decisions, ∀ orderIds, d ≠ .cancelAll orderIds) {i : Nat}
    {command : Command F} {key : OurOrderKey} {order : OurOrder F}
    (hattempt : (decisions.flatMap (decisionAttempts tick right gtdSeconds clock))[i]? =
      some (command, .put key order)) :
    ∃ cancelOldOid, (key, order, cancelOldOid, i) ∈
      (decisions.foldl (TickFrames.add tick right gtdSeconds clock)
        ⟨[], [], [], [], false⟩).places := by
  induction decisions using List.reverseRecOn with
  | nil => cases hattempt
  | append_singleton decisions d ih =>
      rw [List.forall_mem_append] at hplain hquotes
      have hd : Decision.Plain d := hplain.2 d (List.mem_singleton_self d)
      have hframes := (covers_foldl tick right gtdSeconds clock hplain.1).frames
      specialize ih hplain.1 hquotes.1
      rw [List.flatMap_append, List.flatMap_singleton] at hattempt
      rw [List.foldl_append, List.foldl_cons, List.foldl_nil]
      generalize decisions.foldl (TickFrames.add tick right gtdSeconds clock) _ = acc
        at hframes ih ⊢
      generalize decisions.flatMap (decisionAttempts tick right gtdSeconds clock) = attempts at *
      have hlength : acc.frames.length = attempts.length := by rw [hframes, List.length_map]
      -- an earlier place, or the one that the last decision asks for
      rcases lt_or_ge i attempts.length with hearlier | hlast
      · rw [List.getElem?_append_left hearlier] at hattempt
        obtain ⟨cancelOldOid, hmem⟩ := ih hattempt
        refine ⟨cancelOldOid, ?_⟩
        cases d with
        | place side price oldOid =>
            obtain rfl : oldOid = none := hd
            exact List.mem_append_left _ hmem
        | modify side orderId price => exact hmem
        | cancelAll orderIds => exact absurd rfl (hquotes.2 _ (List.mem_singleton_self _) orderIds)
      · rw [List.getElem?_append_right hlast] at hattempt
        cases d with
        | place side price oldOid =>
            obtain rfl : oldOid = none := hd
            obtain rfl : i = acc.frames.length := by
              have hone : i - attempts.length < 1 := (List.getElem?_eq_some_iff.mp hattempt).1
              omega
            have hnewest := List.mem_singleton.mp (List.mem_of_getElem? hattempt)
            obtain ⟨rfl, rfl⟩ := Move.put.inj (congrArg Prod.snd hnewest)
            exact ⟨none, List.mem_append_right _ (List.mem_singleton_self _)⟩
        | modify side orderId price =>
            have hnewest := List.mem_singleton.mp (List.mem_of_getElem? hattempt)
            cases congrArg Prod.snd hnewest
        | cancelAll orderIds => exact absurd rfl (hquotes.2 _ (List.mem_singleton_self _) orderIds)

/-- A place among the attempts of a tick comes from a decision on its side. -/
theorem quotes_of_put (pricing : Pricing F) (timeToExpiry : String → Option F)
    (s : SharedState F) (tick : TickMsg F) (right : Char) (nowMono nowWall : Nat)
    (gtdSeconds : Nat) (clock : Clock F) ⦃command : Command F⦄ ⦃key : OurOrderKey⦄
    ⦃order : OurOrder F⦄
    (h : (command, .put key order) ∈
      (decideOnTick pricing timeToExpiry s tick right nowMono nowWall).1.flatMap
        (decisionAttempts tick right gtdSeconds clock)) :
    ∀ d ∈ (decideOnTick pricing timeToExpiry s tick right nowMono nowWall).1, ∀ orderIds,
      d ≠ .cancelAll orderIds := by
  rcases decideOnTick_cases pricing timeToExpiry s tick right nowMono nowWall with
    hcancel | ⟨buy, sell, hsides, hbuy, hsell⟩
  · rw [hcancel, cancelResting] at h
    split at h
    · cases h
    · rw [List.flatMap_singleton] at h
      obtain ⟨orderId, -, hattempt⟩ := List.mem_map.mp h
      cases congrArg Prod.snd hattempt
  · rw [hsides]
    rintro d hd orderIds rfl
    rw [List.mem_append, Option.mem_toList, Option.mem_toList] at hd
    exact hd.elim (fun h => hbuy _ h) fun h => hsell _ h

/-- **The frames of a tick and their tracking.** What a tick writes are its attempts that the
ring took, only these move the maps, and every place among them does. -/
theorem onTick_tracked (pricing : Pricing F) (placesOrders : Bool) (s : SharedState F)
    (clock : Clock F) (accepts : Nat → Bool) (tick : TickMsg F) :
    let attempts := tickAttempts pricing placesOrders s clock tick
    let after := onTick pricing placesOrders s clock accepts tick
    after.1 = taken (answered attempts accepts) ∧
      ∃ moves, tracking after.2 = run apply (tracking s) moves ∧
        (∀ m ∈ moves, ∃ i command, accepts i = true ∧ attempts[i]? = some (command, m)) ∧
          ∀ i command key order, accepts i = true →
            attempts[i]? = some (command, .put key order) → .put key order ∈ moves := by
  have hnothing {s' : SharedState F} (h : tracking s' = tracking s) :
      ∃ moves, tracking s' = run apply (tracking s) moves ∧
        (∀ m ∈ moves, ∃ i command, accepts i = true ∧
          ([] : List (Attempt F))[i]? = some (command, m)) ∧
          ∀ i command key order, accepts i = true →
            ([] : List (Attempt F))[i]? = some (command, .put key order) →
              .put key order ∈ moves :=
    ⟨[], h, fun _ hm => (nomatch hm), fun _ _ _ _ _ hattempt => (nomatch hattempt)⟩
  unfold onTick tickAttempts
  cases firstUpper tick.right with
  | none => exact ⟨rfl, hnothing rfl⟩
  | some right =>
      simp only
      generalize hmerged : mergeTick s tick right = merged
      have hmerge : tracking merged.2 = tracking s := by rw [← hmerged]; rfl
      have hplain := plain_decideOnTick pricing clock.timeToExpiry merged.2 merged.1 right
        clock.monoNs clock.wallNs
      have hputs := quotes_of_put pricing clock.timeToExpiry merged.2 merged.1 right clock.monoNs
        clock.wallNs (gtdSeconds merged.2.scalars) clock
      obtain ⟨_, _, _, hframe⟩ := decideFrame_decideOnTick pricing clock.timeToExpiry merged.2
        merged.1 right clock.monoNs clock.wallNs
      generalize decideOnTick pricing clock.timeToExpiry merged.2 merged.1 right clock.monoNs
        clock.wallNs = decided at hplain hputs hframe ⊢
      have hdecided : tracking decided.2 = tracking s := by rw [← hmerge, hframe]; rfl
      cases placesOrders with
      | false =>
          simp only [Bool.not_false, Bool.or_true, if_true, if_false, Bool.false_eq_true]
          exact ⟨rfl, hnothing hdecided⟩
      | true =>
          simp only [Bool.not_true, Bool.or_false, if_true]
          by_cases hempty : decided.1.isEmpty
          · rw [if_pos hempty, List.isEmpty_iff.mp hempty]
            exact ⟨rfl, hnothing hdecided⟩
          · rw [if_neg hempty]
            have hcovers := covers_foldl merged.1 right (gtdSeconds merged.2.scalars) clock hplain
            have hplaces := mem_places_foldl merged.1 right (gtdSeconds merged.2.scalars) clock
              hplain
            generalize decided.1.foldl _ _ = acc at hcovers hplaces ⊢
            refine ⟨?_, _, ?_, fun m hm => hcovers.mem_moves hm, ?_⟩
            · rw [hcovers.frames, writeFrames_written]
            · rw [tracking_track acc accepts clock fun p hp => (hcovers.places p hp).1]
              exact congrArg (fun d => run apply d _) hdecided
            · intro i command key order haccepts hattempt
              obtain ⟨cancelOldOid, hmem⟩ :=
                hplaces (hputs (List.mem_of_getElem? hattempt)) hattempt
              refine List.mem_append_left _ (List.mem_append_right _ ?_)
              exact List.mem_map.mpr ⟨_, List.mem_filter.mpr ⟨hmem, haccepts⟩, rfl⟩

/-- Without the places. -/
theorem onTick_spec (pricing : Pricing F) (placesOrders : Bool) (s : SharedState F)
    (clock : Clock F) (accepts : Nat → Bool) (tick : TickMsg F) :
    let attempts := tickAttempts pricing placesOrders s clock tick
    let after := onTick pricing placesOrders s clock accepts tick
    after.1 = taken (answered attempts accepts) ∧
      ∃ moves, tracking after.2 = run apply (tracking s) moves ∧
        ∀ m ∈ moves, ∃ i command, accepts i = true ∧ attempts[i]? = some (command, m) := by
  obtain ⟨hwritten, moves, htracking, hmoves, -⟩ :=
    onTick_tracked pricing placesOrders s clock accepts tick
  exact ⟨hwritten, moves, htracking, hmoves⟩

/-! ### Each attempt of a tick concerns a key of its own -/

/-- The order id that a command names. -/
def commandAbout : Command F → Option Int
  | .place _ => none
  | .modify order => some order.orderId
  | .cancel order => some order.orderId

/-- The key that a command places at. -/
def placedKey : Command F → Option OurOrderKey
  | .place order => orderKey order.strike order.expiry order.right order.side
  | _ => none

/-- The attempt concerns the order under the key: it places where no
acknowledged order is, or amends or cancels the one that is there. -/
def Attempt.On (d : Directory OurOrderKey Int (OurOrder F)) (key : OurOrderKey)
    (attempt : Attempt F) : Prop :=
  attempt.2.about = commandAbout attempt.1 ∧
    d.ownerAt OurOrder.orderId key = commandAbout attempt.1 ∧
      match attempt.2 with
      | .put k order => k = key ∧ order.orderId = none ∧ placedKey attempt.1 = some key
      | .amend _ k f => k = key ∧ ∀ o, (f o).orderId = o.orderId
      | .release _ => True
      | _ => False

theorem on_decisionAttempts {s : SharedState F} {tick : TickMsg F} {right : Char} {side : Side}
    {d : Decision F} (hright : firstUpper tick.right = some right)
    (h : d.Quotes s tick right side) (gtdSeconds : Nat) (clock : Clock F) :
    ∃ attempt, decisionAttempts tick right gtdSeconds clock d = [attempt] ∧
      Attempt.On (tracking s) (quoteKey tick right side) attempt := by
  cases d with
  | place side' price cancelOldOid =>
      obtain ⟨rfl, rfl, hfree⟩ := h
      refine ⟨_, rfl, rfl, hfree, rfl, rfl, ?_⟩
      cases side' <;> simp [placedKey, orderKey, hright, Side.asStr, Side.asChar, quoteKey]
  | modify side' orderId price =>
      obtain ⟨rfl, howner⟩ := h
      exact ⟨_, rfl, rfl, howner, rfl, fun _ => rfl⟩
  | cancelAll orderIds => cases h

theorem on_cancels (d : Directory OurOrderKey Int (OurOrder F)) (wallNs : Nat)
    (entries : List (Sigma fun _ : OurOrderKey => OurOrder F))
    (hentries : ∀ e ∈ entries, d.slot e.1 = some e.2) :
    ∃ keys : List OurOrderKey, keys.Sublist (entries.map Sigma.fst) ∧
      List.Forall₂ (Attempt.On d) keys
        ((entries.filterMap fun e => e.2.orderId).map fun orderId =>
          (cancelCommand wallNs orderId, .release orderId)) := by
  induction entries with
  | nil => exact ⟨[], .slnil, .nil⟩
  | cons e rest ih =>
      rw [List.forall_mem_cons] at hentries
      obtain ⟨keys, hsublist, hkeys⟩ := ih hentries.2
      cases horder : e.2.orderId with
      | none =>
          simp only [List.filterMap_cons, horder]
          exact ⟨keys, hsublist.cons _, hkeys⟩
      | some orderId =>
          simp only [List.filterMap_cons, horder, List.map_cons]
          refine ⟨e.1 :: keys, hsublist.cons_cons _, .cons ⟨rfl, ?_, trivial⟩ hkeys⟩
          rw [Directory.ownerAt, hentries.1, Option.bind_some, horder]
          rfl

/-- **One key an attempt.** -/
theorem tickAttempts_on (pricing : Pricing F) (placesOrders : Bool) (s : SharedState F)
    (clock : Clock F) (tick : TickMsg F) :
    ∃ keys : List OurOrderKey, keys.Nodup ∧
      List.Forall₂ (Attempt.On (tracking s)) keys
        (tickAttempts pricing placesOrders s clock tick) := by
  unfold tickAttempts
  split
  · exact ⟨[], .nil, .nil⟩
  · rename_i right hright
    simp only
    split
    · have hmerged : firstUpper (mergeTick s tick right).1.right = some right := hright
      rcases decideOnTick_cases pricing clock.timeToExpiry (mergeTick s tick right).2
        (mergeTick s tick right).1 right clock.monoNs clock.wallNs with
        hcancel | ⟨buy, sell, hsides, hbuy, hsell⟩
      · rw [hcancel, cancelResting]
        split
        · exact ⟨[], .nil, .nil⟩
        · rw [List.flatMap_singleton]
          obtain ⟨keys, hsublist, hkeys⟩ := on_cancels (tracking s) clock.wallNs
            s.ourOrders.entries fun e he => List.mem_dlookup s.ourOrders.nodupKeys he
          exact ⟨keys, s.ourOrders.keys_nodup.sublist hsublist, hkeys⟩
      · rw [hsides, List.flatMap_append]
        have hside {quote : Option (Decision F)} {side : Side}
            (h : ∀ d, quote = some d → d.Quotes (mergeTick s tick right).2
              (mergeTick s tick right).1 right side) :
            ∃ keys : List OurOrderKey,
              keys.Sublist [quoteKey (mergeTick s tick right).1 right side] ∧
              List.Forall₂ (Attempt.On (tracking s)) keys
                (quote.toList.flatMap (decisionAttempts (mergeTick s tick right).1 right
                  (gtdSeconds (mergeTick s tick right).2.scalars) clock)) := by
          cases quote with
          | none => exact ⟨[], List.nil_sublist _, .nil⟩
          | some d =>
              obtain ⟨attempt, hattempt, hon⟩ := on_decisionAttempts hmerged (h d rfl)
                (gtdSeconds (mergeTick s tick right).2.scalars) clock
              rw [Option.toList_some, List.flatMap_singleton, hattempt]
              exact ⟨_, .refl _, .cons hon .nil⟩
        obtain ⟨buyKeys, hbuyKeys, hbuyOn⟩ := hside hbuy
        obtain ⟨sellKeys, hsellKeys, hsellOn⟩ := hside hsell
        refine ⟨buyKeys ++ sellKeys, ?_, List.rel_append hbuyOn hsellOn⟩
        refine List.Nodup.sublist (hbuyKeys.append hsellKeys) ?_
        simp [quoteKey, Side.asChar]
    · exact ⟨[], .nil, .nil⟩

theorem on_of_getElem? {d : Directory OurOrderKey Int (OurOrder F)} {keys : List OurOrderKey}
    {attempts : List (Attempt F)} (h : List.Forall₂ (Attempt.On d) keys attempts) {i : Nat}
    {attempt : Attempt F} (hattempt : attempts[i]? = some attempt) :
    ∃ key, keys[i]? = some key ∧ Attempt.On d key attempt := by
  induction h generalizing i with
  | nil => simp at hattempt
  | cons hon _ ih =>
      cases i with
      | zero =>
          obtain rfl : _ = attempt := by simpa using hattempt
          exact ⟨_, rfl, hon⟩
      | succ i => exact ih (by simpa using hattempt)

theorem on_of_mem {pricing : Pricing F} {placesOrders : Bool} {s : SharedState F}
    {clock : Clock F} {tick : TickMsg F} {attempt : Attempt F}
    (h : attempt ∈ tickAttempts pricing placesOrders s clock tick) :
    ∃ key, Attempt.On (tracking s) key attempt := by
  obtain ⟨keys, -, hkeys⟩ := tickAttempts_on pricing placesOrders s clock tick
  obtain ⟨i, hi⟩ := List.getElem?_of_mem h
  obtain ⟨key, -, hon⟩ := on_of_getElem? hkeys hi
  exact ⟨key, hon⟩

omit [F64 F] in
/-- The release of an order that is filed under one key only. -/
theorem proper_release_of_filedAt {d : Directory OurOrderKey Int (OurOrder F)} {i : Int}
    {key k : OurOrderKey} (h : FiledAt OurOrder.orderId d i k)
    (howner : d.ownerAt OurOrder.orderId key = some i) :
    (Move.release i : OrderMove F).Proper OurOrder.orderId d := by
  intro k' hk' j hj
  obtain rfl := h.index k' hk'
  obtain ⟨rfl, -⟩ := h.record key howner
  exact howner.symm.trans hj

/-- What an attempt of a tick does once it is accepted. -/
theorem Attempt.On.move {d : Directory OurOrderKey Int (OurOrder F)} {key : OurOrderKey}
    {attempt : Attempt F} (h : Attempt.On d key attempt) :
    attempt.2.Lawful OurOrder.orderId ∧ ¬ attempt.2.Files ∧
      ∀ i k, attempt.2.KeepsTo (κ := OurOrderKey) i k := by
  obtain ⟨command, m⟩ := attempt
  obtain ⟨-, -, hmove⟩ := h
  cases m with
  | file i k f => cases hmove
  | put k order => exact ⟨hmove.2.1, id, fun _ _ => trivial⟩
  | amend i k f => exact ⟨hmove.2, id, fun _ _ => trivial⟩
  | release i => exact ⟨trivial, id, fun _ _ => trivial⟩
  | discard i k => cases hmove

theorem Attempt.On.proper {d : Directory OurOrderKey Int (OurOrder F)} {key : OurOrderKey}
    {attempt : Attempt F} (h : Attempt.On d key attempt)
    (hrelease : ∀ i, d.ownerAt OurOrder.orderId key = some i →
      (Move.release i : OrderMove F).Proper OurOrder.orderId d) :
    attempt.2.Proper OurOrder.orderId d := by
  obtain ⟨command, m⟩ := attempt
  obtain ⟨habout, howner, hmove⟩ := h
  rw [← habout] at howner
  cases m with
  | file i k f => cases hmove
  | put k order =>
      obtain ⟨rfl, -⟩ := hmove
      rintro _ ⟨⟩ j hj
      exact howner.symm.trans hj
  | amend i k f =>
      obtain ⟨rfl, -⟩ := hmove
      rintro _ ⟨⟩ j hj
      exact howner.symm.trans hj
  | release i => exact hrelease i howner
  | discard i k => cases hmove

/-- Where the index knows the order under the key, the attempt touches that key
only. -/
theorem Attempt.On.touches {d : Directory OurOrderKey Int (OurOrder F)} {key : OurOrderKey}
    {attempt : Attempt F} (h : Attempt.On d key attempt)
    (hhome : ∀ i, d.ownerAt OurOrder.orderId key = some i → d.home i = some key) :
    attempt.2.strikes d = some key ∧
      ∀ i, attempt.2.about = some i → d.home i = some key := by
  obtain ⟨command, m⟩ := attempt
  obtain ⟨habout, howner, hmove⟩ := h
  rw [← habout] at howner
  refine ⟨?_, fun i hi => hhome i (howner.trans hi)⟩
  cases m with
  | file i k f => cases hmove
  | put k order => exact congrArg some hmove.1
  | amend i k f => exact congrArg some hmove.1
  | release i => exact hhome i howner
  | discard i k => cases hmove

/-- An attempt that places puts an order at its key. -/
theorem Attempt.On.put_of_placed {d : Directory OurOrderKey Int (OurOrder F)}
    {key k : OurOrderKey} {attempt : Attempt F} (h : Attempt.On d key attempt)
    (hplaced : placedKey attempt.1 = some k) :
    k = key ∧ d.ownerAt OurOrder.orderId key = none ∧ ∃ order, attempt.2 = .put key order := by
  obtain ⟨command, m⟩ := attempt
  obtain ⟨habout, howner, hmove⟩ := h
  cases command with
  | place order =>
      cases m with
      | put k' o =>
          obtain ⟨rfl, -, hk⟩ := hmove
          exact ⟨Option.some.inj (hplaced.symm.trans hk), howner, o, rfl⟩
      | file i k' f => cases hmove
      | amend i k' f => cases habout
      | release i => cases habout
      | discard i k' => cases hmove
  | modify order => cases hplaced
  | cancel order => cases hplaced

theorem Attempt.On.placedKey_eq {d : Directory OurOrderKey Int (OurOrder F)}
    {key k : OurOrderKey} {attempt : Attempt F} (h : Attempt.On d key attempt)
    (hplaced : placedKey attempt.1 = some k) : k = key :=
  (h.put_of_placed hplaced).1

/-! ## The staleness loop -/

/-- The frame of an action. -/
def actionFrame (clock : Clock F) (gtdSeconds : Nat) : Action F → Command F
  | .modify orderId _ newPrice =>
      .modify
        { tsNs := clock.wallNs
          orderId := orderId
          price := newPrice
          gtdSeconds := gtdSeconds
          triggeringTickBrokerRecvNs := none }
  | .cancel orderId _ => cancelCommand clock.wallNs orderId

/-- The order that an action is about. -/
def actionOrder : Action F → Int
  | .modify orderId _ _ => orderId
  | .cancel orderId _ => orderId

/-- The key that an action remembers. -/
def actionKey : Action F → OurOrderKey
  | .modify _ key _ => key
  | .cancel _ key => key

/-- The moves of an action: an amend when its frame is taken, a discard
whatever the ring answers. -/
def actionMoves (clock : Clock F) (accepted : Bool) : Action F → List (OrderMove F)
  | .modify orderId key newPrice =>
      if accepted then [.amend orderId key (reprice clock newPrice)] else []
  | .cancel orderId key => [.discard orderId key]

/-- An action is about the order that it is collected from. -/
theorem orderId_stalenessAction {pricing : Pricing F} {s : SharedState F}
    {clock : Clock F} {key : OurOrderKey} {order : OurOrder F} {a : Action F}
    (h : stalenessAction pricing s clock key order = some a) :
    actionKey a = key ∧ order.orderId = some (actionOrder a) := by
  unfold stalenessAction at h
  split at h
  · rename_i orderId theo horder _
    split at h
    · obtain ⟨p, -, rfl⟩ := Option.map_eq_some_iff.mp h
      exact ⟨rfl, horder⟩
    · split at h
      · split at h
        · obtain rfl := Option.some.inj h
          exact ⟨rfl, horder⟩
        · cases h
      · cases h
  · cases h

omit [F64 F] in
/-- A move of an action is about its order and strikes its key. -/
theorem spec_of_mem_actionMoves {clock : Clock F} {accepted : Bool} {a : Action F}
    {m : OrderMove F} (h : m ∈ actionMoves clock accepted a) :
    m.Lawful OurOrder.orderId ∧ ¬ m.Files ∧ m.about = some (actionOrder a) ∧
      ∀ d : Directory OurOrderKey Int (OurOrder F), m.strikes d = some (actionKey a) := by
  cases a with
  | modify orderId key newPrice =>
      obtain ⟨-, rfl⟩ : accepted = true ∧ m = _ := by simpa [actionMoves] using h
      exact ⟨fun _ => rfl, id, rfl, fun _ => rfl⟩
  | cancel orderId key =>
      obtain rfl := List.mem_singleton.mp h
      exact ⟨trivial, id, rfl, fun _ => rfl⟩

omit [F64 F] in
/-- An action leaves every key but its own. -/
theorem slot_actionMoves {d : Directory OurOrderKey Int (OurOrder F)} {clock : Clock F}
    {accepted : Bool} {a : Action F} {key : OurOrderKey} (h : actionKey a ≠ key) :
    (run apply d (actionMoves clock accepted a)).slot key = d.slot key := by
  cases a with
  | modify orderId k newPrice =>
      have hne : k ≠ key := h
      cases accepted with
      | false => rfl
      | true =>
          have hmisses : (Move.amend orderId k (reprice clock newPrice)).strikes d ≠ some key := by
            simpa [Move.strikes] using hne
          exact slot_apply_of_not_strikes hmisses
  | cancel orderId k =>
      have hne : k ≠ key := h
      have hmisses : (Move.discard orderId k).strikes d ≠ some key := by
        simpa [Move.strikes] using hne
      exact slot_apply_of_not_strikes hmisses

omit [F64 F] in
theorem tracking_applyAction (clock : Clock F) (gtdSeconds : Nat) (s : SharedState F)
    (accepted : Bool) (action : Action F) :
    tracking (applyAction clock gtdSeconds s accepted action).2 =
      run apply (tracking s) (actionMoves clock accepted action) := by
  cases action with
  | modify orderId key newPrice =>
      cases accepted with
      | false => rfl
      | true => exact tracking_modifyOrder s orderId key (reprice clock newPrice)
  | cancel orderId key =>
      cases accepted <;> exact Directory.ext (slot_erase s key) (home_erase s orderId)

omit [F64 F] in
theorem applyAction_written (clock : Clock F) (gtdSeconds : Nat) (s : SharedState F)
    (accepted : Bool) (action : Action F) :
    (applyAction clock gtdSeconds s accepted action).1 =
      taken [(actionFrame clock gtdSeconds action, accepted)] := by
  cases action <;> cases accepted <;> rfl

/-! ## The steps of the trader -/

/-- The frames that a step attempts, with the answers of the ring. -/
def stepAttempts (pricing : Pricing F) (placesOrders : Bool) (s : TraderSys F) :
    TraderStep F → List (Command F × Bool)
  | .event (.tick msg) clock accepts =>
      answered (tickAttempts pricing placesOrders s.shared clock msg) accepts
  | .event _ _ _ => []
  | .collect _ => []
  | .act accepted =>
      match s.pass with
      | some ⟨clock, gtdSeconds, action :: _⟩ =>
          [(actionFrame clock gtdSeconds action, accepted)]
      | _ => []

/-- A move that a step may make. -/
inductive StepMove (pricing : Pricing F) (placesOrders : Bool) (s : TraderSys F) :
    TraderStep F → OrderMove F → Prop
  | ack {clock : Clock F} {accepts : Nat → Bool} {p : PlaceAckMsg F} {key : OurOrderKey}
      (hkey : ackKey p = some key) :
      StepMove pricing placesOrders s (.event (.placeAck p) clock accepts)
        (.file p.orderId key (ackedOrder clock p))
  | ended {clock : Clock F} {accepts : Nat → Bool} {a : OrderAckMsg} {orderId : Int}
      (hended : endedOrder a = some orderId) :
      StepMove pricing placesOrders s (.event (.orderStatus a) clock accepts) (.release orderId)
  | tick {clock : Clock F} {accepts : Nat → Bool} {msg : TickMsg F} {i : Nat}
      {attempt : Attempt F} (haccepts : accepts i = true)
      (hattempt : (tickAttempts pricing placesOrders s.shared clock msg)[i]? = some attempt) :
      StepMove pricing placesOrders s (.event (.tick msg) clock accepts) attempt.2
  | act {clock : Clock F} {gtdSeconds : Nat} {action : Action F} {rest : List (Action F)}
      {accepted : Bool} {m : OrderMove F}
      (hpass : s.pass = some ⟨clock, gtdSeconds, action :: rest⟩)
      (hmove : m ∈ actionMoves clock accepted action) :
      StepMove pricing placesOrders s (.act accepted) m

theorem StepMove.lawful {pricing : Pricing F} {placesOrders : Bool} {s : TraderSys F}
    {st : TraderStep F} {m : OrderMove F} (h : StepMove pricing placesOrders s st m) :
    m.Lawful OurOrder.orderId := by
  cases h with
  | ack hkey => exact fun o => orderId_ackedOrder _ _ o
  | ended hended => trivial
  | tick haccepts hattempt =>
      obtain ⟨key, hon⟩ := on_of_mem (List.mem_of_getElem? hattempt)
      exact hon.move.1
  | act hpass hmove => exact (spec_of_mem_actionMoves hmove).1

/-- Only an ack files. -/
theorem StepMove.file {pricing : Pricing F} {placesOrders : Bool} {s : TraderSys F}
    {st : TraderStep F} {orderId : Int} {key : OurOrderKey}
    {f : Option (OurOrder F) → OurOrder F}
    (h : StepMove pricing placesOrders s st (.file orderId key f)) :
    ∃ p clock accepts, st = .event (.placeAck p) clock accepts ∧ p.orderId = orderId ∧
      ackKey p = some key := by
  generalize hmove : Move.file orderId key f = m at h
  cases h with
  | ack hkey =>
      obtain ⟨rfl, rfl, -⟩ := Move.file.inj hmove
      exact ⟨_, _, _, rfl, rfl, hkey⟩
  | ended hended => cases hmove
  | tick haccepts hattempt =>
      obtain ⟨k, hon⟩ := on_of_mem (List.mem_of_getElem? hattempt)
      have hfiles := hon.move.2.1
      rw [← hmove] at hfiles
      exact absurd trivial hfiles
  | act hpass hmem =>
      rw [← hmove] at hmem
      exact absurd trivial (spec_of_mem_actionMoves hmem).2.1

/-- **A step of the trader.** It writes those of its attempts that the ring
took, and its effect on the maps is a run of its moves. -/
theorem traderStep_spec (pricing : Pricing F) (placesOrders : Bool) (s : TraderSys F)
    (st : TraderStep F) :
    (traderStep pricing placesOrders s st).1 =
        taken (stepAttempts pricing placesOrders s st) ∧
      ∃ moves, tracking (nextState pricing placesOrders s st).shared =
          run apply (tracking s.shared) moves ∧
        (∀ m ∈ moves, StepMove pricing placesOrders s st m) ∧
          ((∀ m ∈ moves, ¬ m.Files) ∨ ∃ m, moves = [m]) := by
  have hstill {s' : SharedState F} (h : tracking s' = tracking s.shared) :
      ∃ moves, tracking s' = run apply (tracking s.shared) moves ∧
        (∀ m ∈ moves, StepMove pricing placesOrders s st m) ∧
          ((∀ m ∈ moves, ¬ m.Files) ∨ ∃ m, moves = [m]) :=
    ⟨[], h, fun _ hm => (nomatch hm), .inl fun _ hm => (nomatch hm)⟩
  cases st with
  | event ev clock accepts =>
      cases ev with
      | tick msg =>
          obtain ⟨hwritten, moves, htracking, hmoves⟩ :=
            onTick_spec pricing placesOrders s.shared clock accepts msg
          refine ⟨hwritten, moves, htracking, fun m hm => ?_, .inl fun m hm => ?_⟩
          · obtain ⟨i, command, haccepts, hattempt⟩ := hmoves m hm
            exact .tick haccepts hattempt
          · obtain ⟨i, command, -, hattempt⟩ := hmoves m hm
            obtain ⟨key, hon⟩ := on_of_mem (List.mem_of_getElem? hattempt)
            exact hon.move.2.1
      | placeAck p =>
          refine ⟨rfl, _, tracking_onPlaceAck s.shared clock p, fun m hm => ?_, ?_⟩
          · obtain ⟨key, hkey, rfl⟩ := List.mem_map.mp hm
            exact .ack (Option.mem_toList.mp hkey)
          · cases ackKey p with
            | none => exact .inl fun m hm => (nomatch hm)
            | some key => exact .inr ⟨_, rfl⟩
      | orderStatus a =>
          refine ⟨rfl, _, tracking_onOrderStatus s.shared a, fun m hm => ?_, .inl fun m hm => ?_⟩
          · obtain ⟨orderId, hended, rfl⟩ := List.mem_map.mp hm
            exact .ended (Option.mem_toList.mp hended)
          · obtain ⟨orderId, -, rfl⟩ := List.mem_map.mp hm
            exact id
      | undecodable => exact ⟨rfl, hstill rfl⟩
      | unknown => exact ⟨rfl, hstill rfl⟩
      | underlyingTick price => exact ⟨rfl, hstill rfl⟩
      | volSurface msg => exact ⟨rfl, hstill (tracking_onVolSurface s.shared msg)⟩
      | riskState msg => exact ⟨rfl, hstill rfl⟩
      | kill msg => exact ⟨rfl, hstill (tracking_onKill s.shared msg)⟩
      | resume msg => exact ⟨rfl, hstill (tracking_onResume s.shared msg)⟩
      | weekendPause paused => exact ⟨rfl, hstill rfl⟩
      | hello msg => exact ⟨rfl, hstill (tracking_onHello s.shared msg)⟩
  | collect clock =>
      simp only [nextState, traderStep]
      split <;> exact ⟨rfl, hstill rfl⟩
  | act accepted =>
      rcases hpass : s.pass with _ | ⟨clock, gtdSeconds, _ | ⟨action, rest⟩⟩
      · simp only [nextState, traderStep, stepAttempts, hpass]
        exact ⟨rfl, hstill rfl⟩
      · simp only [nextState, traderStep, stepAttempts, hpass]
        exact ⟨rfl, hstill rfl⟩
      · simp only [nextState, traderStep, stepAttempts, hpass]
        exact ⟨applyAction_written .., _, tracking_applyAction .., fun m hm => .act hpass hm,
          .inl fun m hm => (spec_of_mem_actionMoves hm).2.1⟩

end Corsair.Ports.OrderTracking
