import Mathlib.Algebra.Order.Floor.Div
import Corsair.Ports.DepthRotation
import Corsair.Verified.RoundRobin

/-!
# `corsair_broker::subscriptions`: what the depth rotator wants

Of the legs with a quote the two nearest to the money are wanted always, and three more in
turn.  The candidates may be others at every turn, in another order or of another number, and
subscriptions may fail.

`Rotator` is the loop of `run_depth_rotator` with the steps of the turn that are still ahead;
frames, the pump and ticks come in between.  It keeps the candidates and the target of each
turn, which the code forgets.  Distances are taken to be numbers, so that the candidates can be
sorted by them.

## Main results

* `selected` — what a turn selects, with no index out of range.
* `quoted_of_selected` — only legs with a quote and a contract are selected.
* `Chained.cursor_lt` — the cursor is below the length of a candidate list, or where it began.
* `todo_run` — a turn is over after ten of its steps at most.
* `depth_rotation` — every turn that begins has a target; never more than five subscriptions, and
  once a turn is over those of its target; and every leg of a pool that stays as it is gets its
  turn.
-/

namespace Corsair.Ports.DepthTarget

open Corsair.Verified
open Corsair.Verified.Runs
open Corsair.Verified.RoundRobin
open Corsair.Ports.Portfolio (Date)
open Corsair.Ports.BrokerApi
open Corsair.Ports.NativeDecoder (TextFormats)
open Corsair.Ports.QuoteBook
open Corsair.Ports.DepthRotation

variable {F : Type} [F64 F]

/-! ## The target -/

/-- How many depth subscriptions the gateway allows at a time. -/
def maxActive : Nat := 5

def fixedNearest : Nat := 2

def rotateSlots : Nat := maxActive - fixedNearest

/-- A leg, with its distance from the money. -/
structure Candidate (F : Type) where
  dist : F
  instrumentId : Nat
  contract : Contract F

/-- The legs with a quote and a qualified contract, product by product. -/
def candidates (md : MarketData F) (qualified : AList (fun _ : Nat => Contract F))
    (products : List String) : List (Candidate F) :=
  products.flatMap fun prod =>
    match md.underlyingPrice prod with
    | none => []
    | some und =>
        (md.optionsForProduct prod).filterMap fun (opt, quote) =>
          if F64.le quote.bid F64.zero && F64.le quote.ask F64.zero then none
          else
            opt.instrumentId.bind fun iid =>
              (qualified.lookup iid).map fun c => ⟨F64.abs (opt.strike - und), iid, c⟩

/-- The candidates by distance, in the order they came in where it is the same. -/
def nearestFirst (cs : List (Candidate F)) : List (Candidate F) :=
  cs.mergeSort fun a b => !F64.lt b.dist a.dist

/-- The candidates that are wanted in turn. -/
def rotationPool (cs : List (Candidate F)) : List (Candidate F) :=
  (nearestFirst cs).drop (min fixedNearest (nearestFirst cs).length)

/-- The target of a turn, and the cursor after it; none where an index is out of range. -/
def select (cursor : Nat) (cs : List (Candidate F)) : Option (List (Candidate F) × Nat) :=
  let fixed := (nearestFirst cs).take (min fixedNearest (nearestFirst cs).length)
  let pool := rotationPool cs
  if 0 < pool.length then
    (picks pool rotateSlots cursor).map fun rotated =>
      (fixed ++ rotated, advance rotateSlots pool.length cursor)
  else some (fixed, cursor)

def ids (cs : List (Candidate F)) : List Nat := cs.map (·.instrumentId)

/-! ## The loop -/

/-- The depth subscriptions, the cursor, the steps of the turn that are still to come, and the
candidates and the target of every turn. -/
structure Rotator (F : Type) [F64 F] where
  depth : DepthState F
  cursor : Nat
  todo : List (DepthStep F)
  turns : List (List (Candidate F) × List Nat)
  panicked : Bool

def Rotator.start (md : MarketData F) (cursor : Nat) : Rotator F where
  depth := .start md
  cursor
  todo := []
  turns := []
  panicked := false

/-- The target of the last turn. -/
def Rotator.target (r : Rotator F) : List Nat := (r.turns.getLast?.map (·.2)).getD []

inductive RotatorStep (F : Type)
  | turn (cs : List (Candidate F)) (sent : Nat → Bool)
  | next
  | other (a : DepthStep F)

/-- One step.  A turn begins when the one before it is over. -/
def rotate (fmt : TextFormats F Date) (r : Rotator F) : RotatorStep F → Rotator F
  | .turn cs sent =>
      if r.todo.isEmpty && !r.panicked then
        match select r.cursor cs with
        | some (chosen, cursor) =>
            { r with
              cursor
              todo := cadence r.depth.active (ids chosen) sent
              turns := r.turns ++ [(cs, ids chosen)] }
        | none => { r with panicked := true }
      else r
  | .next =>
      match r.todo with
      | [] => r
      | a :: rest => { r with depth := depthStep fmt r.depth a, todo := rest }
  | .other a =>
      match a with
      -- Nothing else has these handles.
      | .cancel _ | .add _ _ => r
      | a => { r with depth := depthStep fmt r.depth a }

/-! ## What is asked of it -/

/-- A turn that begins, with the fate of its subscriptions: the steps of the one before it are
done. -/
def begins (r : Rotator F) : RotatorStep F → Option (List (Candidate F) × (Nat → Bool))
  | .turn cs sent => if r.todo.isEmpty then some (cs, sent) else none
  | _ => none

/-- The subscriptions of the last turn that go out. -/
def lastSent (begun : List (List (Candidate F) × (Nat → Bool))) : Nat → Bool :=
  (begun.getLast?.map (·.2)).getD fun _ => true

/-- No index was out of range, no more than five subscriptions are held, and once a turn is over
they are those of its target, less the ones that failed. -/
structure Bounded (begun : List (List (Candidate F) × (Nat → Bool))) (r : Rotator F) : Prop where
  inRange : r.panicked = false
  few : r.depth.active.keys.length ≤ maxActive
  targeted : r.todo = [] → ∀ iid ∈ r.depth.active.keys, iid ∈ r.target
  subscribed : r.todo = [] → ∀ iid ∈ r.target, lastSent begun iid = true →
    iid ∈ r.depth.active.keys

/-- The interval of the loop fires. -/
def RotatorStep.isTurn : RotatorStep F → Bool
  | .turn _ _ => true
  | _ => false

def RotatorStep.isNext : RotatorStep F → Bool
  | .next => true
  | _ => false

/-- Ten steps end the turn, whatever comes in between. -/
def Ends (fmt : TextFormats F Date) (r : Rotator F) : Prop :=
  ∀ rest : List (RotatorStep F), (∀ a ∈ rest, a.isTurn = false) →
    2 * maxActive ≤ rest.countP RotatorStep.isNext → (run (rotate fmt) r rest).todo = []

/-- A turn that is given its ten steps, and what comes in between. -/
structure Round (F : Type) where
  cs : List (Candidate F)
  sent : Nat → Bool
  rest : List (RotatorStep F)
  noTurn : ∀ a ∈ rest, a.isTurn = false
  done : 2 * maxActive ≤ rest.countP RotatorStep.isNext

def Round.steps (round : Round F) : List (RotatorStep F) := .turn round.cs round.sent :: round.rest

/-- Turns over a pool of the same legs, a third of their number, select every one of them. -/
def Covers (turns : List (List (Candidate F) × List Nat)) : Prop :=
  ∀ before stay after pool, turns = before ++ stay ++ after →
    (∀ turn ∈ stay, ids (rotationPool turn.1) = pool) →
      stay.length = pool.length ⌈/⌉ rotateSlots → ∀ iid ∈ pool, ∃ turn ∈ stay, iid ∈ turn.2

/-! ## One turn -/

/-- What a turn selects. -/
structure Selected (cursor : Nat) (cs chosen : List (Candidate F)) (next : Nat) : Prop where
  few : chosen.length ≤ maxActive
  among : ∀ c ∈ chosen, c ∈ cs
  nearest : ∀ c ∈ (nearestFirst cs).take fixedNearest, c ∈ chosen
  inTurn : ∀ i < width rotateSlots (rotationPool cs).length, ∀ c,
    (rotationPool cs)[(cursor + i) % (rotationPool cs).length]? = some c → c ∈ chosen
  next : next =
    if 0 < (rotationPool cs).length then advance rotateSlots (rotationPool cs).length cursor
    else cursor

theorem mem_nearestFirst {cs : List (Candidate F)} {c : Candidate F} :
    c ∈ nearestFirst cs ↔ c ∈ cs := List.mem_mergeSort

theorem length_rotationPool_le (cs : List (Candidate F)) :
    (rotationPool cs).length ≤ cs.length := by
  unfold rotationPool nearestFirst
  rw [List.length_drop, List.length_mergeSort]
  omega

/-- **A turn's selection.** -/
theorem selected (cursor : Nat) (cs : List (Candidate F)) :
    ∃ chosen next, select cursor cs = some (chosen, next) ∧ Selected cursor cs chosen next := by
  have htake : (nearestFirst cs).take (min fixedNearest (nearestFirst cs).length) =
      (nearestFirst cs).take fixedNearest := by
    rw [List.take_eq_take_iff]
    omega
  have hfixed : ((nearestFirst cs).take fixedNearest).length ≤ fixedNearest :=
    List.length_take_le _ _
  have hmem {c : Candidate F} (hc : c ∈ (nearestFirst cs).take fixedNearest) : c ∈ cs :=
    mem_nearestFirst.mp (List.mem_of_mem_take hc)
  unfold select
  rw [htake]
  by_cases hpool : 0 < (rotationPool cs).length
  · obtain ⟨rotated, hpicks, hlen, hrotated⟩ := picks_eq (rotationPool cs) rotateSlots cursor
    refine ⟨_, _, by rw [if_pos hpool, hpicks, Option.map_some], ?_⟩
    exact {
      few := by
        have hwidth : rotated.length ≤ rotateSlots := hlen.trans_le (min_le_left _ _)
        rw [List.length_append]
        exact Nat.add_le_add hfixed hwidth
      among := fun c hc => by
        rcases List.mem_append.mp hc with hc | hc
        · exact hmem hc
        · obtain ⟨i, -, hget⟩ := (hrotated c).mp hc
          exact mem_nearestFirst.mp (List.mem_of_mem_drop (List.mem_of_getElem? hget))
      nearest := fun c hc => List.mem_append_left _ hc
      inTurn := fun i hi c hget => List.mem_append_right _ ((hrotated c).mpr ⟨i, hi, hget⟩)
      next := (if_pos hpool).symm }
  · refine ⟨_, _, by rw [if_neg hpool], ?_⟩
    exact {
      few := hfixed.trans (by decide)
      among := fun c hc => hmem hc
      nearest := fun c hc => hc
      inTurn := fun i hi => by
        have hlt : i < (rotationPool cs).length := hi.trans_le (min_le_right _ _)
        omega
      next := (if_neg hpool).symm }

/-- Where the candidates are those of the market data, a leg that a turn selects has a bid or an
ask, and a contract. -/
theorem quoted_of_selected {md : MarketData F} {qualified : AList (fun _ : Nat => Contract F)}
    {products : List String} {cursor next : Nat} {chosen : List (Candidate F)}
    (hselected : Selected cursor (candidates md qualified products) chosen next)
    {c : Candidate F} (hc : c ∈ chosen) :
    qualified.lookup c.instrumentId = some c.contract ∧
      ∃ prod ∈ products, ∃ opt quote, (opt, quote) ∈ md.optionsForProduct prod ∧
        opt.instrumentId = some c.instrumentId ∧
        (F64.le quote.bid F64.zero && F64.le quote.ask F64.zero) = false := by
  obtain ⟨prod, hprod, h⟩ := List.mem_flatMap.mp (hselected.among c hc)
  cases hund : md.underlyingPrice prod with
  | none =>
      rw [hund] at h
      cases h
  | some und =>
      rw [hund] at h
      obtain ⟨⟨opt, quote⟩, hopt, h⟩ := List.mem_filterMap.mp h
      dsimp only at h
      split at h
      · cases h
      · rename_i hquoted
        obtain ⟨iid, hiid, h⟩ := Option.bind_eq_some_iff.mp h
        obtain ⟨contract, hcontract, rfl⟩ := Option.map_eq_some_iff.mp h
        exact ⟨hcontract, prod, hprod, opt, quote, hopt, hiid, by simpa using hquoted⟩

/-! ## Turn after turn -/

/-- The turns select from the cursor on, and leave it where the next one starts. -/
def Chained : Nat → List (List (Candidate F) × List Nat) → Nat → Prop
  | cursor, [], last => cursor = last
  | cursor, (cs, target) :: rest, last =>
      ∃ chosen next, Selected cursor cs chosen next ∧ target = ids chosen ∧
        Chained next rest last

theorem chained_append {cursor last : Nat} {front back : List (List (Candidate F) × List Nat)} :
    Chained cursor (front ++ back) last ↔
      ∃ between, Chained cursor front between ∧ Chained between back last := by
  induction front generalizing cursor with
  | nil => simp [Chained]
  | cons turn front ih =>
      simp only [List.cons_append, Chained, ih]
      constructor
      · rintro ⟨chosen, next, hselected, htarget, between, hfront, hback⟩
        exact ⟨between, ⟨chosen, next, hselected, htarget, hfront⟩, hback⟩
      · rintro ⟨between, ⟨chosen, next, hselected, htarget, hfront⟩, hback⟩
        exact ⟨chosen, next, hselected, htarget, between, hfront, hback⟩

theorem Chained.mem_turn {cursor last : Nat} {turns : List (List (Candidate F) × List Nat)}
    (h : Chained cursor turns last) {turn : List (Candidate F) × List Nat} (hturn : turn ∈ turns) :
    ∃ cursor chosen next, Selected cursor turn.1 chosen next ∧ turn.2 = ids chosen := by
  induction turns generalizing cursor with
  | nil => cases hturn
  | cons head rest ih =>
      obtain ⟨chosen, next, hselected, htarget, hrest⟩ := h
      rcases List.mem_cons.mp hturn with rfl | hmem
      · exact ⟨cursor, chosen, next, hselected, htarget⟩
      · exact ih hrest hmem

/-- The cursor stays within any bound on the candidates, so that adding to it does not
overflow. -/
theorem Chained.cursor_lt {cursor last bound : Nat}
    {turns : List (List (Candidate F) × List Nat)} (h : Chained cursor turns last)
    (hcursor : cursor < bound) (hturns : ∀ turn ∈ turns, turn.1.length ≤ bound) :
    last < bound := by
  induction turns generalizing cursor with
  | nil => exact h ▸ hcursor
  | cons turn rest ih =>
      obtain ⟨chosen, next, hselected, -, hrest⟩ := h
      rw [List.forall_mem_cons] at hturns
      refine ih hrest ?_ hturns.2
      rw [hselected.next]
      split
      · rename_i hpool
        calc advance rotateSlots (rotationPool turn.1).length cursor
            < (rotationPool turn.1).length := advance_lt hpool cursor
          _ ≤ turn.1.length := length_rotationPool_le turn.1
          _ ≤ bound := hturns.1
      · exact hcursor

/-- Over pools of one size the turns start where the cursor has advanced to. -/
theorem Chained.selected_at {cursor last n : Nat} {turns : List (List (Candidate F) × List Nat)}
    (h : Chained cursor turns last) (hn : 0 < n)
    (hpool : ∀ turn ∈ turns, (rotationPool turn.1).length = n) {t : Nat}
    {turn : List (Candidate F) × List Nat} (hturn : turns[t]? = some turn) :
    ∃ chosen next, Selected ((advance rotateSlots n)^[t] cursor) turn.1 chosen next ∧
      turn.2 = ids chosen := by
  induction turns generalizing cursor t with
  | nil => cases hturn
  | cons head rest ih =>
      obtain ⟨chosen, next, hselected, htarget, hrest⟩ := h
      rw [List.forall_mem_cons] at hpool
      cases t with
      | zero =>
          rw [List.getElem?_cons_zero] at hturn
          obtain rfl := Option.some.inj hturn
          exact ⟨chosen, next, hselected, htarget⟩
      | succ t =>
          rw [List.getElem?_cons_succ] at hturn
          have hnext : next = advance rotateSlots n cursor := by
            rw [hselected.next, hpool.1, if_pos hn]
          rw [Function.iterate_succ_apply, ← hnext]
          exact ih hrest hpool.2 hturn

/-- **Coverage.** -/
theorem Chained.covers {cursor last : Nat} {turns : List (List (Candidate F) × List Nat)}
    (h : Chained cursor turns last) : Covers turns := by
  intro before stay after pool hsplit hpool hlen iid hiid
  rw [hsplit, List.append_assoc, chained_append] at h
  obtain ⟨start, -, h⟩ := h
  obtain ⟨_, hstay, -⟩ := chained_append.mp h
  obtain ⟨j, hj, hget⟩ := List.mem_iff_getElem.mp hiid
  have henough : pool.length ≤ rotateSlots * stay.length := by
    rw [hlen]
    exact le_smul_ceilDiv (show 0 < rotateSlots by decide)
  have hsize : ∀ turn ∈ stay, (rotationPool turn.1).length = pool.length := fun turn hturn => by
    rw [← hpool turn hturn, ids, List.length_map]
  obtain ⟨t, ht, i, hi, hplace⟩ := reached henough start hj
  have hturn : stay[t] ∈ stay := List.getElem_mem ht
  obtain ⟨chosen, next, hselected, htarget⟩ :=
    hstay.selected_at (by omega) hsize (List.getElem?_eq_getElem ht)
  have hleg : ((rotationPool stay[t].1)[j]?).map (·.instrumentId) = some iid := by
    rw [← List.getElem?_map, ← ids, hpool _ hturn, List.getElem?_eq_getElem hj, hget]
  obtain ⟨c, hc, rfl⟩ := Option.map_eq_some_iff.mp hleg
  refine ⟨stay[t], hturn, ?_⟩
  rw [htarget]
  refine List.mem_map_of_mem (hselected.inTurn i ?_ c ?_)
  · rw [hsize _ hturn]
    exact hi
  · rw [hsize _ hturn, hplace]
    exact hc

/-! ## Step after step -/

theorem mem_keys_cancel {s : DepthState F} {iid held : Nat} :
    held ∈ (s.cancel iid).active.keys ↔ held ≠ iid ∧ held ∈ s.active.keys := by
  unfold DepthState.cancel
  cases hown : s.active.lookup iid with
  | none =>
      refine ⟨fun h => ⟨?_, h⟩, And.right⟩
      rintro rfl
      exact AList.lookup_eq_none.mp hown (AList.mem_keys.mp h)
  | some own => exact AList.mem_erase.trans (by simp [AList.mem_keys])

theorem mem_keys_add {s : DepthState F} {iid held : Nat} {sent : Bool}
    (h : held ∈ (s.add iid sent).active.keys) : held = iid ∨ held ∈ s.active.keys := by
  unfold DepthState.add at h
  split at h
  · exact .inr h
  · cases sent with
    | false => exact .inr h
    | true => exact (AList.mem_insert _).mp h

/-- As many legs as are in a list at most. -/
theorem length_keys_le {active : AList (fun _ : Nat => Int)} {legs : List Nat}
    (h : ∀ iid ∈ active.keys, iid ∈ legs) : active.keys.length ≤ legs.length :=
  (active.keys_nodup.subperm h).length_le

theorem mem_keys_add_of_sent {s : DepthState F} {iid held : Nat} {sent : Bool}
    (h : held ∈ s.active.keys ∨ held = iid ∧ sent = true) :
    held ∈ (s.add iid sent).active.keys := by
  unfold DepthState.add
  split
  · rename_i hown
    rcases h with hold | ⟨rfl, -⟩
    · exact hold
    · exact AList.mem_keys.mp (AList.lookup_isSome.mp hown)
  · rcases h with hold | ⟨rfl, rfl⟩
    · cases sent with
      | false => exact hold
      | true => exact (AList.mem_insert _).mpr (.inr hold)
    · exact (AList.mem_insert _).mpr (.inl rfl)

/-- The rest of a turn: what it still cancels, and what it then adds. -/
structure Pending (r : Rotator F) (cancels adds : List Nat) (sent : Nat → Bool) : Prop where
  todo : r.todo = cancels.map .cancel ++ adds.map fun iid => .add iid (sent iid)
  wanted : ∀ iid ∈ adds, iid ∈ r.target
  unwanted : ∀ iid ∈ cancels, iid ∉ r.target
  held : ∀ iid ∈ r.depth.active.keys, iid ∈ r.target ∨ iid ∈ cancels
  covered : ∀ iid ∈ r.target, sent iid = true → iid ∈ adds ∨ iid ∈ r.depth.active.keys

/-- What holds all along. -/
structure Inv (cursor : Nat) (begun : List (List (Candidate F) × (Nat → Bool))) (r : Rotator F) :
    Prop where
  inRange : r.panicked = false
  few : r.depth.active.keys.length ≤ maxActive
  short : r.todo.length ≤ 2 * maxActive
  chained : Chained cursor r.turns r.cursor
  logged : r.turns.map (·.1) = begun.map (·.1)
  pending : ∃ cancels adds, Pending r cancels adds (lastSent begun)

theorem inv_start (md : MarketData F) (cursor : Nat) : Inv cursor [] (.start md cursor) where
  inRange := rfl
  few := Nat.zero_le _
  short := Nat.zero_le _
  chained := rfl
  logged := rfl
  pending := ⟨[], [], rfl, nofun, nofun, nofun, nofun⟩

section Steps

variable {fmt : TextFormats F Date} {cursor : Nat} {r : Rotator F}
  {begun : List (List (Candidate F) × (Nat → Bool))}

theorem Inv.length_target_le (h : Inv cursor begun r) : r.target.length ≤ maxActive := by
  unfold Rotator.target
  cases hlast : r.turns.getLast? with
  | none => exact Nat.zero_le _
  | some turn =>
      obtain ⟨_, chosen, _, hselected, htarget⟩ :=
        h.chained.mem_turn (List.mem_of_getLast? hlast)
      show turn.2.length ≤ maxActive
      rw [htarget, ids, List.length_map]
      exact hselected.few

/-- **A turn begins.** -/
theorem Inv.turn (h : Inv cursor begun r) (cs : List (Candidate F)) (sent : Nat → Bool) :
    Inv cursor (begun ++ (begins r (.turn cs sent)).toList) (rotate fmt r (.turn cs sent)) := by
  obtain ⟨chosen, next, hselect, hselected⟩ := selected r.cursor cs
  by_cases hidle : r.todo.isEmpty = true
  · have hstep : rotate fmt r (.turn cs sent) =
        { r with
          cursor := next
          todo := cadence r.depth.active (ids chosen) sent
          turns := r.turns ++ [(cs, ids chosen)] } := by
      simp [rotate, hselect, hidle, h.inRange]
    have hbegins : (begins r (.turn cs sent)).toList = [(cs, sent)] := by simp [begins, hidle]
    have htarget : Rotator.target { r with
        cursor := next
        todo := cadence r.depth.active (ids chosen) sent
        turns := r.turns ++ [(cs, ids chosen)] } = ids chosen := by
      simp [Rotator.target]
    have hsent : lastSent (begun ++ [(cs, sent)]) = sent := by simp [lastSent]
    have hchosen : (ids chosen).length ≤ maxActive := by
      rw [ids, List.length_map]
      exact hselected.few
    rw [hstep, hbegins]
    exact {
      inRange := h.inRange
      few := h.few
      short := by
        have hcancels := (List.length_filter_le (· ∉ ids chosen) r.depth.active.keys).trans h.few
        simp only [cadence, List.length_append, List.length_map]
        omega
      chained := chained_append.mpr ⟨r.cursor, h.chained, chosen, next, hselected, rfl, rfl⟩
      logged := by simp [h.logged]
      pending := by
        rw [hsent]
        refine ⟨_, ids chosen, rfl, fun iid hiid => ?_, fun iid hiid => ?_, fun iid hheld => ?_,
          fun iid hiid _ => ?_⟩
        · rw [htarget]
          exact hiid
        · rw [htarget]
          simpa using (List.mem_filter.mp hiid).2
        · rw [htarget]
          by_cases hwanted : iid ∈ ids chosen
          · exact .inl hwanted
          · exact .inr (List.mem_filter.mpr ⟨hheld, by simpa using hwanted⟩)
        · rw [htarget] at hiid
          exact .inl hiid }
  · have hstep : rotate fmt r (.turn cs sent) = r := by simp [rotate, hidle]
    have hbegins : (begins r (.turn cs sent)).toList = [] := by simp [begins, hidle]
    rw [hstep, hbegins, List.append_nil]
    exact h

/-- **A step of a turn.** -/
theorem Inv.next (h : Inv cursor begun r) : Inv cursor begun (rotate fmt r .next) := by
  obtain ⟨cancels, adds, hpending⟩ := h.pending
  have htodo := hpending.todo
  have hshort := h.short
  rw [htodo] at hshort
  cases cancels with
  | cons iid cancels =>
      have hnext : rotate fmt r .next =
          { r with
            depth := r.depth.cancel iid
            todo := cancels.map .cancel ++ adds.map fun iid => .add iid (lastSent begun iid) } := by
        simp only [rotate, htodo, List.map_cons, List.cons_append, depthStep]
      have hunwanted := List.forall_mem_cons.mp hpending.unwanted
      rw [hnext]
      exact {
        inRange := h.inRange
        few := (length_keys_le fun held hheld => (mem_keys_cancel.mp hheld).2).trans h.few
        short := (Nat.le_succ _).trans hshort
        chained := h.chained
        logged := h.logged
        pending := by
          refine ⟨cancels, adds, rfl, hpending.wanted, hunwanted.2, fun held hheld => ?_,
            fun held hheld hsent => ?_⟩
          · obtain ⟨hne, hheld⟩ := mem_keys_cancel.mp hheld
            rcases hpending.held held hheld with htarget | hcancel
            · exact .inl htarget
            · exact .inr (List.mem_of_ne_of_mem hne hcancel)
          · refine (hpending.covered held hheld hsent).imp_right fun hactive => ?_
            refine mem_keys_cancel.mpr ⟨?_, hactive⟩
            rintro rfl
            exact hunwanted.1 hheld }
  | nil =>
      have hheld : ∀ iid ∈ r.depth.active.keys, iid ∈ r.target := fun iid hiid =>
        (hpending.held iid hiid).resolve_right nofun
      cases adds with
      | nil =>
          have hnext : rotate fmt r .next = r := by
            simp only [rotate, htodo, List.map_nil, List.append_nil]
          rw [hnext]
          exact h
      | cons iid adds =>
          have hnext : rotate fmt r .next =
              { r with
                depth := r.depth.add iid (lastSent begun iid)
                todo := adds.map fun iid => .add iid (lastSent begun iid) } := by
            simp only [rotate, htodo, List.map_nil, List.nil_append, List.map_cons, depthStep]
          have hwanted := List.forall_mem_cons.mp hpending.wanted
          have hkeys : ∀ held ∈ (r.depth.add iid (lastSent begun iid)).active.keys,
              held ∈ r.target := by
            intro held hmem
            rcases mem_keys_add hmem with rfl | hold
            · exact hwanted.1
            · exact hheld held hold
          rw [hnext]
          exact {
            inRange := h.inRange
            few := (length_keys_le hkeys).trans h.length_target_le
            short := (Nat.le_succ _).trans hshort
            chained := h.chained
            logged := h.logged
            pending := by
              refine ⟨[], adds, rfl, hwanted.2, nofun, fun held hmem => .inl (hkeys held hmem),
                fun held htarget hsent => ?_⟩
              rcases hpending.covered held htarget hsent with hadd | hactive
              · rcases List.mem_cons.mp hadd with rfl | hlater
                · exact .inr (mem_keys_add_of_sent (.inr ⟨rfl, hsent⟩))
                · exact .inl hlater
              · exact .inr (mem_keys_add_of_sent (.inl hactive)) }

/-- What comes in between leaves the subscriptions. -/
theorem active_depthStep (s : DepthState F) {a : DepthStep F}
    (hcancel : ∀ iid, a ≠ .cancel iid) (hadd : ∀ iid sent, a ≠ .add iid sent) :
    (depthStep fmt s a).active = s.active := by
  cases a with
  | cancel iid => exact absurd rfl (hcancel iid)
  | add iid sent => exact absurd rfl (hadd iid sent)
  | pump =>
      show s.pump.active = s.active
      unfold DepthState.pump
      split
      · rfl
      · rfl
  | inbound => rfl
  | lag => rfl
  | tick => rfl

theorem Inv.step (h : Inv cursor begun r) (a : RotatorStep F) :
    Inv cursor (begun ++ (begins r a).toList) (rotate fmt r a) := by
  cases a with
  | turn cs sent => exact h.turn cs sent
  | next =>
      rw [show (begins r .next).toList = [] from rfl, List.append_nil]
      exact h.next
  | other a =>
      rw [show (begins r (.other a)).toList = [] from rfl, List.append_nil]
      unfold rotate
      dsimp only
      split
      · exact h
      · exact h
      · rename_i hcancel hadd
        have hactive : (depthStep fmt r.depth _).active = r.depth.active :=
          active_depthStep r.depth hcancel hadd
        obtain ⟨cancels, adds, hpending⟩ := h.pending
        exact {
          inRange := h.inRange
          few := by
            rw [hactive]
            exact h.few
          short := h.short
          chained := h.chained
          logged := h.logged
          pending := by
            refine ⟨cancels, adds, hpending.todo, hpending.wanted, hpending.unwanted, ?_, ?_⟩
            · rw [hactive]
              exact hpending.held
            · rw [hactive]
              exact hpending.covered }

theorem Inv.bounded (h : Inv cursor begun r) : Bounded begun r := by
  obtain ⟨cancels, adds, hpending⟩ := h.pending
  have hdone (htodo : r.todo = []) : cancels = [] ∧ adds = [] := by
    have hnone := List.append_eq_nil_iff.mp (hpending.todo.symm.trans htodo)
    exact ⟨List.map_eq_nil_iff.mp hnone.1, List.map_eq_nil_iff.mp hnone.2⟩
  exact {
    inRange := h.inRange
    few := h.few
    targeted := fun htodo iid hiid => by
      obtain ⟨rfl, -⟩ := hdone htodo
      exact (hpending.held iid hiid).resolve_right nofun
    subscribed := fun htodo iid hiid hsent => by
      obtain ⟨-, rfl⟩ := hdone htodo
      exact (hpending.covered iid hiid hsent).resolve_left nofun }

/-- **Progress.**  While no other turn begins, each step of the turn is one less to come. -/
theorem todo_run (r : Rotator F) (rest : List (RotatorStep F)) (h : ∀ a ∈ rest, a.isTurn = false) :
    (run (rotate fmt) r rest).todo.length = r.todo.length - rest.countP RotatorStep.isNext := by
  induction rest generalizing r with
  | nil => rfl
  | cons a rest ih =>
      rw [List.forall_mem_cons] at h
      rw [run_cons, ih _ h.2, List.countP_cons]
      cases a with
      | turn cs sent => cases h.1
      | next =>
          have hone : (rotate fmt r .next).todo.length = r.todo.length - 1 := by
            simp only [rotate]
            split
            · next htodo => rw [htodo]; rfl
            · next htodo => rw [htodo]; rfl
          rw [hone, show RotatorStep.isNext (.next : RotatorStep F) = true from rfl, if_pos rfl]
          omega
      | other a =>
          have hsame : (rotate fmt r (.other a)).todo = r.todo := by
            simp only [rotate]
            split
            · rfl
            · rfl
            · rfl
          rw [hsame]
          rfl

theorem Inv.ends (h : Inv cursor begun r) : Ends fmt r := by
  intro rest hrest hcount
  have hshort := h.short
  have hleft : (run (rotate fmt) r rest).todo.length =
      r.todo.length - rest.countP RotatorStep.isNext := todo_run r rest hrest
  exact List.length_eq_zero_iff.mp (by omega)

theorem seen_of_no_turn (r : Rotator F) {rest : List (RotatorStep F)}
    (h : ∀ a ∈ rest, a.isTurn = false) : seen (rotate fmt) begins r rest = [] := by
  induction rest generalizing r with
  | nil => rfl
  | cons a rest ih =>
      rw [List.forall_mem_cons] at h
      rw [seen, ih _ h.2, List.append_nil]
      cases a with
      | turn cs sent => cases h.1
      | next => rfl
      | other a => rfl

/-- **Round after round.**  Each turn of a schedule of rounds begins, and the last is over. -/
theorem Inv.rounds (h : Inv cursor begun r) (hidle : r.todo = []) (rounds : List (Round F)) :
    seen (rotate fmt) begins r (rounds.flatMap Round.steps) =
        rounds.map (fun round => (round.cs, round.sent)) ∧
      (run (rotate fmt) r (rounds.flatMap Round.steps)).todo = [] := by
  induction rounds generalizing r begun with
  | nil => exact ⟨rfl, hidle⟩
  | cons round rounds ih =>
      have hbegins : (begins r (.turn round.cs round.sent)).toList = [(round.cs, round.sent)] := by
        simp [begins, hidle]
      have hround : Inv cursor (begun ++ seen (rotate fmt) begins r round.steps)
          (run (rotate fmt) r round.steps) :=
        run_invariant_seen (Inv cursor) (fun _ _ a h => h.step a) h round.steps
      have hdone : (run (rotate fmt) r round.steps).todo = [] :=
        (h.step (.turn round.cs round.sent)).ends round.rest round.noTurn round.done
      obtain ⟨hseen, htodo⟩ := ih hround hdone
      rw [List.flatMap_cons, seen_append, run_append, hseen]
      refine ⟨?_, htodo⟩
      rw [Round.steps, seen, hbegins, seen_of_no_turn _ round.noTurn]
      rfl

end Steps

/-- **Every run of the rotator**, whatever the candidates and whichever subscriptions fail, from
any cursor.  Each turn that begins selects, in the order of the schedule, and ends. -/
theorem depth_rotation (fmt : TextFormats F Date) (md : MarketData F) (cursor : Nat)
    (schedule : List (RotatorStep F)) :
    let begun := seen (rotate fmt) begins (.start md cursor) schedule
    let r := run (rotate fmt) (.start md cursor) schedule
    r.turns.map (·.1) = begun.map (·.1) ∧ Ends fmt r ∧
      (∀ rounds : List (Round F), schedule = rounds.flatMap Round.steps →
        begun = rounds.map (fun round => (round.cs, round.sent)) ∧ r.todo = []) ∧
      Bounded begun r ∧ Covers r.turns := by
  have hinv : Inv cursor (seen (rotate fmt) begins (.start md cursor) schedule)
      (run (rotate fmt) (.start md cursor) schedule) :=
    run_invariant_seen (Inv cursor) (fun _ _ a h => h.step a) (inv_start md cursor) schedule
  refine ⟨hinv.logged, hinv.ends, fun rounds hrounds => ?_, hinv.bounded, hinv.chained.covers⟩
  rw [hrounds]
  exact (inv_start md cursor).rounds rfl rounds

/-- Eight calls at 1 to 8 from the money. -/
def eightCalls : List (Candidate ℚ) :=
  (List.range 8).map fun i : Nat =>
    { dist := (i : ℚ) + 1
      instrumentId := 100 + i
      contract := {
        instrumentId := 100 + i
        kind := .option
        symbol := "HG"
        localSymbol := "HXEM6"
        expiry := ⟨2026, 6, 26⟩
        strike := some (6 + (i : ℚ) / 20)
        right := some .call
        multiplier := 25000
        exchange := .comex
        currency := .usd
        tradingClass := "HXE" } }

/-- A turn over the eight calls; the subscription of the third fails. -/
def round8 : Round ℚ where
  cs := eightCalls
  sent := fun iid => iid ≠ 102
  rest := List.replicate 10 .next
  noTurn := by decide
  done := by decide

/-- Two turns select each of the six calls behind the nearest two, and those of the second are
subscribed then, but for the one that fails. -/
theorem depth_rotation_eightCalls :
    let r := run (rotate RestingSweep.plainFormats) (.start sixCalls 7)
      (round8.steps ++ round8.steps)
    r.turns.map (·.1) = [eightCalls, eightCalls] ∧
      (∀ iid ∈ [102, 103, 104, 105, 106, 107], ∃ turn ∈ r.turns, iid ∈ turn.2) ∧
      ∀ iid ∈ r.target, iid ≠ 102 → iid ∈ r.depth.active.keys := by
  intro r
  obtain ⟨hturns, -, hrounds, hbounded, hcovers⟩ :=
    depth_rotation RestingSweep.plainFormats sixCalls 7 (round8.steps ++ round8.steps)
  obtain ⟨hbegun, hdone⟩ := hrounds [round8, round8] (by simp)
  rw [hbegun] at hturns hbounded
  change r.turns.map (·.1) = [eightCalls, eightCalls] at hturns
  have hsorted : nearestFirst eightCalls = eightCalls :=
    List.mergeSort_of_pairwise (by decide +kernel)
  have hpool : ids (rotationPool eightCalls) = [102, 103, 104, 105, 106, 107] := by
    rw [rotationPool, hsorted]
    decide +kernel
  refine ⟨hturns, ?_, fun iid hiid hsent => ?_⟩
  · refine hcovers [] r.turns [] _ (List.append_nil r.turns).symm (fun turn hturn => ?_) ?_
    · have hcs : turn.1 ∈ [eightCalls, eightCalls] := hturns ▸ List.mem_map_of_mem hturn
      obtain hcs : turn.1 = eightCalls := by simpa using hcs
      rw [hcs, hpool]
    · have hlen : r.turns.length = 2 := by
        rw [← List.length_map, hturns]
        rfl
      rw [hlen]
      rfl
  · exact hbounded.subscribed hdone iid hiid (by simpa [lastSent, round8] using hsent)

end Corsair.Ports.DepthTarget
