import Corsair.Ports.BrokerHalt
import Corsair.Ports.OrderLife

/-!
# Commands that are dropped as stale

The adapter broadcasts every order status that it routes.  `pump_status` reads the
broadcasts one by one, and records the orders that it takes to be over.  Entries leave
the table by their age only, so that a live status does not take its order out again.
`handle_cancel` and `handle_modify` drop a command for an order in the table.

`Inactive` is among the statuses that are recorded, and `parse_status` makes `Inactive`
of every word that it does not know.  `is_terminal` does not count it; what follows is
shown for both ways to count.

## Main results

* `handleCancel_eq`, `handleModify_eq` — the two handlers, around the check of the table.
* `dropsOnlyEnded_iff` — what the table must not hold.
* `drops_only_ended_iff` — the sequences of messages after which no command for a live
  order is dropped, however the pump, its lags and the eviction fall.
-/

namespace Corsair.Ports.StaleCommands

open Corsair.Verified
open Corsair.Verified.Runs
open Corsair.Verified.Table
open Corsair.Ports.Portfolio (Date)
open Corsair.Ports.BrokerApi
open Corsair.Ports.KillRuntime (BrokerError)
open Corsair.Ports.Commands
open Corsair.Ports.NativeDecoder
open Corsair.Ports.NativeBroker
open Corsair.Ports.NativeOrders
open Corsair.Ports.BrokerHalt
open Corsair.Ports.OrderLife (Routed routed)
open Corsair.Ports.RestingSweep

variable {F : Type}

/-! ## The table of terminated orders -/

/-- The statuses for which `pump_status` records an order. -/
def recordsTerminal : OrderStatus → Bool
  | .filled | .cancelled | .rejected | .inactive => true
  | _ => false

/-- `RECENTLY_TERMINATED_TTL_NS`. -/
def recentlyTerminatedTtlNs : Nat := 60000000000

/-- The adapter, the broadcasts that `pump_status` has not read, its table, and for
every order the status that was routed last. -/
structure StaleState (F : Type) where
  adapter : BrokerState F
  channel : List (OrderStatusUpdate F)
  recentlyTerminated : AList (fun _ : Nat => Nat)
  last : Nat → Option OrderStatus

/-- The status updates among the broadcasts. -/
def broadcasts (out : List (Outbound F)) : List (OrderStatusUpdate F) :=
  out.filterMap fun
    | .status update => some update
    | _ => none

/-- The order and the status that a message is about. -/
def statusOf : InboundMsg F → Option (Nat × OrderStatus)
  | .orderStatus o => some (asU64 o.orderId, parseStatus o.status)
  | _ => none

/-- What was routed last, after a message. -/
def note (last : Nat → Option OrderStatus) (r : Routed F) : Nat → Option OrderStatus :=
  match statusOf r.msg with
  | some (id, status) => Function.update last id (some status)
  | none => last

/-- `pump_status`, on the next broadcast. -/
def pumpStatus (s : StaleState F) (now : Nat) : StaleState F :=
  match s.channel with
  | [] => s
  | update :: rest =>
      { s with
        channel := rest
        recentlyTerminated :=
          if recordsTerminal update.status then s.recentlyTerminated.insert update.orderId now
          else s.recentlyTerminated }

/-- The adapter routes a message; the pump reads a broadcast, or is told that it has
missed the `n` oldest ones; `periodic_terminated_evict` wakes up. -/
inductive Turn (F : Type)
  | routes (r : Routed F)
  | pumps (now : Nat)
  | lagged (n : Nat)
  | evicts (now : Nat)

/-- Before any message. -/
def start : StaleState F := ⟨emptyState, [], ∅, fun _ => none⟩

/-- The message that a turn routes. -/
def Turn.message : Turn F → Option (Routed F)
  | .routes r => some r
  | _ => none

/-! ## Orders that have ended -/

/-- The status ends its order.  `Inactive` is counted as the table counts it, or as
`is_terminal` does. -/
def ends (inactive : Bool) (status : OrderStatus) : Bool :=
  status.isTerminal || (inactive && status == .inactive)

/-- The status that was routed last has ended the order. -/
def Ended (inactive : Bool) (last : Nat → Option OrderStatus) (id : Nat) : Prop :=
  ∃ status, last id = some status ∧ ends inactive status = true

theorem recordsTerminal_of_ends {inactive : Bool} {status : OrderStatus}
    (h : ends inactive status = true) : recordsTerminal status = true := by
  cases status <;> simp_all [ends, recordsTerminal, OrderStatus.isTerminal]

theorem ends_iff_of_recordsTerminal {inactive : Bool} {status : OrderStatus}
    (h : recordsTerminal status = true) :
    ends inactive status = true ↔ (status = .inactive → inactive = true) := by
  cases status <;> simp_all [ends, recordsTerminal, OrderStatus.isTerminal]

/-- The message is no `Inactive` that is not counted, and no live status for an order
that has ended. -/
def InOrder (inactive : Bool) (last : Nat → Option OrderStatus) (r : Routed F) : Prop :=
  ∀ id status, statusOf r.msg = some (id, status) →
    (status = .inactive → inactive = true) ∧
      (Ended inactive last id → ends inactive status = true)

/-- A message says nothing of the other orders. -/
theorem note_of_ne {last : Nat → Option OrderStatus} {r : Routed F} {id : Nat}
    (h : ∀ status, statusOf r.msg ≠ some (id, status)) : note last r id = last id := by
  unfold note
  cases hstatus : statusOf r.msg with
  | none => rfl
  | some about =>
      obtain ⟨id', status⟩ := about
      refine Function.update_of_ne (fun hid => h status ?_) _ _
      rw [hstatus, hid]

theorem note_self {last : Nat → Option OrderStatus} {r : Routed F} {id : Nat}
    {status : OrderStatus} (h : statusOf r.msg = some (id, status)) :
    note last r id = some status := by
  simp [note, h]

/-- What has ended stays ended after a message in order. -/
theorem ended_note {inactive : Bool} {last : Nat → Option OrderStatus} {r : Routed F}
    (hin : InOrder inactive last r) {id : Nat} (h : Ended inactive last id) :
    Ended inactive (note last r) id := by
  by_cases habout : ∃ status, statusOf r.msg = some (id, status)
  · obtain ⟨status, hstatus⟩ := habout
    exact ⟨status, note_self hstatus, (hin id status hstatus).2 h⟩
  · obtain ⟨status, hlast, hends⟩ := h
    refine ⟨status, ?_, hends⟩
    rw [note_of_ne fun status' hstatus => habout ⟨status', hstatus⟩, hlast]

/-! ## What the pump reads -/

/-- The pump records the order of the status that it reads, if it has ended. -/
theorem mem_pumpStatus_iff {s : StaleState F} {now id : Nat} :
    id ∈ (pumpStatus s now).recentlyTerminated ↔ id ∈ s.recentlyTerminated ∨
      ∃ update ∈ s.channel.head?, recordsTerminal update.status = true ∧ id = update.orderId := by
  unfold pumpStatus
  cases hchannel : s.channel with
  | nil => simp
  | cons update rest =>
      by_cases hrecords : recordsTerminal update.status = true
      · simp [hrecords, or_comm]
      · simp [hrecords]

theorem channel_pumpStatus (s : StaleState F) (now : Nat) :
    (pumpStatus s now).channel = s.channel.tail := by
  unfold pumpStatus
  split
  · rename_i hchannel
    rw [hchannel, List.tail_nil]
  · rename_i update rest hchannel
    rw [hchannel, List.tail_cons]

theorem last_pumpStatus (s : StaleState F) (now : Nat) : (pumpStatus s now).last = s.last := by
  unfold pumpStatus
  split
  · rfl
  · rfl

theorem broadcasts_append (out out' : List (Outbound F)) :
    broadcasts (out ++ out') = broadcasts out ++ broadcasts out' :=
  List.filterMap_append

theorem broadcasts_answer (b : BrokerState F) (id : Int) (result : Except BrokerError Unit) :
    broadcasts (b.answer id result) = [] := by
  unfold BrokerState.answer
  cases b.pendingPlaceAcks.lookup id with
  | none => rfl
  | some waiter => rfl

variable [F64 F]

/-- One turn. -/
def step (fmt : TextFormats F Date) (s : StaleState F) : Turn F → StaleState F
  | .routes r =>
      let routing := route fmt s.adapter r.msg r.now r.later
      { s with
        adapter := routing.1
        channel := s.channel ++ broadcasts routing.2
        last := note s.last r }
  | .pumps now => pumpStatus s now
  | .lagged n => { s with channel := s.channel.drop n }
  | .evicts now =>
      { s with
        recentlyTerminated :=
          retain s.recentlyTerminated fun _ ts => now - ts < recentlyTerminatedTtlNs }

/-- A message is broadcast as the status that it is about. -/
theorem broadcasts_route (fmt : TextFormats F Date) (b : BrokerState F) (r : Routed F) :
    (broadcasts (route fmt b r.msg r.now r.later).2).map (fun u => (u.orderId, u.status)) =
      (statusOf r.msg).toList := by
  obtain ⟨msg, now, later⟩ := r
  cases msg with
  | openOrder o => simp [route, routeOpenOrder, broadcasts_answer, statusOf]
  | orderStatus o =>
      by_cases hack : resolvesWaiter (parseStatus o.status) = true
      · simp only [route, routeOrderStatus, hack, if_true, broadcasts_append, broadcasts_answer]
        rfl
      · simp only [route, routeOrderStatus, hack, Bool.false_eq_true, if_false]
        rfl
  | error e =>
      by_cases horder : 0 < e.reqId ∧ isOrderError e.errorCode = true
      · simp only [route, routeError, if_pos horder, broadcasts_append, broadcasts_answer]
        rfl
      · simp only [route, routeError, if_neg horder]
        rfl
  | other typeId => rfl

/-! ## The handlers -/

/-- `handle_cancel`, from the decoded command on. -/
def askCancel (env : BrokerEnv F) (r : Reading F) (cmd : CancelOrderCmd) : Option Frame := do
  guard (env.shadow = false)
  guard (r.recentlyTerminated cmd.orderId = false)
  return cancelOrder cmd.orderId

/-- What `handle_modify` asks the adapter for. -/
def modifyRequest (env : BrokerEnv F) (r : Reading F) (cmd : ModifyOrderCmd) :
    ModifyOrderReq F where
  price := cmd.price.map env.double
  qty := cmd.qty
  gtdUntilUtc := cmd.gtdSeconds.map fun seconds => r.utcNow + (seconds : Nat) * 1000000000

/-- `handle_modify`, from the decoded command on: the answer of the adapter, if it is
asked. -/
def askModify (env : BrokerEnv F) (b : BrokerState F) (r : Reading F) (waiter : Nat)
    (cmd : ModifyOrderCmd) : Option (Except BrokerError (OrderFrame F × BrokerState F)) := do
  guard (env.shadow = false)
  guard (r.recentlyTerminated cmd.orderId = false)
  return prepareModify env.fmt env.nativeAccount b cmd.orderId waiter r.now
    (modifyRequest env r cmd)

omit [F64 F] in
theorem handleCancel_eq (env : BrokerEnv F) (r : Reading F) (body : List UInt8) :
    handleCancel env r body =
      (fromSlice env.read CancelOrderCmd.ofEntries body).bind (askCancel env r) := rfl

theorem handleModify_eq (env : BrokerEnv F) (b : BrokerState F) (r : Reading F) (waiter : Nat)
    (body : List UInt8) :
    handleModify env b r waiter body =
      (fromSlice env.read ModifyOrderCmd.ofEntries body).bind fun cmd =>
        (askModify env b r waiter cmd).bind Except.toOption := by
  unfold handleModify askModify
  cases fromSlice env.read ModifyOrderCmd.ofEntries body with
  | none => rfl
  | some cmd =>
      by_cases hlive : env.shadow = false
      · by_cases hstale : r.recentlyTerminated cmd.orderId = false
        · simp [hlive, hstale, modifyRequest]
        · simp [hlive, hstale]
      · simp [hlive]

omit [F64 F] in
/-- Outside shadow mode a cancel is sent unless its order is in the table. -/
theorem askCancel_eq {env : BrokerEnv F} (hlive : env.shadow = false) (r : Reading F)
    (cmd : CancelOrderCmd) :
    askCancel env r cmd =
      if r.recentlyTerminated cmd.orderId then none else some (cancelOrder cmd.orderId) := by
  cases hstale : r.recentlyTerminated cmd.orderId with
  | true => simp [askCancel, hlive, hstale]
  | false => simp [askCancel, hlive, hstale]

/-- Outside shadow mode the adapter is asked unless the order is in the table. -/
theorem askModify_eq {env : BrokerEnv F} (hlive : env.shadow = false) (b : BrokerState F)
    (r : Reading F) (waiter : Nat) (cmd : ModifyOrderCmd) :
    askModify env b r waiter cmd =
      if r.recentlyTerminated cmd.orderId then none
      else some (prepareModify env.fmt env.nativeAccount b cmd.orderId waiter r.now
        (modifyRequest env r cmd)) := by
  cases hstale : r.recentlyTerminated cmd.orderId with
  | true => simp [askModify, hlive, hstale]
  | false => simp [askModify, hlive, hstale]

/-! ## What is dropped -/

/-- A handler reads the table. -/
def Reads (r : Reading F) (s : StaleState F) : Prop :=
  ∀ id, r.recentlyTerminated id = true ↔ id ∈ s.recentlyTerminated

/-- Outside shadow mode a command is dropped before it gets to the adapter only if its
order has ended, and a cancel for an order that has not is sent. -/
structure DropsOnlyEnded (inactive : Bool) (s : StaleState F) : Prop where
  cancel : ∀ env r cmd, env.shadow = false → Reads r s →
    askCancel env r cmd = none → Ended inactive s.last cmd.orderId
  modify : ∀ env r waiter cmd, env.shadow = false → Reads r s →
    askModify env s.adapter r waiter cmd = none → Ended inactive s.last cmd.orderId
  live : ∀ env r cmd, env.shadow = false → Reads r s →
    ¬ Ended inactive s.last cmd.orderId → askCancel env r cmd = some (cancelOrder cmd.orderId)

/-- **What is dropped is what the table holds.** -/
theorem dropsOnlyEnded_iff (fmt : TextFormats F Date) (inactive : Bool) (s : StaleState F) :
    DropsOnlyEnded inactive s ↔ ∀ id ∈ s.recentlyTerminated, Ended inactive s.last id := by
  constructor
  · intro h id hid
    let env : BrokerEnv F := ⟨fmt, fun _ => none, fun _ => F64.zero, false, "", ""⟩
    let r : Reading F := ⟨∅, fun id => decide (id ∈ s.recentlyTerminated), 0, 0, 0⟩
    have hreads : Reads r s := fun id => decide_eq_true_iff
    refine h.cancel env r ⟨"cancel_order", id⟩ rfl hreads ?_
    rw [askCancel_eq rfl, if_pos ((hreads id).mpr hid)]
  · intro h
    refine ⟨fun env r cmd hlive hreads hnone => ?_, fun env r waiter cmd hlive hreads hnone => ?_,
      fun env r cmd hlive hreads hnot => ?_⟩
    · rw [askCancel_eq hlive] at hnone
      by_cases hstale : r.recentlyTerminated cmd.orderId = true
      · exact h _ ((hreads _).mp hstale)
      · rw [if_neg hstale] at hnone
        cases hnone
    · rw [askModify_eq hlive] at hnone
      by_cases hstale : r.recentlyTerminated cmd.orderId = true
      · exact h _ ((hreads _).mp hstale)
      · rw [if_neg hstale] at hnone
        cases hnone
    · rw [askCancel_eq hlive, if_neg fun hstale => hnot (h _ ((hreads _).mp hstale))]

/-! ## Every schedule -/

/-- The orders in the table have ended, and so have those that the pump has yet to
record. -/
structure OnlyEnded (inactive : Bool) (s : StaleState F) : Prop where
  recorded : ∀ id ∈ s.recentlyTerminated, Ended inactive s.last id
  underway : ∀ update ∈ s.channel, recordsTerminal update.status = true →
    Ended inactive s.last update.orderId

theorem OnlyEnded.routes {inactive : Bool} {fmt : TextFormats F Date} {s : StaleState F}
    {r : Routed F} (h : OnlyEnded inactive s) (hin : InOrder inactive s.last r) :
    OnlyEnded inactive (step fmt s (.routes r)) where
  recorded := fun id hid => ended_note hin (h.recorded id hid)
  underway := by
    intro update hupdate hrecords
    rcases List.mem_append.mp hupdate with hbefore | hnew
    · exact ended_note hin (h.underway update hbefore hrecords)
    · have hmem : (update.orderId, update.status) ∈ (statusOf r.msg).toList := by
        rw [← broadcasts_route fmt s.adapter r]
        exact List.mem_map_of_mem hnew
      have habout : statusOf r.msg = some (update.orderId, update.status) :=
        Option.mem_toList.mp hmem
      refine ⟨update.status, note_self habout, ?_⟩
      exact (ends_iff_of_recordsTerminal hrecords).mpr (hin _ _ habout).1

theorem OnlyEnded.step {inactive : Bool} {fmt : TextFormats F Date} {s : StaleState F}
    (t : Turn F) (hin : ∀ r, t.message = some r → InOrder inactive s.last r)
    (h : OnlyEnded inactive s) : OnlyEnded inactive (step fmt s t) := by
  cases t with
  | routes r => exact h.routes (hin r rfl)
  | pumps now =>
      have hlast := last_pumpStatus s now
      constructor
      · intro id hid
        show Ended inactive (pumpStatus s now).last id
        rw [hlast]
        rcases mem_pumpStatus_iff.mp hid with hbefore | ⟨update, hupdate, hrecords, rfl⟩
        · exact h.recorded id hbefore
        · exact h.underway update (List.mem_of_mem_head? hupdate) hrecords
      · intro update hupdate hrecords
        show Ended inactive (pumpStatus s now).last update.orderId
        rw [hlast]
        have hmem : update ∈ s.channel.tail := channel_pumpStatus s now ▸ hupdate
        exact h.underway update (List.mem_of_mem_tail hmem) hrecords
  | lagged n =>
      exact ⟨h.recorded, fun update hupdate => h.underway update (List.mem_of_mem_drop hupdate)⟩
  | evicts now => exact ⟨fun id hid => h.recorded id (mem_of_mem_retain hid), h.underway⟩

/-- What was routed last is seen of a run. -/
theorem last_step (fmt : TextFormats F Date) (s : StaleState F) (t : Turn F) :
    (step fmt s t).last = t.message.elim s.last (note s.last) := by
  cases t with
  | routes r => rfl
  | pumps now => exact last_pumpStatus s now
  | lagged n => rfl
  | evicts now => rfl

/-- **Messages in order.** However the pump, its lags and the eviction fall, the table
holds only what has ended. -/
theorem onlyEnded_run (inactive : Bool) (fmt : TextFormats F Date) (schedule : List (Turn F))
    (hmeets : Meets note (InOrder inactive) (fun _ => none) (schedule.filterMap Turn.message)) :
    OnlyEnded inactive (run (step fmt) start schedule) := by
  have hfirst : OnlyEnded inactive (start : StaleState F) := by
    constructor
    · intro id hid
      cases AList.notMem_empty id hid
    · intro update hupdate
      cases hupdate
  exact run_invariant_of_observed StaleState.last Turn.message (last_step fmt)
    (OnlyEnded inactive) (fun s t hin h => OnlyEnded.step t hin h) hfirst schedule hmeets

/-! ## A pump that keeps up -/

/-- Each message is read from the channel as soon as it is routed. -/
def eager (msgs : List (Routed F)) : List (Turn F) :=
  msgs.flatMap fun r => [.routes r, .pumps r.later]

/-- The state when a message has been routed and read. -/
def turn (fmt : TextFormats F Date) (s : StaleState F) (r : Routed F) : StaleState F :=
  pumpStatus (step fmt s (.routes r)) r.later

theorem run_eager (fmt : TextFormats F Date) (s : StaleState F) (msgs : List (Routed F)) :
    run (step fmt) s (eager msgs) = run (turn fmt) s msgs := by
  induction msgs generalizing s with
  | nil => rfl
  | cons r rest ih => exact ih (turn fmt s r)

omit [F64 F] in
theorem message_eager (msgs : List (Routed F)) :
    (eager msgs).filterMap Turn.message = msgs := by
  induction msgs with
  | nil => rfl
  | cons r rest ih => exact congrArg (r :: ·) ih

/-- The pump has read everything, and has recorded every order that has ended. -/
structure Recorded (inactive : Bool) (s : StaleState F) : Prop where
  read : s.channel = []
  ended : ∀ id, Ended inactive s.last id → id ∈ s.recentlyTerminated

/-- What a turn leaves of a state in which everything was read. -/
theorem turn_of_read (fmt : TextFormats F Date) {s : StaleState F} (hread : s.channel = [])
    (r : Routed F) :
    (turn fmt s r).channel = [] ∧ (turn fmt s r).last = note s.last r ∧
      ∀ id, id ∈ (turn fmt s r).recentlyTerminated ↔ id ∈ s.recentlyTerminated ∨
        ∃ status, statusOf r.msg = some (id, status) ∧ recordsTerminal status = true := by
  have habout := broadcasts_route fmt s.adapter r
  have hchannel : (step fmt s (.routes r)).channel =
      broadcasts (route fmt s.adapter r.msg r.now r.later).2 := by
    show s.channel ++ _ = _
    rw [hread, List.nil_append]
  refine ⟨?_, last_pumpStatus _ _, fun id => ?_⟩
  · show (pumpStatus _ _).channel = []
    rw [channel_pumpStatus, hchannel]
    have hlength := congrArg List.length habout
    rw [List.length_map] at hlength
    refine List.eq_nil_of_length_eq_zero ?_
    have hone : (statusOf r.msg).toList.length ≤ 1 := by
      cases statusOf r.msg with
      | none => exact Nat.zero_le 1
      | some about => exact le_rfl
    rw [List.length_tail]
    omega
  · show id ∈ (pumpStatus _ _).recentlyTerminated ↔ _
    have hhead : (step fmt s (.routes r)).channel.head?.map (fun u => (u.orderId, u.status)) =
        statusOf r.msg := by
      rw [hchannel, ← List.head?_map, habout]
      cases statusOf r.msg with
      | none => rfl
      | some about => rfl
    rw [mem_pumpStatus_iff, ← hhead]
    refine or_congr Iff.rfl ?_
    constructor
    · rintro ⟨update, hupdate, hrecords, rfl⟩
      exact ⟨update.status, Option.map_eq_some_iff.mpr ⟨update, hupdate, rfl⟩, hrecords⟩
    · rintro ⟨status, hread, hrecords⟩
      obtain ⟨update, hupdate, hsame⟩ := Option.map_eq_some_iff.mp hread
      obtain ⟨rfl, rfl⟩ := Prod.mk.inj hsame
      exact ⟨update, hupdate, hrecords, rfl⟩

theorem Recorded.turn {inactive : Bool} {fmt : TextFormats F Date} {s : StaleState F}
    (h : Recorded inactive s) (r : Routed F) : Recorded inactive (turn fmt s r) := by
  obtain ⟨hread, hlast, hmem⟩ := turn_of_read fmt h.read r
  refine ⟨hread, fun id hended => ?_⟩
  obtain ⟨status, hstatus, hends⟩ := hended
  rw [hlast] at hstatus
  rw [hmem]
  by_cases habout : ∃ status, statusOf r.msg = some (id, status)
  · obtain ⟨status', hstatus'⟩ := habout
    rw [note_self hstatus'] at hstatus
    obtain rfl := Option.some.inj hstatus
    exact .inr ⟨status', hstatus', recordsTerminal_of_ends hends⟩
  · rw [note_of_ne fun status' hstatus' => habout ⟨status', hstatus'⟩] at hstatus
    exact .inl (h.ended id ⟨status, hstatus, hends⟩)

/-- **One message.** Where the table holds only what has ended after it, the message was
in order. -/
theorem inOrder_of_turn {inactive : Bool} {fmt : TextFormats F Date} {s : StaleState F}
    (h : Recorded inactive s) (r : Routed F)
    (hafter : ∀ id ∈ (turn fmt s r).recentlyTerminated, Ended inactive (turn fmt s r).last id) :
    InOrder inactive s.last r := by
  obtain ⟨-, hlast, hmem⟩ := turn_of_read fmt h.read r
  intro id status habout
  have hends (hin : id ∈ (turn fmt s r).recentlyTerminated) : ends inactive status = true := by
    obtain ⟨status', hstatus', hends⟩ := hafter id hin
    rw [hlast, note_self habout] at hstatus'
    obtain rfl := Option.some.inj hstatus'
    exact hends
  constructor
  · rintro rfl
    have hrecorded := hends ((hmem id).mpr (.inr ⟨.inactive, habout, rfl⟩))
    exact (ends_iff_of_recordsTerminal rfl).mp hrecorded rfl
  · intro hended
    exact hends ((hmem id).mpr (.inl (h.ended id hended)))

theorem inOrder_of_turns {inactive : Bool} (fmt : TextFormats F Date) (msgs : List (Routed F))
    {s : StaleState F} (h : Recorded inactive s)
    (hall : ∀ front, front <+: msgs → DropsOnlyEnded inactive (run (turn fmt) s front)) :
    Meets note (InOrder inactive) s.last msgs := by
  induction msgs generalizing s with
  | nil => trivial
  | cons r rest ih =>
      obtain ⟨-, hlast, -⟩ := turn_of_read fmt h.read r
      have hfirst : DropsOnlyEnded inactive (turn fmt s r) := hall [r] (by simp)
      have hin := inOrder_of_turn h r ((dropsOnlyEnded_iff fmt inactive _).mp hfirst)
      have hrest := ih (h.turn r) fun front hfront =>
        hall (r :: front) (List.cons_prefix_cons.mpr ⟨rfl, hfront⟩)
      rw [hlast] at hrest
      exact ⟨hin, hrest⟩

/-- **Stale commands.** While some messages are routed, no command is dropped for an
order that has not ended, whenever the pump reads, lags or has its table cleared, exactly
if the messages are in order. -/
theorem drops_only_ended_iff (fmt : TextFormats F Date) (inactive : Bool)
    (msgs : List (Routed F)) :
    (∀ schedule, schedule.filterMap Turn.message <+: msgs →
        DropsOnlyEnded inactive (run (step fmt) start schedule)) ↔
      Meets note (InOrder inactive) (fun _ => none) msgs := by
  constructor
  · intro hall
    have hfirst : Recorded inactive (start : StaleState F) := by
      refine ⟨rfl, fun id hended => ?_⟩
      obtain ⟨status, hstatus, -⟩ := hended
      cases hstatus
    refine inOrder_of_turns fmt msgs hfirst fun front hfront => ?_
    rw [← run_eager]
    exact hall (eager front) (by rwa [message_eager])
  · rintro hmeets schedule ⟨back, hback⟩
    rw [← hback] at hmeets
    exact (dropsOnlyEnded_iff fmt inactive _).mpr
      (onlyEnded_run inactive fmt schedule hmeets.front).recorded

/-- The bid is inactive for a while, and is then live. -/
def reactivated : List (Routed ℚ) :=
  routed [openOrder17, orderStatus17 "Inactive" "0" "1", orderStatus17 "Submitted" "0" "1"]

/-- The trader's amend of the bid. -/
def amendBid : List UInt8 :=
  encodeModifyInto [] {
    tsNs := 1, orderId := 17, price := 0x4000000000000000, gtdSeconds := 30,
    triggeringTickBrokerRecvNs := none }

/-- The bid rests at the exchange.  Its amend would be sent, but for the table; it is
dropped as stale, and so is its cancel. -/
theorem reactivated_order_not_cancelled :
    let s := run (step plainFormats) start (eager reactivated)
    let r := { call6025Reading with
      recentlyTerminated := fun id => decide (id ∈ s.recentlyTerminated) }
    s.last 17 = some .submitted ∧
      s.adapter.openOrders.lookup 17 = some (order17 .submitted 0) ∧
      (handleModify liveEnv s.adapter call6025Reading 1 amendBid).isSome = true ∧
      (handleModify liveEnv s.adapter r 1 amendBid).isSome = false ∧
      askCancel liveEnv r ⟨"cancel_order", 17⟩ = none ∧
      ¬ DropsOnlyEnded true s ∧ ¬ DropsOnlyEnded false s := by
  intro s r
  have hlast : s.last 17 = some .submitted := by decide +kernel
  have hmem : 17 ∈ s.recentlyTerminated := by decide +kernel
  have hlive (inactive : Bool) : ¬ DropsOnlyEnded inactive s := by
    intro hdrops
    obtain ⟨status, hstatus, hends⟩ :=
      (dropsOnlyEnded_iff plainFormats inactive s).mp hdrops 17 hmem
    obtain rfl := Option.some.inj (hlast.symm.trans hstatus)
    simp [ends, OrderStatus.isTerminal] at hends
  exact ⟨hlast, by decide +kernel, by decide +kernel, by decide +kernel, by decide +kernel,
    hlive true, hlive false⟩

end Corsair.Ports.StaleCommands
