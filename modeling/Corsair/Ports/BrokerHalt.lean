import Corsair.Verified.Table
import Corsair.Ports.CommandPump
import Corsair.Ports.Commands
import Corsair.Ports.NativeOrders
import Corsair.Ports.RestingSweep

/-!
# Order commands around a kill, on the broker's side

`dispatch_commands` takes the trader's commands off the channel and spawns a
task for each order command.  The task decodes it, checks it and hands it to
the adapter.  Kills are fired by other tasks, which sweep the open-order cache
afterwards.  No task that handles a command reads the kill slot: a halt is the
trader's to keep, who is told of the kill.

Commands carry tickets, their positions in `log`, the list of everything the
trader wrote.  The ring and the channel are one queue here, as
`Corsair.Ports.CommandPump` shows that they deliver in order.  A handler is
followed up to its send, after which it sends nothing.

## Main results

* `step_flow` — the ways in which a step moves a command.
* `order_sent_while_killed` — an order frame is sent while the monitor is
  killed.
* `orders_stem_from_commands` — from any state on, the order frames that are
  sent are those of the run without its kills; each is for an order command
  that was in flight or is written later, at most one for each.
* `drained_broker_sends_nothing` — where no command is in flight and none is
  written, nothing is sent.
-/

namespace Corsair.Ports.BrokerHalt

open Corsair.Verified
open Corsair.Verified.Runs
open Corsair.Verified.Table
open Corsair.Verified.MsgPack
open Corsair.Ports.Portfolio (Date)
open Corsair.Ports.BrokerApi
open Corsair.Ports.KillRuntime (KillState KillStep)
open Corsair.Ports.RiskMonitor (RiskConfig)
open Corsair.Ports.CommandPump (ServerCommand)
open Corsair.Ports.Commands
open Corsair.Ports.TraderState (OptionKey strikeKey)
open Corsair.Ports.NativeDecoder (TextFormats Frame)
open Corsair.Ports.NativeBroker
open Corsair.Ports.NativeOrders
open Corsair.Ports.RestingSweep

/-- What the broker runs with: the text formats, the reader of command bodies,
the double of a bit pattern, the mode, and the account of the runtime's and of
the adapter's configuration. -/
structure BrokerEnv (F : Type) where
  fmt : TextFormats F Date
  read : List UInt8 → Option (List (String × Scalar))
  double : UInt64 → F
  shadow : Bool
  account : String
  nativeAccount : String

/-- What a handler reads while it runs: the contract map, the orders known to
be terminal, the answer of `alloc_order_id`, and two clocks. -/
structure Reading (F : Type) where
  contractByKey : AList (fun _ : OptionKey => Contract F)
  recentlyTerminated : Nat → Bool
  orderId : Int
  utcNow : Int
  now : Nat

section Handlers

variable {F : Type} [F64 F]

/-- `strike_key_i64`; the trader's `strike_key` is the same function. -/
def strikeKeyI64 (strike : F) : Int := strikeKey strike

/-- `handle_place`, the request that it makes of a decoded command. -/
def placeRequest (env : BrokerEnv F) (r : Reading F) (cmd : PlaceOrderCmd) :
    Option (PlaceOrderReq F) := do
  let right ← cmd.right.toList.head?
  let right := right.toUpper
  guard (right = 'C' ∨ right = 'P')
  let contract ← r.contractByKey.lookup (strikeKeyI64 (env.double cmd.strike), cmd.expiry, right)
  let side ← parseSide cmd.side
  let tif : TimeInForce :=
    if cmd.tif = "IOC" then .ioc
    else if cmd.tif = "DAY" then .day
    else if cmd.tif = "GTC" then .gtc
    else .gtd
  return {
    contract
    side
    qty := (max cmd.qty 0).toNat
    orderType := if cmd.orderType = "market" then .market else .limit
    price := some (env.double cmd.price)
    tif
    gtdUntilUtc :=
      if tif = .gtd then some (r.utcNow + (cmd.gtdSeconds.getD 30 : Nat) * 1000000000) else none
    clientOrderRef := cmd.clientOrderRef.getD ""
    account := some env.account }

/-- `handle_place`, up to the send of `place_order`. -/
def handlePlace (env : BrokerEnv F) (s : BrokerState F) (r : Reading F) (waiter : Nat)
    (body : List UInt8) : Option (OrderFrame F × BrokerState F) := do
  let cmd ← fromSlice env.read PlaceOrderCmd.ofEntries body
  guard (env.shadow = false)
  let req ← placeRequest env r cmd
  (preparePlace env.fmt env.nativeAccount s r.orderId waiter r.now req).toOption

/-- `handle_modify`, up to the send of `modify_order`. -/
def handleModify (env : BrokerEnv F) (s : BrokerState F) (r : Reading F) (waiter : Nat)
    (body : List UInt8) : Option (OrderFrame F × BrokerState F) := do
  let cmd ← fromSlice env.read ModifyOrderCmd.ofEntries body
  guard (env.shadow = false)
  guard (r.recentlyTerminated cmd.orderId = false)
  let req : ModifyOrderReq F := {
    price := cmd.price.map env.double
    qty := cmd.qty
    gtdUntilUtc := cmd.gtdSeconds.map fun seconds => r.utcNow + (seconds : Nat) * 1000000000 }
  (prepareModify env.fmt env.nativeAccount s cmd.orderId waiter r.now req).toOption

omit [F64 F] in
/-- `handle_cancel`: the frame that it sends. -/
def handleCancel (env : BrokerEnv F) (r : Reading F) (body : List UInt8) : Option Frame := do
  let cmd ← fromSlice env.read CancelOrderCmd.ofEntries body
  guard (env.shadow = false)
  guard (r.recentlyTerminated cmd.orderId = false)
  return cancelOrder cmd.orderId

end Handlers

/-! ## The runtime -/

/-- A spawned task: it has not looked at its command, or it stands before the
send of its frame. -/
inductive Handler (F : Type)
  | spawned (cmd : ServerCommand)
  | sending (frame : OrderFrame F)

/-- The kill tasks, the adapter, the commands and their handlers, and what was
sent: order frames with the tickets of their commands, and cancels. -/
structure HaltState (F : Type) where
  kill : KillState F
  adapter : BrokerState F
  log : List ServerCommand
  queue : List (Nat × ServerCommand)
  handlers : AList (fun _ : Nat => Handler F)
  sent : List (Nat × OrderFrame F)
  cancels : List Frame

/-- One step of one party. -/
inductive HaltStep (F : Type)
  | kill (st : KillStep F)
  | write (cmd : ServerCommand)
  | dispatch
  | prepare (ticket : Nat) (r : Reading F)
  | send (ticket : Nat) (ok : Bool)
  | gateway (a : Arrival)

/-- The kinds of the commands that place or modify an order. -/
def isOrderKind (kind : String) : Bool := kind == "place_order" || kind == "modify_order"

/-- The kinds for which `dispatch_commands` spawns a task. -/
def spawnsTask (kind : String) : Bool := isOrderKind kind || kind == "cancel_order"

/-- The step is a kill task's, at its sweep. -/
def sweeps {F : Type} (s : KillState F) : KillStep F → Bool
  | .advance task =>
      match s.tasks task with
      | .sweeping _ => true
      | _ => false
  | _ => false

/-- The step is the kill tasks'. -/
def HaltStep.isKill {F : Type} : HaltStep F → Bool
  | .kill _ => true
  | _ => false

variable {F : Type}

/-- The handler's checks are over: it goes on to its send, or returns. -/
def HaltState.proceed (s : HaltState F) (ticket : Nat) :
    Option (OrderFrame F × BrokerState F) → HaltState F
  | some (frame, adapter) =>
      { s with adapter, handlers := s.handlers.insert ticket (.sending frame) }
  | none => { s with handlers := s.handlers.erase ticket }

/-- `send_raw` of a handler's frame. -/
def HaltState.send (s : HaltState F) (ticket : Nat) (ok : Bool) : HaltState F :=
  match s.handlers.lookup ticket with
  | some (.sending frame) =>
      if ok then
        { s with
          handlers := s.handlers.erase ticket
          sent := s.sent ++ [(ticket, frame)] }
      else
        { s with
          handlers := s.handlers.erase ticket
          adapter := sendFailed s.adapter frame.orderId }
  | _ => s

/-- `dispatch_commands` takes the next command.  Telemetry, heartbeats and
unknown kinds end here; a welcome is answered with a hello event. -/
def HaltState.dispatch (s : HaltState F) : HaltState F :=
  match s.queue with
  | [] => s
  | (ticket, cmd) :: rest =>
      if spawnsTask cmd.kind then
        { s with queue := rest, handlers := s.handlers.insert ticket (.spawned cmd) }
      else { s with queue := rest }

/-- A spawned handler runs up to its send. -/
def HaltState.prepare [F64 F] (env : BrokerEnv F) (s : HaltState F) (ticket : Nat)
    (r : Reading F) : HaltState F :=
  match s.handlers.lookup ticket with
  | some (.spawned cmd) =>
      if cmd.kind = "place_order" then
        s.proceed ticket (handlePlace env s.adapter r ticket cmd.body)
      else if cmd.kind = "modify_order" then
        s.proceed ticket (handleModify env s.adapter r ticket cmd.body)
      else
        { s with
          handlers := s.handlers.erase ticket
          cancels := s.cancels ++ (handleCancel env r cmd.body).toList }
  | _ => s

/-- One step. -/
def step [F64 F] (env : BrokerEnv F) (s : HaltState F) : HaltStep F → HaltState F
  | .kill st =>
      { s with
        kill := KillRuntime.step s.kill st
        cancels := s.cancels ++ if sweeps s.kill st then cancelAllResting s.adapter else [] }
  | .write cmd =>
      { s with log := s.log ++ [cmd], queue := s.queue ++ [(s.log.length, cmd)] }
  | .dispatch => s.dispatch
  | .prepare ticket r => s.prepare env ticket r
  | .send ticket ok => s.send ticket ok
  | .gateway a => { s with adapter := NativeBroker.dispatch env.fmt s.adapter a }

/-- A freshly started broker. -/
def start (cfg : RiskConfig F) : HaltState F :=
  { kill := KillRuntime.start cfg
    adapter := emptyState
    log := []
    queue := []
    handlers := ∅
    sent := []
    cancels := [] }

/-- The monitor is killed. -/
def HaltState.killed (s : HaltState F) : Bool := s.kill.risk.isKilled

/-- No step of the run sends an order frame while the monitor is killed. -/
def SilentWhileKilled [F64 F] (env : BrokerEnv F) (s : HaltState F)
    (schedule : List (HaltStep F)) : Prop :=
  ∀ front a back, schedule = front ++ a :: back → (run (step env) s front).killed = true →
    (step env (run (step env) s front) a).sent = (run (step env) s front).sent

/-! ## How a step moves a command -/

/-- The effect of a step on the log, the queue, the handlers and the frames
that were sent. -/
inductive Flow (s s' : HaltState F) : Prop
  | kept (hlog : s'.log = s.log) (hqueue : s'.queue = s.queue)
      (hhandlers : s'.handlers = s.handlers) (hsent : s'.sent = s.sent)
  | written (cmd : ServerCommand) (hlog : s'.log = s.log ++ [cmd])
      (hqueue : s'.queue = s.queue ++ [(s.log.length, cmd)])
      (hhandlers : s'.handlers = s.handlers) (hsent : s'.sent = s.sent)
  | dropped (entry : Nat × ServerCommand) (hfirst : s.queue = entry :: s'.queue)
      (hlog : s'.log = s.log) (hhandlers : s'.handlers = s.handlers) (hsent : s'.sent = s.sent)
  | spawned (ticket : Nat) (cmd : ServerCommand) (hfirst : s.queue = (ticket, cmd) :: s'.queue)
      (hlog : s'.log = s.log) (hhandlers : s'.handlers = s.handlers.insert ticket (.spawned cmd))
      (hsent : s'.sent = s.sent)
  | prepared (ticket : Nat) (cmd : ServerCommand) (frame : OrderFrame F)
      (hhandler : s.handlers.lookup ticket = some (.spawned cmd))
      (horder : isOrderKind cmd.kind = true)
      (hhandlers : s'.handlers = s.handlers.insert ticket (.sending frame))
      (hlog : s'.log = s.log) (hqueue : s'.queue = s.queue) (hsent : s'.sent = s.sent)
  | returned (ticket : Nat) (hhandlers : s'.handlers = s.handlers.erase ticket)
      (hlog : s'.log = s.log) (hqueue : s'.queue = s.queue) (hsent : s'.sent = s.sent)
  | sent (ticket : Nat) (frame : OrderFrame F)
      (hhandler : s.handlers.lookup ticket = some (.sending frame))
      (hhandlers : s'.handlers = s.handlers.erase ticket)
      (hsent : s'.sent = s.sent ++ [(ticket, frame)])
      (hlog : s'.log = s.log) (hqueue : s'.queue = s.queue)

theorem flow_dispatch (s : HaltState F) : Flow s s.dispatch := by
  unfold HaltState.dispatch
  cases hqueue : s.queue with
  | nil => exact .kept rfl rfl rfl rfl
  | cons entry rest =>
      obtain ⟨ticket, cmd⟩ := entry
      by_cases hspawns : spawnsTask cmd.kind = true
      · simp only [hspawns, if_true]
        exact .spawned ticket cmd hqueue rfl rfl rfl
      · simp only [hspawns]
        exact .dropped (ticket, cmd) hqueue rfl rfl rfl

theorem flow_proceed (s : HaltState F) {ticket : Nat} {cmd : ServerCommand}
    (hhandler : s.handlers.lookup ticket = some (.spawned cmd))
    (horder : isOrderKind cmd.kind = true) (result : Option (OrderFrame F × BrokerState F)) :
    Flow s (s.proceed ticket result) := by
  cases result with
  | none => exact .returned ticket rfl rfl rfl rfl
  | some prepared => exact .prepared ticket cmd prepared.1 hhandler horder rfl rfl rfl rfl

theorem flow_prepare [F64 F] (env : BrokerEnv F) (s : HaltState F) (ticket : Nat)
    (r : Reading F) : Flow s (s.prepare env ticket r) := by
  unfold HaltState.prepare
  split
  · rename_i cmd hhandler
    split
    · rename_i hkind
      exact flow_proceed s hhandler (by simp [isOrderKind, hkind]) _
    · split
      · rename_i hkind
        exact flow_proceed s hhandler (by simp [isOrderKind, hkind]) _
      · exact .returned ticket rfl rfl rfl rfl
  · exact .kept rfl rfl rfl rfl

theorem flow_send (s : HaltState F) (ticket : Nat) (ok : Bool) : Flow s (s.send ticket ok) := by
  unfold HaltState.send
  split
  · rename_i frame hhandler
    cases ok with
    | true => exact .sent ticket frame hhandler rfl rfl rfl rfl
    | false => exact .returned ticket rfl rfl rfl rfl
  · exact .kept rfl rfl rfl rfl

/-- Every step is one of the seven. -/
theorem step_flow [F64 F] (env : BrokerEnv F) (s : HaltState F) (a : HaltStep F) :
    Flow s (step env s a) := by
  cases a with
  | kill st => exact .kept rfl rfl rfl rfl
  | write cmd => exact .written cmd rfl rfl rfl rfl
  | dispatch => exact flow_dispatch s
  | prepare ticket r => exact flow_prepare env s ticket r
  | send ticket ok => exact flow_send s ticket ok
  | gateway a => exact .kept rfl rfl rfl rfl

/-! ## Every frame has its command -/

/-- The command of the ticket is in the ring, in the channel or with a
handler. -/
def HaltState.InFlight (s : HaltState F) (ticket : Nat) : Prop :=
  ticket ∈ s.queue.map Prod.fst ∨ ticket ∈ s.handlers

/-- The ticket is that of an order command. -/
def HaltState.IsOrder (s : HaltState F) (ticket : Nat) : Prop :=
  ∃ cmd, s.log[ticket]? = some cmd ∧ isOrderKind cmd.kind = true

/-- A ticket is in one place at a time, and what is there is its command's. -/
structure TicketInv (s : HaltState F) : Prop where
  queued : ∀ entry ∈ s.queue, s.log[entry.1]? = some entry.2
  spawned : ∀ ticket cmd, s.handlers.lookup ticket = some (.spawned cmd) →
    s.log[ticket]? = some cmd
  sending : ∀ ticket frame, s.handlers.lookup ticket = some (.sending frame) → s.IsOrder ticket
  isSent : ∀ entry ∈ s.sent, s.IsOrder entry.1
  queueNodup : (s.queue.map Prod.fst).Nodup
  queueUnhandled : ∀ entry ∈ s.queue, entry.1 ∉ s.handlers
  sentNodup : (s.sent.map Prod.fst).Nodup
  sentLanded : ∀ entry ∈ s.sent, ¬ s.InFlight entry.1

theorem start_ticketInv (cfg : RiskConfig F) : TicketInv (start cfg) where
  queued := by simp [start]
  spawned := by
    intro ticket cmd hlookup
    cases hlookup
  sending := by
    intro ticket frame hlookup
    cases hlookup
  isSent := by simp [start]
  queueNodup := List.nodup_nil
  queueUnhandled := by simp [start]
  sentNodup := List.nodup_nil
  sentLanded := by simp [start]

/-- A command that is in the log stays there. -/
theorem logged_of_isPrefix {front back : List ServerCommand} (hpre : front <+: back) {ticket : Nat}
    {cmd : ServerCommand} (hcmd : front[ticket]? = some cmd) : back[ticket]? = some cmd := by
  obtain ⟨rest, rfl⟩ := hpre
  have hlt := (List.getElem?_eq_some_iff.mp hcmd).1
  rw [List.getElem?_append_left hlt, hcmd]

theorem lt_of_logged {log : List ServerCommand} {ticket : Nat} {cmd : ServerCommand}
    (hcmd : log[ticket]? = some cmd) : ticket < log.length :=
  (List.getElem?_eq_some_iff.mp hcmd).1

section Handlers

variable {handlers : AList (fun _ : Nat => Handler F)} {ticket : Nat} {handler : Handler F}

theorem handled_of_lookup (h : handlers.lookup ticket = some handler) : ticket ∈ handlers := by
  apply AList.lookup_isSome.mp
  rw [h]
  rfl

theorem lookup_of_handled (h : ticket ∈ handlers) :
    ∃ handler, handlers.lookup ticket = some handler :=
  Option.isSome_iff_exists.mp (AList.lookup_isSome.mpr h)

end Handlers

/-- Writing keeps the tickets of the commands that were written. -/
theorem HaltState.IsOrder.mono {s s' : HaltState F} {ticket : Nat} (h : s.IsOrder ticket)
    (hlog : s.log <+: s'.log) : s'.IsOrder ticket := by
  obtain ⟨cmd, hcmd, horder⟩ := h
  exact ⟨cmd, logged_of_isPrefix hlog hcmd, horder⟩

theorem HaltState.IsOrder.of_eq {s s' : HaltState F} {ticket : Nat} (h : s.IsOrder ticket)
    (hlog : s'.log = s.log) : s'.IsOrder ticket := by
  apply h.mono
  rw [hlog]

theorem HaltState.IsOrder.lt {s : HaltState F} {ticket : Nat} (h : s.IsOrder ticket) :
    ticket < s.log.length := by
  obtain ⟨cmd, hcmd, _⟩ := h
  exact lt_of_logged hcmd

/-- A command in flight has been written. -/
theorem TicketInv.inFlight_lt {s : HaltState F} (h : TicketInv s) {ticket : Nat}
    (hflight : s.InFlight ticket) : ticket < s.log.length := by
  rcases hflight with hqueued | hhandled
  · obtain ⟨entry, hentry, rfl⟩ := List.mem_map.mp hqueued
    exact lt_of_logged (h.queued entry hentry)
  · obtain ⟨handler, hhandler⟩ := lookup_of_handled hhandled
    cases handler with
    | spawned cmd => exact lt_of_logged (h.spawned ticket cmd hhandler)
    | sending frame => exact (h.sending ticket frame hhandler).lt

/-- A frame that was sent has had its command. -/
theorem TicketInv.sent_lt {s : HaltState F} (h : TicketInv s) {ticket : Nat}
    (hsent : ticket ∈ s.sent.map Prod.fst) : ticket < s.log.length := by
  obtain ⟨entry, hentry, rfl⟩ := List.mem_map.mp hsent
  exact (h.isSent entry hentry).lt

/-- The ticket of a new command is fresh. -/
theorem TicketInv.written {s s' : HaltState F} (h : TicketInv s) {cmd : ServerCommand}
    (hlog : s'.log = s.log ++ [cmd]) (hqueue : s'.queue = s.queue ++ [(s.log.length, cmd)])
    (hhandlers : s'.handlers = s.handlers) (hsent : s'.sent = s.sent) : TicketInv s' := by
  have hgrown : s.log <+: s'.log := by
    rw [hlog]
    exact List.prefix_append s.log [cmd]
  have hfresh : ¬ s.InFlight s.log.length := by
    intro hflight
    have hlt := h.inFlight_lt hflight
    omega
  constructor
  · intro entry hentry
    rw [hqueue] at hentry
    rcases List.mem_append.mp hentry with hold | hnew
    · have hlogged := h.queued entry hold
      exact logged_of_isPrefix hgrown hlogged
    · rw [List.mem_singleton.mp hnew, hlog]
      exact List.getElem?_concat_length
  · intro ticket cmd' hhandler
    rw [hhandlers] at hhandler
    have hlogged := h.spawned ticket cmd' hhandler
    exact logged_of_isPrefix hgrown hlogged
  · intro ticket frame hhandler
    rw [hhandlers] at hhandler
    exact (h.sending ticket frame hhandler).mono hgrown
  · intro entry hentry
    rw [hsent] at hentry
    exact (h.isSent entry hentry).mono hgrown
  · have hunqueued : s.log.length ∉ s.queue.map Prod.fst := fun hmem => hfresh (.inl hmem)
    rw [hqueue, List.map_append, List.map_singleton, ← List.concat_eq_append]
    exact h.queueNodup.concat hunqueued
  · intro entry hentry hhandled
    rw [hqueue] at hentry
    rw [hhandlers] at hhandled
    rcases List.mem_append.mp hentry with hold | hnew
    · exact h.queueUnhandled entry hold hhandled
    · rw [List.mem_singleton.mp hnew] at hhandled
      exact hfresh (.inr hhandled)
  · rw [hsent]
    exact h.sentNodup
  · intro entry hentry hflight
    rw [hsent] at hentry
    have hlanded := h.sentLanded entry hentry
    have hlt := (h.isSent entry hentry).lt
    rcases hflight with hqueued | hhandled
    · rw [hqueue, List.map_append] at hqueued
      rcases List.mem_append.mp hqueued with hold | hnew
      · exact hlanded (.inl hold)
      · have hticket : entry.1 = s.log.length := List.mem_singleton.mp hnew
        omega
    · rw [hhandlers] at hhandled
      exact hlanded (.inr hhandled)

/-- Nothing is written or sent, and what is left is where it was. -/
theorem TicketInv.fewer {s s' : HaltState F} (h : TicketInv s) (hlog : s'.log = s.log)
    (hqueue : s'.queue.Sublist s.queue)
    (hhandlers : ∀ ticket handler, s'.handlers.lookup ticket = some handler →
      s.handlers.lookup ticket = some handler)
    (hsent : s'.sent = s.sent) : TicketInv s' := by
  have htickets : (s'.queue.map Prod.fst).Sublist (s.queue.map Prod.fst) := hqueue.map Prod.fst
  have hhandled : ∀ ticket, ticket ∈ s'.handlers → ticket ∈ s.handlers := by
    intro ticket hmem
    obtain ⟨handler, hhandler⟩ := lookup_of_handled hmem
    exact handled_of_lookup (hhandlers ticket handler hhandler)
  constructor
  · intro entry hentry
    rw [hlog]
    exact h.queued entry (hqueue.subset hentry)
  · intro ticket cmd hhandler
    rw [hlog]
    exact h.spawned ticket cmd (hhandlers ticket _ hhandler)
  · intro ticket frame hhandler
    have horder := h.sending ticket frame (hhandlers ticket _ hhandler)
    exact horder.of_eq hlog
  · intro entry hentry
    rw [hsent] at hentry
    exact (h.isSent entry hentry).of_eq hlog
  · exact h.queueNodup.sublist htickets
  · intro entry hentry hmem
    exact h.queueUnhandled entry (hqueue.subset hentry) (hhandled entry.1 hmem)
  · rw [hsent]
    exact h.sentNodup
  · intro entry hentry hflight
    rw [hsent] at hentry
    have hlanded := h.sentLanded entry hentry
    rcases hflight with hqueued | hmem
    · exact hlanded (.inl (htickets.subset hqueued))
    · exact hlanded (.inr (hhandled entry.1 hmem))

/-- A handler is put in the place of a ticket that is in flight and, if it is
queued, leaves the queue. -/
theorem TicketInv.handle {s s' : HaltState F} (h : TicketInv s) {ticket : Nat}
    {handler : Handler F} (hflight : s.InFlight ticket)
    (hlog : s'.log = s.log) (hqueue : s'.queue.Sublist s.queue)
    (hleft : ticket ∉ s'.queue.map Prod.fst)
    (hhandlers : s'.handlers = s.handlers.insert ticket handler) (hsent : s'.sent = s.sent)
    (hspawned : ∀ cmd, handler = .spawned cmd → s.log[ticket]? = some cmd)
    (hsending : ∀ frame, handler = .sending frame → s.IsOrder ticket) : TicketInv s' := by
  have htickets : (s'.queue.map Prod.fst).Sublist (s.queue.map Prod.fst) := hqueue.map Prod.fst
  constructor
  · intro entry hentry
    rw [hlog]
    exact h.queued entry (hqueue.subset hentry)
  · intro t cmd hother
    rw [hhandlers] at hother
    rw [hlog]
    rcases lookup_insert_eq_some hother with ⟨hsame, heq⟩ | hold
    · rw [hsame]
      exact hspawned cmd heq.symm
    · exact h.spawned t cmd hold
  · intro t frame hother
    rw [hhandlers] at hother
    rcases lookup_insert_eq_some hother with ⟨hsame, heq⟩ | hold
    · rw [hsame]
      exact (hsending frame heq.symm).of_eq hlog
    · exact (h.sending t frame hold).of_eq hlog
  · intro entry hentry
    rw [hsent] at hentry
    exact (h.isSent entry hentry).of_eq hlog
  · exact h.queueNodup.sublist htickets
  · intro entry hentry hhandled
    rw [hhandlers, AList.mem_insert] at hhandled
    rcases hhandled with hsame | hold
    · have hqueued := List.mem_map_of_mem (f := Prod.fst) hentry
      rw [hsame] at hqueued
      exact hleft hqueued
    · exact h.queueUnhandled entry (hqueue.subset hentry) hold
  · rw [hsent]
    exact h.sentNodup
  · intro entry hentry hentryFlight
    rw [hsent] at hentry
    have hlanded := h.sentLanded entry hentry
    rcases hentryFlight with hqueued | hhandled
    · exact hlanded (.inl (htickets.subset hqueued))
    · rw [hhandlers, AList.mem_insert] at hhandled
      rcases hhandled with hsame | hold
      · rw [hsame] at hlanded
        exact hlanded hflight
      · exact hlanded (.inr hold)

theorem TicketInv.sendFrame {s s' : HaltState F} (h : TicketInv s) {ticket : Nat}
    {frame : OrderFrame F} (hhandler : s.handlers.lookup ticket = some (.sending frame))
    (hhandlers : s'.handlers = s.handlers.erase ticket)
    (hsent : s'.sent = s.sent ++ [(ticket, frame)]) (hlog : s'.log = s.log)
    (hqueue : s'.queue = s.queue) : TicketInv s' := by
  -- without the new frame, the handler has only gone away
  have hfewer : TicketInv { s' with sent := s.sent } := by
    apply h.fewer
    · exact hlog
    · show s'.queue.Sublist s.queue
      rw [hqueue]
    · intro t other hother
      have hkept : (s.handlers.erase ticket).lookup t = some other := hhandlers ▸ hother
      exact (lookup_erase_eq_some hkept).2
    · rfl
  have hhandled : ticket ∈ s.handlers := handled_of_lookup hhandler
  have horder : s'.IsOrder ticket := (h.sending ticket frame hhandler).of_eq hlog
  constructor
  · exact hfewer.queued
  · exact hfewer.spawned
  · exact hfewer.sending
  · intro entry hentry
    rw [hsent] at hentry
    rcases List.mem_append.mp hentry with hold | hnew
    · exact hfewer.isSent entry hold
    · rw [List.mem_singleton.mp hnew]
      exact horder
  · exact hfewer.queueNodup
  · exact hfewer.queueUnhandled
  · have hunsent : ticket ∉ s.sent.map Prod.fst := by
      intro hticket
      obtain ⟨entry, hentry, rfl⟩ := List.mem_map.mp hticket
      exact h.sentLanded entry hentry (.inr hhandled)
    rw [hsent, List.map_append, List.map_singleton, ← List.concat_eq_append]
    exact h.sentNodup.concat hunsent
  · intro entry hentry hflight
    rw [hsent] at hentry
    rcases List.mem_append.mp hentry with hold | hnew
    · exact hfewer.sentLanded entry hold hflight
    · rw [List.mem_singleton.mp hnew] at hflight
      rcases hflight with hqueued | hleft
      · rw [hqueue] at hqueued
        obtain ⟨other, hother, heq⟩ := List.mem_map.mp hqueued
        have hunhandled := h.queueUnhandled other hother
        rw [heq] at hunhandled
        exact hunhandled hhandled
      · rw [hhandlers, AList.mem_erase] at hleft
        exact hleft.1 rfl

/-- **One step.** -/
theorem TicketInv.flow {s s' : HaltState F} (h : TicketInv s) (hflow : Flow s s') :
    TicketInv s' := by
  cases hflow with
  | kept hlog hqueue hhandlers hsent =>
      apply h.fewer hlog _ _ hsent
      · rw [hqueue]
      · intro t handler hhandler
        rwa [hhandlers] at hhandler
  | written cmd hlog hqueue hhandlers hsent => exact h.written hlog hqueue hhandlers hsent
  | dropped entry hfirst hlog hhandlers hsent =>
      apply h.fewer hlog _ _ hsent
      · rw [hfirst]
        exact List.sublist_cons_self _ _
      · intro t handler hhandler
        rwa [hhandlers] at hhandler
  | spawned ticket cmd hfirst hlog hhandlers hsent =>
      have hmem : (ticket, cmd) ∈ s.queue := by
        rw [hfirst]
        exact List.mem_cons_self
      have hrest : s'.queue.Sublist s.queue := by
        rw [hfirst]
        exact List.sublist_cons_self _ _
      have hnodup := h.queueNodup
      rw [hfirst, List.map_cons, List.nodup_cons] at hnodup
      apply h.handle (.inl (List.mem_map_of_mem hmem)) hlog hrest hnodup.1 hhandlers hsent
      · intro cmd' heq
        rw [← Handler.spawned.inj heq]
        exact h.queued _ hmem
      · intro frame heq
        cases heq
  | prepared ticket cmd frame hhandler horder hhandlers hlog hqueue hsent =>
      have hhandled : ticket ∈ s.handlers := handled_of_lookup hhandler
      have hsame : s'.queue.Sublist s.queue := by rw [hqueue]
      have hleft : ticket ∉ s'.queue.map Prod.fst := by
        intro hqueued
        rw [hqueue] at hqueued
        obtain ⟨entry, hentry, rfl⟩ := List.mem_map.mp hqueued
        exact h.queueUnhandled entry hentry hhandled
      apply h.handle (.inr hhandled) hlog hsame hleft hhandlers hsent
      · intro cmd' heq
        cases heq
      · intro frame' heq
        have hlogged := h.spawned ticket cmd hhandler
        exact ⟨cmd, hlogged, horder⟩
  | returned ticket hhandlers hlog hqueue hsent =>
      apply h.fewer hlog _ _ hsent
      · rw [hqueue]
      · intro t handler hhandler
        rw [hhandlers] at hhandler
        exact (lookup_erase_eq_some hhandler).2
  | sent ticket frame hhandler hhandlers hsent hlog hqueue =>
      exact h.sendFrame hhandler hhandlers hsent hlog hqueue

/-- **Every run.** -/
theorem ticketInv_run [F64 F] (env : BrokerEnv F) (cfg : RiskConfig F)
    (schedule : List (HaltStep F)) : TicketInv (run (step env) (start cfg) schedule) :=
  run_invariant TicketInv (fun s a h => h.flow (step_flow env s a)) (start_ticketInv cfg) schedule

/-! ## From one state on -/

theorem Flow.log {s s' : HaltState F} (h : Flow s s') : s.log <+: s'.log := by
  have hsame : s'.log = s.log → s.log <+: s'.log := by
    intro hlog
    rw [hlog]
  cases h with
  | written cmd hlog =>
      rw [hlog]
      exact List.prefix_append s.log [cmd]
  | kept hlog => exact hsame hlog
  | dropped entry hfirst hlog => exact hsame hlog
  | spawned ticket cmd hfirst hlog => exact hsame hlog
  | prepared ticket cmd frame hhandler horder hhandlers hlog => exact hsame hlog
  | returned ticket hhandlers hlog => exact hsame hlog
  | sent ticket frame hhandler hhandlers hsent hlog => exact hsame hlog

/-- A step queues nothing but the command that is written. -/
theorem Flow.queued {s s' : HaltState F} (h : Flow s s') {t : Nat}
    (ht : t ∈ s'.queue.map Prod.fst) : t ∈ s.queue.map Prod.fst ∨ t = s.log.length := by
  have hsame : s'.queue = s.queue → t ∈ s.queue.map Prod.fst := by
    intro hqueue
    rwa [hqueue] at ht
  have hrest : ∀ entry, s.queue = entry :: s'.queue → t ∈ s.queue.map Prod.fst := by
    intro entry hfirst
    rw [hfirst, List.map_cons]
    exact List.mem_cons_of_mem _ ht
  cases h with
  | kept hlog hqueue => exact .inl (hsame hqueue)
  | written cmd hlog hqueue =>
      rw [hqueue, List.map_append] at ht
      rcases List.mem_append.mp ht with hold | hnew
      · exact .inl hold
      · exact .inr (List.mem_singleton.mp hnew)
  | dropped entry hfirst => exact .inl (hrest entry hfirst)
  | spawned ticket cmd hfirst => exact .inl (hrest _ hfirst)
  | prepared ticket cmd frame hhandler horder hhandlers hlog hqueue => exact .inl (hsame hqueue)
  | returned ticket hhandlers hlog hqueue => exact .inl (hsame hqueue)
  | sent ticket frame hhandler hhandlers hsent hlog hqueue => exact .inl (hsame hqueue)

/-- A step gives a handler to none but a command in flight. -/
theorem Flow.handled {s s' : HaltState F} (h : Flow s s') {t : Nat} (ht : t ∈ s'.handlers) :
    s.InFlight t := by
  have hsame : s'.handlers = s.handlers → s.InFlight t := by
    intro hhandlers
    rw [hhandlers] at ht
    exact .inr ht
  have hfewer : ∀ ticket, s'.handlers = s.handlers.erase ticket → s.InFlight t := by
    intro ticket hhandlers
    rw [hhandlers, AList.mem_erase] at ht
    exact .inr ht.2
  have hmore : ∀ ticket handler, s'.handlers = s.handlers.insert ticket handler →
      s.InFlight ticket → s.InFlight t := by
    intro ticket handler hhandlers hflight
    rw [hhandlers, AList.mem_insert] at ht
    rcases ht with rfl | hold
    · exact hflight
    · exact .inr hold
  cases h with
  | kept hlog hqueue hhandlers => exact hsame hhandlers
  | written cmd hlog hqueue hhandlers => exact hsame hhandlers
  | dropped entry hfirst hlog hhandlers => exact hsame hhandlers
  | spawned ticket cmd hfirst hlog hhandlers =>
      have hqueued : ticket ∈ s.queue.map Prod.fst := by
        rw [hfirst, List.map_cons]
        exact List.mem_cons_self
      exact hmore ticket _ hhandlers (.inl hqueued)
  | prepared ticket cmd frame hhandler horder hhandlers =>
      exact hmore ticket _ hhandlers (.inr (handled_of_lookup hhandler))
  | returned ticket hhandlers => exact hfewer ticket hhandlers
  | sent ticket frame hhandler hhandlers => exact hfewer ticket hhandlers

/-- A step puts nothing in flight but the command that is written. -/
theorem Flow.inFlight {s s' : HaltState F} (h : Flow s s') {t : Nat} (ht : s'.InFlight t) :
    s.InFlight t ∨ t = s.log.length := by
  rcases ht with hqueued | hhandled
  · rcases h.queued hqueued with hold | hnew
    · exact .inl (.inl hold)
    · exact .inr hnew
  · exact .inl (h.handled hhandled)

/-- A step sends nothing but the frame of a command in flight. -/
theorem Flow.sends {s s' : HaltState F} (h : Flow s s') :
    ∃ more, s'.sent = s.sent ++ more ∧ ∀ entry ∈ more, s.InFlight entry.1 := by
  have hnone : s'.sent = s.sent →
      ∃ more, s'.sent = s.sent ++ more ∧ ∀ entry ∈ more, s.InFlight entry.1 := by
    intro hsent
    exact ⟨[], by rw [hsent, List.append_nil], by simp⟩
  cases h with
  | kept hlog hqueue hhandlers hsent => exact hnone hsent
  | written cmd hlog hqueue hhandlers hsent => exact hnone hsent
  | dropped entry hfirst hlog hhandlers hsent => exact hnone hsent
  | spawned ticket cmd hfirst hlog hhandlers hsent => exact hnone hsent
  | prepared ticket cmd frame hhandler horder hhandlers hlog hqueue hsent => exact hnone hsent
  | returned ticket hhandlers hlog hqueue hsent => exact hnone hsent
  | sent ticket frame hhandler hhandlers hsent hlog hqueue =>
      refine ⟨[(ticket, frame)], hsent, ?_⟩
      intro entry hentry
      rw [List.mem_singleton.mp hentry]
      exact .inr (handled_of_lookup hhandler)

/-- What has become of the commands since the state `s₁`: those in flight were
in flight in it or are younger, and so are those whose frames were sent. -/
structure Since (s₁ s : HaltState F) : Prop where
  log : s₁.log <+: s.log
  flight : ∀ t, s.InFlight t → s₁.InFlight t ∨ s₁.log.length ≤ t
  sent : ∃ more, s.sent = s₁.sent ++ more ∧
    ∀ entry ∈ more, s₁.InFlight entry.1 ∨ s₁.log.length ≤ entry.1

theorem Since.refl (s : HaltState F) : Since s s where
  log := List.prefix_rfl
  flight := fun _ ht => .inl ht
  sent := ⟨[], (List.append_nil _).symm, by simp⟩

/-- **One step.** -/
theorem Since.flow {s₁ s s' : HaltState F} (h : Since s₁ s) (hflow : Flow s s') : Since s₁ s' where
  log := h.log.trans hflow.log
  flight := by
    intro t ht
    rcases hflow.inFlight ht with hold | hnew
    · exact h.flight t hold
    · have hle := h.log.length_le
      exact .inr (by omega)
  sent := by
    obtain ⟨more, hmore, hstem⟩ := h.sent
    obtain ⟨next, hnext, hflight⟩ := hflow.sends
    refine ⟨more ++ next, by rw [hnext, hmore, List.append_assoc], ?_⟩
    intro entry hentry
    rcases List.mem_append.mp hentry with hentry | hentry
    · exact hstem entry hentry
    · exact h.flight entry.1 (hflight entry hentry)

theorem since_run [F64 F] (env : BrokerEnv F) (s : HaltState F) (schedule : List (HaltStep F)) :
    Since s (run (step env) s schedule) :=
  run_invariant (Since s) (fun s' a h => h.flow (step_flow env s' a)) (Since.refl s) schedule

/-! ## Kills and order frames -/

/-- Two states differ in the kill tasks and the cancels at most. -/
structure SameOrders (s s' : HaltState F) : Prop where
  adapter : s.adapter = s'.adapter
  log : s.log = s'.log
  queue : s.queue = s'.queue
  handlers : s.handlers = s'.handlers
  sent : s.sent = s'.sent

theorem SameOrders.dispatch {s s' : HaltState F} (h : SameOrders s s') :
    SameOrders s.dispatch s'.dispatch := by
  unfold HaltState.dispatch
  rw [← h.queue]
  cases s.queue with
  | nil => exact h
  | cons entry rest =>
      obtain ⟨ticket, cmd⟩ := entry
      by_cases hspawns : spawnsTask cmd.kind = true
      · simp only [hspawns, if_true]
        exact ⟨h.adapter, h.log, rfl, by rw [h.handlers], h.sent⟩
      · simp only [hspawns]
        exact ⟨h.adapter, h.log, rfl, h.handlers, h.sent⟩

theorem SameOrders.proceed {s s' : HaltState F} (h : SameOrders s s') (ticket : Nat)
    (result : Option (OrderFrame F × BrokerState F)) :
    SameOrders (s.proceed ticket result) (s'.proceed ticket result) := by
  cases result with
  | none =>
      have hhandlers := congrArg (AList.erase ticket) h.handlers
      exact ⟨h.adapter, h.log, h.queue, hhandlers, h.sent⟩
  | some prepared =>
      have hhandlers := congrArg (AList.insert ticket (.sending prepared.1)) h.handlers
      exact ⟨rfl, h.log, h.queue, hhandlers, h.sent⟩

theorem SameOrders.prepare [F64 F] {s s' : HaltState F} (h : SameOrders s s') (env : BrokerEnv F)
    (ticket : Nat) (r : Reading F) :
    SameOrders (s.prepare env ticket r) (s'.prepare env ticket r) := by
  unfold HaltState.prepare
  rw [← h.handlers, ← h.adapter]
  split
  · split
    · exact h.proceed ticket _
    · split
      · exact h.proceed ticket _
      · exact ⟨rfl, h.log, h.queue, rfl, h.sent⟩
  · exact h

theorem SameOrders.send {s s' : HaltState F} (h : SameOrders s s') (ticket : Nat) (ok : Bool) :
    SameOrders (s.send ticket ok) (s'.send ticket ok) := by
  unfold HaltState.send
  rw [← h.handlers, ← h.adapter, ← h.sent]
  split
  · cases ok with
    | true => exact ⟨rfl, h.log, h.queue, rfl, rfl⟩
    | false => exact ⟨rfl, h.log, h.queue, rfl, rfl⟩
  · exact h

/-- A step that is not a kill task's does not look at the kill tasks. -/
theorem SameOrders.step [F64 F] {s s' : HaltState F} (h : SameOrders s s') (env : BrokerEnv F)
    {a : HaltStep F} (ha : a.isKill = false) :
    SameOrders (BrokerHalt.step env s a) (BrokerHalt.step env s' a) := by
  cases a with
  | kill st => cases ha
  | write cmd =>
      refine ⟨h.adapter, ?_, ?_, h.handlers, h.sent⟩
      · exact congrArg (· ++ [cmd]) h.log
      · show s.queue ++ [(s.log.length, cmd)] = s'.queue ++ [(s'.log.length, cmd)]
        rw [h.queue, h.log]
  | dispatch => exact h.dispatch
  | prepare ticket r => exact h.prepare env ticket r
  | send ticket ok => exact h.send ticket ok
  | gateway a =>
      have hadapter := congrArg (NativeBroker.dispatch env.fmt · a) h.adapter
      exact ⟨hadapter, h.log, h.queue, h.handlers, h.sent⟩

theorem isKill_of_dropped {a : HaltStep F} (h : (!a.isKill) = false) : ∃ st, a = .kill st := by
  cases a with
  | kill st => exact ⟨st, rfl⟩
  | write cmd => cases h
  | dispatch => cases h
  | prepare ticket r => cases h
  | send ticket ok => cases h
  | gateway a => cases h

/-- **Every run.** Without its kills, a run sends the same order frames. -/
theorem sameOrders_without_kills [F64 F] (env : BrokerEnv F) (s : HaltState F)
    (schedule : List (HaltStep F)) :
    SameOrders (run (step env) s schedule)
      (run (step env) s (schedule.filter fun a => !a.isKill)) := by
  apply run_filter_related
  · intro s₁ s₂ a hkept hsame
    exact hsame.step env (by simpa using hkept)
  · intro s₁ s₂ a hdropped hsame
    obtain ⟨st, rfl⟩ := isKill_of_dropped hdropped
    exact ⟨hsame.adapter, hsame.log, hsame.queue, hsame.handlers, hsame.sent⟩
  · exact ⟨rfl, rfl, rfl, rfl, rfl⟩

/-- From any state of any run on, each order frame that is sent is for an
order command that was in flight in that state or is younger, and no two are
for one command. -/
theorem frames_since [F64 F] (env : BrokerEnv F) (cfg : RiskConfig F)
    (front mid : List (HaltStep F)) :
    let s₁ := run (step env) (start cfg) front
    let s₂ := run (step env) s₁ mid
    ∃ more, s₂.sent = s₁.sent ++ more ∧ (more.map Prod.fst).Nodup ∧
      ∀ entry ∈ more, s₂.IsOrder entry.1 ∧
        (s₁.InFlight entry.1 ∨ s₁.log.length ≤ entry.1) := by
  intro s₁ s₂
  have hinv : TicketInv s₂ := by
    have hrun := ticketInv_run env cfg (front ++ mid)
    rwa [run_append] at hrun
  obtain ⟨more, hmore, hstem⟩ := (since_run env s₁ mid).sent
  refine ⟨more, hmore, ?_, ?_⟩
  · have hnodup := hinv.sentNodup
    rw [hmore, List.map_append] at hnodup
    exact hnodup.of_append_right
  · intro entry hentry
    have hmem : entry ∈ s₂.sent := by
      rw [hmore]
      exact List.mem_append_right _ hentry
    exact ⟨hinv.isSent entry hmem, hstem entry hentry⟩

/-- **Order frames and kills.** From any state of any run on, the order frames
that are sent are those of the run without its kills.  Each is for an order
command that was in flight in that state or was written after it, at most one
for each command. -/
theorem orders_stem_from_commands [F64 F] (env : BrokerEnv F) (cfg : RiskConfig F)
    (front mid : List (HaltStep F)) :
    let s₁ := run (step env) (start cfg) front
    let s₂ := run (step env) s₁ mid
    s₂.sent = (run (step env) s₁ (mid.filter fun a => !a.isKill)).sent ∧
      ∃ more, s₂.sent = s₁.sent ++ more ∧ (more.map Prod.fst).Nodup ∧
        ∀ entry ∈ more, s₂.IsOrder entry.1 ∧
          (s₁.InFlight entry.1 ∨ s₁.log.length ≤ entry.1) := by
  intro s₁ s₂
  have hsame := sameOrders_without_kills env s₁ mid
  exact ⟨hsame.sent, frames_since env cfg front mid⟩

/-! ## A drained broker -/

@[simp] theorem dispatch_log (s : HaltState F) : s.dispatch.log = s.log := by
  unfold HaltState.dispatch
  split
  · rfl
  · split <;> rfl

@[simp] theorem proceed_log (s : HaltState F) (ticket : Nat)
    (result : Option (OrderFrame F × BrokerState F)) : (s.proceed ticket result).log = s.log := by
  cases result <;> rfl

@[simp] theorem prepare_log [F64 F] (env : BrokerEnv F) (s : HaltState F) (ticket : Nat)
    (r : Reading F) : (s.prepare env ticket r).log = s.log := by
  unfold HaltState.prepare
  split
  · split
    · exact proceed_log s ticket _
    · split
      · exact proceed_log s ticket _
      · rfl
  · rfl

@[simp] theorem send_log (s : HaltState F) (ticket : Nat) (ok : Bool) :
    (s.send ticket ok).log = s.log := by
  unfold HaltState.send
  split
  · split <;> rfl
  · rfl

theorem prepare_queue [F64 F] (env : BrokerEnv F) (s : HaltState F) (ticket : Nat)
    (r : Reading F) : (s.prepare env ticket r).queue = s.queue := by
  have hproceed (result : Option (OrderFrame F × BrokerState F)) :
      (s.proceed ticket result).queue = s.queue := by
    cases result <;> rfl
  unfold HaltState.prepare
  split
  · split
    · exact hproceed _
    · split
      · exact hproceed _
      · rfl
  · rfl

theorem send_queue (s : HaltState F) (ticket : Nat) (ok : Bool) :
    (s.send ticket ok).queue = s.queue := by
  unfold HaltState.send
  split
  · split <;> rfl
  · rfl

/-- Only the dispatcher takes from the queue. -/
theorem queue_length_le [F64 F] (env : BrokerEnv F) (s : HaltState F) {a : HaltStep F}
    (ha : a ≠ .dispatch) : s.queue.length ≤ (step env s a).queue.length := by
  cases a with
  | kill st => exact le_rfl
  | write cmd => simp [step]
  | dispatch => exact absurd rfl ha
  | prepare ticket r => exact (congrArg List.length (prepare_queue env s ticket r)).ge
  | send ticket ok => exact (congrArg List.length (send_queue s ticket ok)).ge
  | gateway a => exact le_rfl

/-- The commands that the trader writes in a run. -/
def written (schedule : List (HaltStep F)) : List ServerCommand :=
  schedule.filterMap fun
    | .write cmd => some cmd
    | _ => none

theorem log_run [F64 F] (env : BrokerEnv F) (s : HaltState F) (schedule : List (HaltStep F)) :
    (run (step env) s schedule).log = s.log ++ written schedule := by
  induction schedule generalizing s with
  | nil => exact (List.append_nil _).symm
  | cons a rest ih =>
      rw [run_cons, ih]
      cases a with
      | kill st => rfl
      | write cmd => exact List.append_assoc _ _ _
      | dispatch => exact congrArg (· ++ _) (dispatch_log s)
      | prepare ticket r => exact congrArg (· ++ _) (prepare_log env s ticket r)
      | send ticket ok => exact congrArg (· ++ _) (send_log s ticket ok)
      | gateway a => rfl

/-- Where no order command is in flight and none is written, no order frame is
sent, killed or not. -/
theorem drained_broker_sends_nothing [F64 F] (env : BrokerEnv F) (cfg : RiskConfig F)
    (front mid : List (HaltStep F))
    (hdrained : ∀ ticket, (run (step env) (start cfg) front).InFlight ticket →
      ¬ (run (step env) (start cfg) front).IsOrder ticket)
    (hquiet : ∀ cmd ∈ written mid, isOrderKind cmd.kind = false) :
    (run (step env) (start cfg) (front ++ mid)).sent =
      (run (step env) (start cfg) front).sent := by
  rw [run_append]
  obtain ⟨more, hmore, _, hstem⟩ := frames_since env cfg front mid
  have hinv := ticketInv_run env cfg front
  cases more with
  | nil => rw [hmore, List.append_nil]
  | cons entry rest =>
      obtain ⟨⟨cmd, hcmd, horder⟩, hsource⟩ := hstem entry List.mem_cons_self
      rw [log_run] at hcmd
      rcases hsource with hflight | hyoung
      · rw [List.getElem?_append_left (hinv.inFlight_lt hflight)] at hcmd
        exact absurd ⟨cmd, hcmd, horder⟩ (hdrained entry.1 hflight)
      · rw [List.getElem?_append_right hyoung] at hcmd
        have hwritten := hquiet cmd (List.mem_of_getElem? hcmd)
        rw [horder] at hwritten
        cases hwritten

/-! ## A place in flight when the margin kill fires -/

/-- A finite double. -/
def ratOfBits (b : UInt64) : ℚ :=
  let mantissa : Int := (b.toNat % 2 ^ 52 : Nat)
  let exponent := b.toNat / 2 ^ 52 % 2 ^ 11
  let sign : Int := if b.toNat < 2 ^ 63 then 1 else -1
  if exponent = 0 then (sign * mantissa : Int) / (2 : ℚ) ^ 1074
  else if exponent < 1075 then (sign * (2 ^ 52 + mantissa) : Int) / (2 : ℚ) ^ (1075 - exponent)
  else (sign * (2 ^ 52 + mantissa) : Int) * (2 : ℚ) ^ (exponent - 1075)

def liveEnv : BrokerEnv ℚ where
  fmt := plainFormats
  read := readMap
  double := ratOfBits
  shadow := false
  account := "DU1"
  nativeAccount := "DU1"

/-- The 6.025 call. -/
def call6025 : Contract ℚ where
  instrumentId := 712565973
  kind := .option
  symbol := "HG"
  localSymbol := "HXEM6 C6025"
  expiry := ⟨2026, 5, 26⟩
  strike := some (241 / 40)
  right := some .call
  multiplier := 25000
  exchange := .comex
  currency := .usd
  tradingClass := "HXE"

def call6025Reading : Reading ℚ where
  contractByKey := AList.insert (60250, "20260526", 'C') call6025 ∅
  recentlyTerminated _ := false
  orderId := 17
  utcNow := 1777993654064500000
  now := 1777993654064500000

/-- A margin of 80 against a kill level of 70. -/
def marginBreach : RiskMonitor.CheckInput ℚ where
  portfolio := ⟨[], 0⟩
  marginUsed := 80
  market := ⟨fun _ => none, fun _ _ _ _ => none, fun _ => none⟩
  hedge := []
  sentinelDir := "/data"
  sentinelFiles _ := .absent
  now := 1777993654064600000

/-- The trader's place is with its handler, before the send, when the risk
check fires, publishes and sweeps. -/
def placeBeforeKill : List (HaltStep ℚ) :=
  [.write { kind := "place_order", body := encodePlaceInto [] place6025 }, .dispatch,
    .prepare 0 call6025Reading, .kill (.riskCheck marginBreach), .kill (.advance .riskCheck),
    .kill (.advance .riskCheck)]

/-- The broker in front of the send. -/
def killedBroker : HaltState ℚ := run (step liveEnv) (start ⟨100, 7 / 10, none⟩) placeBeforeKill

/-- **The frame goes out while the monitor is killed**, after the sweep. -/
theorem order_sent_while_killed :
    ¬ SilentWhileKilled liveEnv (start ⟨100, 7 / 10, none⟩)
      (placeBeforeKill ++ [.send 0 true]) := by
  intro hsilent
  have hkilled : killedBroker.killed = true := by decide +kernel
  have hbefore : killedBroker.sent.length = 0 := by decide +kernel
  have hafter : (step liveEnv killedBroker (.send 0 true)).sent.length = 1 := by decide +kernel
  have hsame : (step liveEnv killedBroker (.send 0 true)).sent = killedBroker.sent :=
    hsilent placeBeforeKill (.send 0 true) [] rfl hkilled
  rw [hsame, hbefore] at hafter
  cases hafter

end Corsair.Ports.BrokerHalt
