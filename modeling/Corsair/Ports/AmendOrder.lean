import Corsair.Verified.Table
import Corsair.Ports.BrokerHalt

/-!
# The order of amends on the wire

The dispatcher spawns a task for every `modify_order`, and nothing ties the
tasks of one order together: each goes through its checks and up to its send on
its own.  Two of them that are before their sends at one time may therefore
send in either order, and the last price on the wire need not be the last one
that was asked for.  Where the dispatcher takes up an amend only when no task
for the same order is before its send, the amends of an order go out in the
order of their commands.

## Main results

* `amendInv_run` — what then holds of the tickets of an order's amends.
* `amends_sent_in_order` — the frames of an order go out in the order of the
  commands, each with the price that its command asks for.
-/

namespace Corsair.Ports.AmendOrder

open Corsair.Verified
open Corsair.Verified.Runs
open Corsair.Verified.Table
open Corsair.Verified.MsgPack
open Corsair.Ports.Portfolio (Date)
open Corsair.Ports.BrokerApi
open Corsair.Ports.CommandPump (ServerCommand)
open Corsair.Ports.RiskMonitor (RiskConfig)
open Corsair.Ports.Commands
open Corsair.Ports.TraderState (ModifyOrder)
open Corsair.Ports.NativeDecoder (TextFormats ok_of_bind)
open Corsair.Ports.NativeBroker
open Corsair.Ports.NativeOrders
open Corsair.Ports.RestingSweep
open Corsair.Ports.BrokerHalt

variable {F : Type}

/-! ## Which order a command amends -/

/-- The order id that a command amends, as it stands on its frame. -/
def amendedId (env : BrokerEnv F) (cmd : ServerCommand) : Option Int :=
  if cmd.kind = "modify_order" then
    (fromSlice env.read ModifyOrderCmd.ofEntries cmd.body).map fun c => asI32 c.orderId
  else none

/-- The order id that the command of a ticket amends. -/
def amends (env : BrokerEnv F) (log : List ServerCommand) (ticket : Nat) : Option Int :=
  log[ticket]?.bind (amendedId env)

/-- The commands of the two tickets amend one order. -/
def SameOrder (env : BrokerEnv F) (log : List ServerCommand) (ticket ticket' : Nat) : Prop :=
  ∃ id, amends env log ticket = some id ∧ amends env log ticket' = some id

theorem amends_append {env : BrokerEnv F} {log : List ServerCommand} {ticket : Nat}
    (hlt : ticket < log.length) (more : List ServerCommand) :
    amends env (log ++ more) ticket = amends env log ticket := by
  unfold amends
  rw [List.getElem?_append_left hlt]

theorem SameOrder.of_append {env : BrokerEnv F} {log more : List ServerCommand}
    {ticket ticket' : Nat} (h : SameOrder env (log ++ more) ticket ticket')
    (hlt : ticket < log.length) (hlt' : ticket' < log.length) :
    SameOrder env log ticket ticket' := by
  obtain ⟨id, hid, hid'⟩ := h
  rw [amends_append hlt] at hid
  rw [amends_append hlt'] at hid'
  exact ⟨id, hid, hid'⟩

/-- The dispatcher takes up an amend only when no task for the same order is
before its send. -/
def OneAmend (env : BrokerEnv F) (s : HaltState F) : HaltStep F → Prop
  | .dispatch =>
      ∀ entry ∈ s.queue.head?, ∀ ticket ∈ s.handlers.keys,
        amendedId env entry.2 = none ∨ amends env s.log ticket ≠ amendedId env entry.2
  | _ => True

instance (env : BrokerEnv F) (s : HaltState F) (a : HaltStep F) :
    Decidable (OneAmend env s a) := by
  unfold OneAmend
  split <;> infer_instance

/-! ## The tickets of one order -/

/-- Tickets are dispatched in their order; of the amends of an order at most one
is before its send, and it is younger than those that were sent. -/
structure AmendInv (env : BrokerEnv F) (s : HaltState F) : Prop where
  tickets : TicketInv s
  sorted : (s.queue.map Prod.fst).Pairwise (· < ·)
  ahead : ∀ ticket ∈ s.queue.map Prod.fst, ∀ ticket',
    ticket' ∈ s.handlers ∨ ticket' ∈ s.sent.map Prod.fst → ticket' < ticket
  alone : ∀ ticket ∈ s.handlers, ∀ ticket' ∈ s.handlers,
    SameOrder env s.log ticket ticket' → ticket = ticket'
  younger : ∀ ticket ∈ s.handlers, ∀ ticket' ∈ s.sent.map Prod.fst,
    SameOrder env s.log ticket ticket' → ticket' < ticket
  ordered : (s.sent.map Prod.fst).Pairwise fun ticket ticket' =>
    SameOrder env s.log ticket ticket' → ticket < ticket'

theorem start_amendInv (env : BrokerEnv F) (cfg : RiskConfig F) : AmendInv env (start cfg) where
  tickets := start_ticketInv cfg
  sorted := .nil
  ahead _ h := (nomatch h)
  alone _ h := (nomatch h)
  younger _ h := (nomatch h)
  ordered := .nil

/-- Nothing is written or sent, and no handler is new. -/
theorem AmendInv.fewer {env : BrokerEnv F} {s s' : HaltState F} (h : AmendInv env s)
    (htickets : TicketInv s') (hlog : s'.log = s.log) (hqueue : s'.queue.Sublist s.queue)
    (hhandlers : ∀ ticket, ticket ∈ s'.handlers → ticket ∈ s.handlers)
    (hsent : s'.sent = s.sent) : AmendInv env s' where
  tickets := htickets
  sorted := h.sorted.sublist (hqueue.map Prod.fst)
  ahead ticket hticket ticket' hearlier := by
    rw [hsent] at hearlier
    exact h.ahead ticket ((hqueue.map Prod.fst).subset hticket) ticket'
      (hearlier.imp_left (hhandlers ticket'))
  alone ticket hticket ticket' hticket' hsame := by
    rw [hlog] at hsame
    exact h.alone ticket (hhandlers _ hticket) ticket' (hhandlers _ hticket') hsame
  younger ticket hticket ticket' hticket' hsame := by
    rw [hsent] at hticket'
    rw [hlog] at hsame
    exact h.younger ticket (hhandlers _ hticket) ticket' hticket' hsame
  ordered := by
    rw [hsent, hlog]
    exact h.ordered

theorem AmendInv.written {env : BrokerEnv F} {s s' : HaltState F} (h : AmendInv env s)
    (htickets : TicketInv s') {cmd : ServerCommand} (hlog : s'.log = s.log ++ [cmd])
    (hqueue : s'.queue = s.queue ++ [(s.log.length, cmd)]) (hhandlers : s'.handlers = s.handlers)
    (hsent : s'.sent = s.sent) : AmendInv env s' where
  tickets := htickets
  sorted := by
    rw [hqueue, List.map_append, List.pairwise_append]
    refine ⟨h.sorted, List.pairwise_singleton .., fun ticket hticket new hnew => ?_⟩
    obtain rfl := List.mem_singleton.mp hnew
    exact h.tickets.inFlight_lt (.inl hticket)
  ahead ticket hticket ticket' hearlier := by
    rw [hhandlers, hsent] at hearlier
    rw [hqueue, List.map_append, List.mem_append] at hticket
    rcases hticket with hold | hnew
    · exact h.ahead ticket hold ticket' hearlier
    · obtain rfl := List.mem_singleton.mp hnew
      exact hearlier.elim (fun hhandled => h.tickets.inFlight_lt (.inr hhandled))
        h.tickets.sent_lt
  alone ticket hticket ticket' hticket' hsame := by
    rw [hhandlers] at hticket hticket'
    rw [hlog] at hsame
    exact h.alone ticket hticket ticket' hticket'
      (hsame.of_append (h.tickets.inFlight_lt (.inr hticket))
        (h.tickets.inFlight_lt (.inr hticket')))
  younger ticket hticket ticket' hticket' hsame := by
    rw [hhandlers] at hticket
    rw [hsent] at hticket'
    rw [hlog] at hsame
    exact h.younger ticket hticket ticket' hticket'
      (hsame.of_append (h.tickets.inFlight_lt (.inr hticket)) (h.tickets.sent_lt hticket'))
  ordered := by
    rw [hsent, hlog]
    refine h.ordered.imp_of_mem fun hticket hticket' hlt hsame => ?_
    exact hlt (hsame.of_append (h.tickets.sent_lt hticket) (h.tickets.sent_lt hticket'))

/-- The dispatcher takes up a command whose order has no other task before its
send. -/
theorem AmendInv.spawned {env : BrokerEnv F} {s s' : HaltState F} (h : AmendInv env s)
    (htickets : TicketInv s') {ticket : Nat} {cmd : ServerCommand}
    (hfirst : s.queue = (ticket, cmd) :: s'.queue) (hlog : s'.log = s.log)
    (hhandlers : s'.handlers = s.handlers.insert ticket (.spawned cmd))
    (hsent : s'.sent = s.sent)
    (hone : ∀ other ∈ s.handlers, ¬ SameOrder env s.log ticket other) : AmendInv env s' := by
  have hhead : ticket ∈ s.queue.map Prod.fst := by
    rw [hfirst]
    exact List.mem_cons_self
  have hsorted := h.sorted
  rw [hfirst, List.map_cons, List.pairwise_cons] at hsorted
  have hmem (t : Nat) (ht : t ∈ s'.handlers) : t = ticket ∨ t ∈ s.handlers := by
    rwa [hhandlers, AList.mem_insert] at ht
  constructor
  · exact htickets
  · exact hsorted.2
  · intro t ht t' hearlier
    rw [hsent] at hearlier
    have hqueued : t ∈ s.queue.map Prod.fst := by
      rw [hfirst]
      exact List.mem_cons_of_mem _ ht
    rcases hearlier with hhandled | hlanded
    · rcases hmem t' hhandled with rfl | hold
      · exact hsorted.1 t ht
      · exact h.ahead t hqueued t' (.inl hold)
    · exact h.ahead t hqueued t' (.inr hlanded)
  · intro t ht t' ht' hsame
    rw [hlog] at hsame
    rcases hmem t ht with rfl | hold
    · rcases hmem t' ht' with rfl | hold'
      · rfl
      · exact absurd hsame (hone t' hold')
    · rcases hmem t' ht' with rfl | hold'
      · obtain ⟨id, hid, hid'⟩ := hsame
        exact absurd ⟨id, hid', hid⟩ (hone t hold)
      · exact h.alone t hold t' hold' hsame
  · intro t ht t' ht' hsame
    rw [hsent] at ht'
    rw [hlog] at hsame
    rcases hmem t ht with rfl | hold
    · exact h.ahead t hhead t' (.inr ht')
    · exact h.younger t hold t' ht' hsame
  · rw [hsent, hlog]
    exact h.ordered

theorem AmendInv.sendFrame {env : BrokerEnv F} {s s' : HaltState F} (h : AmendInv env s)
    (htickets : TicketInv s') {ticket : Nat} {frame : OrderFrame F}
    (hhandler : s.handlers.lookup ticket = some (.sending frame))
    (hhandlers : s'.handlers = s.handlers.erase ticket)
    (hsent : s'.sent = s.sent ++ [(ticket, frame)]) (hlog : s'.log = s.log)
    (hqueue : s'.queue = s.queue) : AmendInv env s' := by
  have hhandled : ticket ∈ s.handlers := handled_of_lookup hhandler
  have hmem (t : Nat) (ht : t ∈ s'.handlers) : t ≠ ticket ∧ t ∈ s.handlers := by
    rwa [hhandlers, AList.mem_erase] at ht
  have hlanded (t : Nat) (ht : t ∈ s'.sent.map Prod.fst) :
      t ∈ s.sent.map Prod.fst ∨ t = ticket := by
    rw [hsent, List.map_append, List.mem_append] at ht
    exact ht.imp_right List.mem_singleton.mp
  constructor
  · exact htickets
  · rw [hqueue]
    exact h.sorted
  · intro t ht t' hearlier
    rw [hqueue] at ht
    refine h.ahead t ht t' ?_
    rcases hearlier with hleft | hgone
    · exact .inl (hmem t' hleft).2
    · rcases hlanded t' hgone with hold | rfl
      · exact .inr hold
      · exact .inl hhandled
  · intro t ht t' ht' hsame
    rw [hlog] at hsame
    exact h.alone t (hmem t ht).2 t' (hmem t' ht').2 hsame
  · intro t ht t' ht' hsame
    rw [hlog] at hsame
    rcases hlanded t' ht' with hold | rfl
    · exact h.younger t (hmem t ht).2 t' hold hsame
    · exact absurd (h.alone t (hmem t ht).2 t' hhandled hsame) (hmem t ht).1
  · rw [hsent, hlog, List.map_append, List.pairwise_append]
    refine ⟨h.ordered, List.pairwise_singleton .., fun t ht t' ht' hsame => ?_⟩
    obtain rfl := List.mem_singleton.mp ht'
    obtain ⟨id, hid, hid'⟩ := hsame
    exact h.younger _ hhandled t ht ⟨id, hid', hid⟩

/-- **One step.** -/
theorem AmendInv.step [F64 F] {env : BrokerEnv F} {s : HaltState F} (h : AmendInv env s)
    {a : HaltStep F} (hone : OneAmend env s a) : AmendInv env (step env s a) := by
  have hflow := step_flow env s a
  have htickets := h.tickets.flow hflow
  cases hflow with
  | kept hlog hqueue hhandlers hsent =>
      refine h.fewer htickets hlog (hqueue ▸ .refl _) (fun ticket hticket => ?_) hsent
      rwa [hhandlers] at hticket
  | written cmd hlog hqueue hhandlers hsent => exact h.written htickets hlog hqueue hhandlers hsent
  | dropped entry hfirst hlog hhandlers hsent =>
      refine h.fewer htickets hlog (hfirst ▸ List.sublist_cons_self ..) (fun ticket hticket => ?_)
        hsent
      rwa [hhandlers] at hticket
  | spawned ticket cmd hfirst hlog hhandlers hsent =>
      refine h.spawned htickets hfirst hlog hhandlers hsent fun other hother hsame => ?_
      obtain ⟨id, hid, hid'⟩ := hsame
      have hlogged : s.log[ticket]? = some cmd :=
        h.tickets.queued (ticket, cmd) (hfirst ▸ List.mem_cons_self)
      have hcmd : amendedId env cmd = some id := by rwa [amends, hlogged] at hid
      by_cases hdispatch : a = .dispatch
      · subst hdispatch
        rcases hone (ticket, cmd) (by rw [hfirst]; rfl) other (AList.mem_keys.mp hother) with
          hnone | hother
        · cases hnone.symm.trans hcmd
        · exact hother (hid'.trans hcmd.symm)
      · have hlength := queue_length_le env s hdispatch
        rw [hfirst, List.length_cons] at hlength
        omega
  | prepared ticket cmd frame hhandler _ hhandlers hlog hqueue hsent =>
      refine h.fewer htickets hlog (hqueue ▸ .refl _) (fun t ht => ?_) hsent
      rw [hhandlers, AList.mem_insert] at ht
      rcases ht with rfl | hold
      · exact handled_of_lookup hhandler
      · exact hold
  | returned ticket hhandlers hlog hqueue hsent =>
      refine h.fewer htickets hlog (hqueue ▸ .refl _) (fun t ht => ?_) hsent
      rw [hhandlers, AList.mem_erase] at ht
      exact ht.2
  | sent ticket frame hhandler hhandlers hsent hlog hqueue =>
      exact h.sendFrame htickets hhandler hhandlers hsent hlog hqueue

/-- **Every run** whose amends are dispatched one at a time. -/
theorem amendInv_run [F64 F] (env : BrokerEnv F) (cfg : RiskConfig F)
    (schedule : List (HaltStep F))
    (hone : Meets (step env) (OneAmend env) (start cfg) schedule) :
    AmendInv env (run (step env) (start cfg) schedule) :=
  run_invariant_of_meets (AmendInv env) (fun _ _ hone h => h.step hone) (start_amendInv env cfg)
    schedule hone

/-! ## What an amend sends -/

section Frames

theorem ok_of_toOption {ε α : Type} {x : Except ε α} {a : α} (h : x.toOption = some a) :
    x = .ok a := by
  cases x with
  | error e => cases h
  | ok b => exact congrArg Except.ok (Option.some.inj h)

variable [F64 F]

/-- The parameters of a limit order carry its price. -/
theorem lmtPrice_of_buildPlaceParams {fmt : TextFormats F Date} {req : PlaceOrderReq F}
    {account : String} {params : PlaceOrderParams F}
    (h : buildPlaceParams fmt req account = .ok params) (hlimit : params.orderType = "LMT") :
    ∀ price, req.price = some price → params.lmtPrice = price := by
  intro price hprice
  obtain ⟨⟨orderType, lmtPrice, auxPrice⟩, hprices, h⟩ := ok_of_bind h
  obtain ⟨date, -, h⟩ := ok_of_bind h
  obtain rfl := Except.ok.inj h
  unfold orderPrices at hprices
  split at hprices
  · rw [hprice] at hprices
    obtain ⟨-, rfl, -⟩ := Except.ok.inj hprices
    rfl
  · obtain ⟨rfl, -⟩ := Except.ok.inj hprices
    exact absurd (show "MKT" = "LMT" from hlimit) (by decide)
  · rw [hprice] at hprices
    obtain ⟨rfl, -⟩ := Except.ok.inj hprices
    exact absurd (show "STP LMT" = "LMT" from hlimit) (by decide)

theorem spec_of_prepareModify {fmt : TextFormats F Date} {account : String}
    {s s' : BrokerState F} {id waiter now : Nat} {req : ModifyOrderReq F} {frame : OrderFrame F}
    (h : prepareModify fmt account s id waiter now req = .ok (frame, s')) :
    frame.orderId = asI32 id ∧
      (frame.params.orderType = "LMT" → ∀ price, req.price = some price →
        frame.params.lmtPrice = price) := by
  unfold prepareModify at h
  split at h
  · rename_i existing _
    obtain ⟨params, hparams, h⟩ := ok_of_bind h
    obtain ⟨rfl, -⟩ := Prod.mk.inj (Except.ok.inj h)
    refine ⟨rfl, fun hlimit price hprice => ?_⟩
    exact lmtPrice_of_buildPlaceParams hparams hlimit price (by rw [hprice]; rfl)
  · cases h

/-- The frame of an amend is for the order that its command names, with the price
that it asks for. -/
theorem spec_of_handleModify {env : BrokerEnv F} {adapter adapter' : BrokerState F}
    {r : Reading F} {waiter : Nat} {body : List UInt8} {frame : OrderFrame F}
    (h : handleModify env adapter r waiter body = some (frame, adapter')) :
    ∃ cmd, fromSlice env.read ModifyOrderCmd.ofEntries body = some cmd ∧
      frame.orderId = asI32 cmd.orderId ∧
        (frame.params.orderType = "LMT" → ∀ price, cmd.price = some price →
          frame.params.lmtPrice = env.double price) := by
  obtain ⟨cmd, hcmd, h⟩ := Option.bind_eq_some_iff.mp h
  obtain ⟨-, -, h⟩ := Option.bind_eq_some_iff.mp h
  obtain ⟨-, -, h⟩ := Option.bind_eq_some_iff.mp h
  obtain ⟨horderId, hprice⟩ := spec_of_prepareModify (ok_of_toOption h)
  exact ⟨cmd, hcmd, horderId, fun hlimit price hcmdPrice =>
    hprice hlimit _ (by rw [hcmdPrice]; rfl)⟩

/-- The frame of an amend that stands before its send or was sent is what its
handler has made of its command. -/
def FramesMade (env : BrokerEnv F) (s : HaltState F) : Prop :=
  ∀ ticket frame, s.handlers.lookup ticket = some (.sending frame) ∨ (ticket, frame) ∈ s.sent →
    ∀ id, amends env s.log ticket = some id →
      ∃ cmd adapter r adapter', s.log[ticket]? = some cmd ∧
        handleModify env adapter r ticket cmd.body = some (frame, adapter')

theorem FramesMade.mono {env : BrokerEnv F} {s s' : HaltState F} (h : FramesMade env s)
    (htickets : TicketInv s) (hlog : s.log <+: s'.log)
    (hframes : ∀ ticket frame,
      s'.handlers.lookup ticket = some (.sending frame) ∨ (ticket, frame) ∈ s'.sent →
        s.handlers.lookup ticket = some (.sending frame) ∨ (ticket, frame) ∈ s.sent) :
    FramesMade env s' := by
  intro ticket frame hframe id hid
  have hold := hframes ticket frame hframe
  have horder : s.IsOrder ticket :=
    hold.elim (htickets.sending ticket frame) (htickets.isSent (ticket, frame))
  obtain ⟨more, hmore⟩ := hlog
  rw [← hmore, amends_append horder.lt] at hid
  obtain ⟨cmd, adapter, r, adapter', hcmd, hmade⟩ := h ticket frame hold id hid
  exact ⟨cmd, adapter, r, adapter', logged_of_isPrefix ⟨more, hmore⟩ hcmd, hmade⟩

/-- A handler that goes on to its send, with a frame made of its command if that
is an amend. -/
theorem FramesMade.proceed {env : BrokerEnv F} {s : HaltState F} (h : FramesMade env s)
    (htickets : TicketInv s) {ticket : Nat} {cmd : ServerCommand}
    (hlogged : s.log[ticket]? = some cmd) {result : Option (OrderFrame F × BrokerState F)}
    (hmade : ∀ frame adapter', result = some (frame, adapter') →
      ∀ id, amendedId env cmd = some id →
        ∃ adapter r, handleModify env adapter r ticket cmd.body = some (frame, adapter')) :
    FramesMade env (s.proceed ticket result) := by
  cases result with
  | none =>
      refine h.mono htickets (List.prefix_refl _) fun t frame hframe => ?_
      exact hframe.imp_left fun hhandler => (lookup_erase_eq_some hhandler).2
  | some prepared =>
      obtain ⟨frame, adapter'⟩ := prepared
      intro t other hframe id hid
      rcases hframe with hhandler | hsent
      · rcases lookup_insert_eq_some hhandler with ⟨rfl, heq⟩ | hold
        · obtain rfl := Handler.sending.inj heq
          have hcmd : amendedId env cmd = some id := by
            rwa [amends, proceed_log, hlogged] at hid
          obtain ⟨adapter, r, hframe⟩ := hmade other adapter' rfl id hcmd
          exact ⟨cmd, adapter, r, adapter', hlogged, hframe⟩
        · exact h t other (.inl hold) id hid
      · exact h t other (.inr hsent) id hid

theorem FramesMade.step {env : BrokerEnv F} {s : HaltState F} (h : FramesMade env s)
    (htickets : TicketInv s) (a : HaltStep F) : FramesMade env (step env s a) := by
  cases a with
  | kill st => exact h
  | gateway arrival => exact h
  | write cmd => exact h.mono htickets (List.prefix_append ..) fun _ _ hframe => hframe
  | dispatch =>
      refine h.mono htickets (by rw [BrokerHalt.step, dispatch_log]) fun t frame hframe => ?_
      simp only [BrokerHalt.step, HaltState.dispatch] at hframe
      split at hframe
      · exact hframe
      · split at hframe
        · refine hframe.imp_left fun hhandler => ?_
          rcases lookup_insert_eq_some hhandler with ⟨-, heq⟩ | hold
          · cases heq
          · exact hold
        · exact hframe
  | prepare ticket r =>
      simp only [BrokerHalt.step, HaltState.prepare]
      split
      · rename_i cmd hhandler
        have hlogged := htickets.spawned ticket cmd hhandler
        split
        · rename_i hkind
          refine h.proceed htickets hlogged fun frame adapter' _ id hid => ?_
          simp [amendedId, hkind] at hid
        · split
          · exact h.proceed htickets hlogged fun frame adapter' hmade id _ =>
              ⟨s.adapter, r, hmade⟩
          · refine h.mono htickets (List.prefix_refl _) fun t frame hframe => ?_
            exact hframe.imp_left fun hhandler => (lookup_erase_eq_some hhandler).2
      · exact h
  | send ticket ok =>
      simp only [BrokerHalt.step, HaltState.send]
      split
      · rename_i frame hhandler
        split
        · refine h.mono htickets (List.prefix_refl _) fun t other hframe => ?_
          rcases hframe with hleft | hsent
          · exact .inl (lookup_erase_eq_some hleft).2
          · rcases List.mem_append.mp hsent with hold | hnew
            · exact .inr hold
            · obtain ⟨rfl, rfl⟩ := Prod.mk.inj (List.mem_singleton.mp hnew)
              exact .inl hhandler
        · refine h.mono htickets (List.prefix_refl _) fun t other hframe => ?_
          exact hframe.imp_left fun hhandler => (lookup_erase_eq_some hhandler).2
      · exact h

theorem framesMade_run (env : BrokerEnv F) (cfg : RiskConfig F) (schedule : List (HaltStep F)) :
    FramesMade env (run (step env) (start cfg) schedule) := by
  have hstart : FramesMade env (start cfg) := by
    rintro ticket frame (hhandler | hsent) id hid
    · cases hhandler
    · cases hsent
  exact (run_invariant (fun s => TicketInv s ∧ FramesMade env s)
    (fun s a h => ⟨h.1.flow (step_flow env s a), h.2.step h.1 a⟩)
    ⟨start_ticketInv cfg, hstart⟩ schedule).2

end Frames

/-! ## The order on the wire -/

/-- Two amends of order 17, to the prices 2 and 3, as the trader writes them. -/
def amend17 (tsNs : Nat) (price : UInt64) : ServerCommand :=
  { kind := "modify_order"
    body := encodeModifyInto []
      { tsNs := tsNs
        orderId := 17
        price := price
        gtdSeconds := 30
        triggeringTickBrokerRecvNs := none } }

/-- Both are with their handlers, before the sends. -/
def twoAmends : List (HaltStep ℚ) :=
  [.gateway ⟨openOrder17, 1, 1⟩, .write (amend17 2 0x4000000000000000),
    .write (amend17 3 0x4008000000000000), .dispatch, .dispatch, .prepare 0 call6025Reading,
    .prepare 1 call6025Reading]

/-- The second amend overtakes the first: the order keeps the older price. -/
theorem amend_overtakes :
    let s := run (step liveEnv) (start ⟨100, 7 / 10, none⟩)
      (twoAmends ++ [.send 1 true, .send 0 true])
    (s.sent.filter fun e => amends liveEnv s.log e.1 = some 17).map
        (fun e => (e.1, e.2.orderId, e.2.params.lmtPrice)) = [(1, 17, 3), (0, 17, 2)] := by
  decide +kernel

/-- **Amends in order.** In a run in which the dispatcher takes up an amend only
when no task for the same order is before its send, the frames of the amends of
an order are sent in the order of their commands, and a limit order's frame
carries the price that its command asks for. -/
theorem amends_sent_in_order [F64 F] (env : BrokerEnv F) (cfg : RiskConfig F)
    (schedule : List (HaltStep F))
    (hone : Meets (step env) (OneAmend env) (start cfg) schedule) (id : Int) :
    let s := run (step env) (start cfg) schedule
    let amended := s.sent.filter fun e => amends env s.log e.1 = some id
    (amended.map Prod.fst).Pairwise (· < ·) ∧
      ∀ entry ∈ amended, entry.2.orderId = id ∧
        ∃ cmd modify, s.log[entry.1]? = some cmd ∧
          fromSlice env.read ModifyOrderCmd.ofEntries cmd.body = some modify ∧
            (entry.2.params.orderType = "LMT" → ∀ price, modify.price = some price →
              entry.2.params.lmtPrice = env.double price) := by
  intro s amended
  have hinv : AmendInv env s := amendInv_run env cfg schedule hone
  have hmade : FramesMade env s := framesMade_run env cfg schedule
  constructor
  · rw [List.pairwise_map]
    have hordered := (List.pairwise_map.mp hinv.ordered).filter
      fun e => decide (amends env s.log e.1 = some id)
    refine hordered.imp_of_mem fun hentry hentry' hlt => hlt ⟨id, ?_, ?_⟩
    · exact of_decide_eq_true (List.mem_filter.mp hentry).2
    · exact of_decide_eq_true (List.mem_filter.mp hentry').2
  · intro entry hentry
    obtain ⟨hsent, hid⟩ := List.mem_filter.mp hentry
    have hid : amends env s.log entry.1 = some id := of_decide_eq_true hid
    obtain ⟨cmd, adapter, r, adapter', hcmd, hframe⟩ := hmade entry.1 entry.2 (.inr hsent) id hid
    obtain ⟨modify, hmodify, horderId, hprice⟩ := spec_of_handleModify hframe
    refine ⟨?_, cmd, modify, hcmd, hmodify, hprice⟩
    rw [amends, hcmd, Option.bind_some, amendedId, hmodify] at hid
    split at hid
    · exact horderId.trans (Option.some.inj hid)
    · cases hid

/-- Two amends, the second taken up after the first was sent. -/
theorem amends_sent_in_order_one_by_one :
    let schedule : List (HaltStep ℚ) :=
      [.gateway ⟨openOrder17, 1, 1⟩, .write (amend17 2 0x4000000000000000),
        .write (amend17 3 0x4008000000000000), .dispatch, .prepare 0 call6025Reading,
        .send 0 true, .dispatch, .prepare 1 call6025Reading, .send 1 true]
    let s := run (step liveEnv) (start ⟨100, 7 / 10, none⟩) schedule
    let amended := s.sent.filter fun e => amends liveEnv s.log e.1 = some 17
    (amended.map Prod.fst).Pairwise (· < ·) ∧
      ∀ entry ∈ amended, entry.2.orderId = 17 ∧
        ∃ cmd modify, s.log[entry.1]? = some cmd ∧
          fromSlice liveEnv.read ModifyOrderCmd.ofEntries cmd.body = some modify ∧
            (entry.2.params.orderType = "LMT" → ∀ price, modify.price = some price →
              entry.2.params.lmtPrice = liveEnv.double price) :=
  amends_sent_in_order liveEnv ⟨100, 7 / 10, none⟩ _ (by decide +kernel) 17

end Corsair.Ports.AmendOrder
