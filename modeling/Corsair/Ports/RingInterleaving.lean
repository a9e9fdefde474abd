import Mathlib.Data.List.Infix
import Corsair.Verified.Runs
import Corsair.Ports.Ring

/-!
# The mapped ring under every interleaving

A producer and a consumer share the ring through four atomic steps each: load
the write offset, load the read offset, copy the bytes, store the own offset.
Between two of its steps a party keeps its loaded offsets in locals, and those
go stale while the other party moves.  `step` takes one atomic step of the
party the scheduler picked, so a run over a list of parties is an
interleaving; the calls the producer still has to make are part of the state.

Two logs of frames describe a state.  `log` is what the stored write offset
publishes.  `plog` is what the producer works on: it equals `log` while the
write offset is only moved by the producer, and may run ahead of it where
somebody else has set the write offset back (`Corsair.Ports.RingRestart`).

## Main results

* `RingInv.producerStep`, `RingInv.consumerStep` — each atomic step keeps the
  invariant, so no subtraction underflows and no slice is out of range.
* `spsc_ring_delivers` — over every schedule the offsets stay within one
  revolution, nobody panics, and the bytes read are a prefix of the accepted
  frames, all of them where the offsets meet.
* `producer_alone`, `consumer_alone` — undisturbed, the steps of a call are
  the call of `Corsair.Ports.Ring`.
-/

namespace Corsair.Ports.RingInterleaving

open Corsair.Verified
open Corsair.Verified.Runs
open Corsair.Verified.Circular
open Corsair.Ports.Ring
open Corsair.Ports.Protocol

/-! ## The two parties -/

/-- A producer call. -/
inductive Call
  | writeFrame (frame : List UInt8)
  | writeBody (body : List UInt8)
  deriving DecidableEq, Repr

/-- The bytes a call puts on the ring. -/
def Call.frame : Call → List UInt8
  | .writeFrame frame => frame
  | .writeBody body => packFrame body

/-- The copies of a call, at the write offset it has loaded. -/
def Call.copy (data : List UInt8) (w : Nat) : Call → Option (List UInt8)
  | .writeFrame frame =>
      (position data.length w).bind fun pos => wrapWrite data pos frame
  | .writeBody body =>
      (position data.length w).bind fun pos =>
        (wrapWrite data pos (BigEndian.toBytes 4 body.length)).bind fun mid =>
          (position data.length (pos + 4)).bind fun bodyPos => wrapWrite mid bodyPos body

/-- Where the producer stands inside its call, with the write offset it has
loaded. -/
inductive Producer
  | idle
  | loadedWrite (call : Call) (w : Nat)
  | loadedRead (call : Call) (w : Nat)
  | copied (call : Call) (w : Nat)
  | panicked
  deriving DecidableEq, Repr

/-- Where the consumer stands inside its call, with what it has loaded. -/
inductive Consumer
  | idle
  | loadedWrite (w : Nat)
  | loadedRead (r avail : Nat)
  | copied (r : Nat) (bytes : List UInt8)
  | returned (bytes : List UInt8)
  | panicked
  deriving DecidableEq, Repr

/-- The shared ring and the two parties.  `accepted` lists the frames whose
call returned true and `received` the bytes appended to the consumer's
buffers. -/
structure Sys where
  ring : Ring
  producer : Producer
  todo : List Call
  accepted : List (List UInt8)
  consumer : Consumer
  received : List UInt8
  deriving DecidableEq, Repr

inductive Party
  | producer
  | consumer
  deriving DecidableEq, Repr

/-- One atomic step of `write_frame` or `write_body`. -/
def producerStep (s : Sys) : Sys :=
  match s.producer with
  | .idle =>
      match s.todo with
      | [] => s
      | call :: rest =>
          if call.frame.length > s.ring.capacity / 2 then
            { s with ring := s.ring.dropFrame, todo := rest }
          else
            { s with producer := .loadedWrite call s.ring.write, todo := rest }
  | .loadedWrite call w =>
      match freeSpace s.ring.capacity w s.ring.read with
      | none => { s with producer := .panicked }
      | some free =>
          if free < call.frame.length then
            { s with ring := s.ring.dropFrame, producer := .idle }
          else
            { s with producer := .loadedRead call w }
  | .loadedRead call w =>
      match call.copy s.ring.data w with
      | none => { s with producer := .panicked }
      | some data =>
          { s with ring := { s.ring with data := data }, producer := .copied call w }
  | .copied call w =>
      { s with
        ring := { s.ring with write := w + call.frame.length }
        producer := .idle
        accepted := s.accepted ++ [call.frame] }
  | .panicked => s

/-- One atomic step of `read_available` or `read_available_into`. -/
def consumerStep (s : Sys) : Sys :=
  match s.consumer with
  | .idle => { s with consumer := .loadedWrite s.ring.write }
  | .loadedWrite w =>
      let r := s.ring.read
      let avail := w - r
      if avail = 0 then { s with consumer := .returned [] }
      else { s with consumer := .loadedRead r avail }
  | .loadedRead r avail =>
      match (position s.ring.capacity r).bind fun pos => wrapRead s.ring.data pos avail with
      | none => { s with consumer := .panicked }
      | some bytes =>
          { s with consumer := .copied r bytes, received := s.received ++ bytes }
  | .copied r bytes =>
      { s with
        ring := { s.ring with read := r + bytes.length }
        consumer := .returned bytes }
  | .returned _ => { s with consumer := .idle }
  | .panicked => s

/-- One atomic step of the scheduled party. -/
def step (s : Sys) : Party → Sys
  | .producer => producerStep s
  | .consumer => consumerStep s

/-- Both parties attached to an empty ring over any stale contents. -/
def start (data : List UInt8) (calls : List Call) : Sys :=
  { ring := { data := data, write := 0, read := 0, framesDropped := 0 }
    producer := .idle
    todo := calls
    accepted := []
    consumer := .idle
    received := [] }

/-! ## Undisturbed calls -/

/-- The call as `Corsair.Ports.Ring` has it, in one piece. -/
def Call.run (r : Ring) : Call → Option (Bool × Ring)
  | .writeFrame frame => r.writeFrame frame
  | .writeBody body => r.writeBody body

/-- Both calls check, copy and store alike; they differ in the copy. -/
theorem Call.run_eq (r : Ring) (call : Call) :
    call.run r =
      if call.frame.length > r.capacity / 2 then some (false, r.dropFrame)
      else (freeSpace r.capacity r.write r.read).bind fun free =>
        if free < call.frame.length then some (false, r.dropFrame)
        else (call.copy r.data r.write).map fun data =>
          (true, { r with data := data, write := r.write + call.frame.length }) := by
  cases call with
  | writeFrame frame =>
      simp only [Call.run, Ring.writeFrame, Call.frame, Call.copy, Option.map_bind,
        Function.comp_def]
      rfl
  | writeBody body =>
      simp only [Call.run, Ring.writeBody, Call.frame, Call.copy, packFrame_length,
        Option.map_bind, Function.comp_def]
      rfl

/-- Undisturbed, the steps of a producer call are the call. -/
theorem producer_alone (s : Sys) (call : Call) (rest : List Call) (ok : Bool) (r' : Ring)
    (hidle : s.producer = .idle) (htodo : s.todo = call :: rest)
    (hcall : call.run s.ring = some (ok, r')) :
    ∃ n, Runs.run step s (List.replicate n .producer) =
      { s with
        ring := r'
        todo := rest
        accepted := s.accepted ++ if ok then [call.frame] else [] } := by
  rw [Call.run_eq] at hcall
  by_cases hbig : call.frame.length > s.ring.capacity / 2
  · rw [if_pos hbig] at hcall
    cases hcall
    refine ⟨1, ?_⟩
    simp [step, producerStep, hidle, htodo, hbig]
  rw [if_neg hbig] at hcall
  rcases Option.bind_eq_some_iff.mp hcall with ⟨free, hfree, hcall⟩
  by_cases hfull : free < call.frame.length
  · rw [if_pos hfull] at hcall
    cases hcall
    refine ⟨2, ?_⟩
    simp [step, producerStep, hidle, htodo, hbig, hfree, hfull, List.replicate]
  rw [if_neg hfull] at hcall
  rcases Option.map_eq_some_iff.mp hcall with ⟨data, hcopy, hout⟩
  cases hout
  refine ⟨4, ?_⟩
  simp [step, producerStep, hidle, htodo, hbig, hfree, hfull, hcopy, List.replicate]

/-- Undisturbed, the steps of a consumer call are the call. -/
theorem consumer_alone (s : Sys) (bytes : List UInt8) (r' : Ring)
    (hidle : s.consumer = .idle) (hcall : s.ring.readAvailable = some (bytes, r')) :
    ∃ n, Runs.run step s (List.replicate n .consumer) =
      { s with ring := r', consumer := .returned bytes, received := s.received ++ bytes } := by
  unfold readAvailable at hcall
  by_cases hempty : s.ring.write - s.ring.read = 0
  · simp only [if_pos hempty] at hcall
    cases hcall
    refine ⟨2, ?_⟩
    simp [step, consumerStep, hidle, hempty, List.replicate]
  simp only [if_neg hempty] at hcall
  rcases Option.bind_eq_some_iff.mp hcall with ⟨pos, hpos, hcall⟩
  rcases Option.map_eq_some_iff.mp hcall with ⟨out, hread, hout⟩
  cases hout
  refine ⟨4, ?_⟩
  have hlen := wrapRead_length hread
  simp [step, consumerStep, hidle, hempty, hpos, hread, hlen, List.replicate]

/-! ## The invariant -/

/-- The offset `b` is the end of a whole number of the logged frames. -/
def Boundary (log : List (List UInt8)) (b : Nat) : Prop :=
  ∃ front, front <+: log ∧ front.flatten.length = b

/-- What the producer's locals say about the ring. -/
def ProducerInv (cap : Nat) (log plog : List (List UInt8)) (ring : Ring) :
    Producer → Prop
  | .idle => plog = log
  | .loadedWrite call w =>
      w = plog.flatten.length ∧ call.frame.length ≤ cap / 2
  | .loadedRead call w =>
      w = plog.flatten.length ∧ call.frame.length ≤ cap / 2 ∧
        w + call.frame.length ≤ ring.read + cap
  | .copied call w =>
      w = plog.flatten.length ∧ w + call.frame.length ≤ ring.read + cap ∧
        ∀ j, j < call.frame.length → cell ring.data (w + j) = call.frame[j]?
  | .panicked => False

/-- What the consumer's locals say about the ring. -/
def ConsumerInv (log : List (List UInt8)) (ring : Ring) : Consumer → Prop
  | .idle => True
  | .loadedWrite w => ring.read ≤ w ∧ Boundary log w
  | .loadedRead r avail => r = ring.read ∧ 0 < avail ∧ Boundary log (r + avail)
  | .copied r bytes =>
      r = ring.read ∧ 0 < bytes.length ∧ Boundary log (r + bytes.length) ∧
        bytes = (log.flatten.drop r).take bytes.length
  | .returned _ => True
  | .panicked => False

/-- The offset up to which the consumer has copied. -/
def drained (s : Sys) : Nat :=
  match s.consumer with
  | .copied r bytes => r + bytes.length
  | _ => s.ring.read

/-- The inductive invariant.  `base` is what the consumer had received before
the log began. -/
structure RingInv (cap : Nat) (base : List UInt8) (log plog : List (List UInt8))
    (s : Sys) : Prop where
  capPos : 0 < cap
  capacity : s.ring.data.length = cap
  ahead : log <+: plog
  write : s.ring.write = log.flatten.length
  readLe : s.ring.read ≤ s.ring.write
  readBoundary : Boundary log s.ring.read
  room : plog.flatten.length ≤ s.ring.read + cap
  cells : ∀ j, s.ring.read ≤ j → j < plog.flatten.length →
    cell s.ring.data j = plog.flatten[j]?
  producer : ProducerInv cap log plog s.ring s.producer
  consumer : ConsumerInv log s.ring s.consumer
  received : s.received = base ++ log.flatten.take (drained s)

/-! ## One step of the producer -/

/-- A call copies without an index error; the block is read back at its own
offsets and the revolution before it is left alone. -/
theorem Call.copy_spec (call : Call) (data : List UInt8) (w : Nat)
    (hcap : 0 < data.length) (hfits : call.frame.length ≤ data.length) :
    ∃ out, call.copy data w = some out ∧ out.length = data.length ∧
      (∀ j, j < call.frame.length → cell out (w + j) = call.frame[j]?) ∧
      (∀ j, j < w → w + call.frame.length ≤ j + data.length →
        cell out j = cell data j) := by
  have hcopy : call.copy data w = wrapWrite data (w % data.length) call.frame := by
    cases call with
    | writeFrame frame =>
        simp only [Call.copy, Call.frame, position_of_pos _ hcap, Option.bind_some]
    | writeBody body =>
        have hlen : 4 + body.length ≤ data.length := by
          simpa [Call.frame] using hfits
        simp only [Call.copy, Call.frame, position_of_pos _ hcap, Option.bind_some]
        exact wrapWrite_packFrame data body w hcap hlen
  rw [hcopy]
  exact wrapWrite_spec data call.frame w hcap hfits

/-- A copy that succeeds keeps the capacity. -/
theorem Call.copy_length {call : Call} {data out : List UInt8} {w : Nat}
    (h : call.copy data w = some out) : out.length = data.length := by
  cases call with
  | writeFrame frame =>
      rcases Option.bind_eq_some_iff.mp h with ⟨pos, -, hout⟩
      exact wrapWrite_length hout
  | writeBody body =>
      rcases Option.bind_eq_some_iff.mp h with ⟨pos, -, h⟩
      rcases Option.bind_eq_some_iff.mp h with ⟨mid, hmid, h⟩
      rcases Option.bind_eq_some_iff.mp h with ⟨bodyPos, -, hout⟩
      rw [wrapWrite_length hout, wrapWrite_length hmid]

theorem Boundary.mono {log log' : List (List UInt8)} {b : Nat} (hpre : log <+: log')
    (h : Boundary log b) : Boundary log' b := by
  rcases h with ⟨front, hfront, hlen⟩
  exact ⟨front, hfront.trans hpre, hlen⟩

theorem Boundary.le {log : List (List UInt8)} {b : Nat} (h : Boundary log b) :
    b ≤ log.flatten.length := by
  rcases h with ⟨front, hfront, rfl⟩
  exact hfront.flatten.length_le

theorem Boundary.full (log : List (List UInt8)) : Boundary log log.flatten.length :=
  ⟨log, List.prefix_rfl, rfl⟩

/-- Two byte logs of which one extends the other agree below the shorter. -/
theorem getElem?_of_isPrefix {front back : List UInt8} (hpre : front <+: back) {j : Nat}
    (hj : j < front.length) : back[j]? = front[j]? := by
  rcases hpre with ⟨rest, rfl⟩
  exact List.getElem?_append_left hj

theorem take_of_isPrefix {front back : List UInt8} (hpre : front <+: back) {n : Nat}
    (hn : n ≤ front.length) : back.take n = front.take n := by
  rcases hpre with ⟨rest, rfl⟩
  exact List.take_append_of_le_length hn

theorem drop_take_of_isPrefix {front back : List UInt8} (hpre : front <+: back) {a n : Nat}
    (hn : a + n ≤ front.length) : (back.drop a).take n = (front.drop a).take n := by
  rw [List.take_drop, List.take_drop, take_of_isPrefix hpre hn]

/-- A longer published log keeps what the consumer knows. -/
theorem ConsumerInv.mono {log log' : List (List UInt8)} {ring ring' : Ring}
    {consumer : Consumer} (hpre : log <+: log') (hread : ring'.read = ring.read)
    (h : ConsumerInv log ring consumer) : ConsumerInv log' ring' consumer := by
  cases consumer with
  | idle => trivial
  | loadedWrite w => exact ⟨hread ▸ h.1, h.2.mono hpre⟩
  | loadedRead r avail => exact ⟨hread ▸ h.1, h.2.1, h.2.2.mono hpre⟩
  | copied r bytes =>
      rcases h with ⟨hr, hpos, hboundary, hbytes⟩
      refine ⟨hread ▸ hr, hpos, hboundary.mono hpre, ?_⟩
      rw [drop_take_of_isPrefix hpre.flatten hboundary.le]
      exact hbytes
  | returned bytes => trivial
  | panicked => exact h

theorem RingInv.drained_le {cap : Nat} {base : List UInt8} {log plog : List (List UInt8)}
    {s : Sys} (h : RingInv cap base log plog s) : drained s ≤ log.flatten.length := by
  unfold drained
  have hread : s.ring.read ≤ log.flatten.length := h.write ▸ h.readLe
  have hconsumer := h.consumer
  cases hphase : s.consumer with
  | copied r bytes =>
      rw [hphase] at hconsumer
      exact hconsumer.2.2.1.le
  | idle => exact hread
  | loadedWrite w => exact hread
  | loadedRead r avail => exact hread
  | returned bytes => exact hread
  | panicked => exact hread

/-- How a producer step moves the logs: it publishes one more frame behind
what it works on, or it publishes nothing. -/
def Published (log plog accepted log' plog' accepted' : List (List UInt8)) : Prop :=
  (log' = log ∧ (plog' = plog ∨ plog' = log) ∧ accepted' = accepted) ∨
    ∃ frame, log' = plog ++ [frame] ∧ plog' = plog ++ [frame] ∧
      accepted' = accepted ++ [frame]

/-- A producer that gives up its call forgets the log it worked on. -/
theorem RingInv.giveUp {cap : Nat} {base : List UInt8} {log plog : List (List UInt8)}
    {s : Sys} (h : RingInv cap base log plog s) (todo : List Call) :
    RingInv cap base log log
      { s with ring := s.ring.dropFrame, producer := .idle, todo := todo } where
  capPos := h.capPos
  capacity := h.capacity
  ahead := List.prefix_rfl
  write := h.write
  readLe := h.readLe
  readBoundary := h.readBoundary
  room := Nat.le_trans h.ahead.flatten.length_le h.room
  cells := by
    intro j hread hj
    rw [← getElem?_of_isPrefix h.ahead.flatten hj]
    exact h.cells j hread (Nat.lt_of_lt_of_le hj h.ahead.flatten.length_le)
  producer := rfl
  consumer := h.consumer.mono List.prefix_rfl rfl
  received := h.received

/-- Storing the write offset publishes the copied frame. -/
theorem RingInv.storeWrite {cap : Nat} {base : List UInt8} {log plog : List (List UInt8)}
    {s : Sys} (h : RingInv cap base log plog s) {call : Call} {w : Nat}
    (hphase : s.producer = .copied call w) :
    RingInv cap base (plog ++ [call.frame]) (plog ++ [call.frame]) (producerStep s) := by
  have hproducer := h.producer
  rw [hphase] at hproducer
  rcases hproducer with ⟨hw, hroom, hblock⟩
  have hlen : (plog ++ [call.frame]).flatten.length = w + call.frame.length := by
    simp [hw]
  have hpre : log <+: plog ++ [call.frame] :=
    h.ahead.trans (List.prefix_append plog [call.frame])
  have hread : s.ring.read ≤ w := by
    have := h.ahead.flatten.length_le
    rw [hw]
    exact Nat.le_trans (h.write ▸ h.readLe) this
  simp only [RingInterleaving.producerStep, hphase]
  refine
    { capPos := h.capPos
      capacity := h.capacity
      ahead := List.prefix_rfl
      write := hlen.symm
      readLe := by simp only; omega
      readBoundary := h.readBoundary.mono hpre
      room := hlen ▸ hroom
      cells := ?_
      producer := rfl
      consumer := h.consumer.mono hpre rfl
      received := ?_ }
  · intro j hj hlt
    simp only [List.flatten_append, List.flatten_singleton]
    rw [hlen] at hlt
    by_cases hold : j < plog.flatten.length
    · rw [List.getElem?_append_left hold]
      exact h.cells j hj hold
    · rw [List.getElem?_append_right (by omega), ← hw,
        ← hblock (j - w) (by omega)]
      congr 1
      omega
  · have hdrained := h.drained_le
    simp only [drained] at hdrained ⊢
    rw [take_of_isPrefix hpre.flatten hdrained]
    exact h.received

/-- **Producer step.** Every atomic step of a producer call keeps the
invariant and publishes at most one frame. -/
theorem RingInv.producerStep {cap : Nat} {base : List UInt8}
    {log plog : List (List UInt8)} {s : Sys} (h : RingInv cap base log plog s) :
    ∃ log' plog', RingInv cap base log' plog' (producerStep s) ∧
      Published log plog s.accepted log' plog' (producerStep s).accepted := by
  have hproducer := h.producer
  cases hphase : s.producer with
  | idle =>
      rw [hphase] at hproducer
      have hplog : plog = log := hproducer
      refine ⟨log, log, ?_⟩
      cases htodo : s.todo with
      | nil =>
          simp only [RingInterleaving.producerStep, hphase, htodo]
          exact ⟨hplog ▸ h, .inl ⟨rfl, .inr rfl, rfl⟩⟩
      | cons call rest =>
          simp only [RingInterleaving.producerStep, hphase, htodo]
          by_cases hbig : call.frame.length > s.ring.capacity / 2
          · rw [if_pos hbig]
            exact ⟨h.giveUp rest, .inl ⟨rfl, .inr rfl, rfl⟩⟩
          · rw [if_neg hbig]
            subst hplog
            have hsmall : call.frame.length ≤ cap / 2 := by
              rw [← h.capacity]
              exact Nat.not_lt.mp hbig
            exact ⟨{ h with producer := ⟨h.write, hsmall⟩ }, .inl ⟨rfl, .inr rfl, rfl⟩⟩
  | loadedWrite call w =>
      rw [hphase] at hproducer
      rcases hproducer with ⟨hw, hsmall⟩
      have hread : s.ring.read ≤ w := by
        rw [hw]
        exact Nat.le_trans (h.write ▸ h.readLe) h.ahead.flatten.length_le
      have hroom : w ≤ s.ring.read + s.ring.capacity := by
        rw [hw, Ring.capacity, h.capacity]
        exact h.room
      simp only [RingInterleaving.producerStep, hphase, freeSpace_of_valid hread hroom]
      by_cases hfull : s.ring.capacity - (w - s.ring.read) < call.frame.length
      · rw [if_pos hfull]
        exact ⟨log, log, h.giveUp s.todo, .inl ⟨rfl, .inr rfl, rfl⟩⟩
      · rw [if_neg hfull]
        have hfits : w + call.frame.length ≤ s.ring.read + cap := by
          rw [Ring.capacity, h.capacity] at hfull hroom
          omega
        exact ⟨log, plog, { h with producer := ⟨hw, hsmall, hfits⟩ },
          .inl ⟨rfl, .inl rfl, rfl⟩⟩
  | loadedRead call w =>
      rw [hphase] at hproducer
      rcases hproducer with ⟨hw, hsmall, hfits⟩
      rcases call.copy_spec s.ring.data w (h.capacity ▸ h.capPos)
        (by rw [h.capacity]; omega) with ⟨data, hcopy, hlen, hblock, hold⟩
      simp only [RingInterleaving.producerStep, hphase, hcopy]
      refine ⟨log, plog, ?_, .inl ⟨rfl, .inl rfl, rfl⟩⟩
      refine
        { h with
          capacity := hlen.trans h.capacity
          cells := ?_
          producer := ⟨hw, hfits, hblock⟩
          consumer := h.consumer.mono List.prefix_rfl rfl }
      intro j hj hlt
      rw [hold j (hw ▸ hlt) (by rw [h.capacity]; simp only at hj; omega)]
      exact h.cells j hj hlt
  | copied call w =>
      refine ⟨_, _, h.storeWrite hphase, .inr ⟨call.frame, rfl, rfl, ?_⟩⟩
      simp only [RingInterleaving.producerStep, hphase]
  | panicked =>
      rw [hphase] at hproducer
      exact hproducer.elim

/-! ## One step of the consumer -/

/-- The available bytes are copied without an index error, and they are the
logged bytes at their offsets. -/
theorem RingInv.copyOut {cap : Nat} {base : List UInt8} {log plog : List (List UInt8)}
    {s : Sys} (h : RingInv cap base log plog s) {avail : Nat}
    (hboundary : Boundary log (s.ring.read + avail)) :
    ∃ bytes, ((position s.ring.capacity s.ring.read).bind fun pos =>
        wrapRead s.ring.data pos avail) = some bytes ∧
      bytes.length = avail ∧ bytes = (log.flatten.drop s.ring.read).take avail := by
  have hle := hboundary.le
  have hahead := h.ahead.flatten.length_le
  have hroom := h.room
  have hpos : 0 < s.ring.data.length := h.capacity ▸ h.capPos
  rcases wrapRead_spec s.ring.data s.ring.read avail hpos
    (by rw [h.capacity]; omega) with ⟨bytes, hbytes, hlen, hget⟩
  refine ⟨bytes, ?_, hlen, ?_⟩
  · rw [Ring.capacity, position_of_pos s.ring.read hpos]
    exact hbytes
  · apply List.ext_getElem?
    intro j
    by_cases hj : j < avail
    · rw [hget j hj, h.cells (s.ring.read + j) (by omega) (by omega),
        getElem?_of_isPrefix h.ahead.flatten (by omega), List.getElem?_take_of_lt hj,
        List.getElem?_drop]
    · rw [List.getElem?_eq_none (by omega), List.getElem?_eq_none (by simp; omega)]

/-- **Consumer step.** Every atomic step of a consumer call keeps the
invariant, over the same logs. -/
theorem RingInv.consumerStep {cap : Nat} {base : List UInt8}
    {log plog : List (List UInt8)} {s : Sys} (h : RingInv cap base log plog s) :
    RingInv cap base log plog (consumerStep s) := by
  have hconsumer := h.consumer
  have hreceived := h.received
  unfold drained at hreceived
  cases hphase : s.consumer with
  | idle =>
      rw [hphase] at hreceived
      simp only [RingInterleaving.consumerStep, hphase]
      exact
        { h with
          consumer := ⟨h.readLe, h.write ▸ Boundary.full log⟩
          received := hreceived }
  | loadedWrite w =>
      rw [hphase] at hconsumer hreceived
      rcases hconsumer with ⟨hread, hboundary⟩
      simp only [RingInterleaving.consumerStep, hphase]
      by_cases hempty : w - s.ring.read = 0
      · rw [if_pos hempty]
        exact { h with consumer := trivial, received := hreceived }
      · rw [if_neg hempty]
        have hsum : s.ring.read + (w - s.ring.read) = w := by omega
        exact
          { h with
            consumer := ⟨rfl, Nat.pos_of_ne_zero hempty, hsum.symm ▸ hboundary⟩
            received := hreceived }
  | loadedRead r avail =>
      rw [hphase] at hconsumer hreceived
      rcases hconsumer with ⟨rfl, hpos, hboundary⟩
      rcases h.copyOut hboundary with ⟨bytes, hcopy, hlen, hbytes⟩
      simp only [RingInterleaving.consumerStep, hphase, hcopy]
      refine
        { h with
          consumer := ⟨rfl, hlen ▸ hpos, hlen ▸ hboundary, hlen ▸ hbytes⟩
          received := ?_ }
      simp only [drained]
      rw [List.take_add, ← List.append_assoc, hlen, ← hbytes]
      exact congrArg (· ++ bytes) hreceived
  | copied r bytes =>
      rw [hphase] at hconsumer hreceived
      rcases hconsumer with ⟨rfl, hpos, hboundary, hbytes⟩
      have hle := hboundary.le
      simp only [RingInterleaving.consumerStep, hphase]
      refine
        { h with
          readLe := by simp only [h.write]; exact hle
          readBoundary := hboundary
          room := by simp only; have := h.room; omega
          cells := ?_
          producer := ?_
          consumer := trivial
          received := hreceived }
      · intro j hj hlt
        exact h.cells j (Nat.le_trans (Nat.le_add_right _ _) hj) hlt
      · have hproducer := h.producer
        cases hp : s.producer with
        | idle => rw [hp] at hproducer; exact hproducer
        | loadedWrite call w => rw [hp] at hproducer; exact hproducer
        | loadedRead call w =>
            rw [hp] at hproducer
            rcases hproducer with ⟨hw, hsmall, hfits⟩
            exact ⟨hw, hsmall, by simp only; omega⟩
        | copied call w =>
            rw [hp] at hproducer
            rcases hproducer with ⟨hw, hfits, hblock⟩
            exact ⟨hw, by simp only; omega, hblock⟩
        | panicked => rw [hp] at hproducer; exact hproducer
  | returned bytes =>
      rw [hphase] at hreceived
      simp only [RingInterleaving.consumerStep, hphase]
      exact { h with consumer := trivial, received := hreceived }
  | panicked =>
      rw [hphase] at hconsumer
      exact hconsumer.elim

/-- The producer touches neither the consumer's locals nor the read offset. -/
theorem producerStep_frame (s : Sys) :
    (producerStep s).consumer = s.consumer ∧
      (producerStep s).ring.read = s.ring.read := by
  simp only [producerStep]
  split <;> (try split) <;> (try split) <;> exact ⟨rfl, rfl⟩

/-- The consumer does not touch the producer's side of the record. -/
theorem consumerStep_frame (s : Sys) :
    (consumerStep s).accepted = s.accepted ∧ (consumerStep s).todo = s.todo ∧
      (consumerStep s).producer = s.producer := by
  simp only [consumerStep]
  split <;> (try split) <;> exact ⟨rfl, rfl, rfl⟩

/-- The consumer stores no cell and not the write offset. -/
theorem consumerStep_ring (s : Sys) :
    (consumerStep s).ring.data = s.ring.data ∧
      (consumerStep s).ring.write = s.ring.write := by
  simp only [consumerStep]
  split <;> (try split) <;> exact ⟨rfl, rfl⟩

/-! ## Whole runs -/

/-- The invariant of a ring whose offsets only its two parties store: the
published log is the list of accepted frames. -/
def SpscInv (cap : Nat) (s : Sys) : Prop := RingInv cap [] s.accepted s.accepted s

theorem start_spscInv (data : List UInt8) (calls : List Call) (hcap : 0 < data.length) :
    SpscInv data.length (start data calls) where
  capPos := hcap
  capacity := rfl
  ahead := List.prefix_rfl
  write := rfl
  readLe := Nat.le_refl 0
  readBoundary := ⟨[], List.nil_prefix, rfl⟩
  room := Nat.zero_le _
  cells := by
    intro j _ hj
    exact absurd hj (Nat.not_lt_zero j)
  producer := rfl
  consumer := trivial
  received := rfl

theorem SpscInv.step {cap : Nat} {s : Sys} (h : SpscInv cap s) (party : Party) :
    SpscInv cap (step s party) := by
  cases party with
  | producer =>
      rcases RingInv.producerStep h with ⟨log', plog', hinv, hpublished⟩
      have hlogs : log' = (producerStep s).accepted ∧ plog' = (producerStep s).accepted := by
        rcases hpublished with ⟨hlog, hplog, hacc⟩ | ⟨frame, hlog, hplog, hacc⟩
        · rw [hlog, hacc]
          exact ⟨rfl, hplog.elim id id⟩
        · rw [hlog, hplog, hacc]
          exact ⟨rfl, rfl⟩
      rcases hlogs with ⟨rfl, rfl⟩
      exact hinv
  | consumer =>
      unfold SpscInv
      rw [RingInterleaving.step, (consumerStep_frame s).1]
      exact RingInv.consumerStep h

theorem SpscInv.run {cap : Nat} {s : Sys} (h : SpscInv cap s) (schedule : List Party) :
    SpscInv cap (run RingInterleaving.step s schedule) :=
  run_invariant (SpscInv cap) (fun _ party hs => hs.step party) h schedule

/-- The frames of the calls that are still to be answered. -/
def pending (s : Sys) : List (List UInt8) :=
  match s.producer with
  | .loadedWrite call _ => call.frame :: s.todo.map Call.frame
  | .loadedRead call _ => call.frame :: s.todo.map Call.frame
  | .copied call _ => call.frame :: s.todo.map Call.frame
  | _ => s.todo.map Call.frame

/-- Every step answers the calls in order, or leaves them pending. -/
theorem step_answers (s : Sys) (party : Party) :
    ((step s party).accepted ++ pending (step s party)).Sublist
      (s.accepted ++ pending s) := by
  cases party with
  | consumer =>
      rcases consumerStep_frame s with ⟨hacc, htodo, hproducer⟩
      simp only [step, pending, hacc, htodo, hproducer]
      exact List.Sublist.refl _
  | producer =>
      simp only [step]
      cases hphase : s.producer with
      | idle =>
          cases htodo : s.todo with
          | nil =>
              simp only [producerStep, hphase, htodo]
              exact List.Sublist.refl _
          | cons call rest =>
              simp only [producerStep, hphase, htodo, pending, List.map_cons]
              split
              · exact (List.sublist_cons_self _ _).append_left _
              · exact List.Sublist.refl _
      | loadedWrite call w =>
          simp only [producerStep, hphase, pending]
          split
          · exact (List.sublist_cons_self _ _).append_left _
          · split
            · exact (List.sublist_cons_self _ _).append_left _
            · exact List.Sublist.refl _
      | loadedRead call w =>
          simp only [producerStep, hphase, pending]
          split
          · exact (List.sublist_cons_self _ _).append_left _
          · exact List.Sublist.refl _
      | copied call w =>
          simp only [producerStep, hphase, pending, List.append_assoc,
            List.singleton_append]
          exact List.Sublist.refl _
      | panicked =>
          simp only [producerStep, hphase]
          exact List.Sublist.refl _

/-- The calls answered with true and the pending ones are among `calls`, in
their order. -/
def AnswersInOrder (calls : List Call) (s : Sys) : Prop :=
  (s.accepted ++ pending s).Sublist (calls.map Call.frame)

theorem AnswersInOrder.step {calls : List Call} {s : Sys} (h : AnswersInOrder calls s)
    (party : Party) : AnswersInOrder calls (step s party) :=
  (step_answers s party).trans h

theorem AnswersInOrder.accepted {calls : List Call} {s : Sys}
    (h : AnswersInOrder calls s) : s.accepted.Sublist (calls.map Call.frame) :=
  (List.sublist_append_left _ _).trans h

theorem start_answersInOrder (data : List UInt8) (calls : List Call) :
    AnswersInOrder calls (start data calls) :=
  List.Sublist.refl _

theorem SpscInv.received_eq {cap : Nat} {s : Sys} (h : SpscInv cap s)
    (hmeet : s.ring.read = s.ring.write) : s.received = s.accepted.flatten := by
  have hreceived := h.received
  have hconsumer := h.consumer
  have hfull : s.accepted.flatten.take s.ring.read = s.accepted.flatten := by
    rw [hmeet, h.write, List.take_length]
  rw [List.nil_append, drained] at hreceived
  cases hphase : s.consumer with
  | copied r bytes =>
      -- A consumer about to store its offset has not caught up.
      rw [hphase] at hconsumer
      rcases hconsumer with ⟨hr, hpos, hboundary, -⟩
      have hle := hboundary.le
      rw [← h.write] at hle
      omega
  | idle => rw [hphase] at hreceived; exact hreceived.trans hfull
  | loadedWrite w => rw [hphase] at hreceived; exact hreceived.trans hfull
  | loadedRead r avail => rw [hphase] at hreceived; exact hreceived.trans hfull
  | returned bytes => rw [hphase] at hreceived; exact hreceived.trans hfull
  | panicked => rw [hphase] at hreceived; exact hreceived.trans hfull

/-- **The ring delivers.** For every capacity of at least one, every stale
contents, every list of producer calls and every interleaving: the offsets
stay within one revolution, neither party runs into an underflow or an index
out of range, and what the consumer has read is a prefix of the accepted
frames, and all of them where the offsets meet. -/
theorem spsc_ring_delivers (data : List UInt8) (hcap : 1 ≤ data.length)
    (calls : List Call) (schedule : List Party) :
    let s := run step (start data calls) schedule
    (s.ring.read ≤ s.ring.write ∧ s.ring.write ≤ s.ring.read + data.length) ∧
      (s.producer ≠ .panicked ∧ s.consumer ≠ .panicked) ∧
      s.accepted.Sublist (calls.map Call.frame) ∧
      s.received <+: s.accepted.flatten ∧
      (s.ring.read = s.ring.write → s.received = s.accepted.flatten) := by
  intro s
  have h : SpscInv data.length s := (start_spscInv data calls hcap).run schedule
  have horder : AnswersInOrder calls s :=
    run_invariant (AnswersInOrder calls) (fun _ party hs => hs.step party)
      (start_answersInOrder data calls) schedule
  refine ⟨⟨h.readLe, ?_⟩, ⟨?_, ?_⟩, horder.accepted, ?_, h.received_eq⟩
  · rw [h.write]
    exact h.room
  · intro hpanic
    have hproducer := h.producer
    rw [hpanic] at hproducer
    exact hproducer
  · intro hpanic
    have hconsumer := h.consumer
    rw [hpanic] at hconsumer
    exact hconsumer
  · rw [h.received, List.nil_append]
    exact List.take_prefix _ _

/-- Eight cells and a consumer that drains the first frame after the second
call has loaded its offsets; the third frame wraps. -/
def wrapSchedule : List Party :=
  List.replicate 6 .producer ++ List.replicate 5 .consumer ++
    List.replicate 6 .producer ++ List.replicate 5 .consumer

theorem spsc_ring_delivers_across_the_wrap :
    1 ≤ (List.replicate 8 (7 : UInt8)).length ∧
      let s := run step (start (List.replicate 8 7)
        [.writeFrame [1, 2, 3], .writeFrame [4, 5, 6], .writeFrame [8, 9, 10]]) wrapSchedule
      (s.ring.read ≤ s.ring.write ∧
          s.ring.write ≤ s.ring.read + (List.replicate 8 (7 : UInt8)).length) ∧
        (s.producer ≠ .panicked ∧ s.consumer ≠ .panicked) ∧
        s.accepted.Sublist
          ([.writeFrame [1, 2, 3], .writeFrame [4, 5, 6], .writeFrame [8, 9, 10]].map
            Call.frame) ∧
        s.received <+: s.accepted.flatten ∧
        (s.ring.read = s.ring.write → s.received = s.accepted.flatten) :=
  ⟨by decide, spsc_ring_delivers (List.replicate 8 7) (by decide) _ wrapSchedule⟩

example : (run step (start (List.replicate 8 7)
    [.writeFrame [1, 2, 3], .writeFrame [4, 5, 6], .writeFrame [8, 9, 10]])
      wrapSchedule).received = [1, 2, 3, 4, 5, 6, 8, 9, 10] := by
  decide

end Corsair.Ports.RingInterleaving
