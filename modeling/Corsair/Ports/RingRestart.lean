import Corsair.Ports.RingInterleaving

/-!
# Re-creating a ring under a live client

`create_owner` truncates the backing file and stores the two offsets as zero.
A restarted broker does that while the trader may still have the same file
mapped: on the events ring the trader is the consumer, on the commands ring
it is the producer.  Truncating and extending the file is one step that zeroes
header and data; each store of an offset is a step of its own; afterwards the
new owner runs its side of the ring.  The client keeps taking its atomic steps
throughout, with whatever offsets it has loaded.

The previous owner is gone when its successor starts, so a `restart` puts the
owner's side back to idle.  It may come at any time, also while the reset of
an earlier restart is under way.

## Main results

* `restart_leaves_read_past_write` — a client that stores its read offset
  after the reset leaves it past the write offset for good.
* `restart_resynchronises` — where no truncation meets a client that has
  loaded an offset or copied its bytes, every quiescent state has valid
  offsets and the next drain is a list of whole frames.
-/

namespace Corsair.Ports.RingRestart

open Corsair.Verified
open Corsair.Verified.Runs
open Corsair.Verified.Circular
open Corsair.Ports.Ring
open Corsair.Ports.RingInterleaving

/-- What `create_owner` still has to do. -/
inductive ResetStep
  | truncate
  | storeWrite
  | storeRead
  deriving DecidableEq, Repr

/-- The ring with its two parties and the rest of the owner's reset. -/
structure RestartSys where
  sys : Sys
  reset : List ResetStep
  deriving DecidableEq, Repr

/-- A choice of the scheduler.  `restart` replaces the owner by a new one that
will make the given calls, if the owner is the producer. -/
inductive Move
  | owner
  | client
  | restart (calls : List Call)
  deriving DecidableEq, Repr

/-- The other side of the ring. -/
def ownerOf : Party → Party
  | .producer => .consumer
  | .consumer => .producer

/-- A new owner process: nothing loaded, its own handle, its own calls. -/
def freshOwner (client : Party) (calls : List Call) (s : Sys) : Sys :=
  match client with
  | .consumer =>
      { s with
        ring := { s.ring with framesDropped := 0 }
        producer := .idle
        todo := calls }
  | .producer => { s with consumer := .idle, received := [] }

/-- `create_owner`, step by step, on the shared ring. -/
def applyReset (ring : Ring) : ResetStep → Ring
  | .truncate =>
      { ring with data := List.replicate ring.data.length 0, write := 0, read := 0 }
  | .storeWrite => { ring with write := 0 }
  | .storeRead => { ring with read := 0 }

/-- One step of the ring `client` is attached to. -/
def restartStep (client : Party) (s : RestartSys) : Move → RestartSys
  | .client => { s with sys := step s.sys client }
  | .owner =>
      match s.reset with
      | [] => { s with sys := step s.sys (ownerOf client) }
      | r :: rest => { sys := { s.sys with ring := applyReset s.sys.ring r }, reset := rest }
  | .restart calls =>
      { sys := freshOwner client calls s.sys, reset := [.truncate, .storeWrite, .storeRead] }

/-- A first broker with its client on an empty ring. -/
def restartStart (data : List UInt8) (calls : List Call) : RestartSys :=
  { sys := start data calls, reset := [] }

/-- No reset under way and no party inside a call. -/
def Quiescent (s : RestartSys) : Prop :=
  s.reset = [] ∧ s.sys.producer = .idle ∧ s.sys.consumer = .idle

instance (s : RestartSys) : Decidable (Quiescent s) := by
  unfold Quiescent
  infer_instance

/-- The consumer's next bytes are whole frames that were accepted. -/
def NextBytesWhole (s : Sys) : Prop :=
  ∃ (next : List (List UInt8)) (ring' : Ring),
    next.Sublist s.accepted ∧ s.ring.readAvailable = some (next.flatten, ring')

/-- A reader that drains one frame while the broker restarts: its last store
comes after the reset. -/
def staleReader : List Move :=
  List.replicate 4 .owner ++ List.replicate 3 .client ++
    [.restart [], .owner, .owner, .owner] ++ List.replicate 2 .client

/-- The stale store leaves the read offset past the write offset in a
quiescent state. -/
theorem restart_leaves_read_past_write :
    let s := run (restartStep .consumer)
      (restartStart (List.replicate 8 0) [.writeFrame [1, 2, 3]]) staleReader
    Quiescent s ∧ ¬ s.sys.ring.read ≤ s.sys.ring.write := by
  decide

/-! ## The condition -/

/-- The client carries nothing over a truncation: it has loaded no offset but
zero, and has copied no bytes that it still has to publish. -/
def Unloaded (client : Party) (s : Sys) : Prop :=
  match client with
  | .consumer =>
      match s.consumer with
      | .idle => True
      | .returned _ => True
      | .loadedWrite w => w = 0
      | _ => False
  | .producer =>
      match s.producer with
      | .idle => True
      | .loadedWrite _ w => w = 0
      | .loadedRead _ w => w = 0
      | _ => False

instance (client : Party) (s : Sys) : Decidable (Unloaded client s) := by
  unfold Unloaded
  split <;> split <;> infer_instance

/-- The step does not truncate the file under a client inside a call. -/
def TruncatesCleanly (client : Party) (s : RestartSys) (move : Move) : Prop :=
  move = .owner → s.reset.head? = some .truncate → Unloaded client s.sys

instance (client : Party) (s : RestartSys) (move : Move) :
    Decidable (TruncatesCleanly client s move) := by
  unfold TruncatesCleanly
  infer_instance

/-! ## The invariant -/

/-- The capacity is fixed, and the producer is inside no call whose frame is
longer than half of it. -/
structure Sized (cap : Nat) (s : Sys) : Prop where
  capPos : 0 < cap
  capacity : s.ring.data.length = cap
  small : ∀ call w, s.producer = .loadedWrite call w ∨ s.producer = .loadedRead call w →
    call.frame.length ≤ cap / 2

/-- The owner's side is outside every call. -/
def OwnerIdle (client : Party) (s : Sys) : Prop :=
  match client with
  | .consumer => s.producer = .idle
  | .producer => s.consumer = .idle

/-- The ring works on some of the accepted frames. -/
def Live (cap : Nat) (s : Sys) : Prop :=
  ∃ base log plog, RingInv cap base log plog s ∧ plog.Sublist s.accepted

/-- Between the truncation and the last store of the reset. -/
structure Cleared (cap : Nat) (client : Party) (s : Sys) : Prop where
  live : Live cap s
  owner : OwnerIdle client s
  read : s.ring.read = 0
  write : client = .consumer → s.ring.write = 0

/-- What holds at each stage of the reset. -/
def Stage (cap : Nat) (client : Party) (s : RestartSys) : Prop :=
  match s.reset with
  | [] => Live cap s.sys
  | .truncate :: rest => OwnerIdle client s.sys ∧ rest = [.storeWrite, .storeRead]
  | .storeWrite :: rest => Cleared cap client s.sys ∧ rest = [.storeRead]
  | .storeRead :: rest => Cleared cap client s.sys ∧ rest = []

structure RestartInv (cap : Nat) (client : Party) (s : RestartSys) : Prop where
  sized : Sized cap s.sys
  stage : Stage cap client s

variable {cap : Nat} {client : Party} {s : Sys}

theorem Sized.producerStep (h : Sized cap s) : Sized cap (producerStep s) := by
  have hcapacity := h.capacity
  have hsmall := h.small
  refine ⟨h.capPos, ?_, ?_⟩
  · unfold RingInterleaving.producerStep
    split
    · split
      · exact hcapacity
      · split
        · exact hcapacity
        · exact hcapacity
    · split
      · exact hcapacity
      · split
        · exact hcapacity
        · exact hcapacity
    · split
      · exact hcapacity
      · rename_i hcopy
        exact (Call.copy_length hcopy).trans hcapacity
    · exact hcapacity
    · exact hcapacity
  · intro call w hphase
    cases hold : s.producer with
    | idle =>
        cases htodo : s.todo with
        | nil => simp [RingInterleaving.producerStep, hold, htodo] at hphase
        | cons next rest =>
            simp only [RingInterleaving.producerStep, hold, htodo] at hphase
            split at hphase
            · simp at hphase
            · rename_i hbig
              simp only [Producer.loadedWrite.injEq, reduceCtorEq, or_false] at hphase
              rw [← hphase.1, ← hcapacity]
              exact Nat.not_lt.mp hbig
    | loadedWrite next w' =>
        have hnext := hsmall next w' (.inl hold)
        simp only [RingInterleaving.producerStep, hold] at hphase
        split at hphase
        · simp at hphase
        · split at hphase
          · simp at hphase
          · simp only [Producer.loadedRead.injEq, reduceCtorEq, false_or] at hphase
            rw [← hphase.1]
            exact hnext
    | loadedRead next w' =>
        simp only [RingInterleaving.producerStep, hold] at hphase
        split at hphase
        · simp at hphase
        · simp at hphase
    | copied next w' => simp [RingInterleaving.producerStep, hold] at hphase
    | panicked => simp [RingInterleaving.producerStep, hold] at hphase

theorem Sized.step (h : Sized cap s) (party : Party) : Sized cap (step s party) := by
  cases party with
  | producer => exact h.producerStep
  | consumer =>
      refine ⟨h.capPos, ?_, ?_⟩
      · rw [RingInterleaving.step, (consumerStep_ring s).1]
        exact h.capacity
      · rw [RingInterleaving.step, (consumerStep_frame s).2.2]
        exact h.small

theorem Live.step (h : Live cap s) (party : Party) : Live cap (step s party) := by
  rcases h with ⟨base, log, plog, hinv, hsub⟩
  cases party with
  | consumer =>
      refine ⟨base, log, plog, hinv.consumerStep, ?_⟩
      rw [RingInterleaving.step, (consumerStep_frame s).1]
      exact hsub
  | producer =>
      rcases hinv.producerStep with ⟨log', plog', hinv', hpublished⟩
      refine ⟨base, log', plog', hinv', ?_⟩
      rcases hpublished with ⟨-, hplog, hacc⟩ | ⟨frame, -, rfl, hacc⟩
      · rw [RingInterleaving.step, hacc]
        rcases hplog with rfl | rfl
        · exact hsub
        · exact hinv.ahead.sublist.trans hsub
      · rw [RingInterleaving.step, hacc]
        exact hsub.append_right [frame]

theorem OwnerIdle.clientStep (h : OwnerIdle client s) : OwnerIdle client (step s client) := by
  cases client with
  | consumer =>
      rw [OwnerIdle, step, (consumerStep_frame s).2.2]
      exact h
  | producer =>
      rw [OwnerIdle, step, (producerStep_frame s).1]
      exact h

theorem Cleared.clientStep (h : Cleared cap client s) :
    Cleared cap client (step s client) := by
  have hlive := h.live.step client
  refine ⟨hlive, h.owner.clientStep, ?_, ?_⟩
  · cases client with
    | producer =>
        rw [step, (producerStep_frame s).2]
        exact h.read
    | consumer =>
        rcases hlive with ⟨base, log, plog, hinv, -⟩
        have hwrite : (step s .consumer).ring.write = 0 := by
          rw [step, (consumerStep_ring s).2]
          exact h.write rfl
        have hle := hinv.readLe
        omega
  · rintro rfl
    rw [step, (consumerStep_ring s).2]
    exact h.write rfl

/-! ## The steps of the reset -/

/-- **Truncation.** Under a client that carries nothing over, the zeroed ring
is an empty ring. -/
theorem Sized.truncate (h : Sized cap s) (howner : OwnerIdle client s)
    (hclient : Unloaded client s) :
    Cleared cap client { s with ring := applyReset s.ring .truncate } := by
  have hinv : RingInv cap s.received [] [] { s with ring := applyReset s.ring .truncate } :=
    { capPos := h.capPos
      capacity := by simp [applyReset, h.capacity]
      ahead := List.prefix_rfl
      write := rfl
      readLe := Nat.le_refl 0
      readBoundary := ⟨[], List.prefix_rfl, rfl⟩
      room := Nat.zero_le _
      cells := by
        intro j _ hj
        exact absurd hj (Nat.not_lt_zero j)
      producer := by
        cases hphase : s.producer with
        | idle => rfl
        | loadedWrite call w =>
            cases client with
            | consumer => simp [OwnerIdle, hphase] at howner
            | producer =>
                simp only [Unloaded, hphase] at hclient
                exact ⟨hclient, h.small call w (.inl hphase)⟩
        | loadedRead call w =>
            cases client with
            | consumer => simp [OwnerIdle, hphase] at howner
            | producer =>
                simp only [Unloaded, hphase] at hclient
                have hsmall := h.small call w (.inr hphase)
                refine ⟨hclient, hsmall, ?_⟩
                simp only [applyReset]
                omega
        | copied call w =>
            cases client with
            | consumer => simp [OwnerIdle, hphase] at howner
            | producer => simp [Unloaded, hphase] at hclient
        | panicked =>
            cases client with
            | consumer => simp [OwnerIdle, hphase] at howner
            | producer => simp [Unloaded, hphase] at hclient
      consumer := by
        cases hphase : s.consumer with
        | idle => trivial
        | returned bytes => trivial
        | loadedWrite w =>
            cases client with
            | producer => simp [OwnerIdle, hphase] at howner
            | consumer =>
                simp only [Unloaded, hphase] at hclient
                exact ⟨Nat.zero_le w, [], List.prefix_rfl, hclient.symm⟩
        | loadedRead r avail =>
            cases client with
            | producer => simp [OwnerIdle, hphase] at howner
            | consumer => simp [Unloaded, hphase] at hclient
        | copied r bytes =>
            cases client with
            | producer => simp [OwnerIdle, hphase] at howner
            | consumer => simp [Unloaded, hphase] at hclient
        | panicked =>
            cases client with
            | producer => simp [OwnerIdle, hphase] at howner
            | consumer => simp [Unloaded, hphase] at hclient
      received := by simp }
  refine ⟨⟨s.received, [], [], hinv, List.nil_sublist _⟩, ?_, rfl, fun _ => rfl⟩
  cases client with
  | consumer => exact howner
  | producer => exact howner

/-- Setting the write offset back under a producing client hides what it has
published; what it works on stays in place. -/
theorem Cleared.storeWrite (h : Cleared cap client s) :
    Cleared cap client { s with ring := applyReset s.ring .storeWrite } := by
  cases client with
  | consumer =>
      have hsame : applyReset s.ring .storeWrite = s.ring := by
        have hwrite := h.write rfl
        cases hring : s.ring
        simp_all [applyReset]
      rw [hsame]
      exact h
  | producer =>
      rcases h.live with ⟨base, log, plog, hinv, hsub⟩
      have hidle : s.consumer = .idle := h.owner
      have hread := h.read
      have hreceived := hinv.received
      simp only [drained, hidle, hread, List.take_zero] at hreceived
      have hplog : ∃ plog', plog'.Sublist s.accepted ∧
          plog'.flatten.length ≤ s.ring.read + cap ∧
          (∀ j, s.ring.read ≤ j → j < plog'.flatten.length →
            cell s.ring.data j = plog'.flatten[j]?) ∧
          ProducerInv cap [] plog' s.ring s.producer := by
        have hproducer := hinv.producer
        cases hphase : s.producer with
        | idle => exact ⟨[], List.nil_sublist _, Nat.zero_le _, by simp, rfl⟩
        | loadedWrite call w =>
            rw [hphase] at hproducer
            exact ⟨plog, hsub, hinv.room, hinv.cells, hproducer⟩
        | loadedRead call w =>
            rw [hphase] at hproducer
            exact ⟨plog, hsub, hinv.room, hinv.cells, hproducer⟩
        | copied call w =>
            rw [hphase] at hproducer
            exact ⟨plog, hsub, hinv.room, hinv.cells, hproducer⟩
        | panicked =>
            rw [hphase] at hproducer
            exact hproducer.elim
      rcases hplog with ⟨plog', hsub', hroom, hcells, hproducer⟩
      refine ⟨⟨base, [], plog', ?_, hsub'⟩, hidle, hread, fun hc => by cases hc⟩
      exact
        { capPos := hinv.capPos
          capacity := hinv.capacity
          ahead := List.nil_prefix
          write := rfl
          readLe := by simp [applyReset, hread]
          readBoundary := ⟨[], List.prefix_rfl, by simp [applyReset, hread]⟩
          room := hroom
          cells := hcells
          producer := by
            cases hphase : s.producer <;> rw [hphase] at hproducer <;> exact hproducer
          consumer := by simp [hidle, ConsumerInv]
          received := by simpa [drained, hidle] using hreceived }

/-- The read offset is zero already. -/
theorem Cleared.storeRead (h : Cleared cap client s) :
    Cleared cap client { s with ring := applyReset s.ring .storeRead } := by
  have hsame : applyReset s.ring .storeRead = s.ring := by
    have hread := h.read
    cases hring : s.ring
    simp_all [applyReset]
  rw [hsame]
  exact h

theorem Sized.freshOwner (h : Sized cap s) (client : Party) (calls : List Call) :
    Sized cap (freshOwner client calls s) ∧
      OwnerIdle client (RingRestart.freshOwner client calls s) := by
  cases client with
  | consumer => exact ⟨⟨h.capPos, h.capacity, by simp [RingRestart.freshOwner]⟩, rfl⟩
  | producer => exact ⟨⟨h.capPos, h.capacity, h.small⟩, rfl⟩

theorem Sized.applyReset (h : Sized cap s) (r : ResetStep) :
    Sized cap { s with ring := applyReset s.ring r } := by
  refine ⟨h.capPos, ?_, h.small⟩
  cases r with
  | truncate => simp [RingRestart.applyReset, h.capacity]
  | storeWrite => exact h.capacity
  | storeRead => exact h.capacity

/-! ## Whole runs -/

theorem RestartInv.step {s : RestartSys} (h : RestartInv cap client s) (move : Move)
    (hclean : TruncatesCleanly client s move) :
    RestartInv cap client (restartStep client s move) := by
  have hstage := h.stage
  cases move with
  | restart calls =>
      rcases h.sized.freshOwner client calls with ⟨hsized, hidle⟩
      exact ⟨hsized, hidle, rfl⟩
  | client =>
      refine ⟨h.sized.step client, ?_⟩
      simp only [Stage, restartStep] at hstage ⊢
      split at hstage
      · exact hstage.step client
      · exact ⟨hstage.1.clientStep, hstage.2⟩
      · exact ⟨hstage.1.clientStep, hstage.2⟩
      · exact ⟨hstage.1.clientStep, hstage.2⟩
  | owner =>
      unfold Stage at hstage
      cases hreset : s.reset with
      | nil =>
          rw [hreset] at hstage
          simp only [restartStep, hreset]
          refine ⟨h.sized.step _, ?_⟩
          simp only [Stage]
          exact Live.step hstage (ownerOf client)
      | cons r rest =>
          rw [hreset] at hstage
          simp only [restartStep, hreset]
          refine ⟨h.sized.applyReset r, ?_⟩
          cases r with
          | truncate =>
              rcases hstage with ⟨howner, rfl⟩
              exact ⟨h.sized.truncate howner (hclean rfl (by rw [hreset]; rfl)), rfl⟩
          | storeWrite =>
              rcases hstage with ⟨hcleared, rfl⟩
              exact ⟨hcleared.storeWrite, rfl⟩
          | storeRead =>
              rcases hstage with ⟨hcleared, rfl⟩
              exact hcleared.storeRead.live

theorem restartStart_restartInv (data : List UInt8) (calls : List Call)
    (hcap : 0 < data.length) (client : Party) :
    RestartInv data.length client (restartStart data calls) where
  sized := ⟨hcap, rfl, by simp [restartStart, start]⟩
  stage := ⟨[], [], [], start_spscInv data calls hcap, List.nil_sublist _⟩

/-- A live ring has valid offsets, and its next drain is whole frames. -/
theorem Live.next (h : Live cap s) : s.ring.Valid ∧ NextBytesWhole s := by
  rcases h with ⟨base, log, plog, hinv, hsub⟩
  have hahead := hinv.ahead.flatten.length_le
  have hroom := hinv.room
  have hwrite := hinv.write
  have hvalid : s.ring.Valid := by
    refine ⟨hinv.readLe, ?_⟩
    rw [Ring.capacity, hinv.capacity]
    omega
  refine ⟨hvalid, ?_⟩
  have hpos : 0 < s.ring.capacity := by
    rw [Ring.capacity, hinv.capacity]
    exact hinv.capPos
  rcases readAvailable_spec s.ring hpos hvalid with ⟨bytes, hcall, hlen, hget⟩
  rcases hinv.readBoundary with ⟨front, ⟨next, rfl⟩, hfront⟩
  have hsplit : (front ++ next).flatten.length = s.ring.read + next.flatten.length := by
    rw [List.flatten_append, List.length_append, hfront]
  have hbytes : bytes = next.flatten := by
    apply List.ext_getElem?
    intro j
    by_cases hj : j < s.ring.write - s.ring.read
    · rw [hget j hj, hinv.cells _ (Nat.le_add_right _ _) (by omega),
        getElem?_of_isPrefix hinv.ahead.flatten (by omega), List.flatten_append,
        List.getElem?_append_right (by omega), hfront]
      congr 1
      omega
    · rw [List.getElem?_eq_none (by omega), List.getElem?_eq_none (by omega)]
  have hnext : next.Sublist s.accepted :=
    (List.sublist_append_right _ _).trans (hinv.ahead.sublist.trans hsub)
  exact ⟨next, _, hnext, hbytes ▸ hcall⟩

/-- **Restart under a live client.** Take any capacity, contents and calls,
either side as the client, and any interleaving of the client's steps with the
steps of the owners and with any number of restarts.  Where no truncation
meets a client that has loaded an offset or copied its bytes, every quiescent
state has `read ≤ write ≤ read + capacity`, and the consumer's next bytes are
whole frames. -/
theorem restart_resynchronises (client : Party) (data : List UInt8)
    (hcap : 1 ≤ data.length) (calls : List Call) (moves : List Move)
    (hclean : Meets (restartStep client) (TruncatesCleanly client)
      (restartStart data calls) moves) :
    let s := run (restartStep client) (restartStart data calls) moves
    Quiescent s →
      (s.sys.ring.read ≤ s.sys.ring.write ∧
        s.sys.ring.write ≤ s.sys.ring.read + data.length) ∧ NextBytesWhole s.sys := by
  intro s hquiet
  have hinv : RestartInv data.length client s :=
    run_invariant_of_meets (RestartInv data.length client)
      (fun _ move hmove h => h.step move hmove)
      (restartStart_restartInv data calls hcap client) moves hclean
  have hstage := hinv.stage
  simp only [Stage, hquiet.1] at hstage
  rcases hstage.next with ⟨hvalid, hnext⟩
  have hcapacity : s.sys.ring.capacity = data.length := hinv.sized.capacity
  refine ⟨⟨hvalid.1, ?_⟩, hnext⟩
  rw [← hcapacity]
  exact hvalid.2

/-- The same restart with the reader outside its call; the new owner then
writes a frame. -/
def cleanRestart : List Move :=
  List.replicate 4 .owner ++ List.replicate 5 .client ++
    [.restart [.writeFrame [7, 8]], .owner, .owner, .client, .owner] ++
    List.replicate 4 .owner ++ List.replicate 2 .client

theorem restart_resynchronises_idle_reader :
    Meets (restartStep .consumer) (TruncatesCleanly .consumer)
        (restartStart (List.replicate 8 0) [.writeFrame [1, 2, 3]]) cleanRestart ∧
      let s := run (restartStep .consumer)
        (restartStart (List.replicate 8 0) [.writeFrame [1, 2, 3]]) cleanRestart
      Quiescent s ∧
        (s.sys.ring.read ≤ s.sys.ring.write ∧
          s.sys.ring.write ≤ s.sys.ring.read + 8) ∧ NextBytesWhole s.sys :=
  ⟨by decide, by decide,
    restart_resynchronises .consumer (List.replicate 8 0) (by decide) [.writeFrame [1, 2, 3]]
      cleanRestart (by decide) (by decide)⟩

end Corsair.Ports.RingRestart
