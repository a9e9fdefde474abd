import Corsair.Ports.RingInterleaving

/-!
# `command_pump`: from the trader's frames to the dispatcher

The trader writes command frames on the commands ring.  The pump drains the
ring into a fresh buffer, unpacks it, throws the leftover bytes away and sends
the bodies one by one over a bounded channel; the dispatcher takes them off.
The asynchronous and the busy-polling pump differ only in how they wait, so
both are this one state machine.  The ring steps are those of
`Corsair.Ports.RingInterleaving`, with the pump as its consumer.

`extract_type` decodes the body with `rmp_serde`; it labels the command and
decides nothing here, so it is a parameter.  The receiving end of the channel
lives as long as the runtime, hence `send` never fails.

## Main results

* `PumpInv.returned_whole_frames` — a drain is a concatenation of whole frames.
* `Carries.round` — a step of the pump and a later one of the dispatcher bring
  what is accepted nearer to the dispatcher.
* `commands_delivered` — the dispatcher is handed the bodies of the accepted
  frames, in order, each once, and a drain leaves no byte behind.
-/

namespace Corsair.Ports.CommandPump

open Corsair.Verified
open Corsair.Verified.Runs
open Corsair.Ports.Ring
open Corsair.Ports.Protocol
open Corsair.Ports.RingInterleaving

/-- `ServerCommand`. -/
structure ServerCommand where
  kind : String
  body : List UInt8
  deriving DecidableEq, Repr

/-- The bound of `mpsc::channel(1024)`. -/
def channelCapacity : Nat := 1024

/-- The ring with its two parties, the bodies of the current drain that are
still to be sent, the channel, and what the dispatcher has taken off it. -/
structure PumpSys where
  ring : Sys
  sending : List (List UInt8)
  channel : List ServerCommand
  handed : List ServerCommand
  deriving DecidableEq, Repr

inductive PumpParty
  | trader
  | pump
  | dispatcher
  deriving DecidableEq, Repr

/-- The bodies of one drain: an empty drain and an unpacking error send
nothing, and the leftover bytes are dropped. -/
def unpackDrain (bytes : List UInt8) : List (List UInt8) :=
  if bytes.isEmpty then []
  else
    match (unpackAllFrames bytes).1 with
    | .ok frames => frames
    | .error _ => []

section

variable (extractType : List UInt8 → Option String)

/-- The command that a body is sent as. -/
def serverCommand (body : List UInt8) : ServerCommand :=
  { kind := (extractType body).getD "unknown", body := body }

/-- One step of `command_pump`: send the next body if the channel has room,
else go on draining the ring. -/
def pumpStep (s : PumpSys) : PumpSys :=
  match s.sending with
  | body :: rest =>
      if s.channel.length < channelCapacity then
        { s with sending := rest, channel := s.channel ++ [serverCommand extractType body] }
      else s
  | [] =>
      match s.ring.consumer with
      | .returned bytes =>
          { s with ring := consumerStep s.ring, sending := unpackDrain bytes }
      | _ => { s with ring := consumerStep s.ring }

/-- The dispatcher takes the next command off the channel. -/
def dispatcherStep (s : PumpSys) : PumpSys :=
  match s.channel with
  | [] => s
  | command :: rest => { s with channel := rest, handed := s.handed ++ [command] }

def pumpSysStep (s : PumpSys) : PumpParty → PumpSys
  | .trader => { s with ring := producerStep s.ring }
  | .pump => pumpStep extractType s
  | .dispatcher => dispatcherStep s

end

def pumpStart (data : List UInt8) (calls : List Call) : PumpSys :=
  { ring := start data calls, sending := [], channel := [], handed := [] }

/-- The bodies that have left the ring's consumer, in order. -/
def delivered (s : PumpSys) : List (List UInt8) :=
  s.handed.map ServerCommand.body ++ s.channel.map ServerCommand.body ++ s.sending

/-- Nothing is left to drain, to send or to take off the channel. -/
def Quiet (s : PumpSys) : Prop :=
  s.ring.ring.read = s.ring.ring.write ∧ s.ring.consumer = .idle ∧
    s.sending = [] ∧ s.channel = []

instance (s : PumpSys) : Decidable (Quiet s) := by
  unfold Quiet
  infer_instance

/-! ## Frames as bodies -/

theorem packFrame_injective : Function.Injective packFrame := by
  intro a b hab
  have hdrop := congrArg (List.drop 4) hab
  unfold packFrame at hdrop
  rw [List.drop_left' (BigEndian.toBytes_length 4 _),
    List.drop_left' (BigEndian.toBytes_length 4 _)] at hdrop
  exact hdrop

theorem frames_append (front back : List (List UInt8)) :
    frames (front ++ back) = frames front ++ frames back := by
  simp [frames]

/-- A boundary of packed frames is the length of some of the first bodies. -/
theorem boundary_frames {bodies : List (List UInt8)} {b : Nat}
    (h : Boundary (bodies.map packFrame) b) :
    ∃ front, front <+: bodies ∧ (frames front).length = b := by
  rcases h with ⟨log, ⟨rest, hrest⟩, hlen⟩
  rcases List.append_eq_map_iff.mp hrest with ⟨front, back, hbodies, hfront, -⟩
  refine ⟨front, ⟨back, hbodies.symm⟩, ?_⟩
  rw [frames, hfront]
  exact hlen

/-- Of two fronts of the bodies the one with more bytes extends the other. -/
theorem frames_chunk {done front bodies : List (List UInt8)} (hdone : done <+: bodies)
    (hfront : front <+: bodies) (hlt : (frames done).length < (frames front).length) :
    ∃ chunk, front = done ++ chunk := by
  rcases Nat.le_total done.length front.length with hle | hle
  · rcases List.prefix_of_prefix_length_le hdone hfront hle with ⟨chunk, hchunk⟩
    exact ⟨chunk, hchunk.symm⟩
  · rcases List.prefix_of_prefix_length_le hfront hdone hle with ⟨chunk, hchunk⟩
    rw [← hchunk, frames_append, List.length_append] at hlt
    omega

/-! ## The invariant -/

/-- How far the pump is, with `done` the bodies that have left the ring's
consumer: the read offset is behind their frames, and behind those of the
drain that has just returned. -/
def DrainInv (bodies done : List (List UInt8)) (ring : Sys) : Prop :=
  match ring.consumer with
  | .returned bytes =>
      ∃ chunk, bytes = frames chunk ∧ done ++ chunk <+: bodies ∧
        ring.ring.read = (frames (done ++ chunk)).length
  | _ => done <+: bodies ∧ ring.ring.read = (frames done).length

/-- `bodies` are the bodies of the accepted frames. -/
structure PumpInv (cap : Nat) (calls : List Call) (bodies : List (List UInt8))
    (s : PumpSys) : Prop where
  ring : SpscInv cap s.ring
  answers : AnswersInOrder calls s.ring
  accepted : s.ring.accepted = bodies.map packFrame
  drain : DrainInv bodies (delivered s) s.ring

theorem DrainInv.mono {bodies bodies' done : List (List UInt8)} {ring ring' : Sys}
    (hpre : bodies <+: bodies') (hconsumer : ring'.consumer = ring.consumer)
    (hread : ring'.ring.read = ring.ring.read) (h : DrainInv bodies done ring) :
    DrainInv bodies' done ring' := by
  unfold DrainInv at h ⊢
  rw [hconsumer, hread]
  split at h
  · rcases h with ⟨chunk, hbytes, hfront, hlen⟩
    exact ⟨chunk, hbytes, hfront.trans hpre, hlen⟩
  · exact ⟨h.1.trans hpre, h.2⟩

/-- A step of the ring's consumer that does not hand over a drain keeps the
pump where it is; the step that returns one returns whole frames. -/
theorem DrainInv.consumerStep {cap : Nat} {bodies done : List (List UInt8)} {ring : Sys}
    (hring : SpscInv cap ring) (haccepted : ring.accepted = bodies.map packFrame)
    (hopen : ∀ bytes, ring.consumer ≠ .returned bytes) (h : DrainInv bodies done ring) :
    DrainInv bodies done (consumerStep ring) := by
  have hconsumer := hring.consumer
  unfold DrainInv at h
  cases hphase : ring.consumer with
  | idle =>
      rw [hphase] at h
      simp only [DrainInv, RingInterleaving.consumerStep, hphase]
      exact h
  | loadedWrite w =>
      rw [hphase] at h
      simp only [DrainInv, RingInterleaving.consumerStep, hphase]
      by_cases hempty : w - ring.ring.read = 0
      · rw [if_pos hempty]
        refine ⟨[], rfl, ?_, ?_⟩
        · rw [List.append_nil]
          exact h.1
        · rw [List.append_nil]
          exact h.2
      · rw [if_neg hempty]
        exact h
  | loadedRead r avail =>
      rw [hphase] at h hconsumer
      rcases hconsumer with ⟨rfl, -, hboundary⟩
      rcases RingInv.copyOut hring hboundary with ⟨bytes, hcopy, -, -⟩
      simp only [DrainInv, RingInterleaving.consumerStep, hphase, hcopy]
      exact h
  | copied r bytes =>
      rw [hphase] at h hconsumer
      rcases h with ⟨hdone, hread⟩
      rcases hconsumer with ⟨rfl, hpos, hboundary, hbytes⟩
      rw [haccepted] at hboundary hbytes
      rcases boundary_frames hboundary with ⟨front, hfront, hlen⟩
      rcases frames_chunk hdone hfront (by omega) with ⟨chunk, rfl⟩
      simp only [DrainInv, RingInterleaving.consumerStep, hphase]
      refine ⟨chunk, ?_, hfront, hlen.symm⟩
      rcases hfront with ⟨rest, rfl⟩
      have hchunk : bytes.length = (frames chunk).length := by
        rw [frames_append, List.length_append] at hlen
        omega
      rw [hbytes, hread, hchunk]
      change ((frames (done ++ chunk ++ rest)).drop (frames done).length).take
        (frames chunk).length = frames chunk
      rw [frames_append, frames_append, List.append_assoc, List.drop_left, List.take_left]
  | returned bytes => exact absurd hphase (hopen bytes)
  | panicked =>
      rw [hphase] at hconsumer
      exact hconsumer.elim

/-! ## One step of each party -/

variable {cap : Nat} {calls : List Call} {bodies : List (List UInt8)} {s : PumpSys}

/-- More accepted frames are more bodies; the pump does not notice. -/
theorem PumpInv.traderStep {todo : List (List UInt8)}
    (hcalls : calls.map Call.frame = todo.map packFrame) (h : PumpInv cap calls bodies s) :
    ∃ bodies', bodies <+: bodies' ∧
      PumpInv cap calls bodies' { s with ring := producerStep s.ring } := by
  have hring := SpscInv.step h.ring .producer
  have hanswers := h.answers.step .producer
  have hsub := hanswers.accepted
  rw [hcalls] at hsub
  rcases List.sublist_map_iff.mp hsub with ⟨bodies', -, haccepted⟩
  have hpre : s.ring.accepted <+: (producerStep s.ring).accepted := by
    rcases RingInv.producerStep h.ring with ⟨log', plog', -, hpublished⟩
    rcases hpublished with ⟨-, -, hacc⟩ | ⟨frame, -, -, hacc⟩
    · rw [hacc]
    · rw [hacc]
      exact List.prefix_append _ _
  have hbodies : bodies <+: bodies' := by
    rw [h.accepted] at hpre
    change (producerStep s.ring).accepted = bodies'.map packFrame at haccepted
    rw [haccepted] at hpre
    exact (List.prefix_map_iff_of_injective packFrame_injective).mp hpre
  rcases producerStep_frame s.ring with ⟨hconsumer, hread⟩
  exact ⟨bodies', hbodies, hring, hanswers, haccepted, h.drain.mono hbodies hconsumer hread⟩

/-- The accepted bodies are among those the trader wrote, in its order. -/
theorem PumpInv.bodies_sublist {todo : List (List UInt8)}
    (hcalls : calls.map Call.frame = todo.map packFrame) (h : PumpInv cap calls bodies s) :
    bodies.Sublist todo := by
  have hsub := h.answers.accepted
  rw [hcalls, h.accepted] at hsub
  rcases List.sublist_map_iff.mp hsub with ⟨bodies', hbodies', heq⟩
  rw [List.map_injective_iff.mpr packFrame_injective heq]
  exact hbodies'

/-- **A drain is whole frames.** What a consumer call returned unpacks to
bodies that follow the delivered ones, and nothing is left over. -/
theorem PumpInv.returned_whole_frames
    (hsize : ∀ b ∈ bodies, b.length ≤ maxFrameBytes) (h : PumpInv cap calls bodies s)
    {bytes : List UInt8} (hphase : s.ring.consumer = .returned bytes) :
    ∃ chunk, bytes = frames chunk ∧ unpackAllFrames bytes = (.ok chunk, []) ∧
      delivered s ++ chunk <+: bodies ∧
      s.ring.ring.read = (frames (delivered s ++ chunk)).length := by
  have hdrain := h.drain
  simp only [DrainInv, hphase] at hdrain
  rcases hdrain with ⟨chunk, rfl, hfront, hread⟩
  refine ⟨chunk, rfl, unpackAllFrames_flatten chunk ?_, hfront, hread⟩
  intro b hb
  exact hsize b (hfront.subset (List.mem_append_right _ hb))

theorem unpackDrain_of_unpacked {bytes : List UInt8} {chunk : List (List UInt8)}
    (hunpack : unpackAllFrames bytes = (.ok chunk, [])) (hbytes : bytes = frames chunk) :
    unpackDrain bytes = chunk := by
  unfold unpackDrain
  split
  · rename_i hempty
    cases chunk with
    | nil => rfl
    | cons b rest =>
        rw [hbytes, frames_cons, packFrame, BigEndian.toBytes] at hempty
        cases hempty
  · rw [hunpack]

/-- A step of the pump that has nothing to send and no drain to unpack is one of the consumer. -/
theorem pumpStep_eq_consumerStep (extractType : List UInt8 → Option String)
    (hsending : s.sending = []) (hopen : ∀ bytes, s.ring.consumer ≠ .returned bytes) :
    CommandPump.pumpStep extractType s = { s with ring := consumerStep s.ring } := by
  -- the pump unpacks only a drain that has returned
  simp only [CommandPump.pumpStep, hsending]

theorem PumpInv.pumpStep (extractType : List UInt8 → Option String)
    (hsize : ∀ b ∈ bodies, b.length ≤ maxFrameBytes) (h : PumpInv cap calls bodies s) :
    PumpInv cap calls bodies (pumpStep extractType s) := by
  cases hsending : s.sending with
  | cons body rest =>
      simp only [CommandPump.pumpStep, hsending]
      by_cases hroom : s.channel.length < channelCapacity
      · rw [if_pos hroom]
        have hdelivered : delivered
            { s with
              sending := rest
              channel := s.channel ++ [serverCommand extractType body] } = delivered s := by
          simp [delivered, hsending, serverCommand]
        exact { h with drain := hdelivered ▸ h.drain }
      · rw [if_neg hroom]
        exact h
  | nil =>
      have hring := SpscInv.step h.ring .consumer
      have hanswers := h.answers.step .consumer
      have haccepted : (consumerStep s.ring).accepted = bodies.map packFrame := by
        rw [(consumerStep_frame s.ring).1]
        exact h.accepted
      by_cases hdone : ∃ bytes, s.ring.consumer = .returned bytes
      · rcases hdone with ⟨bytes, hphase⟩
        rcases h.returned_whole_frames hsize hphase with
          ⟨chunk, hbytes, hunpack, hfront, hread⟩
        simp only [CommandPump.pumpStep, hsending, hphase,
          unpackDrain_of_unpacked hunpack hbytes]
        refine ⟨hring, hanswers, haccepted, ?_⟩
        have hdelivered : delivered { s with ring := consumerStep s.ring, sending := chunk } =
            delivered s ++ chunk := by
          simp [delivered, hsending]
        rw [hdelivered]
        simp only [DrainInv, RingInterleaving.consumerStep, hphase]
        exact ⟨hfront, hread⟩
      · have hopen : ∀ bytes, s.ring.consumer ≠ .returned bytes := by
          intro bytes hphase
          exact hdone ⟨bytes, hphase⟩
        rw [pumpStep_eq_consumerStep extractType hsending hopen]
        exact ⟨hring, hanswers, haccepted, h.drain.consumerStep h.ring h.accepted hopen⟩

theorem PumpInv.dispatcherStep (h : PumpInv cap calls bodies s) :
    PumpInv cap calls bodies (dispatcherStep s) := by
  cases hchannel : s.channel with
  | nil =>
      simp only [CommandPump.dispatcherStep, hchannel]
      exact h
  | cons command rest =>
      have hdelivered : delivered
          { s with channel := rest, handed := s.handed ++ [command] } = delivered s := by
        simp [delivered, hchannel]
      simp only [CommandPump.dispatcherStep, hchannel]
      exact { h with drain := hdelivered ▸ h.drain }

/-! ## Whole runs -/

theorem PumpInv.step (extractType : List UInt8 → Option String)
    {todo : List (List UInt8)} (hcalls : calls.map Call.frame = todo.map packFrame)
    (hsize : ∀ b ∈ todo, b.length ≤ maxFrameBytes) (h : PumpInv cap calls bodies s)
    (party : PumpParty) :
    ∃ bodies', bodies <+: bodies' ∧
      PumpInv cap calls bodies' (pumpSysStep extractType s party) := by
  cases party with
  | trader => exact h.traderStep hcalls
  | pump =>
      refine ⟨bodies, List.prefix_rfl, h.pumpStep extractType ?_⟩
      intro b hb
      exact hsize b ((h.bodies_sublist hcalls).subset hb)
  | dispatcher => exact ⟨bodies, List.prefix_rfl, h.dispatcherStep⟩

theorem pumpStart_pumpInv (data : List UInt8) (calls : List Call)
    (hcap : 0 < data.length) : PumpInv data.length calls [] (pumpStart data calls) where
  ring := start_spscInv data calls hcap
  answers := start_answersInOrder data calls
  accepted := rfl
  drain := ⟨List.nil_prefix, rfl⟩

theorem PumpInv.delivered_isPrefix (h : PumpInv cap calls bodies s) :
    delivered s <+: bodies := by
  have hdrain := h.drain
  unfold DrainInv at hdrain
  split at hdrain
  · rcases hdrain with ⟨chunk, -, hfront, -⟩
    exact (List.prefix_append _ _).trans hfront
  · exact hdrain.1

theorem PumpInv.handed_isPrefix (h : PumpInv cap calls bodies s) :
    s.handed.map ServerCommand.body <+: bodies := by
  refine List.IsPrefix.trans ?_ h.delivered_isPrefix
  rw [delivered, List.append_assoc]
  exact List.prefix_append _ _

/-- With nothing left anywhere, the delivered bodies are all of them. -/
theorem PumpInv.quiet_handed (h : PumpInv cap calls bodies s) (hquiet : Quiet s) :
    s.handed.map ServerCommand.body = bodies := by
  rcases hquiet with ⟨hmeet, hidle, hsending, hchannel⟩
  have hdelivered : delivered s = s.handed.map ServerCommand.body := by
    simp [delivered, hsending, hchannel]
  have hdrain := h.drain
  simp only [DrainInv, hidle, hdelivered] at hdrain
  rcases hdrain with ⟨⟨rest, hrest⟩, hread⟩
  have hwrite : s.ring.ring.write = (frames bodies).length := by
    rw [h.ring.write, h.accepted, frames]
  rw [← hmeet, hread, ← hrest, frames_append, List.length_append] at hwrite
  cases rest with
  | nil => rw [← hrest, List.append_nil]
  | cons b rest =>
      simp only [frames_cons, List.length_append, packFrame_length] at hwrite
      omega

/-! ## Progress -/

/-- The steps of the pump until it has something to send, when the ring is not empty. -/
def drainSteps (read : Nat) : Consumer → Nat
  | .idle => 5
  | .loadedWrite w => if read < w then 4 else 7
  | .loadedRead _ _ => 3
  | .copied _ _ => 2
  | .returned bytes => if bytes.isEmpty then 6 else 1
  | .panicked => 0

/-- A bound on the rounds until the first `n` bodies are handed over. -/
def roundsLeft (n : Nat) (s : PumpSys) : Nat :=
  (n - s.handed.length) + (n - (s.handed.length + s.channel.length)) +
    if (delivered s).length < n then
      8 * (n - (delivered s).length) + drainSteps s.ring.ring.read s.ring.consumer
    else 0

/-- A round: the pump takes a step, and later the dispatcher. -/
def Round (steps : List PumpParty) : Prop :=
  ∃ before between after, steps = before ++ .pump :: between ++ .dispatcher :: after

theorem length_delivered (s : PumpSys) :
    (delivered s).length = s.handed.length + s.channel.length + s.sending.length := by
  simp only [delivered, List.length_append, List.length_map]

theorem roundsLeft_le (n : Nat) (s : PumpSys) : roundsLeft n s ≤ 10 * n + 7 := by
  have hdrain : drainSteps s.ring.ring.read s.ring.consumer ≤ 7 := by
    unfold drainSteps
    split
    all_goals first | omega | (split <;> omega)
  unfold roundsLeft
  split
  · omega
  · omega

theorem le_handed_of_roundsLeft {n : Nat} {s : PumpSys} (h : roundsLeft n s = 0) :
    n ≤ s.handed.length := by
  unfold roundsLeft at h
  omega

theorem roundsLeft_of_handed {n : Nat} {s : PumpSys} (h : n ≤ s.handed.length) :
    roundsLeft n s = 0 := by
  have hdelivered := length_delivered s
  rw [roundsLeft, if_neg (by omega)]
  omega

theorem roundsLeft_trader (n : Nat) (s : PumpSys) :
    roundsLeft n { s with ring := producerStep s.ring } = roundsLeft n s := by
  obtain ⟨hconsumer, hread⟩ := producerStep_frame s.ring
  rw [roundsLeft, roundsLeft, hconsumer, hread]
  rfl

theorem roundsLeft_dispatcher_le (n : Nat) (s : PumpSys) :
    roundsLeft n (dispatcherStep s) ≤ roundsLeft n s := by
  unfold dispatcherStep
  cases hchannel : s.channel with
  | nil => exact Nat.le_refl _
  | cons command rest =>
      simp only [roundsLeft, length_delivered, hchannel, List.length_append, List.length_cons,
        List.length_nil, show s.handed.length + (0 + 1) + rest.length + s.sending.length =
          s.handed.length + (rest.length + 1) + s.sending.length from by omega]
      omega

/-- The dispatcher finds a command, and one of the first `n` is still to come. -/
theorem roundsLeft_dispatcher_lt {n : Nat} {s : PumpSys} (hchannel : s.channel ≠ [])
    (hopen : s.handed.length < n) : roundsLeft n (dispatcherStep s) < roundsLeft n s := by
  unfold dispatcherStep
  cases hcommands : s.channel with
  | nil => exact absurd hcommands hchannel
  | cons command rest =>
      simp only [roundsLeft, length_delivered, hcommands, List.length_append, List.length_cons,
        List.length_nil, show s.handed.length + (0 + 1) + rest.length + s.sending.length =
          s.handed.length + (rest.length + 1) + s.sending.length from by omega]
      omega

/-- A step of the consumer that returns no drain brings one nearer, while there is something to
drain. -/
theorem PumpInv.drainSteps_lt (h : PumpInv cap calls bodies s)
    (hopen : ∀ bytes, s.ring.consumer ≠ .returned bytes)
    (hmore : (delivered s).length < bodies.length) :
    drainSteps (consumerStep s.ring).ring.read (consumerStep s.ring).consumer <
      drainSteps s.ring.ring.read s.ring.consumer := by
  have hdrain := h.drain
  have hconsumer := h.ring.consumer
  cases hphase : s.ring.consumer with
  | idle =>
      simp only [DrainInv, hphase] at hdrain
      obtain ⟨⟨rest, hrest⟩, hread⟩ := hdrain
      have hwrite : s.ring.ring.write = (frames bodies).length := by
        rw [h.ring.write, h.accepted, frames]
      have hnonempty : s.ring.ring.read < s.ring.ring.write := by
        rw [hread, hwrite, ← hrest, frames_append, List.length_append]
        cases rest with
        | nil =>
            rw [← hrest, List.append_nil] at hmore
            omega
        | cons body rest =>
            simp only [frames_cons, List.length_append, packFrame_length]
            omega
      simp only [consumerStep, hphase, drainSteps, if_pos hnonempty]
      omega
  | loadedWrite w =>
      simp only [consumerStep, hphase]
      by_cases hnonempty : s.ring.ring.read < w
      · rw [if_neg (by omega)]
        simp only [drainSteps, if_pos hnonempty]
        omega
      · rw [if_pos (by omega)]
        simp [drainSteps, hnonempty]
  | loadedRead r avail =>
      rw [hphase] at hconsumer
      obtain ⟨rfl, -, hboundary⟩ := hconsumer
      obtain ⟨bytes, hcopy, -, -⟩ := RingInv.copyOut h.ring hboundary
      simp only [consumerStep, hphase, hcopy, drainSteps]
      omega
  | copied r bytes =>
      rw [hphase] at hconsumer
      have hbytes : bytes.isEmpty = false := by
        cases bytes with
        | nil => exact absurd hconsumer.2.1 (lt_irrefl _)
        | cons b rest => rfl
      simp only [consumerStep, hphase, drainSteps, hbytes]
      decide
  | returned bytes => exact absurd hphase (hopen bytes)
  | panicked =>
      rw [hphase] at hconsumer
      exact hconsumer.elim

/-- **The pump gets on.** While not all of the first `n` bodies have left the ring, each step of
the pump brings the next drain nearer. -/
theorem PumpInv.drain_progress (extractType : List UInt8 → Option String) {n : Nat}
    (hsize : ∀ b ∈ bodies, b.length ≤ maxFrameBytes) (h : PumpInv cap calls bodies s)
    (hn : n ≤ bodies.length) (hsending : s.sending = []) (hopen : (delivered s).length < n) :
    roundsLeft n (CommandPump.pumpStep extractType s) < roundsLeft n s := by
  have hleft : roundsLeft n s = (n - s.handed.length) +
      (n - (s.handed.length + s.channel.length)) +
        (8 * (n - (delivered s).length) + drainSteps s.ring.ring.read s.ring.consumer) := by
    rw [roundsLeft, if_pos hopen]
  by_cases hdone : ∃ bytes, s.ring.consumer = .returned bytes
  · obtain ⟨bytes, hphase⟩ := hdone
    obtain ⟨chunk, hbytes, hunpack, -, -⟩ := h.returned_whole_frames hsize hphase
    simp only [CommandPump.pumpStep, hsending, hphase, unpackDrain_of_unpacked hunpack hbytes]
    have hdelivered : (delivered { s with ring := consumerStep s.ring, sending := chunk }).length =
        (delivered s).length + chunk.length := by
      simp only [length_delivered, hsending, List.length_nil]
      rfl
    have hnext : (consumerStep s.ring).consumer = .idle := by
      simp only [consumerStep, hphase]
    have hnow : drainSteps s.ring.ring.read (.returned bytes) = if chunk = [] then 6 else 1 := by
      rw [drainSteps, hbytes]
      cases chunk with
      | nil => rfl
      | cons body rest => simp [frames_cons, packFrame, BigEndian.toBytes]
    rw [hleft, hphase, hnow, roundsLeft, hdelivered, hnext, drainSteps]
    cases chunk with
    | nil =>
        simp only [List.length_nil, Nat.add_zero, if_pos hopen, if_true]
        omega
    | cons body rest =>
        simp only [List.length_cons, reduceCtorEq, if_false]
        split
        · omega
        · omega
  · have hphase : ∀ bytes, s.ring.consumer ≠ .returned bytes :=
      fun bytes hphase => hdone ⟨bytes, hphase⟩
    have hnearer := h.drainSteps_lt hphase (hopen.trans_le hn)
    have hnext : roundsLeft n { s with ring := consumerStep s.ring } =
        (n - s.handed.length) + (n - (s.handed.length + s.channel.length)) +
          (8 * (n - (delivered s).length) +
            drainSteps (consumerStep s.ring).ring.read (consumerStep s.ring).consumer) :=
      congrArg (_ + ·) (if_pos hopen)
    rw [pumpStep_eq_consumerStep extractType hsending hphase, hleft, hnext]
    omega

/-- A step of the pump does not set it back.  While one of the first `n` bodies is still to be
handed over, it gets on or there is a command for the dispatcher. -/
theorem PumpInv.pump_progress (extractType : List UInt8 → Option String) {n : Nat}
    (hsize : ∀ b ∈ bodies, b.length ≤ maxFrameBytes) (h : PumpInv cap calls bodies s)
    (hn : n ≤ bodies.length) :
    roundsLeft n (CommandPump.pumpStep extractType s) ≤ roundsLeft n s ∧
      (s.handed.length < n → (CommandPump.pumpStep extractType s).channel ≠ [] ∨
        roundsLeft n (CommandPump.pumpStep extractType s) < roundsLeft n s) := by
  have hlength := length_delivered s
  cases hsending : s.sending with
  | cons body rest =>
      rw [hsending, List.length_cons] at hlength
      by_cases hroom : s.channel.length < channelCapacity
      · have hstep : CommandPump.pumpStep extractType s =
            { s with
              sending := rest
              channel := s.channel ++ [serverCommand extractType body] } := by
          simp only [CommandPump.pumpStep, hsending, if_pos hroom]
        have hsame : (delivered (CommandPump.pumpStep extractType s)).length =
            (delivered s).length := by
          rw [hstep, length_delivered, hlength]
          simp only [List.length_append, List.length_cons, List.length_nil]
          omega
        have hring : (CommandPump.pumpStep extractType s).ring = s.ring := by rw [hstep]
        refine ⟨?_, fun _ => .inl ?_⟩
        · rw [roundsLeft, roundsLeft, hsame, hring, hstep]
          simp only [List.length_append, List.length_cons, List.length_nil]
          omega
        · rw [hstep]
          exact List.append_ne_nil_of_right_ne_nil _ (List.cons_ne_nil _ _)
      · have hstep : CommandPump.pumpStep extractType s = s := by
          simp only [CommandPump.pumpStep, hsending, if_neg hroom]
        rw [hstep]
        refine ⟨Nat.le_refl _, fun _ => .inl fun hempty => hroom ?_⟩
        rw [hempty]
        decide
  | nil =>
      rw [hsending, List.length_nil] at hlength
      by_cases hopen : (delivered s).length < n
      · have hless := h.drain_progress extractType hsize hn hsending hopen
        exact ⟨hless.le, fun _ => .inr hless⟩
      · -- all of them have left the ring, and wait in the channel
        have hkept : (CommandPump.pumpStep extractType s).handed = s.handed ∧
            (CommandPump.pumpStep extractType s).channel = s.channel := by
          simp only [CommandPump.pumpStep, hsending]
          split
          · exact ⟨rfl, rfl⟩
          · exact ⟨rfl, rfl⟩
        have hleft := length_delivered (CommandPump.pumpStep extractType s)
        rw [hkept.1, hkept.2] at hleft
        refine ⟨?_, fun hhanded => .inl fun hempty => ?_⟩
        · rw [roundsLeft, roundsLeft, hkept.1, hkept.2, if_neg hopen, if_neg (by omega)]
        · rw [hkept.2] at hempty
          rw [hempty, List.length_nil] at hlength
          omega

/-- What holds while the first bodies make their way: they are among the accepted ones. -/
def Carries (cap : Nat) (calls : List Call) (first : List (List UInt8)) (s : PumpSys) : Prop :=
  ∃ bodies, first <+: bodies ∧ PumpInv cap calls bodies s

section Rounds

variable (extractType : List UInt8 → Option String) {todo first : List (List UInt8)}

theorem Carries.step (hcalls : calls.map Call.frame = todo.map packFrame)
    (hsize : ∀ b ∈ todo, b.length ≤ maxFrameBytes) (h : Carries cap calls first s)
    (party : PumpParty) : Carries cap calls first (pumpSysStep extractType s party) := by
  obtain ⟨bodies, hfirst, hinv⟩ := h
  obtain ⟨bodies', hmore, hinv'⟩ := hinv.step extractType hcalls hsize party
  exact ⟨bodies', hfirst.trans hmore, hinv'⟩

/-- No step sets the first bodies back. -/
theorem Carries.roundsLeft_step (hcalls : calls.map Call.frame = todo.map packFrame)
    (hsize : ∀ b ∈ todo, b.length ≤ maxFrameBytes) (h : Carries cap calls first s)
    (party : PumpParty) :
    roundsLeft first.length (pumpSysStep extractType s party) ≤ roundsLeft first.length s := by
  obtain ⟨bodies, hfirst, hinv⟩ := h
  cases party with
  | trader => exact (roundsLeft_trader _ s).le
  | pump =>
      refine (hinv.pump_progress extractType (fun b hb => ?_) hfirst.length_le).1
      exact hsize b ((hinv.bodies_sublist hcalls).subset hb)
  | dispatcher => exact roundsLeft_dispatcher_le _ s

theorem Carries.roundsLeft_run (hcalls : calls.map Call.frame = todo.map packFrame)
    (hsize : ∀ b ∈ todo, b.length ≤ maxFrameBytes) (h : Carries cap calls first s)
    (schedule : List PumpParty) :
    roundsLeft first.length (run (pumpSysStep extractType) s schedule) ≤
      roundsLeft first.length s := by
  induction schedule generalizing s with
  | nil => exact Nat.le_refl _
  | cons party rest ih =>
      exact (ih (h.step extractType hcalls hsize party)).trans
        (h.roundsLeft_step extractType hcalls hsize party)

/-- A command in the channel is taken off it when the dispatcher comes. -/
theorem Carries.dispatched (hcalls : calls.map Call.frame = todo.map packFrame)
    (hsize : ∀ b ∈ todo, b.length ≤ maxFrameBytes) (h : Carries cap calls first s)
    (hchannel : s.channel ≠ []) (hopen : s.handed.length < first.length)
    (between after : List PumpParty) :
    roundsLeft first.length
      (run (pumpSysStep extractType) s (between ++ .dispatcher :: after)) <
        roundsLeft first.length s := by
  induction between generalizing s with
  | nil =>
      have hnext := h.step extractType hcalls hsize .dispatcher
      exact (hnext.roundsLeft_run extractType hcalls hsize after).trans_lt
        (roundsLeft_dispatcher_lt hchannel hopen)
  | cons party rest ih =>
      have hnext := h.step extractType hcalls hsize party
      have hle := h.roundsLeft_step extractType hcalls hsize party
      cases party with
      | dispatcher =>
          exact (hnext.roundsLeft_run extractType hcalls hsize _).trans_lt
            (roundsLeft_dispatcher_lt hchannel hopen)
      | trader => exact (ih hnext hchannel hopen).trans_le hle
      | pump =>
          have hkept : (pumpStep extractType s).handed = s.handed ∧
              ((pumpStep extractType s).channel ≠ []) := by
            unfold pumpStep
            split
            · split
              · exact ⟨rfl, List.append_ne_nil_of_right_ne_nil _ (List.cons_ne_nil _ _)⟩
              · exact ⟨rfl, hchannel⟩
            · split
              · exact ⟨rfl, hchannel⟩
              · exact ⟨rfl, hchannel⟩
          exact (ih hnext hkept.2 (hkept.1 ▸ hopen)).trans_le hle

/-- **A round.** It brings the first bodies nearer, unless they are handed over. -/
theorem Carries.round (hcalls : calls.map Call.frame = todo.map packFrame)
    (hsize : ∀ b ∈ todo, b.length ≤ maxFrameBytes) (h : Carries cap calls first s)
    {steps : List PumpParty} (hround : Round steps) :
    roundsLeft first.length (run (pumpSysStep extractType) s steps) ≤
      roundsLeft first.length s - 1 := by
  obtain ⟨before, between, after, rfl⟩ := hround
  rw [List.append_assoc, run_append, List.cons_append, run_cons]
  have hbefore := h.roundsLeft_run extractType hcalls hsize before
  have hcarries : Carries cap calls first (run (pumpSysStep extractType) s before) :=
    run_invariant _ (fun s party hs => hs.step extractType hcalls hsize party) h before
  generalize run (pumpSysStep extractType) s before = s₁ at hbefore hcarries
  have hnext := hcarries.step extractType hcalls hsize .pump
  have hpump := hcarries.roundsLeft_step extractType hcalls hsize .pump
  have hrest := hnext.roundsLeft_run extractType hcalls hsize
    (between ++ .dispatcher :: after)
  by_cases hopen : s₁.handed.length < first.length
  · obtain ⟨bodies, hfirst, hinv⟩ := hcarries
    have hprogress := (hinv.pump_progress extractType
      (fun b hb => hsize b ((hinv.bodies_sublist hcalls).subset hb)) hfirst.length_le).2 hopen
    rcases hprogress with hchannel | hless
    · by_cases hstill : (pumpSysStep extractType s₁ .pump).handed.length < first.length
      · have hdispatched := hnext.dispatched extractType hcalls hsize hchannel
          hstill between after
        omega
      · have hzero := roundsLeft_of_handed (not_lt.mp hstill)
        omega
    · change roundsLeft first.length (pumpSysStep extractType s₁ .pump) < _ at hless
      omega
  · have hzero := roundsLeft_of_handed (not_lt.mp hopen)
    omega

/-- After enough rounds the first bodies are handed over. -/
theorem Carries.handed (hcalls : calls.map Call.frame = todo.map packFrame)
    (hsize : ∀ b ∈ todo, b.length ≤ maxFrameBytes) (h : Carries cap calls first s)
    (rounds : List (List PumpParty)) (hrounds : ∀ round ∈ rounds, Round round)
    (henough : 10 * first.length + 7 ≤ rounds.length) :
    first <+: (run (pumpSysStep extractType) s rounds.flatten).handed.map ServerCommand.body := by
  have hmeasure : roundsLeft first.length (run (pumpSysStep extractType) s rounds.flatten) ≤
      roundsLeft first.length s - rounds.length :=
    measure_run_rounds (fun s party hs => hs.step extractType hcalls hsize party)
      (fun s steps hs hround => hs.round extractType hcalls hsize hround) h rounds hrounds
  have hbound := roundsLeft_le first.length s
  have hcarries : Carries cap calls first (run (pumpSysStep extractType) s rounds.flatten) :=
    run_invariant _ (fun s party hs => hs.step extractType hcalls hsize party) h _
  generalize run (pumpSysStep extractType) s rounds.flatten = s' at hmeasure hcarries
  have hhanded := le_handed_of_roundsLeft (n := first.length) (s := s') (by omega)
  obtain ⟨bodies, hfirst, hinv⟩ := hcarries
  exact List.prefix_of_prefix_length_le hfirst hinv.handed_isPrefix (by simpa using hhanded)

end Rounds

/-- **Commands are delivered.** The trader writes the bodies `todo` as frames,
each call answered with true or dropped, in any interleaving with the pump and
the dispatcher.  The accepted frames carry some of the bodies, in order; what
the dispatcher has been handed is always a first part of them; and every drain
consists of whole frames, so the buffer that the pump throws away is empty.
Whatever the trader goes on to write, all that is accepted by now is handed over
within ten rounds a body and seven more; where it writes nothing more, nothing
else is. -/
theorem commands_delivered (extractType : List UInt8 → Option String)
    (data : List UInt8) (hcap : 1 ≤ data.length) (todo : List (List UInt8))
    (hsize : ∀ b ∈ todo, b.length ≤ maxFrameBytes) (calls : List Call)
    (hcalls : calls.map Call.frame = todo.map packFrame) (schedule : List PumpParty) :
    let s := run (pumpSysStep extractType) (pumpStart data calls) schedule
    ∃ bodies, bodies.Sublist todo ∧ s.ring.accepted = bodies.map packFrame ∧
      s.handed.map ServerCommand.body <+: bodies ∧
      (Quiet s → s.handed.map ServerCommand.body = bodies) ∧
      (∀ bytes, s.ring.consumer = .returned bytes →
        ∃ chunk, bytes = frames chunk ∧ unpackAllFrames bytes = (.ok chunk, []) ∧
          delivered s ++ chunk <+: bodies) ∧
      ∀ rounds : List (List PumpParty), (∀ round ∈ rounds, Round round) →
        10 * bodies.length + 7 ≤ rounds.length →
        let s' := run (pumpSysStep extractType) s rounds.flatten
        bodies <+: s'.handed.map ServerCommand.body ∧
          (.trader ∉ rounds.flatten → s'.handed.map ServerCommand.body = bodies) := by
  intro s
  have hrun : ∃ bodies, PumpInv data.length calls bodies s := by
    refine run_invariant (fun s => ∃ bodies, PumpInv data.length calls bodies s) ?_
      ⟨[], pumpStart_pumpInv data calls hcap⟩ schedule
    rintro s party ⟨bodies, h⟩
    obtain ⟨bodies', -, h'⟩ := h.step extractType hcalls hsize party
    exact ⟨bodies', h'⟩
  rcases hrun with ⟨bodies, h⟩
  have hsub := h.bodies_sublist hcalls
  have hbodies (b : List UInt8) (hb : b ∈ bodies) : b.length ≤ maxFrameBytes :=
    hsize b (hsub.subset hb)
  refine ⟨bodies, hsub, h.accepted, h.handed_isPrefix, h.quiet_handed, ?_, ?_⟩
  · intro bytes hphase
    rcases h.returned_whole_frames hbodies hphase with ⟨chunk, hbytes, hunpack, hfront, -⟩
    exact ⟨chunk, hbytes, hunpack, hfront⟩
  · intro rounds hrounds henough s'
    have hcarries : Carries data.length calls bodies s := ⟨bodies, List.prefix_rfl, h⟩
    have hhanded := hcarries.handed extractType hcalls hsize rounds hrounds henough
    refine ⟨hhanded, fun htrader => ?_⟩
    have hnone : ∀ party ∈ rounds.flatten, party ≠ .trader := by
      rintro party hparty rfl
      exact htrader hparty
    have hmeets : Meets (pumpSysStep extractType) (fun _ party => party ≠ .trader) s
        rounds.flatten := meets_of_forall hnone s
    have hkept : PumpInv data.length calls bodies s' := by
      refine run_invariant_of_meets _ (fun s party hparty hs => ?_) h _ hmeets
      cases party with
      | trader => exact absurd rfl hparty
      | pump => exact hs.pumpStep extractType hbodies
      | dispatcher => exact hs.dispatcherStep
    exact (hhanded.eq_of_length_le hkept.handed_isPrefix.length_le).symm

/-- Two commands of which the second wraps, with a drain in between; neither
body is a map, so neither has a type.  Twenty-seven rounds later the dispatcher has
both. -/
theorem commands_delivered_two_drains :
    let todo : List (List UInt8) := [[1, 2], [3, 4]]
    let calls : List Call := [.writeFrame (packFrame [1, 2]), .writeBody [3, 4]]
    let schedule := List.replicate 4 PumpParty.trader ++ List.replicate 3 .pump ++
      List.replicate 4 .trader ++ List.replicate 9 .pump
    let s := run (pumpSysStep fun _ => none) (pumpStart (List.replicate 12 0) calls) schedule
    s.ring.accepted = todo.map packFrame ∧
      (run (pumpSysStep fun _ => none) s
        (List.replicate 27 [PumpParty.pump, .dispatcher]).flatten).handed.map ServerCommand.body =
          todo := by
  intro todo calls schedule s
  have haccepted : s.ring.accepted = todo.map packFrame := by decide +kernel
  obtain ⟨bodies, -, hbodies, -, -, -, hrounds⟩ :=
    commands_delivered (fun _ => none) (List.replicate 12 0) (by decide) todo (by decide) calls rfl
      schedule
  obtain rfl : bodies = todo :=
    List.map_injective_iff.mpr packFrame_injective (hbodies.symm.trans haccepted)
  refine ⟨haccepted, (hrounds (List.replicate 27 [.pump, .dispatcher]) (fun round hround => ?_)
    (by decide)).2 (by decide)⟩
  rw [List.eq_of_mem_replicate hround]
  exact ⟨[], [], [], rfl⟩

end Corsair.Ports.CommandPump
