import Corsair.Ports.FrameStreams
import Corsair.Ports.OrderIds
import Corsair.Verified.Runs

/-!
# `corsair_broker_ibkr_native::client::spawn_recv_task`

The task reads from the socket into a buffer that it keeps, decodes the whole frames and
dispatches them one after the other: a `nextValidId` and the managed accounts are taken
over, and the fields are sent into the dispatch channel.  The task ends at the end of the
stream, at a read error, at a frame that cannot be decoded and at a closed channel.

`try_decode_all` returns the error of a refused length in place of the frames that it has
decoded before it.  Whether a frame is dispatched so depends on where the socket cut the
stream.

## Main results

* `run_dispatched` — the frames that a run dispatches.
* `recv_dispatches_all_iff` — when all frames before a refused length are dispatched.
-/

namespace Corsair.Ports.RecvLoop

open Corsair.Verified
open Corsair.Verified.Runs
open Corsair.Verified.LengthPrefixed (Drained front drain delivered)
open Corsair.Ports.NativeDecoder (TextFormats parseInt Frame)
open Corsair.Ports.NativeFrames
open Corsair.Ports.OrderIds (recvNextValidId)
open Corsair.Ports.Portfolio (Date)

variable {F : Type} [F64 F] (fm : OrderCodec.Formatters F) (fmt : TextFormats F Date)

/-! ## The task -/

/-- What `try_send` answers. -/
inductive SendResult
  | ok
  | full
  | closed
  deriving DecidableEq, Repr

/-- What a read gives; no bytes at the end of the stream. -/
inductive SocketRead
  | bytes (chunk : List UInt8)
  | failed
  deriving DecidableEq, Repr

/-- The task's buffer, what it shares with the client, and the frames that it dispatched. -/
structure RecvState where
  buf : List UInt8
  nextOrderId : Int
  managedAccounts : List String
  msgsRecv : Nat
  msgsDropped : Nat
  dispatched : List Frame
  running : Bool
  deriving DecidableEq, Repr

/-- `IN_MANAGED_ACCTS`. -/
def inManagedAccts : Int := 15

/-- The accounts after one frame: a list of managed accounts replaces them. -/
def recvManagedAccounts (accounts : List String) (fields : Frame) : List String :=
  match fields with
  | ty :: _ :: csv :: _ =>
      match parseInt fmt ty with
      | .ok id =>
          if id = inManagedAccts then (csv.splitOn ",").filter (· ≠ "") else accounts
      | .error _ => accounts
  | _ => accounts

/-- The dispatch of one frame, with the answer of `try_send`. -/
def dispatch (sent : SendResult) (s : RecvState) (fields : Frame) : RecvState :=
  let handled := { s with
    nextOrderId := recvNextValidId fmt s.nextOrderId fields
    managedAccounts := recvManagedAccounts fmt s.managedAccounts fields
    msgsRecv := s.msgsRecv + 1
    dispatched := s.dispatched ++ [fields] }
  match sent with
  | .ok => handled
  | .full => { handled with msgsDropped := handled.msgsDropped + 1 }
  | .closed => { handled with running := false }

variable (sends : Nat → SendResult)

/-- The loop over the decoded frames; `sends` is what `try_send` answers to each frame. -/
def dispatchAll : RecvState → List Frame → RecvState
  | s, [] => s
  | s, fields :: rest =>
      let next := dispatch fmt (sends s.dispatched.length) s fields
      if next.running then dispatchAll next rest else next

/-- One turn of the task. -/
def recvStep (s : RecvState) (read : SocketRead) : RecvState :=
  if s.running then
    match read with
    | .failed => { s with running := false }
    | .bytes [] => { s with running := false }
    | .bytes chunk =>
        match tryDecodeAll fm (s.buf ++ chunk) with
        | (.ok frames, rest) => dispatchAll fmt sends { s with buf := rest } frames
        | (.error _, rest) => { s with buf := rest, running := false }
  else s

/-- The task at its start. -/
def spawnRecvTask (nextOrderId : Int) (managedAccounts : List String)
    (msgsRecv msgsDropped : Nat) : RecvState :=
  { buf := [], nextOrderId, managedAccounts, msgsRecv, msgsDropped, dispatched := [],
    running := true }

/-! ## A closed channel -/

/-- The frames up to the first that finds the channel closed, that one among them; the first
of them is the `k`th of the run. -/
def upToClosed : Nat → List Frame → List Frame
  | _, [] => []
  | k, fields :: rest => fields :: if sends k = .closed then [] else upToClosed (k + 1) rest

variable {fm fmt sends}

variable (sends) in
theorem prefix_upToClosed (k : Nat) (frames : List Frame) :
    upToClosed sends k frames <+: frames := by
  induction frames generalizing k with
  | nil => exact List.nil_prefix
  | cons fields rest ih =>
      rw [upToClosed]
      refine List.cons_prefix_cons.mpr ⟨rfl, ?_⟩
      split
      · exact List.nil_prefix
      · exact ih (k + 1)

variable (sends) in
/-- All frames just if none but the last finds the channel closed. -/
theorem upToClosed_eq_iff (k : Nat) (frames : List Frame) :
    upToClosed sends k frames = frames ↔
      ∀ i, i + 1 < frames.length → sends (k + i) ≠ .closed := by
  induction frames generalizing k with
  | nil => simp [upToClosed]
  | cons fields rest ih =>
      rw [upToClosed, List.cons.injEq, eq_self_iff_true, true_and]
      by_cases hclosed : sends k = .closed
      · rw [if_pos hclosed]
        constructor
        · rintro rfl i hi
          simp at hi
        · intro hall
          cases rest with
          | nil => rfl
          | cons next rest => exact absurd hclosed (hall 0 (by simp))
      · rw [if_neg hclosed, ih (k + 1)]
        constructor
        · intro hall i hi
          cases i with
          | zero => exact hclosed
          | succ i =>
              rw [← Nat.add_assoc, Nat.add_right_comm]
              exact hall i (by simpa using hi)
        · intro hall i hi
          rw [Nat.add_right_comm, Nat.add_assoc]
          exact hall (i + 1) (by simpa using hi)

section

omit [F64 F]

@[simp] theorem dispatch_buf (sent : SendResult) (s : RecvState) (fields : Frame) :
    (dispatch fmt sent s fields).buf = s.buf := by
  cases sent <;> rfl

@[simp] theorem dispatch_dispatched (sent : SendResult) (s : RecvState) (fields : Frame) :
    (dispatch fmt sent s fields).dispatched = s.dispatched ++ [fields] := by
  cases sent <;> rfl

theorem dispatchAll_closed {s : RecvState} (hclosed : sends s.dispatched.length = .closed)
    (fields : Frame) (rest : List Frame) :
    dispatchAll fmt sends s (fields :: rest) =
      dispatch fmt (sends s.dispatched.length) s fields := by
  rw [dispatchAll, hclosed]
  rfl

variable (fmt) in
theorem dispatchAll_open {s : RecvState} (hrun : s.running = true)
    (hopen : sends s.dispatched.length ≠ .closed) (fields : Frame) (rest : List Frame) :
    (dispatch fmt (sends s.dispatched.length) s fields).running = true ∧
      dispatchAll fmt sends s (fields :: rest) =
        dispatchAll fmt sends (dispatch fmt (sends s.dispatched.length) s fields) rest := by
  have hnext : (dispatch fmt (sends s.dispatched.length) s fields).running = true := by
    cases hsent : sends s.dispatched.length with
    | ok => exact hrun
    | full => exact hrun
    | closed => exact absurd hsent hopen
  exact ⟨hnext, if_pos hnext⟩

variable (fmt sends) in
/-- The loop over the frames dispatches them up to a closed channel. -/
theorem dispatchAll_spec {s : RecvState} (hrun : s.running = true) (frames : List Frame) :
    (dispatchAll fmt sends s frames).buf = s.buf ∧
      (dispatchAll fmt sends s frames).dispatched =
        s.dispatched ++ upToClosed sends s.dispatched.length frames := by
  induction frames generalizing s with
  | nil => exact ⟨rfl, (List.append_nil s.dispatched).symm⟩
  | cons fields rest ih =>
      rw [upToClosed]
      by_cases hclosed : sends s.dispatched.length = .closed
      · rw [dispatchAll_closed hclosed, if_pos hclosed]
        exact ⟨dispatch_buf _ s fields, dispatch_dispatched _ s fields⟩
      · obtain ⟨hnext, hstep⟩ := dispatchAll_open fmt hrun hclosed fields rest
        obtain ⟨hbuf, hdispatched⟩ := ih hnext
        rw [hstep, if_neg hclosed]
        refine ⟨hbuf.trans (dispatch_buf _ s fields), ?_⟩
        rw [hdispatched, dispatch_dispatched, List.length_append, List.length_singleton,
          List.append_assoc, List.singleton_append]

variable (fmt sends) in
/-- Frames behind those of the loop: they come next where the task still runs, and not at all
where it does not. -/
theorem upToClosed_append {s : RecvState} (hrun : s.running = true) (frames later : List Frame) :
    upToClosed sends s.dispatched.length (frames ++ later) =
      if (dispatchAll fmt sends s frames).running then
        frames ++ upToClosed sends (s.dispatched.length + frames.length) later
      else upToClosed sends s.dispatched.length frames := by
  induction frames generalizing s with
  | nil => simp [dispatchAll, hrun]
  | cons fields rest ih =>
      rw [List.cons_append, upToClosed, upToClosed]
      by_cases hclosed : sends s.dispatched.length = .closed
      · have hend : ¬ (dispatch fmt (sends s.dispatched.length) s fields).running = true := by
          rw [hclosed]
          exact Bool.false_ne_true
        rw [dispatchAll_closed hclosed, if_neg hend, if_pos hclosed, if_pos hclosed]
      · obtain ⟨hnext, hstep⟩ := dispatchAll_open fmt hrun hclosed fields rest
        have hrest := ih hnext
        rw [dispatch_dispatched, List.length_append, List.length_singleton] at hrest
        rw [hstep, if_neg hclosed, if_neg hclosed, hrest, List.length_cons,
          Nat.add_right_comm s.dispatched.length 1, ← Nat.add_assoc]
        split
        · rfl
        · rfl

end

/-! ## A run -/

/-- A task that has ended stays as it is. -/
theorem run_of_ended {s : RecvState} (hend : s.running = false) (reads : List SocketRead) :
    run (recvStep fm fmt sends) s reads = s := by
  induction reads with
  | nil => rfl
  | cons read reads ih =>
      have hstep : recvStep fm fmt sends s read = s := by
        unfold recvStep
        rw [hend]
        rfl
      rw [run_cons, hstep, ih]

variable (fm fmt sends) in
/-- One read. -/
theorem recvStep_bytes {s : RecvState} (hrun : s.running = true) {chunk : List UInt8}
    (hchunk : chunk ≠ []) :
    recvStep fm fmt sends s (.bytes chunk) =
      match drain framing (s.buf ++ chunk) with
      | ⟨payloads, rest, none⟩ =>
          dispatchAll fmt sends { s with buf := rest } (payloads.map (fieldsOf fm))
      | ⟨_, rest, some _⟩ => { s with buf := rest, running := false } := by
  cases chunk with
  | nil => exact absurd rfl hchunk
  | cons b chunk =>
      have hread : recvStep fm fmt sends s (.bytes (b :: chunk)) =
          match tryDecodeAll fm (s.buf ++ b :: chunk) with
          | (.ok frames, rest) => dispatchAll fmt sends { s with buf := rest } frames
          | (.error _, rest) => { s with buf := rest, running := false } := if_pos hrun
      rw [hread, tryDecodeAll_eq]
      cases drain framing (s.buf ++ b :: chunk) with
      | mk payloads rest refused => cases refused <;> rfl

/-- **What a run dispatches**: the frames that are delivered before a refused length, up to a
closed channel. -/
theorem run_dispatched {s : RecvState} (hrun : s.running = true)
    {chunks : List (List UInt8)} (hchunks : ∀ chunk ∈ chunks, chunk ≠ []) :
    (run (recvStep fm fmt sends) s (chunks.map .bytes)).dispatched =
      s.dispatched ++ upToClosed sends s.dispatched.length
        ((delivered framing s.buf chunks).map (fieldsOf fm)) := by
  induction chunks generalizing s with
  | nil => exact (List.append_nil s.dispatched).symm
  | cons chunk chunks ih =>
      rw [List.forall_mem_cons] at hchunks
      have hstep := recvStep_bytes fm fmt sends hrun hchunks.1
      rw [List.map_cons, run_cons]
      cases hdrain : drain framing (s.buf ++ chunk) with
      | mk payloads rest refused =>
          rw [hdrain] at hstep
          cases refused with
          | some size =>
              rw [hstep, LengthPrefixed.delivered_of_refused hdrain, run_of_ended rfl]
              exact (List.append_nil s.dispatched).symm
          | none =>
              simp only at hstep
              have hread : ({ s with buf := rest } : RecvState).running = true := hrun
              obtain ⟨hbuf, hdispatched⟩ :=
                dispatchAll_spec fmt sends hread (payloads.map (fieldsOf fm))
              have happend := upToClosed_append fmt sends hread
                (payloads.map (fieldsOf fm)) ((delivered framing rest chunks).map (fieldsOf fm))
              rw [LengthPrefixed.delivered_of_drained hdrain, List.map_append, hstep, happend]
              split
              · rename_i hnext
                have hall := upToClosed_append fmt sends hread
                  (payloads.map (fieldsOf fm)) []
                rw [if_pos hnext, List.append_nil, upToClosed, List.append_nil] at hall
                rw [ih hnext hchunks.2, hbuf, hdispatched, hall, List.length_append,
                  List.append_assoc]
              · rename_i hend
                rw [run_of_ended (by simpa using hend), hdispatched]

/-! ## A refused length behind whole frames -/

/-- **All frames before a refused length are dispatched** just if some read ends behind the
last of them and before the end of the refused length, and none of them but the last finds
the channel closed. -/
theorem recv_dispatches_all_iff (fm : OrderCodec.Formatters F) (fmt : TextFormats F Date)
    (sends : Nat → SendResult) (nextOrderId : Int) (managedAccounts : List String)
    (msgsRecv msgsDropped : Nat) {payloads : List (List UInt8)}
    (hpayloads : ∀ payload ∈ payloads, payload.length ≤ OrderCodec.maxMessageBytes)
    {size : Nat} (hlarge : OrderCodec.maxMessageBytes < size) (hfits : size < 256 ^ 4)
    {tail : List UInt8} {chunks : List (List UInt8)} (hchunks : ∀ chunk ∈ chunks, chunk ≠ [])
    (hstream : chunks.flatten =
      LengthPrefixed.frames framing payloads ++ (BigEndian.toBytes 4 size ++ tail)) :
    (run (recvStep fm fmt sends) (spawnRecvTask nextOrderId managedAccounts msgsRecv msgsDropped)
        (chunks.map .bytes)).dispatched = payloads.map (fieldsOf fm) ↔
      (∃ early late, chunks = early ++ late ∧
        (LengthPrefixed.frames framing payloads).length ≤ early.flatten.length ∧
        early.flatten.length < (LengthPrefixed.frames framing payloads).length + 4) ∧
      ∀ k, k + 1 < payloads.length → sends k ≠ .closed := by
  have hdrain : drain framing ([] ++ chunks.flatten) =
      ⟨payloads, BigEndian.toBytes 4 size ++ tail, some size⟩ := by
    rw [List.nil_append, hstream]
    exact LengthPrefixed.drain_frames_oversize (f := framing) hpayloads hlarge hfits tail
  have hprefix := LengthPrefixed.delivered_prefix (f := framing) [] chunks
  rw [hdrain] at hprefix
  have hcut : delivered framing [] chunks = payloads ↔
      ∃ early late, chunks = early ++ late ∧
        (LengthPrefixed.frames framing payloads).length ≤ early.flatten.length ∧
        early.flatten.length < (LengthPrefixed.frames framing payloads).length + 4 := by
    rw [LengthPrefixed.delivered_eq_iff LengthPrefixed.front_nil hdrain]
    refine exists_congr fun early => exists_congr fun late => ?_
    rw [exists_and_left]
    refine and_congr_right fun hchunks => ?_
    rw [hchunks, List.flatten_append] at hstream
    exact LengthPrefixed.drain_cut hpayloads hlarge hfits hstream
  have hclosed := upToClosed_eq_iff sends 0 (payloads.map (fieldsOf fm))
  simp only [Nat.zero_add, List.length_map] at hclosed
  rw [run_dispatched rfl hchunks, ← hcut, ← hclosed]
  show [] ++ upToClosed sends 0 ((delivered framing [] chunks).map (fieldsOf fm)) = _ ↔ _
  rw [List.nil_append]
  constructor
  · intro h
    -- what is dispatched is a first part of what is delivered, and that of the payloads
    have hlength := (prefix_upToClosed sends 0
      ((delivered framing [] chunks).map (fieldsOf fm))).length_le
    rw [h, List.length_map, List.length_map] at hlength
    have hall : delivered framing [] chunks = payloads := hprefix.eq_of_length_le hlength
    rw [hall] at h
    exact ⟨hall, h⟩
  · rintro ⟨hall, h⟩
    rw [hall, h]

/-- A `nextValidId` of 42, as a payload. -/
def samplePayload : List UInt8 := [57, 0, 49, 0, 52, 50, 0]

/-- The frame in one read and the refused length in the next. -/
theorem recv_dispatches_frame_before :
    (run (recvStep OrderCodec.decimalFormatters RestingSweep.plainFormats fun _ => .ok)
        (spawnRecvTask 0 [] 0 0)
        ([LengthPrefixed.frame framing samplePayload,
          [255, 255, 255, 255]].map .bytes)).dispatched =
      [samplePayload].map (fieldsOf OrderCodec.decimalFormatters) := by
  have hone : ∀ payload ∈ [samplePayload], payload.length ≤ OrderCodec.maxMessageBytes := by
    decide
  have hreads : ∀ chunk ∈ [LengthPrefixed.frame framing samplePayload, [255, 255, 255, 255]],
      chunk ≠ [] := by
    decide
  have hstream : [LengthPrefixed.frame framing samplePayload, [255, 255, 255, 255]].flatten =
      LengthPrefixed.frames framing [samplePayload] ++ (BigEndian.toBytes 4 4294967295 ++ []) := by
    decide
  exact (recv_dispatches_all_iff OrderCodec.decimalFormatters RestingSweep.plainFormats
    (fun _ => .ok) 0 [] 0 0 hone (by decide) (by decide) hreads hstream).mpr
    ⟨⟨[LengthPrefixed.frame framing samplePayload], [[255, 255, 255, 255]], rfl, by decide,
      by decide⟩, fun _ _ => by decide⟩

/-- Both in one read: the frame is not dispatched. -/
theorem recv_loses_frame :
    ¬ ∀ (payloads chunks : List (List UInt8)) (size : Nat) (tail : List UInt8),
      (∀ payload ∈ payloads, payload.length ≤ OrderCodec.maxMessageBytes) →
      OrderCodec.maxMessageBytes < size → size < 256 ^ 4 → (∀ chunk ∈ chunks, chunk ≠ []) →
      chunks.flatten =
        LengthPrefixed.frames framing payloads ++ (BigEndian.toBytes 4 size ++ tail) →
      (run (recvStep OrderCodec.decimalFormatters RestingSweep.plainFormats fun _ => .ok)
          (spawnRecvTask 0 [] 0 0) (chunks.map .bytes)).dispatched =
        payloads.map (fieldsOf OrderCodec.decimalFormatters) := by
  intro hall
  have hlarge : OrderCodec.maxMessageBytes < 4294967295 := by decide
  have hone : ∀ payload ∈ [samplePayload], payload.length ≤ OrderCodec.maxMessageBytes := by
    decide
  have hdrain := LengthPrefixed.drain_frames_oversize (f := framing) hone hlarge (by decide) []
  have h := hall [samplePayload] [LengthPrefixed.frames framing [samplePayload] ++
    (BigEndian.toBytes 4 4294967295 ++ [])] 4294967295 [] hone hlarge (by decide) (by decide)
    (List.append_nil _)
  have hnone : delivered framing [] [LengthPrefixed.frames framing [samplePayload] ++
      (BigEndian.toBytes 4 4294967295 ++ [])] = [] :=
    LengthPrefixed.delivered_of_refused hdrain []
  rw [run_dispatched rfl (by decide), show (spawnRecvTask 0 [] 0 0).buf = [] from rfl, hnone] at h
  cases h

end Corsair.Ports.RecvLoop
