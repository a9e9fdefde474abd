import Corsair.Ports.FrameStreams
import Corsair.Verified.Runs

/-!
# `corsair_trader::main::hot_loop_blocking`

The trader's loop appends what the ring holds to a buffer that it keeps, unpacks the buffer
and processes the bodies one after the other.  Where unpacking fails it logs the error and
goes on with the next drain, with the buffer as it was.

So the length that was refused stays in front of all that comes later, or behind whole
frames that are not processed either: after one bad drain nothing is processed again.

## Main results

* `run_processes` — without a refused length the loop processes the stream's bodies in order.
* `hot_loop_recovers_iff` — after a refused length, the later drains are processed just if
  there is nothing in them.
-/

namespace Corsair.Ports.HotLoop

open Corsair.Verified
open Corsair.Verified.Runs
open Corsair.Verified.LengthPrefixed (Drained front drain)
open Corsair.Ports.Protocol
open Corsair.Ports.FrameStreams

/-- The loop's buffer, and the bodies that were handed to `process_event`. -/
structure LoopState where
  buf : List UInt8
  processed : List (List UInt8)
  deriving DecidableEq, Repr

/-- The loop at its start. -/
def start : LoopState := ⟨[], []⟩

/-- One turn of `hot_loop_blocking`; `read_available_into` appends `available`. -/
def hotLoopStep (s : LoopState) (available : List UInt8) : LoopState :=
  if available.length > 0 then
    match unpackAllFrames (s.buf ++ available) with
    | (.ok bodies, rest) => { buf := rest, processed := s.processed ++ bodies }
    | (.error _, rest) => { s with buf := rest }
  else s

/-! ## Without a refused length -/

/-- A turn, by the drained buffer. -/
theorem hotLoopStep_of_drain {s : LoopState} {available rest : List UInt8}
    {bodies : List (List UInt8)} (hshort : front framing s.buf = .short)
    (h : drain framing (s.buf ++ available) = ⟨bodies, rest, none⟩) :
    hotLoopStep s available = { buf := rest, processed := s.processed ++ bodies } := by
  unfold hotLoopStep
  split
  · rw [unpackAllFrames_eq, h]
  · rename_i hempty
    have hnil : available = [] := List.eq_nil_of_length_eq_zero (Nat.eq_zero_of_not_pos hempty)
    rw [hnil, List.append_nil, LengthPrefixed.drain_short hshort] at h
    obtain ⟨rfl, rfl, -⟩ := Drained.mk.inj h
    rw [List.append_nil]

/-- **The loop processes the stream.** Drains that bring whole frames, cut anywhere, are
processed in order, and nothing stays in the buffer. -/
theorem run_processes {bodies pieces : List (List UInt8)}
    (hbodies : ∀ body ∈ bodies, body.length ≤ maxFrameBytes)
    (hpieces : pieces.flatten = frames bodies) :
    run hotLoopStep start pieces = { buf := [], processed := bodies } := by
  suffices h : ∀ (s : LoopState) (bodies : List (List UInt8)) (rest : List UInt8),
      front framing s.buf = .short →
      drain framing (s.buf ++ pieces.flatten) = ⟨bodies, rest, none⟩ →
      run hotLoopStep s pieces = { buf := rest, processed := s.processed ++ bodies } by
    refine h start bodies [] LengthPrefixed.front_nil ?_
    rw [hpieces, frames_eq]
    exact LengthPrefixed.drain_frames_nil hbodies
  clear hpieces
  induction pieces with
  | nil =>
      intro s bodies rest hshort hdrain
      rw [List.flatten_nil, List.append_nil, LengthPrefixed.drain_short hshort] at hdrain
      obtain ⟨rfl, rfl, -⟩ := Drained.mk.inj hdrain
      rw [run_nil, List.append_nil]
  | cons available pieces ih =>
      intro s bodies rest hshort hdrain
      rw [List.flatten_cons, ← List.append_assoc] at hdrain
      obtain ⟨first, left, later, hfirst, hlater, rfl⟩ :=
        LengthPrefixed.drain_append_eq_none hdrain
      have hfront : front framing left = .short := LengthPrefixed.front_of_drain hfirst
      rw [run_cons, hotLoopStep_of_drain hshort hfirst, ih _ later rest hfront hlater,
        List.append_assoc]

/-! ## After a refused length -/

/-- Whole frames, or none, and a length that is refused behind them. -/
def ContainsOversize (buf : List UInt8) : Prop :=
  ∃ bodies size rest, (∀ body ∈ bodies, body.length ≤ maxFrameBytes) ∧
    maxFrameBytes < size ∧ size < 256 ^ 4 ∧
    buf = frames bodies ++ (BigEndian.toBytes 4 size ++ rest)

theorem ContainsOversize.append {buf : List UInt8} (h : ContainsOversize buf)
    (available : List UInt8) : ContainsOversize (buf ++ available) := by
  obtain ⟨bodies, size, rest, hbodies, hlarge, hfits, rfl⟩ := h
  refine ⟨bodies, size, rest ++ available, hbodies, hlarge, hfits, ?_⟩
  simp only [List.append_assoc]

/-- A turn that finds a refused length keeps all that is in the buffer. -/
theorem hotLoopStep_of_oversize {s : LoopState} {available : List UInt8}
    (h : ContainsOversize (s.buf ++ available)) :
    hotLoopStep s available = { s with buf := s.buf ++ available } := by
  unfold hotLoopStep
  split
  · obtain ⟨bodies, size, rest, hbodies, hlarge, hfits, hbuf⟩ := h
    rw [unpackAllFrames_eq, hbuf, drain_framesBeforeOversize hbodies hlarge hfits]
  · rename_i hempty
    rw [List.eq_nil_of_length_eq_zero (Nat.eq_zero_of_not_pos hempty), List.append_nil]

/-- From then on nothing is processed. -/
theorem run_of_oversize {s : LoopState} (h : ContainsOversize s.buf)
    (later : List (List UInt8)) :
    (run hotLoopStep s later).processed = s.processed := by
  induction later generalizing s with
  | nil => rfl
  | cons available later ih =>
      have hstep := hotLoopStep_of_oversize (h.append available)
      have hnext : ContainsOversize (hotLoopStep s available).buf := by
        rw [hstep]
        exact h.append available
      rw [run_cons, ih hnext, hstep]

/-- **After a refused length** the drains that follow are processed just if they bring no
frame: the loop goes deaf. -/
theorem hot_loop_recovers_iff (s : LoopState) (bad : List UInt8)
    (hbad : ContainsOversize (s.buf ++ bad)) (later : List (List (List UInt8))) :
    (run hotLoopStep s (bad :: later.map frames)).processed = s.processed ++ later.flatten ↔
      later.flatten = [] := by
  have hstep := hotLoopStep_of_oversize hbad
  have hdeaf : ContainsOversize (hotLoopStep s bad).buf := by
    rw [hstep]
    exact hbad
  rw [run_cons, run_of_oversize hdeaf, hstep]
  exact List.self_eq_append_right

/-- Four bytes of 255 are such a length. -/
theorem containsOversize_ones : ContainsOversize [255, 255, 255, 255] :=
  ⟨[], 4294967295, [], by decide, by decide, by decide, by decide⟩

theorem hot_loop_recovers_from_silence :
    (run hotLoopStep start ([255, 255, 255, 255] :: ([[], []] : List (List (List UInt8))).map
        frames)).processed = start.processed ++ ([[], []] : List (List (List UInt8))).flatten ↔
      ([[], []] : List (List (List UInt8))).flatten = [] :=
  hot_loop_recovers_iff start [255, 255, 255, 255] containsOversize_ones [[], []]

/-- The loop at its start, a length that is refused, and a frame of one byte after it: the
frame is not processed. -/
theorem hot_loop_goes_deaf :
    ¬ ∀ (s : LoopState) (bad : List UInt8) (later : List (List (List UInt8))),
      ContainsOversize (s.buf ++ bad) →
      (∀ bodies ∈ later, ∀ body ∈ bodies, body.length ≤ maxFrameBytes) →
      (run hotLoopStep s (bad :: later.map frames)).processed =
        s.processed ++ later.flatten := by
  intro hall
  have h := hall start [255, 255, 255, 255] [[[7]]] containsOversize_ones (by decide)
  have hstep : hotLoopStep start [255, 255, 255, 255] = ⟨[255, 255, 255, 255], []⟩ :=
    hotLoopStep_of_oversize (s := start) containsOversize_ones
  rw [run_cons, hstep, run_of_oversize containsOversize_ones] at h
  cases h

end Corsair.Ports.HotLoop
