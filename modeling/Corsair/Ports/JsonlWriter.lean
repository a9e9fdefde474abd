import Mathlib.Data.List.Basic
import Mathlib.Logic.Function.Basic
import Corsair.Verified.BufferedWriter
import Corsair.Verified.Runs

/-!
# `jsonl`: the row logs of the broker and the trader

Both processes write their logs through a `JsonlWriter`.  The hot path puts a row into a bounded
channel and counts the rows that find it full.  A task takes them out, one after the other, and
appends each as a line to the file of the day.  A file that has grown to `MAX_BYTES_PER_FILE`
makes way for the next part.

The disk is the environment's: whether a file opens, whether its size can be read, and how many
bytes it takes before it fails.  `fates` is what became of the rows that were taken; the code keeps
no such list.

The task opens a file where the day or the part changes, and nowhere else.  When that fails at the
first row of a day there is no file for the rest of the day, and the counter says nothing.

## Main results

* `rows_accounted` — where every row went, in order, and what the files hold.
* `failed_open_loses_the_day` — what a file that does not open costs.
-/

namespace Corsair.Ports.JsonlWriter

open Corsair.Verified
open Corsair.Verified.Runs
open Corsair.Verified.BufferedWriter

/-! ## The writer -/

/-- `MAX_BYTES_PER_FILE`. -/
def maxBytesPerFile : Nat := 256 * 1024 * 1024

/-- `CHANNEL_CAPACITY`. -/
def channelCapacity : Nat := 10000

/-- `WRITES_PER_FLUSH`. -/
def writesPerFlush : Nat := 100

/-- The capacity of `BufWriter::new`. -/
def bufferCapacity : Nat := 8192

/-- The file of a part of a day. -/
def logPath (stem day : String) (part : Nat) : String :=
  stem ++ "-" ++ day ++ ".jsonl" ++ (if part = 0 then "" else "." ++ toString part)

/-- What became of a row that the channel took. -/
inductive Fate
  | written (path : String) (line : List UInt8)
  | failed
  | unserialized
  | unopened
  | abandoned

/-- The task has yet to create the directory, runs, or has returned. -/
inductive Phase
  | starting
  | running
  | stopped
  deriving DecidableEq

/-- The channel with its counter, the files, and the variables of `writer_task`. -/
structure Log (Row : Type) where
  queue : List Row
  dropped : Nat
  phase : Phase
  files : String → List UInt8
  writer : Option (String × List UInt8)
  currentDay : Option String
  currentPart : Nat
  currentSize : Nat
  writesSinceFlush : Nat
  fates : List (Row × Fate)

/-- What a row meets: the day, and the disk. -/
structure Turn where
  day : String
  opens : Bool
  openMetadata : Bool
  resyncMetadata : Bool
  rollBudget : Nat
  dropBudget : Nat
  writeBudget : Nat
  flushBudget : Nat

section Code

variable {Row : Type} (stem : String) (serialize : Row → Option (List UInt8))

/-- `start`. -/
def start (files : String → List UInt8) : Log Row where
  queue := []
  dropped := 0
  phase := .starting
  files
  writer := none
  currentDay := none
  currentPart := 0
  currentSize := 0
  writesSinceFlush := 0
  fates := []

/-- `write`: a full channel and one without a receiver drop the row. -/
def Log.write (s : Log Row) (row : Row) : Log Row :=
  if s.phase ≠ .stopped ∧ s.queue.length < channelCapacity then
    { s with queue := s.queue ++ [row] }
  else { s with dropped := s.dropped + 1 }

/-- `create_dir_all`; where it fails, the receiver goes with what is in the channel. -/
def Log.boot (s : Log Row) (created : Bool) : Log Row :=
  match s.phase with
  | .starting =>
      if created then { s with phase := .running }
      else
        { s with
          phase := .stopped
          queue := []
          fates := s.fates ++ s.queue.map (·, .abandoned) }
  | _ => s

/-- `need_roll`, with the part that is opened then. -/
def Log.needRoll (s : Log Row) (day : String) : Option Nat :=
  match s.currentDay with
  | none => some s.currentPart
  | some d =>
      if d ≠ day then some 0
      else if s.currentSize ≥ maxBytesPerFile then some (s.currentPart + 1)
      else none

theorem needRoll_eq_none {s : Log Row} {day : String} :
    s.needRoll day = none ↔ s.currentDay = some day ∧ s.currentSize < maxBytesPerFile := by
  unfold Log.needRoll
  cases s.currentDay with
  | none => simp
  | some d =>
      dsimp only
      split_ifs with hday hsize
      · simp [hday]
      · simp only [false_iff]
        omega
      · simp only [true_iff]
        exact ⟨congrArg some (not_not.mp hday), by omega⟩

/-- The file under a path and its buffer. -/
def Log.buffered (s : Log Row) (path : String) (buffer : List UInt8) : Buffered UInt8 where
  sink := s.files path
  buffer

/-- The old file is flushed, and once more as the writer is dropped. -/
def Log.close (s : Log Row) (turn : Turn) : Log Row :=
  match s.writer with
  | none => s
  | some (path, buffer) =>
      let flushed := ((s.buffered path buffer).flushBuf turn.rollBudget).2
      let closed := (flushed.flushBuf turn.dropBudget).2
      { s with files := Function.update s.files path closed.sink, writer := none }

/-- The file of a part is opened at its end. -/
def Log.openPart (s : Log Row) (turn : Turn) (part : Nat) : Log Row :=
  let path := logPath stem turn.day part
  let opened := { s with currentDay := some turn.day, currentPart := part }
  if turn.opens then
    { opened with
      currentSize := if turn.openMetadata then (s.files path).length else 0
      writer := some (path, []) }
  else { opened with writer := none }

def Log.roll (s : Log Row) (turn : Turn) : Log Row :=
  match s.needRoll turn.day with
  | none => s
  | some part => (s.close turn).openPart stem turn part

/-- Every `WRITES_PER_FLUSH` lines the buffer goes to the file. -/
def flushed (turn : Turn) (writes : Nat) (w : Buffered UInt8) : Buffered UInt8 :=
  if writes ≥ writesPerFlush then (w.flushBuf turn.flushBudget).2 else w

/-- A line, once there is a file to write it to. -/
def Log.append (s : Log Row) (turn : Turn) (path : String) (buffer : List UInt8) (row : Row) :
    Log Row :=
  match serialize row with
  | none => { s with fates := s.fates ++ [(row, .unserialized)] }
  | some body =>
      let line := body ++ [10]
      let out := (s.buffered path buffer).writeAll bufferCapacity turn.writeBudget line
      let size :=
        if out.1 then s.currentSize + line.length
        else if turn.resyncMetadata then out.2.sink.length
        else s.currentSize
      let fate := if out.1 then Fate.written path line else .failed
      let writes := s.writesSinceFlush + 1
      let kept := flushed turn writes out.2
      { s with
        files := Function.update s.files path kept.sink
        writer := some (path, kept.buffer)
        currentSize := size
        writesSinceFlush := if writes ≥ writesPerFlush then 0 else writes
        fates := s.fates ++ [(row, fate)] }

/-- A row is appended if there is a file. -/
def Log.record (s : Log Row) (turn : Turn) (row : Row) : Log Row :=
  match s.writer with
  | none => { s with fates := s.fates ++ [(row, .unopened)] }
  | some (path, buffer) => s.append serialize turn path buffer row

/-- A turn of the loop of `writer_task`. -/
def Log.take (s : Log Row) (turn : Turn) : Log Row :=
  match s.phase, s.queue with
  | .running, row :: rest => ({ s with queue := rest }.roll stem turn).record serialize turn row
  | _, _ => s

/-- What happens next. -/
inductive LogStep (Row : Type)
  | write (row : Row)
  | boot (created : Bool)
  | take (turn : Turn)

def step (s : Log Row) : LogStep Row → Log Row
  | .write row => s.write row
  | .boot created => s.boot created
  | .take turn => s.take stem serialize turn

end Code

section Rows

variable {Row : Type} (stem : String) (serialize : Row → Option (List UInt8))

/-! ## Frames -/

/-- What the disk does not touch. -/
def Log.channel (s : Log Row) : List Row × Nat × Phase := (s.queue, s.dropped, s.phase)

theorem close_frame (s : Log Row) (turn : Turn) :
    (s.close turn).channel = s.channel ∧ (s.close turn).fates = s.fates ∧
      (s.close turn).writer = none := by
  unfold Log.close
  cases hwriter : s.writer with
  | none => exact ⟨rfl, rfl, hwriter⟩
  | some target => exact ⟨rfl, rfl, rfl⟩

theorem currentSize_close (s : Log Row) (turn : Turn) :
    (s.close turn).currentSize = s.currentSize := by
  unfold Log.close
  cases s.writer with
  | none => rfl
  | some target => rfl

theorem openPart_frame (s : Log Row) (turn : Turn) (part : Nat) :
    (s.openPart stem turn part).channel = s.channel ∧
      (s.openPart stem turn part).fates = s.fates ∧
      (s.openPart stem turn part).files = s.files := by
  unfold Log.openPart
  dsimp only
  split
  · exact ⟨rfl, rfl, rfl⟩
  · exact ⟨rfl, rfl, rfl⟩

theorem roll_frame (s : Log Row) (turn : Turn) :
    (s.roll stem turn).channel = s.channel ∧ (s.roll stem turn).fates = s.fates := by
  unfold Log.roll
  cases s.needRoll turn.day with
  | none => exact ⟨rfl, rfl⟩
  | some part =>
      obtain ⟨hchannel, hfates, -⟩ := openPart_frame stem (s.close turn) turn part
      obtain ⟨hchannel', hfates', -⟩ := close_frame s turn
      exact ⟨hchannel.trans hchannel', hfates.trans hfates'⟩

theorem append_frame (s : Log Row) (turn : Turn) (path : String) (buffer : List UInt8)
    (row : Row) :
    (s.append serialize turn path buffer row).channel = s.channel ∧
      ∃ fate, (s.append serialize turn path buffer row).fates = s.fates ++ [(row, fate)] := by
  unfold Log.append
  cases serialize row with
  | none => exact ⟨rfl, .unserialized, rfl⟩
  | some body => exact ⟨rfl, _, rfl⟩

theorem record_frame (s : Log Row) (turn : Turn) (row : Row) :
    (s.record serialize turn row).channel = s.channel ∧
      ∃ fate, (s.record serialize turn row).fates = s.fates ++ [(row, fate)] := by
  unfold Log.record
  cases s.writer with
  | none => exact ⟨rfl, .unopened, rfl⟩
  | some target => exact append_frame serialize s turn target.1 target.2 row

/-- The log as the first row of the channel meets it. -/
def Log.rolled (stem : String) (s : Log Row) (turn : Turn) (rest : List Row) : Log Row :=
  { s with queue := rest }.roll stem turn

/-- A turn takes the first row of the channel, or none. -/
theorem take_cases (s : Log Row) (turn : Turn) :
    s.take stem serialize turn = s ∨
      ∃ row rest, s.phase = .running ∧ s.queue = row :: rest ∧
        s.take stem serialize turn = (s.rolled stem turn rest).record serialize turn row := by
  unfold Log.take
  cases hphase : s.phase with
  | starting => exact .inl rfl
  | stopped => exact .inl rfl
  | running =>
      cases hqueue : s.queue with
      | nil => exact .inl rfl
      | cons row rest => exact .inr ⟨row, rest, rfl, rfl, by simp only [Log.rolled, hphase]⟩

theorem take_frame (s : Log Row) (turn : Turn) (row : Row) (rest : List Row) :
    let s' := (s.rolled stem turn rest).record serialize turn row
    s'.channel = (rest, s.dropped, s.phase) ∧ ∃ fate, s'.fates = s.fates ++ [(row, fate)] := by
  obtain ⟨hchannel, fate, hfate⟩ := record_frame serialize
    (s.rolled stem turn rest) turn row
  obtain ⟨hrolled, hfates⟩ := roll_frame stem { s with queue := rest } turn
  exact ⟨hchannel.trans hrolled, fate, hfate.trans (congrArg (· ++ [(row, fate)]) hfates)⟩

/-! ## Where the rows went -/

/-- The rows of a schedule. -/
def rowsOf (schedule : List (LogStep Row)) : List Row :=
  schedule.filterMap fun
    | .write row => some row
    | _ => none

/-- The rows that the channel took, oldest first. -/
def Log.accepted (s : Log Row) : List Row := s.fates.map Prod.fst ++ s.queue

/-- What was accepted is what was written but for the rows that were counted. -/
def Accounted (s : Log Row) (rows : List Row) : Prop :=
  s.accepted.Sublist rows ∧ s.accepted.length + s.dropped = rows.length

theorem Accounted.of_accepted {s s' : Log Row} {rows : List Row} (h : Accounted s rows)
    (haccepted : s'.accepted = s.accepted) (hdropped : s'.dropped = s.dropped) :
    Accounted s' rows := by
  unfold Accounted
  rw [haccepted, hdropped]
  exact h

theorem Accounted.step {s : Log Row} {rows : List Row} (h : Accounted s rows) (a : LogStep Row) :
    Accounted (step stem serialize s a) (rows ++ rowsOf [a]) := by
  cases a with
  | write row =>
      obtain ⟨hsub, hlength⟩ := h
      simp only [JsonlWriter.step, Log.write, rowsOf, List.filterMap_cons, List.filterMap_nil]
      split_ifs
      · have haccepted : ({ s with queue := s.queue ++ [row] } : Log Row).accepted =
            s.accepted ++ [row] := (List.append_assoc _ _ _).symm
        refine ⟨haccepted ▸ hsub.append (List.Sublist.refl _), ?_⟩
        rw [haccepted, List.length_append, List.length_append]
        show _ + s.dropped = _
        omega
      · refine ⟨hsub.trans (List.sublist_append_left _ _), ?_⟩
        show s.accepted.length + (s.dropped + 1) = _
        simp only [List.length_append, List.length_cons, List.length_nil]
        omega
  | boot created =>
      rw [show rowsOf [(LogStep.boot created : LogStep Row)] = [] from rfl, List.append_nil]
      simp only [JsonlWriter.step, Log.boot]
      split
      · split_ifs
        · exact h.of_accepted rfl rfl
        · refine h.of_accepted ?_ rfl
          simp [Log.accepted, Function.comp_def]
      · exact h
  | take turn =>
      rw [show rowsOf [(LogStep.take turn : LogStep Row)] = [] from rfl, List.append_nil]
      simp only [JsonlWriter.step]
      rcases take_cases stem serialize s turn with
        hkept | ⟨row, rest, -, hqueue, htake⟩
      · rwa [hkept]
      · obtain ⟨hchannel, fate, hfates⟩ :=
          take_frame stem serialize s turn row rest
        have hrest : ((s.rolled stem turn rest).record serialize turn row).queue = rest :=
          congrArg Prod.fst hchannel
        rw [htake]
        refine h.of_accepted ?_ (congrArg (·.2.1) hchannel)
        simp [Log.accepted, hfates, hrest, hqueue]

theorem accounted_run {s : Log Row} {rows : List Row} (h : Accounted s rows)
    (schedule : List (LogStep Row)) :
    Accounted (run (step stem serialize) s schedule) (rows ++ rowsOf schedule) := by
  induction schedule generalizing s rows with
  | nil => simpa [rowsOf] using h
  | cons a rest ih =>
      have hrows : rows ++ rowsOf (a :: rest) = (rows ++ rowsOf [a]) ++ rowsOf rest := by
        rw [List.append_assoc]
        exact congrArg (rows ++ ·) (by simp [rowsOf, List.filterMap_cons]; split <;> rfl)
      rw [hrows]
      exact ih (h.step stem serialize a)

/-! ## What the files hold -/

/-- The bytes for a path that wait in the buffer. -/
def Log.held (s : Log Row) (path : String) : List UInt8 :=
  match s.writer with
  | some (p, buffer) => if p = path then buffer else []
  | none => []

/-- What a file has and is still to get. -/
def Log.contents (s : Log Row) (path : String) : List UInt8 := s.files path ++ s.held path

def Fate.lineTo (path : String) : Fate → List UInt8
  | .written p line => if p = path then line else []
  | _ => []

/-- The lines of the rows that were written to a path. -/
def linesTo (path : String) (fates : List (Row × Fate)) : List UInt8 :=
  fates.flatMap fun f => f.2.lineTo path

theorem linesTo_concat (path : String) (fates : List (Row × Fate)) (row : Row) (fate : Fate) :
    linesTo path (fates ++ [(row, fate)]) = linesTo path fates ++ fate.lineTo path := by
  simp [linesTo]

theorem contents_of_none {s : Log Row} (h : s.writer = none) (path : String) :
    s.contents path = s.files path := by
  simp [Log.contents, Log.held, h]

theorem contents_of_writer {s : Log Row} {path : String} {buffer : List UInt8}
    (h : s.writer = some (path, buffer)) (path' : String) :
    s.contents path' = if path = path' then s.files path ++ buffer else s.files path' := by
  unfold Log.contents Log.held
  rw [h]
  dsimp only
  split_ifs with hpath
  · rw [hpath]
  · exact List.append_nil _

/-- The buffer of an open file keeps to its capacity. -/
def Held (s : Log Row) : Prop :=
  ∀ path buffer, s.writer = some (path, buffer) → buffer.length ≤ bufferCapacity

/-- A file that is closed in two flushes has all of its lines. -/
theorem contents_close {s : Log Row} {turn : Turn}
    (h : ∀ path buffer, s.writer = some (path, buffer) →
      buffer.length ≤ turn.rollBudget + turn.dropBudget) (path : String) :
    (s.close turn).contents path = s.contents path := by
  rw [contents_of_none (close_frame s turn).2.2]
  unfold Log.close
  cases hwriter : s.writer with
  | none => exact (contents_of_none hwriter path).symm
  | some target =>
      obtain ⟨p, buffer⟩ := target
      rw [contents_of_writer hwriter]
      dsimp only
      split_ifs with hpath
      · rw [← hpath, Function.update_self]
        exact (s.buffered p buffer).sink_flushBuf_twice _ _ (h p buffer hwriter)
      · exact Function.update_of_ne (Ne.symm hpath) _ _

theorem writer_openPart (s : Log Row) (turn : Turn) (part : Nat) :
    (s.openPart stem turn part).writer =
      if turn.opens then some (logPath stem turn.day part, []) else none := by
  unfold Log.openPart
  dsimp only
  split
  · rfl
  · rfl

theorem contents_openPart (s : Log Row) (turn : Turn) (part : Nat) (path : String) :
    (s.openPart stem turn part).contents path = s.files path := by
  have hwriter := writer_openPart stem s turn part
  have hfiles := (openPart_frame stem s turn part).2.2
  split at hwriter
  · rw [contents_of_writer hwriter, hfiles, List.append_nil]
    split_ifs with hpath
    · rw [hpath]
    · rfl
  · rw [contents_of_none hwriter, hfiles]

/-- What a roll does to the open file. -/
theorem roll_cases (s : Log Row) (turn : Turn) :
    s.roll stem turn = s ∧ s.needRoll turn.day = none ∨
      ∃ part, s.needRoll turn.day = some part ∧
        s.roll stem turn = (s.close turn).openPart stem turn part := by
  unfold Log.roll
  cases hroll : s.needRoll turn.day with
  | none => exact .inl ⟨rfl, rfl⟩
  | some part => exact .inr ⟨part, rfl, rfl⟩

theorem contents_roll {s : Log Row} {turn : Turn}
    (h : ∀ path buffer, s.writer = some (path, buffer) → s.needRoll turn.day ≠ none →
      buffer.length ≤ turn.rollBudget + turn.dropBudget) (path : String) :
    (s.roll stem turn).contents path = s.contents path := by
  rcases roll_cases stem s turn with ⟨hroll, -⟩ | ⟨part, hneed, hroll⟩
  · rw [hroll]
  · have hclosed := contents_close (fun p buffer hp => h p buffer hp (by simp [hneed])) path
    rw [hroll, contents_openPart, ← hclosed, contents_of_none (close_frame s turn).2.2]

theorem Held.roll {s : Log Row} (h : Held s) (turn : Turn) : Held (s.roll stem turn) := by
  rcases roll_cases stem s turn with ⟨hroll, -⟩ | ⟨part, -, hroll⟩
  · rwa [hroll]
  · intro path buffer hwriter
    rw [hroll, writer_openPart] at hwriter
    split at hwriter
    · obtain ⟨-, rfl⟩ := Prod.mk.inj (Option.some.inj hwriter)
      exact Nat.zero_le _
    · cases hwriter

@[simp] theorem contents_flushed (turn : Turn) (writes : Nat) (w : Buffered UInt8) :
    (flushed turn writes w).contents = w.contents := by
  unfold flushed
  split_ifs
  · exact w.contents_flushBuf _
  · rfl

theorem length_flushed (turn : Turn) (writes : Nat) (w : Buffered UInt8) :
    (flushed turn writes w).buffer.length ≤ w.buffer.length := by
  unfold flushed
  split_ifs
  · exact w.length_buffer_flushBuf _
  · exact Nat.le_refl _

theorem contents_put {s s' : Log Row} {path : String} {w : Buffered UInt8}
    (hfiles : s'.files = Function.update s.files path w.sink)
    (hwriter : s'.writer = some (path, w.buffer)) (path' : String) :
    s'.contents path' = if path = path' then w.contents else s.files path' := by
  rw [contents_of_writer hwriter, hfiles]
  split_ifs with hpath
  · rw [Function.update_self]
    rfl
  · exact Function.update_of_ne (Ne.symm hpath) _ _

/-- What is added to the file under a path. -/
def addTo (path path' : String) (part : List UInt8) : List UInt8 :=
  if path = path' then part else []

/-- The disk takes a long line as a whole. -/
def Fits (turn : Turn) (body : List UInt8) : Prop :=
  body.length + 1 < bufferCapacity ∨ bufferCapacity + (body.length + 1) ≤ turn.writeBudget

/-- What an appended row does to a log: `part` is what the file under `path` gets. -/
structure Appends (s s' : Log Row) (path : String) (row : Row) (fate : Fate)
    (part : List UInt8) : Prop where
  fates : s'.fates = s.fates ++ [(row, fate)]
  writer : ∃ buffer, s'.writer = some (path, buffer) ∧ buffer.length ≤ bufferCapacity
  contents : ∀ path', s'.contents path' = s.contents path' ++ addTo path path' part

/-- A line that was written is in the file and in `current_size`. -/
def Whole (s s' : Log Row) (path : String) (fate : Fate) (part : List UInt8) : Prop :=
  (∀ path', fate.lineTo path' = addTo path path' part) ∧
    s'.currentSize = s.currentSize + part.length

/-- Of one that was not the file has a part, and none if the line fits. -/
def Cut (serialize : Row → Option (List UInt8)) (s' : Log Row) (turn : Turn) (path : String)
    (row : Row) (fate : Fate) (part : List UInt8) : Prop :=
  (∀ path', fate.lineTo path' = []) ∧
    (turn.resyncMetadata = true → (s'.contents path).length ≤ s'.currentSize + bufferCapacity) ∧
    ∃ body, serialize row = some body ∧ (Fits turn body → part = [])

theorem append_unserialized {s : Log Row} (turn : Turn) {path : String} {buffer : List UInt8}
    {row : Row} (hwriter : s.writer = some (path, buffer))
    (hbuffer : buffer.length ≤ bufferCapacity) (hrow : serialize row = none) :
    let s' := s.append serialize turn path buffer row
    Appends s s' path row .unserialized [] ∧ Whole s s' path .unserialized [] := by
  have hs' : s.append serialize turn path buffer row =
      { s with fates := s.fates ++ [(row, .unserialized)] } := by
    simp only [Log.append, hrow]
  rw [hs']
  refine ⟨⟨rfl, ⟨buffer, hwriter, hbuffer⟩, fun path' => ?_⟩, fun path' => (ite_self []).symm, rfl⟩
  rw [addTo, ite_self, List.append_nil]
  rfl

section Line

variable {s : Log Row} {turn : Turn} {path : String} {buffer : List UInt8} {row : Row}
  {body : List UInt8} {out : Bool × Buffered UInt8}

/-- The buffer after a line was passed to it. -/
theorem length_written (hbuffer : buffer.length ≤ bufferCapacity)
    (hout :
      (s.buffered path buffer).writeAll bufferCapacity turn.writeBudget (body ++ [10]) = out) :
    out.2.buffer.length ≤ bufferCapacity := by
  rw [← hout]
  exact (s.buffered path buffer).length_buffer_writeAll _ _ _ (by decide) hbuffer

/-- The log after a line was passed to the buffer. -/
theorem append_line {part : List UInt8} (hwriter : s.writer = some (path, buffer))
    (hbuffer : buffer.length ≤ bufferCapacity) (hrow : serialize row = some body)
    (hout : (s.buffered path buffer).writeAll bufferCapacity turn.writeBudget (body ++ [10]) = out)
    (hpart : out.2.contents = s.files path ++ buffer ++ part) :
    Appends s (s.append serialize turn path buffer row) path row
      (if out.1 then .written path (body ++ [10]) else .failed) part := by
  have hshort := length_written hbuffer hout
  have hkept := Nat.le_trans (length_flushed turn (s.writesSinceFlush + 1) out.2) hshort
  constructor
  · simp only [Log.append, hrow, hout]
  · refine ⟨_, ?_, hkept⟩
    simp only [Log.append, hrow, hout]
  · intro path'
    have hfiles : (s.append serialize turn path buffer row).files =
        Function.update s.files path (flushed turn (s.writesSinceFlush + 1) out.2).sink := by
      simp only [Log.append, hrow, hout]
    rw [contents_put hfiles (by simp only [Log.append, hrow, hout]), contents_flushed, hpart,
      contents_of_writer hwriter, addTo]
    split_ifs
    · rfl
    · exact (List.append_nil _).symm

theorem append_written (hwriter : s.writer = some (path, buffer))
    (hbuffer : buffer.length ≤ bufferCapacity) (hrow : serialize row = some body)
    (hout : (s.buffered path buffer).writeAll bufferCapacity turn.writeBudget (body ++ [10]) = out)
    (hok : out.1 = true) :
    let s' := s.append serialize turn path buffer row
    Appends s s' path row (.written path (body ++ [10])) (body ++ [10]) ∧
      Whole s s' path (.written path (body ++ [10])) (body ++ [10]) := by
  have hline : out.2.contents = s.files path ++ buffer ++ (body ++ [10]) := by
    rw [← hout] at hok ⊢
    exact (s.buffered path buffer).contents_writeAll _ _ _ (by decide) hok
  have hadds := append_line serialize hwriter hbuffer hrow hout hline
  rw [if_pos hok] at hadds
  refine ⟨hadds, fun _ => rfl, ?_⟩
  simp only [Log.append, hrow, hout, hok, if_true]

theorem append_failed (hwriter : s.writer = some (path, buffer))
    (hbuffer : buffer.length ≤ bufferCapacity) (hrow : serialize row = some body)
    (hout : (s.buffered path buffer).writeAll bufferCapacity turn.writeBudget (body ++ [10]) = out)
    (hfailed : out.1 = false) :
    let s' := s.append serialize turn path buffer row
    ∃ part, Appends s s' path row .failed part ∧
      Cut serialize s' turn path row .failed part := by
  obtain ⟨part, hnone, hpart⟩ : ∃ part, ((body ++ [10]).length < bufferCapacity → part = []) ∧
      out.2.contents = s.files path ++ buffer ++ part := by
    rw [← hout] at hfailed ⊢
    obtain ⟨part, -, hpart⟩ :=
      (s.buffered path buffer).contents_writeAll_failed _ _ _ (by decide) hfailed
    exact ⟨part, hpart⟩
  have hadds := append_line serialize hwriter hbuffer hrow hout hpart
  rw [if_neg (by simp [hfailed])] at hadds
  refine ⟨part, hadds, fun _ => rfl, fun hmeta => ?_, body, hrow, fun hfits => ?_⟩
  · -- The size is that of the file; what is not in it waits in the buffer.
    have hshort := length_written hbuffer hout
    have hsize : (s.append serialize turn path buffer row).currentSize = out.2.sink.length := by
      simp only [Log.append, hrow, hout, hfailed, hmeta, Bool.false_eq_true, if_false, if_true]
    rw [hadds.contents, hsize, contents_of_writer hwriter, addTo, if_pos rfl, if_pos rfl, ← hpart,
      Buffered.contents, List.length_append]
    omega
  · rcases hfits with hfits | hbudget
    · exact hnone (by simpa using hfits)
    · have hroom : (s.buffered path buffer).buffer.length + (body ++ [10]).length ≤
          turn.writeBudget := by
        show buffer.length + _ ≤ _
        rw [List.length_append, List.length_singleton]
        omega
      have hok := (s.buffered path buffer).writeAll_of_budget bufferCapacity _ _ (by decide) hroom
      rw [hout, hfailed] at hok
      cases hok

end Line

/-- A line goes to the file as a whole, or a part of a long line does. -/
theorem append_spec {s : Log Row} (turn : Turn) {path : String} {buffer : List UInt8} (row : Row)
    (hwriter : s.writer = some (path, buffer)) (hbuffer : buffer.length ≤ bufferCapacity) :
    let s' := s.append serialize turn path buffer row
    ∃ fate part, Appends s s' path row fate part ∧
      (Whole s s' path fate part ∨ Cut serialize s' turn path row fate part) := by
  cases hrow : serialize row with
  | none =>
      obtain ⟨hadds, hwhole⟩ := append_unserialized serialize turn hwriter hbuffer hrow
      exact ⟨_, _, hadds, .inl hwhole⟩
  | some body =>
      generalize hout : (s.buffered path buffer).writeAll bufferCapacity turn.writeBudget
        (body ++ [10]) = out
      cases hok : out.1 with
      | true =>
          obtain ⟨hadds, hwhole⟩ := append_written serialize hwriter hbuffer hrow hout hok
          exact ⟨_, _, hadds, .inl hwhole⟩
      | false =>
          obtain ⟨part, hadds, hcut⟩ := append_failed serialize hwriter hbuffer hrow hout hok
          exact ⟨_, part, hadds, .inr hcut⟩

/-! ## Invariants -/

theorem Held.record {s : Log Row} (h : Held s) (turn : Turn) (row : Row) :
    Held (s.record serialize turn row) := by
  unfold Log.record
  split
  · exact h
  · rename_i path buffer hwriter
    obtain ⟨fate, part, hadds, -⟩ :=
      append_spec serialize turn row hwriter (h path buffer hwriter)
    obtain ⟨buffer', hnew, hlength⟩ := hadds.writer
    intro p b hb
    obtain ⟨-, rfl⟩ := Prod.mk.inj (Option.some.inj (hnew.symm.trans hb))
    exact hlength

/-- A row that enters the channel and the creation of the directory do nothing to the files. -/
theorem step_frame (s : Log Row) (a : LogStep Row) (h : ∀ turn, a ≠ .take turn) :
    (step stem serialize s a).files = s.files ∧ (step stem serialize s a).writer = s.writer ∧
      (step stem serialize s a).currentDay = s.currentDay ∧
      (step stem serialize s a).currentSize = s.currentSize ∧
      ∀ path, linesTo path (step stem serialize s a).fates = linesTo path s.fates := by
  cases a with
  | write row =>
      simp only [step, Log.write]
      split_ifs
      · exact ⟨rfl, rfl, rfl, rfl, fun _ => rfl⟩
      · exact ⟨rfl, rfl, rfl, rfl, fun _ => rfl⟩
  | boot created =>
      simp only [step, Log.boot]
      split
      · split_ifs
        · exact ⟨rfl, rfl, rfl, rfl, fun _ => rfl⟩
        · refine ⟨rfl, rfl, rfl, rfl, fun path => ?_⟩
          simp [linesTo, Fate.lineTo, List.flatMap_map]
      · exact ⟨rfl, rfl, rfl, rfl, fun _ => rfl⟩
  | take turn => exact absurd rfl (h turn)

theorem contents_eq {s s' : Log Row} (hfiles : s'.files = s.files) (hwriter : s'.writer = s.writer)
    (path : String) : s'.contents path = s.contents path := by
  rw [Log.contents, Log.contents, Log.held, Log.held, hfiles, hwriter]

/-- The disk takes what is flushed at a roll, and a long line as a whole. -/
def Kept (s : Log Row) : LogStep Row → Prop
  | .take turn =>
      (∀ path buffer, s.writer = some (path, buffer) → s.needRoll turn.day ≠ none →
        buffer.length ≤ turn.rollBudget + turn.dropBudget) ∧
      ∀ row rest body, s.queue = row :: rest → serialize row = some body → Fits turn body
  | _ => True

/-- Every file has what it had at the start, and the lines that were written to it. -/
structure Intact (files : String → List UInt8) (s : Log Row) : Prop where
  held : Held s
  contents : ∀ path, s.contents path = files path ++ linesTo path s.fates

theorem Intact.rolled {files : String → List UInt8} {s : Log Row} (h : Intact files s)
    {turn : Turn} (hkept : Kept serialize s (.take turn)) (rest : List Row) :
    Intact files (s.rolled stem turn rest) := by
  have hheld : Held ({ s with queue := rest } : Log Row) := h.held
  refine ⟨hheld.roll stem turn, fun path => ?_⟩
  have hcontents : (s.rolled stem turn rest).contents path = s.contents path :=
    contents_roll stem (s := { s with queue := rest }) hkept.1 path
  have hfates : (s.rolled stem turn rest).fates = s.fates :=
    (roll_frame stem { s with queue := rest } turn).2
  rw [hcontents, hfates]
  exact h.contents path

theorem Intact.record {files : String → List UInt8} {s : Log Row} (h : Intact files s)
    {turn : Turn} {row : Row} (hfits : ∀ body, serialize row = some body → Fits turn body) :
    Intact files (s.record serialize turn row) := by
  refine ⟨h.held.record serialize turn row, fun path => ?_⟩
  unfold Log.record
  split
  · rename_i hnone
    have hlines : linesTo path (s.fates ++ [(row, .unopened)]) = linesTo path s.fates :=
      (linesTo_concat path s.fates row .unopened).trans (List.append_nil _)
    exact (h.contents path).trans (congrArg (files path ++ ·) hlines.symm)
  · rename_i target buffer hwriter
    obtain ⟨fate, part, hadds, hcase⟩ :=
      append_spec serialize turn row hwriter (h.held target buffer hwriter)
    have hpart : addTo target path part = fate.lineTo path := by
      rcases hcase with ⟨hline, -⟩ | ⟨hline, -, body, hrow, hnone⟩
      · exact (hline path).symm
      · rw [hline, hnone (hfits body hrow), addTo, ite_self]
    rw [hadds.contents, h.contents, hadds.fates, linesTo_concat, hpart, List.append_assoc]

theorem Intact.step {files : String → List UInt8} {s : Log Row} (h : Intact files s)
    {a : LogStep Row} (hkept : Kept serialize s a) : Intact files (step stem serialize s a) := by
  by_cases htake : ∃ turn, a = .take turn
  · obtain ⟨turn, rfl⟩ := htake
    simp only [JsonlWriter.step]
    rcases take_cases stem serialize s turn with hsame | ⟨row, rest, -, hqueue, htake⟩
    · rwa [hsame]
    · rw [htake]
      exact (h.rolled stem serialize hkept rest).record serialize
        fun body hbody => hkept.2 row rest body hqueue hbody
  · obtain ⟨hfiles, hwriter, -, -, hlines⟩ := step_frame stem serialize s a (not_exists.mp htake)
    refine ⟨fun path buffer hp => h.held path buffer (hwriter ▸ hp), fun path => ?_⟩
    rw [contents_eq hfiles hwriter, hlines]
    exact h.contents path

/-- The size of the file can be read, as it is opened and after a failure. -/
def Readable : LogStep Row → Prop
  | .take turn => turn.openMetadata = true ∧ turn.resyncMetadata = true
  | _ => True

/-- `current_size` is not behind the open file by more than the buffer holds. -/
structure Sized (s : Log Row) : Prop where
  held : Held s
  size : ∀ path buffer, s.writer = some (path, buffer) →
    (s.contents path).length ≤ s.currentSize + bufferCapacity

theorem Sized.roll {s : Log Row} (h : Sized s) {turn : Turn} (hmeta : turn.openMetadata = true) :
    Sized (s.roll stem turn) := by
  refine ⟨h.held.roll stem turn, fun path buffer hwriter => ?_⟩
  rcases roll_cases stem s turn with ⟨hroll, -⟩ | ⟨part, -, hroll⟩
  · rw [hroll] at hwriter ⊢
    exact h.size path buffer hwriter
  · rw [hroll] at hwriter ⊢
    rw [contents_openPart]
    rw [writer_openPart] at hwriter
    split at hwriter
    · rename_i hopens
      obtain ⟨rfl, -⟩ := Prod.mk.inj (Option.some.inj hwriter)
      simp only [Log.openPart, hopens, hmeta, if_true]
      exact Nat.le_add_right _ _
    · cases hwriter

theorem Sized.record {s : Log Row} (h : Sized s) {turn : Turn}
    (hmeta : turn.resyncMetadata = true) (row : Row) : Sized (s.record serialize turn row) := by
  refine ⟨h.held.record serialize turn row, ?_⟩
  unfold Log.record
  split
  · exact h.size
  · rename_i target buffer hwriter
    obtain ⟨fate, part, hadds, hcase⟩ :=
      append_spec serialize turn row hwriter (h.held target buffer hwriter)
    obtain ⟨buffer', hnew, -⟩ := hadds.writer
    intro path kept hpath
    obtain ⟨rfl, -⟩ := Prod.mk.inj (Option.some.inj (hnew.symm.trans hpath))
    have hbefore := h.size target buffer hwriter
    rcases hcase with ⟨-, hsize⟩ | ⟨-, hsize, -⟩
    · rw [hadds.contents, hsize, List.length_append, addTo, if_pos rfl]
      omega
    · exact hsize hmeta

theorem Sized.step {s : Log Row} (h : Sized s) {a : LogStep Row} (hread : Readable a) :
    Sized (step stem serialize s a) := by
  by_cases htake : ∃ turn, a = .take turn
  · obtain ⟨turn, rfl⟩ := htake
    simp only [JsonlWriter.step]
    rcases take_cases stem serialize s turn with hsame | ⟨row, rest, -, -, htake⟩
    · rwa [hsame]
    · have hqueue : Sized ({ s with queue := rest } : Log Row) := ⟨h.held, h.size⟩
      rw [htake]
      exact (hqueue.roll stem hread.1).record serialize hread.2 row
  · obtain ⟨hfiles, hwriter, -, hsize, -⟩ := step_frame stem serialize s a (not_exists.mp htake)
    refine ⟨fun path buffer hp => h.held path buffer (hwriter ▸ hp), fun path buffer hp => ?_⟩
    rw [contents_eq hfiles hwriter, hsize]
    exact h.size path buffer (hwriter ▸ hp)

/-! ## Main results -/

/-- **Every row is accounted for.**  What the channel took is what was given to `write`, in
order, but for as many rows as the counter says.  While the disk takes what is flushed at a roll
and long lines as a whole, each file has the lines that were written to it and nothing else.  While
sizes can be read, no row joins an open file that has `MAX_BYTES_PER_FILE` and a buffer more. -/
theorem rows_accounted (files : String → List UInt8) (schedule : List (LogStep Row)) :
    let s : Log Row := run (step stem serialize) (start files) schedule
    Accounted s (rowsOf schedule) ∧
      (Meets (step stem serialize) (Kept serialize) (start files) schedule →
        ∀ path, s.contents path = files path ++ linesTo path s.fates) ∧
      ((∀ a ∈ schedule, Readable a) →
        ∀ day path buffer, s.needRoll day = none → s.writer = some (path, buffer) →
          (s.contents path).length < maxBytesPerFile + bufferCapacity) := by
  intro s
  refine ⟨?_, fun hkept => ?_, fun hread day path buffer hroll hwriter => ?_⟩
  · have hstart : Accounted (start files : Log Row) [] := ⟨List.Sublist.refl _, rfl⟩
    exact accounted_run stem serialize hstart schedule
  · have hstart : Intact files (start files : Log Row) :=
      ⟨fun _ _ h => (Option.some_ne_none _ h.symm).elim, fun _ => rfl⟩
    exact (run_invariant_of_meets (Intact files) (fun _ _ hkept h => h.step stem serialize hkept)
      hstart schedule hkept).contents
  · have hstart : Sized (start files : Log Row) :=
      ⟨fun _ _ h => (Option.some_ne_none _ h.symm).elim,
        fun _ _ h => (Option.some_ne_none _ h.symm).elim⟩
    have hmeets : Meets (step stem serialize) (fun _ a => Readable a) (start files) schedule :=
      meets_of_forall hread _
    have hsized : Sized s := by
      refine run_invariant_of_meets Sized (fun s a ha h => ?_) hstart schedule hmeets
      exact h.step stem serialize ha
    have hsize := (needRoll_eq_none.mp hroll).2
    have hbound := hsized.size path buffer hwriter
    omega

/-! ## A file that does not open -/

/-- The row that the channel takes. -/
def admitted (s : Log Row) : LogStep Row → Option Row
  | .write row => if s.phase ≠ .stopped ∧ s.queue.length < channelCapacity then some row else none
  | _ => none

/-- The row that it refuses. -/
def refused (s : Log Row) : LogStep Row → Option Row
  | .write row => if s.phase ≠ .stopped ∧ s.queue.length < channelCapacity then none else some row
  | _ => none

theorem dropped_step (s : Log Row) (a : LogStep Row) :
    (step stem serialize s a).dropped = s.dropped + (refused s a).toList.length := by
  cases a with
  | write row =>
      simp only [step, Log.write, refused]
      split_ifs
      · rfl
      · rfl
  | boot created =>
      simp only [step, Log.boot, refused]
      split
      · split_ifs
        · rfl
        · rfl
      · rfl
  | take turn =>
      simp only [step, refused]
      rcases take_cases stem serialize s turn with hsame | ⟨row, rest, -, -, htake⟩
      · rw [hsame]
        rfl
      · rw [htake]
        exact congrArg (·.2.1) (take_frame stem serialize s turn row rest).1

/-- **The counter** counts the rows that the channel refuses. -/
theorem dropped_run (s : Log Row) (schedule : List (LogStep Row)) :
    (run (step stem serialize) s schedule).dropped =
      s.dropped + (seen (step stem serialize) refused s schedule).length := by
  induction schedule generalizing s with
  | nil => rfl
  | cons a rest ih =>
      rw [run_cons, ih, dropped_step, seen, List.length_append, Nat.add_assoc]

/-- The task has no file, and will not open one on this day. -/
structure Shut (day : String) (s : Log Row) : Prop where
  phase : s.phase = .running
  writer : s.writer = none
  day : s.currentDay = some day
  size : s.currentSize < maxBytesPerFile

def OnDay (day : String) : LogStep Row → Prop
  | .take turn => turn.day = day
  | _ => True

theorem record_of_none {s : Log Row} (h : s.writer = none) (turn : Turn) (row : Row) :
    s.record serialize turn row = { s with fates := s.fates ++ [(row, .unopened)] } := by
  unfold Log.record
  rw [h]

/-- The files are as they were, and the rows that have left the channel are lost. -/
structure Loses (s s' : Log Row) (came lost : List Row) : Prop where
  files : s'.files = s.files
  fates : s'.fates = s.fates ++ lost.map (·, .unopened)
  queue : s.queue ++ came = lost ++ s'.queue

theorem Loses.trans {s s' s'' : Log Row} {came came' lost lost' : List Row}
    (h : Loses s s' came lost) (h' : Loses s' s'' came' lost') :
    Loses s s'' (came ++ came') (lost ++ lost') where
  files := h'.files.trans h.files
  fates := by rw [h'.fates, h.fates, List.map_append, List.append_assoc]
  queue := by
    calc s.queue ++ (came ++ came')
        = lost ++ (s'.queue ++ came') := by rw [← List.append_assoc, h.queue, List.append_assoc]
      _ = lost ++ lost' ++ s''.queue := by rw [h'.queue, List.append_assoc]

/-- What happens to a log that has no file. -/
theorem Shut.step {day : String} {s : Log Row} (h : Shut day s) {a : LogStep Row}
    (hday : OnDay day a) :
    Shut day (step stem serialize s a) ∧
      ∃ lost, Loses s (step stem serialize s a) (admitted s a).toList lost := by
  have hsame (hnone : admitted s a = none) : Shut day s ∧
      ∃ lost, Loses s s (admitted s a).toList lost := by
    refine ⟨h, [], rfl, (List.append_nil _).symm, ?_⟩
    rw [hnone]
    exact List.append_nil _
  obtain ⟨hphase, hwriter, hcurrent, hsize⟩ := h
  cases a with
  | write row =>
      simp only [JsonlWriter.step, Log.write, admitted]
      split_ifs
      · exact ⟨⟨hphase, hwriter, hcurrent, hsize⟩, [], rfl, (List.append_nil _).symm, rfl⟩
      · exact ⟨⟨hphase, hwriter, hcurrent, hsize⟩, [], rfl, (List.append_nil _).symm,
          List.append_nil _⟩
  | boot created =>
      have hboot : JsonlWriter.step stem serialize s (.boot created) = s := by
        simp only [JsonlWriter.step, Log.boot, hphase]
      rw [hboot]
      exact hsame rfl
  | take turn =>
      obtain rfl : turn.day = day := hday
      simp only [JsonlWriter.step]
      rcases take_cases stem serialize s turn with hkept | ⟨row, rest, -, hqueue, htake⟩
      · rw [hkept]
        exact hsame rfl
      · have hnone : ({ s with queue := rest } : Log Row).needRoll turn.day = none :=
          needRoll_eq_none.mpr ⟨hcurrent, hsize⟩
        have hrolled : s.rolled stem turn rest = { s with queue := rest } := by
          rw [Log.rolled, Log.roll, hnone]
        rw [htake, hrolled, record_of_none serialize (s := { s with queue := rest }) hwriter]
        exact ⟨⟨hphase, hwriter, hcurrent, hsize⟩, [row], rfl, rfl,
          (List.append_nil _).trans hqueue⟩

theorem Shut.run {day : String} {s : Log Row} (h : Shut day s) {schedule : List (LogStep Row)}
    (hday : ∀ a ∈ schedule, OnDay day a) :
    ∃ lost, Loses s (run (JsonlWriter.step stem serialize) s schedule)
      (seen (JsonlWriter.step stem serialize) admitted s schedule) lost := by
  induction schedule generalizing s with
  | nil => exact ⟨[], rfl, (List.append_nil _).symm, List.append_nil _⟩
  | cons a rest ih =>
      rw [List.forall_mem_cons] at hday
      obtain ⟨hshut, first, hfirst⟩ := h.step stem serialize hday.1
      obtain ⟨later, hlater⟩ := ih hshut hday.2
      exact ⟨first ++ later, hfirst.trans hlater⟩

/-- The first row of a day whose file does not open. -/
theorem take_unopened {s : Log Row} {turn : Turn} {part : Nat} (hphase : s.phase = .running)
    (hroll : s.needRoll turn.day = some part) (hopens : turn.opens = false) {row : Row}
    {rest : List Row} (hqueue : s.queue = row :: rest) :
    let s' := s.take stem serialize turn
    s'.channel = (rest, s.dropped, .running) ∧ s'.writer = none ∧
      s'.currentDay = some turn.day ∧ s'.currentPart = part ∧ s'.currentSize = s.currentSize ∧
      s'.fates = s.fates ++ [(row, .unopened)] := by
  let closed := ({ s with queue := rest } : Log Row).close turn
  have htake : s.take stem serialize turn =
      (s.rolled stem turn rest).record serialize turn row := by
    simp only [Log.take, Log.rolled, hphase, hqueue]
  have hrolled : s.rolled stem turn rest = closed.openPart stem turn part := by
    have hneed : ({ s with queue := rest } : Log Row).needRoll turn.day = some part := hroll
    rw [Log.rolled, Log.roll, hneed]
  have hopened : closed.openPart stem turn part =
      { closed with currentDay := some turn.day, currentPart := part, writer := none } := by
    simp only [Log.openPart, hopens, Bool.false_eq_true, if_false]
  obtain ⟨hchannel, hfates, -⟩ := close_frame { s with queue := rest } turn
  intro s'
  have hs' : s' = { closed with
      currentDay := some turn.day
      currentPart := part
      writer := none
      fates := closed.fates ++ [(row, .unopened)] } := by
    rw [show s' = _ from htake, hrolled, hopened]
    exact record_of_none serialize rfl turn row
  rw [hs']
  refine ⟨hchannel.trans (congrArg (rest, s.dropped, ·) hphase), rfl, rfl, rfl, ?_, ?_⟩
  · exact currentSize_close { s with queue := rest } turn
  · exact congrArg (· ++ [(row, .unopened)]) hfates

/-- **A failed open loses the day.**  Where the file of a day does not open, every row that is
taken on that day is lost, whatever the disk does by then, and no file gets a byte.  The counter
says nothing of them: it counts what the channel refuses, and the lost rows are what it took.  It
is tried again, as the next part, only where the last file that was open is full. -/
theorem failed_open_loses_the_day (s : Log Row) (turn : Turn) (part : Nat)
    (hphase : s.phase = .running) (hqueue : s.queue ≠ [])
    (hroll : s.needRoll turn.day = some part) (hopens : turn.opens = false)
    (schedule : List (LogStep Row)) (hday : ∀ a ∈ schedule, OnDay turn.day a) :
    let s' : Log Row := s.take stem serialize turn
    let final := run (step stem serialize) s' schedule
    (s.currentSize < maxBytesPerFile →
      final.files = s'.files ∧
        final.dropped = s.dropped + (seen (step stem serialize) refused s' schedule).length ∧
        ∃ lost : List Row, lost ≠ [] ∧ final.fates = s.fates ++ lost.map (·, .unopened) ∧
          s.queue ++ seen (step stem serialize) admitted s' schedule = lost ++ final.queue) ∧
      (maxBytesPerFile ≤ s.currentSize → s'.needRoll turn.day = some (part + 1)) := by
  obtain ⟨row, rest, hrow⟩ := List.exists_cons_of_ne_nil hqueue
  obtain ⟨hchannel, hwriter, hcurrent, hpart, hsize, hfates⟩ :=
    take_unopened stem serialize hphase hroll hopens hrow
  obtain ⟨hrest, hdropped, hrunning⟩ : _ ∧ _ ∧ _ :=
    ⟨congrArg (·.1) hchannel, congrArg (·.2.1) hchannel, congrArg (·.2.2) hchannel⟩
  refine ⟨fun hroom => ?_, fun hfull => ?_⟩
  · have hshut : Shut turn.day (s.take stem serialize turn) :=
      ⟨hrunning, hwriter, hcurrent, by rwa [hsize]⟩
    obtain ⟨lost, hlost⟩ := hshut.run stem serialize hday
    refine ⟨hlost.files, ?_, row :: lost, List.cons_ne_nil _ _, ?_, ?_⟩
    · rw [dropped_run]
      exact congrArg (· + _) hdropped
    · rw [hlost.fates, hfates, List.append_assoc]
      rfl
    · rw [hrow, List.cons_append, List.cons_append, ← hlost.queue]
      exact congrArg (row :: · ++ _) hrest.symm
  · simp only [Log.needRoll, hcurrent, hpart, hsize, ne_eq, not_true_eq_false, if_false, ge_iff_le,
      hfull, if_true]

end Rows

/-- Two rows of a day whose file opened too late. -/
theorem first_open_fails :
    let s : Log Unit := { start (fun _ => []) with phase := .running, queue := [()] }
    let turn : Turn := ⟨"2026-05-06", false, true, true, 0, 0, 0, 0⟩
    let later : Turn := ⟨"2026-05-06", true, true, true, 0, 0, 9000, 9000⟩
    let s' : Log Unit :=
      run (step "wire_timing" fun _ => some []) (s.take "wire_timing" (fun _ => some []) turn)
        [.write (), .take later]
    s'.files = (fun _ => []) ∧ s'.dropped = 0 ∧ s'.fates = [((), .unopened), ((), .unopened)] := by
  intro s turn later s'
  obtain ⟨hfiles, hdropped, lost, -, hfates, hqueue⟩ :=
    (failed_open_loses_the_day "wire_timing" (fun _ => some []) s turn 0 rfl (by decide) rfl rfl
      [.write (), .take later] (by simp [OnDay, later, turn])).1 (by decide)
  refine ⟨hfiles, hdropped, ?_⟩
  have hempty : s'.queue = [] := by decide +kernel
  rw [hempty, List.append_nil] at hqueue
  rw [hfates, ← hqueue]
  rfl

end Corsair.Ports.JsonlWriter
