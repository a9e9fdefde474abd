import Corsair.Ports.NativeFrames
import Corsair.Ports.Protocol
import Corsair.Verified.LengthPrefixed

/-!
# Streams of frames

A reader appends what arrives to a buffer that it keeps, and takes the whole frames off it:
the trader with `unpack_all_frames`, the gateway's client with `try_decode_all`.

`unpack_all_frames` walks a cursor over the buffer and drops what it walked over in the end.
Where a length is refused behind whole frames it returns the error before that: the frames
are not returned and stay in the buffer, with the length that is refused behind them.  The
loop over `try_unpack_frame` has them off the buffer by then.

## Main results

* `unpackAllFrames_eq` — the cursor walk drains the buffer, unless a length is refused.
* `unpack_all_frames_agrees_iff` — when the walk and the loop agree.
* `chunking_invariant` — both readers, for a stream in any pieces.
-/

namespace Corsair.Ports.FrameStreams

open Corsair.Verified
open Corsair.Verified.LengthPrefixed (Framing Front Drained front drain feed)
open Corsair.Ports.Protocol

theorem lengthPrefix_pos : 0 < 4 := Nat.zero_lt_succ 3

/-- Four bytes of length, at most `MAX_FRAME_BYTES`. -/
def framing : Framing where
  width := 4
  limit := maxFrameBytes
  width_pos := lengthPrefix_pos
  fits := by decide

theorem frames_eq (bodies : List (List UInt8)) :
    frames bodies = LengthPrefixed.frames framing bodies := by
  rw [frames, LengthPrefixed.frames, List.flatMap_def]
  rfl

/-! ## One frame -/

/-- What `try_unpack_frame` makes of the front of the buffer. -/
theorem tryUnpackFrame_eq (buf : List UInt8) :
    tryUnpackFrame buf =
      match front framing buf with
      | .short => (.ok none, buf)
      | .oversize size => (.error (oversize size), buf)
      | .whole body rest => (.ok (some body), rest) :=
  LengthPrefixed.answer_front (f := framing)
    (β := Except IoError (Option (List UInt8)) × List UInt8)
    (.ok none, buf) (fun size => (.error (oversize size), buf))
    (fun body rest => (.ok (some body), rest)) buf

/-! ## The cursor walk -/

/-- One turn of the walk, with the cursor behind `pre`. -/
theorem unpackWalk_step (pre buf : List UInt8) (out : List (List UInt8)) :
    unpackWalk (pre ++ buf) pre.length out =
      match front framing buf with
      | .short => .ok (out, pre.length)
      | .oversize size => .error (oversize size)
      | .whole body _ =>
          unpackWalk (pre ++ buf) (pre.length + 4 + body.length) (out ++ [body]) := by
  have hlength : (pre ++ buf).length = pre.length + buf.length := List.length_append
  have hdrop : (pre ++ buf).drop pre.length = buf := List.drop_left
  have hbody : (pre ++ buf).drop (pre.length + 4) = buf.drop 4 := by
    rw [← List.drop_drop, hdrop]
  rw [unpackWalk, hdrop]
  split
  · rename_i hprefix
    rw [hlength] at hprefix ⊢
    unfold front
    rw [if_neg (show ¬ buf.length < framing.width by show ¬ buf.length < 4; omega)]
    simp only [show framing.width = 4 from rfl, show framing.limit = maxFrameBytes from rfl]
    split
    · rfl
    · by_cases hmore : buf.length < 4 + BigEndian.ofBytes (buf.take 4)
      · rw [if_pos (by omega), if_pos hmore]
      · rw [if_neg (by omega), if_neg hmore, hbody]
        have hsize : ((buf.drop 4).take (BigEndian.ofBytes (buf.take 4))).length =
            BigEndian.ofBytes (buf.take 4) := by
          rw [List.length_take, List.length_drop]
          omega
        simp only [hsize]
  · rename_i hprefix
    have hshort : buf.length < framing.width := by
      show buf.length < 4
      omega
    unfold front
    rw [if_pos hshort]

/-- The walk from the cursor behind `pre` to its end. -/
theorem unpackWalk_eq (pre buf : List UInt8) (out : List (List UInt8)) :
    unpackWalk (pre ++ buf) pre.length out =
      match drain framing buf with
      | ⟨bodies, rest, none⟩ => .ok (out ++ bodies, pre.length + buf.length - rest.length)
      | ⟨_, _, some size⟩ => .error (oversize size) := by
  induction buf using Corsair.Verified.LengthPrefixed.drain.induct framing generalizing pre out with
  | case1 buf hfront =>
      rw [unpackWalk_step, hfront, LengthPrefixed.drain_short hfront]
      simp
  | case2 buf size hfront =>
      rw [unpackWalk_step, hfront, LengthPrefixed.drain_oversize hfront]
  | case3 buf body rest hfront ih =>
      obtain ⟨-, hbuf⟩ := LengthPrefixed.front_eq_whole.mp hfront
      have hlength : buf.length = 4 + body.length + rest.length := by
        rw [hbuf, List.length_append, LengthPrefixed.length_frame]
        rfl
      have hsplit : pre ++ buf = pre ++ LengthPrefixed.frame framing body ++ rest := by
        rw [List.append_assoc, ← hbuf]
      have hcursor : pre.length + 4 + body.length =
          (pre ++ LengthPrefixed.frame framing body).length := by
        rw [List.length_append, LengthPrefixed.length_frame, ← Nat.add_assoc]
        rfl
      rw [unpackWalk_step, hfront, LengthPrefixed.drain_whole hfront]
      simp only
      rw [hsplit, hcursor, ih, ← hcursor, hlength]
      cases drain framing rest with
      | mk bodies left refused =>
          cases refused with
          | some size => rfl
          | none => simp [Drained.behind, Nat.add_assoc]

/-- **All frames in the buffer.** They are taken off where none behind them is refused; else
the buffer stays as it was. -/
theorem unpackAllFrames_eq (buf : List UInt8) :
    unpackAllFrames buf =
      match drain framing buf with
      | ⟨bodies, rest, none⟩ => (.ok bodies, rest)
      | ⟨_, _, some size⟩ => (.error (oversize size), buf) := by
  have hwalk := unpackWalk_eq [] buf []
  obtain ⟨hsplit, -, -⟩ := LengthPrefixed.drain_spec (f := framing) buf
  rw [List.nil_append, List.length_nil, Nat.zero_add] at hwalk
  rw [unpackAllFrames, hwalk]
  cases hdrain : drain framing buf with
  | mk bodies rest refused =>
      rw [hdrain] at hsplit
      simp only at hsplit
      have hlength : buf.length = (LengthPrefixed.frames framing bodies).length + rest.length := by
        rw [← List.length_append, ← hsplit]
      have hcursor : buf.length - rest.length = (LengthPrefixed.frames framing bodies).length := by
        omega
      have hrest : buf.drop (LengthPrefixed.frames framing bodies).length = rest := by
        rw [hsplit, List.drop_left]
      cases refused with
      | some size => rfl
      | none =>
          simp only [hcursor, hrest]
          split
          · rfl
          · rename_i hzero
            rw [Nat.eq_zero_of_not_pos hzero, List.drop_zero] at hrest
            rw [hrest, List.nil_append]

/-! ## One by one -/

/-- A frame that was unpacked shortens the buffer. -/
theorem length_lt_of_unpacked {buf body rest : List UInt8}
    (h : tryUnpackFrame buf = (.ok (some body), rest)) : rest.length < buf.length := by
  rw [tryUnpackFrame_eq] at h
  split at h
  · cases h
  · cases h
  · rename_i hwhole
    obtain rfl := (Prod.mk.inj h).2
    exact LengthPrefixed.length_rest_lt hwhole

/-- What a caller has in the end: the frames that were delivered, the error, and the buffer. -/
structure Unpacked where
  delivered : List (List UInt8)
  error : Option IoError
  buf : List UInt8
  deriving DecidableEq, Repr

/-- What a caller of `unpack_all_frames` has. -/
def allAtOnce (buf : List UInt8) : Unpacked :=
  match unpackAllFrames buf with
  | (.ok bodies, rest) => ⟨bodies, none, rest⟩
  | (.error e, rest) => ⟨[], some e, rest⟩

/-- What a caller has that calls `try_unpack_frame` until there is no frame or an error. -/
def oneByOne (buf : List UInt8) : Unpacked :=
  match _h : tryUnpackFrame buf with
  | (.ok none, rest) => ⟨[], none, rest⟩
  | (.error e, rest) => ⟨[], some e, rest⟩
  | (.ok (some body), rest) =>
      let later := oneByOne rest
      { later with delivered := body :: later.delivered }
termination_by buf.length
decreasing_by exact length_lt_of_unpacked ‹_›

theorem allAtOnce_eq (buf : List UInt8) :
    allAtOnce buf =
      match drain framing buf with
      | ⟨bodies, rest, none⟩ => ⟨bodies, none, rest⟩
      | ⟨_, _, some size⟩ => ⟨[], some (oversize size), buf⟩ := by
  rw [allAtOnce, unpackAllFrames_eq]
  cases drain framing buf with
  | mk bodies rest refused => cases refused <;> rfl

theorem oneByOne_eq (buf : List UInt8) :
    oneByOne buf =
      match drain framing buf with
      | ⟨bodies, rest, refused⟩ => ⟨bodies, refused.map oversize, rest⟩ := by
  induction buf using Corsair.Verified.LengthPrefixed.drain.induct framing with
  | case1 buf hfront =>
      have hunpack := tryUnpackFrame_eq buf
      rw [hfront] at hunpack
      rw [oneByOne, LengthPrefixed.drain_short hfront]
      split <;> rename_i h <;> cases h.symm.trans hunpack
      rfl
  | case2 buf size hfront =>
      have hunpack := tryUnpackFrame_eq buf
      rw [hfront] at hunpack
      rw [oneByOne, LengthPrefixed.drain_oversize hfront]
      split <;> rename_i h <;> cases h.symm.trans hunpack
      rfl
  | case3 buf body rest hfront ih =>
      have hunpack := tryUnpackFrame_eq buf
      rw [hfront] at hunpack
      rw [oneByOne, LengthPrefixed.drain_whole hfront]
      split <;> rename_i h <;> cases h.symm.trans hunpack
      rw [ih]
      rfl

/-- Whole frames stand before a length that is refused. -/
def FramesBeforeOversize (buf : List UInt8) : Prop :=
  ∃ bodies size rest, bodies ≠ [] ∧ (∀ body ∈ bodies, body.length ≤ maxFrameBytes) ∧
    maxFrameBytes < size ∧ size < 256 ^ 4 ∧
    buf = frames bodies ++ (BigEndian.toBytes 4 size ++ rest)

theorem drain_framesBeforeOversize {bodies : List (List UInt8)} {size : Nat} {rest : List UInt8}
    (hbodies : ∀ body ∈ bodies, body.length ≤ maxFrameBytes) (hlarge : maxFrameBytes < size)
    (hfits : size < 256 ^ 4) :
    drain framing (frames bodies ++ (BigEndian.toBytes 4 size ++ rest)) =
      ⟨bodies, BigEndian.toBytes 4 size ++ rest, some size⟩ := by
  rw [frames_eq]
  exact LengthPrefixed.drain_frames_oversize (f := framing) hbodies hlarge hfits rest

/-- **The walk and the loop agree** on the frames, the error and the buffer that is left, just
if no whole frame stands before a length that is refused. -/
theorem unpack_all_frames_agrees_iff (buf : List UInt8) :
    allAtOnce buf = oneByOne buf ↔ ¬ FramesBeforeOversize buf := by
  rw [allAtOnce_eq, oneByOne_eq]
  constructor
  · rintro h ⟨bodies, size, rest, hne, hbodies, hlarge, hfits, rfl⟩
    rw [drain_framesBeforeOversize hbodies hlarge hfits] at h
    exact hne (Unpacked.mk.inj h).1.symm
  · intro hnone
    obtain ⟨hsplit, hbodies, hfront⟩ := LengthPrefixed.drain_spec (f := framing) buf
    cases hdrain : drain framing buf with
    | mk bodies rest refused =>
        rw [hdrain] at hsplit hbodies hfront
        cases refused with
        | none => rfl
        | some size =>
            obtain ⟨hlarge, hfits, more, hrest⟩ := LengthPrefixed.front_eq_oversize.mp hfront
            simp only at hrest hsplit
            cases bodies with
            | nil =>
                rw [LengthPrefixed.frames_nil, List.nil_append] at hsplit
                rw [hsplit]
                rfl
            | cons body bodies =>
                refine absurd
                  ⟨body :: bodies, size, more, by simp, hbodies, hlarge, hfits, ?_⟩ hnone
                rw [frames_eq, hsplit, hrest]
                rfl

/-- One frame of one byte, and a length of four bytes of 255 behind it: the loop delivers the
frame, the walk does not. -/
theorem unpack_all_frames_keeps_frame : ¬ ∀ buf, allAtOnce buf = oneByOne buf := by
  intro hall
  have h := hall (frames [[7]] ++ (BigEndian.toBytes 4 4294967295 ++ []))
  rw [allAtOnce_eq, oneByOne_eq,
    drain_framesBeforeOversize (by decide) (by decide) (by decide)] at h
  exact absurd (Unpacked.mk.inj h).1 (by decide)

/-! ## In any pieces -/

/-- **Where a stream is cut makes no difference** to either reader. -/
theorem chunking_invariant {F : Type} [F64 F] (fm : OrderCodec.Formatters F) :
    (∀ (bodies chunks : List (List UInt8)), (∀ body ∈ bodies, body.length ≤ maxFrameBytes) →
      chunks.flatten = frames bodies →
      ∃ calls : List (List (List UInt8)),
        feed unpackAllFrames [] chunks = (calls.map .ok, []) ∧ calls.flatten = bodies) ∧
    ∀ (payloads chunks : List (List UInt8)),
      (∀ payload ∈ payloads, payload.length ≤ OrderCodec.maxMessageBytes) →
      chunks.flatten = LengthPrefixed.frames NativeFrames.framing payloads →
      ∃ calls : List (List (List String)),
        feed (NativeFrames.tryDecodeAll fm) [] chunks = (calls.map .ok, []) ∧
          calls.flatten = payloads.map (NativeFrames.fieldsOf fm) := by
  constructor
  · intro bodies chunks hbodies hchunks
    have hwalk (buf : List UInt8) (bodies : List (List UInt8)) (rest : List UInt8)
        (h : drain framing buf = ⟨bodies, rest, none⟩) :
        unpackAllFrames buf = (.ok (bodies.map id), rest) := by
      rw [unpackAllFrames_eq, h, List.map_id]
    rw [frames_eq] at hchunks
    obtain ⟨calls, hcalls, hflatten⟩ := LengthPrefixed.feed_frames hwalk hbodies hchunks
    exact ⟨calls, hcalls, by rw [hflatten, List.map_id]⟩
  · intro payloads chunks hpayloads hchunks
    have hdecode (buf : List UInt8) (payloads : List (List UInt8)) (rest : List UInt8)
        (h : drain NativeFrames.framing buf = ⟨payloads, rest, none⟩) :
        NativeFrames.tryDecodeAll fm buf =
          (.ok (payloads.map (NativeFrames.fieldsOf fm)), rest) := by
      rw [NativeFrames.tryDecodeAll_eq, h]
    exact LengthPrefixed.feed_frames hdecode hpayloads hchunks

end Corsair.Ports.FrameStreams
