import Mathlib.Data.List.Basic
import Corsair.Verified.BigEndian

/-!
# `corsair_ipc::protocol`: length-prefixed frames

A frame is a four-byte big-endian length followed by that many bytes of
body.  `packFrame` writes one, `tryUnpackFrame` reads one off the front of a
buffer, and `unpackAllFrames` walks a cursor over every complete frame and
drops what it consumed in one go.

Both readers take the buffer by `&mut`, so each returns its result together
with the buffer it leaves behind; an oversize length is an error that leaves
the buffer as it was.

## Main results

* `unpackWalk_frames` — from a frame boundary, the cursor walk consumes
  exactly the whole frames in front of it.
* `unpackAllFrames_flatten` — a buffer that is a concatenation of whole
  frames unpacks to their bodies, in order, and is left empty.
-/

namespace Corsair.Ports.Protocol

open Corsair.Verified

/-- `MAX_FRAME_BYTES`. -/
def maxFrameBytes : Nat := 4 * 1024 * 1024

/-- `io::ErrorKind`, as far as this crate constructs it. -/
inductive ErrorKind
  | invalidData
  deriving DecidableEq, Repr

/-- `io::Error::new(kind, message)`. -/
structure IoError where
  kind : ErrorKind
  message : String
  deriving DecidableEq, Repr

/-- The error of a length prefix above `MAX_FRAME_BYTES`. -/
def oversize (size : Nat) : IoError :=
  { kind := .invalidData
    message := s!"oversize frame: {size} > {maxFrameBytes}" }

/-- `pack_frame`: the cast `body.len() as u32` is the truncation of the
four-byte numeral. -/
def packFrame (body : List UInt8) : List UInt8 :=
  BigEndian.toBytes 4 body.length ++ body

/-- `try_unpack_frame`. -/
def tryUnpackFrame (buf : List UInt8) :
    Except IoError (Option (List UInt8)) × List UInt8 :=
  if buf.length < 4 then (.ok none, buf)
  else
    let size := BigEndian.ofBytes (buf.take 4)
    if size > maxFrameBytes then (.error (oversize size), buf)
    else if buf.length < 4 + size then (.ok none, buf)
    else (.ok (some ((buf.drop 4).take size)), buf.drop (4 + size))

/-- The cursor loop of `unpack_all_frames`: the bodies pushed to `out` and the
cursor where the loop stopped. -/
def unpackWalk (buf : List UInt8) (cursor : Nat) (out : List (List UInt8)) :
    Except IoError (List (List UInt8) × Nat) :=
  if cursor + 4 ≤ buf.length then
    let size := BigEndian.ofBytes ((buf.drop cursor).take 4)
    if size > maxFrameBytes then .error (oversize size)
    else if cursor + 4 + size > buf.length then .ok (out, cursor)
    else
      unpackWalk buf (cursor + 4 + size)
        (out ++ [(buf.drop (cursor + 4)).take size])
  else .ok (out, cursor)
termination_by buf.length - cursor

/-- `unpack_all_frames`. -/
def unpackAllFrames (buf : List UInt8) :
    Except IoError (List (List UInt8)) × List UInt8 :=
  match unpackWalk buf 0 [] with
  | .error e => (.error e, buf)
  | .ok (out, cursor) => (.ok out, if cursor > 0 then buf.drop cursor else buf)

/-! ## Whole frames -/

/-- The wire image of a list of bodies. -/
def frames (bodies : List (List UInt8)) : List UInt8 :=
  (bodies.map packFrame).flatten

@[simp] theorem packFrame_length (body : List UInt8) :
    (packFrame body).length = 4 + body.length := by
  simp [packFrame]

@[simp] theorem frames_nil : frames [] = [] := rfl

@[simp] theorem frames_cons (body : List UInt8) (bodies : List (List UInt8)) :
    frames (body :: bodies) = packFrame body ++ frames bodies := by
  simp [frames]

/-- The prefix of a frame whose body fits in `MAX_FRAME_BYTES` reads as the
body's length: the `u32` cast loses nothing. -/
theorem ofBytes_packFrame_take (body : List UInt8) (rest : List UInt8)
    (hbody : body.length ≤ maxFrameBytes) :
    BigEndian.ofBytes ((packFrame body ++ rest).take 4) = body.length := by
  have hfits : body.length < 256 ^ 4 := by
    have : maxFrameBytes < 256 ^ 4 := by decide
    omega
  rw [packFrame, List.append_assoc, List.take_left' (BigEndian.toBytes_length 4 _)]
  exact BigEndian.ofBytes_toBytes_of_lt hfits

/-- From a frame boundary the walk consumes exactly the whole frames in front
of it. -/
theorem unpackWalk_frames (bodies : List (List UInt8))
    (hsize : ∀ b ∈ bodies, b.length ≤ maxFrameBytes) :
    ∀ (pre : List UInt8) (out : List (List UInt8)),
      unpackWalk (pre ++ frames bodies) pre.length out =
        .ok (out ++ bodies, (pre ++ frames bodies).length) := by
  induction bodies with
  | nil =>
      intro pre out
      rw [unpackWalk, if_neg (by simp)]
      simp
  | cons body bodies ih =>
      intro pre out
      have hbody : body.length ≤ maxFrameBytes := hsize body (by simp)
      have htail : ∀ b ∈ bodies, b.length ≤ maxFrameBytes := by
        intro b hb
        exact hsize b (by simp [hb])
      have hlen : (pre ++ frames (body :: bodies)).length =
          pre.length + (4 + body.length) + (frames bodies).length := by
        simp only [frames_cons, List.length_append, packFrame_length]
        omega
      have hprefix : BigEndian.ofBytes
          (((pre ++ frames (body :: bodies)).drop pre.length).take 4) = body.length := by
        rw [List.drop_left, frames_cons, ofBytes_packFrame_take body _ hbody]
      have hbodyBytes : ((pre ++ frames (body :: bodies)).drop (pre.length + 4)).take
          body.length = body := by
        rw [← List.drop_drop, List.drop_left, frames_cons, packFrame, List.append_assoc,
          List.drop_left' (BigEndian.toBytes_length 4 _), List.take_left]
      have hnext := ih htail (pre ++ packFrame body) (out ++ [body])
      have hsplit : pre ++ packFrame body ++ frames bodies =
          pre ++ frames (body :: bodies) := by
        rw [frames_cons, List.append_assoc]
      have hcursor : (pre ++ packFrame body).length = pre.length + 4 + body.length := by
        simp only [List.length_append, packFrame_length]
        omega
      rw [hsplit, hcursor, List.append_assoc, List.singleton_append] at hnext
      rw [unpackWalk, if_pos (by omega), hprefix]
      simp only [hbodyBytes]
      rw [if_neg (by omega), if_neg (by omega), hnext]

/-- A buffer of whole frames unpacks to their bodies and is left empty. -/
theorem unpackAllFrames_flatten (bodies : List (List UInt8))
    (hsize : ∀ b ∈ bodies, b.length ≤ maxFrameBytes) :
    unpackAllFrames (frames bodies) = (.ok bodies, []) := by
  have hwalk := unpackWalk_frames bodies hsize [] []
  simp only [List.nil_append, List.length_nil] at hwalk
  rw [unpackAllFrames, hwalk]
  cases hframes : frames bodies with
  | nil => rfl
  | cons b bs => simp

end Corsair.Ports.Protocol
