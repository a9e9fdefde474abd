import Corsair.Ports.OrderCodec
import Corsair.Verified.LengthPrefixed

/-!
# `corsair_broker_ibkr_native::codec`: frames on the socket

`try_decode_frame` reads one frame off the front of the receive buffer, and `try_decode_all`
one after the other until none is left.  A length above the limit ends `try_decode_all` with
an error: the frames that it has read by then are off the buffer, and are not returned.

## Main results

* `tryDecodeAll_eq` — the decoder drains the buffer, and returns what it drained only where
  nothing was refused.
* `codec_round_trip` — a frame is read back whatever follows it, and no strict prefix of it
  is read.
-/

namespace Corsair.Ports.NativeFrames

open Corsair.Verified
open Corsair.Verified.LengthPrefixed
open Corsair.Verified.MsgPack (utf8)
open Corsair.Ports.OrderCodec

variable {F : Type} [F64 F] (fm : Formatters F)

/-- Four bytes of length, at most `MAX_MESSAGE_BYTES`. -/
def framing : Framing where
  width := 4
  limit := maxMessageBytes
  width_pos := by decide
  fits := by decide

/-- The error of a length above `MAX_MESSAGE_BYTES`. -/
def oversize (size : Nat) : NativeError :=
  .protocol s!"oversize message: {size} > {maxMessageBytes}"

/-- The fields of a payload. -/
def fieldsOf (payload : List UInt8) : List String :=
  popEmpty ((payload.splitOn 0).map (fromUtf8Lossy fm))

/-- What `try_decode_frame` makes of the front of the buffer. -/
theorem tryDecodeFrame_eq (buf : List UInt8) :
    tryDecodeFrame fm buf =
      match front framing buf with
      | .short => (.ok none, buf)
      | .oversize size => (.error (oversize size), buf)
      | .whole payload rest => (.ok (some (fieldsOf fm payload)), rest) :=
  answer_front (f := framing) (β := Except NativeError (Option (List String)) × List UInt8)
    (.ok none, buf) (fun size => (.error (oversize size), buf))
    (fun payload rest => (.ok (some (fieldsOf fm payload)), rest)) buf

/-- A frame that was read shortens the buffer. -/
theorem length_lt_of_decoded {buf rest : List UInt8} {fields : List String}
    (h : tryDecodeFrame fm buf = (.ok (some fields), rest)) : rest.length < buf.length := by
  rw [tryDecodeFrame_eq] at h
  split at h
  · cases h
  · cases h
  · rename_i hwhole
    obtain rfl := (Prod.mk.inj h).2
    exact length_rest_lt hwhole

/-- The loop of `try_decode_all`, with the frames in `out`. -/
def decodeLoop (out : List (List String)) (buf : List UInt8) :
    Except NativeError (List (List String)) × List UInt8 :=
  match _h : tryDecodeFrame fm buf with
  | (.error e, rest) => (.error e, rest)
  | (.ok none, rest) => (.ok out, rest)
  | (.ok (some fields), rest) => decodeLoop (out ++ [fields]) rest
termination_by buf.length
decreasing_by exact length_lt_of_decoded fm ‹_›

/-- `try_decode_all`, with the buffer it leaves. -/
def tryDecodeAll (buf : List UInt8) : Except NativeError (List (List String)) × List UInt8 :=
  decodeLoop fm [] buf

/-- What the loop makes of the drained buffer. -/
theorem decodeLoop_eq (out : List (List String)) (buf : List UInt8) :
    decodeLoop fm out buf =
      match drain framing buf with
      | ⟨payloads, rest, none⟩ => (.ok (out ++ payloads.map (fieldsOf fm)), rest)
      | ⟨_, rest, some size⟩ => (.error (oversize size), rest) := by
  induction buf using drain.induct framing generalizing out with
  | case1 buf hfront =>
      have hdecode := tryDecodeFrame_eq fm buf
      rw [hfront] at hdecode
      rw [decodeLoop, drain_short hfront]
      split <;> rename_i h <;> cases h.symm.trans hdecode
      simp
  | case2 buf size hfront =>
      have hdecode := tryDecodeFrame_eq fm buf
      rw [hfront] at hdecode
      rw [decodeLoop, drain_oversize hfront]
      split <;> rename_i h <;> cases h.symm.trans hdecode
      rfl
  | case3 buf payload rest hfront ih =>
      have hdecode := tryDecodeFrame_eq fm buf
      rw [hfront] at hdecode
      rw [decodeLoop, drain_whole hfront]
      split <;> rename_i h <;> cases h.symm.trans hdecode
      rw [ih]
      cases drain framing rest with
      | mk payloads rest refused => cases refused <;> simp [Drained.behind]

/-- **All frames in the buffer.** They are returned where none behind them was refused. -/
theorem tryDecodeAll_eq (buf : List UInt8) :
    tryDecodeAll fm buf =
      match drain framing buf with
      | ⟨payloads, rest, none⟩ => (.ok (payloads.map (fieldsOf fm)), rest)
      | ⟨_, rest, some size⟩ => (.error (oversize size), rest) := by
  rw [tryDecodeAll, decodeLoop_eq]
  rfl

/-! ## A frame of fields -/

/-- **Round trip.** A frame of fields without NUL bytes is read back, whatever follows it,
and what follows it stays in the buffer; a strict prefix of it is not read. -/
theorem codec_round_trip {fields : List String} (hnul : ∀ field ∈ fields, (0 : UInt8) ∉ utf8 field)
    (hfits : (pushFields fields).length ≤ maxMessageBytes) :
    (∀ rest, tryDecodeFrame fm (encodeFields fields ++ rest) = (.ok (some fields), rest)) ∧
      ∀ part, part <+: encodeFields fields → part ≠ encodeFields fields →
        tryDecodeFrame fm part = (.ok none, part) := by
  have hframe : encodeFields fields = frame framing (pushFields fields) := rfl
  have hfields : fieldsOf fm (pushFields fields) = fields := fields_pushFields fm hnul
  constructor
  · intro rest
    rw [tryDecodeFrame_eq, hframe, front_frame hfits]
    simp only [hfields]
  · intro part hpart hne
    rw [tryDecodeFrame_eq, front_short_of_prefix hfits hpart hne]

/-- No fields, and fields that are empty, the last one too. -/
theorem codec_round_trip_empty_fields :
    tryDecodeFrame decimalFormatters (encodeFields [] ++ [1]) = (.ok (some []), [1]) ∧
      tryDecodeFrame decimalFormatters (encodeFields ["", "9", "", ""] ++ [1]) =
        (.ok (some ["", "9", "", ""]), [1]) ∧
      tryDecodeFrame decimalFormatters [0, 0, 0] = (.ok none, [0, 0, 0]) :=
  ⟨(codec_round_trip decimalFormatters (by decide +kernel) (by decide +kernel)).1 [1],
   (codec_round_trip decimalFormatters (by decide +kernel) (by decide +kernel)).1 [1],
   (@codec_round_trip ℚ _ decimalFormatters [] (by decide +kernel) (by decide +kernel)).2
    [0, 0, 0] (by decide +kernel) (by decide +kernel)⟩

end Corsair.Ports.NativeFrames
