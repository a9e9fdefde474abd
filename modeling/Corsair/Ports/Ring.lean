import Corsair.Verified.Circular
import Corsair.Ports.Protocol

/-!
# `corsair_ipc::ring`: the mapped ring, one call at a time

`Ring` is what the mapping holds past its page alignment: the two header
offsets and the data area, whose length is the capacity.  `framesDropped` is
the handle's own counter.  Every operation here is one uninterrupted call; the
interleaved steps of a producer and a consumer are in
`Corsair.Ports.RingInterleaving`, over the same pieces.

A call that would panic — an unsigned subtraction below zero, a remainder by
a zero capacity, a slice out of range — is `none`.  `notify` writes a byte to
a FIFO that no ring operation reads, so it has no image here.

## Main results

* `writeFrame_spec` — over valid offsets `write_frame` never panics; it
  either counts a drop and changes nothing else, or stores the frame at the
  write offset and advances it by the frame's length.
* `readAvailable_eq_readAvailableInto` — the two consumer calls are one.
* `write_body_eq_write_frame_pack_frame` — the one-pass `write_body` is
  `write_frame` of the packed body, in every wrap position.
-/

/-- The shared header and data area, and the drop counter of the handle. -/
structure Corsair.Ports.Ring where
  data : List UInt8
  write : Nat
  read : Nat
  framesDropped : Nat
  deriving DecidableEq, Repr

namespace Corsair.Ports.Ring

open Corsair.Verified
open Corsair.Verified.Circular
open Corsair.Ports.Protocol

/-- The capacity is the length of the data area. -/
def capacity (r : Ring) : Nat := r.data.length

/-- The offsets a ring can be in between two calls. -/
def Valid (r : Ring) : Prop :=
  r.read ≤ r.write ∧ r.write ≤ r.read + r.capacity

instance (r : Ring) : Decidable r.Valid := by
  unfold Valid
  infer_instance

/-- `create_owner`: the truncated file reads as zeroes and the header is
stored as zero. -/
def createOwner (capacity : Nat) : Ring :=
  { data := List.replicate capacity 0, write := 0, read := 0, framesDropped := 0 }

/-- `self.capacity as u64 - (w - r)`, both subtractions checked. -/
def freeSpace (capacity w r : Nat) : Option Nat :=
  if r ≤ w ∧ w - r ≤ capacity then some (capacity - (w - r)) else none

/-- `(offset as usize) % self.capacity`. -/
def position (capacity offset : Nat) : Option Nat :=
  if capacity = 0 then none else some (offset % capacity)

/-- A refused frame only bumps the handle's counter. -/
def dropFrame (r : Ring) : Ring :=
  { r with framesDropped := r.framesDropped + 1 }

/-- `write_frame`. -/
def writeFrame (r : Ring) (frame : List UInt8) : Option (Bool × Ring) :=
  let n := frame.length
  if n > r.capacity / 2 then some (false, r.dropFrame)
  else
    let w := r.write
    (freeSpace r.capacity w r.read).bind fun free =>
      if free < n then some (false, r.dropFrame)
      else
        (position r.capacity w).bind fun pos =>
          (wrapWrite r.data pos frame).map fun data =>
            (true, { r with data := data, write := w + n })

/-- `write_body`: prefix and body are stored one after the other, each with
its own wrap. -/
def writeBody (r : Ring) (body : List UInt8) : Option (Bool × Ring) :=
  let n := body.length
  let frameLen := 4 + n
  if frameLen > r.capacity / 2 then some (false, r.dropFrame)
  else
    let w := r.write
    (freeSpace r.capacity w r.read).bind fun free =>
      if free < frameLen then some (false, r.dropFrame)
      else
        let lenPrefix := BigEndian.toBytes 4 n
        (position r.capacity w).bind fun pos =>
          (wrapWrite r.data pos lenPrefix).bind fun data =>
            (position r.capacity (pos + 4)).bind fun bodyPos =>
              (wrapWrite data bodyPos body).map fun data =>
                (true, { r with data := data, write := w + frameLen })

/-- `read_available_into`: the number of bytes appended, the caller's buffer
and the ring. -/
def readAvailableInto (r : Ring) (buf : List UInt8) :
    Option (Nat × List UInt8 × Ring) :=
  let avail := r.write - r.read
  if avail = 0 then some (0, buf, r)
  else
    (position r.capacity r.read).bind fun pos =>
      (wrapRead r.data pos avail).map fun bytes =>
        (avail, buf ++ bytes, { r with read := r.read + avail })

/-- `read_available`. -/
def readAvailable (r : Ring) : Option (List UInt8 × Ring) :=
  let avail := r.write - r.read
  if avail = 0 then some ([], r)
  else
    (position r.capacity r.read).bind fun pos =>
      (wrapRead r.data pos avail).map fun bytes =>
        (bytes, { r with read := r.read + avail })

/-! ## Specifications -/

theorem createOwner_valid (capacity : Nat) : (createOwner capacity).Valid := by
  simp [Valid, createOwner]

theorem freeSpace_of_valid {capacity w r : Nat} (hrw : r ≤ w) (hwr : w ≤ r + capacity) :
    freeSpace capacity w r = some (capacity - (w - r)) :=
  if_pos ⟨hrw, by omega⟩

theorem position_of_pos {capacity : Nat} (offset : Nat) (hcap : 0 < capacity) :
    position capacity offset = some (offset % capacity) :=
  if_neg (by omega)

/-- What an accepted `write_frame` leaves behind. -/
structure Stored (r : Ring) (frame : List UInt8) (r' : Ring) : Prop where
  capacity : r'.capacity = r.capacity
  write : r'.write = r.write + frame.length
  read : r'.read = r.read
  dropped : r'.framesDropped = r.framesDropped
  fits : r'.write ≤ r.read + r.capacity
  block : ∀ j, j < frame.length → cell r'.data (r.write + j) = frame[j]?
  unread : ∀ j, r.read ≤ j → j < r.write → cell r'.data j = cell r.data j

/-- Over valid offsets `write_frame` returns: it refuses the frame and only
counts the drop, or it stores the frame behind the unread bytes. -/
theorem writeFrame_spec (r : Ring) (frame : List UInt8) (hcap : 0 < r.capacity)
    (hvalid : r.Valid) :
    r.writeFrame frame = some (false, r.dropFrame) ∨
      ∃ r', r.writeFrame frame = some (true, r') ∧ Stored r frame r' := by
  obtain ⟨hrw, hwr⟩ := hvalid
  unfold writeFrame
  by_cases hbig : frame.length > r.capacity / 2
  · exact .inl (if_pos hbig)
  simp only [if_neg hbig, freeSpace_of_valid hrw hwr, Option.bind_some]
  by_cases hfull : r.capacity - (r.write - r.read) < frame.length
  · exact .inl (if_pos hfull)
  obtain ⟨data, hdata, hlen, hblock, hold⟩ :=
    wrapWrite_spec r.data frame r.write hcap (by unfold capacity at hbig; omega)
  refine .inr ⟨{ r with data := data, write := r.write + frame.length }, ?_, ?_⟩
  · rw [if_neg hfull, position_of_pos r.write hcap]
    simp only [Option.bind_some, capacity, hdata, Option.map_some]
  · refine
      { capacity := hlen
        write := rfl
        read := rfl
        dropped := rfl
        fits := by simp only; omega
        block := hblock
        unread := ?_ }
    intro j hread hj
    refine hold j hj ?_
    unfold capacity at hfull hwr
    omega

/-- The allocating and the appending consumer call are one call. -/
theorem readAvailable_eq_readAvailableInto (r : Ring) :
    r.readAvailable =
      (r.readAvailableInto []).map fun out => (out.2.1, out.2.2) := by
  unfold readAvailable Ring.readAvailableInto
  by_cases havail : r.write - r.read = 0
  · simp only [if_pos havail, Option.map_some]
  · simp only [if_neg havail, List.nil_append, Option.map_bind, Option.map_map,
      Function.comp_def]

/-- Over valid offsets a consumer call returns every unread byte, in offset
order, and empties the ring. -/
theorem readAvailable_spec (r : Ring) (hcap : 0 < r.capacity) (hvalid : r.Valid) :
    ∃ bytes, r.readAvailable = some (bytes, { r with read := r.write }) ∧
      bytes.length = r.write - r.read ∧
      ∀ j, j < r.write - r.read → bytes[j]? = cell r.data (r.read + j) := by
  obtain ⟨hrw, hwr⟩ := hvalid
  unfold readAvailable
  by_cases havail : r.write - r.read = 0
  · refine ⟨[], ?_, by simp [havail], by omega⟩
    have hempty : r.write = r.read := by omega
    rw [if_pos havail]
    cases r
    simp_all
  · obtain ⟨bytes, hbytes, hlen, hget⟩ :=
      wrapRead_spec r.data r.read (r.write - r.read) hcap
        (by unfold capacity at hwr; omega)
    refine ⟨bytes, ?_, hlen, hget⟩
    rw [if_neg havail, position_of_pos r.read hcap]
    simp only [Option.bind_some, capacity, hbytes, Option.map_some]
    congr 3
    omega

/-! ## The one-pass writer -/

/-- Storing prefix and body with a wrap each is storing the packed frame. -/
theorem wrapWrite_packFrame (data body : List UInt8) (w : Nat)
    (hcap : 0 < data.length) (hfits : 4 + body.length ≤ data.length) :
    (wrapWrite data (w % data.length) (BigEndian.toBytes 4 body.length)).bind
        (fun mid => wrapWrite mid ((w % data.length + 4) % data.length) body) =
      wrapWrite data (w % data.length) (packFrame body) := by
  have happend := wrapWrite_append data (BigEndian.toBytes 4 body.length) body w hcap
    (by simpa using hfits)
  rw [BigEndian.toBytes_length, ← Nat.mod_add_mod] at happend
  exact happend

/-- `write_body(body)` and `write_frame(pack_frame(body))` return, with the
same boolean, and lead to the same ring, from every ring with valid offsets,
whatever its capacity and contents. -/
theorem write_body_eq_write_frame_pack_frame (r : Ring) (hvalid : r.Valid)
    (body : List UInt8) :
    ∃ ok r', r.writeBody body = some (ok, r') ∧
      r.writeFrame (packFrame body) = some (ok, r') := by
  have hsame : r.writeBody body = r.writeFrame (packFrame body) := by
    unfold writeBody Ring.writeFrame
    simp only [packFrame_length]
    by_cases hbig : 4 + body.length > r.capacity / 2
    · rw [if_pos hbig, if_pos hbig]
    rw [if_neg hbig, if_neg hbig]
    have hcap : 0 < r.data.length := by unfold capacity at hbig; omega
    have hfits : 4 + body.length ≤ r.data.length := by unfold capacity at hbig; omega
    simp only [capacity, position_of_pos _ hcap, Option.bind_some,
      ← wrapWrite_packFrame r.data body r.write hcap hfits, Option.map_bind,
      Function.comp_def]
  rw [hsame]
  by_cases hcap : 0 < r.capacity
  · rcases writeFrame_spec r (packFrame body) hcap hvalid with hdrop | ⟨r', hstore, -⟩
    · exact ⟨false, r.dropFrame, hdrop, hdrop⟩
    · exact ⟨true, r', hstore, hstore⟩
  · -- A ring without cells refuses every frame: the prefix alone is too long.
    refine ⟨false, r.dropFrame, ?_, ?_⟩
    all_goals
      unfold writeFrame
      exact if_pos (by rw [packFrame_length]; omega)

/-- A ring of sixteen cells whose next prefix straddles the physical end. -/
theorem write_body_eq_write_frame_at_straddling_prefix :
    (Ring.mk (List.replicate 16 7) 14 14 0).Valid ∧
      ∃ ok r', (Ring.mk (List.replicate 16 7) 14 14 0).writeBody [1, 2] = some (ok, r') ∧
        (Ring.mk (List.replicate 16 7) 14 14 0).writeFrame (packFrame [1, 2]) =
          some (ok, r') :=
  ⟨by decide, write_body_eq_write_frame_pack_frame _ (by decide) [1, 2]⟩

end Corsair.Ports.Ring
