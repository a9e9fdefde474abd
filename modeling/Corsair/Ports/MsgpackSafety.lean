import Corsair.Verified.Checked
import Corsair.Ports.TickAcceptance

/-!
# `corsair_trader::msgpack_decode`: every access of the decoder

`MsgpackDecode` has the decoder with its results.  Here it is once more with each of its
accesses as the source makes it: `body.get(..)?`, which fails, and `bs[i]` and
`&body[start..end]`, which end the program where they are out of range.  The recursion of
`skip_value` runs on fuel, one unit for each byte of the body and one more, and it is told apart
from a failure when they are used up.  The loops over the pairs of a map are as long as its
header says.

A body is shorter than a position can be, so positions do not overflow.  The depth of the
recursion is bounded by the length of the body; the stack that it needs is not modelled.

## Main results

* `skipValue_eq` — `skip_value` ends, and no access of it is out of range.
* `decodeTick_eq` and the equations before it — nor of any other function, and it returns what
  `MsgpackDecode` says.
* `decoders_safe` — with where the readers end.
-/

namespace Corsair.Ports.MsgpackSafety

open Corsair.Verified
open Corsair.Verified.Checked
open Corsair.Verified.BigEndian
open Corsair.Verified.MsgPack (utf8)
open Corsair.Verified.Tagged (slice iterate)
open Corsair.Ports.MsgpackDecode (TickMsg skipTable)

/-! ## Primitive readers -/

/-- `u16::from_be_bytes([bs[0], bs[1]])` -/
def be16 (bs : List UInt8) : Checked Nat := do
  let b0 ← index bs 0
  let b1 ← index bs 1
  return ofBytes [b0, b1]

/-- `u32::from_be_bytes([bs[0], bs[1], bs[2], bs[3]])` -/
def be32 (bs : List UInt8) : Checked Nat := do
  let b0 ← index bs 0
  let b1 ← index bs 1
  let b2 ← index bs 2
  let b3 ← index bs 3
  return ofBytes [b0, b1, b2, b3]

/-- `bs.try_into().ok()?`, into an array of `k` bytes. -/
def tryInto (k : Nat) (bs : List UInt8) : Checked (List UInt8) :=
  if bs.length = k then .value bs else .nothing

def readMapHeader (body : List UInt8) (p : Nat) : Checked (Nat × Nat) := do
  let b ← get body p
  if 0x80 ≤ b ∧ b ≤ 0x8f then return ((b &&& 0x0f).toNat, p + 1)
  else if b = 0xde then
    let bytes ← getRange body (p + 1) (p + 3)
    let n ← be16 bytes
    return (n, p + 3)
  else if b = 0xdf then
    let bytes ← getRange body (p + 1) (p + 5)
    let n ← be32 bytes
    return (n, p + 5)
  else .nothing

/-- Where the bytes of a string start, and how many there are. -/
def strStart (body : List UInt8) (p : Nat) : Checked (Nat × Nat) := do
  let b ← get body p
  if 0xa0 ≤ b ∧ b ≤ 0xbf then return (p + 1, (b &&& 0x1f).toNat)
  else if b = 0xd9 then
    let len ← get body (p + 1)
    return (p + 2, len.toNat)
  else if b = 0xda then
    let bs ← getRange body (p + 1) (p + 3)
    let len ← be16 bs
    return (p + 3, len)
  else if b = 0xdb then
    let bs ← getRange body (p + 1) (p + 5)
    let len ← be32 bs
    return (p + 5, len)
  else .nothing

def readStrBytes (body : List UInt8) (p : Nat) : Checked (List UInt8 × Nat) := do
  let (start, len) ← strStart body p
  if body.length < start + len then .nothing
  else
    let bytes ← indexRange body start (start + len)
    return (bytes, start + len)

def readInt (body : List UInt8) (p : Nat) : Checked (Int64 × Nat) := do
  let b ← get body p
  if b ≤ 0x7f then return (Int64.ofNat b.toNat, p + 1)
  else if 0xe0 ≤ b then return (b.toInt8.toInt64, p + 1)
  else if b = 0xcc then
    let v ← get body (p + 1)
    return (Int64.ofNat v.toNat, p + 2)
  else if b = 0xcd then
    let bs ← getRange body (p + 1) (p + 3)
    let n ← be16 bs
    return (Int64.ofNat n, p + 3)
  else if b = 0xce then
    let bs ← getRange body (p + 1) (p + 5)
    let n ← be32 bs
    return (Int64.ofNat n, p + 5)
  else if b = 0xcf then
    let bs ← getRange body (p + 1) (p + 9)
    let arr ← tryInto 8 bs
    return ((UInt64.ofNat (ofBytes arr)).toInt64, p + 9)
  else if b = 0xd0 then
    let v ← get body (p + 1)
    return (v.toInt8.toInt64, p + 2)
  else if b = 0xd1 then
    let bs ← getRange body (p + 1) (p + 3)
    let n ← be16 bs
    return ((UInt16.ofNat n).toInt16.toInt64, p + 3)
  else if b = 0xd2 then
    let bs ← getRange body (p + 1) (p + 5)
    let n ← be32 bs
    return ((UInt32.ofNat n).toInt32.toInt64, p + 5)
  else if b = 0xd3 then
    let bs ← getRange body (p + 1) (p + 9)
    let arr ← tryInto 8 bs
    return ((UInt64.ofNat (ofBytes arr)).toInt64, p + 9)
  else .nothing

/-- A double, as its bits; a float and an integer are converted. -/
def readF64 (body : List UInt8) (p : Nat) : Checked (UInt64 × Nat) := do
  let b ← get body p
  if b = 0xcb then
    let bs ← getRange body (p + 1) (p + 9)
    let arr ← tryInto 8 bs
    return (UInt64.ofNat (ofBytes arr), p + 9)
  else if b = 0xca then
    let bs ← getRange body (p + 1) (p + 5)
    let arr ← tryInto 4 bs
    return ((Float32.ofBits (UInt32.ofNat (ofBytes arr))).toFloat.toBits, p + 5)
  else
    let (v, e) ← readInt body p
    return (v.toFloat.toBits, e)

/-! ## Skipping a value -/

/-- `skip_value`, on fuel for its recursion. -/
def skipLevels (body : List UInt8) : Nat → Nat → Checked Nat
  | 0, _ => .exhausted
  | level + 1, p => do
      let skipN (p n : Nat) := repeated (skipLevels body level) n p
      let b ← get body p
      if b = 0xc0 ∨ b = 0xc2 ∨ b = 0xc3 ∨ b ≤ 0x7f ∨ 0xe0 ≤ b then .value (p + 1)
      else if b = 0xcc ∨ b = 0xd0 ∨ b = 0xd4 then .value (p + 2)
      else if b = 0xcd ∨ b = 0xd1 ∨ b = 0xd5 then .value (p + 3)
      else if b = 0xce ∨ b = 0xd2 ∨ b = 0xca ∨ b = 0xd6 then .value (p + 5)
      else if b = 0xcf ∨ b = 0xd3 ∨ b = 0xcb ∨ b = 0xd7 then .value (p + 9)
      else if b = 0xd8 then .value (p + 18)
      else if 0xa0 ≤ b ∧ b ≤ 0xbf then .value (p + 1 + (b &&& 0x1f).toNat)
      else if b = 0xd9 ∨ b = 0xc4 then
        let len ← get body (p + 1)
        .value (p + 2 + len.toNat)
      else if b = 0xda ∨ b = 0xc5 then
        let bs ← getRange body (p + 1) (p + 3)
        let len ← be16 bs
        .value (p + 3 + len)
      else if b = 0xdb ∨ b = 0xc6 then
        let bs ← getRange body (p + 1) (p + 5)
        let len ← be32 bs
        .value (p + 5 + len)
      else if 0x90 ≤ b ∧ b ≤ 0x9f then skipN (p + 1) (b &&& 0x0f).toNat
      else if b = 0xdc then
        let bs ← getRange body (p + 1) (p + 3)
        let n ← be16 bs
        skipN (p + 3) n
      else if b = 0xdd then
        let bs ← getRange body (p + 1) (p + 5)
        let n ← be32 bs
        skipN (p + 5) n
      else if 0x80 ≤ b ∧ b ≤ 0x8f then skipN (p + 1) ((b &&& 0x0f).toNat * 2)
      else if b = 0xde then
        let bs ← getRange body (p + 1) (p + 3)
        let n ← be16 bs
        skipN (p + 3) (n * 2)
      else if b = 0xdf then
        let bs ← getRange body (p + 1) (p + 5)
        let n ← be32 bs
        skipN (p + 5) (n * 2)
      else .nothing

/-- `skip_value`. -/
def skipValue (body : List UInt8) (p : Nat) : Checked Nat := skipLevels body (body.length + 1) p

/-- `skip_n_values`. -/
def skipNValues (body : List UInt8) (p n : Nat) : Checked Nat := repeated (skipValue body) n p

/-! ## The header of a message -/

/-- The loop of `decode_header` over `n` pairs. -/
def headerLoop (body : List UInt8) :
    Nat → Nat → Option (List UInt8) → Option UInt64 →
      Checked (Option (List UInt8) × Option UInt64)
  | 0, _, typeBytes, tsNs => .value (typeBytes, tsNs)
  | n + 1, p, typeBytes, tsNs => do
      let (key, p) ← readStrBytes body p
      if key.length = 4 ∧ key = utf8 "type" then
        let (s, e) ← readStrBytes body p
        headerLoop body n e (some s) tsNs
      else if key.length = 5 ∧ key = utf8 "ts_ns" then
        let b ← Checked.get body p
        if b = 0xc0 then headerLoop body n (p + 1) typeBytes tsNs
        else
          let (v, e) ← readInt body p
          headerLoop body n e typeBytes (some v.toUInt64)
      else
        let e ← skipValue body p
        headerLoop body n e typeBytes tsNs

/-- `decode_header`. -/
def decodeHeader (body : List UInt8) : Checked (List UInt8 × Option UInt64) := do
  let (nPairs, p) ← readMapHeader body 0
  let (typeBytes, tsNs) ← headerLoop body nPairs p none none
  let t ← ofOption typeBytes
  return (t, tsNs)

/-! ## A tick -/

/-- A value that may be nil; a nil takes one byte. -/
def assignOpt {α : Type} (body : List UInt8) (p : Nat) (read : Checked (α × Nat)) :
    Checked (Option α × Nat) := do
  let b ← Checked.get body p
  if b = 0xc0 then return (none, p + 1)
  else
    let (v, e) ← read
    return (some v, e)

def assignOptF64 (body : List UInt8) (p : Nat) : Checked (Option UInt64 × Nat) :=
  assignOpt body p (readF64 body p)

def assignOptU64 (body : List UInt8) (p : Nat) : Checked (Option UInt64 × Nat) :=
  assignOpt body p (do
    let (v, e) ← readInt body p
    return (v.toUInt64, e))

def assignOptI32 (body : List UInt8) (p : Nat) : Checked (Option Int32 × Nat) :=
  assignOpt body p (do
    let (v, e) ← readInt body p
    return (v.toInt32, e))

def assignString (body : List UInt8) (p : Nat) : Checked (List UInt8 × Nat) := readStrBytes body p

/-- A value that is read goes into the tick. -/
def into {α : Type} (read : Checked (α × Nat)) (set : α → TickMsg) : Checked (TickMsg × Nat) := do
  let (v, e) ← read
  return (set v, e)

/-- The value at `p` under the key: the tick with its field, and the position behind the
value. -/
def assignField (body : List UInt8) (p : Nat) (key : List UInt8) (out : TickMsg) :
    Checked (TickMsg × Nat) :=
  let skipped : Checked (TickMsg × Nat) := do
    let e ← skipValue body p
    return (out, e)
  match key.length with
  | 3 =>
      if key = utf8 "bid" then into (assignOptF64 body p) fun v => { out with bid := v }
      else if key = utf8 "ask" then into (assignOptF64 body p) fun v => { out with ask := v }
      else skipped
  | 5 =>
      if key = utf8 "ts_ns" then into (assignOptU64 body p) fun v => { out with tsNs := v }
      else if key = utf8 "right" then into (assignString body p) fun s => { out with right := s }
      else skipped
  | 6 =>
      if key = utf8 "strike" then into (readF64 body p) fun v => { out with strike := v }
      else if key = utf8 "expiry" then into (assignString body p) fun s => { out with expiry := s }
      else skipped
  | 8 =>
      if key = utf8 "bid_size" then into (assignOptI32 body p) fun v => { out with bidSize := v }
      else if key = utf8 "ask_size" then
        into (assignOptI32 body p) fun v => { out with askSize := v }
      else skipped
  | 11 =>
      if key = utf8 "depth_bid_0" then
        into (assignOptF64 body p) fun v => { out with depthBid0 := v }
      else if key = utf8 "depth_bid_1" then
        into (assignOptF64 body p) fun v => { out with depthBid1 := v }
      else if key = utf8 "depth_ask_0" then
        into (assignOptF64 body p) fun v => { out with depthAsk0 := v }
      else if key = utf8 "depth_ask_1" then
        into (assignOptF64 body p) fun v => { out with depthAsk1 := v }
      else skipped
  | 14 =>
      if key = utf8 "broker_recv_ns" then
        into (assignOptU64 body p) fun v => { out with brokerRecvNs := v }
      else skipped
  | _ => skipped

/-- The loop of `decode_tick` over `n` pairs, and the tick that it leaves. -/
def tickLoop (body : List UInt8) : Nat → Nat → TickMsg → Checked (Bool × TickMsg)
  | 0, _, out => .value (true, out)
  | n + 1, p, out => do
      match ← attempt (readStrBytes body p) with
      | none => return (false, out)
      | some (key, p) =>
          match ← attempt (assignField body p key out) with
          | none => return (false, out)
          | some (out, e) => tickLoop body n e out

/-- `decode_tick`: whether it succeeds, and the tick that it leaves in `out`. -/
def decodeTick (body : List UInt8) (out : TickMsg) : Checked (Bool × TickMsg) := do
  match ← attempt (readMapHeader body 0) with
  | none => return (false, out)
  | some (nPairs, p) => tickLoop body nPairs p out.reset

/-! ## The readers return what they read -/

/-- A checked range is the slice of as many bytes. -/
theorem getRange_slice (body : List UInt8) (lo k : Nat) :
    getRange body lo (lo + k) = ofOption (slice body lo k) := getRange_eq body lo k

theorem length_slice {body bs : List UInt8} {lo k : Nat} (h : slice body lo k = some bs) :
    bs.length = k := (Tagged.agrees_of_slice h).2.1

theorem getRange_be16 {α : Type} (body : List UInt8) (lo : Nat) (f : Nat → Checked α) :
    (getRange body lo (lo + 2) >>= fun bs => be16 bs >>= f) =
      (ofOption (slice body lo 2) >>= fun bs => f (ofBytes bs)) := by
  rw [getRange_slice]
  cases hslice : slice body lo 2 with
  | none => rfl
  | some bs =>
      match bs, length_slice hslice with
      | [b0, b1], _ => rfl

theorem getRange_be32 {α : Type} (body : List UInt8) (lo : Nat) (f : Nat → Checked α) :
    (getRange body lo (lo + 4) >>= fun bs => be32 bs >>= f) =
      (ofOption (slice body lo 4) >>= fun bs => f (ofBytes bs)) := by
  rw [getRange_slice]
  cases hslice : slice body lo 4 with
  | none => rfl
  | some bs =>
      match bs, length_slice hslice with
      | [b0, b1, b2, b3], _ => rfl

theorem getRange_tryInto {α : Type} (k : Nat) (body : List UInt8) (lo : Nat)
    (f : List UInt8 → Checked α) :
    (getRange body lo (lo + k) >>= fun bs => tryInto k bs >>= f) =
      (ofOption (slice body lo k) >>= f) := by
  rw [getRange_slice]
  cases hslice : slice body lo k with
  | none => rfl
  | some bs =>
      rw [ofOption_some, value_bind, value_bind, tryInto, if_pos (length_slice hslice), value_bind]

theorem readMapHeader_eq (body : List UInt8) (p : Nat) :
    readMapHeader body p = ofOption (MsgpackDecode.readMapHeader body p) := by
  simp only [readMapHeader, MsgpackDecode.readMapHeader, Checked.get, getRange_be16, getRange_be32,
    ofOption_bind, ofOption_ite, ofOption_pure, ofOption_none, pure_eq]

theorem strStart_eq (body : List UInt8) (p : Nat) :
    strStart body p = ofOption (MsgpackDecode.strStart body p) := by
  simp only [strStart, MsgpackDecode.strStart, Checked.get, getRange_be16, getRange_be32,
    ofOption_bind, ofOption_ite, ofOption_pure, ofOption_none, pure_eq]

/-- The bytes of a string are in the body once the check before the slice has passed. -/
theorem readStrBytes_eq (body : List UInt8) (p : Nat) :
    readStrBytes body p = ofOption (MsgpackDecode.readStrBytes body p) := by
  have hbytes (start len : Nat) :
      (if body.length < start + len then Checked.nothing
        else indexRange body start (start + len) >>= fun bytes => .value (bytes, start + len)) =
        (ofOption (slice body start len) >>= fun bytes => .value (bytes, start + len)) := by
    by_cases hend : start + len ≤ body.length
    · rw [if_neg (Nat.not_lt.mpr hend), indexRange_eq hend, slice, if_pos hend]
      rfl
    · rw [if_pos (Nat.lt_of_not_le hend), slice, if_neg hend]
      rfl
  simp only [readStrBytes, MsgpackDecode.readStrBytes, strStart_eq, ofOption_bind, ofOption_pure,
    pure_eq, hbytes]

theorem readInt_eq (body : List UInt8) (p : Nat) :
    readInt body p = ofOption (MsgpackDecode.readInt body p) := by
  simp only [readInt, MsgpackDecode.readInt, Checked.get, getRange_be16, getRange_be32,
    getRange_tryInto 8, ofOption_bind, ofOption_ite, ofOption_pure, ofOption_none, pure_eq]

theorem readF64_eq (body : List UInt8) (p : Nat) :
    readF64 body p = ofOption (MsgpackDecode.readF64 body p) := by
  simp only [readF64, MsgpackDecode.readF64, Checked.get, getRange_tryInto 8, getRange_tryInto 4,
    readInt_eq, ofOption_bind, ofOption_ite, ofOption_pure, pure_eq]

/-! ## Skipping ends -/

theorem skipLevels_mono {body : List UInt8} {level p e : Nat}
    (h : MsgpackDecode.skipLevels body level p = some e) : p < e := by
  rw [MsgpackDecode.skipLevels_eq_walk] at h
  obtain ⟨v, -, -, rfl⟩ := Tagged.reads_of_walk h
  have hslack := Tagged.Datum.slack_lt v
  omega

/-- A loop whose steps return from where it starts on returns. -/
theorem repeated_eq {f : Nat → Checked Nat} {g : Nat → Option Nat} {start : Nat}
    (hstep : ∀ p, start ≤ p → f p = ofOption (g p)) (hmono : ∀ p e, g p = some e → p ≤ e) (n : Nat)
    {p : Nat} (hp : start ≤ p) : repeated f n p = ofOption (iterate g n p) := by
  induction n generalizing p with
  | zero => rfl
  | succ n ih =>
      rw [repeated, iterate, hstep p hp]
      cases hend : g p with
      | none => rfl
      | some e =>
          have hle := hmono p e hend
          exact ih (by omega)

/-- **`skip_value` ends.**  Behind a tag that holds values the positions are later ones, so
that a unit of fuel for each byte that is left is enough. -/
theorem skipLevels_eq (body : List UInt8) (level p : Nat) (h : body.length ≤ p + level) :
    skipLevels body (level + 1) p = ofOption (MsgpackDecode.skipLevels body (level + 1) p) := by
  induction level generalizing p with
  | zero =>
      have hnone : body[p]? = none := List.getElem?_eq_none (by omega)
      rw [skipLevels, MsgpackDecode.skipLevels, Checked.get, hnone]
      rfl
  | succ level ih =>
      have hstep (q : Nat) (hq : p + 1 ≤ q) : skipLevels body (level + 1) q =
          ofOption (MsgpackDecode.skipLevels body (level + 1) q) := ih q (by omega)
      have hskip (n q : Nat) (hq : p + 1 ≤ q) : repeated (skipLevels body (level + 1)) n q =
          ofOption (iterate (MsgpackDecode.skipLevels body (level + 1)) n q) :=
        repeated_eq hstep (fun _ _ he => Nat.le_of_lt (skipLevels_mono he)) n hq
      have hitems (n : Nat) := hskip n (p + 1) (by omega)
      have hsmall (n : Nat) := hskip n (p + 3) (by omega)
      have hlarge (n : Nat) := hskip n (p + 5) (by omega)
      rw [skipLevels, MsgpackDecode.skipLevels]
      simp only [Checked.get, getRange_be16, getRange_be32, hitems, hsmall, hlarge, ofOption_bind,
        ofOption_ite, ofOption_some, ofOption_none]

theorem skipValue_eq (body : List UInt8) (p : Nat) :
    skipValue body p = ofOption (MsgpackDecode.skipValue body p) := by
  rw [skipValue, skipLevels_eq body body.length p (by omega), MsgpackDecode.skipValue,
    MsgpackDecode.skipLevels_eq_walk, MsgpackDecode.skipLevels_eq_walk]
  exact congrArg ofOption (Tagged.walk_level (by omega) (by omega))

theorem skipNValues_eq (body : List UInt8) (p n : Nat) :
    skipNValues body p n = ofOption (MsgpackDecode.skipNValues body p n) :=
  repeated_eq (fun q _ => skipValue_eq body q) (fun _ _ he => Nat.le_of_lt (skipLevels_mono he)) n
    (Nat.zero_le p)

/-! ## The decoders -/

theorem headerLoop_eq (body : List UInt8) (n p : Nat) (typeBytes : Option (List UInt8))
    (tsNs : Option UInt64) :
    headerLoop body n p typeBytes tsNs =
      ofOption (MsgpackDecode.headerLoop body n p typeBytes tsNs) := by
  induction n generalizing p typeBytes tsNs with
  | zero => rfl
  | succ n ih =>
      simp only [headerLoop, MsgpackDecode.headerLoop, readStrBytes_eq, readInt_eq, skipValue_eq,
        Checked.get, ih, ofOption_bind, ofOption_ite]

theorem decodeHeader_eq (body : List UInt8) :
    decodeHeader body = ofOption (MsgpackDecode.decodeHeader body) := by
  simp only [decodeHeader, MsgpackDecode.decodeHeader, readMapHeader_eq, headerLoop_eq,
    ofOption_bind, ofOption_pure, pure_eq]

theorem assignOpt_eq {α : Type} (body : List UInt8) (p : Nat) (read : Option (α × Nat)) :
    assignOpt body p (ofOption read) = ofOption (MsgpackDecode.assignOpt body p read) := by
  simp only [assignOpt, MsgpackDecode.assignOpt, Checked.get, ofOption_bind, ofOption_ite,
    ofOption_pure, pure_eq]

theorem ofOption_map {α β : Type} (o : Option α) (f : α → β) :
    (ofOption o >>= fun a => .value (f a)) = ofOption (o.map f) := by
  cases o <;> rfl

theorem into_eq {α : Type} (read : Option (α × Nat)) (set : α → TickMsg) :
    into (ofOption read) set = ofOption (read.map fun (v, e) => (set v, e)) := by
  cases read <;> rfl

theorem assignOptF64_eq (body : List UInt8) (p : Nat) :
    assignOptF64 body p = ofOption (MsgpackDecode.assignOptF64 body p) := by
  rw [assignOptF64, readF64_eq, assignOpt_eq]
  rfl

theorem assignOptU64_eq (body : List UInt8) (p : Nat) :
    assignOptU64 body p = ofOption (MsgpackDecode.assignOptU64 body p) := by
  unfold assignOptU64
  rw [readInt_eq]
  exact (congrArg (assignOpt body p) (ofOption_map _ _)).trans (assignOpt_eq body p _)

theorem assignOptI32_eq (body : List UInt8) (p : Nat) :
    assignOptI32 body p = ofOption (MsgpackDecode.assignOptI32 body p) := by
  unfold assignOptI32
  rw [readInt_eq]
  exact (congrArg (assignOpt body p) (ofOption_map _ _)).trans (assignOpt_eq body p _)

theorem assignString_eq (body : List UInt8) (p : Nat) :
    assignString body p = ofOption (MsgpackDecode.assignString body p) := readStrBytes_eq body p

theorem assignField_eq (body : List UInt8) (p : Nat) (key : List UInt8) (out : TickMsg) :
    assignField body p key out = ofOption (MsgpackDecode.assignField body p key out) := by
  have hskipped : (skipValue body p >>= fun e => .value (out, e)) =
      ofOption ((MsgpackDecode.skipValue body p).map fun e => (out, e)) := by
    rw [skipValue_eq]
    exact ofOption_map _ _
  simp only [assignField, assignOptF64_eq, assignOptU64_eq, assignOptI32_eq, assignString_eq,
    readF64_eq, into_eq, pure_eq, hskipped]
  unfold MsgpackDecode.assignField
  generalize key.length = n
  split
  all_goals simp only [ofOption_ite, *]

theorem tickLoop_eq (body : List UInt8) (n p : Nat) (out : TickMsg) :
    tickLoop body n p out = .value (MsgpackDecode.tickLoop body n p out) := by
  induction n generalizing p out with
  | zero => rfl
  | succ n ih =>
      rw [tickLoop, MsgpackDecode.tickLoop, readStrBytes_eq, attempt_ofOption, value_bind]
      cases MsgpackDecode.readStrBytes body p with
      | none => rfl
      | some pair =>
          obtain ⟨key, q⟩ := pair
          dsimp only
          rw [assignField_eq, attempt_ofOption, value_bind]
          cases MsgpackDecode.assignField body q key out with
          | none => rfl
          | some pair => exact ih pair.2 pair.1

theorem decodeTick_eq (body : List UInt8) (out : TickMsg) :
    decodeTick body out = .value (MsgpackDecode.decodeTick body out) := by
  rw [decodeTick, MsgpackDecode.decodeTick, readMapHeader_eq, attempt_ofOption, value_bind]
  cases MsgpackDecode.readMapHeader body 0 with
  | none => rfl
  | some pair => exact tickLoop_eq body pair.1 pair.2 out.reset

/-! ## Where they end -/

theorem lt_of_getElem? {body : List UInt8} {p : Nat} {b : UInt8} (h : body[p]? = some b) :
    p < body.length := (List.getElem?_eq_some_iff.mp h).1

theorem le_of_slice {body bs : List UInt8} {lo k : Nat} (h : slice body lo k = some bs) :
    lo + k ≤ body.length := by
  unfold slice at h
  split at h
  · assumption
  · cases h

theorem endOf_bounds {allowed : UInt8 → Bool} {body : List UInt8} {p e : Nat}
    (h : TickAcceptance.endOf allowed body p = some e) : p < e ∧ e ≤ body.length := by
  obtain ⟨tag, -, hend⟩ := Option.bind_eq_some_iff.mp h
  obtain ⟨v, -, -, rfl, hle⟩ := TickAcceptance.valueEnd_eq_some.mp hend
  have hslack := Tagged.Datum.slack_lt v
  exact ⟨by omega, hle⟩

theorem readMapHeader_bounds {body : List UInt8} {p n e : Nat}
    (h : MsgpackDecode.readMapHeader body p = some (n, e)) : p < e ∧ e ≤ body.length := by
  unfold MsgpackDecode.readMapHeader at h
  obtain ⟨b, htag, h⟩ := Option.bind_eq_some_iff.mp h
  have hp := lt_of_getElem? htag
  split_ifs at h
  · obtain ⟨-, rfl⟩ := Prod.mk.inj (Option.some.inj h)
    omega
  · obtain ⟨bytes, hslice, h⟩ := Option.bind_eq_some_iff.mp h
    obtain ⟨-, rfl⟩ := Prod.mk.inj (Option.some.inj h)
    have hle := le_of_slice hslice
    omega
  · obtain ⟨bytes, hslice, h⟩ := Option.bind_eq_some_iff.mp h
    obtain ⟨-, rfl⟩ := Prod.mk.inj (Option.some.inj h)
    have hle := le_of_slice hslice
    omega

/-- No more than four bytes of length. -/
def small : Tagged.Shape → Bool
  | .atom width => width ≤ 31
  | .sized k extra => k ≤ 4 && extra = 0
  | .sizedItems k _ => k ≤ 4
  | .items _ | .reserved => true

theorem small_skipTable (tag : UInt8) : small (skipTable tag) = true :=
  Tagged.forall_tag (P := fun tag => small (skipTable tag) = true) (by decide +kernel) tag

theorem iterate_le {f : Nat → Option Nat} {bound : Nat} (hstep : ∀ p e, f p = some e → e ≤ bound)
    {n p e : Nat} (hp : p ≤ bound) (h : iterate f n p = some e) : e ≤ bound := by
  induction n generalizing p with
  | zero => exact Option.some.inj h ▸ hp
  | succ n ih =>
      obtain ⟨q, hq, hrest⟩ := Option.bind_eq_some_iff.mp h
      exact ih (hstep p q hq) hrest

/-- A value that is skipped may end behind the body, but not far: no position overflows. -/
theorem skipLevels_le {body : List UInt8} {level p e : Nat}
    (h : MsgpackDecode.skipLevels body level p = some e) : e ≤ body.length + 2 ^ 32 := by
  rw [MsgpackDecode.skipLevels_eq_walk] at h
  induction level generalizing p e with
  | zero => cases h
  | succ level ih =>
      obtain ⟨tag, htag, h⟩ := Option.bind_eq_some_iff.mp h
      have hp := lt_of_getElem? htag
      have hsmall := small_skipTable tag
      cases hshape : skipTable tag with
      | atom width =>
          rw [hshape] at h hsmall
          obtain rfl := Option.some.inj h
          have hwidth : width ≤ 31 := by simpa [small] using hsmall
          omega
      | sized k extra =>
          rw [hshape] at h hsmall
          obtain ⟨numeral, hslice, rfl⟩ := Option.map_eq_some_iff.mp h
          obtain ⟨hk, rfl⟩ : k ≤ 4 ∧ extra = 0 := by simpa [small] using hsmall
          have hle := le_of_slice hslice
          have hvalue : ofBytes numeral < 256 ^ k := length_slice hslice ▸ ofBytes_lt numeral
          have hpow : 256 ^ k ≤ 256 ^ 4 := Nat.pow_le_pow_right (by decide) hk
          omega
      | items count =>
          rw [hshape] at h
          exact iterate_le (fun q e hq => ih hq) (by omega) h
      | sizedItems k per =>
          rw [hshape] at h
          obtain ⟨numeral, hslice, h⟩ := Option.bind_eq_some_iff.mp h
          have hle := le_of_slice hslice
          exact iterate_le (fun q e hq => ih hq) (by omega) h
      | reserved =>
          rw [hshape] at h
          cases h

/-! ## Safety -/

/-- A reader returns from every position, and what it reads ends in the body, behind where it
starts. -/
structure ReaderSafe {α : Type} (body : List UInt8) (read : Nat → Checked (α × Nat)) : Prop where
  returns : ∀ p, (read p).Returned
  ends : ∀ p v e, read p = .value (v, e) → p < e ∧ e ≤ body.length

theorem readerSafe_of_eq {α : Type} {body : List UInt8} {read : Nat → Checked (α × Nat)}
    {plain : Nat → Option (α × Nat)} (heq : ∀ p, read p = ofOption (plain p))
    (hends : ∀ p v e, plain p = some (v, e) → p < e ∧ e ≤ body.length) : ReaderSafe body read where
  returns p := ⟨plain p, heq p⟩
  ends p v e h := by
    rw [heq] at h
    exact hends p v e (ofOption_eq_value.mp h)

/-- A reader whose end is that of a value with an allowed tag. -/
theorem ends_of_endOf {α : Type} {allowed : UInt8 → Bool} {body : List UInt8}
    {plain : Nat → Option (α × Nat)}
    (hend : ∀ p, (plain p).map (·.2) = TickAcceptance.endOf allowed body p) (p : Nat) (v : α)
    (e : Nat) (h : plain p = some (v, e)) : p < e ∧ e ≤ body.length := by
  have hvalue := hend p
  rw [h] at hvalue
  exact endOf_bounds hvalue.symm

/-- **Every body, from every position.** The decoder returns, without an access that is out of
range; its readers end in the body, and with `skip_value` they move on. -/
theorem decoders_safe (body : List UInt8) :
    ReaderSafe body (readMapHeader body) ∧ ReaderSafe body (readStrBytes body) ∧
      ReaderSafe body (readInt body) ∧ ReaderSafe body (readF64 body) ∧
      (∀ p, (skipValue body p).Returned ∧ ∀ e, skipValue body p = .value e → p < e) ∧
      (∀ p n, (skipNValues body p n).Returned) ∧ (decodeHeader body).Returned ∧
      ∀ out, ∃ result, decodeTick body out = .value result := by
  refine ⟨readerSafe_of_eq (readMapHeader_eq body) fun p n e h => readMapHeader_bounds h,
    readerSafe_of_eq (readStrBytes_eq body) (ends_of_endOf (TickAcceptance.readStrBytes_end body)),
    readerSafe_of_eq (readInt_eq body) (ends_of_endOf (TickAcceptance.readInt_end body)),
    readerSafe_of_eq (readF64_eq body) (ends_of_endOf (TickAcceptance.readF64_end body)),
    fun p => ⟨⟨_, skipValue_eq body p⟩, fun e h => ?_⟩, fun p n => ⟨_, skipNValues_eq body p n⟩,
    ⟨_, decodeHeader_eq body⟩, fun out => ⟨_, decodeTick_eq body out⟩⟩
  rw [skipValue_eq] at h
  exact skipLevels_mono (ofOption_eq_value.mp h)

end Corsair.Ports.MsgpackSafety
