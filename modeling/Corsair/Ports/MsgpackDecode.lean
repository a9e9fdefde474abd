import Corsair.Verified.MsgPack
import Corsair.Verified.Tagged

/-!
# `corsair_trader::msgpack_decode`

The trader decodes a tick by hand: it reads the map's header, then key after key, and for each
key the value it expects there; a value it does not know it skips.  Positions in the body are
natural numbers; a double is its bit pattern, and a string its bytes, since the decoder takes
them over unchecked.

## Main results

* `skipLevels_eq_walk` — `skip_value` walks by a table.
* `skipValue_eq` — it skips the values in a value by its own calls.
* `skip_value_exact_iff` — when a value and the values in it are skipped exactly.
-/

namespace Corsair.Ports.MsgpackDecode

open Corsair.Verified
open Corsair.Verified.BigEndian
open Corsair.Verified.MsgPack (utf8)
open Corsair.Verified.Tagged (Datum Table WellFormed slice iterate follow walk)

/-! ## Primitive readers

Each takes the body and a position, and returns the value and the position behind it.  The
slice `body.get(p..p + k)?` is `slice body p k`. -/

def readMapHeader (body : List UInt8) (p : Nat) : Option (Nat × Nat) := do
  let b ← body[p]?
  if 0x80 ≤ b ∧ b ≤ 0x8f then return ((b &&& 0x0f).toNat, p + 1)
  else if b = 0xde then
    let bytes ← slice body (p + 1) 2
    return (ofBytes bytes, p + 3)
  else if b = 0xdf then
    let bytes ← slice body (p + 1) 4
    return (ofBytes bytes, p + 5)
  else none

/-- Where the bytes of a string start, and how many there are. -/
def strStart (body : List UInt8) (p : Nat) : Option (Nat × Nat) := do
  let b ← body[p]?
  if 0xa0 ≤ b ∧ b ≤ 0xbf then return (p + 1, (b &&& 0x1f).toNat)
  else if b = 0xd9 then
    let len ← body[p + 1]?
    return (p + 2, len.toNat)
  else if b = 0xda then
    let bs ← slice body (p + 1) 2
    return (p + 3, ofBytes bs)
  else if b = 0xdb then
    let bs ← slice body (p + 1) 4
    return (p + 5, ofBytes bs)
  else none

def readStrBytes (body : List UInt8) (p : Nat) : Option (List UInt8 × Nat) := do
  let (start, len) ← strStart body p
  let bytes ← slice body start len
  return (bytes, start + len)

def readInt (body : List UInt8) (p : Nat) : Option (Int64 × Nat) := do
  let b ← body[p]?
  if b ≤ 0x7f then return (Int64.ofNat b.toNat, p + 1)
  else if 0xe0 ≤ b then return (b.toInt8.toInt64, p + 1)
  else if b = 0xcc then
    let v ← body[p + 1]?
    return (Int64.ofNat v.toNat, p + 2)
  else if b = 0xcd then
    let bs ← slice body (p + 1) 2
    return (Int64.ofNat (ofBytes bs), p + 3)
  else if b = 0xce then
    let bs ← slice body (p + 1) 4
    return (Int64.ofNat (ofBytes bs), p + 5)
  else if b = 0xcf then
    let bs ← slice body (p + 1) 8
    return ((UInt64.ofNat (ofBytes bs)).toInt64, p + 9)
  else if b = 0xd0 then
    let v ← body[p + 1]?
    return (v.toInt8.toInt64, p + 2)
  else if b = 0xd1 then
    let bs ← slice body (p + 1) 2
    return ((UInt16.ofNat (ofBytes bs)).toInt16.toInt64, p + 3)
  else if b = 0xd2 then
    let bs ← slice body (p + 1) 4
    return ((UInt32.ofNat (ofBytes bs)).toInt32.toInt64, p + 5)
  else if b = 0xd3 then
    let bs ← slice body (p + 1) 8
    return ((UInt64.ofNat (ofBytes bs)).toInt64, p + 9)
  else none

/-- A double, as its bits; a float and an integer are converted. -/
def readF64 (body : List UInt8) (p : Nat) : Option (UInt64 × Nat) := do
  let b ← body[p]?
  if b = 0xcb then
    let bs ← slice body (p + 1) 8
    return (UInt64.ofNat (ofBytes bs), p + 9)
  else if b = 0xca then
    let bs ← slice body (p + 1) 4
    return ((Float32.ofBits (UInt32.ofNat (ofBytes bs))).toFloat.toBits, p + 5)
  else
    let (v, e) ← readInt body p
    return (v.toFloat.toBits, e)

/-! ## Skipping a value -/

/-- `skip_value`, for values that lie at most so many levels deep. -/
def skipLevels (body : List UInt8) : Nat → Nat → Option Nat
  | 0, _ => none
  | level + 1, p => do
      let skipN (p n : Nat) := iterate (skipLevels body level) n p
      let b ← body[p]?
      if b = 0xc0 ∨ b = 0xc2 ∨ b = 0xc3 ∨ b ≤ 0x7f ∨ 0xe0 ≤ b then some (p + 1)
      else if b = 0xcc ∨ b = 0xd0 ∨ b = 0xd4 then some (p + 2)
      else if b = 0xcd ∨ b = 0xd1 ∨ b = 0xd5 then some (p + 3)
      else if b = 0xce ∨ b = 0xd2 ∨ b = 0xca ∨ b = 0xd6 then some (p + 5)
      else if b = 0xcf ∨ b = 0xd3 ∨ b = 0xcb ∨ b = 0xd7 then some (p + 9)
      else if b = 0xd8 then some (p + 18)
      else if 0xa0 ≤ b ∧ b ≤ 0xbf then some (p + 1 + (b &&& 0x1f).toNat)
      else if b = 0xd9 ∨ b = 0xc4 then
        let len ← body[p + 1]?
        some (p + 2 + len.toNat)
      else if b = 0xda ∨ b = 0xc5 then
        let bs ← slice body (p + 1) 2
        some (p + 3 + ofBytes bs)
      else if b = 0xdb ∨ b = 0xc6 then
        let bs ← slice body (p + 1) 4
        some (p + 5 + ofBytes bs)
      else if 0x90 ≤ b ∧ b ≤ 0x9f then skipN (p + 1) (b &&& 0x0f).toNat
      else if b = 0xdc then
        let bs ← slice body (p + 1) 2
        skipN (p + 3) (ofBytes bs)
      else if b = 0xdd then
        let bs ← slice body (p + 1) 4
        skipN (p + 5) (ofBytes bs)
      else if 0x80 ≤ b ∧ b ≤ 0x8f then skipN (p + 1) ((b &&& 0x0f).toNat * 2)
      else if b = 0xde then
        let bs ← slice body (p + 1) 2
        skipN (p + 3) (ofBytes bs * 2)
      else if b = 0xdf then
        let bs ← slice body (p + 1) 4
        skipN (p + 5) (ofBytes bs * 2)
      else none

/-- `skip_value`; each level takes a byte of the body. -/
def skipValue (body : List UInt8) (p : Nat) : Option Nat := skipLevels body body.length p

/-- `skip_n_values`. -/
def skipNValues (body : List UInt8) (p n : Nat) : Option Nat := iterate (skipValue body) n p

/-! ## The header of a message -/

/-- The loop of `decode_header` over `n` pairs. -/
def headerLoop (body : List UInt8) :
    Nat → Nat → Option (List UInt8) → Option UInt64 →
      Option (Option (List UInt8) × Option UInt64)
  | 0, _, typeBytes, tsNs => some (typeBytes, tsNs)
  | n + 1, p, typeBytes, tsNs => do
      let (key, p) ← readStrBytes body p
      if key.length = 4 ∧ key = utf8 "type" then
        let (s, e) ← readStrBytes body p
        headerLoop body n e (some s) tsNs
      else if key.length = 5 ∧ key = utf8 "ts_ns" then
        if (← body[p]?) = 0xc0 then headerLoop body n (p + 1) typeBytes tsNs
        else
          let (v, e) ← readInt body p
          headerLoop body n e typeBytes (some v.toUInt64)
      else
        let e ← skipValue body p
        headerLoop body n e typeBytes tsNs

/-- `decode_header`. -/
def decodeHeader (body : List UInt8) : Option (List UInt8 × Option UInt64) := do
  let (nPairs, p) ← readMapHeader body 0
  let (typeBytes, tsNs) ← headerLoop body nPairs p none none
  let t ← typeBytes
  return (t, tsNs)

/-! ## A tick -/

/-- `TickMsg`, as the decoder fills it. -/
structure TickMsg where
  strike : UInt64
  expiry : List UInt8
  right : List UInt8
  bid : Option UInt64
  ask : Option UInt64
  bidSize : Option Int32
  askSize : Option Int32
  tsNs : Option UInt64
  brokerRecvNs : Option UInt64
  depthBid0 : Option UInt64
  depthBid1 : Option UInt64
  depthAsk0 : Option UInt64
  depthAsk1 : Option UInt64
  deriving DecidableEq, Repr

/-- A value that may be nil; a nil takes one byte. -/
def assignOpt {α : Type} (body : List UInt8) (p : Nat) (read : Option (α × Nat)) :
    Option (Option α × Nat) := do
  if (← body[p]?) = 0xc0 then return (none, p + 1)
  else
    let (v, e) ← read
    return (some v, e)

def assignOptF64 (body : List UInt8) (p : Nat) : Option (Option UInt64 × Nat) :=
  assignOpt body p (readF64 body p)

def assignOptU64 (body : List UInt8) (p : Nat) : Option (Option UInt64 × Nat) :=
  assignOpt body p ((readInt body p).map fun (v, e) => (v.toUInt64, e))

def assignOptI32 (body : List UInt8) (p : Nat) : Option (Option Int32 × Nat) :=
  assignOpt body p ((readInt body p).map fun (v, e) => (v.toInt32, e))

def assignString (body : List UInt8) (p : Nat) : Option (List UInt8 × Nat) := readStrBytes body p

/-- The value at `p` under the key: the tick with its field, and the position behind the
value. -/
def assignField (body : List UInt8) (p : Nat) (key : List UInt8) (out : TickMsg) :
    Option (TickMsg × Nat) :=
  let skipped := (skipValue body p).map fun e => (out, e)
  match key.length with
  | 3 =>
      if key = utf8 "bid" then
        (assignOptF64 body p).map fun (v, e) => ({ out with bid := v }, e)
      else if key = utf8 "ask" then
        (assignOptF64 body p).map fun (v, e) => ({ out with ask := v }, e)
      else skipped
  | 5 =>
      if key = utf8 "ts_ns" then
        (assignOptU64 body p).map fun (v, e) => ({ out with tsNs := v }, e)
      else if key = utf8 "right" then
        (assignString body p).map fun (s, e) => ({ out with right := s }, e)
      else skipped
  | 6 =>
      if key = utf8 "strike" then
        (readF64 body p).map fun (v, e) => ({ out with strike := v }, e)
      else if key = utf8 "expiry" then
        (assignString body p).map fun (s, e) => ({ out with expiry := s }, e)
      else skipped
  | 8 =>
      if key = utf8 "bid_size" then
        (assignOptI32 body p).map fun (v, e) => ({ out with bidSize := v }, e)
      else if key = utf8 "ask_size" then
        (assignOptI32 body p).map fun (v, e) => ({ out with askSize := v }, e)
      else skipped
  | 11 =>
      if key = utf8 "depth_bid_0" then
        (assignOptF64 body p).map fun (v, e) => ({ out with depthBid0 := v }, e)
      else if key = utf8 "depth_bid_1" then
        (assignOptF64 body p).map fun (v, e) => ({ out with depthBid1 := v }, e)
      else if key = utf8 "depth_ask_0" then
        (assignOptF64 body p).map fun (v, e) => ({ out with depthAsk0 := v }, e)
      else if key = utf8 "depth_ask_1" then
        (assignOptF64 body p).map fun (v, e) => ({ out with depthAsk1 := v }, e)
      else skipped
  | 14 =>
      if key = utf8 "broker_recv_ns" then
        (assignOptU64 body p).map fun (v, e) => ({ out with brokerRecvNs := v }, e)
      else skipped
  | _ => skipped

/-- The loop of `decode_tick` over `n` pairs, and the tick that it leaves. -/
def tickLoop (body : List UInt8) : Nat → Nat → TickMsg → Bool × TickMsg
  | 0, _, out => (true, out)
  | n + 1, p, out =>
      match readStrBytes body p with
      | none => (false, out)
      | some (key, p) =>
          match assignField body p key out with
          | none => (false, out)
          | some (out, e) => tickLoop body n e out

/-- The tick with its optional fields reset. -/
def TickMsg.reset (out : TickMsg) : TickMsg :=
  { out with
    bid := none, ask := none, bidSize := none, askSize := none, tsNs := none,
    brokerRecvNs := none, depthBid0 := none, depthBid1 := none, depthAsk0 := none,
    depthAsk1 := none }

/-- `decode_tick`: whether it succeeds, and the tick that it leaves in `out`. -/
def decodeTick (body : List UInt8) (out : TickMsg) : Bool × TickMsg :=
  match readMapHeader body 0 with
  | none => (false, out)
  | some (nPairs, p) => tickLoop body nPairs p out.reset

/-! ## Where a value ends -/

/-- What `skip_value` takes each tag to be followed by. -/
def skipTable : Table := fun b =>
  if b = 0xc0 ∨ b = 0xc2 ∨ b = 0xc3 ∨ b ≤ 0x7f ∨ 0xe0 ≤ b then .atom 0
  else if b = 0xcc ∨ b = 0xd0 ∨ b = 0xd4 then .atom 1
  else if b = 0xcd ∨ b = 0xd1 ∨ b = 0xd5 then .atom 2
  else if b = 0xce ∨ b = 0xd2 ∨ b = 0xca ∨ b = 0xd6 then .atom 4
  else if b = 0xcf ∨ b = 0xd3 ∨ b = 0xcb ∨ b = 0xd7 then .atom 8
  else if b = 0xd8 then .atom 17
  else if 0xa0 ≤ b ∧ b ≤ 0xbf then .atom (b &&& 0x1f).toNat
  else if b = 0xd9 ∨ b = 0xc4 then .sized 1 0
  else if b = 0xda ∨ b = 0xc5 then .sized 2 0
  else if b = 0xdb ∨ b = 0xc6 then .sized 4 0
  else if 0x90 ≤ b ∧ b ≤ 0x9f then .items (b &&& 0x0f).toNat
  else if b = 0xdc then .sizedItems 2 1
  else if b = 0xdd then .sizedItems 4 1
  else if 0x80 ≤ b ∧ b ≤ 0x8f then .items ((b &&& 0x0f).toNat * 2)
  else if b = 0xde then .sizedItems 2 2
  else if b = 0xdf then .sizedItems 4 2
  else .reserved

/-- `skip_value` walks by its table. -/
theorem skipLevels_eq_walk (body : List UInt8) (level p : Nat) :
    skipLevels body level p = walk skipTable body level p := by
  induction level generalizing p with
  | zero => rfl
  | succ level ih =>
      have hskip : skipLevels body level = walk skipTable body level := funext ih
      have hbyte : (body[p + 1]?.bind fun len => some (p + 2 + len.toNat)) =
          follow (walk skipTable body level) body p (.sized 1 0) := by
        rw [follow, Tagged.slice_one]
        cases body[p + 1]? with
        | none => rfl
        | some len => simp [ofBytes]
      have hlength (k : Nat) : ((slice body (p + 1) k).bind fun bs =>
          some (p + 1 + k + ofBytes bs)) =
          follow (walk skipTable body level) body p (.sized k 0) := by
        simp only [follow, Option.map_eq_bind, Nat.zero_add]
        rfl
      have hcount (k : Nat) : ((slice body (p + 1) k).bind fun bs =>
          iterate (walk skipTable body level) (ofBytes bs) (p + 1 + k)) =
          follow (walk skipTable body level) body p (.sizedItems k 1) := by
        simp only [follow, Nat.mul_one]
      rw [skipLevels, walk, hskip]
      cases body[p]? with
      | none => rfl
      | some b =>
          simp only [Option.bind_eq_bind, Option.bind_some, skipTable,
            apply_ite (follow (walk skipTable body level) body p)]
          repeat' refine ite_congr rfl (fun _ => ?_) (fun _ => ?_)
          all_goals
            first
            | rfl
            | exact hbyte
            | exact hlength 2
            | exact hlength 4
            | exact hcount 2
            | exact hcount 4

/-- **`skip_value` by its own calls**: the values inside a value are skipped by `skip_value`
again, so the levels that bound the recursion are enough. -/
theorem skipValue_eq (body : List UInt8) (p : Nat) :
    skipValue body p =
      body[p]?.bind fun tag => Tagged.follow (skipValue body) body p (skipTable tag) := by
  have hskip : skipValue body = walk skipTable body body.length :=
    funext fun q => skipLevels_eq_walk body body.length q
  rw [hskip]
  exact Tagged.walk_eq (by omega)

/-- The extensions but the one of sixteen bytes. -/
def isExt (tag : UInt8) : Bool :=
  tag ∈ ([0xc7, 0xc8, 0xc9, 0xd4, 0xd5, 0xd6, 0xd7] : List UInt8)

/-- On the other tags `skip_value` agrees with the format. -/
theorem skipTable_eq {tag : UInt8} (h : isExt tag = false) :
    skipTable tag = Tagged.messagePack tag := by
  have hall : ∀ tag : UInt8, isExt tag = false → skipTable tag = Tagged.messagePack tag :=
    Tagged.forall_tag (by decide +kernel)
  exact hall tag h

/-- A value without such extensions is skipped exactly. -/
theorem skipValue_of_reads {v : Datum} (hwf : WellFormed Tagged.messagePack v)
    (hext : ∀ w ∈ v.parts, isExt w.tag = false) {body : List UInt8} {p : Nat}
    (h : Tagged.Reads body p v) : skipValue body p = some (p + v.bytes.length) := by
  have hskip : WellFormed skipTable v := hwf.of_agree fun w hw => skipTable_eq (hext w hw)
  rw [skipValue, skipLevels_eq_walk]
  exact Tagged.walk_of_reads hskip h (by omega)

/-- The tables on the extensions: a fixed one is taken to be a byte shorter than it is, and one
with a length is not known. -/
theorem skipTable_ext {tag : UInt8} (h : isExt tag = true) :
    skipTable tag = .reserved ∨
      ∃ width, skipTable tag = .atom width ∧ Tagged.messagePack tag = .atom (width + 1) := by
  simp only [isExt, List.mem_cons, List.not_mem_nil, or_false, decide_eq_true_eq] at h
  rcases h with rfl | rfl | rfl | rfl | rfl | rfl | rfl
  · exact .inl (by decide)
  · exact .inl (by decide)
  · exact .inl (by decide)
  · exact .inr ⟨1, by decide, by decide⟩
  · exact .inr ⟨2, by decide, by decide⟩
  · exact .inr ⟨4, by decide, by decide⟩
  · exact .inr ⟨8, by decide, by decide⟩

/-- An extension is not skipped exactly. -/
theorem skipValue_ext {v : Datum} (hwf : WellFormed Tagged.messagePack v)
    (hext : isExt v.tag = true) : skipValue v.bytes 0 ≠ some v.bytes.length := by
  intro hskip
  rw [skipValue, skipLevels_eq_walk] at hskip
  obtain ⟨u, hu, hread, hend⟩ := Tagged.reads_of_walk hskip
  have htag : u.tag = v.tag :=
    Option.some.inj (hread.tag.symm.trans (Tagged.Datum.getElem?_bytes_zero v))
  have hfits := hu u (Tagged.Datum.self_mem_parts u)
  rw [← htag] at hext
  rcases skipTable_ext hext with hreserved | ⟨width, hskipped, hformat⟩
  · exact Tagged.not_fits_reserved hreserved hfits
  · have hshort := Tagged.length_bytes_of_atom hfits hskipped
    rw [htag] at hformat
    have hlong := Tagged.length_bytes_of_atom (hwf v (Tagged.Datum.self_mem_parts v)) hformat
    omega

/-- **`skip_value` is exact** on a value and on all values in it, whatever stands around them,
just if none of them is an extension, but for those of sixteen bytes. -/
theorem skip_value_exact_iff {v : Datum} (hwf : WellFormed Tagged.messagePack v) :
    (∀ w ∈ v.parts, ∀ pre suf : List UInt8,
        skipValue (pre ++ (w.bytes ++ suf)) pre.length = some (pre.length + w.bytes.length)) ↔
      ∀ w ∈ v.parts, isExt w.tag = false := by
  constructor
  · intro hexact w hw
    have hpart : WellFormed Tagged.messagePack w := fun u hu =>
      hwf u (Tagged.Datum.parts_trans hu hw)
    have hskip := hexact w hw [] []
    rw [List.nil_append, List.append_nil, List.length_nil, Nat.zero_add] at hskip
    by_contra hext
    exact skipValue_ext hpart (by simpa using hext) hskip
  · intro hext w hw pre suf
    have hpart : WellFormed Tagged.messagePack w := fun u hu =>
      hwf u (Tagged.Datum.parts_trans hu hw)
    exact skipValue_of_reads hpart (fun u hu => hext u (Tagged.Datum.parts_trans hu hw))
      (Tagged.reads_of_append pre w suf)

/-- `[nil, {7: "ab"}, 3.5, bin 8 of two bytes, ext of sixteen bytes]`. -/
def sampleValue : Datum :=
  .node 0x95 [] [
    .leaf 0xc0 [] [],
    .node 0x81 [] [.leaf 0x07 [] [], .leaf 0xa2 [] [0x61, 0x62]],
    .leaf 0xcb [] [0x40, 0x0c, 0, 0, 0, 0, 0, 0],
    .leaf 0xc4 [2] [1, 2],
    .leaf 0xd8 [] (List.replicate 17 5)]

theorem skip_value_exact_sample :
    (∀ w ∈ sampleValue.parts, ∀ pre suf : List UInt8,
        skipValue (pre ++ (w.bytes ++ suf)) pre.length = some (pre.length + w.bytes.length)) ↔
      ∀ w ∈ sampleValue.parts, isExt w.tag = false :=
  skip_value_exact_iff (by decide +kernel)

/-- An extension of one byte: three bytes, of which two are skipped. -/
theorem skip_value_not_exact :
    ¬ ∀ v : Datum, WellFormed Tagged.messagePack v → ∀ pre suf : List UInt8,
      skipValue (pre ++ (v.bytes ++ suf)) pre.length = some (pre.length + v.bytes.length) := by
  intro hall
  have hskip := hall (.leaf 0xd4 [] [1, 7]) (by decide +kernel) [] []
  exact absurd hskip (by decide +kernel)

end Corsair.Ports.MsgpackDecode
