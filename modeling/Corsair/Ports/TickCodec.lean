import Corsair.Ports.TickAcceptance

/-!
# `corsair_broker::ipc::encode_tick_into` and the trader's decoder

The broker writes a tick as a map of ten fields and up to four of depth, each behind its name.
The trader's `decode_tick` and `decode_header` read it back.

`fields` lists what is written: for each field the name, the value as the format has it, and
what the two decoders take from it.

## Main results

* `encodeTickInto_eq` — the broker writes a map with these fields.
* `tickLoop_fields`, `headerLoop_fields` — both decoders read a map of such fields.
* `tick_codec_round_trip` — every tick is read back.
-/

namespace Corsair.Ports.TickCodec

open Corsair.Verified
open Corsair.Verified.BigEndian
open Corsair.Verified.MsgPack (utf8)
open Corsair.Verified.Tagged
open Corsair.Ports.MsgpackDecode
open Corsair.Ports.TickAcceptance

/-! ## The encoder -/

/-- `TickEvent`; doubles by their bits. -/
structure TickEvent where
  ty : String
  strike : UInt64
  expiry : String
  right : String
  bid : Option UInt64
  ask : Option UInt64
  bidSize : Option Int32
  askSize : Option Int32
  tsNs : UInt64
  brokerRecvNs : UInt64
  depthBid0 : Option UInt64
  depthBid1 : Option UInt64
  depthAsk0 : Option UInt64
  depthAsk1 : Option UInt64
  deriving DecidableEq, Repr

def writeFixstr (buf : List UInt8) (s : String) : List UInt8 :=
  buf ++ [0xa0 ||| UInt8.ofNat (utf8 s).length] ++ utf8 s

def writeStr (buf : List UInt8) (s : String) : List UInt8 :=
  let bytes := utf8 s
  let buf :=
    if bytes.length ≤ 31 then buf ++ [0xa0 ||| UInt8.ofNat bytes.length]
    else if bytes.length ≤ 255 then buf ++ [0xd9] ++ [UInt8.ofNat bytes.length]
    else if bytes.length ≤ 65535 then buf ++ [0xda] ++ toBytes 2 bytes.length
    else buf ++ [0xdb] ++ toBytes 4 bytes.length
  buf ++ bytes

def writeStrKv (buf : List UInt8) (key value : String) : List UInt8 :=
  writeStr (writeFixstr buf key) value

def writeF64Kv (buf : List UInt8) (key : String) (value : UInt64) : List UInt8 :=
  writeFixstr buf key ++ [0xcb] ++ toBytes 8 value.toNat

def writeOptF64Kv (buf : List UInt8) (key : String) (value : Option UInt64) : List UInt8 :=
  let buf := writeFixstr buf key
  match value with
  | some v => buf ++ [0xcb] ++ toBytes 8 v.toNat
  | none => buf ++ [0xc0]

def writeOptI32Kv (buf : List UInt8) (key : String) (value : Option Int32) : List UInt8 :=
  let buf := writeFixstr buf key
  match value with
  | some v => buf ++ [0xd2] ++ toBytes 4 v.toUInt32.toNat
  | none => buf ++ [0xc0]

def writeU64Kv (buf : List UInt8) (key : String) (value : UInt64) : List UInt8 :=
  writeFixstr buf key ++ [0xcf] ++ toBytes 8 value.toNat

/-- `n_fields`. -/
def nFields (ev : TickEvent) : UInt8 :=
  let n : UInt8 := 10
  let n := if ev.depthBid0.isSome then n + 1 else n
  let n := if ev.depthBid1.isSome then n + 1 else n
  let n := if ev.depthAsk0.isSome then n + 1 else n
  if ev.depthAsk1.isSome then n + 1 else n

/-- A field that is written only where there is a value. -/
def writeSomeF64Kv (buf : List UInt8) (key : String) : Option UInt64 → List UInt8
  | some v => writeF64Kv buf key v
  | none => buf

/-- `encode_tick_into`. -/
def encodeTickInto (ev : TickEvent) (buf : List UInt8) : List UInt8 :=
  let buf := buf ++ [0x80 ||| nFields ev]
  let buf := writeStrKv buf "type" ev.ty
  let buf := writeF64Kv buf "strike" ev.strike
  let buf := writeStrKv buf "expiry" ev.expiry
  let buf := writeStrKv buf "right" ev.right
  let buf := writeOptF64Kv buf "bid" ev.bid
  let buf := writeOptF64Kv buf "ask" ev.ask
  let buf := writeOptI32Kv buf "bid_size" ev.bidSize
  let buf := writeOptI32Kv buf "ask_size" ev.askSize
  let buf := writeU64Kv buf "ts_ns" ev.tsNs
  let buf := writeU64Kv buf "broker_recv_ns" ev.brokerRecvNs
  let buf := writeSomeF64Kv buf "depth_bid_0" ev.depthBid0
  let buf := writeSomeF64Kv buf "depth_bid_1" ev.depthBid1
  let buf := writeSomeF64Kv buf "depth_ask_0" ev.depthAsk0
  writeSomeF64Kv buf "depth_ask_1" ev.depthAsk1

/-! ## The values that are written -/

def strDatum (s : String) : Datum :=
  let n := (utf8 s).length
  if n ≤ 31 then .leaf (0xa0 ||| UInt8.ofNat n) [] (utf8 s)
  else if n ≤ 255 then .leaf 0xd9 [UInt8.ofNat n] (utf8 s)
  else if n ≤ 65535 then .leaf 0xda (toBytes 2 n) (utf8 s)
  else .leaf 0xdb (toBytes 4 n) (utf8 s)

def f64Datum (bits : UInt64) : Datum := .leaf 0xcb [] (toBytes 8 bits.toNat)

def i32Datum (v : Int32) : Datum := .leaf 0xd2 [] (toBytes 4 v.toUInt32.toNat)

def u64Datum (v : UInt64) : Datum := .leaf 0xcf [] (toBytes 8 v.toNat)

def nilDatum : Datum := .leaf 0xc0 [] []

theorem writeStr_eq (buf : List UInt8) (s : String) :
    writeStr buf s = buf ++ (strDatum s).bytes := by
  unfold writeStr strDatum
  simp only
  split_ifs <;> simp [Datum.bytes]

theorem writeFixstr_eq (buf : List UInt8) {s : String} (h : (utf8 s).length ≤ 31) :
    writeFixstr buf s = buf ++ (strDatum s).bytes := by
  simp [writeFixstr, strDatum, h, Datum.bytes]

/-- The tag of a short string. -/
theorem fixstr_tag {n : Nat} (h : n ≤ 31) :
    isStr (0xa0 ||| UInt8.ofNat n) = true ∧ messagePack (0xa0 ||| UInt8.ofNat n) = .atom n := by
  have hall : ∀ n : Fin 32, isStr (0xa0 ||| UInt8.ofNat n) = true ∧
      messagePack (0xa0 ||| UInt8.ofNat n) = .atom n := by
    decide +kernel
  exact hall ⟨n, by omega⟩

/-- A string as the format has it. -/
theorem strDatum_spec {s : String} (h : (utf8 s).length < 2 ^ 32) :
    WellFormed messagePack (strDatum s) ∧ isStr (strDatum s).tag = true ∧
      (strDatum s).payload = utf8 s := by
  unfold strDatum
  simp only
  split_ifs with h0 h1 h2
  · obtain ⟨hstr, hshape⟩ := fixstr_tag h0
    exact ⟨wellFormed_leaf (fits_leaf.mpr (.inl ⟨hshape, rfl⟩)), hstr, rfl⟩
  · have hvalue : ofBytes [UInt8.ofNat (utf8 s).length] = (utf8 s).length := by
      have hbyte := ofBytes_toBytes_of_lt (show (utf8 s).length < 256 ^ 1 by omega)
      simpa [toBytes] using hbyte
    exact ⟨wellFormed_leaf (fits_leaf.mpr (.inr ⟨0, rfl, by rw [hvalue, Nat.zero_add]⟩)), rfl, rfl⟩
  · have hvalue := ofBytes_toBytes_of_lt (show (utf8 s).length < 256 ^ 2 by omega)
    exact ⟨wellFormed_leaf (fits_leaf.mpr (.inr ⟨0, rfl, by rw [hvalue, Nat.zero_add]⟩)), rfl, rfl⟩
  · have hvalue := ofBytes_toBytes_of_lt (show (utf8 s).length < 256 ^ 4 by omega)
    exact ⟨wellFormed_leaf (fits_leaf.mpr (.inr ⟨0, rfl, by rw [hvalue, Nat.zero_add]⟩)), rfl, rfl⟩

theorem f64Datum_wellFormed (bits : UInt64) : WellFormed messagePack (f64Datum bits) :=
  wellFormed_leaf (fits_leaf.mpr (.inl ⟨by rw [toBytes_length]; rfl, rfl⟩))

theorem i32Datum_wellFormed (v : Int32) : WellFormed messagePack (i32Datum v) :=
  wellFormed_leaf (fits_leaf.mpr (.inl ⟨by rw [toBytes_length]; rfl, rfl⟩))

theorem u64Datum_wellFormed (v : UInt64) : WellFormed messagePack (u64Datum v) :=
  wellFormed_leaf (fits_leaf.mpr (.inl ⟨by rw [toBytes_length]; rfl, rfl⟩))

theorem nilDatum_wellFormed : WellFormed messagePack nilDatum :=
  wellFormed_leaf (fits_leaf.mpr (.inl ⟨rfl, rfl⟩))

/-! ## The values are read back -/

/-- A value stands in the body whole. -/
def Holds (body : List UInt8) (p : Nat) (v : Datum) : Prop :=
  Reads body p v ∧ p + v.bytes.length ≤ body.length

theorem readStrBytes_strDatum {body : List UInt8} {p : Nat} {s : String}
    (hs : (utf8 s).length < 2 ^ 32) (h : Holds body p (strDatum s)) :
    readStrBytes body p = some (utf8 s, p + (strDatum s).bytes.length) := by
  obtain ⟨hwf, hstr, hpayload⟩ := strDatum_spec hs
  rw [readStrBytes_of_reads hwf hstr h.1 h.2, hpayload]

theorem readF64_f64Datum {body : List UInt8} {p : Nat} {bits : UInt64}
    (h : Holds body p (f64Datum bits)) :
    readF64 body p = some (bits, p + (f64Datum bits).bytes.length) := by
  obtain ⟨hslice, hend⟩ := slice_of_atom (f64Datum_wellFormed bits _ (Datum.self_mem_parts _))
    (show messagePack 0xcb = .atom 8 from rfl) h.1 h.2
  have hvalue : UInt64.ofNat (ofBytes (toBytes 8 bits.toNat)) = bits := by
    rw [ofBytes_toBytes_of_lt (show bits.toNat < 256 ^ 8 from bits.toNat_lt), UInt64.ofNat_toNat]
  have htag : body[p]? = some 0xcb := h.1.tag
  have hpayload : slice body (p + 1) 8 = some (toBytes 8 bits.toNat) := hslice
  simp [readF64, htag, hpayload, hvalue, hend, Nat.add_assoc]

theorem readInt_i32Datum {body : List UInt8} {p : Nat} {v : Int32} (h : Holds body p (i32Datum v)) :
    readInt body p = some (v.toInt64, p + (i32Datum v).bytes.length) := by
  obtain ⟨hslice, hend⟩ := slice_of_atom (i32Datum_wellFormed v _ (Datum.self_mem_parts _))
    (show messagePack 0xd2 = .atom 4 from rfl) h.1 h.2
  have hvalue : (UInt32.ofNat (ofBytes (toBytes 4 v.toUInt32.toNat))).toInt32 = v := by
    rw [ofBytes_toBytes_of_lt (show v.toUInt32.toNat < 256 ^ 4 from v.toUInt32.toNat_lt),
      UInt32.ofNat_toNat, Int32.toInt32_toUInt32]
  have htag : body[p]? = some 0xd2 := h.1.tag
  have hpayload : slice body (p + 1) 4 = some (toBytes 4 v.toUInt32.toNat) := hslice
  have hread : readInt body p =
      some ((UInt32.ofNat (ofBytes (toBytes 4 v.toUInt32.toNat))).toInt32.toInt64, p + 5) := by
    simp [readInt, htag, hpayload]
  rw [hread, hvalue, hend]

theorem readInt_u64Datum {body : List UInt8} {p : Nat} {v : UInt64}
    (h : Holds body p (u64Datum v)) :
    readInt body p = some (v.toInt64, p + (u64Datum v).bytes.length) := by
  obtain ⟨hslice, hend⟩ := slice_of_atom (u64Datum_wellFormed v _ (Datum.self_mem_parts _))
    (show messagePack 0xcf = .atom 8 from rfl) h.1 h.2
  have hvalue : UInt64.ofNat (ofBytes (toBytes 8 v.toNat)) = v := by
    rw [ofBytes_toBytes_of_lt (show v.toNat < 256 ^ 8 from v.toNat_lt), UInt64.ofNat_toNat]
  have htag : body[p]? = some 0xcf := h.1.tag
  have hpayload : slice body (p + 1) 8 = some (toBytes 8 v.toNat) := hslice
  have hread : readInt body p =
      some ((UInt64.ofNat (ofBytes (toBytes 8 v.toNat))).toInt64, p + 9) := by
    simp [readInt, htag, hpayload]
  rw [hread, hvalue, hend]

/-- A value that is not nil is read as one, and a nil is none. -/
theorem assignOpt_some {α : Type} {body : List UInt8} {p e : Nat} {v : Datum} {a : α}
    {read : Option (α × Nat)} (h : Holds body p v) (htag : v.tag ≠ 0xc0)
    (hread : read = some (a, e)) : assignOpt body p read = some (some a, e) := by
  simp [assignOpt, h.1.tag, htag, hread]

theorem assignOpt_nil {α : Type} {body : List UInt8} {p : Nat} {read : Option (α × Nat)}
    (h : Holds body p nilDatum) :
    assignOpt body p read = some (none, p + nilDatum.bytes.length) := by
  have htag : body[p]? = some 0xc0 := h.1.tag
  simp [assignOpt, htag, nilDatum, Datum.bytes]

/-- A value that may be missing. -/
def optDatum {α : Type} (datum : α → Datum) : Option α → Datum
  | some v => datum v
  | none => nilDatum

theorem assignOptF64_optDatum {body : List UInt8} {p : Nat} {v : Option UInt64}
    (h : Holds body p (optDatum f64Datum v)) :
    assignOptF64 body p = some (v, p + (optDatum f64Datum v).bytes.length) := by
  cases v with
  | none => exact assignOpt_nil h
  | some v => exact assignOpt_some h (by simp [optDatum, f64Datum, Datum.tag]) (readF64_f64Datum h)

theorem assignOptI32_optDatum {body : List UInt8} {p : Nat} {v : Option Int32}
    (h : Holds body p (optDatum i32Datum v)) :
    assignOptI32 body p = some (v, p + (optDatum i32Datum v).bytes.length) := by
  cases v with
  | none => exact assignOpt_nil h
  | some v =>
      refine assignOpt_some h (by simp [optDatum, i32Datum, Datum.tag]) ?_
      simp only [readInt_i32Datum h, Option.map_some, Int32.toInt32_toInt64]
      rfl

/-- A `u64` goes through an `i64`. -/
theorem assignOptU64_u64Datum {body : List UInt8} {p : Nat} {v : UInt64}
    (h : Holds body p (u64Datum v)) :
    assignOptU64 body p = some (some v, p + (u64Datum v).bytes.length) := by
  refine assignOpt_some h (by simp [u64Datum, Datum.tag]) ?_
  simp only [readInt_u64Datum h, Option.map_some, UInt64.toUInt64_toInt64]

/-! ## The fields -/

/-- A field as it is written, and what the two decoders take from it. -/
structure Field where
  key : String
  value : Datum
  assign : TickMsg → TickMsg
  header : Option (List UInt8) × Option UInt64 → Option (List UInt8) × Option UInt64

/-- The pairs of the map. -/
def elements : List Field → List Datum
  | [] => []
  | f :: fs => strDatum f.key :: f.value :: elements fs

/-- A field that is written only where there is a value. -/
def someField (key : String) (assign : Option UInt64 → TickMsg → TickMsg) :
    Option UInt64 → List Field
  | some v => [⟨key, f64Datum v, assign (some v), id⟩]
  | none => []

/-- The fields of a tick, in the order in which they are written. -/
def fields (ev : TickEvent) : List Field :=
  [⟨"type", strDatum ev.ty, id, fun h => (some (utf8 ev.ty), h.2)⟩,
   ⟨"strike", f64Datum ev.strike, fun out => { out with strike := ev.strike }, id⟩,
   ⟨"expiry", strDatum ev.expiry, fun out => { out with expiry := utf8 ev.expiry }, id⟩,
   ⟨"right", strDatum ev.right, fun out => { out with right := utf8 ev.right }, id⟩,
   ⟨"bid", optDatum f64Datum ev.bid, fun out => { out with bid := ev.bid }, id⟩,
   ⟨"ask", optDatum f64Datum ev.ask, fun out => { out with ask := ev.ask }, id⟩,
   ⟨"bid_size", optDatum i32Datum ev.bidSize, fun out => { out with bidSize := ev.bidSize }, id⟩,
   ⟨"ask_size", optDatum i32Datum ev.askSize, fun out => { out with askSize := ev.askSize }, id⟩,
   ⟨"ts_ns", u64Datum ev.tsNs, fun out => { out with tsNs := some ev.tsNs },
    fun h => (h.1, some ev.tsNs)⟩,
   ⟨"broker_recv_ns", u64Datum ev.brokerRecvNs,
    fun out => { out with brokerRecvNs := some ev.brokerRecvNs }, id⟩] ++
  someField "depth_bid_0" (fun v out => { out with depthBid0 := v }) ev.depthBid0 ++
  someField "depth_bid_1" (fun v out => { out with depthBid1 := v }) ev.depthBid1 ++
  someField "depth_ask_0" (fun v out => { out with depthAsk0 := v }) ev.depthAsk0 ++
  someField "depth_ask_1" (fun v out => { out with depthAsk1 := v }) ev.depthAsk1

/-- The map of a tick. -/
def tickDatum (ev : TickEvent) : Datum := .node (0x80 ||| nFields ev) [] (elements (fields ev))

theorem elements_append (fs gs : List Field) :
    elements (fs ++ gs) = elements fs ++ elements gs := by
  induction fs with
  | nil => rfl
  | cons f fs ih => simp [elements, ih]

theorem bytesAll_append (vs ws : List Datum) :
    Datum.bytesAll (vs ++ ws) = Datum.bytesAll vs ++ Datum.bytesAll ws := by
  induction vs with
  | nil => rfl
  | cons v vs ih => simp [Datum.bytesAll, ih]

/-- The bytes of fields. -/
def written (fs : List Field) : List UInt8 := Datum.bytesAll (elements fs)

theorem written_append (fs gs : List Field) : written (fs ++ gs) = written fs ++ written gs := by
  rw [written, elements_append, bytesAll_append]
  rfl

theorem written_cons (f : Field) (fs : List Field) :
    written (f :: fs) = (strDatum f.key).bytes ++ (f.value.bytes ++ written fs) := rfl

theorem writeStrKv_eq (buf : List UInt8) {key : String} (hkey : (utf8 key).length ≤ 31)
    (value : String) :
    writeStrKv buf key value = buf ++ ((strDatum key).bytes ++ (strDatum value).bytes) := by
  rw [writeStrKv, writeStr_eq, writeFixstr_eq buf hkey, List.append_assoc]

theorem writeF64Kv_eq (buf : List UInt8) {key : String} (hkey : (utf8 key).length ≤ 31)
    (value : UInt64) :
    writeF64Kv buf key value = buf ++ ((strDatum key).bytes ++ (f64Datum value).bytes) := by
  simp [writeF64Kv, writeFixstr_eq buf hkey, f64Datum, Datum.bytes]

theorem writeOptF64Kv_eq (buf : List UInt8) {key : String} (hkey : (utf8 key).length ≤ 31)
    (value : Option UInt64) :
    writeOptF64Kv buf key value =
      buf ++ ((strDatum key).bytes ++ (optDatum f64Datum value).bytes) := by
  cases value <;>
    simp [writeOptF64Kv, writeFixstr_eq buf hkey, optDatum, f64Datum, nilDatum, Datum.bytes]

theorem writeOptI32Kv_eq (buf : List UInt8) {key : String} (hkey : (utf8 key).length ≤ 31)
    (value : Option Int32) :
    writeOptI32Kv buf key value =
      buf ++ ((strDatum key).bytes ++ (optDatum i32Datum value).bytes) := by
  cases value <;>
    simp [writeOptI32Kv, writeFixstr_eq buf hkey, optDatum, i32Datum, nilDatum, Datum.bytes]

theorem writeU64Kv_eq (buf : List UInt8) {key : String} (hkey : (utf8 key).length ≤ 31)
    (value : UInt64) :
    writeU64Kv buf key value = buf ++ ((strDatum key).bytes ++ (u64Datum value).bytes) := by
  simp [writeU64Kv, writeFixstr_eq buf hkey, u64Datum, Datum.bytes]

theorem writeSomeF64Kv_eq (buf : List UInt8) {key : String} (hkey : (utf8 key).length ≤ 31)
    (assign : Option UInt64 → TickMsg → TickMsg) (v : Option UInt64) :
    writeSomeF64Kv buf key v = buf ++ written (someField key assign v) := by
  cases v with
  | none => exact (List.append_nil buf).symm
  | some v =>
      rw [writeSomeF64Kv, writeF64Kv_eq buf hkey, someField, written_cons, written, elements,
        Datum.bytesAll, List.append_nil]

theorem length_type : (utf8 "type").length = 4 := by decide +kernel

/-- **The broker writes a map with these fields.** -/
theorem encodeTickInto_eq (ev : TickEvent) (buf : List UInt8) :
    encodeTickInto ev buf = buf ++ (tickDatum ev).bytes := by
  have hbytes : (tickDatum ev).bytes = (0x80 ||| nFields ev) :: written (fields ev) := by
    rw [tickDatum, Datum.bytes, List.nil_append]
    rfl
  obtain ⟨hstrike, hexpiry, hright, hbid, hask, hbid0, hbid1, hask0, hask1, hbidSize, haskSize,
    htsNs, hrecvNs⟩ := length_knownKeys
  have htype := length_type
  unfold encodeTickInto
  simp only
  rw [writeStrKv_eq _ (by omega), writeF64Kv_eq _ (by omega), writeStrKv_eq _ (by omega),
    writeStrKv_eq _ (by omega), writeOptF64Kv_eq _ (by omega), writeOptF64Kv_eq _ (by omega),
    writeOptI32Kv_eq _ (by omega), writeOptI32Kv_eq _ (by omega), writeU64Kv_eq _ (by omega),
    writeU64Kv_eq _ (by omega),
    -- the last field stands outermost
    writeSomeF64Kv_eq _ (by omega) fun v out => { out with depthAsk1 := v },
    writeSomeF64Kv_eq _ (by omega) fun v out => { out with depthAsk0 := v },
    writeSomeF64Kv_eq _ (by omega) fun v out => { out with depthBid1 := v },
    writeSomeF64Kv_eq _ (by omega) fun v out => { out with depthBid0 := v }]
  rw [hbytes, fields]
  simp only [written_append, written_cons, List.append_assoc, List.cons_append, List.nil_append]

/-! ## The fields are read back -/

/-- Values stand in the body whole, one behind the other. -/
def HoldsAll (body : List UInt8) (p : Nat) (vs : List Datum) : Prop :=
  Agrees body p (Datum.bytesAll vs) ∧ p + (Datum.bytesAll vs).length ≤ body.length

theorem HoldsAll.cons {body : List UInt8} {p : Nat} {v : Datum} {vs : List Datum}
    (h : HoldsAll body p (v :: vs)) :
    Holds body p v ∧ HoldsAll body (p + v.bytes.length) vs := by
  obtain ⟨hagrees, hinside⟩ := h
  rw [Datum.bytesAll, agrees_append] at hagrees
  rw [Datum.bytesAll, List.length_append] at hinside
  exact ⟨⟨⟨hagrees.1, by omega⟩, by omega⟩, hagrees.2, by omega⟩

/-- Both decoders read the field. -/
structure Field.Decoded (f : Field) : Prop where
  key : (utf8 f.key).length ≤ 31
  tick : ∀ {body p} (out : TickMsg), Holds body p f.value →
    assignField body p (utf8 f.key) out = some (f.assign out, p + f.value.bytes.length)
  header : ∀ {body p q n} (h : Option (List UInt8) × Option UInt64),
    readStrBytes body p = some (utf8 f.key, q) → Holds body q f.value →
    headerLoop body (n + 1) p h.1 h.2 =
      headerLoop body n (q + f.value.bytes.length) (f.header h).1 (f.header h).2

theorem readStrBytes_key {f : Field} (hf : f.Decoded) {body : List UInt8} {p : Nat}
    (h : Holds body p (strDatum f.key)) :
    readStrBytes body p = some (utf8 f.key, p + (strDatum f.key).bytes.length) :=
  readStrBytes_strDatum (by have := hf.key; omega) h

/-- `decode_tick` takes over one field after the other. -/
theorem tickLoop_fields {body : List UInt8} {fs : List Field} (hfs : ∀ f ∈ fs, f.Decoded) {p : Nat}
    (h : HoldsAll body p (elements fs)) (out : TickMsg) :
    tickLoop body fs.length p out = (true, fs.foldl (fun out f => f.assign out) out) := by
  induction fs generalizing p out with
  | nil => rfl
  | cons f fs ih =>
      rw [List.forall_mem_cons] at hfs
      obtain ⟨hkey, hrest⟩ := h.cons
      obtain ⟨hvalue, hrest⟩ := hrest.cons
      rw [List.length_cons, tickLoop, readStrBytes_key hfs.1 hkey]
      simp only [hfs.1.tick out hvalue]
      exact ih hfs.2 hrest (f.assign out)

/-- `decode_header` takes over one field after the other. -/
theorem headerLoop_fields {body : List UInt8} {fs : List Field} (hfs : ∀ f ∈ fs, f.Decoded)
    {p : Nat} (h : HoldsAll body p (elements fs))
    (taken : Option (List UInt8) × Option UInt64) :
    headerLoop body fs.length p taken.1 taken.2 =
      some (fs.foldl (fun taken f => f.header taken) taken) := by
  induction fs generalizing p taken with
  | nil => rfl
  | cons f fs ih =>
      rw [List.forall_mem_cons] at hfs
      obtain ⟨hkey, hrest⟩ := h.cons
      obtain ⟨hvalue, hrest⟩ := hrest.cons
      rw [List.length_cons, hfs.1.header taken (readStrBytes_key hfs.1 hkey) hvalue]
      exact ih hfs.2 hrest (f.header taken)

/-- A value that is skipped exactly. -/
structure Plain (v : Datum) : Prop where
  wellFormed : WellFormed messagePack v
  noExt : ∀ w ∈ v.parts, isExt w.tag = false

theorem plain_leaf {tag : UInt8} {numeral payload : List UInt8}
    (hwf : WellFormed messagePack (.leaf tag numeral payload)) (htag : isExt tag = false) :
    Plain (.leaf tag numeral payload) := by
  refine ⟨hwf, fun w hw => ?_⟩
  obtain rfl := List.mem_singleton.mp hw
  exact htag

theorem optDatum_plain {α : Type} {datum : α → Datum} (h : ∀ v, Plain (datum v))
    (v : Option α) : Plain (optDatum datum v) := by
  cases v with
  | none => exact plain_leaf nilDatum_wellFormed rfl
  | some v => exact h v

theorem strDatum_plain {s : String} (hs : (utf8 s).length < 2 ^ 32) : Plain (strDatum s) := by
  have hall (tag : UInt8) (h : isStr tag = true) : isExt tag = false := by
    unfold isStr at h
    unfold isExt
    grind
  obtain ⟨hwf, hstr, -⟩ := strDatum_spec hs
  generalize hv : strDatum s = v at hwf hstr
  cases v with
  | leaf tag numeral payload => exact plain_leaf hwf (hall tag hstr)
  | node tag numeral elements =>
      unfold strDatum at hv
      simp only at hv
      split_ifs at hv

theorem header_skips {f : Field} (htype : f.key ≠ "type") (htsNs : f.key ≠ "ts_ns")
    (hplain : Plain f.value) {body : List UInt8} {p q n : Nat}
    (h : Option (List UInt8) × Option UInt64) (hkey : readStrBytes body p = some (utf8 f.key, q))
    (hvalue : Holds body q f.value) :
    headerLoop body (n + 1) p h.1 h.2 =
      headerLoop body n (q + f.value.bytes.length) h.1 h.2 := by
  have hskip := skipValue_of_reads hplain.wellFormed hplain.noExt hvalue.1
  simp [headerLoop, hkey, utf8_inj, htype, htsNs, hskip]

/-- A field that `decode_header` skips. -/
theorem decoded_of_plain {f : Field} (hlength : (utf8 f.key).length ≤ 31)
    (hkey : f.key ≠ "type" ∧ f.key ≠ "ts_ns") (hplain : Plain f.value) (hheader : f.header = id)
    (htick : ∀ {body p} (out : TickMsg), Holds body p f.value →
      assignField body p (utf8 f.key) out = some (f.assign out, p + f.value.bytes.length)) :
    f.Decoded where
  key := hlength
  tick := htick
  header h hread hvalue := by
    rw [header_skips hkey.1 hkey.2 hplain h hread hvalue, hheader]
    rfl

theorem someField_decoded {key : String} {assign : Option UInt64 → TickMsg → TickMsg}
    (hlength : (utf8 key).length ≤ 31) (hkey : key ≠ "type" ∧ key ≠ "ts_ns")
    (htick : ∀ body p out, assignField body p (utf8 key) out =
      (assignOptF64 body p).map fun (v, e) => (assign v out, e)) (v : Option UInt64) :
    ∀ f ∈ someField key assign v, f.Decoded := by
  cases v with
  | none => simp [someField]
  | some v =>
      simp only [someField, List.mem_singleton, forall_eq]
      refine decoded_of_plain hlength hkey (plain_leaf (f64Datum_wellFormed v) rfl) rfl ?_
      intro body p out h
      rw [htick, assignOptF64_optDatum (v := some v) h]
      rfl

theorem fields_decoded {ev : TickEvent} (hty : (utf8 ev.ty).length < 2 ^ 32)
    (hexpiry : (utf8 ev.expiry).length < 2 ^ 32) (hright : (utf8 ev.right).length < 2 ^ 32) :
    ∀ f ∈ fields ev, f.Decoded := by
  obtain ⟨lstrike, lexpiry, lright, lbid, lask, lbid0, lbid1, lask0, lask1, lbidSize, laskSize,
    ltsNs, lrecvNs⟩ := length_knownKeys
  have ltype := length_type
  have hf64 (bits : UInt64) : Plain (f64Datum bits) := plain_leaf (f64Datum_wellFormed bits) rfl
  have hi32 (v : Int32) : Plain (i32Datum v) := plain_leaf (i32Datum_wellFormed v) rfl
  have hu64 (v : UInt64) : Plain (u64Datum v) := plain_leaf (u64Datum_wellFormed v) rfl
  simp only [fields, List.forall_mem_append, List.forall_mem_cons]
  refine ⟨⟨⟨⟨⟨?type, ?strike, ?expiry, ?right, ?bid, ?ask, ?bidSize, ?askSize, ?tsNs, ?recvNs,
    List.forall_mem_nil _⟩, ?bid0⟩, ?bid1⟩, ?ask0⟩, ?ask1⟩
  case type =>
    refine ⟨by simp only; omega, ?_, ?_⟩
    · intro body p out h
      have hplain := strDatum_plain hty
      have hskip := skipValue_of_reads hplain.wellFormed hplain.noExt h.1
      simp [assignField, length_type, hskip]
    · intro body p q n h hread hvalue
      simp [headerLoop, hread, length_type, readStrBytes_strDatum hty hvalue]
  case strike =>
    refine decoded_of_plain (by simp only; omega) (by simp) (hf64 ev.strike) rfl ?_
    intro body p out h
    simp [assignField, length_knownKeys, readF64_f64Datum h]
  case expiry =>
    refine decoded_of_plain (by simp only; omega) (by simp) (strDatum_plain hexpiry) rfl ?_
    intro body p out h
    simp [assignField, length_knownKeys, utf8_inj, assignString, readStrBytes_strDatum hexpiry h]
  case right =>
    refine decoded_of_plain (by simp only; omega) (by simp) (strDatum_plain hright) rfl ?_
    intro body p out h
    simp [assignField, length_knownKeys, utf8_inj, assignString, readStrBytes_strDatum hright h]
  case bid =>
    refine decoded_of_plain (by simp only; omega) (by simp) (optDatum_plain hf64 ev.bid) rfl ?_
    intro body p out h
    simp [assignField, length_knownKeys, assignOptF64_optDatum h]
  case ask =>
    refine decoded_of_plain (by simp only; omega) (by simp) (optDatum_plain hf64 ev.ask) rfl ?_
    intro body p out h
    simp [assignField, length_knownKeys, utf8_inj, assignOptF64_optDatum h]
  case bidSize =>
    refine decoded_of_plain (by simp only; omega) (by simp) (optDatum_plain hi32 ev.bidSize) rfl ?_
    intro body p out h
    simp [assignField, length_knownKeys, assignOptI32_optDatum h]
  case askSize =>
    refine decoded_of_plain (by simp only; omega) (by simp) (optDatum_plain hi32 ev.askSize) rfl ?_
    intro body p out h
    simp [assignField, length_knownKeys, utf8_inj, assignOptI32_optDatum h]
  case tsNs =>
    refine ⟨by simp only; omega, ?_, ?_⟩
    · intro body p out h
      simp [assignField, length_knownKeys, assignOptU64_u64Datum h]
    · intro body p q n h hread hvalue
      have htag : body[q]? = some 0xcf := hvalue.1.tag
      simp [headerLoop, hread, length_knownKeys, htag, readInt_u64Datum hvalue]
  case recvNs =>
    refine decoded_of_plain (by simp only; omega) (by simp) (hu64 ev.brokerRecvNs) rfl ?_
    intro body p out h
    simp [assignField, length_knownKeys, assignOptU64_u64Datum h]
  case bid0 =>
    refine someField_decoded (by omega) (by simp) ?_ _
    intro body p out
    simp [assignField, length_knownKeys]
  case bid1 =>
    refine someField_decoded (by omega) (by simp) ?_ _
    intro body p out
    simp [assignField, length_knownKeys, utf8_inj]
  case ask0 =>
    refine someField_decoded (by omega) (by simp) ?_ _
    intro body p out
    simp [assignField, length_knownKeys, utf8_inj]
  case ask1 =>
    refine someField_decoded (by omega) (by simp) ?_ _
    intro body p out
    simp [assignField, length_knownKeys, utf8_inj]

/-! ## The round trip -/

/-- The tick that is read back. -/
def TickEvent.decoded (ev : TickEvent) : TickMsg :=
  { strike := ev.strike, expiry := utf8 ev.expiry, right := utf8 ev.right, bid := ev.bid,
    ask := ev.ask, bidSize := ev.bidSize, askSize := ev.askSize, tsNs := some ev.tsNs,
    brokerRecvNs := some ev.brokerRecvNs, depthBid0 := ev.depthBid0, depthBid1 := ev.depthBid1,
    depthAsk0 := ev.depthAsk0, depthAsk1 := ev.depthAsk1 }

/-- The fields together are the tick, whatever stood there before. -/
theorem fields_assign (ev : TickEvent) (out : TickMsg) :
    (fields ev).foldl (fun out f => f.assign out) out.reset = ev.decoded := by
  obtain ⟨ty, strike, expiry, right, bid, ask, bidSize, askSize, tsNs, recvNs, bid0, bid1, ask0,
    ask1⟩ := ev
  cases bid0 <;> cases bid1 <;> cases ask0 <;> cases ask1 <;> rfl

theorem someField_header (key : String) (assign : Option UInt64 → TickMsg → TickMsg)
    (v : Option UInt64) (taken : Option (List UInt8) × Option UInt64) :
    (someField key assign v).foldl (fun taken f => f.header taken) taken = taken := by
  cases v <;> rfl

theorem fields_header (ev : TickEvent) (taken : Option (List UInt8) × Option UInt64) :
    (fields ev).foldl (fun taken f => f.header taken) taken =
      (some (utf8 ev.ty), some ev.tsNs) := by
  simp [fields, List.foldl_append, someField_header]

/-- The count of the fields is right, and has room in the tag. -/
theorem nFields_eq (ev : TickEvent) :
    (fields ev).length ≤ 14 ∧ nFields ev = UInt8.ofNat (fields ev).length := by
  obtain ⟨ty, strike, expiry, right, bid, ask, bidSize, askSize, tsNs, recvNs, bid0, bid1, ask0,
    ask1⟩ := ev
  cases bid0 <;> cases bid1 <;> cases ask0 <;> cases ask1 <;>
    exact ⟨by simp [fields, someField], rfl⟩

theorem readMapHeader_fixmap {n : Nat} (h : n ≤ 14) (rest : List UInt8) :
    readMapHeader ((0x80 ||| UInt8.ofNat n) :: rest) 0 = some (n, 1) := by
  have hall : ∀ n : Fin 15, 0x80 ≤ 0x80 ||| UInt8.ofNat n ∧ 0x80 ||| UInt8.ofNat n ≤ 0x8f ∧
      ((0x80 ||| UInt8.ofNat n) &&& 0x0f).toNat = n := by
    decide +kernel
  obtain ⟨hlow, hhigh, hcount⟩ := hall ⟨n, by omega⟩
  simp only [readMapHeader, List.getElem?_cons_zero, Option.bind_eq_bind, Option.bind_some]
  rw [if_pos ⟨hlow, hhigh⟩, hcount]
  rfl

/-- **Every tick is read back**, whatever stood in the tick before. -/
theorem tick_codec_round_trip (ev : TickEvent) (hty : (utf8 ev.ty).length < 2 ^ 32)
    (hexpiry : (utf8 ev.expiry).length < 2 ^ 32) (hright : (utf8 ev.right).length < 2 ^ 32)
    (out : TickMsg) :
    decodeTick (encodeTickInto ev []) out = (true, ev.decoded) ∧
      decodeHeader (encodeTickInto ev []) = some (utf8 ev.ty, some ev.tsNs) := by
  obtain ⟨hcount, hn⟩ := nFields_eq ev
  have hfields := fields_decoded hty hexpiry hright
  have hbody : encodeTickInto ev [] =
      (0x80 ||| UInt8.ofNat (fields ev).length) :: written (fields ev) := by
    rw [encodeTickInto_eq, List.nil_append, tickDatum, Datum.bytes, List.nil_append, hn]
    rfl
  have hheader : readMapHeader (encodeTickInto ev []) 0 = some ((fields ev).length, 1) := by
    rw [hbody]
    exact readMapHeader_fixmap hcount _
  have hholds : HoldsAll (encodeTickInto ev []) 1 (elements (fields ev)) := by
    rw [hbody]
    refine ⟨fun i _ _ => ?_, ?_⟩
    · rw [Nat.add_comm, List.getElem?_cons_succ]
      rfl
    · rw [List.length_cons, Nat.add_comm]
      exact Nat.le_refl _
  constructor
  · simp only [decodeTick, hheader]
    rw [tickLoop_fields hfields hholds, fields_assign]
  · have hloop := headerLoop_fields hfields hholds (none, none)
    rw [fields_header] at hloop
    simp only at hloop
    simp [decodeHeader, hheader, hloop]

/-- A call with a bid and one level of depth. -/
def sampleTick : TickEvent :=
  { ty := "tick", strike := 0x4018333333333333, expiry := "20260522", right := "C",
    bid := some 0x3fa47ae147ae147b, ask := none, bidSize := some 5, askSize := some (-1),
    tsNs := 0xffffffffffffffff, brokerRecvNs := 1700000000000000000,
    depthBid0 := some 0x7ff8000000000001, depthBid1 := none, depthAsk0 := none,
    depthAsk1 := none }

theorem tick_codec_round_trip_sample :
    decodeTick (encodeTickInto sampleTick []) freshTick = (true, sampleTick.decoded) ∧
      decodeHeader (encodeTickInto sampleTick []) =
        some (utf8 sampleTick.ty, some sampleTick.tsNs) :=
  tick_codec_round_trip sampleTick (by decide +kernel) (by decide +kernel) (by decide +kernel)
    freshTick

end Corsair.Ports.TickCodec
