import Corsair.Verified.MsgPack
import Corsair.Ports.TraderState

/-!
# Order commands on the wire

`corsair_trader::msgpack_encode` writes an order command as a MessagePack map
with named fields; `corsair_broker::ipc` deserializes the body into its own
struct.  The two schemas are kept by hand, in two crates.  They agree on a
place and on a modify.  A cancel is written with the key `orderId` and read
with the key `order_id`.

A double is its bit pattern.  The reader of the broker is a library; what is
assumed of it is `ReadsNamedMaps`, and the structs are taken from the entries
by the rules of `Corsair.Verified.MsgPack`.

## Main results

* `cancel_is_not_decoded` — the broker refuses the bytes of a cancel.
* `command_agrees_iff` — the broker decodes the bytes of a command to the
  values that the trader encoded exactly if the command is not a cancel.
-/

namespace Corsair.Ports.Commands

open Corsair.Verified
open Corsair.Verified.BigEndian
open Corsair.Verified.MsgPack
open Corsair.Ports.TraderState

/-! ## The trader's encoders -/

/-- `write_fixstr_short`. -/
def writeFixstrShort (buf : List UInt8) (s : String) : List UInt8 :=
  buf ++ ((0xa0 ||| UInt8.ofNat (utf8 s).length) :: utf8 s)

/-- `write_str`. -/
def writeStr (buf : List UInt8) (s : String) : List UInt8 :=
  let bytes := utf8 s
  let header :=
    if bytes.length ≤ 31 then [0xa0 ||| UInt8.ofNat bytes.length]
    else if bytes.length ≤ 255 then [0xd9, UInt8.ofNat bytes.length]
    else if bytes.length ≤ 65535 then 0xda :: toBytes 2 bytes.length
    else 0xdb :: toBytes 4 bytes.length
  buf ++ header ++ bytes

/-- `write_str_kv`. -/
def writeStrKv (buf : List UInt8) (key value : String) : List UInt8 :=
  writeStr (writeFixstrShort buf key) value

/-- `write_f64_kv`. -/
def writeF64Kv (buf : List UInt8) (key : String) (value : UInt64) : List UInt8 :=
  writeFixstrShort buf key ++ (0xcb :: toBytes 8 value.toNat)

/-- `write_u32_kv`. -/
def writeU32Kv (buf : List UInt8) (key : String) (value : Nat) : List UInt8 :=
  writeFixstrShort buf key ++ (0xce :: toBytes 4 value)

/-- `write_u64_kv`. -/
def writeU64Kv (buf : List UInt8) (key : String) (value : Nat) : List UInt8 :=
  writeFixstrShort buf key ++ (0xcf :: toBytes 8 value)

/-- `write_i32_kv`. -/
def writeI32Kv (buf : List UInt8) (key : String) (value : Int) : List UInt8 :=
  writeFixstrShort buf key ++ (0xd2 :: signedBytes 4 value)

/-- `write_i64_kv`. -/
def writeI64Kv (buf : List UInt8) (key : String) (value : Int) : List UInt8 :=
  writeFixstrShort buf key ++ (0xd3 :: signedBytes 8 value)

/-- The trailing trigger timestamp, left out when there is none. -/
def writeTrigger (buf : List UInt8) : Option Nat → List UInt8
  | some v => writeU64Kv buf "triggering_tick_broker_recv_ns" v
  | none => buf

/-- The count of fields, with the trigger timestamp if there is one. -/
def fieldCount (n : UInt8) (trigger : Option Nat) : UInt8 :=
  if trigger.isSome then n + 1 else n

/-- `encode_place_into`. -/
def encodePlaceInto (buf : List UInt8) (p : PlaceOrder UInt64) : List UInt8 :=
  let buf := buf ++ [0x80 ||| fieldCount 10 p.triggeringTickBrokerRecvNs]
  let buf := writeStrKv buf "type" "place_order"
  let buf := writeU64Kv buf "ts_ns" p.tsNs
  let buf := writeF64Kv buf "strike" p.strike
  let buf := writeStrKv buf "expiry" p.expiry
  let buf := writeStrKv buf "right" p.right
  let buf := writeStrKv buf "side" p.side
  let buf := writeI32Kv buf "qty" p.qty
  let buf := writeF64Kv buf "price" p.price
  let buf := writeStrKv buf "orderRef" p.orderRef
  let buf := writeU32Kv buf "gtd_seconds" p.gtdSeconds
  writeTrigger buf p.triggeringTickBrokerRecvNs

/-- `encode_modify_into`. -/
def encodeModifyInto (buf : List UInt8) (m : ModifyOrder UInt64) : List UInt8 :=
  let buf := buf ++ [0x80 ||| fieldCount 5 m.triggeringTickBrokerRecvNs]
  let buf := writeStrKv buf "type" "modify_order"
  let buf := writeU64Kv buf "ts_ns" m.tsNs
  let buf := writeI64Kv buf "order_id" m.orderId
  let buf := writeF64Kv buf "price" m.price
  let buf := writeU32Kv buf "gtd_seconds" m.gtdSeconds
  writeTrigger buf m.triggeringTickBrokerRecvNs

/-- `encode_cancel_into`. -/
def encodeCancelInto (buf : List UInt8) (c : CancelOrder) : List UInt8 :=
  let buf := buf ++ [0x80 ||| 3]
  let buf := writeStrKv buf "type" "cancel_order"
  let buf := writeU64Kv buf "ts_ns" c.tsNs
  writeI64Kv buf "orderId" c.orderId

/-! ## The broker's structs -/

/-- `PlaceOrderCmd`. -/
structure PlaceOrderCmd where
  ty : String
  strike : UInt64
  expiry : String
  right : String
  side : String
  qty : Int
  price : UInt64
  clientOrderRef : Option String
  orderType : String
  tif : String
  gtdSeconds : Option Nat
  tsNs : Option Nat
  triggeringTickBrokerRecvNs : Option Nat
  deriving DecidableEq, Repr

/-- `CancelOrderCmd`. -/
structure CancelOrderCmd where
  ty : String
  orderId : Nat
  deriving DecidableEq, Repr

/-- `ModifyOrderCmd`. -/
structure ModifyOrderCmd where
  ty : String
  orderId : Nat
  price : Option UInt64
  qty : Option Nat
  gtdSeconds : Option Nat
  tsNs : Option Nat
  triggeringTickBrokerRecvNs : Option Nat
  deriving DecidableEq, Repr

/-- `default_order_type`. -/
def defaultOrderType : String := "limit"

/-- `default_tif`. -/
def defaultTif : String := "GTD"

/-- The derived `Deserialize` of `PlaceOrderCmd`. -/
def PlaceOrderCmd.ofEntries (entries : List (String × Scalar)) : Option PlaceOrderCmd := do
  return {
    ty := ← requiredField ["type"] Scalar.asStr entries
    strike := ← requiredField ["strike"] Scalar.asF64 entries
    expiry := ← requiredField ["expiry"] Scalar.asStr entries
    right := ← requiredField ["right"] Scalar.asStr entries
    side := ← requiredField ["side"] Scalar.asStr entries
    qty := ← requiredField ["qty"] (Scalar.asSigned 32) entries
    price := ← requiredField ["price"] Scalar.asF64 entries
    clientOrderRef := ← optionalField ["client_order_ref", "orderRef"] Scalar.asStr entries
    orderType := ← fieldWithDefault ["order_type"] Scalar.asStr defaultOrderType entries
    tif := ← fieldWithDefault ["tif"] Scalar.asStr defaultTif entries
    gtdSeconds := ← optionalField ["gtd_seconds"] (Scalar.asUnsigned 32) entries
    tsNs := ← optionalField ["ts_ns"] (Scalar.asUnsigned 64) entries
    triggeringTickBrokerRecvNs :=
      ← optionalField ["triggering_tick_broker_recv_ns"] (Scalar.asUnsigned 64) entries }

/-- The derived `Deserialize` of `CancelOrderCmd`. -/
def CancelOrderCmd.ofEntries (entries : List (String × Scalar)) : Option CancelOrderCmd := do
  return {
    ty := ← requiredField ["type"] Scalar.asStr entries
    orderId := ← requiredField ["order_id"] (Scalar.asUnsigned 64) entries }

/-- The derived `Deserialize` of `ModifyOrderCmd`. -/
def ModifyOrderCmd.ofEntries (entries : List (String × Scalar)) : Option ModifyOrderCmd := do
  return {
    ty := ← requiredField ["type"] Scalar.asStr entries
    orderId := ← requiredField ["order_id"] (Scalar.asUnsigned 64) entries
    price := ← optionalField ["price"] Scalar.asF64 entries
    qty := ← optionalField ["qty"] (Scalar.asUnsigned 32) entries
    gtdSeconds := ← optionalField ["gtd_seconds"] (Scalar.asUnsigned 32) entries
    tsNs := ← optionalField ["ts_ns"] (Scalar.asUnsigned 64) entries
    triggeringTickBrokerRecvNs :=
      ← optionalField ["triggering_tick_broker_recv_ns"] (Scalar.asUnsigned 64) entries }

/-! ## What the trader can build -/

/-- An optional timestamp is a `u64`. -/
def TimestampFits (t : Option Nat) : Prop := ∀ v ∈ t, v < 2 ^ 64

/-- The widths of the fields of `PlaceOrder`. -/
structure PlaceFits (p : PlaceOrder UInt64) : Prop where
  tsNs : p.tsNs < 2 ^ 64
  expiry : (utf8 p.expiry).length < 2 ^ 32
  right : (utf8 p.right).length < 2 ^ 32
  side : (utf8 p.side).length < 2 ^ 32
  qtyLo : -2 ^ 31 ≤ p.qty
  qtyHi : p.qty < 2 ^ 31
  orderRef : (utf8 p.orderRef).length < 2 ^ 32
  gtdSeconds : p.gtdSeconds < 2 ^ 32
  trigger : TimestampFits p.triggeringTickBrokerRecvNs

/-- The widths of the fields of `ModifyOrder`. -/
structure ModifyFits (m : ModifyOrder UInt64) : Prop where
  tsNs : m.tsNs < 2 ^ 64
  orderIdLo : 0 ≤ m.orderId
  orderIdHi : m.orderId < 2 ^ 63
  gtdSeconds : m.gtdSeconds < 2 ^ 32
  trigger : TimestampFits m.triggeringTickBrokerRecvNs

/-- The widths of the fields of `CancelOrder`. -/
structure CancelFits (c : CancelOrder) : Prop where
  tsNs : c.tsNs < 2 ^ 64
  orderIdLo : 0 ≤ c.orderId
  orderIdHi : c.orderId < 2 ^ 63

/-- A command that the trader can build. -/
def Buildable : Command UInt64 → Prop
  | .place p => PlaceFits p
  | .modify m => ModifyFits m
  | .cancel c => CancelFits c

/-! ## What the encoders write -/

/-- The call appended the encodings of the entries. -/
def Appends (buf buf' : List UInt8) (entries : List (String × Scalar)) : Prop :=
  ∃ bytes, Fields entries bytes ∧ buf' = buf ++ bytes

theorem Appends.trans {a b c : List UInt8} {front back : List (String × Scalar)}
    (h : Appends a b front) (h' : Appends b c back) : Appends a c (front ++ back) := by
  obtain ⟨frontBytes, hfront, rfl⟩ := h
  obtain ⟨backBytes, hback, rfl⟩ := h'
  exact ⟨frontBytes ++ backBytes, hfront.append hback, List.append_assoc ..⟩

/-- The length byte of a short string. -/
theorem fixstr_marker {n : Nat} (h : n < 32) :
    0xa0 ||| UInt8.ofNat n = UInt8.ofNat (0xa0 + n) := by
  have hall : ∀ n : Fin 32, 0xa0 ||| UInt8.ofNat n = UInt8.ofNat (0xa0 + n) := by decide
  exact hall ⟨n, h⟩

theorem fixstr_format {s : String} (h : (utf8 s).length < 32) :
    Format (.str s) ((0xa0 ||| UInt8.ofNat (utf8 s).length) :: utf8 s) := by
  rw [fixstr_marker h]
  exact .fixstr h

/-- A field is its key and an encoding of its scalar. -/
theorem appends_field {buf buf' : List UInt8} {key : String} {value : Scalar}
    {valueBytes : List UInt8} (hkey : (utf8 key).length < 32) (hvalue : Format value valueBytes)
    (hbuf : buf' = writeFixstrShort buf key ++ valueBytes) : Appends buf buf' [(key, value)] := by
  refine ⟨_, .cons (fixstr_format hkey) hvalue .nil, ?_⟩
  rw [hbuf, writeFixstrShort, List.append_assoc, List.append_nil]

/-- `write_str` picks the format by the length. -/
theorem writeStr_format (buf : List UInt8) {s : String} (h : (utf8 s).length < 2 ^ 32) :
    ∃ bytes, Format (.str s) bytes ∧ writeStr buf s = buf ++ bytes := by
  unfold writeStr
  simp only [List.append_assoc]
  split
  · exact ⟨_, fixstr_format (by omega), rfl⟩
  · split
    · rename_i hsize
      have hbyte : toBytes 1 (utf8 s).length = [UInt8.ofNat (utf8 s).length] := by
        simp [toBytes]
      refine ⟨_, .str8 (by omega), ?_⟩
      rw [hbyte]
      rfl
    · split
      · exact ⟨_, .str16 (by omega), rfl⟩
      · exact ⟨_, .str32 h, rfl⟩

theorem appends_writeStrKv (buf : List UInt8) (key value : String)
    (hkey : (utf8 key).length < 32) (hvalue : (utf8 value).length < 2 ^ 32) :
    Appends buf (writeStrKv buf key value) [(key, .str value)] := by
  obtain ⟨bytes, hformat, hwrite⟩ := writeStr_format (writeFixstrShort buf key) hvalue
  exact appends_field hkey hformat hwrite

theorem appends_writeF64Kv (buf : List UInt8) (key : String) (hkey : (utf8 key).length < 32)
    (value : UInt64) : Appends buf (writeF64Kv buf key value) [(key, .f64 value)] :=
  appends_field hkey (.float64 value) rfl

theorem appends_writeU32Kv (buf : List UInt8) (key : String) (hkey : (utf8 key).length < 32)
    {value : Nat} (hvalue : value < 2 ^ 32) :
    Appends buf (writeU32Kv buf key value) [(key, .int value)] :=
  appends_field hkey (.uint32 hvalue) rfl

theorem appends_writeU64Kv (buf : List UInt8) (key : String) (hkey : (utf8 key).length < 32)
    {value : Nat} (hvalue : value < 2 ^ 64) :
    Appends buf (writeU64Kv buf key value) [(key, .int value)] :=
  appends_field hkey (.uint64 hvalue) rfl

theorem appends_writeI32Kv (buf : List UInt8) (key : String) (hkey : (utf8 key).length < 32)
    {value : Int} (hlo : -2 ^ 31 ≤ value) (hhi : value < 2 ^ 31) :
    Appends buf (writeI32Kv buf key value) [(key, .int value)] :=
  appends_field hkey (.int32 hlo hhi) rfl

theorem appends_writeI64Kv (buf : List UInt8) (key : String) (hkey : (utf8 key).length < 32)
    {value : Int} (hlo : -2 ^ 63 ≤ value) (hhi : value < 2 ^ 63) :
    Appends buf (writeI64Kv buf key value) [(key, .int value)] :=
  appends_field hkey (.int64 hlo hhi) rfl

/-- The entry of the trigger timestamp. -/
def triggerEntry : Option Nat → List (String × Scalar)
  | none => []
  | some v => [("triggering_tick_broker_recv_ns", .int v)]

theorem appends_writeTrigger (buf : List UInt8) {trigger : Option Nat}
    (h : TimestampFits trigger) :
    Appends buf (writeTrigger buf trigger) (triggerEntry trigger) := by
  cases trigger with
  | none => exact ⟨[], .nil, (List.append_nil buf).symm⟩
  | some v => exact appends_writeU64Kv buf _ (by decide) (h v rfl)

/-- The header byte counts the fields. -/
theorem header_eq {n : Nat} (hn : n < 15) {trigger : Option Nat}
    {entries : List (String × Scalar)}
    (hlen : entries.length = n + (triggerEntry trigger).length) :
    0x80 ||| fieldCount (UInt8.ofNat n) trigger = UInt8.ofNat (0x80 + entries.length) := by
  have hall : ∀ n : Fin 15, 0x80 ||| UInt8.ofNat n = UInt8.ofNat (0x80 + n) ∧
      0x80 ||| (UInt8.ofNat n + 1) = UInt8.ofNat (0x80 + (n + 1)) := by decide
  rw [hlen]
  cases trigger with
  | none => exact (hall ⟨n, hn⟩).1
  | some v => exact (hall ⟨n, hn⟩).2

/-- A header and the fields it counts make a map. -/
theorem namedMap_of_appends {buf out : List UInt8} {entries : List (String × Scalar)}
    {header : UInt8} (hheader : header = UInt8.ofNat (0x80 + entries.length))
    (hsize : entries.length < 16) (h : Appends (buf ++ [header]) out entries) :
    ∃ bytes, NamedMap entries bytes ∧ out = buf ++ bytes := by
  obtain ⟨body, hbody, rfl⟩ := h
  refine ⟨_, .fixmap hsize hbody, ?_⟩
  rw [hheader, List.append_assoc]
  rfl

/-- The fields of a place that are always present. -/
def placeFields (p : PlaceOrder UInt64) : List (String × Scalar) :=
  [("type", .str "place_order"), ("ts_ns", .int p.tsNs), ("strike", .f64 p.strike),
    ("expiry", .str p.expiry), ("right", .str p.right), ("side", .str p.side),
    ("qty", .int p.qty), ("price", .f64 p.price), ("orderRef", .str p.orderRef),
    ("gtd_seconds", .int p.gtdSeconds)]

/-- The fields of a place. -/
def placeEntries (p : PlaceOrder UInt64) : List (String × Scalar) :=
  placeFields p ++ triggerEntry p.triggeringTickBrokerRecvNs

/-- The fields of a modify that are always present. -/
def modifyFields (m : ModifyOrder UInt64) : List (String × Scalar) :=
  [("type", .str "modify_order"), ("ts_ns", .int m.tsNs), ("order_id", .int m.orderId),
    ("price", .f64 m.price), ("gtd_seconds", .int m.gtdSeconds)]

/-- The fields of a modify. -/
def modifyEntries (m : ModifyOrder UInt64) : List (String × Scalar) :=
  modifyFields m ++ triggerEntry m.triggeringTickBrokerRecvNs

/-- The fields of a cancel. -/
def cancelEntries (c : CancelOrder) : List (String × Scalar) :=
  [("type", .str "cancel_order"), ("ts_ns", .int c.tsNs), ("orderId", .int c.orderId)]

theorem triggerEntry_length_le (trigger : Option Nat) : (triggerEntry trigger).length ≤ 1 := by
  cases trigger <;> simp [triggerEntry]

theorem encodePlaceInto_namedMap (buf : List UInt8) {p : PlaceOrder UInt64} (h : PlaceFits p) :
    ∃ bytes, NamedMap (placeEntries p) bytes ∧ encodePlaceInto buf p = buf ++ bytes := by
  have hlen : (placeEntries p).length =
      10 + (triggerEntry p.triggeringTickBrokerRecvNs).length := by
    rw [placeEntries, List.length_append]
    rfl
  have hsize : (placeEntries p).length < 16 := by
    have hle := triggerEntry_length_le p.triggeringTickBrokerRecvNs
    omega
  apply namedMap_of_appends (header_eq (by decide) hlen) hsize
  exact (appends_writeStrKv _ "type" "place_order" (by decide) (by decide))
    |>.trans (appends_writeU64Kv _ "ts_ns" (by decide) h.tsNs)
    |>.trans (appends_writeF64Kv _ "strike" (by decide) p.strike)
    |>.trans (appends_writeStrKv _ "expiry" p.expiry (by decide) h.expiry)
    |>.trans (appends_writeStrKv _ "right" p.right (by decide) h.right)
    |>.trans (appends_writeStrKv _ "side" p.side (by decide) h.side)
    |>.trans (appends_writeI32Kv _ "qty" (by decide) h.qtyLo h.qtyHi)
    |>.trans (appends_writeF64Kv _ "price" (by decide) p.price)
    |>.trans (appends_writeStrKv _ "orderRef" p.orderRef (by decide) h.orderRef)
    |>.trans (appends_writeU32Kv _ "gtd_seconds" (by decide) h.gtdSeconds)
    |>.trans (appends_writeTrigger _ h.trigger)

theorem encodeModifyInto_namedMap (buf : List UInt8) {m : ModifyOrder UInt64}
    (h : ModifyFits m) :
    ∃ bytes, NamedMap (modifyEntries m) bytes ∧ encodeModifyInto buf m = buf ++ bytes := by
  have hlen : (modifyEntries m).length =
      5 + (triggerEntry m.triggeringTickBrokerRecvNs).length := by
    rw [modifyEntries, List.length_append]
    rfl
  have hsize : (modifyEntries m).length < 16 := by
    have hle := triggerEntry_length_le m.triggeringTickBrokerRecvNs
    omega
  have hlo := h.orderIdLo
  apply namedMap_of_appends (header_eq (by decide) hlen) hsize
  exact (appends_writeStrKv _ "type" "modify_order" (by decide) (by decide))
    |>.trans (appends_writeU64Kv _ "ts_ns" (by decide) h.tsNs)
    |>.trans (appends_writeI64Kv _ "order_id" (by decide) (by omega) h.orderIdHi)
    |>.trans (appends_writeF64Kv _ "price" (by decide) m.price)
    |>.trans (appends_writeU32Kv _ "gtd_seconds" (by decide) h.gtdSeconds)
    |>.trans (appends_writeTrigger _ h.trigger)

theorem encodeCancelInto_namedMap (buf : List UInt8) {c : CancelOrder} (h : CancelFits c) :
    ∃ bytes, NamedMap (cancelEntries c) bytes ∧ encodeCancelInto buf c = buf ++ bytes := by
  have hlo := h.orderIdLo
  have hlen : (cancelEntries c).length = 3 := rfl
  have hheader : 0x80 ||| 3 = UInt8.ofNat (0x80 + (cancelEntries c).length) := by
    rw [hlen]
    decide
  apply namedMap_of_appends hheader (by rw [hlen]; decide)
  exact (appends_writeStrKv _ "type" "cancel_order" (by decide) (by decide))
    |>.trans (appends_writeU64Kv _ "ts_ns" (by decide) h.tsNs)
    |>.trans (appends_writeI64Kv _ "orderId" (by decide) (by omega) h.orderIdHi)

/-! ## What the broker decodes -/

/-- `rmp_serde::from_slice` into a struct. -/
def fromSlice {α : Type} (read : List UInt8 → Option (List (String × Scalar)))
    (ofEntries : List (String × Scalar) → Option α) (body : List UInt8) : Option α :=
  (read body).bind ofEntries

/-- The values of a place, as the broker keeps them. -/
def placeCmd (p : PlaceOrder UInt64) : PlaceOrderCmd :=
  { ty := "place_order"
    strike := p.strike
    expiry := p.expiry
    right := p.right
    side := p.side
    qty := p.qty
    price := p.price
    clientOrderRef := some p.orderRef
    orderType := defaultOrderType
    tif := defaultTif
    gtdSeconds := some p.gtdSeconds
    tsNs := some p.tsNs
    triggeringTickBrokerRecvNs := p.triggeringTickBrokerRecvNs }

/-- The values of a modify, as the broker keeps them. -/
def modifyCmd (m : ModifyOrder UInt64) : ModifyOrderCmd :=
  { ty := "modify_order"
    orderId := m.orderId.toNat
    price := some m.price
    qty := none
    gtdSeconds := some m.gtdSeconds
    tsNs := some m.tsNs
    triggeringTickBrokerRecvNs := m.triggeringTickBrokerRecvNs }

/-- The values of a cancel, as the broker keeps them. -/
def cancelCmd (c : CancelOrder) : CancelOrderCmd :=
  { ty := "cancel_order", orderId := c.orderId.toNat }

/-- The trigger timestamp is not a field of another name. -/
theorem field_append_triggerEntry {names : List String} (entries : List (String × Scalar))
    (trigger : Option Nat) (h : "triggering_tick_broker_recv_ns" ∉ names) :
    field names (entries ++ triggerEntry trigger) = field names entries := by
  have hfilter : (triggerEntry trigger).filter (fun e => e.1 ∈ names) = [] := by
    cases trigger <;> simp [triggerEntry, h]
  simp only [field, List.filter_append, hfilter, List.append_nil]

theorem optionalField_trigger {entries : List (String × Scalar)} {trigger : Option Nat}
    (h : TimestampFits trigger)
    (hother : field ["triggering_tick_broker_recv_ns"] entries = some none) :
    optionalField ["triggering_tick_broker_recv_ns"] (Scalar.asUnsigned 64)
      (entries ++ triggerEntry trigger) = some trigger := by
  have hfilter : entries.filter (fun e => e.1 ∈ ["triggering_tick_broker_recv_ns"]) = [] := by
    unfold field at hother
    split at hother
    · assumption
    · cases hother
    · cases hother
  cases trigger with
  | none =>
      apply optionalField_missing
      rw [triggerEntry, List.append_nil, hother]
  | some v =>
      have hfield : field ["triggering_tick_broker_recv_ns"] (entries ++ triggerEntry (some v)) =
          some (some (.int v)) := by
        simp only [field, List.filter_append, hfilter]
        rfl
      exact optionalField_of_field hfield (by simp) (asUnsigned_of_lt (h v rfl))

theorem placeEntries_decode {p : PlaceOrder UInt64} (h : PlaceFits p) :
    PlaceOrderCmd.ofEntries (placeEntries p) = some (placeCmd p) := by
  have hfield {names : List String} (hnames : "triggering_tick_broker_recv_ns" ∉ names) :
      field names (placeEntries p) = field names (placeFields p) :=
    field_append_triggerEntry _ _ hnames
  have hty : requiredField ["type"] Scalar.asStr (placeEntries p) = some "place_order" :=
    requiredField_of_field (hfield (by decide)) rfl
  have hstrike : requiredField ["strike"] Scalar.asF64 (placeEntries p) = some p.strike :=
    requiredField_of_field (hfield (by decide)) rfl
  have hexpiry : requiredField ["expiry"] Scalar.asStr (placeEntries p) = some p.expiry :=
    requiredField_of_field (hfield (by decide)) rfl
  have hright : requiredField ["right"] Scalar.asStr (placeEntries p) = some p.right :=
    requiredField_of_field (hfield (by decide)) rfl
  have hside : requiredField ["side"] Scalar.asStr (placeEntries p) = some p.side :=
    requiredField_of_field (hfield (by decide)) rfl
  have hqty : requiredField ["qty"] (Scalar.asSigned 32) (placeEntries p) = some p.qty :=
    requiredField_of_field (hfield (by decide)) (asSigned_of_lt h.qtyLo h.qtyHi)
  have hprice : requiredField ["price"] Scalar.asF64 (placeEntries p) = some p.price :=
    requiredField_of_field (hfield (by decide)) rfl
  have href : optionalField ["client_order_ref", "orderRef"] Scalar.asStr (placeEntries p) =
      some (some p.orderRef) :=
    optionalField_of_field (hfield (by decide)) (by simp) rfl
  have horderType : fieldWithDefault ["order_type"] Scalar.asStr defaultOrderType
      (placeEntries p) = some defaultOrderType :=
    fieldWithDefault_missing (hfield (by decide))
  have htif : fieldWithDefault ["tif"] Scalar.asStr defaultTif (placeEntries p) =
      some defaultTif :=
    fieldWithDefault_missing (hfield (by decide))
  have hgtd : optionalField ["gtd_seconds"] (Scalar.asUnsigned 32) (placeEntries p) =
      some (some p.gtdSeconds) :=
    optionalField_of_field (hfield (by decide)) (by simp) (asUnsigned_of_lt h.gtdSeconds)
  have hts : optionalField ["ts_ns"] (Scalar.asUnsigned 64) (placeEntries p) =
      some (some p.tsNs) :=
    optionalField_of_field (hfield (by decide)) (by simp) (asUnsigned_of_lt h.tsNs)
  have htrigger : optionalField ["triggering_tick_broker_recv_ns"] (Scalar.asUnsigned 64)
      (placeEntries p) = some p.triggeringTickBrokerRecvNs :=
    optionalField_trigger h.trigger rfl
  simp only [PlaceOrderCmd.ofEntries, hty, hstrike, hexpiry, hright, hside, hqty, hprice, href,
    horderType, htif, hgtd, hts, htrigger]
  rfl

theorem modifyEntries_decode {m : ModifyOrder UInt64} (h : ModifyFits m) :
    ModifyOrderCmd.ofEntries (modifyEntries m) = some (modifyCmd m) := by
  have hfield {names : List String} (hnames : "triggering_tick_broker_recv_ns" ∉ names) :
      field names (modifyEntries m) = field names (modifyFields m) :=
    field_append_triggerEntry _ _ hnames
  have hidFits : m.orderId < 2 ^ 64 := by
    have hhi := h.orderIdHi
    omega
  have hty : requiredField ["type"] Scalar.asStr (modifyEntries m) = some "modify_order" :=
    requiredField_of_field (hfield (by decide)) rfl
  have hid : requiredField ["order_id"] (Scalar.asUnsigned 64) (modifyEntries m) =
      some m.orderId.toNat :=
    requiredField_of_field (hfield (by decide)) (asUnsigned_of_nonneg h.orderIdLo hidFits)
  have hprice : optionalField ["price"] Scalar.asF64 (modifyEntries m) = some (some m.price) :=
    optionalField_of_field (hfield (by decide)) (by simp) rfl
  have hqty : optionalField ["qty"] (Scalar.asUnsigned 32) (modifyEntries m) = some none :=
    optionalField_missing (hfield (by decide))
  have hgtd : optionalField ["gtd_seconds"] (Scalar.asUnsigned 32) (modifyEntries m) =
      some (some m.gtdSeconds) :=
    optionalField_of_field (hfield (by decide)) (by simp) (asUnsigned_of_lt h.gtdSeconds)
  have hts : optionalField ["ts_ns"] (Scalar.asUnsigned 64) (modifyEntries m) =
      some (some m.tsNs) :=
    optionalField_of_field (hfield (by decide)) (by simp) (asUnsigned_of_lt h.tsNs)
  have htrigger : optionalField ["triggering_tick_broker_recv_ns"] (Scalar.asUnsigned 64)
      (modifyEntries m) = some m.triggeringTickBrokerRecvNs :=
    optionalField_trigger h.trigger rfl
  simp only [ModifyOrderCmd.ofEntries, hty, hid, hprice, hqty, hgtd, hts, htrigger]
  rfl

/-- The key of the id is not the one that the struct has. -/
theorem cancelEntries_decode (c : CancelOrder) :
    CancelOrderCmd.ofEntries (cancelEntries c) = none := by
  have hty : requiredField ["type"] Scalar.asStr (cancelEntries c) = some "cancel_order" :=
    requiredField_of_field rfl rfl
  have hid : requiredField ["order_id"] (Scalar.asUnsigned 64) (cancelEntries c) = none :=
    requiredField_missing rfl
  simp only [CancelOrderCmd.ofEntries, hty, hid]
  rfl

/-- The broker decodes the bytes that the trader's encoder appended to its
buffer, and gets the values of the command. -/
def Agrees (read : List UInt8 → Option (List (String × Scalar))) (buf : List UInt8) :
    Command UInt64 → Prop
  | .place p =>
      fromSlice read PlaceOrderCmd.ofEntries ((encodePlaceInto buf p).drop buf.length) =
        some (placeCmd p)
  | .modify m =>
      fromSlice read ModifyOrderCmd.ofEntries ((encodeModifyInto buf m).drop buf.length) =
        some (modifyCmd m)
  | .cancel c =>
      fromSlice read CancelOrderCmd.ofEntries ((encodeCancelInto buf c).drop buf.length) =
        some (cancelCmd c)

instance (read : List UInt8 → Option (List (String × Scalar))) (buf : List UInt8)
    (command : Command UInt64) : Decidable (Agrees read buf command) := by
  cases command <;> unfold Agrees <;> infer_instance

/-- A cancel as the trader writes it on a shutdown or in a re-quote. -/
def cancel42 : CancelOrder := { tsNs := 1777993654064490620, orderId := 42 }

theorem cancel_is_not_decoded :
    Buildable (.cancel cancel42) ∧ ¬ Agrees readMap [] (.cancel cancel42) :=
  ⟨⟨by decide, by decide, by decide⟩, by decide +kernel⟩

/-- **Command agreement.** Of the commands that the trader can build, the broker
decodes the bytes to the values that were encoded exactly for those that are
not a cancel. -/
theorem command_agrees_iff (read : List UInt8 → Option (List (String × Scalar)))
    (hread : ReadsNamedMaps read) (buf : List UInt8) (command : Command UInt64)
    (hbuildable : Buildable command) :
    Agrees read buf command ↔ ∀ c, command ≠ .cancel c := by
  cases command with
  | place p =>
      obtain ⟨bytes, hmap, hbytes⟩ := encodePlaceInto_namedMap buf hbuildable
      have hagrees : Agrees read buf (.place p) := by
        rw [Agrees, hbytes, List.drop_left, fromSlice, hread _ _ hmap]
        exact placeEntries_decode hbuildable
      simp [hagrees]
  | modify m =>
      obtain ⟨bytes, hmap, hbytes⟩ := encodeModifyInto_namedMap buf hbuildable
      have hagrees : Agrees read buf (.modify m) := by
        rw [Agrees, hbytes, List.drop_left, fromSlice, hread _ _ hmap]
        exact modifyEntries_decode hbuildable
      simp [hagrees]
  | cancel c =>
      obtain ⟨bytes, hmap, hbytes⟩ := encodeCancelInto_namedMap buf hbuildable
      have hnone : fromSlice read CancelOrderCmd.ofEntries
          ((encodeCancelInto buf c).drop buf.length) = none := by
        rw [hbytes, List.drop_left, fromSlice, hread _ _ hmap]
        exact cancelEntries_decode c
      simp [Agrees, hnone]

/-- A place of one lot of the 6.025 call, in reply to a tick. -/
def place6025 : PlaceOrder UInt64 :=
  { tsNs := 1777993654064490620
    strike := 0x401819999999999A
    expiry := "20260526"
    right := "C"
    side := "BUY"
    qty := 1
    price := 0x3FA1A9FBE76C8B44
    orderRef := "corsair_trader_rust"
    gtdSeconds := 30
    triggeringTickBrokerRecvNs := some 1777993654000000000 }

theorem place6025_fits : PlaceFits place6025 where
  tsNs := by decide
  expiry := by decide
  right := by decide
  side := by decide
  qtyLo := by decide
  qtyHi := by decide
  orderRef := by decide
  gtdSeconds := by decide
  trigger := by
    intro v hv
    cases hv
    decide

theorem command_agrees_on_place6025 :
    Agrees readMap [] (.place place6025) ↔ ∀ c, Command.place place6025 ≠ .cancel c :=
  command_agrees_iff readMap readMap_readsNamedMaps [] (.place place6025) place6025_fits

end Corsair.Ports.Commands
