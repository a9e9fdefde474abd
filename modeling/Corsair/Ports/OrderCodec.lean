import Corsair.Ports.NativeOrders
import Corsair.Verified.BigEndian
import Corsair.Verified.MsgPack
import Corsair.Verified.Terminated

/-!
# `corsair_broker_ibkr_native::{codec, requests, place_template}`: the `placeOrder` frame

`requests::place_order` lists the fields of the frame as strings and encodes the list.
`place_template::place_order_fast` writes the same frame into one buffer: the contract's
fields are rendered once an instrument, the fields behind the order body once a process,
and only the order body is rendered at each call.  `try_decode_frame` reads a frame back.

The renderings of numbers belong to other crates; `Formatters` lists them with what the two
paths rely on.

## Main results

* `pushField_pushFields` — a buffer write is one more field.
* `tryDecodeFrame_encodeFields` — a frame that fits is read back.
* `placeOrderFast_eq_placeOrder` — both paths write the same bytes.
-/

namespace Corsair.Ports.OrderCodec

open Corsair.Verified
open Corsair.Verified.MsgPack (utf8)
open Corsair.Verified.Terminated
open Corsair.Ports.NativeBroker (ContractRequest)
open Corsair.Ports.NativeOrders (PlaceOrderParams)

variable {F : Type} [F64 F]

/-! ## Renderings -/

/-- What the standard library, `itoa` and `ryu` render.  None of them writes a NUL byte, and
an integer is rendered alike by `itoa` and by the standard library. -/
structure Formatters (F : Type) [F64 F] where
  /-- `itoa::Buffer::format`. -/
  itoa : Int → String
  /-- `ryu::Buffer::format`. -/
  ryu : F → String
  /-- `i64::to_string`. -/
  i64ToString : Int → String
  /-- `f64::fract`. -/
  fract : F → F
  /-- `String::from_utf8_lossy` of bytes that are not UTF-8. -/
  lossy : List UInt8 → String
  itoa_zero : itoa 0 = "0"
  i64ToString_eq : ∀ v, i64ToString v = itoa v
  itoa_nul : ∀ v, (0 : UInt8) ∉ utf8 (itoa v)
  ryu_nul : ∀ v, (0 : UInt8) ∉ utf8 (ryu v)

variable (fm : Formatters F)

/-! ## Field encoders -/

def encodeInt (v : Int) : String := fm.itoa v

def encodeInt64 (v : Int) : String := fm.itoa v

/-- `f64::is_infinite`. -/
def isInfinite (v : F) : Bool := !F64.isFinite v && !F64.isNan v

def encodeF64 (v : F) : String :=
  if isInfinite v then "Infinite" else fm.ryu v

/-- The test of `encode_qty` and `write_qty`: the quantity is a whole number that an `i64`
holds. -/
def isWhole (v : F) : Bool :=
  F64.feq (fm.fract v) F64.zero && F64.isFinite v &&
    F64.lt (F64.abs v) (F64.lit (10 ^ 18) 0)

/-- `v as i64`. -/
def asI64 (v : F) : Int := F64.toInt (-2 ^ 63) (2 ^ 63 - 1) v

def encodeQty (v : F) : String :=
  if isWhole fm v then fm.itoa (asI64 v) else encodeF64 fm v

def encodeBool (v : Bool) : String := if v then "1" else "0"

def encodeUnset : String := ""

/-! ## Buffer writers -/

def writeInt (buf : List UInt8) (v : Int) : List UInt8 := buf ++ utf8 (fm.itoa v)

def writeF64 (buf : List UInt8) (v : F) : List UInt8 :=
  if isInfinite v then buf ++ utf8 "Infinite" else buf ++ utf8 (fm.ryu v)

def writeQty (buf : List UInt8) (v : F) : List UInt8 :=
  if isWhole fm v then buf ++ utf8 (fm.itoa (asI64 v)) else writeF64 fm buf v

/-- `push_field`. -/
def pushField (buf bytes : List UInt8) : List UInt8 := buf ++ bytes ++ [0]

/-- The loop that appends each field with its terminator. -/
def pushFields (fields : List String) : List UInt8 :=
  fields.foldl (fun bytes f => pushField bytes (utf8 f)) []

/-- `encode_fields`: the payload behind its length.  The cast to `u32` is the truncation of
the four-byte numeral. -/
def encodeFields (fields : List String) : List UInt8 :=
  BigEndian.toBytes 4 (pushFields fields).length ++ pushFields fields

/-! ## Reading a frame -/

/-- `NativeError`, as far as the framing builds it. -/
inductive NativeError
  | protocol (message : String)
  deriving DecidableEq, Repr

/-- `MAX_MESSAGE_BYTES`. -/
def maxMessageBytes : Nat := 16 * 1024 * 1024

/-- `String::from_utf8_lossy`. -/
def fromUtf8Lossy (bytes : List UInt8) : String :=
  (String.fromUTF8? ⟨bytes.toArray⟩).getD (fm.lossy bytes)

/-- The last field, popped where it is empty. -/
def popEmpty (fields : List String) : List String :=
  if fields.getLast? = some "" then fields.dropLast else fields

/-- `try_decode_frame`, with the buffer it leaves. -/
def tryDecodeFrame (buf : List UInt8) :
    Except NativeError (Option (List String)) × List UInt8 :=
  if buf.length < 4 then (.ok none, buf)
  else
    let size := BigEndian.ofBytes (buf.take 4)
    if size > maxMessageBytes then
      (.error (.protocol s!"oversize message: {size} > {maxMessageBytes}"), buf)
    else if buf.length < 4 + size then (.ok none, buf)
    else
      let payload := (buf.drop 4).take size
      (.ok (some (popEmpty ((payload.splitOn 0).map (fromUtf8Lossy fm)))), buf.drop (4 + size))

/-! ## The slow path -/

/-- `OUT_PLACE_ORDER`. -/
def outPlaceOrder : Int := 3

/-- The field list of `requests::place_order`. -/
def placeOrderFields (orderId : Int) (contract : ContractRequest F)
    (params : PlaceOrderParams F) : List String :=
  [encodeInt fm outPlaceOrder, encodeInt fm orderId, encodeInt64 fm contract.conId,
   contract.symbol, contract.secType, contract.lastTradeDate, encodeF64 fm contract.strike,
   contract.right, contract.multiplier, contract.exchange, contract.primaryExchange,
   contract.currency, contract.localSymbol, contract.tradingClass, encodeUnset, encodeUnset,
   params.action, encodeQty fm params.totalQuantity, params.orderType,
   encodeF64 fm params.lmtPrice,
   if F64.feq params.auxPrice F64.zero then encodeUnset else encodeF64 fm params.auxPrice,
   params.tif, encodeUnset, params.account, "O", encodeInt fm 0, params.orderRef, encodeBool true,
   encodeInt fm 0, encodeBool false, encodeBool false, encodeInt fm 0, encodeInt fm 0,
   encodeBool params.outsideRth, encodeBool false, encodeUnset, encodeF64 fm F64.zero, encodeUnset,
   params.goodTillDate, encodeUnset, encodeUnset, encodeUnset, encodeUnset, encodeUnset, "0",
   encodeUnset, encodeInt fm (-1), encodeInt fm 0, encodeUnset, encodeUnset, encodeBool false,
   encodeUnset, encodeUnset, encodeBool false, encodeBool false, encodeUnset, encodeInt fm 0,
   encodeUnset, encodeUnset, encodeUnset, encodeUnset, encodeUnset, encodeBool false, encodeUnset,
   encodeUnset, encodeUnset, encodeUnset, encodeBool false, encodeUnset, encodeUnset, encodeUnset,
   encodeUnset, encodeUnset, encodeUnset, encodeUnset, encodeUnset, encodeUnset, encodeUnset,
   encodeBool false, encodeUnset, encodeUnset, encodeBool false, encodeBool false, encodeUnset,
   encodeUnset, encodeBool false, encodeUnset, encodeBool false, encodeBool false,
   encodeBool false, encodeInt fm 0, encodeUnset, encodeUnset, encodeUnset, encodeUnset,
   encodeUnset, encodeUnset, encodeInt fm 0, encodeUnset, encodeUnset, encodeUnset, encodeUnset,
   encodeUnset, encodeUnset, encodeUnset, encodeUnset, encodeBool false, encodeBool false,
   encodeBool false, encodeBool false, encodeUnset, encodeUnset, encodeBool false, encodeUnset,
   encodeUnset]

/-- `requests::place_order`. -/
def placeOrder (orderId : Int) (contract : ContractRequest F) (params : PlaceOrderParams F) :
    List UInt8 :=
  encodeFields (placeOrderFields fm orderId contract params)

/-! ## The fast path -/

/-- The field list of `ContractTemplate::from_contract`. -/
def contractFields (c : ContractRequest F) : List String :=
  [fm.i64ToString c.conId, c.symbol, c.secType, c.lastTradeDate, encodeF64 fm c.strike,
   c.right, c.multiplier, c.exchange, c.primaryExchange, c.currency, c.localSymbol,
   c.tradingClass, encodeUnset, encodeUnset]

/-- `ContractTemplate::from_contract`, as its bytes. -/
def fromContract (c : ContractRequest F) : List UInt8 := pushFields (contractFields fm c)

/-- The field list of `trailing_bytes`. -/
def trailingFields : List String :=
  [encodeInt fm (-1), encodeInt fm 0, encodeUnset, encodeUnset, encodeBool false, encodeUnset,
   encodeUnset, encodeBool false, encodeBool false, encodeUnset, encodeInt fm 0, encodeUnset,
   encodeUnset, encodeUnset, encodeUnset, encodeUnset, encodeBool false, encodeUnset, encodeUnset,
   encodeUnset, encodeUnset, encodeBool false, encodeUnset, encodeUnset, encodeUnset, encodeUnset,
   encodeUnset, encodeUnset, encodeUnset, encodeUnset, encodeUnset, encodeUnset, encodeBool false,
   encodeUnset, encodeUnset, encodeBool false, encodeBool false, encodeUnset, encodeUnset,
   encodeBool false, encodeUnset, encodeBool false, encodeBool false, encodeBool false,
   encodeInt fm 0, encodeUnset, encodeUnset, encodeUnset, encodeUnset, encodeUnset, encodeUnset,
   encodeInt fm 0, encodeUnset, encodeUnset, encodeUnset, encodeUnset, encodeUnset, encodeUnset,
   encodeUnset, encodeUnset, encodeBool false, encodeBool false, encodeBool false,
   encodeBool false, encodeUnset, encodeUnset, encodeBool false, encodeUnset, encodeUnset]

/-- `trailing_bytes`. -/
def trailingBytes : List UInt8 := pushFields (trailingFields fm)

/-- The payload of `place_order_fast`. -/
def fastPayload (orderId : Int) (template : List UInt8) (params : PlaceOrderParams F) :
    List UInt8 :=
  let payload := writeInt fm [] outPlaceOrder ++ [0]
  let payload := writeInt fm payload orderId ++ [0]
  let payload := payload ++ template
  let payload := pushField payload (utf8 params.action)
  let payload := writeQty fm payload params.totalQuantity ++ [0]
  let payload := pushField payload (utf8 params.orderType)
  let payload := writeF64 fm payload params.lmtPrice ++ [0]
  -- a stop price of zero is sent as an unset one
  let payload :=
    if F64.feq params.auxPrice F64.zero then pushField payload (utf8 "")
    else writeF64 fm payload params.auxPrice ++ [0]
  let payload := pushField payload (utf8 params.tif)
  let payload := pushField payload (utf8 "")
  let payload := pushField payload (utf8 params.account)
  let payload := pushField payload (utf8 "O")
  let payload := pushField payload (utf8 "0")
  let payload := pushField payload (utf8 params.orderRef)
  let payload := pushField payload (utf8 "1")
  let payload := pushField payload (utf8 "0")
  let payload := pushField payload (utf8 "0")
  let payload := pushField payload (utf8 "0")
  let payload := pushField payload (utf8 "0")
  let payload := pushField payload (utf8 "0")
  let payload := pushField payload (if params.outsideRth then utf8 "1" else utf8 "0")
  let payload := pushField payload (utf8 "0")
  let payload := pushField payload (utf8 "")
  let payload := writeF64 fm payload F64.zero ++ [0]
  let payload := pushField payload (utf8 "")
  let payload := pushField payload (utf8 params.goodTillDate)
  let payload := pushField payload (utf8 "")
  let payload := pushField payload (utf8 "")
  let payload := pushField payload (utf8 "")
  let payload := pushField payload (utf8 "")
  let payload := pushField payload (utf8 "")
  let payload := pushField payload (utf8 "0")
  let payload := pushField payload (utf8 "")
  payload ++ trailingBytes fm

/-- `place_order_fast`: the payload behind its length. -/
def placeOrderFast (orderId : Int) (template : List UInt8) (params : PlaceOrderParams F) :
    List UInt8 :=
  BigEndian.toBytes 4 (fastPayload fm orderId template params).length ++
    fastPayload fm orderId template params

/-! ## A write is one more field -/

/-- The loop writes every field with its terminator. -/
theorem pushFields_eq (fields : List String) :
    pushFields fields = terminated 0 (fields.map utf8) := by
  suffices h : ∀ buf, fields.foldl (fun bytes f => pushField bytes (utf8 f)) buf =
      buf ++ terminated 0 (fields.map utf8) by
    rw [pushFields, h, List.nil_append]
  induction fields with
  | nil => simp
  | cons f rest ih =>
      intro buf
      rw [List.foldl_cons, ih, List.map_cons, terminated_cons, pushField]
      simp

theorem pushFields_append (front back : List String) :
    pushFields (front ++ back) = pushFields front ++ pushFields back := by
  simp only [pushFields_eq, List.map_append, terminated_append]

theorem pushField_pushFields (fields : List String) (f : String) :
    pushField (pushFields fields) (utf8 f) = pushFields (fields ++ [f]) := by
  rw [pushFields_append]
  simp [pushFields, pushField]

theorem writeInt_pushFields (fields : List String) (v : Int) :
    writeInt fm (pushFields fields) v ++ [0] = pushFields (fields ++ [encodeInt fm v]) := by
  rw [← pushField_pushFields]
  rfl

theorem writeF64_eq (buf : List UInt8) (v : F) :
    writeF64 fm buf v = buf ++ utf8 (encodeF64 fm v) := by
  unfold writeF64 encodeF64
  split <;> rfl

theorem writeF64_pushFields (fields : List String) (v : F) :
    writeF64 fm (pushFields fields) v ++ [0] = pushFields (fields ++ [encodeF64 fm v]) := by
  rw [← pushField_pushFields, writeF64_eq, pushField]

theorem writeQty_pushFields (fields : List String) (v : F) :
    writeQty fm (pushFields fields) v ++ [0] = pushFields (fields ++ [encodeQty fm v]) := by
  rw [← pushField_pushFields, pushField]
  unfold writeQty encodeQty
  split
  · rfl
  · rw [writeF64_eq]

/-! ## Both paths write the same bytes -/

/-- The fields of the order body. -/
def bodyFields (params : PlaceOrderParams F) : List String :=
  [params.action, encodeQty fm params.totalQuantity, params.orderType,
   encodeF64 fm params.lmtPrice,
   if F64.feq params.auxPrice F64.zero then "" else encodeF64 fm params.auxPrice,
   params.tif, "", params.account, "O", "0", params.orderRef, "1", "0", "0", "0", "0", "0",
   if params.outsideRth then "1" else "0", "0", "", encodeF64 fm F64.zero, "",
   params.goodTillDate, "", "", "", "", "", "0", ""]

/-- What the fast path writes, as fields. -/
theorem fastPayload_eq (orderId : Int) (fields : List String) (params : PlaceOrderParams F) :
    fastPayload fm orderId (pushFields fields) params =
      pushFields ([encodeInt fm outPlaceOrder, encodeInt fm orderId] ++ fields ++
        bodyFields fm params ++ trailingFields fm) := by
  have hstart : writeInt fm [] outPlaceOrder ++ [0] =
      pushFields [encodeInt fm outPlaceOrder] := writeInt_pushFields fm [] outPlaceOrder
  have hrth : (if params.outsideRth then utf8 "1" else utf8 "0") =
      utf8 (if params.outsideRth then "1" else "0") := (apply_ite utf8 _ _ _).symm
  have haux (front : List String) : (if F64.feq params.auxPrice F64.zero
        then pushFields (front ++ [""])
        else pushFields (front ++ [encodeF64 fm params.auxPrice])) =
      pushFields (front ++ [if F64.feq params.auxPrice F64.zero then ""
        else encodeF64 fm params.auxPrice]) := by
    split <;> rfl
  simp only [fastPayload, hstart, hrth, writeInt_pushFields, ← pushFields_append,
    pushField_pushFields, writeF64_pushFields, writeQty_pushFields, haux, trailingBytes]
  simp only [bodyFields, List.append_assoc, List.cons_append, List.nil_append]

/-- The slow path's list, cut where the fast path cuts it. -/
theorem placeOrderFields_eq (orderId : Int) (contract : ContractRequest F)
    (params : PlaceOrderParams F) :
    placeOrderFields fm orderId contract params =
      [encodeInt fm outPlaceOrder, encodeInt fm orderId] ++
        contractFields fm contract ++ bodyFields fm params ++ trailingFields fm := by
  simp only [placeOrderFields, contractFields, bodyFields, trailingFields, encodeInt64,
    fm.i64ToString_eq, encodeUnset, encodeBool, encodeInt, fm.itoa_zero]
  rfl

theorem placeOrderFast_eq_placeOrder (orderId : Int) (contract : ContractRequest F)
    (params : PlaceOrderParams F) :
    placeOrderFast fm orderId (fromContract fm contract) params =
      placeOrder fm orderId contract params := by
  rw [placeOrder, encodeFields, placeOrderFields_eq, ← fastPayload_eq]
  rfl

/-! ## A frame is read back -/

/-- A string's own bytes are read as the string. -/
@[simp] theorem fromUtf8Lossy_utf8 (s : String) : fromUtf8Lossy fm (utf8 s) = s := by
  have hbytes : (⟨(utf8 s).toArray⟩ : ByteArray) = s.toByteArray := rfl
  simp [fromUtf8Lossy, hbytes, String.fromUTF8?, String.fromUTF8, s.isValidUTF8]

@[simp] theorem popEmpty_append (fields : List String) : popEmpty (fields ++ [""]) = fields := by
  simp [popEmpty]

theorem ofBytes_encodeFields_take {fields : List String}
    (hfits : (pushFields fields).length < 256 ^ 4) :
    BigEndian.ofBytes ((encodeFields fields).take 4) = (pushFields fields).length := by
  rw [encodeFields, List.take_left' (BigEndian.toBytes_length 4 _)]
  exact BigEndian.ofBytes_toBytes_of_lt hfits

theorem length_encodeFields (fields : List String) :
    (encodeFields fields).length = 4 + (pushFields fields).length := by
  rw [encodeFields, List.length_append, BigEndian.toBytes_length]

/-- The fields of a payload without NUL bytes inside them are read back. -/
theorem fields_pushFields {fields : List String}
    (hnul : ∀ field ∈ fields, (0 : UInt8) ∉ utf8 field) :
    popEmpty (((pushFields fields).splitOn 0).map (fromUtf8Lossy fm)) = fields := by
  have hsplit : (pushFields fields).splitOn 0 = fields.map utf8 ++ [[]] := by
    rw [pushFields_eq]
    refine splitOn_terminated fun bytes hbytes => ?_
    obtain ⟨field, hfield, rfl⟩ := List.mem_map.mp hbytes
    exact hnul field hfield
  have hread : (fields.map utf8 ++ [[]]).map (fromUtf8Lossy fm) = fields ++ [""] := by
    have hempty : fromUtf8Lossy fm [] = "" := fromUtf8Lossy_utf8 fm ""
    simp [List.map_map, Function.comp_def, hempty]
  rw [hsplit, hread, popEmpty_append]

/-- A frame that fits is read back, and nothing of it stays in the buffer. -/
theorem tryDecodeFrame_encodeFields {fields : List String}
    (hnul : ∀ field ∈ fields, (0 : UInt8) ∉ utf8 field)
    (hfits : (pushFields fields).length ≤ maxMessageBytes) :
    tryDecodeFrame fm (encodeFields fields) = (.ok (some fields), []) := by
  have hmax : maxMessageBytes < 256 ^ 4 := by decide
  have hsize := ofBytes_encodeFields_take (show (pushFields fields).length < 256 ^ 4 by omega)
  have hlength := length_encodeFields fields
  have hpayload : (encodeFields fields).drop 4 = pushFields fields := by
    rw [encodeFields, List.drop_left' (BigEndian.toBytes_length 4 _)]
  unfold tryDecodeFrame
  rw [if_neg (by omega), hsize, if_neg (by omega), if_neg (by omega), hpayload, List.take_length,
    List.drop_of_length_le (by omega)]
  simp only [fields_pushFields fm hnul]

/-- A frame that does not fit is refused, and stays in the buffer. -/
theorem tryDecodeFrame_oversize {fields : List String}
    (hlarge : maxMessageBytes < (pushFields fields).length)
    (hfits : (pushFields fields).length < 256 ^ 4) :
    (tryDecodeFrame fm (encodeFields fields)).1 =
      .error (.protocol
        s!"oversize message: {(pushFields fields).length} > {maxMessageBytes}") := by
  have hsize := ofBytes_encodeFields_take hfits
  have hlength := length_encodeFields fields
  unfold tryDecodeFrame
  rw [if_neg (by omega), hsize, if_pos hlarge]

/-! ## NUL bytes -/

/-- Only the NUL character is encoded with a NUL byte. -/
theorem utf8EncodeChar_nul {c : Char} (h : (0 : UInt8) ∈ String.utf8EncodeChar c) :
    c = '\x00' := by
  -- a byte of a longer encoding has its top bit set
  have htop (x mark : UInt8) (hmark : mark ≠ 0) : ¬0 = x ||| mark := fun h =>
    hmark (UInt8.or_eq_zero_iff.mp h.symm).2
  rw [String.utf8EncodeChar_eq_utf8EncodeCharFast, String.utf8EncodeCharFast] at h
  split at h
  · rename_i hle
    have hbyte : c.val.toUInt8 = 0 := (List.mem_singleton.mp h).symm
    have hmod : c.val.toNat % 256 = 0 := (UInt32.toNat_toUInt8 c.val).symm.trans
      (congrArg UInt8.toNat hbyte)
    have hlt : c.val.toNat ≤ 127 := UInt32.le_iff_toNat_le.mp hle
    exact Char.ext (UInt32.toNat_inj.mp (show c.val.toNat = 0 by omega))
  · split at h
    · simp [htop] at h
    · split at h
      · simp [htop] at h
      · simp [htop] at h

theorem utf8_nul {s : String} (h : '\x00' ∉ s.toList) : (0 : UInt8) ∉ utf8 s := by
  obtain ⟨l, rfl⟩ := String.exists_eq_ofList s
  intro hmem
  have hbytes : utf8 (String.ofList l) = l.flatMap String.utf8EncodeChar := by
    simp [utf8, String.toUTF8, List.utf8Encode]
  obtain ⟨c, hc, hbyte⟩ := List.mem_flatMap.mp (hbytes ▸ hmem)
  rw [utf8EncodeChar_nul hbyte] at hc
  exact h (by simpa using hc)

theorem toDigits_nul (n : Nat) : '\x00' ∉ Nat.toDigits 10 n := by
  intro h
  have hdigit := Nat.isDigit_of_mem_toDigits (by decide) (by decide) h
  revert hdigit
  decide

theorem toString_nul (v : Int) : '\x00' ∉ (toString v).toList := by
  cases v with
  | ofNat n =>
      show '\x00' ∉ (Nat.repr n).toList
      simpa [Nat.repr] using toDigits_nul n
  | negSucc n =>
      show '\x00' ∉ ("-" ++ Nat.repr (n + 1)).toList
      simpa [Nat.repr] using toDigits_nul (n + 1)

/-! ## The order's fields -/

/-- The strings of a contract and of an order's parameters. -/
def orderStrings (contract : ContractRequest F) (params : PlaceOrderParams F) : List String :=
  [contract.symbol, contract.secType, contract.lastTradeDate, contract.right,
   contract.multiplier, contract.exchange, contract.primaryExchange, contract.currency,
   contract.localSymbol, contract.tradingClass, params.action, params.orderType, params.tif,
   params.goodTillDate, params.account, params.orderRef]

/-- No string of the order contains a NUL byte. -/
def NulFree (contract : ContractRequest F) (params : PlaceOrderParams F) : Prop :=
  ∀ s ∈ orderStrings contract params, (0 : UInt8) ∉ utf8 s

instance (contract : ContractRequest F) (params : PlaceOrderParams F) :
    Decidable (NulFree contract params) :=
  inferInstanceAs (Decidable (∀ s ∈ orderStrings contract params, (0 : UInt8) ∉ utf8 s))

theorem encodeInt_nul (v : Int) : (0 : UInt8) ∉ utf8 (encodeInt fm v) := fm.itoa_nul v

theorem encodeF64_nul (v : F) : (0 : UInt8) ∉ utf8 (encodeF64 fm v) := by
  unfold encodeF64
  split
  · decide +kernel
  · exact fm.ryu_nul v

theorem encodeQty_nul (v : F) : (0 : UInt8) ∉ utf8 (encodeQty fm v) := by
  unfold encodeQty
  split
  · exact fm.itoa_nul (asI64 v)
  · exact encodeF64_nul fm v

theorem encodeBool_nul (v : Bool) : (0 : UInt8) ∉ utf8 (encodeBool v) := by
  cases v <;> decide +kernel

theorem encodeUnset_nul : (0 : UInt8) ∉ utf8 encodeUnset := by decide +kernel

theorem trailingFields_nul : ∀ field ∈ trailingFields fm, (0 : UInt8) ∉ utf8 field := by
  simp only [trailingFields, List.forall_mem_cons, encodeInt_nul, encodeUnset_nul,
    encodeBool_nul, not_false_eq_true, true_and, List.not_mem_nil, false_implies, implies_true]

theorem contractFields_nul {contract : ContractRequest F} {params : PlaceOrderParams F}
    (hnul : NulFree contract params) :
    ∀ field ∈ contractFields fm contract, (0 : UInt8) ∉ utf8 field := by
  have hconId : (0 : UInt8) ∉ utf8 (fm.i64ToString contract.conId) := by
    rw [fm.i64ToString_eq]
    exact fm.itoa_nul contract.conId
  simp only [NulFree, orderStrings, List.forall_mem_cons] at hnul
  simp only [contractFields, List.forall_mem_cons, hconId, encodeF64_nul, encodeUnset_nul, hnul,
    not_false_eq_true, true_and, List.not_mem_nil, false_implies, implies_true]

theorem bodyFields_nul {contract : ContractRequest F} {params : PlaceOrderParams F}
    (hnul : NulFree contract params) :
    ∀ field ∈ bodyFields fm params, (0 : UInt8) ∉ utf8 field := by
  have hempty : (0 : UInt8) ∉ utf8 "" := by decide +kernel
  have hopen : (0 : UInt8) ∉ utf8 "O" := by decide +kernel
  have hzero : (0 : UInt8) ∉ utf8 "0" := by decide +kernel
  have hone : (0 : UInt8) ∉ utf8 "1" := by decide +kernel
  have haux : (0 : UInt8) ∉ utf8 (if F64.feq params.auxPrice F64.zero then ""
      else encodeF64 fm params.auxPrice) := by
    split
    · exact hempty
    · exact encodeF64_nul fm params.auxPrice
  have hrth : (0 : UInt8) ∉ utf8 (if params.outsideRth then "1" else "0") := by
    split
    · exact hone
    · exact hzero
  simp only [NulFree, orderStrings, List.forall_mem_cons] at hnul
  simp only [bodyFields, List.forall_mem_cons, hempty, hopen, hzero, hone, haux, hrth, hnul,
    encodeQty_nul, encodeF64_nul, not_false_eq_true, true_and, List.not_mem_nil, false_implies,
    implies_true]

/-- No field of an order without NUL bytes contains one. -/
theorem placeOrderFields_nul (orderId : Int) {contract : ContractRequest F}
    {params : PlaceOrderParams F} (hnul : NulFree contract params) {field : String}
    (h : field ∈ placeOrderFields fm orderId contract params) : (0 : UInt8) ∉ utf8 field := by
  rw [placeOrderFields_eq] at h
  simp only [List.mem_append, List.mem_cons, List.not_mem_nil, or_false] at h
  rcases h with (((rfl | rfl) | hcontract) | hbody) | htrailing
  · exact encodeInt_nul fm outPlaceOrder
  · exact encodeInt_nul fm orderId
  · exact contractFields_nul fm hnul field hcontract
  · exact bodyFields_nul fm hnul field hbody
  · exact trailingFields_nul fm field htrailing

/-! ## The frame of an order -/

/-- **Both encoders write the same frame.**  A frame of an order without NUL bytes that is
not larger than the decoder accepts is read as the slow path's field list. -/
theorem place_order_encoders_agree (orderId : Int) (contract : ContractRequest F)
    (params : PlaceOrderParams F) :
    placeOrderFast fm orderId (fromContract fm contract) params =
        placeOrder fm orderId contract params ∧
      (NulFree contract params →
        (pushFields (placeOrderFields fm orderId contract params)).length ≤ maxMessageBytes →
        tryDecodeFrame fm (placeOrderFast fm orderId (fromContract fm contract) params) =
          (.ok (some (placeOrderFields fm orderId contract params)), [])) := by
  have hsame := placeOrderFast_eq_placeOrder fm orderId contract params
  refine ⟨hsame, fun hnul hfits => ?_⟩
  rw [hsame]
  exact tryDecodeFrame_encodeFields fm (fun _ h => placeOrderFields_nul fm orderId hnul h) hfits

/-! ## A run -/

/-- The fewest decimal places that hold the number, at least one. -/
def placesOf (q : ℚ) : Nat :=
  ((List.range' 1 16).find? fun places => (q * 10 ^ places).den == 1).getD 17

theorem ratFixed_nul (places : Nat) (q : ℚ) : '\x00' ∉ (ratFixed places q).toList := by
  unfold ratFixed placePoint
  split <;> split <;> simp [toDigits_nul]

/-- Decimal renderings of the exact rationals. -/
def decimalFormatters : Formatters ℚ where
  itoa := toString
  ryu q := ratFixed (placesOf q) q
  i64ToString := toString
  fract q := q - ratTrunc q
  lossy _ := "\uFFFD"
  itoa_zero := by decide +kernel
  i64ToString_eq _ := rfl
  itoa_nul v := utf8_nul (toString_nul v)
  ryu_nul q := utf8_nul (ratFixed_nul (placesOf q) q)

/-- A copper option. -/
def sampleContract : ContractRequest ℚ where
  conId := 12345
  symbol := "HG"
  secType := "FOP"
  lastTradeDate := "20260526"
  strike := 6.05
  right := "C"
  multiplier := "25000"
  exchange := "COMEX"
  primaryExchange := ""
  currency := "USD"
  localSymbol := "HXEK6 P5950"
  tradingClass := "HXE"

/-- A good-till-date limit order. -/
def sampleParams : PlaceOrderParams ℚ where
  action := "SELL"
  totalQuantity := 1
  orderType := "LMT"
  lmtPrice := 0.0285
  auxPrice := 0
  tif := "GTD"
  goodTillDate := "20260526 16:00:00 UTC"
  account := "DUP553657"
  orderRef := "k123"
  outsideRth := false

theorem place_order_sample_read_back :
    tryDecodeFrame decimalFormatters
        (placeOrderFast decimalFormatters 42 (fromContract decimalFormatters sampleContract)
          sampleParams) =
      (.ok (some (placeOrderFields decimalFormatters 42 sampleContract sampleParams)), []) :=
  (place_order_encoders_agree decimalFormatters 42 sampleContract sampleParams).2
    (by decide +kernel) (by decide +kernel)

/-- The sample with a symbol of `n` letters. -/
def longContract (n : Nat) : ContractRequest ℚ :=
  { sampleContract with symbol := String.ofList (List.replicate n 'A') }

theorem longContract_nulFree (n : Nat) : NulFree (longContract n) sampleParams := by
  have hsymbol : (0 : UInt8) ∉ utf8 (String.ofList (List.replicate n 'A')) :=
    utf8_nul (by simp)
  have hrest : NulFree sampleContract sampleParams := by decide +kernel
  simp only [NulFree, orderStrings, List.forall_mem_cons] at hrest ⊢
  exact ⟨hsymbol, hrest.2⟩

/-- The symbol's bytes come on top of those of the other fields. -/
theorem length_longContract (n : Nat) :
    (pushFields (placeOrderFields decimalFormatters 42 (longContract n) sampleParams)).length =
      n + 254 := by
  have hletters : (utf8 (String.ofList (List.replicate n 'A'))).length = n := by
    have hbytes : utf8 (String.ofList (List.replicate n 'A')) =
        (List.replicate n 'A').flatMap String.utf8EncodeChar := by
      simp [utf8, String.toUTF8, List.utf8Encode]
    have hone : String.utf8EncodeChar 'A' = [65] := by decide
    simp [hbytes, hone, List.flatMap_replicate]
  have hsplit : placeOrderFields decimalFormatters 42 (longContract n) sampleParams =
      (placeOrderFields decimalFormatters 42 sampleContract sampleParams).take 3 ++
        [String.ofList (List.replicate n 'A')] ++
        (placeOrderFields decimalFormatters 42 sampleContract sampleParams).drop 4 := rfl
  have hfront : (pushFields ((placeOrderFields decimalFormatters 42 sampleContract
      sampleParams).take 3)).length = 11 := by decide +kernel
  have hback : (pushFields ((placeOrderFields decimalFormatters 42 sampleContract
      sampleParams).drop 4)).length = 242 := by decide +kernel
  rw [hsplit, pushFields_append, pushFields_append, List.length_append, List.length_append,
    hfront, hback]
  have hsymbol : pushFields [String.ofList (List.replicate n 'A')] =
      utf8 (String.ofList (List.replicate n 'A')) ++ [0] := by simp [pushFields, pushField]
  rw [hsymbol, List.length_append, hletters, List.length_singleton]
  omega

/-- The field list does not bound its strings, and the decoder bounds the frame: one of more
than 16 MiB is refused. -/
theorem oversize_frame_refused :
    ¬∀ (orderId : Int) (contract : ContractRequest ℚ) (params : PlaceOrderParams ℚ),
      NulFree contract params →
      tryDecodeFrame decimalFormatters
          (placeOrderFast decimalFormatters orderId (fromContract decimalFormatters contract)
            params) =
        (.ok (some (placeOrderFields decimalFormatters orderId contract params)), []) := by
  intro hall
  obtain ⟨n, hn⟩ : ∃ n, n = maxMessageBytes := ⟨maxMessageBytes, rfl⟩
  have hread := hall 42 (longContract n) sampleParams (longContract_nulFree n)
  rw [placeOrderFast_eq_placeOrder, placeOrder] at hread
  have hlength := length_longContract n
  have hlarge : maxMessageBytes < n + 254 := by omega
  have hfits : n + 254 < 256 ^ 4 := by
    have hmax : maxMessageBytes + 254 < 256 ^ 4 := by decide
    omega
  rw [← hlength] at hlarge hfits
  have hrefused := tryDecodeFrame_oversize decimalFormatters hlarge hfits
  rw [hread] at hrefused
  cases hrefused

end Corsair.Ports.OrderCodec
