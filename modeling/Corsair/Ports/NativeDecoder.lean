import Corsair.Verified.F64

/-!
# `corsair_broker_ibkr_native::{codec, decoder}`: inbound order messages

A frame is the list of its fields.  `parse_inbound` reads the type id and hands
the frame to the parser of that type.  The order messages are decoded in full;
every other type is kept as its id, whatever its own parser would say: nothing
of it reaches the order caches.

Integers are read by the rules of `str::parse`.  Doubles, dates and the `{:?}`
rendering of a string belong to the standard library and to `chrono`;
`TextFormats` lists them.
-/

namespace Corsair.Ports.NativeDecoder

open Corsair.Verified

/-! ## Text -/

/-- What the standard library and `chrono` read and render. -/
structure TextFormats (F : Type) (Date : Type) where
  /-- `str::parse::<f64>`, with the text of its error. -/
  float : String → Except String F
  /-- `NaiveDate::parse_from_str` with `%Y%m%d`. -/
  ymd : String → Option Date
  /-- `{:?}` of a string. -/
  debug : String → String
  /-- `format("%Y%m%d")` of a date. -/
  formatYmd : Date → String
  /-- `format("%Y%m%d %H:%M:%S UTC")` of a time, in nanoseconds since the
  epoch. -/
  formatUtc : Int → String

/-- `ParseIntError`, as it is displayed. -/
def invalidDigit : String := "invalid digit found in string"

def emptyInteger : String := "cannot parse integer from empty string"

def posOverflow : String := "number too large to fit in target type"

def negOverflow : String := "number too small to fit in target type"

def digitValue (c : Char) : Option Int :=
  if '0' ≤ c ∧ c ≤ '9' then some (c.toNat - '0'.toNat : Nat) else none

/-- The digits of a number that is not negative, front to back. -/
def parseUp (hi acc : Int) : List Char → Except String Int
  | [] => .ok acc
  | c :: rest =>
      match digitValue c with
      | none => .error invalidDigit
      | some d => if hi < acc * 10 + d then .error posOverflow else parseUp hi (acc * 10 + d) rest

/-- The digits after a minus sign, counted downwards. -/
def parseDown (lo acc : Int) : List Char → Except String Int
  | [] => .ok acc
  | c :: rest =>
      match digitValue c with
      | none => .error invalidDigit
      | some d =>
          if acc * 10 - d < lo then .error negOverflow else parseDown lo (acc * 10 - d) rest

/-- `str::parse` into a signed integer with the range `lo..=hi`. -/
def parseSigned (lo hi : Int) (s : String) : Except String Int :=
  match s.toList with
  | [] => .error emptyInteger
  | ['+'] => .error invalidDigit
  | ['-'] => .error invalidDigit
  | '+' :: digits => parseUp hi 0 digits
  | '-' :: digits => parseDown lo 0 digits
  | digits => parseUp hi 0 digits

theorem digitValue_nonneg {c : Char} {d : Int} (h : digitValue c = some d) : 0 ≤ d := by
  unfold digitValue at h
  split at h
  · have hd := Option.some.inj h
    omega
  · cases h

theorem parseUp_mem {hi acc n : Int} {digits : List Char} (hacc : 0 ≤ acc) (hle : acc ≤ hi)
    (h : parseUp hi acc digits = .ok n) : 0 ≤ n ∧ n ≤ hi := by
  induction digits generalizing acc with
  | nil =>
      have hn := Except.ok.inj h
      omega
  | cons c rest ih =>
      simp only [parseUp] at h
      split at h
      · cases h
      · rename_i d hdigit
        have hd := digitValue_nonneg hdigit
        split at h
        · cases h
        · exact ih (by omega) (by omega) h

theorem parseDown_mem {lo acc n : Int} {digits : List Char} (hacc : acc ≤ 0) (hle : lo ≤ acc)
    (h : parseDown lo acc digits = .ok n) : lo ≤ n ∧ n ≤ 0 := by
  induction digits generalizing acc with
  | nil =>
      have hn := Except.ok.inj h
      omega
  | cons c rest ih =>
      simp only [parseDown] at h
      split at h
      · cases h
      · rename_i d hdigit
        have hd := digitValue_nonneg hdigit
        split at h
        · cases h
        · exact ih (by omega) (by omega) h

/-- A parsed integer is in the range of its type. -/
theorem parseSigned_mem {lo hi n : Int} {s : String} (hlo : lo ≤ 0) (hhi : 0 ≤ hi)
    (h : parseSigned lo hi s = .ok n) : lo ≤ n ∧ n ≤ hi := by
  unfold parseSigned at h
  split at h
  · cases h
  · cases h
  · cases h
  · have hn := parseUp_mem le_rfl hhi h
    omega
  · have hn := parseDown_mem le_rfl hlo h
    omega
  · have hn := parseUp_mem le_rfl hhi h
    omega

/-- `NativeError`, as far as the decoder builds it. -/
inductive NativeError
  | malformed (message : String)
  deriving DecidableEq, Repr

variable {F : Type} {Date : Type}

/-- The text of a field that does not parse. -/
def expected (fmt : TextFormats F Date) (what s err : String) : NativeError :=
  .malformed ("expected " ++ what ++ ", got " ++ fmt.debug s ++ ": " ++ err)

/-- `parse_int`. -/
def parseInt (fmt : TextFormats F Date) (s : String) : Except NativeError Int :=
  (parseSigned (-2147483648) 2147483647 s).mapError (expected fmt "int" s)

theorem parseInt_mem {fmt : TextFormats F Date} {s : String} {n : Int}
    (h : parseInt fmt s = .ok n) : -2 ^ 31 ≤ n ∧ n < 2 ^ 31 := by
  unfold parseInt at h
  cases hparse : parseSigned (-2147483648) 2147483647 s with
  | error e =>
      rw [hparse] at h
      cases h
  | ok m =>
      have hm := parseSigned_mem (by decide) (by decide) hparse
      rw [hparse] at h
      have hn : m = n := Except.ok.inj h
      omega

/-- `parse_int64`. -/
def parseInt64 (fmt : TextFormats F Date) (s : String) : Except NativeError Int :=
  (parseSigned (-9223372036854775808) 9223372036854775807 s).mapError (expected fmt "int64" s)

section Doubles

variable [F64 F]

/-- `f64::INFINITY`. -/
def infinity : F := F64.lit 1 0 / F64.zero

/-- `parse_f64`. -/
def parseF64 (fmt : TextFormats F Date) (s : String) : Except NativeError F :=
  if s = "" then .ok F64.zero
  else if s = "Infinite" then .ok infinity
  else (fmt.float s).mapError (expected fmt "f64" s)

/-! ## Messages -/

/-- `ContractDecoded`. -/
structure ContractDecoded (F : Type) where
  conId : Int
  symbol : String
  secType : String
  lastTradeDate : String
  strike : F
  right : String
  multiplier : String
  exchange : String
  primaryExchange : String
  currency : String
  localSymbol : String
  tradingClass : String
  deriving DecidableEq, Repr

/-- `OpenOrderMsg`. -/
structure OpenOrderMsg (F : Type) where
  orderId : Int
  contract : ContractDecoded F
  action : String
  totalQuantity : F
  orderType : String
  lmtPrice : F
  tif : String
  account : String
  orderRef : String
  status : String
  filled : F
  remaining : F
  deriving DecidableEq, Repr

/-- `OrderStatusMsg`. -/
structure OrderStatusMsg (F : Type) where
  orderId : Int
  status : String
  filled : F
  remaining : F
  avgFillPrice : F
  permId : Int
  parentId : Int
  lastFillPrice : F
  clientId : Int
  whyHeld : String
  mktCapPrice : F
  deriving DecidableEq, Repr

/-- `ErrorMsg`. -/
structure ErrorMsg where
  reqId : Int
  errorCode : Int
  errorString : String
  advancedOrderRejectJson : String
  deriving DecidableEq, Repr

/-- `InboundMsg`. -/
inductive InboundMsg (F : Type)
  | openOrder (o : OpenOrderMsg F)
  | orderStatus (o : OrderStatusMsg F)
  | error (e : ErrorMsg)
  | other (typeId : Int)
  deriving DecidableEq, Repr

/-! ## Parsers -/

/-- A frame as `try_decode_frame` splits it. -/
abbrev Frame := List String

/-- `fields.get(i)` with the empty string as default. -/
def getField (fields : Frame) (i : Nat) : String := (fields[i]?).getD ""

/-- The error of a frame with too few fields. -/
def tooShort (what : String) (fields : Frame) : NativeError :=
  .malformed (what ++ " fields=" ++ toString fields.length)

/-- `parse_order_status`. -/
def parseOrderStatus (fmt : TextFormats F Date) (fields : Frame) :
    Except NativeError (OrderStatusMsg F) :=
  if fields.length < 12 then .error (tooShort "orderStatus" fields)
  else do
    let orderId ← parseInt fmt (getField fields 1)
    let filled ← parseF64 fmt (getField fields 3)
    let remaining ← parseF64 fmt (getField fields 4)
    let avgFillPrice ← parseF64 fmt (getField fields 5)
    let permId ← parseInt fmt (getField fields 6)
    let parentId ← parseInt fmt (getField fields 7)
    let lastFillPrice ← parseF64 fmt (getField fields 8)
    let clientId ← parseInt fmt (getField fields 9)
    let mktCapPrice ← parseF64 fmt (getField fields 11)
    return {
      orderId, status := getField fields 2, filled, remaining, avgFillPrice, permId, parentId
      lastFillPrice, clientId, whyHeld := getField fields 10, mktCapPrice }

/-- `parse_open_order`.  The frame carries no status and no filled or remaining
quantity, and the message's are the constants below. -/
def parseOpenOrder (fmt : TextFormats F Date) (fields : Frame) :
    Except NativeError (OpenOrderMsg F) :=
  if fields.length < 17 then .error (tooShort "openOrder" fields)
  else do
    let orderId ← parseInt fmt (getField fields 1)
    let conId ← parseInt64 fmt (getField fields 2)
    let strike ← parseF64 fmt (getField fields 6)
    let totalQuantity ← parseF64 fmt (getField fields 14)
    let lmtPrice ← parseF64 fmt (getField fields 16)
    return {
      orderId
      contract := {
        conId
        symbol := getField fields 3
        secType := getField fields 4
        lastTradeDate := getField fields 5
        strike
        right := getField fields 7
        multiplier := getField fields 8
        exchange := getField fields 9
        primaryExchange := ""
        currency := getField fields 10
        localSymbol := getField fields 11
        tradingClass := getField fields 12 }
      action := getField fields 13
      totalQuantity
      orderType := getField fields 15
      lmtPrice
      tif := getField fields 18
      account := getField fields 20
      orderRef := getField fields 23
      status := ""
      filled := F64.zero
      remaining := F64.zero }

/-- `parse_error`. -/
def parseError (fmt : TextFormats F Date) (fields : Frame) : Except NativeError ErrorMsg :=
  if fields.length < 5 then .error (tooShort "errMsg" fields)
  else do
    let reqId ← parseInt fmt (getField fields 2)
    let errorCode ← parseInt fmt (getField fields 3)
    return {
      reqId, errorCode, errorString := getField fields 4
      advancedOrderRejectJson := getField fields 5 }

def inOrderStatus : Int := 3

def inErrMsg : Int := 4

def inOpenOrder : Int := 5

/-- `parse_inbound`. -/
def parseInbound (fmt : TextFormats F Date) : Frame → Except NativeError (InboundMsg F)
  | [] => .error (.malformed "empty frame")
  | ty :: body => do
      let typeId ← parseInt fmt ty
      if typeId = inOrderStatus then return .orderStatus (← parseOrderStatus fmt (ty :: body))
      else if typeId = inErrMsg then return .error (← parseError fmt (ty :: body))
      else if typeId = inOpenOrder then return .openOrder (← parseOpenOrder fmt (ty :: body))
      else return .other typeId

theorem ok_of_bind {ε α β : Type} {x : Except ε α} {f : α → Except ε β} {b : β}
    (h : (x >>= f) = .ok b) : ∃ a, x = .ok a ∧ f a = .ok b := by
  cases x with
  | error e => exact absurd h (by simp [bind, Except.bind])
  | ok a => exact ⟨a, rfl, h⟩

/-- A decoded open order comes from `parse_open_order`. -/
theorem parseInbound_openOrder {fmt : TextFormats F Date} {fields : Frame} {o : OpenOrderMsg F}
    (h : parseInbound fmt fields = .ok (.openOrder o)) : parseOpenOrder fmt fields = .ok o := by
  cases fields with
  | nil => exact absurd h (by simp [parseInbound])
  | cons ty body =>
      obtain ⟨typeId, _, h⟩ := ok_of_bind h
      split at h
      · obtain ⟨status, _, h⟩ := ok_of_bind h
        cases h
      · split at h
        · obtain ⟨error, _, h⟩ := ok_of_bind h
          cases h
        · split at h
          · obtain ⟨decoded, hdecoded, h⟩ := ok_of_bind h
            cases h
            exact hdecoded
          · cases h

/-- The id of a decoded open order is an `i32`, and no quantity remains. -/
theorem parseOpenOrder_spec {fmt : TextFormats F Date} {fields : Frame} {o : OpenOrderMsg F}
    (h : parseOpenOrder fmt fields = .ok o) :
    (-2 ^ 31 ≤ o.orderId ∧ o.orderId < 2 ^ 31) ∧ o.remaining = F64.zero := by
  unfold parseOpenOrder at h
  split at h
  · cases h
  · obtain ⟨orderId, horderId, h⟩ := ok_of_bind h
    obtain ⟨conId, _, h⟩ := ok_of_bind h
    obtain ⟨strike, _, h⟩ := ok_of_bind h
    obtain ⟨totalQuantity, _, h⟩ := ok_of_bind h
    obtain ⟨lmtPrice, _, h⟩ := ok_of_bind h
    cases h
    exact ⟨parseInt_mem horderId, rfl⟩

end Doubles

end Corsair.Ports.NativeDecoder
