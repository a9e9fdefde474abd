import Corsair.Ports.NativeBroker

/-!
# `corsair_broker_ibkr_native::broker`: placing and modifying orders

Each call has a part before the wire and a part after it.  Before, it checks
the request, builds the frame and installs its waiter; these are
`preparePlace` and `prepareModify`.  Then it sends the frame; a send that fails
takes the waiter out again.  What follows is the wait for the acknowledgement,
which sends nothing.

A frame is the id, the contract section and the parameters that
`place_order_fast` renders.  The contract section comes from the template
cache, keyed by instrument id.
-/

namespace Corsair.Ports.NativeOrders

open Corsair.Verified
open Corsair.Ports.Portfolio (Right Date)
open Corsair.Ports.BrokerApi
open Corsair.Ports.KillRuntime (BrokerError)
open Corsair.Ports.NativeDecoder (TextFormats)
open Corsair.Ports.NativeBroker

variable {F : Type}

/-- `PlaceOrderParams`. -/
structure PlaceOrderParams (F : Type) where
  action : String
  totalQuantity : F
  orderType : String
  lmtPrice : F
  auxPrice : F
  tif : String
  goodTillDate : String
  account : String
  orderRef : String
  outsideRth : Bool
  deriving DecidableEq, Repr

/-- A `placeOrder` frame. -/
structure OrderFrame (F : Type) where
  orderId : Int
  contract : ContractRequest F
  params : PlaceOrderParams F
  deriving DecidableEq, Repr

/-- `exchange_to_str`. -/
def exchangeToStr : Exchange → String
  | .comex => "COMEX"
  | .nymex => "NYMEX"
  | .cbot => "CBOT"
  | .cme => "CME"
  | .other _ => ""

/-- `currency_to_str`. -/
def currencyToStr : Currency → String
  | .usd => "USD"
  | .eur => "EUR"
  | .gbp => "GBP"
  | .jpy => "JPY"

/-- The `tif` field. -/
def tifToStr : TimeInForce → String
  | .gtc => "GTC"
  | .day => "DAY"
  | .gtd => "GTD"
  | .ioc => "IOC"
  | .fok => "FOK"

variable [F64 F]

/-- `place_order_contract_request`. -/
def placeOrderContractRequest (fmt : TextFormats F Date) (c : Contract F) : ContractRequest F where
  conId := asI64 c.instrumentId
  symbol := c.symbol
  secType :=
    match c.kind with
    | .future => "FUT"
    | .option => "FOP"
  lastTradeDate := fmt.formatYmd c.expiry
  strike := c.strike.getD F64.zero
  right :=
    match c.right with
    | some .call => "C"
    | some .put => "P"
    | none => ""
  multiplier := toString (F64.toInt (-2 ^ 63) (2 ^ 63 - 1) c.multiplier)
  exchange := exchangeToStr c.exchange
  primaryExchange := ""
  currency := currencyToStr c.currency
  localSymbol := c.localSymbol
  tradingClass := if c.tradingClass = "" then c.symbol else c.tradingClass

/-- `build_place_params`: the order type and the two prices. -/
def orderPrices (req : PlaceOrderReq F) : Except BrokerError (String × F × F) :=
  match req.orderType with
  | .limit =>
      match req.price with
      | some price => .ok ("LMT", price, F64.zero)
      | none => .error (.invalidRequest "limit order requires price")
  | .market => .ok ("MKT", F64.zero, F64.zero)
  | .stopLimit stopPrice =>
      match req.price with
      | some price => .ok ("STP LMT", price, stopPrice)
      | none => .error (.invalidRequest "stop-limit requires limit price")

/-- `build_place_params`: the expiry of a GTD order. -/
def goodTillDate (fmt : TextFormats F Date) (req : PlaceOrderReq F) : Except BrokerError String :=
  match req.tif, req.gtdUntilUtc with
  | .gtd, some t => .ok (fmt.formatUtc t)
  | .gtd, none => .error (.invalidRequest "Gtd TIF requires gtd_until_utc")
  | _, _ => .ok ""

/-- `build_place_params`. -/
def buildPlaceParams (fmt : TextFormats F Date) (req : PlaceOrderReq F)
    (fallbackAccount : String) : Except BrokerError (PlaceOrderParams F) := do
  let (orderType, lmtPrice, auxPrice) ← orderPrices req
  let goodTillDate ← goodTillDate fmt req
  return {
    action :=
      match req.side with
      | .buy => "BUY"
      | .sell => "SELL"
    totalQuantity := F64.ofInt req.qty
    orderType
    lmtPrice
    auxPrice
    tif := tifToStr req.tif
    goodTillDate
    account := req.account.getD fallbackAccount
    orderRef := req.clientOrderRef
    outsideRth := false }

/-- The template of a contract's instrument id, built on its first use. -/
def templateFor (fmt : TextFormats F Date) (s : BrokerState F) (c : Contract F) :
    ContractRequest F × BrokerState F :=
  match s.placeTemplates.lookup c.instrumentId with
  | some template => (template, s)
  | none =>
      let template := placeOrderContractRequest fmt c
      (template, { s with placeTemplates := s.placeTemplates.insert c.instrumentId template })

/-- `place_order` up to the send.  `orderId` is what `alloc_order_id` answers,
`waiter` the channel of this call. -/
def preparePlace (fmt : TextFormats F Date) (account : String) (s : BrokerState F)
    (orderId : Int) (waiter now : Nat) (req : PlaceOrderReq F) :
    Except BrokerError (OrderFrame F × BrokerState F) :=
  if req.qty = 0 then .error (.invalidRequest "qty must be > 0")
  else if orderId ≤ 0 then
    .error (.internal "next_valid_id not seeded — call wait_for_bootstrap")
  else do
    let params ← buildPlaceParams fmt req account
    let (template, s) := templateFor fmt s req.contract
    return ({ orderId, contract := template, params }, {
      s with
      pendingPlaceAcks := s.pendingPlaceAcks.insert orderId waiter
      wireSendNs := s.wireSendNs.insert orderId now })

/-- `modify_order` up to the send.  Its three short locks are taken as one. -/
def prepareModify (fmt : TextFormats F Date) (account : String) (s : BrokerState F) (id : Nat)
    (waiter now : Nat) (req : ModifyOrderReq F) :
    Except BrokerError (OrderFrame F × BrokerState F) := do
  let some existing := s.openOrders.lookup (asI32 id)
    | .error (.internal ("modify_order: orderId=" ++ toString id ++ " not in open cache"))
  let placeholder : PlaceOrderReq F := {
    contract := existing.contract
    side := existing.side
    qty := req.qty.getD existing.qty
    orderType := existing.orderType
    price := req.price.or existing.price
    tif := existing.tif
    gtdUntilUtc := req.gtdUntilUtc.or existing.gtdUntilUtc
    clientOrderRef := existing.clientOrderRef
    account := some account }
  let params ← buildPlaceParams fmt placeholder account
  let (template, s) := templateFor fmt s existing.contract
  return ({ orderId := asI32 id, contract := template, params }, {
    s with
    pendingPlaceAcks := s.pendingPlaceAcks.insert (asI32 id) waiter
    wireSendNs := s.wireSendNs.insert (asI32 id) now
    expectedAmendPrices :=
      s.expectedAmendPrices.insert (asI32 id) (placeholder.price.getD F64.zero) })

omit [F64 F] in
/-- A send that fails takes the waiter and the send time out again. -/
def sendFailed (s : BrokerState F) (orderId : Int) : BrokerState F :=
  { s with
    pendingPlaceAcks := s.pendingPlaceAcks.erase orderId
    wireSendNs := s.wireSendNs.erase orderId }

end Corsair.Ports.NativeOrders
