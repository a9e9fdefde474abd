import Corsair.Ports.RestingSweep
import Corsair.Ports.NativeOrders

/-!
# `corsair_broker_ibkr_native::broker`: an amend against the order it amends

`modify_order` sends the order again under its id.  It builds the frame from the cached
order, and that is what the gateway's echo says; the contract section comes from the
template cache, which `place_order` and `modify_order` share.

A session places, amends, hears from the gateway and restarts.  `sent` keeps the frames
that reached the gateway, over all restarts.  The wait for an acknowledgement sends nothing
and changes neither cache; it is not a step.

## Main results

* `cachedFrom_of_echo` — what the cache keeps of a frame that was echoed.
* `amends_of_prepareModify` — the frame of an amend against the frame that was echoed.
* `amend_frames_faithful` — every frame sent carries its contract's section, and an amend
  keeps everything but the limit price and the good-till date.
-/

namespace Corsair.Ports.AmendFidelity

open Corsair.Verified
open Corsair.Verified.Runs
open Corsair.Ports.Portfolio (Right Date)
open Corsair.Ports.BrokerApi
open Corsair.Ports.KillRuntime (BrokerError)
open Corsair.Ports.NativeDecoder
open Corsair.Ports.NativeBroker
open Corsair.Ports.NativeOrders
open Corsair.Ports.RestingSweep (plainFormats)

variable {F : Type} [F64 F]

/-! ## Contracts and formats -/

/-- The contracts that orders are placed for, one an instrument id.  A strike that is there
is positive, as `native_to_contract` builds it. -/
structure Catalogue (F : Type) [F64 F] where
  contract : Nat → Contract F
  instrumentId_eq : ∀ id, (contract id).instrumentId = id
  strike_pos : ∀ id x, (contract id).strike = some x → F64.gt x F64.zero = true

/-- The contract section of an instrument's frames. -/
def Catalogue.request (cat : Catalogue F) (fmt : TextFormats F Date) (id : Nat) :
    ContractRequest F :=
  placeOrderContractRequest fmt (cat.contract id)

/-- `multiplier as i64`. -/
def wholePart (x : F) : Int := F64.toInt (-2 ^ 63) (2 ^ 63 - 1) x

/-- Texts of these contracts are read back, and a date with more text behind it is not a
date. -/
structure ReadsBack (fmt : TextFormats F Date) (cat : Catalogue F) : Prop where
  date : ∀ id, fmt.ymd (fmt.formatYmd (cat.contract id).expiry) = some (cat.contract id).expiry
  suffixed : ∀ id suffix,
    fmt.ymd (fmt.formatYmd (cat.contract id).expiry ++ " " ++ suffix) = none
  multiplier : ∀ id,
    wholePart ((fmt.float (toString (wholePart (cat.contract id).multiplier))).toOption.getD
      F64.zero) = wholePart (cat.contract id).multiplier
  quantity : ∀ n : Nat, n < 2 ^ 32 → asU32 (F64.ofInt n : F) = n

/-- The message shows the order's own fields.  The date may have a time behind it, and the
limit price is the one that the gateway works. -/
structure Echoes (frame : OrderFrame F) (o : OpenOrderMsg F) : Prop where
  orderId : o.orderId = frame.orderId
  conId : o.contract.conId = frame.contract.conId
  symbol : o.contract.symbol = frame.contract.symbol
  secType : o.contract.secType = frame.contract.secType
  date : o.contract.lastTradeDate = frame.contract.lastTradeDate ∨
    ∃ suffix, o.contract.lastTradeDate = frame.contract.lastTradeDate ++ " " ++ suffix
  strike : o.contract.strike = frame.contract.strike
  right : o.contract.right = frame.contract.right
  multiplier : o.contract.multiplier = frame.contract.multiplier
  exchange : o.contract.exchange = frame.contract.exchange
  currency : o.contract.currency = frame.contract.currency
  localSymbol : o.contract.localSymbol = frame.contract.localSymbol
  tradingClass : o.contract.tradingClass = frame.contract.tradingClass
  action : o.action = frame.params.action
  totalQuantity : o.totalQuantity = frame.params.totalQuantity
  orderType : o.orderType = frame.params.orderType
  tif : o.tif = frame.params.tif
  orderRef : o.orderRef = frame.params.orderRef

/-! ## Sessions -/

/-- The adapter's caches, and the frames that reached the gateway, oldest first. -/
structure Session (F : Type) where
  state : BrokerState F
  sent : List (OrderFrame F)

inductive Event (F : Type)
  | place (orderId : Int) (waiter now : Nat) (req : PlaceOrderReq F) (delivered : Bool)
  | modify (id waiter now : Nat) (req : ModifyOrderReq F) (delivered : Bool)
  | inbound (a : Arrival)
  | restart

/-- The frame goes out, or its send fails. -/
def Session.submit (c : Session F) (delivered : Bool) :
    Except BrokerError (OrderFrame F × BrokerState F) → Session F
  | .ok (frame, s) =>
      if delivered then { state := s, sent := c.sent ++ [frame] }
      else { c with state := sendFailed s frame.orderId }
  | .error _ => c

/-- One step. -/
def sessionStep (fmt : TextFormats F Date) (account : String) (c : Session F) :
    Event F → Session F
  | .place orderId waiter now req delivered =>
      c.submit delivered (preparePlace fmt account c.state orderId waiter now req)
  | .modify id waiter now req delivered =>
      c.submit delivered (prepareModify fmt account c.state id waiter now req)
  | .inbound a => { c with state := dispatch fmt c.state a }
  | .restart => { c with state := emptyState }

/-- Before the first order. -/
def newSession : Session F := { state := emptyState, sent := [] }

/-! ## What is asked of the frames -/

/-- The frame is the other one up to the limit price and the good-till date. -/
def Amends (frame original : OrderFrame F) : Prop :=
  frame.contract = original.contract ∧
    frame.params = { original.params with
      lmtPrice := frame.params.lmtPrice, goodTillDate := frame.params.goodTillDate }

/-- The frame that an order was sent with first. -/
def originalOf (sent : List (OrderFrame F)) (orderId : Int) : Option (OrderFrame F) :=
  sent.find? fun f => f.orderId == orderId

/-- Every frame carries the section of its instrument's contract, and amends the frame that
its order was sent with first. -/
def Faithful (fmt : TextFormats F Date) (cat : Catalogue F) (sent : List (OrderFrame F)) :
    Prop :=
  ∀ frame ∈ sent, frame.contract = cat.request fmt (asU64 frame.contract.conId) ∧
    ∀ original, originalOf sent frame.orderId = some original → Amends frame original

/-- Calls and echoes as the system has them.  An order is placed with its instrument's
contract and a new id, and the gateway echoes frames that it was sent. -/
def Proper (fmt : TextFormats F Date) (cat : Catalogue F) (c : Session F) : Event F → Prop
  | .place orderId _ _ req _ =>
      req.contract = cat.contract req.contract.instrumentId ∧
        req.contract.instrumentId < 2 ^ 64 ∧ req.qty < 2 ^ 32 ∧
        ∀ frame ∈ c.sent, frame.orderId ≠ orderId
  | .inbound a =>
      ∀ o, parseInbound fmt a.frame = .ok (.openOrder o) → ∃ frame ∈ c.sent, Echoes frame o
  | .modify .. | .restart => True

/-- An amend of a cached order finds its instrument's template or a date that could be read
in the echo, names no other quantity, and is for an order without a stop price under the
configured account. -/
def Amendable (account : String) (c : Session F) : Event F → Prop
  | .modify id _ _ req _ =>
      ∀ existing, c.state.openOrders.lookup (asI32 id) = some existing →
        ((c.state.placeTemplates.lookup existing.contract.instrumentId).isSome ∨
            existing.contract.expiry ≠ epochDate) ∧
          (∀ qty, req.qty = some qty → qty = existing.qty) ∧
          ∀ frame ∈ c.sent, frame.orderId = asI32 id →
            frame.params.auxPrice = F64.zero ∧ frame.params.account = account
  | .place .. | .inbound _ | .restart => True

/-! ## Parameters -/

/-- The `action` field. -/
def actionOf : Side → String
  | .buy => "BUY"
  | .sell => "SELL"

/-- The `orderType` field. -/
def orderTypeOf : OrderType F → String
  | .limit => "LMT"
  | .market => "MKT"
  | .stopLimit _ => "STP LMT"

/-- The `auxPrice` field. -/
def stopOf : OrderType F → F
  | .limit | .market => F64.zero
  | .stopLimit stop => stop

/-- The parameters of a request, with the two fields that an amend sets. -/
def paramsOf (req : PlaceOrderReq F) (fallbackAccount : String) (lmtPrice : F)
    (goodTillDate : String) : PlaceOrderParams F where
  action := actionOf req.side
  totalQuantity := F64.ofInt req.qty
  orderType := orderTypeOf req.orderType
  lmtPrice
  auxPrice := stopOf req.orderType
  tif := tifToStr req.tif
  goodTillDate
  account := req.account.getD fallbackAccount
  orderRef := req.clientOrderRef
  outsideRth := false

theorem orderPrices_spec {req : PlaceOrderReq F} {orderType : String} {lmtPrice auxPrice : F}
    (h : orderPrices req = .ok (orderType, lmtPrice, auxPrice)) :
    orderType = orderTypeOf req.orderType ∧ auxPrice = stopOf req.orderType := by
  unfold orderPrices at h
  split at h
  · rename_i hlimit
    split at h
    · cases h
      rw [hlimit]
      exact ⟨rfl, rfl⟩
    · cases h
  · rename_i hmarket
    cases h
    rw [hmarket]
    exact ⟨rfl, rfl⟩
  · rename_i hstop
    split at h
    · cases h
      rw [hstop]
      exact ⟨rfl, rfl⟩
    · cases h

/-- `build_place_params` sets every field from the request. -/
theorem buildPlaceParams_spec {fmt : TextFormats F Date} {req : PlaceOrderReq F}
    {fallbackAccount : String} {params : PlaceOrderParams F}
    (h : buildPlaceParams fmt req fallbackAccount = .ok params) :
    params = paramsOf req fallbackAccount params.lmtPrice params.goodTillDate := by
  obtain ⟨⟨orderType, lmtPrice, auxPrice⟩, hprices, h⟩ := ok_of_bind h
  obtain ⟨date, -, h⟩ := ok_of_bind h
  obtain ⟨htype, haux⟩ := orderPrices_spec hprices
  obtain rfl := Except.ok.inj h
  cases hside : req.side with
  | buy => simp only [paramsOf, actionOf, hside, ← htype, ← haux]
  | sell => simp only [paramsOf, actionOf, hside, ← htype, ← haux]

/-- The parameters are those of a request whose quantity is a `u32`. -/
def Requested (params : PlaceOrderParams F) : Prop :=
  ∃ req fallbackAccount, req.qty < 2 ^ 32 ∧
    params = paramsOf req fallbackAccount params.lmtPrice params.goodTillDate

/-! ## What the cache keeps of an echo -/

/-- The cached order is one that an echo of the frame gives. -/
structure CachedFrom (fmt : TextFormats F Date) (frame : OrderFrame F) (order : OpenOrder F) :
    Prop where
  instrumentId : order.contract.instrumentId = asU64 frame.contract.conId
  contract : order.contract.expiry ≠ epochDate →
    placeOrderContractRequest fmt order.contract = frame.contract
  action : actionOf order.side = frame.params.action
  qty_lt : order.qty < 2 ^ 32
  quantity : F64.ofInt order.qty = frame.params.totalQuantity
  orderType : orderTypeOf order.orderType = frame.params.orderType
  stop : stopOf order.orderType = F64.zero
  tif : tifToStr order.tif = frame.params.tif
  orderRef : order.clientOrderRef = frame.params.orderRef

theorem asU64_asI64 {n : Nat} (h : n < 2 ^ 64) : asU64 (asI64 n) = n := by
  unfold asU64 asI64
  split
  · omega
  · omega

theorem asI64_asU64_asI64 (n : Nat) : asI64 (asU64 (asI64 n)) = asI64 n := by
  unfold asU64 asI64
  split
  · omega
  · omega

omit [F64 F] in
theorem parseSide_actionOf {side : Side} : parseSide (actionOf side) = some side := by
  cases side <;> decide

theorem parseOrderType_orderTypeOf (orderType : OrderType F) :
    orderTypeOf (parseOrderType (orderTypeOf orderType) (F64.zero : F)) = orderTypeOf orderType ∧
      stopOf (parseOrderType (orderTypeOf orderType) (F64.zero : F)) = F64.zero := by
  cases orderType <;> exact ⟨rfl, rfl⟩

theorem parseTif_tifToStr (tif : TimeInForce) : parseTif (tifToStr tif) = tif := by
  cases tif <;> decide

theorem exchangeToStr_parse (e : Exchange) : exchangeToStr (parseExchange (exchangeToStr e)) =
    exchangeToStr e := by
  cases e with
  | other code =>
      show exchangeToStr (parseExchange "") = ""
      decide
  | _ => decide

theorem currencyToStr_parse (c : Currency) : currencyToStr (parseCurrency (currencyToStr c)) =
    currencyToStr c := by
  cases c <;> decide

/-- The contract that is read off an echo. -/
def contractOfEcho (fmt : TextFormats F Date) (c : ContractDecoded F) (kind : ContractKind) :
    Contract F where
  instrumentId := asU64 c.conId
  kind
  symbol := c.symbol
  localSymbol := c.localSymbol
  expiry := (fmt.ymd c.lastTradeDate).getD epochDate
  strike := if F64.gt c.strike F64.zero then some c.strike else none
  right := parseRight c.right
  multiplier := (fmt.float c.multiplier).toOption.getD F64.zero
  exchange := parseExchange c.exchange
  currency := parseCurrency c.currency
  tradingClass := c.tradingClass

theorem nativeToOpenOrder_spec {fmt : TextFormats F Date} {o : OpenOrderMsg F}
    {order : OpenOrder F} (h : nativeToOpenOrder fmt o = some order) :
    (∃ kind, parseKind o.contract.secType = some kind ∧
        order.contract = contractOfEcho fmt o.contract kind) ∧
      parseSide o.action = some order.side ∧ order.qty = asU32 o.totalQuantity ∧
      order.orderType = parseOrderType o.orderType F64.zero ∧ order.tif = parseTif o.tif ∧
      order.clientOrderRef = o.orderRef := by
  obtain ⟨kind, hkind, h⟩ := Option.bind_eq_some_iff.mp h
  obtain ⟨side, hside, h⟩ := Option.bind_eq_some_iff.mp h
  obtain rfl := Option.some.inj h
  exact ⟨⟨kind, hkind, rfl⟩, hside, rfl, rfl, rfl, rfl⟩

/-- The contract that is read off an echo has the frame's section, if the date could be
read. -/
theorem contractRequest_of_echo {fmt : TextFormats F Date} {cat : Catalogue F}
    (hlaws : ReadsBack fmt cat) {frame : OrderFrame F} {o : OpenOrderMsg F}
    (hecho : Echoes frame o) {id : Nat} (hcontract : frame.contract = cat.request fmt id)
    {kind : ContractKind} (hkind : parseKind o.contract.secType = some kind)
    (hdate : (contractOfEcho fmt o.contract kind).expiry ≠ epochDate) :
    placeOrderContractRequest fmt (contractOfEcho fmt o.contract kind) = frame.contract := by
  have hexpiry : (fmt.ymd o.contract.lastTradeDate).getD epochDate = (cat.contract id).expiry := by
    rcases hecho.date with hplain | ⟨suffix, hsuffixed⟩
    · rw [hplain, hcontract]
      exact congrArg (Option.getD · epochDate) (hlaws.date id)
    · refine absurd ?_ hdate
      show (fmt.ymd o.contract.lastTradeDate).getD epochDate = epochDate
      rw [hsuffixed, hcontract]
      exact congrArg (Option.getD · epochDate) (hlaws.suffixed id suffix)
  rw [hecho.secType, hcontract] at hkind
  rw [hcontract]
  simp only [Catalogue.request, placeOrderContractRequest, contractOfEcho, hexpiry, hecho.conId,
    hecho.symbol, hecho.strike, hecho.right, hecho.multiplier, hecho.exchange, hecho.currency,
    hecho.localSymbol, hecho.tradingClass, hcontract, asI64_asU64_asI64, exchangeToStr_parse,
    currencyToStr_parse, ContractRequest.mk.injEq, true_and]
  refine ⟨?_, ?_, ?_, congrArg toString (hlaws.multiplier id), ?_⟩
  · simp only [Catalogue.request, placeOrderContractRequest] at hkind
    cases hown : (cat.contract id).kind with
    | future =>
        rw [hown] at hkind
        obtain rfl : ContractKind.future = kind := Option.some.inj hkind
        rfl
    | option =>
        rw [hown] at hkind
        obtain rfl : ContractKind.option = kind := Option.some.inj hkind
        rfl
  · cases hown : (cat.contract id).strike with
    | none =>
        rw [Option.getD_none]
        split <;> rfl
    | some x =>
        rw [Option.getD_some, if_pos (cat.strike_pos id x hown)]
        rfl
  · rcases (cat.contract id).right with _ | _ | _ <;> rfl
  · split
    · split <;> rfl
    · rfl

/-- What the cache keeps of an echo. -/
theorem cachedFrom_of_echo {fmt : TextFormats F Date} {cat : Catalogue F}
    (hlaws : ReadsBack fmt cat) {frame : OrderFrame F} {o : OpenOrderMsg F}
    (hecho : Echoes frame o) {id : Nat} (hcontract : frame.contract = cat.request fmt id)
    (hrequested : Requested frame.params) {order : OpenOrder F}
    (horder : nativeToOpenOrder fmt o = some order) : CachedFrom fmt frame order := by
  obtain ⟨⟨kind, hkind, hread⟩, hside, hqty, htype, htif, href⟩ := nativeToOpenOrder_spec horder
  obtain ⟨req, fallbackAccount, hlt, hparams⟩ := hrequested
  have haction : frame.params.action = actionOf req.side := by rw [hparams]; rfl
  have htotal : frame.params.totalQuantity = F64.ofInt req.qty := by rw [hparams]; rfl
  have horderType : frame.params.orderType = orderTypeOf req.orderType := by rw [hparams]; rfl
  have hframeTif : frame.params.tif = tifToStr req.tif := by rw [hparams]; rfl
  have hreqQty : order.qty = req.qty := by
    rw [hqty, hecho.totalQuantity, htotal]
    exact hlaws.quantity req.qty hlt
  rw [hecho.orderType, horderType] at htype
  obtain ⟨hback, hstop⟩ := parseOrderType_orderTypeOf req.orderType
  exact {
    instrumentId := by rw [hread, ← hecho.conId]; rfl
    contract := fun hdate => by
      rw [hread] at hdate ⊢
      exact contractRequest_of_echo hlaws hecho hcontract hkind hdate
    action := by
      rw [hecho.action, haction, parseSide_actionOf] at hside
      rw [haction, Option.some.inj hside]
    qty_lt := hreqQty ▸ hlt
    quantity := by rw [htotal, hreqQty]
    orderType := by rw [htype, horderType, hback]
    stop := by rw [htype, hstop]
    tif := by rw [htif, hecho.tif, hframeTif, parseTif_tifToStr]
    orderRef := by rw [href, hecho.orderRef] }

/-! ## What a call makes -/

/-- What a call sends for a contract: the section comes from the template, and of the caches
only the templates change. -/
structure Prepared (fmt : TextFormats F Date) (s : BrokerState F) (c : Contract F)
    (frame : OrderFrame F) (s' : BrokerState F) : Prop where
  contract : frame.contract = (templateFor fmt s c).1
  placeTemplates : s'.placeTemplates = (templateFor fmt s c).2.placeTemplates
  openOrders : s'.openOrders = s.openOrders

theorem templateFor_of_some {fmt : TextFormats F Date} {s : BrokerState F} {c : Contract F}
    {template : ContractRequest F} (h : s.placeTemplates.lookup c.instrumentId = some template) :
    templateFor fmt s c = (template, s) := by
  unfold templateFor
  rw [h]

theorem templateFor_of_none {fmt : TextFormats F Date} {s : BrokerState F} {c : Contract F}
    (h : s.placeTemplates.lookup c.instrumentId = none) :
    templateFor fmt s c = (placeOrderContractRequest fmt c, { s with
      placeTemplates :=
        s.placeTemplates.insert c.instrumentId (placeOrderContractRequest fmt c) }) := by
  unfold templateFor
  rw [h]

theorem openOrders_templateFor (fmt : TextFormats F Date) (s : BrokerState F) (c : Contract F) :
    (templateFor fmt s c).2.openOrders = s.openOrders := by
  unfold templateFor
  split <;> rfl

theorem preparePlace_spec {fmt : TextFormats F Date} {account : String} {s s' : BrokerState F}
    {orderId : Int} {waiter now : Nat} {req : PlaceOrderReq F} {frame : OrderFrame F}
    (h : preparePlace fmt account s orderId waiter now req = .ok (frame, s')) :
    Prepared fmt s req.contract frame s' ∧ frame.orderId = orderId ∧
      frame.params = paramsOf req account frame.params.lmtPrice frame.params.goodTillDate := by
  unfold preparePlace at h
  split at h
  · cases h
  · split at h
    · cases h
    · obtain ⟨params, hparams, h⟩ := ok_of_bind h
      obtain ⟨rfl, rfl⟩ := Prod.mk.inj (Except.ok.inj h)
      exact ⟨⟨rfl, rfl, openOrders_templateFor fmt s req.contract⟩, rfl,
        buildPlaceParams_spec hparams⟩

/-- The request that `modify_order` builds from the cached order. -/
def placeholder (account : String) (existing : OpenOrder F) (req : ModifyOrderReq F) :
    PlaceOrderReq F where
  contract := existing.contract
  side := existing.side
  qty := req.qty.getD existing.qty
  orderType := existing.orderType
  price := req.price.or existing.price
  tif := existing.tif
  gtdUntilUtc := req.gtdUntilUtc.or existing.gtdUntilUtc
  clientOrderRef := existing.clientOrderRef
  account := some account

theorem prepareModify_spec {fmt : TextFormats F Date} {account : String} {s s' : BrokerState F}
    {id waiter now : Nat} {req : ModifyOrderReq F} {frame : OrderFrame F}
    (h : prepareModify fmt account s id waiter now req = .ok (frame, s')) :
    ∃ existing, s.openOrders.lookup (asI32 id) = some existing ∧
      Prepared fmt s existing.contract frame s' ∧ frame.orderId = asI32 id ∧
      frame.params = paramsOf (placeholder account existing req) account frame.params.lmtPrice
        frame.params.goodTillDate := by
  unfold prepareModify at h
  split at h
  · rename_i existing hexisting
    obtain ⟨params, hparams, h⟩ := ok_of_bind h
    obtain ⟨rfl, rfl⟩ := Prod.mk.inj (Except.ok.inj h)
    exact ⟨existing, hexisting, ⟨rfl, rfl, openOrders_templateFor fmt s existing.contract⟩, rfl,
      buildPlaceParams_spec hparams⟩
  · cases h

/-! ## What holds all along -/

omit [F64 F] in
theorem Amends.refl (frame : OrderFrame F) : Amends frame frame := ⟨rfl, rfl⟩

omit [F64 F] in
theorem Amends.trans {a b c : OrderFrame F} (hab : Amends a b) (hbc : Amends b c) :
    Amends a c := by
  refine ⟨hab.1.trans hbc.1, ?_⟩
  rw [hab.2, hbc.2]

/-- What every step keeps: the templates are the contracts' sections, and the cache holds
what was read off echoes of frames that were sent. -/
structure Inv (fmt : TextFormats F Date) (cat : Catalogue F) (c : Session F) : Prop where
  faithful : Faithful fmt cat c.sent
  requested : ∀ frame ∈ c.sent, Requested frame.params
  templates : ∀ id template, c.state.placeTemplates.lookup id = some template →
    id < 2 ^ 64 ∧ template = cat.request fmt id
  cached : ∀ orderId order, c.state.openOrders.lookup orderId = some order →
    ∃ frame ∈ c.sent, frame.orderId = orderId ∧ CachedFrom fmt frame order

theorem inv_newSession (fmt : TextFormats F Date) (cat : Catalogue F) :
    Inv fmt cat newSession where
  faithful _ h := by cases h
  requested _ h := by cases h
  templates _ _ h := by cases h
  cached _ _ h := by cases h

theorem asU64_request_conId {fmt : TextFormats F Date} {cat : Catalogue F} {id : Nat}
    (hid : id < 2 ^ 64) : asU64 (cat.request fmt id).conId = id := by
  show asU64 (asI64 (cat.contract id).instrumentId) = id
  rw [cat.instrumentId_eq]
  exact asU64_asI64 hid

/-- A frame joins the ones that were sent: it has its contract's section, and it amends the
first of its order, if there is one. -/
theorem Faithful.concat {fmt : TextFormats F Date} {cat : Catalogue F}
    {sent : List (OrderFrame F)} (h : Faithful fmt cat sent) {frame : OrderFrame F}
    (hcontract : frame.contract = cat.request fmt (asU64 frame.contract.conId))
    (hamends : ∀ original, originalOf sent frame.orderId = some original →
      Amends frame original) : Faithful fmt cat (sent ++ [frame]) := by
  have happend (orderId : Int) : originalOf (sent ++ [frame]) orderId =
      (originalOf sent orderId).or (originalOf [frame] orderId) := List.find?_append
  intro f hf
  rcases List.mem_append.mp hf with hold | hnew
  · refine ⟨(h f hold).1, fun original horiginal => (h f hold).2 original ?_⟩
    have hsome : (originalOf sent f.orderId).isSome :=
      List.find?_isSome.mpr ⟨f, hold, beq_self_eq_true _⟩
    rw [happend, Option.or_of_isSome hsome] at horiginal
    exact horiginal
  · rw [List.mem_singleton.mp hnew]
    refine ⟨hcontract, fun original horiginal => ?_⟩
    rw [happend] at horiginal
    cases hfirst : originalOf sent frame.orderId with
    | some first =>
        rw [hfirst, Option.some_or] at horiginal
        exact hamends original (hfirst.trans horiginal)
    | none =>
        rw [hfirst, Option.none_or] at horiginal
        have hself : originalOf [frame] frame.orderId = some frame := by simp [originalOf]
        obtain rfl := Option.some.inj (hself.symm.trans horiginal)
        exact Amends.refl frame

/-- **A call that sends.** The frame has its contract's section, comes from a request, and
amends the first frame of its order, if there is one. -/
theorem Inv.submit {fmt : TextFormats F Date} {cat : Catalogue F} {c : Session F}
    (h : Inv fmt cat c) {contract : Contract F} {frame : OrderFrame F} {s' : BrokerState F}
    (hprepared : Prepared fmt c.state contract frame s') (hid : contract.instrumentId < 2 ^ 64)
    (hcontract : frame.contract = cat.request fmt contract.instrumentId)
    (hrequested : Requested frame.params)
    (hamends : ∀ original, originalOf c.sent frame.orderId = some original →
      Amends frame original) (delivered : Bool) :
    Inv fmt cat (c.submit delivered (.ok (frame, s'))) := by
  have htemplates : ∀ id template, s'.placeTemplates.lookup id = some template →
      id < 2 ^ 64 ∧ template = cat.request fmt id := by
    intro id template hlookup
    have hsection := hprepared.contract.symm.trans hcontract
    rw [hprepared.placeTemplates] at hlookup
    cases hown : c.state.placeTemplates.lookup contract.instrumentId with
    | some own =>
        rw [templateFor_of_some hown] at hlookup
        exact h.templates id template hlookup
    | none =>
        rw [templateFor_of_none hown] at hlookup hsection
        by_cases hsame : id = contract.instrumentId
        · rw [hsame, AList.lookup_insert] at hlookup
          rw [← Option.some.inj hlookup, hsame]
          exact ⟨hid, hsection⟩
        · rw [AList.lookup_insert_ne hsame] at hlookup
          exact h.templates id template hlookup
  have hcached : ∀ orderId order, s'.openOrders.lookup orderId = some order →
      ∃ frame ∈ c.sent, frame.orderId = orderId ∧ CachedFrom fmt frame order := by
    rw [hprepared.openOrders]
    exact h.cached
  have hsection : frame.contract = cat.request fmt (asU64 frame.contract.conId) := by
    rw [hcontract, asU64_request_conId hid]
  cases delivered with
  | false => exact { h with templates := htemplates, cached := hcached }
  | true =>
      exact {
        faithful := h.faithful.concat hsection hamends
        requested := fun f hf => by
          rcases List.mem_append.mp hf with hold | hnew
          · exact h.requested f hold
          · rw [List.mem_singleton.mp hnew]
            exact hrequested
        templates := htemplates
        cached := fun orderId order horder => by
          obtain ⟨f, hf, hcachedFrom⟩ := hcached orderId order horder
          exact ⟨f, List.mem_append_left _ hf, hcachedFrom⟩ }

/-! ## Each step -/

theorem Inv.place {fmt : TextFormats F Date} {cat : Catalogue F} {account : String}
    {c : Session F} (h : Inv fmt cat c) {orderId : Int} {waiter now : Nat}
    {req : PlaceOrderReq F} {delivered : Bool}
    (hproper : Proper fmt cat c (.place orderId waiter now req delivered)) :
    Inv fmt cat (sessionStep fmt account c (.place orderId waiter now req delivered)) := by
  obtain ⟨hown, hid, hqty, hfresh⟩ := hproper
  show Inv fmt cat (c.submit delivered
    (preparePlace fmt account c.state orderId waiter now req))
  cases hprepare : preparePlace fmt account c.state orderId waiter now req with
  | error e => exact h
  | ok made =>
      obtain ⟨hprepared, horderId, hparams⟩ := preparePlace_spec hprepare
      have hsection : made.1.contract = cat.request fmt req.contract.instrumentId := by
        rw [hprepared.contract]
        cases hlookup : c.state.placeTemplates.lookup req.contract.instrumentId with
        | some template =>
            rw [templateFor_of_some hlookup]
            exact (h.templates _ _ hlookup).2
        | none =>
            rw [templateFor_of_none hlookup]
            exact congrArg (placeOrderContractRequest fmt) hown
      refine h.submit hprepared hid hsection ⟨req, account, hqty, hparams⟩ ?_ delivered
      intro original horiginal
      have hmem := List.mem_of_find?_eq_some horiginal
      have hsame : original.orderId = orderId := by
        have hfound := List.find?_some horiginal
        rw [beq_iff_eq] at hfound
        rw [hfound, horderId]
      exact absurd hsame (hfresh original hmem)

/-- The frame of an amend against the frame that was echoed. -/
theorem amends_of_prepareModify {fmt : TextFormats F Date} {account : String}
    {existing : OpenOrder F} {req : ModifyOrderReq F} {frame echoed : OrderFrame F}
    (hcached : CachedFrom fmt echoed existing)
    (hrequested : Requested echoed.params) (hsection : frame.contract = echoed.contract)
    (hparams : frame.params = paramsOf (placeholder account existing req) account
      frame.params.lmtPrice frame.params.goodTillDate)
    (hqty : ∀ qty, req.qty = some qty → qty = existing.qty)
    (haux : echoed.params.auxPrice = F64.zero) (haccount : echoed.params.account = account) :
    Amends frame echoed := by
  refine ⟨hsection, ?_⟩
  have hsameQty : req.qty.getD existing.qty = existing.qty := by
    cases hreq : req.qty with
    | none => rfl
    | some qty => exact hqty qty hreq
  obtain ⟨first, fallbackAccount, -, hfirst⟩ := hrequested
  have hrth : echoed.params.outsideRth = false := by
    rw [hfirst]
    rfl
  rw [hparams]
  simp only [paramsOf, placeholder, hsameQty, hcached.action, hcached.quantity,
    hcached.orderType, hcached.stop, hcached.tif, hcached.orderRef, Option.getD_some]
  rw [← haux, ← hrth, ← haccount]

theorem Inv.modify {fmt : TextFormats F Date} {cat : Catalogue F} {account : String}
    {c : Session F} (h : Inv fmt cat c) {id waiter now : Nat} {req : ModifyOrderReq F}
    {delivered : Bool} (hamendable : Amendable account c (.modify id waiter now req delivered)) :
    Inv fmt cat (sessionStep fmt account c (.modify id waiter now req delivered)) := by
  show Inv fmt cat (c.submit delivered (prepareModify fmt account c.state id waiter now req))
  cases hprepare : prepareModify fmt account c.state id waiter now req with
  | error e => exact h
  | ok made =>
      obtain ⟨existing, hexisting, hprepared, horderId, hparams⟩ := prepareModify_spec hprepare
      obtain ⟨hreadable, hqty, hplain⟩ := hamendable existing hexisting
      obtain ⟨echoed, hechoed, hsame, hcached⟩ := h.cached _ _ hexisting
      obtain ⟨hown, hfirst⟩ := h.faithful echoed hechoed
      have hid : existing.contract.instrumentId < 2 ^ 64 := by
        rw [hcached.instrumentId]
        unfold asU64
        omega
      have hsection : made.1.contract = echoed.contract := by
        rw [hprepared.contract]
        cases hlookup : c.state.placeTemplates.lookup existing.contract.instrumentId with
        | some template =>
            rw [templateFor_of_some hlookup, hown, ← hcached.instrumentId]
            exact (h.templates _ _ hlookup).2
        | none =>
            rw [templateFor_of_none hlookup]
            have hdate : existing.contract.expiry ≠ epochDate := by
              simpa [hlookup] using hreadable
            exact hcached.contract hdate
      have hrequested := h.requested echoed hechoed
      obtain ⟨haux, haccount⟩ := hplain echoed hechoed hsame
      have hamends : Amends made.1 echoed :=
        amends_of_prepareModify hcached hrequested hsection hparams hqty haux haccount
      have hlt : req.qty.getD existing.qty < 2 ^ 32 := by
        cases hreq : req.qty with
        | none => exact hcached.qty_lt
        | some qty => exact hqty qty hreq ▸ hcached.qty_lt
      refine h.submit hprepared hid ?_ ⟨placeholder account existing req, account, hlt, hparams⟩
        ?_ delivered
      · rw [hsection, hcached.instrumentId]
        exact hown
      · intro original horiginal
        rw [horderId, ← hsame] at horiginal
        exact hamends.trans (hfirst original horiginal)

theorem placeTemplates_route (fmt : TextFormats F Date) (s : BrokerState F) (msg : InboundMsg F)
    (now later : Nat) : (route fmt s msg now later).1.placeTemplates = s.placeTemplates := by
  cases msg with
  | openOrder o => rfl
  | orderStatus o =>
      by_cases hack : resolvesWaiter (parseStatus o.status) = true
      · simp only [route, routeOrderStatus, hack, if_true]
      · simp only [route, routeOrderStatus, hack, Bool.false_eq_true, if_false]
  | error e =>
      show (routeError s e).1.placeTemplates = s.placeTemplates
      unfold routeError
      split <;> rfl
  | other typeId => rfl

/-- A status leaves what the cache has of the frame. -/
theorem CachedFrom.withStatus {fmt : TextFormats F Date} {frame : OrderFrame F}
    {order : OpenOrder F} (h : CachedFrom fmt frame order) (o : OrderStatusMsg F) :
    CachedFrom fmt frame (NativeBroker.withStatus order o) :=
  { h with }

/-- **A message.** The cached order of an id is what it was, with a status, or it is read
off an echo. -/
theorem Inv.route {fmt : TextFormats F Date} {cat : Catalogue F} (hlaws : ReadsBack fmt cat)
    {c : Session F} (h : Inv fmt cat c) {msg : InboundMsg F}
    (hecho : ∀ o, msg = .openOrder o → ∃ frame ∈ c.sent, Echoes frame o) (now later : Nat) :
    Inv fmt cat { c with state := (NativeBroker.route fmt c.state msg now later).1 } := by
  have htemplates := placeTemplates_route fmt c.state msg now later
  refine { h with templates := ?_, cached := ?_ }
  · intro id template hlookup
    rw [htemplates] at hlookup
    exact h.templates id template hlookup
  · intro orderId order horder
    rw [lookup_route] at horder
    cases msg with
    | openOrder o =>
        simp only [track] at horder
        split at horder
        · rename_i hid
          cases hread : nativeToOpenOrder fmt o with
          | none =>
              rw [hread, Option.none_or] at horder
              exact h.cached orderId order horder
          | some read =>
              rw [hread, Option.some_or] at horder
              obtain ⟨frame, hframe, hechoes⟩ := hecho o rfl
              refine ⟨frame, hframe, hechoes.orderId.symm.trans hid, ?_⟩
              obtain rfl := Option.some.inj horder
              exact cachedFrom_of_echo hlaws hechoes (h.faithful frame hframe).1
                (h.requested frame hframe) hread
        · exact h.cached orderId order horder
    | orderStatus o =>
        simp only [track] at horder
        split at horder
        · obtain ⟨old, hold, rfl⟩ := Option.map_eq_some_iff.mp horder
          obtain ⟨frame, hframe, hid, hcached⟩ := h.cached orderId old hold
          exact ⟨frame, hframe, hid, hcached.withStatus o⟩
        · exact h.cached orderId order horder
    | error e => exact h.cached orderId order horder
    | other typeId => exact h.cached orderId order horder

theorem Inv.step {fmt : TextFormats F Date} {cat : Catalogue F} (hlaws : ReadsBack fmt cat)
    {account : String} {c : Session F} (h : Inv fmt cat c) {e : Event F}
    (hproper : Proper fmt cat c e) (hamendable : Amendable account c e) :
    Inv fmt cat (sessionStep fmt account c e) := by
  cases e with
  | place orderId waiter now req delivered => exact h.place hproper
  | modify id waiter now req delivered => exact h.modify hamendable
  | inbound a =>
      simp only [sessionStep, dispatch]
      split
      · rename_i msg hparse
        exact h.route hlaws (fun o ho => hproper o (ho ▸ hparse)) a.now a.later
      · exact h
  | restart => exact { h with
      templates := fun _ _ hlookup => by cases hlookup
      cached := fun _ _ hlookup => by cases hlookup }

/-- **Every run of proper calls and echoes.** If every amend is amendable, each frame that
reached the gateway carries its contract's section and is the first frame of its order up to
the limit price and the good-till date. -/
theorem amend_frames_faithful {fmt : TextFormats F Date} {cat : Catalogue F}
    (hlaws : ReadsBack fmt cat) (account : String) (schedule : List (Event F))
    (hproper : Meets (sessionStep fmt account) (Proper fmt cat) newSession schedule)
    (hamendable : Meets (sessionStep fmt account) (Amendable account) newSession schedule) :
    Faithful fmt cat (run (sessionStep fmt account) newSession schedule).sent := by
  have hinv : Inv fmt cat (run (sessionStep fmt account) newSession schedule) :=
    run_invariant_of_meets (Inv fmt cat) (fun _ _ hcond h => h.step hlaws hcond.1 hcond.2)
      (inv_newSession fmt cat) schedule (hproper.and hamendable)
  exact hinv.faithful

/-! ## Runs -/

/-- A copper call for every instrument id. -/
def copperCalls : Catalogue ℚ where
  contract id := {
    instrumentId := id, kind := .option, symbol := "HG", localSymbol := "HXEM6 C6"
    expiry := ⟨2026, 6, 26⟩, strike := some 6, right := some .call, multiplier := 25000
    exchange := .comex, currency := .usd, tradingClass := "HXE" }
  instrumentId_eq _ := rfl
  strike_pos _ x h := by
    obtain rfl := Option.some.inj h
    decide +kernel

theorem copperCalls_expiry (id : Nat) : (copperCalls.contract id).expiry = ⟨2026, 6, 26⟩ := rfl

theorem formatYmd_june : plainFormats.formatYmd ⟨2026, 6, 26⟩ = "20260626" := by decide +kernel

theorem copperCalls_readBack : ReadsBack plainFormats copperCalls where
  date id := by
    rw [copperCalls_expiry, formatYmd_june]
    decide +kernel
  suffixed id suffix := by
    have hchars : ("20260626" ++ " " ++ suffix).toList =
        ['2', '0', '2', '6', '0', '6', '2', '6', ' '] ++ suffix.toList := by
      rw [String.toList_append, String.toList_append]
      rfl
    have hday : ((['2', '0', '2', '6', '0', '6', '2', '6', ' '] ++ suffix.toList).drop 6) =
        '2' :: '6' :: ' ' :: suffix.toList := rfl
    have hrest : parseUp 31 0 ('2' :: '6' :: ' ' :: suffix.toList) = .error invalidDigit := rfl
    rw [copperCalls_expiry, formatYmd_june]
    simp only [plainFormats, hchars, hday, hrest]
    split
    · contradiction
    · rfl
  multiplier id := by
    have hmultiplier : (copperCalls.contract id).multiplier = 25000 := rfl
    rw [hmultiplier]
    decide +kernel
  quantity n hn := by
    show (Max.max (0 : Int) (Min.min 4294967295 (ratTrunc (((n : Int) : ℚ))))).toNat = n
    rw [ratTrunc_intCast]
    omega

/-- A one-lot bid. -/
def bidReq : PlaceOrderReq ℚ where
  contract := copperCalls.contract 712565973
  side := .buy
  qty := 1
  orderType := .limit
  price := some 2
  tif := .gtd
  gtdUntilUtc := some 1782000030000000000
  clientOrderRef := "corsair"
  account := some "DU1"

/-- The gateway's echo of the bid, with the date as given. -/
def bidEcho (date : String) : Frame :=
  ["5", "17", "712565973", "HG", "FOP", date, "6", "C", "25000", "COMEX", "USD",
    "HXEM6 C6", "HXE", "BUY", "1", "LMT", "2", "0", "GTD", "", "DU1", "", "0", "corsair"]

/-- The bid is placed, the adapter restarts, the gateway echoes the bid, and it is
amended. -/
def amendAfterRestart (date : String) : List (Event ℚ) :=
  [.place 17 1 1 bidReq true, .restart, .inbound ⟨bidEcho date, 2, 3⟩,
   .modify 17 2 4 ⟨some 3, none, some 1782000060000000000⟩ true]

/-- The frames of that run. -/
def amendedFrames (date : String) : List (OrderFrame ℚ) :=
  (run (sessionStep plainFormats "DU1") newSession (amendAfterRestart date)).sent

/-- The frame of the bid. -/
def bidFrame : OrderFrame ℚ where
  orderId := 17
  contract := copperCalls.request plainFormats 712565973
  params := paramsOf bidReq "DU1" 2 "20260621 00:00:30 UTC"

/-- The message of the echo. -/
def bidMsg (date : String) : OpenOrderMsg ℚ where
  orderId := 17
  contract := {
    conId := 712565973, symbol := "HG", secType := "FOP", lastTradeDate := date, strike := 6
    right := "C", multiplier := "25000", exchange := "COMEX", primaryExchange := ""
    currency := "USD", localSymbol := "HXEM6 C6", tradingClass := "HXE" }
  action := "BUY"
  totalQuantity := 1
  orderType := "LMT"
  lmtPrice := 2
  tif := "GTD"
  account := "DU1"
  orderRef := "corsair"
  status := ""
  filled := F64.zero
  remaining := F64.zero

theorem sent_place_bid :
    (sessionStep plainFormats "DU1" newSession (.place 17 1 1 bidReq true)).sent = [bidFrame] := by
  decide +kernel

theorem echoes_bid {date : String}
    (hdate : date = "20260626" ∨ ∃ suffix, date = "20260626" ++ " " ++ suffix) :
    Echoes bidFrame (bidMsg date) := by
  have hsection : bidFrame.contract.lastTradeDate = "20260626" := formatYmd_june
  exact {
    orderId := rfl, conId := by show (712565973 : Int) = _; decide +kernel
    symbol := rfl, secType := rfl
    date := by rw [hsection]; exact hdate
    strike := rfl, right := rfl, multiplier := by show "25000" = _; decide +kernel
    exchange := rfl
    currency := rfl, localSymbol := rfl, tradingClass := rfl, action := rfl
    totalQuantity := by show (1 : ℚ) = _; decide +kernel
    orderType := rfl, tif := rfl, orderRef := rfl }

/-- The run is a proper one, whatever text the gateway has behind the date. -/
theorem proper_amendAfterRestart {date : String}
    (hparse : parseInbound plainFormats (bidEcho date) = .ok (.openOrder (bidMsg date)))
    (hdate : date = "20260626" ∨ ∃ suffix, date = "20260626" ++ " " ++ suffix) :
    Meets (sessionStep plainFormats "DU1") (Proper plainFormats copperCalls) newSession
      (amendAfterRestart date) := by
  refine ⟨⟨rfl, by decide, by decide, fun _ h => by cases h⟩, trivial, fun o ho => ?_, trivial,
    trivial⟩
  obtain rfl := InboundMsg.openOrder.inj (Except.ok.inj (hparse.symm.trans ho))
  refine ⟨bidFrame, ?_, echoes_bid hdate⟩
  show bidFrame ∈ (sessionStep plainFormats "DU1" newSession (.place 17 1 1 bidReq true)).sent
  rw [sent_place_bid]
  exact List.mem_singleton_self bidFrame

/-- The cached order when the amend comes. -/
def cachedBid : OpenOrder ℚ where
  orderId := 17
  contract := copperCalls.contract 712565973
  side := .buy
  qty := 1
  orderType := .limit
  price := some 2
  tif := .gtd
  gtdUntilUtc := none
  clientOrderRef := "corsair"
  status := .pendingSubmit
  filledQty := 0
  remainingQty := 0

/-- With a plain date the amend is faithful. -/
theorem amended_bid_faithful : Faithful plainFormats copperCalls (amendedFrames "20260626") := by
  have hcached : (run (sessionStep plainFormats "DU1") newSession
      ((amendAfterRestart "20260626").take 3)).state.openOrders.lookup 17 = some cachedBid := by
    decide +kernel
  have hsent : (run (sessionStep plainFormats "DU1") newSession
      ((amendAfterRestart "20260626").take 3)).sent = [bidFrame] := by decide +kernel
  refine amend_frames_faithful copperCalls_readBack "DU1" (amendAfterRestart "20260626")
    (proper_amendAfterRestart (by decide +kernel) (.inl rfl))
    ⟨trivial, trivial, trivial, fun existing hexisting => ?_, trivial⟩
  obtain rfl : cachedBid = existing := Option.some.inj (hcached.symm.trans hexisting)
  refine ⟨.inr (by decide), fun _ h => (by cases h), fun frame hframe _ => ?_⟩
  have hframe' : frame ∈ [bidFrame] := hsent ▸ hframe
  rw [List.mem_singleton.mp hframe']
  decide +kernel

/-- With a time behind the date the amend moves the contract to another day. -/
theorem amended_bid_misdated :
    ¬∀ schedule : List (Event ℚ),
      Meets (sessionStep plainFormats "DU1") (Proper plainFormats copperCalls) newSession
        schedule →
      Faithful plainFormats copperCalls
        (run (sessionStep plainFormats "DU1") newSession schedule).sent := by
  intro hall
  have hfaithful := hall (amendAfterRestart "20260626 13:30:00 US/Eastern")
    (proper_amendAfterRestart (by decide +kernel) (.inr ⟨"13:30:00 US/Eastern", by decide⟩))
  have hdates : (amendedFrames "20260626 13:30:00 US/Eastern").map
      (fun frame => (frame.contract.conId, frame.contract.lastTradeDate)) =
        [(712565973, "20260626"), (712565973, "19700101")] := by decide +kernel
  have hsame : ∀ entry ∈ [((712565973 : Int), "20260626"), (712565973, "19700101")],
      entry.2 = "20260626" := by
    rw [← hdates]
    intro entry hentry
    obtain ⟨frame, hframe, rfl⟩ := List.mem_map.mp hentry
    rw [(hfaithful frame hframe).1]
    exact formatYmd_june
  exact absurd (hsame (712565973, "19700101") (by simp)) (by decide)

end Corsair.Ports.AmendFidelity
