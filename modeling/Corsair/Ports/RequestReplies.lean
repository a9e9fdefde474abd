import Corsair.Verified.GatherRuns
import Corsair.Ports.Fills
import Corsair.Ports.NativeOrders
import Corsair.Ports.PositionAgreement

/-!
# `corsair_broker_ibkr_native::broker`: calls that are answered in rows

`recent_fills`, `qualify_future`, `qualify_option` and `list_chain` take the next request id, put
a request under it and send a frame.  The answer comes back as one message a row and an end, all
with the id, among everything else on the connection.  An error about the id fails a contract
request, a disconnect fails every request, and a call gives up at its deadline.

An execution that answers no open request is a fill that happened, and is broadcast.  So are the
rows that come for a request after its call has given up.

The ids come from an `AtomicI32` that starts at 1000.

## Main results

* `details_step`, `executions_step` — a step of the adapter as a move of its two tables.
* `calls_get_their_rows` — every call returns the rows that came for it, whatever else was asked
  and answered meanwhile.
-/

namespace Corsair.Ports.RequestReplies

open Corsair.Verified
open Corsair.Verified.Runs
open Corsair.Verified.Gather
open Corsair.Ports.Portfolio (Right Date)
open Corsair.Ports.BrokerApi
open Corsair.Ports.KillRuntime (BrokerError)
open Corsair.Ports.NativeDecoder
open Corsair.Ports.NativeBroker
open Corsair.Ports.NativeOrders (exchangeToStr currencyToStr)
open Corsair.Ports.PositionAgreement (firstWord)
open Corsair.Ports.RestingSweep (plainFormats)
open Corsair.Ports.Fills (ExecutionMsg executionToFill)

variable {F : Type} [F64 F]

/-! ## The messages -/

/-- `ContractDetailsMsg`. -/
structure ContractDetailsMsg (F : Type) where
  reqId : Int
  contract : ContractDecoded F

/-- The messages of `InboundMsg` that answer requests. -/
inductive ReplyMsg (F : Type)
  | execution (e : ExecutionMsg F)
  | executionEnd (reqId : Int)
  | contractDetails (cd : ContractDetailsMsg F)
  | contractDetailsEnd (reqId : Int)
  | error (e : ErrorMsg)
  | other

/-- `fields.get(i)` with `"0"` as default. -/
def getNumber (fields : Frame) (i : Nat) : String := (fields[i]?).getD "0"

/-- `parse_contract_details`. -/
def parseContractDetails (fmt : TextFormats F Date) (fields : Frame) :
    Except NativeError (ContractDetailsMsg F) :=
  if fields.length < 16 then .error (tooShort "contractDetails" fields)
  else do
    let reqId ← parseInt fmt (getField fields 1)
    let strike ← parseF64 fmt (getField fields 5)
    let conId ← parseInt64 fmt (getField fields 12)
    return {
      reqId
      contract := {
        conId
        symbol := getField fields 2
        secType := getField fields 3
        lastTradeDate := getField fields 4
        strike
        right := getField fields 6
        multiplier := getField fields 15
        exchange := getField fields 7
        primaryExchange := ""
        currency := getField fields 8
        localSymbol := getField fields 9
        tradingClass := getField fields 11 } }

/-- `parse_execution`.  The numbers that no fill takes up are parsed all the same: one that is
malformed refuses the message. -/
def parseExecution (fmt : TextFormats F Date) (fields : Frame) :
    Except NativeError (ExecutionMsg F) :=
  if fields.length < 23 then .error (tooShort "execDetails" fields)
  else do
    let reqId ← parseInt fmt (getField fields 1)
    let _orderId ← parseInt fmt (getField fields 2)
    let conId ← parseInt64 fmt (getField fields 3)
    let strike ← parseF64 fmt (getField fields 7)
    let shares ← parseF64 fmt (getField fields 19)
    let price ← parseF64 fmt (getField fields 20)
    let _permId ← parseInt fmt (getField fields 21)
    let _clientId ← parseInt fmt (getField fields 22)
    let _liquidation ← parseInt fmt (getNumber fields 23)
    let _cumQty ← parseF64 fmt (getNumber fields 24)
    let _avgPrice ← parseF64 fmt (getNumber fields 25)
    return {
      reqId
      contract := {
        conId
        symbol := getField fields 4
        secType := getField fields 5
        lastTradeDate := getField fields 6
        strike
        right := getField fields 8
        multiplier := getField fields 9
        exchange := getField fields 10
        primaryExchange := ""
        currency := getField fields 11
        localSymbol := getField fields 12
        tradingClass := getField fields 13 }
      execId := getField fields 14
      side := getField fields 18
      shares
      price }

def inContractData : Int := 10

def inExecutionData : Int := 11

def inContractDataEnd : Int := 52

def inExecutionDataEnd : Int := 55

/-- `parse_inbound`, as far as it concerns requests. -/
def parseReply (fmt : TextFormats F Date) : Frame → Except NativeError (ReplyMsg F)
  | [] => .error (.malformed "empty frame")
  | ty :: body => do
      let typeId ← parseInt fmt ty
      if typeId = inErrMsg then return .error (← parseError fmt (ty :: body))
      else if typeId = inContractData then
        return .contractDetails (← parseContractDetails fmt (ty :: body))
      else if typeId = inContractDataEnd then
        return .contractDetailsEnd (← parseInt fmt (getNumber (ty :: body) 2))
      else if typeId = inExecutionData then return .execution (← parseExecution fmt (ty :: body))
      else if typeId = inExecutionDataEnd then
        return .executionEnd (← parseInt fmt (getNumber (ty :: body) 1))
      else return .other

/-- `native_to_contract`; a month alone, `%Y%m`, is no date. -/
def nativeToContract (fmt : TextFormats F Date) (cd : ContractDetailsMsg F) :
    Option (Contract F) := do
  let kind ← parseKind cd.contract.secType
  return {
    instrumentId := asU64 cd.contract.conId
    kind
    symbol := cd.contract.symbol
    localSymbol := cd.contract.localSymbol
    expiry := (fmt.ymd (firstWord cd.contract.lastTradeDate)).getD epochDate
    strike := if F64.gt cd.contract.strike F64.zero then some cd.contract.strike else none
    right := parseRight cd.contract.right
    multiplier := (fmt.float cd.contract.multiplier).toOption.getD F64.zero
    exchange := parseExchange cd.contract.exchange
    currency := parseCurrency cd.contract.currency
    tradingClass := cd.contract.tradingClass }

/-- `is_contract_error`. -/
def isContractError (code : Int) : Bool := code ∈ [200, 321, 322]

/-! ## The calls -/

/-- `FutureQuery`. -/
structure FutureQuery where
  symbol : String
  expiry : Date
  exchange : Exchange
  currency : Currency

/-- `OptionQuery`. -/
structure OptionQuery (F : Type) where
  symbol : String
  expiry : Date
  strike : F
  right : Right
  exchange : Exchange
  currency : Currency
  multiplier : F

/-- `ChainQuery`. -/
structure ChainQuery where
  symbol : String
  exchange : Exchange
  currency : Currency
  kind : Option ContractKind
  minExpiry : Option Date

/-- The calls that ask for contracts. -/
inductive ContractCall (F : Type)
  | qualifyFuture (q : FutureQuery)
  | qualifyOption (q : OptionQuery F)
  | listChain (q : ChainQuery)

/-- What `Display` and `chrono` render in the queries and their errors. -/
structure QueryTexts (F : Type) where
  date : Date → String
  float : F → String
  /-- `format("%Y%m%d-%H:%M:%S")` of a second since the epoch. -/
  filterTime : Nat → String

/-- `empty_contract_request`. -/
def emptyContractRequest (symbol secType : String) : ContractRequest F where
  conId := 0
  symbol
  secType
  lastTradeDate := ""
  strike := F64.zero
  right := ""
  multiplier := ""
  exchange := ""
  primaryExchange := ""
  currency := ""
  localSymbol := ""
  tradingClass := ""

/-- The contract that a call sends with its frame.  A chain query without a kind asks for futures,
and the strike of an option is rounded to four places. -/
def ContractCall.request (fmt : TextFormats F Date) : ContractCall F → ContractRequest F
  | .qualifyFuture q =>
      { (emptyContractRequest q.symbol "FUT" : ContractRequest F) with
        lastTradeDate := fmt.formatYmd q.expiry
        exchange := exchangeToStr q.exchange
        currency := currencyToStr q.currency }
  | .qualifyOption q =>
      { (emptyContractRequest q.symbol "FOP" : ContractRequest F) with
        lastTradeDate := fmt.formatYmd q.expiry
        strike := F64.round (q.strike * F64.lit 10000 0) / F64.lit 10000 0
        right :=
          match q.right with
          | .call => "C"
          | .put => "P"
        exchange := exchangeToStr q.exchange
        currency := currencyToStr q.currency
        tradingClass := q.symbol }
  | .listChain q =>
      let secType := if q.kind = some .option then "FOP" else "FUT"
      { (emptyContractRequest q.symbol secType : ContractRequest F) with
        exchange := exchangeToStr q.exchange
        currency := currencyToStr q.currency }

/-- `a <= b` of dates. -/
def dateLe (a b : Date) : Bool :=
  a.year < b.year ∨ a.year = b.year ∧
    (a.month < b.month ∨ a.month = b.month ∧ a.day ≤ b.day)

def ContractCall.name : ContractCall F → String
  | .qualifyFuture _ => "qualify_future"
  | .qualifyOption _ => "qualify_option"
  | .listChain _ => "list_chain"

/-- `{:?}` of a right. -/
def debugRight : Right → String
  | .call => "Call"
  | .put => "Put"

/-- The return of a call whose request ended with these contracts. -/
def ContractCall.select (texts : QueryTexts F) (contracts : List (Contract F)) :
    ContractCall F → Except BrokerError (List (Contract F))
  | .qualifyFuture q =>
      match contracts with
      | c :: _ => .ok [c]
      | [] =>
          .error (.contractNotFound ("no match for " ++ q.symbol ++ " " ++ texts.date q.expiry))
  | .qualifyOption q =>
      match contracts with
      | c :: _ =>
          .ok [if F64.le c.multiplier F64.zero then { c with multiplier := q.multiplier } else c]
      | [] =>
          .error (.contractNotFound ("no match for " ++ q.symbol ++ " " ++ texts.date q.expiry ++ " " ++
            texts.float q.strike ++ " " ++ debugRight q.right))
  | .listChain q =>
      .ok (match q.minExpiry with
        | some minExpiry => contracts.filter fun c => dateLe minExpiry c.expiry
        | none => contracts)

/-- What a call returns, by the way it ended. -/
def reply {α β : Type} (name : String) (ofRows : List α → Except BrokerError β) :
    Outcome α BrokerError → Except BrokerError β
  | .answered (.ok rows) => ofRows rows
  | .answered (.error e) => .error e
  | .dropped => .error (.internal (name ++ " channel dropped"))
  | .timedOut => .error (.internal (name ++ " timeout"))
  | .unsent e => .error e

/-- The return of `qualify_future`, `qualify_option` and `list_chain`; a single contract is a list
of one.  The rows become contracts when their request ends. -/
def contractReply (fmt : TextFormats F Date) (texts : QueryTexts F) (call : ContractCall F) :
    Outcome (ContractDetailsMsg F) BrokerError → Except BrokerError (List (Contract F)) :=
  reply call.name fun rows => call.select texts (rows.filterMap (nativeToContract fmt))

/-- The return of `recent_fills`. -/
def fillsReply : Outcome (Fill F) BrokerError → Except BrokerError (List (Fill F)) :=
  reply "recent_fills" .ok

/-- `ExecutionFilter`, as `recent_fills` fills it in. -/
structure ExecutionFilter where
  clientId : Int
  account : String
  time : String
  symbol : String
  secType : String
  exchange : String
  side : String

def executionFilter (texts : QueryTexts F) (account : String) (sinceNs : Nat) : ExecutionFilter where
  clientId := 0
  account
  time := if sinceNs = 0 then "" else texts.filterTime (sinceNs / 1000000000)
  symbol := ""
  secType := ""
  exchange := ""
  side := ""

/-! ## The adapter -/

/-- The request frames. -/
inductive RequestFrame (F : Type)
  | contractDetails (reqId : Int) (c : ContractRequest F)
  | executions (reqId : Int) (f : ExecutionFilter)

/-- The next request id, `pending_contract_details` and `pending_executions` with the calls that
wait on them, the frames that were handed to the socket, and what was broadcast. -/
structure ReplyState (F : Type) where
  nextReqId : Int
  details : Office Int (ContractCall F) (ContractDetailsMsg F) BrokerError
  executions : Office Int Nat (Fill F) BrokerError
  sent : List (RequestFrame F)
  fills : List (Fill F)
  errors : List BrokerError

omit [F64 F] in
/-- `NativeBroker::new`. -/
def idle : ReplyState F where
  nextReqId := 1000
  details := .empty
  executions := .empty
  sent := []
  fills := []
  errors := []

/-- What happens to a call that has begun: its send completes, it is woken before its deadline or
at it, or it takes its request out after it has given up. -/
inductive CallStep
  | sent (ticket : Nat) (failure : Option BrokerError)
  | poll (ticket : Nat)
  | elapse (ticket : Nat)
  | withdraw (ticket : Nat)

def CallStep.move {τ α : Type} : CallStep → Move Int τ α BrokerError
  | .sent ticket failure => .sent ticket failure
  | .poll ticket => .poll ticket
  | .elapse ticket => .elapse ticket
  | .withdraw ticket => .withdraw ticket

/-- A step: a call begins, a subscription takes an id, a call goes on, a frame comes in, or the
adapter disconnects. -/
inductive ReplyStep (F : Type)
  | askContracts (call : ContractCall F)
  | recentFills (sinceNs : Nat)
  | subscribe
  | detailsCall (c : CallStep)
  | fillsCall (c : CallStep)
  | frame (fields : Frame)
  | disconnect

/-- `route`, on the messages that answer requests. -/
def route (s : ReplyState F) : ReplyMsg F → ReplyState F
  | .execution e =>
      match executionToFill e with
      | none => s
      | some fill =>
          if 0 < e.reqId ∧ (s.executions.requests.lookup e.reqId).isSome then
            { s with executions := s.executions.collect e.reqId fill }
          else { s with fills := s.fills ++ [fill] }
  | .executionEnd reqId => { s with executions := s.executions.conclude reqId .ok }
  | .contractDetails cd => { s with details := s.details.collect cd.reqId cd }
  | .contractDetailsEnd reqId => { s with details := s.details.conclude reqId .ok }
  | .error e =>
      { s with
        details :=
          if 0 < e.reqId ∧ isContractError e.errorCode then
            s.details.conclude e.reqId fun _ => .error (.contractNotFound e.errorString)
          else s.details
        errors := s.errors ++ [errorToBrokerError e] }
  | .other => s

/-- A call that has begun; its frame goes out under the id that it took. -/
def step (fmt : TextFormats F Date) (texts : QueryTexts F) (account : String) (s : ReplyState F) :
    ReplyStep F → ReplyState F
  | .askContracts call =>
      { s with
        nextReqId := i32 (s.nextReqId + 1)
        details := s.details.begin s.nextReqId call
        sent := s.sent ++ [.contractDetails s.nextReqId (call.request fmt)] }
  | .recentFills sinceNs =>
      { s with
        nextReqId := i32 (s.nextReqId + 1)
        executions := s.executions.begin s.nextReqId sinceNs
        sent := s.sent ++ [.executions s.nextReqId (executionFilter texts account sinceNs)] }
  | .subscribe => { s with nextReqId := i32 (s.nextReqId + 1) }
  | .detailsCall c => { s with details := s.details.step c.move }
  | .fillsCall c => { s with executions := s.executions.step c.move }
  | .frame fields =>
      match parseReply fmt fields with
      | .ok msg => route s msg
      | .error _ => s
  | .disconnect =>
      { s with
        details := s.details.refuseAll (.connectionLost "disconnect during pending qualify")
        executions :=
          s.executions.refuseAll (.connectionLost "disconnect during pending executions") }

/-! ## A step as a move of the tables -/

/-- What a step says about a contract request. -/
def detailsSaid (fmt : TextFormats F Date) (reqId : Int) :
    ReplyStep F → Option (Event (ContractDetailsMsg F) BrokerError)
  | .frame fields =>
      match parseReply fmt fields with
      | .ok (.contractDetails cd) => if cd.reqId = reqId then some (.row cd) else none
      | .ok (.contractDetailsEnd id) => if id = reqId then some .finish else none
      | .ok (.error e) =>
          if 0 < e.reqId ∧ isContractError e.errorCode ∧ e.reqId = reqId then
            some (.refuse (.contractNotFound e.errorString))
          else none
      | _ => none
  | .disconnect => some (.refuse (.connectionLost "disconnect during pending qualify"))
  | _ => none

/-- What a step says about an execution request. -/
def executionsSaid (fmt : TextFormats F Date) (reqId : Int) :
    ReplyStep F → Option (Event (Fill F) BrokerError)
  | .frame fields =>
      match parseReply fmt fields with
      | .ok (.execution e) =>
          if 0 < e.reqId ∧ e.reqId = reqId then (executionToFill e).map .row else none
      | .ok (.executionEnd id) => if id = reqId then some .finish else none
      | _ => none
  | .disconnect => some (.refuse (.connectionLost "disconnect during pending executions"))
  | _ => none

/-- The move of `details`; `next` is the next request id. -/
def detailsMove (fmt : TextFormats F Date) (next : Int) :
    ReplyStep F → Option (Move Int (ContractCall F) (ContractDetailsMsg F) BrokerError)
  | .askContracts call => some (.begin next call)
  | .detailsCall c => some c.move
  | .frame fields =>
      match parseReply fmt fields with
      | .ok (.contractDetails cd) => some (.hear cd.reqId (.row cd))
      | .ok (.contractDetailsEnd id) => some (.hear id .finish)
      | .ok (.error e) =>
          if 0 < e.reqId ∧ isContractError e.errorCode then
            some (.hear e.reqId (.refuse (.contractNotFound e.errorString)))
          else none
      | _ => none
  | .disconnect => some (.refuseAll (.connectionLost "disconnect during pending qualify"))
  | _ => none

/-- The move of `executions`. -/
def executionsMove (fmt : TextFormats F Date) (next : Int) :
    ReplyStep F → Option (Move Int Nat (Fill F) BrokerError)
  | .recentFills sinceNs => some (.begin next sinceNs)
  | .fillsCall c => some c.move
  | .frame fields =>
      match parseReply fmt fields with
      | .ok (.execution e) =>
          if 0 < e.reqId then (executionToFill e).map fun fill => .hear e.reqId (.row fill) else none
      | .ok (.executionEnd id) => some (.hear id .finish)
      | _ => none
  | .disconnect => some (.refuseAll (.connectionLost "disconnect during pending executions"))
  | _ => none

/-- The step takes a request id. -/
def takesId : ReplyStep F → Bool
  | .askContracts _ | .recentFills _ | .subscribe => true
  | _ => false

/-- The next request id after a step. -/
def advance (next : Int) (a : ReplyStep F) : Int := if takesId a then i32 (next + 1) else next

section Steps

variable (fmt : TextFormats F Date) (texts : QueryTexts F) (account : String) (s : ReplyState F)
  (a : ReplyStep F)

theorem nextReqId_step : (step fmt texts account s a).nextReqId = advance s.nextReqId a := by
  cases a with
  | frame fields =>
      simp only [step]
      split
      · rename_i msg _
        cases msg with
        | execution e =>
            simp only [route]
            split
            · rfl
            · split <;> rfl
        | _ => rfl
      · rfl
  | _ => rfl

/-- **A step and `pending_contract_details`.** -/
theorem details_step : (step fmt texts account s a).details =
    (detailsMove fmt s.nextReqId a).elim s.details s.details.step := by
  cases a with
  | frame fields =>
      simp only [step, detailsMove]
      cases parseReply fmt fields with
      | error e => rfl
      | ok msg =>
          cases msg with
          | execution e =>
              simp only [route]
              split
              · rfl
              · split <;> rfl
          | error e =>
              simp only [route]
              split_ifs <;> rfl
          | _ => rfl
  | _ => rfl

/-- **A step and `pending_executions`.** -/
theorem executions_step : (step fmt texts account s a).executions =
    (executionsMove fmt s.nextReqId a).elim s.executions s.executions.step := by
  cases a with
  | frame fields =>
      simp only [step, executionsMove]
      cases parseReply fmt fields with
      | error e => rfl
      | ok msg =>
          cases msg with
          | execution e =>
              simp only [route]
              cases executionToFill e with
              | none => split_ifs <;> rfl
              | some fill =>
                  by_cases hid : 0 < e.reqId
                  · simp only [hid, true_and, if_true, Option.map_some, Option.elim_some, Office.step,
                      Office.collect]
                    cases s.executions.requests.lookup e.reqId <;> rfl
                  · simp only [hid, false_and, if_false]
                    rfl
          | error e => rfl
          | _ => rfl
  | _ => rfl

end Steps

/-! ## Runs -/

/-- How many request ids a schedule takes. -/
def taken (schedule : List (ReplyStep F)) : Nat := schedule.countP takesId

section Moves

variable {fmt : TextFormats F Date} {next : Int} {a : ReplyStep F}

theorem detailsMove_about (fmt : TextFormats F Date) (key next : Int) (a : ReplyStep F) :
    (detailsMove fmt next a).bind (about key) = detailsSaid fmt key a := by
  cases a with
  | frame fields =>
      simp only [detailsMove, detailsSaid]
      cases parseReply fmt fields with
      | error e => rfl
      | ok msg =>
          cases msg with
          | error e =>
              simp only
              by_cases hfails : 0 < e.reqId ∧ isContractError e.errorCode = true
              · simp [hfails, about]
              · rw [if_neg hfails, if_neg fun h => hfails ⟨h.1, h.2.1⟩]
                rfl
          | _ => rfl
  | detailsCall c => cases c <;> rfl
  | _ => rfl

theorem executionsMove_about (fmt : TextFormats F Date) (key next : Int) (a : ReplyStep F) :
    (executionsMove fmt next a).bind (about key) = executionsSaid fmt key a := by
  cases a with
  | frame fields =>
      simp only [executionsMove, executionsSaid]
      cases parseReply fmt fields with
      | error e => rfl
      | ok msg =>
          cases msg with
          | execution e =>
              simp only
              by_cases hid : 0 < e.reqId
              · by_cases hkey : e.reqId = key
                · subst hkey
                  cases executionToFill e <;> simp [hid, about]
                · cases executionToFill e <;> simp [hid, hkey, about]
              · simp [hid]
          | _ => rfl
  | fillsCall c => cases c <;> rfl
  | _ => rfl

theorem begin_of_detailsMove {key : Int} {ask : ContractCall F}
    (h : detailsMove fmt next a = some (.begin key ask)) : a = .askContracts ask ∧ key = next := by
  cases a with
  | askContracts call =>
      cases h
      exact ⟨rfl, rfl⟩
  | detailsCall c => cases c <;> cases h
  | frame fields =>
      simp only [detailsMove] at h
      split at h
      · cases h
      · cases h
      · split at h <;> cases h
      · cases h
  | _ => cases h

theorem begin_of_executionsMove {key : Int} {ask : Nat}
    (h : executionsMove fmt next a = some (.begin key ask)) : a = .recentFills ask ∧ key = next := by
  cases a with
  | recentFills sinceNs =>
      cases h
      exact ⟨rfl, rfl⟩
  | fillsCall c => cases c <;> cases h
  | frame fields =>
      simp only [executionsMove] at h
      split at h
      · split at h
        · obtain ⟨fill, -, hfill⟩ := Option.map_eq_some_iff.mp h
          cases hfill
        · cases h
      · cases h
      · cases h
  | _ => cases h

theorem goesOn_of_detailsMove {c : CallStep} (h : detailsMove fmt next a = some c.move) :
    a = .detailsCall c := by
  cases a with
  | detailsCall c' => cases c <;> cases c' <;> cases h <;> rfl
  | frame fields =>
      simp only [detailsMove] at h
      split at h
      · cases c <;> cases h
      · cases c <;> cases h
      · split at h
        · cases c <;> cases h
        · cases h
      · cases h
  | askContracts call => cases c <;> cases h
  | disconnect => cases c <;> cases h
  | _ => cases h

theorem goesOn_of_executionsMove {c : CallStep} (h : executionsMove fmt next a = some c.move) :
    a = .fillsCall c := by
  cases a with
  | fillsCall c' => cases c <;> cases c' <;> cases h <;> rfl
  | frame fields =>
      simp only [executionsMove] at h
      split at h
      · split at h
        · obtain ⟨fill, -, hfill⟩ := Option.map_eq_some_iff.mp h
          cases c <;> cases hfill
        · cases h
      · cases c <;> cases h
      · cases h
  | recentFills sinceNs => cases c <;> cases h
  | disconnect => cases c <;> cases h
  | _ => cases h

end Moves

/-- One of the two tables: the moves that steps make in it, what they say about a request, and the
steps that begin a call and take it further. -/
structure Desk (F τ α : Type) where
  move : Int → ReplyStep F → Option (Move Int τ α BrokerError)
  said : Int → ReplyStep F → Option (Event α BrokerError)
  begins : τ → ReplyStep F
  goesOn : CallStep → ReplyStep F
  move_about : ∀ key next a, (move next a).bind (about key) = said key a
  begin_of_move : ∀ {next a key ask}, move next a = some (.begin key ask) →
    a = begins ask ∧ key = next
  move_begins : ∀ next ask, move next (begins ask) = some (.begin next ask)
  takesId_begins : ∀ ask, takesId (begins ask) = true
  goesOn_of_move : ∀ {next a} {c : CallStep}, move next a = some c.move → a = goesOn c

/-- `pending_contract_details`. -/
def detailsDesk (fmt : TextFormats F Date) : Desk F (ContractCall F) (ContractDetailsMsg F) where
  move := detailsMove fmt
  said := detailsSaid fmt
  begins := .askContracts
  goesOn := .detailsCall
  move_about := detailsMove_about fmt
  begin_of_move := begin_of_detailsMove
  move_begins _ _ := rfl
  takesId_begins _ := rfl
  goesOn_of_move := goesOn_of_detailsMove

/-- `pending_executions`. -/
def executionsDesk (fmt : TextFormats F Date) : Desk F Nat (Fill F) where
  move := executionsMove fmt
  said := executionsSaid fmt
  begins := .recentFills
  goesOn := .fillsCall
  move_about := executionsMove_about fmt
  begin_of_move := begin_of_executionsMove
  move_begins _ _ := rfl
  takesId_begins _ := rfl
  goesOn_of_move := goesOn_of_executionsMove

/-! ## What the calls return -/

section Calls

variable {τ α : Type} (desk : Desk F τ α)

/-- Why a call has returned what it has.  `after` is what happened since it began. -/
def Returned (schedule : List (ReplyStep F)) (r : Return Int τ α BrokerError) : Prop :=
  ∃ before after, schedule = before ++ desk.begins r.ask :: after ∧ r.key = 1000 + taken before ∧
    match r.outcome with
    | .answered answer => ∃ early c late, after = early ++ desk.goesOn c :: late ∧
        (c = .poll r.ticket ∨ c = .elapse r.ticket) ∧
        progress (early.filterMap (desk.said r.key)) = .closed answer
    | .timedOut => ∃ early mid late rows,
        after = early ++ desk.goesOn (.elapse r.ticket) :: mid ++
          desk.goesOn (.withdraw r.ticket) :: late ∧
        progress (early.filterMap (desk.said r.key)) = .collecting rows
    | .unsent e => ∃ early late, after = early ++ desk.goesOn (.sent r.ticket (some e)) :: late
    | .dropped => False

/-- What a call that waits has in its hands: its request holds the rows so far, or it has the
answer. -/
def Waits (schedule : List (ReplyStep F)) (o : Office Int τ α BrokerError) (ticket : Nat)
    (c : Call Int τ α BrokerError) : Prop :=
  ∃ before after, schedule = before ++ desk.begins c.ask :: after ∧ c.key = 1000 + taken before ∧
    (c.expired = false →
      match progress (after.filterMap (desk.said c.key)) with
      | .collecting rows => c.inbox = none ∧ o.requests.lookup c.key = some { ticket, rows }
      | .closed answer => c.inbox = some answer ∧ o.requests.lookup c.key = none)

/-- A call that has begun waits or has returned. -/
def Present (schedule : List (ReplyStep F)) (o : Office Int τ α BrokerError) : Prop :=
  ∀ before ask after, schedule = before ++ desk.begins ask :: after →
    (∃ ticket c, o.calls.lookup ticket = some c ∧ c.key = 1000 + taken before) ∨
      ∃ r ∈ o.returned, r.key = 1000 + taken before

/-- How a call that waits comes to its end; `returned` is what the calls have returned after some
steps of it.  Woken with an answer it returns it; without one it gives up at its deadline, and
returns as it withdraws. -/
def ComesOut (o : Office Int τ α BrokerError)
    (returned : List CallStep → List (Return Int τ α BrokerError)) (ticket : Nat)
    (c : Call Int τ α BrokerError) : Prop :=
  c.sent = true → c.expired = false →
    let out (outcome : Outcome α BrokerError) :=
      o.returned ++ [{ ticket, key := c.key, ask := c.ask, outcome }]
    (∀ answer, c.inbox = some answer →
      returned [.poll ticket] = out (.answered answer) ∧
        returned [.elapse ticket] = out (.answered answer)) ∧
      (c.inbox = none → returned [.elapse ticket, .withdraw ticket] = out .timedOut)

omit [F64 F] in
theorem taken_append (front back : List (ReplyStep F)) :
    taken (front ++ back) = taken front + taken back := List.countP_append

omit [F64 F] in
/-- The ids do not wrap around while few of them are taken. -/
theorem advance_eq {k : Nat} (a : ReplyStep F) {rest : List (ReplyStep F)}
    (h : k + taken (a :: rest) < 2 ^ 31 - 1000) :
    advance (1000 + k) a = 1000 + (k + taken [a] : Nat) ∧
      k + taken [a] + taken rest < 2 ^ 31 - 1000 := by
  have hcount : taken (a :: rest) = taken [a] + taken rest := taken_append [a] rest
  have hone : taken [a] = if takesId a then 1 else 0 := by simp [taken, List.countP_cons]
  refine ⟨?_, by omega⟩
  rw [advance, hone]
  split_ifs with ha
  · rw [hone, if_pos ha] at hcount
    rw [i32_of_bounds (by omega) (by omega)]
    push_cast
    ring
  · simp

omit [F64 F] in
theorem foldl_advance {k : Nat} {schedule : List (ReplyStep F)}
    (h : k + taken schedule < 2 ^ 31 - 1000) :
    schedule.foldl advance (1000 + (k : Int)) = 1000 + (k + taken schedule : Nat) := by
  induction schedule generalizing k with
  | nil => simp [taken]
  | cons a rest ih =>
      obtain ⟨hnext, hrest⟩ := advance_eq a h
      rw [List.foldl_cons, hnext, ih hrest]
      have hcount : taken (a :: rest) = taken [a] + taken rest := taken_append [a] rest
      rw [hcount, Nat.add_assoc]

omit [F64 F] in
/-- The next id after some steps, while few are taken. -/
theorem foldl_advance_front {before after : List (ReplyStep F)}
    (hids : taken (before ++ after) < 2 ^ 31 - 1000) :
    before.foldl advance (1000 : Int) = 1000 + taken before := by
  rw [taken_append] at hids
  have hbefore : (0 : Nat) + taken before < 2 ^ 31 - 1000 := by omega
  simpa using foldl_advance hbefore

omit [F64 F] in
/-- While few ids are taken, each is larger than the one before. -/
theorem meets_advance {k : Nat} {schedule : List (ReplyStep F)}
    (h : k + taken schedule < 2 ^ 31 - 1000) :
    Meets advance (fun next a => next ≤ advance next a ∧
      ∀ key ask, desk.move next a = some (.begin key ask) → key = next ∧ next < advance next a)
      (1000 + (k : Int)) schedule := by
  induction schedule generalizing k with
  | nil => trivial
  | cons a rest ih =>
      obtain ⟨hnext, hrest⟩ := advance_eq a h
      refine ⟨⟨?_, fun key ask hmove => ?_⟩, ?_⟩
      · rw [hnext]
        omega
      · obtain ⟨rfl, rfl⟩ := desk.begin_of_move hmove
        have hone : taken [desk.begins ask] = 1 := by
          simp [taken, desk.takesId_begins]
        rw [hnext, hone]
        exact ⟨rfl, by omega⟩
      · rw [hnext]
        exact ih hrest

omit [F64 F] in
/-- The progress of a request, by what the steps say. -/
theorem heard_movesOf (key next : Int) (schedule : List (ReplyStep F)) :
    heard key (movesOf desk.move advance next schedule) =
      progress (schedule.filterMap (desk.said key)) := by
  rw [heard, filterMap_about_movesOf _ _ (desk.move_about key)]

omit [F64 F] in
/-- What a table accounts for, told by the steps of the schedule. -/
theorem returned_of_accounted {schedule : List (ReplyStep F)} {r : Return Int τ α BrokerError}
    (hids : taken schedule < 2 ^ 31 - 1000)
    (h : Accounted (movesOf desk.move advance 1000 schedule) r) : Returned desk schedule r := by
  obtain ⟨ticket, key, ask, outcome⟩ := r
  obtain ⟨front, late, hmoves, -, hwhy⟩ := h
  obtain ⟨before, a, after, rfl, -, hbegin, rfl⟩ := exists_of_movesOf_eq _ _ hmoves
  obtain ⟨rfl, rfl⟩ := desk.begin_of_move hbegin
  refine ⟨before, after, rfl, foldl_advance_front hids, ?_⟩
  cases outcome with
  | answered answer =>
      obtain ⟨mid, m, rest, hmid, hm, hheard⟩ := hwhy
      obtain ⟨early, b, late, rfl, rfl, hb, -⟩ := exists_of_movesOf_eq _ _ hmid
      rw [heard_movesOf] at hheard
      rcases hm with rfl | rfl
      · exact ⟨early, .poll ticket, late, by rw [desk.goesOn_of_move (c := .poll ticket) hb], .inl rfl,
          hheard⟩
      · exact ⟨early, .elapse ticket, late, by rw [desk.goesOn_of_move (c := .elapse ticket) hb],
          .inr rfl, hheard⟩
  | timedOut =>
      obtain ⟨mid, rest, hmid, early, rest', rows, hgave, hheard⟩ := hwhy
      obtain ⟨upTo, b, late, rfl, rfl, hb, -⟩ := exists_of_movesOf_eq _ _ hmid
      obtain ⟨first, b', between, rfl, rfl, hb', -⟩ := exists_of_movesOf_eq _ _ hgave
      rw [heard_movesOf] at hheard
      refine ⟨first, between, late, rows, ?_, hheard⟩
      rw [desk.goesOn_of_move (c := .withdraw ticket) hb, desk.goesOn_of_move (c := .elapse ticket) hb']
  | unsent e =>
      obtain ⟨mid, rest, hmid⟩ := hwhy
      obtain ⟨early, b, late, rfl, -, hb, -⟩ := exists_of_movesOf_eq _ _ hmid
      exact ⟨early, late, by rw [desk.goesOn_of_move (c := .sent ticket (some e)) hb]⟩
  | dropped => exact hwhy

omit [F64 F] in
theorem waits_of_stands {schedule : List (ReplyStep F)} {o : Office Int τ α BrokerError}
    {ticket : Nat} {c : Call Int τ α BrokerError} (hids : taken schedule < 2 ^ 31 - 1000)
    (h : Stands (movesOf desk.move advance 1000 schedule) o ticket c) :
    Waits desk schedule o ticket c := by
  obtain ⟨front, late, hmoves, -, hshows, -⟩ := h
  obtain ⟨before, a, after, rfl, -, hbegin, rfl⟩ := exists_of_movesOf_eq _ _ hmoves
  obtain ⟨rfl, hkey⟩ := desk.begin_of_move hbegin
  refine ⟨before, after, rfl, hkey.trans (foldl_advance_front hids), fun hwaits => ?_⟩
  have hshown := hshows hwaits
  rw [heard_movesOf] at hshown
  cases hprogress : progress (after.filterMap (desk.said c.key)) with
  | collecting rows =>
      rw [hprogress] at hshown
      exact hshown
  | closed answer =>
      rw [hprogress] at hshown
      exact hshown

omit [F64 F] in
theorem comesOut_of_waits {schedule : List (ReplyStep F)} {o : Office Int τ α BrokerError}
    {ticket : Nat} {c : Call Int τ α BrokerError} (hcall : o.calls.lookup ticket = some c)
    (h : Waits desk schedule o ticket c) :
    ComesOut o (fun steps => (run Office.step o (steps.map CallStep.move)).returned) ticket c := by
  obtain ⟨before, after, -, -, hhands⟩ := h
  intro hsent hreads out
  refine ⟨fun answer hinbox => ?_, fun hinbox => ?_⟩
  · have hready : o.ready ticket c = some (.answered answer) := by
      rw [Office.ready, hinbox]
    exact ⟨Office.returned_wake hcall hsent hreads hready false,
      Office.returned_wake hcall hsent hreads hready true⟩
  · have hready : o.ready ticket c = none := by
      -- a call without an answer still has its request
      have hrequest := hhands hreads
      split at hrequest
      · simp [Office.ready, hinbox, hrequest.2]
      · rw [hinbox] at hrequest
        cases hrequest.1
    exact Office.returned_withdraw hcall hsent hreads hready

omit [F64 F] in
theorem desk_present {schedule : List (ReplyStep F)} (hids : taken schedule < 2 ^ 31 - 1000) :
    Present desk schedule (run Office.step .empty (movesOf desk.move advance 1000 schedule)) := by
  rintro before ask after rfl
  have hkey := foldl_advance_front hids
  have hmoves : movesOf desk.move advance 1000 (before ++ desk.begins ask :: after) =
      movesOf desk.move advance 1000 before ++
        .begin (1000 + taken before) ask ::
          movesOf desk.move advance (advance (1000 + taken before) (desk.begins ask)) after := by
    rw [movesOf_append, hkey, movesOf, desk.move_begins]
    rfl
  rw [hmoves]
  rcases present (movesOf desk.move advance 1000 before) _ (1000 + (taken before : Int)) ask with
    hwaits | ⟨r, hr, -, hkeyOf⟩
  · obtain ⟨c, hc, hkeyOf⟩ := Option.map_eq_some_iff.mp hwaits
    exact .inl ⟨_, c, hc, hkeyOf⟩
  · exact .inr ⟨r, hr, hkeyOf⟩

omit [F64 F] in
theorem desk_meets {schedule : List (ReplyStep F)} (hids : taken schedule < 2 ^ 31 - 1000) :
    Meets Office.step Unshared .empty (movesOf desk.move advance 1000 schedule) := by
  have hbound : 0 + taken schedule < 2 ^ 31 - 1000 := by omega
  have hkeys := meets_advance desk hbound
  exact meets_unshared _ _ (below_empty 1000) (by simpa using hkeys)

omit [F64 F] in
/-- One table, over a whole run. -/
theorem desk_chronicle {schedule : List (ReplyStep F)} (hids : taken schedule < 2 ^ 31 - 1000) :
    Chronicle (movesOf desk.move advance 1000 schedule)
      (run Office.step .empty (movesOf desk.move advance 1000 schedule)) :=
  chronicle (desk_meets desk hids)

end Calls

section Adapter

variable (fmt : TextFormats F Date) (texts : QueryTexts F) (account : String)

theorem nextReqId_run (s : ReplyState F) (schedule : List (ReplyStep F)) :
    (run (step fmt texts account) s schedule).nextReqId = schedule.foldl advance s.nextReqId := by
  induction schedule generalizing s with
  | nil => rfl
  | cons a rest ih => rw [run_cons, ih, nextReqId_step, List.foldl_cons]

theorem details_run (s : ReplyState F) (schedule : List (ReplyStep F)) :
    (run (step fmt texts account) s schedule).details =
      run Office.step s.details (movesOf (detailsMove fmt) advance s.nextReqId schedule) := by
  induction schedule generalizing s with
  | nil => rfl
  | cons a rest ih =>
      rw [run_cons, ih, nextReqId_step, details_step, movesOf, run_append]
      cases detailsMove fmt s.nextReqId a <;> rfl

theorem executions_run (s : ReplyState F) (schedule : List (ReplyStep F)) :
    (run (step fmt texts account) s schedule).executions =
      run Office.step s.executions (movesOf (executionsMove fmt) advance s.nextReqId schedule) := by
  induction schedule generalizing s with
  | nil => rfl
  | cons a rest ih =>
      rw [run_cons, ih, nextReqId_step, executions_step, movesOf, run_append]
      cases executionsMove fmt s.nextReqId a <;> rfl

theorem executions_returned (schedule : List (ReplyStep F))
    (hids : taken schedule < 2 ^ 31 - 1000) :
    ∀ r ∈ (run (step fmt texts account) idle schedule).executions.returned,
      Returned (executionsDesk fmt) schedule r := by
  intro r hr
  rw [executions_run] at hr
  exact returned_of_accounted _ hids ((desk_chronicle (executionsDesk fmt) hids).accounted r hr)

/-- **Every call gets the rows that came for it**, whatever else is asked, answered, refused or
given up in between, while the adapter has ids left.  No call is lost, and each returns at most
once; what it returns is what was said under its id since it began, or it gives up because that
was no answer yet; and while a call waits, its request holds the rows that came so far.  With an
answer it returns as soon as it is woken, and without one after its deadline. -/
theorem calls_get_their_rows (schedule : List (ReplyStep F))
    (hids : taken schedule < 2 ^ 31 - 1000) :
    let s := run (step fmt texts account) idle schedule
    ((∀ r ∈ s.details.returned, Returned (detailsDesk fmt) schedule r) ∧
        ∀ r ∈ s.executions.returned, Returned (executionsDesk fmt) schedule r) ∧
      ((s.details.returned.map Return.ticket).Nodup ∧
        (s.executions.returned.map Return.ticket).Nodup) ∧
      (Present (detailsDesk fmt) schedule s.details ∧
        Present (executionsDesk fmt) schedule s.executions) ∧
      (∀ t c, s.details.calls.lookup t = some c →
        Waits (detailsDesk fmt) schedule s.details t c ∧
          ComesOut s.details (fun steps =>
            (run (step fmt texts account) s (steps.map .detailsCall)).details.returned) t c) ∧
        ∀ t c, s.executions.calls.lookup t = some c →
          Waits (executionsDesk fmt) schedule s.executions t c ∧
            ComesOut s.executions (fun steps =>
              (run (step fmt texts account) s (steps.map .fillsCall)).executions.returned) t c := by
  intro s
  have hdetails := desk_chronicle (detailsDesk fmt) hids
  have hexecutions := desk_chronicle (executionsDesk fmt) hids
  have hs : s.details = _ := details_run fmt texts account idle schedule
  have hs' : s.executions = _ := executions_run fmt texts account idle schedule
  refine ⟨⟨fun r hr => ?_, executions_returned fmt texts account schedule hids⟩, ?_, ?_,
    fun t c hc => ?_, fun t c hc => ?_⟩
  · rw [hs] at hr
    exact returned_of_accounted _ hids (hdetails.accounted r hr)
  · rw [hs, hs']
    exact ⟨hdetails.apart.once, hexecutions.apart.once⟩
  · rw [hs, hs']
    exact ⟨desk_present (detailsDesk fmt) hids, desk_present (executionsDesk fmt) hids⟩
  · have hwaits : Waits (detailsDesk fmt) schedule s.details t c := by
      rw [hs] at hc ⊢
      exact waits_of_stands _ hids (hdetails.stands t c hc)
    exact ⟨hwaits, comesOut_of_waits (detailsDesk fmt) hc hwaits⟩
  · have hwaits : Waits (executionsDesk fmt) schedule s.executions t c := by
      rw [hs'] at hc ⊢
      exact waits_of_stands _ hids (hexecutions.stands t c hc)
    exact ⟨hwaits, comesOut_of_waits (executionsDesk fmt) hc hwaits⟩

/-- A chain query and a query of the fills, answered in turns. -/
def chainAndFills : List (ReplyStep ℚ) :=
  [ .askContracts (.listChain
      { symbol := "HG", exchange := .comex, currency := .usd, kind := none, minExpiry := none })
  , .recentFills 0
  , .detailsCall (.sent 0 none)
  , .fillsCall (.sent 0 none)
  , .frame ["11", "1001", "7", "5", "HG", "FUT", "20261228", "0", "", "25000", "COMEX", "USD", "HGZ6",
      "HG", "e1", "t", "DU1", "COMEX", "BOT", "2", "4", "1", "0"]
  , .frame ["10", "1000", "HG", "FUT", "20261228", "0", "", "COMEX", "USD", "HGZ6", "", "HG", "42", "",
      "", "25000"]
  , .frame ["52", "1", "1000"]
  , .frame ["55", "1001"]
  , .fillsCall (.poll 0)
  , .detailsCall (.poll 0) ]

/-- No text is rendered. -/
def noTexts : QueryTexts ℚ where
  date _ := ""
  float _ := ""
  filterTime _ := ""

theorem fills_call_gets_its_row :
    taken chainAndFills < 2 ^ 31 - 1000 ∧
      Returned (executionsDesk plainFormats) chainAndFills
        { ticket := 0, key := 1001, ask := 0
          outcome := .answered (.ok [⟨"e1", 5, .buy, 2, 4⟩]) } :=
  ⟨by decide, (calls_get_their_rows plainFormats noTexts "DU1" chainAndFills (by decide)).1.2 _
    (List.mem_singleton.mpr rfl)⟩

end Adapter

end Corsair.Ports.RequestReplies
