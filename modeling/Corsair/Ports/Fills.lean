import Corsair.Verified.Runs
import Corsair.Ports.HedgeReconcile
import Corsair.Ports.NativeBroker

/-!
# From an execution message to the books

`route` turns an execution into a `Fill`, which it keeps for a pending request
or broadcasts.  `handle_fill` offers a broadcast fill to the hedge managers, and
what none of them takes is booked as an option fill, if its instrument is
registered.  A hedge manager knows the execution ids that it has taken; the
option side knows none.

An instrument id names one contract, a future or an option: no option is
registered under the id of a hedge contract, and the runtime carries that fact.

The daily-halt check that follows an option fill is the `fillCheck` step of
`KillRuntime`.

## Main results

* `portfolio_handleFill` — what a fill does to the option book depends on the
  book and the registered options alone.
* `repeat_changes_nothing_iff` — when a repeated execution leaves the accounts as
  they were.
-/

namespace Corsair.Ports.Fills

open Corsair.Verified
open Corsair.Verified.Runs
open Corsair.Ports.Portfolio (Right Date)
open Corsair.Ports.BrokerApi
open Corsair.Ports.NativeDecoder (ContractDecoded)
open Corsair.Ports.PositionBook
open Corsair.Ports.HedgeManager
open Corsair.Ports.HedgeReconcile (hgManager)

variable {F : Type}

/-! ## The adapter -/

/-- `ExecutionMsg`. -/
structure ExecutionMsg (F : Type) where
  reqId : Int
  contract : ContractDecoded F
  execId : String
  side : String
  shares : F
  price : F

/-- `execution_to_fill`. -/
def executionToFill [F64 F] (e : ExecutionMsg F) : Option (Fill F) :=
  let fill (side : Side) : Fill F := {
    instrumentId := asU64 e.contract.conId
    execId := e.execId
    side
    qty := asU32 e.shares
    price := e.price }
  if e.side = "BOT" then some (fill .buy) else if e.side = "SLD" then some (fill .sell) else none

/-- `pending_executions`: what has been answered to each open request. -/
abbrev Pending (F : Type) := AList (fun _ : Int => List (Fill F))

/-- `route`, on an `Execution`: the pending requests, and the fills that are
broadcast. -/
def routeExecution [F64 F] (pending : Pending F) (e : ExecutionMsg F) :
    Pending F × List (Fill F) :=
  match executionToFill e with
  | none => (pending, [])
  | some fill =>
      if 0 < e.reqId then
        match pending.lookup e.reqId with
        | some accumulated => (pending.insert e.reqId (accumulated ++ [fill]), [])
        | none => (pending, [fill])
      else (pending, [fill])

/-! ## The runtime -/

/-- `OptionTick`, as far as a fill reads it. -/
structure OptionTick (F : Type) where
  instrumentId : Option Nat
  strike : F
  expiry : Date
  right : Right

/-- The options of `MarketDataState`; an `OptionKey` has the fields of a
`PositionKey`. -/
abbrev OptionTicks (F : Type) := AList (fun _ : PositionKey => OptionTick F)

/-- `options_for_product`. -/
def optionsForProduct (options : OptionTicks F) (product : String) : List (OptionTick F) :=
  (options.entries.filter (·.1.product = product)).map (·.2)

/-- The registered option of an instrument, looked for product by product. -/
def matched (products : List String) (options : OptionTicks F) (instrumentId : Nat) :
    Option (String × F × Date × Right) :=
  products.findSome? fun product =>
    (optionsForProduct options product).findSome? fun t =>
      if t.instrumentId = some instrumentId then some (product, t.strike, t.expiry, t.right)
      else none

/-- `Runtime`, as far as fills and reconciles use it. -/
structure Runtime (F : Type) [F64 F] where
  hedge : List (HedgeManager F)
  portfolio : PortfolioState F
  options : OptionTicks F
  apart : ∀ m ∈ hedge, ∀ contract ∈ m.hedgeContract,
    matched portfolio.products options contract.instrumentId = none

section Runtime

variable [F64 F]

/-- A runtime with another state of its managers. -/
def Runtime.withHedge (rt : Runtime F) (hedge : List (HedgeManager F))
    (hsame : SameFanout rt.hedge hedge) : Runtime F :=
  { rt with
    hedge
    apart := by
      intro m hm contract hcontract
      obtain ⟨old, hold, hsetup⟩ := hsame.exists_of_mem hm
      exact rt.apart old hold contract (hsetup.hedgeContract ▸ hcontract) }

/-- A runtime with another state of its book. -/
def Runtime.withPortfolio (rt : Runtime F) (portfolio : PortfolioState F)
    (hproducts : portfolio.products = rt.portfolio.products) : Runtime F :=
  { rt with
    portfolio
    apart := by
      rw [hproducts]
      exact rt.apart }

/-- `handle_fill`, the offer to the managers: one product after the other, until a
manager takes the fill. -/
def tryHedges (fill : Fill F) (now : Nat) :
    List String → List (HedgeManager F) → Bool × List (HedgeManager F)
  | [], managers => (false, managers)
  | product :: rest, managers =>
      match forProductMut product (·.applyBrokerFill fill now) managers with
      | (some true, managers) => (true, managers)
      | (_, managers) => tryHedges fill now rest managers

/-- The product whose manager takes the fill. -/
def taker (fill : Fill F) (now : Nat) (products : List String)
    (managers : List (HedgeManager F)) : Option String :=
  products.find? fun product =>
    (forProduct managers product).any fun m => (m.applyBrokerFill fill now).1

theorem applyBrokerFill_fst_iff (m : HedgeManager F) (fill : Fill F) (now : Nat) :
    (m.applyBrokerFill fill now).1 = true ↔ m.Takes fill := by
  rcases m.applyBrokerFill_cases fill now with ⟨hyes, htaken, -⟩ | ⟨hno, hrefused⟩
  · exact iff_of_true htaken hyes
  · exact iff_of_false (by rw [hrefused]; exact Bool.false_ne_true) hno

/-- **The offer**: the first of the products whose manager would take the fill gets it,
or none does. -/
theorem tryHedges_eq (fill : Fill F) (now : Nat) (products : List String)
    (managers : List (HedgeManager F)) :
    tryHedges fill now products managers =
      match taker fill now products managers with
      | some product => (true, (forProductMut product (·.applyBrokerFill fill now) managers).2)
      | none => (false, managers) := by
  induction products with
  | nil => rfl
  | cons product rest ih =>
      have hfst := fst_forProductMut product (·.applyBrokerFill fill now) managers
      by_cases htakes : ((forProduct managers product).any
          fun m => (m.applyBrokerFill fill now).1) = true
      · obtain ⟨m, hm, htaken⟩ := (Option.any_eq_true _ _).mp htakes
        have hfound : taker fill now (product :: rest) managers = some product :=
          List.find?_cons_of_pos htakes
        rw [hm, Option.map_some, htaken] at hfst
        rw [hfound, tryHedges, ← Prod.eta (forProductMut _ _ _), hfst]
      · have hrefused (m : HedgeManager F) (hm : m ∈ forProduct managers product) :
            m.applyBrokerFill fill now = (false, m) := by
          rcases m.applyBrokerFill_cases fill now with ⟨-, htaken, -⟩ | ⟨-, hno⟩
          · exact absurd ((Option.any_eq_true _ _).mpr ⟨m, hm, htaken⟩) htakes
          · exact hno
        have hsame : (forProductMut product (·.applyBrokerFill fill now) managers).2 = managers :=
          forProductMut_unchanged fun m hm => by rw [hrefused m hm]
        have hfound : taker fill now (product :: rest) managers = taker fill now rest managers :=
          List.find?_cons_of_neg htakes
        rw [hfound, ← ih, tryHedges, ← Prod.eta (forProductMut _ _ _), hfst, hsame]
        cases hmanager : forProduct managers product with
        | none => rfl
        | some m => rw [Option.map_some, hrefused m hmanager]

/-- A manager takes the fill, the first of the products whose manager would; or
none does. -/
theorem tryHedges_cases (fill : Fill F) (now : Nat) (products : List String)
    (managers : List (HedgeManager F)) :
    (∃ product ∈ products, ∃ m, forProduct managers product = some m ∧ m.Takes fill ∧
        tryHedges fill now products managers =
          (true, (forProductMut product (·.applyBrokerFill fill now) managers).2)) ∨
      ((∀ product ∈ products, ∀ m ∈ forProduct managers product, ¬ m.Takes fill) ∧
        tryHedges fill now products managers = (false, managers)) := by
  have htried := tryHedges_eq fill now products managers
  cases htaker : taker fill now products managers with
  | some product =>
      rw [htaker] at htried
      have hany : ((forProduct managers product).any
          fun m => (m.applyBrokerFill fill now).1) = true := by
        have hfound := htaker
        unfold taker at hfound
        simpa using List.find?_some hfound
      obtain ⟨m, hm, htaken⟩ := (Option.any_eq_true _ _).mp hany
      exact .inl ⟨product, List.mem_of_find?_eq_some htaker, m, hm,
        (applyBrokerFill_fst_iff m fill now).mp htaken, htried⟩
  | none =>
      rw [htaker] at htried
      refine .inr ⟨fun product hproduct m hm htakes => ?_, htried⟩
      refine List.find?_eq_none.mp htaker product hproduct ?_
      exact (Option.any_eq_true _ _).mpr ⟨m, hm, (applyBrokerFill_fst_iff m fill now).mpr htakes⟩

theorem sameFanout_tryHedges (fill : Fill F) (now : Nat) (products : List String)
    (managers : List (HedgeManager F)) :
    SameFanout managers (tryHedges fill now products managers).2 := by
  rcases tryHedges_cases fill now products managers with ⟨product, -, m, -, -, h⟩ | ⟨-, h⟩
  · rw [h]
    exact sameFanout_forProductMut (fun m => m.sameSetup_applyBrokerFill fill now) managers
  · rw [h]
    exact .refl managers

/-- `add_fill`, as `handle_fill` calls it. -/
def addOptionFill (portfolio : PortfolioState F) (fill : Fill F) :
    String × F × Date × Right → PortfolioState F
  | (product, strike, expiry, right) =>
      (portfolio.addFill product strike expiry right (signedQty fill.side.isBuy fill.qty) fill.price
        F64.zero F64.zero).2

theorem products_addOptionFill (portfolio : PortfolioState F) (fill : Fill F)
    (option : String × F × Date × Right) :
    (addOptionFill portfolio fill option).products = portfolio.products :=
  congrArg AList.keys (registry_addFill portfolio _ _ _ _ _ _ _ _)

/-- `handle_fill`: the runtime after it, and the hedge action that it asks for. -/
def handleFill (rt : Runtime F) (fill : Fill F) (now : Nat) :
    Runtime F × Option (String × HedgeAction F) :=
  let tried := tryHedges fill now (rt.hedge.map (·.cfg.product)) rt.hedge
  if tried.1 then (rt.withHedge tried.2 (sameFanout_tryHedges ..), none)
  else
    match matched rt.portfolio.products rt.options fill.instrumentId with
    | none => (rt, none)
    | some option =>
        let rt := rt.withPortfolio (addOptionFill rt.portfolio fill option)
          (products_addOptionFill ..)
        let rebalanced := forProductMut option.1 (·.rebalanceOnFill rt.portfolio now) rt.hedge
        (rt.withHedge rebalanced.2
            (sameFanout_forProductMut (fun m => m.sameSetup_rebalanceOnFill rt.portfolio now) _),
          rebalanced.1.map fun action => (option.1, action))

/-! ## The book and the managers, one fill at a time -/

/-- The option book after a fill. -/
def bookFill (portfolio : PortfolioState F) (options : OptionTicks F) (fill : Fill F) :
    PortfolioState F :=
  match matched portfolio.products options fill.instrumentId with
  | none => portfolio
  | some option => addOptionFill portfolio fill option

/-- The instrument of a fill that a manager takes is no option. -/
theorem matched_of_takes {rt : Runtime F} {product : String} {m : HedgeManager F} {fill : Fill F}
    (hm : forProduct rt.hedge product = some m) (htakes : m.Takes fill) :
    matched rt.portfolio.products rt.options fill.instrumentId = none := by
  obtain ⟨-, ⟨contract, hcontract, hid⟩, -⟩ := htakes
  rw [← hid]
  exact rt.apart m (List.mem_of_find?_eq_some hm) contract hcontract

/-- **The book after a fill** depends on the book and on the registered options,
and on no manager. -/
theorem portfolio_handleFill (rt : Runtime F) (fill : Fill F) (now : Nat) :
    (handleFill rt fill now).1.portfolio = bookFill rt.portfolio rt.options fill := by
  unfold handleFill bookFill
  rcases tryHedges_cases fill now (rt.hedge.map (·.cfg.product)) rt.hedge with
    ⟨product, -, m, hm, htakes, htried⟩ | ⟨-, htried⟩
  · simp only [htried, if_true, matched_of_takes hm htakes]
    rfl
  · simp only [htried]
    cases matched rt.portfolio.products rt.options fill.instrumentId with
    | none => rfl
    | some option => rfl

@[simp] theorem options_handleFill (rt : Runtime F) (fill : Fill F) (now : Nat) :
    (handleFill rt fill now).1.options = rt.options := by
  unfold handleFill
  dsimp only
  split
  · rfl
  · split
    · rfl
    · rfl

/-- The managers after a fill: the one that takes it has applied it, or none does
and at most one has decided on a rebalance. -/
theorem hedge_handleFill (rt : Runtime F) (fill : Fill F) (now : Nat) :
    (∃ product m, forProduct rt.hedge product = some m ∧ m.Takes fill ∧
        (handleFill rt fill now).1.hedge =
          (forProductMut product (·.applyBrokerFill fill now) rt.hedge).2) ∨
      ((∀ product ∈ rt.hedge.map (·.cfg.product), ∀ m ∈ forProduct rt.hedge product,
          ¬ m.Takes fill) ∧
        ((handleFill rt fill now).1.hedge = rt.hedge ∨
          ∃ product portfolio, (handleFill rt fill now).1.hedge =
            (forProductMut product (·.rebalanceOnFill portfolio now) rt.hedge).2)) := by
  unfold handleFill
  rcases tryHedges_cases fill now (rt.hedge.map (·.cfg.product)) rt.hedge with
    ⟨product, -, m, hm, htakes, htried⟩ | ⟨hnone, htried⟩
  · refine .inl ⟨product, m, hm, htakes, ?_⟩
    simp only [htried, if_true]
    rfl
  · refine .inr ⟨hnone, ?_⟩
    simp only [htried]
    cases matched rt.portfolio.products rt.options fill.instrumentId with
    | none => exact .inl rfl
    | some option => exact .inr ⟨option.1, _, rfl⟩

theorem products_bookFill (portfolio : PortfolioState F) (options : OptionTicks F)
    (fill : Fill F) : (bookFill portfolio options fill).products = portfolio.products := by
  unfold bookFill
  split
  · rfl
  · exact products_addOptionFill portfolio fill _

/-- What a fill adds to the count of the day. -/
def counted (products : List String) (options : OptionTicks F) (fill : Fill F) : UInt32 :=
  match matched products options fill.instrumentId with
  | none => 0
  | some _ => UInt32.ofNat (signedQty fill.side.isBuy fill.qty).natAbs

theorem fillsToday_bookFill (portfolio : PortfolioState F) (options : OptionTicks F)
    (fill : Fill F) :
    (bookFill portfolio options fill).fillsToday =
      portfolio.fillsToday + counted portfolio.products options fill := by
  unfold bookFill counted
  split
  · exact (UInt32.add_zero _).symm
  · exact fillsToday_addFill _ _ _ _ _ _ _ _ _

/-! ## Runs of executions -/

/-- The adapter's requests and the runtime. -/
structure ExecState (F : Type) [F64 F] where
  pending : Pending F
  runtime : Runtime F

/-- A step: an execution arrives, with the clock of its `handle_fill`; a request
for executions is opened; its end arrives, or it times out. -/
inductive ExecStep (F : Type)
  | execution (e : ExecutionMsg F) (now : Nat)
  | request (reqId : Int)
  | executionEnd (reqId : Int)
  | timeout (reqId : Int)

/-- One step. -/
def step (s : ExecState F) : ExecStep F → ExecState F
  | .execution e now =>
      let (pending, fills) := routeExecution s.pending e
      { pending, runtime := fills.foldl (fun rt fill => (handleFill rt fill now).1) s.runtime }
  | .request reqId => { s with pending := s.pending.insert reqId [] }
  | .executionEnd reqId => { s with pending := s.pending.erase reqId }
  | .timeout reqId => { s with pending := s.pending.erase reqId }

/-- The quantities and average prices of the legs, the realized P&L and the count
of the day. -/
def accounts (portfolio : PortfolioState F) : List (PositionKey × Int × F) × F × UInt32 :=
  (portfolio.positions.map fun leg => (leg.key, leg.quantity, leg.avgFillPrice),
    portfolio.realizedPnlPersisted, portfolio.fillsToday)

/-- The fill of an execution that no open request keeps. -/
def broadcastFill (pending : Pending F) (e : ExecutionMsg F) : Option (Fill F) :=
  if 0 < e.reqId ∧ (pending.lookup e.reqId).isSome then none else executionToFill e

/-- The execution is booked as an option fill: it has a known side, no open request
keeps it, its instrument is a registered option and its quantity is not zero. -/
def TakenAsOption (s : ExecState F) (e : ExecutionMsg F) : Prop :=
  ∃ fill ∈ broadcastFill s.pending e,
    (matched s.runtime.portfolio.products s.runtime.options fill.instrumentId).isSome = true ∧
      signedQty fill.side.isBuy fill.qty ≠ 0

instance (s : ExecState F) (e : ExecutionMsg F) : Decidable (TakenAsOption s e) := by
  unfold TakenAsOption
  infer_instance

/-- An execution leaves the same requests open. -/
theorem isSome_lookup_routeExecution (pending : Pending F) (e : ExecutionMsg F) (reqId : Int) :
    ((routeExecution pending e).1.lookup reqId).isSome = (pending.lookup reqId).isSome := by
  unfold routeExecution
  split
  · rfl
  · split
    · split
      · rename_i accumulated hopen
        by_cases hid : reqId = e.reqId
        · rw [hid, AList.lookup_insert, hopen]
          rfl
        · rw [AList.lookup_insert_ne hid]
      · rfl
    · rfl

theorem routeExecution_fills (pending : Pending F) (e : ExecutionMsg F) :
    (routeExecution pending e).2 = (broadcastFill pending e).toList := by
  unfold routeExecution broadcastFill
  cases executionToFill e with
  | none => simp
  | some fill =>
      by_cases hanswer : 0 < e.reqId
      · cases hopen : pending.lookup e.reqId with
        | none => simp [hanswer]
        | some accumulated => simp [hanswer]
      · simp [hanswer]

/-- The book after an execution. -/
theorem portfolio_execution (s : ExecState F) (e : ExecutionMsg F) (now : Nat) :
    (step s (.execution e now)).runtime.portfolio =
      match broadcastFill s.pending e with
      | none => s.runtime.portfolio
      | some fill => bookFill s.runtime.portfolio s.runtime.options fill := by
  simp only [step, routeExecution_fills]
  cases broadcastFill s.pending e with
  | none => rfl
  | some fill => exact portfolio_handleFill s.runtime fill now

theorem options_execution (s : ExecState F) (e : ExecutionMsg F) (now : Nat) :
    (step s (.execution e now)).runtime.options = s.runtime.options := by
  simp only [step, routeExecution_fills]
  cases broadcastFill s.pending e with
  | none => rfl
  | some fill => exact options_handleFill s.runtime fill now

theorem products_execution (s : ExecState F) (e : ExecutionMsg F) (now : Nat) :
    (step s (.execution e now)).runtime.portfolio.products = s.runtime.portfolio.products := by
  rw [portfolio_execution]
  split
  · rfl
  · exact products_bookFill _ _ _

/-- Executions are routed alike: the same requests are open, and the same options
are registered. -/
structure SameRouting (s s' : ExecState F) : Prop where
  pending : ∀ reqId, (s'.pending.lookup reqId).isSome = (s.pending.lookup reqId).isSome
  options : s'.runtime.options = s.runtime.options
  products : s'.runtime.portfolio.products = s.runtime.portfolio.products

theorem SameRouting.broadcastFill {s s' : ExecState F} (h : SameRouting s s')
    (e : ExecutionMsg F) : broadcastFill s'.pending e = broadcastFill s.pending e := by
  unfold Fills.broadcastFill
  rw [h.pending]

/-- An execution leaves the routing as it is. -/
theorem sameRouting_execution (s : ExecState F) (e : ExecutionMsg F) (now : Nat) :
    SameRouting s (Fills.step s (.execution e now)) where
  pending := isSome_lookup_routeExecution s.pending e
  options := options_execution s e now
  products := products_execution s e now

theorem SameRouting.erased {s s' : ExecState F} (h : SameRouting s s') (id reqId : Int) :
    ((s'.pending.erase id).lookup reqId).isSome = ((s.pending.erase id).lookup reqId).isSome := by
  by_cases hid : reqId = id
  · rw [hid, AList.lookup_erase, AList.lookup_erase]
  · rw [AList.lookup_erase_ne hid, AList.lookup_erase_ne hid, h.pending]

theorem SameRouting.step {s s' : ExecState F} (h : SameRouting s s') (a : ExecStep F) :
    SameRouting (Fills.step s a) (Fills.step s' a) := by
  cases a with
  | execution e now =>
      refine ⟨fun reqId => ?_, ?_, ?_⟩
      · exact (isSome_lookup_routeExecution _ _ _).trans
          ((h.pending reqId).trans (isSome_lookup_routeExecution _ _ _).symm)
      · rw [options_execution, options_execution, h.options]
      · rw [products_execution, products_execution, h.products]
  | request id =>
      refine ⟨fun reqId => ?_, h.options, h.products⟩
      simp only [Fills.step]
      by_cases hid : reqId = id
      · rw [hid, AList.lookup_insert, AList.lookup_insert]
      · rw [AList.lookup_insert_ne hid, AList.lookup_insert_ne hid, h.pending]
  | executionEnd id => exact ⟨h.erased id, h.options, h.products⟩
  | timeout id => exact ⟨h.erased id, h.options, h.products⟩

/-- **Equal books stay equal** under executions that are routed alike. -/
theorem sameBook_step {s s' : ExecState F} (h : SameRouting s s')
    (hbook : s'.runtime.portfolio = s.runtime.portfolio) (a : ExecStep F) :
    (step s' a).runtime.portfolio = (step s a).runtime.portfolio := by
  cases a with
  | execution e now =>
      rw [portfolio_execution, portfolio_execution, h.broadcastFill, h.options, hbook]
  | request id => exact hbook
  | executionEnd id => exact hbook
  | timeout id => exact hbook

/-- **Counts stay apart** by what they are apart. -/
theorem fillsToday_step {s s' : ExecState F} (h : SameRouting s s') {d : UInt32}
    (hcount : s'.runtime.portfolio.fillsToday = s.runtime.portfolio.fillsToday + d)
    (a : ExecStep F) :
    (step s' a).runtime.portfolio.fillsToday = (step s a).runtime.portfolio.fillsToday + d := by
  cases a with
  | execution e now =>
      rw [portfolio_execution, portfolio_execution, h.broadcastFill]
      cases broadcastFill s.pending e with
      | none => exact hcount
      | some fill =>
          simp only [fillsToday_bookFill, h.options, h.products, hcount]
          rw [UInt32.add_assoc, UInt32.add_comm d, UInt32.add_assoc]
  | request id => exact hcount
  | executionEnd id => exact hcount
  | timeout id => exact hcount

/-- An execution that is not taken as an option fill leaves the book alone. -/
theorem portfolio_of_not_taken {s : ExecState F} {e : ExecutionMsg F}
    (h : ¬ TakenAsOption s e) (now : Nat) :
    (step s (.execution e now)).runtime.portfolio = s.runtime.portfolio := by
  rw [portfolio_execution]
  cases hfill : broadcastFill s.pending e with
  | none => rfl
  | some fill =>
      simp only [bookFill]
      cases hmatched : matched s.runtime.portfolio.products s.runtime.options
          fill.instrumentId with
      | none => rfl
      | some option =>
          have hzero : signedQty fill.side.isBuy fill.qty = 0 := by
            by_contra hqty
            exact h ⟨fill, hfill, by rw [hmatched]; rfl, hqty⟩
          simp only [addOptionFill, hzero, PortfolioState.addFill, if_true]

/-- One that is taken moves the count. -/
theorem fillsToday_of_taken {s : ExecState F} {e : ExecutionMsg F} (h : TakenAsOption s e)
    (now : Nat) :
    ∃ d, d ≠ 0 ∧ (step s (.execution e now)).runtime.portfolio.fillsToday =
      s.runtime.portfolio.fillsToday + d := by
  obtain ⟨fill, hfill, hmatched, hqty⟩ := h
  obtain ⟨option, hoption⟩ := Option.isSome_iff_exists.mp hmatched
  refine ⟨counted s.runtime.portfolio.products s.runtime.options fill, ?_, ?_⟩
  · simp only [counted, hoption]
    intro hzero
    have hnat := congrArg UInt32.toNat hzero
    rw [UInt32.toNat_ofNat'] at hnat
    have hbounds := signedQty_bounds fill.side.isBuy fill.qty
    simp only [UInt32.toNat_zero] at hnat
    omega
  · rw [portfolio_execution, hfill]
    exact fillsToday_bookFill _ _ _

/-- **When a repeat changes nothing.** An execution that is put into a run, after
its first occurrence or anywhere else, leaves the final accounts as they were
exactly where it is not taken as an option fill. -/
theorem repeat_changes_nothing_iff (s : ExecState F) (front back : List (ExecStep F))
    (again : ExecutionMsg F) (now : Nat) :
    accounts (run step s (front ++ .execution again now :: back)).runtime.portfolio =
        accounts (run step s (front ++ back)).runtime.portfolio ↔
      ¬ TakenAsOption (run step s front) again := by
  rw [run_append, run_append, run_cons]
  generalize run step s front = t
  have hrouting := sameRouting_execution t again now
  constructor
  · intro haccounts htaken
    obtain ⟨d, hd, hcount⟩ := fillsToday_of_taken htaken now
    have hapart := run_related
      (R := fun s s' => SameRouting s s' ∧
        s'.runtime.portfolio.fillsToday = s.runtime.portfolio.fillsToday + d)
      (fun _ _ a h => ⟨h.1.step a, fillsToday_step h.1 h.2 a⟩) ⟨hrouting, hcount⟩ back
    have hsame : (run step (step t (.execution again now)) back).runtime.portfolio.fillsToday =
        (run step t back).runtime.portfolio.fillsToday := congrArg (fun a => a.2.2) haccounts
    rw [hapart.2, UInt32.add_eq_left] at hsame
    exact hd hsame
  · intro hnot
    have hbook := run_related
      (R := fun s s' => SameRouting s s' ∧ s'.runtime.portfolio = s.runtime.portfolio)
      (fun _ _ a h => ⟨h.1.step a, sameBook_step h.1 h.2 a⟩)
      ⟨hrouting, portfolio_of_not_taken hnot now⟩ back
    rw [hbook.2]

end Runtime

/-! ## A late answer -/

/-- One HG call is bought; `reqId` is the request that the message answers. -/
def callBought (reqId : Int) : ExecutionMsg ℚ where
  reqId
  contract := {
    conId := 712565973
    symbol := "HG"
    secType := "FOP"
    lastTradeDate := "20260626"
    strike := 121 / 20
    right := "C"
    multiplier := "25000"
    exchange := "COMEX"
    primaryExchange := ""
    currency := "USD"
    localSymbol := "HXEM6 C6"
    tradingClass := "HXE" }
  execId := "e1"
  side := "BOT"
  shares := 1
  price := 1 / 40

/-- HG with its hedge contract and the call, and no position. -/
def hgRuntime : Runtime ℚ where
  hedge := [hgManager 0]
  portfolio := .new (AList.insert "HG" 25000 ∅)
  options := AList.insert (makeKey "HG" (121 / 20 : ℚ) { year := 2026, month := 6, day := 26 } .call)
    { instrumentId := some 712565973
      strike := 121 / 20
      expiry := { year := 2026, month := 6, day := 26 }
      right := .call } ∅
  apart := by decide +kernel

/-- The answer to a request that has timed out is booked once more. -/
theorem late_answer_counts_twice :
    let s := run step ⟨∅, hgRuntime⟩ [.request 5, .execution (callBought 0) 1, .timeout 5]
    (accounts s.runtime.portfolio).1.map (·.2.1) = [1] ∧
      (accounts (step s (.execution (callBought 5) 2)).runtime.portfolio).1.map (·.2.1) = [2] ∧
      accounts (step s (.execution (callBought 5) 2)).runtime.portfolio ≠
        accounts s.runtime.portfolio := by
  decide +kernel

end Corsair.Ports.Fills
