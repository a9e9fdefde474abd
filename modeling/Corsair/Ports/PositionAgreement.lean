import Corsair.Ports.Fills
import Corsair.Ports.OptionsReconcile
import Corsair.Ports.RestingSweep

/-!
# The fill stream and the position stream

The broker reports a trade twice: as an execution, which `pump_fills` books when
it gets to it, and as a change of its position, which a reconcile takes over.
The two arrive on channels of their own, and nothing in a position says which
executions it counts.

A trade is an `execution` step, the message that reports it as it happens; the
answers to a request, which repeat it, are in `Fills`.  The tasks take turns
between their steps: `periodic_hedge` asks for the positions, reconciles the
options and then the hedges, and decides; `pump_fills` delivers the next fill, or
finds that it has lost some and reconciles the options.

## Main results

* `balanced_deliver`, `balanced_reconcileOptions`, `balanced_reconcileHedges` — the
  steps that keep the accounts at what has been delivered.
* `agrees_once_delivered` — if every reconcile reads positions that count what has
  been delivered and no more, the accounts end at the broker's true position.
-/

namespace Corsair.Ports.PositionAgreement

open Corsair.Verified
open Corsair.Verified.Runs
open Corsair.Ports.Portfolio (Right Date)
open Corsair.Ports.BrokerApi
open Corsair.Ports.NativeDecoder (ContractDecoded TextFormats)
open Corsair.Ports.NativeBroker (parseKind parseRight parseExchange parseCurrency epochDate)
open Corsair.Ports.RestingSweep (plainFormats)
open Corsair.Ports.PositionBook
open Corsair.Ports.HedgeManager
open Corsair.Ports.HedgeReconcile
open Corsair.Ports.OptionsReconcile
open Corsair.Ports.Fills

variable {F : Type}

/-! ## The position cache -/

/-- `PositionMsg`. -/
structure PositionMsg (F : Type) where
  account : String
  contract : ContractDecoded F
  position : F
  avgCost : F

/-- The position cache, by account and contract. -/
abbrev PositionCache (F : Type) := AList (fun _ : String × Int => BrokerPosition F)

/-- `char::is_whitespace`. -/
def isWhitespace (c : Char) : Bool :=
  let n := c.toNat
  (0x9 ≤ n ∧ n ≤ 0xd) ∨ (0x2000 ≤ n ∧ n ≤ 0x200a) ∨
    n ∈ [0x20, 0x85, 0xa0, 0x1680, 0x2028, 0x2029, 0x202f, 0x205f, 0x3000]

/-- The first of `split_whitespace`, or nothing. -/
def firstWord (s : String) : String :=
  String.ofList ((s.toList.dropWhile isWhitespace).takeWhile (!isWhitespace ·))

section Runtime

variable [F64 F]

/-- `native_to_position`; a month alone, `%Y%m`, is no date. -/
def nativeToPosition (fmt : TextFormats F Date) (p : PositionMsg F) :
    Option (BrokerPosition F) := do
  let kind ← parseKind p.contract.secType
  return {
    contract := {
      instrumentId := asU64 p.contract.conId
      kind
      symbol := p.contract.symbol
      localSymbol := p.contract.localSymbol
      expiry := (fmt.ymd (firstWord p.contract.lastTradeDate)).getD epochDate
      strike := if F64.gt p.contract.strike F64.zero then some p.contract.strike else none
      right := parseRight p.contract.right
      multiplier := (fmt.float p.contract.multiplier).toOption.getD F64.zero
      exchange := parseExchange p.contract.exchange
      currency := parseCurrency p.contract.currency
      tradingClass := p.contract.tradingClass }
    quantity := F64.toInt (-2 ^ 31) (2 ^ 31 - 1) p.position
    avgCost := p.avgCost }

/-- `route`, on a `Position`: zero closes it. -/
def routePosition (fmt : TextFormats F Date) (cache : PositionCache F) (p : PositionMsg F) :
    PositionCache F :=
  if F64.le p.position F64.zero && F64.le F64.zero p.position then
    cache.erase (p.account, p.contract.conId)
  else
    match nativeToPosition fmt p with
    | some pos => cache.insert (p.account, p.contract.conId) pos
    | none => cache

/-- `positions`: what is cached, in the order in which the hash map yields it. -/
def positions (cache : PositionCache F) (order : List Nat) : List (BrokerPosition F) :=
  let cached := cache.entries.map (·.2)
  if order.Perm (List.range cached.length) then order.filterMap (cached[·]?) else cached

/-! ## The tasks -/

/-- The tasks that reconcile. -/
inductive Task
  | periodicHedge
  | pumpFills
  deriving DecidableEq, Repr

/-- The runtime between the two streams: the position cache, the positions that
each task holds, every trade so far, the fills that wait in the channel, and those
that have been handled. -/
structure State (F : Type) [F64 F] where
  runtime : Runtime F
  cache : PositionCache F
  held : Task → List (BrokerPosition F)
  executed : List (Fill F)
  channel : List (Fill F)
  delivered : List (Fill F)

/-- A step: the adapter routes a position or an execution; `pump_fills` handles the
next fill, or has lost the oldest ones; a task asks for the positions, or
reconciles; `periodic_hedge` decides for a product. -/
inductive Step (F : Type)
  | position (p : PositionMsg F)
  | execution (e : ExecutionMsg F)
  | deliver (now : Nat)
  | lagged (lost : Nat)
  | positions (task : Task) (order : List Nat)
  | reconcileOptions (task : Task)
  | reconcileHedges (now : Nat)
  | rebalance (product : String) (forward : F) (now : Nat)

/-- One step. -/
def step (fmt : TextFormats F Date) (s : State F) : Step F → State F
  | .position p => { s with cache := routePosition fmt s.cache p }
  | .execution e =>
      match executionToFill e with
      | none => s
      | some fill =>
          { s with executed := s.executed ++ [fill], channel := s.channel ++ [fill] }
  | .deliver now =>
      match s.channel with
      | [] => s
      | fill :: rest =>
          { s with
            runtime := (handleFill s.runtime fill now).1
            channel := rest
            delivered := s.delivered ++ [fill] }
  | .lagged lost => { s with channel := s.channel.drop lost }
  | .positions task order => { s with held := Function.update s.held task (positions s.cache order) }
  | .reconcileOptions task =>
      { s with
        runtime := s.runtime.withPortfolio
          (reconcileOptions s.runtime.portfolio (s.held task)).2 (products_reconcileOptions ..) }
  | .reconcileHedges now =>
      { s with
        runtime := s.runtime.withHedge
          (reconcileHedges now s.runtime.hedge (s.held .periodicHedge))
          (sameFanout_reconcileHedges ..) }
  | .rebalance product forward now =>
      { s with
        runtime := s.runtime.withHedge
          (forProductMut product (·.rebalancePeriodic s.runtime.portfolio forward now)
            s.runtime.hedge).2
          (sameFanout_forProductMut (fun m => m.sameSetup_rebalancePeriodic _ _ _) _) }

end Runtime

/-! ## The broker's true position -/

/-- What fills amount to on the instruments that count. -/
def traded (counts : Nat → Bool) (fills : List (Fill F)) : Int :=
  (fills.map fun f =>
    if counts f.instrumentId then signedQty f.side.isBuy f.qty else 0).sum

theorem traded_append_singleton (counts : Nat → Bool) (fills : List (Fill F)) (fill : Fill F) :
    traded counts (fills ++ [fill]) =
      traded counts fills +
        if counts fill.instrumentId then signedQty fill.side.isBuy fill.qty else 0 := by
  simp [traded]

/-- The manager of a product in execute mode, with its hedge contract. -/
def hedging (managers : List (HedgeManager F)) (product : String) :
    Option (HedgeManager F × Contract F) :=
  (forProduct managers product).bind fun m =>
    if m.cfg.mode = .execute then m.hedgeContract.map (m, ·) else none

theorem hedging_eq_some_iff {managers : List (HedgeManager F)} {product : String}
    {m : HedgeManager F} {contract : Contract F} :
    hedging managers product = some (m, contract) ↔
      forProduct managers product = some m ∧ m.cfg.mode = .execute ∧
        m.hedgeContract = some contract := by
  unfold hedging
  rw [Option.bind_eq_some_iff]
  constructor
  · rintro ⟨found, hfound, h⟩
    split at h
    · rename_i hmode
      obtain ⟨contract', hcontract, heq⟩ := Option.map_eq_some_iff.mp h
      obtain ⟨rfl, rfl⟩ := Prod.mk.inj heq
      exact ⟨hfound, hmode, hcontract⟩
    · cases h
  · rintro ⟨hfound, hmode, hcontract⟩
    exact ⟨m, hfound, by rw [if_pos hmode, hcontract]; rfl⟩

/-- A product that hedges after a change did so before, with the same contract. -/
theorem hedging_of_map {managers managers' : List (HedgeManager F)} {product : String}
    {g : HedgeManager F → HedgeManager F} (hsetup : ∀ m, SameSetup m (g m))
    (hafter : forProduct managers' product = (forProduct managers product).map g)
    {m' : HedgeManager F} {contract : Contract F}
    (h : hedging managers' product = some (m', contract)) :
    ∃ m, hedging managers product = some (m, contract) ∧ g m = m' := by
  obtain ⟨hfound, hmode, hcontract⟩ := hedging_eq_some_iff.mp h
  rw [hafter] at hfound
  obtain ⟨m, hm, rfl⟩ := Option.map_eq_some_iff.mp hfound
  refine ⟨m, hedging_eq_some_iff.mpr ⟨hm, ?_, ?_⟩, rfl⟩
  · rw [← (hsetup m).cfg, hmode]
  · rw [← (hsetup m).hedgeContract, hcontract]

/-- So it did before a call on the manager of one product. -/
theorem hedging_of_forProductMut {β : Type} {managers : List (HedgeManager F)}
    {product other : String} {f : HedgeManager F → β × HedgeManager F}
    (hsetup : ∀ m, SameSetup m (f m).2) {m' : HedgeManager F} {contract : Contract F}
    (h : hedging (forProductMut product f managers).2 other = some (m', contract)) :
    ∃ m, hedging managers other = some (m, contract) ∧
      (if other = product then (f m).2 else m) = m' := by
  refine hedging_of_map (fun m => ?_) (forProduct_forProductMut hsetup managers other) h
  split
  · exact hsetup m
  · exact .refl m

/-- And with the same quantity, where the call moves no hedge in execute mode. -/
theorem hedging_of_state_kept {β : Type} {managers : List (HedgeManager F)}
    {product other : String} {f : HedgeManager F → β × HedgeManager F}
    (hsetup : ∀ m, SameSetup m (f m).2)
    (hstate : ∀ m : HedgeManager F, m.cfg.mode = .execute → (f m).2.state = m.state)
    {m' : HedgeManager F} {contract : Contract F}
    (h : hedging (forProductMut product f managers).2 other = some (m', contract)) :
    ∃ m, hedging managers other = some (m, contract) ∧ m'.state = m.state := by
  obtain ⟨m, hm, hchange⟩ := hedging_of_forProductMut hsetup h
  have hmode := (hedging_eq_some_iff.mp hm).2.1
  refine ⟨m, hm, ?_⟩
  rw [← hchange]
  split
  · exact hstate m hmode
  · rfl

/-- The accounts hold what the fills amount to: each hedge on its contract, each
option leg on the instruments that name it.  Sums are those of an `i32`. -/
structure Balanced [F64 F] (legOf : Nat → Option PositionKey) (fills : List (Fill F))
    (rt : Runtime F) : Prop where
  hedges : ∀ product m contract, hedging rt.hedge product = some (m, contract) →
    m.state.hedgeQty = i32 (traded (· = contract.instrumentId) fills)
  legs : ∀ key, i32 (legQty rt.portfolio.positions key) =
    i32 (traded (legOf · = some key) fills)

/-! ## Steps that keep the accounts -/

section Balance

variable [F64 F] (legOf : Nat → Option PositionKey)

/-- A fill is booked where it belongs: it is new to the manager that hedges with
its instrument, which no other product hedges with, and the leg that its
instrument names is the one under which it is registered. -/
structure Booked (rt : Runtime F) (fill : Fill F) : Prop where
  fresh : ∀ product ∈ rt.hedge.map (·.cfg.product), ∀ h ∈ hedging rt.hedge product,
    h.2.instrumentId = fill.instrumentId →
      fill.execId ≠ "" ∧ fill.execId ∉ h.1.processedExecIds
  alone : ∀ product ∈ rt.hedge.map (·.cfg.product), ∀ h ∈ hedging rt.hedge product,
    h.2.instrumentId = fill.instrumentId →
      ∀ other ∈ rt.hedge.map (·.cfg.product), ∀ k ∈ hedging rt.hedge other,
        k.2.instrumentId = fill.instrumentId → other = product
  registered : legOf fill.instrumentId =
    (matched rt.portfolio.products rt.options fill.instrumentId).map
      fun (product, strike, expiry, right) => makeKey product strike expiry right

/-- The positions that a reconcile reads show of each leg what has been delivered. -/
def ShowsLegs (fills : List (Fill F)) (book : PortfolioState F)
    (held : List (BrokerPosition F)) : Prop :=
  ∀ key ∈ (toInsert book held).map (·.key) ++ fills.filterMap (legOf ·.instrumentId),
    i32 (legQty (toInsert book held) key) = i32 (traded (legOf · = some key) fills)

/-- And of each hedge. -/
def ShowsHedges (fills : List (Fill F)) (managers : List (HedgeManager F))
    (held : List (BrokerPosition F)) : Prop :=
  ∀ product ∈ managers.map (·.cfg.product), ∀ h ∈ hedging managers product,
    ∀ pos ∈ (held.filter (isFutureOf product)).getLast?,
      pos.quantity = i32 (traded (· = h.2.instrumentId) fills)

instance (rt : Runtime F) (fill : Fill F) : Decidable (Booked legOf rt fill) :=
  decidable_of_iff (_ ∧ _ ∧ _)
    ⟨fun ⟨fresh, alone, registered⟩ => ⟨fresh, alone, registered⟩,
      fun h => ⟨h.fresh, h.alone, h.registered⟩⟩

instance (fills : List (Fill F)) (book : PortfolioState F) (held : List (BrokerPosition F)) :
    Decidable (ShowsLegs legOf fills book held) := by
  unfold ShowsLegs
  infer_instance

instance (fills : List (Fill F)) (managers : List (HedgeManager F))
    (held : List (BrokerPosition F)) : Decidable (ShowsHedges fills managers held) := by
  unfold ShowsHedges
  infer_instance

variable {legOf}

omit [F64 F] in
theorem mem_products_of_hedging {managers : List (HedgeManager F)} {product : String}
    {h : HedgeManager F × Contract F} (hhedging : hedging managers product = some h) :
    product ∈ managers.map (·.cfg.product) := by
  obtain ⟨hfound, -, -⟩ := hedging_eq_some_iff.mp hhedging
  have hproduct := List.find?_some hfound
  exact List.mem_map.mpr ⟨h.1, List.mem_of_find?_eq_some hfound, of_decide_eq_true hproduct⟩

theorem legs_deliver {fills : List (Fill F)} {rt : Runtime F} {fill : Fill F}
    (hlegs : ∀ key, i32 (legQty rt.portfolio.positions key) =
      i32 (traded (legOf · = some key) fills))
    (hbooked : Booked legOf rt fill) (now : Nat) (key : PositionKey) :
    i32 (legQty (handleFill rt fill now).1.portfolio.positions key) =
      i32 (traded (legOf · = some key) (fills ++ [fill])) := by
  have hregistered := hbooked.registered
  rw [portfolio_handleFill, traded_append_singleton, hregistered]
  unfold bookFill
  cases matched rt.portfolio.products rt.options fill.instrumentId with
  | none => simpa using hlegs key
  | some option =>
      obtain ⟨product, strike, expiry, right⟩ := option
      simp only [addOptionFill, Option.map_some, Option.some.injEq, decide_eq_true_eq]
      rw [legQty_addFill, ← i32_i32_add, hlegs key, i32_i32_add]

theorem hedges_deliver {fills : List (Fill F)} {rt : Runtime F} {fill : Fill F}
    (hhedges : ∀ product m contract, hedging rt.hedge product = some (m, contract) →
      m.state.hedgeQty = i32 (traded (· = contract.instrumentId) fills))
    (hbooked : Booked legOf rt fill) (now : Nat) {product : String} {m' : HedgeManager F}
    {contract : Contract F}
    (h : hedging (handleFill rt fill now).1.hedge product = some (m', contract)) :
    m'.state.hedgeQty = i32 (traded (· = contract.instrumentId) (fills ++ [fill])) := by
  rw [traded_append_singleton]
  rcases hedge_handleFill rt fill now with ⟨taker, m, hm, htakes, hafter⟩ | ⟨hnone, hafter⟩
  · -- One manager has taken the fill; it is the only one that hedges with its instrument.
    have hmode := htakes.1
    obtain ⟨target, htarget, hid⟩ := htakes.2.1
    have htaker : hedging rt.hedge taker = some (m, target) :=
      hedging_eq_some_iff.mpr ⟨hm, hmode, htarget⟩
    rw [hafter] at h
    obtain ⟨old, hold, hchange⟩ := hedging_of_forProductMut
      (fun m => m.sameSetup_applyBrokerFill fill now) h
    by_cases hproduct : product = taker
    · subst hproduct
      rw [htaker] at hold
      obtain ⟨rfl, rfl⟩ := Prod.mk.inj (Option.some.inj hold)
      rcases m.applyBrokerFill_cases fill now with ⟨-, -, hqty, -⟩ | ⟨hnot, -⟩
      · rw [if_pos rfl] at hchange
        rw [← hchange, hqty, hhedges product m target htaker, i32_i32_add]
        simp [hid]
      · exact absurd htakes hnot
    · have hother : fill.instrumentId ≠ contract.instrumentId := fun heq =>
        hproduct (hbooked.alone taker (mem_products_of_hedging htaker) _ htaker hid product
          (mem_products_of_hedging hold) _ hold heq.symm)
      rw [if_neg hproduct] at hchange
      rw [← hchange, hhedges product old contract hold]
      simp [hother]
  · -- No manager has: none hedges with the instrument, and decisions move nothing.
    have hkept : ∃ m, hedging rt.hedge product = some (m, contract) ∧ m'.state = m.state := by
      rcases hafter with hsame | ⟨decided, portfolio, hdecided⟩
      · rw [hsame] at h
        exact ⟨m', h, rfl⟩
      · rw [hdecided] at h
        exact hedging_of_state_kept (fun m => m.sameSetup_rebalanceOnFill portfolio now)
          (fun _ hmode => state_rebalanceOnFill hmode portfolio now) h
    obtain ⟨m, hm, hstate⟩ := hkept
    obtain ⟨hfound, hmode, hcontract⟩ := hedging_eq_some_iff.mp hm
    have hother : fill.instrumentId ≠ contract.instrumentId := fun heq =>
      hnone product (mem_products_of_hedging hm) m hfound
        ⟨hmode, ⟨contract, hcontract, heq.symm⟩,
          hbooked.fresh product (mem_products_of_hedging hm) _ hm heq.symm⟩
    rw [hstate, hhedges product m contract hm]
    simp [hother]

/-- **A delivery** that is booked where it belongs. -/
theorem balanced_deliver {fills : List (Fill F)} {rt : Runtime F} {fill : Fill F}
    (h : Balanced legOf fills rt) (hbooked : Booked legOf rt fill) (now : Nat) :
    Balanced legOf (fills ++ [fill]) (handleFill rt fill now).1 where
  hedges _ _ _ hhedging := hedges_deliver h.hedges hbooked now hhedging
  legs := legs_deliver h.legs hbooked now

theorem legQty_of_not_mem {legs : List (Leg F)} {key : PositionKey}
    (h : key ∉ legs.map (·.key)) : legQty legs key = 0 := by
  apply List.sum_eq_zero
  intro n hn
  obtain ⟨leg, hleg, rfl⟩ := List.mem_map.mp hn
  exact if_neg fun hkey => h (List.mem_map.mpr ⟨leg, hleg, hkey⟩)

omit [F64 F] in
theorem traded_of_not_mem {fills : List (Fill F)} {key : PositionKey}
    (h : key ∉ fills.filterMap (legOf ·.instrumentId)) :
    traded (legOf · = some key) fills = 0 := by
  apply List.sum_eq_zero
  intro n hn
  obtain ⟨fill, hfill, rfl⟩ := List.mem_map.mp hn
  refine if_neg fun hkey => h (List.mem_filterMap.mpr ⟨fill, hfill, ?_⟩)
  exact of_decide_eq_true hkey

/-- **A reconcile of the options** whose positions show what has been delivered. -/
theorem balanced_reconcileOptions {fills : List (Fill F)} {rt : Runtime F}
    {held : List (BrokerPosition F)} (h : Balanced legOf fills rt)
    (hshows : ShowsLegs legOf fills rt.portfolio held) :
    Balanced legOf fills (rt.withPortfolio (reconcileOptions rt.portfolio held).2
      (products_reconcileOptions ..)) where
  hedges := h.hedges
  legs := by
    intro key
    show i32 (legQty (reconcileOptions rt.portfolio held).2.positions key) =
      i32 (traded (legOf · = some key) fills)
    rcases positions_reconcileOptions rt.portfolio held with ⟨-, hbook⟩ | ⟨-, hbook⟩
    · rw [hbook]
      exact h.legs key
    · rw [hbook]
      by_cases hkey : key ∈ (toInsert rt.portfolio held).map (·.key) ++
          fills.filterMap (legOf ·.instrumentId)
      · exact hshows key hkey
      · rw [List.mem_append, not_or] at hkey
        rw [legQty_of_not_mem hkey.1, traded_of_not_mem hkey.2]

/-- **A reconcile of the hedges** whose positions show what has been delivered. -/
theorem balanced_reconcileHedges {fills : List (Fill F)} {rt : Runtime F}
    {held : List (BrokerPosition F)} (h : Balanced legOf fills rt)
    (hshows : ShowsHedges fills rt.hedge held) (now : Nat) :
    Balanced legOf fills (rt.withHedge (reconcileHedges now rt.hedge held)
      (sameFanout_reconcileHedges ..)) where
  legs := h.legs
  hedges := by
    intro product m' contract hhedging
    obtain ⟨g, hsetup, hqty, hafter⟩ := forProduct_reconcileHedges now rt.hedge held product
    obtain ⟨m, hm, rfl⟩ := hedging_of_map hsetup hafter hhedging
    rw [hqty]
    cases hlast : (held.filter (isFutureOf product)).getLast? with
    | none => exact h.hedges product m contract hm
    | some pos => exact hshows product (mem_products_of_hedging hm) _ hm pos hlast

/-- A decision moves no hedge that is in execute mode. -/
theorem balanced_rebalance {fills : List (Fill F)} {rt : Runtime F}
    (h : Balanced legOf fills rt) (product : String) (forward : F) (now : Nat) :
    Balanced legOf fills (rt.withHedge
      (forProductMut product (·.rebalancePeriodic rt.portfolio forward now) rt.hedge).2
      (sameFanout_forProductMut (fun m => m.sameSetup_rebalancePeriodic _ _ _) _)) where
  legs := h.legs
  hedges := by
    intro other m' contract hhedging
    obtain ⟨m, hm, hstate⟩ := hedging_of_state_kept
      (fun m => m.sameSetup_rebalancePeriodic rt.portfolio forward now)
      (fun _ hmode => state_rebalancePeriodic hmode rt.portfolio forward now) hhedging
    rw [hstate, h.hedges other m contract hm]

variable (legOf)

/-- A delivery is booked where it belongs, and a reconcile reads positions that
count what has been delivered and no more. -/
def Current (s : State F) : Step F → Prop
  | .deliver _ => ∀ fill ∈ s.channel.head?, Booked legOf s.runtime fill
  | .reconcileOptions task => ShowsLegs legOf s.delivered s.runtime.portfolio (s.held task)
  | .reconcileHedges _ => ShowsHedges s.delivered s.runtime.hedge (s.held .periodicHedge)
  | _ => True

instance (s : State F) (a : Step F) : Decidable (Current legOf s a) := by
  unfold Current
  split
  · infer_instance
  · infer_instance
  · infer_instance
  · infer_instance

variable {legOf}

/-- What one step keeps. -/
theorem balanced_step (fmt : TextFormats F Date) {s : State F} {a : Step F}
    (hcurrent : Current legOf s a) (h : Balanced legOf s.delivered s.runtime) :
    Balanced legOf (step fmt s a).delivered (step fmt s a).runtime := by
  cases a with
  | position p => exact h
  | execution e =>
      simp only [step]
      split
      · exact h
      · exact h
  | deliver now =>
      simp only [step]
      split
      · exact h
      · rename_i fill rest hchannel
        exact balanced_deliver h (hcurrent fill (by rw [hchannel]; rfl)) now
  | lagged lost => exact h
  | positions task order => exact h
  | reconcileOptions task => exact balanced_reconcileOptions h hcurrent
  | reconcileHedges now => exact balanced_reconcileHedges h hcurrent now
  | rebalance product forward now => exact balanced_rebalance h product forward now

/-- **Agreement once all is delivered.** From accounts that hold what has been
delivered, a run whose deliveries are booked where they belong, and whose
reconciles read positions that count what has been delivered and no more, ends
with the accounts at the broker's true position whenever every trade has been
delivered. -/
theorem agrees_once_delivered (fmt : TextFormats F Date) (s : State F)
    (hstart : Balanced legOf s.delivered s.runtime) (schedule : List (Step F))
    (hcurrent : Meets (step fmt) (Current legOf) s schedule)
    (hall : (run (step fmt) s schedule).delivered = (run (step fmt) s schedule).executed) :
    Balanced legOf (run (step fmt) s schedule).executed (run (step fmt) s schedule).runtime := by
  rw [← hall]
  exact run_invariant_of_meets (fun s => Balanced legOf s.delivered s.runtime)
    (fun _ _ hcurrent h => balanced_step fmt hcurrent h) hstart schedule hcurrent

end Balance

/-! ## One future and one call, reported twice -/

/-- The June future of HG, as the wire names it. -/
def juneFuture : ContractDecoded ℚ where
  conId := 987654
  symbol := "HG"
  secType := "FUT"
  lastTradeDate := "20260626"
  strike := 0
  right := ""
  multiplier := "25000"
  exchange := "COMEX"
  primaryExchange := ""
  currency := "USD"
  localSymbol := "HGM6"
  tradingClass := "HG"

/-- One future is bought. -/
def futureBought : ExecutionMsg ℚ where
  reqId := 0
  contract := juneFuture
  execId := "f1"
  side := "BOT"
  shares := 1
  price := 6

/-- The positions after both trades. -/
def futureHeld : PositionMsg ℚ := ⟨"DU1", juneFuture, 1, 150000⟩

def callHeld : PositionMsg ℚ := ⟨"DU1", (callBought 0).contract, 1, 625⟩

/-- The leg that the call names. -/
def hgLegOf (instrumentId : Nat) : Option PositionKey :=
  if instrumentId = 712565973 then
    some (makeKey "HG" (121 / 20 : ℚ) { year := 2026, month := 6, day := 26 } .call)
  else none

/-- Before any trade. -/
def beforeTrades : State ℚ := ⟨hgRuntime, ∅, fun _ => [], [], [], []⟩

/-- The executions wait in the channel while a reconcile takes over the positions
that count them; then they are delivered. -/
theorem reconcile_then_delivery_counts_twice :
    let s := run (step plainFormats) beforeTrades
      [.execution futureBought, .execution (callBought 0), .position futureHeld,
        .position callHeld, .positions .periodicHedge [0, 1], .reconcileOptions .periodicHedge,
        .reconcileHedges 1, .deliver 2, .deliver 3]
    s.delivered = s.executed ∧ (positions s.cache []).map (·.quantity) = [1, 1] ∧
      s.runtime.hedge.map (·.state.hedgeQty) = [2] ∧
      s.runtime.portfolio.positions.map (·.quantity) = [2] ∧
      ¬ Balanced hgLegOf s.executed s.runtime := by
  intro s
  refine ⟨by decide +kernel, by decide +kernel, by decide +kernel, by decide +kernel,
    fun h => ?_⟩
  have hleg := h.legs (makeKey "HG" (121 / 20 : ℚ) { year := 2026, month := 6, day := 26 } .call)
  revert hleg
  decide +kernel

/-- The positions are read once the executions have been delivered. -/
theorem agrees_after_late_reconcile :
    let s := run (step plainFormats) beforeTrades
      [.execution futureBought, .execution (callBought 0), .position futureHeld,
        .position callHeld, .deliver 1, .deliver 2, .positions .periodicHedge [1, 0],
        .reconcileOptions .periodicHedge, .reconcileHedges 3, .rebalance "HG" 6 31000000000]
    Balanced hgLegOf s.executed s.runtime := by
  refine agrees_once_delivered plainFormats beforeTrades ⟨?_, fun key => rfl⟩ _ (by decide +kernel)
    (by decide +kernel)
  intro product m contract h
  have hm := List.mem_of_find?_eq_some (hedging_eq_some_iff.mp h).1
  rw [List.mem_singleton.mp hm]
  rfl

end Corsair.Ports.PositionAgreement
