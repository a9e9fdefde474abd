import Corsair.Verified.Runs
import Corsair.Ports.PositionIndex
import Corsair.Ports.RiskState

/-!
# Freshness and the gateway's messages

The stamps of the account snapshot and of the hedges say when the code last looked at
them.  A poll stamps the snapshot with its own time, and a reconcile stamps every hedge
with its own, whether the gateway has sent anything or not.

A run is any order of gateway messages, account polls, steps of the books and
publications.  The log keeps every message with the time at which it came.

## Main results

* `hedges_step` — the hedges that a step touches.
* `freshness_earned_iff_confirmed` — the runs in which what is published as fresh comes from a
  message that is as fresh.
-/

namespace Corsair.Ports.Freshness

open Corsair.Verified
open Corsair.Verified.Runs
open Corsair.Ports.Portfolio (Date)
open Corsair.Ports.BrokerApi
open Corsair.Ports.NativeDecoder (TextFormats)
open Corsair.Ports.NativeBroker (parseKind)
open Corsair.Ports.RestingSweep (plainFormats)
open Corsair.Ports.PositionBook
open Corsair.Ports.HedgeManager
open Corsair.Ports.HedgeReconcile
open Corsair.Ports.Fills
open Corsair.Ports.PositionAgreement (PositionMsg positions futureHeld)
open Corsair.Ports.OptionsReconcile (reconcileOptions)
open Corsair.Ports.PositionIndex (hedgeSeeds seedPositionsFromBroker)
open Corsair.Ports.TraderState (SharedState)
open Corsair.Ports.DecideOnTick (computeRiskGates)
open Corsair.Ports.Trader (Clock onRiskState)
open Corsair.Ports.RiskState

variable {F : Type}

/-! ## The hedges that a step touches -/

/-- What a manager hedges with, and when it was last touched. -/
structure Hedged (F : Type) where
  product : String
  contract : Option (Contract F)
  touchedNs : Nat

def hedged (m : HedgeManager F) : Hedged F where
  product := m.cfg.product
  contract := m.hedgeContract
  touchedNs := m.state.lastUpdateNs

/-- The first hedge of a product is touched. -/
def touchFirst (product : String) (now : Nat) : List (Hedged F) → List (Hedged F)
  | [] => []
  | h :: rest =>
      if h.product = product then { h with touchedNs := now } :: rest
      else h :: touchFirst product now rest

/-- The action is a trade that is taken as filled. -/
def simulated : HedgeAction F → Bool
  | .logOnly .. => true
  | _ => false

theorem hedged_of_sameSetup {m m' : HedgeManager F} (h : SameSetup m m') :
    hedged m' = { hedged m with touchedNs := m'.state.lastUpdateNs } := by
  simp [hedged, h.cfg, h.hedgeContract]

/-- A call on the manager of a product touches its hedge, or none. -/
theorem hedged_forProductMut {β : Type} {product : String} {now : Nat}
    {f : HedgeManager F → β × HedgeManager F} (hsetup : ∀ m, SameSetup m (f m).2)
    (stamps : HedgeManager F → Bool)
    (hstamps : ∀ m, (f m).2.state.lastUpdateNs =
      if stamps m then now else m.state.lastUpdateNs) (managers : List (HedgeManager F)) :
    (forProductMut product f managers).2.map hedged =
      if (forProduct managers product).any stamps then
        touchFirst product now (managers.map hedged)
      else managers.map hedged := by
  induction managers with
  | nil => simp [forProductMut, forProduct]
  | cons m rest ih =>
      by_cases hproduct : m.cfg.product = product
      · have hfound : forProduct (m :: rest) product = some m := by
          simp [forProduct, hproduct]
        have hown : (hedged m).product = product := hproduct
        have hchanged := hedged_of_sameSetup (hsetup m)
        rw [hstamps m] at hchanged
        simp only [forProductMut, if_pos hproduct, List.map_cons, hchanged, hfound, Option.any_some,
          touchFirst, if_pos hown]
        by_cases hstamp : stamps m = true
        · simp only [hstamp, if_true]
        · simp only [hstamp]
          rfl
      · have hfound : forProduct (m :: rest) product = forProduct rest product := by
          unfold forProduct
          exact List.find?_cons_of_neg (by simpa using hproduct)
        have hother : (hedged m).product ≠ product := hproduct
        simp only [forProductMut, if_neg hproduct, List.map_cons, hfound, touchFirst, if_neg hother,
          ih]
        split
        · rfl
        · rfl

theorem touchFirst_of_forall_ne {product : String} {now : Nat} {hedges : List (Hedged F)}
    (h : ∀ e ∈ hedges, e.product ≠ product) : touchFirst product now hedges = hedges := by
  induction hedges with
  | nil => rfl
  | cons e rest ih =>
      rw [touchFirst, if_neg (h e List.mem_cons_self),
        ih fun e' he' => h e' (List.mem_cons_of_mem e he')]

section Books

variable [F64 F]

@[simp] theorem lastUpdateNs_applyFill (s : HedgeState F) (isBuy : Bool) (qty : Nat)
    (price multiplier : F) (now : Nat) :
    (s.applyFill isBuy qty price multiplier now).lastUpdateNs = now := by
  unfold HedgeState.applyFill
  dsimp only
  repeat' split
  all_goals rfl

/-- A fill touches the hedge that takes it. -/
theorem lastUpdateNs_applyBrokerFill (m : HedgeManager F) (fill : Fill F) (now : Nat) :
    (m.applyBrokerFill fill now).2.state.lastUpdateNs =
      if (m.applyBrokerFill fill now).1 then now else m.state.lastUpdateNs := by
  unfold applyBrokerFill
  repeat' split
  all_goals simp_all

/-- A decision touches the hedge if it takes its trade as filled. -/
theorem lastUpdateNs_maybeRebalance (m : HedgeManager F) (portfolio : PortfolioState F)
    (reason : String) (forward : F) (now : Nat) :
    (m.maybeRebalance portfolio reason forward now).2.state.lastUpdateNs =
      if simulated (m.maybeRebalance portfolio reason forward now).1 then now
      else m.state.lastUpdateNs := by
  unfold maybeRebalance rebalance
  dsimp only
  split
  · rfl
  · split
    · rfl
    · split
      · simp [simulated]
      · simp [simulated]

theorem lastUpdateNs_rebalanceOnFill (m : HedgeManager F) (portfolio : PortfolioState F)
    (now : Nat) :
    (m.rebalanceOnFill portfolio now).2.state.lastUpdateNs =
      if simulated (m.rebalanceOnFill portfolio now).1 then now else m.state.lastUpdateNs := by
  unfold rebalanceOnFill
  split
  · exact lastUpdateNs_maybeRebalance ..
  · rfl

theorem lastUpdateNs_rebalancePeriodic (m : HedgeManager F) (portfolio : PortfolioState F)
    (forward : F) (now : Nat) :
    (m.rebalancePeriodic portfolio forward now).2.state.lastUpdateNs =
      if simulated (m.rebalancePeriodic portfolio forward now).1 then now
      else m.state.lastUpdateNs := by
  unfold rebalancePeriodic
  split
  · exact lastUpdateNs_maybeRebalance ..
  · split
    · exact lastUpdateNs_maybeRebalance ..
    · split
      · rfl
      · exact lastUpdateNs_maybeRebalance ..

omit [F64 F] in
/-- A reconcile touches the hedge, whether it changes it or not. -/
theorem lastUpdateNs_reconcileWithPosition (m : HedgeManager F) (qty : Int) (avg : F)
    (now : Nat) : (m.reconcileWithPosition qty avg now).2.state.lastUpdateNs = now := by
  unfold reconcileWithPosition
  split
  · rfl
  · rfl

/-- The hedge of a fill: the one that takes it, or the one that simulates a trade after
it. -/
def touchFill (rt : Runtime F) (fill : Fill F) (now : Nat) (hedges : List (Hedged F)) :
    List (Hedged F) :=
  match taker fill now (rt.hedge.map (·.cfg.product)) rt.hedge with
  | some product => touchFirst product now hedges
  | none =>
      match (handleFill rt fill now).2 with
      | some (product, action) => if simulated action then touchFirst product now hedges else hedges
      | none => hedges

/-- The hedges that a step of the books touches: all of them in a reconcile, the one of a
fill, and the one that simulates a trade. -/
def touch (s : PositionAgreement.State F) (hedges : List (Hedged F)) :
    PositionAgreement.Step F → List (Hedged F)
  | .reconcileHedges now => hedges.map fun h => { h with touchedNs := now }
  | .deliver now =>
      match s.channel with
      | [] => hedges
      | fill :: _ => touchFill s.runtime fill now hedges
  | .rebalance product forward now =>
      if (forProduct s.runtime.hedge product).any fun m =>
          simulated (m.rebalancePeriodic s.runtime.portfolio forward now).1 then
        touchFirst product now hedges
      else hedges
  | _ => hedges

theorem hedged_applyBrokerFill {fill : Fill F} {now : Nat} {products : List String}
    {managers : List (HedgeManager F)} {product : String}
    (h : taker fill now products managers = some product) :
    (forProductMut product (·.applyBrokerFill fill now) managers).2.map hedged =
      touchFirst product now (managers.map hedged) := by
  rw [hedged_forProductMut (fun m => m.sameSetup_applyBrokerFill fill now) _
    fun m => lastUpdateNs_applyBrokerFill m fill now]
  unfold taker at h
  rw [if_pos (by simpa using List.find?_some h)]

theorem hedged_rebalanceOnFill (product : String) (portfolio : PortfolioState F) (now : Nat)
    (managers : List (HedgeManager F)) :
    (forProductMut product (·.rebalanceOnFill portfolio now) managers).2.map hedged =
      if (forProduct managers product).any
          fun m => simulated (m.rebalanceOnFill portfolio now).1 then
        touchFirst product now (managers.map hedged)
      else managers.map hedged :=
  hedged_forProductMut (fun m => m.sameSetup_rebalanceOnFill portfolio now) _
    (fun m => lastUpdateNs_rebalanceOnFill m portfolio now) managers

theorem hedged_handleFill (rt : Runtime F) (fill : Fill F) (now : Nat) :
    (handleFill rt fill now).1.hedge.map hedged =
      touchFill rt fill now (rt.hedge.map hedged) := by
  have htried := tryHedges_eq fill now (rt.hedge.map (·.cfg.product)) rt.hedge
  unfold touchFill
  cases htaker : taker fill now (rt.hedge.map (·.cfg.product)) rt.hedge with
  | some product =>
      rw [htaker] at htried
      simp only [handleFill, htried, if_true]
      exact hedged_applyBrokerFill htaker
  | none =>
      rw [htaker] at htried
      simp only [handleFill, htried]
      cases matched rt.portfolio.products rt.options fill.instrumentId with
      | none => rfl
      | some option =>
          let after := addOptionFill rt.portfolio fill option
          have hfst : (forProductMut option.1 (·.rebalanceOnFill after now) rt.hedge).1 = _ :=
            fst_forProductMut option.1 (·.rebalanceOnFill after now) rt.hedge
          refine (hedged_rebalanceOnFill option.1 after now rt.hedge).trans ?_
          simp only [Bool.false_eq_true, if_false, Runtime.withPortfolio]
          rw [hfst]
          cases forProduct rt.hedge option.1 with
          | none => rfl
          | some m => rfl

/-- A future of a product touches the first hedge of the product. -/
theorem hedged_reconcileOne {now : Nat} (managers : List (HedgeManager F))
    {pos : BrokerPosition F} (hkind : pos.contract.kind = .future) :
    (reconcileOne now managers pos).map hedged =
      touchFirst pos.contract.symbol now (managers.map hedged) := by
  unfold reconcileOne
  rw [if_neg (not_not.mpr hkind), hedged_forProductMut
    (fun m => m.sameSetup_reconcileWithPosition pos.quantity (avgPrice pos) now) (fun _ => true)
    fun m => lastUpdateNs_reconcileWithPosition m pos.quantity (avgPrice pos) now]
  cases hfound : forProduct managers pos.contract.symbol with
  | some m => rfl
  | none =>
      refine (touchFirst_of_forall_ne fun e he => ?_).symm
      obtain ⟨m, hm, rfl⟩ := List.mem_map.mp he
      simpa [hedged] using List.find?_eq_none.mp hfound m hm

theorem hedged_reconcileHedges (now : Nat) (managers : List (HedgeManager F))
    (positions : List (BrokerPosition F)) :
    (reconcileHedges now managers positions).map hedged =
      (managers.map hedged).map fun h => { h with touchedNs := now } := by
  have hstays (product : String) (hedges : List (Hedged F)) :
      touchFirst product now (hedges.map fun h => { h with touchedNs := now }) =
        hedges.map fun h => { h with touchedNs := now } := by
    induction hedges with
    | nil => rfl
    | cons e rest ih =>
        rw [List.map_cons, touchFirst, ih]
        split
        · rfl
        · rfl
  unfold reconcileHedges
  induction positions using List.reverseRecOn with
  | nil => simp [hedged, touchFreshness]
  | append_singleton front pos ih =>
      rw [List.foldl_append, List.foldl_cons, List.foldl_nil]
      by_cases hkind : pos.contract.kind = .future
      · rw [hedged_reconcileOne _ hkind, ih, hstays]
      · rw [reconcileOne, if_pos hkind, ih]

/-- **One step of the books** touches the hedges that it is said to touch. -/
theorem hedges_step (fmt : TextFormats F Date) (s : PositionAgreement.State F)
    (st : PositionAgreement.Step F) :
    (PositionAgreement.step fmt s st).runtime.hedge.map hedged =
      touch s (s.runtime.hedge.map hedged) st := by
  cases st with
  | position p => rfl
  | execution e =>
      simp only [PositionAgreement.step, touch]
      split
      · rfl
      · rfl
  | deliver now =>
      cases hchannel : s.channel with
      | nil => simp only [PositionAgreement.step, touch, hchannel]
      | cons fill rest =>
          simp only [PositionAgreement.step, touch, hchannel]
          exact hedged_handleFill s.runtime fill now
  | lagged lost => rfl
  | positions task order => rfl
  | reconcileOptions task => rfl
  | reconcileHedges now => exact hedged_reconcileHedges now s.runtime.hedge _
  | rebalance product forward now =>
      exact hedged_forProductMut
        (fun m => m.sameSetup_rebalancePeriodic s.runtime.portfolio forward now) _
        (fun m => lastUpdateNs_rebalancePeriodic m s.runtime.portfolio forward now) s.runtime.hedge

/-- The hedges that the boot seed touches. -/
def touchSeeds (now : Nat) (hedges : List (Hedged F)) (seeds : List (BrokerPosition F)) :
    List (Hedged F) :=
  seeds.foldl (fun hedges pos => touchFirst pos.contract.symbol now hedges) hedges

theorem hedged_foldl_reconcileOne (now : Nat) (managers : List (HedgeManager F))
    {seeds : List (BrokerPosition F)} (hseeds : ∀ pos ∈ seeds, pos.contract.kind = .future) :
    (seeds.foldl (reconcileOne now) managers).map hedged =
      touchSeeds now (managers.map hedged) seeds := by
  induction seeds generalizing managers with
  | nil => rfl
  | cons pos rest ih =>
      rw [List.foldl_cons, ih _ fun p hp => hseeds p (List.mem_cons_of_mem pos hp),
        hedged_reconcileOne managers (hseeds pos List.mem_cons_self)]
      rfl

end Books

/-! ## Runs -/

/-- A message of the gateway. -/
inductive Received (F : Type)
  | accountValue (a : AccountValueMsg)
  | position (p : PositionMsg F)
  | execution (e : ExecutionMsg F)

/-- The text formats, the account of the adapter's configuration and the capital. -/
structure FreshEnv (F : Type) where
  fmt : TextFormats F Date
  account : String
  capital : F

/-- The account cache, the snapshot of the runtime and the books; the messages with the
times at which they came, the last poll, and the hedges with their last touch. -/
structure FreshState (F : Type) [F64 F] where
  values : AccountValues
  account : AccountSnapshot F
  books : PositionAgreement.State F
  log : List (Nat × Received F)
  polledNs : Nat
  hedges : List (Hedged F)

/-- An account value comes; a step of the books is taken, where a message comes at `now`;
the boot seeds the books from the position cache; the account is polled; the risk state is
published. -/
inductive Turn (F : Type)
  | accountValue (now : Nat) (a : AccountValueMsg)
  | books (now : Nat) (st : PositionAgreement.Step F)
  | seed (now : Nat) (order : List Nat)
  | accountPoll (now : Nat) (order : List Nat)
  | publish (clock : RiskClock)

/-- The message that a step of the books routes. -/
def received : PositionAgreement.Step F → Option (Received F)
  | .position p => some (.position p)
  | .execution e => some (.execution e)
  | _ => none

/-- The message is a maintenance margin of the account. -/
def Received.IsMargin (account : String) : Received F → Prop
  | .accountValue a => IsMaintMargin account a
  | _ => False

section Run

variable [F64 F]

/-- The message confirms a hedge: it is the position of a future of its product, which a
reconcile takes over, or an execution in its contract. -/
def Confirms (product : String) (contract : Option (Contract F)) : Received F → Prop
  | .accountValue _ => False
  | .position p => p.contract.symbol = product ∧ parseKind p.contract.secType = some .future
  | .execution e =>
      ∃ fill ∈ executionToFill e, ∃ c ∈ contract, c.instrumentId = fill.instrumentId

/-- `seed_positions_from_broker`. -/
def seedRuntime (rt : Runtime F) (positions : List (BrokerPosition F)) (now : Nat) : Runtime F :=
  (rt.withPortfolio (seedPositionsFromBroker rt.portfolio rt.hedge positions now).1 rfl).withHedge
    (seedPositionsFromBroker rt.portfolio rt.hedge positions now).2
    (sameFanout_foldl_reconcileOne now rt.hedge _)

/-- One turn. -/
def step (env : FreshEnv F) (s : FreshState F) : Turn F → FreshState F
  | .accountValue now a =>
      { s with
        values := routeAccountValue s.values a
        log := s.log ++ [(now, .accountValue a)] }
  | .books now st =>
      { s with
        books := PositionAgreement.step env.fmt s.books st
        log := s.log ++ ((received st).map (now, ·)).toList
        hedges := touch s.books s.hedges st }
  | .seed now order =>
      let cached := positions s.books.cache order
      { s with
        books := { s.books with runtime := seedRuntime s.books.runtime cached now }
        hedges := touchSeeds now s.hedges (hedgeSeeds s.books.runtime.portfolio.products cached) }
  | .accountPoll now order =>
      { s with
        account := accountValues env.fmt env.account s.values order now
        polledNs := now }
  | .publish _ => s

/-- A runtime before anything has come. -/
def start (rt : Runtime F) : FreshState F where
  values := ∅
  account := emptySnapshot
  books := ⟨rt, ∅, fun _ => [], [], [], []⟩
  log := []
  polledNs := 0
  hedges := rt.hedge.map hedged

/-- The event that is published. -/
def FreshState.event (env : FreshEnv F) (s : FreshState F) (clock : RiskClock) :
    RiskStateEvent F :=
  periodicRiskState env.capital s.account s.books.runtime.portfolio s.books.runtime.hedge clock

/-- Such a message has come, and is no older than that. -/
def FreshState.Heard (s : FreshState F) (now maxAge : Nat) (P : Received F → Prop) : Prop :=
  ∃ e ∈ s.log, P e.2 ∧ now - e.1 ≤ maxAge

/-- What is published as fresh comes from the gateway: a margin below the whole capital,
and every hedge.  Where no margin ever came, a trader whose ceiling is at most the whole
capital is blocked. -/
structure EarnedAt (env : FreshEnv F) (s : FreshState F) (clock : RiskClock) : Prop where
  margin : F64.lt (s.event env clock).marginPct (F64.lit 1 0) = true →
    s.Heard clock.marginNow marginCacheMaxAgeNs (·.IsMargin env.account)
  hedge : ∀ m ∈ s.books.runtime.hedge,
    isFresh m.state clock.hedgeNow hedgeStateMaxAgeNs = true →
      s.Heard clock.hedgeNow hedgeStateMaxAgeNs (Confirms m.cfg.product m.hedgeContract)
  blocked : (∀ e ∈ s.log, ¬ e.2.IsMargin env.account) →
    ∀ (trader : SharedState F) (traderClock : Clock F) (mono : Nat),
      F64.ge (F64.lit 1 0) trader.scalars.marginCeilingPct = true →
        (computeRiskGates (onRiskState trader traderClock (s.event env clock).msg).scalars
          mono).1.blockAll = true

def Earned (env : FreshEnv F) (s : FreshState F) : Turn F → Prop
  | .publish clock => EarnedAt env s clock
  | _ => True

/-- Where the account was polled within the age that counts, and showed a margin below the
capital, its margin has come within that age; and where a hedge was touched within the
age that counts, a message that confirms it has come within that age. -/
structure ConfirmedAt (env : FreshEnv F) (s : FreshState F) (clock : RiskClock) : Prop where
  margin : 0 < s.polledNs → clock.marginNow - s.polledNs ≤ marginCacheMaxAgeNs →
    F64.lt (marginRatio env.capital s.account.maintenanceMargin) (F64.lit 1 0) = true →
      s.Heard clock.marginNow marginCacheMaxAgeNs (·.IsMargin env.account)
  hedge : ∀ h ∈ s.hedges, 0 < h.touchedNs → clock.hedgeNow - h.touchedNs ≤ hedgeStateMaxAgeNs →
    s.Heard clock.hedgeNow hedgeStateMaxAgeNs (Confirms h.product h.contract)

def Confirmed (env : FreshEnv F) (s : FreshState F) : Turn F → Prop
  | .publish clock => ConfirmedAt env s clock
  | _ => True

/-- The stamps are those of the last poll and the last touches, and what is cached has
come. -/
structure Stamped (env : FreshEnv F) (s : FreshState F) : Prop where
  polled : s.account.timestampNs = s.polledNs
  hedges : s.hedges = s.books.runtime.hedge.map hedged
  cached : ∀ key a, s.values.lookup key = some a → ∃ now, (now, .accountValue a) ∈ s.log
  margin : s.account.maintenanceMargin = F64.zero ∨ ∃ e ∈ s.log, e.2.IsMargin env.account

theorem start_stamped (env : FreshEnv F) (rt : Runtime F) : Stamped env (start rt) where
  polled := rfl
  hedges := rfl
  cached _ _ h := nomatch h
  margin := .inl rfl

/-- **One turn** keeps the stamps. -/
theorem Stamped.step {env : FreshEnv F} {s : FreshState F} (h : Stamped env s) (t : Turn F) :
    Stamped env (step env s t) := by
  have hgrows {log : List (Nat × Received F)} (hmargin : s.account.maintenanceMargin = F64.zero ∨
      ∃ e ∈ s.log, e.2.IsMargin env.account) : s.account.maintenanceMargin = F64.zero ∨
        ∃ e ∈ s.log ++ log, e.2.IsMargin env.account :=
    hmargin.imp_right fun ⟨e, he, hmargin⟩ => ⟨e, List.mem_append_left log he, hmargin⟩
  cases t with
  | accountValue now a =>
      refine ⟨h.polled, h.hedges, fun key a' hlookup => ?_, hgrows h.margin⟩
      rcases Table.lookup_insert_eq_some hlookup with ⟨-, rfl⟩ | hbefore
      · exact ⟨now, List.mem_append_right _ List.mem_cons_self⟩
      · obtain ⟨came, hmem⟩ := h.cached key a' hbefore
        exact ⟨came, List.mem_append_left _ hmem⟩
  | books now st =>
      refine ⟨h.polled, ?_, fun key a hlookup => ?_, hgrows h.margin⟩
      · show touch s.books s.hedges st = _
        rw [h.hedges]
        exact (hedges_step env.fmt s.books st).symm
      · obtain ⟨came, hmem⟩ := h.cached key a hlookup
        exact ⟨came, List.mem_append_left _ hmem⟩
  | seed now order =>
      refine ⟨h.polled, ?_, h.cached, h.margin⟩
      show touchSeeds now s.hedges _ = _
      rw [h.hedges]
      refine (hedged_foldl_reconcileOne now s.books.runtime.hedge fun pos hpos => ?_).symm
      exact (of_decide_eq_true (List.mem_filter.mp hpos).2).2.1
  | accountPoll now order =>
      refine ⟨timestampNs_accountValues .., h.hedges, h.cached, ?_⟩
      rcases maintenanceMargin_accountValues env.fmt env.account s.values order now with
        hzero | ⟨key, a, hlookup, hmargin⟩
      · exact .inl hzero
      · obtain ⟨came, hmem⟩ := h.cached key a hlookup
        exact .inr ⟨_, hmem, hmargin⟩
  | publish clock => exact h

/-! ## One publication -/

omit [F64 F] in
theorem isFresh_iff (s : HedgeState F) (now maxAge : Nat) :
    isFresh s now maxAge = true ↔ 0 < s.lastUpdateNs ∧ now - s.lastUpdateNs ≤ maxAge := by
  unfold isFresh
  split
  · simp [*]
  · rename_i hstamped
    simp [Nat.pos_of_ne_zero hstamped]

/-- What is published of the margin: it is below the capital just if the poll is recent
and has shown one that is. -/
theorem Stamped.marginPct_lt_one_iff [LawfulUnit F] {env : FreshEnv F} {s : FreshState F}
    (h : Stamped env s) (clock : RiskClock) :
    F64.lt (s.event env clock).marginPct (F64.lit 1 0) = true ↔
      (0 < s.polledNs ∧ clock.marginNow - s.polledNs ≤ marginCacheMaxAgeNs) ∧
        F64.lt (marginRatio env.capital s.account.maintenanceMargin) (F64.lit 1 0) = true := by
  have hfresh : marginCacheFresh s.account clock.marginNow = true ↔
      0 < s.polledNs ∧ clock.marginNow - s.polledNs ≤ marginCacheMaxAgeNs := by
    rw [← h.polled]
    exact decide_eq_true_iff
  rw [← hfresh, FreshState.event]
  rcases marginPct_periodicRiskState env.capital s.account s.books.runtime.portfolio
      s.books.runtime.hedge clock with ⟨hyes, hpct⟩ | ⟨hno, hpct⟩
  · rw [hpct]
    exact (and_iff_right hyes).symm
  · rw [hpct, hno, LawfulUnit.one_not_lt]
    simp

/-- Where no margin ever came, nothing but the whole capital may be published, and that
blocks the trader. -/
theorem Stamped.blocked [LawfulUnit F] {env : FreshEnv F} {s : FreshState F}
    (h : Stamped env s) (hnone : ∀ e ∈ s.log, ¬ e.2.IsMargin env.account) {clock : RiskClock}
    (hnot : F64.lt (s.event env clock).marginPct (F64.lit 1 0) ≠ true)
    (trader : SharedState F) (traderClock : Clock F) (mono : Nat)
    (hceiling : F64.ge (F64.lit 1 0) trader.scalars.marginCeilingPct = true) :
    (computeRiskGates (onRiskState trader traderClock (s.event env clock).msg).scalars
      mono).1.blockAll = true := by
  have hzero : s.account.maintenanceMargin = F64.zero :=
    h.margin.resolve_right fun ⟨e, he, hmargin⟩ => hnone e he hmargin
  refine blockAll_of_margin trader traderClock _ mono ?_
  show F64.ge (s.event env clock).marginPct _ = true
  rw [FreshState.event] at hnot ⊢
  rcases marginPct_periodicRiskState env.capital s.account s.books.runtime.portfolio
      s.books.runtime.hedge clock with ⟨-, hpct⟩ | ⟨-, hpct⟩
  · rw [hpct, hzero] at hnot
    exact absurd (marginRatio_zero_lt_one env.capital) hnot
  · rw [hpct]
    exact hceiling

/-- What is published is earned just if it is confirmed. -/
theorem earnedAt_iff [LawfulUnit F] {env : FreshEnv F} {s : FreshState F} (h : Stamped env s)
    (clock : RiskClock) : EarnedAt env s clock ↔ ConfirmedAt env s clock := by
  have hpublished := h.marginPct_lt_one_iff clock
  constructor
  · intro hearned
    constructor
    · intro hpolled hage hratio
      exact hearned.margin (hpublished.mpr ⟨⟨hpolled, hage⟩, hratio⟩)
    · intro e he htouched hage
      rw [h.hedges] at he
      obtain ⟨m, hm, rfl⟩ := List.mem_map.mp he
      exact hearned.hedge m hm ((isFresh_iff m.state _ _).mpr ⟨htouched, hage⟩)
  · intro hconfirmed
    have hmargin : F64.lt (s.event env clock).marginPct (F64.lit 1 0) = true →
        s.Heard clock.marginNow marginCacheMaxAgeNs (·.IsMargin env.account) := by
      intro hbelow
      obtain ⟨⟨hpolled, hage⟩, hratio⟩ := hpublished.mp hbelow
      exact hconfirmed.margin hpolled hage hratio
    refine ⟨hmargin, fun m hm hyes => ?_, fun hnone trader traderClock mono hceiling => ?_⟩
    · have hmem : hedged m ∈ s.hedges := by
        rw [h.hedges]
        exact List.mem_map_of_mem hm
      obtain ⟨htouched, hage⟩ := (isFresh_iff m.state _ _).mp hyes
      exact hconfirmed.hedge (hedged m) hmem htouched hage
    · refine h.blocked hnone (fun hbelow => ?_) trader traderClock mono hceiling
      obtain ⟨e, he, hcame, -⟩ := hmargin hbelow
      exact hnone e he hcame

/-- **Freshness is earned** in a run exactly if what is polled and touched is confirmed at
every publication. -/
theorem freshness_earned_iff_confirmed [LawfulUnit F] (env : FreshEnv F) (rt : Runtime F)
    (schedule : List (Turn F)) :
    Meets (step env) (Earned env) (start rt) schedule ↔
      Meets (step env) (Confirmed env) (start rt) schedule := by
  refine meets_iff_meets (Stamped env) (fun s t h => ?_) (fun s t h _ => h.step t)
    (start_stamped env rt) schedule
  cases t with
  | publish clock => exact earnedAt_iff h clock
  | accountValue now a => exact Iff.rfl
  | books now st => exact Iff.rfl
  | seed now order => exact Iff.rfl
  | accountPoll now order => exact Iff.rfl

end Run

/-! ## A gateway that talks, and one that does not -/

def hgEnv : FreshEnv ℚ := ⟨plainFormats, "DU1", 200000⟩

/-- A margin requirement of 50 000. -/
def marginReq : AccountValueMsg := ⟨"MaintMarginReq", "50000", "USD", "DU1"⟩

/-- The account and the positions are read, and the risk state is published. -/
def readAndPublish : List (Turn ℚ) :=
  [.accountPoll 2 [0], .books 2 (.positions .periodicHedge [0]), .books 2 (.reconcileHedges 2),
    .publish ⟨3, 3, 3⟩]

/-- After a margin and a position, what is published is earned. -/
theorem freshness_earned_after_messages :
    Meets (step hgEnv) (Earned hgEnv) (start hgRuntime)
      (.accountValue 1 marginReq :: .books 1 (.position futureHeld) :: readAndPublish) := by
  refine (freshness_earned_iff_confirmed hgEnv hgRuntime _).mpr
    ⟨trivial, trivial, trivial, trivial, trivial, ⟨fun _ _ _ => ?_, fun h hh _ _ => ?_⟩, trivial⟩
  · exact ⟨(1, .accountValue marginReq), List.mem_cons_self, ⟨rfl, rfl⟩, by decide⟩
  · obtain rfl := List.mem_singleton.mp hh
    exact ⟨(1, .position futureHeld), List.mem_cons_of_mem _ List.mem_cons_self,
      ⟨rfl, by decide +kernel⟩, by decide⟩

/-- **Nothing has ever come**: the hedge counts as fresh, the margin is published as zero,
and a trader that knows no more goes on. -/
theorem silence_published_as_fresh :
    let s := run (step hgEnv) (start hgRuntime) readAndPublish
    let ev := s.event hgEnv ⟨3, 3, 3⟩
    s.log.length = 0 ∧ ev.marginPct = 0 ∧
      s.books.runtime.hedge.map (isFresh ·.state 3 hedgeStateMaxAgeNs) = [true] ∧
      (computeRiskGates (onRiskState (SharedState.new 0) ⟨5, 3, fun _ => none⟩ ev.msg).scalars
        6).1.blockAll = false ∧
      ¬ Meets (step hgEnv) (Earned hgEnv) (start hgRuntime) readAndPublish := by
  intro s ev
  have hlog : s.log.length = 0 := by decide +kernel
  refine ⟨hlog, by decide +kernel, by decide +kernel, by decide +kernel, fun hearned => ?_⟩
  have hpublished : EarnedAt hgEnv s ⟨3, 3, 3⟩ := hearned.2.2.2.1
  obtain ⟨e, he, -⟩ := hpublished.margin (by decide +kernel)
  rw [List.length_eq_zero_iff.mp hlog] at he
  cases he

end Corsair.Ports.Freshness
