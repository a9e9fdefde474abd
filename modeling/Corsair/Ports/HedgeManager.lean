import Mathlib.Data.List.Forall2
import Corsair.Ports.Hedge
import Corsair.Ports.PositionBook

/-!
# `corsair_hedge`: the decisions and the fills of a hedge manager

A manager compares the delta of its product's options with the futures that it
holds, and asks for the trade that brings the sum back to zero.  In execute mode
the futures move only on a confirmed fill, or when the broker's positions say
otherwise; in observe mode every trade is taken as filled at the forward.

The clock is read once a call.

## Main results

* `hedgeQty_applyFill` — a fill moves the quantity by its own.
* `maybeRebalance_cases` — what a decision can be.
* `forProduct_forProductMut` — a change to the manager of one product, seen from
  all products.
-/

namespace Corsair.Ports.HedgeManager

open Corsair.Verified
open Corsair.Ports.BrokerApi
open Corsair.Ports.Hedge (HedgeMode)
open Corsair.Ports.PositionBook

/-- `HedgeConfig`, as far as decisions and fills read it. -/
structure HedgeConfig (F : Type) extends Hedge.HedgeConfig F where
  toleranceDeltas : F
  rebalanceOnFill : Bool
  rebalanceCadenceSec : F

/-- `HedgeState`. -/
structure HedgeState (F : Type) extends Hedge.HedgeState F where
  lastUpdateNs : Nat

/-- `HedgeAction`. -/
inductive HedgeAction (F : Type)
  | idle
  | place (isBuy : Bool) (qty : Nat) (reason : String) (effectiveDeltaPre : F) (targetQty : Int)
  | logOnly (isBuy : Bool) (qty : Nat) (reason : String) (forward : F)
  deriving DecidableEq, Repr

end Corsair.Ports.HedgeManager

/-- `HedgeManager`. -/
structure Corsair.Ports.HedgeManager (F : Type) where
  cfg : HedgeManager.HedgeConfig F
  state : HedgeManager.HedgeState F
  hedgeContract : Option (BrokerApi.Contract F)
  lastPeriodicNs : Nat
  priorityDrainUntilNs : Nat
  processedExecIds : List String

namespace Corsair.Ports.HedgeManager

open Corsair.Verified
open Corsair.Ports.BrokerApi
open Corsair.Ports.Hedge (HedgeMode)
open Corsair.Ports.PositionBook

section Manager

variable {F : Type} [F64 F]

/-! ## The state of a hedge -/

/-- `HedgeState::new`. -/
def HedgeState.new : HedgeState F where
  hedgeQty := 0
  avgEntryF := F64.zero
  realizedPnlUsd := F64.zero
  lastUpdateNs := 0

/-- `HedgeState::apply_fill`. -/
def HedgeState.applyFill (s : HedgeState F) (isBuy : Bool) (qty : Nat) (price multiplier : F)
    (now : Nat) : HedgeState F :=
  let effect := signedQty isBuy qty
  let newQty := i32 (s.hedgeQty + effect)
  let sign : F := if 0 < s.hedgeQty then F64.lit 1 0 else -F64.lit 1 0
  let realizing (closed : Int) : F :=
    s.realizedPnlUsd + sign * (price - s.avgEntryF) * F64.ofInt closed.natAbs * multiplier
  if newQty = 0 then
    { hedgeQty := 0
      avgEntryF := F64.zero
      realizedPnlUsd := realizing s.hedgeQty
      lastUpdateNs := now }
  else if (0 ≤ s.hedgeQty ∧ 0 ≤ effect) ∨ (s.hedgeQty ≤ 0 ∧ effect ≤ 0) then
    let totalNotional := s.avgEntryF * F64.ofInt s.hedgeQty + price * F64.ofInt effect
    { s with
      hedgeQty := newQty
      avgEntryF := totalNotional / F64.ofInt newQty
      lastUpdateNs := now }
  else if effect.natAbs < s.hedgeQty.natAbs then
    { s with
      hedgeQty := newQty
      realizedPnlUsd := realizing effect
      lastUpdateNs := now }
  else
    { hedgeQty := newQty
      avgEntryF := price
      realizedPnlUsd := realizing s.hedgeQty
      lastUpdateNs := now }

/-- **A fill moves the hedge** by its signed quantity. -/
@[simp] theorem hedgeQty_applyFill (s : HedgeState F) (isBuy : Bool) (qty : Nat)
    (price multiplier : F) (now : Nat) :
    (s.applyFill isBuy qty price multiplier now).hedgeQty =
      i32 (s.hedgeQty + signedQty isBuy qty) := by
  unfold HedgeState.applyFill
  dsimp only
  split
  · rename_i hflat
    exact hflat.symm
  · split
    · rfl
    · split
      · rfl
      · rfl

/-! ## Set-up -/

/-- `HedgeManager::new`. -/
protected def new (cfg : HedgeConfig F) : HedgeManager F where
  cfg
  state := .new
  hedgeContract := none
  lastPeriodicNs := 0
  priorityDrainUntilNs := 0
  processedExecIds := []

/-- `set_hedge_contract`. -/
def setHedgeContract (m : HedgeManager F) (contract : Contract F) : HedgeManager F :=
  { m with hedgeContract := some contract }

/-! ## Decisions -/

/-- The hedge quantity that a decision aims at. -/
def targetQty (m : HedgeManager F) (effective : F) : Int :=
  F64.toInt (-2 ^ 31) (2 ^ 31 - 1) (-F64.round (effective - F64.ofInt m.state.hedgeQty))

/-- The delta of the options and of the hedge. -/
def effectiveDelta (m : HedgeManager F) (portfolio : PortfolioState F) : F :=
  portfolio.deltaForProduct m.cfg.product + F64.ofInt m.state.hedgeQty

/-- `rebalance`, which ignores its tolerance argument. -/
def rebalance (m : HedgeManager F) (portfolio : PortfolioState F) (reason : String) (forward : F)
    (now : Nat) : HedgeAction F × HedgeManager F :=
  let effective := m.effectiveDelta portfolio
  let targetQty := m.targetQty effective
  let desiredChange := i32 (targetQty - m.state.hedgeQty)
  if desiredChange = 0 then (.idle, m)
  else
    let isBuy := decide (0 < desiredChange)
    let qty := desiredChange.natAbs
    match m.cfg.mode with
    | .observe =>
        (.logOnly isBuy qty reason forward,
          { m with state := m.state.applyFill isBuy qty forward m.cfg.multiplier now })
    | .execute => (.place isBuy qty reason effective targetQty, m)

/-- `maybe_rebalance`. -/
def maybeRebalance (m : HedgeManager F) (portfolio : PortfolioState F) (reason : String)
    (forward : F) (now : Nat) : HedgeAction F × HedgeManager F :=
  if F64.le (F64.abs (m.effectiveDelta portfolio)) m.cfg.toleranceDeltas then (.idle, m)
  else m.rebalance portfolio reason forward now

/-- `rebalance_on_fill`. -/
def rebalanceOnFill (m : HedgeManager F) (portfolio : PortfolioState F) (now : Nat) :
    HedgeAction F × HedgeManager F :=
  if m.cfg.rebalanceOnFill then m.maybeRebalance portfolio "fill" (F64.lit 6 0) now
  else (.idle, m)

/-- `rebalance_periodic`. -/
def rebalancePeriodic (m : HedgeManager F) (portfolio : PortfolioState F) (forward : F)
    (now : Nat) : HedgeAction F × HedgeManager F :=
  if 0 < m.priorityDrainUntilNs ∧ now < m.priorityDrainUntilNs then
    { m with lastPeriodicNs := now }.maybeRebalance portfolio "priority_drain_periodic" forward now
  else if 0 < m.priorityDrainUntilNs then
    { m with priorityDrainUntilNs := 0, lastPeriodicNs := now }.maybeRebalance portfolio
      "priority_drain_clear" forward now
  else if F64.lt (F64.ofInt (now - m.lastPeriodicNs : Nat) / F64.lit 1000000000 0)
      m.cfg.rebalanceCadenceSec then
    (.idle, m)
  else { m with lastPeriodicNs := now }.maybeRebalance portfolio "periodic" forward now

/-- `force_flat`. -/
def forceFlat (m : HedgeManager F) (portfolio : PortfolioState F) (forward : F) (now : Nat) :
    HedgeAction F × HedgeManager F :=
  m.rebalance portfolio "delta_kill_force_flat" forward now

/-! ## Confirmations -/

/-- `PROCESSED_EXEC_IDS_MAX`. -/
def processedExecIdsMax : Nat := 10000

/-- The execution ids after one more: the oldest makes room. -/
def remember (processed : List String) (execId : String) : List String :=
  (if processedExecIdsMax ≤ processed.length then processed.drop 1 else processed) ++ [execId]

/-- `apply_broker_fill`. -/
def applyBrokerFill (m : HedgeManager F) (fill : Fill F) (now : Nat) : Bool × HedgeManager F :=
  match m.cfg.mode, m.hedgeContract with
  | .execute, some contract =>
      if fill.instrumentId ≠ contract.instrumentId then (false, m)
      else if fill.execId = "" ∨ fill.execId ∈ m.processedExecIds then (false, m)
      else
        (true, {
          m with
          processedExecIds := remember m.processedExecIds fill.execId
          state := m.state.applyFill fill.side.isBuy fill.qty fill.price m.cfg.multiplier now })
  | _, _ => (false, m)

/-- `reconcile_with_position`. -/
def reconcileWithPosition (m : HedgeManager F) (brokerQty : Int) (brokerAvgCost : F)
    (now : Nat) : Bool × HedgeManager F :=
  if brokerQty = m.state.hedgeQty then
    (false, { m with state := { m.state with lastUpdateNs := now } })
  else
    (true, { m with
      state := { m.state with
        hedgeQty := brokerQty
        avgEntryF := brokerAvgCost
        lastUpdateNs := now } })

/-- `touch_freshness`. -/
def touchFreshness (m : HedgeManager F) (now : Nat) : HedgeManager F :=
  { m with state := { m.state with lastUpdateNs := now } }

/-! ## What the calls change -/

/-- What fills, reconciles and decisions leave alone. -/
structure SameSetup (m m' : HedgeManager F) : Prop where
  cfg : m'.cfg = m.cfg
  hedgeContract : m'.hedgeContract = m.hedgeContract

omit [F64 F] in
theorem SameSetup.refl (m : HedgeManager F) : SameSetup m m := ⟨rfl, rfl⟩

/-- A decision asks for nothing, or for the trade to its target; only in observe
mode it moves the hedge. -/
theorem maybeRebalance_cases (m : HedgeManager F) (portfolio : PortfolioState F)
    (reason : String) (forward : F) (now : Nat) :
    let effective := m.effectiveDelta portfolio
    let desiredChange := i32 (m.targetQty effective - m.state.hedgeQty)
    let result := m.maybeRebalance portfolio reason forward now
    (F64.le (F64.abs effective) m.cfg.toleranceDeltas = true ∧ result = (.idle, m)) ∨
      (desiredChange = 0 ∧ result = (.idle, m)) ∨
      (m.cfg.mode = .execute ∧ desiredChange ≠ 0 ∧
        result = (.place (decide (0 < desiredChange)) desiredChange.natAbs reason effective
          (m.targetQty effective), m)) ∨
      (m.cfg.mode = .observe ∧ SameSetup m result.2) := by
  intro effective desiredChange result
  by_cases hwithin : F64.le (F64.abs effective) m.cfg.toleranceDeltas = true
  · exact .inl ⟨hwithin, if_pos hwithin⟩
  have hresult : result = m.rebalance portfolio reason forward now := if_neg hwithin
  by_cases hdesired : desiredChange = 0
  · exact .inr (.inl ⟨hdesired, hresult.trans (if_pos hdesired)⟩)
  have htrade := hresult.trans (if_neg hdesired)
  cases hmode : m.cfg.mode with
  | observe =>
      rw [hmode] at htrade
      exact .inr (.inr (.inr ⟨rfl, by rw [htrade]; exact ⟨rfl, rfl⟩⟩))
  | execute =>
      rw [hmode] at htrade
      exact .inr (.inr (.inl ⟨rfl, hdesired, htrade⟩))

theorem sameSetup_rebalance (m : HedgeManager F) (portfolio : PortfolioState F) (reason : String)
    (forward : F) (now : Nat) : SameSetup m (m.rebalance portfolio reason forward now).2 := by
  unfold rebalance
  dsimp only
  split
  · exact .refl m
  · split
    · exact ⟨rfl, rfl⟩
    · exact .refl m

theorem sameSetup_maybeRebalance (m : HedgeManager F) (portfolio : PortfolioState F)
    (reason : String) (forward : F) (now : Nat) :
    SameSetup m (m.maybeRebalance portfolio reason forward now).2 := by
  unfold maybeRebalance
  split
  · exact .refl m
  · exact m.sameSetup_rebalance portfolio reason forward now

/-- In execute mode a decision leaves the hedge as it is. -/
theorem state_maybeRebalance {m : HedgeManager F} (hmode : m.cfg.mode = .execute)
    (portfolio : PortfolioState F) (reason : String) (forward : F) (now : Nat) :
    (m.maybeRebalance portfolio reason forward now).2 = m := by
  rcases m.maybeRebalance_cases portfolio reason forward now with
    ⟨-, h⟩ | ⟨-, h⟩ | ⟨-, -, h⟩ | ⟨hobserve, -⟩
  · rw [h]
  · rw [h]
  · rw [h]
  · rw [hmode] at hobserve
    cases hobserve

theorem sameSetup_rebalanceOnFill (m : HedgeManager F) (portfolio : PortfolioState F)
    (now : Nat) : SameSetup m (m.rebalanceOnFill portfolio now).2 := by
  unfold rebalanceOnFill
  split
  · exact m.sameSetup_maybeRebalance portfolio _ _ now
  · exact .refl m

theorem sameSetup_rebalancePeriodic (m : HedgeManager F) (portfolio : PortfolioState F)
    (forward : F) (now : Nat) : SameSetup m (m.rebalancePeriodic portfolio forward now).2 := by
  unfold rebalancePeriodic
  split
  · have h := sameSetup_maybeRebalance { m with lastPeriodicNs := now } portfolio
      "priority_drain_periodic" forward now
    exact ⟨h.cfg, h.hedgeContract⟩
  · split
    · have h := sameSetup_maybeRebalance
        { m with priorityDrainUntilNs := 0, lastPeriodicNs := now } portfolio
        "priority_drain_clear" forward now
      exact ⟨h.cfg, h.hedgeContract⟩
    · split
      · exact .refl m
      · have h := sameSetup_maybeRebalance { m with lastPeriodicNs := now } portfolio "periodic"
          forward now
        exact ⟨h.cfg, h.hedgeContract⟩

theorem state_rebalanceOnFill {m : HedgeManager F} (hmode : m.cfg.mode = .execute)
    (portfolio : PortfolioState F) (now : Nat) :
    (m.rebalanceOnFill portfolio now).2.state = m.state := by
  unfold rebalanceOnFill
  split
  · rw [state_maybeRebalance hmode]
  · rfl

theorem state_rebalancePeriodic {m : HedgeManager F} (hmode : m.cfg.mode = .execute)
    (portfolio : PortfolioState F) (forward : F) (now : Nat) :
    (m.rebalancePeriodic portfolio forward now).2.state = m.state := by
  unfold rebalancePeriodic
  split
  · rw [state_maybeRebalance (by exact hmode)]
  · split
    · rw [state_maybeRebalance (by exact hmode)]
    · split
      · rfl
      · rw [state_maybeRebalance (by exact hmode)]

theorem sameSetup_applyBrokerFill (m : HedgeManager F) (fill : Fill F) (now : Nat) :
    SameSetup m (m.applyBrokerFill fill now).2 := by
  unfold applyBrokerFill
  split
  · split
    · exact .refl m
    · split
      · exact .refl m
      · exact ⟨rfl, rfl⟩
  · exact .refl m

/-- The manager takes the fill: it is on its contract, and new to it. -/
def Takes (m : HedgeManager F) (fill : Fill F) : Prop :=
  m.cfg.mode = .execute ∧ (∃ contract ∈ m.hedgeContract,
    contract.instrumentId = fill.instrumentId) ∧
      fill.execId ≠ "" ∧ fill.execId ∉ m.processedExecIds

/-- A fill is taken and moves the hedge, or it is not and changes nothing. -/
theorem applyBrokerFill_cases (m : HedgeManager F) (fill : Fill F) (now : Nat) :
    (m.Takes fill ∧ (m.applyBrokerFill fill now).1 = true ∧
        (m.applyBrokerFill fill now).2.state.hedgeQty =
          i32 (m.state.hedgeQty + signedQty fill.side.isBuy fill.qty) ∧
        (m.applyBrokerFill fill now).2.processedExecIds =
          remember m.processedExecIds fill.execId) ∨
      (¬ m.Takes fill ∧ m.applyBrokerFill fill now = (false, m)) := by
  unfold applyBrokerFill
  split
  · rename_i contract hmode hcontract
    split
    · rename_i hother
      refine .inr ⟨fun ⟨_, ⟨taken, htaken, hid⟩, _⟩ => hother ?_, rfl⟩
      obtain rfl := Option.some.inj (hcontract.symm.trans htaken)
      exact hid.symm
    · rename_i hsame
      split
      · rename_i hseen
        exact .inr ⟨fun ⟨_, _, hnamed, hnew⟩ => hseen.elim hnamed hnew, rfl⟩
      · rename_i hnew
        refine .inl ⟨⟨hmode, ⟨contract, hcontract, (not_not.mp hsame).symm⟩, fun h => hnew (.inl h),
          fun h => hnew (.inr h)⟩, rfl, ?_, rfl⟩
        exact hedgeQty_applyFill m.state _ _ _ _ _
  · rename_i hnone
    refine .inr ⟨fun ⟨hmode, ⟨contract, hcontract, _⟩, _⟩ => ?_, rfl⟩
    exact hnone contract hmode hcontract

omit [F64 F] in
theorem sameSetup_reconcileWithPosition (m : HedgeManager F) (qty : Int) (avg : F) (now : Nat) :
    SameSetup m (m.reconcileWithPosition qty avg now).2 := by
  unfold reconcileWithPosition
  split
  · exact ⟨rfl, rfl⟩
  · exact ⟨rfl, rfl⟩

omit [F64 F] in
/-- A reconcile takes the broker's quantity. -/
@[simp] theorem hedgeQty_reconcileWithPosition (m : HedgeManager F) (qty : Int) (avg : F)
    (now : Nat) : (m.reconcileWithPosition qty avg now).2.state.hedgeQty = qty := by
  unfold reconcileWithPosition
  split
  · rename_i hsame
    exact hsame.symm
  · rfl

/-! ## The fanout -/

/-- `for_product`. -/
def forProduct (managers : List (HedgeManager F)) (product : String) : Option (HedgeManager F) :=
  managers.find? (·.cfg.product = product)

/-- A call on `for_product_mut`: what it returns, and the fanout after it. -/
def forProductMut {β : Type} (product : String) (f : HedgeManager F → β × HedgeManager F) :
    List (HedgeManager F) → Option β × List (HedgeManager F)
  | [] => (none, [])
  | m :: rest =>
      if m.cfg.product = product then (some (f m).1, (f m).2 :: rest)
      else ((forProductMut product f rest).1, m :: (forProductMut product f rest).2)

omit [F64 F] in
theorem fst_forProductMut {β : Type} (product : String)
    (f : HedgeManager F → β × HedgeManager F) (managers : List (HedgeManager F)) :
    (forProductMut product f managers).1 = (forProduct managers product).map fun m => (f m).1 := by
  induction managers with
  | nil => rfl
  | cons m rest ih =>
      by_cases hproduct : m.cfg.product = product
      · simp [forProductMut, forProduct, hproduct]
      · simp only [forProductMut, if_neg hproduct, ih, forProduct]
        rw [List.find?_cons_of_neg (by simpa using hproduct)]

omit [F64 F] in
/-- **One manager is changed**, and the lookups see it under its own product. -/
theorem forProduct_forProductMut {β : Type} {product : String}
    {f : HedgeManager F → β × HedgeManager F} (hsetup : ∀ m, SameSetup m (f m).2)
    (managers : List (HedgeManager F)) (other : String) :
    forProduct (forProductMut product f managers).2 other =
      (forProduct managers other).map fun m => if other = product then (f m).2 else m := by
  induction managers with
  | nil => rfl
  | cons m rest ih =>
      by_cases hproduct : m.cfg.product = product
      · have hkept : (f m).2.cfg.product = product := by rw [(hsetup m).cfg, hproduct]
        simp only [forProductMut, if_pos hproduct]
        by_cases hother : product = other
        · subst hother
          simp [forProduct, hkept, hproduct]
        · simp only [forProduct]
          rw [List.find?_cons_of_neg (by simpa [hkept] using hother),
            List.find?_cons_of_neg (by simpa [hproduct] using hother)]
          simp [Ne.symm hother]
      · simp only [forProductMut, if_neg hproduct]
        by_cases hother : m.cfg.product = other
        · have hne : other ≠ product := fun heq => hproduct (hother.trans heq)
          simp [forProduct, hother, hne]
        · simp only [forProduct] at ih ⊢
          rw [List.find?_cons_of_neg (by simpa using hother),
            List.find?_cons_of_neg (by simpa using hother), ih]

omit [F64 F] in
/-- A call that changes nothing leaves the fanout as it is. -/
theorem forProductMut_unchanged {β : Type} {product : String}
    {f : HedgeManager F → β × HedgeManager F} {managers : List (HedgeManager F)}
    (h : ∀ m ∈ forProduct managers product, (f m).2 = m) :
    (forProductMut product f managers).2 = managers := by
  induction managers with
  | nil => rfl
  | cons m rest ih =>
      by_cases hproduct : m.cfg.product = product
      · simp only [forProductMut, if_pos hproduct]
        rw [h m (by simp [forProduct, hproduct])]
      · simp only [forProductMut, if_neg hproduct]
        rw [ih fun other hother => h other (by
          rwa [forProduct, List.find?_cons_of_neg (by simpa using hproduct)])]

/-- The managers of two fanouts are set up alike. -/
def SameFanout (managers managers' : List (HedgeManager F)) : Prop :=
  List.Forall₂ SameSetup managers managers'

omit [F64 F] in
theorem SameFanout.refl (managers : List (HedgeManager F)) : SameFanout managers managers :=
  List.forall₂_same.mpr fun m _ => SameSetup.refl m

omit [F64 F] in
theorem SameFanout.trans {first second third : List (HedgeManager F)}
    (h : SameFanout first second) (hnext : SameFanout second third) :
    SameFanout first third := by
  unfold SameFanout at h hnext ⊢
  induction h generalizing third with
  | nil => exact hnext
  | cons hsame _ ih =>
      cases hnext with
      | cons hnext hrest =>
          exact .cons ⟨hnext.cfg.trans hsame.cfg, hnext.hedgeContract.trans hsame.hedgeContract⟩
            (ih hrest)

omit [F64 F] in
theorem SameFanout.exists_of_mem {managers managers' : List (HedgeManager F)}
    (h : SameFanout managers managers') {m' : HedgeManager F} (hm' : m' ∈ managers') :
    ∃ m ∈ managers, SameSetup m m' := by
  induction h with
  | nil => cases hm'
  | cons hsame _ ih =>
      rcases List.mem_cons.mp hm' with rfl | hrest
      · exact ⟨_, List.mem_cons_self, hsame⟩
      · obtain ⟨m, hm, hsetup⟩ := ih hrest
        exact ⟨m, List.mem_cons_of_mem _ hm, hsetup⟩

omit [F64 F] in
theorem sameFanout_forProductMut {β : Type} {product : String}
    {f : HedgeManager F → β × HedgeManager F} (hsetup : ∀ m, SameSetup m (f m).2)
    (managers : List (HedgeManager F)) :
    SameFanout managers (forProductMut product f managers).2 := by
  induction managers with
  | nil => exact .nil
  | cons m rest ih =>
      unfold forProductMut
      split
      · exact .cons (hsetup m) (SameFanout.refl rest)
      · exact .cons (.refl m) ih

end Manager

end Corsair.Ports.HedgeManager
