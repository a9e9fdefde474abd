import Corsair.Verified.Runs
import Corsair.Ports.HedgeReconcile

/-!
# Hedge decisions and the fills of their orders

A manager decides on its confirmed quantity alone: an order that is on its way
does not count.  Here is one manager with the orders that it has placed, over a
portfolio that stands still.  The broker fills the orders in any order, at any
time and in parts, each part under an execution id of its own.

## Main results

* `PlaceInv.step` — the confirmed quantity and the orders on their way make up
  the target of the last decision.
* `no_overplacement` — if no decision trades while an order is on its way, the
  hedge ends within tolerance, or within half a contract.
-/

namespace Corsair.Ports.HedgePlacement

open Corsair.Verified
open Corsair.Verified.Runs
open Corsair.Verified.ListIndex
open Corsair.Ports.BrokerApi
open Corsair.Ports.PositionBook (Leg PortfolioState)
open Corsair.Ports.HedgeManager
open Corsair.Ports.HedgeReconcile (hgManager)

/-- A manager, its orders on their way as sides and quantities, the execution
ids that the broker has given out, and whether a decision was taken. -/
structure PlacementState (F : Type) where
  manager : HedgeManager F
  inFlight : List (Bool × Nat)
  execIds : List String
  decided : Bool

/-- A step: a decision, or a fill of an order. -/
inductive PlacementStep (F : Type)
  | onFill (now : Nat)
  | periodic (forward : F) (now : Nat)
  | filled (order qty : Nat) (price : F) (execId : String) (now : Nat)

section Steps

variable {F : Type} [F64 F]

/-- The call gets past its switch or its cadence. -/
def evaluates (m : HedgeManager F) : PlacementStep F → Bool
  | .onFill _ => m.cfg.rebalanceOnFill
  | .periodic _ now =>
      0 < m.priorityDrainUntilNs ||
        !F64.lt (F64.ofInt (now - m.lastPeriodicNs : Nat) / F64.lit 1000000000 0)
          m.cfg.rebalanceCadenceSec
  | .filled .. => false

/-- A call of the manager: an order that it asks for is placed. -/
def PlacementState.decide (s : PlacementState F) (evaluated : Bool)
    (result : HedgeAction F × HedgeManager F) : PlacementState F :=
  { s with
    manager := result.2
    inFlight :=
      match result.1 with
      | .place isBuy qty _ _ _ => s.inFlight ++ [(isBuy, qty)]
      | _ => s.inFlight
    decided := s.decided || evaluated }

omit [F64 F] in
@[simp] theorem decided_decide (s : PlacementState F) (evaluated : Bool)
    (result : HedgeAction F × HedgeManager F) :
    (s.decide evaluated result).decided = (s.decided || evaluated) := rfl

omit [F64 F] in
@[simp] theorem manager_decide (s : PlacementState F) (evaluated : Bool)
    (result : HedgeAction F × HedgeManager F) :
    (s.decide evaluated result).manager = result.2 := rfl

/-- A part of an order is filled, under a new execution id. -/
def PlacementState.fill (s : PlacementState F) (order qty : Nat) (price : F) (execId : String)
    (now : Nat) : PlacementState F :=
  match s.inFlight[order]?, s.manager.hedgeContract with
  | some (isBuy, left), some contract =>
      if 0 < qty ∧ qty ≤ left ∧ execId ≠ "" ∧ execId ∉ s.execIds then
        let fill : Fill F := {
          execId
          instrumentId := contract.instrumentId
          side := if isBuy then .buy else .sell
          qty
          price }
        { s with
          manager := (s.manager.applyBrokerFill fill now).2
          inFlight :=
            if qty = left then s.inFlight.eraseIdx order
            else s.inFlight.set order (isBuy, left - qty)
          execIds := s.execIds ++ [execId] }
      else s
  | _, _ => s

/-- The call that a step makes. -/
def decision (portfolio : PortfolioState F) (m : HedgeManager F) :
    PlacementStep F → HedgeAction F × HedgeManager F
  | .onFill now => m.rebalanceOnFill portfolio now
  | .periodic forward now => m.rebalancePeriodic portfolio forward now
  | .filled .. => (.idle, m)

/-- One step. -/
def step (portfolio : PortfolioState F) (s : PlacementState F) (a : PlacementStep F) :
    PlacementState F :=
  match a with
  | .filled order qty price execId now => s.fill order qty price execId now
  | _ => s.decide (evaluates s.manager a) (decision portfolio s.manager a)

/-- A manager without orders. -/
def start (m : HedgeManager F) : PlacementState F where
  manager := m
  inFlight := []
  execIds := m.processedExecIds
  decided := false

/-- The decision is for a trade: out of tolerance, and not at its target. -/
def WouldTrade (m : HedgeManager F) (portfolio : PortfolioState F) : Prop :=
  F64.le (F64.abs (m.effectiveDelta portfolio)) m.cfg.toleranceDeltas = false ∧
    i32 (m.targetQty (m.effectiveDelta portfolio) - m.state.hedgeQty) ≠ 0

/-- No decision is for a trade while an order is on its way. -/
def OneInFlight (portfolio : PortfolioState F) (s : PlacementState F) (a : PlacementStep F) :
    Prop :=
  evaluates s.manager a = true → WouldTrade s.manager portfolio → s.inFlight = []

instance (portfolio : PortfolioState F) (s : PlacementState F) (a : PlacementStep F) :
    Decidable (OneInFlight portfolio s a) := by
  unfold OneInFlight WouldTrade
  infer_instance

/-- What the orders on their way will move. -/
def onTheWay (inFlight : List (Bool × Nat)) : Int :=
  (inFlight.map fun order => signedQty order.1 order.2).sum

/-! ## What a decision does -/

/-- The parts of a manager that its decisions read and its orders move. -/
structure SameHedge (m m' : HedgeManager F) : Prop extends SameSetup m m' where
  state : m'.state = m.state
  processedExecIds : m'.processedExecIds = m.processedExecIds

omit [F64 F] in
theorem SameHedge.refl (m : HedgeManager F) : SameHedge m m := ⟨.refl m, rfl, rfl⟩

omit [F64 F] in
theorem SameHedge.noted (m : HedgeManager F) (now drainUntil : Nat) :
    SameHedge m { m with lastPeriodicNs := now, priorityDrainUntilNs := drainUntil } :=
  ⟨⟨rfl, rfl⟩, rfl, rfl⟩

/-- What a decision answers: nothing, or the trade to its target. -/
inductive Answer (m : HedgeManager F) (portfolio : PortfolioState F) (evaluated : Bool) :
    HedgeAction F → Prop
  | unread (h : evaluated = false) : Answer m portfolio evaluated .idle
  | idle (h : evaluated = true) (hnone : ¬ WouldTrade m portfolio) :
      Answer m portfolio evaluated .idle
  | place (h : evaluated = true) (htrade : WouldTrade m portfolio) (reason : String)
      (change : Int) (hchange : change = i32 (m.targetQty (m.effectiveDelta portfolio) -
        m.state.hedgeQty)) :
      Answer m portfolio evaluated (.place (decide (0 < change)) change.natAbs reason
        (m.effectiveDelta portfolio) (m.targetQty (m.effectiveDelta portfolio)))

/-- A decision past its gate, where it may have noted the time. -/
theorem answer_maybeRebalance {m m' : HedgeManager F} (hsame : SameHedge m m')
    (hmode : m.cfg.mode = .execute) (portfolio : PortfolioState F) (reason : String) (forward : F)
    (now : Nat) :
    SameHedge m (m'.maybeRebalance portfolio reason forward now).2 ∧
      Answer m portfolio true (m'.maybeRebalance portfolio reason forward now).1 := by
  have heffective : m'.effectiveDelta portfolio = m.effectiveDelta portfolio := by
    simp only [effectiveDelta, hsame.cfg, hsame.state]
  have htarget : m'.targetQty (m.effectiveDelta portfolio) =
      m.targetQty (m.effectiveDelta portfolio) := by
    simp only [targetQty, hsame.state]
  have hcases := m'.maybeRebalance_cases portfolio reason forward now
  simp only [heffective, htarget, hsame.cfg, hsame.state] at hcases
  rcases hcases with ⟨hwithin, h⟩ | ⟨hdone, h⟩ | ⟨-, hchange, h⟩ | ⟨hobserve, -⟩
  · rw [h]
    exact ⟨hsame, .idle rfl fun htrade => by simp [htrade.1] at hwithin⟩
  · rw [h]
    exact ⟨hsame, .idle rfl fun htrade => htrade.2 hdone⟩
  · by_cases hwithin : F64.le (F64.abs (m.effectiveDelta portfolio)) m.cfg.toleranceDeltas = true
    · have hidle : m'.maybeRebalance portfolio reason forward now = (.idle, m') := by
        unfold maybeRebalance
        rw [heffective, hsame.cfg, if_pos hwithin]
      rw [hidle]
      exact ⟨hsame, .idle rfl fun htrade => by simp [htrade.1] at hwithin⟩
    · rw [h]
      exact ⟨hsame, .place rfl ⟨by simpa using hwithin, hchange⟩ reason _ rfl⟩
  · rw [hmode] at hobserve
    cases hobserve

/-- **What a decision does**: in execute mode it asks for a trade, and changes
nothing that counts. -/
theorem decision_spec {m : HedgeManager F} (hmode : m.cfg.mode = .execute)
    (portfolio : PortfolioState F) (a : PlacementStep F) :
    SameHedge m (decision portfolio m a).2 ∧
      Answer m portfolio (evaluates m a) (decision portfolio m a).1 := by
  cases a with
  | onFill now =>
      simp only [decision, evaluates, rebalanceOnFill]
      by_cases hswitch : m.cfg.rebalanceOnFill = true
      · rw [if_pos hswitch, hswitch]
        exact answer_maybeRebalance (.refl m) hmode portfolio _ _ now
      · rw [if_neg hswitch]
        exact ⟨.refl m, .unread (by simpa using hswitch)⟩
  | periodic forward now =>
      simp only [decision, evaluates, rebalancePeriodic]
      by_cases hdrain : 0 < m.priorityDrainUntilNs
      · have hevaluates : (decide (0 < m.priorityDrainUntilNs) ||
            !F64.lt (F64.ofInt (now - m.lastPeriodicNs : Nat) / F64.lit 1000000000 0)
              m.cfg.rebalanceCadenceSec) = true := by simp [hdrain]
        rw [hevaluates]
        rw [if_pos hdrain]
        split
        · exact answer_maybeRebalance (.noted m now m.priorityDrainUntilNs) hmode portfolio _ _ now
        · exact answer_maybeRebalance (.noted m now 0) hmode portfolio _ _ now
      · rw [if_neg fun h => hdrain h.1, if_neg hdrain]
        by_cases hearly : F64.lt (F64.ofInt (now - m.lastPeriodicNs : Nat) /
            F64.lit 1000000000 0) m.cfg.rebalanceCadenceSec = true
        · rw [if_pos hearly]
          exact ⟨.refl m, .unread (by simp [hdrain, hearly])⟩
        · rw [if_neg hearly]
          have hevaluates : (decide (0 < m.priorityDrainUntilNs) ||
              !F64.lt (F64.ofInt (now - m.lastPeriodicNs : Nat) / F64.lit 1000000000 0)
                m.cfg.rebalanceCadenceSec) = true := by simp [hearly]
          rw [hevaluates]
          exact answer_maybeRebalance (.noted m now m.priorityDrainUntilNs) hmode portfolio _ _ now
  | filled order qty price execId now => exact ⟨.refl m, .unread rfl⟩

/-! ## What a fill does -/

omit [F64 F] in
theorem onTheWay_append (front back : List (Bool × Nat)) :
    onTheWay (front ++ back) = onTheWay front + onTheWay back := by
  simp [onTheWay]

omit [F64 F] in
theorem onTheWay_cons (isBuy : Bool) (left : Nat) (rest : List (Bool × Nat)) :
    onTheWay ((isBuy, left) :: rest) = signedQty isBuy left + onTheWay rest := by
  simp [onTheWay]

omit [F64 F] in
/-- A fill that fits the order takes its part off the way. -/
theorem onTheWay_fill {inFlight : List (Bool × Nat)} {order left : Nat} {isBuy : Bool}
    (horder : inFlight[order]? = some (isBuy, left)) {qty : Nat} (hqty : qty ≤ left) :
    (onTheWay (if qty = left then inFlight.eraseIdx order
      else inFlight.set order (isBuy, left - qty)) + signedQty isBuy qty) % 2 ^ 32 =
        onTheWay inFlight % 2 ^ 32 := by
  obtain ⟨front, back, rfl, rfl⟩ := exists_split horder
  have hleft := signedQty_emod isBuy left
  have hpart := signedQty_emod isBuy qty
  have hrest := signedQty_emod isBuy (left - qty)
  by_cases hall : qty = left
  · rw [if_pos hall, eraseIdx_length_append, onTheWay_append, onTheWay_append, onTheWay_cons, hall]
    omega
  · rw [if_neg hall, set_length_append, onTheWay_append, onTheWay_append, onTheWay_cons,
      onTheWay_cons]
    cases isBuy with
    | true =>
        simp only [if_true] at hleft hpart hrest
        omega
    | false =>
        simp only [Bool.false_eq_true, if_false] at hleft hpart hrest
        omega

/-- **What a fill does**: nothing, or it moves its part from the way into the
hedge. -/
theorem fill_spec {s : PlacementState F} (hmode : s.manager.cfg.mode = .execute)
    (hseen : ∀ id ∈ s.manager.processedExecIds, id ∈ s.execIds) (order qty : Nat) (price : F)
    (execId : String) (now : Nat) :
    let s' := s.fill order qty price execId now
    s' = s ∨
      (SameSetup s.manager s'.manager ∧ s.inFlight ≠ [] ∧ s'.decided = s.decided ∧
        (∀ id ∈ s'.manager.processedExecIds, id ∈ s'.execIds) ∧
        i32 s'.manager.state.hedgeQty = s'.manager.state.hedgeQty ∧
        i32 (s'.manager.state.hedgeQty + onTheWay s'.inFlight) =
          i32 (s.manager.state.hedgeQty + onTheWay s.inFlight)) := by
  unfold PlacementState.fill
  split
  · rename_i isBuy left contract horder hcontract
    split
    · rename_i hnew
      obtain ⟨-, hqty, hnamed, hfresh⟩ := hnew
      have hside : (if isBuy = true then Side.buy else Side.sell).isBuy = isBuy := by
        cases isBuy <;> rfl
      let fill : Fill F := ⟨execId, contract.instrumentId, if isBuy then .buy else .sell, qty, price⟩
      have htakes : s.manager.Takes fill :=
        ⟨hmode, ⟨contract, hcontract, rfl⟩, hnamed, fun hold => hfresh (hseen execId hold)⟩
      obtain ⟨-, -, hmoved, hids⟩ | ⟨hnot, -⟩ := s.manager.applyBrokerFill_cases fill now
      · refine .inr ⟨s.manager.sameSetup_applyBrokerFill fill now, ?_, rfl, ?_, ?_, ?_⟩
        · intro hnone
          rw [hnone] at horder
          cases horder
        · intro id hid
          rw [hids, remember] at hid
          rcases List.mem_append.mp hid with hold | hlast
          · refine List.mem_append_left _ (hseen id ?_)
            split at hold
            · exact List.mem_of_mem_drop hold
            · exact hold
          · exact List.mem_append_right _ hlast
        · rw [hmoved]
          exact i32_of_bounds (i32_bounds _).1 (i32_bounds _).2
        · rw [hmoved, i32_i32_add, i32_eq_iff]
          have hway := onTheWay_fill horder hqty
          simp only [fill, hside]
          omega
      · exact absurd htakes hnot
    · exact .inl rfl
  · exact .inl rfl

end Steps

/-! ## The target, in exact arithmetic -/

/-- The hedge that a decision aims at, as an integer. -/
def aim (portfolio : PortfolioState ℚ) (m : HedgeManager ℚ) : Int :=
  -ratRound (portfolio.deltaForProduct m.cfg.product)

/-- The hedge is within tolerance, or within half a contract. -/
def Within (portfolio : PortfolioState ℚ) (m : HedgeManager ℚ) (qty : Int) : Prop :=
  |portfolio.deltaForProduct m.cfg.product + qty| ≤ max m.cfg.toleranceDeltas (1 / 2)

theorem targetQty_eq_aim {portfolio : PortfolioState ℚ} {m : HedgeManager ℚ}
    (hlo : -2 ^ 31 ≤ aim portfolio m) (hhi : aim portfolio m < 2 ^ 31) :
    m.targetQty (m.effectiveDelta portfolio) = aim portfolio m := by
  have hdelta : m.effectiveDelta portfolio - F64.ofInt m.state.hedgeQty =
      portfolio.deltaForProduct m.cfg.product :=
    add_sub_cancel_right (portfolio.deltaForProduct m.cfg.product) (m.state.hedgeQty : ℚ)
  have hround : (-F64.round (portfolio.deltaForProduct m.cfg.product) : ℚ) =
      ((aim portfolio m : Int) : ℚ) := by
    rw [aim, Int.cast_neg]
    rfl
  unfold targetQty
  rw [hdelta, hround]
  show max (-2 ^ 31) (min (2 ^ 31 - 1) (ratTrunc (aim portfolio m : Int))) = aim portfolio m
  rw [ratTrunc_intCast]
  omega

theorem within_aim (portfolio : PortfolioState ℚ) (m : HedgeManager ℚ) :
    Within portfolio m (aim portfolio m) := by
  have hround := abs_sub_ratRound_le (portfolio.deltaForProduct m.cfg.product)
  unfold Within aim
  rw [Int.cast_neg, ← sub_eq_add_neg]
  exact hround.trans (le_max_right _ _)

/-- A decision that is for no trade finds the hedge where it may be. -/
theorem within_of_not_wouldTrade {portfolio : PortfolioState ℚ} {m : HedgeManager ℚ}
    (hlo : -2 ^ 31 ≤ aim portfolio m) (hhi : aim portfolio m < 2 ^ 31)
    (hqty : i32 m.state.hedgeQty = m.state.hedgeQty) (hnone : ¬ WouldTrade m portfolio) :
    Within portfolio m m.state.hedgeQty := by
  by_cases hwithin : F64.le (F64.abs (m.effectiveDelta portfolio)) m.cfg.toleranceDeltas = true
  · have hle : F64.abs (m.effectiveDelta portfolio) ≤ m.cfg.toleranceDeltas :=
      of_decide_eq_true hwithin
    have habs : F64.abs (m.effectiveDelta portfolio) = |m.effectiveDelta portfolio| := by
      show (if m.effectiveDelta portfolio < 0 then -m.effectiveDelta portfolio
        else m.effectiveDelta portfolio) = _
      split
      · rename_i hneg
        exact (abs_of_neg hneg).symm
      · rename_i hpos
        exact (abs_of_nonneg (not_lt.mp hpos)).symm
    rw [habs] at hle
    exact hle.trans (le_max_left _ _)
  · have hdone : i32 (m.targetQty (m.effectiveDelta portfolio) - m.state.hedgeQty) = 0 := by
      by_contra hchange
      exact hnone ⟨by simpa using hwithin, hchange⟩
    rw [targetQty_eq_aim hlo hhi] at hdone
    have hat : m.state.hedgeQty = aim portfolio m := by
      have hbounds := i32_bounds m.state.hedgeQty
      unfold i32 at hdone hqty hbounds
      omega
    rw [hat]
    exact within_aim portfolio m

/-- A trade takes the hedge to its target. -/
theorem i32_add_trade (qty target change : Int) (hchange : change = i32 (target - qty)) :
    i32 (qty + signedQty (decide (0 < change)) change.natAbs) = i32 target := by
  have htrade := signedQty_emod (decide (0 < change)) change.natAbs
  have hdiff := (i32_eq_iff (a := change) (b := target - qty)).mp (by
    rw [hchange]
    unfold i32
    omega)
  rw [i32_eq_iff]
  by_cases hbuy : 0 < change
  · simp only [hbuy, decide_true, if_true] at htrade ⊢
    omega
  · simp only [hbuy, decide_false, Bool.false_eq_true, if_false] at htrade ⊢
    omega

/-! ## Runs -/

/-- What holds between the steps, for the manager `m` at the start: after a
decision, the hedge and the orders on their way are together where they may be. -/
structure PlaceInv (portfolio : PortfolioState ℚ) (m : HedgeManager ℚ) (s : PlacementState ℚ) :
    Prop where
  setup : SameSetup m s.manager
  qty : i32 s.manager.state.hedgeQty = s.manager.state.hedgeQty
  seen : ∀ id ∈ s.manager.processedExecIds, id ∈ s.execIds
  undecided : s.decided = false → s.inFlight = []
  decided : s.decided = true →
    Within portfolio m (i32 (s.manager.state.hedgeQty + onTheWay s.inFlight))

theorem PlaceInv.fill {portfolio : PortfolioState ℚ} {m : HedgeManager ℚ} {s : PlacementState ℚ}
    (h : PlaceInv portfolio m s) (hmode : m.cfg.mode = .execute) (order qty : Nat) (price : ℚ)
    (execId : String) (now : Nat) :
    PlaceInv portfolio m (s.fill order qty price execId now) := by
  rcases fill_spec (by rw [h.setup.cfg, hmode]) h.seen order qty price execId now with
    hkept | ⟨hsetup, hopen, hdecided, hseen, hqty, htotal⟩
  · rw [hkept]
    exact h
  · refine ⟨⟨hsetup.cfg.trans h.setup.cfg, hsetup.hedgeContract.trans h.setup.hedgeContract⟩, hqty,
      hseen, fun hundecided => ?_, fun hd => ?_⟩
    · exact absurd (h.undecided (hdecided ▸ hundecided)) hopen
    · rw [htotal]
      exact h.decided (hdecided ▸ hd)

theorem PlaceInv.decide {portfolio : PortfolioState ℚ} {m : HedgeManager ℚ} {s : PlacementState ℚ}
    (h : PlaceInv portfolio m s) (hmode : m.cfg.mode = .execute)
    (hlo : -2 ^ 31 ≤ aim portfolio m) (hhi : aim portfolio m < 2 ^ 31) {a : PlacementStep ℚ}
    (hone : OneInFlight portfolio s a) :
    PlaceInv portfolio m (s.decide (evaluates s.manager a) (decision portfolio s.manager a)) := by
  obtain ⟨hsame, hanswer⟩ := decision_spec (by rw [h.setup.cfg, hmode]) portfolio a
  unfold OneInFlight at hone
  generalize decision portfolio s.manager a = result at hsame hanswer ⊢
  generalize evaluates s.manager a = evaluated at hanswer hone ⊢
  obtain ⟨action, manager⟩ := result
  have hstate : manager.state = s.manager.state := hsame.state
  have hsetup : SameSetup m manager :=
    ⟨hsame.cfg.trans h.setup.cfg, hsame.hedgeContract.trans h.setup.hedgeContract⟩
  have hqty : i32 manager.state.hedgeQty = manager.state.hedgeQty := by rw [hstate, h.qty]
  have hseen : ∀ id ∈ manager.processedExecIds, id ∈ s.execIds := by
    rw [hsame.processedExecIds]
    exact h.seen
  have haim : aim portfolio s.manager = aim portfolio m := by rw [aim, aim, h.setup.cfg]
  cases hanswer with
  | unread hunread =>
      subst hunread
      refine ⟨hsetup, hqty, hseen, fun hd => h.undecided (by simpa using hd), fun hd => ?_⟩
      rw [manager_decide, hstate]
      exact h.decided (by simpa using hd)
  | idle hevaluated hnone =>
      subst hevaluated
      refine ⟨hsetup, hqty, hseen, fun hd => by simp at hd, fun _ => ?_⟩
      rw [manager_decide, hstate]
      by_cases hopen : s.inFlight = []
      · have hwithin := within_of_not_wouldTrade (by rwa [haim]) (by rwa [haim]) h.qty hnone
        simpa [PlacementState.decide, hopen, onTheWay, h.qty, Within, h.setup.cfg] using hwithin
      · -- orders on their way come from a decision, for which this was shown
        cases hd : s.decided with
        | false => exact absurd (h.undecided hd) hopen
        | true => exact h.decided hd
  | place hevaluated htrade reason change hchange =>
      have hopen : s.inFlight = [] := hone hevaluated htrade
      subst hevaluated
      refine ⟨hsetup, hqty, hseen, fun hd => by simp at hd, fun _ => ?_⟩
      have htarget : s.manager.targetQty (s.manager.effectiveDelta portfolio) =
          aim portfolio s.manager := targetQty_eq_aim (by rwa [haim]) (by rwa [haim])
      rw [htarget, haim] at hchange
      have hmoved := i32_add_trade _ _ _ hchange
      simp only [PlacementState.decide, hopen, onTheWay, List.nil_append, List.map_cons,
        List.map_nil, List.sum_cons, List.sum_nil, add_zero, hstate]
      rw [hmoved, i32_of_bounds hlo hhi]
      exact within_aim portfolio m

theorem PlaceInv.step {portfolio : PortfolioState ℚ} {m : HedgeManager ℚ} {s : PlacementState ℚ}
    (h : PlaceInv portfolio m s) (hmode : m.cfg.mode = .execute)
    (hlo : -2 ^ 31 ≤ aim portfolio m) (hhi : aim portfolio m < 2 ^ 31) {a : PlacementStep ℚ}
    (hone : OneInFlight portfolio s a) :
    PlaceInv portfolio m (HedgePlacement.step portfolio s a) := by
  cases a with
  | onFill now => exact h.decide hmode hlo hhi hone
  | periodic forward now => exact h.decide hmode hlo hhi hone
  | filled order qty price execId now => exact h.fill hmode order qty price execId now

/-- **No over-placement.** In a run in which no decision is for a trade while an
order is on its way, once a decision was taken and every order has filled, the
hedge is within tolerance or within half a contract. -/
theorem no_overplacement (portfolio : PortfolioState ℚ) (m : HedgeManager ℚ)
    (hmode : m.cfg.mode = .execute) (hqty : i32 m.state.hedgeQty = m.state.hedgeQty)
    (hlo : -2 ^ 31 ≤ aim portfolio m) (hhi : aim portfolio m < 2 ^ 31)
    (schedule : List (PlacementStep ℚ))
    (hone : Meets (step portfolio) (OneInFlight portfolio) (start m) schedule) :
    let s := run (step portfolio) (start m) schedule
    s.decided = true → s.inFlight = [] →
      |portfolio.deltaForProduct m.cfg.product + s.manager.state.hedgeQty| ≤
        max m.cfg.toleranceDeltas (1 / 2) := by
  intro s hdecided hfilled
  have hstart : PlaceInv portfolio m (start m) :=
    ⟨.refl m, hqty, fun _ hid => hid, fun _ => rfl, fun hd => by cases hd⟩
  have hinv : PlaceInv portfolio m s :=
    run_invariant_of_meets (PlaceInv portfolio m)
      (fun _ _ hone h => h.step hmode hlo hhi hone) hstart schedule hone
  have hwithin := hinv.decided hdecided
  rw [hfilled] at hwithin
  simpa [onTheWay, hinv.qty, Within] using hwithin

/-- One call of HG with a delta of 2.7. -/
def callOfDelta : Leg ℚ where
  product := "HG"
  strike := 121 / 20
  expiry := { year := 2026, month := 6, day := 26 }
  right := .call
  quantity := 1
  avgFillPrice := 1 / 40
  multiplier := 25000
  currentPrice := 1 / 40
  delta := 27 / 10
  gamma := 0
  theta := 0
  vega := 0

/-- The book of HG with that leg. -/
def hgBook : PortfolioState ℚ :=
  (PortfolioState.new (AList.insert "HG" 25000 ∅)).replacePositions [callOfDelta]

/-- **Two decisions before the first fill** place the hedge twice. -/
theorem hedge_placed_twice :
    let s := run (step hgBook) (start (hgManager 0))
      [.onFill 1, .onFill 2, .filled 0 3 6 "e1" 3, .filled 0 3 6 "e2" 4]
    s.decided = true ∧ s.inFlight = [] ∧ s.manager.state.hedgeQty = -6 ∧
      ¬ |hgBook.deltaForProduct "HG" + s.manager.state.hedgeQty| ≤ max (1 / 2) (1 / 2) := by
  decide +kernel

/-- A decision that waits for the fill of the one before. -/
theorem no_overplacement_of_filled :
    let s := run (step hgBook) (start (hgManager 0))
      [.onFill 1, .filled 0 3 6 "e1" 3, .periodic 6 31000000000]
    |hgBook.deltaForProduct "HG" + s.manager.state.hedgeQty| ≤ max (1 / 2) (1 / 2) :=
  no_overplacement hgBook (hgManager 0) rfl (by decide) (by decide +kernel) (by decide +kernel)
    [.onFill 1, .filled 0 3 6 "e1" 3, .periodic 6 31000000000] (by decide +kernel)
    (by decide +kernel) (by decide +kernel)

end Corsair.Ports.HedgePlacement
