import Corsair.Ports.HedgePlacement

/-!
# The options half of the periodic reconcile

`reconcile_options_with_broker_positions` compares the quantities of the book
with the broker's, leg by leg.  Where one of them differs it replaces the whole
book by the broker's legs, which carry no greeks and no price until the next
refresh.  The hedge decision of the same round reads the delta of that book.

## Main results

* `keepsMarks_iff` — when the legs that agree keep their greeks and prices.
* `options_reconcile_frame` — when, in exact arithmetic, the delta of the book
  also moves by the corrected legs alone.
-/

namespace Corsair.Ports.OptionsReconcile

open Corsair.Verified
open Corsair.Verified.Table
open Corsair.Ports.Portfolio (Right Date)
open Corsair.Ports.BrokerApi
open Corsair.Ports.PositionBook
open Corsair.Ports.HedgeReconcile (hgFuture hgManager)
open Corsair.Ports.HedgePlacement (callOfDelta hgBook)

/-- A number with leading zeros. -/
def padded (width n : Nat) : String :=
  String.ofList (List.replicate (width - (toString n).length) '0') ++ toString n

/-- `{}` of a date. -/
def dateText (d : Date) : String :=
  (if 0 ≤ d.year ∧ d.year ≤ 9999 then padded 4 d.year.toNat
    else if 0 ≤ d.year then "+" ++ padded 4 d.year.toNat
    else "-" ++ padded 4 d.year.natAbs) ++
      "-" ++ padded 2 d.month ++ "-" ++ padded 2 d.day

/-- `{:?}` of a right. -/
def rightText : Right → String
  | .call => "Call"
  | .put => "Put"

variable {F : Type} [F64 F]

/-- The text by which the reconcile knows a leg. -/
def legText (leg : Leg F) : String :=
  leg.product ++ "|" ++ F64.fixed 4 leg.strike ++ "|" ++ dateText leg.expiry ++ "|" ++
    rightText leg.right

/-- The leg of a broker position: of an option of a registered product, with its
right, its strike and a positive multiplier. -/
def brokerLeg (products : List String) (pos : BrokerPosition F) : Option (Leg F) := do
  guard (pos.contract.symbol ∈ products)
  guard (pos.contract.kind = .option)
  let right ← pos.contract.right
  let strike ← pos.contract.strike
  guard (F64.gt pos.contract.multiplier F64.zero = true)
  return {
    product := pos.contract.symbol
    strike
    expiry := pos.contract.expiry
    right
    quantity := pos.quantity
    avgFillPrice := pos.avgCost / pos.contract.multiplier
    multiplier := pos.contract.multiplier
    currentPrice := F64.zero
    delta := F64.zero
    gamma := F64.zero
    theta := F64.zero
    vega := F64.zero }

/-- `to_insert`. -/
def toInsert (book : PortfolioState F) (positions : List (BrokerPosition F)) : List (Leg F) :=
  positions.filterMap (brokerLeg book.products)

/-- The quantities of a list of legs, by text. -/
def quantities (legs : List (Leg F)) : AList (fun _ : String => Int) :=
  tabulate legText (·.quantity) legs

/-- The number of corrected legs. -/
def countChanges (before after : AList (fun _ : String => Int)) : Nat :=
  (after.entries.filter fun e => (before.lookup e.1).getD 0 ≠ e.2).length +
    (before.entries.filter fun e => (after.lookup e.1).isNone).length

/-- `reconcile_options_with_broker_positions`. -/
def reconcileOptions (book : PortfolioState F) (positions : List (BrokerPosition F)) :
    Nat × PortfolioState F :=
  let legs := toInsert book positions
  let before := quantities book.positions
  let after := quantities legs
  if sameTable before after then (0, book)
  else (countChanges before after, book.replacePositions legs)

/-! ## What it keeps -/

/-- The quantity under which a list of legs has a text: that of its last leg. -/
def lastQty (legs : List (Leg F)) (text : String) : Option Int :=
  ((legs.filter (legText · = text)).getLast?).map (·.quantity)

/-- No leg diverges. -/
def NoDrift (legs legs' : List (Leg F)) : Prop := ∀ text, lastQty legs text = lastQty legs' text

/-- The same contract and quantity. -/
structure SameLeg (a b : Leg F) : Prop where
  product : b.product = a.product
  strike : b.strike = a.strike
  expiry : b.expiry = a.expiry
  right : b.right = a.right
  quantity : b.quantity = a.quantity

instance [DecidableEq F] (a b : Leg F) : Decidable (SameLeg a b) :=
  decidable_of_iff (b.product = a.product ∧ b.strike = a.strike ∧ b.expiry = a.expiry ∧
      b.right = a.right ∧ b.quantity = a.quantity)
    ⟨fun ⟨product, strike, expiry, right, quantity⟩ => ⟨product, strike, expiry, right, quantity⟩,
      fun h => ⟨h.product, h.strike, h.expiry, h.right, h.quantity⟩⟩

/-- The same greeks and price. -/
structure SameMarks (a b : Leg F) : Prop where
  delta : b.delta = a.delta
  gamma : b.gamma = a.gamma
  theta : b.theta = a.theta
  vega : b.vega = a.vega
  currentPrice : b.currentPrice = a.currentPrice

instance [DecidableEq F] (a b : Leg F) : Decidable (SameMarks a b) :=
  decidable_of_iff (b.delta = a.delta ∧ b.gamma = a.gamma ∧ b.theta = a.theta ∧
      b.vega = a.vega ∧ b.currentPrice = a.currentPrice)
    ⟨fun ⟨delta, gamma, theta, vega, price⟩ => ⟨delta, gamma, theta, vega, price⟩,
      fun h => ⟨h.delta, h.gamma, h.theta, h.vega, h.currentPrice⟩⟩

/-- A leg that was never marked. -/
structure Unmarked (leg : Leg F) : Prop where
  delta : leg.delta = F64.zero
  gamma : leg.gamma = F64.zero
  theta : leg.theta = F64.zero
  vega : leg.vega = F64.zero
  currentPrice : leg.currentPrice = F64.zero

/-- The leg is in the list, in the same quantity. -/
def Agrees (legs : List (Leg F)) (leg : Leg F) : Prop := ∃ other ∈ legs, SameLeg leg other

/-- Every leg that agrees with the broker keeps its greeks and its price. -/
def KeepsMarks (book : PortfolioState F) (positions : List (BrokerPosition F)) : Prop :=
  ∀ leg ∈ book.positions, Agrees (toInsert book positions) leg →
    ∃ kept ∈ (reconcileOptions book positions).2.positions,
      SameLeg leg kept ∧ SameMarks leg kept

instance [DecidableEq F] (book : PortfolioState F) (positions : List (BrokerPosition F)) :
    Decidable (KeepsMarks book positions) := by
  unfold KeepsMarks Agrees
  infer_instance

/-- Nothing diverges, or no leg that agrees was ever marked. -/
def NothingToLose (book : PortfolioState F) (positions : List (BrokerPosition F)) : Prop :=
  NoDrift book.positions (toInsert book positions) ∨
    ∀ leg ∈ book.positions, Agrees (toInsert book positions) leg → Unmarked leg

theorem sameTable_quantities_iff (legs legs' : List (Leg F)) :
    sameTable (quantities legs) (quantities legs') = true ↔ NoDrift legs legs' := by
  rw [sameTable_iff]
  simp only [quantities, lookup_tabulate]
  rfl

theorem unmarked_brokerLeg {products : List String} {pos : BrokerPosition F} {leg : Leg F}
    (h : brokerLeg products pos = some leg) : Unmarked leg := by
  simp only [brokerLeg, Option.bind_eq_bind, Option.bind_eq_some_iff] at h
  obtain ⟨-, -, -, -, right, -, strike, -, -, -, hleg⟩ := h
  obtain rfl := Option.some.inj hleg
  exact ⟨rfl, rfl, rfl, rfl, rfl⟩

theorem unmarked_of_mem_toInsert {book : PortfolioState F} {positions : List (BrokerPosition F)}
    {leg : Leg F} (h : leg ∈ toInsert book positions) : Unmarked leg := by
  obtain ⟨pos, -, hpos⟩ := List.mem_filterMap.mp h
  exact unmarked_brokerLeg hpos

/-- A reconcile that finds no difference. -/
theorem reconcileOptions_of_noDrift {book : PortfolioState F}
    {positions : List (BrokerPosition F)} (h : NoDrift book.positions (toInsert book positions)) :
    reconcileOptions book positions = (0, book) :=
  if_pos ((sameTable_quantities_iff _ _).mpr h)

/-- A reconcile that finds one. -/
theorem reconcileOptions_of_drift {book : PortfolioState F} {positions : List (BrokerPosition F)}
    (h : ¬ NoDrift book.positions (toInsert book positions)) :
    reconcileOptions book positions =
      (countChanges (quantities book.positions) (quantities (toInsert book positions)),
        book.replacePositions (toInsert book positions)) :=
  if_neg fun hsame => h ((sameTable_quantities_iff _ _).mp hsame)

/-- The book after a reconcile. -/
theorem positions_reconcileOptions (book : PortfolioState F)
    (positions : List (BrokerPosition F)) :
    (NoDrift book.positions (toInsert book positions) ∧
        (reconcileOptions book positions).2 = book) ∨
      (¬ NoDrift book.positions (toInsert book positions) ∧
        (reconcileOptions book positions).2.positions = toInsert book positions) := by
  by_cases hdrift : NoDrift book.positions (toInsert book positions)
  · exact .inl ⟨hdrift, by rw [reconcileOptions_of_noDrift hdrift]⟩
  · refine .inr ⟨hdrift, ?_⟩
    rw [reconcileOptions_of_drift hdrift]
    rfl

/-- A reconcile leaves the registry alone. -/
theorem products_reconcileOptions (book : PortfolioState F)
    (positions : List (BrokerPosition F)) :
    (reconcileOptions book positions).2.products = book.products := by
  unfold reconcileOptions
  dsimp only
  split
  · rfl
  · rfl

/-- **When the legs that agree keep their marks**: where nothing diverges, so that
the book is left alone, or where they had none. -/
theorem keepsMarks_iff (book : PortfolioState F) (positions : List (BrokerPosition F)) :
    KeepsMarks book positions ↔ NothingToLose book positions := by
  rcases positions_reconcileOptions book positions with ⟨hnone, hbook⟩ | ⟨hdrift, hbook⟩
  · refine iff_of_true (fun leg hleg _ => ?_) (.inl hnone)
    rw [hbook]
    exact ⟨leg, hleg, ⟨rfl, rfl, rfl, rfl, rfl⟩, ⟨rfl, rfl, rfl, rfl, rfl⟩⟩
  · constructor
    · intro hkeeps
      refine .inr fun leg hleg hagrees => ?_
      obtain ⟨kept, hkept, -, hmarks⟩ := hkeeps leg hleg hagrees
      rw [hbook] at hkept
      have hunmarked := unmarked_of_mem_toInsert hkept
      exact ⟨hmarks.delta.symm.trans hunmarked.delta, hmarks.gamma.symm.trans hunmarked.gamma,
        hmarks.theta.symm.trans hunmarked.theta, hmarks.vega.symm.trans hunmarked.vega,
        hmarks.currentPrice.symm.trans hunmarked.currentPrice⟩
    · intro hnothing leg hleg hagrees
      obtain ⟨other, hother, hsame⟩ := hagrees
      have hmarked : Unmarked leg := by
        rcases hnothing with hnone | hunmarked
        · exact absurd hnone hdrift
        · exact hunmarked leg hleg ⟨other, hother, hsame⟩
      have hunmarked := unmarked_of_mem_toInsert hother
      rw [hbook]
      exact ⟨other, hother, hsame, hunmarked.delta.trans hmarked.delta.symm,
        hunmarked.gamma.trans hmarked.gamma.symm, hunmarked.theta.trans hmarked.theta.symm,
        hunmarked.vega.trans hmarked.vega.symm,
        hunmarked.currentPrice.trans hmarked.currentPrice.symm⟩

/-! ## The delta of the book, in exact arithmetic -/

/-- The delta that legs carry for a product. -/
def legsDelta (legs : List (Leg ℚ)) (product : String) : ℚ :=
  ((legs.filter (·.product = product)).map fun leg => leg.delta * (leg.quantity : ℚ)).sum

/-- The delta of the book moves by legs alone that do not agree with the broker. -/
def MovesCorrectedOnly (book : PortfolioState ℚ) (positions : List (BrokerPosition ℚ)) : Prop :=
  ∃ corrected, corrected.Sublist book.positions ∧
    (∀ leg ∈ corrected, ¬ Agrees (toInsert book positions) leg) ∧
      ∀ product, (reconcileOptions book positions).2.deltaForProduct product =
        book.deltaForProduct product - legsDelta corrected product

/-- Legs without a delta do not count. -/
theorem legsDelta_filter {legs : List (Leg ℚ)} {keep : Leg ℚ → Bool}
    (h : ∀ leg ∈ legs, keep leg = false → leg.delta = 0) (product : String) :
    legsDelta (legs.filter keep) product = legsDelta legs product := by
  induction legs with
  | nil => rfl
  | cons leg rest ih =>
      have hrest := ih fun other hother => h other (List.mem_cons_of_mem leg hother)
      unfold legsDelta at hrest ⊢
      by_cases hkeep : keep leg = true
      · rw [List.filter_cons_of_pos hkeep]
        by_cases hproduct : leg.product = product
        · rw [List.filter_cons_of_pos (by simpa using hproduct),
            List.filter_cons_of_pos (by simpa using hproduct), List.map_cons, List.map_cons,
            List.sum_cons, List.sum_cons, hrest]
        · rw [List.filter_cons_of_neg (by simpa using hproduct),
            List.filter_cons_of_neg (by simpa using hproduct), hrest]
      · have hzero := h leg List.mem_cons_self (by simpa using hkeep)
        rw [List.filter_cons_of_neg hkeep, hrest]
        by_cases hproduct : leg.product = product
        · rw [List.filter_cons_of_pos (by simpa using hproduct), List.map_cons, List.sum_cons, hzero,
            zero_mul, zero_add]
        · rw [List.filter_cons_of_neg (by simpa using hproduct)]

theorem movesCorrectedOnly_of_nothingToLose {book : PortfolioState ℚ}
    {positions : List (BrokerPosition ℚ)} (h : NothingToLose book positions) :
    MovesCorrectedOnly book positions := by
  classical
  rcases positions_reconcileOptions book positions with ⟨-, hbook⟩ | ⟨hdrift, hbook⟩
  · refine ⟨[], List.nil_sublist _, by simp, fun product => ?_⟩
    rw [hbook]
    exact (sub_zero _).symm
  · have hunmarked := h.resolve_left hdrift
    let differs (leg : Leg ℚ) : Bool := ¬ Agrees (toInsert book positions) leg
    refine ⟨book.positions.filter differs, List.filter_sublist, fun leg hleg => ?_,
      fun product => ?_⟩
    · exact of_decide_eq_true (List.mem_filter.mp hleg).2
    · have hafter : (reconcileOptions book positions).2.deltaForProduct product = 0 := by
        refine deltaForProduct_of_zero (fun leg hleg => ?_) product
        rw [hbook] at hleg
        exact (unmarked_of_mem_toInsert hleg).delta.trans rat_zero
      have hkept : legsDelta (book.positions.filter differs) product =
          legsDelta book.positions product := by
        refine legsDelta_filter (fun leg hleg hagrees => ?_) product
        have hagrees : Agrees (toInsert book positions) leg := by simpa [differs] using hagrees
        exact (hunmarked leg hleg hagrees).delta.trans rat_zero
      rw [hafter, hkept, deltaForProduct_eq_sum]
      exact (sub_self _).symm

/-- **When the reconcile touches the diverging legs alone**: exactly where nothing
diverges, or no leg that agrees with the broker was ever marked.  In exact
arithmetic this is also when the delta moves by the corrected legs alone. -/
theorem options_reconcile_frame {F : Type} [F64 F] (book : PortfolioState F)
    (positions : List (BrokerPosition F)) (exactBook : PortfolioState ℚ)
    (exactPositions : List (BrokerPosition ℚ)) :
    (KeepsMarks book positions ↔ NothingToLose book positions) ∧
      ((KeepsMarks exactBook exactPositions ∧ MovesCorrectedOnly exactBook exactPositions) ↔
        NothingToLose exactBook exactPositions) := by
  refine ⟨keepsMarks_iff book positions, ?_⟩
  constructor
  · rintro ⟨hkeeps, -⟩
    exact (keepsMarks_iff exactBook exactPositions).mp hkeeps
  · intro h
    exact ⟨(keepsMarks_iff exactBook exactPositions).mpr h, movesCorrectedOnly_of_nothingToLose h⟩

/-! ## One diverging leg -/

/-- The put at 5.90, which the broker no longer reports. -/
def stalePut : Leg ℚ :=
  { callOfDelta with strike := 59 / 10, right := .put, delta := -3 / 10 }

/-- The call as a broker position. -/
def callPosition : BrokerPosition ℚ where
  contract := { hgFuture 712565973 "HXEM6 C6" 6 with
    kind := .option
    strike := some (121 / 20)
    right := some .call }
  quantity := 1
  avgCost := 625

/-- The call agrees and loses its delta; the hedge, idle before, is bought back. -/
theorem agreeing_leg_loses_delta :
    let book := hgBook.replacePositions [callOfDelta, stalePut]
    let after := (reconcileOptions book [callPosition]).2
    ¬ KeepsMarks book [callPosition] ∧
      ((hgManager (-2)).rebalancePeriodic book 6 31000000000).1 = .idle ∧
      after.deltaForProduct "HG" = 0 ∧
      ((hgManager (-2)).rebalancePeriodic after 6 31000000000).1 =
        .place true 2 "periodic" (-2) 0 := by
  decide +kernel

end Corsair.Ports.OptionsReconcile
