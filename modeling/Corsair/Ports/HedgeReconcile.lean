import Mathlib.Data.List.Induction
import Corsair.Ports.HedgeManager

/-!
# The hedge half of the periodic reconcile

Every two minutes `periodic_hedge` goes through the broker's positions and gives
each future to the manager of its symbol.  The manager takes the quantity as its
own: a later future of the same product replaces an earlier one, another expiry
counts as much as the hedge contract, and a manager whose product has no future
in the list keeps what it had.

## Main results

* `reconcileHedges_at` — what the reconcile leaves with each manager.
* `hedges_match_iff` — when that is the broker's position in its contract.
-/

namespace Corsair.Ports.HedgeReconcile

open Corsair.Verified
open Corsair.Verified.ListIndex
open Corsair.Ports.BrokerApi
open Corsair.Ports.HedgeManager

variable {F : Type}

/-- The futures of a product. -/
def isFutureOf (product : String) (pos : BrokerPosition F) : Bool :=
  pos.contract.kind = .future ∧ pos.contract.symbol = product

section Reconcile

variable [F64 F]

/-- The average price of a position; 25000 stands for a missing multiplier. -/
def avgPrice (pos : BrokerPosition F) : F :=
  pos.avgCost /
    (if F64.gt pos.contract.multiplier F64.zero then pos.contract.multiplier else F64.lit 25000 0)

/-- One position of the list. -/
def reconcileOne (now : Nat) (managers : List (HedgeManager F)) (pos : BrokerPosition F) :
    List (HedgeManager F) :=
  if pos.contract.kind ≠ .future then managers
  else
    (forProductMut pos.contract.symbol
      (·.reconcileWithPosition pos.quantity (avgPrice pos) now) managers).2

/-- `periodic_hedge`, the reconcile of the managers. -/
def reconcileHedges (now : Nat) (managers : List (HedgeManager F))
    (positions : List (BrokerPosition F)) : List (HedgeManager F) :=
  positions.foldl (reconcileOne now) (managers.map (·.touchFreshness now))

end Reconcile

/-- The broker's net position in a contract. -/
def netPosition (positions : List (BrokerPosition F)) (instrumentId : Nat) : Int :=
  ((positions.filter (·.contract.instrumentId = instrumentId)).map (·.quantity)).sum

/-- Each manager holds the broker's net position in its hedge contract. -/
def HedgesMatch (managers : List (HedgeManager F)) (positions : List (BrokerPosition F)) : Prop :=
  ∀ m ∈ managers, ∀ contract ∈ m.hedgeContract,
    m.state.hedgeQty = netPosition positions contract.instrumentId

instance (managers : List (HedgeManager F)) (positions : List (BrokerPosition F)) :
    Decidable (HedgesMatch managers positions) := by
  unfold HedgesMatch
  infer_instance

/-- The position that a manager behind `front` sees: the last future of its
product, unless a manager before it has the product. -/
def seenBy (front : List (HedgeManager F)) (m : HedgeManager F)
    (positions : List (BrokerPosition F)) : Option (BrokerPosition F) :=
  if ∃ other ∈ front, other.cfg.product = m.cfg.product then none
  else (positions.filter (isFutureOf m.cfg.product)).getLast?

/-! ## What the reconcile leaves -/

section Fold

variable [F64 F]

/-- The first manager takes the futures of its product, the others the rest. -/
theorem foldl_reconcileOne_cons (now : Nat) (m : HedgeManager F) (rest : List (HedgeManager F))
    (positions : List (BrokerPosition F)) :
    positions.foldl (reconcileOne now) (m :: rest) =
      (positions.filter (isFutureOf m.cfg.product)).foldl
          (fun m pos => (m.reconcileWithPosition pos.quantity (avgPrice pos) now).2) m ::
        (positions.filter (!isFutureOf m.cfg.product ·)).foldl (reconcileOne now) rest := by
  induction positions generalizing m rest with
  | nil => rfl
  | cons pos positions ih =>
      rw [List.foldl_cons]
      by_cases hkind : pos.contract.kind = .future
      · by_cases hsymbol : m.cfg.product = pos.contract.symbol
        · have hmine : isFutureOf m.cfg.product pos = true := by
            simp [isFutureOf, hkind, hsymbol]
          have hcfg := (m.sameSetup_reconcileWithPosition pos.quantity (avgPrice pos) now).cfg
          rw [reconcileOne, if_neg (not_not.mpr hkind), forProductMut, if_pos hsymbol, ih, hcfg,
            List.filter_cons_of_pos hmine, List.filter_cons_of_neg (by simp [hmine]),
            List.foldl_cons]
        · have hother : isFutureOf m.cfg.product pos = false := by
            simp [isFutureOf, Ne.symm hsymbol]
          rw [reconcileOne, if_neg (not_not.mpr hkind), forProductMut, if_neg hsymbol, ih,
            List.filter_cons_of_neg (by simp [hother]), List.filter_cons_of_pos (by simp [hother]),
            List.foldl_cons, reconcileOne, if_neg (not_not.mpr hkind)]
      · have hother : isFutureOf m.cfg.product pos = false := by simp [isFutureOf, hkind]
        rw [reconcileOne, if_pos hkind, ih, List.filter_cons_of_neg (by simp [hother]),
          List.filter_cons_of_pos (by simp [hother]), List.foldl_cons, reconcileOne, if_pos hkind]

omit [F64 F] in
/-- The futures of one product: the last one decides. -/
theorem foldl_reconcileWithPosition (now : Nat) (avg : BrokerPosition F → F) (m : HedgeManager F)
    (positions : List (BrokerPosition F)) :
    let m' := positions.foldl
      (fun m pos => (m.reconcileWithPosition pos.quantity (avg pos) now).2) m
    m'.state.hedgeQty = (positions.getLast?.map (·.quantity)).getD m.state.hedgeQty ∧
      SameSetup m m' := by
  induction positions using List.reverseRecOn with
  | nil => exact ⟨rfl, .refl m⟩
  | append_singleton front pos ih =>
      have hlast := HedgeManager.sameSetup_reconcileWithPosition
        (front.foldl (fun m pos => (m.reconcileWithPosition pos.quantity (avg pos) now).2) m)
        pos.quantity (avg pos) now
      simp only [List.foldl_append, List.foldl_cons, List.foldl_nil]
      refine ⟨by simp, hlast.cfg.trans ih.2.cfg, hlast.hedgeContract.trans ih.2.hedgeContract⟩

omit [F64 F] in
/-- What a manager sees behind one more manager. -/
theorem seenBy_cons (first : HedgeManager F) (front : List (HedgeManager F)) (m : HedgeManager F)
    (positions : List (BrokerPosition F)) :
    seenBy (first :: front) m positions =
      seenBy front m (positions.filter (!isFutureOf first.cfg.product ·)) := by
  unfold seenBy
  by_cases hfront : ∃ other ∈ front, other.cfg.product = m.cfg.product
  · obtain ⟨other, hother, hproduct⟩ := hfront
    rw [if_pos ⟨other, List.mem_cons_of_mem first hother, hproduct⟩, if_pos ⟨other, hother, hproduct⟩]
  · rw [if_neg hfront, List.filter_filter]
    by_cases hfirst : first.cfg.product = m.cfg.product
    · rw [if_pos ⟨first, List.mem_cons_self, hfirst⟩, hfirst]
      have hnone : positions.filter
          (fun pos => isFutureOf m.cfg.product pos && !isFutureOf m.cfg.product pos) = [] := by
        simp
      rw [hnone, List.getLast?_nil]
    · have hall : ¬ ∃ other ∈ first :: front, other.cfg.product = m.cfg.product := by
        rintro ⟨other, hother, hproduct⟩
        rcases List.mem_cons.mp hother with rfl | hother
        · exact hfirst hproduct
        · exact hfront ⟨other, hother, hproduct⟩
      rw [if_neg hall]
      congr 1
      apply List.filter_congr
      intro pos _
      by_cases hmine : isFutureOf m.cfg.product pos = true
      · have hsymbol : pos.contract.symbol = m.cfg.product := (of_decide_eq_true hmine).2
        have hother : isFutureOf first.cfg.product pos = false := by
          simp [isFutureOf, hsymbol, Ne.symm hfirst]
        simp [hmine, hother]
      · simp [hmine]

/-- **The reconcile, one manager at a time.** -/
theorem reconcileHedges_at (now : Nat) (front : List (HedgeManager F)) (m : HedgeManager F)
    (back : List (HedgeManager F)) (positions : List (BrokerPosition F)) :
    ∃ m', (positions.foldl (reconcileOne now) (front ++ m :: back))[front.length]? = some m' ∧
      m'.state.hedgeQty =
        ((seenBy front m positions).map (·.quantity)).getD m.state.hedgeQty ∧
      SameSetup m m' := by
  induction front generalizing positions with
  | nil =>
      have hmine := foldl_reconcileWithPosition now avgPrice m
        (positions.filter (isFutureOf m.cfg.product))
      rw [List.nil_append, foldl_reconcileOne_cons]
      refine ⟨_, rfl, ?_, hmine.2⟩
      rw [hmine.1]
      simp [seenBy]
  | cons first front ih =>
      obtain ⟨m', hm', hqty, hsetup⟩ := ih (positions.filter (!isFutureOf first.cfg.product ·))
      rw [List.cons_append, foldl_reconcileOne_cons]
      refine ⟨m', by simpa using hm', ?_, hsetup⟩
      rw [hqty, seenBy_cons]

theorem length_foldl_reconcileOne (now : Nat) (managers : List (HedgeManager F))
    (positions : List (BrokerPosition F)) :
    (positions.foldl (reconcileOne now) managers).length = managers.length := by
  induction managers generalizing positions with
  | nil =>
      induction positions with
      | nil => rfl
      | cons pos positions ih =>
          rw [List.foldl_cons]
          simpa [reconcileOne, forProductMut] using ih
  | cons m rest ih => rw [foldl_reconcileOne_cons, List.length_cons, ih, List.length_cons]

theorem sameFanout_reconcileOne (now : Nat) (managers : List (HedgeManager F))
    (pos : BrokerPosition F) : SameFanout managers (reconcileOne now managers pos) := by
  unfold reconcileOne
  split
  · exact .refl managers
  · exact sameFanout_forProductMut (fun m => m.sameSetup_reconcileWithPosition _ _ _) managers

theorem sameFanout_foldl_reconcileOne (now : Nat) (managers : List (HedgeManager F))
    (positions : List (BrokerPosition F)) :
    SameFanout managers (positions.foldl (reconcileOne now) managers) := by
  induction positions generalizing managers with
  | nil => exact .refl managers
  | cons pos rest ih => exact (sameFanout_reconcileOne now managers pos).trans (ih _)

theorem sameFanout_reconcileHedges (now : Nat) (managers : List (HedgeManager F))
    (positions : List (BrokerPosition F)) :
    SameFanout managers (reconcileHedges now managers positions) := by
  have htouched : SameFanout managers (managers.map (·.touchFreshness now)) :=
    List.forall₂_map_right_iff.mpr (List.forall₂_same.mpr fun m _ => ⟨rfl, rfl⟩)
  exact htouched.trans (sameFanout_foldl_reconcileOne now _ positions)

/-- One position reaches the manager of its symbol, if it is a future. -/
theorem forProduct_reconcileOne (now : Nat) (managers : List (HedgeManager F))
    (pos : BrokerPosition F) (product : String) :
    forProduct (reconcileOne now managers pos) product =
      (forProduct managers product).map fun m =>
        if isFutureOf product pos then
          (m.reconcileWithPosition pos.quantity (avgPrice pos) now).2
        else m := by
  unfold reconcileOne
  by_cases hkind : pos.contract.kind = .future
  · rw [if_neg (not_not.mpr hkind), forProduct_forProductMut fun m =>
      m.sameSetup_reconcileWithPosition pos.quantity (avgPrice pos) now]
    simp [isFutureOf, hkind, eq_comm]
  · rw [if_pos hkind]
    simp [isFutureOf, hkind]

/-- **The reconcile, one product at a time**: the last future of the product
decides what its manager holds. -/
theorem forProduct_reconcileHedges (now : Nat) (managers : List (HedgeManager F))
    (positions : List (BrokerPosition F)) (product : String) :
    ∃ g : HedgeManager F → HedgeManager F, (∀ m, SameSetup m (g m)) ∧
      (∀ m, (g m).state.hedgeQty =
        ((positions.filter (isFutureOf product)).getLast?.map (·.quantity)).getD
          m.state.hedgeQty) ∧
      forProduct (reconcileHedges now managers positions) product =
        (forProduct managers product).map g := by
  unfold reconcileHedges
  induction positions using List.reverseRecOn with
  | nil =>
      refine ⟨fun m => m.touchFreshness now, fun _ => ⟨rfl, rfl⟩, fun _ => rfl, ?_⟩
      rw [List.foldl_nil, forProduct, List.find?_map]
      rfl
  | append_singleton front pos ih =>
      obtain ⟨g, hsetup, hqty, hfront⟩ := ih
      rw [List.foldl_append, List.foldl_cons, List.foldl_nil, forProduct_reconcileOne, hfront,
        Option.map_map]
      refine ⟨_, fun m => ?_, fun m => ?_, rfl⟩
      · dsimp only [Function.comp]
        split
        · have hlast := (g m).sameSetup_reconcileWithPosition pos.quantity (avgPrice pos) now
          exact ⟨hlast.cfg.trans (hsetup m).cfg,
            hlast.hedgeContract.trans (hsetup m).hedgeContract⟩
        · exact hsetup m
      · dsimp only [Function.comp]
        rw [List.filter_append]
        split
        · rename_i hfuture
          rw [List.filter_cons_of_pos hfuture]
          simp
        · rename_i hother
          rw [List.filter_cons_of_neg hother, List.filter_nil, List.append_nil, hqty]

omit [F64 F] in
theorem seenBy_touchFreshness (now : Nat) (front : List (HedgeManager F)) (m : HedgeManager F)
    (positions : List (BrokerPosition F)) :
    seenBy (front.map (·.touchFreshness now)) (m.touchFreshness now) positions =
      seenBy front m positions := by
  have hfront : (∃ other ∈ front.map (·.touchFreshness now),
      other.cfg.product = (m.touchFreshness now).cfg.product) ↔
        ∃ other ∈ front, other.cfg.product = m.cfg.product := by
    simp [HedgeManager.touchFreshness]
  simp only [seenBy, hfront]
  rfl

end Fold

/-! ## When the managers match the broker -/

/-- The last future that a manager sees has the net quantity of its hedge
contract; where it sees none, it holds that quantity already. -/
def SeesNet (front : List (HedgeManager F)) (m : HedgeManager F)
    (positions : List (BrokerPosition F)) : Prop :=
  ∀ contract ∈ m.hedgeContract,
    match seenBy front m positions with
    | some last => last.quantity = netPosition positions contract.instrumentId
    | none => m.state.hedgeQty = netPosition positions contract.instrumentId

/-- **When the reconcile is right.** It leaves every manager with the broker's
net position in its hedge contract exactly where every manager sees that
position. -/
theorem hedges_match_iff [F64 F] (now : Nat) (managers : List (HedgeManager F))
    (positions : List (BrokerPosition F)) :
    HedgesMatch (reconcileHedges now managers positions) positions ↔
      ∀ front m back, managers = front ++ m :: back → SeesNet front m positions := by
  have hleft (front : List (HedgeManager F)) (m : HedgeManager F) (back : List (HedgeManager F))
      (hmanagers : managers = front ++ m :: back) :
      ∃ m', (reconcileHedges now managers positions)[front.length]? = some m' ∧
        m'.state.hedgeQty =
          ((seenBy front m positions).map (·.quantity)).getD m.state.hedgeQty ∧
        m'.hedgeContract = m.hedgeContract := by
    obtain ⟨m', hm', hqty, hsetup⟩ := reconcileHedges_at now (front.map (·.touchFreshness now))
      (m.touchFreshness now) (back.map (·.touchFreshness now)) positions
    rw [seenBy_touchFreshness] at hqty
    refine ⟨m', ?_, hqty, hsetup.hedgeContract⟩
    rw [reconcileHedges, hmanagers, List.map_append, List.map_cons, ← hm', List.length_map]
  constructor
  · intro hmatch front m back hmanagers contract hcontract
    obtain ⟨m', hm', hqty, hsame⟩ := hleft front m back hmanagers
    have hnet := hmatch m' (List.mem_of_getElem? hm') contract (hsame ▸ hcontract)
    rw [hqty] at hnet
    cases hseen : seenBy front m positions with
    | none => rwa [hseen] at hnet
    | some last => rwa [hseen] at hnet
  · intro hsees m' hm' contract hcontract
    obtain ⟨i, hi⟩ := List.mem_iff_getElem?.mp hm'
    have hlt : i < managers.length := by
      have hlt := (List.getElem?_eq_some_iff.mp hi).1
      rwa [reconcileHedges, length_foldl_reconcileOne, List.length_map] at hlt
    obtain ⟨front, back, hmanagers, rfl⟩ := exists_split (List.getElem?_eq_getElem hlt)
    obtain ⟨m'', hm'', hqty, hsame⟩ := hleft _ _ _ hmanagers
    obtain rfl := Option.some.inj (hi.symm.trans hm'')
    have hnet := hsees _ _ _ hmanagers contract (hsame ▸ hcontract)
    rw [hqty]
    cases hseen : seenBy front managers[front.length] positions with
    | none => rwa [hseen] at hnet
    | some last => rwa [hseen] at hnet

/-! ## Another expiry -/

/-- A future of HG. -/
def hgFuture (instrumentId : Nat) (localSymbol : String) (month : Nat) : Contract ℚ where
  instrumentId
  kind := .future
  symbol := "HG"
  localSymbol
  expiry := { year := 2026, month, day := 26 }
  strike := none
  right := none
  multiplier := 25000
  exchange := .comex
  currency := .usd
  tradingClass := "HG"

/-- The manager of HG, which hedges with June. -/
def hgManager (hedgeQty : Int) : HedgeManager ℚ where
  cfg := {
    product := "HG"
    multiplier := 25000
    mode := .execute
    toleranceDeltas := 1 / 2
    rebalanceOnFill := true
    rebalanceCadenceSec := 30 }
  state := { hedgeQty, avgEntryF := 6, realizedPnlUsd := 0, lastUpdateNs := 0 }
  hedgeContract := some (hgFuture 987654 "HGM6" 6)
  lastPeriodicNs := 0
  priorityDrainUntilNs := 0
  processedExecIds := []

/-- One July future behind two of June: the manager takes the one. -/
theorem later_expiry_replaces :
    ¬ HedgesMatch
      (reconcileHedges 1 [hgManager (-2)]
        [⟨hgFuture 987654 "HGM6" 6, -2, 150000⟩, ⟨hgFuture 987999 "HGN6" 7, 1, 150000⟩])
      [⟨hgFuture 987654 "HGM6" 6, -2, 150000⟩, ⟨hgFuture 987999 "HGN6" 7, 1, 150000⟩] := by
  decide +kernel

end Corsair.Ports.HedgeReconcile
