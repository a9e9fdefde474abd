import Mathlib.Algebra.BigOperators.Group.List.Basic
import Corsair.Verified.ListIndex
import Corsair.Ports.BrokerApi

/-!
# `corsair_position`: the book of option legs

The book as fills and reconciles write it: the legs in the order of their
insertion, an index from keys to places in that list, and the daily accounts.
The index only ever points at a leg of its key, and the book carries the proof.

Quantities are `i32`s: their sums wrap around.

## Main results

* `legQty_addFill` — a fill moves the quantity of its key by its own, and of no
  other key.
* `fillsToday_addFill` — a fill moves the count of the day by its quantity.
* `deltaForProduct_of_zero` — a book of legs without greeks has no delta.
-/

namespace Corsair.Ports.PositionBook

open Corsair.Verified
open Corsair.Verified.Table
open Corsair.Verified.ListIndex
open Corsair.Ports.Portfolio (Right Date Position)
open Corsair.Ports.BrokerApi

/-- `PositionKey`. -/
structure PositionKey where
  product : String
  strikeKey : Int
  expiry : Date
  right : Right
  deriving DecidableEq, Repr

/-- `Position`, with its greeks. -/
structure Leg (F : Type) extends Position F where
  delta : F
  gamma : F
  theta : F
  vega : F

/-- `FillOutcome`. -/
inductive FillOutcome
  | opened
  | increased
  | partiallyClosed
  | closed
  | flipped
  | rejected (reason : String)
  deriving DecidableEq, Repr

variable {F : Type} [F64 F]

/-- `strike_key`. -/
def strikeKey (strike : F) : Int :=
  F64.toInt (-2 ^ 63) (2 ^ 63 - 1) (F64.round (strike * F64.lit 10000 0))

/-- `make_key`. -/
def makeKey (product : String) (strike : F) (expiry : Date) (right : Right) : PositionKey where
  product
  strikeKey := strikeKey strike
  expiry
  right

/-- `Position::key`. -/
def Leg.key (leg : Leg F) : PositionKey := makeKey leg.product leg.strike leg.expiry leg.right

/-- `PortfolioState`; the registry holds the multipliers. -/
structure PortfolioState (F : Type) [F64 F] where
  positions : List (Leg F)
  index : AList (fun _ : PositionKey => Nat)
  registry : AList (fun _ : String => F)
  fillsToday : UInt32
  spreadCaptureToday : F
  spreadCaptureMidToday : F
  realizedPnlPersisted : F
  indexed : ∀ key i, index.lookup key = some i → ∃ leg, positions[i]? = some leg ∧ leg.key = key

/-- `PortfolioState::new`. -/
def PortfolioState.new (registry : AList (fun _ : String => F)) : PortfolioState F where
  positions := []
  index := ∅
  registry
  fillsToday := 0
  spreadCaptureToday := F64.zero
  spreadCaptureMidToday := F64.zero
  realizedPnlPersisted := F64.zero
  indexed _ _ h := (nomatch h)

/-- `ProductRegistry::products`. -/
def PortfolioState.products (s : PortfolioState F) : List String := s.registry.keys

/-! ## Replacing the book -/

/-- `rebuild_index`. -/
def rebuildIndex (positions : List (Leg F)) : AList (fun _ : PositionKey => Nat) :=
  tabulate (fun e : Leg F × Nat => e.1.key) (fun e => e.2) positions.zipIdx

theorem rebuildIndex_indexed (positions : List (Leg F)) (key : PositionKey) (i : Nat)
    (h : (rebuildIndex positions).lookup key = some i) :
    ∃ leg, positions[i]? = some leg ∧ leg.key = key :=
  exists_of_lookup_places h

/-- `replace_positions`. -/
def PortfolioState.replacePositions (s : PortfolioState F) (positions : List (Leg F)) :
    PortfolioState F :=
  { s with positions, index := rebuildIndex positions, indexed := rebuildIndex_indexed positions }

/-! ## Fills -/

/-- `realized_on_close`. -/
def realizedOnClose (prevQty : Int) (prevAvg : F) (fillQty : Int) (fillPrice multiplier : F) : F :=
  if prevQty = 0 ∨ fillQty = 0 then F64.zero
  else if prevQty.sign = fillQty.sign then F64.zero
  else
    let closedAbs := min (i32 fillQty.natAbs) (i32 prevQty.natAbs)
    let signed : F := if 0 < prevQty then -F64.ofInt closedAbs else F64.ofInt closedAbs
    (prevAvg - fillPrice) * signed * multiplier

/-- `record_fill_accounting`. -/
def PortfolioState.recordFillAccounting (s : PortfolioState F) (quantity : Int)
    (spreadCaptured spreadCapturedMid : F) : PortfolioState F :=
  { s with
    fillsToday := s.fillsToday + UInt32.ofNat quantity.natAbs
    spreadCaptureToday := s.spreadCaptureToday + spreadCaptured
    spreadCaptureMidToday := s.spreadCaptureMidToday + spreadCapturedMid }

/-- The leg that a fill is merged into: its average moves when the fill adds to
it, starts anew when the fill flips it, and stays when the fill closes a part. -/
def mergedLeg (leg : Leg F) (quantity : Int) (fillPrice : F) : Leg F :=
  let newQty := i32 (leg.quantity + quantity)
  let newAbs : F := F64.ofInt newQty.natAbs
  let avgFillPrice :=
    if leg.quantity.sign = quantity.sign then
      if F64.gt newAbs F64.zero then
        (leg.avgFillPrice * F64.ofInt leg.quantity.natAbs +
          fillPrice * F64.ofInt quantity.natAbs) / newAbs
      else leg.avgFillPrice
    else if leg.quantity.sign ≠ newQty.sign ∧ leg.quantity.sign ≠ 0 then fillPrice
    else leg.avgFillPrice
  { leg with quantity := newQty, avgFillPrice }

/-- What a merge is reported as. -/
def mergeOutcome (prevQty newQty : Int) : FillOutcome :=
  if (0 < prevQty ∧ 0 < newQty ∧ prevQty < newQty) ∨
      (prevQty < 0 ∧ newQty < 0 ∧ newQty < prevQty) then .increased
  else if prevQty.sign ≠ newQty.sign ∧ prevQty.sign ≠ 0 then .flipped
  else .partiallyClosed

/-- The leg of an indexed key takes the fill. -/
def PortfolioState.mergeAt (s : PortfolioState F) (i : Nat) (quantity : Int) (fillPrice : F) :
    PortfolioState F :=
  { s with
    positions := s.positions.modify i (mergedLeg · quantity fillPrice)
    indexed := by
      intro key j h
      obtain ⟨leg, hleg, hkey⟩ := s.indexed key j h
      rw [List.getElem?_modify, hleg]
      by_cases hj : i = j
      · exact ⟨mergedLeg leg quantity fillPrice, by simp [hj], hkey⟩
      · exact ⟨leg, by simp [hj], hkey⟩ }

/-- A new leg at the end of the book. -/
def PortfolioState.openLeg (s : PortfolioState F) (leg : Leg F) : PortfolioState F :=
  { s with
    positions := s.positions ++ [leg]
    index := s.index.insert leg.key s.positions.length
    indexed := by
      intro key i h
      by_cases hkey : key = leg.key
      · subst hkey
        rw [AList.lookup_insert] at h
        obtain rfl := Option.some.inj h
        exact ⟨leg, by simp, rfl⟩
      · rw [AList.lookup_insert_ne hkey] at h
        obtain ⟨old, hold, hkey⟩ := s.indexed key i h
        exact ⟨old, List.getElem?_append_left (List.getElem?_eq_some_iff.mp hold).1 ▸ hold, hkey⟩ }

/-- The indexed leg of a key, with its place. -/
def PortfolioState.find (s : PortfolioState F) (key : PositionKey) : Option (Nat × Leg F) := do
  let i ← s.index.lookup key
  let leg ← s.positions[i]?
  return (i, leg)

/-- `add_fill`. -/
def PortfolioState.addFill (s : PortfolioState F) (product : String) (strike : F) (expiry : Date)
    (right : Right) (quantity : Int) (fillPrice spreadCaptured spreadCapturedMid : F) :
    FillOutcome × PortfolioState F :=
  if quantity = 0 then (.rejected "zero quantity", s)
  else
    let multiplier := (s.registry.lookup product).getD (F64.lit 100 0)
    match s.find (makeKey product strike expiry right) with
    | some (i, leg) =>
        let newQty := i32 (leg.quantity + quantity)
        let s := { s with
          realizedPnlPersisted := s.realizedPnlPersisted +
            realizedOnClose leg.quantity leg.avgFillPrice quantity fillPrice multiplier }
        if newQty = 0 then
          (.closed, (s.replacePositions (s.positions.eraseIdx i)).recordFillAccounting quantity
            spreadCaptured spreadCapturedMid)
        else
          (mergeOutcome leg.quantity newQty,
            (s.mergeAt i quantity fillPrice).recordFillAccounting quantity spreadCaptured
              spreadCapturedMid)
    | none =>
        let leg : Leg F := {
          product, strike, expiry, right, quantity, avgFillPrice := fillPrice, multiplier
          currentPrice := F64.zero
          delta := F64.zero
          gamma := F64.zero
          theta := F64.zero
          vega := F64.zero }
        (.opened, (s.openLeg leg).recordFillAccounting quantity spreadCaptured spreadCapturedMid)

/-- `delta_for_product`. -/
def PortfolioState.deltaForProduct (s : PortfolioState F) (product : String) : F :=
  (s.positions.filter (·.product = product)).foldl
    (fun total p => total + p.delta * F64.ofInt p.quantity) F64.zero

/-! ## What a fill moves -/

/-- What the legs of a key hold together. -/
def legQty (positions : List (Leg F)) (key : PositionKey) : Int :=
  (positions.map fun leg => if leg.key = key then leg.quantity else 0).sum

@[simp] theorem legQty_append (front back : List (Leg F)) (key : PositionKey) :
    legQty (front ++ back) key = legQty front key + legQty back key := by
  simp [legQty]

@[simp] theorem legQty_cons (leg : Leg F) (rest : List (Leg F)) (key : PositionKey) :
    legQty (leg :: rest) key = (if leg.key = key then leg.quantity else 0) + legQty rest key := by
  simp [legQty]

@[simp] theorem legQty_nil (key : PositionKey) : legQty ([] : List (Leg F)) key = 0 := rfl

theorem find_spec {s : PortfolioState F} {key : PositionKey} {i : Nat} {leg : Leg F}
    (h : s.find key = some (i, leg)) :
    leg.key = key ∧ ∃ front back, s.positions = front ++ leg :: back ∧ front.length = i := by
  obtain ⟨j, hindex, h⟩ := Option.bind_eq_some_iff.mp h
  obtain ⟨found, hfound, h⟩ := Option.bind_eq_some_iff.mp h
  obtain ⟨rfl, rfl⟩ := Prod.mk.inj (Option.some.inj h)
  obtain ⟨indexed, hindexed, hkey⟩ := s.indexed key j hindex
  obtain rfl := Option.some.inj (hfound.symm.trans hindexed)
  exact ⟨hkey, exists_split hfound⟩

/-- The legs after a fill: a leg of its key has been merged with it or closed by
it, or there was none and it has opened one. -/
theorem addFill_positions (s : PortfolioState F) (product : String) (strike : F) (expiry : Date)
    (right : Right) {quantity : Int} (hquantity : quantity ≠ 0)
    (fillPrice spreadCaptured spreadCapturedMid : F) :
    let positions := (s.addFill product strike expiry right quantity fillPrice spreadCaptured
      spreadCapturedMid).2.positions
    (∃ front leg back, s.positions = front ++ leg :: back ∧
        leg.key = makeKey product strike expiry right ∧
        (positions = front ++ mergedLeg leg quantity fillPrice :: back ∨
          i32 (leg.quantity + quantity) = 0 ∧ positions = front ++ back)) ∨
      ∃ leg : Leg F, leg.key = makeKey product strike expiry right ∧ leg.quantity = quantity ∧
        positions = s.positions ++ [leg] := by
  simp only [PortfolioState.addFill, if_neg hquantity]
  cases hfind : s.find (makeKey product strike expiry right) with
  | none => exact .inr ⟨_, rfl, rfl, rfl⟩
  | some found =>
      obtain ⟨i, leg⟩ := found
      obtain ⟨hkey, front, back, hpositions, rfl⟩ := find_spec hfind
      refine .inl ⟨front, leg, back, hpositions, hkey, ?_⟩
      by_cases hclosed : i32 (leg.quantity + quantity) = 0
      · simp only [if_pos hclosed]
        refine .inr ⟨hclosed, ?_⟩
        rw [← eraseIdx_length_append front leg back, ← hpositions]
        rfl
      · simp only [if_neg hclosed]
        refine .inl ?_
        rw [← modify_length_append front leg back (mergedLeg · quantity fillPrice), ← hpositions]
        rfl

/-- **A fill moves its own key**, and no other, by its quantity. -/
theorem legQty_addFill (s : PortfolioState F) (product : String) (strike : F) (expiry : Date)
    (right : Right) (quantity : Int) (fillPrice spreadCaptured spreadCapturedMid : F)
    (key : PositionKey) :
    i32 (legQty (s.addFill product strike expiry right quantity fillPrice spreadCaptured
        spreadCapturedMid).2.positions key) =
      i32 (legQty s.positions key +
        if makeKey product strike expiry right = key then quantity else 0) := by
  by_cases hquantity : quantity = 0
  · simp [PortfolioState.addFill, hquantity]
  rcases addFill_positions s product strike expiry right hquantity fillPrice spreadCaptured
    spreadCapturedMid with ⟨front, leg, back, hold, hkey, hnew | ⟨hclosed, hnew⟩⟩ |
      ⟨leg, hkey, rfl, hnew⟩
  · have hmerged : (mergedLeg leg quantity fillPrice).key = leg.key := rfl
    have hmergedQty : (mergedLeg leg quantity fillPrice).quantity =
      i32 (leg.quantity + quantity) := rfl
    rw [hnew, hold, legQty_append, legQty_append, legQty_cons, legQty_cons, hmerged, hmergedQty,
      hkey]
    unfold i32
    split
    · omega
    · omega
  · rw [hnew, hold, legQty_append, legQty_append, legQty_cons, hkey]
    unfold i32 at hclosed ⊢
    split
    · omega
    · omega
  · rw [hnew, legQty_append, legQty_cons, legQty_nil, hkey, add_zero]

/-- The count of the day after a fill. -/
theorem fillsToday_addFill (s : PortfolioState F) (product : String) (strike : F) (expiry : Date)
    (right : Right) (quantity : Int) (fillPrice spreadCaptured spreadCapturedMid : F) :
    (s.addFill product strike expiry right quantity fillPrice spreadCaptured
      spreadCapturedMid).2.fillsToday = s.fillsToday + UInt32.ofNat quantity.natAbs := by
  unfold PortfolioState.addFill
  split
  · rename_i hzero
    rw [hzero]
    exact (UInt32.add_zero _).symm
  · split
    · dsimp only
      split
      · rfl
      · rfl
    · rfl

/-- A fill leaves the registry alone. -/
@[simp] theorem registry_addFill (s : PortfolioState F) (product : String) (strike : F)
    (expiry : Date) (right : Right) (quantity : Int)
    (fillPrice spreadCaptured spreadCapturedMid : F) :
    (s.addFill product strike expiry right quantity fillPrice spreadCaptured
      spreadCapturedMid).2.registry = s.registry := by
  unfold PortfolioState.addFill
  split
  · rfl
  · split
    · dsimp only
      split
      · rfl
      · rfl
    · rfl

/-! ## The delta of the book, in exact arithmetic -/

theorem deltaForProduct_eq_sum (s : PortfolioState ℚ) (product : String) :
    s.deltaForProduct product =
      ((s.positions.filter (·.product = product)).map fun p => p.delta * (p.quantity : ℚ)).sum := by
  have hfold : ∀ (legs : List (Leg ℚ)) (total : ℚ),
      legs.foldl (fun total p => total + p.delta * F64.ofInt p.quantity) total =
        total + (legs.map fun p => p.delta * (p.quantity : ℚ)).sum := by
    intro legs
    induction legs with
    | nil => simp
    | cons leg rest ih =>
        intro total
        rw [List.foldl_cons, ih, List.map_cons, List.sum_cons, ← add_assoc]
        rfl
  rw [PortfolioState.deltaForProduct, hfold, rat_zero, zero_add]

/-- A book without deltas has none. -/
theorem deltaForProduct_of_zero {s : PortfolioState ℚ} (h : ∀ leg ∈ s.positions, leg.delta = 0)
    (product : String) : s.deltaForProduct product = 0 := by
  rw [deltaForProduct_eq_sum]
  apply List.sum_eq_zero
  intro x hx
  obtain ⟨leg, hleg, rfl⟩ := List.mem_map.mp hx
  rw [h leg (List.mem_filter.mp hleg).1, zero_mul]

end Corsair.Ports.PositionBook
