import Mathlib.Data.List.Infix
import Corsair.Verified.AverageCost
import Corsair.Ports.HedgeManager

/-!
# The P&L of a hedge is conserved

`apply_fill` keeps the books of one futures position by average cost.  Where no
`i32` overflows, a state that starts from `HedgeState::new` runs with the holding
of `AverageCost`, and its realized P&L and its mark-to-market are together what
its fills have gained, at every positive mark.

## Main results

* `applyFill_refines` — a fill of the state is a fill of the holding.
* `avgEntryF_applyFill` — the one division of a fill.
* `hedge_pnl_conserved` — conservation, for every list of fills.
-/

namespace Corsair.Ports.HedgePnl

open Corsair.Verified
open Corsair.Verified.AverageCost
open Corsair.Ports.BrokerApi
open Corsair.Ports.HedgeManager

/-! ## The division of a fill -/

section Division

variable {F : Type} [F64 F]

/-- What a fill divides by, where it computes an average. -/
def divisor (s : HedgeState F) (isBuy : Bool) (qty : Nat) : Option F :=
  let effect := signedQty isBuy qty
  let newQty := i32 (s.hedgeQty + effect)
  if newQty = 0 then none
  else if (0 ≤ s.hedgeQty ∧ 0 ≤ effect) ∨ (s.hedgeQty ≤ 0 ∧ effect ≤ 0) then
    some (F64.ofInt newQty)
  else none

/-- A fill divides by its divisor, and by nothing else. -/
theorem avgEntryF_applyFill (s : HedgeState F) (isBuy : Bool) (qty : Nat) (price multiplier : F)
    (now : Nat) :
    (∃ d, divisor s isBuy qty = some d ∧
        (s.applyFill isBuy qty price multiplier now).avgEntryF =
          (s.avgEntryF * F64.ofInt s.hedgeQty + price * F64.ofInt (signedQty isBuy qty)) / d) ∨
      divisor s isBuy qty = none ∧
        (s.applyFill isBuy qty price multiplier now).avgEntryF ∈
          [F64.zero, s.avgEntryF, price] := by
  unfold divisor HedgeState.applyFill
  dsimp only
  split
  · exact .inr ⟨rfl, by simp⟩
  · split
    · exact .inl ⟨_, rfl, rfl⟩
    · split
      · exact .inr ⟨rfl, by simp⟩
      · exact .inr ⟨rfl, by simp⟩

end Division

/-! ## Fills of the state and of the holding -/

/-- The arguments of a fill, with the clock that it reads. -/
structure HedgeFill where
  isBuy : Bool
  qty : Nat
  price : ℚ
  now : Nat

/-- The signed quantity of a fill. -/
def HedgeFill.effect (f : HedgeFill) : Int := if f.isBuy then f.qty else -f.qty

/-- What some fills move together. -/
def effectSum (fills : List HedgeFill) : Int := (fills.map (·.effect)).sum

/-- The state after some fills. -/
def runFills (multiplier : ℚ) (s : HedgeState ℚ) (fills : List HedgeFill) : HedgeState ℚ :=
  fills.foldl (fun s f => s.applyFill f.isBuy f.qty f.price multiplier f.now) s

/-- No `i32` overflows in a run from flat: neither a cast of a quantity nor a
position on the way. -/
def NoOverflow (fills : List HedgeFill) : Prop :=
  (∀ f ∈ fills, f.qty < 2 ^ 31) ∧
    ∀ front, front <+: fills → -2 ^ 31 ≤ effectSum front ∧ effectSum front < 2 ^ 31

/-- The state keeps the books of a holding that has realized some points. -/
def Keeps (multiplier : ℚ) (s : HedgeState ℚ) (h : Holding ℚ) (points : ℚ) : Prop :=
  s.hedgeQty = h.qty ∧ s.avgEntryF = h.avg ∧ s.realizedPnlUsd = points * multiplier

theorem signedQty_eq_effect {f : HedgeFill} (hqty : f.qty < 2 ^ 31) :
    signedQty f.isBuy f.qty = f.effect := by
  have hcast := signedQty_emod f.isBuy f.qty
  have hbounds := signedQty_bounds f.isBuy f.qty
  unfold HedgeFill.effect
  split
  · rename_i hbuy
    rw [if_pos hbuy] at hcast
    omega
  · rename_i hsell
    rw [if_neg hsell] at hcast
    omega

/-- The sign that the code takes of the position turns a number of contracts back
into a signed one. -/
theorem sign_mul_natAbs {qty closed : Int} (hside : 0 < qty ∧ 0 ≤ closed ∨ qty ≤ 0 ∧ closed ≤ 0)
    (x : ℚ) :
    (if 0 < qty then F64.lit 1 0 else -F64.lit 1 0) * x * (F64.ofInt closed.natAbs : ℚ) =
      closed * x := by
  have hone : (F64.lit 1 0 : ℚ) = 1 := by simp [rat_lit]
  rw [hone, rat_ofInt]
  rcases hside with ⟨hlong, hclosed⟩ | ⟨hshort, hclosed⟩
  · rw [if_pos hlong, Int.natAbs_of_nonneg hclosed]
    ring
  · rw [if_neg (by omega), Int.ofNat_natAbs_of_nonpos hclosed]
    push_cast
    ring

/-- **Refinement.** Without an overflow, a fill of the state is a fill of the
holding whose books it keeps. -/
theorem applyFill_refines {multiplier : ℚ} {s : HedgeState ℚ} {h : Holding ℚ} {points : ℚ}
    (hkeeps : Keeps multiplier s h points) {f : HedgeFill} (hqty : f.qty < 2 ^ 31)
    (hsum : -2 ^ 31 ≤ h.qty + f.effect ∧ h.qty + f.effect < 2 ^ 31) :
    Keeps multiplier (s.applyFill f.isBuy f.qty f.price multiplier f.now)
      (h.fill f.effect f.price) (points + h.realized f.effect f.price) := by
  obtain ⟨hheld, havg, hrealized⟩ := hkeeps
  have hnew : i32 (h.qty + f.effect) = h.qty + f.effect := i32_of_bounds hsum.1 hsum.2
  have hside : (0 ≤ h.qty ∧ 0 ≤ f.effect) ∨ (h.qty ≤ 0 ∧ f.effect ≤ 0) ↔ 0 ≤ h.qty * f.effect :=
    mul_nonneg_iff.symm
  have hclose (part : Int) (hpart : 0 < h.qty ∧ 0 ≤ part ∨ h.qty ≤ 0 ∧ part ≤ 0) :
      points * multiplier + (if 0 < h.qty then F64.lit 1 0 else -F64.lit 1 0) *
          (f.price - h.avg) * F64.ofInt part.natAbs * multiplier =
        (points + part * (f.price - h.avg)) * multiplier := by
    rw [sign_mul_natAbs hpart]
    ring
  unfold HedgeState.applyFill Keeps Holding.realized Holding.fill Holding.avgAfter
  simp only [signedQty_eq_effect hqty, hheld, hnew, havg, hrealized, hside, rat_zero]
  by_cases hflat : h.qty + f.effect = 0
  · simp only [if_pos hflat, closed_of_flat hflat]
    exact ⟨hflat.symm, trivial, hclose h.qty (by omega)⟩
  simp only [if_neg hflat, closed]
  by_cases hsame : 0 ≤ h.qty * f.effect
  · simp only [if_pos hsame]
    exact ⟨trivial, rfl, by simp⟩
  · have hagainst := mt hside.mp hsame
    simp only [if_neg hsame]
    by_cases hpartial : f.effect.natAbs < h.qty.natAbs
    · simp only [if_pos hpartial]
      refine ⟨trivial, trivial, ?_⟩
      rw [← Int.natAbs_neg f.effect]
      exact hclose (-f.effect) (by omega)
    · simp only [if_neg hpartial]
      exact ⟨trivial, trivial, hclose h.qty (by omega)⟩

/-! ## Runs -/

/-- The fills as the holding takes them. -/
def trades (fills : List HedgeFill) : List (ℤ × ℚ) := fills.map fun f => (f.effect, f.price)

theorem qty_run_trades (fills : List HedgeFill) :
    (Holding.run (trades fills)).1.qty = effectSum fills := by
  rw [Holding.qty_run, trades, List.map_map]
  rfl

theorem NoOverflow.front {front : List HedgeFill} {f : HedgeFill}
    (h : NoOverflow (front ++ [f])) : NoOverflow front := by
  refine ⟨fun g hg => h.1 g (List.mem_append_left _ hg), fun start hstart => ?_⟩
  exact h.2 start (hstart.trans (List.prefix_append front [f]))

/-- The state after some fills keeps the books of the holding after them. -/
theorem runFills_refines (multiplier : ℚ) {fills : List HedgeFill} (h : NoOverflow fills) :
    Keeps multiplier (runFills multiplier .new fills) (Holding.run (trades fills)).1
      (Holding.run (trades fills)).2 := by
  induction fills using List.reverseRecOn with
  | nil => exact ⟨rfl, rat_zero, by simp [runFills, HedgeState.new, trades, Holding.run]⟩
  | append_singleton front f ih =>
      have hsum := h.2 (front ++ [f]) List.prefix_rfl
      have hmoved : effectSum (front ++ [f]) = (Holding.run (trades front)).1.qty + f.effect := by
        rw [qty_run_trades]
        simp [effectSum]
      rw [hmoved] at hsum
      have htrades : trades (front ++ [f]) = trades front ++ [(f.effect, f.price)] := by
        simp [trades]
      rw [htrades, Holding.run_concat, runFills, List.foldl_append]
      exact applyFill_refines (ih h.front) (h.1 f (by simp)) hsum

/-- The mark-to-market is the gain of the holding, at a positive mark. -/
theorem mtmUsd_eq_gain {multiplier : ℚ} {s : HedgeState ℚ} {h : Holding ℚ} {points : ℚ}
    (hkeeps : Keeps multiplier s h points) {mark : ℚ} (hmark : 0 < mark) :
    s.mtmUsd mark multiplier = h.gain mark * multiplier := by
  obtain ⟨hheld, havg, -⟩ := hkeeps
  have hpositive : F64.le mark (F64.zero : ℚ) = false := by
    rw [rat_zero]
    exact decide_eq_false hmark.not_ge
  unfold Hedge.HedgeState.mtmUsd Holding.gain
  rw [hpositive, hheld, havg]
  split
  · rename_i hflat
    have hzero : h.qty = 0 := by simpa using hflat
    rw [hzero, rat_zero]
    simp
  · rw [rat_ofInt]
    ring

/-- What some fills have gained at a mark, in points. -/
def gained (fills : List HedgeFill) (mark : ℚ) : ℚ :=
  (fills.map fun f => f.effect * (mark - f.price)).sum

/-- An average is never divided by zero. -/
theorem divisor_ne_zero (s : HedgeState ℚ) (isBuy : Bool) (qty : Nat) :
    divisor s isBuy qty ≠ some 0 := by
  unfold divisor
  dsimp only
  split
  · simp
  · rename_i hopen
    split
    · intro h
      have hzero : ((i32 (s.hedgeQty + signedQty isBuy qty) : Int) : ℚ) = 0 := Option.some.inj h
      exact hopen (Int.cast_eq_zero.mp hzero)
    · simp

/-- **Conservation.** After any fills that overflow nothing, the position is their
sum, a flat one has no average, no average on the way is divided by zero, and the
realized P&L with the mark-to-market at any positive mark is what the fills have
gained. -/
theorem hedge_pnl_conserved (multiplier : ℚ) (fills : List HedgeFill)
    (hfits : NoOverflow fills) :
    (runFills multiplier .new fills).hedgeQty = effectSum fills ∧
      (∀ front f back, fills = front ++ f :: back →
        divisor (runFills multiplier .new front) f.isBuy f.qty ≠ some 0) ∧
      ((runFills multiplier .new fills).hedgeQty = 0 →
        (runFills multiplier .new fills).avgEntryF = 0) ∧
      ∀ mark, 0 < mark →
        (runFills multiplier .new fills).realizedPnlUsd +
            (runFills multiplier .new fills).mtmUsd mark multiplier =
          gained fills mark * multiplier := by
  have hkeeps := runFills_refines multiplier hfits
  have hqty := qty_run_trades fills
  obtain ⟨hheld, havg, hrealized⟩ := id hkeeps
  refine ⟨hheld.trans hqty, fun front f _ _ => divisor_ne_zero _ _ _, fun hflat => ?_,
    fun mark hmark => ?_⟩
  · rw [havg]
    exact (Holding.run (trades fills)).1.flat (hheld.symm.trans hflat)
  · have hgain := Holding.gain_run (trades fills) mark
    have htrades : Holding.gained (trades fills) mark = gained fills mark := by
      rw [Holding.gained, trades, List.map_map]
      rfl
    rw [mtmUsd_eq_gain hkeeps hmark, hrealized, ← htrades, ← hgain]
    ring

/-- Three bought, five sold through zero, two bought back. -/
theorem hedge_pnl_conserved_crossing :
    let fills := [⟨true, 3, 6, 1⟩, ⟨false, 5, 7, 2⟩, ⟨true, 2, 5, 3⟩]
    NoOverflow fills ∧
      (runFills 25000 .new fills).hedgeQty = effectSum fills ∧
      (∀ front f back, fills = front ++ f :: back →
        divisor (runFills 25000 .new front) f.isBuy f.qty ≠ some 0) ∧
      ((runFills 25000 .new fills).hedgeQty = 0 → (runFills 25000 .new fills).avgEntryF = 0) ∧
      ∀ mark, 0 < mark →
        (runFills 25000 .new fills).realizedPnlUsd + (runFills 25000 .new fills).mtmUsd mark 25000 =
          gained fills mark * 25000 := by
  have hfits : NoOverflow [⟨true, 3, 6, 1⟩, ⟨false, 5, 7, 2⟩, ⟨true, 2, 5, 3⟩] := by
    refine ⟨by decide, fun front hfront => ?_⟩
    rw [← List.mem_inits] at hfront
    revert front
    decide
  exact ⟨hfits, hedge_pnl_conserved 25000 _ hfits⟩

end Corsair.Ports.HedgePnl
