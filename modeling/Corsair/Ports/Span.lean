import Mathlib.Algebra.BigOperators.Group.List.Basic
import Mathlib.Algebra.Order.Monoid.Unbundled.MinMax
import Mathlib.Data.List.Induction
import Mathlib.Tactic.Linarith
import Corsair.Verified.F64

/-!
# `corsair_pricing::span`: the margin of a portfolio

The loss of a portfolio is summed up in sixteen scenarios, two for each move of the forward with
the volatility up and down, and two extreme ones.  The margin is the largest of three: the worst
loss less the value of the options, a minimum for each short contract, and the premium paid for
the long ones.  `black76_price_inner` is a parameter, and the laws hold for every price.

The short contracts are counted in a `u64`, which wraps around.

## Main results

* `totals_eq_sum` — the sums of a portfolio are those of its positions.
* `scanRisk_le_iff` — the worst scenario as the least bound of all.
* `span_margin_laws` — permuting, splitting and joining portfolios.
-/

namespace Corsair.Ports.Span

open Corsair.Verified

/-- `SpanConfig`. -/
structure SpanConfig (F : Type) where
  upScanPct : F
  downScanPct : F
  volScanPct : F
  extremeMult : F
  extremeCover : F
  shortOptionMinimum : F
  multiplier : F

/-- A position: strike, right, time to expiry, implied volatility and signed quantity. -/
structure SpanPosition (F : Type) where
  strike : F
  right : Char
  tte : F
  iv : F
  qty : Int

/-- `PortfolioMargin`. -/
structure PortfolioMargin (F : Type) where
  scanRisk : F
  netOptionValue : F
  longPremium : F
  shortMinimum : F
  totalMargin : F
  worstScenario : Nat

/-- `black76_price_inner`: of the forward, the strike, the time, the volatility, the rate and
the right. -/
abbrev Price (F : Type) := F → F → F → F → F → Char → F

section Margin

variable {F : Type} [F64 F]

/-! ## The risk array of a position -/

/-- `PRICE_FRACS`. -/
def priceFracs : Vector F 14 :=
  let one : F := F64.lit 1 0
  let two : F := F64.lit 2 0
  let three : F := F64.lit 3 0
  #v[F64.zero, F64.zero, one / three, one / three, -one / three, -one / three,
    two / three, two / three, -two / three, -two / three, one, one, -one, -one]

/-- `VOL_SIGNS`. -/
def volSigns : Vector F 14 :=
  let up : F := F64.lit 1 0
  #v[up, -up, up, -up, up, -up, up, -up, up, -up, up, -up, up, -up]

/-- `position_risk_array`: the loss of one long contract in each scenario. -/
def positionRiskArray (price : Price F) (f k t iv : F) (right : Char) (cfg : SpanConfig F) :
    Vector F 16 :=
  if F64.le f F64.zero || F64.le t F64.zero || F64.le iv F64.zero then Vector.replicate 16 F64.zero
  else
    let base := price f k t iv F64.zero right
    let upScan := f * cfg.upScanPct
    let downScan := f * cfg.downScanPct
    let volScan := iv * cfg.volScanPct
    let loss (p : F) : F := -(p - base) * cfg.multiplier
    let scenario (i : Nat) (h : i < 14) : F :=
      let frac := priceFracs[i]
      let shift := if F64.ge frac F64.zero then frac * upScan else frac * downScan
      let fScen := F64.max (f + shift) (F64.lit 1 0)
      let ivScen := F64.max (iv + volSigns[i] * volScan) (F64.lit 1 2)
      loss (price fScen k t ivScen F64.zero right)
    let extreme (fScen : F) : F := loss (price fScen k t iv F64.zero right) * cfg.extremeCover
    Vector.ofFn fun i : Fin 16 =>
      if h : i < 14 then scenario i h
      else if i = 14 then extreme (F64.max (f + cfg.extremeMult * upScan) (F64.lit 1 0))
      else extreme (F64.max (f - cfg.extremeMult * downScan) (F64.lit 1 0))

/-! ## The margin of a portfolio -/

/-- What the loop over the positions sums up. -/
@[ext] structure Totals (F : Type) where
  portfolio : Vector F 16
  nov : F
  longPremium : F
  shortCount : Nat

/-- Before the first position. -/
def Totals.start : Totals F where
  portfolio := Vector.replicate 16 F64.zero
  nov := F64.zero
  longPremium := F64.zero
  shortCount := 0

/-- The position is passed over. -/
def SpanPosition.skipped (p : SpanPosition F) : Bool :=
  p.qty = 0 || F64.le p.tte F64.zero || F64.le p.iv F64.zero

/-- One position. -/
def Totals.add (price : Price F) (f : F) (cfg : SpanConfig F) (acc : Totals F)
    (p : SpanPosition F) : Totals F :=
  if p.skipped then acc
  else
    let ra := positionRiskArray price f p.strike p.tte p.iv p.right cfg
    let qtyF : F := F64.ofInt p.qty
    let base := price f p.strike p.tte p.iv F64.zero p.right
    { portfolio := Vector.zipWith (fun v r => v + r * qtyF) acc.portfolio ra
      nov := acc.nov + base * qtyF * cfg.multiplier
      longPremium :=
        if 0 < p.qty then acc.longPremium + base * qtyF * cfg.multiplier else acc.longPremium
      shortCount :=
        if 0 < p.qty then acc.shortCount else (acc.shortCount + p.qty.natAbs) % 2 ^ 64 }

def totals (price : Price F) (f : F) (positions : List (SpanPosition F)) (cfg : SpanConfig F) :
    Totals F :=
  positions.foldl (Totals.add price f cfg) .start

/-- The worst loss above zero, with its scenario, counted from 1. -/
def worst (portfolio : Vector F 16) : F × Nat :=
  portfolio.toList.zipIdx.foldl
    (fun best e => if F64.gt e.1 best.1 then (e.1, e.2 + 1) else best) (F64.zero, 0)

/-- The margin, from the sums. -/
def Totals.margin (t : Totals F) (cfg : SpanConfig F) : PortfolioMargin F :=
  let (maxV, maxIdx) := worst t.portfolio
  let scanRisk := F64.max maxV F64.zero
  let shortMin := F64.ofInt t.shortCount * cfg.shortOptionMinimum
  let riskMargin := F64.max (scanRisk - t.nov) F64.zero
  { scanRisk
    netOptionValue := t.nov
    longPremium := t.longPremium
    shortMinimum := shortMin
    totalMargin := F64.max (F64.max riskMargin shortMin) t.longPremium
    worstScenario := if F64.gt scanRisk F64.zero then maxIdx else 0 }

/-- `portfolio_margin`. -/
def portfolioMargin (price : Price F) (f : F) (positions : List (SpanPosition F))
    (cfg : SpanConfig F) : PortfolioMargin F :=
  (totals price f positions cfg).margin cfg

end Margin

/-! ## The sums, in exact arithmetic -/

section Sums

variable (price : Price ℚ) (f : ℚ) (cfg : SpanConfig ℚ)

/-- What a position adds in a scenario. -/
def risk (p : SpanPosition ℚ) (i : Fin 16) : ℚ :=
  if p.skipped then 0
  else (positionRiskArray price f p.strike p.tte p.iv p.right cfg)[i] * p.qty

/-- What it adds to the value of the options. -/
def value (p : SpanPosition ℚ) : ℚ :=
  if p.skipped then 0
  else price f p.strike p.tte p.iv F64.zero p.right * p.qty * cfg.multiplier

/-- What it adds to the premium paid. -/
def premium (p : SpanPosition ℚ) : ℚ := if 0 < p.qty then value price f cfg p else 0

/-- The short contracts in it. -/
def shorts (p : SpanPosition ℚ) : Nat := if p.skipped ∨ 0 < p.qty then 0 else p.qty.natAbs

theorem getElem_add (acc : Totals ℚ) (p : SpanPosition ℚ) (i : Fin 16) :
    (acc.add price f cfg p).portfolio[i] = acc.portfolio[i] + risk price f cfg p i := by
  unfold Totals.add risk
  split
  · rw [add_zero]
  · simp

theorem nov_add (acc : Totals ℚ) (p : SpanPosition ℚ) :
    (acc.add price f cfg p).nov = acc.nov + value price f cfg p := by
  unfold Totals.add value
  split
  · rw [add_zero]
  · rfl

theorem longPremium_add (acc : Totals ℚ) (p : SpanPosition ℚ) :
    (acc.add price f cfg p).longPremium = acc.longPremium + premium price f cfg p := by
  unfold Totals.add premium value
  split
  · simp
  · dsimp only
    split
    · rfl
    · rw [add_zero]

theorem shortCount_add (acc : Totals ℚ) (p : SpanPosition ℚ) :
    (acc.add price f cfg p).shortCount % 2 ^ 64 = (acc.shortCount + shorts p) % 2 ^ 64 := by
  unfold Totals.add shorts
  split
  · rename_i hskip
    rw [if_pos (.inl hskip), Nat.add_zero]
  · rename_i hskip
    dsimp only
    split
    · rename_i hlong
      rw [if_pos (.inr hlong), Nat.add_zero]
    · rename_i hshort
      rw [if_neg (not_or.mpr ⟨hskip, hshort⟩), Nat.mod_mod]

theorem shortCount_add_lt {acc : Totals ℚ} (h : acc.shortCount < 2 ^ 64) (p : SpanPosition ℚ) :
    (acc.add price f cfg p).shortCount < 2 ^ 64 := by
  unfold Totals.add
  split
  · exact h
  · dsimp only
    split
    · exact h
    · exact Nat.mod_lt _ (by decide)

/-- The count of the short contracts wraps around. -/
theorem shortCount_totals (positions : List (SpanPosition ℚ)) :
    (totals price f positions cfg).shortCount = (positions.map shorts).sum % 2 ^ 64 := by
  induction positions using List.reverseRecOn with
  | nil => rfl
  | append_singleton positions p ih =>
      have hlt : (totals price f positions cfg).shortCount < 2 ^ 64 := by
        rw [ih]
        exact Nat.mod_lt _ (by decide)
      have hadd := shortCount_add price f cfg (totals price f positions cfg) p
      rw [Nat.mod_eq_of_lt (shortCount_add_lt price f cfg hlt p), ih] at hadd
      rw [totals, List.foldl_append, List.map_append, List.sum_append, List.map_singleton,
        List.sum_singleton, ← Nat.mod_add_mod]
      exact hadd

/-- A part of the state to which each step adds its share is a sum. -/
theorem foldl_eq_sum {α β M : Type} [AddMonoid M] (part : β → M) {step : β → α → β} {share : α → M}
    (hstep : ∀ b a, part (step b a) = part b + share a) (as : List α) (b : β) :
    part (as.foldl step b) = part b + (as.map share).sum := by
  induction as generalizing b with
  | nil => exact (add_zero _).symm
  | cons a as ih => rw [List.foldl_cons, ih, hstep, List.map_cons, List.sum_cons, add_assoc]

/-- **The sums** over the positions. -/
theorem totals_eq_sum (positions : List (SpanPosition ℚ)) :
    totals price f positions cfg =
      { portfolio := Vector.ofFn fun i => (positions.map (risk price f cfg · i)).sum
        nov := (positions.map (value price f cfg)).sum
        longPremium := (positions.map (premium price f cfg)).sum
        shortCount := (positions.map shorts).sum % 2 ^ 64 } := by
  refine Totals.ext ?_ ?_ ?_ ?_
  · ext i hi
    have hsum := foldl_eq_sum (fun t : Totals ℚ => t.portfolio[i])
      (fun t p => getElem_add price f cfg t p ⟨i, hi⟩) positions .start
    rw [Vector.getElem_ofFn, totals, hsum]
    simp [Totals.start]
  · have hsum := foldl_eq_sum Totals.nov (nov_add price f cfg) positions .start
    rw [totals, hsum]
    simp [Totals.start]
  · have hsum := foldl_eq_sum Totals.longPremium (longPremium_add price f cfg) positions .start
    rw [totals, hsum]
    simp [Totals.start]
  · exact shortCount_totals price f cfg positions

/-! ## Permuting and splitting -/

/-- The order of the positions does not matter. -/
theorem totals_perm {positions positions' : List (SpanPosition ℚ)}
    (h : positions.Perm positions') :
    totals price f positions cfg = totals price f positions' cfg := by
  rw [totals_eq_sum, totals_eq_sum]
  refine Totals.ext ?_ ?_ ?_ ?_
  · exact congrArg Vector.ofFn (funext fun i => (h.map _).sum_eq)
  · exact (h.map _).sum_eq
  · exact (h.map _).sum_eq
  · exact congrArg (· % 2 ^ 64) (h.map _).sum_eq

/-- Two parts of a position, on its side. -/
def SameSide (q q' : Int) : Prop := 0 ≤ q ∧ 0 ≤ q' ∨ q ≤ 0 ∧ q' ≤ 0

/-- The position has no value left, whatever its quantity. -/
def SpanPosition.dead (p : SpanPosition ℚ) : Bool :=
  F64.le p.tte F64.zero || F64.le p.iv F64.zero

section Split

variable (p : SpanPosition ℚ) (q q' : Int)

/-- A share that the loop passes over is one of no quantity or of no worth. -/
theorem ite_skipped (x : ℚ) :
    (if ({ p with qty := q } : SpanPosition ℚ).skipped then 0 else x * q) =
      (if p.dead then 0 else x) * q := by
  unfold SpanPosition.skipped SpanPosition.dead
  by_cases hnone : q = 0
  · simp [hnone]
  · simp [hnone, ite_mul]

theorem risk_split (i : Fin 16) :
    risk price f cfg { p with qty := q + q' } i =
      risk price f cfg { p with qty := q } i + risk price f cfg { p with qty := q' } i := by
  unfold risk
  rw [ite_skipped p, ite_skipped p, ite_skipped p, Int.cast_add, mul_add]

theorem value_eq (q : Int) :
    value price f cfg { p with qty := q } =
      (if p.dead then 0 else price f p.strike p.tte p.iv F64.zero p.right) * q *
        cfg.multiplier := by
  unfold value
  rw [← ite_skipped p q, ite_mul, zero_mul]

theorem value_split :
    value price f cfg { p with qty := q + q' } =
      value price f cfg { p with qty := q } + value price f cfg { p with qty := q' } := by
  rw [value_eq, value_eq, value_eq, Int.cast_add, mul_add, add_mul]

theorem premium_of_nonneg {q : Int} (h : 0 ≤ q) :
    premium price f cfg { p with qty := q } = value price f cfg { p with qty := q } := by
  unfold premium
  split
  · rfl
  · rename_i hshort
    have hnone : q = 0 := le_antisymm (not_lt.mp hshort) h
    rw [value_eq, hnone, Int.cast_zero, mul_zero, zero_mul]

theorem premium_of_nonpos {q : Int} (h : q ≤ 0) :
    premium price f cfg { p with qty := q } = 0 := if_neg (not_lt.mpr h)

theorem premium_split (h : SameSide q q') :
    premium price f cfg { p with qty := q + q' } =
      premium price f cfg { p with qty := q } + premium price f cfg { p with qty := q' } := by
  rcases h with ⟨hq, hq'⟩ | ⟨hq, hq'⟩
  · rw [premium_of_nonneg price f cfg p hq, premium_of_nonneg price f cfg p hq',
      premium_of_nonneg price f cfg p (add_nonneg hq hq'), value_split]
  · rw [premium_of_nonpos price f cfg p hq, premium_of_nonpos price f cfg p hq',
      premium_of_nonpos price f cfg p (add_nonpos hq hq'), add_zero]

theorem shorts_of_nonneg {q : Int} (h : 0 ≤ q) : shorts { p with qty := q } = 0 := by
  unfold shorts
  split
  · rfl
  · rename_i hopen
    have hnone : q = 0 := le_antisymm (not_lt.mp (not_or.mp hopen).2) h
    exact Int.natAbs_eq_zero.mpr hnone

theorem shorts_of_nonpos {q : Int} (h : q ≤ 0) :
    shorts { p with qty := q } = if p.dead then 0 else q.natAbs := by
  unfold shorts SpanPosition.skipped SpanPosition.dead
  by_cases hnone : q = 0
  · simp [hnone]
  · simp [hnone, not_lt.mpr h]

theorem shorts_split (h : SameSide q q') :
    shorts { p with qty := q + q' } = shorts { p with qty := q } + shorts { p with qty := q' } := by
  rcases h with ⟨hq, hq'⟩ | ⟨hq, hq'⟩
  · rw [shorts_of_nonneg p hq, shorts_of_nonneg p hq', shorts_of_nonneg p (add_nonneg hq hq')]
  · rw [shorts_of_nonpos p hq, shorts_of_nonpos p hq', shorts_of_nonpos p (add_nonpos hq hq')]
    split
    · rfl
    · omega

end Split

/-- A share summed over a list in which a position is split. -/
theorem sum_split {M : Type} [AddCommMonoid M] (share : SpanPosition ℚ → M) {p : SpanPosition ℚ}
    {q q' : Int} (hshare : share { p with qty := q + q' } =
      share { p with qty := q } + share { p with qty := q' }) (front back : List (SpanPosition ℚ)) :
    ((front ++ { p with qty := q + q' } :: back).map share).sum =
      ((front ++ { p with qty := q } :: { p with qty := q' } :: back).map share).sum := by
  simp only [List.map_append, List.map_cons, List.sum_append, List.sum_cons, hshare, add_assoc]

/-- Nor does it matter how a position is split on its side. -/
theorem totals_split {p : SpanPosition ℚ} {q q' : Int} (h : SameSide q q')
    (front back : List (SpanPosition ℚ)) :
    totals price f (front ++ { p with qty := q + q' } :: back) cfg =
      totals price f (front ++ { p with qty := q } :: { p with qty := q' } :: back) cfg := by
  rw [totals_eq_sum, totals_eq_sum]
  refine Totals.ext ?_ ?_ ?_ ?_
  · exact congrArg Vector.ofFn (funext fun i => sum_split _ (risk_split price f cfg p q q' i) _ _)
  · exact sum_split _ (value_split price f cfg p q q') _ _
  · exact sum_split _ (premium_split price f cfg p q q' h) _ _
  · exact congrArg (· % 2 ^ 64) (sum_split _ (shorts_split p q q' h) _ _)

end Sums

/-! ## Joining portfolios -/

theorem foldl_worst_le_iff (es : List (ℚ × Nat)) (best : ℚ × Nat) (c : ℚ) :
    (es.foldl (fun best e => if F64.gt e.1 best.1 then (e.1, e.2 + 1) else best) best).1 ≤ c ↔
      best.1 ≤ c ∧ ∀ e ∈ es, e.1 ≤ c := by
  induction es generalizing best with
  | nil => simp
  | cons e es ih =>
      rw [List.foldl_cons, ih, List.forall_mem_cons, F64.gt, rat_lt]
      by_cases hworse : best.1 < e.1
      · rw [if_pos (decide_eq_true hworse)]
        exact ⟨fun h => ⟨hworse.le.trans h.1, h.1, h.2⟩, fun h => ⟨h.2.1, h.2.2⟩⟩
      · rw [if_neg (by simpa using hworse)]
        exact ⟨fun h => ⟨h.1, (not_lt.mp hworse).trans h.1, h.2⟩, fun h => ⟨h.1, h.2.2⟩⟩

/-- `scan_risk`. -/
def scanRisk (portfolio : Vector ℚ 16) : ℚ := max (worst portfolio).1 0

/-- **The worst scenario** is the least bound of all losses that is not negative. -/
theorem scanRisk_le_iff (portfolio : Vector ℚ 16) (c : ℚ) :
    scanRisk portfolio ≤ c ↔ 0 ≤ c ∧ ∀ i : Fin 16, portfolio[i] ≤ c := by
  have hall : (∀ e ∈ portfolio.toList.zipIdx, e.1 ≤ c) ↔ ∀ i : Fin 16, portfolio[i] ≤ c := by
    rw [← List.forall_mem_map (f := Prod.fst) (P := (· ≤ c)), List.zipIdx_map_fst]
    constructor
    · intro h i
      exact h _ (Vector.mem_toList_iff.mpr (Vector.getElem_mem i.isLt))
    · intro h loss hloss
      obtain ⟨i, hi, rfl⟩ := Vector.mem_iff_getElem.mp (Vector.mem_toList_iff.mp hloss)
      exact h ⟨i, hi⟩
  unfold scanRisk worst
  rw [max_le_iff, foldl_worst_le_iff, hall, rat_zero]
  exact ⟨fun h => h.1, fun h => ⟨h, h.1⟩⟩

theorem scanRisk_add_le {left right both : Vector ℚ 16}
    (hsum : ∀ i : Fin 16, both[i] = left[i] + right[i]) :
    scanRisk both ≤ scanRisk left + scanRisk right := by
  obtain ⟨hleft, hlefts⟩ := (scanRisk_le_iff left _).mp le_rfl
  obtain ⟨hright, hrights⟩ := (scanRisk_le_iff right _).mp le_rfl
  refine (scanRisk_le_iff both _).mpr ⟨add_nonneg hleft hright, fun i => ?_⟩
  rw [hsum]
  exact add_le_add (hlefts i) (hrights i)

/-- `total_margin`. -/
def totalMargin (t : Totals ℚ) (cfg : SpanConfig ℚ) : ℚ :=
  max (max (max (scanRisk t.portfolio - t.nov) 0) (t.shortCount * cfg.shortOptionMinimum))
    t.longPremium

theorem totalMargin_eq (t : Totals ℚ) (cfg : SpanConfig ℚ) :
    (t.margin cfg).totalMargin = totalMargin t cfg := by
  unfold Totals.margin totalMargin scanRisk
  simp only [rat_max, rat_zero, rat_ofInt, Int.cast_natCast]

theorem totalMargin_le_iff (t : Totals ℚ) (cfg : SpanConfig ℚ) (c : ℚ) :
    totalMargin t cfg ≤ c ↔
      scanRisk t.portfolio - t.nov ≤ c ∧ 0 ≤ c ∧ t.shortCount * cfg.shortOptionMinimum ≤ c ∧
        t.longPremium ≤ c := by
  unfold totalMargin
  rw [max_le_iff, max_le_iff, max_le_iff, and_assoc, and_assoc]

/-- **Sums of sums.** The margin of the sums of two portfolios is at most the sum of theirs. -/
theorem totalMargin_add_le {left right both : Totals ℚ} (cfg : SpanConfig ℚ)
    (hportfolio : ∀ i : Fin 16, both.portfolio[i] = left.portfolio[i] + right.portfolio[i])
    (hnov : both.nov = left.nov + right.nov)
    (hpremium : both.longPremium = left.longPremium + right.longPremium)
    (hshorts : both.shortCount ≤ left.shortCount + right.shortCount) :
    totalMargin both cfg ≤ totalMargin left cfg + totalMargin right cfg := by
  obtain ⟨hrisk, hzero, hmin, hlong⟩ := (totalMargin_le_iff left cfg _).mp le_rfl
  obtain ⟨hrisk', hzero', hmin', hlong'⟩ := (totalMargin_le_iff right cfg _).mp le_rfl
  refine (totalMargin_le_iff both cfg _).mpr ⟨?_, add_nonneg hzero hzero', ?_, ?_⟩
  · have hscan := scanRisk_add_le hportfolio
    rw [hnov]
    linarith
  · have hcount : (both.shortCount : ℚ) ≤ left.shortCount + right.shortCount := by
      exact_mod_cast hshorts
    rcases le_total 0 cfg.shortOptionMinimum with hpositive | hnegative
    · calc (both.shortCount : ℚ) * cfg.shortOptionMinimum
          ≤ (left.shortCount + right.shortCount) * cfg.shortOptionMinimum :=
            mul_le_mul_of_nonneg_right hcount hpositive
        _ ≤ totalMargin left cfg + totalMargin right cfg := by linarith
    · -- a minimum below zero is none
      exact (mul_nonpos_of_nonneg_of_nonpos (Nat.cast_nonneg _) hnegative).trans
        (add_nonneg hzero hzero')
  · rw [hpremium]
    exact add_le_add hlong hlong'

/-- The margin of two portfolios together is at most the sum of theirs. -/
theorem totalMargin_append_le (price : Price ℚ) (f : ℚ) (cfg : SpanConfig ℚ)
    (left right : List (SpanPosition ℚ)) :
    (portfolioMargin price f (left ++ right) cfg).totalMargin ≤
      (portfolioMargin price f left cfg).totalMargin +
        (portfolioMargin price f right cfg).totalMargin := by
  unfold portfolioMargin
  rw [totalMargin_eq, totalMargin_eq, totalMargin_eq, totals_eq_sum, totals_eq_sum, totals_eq_sum]
  refine totalMargin_add_le cfg (fun i => ?_) ?_ ?_ ?_
  · simp
  · simp
  · simp
  · simp only [List.map_append, List.sum_append]
    omega

/-- **The laws of the margin**, for every price: the order of the positions does not matter, nor
does splitting a position into two on its side, and joining portfolios never costs more than
their sum. -/
theorem span_margin_laws (price : Price ℚ) (f : ℚ) (cfg : SpanConfig ℚ) :
    (∀ positions positions' : List (SpanPosition ℚ), positions.Perm positions' →
        portfolioMargin price f positions cfg = portfolioMargin price f positions' cfg) ∧
      (∀ (front back : List (SpanPosition ℚ)) (p : SpanPosition ℚ) (q q' : Int), SameSide q q' →
        p.qty = q + q' →
          portfolioMargin price f (front ++ p :: back) cfg =
            portfolioMargin price f (front ++ { p with qty := q } :: { p with qty := q' } :: back)
              cfg) ∧
      ∀ left right : List (SpanPosition ℚ),
        (portfolioMargin price f (left ++ right) cfg).totalMargin ≤
          (portfolioMargin price f left cfg).totalMargin +
            (portfolioMargin price f right cfg).totalMargin := by
  refine ⟨fun positions positions' hperm => ?_, fun front back p q q' hside hqty => ?_,
    totalMargin_append_le price f cfg⟩
  · rw [portfolioMargin, totals_perm price f cfg hperm]
    rfl
  · have hwhole : p = { p with qty := q + q' } := by rw [← hqty]
    rw [hwhole, portfolioMargin, totals_split price f cfg hside]
    rfl

end Corsair.Ports.Span
