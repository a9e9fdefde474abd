import Corsair.Verified.Lognormal
import Corsair.Verified.RealNumbers
import Corsair.Ports.DecideOnTick
import Corsair.Ports.Span

/-!
# The pricing formulas of the two crates

`corsair_pricing` prices for the broker, `corsair_trader::pricing` for the trader.  Each has
its own Black-76 formula with its greeks and its own volatility surfaces, and the trader's are
written as mirrors of the other's.  The functions of the mathematics library are parameters;
`realFunctions` is what they stand for.

The density in `greeks.rs` carries the constant of the normal law as a literal of 16 digits;
the trader computes it.  `densityRatio` is the quotient.

The time decay of both crates leaves out the carry of the forward.  It is the derivative of the
price at a rate of zero, which is the rate that every caller passes.

## Main results

* `greeks_are_derivatives` — the trader's greeks against the derivatives of its price.
* `crates_agree` — what the broker computes is what the trader computes.
* `price_bounds` — a price leaves no arbitrage against the forward, and calls and puts are in
  parity.
-/

namespace Corsair.Ports.Black76

open Corsair.Verified
open Corsair.Verified.Lognormal (dPlus dMinus call put)
open Corsair.Ports.DecideOnTick (Greeks Pricing)
open Corsair.Ports.Span (Price)

attribute [local instance] realF64

section Formulas

variable {F : Type} [F64 F] (e : Elementary F)

/-! ## `corsair_pricing` -/

/-- `right == 'C' || right == 'c'`. -/
def isCall (right : Char) : Bool := right = 'C' || right = 'c'

/-- The first guard of the formulas. -/
def degenerate (f k t sigma : F) : Bool :=
  F64.le t F64.zero || F64.le sigma F64.zero || F64.le f F64.zero || F64.le k F64.zero

/-- The value at expiry. -/
def intrinsic (f k : F) (call : Bool) : F :=
  if call then F64.max (f - k) F64.zero else F64.max (k - f) F64.zero

def d1 (f k t sigma : F) : F :=
  (e.ln (f / k) + F64.lit 5 1 * sigma * sigma * t) / (sigma * e.sqrt t)

/-- `black76_price_inner`. -/
def black76PriceInner : Price F := fun f k t sigma r right =>
  let call := isCall right
  if degenerate f k t sigma then intrinsic f k call
  else
    let sqrtT := e.sqrt t
    let d1 := d1 e f k t sigma
    let d2 := d1 - sigma * sqrtT
    let df := e.exp (-r * t)
    if call then df * (f * e.normCdf d1 - k * e.normCdf d2)
    else df * (k * e.normCdf (-d2) - f * e.normCdf (-d1))

/-- `inv_sqrt_2pi`. -/
def invSqrt2pi : F := F64.lit 3989422804014327 16

/-- `norm_pdf`. -/
def normPdf (x : F) : F := invSqrt2pi * e.exp (-F64.lit 5 1 * x * x)

/-- `GreeksOut`. -/
structure GreeksOut (F : Type) where
  delta : F
  gamma : F
  theta : F
  vega : F
  iv : F

/-- The greeks of an option that is past its formula. -/
def intrinsicGreeks (f k sigma : F) (call : Bool) : GreeksOut F :=
  let intrinsicDelta : F :=
    if F64.gt f k then F64.lit 1 0 else if F64.lt f k then F64.zero else F64.lit 5 1
  { delta := if call then intrinsicDelta else intrinsicDelta - F64.lit 1 0
    gamma := F64.zero
    theta := F64.zero
    vega := F64.zero
    iv := sigma }

/-- `compute_greeks`. -/
def computeGreeks (f k t sigma r : F) (right : Char) (multiplier : F) : GreeksOut F :=
  let call := isCall right
  if F64.lt t (F64.lit 1 10) || F64.le sigma F64.zero || F64.le f F64.zero ||
      F64.le k F64.zero then
    intrinsicGreeks f k sigma call
  else
    let discount := e.exp (-r * t)
    let sqrtT := e.sqrt t
    let d1 := d1 e f k t sigma
    let d2 := d1 - sigma * sqrtT
    let nD1 := normPdf e d1
    let bigND1 := e.normCdf d1
    let bigND2 := e.normCdf d2
    let delta := if call then discount * bigND1 else discount * (bigND1 - F64.lit 1 0)
    let gamma := discount * nD1 / (f * sigma * sqrtT) * multiplier
    let common := -discount * f * nD1 * sigma / (F64.lit 2 0 * sqrtT)
    let theta :=
      if call then (common - r * k * discount * bigND2) / F64.lit 365 0
      else (common + r * k * discount * e.normCdf (-d2)) / F64.lit 365 0
    let thetaDollar := theta * multiplier
    let vega := f * discount * nD1 * sqrtT / F64.lit 100 0
    let vegaDollar := vega * multiplier
    if !F64.isFinite delta || !F64.isFinite gamma || !F64.isFinite thetaDollar ||
        !F64.isFinite vegaDollar then
      intrinsicGreeks f k sigma call
    else { delta, gamma, theta := thetaDollar, vega := vegaDollar, iv := sigma }

/-- `powi(2)`. -/
def powi2 (x : F) : F := x * x

/-- `powi(4)`. -/
def powi4 (x : F) : F := powi2 (powi2 x)

/-- `sabr_implied_vol`. -/
def sabrImpliedVol (f k t alpha beta rho nu : F) : F :=
  let one : F := F64.lit 1 0
  if F64.le t F64.zero || F64.le alpha F64.zero || F64.le f F64.zero || F64.le k F64.zero then
    if F64.gt alpha F64.zero then alpha else F64.lit 1 2
  else
    let eps : F := F64.lit 1 7
    if F64.lt (F64.abs (f - k)) (eps * f) then
      let fmidBeta := e.powf f (one - beta)
      let term1 := alpha / fmidBeta
      let p1 := powi2 (one - beta) / F64.lit 24 0 * alpha * alpha /
        e.powf f (F64.lit 2 0 - F64.lit 2 0 * beta)
      let p2 := F64.lit 25 2 * rho * beta * nu * alpha / fmidBeta
      let p3 := (F64.lit 2 0 - F64.lit 3 0 * rho * rho) * nu * nu / F64.lit 24 0
      term1 * (one + (p1 + p2 + p3) * t)
    else
      let fk := f * k
      let fkBeta := e.powf fk ((one - beta) / F64.lit 2 0)
      let logFk := e.ln (f / k)
      let z := nu / alpha * fkBeta * logFk
      let xz :=
        if F64.lt (F64.abs z) eps then one
        else
          let radicand := F64.max (one - F64.lit 2 0 * rho * z + z * z) F64.zero
          z / e.ln ((e.sqrt radicand + z - rho) / (one - rho))
      let oneMinusBeta := one - beta
      let denom1 := fkBeta *
        (one + powi2 oneMinusBeta / F64.lit 24 0 * powi2 logFk +
          powi4 oneMinusBeta / F64.lit 1920 0 * powi4 logFk)
      let p1 := powi2 oneMinusBeta / F64.lit 24 0 * alpha * alpha / e.powf fk oneMinusBeta
      let p2 := F64.lit 25 2 * rho * beta * nu * alpha / fkBeta
      let p3 := (F64.lit 2 0 - F64.lit 3 0 * rho * rho) * nu * nu / F64.lit 24 0
      let result := alpha / denom1 * xz * (one + (p1 + p2 + p3) * t)
      if F64.isFinite result && F64.gt result F64.zero then result else F64.max alpha (F64.lit 1 3)

/-- `svi_total_variance_inner`. -/
def sviTotalVarianceInner (k a b rho m sigma : F) : F :=
  let dk := k - m
  a + b * (rho * dk + e.sqrt (dk * dk + sigma * sigma))

/-- `svi_implied_vol`. -/
def sviImpliedVol (f kStrike t a b rho m sigma : F) : F :=
  if F64.le t F64.zero || F64.le kStrike F64.zero || F64.le f F64.zero then F64.zero
  else
    let w := sviTotalVarianceInner e (e.ln (kStrike / f)) a b rho m sigma
    if F64.le w F64.zero then F64.lit 1 3 else e.sqrt (w / t)

/-! ## `corsair_trader::pricing` -/

namespace Trader

/-- `black76_greeks`; `pi` is `std::f64::consts::PI`. -/
def black76Greeks (pi f k t sigma r : F) (right : Char) : Greeks F :=
  let call := isCall right
  if degenerate f k t sigma then
    { price := intrinsic f k call
      delta :=
        if call then
          if F64.gt f k then F64.lit 1 0 else if F64.lt f k then F64.zero else F64.lit 5 1
        else if F64.gt f k then F64.zero else if F64.lt f k then -F64.lit 1 0 else -F64.lit 5 1
      theta := F64.zero
      vega := F64.zero }
  else
    let sqrtT := e.sqrt t
    let d1 := d1 e f k t sigma
    let d2 := d1 - sigma * sqrtT
    let disc := if F64.feq r F64.zero then F64.lit 1 0 else e.exp (-r * t)
    let nD1 := e.normCdf d1
    let pdfD1 := e.exp (-F64.lit 5 1 * d1 * d1) / e.sqrt (F64.lit 2 0 * pi)
    let vega := f * disc * pdfD1 * sqrtT / F64.lit 100 0
    let common := -disc * f * pdfD1 * sigma / (F64.lit 2 0 * sqrtT)
    let theta :=
      if call then (common - r * k * disc * e.normCdf d2) / F64.lit 365 0
      else (common + r * k * disc * e.normCdf (-d2)) / F64.lit 365 0
    if call then
      { price := disc * (f * nD1 - k * e.normCdf d2), delta := disc * nD1, theta, vega }
    else
      { price := disc * (k * e.normCdf (-d2) - f * (F64.lit 1 0 - nD1))
        delta := disc * (nD1 - F64.lit 1 0), theta, vega }

/-- `sabr_implied_vol`. -/
def sabrImpliedVol (f k t alpha beta rho nu : F) : F :=
  let one : F := F64.lit 1 0
  if F64.le t F64.zero || F64.le alpha F64.zero || F64.le f F64.zero || F64.le k F64.zero then
    if F64.gt alpha F64.zero then alpha else F64.lit 1 2
  else
    let eps : F := F64.lit 1 7
    let oneMinusBeta := one - beta
    let oneMinusBetaSq := oneMinusBeta * oneMinusBeta
    let oneMinusBeta4 := oneMinusBetaSq * oneMinusBetaSq
    let rhoSq := rho * rho
    let nuSq := nu * nu
    let alphaSq := alpha * alpha
    let p3 := (F64.lit 2 0 - F64.lit 3 0 * rhoSq) * nuSq / F64.lit 24 0
    if F64.lt (F64.abs (f - k)) (eps * f) then
      let fmidBeta := e.powf f oneMinusBeta
      let term1 := alpha / fmidBeta
      let p1 := oneMinusBetaSq / F64.lit 24 0 * alphaSq / e.powf f (F64.lit 2 0 * oneMinusBeta)
      let p2 := F64.lit 25 2 * rho * beta * nu * alpha / fmidBeta
      term1 * (one + (p1 + p2 + p3) * t)
    else
      let fk := f * k
      let fkBeta := e.powf fk (F64.lit 5 1 * oneMinusBeta)
      let logFk := e.ln (f / k)
      let logFkSq := logFk * logFk
      let logFk4 := logFkSq * logFkSq
      let z := nu / alpha * fkBeta * logFk
      let xz :=
        if F64.lt (F64.abs z) eps then one
        else
          let radicand := F64.max (one - F64.lit 2 0 * rho * z + z * z) F64.zero
          z / e.ln ((e.sqrt radicand + z - rho) / (one - rho))
      let denom1 := fkBeta *
        (one + oneMinusBetaSq / F64.lit 24 0 * logFkSq + oneMinusBeta4 / F64.lit 1920 0 * logFk4)
      let p1 := oneMinusBetaSq / F64.lit 24 0 * alphaSq / e.powf fk oneMinusBeta
      let p2 := F64.lit 25 2 * rho * beta * nu * alpha / fkBeta
      let result := alpha / denom1 * xz * (one + (p1 + p2 + p3) * t)
      if F64.isFinite result && F64.gt result F64.zero then result else F64.max alpha (F64.lit 1 3)

/-- `svi_total_variance`. -/
def sviTotalVariance (k a b rho m sigma : F) : F :=
  let dk := k - m
  a + b * (rho * dk + e.sqrt (dk * dk + sigma * sigma))

/-- `svi_implied_vol`. -/
def sviImpliedVol (f kStrike t a b rho m sigma : F) : F :=
  if F64.le t F64.zero || F64.le kStrike F64.zero || F64.le f F64.zero then F64.zero
  else
    let w := sviTotalVariance e (e.ln (kStrike / f)) a b rho m sigma
    if F64.le w F64.zero then F64.lit 1 3 else e.sqrt (w / t)

/-- `crate::pricing`, as the decision code calls it. -/
def pricing (pi : F) : Pricing F where
  sviImpliedVol := Trader.sviImpliedVol e
  sabrImpliedVol := Trader.sabrImpliedVol e
  black76Greeks := Trader.black76Greeks e pi

end Trader

end Formulas

/-! ## The formulas, in exact arithmetic -/

/-- What the parameters stand for. -/
noncomputable def realFunctions : Elementary ℝ where
  sqrt := Real.sqrt
  ln := Real.log
  exp := Real.exp
  powf x y := x ^ y
  normCdf := StdNormal.cdf

@[simp] theorem realFunctions_sqrt : realFunctions.sqrt = Real.sqrt := rfl

@[simp] theorem realFunctions_ln : realFunctions.ln = Real.log := rfl

@[simp] theorem realFunctions_exp : realFunctions.exp = Real.exp := rfl

@[simp] theorem realFunctions_powf (x y : ℝ) : realFunctions.powf x y = x ^ y := rfl

@[simp] theorem realFunctions_normCdf : realFunctions.normCdf = StdNormal.cdf := rfl

section Real

variable {f k t sigma : ℝ} (r : ℝ) (right : Char)

/-- The value of an option at expiry, undiscounted. -/
noncomputable def forwardValue (right : Char) (f k w : ℝ) : ℝ :=
  if isCall right then call f k w else put f k w

theorem degenerate_iff (f k t sigma : ℝ) :
    degenerate f k t sigma = true ↔ t ≤ 0 ∨ sigma ≤ 0 ∨ f ≤ 0 ∨ k ≤ 0 := by
  simp [degenerate, or_assoc]

theorem not_degenerate (hf : 0 < f) (hk : 0 < k) (ht : 0 < t) (hsigma : 0 < sigma) :
    degenerate f k t sigma = false := by
  simp [degenerate, hf, hk, ht, hsigma]

theorem half : (F64.lit 5 1 : ℝ) = 1 / 2 := by
  rw [real_lit]
  norm_num

/-- The code's distance is the one of the deviation `sigma * √t`. -/
theorem d1_eq (ht : 0 < t) (hsigma : 0 < sigma) :
    d1 realFunctions f k t sigma = dPlus f k (sigma * √t) := by
  have hroot : √t * √t = t := Real.mul_self_sqrt ht.le
  have hpos : 0 < √t := Real.sqrt_pos.mpr ht
  show (Real.log (f / k) + F64.lit 5 1 * sigma * sigma * t) / (sigma * √t) = _
  rw [half, Lognormal.dPlus_eq, add_div]
  congr 1
  rw [div_eq_div_iff (by positivity) two_ne_zero]
  linear_combination -sigma ^ 2 * hroot

theorem black76PriceInner_eq (hf : 0 < f) (hk : 0 < k) (ht : 0 < t) (hsigma : 0 < sigma) :
    black76PriceInner realFunctions f k t sigma r right =
      Real.exp (-r * t) * forwardValue right f k (sigma * √t) := by
  rw [forwardValue, apply_ite (Real.exp (-r * t) * ·)]
  simp [black76PriceInner, not_degenerate hf hk ht hsigma, d1_eq ht hsigma, call, put, dMinus]

theorem black76PriceInner_degenerate (h : degenerate f k t sigma = true) :
    black76PriceInner realFunctions f k t sigma r right = intrinsic f k (isCall right) := by
  simp only [black76PriceInner, h, if_true]

/-- The discount of the trader's formula. -/
theorem disc_eq : (if F64.feq r 0 then 1 else Real.exp (-r * t)) = Real.exp (-r * t) := by
  rw [real_feq]
  by_cases hr : r = 0
  · simp [hr]
  · simp [hr]

theorem pdf_eq (x : ℝ) :
    Real.exp (-(1 / 2) * x * x) / √(2 * Real.pi) = StdNormal.pdf x := by
  have hexponent : -(1 / 2 : ℝ) * x * x = -x ^ 2 / 2 := by ring
  rw [hexponent, StdNormal.pdf_eq, div_eq_inv_mul]

/-- What the trader computes. -/
theorem traderGreeks_eq (hf : 0 < f) (hk : 0 < k) (ht : 0 < t) (hsigma : 0 < sigma) :
    Trader.black76Greeks realFunctions Real.pi f k t sigma r right =
      let w := sigma * √t
      let disc := Real.exp (-r * t)
      let density := StdNormal.pdf (dPlus f k w)
      { price := disc * forwardValue right f k w
        delta := disc * (if isCall right then StdNormal.cdf (dPlus f k w)
          else StdNormal.cdf (dPlus f k w) - 1)
        theta := (-disc * f * density * sigma / (2 * √t) +
          (if isCall right then -(r * k * disc * StdNormal.cdf (dMinus f k w))
            else r * k * disc * StdNormal.cdf (-dMinus f k w))) / 365
        vega := f * disc * density * √t / 100 } := by
  have hput (w : ℝ) : k * StdNormal.cdf (-(dPlus f k w - w)) - f * (1 - StdNormal.cdf (dPlus f k w)) =
      put f k w := by
    rw [put, dMinus, StdNormal.cdf_neg (dPlus f k w)]
  simp only [Trader.black76Greeks, not_degenerate hf hk ht hsigma, d1_eq ht hsigma,
    realFunctions_sqrt, realFunctions_exp, realFunctions_normCdf, real_zero, real_whole, half,
    Int.cast_one, Int.cast_ofNat, disc_eq, pdf_eq]
  by_cases hcall : isCall right = true
  · simp only [hcall, forwardValue, if_true, call, dMinus, ← sub_eq_add_neg]
    rfl
  · simp only [hcall, forwardValue, hput, dMinus]
    rfl

/-! ## Greeks and derivatives -/

/-- The delta of an undiscounted option. -/
noncomputable def forwardDelta (right : Char) (f k w : ℝ) : ℝ :=
  if isCall right then StdNormal.cdf (dPlus f k w) else StdNormal.cdf (dPlus f k w) - 1

theorem hasDerivAt_forwardValue {g w : ℝ → ℝ} {g' w' x : ℝ} (hg : HasDerivAt g g' x)
    (hw : HasDerivAt w w' x) (hgpos : 0 < g x) (hwpos : 0 < w x) (hk : 0 < k) :
    HasDerivAt (fun y => forwardValue right (g y) k (w y))
      (g' * forwardDelta right (g x) k (w x) +
        g x * StdNormal.pdf (dPlus (g x) k (w x)) * w') x := by
  have hcall := Lognormal.hasDerivAt_call hg hw hgpos hwpos hk
  unfold forwardValue forwardDelta
  split_ifs
  · exact hcall
  · have hparity : (fun y => put (g y) k (w y)) = fun y => call (g y) k (w y) - (g y - k) := by
      funext y
      rw [← Lognormal.call_sub_put (g y) k (w y)]
      ring
    rw [hparity]
    refine (hcall.sub (hg.sub_const k)).congr_deriv ?_
    ring

theorem eventually_pos {x : ℝ} (hx : 0 < x) : ∀ᶠ y in nhds x, 0 < y := lt_mem_nhds hx

theorem hasDerivAt_forwardDelta (w : ℝ) (hf : 0 < f) (hk : 0 < k) :
    HasDerivAt (fun x => forwardDelta right x k w)
      (StdNormal.pdf (dPlus f k w) / (f * w)) f := by
  have hquotient : f / k ≠ 0 := (div_pos hf hk).ne'
  have hlog : HasDerivAt (fun x => Real.log (x / k)) (1 / f) f := by
    refine (((hasDerivAt_id f).div_const k).log hquotient).congr_deriv ?_
    simp only [id_eq]
    field_simp
  have hcdf := (StdNormal.hasDerivAt_cdf (dPlus f k w)).comp f
    ((hlog.div_const w).add_const (w / 2))
  have hderiv : StdNormal.pdf (dPlus f k w) * (1 / f / w) =
      StdNormal.pdf (dPlus f k w) / (f * w) := by
    rw [div_div, mul_one_div]
  rw [← hderiv]
  unfold forwardDelta
  split_ifs
  · exact hcdf
  · exact hcdf.sub_const 1

/-- The broker's constant over the exact one. -/
noncomputable def densityRatio : ℝ := invSqrt2pi * √((2 : ℕ) * Real.pi)

theorem densityRatio_eq : densityRatio = invSqrt2pi * √(2 * Real.pi) := rfl

theorem normPdf_eq (x : ℝ) : normPdf realFunctions x = densityRatio * StdNormal.pdf x := by
  have hexponent : -(1 / 2 : ℝ) * x * x = -x ^ 2 / 2 := by ring
  have hroot : √(2 * Real.pi) ≠ 0 := (Real.sqrt_pos.mpr (by positivity)).ne'
  rw [normPdf, realFunctions_exp, half, hexponent, densityRatio_eq, StdNormal.pdf_eq]
  field_simp

theorem densityRatio_near : |densityRatio - 1| < 1 / 10 ^ 15 := by
  have hlit : (invSqrt2pi : ℝ) = 3989422804014327 / 10 ^ 16 := by
    rw [invSqrt2pi, real_lit]
    norm_num
  have hpos : 0 ≤ densityRatio := by
    rw [densityRatio_eq, hlit]
    positivity
  have hsq : densityRatio ^ 2 = (3989422804014327 / 10 ^ 16) ^ 2 * (2 * Real.pi) := by
    rw [densityRatio_eq, mul_pow, Real.sq_sqrt (by positivity), hlit]
  have hlow := Real.pi_gt_d20
  have hhigh := Real.pi_lt_d20
  rw [abs_lt]
  constructor
  · by_contra h
    have hle : densityRatio ≤ 1 - 1 / 10 ^ 15 := by linarith
    have hle' := pow_le_pow_left₀ hpos hle 2
    rw [hsq] at hle'
    norm_num at hle' hlow
    linarith
  · by_contra h
    have hge : 1 + 1 / 10 ^ 15 ≤ densityRatio := by linarith
    have hge' := pow_le_pow_left₀ (by positivity) hge 2
    rw [hsq] at hge'
    norm_num at hge' hhigh
    linarith

/-- What the broker computes. -/
theorem computeGreeks_eq (hf : 0 < f) (hk : 0 < k) (ht : 1 / 10 ^ 10 ≤ t) (hsigma : 0 < sigma)
    (multiplier : ℝ) :
    computeGreeks realFunctions f k t sigma r right multiplier =
      let w := sigma * √t
      let disc := Real.exp (-r * t)
      let density := densityRatio * StdNormal.pdf (dPlus f k w)
      { delta := disc * forwardDelta right f k w
        gamma := disc * density / (f * sigma * √t) * multiplier
        theta := (-disc * f * density * sigma / (2 * √t) +
          (if isCall right then -(r * k * disc * StdNormal.cdf (dMinus f k w))
            else r * k * disc * StdNormal.cdf (-dMinus f k w))) / 365 * multiplier
        vega := f * disc * density * √t / 100 * multiplier
        iv := sigma } := by
  have hpos : 0 < t := lt_of_lt_of_le (by positivity) ht
  have hmin : ¬ t < F64.lit 1 10 := by
    rw [real_lit, Int.cast_one]
    exact not_lt.mpr ht
  have hguard : (F64.lt t (F64.lit 1 10) || F64.le sigma F64.zero || F64.le f F64.zero ||
      F64.le k F64.zero) = false := by
    simp [hf, hk, hsigma, hmin]
  simp only [computeGreeks, hguard, d1_eq hpos hsigma, normPdf_eq, realFunctions_sqrt,
    realFunctions_exp, realFunctions_normCdf, real_whole, Int.cast_one, Int.cast_ofNat,
    real_isFinite, Bool.not_true, Bool.or_self, Bool.false_eq_true, if_false, forwardDelta, dMinus]
  by_cases hcall : isCall right = true
  · simp only [hcall, if_true, ← sub_eq_add_neg]
  · simp only [hcall, Bool.false_eq_true, if_false]

theorem traderPrice_eq (f k t sigma r : ℝ) (right : Char) :
    (Trader.black76Greeks realFunctions Real.pi f k t sigma r right).price =
      black76PriceInner realFunctions f k t sigma r right := by
  by_cases h : degenerate f k t sigma = true
  · simp only [black76PriceInner, Trader.black76Greeks, h, if_true]
  · rw [degenerate_iff] at h
    push Not at h
    obtain ⟨ht, hsigma, hf, hk⟩ := h
    rw [black76PriceInner_eq r right hf hk ht hsigma, traderGreeks_eq r right hf hk ht hsigma]

/-- The derivative of the price by the forward … -/
theorem hasDerivAt_price_forward (hf : 0 < f) (hk : 0 < k) (ht : 0 < t) (hsigma : 0 < sigma) :
    HasDerivAt (fun x => black76PriceInner realFunctions x k t sigma r right)
      (Real.exp (-r * t) * forwardDelta right f k (sigma * √t)) f := by
  have hw : 0 < sigma * √t := mul_pos hsigma (Real.sqrt_pos.mpr ht)
  have hvalue := (hasDerivAt_forwardValue right (hasDerivAt_id f)
    (hasDerivAt_const f (sigma * √t)) hf hw hk).const_mul (Real.exp (-r * t))
  refine (hvalue.congr_of_eventuallyEq ?_).congr_deriv ?_
  · filter_upwards [eventually_pos hf] with x hx using black76PriceInner_eq r right hx hk ht hsigma
  · simp

/-- … by the volatility … -/
theorem hasDerivAt_price_vol (hf : 0 < f) (hk : 0 < k) (ht : 0 < t) (hsigma : 0 < sigma) :
    HasDerivAt (fun x => black76PriceInner realFunctions f k t x r right)
      (f * Real.exp (-r * t) * StdNormal.pdf (dPlus f k (sigma * √t)) * √t) sigma := by
  have hw : 0 < sigma * √t := mul_pos hsigma (Real.sqrt_pos.mpr ht)
  have hvalue := (hasDerivAt_forwardValue right (hasDerivAt_const sigma f)
    ((hasDerivAt_id sigma).mul_const √t) hf hw hk).const_mul (Real.exp (-r * t))
  refine (hvalue.congr_of_eventuallyEq ?_).congr_deriv ?_
  · filter_upwards [eventually_pos hsigma] with x hx using black76PriceInner_eq r right hf hk ht hx
  · simp only [id_eq]
    ring

/-- … and by the time. -/
theorem hasDerivAt_price_time (hf : 0 < f) (hk : 0 < k) (ht : 0 < t) (hsigma : 0 < sigma) :
    HasDerivAt (fun x => black76PriceInner realFunctions f k x sigma r right)
      (Real.exp (-r * t) * (f * StdNormal.pdf (dPlus f k (sigma * √t)) * (sigma / (2 * √t)) -
        r * forwardValue right f k (sigma * √t))) t := by
  have hroot : 0 < √t := Real.sqrt_pos.mpr ht
  have hvalue := hasDerivAt_forwardValue right (hasDerivAt_const t f)
    ((Real.hasDerivAt_sqrt ht.ne').const_mul sigma) hf (mul_pos hsigma hroot) hk
  have hdisc : HasDerivAt (fun x => Real.exp (-r * x)) (Real.exp (-r * t) * -r) t :=
    ((hasDerivAt_id t).const_mul (-r)).exp.congr_deriv (by simp)
  refine ((hdisc.mul hvalue).congr_of_eventuallyEq ?_).congr_deriv ?_
  · filter_upwards [eventually_pos ht] with x hx using black76PriceInner_eq r right hf hk hx hsigma
  · ring

/-- **The trader's greeks are derivatives of its price**: delta by the forward, vega by a
hundredth of the volatility, and theta by a day off the time, but for the carry of the
forward.  Gamma is the broker's; it is the derivative of delta. -/
theorem greeks_are_derivatives (hf : 0 < f) (hk : 0 < k) (ht : 0 < t) (hsigma : 0 < sigma) :
    let price := fun f t sigma =>
      (Trader.black76Greeks realFunctions Real.pi f k t sigma r right).price
    let g := Trader.black76Greeks realFunctions Real.pi f k t sigma r right
    HasDerivAt (fun x => price x t sigma) g.delta f ∧
      HasDerivAt (fun x => price f t x) (100 * g.vega) sigma ∧
      HasDerivAt (fun x => price f x sigma) (-(365 * g.theta) - r * f * g.delta) t ∧
      ∃ gamma, HasDerivAt
          (fun x => (Trader.black76Greeks realFunctions Real.pi x k t sigma r right).delta) gamma f ∧
        ∀ multiplier, 1 / 10 ^ 10 ≤ t →
          (computeGreeks realFunctions f k t sigma r right multiplier).gamma =
            densityRatio * multiplier * gamma := by
  simp only [traderPrice_eq, traderGreeks_eq r right hf hk ht hsigma]
  refine ⟨hasDerivAt_price_forward r right hf hk ht hsigma, ?_, ?_,
    StdNormal.pdf (dPlus f k (sigma * √t)) * Real.exp (-r * t) / (f * (sigma * √t)), ?_,
    fun multiplier hmin => ?_⟩
  · refine (hasDerivAt_price_vol r right hf hk ht hsigma).congr_deriv ?_
    ring
  · refine (hasDerivAt_price_time r right hf hk ht hsigma).congr_deriv ?_
    have hput := StdNormal.cdf_neg (dMinus f k (sigma * √t))
    unfold forwardValue call put
    split_ifs
    · ring
    · rw [StdNormal.cdf_neg, StdNormal.cdf_neg]
      ring
  · have hdelta := (hasDerivAt_forwardDelta right (sigma * √t) hf hk).const_mul (Real.exp (-r * t))
    refine (hdelta.congr_of_eventuallyEq ?_).congr_deriv ?_
    · filter_upwards [eventually_pos hf] with x hx
      rw [traderGreeks_eq r right hx hk ht hsigma, forwardDelta]
    · ring
  · rw [computeGreeks_eq r right hf hk hmin hsigma]
    ring

/-- A call at the money, with a quarter of a year to go. -/
theorem delta_at_the_money :
    HasDerivAt
      (fun x => (Trader.black76Greeks realFunctions Real.pi x 6 (1 / 4) (3 / 10) 0 'C').price)
      (Trader.black76Greeks realFunctions Real.pi 6 6 (1 / 4) (3 / 10) 0 'C').delta 6 :=
  (greeks_are_derivatives 0 'C' (by norm_num) (by norm_num) (by norm_num) (by norm_num)).1

/-! ## The two crates -/

theorem sabr_agrees : sabrImpliedVol realFunctions = Trader.sabrImpliedVol realFunctions := by
  funext f k t alpha beta rho nu
  have hdouble : (2 : ℝ) - 2 * beta = 2 * (1 - beta) := by ring
  have hhalf : (1 - beta) / 2 = 1 / 2 * (1 - beta) := by ring
  simp only [sabrImpliedVol, Trader.sabrImpliedVol, powi2, powi4, real_whole, half, Int.cast_one,
    Int.cast_ofNat, hdouble, hhalf, mul_assoc]

/-- Past the formula, the price is what an exercise brings. -/
theorem degenerate_agrees (h : degenerate f k t sigma = true) (multiplier : ℝ) :
    let b := computeGreeks realFunctions f k t sigma r right multiplier
    let g := Trader.black76Greeks realFunctions Real.pi f k t sigma r right
    b.delta = g.delta ∧ b.vega = 0 ∧ g.vega = 0 ∧ b.theta = 0 ∧ g.theta = 0 := by
  have hguard : (F64.lt t (F64.lit 1 10) || F64.le sigma F64.zero || F64.le f F64.zero ||
      F64.le k F64.zero) = true := by
    have hmin : (0 : ℝ) < F64.lit 1 10 := by
      rw [real_lit]
      norm_num
    rcases (degenerate_iff f k t sigma).mp h with ht | hsigma | hf | hk
    · simp [ht.trans_lt hmin]
    · simp [hsigma]
    · simp [hf]
    · simp [hk]
  have hbroker : computeGreeks realFunctions f k t sigma r right multiplier =
      intrinsicGreeks f k sigma (isCall right) := if_pos hguard
  simp only [hbroker, Trader.black76Greeks, h, if_true, intrinsicGreeks, real_zero, real_whole,
    half, F64.gt, real_lt, decide_eq_true_eq, and_self, and_true]
  by_cases hcall : isCall right = true
  · simp only [hcall, if_true]
  · simp only [hcall, Bool.false_eq_true, if_false]
    split_ifs
    · norm_num
    · norm_num
    · norm_num

/-- **The broker and the trader price alike.**  The prices and the volatility surfaces are the
same for all arguments.  So is delta where the broker's greeks have their formula or the
option is past it.  Vega, and what theta has of the volatility, differ by the constants of the
density, which are close; without a rate that is all of theta. -/
theorem crates_agree (f k t sigma r : ℝ) (right : Char) (multiplier : ℝ) :
    let b : GreeksOut ℝ := computeGreeks realFunctions f k t sigma r right multiplier
    let g := Trader.black76Greeks realFunctions Real.pi f k t sigma r right
    black76PriceInner realFunctions f k t sigma r right = g.price ∧
      (t ≤ 0 ∨ 1 / 10 ^ 10 ≤ t →
        b.delta = g.delta ∧ b.vega = densityRatio * multiplier * g.vega ∧
          b.theta =
            multiplier * (g.theta - (densityRatio - 1) * (50 * sigma / (365 * t)) * g.vega) ∧
          (r = 0 → b.theta = densityRatio * multiplier * g.theta)) ∧
      |densityRatio - 1| < 1 / 10 ^ 15 ∧
      sabrImpliedVol realFunctions = Trader.sabrImpliedVol realFunctions ∧
      sviImpliedVol realFunctions = Trader.sviImpliedVol realFunctions := by
  have hsvi : sviImpliedVol realFunctions = Trader.sviImpliedVol realFunctions := rfl
  refine ⟨(traderPrice_eq f k t sigma r right).symm, fun ht => ?_, densityRatio_near, sabr_agrees,
    hsvi⟩
  by_cases h : degenerate f k t sigma = true
  · obtain ⟨hdelta, hbvega, hvega, hbtheta, htheta⟩ := degenerate_agrees r right h multiplier
    refine ⟨hdelta, ?_, ?_, fun _ => ?_⟩
    · rw [hbvega, hvega, mul_zero]
    · rw [hbtheta, htheta, hvega, mul_zero, sub_zero, mul_zero]
    · rw [hbtheta, htheta, mul_zero]
  · rw [degenerate_iff] at h
    push Not at h
    obtain ⟨hpos, hsigma, hf, hk⟩ := h
    have hmin : 1 / 10 ^ 10 ≤ t := ht.resolve_left (not_le.mpr hpos)
    rw [computeGreeks_eq r right hf hk hmin hsigma, traderGreeks_eq r right hf hk hpos hsigma]
    -- the decay of the volatility is a multiple of vega
    have hdecay (x : ℝ) : x * sigma / (2 * √t) = 50 * sigma / t * (x * √t / 100) := by
      have hsqrt : 0 < √t := Real.sqrt_pos.mpr hpos
      rw [div_mul_eq_mul_div, div_eq_div_iff (by positivity) hpos.ne']
      nth_rewrite 1 [← Real.mul_self_sqrt hpos.le]
      ring
    refine ⟨rfl, ?_, ?_, fun hr => ?_⟩
    · ring
    · simp only [neg_mul, neg_div, hdecay]
      ring
    · simp only [hr]
      split_ifs
      · ring
      · ring

/-! ## Bounds -/

/-- Where the formula applies, a price is above what an exercise brings. -/
theorem intrinsic_lt_price (hf : 0 < f) (hk : 0 < k) (ht : 0 < t) (hsigma : 0 < sigma) :
    Real.exp (-r * t) * intrinsic f k (isCall right) <
      black76PriceInner realFunctions f k t sigma r right := by
  have hw : 0 < sigma * √t := mul_pos hsigma (Real.sqrt_pos.mpr ht)
  rw [black76PriceInner_eq r right hf hk ht hsigma]
  refine mul_lt_mul_of_pos_left ?_ (Real.exp_pos _)
  unfold intrinsic forwardValue
  rw [real_max, real_max, real_zero]
  split_ifs
  · exact Lognormal.intrinsic_lt_call hf hk hw
  · exact Lognormal.intrinsic_lt_put hf hk hw

/-- The discount that a price carries. -/
noncomputable def discountOf (f k t sigma r : ℝ) : ℝ :=
  if degenerate f k t sigma then 1 else Real.exp (-r * t)

/-- **A price leaves no arbitrage.**  Calls and puts are in parity, for all arguments.  Where
the formula applies a call is worth more than its discounted intrinsic value and at most the
discounted forward, a put at most the discounted strike, and both grow with the volatility. -/
theorem price_bounds (f k t sigma r : ℝ) :
    let price := fun sigma right => black76PriceInner realFunctions f k t sigma r right
    let disc := discountOf f k t sigma r
    price sigma 'C' - price sigma 'P' = disc * (f - k) ∧
      disc * max (f - k) 0 ≤ price sigma 'C' ∧ disc * max (k - f) 0 ≤ price sigma 'P' ∧
      (degenerate f k t sigma = false →
        disc * max (f - k) 0 < price sigma 'C' ∧ price sigma 'C' ≤ disc * f ∧
          disc * max (k - f) 0 < price sigma 'P' ∧ price sigma 'P' ≤ disc * k ∧
          ∀ higher, sigma < higher →
            price sigma 'C' < price higher 'C' ∧ price sigma 'P' < price higher 'P') := by
  by_cases h : degenerate f k t sigma = true
  · have hdisc : discountOf f k t sigma r = 1 := if_pos h
    have hcall : black76PriceInner realFunctions f k t sigma r 'C' = max (f - k) 0 := by
      rw [black76PriceInner_degenerate r 'C' h]
      simp [intrinsic, isCall]
    have hput : black76PriceInner realFunctions f k t sigma r 'P' = max (k - f) 0 := by
      rw [black76PriceInner_degenerate r 'P' h]
      simp [intrinsic, isCall]
    simp only [hdisc, hcall, hput, one_mul]
    refine ⟨?_, le_refl _, le_refl _, fun hregular => ?_⟩
    · rcases le_total f k with hle | hle
      · rw [max_eq_right (sub_nonpos.mpr hle), max_eq_left (sub_nonneg.mpr hle)]
        ring
      · rw [max_eq_left (sub_nonneg.mpr hle), max_eq_right (sub_nonpos.mpr hle)]
        ring
    · rw [h] at hregular
      cases hregular
  · have hdisc : discountOf f k t sigma r = Real.exp (-r * t) := if_neg h
    rw [degenerate_iff] at h
    push Not at h
    obtain ⟨ht, hsigma, hf, hk⟩ := h
    have hroot : 0 < √t := Real.sqrt_pos.mpr ht
    have hexp : 0 < Real.exp (-r * t) := Real.exp_pos _
    have hcall {sigma : ℝ} (hsigma : 0 < sigma) :
        black76PriceInner realFunctions f k t sigma r 'C' =
          Real.exp (-r * t) * call f k (sigma * √t) :=
      black76PriceInner_eq r 'C' hf hk ht hsigma
    have hput {sigma : ℝ} (hsigma : 0 < sigma) :
        black76PriceInner realFunctions f k t sigma r 'P' =
          Real.exp (-r * t) * put f k (sigma * √t) :=
      black76PriceInner_eq r 'P' hf hk ht hsigma
    have hw : 0 < sigma * √t := mul_pos hsigma hroot
    have hcallLow := mul_lt_mul_of_pos_left (Lognormal.intrinsic_lt_call hf hk hw) hexp
    have hputLow := mul_lt_mul_of_pos_left (Lognormal.intrinsic_lt_put hf hk hw) hexp
    simp only [hdisc, hcall hsigma, hput hsigma]
    refine ⟨?_, hcallLow.le, hputLow.le, fun _ => ⟨hcallLow, ?_, hputLow, ?_, ?_⟩⟩
    · rw [← mul_sub, Lognormal.call_sub_put]
    · exact mul_le_mul_of_nonneg_left (Lognormal.call_le hf hk) hexp.le
    · exact mul_le_mul_of_nonneg_left (Lognormal.put_le hf hk) hexp.le
    · intro higher hhigher
      have hpos : 0 < higher := hsigma.trans hhigher
      have hmore : sigma * √t < higher * √t := mul_lt_mul_of_pos_right hhigher hroot
      rw [hcall hpos, hput hpos]
      exact ⟨mul_lt_mul_of_pos_left
          (Lognormal.strictMonoOn_call hf hk hw (mul_pos hpos hroot) hmore) hexp,
        mul_lt_mul_of_pos_left
          (Lognormal.strictMonoOn_put hf hk hw (mul_pos hpos hroot) hmore) hexp⟩

end Real

end Corsair.Ports.Black76
