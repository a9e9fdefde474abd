import Mathlib

/-!
# The standard normal law

Its distribution function is Mathlib's, of the Gaussian measure.  Here are its derivative, its
symmetry and its range, which is what the calculus of an option formula uses.

## Main results

* `hasDerivAt_cdf` — the derivative of the distribution function is the density.
* `cdf_neg` — the tails are alike.
-/

namespace Corsair.Verified.StdNormal

open MeasureTheory ProbabilityTheory Real

/-- The distribution function of the standard normal law. -/
noncomputable def cdf (x : ℝ) : ℝ := ProbabilityTheory.cdf (gaussianReal 0 1) x

/-- Its density. -/
noncomputable def pdf (x : ℝ) : ℝ := gaussianPDFReal 0 1 x

theorem pdf_eq (x : ℝ) : pdf x = (√(2 * π))⁻¹ * exp (-x ^ 2 / 2) := by
  simp [pdf, gaussianPDFReal]

theorem pdf_pos (x : ℝ) : 0 < pdf x := gaussianPDFReal_pos 0 1 x one_ne_zero

theorem continuous_pdf : Continuous pdf := by
  rw [funext pdf_eq]
  fun_prop

theorem cdf_eq_integral (x : ℝ) : cdf x = ∫ u in Set.Iic x, pdf u := by
  have hmeasure := gaussianReal_apply_eq_integral 0 one_ne_zero (Set.Iic x)
  have hnonneg : 0 ≤ ∫ u in Set.Iic x, gaussianPDFReal 0 1 u :=
    setIntegral_nonneg measurableSet_Iic fun u _ => gaussianPDFReal_nonneg 0 1 u
  rw [cdf, cdf_eq_real, Measure.real, hmeasure, ENNReal.toReal_ofReal hnonneg]
  rfl

theorem integrable_pdf : Integrable pdf := integrable_gaussianPDFReal 0 1

/-- Between two points the distribution function grows by the integral of the density. -/
theorem cdf_eq_add_integral (x : ℝ) : cdf x = cdf 0 + ∫ u in (0)..x, pdf u := by
  have h := intervalIntegral.integral_Iic_sub_Iic (integrable_pdf.integrableOn (s := Set.Iic 0))
    (integrable_pdf.integrableOn (s := Set.Iic x))
  rw [← cdf_eq_integral, ← cdf_eq_integral] at h
  rw [← h]
  ring

/-- **The derivative of the distribution function is the density.** -/
theorem hasDerivAt_cdf (x : ℝ) : HasDerivAt cdf (pdf x) x := by
  have hintegral : HasDerivAt (fun x => ∫ u in (0)..x, pdf u) (pdf x) x :=
    intervalIntegral.integral_hasDerivAt_right (continuous_pdf.intervalIntegrable 0 x)
      (continuous_pdf.stronglyMeasurableAtFilter volume (nhds x)) continuous_pdf.continuousAt
  rw [funext cdf_eq_add_integral]
  exact hintegral.const_add (cdf 0)

theorem cdf_nonneg (x : ℝ) : 0 ≤ cdf x := ProbabilityTheory.cdf_nonneg _ x

theorem cdf_le_one (x : ℝ) : cdf x ≤ 1 := ProbabilityTheory.cdf_le_one _ x

/-- **The tails are alike.** -/
theorem cdf_neg (x : ℝ) : cdf (-x) = 1 - cdf x := by
  have hmap : (gaussianReal 0 1).map (fun u => -u) = gaussianReal 0 1 := by
    rw [gaussianReal_map_neg, neg_zero]
  have hswap : (gaussianReal 0 1).real (Set.Iic (-x)) = (gaussianReal 0 1).real (Set.Ici x) := by
    conv_lhs => rw [← hmap]
    rw [map_measureReal_apply measurable_neg measurableSet_Iic]
    congr 1
    ext u
    simp
  have := nullSingletonClass_gaussianReal (μ := 0) one_ne_zero
  have hends : (gaussianReal 0 1).real (Set.Ici x) = (gaussianReal 0 1).real (Set.Ioi x) :=
    measureReal_congr Ioi_ae_eq_Ici.symm
  have hrest := probReal_compl_eq_one_sub (μ := gaussianReal 0 1) (measurableSet_Iic (a := x))
  rw [Set.compl_Iic] at hrest
  rw [cdf, cdf, cdf_eq_real, cdf_eq_real, hswap, hends, hrest]

end Corsair.Verified.StdNormal
