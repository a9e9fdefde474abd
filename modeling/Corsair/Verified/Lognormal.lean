import Corsair.Verified.StdNormal

/-!
# Options on a lognormal forward

The value at expiry of a call and a put on a forward `f` with strike `k`, where the logarithm
of the forward moves by a normal law of deviation `w`.  Rates and times are not here: a price
is one of these values, discounted, at the deviation of its time.

## Main results

* `hasDerivAt_call` — the derivative of a call along any path of forward and deviation.
* `call_sub_put` — parity.
* `intrinsic_le_call`, `call_le` — what a call is worth lies between its intrinsic value and
  the forward.
* `strictMonoOn_call` — it grows with the deviation.
-/

namespace Corsair.Verified.Lognormal

open Real Set Filter Topology
open Corsair.Verified.StdNormal

/-- The forward's distance above the strike, in deviations. -/
noncomputable def dPlus (f k w : ℝ) : ℝ := log (f / k) / w + w / (2 : ℕ)

theorem dPlus_eq (f k w : ℝ) : dPlus f k w = log (f / k) / w + w / 2 := rfl

noncomputable def dMinus (f k w : ℝ) : ℝ := dPlus f k w - w

noncomputable def call (f k w : ℝ) : ℝ := f * cdf (dPlus f k w) - k * cdf (dMinus f k w)

noncomputable def put (f k w : ℝ) : ℝ := k * cdf (-dMinus f k w) - f * cdf (-dPlus f k w)

/-- **Parity.** -/
theorem call_sub_put (f k w : ℝ) : call f k w - put f k w = f - k := by
  rw [call, put, cdf_neg, cdf_neg]
  ring

/-- A shift of the density. -/
theorem pdf_add (x w : ℝ) : pdf (x + w) = pdf x * exp (-(x * w + w ^ 2 / 2)) := by
  rw [pdf_eq, pdf_eq, mul_assoc, ← exp_add]
  congr 2
  ring

/-- Where the two densities of the formula meet. -/
theorem forward_mul_pdf {f k w : ℝ} (hf : 0 < f) (hk : 0 < k) (hw : 0 < w) :
    f * pdf (dPlus f k w) = k * pdf (dMinus f k w) := by
  have hexponent : -(dMinus f k w * w + w ^ 2 / 2) = -log (f / k) := by
    rw [dMinus, dPlus_eq]
    field_simp
    ring
  have hplus : dPlus f k w = dMinus f k w + w := by
    rw [dMinus]
    ring
  rw [hplus, pdf_add, hexponent, exp_neg, exp_log (div_pos hf hk)]
  field_simp

/-- **The derivative of a call**, where the forward and the deviation move together. -/
theorem hasDerivAt_call {g w : ℝ → ℝ} {g' w' x k : ℝ} (hg : HasDerivAt g g' x)
    (hw : HasDerivAt w w' x) (hgpos : 0 < g x) (hwpos : 0 < w x) (hk : 0 < k) :
    HasDerivAt (fun y => call (g y) k (w y))
      (g' * cdf (dPlus (g x) k (w x)) + g x * pdf (dPlus (g x) k (w x)) * w') x := by
  have hquotient : g x / k ≠ 0 := (div_pos hgpos hk).ne'
  obtain ⟨a', ha⟩ : ∃ a', HasDerivAt (fun y => dPlus (g y) k (w y)) a' x :=
    ⟨_, (((hg.div_const k).log hquotient).div hw hwpos.ne').add (hw.div_const 2)⟩
  have hplus := (hasDerivAt_cdf (dPlus (g x) k (w x))).comp x ha
  have hminus := (hasDerivAt_cdf (dMinus (g x) k (w x))).comp x (ha.sub hw)
  refine ((hg.mul hplus).sub (hminus.const_mul k)).congr_deriv ?_
  have hmeet := forward_mul_pdf hgpos hk hwpos
  simp only [Function.comp_apply]
  linear_combination (a' - w') * hmeet

theorem hasDerivAt_call_deviation {f k w : ℝ} (hf : 0 < f) (hk : 0 < k) (hw : 0 < w) :
    HasDerivAt (fun w => call f k w) (f * pdf (dPlus f k w)) w := by
  refine (hasDerivAt_call (hasDerivAt_const w f) (hasDerivAt_id w) hf hw hk).congr_deriv ?_
  simp

/-- **A call grows with the deviation.** -/
theorem strictMonoOn_call {f k : ℝ} (hf : 0 < f) (hk : 0 < k) :
    StrictMonoOn (fun w => call f k w) (Ioi 0) := by
  refine strictMonoOn_of_deriv_pos (convex_Ioi 0) ?_ ?_
  · exact fun w hw => (hasDerivAt_call_deviation hf hk hw).continuousAt.continuousWithinAt
  · intro w hw
    rw [interior_Ioi] at hw
    rw [(hasDerivAt_call_deviation hf hk hw).deriv]
    exact mul_pos hf (pdf_pos _)

/-! ## Bounds -/

theorem call_le {f k w : ℝ} (hf : 0 < f) (hk : 0 < k) : call f k w ≤ f := by
  have hplus : f * cdf (dPlus f k w) ≤ f := mul_le_of_le_one_right hf.le (cdf_le_one _)
  have hminus : 0 ≤ k * cdf (dMinus f k w) := mul_nonneg hk.le (cdf_nonneg _)
  rw [call]
  linarith

/-- What a call would be worth if it were exercised from another point on. -/
noncomputable def exercise (f k w x : ℝ) : ℝ := f * cdf (x + w) - k * cdf x

theorem exercise_dMinus (f k w : ℝ) : exercise f k w (dMinus f k w) = call f k w := by
  rw [exercise, call, dMinus, sub_add_cancel]

theorem hasDerivAt_exercise (f k w x : ℝ) :
    HasDerivAt (exercise f k w) (pdf x * (f * exp (-(x * w + w ^ 2 / 2)) - k)) x := by
  have hshift : HasDerivAt (fun x => cdf (x + w)) (pdf (x + w)) x :=
    ((hasDerivAt_cdf (x + w)).comp x ((hasDerivAt_id x).add_const w)).congr_deriv (mul_one _)
  refine ((hshift.const_mul f).sub ((hasDerivAt_cdf x).const_mul k)).congr_deriv ?_
  rw [pdf_add]
  ring

/-- The point of exercise is the best one. -/
theorem exercise_le_call {f k w : ℝ} (hf : 0 < f) (hk : 0 < k) (hw : 0 < w) (x : ℝ) :
    exercise f k w x ≤ call f k w := by
  have hcont : Continuous (exercise f k w) :=
    continuous_iff_continuousAt.mpr fun x => (hasDerivAt_exercise f k w x).continuousAt
  -- the slope is positive below the point of exercise and negative above it
  have hslope (x : ℝ) : f * exp (-(x * w + w ^ 2 / 2)) - k =
      k * (exp ((dMinus f k w - x) * w) - 1) := by
    have hsplit : -(x * w + w ^ 2 / 2) = -log (f / k) + (dMinus f k w - x) * w := by
      rw [dMinus, dPlus_eq]
      field_simp
      ring
    rw [hsplit, exp_add, exp_neg, exp_log (div_pos hf hk)]
    field_simp
  rw [← exercise_dMinus]
  rcases le_total x (dMinus f k w) with hx | hx
  · refine monotoneOn_of_deriv_nonneg (convex_Iic (dMinus f k w)) hcont.continuousOn ?_ ?_ hx
      self_mem_Iic hx
    · exact fun y _ => (hasDerivAt_exercise f k w y).differentiableAt.differentiableWithinAt
    · intro y hy
      rw [interior_Iic] at hy
      rw [(hasDerivAt_exercise f k w y).deriv, hslope]
      have hone : 1 ≤ exp ((dMinus f k w - y) * w) :=
        one_le_exp (mul_nonneg (sub_nonneg.mpr hy.le) hw.le)
      exact mul_nonneg (pdf_pos y).le (mul_nonneg hk.le (sub_nonneg.mpr hone))
  · refine antitoneOn_of_deriv_nonpos (convex_Ici (dMinus f k w)) hcont.continuousOn ?_ ?_
      self_mem_Ici hx hx
    · exact fun y _ => (hasDerivAt_exercise f k w y).differentiableAt.differentiableWithinAt
    · intro y hy
      rw [interior_Ici] at hy
      rw [(hasDerivAt_exercise f k w y).deriv, hslope]
      have hone : exp ((dMinus f k w - y) * w) ≤ 1 :=
        exp_le_one_iff.mpr (mul_nonpos_of_nonpos_of_nonneg (sub_nonpos.mpr hy.le) hw.le)
      exact mul_nonpos_of_nonneg_of_nonpos (pdf_pos y).le
        (mul_nonpos_of_nonneg_of_nonpos hk.le (sub_nonpos.mpr hone))

/-- **A call is worth its intrinsic value at least.** -/
theorem intrinsic_le_call {f k w : ℝ} (hf : 0 < f) (hk : 0 < k) (hw : 0 < w) :
    max (f - k) 0 ≤ call f k w := by
  have htop : Tendsto (exercise f k w) atTop (𝓝 (f * 1 - k * 1)) :=
    ((ProbabilityTheory.tendsto_cdf_atTop _).comp (tendsto_atTop_add_const_right _ w tendsto_id)
      |>.const_mul f).sub ((ProbabilityTheory.tendsto_cdf_atTop _).const_mul k)
  have hbot : Tendsto (exercise f k w) atBot (𝓝 (f * 0 - k * 0)) :=
    ((ProbabilityTheory.tendsto_cdf_atBot _).comp (tendsto_atBot_add_const_right _ w tendsto_id)
      |>.const_mul f).sub ((ProbabilityTheory.tendsto_cdf_atBot _).const_mul k)
  rw [mul_one, mul_one] at htop
  rw [mul_zero, mul_zero, sub_zero] at hbot
  exact max_le (le_of_tendsto' htop (exercise_le_call hf hk hw))
    (le_of_tendsto' hbot (exercise_le_call hf hk hw))

/-- It is worth more. -/
theorem intrinsic_lt_call {f k w : ℝ} (hf : 0 < f) (hk : 0 < k) (hw : 0 < w) :
    max (f - k) 0 < call f k w :=
  (intrinsic_le_call hf hk (half_pos hw)).trans_lt
    (strictMonoOn_call hf hk (half_pos hw) hw (half_lt_self hw))

/-! ## Puts -/

theorem put_eq (f k w : ℝ) : put f k w = call f k w - (f - k) := by
  rw [← call_sub_put f k w]
  ring

theorem intrinsic_lt_put {f k w : ℝ} (hf : 0 < f) (hk : 0 < k) (hw : 0 < w) :
    max (k - f) 0 < put f k w := by
  have hcall := intrinsic_lt_call hf hk hw
  have hmax : max (k - f) 0 = max (f - k) 0 - (f - k) := by
    rw [← max_sub_sub_right, sub_self, zero_sub, neg_sub, max_comm]
  rw [hmax, put_eq]
  linarith

theorem put_le {f k w : ℝ} (hf : 0 < f) (hk : 0 < k) : put f k w ≤ k := by
  have hcall : call f k w ≤ f := call_le hf hk
  rw [put_eq]
  linarith

theorem strictMonoOn_put {f k : ℝ} (hf : 0 < f) (hk : 0 < k) :
    StrictMonoOn (fun w => put f k w) (Ioi 0) := by
  intro w hw w' hw' hlt
  have hcall : call f k w < call f k w' := strictMonoOn_call hf hk hw hw' hlt
  show put f k w < put f k w'
  rw [put_eq, put_eq]
  linarith

end Corsair.Verified.Lognormal
