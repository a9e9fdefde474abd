import Corsair.Ports.Black76
import Corsair.Ports.LeastSquares

/-!
# `corsair_pricing`: the calibrators

`calibrate_sabr` and `calibrate_svi` run the solver from several guesses and keep the best
result.  The SABR calibrator prefers results that converged to others with a lower cost; the
SVI calibrator goes by the cost alone.  A fit whose residuals are too large is refused.

Both take the weights as they are given, scaled to sum to the number of points, when there is
one for each point and their sum is positive, and weigh all points alike otherwise.

## Main results

* `pick_spec`, `lowest_spec` — which result is kept.
* `sabr_fit`, `svi_fit` — what a fit says of itself, and when there is none.
* `interp_between` — an interpolated value lies between the values it is taken from.
-/

namespace Corsair.Ports.Calibrate

open Corsair.Verified
open Corsair.Ports.Black76
open Corsair.Ports.LeastSquares

attribute [local instance] realF64

section Code

variable {F : Type} [F64 F]

/-- The sum of a list. -/
def total (v : List F) : F := v.foldl (· + ·) F64.zero

/-- The weights that the residuals get. -/
def scaledWeights (n : Nat) (weights : Option (List F)) : List F :=
  match weights with
  | some weights =>
      if weights.length = n ∧ F64.gt (total weights) F64.zero then
        weights.map (· * (F64.ofInt n / total weights))
      else List.replicate n (F64.lit 1 0)
  | none => List.replicate n (F64.lit 1 0)

/-- `v[i]`, of an array that has an entry for every point. -/
def entry (v : List F) (i : Nat) : F := v.getD i F64.zero

/-- `rmse`. -/
def rmse (sqrt : F → F) {m : Nat} (r : Fin m → F) : F := sqrt (sumSquares r / F64.ofInt m)

variable (e : Elementary F)

/-! ## SABR -/

/-- `SabrFit`. -/
structure SabrFit (F : Type) where
  alpha : F
  beta : F
  rho : F
  nu : F
  rmse : F
  nPoints : Nat

/-- The point whose strike is nearest to the forward, the first of them. -/
def atmIdx (f : F) (strikes : List F) : Nat :=
  ((List.range strikes.length).drop 1).foldl
    (fun best i =>
      if F64.lt (F64.abs (entry strikes i - f)) (F64.abs (entry strikes best - f)) then i else best) 0

/-- `alpha_0`. -/
def alpha0 (f : F) (strikes marketIvs : List F) (beta : F) : F :=
  F64.max (entry marketIvs (atmIdx f strikes) * e.powf f (F64.lit 1 0 - beta)) (F64.lit 1 3)

/-- The residuals of SABR parameters. -/
def sabrResidual (f t beta : F) (strikes marketIvs w : List F) (p : Fin 3 → F)
    (i : Fin strikes.length) : F :=
  (sabrImpliedVol e f strikes[i] t (p 0) beta (p 1) (p 2) - entry marketIvs i) * entry w i

/-- `lb`. -/
def sabrLb : Fin 3 → F := ![F64.lit 1 4, -F64.lit 99 2, F64.lit 1 4]

/-- `ub`. -/
def sabrUb (alpha0 : F) : Fin 3 → F :=
  ![F64.max (F64.lit 10 0) (alpha0 * F64.lit 5 0), F64.lit 99 2, F64.lit 5 0]

/-- `initial_guesses`. -/
def sabrGuesses (alpha0 : F) : List (Fin 3 → F) :=
  [![alpha0, -F64.lit 3 1, F64.lit 3 1],
   ![alpha0, -F64.lit 5 1, F64.lit 5 1],
   ![alpha0, F64.zero, F64.lit 2 1],
   ![alpha0 * F64.lit 8 1, -F64.lit 2 1, F64.lit 4 1]]

variable {n m : Nat}

/-- The better of two results, the first of them where they cost the same. -/
def better (best : Option (LMResult F n m)) (res : LMResult F n m) : Option (LMResult F n m) :=
  match best with
  | none => some res
  | some b => if F64.lt res.cost b.cost then some res else some b

/-- `best_success` and `best_any`, over the results. -/
def pickBoth (results : List (LMResult F n m)) :
    Option (LMResult F n m) × Option (LMResult F n m) :=
  results.foldl
    (fun best res => (if res.success then better best.1 res else best.1, better best.2 res))
    (none, none)

/-- `best_success.or(best_any)`. -/
def pick (results : List (LMResult F n m)) : Option (LMResult F n m) :=
  (pickBoth results).1 <|> (pickBoth results).2

/-- The results of the guesses. -/
def sabrResults (f t : F) (strikes marketIvs : List F) (weights : Option (List F)) (beta : F) :
    List (LMResult F 3 strikes.length) :=
  let a := alpha0 e f strikes marketIvs beta
  (sabrGuesses a).map
    (lmSolve e.sqrt
      (sabrResidual e f t beta strikes marketIvs (scaledWeights strikes.length weights)) sabrLb
      (sabrUb a) 200)

/-- `calibrate_sabr`. -/
def calibrateSabr (f t : F) (strikes marketIvs : List F) (weights : Option (List F))
    (beta maxRmse : F) : Option (SabrFit F) :=
  if strikes.length < 3 ∨ marketIvs.length ≠ strikes.length ∨ F64.le t F64.zero ∨
      F64.le f F64.zero then none
  else do
    let best ← pick (sabrResults e f t strikes marketIvs weights beta)
    let rmse := rmse e.sqrt best.residuals
    if F64.gt rmse maxRmse then none
    else
      some
        { alpha := best.x 0, beta, rho := best.x 1, nu := best.x 2, rmse
          nPoints := strikes.length }

/-! ## SVI -/

/-- `SviFit`. -/
structure SviFit (F : Type) where
  a : F
  b : F
  rho : F
  m : F
  sigma : F
  rmse : F
  nPoints : Nat

/-- `interp1`, from a point of the arrays on. -/
def interpFrom (x : F) : List (F × F) → Option F
  | (x0, y0) :: (x1, y1) :: rest =>
      if F64.le x x1 then
        let dx := x1 - x0
        if F64.lt (F64.abs dx) (F64.lit 1 12) then some y0
        else some (y0 + (x - x0) / dx * (y1 - y0))
      else interpFrom x ((x1, y1) :: rest)
  | _ => none

/-- `interp1`, of arrays that are not empty. -/
def interp1 (first : F × F) (rest : List (F × F)) (x : F) : F :=
  let last := (first :: rest).getLast (List.cons_ne_nil first rest)
  if F64.le x first.1 then first.2
  else if F64.ge x last.1 then last.2
  else (interpFrom x (first :: rest)).getD last.2

/-- `ks`. -/
def logMoneyness (f : F) (strikes : List F) : List F := strikes.map fun k => e.ln (k / f)

/-- The interpolated total variance of the market at the forward; the points are sorted, those
with the same moneyness in their order. -/
def atmVar (f t : F) (strikes marketIvs : List F) : F :=
  let points := (logMoneyness e f strikes).zip (marketIvs.map fun iv => iv * iv * t)
  match points.mergeSort fun p q => F64.le p.1 q.1 with
  | [] => F64.zero
  | first :: rest => interp1 first rest F64.zero

/-- The residuals of SVI parameters. -/
def sviResidual (f t : F) (strikes marketIvs w : List F) (p : Fin 5 → F) (i : Fin strikes.length) :
    F :=
  let k := e.ln (strikes[i] / f)
  let modelIv := e.sqrt
    (F64.max (sviTotalVarianceInner e k (p 0) (p 1) (p 2) (p 3) (p 4)) (F64.lit 1 10) / t)
  (modelIv - entry marketIvs i) * entry w i

def sviLb : Fin 5 → F :=
  ![F64.zero, F64.lit 1 4, -F64.lit 99 2, -F64.lit 1 0, F64.lit 1 4]

def sviUb : Fin 5 → F :=
  ![F64.lit 5 0, F64.lit 5 0, F64.lit 99 2, F64.lit 1 0, F64.lit 2 0]

def sviGuesses (atmVar : F) : List (Fin 5 → F) :=
  [![atmVar, F64.lit 1 1, -F64.lit 3 1, F64.zero, F64.lit 1 1],
   ![atmVar, F64.lit 2 1, -F64.lit 5 1, F64.zero, F64.lit 5 2],
   ![atmVar * F64.lit 8 1, F64.lit 15 2, -F64.lit 2 1, -F64.lit 5 2, F64.lit 15 2],
   ![atmVar, F64.lit 5 2, -F64.lit 4 1, F64.lit 2 2, F64.lit 8 2],
   ![atmVar, F64.lit 1 1, -F64.lit 7 1, -F64.lit 1 1, F64.lit 3 1],
   ![atmVar * F64.lit 5 1, F64.lit 15 2, -F64.lit 6 1, -F64.lit 5 2, F64.lit 5 1],
   ![atmVar, F64.lit 8 2, -F64.lit 8 1, -F64.lit 15 2, F64.lit 4 1],
   ![atmVar * F64.lit 3 1, F64.lit 2 1, -F64.lit 5 1, F64.zero, F64.lit 6 1]]

/-- The results of the guesses. -/
def sviResults (f t : F) (strikes marketIvs : List F) (weights : Option (List F)) :
    List (LMResult F 5 strikes.length) :=
  (sviGuesses (atmVar e f t strikes marketIvs)).map
    (lmSolve e.sqrt
      (sviResidual e f t strikes marketIvs (scaledWeights strikes.length weights)) sviLb sviUb 500)

/-- `calibrate_svi`. -/
def calibrateSvi (f t : F) (strikes marketIvs : List F) (weights : Option (List F)) (maxRmse : F) :
    Option (SviFit F) :=
  if strikes.length < 5 ∨ marketIvs.length ≠ strikes.length ∨ F64.le t F64.zero ∨
      F64.le f F64.zero then none
  else do
    let best ← (sviResults e f t strikes marketIvs weights).foldl better none
    let rmse := rmse e.sqrt best.residuals
    if F64.gt rmse maxRmse then none
    else
      let (a, b, rho, m, sigma) := (best.x 0, best.x 1, best.x 2, best.x 3, best.x 4)
      if (logMoneyness e f strikes).any fun k =>
          F64.lt (sviTotalVarianceInner e k a b rho m sigma) F64.zero then none
      else some { a, b, rho, m, sigma, rmse, nPoints := strikes.length }

end Code

/-! ## The result that is kept -/

section Choice

variable {n m : Nat} {results : List (LMResult ℝ n m)}

/-- A result that no other one of the list is cheaper than. -/
def Lowest (results : List (LMResult ℝ n m)) (best : LMResult ℝ n m) : Prop :=
  best ∈ results ∧ ∀ r ∈ results, best.cost ≤ r.cost

theorem foldl_better (results : List (LMResult ℝ n m)) {first : LMResult ℝ n m} :
    ∃ best, results.foldl better (some first) = some best ∧ Lowest (first :: results) best := by
  induction results generalizing first with
  | nil => exact ⟨first, rfl, by simp [Lowest]⟩
  | cons r rest ih =>
      obtain ⟨best, hbest, hmem, hlow⟩ := @ih (if r.cost < first.cost then r else first)
      refine ⟨best, ?_, ?_, ?_⟩
      · rw [List.foldl_cons, ← hbest, better, real_lt]
        simp only [decide_eq_true_eq, apply_ite some]
      · rcases List.mem_cons.mp hmem with rfl | hmem
        · split_ifs <;> simp
        · exact List.mem_cons_of_mem _ (List.mem_cons_of_mem _ hmem)
      · have hfirst := hlow _ List.mem_cons_self
        have hmin : best.cost ≤ first.cost ∧ best.cost ≤ r.cost := by
          split_ifs at hfirst with hlt
          · exact ⟨hfirst.trans hlt.le, hfirst⟩
          · exact ⟨hfirst, hfirst.trans (not_lt.mp hlt)⟩
        intro r' hr'
        rcases List.mem_cons.mp hr' with rfl | hr'
        · exact hmin.1
        rcases List.mem_cons.mp hr' with rfl | hr'
        · exact hmin.2
        · exact hlow r' (List.mem_cons_of_mem _ hr')

/-- **The cheapest result is kept.** -/
theorem lowest_spec (h : results ≠ []) :
    ∃ best, results.foldl better none = some best ∧ Lowest results best := by
  cases results with
  | nil => exact absurd rfl h
  | cons first rest => exact foldl_better rest

theorem pickBoth_eq (results : List (LMResult ℝ n m)) :
    pickBoth results =
      ((results.filter (·.success)).foldl better none, results.foldl better none) := by
  have hfold (s a : Option (LMResult ℝ n m)) :
      results.foldl (fun best res =>
          (if res.success then better best.1 res else best.1, better best.2 res)) (s, a) =
        ((results.filter (·.success)).foldl better s, results.foldl better a) := by
    induction results generalizing s a with
    | nil => rfl
    | cons r rest ih =>
        rw [List.foldl_cons, ih, List.filter_cons, List.foldl_cons]
        split_ifs <;> rfl
  exact hfold none none

/-- **Converged results first**: of them the cheapest is kept, and the cheapest of all where
there are none. -/
def Kept (results : List (LMResult ℝ n m)) (best : LMResult ℝ n m) : Prop :=
  Lowest (results.filter (·.success)) best ∨
    results.filter (·.success) = [] ∧ Lowest results best

theorem pick_spec (h : results ≠ []) : ∃ best, pick results = some best ∧ Kept results best := by
  rw [pick, pickBoth_eq]
  by_cases hnone : results.filter (·.success) = []
  · obtain ⟨best, hbest, hlow⟩ := lowest_spec h
    refine ⟨best, ?_, .inr ⟨hnone, hlow⟩⟩
    rw [hnone, hbest]
    rfl
  · obtain ⟨best, hbest, hlow⟩ := lowest_spec hnone
    refine ⟨best, ?_, .inl hlow⟩
    rw [hbest]
    rfl

theorem Kept.mem {best : LMResult ℝ n m} (h : Kept results best) : best ∈ results := by
  rcases h with hconverged | ⟨-, hany⟩
  · exact List.mem_of_mem_filter hconverged.1
  · exact hany.1

end Choice

/-! ## Interpolation -/

theorem interpFrom_between {x lo hi : ℝ} {points : List (ℝ × ℝ)}
    (h : ∀ p ∈ points, lo ≤ p.2 ∧ p.2 ≤ hi) (hx : ∀ p ∈ points.head?, p.1 < x) :
    ∀ y ∈ interpFrom x points, lo ≤ y ∧ y ≤ hi := by
  induction points with
  | nil => simp [interpFrom]
  | cons p rest ih =>
      cases rest with
      | nil => simp [interpFrom]
      | cons q rest =>
          obtain ⟨x0, y0⟩ := p
          obtain ⟨x1, y1⟩ := q
          obtain ⟨hlo0, hhi0⟩ := h (x0, y0) (by simp)
          obtain ⟨hlo1, hhi1⟩ := h (x1, y1) (by simp)
          have hx0 : x0 < x := hx (x0, y0) rfl
          simp only [interpFrom, real_le, real_lt, real_abs, decide_eq_true_eq]
          split_ifs with hle hnarrow
          · intro y hy
            cases hy
            exact ⟨hlo0, hhi0⟩
          · intro y hy
            cases hy
            -- `t` is in `[0, 1]`, since the points before have a smaller abscissa
            have hwidth : 0 < x1 - x0 := by linarith
            have ht0 : 0 ≤ (x - x0) / (x1 - x0) := div_nonneg (by linarith) hwidth.le
            have ht1 : (x - x0) / (x1 - x0) ≤ 1 := (div_le_one hwidth).mpr (by linarith)
            generalize (x - x0) / (x1 - x0) = t at ht0 ht1 ⊢
            have hmix : y0 + t * (y1 - y0) = (1 - t) * y0 + t * y1 := by ring
            rw [hmix]
            constructor
            · nlinarith
            · nlinarith
          · refine ih (fun p hp => h p (List.mem_cons_of_mem _ hp)) fun p hp => ?_
            cases hp
            exact not_le.mp hle

/-- **An interpolated value lies between the values it is taken from**, wherever the point and
in whatever order the abscissae. -/
theorem interp_between {first : ℝ × ℝ} {rest : List (ℝ × ℝ)} {lo hi : ℝ} (x : ℝ)
    (h : ∀ p ∈ first :: rest, lo ≤ p.2 ∧ p.2 ≤ hi) :
    lo ≤ interp1 first rest x ∧ interp1 first rest x ≤ hi := by
  have hlast := h _ (List.getLast_mem (List.cons_ne_nil first rest))
  simp only [interp1, F64.ge, real_le, decide_eq_true_eq]
  split_ifs with hfirst hbeyond
  · exact h first List.mem_cons_self
  · exact hlast
  · cases hmid : interpFrom x (first :: rest) with
    | none => exact hlast
    | some y =>
        refine interpFrom_between h ?_ y hmid
        intro p hp
        cases hp
        exact not_le.mp hfirst

/-! ## What a fit says of itself -/

section Fits

theorem rmse_le_rmse {m : Nat} {r r' : Fin m → ℝ} (h : cost r ≤ cost r') :
    rmse Real.sqrt r ≤ rmse Real.sqrt r' := by
  have hhalf : (0 : ℝ) < F64.lit 5 1 := by
    rw [real_lit]
    norm_num
  have hsum : sumSquares r ≤ sumSquares r' := le_of_mul_le_mul_left h hhalf
  have hcount : (0 : ℝ) ≤ F64.ofInt m := Nat.cast_nonneg m
  exact Real.sqrt_le_sqrt (div_le_div_of_nonneg_right hsum hcount)

/-- What the solver leaves of one of the guesses. -/
theorem mem_solved {n m k : Nat} {f : (Fin n → ℝ) → Fin m → ℝ} {lb ub : Fin n → ℝ}
    {guesses : List (Fin n → ℝ)} {res : LMResult ℝ n m}
    (h : res ∈ guesses.map (lmSolve Real.sqrt f lb ub k)) :
    (∀ i, lb i ≤ ub i → lb i ≤ res.x i ∧ res.x i ≤ ub i) ∧ res.residuals = f res.x ∧
      res.cost = cost res.residuals := by
  obtain ⟨guess, -, rfl⟩ := List.mem_map.mp h
  have hrun := lmSolve_rounds f lb ub guess k
  exact ⟨fun i hi => lmSolve_mem f lb ub guess k hi, hrun.truthful.residuals, hrun.truthful.cost⟩

theorem sabrLb_le_sabrUb (alpha0 : ℝ) (i : Fin 3) : (sabrLb i : ℝ) ≤ sabrUb alpha0 i := by
  have hten : (1 / 10 ^ 4 : ℝ) ≤ 10 := by norm_num
  fin_cases i
  · simpa [sabrLb, sabrUb, real_lit] using .inl (by linarith)
  · norm_num [sabrLb, sabrUb, real_lit]
  · norm_num [sabrLb, sabrUb, real_lit]

theorem sviLb_le_sviUb (i : Fin 5) : (sviLb i : ℝ) ≤ sviUb i := by
  fin_cases i <;> norm_num [sviLb, sviUb, real_lit]

variable (f t : ℝ) (strikes marketIvs : List ℝ) (weights : Option (List ℝ))

theorem calibrateSabr_eq (beta maxRmse : ℝ) {best : LMResult ℝ 3 strikes.length}
    (h : pick (sabrResults realFunctions f t strikes marketIvs weights beta) = some best) :
    calibrateSabr realFunctions f t strikes marketIvs weights beta maxRmse =
      if strikes.length < 3 ∨ marketIvs.length ≠ strikes.length ∨ t ≤ 0 ∨ f ≤ 0 then none
      else if maxRmse < rmse Real.sqrt best.residuals then none
      else
        some
          { alpha := best.x 0, beta, rho := best.x 1, nu := best.x 2
            rmse := rmse Real.sqrt best.residuals, nPoints := strikes.length } := by
  simp only [calibrateSabr, h, real_le, real_zero, F64.gt, real_lt, decide_eq_true_eq]
  rfl

/-- The run that a fit is read off, with its parameters in their bounds. -/
theorem calibrateSabr_some {beta maxRmse : ℝ} {fit : SabrFit ℝ}
    (h : calibrateSabr realFunctions f t strikes marketIvs weights beta maxRmse = some fit) :
    (0 < t ∧ 0 < f) ∧ 3 ≤ strikes.length ∧
      (∃ best, Kept (sabrResults realFunctions f t strikes marketIvs weights beta) best ∧
        best.x = ![fit.alpha, fit.rho, fit.nu] ∧ fit.rmse = rmse Real.sqrt best.residuals) ∧
      fit.rmse ≤ maxRmse ∧
      (1 / 10 ^ 4 ≤ fit.alpha ∧
        fit.alpha ≤ max 10 (alpha0 realFunctions f strikes marketIvs beta * 5)) ∧
      |fit.rho| ≤ 99 / 10 ^ 2 ∧ (1 / 10 ^ 4 ≤ fit.nu ∧ fit.nu ≤ 5) ∧
      fit.beta = beta ∧ fit.nPoints = strikes.length := by
  have hruns : sabrResults realFunctions f t strikes marketIvs weights beta ≠ [] := by
    simp [sabrResults, sabrGuesses]
  obtain ⟨best, hpick, hkept⟩ := pick_spec hruns
  obtain ⟨hbounds, -, -⟩ := mem_solved hkept.mem
  have hx : best.x = ![best.x 0, best.x 1, best.x 2] := by
    funext i
    fin_cases i <;> rfl
  rw [calibrateSabr_eq f t strikes marketIvs weights beta maxRmse hpick] at h
  split_ifs at h with hguard hlimit
  obtain rfl := Option.some.inj h
  have hmem (i : Fin 3) := hbounds i (sabrLb_le_sabrUb _ i)
  obtain ⟨halpha, hrho, hnu⟩ := And.intro (hmem 0) (And.intro (hmem 1) (hmem 2))
  simp only [sabrLb, sabrUb, real_lit, real_max, Matrix.cons_val, Int.cast_one, Int.cast_ofNat,
    pow_zero, div_one] at halpha hrho hnu
  push Not at hguard
  obtain ⟨hcount, -, ht, hf⟩ := hguard
  exact ⟨⟨ht, hf⟩, hcount, ⟨best, hkept, hx, rfl⟩, not_lt.mp hlimit, halpha, abs_le.mpr hrho, hnu,
    rfl, rfl⟩

/-- **A SABR fit** is the result that is kept of the four runs.  It lies within the bounds, its
error is that of its own parameters, and it is not above the limit.  Without a fit there was too
little to go by, or the result that is kept has an error above the limit. -/
theorem sabr_fit (beta maxRmse : ℝ) :
    let results : List (LMResult ℝ 3 strikes.length) :=
      sabrResults realFunctions f t strikes marketIvs weights beta
    let residual := sabrResidual realFunctions f t beta strikes marketIvs
      (scaledWeights strikes.length weights)
    match calibrateSabr realFunctions f t strikes marketIvs weights beta maxRmse with
    | some fit =>
        (∃ best, Kept results best ∧ best.x = ![fit.alpha, fit.rho, fit.nu]) ∧
          fit.rmse = rmse Real.sqrt (residual ![fit.alpha, fit.rho, fit.nu]) ∧
          fit.rmse ≤ maxRmse ∧
          (1 / 10 ^ 4 ≤ fit.alpha ∧
            fit.alpha ≤ max 10 (alpha0 realFunctions f strikes marketIvs beta * 5)) ∧
          |fit.rho| ≤ 99 / 10 ^ 2 ∧ (1 / 10 ^ 4 ≤ fit.nu ∧ fit.nu ≤ 5) ∧
          fit.beta = beta ∧ fit.nPoints = strikes.length ∧ 3 ≤ fit.nPoints
    | none =>
        strikes.length < 3 ∨ marketIvs.length ≠ strikes.length ∨ t ≤ 0 ∨ f ≤ 0 ∨
          ∃ best, Kept results best ∧ maxRmse < rmse Real.sqrt best.residuals := by
  intro results residual
  cases h : calibrateSabr realFunctions f t strikes marketIvs weights beta maxRmse with
  | some fit =>
      obtain ⟨-, hcount, ⟨best, hkept, hx, hrmse⟩, hlimit, halpha, hrho, hnu, hbeta, hpoints⟩ :=
        calibrateSabr_some f t strikes marketIvs weights h
      obtain ⟨-, hresiduals, -⟩ := mem_solved hkept.mem
      refine ⟨⟨best, hkept, hx⟩, ?_, hlimit, halpha, hrho, hnu, hbeta, hpoints, hpoints ▸ hcount⟩
      rw [hrmse, hresiduals, hx]
  | none =>
      obtain ⟨best, hpick, hkept⟩ := pick_spec (show results ≠ [] by
        simp [results, sabrResults, sabrGuesses])
      rw [calibrateSabr_eq f t strikes marketIvs weights beta maxRmse hpick] at h
      split_ifs at h with hguard hlimit
      · tauto
      · exact .inr (.inr (.inr (.inr ⟨best, hkept, hlimit⟩)))

/-- The variance that the parameters of a fit give is positive at every strike, so that the code's
check of it at the strikes of the chain never refuses. -/
theorem svi_variance_pos {a b rho sigma : ℝ} (ha : 0 ≤ a) (hb : 0 < b) (hrho : |rho| < 1)
    (hsigma : 0 < sigma) (k m : ℝ) :
    0 < sviTotalVarianceInner realFunctions k a b rho m sigma := by
  have hroot : |k - m| < Real.sqrt ((k - m) * (k - m) + sigma * sigma) := by
    rw [← Real.sqrt_mul_self_eq_abs]
    exact Real.sqrt_lt_sqrt (mul_self_nonneg _) (by nlinarith)
  have hskew : -|k - m| ≤ rho * (k - m) := by
    have habs : |rho * (k - m)| ≤ |k - m| := by
      rw [abs_mul]
      exact mul_le_of_le_one_left (abs_nonneg _) hrho.le
    exact (abs_le.mp habs).1
  have hsum : 0 < rho * (k - m) + Real.sqrt ((k - m) * (k - m) + sigma * sigma) := by linarith
  have hscaled := mul_pos hb hsum
  show 0 < a + b * (rho * (k - m) + Real.sqrt ((k - m) * (k - m) + sigma * sigma))
  linarith

theorem calibrateSvi_eq (maxRmse : ℝ) {best : LMResult ℝ 5 strikes.length}
    (h : (sviResults realFunctions f t strikes marketIvs weights).foldl better none = some best) :
    calibrateSvi realFunctions f t strikes marketIvs weights maxRmse =
      if strikes.length < 5 ∨ marketIvs.length ≠ strikes.length ∨ t ≤ 0 ∨ f ≤ 0 then none
      else if maxRmse < rmse Real.sqrt best.residuals then none
      else if (logMoneyness realFunctions f strikes).any fun k =>
          decide (sviTotalVarianceInner realFunctions k (best.x 0) (best.x 1) (best.x 2) (best.x 3)
            (best.x 4) < 0) then none
      else
        some
          { a := best.x 0, b := best.x 1, rho := best.x 2, m := best.x 3, sigma := best.x 4
            rmse := rmse Real.sqrt best.residuals, nPoints := strikes.length } := by
  simp only [calibrateSvi, h, real_le, real_zero, F64.gt, real_lt, decide_eq_true_eq]
  rfl

/-- **An SVI fit** is no worse than any of the eight guesses.  It lies within the bounds, its
error is that of its own parameters and is not above the limit, and its variance is positive at
every strike.  Without a fit there was too little to go by, or no run got below the limit. -/
theorem svi_fit (maxRmse : ℝ) :
    let results : List (LMResult ℝ 5 strikes.length) :=
      sviResults realFunctions f t strikes marketIvs weights
    let residual := sviResidual realFunctions f t strikes marketIvs
      (scaledWeights strikes.length weights)
    match calibrateSvi realFunctions f t strikes marketIvs weights maxRmse with
    | some fit =>
        (∀ guess ∈ sviGuesses (atmVar realFunctions f t strikes marketIvs),
          fit.rmse ≤ rmse Real.sqrt (residual (project sviLb sviUb guess))) ∧
          fit.rmse = rmse Real.sqrt (residual ![fit.a, fit.b, fit.rho, fit.m, fit.sigma]) ∧
          fit.rmse ≤ maxRmse ∧
          (0 ≤ fit.a ∧ fit.a ≤ 5) ∧ (1 / 10 ^ 4 ≤ fit.b ∧ fit.b ≤ 5) ∧ |fit.rho| ≤ 99 / 10 ^ 2 ∧
          |fit.m| ≤ 1 ∧ (1 / 10 ^ 4 ≤ fit.sigma ∧ fit.sigma ≤ 2) ∧
          (∀ k, 0 < sviTotalVarianceInner realFunctions k fit.a fit.b fit.rho fit.m fit.sigma) ∧
          fit.nPoints = strikes.length ∧ 5 ≤ fit.nPoints
    | none =>
        strikes.length < 5 ∨ marketIvs.length ≠ strikes.length ∨ t ≤ 0 ∨ f ≤ 0 ∨
          ∀ res ∈ results, maxRmse < rmse Real.sqrt res.residuals := by
  intro results residual
  have hruns : results ≠ [] := by simp [results, sviResults, sviGuesses]
  obtain ⟨best, hbest, hmemBest, hlow⟩ := lowest_spec hruns
  have hsolved {res : LMResult ℝ 5 strikes.length} (h : res ∈ results) := mem_solved h
  obtain ⟨hbounds, hresiduals, hcost⟩ := hsolved hmemBest
  have hx : best.x = ![best.x 0, best.x 1, best.x 2, best.x 3, best.x 4] := by
    funext i
    fin_cases i <;> rfl
  have hleast {res : LMResult ℝ 5 strikes.length} (h : res ∈ results) :
      rmse Real.sqrt best.residuals ≤ rmse Real.sqrt res.residuals := by
    refine rmse_le_rmse ?_
    rw [← hcost, ← (hsolved h).2.2]
    exact hlow res h
  have hmem (i : Fin 5) := hbounds i (sviLb_le_sviUb i)
  obtain ⟨ha, hb, hrho, hm, hsigma⟩ :=
    And.intro (hmem 0) (And.intro (hmem 1) (And.intro (hmem 2) (And.intro (hmem 3) (hmem 4))))
  simp only [sviLb, sviUb, real_lit, real_zero, Matrix.cons_val, Int.cast_one, Int.cast_ofNat,
    pow_zero, div_one] at ha hb hrho hm hsigma
  have hpos (k : ℝ) : 0 < sviTotalVarianceInner realFunctions k (best.x 0) (best.x 1) (best.x 2)
      (best.x 3) (best.x 4) := by
    refine svi_variance_pos ha.1 (lt_of_lt_of_le (by norm_num) hb.1) ?_
      (lt_of_lt_of_le (by norm_num) hsigma.1) k _
    exact (abs_le.mpr hrho).trans_lt (by norm_num)
  rw [calibrateSvi_eq f t strikes marketIvs weights maxRmse hbest]
  split_ifs with hguard hlimit hnegative
  · tauto
  · exact .inr (.inr (.inr (.inr fun res hres => hlimit.trans_le (hleast hres))))
  · obtain ⟨k, -, hk⟩ := List.any_eq_true.mp hnegative
    exact absurd (of_decide_eq_true hk) (hpos k).not_gt
  · refine ⟨fun guess hguess => ?_, ?_, not_lt.mp hlimit, ha, hb, abs_le.mpr hrho, abs_le.mpr hm,
      hsigma, hpos, rfl, ?_⟩
    · have hcostGuess := (lmSolve_rounds residual sviLb sviUb guess 500).truthful.cost
      have hstart := lmSolve_cost_le residual sviLb sviUb guess 500
      exact (hleast (List.mem_map_of_mem hguess)).trans
        (rmse_le_rmse (hcostGuess.symm.trans_le hstart))
    · show rmse Real.sqrt best.residuals = _
      rw [hresiduals, ← hx]
    · show 5 ≤ strikes.length
      omega

end Fits

end Corsair.Ports.Calibrate
