import Corsair.Verified.Extended
import Corsair.Ports.DecideOnTick

/-!
# The risk gates: what they block and what they let through

`compute_risk_gates` answers for a tick, `improving_passes` for each of its sides.  Without a
usable risk state the first blocks all.  Otherwise a breach of the theta or of the delta
leaves the second to admit the fills that move the breached greek the other way, by the sign
of the fill's own greek.

Only theta and delta of the option are looked at, and only the sign of what a fill adds: a
fill may carry the delta past the other bound.  Where the ceiling is negative every delta is
past one of the two, and the upper one decides.

Doubles are exact numbers with the infinities and the not-a-number here (`Extended`).

## Main results

* `computeRiskGates_open` — what the gates found where they do not block all.
* `improvingPasses_true` — what the fill of a side that passes does to the greeks.
* `risk_gates_fail_closed_and_improve` — the two together.
-/

namespace Corsair.Ports.RiskGates

open Corsair.Verified
open Corsair.Ports.TraderState
open Corsair.Ports.DecideOnTick

/-! ## The two functions -/

section AnyDouble

variable {F : Type} [F64 F]

/-- The direction of a delta breach; the upper bound comes first. -/
def breachDir (snap : ScalarState F) (eff : F) : Option Int :=
  if F64.gt eff snap.deltaCeiling then some 1
  else if F64.lt eff (-snap.deltaCeiling) then some (-1)
  else none

/-- The theta is below a threshold that is in force. -/
def thetaBreached (snap : ScalarState F) : Bool :=
  F64.lt snap.thetaKill F64.zero && snap.riskTheta.any fun theta => F64.lt theta snap.thetaKill

/-- The age of the risk state in seconds. -/
def riskAgeS (snap : ScalarState F) (now : Nat) : F :=
  F64.ofInt (now - snap.riskStateAgeMonotonicNs : Nat) / F64.lit 1000000000 0

/-- **The gates.** Where they do not block all, the risk state has arrived, is fresh and
within the margin, and the breaches are those of its theta and delta. -/
theorem computeRiskGates_open {snap : ScalarState F} {now : Nat}
    (h : (computeRiskGates snap now).1.blockAll = false) :
    ∃ eff marginPct, snap.riskEffectiveDelta = some eff ∧ snap.riskMarginPct = some marginPct ∧
      0 < snap.riskStateAgeMonotonicNs ∧ F64.gt (riskAgeS snap now) riskStateStaleS = false ∧
      F64.ge marginPct snap.marginCeilingPct = false ∧
      (computeRiskGates snap now).1 = ⟨false, thetaBreached snap, breachDir snap eff⟩ := by
  obtain ⟨eff, heff⟩ : ∃ eff, snap.riskEffectiveDelta = some eff := by
    cases heff : snap.riskEffectiveDelta with
    | none => simp [computeRiskGates, heff] at h
    | some eff => exact ⟨eff, rfl⟩
  obtain ⟨marginPct, hmargin⟩ : ∃ marginPct, snap.riskMarginPct = some marginPct := by
    cases hmargin : snap.riskMarginPct with
    | none => simp [computeRiskGates, heff, hmargin] at h
    | some marginPct => exact ⟨marginPct, rfl⟩
  simp only [computeRiskGates, heff, hmargin] at h ⊢
  generalize hstale : (if snap.riskStateAgeMonotonicNs > 0 then _ else true) = stale at h ⊢
  generalize (if F64.gt snap.vegaKill F64.zero = true then _ else _) = vega at h ⊢
  split at h
  · cases h
  rename_i hfresh
  split at h
  · cases h
  rename_i hbreached
  split at h
  · cases h
  rename_i hvega
  rw [if_neg hfresh, if_neg hbreached, if_neg hvega]
  rw [Bool.not_eq_true] at hfresh hbreached
  rw [hfresh] at hstale
  split at hstale
  · rename_i hage
    refine ⟨eff, marginPct, rfl, rfl, hage, hstale, hbreached,
      congrArg (RiskGates.mk false · (breachDir snap eff)) ?_⟩
    unfold thetaBreached
    cases F64.lt snap.thetaKill F64.zero with
    | false => rfl
    | true => cases snap.riskTheta <;> rfl
  · cases hstale

/-- A fill of one lot. -/
def oneLot : Side → F
  | .buy => F64.lit 1 0
  | .sell => F64.lit (-1) 0

theorem improvingPasses_true {g : RiskGates} {side : Side} {gx : TheoGreeks F}
    (h : improvingPasses g side gx = true) :
    (F64.isFinite gx.theta = true ∧ F64.isFinite gx.delta = true) ∧
      (g.thetaBreach = true → F64.le (oneLot side * gx.theta) F64.zero = false) ∧
      ∀ dir, g.deltaBreachDir = some dir →
        F64.gt (F64.ofInt dir * (oneLot side * gx.delta)) F64.zero = false := by
  have h : (if !F64.isFinite gx.theta || !F64.isFinite gx.delta then false
      else if g.thetaBreach && F64.le (oneLot side * gx.theta) F64.zero then false
      else _) = true := h
  by_cases hfinite : !F64.isFinite gx.theta || !F64.isFinite gx.delta
  · rw [if_pos hfinite] at h
    cases h
  rw [if_neg hfinite] at h
  by_cases htheta : g.thetaBreach && F64.le (oneLot side * gx.theta) F64.zero
  · rw [if_pos htheta] at h
    cases h
  rw [if_neg htheta] at h
  refine ⟨by simpa using hfinite, fun hbreach => ?_, fun dir hdir => ?_⟩
  · rw [hbreach, Bool.true_and] at htheta
    exact Bool.eq_false_iff.mpr htheta
  · rw [hdir] at h
    have h : (!F64.gt (F64.ofInt dir * (oneLot side * gx.delta)) F64.zero) = true := h
    simpa using h

end AnyDouble

/-! ## Exact numbers -/

section Exact

variable {K : Type} [Field K] [LinearOrder K] [FloorRing K]

/-- The risk state is missing, was never received, is older than `riskStateStaleS`, or has the
margin at its ceiling or above. -/
def Unusable (snap : ScalarState (Extended K)) (now : Nat) : Prop :=
  snap.riskEffectiveDelta = none ∨ snap.riskMarginPct = none ∨
    snap.riskStateAgeMonotonicNs = 0 ∨ 5000000000 < now - snap.riskStateAgeMonotonicNs ∨
      ∃ marginPct ∈ snap.riskMarginPct, F64.le snap.marginCeilingPct marginPct = true

/-- The sign of a fill. -/
def lotSign : Side → K
  | .buy => 1
  | .sell => -1

theorem oneLot_eq (side : Side) : (oneLot side : Extended K) = .fin (lotSign side) := by
  cases side with
  | buy => exact (Extended.lit_whole 1).trans (by rw [Int.cast_one]; rfl)
  | sell => exact (Extended.lit_whole (-1)).trans (by rw [Int.cast_neg, Int.cast_one]; rfl)

variable [IsStrictOrderedRing K]

theorem stale_iff (snap : ScalarState (Extended K)) (now : Nat) :
    F64.gt (riskAgeS snap now) riskStateStaleS = true ↔
      5000000000 < now - snap.riskStateAgeMonotonicNs := by
  have hsecond : ((1000000000 : Int) : K) ≠ 0 := by norm_num
  have hage : riskAgeS snap now =
      Extended.fin
        (((now - snap.riskStateAgeMonotonicNs : Nat) : Int) / (1000000000 : Int) : K) := by
    rw [riskAgeS, Extended.lit_whole, Extended.ofInt_eq, Extended.div_fin _ hsecond]
  rw [hage, riskStateStaleS, Extended.lit_whole, F64.gt, Extended.lt_fin, decide_eq_true_iff]
  generalize now - snap.riskStateAgeMonotonicNs = age
  rw [lt_div_iff₀ (by norm_num), ← Int.cast_mul, Int.cast_lt]
  omega

/-- **Fail closed.** -/
theorem blockAll_of_unusable {snap : ScalarState (Extended K)} {now : Nat}
    (h : Unusable snap now) : (computeRiskGates snap now).1.blockAll = true := by
  by_contra hopen
  obtain ⟨eff, marginPct, heff, hmargin, hage, hfresh, hbelow, -⟩ :=
    computeRiskGates_open (Bool.eq_false_iff.mpr hopen)
  rcases h with hnone | hnone | hnever | hold | ⟨m, hm, hover⟩
  · cases heff.symm.trans hnone
  · cases hmargin.symm.trans hnone
  · omega
  · cases hfresh.symm.trans ((stale_iff snap now).mpr hold)
  · obtain rfl := Option.some.inj (hmargin.symm.trans hm)
    cases hbelow.symm.trans hover

omit [IsStrictOrderedRing K] in
/-- A fill that passes a theta breach adds to the theta. -/
theorem theta_of_passes {g : RiskGates} {side : Side} {gx : TheoGreeks (Extended K)}
    (h : improvingPasses g side gx = true) (hbreach : g.thetaBreach = true) :
    ∃ change : K, 0 < change ∧ oneLot side * gx.theta = .fin change := by
  obtain ⟨⟨hfinite, -⟩, htheta, -⟩ := improvingPasses_true h
  obtain ⟨theta, hvalue⟩ := Extended.isFinite_iff.mp hfinite
  have hchange := htheta hbreach
  rw [hvalue, oneLot_eq, Extended.mul_fin, Extended.zero_eq, Extended.le_fin,
    decide_eq_false_iff_not, not_le] at hchange
  exact ⟨_, hchange, by rw [hvalue, oneLot_eq, Extended.mul_fin]⟩

omit [IsStrictOrderedRing K] in
/-- A fill that passes a delta breach does not add to it. -/
theorem delta_of_passes {g : RiskGates} {side : Side} {gx : TheoGreeks (Extended K)} {dir : Int}
    (h : improvingPasses g side gx = true) (hbreach : g.deltaBreachDir = some dir) :
    ∃ change : K, (dir : K) * change ≤ 0 ∧ oneLot side * gx.delta = .fin change := by
  obtain ⟨⟨-, hfinite⟩, -, hdelta⟩ := improvingPasses_true h
  obtain ⟨delta, hvalue⟩ := Extended.isFinite_iff.mp hfinite
  have hchange := hdelta dir hbreach
  rw [hvalue, oneLot_eq, Extended.mul_fin, Extended.ofInt_eq, Extended.mul_fin, Extended.zero_eq,
    F64.gt, Extended.lt_fin, decide_eq_false_iff_not, not_lt] at hchange
  exact ⟨_, hchange, by rw [hvalue, oneLot_eq, Extended.mul_fin]⟩

/-- **The gates together.** Without a usable risk state all is blocked.  Otherwise a fill of
one lot that passes has a finite theta and delta, raises a finite theta of the portfolio that
is below a negative threshold, and does not raise a delta above the ceiling, nor lower one
that is below the ceiling's negative and not above the ceiling. -/
theorem risk_gates_fail_closed_and_improve (snap : ScalarState (Extended K)) (now : Nat)
    (side : Side) (gx : TheoGreeks (Extended K)) :
    let gates := (computeRiskGates snap now).1
    (Unusable snap now → gates.blockAll = true) ∧
      (gates.blockAll = false → improvingPasses gates side gx = true →
        (F64.isFinite gx.theta = true ∧ F64.isFinite gx.delta = true) ∧
        (∀ theta, snap.riskTheta = some theta → F64.isFinite theta = true →
          F64.lt snap.thetaKill F64.zero = true → F64.lt theta snap.thetaKill = true →
            ∀ multiplier : K, 0 < multiplier →
              F64.lt theta (theta + .fin multiplier * (oneLot side * gx.theta)) = true) ∧
        ∃ eff, snap.riskEffectiveDelta = some eff ∧
          (F64.gt eff snap.deltaCeiling = true →
            F64.le (eff + oneLot side * gx.delta) eff = true) ∧
          (F64.lt eff (-snap.deltaCeiling) = true → F64.gt eff snap.deltaCeiling = false →
            F64.le eff (eff + oneLot side * gx.delta) = true)) := by
  intro gates
  refine ⟨blockAll_of_unusable, fun hopen hpasses => ?_⟩
  obtain ⟨eff, marginPct, heff, -, -, -, -, hgates⟩ := computeRiskGates_open hopen
  have hthetaBreach : gates.thetaBreach = thetaBreached snap :=
    congrArg RiskGates.thetaBreach hgates
  have hdir : gates.deltaBreachDir = breachDir snap eff := congrArg RiskGates.deltaBreachDir hgates
  refine ⟨(improvingPasses_true hpasses).1, ?_, eff, heff, ?_, ?_⟩
  · intro theta htheta hfinite hkill hbelow multiplier hmultiplier
    obtain ⟨t, rfl⟩ := Extended.isFinite_iff.mp hfinite
    have hbreach : thetaBreached snap = true := by
      rw [thetaBreached, hkill, htheta, Option.any_some, hbelow]
      rfl
    obtain ⟨change, hchange, hvalue⟩ := theta_of_passes hpasses (hthetaBreach.trans hbreach)
    rw [hvalue, Extended.mul_fin]
    exact Extended.lt_add_fin t (mul_pos hmultiplier hchange)
  · intro habove
    obtain ⟨change, hchange, hvalue⟩ := delta_of_passes hpasses
      (hdir.trans (if_pos habove))
    rw [hvalue]
    refine Extended.add_fin_le (Extended.ne_nan_of_lt habove).2 ?_
    simpa using hchange
  · intro hbelow hnot
    obtain ⟨change, hchange, hvalue⟩ := delta_of_passes hpasses
      (hdir.trans ((if_neg (Bool.eq_false_iff.mp hnot)).trans (if_pos hbelow)))
    rw [hvalue]
    refine Extended.le_add_fin (Extended.ne_nan_of_lt hbelow).1 ?_
    simpa using hchange

end Exact

/-! A risk state that arrived one second ago, with the default ceiling of 3 and theta
threshold of -500. -/

def riskSnap (eff theta : Extended ℚ) : ScalarState (Extended ℚ) :=
  { ScalarState.new with
    riskEffectiveDelta := some eff
    riskMarginPct := some (.fin (1 / 10))
    riskTheta := some theta
    riskStateAgeMonotonicNs := 1000000000 }

/-- An option of this delta that costs one a day. -/
def greeksOf (delta vega : Extended ℚ) : TheoGreeks (Extended ℚ) :=
  { theo := .fin 1, delta := delta, theta := .fin (-1), vega := vega }

/-- The gates do not block all and the sale of one lot passes. -/
def Sells (snap : ScalarState (Extended ℚ)) (gx : TheoGreeks (Extended ℚ)) : Prop :=
  (computeRiskGates snap 2000000000).1.blockAll = false ∧
    improvingPasses (computeRiskGates snap 2000000000).1 .sell gx = true

instance (snap : ScalarState (Extended ℚ)) (gx : TheoGreeks (Extended ℚ)) :
    Decidable (Sells snap gx) := by
  unfold Sells
  infer_instance

/-- The delta after the sale of one lot. -/
def deltaAfter (eff : Extended ℚ) (gx : TheoGreeks (Extended ℚ)) : Extended ℚ :=
  eff + oneLot .sell * gx.delta

/-- A sale passes with a vega that is no number; with a theta of the portfolio of minus
infinity, which it leaves; with a negative ceiling and the delta below its negative, which it
lowers; and from just above the ceiling to far below its negative. -/
theorem sales_that_do_not_improve :
    (Sells (riskSnap (.fin 0) (.fin 0)) (greeksOf (.fin (1 / 2)) .nan) ∧
        F64.isFinite (greeksOf (.fin (1 / 2)) .nan).vega = false) ∧
      (Sells (riskSnap (.fin 0) .negInf) (greeksOf (.fin (1 / 2)) (.fin 1)) ∧
        F64.lt (.negInf : Extended ℚ) (.fin (-500)) = true ∧
        F64.lt .negInf (.negInf + oneLot .sell * (greeksOf (.fin (1 / 2)) (.fin 1)).theta) =
          false) ∧
      (let snap := { riskSnap (.fin 0) (.fin 0) with deltaCeiling := .fin (-1) }
        let gx := greeksOf (.fin (1 / 2)) (.fin 1)
        Sells snap gx ∧ F64.lt (.fin 0) (-snap.deltaCeiling) = true ∧
          F64.lt (deltaAfter (.fin 0) gx) (.fin 0) = true) ∧
      (let snap := { riskSnap (.fin (1 / 5)) (.fin 0) with deltaCeiling := .fin (1 / 10) }
        let gx := greeksOf (.fin (1 / 2)) (.fin 1)
        Sells snap gx ∧ F64.gt (.fin (1 / 5)) snap.deltaCeiling = true ∧
          F64.lt (deltaAfter (.fin (1 / 5)) gx) (-snap.deltaCeiling) = true) := by
  decide +kernel

theorem risk_gates_of_breach :
    let gx := greeksOf (.fin (1 / 2)) (.fin 1)
    F64.lt (.fin (-600)) (.fin (-600) + .fin 25000 * (oneLot .sell * gx.theta)) = true ∧
      F64.le (deltaAfter (.fin (31 / 10)) gx) (.fin (31 / 10)) = true := by
  intro gx
  obtain ⟨-, htheta, eff, heff, habove, -⟩ :=
    (risk_gates_fail_closed_and_improve (riskSnap (.fin (31 / 10)) (.fin (-600))) 2000000000
      .sell gx).2 (by decide +kernel) (by decide +kernel)
  obtain rfl : .fin (31 / 10) = eff := Option.some.inj heff
  exact ⟨htheta (.fin (-600)) rfl rfl (by decide +kernel) (by decide +kernel) 25000 (by norm_num),
    habove (by decide +kernel)⟩

end Corsair.Ports.RiskGates
