import Corsair.Ports.PositionBook

/-!
# `corsair_constraint::checker`: the gates before a fill

A proposed fill is checked against the hard kill limits, then against the rule that lets a
fill through which reduces a margin above its ceiling, and last against the soft bounds, each
with an exception for a fill that improves what it bounds.  The delta counts the hedge only
where the gating is on and the hedge is not known to be stale.

The count of stale hedges, which only the log reads, is left out.

## Main results

* `hardBounds_of_hardKill`, `strictBounds_of_strictGates` — what each tier lets through.
* `check_sound` — what is not rejected is within the bounds of its tier.
-/

namespace Corsair.Ports.ConstraintChecker

open Corsair.Verified
open Corsair.Ports.PositionBook (PortfolioState)

/-- `ConstraintConfig`. -/
structure ConstraintConfig (F : Type) where
  product : String
  capital : F
  marginCeilingPct : F
  deltaCeiling : F
  thetaFloor : F
  marginKillPct : F
  deltaKill : F
  thetaKill : F
  effectiveDeltaGating : Bool
  marginEscapeEnabled : Bool

/-- `ConstraintCheck`, without the leg, which no gate reads. -/
structure ConstraintCheck (F : Type) where
  optionDeltaPerContract : F
  optionThetaPerContract : F
  fillQtySigned : Int
  multiplier : F
  curMargin : F
  postMargin : F
  curLongPremium : F
  postLongPremium : F
  hedgeQty : Int
  hedgeStateFresh : Option Bool

/-- `GateOutcome`. -/
inductive GateOutcome
  | accepted
  | rejected (reason detail : String)
  | acceptedMarginEscape (detail : String)
  deriving DecidableEq, Repr

/-- `is_accepted`. -/
def GateOutcome.isAccepted : GateOutcome → Bool
  | .accepted | .acceptedMarginEscape _ => true
  | .rejected _ _ => false

variable {F : Type} [F64 F]

/-- `margin_ceiling`. -/
def ConstraintConfig.marginCeiling (cfg : ConstraintConfig F) : F :=
  cfg.capital * cfg.marginCeilingPct

/-- `margin_kill`. -/
def ConstraintConfig.marginKill (cfg : ConstraintConfig F) : F := cfg.capital * cfg.marginKillPct

/-- `{:+.n}`: a number with its sign. -/
def signedFixed (places : Nat) (x : F) : String :=
  let text := F64.fixed places x
  if F64.isNan x ∨ text.startsWith "-" then text else "+" ++ text

/-! ## Before and after the fill -/

/-- `theta_for_product`. -/
def thetaForProduct (s : PortfolioState F) (product : String) : F :=
  (s.positions.filter (·.product = product)).foldl
    (fun total p => total + p.theta * F64.ofInt p.quantity) F64.zero

/-- `trust_hedge`; a caller that says nothing of the freshness is trusted. -/
def trustHedge (cfg : ConstraintConfig F) (c : ConstraintCheck F) : Bool :=
  cfg.effectiveDeltaGating && c.hedgeStateFresh.getD true

def effectiveHedgeQty (cfg : ConstraintConfig F) (c : ConstraintCheck F) : Int :=
  if trustHedge cfg c then c.hedgeQty else 0

def curDelta (cfg : ConstraintConfig F) (portfolio : PortfolioState F) (c : ConstraintCheck F) :
    F :=
  portfolio.deltaForProduct cfg.product + F64.ofInt (effectiveHedgeQty cfg c)

def postDelta (cfg : ConstraintConfig F) (portfolio : PortfolioState F) (c : ConstraintCheck F) :
    F :=
  curDelta cfg portfolio c + c.optionDeltaPerContract * F64.ofInt c.fillQtySigned

def curTheta (cfg : ConstraintConfig F) (portfolio : PortfolioState F) : F :=
  thetaForProduct portfolio cfg.product

def postTheta (cfg : ConstraintConfig F) (portfolio : PortfolioState F) (c : ConstraintCheck F) :
    F :=
  curTheta cfg portfolio +
    c.optionThetaPerContract * c.multiplier * F64.ofInt c.fillQtySigned

/-! ## The tiers -/

/-- The hard kill limits, which always bind: the reason of a rejection and its text. -/
def hardKill (cfg : ConstraintConfig F) (portfolio : PortfolioState F) (c : ConstraintCheck F) :
    Option (String × String) :=
  let postDelta := postDelta cfg portfolio c
  let postTheta := postTheta cfg portfolio c
  if F64.gt c.postMargin cfg.marginKill then
    some ("margin_kill", "margin_kill: post=$" ++ F64.fixed 0 c.postMargin ++
      " > kill=$" ++ F64.fixed 0 cfg.marginKill)
  else if F64.gt (F64.abs postDelta) cfg.deltaKill then
    some ("delta_kill", "delta_kill: post=" ++ signedFixed 2 postDelta ++
      " > ±" ++ F64.fixed 1 cfg.deltaKill)
  else if F64.lt cfg.thetaKill F64.zero && F64.lt postTheta cfg.thetaKill then
    some ("theta_kill", "theta_kill: post=$" ++ F64.fixed 0 postTheta ++
      " < $" ++ F64.fixed 0 cfg.thetaKill)
  else none

/-- The long premium after the fill is more than the capital, and more than before. -/
def premiumBreached (cfg : ConstraintConfig F) (c : ConstraintCheck F) : Bool :=
  F64.gt c.postLongPremium cfg.capital && F64.gt c.postLongPremium c.curLongPremium

/-- The rule applies to fills that reduce a margin above its ceiling. -/
def escapes (cfg : ConstraintConfig F) (c : ConstraintCheck F) : Bool :=
  cfg.marginEscapeEnabled && F64.gt c.curMargin cfg.marginCeiling &&
    F64.lt c.postMargin c.curMargin

def longPremiumDetail (cfg : ConstraintConfig F) (c : ConstraintCheck F) : String :=
  "long_premium: post=$" ++ F64.fixed 0 c.postLongPremium ++ " > cap=$" ++ F64.fixed 0 cfg.capital

/-- What a fill under the rule comes to. -/
def marginEscape (cfg : ConstraintConfig F) (c : ConstraintCheck F) : GateOutcome :=
  if premiumBreached cfg c then
    .rejected "long_premium" (longPremiumDetail cfg c ++ " (escape mode)")
  else
    .acceptedMarginEscape ("margin escape: cur=$" ++ F64.fixed 0 c.curMargin ++
      " > ceiling=$" ++ F64.fixed 0 cfg.marginCeiling ++ ", post=$" ++ F64.fixed 0 c.postMargin ++
      " reduces breach")

/-- The margin, in strict mode. -/
def marginGate (cfg : ConstraintConfig F) (c : ConstraintCheck F) : Option (String × String) :=
  let detail := "margin: post=$" ++ F64.fixed 0 c.postMargin ++ " > ceiling=$" ++
    F64.fixed 0 cfg.marginCeiling
  if F64.gt c.postMargin cfg.marginCeiling then
    if F64.gt c.curMargin cfg.marginCeiling && F64.ge c.postMargin c.curMargin then
      some ("margin", detail ++ " (currently breached, fill not improving)")
    else if F64.le c.curMargin cfg.marginCeiling then some ("margin", detail)
    else none
  else none

/-- The delta, in strict mode. -/
def deltaGate (cfg : ConstraintConfig F) (portfolio : PortfolioState F) (c : ConstraintCheck F) :
    Option (String × String) :=
  let curDelta := curDelta cfg portfolio c
  let postDelta := postDelta cfg portfolio c
  let signEq := F64.ge postDelta F64.zero == F64.ge curDelta F64.zero
  if F64.gt (F64.abs postDelta) cfg.deltaCeiling then
    if F64.ge (F64.abs postDelta) (F64.abs curDelta) || !signEq then
      some ("delta", "delta: post=" ++ signedFixed 2 postDelta ++ " > ±" ++
        F64.fixed 1 cfg.deltaCeiling ++ " (cur=" ++ signedFixed 2 curDelta ++
        (if signEq then "" else ", sign-flip") ++ ")")
    else none
  else none

/-- The theta, in strict mode. -/
def thetaGate (cfg : ConstraintConfig F) (portfolio : PortfolioState F) (c : ConstraintCheck F) :
    Option (String × String) :=
  let curTheta := curTheta cfg portfolio
  let postTheta := postTheta cfg portfolio c
  if F64.lt postTheta cfg.thetaFloor then
    if F64.le postTheta curTheta then
      some ("theta", "theta: post=$" ++ F64.fixed 0 postTheta ++ " < $" ++
        F64.fixed 0 cfg.thetaFloor ++ " (cur=$" ++ F64.fixed 0 curTheta ++ ")")
    else none
  else none

/-- Solvency. -/
def premiumGate (cfg : ConstraintConfig F) (c : ConstraintCheck F) : Option (String × String) :=
  if premiumBreached cfg c then some ("long_premium", longPremiumDetail cfg c) else none

/-- The gates of strict mode, one after the other. -/
def strictGates (cfg : ConstraintConfig F) (portfolio : PortfolioState F) (c : ConstraintCheck F) :
    Option (String × String) :=
  (marginGate cfg c).or ((deltaGate cfg portfolio c).or
    ((thetaGate cfg portfolio c).or (premiumGate cfg c)))

/-- `check`. -/
def check (cfg : ConstraintConfig F) (portfolio : PortfolioState F) (c : ConstraintCheck F) :
    GateOutcome :=
  match hardKill cfg portfolio c with
  | some (reason, detail) => .rejected reason detail
  | none =>
      if escapes cfg c then marginEscape cfg c
      else
        match strictGates cfg portfolio c with
        | some (reason, detail) => .rejected reason detail
        | none => .accepted

/-! ## What the outcome depends on -/

/-- **A hedge that is not trusted does not count.** -/
theorem check_hedgeQty {cfg : ConstraintConfig F} {c : ConstraintCheck F}
    (h : trustHedge cfg c = false) (portfolio : PortfolioState F) (hedgeQty : Int) :
    check cfg portfolio { c with hedgeQty } = check cfg portfolio c := by
  have huntrusted : trustHedge cfg { c with hedgeQty } = false := h
  have heffective : effectiveHedgeQty cfg { c with hedgeQty } = effectiveHedgeQty cfg c := by
    unfold effectiveHedgeQty
    rw [huntrusted, h]
    rfl
  have hcur : curDelta cfg portfolio { c with hedgeQty } = curDelta cfg portfolio c := by
    unfold curDelta
    rw [heffective]
  have hpost : postDelta cfg portfolio { c with hedgeQty } = postDelta cfg portfolio c := by
    unfold postDelta
    rw [hcur]
  have htheta : postTheta cfg portfolio { c with hedgeQty } = postTheta cfg portfolio c := rfl
  have hkill : hardKill cfg portfolio { c with hedgeQty } = hardKill cfg portfolio c := by
    unfold hardKill
    rw [hpost, htheta]
  have hdelta : deltaGate cfg portfolio { c with hedgeQty } = deltaGate cfg portfolio c := by
    unfold deltaGate
    rw [hpost, hcur]
  have hstrict : strictGates cfg portfolio { c with hedgeQty } = strictGates cfg portfolio c := by
    unfold strictGates
    rw [hdelta]
    rfl
  unfold check
  rw [hkill, hstrict]
  rfl

omit [F64 F] in
theorem trustHedge_of_stale {cfg : ConstraintConfig F} {c : ConstraintCheck F}
    (h : c.hedgeStateFresh = some false ∨ cfg.effectiveDeltaGating = false) :
    trustHedge cfg c = false := by
  unfold trustHedge
  rcases h with hstale | hoff
  · rw [hstale]
    exact Bool.and_false _
  · rw [hoff]
    rfl

/-! ## What each tier lets through -/

/-- The limits that bind every fill. -/
structure HardBounds (cfg : ConstraintConfig ℚ) (portfolio : PortfolioState ℚ)
    (c : ConstraintCheck ℚ) : Prop where
  margin : c.postMargin ≤ cfg.marginKill
  delta : |postDelta cfg portfolio c| ≤ cfg.deltaKill
  theta : cfg.thetaKill < 0 → cfg.thetaKill ≤ postTheta cfg portfolio c

/-- The soft bounds: each is kept, or what it bounds gets better, and the delta keeps its
sign. -/
structure StrictBounds (cfg : ConstraintConfig ℚ) (portfolio : PortfolioState ℚ)
    (c : ConstraintCheck ℚ) : Prop where
  margin : c.postMargin ≤ cfg.marginCeiling ∨ c.postMargin < c.curMargin
  delta : |postDelta cfg portfolio c| ≤ cfg.deltaCeiling ∨
    |postDelta cfg portfolio c| < |curDelta cfg portfolio c| ∧
      (0 ≤ postDelta cfg portfolio c ↔ 0 ≤ curDelta cfg portfolio c)
  theta : cfg.thetaFloor ≤ postTheta cfg portfolio c ∨
    curTheta cfg portfolio < postTheta cfg portfolio c

/-- The long premium is within the capital, or not above the current one. -/
def Solvent (cfg : ConstraintConfig ℚ) (c : ConstraintCheck ℚ) : Prop :=
  c.postLongPremium ≤ cfg.capital ∨ c.postLongPremium ≤ c.curLongPremium

section Exact

variable {cfg : ConstraintConfig ℚ} {portfolio : PortfolioState ℚ} {c : ConstraintCheck ℚ}

theorem hardBounds_of_hardKill (h : hardKill cfg portfolio c = none) :
    HardBounds cfg portfolio c := by
  unfold hardKill at h
  simp only [F64.gt, rat_lt, rat_abs, rat_zero, Bool.and_eq_true, decide_eq_true_eq] at h
  split_ifs at h with hmargin hdelta htheta
  exact {
    margin := not_lt.mp hmargin
    delta := not_lt.mp hdelta
    theta := fun henabled => not_lt.mp fun hlow => htheta ⟨henabled, hlow⟩ }

theorem solvent_of_premiumBreached (h : premiumBreached cfg c = false) : Solvent cfg c := by
  unfold premiumBreached at h
  simp only [F64.gt, rat_lt, Bool.and_eq_false_iff, decide_eq_false_iff_not, not_lt] at h
  exact h

theorem solvent_of_marginEscape (h : (marginEscape cfg c).isAccepted = true) : Solvent cfg c := by
  unfold marginEscape at h
  split_ifs at h with hbreached
  · cases h
  · exact solvent_of_premiumBreached (by simpa using hbreached)

theorem marginGate_eq_none (h : marginGate cfg c = none) :
    c.postMargin ≤ cfg.marginCeiling ∨ c.postMargin < c.curMargin := by
  unfold marginGate at h
  simp only [F64.gt, F64.ge, rat_lt, rat_le, Bool.and_eq_true, decide_eq_true_eq] at h
  split_ifs at h with habove hworse hfresh
  · exact .inr (not_le.mp fun hle => hworse ⟨not_le.mp hfresh, hle⟩)
  · exact .inl (not_lt.mp habove)

theorem deltaGate_eq_none (h : deltaGate cfg portfolio c = none) :
    |postDelta cfg portfolio c| ≤ cfg.deltaCeiling ∨
      |postDelta cfg portfolio c| < |curDelta cfg portfolio c| ∧
        (0 ≤ postDelta cfg portfolio c ↔ 0 ≤ curDelta cfg portfolio c) := by
  unfold deltaGate at h
  simp only [F64.gt, F64.ge, rat_lt, rat_le, rat_abs, rat_zero, Bool.or_eq_true,
    decide_eq_true_eq, Bool.not_eq_true', beq_eq_false_iff_ne, ne_eq, decide_eq_decide] at h
  split_ifs at h with habove hrejected
  · rw [not_or, not_le, not_not] at hrejected
    exact .inr hrejected
  · exact .inl (not_lt.mp habove)

theorem thetaGate_eq_none (h : thetaGate cfg portfolio c = none) :
    cfg.thetaFloor ≤ postTheta cfg portfolio c ∨
      curTheta cfg portfolio < postTheta cfg portfolio c := by
  unfold thetaGate at h
  simp only [rat_lt, rat_le, decide_eq_true_eq] at h
  split_ifs at h with hbelow hworse
  · exact .inr (not_le.mp hworse)
  · exact .inl (not_lt.mp hbelow)

theorem strictBounds_of_strictGates (h : strictGates cfg portfolio c = none) :
    StrictBounds cfg portfolio c ∧ Solvent cfg c := by
  unfold strictGates at h
  simp only [Option.or_eq_none_iff] at h
  obtain ⟨hmargin, hdelta, htheta, hpremium⟩ := h
  refine ⟨⟨marginGate_eq_none hmargin, deltaGate_eq_none hdelta, thetaGate_eq_none htheta⟩, ?_⟩
  unfold premiumGate at hpremium
  split_ifs at hpremium with hbreached
  exact solvent_of_premiumBreached (by simpa using hbreached)

end Exact

/-- **Soundness.** What is not rejected is within the hard limits and solvent, and where the
rule for a reduced margin does not apply, within the soft bounds or an improvement on them.
A hedge that is stale, or not counted at all, does not matter. -/
theorem check_sound (cfg : ConstraintConfig ℚ) (portfolio : PortfolioState ℚ)
    (c : ConstraintCheck ℚ) :
    ((check cfg portfolio c).isAccepted = true →
        HardBounds cfg portfolio c ∧ Solvent cfg c ∧
          (escapes cfg c = false → StrictBounds cfg portfolio c)) ∧
      (c.hedgeStateFresh = some false ∨ cfg.effectiveDeltaGating = false →
        ∀ hedgeQty, check cfg portfolio { c with hedgeQty } = check cfg portfolio c) := by
  refine ⟨fun haccepted => ?_, fun hstale => check_hedgeQty (trustHedge_of_stale hstale) portfolio⟩
  unfold check at haccepted
  cases hkill : hardKill cfg portfolio c with
  | some rejected =>
      rw [hkill] at haccepted
      cases haccepted
  | none =>
      refine ⟨hardBounds_of_hardKill hkill, ?_⟩
      simp only [hkill] at haccepted
      cases hescapes : escapes cfg c with
      | true =>
          rw [if_pos hescapes] at haccepted
          exact ⟨solvent_of_marginEscape haccepted, nofun⟩
      | false =>
          rw [if_neg (by simp [hescapes])] at haccepted
          cases hstrict : strictGates cfg portfolio c with
          | some rejected =>
              rw [hstrict] at haccepted
              cases haccepted
          | none =>
              obtain ⟨hbounds, hsolvent⟩ := strictBounds_of_strictGates hstrict
              exact ⟨hsolvent, fun _ => hbounds⟩

/-- A ceiling of three contracts, and a kill at five. -/
def copperLimits : ConstraintConfig ℚ where
  product := "HG"
  capital := 200000
  marginCeilingPct := 1 / 2
  deltaCeiling := 3
  thetaFloor := -200
  marginKillPct := 7 / 10
  deltaKill := 5
  thetaKill := -500
  effectiveDeltaGating := true
  marginEscapeEnabled := false

/-- Four contracts long, against a hedge of three short. -/
def hedgedFill (fresh : Bool) : ConstraintCheck ℚ where
  optionDeltaPerContract := 4
  optionThetaPerContract := 0
  fillQtySigned := 1
  multiplier := 25000
  curMargin := 0
  postMargin := 50000
  curLongPremium := 0
  postLongPremium := 0
  hedgeQty := -3
  hedgeStateFresh := some fresh

-- the same fill, with the hedge counted and without it
example : check copperLimits (.new ∅) (hedgedFill true) = .accepted ∧
    check copperLimits (.new ∅) (hedgedFill false) =
      .rejected "delta" "delta: post=+4.00 > ±3.0 (cur=+0.00)" := by
  decide +kernel

end Corsair.Ports.ConstraintChecker
