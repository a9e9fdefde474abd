import Corsair.Verified.F64

/-!
# `corsair_broker`: the configuration check and the strike window

`BrokerDaemonConfig::validate` is the check that a configuration passes before the broker
starts.  `generate_strikes` lists the strikes of a subscription window with a loop that steps
by the increment of the product; here it runs on fuel, and it ends if some fuel is enough.  The
check does not look at the increment.

Of the configuration there is what the two look at.

## Main results

* `validate_eq_ok_iff` — what the check accepts.
* `strikesFrom_eq_some_iff` — what the loop returns if it ends, whatever the increment.
* `window_exact_iff` — for which products the window is the one that is meant.
-/

namespace Corsair.Ports.StrikeWindow

open Corsair.Verified

/-! ## The configuration -/

/-- `ProductConfig`. -/
structure ProductConfig (F : Type) where
  name : String
  multiplier : F
  quoteRangeLow : Int
  quoteRangeHigh : Int
  strikeRangeLow : Option Int
  strikeRangeHigh : Option Int
  strikeIncrement : F
  enabled : Bool

/-- `BrokerDaemonConfig`. -/
structure BrokerDaemonConfig (F : Type) where
  brokerKind : String
  /-- Whether there is a section `broker.ibkr`. -/
  ibkr : Bool
  capital : F
  products : List (ProductConfig F)

inductive ConfigError
  | validation (message : String)
  deriving DecidableEq, Repr

section

variable {F : Type} [F64 F]

/-- `validate`. -/
def BrokerDaemonConfig.validate (cfg : BrokerDaemonConfig F) : Except ConfigError Unit :=
  if F64.le cfg.capital F64.zero then
    .error (.validation "constraints.capital must be > 0")
  else if cfg.products.isEmpty then
    .error (.validation "at least one product required")
  else if !cfg.products.any (·.enabled) then
    .error (.validation "at least one product must be enabled")
  else if cfg.brokerKind ≠ "ibkr" ∧ cfg.brokerKind ≠ "ilink" then
    .error (.validation ("broker.kind must be 'ibkr' or 'ilink', got " ++ cfg.brokerKind))
  else if cfg.brokerKind = "ibkr" ∧ cfg.ibkr = false then
    .error (.validation "broker.kind=ibkr requires broker.ibkr section")
  else
    cfg.products.forM fun p =>
      if F64.le p.multiplier F64.zero then
        .error (.validation ("product " ++ p.name ++ ": multiplier must be > 0"))
      else .ok ()

/-! ## The window -/

/-- `round_to_increment`. -/
def roundToIncrement (value increment : F) : F :=
  if F64.le increment F64.zero then value else F64.round (value / increment) * increment

/-- The loop of `generate_strikes`, from `k` on. -/
def strikesFrom (inc bound : F) : Nat → F → Option (List F)
  | 0, _ => none
  | fuel + 1, k =>
      if F64.le k bound then
        (strikesFrom inc bound fuel (k + inc)).map (roundToIncrement k inc :: ·)
      else some []

def ProductConfig.loSteps (p : ProductConfig F) : Int := p.strikeRangeLow.getD p.quoteRangeLow

def ProductConfig.hiSteps (p : ProductConfig F) : Int := p.strikeRangeHigh.getD p.quoteRangeHigh

/-- `generate_strikes`. -/
def generateStrikes (fuel : Nat) (atm : F) (p : ProductConfig F) : Option (List F) :=
  let inc := p.strikeIncrement
  let lo := F64.ofInt p.loSteps * inc
  let hi := F64.ofInt p.hiSteps * inc
  strikesFrom inc (atm + hi + F64.lit 1 9) fuel (atm + lo)

end

/-! ## What is asked of it -/

/-- `atm + i * strike_increment` for every `i` of the range, from the lowest to the highest. -/
def window (p : ProductConfig ℚ) (atm : ℚ) : List ℚ :=
  (List.range (p.hiSteps + 1 - p.loSteps).toNat).map fun j : Nat =>
    atm + ((p.loSteps + j : Int) : ℚ) * p.strikeIncrement

/-- The loop ends with the window around the price, each strike above the one before it. -/
structure Exact (p : ProductConfig ℚ) (price : ℚ) : Prop where
  returned : ∃ fuel, generateStrikes fuel (roundToIncrement price p.strikeIncrement) p =
    some (window p (roundToIncrement price p.strikeIncrement))
  ordered : (window p (roundToIncrement price p.strikeIncrement)).Pairwise (· < ·)

/-! ## What the check accepts -/

section

variable {F : Type} [F64 F]

theorem check_eq_ok_iff {ε : Type} {c : Prop} [Decidable c] {e : ε} {rest : Except ε Unit} :
    (if c then .error e else rest) = .ok () ↔ ¬c ∧ rest = .ok () := by
  by_cases hc : c
  · simp [hc]
  · simp [hc]

theorem forM_eq_ok_iff {α ε : Type} {f : α → Except ε Unit} {l : List α} :
    l.forM f = .ok () ↔ ∀ x ∈ l, f x = .ok () := by
  induction l with
  | nil => exact iff_of_true rfl nofun
  | cons x rest ih =>
      rw [List.forall_mem_cons, ← ih]
      show (f x >>= fun _ => rest.forM f) = .ok () ↔ _
      cases f x with
      | error e => exact ⟨nofun, fun h => h.1⟩
      | ok u => exact ⟨fun h => ⟨rfl, h⟩, And.right⟩

/-- **The check** asks of a product that it is worth something, and no more. -/
theorem validate_eq_ok_iff {cfg : BrokerDaemonConfig F} :
    cfg.validate = .ok () ↔
      F64.le cfg.capital F64.zero = false ∧ (∃ p ∈ cfg.products, p.enabled = true) ∧
        (cfg.brokerKind = "ibkr" ∧ cfg.ibkr = true ∨ cfg.brokerKind = "ilink") ∧
        ∀ p ∈ cfg.products, F64.le p.multiplier F64.zero = false := by
  have henabled : ¬cfg.products.isEmpty = true ∧ ¬(!cfg.products.any (·.enabled)) = true ↔
      ∃ p ∈ cfg.products, p.enabled = true := by
    rw [Bool.not_eq_true', Bool.not_eq_false, List.any_eq_true, and_iff_right_iff_imp]
    rintro ⟨p, hp, -⟩
    simp only [List.isEmpty_iff]
    exact List.ne_nil_of_mem hp
  have hbroker : ¬(cfg.brokerKind ≠ "ibkr" ∧ cfg.brokerKind ≠ "ilink") ∧
      ¬(cfg.brokerKind = "ibkr" ∧ cfg.ibkr = false) ↔
        cfg.brokerKind = "ibkr" ∧ cfg.ibkr = true ∨ cfg.brokerKind = "ilink" := by
    by_cases hibkr : cfg.brokerKind = "ibkr"
    · simp [hibkr]
    · simp [hibkr]
  unfold BrokerDaemonConfig.validate
  simp only [check_eq_ok_iff, forM_eq_ok_iff, and_true]
  rw [← henabled, ← hbroker]
  simp only [Bool.not_eq_true, and_assoc]

end

/-! ## The loop -/

theorem rat_slack : (F64.lit 1 9 : ℚ) = 1 / 10 ^ 9 := by rw [rat_lit, Int.cast_one]

/-- **If the loop ends**, it has listed the steps up to the bound, and the next one is past it. -/
theorem strikesFrom_eq_some_iff {inc bound k : ℚ} {out : List ℚ} :
    (∃ fuel, strikesFrom inc bound fuel k = some out) ↔
      out = (List.range out.length).map (fun j => roundToIncrement (k + (j : Nat) * inc) inc) ∧
        (∀ j < out.length, k + (j : Nat) * inc ≤ bound) ∧
        bound < k + (out.length : Nat) * inc := by
  have hstep (k : ℚ) (j : Nat) : k + (j + 1 : Nat) * inc = k + inc + j * inc := by
    push_cast
    ring
  induction out generalizing k with
  | nil =>
      have hends : (∃ fuel, strikesFrom inc bound fuel k = some []) ↔ bound < k := by
        constructor
        · rintro ⟨fuel, h⟩
          cases fuel with
          | zero => cases h
          | succ fuel =>
              unfold strikesFrom at h
              split at h
              · simp at h
              · rename_i hle
                simpa [rat_le] using hle
        · intro h
          exact ⟨1, by simp [strikesFrom, rat_le, h]⟩
      rw [hends]
      simp
  | cons strike rest ih =>
      have hgoes : (∃ fuel, strikesFrom inc bound fuel k = some (strike :: rest)) ↔
          k ≤ bound ∧ strike = roundToIncrement k inc ∧
            ∃ fuel, strikesFrom inc bound fuel (k + inc) = some rest := by
        constructor
        · rintro ⟨fuel, h⟩
          cases fuel with
          | zero => cases h
          | succ fuel =>
              unfold strikesFrom at h
              split at h
              · rename_i hle
                obtain ⟨tail, htail, hcons⟩ := Option.map_eq_some_iff.mp h
                obtain ⟨rfl, rfl⟩ := List.cons.inj hcons
                exact ⟨by simpa [rat_le] using hle, rfl, fuel, htail⟩
              · cases h
        · rintro ⟨hle, rfl, fuel, htail⟩
          exact ⟨fuel + 1, by simp [strikesFrom, rat_le, hle, htail]⟩
      have hgoes' := hgoes.trans (and_congr_right fun _ => and_congr_right fun _ => @ih (k + inc))
      rw [hgoes', List.length_cons, List.range_succ_eq_map, List.map_cons, List.map_map,
        List.cons_eq_cons, Nat.forall_lt_succ_left]
      simp only [Function.comp_def, hstep, Nat.cast_zero, zero_mul, add_zero, Nat.succ_eq_add_one]
      tauto

/-! ## The window -/

theorem length_window (p : ProductConfig ℚ) (atm : ℚ) :
    (window p atm).length = (p.hiSteps + 1 - p.loSteps).toNat := by
  simp [window]

/-- How far the loop goes: past the last strike, or nowhere where the range is empty. -/
theorem span_window (p : ProductConfig ℚ) (atm : ℚ) :
    ((window p atm).length : ℚ) =
      p.hiSteps - p.loSteps + (max 1 (p.loSteps - p.hiSteps) : Int) := by
  rw [length_window]
  have hspan : ((p.hiSteps + 1 - p.loSteps).toNat : Int) =
      p.hiSteps - p.loSteps + max 1 (p.loSteps - p.hiSteps) := by omega
  exact_mod_cast hspan

/-- The loop stops after the window's strikes just if the step past them is larger than the
slack, and takes them all if it goes up. -/
theorem generateStrikes_window_iff {p : ProductConfig ℚ} {atm : ℚ} :
    (∃ fuel, generateStrikes fuel atm p = some (window p atm)) ↔
      window p atm = (List.range (window p atm).length).map (fun j =>
          roundToIncrement (atm + ((p.loSteps + (j : Nat) : Int) : ℚ) * p.strikeIncrement)
            p.strikeIncrement) ∧
        (∀ j < (window p atm).length,
          ((p.loSteps + (j : Nat) - p.hiSteps : Int) : ℚ) * p.strikeIncrement ≤ 1 / 10 ^ 9) ∧
        1 / 10 ^ 9 < ((max 1 (p.loSteps - p.hiSteps) : Int) : ℚ) * p.strikeIncrement := by
  have hplace (j : Nat) : atm + (p.loSteps : ℚ) * p.strikeIncrement + j * p.strikeIncrement =
      atm + ((p.loSteps + j : Int) : ℚ) * p.strikeIncrement := by
    push_cast
    ring
  have hinside (j : Nat) :
      atm + ((p.loSteps + j : Int) : ℚ) * p.strikeIncrement ≤
          atm + p.hiSteps * p.strikeIncrement + 1 / 10 ^ 9 ↔
        ((p.loSteps + j - p.hiSteps : Int) : ℚ) * p.strikeIncrement ≤ 1 / 10 ^ 9 := by
    push_cast
    constructor
    · intro h
      linarith
    · intro h
      linarith
  have hpast : atm + p.hiSteps * p.strikeIncrement + 1 / 10 ^ 9 <
        atm + p.loSteps * p.strikeIncrement + (window p atm).length * p.strikeIncrement ↔
      1 / 10 ^ 9 < ((max 1 (p.loSteps - p.hiSteps) : Int) : ℚ) * p.strikeIncrement := by
    rw [span_window]
    constructor
    · intro h
      linarith
    · intro h
      linarith
  unfold generateStrikes
  rw [strikesFrom_eq_some_iff, rat_ofInt, rat_ofInt, rat_slack, hpast]
  simp only [hplace, hinside]

theorem increment_pos {p : ProductConfig ℚ}
    (h : 1 / 10 ^ 9 < ((max 1 (p.loSteps - p.hiSteps) : Int) : ℚ) * p.strikeIncrement) :
    0 < p.strikeIncrement := by
  have hone : (0 : ℚ) < (max 1 (p.loSteps - p.hiSteps) : Int) :=
    Int.cast_pos.mpr (zero_lt_one.trans_le (le_max_left _ _))
  have hslack : (0 : ℚ) < 1 / 10 ^ 9 := by norm_num
  exact (mul_pos_iff_of_pos_left hone).mp (hslack.trans h)

/-- A number on the grid is not moved. -/
theorem roundToIncrement_mul {inc : ℚ} (hinc : 0 < inc) (n : Int) :
    roundToIncrement ((n : ℚ) * inc) inc = n * inc := by
  have hround : F64.round ((n : ℚ) * inc / inc) = (n : ℚ) := by
    rw [mul_div_cancel_right₀ _ hinc.ne']
    exact congrArg Int.cast (ratRound_intCast n)
  unfold roundToIncrement
  rw [rat_le, rat_zero, decide_eq_false (not_le.mpr hinc), hround]
  rfl

/-- **The window is the one that is meant** just if the step past its last strike is larger
than the slack of the comparison. -/
theorem window_exact_iff (p : ProductConfig ℚ) (price : ℚ) :
    Exact p price ↔
      1 / 10 ^ 9 < ((max 1 (p.loSteps - p.hiSteps) : Int) : ℚ) * p.strikeIncrement := by
  refine ⟨fun h => (generateStrikes_window_iff.mp h.returned).2.2, fun hslack => ?_⟩
  have hinc := increment_pos hslack
  have hatm : roundToIncrement price p.strikeIncrement =
      ratRound (price / p.strikeIncrement) * p.strikeIncrement := by
    unfold roundToIncrement
    rw [rat_le, rat_zero, decide_eq_false (not_le.mpr hinc)]
    rfl
  have hgrid (i : Int) : roundToIncrement price p.strikeIncrement + i * p.strikeIncrement =
      ((ratRound (price / p.strikeIncrement) + i : Int) : ℚ) * p.strikeIncrement := by
    rw [hatm]
    push_cast
    ring
  refine ⟨generateStrikes_window_iff.mpr ⟨?_, fun j hj => ?_, hslack⟩, ?_⟩
  · rw [length_window]
    unfold window
    refine List.map_congr_left fun j _ => ?_
    rw [hgrid, roundToIncrement_mul hinc]
  · have hle : ((p.loSteps + j - p.hiSteps : Int) : ℚ) ≤ 0 := by
      rw [length_window] at hj
      exact Int.cast_nonpos.mpr (by omega)
    exact (mul_nonpos_of_nonpos_of_nonneg hle hinc.le).trans (by norm_num)
  · unfold window
    refine List.pairwise_map.mpr (List.pairwise_lt_range.imp fun {i j} hij => ?_)
    have hlt : ((p.loSteps + i : Int) : ℚ) < (p.loSteps + j : Int) := Int.cast_lt.mpr (by omega)
    exact add_lt_add_right (mul_lt_mul_of_pos_right hlt hinc) _

/-- Without an increment the loop does not end. -/
theorem generateStrikes_of_increment_zero {p : ProductConfig ℚ} (hzero : p.strikeIncrement = 0)
    (fuel : Nat) (atm : ℚ) : generateStrikes fuel atm p = none := by
  cases hout : generateStrikes fuel atm p with
  | none => rfl
  | some out =>
      have hends := (strikesFrom_eq_some_iff.mp ⟨fuel, hout⟩).2.2
      rw [hzero, rat_slack] at hends
      norm_num at hends

/-! ## A configuration -/

/-- A product whose increment was left at zero. -/
def unsetIncrement : ProductConfig ℚ where
  name := "HG"
  multiplier := 25000
  quoteRangeLow := -5
  quoteRangeHigh := 5
  strikeRangeLow := none
  strikeRangeHigh := none
  strikeIncrement := 0
  enabled := true

/-- The check accepts a product for which the loop does not end. -/
theorem window_does_not_end :
    ¬ ∀ cfg : BrokerDaemonConfig ℚ, cfg.validate = .ok () → ∀ p ∈ cfg.products, ∀ price, 0 < price →
      Exact p price := by
  intro hall
  have hvalid : BrokerDaemonConfig.validate
      (⟨"ibkr", true, 500000, [unsetIncrement]⟩ : BrokerDaemonConfig ℚ) = .ok () := by
    decide +kernel
  obtain ⟨fuel, hreturned⟩ :=
    (hall _ hvalid unsetIncrement List.mem_cons_self 6 (by norm_num)).returned
  rw [generateStrikes_of_increment_zero rfl] at hreturned
  cases hreturned

end Corsair.Ports.StrikeWindow
