import Corsair.Verified.Bracketing
import Corsair.Ports.Black76

/-!
# `corsair_pricing`: implied volatilities

`implied_vol` looks for the volatility at which the formula gives a market price, with Brent's
method on a fixed bracket.  The method interpolates, falls back to the middle of its bracket
where the interpolation is not to be trusted, and gives up after a number of rounds.

Whatever it picks lies between its two points, so that its state tracks a bracket.  The rest
of its state, which decides what is picked, does not matter for what it returns.

## Main results

* `step_tracks` — a round moves the bracket.
* `brent_brackets` — what Brent's method returns is an end of a bracket that is narrow, or
  whose function value is small.
* `implied_vol_solves` — what `implied_vol` returns is near the one volatility that has the
  price, or has nearly the price.
-/

namespace Corsair.Ports.ImpliedVol

open Set
open Corsair.Verified
open Corsair.Verified.Bracketing
open Corsair.Ports.Black76

attribute [local instance] realF64

/-! ## Brent's method -/

/-- The variables of the loop. -/
structure BrentState (F : Type) where
  a : F
  b : F
  c : F
  d : F
  fa : F
  fb : F
  fc : F
  mflag : Bool

section Code

variable {F : Type} [F64 F]

/-- `std::mem::swap`, of the points and of their values. -/
def BrentState.swapEnds (s : BrentState F) : BrentState F :=
  if F64.lt (F64.abs s.fa) (F64.abs s.fb) then
    { s with a := s.b, b := s.a, fa := s.fb, fb := s.fa }
  else s

/-- Inverse quadratic interpolation, or the secant. -/
def BrentState.interpolate (s : BrentState F) : F :=
  if !F64.feq s.fa s.fc && !F64.feq s.fb s.fc then
    s.a * s.fb * s.fc / ((s.fa - s.fb) * (s.fa - s.fc)) +
      s.b * s.fa * s.fc / ((s.fb - s.fa) * (s.fb - s.fc)) +
      s.c * s.fa * s.fb / ((s.fc - s.fa) * (s.fc - s.fb))
  else s.b - s.fb * (s.b - s.a) / (s.fb - s.fa)

/-- `between`. -/
def BrentState.between (s : BrentState F) (x : F) : Bool :=
  let lo := (F64.lit 3 0 * s.a + s.b) / F64.lit 4 0
  if F64.le lo s.b then F64.ge x lo && F64.le x s.b else F64.ge x s.b && F64.le x lo

/-- The five conditions of the fallback. -/
def BrentState.bisects (s : BrentState F) (xtol x : F) : Bool :=
  !s.between x ||
    s.mflag && F64.ge (F64.abs (x - s.b)) (F64.abs (s.b - s.c) / F64.lit 2 0) ||
    !s.mflag && F64.ge (F64.abs (x - s.b)) (F64.abs (s.c - s.d) / F64.lit 2 0) ||
    s.mflag && F64.lt (F64.abs (s.b - s.c)) xtol ||
    !s.mflag && F64.lt (F64.abs (s.c - s.d)) xtol

/-- The next point, and the next `mflag`. -/
def BrentState.pick (s : BrentState F) (xtol : F) : F × Bool :=
  if s.bisects xtol s.interpolate then ((s.a + s.b) / F64.lit 2 0, true)
  else (s.interpolate, false)

/-- A round of the loop. -/
def BrentState.step (f : F → F) (xtol : F) (s : BrentState F) : BrentState F :=
  let (x, mflag) := s.pick xtol
  let fx := f x
  let s := { s with d := s.c, c := s.b, fc := s.fb, mflag }
  (if F64.lt (s.fa * fx) F64.zero then { s with b := x, fb := fx }
    else { s with a := x, fa := fx }).swapEnds

/-- The loop, with the rounds that are left. -/
def brentLoop (f : F → F) (xtol : F) : Nat → BrentState F → Option F
  | 0, s =>
      if F64.lt (F64.abs (s.b - s.a)) xtol || F64.lt (F64.abs s.fb) (F64.lit 1 9) then some s.b
      else none
  | n + 1, s =>
      if F64.lt (F64.abs (s.b - s.a)) xtol then some s.b
      else if F64.feq s.fb F64.zero then some s.b
      else brentLoop f xtol n (s.step f xtol)

/-- Before the first round. -/
def BrentState.start (f : F → F) (a b : F) : BrentState F :=
  let s := BrentState.swapEnds { a, b, c := a, d := a, fa := f a, fb := f b, fc := f a, mflag := true }
  { s with c := s.a, d := s.a, fc := s.fa }

/-- `brent`. -/
def brent (f : F → F) (a b xtol : F) (maxIter : Nat) : Option F :=
  if F64.ge (f a * f b) F64.zero then none
  else brentLoop f xtol maxIter (.start f a b)

variable (e : Elementary F)

/-- `black76_price`. -/
def black76Price (f k t sigma r : F) (right : String) : F :=
  let call : Bool := right = "C" || right = "c"
  black76PriceInner e f k t sigma r (if call then 'C' else 'P')

/-- `implied_vol`. -/
def impliedVol (marketPrice f k t r : F) (right : String) : Option F :=
  if F64.le t F64.zero || F64.le marketPrice F64.zero then none
  else
    let call : Bool := right = "C" || right = "c"
    let df := e.exp (-r * t)
    if F64.lt marketPrice (df * intrinsic f k call - F64.lit 1 10) then none
    else
      brent (fun sigma => black76Price e f k t sigma r right - marketPrice) (F64.lit 1 2)
        (F64.lit 5 0) (F64.lit 1 6) 100

end Code

/-! ## The bracket of the loop -/

section Loop

variable {g : ℝ → ℝ} {lo hi : ℝ}

/-- The points and values of the state are those of a bracket. -/
structure Tracks (s : BrentState ℝ) (B : Bracket g lo hi) : Prop where
  far : s.a = B.far
  best : s.b = B.best
  far_value : s.fa = g B.far
  best_value : s.fb = g B.best

/-- What is picked lies between the points. -/
theorem pick_mem (s : BrentState ℝ) (xtol : ℝ) : (s.pick xtol).1 ∈ uIcc s.a s.b := by
  unfold BrentState.pick
  split_ifs with hbisects
  · show (s.a + s.b) / F64.lit 2 0 ∈ uIcc s.a s.b
    rw [real_whole, Int.cast_ofNat, mem_uIcc]
    rcases le_total s.a s.b with hle | hle
    · exact .inl ⟨by linarith, by linarith⟩
    · exact .inr ⟨by linarith, by linarith⟩
  · have hbetween : s.between s.interpolate = true := by
      by_contra h
      exact hbisects (by simp [BrentState.bisects, h])
    show s.interpolate ∈ uIcc s.a s.b
    simp only [BrentState.between, F64.ge, real_le, real_whole, Int.cast_ofNat,
      decide_eq_true_eq] at hbetween
    rw [mem_uIcc]
    split_ifs at hbetween with horder
    · obtain ⟨hlow, hhigh⟩ := Bool.and_eq_true_iff.mp hbetween
      have hlow := of_decide_eq_true hlow
      have hhigh := of_decide_eq_true hhigh
      exact .inl ⟨by linarith, hhigh⟩
    · obtain ⟨hlow, hhigh⟩ := Bool.and_eq_true_iff.mp hbetween
      have hlow := of_decide_eq_true hlow
      have hhigh := of_decide_eq_true hhigh
      exact .inr ⟨hlow, by linarith⟩

theorem swapEnds_tracks {s : BrentState ℝ} {a b : ℝ} (hsa : s.a = a) (hsb : s.b = b)
    (hfa : s.fa = g a) (hfb : s.fb = g b) (ha : a ∈ Icc lo hi) (hb : b ∈ Icc lo hi)
    (hsign : g a * g b < 0 ∨ g a = 0 ∨ g b = 0) :
    Tracks s.swapEnds (Bracket.orient a b ha hb hsign) := by
  have hswap : s.swapEnds = if |g a| < |g b| then
      { s with a := s.b, b := s.a, fa := s.fb, fb := s.fa } else s := by
    rw [BrentState.swapEnds, real_abs, real_abs, real_lt, hfa, hfb]
    simp only [decide_eq_true_eq]
  constructor
  · rw [Bracket.orient_far, hswap]
    split_ifs
    · exact hsb
    · exact hsa
  · rw [Bracket.orient_best, hswap]
    split_ifs
    · exact hsa
    · exact hsb
  · rw [Bracket.orient_far, hswap]
    split_ifs
    · exact hfb
    · exact hfa
  · rw [Bracket.orient_best, hswap]
    split_ifs
    · exact hfa
    · exact hfb

theorem start_tracks {a b : ℝ} (ha : a ∈ Icc lo hi) (hb : b ∈ Icc lo hi)
    (hsign : g a * g b < 0 ∨ g a = 0 ∨ g b = 0) :
    Tracks (.start g a b) (Bracket.orient a b ha hb hsign) := by
  have h := swapEnds_tracks
    (s := { a, b, c := a, d := a, fa := g a, fb := g b, fc := g a, mflag := true }) rfl rfl rfl rfl
    ha hb hsign
  exact ⟨h.far, h.best, h.far_value, h.best_value⟩

/-- **A round moves the bracket** to the point it picks. -/
theorem step_tracks {s : BrentState ℝ} {B : Bracket g lo hi} (h : Tracks s B) (xtol : ℝ)
    (hroot : g B.best ≠ 0) :
    ∃ hs, Tracks (s.step g xtol) (B.move (s.pick xtol).1 hs hroot) := by
  have hs : (s.pick xtol).1 ∈ uIcc B.far B.best := by
    rw [← h.far, ← h.best]
    exact pick_mem s xtol
  refine ⟨hs, ?_⟩
  unfold BrentState.step Bracket.move
  simp only [real_lt, real_zero, h.far_value, decide_eq_true_eq]
  split_ifs with hneg
  · refine swapEnds_tracks ?_ ?_ ?_ ?_ _ _ _
    · exact h.far
    · rfl
    · rfl
    · rfl
  · refine swapEnds_tracks ?_ ?_ ?_ ?_ _ _ _
    · rfl
    · exact h.best
    · rfl
    · exact h.best_value

/-- How a bracket ends the loop. -/
def Settled (xtol : ℝ) (B : Bracket g lo hi) : Prop :=
  |B.best - B.far| < xtol ∨ |g B.best| < F64.lit 1 9

theorem settled_iff {xtol : ℝ} {B : Bracket g lo hi} :
    Settled xtol B ↔ |B.best - B.far| < xtol ∨ |g B.best| < 1 / 10 ^ 9 := by
  rw [Settled, real_lit, Int.cast_one]

theorem brentLoop_brackets {xtol r : ℝ} {n : Nat} {s : BrentState ℝ} {B : Bracket g lo hi}
    (h : Tracks s B) (hr : brentLoop g xtol n s = some r) :
    ∃ B' : Bracket g lo hi, B'.best = r ∧ Settled xtol B' := by
  induction n generalizing s B with
  | zero =>
      simp only [brentLoop, real_abs, real_lt, real_lit, Int.cast_one, Bool.or_eq_true,
        decide_eq_true_eq, h.best, h.far, h.best_value, Option.ite_none_right_eq_some,
        Option.some.injEq] at hr
      exact ⟨B, hr.2, settled_iff.mpr hr.1⟩
  | succ n ih =>
      simp only [brentLoop, real_abs, real_lt, real_feq, real_zero, decide_eq_true_eq, h.best, h.far,
        h.best_value] at hr
      split_ifs at hr with hnarrow hzero
      · exact ⟨B, Option.some.inj hr, .inl hnarrow⟩
      · refine ⟨B, Option.some.inj hr, settled_iff.mpr (.inr ?_)⟩
        rw [hzero, abs_zero]
        positivity
      · obtain ⟨_, hstep⟩ := step_tracks h xtol hzero
        exact ih hstep hr

/-- **Brent's method returns an end of a settled bracket** inside the one that it starts from,
whose ends have values of opposite signs. -/
theorem brent_brackets {a b xtol r : ℝ} {n : Nat} (hab : a ≤ b)
    (hr : brent g a b xtol n = some r) :
    g a * g b < 0 ∧ ∃ B : Bracket g a b, B.best = r ∧ Settled xtol B := by
  simp only [brent, F64.ge, real_le, real_zero, decide_eq_true_eq] at hr
  split_ifs at hr with hsign
  have hneg : g a * g b < 0 := not_le.mp hsign
  refine ⟨hneg, ?_⟩
  exact brentLoop_brackets (start_tracks (left_mem_Icc.mpr hab) (right_mem_Icc.mpr hab) (.inl hneg))
    hr

/-- A loop that gives up has not settled in its last round. -/
theorem brentLoop_none {xtol : ℝ} {n : Nat} {s : BrentState ℝ}
    (h : brentLoop g xtol n s = none) :
    let last := (BrentState.step g xtol)^[n] s
    xtol ≤ |last.b - last.a| ∧ 1 / 10 ^ 9 ≤ |last.fb| := by
  induction n generalizing s with
  | zero =>
      simp only [brentLoop, real_abs, real_lt, real_lit, Int.cast_one] at h
      split_ifs at h with hstop
      simpa using hstop
  | succ n ih =>
      unfold brentLoop at h
      split_ifs at h
      exact ih h

end Loop

/-! ## The volatility of a price -/

section Vol

variable {f k t : ℝ} (r : ℝ) (right : String)

/-- The price as the volatility moves, in terms of the deviation. -/
theorem black76Price_eq (hf : 0 < f) (hk : 0 < k) (ht : 0 < t) {sigma : ℝ} (hsigma : 0 < sigma) :
    black76Price realFunctions f k t sigma r right =
      Real.exp (-r * t) *
        forwardValue (if right = "C" || right = "c" then 'C' else 'P') f k (sigma * √t) :=
  black76PriceInner_eq r _ hf hk ht hsigma

theorem strictMonoOn_price (hf : 0 < f) (hk : 0 < k) (ht : 0 < t) :
    StrictMonoOn (fun sigma => black76Price realFunctions f k t sigma r right) (Ioi 0) := by
  intro s hs s' hs' hlt
  have hroot : 0 < √t := Real.sqrt_pos.mpr ht
  have hdeviation : s * √t < s' * √t := mul_lt_mul_of_pos_right hlt hroot
  have hpos : 0 < s * √t := mul_pos hs hroot
  have hpos' : 0 < s' * √t := mul_pos hs' hroot
  simp only [black76Price_eq r right hf hk ht hs, black76Price_eq r right hf hk ht hs', forwardValue]
  refine mul_lt_mul_of_pos_left ?_ (Real.exp_pos _)
  generalize (if right = "C" || right = "c" then 'C' else 'P') = side
  split_ifs
  · exact Lognormal.strictMonoOn_call hf hk hpos hpos' hdeviation
  · exact Lognormal.strictMonoOn_put hf hk hpos hpos' hdeviation

theorem continuousOn_price (hf : 0 < f) (hk : 0 < k) (ht : 0 < t) :
    ContinuousOn (fun sigma => black76Price realFunctions f k t sigma r right) (Ioi 0) := by
  intro s hs
  have hroot : 0 < √t := Real.sqrt_pos.mpr ht
  have hvalue := hasDerivAt_forwardValue (if right = "C" || right = "c" then 'C' else 'P')
    (hasDerivAt_const s f) ((hasDerivAt_id s).mul_const √t) hf (mul_pos hs hroot) hk
  refine ((hvalue.continuousAt.const_mul (Real.exp (-r * t))).continuousWithinAt).congr ?_ ?_
  · exact fun s hs => black76Price_eq r right hf hk ht hs
  · exact black76Price_eq r right hf hk ht hs

/-- A price that is past its formula does not move with the volatility. -/
theorem black76Price_const (h : f ≤ 0 ∨ k ≤ 0) (s s' : ℝ) :
    black76Price realFunctions f k t s r right = black76Price realFunctions f k t s' r right := by
  have hdegenerate (s : ℝ) : degenerate f k t s = true :=
    (degenerate_iff f k t s).mpr (.inr (.inr h))
  unfold black76Price
  simp only [black76PriceInner_degenerate r _ (hdegenerate _)]

theorem intrinsic_le_price (hf : 0 < f) (hk : 0 < k) (ht : 0 < t) {sigma : ℝ}
    (hsigma : 0 < sigma) :
    Real.exp (-r * t) * intrinsic f k (right = "C" || right = "c") ≤
      black76Price realFunctions f k t sigma r right := by
  have hlt := intrinsic_lt_price r (if right = "C" || right = "c" then 'C' else 'P') hf hk ht hsigma
  have hcall : isCall (if right = "C" || right = "c" then 'C' else 'P') =
      (right = "C" || right = "c" : Bool) := by
    split_ifs with h
    · rw [h]
      simp [isCall]
    · rw [Bool.eq_false_iff.mpr h]
      simp [isCall]
  rw [hcall] at hlt
  exact hlt.le

/-- The function whose root is looked for. -/
noncomputable def objective (price f k t r : ℝ) (right : String) (sigma : ℝ) : ℝ :=
  black76Price realFunctions f k t sigma r right - price

theorem impliedVol_eq (price f k t r : ℝ) (right : String) :
    impliedVol realFunctions price f k t r right =
      if t ≤ 0 ∨ price ≤ 0 ∨
          price < Real.exp (-r * t) * intrinsic f k (right = "C" || right = "c") - 1 / 10 ^ 10 then
        none
      else brent (objective price f k t r right) (1 / 100) 5 (1 / 10 ^ 6) 100 := by
  have hlo : (F64.lit 1 2 : ℝ) = 1 / 100 := by
    rw [real_lit]
    norm_num
  have htol : (F64.lit 1 6 : ℝ) = 1 / 10 ^ 6 := by rw [real_lit, Int.cast_one]
  have hslack : (F64.lit 1 10 : ℝ) = 1 / 10 ^ 10 := by rw [real_lit, Int.cast_one]
  simp only [impliedVol, hlo, htol, hslack, real_whole, Int.cast_ofNat, real_le, real_lt, real_zero,
    Bool.or_eq_true, decide_eq_true_eq, realFunctions_exp, ite_or]
  rfl

theorem continuousOn_objective (price : ℝ) (hf : 0 < f) (hk : 0 < k) (ht : 0 < t) :
    ContinuousOn (objective price f k t r right) (Icc (1 / 100) 5) := by
  refine ContinuousOn.sub ((continuousOn_price r right hf hk ht).mono ?_) continuousOn_const
  exact fun s hs => lt_of_lt_of_le (by norm_num) hs.1

theorem flat_of_not (h : ¬(0 < f ∧ 0 < k)) : f ≤ 0 ∨ k ≤ 0 := by
  rcases not_and_or.mp h with hf | hk
  · exact .inl (not_lt.mp hf)
  · exact .inr (not_lt.mp hk)

variable {price : ℝ}

theorem exists_exact {sigma : ℝ} (ht : 0 < t)
    (h : brent (objective price f k t r right) (1 / 100) 5 (1 / 10 ^ 6) 100 = some sigma) :
    sigma ∈ Icc (1 / 100) 5 ∧
      ∃ exact ∈ Ioo (1 / 100 : ℝ) 5,
        (∀ s, 0 < s → (black76Price realFunctions f k t s r right = price ↔ s = exact)) ∧
          (|sigma - exact| < 1 / 10 ^ 6 ∨
            |black76Price realFunctions f k t sigma r right - price| < 1 / 10 ^ 9) := by
  obtain ⟨hneg, B, hbest, hsettled⟩ := brent_brackets (by norm_num) h
  have hpos : 0 < f ∧ 0 < k := by
    by_contra hnot
    rw [objective, objective, black76Price_const r right (flat_of_not hnot) (1 / 100) 5] at hneg
    exact absurd hneg (not_lt.mpr (mul_self_nonneg _))
  have hmono := strictMonoOn_price r right hpos.1 hpos.2 ht
  have hrange : Icc (1 / 100 : ℝ) 5 ⊆ Ioi 0 := fun s hs => lt_of_lt_of_le (by norm_num) hs.1
  obtain ⟨z, hz, hroot⟩ := B.exists_root (continuousOn_objective r right price hpos.1 hpos.2 ht)
  have hexact : black76Price realFunctions f k t z r right = price := sub_eq_zero.mp hroot
  have hzrange := B.uIcc_subset hz
  rw [← hbest]
  refine ⟨B.best_mem, z, ⟨hzrange.1.lt_of_ne ?_, hzrange.2.lt_of_ne ?_⟩, fun s hs => ?_, ?_⟩
  · rintro rfl
    rw [hroot, zero_mul] at hneg
    exact lt_irrefl _ hneg
  · rintro rfl
    rw [hroot, mul_zero] at hneg
    exact lt_irrefl _ hneg
  · rw [← hexact]
    exact hmono.injOn.eq_iff hs (hrange hzrange)
  · refine (settled_iff.mp hsettled).imp_left fun hnarrow => lt_of_le_of_lt ?_ hnarrow
    exact abs_sub_right_of_mem_uIcc hz

/-- The prices at the ends of the bracket are in order. -/
theorem price_ends (f k : ℝ) (ht : 0 < t) :
    black76Price realFunctions f k t (1 / 100) r right ≤
      black76Price realFunctions f k t 5 r right := by
  by_cases hpos : 0 < f ∧ 0 < k
  · exact (strictMonoOn_price r right hpos.1 hpos.2 ht).monotoneOn
      (by norm_num : (0 : ℝ) < 1 / 100) (by norm_num : (0 : ℝ) < 5) (by norm_num)
  · exact (black76Price_const r right (flat_of_not hpos) _ _).le

/-- A price that is refused is below the range, or does not move the formula at all. -/
theorem low_price (ht : 0 < t)
    (hlow : price ≤ 0 ∨
      price < Real.exp (-r * t) * intrinsic f k (right = "C" || right = "c") - 1 / 10 ^ 10) :
    price ≤ black76Price realFunctions f k t (1 / 100) r right ∨
      black76Price realFunctions f k t 5 r right ≤ price := by
  by_cases hpos : 0 < f ∧ 0 < k
  · refine .inl ?_
    have hbound := intrinsic_le_price r right hpos.1 hpos.2 ht (by norm_num : (0 : ℝ) < 1 / 100)
    rcases hlow with hzero | hbelow
    · refine hzero.trans (le_trans (mul_nonneg (Real.exp_pos _).le ?_) hbound)
      unfold intrinsic
      split_ifs <;> simp
    · refine le_trans ?_ hbound
      linarith [show (0 : ℝ) < 1 / 10 ^ 10 by positivity]
  · rw [black76Price_const r right (flat_of_not hpos) 5 (1 / 100)]
    exact le_total _ _

/-- **What `implied_vol` returns.**  Where it returns a volatility, there is just one volatility
that has the price, and what is returned is in the code's range and within the tolerance of that
one, or its own price is within `1e-9` of the one asked for.  Where it returns none, the time is
up, or the price is not between those at the ends of the range, or a hundred rounds have not
settled. -/
theorem implied_vol_solves (price f k t r : ℝ) (right : String) :
    let value := fun sigma => black76Price realFunctions f k t sigma r right
    match impliedVol realFunctions price f k t r right with
    | some sigma =>
        sigma ∈ Icc (1 / 100) 5 ∧
          ∃ exact ∈ Ioo (1 / 100 : ℝ) 5, (∀ s, 0 < s → (value s = price ↔ s = exact)) ∧
            (|sigma - exact| < 1 / 10 ^ 6 ∨ |value sigma - price| < 1 / 10 ^ 9)
    | none =>
        t ≤ 0 ∨ price ≤ value (1 / 100) ∨ value 5 ≤ price ∨
          let last := (BrentState.step (objective price f k t r right) (1 / 10 ^ 6))^[100]
            (.start (objective price f k t r right) (1 / 100) 5)
          1 / 10 ^ 6 ≤ |last.b - last.a| ∧ 1 / 10 ^ 9 ≤ |last.fb| := by
  intro value
  cases h : impliedVol realFunctions price f k t r right with
  | some sigma =>
      rw [impliedVol_eq] at h
      split_ifs at h with hguard
      exact exists_exact r right (not_le.mp fun ht => hguard (.inl ht)) h
  | none =>
      rcases le_or_gt t 0 with ht | ht
      · exact .inl ht
      refine .inr ?_
      rw [impliedVol_eq] at h
      split_ifs at h with hguard
      · have hlow := low_price r right ht (hguard.resolve_left (not_le.mpr ht))
        exact hlow.imp_right .inl
      · unfold brent at h
        split_ifs at h with hsign
        · have hends := price_ends r right f k ht
          have hsame : 0 ≤ objective price f k t r right (1 / 100) *
              objective price f k t r right 5 := by
            simpa [F64.ge] using hsign
          rcases le_or_gt price (value (1 / 100)) with hle | hgt
          · exact .inl hle
          · refine .inr (.inl (sub_nonpos.mp ?_))
            exact nonpos_of_mul_nonneg_right hsame (sub_neg.mpr hgt)
        · exact .inr (.inr (brentLoop_none h))

end Vol

end Corsair.Ports.ImpliedVol
