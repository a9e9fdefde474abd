import Corsair.Verified.Elimination
import Corsair.Verified.RealNumbers

/-!
# `corsair_pricing`: the least-squares solver

`lm_solve` is a Levenberg-Marquardt solver with bounds.  Each round takes the Jacobian by
central differences and tries steps, which solve the damped normal equations, until one of
them lowers the cost; the damping grows with each refusal.  A step is cut back to the bounds
before it is tried.

The number of parameters and of residuals is that of the arrays, which the closures that the
calibrators pass keep.

## Main results

* `solve_linear_solves` — elimination finds the one solution, or a column without a pivot.
* `step_minimises` — the step is the least point of the damped linearised cost.
* `lm_solve_spec` — where the solver ends, whatever the residuals are.
-/

namespace Corsair.Ports.LeastSquares

open Corsair.Verified
open Corsair.Verified.Elimination

attribute [local instance] realF64

variable {n m : Nat}

section Code

variable {F : Type} [F64 F]

/-! ## The linear solver -/

/-- `(k + 1)..n`. -/
def rowsAfter (k : Fin n) : List (Fin n) := (List.finRange n).filter (k < ·)

/-- The better of two candidates for the pivot, which are rows with their entries. -/
def larger (s : LinSystem F n) (k : Fin n) (best : Fin n × F) (i : Fin n) : Fin n × F :=
  if F64.gt (F64.abs (s.a i k)) best.2 then (i, F64.abs (s.a i k)) else best

/-- The row with the largest entry of column `k`, and that entry. -/
def pivotRow (s : LinSystem F n) (k : Fin n) : Fin n × F :=
  (rowsAfter k).foldl (larger s k) (k, F64.abs (s.a k k))

def eliminateRow (k : Fin n) (s : LinSystem F n) (i : Fin n) : LinSystem F n :=
  let factor := s.a i k / s.a k k
  { a := Function.update s.a i fun j => if k ≤ j then s.a i j - factor * s.a k j else s.a i j
    b := Function.update s.b i (s.b i - factor * s.b k) }

/-- A round of the elimination; a system without a pivot is singular. -/
def eliminateColumn (s : LinSystem F n) (k : Fin n) : Option (LinSystem F n) :=
  let (piv, pivVal) := pivotRow s k
  if F64.lt pivVal (F64.lit 1 14) then none
  else
    let s := if piv ≠ k then s.swap piv k else s
    some ((rowsAfter k).foldl (eliminateRow k) s)

/-- A round of the back-substitution. -/
def backRow (a : Fin n → Fin n → F) (i : Fin n) (b : Fin n → F) : Fin n → F :=
  Function.update b i ((rowsAfter i).foldl (fun s j => s - a i j * b j) (b i) / a i i)

/-- `solve_linear`. -/
def solveLinear (s : LinSystem F n) : Option (Fin n → F) :=
  ((List.finRange n).foldlM eliminateColumn s).map fun s =>
    (List.finRange n).foldr (backRow s.a) s.b

/-! ## The damped normal equations -/

/-- `jtj`, before it is damped. -/
def gram (j : Fin m → Fin n → F) (i l : Fin n) : F :=
  (List.finRange m).foldl (fun acc k => acc + j k i * j k l) F64.zero

/-- `jtr`. -/
def negGradient (j : Fin m → Fin n → F) (r : Fin m → F) (i : Fin n) : F :=
  (List.finRange m).foldl (fun acc k => acc - j k i * r k) F64.zero

/-- The damping of a diagonal entry. -/
def damping (j : Fin m → Fin n → F) (mu : F) (i : Fin n) : F :=
  mu * F64.max (gram j i i) (F64.lit 1 12)

/-- `build_normal_eqs`. -/
def buildNormalEqs (j : Fin m → Fin n → F) (r : Fin m → F) (mu : F) : LinSystem F n where
  a i l := if i = l then gram j i i + damping j mu i else gram j i l
  b := negGradient j r

/-! ## The solver -/

/-- `EPS_GRAD`. -/
def epsGrad : F := F64.lit 1 8
/-- `EPS_STEP`. -/
def epsStep : F := F64.lit 1 9
/-- `EPS_COST`. -/
def epsCost : F := F64.lit 1 12
/-- `FD_STEP`. -/
def fdStep : F := F64.lit 1 6
/-- `LM_MU_INIT`. -/
def lmMuInit : F := F64.lit 1 3
/-- `LM_MU_DOWN`. -/
def lmMuDown : F := F64.lit 4 1
/-- `LM_MU_UP`. -/
def lmMuUp : F := F64.lit 5 0
/-- `LM_MU_FLOOR`. -/
def lmMuFloor : F := F64.lit 1 12
/-- `LM_MU_CEIL`. -/
def lmMuCeil : F := F64.lit 10000000000 0

/-- The sum of the squares of an array. -/
def sumSquares (v : Fin n → F) : F := (List.finRange n).foldl (fun acc i => acc + v i * v i) F64.zero

/-- `cost`. -/
def cost (r : Fin m → F) : F := F64.lit 5 1 * sumSquares r

/-- `project`. -/
def project (lb ub x : Fin n → F) (i : Fin n) : F :=
  if F64.lt (x i) (lb i) then lb i else if F64.gt (x i) (ub i) then ub i else x i

/-- `numerical_jacobian`. -/
def numericalJacobian (f : (Fin n → F) → Fin m → F) (x : Fin n → F) (k : Fin m) (i : Fin n) : F :=
  let h := fdStep * F64.max (F64.abs (x i)) (F64.lit 1 0)
  (f (Function.update x i (x i + h)) k - f (Function.update x i (x i - h)) k) * (F64.lit 5 1 / h)

/-- The variables of the solver, which are also what it returns: `LMResult`. -/
structure LMResult (F : Type) (n m : Nat) where
  x : Fin n → F
  residuals : Fin m → F
  cost : F
  nfev : Nat
  success : Bool

/-- `mu`, after a refusal. -/
def raise (mu : F) : F := F64.min (mu * lmMuUp) lmMuCeil

/-- The norm of the gradient; `g` is summed before it is squared. -/
def gradNorm (sqrt : F → F) (j : Fin m → Fin n → F) (r : Fin m → F) : F :=
  sqrt (sumSquares fun i => (List.finRange m).foldl (fun acc k => acc + j k i * r k) F64.zero)

variable (sqrt : F → F) (f : (Fin n → F) → Fin m → F) (lb ub : Fin n → F) (maxNfev : Nat)

/-- The tries that are left of a round.  The last component says that one was accepted. -/
def tries (j : Fin m → Fin n → F) : Nat → LMResult F n m → F → LMResult F n m × F × Bool
  | 0, s, mu => (s, mu, false)
  | left + 1, s, mu =>
      match solveLinear (buildNormalEqs j s.residuals mu) with
      | none => tries j left s (raise mu)
      | some step =>
          let xNew := project lb ub fun i => s.x i + step i
          let rNew := f xNew
          let nfev := s.nfev + 1
          let cNew := cost rNew
          if F64.lt cNew s.cost then
            let stepNorm := sqrt (sumSquares step)
            let costRel := (s.cost - cNew) / F64.max s.cost (F64.lit 1 30)
            ({ x := xNew
               residuals := rNew
               cost := cNew
               nfev
               success := s.success || F64.lt stepNorm epsStep || F64.lt costRel epsCost },
              F64.max (mu * lmMuDown) lmMuFloor, true)
          else
            let mu := raise mu
            let s := { s with nfev }
            if F64.ge mu lmMuCeil then (s, mu, false)
            else if maxNfev ≤ nfev then (s, mu, false)
            else tries j left s mu

/-- The rounds that are left. -/
def rounds : Nat → LMResult F n m → F → LMResult F n m
  | 0, s, _ => s
  | left + 1, s, mu =>
      if maxNfev ≤ s.nfev then s
      else
        let j := numericalJacobian f s.x
        let s := { s with nfev := s.nfev + 2 * n }
        if F64.lt (gradNorm sqrt j s.residuals) epsGrad then { s with success := true }
        else
          match tries sqrt f lb ub maxNfev j 30 s mu with
          | (s, mu, accepted) =>
              if !accepted then s else if s.success then s else rounds left s mu

/-- `lm_solve`. -/
def lmSolve (x0 : Fin n → F) : LMResult F n m :=
  let x := project lb ub x0
  let r := f x
  rounds sqrt f lb ub maxNfev 200
    { x, residuals := r, cost := cost r, nfev := 1, success := false } lmMuInit

end Code

/-! ## The linear solver, in exact arithmetic -/

theorem mem_rowsAfter {k i : Fin n} : i ∈ rowsAfter k ↔ k < i := by
  simp [rowsAfter]

theorem nodup_rowsAfter (k : Fin n) : (rowsAfter k).Nodup :=
  (List.nodup_finRange n).filter _

section Elimination

variable {s s' : LinSystem ℝ n} {k : Fin n}

/-- The first of the largest entries of column `k` among the rows that have been looked at. -/
structure IsLargest (s : LinSystem ℝ n) (k : Fin n) (seen : List (Fin n)) (best : Fin n × ℝ) :
    Prop where
  after : k ≤ best.1
  value : best.2 = |s.a best.1 k|
  largest : ∀ i ∈ seen, |s.a i k| ≤ best.2
  first : ∀ i ∈ seen, i < best.1 → |s.a i k| < best.2

theorem IsLargest.step {seen : List (Fin n)} {best : Fin n × ℝ} (h : IsLargest s k seen best)
    {i : Fin n} (hi : k < i) (hbest : best.1 < i) :
    IsLargest s k (seen ++ [i]) (larger s k best i) := by
  have hlarger : larger s k best i = if best.2 < |s.a i k| then (i, |s.a i k|) else best := by
    simp only [larger, F64.gt, real_lt, real_abs, decide_eq_true_eq]
  rw [hlarger]
  split_ifs with hlt
  · refine ⟨hi.le, rfl, fun j hj => ?_, fun j hj hji => ?_⟩
    · rcases List.mem_append.mp hj with hj | hj
      · exact (h.largest j hj).trans hlt.le
      · rw [List.mem_singleton.mp hj]
    · rcases List.mem_append.mp hj with hj | hj
      · exact (h.largest j hj).trans_lt hlt
      · rw [List.mem_singleton.mp hj] at hji
        exact absurd hji (lt_irrefl i)
  · refine ⟨h.after, h.value, fun j hj => ?_, fun j hj hji => ?_⟩
    · rcases List.mem_append.mp hj with hj | hj
      · exact h.largest j hj
      · rw [List.mem_singleton.mp hj]
        exact not_lt.mp hlt
    · rcases List.mem_append.mp hj with hj | hj
      · exact h.first j hj hji
      · rw [List.mem_singleton.mp hj] at hji
        exact absurd hji (lt_asymm hbest)

/-- The rows come in order, so that the best of those before is above the next. -/
theorem IsLargest.foldl {seen rows : List (Fin n)} {best : Fin n × ℝ}
    (h : IsLargest s k seen best) (hrows : ∀ i ∈ rows, k < i ∧ best.1 < i)
    (hsorted : rows.Pairwise (· < ·)) :
    IsLargest s k (seen ++ rows) (rows.foldl (larger s k) best) := by
  induction rows generalizing seen best with
  | nil => simpa using h
  | cons i rest ih =>
      obtain ⟨hk, hbest⟩ := hrows i List.mem_cons_self
      obtain ⟨hfirst, hrest⟩ := List.pairwise_cons.mp hsorted
      have hstep := h.step hk hbest
      have hnext : ∀ j ∈ rest, k < j ∧ (larger s k best i).1 < j := by
        intro j hj
        refine ⟨(hrows j (List.mem_cons_of_mem i hj)).1, ?_⟩
        unfold larger
        split_ifs
        · exact hfirst j hj
        · exact (hrows j (List.mem_cons_of_mem i hj)).2
      simpa using ih hstep hnext hrest

theorem pivotRow_isLargest (s : LinSystem ℝ n) (k : Fin n) :
    IsLargest s k ([k] ++ rowsAfter k) (pivotRow s k) := by
  have hfirst : IsLargest s k [k] (k, F64.abs (s.a k k)) := by
    refine ⟨le_refl k, rfl, by simp, fun i hi hik => ?_⟩
    rw [List.mem_singleton.mp hi] at hik
    exact absurd hik (lt_irrefl k)
  exact hfirst.foldl (fun i hi => ⟨mem_rowsAfter.mp hi, mem_rowsAfter.mp hi⟩)
    ((List.pairwise_lt_finRange n).filter _)

theorem mem_looked_at {i : Fin n} (hi : k ≤ i) : i ∈ [k] ++ rowsAfter k := by
  rcases hi.lt_or_eq with hlt | rfl
  · exact List.mem_append_right _ (mem_rowsAfter.mpr hlt)
  · exact List.mem_append_left _ List.mem_cons_self

/-- The row that is chosen is the pivot row. -/
theorem pivot_pivotRow (s : LinSystem ℝ n) (k : Fin n) : Pivot s k (pivotRow s k).1 where
  after := (pivotRow_isLargest s k).after
  largest i hi := by
    rw [← (pivotRow_isLargest s k).value]
    exact (pivotRow_isLargest s k).largest i (mem_looked_at hi)
  first i hi hip := by
    rw [← (pivotRow_isLargest s k).value]
    exact (pivotRow_isLargest s k).first i (mem_looked_at hi) hip

/-- A row operation of the code is one of the library where nothing is left of the pivot. -/
theorem eliminateRow_eq {i : Fin n} (hi : ∀ j, j < k → s.a i j = 0) (hk : ∀ j, j < k → s.a k j = 0) :
    eliminateRow k s i = s.subRow i k (s.a i k / s.a k k) := by
  have hrow : (fun j => if k ≤ j then s.a i j - s.a i k / s.a k k * s.a k j else s.a i j) =
      fun j => s.a i j - s.a i k / s.a k k * s.a k j := by
    funext j
    split_ifs with hj
    · rfl
    · rw [hi j (not_le.mp hj), hk j (not_le.mp hj), mul_zero, sub_zero]
  simp only [eliminateRow, LinSystem.subRow, hrow]

/-- The rows below a pivot, one after the other. -/
theorem foldl_eliminateRow {rows : List (Fin n)} (hrows : ∀ i ∈ rows, k < i) (hnodup : rows.Nodup)
    (hleft : ∀ i j, k ≤ i → j < k → s.a i j = 0) :
    rows.foldl (eliminateRow k) s =
      { a := fun i => if i ∈ rows then clearedRow s k i else s.a i
        b := fun i => if i ∈ rows then s.b i - s.a i k / s.a k k * s.b k else s.b i } := by
  induction rows generalizing s with
  | nil => simp
  | cons i rest ih =>
      have hki : k < i := hrows i List.mem_cons_self
      have hi : i ∉ rest := (List.nodup_cons.mp hnodup).1
      have hop := eliminateRow_eq (hleft i · hki.le) (hleft k · (le_refl k))
      have hself : (eliminateRow k s i).a i = clearedRow s k i := by
        funext j
        rw [hop, LinSystem.subRow, clearedRow, if_pos hki]
        simp
      have hother {r : Fin n} (hr : r ≠ i) :
          (eliminateRow k s i).a r = s.a r ∧ (eliminateRow k s i).b r = s.b r := by
        rw [hop, LinSystem.subRow]
        exact ⟨Function.update_of_ne hr _ _, Function.update_of_ne hr _ _⟩
      have hleft' : ∀ r j, k ≤ r → j < k → (eliminateRow k s i).a r j = 0 := by
        intro r j hr hj
        by_cases hri : r = i
        · rw [hri, hself, clearedRow, if_pos hki, hleft i j hki.le hj, hleft k j (le_refl k) hj,
            mul_zero, sub_zero]
        · rw [(hother hri).1]
          exact hleft r j hr hj
      rw [List.foldl_cons, ih (fun r hr => hrows r (List.mem_cons_of_mem i hr))
        (List.nodup_cons.mp hnodup).2 hleft']
      refine LinSystem.ext (funext fun r => ?_) (funext fun r => ?_)
      · by_cases hri : r = i
        · subst hri
          simp only [hi, if_false, List.mem_cons_self, if_true, hself]
        · have hcleared : clearedRow (eliminateRow k s i) k r = clearedRow s k r := by
            funext j
            simp only [clearedRow, (hother hri).1, (hother hki.ne).1]
          simp only [List.mem_cons, hri, false_or, hcleared, (hother hri).1]
      · by_cases hri : r = i
        · subst hri
          simp only [hi, if_false, List.mem_cons_self, if_true]
          rw [hop, LinSystem.subRow]
          exact Function.update_self _ _ _
        · simp only [List.mem_cons, hri, false_or, (hother hri).1, (hother hri).2,
            (hother hki.ne).1, (hother hki.ne).2]

theorem eliminateColumn_eq (s : LinSystem ℝ n) (k : Fin n) :
    eliminateColumn s k =
      if (pivotRow s k).2 < 1 / 10 ^ 14 then none
      else some ((rowsAfter k).foldl (eliminateRow k) (s.swap (pivotRow s k).1 k)) := by
  have hlit : (F64.lit 1 14 : ℝ) = 1 / 10 ^ 14 := by rw [real_lit, Int.cast_one]
  have hswap : (if (pivotRow s k).1 ≠ k then s.swap (pivotRow s k).1 k else s) =
      s.swap (pivotRow s k).1 k := by
    by_cases hk : (pivotRow s k).1 = k
    · simp [hk]
    · exact if_pos hk
  simp only [eliminateColumn, real_lt, hlit, decide_eq_true_eq, hswap]

/-- **A round is one of elimination with partial pivoting**, or finds no pivot in its column. -/
theorem eliminateColumn_spec {s₀ : LinSystem ℝ n} (h : Eliminates (1 / 10 ^ 14) s₀ k.val s) :
    match eliminateColumn s k with
    | some s' => Eliminates (1 / 10 ^ 14) s₀ (k.val + 1) s'
    | none => ∀ i, k ≤ i → |s.a i k| < 1 / 10 ^ 14 := by
  have hpivot := pivot_pivotRow s k
  have hvalue := (pivotRow_isLargest s k).value
  rw [eliminateColumn_eq]
  split_ifs with hsmall
  · rw [hvalue] at hsmall
    exact fun i hi => (hpivot.largest i hi).trans_lt hsmall
  · rw [hvalue] at hsmall
    have hround := h.column hpivot (not_lt.mp hsmall)
    have hreduced : Reduced (s.swap (pivotRow s k).1 k) k.val :=
      (h.reduced (by positivity)).swap hpivot.after (le_refl _)
    have hrows := foldl_eliminateRow (fun i hi => mem_rowsAfter.mp hi) (nodup_rowsAfter k)
      fun i j hi hj => hreduced.cleared i j hj (hj.trans_le hi)
    have hcolumn : (rowsAfter k).foldl (eliminateRow k) (s.swap (pivotRow s k).1 k) =
        clearColumn (s.swap (pivotRow s k).1 k) k := by
      rw [hrows]
      refine LinSystem.ext (funext fun i => ?_) (funext fun i => ?_)
      · funext j
        by_cases hki : k < i
        · simp only [mem_rowsAfter, clearColumn, hki, if_true]
        · simp only [mem_rowsAfter, clearColumn, hki, if_false, clearedRow]
      · simp only [mem_rowsAfter, clearColumn]
    rw [hcolumn]
    exact hround

/-- The rounds that are left, from a column on. -/
theorem foldlM_eliminateColumn {s₀ : LinSystem ℝ n} {k : Nat} {columns : List (Fin n)}
    (hcolumns : columns = (List.finRange n).drop k) (hk : k ≤ n)
    (h : Eliminates (1 / 10 ^ 14) s₀ k s) :
    match columns.foldlM eliminateColumn s with
    | some s' => Eliminates (1 / 10 ^ 14) s₀ n s'
    | none => ∃ (k : Fin n) (s' : LinSystem ℝ n), Eliminates (1 / 10 ^ 14) s₀ k.val s' ∧
        ∀ i, k ≤ i → |s'.a i k| < 1 / 10 ^ 14 := by
  induction columns generalizing k s with
  | nil =>
      have hlen := congrArg List.length hcolumns
      rw [List.length_drop, List.length_finRange, List.length_nil] at hlen
      obtain rfl : k = n := by omega
      exact h
  | cons c rest ih =>
      have hlt : k < n := by
        have hlen := congrArg List.length hcolumns
        rw [List.length_drop, List.length_finRange, List.length_cons] at hlen
        omega
      rw [List.drop_eq_getElem_cons (by rwa [List.length_finRange]), List.getElem_finRange] at hcolumns
      obtain ⟨hc, hrest⟩ := List.cons.inj hcolumns
      obtain rfl : c.val = k := by simp [hc]
      have hround := eliminateColumn_spec h
      rw [List.foldlM_cons]
      cases hstep : eliminateColumn s c with
      | none =>
          rw [hstep] at hround
          exact ⟨c, s, h, hround⟩
      | some s₁ =>
          rw [hstep] at hround
          exact ih hrest hlt hround

/-! ## Back-substitution -/

theorem foldl_sub (g : Fin n → ℝ) (rows : List (Fin n)) (hnodup : rows.Nodup) (b : ℝ) :
    rows.foldl (fun s j => s - g j) b = b - ∑ j ∈ rows.toFinset, g j := by
  induction rows generalizing b with
  | nil => simp
  | cons i rest ih =>
      obtain ⟨hi, hrest⟩ := List.nodup_cons.mp hnodup
      rw [List.foldl_cons, ih hrest, List.toFinset_cons, Finset.sum_insert (by simpa using hi)]
      ring

theorem backRow_self (s : LinSystem ℝ n) (i : Fin n) (x : Fin n → ℝ) :
    backRow s.a i x i = (x i - tail s i x) / s.a i i := by
  have hrows : (rowsAfter i).toFinset = Finset.univ.filter (i < ·) := by
    ext j
    simp [mem_rowsAfter]
  rw [backRow, Function.update_self, foldl_sub _ _ (nodup_rowsAfter i), hrows, tail]

theorem backRow_of_ne {a : Fin n → Fin n → ℝ} {i r : Fin n} (h : r ≠ i) (x : Fin n → ℝ) :
    backRow a i x r = x r :=
  Function.update_of_ne h _ _

/-- **The rows from one on are solved**, and the others are as they were. -/
theorem foldr_backRow (s : LinSystem ℝ n) {rows : List (Fin n)} (hsorted : rows.Pairwise (· < ·))
    (hclosed : ∀ r ∈ rows, ∀ j, r < j → j ∈ rows) :
    let x := rows.foldr (backRow s.a) s.b
    (∀ r ∈ rows, x r = (s.b r - tail s r x) / s.a r r) ∧ ∀ r, r ∉ rows → x r = s.b r := by
  induction rows with
  | nil => exact ⟨by simp, fun _ _ => rfl⟩
  | cons i rest ih =>
      obtain ⟨hfirst, hrest⟩ := List.pairwise_cons.mp hsorted
      have hi : i ∉ rest := fun hmem => lt_irrefl i (hfirst i hmem)
      have hclosed' : ∀ r ∈ rest, ∀ j, r < j → j ∈ rest := by
        intro r hr j hj
        have hmem := hclosed r (List.mem_cons_of_mem i hr) j hj
        refine (List.mem_cons.mp hmem).resolve_left ?_
        rintro rfl
        exact lt_asymm hj (hfirst r hr)
      obtain ⟨hsolved, hkept⟩ := ih hrest hclosed'
      refine ⟨fun r hr => ?_, fun r hr => ?_⟩
      · rw [List.foldr_cons]
        rcases List.mem_cons.mp hr with rfl | hr
        · rw [backRow_self, hkept r hi]
          refine congrArg (fun t => (s.b r - t) / s.a r r) (tail_congr fun j hj => ?_)
          rw [backRow_of_ne hj.ne']
        · have hne : r ≠ i := fun e => hi (e ▸ hr)
          rw [backRow_of_ne hne, hsolved r hr]
          refine congrArg (fun t => (s.b r - t) / s.a r r) (tail_congr fun j hj => ?_)
          rw [backRow_of_ne (hfirst r hr |>.trans hj).ne']
      · rw [List.mem_cons, not_or] at hr
        rw [List.foldr_cons, backRow_of_ne hr.1, hkept r hr.2]

/-- Where the elimination gets through, what comes back is the one solution … -/
theorem solveLinear_some {s : LinSystem ℝ n} {x : Fin n → ℝ} (h : solveLinear s = some x) :
    (∃ s', Eliminates (1 / 10 ^ 14) s n s') ∧ ∀ y, Solves s y ↔ y = x := by
  have helim := foldlM_eliminateColumn List.drop_zero.symm (Nat.zero_le n) (.start (s := s))
  unfold solveLinear at h
  cases hforward : (List.finRange n).foldlM eliminateColumn s with
  | none =>
      rw [hforward] at h
      cases h
  | some s' =>
      rw [hforward] at helim h
      obtain rfl := Option.some.inj h
      have hreduced : Reduced s' n := helim.reduced (by positivity)
      obtain ⟨hrows, -⟩ := foldr_backRow s' (List.pairwise_lt_finRange n)
        fun r _ j _ => List.mem_finRange j
      have hx : Solves s' ((List.finRange n).foldr (backRow s'.a) s'.b) :=
        (hreduced.solves_iff _).mpr fun i => hrows i (List.mem_finRange i)
      refine ⟨⟨s', helim⟩, fun y => ?_⟩
      rw [← helim.solves_iff y]
      constructor
      · exact fun hy => hreduced.unique hy hx
      · rintro rfl
        exact hx

/-- … and where it does not, it has come to a column without a pivot. -/
theorem solveLinear_none {s : LinSystem ℝ n} (h : solveLinear s = none) :
    ∃ (k : Fin n) (s' : LinSystem ℝ n), Eliminates (1 / 10 ^ 14) s k.val s' ∧
      ∀ i, k ≤ i → |s'.a i k| < 1 / 10 ^ 14 := by
  have helim := foldlM_eliminateColumn List.drop_zero.symm (Nat.zero_le n) (.start (s := s))
  unfold solveLinear at h
  cases hforward : (List.finRange n).foldlM eliminateColumn s with
  | none =>
      rw [hforward] at helim
      exact helim
  | some s' =>
      rw [hforward] at h
      cases h

/-- **What `solve_linear` returns**: the one solution, or nothing just where elimination with
partial pivoting, which keeps the solutions and takes one way, comes to a column with no entry
of `1e-14` left for a pivot. -/
theorem solve_linear_solves (s : LinSystem ℝ n) :
    (∀ x, solveLinear s = some x → ∀ y, Solves s y ↔ y = x) ∧
      (solveLinear s = none ↔
        ∃ (k : Fin n) (s' : LinSystem ℝ n), Eliminates (1 / 10 ^ 14) s k.val s' ∧
          (∀ y, Solves s' y ↔ Solves s y) ∧ ∀ i, k ≤ i → |s'.a i k| < 1 / 10 ^ 14) := by
  refine ⟨fun x h => (solveLinear_some h).2, fun h => ?_, ?_⟩
  · obtain ⟨k, s', helim, hsmall⟩ := solveLinear_none h
    exact ⟨k, s', helim, helim.solves_iff, hsmall⟩
  · rintro ⟨k, s', helim, -, hsmall⟩
    cases h : solveLinear s with
    | none => rfl
    | some x =>
        obtain ⟨⟨s'', hfull⟩, -⟩ := solveLinear_some h
        obtain ⟨i, hi, hlarge⟩ := hfull.pivot k.isLt helim
        exact absurd (hsmall i hi) (not_lt.mpr hlarge)

end Elimination

/-! ## The step -/

section Step

variable (j : Fin m → Fin n → ℝ) (r : Fin m → ℝ) (mu : ℝ)

theorem foldl_add (g : Fin m → ℝ) :
    (List.finRange m).foldl (fun acc k => acc + g k) F64.zero = ∑ k, g k := by
  have hfold (rows : List (Fin m)) (acc : ℝ) :
      rows.foldl (fun acc k => acc + g k) acc = acc + (rows.map g).sum := by
    induction rows generalizing acc with
    | nil => simp
    | cons k rest ih => rw [List.foldl_cons, ih, List.map_cons, List.sum_cons, add_assoc]
  rw [hfold, real_zero, zero_add, ← Fin.sum_univ_def]

theorem gram_eq (i l : Fin n) : gram j i l = ∑ k, j k i * j k l := foldl_add _

theorem negGradient_eq (i : Fin n) : negGradient j r i = -∑ k, j k i * r k := by
  rw [← Finset.sum_neg_distrib, ← foldl_add]
  simp only [negGradient, sub_eq_add_neg]

theorem damping_pos {mu : ℝ} (hmu : 0 < mu) (i : Fin n) : 0 < damping j mu i := by
  have hlit : (0 : ℝ) < F64.lit 1 12 := by
    rw [real_lit]
    norm_num
  exact mul_pos hmu (lt_max_of_lt_right hlit)

/-- The residuals to first order, after a step. -/
noncomputable def linearised (y : Fin n → ℝ) (k : Fin m) : ℝ := r k + ∑ i, j k i * y i

/-- The cost that a step has: of the linearised residuals, and of its own length. -/
noncomputable def dampedCost (y : Fin n → ℝ) : ℝ :=
  ∑ k, linearised j r y k ^ 2 + ∑ i, damping j mu i * y i ^ 2

/-- The normal equations say that the gradient of the damped cost is zero. -/
theorem solves_iff (step : Fin n → ℝ) :
    Solves (buildNormalEqs j r mu) step ↔
      ∀ i, ∑ k, j k i * linearised j r step k + damping j mu i * step i = 0 := by
  refine forall_congr' fun i => ?_
  have hrow : ∑ l, (buildNormalEqs j r mu).a i l * step l =
      ∑ l, gram j i l * step l + damping j mu i * step i := by
    have hsplit (l : Fin n) : (buildNormalEqs j r mu).a i l * step l =
        gram j i l * step l + if i = l then damping j mu i * step i else 0 := by
      by_cases hil : i = l
      · subst hil
        simp only [buildNormalEqs, if_true]
        ring
      · simp only [buildNormalEqs, hil, if_false, add_zero]
    simp only [hsplit, Finset.sum_add_distrib, Finset.sum_ite_eq, Finset.mem_univ, if_true]
  have hgram : ∑ l, gram j i l * step l = ∑ k, j k i * ∑ l, j k l * step l := by
    simp only [gram_eq, Finset.sum_mul, Finset.mul_sum]
    rw [Finset.sum_comm]
    exact Finset.sum_congr rfl fun k _ => Finset.sum_congr rfl fun l _ => by ring
  have hlinear : ∑ k, j k i * linearised j r step k =
      ∑ k, j k i * r k + ∑ k, j k i * ∑ l, j k l * step l := by
    simp only [linearised, mul_add, Finset.sum_add_distrib]
  rw [hrow, hgram, hlinear]
  show _ = negGradient j r i ↔ _
  rw [negGradient_eq]
  constructor
  · intro h
    linear_combination h
  · intro h
    linear_combination h

/-- How far another point is above the solution of the normal equations. -/
theorem dampedCost_eq {step : Fin n → ℝ} (h : Solves (buildNormalEqs j r mu) step)
    (y : Fin n → ℝ) :
    dampedCost j r mu y = dampedCost j r mu step +
      (∑ k, (∑ i, j k i * (y i - step i)) ^ 2 + ∑ i, damping j mu i * (y i - step i) ^ 2) := by
  have hflat := (solves_iff j r mu step).mp h
  have hshift (k : Fin m) : linearised j r y k =
      linearised j r step k + ∑ i, j k i * (y i - step i) := by
    simp only [linearised, mul_sub, Finset.sum_sub_distrib]
    ring
  -- the cross terms are the gradient along the way to the point
  have hcross : ∑ k, linearised j r step k * ∑ i, j k i * (y i - step i) +
      ∑ i, damping j mu i * step i * (y i - step i) = 0 := by
    have hswap : ∑ k, linearised j r step k * ∑ i, j k i * (y i - step i) =
        ∑ i, (∑ k, j k i * linearised j r step k) * (y i - step i) := by
      simp only [Finset.mul_sum, Finset.sum_mul]
      rw [Finset.sum_comm]
      exact Finset.sum_congr rfl fun i _ => Finset.sum_congr rfl fun k _ => by ring
    rw [hswap, ← Finset.sum_add_distrib]
    refine Finset.sum_eq_zero fun i _ => ?_
    rw [← add_mul, hflat i, zero_mul]
  have hresiduals : ∑ k, linearised j r y k ^ 2 = ∑ k, linearised j r step k ^ 2 +
      2 * ∑ k, linearised j r step k * ∑ i, j k i * (y i - step i) +
      ∑ k, (∑ i, j k i * (y i - step i)) ^ 2 := by
    rw [Finset.mul_sum, ← Finset.sum_add_distrib, ← Finset.sum_add_distrib]
    refine Finset.sum_congr rfl fun k _ => ?_
    rw [hshift k]
    ring
  have hlength : ∑ i, damping j mu i * y i ^ 2 = ∑ i, damping j mu i * step i ^ 2 +
      2 * ∑ i, damping j mu i * step i * (y i - step i) +
      ∑ i, damping j mu i * (y i - step i) ^ 2 := by
    rw [Finset.mul_sum, ← Finset.sum_add_distrib, ← Finset.sum_add_distrib]
    exact Finset.sum_congr rfl fun i _ => by ring
  rw [dampedCost, dampedCost, hresiduals, hlength]
  linear_combination 2 * hcross

/-- **The step minimises the damped cost**, and no other point does. -/
theorem step_minimises {mu : ℝ} (hmu : 0 < mu) {step : Fin n → ℝ}
    (h : solveLinear (buildNormalEqs j r mu) = some step) (y : Fin n → ℝ) :
    dampedCost j r mu step ≤ dampedCost j r mu y ∧
      (dampedCost j r mu y = dampedCost j r mu step → y = step) := by
  have hy := dampedCost_eq j r mu (((solveLinear_some h).2 step).mpr rfl) y
  have hresiduals : 0 ≤ ∑ k, (∑ i, j k i * (y i - step i)) ^ 2 :=
    Finset.sum_nonneg fun k _ => sq_nonneg _
  have hterm (i : Fin n) : 0 ≤ damping j mu i * (y i - step i) ^ 2 :=
    mul_nonneg (damping_pos j hmu i).le (sq_nonneg _)
  have hlength : 0 ≤ ∑ i, damping j mu i * (y i - step i) ^ 2 :=
    Finset.sum_nonneg fun i _ => hterm i
  refine ⟨by linarith, fun heq => ?_⟩
  have hzero : ∑ i, damping j mu i * (y i - step i) ^ 2 = 0 := by linarith
  funext i
  have hi := (Finset.sum_eq_zero_iff_of_nonneg fun i _ => hterm i).mp hzero i (Finset.mem_univ i)
  have hsq := (mul_eq_zero.mp hi).resolve_left (damping_pos j hmu i).ne'
  exact sub_eq_zero.mp (pow_eq_zero_iff two_ne_zero |>.mp hsq)

end Step

/-! ## The solver -/

section Solver

variable (f : (Fin n → ℝ) → Fin m → ℝ) (lb ub : Fin n → ℝ)

theorem project_mem (x : Fin n → ℝ) {i : Fin n} (h : lb i ≤ ub i) :
    lb i ≤ project lb ub x i ∧ project lb ub x i ≤ ub i := by
  simp only [project, F64.gt, real_lt, decide_eq_true_eq]
  split_ifs with hlow hhigh
  · exact ⟨le_refl _, h⟩
  · exact ⟨h, le_refl _⟩
  · exact ⟨not_lt.mp hlow, not_lt.mp hhigh⟩

/-- The gradient is flat. -/
def Flat (x : Fin n → ℝ) : Prop :=
  gradNorm Real.sqrt (numericalJacobian f x) (f x) < epsGrad

/-- The step of a try, where the normal equations at the damping have a solution. -/
noncomputable def stepAt (x : Fin n → ℝ) (mu : ℝ) : Option (Fin n → ℝ) :=
  solveLinear (buildNormalEqs (numericalJacobian f x) (f x) mu)

/-- A try is refused: there is no step at the damping, or the step does not lower the cost. -/
def Refuses (x : Fin n → ℝ) (mu : ℝ) : Prop :=
  ∀ step, stepAt f x mu = some step →
    cost (f x) ≤ cost (f (project lb ub fun i => x i + step i))

/-- A try is accepted: the step minimises the linearised cost at the damping, it is cut back to
the bounds, and it lowers the cost. -/
structure Accepted (x : Fin n → ℝ) (mu : ℝ) (step x' : Fin n → ℝ) : Prop where
  solved : stepAt f x mu = some step
  minimises : ∀ y, dampedCost (numericalJacobian f x) (f x) mu step ≤
    dampedCost (numericalJacobian f x) (f x) mu y
  lands : x' = project lb ub fun i => x i + step i
  lower : cost (f x') < cost (f x)

/-- The last step was short, or lowered the cost by little. -/
def Small (x step x' : Fin n → ℝ) : Prop :=
  √(sumSquares step) < epsStep ∨
    (cost (f x) - cost (f x')) / max (cost (f x)) (F64.lit 1 30) < epsCost

/-- Where a round starts: the point, the damping, and how often the residuals have been
computed. -/
structure Iterate (n : Nat) where
  x : Fin n → ℝ
  mu : ℝ
  nfev : Nat

/-- How often they have been computed before try `k` of a round: twice for each parameter, and
once for each try that had a step. -/
noncomputable def nfevBefore (p : Iterate n) (k : Nat) : Nat :=
  p.nfev + 2 * n + (List.range k).countP fun i => (stepAt f p.x (raise^[i] p.mu)).isSome

/-- If try `k` is refused, it is the last of its round: the damping has come to its ceiling, or
the residuals have been computed as often as asked for. -/
def IsLast (maxNfev : Nat) (p : Iterate n) (k : Nat) : Prop :=
  (stepAt f p.x (raise^[k] p.mu)).isSome ∧
    (lmMuCeil ≤ raise^[k + 1] p.mu ∨ maxNfev ≤ nfevBefore f p (k + 1))

/-- The first `k` tries of a round are refused, with the damping raised each time, and none of
them is the last. -/
def Refused (maxNfev : Nat) (p : Iterate n) (k : Nat) : Prop :=
  ∀ i < k, Refuses f lb ub p.x (raise^[i] p.mu) ∧ ¬ IsLast f maxNfev p i

/-- A round moves on: its tries are refused up to one that is accepted. -/
def Moves (maxNfev : Nat) (p : Iterate n) (step : Fin n → ℝ) (q : Iterate n) : Prop :=
  ∃ k < 30, Refused f lb ub maxNfev p k ∧ Accepted f lb ub p.x (raise^[k] p.mu) step q.x ∧
    q.mu = F64.max (raise^[k] p.mu * lmMuDown) lmMuFloor ∧ q.nfev = nfevBefore f p (k + 1)

/-- No try of a round is accepted: thirty are refused, or as many as there are up to the last. -/
def Stuck (maxNfev : Nat) (p : Iterate n) (nfev : Nat) : Prop :=
  Refused f lb ub maxNfev p 30 ∧ nfev = nfevBefore f p 30 ∨
    ∃ k < 30, Refused f lb ub maxNfev p k ∧ Refuses f lb ub p.x (raise^[k] p.mu) ∧
      IsLast f maxNfev p k ∧ nfev = nfevBefore f p (k + 1)

/-- Rounds that are each followed by another. -/
inductive Goes (maxNfev : Nat) : Nat → Iterate n → Iterate n → Prop
  | refl (p : Iterate n) : Goes maxNfev 0 p p
  | round {k : Nat} {p q last : Iterate n} {step : Fin n → ℝ} (hroom : p.nfev < maxNfev)
      (hsteep : ¬ Flat f p.x) (hmoves : Moves f lb ub maxNfev p step q)
      (hlarge : ¬ Small f p.x step q.x) (h : Goes maxNfev k q last) :
      Goes maxNfev (k + 1) p last

/-- How the solver ends, from a start with so many rounds left: where the gradient is flat, with
a small step, where no try is accepted, or for want of calls or rounds. -/
inductive Ends (maxNfev left : Nat) (p : Iterate n) (res : LMResult ℝ n m) : Prop
  | flat {k nfev : Nat} {mu : ℝ} (hk : k < left) (h : Goes f lb ub maxNfev k p ⟨res.x, mu, nfev⟩)
      (hroom : nfev < maxNfev) (hflat : Flat f res.x) (hcalls : res.nfev = nfev + 2 * n)
      (hsuccess : res.success = true)
  | small {k : Nat} {q : Iterate n} {step : Fin n → ℝ} {mu : ℝ} (hk : k < left)
      (h : Goes f lb ub maxNfev k p q) (hroom : q.nfev < maxNfev) (hsteep : ¬ Flat f q.x)
      (hmoves : Moves f lb ub maxNfev q step ⟨res.x, mu, res.nfev⟩) (hsmall : Small f q.x step res.x)
      (hsuccess : res.success = true)
  | stuck {k nfev : Nat} {mu : ℝ} (hk : k < left) (h : Goes f lb ub maxNfev k p ⟨res.x, mu, nfev⟩)
      (hroom : nfev < maxNfev) (hsteep : ¬ Flat f res.x)
      (hstuck : Stuck f lb ub maxNfev ⟨res.x, mu, nfev⟩ res.nfev) (hsuccess : res.success = false)
  | spent {k : Nat} {mu : ℝ} (hk : k < left)
      (h : Goes f lb ub maxNfev k p ⟨res.x, mu, res.nfev⟩) (hspent : maxNfev ≤ res.nfev)
      (hsuccess : res.success = false)
  | last {mu : ℝ} (h : Goes f lb ub maxNfev left p ⟨res.x, mu, res.nfev⟩)
      (hsuccess : res.success = false)

/-- What a result says about its point is true. -/
structure Truthful (s : LMResult ℝ n m) : Prop where
  residuals : s.residuals = f s.x
  cost : s.cost = cost s.residuals

theorem raise_pos {mu : ℝ} (hmu : 0 < mu) : 0 < raise mu := by
  have hup : (0 : ℝ) < lmMuUp := by simp [lmMuUp]
  have hceil : (0 : ℝ) < lmMuCeil := by simp [lmMuCeil]
  exact lt_min (mul_pos hmu hup) hceil

theorem lower_pos (mu : ℝ) : 0 < F64.max (mu * lmMuDown) lmMuFloor := by
  have hfloor : (0 : ℝ) < lmMuFloor := by
    rw [lmMuFloor, real_lit]
    norm_num
  exact lt_max_of_lt_right hfloor

variable {f lb ub} {maxNfev : Nat}

/-- What the tries of a round leave. -/
structure TriesSpec (f : (Fin n → ℝ) → Fin m → ℝ) (lb ub : Fin n → ℝ) (maxNfev : Nat)
    (p : Iterate n) (s s' : LMResult ℝ n m) (mu' : ℝ) (accepted : Bool) : Prop where
  damped : 0 < mu'
  truthful : Truthful f s'
  calls : s'.nfev ≤ max (s.nfev + 1) maxNfev
  refused : accepted = false →
    s'.x = s.x ∧ s'.success = s.success ∧ Stuck f lb ub maxNfev p s'.nfev
  moved : accepted = true → ∃ step, Moves f lb ub maxNfev p step ⟨s'.x, mu', s'.nfev⟩ ∧
    (s'.success = true ↔ s.success = true ∨ Small f s.x step s'.x)

theorem raise_iterate_pos {mu : ℝ} (hmu : 0 < mu) (k : Nat) : 0 < raise^[k] mu := by
  induction k with
  | zero => exact hmu
  | succ k ih =>
      rw [Function.iterate_succ_apply']
      exact raise_pos ih

theorem nfevBefore_of_none {p : Iterate n} {k : Nat}
    (h : stepAt f p.x (raise^[k] p.mu) = none) : nfevBefore f p (k + 1) = nfevBefore f p k := by
  simp [nfevBefore, List.range_succ, h]

theorem nfevBefore_of_some {p : Iterate n} {k : Nat} {step : Fin n → ℝ}
    (h : stepAt f p.x (raise^[k] p.mu) = some step) :
    nfevBefore f p (k + 1) = nfevBefore f p k + 1 := by
  simp [nfevBefore, List.range_succ, h, Nat.add_assoc]

/-- One more try is refused, and is not the last. -/
theorem Refused.succ {p : Iterate n} {k : Nat} (h : Refused f lb ub maxNfev p k)
    (hrefuses : Refuses f lb ub p.x (raise^[k] p.mu)) (hmore : ¬ IsLast f maxNfev p k) :
    Refused f lb ub maxNfev p (k + 1) := by
  intro i hi
  rcases Nat.lt_succ_iff_lt_or_eq.mp hi with hlt | rfl
  · exact h i hlt
  · exact ⟨hrefuses, hmore⟩

variable (lb ub maxNfev) in
/-- The tries that are left, where those before them were refused. -/
theorem tries_spec {p : Iterate n} (hp : 0 < p.mu) (left : Nat) {tried : Nat}
    (hleft : tried + left = 30) (hrefused : Refused f lb ub maxNfev p tried)
    {s : LMResult ℝ n m} (hx : s.x = p.x) (hs : Truthful f s)
    (hcalls : s.nfev = nfevBefore f p tried) :
    let final := tries Real.sqrt f lb ub maxNfev (numericalJacobian f p.x) left s
      (raise^[tried] p.mu)
    TriesSpec f lb ub maxNfev p s final.1 final.2.1 final.2.2 := by
  have hmu : 0 < raise^[tried] p.mu := raise_iterate_pos hp tried
  induction left generalizing s tried with
  | zero =>
      obtain rfl : tried = 30 := by omega
      have hbound : s.nfev ≤ max (s.nfev + 1) maxNfev := by omega
      exact ⟨hmu, hs, hbound, fun _ => ⟨rfl, rfl, .inl ⟨hrefused, hcalls⟩⟩, fun h => (by cases h)⟩
  | succ left ih =>
      have hnext : raise (raise^[tried] p.mu) = raise^[tried + 1] p.mu :=
        (Function.iterate_succ_apply' _ _ _).symm
      have hmu' : 0 < raise^[tried + 1] p.mu := raise_iterate_pos hp (tried + 1)
      have hequations : solveLinear (buildNormalEqs (numericalJacobian f p.x) s.residuals
          (raise^[tried] p.mu)) = stepAt f p.x (raise^[tried] p.mu) := by
        rw [hs.residuals, hx]
        rfl
      unfold tries
      rw [hequations]
      cases hstep : stepAt f p.x (raise^[tried] p.mu) with
      | none =>
          have hnone : Refuses f lb ub p.x (raise^[tried] p.mu) := fun step hsome => by
            rw [hstep] at hsome
            cases hsome
          have hmore : ¬ IsLast f maxNfev p tried := fun hlast => by
            rw [IsLast, hstep] at hlast
            cases hlast.1
          rw [hnext]
          exact ih (by omega) (hrefused.succ hnone hmore) hx hs
            (hcalls.trans (nfevBefore_of_none hstep).symm) hmu'
      | some step =>
          have hmin := step_minimises (numericalJacobian f p.x) (f p.x) hmu hstep
          have hcalls' : s.nfev + 1 = nfevBefore f p (tried + 1) := by
            rw [nfevBefore_of_some hstep, hcalls]
          simp only [real_lt, real_le, F64.ge, decide_eq_true_eq, hnext]
          split_ifs with hlower hceil hmax
          · -- the step is accepted
            rw [hs.cost, hs.residuals, hx] at hlower
            refine ⟨lower_pos _, ⟨rfl, rfl⟩, le_max_left _ _, fun h => (by cases h), fun _ => ?_⟩
            have hlands : (project lb ub fun i => s.x i + step i) =
                project lb ub fun i => p.x i + step i := by rw [hx]
            refine ⟨step, ⟨tried, by omega, hrefused, ⟨hstep, fun y => (hmin y).1, hlands, ?_⟩,
              rfl, hcalls'⟩, ?_⟩
            · show cost (f (project lb ub fun i => s.x i + step i)) < cost (f p.x)
              rw [hlands]
              exact hlower
            · simp only [Bool.or_eq_true, decide_eq_true_eq, real_max, or_assoc, Small, hs.cost,
                hs.residuals, hx]
          all_goals
            rw [hs.cost, hs.residuals, hx, not_lt] at hlower
            have hthis : Refuses f lb ub p.x (raise^[tried] p.mu) := fun step' hstep' => by
              obtain rfl := Option.some.inj (hstep.symm.trans hstep')
              exact hlower
            have hsome : (stepAt f p.x (raise^[tried] p.mu)).isSome = true := by
              rw [hstep]
              rfl
          · refine ⟨hmu', ⟨hs.residuals, hs.cost⟩, le_max_left _ _, fun _ => ⟨rfl, rfl, .inr ?_⟩,
              fun h => (by cases h)⟩
            exact ⟨tried, by omega, hrefused, hthis, ⟨hsome, .inl hceil⟩, hcalls'⟩
          · refine ⟨hmu', ⟨hs.residuals, hs.cost⟩, le_max_left _ _, fun _ => ⟨rfl, rfl, .inr ?_⟩,
              fun h => (by cases h)⟩
            exact ⟨tried, by omega, hrefused, hthis, ⟨hsome, .inr (hcalls' ▸ hmax)⟩, hcalls'⟩
          · -- the next try starts from the same point
            have hmore : ¬ IsLast f maxNfev p tried := fun hlast =>
              hlast.2.elim hceil (hcalls' ▸ hmax)
            have hrest := ih (s := { s with nfev := s.nfev + 1 }) (by omega)
              (hrefused.succ hthis hmore) hx ⟨hs.residuals, hs.cost⟩ hcalls' hmu'
            refine ⟨hrest.damped, hrest.truthful, hrest.calls.trans ?_, hrest.refused, hrest.moved⟩
            show max (s.nfev + 1 + 1) maxNfev ≤ max (s.nfev + 1) maxNfev
            omega

/-- A round before the others. -/
theorem Ends.round {left : Nat} {p q : Iterate n} {step : Fin n → ℝ} {res : LMResult ℝ n m}
    (hroom : p.nfev < maxNfev) (hsteep : ¬ Flat f p.x) (hmoves : Moves f lb ub maxNfev p step q)
    (hlarge : ¬ Small f p.x step q.x) (h : Ends f lb ub maxNfev left q res) :
    Ends f lb ub maxNfev (left + 1) p res := by
  cases h with
  | flat hk h hroom' hflat hcalls hsuccess =>
      exact .flat (Nat.succ_lt_succ hk) (h.round hroom hsteep hmoves hlarge) hroom' hflat hcalls
        hsuccess
  | small hk h hroom' hsteep' hmoves' hsmall hsuccess =>
      exact .small (Nat.succ_lt_succ hk) (h.round hroom hsteep hmoves hlarge) hroom' hsteep'
        hmoves' hsmall hsuccess
  | stuck hk h hroom' hsteep' hstuck hsuccess =>
      exact .stuck (Nat.succ_lt_succ hk) (h.round hroom hsteep hmoves hlarge) hroom' hsteep' hstuck
        hsuccess
  | spent hk h hspent hsuccess =>
      exact .spent (Nat.succ_lt_succ hk) (h.round hroom hsteep hmoves hlarge) hspent hsuccess
  | last h hsuccess => exact .last (h.round hroom hsteep hmoves hlarge) hsuccess

/-- What the rounds leave. -/
structure RoundsSpec (f : (Fin n → ℝ) → Fin m → ℝ) (lb ub : Fin n → ℝ) (maxNfev left : Nat)
    (mu : ℝ) (s s' : LMResult ℝ n m) : Prop where
  truthful : Truthful f s'
  calls : s'.nfev ≤ max s.nfev (maxNfev + 2 * n)
  ends : Ends f lb ub maxNfev left ⟨s.x, mu, s.nfev⟩ s'

theorem rounds_spec (left : Nat) {s : LMResult ℝ n m} {mu : ℝ} (hs : Truthful f s) (hmu : 0 < mu)
    (hsuccess : s.success = false) :
    RoundsSpec f lb ub maxNfev left mu s (rounds Real.sqrt f lb ub maxNfev left s mu) := by
  induction left generalizing s mu with
  | zero => exact ⟨hs, le_max_left _ _, .last (.refl _) hsuccess⟩
  | succ left ih =>
      by_cases hmax : maxNfev ≤ s.nfev
      · rw [rounds, if_pos hmax]
        exact ⟨hs, le_max_left _ _, .spent (Nat.succ_pos left) (.refl _) hmax hsuccess⟩
      have hroom : s.nfev < maxNfev := not_le.mp hmax
      have hcallsRound : s.nfev + 2 * n ≤ max s.nfev (maxNfev + 2 * n) := by omega
      by_cases hflat : F64.lt (gradNorm Real.sqrt (numericalJacobian f s.x) s.residuals) epsGrad = true
      · simp only [rounds, hmax, hflat, if_true, if_false]
        have hgrad : Flat f s.x := by
          rw [hs.residuals, real_lt, decide_eq_true_eq] at hflat
          exact hflat
        exact ⟨⟨hs.residuals, hs.cost⟩, hcallsRound,
          .flat (Nat.succ_pos left) (.refl _) hroom hgrad rfl rfl⟩
      have hsteep : ¬ Flat f s.x := fun hgrad => by
        rw [hs.residuals, real_lt, decide_eq_true_eq] at hflat
        exact hflat hgrad
      simp only [rounds, hmax, hflat, Bool.false_eq_true, if_false]
      have hnone : Refused f lb ub maxNfev ⟨s.x, mu, s.nfev⟩ 0 :=
        fun i hi => absurd hi (Nat.not_lt_zero i)
      have htries := tries_spec lb ub maxNfev hmu 30 (Nat.zero_add 30) hnone
        (s := { s with nfev := s.nfev + 2 * n }) rfl ⟨hs.residuals, hs.cost⟩ rfl
      simp only [Function.iterate_zero, id_eq] at htries
      generalize tries Real.sqrt f lb ub maxNfev (numericalJacobian f s.x) 30
        { s with nfev := s.nfev + 2 * n } mu = final at htries ⊢
      obtain ⟨s', mu', accepted⟩ := final
      have hcalls : s'.nfev ≤ max s.nfev (maxNfev + 2 * n) := by
        have hround : s'.nfev ≤ max (s.nfev + 2 * n + 1) maxNfev := htries.calls
        omega
      cases accepted with
      | false =>
          simp only [Bool.not_false, if_true]
          obtain ⟨hx, hkept, hstuck⟩ := htries.refused rfl
          rw [← show s'.x = s.x from hx] at hsteep hstuck
          have hstart : Goes f lb ub maxNfev 0 ⟨s.x, mu, s.nfev⟩ ⟨s'.x, mu, s.nfev⟩ := by
            rw [show s'.x = s.x from hx]
            exact .refl _
          exact ⟨htries.truthful, hcalls,
            .stuck (Nat.succ_pos left) hstart hroom hsteep hstuck (hkept.trans hsuccess)⟩
      | true =>
          obtain ⟨step, hmoves, hsmall⟩ := htries.moved rfl
          have hbefore : ({ s with nfev := s.nfev + 2 * n } : LMResult ℝ n m).success = false :=
            hsuccess
          rw [hbefore, or_iff_right Bool.false_ne_true] at hsmall
          by_cases hdone : s'.success = true
          · simp only [hdone, if_true, Bool.not_true, Bool.false_eq_true, if_false]
            exact ⟨htries.truthful, hcalls,
              .small (Nat.succ_pos left) (.refl _) hroom hsteep hmoves (hsmall.mp hdone) hdone⟩
          · simp only [hdone, Bool.not_true, Bool.false_eq_true, if_false]
            have hrest := ih htries.truthful htries.damped (Bool.eq_false_iff.mpr hdone)
            refine ⟨hrest.truthful, hrest.calls.trans (max_le hcalls (le_max_right _ _)), ?_⟩
            exact hrest.ends.round hroom hsteep hmoves (mt hsmall.mpr hdone)

/-- A round lowers the cost and lands within the bounds. -/
structure Better (f : (Fin n → ℝ) → Fin m → ℝ) (lb ub x x' : Fin n → ℝ) : Prop where
  cost_le : cost (f x') ≤ cost (f x)
  mem : ∀ i, lb i ≤ ub i → lb i ≤ x i ∧ x i ≤ ub i → lb i ≤ x' i ∧ x' i ≤ ub i

theorem Moves.better {p q : Iterate n} {step : Fin n → ℝ} (h : Moves f lb ub maxNfev p step q) :
    Better f lb ub p.x q.x := by
  obtain ⟨k, -, -, haccepted, -⟩ := h
  refine ⟨haccepted.lower.le, fun i hi _ => ?_⟩
  rw [haccepted.lands]
  exact project_mem lb ub _ hi

theorem Goes.better {k : Nat} {p q : Iterate n} (h : Goes f lb ub maxNfev k p q) :
    Better f lb ub p.x q.x := by
  induction h with
  | refl p => exact ⟨le_refl _, fun _ _ hmem => hmem⟩
  | round hroom hsteep hmoves hlarge h ih =>
      exact ⟨ih.cost_le.trans hmoves.better.cost_le,
        fun i hi hmem => ih.mem i hi (hmoves.better.mem i hi hmem)⟩

theorem Ends.better {left : Nat} {p : Iterate n} {res : LMResult ℝ n m}
    (h : Ends f lb ub maxNfev left p res) : Better f lb ub p.x res.x := by
  cases h with
  | flat hk h => exact h.better
  | small hk h hroom hsteep hmoves =>
      have hlast := hmoves.better
      exact ⟨hlast.cost_le.trans h.better.cost_le,
        fun i hi hmem => hlast.mem i hi (h.better.mem i hi hmem)⟩
  | stuck hk h => exact h.better
  | spent hk h => exact h.better
  | last h => exact h.better

/-- What the rounds of a run leave of its start. -/
theorem lmSolve_rounds (f : (Fin n → ℝ) → Fin m → ℝ) (lb ub x0 : Fin n → ℝ) (maxNfev : Nat) :
    let x := project lb ub x0
    RoundsSpec f lb ub maxNfev 200 lmMuInit
      { x, residuals := f x, cost := cost (f x), nfev := 1, success := false }
      (lmSolve Real.sqrt f lb ub maxNfev x0) := by
  have hinit : (0 : ℝ) < lmMuInit := by
    rw [lmMuInit, real_lit]
    norm_num
  exact rounds_spec 200 ⟨rfl, rfl⟩ hinit rfl

theorem lmSolve_mem (f : (Fin n → ℝ) → Fin m → ℝ) (lb ub x0 : Fin n → ℝ) (maxNfev : Nat)
    {i : Fin n} (hi : lb i ≤ ub i) :
    let res : LMResult ℝ n m := lmSolve Real.sqrt f lb ub maxNfev x0
    lb i ≤ res.x i ∧ res.x i ≤ ub i :=
  (lmSolve_rounds f lb ub x0 maxNfev).ends.better.mem i hi (project_mem lb ub x0 hi)

theorem lmSolve_cost_le (f : (Fin n → ℝ) → Fin m → ℝ) (lb ub x0 : Fin n → ℝ) (maxNfev : Nat) :
    (lmSolve Real.sqrt f lb ub maxNfev x0).cost ≤ cost (f (project lb ub x0)) := by
  have hrun := lmSolve_rounds f lb ub x0 maxNfev
  rw [hrun.truthful.cost, hrun.truthful.residuals]
  exact hrun.ends.better.cost_le

/-- **Where the solver ends.**  Its point is within the bounds, its residuals and cost are those of
the point, and it is never worse than the start.  Round by round from the start and the first
damping it goes on to the next point while its steps are not small, each of which minimises the
damped cost and lowers the cost; it reports success just where it stops because the gradient is
flat or the last step was small, and else it is stuck or out of calls or rounds.  The residuals
are computed as often as these rounds do, and no more often than asked for, but for a round. -/
theorem lm_solve_spec (f : (Fin n → ℝ) → Fin m → ℝ) (lb ub x0 : Fin n → ℝ) (maxNfev : Nat) :
    let res : LMResult ℝ n m := lmSolve Real.sqrt f lb ub maxNfev x0
    (∀ i, lb i ≤ ub i → lb i ≤ res.x i ∧ res.x i ≤ ub i) ∧
      res.residuals = f res.x ∧ res.cost = cost res.residuals ∧
      res.cost ≤ cost (f (project lb ub x0)) ∧
      Ends f lb ub maxNfev 200 ⟨project lb ub x0, lmMuInit, 1⟩ res ∧
      res.nfev ≤ max 1 (maxNfev + 2 * n) := by
  have hrun := lmSolve_rounds f lb ub x0 maxNfev
  exact ⟨fun i hi => lmSolve_mem f lb ub x0 maxNfev hi, hrun.truthful.residuals,
    hrun.truthful.cost, lmSolve_cost_le f lb ub x0 maxNfev, hrun.ends, hrun.calls⟩

end Solver

end Corsair.Ports.LeastSquares
