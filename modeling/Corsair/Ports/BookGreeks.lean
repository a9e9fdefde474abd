import Corsair.Verified.Runs
import Corsair.Ports.Black76
import Corsair.Ports.OptionsReconcile
import Corsair.Ports.RiskState
import Corsair.Ports.TimeToExpiry

/-!
# `corsair_position::portfolio`: the greeks of the book

`refresh_greeks` visits the legs and prices those whose product has a forward and whose expiry
is ahead.  The others keep what they have.  `aggregate` adds the greeks up, by product and in
total; the hedge, the gates and the trader read those sums.

## Main results

* `totals_are_derivatives` — after a refresh the sums of a product are the derivatives of the
  value of its legs, and what expired legs still carry.
* `delta_within_contracts` — whatever fills, reconciles and refreshes there were, the delta of a
  product is not more than its contracts.
-/

namespace Corsair.Ports.BookGreeks

open Corsair.Verified
open Corsair.Verified.Runs
open Corsair.Ports.Portfolio (Right Date MarketView)
open Corsair.Ports.BrokerApi
open Corsair.Ports.PositionBook
open Corsair.Ports.OptionsReconcile
open Corsair.Ports.RiskState (PortfolioGreeks)
open Corsair.Ports.TimeToExpiry
open Corsair.Ports.Black76

attribute [local instance] realF64

section Code

variable {F : Type} [F64 F] (e : Elementary F)

/-- `Right::as_char`. -/
def asChar : Right → Char
  | .call => 'C'
  | .put => 'P'

theorem isCall_call : isCall (asChar .call) = true := by simp [isCall, asChar]

theorem isCall_put : isCall (asChar .put) = false := by simp [isCall, asChar]

/-- `MarketView`, all of it. -/
structure GreekView (F : Type) extends MarketView F where
  ivFor : String → F → Date → Right → Option F

/-- `time_to_expiry_years`, of the expiry of a leg. -/
def legTte (expiry : Date) (nowNs : Int) : F :=
  let secs : F := F64.ofInt (numSeconds (atHour expiry 18) nowNs)
  if F64.le secs F64.zero then F64.zero else secs / julianYear

variable (view : GreekView F) (defaultIv : AList (fun _ : String => F))

/-- `iv`: of the market, of the product or 30 %. -/
def legIv (leg : Leg F) : F :=
  (view.ivFor leg.product leg.strike leg.expiry leg.right).getD
    ((defaultIv.lookup leg.product).getD (F64.lit 3 1))

/-- The greeks of a leg at a forward and a time, and its price where the market has one. -/
def markLeg (f tte : F) (leg : Leg F) : Leg F :=
  let g := computeGreeks e f leg.strike tte (legIv view defaultIv leg) F64.zero
    (asChar leg.right) leg.multiplier
  { leg with
    delta := g.delta
    gamma := g.gamma
    theta := g.theta
    vega := g.vega
    currentPrice :=
      match view.currentPrice leg.product leg.strike leg.expiry leg.right with
      | some p => if F64.gt p F64.zero then p else leg.currentPrice
      | none => leg.currentPrice }

/-- `refresh_greeks`, one leg. -/
def refreshLeg (nowNs : Int) (leg : Leg F) : Leg F :=
  match view.underlyingPrice leg.product with
  | none => leg
  | some f =>
      if F64.gt f F64.zero then
        if F64.le (legTte leg.expiry nowNs : F) F64.zero then leg
        else markLeg e view defaultIv f (legTte leg.expiry nowNs) leg
      else leg

/-- The refresh prices the leg at the forward. -/
structure Reached (nowNs : Int) (f : F) (leg : Leg F) : Prop where
  forward : view.underlyingPrice leg.product = some f
  pos : F64.gt f F64.zero = true
  ahead : F64.le (legTte leg.expiry nowNs : F) F64.zero = false

theorem refreshLeg_cases (nowNs : Int) (leg : Leg F) :
    refreshLeg e view defaultIv nowNs leg = leg ∨ ∃ f, Reached view nowNs f leg ∧
      refreshLeg e view defaultIv nowNs leg =
        markLeg e view defaultIv f (legTte leg.expiry nowNs) leg := by
  unfold refreshLeg
  cases hforward : view.underlyingPrice leg.product with
  | none => exact .inl rfl
  | some f =>
      dsimp only
      split_ifs with hpos hpast
      · exact .inl rfl
      · exact .inr ⟨f, ⟨hforward, hpos, Bool.eq_false_iff.mpr hpast⟩, rfl⟩
      · exact .inl rfl

theorem key_refreshLeg (nowNs : Int) (leg : Leg F) :
    (refreshLeg e view defaultIv nowNs leg).key = leg.key := by
  rcases refreshLeg_cases e view defaultIv nowNs leg with h | ⟨f, -, h⟩
  · rw [h]
  · rw [h]
    rfl

/-- The legs after a refresh; each of them reads the clock. -/
def refreshedLegs (clock : Nat → Int) (legs : List (Leg F)) : List (Leg F) :=
  legs.zipIdx.map fun entry => refreshLeg e view defaultIv (clock entry.2) entry.1

/-- `refresh_greeks`. -/
def refreshGreeks (clock : Nat → Int) (s : PortfolioState F) : PortfolioState F :=
  { s with
    positions := refreshedLegs e view defaultIv clock s.positions
    indexed := by
      intro key i h
      obtain ⟨leg, hleg, hkey⟩ := s.indexed key i h
      refine ⟨refreshLeg e view defaultIv (clock i) leg, ?_,
        (key_refreshLeg e view defaultIv _ leg).trans hkey⟩
      simp [refreshedLegs, hleg] }

/-- `AggregateResult`. -/
structure AggregateResult (F : Type) where
  total : PortfolioGreeks F
  perProduct : AList (fun _ : String => PortfolioGreeks F)

/-- `PortfolioGreeks::default`. -/
def noGreeks : PortfolioGreeks F := ⟨F64.zero, F64.zero, F64.zero, F64.zero, 0⟩

/-- A leg is added to the total and to its product. -/
def AggregateResult.add (r : AggregateResult F) (leg : Leg F) : AggregateResult F where
  total := r.total.add leg
  perProduct := r.perProduct.insert leg.product
    (((r.perProduct.lookup leg.product).getD noGreeks).add leg)

/-- `aggregate`. -/
def aggregate (s : PortfolioState F) : AggregateResult F :=
  s.positions.foldl AggregateResult.add ⟨noGreeks, ∅⟩

/-- What happens to the book: `add_fill`, `reconcile_options_with_broker_positions` and
`refresh_greeks`. -/
inductive BookStep (F : Type)
  | fill (product : String) (strike : F) (expiry : Date) (right : Right) (quantity : Int)
      (fillPrice spreadCaptured spreadCapturedMid : F)
  | reconcile (positions : List (BrokerPosition F))
  | refresh (view : GreekView F) (clock : Nat → Int)

/-- One step of the book. -/
def bookStep (s : PortfolioState F) : BookStep F → PortfolioState F
  | .fill product strike expiry right quantity fillPrice spreadCaptured spreadCapturedMid =>
      (s.addFill product strike expiry right quantity fillPrice spreadCaptured
        spreadCapturedMid).2
  | .reconcile positions => (reconcileOptions s positions).2
  | .refresh view clock => refreshGreeks e view defaultIv clock s

/-! ## The sums -/

/-- The totals are those that the risk state publishes. -/
theorem total_aggregate (s : PortfolioState F) : (aggregate s).total = RiskState.aggregate s := by
  suffices h : ∀ (r : AggregateResult F) (legs : List (Leg F)),
      (legs.foldl AggregateResult.add r).total = legs.foldl PortfolioGreeks.add r.total from
    h _ _
  intro r legs
  induction legs generalizing r with
  | nil => rfl
  | cons leg rest ih => exact ih (r.add leg)

/-- The entry of a product adds up its own legs; a product without legs has none. -/
theorem perProduct_aggregate (s : PortfolioState F) (product : String) :
    (aggregate s).perProduct.lookup product =
      if s.positions.filter (·.product = product) = [] then none
      else some ((s.positions.filter (·.product = product)).foldl PortfolioGreeks.add
        noGreeks) := by
  suffices h : ∀ (r : AggregateResult F) (legs : List (Leg F)),
      (legs.foldl AggregateResult.add r).perProduct.lookup product =
        if legs.filter (·.product = product) = [] then r.perProduct.lookup product
        else some ((legs.filter (·.product = product)).foldl PortfolioGreeks.add
          ((r.perProduct.lookup product).getD noGreeks)) from
    h ⟨noGreeks, ∅⟩ s.positions
  intro r legs
  induction legs generalizing r with
  | nil => rfl
  | cons leg rest ih =>
      rw [List.foldl_cons, ih]
      by_cases hown : leg.product = product
      · subst hown
        by_cases hrest : rest.filter (·.product = leg.product) = []
        · simp [AggregateResult.add, hrest]
        · simp [AggregateResult.add, hrest]
      · simp [AggregateResult.add, hown, AList.lookup_insert_ne (Ne.symm hown)]

/-! ## Where the greeks of a leg come from -/

omit [F64 F] in
/-- All of a leg that its greeks depend on, and the greeks. -/
def Leg.marks (leg : Leg F) : (String × F × Date × Right × F) × F × F × F × F :=
  ((leg.product, leg.strike, leg.expiry, leg.right, leg.multiplier),
    leg.delta, leg.gamma, leg.theta, leg.vega)

/-- The greeks of a leg that no refresh has reached. -/
def Leg.Zero (leg : Leg F) : Prop :=
  leg.delta = F64.zero ∧ leg.gamma = F64.zero ∧ leg.theta = F64.zero ∧ leg.vega = F64.zero

/-- The step is a refresh that priced the leg. -/
def MarkedBy (a : BookStep F) (leg : Leg F) : Prop :=
  ∃ view clock i f, a = .refresh view clock ∧ Reached view (clock i) f leg ∧
    let g := computeGreeks e f leg.strike (legTte leg.expiry (clock i)) (legIv view defaultIv leg)
      F64.zero (asChar leg.right) leg.multiplier
    leg.delta = g.delta ∧ leg.gamma = g.gamma ∧ leg.theta = g.theta ∧ leg.vega = g.vega

theorem mem_addFill {s : PortfolioState F} {product : String} {strike : F} {expiry : Date}
    {right : Right} {quantity : Int} {fillPrice spreadCaptured spreadCapturedMid : F} {leg : Leg F}
    (h : leg ∈ (s.addFill product strike expiry right quantity fillPrice spreadCaptured
      spreadCapturedMid).2.positions) :
    (∃ old ∈ s.positions, Leg.marks leg = Leg.marks old) ∨ Leg.Zero leg := by
  unfold PortfolioState.addFill at h
  split_ifs at h with hzero
  · exact .inl ⟨leg, h, rfl⟩
  · split at h
    · dsimp only at h
      split_ifs at h
      · exact .inl ⟨leg, List.mem_of_mem_eraseIdx h, rfl⟩
      · obtain ⟨i, hi⟩ := List.mem_iff_getElem?.mp h
        obtain ⟨old, hold, rfl⟩ := Option.map_eq_some_iff.mp (List.getElem?_modify _ _ _ _ ▸ hi)
        refine .inl ⟨old, List.mem_of_getElem? hold, ?_⟩
        split_ifs
        · rfl
        · rfl
    · rcases List.mem_append.mp h with hold | hnew
      · exact .inl ⟨leg, hold, rfl⟩
      · rw [List.mem_singleton.mp hnew]
        exact .inr ⟨rfl, rfl, rfl, rfl⟩

/-- After a step a leg has the greeks that it had, none, or those of a refresh. -/
theorem mem_bookStep {s : PortfolioState F} {a : BookStep F} {leg : Leg F}
    (h : leg ∈ (bookStep e defaultIv s a).positions) :
    (∃ old ∈ s.positions, Leg.marks leg = Leg.marks old) ∨ Leg.Zero leg ∨
      MarkedBy e defaultIv a leg := by
  cases a with
  | fill product strike expiry right quantity fillPrice spreadCaptured spreadCapturedMid =>
      exact (mem_addFill h).imp_right .inl
  | reconcile positions =>
      simp only [bookStep, reconcileOptions] at h
      split_ifs at h
      · exact .inl ⟨leg, h, rfl⟩
      · have hunmarked := unmarked_of_mem_toInsert h
        exact .inr (.inl ⟨hunmarked.delta, hunmarked.gamma, hunmarked.theta, hunmarked.vega⟩)
  | refresh view clock =>
      obtain ⟨⟨old, i⟩, hentry, rfl⟩ := List.mem_map.mp h
      rcases refreshLeg_cases e view defaultIv (clock i) old with hkept | ⟨f, hreached, hmarked⟩
      · exact .inl ⟨old, List.fst_mem_of_mem_zipIdx hentry, congrArg Leg.marks hkept⟩
      · refine .inr (.inr ⟨view, clock, i, f, rfl, ?_⟩)
        rw [hmarked]
        exact ⟨⟨hreached.forward, hreached.pos, hreached.ahead⟩, rfl, rfl, rfl, rfl⟩

/-- A leg with the same marks was marked by the same steps. -/
theorem MarkedBy.congr {a : BookStep F} {leg old : Leg F} (hmarks : Leg.marks leg = Leg.marks old)
    (h : MarkedBy e defaultIv a old) : MarkedBy e defaultIv a leg := by
  obtain ⟨view, clock, i, f, rfl, ⟨hforward, hpos, hahead⟩, hgreeks⟩ := h
  simp only [Leg.marks, Prod.mk.injEq] at hmarks
  obtain ⟨⟨hproduct, hstrike, hexpiry, hright, hmultiplier⟩, hdelta, hgamma, htheta, hvega⟩ := hmarks
  have hiv : legIv view defaultIv leg = legIv view defaultIv old := by
    unfold legIv
    rw [hproduct, hstrike, hexpiry, hright]
  refine ⟨view, clock, i, f, rfl, ⟨hproduct ▸ hforward, hpos, hexpiry ▸ hahead⟩, ?_⟩
  simpa only [hiv, hstrike, hexpiry, hright, hmultiplier, hdelta, hgamma, htheta, hvega] using hgreeks

/-- **The greeks of a leg** are zero until a refresh prices it, and then those of a refresh. -/
theorem greeks_of_run (registry : AList (fun _ : String => F)) (schedule : List (BookStep F)) :
    ∀ leg ∈ (run (bookStep e defaultIv) (PortfolioState.new registry) schedule).positions,
      Leg.Zero leg ∨ ∃ a ∈ schedule, MarkedBy e defaultIv a leg := by
  induction schedule using List.reverseRecOn with
  | nil => exact fun leg h => absurd h List.not_mem_nil
  | append_singleton front a ih =>
      intro leg h
      rw [run_append] at h
      rcases mem_bookStep e defaultIv h with ⟨old, hold, hmarks⟩ | hzero | hmarked
      · refine (ih old hold).imp (fun hzero => ?_) fun ⟨b, hb, hmarked⟩ =>
          ⟨b, List.mem_append_left [a] hb, hmarked.congr e defaultIv hmarks⟩
        simp only [Leg.marks, Prod.mk.injEq] at hmarks
        simpa only [Leg.Zero, hmarks.2.1, hmarks.2.2.1, hmarks.2.2.2.1, hmarks.2.2.2.2] using hzero
      · exact .inl hzero
      · exact .inr ⟨a, List.mem_append_right front List.mem_cons_self, hmarked⟩

end Code

/-! ## Sums in exact arithmetic -/

section Real

/-- What the legs of a product have together of a greek. -/
noncomputable def legSum (greek : Leg ℝ → ℝ) (product : String) (legs : List (Leg ℝ)) : ℝ :=
  ((legs.filter (·.product = product)).map fun leg => greek leg * leg.quantity).sum

theorem foldl_add (g : PortfolioGreeks ℝ) (legs : List (Leg ℝ)) :
    let sum := fun greek : Leg ℝ → ℝ => (legs.map fun leg => greek leg * leg.quantity).sum
    (legs.foldl PortfolioGreeks.add g).netDelta = g.netDelta + sum (·.delta) ∧
      (legs.foldl PortfolioGreeks.add g).netTheta = g.netTheta + sum (·.theta) ∧
      (legs.foldl PortfolioGreeks.add g).netVega = g.netVega + sum (·.vega) ∧
      (legs.foldl PortfolioGreeks.add g).netGamma = g.netGamma + sum (·.gamma) := by
  induction legs generalizing g with
  | nil => simp
  | cons leg rest ih =>
      obtain ⟨hdelta, htheta, hvega, hgamma⟩ := ih (g.add leg)
      dsimp only at hdelta htheta hvega hgamma ⊢
      simp only [List.foldl_cons, hdelta, htheta, hvega, hgamma]
      simp only [PortfolioGreeks.add, real_ofInt, List.map_cons, List.sum_cons, add_assoc, and_self]

/-- **The entry of a product** holds the sums of its legs, and the hedge reads the same delta. -/
theorem perProduct_eq (s : PortfolioState ℝ) (product : String) :
    let g := ((aggregate s).perProduct.lookup product).getD noGreeks
    g.netDelta = legSum (·.delta) product s.positions ∧
      g.netTheta = legSum (·.theta) product s.positions ∧
      g.netVega = legSum (·.vega) product s.positions ∧
      g.netGamma = legSum (·.gamma) product s.positions := by
  have hentry : ((aggregate s).perProduct.lookup product).getD noGreeks =
      (s.positions.filter (·.product = product)).foldl PortfolioGreeks.add noGreeks := by
    rw [perProduct_aggregate]
    split_ifs with hnone
    · rw [hnone]
      rfl
    · rfl
  obtain ⟨hdelta, htheta, hvega, hgamma⟩ :=
    foldl_add noGreeks (s.positions.filter (·.product = product))
  simp only [hentry, hdelta, htheta, hvega, hgamma]
  simp only [legSum, noGreeks, real_zero, zero_add, and_self]

theorem deltaForProduct_eq (s : PortfolioState ℝ) (product : String) :
    s.deltaForProduct product = legSum (·.delta) product s.positions := by
  suffices h : ∀ (total : ℝ) (legs : List (Leg ℝ)),
      legs.foldl (fun total p => total + p.delta * F64.ofInt p.quantity) total =
        total + (legs.map fun leg => leg.delta * (leg.quantity : ℝ)).sum by
    rw [PortfolioState.deltaForProduct, h, real_zero, zero_add, legSum]
  intro total legs
  induction legs generalizing total with
  | nil => simp
  | cons leg rest ih => rw [List.foldl_cons, ih, List.map_cons, List.sum_cons, add_assoc, real_ofInt]

/-! ## What a refresh computes -/

variable (view : GreekView ℝ) (defaultIv : AList (fun _ : String => ℝ))

/-- The legs of a product that a refresh prices, each with the time that it has left. -/
noncomputable def liveLegs (clock : Nat → Int) (product : String) (legs : List (Leg ℝ)) :
    List (ℝ × Leg ℝ) :=
  (legs.zipIdx.map fun entry => (legTte entry.1.expiry (clock entry.2), entry.1)).filter
    fun p => p.2.product = product ∧ 0 < p.1

/-- The legs of a product whose expiry has passed. -/
noncomputable def expiredLegs (clock : Nat → Int) (product : String) (legs : List (Leg ℝ)) :
    List (Leg ℝ) :=
  ((legs.zipIdx.map fun entry => ((legTte entry.1.expiry (clock entry.2) : ℝ), entry.1)).filter
    fun p => p.2.product = product ∧ ¬ 0 < p.1).map Prod.snd

/-- What expired legs carry of a greek. -/
noncomputable def carried (greek : Leg ℝ → ℝ) (clock : Nat → Int) (product : String)
    (legs : List (Leg ℝ)) : ℝ :=
  ((expiredLegs clock product legs).map fun leg => greek leg * leg.quantity).sum

/-- A time to expiry that is positive is a second or more. -/
theorem le_legTte {expiry : Date} {nowNs : Int} (h : (0 : ℝ) < legTte expiry nowNs) :
    1 / 10 ^ 10 ≤ (legTte expiry nowNs : ℝ) := by
  have hyear : (julianYear : ℝ) = 31557600 := by
    rw [julianYear, real_lit, real_lit, real_lit]
    norm_num
  simp only [legTte, real_le, real_ofInt, real_zero, decide_eq_true_eq, hyear] at h ⊢
  split_ifs at h ⊢ with hpast
  · exact absurd h (lt_irrefl 0)
  · have hsecs : (1 : ℝ) ≤ numSeconds (atHour expiry 18) nowNs := by
      exact_mod_cast not_le.mp hpast
    calc (1 / 10 ^ 10 : ℝ) ≤ 1 / 31557600 := by norm_num
      _ ≤ _ := by gcongr

/-- The sums after a refresh: the legs that it prices, and what the expired ones had. -/
theorem legSum_refreshedLegs (greek : Leg ℝ → ℝ) (clock : Nat → Int) {product : String} {f : ℝ}
    (hf : view.underlyingPrice product = some f) (hpos : 0 < f) (legs : List (Leg ℝ)) :
    legSum greek product (refreshedLegs realFunctions view defaultIv clock legs) =
      ((liveLegs clock product legs).map fun p =>
        greek (markLeg realFunctions view defaultIv f p.1 p.2) * p.2.quantity).sum +
        carried greek clock product legs := by
  unfold legSum refreshedLegs liveLegs carried expiredLegs
  induction legs.zipIdx with
  | nil => simp
  | cons entry rest ih =>
      obtain ⟨leg, i⟩ := entry
      have hproduct : (refreshLeg realFunctions view defaultIv (clock i) leg).product = leg.product :=
        congrArg PositionKey.product (key_refreshLeg realFunctions view defaultIv (clock i) leg)
      by_cases hown : leg.product = product
      · subst hown
        by_cases hlive : (0 : ℝ) < legTte leg.expiry (clock i)
        · have hmark : refreshLeg realFunctions view defaultIv (clock i) leg =
              markLeg realFunctions view defaultIv f (legTte leg.expiry (clock i)) leg := by
            simp [refreshLeg, hf, F64.gt, hpos, hlive]
          have hsame : (markLeg realFunctions view defaultIv f (legTte leg.expiry (clock i))
            leg).product = leg.product := rfl
          have hqty : (markLeg realFunctions view defaultIv f (legTte leg.expiry (clock i))
            leg).quantity = leg.quantity := rfl
          simp only [List.map_cons, List.filter_cons, hsame, hlive, decide_true, and_self,
            not_true_eq_false, and_false, decide_false, if_true, Bool.false_eq_true, if_false,
            List.sum_cons, ih, hmark, hqty, add_assoc]
        · have hkeep : refreshLeg realFunctions view defaultIv (clock i) leg = leg := by
            simp [refreshLeg, hf, F64.gt, hpos, not_lt.mp hlive]
          simp only [List.map_cons, List.filter_cons, hlive, decide_true, and_self,
            not_false_eq_true, and_false, decide_false, if_true, Bool.false_eq_true, if_false,
            List.sum_cons, ih, hkeep]
          ring
      · simp only [List.map_cons, List.filter_cons, hproduct, hown, false_and, decide_false,
          Bool.false_eq_true, if_false, ih]

/-! ## Derivatives -/

/-- A sum is differentiated term by term. -/
theorem hasDerivAt_sum_map {ι : Type} {value : ι → ℝ → ℝ} {slope : ι → ℝ} {x : ℝ} {items : List ι}
    (h : ∀ i ∈ items, HasDerivAt (value i) (slope i) x) :
    HasDerivAt (fun y => (items.map fun i => value i y).sum) (items.map slope).sum x := by
  induction items with
  | nil => exact hasDerivAt_const x 0
  | cons i rest ih =>
      simp only [List.map_cons, List.sum_cons]
      exact (h i List.mem_cons_self).fun_add (ih fun j hj => h j (List.mem_cons_of_mem i hj))

/-- The greeks of a leg, at a rate of zero, as derivatives: delta of the price of a unit, the
others of the price in dollars. -/
structure AreDerivatives (f t sigma multiplier : ℝ) (k : ℝ) (right : Char) (g : GreeksOut ℝ) :
    Prop where
  delta : HasDerivAt (fun x => black76PriceInner realFunctions x k t sigma 0 right) g.delta f
  vega : HasDerivAt
    (fun h => densityRatio * (multiplier * black76PriceInner realFunctions f k t (sigma + h) 0 right))
    (100 * g.vega) 0
  theta : HasDerivAt
    (fun h => densityRatio * (multiplier * black76PriceInner realFunctions f k (t + h) sigma 0 right))
    (-(365 * g.theta)) 0
  gamma : HasDerivAt
    (fun x => densityRatio *
      (multiplier * (computeGreeks realFunctions x k t sigma 0 right multiplier).delta)) g.gamma f

theorem computeGreeks_derivatives {f k t sigma : ℝ} (right : Char) (multiplier : ℝ) (hf : 0 < f)
    (hk : 0 < k) (ht : 1 / 10 ^ 10 ≤ t) (hsigma : 0 < sigma) :
    AreDerivatives f t sigma multiplier k right
      (computeGreeks realFunctions f k t sigma 0 right multiplier) := by
  have hpos : 0 < t := lt_of_lt_of_le (by positivity) ht
  rw [computeGreeks_eq 0 right hf hk ht hsigma]
  constructor
  · exact hasDerivAt_price_forward 0 right hf hk hpos hsigma
  · have hprice := hasDerivAt_price_vol 0 right hf hk hpos ((add_zero sigma).symm ▸ hsigma)
    refine (((hprice.comp_const_add sigma 0).const_mul multiplier).const_mul
      densityRatio).congr_deriv ?_
    simp only [add_zero]
    ring
  · have hprice := hasDerivAt_price_time 0 right hf hk ((add_zero t).symm ▸ hpos) hsigma
    refine (((hprice.comp_const_add t 0).const_mul multiplier).const_mul
      densityRatio).congr_deriv ?_
    simp only [add_zero]
    split_ifs
    · ring
    · ring
  · have hdelta := ((hasDerivAt_forwardDelta right (sigma * √t) hf hk).const_mul
      (Real.exp (-0 * t))).const_mul multiplier
    refine ((hdelta.const_mul densityRatio).congr_of_eventuallyEq ?_).congr_deriv ?_
    · filter_upwards [eventually_pos hf] with x hx
      rw [computeGreeks_eq 0 right hx hk ht hsigma]
    · have hroot : √t ≠ 0 := (Real.sqrt_pos.mpr hpos).ne'
      field_simp

/-- What legs are worth together, at a price for each of them. -/
noncomputable def worth (price : ℝ × Leg ℝ → ℝ) (legs : List (ℝ × Leg ℝ)) : ℝ :=
  (legs.map fun p => price p * p.2.quantity).sum

theorem hasDerivAt_worth {price : ℝ → ℝ × Leg ℝ → ℝ} {slope : ℝ × Leg ℝ → ℝ} {x : ℝ}
    {legs : List (ℝ × Leg ℝ)} (h : ∀ p ∈ legs, HasDerivAt (fun y => price y p) (slope p) x) :
    HasDerivAt (fun y => worth (price y) legs) (worth slope legs) x :=
  hasDerivAt_sum_map fun p hp => (h p hp).mul_const _

theorem worth_const_mul (c : ℝ) (price : ℝ × Leg ℝ → ℝ) (legs : List (ℝ × Leg ℝ)) :
    worth (fun p => c * price p) legs = c * worth price legs := by
  simp only [worth, mul_assoc, List.sum_map_mul_left]

/-- The price of a leg at a forward, with its volatility and its time moved. -/
noncomputable def legPrice (f moreVol moreTime : ℝ) (p : ℝ × Leg ℝ) : ℝ :=
  black76PriceInner realFunctions f p.2.strike (p.1 + moreTime)
    (legIv view defaultIv p.2 + moreVol) 0 (asChar p.2.right)

/-- The delta of a leg at a forward. -/
noncomputable def legDelta (f : ℝ) (p : ℝ × Leg ℝ) : ℝ :=
  (computeGreeks realFunctions f p.2.strike p.1 (legIv view defaultIv p.2) 0 (asChar p.2.right)
    p.2.multiplier).delta

/-- **The sums of a product are derivatives of what its legs are worth**: delta by the forward,
in contracts; vega by a point of every volatility, theta by a day of every expiry and gamma
twice by the forward, in dollars.  The broker's constant of the density is a factor of the last
three, and expired legs carry what they had. -/
theorem totals_are_derivatives (s : PortfolioState ℝ) (clock : Nat → Int) {product : String}
    {f : ℝ} (hf : view.underlyingPrice product = some f) (hpos : 0 < f)
    (hlegs : ∀ leg ∈ s.positions, leg.product = product →
      0 < leg.strike ∧ 0 < legIv view defaultIv leg) :
    let s' := refreshGreeks realFunctions view defaultIv clock s
    let g := ((aggregate s').perProduct.lookup product).getD noGreeks
    let live := liveLegs clock product s.positions
    let had := fun greek => carried greek clock product s.positions
    let dollars := fun price (p : ℝ × Leg ℝ) => densityRatio * (p.2.multiplier * price p)
    s'.deltaForProduct product = g.netDelta ∧
      HasDerivAt (fun x => worth (legPrice view defaultIv x 0 0) live)
        (g.netDelta - had (·.delta)) f ∧
      HasDerivAt (fun h => worth (dollars (legPrice view defaultIv f h 0)) live)
        (100 * (g.netVega - had (·.vega))) 0 ∧
      HasDerivAt (fun h => worth (dollars (legPrice view defaultIv f 0 h)) live)
        (-365 * (g.netTheta - had (·.theta))) 0 ∧
      HasDerivAt (fun x => worth (dollars (legDelta view defaultIv x)) live)
        (g.netGamma - had (·.gamma)) f := by
  obtain ⟨hdelta, htheta, hvega, hgamma⟩ :=
    perProduct_eq (refreshGreeks realFunctions view defaultIv clock s) product
  have hsum (greek : Leg ℝ → ℝ) :
      legSum greek product (refreshGreeks realFunctions view defaultIv clock s).positions -
          carried greek clock product s.positions =
        worth (fun p => greek (markLeg realFunctions view defaultIv f p.1 p.2))
          (liveLegs clock product s.positions) :=
    sub_eq_of_eq_add (legSum_refreshedLegs view defaultIv greek clock hf hpos s.positions)
  have hlive : ∀ p ∈ liveLegs clock product s.positions,
      AreDerivatives f p.1 (legIv view defaultIv p.2) p.2.multiplier p.2.strike (asChar p.2.right)
        (computeGreeks realFunctions f p.2.strike p.1 (legIv view defaultIv p.2) 0
          (asChar p.2.right) p.2.multiplier) := by
    intro p hp
    obtain ⟨hmem, hfilter⟩ := List.mem_filter.mp hp
    obtain ⟨entry, hentry, rfl⟩ := List.mem_map.mp hmem
    obtain ⟨hproduct, hahead⟩ := of_decide_eq_true hfilter
    obtain ⟨hstrike, hiv⟩ := hlegs entry.1 (List.fst_mem_of_mem_zipIdx hentry) hproduct
    exact computeGreeks_derivatives _ _ hpos hstrike (le_legTte hahead) hiv
  have hzero : (F64.zero : ℝ) = 0 := real_zero
  refine ⟨(deltaForProduct_eq _ _).trans hdelta.symm, ?_, ?_, ?_, ?_⟩
  · rw [hdelta, hsum]
    refine hasDerivAt_worth fun p hp => ?_
    simpa only [legPrice, add_zero, markLeg, hzero] using (hlive p hp).delta
  · rw [hvega, hsum, ← worth_const_mul]
    refine hasDerivAt_worth fun p hp => ?_
    simpa only [legPrice, add_zero, markLeg, hzero] using (hlive p hp).vega
  · rw [htheta, hsum, ← worth_const_mul]
    refine hasDerivAt_worth fun p hp => ?_
    simpa only [legPrice, add_zero, markLeg, hzero, neg_mul] using (hlive p hp).theta
  · rw [hgamma, hsum]
    refine hasDerivAt_worth fun p hp => ?_
    simpa only [legDelta, markLeg, hzero] using (hlive p hp).gamma

/-- The book that one call makes. -/
noncomputable def oneCall : PortfolioState ℝ :=
  ((PortfolioState.new ∅).addFill "HG" (F64.lit 6 0) ⟨2026, 6, 26⟩ .call 1 (F64.lit 1 1) 0 0).2

/-- A market with a forward. -/
noncomputable def atSix : GreekView ℝ where
  underlyingPrice _ := some 6
  currentPrice _ _ _ _ := none
  hedgeUnderlyingPrice _ := none
  ivFor _ _ _ _ := none

/-- Its delta is the derivative of what the call is worth. -/
theorem delta_of_one_call :
    HasDerivAt
      (fun x => worth (legPrice atSix ∅ x 0 0) (liveLegs (fun _ => 0) "HG" oneCall.positions))
      ((((aggregate (refreshGreeks realFunctions atSix ∅ (fun _ => 0) oneCall)).perProduct.lookup
        "HG").getD noGreeks).netDelta - carried (·.delta) (fun _ => 0) "HG" oneCall.positions)
      6 := by
  have hlegs : ∀ leg ∈ oneCall.positions, leg.product = "HG" →
      0 < leg.strike ∧ 0 < legIv atSix ∅ leg := by
    intro leg hleg _
    obtain rfl := List.mem_singleton.mp hleg
    have hiv : (F64.lit 3 1 : ℝ) = 3 / 10 := by
      rw [real_lit]
      norm_num
    have hstrike : (F64.lit 6 0 : ℝ) = 6 := by simp
    refine ⟨?_, ?_⟩
    · show (0 : ℝ) < F64.lit 6 0
      rw [hstrike]
      norm_num
    · show (0 : ℝ) < F64.lit 3 1
      rw [hiv]
      norm_num
  exact (totals_are_derivatives atSix ∅ oneCall (fun _ => 0) rfl (by norm_num) hlegs).2.1

/-! ## Bounds of delta -/

theorem abs_sum_map_le {ι : Type} {value bound : ι → ℝ} {items : List ι}
    (h : ∀ i ∈ items, |value i| ≤ bound i) : |(items.map value).sum| ≤ (items.map bound).sum := by
  induction items with
  | nil => simp
  | cons i rest ih =>
      simp only [List.map_cons, List.sum_cons]
      calc |value i + (rest.map value).sum| ≤ |value i| + |(rest.map value).sum| := abs_add_le _ _
        _ ≤ bound i + (rest.map bound).sum :=
          add_le_add (h i List.mem_cons_self) (ih fun j hj => h j (List.mem_cons_of_mem i hj))

/-- A delta that the right of an option allows. -/
def DeltaOf (right : Right) (delta : ℝ) : Prop :=
  match right with
  | .call => 0 ≤ delta ∧ delta ≤ 1
  | .put => -1 ≤ delta ∧ delta ≤ 0

theorem DeltaOf.abs_le_one {right : Right} {delta : ℝ} (h : DeltaOf right delta) : |delta| ≤ 1 := by
  cases right with
  | call => exact abs_le.mpr ⟨by linarith [h.1], h.2⟩
  | put => exact abs_le.mpr ⟨h.1, by linarith [h.2]⟩

theorem deltaOf_computeGreeks (f k t sigma multiplier : ℝ) (right : Right) :
    DeltaOf right (computeGreeks realFunctions f k t sigma 0 (asChar right) multiplier).delta := by
  have hexercise : DeltaOf right (intrinsicGreeks f k sigma (isCall (asChar right))).delta := by
    have hhalf : (F64.lit 5 1 : ℝ) = 1 / 2 := half
    obtain ⟨hnonneg, hle⟩ : (0 : ℝ) ≤ (intrinsicGreeks f k sigma true).delta ∧
        (intrinsicGreeks f k sigma true).delta ≤ 1 := by
      simp only [intrinsicGreeks, if_true, hhalf, real_whole, real_zero, Int.cast_one]
      split_ifs
      · exact ⟨zero_le_one, le_refl 1⟩
      · exact ⟨le_refl 0, zero_le_one⟩
      · norm_num
    have hput : (intrinsicGreeks f k sigma false).delta =
        (intrinsicGreeks f k sigma true).delta - 1 := by
      simp only [intrinsicGreeks, Bool.false_eq_true, if_false, if_true, real_whole, Int.cast_one]
    cases right with
    | call =>
        rw [isCall_call]
        exact ⟨hnonneg, hle⟩
    | put =>
        rw [isCall_put, hput]
        exact ⟨by linarith, by linarith⟩
  by_cases h : (F64.lt t (F64.lit 1 10) || F64.le sigma F64.zero || F64.le f F64.zero ||
      F64.le k F64.zero) = true
  · rwa [computeGreeks, if_pos h]
  · simp only [real_lt, real_le, real_zero, real_lit, Int.cast_one, Bool.or_eq_true,
      decide_eq_true_eq, not_or, not_lt, not_le] at h
    obtain ⟨⟨⟨ht, hsigma⟩, hf⟩, hk⟩ := h
    rw [computeGreeks_eq 0 (asChar right) hf hk ht hsigma]
    have hnonneg := StdNormal.cdf_nonneg (Lognormal.dPlus f k (sigma * √t))
    have hle := StdNormal.cdf_le_one (Lognormal.dPlus f k (sigma * √t))
    cases right with
    | call => simpa [DeltaOf, forwardDelta, isCall_call] using ⟨hnonneg, hle⟩
    | put => simpa [DeltaOf, forwardDelta, isCall_put] using ⟨hnonneg, hle⟩

/-- **Delta stays within the contracts.**  Whatever fills, reconciles and refreshes there were,
a leg has no greeks or those of a refresh, its delta is one that its right allows, and the
delta of a product, which the hedge reads, is not more than its contracts. -/
theorem delta_within_contracts (registry : AList (fun _ : String => ℝ))
    (schedule : List (BookStep ℝ)) :
    let s := run (bookStep realFunctions defaultIv) (PortfolioState.new registry) schedule
    (∀ leg ∈ s.positions, DeltaOf leg.right leg.delta ∧
        (Leg.Zero leg ∨ ∃ a ∈ schedule, MarkedBy realFunctions defaultIv a leg)) ∧
      ∀ product, |s.deltaForProduct product| ≤
        ((s.positions.filter (·.product = product)).map fun leg => |(leg.quantity : ℝ)|).sum := by
  intro s
  have horigin : ∀ leg ∈ s.positions, Leg.Zero leg ∨
      ∃ a ∈ schedule, MarkedBy realFunctions defaultIv a leg :=
    greeks_of_run realFunctions defaultIv registry schedule
  have hdelta : ∀ leg ∈ s.positions, DeltaOf leg.right leg.delta := by
    intro leg hleg
    rcases horigin leg hleg with hzero | ⟨_, -, view, clock, i, f, -, -, hmarked, -⟩
    · rw [hzero.1, real_zero]
      cases leg.right with
      | call => exact ⟨le_refl 0, zero_le_one⟩
      | put => exact ⟨by norm_num, le_refl 0⟩
    · rw [hmarked, real_zero]
      exact deltaOf_computeGreeks f leg.strike _ _ leg.multiplier leg.right
  refine ⟨fun leg hleg => ⟨hdelta leg hleg, horigin leg hleg⟩, fun product => ?_⟩
  rw [deltaForProduct_eq, legSum]
  refine abs_sum_map_le fun leg hleg => ?_
  have habs := (hdelta leg (List.mem_filter.mp hleg).1).abs_le_one
  calc |leg.delta * leg.quantity| = |leg.delta| * |(leg.quantity : ℝ)| := abs_mul _ _
    _ ≤ 1 * |(leg.quantity : ℝ)| := by gcongr
    _ = |(leg.quantity : ℝ)| := one_mul _

end Real

end Corsair.Ports.BookGreeks
