import Corsair.Ports.Calibrate
import Corsair.Ports.ImpliedVol
import Corsair.Ports.TheoCache
import Corsair.Ports.VolFit

/-!
# `corsair_broker::vol_surface`: fits, the cache and the trader's surfaces

`fit_and_publish` fits one surface per product and expiry.  A fit goes into the broker's cache
under both sides and, as one event per side, onto the ring to the trader; where there is none the
cache stays and the trader is told, which does not listen.

The broker keys its surfaces by product, expiry and side.  The event names no product, and the
trader keys by expiry and side: of two products with an expiry in common it has the surface that
was fitted last.

## Main results

* `log_run` — the log of the fits is that of the turns.
* `surfaces_follow_fits` — the cache and the trader's surfaces, from the log of the fits.
* `published_surfaces_price` — what the trader prices from a surface, and what the dashboard does.
-/

namespace Corsair.Ports.VolSurface

open Corsair.Verified
open Corsair.Verified.Runs
open Corsair.Ports.Portfolio (Right Date)
open Corsair.Ports.NativeDecoder (TextFormats)
open Corsair.Ports.TraderState
open Corsair.Ports.DecideOnTick (Pricing computeTheo)
open Corsair.Ports.Trader (Clock Event processEvent onVolSurface)
open Corsair.Ports.RiskState (yielded mem_of_mem_yielded)
open Corsair.Ports.QuoteBook (MarketData)
open Corsair.Ports.VolFit
open Corsair.Ports.Black76
open Corsair.Ports.Calibrate

attribute [local instance] realF64

section Code

variable {F : Type} [F64 F] (e : Elementary F)

/-- `VolSurfaceCacheEntry`. -/
structure CacheEntry (F : Type) where
  forward : F
  tte : F
  alpha : F
  beta : F
  rho : F
  nu : F

/-- A fit of a surface, with the clock as the two events read it. -/
structure SurfaceFit (F : Type) where
  product : String
  expiry : String
  forward : F
  spotAtFit : F
  tte : F
  fit : SabrFit F
  minK : F
  maxK : F
  ts : Right → Nat

/-- `VolSurfaceEvent`. -/
structure VolSurfaceEvent (F : Type) where
  expiry : String
  side : String
  forward : F
  spotAtFit : F
  fit : SabrFit F
  calibratedMinK : F
  calibratedMaxK : F
  tsNs : Nat

/-- `VolSurfaceFailedEvent`. -/
structure VolSurfaceFailedEvent where
  expiry : String
  reason : String
  nStrikes : Nat
  tsNs : Nat

/-- What the fitter publishes. -/
inductive WireEvent (F : Type)
  | surface (ev : VolSurfaceEvent F)
  | failed (ev : VolSurfaceFailedEvent)

/-- The parameters as the trader reads them: `SabrParams` has no others. -/
def sabrParams (alpha beta rho nu : F) : VolParams F where
  model := "sabr"
  a := none
  b := none
  rho := some rho
  m := none
  sigma := none
  alpha := some alpha
  beta := some beta
  nu := some nu

def volParams (fit : SabrFit F) : VolParams F := sabrParams fit.alpha fit.beta fit.rho fit.nu

def CacheEntry.params (entry : CacheEntry F) : VolParams F :=
  sabrParams entry.alpha entry.beta entry.rho entry.nu

/-- The event as the trader reads it. -/
def VolSurfaceEvent.msg (ev : VolSurfaceEvent F) : VolSurfaceMsg F where
  expiry := ev.expiry
  side := ev.side
  forward := ev.forward
  params := volParams ev.fit
  tsNs := some ev.tsNs
  calibratedMinK := some ev.calibratedMinK
  calibratedMaxK := some ev.calibratedMaxK
  spotAtFit := some ev.spotAtFit

def SurfaceFit.cacheEntry (s : SurfaceFit F) : CacheEntry F where
  forward := s.forward
  tte := s.tte
  alpha := s.fit.alpha
  beta := s.fit.beta
  rho := s.fit.rho
  nu := s.fit.nu

/-- `side_label`. -/
def sideLabel : Right → String
  | .call => "C"
  | .put => "P"

/-- The side of a key. -/
def sideChar : Right → Char
  | .call => 'C'
  | .put => 'P'

def SurfaceFit.event (s : SurfaceFit F) (side : Right) : VolSurfaceEvent F where
  expiry := s.expiry
  side := sideLabel side
  forward := s.forward
  spotAtFit := s.spotAtFit
  fit := s.fit
  calibratedMinK := s.minK
  calibratedMaxK := s.maxK
  tsNs := s.ts side

/-- The trader's entry for a side of a fit. -/
def SurfaceFit.entry (s : SurfaceFit F) (side : Right) : VolSurfaceEntry F where
  forward := s.forward
  params := volParams s.fit
  fitTsNs := s.ts side
  calibratedMinK := some s.minK
  calibratedMaxK := some s.maxK
  spotAtFit := s.spotAtFit

/-! ## One expiry -/

/-- `weights`: vega squared. -/
def weights (forward tte : F) (ks ivs : List F) : List F :=
  List.zipWith
    (fun k iv =>
      let v := (computeGreeks e forward k tte iv F64.zero 'C' (F64.lit 1 0)).vega
      if F64.isFinite v && F64.gt v F64.zero then v * v else F64.lit 1 9)
    ks ivs

/-- `min_k` and `max_k`, of strikes that are not empty. -/
def strikeRange (first : F) (rest : List F) : F × F :=
  rest.foldl (fun range k => (F64.min range.1 k, F64.max range.2 k)) (first, first)

/-- What becomes of the points of an expiry. -/
inductive GroupOutcome (F : Type)
  | skipped
  | failed (reason : String)
  | fitted (fit : SabrFit F) (tte minK maxK : F)

/-- The fit of an expiry. -/
def fitGroup (forward : F) : List (FitPoint F) → GroupOutcome F
  | first :: second :: third :: rest =>
      let points := first :: second :: third :: rest
      let tte := first.tte
      if F64.gt tte F64.zero then
        let ks := points.map (·.strike)
        let ivs := points.map (·.iv)
        let range := strikeRange first.strike ((second :: third :: rest).map (·.strike))
        match calibrateSabr e forward tte ks ivs (some (weights e forward tte ks ivs))
          (F64.lit 5 1) (F64.lit 5 2) with
        | some fit => .fitted fit tte range.1 range.2
        | none => .failed "fit_rejected"
      else .skipped
  | _ => .failed "too_few_strikes"

/-! ## The two processes -/

/-- `vol_surface_cache`. -/
abbrev SurfaceCache (F : Type) := AList (fun _ : String × String × Char => CacheEntry F)

/-- The broker's cache and the log of its fits, the events that the trader has not read, and the
trader. -/
structure Surfaces (F : Type) where
  cache : SurfaceCache F
  log : List (SurfaceFit F)
  wire : List (WireEvent F)
  trader : SharedState F

/-- `publish`: a full ring drops the event. -/
def Surfaces.publish (s : Surfaces F) (accepted : Bool) (ev : WireEvent F) : Surfaces F :=
  if accepted then { s with wire := s.wire ++ [ev] } else s

/-- A fit is cached under both sides and published once for each. -/
def Surfaces.adopt (s : Surfaces F) (fit : SurfaceFit F) (accepted : Right → Bool) :
    Surfaces F :=
  let cached := { s with
    cache := (s.cache.insert (fit.product, fit.expiry, 'C') fit.cacheEntry).insert
      (fit.product, fit.expiry, 'P') fit.cacheEntry
    log := s.log ++ [fit] }
  (cached.publish (accepted .call) (.surface (fit.event .call))).publish (accepted .put)
    (.surface (fit.event .put))

/-- What the events of an expiry meet: the clock, and whether the ring has room. -/
structure GroupChance where
  ts : Right → Nat
  accepted : Right → Bool

/-- One expiry of `fit_and_publish`. -/
def Surfaces.fitExpiry (s : Surfaces F) (product : String) (forward spotAtFit : F)
    (expiry : String) (points : List (FitPoint F)) (chance : GroupChance) : Surfaces F :=
  match fitGroup e forward points with
  | .skipped => s
  | .failed reason =>
      s.publish (chance.accepted .call)
        (.failed { expiry, reason, nStrikes := points.length, tsNs := chance.ts .call })
  | .fitted fit tte minK maxK =>
      s.adopt { product, expiry, forward, spotAtFit, tte, fit, minK, maxK, ts := chance.ts }
        chance.accepted

/-- A turn of `fit_and_publish` for a product: the market it finds, the orders in which the hash
maps yield their entries, and what each expiry meets. -/
structure Turn (F : Type) [F64 F] where
  product : String
  market : MarketData F
  nowNs : Int
  pairOrder : List Nat
  expiryOrder : List Nat
  chance : Nat → GroupChance

/-- `implied_vol`, as the fitter calls it. -/
def fitEnv (nowNs : Int) : FitEnv F where
  impliedVol price f k t right :=
    ImpliedVol.impliedVol e price f k t F64.zero (sideLabel right)
  nowNs

variable (fmt : TextFormats F Date)

/-- `fit_and_publish`, for one product. -/
def Surfaces.fitProduct (s : Surfaces F) (t : Turn F) : Surfaces F :=
  match snapshotChain (fitEnv e t.nowNs) fmt t.market t.product t.pairOrder with
  | none => s
  | some (forward, spotAtFit, groups) =>
      (yielded t.expiryOrder (groups.entries.map fun g => (g.1, g.2))).zipIdx.foldl
        (fun s g => s.fitExpiry e t.product forward spotAtFit g.1.1 g.1.2 (t.chance g.2)) s

/-- The events of the trader that carry no surface. -/
def OtherEvent (F : Type) := { ev : Event F // ∀ msg, ev ≠ .volSurface msg }

variable (pricing : Pricing F) (placesOrders : Bool)

/-- The trader handles an event of the fitter; it has no name for a failure. -/
def deliver (trader : SharedState F) : WireEvent F → SharedState F
  | .surface ev => onVolSurface trader ev.msg
  | .failed _ => trader

/-- Who moves next. -/
inductive SurfaceStep (F : Type) [F64 F]
  | fit (turn : Turn F)
  | read
  | other (ev : OtherEvent F) (clock : Clock F) (accepts : Nat → Bool)

/-- One step of the two processes. -/
def step (s : Surfaces F) : SurfaceStep F → Surfaces F
  | .fit turn => s.fitProduct e fmt turn
  | .read =>
      match s.wire with
      | [] => s
      | ev :: rest => { s with wire := rest, trader := deliver s.trader ev }
  | .other ev clock accepts =>
      { s with trader := (processEvent pricing placesOrders s.trader clock accepts ev.1).2 }

/-- The start: no fit yet, and a trader without surfaces. -/
def start (trader : SharedState F) : Surfaces F where
  cache := ∅
  log := []
  wire := []
  trader := { trader with volSurfaces := ∅ }

/-- `theo` of a leg in `build_chain_payload`: the cached fit of its side, or of the other. -/
def chainTheo (cache : SurfaceCache F) (product expiry : String) (right : Char) (strike : F) :
    Option F :=
  let other := if right = 'C' then 'P' else 'C'
  ((cache.lookup (product, expiry, right)).or (cache.lookup (product, expiry, other))).bind
    fun entry =>
      let iv := sabrImpliedVol e entry.forward strike entry.tte entry.alpha entry.beta entry.rho
        entry.nu
      if !F64.isFinite iv || F64.le iv F64.zero then none
      else
        let p := black76PriceInner e entry.forward strike entry.tte iv F64.zero right
        if F64.isFinite p && F64.gt p F64.zero then some p else none

end Code

/-! ## What a turn does -/

section Runs

variable {F : Type} [F64 F] {e : Elementary F} {fmt : TextFormats F Date}
variable {pricing : Pricing F} {placesOrders : Bool}

/-- The fit of the points of an expiry, if there is one. -/
def fitOf (e : Elementary F) (product : String) (forward spotAtFit : F) (expiry : String)
    (points : List (FitPoint F)) (ts : Right → Nat) : Option (SurfaceFit F) :=
  match fitGroup e forward points with
  | .fitted fit tte minK maxK =>
      some { product, expiry, forward, spotAtFit, tte, fit, minK, maxK, ts }
  | _ => none

/-- The fits of a turn, in the order of its expiries. -/
def Turn.fits (e : Elementary F) (fmt : TextFormats F Date) (t : Turn F) : List (SurfaceFit F) :=
  match snapshotChain (fitEnv e t.nowNs) fmt t.market t.product t.pairOrder with
  | none => []
  | some (forward, spotAtFit, groups) =>
      (yielded t.expiryOrder (groups.entries.map fun g => (g.1, g.2))).zipIdx.filterMap fun g =>
        fitOf e t.product forward spotAtFit g.1.1 g.1.2 (t.chance g.2).ts

def SurfaceStep.fits (e : Elementary F) (fmt : TextFormats F Date) :
    SurfaceStep F → List (SurfaceFit F)
  | .fit turn => turn.fits e fmt
  | _ => []

/-- A fit of a turn, and the points that it is the fit of. -/
theorem mem_fits {t : Turn F} {fit : SurfaceFit F} (h : fit ∈ t.fits e fmt) :
    ∃ groups, snapshotChain (fitEnv e t.nowNs) fmt t.market t.product t.pairOrder =
        some (fit.forward, fit.spotAtFit, groups) ∧
      fitGroup e fit.forward (expiryPoints groups fit.expiry) =
        .fitted fit.fit fit.tte fit.minK fit.maxK := by
  unfold Turn.fits at h
  split at h
  · cases h
  · rename_i forward spotAtFit groups hsnapshot
    obtain ⟨g, hg, hfit⟩ := List.mem_filterMap.mp h
    obtain ⟨entry, hentry, hpair⟩ :=
      List.mem_map.mp (mem_of_mem_yielded (List.fst_mem_of_mem_zipIdx hg))
    have hpoints : expiryPoints groups g.1.1 = g.1.2 := by
      rw [expiryPoints, ← hpair, AList.mem_lookup_iff.mpr hentry]
      rfl
    unfold fitOf at hfit
    split at hfit
    · rename_i hgroup
      obtain rfl := Option.some.inj hfit
      exact ⟨groups, hsnapshot, by rw [hpoints]; exact hgroup⟩
    · cases hfit

/-- What failures and fits keep is kept by a turn. -/
theorem fitProduct_rule {I : Surfaces F → Prop} (t : Turn F)
    (hfailed : ∀ s accepted ev, I s → I (s.publish accepted (.failed ev)))
    (hadopt : ∀ s fit j, I s → I (s.adopt fit (t.chance j).accepted))
    {s : Surfaces F} (h : I s) : I (s.fitProduct e fmt t) := by
  unfold Surfaces.fitProduct
  split
  · exact h
  · rename_i forward spotAtFit groups _
    generalize (yielded t.expiryOrder _).zipIdx = items
    induction items generalizing s with
    | nil => exact h
    | cons g rest ih =>
        refine ih ?_
        dsimp only [Surfaces.fitExpiry]
        cases fitGroup e forward g.1.2 with
        | skipped => exact h
        | failed reason => exact hfailed _ _ _ h
        | fitted fit tte minK maxK => exact hadopt _ _ g.2 h

/-- The last fit of a kind. -/
def lastFit (kind : SurfaceFit F → Bool) (log : List (SurfaceFit F)) : Option (SurfaceFit F) :=
  (log.filter kind).getLast?

omit [F64 F] in
theorem lastFit_concat (kind : SurfaceFit F → Bool) (log : List (SurfaceFit F))
    (fit : SurfaceFit F) :
    lastFit kind (log ++ [fit]) = if kind fit then some fit else lastFit kind log := by
  unfold lastFit
  split_ifs with h
  · simp [h]
  · simp [h]

omit [F64 F] in
@[simp] theorem publish_cache (s : Surfaces F) (accepted : Bool) (ev : WireEvent F) :
    (s.publish accepted ev).cache = s.cache := by
  unfold Surfaces.publish
  split
  · rfl
  · rfl

omit [F64 F] in
@[simp] theorem publish_log (s : Surfaces F) (accepted : Bool) (ev : WireEvent F) :
    (s.publish accepted ev).log = s.log := by
  unfold Surfaces.publish
  split
  · rfl
  · rfl

omit [F64 F] in
@[simp] theorem publish_trader (s : Surfaces F) (accepted : Bool) (ev : WireEvent F) :
    (s.publish accepted ev).trader = s.trader := by
  unfold Surfaces.publish
  split
  · rfl
  · rfl

omit [F64 F] in
theorem mem_publish_wire {s : Surfaces F} {accepted : Bool} {ev ev' : WireEvent F}
    (h : ev' ∈ (s.publish accepted ev).wire) : ev' ∈ s.wire ∨ ev' = ev := by
  unfold Surfaces.publish at h
  split at h
  · exact (List.mem_append.mp h).imp_right List.mem_singleton.mp
  · exact .inl h

omit [F64 F] in
@[simp] theorem adopt_log (s : Surfaces F) (fit : SurfaceFit F) (accepted : Right → Bool) :
    (s.adopt fit accepted).log = s.log ++ [fit] := by
  simp [Surfaces.adopt]

omit [F64 F] in
@[simp] theorem adopt_trader (s : Surfaces F) (fit : SurfaceFit F) (accepted : Right → Bool) :
    (s.adopt fit accepted).trader = s.trader := by
  simp [Surfaces.adopt]

omit [F64 F] in
theorem mem_adopt_wire {s : Surfaces F} {fit : SurfaceFit F} {accepted : Right → Bool}
    {ev : WireEvent F} (h : ev ∈ (s.adopt fit accepted).wire) :
    ev ∈ s.wire ∨ ∃ side, ev = .surface (fit.event side) := by
  rcases mem_publish_wire h with h | h
  · exact (mem_publish_wire h).imp_right fun h => ⟨.call, h⟩
  · exact .inr ⟨.put, h⟩

/-! ## The log -/

theorem log_fitExpiry (s : Surfaces F) (product : String) (forward spotAtFit : F)
    (expiry : String) (points : List (FitPoint F)) (chance : GroupChance) :
    (s.fitExpiry e product forward spotAtFit expiry points chance).log =
      s.log ++ (fitOf e product forward spotAtFit expiry points chance.ts).toList := by
  unfold Surfaces.fitExpiry fitOf
  cases fitGroup e forward points with
  | skipped => simp
  | failed reason => simp
  | fitted fit tte minK maxK => simp

theorem log_fitProduct (s : Surfaces F) (t : Turn F) :
    (s.fitProduct e fmt t).log = s.log ++ t.fits e fmt := by
  unfold Surfaces.fitProduct Turn.fits
  split
  · simp
  · rename_i forward spotAtFit groups _
    generalize (yielded t.expiryOrder _).zipIdx = items
    induction items generalizing s with
    | nil => simp
    | cons g rest ih =>
        rw [List.foldl_cons, ih, log_fitExpiry, List.append_assoc, List.filterMap_cons]
        cases fitOf e t.product forward spotAtFit g.1.1 g.1.2 (t.chance g.2).ts <;> rfl

theorem log_step (s : Surfaces F) (a : SurfaceStep F) :
    (step e fmt pricing placesOrders s a).log = s.log ++ a.fits e fmt := by
  cases a with
  | fit turn => exact log_fitProduct s turn
  | read =>
      rw [show SurfaceStep.fits e fmt (.read : SurfaceStep F) = [] from rfl, List.append_nil]
      simp only [step]
      split
      · rfl
      · rfl
  | other ev clock accepts => exact (List.append_nil s.log).symm

/-- **The log** is what the turns of the schedule fit. -/
theorem log_run (s : Surfaces F) (schedule : List (SurfaceStep F)) :
    (run (step e fmt pricing placesOrders) s schedule).log =
      s.log ++ schedule.flatMap (SurfaceStep.fits e fmt) := by
  induction schedule generalizing s with
  | nil => simp
  | cons a rest ih => rw [run_cons, ih, log_step, List.append_assoc, List.flatMap_cons]

/-! ## What the trader keeps -/

omit [F64 F] in
/-- An event of a side files the entry under that side. -/
theorem onVolSurface_event (trader : SharedState F) (fit : SurfaceFit F) (side : Right) :
    onVolSurface trader (fit.event side).msg =
      { trader with
        volSurfaces :=
          trader.volSurfaces.insert (fit.expiry, sideChar side) (fit.entry side) } := by
  have hupper : String.ofList ((sideLabel side).toList.map Char.toUpper) = sideLabel side := by
    cases side with
    | call => decide
    | put => decide
  have hone : sideLabel side ≠ "BOTH" := by
    cases side with
    | call => decide
    | put => decide
  have hhead : (sideLabel side).toList.head?.getD 'C' = sideChar side := by
    cases side with
    | call => decide
    | put => decide
  simp only [onVolSurface, VolSurfaceEvent.msg, SurfaceFit.event, hupper, if_neg hone, hhead]
  rfl

/-- No other event of the trader touches its surfaces. -/
theorem volSurfaces_other (pricing : Pricing F) (placesOrders : Bool) (trader : SharedState F)
    (ev : OtherEvent F) (clock : Clock F)
    (accepts : Nat → Bool) :
    (processEvent pricing placesOrders trader clock accepts ev.1).2.volSurfaces =
      trader.volSurfaces := by
  obtain ⟨ev, hother⟩ := ev
  cases ev with
  | tick msg => exact TheoCache.volSurfaces_onTick pricing placesOrders trader clock accepts msg
  | volSurface msg => exact absurd rfl (hother msg)
  | _ => exact (TheoCache.sameFits_processEvent pricing placesOrders trader clock accepts rfl).2

/-! ## Invariants -/

/-- The last fit of a product and an expiry … -/
def lastOf (product expiry : String) (log : List (SurfaceFit F)) : Option (SurfaceFit F) :=
  lastFit (fun fit => fit.product = product ∧ fit.expiry = expiry) log

/-- … and of an expiry, of whatever product. -/
def lastAt (expiry : String) (log : List (SurfaceFit F)) : Option (SurfaceFit F) :=
  lastFit (fun fit => fit.expiry = expiry) log

/-- What holds in every state: the cache has the last fit of each kind, and whatever is on the
wire or with the trader was fitted. -/
structure Logged (s : Surfaces F) : Prop where
  cached : ∀ product expiry side,
    s.cache.lookup (product, expiry, sideChar side) =
      (lastOf product expiry s.log).map SurfaceFit.cacheEntry
  wire : ∀ ev ∈ s.wire, (∃ failure, ev = .failed failure) ∨
    ∃ fit ∈ s.log, ∃ side, ev = .surface (fit.event side)
  trader : ∀ expiry c vp, s.trader.volSurfaces.lookup (expiry, c) = some vp →
    ∃ fit ∈ s.log, fit.expiry = expiry ∧ ∃ side, c = sideChar side ∧ vp = fit.entry side

omit [F64 F] in
/-- Writing both sides of a product and expiry. -/
theorem lookup_adopt_cache (s : Surfaces F) (fit : SurfaceFit F) (accepted : Right → Bool)
    (product expiry : String) (side : Right) :
    (s.adopt fit accepted).cache.lookup (product, expiry, sideChar side) =
      if fit.product = product ∧ fit.expiry = expiry then some fit.cacheEntry
      else s.cache.lookup (product, expiry, sideChar side) := by
  simp only [Surfaces.adopt, publish_cache]
  split_ifs with hkey
  · obtain ⟨rfl, rfl⟩ := hkey
    cases side with
    | call =>
        rw [AList.lookup_insert_ne (by simp [sideChar])]
        exact AList.lookup_insert _
    | put => exact AList.lookup_insert _
  · have hne (c : Char) : (product, expiry, sideChar side) ≠ (fit.product, fit.expiry, c) := by
      intro h
      simp only [Prod.mk.injEq] at h
      exact hkey ⟨h.1.symm, h.2.1.symm⟩
    rw [AList.lookup_insert_ne (hne _), AList.lookup_insert_ne (hne _)]

omit [F64 F] in
theorem Logged.failed {s : Surfaces F} (h : Logged s) (accepted : Bool)
    (ev : VolSurfaceFailedEvent) : Logged (s.publish accepted (.failed ev)) where
  cached := by simpa using h.cached
  wire ev' hev := by
    rw [publish_log]
    rcases mem_publish_wire hev with hold | hnew
    · exact h.wire ev' hold
    · exact .inl ⟨ev, hnew⟩
  trader := by simpa using h.trader

omit [F64 F] in
theorem Logged.adopt {s : Surfaces F} (h : Logged s) (fit : SurfaceFit F)
    (accepted : Right → Bool) : Logged (s.adopt fit accepted) where
  cached product expiry side := by
    rw [lookup_adopt_cache, adopt_log, lastOf, lastFit_concat]
    simp only [decide_eq_true_eq]
    split_ifs
    · rfl
    · exact h.cached product expiry side
  wire ev hev := by
    rw [adopt_log]
    rcases mem_adopt_wire hev with hold | ⟨side, hnew⟩
    · refine (h.wire ev hold).imp_right fun ⟨old, hmem, hold⟩ => ?_
      exact ⟨old, List.mem_append_left _ hmem, hold⟩
    · exact .inr ⟨fit, List.mem_append_right _ List.mem_cons_self, side, hnew⟩
  trader expiry c vp hlookup := by
    rw [adopt_trader] at hlookup
    obtain ⟨old, hmem, hold⟩ := h.trader expiry c vp hlookup
    rw [adopt_log]
    exact ⟨old, List.mem_append_left _ hmem, hold⟩

theorem Logged.step {s : Surfaces F} (h : Logged s) (a : SurfaceStep F) :
    Logged (step e fmt pricing placesOrders s a) := by
  cases a with
  | fit turn =>
      exact fitProduct_rule turn (fun _ accepted ev h => h.failed accepted ev)
        (fun _ fit j h => h.adopt fit (turn.chance j).accepted) h
  | read =>
      cases hwire : s.wire with
      | nil => simpa only [VolSurface.step, hwire] using h
      | cons ev rest =>
          have hmem : ev ∈ s.wire := by
            rw [hwire]
            exact List.mem_cons_self
          simp only [VolSurface.step, hwire]
          refine ⟨h.cached, fun ev' hev => h.wire ev' ?_, fun expiry c vp hlookup => ?_⟩
          · rw [hwire]
            exact List.mem_cons_of_mem ev hev
          · rcases h.wire ev hmem with ⟨failure, rfl⟩ | ⟨fit, hfit, side, rfl⟩
            · exact h.trader expiry c vp hlookup
            · simp only [deliver, onVolSurface_event] at hlookup
              rcases Table.lookup_insert_eq_some hlookup with ⟨hkey, hentry⟩ | hold
              · obtain ⟨hexpiry, hside⟩ := Prod.mk.inj hkey
                exact ⟨fit, hfit, hexpiry.symm, side, hside, hentry⟩
              · exact h.trader expiry c vp hold
  | other ev clock accepts =>
      refine ⟨h.cached, h.wire, fun expiry c vp hlookup => h.trader expiry c vp ?_⟩
      have hkept := volSurfaces_other pricing placesOrders s.trader ev clock accepts
      exact hkept ▸ hlookup

/-- The trader once it has read what is on the wire. -/
def Surfaces.caughtUp (s : Surfaces F) : SharedState F := s.wire.foldl deliver s.trader

/-- It has the last fit of each expiry. -/
def Followed (s : Surfaces F) : Prop :=
  ∀ expiry side, s.caughtUp.volSurfaces.lookup (expiry, sideChar side) =
    (lastAt expiry s.log).map (·.entry side)

omit [F64 F] in
/-- What is read of a surface does not depend on the rest of the trader. -/
theorem volSurfaces_deliver (events : List (WireEvent F)) {trader trader' : SharedState F}
    (h : trader'.volSurfaces = trader.volSurfaces) :
    (events.foldl deliver trader').volSurfaces = (events.foldl deliver trader).volSurfaces := by
  induction events generalizing trader trader' with
  | nil => exact h
  | cons ev rest ih =>
      refine ih ?_
      cases ev with
      | failed ev => exact h
      | surface ev =>
          by_cases hboth : String.ofList (ev.side.toList.map Char.toUpper) = "BOTH"
          · simp only [deliver, onVolSurface, VolSurfaceEvent.msg, Option.getD_some, hboth, h]
            rfl
          · simp only [deliver, onVolSurface, VolSurfaceEvent.msg, Option.getD_some, hboth, h]
            rfl

omit [F64 F] in
theorem Followed.failed {s : Surfaces F} (h : Followed s) (accepted : Bool)
    (ev : VolSurfaceFailedEvent) : Followed (s.publish accepted (.failed ev)) := by
  cases accepted with
  | false => exact h
  | true =>
      intro expiry side
      simpa [Surfaces.caughtUp, Surfaces.publish, deliver] using h expiry side

omit [F64 F] in
theorem Followed.adopt {s : Surfaces F} (h : Followed s) (fit : SurfaceFit F)
    {accepted : Right → Bool} (haccepted : ∀ side, accepted side = true) :
    Followed (s.adopt fit accepted) := by
  intro expiry side
  have hread : (s.adopt fit accepted).caughtUp.volSurfaces =
      (s.caughtUp.volSurfaces.insert (fit.expiry, 'C') (fit.entry .call)).insert (fit.expiry, 'P')
        (fit.entry .put) := by
    simp only [Surfaces.caughtUp, Surfaces.adopt, Surfaces.publish, haccepted, if_true,
      List.foldl_append, List.foldl_cons, List.foldl_nil, deliver, onVolSurface_event, sideChar]
  rw [hread, adopt_log, lastAt, lastFit_concat]
  simp only [decide_eq_true_eq]
  split_ifs with hexpiry
  · subst hexpiry
    cases side with
    | call =>
        rw [AList.lookup_insert_ne (by simp [sideChar])]
        exact AList.lookup_insert _
    | put => exact AList.lookup_insert _
  · have hne (c : Char) : (expiry, sideChar side) ≠ (fit.expiry, c) := fun h =>
      hexpiry (Prod.mk.inj h).1.symm
    rw [AList.lookup_insert_ne (hne _), AList.lookup_insert_ne (hne _)]
    exact h expiry side

/-- The ring takes what the step publishes. -/
def HasRoom : SurfaceStep F → Prop
  | .fit turn => ∀ j side, (turn.chance j).accepted side = true
  | _ => True

theorem Followed.step {s : Surfaces F} (h : Followed s) {a : SurfaceStep F} (hroom : HasRoom a) :
    Followed (step e fmt pricing placesOrders s a) := by
  cases a with
  | fit turn =>
      exact fitProduct_rule turn (fun _ accepted ev h => h.failed accepted ev)
        (fun _ fit j h => h.adopt fit (hroom j)) h
  | read =>
      cases hwire : s.wire with
      | nil => simpa only [VolSurface.step, hwire] using h
      | cons ev rest =>
          intro expiry side
          simpa only [VolSurface.step, Surfaces.caughtUp, hwire, List.foldl_cons] using
            h expiry side
  | other ev clock accepts =>
      intro expiry side
      refine (congrArg (AList.lookup _) (volSurfaces_deliver s.wire ?_)).trans (h expiry side)
      exact volSurfaces_other pricing placesOrders s.trader ev clock accepts

omit [F64 F] in
theorem start_logged (trader : SharedState F) : Logged (start trader) where
  cached _ _ _ := rfl
  wire _ hmem := absurd hmem List.not_mem_nil
  trader _ _ _ hlookup := absurd hlookup (by simp [start])

omit [F64 F] in
theorem start_followed (trader : SharedState F) : Followed (start trader) := fun _ _ => rfl

theorem logged_run (trader : SharedState F) (schedule : List (SurfaceStep F)) :
    Logged (run (step e fmt pricing placesOrders) (start trader) schedule) :=
  run_invariant Logged (fun _ a h => h.step a) (start_logged trader) schedule

omit [F64 F] in
theorem lastFit_mem {kind : SurfaceFit F → Bool} {log : List (SurfaceFit F)} {fit : SurfaceFit F}
    (h : lastFit kind log = some fit) : fit ∈ log ∧ kind fit = true :=
  List.mem_filter.mp (List.mem_of_getLast? h)

omit [F64 F] in
/-- With one product at an expiry, its last fit is the expiry's. -/
theorem lastAt_eq_lastOf {product expiry : String} {log : List (SurfaceFit F)}
    (hone : ∀ fit ∈ log, fit.expiry = expiry → fit.product = product) :
    lastAt expiry log = lastOf product expiry log := by
  refine congrArg List.getLast? (List.filter_congr fun fit hmem => ?_)
  simp only [decide_eq_decide]
  exact ⟨fun hexpiry => ⟨hone fit hmem hexpiry, hexpiry⟩, And.right⟩

/-- The trader catches up by reading, one event at a time. -/
theorem trader_reads (s : Surfaces F) :
    (run (step e fmt pricing placesOrders) s (List.replicate s.wire.length .read)).trader =
      s.caughtUp := by
  obtain ⟨cache, log, wire, trader⟩ := s
  induction wire generalizing trader with
  | nil => rfl
  | cons ev rest ih => exact ih (deliver trader ev)

/-- **The surfaces follow the fits.**  The log is what the turns fit.  The broker's cache has the
last fit of each product and expiry, and all that the trader has was fitted.  The trader catches
up by reading the wire; while the ring has room, the trader that has caught up has the last fit of
each expiry, of whatever product, and where one product has the expiry to itself, it has the
parameters of the cache. -/
theorem surfaces_follow_fits (e : Elementary F) (fmt : TextFormats F Date) (pricing : Pricing F)
    (placesOrders : Bool) (trader : SharedState F) (schedule : List (SurfaceStep F)) :
    let s := run (step e fmt pricing placesOrders) (start trader) schedule
    s.log = schedule.flatMap (SurfaceStep.fits e fmt) ∧
    (∀ product expiry side, s.cache.lookup (product, expiry, sideChar side) =
      (lastOf product expiry s.log).map SurfaceFit.cacheEntry) ∧
    (∀ expiry c vp, s.trader.volSurfaces.lookup (expiry, c) = some vp →
      ∃ fit ∈ s.log, fit.expiry = expiry ∧ ∃ side, c = sideChar side ∧ vp = fit.entry side) ∧
    (run (step e fmt pricing placesOrders) s (List.replicate s.wire.length .read)).trader =
      s.caughtUp ∧
    (Meets (step e fmt pricing placesOrders) (fun _ a => HasRoom a) (start trader) schedule →
      ∀ expiry side,
        s.caughtUp.volSurfaces.lookup (expiry, sideChar side) =
          (lastAt expiry s.log).map (·.entry side) ∧
        ∀ product, (∀ fit ∈ s.log, fit.expiry = expiry → fit.product = product) →
          (s.caughtUp.volSurfaces.lookup (expiry, sideChar side)).map
              (fun vp => (vp.forward, vp.params)) =
            (s.cache.lookup (product, expiry, sideChar side)).map
              (fun entry => (entry.forward, entry.params))) := by
  intro s
  have hlogged : Logged s := logged_run trader schedule
  refine ⟨log_run (start trader) schedule, hlogged.cached, hlogged.trader, trader_reads s,
    fun hroom expiry side => ?_⟩
  have hfollowed : Followed s :=
    run_invariant_of_meets Followed (fun _ _ hroom h => h.step hroom) (start_followed trader)
      schedule hroom
  refine ⟨hfollowed expiry side, fun product hone => ?_⟩
  rw [hfollowed expiry side, hlogged.cached, lastAt_eq_lastOf hone, Option.map_map, Option.map_map]
  rfl

end Runs

/-! ## The prices, in exact arithmetic -/

section Prices

variable {f k t alpha rho nu : ℝ}

/-- The last line of the formula away from the money. -/
theorem fallback_pos (result : ℝ) (halpha : 0 < alpha) :
    0 < if F64.isFinite result && F64.gt result F64.zero then result
      else F64.max alpha (F64.lit 1 3) := by
  split_ifs with hpos
  · simpa [F64.gt] using hpos
  · exact lt_max_of_lt_left halpha

/-- A volatility is positive but for the formula at the money, which lacks the fallback. -/
theorem sabrImpliedVol_pos (beta : ℝ) (ht : 0 < t) (halpha : 0 < alpha) (hf : 0 < f) (hk : 0 < k)
    (hfar : 1 / 10 ^ 7 * f ≤ |f - k|) :
    0 < sabrImpliedVol realFunctions f k t alpha beta rho nu := by
  have hguard : (F64.le t F64.zero || F64.le alpha F64.zero || F64.le f F64.zero ||
      F64.le k F64.zero) = false := by
    simp [ht, halpha, hf, hk]
  have hnear : F64.lt (F64.abs (f - k)) (F64.lit 1 7 * f) = false := by
    simpa [real_lit] using hfar
  simp only [sabrImpliedVol, hguard, hnear, Bool.false_eq_true, if_false]
  exact fallback_pos _ halpha

/-- The trader's formulas. -/
noncomputable def realPricing : Pricing ℝ := Trader.pricing realFunctions Real.pi

/-- The volatility and the price of a fit, at a strike and a time to expiry. -/
noncomputable def SurfaceFit.vol (fit : SurfaceFit ℝ) (strike tte : ℝ) : ℝ :=
  sabrImpliedVol realFunctions fit.forward strike tte fit.fit.alpha fit.fit.beta fit.fit.rho
    fit.fit.nu

noncomputable def SurfaceFit.price (fit : SurfaceFit ℝ) (strike tte : ℝ) (right : Right) : ℝ :=
  black76PriceInner realFunctions fit.forward strike tte (fit.vol strike tte) 0 (sideChar right)

/-- The theo of a fit: the price where the volatility is positive. -/
noncomputable def SurfaceFit.theo (fit : SurfaceFit ℝ) (strike tte : ℝ) (right : Right) :
    Option ℝ :=
  if 0 < fit.vol strike tte then some (fit.price strike tte right) else none

theorem intrinsic_nonneg (f k : ℝ) (call : Bool) : 0 ≤ intrinsic f k call := by
  unfold intrinsic
  rw [real_max, real_max, real_zero]
  split_ifs
  · exact le_max_right _ _
  · exact le_max_right _ _

theorem SurfaceFit.intrinsic_lt_price (fit : SurfaceFit ℝ) {strike tte : ℝ} (right : Right)
    (hforward : 0 < fit.forward) (hstrike : 0 < strike) (htte : 0 < tte)
    (hvol : 0 < fit.vol strike tte) :
    intrinsic fit.forward strike (isCall (sideChar right)) < fit.price strike tte right := by
  simpa [SurfaceFit.price] using
    Black76.intrinsic_lt_price 0 (sideChar right) hforward hstrike htte hvol

/-- What the trader computes. -/
theorem computeTheo_fit (fit : SurfaceFit ℝ) {strike tte : ℝ} (right : Right)
    (hforward : 0 < fit.forward) (hstrike : 0 < strike) (htte : 0 < tte) :
    (computeTheo realPricing fit.forward strike tte (sideChar right) (volParams fit.fit)).map
        (fun theo => (theo.1, theo.2.theo)) =
      (fit.theo strike tte right).map (fun theo => (fit.vol strike tte, theo)) := by
  have hguard : (F64.le fit.forward F64.zero || F64.le strike F64.zero || F64.le tte F64.zero) =
      false := by
    simp [hforward, hstrike, htte]
  have himplied : DecideOnTick.impliedVol realPricing fit.forward strike tte (volParams fit.fit) =
      some (fit.vol strike tte) := by
    rw [SurfaceFit.vol, sabr_agrees]
    rfl
  simp only [computeTheo, hguard, himplied, Bool.false_eq_true, if_false, Option.bind_some,
    SurfaceFit.theo]
  by_cases hvol : 0 < fit.vol strike tte
  · have hpos : 0 < fit.price strike tte right :=
      (intrinsic_nonneg _ _ _).trans_lt (fit.intrinsic_lt_price right hforward hstrike htte hvol)
    have hprice : (realPricing.black76Greeks fit.forward strike tte (fit.vol strike tte) 0
        (sideChar right)).price = fit.price strike tte right := traderPrice_eq _ _ _ _ _ _
    simp [hvol, hprice, hpos, F64.gt]
  · simp [hvol, not_lt.mp hvol]

/-- What the dashboard shows, of the fit that the cache holds. -/
theorem chainTheo_fit (cache : SurfaceCache ℝ) {product expiry : String} (fit : SurfaceFit ℝ)
    {strike : ℝ} (right : Right)
    (hlookup : cache.lookup (product, expiry, sideChar right) = some fit.cacheEntry)
    (hforward : 0 < fit.forward) (hstrike : 0 < strike) (htte : 0 < fit.tte) :
    chainTheo realFunctions cache product expiry (sideChar right) strike =
      fit.theo strike fit.tte right := by
  have hvol : sabrImpliedVol realFunctions fit.cacheEntry.forward strike fit.cacheEntry.tte
      fit.cacheEntry.alpha fit.cacheEntry.beta fit.cacheEntry.rho fit.cacheEntry.nu =
      fit.vol strike fit.tte := rfl
  have hprice : black76PriceInner realFunctions fit.cacheEntry.forward strike fit.cacheEntry.tte
      (fit.vol strike fit.tte) 0 (sideChar right) = fit.price strike fit.tte right := rfl
  simp only [chainTheo, hlookup, Option.some_or, Option.bind_some, hvol, real_zero, hprice,
    SurfaceFit.theo]
  by_cases hpos : 0 < fit.vol strike fit.tte
  · have htheo : 0 < fit.price strike fit.tte right :=
      (intrinsic_nonneg _ _ _).trans_lt (fit.intrinsic_lt_price right hforward hstrike htte hpos)
    simp [hpos, htheo, F64.gt]
  · simp [hpos, not_lt.mp hpos]

theorem foldl_range (ks : List ℝ) (lo hi : ℝ) :
    let range := ks.foldl (fun range k => (F64.min range.1 k, F64.max range.2 k)) (lo, hi)
    IsLeast {k | k ∈ lo :: ks} range.1 ∧ IsGreatest {k | k ∈ hi :: ks} range.2 := by
  induction ks generalizing lo hi with
  | nil => simp
  | cons k ks ih =>
      obtain ⟨⟨hmin, hlow⟩, ⟨hmax, hhigh⟩⟩ := ih (F64.min lo k) (F64.max hi k)
      rw [List.foldl_cons]
      refine ⟨⟨?_, fun x hx => ?_⟩, ⟨?_, fun x hx => ?_⟩⟩
      · rcases List.mem_cons.mp hmin with heq | hmem
        · rcases min_choice lo k with hlo | hk
          · exact List.mem_cons.mpr (.inl (heq.trans hlo))
          · exact List.mem_cons_of_mem _ (List.mem_cons.mpr (.inl (heq.trans hk)))
        · exact List.mem_cons_of_mem _ (List.mem_cons_of_mem _ hmem)
      · have hfirst := hlow List.mem_cons_self
        rcases List.mem_cons.mp hx with rfl | hx
        · exact hfirst.trans (min_le_left _ _)
        · rcases List.mem_cons.mp hx with rfl | hx
          · exact hfirst.trans (min_le_right _ _)
          · exact hlow (List.mem_cons_of_mem _ hx)
      · rcases List.mem_cons.mp hmax with heq | hmem
        · rcases max_choice hi k with hhi | hk
          · exact List.mem_cons.mpr (.inl (heq.trans hhi))
          · exact List.mem_cons_of_mem _ (List.mem_cons.mpr (.inl (heq.trans hk)))
        · exact List.mem_cons_of_mem _ (List.mem_cons_of_mem _ hmem)
      · have hfirst := hhigh List.mem_cons_self
        rcases List.mem_cons.mp hx with rfl | hx
        · exact (le_max_left _ _).trans hfirst
        · rcases List.mem_cons.mp hx with rfl | hx
          · exact (le_max_right _ _).trans hfirst
          · exact hhigh (List.mem_cons_of_mem _ hx)

/-- The range of a fit goes from the least to the greatest strike of its points, which are three
at least. -/
structure Spans (points : List (FitPoint ℝ)) (minK maxK : ℝ) : Prop where
  enough : 3 ≤ points.length
  least : IsLeast {k | k ∈ points.map (·.strike)} minK
  greatest : IsGreatest {k | k ∈ points.map (·.strike)} maxK

/-- What a fit comes with. -/
theorem fitGroup_spec {forward tte minK maxK : ℝ} {points : List (FitPoint ℝ)} {fit : SabrFit ℝ}
    (h : fitGroup realFunctions forward points = .fitted fit tte minK maxK) :
    0 < forward ∧ 0 < tte ∧ 0 < fit.alpha ∧ fit.rmse ≤ 1 / 20 ∧ Spans points minK maxK := by
  rcases points with _ | ⟨first, _ | ⟨second, _ | ⟨third, rest⟩⟩⟩
  · cases h
  · cases h
  · cases h
  · dsimp only [fitGroup] at h
    split at h
    · split at h
      · rename_i hfit
        injection h with hfit' htte hmin hmax
        subst hfit'
        obtain ⟨⟨ht, hf⟩, -, -, hrmse, ⟨halpha, -⟩, -⟩ := calibrateSabr_some _ _ _ _ _ hfit
        refine ⟨hf, htte ▸ ht, lt_of_lt_of_le (by norm_num) halpha, ?_, ?_⟩
        · rw [real_lit] at hrmse
          norm_num at hrmse ⊢
          exact hrmse
        · obtain ⟨hleast, hgreatest⟩ := foldl_range ((second :: third :: rest).map (·.strike))
            first.strike first.strike
          exact ⟨by simp, hmin ▸ hleast, hmax ▸ hgreatest⟩
      · cases h
    · cases h

/-- It is the fit of the points, which are those of its expiry in a turn of the schedule. -/
def PointsOf (fmt : TextFormats ℝ Date) (schedule : List (SurfaceStep ℝ)) (fit : SurfaceFit ℝ)
    (turn : Turn ℝ) (points : List (FitPoint ℝ)) : Prop :=
  .fit turn ∈ schedule ∧
    fitGroup realFunctions fit.forward points = .fitted fit.fit fit.tte fit.minK fit.maxK ∧
      ∃ groups,
        snapshotChain (fitEnv realFunctions turn.nowNs) fmt turn.market turn.product
            turn.pairOrder = some (fit.forward, fit.spotAtFit, groups) ∧
          points = expiryPoints groups fit.expiry

/-- A fit of the log, by its points. -/
theorem exists_points {fmt : TextFormats ℝ Date} {schedule : List (SurfaceStep ℝ)}
    {fit : SurfaceFit ℝ} (h : fit ∈ schedule.flatMap (SurfaceStep.fits realFunctions fmt)) :
    ∃ turn points, PointsOf fmt schedule fit turn points := by
  obtain ⟨a, ha, hfit⟩ := List.mem_flatMap.mp h
  cases a with
  | fit turn =>
      obtain ⟨groups, hsnapshot, hgroup⟩ := mem_fits hfit
      exact ⟨turn, _, ha, hgroup, groups, hsnapshot, rfl⟩
  | read => cases hfit
  | other ev clock accepts => cases hfit

/-- They are at different strikes, where the expiries are written apart. -/
theorem PointsOf.nodup {fmt : TextFormats ℝ Date} {schedule : List (SurfaceStep ℝ)}
    {fit : SurfaceFit ℝ} {turn : Turn ℝ} {points : List (FitPoint ℝ)}
    (h : PointsOf fmt schedule fit turn points)
    (hfmt : Set.InjOn fmt.formatYmd (expiries turn.market)) :
    (points.map (·.strike)).Nodup := by
  obtain ⟨-, -, groups, hsnapshot, rfl⟩ := h
  obtain ⟨spot, -, hsnapshot⟩ := Option.bind_eq_some_iff.mp hsnapshot
  split_ifs at hsnapshot
  dsimp only at hsnapshot
  split_ifs at hsnapshot
  obtain ⟨-, hgroups⟩ := Prod.mk.inj (Option.some.inj hsnapshot)
  obtain ⟨-, rfl⟩ := Prod.mk.inj hgroups
  refine nodup_strikes _ _ _ hfmt fun k hge hlt => ?_
  simp only [F64.ge, real_le, real_lt, decide_eq_true_eq] at hge hlt
  exact absurd hlt (not_lt.mpr hge)

/-- **Published surfaces price.**  Every surface has a forward, a time to expiry and a range that
goes from the least to the greatest strike of its points: three at least, and different ones where
the expiries are written apart.  Where its volatility is positive the trader's theo is above what
an exercise brings; it is not positive only at the money.  The dashboard shows the trader's theo,
at the time of the fit. -/
theorem published_surfaces_price (fmt : TextFormats ℝ Date) (placesOrders : Bool)
    (trader : SharedState ℝ) (schedule : List (SurfaceStep ℝ)) :
    let s := run (step realFunctions fmt realPricing placesOrders) (start trader) schedule
    (∀ fit ∈ s.log, 0 < fit.forward ∧ 0 < fit.tte ∧ fit.fit.rmse ≤ 1 / 20 ∧
      (∃ turn points, PointsOf fmt schedule fit turn points ∧ Spans points fit.minK fit.maxK ∧
        (Set.InjOn fmt.formatYmd (expiries turn.market) → (points.map (·.strike)).Nodup)) ∧
      ∀ strike tte right, 0 < strike → 0 < tte →
        (computeTheo realPricing fit.forward strike tte (sideChar right) (volParams fit.fit)).map
            (fun theo => (theo.1, theo.2.theo)) =
          (fit.theo strike tte right).map (fun theo => (fit.vol strike tte, theo)) ∧
        (∀ theo ∈ fit.theo strike tte right,
          intrinsic fit.forward strike (isCall (sideChar right)) < theo) ∧
        (fit.theo strike tte right = none → |fit.forward - strike| < 1 / 10 ^ 7 * fit.forward)) ∧
    ∀ product expiry right strike, 0 < strike →
      chainTheo realFunctions s.cache product expiry (sideChar right) strike =
        (lastOf product expiry s.log).bind fun fit =>
          (computeTheo realPricing fit.forward strike fit.tte (sideChar right)
            (volParams fit.fit)).map (·.2.theo) := by
  intro s
  have hlogged : Logged s := logged_run trader schedule
  have hlog : s.log = schedule.flatMap (SurfaceStep.fits realFunctions fmt) :=
    log_run (start trader) schedule
  refine ⟨fun fit hmem => ?_, fun product expiry right strike hstrike => ?_⟩
  · obtain ⟨turn, points, hpoints⟩ := exists_points (hlog ▸ hmem)
    obtain ⟨hforward, htte, halpha, hrmse, hspans⟩ := fitGroup_spec hpoints.2.1
    refine ⟨hforward, htte, hrmse, ⟨turn, points, hpoints, hspans, hpoints.nodup⟩,
      fun strike tte right hstrike htte => ?_⟩
    refine ⟨computeTheo_fit fit right hforward hstrike htte, fun theo htheo => ?_, fun hnone => ?_⟩
    · obtain ⟨hvol, hprice⟩ := Option.ite_none_right_eq_some.mp htheo
      rw [← Option.some.inj hprice]
      exact fit.intrinsic_lt_price right hforward hstrike htte hvol
    · by_contra hfar
      have hvol : 0 < fit.vol strike tte :=
        sabrImpliedVol_pos _ htte halpha hforward hstrike (not_lt.mp hfar)
      simp [SurfaceFit.theo, hvol] at hnone
  · have hcached (side : Right) := hlogged.cached product expiry side
    cases hlast : lastOf product expiry s.log with
    | none =>
        simp only [hlast, Option.map_none] at hcached
        have hcall := hcached .call
        have hput := hcached .put
        simp only [sideChar] at hcall hput
        cases right with
        | call => simp [chainTheo, sideChar, hcall, hput]
        | put => simp [chainTheo, sideChar, hcall, hput]
    | some fit =>
        obtain ⟨_, _, -, hgroup, -⟩ := exists_points (hlog ▸ (lastFit_mem hlast).1)
        obtain ⟨hforward, htte, -⟩ := fitGroup_spec hgroup
        have hlookup := hcached right
        rw [hlast] at hlookup
        have htheo := congrArg (Option.map Prod.snd)
          (computeTheo_fit fit right hforward hstrike htte)
        rw [chainTheo_fit s.cache fit right hlookup hforward hstrike htte, Option.bind_some]
        simpa [Option.map_map, Function.comp_def] using htheo.symm

end Prices

end Corsair.Ports.VolSurface
