import Corsair.Ports.EdgeLaw
import Corsair.Verified.Memo

/-!
# The theo cache of `decide_on_tick`

A tick takes the theo at the fit from a cache, whose key has the timestamp of the surface and
not its forward and parameters.  A `vol_surface` without a timestamp has the timestamp zero, a
side may be given a surface with the timestamp of the one before it, and a right without a
surface of its own looks up the one of the other side.  So a theo may be found that was computed
from another surface.

The cache is a memo table whose keys stand for a fit and a strike.

## Main results

* `cacheInv_observe` — what a step does to the cache.
* `theo_is_of_current_fit` — in runs in which timestamps tell fits apart, a tick prices with the
  surface that is looked up.
-/

namespace Corsair.Ports.TheoCache

open Corsair.Verified
open Corsair.Verified.Memo
open Corsair.Verified.Runs
open Corsair.Ports.TraderState
open Corsair.Ports.DecideOnTick
open Corsair.Ports.Trader
open Corsair.Ports.TraderHalt
open Corsair.Ports.FailSafeGates
open Corsair.Ports.SelfCross
open Corsair.Ports.EdgeLaw

variable {F : Type}

/-! ## Who touches the cache and the surfaces -/

/-- The theo cache and the surfaces are the same. -/
def SameFits (s s' : SharedState F) : Prop :=
  s'.theoCache = s.theoCache ∧ s'.volSurfaces = s.volSurfaces

theorem sameFits_of_orderFrame {s s' : SharedState F} (h : OrderFrame s s') : SameFits s s' := by
  obtain ⟨_, _, _, rfl⟩ := h
  exact ⟨rfl, rfl⟩

theorem sameFits_insertKills (reason : String) (sources : List String) (s : SharedState F) :
    SameFits s (sources.foldl (fun s source => s.insertKill source reason) s) := by
  induction sources generalizing s with
  | nil => exact ⟨rfl, rfl⟩
  | cons source rest ih => exact ih (s.insertKill source reason)

variable [F64 F]

/-- The events that use the cache or change a surface. -/
def touchesFits : Event F → Bool
  | .tick _ => true
  | .volSurface _ => true
  | _ => false

theorem sameFits_processEvent (pricing : Pricing F) (placesOrders : Bool) (s : SharedState F)
    (clock : Clock F) (accepts : Nat → Bool) {ev : Event F} (hquiet : touchesFits ev = false) :
    SameFits s (processEvent pricing placesOrders s clock accepts ev).2 := by
  cases ev with
  | undecodable => exact ⟨rfl, rfl⟩
  | unknown => exact ⟨rfl, rfl⟩
  | tick msg => cases hquiet
  | underlyingTick price => exact ⟨rfl, rfl⟩
  | volSurface msg => cases hquiet
  | riskState msg => exact ⟨rfl, rfl⟩
  | placeAck msg => exact sameFits_of_orderFrame (orderFrame_onPlaceAck ..)
  | orderStatus msg => exact sameFits_of_orderFrame (orderFrame_onOrderStatus ..)
  | kill msg =>
      simp only [processEvent, onKill]
      split <;> exact ⟨rfl, rfl⟩
  | resume msg =>
      simp only [processEvent, onResume]
      split <;> exact ⟨rfl, rfl⟩
  | weekendPause paused => exact ⟨rfl, rfl⟩
  | hello msg =>
      simp only [processEvent, onHello]
      split <;> exact sameFits_insertKills _ msg.activeKills _

/-! ## The surface that is looked up -/

/-- The entry of a `vol_surface`. -/
def surfaceEntry (s : SharedState F) (vs : VolSurfaceMsg F) : VolSurfaceEntry F :=
  { forward := vs.forward
    params := vs.params
    fitTsNs := vs.tsNs.getD 0
    calibratedMinK := vs.calibratedMinK
    calibratedMaxK := vs.calibratedMaxK
    spotAtFit := vs.spotAtFit.getD s.scalars.underlyingPrice }

omit [F64 F] in
/-- A surface that is stored is looked up, or one that was looked up before. -/
theorem lookup_insertSurface {s : SharedState F} {expiry expiry' : String} {side right : Char}
    {entry vp : VolSurfaceEntry F}
    (h : { s with
        volSurfaces := s.volSurfaces.insert (expiry, side) entry }.lookupVolSurface expiry' right =
      some vp) :
    s.lookupVolSurface expiry' right = some vp ∨ expiry' = expiry ∧ vp = entry := by
  have hsome (c : Char) (h : (s.volSurfaces.insert (expiry, side) entry).lookup (expiry', c) =
      some vp) : s.volSurfaces.lookup (expiry', c) = some vp ∨ expiry' = expiry ∧ vp = entry := by
    rcases Table.lookup_insert_eq_some h with ⟨hkey, hentry⟩ | hold
    · exact .inr ⟨(Prod.mk.inj hkey).1, hentry⟩
    · exact .inl hold
  have hnone (c : Char) (h : (s.volSurfaces.insert (expiry, side) entry).lookup (expiry', c) =
      none) : s.volSurfaces.lookup (expiry', c) = none := by
    rw [AList.lookup_eq_none, AList.mem_insert, not_or] at h
    exact AList.lookup_eq_none.mpr h.2
  simp only [SharedState.lookupVolSurface, Option.or_eq_some_iff, Option.or_eq_none_iff] at h ⊢
  rcases h with (hown | ⟨hown, hcall⟩) | ⟨⟨hown, hcall⟩, hput⟩
  · exact (hsome right hown).imp_left fun h => .inl (.inl h)
  · exact (hsome 'C' hcall).imp_left fun h => .inl (.inr ⟨hnone right hown, h⟩)
  · exact (hsome 'P' hput).imp_left fun h => .inr ⟨⟨hnone right hown, hnone 'C' hcall⟩, h⟩

omit [F64 F] in
theorem lookup_onVolSurface {s : SharedState F} {vs : VolSurfaceMsg F} {expiry : String}
    {right : Char} {vp : VolSurfaceEntry F}
    (h : (onVolSurface s vs).lookupVolSurface expiry right = some vp) :
    s.lookupVolSurface expiry right = some vp ∨ expiry = vs.expiry ∧ vp = surfaceEntry s vs := by
  unfold onVolSurface at h
  extract_lets entry sideUpper sideChar at h
  split at h
  · rcases lookup_insertSurface (s := { s with
        volSurfaces := s.volSurfaces.insert (vs.expiry, 'C') entry }) h with h | h
    · exact lookup_insertSurface h
    · exact .inr h
  · exact lookup_insertSurface h

/-! ## What a tick asks of the cache -/

/-- What a theo is computed from beside its key. -/
structure FitInput (F : Type) where
  forward : F
  params : VolParams F
  strike : F
  deriving DecidableEq

/-- The theo under a key, for a fit and a strike. -/
def theoOf (pricing : Pricing F) (timeToExpiry : String → Option F) (key : TheoCacheKey)
    (input : FitInput F) : Option (TheoGreeks F) :=
  ((timeToExpiry key.2.1).filter fun t => F64.gt t F64.zero).bind fun tte =>
    (computeTheo pricing input.forward input.strike tte key.2.2.1 input.params).map (·.2)

/-- The key under which a tick looks, and what it would compute there: with the surface that is
looked up for its expiry and right. -/
def asked (s : SharedState F) (msg : TickMsg F) : Option (TheoCacheKey × FitInput F) :=
  (firstUpper msg.right).bind fun right =>
    (s.lookupVolSurface msg.expiry right).map fun vp =>
      ((strikeKey msg.strike, msg.expiry, right, vp.fitTsNs), ⟨vp.forward, vp.params, msg.strike⟩)

omit [F64 F] in
theorem lookup_foldl_erase {keys : List TheoCacheKey}
    {cache : AList fun _ : TheoCacheKey => TheoGreeks F} {k : TheoCacheKey} {gx : TheoGreeks F}
    (h : (keys.foldl (fun m k => m.erase k) cache).lookup k = some gx) :
    cache.lookup k = some gx := by
  induction keys generalizing cache with
  | nil => exact h
  | cons key rest ih => exact (Table.lookup_erase_eq_some (ih h)).2

/-- What `theoAtFit` leaves in the cache: what was there, and what it computed. -/
theorem lookup_theoAtFit {pricing : Pricing F} {s : SharedState F} {vp : VolSurfaceEntry F}
    {key k : TheoCacheKey} {strike tte : F} {right : Char} {gx : TheoGreeks F}
    (h : (theoAtFit pricing s vp key strike tte right).2.theoCache.lookup k = some gx) :
    s.theoCache.lookup k = some gx ∨ k = key ∧ s.theoCache.lookup key = none ∧
      (computeTheo pricing vp.forward strike tte right vp.params).map (·.2) = some gx := by
  unfold theoAtFit at h
  split at h
  · exact .inl h
  · rename_i hnone
    split at h
    · exact .inl h
    · rename_i iv gx' hcompute
      rcases Table.lookup_insert_eq_some h with ⟨rfl, rfl⟩ | hkept
      · exact .inr ⟨rfl, hnone, by rw [hcompute]; rfl⟩
      · left
        split at hkept
        · exact lookup_foldl_erase hkept
        · exact hkept

/-- A tick leaves the cache as it was, or as `theoAtFit` does. -/
theorem theoCache_decideOnTick (pricing : Pricing F) (timeToExpiry : String → Option F)
    (s : SharedState F) (tick : TickMsg F) (right : Char) (nowMono nowWall : Nat) :
    (decideOnTick pricing timeToExpiry s tick right nowMono nowWall).2.theoCache = s.theoCache ∨
      ∃ vp tte n, s.lookupVolSurface tick.expiry right = some vp ∧
        (timeToExpiry tick.expiry).filter (fun t => F64.gt t F64.zero) = some tte ∧
        (decideOnTick pricing timeToExpiry s tick right nowMono nowWall).2.theoCache =
          (theoAtFit pricing (s.bump .riskStatePartial n) vp
            (strikeKey tick.strike, tick.expiry, right, vp.fitTsNs) tick.strike tte
            right).2.theoCache := by
  have hquote (s : SharedState F) (vp : VolSurfaceEntry F) (gates : RiskGates) (tte : F) :
      (quoteAt pricing s vp gates tick right tte nowMono).2.theoCache =
        (theoAtFit pricing s vp (strikeKey tick.strike, tick.expiry, right, vp.fitTsNs)
          tick.strike tte right).2.theoCache := by
    simp only [quoteAt]
    split
    · rfl
    · split
      · rfl
      · obtain ⟨_, _, hsides⟩ := sideFrame_decideSides
          (quoteContext _ vp gates _ tick right nowMono)
          (theoAtFit pricing s vp (strikeKey tick.strike, tick.expiry, right, vp.fitTsNs)
            tick.strike tte right).2
        rw [hsides]
  unfold decideOnTick
  split
  · exact .inl rfl
  split
  · exact .inl rfl
  split
  · exact .inl rfl
  split
  · exact .inl rfl
  rename_i vp hsurface
  simp only
  split
  · exact .inl rfl
  split
  · exact .inl rfl
  split
  · exact .inl rfl
  rename_i tte htte
  split
  · exact .inl rfl
  exact .inr ⟨vp, tte, _, hsurface, htte, hquote _ vp _ tte⟩

/-- **What a tick leaves in the cache.** What was there, and the theo that it asked for. -/
theorem lookup_onTick {pricing : Pricing F} {placesOrders : Bool} {s : SharedState F}
    {clock : Clock F} {accepts : Nat → Bool} {msg : TickMsg F} {k : TheoCacheKey}
    {gx : TheoGreeks F}
    (h : (onTick pricing placesOrders s clock accepts msg).2.theoCache.lookup k = some gx) :
    s.theoCache.lookup k = some gx ∨ ∃ input, asked s msg = some (k, input) ∧
      s.theoCache.lookup k = none ∧ theoOf pricing clock.timeToExpiry k input = some gx := by
  cases hright : firstUpper msg.right with
  | none =>
      simp only [onTick, hright] at h
      exact .inl h
  | some right =>
      have hcache : (onTick pricing placesOrders s clock accepts msg).2.theoCache =
          (decideOnTick pricing clock.timeToExpiry (mergeTick s msg right).2
            (mergeTick s msg right).1 right clock.monoNs clock.wallNs).2.theoCache := by
        simp only [onTick, hright]
        split
        · rfl
        · exact (sameFits_of_orderFrame ((orderFrame_bump ..).trans (orderFrame_track ..))).1
      rw [hcache] at h
      rcases theoCache_decideOnTick pricing clock.timeToExpiry (mergeTick s msg right).2
        (mergeTick s msg right).1 right clock.monoNs clock.wallNs with
        hsame | ⟨vp, tte, n, hsurface, htte, hfit⟩
      · rw [hsame] at h
        exact .inl h
      · rw [hfit] at h
        refine (lookup_theoAtFit h).imp_right ?_
        rintro ⟨rfl, hnone, hcompute⟩
        refine ⟨⟨vp.forward, vp.params, msg.strike⟩, ?_, hnone, ?_⟩
        · have hlookup : s.lookupVolSurface msg.expiry right = some vp := hsurface
          rw [asked, hright, Option.bind_some, hlookup]
          rfl
        · have hexpiry : (clock.timeToExpiry msg.expiry).filter (fun t => F64.gt t F64.zero) =
              some tte := htte
          rw [theoOf]
          show ((clock.timeToExpiry msg.expiry).filter _).bind _ = some gx
          rw [hexpiry, Option.bind_some]
          exact hcompute

/-! ## Runs, and what the cached theos were computed from -/

/-- The trader, and what its cached theos were computed from. -/
structure CacheRun (F : Type) where
  sys : TraderSys F
  inputs : TheoCacheKey → Option (FitInput F)

/-- The cache as a memo table. -/
def CacheRun.memo (o : CacheRun F) : MemoTable TheoCacheKey (FitInput F) (TheoGreeks F) :=
  { results := fun k => o.sys.shared.theoCache.lookup k, inputs := o.inputs }

/-- A step of the trader; a tick notes what it asks of the cache. -/
def observe (pricing : Pricing F) (placesOrders : Bool) (o : CacheRun F) (st : TraderStep F) :
    CacheRun F :=
  let sys := nextState pricing placesOrders o.sys st
  let query :=
    match st with
    | .event (.tick msg) _ _ => asked o.sys.shared msg
    | _ => none
  match query with
  | some (k, input) =>
      { sys := sys
        inputs := (note o.memo k input fun k => sys.shared.theoCache.lookup k).inputs }
  | none => { sys := sys, inputs := o.inputs }

/-- A trader that has just started; nothing is cached. -/
def cacheStart (burstWindowNs : Nat) : CacheRun F :=
  { sys := traderStart burstWindowNs, inputs := fun _ => none }

/-- A surface that takes over for a right comes with the forward and the parameters of the theos
that are cached there under its timestamp. -/
def KnownFit (o : CacheRun F) (vs : VolSurfaceMsg F) : Prop :=
  ∀ k ∈ o.sys.shared.theoCache.keys, k.2.1 = vs.expiry → k.2.2.2 = vs.tsNs.getD 0 →
    (onVolSurface o.sys.shared vs).lookupVolSurface vs.expiry k.2.2.1 =
      some (surfaceEntry o.sys.shared vs) →
    ∀ input ∈ o.inputs k, input.forward = vs.forward ∧ input.params = vs.params

/-- A tick comes with the strike of the theo that is cached under its key. -/
def KnownStrike (o : CacheRun F) (msg : TickMsg F) : Prop :=
  ∀ query ∈ asked o.sys.shared msg, query.1 ∈ o.sys.shared.theoCache.keys →
    ∀ input ∈ o.inputs query.1, input.strike = msg.strike

instance (o : CacheRun ℚ) (vs : VolSurfaceMsg ℚ) : Decidable (KnownFit o vs) := by
  unfold KnownFit
  infer_instance

instance (o : CacheRun ℚ) (msg : TickMsg ℚ) : Decidable (KnownStrike o msg) := by
  unfold KnownStrike
  infer_instance

/-- Timestamps tell fits apart, and strike keys strikes; the time to expiry stands still. -/
def KeepsFitsApart (timeToExpiry : String → Option F) (o : CacheRun F) : TraderStep F → Prop
  | .event (.volSurface vs) _ _ => KnownFit o vs
  | .event (.tick msg) clock _ => clock.timeToExpiry = timeToExpiry ∧ KnownStrike o msg
  | _ => True

/-- The input has the fit that is looked up under the key, where its timestamp is that of the
key. -/
def CurrentFit (s : SharedState F) (k : TheoCacheKey) (input : FitInput F) : Prop :=
  ∀ vp, s.lookupVolSurface k.2.1 k.2.2.1 = some vp → vp.fitTsNs = k.2.2.2 →
    input.forward = vp.forward ∧ input.params = vp.params

/-- The cached theos are those of their inputs, and these have the current fits. -/
structure CacheInv (pricing : Pricing F) (timeToExpiry : String → Option F) (o : CacheRun F) :
    Prop where
  sound : Sound (theoOf pricing timeToExpiry) o.memo
  current : Within (CurrentFit o.sys.shared) o.memo

theorem cacheInv_start (pricing : Pricing F) (timeToExpiry : String → Option F)
    (burstWindowNs : Nat) : CacheInv pricing timeToExpiry (cacheStart burstWindowNs) where
  sound k v h := by
    cases h
  current k i h := by
    cases h.1

omit [F64 F] in
theorem currentFit_of_surfaces {s s' : SharedState F} (h : s'.volSurfaces = s.volSurfaces) :
    CurrentFit s' = CurrentFit s := by
  unfold CurrentFit SharedState.lookupVolSurface
  rw [h]

theorem CacheInv.of_sameFits {pricing : Pricing F} {timeToExpiry : String → Option F}
    {o : CacheRun F} (h : CacheInv pricing timeToExpiry o) {sys : TraderSys F}
    (hsame : SameFits o.sys.shared sys.shared) :
    CacheInv pricing timeToExpiry { sys := sys, inputs := o.inputs } := by
  have hmemo : (CacheRun.memo { sys := sys, inputs := o.inputs }) = o.memo := by
    rw [CacheRun.memo, CacheRun.memo, hsame.1]
  constructor
  · rw [hmemo]
    exact h.sound
  · rw [hmemo]
    show Within (CurrentFit sys.shared) o.memo
    rw [currentFit_of_surfaces hsame.2]
    exact h.current

theorem volSurfaces_onTick (pricing : Pricing F) (placesOrders : Bool) (s : SharedState F)
    (clock : Clock F) (accepts : Nat → Bool) (msg : TickMsg F) :
    (onTick pricing placesOrders s clock accepts msg).2.volSurfaces = s.volSurfaces := by
  obtain ⟨_, _, _, _, _, _, hframe⟩ := tradeFrame_onTick pricing placesOrders s clock accepts msg
  rw [hframe]

/-- A tick caches a theo of the fit that it looks up. -/
theorem CacheInv.tick {pricing : Pricing F} {placesOrders : Bool}
    {timeToExpiry : String → Option F} {o : CacheRun F} {msg : TickMsg F} {clock : Clock F}
    {accepts : Nat → Bool} (h : CacheInv pricing timeToExpiry o)
    (hclock : clock.timeToExpiry = timeToExpiry) :
    CacheInv pricing timeToExpiry
      (observe pricing placesOrders o (.event (.tick msg) clock accepts)) := by
  subst hclock
  have hsurfaces := volSurfaces_onTick pricing placesOrders o.sys.shared clock accepts msg
  cases hquery : asked o.sys.shared msg with
  | none =>
      have hkept (k : TheoCacheKey) (gx : TheoGreeks F)
          (hgx : (onTick pricing placesOrders o.sys.shared clock accepts msg).2.theoCache.lookup
            k = some gx) : o.sys.shared.theoCache.lookup k = some gx := by
        refine (lookup_onTick hgx).resolve_right ?_
        rintro ⟨input, hasked, -⟩
        rw [hquery] at hasked
        cases hasked
      simp only [observe, hquery]
      constructor
      · intro k gx hgx
        exact h.sound k gx (hkept k gx hgx)
      · rintro k input ⟨hsome, hinput⟩
        obtain ⟨gx, hgx⟩ := Option.isSome_iff_exists.mp hsome
        have hold := h.current k input (.of_results (hkept k gx hgx) hinput)
        rwa [← currentFit_of_surfaces hsurfaces] at hold
  | some query =>
      obtain ⟨k, input⟩ := query
      have hanswers : Answers (theoOf pricing clock.timeToExpiry) o.memo k input fun k =>
          (onTick pricing placesOrders o.sys.shared clock accepts msg).2.theoCache.lookup k := by
        intro k' gx hgx
        refine (lookup_onTick hgx).imp_right ?_
        rintro ⟨input', hasked, hnone, htheo⟩
        obtain ⟨rfl, rfl⟩ := Prod.mk.inj (Option.some.inj (hquery.symm.trans hasked))
        exact ⟨rfl, hnone, htheo⟩
      have hfit : CurrentFit o.sys.shared k input := by
        obtain ⟨right, -, hasked⟩ := Option.bind_eq_some_iff.mp hquery
        obtain ⟨vp, hsurface, hasked⟩ := Option.map_eq_some_iff.mp hasked
        obtain ⟨rfl, rfl⟩ := Prod.mk.inj hasked
        intro vp' hvp' _
        obtain rfl := Option.some.inj (hsurface.symm.trans hvp')
        exact ⟨rfl, rfl⟩
      simp only [observe, hquery]
      constructor
      · exact sound_note h.sound hanswers
      · have hwithin := within_note h.current hanswers hfit
        rwa [← currentFit_of_surfaces hsurfaces] at hwithin

/-- A surface comes in with the fit of the theos that it takes over. -/
theorem CacheInv.volSurface {pricing : Pricing F} {timeToExpiry : String → Option F}
    {o : CacheRun F} {vs : VolSurfaceMsg F} {clock : Clock F} {accepts : Nat → Bool}
    (h : CacheInv pricing timeToExpiry o) (placesOrders : Bool)
    (hkeeps : KeepsFitsApart timeToExpiry o (.event (.volSurface vs) clock accepts)) :
    CacheInv pricing timeToExpiry
      (observe pricing placesOrders o (.event (.volSurface vs) clock accepts)) := by
  have hcache : (onVolSurface o.sys.shared vs).theoCache = o.sys.shared.theoCache := by
    unfold onVolSurface
    simp only
    split <;> rfl
  have hmemo : (observe pricing placesOrders o (.event (.volSurface vs) clock accepts)).memo =
      o.memo := by
    show CacheRun.memo _ = _
    simp only [CacheRun.memo, observe, nextState, traderStep, processEvent, hcache]
  constructor
  · rw [hmemo]
    exact h.sound
  · rw [hmemo]
    refine within_mono h.current fun k input hholds hcurrent vp hvp hstamp => ?_
    rcases lookup_onVolSurface hvp with hold | ⟨hexpiry, rfl⟩
    · exact hcurrent vp hold hstamp
    · rw [hexpiry] at hvp
      exact hkeeps k (AList.lookup_isSome.mp hholds.1) hexpiry hstamp.symm hvp input hholds.2

/-- **A step that keeps fits apart keeps the invariant.** -/
theorem cacheInv_observe {pricing : Pricing F} {placesOrders : Bool}
    {timeToExpiry : String → Option F} {o : CacheRun F} {st : TraderStep F}
    (hkeeps : KeepsFitsApart timeToExpiry o st) (h : CacheInv pricing timeToExpiry o) :
    CacheInv pricing timeToExpiry (observe pricing placesOrders o st) := by
  cases st with
  | event ev clock accepts =>
      by_cases hquiet : touchesFits ev = false
      · have hsame := sameFits_processEvent pricing placesOrders o.sys.shared clock accepts hquiet
        cases ev with
        | tick msg => cases hquiet
        | _ => exact h.of_sameFits hsame
      · cases ev with
        | tick msg => exact h.tick hkeeps.1
        | volSurface vs => exact h.volSurface placesOrders hkeeps
        | _ => exact absurd rfl hquiet
  | collect clock => exact h.of_sameFits (sameFits_of_orderFrame (orderFrame_collect ..))
  | act accepted => exact h.of_sameFits (sameFits_of_orderFrame (orderFrame_act ..))

theorem observe_sys (pricing : Pricing F) (placesOrders : Bool) (o : CacheRun F)
    (st : TraderStep F) :
    (observe pricing placesOrders o st).sys = nextState pricing placesOrders o.sys st := by
  unfold observe
  extract_lets sys query
  cases hquery : query <;> rfl

theorem run_observe_sys (pricing : Pricing F) (placesOrders : Bool) (o : CacheRun F)
    (history : List (TraderStep F)) :
    (run (observe pricing placesOrders) o history).sys =
      run (nextState pricing placesOrders) o.sys history := by
  induction history generalizing o with
  | nil => rfl
  | cons st rest ih => rw [run_cons, run_cons, ih, observe_sys]

/-! ## What a tick prices with -/

/-- The theo of the surface that a tick looks up. -/
def currentTheo (pricing : Pricing F) (timeToExpiry : String → Option F) (s : SharedState F)
    (msg : TickMsg F) : Option (TheoGreeks F) :=
  (firstUpper msg.right).bind fun right =>
    (s.lookupVolSurface msg.expiry right).bind fun vp =>
      ((timeToExpiry msg.expiry).filter fun t => F64.gt t F64.zero).bind fun tte =>
        (computeTheo pricing vp.forward msg.strike tte right vp.params).map (·.2)

/-- The greeks of a context are found under the tick's key, or computed. -/
theorem greeks_of_tickContext {pricing : Pricing F} {s : SharedState F} {clock : Clock F}
    {msg : TickMsg F} {c : QuoteContext F} (h : tickContext pricing s clock msg = some c) :
    currentTheo pricing clock.timeToExpiry s msg = some c.greeks ∨
      ∃ k input, asked s msg = some (k, input) ∧ s.theoCache.lookup k = some c.greeks ∧
        currentTheo pricing clock.timeToExpiry s msg =
          theoOf pricing clock.timeToExpiry k input := by
  obtain ⟨right, hright, h⟩ := Option.bind_eq_some_iff.mp h
  obtain ⟨vp, hsurface, h⟩ := Option.bind_eq_some_iff.mp h
  obtain ⟨tte, htte, h⟩ := Option.bind_eq_some_iff.mp h
  obtain ⟨gx, hfit, rfl⟩ := Option.map_eq_some_iff.mp h
  have hlookup : s.lookupVolSurface msg.expiry right = some vp := hsurface
  have hexpiry : (clock.timeToExpiry msg.expiry).filter (fun t => F64.gt t F64.zero) = some tte :=
    htte
  unfold theoAtFit at hfit
  split at hfit
  · rename_i gx' hcached
    obtain rfl := Option.some.inj hfit
    refine .inr ⟨(strikeKey msg.strike, msg.expiry, right, vp.fitTsNs),
      ⟨vp.forward, vp.params, msg.strike⟩, ?_, hcached, ?_⟩
    · rw [asked, hright, Option.bind_some, hlookup]
      rfl
    · rw [currentTheo, hright, Option.bind_some, hlookup]
      rfl
  · left
    rw [currentTheo, hright, Option.bind_some, hlookup, Option.bind_some, hexpiry,
      Option.bind_some]
    split at hfit
    · cases hfit
    · rename_i iv gx' hcompute
      obtain rfl := Option.some.inj hfit
      exact congrArg (Option.map (·.2)) hcompute

/-- **The theo of the current fit.** In runs whose steps all keep fits apart, a tick prices with
the theo of the surface that is looked up for its expiry and right. -/
theorem theo_is_of_current_fit (pricing : Pricing F) (placesOrders : Bool) (burstWindowNs : Nat)
    (timeToExpiry : String → Option F) (history : List (TraderStep F))
    (hmeets : Meets (observe pricing placesOrders) (KeepsFitsApart timeToExpiry)
      (cacheStart burstWindowNs) history)
    (front : List (TraderStep F)) (msg : TickMsg F) (clock : Clock F) (accepts : Nat → Bool)
    (back : List (TraderStep F))
    (hsplit : history = front ++ .event (.tick msg) clock accepts :: back) :
    let s := (run (nextState pricing placesOrders) (traderStart burstWindowNs) front).shared
    ∀ c ∈ tickContext pricing s clock msg,
      currentTheo pricing timeToExpiry s msg = some c.greeks := by
  subst hsplit
  intro s c hcontext
  have hinv : CacheInv pricing timeToExpiry
      (run (observe pricing placesOrders) (cacheStart burstWindowNs) front) :=
    run_invariant_of_meets (CacheInv pricing timeToExpiry) (fun _ _ => cacheInv_observe)
      (cacheInv_start pricing timeToExpiry burstWindowNs) front hmeets.front
  have hs : (run (observe pricing placesOrders) (cacheStart burstWindowNs) front).sys.shared =
      s := by
    rw [run_observe_sys]
    rfl
  obtain ⟨rfl, hstrike⟩ := hmeets.at_step
  rw [KnownStrike, hs] at hstrike
  rcases greeks_of_tickContext hcontext with hcurrent | ⟨k, input, hasked, hcached, htheo⟩
  · exact hcurrent
  rw [htheo]
  have hresult : (run (observe pricing placesOrders) (cacheStart burstWindowNs) front).memo.results
      k = some c.greeks := by
    show (run (observe pricing placesOrders) (cacheStart burstWindowNs)
      front).sys.shared.theoCache.lookup k = _
    rw [hs]
    exact hcached
  refine result_of_within hinv.sound hinv.current (fun input' hholds hcurrent => ?_) hresult
  rw [hs] at hcurrent
  have hstrike' : input'.strike = msg.strike :=
    hstrike (k, input) hasked (AList.lookup_isSome.mp (Option.isSome_of_eq_some hcached)) input'
      hholds.2
  obtain ⟨right, -, hasked⟩ := Option.bind_eq_some_iff.mp hasked
  obtain ⟨vp, hsurface, hasked⟩ := Option.map_eq_some_iff.mp hasked
  obtain ⟨rfl, rfl⟩ := Prod.mk.inj hasked
  obtain ⟨hforward, hparams⟩ := hcurrent vp hsurface rfl
  rw [← hforward, ← hparams, ← hstrike']

/-! Two fits of the 6.00 call, at a vol of 0.3 and of 0.4. -/

/-- The formulas at the money for total variances of 0.0225 and 0.04, to four digits. -/
def twoVols : Pricing ℚ :=
  { sviImpliedVol := fun _ _ _ a _ _ _ _ => if a = 4 / 100 then 4 / 10 else 3 / 10
    sabrImpliedVol := fun _ _ _ _ _ _ _ => 3 / 10
    black76Greeks := fun _ _ _ iv _ _ =>
      if iv = 4 / 10 then
        { price := 4780 / 10000, delta := 5398 / 10000, theta := -26 / 10000, vega := 119 / 10000 }
      else
        { price := 3587 / 10000, delta := 5299 / 10000, theta := -20 / 10000,
          vega := 119 / 10000 } }

/-- A fit of the surface with the variance `a`. -/
def fitOf (a : ℚ) (tsNs : Option Nat) : VolSurfaceMsg ℚ :=
  { expiry := "20260526"
    side := "BOTH"
    forward := 6
    params :=
      { model := "svi"
        a := some a
        b := some 0
        rho := some 0
        m := some 0
        sigma := some (1 / 10)
        alpha := none
        beta := none
        nu := none }
    tsNs := tsNs
    calibratedMinK := none
    calibratedMaxK := none
    spotAtFit := some 6 }

def fitted (ns : Nat) (a : ℚ) (tsNs : Option Nat) : TraderStep ℚ :=
  .event (.volSurface (fitOf a tsNs)) (quarterYear ns) fun _ => true

/-- A tick between two fits. -/
def refitted (tsNs tsNs' : Option Nat) : List (TraderStep ℚ) :=
  [futureAt 1 6, calmRisk 1000000000, fitted 1000000000 (225 / 10000) tsNs,
    .event (.tick wideBook) (quarterYear 1000000000) fun _ => true,
    fitted 2000000000 (4 / 100) tsNs']

/-- The time to expiry of a step. -/
def ExpiresIn (timeToExpiry : String → Option ℚ) : TraderStep ℚ → Prop
  | .event _ clock _ => clock.timeToExpiry = timeToExpiry
  | .collect clock => clock.timeToExpiry = timeToExpiry
  | .act _ => True

/-- Neither fit has a timestamp, and the second tick is priced with the first. -/
theorem theo_of_earlier_fit :
    ¬ ∀ (timeToExpiry : String → Option ℚ) (history : List (TraderStep ℚ)) (msg : TickMsg ℚ)
        (clock : Clock ℚ), (∀ st ∈ history, ExpiresIn timeToExpiry st) →
      clock.timeToExpiry = timeToExpiry →
      let s := (run (nextState twoVols true) (traderStart 0) history).shared
      ∀ c ∈ tickContext twoVols s clock msg,
        currentTheo twoVols timeToExpiry s msg = some c.greeks := by
  intro hall
  have hfixed : ∀ st ∈ refitted none none, ExpiresIn (quarterYear 0).timeToExpiry st := by
    simp [refitted, futureAt, calmRisk, fitted, ExpiresIn, quarterYear]
  have hsame := hall (quarterYear 0).timeToExpiry (refitted none none) wideBook
    (quarterYear 2000000000) hfixed rfl
  exact absurd hsame (by decide +kernel)

/-- With timestamps of their own it is priced with the second. -/
theorem theo_is_of_current_fit_stamped :
    let s := (run (nextState twoVols true) (traderStart 0) (refitted (some 1) (some 2))).shared
    (tickContext twoVols s (quarterYear 2000000000) wideBook).isSome = true ∧
      ∀ c ∈ tickContext twoVols s (quarterYear 2000000000) wideBook,
        currentTheo twoVols (quarterYear 2000000000).timeToExpiry s wideBook = some c.greeks := by
  let second : TraderStep ℚ :=
    .event (.tick wideBook) (quarterYear 2000000000) fun _ => true
  have hmeets : Meets (observe twoVols true) (KeepsFitsApart (quarterYear 2000000000).timeToExpiry)
      (cacheStart 0) (refitted (some 1) (some 2) ++ [second]) := by
    simp only [refitted, List.cons_append, List.nil_append]
    exact ⟨trivial, trivial, (by decide +kernel : KnownFit _ (fitOf _ _)),
      ⟨rfl, by decide +kernel⟩, (by decide +kernel : KnownFit _ (fitOf _ _)),
      ⟨rfl, by decide +kernel⟩, trivial⟩
  exact ⟨by decide +kernel, theo_is_of_current_fit twoVols true 0
    (quarterYear 2000000000).timeToExpiry _ hmeets (refitted (some 1) (some 2)) wideBook
    (quarterYear 2000000000) (fun _ => true) [] rfl⟩

end Corsair.Ports.TheoCache
