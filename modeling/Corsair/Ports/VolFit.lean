import Corsair.Verified.LastWrite
import Corsair.Ports.NativeDecoder
import Corsair.Ports.QuoteBook
import Corsair.Ports.RestingSweep
import Corsair.Ports.RiskState

/-!
# `corsair_broker::vol_surface`: what a surface is fitted to

`snapshot_chain` estimates one forward for a product: the mean over the strikes near the
spot at which some expiry has a call and a put with a mid, or the spot where there are
fewer than two or the mean is far off.  The forward decides which side of each strike is
out of the money, and the quotes of that side are the points of their expiry.

The pairs are summed in the order in which a hash map yields them.

## Main results

* `lookupSide_sides` — where the mid of a pair comes from.
* `samples_perm` — the samples depend on the near pairs only.
* `fit_inputs_of_expiry` — where the near pairs of the other expiries are the same, so are
  the forward and the points of an expiry.
* `forward_moves_with_other_expiry` — and where they are not, the forward moves.
-/

namespace Corsair.Ports.VolFit

open Corsair.Verified
open Corsair.Verified.LastWrite
open Corsair.Ports.Portfolio (Right Date)
open Corsair.Ports.PositionBook (PositionKey strikeKey makeKey)
open Corsair.Ports.Fills (OptionTick)
open Corsair.Ports.InstrumentRouting.MarketDataState (Registration)
open Corsair.Ports.NativeDecoder (TextFormats)
open Corsair.Ports.QuoteBook
open Corsair.Ports.RiskState (yielded exists_yielded yielded_perm exists_perm_filterMap)

variable {F : Type} [F64 F]

/-! ## The forward -/

/-- `OptionTick::mid`. -/
def mid (q : LegQuote F) : Option F :=
  if F64.gt q.bid F64.zero && F64.gt q.ask F64.zero && F64.lt q.bid q.ask then
    some ((q.bid + q.ask) / F64.lit 2 0)
  else none

/-- The mid of a leg, where the parity estimate takes it. -/
def parityMid (q : LegQuote F) : Option F := (mid q).filter fun m => ¬ F64.le m F64.zero

/-- An expiry and a strike key. -/
abbrev PairKey := Date × Int

/-- `sides`: the mids of the call and of the put. -/
abbrev Sides (F : Type) := AList (fun _ : PairKey => Option F × Option F)

/-- The leg's entry in `sides`. -/
def addSide (sides : Sides F) (leg : OptionTick F × LegQuote F) : Sides F :=
  match parityMid leg.2 with
  | none => sides
  | some m =>
      let key := (leg.1.expiry, strikeKey leg.1.strike)
      let pair := (sides.lookup key).getD (none, none)
      sides.insert key <|
        match leg.1.right with
        | .call => (some m, pair.2)
        | .put => (pair.1, some m)

/-- The mids of a product. -/
def sides (md : MarketData F) (product : String) : Sides F :=
  (md.optionsForProduct product).foldl addSide ∅

/-- The forward that a pair implies, if it is near the spot and has both sides. -/
def sample (spot : F) (e : PairKey × (Option F × Option F)) : Option F :=
  let k : F := F64.ofInt e.1.2 / F64.lit 10000 0
  if F64.gt (F64.abs (k - spot)) (F64.lit 25 2) then none
  else
    match e.2 with
    | (some c, some p) => some (k + (c - p))
    | _ => none

/-- `samples`, in the order in which the hash map yields the pairs. -/
def samples (md : MarketData F) (product : String) (spot : F) (order : List Nat) : List F :=
  (yielded order ((sides md product).entries.map fun e => (e.1, e.2))).filterMap (sample spot)

/-- `PARITY_VS_SPOT_LIMIT_USD`. -/
def parityVsSpotLimitUsd : F := F64.lit 20 2

/-- The forward of a list of samples. -/
def meanOrSpot (spot : F) (samples : List F) : F :=
  if 2 ≤ samples.length then
    let parityF := samples.foldl (· + ·) F64.zero / F64.ofInt samples.length
    if F64.gt (F64.abs (parityF - spot)) parityVsSpotLimitUsd then spot else parityF
  else spot

/-- `forward`. -/
def chainForward (md : MarketData F) (product : String) (spot : F) (order : List Nat) : F :=
  meanOrSpot spot (samples md product spot order)

/-! ## The points -/

/-- A point of a fit: the strike, the volatility and the time, and the quote that they
come from. -/
structure FitPoint (F : Type) where
  strike : F
  right : Right
  price : F
  iv : F
  tte : F
  deriving DecidableEq, Repr

/-- Days from 1970-01-01. -/
def daysFromCivil (d : Date) : Int :=
  let y := if d.month ≤ 2 then d.year - 1 else d.year
  let era := y / 400
  let yoe := y - era * 400
  let m : Int := if 2 < d.month then d.month - 3 else d.month + 9
  let doy := (153 * m + 2) / 5 + d.day - 1
  let doe := yoe * 365 + yoe / 4 - yoe / 100 + doy
  era * 146097 + doe - 719468

/-- Whole seconds until an expiry at 20:00 UTC. -/
def secsToExpiry (expiry : Date) (nowNs : Int) : Int :=
  ((daysFromCivil expiry * 86400 + 72000) * 1000000000 - nowNs).tdiv 1000000000

/-- What a fit takes from outside: `implied_vol`, at a rate of zero, of a price, a forward,
a strike, a time and a right; and the clock. -/
structure FitEnv (F : Type) where
  impliedVol : F → F → F → F → Right → Option F
  nowNs : Int

/-- The leg is on the out-of-the-money side of its strike. -/
def takeThis (forward : F) (opt : OptionTick F) : Bool :=
  match opt.right with
  | .call => F64.ge opt.strike forward
  | .put => F64.lt opt.strike forward

/-- The point of a leg. -/
def point (env : FitEnv F) (forward : F) (leg : OptionTick F × LegQuote F) : Option (FitPoint F) :=
  let (opt, q) := leg
  if ¬ takeThis forward opt then none
  else if F64.le q.bid F64.zero || F64.le q.ask F64.zero || F64.ge q.bid q.ask then none
  else if q.bidSize = 0 ∨ q.askSize = 0 then none
  else
    let price := (q.bid + q.ask) / F64.lit 2 0
    if F64.le price F64.zero then none
    else
      let secs : F := F64.ofInt (secsToExpiry opt.expiry env.nowNs)
      if F64.le secs F64.zero then none
      else
        let tte := secs / (F64.lit 36525 2 * F64.lit 24 0 * F64.lit 3600 0)
        match env.impliedVol price forward opt.strike tte opt.right with
        | some v =>
            if F64.gt v (F64.lit 1 3) && F64.lt v (F64.lit 5 0) then
              some { strike := opt.strike, right := opt.right, price, iv := v, tte }
            else none
        | none => none

/-- The points by expiry. -/
abbrev Groups (F : Type) := AList (fun _ : String => List (FitPoint F))

def pushPoint (groups : Groups F) (e : String × FitPoint F) : Groups F :=
  groups.insert e.1 ((groups.lookup e.1).getD [] ++ [e.2])

/-- `by_expiry`. -/
def byExpiry (env : FitEnv F) (fmt : TextFormats F Date) (md : MarketData F) (product : String)
    (forward : F) : Groups F :=
  ((md.optionsForProduct product).filterMap fun leg =>
    (point env forward leg).map (fmt.formatYmd leg.1.expiry, ·)).foldl pushPoint ∅

/-- `snapshot_chain`: the forward, the spot and the points. -/
def snapshotChain (env : FitEnv F) (fmt : TextFormats F Date) (md : MarketData F)
    (product : String) (order : List Nat) : Option (F × F × Groups F) := do
  let spot ← md.underlyingPrice product
  if F64.le spot F64.zero then none
  else
    let forward := chainForward md product spot order
    let groups := byExpiry env fmt md product forward
    if groups.entries = [] then none else some (forward, spot, groups)

/-- The points that a surface for the expiry is fitted to. -/
def expiryPoints (groups : Groups F) (expiry : String) : List (FitPoint F) :=
  (groups.lookup expiry).getD []

/-! ## The legs of a product -/

/-- The leg under a key. -/
def legAt (md : MarketData F) (k : PositionKey) : Option (OptionTick F × LegQuote F) :=
  (md.legs.options.lookup k).map (·, md.quoteOf k)

theorem mem_optionsForProduct {md : MarketData F} {product : String}
    {leg : OptionTick F × LegQuote F} :
    leg ∈ md.optionsForProduct product ↔ ∃ k, k.product = product ∧ legAt md k = some leg := by
  simp only [MarketData.optionsForProduct, List.mem_map, List.mem_filter, decide_eq_true_iff,
    legAt, Option.map_eq_some_iff]
  constructor
  · rintro ⟨e, ⟨he, hproduct⟩, rfl⟩
    exact ⟨e.1, hproduct, e.2, AList.mem_lookup_iff.mpr he, rfl⟩
  · rintro ⟨k, hproduct, t, ht, rfl⟩
    exact ⟨⟨k, t⟩, ⟨AList.mem_lookup_iff.mp ht, hproduct⟩, rfl⟩

/-- A leg stands under its own key. -/
theorem key_of_legAt {md : MarketData F} {k : PositionKey} {leg : OptionTick F × LegQuote F}
    (h : legAt md k = some leg) :
    makeKey k.product leg.1.strike leg.1.expiry leg.1.right = k := by
  obtain ⟨t, ht, rfl⟩ := Option.map_eq_some_iff.mp h
  exact md.legs.keyed k t ht

/-- What a fit reads of a leg. -/
def fitView (leg : OptionTick F × LegQuote F) : F × Date × Right × F × F × Nat × Nat :=
  (leg.1.strike, leg.1.expiry, leg.1.right, leg.2.bid, leg.2.ask, leg.2.bidSize, leg.2.askSize)

theorem parityMid_congr {leg leg' : OptionTick F × LegQuote F} (h : fitView leg = fitView leg') :
    parityMid leg.2 = parityMid leg'.2 := by
  simp only [fitView, Prod.mk.injEq] at h
  obtain ⟨-, -, -, hbid, hask, -, -⟩ := h
  simp only [parityMid, mid, hbid, hask]

theorem point_congr (env : FitEnv F) (forward : F) {leg leg' : OptionTick F × LegQuote F}
    (h : fitView leg = fitView leg') : point env forward leg = point env forward leg' := by
  simp only [fitView, Prod.mk.injEq] at h
  obtain ⟨hstrike, hexpiry, hright, hbid, hask, hbidSize, haskSize⟩ := h
  simp only [point, takeThis, hstrike, hexpiry, hright, hbid, hask, hbidSize, haskSize]

/-! ## The samples -/

/-- The mid of one side of a pair. -/
def lookupSide (right : Right) (sides : Sides F) (key : PairKey) : Option F :=
  (sides.lookup key).bind fun pair =>
    match right with
    | .call => pair.1
    | .put => pair.2

/-- What a leg writes into a side of a pair. -/
def writesSide (right : Right) (key : PairKey) (leg : OptionTick F × LegQuote F) :
    Option (Option F) :=
  if (leg.1.expiry, strikeKey leg.1.strike) = key ∧ leg.1.right = right then
    (parityMid leg.2).map some
  else none

theorem lookupSide_addSide (right : Right) (sides : Sides F) (key : PairKey)
    (leg : OptionTick F × LegQuote F) :
    lookupSide right (addSide sides leg) key =
      (writesSide right key leg).getD (lookupSide right sides key) := by
  unfold addSide writesSide
  cases hmid : parityMid leg.2 with
  | none => simp
  | some m =>
      by_cases hkey : (leg.1.expiry, strikeKey leg.1.strike) = key
      · subst hkey
        unfold lookupSide
        cases hpair : sides.lookup (leg.1.expiry, strikeKey leg.1.strike) <;>
          cases hlegRight : leg.1.right <;> cases right <;> simp [hpair]
      · simp [lookupSide, hkey, AList.lookup_insert_ne (Ne.symm hkey)]

theorem lookupSide_foldl (right : Right) (key : PairKey) (start : Sides F)
    (legs : List (OptionTick F × LegQuote F)) :
    lookupSide right (legs.foldl addSide start) key =
      lastWrite (writesSide right key) (lookupSide right start key) legs := by
  induction legs generalizing start with
  | nil => rfl
  | cons leg rest ih => rw [List.foldl_cons, ih, lookupSide_addSide, lastWrite_cons]

/-- **A side of a pair** is the mid of the leg there. -/
theorem lookupSide_sides (md : MarketData F) (product : String) (right : Right) (key : PairKey) :
    lookupSide right (sides md product) key =
      (legAt md ⟨product, key.2, key.1, right⟩).bind fun leg => parityMid leg.2 := by
  have hfold : lookupSide right (sides md product) key =
      lastWrite (writesSide right key) none (md.optionsForProduct product) :=
    lookupSide_foldl right key ∅ _
  rw [hfold]
  rcases lastWrite_eq_or (writesSide right key) none (md.optionsForProduct product)
    with ⟨leg, hleg, hwrite⟩ | ⟨hnone, hlast⟩
  · obtain ⟨k, hproduct, hat⟩ := mem_optionsForProduct.mp hleg
    rw [writesSide] at hwrite
    split at hwrite
    · rename_i hown
      obtain ⟨rfl, rfl⟩ := hown
      have hk := key_of_legAt hat
      rw [hproduct] at hk
      obtain ⟨m, hmid, hlast⟩ := Option.map_eq_some_iff.mp hwrite
      rw [← hlast, show (⟨product, _, _, _⟩ : PositionKey) = k from hk, hat, Option.bind_some, hmid]
    · cases hwrite
  · rw [hlast]
    cases hat : legAt md ⟨product, key.2, key.1, right⟩ with
    | none => rfl
    | some leg =>
        have hwrite := hnone leg (mem_optionsForProduct.mpr ⟨_, rfl, hat⟩)
        have hk := key_of_legAt hat
        simp only [makeKey, PositionKey.mk.injEq, true_and] at hk
        obtain ⟨hstrike, hexpiry, hright⟩ := hk
        rw [writesSide, hstrike, hexpiry, if_pos ⟨rfl, hright⟩, Option.map_eq_none_iff] at hwrite
        exact hwrite.symm

/-- The sample of a pair of the product. -/
def nearSample (md : MarketData F) (product : String) (spot : F) (key : PairKey) : Option F :=
  ((sides md product).lookup key).bind fun pair => sample spot (key, pair)

/-- A sample needs both sides. -/
theorem nearSample_eq (md : MarketData F) (product : String) (spot : F) (key : PairKey) :
    nearSample md product spot key =
      sample spot (key, lookupSide .call (sides md product) key,
        lookupSide .put (sides md product) key) := by
  unfold nearSample lookupSide
  cases (sides md product).lookup key with
  | none => simp [sample]
  | some pair => rfl

/-- Samples by key, in the order of the map. -/
theorem filterMap_sample (md : MarketData F) (product : String) (spot : F) :
    ((sides md product).entries.map fun e => (e.1, e.2)).filterMap (sample spot) =
      (sides md product).keys.filterMap (nearSample md product spot) := by
  rw [List.filterMap_map]
  show _ = ((sides md product).entries.map Sigma.fst).filterMap _
  rw [List.filterMap_map]
  refine List.filterMap_congr fun e he => ?_
  have hlookup : (sides md product).lookup e.1 = some e.2 := AList.mem_lookup_iff.mpr he
  simp [nearSample, hlookup]

/-- **The samples** are the same, up to their order, where the near pairs are. -/
theorem samples_perm {md md' : MarketData F} {product : String} {spot : F}
    (h : ∀ key, nearSample md product spot key = nearSample md' product spot key)
    (order order' : List Nat) :
    (samples md product spot order).Perm (samples md' product spot order') := by
  have hwalk (md : MarketData F) (order : List Nat) : (samples md product spot order).Perm
      ((sides md product).keys.filterMap (nearSample md product spot)) := by
    rw [← filterMap_sample]
    exact (yielded_perm order _).filterMap _
  -- the keys that pass a sample on are the same
  have hkeys (md : MarketData F) : (sides md product).keys.filterMap (nearSample md product spot) =
      ((sides md product).keys.filter fun key => (nearSample md product spot key).isSome).filterMap
        (nearSample md product spot) := by
    rw [List.filterMap_filter]
    refine List.filterMap_congr fun key _ => ?_
    cases nearSample md product spot key <;> rfl
  have hmem (md : MarketData F) (key : PairKey) :
      (key ∈ (sides md product).keys.filter fun key =>
        (nearSample md product spot key).isSome) ↔ (nearSample md product spot key).isSome := by
    rw [List.mem_filter]
    refine and_iff_right_of_imp fun hsome => ?_
    obtain ⟨x, hx⟩ := Option.isSome_iff_exists.mp hsome
    obtain ⟨pair, hpair, -⟩ := Option.bind_eq_some_iff.mp hx
    exact AList.mem_keys.mp (AList.lookup_isSome.mp (by simp [hpair]))
  have hnear : nearSample md product spot = nearSample md' product spot := funext h
  have hsame : ((sides md product).keys.filter fun key =>
      (nearSample md product spot key).isSome).Perm
        ((sides md' product).keys.filter fun key => (nearSample md' product spot key).isSome) := by
    refine (List.perm_ext_iff_of_nodup ((sides md product).keys_nodup.filter _)
      ((sides md' product).keys_nodup.filter _)).mpr fun key => ?_
    rw [hmem, hmem, hnear]
  calc (samples md product spot order).Perm _ := hwalk md order
    _ = _ := hkeys md
    List.Perm _ _ := by rw [hnear] at hsame ⊢; exact hsame.filterMap _
    _ = _ := (hkeys md').symm
    List.Perm _ _ := (hwalk md' order').symm

/-! ## The points of an expiry -/

omit [F64 F] in
theorem expiryPoints_foldl (start : Groups F) (es : List (String × FitPoint F)) (expiry : String) :
    expiryPoints (es.foldl pushPoint start) expiry =
      expiryPoints start expiry ++ (es.filter (·.1 = expiry)).map (·.2) := by
  induction es generalizing start with
  | nil => simp
  | cons e rest ih =>
      rw [List.foldl_cons, ih]
      by_cases he : e.1 = expiry
      · subst he
        simp [expiryPoints, pushPoint]
      · simp [expiryPoints, pushPoint, he, AList.lookup_insert_ne (Ne.symm he)]

/-- The points of an expiry come from its own legs. -/
theorem mem_expiryPoints {env : FitEnv F} {fmt : TextFormats F Date} {md : MarketData F}
    {product expiry : String} {forward : F} {p : FitPoint F} :
    p ∈ expiryPoints (byExpiry env fmt md product forward) expiry ↔
      ∃ k leg, k.product = product ∧ legAt md k = some leg ∧ fmt.formatYmd k.expiry = expiry ∧
        point env forward leg = some p := by
  unfold byExpiry
  rw [expiryPoints_foldl]
  simp only [expiryPoints, AList.lookup_empty, Option.getD_none, List.nil_append, List.mem_map,
    List.mem_filter, List.mem_filterMap, decide_eq_true_iff, Option.map_eq_some_iff]
  constructor
  · rintro ⟨e, ⟨⟨leg, hleg, p', hpoint, rfl⟩, hexpiry⟩, rfl⟩
    obtain ⟨k, hproduct, hat⟩ := mem_optionsForProduct.mp hleg
    refine ⟨k, leg, hproduct, hat, ?_, hpoint⟩
    rw [← key_of_legAt hat]
    exact hexpiry
  · rintro ⟨k, leg, hproduct, hat, hexpiry, hpoint⟩
    have hleg := mem_optionsForProduct.mpr ⟨k, hproduct, hat⟩
    refine ⟨_, ⟨⟨leg, hleg, p, hpoint, rfl⟩, ?_⟩, rfl⟩
    rw [← key_of_legAt hat] at hexpiry
    exact hexpiry

theorem point_eq_some {env : FitEnv F} {forward : F} {leg : OptionTick F × LegQuote F}
    {p : FitPoint F} (h : point env forward leg = some p) :
    takeThis forward leg.1 = true ∧ p.strike = leg.1.strike := by
  obtain ⟨opt, q⟩ := leg
  simp only [point] at h
  split_ifs at h with htake
  split at h
  · split_ifs at h
    obtain rfl := Option.some.inj h
    exact ⟨htake, rfl⟩
  · cases h

/-- The expiries of the options. -/
def expiries (md : MarketData F) : Set Date := {d | ∃ k leg, legAt md k = some leg ∧ k.expiry = d}

/-- The legs of one strike and expiry that make points are of one right. -/
theorem right_of_takeThis {forward : F} {opt opt' : OptionTick F} (h : takeThis forward opt = true)
    (h' : takeThis forward opt' = true) (hstrike : opt.strike = opt'.strike)
    (hside : ∀ k : F, F64.ge k forward = true → F64.lt k forward = true → False) :
    opt.right = opt'.right := by
  unfold takeThis at h h'
  cases hright : opt.right with
  | call =>
      cases hright' : opt'.right with
      | call => rfl
      | put =>
          rw [hright] at h
          rw [hright'] at h'
          exact (hside opt'.strike (hstrike ▸ h) h').elim
  | put =>
      cases hright' : opt'.right with
      | call =>
          rw [hright] at h
          rw [hright'] at h'
          exact (hside opt'.strike h' (hstrike ▸ h)).elim
      | put => rfl

/-- The points of an expiry are at different strikes, where its options are written apart by
their expiries. -/
theorem nodup_strikes (env : FitEnv F) {fmt : TextFormats F Date} {md : MarketData F}
    (product expiry : String) {forward : F} (hfmt : Set.InjOn fmt.formatYmd (expiries md))
    (hside : ∀ k : F, F64.ge k forward = true → F64.lt k forward = true → False) :
    ((expiryPoints (byExpiry env fmt md product forward) expiry).map (·.strike)).Nodup := by
  unfold byExpiry
  rw [expiryPoints_foldl]
  simp only [expiryPoints, AList.lookup_empty, Option.getD_none, List.nil_append, List.map_map]
  rw [List.Nodup, List.pairwise_map, List.pairwise_filter, List.pairwise_filterMap,
    MarketData.optionsForProduct, List.pairwise_map]
  have hkeys := (List.nodupKeys_iff_pairwise.mp md.legs.options.nodupKeys).filter
    fun e => decide (e.1.product = product)
  refine hkeys.imp_of_mem fun {a b} ha hb hne => ?_
  rintro e he e' he' hexpiry hexpiry' hstrike
  obtain ⟨p, hp, rfl⟩ := Option.map_eq_some_iff.mp he
  obtain ⟨p', hp', rfl⟩ := Option.map_eq_some_iff.mp he'
  obtain ⟨htake, hp⟩ := point_eq_some hp
  obtain ⟨htake', hp'⟩ := point_eq_some hp'
  -- the two legs are under one key
  have hleg {c : Sigma fun _ : PositionKey => OptionTick F}
      (hc : c ∈ md.legs.options.entries.filter fun e => decide (e.1.product = product)) :
      c.1.product = product ∧ legAt md c.1 = some (c.2, md.quoteOf c.1) := by
    obtain ⟨hmem, hproduct⟩ := List.mem_filter.mp hc
    refine ⟨of_decide_eq_true hproduct, ?_⟩
    rw [legAt, AList.mem_lookup_iff.mpr hmem, Option.map_some]
  obtain ⟨hproduct, hat⟩ := hleg ha
  obtain ⟨hproduct', hat'⟩ := hleg hb
  have hkey := key_of_legAt hat
  have hkey' := key_of_legAt hat'
  have hdate : a.2.expiry = b.2.expiry := by
    refine hfmt ⟨a.1, _, hat, congrArg PositionKey.expiry hkey.symm⟩
      ⟨b.1, _, hat', congrArg PositionKey.expiry hkey'.symm⟩ ?_
    exact (of_decide_eq_true hexpiry).trans (of_decide_eq_true hexpiry').symm
  have hsame : a.2.strike = b.2.strike := hp.symm.trans (hstrike.trans hp')
  have hright := right_of_takeThis htake htake' hsame hside
  refine hne ?_
  rw [← hkey, ← hkey', hproduct, hproduct', hsame, hdate, hright]

/-! ## Two states of the market -/

/-- The states have the same quotes for the expiry. -/
def SameQuotes (fmt : TextFormats F Date) (product expiry : String) (md md' : MarketData F) :
    Prop :=
  ∀ k, k.product = product → fmt.formatYmd k.expiry = expiry →
    (legAt md k).map fitView = (legAt md' k).map fitView

/-- The near pairs of every other expiry imply the same forwards. -/
def SameOtherSamples (fmt : TextFormats F Date) (product expiry : String) (spot : F)
    (md md' : MarketData F) : Prop :=
  ∀ key : PairKey, fmt.formatYmd key.1 ≠ expiry →
    nearSample md product spot key = nearSample md' product spot key

theorem SameQuotes.leg {fmt : TextFormats F Date} {product expiry : String} {md md' : MarketData F}
    (h : SameQuotes fmt product expiry md md') {k : PositionKey} (hproduct : k.product = product)
    (hexpiry : fmt.formatYmd k.expiry = expiry) {leg : OptionTick F × LegQuote F}
    (hat : legAt md k = some leg) :
    ∃ leg', legAt md' k = some leg' ∧ fitView leg = fitView leg' := by
  have hview := h k hproduct hexpiry
  rw [hat, Option.map_some] at hview
  obtain ⟨leg', hat', heq⟩ := Option.map_eq_some_iff.mp hview.symm
  exact ⟨leg', hat', heq.symm⟩

theorem SameQuotes.symm {fmt : TextFormats F Date} {product expiry : String}
    {md md' : MarketData F} (h : SameQuotes fmt product expiry md md') :
    SameQuotes fmt product expiry md' md :=
  fun k hproduct hexpiry => (h k hproduct hexpiry).symm

/-- The pairs of the expiry imply the same forwards. -/
theorem SameQuotes.nearSample {fmt : TextFormats F Date} {product expiry : String}
    {md md' : MarketData F} (h : SameQuotes fmt product expiry md md') (spot : F) {key : PairKey}
    (hexpiry : fmt.formatYmd key.1 = expiry) :
    nearSample md product spot key = nearSample md' product spot key := by
  have hside (right : Right) : lookupSide right (sides md product) key =
      lookupSide right (sides md' product) key := by
    have hview := h ⟨product, key.2, key.1, right⟩ rfl hexpiry
    rw [lookupSide_sides, lookupSide_sides]
    cases hat : legAt md ⟨product, key.2, key.1, right⟩ with
    | none =>
        rw [hat, Option.map_none] at hview
        rw [Option.map_eq_none_iff.mp hview.symm]
    | some leg =>
        obtain ⟨leg', hat', hview'⟩ := h.leg rfl hexpiry hat
        rw [hat', Option.bind_some, Option.bind_some, parityMid_congr hview']
  rw [nearSample_eq, nearSample_eq, hside .call, hside .put]

/-- For one forward the points of the expiry are the same. -/
theorem SameQuotes.expiryPoints {fmt : TextFormats F Date} {product expiry : String}
    {md md' : MarketData F} (h : SameQuotes fmt product expiry md md') (env : FitEnv F)
    (forward : F) {p : FitPoint F}
    (hp : p ∈ expiryPoints (byExpiry env fmt md product forward) expiry) :
    p ∈ VolFit.expiryPoints (byExpiry env fmt md' product forward) expiry := by
  obtain ⟨k, leg, hproduct, hat, hexpiry, hpoint⟩ := mem_expiryPoints.mp hp
  obtain ⟨leg', hat', hview⟩ := h.leg hproduct hexpiry hat
  refine mem_expiryPoints.mpr ⟨k, leg', hproduct, hat', hexpiry, ?_⟩
  rw [← point_congr env forward hview]
  exact hpoint

/-- **Expiry independence, but for the forward.** Two states agree on the quotes of an
expiry, and the near pairs of the other expiries imply the same forwards.  Then each
forward that the first can have, by the order in which the pairs are summed, the second
can have as well, and the points of the expiry are the same. -/
theorem fit_inputs_of_expiry (env : FitEnv F) (fmt : TextFormats F Date) (product expiry : String)
    (spot : F) (md md' : MarketData F) (hquotes : SameQuotes fmt product expiry md md')
    (hothers : SameOtherSamples fmt product expiry spot md md') (order : List Nat) :
    ∃ order', chainForward md product spot order = chainForward md' product spot order' ∧
      ∀ p, p ∈ expiryPoints (byExpiry env fmt md product (chainForward md product spot order))
          expiry ↔
        p ∈ expiryPoints (byExpiry env fmt md' product (chainForward md' product spot order'))
          expiry := by
  have hnear (key : PairKey) : nearSample md product spot key = nearSample md' product spot key := by
    by_cases hexpiry : fmt.formatYmd key.1 = expiry
    · exact hquotes.nearSample spot hexpiry
    · exact hothers key hexpiry
  obtain ⟨pairs, hpairs, hsamples⟩ := exists_perm_filterMap
    ((samples_perm hnear order []).trans ((yielded_perm [] _).filterMap (sample spot)))
  obtain ⟨order', rfl⟩ := exists_yielded hpairs
  have hforward : chainForward md product spot order = chainForward md' product spot order' := by
    rw [chainForward, chainForward, ← hsamples]
    rfl
  refine ⟨order', hforward, fun p => ?_⟩
  rw [hforward]
  exact ⟨hquotes.expiryPoints env _, hquotes.symm.expiryPoints env _⟩

/-! ## Another expiry -/

/-- An update of one leg leaves the others. -/
theorem legAt_updateLeg (md : MarketData F) (iid : Nat) (f : LegQuote F → LegQuote F)
    {otherwise : MarketData F} (hlegs : otherwise.legs = md.legs)
    (hquotes : ∀ k, otherwise.quoteOf k = md.quoteOf k) (k : PositionKey) :
    legAt (md.updateLeg iid f otherwise) k =
      (legAt md k).map fun leg => if md.keyOf iid = some k then (leg.1, f leg.2) else leg := by
  unfold legAt
  rw [MarketData.legs_updateLeg md iid f hlegs, MarketData.quoteOf_updateLeg md iid f hquotes]
  cases md.legs.options.lookup k with
  | none => rfl
  | some t =>
      rw [Option.map_some, Option.map_some, Option.map_some]
      split
      · rfl
      · rfl

/-- So does a registration. -/
theorem legAt_registerOption_of_ne (md : MarketData F) {r : Registration F} {k : PositionKey}
    (h : k ≠ r.key) : legAt (md.registerOption r) k = legAt md k := by
  have hlookup : (md.registerOption r).legs.options.lookup k = md.legs.options.lookup k :=
    (InstrumentRouting.MarketDataState.lookup_orInsert _ _ _ k).trans (if_neg h)
  unfold legAt
  rw [hlookup]
  rfl

theorem keyOf_updateLeg {md : MarketData F} {iid : Nat} {f : LegQuote F → LegQuote F}
    {otherwise : MarketData F} (hlegs : otherwise.legs = md.legs) (id : Nat) :
    (md.updateLeg iid f otherwise).keyOf id = md.keyOf id := by
  unfold MarketData.keyOf
  rw [MarketData.legs_updateLeg md iid f hlegs]

/-- A leg at 6.00. -/
def legAtSix (iid : Nat) (expiry : Date) (right : Right) : Registration ℚ :=
  ⟨"HG", 6, expiry, right, iid⟩

/-- The leg with a bid and an ask of one contract. -/
def withLeg (md : MarketData ℚ) (iid : Nat) (expiry : Date) (right : Right) (bid ask : ℚ) :
    MarketData ℚ :=
  ((md.registerOption (legAtSix iid expiry right)).updateBid iid bid 1 1).updateAsk iid ask 1 1

theorem legAt_withLeg_of_ne (md : MarketData ℚ) (iid : Nat) {expiry : Date} (right : Right)
    (bid ask : ℚ) {k : PositionKey} (h : k.expiry ≠ expiry) :
    legAt (withLeg md iid expiry right bid ask) k = legAt md k := by
  have hne : k ≠ (legAtSix iid expiry right).key := fun hk => h (by rw [hk]; rfl)
  generalize hregistered : md.registerOption (legAtSix iid expiry right) = registered
  have hother : registered.keyOf iid ≠ some k := by
    have hkey : registered.keyOf iid = some (legAtSix iid expiry right).key := by
      rw [← hregistered]
      exact AList.lookup_insert _
    rw [hkey]
    exact fun hk => hne (Option.some.inj hk).symm
  have hbid : legAt (registered.updateBid iid bid 1 1) k = legAt md k := by
    rw [MarketData.updateBid, legAt_updateLeg registered iid _
      (MarketData.legs_underlyingTick registered iid bid)
      (MarketData.quoteOf_underlyingTick registered iid bid)]
    simp only [hother, if_false, Option.map_id']
    rw [← hregistered]
    exact legAt_registerOption_of_ne md hne
  have hkept : (registered.updateBid iid bid 1 1).keyOf iid ≠ some k := by
    rw [MarketData.updateBid, keyOf_updateLeg (MarketData.legs_underlyingTick registered iid bid)]
    exact hother
  rw [withLeg, hregistered, MarketData.updateAsk, legAt_updateLeg _ iid _
    (MarketData.legs_underlyingTick _ iid ask) (MarketData.quoteOf_underlyingTick _ iid ask)]
  simp only [hkept, if_false, Option.map_id', hbid]

def june : Date := ⟨2026, 6, 26⟩

def july : Date := ⟨2026, 7, 28⟩

/-- The underlying at 6.02, and a call and a put for June. -/
def juneOnly : MarketData ℚ :=
  let spot := (MarketData.new.registerUnderlying "HG" 9).updateLast 9 (301 / 50) 1
  withLeg (withLeg spot 1 june .call (9 / 100) (11 / 100)) 2 june .put (9 / 100) (11 / 100)

/-- The same, with a dearer call and a put for July. -/
def juneAndJuly : MarketData ℚ :=
  withLeg (withLeg juneOnly 3 july .call (19 / 100) (21 / 100)) 4 july .put (9 / 100) (11 / 100)

theorem expiry_ne_july {k : PositionKey}
    (h : RestingSweep.plainFormats.formatYmd k.expiry = "20260626") : k.expiry ≠ july := by
  intro hjuly
  rw [hjuly] at h
  exact absurd h (by decide +kernel)

/-- The quotes for June and the underlying are the same, and the forward is not: it is the
spot for June alone, and the mean of 6.00 and 6.10 with July. -/
theorem forward_moves_with_other_expiry :
    SameQuotes RestingSweep.plainFormats "HG" "20260626" juneOnly juneAndJuly ∧
      juneOnly.underlyingPrice "HG" = some (301 / 50) ∧
      juneAndJuly.underlyingPrice "HG" = some (301 / 50) ∧
      chainForward juneOnly "HG" (301 / 50) [] = 301 / 50 ∧
      chainForward juneAndJuly "HG" (301 / 50) [] = 121 / 20 := by
  refine ⟨fun k _ hexpiry => ?_, by decide +kernel, by decide +kernel, by decide +kernel,
    by decide +kernel⟩
  have hne := expiry_ne_july hexpiry
  rw [juneAndJuly, legAt_withLeg_of_ne _ _ _ _ _ hne, legAt_withLeg_of_ne _ _ _ _ _ hne]

/-- A size for the July call. -/
def julySized : MarketData ℚ := juneAndJuly.updateBidSize 3 5 2

theorem legAt_julySized (k : PositionKey) :
    legAt julySized k = (legAt juneAndJuly k).map fun leg =>
      if juneAndJuly.keyOf 3 = some k then (leg.1, { leg.2 with bidSize := 5, lastUpdatedNs := 2 })
      else leg :=
  legAt_updateLeg juneAndJuly 3 _ rfl (fun _ => rfl) k

/-- Every price has the volatility 0.2, in 1970. -/
def flatVol : FitEnv ℚ := ⟨fun _ _ _ _ _ => some (1 / 5), 0⟩

/-- The points for June. -/
def junePoints (md : MarketData ℚ) (order : List Nat) : List (FitPoint ℚ) :=
  expiryPoints (byExpiry flatVol RestingSweep.plainFormats md "HG"
    (chainForward md "HG" (301 / 50) order)) "20260626"

/-- The size moves nothing of the fit for June: neither forward nor points, of which there is
one. -/
theorem fit_inputs_june_julySized :
    (junePoints juneAndJuly []).length = 1 ∧
      ∃ order', chainForward juneAndJuly "HG" (301 / 50) [] =
          chainForward julySized "HG" (301 / 50) order' ∧
        ∀ p, p ∈ junePoints juneAndJuly [] ↔ p ∈ junePoints julySized order' := by
  refine ⟨by decide +kernel, ?_⟩
  refine fit_inputs_of_expiry _ _ "HG" "20260626" (301 / 50) juneAndJuly julySized ?_ ?_ []
  · intro k _ hexpiry
    have hcall : juneAndJuly.keyOf 3 = some ⟨"HG", 60000, july, .call⟩ := by decide +kernel
    have hother : juneAndJuly.keyOf 3 ≠ some k := by
      rw [hcall]
      exact fun hk => expiry_ne_july hexpiry (by rw [← Option.some.inj hk])
    rw [legAt_julySized]
    simp only [hother, if_false, Option.map_id']
  · intro key _
    have hside (right : Right) : lookupSide right (sides julySized "HG") key =
        lookupSide right (sides juneAndJuly "HG") key := by
      rw [lookupSide_sides, lookupSide_sides, legAt_julySized]
      cases legAt juneAndJuly ⟨"HG", key.2, key.1, right⟩ with
      | none => rfl
      | some leg =>
          rw [Option.map_some, Option.bind_some, Option.bind_some]
          split
          · rfl
          · rfl
    rw [nearSample_eq, nearSample_eq, hside .call, hside .put]

end Corsair.Ports.VolFit
