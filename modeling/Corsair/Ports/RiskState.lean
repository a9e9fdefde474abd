import Mathlib.Data.List.FinRange
import Mathlib.Data.List.Perm.Basic
import Corsair.Ports.PositionBook
import Corsair.Ports.HedgeManager
import Corsair.Ports.NativeDecoder
import Corsair.Ports.Trader

/-!
# The published risk state

The adapter caches the account values that the gateway sends.  `account_values` makes a
snapshot of the cache and stamps it with the clock of the reading, whatever the age of
what it read.  Once a second `periodic_risk_state` publishes the margin of the snapshot
that the runtime holds, and the hedge quantities: a snapshot or a hedge whose stamp is too
old is left out, the margin as a full one and the hedge as a flat one.

## Main results

* `maintenanceMargin_accountValues` — where the margin of a snapshot comes from.
* `marginPct_periodicRiskState` — the two ways in which a margin is published.
* `blockAll_of_margin` — a margin at the ceiling blocks the trader.
-/

namespace Corsair.Ports.RiskState

open Corsair.Verified
open Corsair.Ports.Portfolio (Date)
open Corsair.Ports.BrokerApi
open Corsair.Ports.NativeDecoder (TextFormats)
open Corsair.Ports.PositionBook
open Corsair.Ports.HedgeManager (HedgeState)
open Corsair.Ports.TraderState (RiskStateMsg SharedState ScalarState)
open Corsair.Ports.DecideOnTick (computeRiskGates)
open Corsair.Ports.Trader (Clock onRiskState)

/-! ## The account cache -/

/-- `AccountValueMsg`. -/
structure AccountValueMsg where
  key : String
  value : String
  currency : String
  account : String
  deriving DecidableEq, Repr

/-- `account_values`, by key, currency and account. -/
abbrev AccountValues := AList (fun _ : String × String × String => AccountValueMsg)

/-- `route`, on an `AccountValue`. -/
def routeAccountValue (values : AccountValues) (a : AccountValueMsg) : AccountValues :=
  values.insert (a.key, a.currency, a.account) a

/-- The order in which a hash map yields its entries. -/
def yielded {α : Type} (order : List Nat) (entries : List α) : List α :=
  if order.Perm (List.range entries.length) then order.filterMap (entries[·]?) else entries

theorem mem_of_mem_yielded {α : Type} {order : List Nat} {entries : List α} {x : α}
    (h : x ∈ yielded order entries) : x ∈ entries := by
  unfold yielded at h
  split at h
  · obtain ⟨i, -, hi⟩ := List.mem_filterMap.mp h
    exact List.mem_of_getElem? hi
  · exact h

section Orders

variable {α : Type}

theorem filterMap_getElem_map_val (entries : List α) (picks : List (Fin entries.length)) :
    (picks.map Fin.val).filterMap (entries[·]?) = picks.map entries.get := by
  induction picks with
  | nil => rfl
  | cons i rest ih => simp [ih]

theorem map_val_finRange (n : Nat) : (List.finRange n).map Fin.val = List.range n := by
  apply List.ext_getElem
  · simp
  · intro i hi hi'
    simp

theorem map_get_finRange' (entries : List α) :
    (List.finRange entries.length).map entries.get = entries := by
  rw [← List.ofFn_eq_map, List.ofFn_get]

/-- A hash map may yield its entries in every order. -/
theorem exists_yielded {entries entries' : List α} (h : entries'.Perm entries) :
    ∃ order, yielded order entries = entries' := by
  have hpicked : Relation.Comp (· = List.map entries.get ·) (·.Perm ·) entries'
      (List.finRange entries.length) := by
    rw [List.eq_map_comp_perm]
    show entries'.Perm ((List.finRange entries.length).map entries.get)
    rwa [map_get_finRange']
  obtain ⟨picks, rfl, hpicks⟩ := hpicked
  refine ⟨picks.map Fin.val, ?_⟩
  have hrange : (picks.map Fin.val).Perm (List.range entries.length) := by
    rw [← map_val_finRange]
    exact hpicks.map _
  rw [yielded, if_pos hrange, filterMap_getElem_map_val]

/-- What it yields is a rearrangement of its entries. -/
theorem yielded_perm (order : List Nat) (entries : List α) :
    (yielded order entries).Perm entries := by
  unfold yielded
  split
  · rename_i horder
    have hall : (List.range entries.length).filterMap (entries[·]?) = entries := by
      rw [← map_val_finRange, filterMap_getElem_map_val, map_get_finRange']
    have hperm := horder.filterMap (entries[·]?)
    rwa [hall] at hperm
  · exact .refl entries

/-- Some order of the entries gives what they pass on in any given order. -/
theorem exists_perm_filterMap {β : Type} {pass : α → Option β} {entries : List α} {passed : List β}
    (h : passed.Perm (entries.filterMap pass)) :
    ∃ entries' : List α, entries'.Perm entries ∧ entries'.filterMap pass = passed := by
  induction passed generalizing entries with
  | nil => exact ⟨entries, .refl entries, h.nil_eq.symm⟩
  | cons y rest ih =>
      obtain ⟨x, hx, hpass⟩ := List.mem_filterMap.mp (h.mem_iff.mp List.mem_cons_self)
      obtain ⟨front, back, rfl⟩ := List.append_of_mem hx
      have hmiddle : (front ++ x :: back).Perm (x :: (front ++ back)) := List.perm_middle
      have hfirst := hmiddle.filterMap pass
      rw [List.filterMap_cons_some hpass] at hfirst
      obtain ⟨entries', hperm, hrest⟩ := ih (h.trans hfirst).cons_inv
      refine ⟨x :: entries', (hperm.cons x).trans List.perm_middle.symm, ?_⟩
      rw [List.filterMap_cons_some hpass, hrest]

end Orders

section Snapshot

variable {F : Type} [F64 F]

/-- `AccountSnapshot::default`. -/
def emptySnapshot : AccountSnapshot F where
  netLiquidation := F64.zero
  maintenanceMargin := F64.zero
  initialMargin := F64.zero
  buyingPower := F64.zero
  realizedPnlToday := F64.zero
  timestampNs := 0

/-- One value of the account. -/
def withValue (fmt : TextFormats F Date) (snap : AccountSnapshot F) (v : AccountValueMsg) :
    AccountSnapshot F :=
  let parsed : F := (fmt.float v.value).toOption.getD F64.zero
  if v.key = "NetLiquidation" then { snap with netLiquidation := parsed }
  else if v.key = "MaintMarginReq" then { snap with maintenanceMargin := parsed }
  else if v.key = "InitMarginReq" then { snap with initialMargin := parsed }
  else if v.key = "BuyingPower" then { snap with buyingPower := parsed }
  else if v.key = "RealizedPnL" then { snap with realizedPnlToday := parsed }
  else snap

/-- `account_values`: the values of the configured account, in the order in which the hash
map yields them. -/
def accountValues (fmt : TextFormats F Date) (account : String) (values : AccountValues)
    (order : List Nat) (now : Nat) : AccountSnapshot F :=
  let own := (yielded order (values.entries.map (·.2))).filter (·.account = account)
  own.foldl (withValue fmt) { emptySnapshot with timestampNs := now }

/-- The value is a maintenance margin of the account. -/
def IsMaintMargin (account : String) (v : AccountValueMsg) : Prop :=
  v.key = "MaintMarginReq" ∧ v.account = account

theorem timestampNs_foldl_withValue (fmt : TextFormats F Date) (snap : AccountSnapshot F)
    (values : List AccountValueMsg) :
    (values.foldl (withValue fmt) snap).timestampNs = snap.timestampNs := by
  induction values generalizing snap with
  | nil => rfl
  | cons v rest ih =>
      rw [List.foldl_cons, ih]
      unfold withValue
      dsimp only
      repeat' split
      all_goals rfl

/-- **The stamp is the clock of the reading.** -/
@[simp] theorem timestampNs_accountValues (fmt : TextFormats F Date) (account : String)
    (values : AccountValues) (order : List Nat) (now : Nat) :
    (accountValues fmt account values order now).timestampNs = now :=
  timestampNs_foldl_withValue fmt _ _

theorem maintenanceMargin_foldl_withValue (fmt : TextFormats F Date) (snap : AccountSnapshot F)
    {values : List AccountValueMsg} (h : ∀ v ∈ values, v.key ≠ "MaintMarginReq") :
    (values.foldl (withValue fmt) snap).maintenanceMargin = snap.maintenanceMargin := by
  induction values generalizing snap with
  | nil => rfl
  | cons v rest ih =>
      have hother : v.key ≠ "MaintMarginReq" := h v List.mem_cons_self
      rw [List.foldl_cons, ih _ fun v' hv' => h v' (List.mem_cons_of_mem v hv')]
      unfold withValue
      dsimp only
      rw [if_neg hother]
      repeat' split
      all_goals rfl

/-- **Where the margin of a snapshot comes from**: a margin of the account is cached, or
the margin is the `0.0` that the snapshot starts with. -/
theorem maintenanceMargin_accountValues (fmt : TextFormats F Date) (account : String)
    (values : AccountValues) (order : List Nat) (now : Nat) :
    (accountValues fmt account values order now).maintenanceMargin = F64.zero ∨
      ∃ key v, values.lookup key = some v ∧ IsMaintMargin account v := by
  by_cases hcached : ∃ key v, values.lookup key = some v ∧ IsMaintMargin account v
  · exact .inr hcached
  · refine .inl (maintenanceMargin_foldl_withValue fmt _ fun v hv hkey => hcached ?_)
    obtain ⟨hyielded, haccount⟩ := List.mem_filter.mp hv
    obtain ⟨e, he, rfl⟩ := List.mem_map.mp (mem_of_mem_yielded hyielded)
    exact ⟨e.1, e.2, AList.mem_lookup_iff.mpr he, hkey, of_decide_eq_true haccount⟩

end Snapshot

/-! ## What is published -/

section Publication

variable {F : Type} [F64 F]

/-- `PortfolioGreeks`, as far as a risk state reads it. -/
structure PortfolioGreeks (F : Type) where
  netDelta : F
  netTheta : F
  netVega : F
  netGamma : F
  grossPositions : Nat

/-- `PortfolioGreeks::add`. -/
def PortfolioGreeks.add (g : PortfolioGreeks F) (leg : Leg F) : PortfolioGreeks F :=
  let q : F := F64.ofInt leg.quantity
  { netDelta := g.netDelta + leg.delta * q
    netTheta := g.netTheta + leg.theta * q
    netVega := g.netVega + leg.vega * q
    netGamma := g.netGamma + leg.gamma * q
    grossPositions := g.grossPositions + if leg.quantity ≠ 0 then 1 else 0 }

/-- `aggregate`, the totals. -/
def aggregate (portfolio : PortfolioState F) : PortfolioGreeks F :=
  portfolio.positions.foldl PortfolioGreeks.add ⟨F64.zero, F64.zero, F64.zero, F64.zero, 0⟩

omit [F64 F] in
/-- `is_fresh`. -/
def isFresh (s : HedgeState F) (now maxAge : Nat) : Bool :=
  if s.lastUpdateNs = 0 then false else now - s.lastUpdateNs ≤ maxAge

/-- `HEDGE_STATE_MAX_AGE_NS`. -/
def hedgeStateMaxAgeNs : Nat := 300000000000

/-- `MARGIN_CACHE_MAX_AGE_NS`. -/
def marginCacheMaxAgeNs : Nat := 60000000000

/-- `RiskStateEvent`. -/
structure RiskStateEvent (F : Type) where
  tsNs : Nat
  marginUsd : F
  marginPct : F
  optionsDelta : F
  hedgeDelta : Int
  effectiveDelta : F
  theta : F
  vega : F
  gamma : F
  totalContracts : Int
  nPositions : Nat

/-- The three readings of the clock in one turn of `periodic_risk_state`. -/
structure RiskClock where
  hedgeNow : Nat
  marginNow : Nat
  tsNs : Nat

omit [F64 F] in
/-- The snapshot is fresh. -/
def marginCacheFresh (account : AccountSnapshot F) (now : Nat) : Bool :=
  0 < account.timestampNs ∧ now - account.timestampNs ≤ marginCacheMaxAgeNs

/-- The margin as a part of the capital. -/
def marginRatio (capital margin : F) : F :=
  if F64.gt capital F64.zero then margin / capital else F64.zero

/-- `periodic_risk_state`, one turn: the event that it publishes. -/
def periodicRiskState (capital : F) (account : AccountSnapshot F) (portfolio : PortfolioState F)
    (managers : List (HedgeManager F)) (clock : RiskClock) : RiskStateEvent F :=
  let total := aggregate portfolio
  let hedgeDelta := (managers.map fun m =>
    if isFresh m.state clock.hedgeNow hedgeStateMaxAgeNs then m.state.hedgeQty else 0).sum
  { tsNs := clock.tsNs
    marginUsd := account.maintenanceMargin
    marginPct :=
      if marginCacheFresh account clock.marginNow then
        marginRatio capital account.maintenanceMargin
      else F64.lit 1 0
    optionsDelta := total.netDelta
    hedgeDelta
    effectiveDelta := total.netDelta + F64.ofInt hedgeDelta
    theta := total.netTheta
    vega := total.netVega
    gamma := total.netGamma
    totalContracts := (portfolio.positions.map fun leg => (leg.quantity.natAbs : Int)).sum
    nPositions := total.grossPositions }

/-- The event as the trader reads it. -/
def RiskStateEvent.msg (ev : RiskStateEvent F) : RiskStateMsg F where
  marginPct := ev.marginPct
  hedgeDelta := ev.hedgeDelta
  effectiveDelta := ev.effectiveDelta
  theta := ev.theta
  vega := ev.vega

/-- **Two ways to publish a margin**: the ratio of a fresh snapshot, or a full one. -/
theorem marginPct_periodicRiskState (capital : F) (account : AccountSnapshot F)
    (portfolio : PortfolioState F) (managers : List (HedgeManager F)) (clock : RiskClock) :
    (marginCacheFresh account clock.marginNow = true ∧
        (periodicRiskState capital account portfolio managers clock).marginPct =
          marginRatio capital account.maintenanceMargin) ∨
      (marginCacheFresh account clock.marginNow = false ∧
        (periodicRiskState capital account portfolio managers clock).marginPct = F64.lit 1 0) := by
  cases hfresh : marginCacheFresh account clock.marginNow with
  | true => exact .inl ⟨rfl, by simp [periodicRiskState, hfresh]⟩
  | false => exact .inr ⟨rfl, by simp [periodicRiskState, hfresh]⟩

/-- A margin that never came is published as one below the capital. -/
theorem marginRatio_zero_lt_one [LawfulUnit F] (capital : F) :
    F64.lt (marginRatio capital F64.zero) (F64.lit 1 0) = true := by
  unfold marginRatio
  split
  · rename_i hcapital
    exact LawfulUnit.zero_div_lt_one capital hcapital
  · exact LawfulUnit.zero_lt_one

/-- **A margin at the ceiling blocks the trader** that has read it. -/
theorem blockAll_of_margin (trader : SharedState F) (clock : Clock F) (r : RiskStateMsg F)
    (mono : Nat) (h : F64.ge r.marginPct trader.scalars.marginCeilingPct = true) :
    (computeRiskGates (onRiskState trader clock r).scalars mono).1.blockAll = true := by
  simp only [computeRiskGates, onRiskState, h, if_true, ite_self]

end Publication

end Corsair.Ports.RiskState
