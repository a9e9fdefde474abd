import Corsair.Verified.Runs
import Corsair.Ports.Fills

/-!
# `corsair_market_data`: which leg an instrument id names

`register_option` stores the id of a leg twice: in the leg, when the leg is new, and
in the map from ids to legs, always.  Ticks are routed by the map.  `handle_fill`
looks for the leg that holds the id, in the products of the portfolio's registry, in
the order in which the hash maps yield them.

## Main results

* `routesAgree_iff` — the two lookups agree in every order if the legs that hold an
  id are those that the map gives for it.
* `routing_agrees_iff` — they agree after every registration exactly if each one is
  of a new leg under a new id, or repeats a pair.
-/

namespace Corsair.Ports.InstrumentRouting

open Corsair.Verified
open Corsair.Verified.Runs
open Corsair.Verified.Table
open Corsair.Ports.Portfolio (Right Date)
open Corsair.Ports.PositionBook
open Corsair.Ports.Fills (OptionTick OptionTicks optionsForProduct matched)

variable {F : Type} [F64 F]

/-- `MarketDataState`, as far as an id is resolved: every leg is stored under its own
key, and an id stands for a leg that is stored. -/
structure MarketDataState (F : Type) [F64 F] where
  options : OptionTicks F
  byInstrument : AList (fun _ : Nat => PositionKey)
  keyed : ∀ k t, options.lookup k = some t → makeKey k.product t.strike t.expiry t.right = k
  resolved : ∀ id k, byInstrument.lookup id = some k → (options.lookup k).isSome

namespace MarketDataState

/-- `new`. -/
def new : MarketDataState F where
  options := ∅
  byInstrument := ∅
  keyed _ _ h := (nomatch h)
  resolved _ _ h := (nomatch h)

/-- `options.entry(k).or_insert_with(..)`. -/
def orInsert (options : OptionTicks F) (k : PositionKey) (t : OptionTick F) : OptionTicks F :=
  if (options.lookup k).isSome then options else options.insert k t

/-- The arguments of `register_option`. -/
structure Registration (F : Type) where
  product : String
  strike : F
  expiry : Date
  right : Right
  instrumentId : Nat

/-- The key of a registered leg. -/
def Registration.key (r : Registration F) : PositionKey :=
  makeKey r.product r.strike r.expiry r.right

/-- The leg as it is stored when it is new. -/
def Registration.tick (r : Registration F) : OptionTick F where
  instrumentId := some r.instrumentId
  strike := r.strike
  expiry := r.expiry
  right := r.right

omit [F64 F] in
theorem lookup_orInsert (options : OptionTicks F) (k : PositionKey) (t : OptionTick F)
    (k' : PositionKey) :
    (orInsert options k t).lookup k' =
      if k' = k then some ((options.lookup k).getD t) else options.lookup k' := by
  unfold orInsert
  cases hold : options.lookup k with
  | none =>
      simp only [Option.isSome_none, Bool.false_eq_true, if_false, Option.getD_none]
      by_cases hk : k' = k
      · rw [if_pos hk, hk, AList.lookup_insert]
      · rw [if_neg hk, AList.lookup_insert_ne hk]
  | some old =>
      simp only [Option.isSome_some, if_true, Option.getD_some]
      by_cases hk : k' = k
      · rw [if_pos hk, hk, hold]
      · rw [if_neg hk]

/-- `register_option`. -/
def registerOption (s : MarketDataState F) (r : Registration F) : MarketDataState F where
  options := orInsert s.options r.key r.tick
  byInstrument := s.byInstrument.insert r.instrumentId r.key
  keyed k t h := by
    rw [lookup_orInsert] at h
    by_cases hk : k = r.key
    · rw [if_pos hk] at h
      obtain rfl := Option.some.inj h
      cases hold : s.options.lookup r.key with
      | none =>
          rw [hk]
          rfl
      | some old =>
          rw [hk]
          exact s.keyed r.key old hold
    · rw [if_neg hk] at h
      exact s.keyed k t h
  resolved id k h := by
    rw [lookup_orInsert]
    by_cases hk : k = r.key
    · rw [if_pos hk]
      rfl
    · rw [if_neg hk]
      rcases lookup_insert_eq_some h with ⟨-, hnew⟩ | hold
      · exact absurd hnew hk
      · exact s.resolved id k hold

/-- `option_by_iid`. -/
def optionByIid (s : MarketDataState F) (id : Nat) : Option (OptionTick F) := do
  let k ← s.byInstrument.lookup id
  s.options.lookup k

/-- `option_meta`. -/
def optionMeta (s : MarketDataState F) (id : Nat) : Option (String × F × Date × Right) := do
  let k ← s.byInstrument.lookup id
  let t ← s.options.lookup k
  return (k.product, t.strike, t.expiry, t.right)

end MarketDataState

open MarketDataState

/-! ## The two lookups -/

/-- The leg holds the id, and its product is one that `handle_fill` looks at. -/
def Holds (s : MarketDataState F) (products : List String) (id : Nat) (k : PositionKey) : Prop :=
  (∃ t, s.options.lookup k = some t ∧ t.instrumentId = some id) ∧ k.product ∈ products

/-- In every order of the products and of the legs, `handle_fill` finds for every id
the leg that `option_meta` and `option_by_iid` resolve. -/
def RoutesAgree (products : List String) (s : MarketDataState F) : Prop :=
  ∀ (id : Nat) (products' : List String) (options' : OptionTicks F),
    products'.Perm products → options'.entries.Perm s.options.entries →
      matched products' options' id = s.optionMeta id ∧
        (matched products' options' id).map (·.2) =
          (s.optionByIid id).map fun t => (t.strike, t.expiry, t.right)

omit [F64 F] in
theorem mem_optionsForProduct {options : OptionTicks F} {product : String} {t : OptionTick F} :
    t ∈ optionsForProduct options product ↔
      ∃ k, options.lookup k = some t ∧ k.product = product := by
  simp only [optionsForProduct, List.mem_map, List.mem_filter, decide_eq_true_iff]
  constructor
  · rintro ⟨e, ⟨he, hproduct⟩, rfl⟩
    exact ⟨e.1, AList.mem_lookup_iff.mpr he, hproduct⟩
  · rintro ⟨k, hk, hproduct⟩
    exact ⟨⟨k, t⟩, ⟨AList.mem_lookup_iff.mp hk, hproduct⟩, rfl⟩

omit [F64 F] in
/-- What `handle_fill` finds is a leg that holds the id. -/
theorem matched_eq_some {products : List String} {options : OptionTicks F} {id : Nat}
    {leg : String × F × Date × Right} (h : matched products options id = some leg) :
    ∃ k t, options.lookup k = some t ∧ t.instrumentId = some id ∧ k.product ∈ products ∧
      leg = (k.product, t.strike, t.expiry, t.right) := by
  obtain ⟨product, hproduct, h⟩ := List.exists_of_findSome?_eq_some h
  obtain ⟨t, ht, h⟩ := List.exists_of_findSome?_eq_some h
  obtain ⟨k, hk, rfl⟩ := mem_optionsForProduct.mp ht
  split at h
  · rename_i hid
    exact ⟨k, t, hk, hid, hproduct, (Option.some.inj h).symm⟩
  · cases h

omit [F64 F] in
/-- It finds nothing only if there is none. -/
theorem matched_eq_none {products : List String} {options : OptionTicks F} {id : Nat}
    (h : matched products options id = none) {k : PositionKey} {t : OptionTick F}
    (ht : options.lookup k = some t) (hid : t.instrumentId = some id) :
    k.product ∉ products := by
  intro hproduct
  have hscan := List.findSome?_eq_none_iff.mp h k.product hproduct
  have hleg := List.findSome?_eq_none_iff.mp hscan t (mem_optionsForProduct.mpr ⟨k, ht, rfl⟩)
  rw [if_pos hid] at hleg
  cases hleg

omit [F64 F] in
/-- A leg that holds the id, of a product that `handle_fill` looks at, is the first that it
finds in some order. -/
theorem exists_order_matched {products : List String} {options : OptionTicks F} {id : Nat}
    {k : PositionKey} {t : OptionTick F} (ht : options.lookup k = some t)
    (hid : t.instrumentId = some id) (hproduct : k.product ∈ products) :
    ∃ products' options', products'.Perm products ∧
      options'.entries.Perm options.entries ∧
      matched products' options' id = some (k.product, t.strike, t.expiry, t.right) := by
  obtain ⟨front, back, hentries⟩ := List.append_of_mem (AList.mem_lookup_iff.mp ht)
  have hperm : (⟨k, t⟩ :: (front ++ back)).Perm options.entries := by
    rw [hentries]
    exact List.perm_middle.symm
  let reordered : OptionTicks F :=
    ⟨⟨k, t⟩ :: (front ++ back), (List.perm_nodupKeys hperm).mpr options.nodupKeys⟩
  refine ⟨k.product :: products.erase k.product, reordered,
    (List.perm_cons_erase hproduct).symm, hperm, ?_⟩
  simp [matched, optionsForProduct, reordered, hid]

theorem optionMeta_eq_some_iff {s : MarketDataState F} {id : Nat}
    {leg : String × F × Date × Right} :
    s.optionMeta id = some leg ↔ ∃ k t, s.byInstrument.lookup id = some k ∧
      s.options.lookup k = some t ∧ leg = (k.product, t.strike, t.expiry, t.right) := by
  simp only [optionMeta, Option.bind_eq_bind, Option.bind_eq_some_iff]
  constructor
  · rintro ⟨k, hk, t, ht, hleg⟩
    exact ⟨k, t, hk, ht, (Option.some.inj hleg).symm⟩
  · rintro ⟨k, t, hk, ht, rfl⟩
    exact ⟨k, hk, t, ht, rfl⟩

/-- The two lookups by id read one leg. -/
theorem optionMeta_map_snd (s : MarketDataState F) (id : Nat) :
    (s.optionMeta id).map (·.2) =
      (s.optionByIid id).map fun t => (t.strike, t.expiry, t.right) := by
  simp only [optionMeta, optionByIid, Option.bind_eq_bind]
  cases s.byInstrument.lookup id with
  | none => rfl
  | some k =>
      simp only [Option.bind_some]
      cases s.options.lookup k with
      | none => rfl
      | some t => rfl

/-- The stored leg determines its key. -/
theorem key_of_leg {s : MarketDataState F} {k k' : PositionKey} {t t' : OptionTick F}
    (h : s.options.lookup k = some t) (h' : s.options.lookup k' = some t')
    (hleg : (k.product, t.strike, t.expiry, t.right) =
      (k'.product, t'.strike, t'.expiry, t'.right)) : k = k' := by
  simp only [Prod.mk.injEq] at hleg
  obtain ⟨hproduct, hstrike, hexpiry, hright⟩ := hleg
  rw [← s.keyed k t h, ← s.keyed k' t' h', hproduct, hstrike, hexpiry, hright]

/-- **The two lookups** agree in every order just if the legs that hold an id are
those that the map gives for it. -/
theorem routesAgree_iff (products : List String) (s : MarketDataState F) :
    RoutesAgree products s ↔
      ∀ id k, Holds s products id k ↔ s.byInstrument.lookup id = some k := by
  constructor
  · intro h id k
    constructor
    · rintro ⟨⟨t, ht, hid⟩, hproduct⟩
      -- an order in which the leg comes first
      obtain ⟨products', options', hproducts, hoptions, hfound⟩ :=
        exists_order_matched ht hid hproduct
      rw [(h id products' options' hproducts hoptions).1] at hfound
      obtain ⟨k', t', hk', ht', hleg⟩ := optionMeta_eq_some_iff.mp hfound
      obtain rfl := key_of_leg ht ht' hleg
      exact hk'
    · intro hk
      obtain ⟨t, ht⟩ := Option.isSome_iff_exists.mp (s.resolved id k hk)
      have hmeta : s.optionMeta id = some (k.product, t.strike, t.expiry, t.right) :=
        optionMeta_eq_some_iff.mpr ⟨k, t, hk, ht, rfl⟩
      have hfound := (h id products s.options (.refl _) (.refl _)).1.trans hmeta
      obtain ⟨k', t', ht', hid', hproduct', hleg⟩ := matched_eq_some hfound
      obtain rfl := key_of_leg ht ht' hleg
      exact ⟨⟨t', ht', hid'⟩, hproduct'⟩
  · intro h id products' options' hproducts hoptions
    have hlookup (k : PositionKey) : options'.lookup k = s.options.lookup k :=
      AList.perm_lookup hoptions
    have hsame : matched products' options' id = s.optionMeta id := by
      cases hfound : matched products' options' id with
      | some leg =>
          obtain ⟨k, t, ht, hid, hproduct, rfl⟩ := matched_eq_some hfound
          rw [hlookup] at ht
          have hk := (h id k).mp ⟨⟨t, ht, hid⟩, hproducts.mem_iff.mp hproduct⟩
          exact (optionMeta_eq_some_iff.mpr ⟨k, t, hk, ht, rfl⟩).symm
      | none =>
          cases hmeta : s.optionMeta id with
          | none => rfl
          | some leg =>
              obtain ⟨k, -, hk, -, -⟩ := optionMeta_eq_some_iff.mp hmeta
              obtain ⟨⟨t, ht, hid⟩, hproduct⟩ := (h id k).mpr hk
              rw [← hlookup] at ht
              exact absurd (hproducts.mem_iff.mpr hproduct) (matched_eq_none hfound ht hid)
    refine ⟨hsame, ?_⟩
    rw [hsame]
    exact optionMeta_map_snd s id

/-! ## Registrations -/

/-- The registration is of a new leg under a new id, for a product that `handle_fill`
looks at; or it repeats what is registered. -/
def Fresh (products : List String) (s : MarketDataState F) (r : Registration F) : Prop :=
  s.byInstrument.lookup r.instrumentId = some r.key ∨
    s.options.lookup r.key = none ∧ s.byInstrument.lookup r.instrumentId = none ∧
      r.key.product ∈ products

theorem holds_registerOption (products : List String) (s : MarketDataState F)
    (r : Registration F) (id : Nat) (k : PositionKey) :
    Holds (s.registerOption r) products id k ↔
      Holds s products id k ∨
        s.options.lookup r.key = none ∧ k = r.key ∧ id = r.instrumentId ∧ k.product ∈ products := by
  have hlookup : (s.registerOption r).options.lookup k =
      if k = r.key then some ((s.options.lookup r.key).getD r.tick) else s.options.lookup k :=
    lookup_orInsert s.options r.key r.tick k
  unfold Holds
  rw [hlookup]
  by_cases hk : k = r.key
  · subst hk
    cases hold : s.options.lookup r.key with
    | none =>
        have hid : r.tick.instrumentId = some id ↔ id = r.instrumentId := by
          simp [Registration.tick, eq_comm]
        simp [hid]
    | some old => simp
  · simp [hk]

/-- A fresh registration leaves the map with the legs that hold each id. -/
theorem holds_registerOption_of_fresh {products : List String} {s : MarketDataState F}
    (h : ∀ id k, Holds s products id k ↔ s.byInstrument.lookup id = some k)
    {r : Registration F} (hfresh : Fresh products s r) (id : Nat) (k : PositionKey) :
    Holds (s.registerOption r) products id k ↔
      (s.registerOption r).byInstrument.lookup id = some k := by
  show _ ↔ (s.byInstrument.insert r.instrumentId r.key).lookup id = some k
  rw [holds_registerOption, h id k]
  rcases hfresh with hrepeat | ⟨hnew, hunused, hproduct⟩
  · have hstored := s.resolved r.instrumentId r.key hrepeat
    have hold : s.options.lookup r.key ≠ none := fun hnone => by simp [hnone] at hstored
    have hsame : (s.byInstrument.insert r.instrumentId r.key).lookup id =
        s.byInstrument.lookup id := by
      by_cases hid : id = r.instrumentId
      · rw [hid, AList.lookup_insert, hrepeat]
      · rw [AList.lookup_insert_ne hid]
    rw [hsame]
    exact or_iff_left fun h => hold h.1
  · by_cases hid : id = r.instrumentId
    · subst hid
      rw [hunused, AList.lookup_insert]
      simp only [hnew, true_and, reduceCtorEq, false_or, Option.some.injEq]
      constructor
      · rintro ⟨rfl, -⟩
        rfl
      · rintro rfl
        exact ⟨rfl, hproduct⟩
    · rw [AList.lookup_insert_ne hid]
      exact or_iff_left fun h => hid h.2.2.1

theorem routesAgree_registerOption_iff (products : List String) (s : MarketDataState F)
    (r : Registration F) (h : RoutesAgree products s) :
    RoutesAgree products (s.registerOption r) ↔ Fresh products s r := by
  rw [routesAgree_iff] at h ⊢
  refine ⟨fun hall => ?_, holds_registerOption_of_fresh h⟩
  simp only [holds_registerOption] at hall
  have hown := (hall r.instrumentId r.key).mpr (AList.lookup_insert s.byInstrument)
  cases hold : s.options.lookup r.key with
  | some old =>
      refine .inl ((h r.instrumentId r.key).mp (hown.resolve_right fun hnew => ?_))
      rw [hold] at hnew
      cases hnew.1
  | none =>
      have hproduct : r.key.product ∈ products := by
        rcases hown with hheld | hnew
        · exact hheld.2
        · exact hnew.2.2.2
      refine .inr ⟨hold, ?_, hproduct⟩
      cases hid : s.byInstrument.lookup r.instrumentId with
      | none => rfl
      | some k =>
          have hk := (hall r.instrumentId k).mp (.inl ((h r.instrumentId k).mpr hid))
          obtain rfl : r.key = k :=
            Option.some.inj ((AList.lookup_insert s.byInstrument).symm.trans hk)
          have hstored := s.resolved r.instrumentId r.key hid
          rw [hold] at hstored
          cases hstored

/-- **Routing agreement** holds after every registration of a sequence exactly if each
of them is fresh. -/
theorem routing_agrees_iff (products : List String) (registrations : List (Registration F)) :
    (∀ front, front <+: registrations → RoutesAgree products (run registerOption .new front)) ↔
      Meets registerOption (Fresh products) .new registrations := by
  refine run_invariant_iff_meets (RoutesAgree products)
    (routesAgree_registerOption_iff products) ?_ registrations
  rw [routesAgree_iff]
  intro id k
  simp [Holds, new]

/-- The call at 6.05, under an id. -/
def callUnder (instrumentId : Nat) : Registration ℚ where
  product := "HG"
  strike := 121 / 20
  expiry := ⟨2026, 6, 26⟩
  right := .call
  instrumentId

/-- The call is registered again under a new id: ticks for it are taken, and a fill is
not. -/
theorem reregistered_leg_not_found :
    let s := run registerOption .new [callUnder 100, callUnder 200]
    matched ["HG"] s.options 200 = none ∧
      s.optionMeta 200 = some ("HG", 121 / 20, ⟨2026, 6, 26⟩, .call) ∧
      ¬ RoutesAgree ["HG"] s := by
  intro s
  refine ⟨by decide +kernel, by decide +kernel, fun h => ?_⟩
  have hsame := (h 200 ["HG"] s.options (.refl _) (.refl _)).1
  revert hsame
  decide +kernel

end Corsair.Ports.InstrumentRouting
