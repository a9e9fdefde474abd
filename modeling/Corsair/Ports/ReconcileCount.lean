import Mathlib.Algebra.BigOperators.Group.Finset.Piecewise
import Corsair.Ports.OptionsReconcile

/-!
# What the options reconcile reports

`reconcile_options_with_broker_positions` counts the legs that it corrects in two
loops: over the broker's legs, where a leg that is missing locally counts as zero,
and over the local legs that the broker does not have, all of which it counts.  A
local leg of zero contracts is therefore counted when it goes, and a broker leg of
zero contracts is not counted when it comes.

The reconcile knows a leg by a text and the book by a position key.  What is said
here is said for any key that tells the legs at hand apart as the text does; for
the text itself this is no condition.

## Main results

* `countChanges_eq` — what the two loops count.
* `reconciles_iff` — when the reconcile does and reports what it should.
-/

namespace Corsair.Ports.ReconcileCount

open Corsair.Verified
open Corsair.Verified.Table
open Corsair.Ports.BrokerApi
open Corsair.Ports.PositionBook
open Corsair.Ports.OptionsReconcile
open Corsair.Ports.HedgePlacement (callOfDelta hgBook)

variable {F : Type} [F64 F] {κ : Type} [DecidableEq κ]

/-! ## Maps from keys to quantities -/

/-- The quantity of a key in a list of legs collected into a map. -/
def qtyBy (key : Leg F → κ) (legs : List (Leg F)) (k : κ) : Option Int :=
  ((legs.filter (key · = k)).getLast?).map (·.quantity)

/-- The keys whose quantities differ, an absent one counted as zero. -/
def differing (key : Leg F → κ) (legs legs' : List (Leg F)) : Finset κ :=
  ((legs ++ legs').map key).toFinset.filter fun k =>
    (qtyBy key legs k).getD 0 ≠ (qtyBy key legs' k).getD 0

/-- The keys with a leg of zero contracts in the one list and none in the other. -/
def stray (key : Leg F → κ) (legs legs' : List (Leg F)) : Finset κ :=
  ((legs ++ legs').map key).toFinset.filter fun k =>
    qtyBy key legs k = some 0 ∧ qtyBy key legs' k = none

/-- The key tells the legs apart as the text does. -/
def Alike (key : Leg F → κ) (legs : List (Leg F)) : Prop :=
  ∀ a ∈ legs, ∀ b ∈ legs, key a = key b ↔ legText a = legText b

omit [F64 F] in
theorem qtyBy_eq_none_iff {key : Leg F → κ} {legs : List (Leg F)} {k : κ} :
    qtyBy key legs k = none ↔ ∀ leg ∈ legs, key leg ≠ k := by
  simp [qtyBy]

theorem qtyBy_alike {key : Leg F → κ} {legs all : List (Leg F)} (halike : Alike key all)
    (hsub : legs ⊆ all) {x : Leg F} (hx : x ∈ all) :
    qtyBy key legs (key x) = qtyBy legText legs (legText x) := by
  have hsame : legs.filter (key · = key x) = legs.filter (legText · = legText x) :=
    List.filter_congr fun y hy => by
      simp only [decide_eq_decide]
      exact halike y (hsub hy) x hx
  rw [qtyBy, qtyBy, hsame]

omit [F64 F] in
/-- What holds of the quantities at every key holds at the keys of the legs, if it
holds of an absent one. -/
theorem forall_qtyBy_iff {key : Leg F → κ} {legs legs' : List (Leg F)}
    {R : Option Int → Option Int → Prop} (hnone : R none none) :
    (∀ k, R (qtyBy key legs k) (qtyBy key legs' k)) ↔
      ∀ x ∈ legs ++ legs', R (qtyBy key legs (key x)) (qtyBy key legs' (key x)) := by
  refine ⟨fun h x _ => h (key x), fun h k => ?_⟩
  by_cases hk : ∃ x ∈ legs ++ legs', key x = k
  · obtain ⟨x, hx, rfl⟩ := hk
    exact h x hx
  · have hleft : qtyBy key legs k = none :=
      qtyBy_eq_none_iff.mpr fun x hx hkey => hk ⟨x, List.mem_append_left _ hx, hkey⟩
    have hright : qtyBy key legs' k = none :=
      qtyBy_eq_none_iff.mpr fun x hx hkey => hk ⟨x, List.mem_append_right _ hx, hkey⟩
    rw [hleft, hright]
    exact hnone

section Transfer

variable {key : Leg F → κ} {legs legs' : List (Leg F)}

theorem forall_qtyBy_alike (halike : Alike key (legs ++ legs'))
    {R : Option Int → Option Int → Prop} (hnone : R none none) :
    (∀ k, R (qtyBy key legs k) (qtyBy key legs' k)) ↔
      ∀ text, R (qtyBy legText legs text) (qtyBy legText legs' text) := by
  rw [forall_qtyBy_iff hnone, forall_qtyBy_iff hnone]
  refine forall₂_congr fun x hx => ?_
  rw [qtyBy_alike halike (List.subset_append_left _ _) hx,
    qtyBy_alike halike (List.subset_append_right _ _) hx]

theorem noDrift_iff (halike : Alike key (legs ++ legs')) :
    NoDrift legs legs' ↔ ∀ k, qtyBy key legs k = qtyBy key legs' k :=
  (forall_qtyBy_alike halike (R := (· = ·)) rfl).symm

theorem card_differing_alike (halike : Alike key (legs ++ legs')) :
    (differing legText legs legs').card = (differing key legs legs').card := by
  refine card_filter_alike (fun a ha b hb => (halike a ha b hb).symm) fun x hx => ?_
  rw [qtyBy_alike halike (List.subset_append_left _ _) hx,
    qtyBy_alike halike (List.subset_append_right _ _) hx]

theorem card_stray_alike (halike : Alike key (legs ++ legs')) :
    (stray legText legs legs').card = (stray key legs legs').card := by
  refine card_filter_alike (fun a ha b hb => (halike a ha b hb).symm) fun x hx => ?_
  rw [qtyBy_alike halike (List.subset_append_left _ _) hx,
    qtyBy_alike halike (List.subset_append_right _ _) hx]

end Transfer

/-! ## What is counted -/

theorem lookup_quantities (legs : List (Leg F)) (text : String) :
    (quantities legs).lookup text = qtyBy legText legs text := lookup_tabulate _ _ _ _

theorem mem_texts_of_mem_keys {legs : List (Leg F)} {text : String}
    (h : text ∈ (quantities legs).keys) : text ∈ legs.map legText := by
  have hsome := AList.lookup_isSome.mpr (AList.mem_keys.mpr h)
  rw [lookup_quantities] at hsome
  by_contra hnone
  have habsent : qtyBy legText legs text = none :=
    qtyBy_eq_none_iff.mpr fun leg hleg htext => hnone (List.mem_map.mpr ⟨leg, hleg, htext⟩)
  rw [habsent] at hsome
  cases hsome

/-- **The two loops** count the texts whose quantities differ, and the local legs of
zero contracts that the broker does not have. -/
theorem countChanges_eq (legs legs' : List (Leg F)) :
    countChanges (quantities legs) (quantities legs') =
      (differing legText legs legs').card + (stray legText legs legs').card := by
  have hbefore (text : String) (h : text ∈ (quantities legs).keys) :
      text ∈ ((legs ++ legs').map legText).toFinset := by
    rw [List.mem_toFinset, List.map_append]
    exact List.mem_append_left _ (mem_texts_of_mem_keys h)
  have hafter (text : String) (h : text ∈ (quantities legs').keys) :
      text ∈ ((legs ++ legs').map legText).toFinset := by
    rw [List.mem_toFinset, List.map_append]
    exact List.mem_append_right _ (mem_texts_of_mem_keys h)
  rw [countChanges,
    length_filter_entries _ (fun text v => decide (((quantities legs).lookup text).getD 0 ≠ v))
      hafter,
    length_filter_entries _ (fun text _ => ((quantities legs').lookup text).isNone) hbefore,
    differing, stray]
  simp only [lookup_quantities, Finset.card_filter]
  rw [← Finset.sum_add_distrib, ← Finset.sum_add_distrib]
  refine Finset.sum_congr rfl fun text _ => ?_
  cases hlocal : qtyBy legText legs text with
  | none =>
      cases hbroker : qtyBy legText legs' text with
      | none => simp
      | some q => simp
  | some q =>
      cases hbroker : qtyBy legText legs' text with
      | none =>
          by_cases hzero : q = 0
          · simp [hzero]
          · simp [hzero]
      | some q' => simp

/-! ## The reconcile -/

/-- The reconcile does and reports what it should, by a key: the book then has the
broker's quantities; it reports nothing just if it had them before, and else the number
of keys that differ, an absent one counted as zero; and a repeated call does nothing. -/
structure Reconciles (key : Leg F → κ) (book : PortfolioState F)
    (positions : List (BrokerPosition F)) : Prop where
  after : ∀ k, qtyBy key (reconcileOptions book positions).2.positions k =
    qtyBy key (toInsert book positions) k
  none_iff : (reconcileOptions book positions).1 = 0 ↔
    ∀ k, qtyBy key book.positions k = qtyBy key (toInsert book positions) k
  count : (¬ ∀ k, qtyBy key book.positions k = qtyBy key (toInsert book positions) k) →
    (reconcileOptions book positions).1 =
      (differing key book.positions (toInsert book positions)).card
  again : reconcileOptions (reconcileOptions book positions).2 positions =
    (0, (reconcileOptions book positions).2)

/-- No local leg of zero contracts is missing at the broker; and none of the broker's is
missing locally, unless another key differs. -/
structure NoStrayZero (key : Leg F → κ) (legs legs' : List (Leg F)) : Prop where
  held : ∀ leg ∈ legs, qtyBy key legs (key leg) = some 0 → ∃ leg' ∈ legs', key leg' = key leg
  sent : (∀ k, (qtyBy key legs k).getD 0 = (qtyBy key legs' k).getD 0) →
    ∀ leg' ∈ legs', qtyBy key legs' (key leg') = some 0 → ∃ leg ∈ legs, key leg = key leg'

/-- A reconcile leaves the legs that it would insert. -/
theorem toInsert_reconcileOptions (book : PortfolioState F)
    (positions : List (BrokerPosition F)) :
    toInsert (reconcileOptions book positions).2 positions = toInsert book positions := by
  rw [toInsert, products_reconcileOptions]
  rfl

/-- An immediately repeated reconcile does nothing. -/
theorem reconcileOptions_again (book : PortfolioState F) (positions : List (BrokerPosition F)) :
    reconcileOptions (reconcileOptions book positions).2 positions =
      (0, (reconcileOptions book positions).2) := by
  apply reconcileOptions_of_noDrift
  rw [toInsert_reconcileOptions]
  rcases positions_reconcileOptions book positions with ⟨hnone, hbook⟩ | ⟨-, hlegs⟩
  · rw [hbook]
    exact hnone
  · rw [hlegs]
    exact fun _ => rfl

section Stray

variable {key : Leg F → κ} {legs legs' : List (Leg F)}

omit [F64 F] in
theorem exists_key_iff {k : κ} : (∃ leg ∈ legs, key leg = k) ↔ qtyBy key legs k ≠ none := by
  rw [ne_eq, qtyBy_eq_none_iff]
  simp

omit [F64 F] in
theorem forall_zero_iff :
    (∀ leg ∈ legs, qtyBy key legs (key leg) = some 0 → ∃ leg' ∈ legs', key leg' = key leg) ↔
      ∀ k, qtyBy key legs k = some 0 → qtyBy key legs' k ≠ none := by
  simp only [exists_key_iff]
  refine ⟨fun h k hzero => ?_, fun h leg _ => h (key leg)⟩
  obtain ⟨leg, hleg, rfl⟩ := exists_key_iff.mpr (by rw [hzero]; simp)
  exact h leg hleg hzero

omit [F64 F] in
theorem stray_eq_empty_iff :
    stray key legs legs' = ∅ ↔ ∀ k, qtyBy key legs k = some 0 → qtyBy key legs' k ≠ none := by
  simp only [stray, Finset.filter_eq_empty_iff, List.mem_toFinset, not_and]
  refine ⟨fun h k hzero => ?_, fun h k _ => h k⟩
  obtain ⟨leg, hleg, rfl⟩ := exists_key_iff.mpr (by rw [hzero]; simp)
  exact h (List.mem_map_of_mem (List.mem_append_left _ hleg)) hzero

omit [F64 F] in
theorem differing_eq_empty_iff :
    differing key legs legs' = ∅ ↔
      ∀ k, (qtyBy key legs k).getD 0 = (qtyBy key legs' k).getD 0 := by
  rw [forall_qtyBy_iff (R := fun q q' => q.getD 0 = q'.getD 0) rfl]
  simp only [differing, Finset.filter_eq_empty_iff, List.mem_toFinset, not_not]
  refine ⟨fun h leg hleg => h (List.mem_map_of_mem hleg), fun h k hk => ?_⟩
  obtain ⟨leg, hleg, rfl⟩ := List.mem_map.mp hk
  exact h leg hleg

omit [F64 F] in
/-- Where every key has the quantity of the broker, no key is missing. -/
theorem NoStrayZero.of_same (h : ∀ k, qtyBy key legs k = qtyBy key legs' k) :
    NoStrayZero key legs legs' := by
  constructor
  · rw [forall_zero_iff]
    intro k hzero
    rw [← h, hzero]
    simp
  · rw [forall_zero_iff]
    intro _ k hzero
    rw [h, hzero]
    simp

end Stray

/-- What a reconcile reports where there is a difference: the keys that differ, and the
legs of zero contracts that are gone at the broker. -/
theorem count_reconcileOptions {key : Leg F → κ} {book : PortfolioState F}
    {positions : List (BrokerPosition F)}
    (halike : Alike key (book.positions ++ toInsert book positions))
    (hdrift : ¬ NoDrift book.positions (toInsert book positions)) :
    (reconcileOptions book positions).1 =
      (differing key book.positions (toInsert book positions)).card +
        (stray key book.positions (toInsert book positions)).card := by
  rw [reconcileOptions_of_drift hdrift, countChanges_eq, card_differing_alike halike,
    card_stray_alike halike]

/-- Quantities that are the same with an absent one counted as zero are the same, if
neither is a zero where the other is absent. -/
theorem eq_of_same_quantity {q q' : Option Int} (hq : q = some 0 → q' ≠ none)
    (hq' : q' = some 0 → q ≠ none) (hsame : q.getD 0 = q'.getD 0) : q = q' := by
  cases q with
  | none =>
      cases q' with
      | none => rfl
      | some n =>
          have hzero : 0 = n := hsame
          exact absurd rfl (hq' (congrArg some hzero.symm))
  | some n =>
      cases q' with
      | none =>
          have hzero : n = 0 := hsame
          exact absurd rfl (hq (congrArg some hzero))
      | some n' => exact congrArg some hsame

/-- **When the reconcile does and reports what it should**: exactly where no leg of
zero contracts is on one side only. -/
theorem reconciles_iff (key : Leg F → κ) (book : PortfolioState F)
    (positions : List (BrokerPosition F))
    (halike : Alike key (book.positions ++ toInsert book positions)) :
    Reconciles key book positions ↔
      NoStrayZero key book.positions (toInsert book positions) := by
  have hagain := reconcileOptions_again book positions
  by_cases hdrift : NoDrift book.positions (toInsert book positions)
  · have hequal := (noDrift_iff halike).mp hdrift
    have hunchanged := reconcileOptions_of_noDrift hdrift
    refine iff_of_true ⟨?_, ?_, ?_, hagain⟩ (.of_same hequal)
    · rw [hunchanged]
      exact hequal
    · rw [hunchanged]
      exact iff_of_true rfl hequal
    · exact fun hne => absurd hequal hne
  · have hne := mt (noDrift_iff halike).mpr hdrift
    have hcounted := count_reconcileOptions halike hdrift
    have hafter : (reconcileOptions book positions).2.positions = toInsert book positions := by
      rw [reconcileOptions_of_drift hdrift]
      rfl
    constructor
    · intro h
      have hstray : (stray key book.positions (toInsert book positions)).card = 0 := by
        have hcount := h.count hne
        omega
      refine ⟨forall_zero_iff.mpr (stray_eq_empty_iff.mp (Finset.card_eq_zero.mp hstray)),
        fun hsame => ?_⟩
      have hdiffering := Finset.card_eq_zero.mpr (differing_eq_empty_iff.mpr hsame)
      exact absurd (h.none_iff.mp (by omega)) hne
    · intro h
      have hheld := forall_zero_iff.mp h.held
      have hstray := Finset.card_eq_zero.mpr (stray_eq_empty_iff.mpr hheld)
      refine ⟨?_, ?_, fun _ => by omega, hagain⟩
      · rw [hafter]
        exact fun _ => rfl
      · refine iff_of_false (fun hnone => hne ?_) hne
        have hdiffering : (differing key book.positions (toInsert book positions)).card = 0 := by
          omega
        have hsame := differing_eq_empty_iff.mp (Finset.card_eq_zero.mp hdiffering)
        have hsent := forall_zero_iff.mp (h.sent hsame)
        exact fun k => eq_of_same_quantity (hheld k) (hsent k) (hsame k)

/-- The call and a stale put against the call alone, by position keys. -/
theorem reconciles_stale_put :
    let book := hgBook.replacePositions [callOfDelta, stalePut]
    Reconciles Leg.key book [callPosition] ↔
      NoStrayZero Leg.key book.positions (toInsert book [callPosition]) :=
  reconciles_iff Leg.key (hgBook.replacePositions [callOfDelta, stalePut]) [callPosition] (by
    unfold Alike
    decide +kernel)

/-- A strike between two hundredths of a cent has the text of the one and the key of
the other. -/
example :
    let leg := { callOfDelta with strike := 1 / 32 }
    legText leg = legText { callOfDelta with strike := 312 / 10000 } ∧
      leg.key = Leg.key { callOfDelta with strike := 313 / 10000 } := by
  decide +kernel

/-- Half a contract of the call is cast to none; a reconcile stores it. -/
def halfCall : BrokerPosition ℚ := { callPosition with quantity := 0 }

/-- When the broker has no position any more, the leg of no contracts is counted as a
change. -/
theorem zero_leg_counted :
    let book := (reconcileOptions hgBook [halfCall]).2
    book.positions.map (·.quantity) = [0] ∧ (reconcileOptions book []).1 = 1 ∧
      differing legText book.positions (toInsert book []) = ∅ ∧
      differing Leg.key book.positions (toInsert book []) = ∅ ∧
      ¬ Reconciles legText book [] ∧ ¬ Reconciles Leg.key book [] := by
  intro book
  refine ⟨by decide +kernel, by decide +kernel, by decide +kernel, by decide +kernel,
    fun h => ?_, fun h => ?_⟩
  · have hcount := h.count fun hall => absurd (hall (legText callOfDelta)) (by decide +kernel)
    revert hcount
    decide +kernel
  · have hcount := h.count fun hall => absurd (hall callOfDelta.key) (by decide +kernel)
    revert hcount
    decide +kernel

end Corsair.Ports.ReconcileCount
