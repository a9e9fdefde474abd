import Corsair.Verified.ListIndex
import Corsair.Ports.PositionAgreement

/-!
# The index of the option book

The book keeps its legs in a vector and finds them through an index from keys to
places.  A fill keeps the two in step.  The boot seed and the reconcile replace the
legs by the broker's, whichever those are: the position cache is keyed by account
and contract, and nothing stops two of its entries from being one leg, or a leg of
no contracts.

## Main results

* `addFill_cases` — what a fill does to the legs, the index and the realized P&L.
* `wellIndexed_addFill` — a fill keeps the book well indexed.
* `wellIndexed_iff_meets` — a run keeps it so exactly if it replaces the book by
  distinct legs that hold something.
-/

namespace Corsair.Ports.PositionIndex

open Corsair.Verified
open Corsair.Verified.Runs
open Corsair.Verified.ListIndex
open Corsair.Ports.Portfolio (Right Date)
open Corsair.Ports.BrokerApi
open Corsair.Ports.NativeDecoder (TextFormats)
open Corsair.Ports.PositionBook
open Corsair.Ports.HedgeManager
open Corsair.Ports.HedgeReconcile (reconcileOne)
open Corsair.Ports.OptionsReconcile
open Corsair.Ports.PositionAgreement (PositionMsg PositionCache routePosition positions callHeld)
open Corsair.Ports.RestingSweep (plainFormats)

variable {F : Type} [F64 F]

/-- `get_position`. -/
def getPosition (book : PortfolioState F) (product : String) (strike : F) (expiry : Date)
    (right : Right) : Option (Leg F) :=
  (book.index.lookup (makeKey product strike expiry right)).bind (book.positions[·]?)

/-! ## The boot seed -/

/-- `hedge_seeds`. -/
def hedgeSeeds (products : List String) (positions : List (BrokerPosition F)) :
    List (BrokerPosition F) :=
  positions.filter fun pos =>
    pos.contract.symbol ∈ products ∧ pos.contract.kind = .future ∧ pos.quantity ≠ 0

/-- `seed_positions_from_broker`: the book and the managers. -/
def seedPositionsFromBroker (book : PortfolioState F) (hedge : List (HedgeManager F))
    (positions : List (BrokerPosition F)) (now : Nat) :
    PortfolioState F × List (HedgeManager F) :=
  (book.replacePositions (toInsert book positions),
    (hedgeSeeds book.products positions).foldl (reconcileOne now) hedge)

/-! ## The invariant -/

/-- The index sends each key to its only leg, every leg holds something, and
`get_position` finds what is stored. -/
structure WellIndexed (book : PortfolioState F) : Prop where
  unique : (book.positions.map Leg.key).Nodup
  exact : Indexes Leg.key book.positions book.index
  nonzero : ∀ leg ∈ book.positions, leg.quantity ≠ 0
  found : ∀ product strike expiry right,
    (getPosition book product strike expiry right).isSome ↔
      ∃ leg ∈ book.positions, leg.key = makeKey product strike expiry right

/-- Legs with keys of their own that hold something. -/
def Distinct (legs : List (Leg F)) : Prop :=
  (legs.map Leg.key).Nodup ∧ ∀ leg ∈ legs, leg.quantity ≠ 0

instance (legs : List (Leg F)) : Decidable (Distinct legs) := by
  unfold Distinct
  infer_instance

theorem getPosition_eq_some_iff {book : PortfolioState F}
    (hexact : Indexes Leg.key book.positions book.index) {product : String} {strike : F}
    {expiry : Date} {right : Right} {leg : Leg F} :
    getPosition book product strike expiry right = some leg ↔
      leg ∈ book.positions ∧ leg.key = makeKey product strike expiry right := by
  unfold getPosition
  rw [Option.bind_eq_some_iff]
  constructor
  · rintro ⟨i, hi, hleg⟩
    obtain ⟨other, hother, hkey⟩ := (hexact _ i).mp hi
    obtain rfl := Option.some.inj (hleg.symm.trans hother)
    exact ⟨List.mem_of_getElem? hleg, hkey⟩
  · rintro ⟨hmem, hkey⟩
    obtain ⟨i, hi⟩ := List.mem_iff_getElem?.mp hmem
    exact ⟨i, (hexact _ i).mpr ⟨leg, hi, hkey⟩, hi⟩

/-- What is left to show of a book whose index is exact. -/
theorem WellIndexed.of_exact {book : PortfolioState F}
    (hexact : Indexes Leg.key book.positions book.index)
    (hnonzero : ∀ leg ∈ book.positions, leg.quantity ≠ 0) : WellIndexed book where
  unique := hexact.nodup
  exact := hexact
  nonzero := hnonzero
  found product strike expiry right := by
    rw [Option.isSome_iff_exists]
    exact exists_congr fun leg => getPosition_eq_some_iff hexact

theorem wellIndexed_new (registry : AList fun _ : String => F) :
    WellIndexed (PortfolioState.new registry) :=
  .of_exact indexes_nil (by simp [PortfolioState.new])

/-- **A replacement** leaves the book well indexed just if the new legs are
distinct. -/
theorem wellIndexed_replacePositions_iff (book : PortfolioState F) (legs : List (Leg F)) :
    WellIndexed (book.replacePositions legs) ↔ Distinct legs := by
  constructor
  · intro h
    exact ⟨h.unique, h.nonzero⟩
  · rintro ⟨hnodup, hnonzero⟩
    exact .of_exact (indexes_places_iff.mpr hnodup) hnonzero

/-! ## A fill -/

/-- What a fill does: it merges into the leg of its key, closes it, or opens one. -/
theorem addFill_cases (book : PortfolioState F) (product : String) (strike : F) (expiry : Date)
    (right : Right) {quantity : Int} (hquantity : quantity ≠ 0)
    (fillPrice spreadCaptured spreadCapturedMid : F) :
    let book' := (book.addFill product strike expiry right quantity fillPrice spreadCaptured
      spreadCapturedMid).2
    let key := makeKey product strike expiry right
    let multiplier := (book.registry.lookup product).getD (F64.lit 100 0)
    (∃ i leg, book.find key = some (i, leg) ∧
        book'.realizedPnlPersisted = book.realizedPnlPersisted +
          realizedOnClose leg.quantity leg.avgFillPrice quantity fillPrice multiplier ∧
        (i32 (leg.quantity + quantity) = 0 ∧
            book'.positions = book.positions.eraseIdx i ∧
            book'.index = rebuildIndex book'.positions ∨
          i32 (leg.quantity + quantity) ≠ 0 ∧
            book'.positions = book.positions.modify i (mergedLeg · quantity fillPrice) ∧
            book'.index = book.index)) ∨
      ∃ leg : Leg F, book.find key = none ∧ leg.key = key ∧ leg.product = product ∧
        leg.quantity = quantity ∧ leg.avgFillPrice = fillPrice ∧ leg.multiplier = multiplier ∧
        book'.positions = book.positions ++ [leg] ∧
        book'.index = book.index.insert leg.key book.positions.length ∧
        book'.realizedPnlPersisted = book.realizedPnlPersisted := by
  simp only [PortfolioState.addFill, if_neg hquantity]
  cases hfind : book.find (makeKey product strike expiry right) with
  | none => exact .inr ⟨_, rfl, rfl, rfl, rfl, rfl, rfl, rfl, rfl, rfl⟩
  | some found =>
      obtain ⟨i, leg⟩ := found
      refine .inl ⟨i, leg, rfl, ?_⟩
      by_cases hclosed : i32 (leg.quantity + quantity) = 0
      · simp only [if_pos hclosed]
        exact ⟨rfl, .inl ⟨hclosed, rfl, rfl⟩⟩
      · simp only [if_neg hclosed]
        exact ⟨rfl, .inr ⟨hclosed, rfl, rfl⟩⟩

/-- A book that is well indexed knows no place for a key just where no leg has it. -/
theorem find_eq_none_iff {book : PortfolioState F} (h : WellIndexed book) {key : PositionKey} :
    book.find key = none ↔ ∀ leg ∈ book.positions, leg.key ≠ key := by
  rw [← h.exact.lookup_eq_none_iff]
  unfold PortfolioState.find
  cases hfound : book.index.lookup key with
  | none => simp
  | some i =>
      obtain ⟨leg, hleg, -⟩ := (h.exact key i).mp hfound
      simp [hleg]

/-- **A fill** keeps the book well indexed. -/
theorem wellIndexed_addFill {book : PortfolioState F} (h : WellIndexed book) (product : String)
    (strike : F) (expiry : Date) (right : Right) (quantity : Int)
    (fillPrice spreadCaptured spreadCapturedMid : F) :
    WellIndexed (book.addFill product strike expiry right quantity fillPrice spreadCaptured
      spreadCapturedMid).2 := by
  by_cases hquantity : quantity = 0
  · rw [PortfolioState.addFill, if_pos hquantity]
    exact h
  rcases addFill_cases book product strike expiry right hquantity fillPrice spreadCaptured
      spreadCapturedMid with
    ⟨i, leg, hfind, -, ⟨-, hlegs, hindex⟩ | ⟨hopen, hlegs, hindex⟩⟩ |
      ⟨leg, hfind, hkey, -, hqty, -, -, hlegs, hindex, -⟩
  · -- the leg is closed: those behind it move up, and the index is made anew
    have hsub := List.eraseIdx_sublist book.positions i
    refine .of_exact ?_ ?_
    · rw [hindex, hlegs]
      exact indexes_places_iff.mpr ((hsub.map Leg.key).nodup h.unique)
    · rw [hlegs]
      exact fun leg hleg => h.nonzero leg (hsub.subset hleg)
  · refine .of_exact ?_ ?_
    · rw [hindex, hlegs]
      exact h.exact.modify i fun _ => rfl
    · obtain ⟨-, front, back, hsplit, rfl⟩ := find_spec hfind
      rw [hlegs]
      exact forall_mem_modify h.nonzero (by rw [hsplit]; simp) hopen
  · refine .of_exact ?_ ?_
    · rw [hindex, hlegs]
      refine h.exact.concat fun other hother => ?_
      rw [hkey]
      exact (find_eq_none_iff h).mp hfind other hother
    · rw [hlegs]
      intro other hother
      rcases List.mem_append.mp hother with hold | hnew
      · exact h.nonzero other hold
      · rw [List.mem_singleton.mp hnew, hqty]
        exact hquantity

/-! ## Runs -/

/-- The book, the managers that a seed also sets, and the position cache. -/
structure BookState (F : Type) [F64 F] where
  book : PortfolioState F
  hedge : List (HedgeManager F)
  cache : PositionCache F

/-- A step: a fill is booked, the adapter routes a position, or the book is seeded
or reconciled from the positions in the order in which they are read. -/
inductive BookStep (F : Type)
  | fill (product : String) (strike : F) (expiry : Date) (right : Right) (quantity : Int)
      (fillPrice spreadCaptured spreadCapturedMid : F)
  | position (p : PositionMsg F)
  | seed (order : List Nat) (now : Nat)
  | reconcile (order : List Nat)

/-- One step. -/
def step (fmt : TextFormats F Date) (s : BookState F) : BookStep F → BookState F
  | .fill product strike expiry right quantity fillPrice spreadCaptured spreadCapturedMid =>
      { s with
        book := (s.book.addFill product strike expiry right quantity fillPrice spreadCaptured
          spreadCapturedMid).2 }
  | .position p => { s with cache := routePosition fmt s.cache p }
  | .seed order now =>
      let seeded := seedPositionsFromBroker s.book s.hedge (positions s.cache order) now
      { s with book := seeded.1, hedge := seeded.2 }
  | .reconcile order =>
      { s with book := (reconcileOptions s.book (positions s.cache order)).2 }

/-- The broker's legs are distinct where the step takes them over: at a seed, and at
a reconcile that finds a difference. -/
def TakesDistinct (s : BookState F) : BookStep F → Prop
  | .seed order _ => Distinct (toInsert s.book (positions s.cache order))
  | .reconcile order =>
      NoDrift s.book.positions (toInsert s.book (positions s.cache order)) ∨
        Distinct (toInsert s.book (positions s.cache order))
  | _ => True

theorem wellIndexed_step_iff (fmt : TextFormats F Date) (s : BookState F) (a : BookStep F)
    (h : WellIndexed s.book) : WellIndexed (step fmt s a).book ↔ TakesDistinct s a := by
  cases a with
  | fill product strike expiry right quantity fillPrice spreadCaptured spreadCapturedMid =>
      exact iff_of_true (wellIndexed_addFill h _ _ _ _ _ _ _ _) trivial
  | position p => exact iff_of_true h trivial
  | seed order now => exact wellIndexed_replacePositions_iff s.book _
  | reconcile order =>
      show WellIndexed (reconcileOptions s.book (positions s.cache order)).2 ↔ _
      by_cases hdrift : NoDrift s.book.positions (toInsert s.book (positions s.cache order))
      · rw [reconcileOptions_of_noDrift hdrift]
        exact iff_of_true h (.inl hdrift)
      · rw [reconcileOptions_of_drift hdrift, wellIndexed_replacePositions_iff]
        exact (or_iff_right hdrift).symm

/-- **The index invariant** holds in every state of a run from an empty book,
whatever the position cache holds, exactly if every seed and every reconcile that
finds a difference takes over distinct legs. -/
theorem wellIndexed_iff_meets (fmt : TextFormats F Date) (registry : AList fun _ : String => F)
    (hedge : List (HedgeManager F)) (cache : PositionCache F) (schedule : List (BookStep F)) :
    (∀ front, front <+: schedule →
        WellIndexed (run (step fmt) ⟨.new registry, hedge, cache⟩ front).book) ↔
      Meets (step fmt) TakesDistinct ⟨.new registry, hedge, cache⟩ schedule :=
  run_invariant_iff_meets (fun s : BookState F => WellIndexed s.book) (wellIndexed_step_iff fmt)
    (wellIndexed_new registry) schedule

/-- Two accounts hold the same call.  The seed stores it twice, and the index knows
one of the two. -/
theorem two_accounts_one_key :
    let registry : AList (fun _ : String => ℚ) := AList.insert "HG" 25000 ∅
    let s := run (step plainFormats) ⟨.new registry, [], ∅⟩
      [.position callHeld, .position { callHeld with account := "DU2", position := 2 },
        .seed [0, 1] 0]
    s.book.positions.map (·.quantity) = [2, 1] ∧
      (getPosition s.book "HG" (121 / 20) ⟨2026, 6, 26⟩ .call).map (·.quantity) = some 1 ∧
      ¬ WellIndexed s.book := by
  intro registry s
  refine ⟨by decide +kernel, by decide +kernel, fun h => ?_⟩
  exact absurd h.unique (by decide +kernel)

end Corsair.Ports.PositionIndex
