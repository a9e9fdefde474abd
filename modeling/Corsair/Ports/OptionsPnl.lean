import Corsair.Verified.AverageCost
import Corsair.Ports.PositionIndex

/-!
# The P&L of the option book is conserved

`add_fill` keeps the books of every leg by average cost, and `realized_on_close` adds
what a fill closes to one account for all of them.  Where no `i32` overflows, each
leg runs with a holding of `AverageCost`: the realized P&L and the open legs at any
marks are together what the fills have gained at those marks.

## Main results

* `realizedOnClose_eq`, `mergedLeg_refines` — a fill of a leg is a fill of a holding.
* `option_pnl_conserved` — positions and P&L, after every list of fills.
-/

namespace Corsair.Ports.OptionsPnl

open Corsair.Verified
open Corsair.Verified.AverageCost
open Corsair.Verified.ListIndex
open Corsair.Ports.Portfolio (Right Date)
open Corsair.Ports.BrokerApi
open Corsair.Ports.PositionBook
open Corsair.Ports.PositionIndex

/-! ## One leg -/

/-- A position that a fill of `q` changes without an overflow: all quantities fit, and
so do the absolute values that are taken where the fill is against the position. -/
structure Fits (prev q : Int) : Prop where
  held : -2 ^ 31 ≤ prev ∧ prev < 2 ^ 31
  fill : -2 ^ 31 ≤ q ∧ q < 2 ^ 31
  sum : -2 ^ 31 ≤ prev + q ∧ prev + q < 2 ^ 31
  abs : prev * q < 0 → -2 ^ 31 < prev ∧ -2 ^ 31 < q

instance (prev q : Int) : Decidable (Fits prev q) :=
  decidable_of_iff ((-2 ^ 31 ≤ prev ∧ prev < 2 ^ 31) ∧ (-2 ^ 31 ≤ q ∧ q < 2 ^ 31) ∧
      (-2 ^ 31 ≤ prev + q ∧ prev + q < 2 ^ 31) ∧ (prev * q < 0 → -2 ^ 31 < prev ∧ -2 ^ 31 < q))
    ⟨fun ⟨held, fill, sum, abs⟩ => ⟨held, fill, sum, abs⟩,
      fun h => ⟨h.held, h.fill, h.sum, h.abs⟩⟩

theorem Fits.i32_add {prev q : Int} (h : Fits prev q) : i32 (prev + q) = prev + q :=
  i32_of_bounds h.sum.1 h.sum.2

theorem sign_eq_sign_iff {a b : Int} (ha : a ≠ 0) (hb : b ≠ 0) :
    a.sign = b.sign ↔ 0 ≤ a * b := by
  rcases lt_or_gt_of_ne ha with hneg | hpos
  · rcases lt_or_gt_of_ne hb with hneg' | hpos'
    · simp [Int.sign_eq_neg_one_of_neg, hneg, hneg', (mul_pos_of_neg_of_neg hneg hneg').le]
    · simp [Int.sign_eq_neg_one_of_neg hneg, Int.sign_eq_one_of_pos hpos',
        mul_neg_of_neg_of_pos hneg hpos']
  · rcases lt_or_gt_of_ne hb with hneg' | hpos'
    · simp [Int.sign_eq_one_of_pos hpos, Int.sign_eq_neg_one_of_neg hneg',
        mul_neg_of_pos_of_neg hpos hneg']
    · simp [Int.sign_eq_one_of_pos, hpos, hpos', (mul_pos hpos hpos').le]

/-- **Refinement**, the realized P&L: what `realized_on_close` takes is what the
holding realizes. -/
theorem realizedOnClose_eq {prevQty quantity : Int} (hprev : prevQty ≠ 0) (hfill : quantity ≠ 0)
    (hfits : Fits prevQty quantity) (prevAvg fillPrice multiplier : ℚ) :
    realizedOnClose prevQty prevAvg quantity fillPrice multiplier =
      closed prevQty quantity * (fillPrice - prevAvg) * multiplier := by
  unfold realizedOnClose closed
  rw [if_neg (by simp [hprev, hfill])]
  simp only [sign_eq_sign_iff hprev hfill]
  by_cases hsame : 0 ≤ prevQty * quantity
  · rw [if_pos hsame, if_pos hsame, rat_zero]
    simp
  rw [if_neg hsame, if_neg hsame]
  have hagainst := not_le.mp hsame
  obtain ⟨hprevAbs, hfillAbs⟩ := hfits.abs hagainst
  have hprevI32 : i32 prevQty.natAbs = prevQty.natAbs :=
    i32_of_bounds (by omega) (by have := hfits.held; omega)
  have hfillI32 : i32 quantity.natAbs = quantity.natAbs :=
    i32_of_bounds (by omega) (by have := hfits.fill; omega)
  rw [hprevI32, hfillI32]
  have hpart : ((min (quantity.natAbs : Int) prevQty.natAbs : Int) : ℚ) =
      if 0 < prevQty then ((if quantity.natAbs < prevQty.natAbs then -quantity else prevQty : Int) : ℚ)
      else -((if quantity.natAbs < prevQty.natAbs then -quantity else prevQty : Int) : ℚ) := by
    rcases mul_neg_iff.mp hagainst with ⟨hlong, hsell⟩ | ⟨hshort, hbuy⟩
    · have hmin : min (quantity.natAbs : Int) prevQty.natAbs =
          if quantity.natAbs < prevQty.natAbs then -quantity else prevQty := by
        split
        · omega
        · omega
      rw [if_pos hlong, hmin]
    · have hmin : min (quantity.natAbs : Int) prevQty.natAbs =
          -if quantity.natAbs < prevQty.natAbs then -quantity else prevQty := by
        split
        · omega
        · omega
      rw [if_neg (by omega), hmin, Int.cast_neg]
  rw [rat_ofInt, hpart]
  split
  · ring
  · ring

/-- The holding that a leg keeps the books of. -/
def holding (leg : Leg ℚ) (h : leg.quantity ≠ 0) : Holding ℚ where
  qty := leg.quantity
  avg := leg.avgFillPrice
  flat hflat := absurd hflat h

/-- **Refinement**, the average: a leg that a fill leaves open has the average of the
holding. -/
theorem mergedLeg_refines {leg : Leg ℚ} (hprev : leg.quantity ≠ 0) {quantity : Int}
    (hfill : quantity ≠ 0) (hfits : Fits leg.quantity quantity)
    (hopen : leg.quantity + quantity ≠ 0) (fillPrice : ℚ) :
    (mergedLeg leg quantity fillPrice).quantity = leg.quantity + quantity ∧
      (mergedLeg leg quantity fillPrice).avgFillPrice =
        ((holding leg hprev).fill quantity fillPrice).avg := by
  refine ⟨hfits.i32_add, ?_⟩
  rw [Holding.avg_fill (holding leg hprev) hopen]
  show _ = if 0 ≤ leg.quantity * quantity then
      (leg.avgFillPrice * leg.quantity + fillPrice * quantity) / (leg.quantity + quantity : Int)
    else if quantity.natAbs < leg.quantity.natAbs then leg.avgFillPrice else fillPrice
  simp only [mergedLeg, hfits.i32_add, sign_eq_sign_iff hprev hfill, sign_eq_sign_iff hprev hopen,
    rat_ofInt, ne_eq, Int.sign_eq_zero_iff_zero, hprev, not_false_eq_true, and_true]
  by_cases hsame : 0 ≤ leg.quantity * quantity
  · rw [if_pos hsame, if_pos hsame]
    have hgrown : F64.gt (((leg.quantity + quantity).natAbs : Int) : ℚ) F64.zero = true := by
      rw [rat_zero]
      exact decide_eq_true (Int.cast_pos.mpr (by omega))
    rw [if_pos hgrown]
    rcases mul_nonneg_iff.mp hsame with ⟨hlong, hbuy⟩ | ⟨hshort, hsell⟩
    · rw [Int.natAbs_of_nonneg hlong, Int.natAbs_of_nonneg hbuy, Int.natAbs_of_nonneg (by omega)]
    · -- for a short leg the two averages divide opposite numbers
      rw [Int.ofNat_natAbs_of_nonpos hshort, Int.ofNat_natAbs_of_nonpos hsell,
        Int.ofNat_natAbs_of_nonpos (by omega), ← neg_div_neg_eq]
      congr 1
      · push_cast
        ring
      · push_cast
        ring
  · rw [if_neg hsame, if_neg hsame]
    have hkept : 0 ≤ leg.quantity * (leg.quantity + quantity) ↔
        quantity.natAbs < leg.quantity.natAbs := by
      rcases mul_neg_iff.mp (not_le.mp hsame) with ⟨hlong, hsell⟩ | ⟨hshort, hbuy⟩
      · rw [mul_nonneg_iff]
        omega
      · rw [mul_nonneg_iff]
        omega
    simp only [hkept, ite_not]

/-- What a fill that closes a leg realizes, at any mark. -/
theorem closedLeg_gain {leg : Leg ℚ} (hprev : leg.quantity ≠ 0) {quantity : Int}
    (hfill : quantity ≠ 0) (hfits : Fits leg.quantity quantity)
    (hclosed : leg.quantity + quantity = 0) (fillPrice mark multiplier : ℚ) :
    realizedOnClose leg.quantity leg.avgFillPrice quantity fillPrice multiplier =
      leg.quantity * (mark - leg.avgFillPrice) * multiplier +
        quantity * (mark - fillPrice) * multiplier := by
  have hgain := (holding leg hprev).gain_fill quantity fillPrice mark
  have hflat : ((holding leg hprev).fill quantity fillPrice).gain mark = 0 := by
    have hzero : (holding leg hprev).qty + quantity = 0 := hclosed
    rw [Holding.gain, Holding.qty_fill, hzero, Int.cast_zero, zero_mul]
  rw [hflat, zero_add] at hgain
  have hrealized : (closed leg.quantity quantity : ℚ) * (fillPrice - leg.avgFillPrice) =
      leg.quantity * (mark - leg.avgFillPrice) + quantity * (mark - fillPrice) := hgain
  rw [realizedOnClose_eq hprev hfill hfits, hrealized]
  ring

/-- What a fill that leaves a leg open realizes, with what the leg has gained. -/
theorem mergedLeg_gain {leg : Leg ℚ} (hprev : leg.quantity ≠ 0) {quantity : Int}
    (hfill : quantity ≠ 0) (hfits : Fits leg.quantity quantity)
    (hopen : leg.quantity + quantity ≠ 0) (fillPrice mark multiplier : ℚ) :
    realizedOnClose leg.quantity leg.avgFillPrice quantity fillPrice multiplier +
        (mergedLeg leg quantity fillPrice).quantity *
          (mark - (mergedLeg leg quantity fillPrice).avgFillPrice) * multiplier =
      leg.quantity * (mark - leg.avgFillPrice) * multiplier +
        quantity * (mark - fillPrice) * multiplier := by
  obtain ⟨hqty, havg⟩ := mergedLeg_refines hprev hfill hfits hopen fillPrice
  have hgain := (holding leg hprev).gain_fill quantity fillPrice mark
  simp only [Holding.gain, Holding.realized, Holding.qty_fill, ← havg] at hgain
  rw [realizedOnClose_eq hprev hfill hfits, hqty]
  simp only [holding] at hgain
  linear_combination multiplier * hgain

/-! ## The book -/

/-- The arguments of a fill. -/
structure OptionFill where
  product : String
  strike : ℚ
  expiry : Date
  right : Right
  quantity : Int
  price : ℚ
  spreadCaptured : ℚ
  spreadCapturedMid : ℚ

/-- The key of a fill. -/
def OptionFill.key (f : OptionFill) : PositionKey := makeKey f.product f.strike f.expiry f.right

/-- A fill is booked. -/
def bookFill (book : PortfolioState ℚ) (f : OptionFill) : PortfolioState ℚ :=
  (book.addFill f.product f.strike f.expiry f.right f.quantity f.price f.spreadCaptured
    f.spreadCapturedMid).2

/-- The book after some fills, from an empty one. -/
def runFills (registry : AList fun _ : String => ℚ) (fills : List OptionFill) :
    PortfolioState ℚ :=
  fills.foldl bookFill (.new registry)

/-- What some fills move on a key together. -/
def keySum (fills : List OptionFill) (key : PositionKey) : Int :=
  (fills.map fun f => if f.key = key then f.quantity else 0).sum

@[simp] theorem keySum_concat (fills : List OptionFill) (f : OptionFill) (key : PositionKey) :
    keySum (fills ++ [f]) key = keySum fills key + if f.key = key then f.quantity else 0 := by
  simp [keySum]

/-- No fill is empty, and none overflows the position that it finds. -/
def NoOverflow (fills : List OptionFill) : Prop :=
  ∀ front f back, fills = front ++ f :: back →
    f.quantity ≠ 0 ∧ Fits (keySum front f.key) f.quantity

theorem noOverflow_nil : NoOverflow [] := by
  intro front f back hsplit
  simp at hsplit

/-- One fill more overflows nothing if it fits the position of its key. -/
theorem noOverflow_concat {front : List OptionFill} {f : OptionFill} :
    NoOverflow (front ++ [f]) ↔
      NoOverflow front ∧ f.quantity ≠ 0 ∧ Fits (keySum front f.key) f.quantity := by
  constructor
  · intro h
    refine ⟨fun start g back hsplit => ?_, h front f [] rfl⟩
    exact h start g (back ++ [f]) (by simp [hsplit])
  · rintro ⟨hfront, hlast⟩ start g back hsplit
    rcases List.eq_nil_or_concat back with rfl | ⟨back, e, rfl⟩
    · obtain ⟨rfl, hf⟩ := List.append_inj' hsplit rfl
      rw [← List.head_eq_of_cons_eq hf]
      exact hlast
    · have hshorter : front ++ [f] = (start ++ g :: back) ++ [e] := by simp [hsplit]
      exact hfront start g back (List.append_inj' hshorter rfl).1

/-- The multiplier of a product, and 100 for one that is not registered. -/
def multiplierOf (registry : AList fun _ : String => ℚ) (product : String) : ℚ :=
  (registry.lookup product).getD 100

/-- What the open legs have gained at a mark for each key. -/
def openPnl (legs : List (Leg ℚ)) (mark : PositionKey → ℚ) : ℚ :=
  (legs.map fun leg => leg.quantity * (mark leg.key - leg.avgFillPrice) * leg.multiplier).sum

/-- What some fills have gained. -/
def gained (registry : AList fun _ : String => ℚ) (fills : List OptionFill)
    (mark : PositionKey → ℚ) : ℚ :=
  (fills.map fun f => f.quantity * (mark f.key - f.price) * multiplierOf registry f.product).sum

@[simp] theorem openPnl_append (front back : List (Leg ℚ)) (mark : PositionKey → ℚ) :
    openPnl (front ++ back) mark = openPnl front mark + openPnl back mark := by
  simp [openPnl]

@[simp] theorem openPnl_cons (leg : Leg ℚ) (rest : List (Leg ℚ)) (mark : PositionKey → ℚ) :
    openPnl (leg :: rest) mark =
      leg.quantity * (mark leg.key - leg.avgFillPrice) * leg.multiplier + openPnl rest mark := by
  simp [openPnl]

/-- The book keeps the books of some fills. -/
structure Keeps (registry : AList fun _ : String => ℚ) (book : PortfolioState ℚ)
    (fills : List OptionFill) : Prop where
  registered : book.registry = registry
  indexed : WellIndexed book
  quantity : ∀ key, legQty book.positions key = keySum fills key
  multiplier : ∀ leg ∈ book.positions, leg.multiplier = multiplierOf registry leg.product
  pnl : ∀ mark, book.realizedPnlPersisted + openPnl book.positions mark =
    gained registry fills mark

theorem legQty_eq_zero {legs : List (Leg ℚ)} {key : PositionKey}
    (h : ∀ leg ∈ legs, leg.key ≠ key) : legQty legs key = 0 := by
  apply List.sum_eq_zero
  intro n hn
  obtain ⟨leg, hleg, rfl⟩ := List.mem_map.mp hn
  exact if_neg (h leg hleg)

/-- Where no two legs have one key, a leg holds what its key does. -/
theorem legQty_eq_quantity {legs : List (Leg ℚ)} (h : (legs.map Leg.key).Nodup) {leg : Leg ℚ}
    (hleg : leg ∈ legs) : legQty legs leg.key = leg.quantity := by
  obtain ⟨front, back, rfl⟩ := List.append_of_mem hleg
  rw [List.map_append, List.map_cons, List.nodup_middle, List.nodup_cons, ← List.map_append] at h
  have hothers : legQty (front ++ back) leg.key = 0 := by
    refine legQty_eq_zero fun other hother hkey => h.1 ?_
    rw [← hkey]
    exact List.mem_map_of_mem hother
  rw [legQty_append] at hothers
  rw [legQty_append, legQty_cons, if_pos rfl]
  omega

@[simp] theorem gained_concat (registry : AList fun _ : String => ℚ) (fills : List OptionFill)
    (f : OptionFill) (mark : PositionKey → ℚ) :
    gained registry (fills ++ [f]) mark = gained registry fills mark +
      f.quantity * (mark f.key - f.price) * multiplierOf registry f.product := by
  simp [gained]

section Fill

variable {registry : AList fun _ : String => ℚ} {book : PortfolioState ℚ}
  {fills : List OptionFill} {f : OptionFill} {leg : Leg ℚ} {front back : List (Leg ℚ)}

namespace Keeps

/-- The multiplier that a fill looks up. -/
theorem lookup (h : Keeps registry book fills) (product : String) :
    (book.registry.lookup product).getD (F64.lit 100 0) = multiplierOf registry product := by
  have hhundred : (F64.lit 100 0 : ℚ) = 100 := by simp [rat_lit]
  rw [h.registered, hhundred, multiplierOf]

/-- The leg of a key holds what its fills come to. -/
theorem leg_quantity (h : Keeps registry book fills) (hleg : leg ∈ book.positions) :
    leg.quantity = keySum fills leg.key := by
  rw [← h.quantity, legQty_eq_quantity h.indexed.unique hleg]

/-- The books of one fill more: the fill moves its key by its quantity, and realized and
open P&L together by what it has gained. -/
theorem concat (h : Keeps registry book fills)
    (hquantity : ∀ key, legQty (bookFill book f).positions key =
      legQty book.positions key + if f.key = key then f.quantity else 0)
    (hmultiplier : ∀ leg ∈ (bookFill book f).positions,
      leg.multiplier = multiplierOf registry leg.product)
    (hpnl : ∀ mark, (bookFill book f).realizedPnlPersisted +
        openPnl (bookFill book f).positions mark =
      book.realizedPnlPersisted + openPnl book.positions mark +
        f.quantity * (mark f.key - f.price) * multiplierOf registry f.product) :
    Keeps registry (bookFill book f) (fills ++ [f]) where
  registered := (registry_addFill book _ _ _ _ _ _ _ _).trans h.registered
  indexed := wellIndexed_addFill h.indexed _ _ _ _ _ _ _ _
  quantity key := by rw [hquantity, h.quantity, keySum_concat]
  multiplier := hmultiplier
  pnl mark := by rw [hpnl, h.pnl, gained_concat]

/-- A fill that closes the leg of its key. -/
theorem closes (h : Keeps registry book fills) (hsplit : book.positions = front ++ leg :: back)
    (hkey : leg.key = f.key) (hflat : leg.quantity + f.quantity = 0)
    (hlegs : (bookFill book f).positions = front ++ back)
    (hpnl : ∀ mark, (bookFill book f).realizedPnlPersisted = book.realizedPnlPersisted +
      (leg.quantity * (mark - leg.avgFillPrice) * multiplierOf registry f.product +
        f.quantity * (mark - f.price) * multiplierOf registry f.product)) :
    Keeps registry (bookFill book f) (fills ++ [f]) := by
  have hold : leg ∈ book.positions := by simp [hsplit]
  have hproduct : leg.product = f.product := congrArg PositionKey.product hkey
  refine h.concat (fun key => ?_) (fun other hother => h.multiplier other ?_) fun mark => ?_
  · rw [hlegs, hsplit, legQty_append, legQty_append, legQty_cons, hkey]
    split
    · omega
    · omega
  · rw [hlegs] at hother
    rw [hsplit]
    rcases List.mem_append.mp hother with hfront | hback
    · exact List.mem_append_left _ hfront
    · exact List.mem_append_right _ (List.mem_cons_of_mem leg hback)
  · rw [hlegs, hsplit, openPnl_append, openPnl_append, openPnl_cons, hpnl (mark f.key), hkey,
      h.multiplier leg hold, hproduct]
    ring

/-- A fill that merges into the leg of its key. -/
theorem merges (h : Keeps registry book fills) (hsplit : book.positions = front ++ leg :: back)
    (hkey : leg.key = f.key) {merged : Leg ℚ} (hmergedKey : merged.key = f.key)
    (hmultiplier : merged.multiplier = leg.multiplier)
    (hmergedQty : merged.quantity = leg.quantity + f.quantity)
    (hlegs : (bookFill book f).positions = front ++ merged :: back)
    (hpnl : ∀ mark, (bookFill book f).realizedPnlPersisted +
        merged.quantity * (mark - merged.avgFillPrice) * multiplierOf registry f.product =
      book.realizedPnlPersisted +
        (leg.quantity * (mark - leg.avgFillPrice) * multiplierOf registry f.product +
          f.quantity * (mark - f.price) * multiplierOf registry f.product)) :
    Keeps registry (bookFill book f) (fills ++ [f]) := by
  have hold : leg ∈ book.positions := by simp [hsplit]
  have hproduct : leg.product = f.product := congrArg PositionKey.product hkey
  have hmergedProduct : merged.product = f.product := congrArg PositionKey.product hmergedKey
  have hlegMultiplier : leg.multiplier = multiplierOf registry f.product := by
    rw [h.multiplier leg hold, hproduct]
  refine h.concat (fun key => ?_) (fun other hother => ?_) fun mark => ?_
  · rw [hlegs, hsplit, legQty_append, legQty_append, legQty_cons, legQty_cons, hmergedKey, hkey,
      hmergedQty]
    split
    · omega
    · omega
  · have hmodify : front ++ merged :: back =
        book.positions.modify front.length fun _ => merged := by
      rw [hsplit, modify_length_append]
    have hplace : book.positions[front.length]? = some leg := by simp [hsplit]
    rw [hlegs, hmodify] at hother
    refine forall_mem_modify h.multiplier hplace ?_ other hother
    rw [hmultiplier, hlegMultiplier, hmergedProduct]
  · rw [hlegs, hsplit, openPnl_append, openPnl_append, openPnl_cons, openPnl_cons, hmergedKey, hkey,
      hmultiplier, hlegMultiplier]
    linear_combination hpnl (mark f.key)

/-- A fill that opens a leg. -/
theorem opens (h : Keeps registry book fills) (hkey : leg.key = f.key)
    (hquantity : leg.quantity = f.quantity) (havg : leg.avgFillPrice = f.price)
    (hmultiplier : leg.multiplier = multiplierOf registry f.product)
    (hlegs : (bookFill book f).positions = book.positions ++ [leg])
    (hrealized : (bookFill book f).realizedPnlPersisted = book.realizedPnlPersisted) :
    Keeps registry (bookFill book f) (fills ++ [f]) := by
  have hproduct : leg.product = f.product := congrArg PositionKey.product hkey
  refine h.concat (fun key => ?_) (fun other hother => ?_) fun mark => ?_
  · rw [hlegs, legQty_append, legQty_cons, legQty_nil, add_zero, hkey, hquantity]
  · rw [hlegs] at hother
    rcases List.mem_append.mp hother with hold | hnew
    · exact h.multiplier other hold
    · rw [List.mem_singleton.mp hnew, hproduct, hmultiplier]
  · have hnil : openPnl [] mark = 0 := rfl
    rw [hlegs, openPnl_append, openPnl_cons, hnil, hrealized, hkey, hquantity, havg, hmultiplier]
    ring

end Keeps

theorem keeps_bookFill (h : Keeps registry book fills) (hquantity : f.quantity ≠ 0)
    (hfits : Fits (keySum fills f.key) f.quantity) :
    Keeps registry (bookFill book f) (fills ++ [f]) := by
  rcases addFill_cases book f.product f.strike f.expiry f.right hquantity f.price f.spreadCaptured
      f.spreadCapturedMid with
    ⟨i, leg, hfind, hrealized, hlegs⟩ |
      ⟨leg, -, hkey, -, hqty, havg, hleg, hlegs, -, hrealized⟩
  · obtain ⟨hkey, front, back, hsplit, rfl⟩ := find_spec hfind
    have hkey : leg.key = f.key := hkey
    have hmem : leg ∈ book.positions := by simp [hsplit]
    have hprev : leg.quantity ≠ 0 := h.indexed.nonzero leg hmem
    have hfits : Fits leg.quantity f.quantity := by
      rwa [h.leg_quantity hmem, hkey]
    have hrealized : (bookFill book f).realizedPnlPersisted = _ := hrealized
    rw [h.lookup] at hrealized
    rcases hlegs with ⟨hclosed, hlegs, -⟩ | ⟨hopen, hlegs, -⟩
    · have hflat : leg.quantity + f.quantity = 0 := hfits.i32_add ▸ hclosed
      have hlegs : (bookFill book f).positions = front ++ back := by
        rw [← eraseIdx_length_append front leg back, ← hsplit]
        exact hlegs
      refine h.closes hsplit hkey hflat hlegs fun mark => ?_
      rw [hrealized, closedLeg_gain hprev hquantity hfits hflat f.price mark]
    · have hopen : leg.quantity + f.quantity ≠ 0 := hfits.i32_add ▸ hopen
      have hlegs : (bookFill book f).positions =
          front ++ mergedLeg leg f.quantity f.price :: back := by
        rw [← modify_length_append front leg back (mergedLeg · f.quantity f.price), ← hsplit]
        exact hlegs
      have hmergedKey : (mergedLeg leg f.quantity f.price).key = f.key := hkey
      refine h.merges hsplit hkey hmergedKey rfl hfits.i32_add hlegs fun mark => ?_
      rw [hrealized, ← mergedLeg_gain hprev hquantity hfits hopen f.price mark, add_assoc]
  · exact h.opens hkey hqty havg (hleg.trans (h.lookup f.product)) hlegs hrealized

end Fill

theorem keeps_runFills (registry : AList fun _ : String => ℚ) {fills : List OptionFill}
    (h : NoOverflow fills) : Keeps registry (runFills registry fills) fills := by
  induction fills using List.reverseRecOn with
  | nil =>
      exact {
        registered := rfl
        indexed := wellIndexed_new registry
        quantity := fun _ => rfl
        multiplier := by simp [runFills, PortfolioState.new]
        pnl := by simp [runFills, PortfolioState.new, openPnl, gained] }
  | append_singleton front f ih =>
      obtain ⟨hfront, hquantity, hfits⟩ := noOverflow_concat.mp h
      rw [runFills, List.foldl_append]
      exact keeps_bookFill (ih hfront) hquantity hfits

/-- **Conservation.** After any fills that overflow nothing, a key has a position just
if its fills do not cancel, the position is their sum, and the realized P&L with the
open positions at any marks is what the fills have gained at those marks. -/
theorem option_pnl_conserved (registry : AList fun _ : String => ℚ) (fills : List OptionFill)
    (hfits : NoOverflow fills) :
    (∀ product strike expiry right,
        (getPosition (runFills registry fills) product strike expiry right).map (·.quantity) =
          if keySum fills (makeKey product strike expiry right) = 0 then none
          else some (keySum fills (makeKey product strike expiry right))) ∧
      (∀ key, (∃ leg ∈ (runFills registry fills).positions, leg.key = key) ↔
        keySum fills key ≠ 0) ∧
      ∀ mark, (runFills registry fills).realizedPnlPersisted +
          openPnl (runFills registry fills).positions mark = gained registry fills mark := by
  have hkeeps := keeps_runFills registry hfits
  have hstored (key : PositionKey) :
      (∃ leg ∈ (runFills registry fills).positions, leg.key = key) ↔ keySum fills key ≠ 0 := by
    rw [← hkeeps.quantity key]
    constructor
    · rintro ⟨leg, hleg, rfl⟩
      rw [legQty_eq_quantity hkeeps.indexed.unique hleg]
      exact hkeeps.indexed.nonzero leg hleg
    · intro hsum
      by_contra hnone
      exact hsum (legQty_eq_zero fun leg hleg hkey => hnone ⟨leg, hleg, hkey⟩)
  refine ⟨fun product strike expiry right => ?_, hstored, hkeeps.pnl⟩
  have hfound := hkeeps.indexed.found product strike expiry right
  rw [hstored] at hfound
  cases hposition : getPosition (runFills registry fills) product strike expiry right with
  | none =>
      rw [hposition] at hfound
      rw [if_pos (by simpa using hfound)]
      rfl
  | some leg =>
      obtain ⟨hleg, hkey⟩ := (getPosition_eq_some_iff hkeeps.indexed.exact).mp hposition
      rw [hposition] at hfound
      rw [if_neg (hfound.mp rfl), ← hkey, ← hkeeps.quantity,
        legQty_eq_quantity hkeeps.indexed.unique hleg]
      rfl

/-- Fills of the copper call at 6.05. -/
def callFill (quantity : Int) (price : ℚ) : OptionFill where
  product := "HG"
  strike := 121 / 20
  expiry := ⟨2026, 6, 26⟩
  right := .call
  quantity
  price
  spreadCaptured := 0
  spreadCapturedMid := 0

/-- Two bought, five sold through zero, three bought back and with them a put. -/
def crossingFills : List OptionFill :=
  [callFill 2 (1 / 40), callFill (-5) (3 / 100), { callFill 1 (1 / 50) with right := .put },
    callFill 3 (1 / 40)]

theorem option_pnl_conserved_crossing :
    let registry : AList (fun _ : String => ℚ) := AList.insert "HG" 25000 ∅
    NoOverflow crossingFills ∧
      (∀ product strike expiry right,
        (getPosition (runFills registry crossingFills) product strike expiry right).map
            (·.quantity) =
          if keySum crossingFills (makeKey product strike expiry right) = 0 then none
          else some (keySum crossingFills (makeKey product strike expiry right))) ∧
      (∀ key, (∃ leg ∈ (runFills registry crossingFills).positions, leg.key = key) ↔
        keySum crossingFills key ≠ 0) ∧
      ∀ mark, (runFills registry crossingFills).realizedPnlPersisted +
          openPnl (runFills registry crossingFills).positions mark =
        gained registry crossingFills mark := by
  intro registry
  have hfits : NoOverflow crossingFills :=
    noOverflow_concat.mpr ⟨noOverflow_concat.mpr ⟨noOverflow_concat.mpr ⟨noOverflow_concat.mpr
      ⟨noOverflow_nil, by decide +kernel⟩, by decide +kernel⟩, by decide +kernel⟩,
      by decide +kernel⟩
  exact ⟨hfits, option_pnl_conserved registry crossingFills hfits⟩

end Corsair.Ports.OptionsPnl
