import Corsair.Ports.DepthRotation

/-!
# `corsair_market_data`: the depth book as five lists a side

A depth operation inserts, replaces or deletes a level of one side.  The code makes room before
it inserts and takes the signed position for an unsigned one; the reference inserts and then
keeps the first five.

## Main results

* `applyLevels_eq_listOp` — one operation, on a side within its bound.
* `side_apply` — an operation on the book is one on its side, and leaves the other.
* `depth_book_law` — every sequence of operations.
-/

namespace Corsair.Ports.DepthBook

open Corsair.Verified
open Corsair.Verified.Runs
open Corsair.Ports.BrokerApi (asU64)
open Corsair.Ports.QuoteBook
open Corsair.Ports.DepthRotation (levelsOf)

variable {F : Type}

/-- The arguments of `DepthBook::apply`. -/
structure DepthOp (F : Type) where
  isBid : Bool
  position : Int32
  operation : Int32
  price : F
  size : Nat

/-- The level that it brings. -/
def DepthOp.level (op : DepthOp F) : DepthLevel F := ⟨op.price, op.size⟩

/-- The book after an operation. -/
def applyOp (book : QuoteBook.DepthBook F) (op : DepthOp F) : QuoteBook.DepthBook F :=
  book.apply op.isBid op.position.toInt op.operation.toInt op.price op.size

/-- `DepthBook::default`. -/
def emptyBook : QuoteBook.DepthBook F := ⟨[], []⟩

/-! ## The reference -/

/-- An operation on a plain list of at most five levels. -/
def listOp (levels : List (DepthLevel F)) (pos : Nat) (operation : Int) (level : DepthLevel F) :
    List (DepthLevel F) :=
  if operation = 0 then (levels.insertIdx (min pos levels.length) level).take 5
  else if operation = 1 then
    if pos < levels.length then levels.set pos level
    else if pos = levels.length ∧ levels.length < 5 then levels ++ [level]
    else levels
  else if operation = 2 then levels.eraseIdx pos
  else levels

/-- The operations on one side, in turn. -/
def listOps (ops : List (DepthOp F)) : List (DepthLevel F) :=
  ops.foldl (fun levels op => listOp levels op.position.toInt.toNat op.operation.toInt op.level) []

/-- To insert and cut a full list off is to make room and insert. -/
theorem take_insertIdx_of_full {α : Type} (x : α) {pos : Nat} {xs : List α}
    (hpos : pos < xs.length) : (xs.insertIdx pos x).take xs.length = xs.dropLast.insertIdx pos x := by
  induction pos generalizing xs with
  | zero =>
      cases xs with
      | nil => cases hpos
      | cons y ys => simp [List.dropLast_eq_take]
  | succ pos ih =>
      cases xs with
      | nil => cases hpos
      | cons y ys =>
          have hrest : pos < ys.length := Nat.lt_of_succ_lt_succ hpos
          have hne : ys ≠ [] := List.ne_nil_of_length_pos (by omega)
          rw [List.insertIdx_succ_cons, List.length_cons, List.take_succ_cons, ih hrest,
            List.dropLast_cons_of_ne_nil hne, List.insertIdx_succ_cons]

/-- **One operation** on a side within its bound, at a position of a level, is that of the
reference. -/
theorem applyLevels_eq_listOp {levels : List (DepthLevel F)} (hlen : levels.length ≤ 5)
    {pos : Nat} (hpos : pos < 5) (operation : Int) (level : DepthLevel F) :
    applyLevels levels pos operation level = listOp levels pos operation level := by
  unfold applyLevels listOp
  by_cases hinsert : operation = 0
  · rw [if_pos hinsert, if_pos hinsert, if_neg (by omega)]
    by_cases hfull : levels.length = 5
    · have hroom : min pos levels.dropLast.length = pos := by
        rw [List.length_dropLast]
        omega
      simp only [if_pos hfull]
      rw [hroom, min_eq_left (by omega), ← hfull,
        take_insertIdx_of_full level (by omega : pos < levels.length)]
    · simp only [if_neg hfull]
      rw [List.take_of_length_le]
      exact List.length_insertIdx_le_succ.trans (by omega)
  · rw [if_neg hinsert, if_neg hinsert]
    by_cases hupdate : operation = 1
    · rw [if_pos hupdate, if_pos hupdate]
    · rw [if_neg hupdate, if_neg hupdate]
      by_cases hdelete : operation = 2
      · rw [if_pos hdelete, if_pos hdelete]
        split
        · rfl
        · rename_i hpast
          exact (List.eraseIdx_of_length_le (not_lt.mp hpast)).symm
      · rw [if_neg hdelete, if_neg hdelete]

/-! ## One side, any position -/

/-- A side stays within its bound. -/
theorem length_applyLevels_le {levels : List (DepthLevel F)} (hlen : levels.length ≤ 5)
    (pos : Nat) (operation : Int) (level : DepthLevel F) :
    (applyLevels levels pos operation level).length ≤ 5 := by
  unfold applyLevels
  split_ifs with h0 h5 hfull h1 hin hend h2 hin
  · exact hlen
  · exact List.length_insertIdx_le_succ.trans (by rw [List.length_dropLast]; omega)
  · exact List.length_insertIdx_le_succ.trans (by omega)
  · rw [List.length_set]
    exact hlen
  · rw [List.length_append, List.length_singleton]
    exact hend.2
  · exact hlen
  · exact (List.length_eraseIdx_le _ _).trans hlen
  · exact hlen
  · exact hlen

/-- A position behind the last level does nothing. -/
theorem applyLevels_of_far {levels : List (DepthLevel F)} (hlen : levels.length ≤ 5) {pos : Nat}
    (hpos : 5 < pos) (operation : Int) (level : DepthLevel F) :
    applyLevels levels pos operation level = levels := by
  unfold applyLevels
  split_ifs with h0 h1 hin hend h2 hin
  · rfl
  · omega
  · omega
  · rfl
  · omega
  · rfl
  · rfl

/-- A level that was not there before was inserted or set. -/
theorem operation_of_mem_applyLevels {levels : List (DepthLevel F)} {pos : Nat} {operation : Int}
    {level x : DepthLevel F} (h : x ∈ applyLevels levels pos operation level) (hnew : x ∉ levels) :
    operation = 0 ∨ operation = 1 := by
  by_contra hother
  rw [not_or] at hother
  unfold applyLevels at h
  rw [if_neg hother.1, if_neg hother.2] at h
  split_ifs at h
  · exact hnew (List.mem_of_mem_eraseIdx h)
  · exact hnew h
  · exact hnew h

/-! ## The book -/

/-- An operation is one on its side. -/
theorem side_apply (book : QuoteBook.DepthBook F) (op : DepthOp F) (isBid : Bool) :
    levelsOf isBid (applyOp book op) =
      if op.isBid = isBid then
        applyLevels (levelsOf isBid book) (asU64 op.position.toInt) op.operation.toInt op.level
      else levelsOf isBid book := by
  unfold applyOp QuoteBook.DepthBook.apply
  cases op.isBid <;> cases isBid <;> rfl

/-- A book is its two sides. -/
theorem book_ext {book book' : QuoteBook.DepthBook F}
    (h : ∀ isBid, levelsOf isBid book = levelsOf isBid book') : book = book' := by
  have hbids : book.bids = book'.bids := h true
  have hasks : book.asks = book'.asks := h false
  calc book = ⟨book.bids, book.asks⟩ := rfl
    _ = ⟨book'.bids, book'.asks⟩ := by rw [hbids, hasks]
    _ = book' := rfl

/-- Each side within its bound, and every level on it brought by an insertion or an update of
the side. -/
structure Supplied (ops : List (DepthOp F)) (isBid : Bool) (levels : List (DepthLevel F)) :
    Prop where
  bounded : levels.length ≤ 5
  brought : ∀ level ∈ levels, ∃ op ∈ ops,
    op.isBid = isBid ∧ (op.operation.toInt = 0 ∨ op.operation.toInt = 1) ∧ level = op.level

theorem Supplied.apply {ops : List (DepthOp F)} {isBid : Bool} {book : QuoteBook.DepthBook F}
    (h : Supplied ops isBid (levelsOf isBid book)) (op : DepthOp F) :
    Supplied (ops ++ [op]) isBid (levelsOf isBid (applyOp book op)) := by
  have hkept : ∀ level ∈ levelsOf isBid book, ∃ op' ∈ ops ++ [op], op'.isBid = isBid ∧
      (op'.operation.toInt = 0 ∨ op'.operation.toInt = 1) ∧ level = op'.level := by
    intro level hlevel
    obtain ⟨op', hop', hbrought⟩ := h.brought level hlevel
    exact ⟨op', List.mem_append_left _ hop', hbrought⟩
  rw [side_apply]
  split
  · rename_i hside
    refine ⟨length_applyLevels_le h.bounded _ _ _, fun level hlevel => ?_⟩
    by_cases hold : level ∈ levelsOf isBid book
    · exact hkept level hold
    · have hnew := (mem_applyLevels hlevel).resolve_right hold
      exact ⟨op, List.mem_append_right _ List.mem_cons_self, hside,
        operation_of_mem_applyLevels hlevel hold, hnew⟩
  · exact ⟨h.bounded, hkept⟩

/-- The sides after any operations. -/
theorem supplied_run (ops : List (DepthOp F)) (isBid : Bool) :
    Supplied ops isBid (levelsOf isBid (run applyOp emptyBook ops)) := by
  induction ops using List.reverseRecOn with
  | nil =>
      refine ⟨?_, fun level hlevel => ?_⟩
      · cases isBid <;> exact Nat.zero_le 5
      · cases isBid <;> cases hlevel
  | append_singleton ops op ih =>
      rw [run_append]
      exact ih.apply op

/-- **Five lists.** After operations at the positions of levels, each side is what the reference
makes of its own operations. -/
theorem side_run {ops : List (DepthOp F)}
    (hpos : ∀ op ∈ ops, 0 ≤ op.position.toInt ∧ op.position.toInt ≤ 4) (isBid : Bool) :
    levelsOf isBid (run applyOp emptyBook ops) = listOps (ops.filter (·.isBid = isBid)) := by
  induction ops using List.reverseRecOn with
  | nil => cases isBid <;> rfl
  | append_singleton ops op ih =>
      have hrest := ih fun op' hop' => hpos op' (List.mem_append_left _ hop')
      have hop := hpos op (List.mem_append_right _ List.mem_cons_self)
      have hcast : asU64 op.position.toInt = op.position.toInt.toNat := by
        unfold asU64
        rw [Int.emod_eq_of_lt hop.1 (by omega)]
      rw [run_append, run_cons, run_nil, side_apply, List.filter_append]
      by_cases hside : op.isBid = isBid
      · have hstep := applyLevels_eq_listOp (supplied_run ops isBid).bounded
          (by omega : op.position.toInt.toNat < 5) op.operation.toInt op.level
        rw [if_pos hside, hcast, hstep, hrest, List.filter_cons_of_pos (by simpa using hside),
          listOps, listOps, List.foldl_append]
        rfl
      · rw [if_neg hside, hrest, List.filter_cons_of_neg (by simpa using hside),
          List.filter_nil, List.append_nil]

/-- An operation at a negative position, or at one above five, does nothing to a side within its
bound. -/
theorem applyOp_of_out {book : QuoteBook.DepthBook F}
    (hlen : ∀ isBid, (levelsOf isBid book).length ≤ 5) {op : DepthOp F}
    (hout : op.position.toInt < 0 ∨ 5 < op.position.toInt) : applyOp book op = book := by
  have hlo := op.position.le_toInt
  have hhi := op.position.toInt_lt
  have hfar : 5 < asU64 op.position.toInt := by
    unfold asU64
    omega
  refine book_ext fun isBid => ?_
  rw [side_apply]
  split
  · exact applyLevels_of_far (hlen isBid) hfar _ _
  · rfl

/-- **The law of the depth book**, from the empty one: operations at positions 0 to 4 are those
of the reference, side by side; and after operations at any positions, with any codes, each side
has five levels at most, each of them brought by an insertion or an update of that side, and an
operation at a position below 0 or above 5 does nothing. -/
theorem depth_book_law (ops : List (DepthOp F)) :
    ((∀ op ∈ ops, 0 ≤ op.position.toInt ∧ op.position.toInt ≤ 4) → ∀ isBid,
        levelsOf isBid (run applyOp emptyBook ops) = listOps (ops.filter (·.isBid = isBid))) ∧
      (∀ (book : QuoteBook.DepthBook F) (op : DepthOp F),
        levelsOf (!op.isBid) (applyOp book op) = levelsOf (!op.isBid) book) ∧
      (∀ isBid, Supplied ops isBid (levelsOf isBid (run applyOp emptyBook ops))) ∧
      ∀ op : DepthOp F, op.position.toInt < 0 ∨ 5 < op.position.toInt →
        applyOp (run applyOp emptyBook ops) op = run applyOp emptyBook ops := by
  refine ⟨side_run, fun book op => ?_, supplied_run ops, fun op hout => ?_⟩
  · rw [side_apply, if_neg (by cases op.isBid <;> decide)]
  · exact applyOp_of_out (fun isBid => (supplied_run ops isBid).bounded) hout

/-- Five bids, a sixth in front of them, and one behind the last. -/
def fullSide : List (DepthOp ℚ) :=
  [0, 1, 2, 3, 4, 0, 5].map fun position => ⟨true, position, 0, 6 - position.toInt, 1⟩

-- at position 5 of a full side the last level is replaced, which no plain list operation does
example : (run applyOp emptyBook fullSide).bids.map (·.price) = [6, 6, 5, 4, 1] := by
  decide +kernel

end Corsair.Ports.DepthBook
