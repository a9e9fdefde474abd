import Mathlib.Logic.Function.Basic

/-!
# Memo tables

A program keeps results under keys and looks a result up before it computes one.  A key need
not say all that its result depends on: then the table answers with what was computed from an
earlier input.

`inputs` is what the results were computed from, which the program does not keep.  A result is
right for the input of a query just where the two inputs agree on what the computation reads, so
the invariant of such a table says of each key which inputs may stand under it.

## Main results

* `sound_note`, `within_note` — what a query leaves.
* `within_mono` — the inputs that may stand under a key change.
* `result_of_within` — a result that is found is that of the query.
-/

namespace Corsair.Verified.Memo

variable {κ ι β : Type*}

/-- The results, and the inputs that they were computed from. -/
structure MemoTable (κ ι β : Type*) where
  results : κ → Option β
  inputs : κ → Option ι

/-- There is a result under the key, computed from the input. -/
def MemoTable.Holds (m : MemoTable κ ι β) (k : κ) (i : ι) : Prop :=
  (m.results k).isSome = true ∧ m.inputs k = some i

/-- Each result is that of its input. -/
def Sound (compute : κ → ι → Option β) (m : MemoTable κ ι β) : Prop :=
  ∀ k v, m.results k = some v → ∃ i, m.inputs k = some i ∧ compute k i = some v

/-- The inputs stand under keys that they may stand under. -/
def Within (allowed : κ → ι → Prop) (m : MemoTable κ ι β) : Prop :=
  ∀ k i, m.Holds k i → allowed k i

/-- What a query may leave: results that were there, and under its key, where there was none,
its own. -/
def Answers (compute : κ → ι → Option β) (m : MemoTable κ ι β) (k : κ) (i : ι)
    (results : κ → Option β) : Prop :=
  ∀ k' v, results k' = some v →
    m.results k' = some v ∨ k' = k ∧ m.results k = none ∧ compute k i = some v

theorem MemoTable.Holds.of_results {m : MemoTable κ ι β} {k : κ} {i : ι} {v : β}
    (h : m.results k = some v) (hi : m.inputs k = some i) : m.Holds k i :=
  ⟨Option.isSome_of_eq_some h, hi⟩

/-- **A result that is found is that of the query**, where no other input may stand under its
key. -/
theorem result_of_within {compute : κ → ι → Option β} {allowed : κ → ι → Prop}
    {m : MemoTable κ ι β} (hsound : Sound compute m) (hwithin : Within allowed m) {k : κ} {i : ι}
    {v : β} (honly : ∀ i', m.Holds k i' → allowed k i' → i' = i) (h : m.results k = some v) :
    compute k i = some v := by
  obtain ⟨i', hi', hcompute⟩ := hsound k v h
  have hholds := MemoTable.Holds.of_results h hi'
  rwa [← honly i' hholds (hwithin k i' hholds)]

/-- What may stand under the keys in use grows, or changes where nothing stands. -/
theorem within_mono {allowed allowed' : κ → ι → Prop} {m : MemoTable κ ι β}
    (h : Within allowed m) (hmono : ∀ k i, m.Holds k i → allowed k i → allowed' k i) :
    Within allowed' m := by
  intro k i hholds
  exact hmono k i hholds (h k i hholds)

section Note

variable [DecidableEq κ]

/-- The table after a query: where there was no result, its input is the one that the next
result under its key has. -/
def note (m : MemoTable κ ι β) (k : κ) (i : ι) (results : κ → Option β) : MemoTable κ ι β :=
  { results := results
    inputs := if (m.results k).isNone then Function.update m.inputs k (some i) else m.inputs }

/-- The input of a result that was there before the query. -/
theorem note_inputs_of_some {m : MemoTable κ ι β} {k k' : κ} {i : ι} {results : κ → Option β}
    {v : β} (h : m.results k' = some v) : (note m k i results).inputs k' = m.inputs k' := by
  unfold note
  simp only
  split
  · rename_i hnone
    have hne : k' ≠ k := by
      rintro rfl
      rw [h] at hnone
      cases hnone
    exact Function.update_of_ne hne _ _
  · rfl

theorem note_inputs_of_none {m : MemoTable κ ι β} {k : κ} {i : ι} {results : κ → Option β}
    (h : m.results k = none) : (note m k i results).inputs k = some i := by
  simp [note, h]

theorem sound_note {compute : κ → ι → Option β} {m : MemoTable κ ι β} {k : κ} {i : ι}
    {results : κ → Option β} (h : Sound compute m) (hanswers : Answers compute m k i results) :
    Sound compute (note m k i results) := by
  intro k' v hv
  rcases hanswers k' v hv with hkept | ⟨rfl, hnone, hnew⟩
  · rw [note_inputs_of_some hkept]
    exact h k' v hkept
  · exact ⟨i, note_inputs_of_none hnone, hnew⟩

theorem within_note {compute : κ → ι → Option β} {allowed : κ → ι → Prop}
    {m : MemoTable κ ι β} {k : κ} {i : ι} {results : κ → Option β} (h : Within allowed m)
    (hanswers : Answers compute m k i results) (hallowed : allowed k i) :
    Within allowed (note m k i results) := by
  rintro k' i' ⟨hsome, hinput⟩
  obtain ⟨v, hv⟩ := Option.isSome_iff_exists.mp hsome
  rcases hanswers k' v hv with hkept | ⟨rfl, hnone, -⟩
  · rw [note_inputs_of_some hkept] at hinput
    exact h k' i' (MemoTable.Holds.of_results hkept hinput)
  · rw [note_inputs_of_none hnone] at hinput
    obtain rfl := Option.some.inj hinput
    exact hallowed

end Note

end Corsair.Verified.Memo
