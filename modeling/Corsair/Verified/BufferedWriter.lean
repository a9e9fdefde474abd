import Mathlib.Data.List.Basic

/-!
# A buffered writer over a sink that can fail

A writer collects what it is given and passes it on when its buffer is full.  The sink takes a
number of items, the budget, and then fails; what a failed flush did not pass on stays in the
buffer.

`contents` is what the sink has and what the buffer holds.  It is what a reader gets to see in the
end, so that the lemmas are about it: a flush never changes it, whether it fails or not, and a
write adds all of its items to it or, but for items that do not fit the buffer, none.

## Main results

* `contents_flushBuf` — a flush loses nothing.
* `contents_writeAll` — a write that succeeds adds its items.
* `contents_writeAll_failed` — one that fails adds none of a short input, and a part of a long one.
-/

namespace Corsair.Verified.BufferedWriter

variable {α : Type*}

/-- What the sink has taken, and what waits in the buffer. -/
structure Buffered (α : Type*) where
  sink : List α
  buffer : List α

namespace Buffered

variable (w : Buffered α) (capacity budget : Nat) (items : List α)

def contents : List α := w.sink ++ w.buffer

/-- The buffer goes to the sink, as far as the budget reaches. -/
def flushBuf : Bool × Buffered α :=
  (decide (w.buffer.length ≤ budget),
    { sink := w.sink ++ w.buffer.take budget, buffer := w.buffer.drop budget })

/-- Items that the buffer has no room for flush it first; items as long as the buffer go past it. -/
def writeAll : Bool × Buffered α :=
  if items.length < capacity - w.buffer.length then
    (true, { w with buffer := w.buffer ++ items })
  else
    let flushed :=
      if items.length > capacity - w.buffer.length then w.flushBuf budget else (true, w)
    if flushed.1 then
      if items.length ≥ capacity then
        let left := budget - (w.buffer.length - flushed.2.buffer.length)
        (decide (items.length ≤ left),
          { flushed.2 with sink := flushed.2.sink ++ items.take left })
      else (true, { flushed.2 with buffer := flushed.2.buffer ++ items })
    else (false, flushed.2)

@[simp] theorem contents_flushBuf : (w.flushBuf budget).2.contents = w.contents := by
  simp [flushBuf, contents]

theorem flushBuf_of_le (h : w.buffer.length ≤ budget) :
    w.flushBuf budget = (true, { sink := w.contents, buffer := [] }) := by
  simp [flushBuf, contents, List.take_of_length_le h, List.drop_eq_nil_of_le h, h]

/-- Two flushes that reach far enough together. -/
theorem sink_flushBuf_twice (again : Nat) (h : w.buffer.length ≤ budget + again) :
    ((w.flushBuf budget).2.flushBuf again).2.sink = w.contents := by
  have hcontents : ((w.flushBuf budget).2.flushBuf again).2.contents = w.contents := by simp
  have hempty : ((w.flushBuf budget).2.flushBuf again).2.buffer = [] := by
    simp only [flushBuf, List.drop_drop]
    exact List.drop_eq_nil_of_le h
  rwa [contents, hempty, List.append_nil] at hcontents

/-- What a write does: the items join the buffer, or go past it, or stay out behind a flush that
fails, or have the buffer to themselves. -/
theorem writeAll_cases (hcapacity : 0 < capacity) :
    ((w.buffer.length ≤ capacity → w.buffer.length + items.length ≤ capacity) ∧
      w.writeAll capacity budget items = (true, { w with buffer := w.buffer ++ items })) ∨
    (∃ left, capacity ≤ items.length ∧ budget - w.buffer.length ≤ left ∧
      w.writeAll capacity budget items =
        (decide (items.length ≤ left), { sink := w.contents ++ items.take left, buffer := [] })) ∨
    (budget < w.buffer.length ∧
      w.writeAll capacity budget items = (false, (w.flushBuf budget).2)) ∨
    (items.length < capacity ∧
      w.writeAll capacity budget items = (true, { sink := w.contents, buffer := items })) := by
  unfold writeAll
  by_cases hfits : items.length < capacity - w.buffer.length
  · rw [if_pos hfits]
    exact .inl ⟨fun _ => by omega, rfl⟩
  rw [if_neg hfits]
  by_cases hover : items.length > capacity - w.buffer.length
  · rw [if_pos hover]
    by_cases hflush : w.buffer.length ≤ budget
    · rw [w.flushBuf_of_le budget hflush]
      by_cases hlong : items.length ≥ capacity
      · exact .inr (.inl ⟨budget - w.buffer.length, hlong, Nat.le_refl _, by simp [hlong]⟩)
      · exact .inr (.inr (.inr ⟨by omega, by simp [hlong]⟩))
    · refine .inr (.inr (.inl ⟨by omega, ?_⟩))
      simp [flushBuf, hflush]
  · rw [if_neg hover]
    by_cases hlong : items.length ≥ capacity
    · have hempty : w.buffer = [] := List.eq_nil_of_length_eq_zero (by omega)
      exact .inr (.inl ⟨budget, hlong, Nat.sub_le _ _, by simp [hlong, hempty, contents]⟩)
    · exact .inl ⟨fun _ => by omega, by simp [hlong]⟩

/-- A write that succeeds adds its items. -/
theorem contents_writeAll (hcapacity : 0 < capacity)
    (h : (w.writeAll capacity budget items).1 = true) :
    (w.writeAll capacity budget items).2.contents = w.contents ++ items := by
  rcases w.writeAll_cases capacity budget items hcapacity with
    ⟨-, hw⟩ | ⟨left, -, -, hw⟩ | ⟨-, hw⟩ | ⟨-, hw⟩
  · simp [hw, contents]
  · rw [hw] at h ⊢
    simp [contents, List.take_of_length_le (of_decide_eq_true h)]
  · rw [hw] at h
    cases h
  · simp [hw, contents]

/-- A write that fails adds a part of its items, and none of items that fit the buffer. -/
theorem contents_writeAll_failed (hcapacity : 0 < capacity)
    (h : (w.writeAll capacity budget items).1 = false) :
    ∃ part, part <+: items ∧ (items.length < capacity → part = []) ∧
      (w.writeAll capacity budget items).2.contents = w.contents ++ part := by
  rcases w.writeAll_cases capacity budget items hcapacity with
    ⟨-, hw⟩ | ⟨left, hlong, -, hw⟩ | ⟨-, hw⟩ | ⟨-, hw⟩
  · rw [hw] at h
    cases h
  · refine ⟨items.take left, List.take_prefix _ _, fun hshort => absurd hlong (by omega), ?_⟩
    simp [hw, contents]
  · exact ⟨[], List.nil_prefix, fun _ => rfl, by simp [hw]⟩
  · rw [hw] at h
    cases h

/-- It does not fail where the sink takes the buffer and the items. -/
theorem writeAll_of_budget (hcapacity : 0 < capacity)
    (h : w.buffer.length + items.length ≤ budget) :
    (w.writeAll capacity budget items).1 = true := by
  rcases w.writeAll_cases capacity budget items hcapacity with
    ⟨-, hw⟩ | ⟨left, -, hleft, hw⟩ | ⟨hover, -⟩ | ⟨-, hw⟩
  · rw [hw]
  · rw [hw]
    exact decide_eq_true (by omega)
  · omega
  · rw [hw]

/-- The buffer stays within its capacity. -/
theorem length_buffer_writeAll (hcapacity : 0 < capacity) (h : w.buffer.length ≤ capacity) :
    (w.writeAll capacity budget items).2.buffer.length ≤ capacity := by
  rcases w.writeAll_cases capacity budget items hcapacity with
    ⟨hfits, hw⟩ | ⟨left, -, -, hw⟩ | ⟨-, hw⟩ | ⟨hshort, hw⟩
  · simpa [hw] using hfits h
  · simp [hw]
  · simp only [hw, flushBuf, List.length_drop]
    omega
  · simpa [hw] using Nat.le_of_lt hshort

theorem length_buffer_flushBuf : (w.flushBuf budget).2.buffer.length ≤ w.buffer.length := by
  simp only [flushBuf, List.length_drop]
  omega

end Buffered

end Corsair.Verified.BufferedWriter
