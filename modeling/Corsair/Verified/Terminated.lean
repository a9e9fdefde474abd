import Mathlib.Data.List.Basic

/-!
# Fields with a terminator

A record is written field by field, each with a terminator after it that no field
contains.  Splitting at the terminator gives the fields back, and an empty one behind the
last terminator.

## Main results

* `terminated_append` — records are written one after the other.
* `splitOn_terminated` — the fields are read back.
-/

namespace Corsair.Verified.Terminated

variable {α : Type*} {term : α}

/-- The fields, each with the terminator after it. -/
def terminated (term : α) (fields : List (List α)) : List α :=
  fields.flatMap (· ++ [term])

@[simp] theorem terminated_nil : terminated term [] = [] := rfl

@[simp] theorem terminated_cons (field : List α) (rest : List (List α)) :
    terminated term (field :: rest) = field ++ term :: terminated term rest := by
  simp [terminated]

theorem terminated_append (front back : List (List α)) :
    terminated term (front ++ back) = terminated term front ++ terminated term back :=
  List.flatMap_append

/-- **The fields are read back**, and an empty one behind them. -/
theorem splitOn_terminated [BEq α] [LawfulBEq α] {fields : List (List α)}
    (h : ∀ field ∈ fields, term ∉ field) :
    (terminated term fields).splitOn term = fields ++ [[]] := by
  induction fields with
  | nil => rfl
  | cons field rest ih =>
      have hfree : term ∉ field := h field List.mem_cons_self
      have hrest := ih fun f hf => h f (List.mem_cons_of_mem field hf)
      rw [terminated_cons, List.splitOn_append_cons_self_of_not_mem hfree, hrest]
      rfl

end Corsair.Verified.Terminated
