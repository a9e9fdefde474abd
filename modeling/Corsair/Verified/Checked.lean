import Corsair.Verified.Circular

/-!
# Code that may index out of range

A function that reads a buffer has four ways to end: it returns a value; it returns nothing,
as `?` does on the first access that is checked and fails; an access that is not checked is out
of range, which ends the program; or, in a model that runs on fuel, the fuel is used up.
`Checked` keeps the four apart, so that "never out of range" and "always ends" can be said of
the code as it is written, accesses and all.

Code that never indexes out of range and always ends is an optional value (`Returned`), and
`ofOption` goes through its steps.

## Main results

* `ofOption_bind`, `ofOption_ite` — the rules that relate such code, step by step, to the same
  code without the checks.
* `getRange_eq` — a checked range is in the buffer or nothing.
-/

namespace Corsair.Verified

/-- How a function ends. -/
inductive Checked (α : Type)
  | value (a : α)
  | nothing
  | outOfRange
  | exhausted
  deriving DecidableEq, Repr

namespace Checked

variable {α β : Type}

instance : Monad Checked where
  pure := value
  bind
    | value a, f => f a
    | nothing, _ => nothing
    | outOfRange, _ => outOfRange
    | exhausted, _ => exhausted

@[simp] theorem pure_eq (a : α) : (pure a : Checked α) = value a := rfl

@[simp] theorem value_bind (a : α) (f : α → Checked β) : (value a >>= f) = f a := rfl

@[simp] theorem nothing_bind (f : α → Checked β) : (nothing >>= f) = nothing := rfl

/-- The result of code without such accesses. -/
def ofOption : Option α → Checked α
  | some a => value a
  | none => nothing

@[simp] theorem ofOption_some (a : α) : ofOption (some a) = value a := rfl

@[simp] theorem ofOption_none : ofOption (none : Option α) = nothing := rfl

/-- The function returns: no access is out of range, and there is fuel enough. -/
def Returned (x : Checked α) : Prop := ∃ o : Option α, x = ofOption o

theorem ofOption_eq_value {o : Option α} {a : α} : ofOption o = value a ↔ o = some a := by
  cases o with
  | none => exact ⟨nofun, nofun⟩
  | some b => exact ⟨fun h => congrArg some (value.inj h), fun h => congrArg value (Option.some.inj h)⟩

@[simp] theorem ofOption_pure (a : α) : ofOption (pure a) = value a := rfl

/-- **One step.** -/
theorem ofOption_bind (o : Option α) (f : α → Option β) :
    ofOption (o >>= f) = (ofOption o >>= fun a => ofOption (f a)) := by
  cases o <;> rfl

/-- **One branch.** -/
theorem ofOption_ite (c : Prop) [Decidable c] (o o' : Option α) :
    ofOption (if c then o else o') = if c then ofOption o else ofOption o' :=
  apply_ite ofOption c o o'

/-- What a caller sees who looks whether there is a value. -/
def attempt : Checked α → Checked (Option α)
  | value a => value (some a)
  | nothing => value none
  | outOfRange => outOfRange
  | exhausted => exhausted

@[simp] theorem attempt_ofOption (o : Option α) : attempt (ofOption o) = value o := by
  cases o <;> rfl

/-! ## Accesses -/

/-- `xs.get(i)?` -/
def get (xs : List α) (i : Nat) : Checked α := ofOption xs[i]?

/-- `xs.get(lo..hi)?` -/
def getRange (xs : List α) (lo hi : Nat) : Checked (List α) := ofOption (Circular.slice xs lo hi)

/-- `xs[i]` -/
def index (xs : List α) (i : Nat) : Checked α :=
  match xs[i]? with
  | some x => value x
  | none => outOfRange

/-- `&xs[lo..hi]` -/
def indexRange (xs : List α) (lo hi : Nat) : Checked (List α) :=
  match Circular.slice xs lo hi with
  | some ys => value ys
  | none => outOfRange

theorem slice_eq {xs : List α} {lo k : Nat} (h : lo + k ≤ xs.length) :
    Circular.slice xs lo (lo + k) = some ((xs.drop lo).take k) := by
  rw [Circular.slice, if_pos ⟨Nat.le_add_right lo k, h⟩, List.drop_take, Nat.add_sub_cancel_left]

theorem getRange_eq (xs : List α) (lo k : Nat) :
    getRange xs lo (lo + k) =
      ofOption (if lo + k ≤ xs.length then some ((xs.drop lo).take k) else none) := by
  unfold getRange
  by_cases h : lo + k ≤ xs.length
  · rw [slice_eq h, if_pos h]
  · rw [Circular.slice, if_neg fun hin => h hin.2, if_neg h]

theorem indexRange_eq {xs : List α} {lo k : Nat} (h : lo + k ≤ xs.length) :
    indexRange xs lo (lo + k) = value ((xs.drop lo).take k) := by
  rw [indexRange, slice_eq h]

/-! ## Loops -/

/-- A step from position to position, `n` times. -/
def repeated (f : Nat → Checked Nat) : Nat → Nat → Checked Nat
  | 0, p => value p
  | n + 1, p => f p >>= repeated f n

end Checked

end Corsair.Verified
