import Mathlib.Algebra.Ring.Nat
import Corsair.Verified.Checked

/-!
# Texts cut by bytes

A string that is kept in UTF-8 is addressed by bytes, and a slice of it must start and end
between two characters: a cut that falls within a character ends the program.  A text is a list
of characters here, and its bytes are counted.

## Main results

* `cut_eq_some_iff` — a cut is two texts, the first of as many bytes.
* `append_inj` — there is one way to cut at a byte.
* `indexText_of_append`, `indexText_not_boundary` — what a slice is, and when there is none.
-/

namespace Corsair.Verified.ByteCut

open Corsair.Verified.Checked

/-- The number of bytes of a text. -/
def bytes (cs : List Char) : Nat := (cs.map Char.utf8Size).sum

@[simp] theorem bytes_nil : bytes [] = 0 := rfl

@[simp] theorem bytes_cons (c : Char) (cs : List Char) : bytes (c :: cs) = c.utf8Size + bytes cs :=
  by simp [bytes]

@[simp] theorem bytes_append (a b : List Char) : bytes (a ++ b) = bytes a + bytes b := by
  simp [bytes]

theorem utf8ByteSize_eq (s : String) : s.utf8ByteSize = bytes s.toList := by
  have hlist : ∀ cs : List Char, (String.ofList cs).utf8ByteSize = bytes cs := by
    intro cs
    induction cs with
    | nil => rfl
    | cons c rest ih =>
        rw [String.ofList_cons, String.utf8ByteSize_append, String.utf8ByteSize_singleton, ih,
          bytes_cons]
  have hs := hlist s.toList
  rwa [String.ofList_toList] at hs

theorem length_le_bytes (cs : List Char) : cs.length ≤ bytes cs := by
  induction cs with
  | nil => exact Nat.le_refl 0
  | cons c rest ih =>
      have hpos := c.utf8Size_pos
      rw [List.length_cons, bytes_cons]
      omega

/-- A text of one-byte characters. -/
theorem bytes_eq_length {cs : List Char} (h : ∀ c ∈ cs, c.utf8Size = 1) : bytes cs = cs.length := by
  induction cs with
  | nil => rfl
  | cons c rest ih =>
      rw [List.forall_mem_cons] at h
      rw [bytes_cons, h.1, ih h.2, List.length_cons, Nat.add_comm]

/-- **One way to cut.** -/
theorem append_inj {a b a' b' : List Char} (h : a ++ b = a' ++ b') (hbytes : bytes a = bytes a') :
    a = a' ∧ b = b' := by
  induction a generalizing a' with
  | nil =>
      cases a' with
      | nil => exact ⟨rfl, h⟩
      | cons c rest =>
          have hpos := c.utf8Size_pos
          rw [bytes_nil, bytes_cons] at hbytes
          omega
  | cons c a ih =>
      cases a' with
      | nil =>
          have hpos := c.utf8Size_pos
          rw [bytes_nil, bytes_cons] at hbytes
          omega
      | cons c' a' =>
          obtain ⟨rfl, hrest⟩ := List.cons.inj h
          rw [bytes_cons, bytes_cons] at hbytes
          obtain ⟨rfl, rfl⟩ := ih hrest (by omega)
          exact ⟨rfl, rfl⟩

/-- The text before and behind the first `n` bytes; none within a character or past the end. -/
def cut : List Char → Nat → Option (List Char × List Char)
  | cs, 0 => some ([], cs)
  | [], _ + 1 => none
  | c :: rest, n + 1 =>
      if c.utf8Size ≤ n + 1 then (cut rest (n + 1 - c.utf8Size)).map fun (a, b) => (c :: a, b)
      else none

theorem cut_append (a b : List Char) : cut (a ++ b) (bytes a) = some (a, b) := by
  induction a with
  | nil =>
      cases b with
      | nil => rfl
      | cons c rest => rfl
  | cons c a ih =>
      have hpos := c.utf8Size_pos
      obtain ⟨n, hn⟩ := Nat.exists_eq_succ_of_ne_zero (show bytes (c :: a) ≠ 0 by
        rw [bytes_cons]
        omega)
      have hrest : n + 1 - c.utf8Size = bytes a := by
        rw [bytes_cons] at hn
        omega
      rw [hn, List.cons_append, cut, if_pos (by rw [bytes_cons] at hn; omega), hrest, ih]
      rfl

theorem cut_eq_some_iff {cs a b : List Char} {n : Nat} :
    cut cs n = some (a, b) ↔ cs = a ++ b ∧ bytes a = n := by
  constructor
  · intro h
    induction cs generalizing n a b with
    | nil =>
        cases n with
        | zero =>
            obtain ⟨rfl, rfl⟩ := Prod.mk.inj (Option.some.inj h)
            exact ⟨rfl, rfl⟩
        | succ n => cases h
    | cons c rest ih =>
        cases n with
        | zero =>
            obtain ⟨rfl, rfl⟩ := Prod.mk.inj (Option.some.inj h)
            exact ⟨rfl, rfl⟩
        | succ n =>
            unfold cut at h
            split at h
            · rename_i hle
              obtain ⟨⟨a', b'⟩, hcut, hab⟩ := Option.map_eq_some_iff.mp h
              obtain ⟨rfl, rfl⟩ := Prod.mk.inj hab
              obtain ⟨rfl, hbytes⟩ := ih hcut
              refine ⟨rfl, ?_⟩
              rw [bytes_cons, hbytes]
              omega
            · cases h
  · rintro ⟨rfl, rfl⟩
    exact cut_append a b

/-- A place between two characters, or an end. -/
def Boundary (cs : List Char) (n : Nat) : Prop := ∃ a b, cs = a ++ b ∧ bytes a = n

theorem cut_eq_none_iff {cs : List Char} {n : Nat} : cut cs n = none ↔ ¬Boundary cs n := by
  constructor
  · rintro h ⟨a, b, hcs, hbytes⟩
    rw [cut_eq_some_iff.mpr ⟨hcs, hbytes⟩] at h
    cases h
  · intro h
    cases hcut : cut cs n with
    | none => rfl
    | some pair => exact absurd ⟨pair.1, pair.2, cut_eq_some_iff.mp hcut⟩ h

/-- A boundary behind a text is one of what follows the text. -/
theorem boundary_append {a b : List Char} {n : Nat} :
    Boundary (a ++ b) (bytes a + n) ↔ Boundary b n := by
  constructor
  · rintro ⟨front, back, hsplit, hbytes⟩
    rcases List.append_eq_append_iff.mp hsplit with ⟨mid, rfl, rfl⟩ | ⟨mid, rfl, rfl⟩
    · rw [bytes_append] at hbytes
      exact ⟨mid, back, rfl, by omega⟩
    · rw [bytes_append] at hbytes
      have hzero : n = 0 := by omega
      exact ⟨[], b, rfl, hzero.symm⟩
  · rintro ⟨front, back, rfl, rfl⟩
    exact ⟨a ++ front, back, (List.append_assoc a front back).symm, bytes_append a front⟩

/-- `&s[lo..hi]` -/
def indexText (s : String) (lo hi : Nat) : Checked String :=
  match cut s.toList hi with
  | none => .outOfRange
  | some (front, _) =>
      match cut front lo with
      | none => .outOfRange
      | some (_, mid) => .value (String.ofList mid)

theorem indexText_of_append {s : String} {a mid b : List Char} (hs : s.toList = a ++ mid ++ b) :
    indexText s (bytes a) (bytes (a ++ mid)) = .value (String.ofList mid) := by
  have hfront := cut_append (a ++ mid) b
  have hmid := cut_append a mid
  rw [indexText, hs]
  simp only [hfront, hmid]

theorem indexText_not_boundary {s : String} {lo hi : Nat} (h : ¬Boundary s.toList hi) :
    indexText s lo hi = .outOfRange := by
  rw [indexText, cut_eq_none_iff.mpr h]

end Corsair.Verified.ByteCut
