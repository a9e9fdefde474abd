import Corsair.Verified.Table

/-!
# An index of a list

A list of items with a table that sends each key to the place of its item.  The
table indexes the list if it does so exactly: it knows a place for a key just where
the item of that key is there.  Such a list has no two items of one key.

What follows says for the usual writes of a store that they keep the list indexed:
an item is changed in place, an item is added under a new key, or the table is made
anew.  Before that, what these writes do to a list that is split at their place.

## Main results

* `exists_split` — a place that holds an item splits the list.
* `Indexes.nodup` — no two items of one key.
* `Indexes.modify`, `Indexes.concat`, `indexes_places_iff` — the writes.
-/

namespace Corsair.Verified.ListIndex

open Corsair.Verified.Table

variable {α κ : Type*} {items : List α}

/-! ## A list split at a place -/

/-- A place that holds an item splits the list there. -/
theorem exists_split {x : α} {i : Nat} (h : items[i]? = some x) :
    ∃ front back, items = front ++ x :: back ∧ front.length = i := by
  obtain ⟨hlt, rfl⟩ := List.getElem?_eq_some_iff.mp h
  refine ⟨items.take i, items.drop (i + 1), ?_, List.length_take_of_le hlt.le⟩
  rw [List.getElem_cons_drop, List.take_append_drop]

@[simp] theorem modify_length_append (front : List α) (x : α) (back : List α) (f : α → α) :
    (front ++ x :: back).modify front.length f = front ++ f x :: back :=
  List.modifyTailIdx_add (List.modifyHead f) 0 front (x :: back)

@[simp] theorem eraseIdx_length_append (front : List α) (x : α) (back : List α) :
    (front ++ x :: back).eraseIdx front.length = front ++ back := by
  rw [List.eraseIdx_append_of_length_le le_rfl, Nat.sub_self, List.eraseIdx_cons_zero]

@[simp] theorem set_length_append (front : List α) (x : α) (back : List α) (y : α) :
    (front ++ x :: back).set front.length y = front ++ y :: back := by
  rw [List.set_append_right _ _ le_rfl, Nat.sub_self, List.set_cons_zero]

theorem getElem?_concat_eq_some_iff {x y : α} {i : Nat} :
    (items ++ [x])[i]? = some y ↔ items[i]? = some y ∨ i = items.length ∧ y = x := by
  rcases Nat.lt_trichotomy i items.length with hlt | rfl | hgt
  · simp [List.getElem?_append_left hlt, Nat.ne_of_lt hlt]
  · simp [eq_comm]
  · have hpast : i - items.length ≠ 0 := Nat.sub_ne_zero_of_lt hgt
    simp [List.getElem?_append_right (Nat.le_of_lt hgt), Nat.le_of_lt hgt, Nat.ne_of_gt hgt, hpast]

/-- What is true of every item stays so when one is changed, if it is true of what
that one becomes. -/
theorem forall_mem_modify {p : α → Prop} (h : ∀ x ∈ items, p x) {i : Nat} {x : α} {f : α → α}
    (hx : items[i]? = some x) (hf : p (f x)) : ∀ y ∈ items.modify i f, p y := by
  obtain ⟨front, back, rfl, rfl⟩ := exists_split hx
  rw [modify_length_append]
  intro y hy
  rcases List.mem_append.mp hy with hfront | hrest
  · exact h y (List.mem_append_left _ hfront)
  rcases List.mem_cons.mp hrest with rfl | hback
  · exact hf
  · exact h y (List.mem_append_right _ (List.mem_cons_of_mem x hback))

/-! ## The index -/

variable [DecidableEq κ] {key : α → κ} {index : AList fun _ : κ => Nat}

/-- The table sends each key to the place of its item, and knows no others. -/
def Indexes (key : α → κ) (items : List α) (index : AList fun _ : κ => Nat) : Prop :=
  ∀ k i, index.lookup k = some i ↔ ∃ x, items[i]? = some x ∧ key x = k

/-- The table of the places of a list. -/
def places (key : α → κ) (items : List α) : AList (fun _ : κ => Nat) :=
  tabulate (fun e : α × Nat => key e.1) (fun e => e.2) items.zipIdx

theorem indexes_nil : Indexes key ([] : List α) ∅ := by
  intro k i
  simp

namespace Indexes

/-- Two places of one key are one place. -/
theorem place_unique (h : Indexes key items index) {i j : Nat} {x y : α}
    (hx : items[i]? = some x) (hy : items[j]? = some y) (hkey : key x = key y) : i = j := by
  have hi : index.lookup (key x) = some i := (h _ i).mpr ⟨x, hx, rfl⟩
  have hj : index.lookup (key x) = some j := (h _ j).mpr ⟨y, hy, hkey.symm⟩
  exact Option.some.inj (hi.symm.trans hj)

/-- **No two items of one key.** -/
theorem nodup (h : Indexes key items index) : (items.map key).Nodup := by
  rw [List.nodup_iff_injective_getElem]
  intro i j hij
  have hi : i.1 < items.length := by simpa using i.2
  have hj : j.1 < items.length := by simpa using j.2
  refine Fin.ext (h.place_unique (List.getElem?_eq_getElem hi) (List.getElem?_eq_getElem hj) ?_)
  simpa using hij

theorem lookup_eq_none_iff (h : Indexes key items index) {k : κ} :
    index.lookup k = none ↔ ∀ x ∈ items, key x ≠ k := by
  constructor
  · intro hnone x hx hkey
    obtain ⟨i, hi⟩ := List.mem_iff_getElem?.mp hx
    rw [(h k i).mpr ⟨x, hi, hkey⟩] at hnone
    cases hnone
  · intro habsent
    cases hfound : index.lookup k with
    | none => rfl
    | some i =>
        obtain ⟨x, hx, hkey⟩ := (h k i).mp hfound
        exact absurd hkey (habsent x (List.mem_of_getElem? hx))

/-- An item is changed in place. -/
theorem modify (h : Indexes key items index) (i : Nat) {f : α → α} (hf : ∀ x, key (f x) = key x) :
    Indexes key (items.modify i f) index := by
  intro k j
  rw [h k j, List.getElem?_modify]
  by_cases hij : i = j
  · simp [hij, hf]
  · simp [hij]

/-- An item is added under a new key. -/
theorem concat (h : Indexes key items index) {x : α} (hnew : ∀ y ∈ items, key y ≠ key x) :
    Indexes key (items ++ [x]) (index.insert (key x) items.length) := by
  intro k i
  simp only [getElem?_concat_eq_some_iff]
  by_cases hk : k = key x
  · subst hk
    rw [AList.lookup_insert]
    constructor
    · intro hi
      exact ⟨x, .inr ⟨(Option.some.inj hi).symm, rfl⟩, rfl⟩
    · rintro ⟨y, hold | ⟨rfl, -⟩, hkey⟩
      · exact absurd hkey (hnew y (List.mem_of_getElem? hold))
      · rfl
  · rw [AList.lookup_insert_ne hk, h k i]
    constructor
    · rintro ⟨y, hy, hkey⟩
      exact ⟨y, .inl hy, hkey⟩
    · rintro ⟨y, hold | ⟨-, rfl⟩, hkey⟩
      · exact ⟨y, hold, hkey⟩
      · exact absurd hkey.symm hk

end Indexes

/-- The table made anew sends a key to an item of it. -/
theorem exists_of_lookup_places {k : κ} {i : Nat} (h : (places key items).lookup k = some i) :
    ∃ x, items[i]? = some x ∧ key x = k := by
  obtain ⟨⟨x, j⟩, hmem, hkey, rfl⟩ := exists_of_lookup_tabulate h
  exact ⟨x, List.mem_zipIdx_iff_getElem?.mp hmem, hkey⟩

/-- The table made anew indexes the list, if no two items have one key. -/
theorem indexes_places_iff : Indexes key items (places key items) ↔ (items.map key).Nodup := by
  refine ⟨Indexes.nodup, fun hnodup k i => ⟨fun hfound => ?_, ?_⟩⟩
  · exact exists_of_lookup_places hfound
  · rintro ⟨x, hx, rfl⟩
    cases hfound : (places key items).lookup (key x) with
    | none =>
        rw [places, lookup_tabulate, Option.map_eq_none_iff, List.getLast?_eq_none_iff] at hfound
        have hmem : (x, i) ∈ items.zipIdx := List.mem_zipIdx_iff_getElem?.mpr hx
        exact absurd hmem (by simpa using List.filter_eq_nil_iff.mp hfound (x, i))
    | some j =>
        obtain ⟨y, hy, hkey⟩ := exists_of_lookup_places hfound
        have hlt : i < (items.map key).length := by
          simpa using (List.getElem?_eq_some_iff.mp hx).1
        have hsame : (items.map key)[i]? = (items.map key)[j]? := by
          rw [List.getElem?_map, List.getElem?_map, hx, hy, Option.map_some, Option.map_some]
          exact congrArg some hkey.symm
        rw [(List.getElem?_inj hlt hnodup).mp hsame]

end Corsair.Verified.ListIndex
