import Mathlib.Data.Finset.Card
import Mathlib.Data.List.AList
import Mathlib.Data.List.Induction
import Mathlib.Data.List.Perm.Subperm

/-!
# Tables

A table is a finite map, an association list with distinct keys.  What a change of
one entry leaves is said by lookups alone.

A list is collected into a table by writing every item under its key: a later item
replaces an earlier one.

Two tables are compared the way code compares maps: they have the same size, and
every entry of the one is in the other.

## Main results

* `lookup_insert_eq_update`, `lookup_erase_eq_update`, `lookup_replace_eq_update` — a
  change of one entry is an update of the lookups.
* `lookup_tabulate` — a key holds the value of its last item.
* `sameTable_iff` — the comparison decides equality at every key.
* `length_filter_entries`, `card_filter_alike` — entries are counted by their keys, and
  two ways to name the same things count alike.
-/

namespace Corsair.Verified.Table

variable {α κ β : Type*} [DecidableEq κ]

/-! ## One entry is changed -/

section Entry

variable {m : AList fun _ : κ => β} {key k : κ} {v v' : β}

theorem lookup_insert_eq_update (m : AList fun _ : κ => β) (key : κ) (v : β) :
    (fun k => (m.insert key v).lookup k) = Function.update (fun k => m.lookup k) key (some v) := by
  funext k
  by_cases h : k = key
  · subst h
    rw [AList.lookup_insert, Function.update_self]
  · rw [AList.lookup_insert_ne h, Function.update_of_ne h]

theorem lookup_erase_eq_update (m : AList fun _ : κ => β) (key : κ) :
    (fun k => (m.erase key).lookup k) = Function.update (fun k => m.lookup k) key none := by
  funext k
  by_cases h : k = key
  · subst h
    rw [AList.lookup_erase, Function.update_self]
  · rw [AList.lookup_erase_ne h, Function.update_of_ne h]

theorem dlookup_kreplace (key k : κ) (new : β) (l : List (Sigma fun _ : κ => β)) :
    (l.kreplace key new).dlookup k =
      if k = key then (l.dlookup key).map fun _ => new else l.dlookup k := by
  induction l with
  | nil => simp [List.kreplace]
  | cons e rest ih =>
      obtain ⟨k', b⟩ := e
      by_cases hkey : key = k'
      · subst hkey
        have hreplace : List.kreplace key new (⟨key, b⟩ :: rest) = ⟨key, new⟩ :: rest :=
          List.lookmap_cons_some _ _ (if_pos rfl)
        rw [hreplace]
        by_cases hk : k = key
        · subst hk
          simp
        · rw [if_neg hk, List.dlookup_cons_ne _ _ hk, List.dlookup_cons_ne _ _ hk]
      · have hreplace : List.kreplace key new (⟨k', b⟩ :: rest) =
            ⟨k', b⟩ :: List.kreplace key new rest :=
          List.lookmap_cons_none _ _ (if_neg hkey)
        have hrest : (⟨k', b⟩ :: rest : List (Sigma fun _ : κ => β)).dlookup key =
            rest.dlookup key := List.dlookup_cons_ne _ _ hkey
        rw [hreplace, hrest]
        by_cases hk : k = k'
        · subst hk
          rw [List.dlookup_cons_eq, List.dlookup_cons_eq, if_neg fun e => hkey e.symm]
        · rw [List.dlookup_cons_ne _ _ hk, List.dlookup_cons_ne _ _ hk, ih]

/-- A replacement at a key that is there. -/
theorem lookup_replace_eq_update (h : m.lookup key = some v) (new : β) :
    (fun k => (m.replace key new).lookup k) =
      Function.update (fun k => m.lookup k) key (some new) := by
  funext k
  have hreplace : (m.replace key new).lookup k =
      if k = key then (m.lookup key).map fun _ => new else m.lookup k :=
    dlookup_kreplace key k new m.entries
  rw [hreplace, h, Function.update_apply]
  rfl

theorem lookup_erase_eq_some (h : (m.erase key).lookup k = some v) :
    k ≠ key ∧ m.lookup k = some v := by
  by_cases hk : k = key
  · subst hk
    rw [AList.lookup_erase] at h
    cases h
  · rw [AList.lookup_erase_ne hk] at h
    exact ⟨hk, h⟩

theorem lookup_insert_eq_some (h : (m.insert key v).lookup k = some v') :
    k = key ∧ v' = v ∨ m.lookup k = some v' := by
  by_cases hk : k = key
  · rw [hk, AList.lookup_insert] at h
    exact .inl ⟨hk, (Option.some.inj h).symm⟩
  · rw [AList.lookup_insert_ne hk] at h
    exact .inr h

end Entry

/-! ## Some entries are kept -/

/-- The entries that a condition keeps. -/
def retain (m : AList fun _ : κ => β) (keep : κ → β → Bool) : AList (fun _ : κ => β) where
  entries := m.entries.filter fun e => keep e.1 e.2
  nodupKeys := m.nodupKeys.sublist List.filter_sublist

omit [DecidableEq κ] in
theorem mem_of_mem_retain {m : AList fun _ : κ => β} {keep : κ → β → Bool} {k : κ}
    (h : k ∈ retain m keep) : k ∈ m := by
  obtain ⟨e, he, rfl⟩ := List.mem_map.mp (AList.mem_keys.mp h)
  exact AList.mem_keys.mpr (List.mem_map_of_mem (List.mem_of_mem_filter he))

/-! ## Collecting a list -/

/-- The items of a list, written one after the other. -/
def tabulate (key : α → κ) (value : α → β) (items : List α) : AList (fun _ : κ => β) :=
  items.foldl (fun table x => table.insert (key x) (value x)) ∅

/-- **The last item of a key is the one it holds.** -/
theorem lookup_tabulate (key : α → κ) (value : α → β) (items : List α) (k : κ) :
    (tabulate key value items).lookup k = ((items.filter (key · = k)).getLast?).map value := by
  induction items using List.reverseRecOn with
  | nil => rfl
  | append_singleton front x ih =>
      have hstep : tabulate key value (front ++ [x]) =
          (tabulate key value front).insert (key x) (value x) := by
        simp [tabulate]
      rw [hstep, List.filter_append]
      by_cases hkey : k = key x
      · subst hkey
        rw [AList.lookup_insert]
        simp
      · rw [AList.lookup_insert_ne hkey, ih]
        simp [Ne.symm hkey]

theorem exists_of_lookup_tabulate {key : α → κ} {value : α → β} {items : List α} {k : κ} {v : β}
    (h : (tabulate key value items).lookup k = some v) :
    ∃ x ∈ items, key x = k ∧ value x = v := by
  rw [lookup_tabulate] at h
  obtain ⟨x, hx, rfl⟩ := Option.map_eq_some_iff.mp h
  obtain ⟨hmem, hkey⟩ := List.mem_filter.mp (List.mem_of_getLast? hx)
  exact ⟨x, hmem, of_decide_eq_true hkey, rfl⟩

/-! ## Comparing two tables -/

/-- Same size, and every entry of the first is in the second. -/
def sameTable [DecidableEq β] (m m' : AList (fun _ : κ => β)) : Bool :=
  m.keys.length = m'.keys.length ∧ ∀ e ∈ m.entries, m'.lookup e.1 = some e.2

theorem keys_subset_of_entries {m m' : AList (fun _ : κ => β)}
    (h : ∀ e ∈ m.entries, m'.lookup e.1 = some e.2) : m.keys ⊆ m'.keys := by
  intro k hk
  obtain ⟨v, hv⟩ := Option.isSome_iff_exists.mp (AList.lookup_isSome.mpr (AList.mem_keys.mpr hk))
  have hentry := h ⟨k, v⟩ (AList.mem_lookup_iff.mp hv)
  exact AList.mem_keys.mp (AList.lookup_isSome.mp (by rw [hentry]; rfl))

/-- **The comparison decides equality at every key.** -/
theorem sameTable_iff [DecidableEq β] (m m' : AList (fun _ : κ => β)) :
    sameTable m m' = true ↔ ∀ k, m.lookup k = m'.lookup k := by
  rw [sameTable, decide_eq_true_iff]
  constructor
  · rintro ⟨hsize, hentries⟩ k
    have hperm := (m.keys_nodup.subperm (keys_subset_of_entries hentries)).perm_of_length_le
      (Nat.le_of_eq hsize.symm)
    cases hk : m.lookup k with
    | some v => exact (hentries ⟨k, v⟩ (AList.mem_lookup_iff.mp hk)).symm
    | none =>
        have hout : k ∉ m' := fun hin =>
          AList.lookup_eq_none.mp hk (AList.mem_keys.mpr (hperm.mem_iff.mpr (AList.mem_keys.mp hin)))
        exact (AList.lookup_eq_none.mpr hout).symm
  · intro h
    have hentries : ∀ e ∈ m.entries, m'.lookup e.1 = some e.2 := fun e he => by
      rw [← h e.1]
      exact AList.mem_lookup_iff.mpr he
    have hback : ∀ e ∈ m'.entries, m.lookup e.1 = some e.2 := fun e he => by
      rw [h e.1]
      exact AList.mem_lookup_iff.mpr he
    have hperm := (m.keys_nodup.subperm (keys_subset_of_entries hentries)).antisymm
      (m'.keys_nodup.subperm (keys_subset_of_entries hback))
    exact ⟨hperm.length_eq, hentries⟩

/-! ## Counting -/

/-- The entries that meet a condition are as many as their keys, among any keys that
the table's are among. -/
theorem length_filter_entries (m : AList fun _ : κ => β) (p : κ → β → Bool) {keys : Finset κ}
    (hkeys : ∀ k ∈ m.keys, k ∈ keys) :
    (m.entries.filter fun e => p e.1 e.2).length =
      (keys.filter fun k => (m.lookup k).any (p k) = true).card := by
  have hnodup : ((m.entries.filter fun e => p e.1 e.2).map (·.1)).Nodup :=
    m.keys_nodup.sublist (List.filter_sublist.map _)
  rw [← List.length_map (f := fun e : Sigma fun _ : κ => β => e.1),
    ← List.toFinset_card_of_nodup hnodup]
  congr 1
  ext k
  simp only [List.mem_toFinset, List.mem_map, List.mem_filter, Finset.mem_filter, Option.any_eq_true]
  constructor
  · rintro ⟨e, ⟨he, hp⟩, rfl⟩
    exact ⟨hkeys e.1 (List.mem_map_of_mem he), e.2, AList.mem_lookup_iff.mpr he, hp⟩
  · rintro ⟨-, v, hv, hp⟩
    exact ⟨⟨k, v⟩, ⟨AList.mem_lookup_iff.mp hv, hp⟩, rfl⟩

/-- Two ways to name the items of a list that tell them apart alike count the same
number of names. -/
theorem card_filter_alike {κ' : Type*} [DecidableEq κ'] {items : List α} {f : α → κ} {g : α → κ'}
    (halike : ∀ a ∈ items, ∀ b ∈ items, f a = f b ↔ g a = g b) {P : κ → Prop} {Q : κ' → Prop}
    [DecidablePred P] [DecidablePred Q] (hiff : ∀ a ∈ items, P (f a) ↔ Q (g a)) :
    ((items.map f).toFinset.filter P).card = ((items.map g).toFinset.filter Q).card := by
  induction items with
  | nil => rfl
  | cons a rest ih =>
      have hrest := ih (fun b hb c hc => halike b (List.mem_cons_of_mem a hb) c
        (List.mem_cons_of_mem a hc)) fun b hb => hiff b (List.mem_cons_of_mem a hb)
      have hnamed : f a ∈ (rest.map f).toFinset ↔ g a ∈ (rest.map g).toFinset := by
        simp only [List.mem_toFinset, List.mem_map]
        refine exists_congr fun b => and_congr_right fun hb => ?_
        exact halike b (List.mem_cons_of_mem a hb) a List.mem_cons_self
      rw [List.map_cons, List.map_cons, List.toFinset_cons, List.toFinset_cons]
      by_cases hmem : f a ∈ (rest.map f).toFinset
      · rw [Finset.insert_eq_of_mem hmem, Finset.insert_eq_of_mem (hnamed.mp hmem), hrest]
      · rw [Finset.filter_insert, Finset.filter_insert]
        by_cases hP : P (f a)
        · rw [if_pos hP, if_pos ((hiff a List.mem_cons_self).mp hP),
            Finset.card_insert_of_notMem fun h => hmem (Finset.mem_filter.mp h).1,
            Finset.card_insert_of_notMem fun h => hmem (hnamed.mpr (Finset.mem_filter.mp h).1),
            hrest]
        · rw [if_neg hP, if_neg fun hQ => hP ((hiff a List.mem_cons_self).mpr hQ), hrest]

end Corsair.Verified.Table
