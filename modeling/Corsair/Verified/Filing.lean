import Mathlib.Logic.Function.Basic
import Corsair.Verified.Runs

/-!
# A directory: records under keys and an index from their owners

Two maps that are kept inverse by convention.  `slot` holds the records, each
of which may name an owner, and `home` says under which key an owner's record
is.  Nothing ties the two together but the moves that are made on them: a
record is filed for an owner, a record is put or amended in place, an owner is
released through the index, or a slot is discarded on behalf of an owner.

Two halves of the convention are stated on their own, since they break on
their own.  `Points` follows the index to a record of the same owner; `FiledAt`
follows an owner's record back to the index.

## Main results

* `slot_run_cases` — where the record under a key comes from.
* `slot_run_keeps`, `slot_run_of_put` — a property of the record under a key.
* `Points.run` — moves that strike no record of somebody else keep the index
  pointing.
* `sameFor_run` — and leave the records of everybody they are not about.
* `FiledAt.run` — an owner that is filed under one key only stays filed there.
* `unlisted_release` — the release of such an owner leaves no record of it.
* `meets_proper` — whether moves strike a record of somebody else can be
  checked before the first of them, where none of them files.
-/

namespace Corsair.Verified.Filing

open Corsair.Verified.Runs

variable {κ ι α : Type*}

/-- Records under keys, and an index from owners to keys. -/
@[ext] structure Directory (κ ι α : Type*) where
  slot : κ → Option α
  home : ι → Option κ

/-- A move. -/
inductive Move (κ ι α : Type*)
  | file (i : ι) (k : κ) (f : Option α → α)
  | put (k : κ) (a : α)
  | amend (i : ι) (k : κ) (f : α → α)
  | release (i : ι)
  | discard (i : ι) (k : κ)

/-- The owner on whose behalf a move is made. -/
def Move.about : Move κ ι α → Option ι
  | .file i _ _ => some i
  | .put _ _ => none
  | .amend i _ _ => some i
  | .release i => some i
  | .discard i _ => some i

/-- The move files a record. -/
def Move.Files : Move κ ι α → Prop
  | .file _ _ _ => True
  | _ => False

/-- The key whose record a move touches. -/
def Move.strikes (d : Directory κ ι α) : Move κ ι α → Option κ
  | .file _ k _ => some k
  | .put k _ => some k
  | .amend _ k _ => some k
  | .release i => d.home i
  | .discard _ k => some k

section Moves

variable [DecidableEq κ] [DecidableEq ι]

/-- Carry out a move. -/
def apply (d : Directory κ ι α) : Move κ ι α → Directory κ ι α
  | .file i k f =>
      { slot := Function.update d.slot k (some (f (d.slot k)))
        home := Function.update d.home i (some k) }
  | .put k a => { d with slot := Function.update d.slot k (some a) }
  | .amend _ k f => { d with slot := Function.update d.slot k ((d.slot k).map f) }
  | .release i =>
      match d.home i with
      | none => d
      | some k =>
          { slot := Function.update d.slot k none
            home := Function.update d.home i none }
  | .discard i k =>
      { slot := Function.update d.slot k none
        home := Function.update d.home i none }

theorem apply_release_none {d : Directory κ ι α} {i : ι} (h : d.home i = none) :
    apply d (.release i) = d := by
  simp only [apply, h]

theorem apply_release_some {d : Directory κ ι α} {i : ι} {k : κ} (h : d.home i = some k) :
    apply d (.release i) = apply d (.discard i k) := by
  simp only [apply, h]

/-- A record that a move does not strike stays. -/
theorem slot_apply_of_not_strikes {d : Directory κ ι α} {m : Move κ ι α} {k : κ}
    (h : m.strikes d ≠ some k) : (apply d m).slot k = d.slot k := by
  cases m with
  | file i k' f => exact Function.update_of_ne (fun e => h (by rw [e]; rfl)) ..
  | put k' a => exact Function.update_of_ne (fun e => h (by rw [e]; rfl)) ..
  | amend i k' f => exact Function.update_of_ne (fun e => h (by rw [e]; rfl)) ..
  | release i =>
      cases hhome : d.home i with
      | none => rw [apply_release_none hhome]
      | some k' =>
          rw [apply_release_some hhome]
          exact Function.update_of_ne (fun e => h (by rw [e]; exact hhome)) ..
  | discard i k' => exact Function.update_of_ne (fun e => h (by rw [e]; rfl)) ..

/-- The index keeps everybody but the one a move is about. -/
theorem home_apply_of_about_ne {d : Directory κ ι α} {m : Move κ ι α} {i : ι}
    (h : m.about ≠ some i) : (apply d m).home i = d.home i := by
  cases m with
  | file j k f => exact Function.update_of_ne (fun e => h (by rw [e]; rfl)) ..
  | put k a => rfl
  | amend j k f => rfl
  | release j =>
      cases hhome : d.home j with
      | none => rw [apply_release_none hhome]
      | some k =>
          rw [apply_release_some hhome]
          exact Function.update_of_ne (fun e => h (by rw [e]; rfl)) ..
  | discard j k => exact Function.update_of_ne (fun e => h (by rw [e]; rfl)) ..

/-- What a move writes under a key, from the record that it finds there. -/
def Move.writes (k : κ) (found : Option α) : Move κ ι α → Option α
  | .file _ k' f => if k' = k then some (f found) else none
  | .put k' a => if k' = k then some a else none
  | .amend _ k' f => if k' = k then found.map f else none
  | .release _ => none
  | .discard _ _ => none

/-- A record after a move was there before, or the move has written it. -/
theorem slot_apply_cases {d : Directory κ ι α} {m : Move κ ι α} {k : κ} {a : α}
    (h : (apply d m).slot k = some a) :
    d.slot k = some a ∨ m.writes k (d.slot k) = some a := by
  by_cases hstrikes : m.strikes d = some k
  · cases m with
    | file i k' f =>
        obtain rfl : k' = k := Option.some.inj hstrikes
        right
        simpa [apply, Move.writes] using h
    | put k' a' =>
        obtain rfl : k' = k := Option.some.inj hstrikes
        right
        simpa [apply, Move.writes] using h
    | amend i k' f =>
        obtain rfl : k' = k := Option.some.inj hstrikes
        right
        simpa [apply, Move.writes] using h
    | release i =>
        rw [apply_release_some hstrikes] at h
        simp [apply] at h
    | discard i k' =>
        obtain rfl : k' = k := Option.some.inj hstrikes
        simp [apply] at h
  · left
    rwa [slot_apply_of_not_strikes hstrikes] at h

/-- A record after a run was there before, or a move of the run has written it. -/
theorem slot_run_cases {d : Directory κ ι α} {moves : List (Move κ ι α)} {k : κ} {a : α}
    (h : (run apply d moves).slot k = some a) :
    d.slot k = some a ∨ ∃ m ∈ moves, ∃ found, m.writes k found = some a := by
  induction moves generalizing d with
  | nil => exact .inl h
  | cons m rest ih =>
      rcases ih h with hmid | ⟨m', hm', hwrites⟩
      · rcases slot_apply_cases hmid with hbefore | hwrites
        · exact .inl hbefore
        · exact .inr ⟨m, List.mem_cons_self, _, hwrites⟩
      · exact .inr ⟨m', List.mem_cons_of_mem m hm', hwrites⟩

/-- The move writes under the key only what has the property, where what it finds there
has it. -/
def Move.Keeps (P : α → Prop) (k : κ) (m : Move κ ι α) : Prop :=
  ∀ found : Option α, (∀ a ∈ found, P a) → ∀ a ∈ m.writes k found, P a

/-- **A property of the record under a key.** -/
theorem slot_run_keeps {P : α → Prop} {d : Directory κ ι α} {moves : List (Move κ ι α)} {k : κ}
    (hkeeps : ∀ m ∈ moves, m.Keeps P k) (h : ∀ a ∈ d.slot k, P a) :
    ∀ a ∈ (run apply d moves).slot k, P a := by
  induction moves generalizing d with
  | nil => exact h
  | cons m rest ih =>
      rw [List.forall_mem_cons] at hkeeps
      refine ih hkeeps.2 fun a ha => ?_
      rcases slot_apply_cases ha with hbefore | hwrites
      · exact h a hbefore
      · exact hkeeps.1 (d.slot k) h a hwrites

/-- Where one of the moves puts a record that has it, it does not matter what was there. -/
theorem slot_run_of_put {P : α → Prop} {d : Directory κ ι α} {moves : List (Move κ ι α)} {k : κ}
    {a : α} (hput : Move.put k a ∈ moves) (ha : P a) (hkeeps : ∀ m ∈ moves, m.Keeps P k) :
    ∀ b ∈ (run apply d moves).slot k, P b := by
  obtain ⟨before, after, rfl⟩ := List.append_of_mem hput
  rw [run_append, run_cons]
  refine slot_run_keeps
    (fun m hm => hkeeps m (List.mem_append_right _ (List.mem_cons_of_mem _ hm))) fun b hb => ?_
  have hslot : (apply (run apply d before) (Move.put k a)).slot k = some a :=
    Function.update_self ..
  obtain rfl := Option.some.inj (hslot.symm.trans hb)
  exact ha

end Moves

/-! ## Owners -/

section Owners

variable (owner : α → Option ι)

/-- The owner of the record under a key. -/
def Directory.ownerAt (d : Directory κ ι α) (k : κ) : Option ι := (d.slot k).bind owner

/-- A move treats owners as its kind says: it files for the owner it is about,
puts a record of nobody, and amends without a change of owner. -/
def Move.Lawful : Move κ ι α → Prop
  | .file i _ f => ∀ o, owner (f o) = some i
  | .put _ a => owner a = none
  | .amend _ _ f => ∀ a, owner (f a) = owner a
  | .release _ => True
  | .discard _ _ => True

/-- The record that a move strikes belongs to the one it is about, if to
anybody. -/
def Move.Proper (d : Directory κ ι α) (m : Move κ ι α) : Prop :=
  ∀ k, m.strikes d = some k → ∀ j, d.ownerAt owner k = some j → m.about = some j

/-- The index points at records of their owners. -/
def Points (d : Directory κ ι α) : Prop :=
  ∀ i k, d.home i = some k → d.ownerAt owner k = some i

/-- Where `i` has a record, it is under `k` and the index says so; and the index
sends `i` nowhere else. -/
structure FiledAt (d : Directory κ ι α) (i : ι) (k : κ) : Prop where
  record : ∀ k', d.ownerAt owner k' = some i → k' = k ∧ d.home i = some k
  index : ∀ k', d.home i = some k' → k' = k

/-- No record belongs to `i`. -/
def Unlisted (d : Directory κ ι α) (i : ι) : Prop := ∀ k, d.ownerAt owner k ≠ some i

/-- Two directories hold the same of `i`: its records and its index entry. -/
structure SameFor (d d' : Directory κ ι α) (i : ι) : Prop where
  kept : ∀ k, d.ownerAt owner k = some i → d'.slot k = d.slot k
  fresh : ∀ k, d'.ownerAt owner k = some i → d'.slot k = d.slot k
  index : d'.home i = d.home i

/-- Owners and index entries only go from `d` to `d'`. -/
structure Shrinks (d d' : Directory κ ι α) : Prop where
  owners : ∀ k j, d'.ownerAt owner k = some j → d.ownerAt owner k = some j
  homes : ∀ i k, d'.home i = some k → d.home i = some k

variable {owner}

theorem ownerAt_congr {d d' : Directory κ ι α} {k : κ} (h : d'.slot k = d.slot k) :
    d'.ownerAt owner k = d.ownerAt owner k := by
  rw [Directory.ownerAt, h, Directory.ownerAt]

theorem SameFor.refl (d : Directory κ ι α) (i : ι) : SameFor owner d d i :=
  ⟨fun _ _ => rfl, fun _ _ => rfl, rfl⟩

theorem SameFor.trans {d d' d'' : Directory κ ι α} {i : ι} (h : SameFor owner d d' i)
    (h' : SameFor owner d' d'' i) : SameFor owner d d'' i where
  kept k hk := by
    have hmid := h.kept k hk
    rw [h'.kept k ((ownerAt_congr hmid).trans hk), hmid]
  fresh k hk := by
    have hmid := h'.fresh k hk
    rw [hmid, h.fresh k ((ownerAt_congr hmid).symm.trans hk)]
  index := h'.index.trans h.index

/-- Fewer index entries leave fewer slots to strike. -/
theorem strikes_of_shrinks {d d' : Directory κ ι α} {m : Move κ ι α} {k : κ}
    (hshrinks : Shrinks owner d d') (h : m.strikes d' = some k) : m.strikes d = some k := by
  cases m with
  | release i => exact hshrinks.homes i k h
  | file i k' f => exact h
  | put k' a => exact h
  | amend i k' f => exact h
  | discard i k' => exact h

/-- Fewer owners and fewer index entries leave fewer records to strike. -/
theorem Move.Proper.of_shrinks {d d' : Directory κ ι α} {m : Move κ ι α}
    (h : m.Proper owner d) (hshrinks : Shrinks owner d d') : m.Proper owner d' := by
  intro k hk j hj
  exact h k (strikes_of_shrinks hshrinks hk) j (hshrinks.owners k j hj)

/-- A release strikes nobody else where the index points. -/
theorem Points.proper_release {d : Directory κ ι α} (h : Points owner d) (i : ι) :
    (Move.release i : Move κ ι α).Proper owner d := by
  intro k hk j hj
  exact (h i k hk).symm.trans hj

variable [DecidableEq κ] [DecidableEq ι]

/-- An owner after a move was there before, or the move has filed it. -/
theorem ownerAt_apply {d : Directory κ ι α} {m : Move κ ι α} (hlawful : m.Lawful owner) {k : κ}
    {j : ι} (h : (apply d m).ownerAt owner k = some j) :
    d.ownerAt owner k = some j ∨ ∃ f, m = .file j k f := by
  obtain ⟨a, hslot, howner⟩ := Option.bind_eq_some_iff.mp h
  rcases slot_apply_cases hslot with hbefore | hwrites
  · exact .inl (Option.bind_eq_some_iff.mpr ⟨a, hbefore, howner⟩)
  · cases m with
    | file i k' f =>
        obtain ⟨rfl, hfiled⟩ := Option.ite_none_right_eq_some.mp hwrites
        obtain rfl := Option.some.inj hfiled
        obtain rfl : i = j := Option.some.inj ((hlawful _).symm.trans howner)
        exact .inr ⟨f, rfl⟩
    | put k' b =>
        obtain ⟨rfl, hput⟩ := Option.ite_none_right_eq_some.mp hwrites
        obtain rfl := Option.some.inj hput
        cases (show owner b = none from hlawful).symm.trans howner
    | amend i k' f =>
        obtain ⟨rfl, hamended⟩ := Option.ite_none_right_eq_some.mp hwrites
        obtain ⟨old, hold, rfl⟩ := Option.map_eq_some_iff.mp hamended
        have hkept : owner (f old) = owner old := hlawful old
        exact .inl (Option.bind_eq_some_iff.mpr ⟨old, hold, hkept.symm.trans howner⟩)
    | release i => cases hwrites
    | discard i k' => cases hwrites

theorem ownerAt_run {d : Directory κ ι α} {moves : List (Move κ ι α)}
    (hlawful : ∀ m ∈ moves, m.Lawful owner) {k : κ} {j : ι}
    (h : (run apply d moves).ownerAt owner k = some j) :
    d.ownerAt owner k = some j ∨ ∃ f, Move.file j k f ∈ moves := by
  induction moves generalizing d with
  | nil => exact .inl h
  | cons m rest ih =>
      rw [List.forall_mem_cons] at hlawful
      rcases ih hlawful.2 h with hmid | ⟨f, hfile⟩
      · rcases ownerAt_apply hlawful.1 hmid with hbefore | ⟨f, rfl⟩
        · exact .inl hbefore
        · exact .inr ⟨f, List.mem_cons_self ..⟩
      · exact .inr ⟨f, List.mem_cons_of_mem _ hfile⟩

theorem home_apply {d : Directory κ ι α} {m : Move κ ι α} (hfiles : ¬ m.Files) {i : ι} {k : κ}
    (h : (apply d m).home i = some k) : d.home i = some k := by
  by_cases habout : m.about = some i
  · cases m with
    | file j k' f => exact absurd trivial hfiles
    | put k' a => exact h
    | amend j k' f => exact h
    | release j =>
        obtain rfl : j = i := Option.some.inj habout
        cases hhome : d.home j with
        | none => rwa [apply_release_none hhome, hhome] at h
        | some k' =>
            rw [apply_release_some hhome] at h
            simp [apply] at h
    | discard j k' =>
        obtain rfl : j = i := Option.some.inj habout
        simp [apply] at h
  · rwa [home_apply_of_about_ne habout] at h

theorem shrinks_apply {d : Directory κ ι α} {m : Move κ ι α} (hlawful : m.Lawful owner)
    (hfiles : ¬ m.Files) : Shrinks owner d (apply d m) where
  owners _ _ h := (ownerAt_apply hlawful h).resolve_right fun ⟨_, hfile⟩ => hfiles (hfile ▸ trivial)
  homes _ _ := home_apply hfiles

/-- **The side condition checked at the start.** Moves that file nothing and
that are all proper before the first of them are proper when they are made. -/
theorem meets_proper {d : Directory κ ι α} {moves : List (Move κ ι α)}
    (hlawful : ∀ m ∈ moves, m.Lawful owner) (hfiles : ∀ m ∈ moves, ¬ m.Files)
    (hproper : ∀ m ∈ moves, m.Proper owner d) :
    Meets apply (fun d m => m.Lawful owner ∧ m.Proper owner d) d moves := by
  induction moves generalizing d with
  | nil => trivial
  | cons m rest ih =>
      rw [List.forall_mem_cons] at hlawful hfiles hproper
      have hshrinks := shrinks_apply (d := d) hlawful.1 hfiles.1
      exact ⟨⟨hlawful.1, hproper.1⟩,
        ih hlawful.2 hfiles.2 fun m' hm' => (hproper.2 m' hm').of_shrinks hshrinks⟩

/-! ## The index points at its owners' records -/

theorem Points.apply {d : Directory κ ι α} {m : Move κ ι α} (h : Points owner d)
    (hlawful : m.Lawful owner) (hproper : m.Proper owner d) : Points owner (apply d m) := by
  intro i k hk
  by_cases habout : m.about = some i
  · cases m with
    | file j k' f =>
        obtain rfl : j = i := Option.some.inj habout
        obtain rfl : k' = k := by simpa [Filing.apply] using hk
        simpa [Directory.ownerAt, Filing.apply] using hlawful (d.slot k')
    | put k' a => cases habout
    | amend j k' f =>
        have hamend : ∀ a, owner (f a) = owner a := hlawful
        have hpoint := h i k hk
        by_cases hkk : k = k'
        · subst hkk
          cases hslot : d.slot k with
          | none => simp [Directory.ownerAt, hslot] at hpoint
          | some a => simpa [Directory.ownerAt, Filing.apply, hslot, hamend] using hpoint
        · have hkept : (Filing.apply d (.amend j k' f)).slot k = d.slot k :=
            Function.update_of_ne hkk ..
          rwa [ownerAt_congr hkept]
    | release j =>
        obtain rfl : j = i := Option.some.inj habout
        cases hhome : d.home j with
        | none =>
            rw [apply_release_none hhome] at hk
            cases hhome.symm.trans hk
        | some k' =>
            rw [apply_release_some hhome] at hk
            simp [Filing.apply] at hk
    | discard j k' =>
        obtain rfl : j = i := Option.some.inj habout
        simp [Filing.apply] at hk
  · rw [home_apply_of_about_ne habout] at hk
    have hpoint := h i k hk
    have hstrikes : m.strikes d ≠ some k := fun e => habout (hproper k e i hpoint)
    rwa [ownerAt_congr (slot_apply_of_not_strikes hstrikes)]

/-- **The index keeps pointing.** -/
theorem Points.run {d : Directory κ ι α} {moves : List (Move κ ι α)} (h : Points owner d)
    (hmeets : Meets Filing.apply (fun d m => m.Lawful owner ∧ m.Proper owner d) d moves) :
    Points owner (run Filing.apply d moves) :=
  run_invariant_of_meets (Points owner) (fun _ _ hm h => h.apply hm.1 hm.2) h moves hmeets

/-! ## The frame of a move -/

theorem sameFor_apply {d : Directory κ ι α} {m : Move κ ι α} (hlawful : m.Lawful owner)
    (hproper : m.Proper owner d) {i : ι} (habout : m.about ≠ some i) :
    SameFor owner d (apply d m) i where
  kept k hk := slot_apply_of_not_strikes fun e => habout (hproper k e i hk)
  fresh k hk := by
    have hbefore := (ownerAt_apply hlawful hk).resolve_right fun ⟨_, hfile⟩ =>
      habout (hfile ▸ rfl)
    exact slot_apply_of_not_strikes fun e => habout (hproper k e i hbefore)
  index := home_apply_of_about_ne habout

/-- **The frame.** Moves that are about others and strike nobody else's record
leave `i` as it is. -/
theorem sameFor_run {d : Directory κ ι α} {moves : List (Move κ ι α)} {i : ι}
    (hmeets : Meets apply (fun d m => m.Lawful owner ∧ m.Proper owner d) d moves)
    (habout : ∀ m ∈ moves, m.about ≠ some i) : SameFor owner d (run apply d moves) i := by
  induction moves generalizing d with
  | nil => exact .refl d i
  | cons m rest ih =>
      rw [List.forall_mem_cons] at habout
      obtain ⟨⟨hlawful, hproper⟩, hrest⟩ := hmeets
      exact (sameFor_apply hlawful hproper habout.1).trans (ih hrest habout.2)

/-- **A slot that is left alone.** Moves that do not file, do not strike the slot
and are about nobody that the index sends to it. -/
theorem slot_run {d : Directory κ ι α} {moves : List (Move κ ι α)} {k : κ}
    (hlawful : ∀ m ∈ moves, m.Lawful owner) (hfiles : ∀ m ∈ moves, ¬ m.Files)
    (hstrikes : ∀ m ∈ moves, m.strikes d ≠ some k)
    (habout : ∀ m ∈ moves, ∀ i, m.about = some i → d.home i ≠ some k) :
    (run apply d moves).slot k = d.slot k ∧
      ∀ i, (run apply d moves).home i = some k ↔ d.home i = some k := by
  induction moves generalizing d with
  | nil => exact ⟨rfl, fun _ => Iff.rfl⟩
  | cons m rest ih =>
      rw [List.forall_mem_cons] at hlawful hfiles hstrikes habout
      have hshrinks := shrinks_apply (d := d) hlawful.1 hfiles.1
      obtain ⟨hslot, hhome⟩ := ih hlawful.2 hfiles.2
        (fun m' hm' h => hstrikes.2 m' hm' (strikes_of_shrinks hshrinks h))
        (fun m' hm' i hi h => habout.2 m' hm' i hi (hshrinks.homes i k h))
      refine ⟨hslot.trans (slot_apply_of_not_strikes hstrikes.1), fun i => (hhome i).trans ?_⟩
      refine ⟨hshrinks.homes i k, fun h => ?_⟩
      rwa [home_apply_of_about_ne fun hi => habout.1 i hi h]

/-! ## An owner that is filed under one key -/

/-- The move files or discards `i` under `k`, if it does either to `i`. -/
def Move.KeepsTo (i : ι) (k : κ) : Move κ ι α → Prop
  | .file j k' _ => j = i → k' = k
  | .discard j k' => j = i → k' = k
  | _ => True

/-- Discarding an owner where it is filed leaves it nowhere. -/
theorem FiledAt.discard {d : Directory κ ι α} {i : ι} {k : κ} (h : FiledAt owner d i k) :
    FiledAt owner (Filing.apply d (.discard i k)) i k := by
  refine ⟨fun k₁ hk₁ => ?_, fun k₁ hk₁ => ?_⟩
  · have hbefore := (ownerAt_apply (m := .discard i k) trivial hk₁).resolve_right
      fun ⟨_, hfile⟩ => nomatch hfile
    obtain rfl := (h.record k₁ hbefore).1
    simp [Directory.ownerAt, Filing.apply] at hk₁
  · simp [Filing.apply] at hk₁

theorem FiledAt.apply {d : Directory κ ι α} {m : Move κ ι α} {i : ι} {k : κ}
    (h : FiledAt owner d i k) (hlawful : m.Lawful owner) (hkeeps : m.KeepsTo i k) :
    FiledAt owner (apply d m) i k := by
  by_cases habout : m.about = some i
  · cases m with
    | file j k' f =>
        obtain rfl : j = i := Option.some.inj habout
        obtain rfl : k' = k := hkeeps rfl
        have hhome : (Filing.apply d (.file j k' f)).home j = some k' :=
          Function.update_self ..
        refine ⟨fun k₁ hk₁ => ⟨?_, hhome⟩, fun k₁ hk₁ => ?_⟩
        · by_contra hne
          have hkept : (Filing.apply d (.file j k' f)).slot k₁ = d.slot k₁ :=
            Function.update_of_ne hne ..
          exact hne (h.record k₁ ((ownerAt_congr hkept).symm.trans hk₁)).1
        · exact Option.some.inj (hk₁.symm.trans hhome)
    | put k' a => cases habout
    | amend j k' f =>
        refine ⟨fun k₁ hk₁ => ?_, h.index⟩
        exact h.record k₁ ((ownerAt_apply hlawful hk₁).resolve_right fun ⟨_, hfile⟩ => nomatch hfile)
    | release j =>
        obtain rfl : j = i := Option.some.inj habout
        cases hhome : d.home j with
        | none => rwa [apply_release_none hhome]
        | some k' =>
            obtain rfl : k' = k := h.index k' hhome
            rw [apply_release_some hhome]
            exact h.discard
    | discard j k' =>
        obtain rfl : j = i := Option.some.inj habout
        obtain rfl : k' = k := hkeeps rfl
        exact h.discard
  · have hhome := home_apply_of_about_ne (d := d) habout
    refine ⟨fun k₁ hk₁ => ?_, fun k₁ hk₁ => h.index k₁ (hhome.symm.trans hk₁)⟩
    have hbefore := (ownerAt_apply hlawful hk₁).resolve_right fun ⟨_, hfile⟩ =>
      habout (hfile ▸ rfl)
    exact ⟨(h.record k₁ hbefore).1, hhome.trans (h.record k₁ hbefore).2⟩

/-- **One key an owner.** -/
theorem FiledAt.run {d : Directory κ ι α} {moves : List (Move κ ι α)} {i : ι} {k : κ}
    (h : FiledAt owner d i k) (hlawful : ∀ m ∈ moves, m.Lawful owner)
    (hkeeps : ∀ m ∈ moves, m.KeepsTo i k) : FiledAt owner (run Filing.apply d moves) i k := by
  induction moves generalizing d with
  | nil => exact h
  | cons m rest ih =>
      rw [List.forall_mem_cons] at hlawful hkeeps
      exact ih (h.apply hlawful.1 hkeeps.1) hlawful.2 hkeeps.2

/-- **Release.** An owner that is filed under one key is gone once it is
released. -/
theorem unlisted_release {d : Directory κ ι α} {i : ι} {k : κ} (h : FiledAt owner d i k) :
    Unlisted owner (apply d (.release i)) i := by
  intro k₁ hk₁
  have hbefore := (ownerAt_apply (m := .release i) trivial hk₁).resolve_right
    fun ⟨_, hfile⟩ => nomatch hfile
  obtain ⟨rfl, hhome⟩ := h.record k₁ hbefore
  rw [apply_release_some hhome] at hk₁
  simp [Directory.ownerAt, apply] at hk₁

theorem Unlisted.run {d : Directory κ ι α} {moves : List (Move κ ι α)} {i : ι}
    (h : Unlisted owner d i) (hlawful : ∀ m ∈ moves, m.Lawful owner)
    (hfiles : ∀ m ∈ moves, ∀ k f, m ≠ .file i k f) :
    Unlisted owner (run Filing.apply d moves) i := by
  intro k hk
  rcases ownerAt_run hlawful hk with hbefore | ⟨f, hfile⟩
  · exact h k hbefore
  · exact hfiles _ hfile k f rfl

end Owners

end Corsair.Verified.Filing
