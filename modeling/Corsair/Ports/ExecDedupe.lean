import Corsair.Verified.Recent
import Corsair.Verified.Runs
import Corsair.Ports.HedgeManager

/-!
# `corsair_hedge`: executions that are seen again

`apply_broker_fill` refuses a fill whose execution id it remembers.  It remembers the last ids
that it has taken, up to `PROCESSED_EXEC_IDS_MAX` of them.  `taken` lists all the ids that a
sequence of fills has brought in, which the program does not keep.

## Main results

* `remembers_run` — the manager remembers the most recent of the ids taken.
* `exec_dedupe` — an execution that is repeated soon enough counts once.
-/

namespace Corsair.Ports.ExecDedupe

open Corsair.Verified
open Corsair.Verified.Runs
open Corsair.Verified.Recent (Remembers remembers_nil remembers_push mem_of_few_later)
open Corsair.Ports.BrokerApi
open Corsair.Ports.HedgeManager

variable {F : Type} [F64 F]

/-- A fill, with the clock that the call reads. -/
abbrev TimedFill (F : Type) := Fill F × Nat

/-- The manager after a fill. -/
def feed (m : HedgeManager F) (f : TimedFill F) : HedgeManager F :=
  (m.applyBrokerFill f.1 f.2).2

/-- The ids of the fills that are taken. -/
def taken (m : HedgeManager F) : List (TimedFill F) → List String
  | [] => []
  | f :: rest =>
      (if (m.applyBrokerFill f.1 f.2).1 then [f.1.execId] else []) ++ taken (feed m f) rest

theorem taken_append (m : HedgeManager F) (front back : List (TimedFill F)) :
    taken m (front ++ back) = taken m front ++ taken (run feed m front) back := by
  induction front generalizing m with
  | nil => rfl
  | cons f front ih =>
      rw [List.cons_append, taken, taken, ih, run_cons, List.append_assoc]

/-- One fill. -/
theorem remembers_feed {m : HedgeManager F} {log : List String}
    (h : Remembers processedExecIdsMax log m.processedExecIds) (f : TimedFill F) :
    Remembers processedExecIdsMax (log ++ taken m [f]) (feed m f).processedExecIds := by
  rcases m.applyBrokerFill_cases f.1 f.2 with ⟨htakes, htaken, -, hids⟩ | ⟨-, hrefused⟩
  · have hpush := remembers_push h (by decide) htakes.2.2.2
    simp only [taken, htaken, if_true, List.append_nil, feed, hids]
    exact hpush
  · simpa [taken, feed, hrefused] using h

/-- **The ids that are remembered** are the most recent of those taken. -/
theorem remembers_run {m : HedgeManager F} {log : List String}
    (h : Remembers processedExecIdsMax log m.processedExecIds) (fills : List (TimedFill F)) :
    Remembers processedExecIdsMax (log ++ taken m fills) (run feed m fills).processedExecIds := by
  induction fills generalizing m log with
  | nil => simpa [taken] using h
  | cons f rest ih =>
      have hsplit : taken m (f :: rest) = taken m [f] ++ taken (feed m f) rest :=
        taken_append m [f] rest
      rw [hsplit, ← List.append_assoc]
      exact ih (remembers_feed h f)

/-- A fill that changes the hedge is taken. -/
theorem takes_of_state_ne {m : HedgeManager F} {f : TimedFill F}
    (h : (feed m f).state ≠ m.state) : m.Takes f.1 ∧ taken m [f] = [f.1.execId] := by
  rcases m.applyBrokerFill_cases f.1 f.2 with ⟨htakes, htaken, -⟩ | ⟨-, hrefused⟩
  · exact ⟨htakes, by simp [taken, htaken]⟩
  · exact absurd (by rw [feed, hrefused]) h

/-- **Executions are deduplicated.** From a new manager, the ids that are remembered stay within
their bound, and of two fills of one execution at most one changes the hedge, if fewer than so
many different executions were taken between them. -/
theorem exec_dedupe (cfg : HedgeConfig F) (contract : Contract F) :
    let m := (HedgeManager.new cfg).setHedgeContract contract
    (∀ fills, (run feed m fills).processedExecIds.length ≤ processedExecIdsMax) ∧
      ∀ (front : List (TimedFill F)) (f : TimedFill F) (between : List (TimedFill F))
        (g : TimedFill F), g.1.execId = f.1.execId →
        let before := run feed m front
        let again := run feed (feed before f) between
        (taken (feed before f) between).dedup.length < processedExecIdsMax →
          ¬ ((feed before f).state ≠ before.state ∧ (feed again g).state ≠ again.state) := by
  intro m
  have hstart : Remembers processedExecIdsMax [] m.processedExecIds := remembers_nil _
  refine ⟨fun fills => (remembers_run hstart fills).bounded, ?_⟩
  intro front f between g hsame before again hfew ⟨hfirst, hsecond⟩
  have hkept := remembers_run hstart (front ++ [f] ++ between)
  have hlog : taken m (front ++ [f] ++ between) =
      taken m front ++ f.1.execId :: taken (feed before f) between := by
    rw [taken_append, taken_append, (takes_of_state_ne hfirst).2, run_append, List.append_assoc]
    rfl
  rw [List.nil_append, hlog, run_append, run_append] at hkept
  have hseen : f.1.execId ∈ again.processedExecIds := mem_of_few_later hkept hfew
  exact (takes_of_state_ne hsecond).1.2.2.2 (hsame ▸ hseen)

end Corsair.Ports.ExecDedupe
