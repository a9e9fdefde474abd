import Mathlib.Data.List.Triplewise
import Corsair.Verified.Runs
import Corsair.Ports.TraderState

/-!
# `OutboundLimiter` under every interleaving

The limiter keeps the times of two sends.  A call loads the one slot, loads the other, and
either gives up, because both are recent, or exchanges the older for its own time if it is
still what was loaded.  `step` takes one of these steps of the thread that the scheduler
picked; the times are whatever the callers pass, in no order.

A slot only ever grows, since what is written is later than what it replaces by the
window at least.  So the loaded older slot, if it is still there, is the older one now:
the exchange is the whole of an undisturbed call (`exchange_eq_tryConsume`), and the two
slots hold the two latest of the times that went through.

## Main results

* `exchange_eq_tryConsume` — an exchange that succeeds is `try_consume` at that instant.
* `undisturbed_call` — the steps of a call that nobody disturbs are `try_consume`.
* `LimiterInv.step` — each step keeps the invariant.
* `burst_limited` — after every schedule no three admitted times are within a window.
-/

namespace Corsair.Ports.BurstLimiter

open Corsair.Verified.Runs
open Corsair.Ports.TraderState

/-! ## The callers -/

/-- Where a thread stands in `try_consume`, with its time and what it has loaded. -/
inductive Caller
  | idle
  | called (now : Nat)
  | loadedA (now a : Nat)
  | loadedB (now a b : Nat)
  deriving DecidableEq, Repr

/-- The limiter and its callers, and the calls that have returned. -/
structure Sys (Thread : Type) where
  limiter : OutboundLimiter
  callers : Thread → Caller
  returned : List (Nat × Bool)

/-- A thread calls, or takes the next step of its call. -/
inductive Step (Thread : Type)
  | call (thread : Thread) (now : Nat)
  | move (thread : Thread)

variable {Thread : Type} [DecidableEq Thread]

def Sys.goto (s : Sys Thread) (thread : Thread) (caller : Caller) : Sys Thread :=
  { s with callers := Function.update s.callers thread caller }

/-- The call returns. -/
def Sys.finish (s : Sys Thread) (thread : Thread) (now : Nat) (sent : Bool) : Sys Thread :=
  { s.goto thread .idle with returned := s.returned ++ [(now, sent)] }

/-- The last part of the loop body: both slots are recent, or the older one is exchanged; a
failed exchange goes around the loop. -/
def exchange (maxAge : Nat) (s : Sys Thread) (thread : Thread) (now a b : Nat) : Sys Thread :=
  if now - a < maxAge ∧ now - b < maxAge then s.finish thread now false
  else if a ≤ b then
    if s.limiter.slotA = a then
      { s with limiter := { s.limiter with slotA := now } }.finish thread now true
    else s.goto thread (.called now)
  else
    if s.limiter.slotB = b then
      { s with limiter := { s.limiter with slotB := now } }.finish thread now true
    else s.goto thread (.called now)

/-- One atomic step. -/
def step (maxAge : Nat) (s : Sys Thread) : Step Thread → Sys Thread
  | .call thread now => if s.callers thread = .idle then s.goto thread (.called now) else s
  | .move thread =>
      match s.callers thread with
      | .idle => s
      | .called now => s.goto thread (.loadedA now s.limiter.slotA)
      | .loadedA now a => s.goto thread (.loadedB now a s.limiter.slotB)
      | .loadedB now a b => exchange maxAge s thread now a b

/-- **Undisturbed, the steps of a call are `try_consume`.** -/
theorem undisturbed_call (maxAge : Nat) (s : Sys Thread) (thread : Thread) (now : Nat)
    (hidle : s.callers thread = .idle) :
    let after := run (step maxAge) s [.call thread now, .move thread, .move thread, .move thread]
    after.limiter = (s.limiter.tryConsume now maxAge).2 ∧
      after.returned = s.returned ++ [(now, (s.limiter.tryConsume now maxAge).1)] := by
  intro after
  let inside := ((s.goto thread (.called now)).goto thread (.loadedA now s.limiter.slotA)).goto
    thread (.loadedB now s.limiter.slotA s.limiter.slotB)
  have hafter : after =
      exchange maxAge inside thread now s.limiter.slotA s.limiter.slotB := by
    simp [after, inside, step, Sys.goto, hidle]
  rw [hafter]
  unfold exchange OutboundLimiter.tryConsume
  split
  · exact ⟨rfl, rfl⟩
  · split
    · rw [if_pos (show inside.limiter.slotA = s.limiter.slotA from rfl)]
      exact ⟨rfl, rfl⟩
    · rw [if_pos (show inside.limiter.slotB = s.limiter.slotB from rfl)]
      exact ⟨rfl, rfl⟩

/-- `OutboundLimiter::default`, and nobody inside. -/
def start : Sys Thread :=
  { limiter := { slotA := 0, slotB := 0 }
    callers := fun _ => .idle
    returned := [] }

/-- The times of the calls that returned true, in the order in which they did. -/
def admitted (returned : List (Nat × Bool)) : List Nat :=
  (returned.filter fun r => r.2).map Prod.fst

@[simp] theorem admitted_append (returned : List (Nat × Bool)) (now : Nat) (sent : Bool) :
    admitted (returned ++ [(now, sent)]) = admitted returned ++ if sent then [now] else [] := by
  cases sent with
  | true => simp [admitted]
  | false => simp [admitted]

/-! ## The two latest times -/

/-- The older and the later slot. -/
def oldest (l : OutboundLimiter) : Nat := min l.slotA l.slotB

def latest (l : OutboundLimiter) : Nat := max l.slotA l.slotB

/-- The window does not cover the three times. -/
def Apart (window x y z : Nat) : Prop :=
  min x (min y z) + window ≤ max x (max y z)

/-- The slots are the two latest of the times, and no three of these are within a
window. -/
structure TwoLatest (window : Nat) (l : OutboundLimiter) (times : List Nat) : Prop where
  bound : ∀ x ∈ times, x ≤ latest l
  pairs : times.Pairwise fun x y => min x y ≤ oldest l
  apart : times.Triplewise (Apart window)

section TryConsume

variable {window now : Nat} {l : OutboundLimiter}

/-- A send needs the older slot out of the window. -/
theorem tryConsume_sent_iff (hwindow : 0 < window) :
    (l.tryConsume now window).1 = true ↔ oldest l + window ≤ now := by
  unfold OutboundLimiter.tryConsume oldest
  split
  · next hrecent =>
    simp only [Bool.false_eq_true, false_iff]
    omega
  · split
    · simp only [true_iff]
      omega
    · simp only [true_iff]
      omega

/-- It leaves the later slot and its own time. -/
theorem slots_tryConsume (hsent : (l.tryConsume now window).1 = true) :
    oldest (l.tryConsume now window).2 = min (latest l) now ∧
      latest (l.tryConsume now window).2 = max (latest l) now := by
  unfold OutboundLimiter.tryConsume at hsent ⊢
  unfold oldest latest
  split
  · next hrecent =>
    rw [if_pos hrecent] at hsent
    cases hsent
  · split
    · simp only
      omega
    · simp only
      omega

/-- Both slots grow. -/
theorem le_tryConsume (hwindow : 0 < window) (hsent : (l.tryConsume now window).1 = true) :
    l.slotA ≤ (l.tryConsume now window).2.slotA ∧
      l.slotB ≤ (l.tryConsume now window).2.slotB := by
  have hlate := (tryConsume_sent_iff hwindow).mp hsent
  unfold OutboundLimiter.tryConsume oldest at *
  split
  · exact ⟨le_rfl, le_rfl⟩
  · split
    · simp only
      omega
    · simp only
      omega

/-- **The abstract step.** A time that goes through is out of the window of the second
latest, and so of one of any two before it. -/
theorem TwoLatest.tryConsume {times : List Nat} (h : TwoLatest window l times)
    (hwindow : 0 < window) (hsent : (l.tryConsume now window).1 = true) :
    TwoLatest window (l.tryConsume now window).2 (times ++ [now]) := by
  have hlate := (tryConsume_sent_iff hwindow).mp hsent
  obtain ⟨holdest, hlatest⟩ := slots_tryConsume hsent
  have hle : oldest l ≤ latest l := min_le_max
  constructor
  · intro x hx
    rw [hlatest]
    rcases List.mem_append.mp hx with hold | hnew
    · exact le_max_of_le_left (h.bound x hold)
    · exact le_max_of_le_right (List.mem_singleton.mp hnew).le
  · rw [List.pairwise_append]
    refine ⟨h.pairs.imp fun hpair => ?_, List.pairwise_singleton .., ?_⟩
    · rw [holdest]
      omega
    · intro x hx y hy
      have hbound := h.bound x hx
      rw [List.mem_singleton.mp hy, holdest]
      omega
  · rw [List.triplewise_append]
    refine ⟨h.apart, List.triplewise_singleton .., fun x _ => List.pairwise_singleton .., ?_⟩
    intro z hz
    rw [List.mem_singleton.mp hz]
    refine h.pairs.imp fun hpair => ?_
    unfold Apart
    omega

end TryConsume

/-! ## The exchange -/

/-- What a caller has loaded was in the slots, which grow. -/
def Loaded (l : OutboundLimiter) : Caller → Prop
  | .loadedA _ a => a ≤ l.slotA
  | .loadedB _ a b => a ≤ l.slotA ∧ b ≤ l.slotB
  | _ => True

theorem Loaded.mono {l l' : OutboundLimiter} {caller : Caller} (h : Loaded l caller)
    (hA : l.slotA ≤ l'.slotA) (hB : l.slotB ≤ l'.slotB) : Loaded l' caller := by
  cases caller with
  | idle => trivial
  | called now => trivial
  | loadedA now a => exact le_trans h hA
  | loadedB now a b => exact ⟨le_trans h.1 hA, le_trans h.2 hB⟩

/-- **An exchange that succeeds is an undisturbed call at that instant.**  Otherwise the
limiter is as it was, and the call gives up or goes around the loop. -/
theorem exchange_eq_tryConsume {window : Nat} (hwindow : 0 < window) (s : Sys Thread)
    (thread : Thread) {now a b : Nat} (hloaded : Loaded s.limiter (.loadedB now a b)) :
    exchange window s thread now a b = s.finish thread now false ∨
      exchange window s thread now a b = s.goto thread (.called now) ∨
      (s.limiter.tryConsume now window).1 = true ∧
        exchange window s thread now a b =
          { s with limiter := (s.limiter.tryConsume now window).2 }.finish thread now true := by
  obtain ⟨hA, hB⟩ := hloaded
  unfold exchange
  split
  · exact .inl rfl
  · next hstale =>
    right
    split
    · next hle =>
      split
      · next hsame =>
        -- the slot that is still there is the older one, whatever the other has become
        right
        have hsend : ¬ (now - s.limiter.slotA < window ∧ now - s.limiter.slotB < window) := by
          omega
        have hfirst : s.limiter.slotA ≤ s.limiter.slotB := by omega
        have hcall : s.limiter.tryConsume now window =
            (true, { s.limiter with slotA := now }) := by
          unfold OutboundLimiter.tryConsume
          rw [if_neg hsend, if_pos hfirst]
        rw [hcall]
        exact ⟨rfl, rfl⟩
      · exact .inl rfl
    · next hlt =>
      split
      · next hsame =>
        right
        have hsend : ¬ (now - s.limiter.slotA < window ∧ now - s.limiter.slotB < window) := by
          omega
        have hfirst : ¬ s.limiter.slotA ≤ s.limiter.slotB := by omega
        have hcall : s.limiter.tryConsume now window =
            (true, { s.limiter with slotB := now }) := by
          unfold OutboundLimiter.tryConsume
          rw [if_neg hsend, if_neg hfirst]
        rw [hcall]
        exact ⟨rfl, rfl⟩
      · exact .inl rfl

/-! ## Every interleaving -/

/-- **The invariant.** Every caller has loaded what the slots have since outgrown, and the
slots are the two latest of the times that went through. -/
structure LimiterInv (window : Nat) (s : Sys Thread) : Prop where
  loaded : ∀ thread, Loaded s.limiter (s.callers thread)
  latest : TwoLatest window s.limiter (admitted s.returned)

theorem LimiterInv.goto {window : Nat} {s : Sys Thread} (h : LimiterInv window s)
    (thread : Thread) {caller : Caller} (hcaller : Loaded s.limiter caller) :
    LimiterInv window (s.goto thread caller) := by
  constructor
  · intro other
    show Loaded s.limiter (Function.update s.callers thread caller other)
    rw [Function.update_apply]
    split
    · exact hcaller
    · exact h.loaded other
  · exact h.latest

theorem LimiterInv.finish_false {window : Nat} {s : Sys Thread} (h : LimiterInv window s)
    (thread : Thread) (now : Nat) : LimiterInv window (s.finish thread now false) := by
  have hidle := h.goto thread (show Loaded s.limiter .idle from trivial)
  constructor
  · exact hidle.loaded
  · show TwoLatest window s.limiter (admitted (s.returned ++ [(now, false)]))
    rw [admitted_append]
    simpa using h.latest

theorem LimiterInv.finish_true {window : Nat} {s : Sys Thread} (h : LimiterInv window s)
    (hwindow : 0 < window) (thread : Thread) {now : Nat}
    (hsent : (s.limiter.tryConsume now window).1 = true) :
    LimiterInv window
      ({ s with limiter := (s.limiter.tryConsume now window).2 }.finish thread now true) := by
  obtain ⟨hA, hB⟩ := le_tryConsume hwindow hsent
  constructor
  · intro other
    show Loaded (s.limiter.tryConsume now window).2 (Function.update s.callers thread .idle other)
    rw [Function.update_apply]
    split
    · trivial
    · exact (h.loaded other).mono hA hB
  · show TwoLatest window _ (admitted (s.returned ++ [(now, true)]))
    rw [admitted_append]
    exact h.latest.tryConsume hwindow hsent

/-- **Step lemma.** -/
theorem LimiterInv.step {window : Nat} (hwindow : 0 < window) (s : Sys Thread)
    (st : Step Thread) (h : LimiterInv window s) : LimiterInv window (step window s st) := by
  cases st with
  | call thread now =>
      simp only [BurstLimiter.step]
      split
      · exact h.goto thread trivial
      · exact h
  | move thread =>
      have hloaded := h.loaded thread
      simp only [BurstLimiter.step]
      cases hcaller : s.callers thread with
      | idle => exact h
      | called now => exact h.goto thread le_rfl
      | loadedA now a =>
          rw [hcaller] at hloaded
          exact h.goto thread ⟨hloaded, le_rfl⟩
      | loadedB now a b =>
          rw [hcaller] at hloaded
          rcases exchange_eq_tryConsume hwindow s thread hloaded with hgave | hagain | ⟨hsent, heq⟩
          · simp only [hgave]
            exact h.finish_false thread now
          · simp only [hagain]
            exact h.goto thread trivial
          · simp only [heq]
            exact h.finish_true hwindow thread hsent

omit [DecidableEq Thread] in
theorem start_limiterInv (window : Nat) : LimiterInv window (start : Sys Thread) := by
  constructor
  · intro thread
    trivial
  · exact { bound := by simp [start, admitted]
            pairs := List.Pairwise.nil
            apart := List.Triplewise.nil }

/-- **The burst limit.** Whatever the threads, their times and the order of their steps, of
the times that went through no three are within a window. -/
theorem burst_limited {window : Nat} (hwindow : 0 < window) (schedule : List (Step Thread)) :
    (admitted (run (step window) start schedule).returned).Triplewise (Apart window) :=
  (run_invariant (LimiterInv window) (LimiterInv.step hwindow) (start_limiterInv window)
    schedule).latest.apart

/-- Two threads race for a slot with times out of order, and the one that loses loads again
and gives up; the next time is a window after the first. -/
def race : List (Step Nat) :=
  [.call 0 100, .move 0, .move 0, .move 0, .call 1 140, .move 1, .move 1, .call 2 130, .move 2,
    .move 2, .move 2, .move 1, .move 1, .move 1, .move 1, .call 0 150, .move 0, .move 0, .move 0]

theorem burst_limited_in_race :
    admitted (run (step 50) (start : Sys Nat) race).returned = [100, 130, 150] ∧
      (admitted (run (step 50) (start : Sys Nat) race).returned).Triplewise (Apart 50) :=
  ⟨by decide +kernel, burst_limited (by decide) race⟩

end Corsair.Ports.BurstLimiter
