import Corsair.Ports.InstrumentRouting

/-!
# `corsair_broker::subscriptions`: the window of subscribed options

At boot the options of a window are qualified and subscribed one by one, and every half a
minute `run_window_recenter` does so with those that are missing from the window around the
forward.  An option is taken as subscribed if the market data has it.

A call registers the option between its two requests.  If the second one fails the call has
failed, and the option is in the market data all the same.

A cycle is the calls of one product, in the order of the code; the window's strikes, and how
each call ends, may be anything.  `calls` keeps the calls that were made.  The two caches of
contracts that a call fills are left out.

## Main results

* `backed_step` — what counts as subscribed was, where no call fails after it has registered a
  leg.
* `failed_retried` — then every failed call is made again by every later cycle.
* `never_again` — where one does, no later cycle makes it.
-/

namespace Corsair.Ports.WindowRecenter

open Corsair.Verified
open Corsair.Verified.Runs
open Corsair.Ports.Portfolio (Right Date)
open Corsair.Ports.PositionBook
open Corsair.Ports.Fills (OptionTick OptionTicks optionsForProduct)
open Corsair.Ports.InstrumentRouting
open Corsair.Ports.InstrumentRouting.MarketDataState

variable {F : Type} [F64 F]

/-! ## One call -/

/-- How a call ends: no contract, a contract without ticks, or both. -/
inductive Outcome
  | qualifyFailed
  | subscribeFailed (iid : Nat)
  | subscribed (iid : Nat)
  deriving DecidableEq, Repr

def Outcome.isOk : Outcome → Bool
  | .subscribed _ => true
  | .qualifyFailed | .subscribeFailed _ => false

/-- What a window is made of: strike, expiry and right. -/
abbrev Wanted (F : Type) := F × Date × Right

/-- A call of `qualify_and_subscribe`, and how it ends. -/
structure Call (F : Type) where
  product : String
  wanted : Wanted F
  outcome : Outcome
  deriving DecidableEq

def Call.registration (c : Call F) (iid : Nat) : Registration F where
  product := c.product
  strike := c.wanted.1
  expiry := c.wanted.2.1
  right := c.wanted.2.2
  instrumentId := iid

/-- The key of the leg. -/
def Call.key (c : Call F) : PositionKey :=
  makeKey c.product c.wanted.1 c.wanted.2.1 c.wanted.2.2

/-- The legs of the market data, the front expiries that the loop has found, and the calls made
so far. -/
structure Recenter (F : Type) [F64 F] where
  md : MarketDataState F
  cachedFront : AList (fun _ : String => Date)
  calls : List (Call F)

def Recenter.start : Recenter F := ⟨.new, ∅, []⟩

/-- `qualify_and_subscribe`. -/
def qualifyAndSubscribe (s : Recenter F) (c : Call F) : Recenter F :=
  { s with
    md := match c.outcome with
      | .qualifyFailed => s.md
      -- The leg is registered before its ticks are asked for.
      | .subscribeFailed iid | .subscribed iid => s.md.registerOption (c.registration iid)
    calls := s.calls ++ [c] }

/-! ## One cycle -/

/-- `min`, on dates. -/
def earlier (a b : Date) : Date :=
  if b.year < a.year ∨ b.year = a.year ∧
      (b.month < a.month ∨ b.month = a.month ∧ b.day < a.day) then b
  else a

/-- The earliest of some expiries. -/
def earliest (expiries : List Date) : Option Date :=
  expiries.foldl (fun e expiry => some (e.elim expiry (earlier · expiry))) none

/-- The options that count as subscribed. -/
def alreadySubbed (s : Recenter F) (product : String) : List (Wanted F) :=
  (optionsForProduct s.md.options product).map fun t => (t.strike, t.expiry, t.right)

/-- The front expiry, from the cache or from the legs. -/
def frontExpiry (s : Recenter F) (product : String) : Option Date :=
  (s.cachedFront.lookup product).or
    (earliest ((optionsForProduct s.md.options product).map (·.expiry)))

/-- Calls and puts of the desired strikes. -/
def window (desired : List F) (expiry : Date) : List (Wanted F) :=
  desired.flatMap fun strike => [(strike, expiry, .call), (strike, expiry, .put)]

/-- The front expiry is remembered. -/
def Recenter.remember (s : Recenter F) (product : String) : Recenter F :=
  match frontExpiry s product with
  | none => s
  | some expiry => { s with cachedFront := s.cachedFront.insert product expiry }

section

variable [DecidableEq F]

/-- The calls of a cycle. -/
def cycleCalls (s : Recenter F) (product : String) (desired : List F) (outcome : Nat → Outcome) :
    List (Call F) :=
  match frontExpiry s product with
  | none => []
  | some expiry =>
      ((window desired expiry).filter (· ∉ alreadySubbed s product)).zipIdx.map fun (w, i) =>
        ⟨product, w, outcome i⟩

inductive Step (F : Type)
  | boot (c : Call F)
  | cycle (product : String) (desired : List F) (outcome : Nat → Outcome)

/-- A call of the boot, or a cycle for a product with a forward. -/
def step (s : Recenter F) : Step F → Recenter F
  | .boot c => qualifyAndSubscribe s c
  | .cycle product desired outcome =>
      run qualifyAndSubscribe (s.remember product) (cycleCalls s product desired outcome)

/-- The calls that a step makes. -/
def made (s : Recenter F) (a : Step F) : List (Call F) := (step s a).calls.drop s.calls.length

end

/-! ## What is asked of it -/

/-- A call for the option has failed. -/
def Failed (s : Recenter F) (product : String) (w : Wanted F) : Prop :=
  ∃ c ∈ s.calls, c.product = product ∧ c.wanted = w ∧ c.outcome.isOk = false

/-- A call for the option has succeeded. -/
def Succeeded (s : Recenter F) (product : String) (w : Wanted F) : Prop :=
  ∃ c ∈ s.calls, c.product = product ∧ c.wanted = w ∧ c.outcome.isOk = true

/-- The cycle calls again for the options of its window for which a call has failed and none
has succeeded. -/
def Retries [DecidableEq F] (s : Recenter F) : Step F → Prop
  | .boot _ => True
  | .cycle product desired outcome =>
      ∀ expiry, frontExpiry s product = some expiry → ∀ w ∈ window desired expiry,
        Failed s product w → ¬Succeeded s product w →
          ∃ c ∈ made s (.cycle product desired outcome), c.product = product ∧ c.wanted = w

/-- If the ticks of the option are refused, its leg was there before. -/
def Known (s : Recenter F) (c : Call F) : Prop :=
  ∀ iid, c.outcome = .subscribeFailed iid → (s.md.options.lookup c.key).isSome

/-- So it is for every call of the step. -/
def StepKnown [DecidableEq F] (s : Recenter F) : Step F → Prop
  | .boot c => Known s c
  | .cycle product desired outcome =>
      Meets qualifyAndSubscribe Known (s.remember product) (cycleCalls s product desired outcome)

/-! ## What counts as subscribed -/

theorem mem_alreadySubbed {s : Recenter F} {product : String} {w : Wanted F} :
    w ∈ alreadySubbed s product ↔
      ∃ k t, s.md.options.lookup k = some t ∧ k.product = product ∧
        (t.strike, t.expiry, t.right) = w := by
  simp only [alreadySubbed, List.mem_map, mem_optionsForProduct]
  constructor
  · rintro ⟨t, ⟨k, hk, hproduct⟩, hw⟩
    exact ⟨k, t, hk, hproduct, hw⟩
  · rintro ⟨k, t, hk, hproduct, hw⟩
    exact ⟨t, ⟨k, hk, hproduct⟩, hw⟩

theorem mem_alreadySubbed_registered {s s' : Recenter F} {c : Call F} {iid : Nat}
    (hmd : s'.md = s.md.registerOption (c.registration iid)) {product : String} {w : Wanted F} :
    w ∈ alreadySubbed s' product ↔
      w ∈ alreadySubbed s product ∨
        s.md.options.lookup c.key = none ∧ product = c.product ∧ w = c.wanted := by
  have hlookup (k : PositionKey) : s'.md.options.lookup k =
      if k = c.key then some ((s.md.options.lookup c.key).getD (c.registration iid).tick)
      else s.md.options.lookup k := by
    rw [hmd]
    exact lookup_orInsert s.md.options c.key (c.registration iid).tick k
  rw [mem_alreadySubbed, mem_alreadySubbed]
  constructor
  · rintro ⟨k, t, hk, hproduct, hw⟩
    rw [hlookup] at hk
    by_cases hkey : k = c.key
    · rw [if_pos hkey] at hk
      cases hold : s.md.options.lookup c.key with
      | none =>
          rw [hold] at hk
          obtain rfl := Option.some.inj hk
          rw [hkey] at hproduct
          exact .inr ⟨rfl, hproduct.symm, hw.symm⟩
      | some old =>
          rw [hold] at hk
          obtain rfl := Option.some.inj hk
          exact .inl ⟨k, old, hkey ▸ hold, hproduct, hw⟩
    · rw [if_neg hkey] at hk
      exact .inl ⟨k, t, hk, hproduct, hw⟩
  · rintro (⟨k, t, hk, hproduct, hw⟩ | ⟨hnone, rfl, rfl⟩)
    · refine ⟨k, t, ?_, hproduct, hw⟩
      rw [hlookup]
      by_cases hkey : k = c.key
      · rw [if_pos hkey, ← hkey, hk, Option.getD_some]
      · rw [if_neg hkey, hk]
    · refine ⟨c.key, (c.registration iid).tick, ?_, rfl, rfl⟩
      rw [hlookup, if_pos rfl, hnone, Option.getD_none]

/-- **One call.** Where its leg was there before, what counts as subscribed is what it was;
otherwise a contract adds the option. -/
theorem mem_alreadySubbed_call {s : Recenter F} {c : Call F} {product : String} {w : Wanted F} :
    w ∈ alreadySubbed (qualifyAndSubscribe s c) product ↔
      w ∈ alreadySubbed s product ∨
        c.outcome ≠ .qualifyFailed ∧ s.md.options.lookup c.key = none ∧
          product = c.product ∧ w = c.wanted := by
  cases hout : c.outcome with
  | qualifyFailed =>
      have hmd : (qualifyAndSubscribe s c).md = s.md := by simp only [qualifyAndSubscribe, hout]
      rw [mem_alreadySubbed, hmd, ← mem_alreadySubbed]
      simp
  | subscribeFailed iid =>
      have hmd : (qualifyAndSubscribe s c).md = s.md.registerOption (c.registration iid) := by
        simp only [qualifyAndSubscribe, hout]
      rw [mem_alreadySubbed_registered hmd]
      simp
  | subscribed iid =>
      have hmd : (qualifyAndSubscribe s c).md = s.md.registerOption (c.registration iid) := by
        simp only [qualifyAndSubscribe, hout]
      rw [mem_alreadySubbed_registered hmd]
      simp

/-- Whatever counts as subscribed, a call for it has succeeded. -/
def Backed (s : Recenter F) : Prop :=
  ∀ product, ∀ w ∈ alreadySubbed s product, Succeeded s product w

theorem backed_call {s : Recenter F} {c : Call F} (hknown : Known s c) (h : Backed s) :
    Backed (qualifyAndSubscribe s c) := by
  intro product w hw
  rcases mem_alreadySubbed_call.mp hw with hold | ⟨hqualified, hnew, rfl, rfl⟩
  · obtain ⟨c', hc', hcall⟩ := h product w hold
    exact ⟨c', List.mem_append_left _ hc', hcall⟩
  · refine ⟨c, by simp [qualifyAndSubscribe], rfl, rfl, ?_⟩
    cases hout : c.outcome with
    | qualifyFailed => exact absurd hout hqualified
    | subscribeFailed iid =>
        have hthere := hknown iid hout
        rw [hnew] at hthere
        cases hthere
    | subscribed iid => rfl

theorem backed_remember {s : Recenter F} (h : Backed s) (product : String) :
    Backed (s.remember product) := by
  unfold Recenter.remember
  split
  · exact h
  · exact h

section

variable [DecidableEq F]

theorem backed_step {s : Recenter F} {a : Step F} (hknown : StepKnown s a) (h : Backed s) :
    Backed (step s a) := by
  cases a with
  | boot c => exact backed_call hknown h
  | cycle product desired outcome =>
      exact run_invariant_of_meets Backed (fun _ _ hcall hs => backed_call hcall hs)
        (backed_remember h product) _ hknown

/-! ## What a cycle calls for -/

omit [DecidableEq F] in
theorem calls_run (s : Recenter F) (calls : List (Call F)) :
    (run qualifyAndSubscribe s calls).calls = s.calls ++ calls := by
  induction calls generalizing s with
  | nil => exact (List.append_nil s.calls).symm
  | cons c calls ih =>
      rw [run_cons, ih]
      exact List.append_assoc s.calls [c] calls

theorem made_cycle (s : Recenter F) (product : String) (desired : List F)
    (outcome : Nat → Outcome) :
    made s (.cycle product desired outcome) = cycleCalls s product desired outcome := by
  have hremember : (s.remember product).calls = s.calls := by
    unfold Recenter.remember
    split
    · rfl
    · rfl
  show (run qualifyAndSubscribe (s.remember product)
    (cycleCalls s product desired outcome)).calls.drop s.calls.length = _
  rw [calls_run, hremember, List.drop_left]

theorem product_of_mem_cycleCalls {s : Recenter F} {product : String}
    {desired : List F} {outcome : Nat → Outcome} {c : Call F}
    (h : c ∈ cycleCalls s product desired outcome) : c.product = product := by
  unfold cycleCalls at h
  split at h
  · cases h
  · obtain ⟨_, -, rfl⟩ := List.mem_map.mp h
    rfl

/-- A cycle calls for the options of its window that do not count as subscribed. -/
theorem mem_made_cycle {s : Recenter F} {product : String} {desired : List F}
    {outcome : Nat → Outcome} {expiry : Date} (hfront : frontExpiry s product = some expiry)
    {w : Wanted F} :
    (∃ c ∈ made s (.cycle product desired outcome), c.product = product ∧ c.wanted = w) ↔
      w ∈ window desired expiry ∧ w ∉ alreadySubbed s product := by
  have hcalls : (cycleCalls s product desired outcome).map (fun c => (c.product, c.wanted)) =
      ((window desired expiry).filter (· ∉ alreadySubbed s product)).map (product, ·) := by
    unfold cycleCalls
    simp only [hfront, List.map_map, Function.comp_def]
    rw [← Function.comp_def (product, ·) Prod.fst, ← List.map_map, List.zipIdx_map_fst]
  have hmade : (∃ c ∈ made s (.cycle product desired outcome),
      c.product = product ∧ c.wanted = w) ↔
        (product, w) ∈ (cycleCalls s product desired outcome).map
          fun c => (c.product, c.wanted) := by
    rw [made_cycle, List.mem_map]
    simp only [Prod.mk.injEq]
  rw [hmade, hcalls, List.mem_map_of_injective (Prod.mk_right_injective product), List.mem_filter,
    decide_eq_true_eq]

/-- Where every such option was subscribed, a cycle makes the failed calls of its window again. -/
theorem retries_of_backed {s : Recenter F} (h : Backed s) (a : Step F) : Retries s a := by
  cases a with
  | boot c => trivial
  | cycle product desired outcome =>
      intro expiry hfront w hw _ hnever
      exact (mem_made_cycle hfront).mpr ⟨hw, fun hsubbed => hnever (h product w hsubbed)⟩

/-- **Every run of calls and cycles.** If no call fails after it has registered a leg, every
cycle makes the failed calls of its window again. -/
theorem failed_retried (schedule : List (Step F))
    (hknown : Meets step StepKnown (.start : Recenter F) schedule) :
    Meets step Retries (.start : Recenter F) schedule := by
  have hstart : Backed (.start : Recenter F) := fun product w hw => by
    obtain ⟨k, t, hk, -⟩ := mem_alreadySubbed.mp hw
    cases hk
  exact hknown.imp_of_invariant Backed (fun _ _ hcond h => backed_step hcond h)
    (fun _ a h _ => retries_of_backed h a) hstart

/-! ## Where the second request fails -/

theorem subbed_step {s : Recenter F} {product : String} {w : Wanted F}
    (h : w ∈ alreadySubbed s product) (a : Step F) : w ∈ alreadySubbed (step s a) product := by
  have hcall (s : Recenter F) (c : Call F) (h : w ∈ alreadySubbed s product) :
      w ∈ alreadySubbed (qualifyAndSubscribe s c) product := mem_alreadySubbed_call.mpr (.inl h)
  cases a with
  | boot c => exact hcall s c h
  | cycle product' desired outcome =>
      refine run_invariant (w ∈ alreadySubbed · product) hcall ?_ _
      unfold Recenter.remember
      split
      · exact h
      · exact h

/-- **No cycle makes the call again** that failed after it had registered a leg. -/
theorem never_again {s : Recenter F} {c : Call F} {iid : Nat}
    (hfailed : c.outcome = .subscribeFailed iid) (hnew : s.md.options.lookup c.key = none)
    (schedule : List (Step F)) (desired : List F) (outcome : Nat → Outcome) :
    ∀ c' ∈ made (run step (qualifyAndSubscribe s c) schedule) (.cycle c.product desired outcome),
      c'.wanted ≠ c.wanted := by
  intro c' hc' hsame
  rw [made_cycle] at hc'
  have hsubbed : c.wanted ∈ alreadySubbed (run step (qualifyAndSubscribe s c) schedule) c.product :=
    run_invariant (c.wanted ∈ alreadySubbed · c.product) (fun _ a h => subbed_step h a)
      (mem_alreadySubbed_call.mpr (.inr ⟨by simp [hfailed], hnew, rfl, rfl⟩)) schedule
  cases hfront : frontExpiry (run step (qualifyAndSubscribe s c) schedule) c.product with
  | none =>
      unfold cycleCalls at hc'
      rw [hfront] at hc'
      cases hc'
  | some expiry =>
      have hproduct := product_of_mem_cycleCalls hc'
      rw [← made_cycle] at hc'
      exact ((mem_made_cycle hfront).mp ⟨c', hc', hproduct, hsame⟩).2 hsubbed

end

/-! ## Two boots -/

def frontMonth : Date := ⟨2026, 6, 25⟩

def bootCall : Call ℚ := ⟨"HG", (6, frontMonth, .call), .subscribed 100⟩

def bootPut (put : Outcome) : Call ℚ := ⟨"HG", (6, frontMonth, .put), put⟩

/-- A call and a put at 6 have been called for. -/
def booted (put : Outcome) : Recenter ℚ :=
  qualifyAndSubscribe (qualifyAndSubscribe .start bootCall) (bootPut put)

/-- The boot, and a cycle in which everything goes well. -/
def bootThenCycle (put : Outcome) : List (Step ℚ) :=
  [.boot bootCall, .boot (bootPut put), .cycle "HG" [6] fun _ => .subscribed 101]

/-- A put without a contract is called for again. -/
theorem unqualified_put_retried :
    Meets step Retries (.start : Recenter ℚ) (bootThenCycle .qualifyFailed) := by
  have hcalls : cycleCalls (booted .qualifyFailed) "HG" [6] (fun _ => .subscribed 101) =
      [bootPut (.subscribed 101)] := by decide +kernel
  have hcycle : Meets qualifyAndSubscribe Known ((booted .qualifyFailed).remember "HG")
      (cycleCalls (booted .qualifyFailed) "HG" [6] fun _ => .subscribed 101) := by
    rw [hcalls]
    exact ⟨nofun, trivial⟩
  exact failed_retried (bootThenCycle .qualifyFailed) ⟨nofun, nofun, hcycle, trivial⟩

/-- A put without ticks is not. -/
theorem tickless_put_skipped :
    ¬ ∀ schedule, Meets step Retries (.start : Recenter ℚ) schedule := by
  intro hall
  have hcycle : Retries (booted (.subscribeFailed 101)) (.cycle "HG" [6] fun _ => .subscribed 101) :=
    (hall (bootThenCycle (.subscribeFailed 101))).2.2.1
  have hfailed : Failed (booted (.subscribeFailed 101)) "HG" (6, frontMonth, .put) :=
    ⟨bootPut (.subscribeFailed 101), List.mem_cons_of_mem _ List.mem_cons_self, rfl, rfl, rfl⟩
  have hnever : ¬Succeeded (booted (.subscribeFailed 101)) "HG" (6, frontMonth, .put) := by
    rintro ⟨c, hc, -, hput, hok⟩
    rcases List.mem_cons.mp hc with rfl | hc
    · cases hput
    · rw [List.mem_singleton.mp hc] at hok
      cases hok
  obtain ⟨c, hc, -, -⟩ := hcycle frontMonth (by decide +kernel) _ (by decide) hfailed hnever
  have hnone : cycleCalls (booted (.subscribeFailed 101)) "HG" [6] (fun _ => .subscribed 101) =
      [] := by decide +kernel
  rw [made_cycle, hnone] at hc
  cases hc

end Corsair.Ports.WindowRecenter
