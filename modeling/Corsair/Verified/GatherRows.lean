import Mathlib.Algebra.BigOperators.Group.Multiset.Basic
import Mathlib.Data.Multiset.AddSub
import Mathlib.Algebra.Order.Group.Multiset
import Mathlib.Tactic.Abel
import Corsair.Verified.GatherRuns

/-!
# Requests that are answered in pieces: where the rows are

A row that a request takes is with the request, then in the hands of its call, then in what the
call returned.  It is never in two places.  It is lost where a request ends without a call that
takes its rows.

## Main results

* `held_step_le` — no step doubles a row.
* `held_step_eq` — and none loses one, but where a request with rows ends and nobody takes them.
-/

namespace Corsair.Verified.Gather

open Corsair.Verified.Runs
open Corsair.Verified.Table

variable {κ τ α ε : Type*} [DecidableEq κ]

/-! ## Sums over a table -/

section Sums

variable {β : Type*} {M : Type*} [AddCommMonoid M] (f : β → M) (m : AList fun _ : κ => β)

/-- What the entries of a table come to. -/
def total : M := (m.entries.map fun e => f e.2).sum

theorem total_insert (key : κ) (v : β) : total f (m.insert key v) = f v + total f (m.erase key) := by
  rw [total, AList.entries_insert, List.map_cons, List.sum_cons]
  rfl

theorem total_of_lookup {key : κ} {v : β} (h : m.lookup key = some v) :
    total f m = f v + total f (m.erase key) := by
  obtain ⟨v', front, back, hfront, hentries, herase⟩ :=
    List.exists_of_kerase (AList.mem_keys.mp (AList.lookup_isSome.mp (by rw [h]; rfl)) : key ∈ m.keys)
  have hv : v' = v := by
    have hmem : (⟨key, v'⟩ : Sigma fun _ : κ => β) ∈ m.entries := by
      rw [hentries]
      simp
    have hlookup : m.lookup key = some v' := AList.mem_lookup_iff.mpr hmem
    rw [h] at hlookup
    exact (Option.some.inj hlookup).symm
  have hrest : total f (m.erase key) = ((front ++ back).map fun e => f e.2).sum := by
    rw [← herase]
    rfl
  rw [hrest, total, hentries, hv]
  simp only [List.map_append, List.map_cons, List.sum_append, List.sum_cons]
  exact add_left_comm _ _ _

theorem total_erase_of_none {key : κ} (h : m.lookup key = none) : total f (m.erase key) = total f m := by
  have hkeys : key ∉ m.entries.keys := fun hmem =>
    AList.lookup_eq_none.mp h (AList.mem_keys.mpr hmem)
  show ((m.entries.kerase key).map fun e => f e.2).sum = _
  rw [List.kerase_of_notMem_keys hkeys]
  rfl

omit [DecidableEq κ] in
@[simp] theorem total_empty : total f (∅ : AList fun _ : κ => β) = 0 := rfl

end Sums

/-! ## The rows -/

/-- The rows of an answer. -/
def answerRows : Option (Except ε (List α)) → Multiset α
  | some (.ok rows) => rows
  | _ => 0

def outcomeRows : Outcome α ε → Multiset α
  | .answered answer => answerRows (some answer)
  | _ => 0

/-- The rows that were taken and are somewhere. -/
def held (s : Office κ τ α ε) : Multiset α :=
  total (fun r : Request α => (r.rows : Multiset α)) s.requests +
    total (fun c : Call κ τ α ε => answerRows c.inbox) s.calls +
    (s.returned.map fun r => outcomeRows r.outcome).sum

/-- The row that a move brings to a request. -/
def accepted (s : Office κ τ α ε) : Move κ τ α ε → Multiset α
  | .hear key (.row a) => if (s.requests.lookup key).isSome then {a} else 0
  | _ => 0

/-! ## One delivery -/

/-- The rows in the hands of a call. -/
def callRows (c : Call κ τ α ε) : Multiset α := answerRows c.inbox

variable {calls : AList fun _ : Nat => Call κ τ α ε}

omit [DecidableEq κ] in
theorem callRows_told (c : Call κ τ α ε) (answer : Except ε (List α)) :
    callRows (c.told answer) = if c.expired then callRows c else answerRows (some answer) := by
  unfold Call.told callRows
  split <;> rfl

omit [DecidableEq κ] in
theorem total_deliver_le (calls : AList fun _ : Nat => Call κ τ α ε) (ticket : Nat)
    (answer : Except ε (List α)) :
    total callRows (deliver calls ticket answer) ≤
      total callRows calls + answerRows (some answer) := by
  unfold deliver
  cases hcall : calls.lookup ticket with
  | none => exact Multiset.le_add_right _ _
  | some c =>
      rw [total_insert, total_of_lookup callRows calls hcall, callRows_told]
      split_ifs
      · exact Multiset.le_add_right _ _
      · rw [add_comm (callRows c + _), ← add_assoc]
        exact add_le_add_left (Multiset.le_add_right _ _) _

omit [DecidableEq κ] in
/-- Nothing is lost where the call has nothing in its hands and takes the answer. -/
theorem total_deliver_eq {ticket : Nat} {answer : Except ε (List α)}
    (hempty : ∀ c ∈ calls.lookup ticket, c.expired = false → callRows c = 0)
    (htaken : answerRows (some answer) = 0 ∨ ∃ c ∈ calls.lookup ticket, c.expired = false) :
    total callRows (deliver calls ticket answer) = total callRows calls + answerRows (some answer) := by
  unfold deliver
  cases hcall : calls.lookup ticket with
  | none =>
      rcases htaken with hnone | ⟨c, hc, -⟩
      · rw [hnone, add_zero]
      · rw [hcall] at hc
        cases hc
  | some c =>
      rw [total_insert, total_of_lookup callRows calls hcall, callRows_told]
      by_cases hexpired : c.expired = true
      · have hnone : answerRows (some answer) = 0 := by
          refine htaken.resolve_right ?_
          rintro ⟨c', hc', hwaits⟩
          rw [hcall] at hc'
          cases hc'
          rw [hexpired] at hwaits
          cases hwaits
        rw [if_pos hexpired, hnone, add_zero]
      · have hzero : callRows c = 0 := hempty c hcall (Bool.eq_false_iff.mpr hexpired)
        rw [if_neg hexpired, hzero, zero_add, add_comm]

omit [DecidableEq κ] in
theorem total_deliverAll_le (calls : AList fun _ : Nat => Call κ τ α ε)
    (entries : List (Sigma fun _ : κ => Request α)) (e : ε) :
    total callRows (entries.foldl (fun calls entry => deliver calls entry.2.ticket (.error e)) calls) ≤
      total callRows calls := by
  induction entries generalizing calls with
  | nil => exact le_refl _
  | cons entry rest ih =>
      have hone := total_deliver_le calls entry.2.ticket (.error e)
      exact (ih _).trans (hone.trans_eq (add_zero _))

omit [DecidableEq κ] in
theorem total_deliverAll_eq (calls : AList fun _ : Nat => Call κ τ α ε)
    (entries : List (Sigma fun _ : κ => Request α)) (e : ε)
    (hempty : ∀ entry ∈ entries, ∀ c ∈ calls.lookup entry.2.ticket, c.expired = false →
      callRows c = 0) :
    total callRows (entries.foldl (fun calls entry => deliver calls entry.2.ticket (.error e)) calls) =
      total callRows calls := by
  induction entries generalizing calls with
  | nil => rfl
  | cons entry rest ih =>
      have hone : total callRows (deliver calls entry.2.ticket (.error e)) = _ :=
        total_deliver_eq (hempty entry List.mem_cons_self) (.inl rfl)
      rw [List.foldl_cons, ih, hone]
      · exact add_zero _
      · intro other hother c hc hwaits
        rw [lookup_deliver] at hc
        split_ifs at hc
        · obtain ⟨c', hc', rfl⟩ := Option.map_eq_some_iff.mp hc
          rw [callRows_told]
          split_ifs with hexpired
          · rw [told_expired, hexpired] at hwaits
            cases hwaits
          · rfl
        · exact hempty other (List.mem_cons_of_mem _ hother) c hc hwaits

/-! ## One step -/

variable {s : Office κ τ α ε}

/-- The rows with a request. -/
def requestRows (r : Request α) : Multiset α := r.rows

omit [DecidableEq κ] in
theorem held_eq (s : Office κ τ α ε) : held s = total requestRows s.requests +
    total callRows s.calls + (s.returned.map fun r => outcomeRows r.outcome).sum := rfl

omit [DecidableEq κ] in
theorem held_finish {ticket : Nat} {c : Call κ τ α ε} (hcall : s.calls.lookup ticket = some c)
    (outcome : Outcome α ε) :
    held (s.finish ticket c outcome) + callRows c = held s + outcomeRows outcome := by
  simp only [held_eq, Office.finish, List.map_append, List.sum_append, List.map_singleton,
    List.sum_singleton]
  rw [total_of_lookup callRows s.calls hcall]
  abel

omit [DecidableEq κ] in
theorem held_replaced {ticket : Nat} {c c' : Call κ τ α ε} (hcall : s.calls.lookup ticket = some c)
    (hinbox : c'.inbox = c.inbox) : held { s with calls := s.calls.insert ticket c' } = held s := by
  rw [held_eq, held_eq, total_insert, total_of_lookup callRows s.calls hcall, callRows, callRows, hinbox]

/-- An end takes the rows from the request to its call. -/
theorem held_conclude {key : κ} {answer : List α → Except ε (List α)} {r : Request α}
    (hrequest : s.requests.lookup key = some r) :
    held (s.conclude key answer) + (total callRows s.calls + requestRows r) =
      held s + total callRows (deliver s.calls r.ticket (answer r.rows)) := by
  simp only [Office.conclude, hrequest, held_eq]
  rw [total_of_lookup requestRows s.requests hrequest]
  abel

theorem held_conclude_le (key : κ) {answer : List α → Except ε (List α)}
    (hrows : ∀ rows, answerRows (some (answer rows)) ≤ (rows : Multiset α)) :
    held (s.conclude key answer) ≤ held s := by
  cases hrequest : s.requests.lookup key with
  | none => simp [Office.conclude, hrequest]
  | some r =>
      have hcalls := total_deliver_le s.calls r.ticket (answer r.rows)
      have hmoved : total callRows (deliver s.calls r.ticket (answer r.rows)) ≤
          total callRows s.calls + requestRows r := hcalls.trans (add_le_add_right (hrows r.rows) _)
      refine le_of_add_le_add_right ((held_conclude hrequest).le.trans ?_)
      exact add_le_add_right hmoved _

theorem held_conclude_eq {key : κ} {answer : List α → Except ε (List α)}
    (hmoved : ∀ r ∈ s.requests.lookup key,
      total callRows (deliver s.calls r.ticket (answer r.rows)) =
        total callRows s.calls + requestRows r) :
    held (s.conclude key answer) = held s := by
  cases hrequest : s.requests.lookup key with
  | none => simp [Office.conclude, hrequest]
  | some r =>
      have hconclude : held (s.conclude key answer) + _ = _ := held_conclude hrequest
      rw [hmoved r hrequest] at hconclude
      exact add_right_cancel hconclude

theorem total_erase_le {κ β : Type*} [DecidableEq κ] (f : β → Multiset α)
    (m : AList fun _ : κ => β) (key : κ) : total f (m.erase key) ≤ total f m := by
  cases h : m.lookup key with
  | none => exact (total_erase_of_none f m h).le
  | some v =>
      rw [total_of_lookup f m h]
      exact Multiset.le_add_left _ _

theorem held_begin_le (key : κ) (ask : τ) : held (s.begin key ask) ≤ held s := by
  have hnew : held (s.begin key ask) = total requestRows (s.requests.erase key) +
      total callRows (s.calls.erase s.next) +
        (s.returned.map fun r => outcomeRows r.outcome).sum := by
    simp only [held_eq, Office.begin, total_insert]
    simp [requestRows, callRows, answerRows]
  rw [hnew, held_eq]
  exact add_le_add_left (add_le_add (total_erase_le _ _ _) (total_erase_le _ _ _)) _

theorem held_begin_eq {key : κ} (ask : τ) (hrequests : s.requests.lookup key = none)
    (hcalls : s.calls.lookup s.next = none) : held (s.begin key ask) = held s := by
  simp only [held_eq, Office.begin, total_insert, total_erase_of_none _ _ hrequests,
    total_erase_of_none _ _ hcalls]
  simp [requestRows, callRows, answerRows]

theorem held_collect (key : κ) (a : α) :
    held (s.collect key a) = held s + accepted s (.hear key (.row a)) := by
  unfold Office.collect accepted
  cases hrequest : s.requests.lookup key with
  | none => simp [hrequest]
  | some r =>
      have hrow : requestRows { r with rows := r.rows ++ [a] } = requestRows r + {a} := rfl
      simp only [held_eq, hrequest, Option.isSome_some, if_true]
      rw [total_insert, total_of_lookup requestRows s.requests hrequest, hrow]
      abel

/-- A call that returns keeps what it has in its hands, and one that is woken finds no more. -/
theorem outcomeRows_of_ready {ticket : Nat} {c : Call κ τ α ε} {outcome : Outcome α ε}
    (h : s.ready ticket c = some outcome) : outcomeRows outcome = callRows c := by
  unfold Office.ready at h
  cases hinbox : c.inbox with
  | none =>
      simp only [hinbox] at h
      split at h
      · cases h
      · cases h
        rw [callRows, hinbox]
        rfl
  | some answer =>
      simp only [hinbox] at h
      cases h
      rw [callRows, hinbox]
      rfl

theorem held_wake (ticket : Nat) (past : Bool) : held (s.wake ticket past) = held s := by
  unfold Office.wake
  cases hcall : s.calls.lookup ticket with
  | none => rfl
  | some c =>
      by_cases hwaits : (c.sent && !c.expired) = true
      · simp only [hwaits, if_true]
        cases hready : s.ready ticket c with
        | none =>
            cases past with
            | false => rfl
            | true => exact held_replaced hcall rfl
        | some outcome =>
            have hfinish := held_finish hcall outcome
            rw [outcomeRows_of_ready hready] at hfinish
            exact add_right_cancel hfinish
      · simp only [hwaits]
        rfl

omit [DecidableEq κ] in
theorem held_afterSend_le (ticket : Nat) (failure : Option ε) :
    held (s.afterSend ticket failure) ≤ held s := by
  unfold Office.afterSend
  cases hcall : s.calls.lookup ticket with
  | none => exact le_refl _
  | some c =>
      simp only
      split_ifs
      · exact le_refl _
      · cases failure with
        | none => exact (held_replaced hcall rfl).le
        | some e =>
            have hfinish := held_finish hcall (.unsent e)
            exact (Multiset.le_add_right _ _).trans_eq (hfinish.trans (add_zero _))

theorem held_erased_le (key : κ) : held { s with requests := s.requests.erase key } ≤ held s :=
  add_le_add_left (add_le_add_left (total_erase_le _ _ _) _) _

theorem held_withdraw_le (ticket : Nat) : held (s.withdraw ticket) ≤ held s := by
  unfold Office.withdraw
  cases hcall : s.calls.lookup ticket with
  | none => exact le_refl _
  | some c =>
      simp only
      split_ifs
      · have hfinish := held_finish (s := { s with requests := s.requests.erase c.key }) hcall
          .timedOut
        refine (Multiset.le_add_right _ _).trans_eq (hfinish.trans (add_zero _)) |>.trans ?_
        exact held_erased_le c.key
      · exact le_refl _

omit [DecidableEq κ] in
theorem held_refuseAll_le (e : ε) : held (s.refuseAll e) ≤ held s := by
  have hcalls := total_deliverAll_le s.calls s.requests.entries e
  rw [held_eq, held_eq]
  exact add_le_add_left (add_le_add (Multiset.zero_le _) hcalls) _

/-- **No step doubles a row.** -/
theorem held_step_le (s : Office κ τ α ε) (m : Move κ τ α ε) :
    held (s.step m) ≤ held s + accepted s m := by
  have hsilent {n : Multiset α} (h : n ≤ held s) : n ≤ held s + 0 := h.trans_eq (add_zero _).symm
  cases m with
  | begin key ask => exact hsilent (held_begin_le key ask)
  | hear key event =>
      cases event with
      | row a => exact (held_collect key a).le
      | finish => exact hsilent (held_conclude_le key fun rows => le_refl _)
      | refuse e => exact hsilent (held_conclude_le key fun rows => Multiset.zero_le _)
  | refuseAll e => exact hsilent (held_refuseAll_le e)
  | sent ticket failure => exact hsilent (held_afterSend_le ticket failure)
  | poll ticket => exact hsilent (held_wake ticket false).le
  | elapse ticket => exact hsilent (held_wake ticket true).le
  | withdraw ticket => exact hsilent (held_withdraw_le ticket)

/-- The step ends no request that has rows, unless its call takes them. -/
def Lossless (s : Office κ τ α ε) : Move κ τ α ε → Prop
  | .hear key .finish => ∀ r ∈ s.requests.lookup key,
      r.rows = [] ∨ ∃ c ∈ s.calls.lookup r.ticket, c.expired = false
  | .hear key (.refuse _) => ∀ r ∈ s.requests.lookup key, r.rows = []
  | .refuseAll _ => ∀ key, ∀ r ∈ s.requests.lookup key, r.rows = []
  | .sent ticket (some _) => ∀ c ∈ s.calls.lookup ticket, c.sent = false → callRows c = 0
  | .withdraw ticket => ∀ c ∈ s.calls.lookup ticket, c.expired = true →
      callRows c = 0 ∧ ∀ r ∈ s.requests.lookup c.key, r.rows = []
  | _ => True

/-- A call whose request is open has nothing in its hands yet. -/
def EmptyHands (s : Office κ τ α ε) : Prop :=
  ∀ key r c, s.requests.lookup key = some r → s.calls.lookup r.ticket = some c →
    c.expired = false → callRows c = 0

theorem Chronicle.emptyHands {moves : List (Move κ τ α ε)} (h : Chronicle moves s) : EmptyHands s := by
  intro key r c hrequest hcall hwaits
  have hkey : c.key = key := by
    refine (h.apart.own key r.ticket ?_).2 c.key ?_
    · rw [ticketOf, hrequest]
      rfl
    · rw [keyOf, hcall]
      rfl
  obtain ⟨front, late, -, -, hshows, -⟩ := h.stands r.ticket c hcall
  have hshown := hshows hwaits
  cases hheard : heard c.key late with
  | collecting rows =>
      rw [hheard] at hshown
      rw [callRows, hshown.1]
      rfl
  | closed answer =>
      -- an answered call has no request
      rw [hheard] at hshown
      rw [← hkey, hshown.2] at hrequest
      cases hrequest

theorem held_conclude_eq_of {key : κ} {answer : List α → Except ε (List α)} (hhands : EmptyHands s)
    (hmoved : ∀ r ∈ s.requests.lookup key, answerRows (some (answer r.rows)) = requestRows r ∧
      (answerRows (some (answer r.rows)) = 0 ∨ ∃ c ∈ s.calls.lookup r.ticket, c.expired = false)) :
    held (s.conclude key answer) = held s := by
  refine held_conclude_eq fun r hr => ?_
  obtain ⟨hrows, htaken⟩ := hmoved r hr
  rw [← hrows]
  exact total_deliver_eq (fun c hc hwaits => hhands key r c hr hc hwaits) htaken

omit [DecidableEq κ] in
theorem held_afterSend_eq {ticket : Nat} {failure : Option ε}
    (hlossless : ∀ c ∈ s.calls.lookup ticket, failure.isSome → c.sent = false → callRows c = 0) :
    held (s.afterSend ticket failure) = held s := by
  unfold Office.afterSend
  cases hcall : s.calls.lookup ticket with
  | none => rfl
  | some c =>
      simp only
      by_cases hsent : c.sent = true
      · rw [if_pos hsent]
      · rw [if_neg hsent]
        cases failure with
        | none => exact held_replaced hcall rfl
        | some e =>
            have hfinish := held_finish hcall (.unsent e)
            rw [hlossless c hcall rfl (Bool.eq_false_iff.mpr hsent), add_zero] at hfinish
            exact hfinish.trans (add_zero _)

theorem held_withdraw_eq {ticket : Nat} (hlossless : Lossless s (.withdraw ticket)) :
    held (s.withdraw ticket) = held s := by
  unfold Office.withdraw
  cases hcall : s.calls.lookup ticket with
  | none => rfl
  | some c =>
      simp only
      by_cases hgave : c.expired = true
      · rw [if_pos hgave]
        obtain ⟨hhands, hrows⟩ := hlossless c hcall hgave
        have hfinish := held_finish (s := { s with requests := s.requests.erase c.key }) hcall
          .timedOut
        rw [hhands, add_zero] at hfinish
        refine (hfinish.trans (add_zero _)).trans ?_
        rw [held_eq, held_eq]
        congr 2
        cases hrequest : s.requests.lookup c.key with
        | none => exact total_erase_of_none _ _ hrequest
        | some r =>
            rw [total_of_lookup requestRows s.requests hrequest, requestRows, hrows r hrequest]
            exact (zero_add _).symm
      · rw [if_neg hgave]

theorem held_refuseAll_eq {e : ε} (hhands : EmptyHands s) (hlossless : Lossless s (.refuseAll e)) :
    held (s.refuseAll e) = held s := by
  have hcalls := total_deliverAll_eq s.calls s.requests.entries e
    fun entry hentry c hc hwaits =>
      hhands entry.1 entry.2 c (AList.mem_lookup_iff.mpr hentry) hc hwaits
  have hrequests : total requestRows s.requests = 0 := by
    refine List.sum_eq_zero fun rows hrows => ?_
    obtain ⟨entry, hentry, rfl⟩ := List.mem_map.mp hrows
    rw [requestRows, hlossless entry.1 entry.2 (AList.mem_lookup_iff.mpr hentry)]
    rfl
  rw [held_eq, held_eq, hrequests, ← hcalls]
  rfl

/-- **No row is lost** in a step that ends no request with rows that nobody takes. -/
theorem held_step_eq {m : Move κ τ α ε} (hapart : Apart s) (hhands : EmptyHands s)
    (hfresh : Unshared s m) (hlossless : Lossless s m) : held (s.step m) = held s + accepted s m := by
  have hsilent {n : Multiset α} (h : n = held s) : n = held s + 0 := h.trans (add_zero _).symm
  cases m with
  | begin key ask =>
      have hnext : s.calls.lookup s.next = none := by
        by_contra hsome
        obtain ⟨c, hc⟩ := Option.ne_none_iff_exists'.mp hsome
        exact lt_irrefl _ (hapart.issued s.next c.key (by rw [keyOf, hc]; rfl))
      exact hsilent (held_begin_eq ask (Option.map_eq_none_iff.mp hfresh.1) hnext)
  | hear key event =>
      cases event with
      | row a => exact held_collect key a
      | finish =>
          refine hsilent (held_conclude_eq_of hhands fun r hr => ⟨rfl, ?_⟩)
          rcases hlossless r hr with hnone | htaken
          · left
            rw [hnone]
            rfl
          · exact .inr htaken
      | refuse e =>
          refine hsilent (held_conclude_eq_of hhands fun r hr => ⟨?_, .inl rfl⟩)
          rw [requestRows, hlossless r hr]
          rfl
  | refuseAll e => exact hsilent (held_refuseAll_eq hhands hlossless)
  | sent ticket failure =>
      refine hsilent (held_afterSend_eq fun c hc hfails hsent => ?_)
      cases failure with
      | none => cases hfails
      | some e => exact hlossless c hc hsent
  | poll ticket => exact hsilent (held_wake ticket false)
  | elapse ticket => exact hsilent (held_wake ticket true)
  | withdraw ticket => exact hsilent (held_withdraw_eq hlossless)

end Corsair.Verified.Gather
