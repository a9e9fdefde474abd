import Corsair.Verified.Gather

/-!
# Requests that are answered in pieces: whole runs

A call is followed from one step to the next.  While no two requests share a key, what it and its
request show is what was said under its key since it began, whoever else was called and answered
in between.

## Main results

* `follows_step` — what one step does to a call.
* `meets_unshared` — keys that are handed out in order are not shared.
* `present` — no call is lost.
* `chronicle` — a call that waits has heard what was said under its key; one that returned was
  answered with that, or gave up because it was no answer yet.
-/

namespace Corsair.Verified.Gather

open Corsair.Verified.Runs
open Corsair.Verified.Table

variable {κ τ α ε : Type*} [DecidableEq κ] {s s' : Office κ τ α ε} {m : Move κ τ α ε}

/-! ## A call from one step to the next -/

/-- A call after a step, and what it was before. -/
structure Follows (s s' : Office κ τ α ε) (m : Move κ τ α ε) (t : Nat) (c c' : Call κ τ α ε) :
    Prop where
  was : s.calls.lookup t = some c
  key : c'.key = c.key
  ask : c'.ask = c.ask
  shows : c'.expired = false → c.expired = false ∧
    ∀ p, Shows s t c p → Shows s' t c' (p.after c.key m)
  gave : c'.expired = true → c.expired = true ∨ m = .elapse t ∧ c.expired = false ∧
    ∀ p, Shows s t c p → ∃ rows, p = .collecting rows

/-- Nothing happens to the call or its request, and nothing is said about it. -/
theorem Follows.same {t : Nat} {c : Call κ τ α ε} (hwas : s.calls.lookup t = some c)
    (hrequests : s'.requests.lookup c.key = s.requests.lookup c.key)
    (hsilent : about c.key m = none) : Follows s s' m t c c where
  was := hwas
  key := rfl
  ask := rfl
  shows hwaits := by
    refine ⟨hwaits, fun p hp => ?_⟩
    rw [Progress.after_of_none hsilent]
    exact hp.congr hrequests rfl rfl
  gave := .inl

/-- The call's request is another than one with this ticket's key. -/
theorem Apart.request_ne (h : Apart s) {t : Nat} {c : Call κ τ α ε}
    (hwas : s.calls.lookup t = some c) {key : κ} {request : Request α}
    (hrequest : s.requests.lookup key = some request) (hkey : key ≠ c.key) :
    request.ticket ≠ t := by
  rintro rfl
  have hticket : ticketOf s key = some request.ticket := by
    rw [ticketOf, hrequest]
    rfl
  have hcall : keyOf s request.ticket = some c.key := by
    rw [keyOf, hwas]
    rfl
  exact hkey ((h.own key _ hticket).2 c.key hcall).symm

theorem follows_collect {t : Nat} {c : Call κ τ α ε} {key : κ} {a : α}
    (hwas : s.calls.lookup t = some c) :
    Follows s (s.collect key a) (.hear key (.row a)) t c c := by
  unfold Office.collect
  by_cases hkey : key = c.key
  · subst hkey
    refine ⟨hwas, rfl, rfl, fun hwaits => ⟨hwaits, fun p hp => ?_⟩, .inl⟩
    rw [Progress.after_of_some (by rw [about, if_pos rfl])]
    cases p with
    | collecting rows =>
        obtain ⟨hinbox, hrequest⟩ := hp
        rw [hrequest]
        exact ⟨hinbox, AList.lookup_insert _⟩
    | closed answer =>
        rw [hp.2]
        exact hp
  · have hsilent : about c.key (.hear key (.row a) : Move κ τ α ε) = none := if_neg hkey
    split
    · exact Follows.same hwas (AList.lookup_insert_ne (Ne.symm hkey)) hsilent
    · exact Follows.same hwas rfl hsilent

theorem follows_conclude (hapart : Apart s) {t : Nat} {c c' : Call κ τ α ε} {key : κ}
    {event : Event α ε} {answer : List α → Except ε (List α)}
    (hwas : s.calls.lookup t = some c)
    (hnow : (s.conclude key answer).calls.lookup t = some c')
    (hevent : ∀ rows, Progress.hear (.collecting rows) event = .closed (answer rows)) :
    Follows s (s.conclude key answer) (.hear key event) t c c' := by
  unfold Office.conclude at hnow ⊢
  by_cases hkey : key = c.key
  · subst hkey
    have hsaid : about c.key (.hear c.key event : Move κ τ α ε) = some event := if_pos rfl
    cases hrequest : s.requests.lookup c.key with
    | none =>
        simp only [hrequest, hwas, Option.some.injEq] at hnow ⊢
        subst hnow
        refine ⟨hwas, rfl, rfl, fun hwaits => ⟨hwaits, fun p hp => ?_⟩, .inl⟩
        rw [Progress.after_of_some hsaid]
        cases p with
        | collecting rows =>
            rw [hp.2] at hrequest
            cases hrequest
        | closed answer => exact hp
    | some request =>
        simp only [hrequest, lookup_deliver, hwas, Option.map_some] at hnow ⊢
        have hshown {p : Progress α ε} (hp : Shows s t c p) :
            request.ticket = t ∧ p = .collecting request.rows := by
          cases p with
          | collecting rows =>
              rw [hp.2] at hrequest
              cases hrequest
              exact ⟨rfl, rfl⟩
          | closed answer =>
              rw [hp.2] at hrequest
              cases hrequest
        have hc' : c' = if request.ticket = t then c.told (answer request.rows) else c := by
          rw [← Option.some.injEq, ← hnow]
          split_ifs <;> rfl
        have hexpired : c'.expired = c.expired := by
          rw [hc']
          split_ifs <;> simp
        refine ⟨hwas, ?_, ?_, fun hwaits => ⟨hexpired ▸ hwaits, fun p hp => ?_⟩,
          fun hgave => .inl (hexpired ▸ hgave)⟩
        · rw [hc']
          split_ifs <;> simp
        · rw [hc']
          split_ifs <;> simp
        · obtain ⟨hticket, rfl⟩ := hshown hp
          rw [if_pos hticket] at hc'
          rw [Progress.after_of_some hsaid, hevent, hc']
          refine ⟨told_inbox (hexpired ▸ hwaits) _, ?_⟩
          rw [told_key]
          exact AList.lookup_erase _ _
  · have hsilent : about c.key (.hear key event : Move κ τ α ε) = none := if_neg hkey
    cases hrequest : s.requests.lookup key with
    | none =>
        simp only [hrequest, hwas, Option.some.injEq] at hnow ⊢
        subst hnow
        exact Follows.same hwas rfl hsilent
    | some request =>
        simp only [hrequest, lookup_deliver, if_neg (hapart.request_ne hwas hrequest hkey), hwas,
          Option.some.injEq] at hnow ⊢
        subst hnow
        exact Follows.same hwas (AList.lookup_erase_ne (Ne.symm hkey)) hsilent

theorem follows_refuseAll (hapart : Apart s) {t : Nat} {c c' : Call κ τ α ε} {e : ε}
    (hwas : s.calls.lookup t = some c) (hnow : (s.refuseAll e).calls.lookup t = some c') :
    Follows s (s.refuseAll e) (.refuseAll e) t c c' := by
  simp only [Office.refuseAll, lookup_deliverAll, hwas, Option.map_some] at hnow
  have hc' : c' = if s.requests.entries.any (·.2.ticket = t) then c.told (.error e) else c := by
    rw [← Option.some.injEq, ← hnow]
    split_ifs <;> rfl
  have hexpired : c'.expired = c.expired := by
    rw [hc']
    split_ifs <;> simp
  have hkey : c'.key = c.key := by
    rw [hc']
    split_ifs <;> simp
  have hempty (key : κ) : (s.refuseAll e).requests.lookup key = none := AList.lookup_empty key
  refine ⟨hwas, hkey, ?_, fun hwaits => ⟨hexpired ▸ hwaits, fun p hp => ?_⟩,
    fun hgave => .inl (hexpired ▸ hgave)⟩
  · rw [hc']
    split_ifs <;> simp
  · have hsaid : about c.key (.refuseAll e : Move κ τ α ε) = some (.refuse e) := rfl
    rw [Progress.after_of_some hsaid]
    cases p with
    | collecting rows =>
        have hany : s.requests.entries.any (·.2.ticket = t) = true :=
          List.any_eq_true.mpr ⟨⟨c.key, _⟩, AList.mem_lookup_iff.mp hp.2, by simp⟩
        rw [if_pos hany] at hc'
        refine ⟨?_, hempty _⟩
        rw [hc']
        exact told_inbox (hexpired ▸ hwaits) _
    | closed answer =>
        have hnone : ¬ s.requests.entries.any (·.2.ticket = t) = true := by
          intro hany
          obtain ⟨entry, hentry, hticket⟩ := List.any_eq_true.mp hany
          have hrequest : s.requests.lookup entry.1 = some entry.2 := AList.mem_lookup_iff.mpr hentry
          by_cases hsame : entry.1 = c.key
          · rw [hsame, hp.2] at hrequest
            cases hrequest
          · exact hapart.request_ne hwas hrequest hsame (of_decide_eq_true hticket)
        rw [if_neg hnone] at hc'
        rw [hc']
        exact ⟨hp.1, hempty _⟩

/-- A call that another one's step leaves as it is. -/
theorem follows_finish {t ticket : Nat} {c' call : Call κ τ α ε} {outcome : Outcome α ε}
    (hnow : (s.finish ticket call outcome).calls.lookup t = some c')
    (hsilent : ∀ key, about key m = none) :
    Follows s (s.finish ticket call outcome) m t c' c' :=
  Follows.same (lookup_erase_eq_some hnow).2 rfl (hsilent _)

theorem follows_sent {t ticket : Nat} {c' : Call κ τ α ε} {failure : Option ε}
    (hnow : (s.afterSend ticket failure).calls.lookup t = some c') :
    ∃ c, Follows s (s.afterSend ticket failure) (.sent ticket failure) t c c' := by
  unfold Office.afterSend at hnow ⊢
  cases hcall : s.calls.lookup ticket with
  | none =>
      simp only [hcall] at hnow ⊢
      exact ⟨c', Follows.same hnow rfl rfl⟩
  | some call =>
      simp only [hcall] at hnow ⊢
      by_cases hsent : call.sent = true
      · simp only [hsent, if_true] at hnow ⊢
        exact ⟨c', Follows.same hnow rfl rfl⟩
      · simp only [hsent, Bool.false_eq_true, if_false] at hnow ⊢
        cases failure with
        | some e => exact ⟨c', follows_finish hnow fun _ => rfl⟩
        | none =>
            simp only at hnow
            by_cases ht : t = ticket
            · subst ht
              rw [AList.lookup_insert] at hnow
              cases hnow
              refine ⟨call, hcall, rfl, rfl, fun hwaits => ⟨hwaits, fun p hp => ?_⟩, .inl⟩
              rw [Progress.after_of_none rfl]
              exact hp.congr rfl rfl rfl
            · rw [AList.lookup_insert_ne ht] at hnow
              exact ⟨c', Follows.same hnow rfl rfl⟩

theorem follows_wake {t ticket : Nat} {past : Bool} {c' : Call κ τ α ε}
    (hnow : (s.wake ticket past).calls.lookup t = some c') (hsilent : ∀ key, about key m = none)
    (hm : past = true → m = .elapse ticket) :
    ∃ c, Follows s (s.wake ticket past) m t c c' := by
  unfold Office.wake at hnow ⊢
  cases hcall : s.calls.lookup ticket with
  | none =>
      simp only [hcall] at hnow ⊢
      exact ⟨c', Follows.same hnow rfl (hsilent _)⟩
  | some call =>
      simp only [hcall] at hnow ⊢
      by_cases hwaits : (call.sent && !call.expired) = true
      · simp only [hwaits, if_true] at hnow ⊢
        cases hready : s.ready ticket call with
        | some outcome =>
            simp only [hready] at hnow ⊢
            exact ⟨c', follows_finish hnow hsilent⟩
        | none =>
            simp only [hready] at hnow ⊢
            cases past with
            | false => exact ⟨c', Follows.same hnow rfl (hsilent _)⟩
            | true =>
                by_cases ht : t = ticket
                · subst ht
                  rw [if_pos rfl, AList.lookup_insert] at hnow
                  cases hnow
                  simp only [Bool.and_eq_true, Bool.not_eq_true'] at hwaits
                  refine ⟨call, hcall, rfl, rfl, fun h => (by cases h), fun _ => .inr ⟨hm rfl,
                    hwaits.2, fun p hp => ?_⟩⟩
                  cases p with
                  | collecting rows => exact ⟨rows, rfl⟩
                  | closed answer =>
                      -- an answer would have been ready
                      rw [Office.ready, hp.1] at hready
                      cases hready
                · rw [if_pos rfl, AList.lookup_insert_ne ht] at hnow
                  exact ⟨c', Follows.same hnow rfl (hsilent _)⟩
      · simp only [hwaits] at hnow ⊢
        exact ⟨c', Follows.same hnow rfl (hsilent _)⟩

theorem follows_withdraw (hapart : Apart s) {t ticket : Nat} {c' : Call κ τ α ε}
    (hnow : (s.withdraw ticket).calls.lookup t = some c') :
    ∃ c, Follows s (s.withdraw ticket) (.withdraw ticket) t c c' := by
  unfold Office.withdraw at hnow ⊢
  cases hcall : s.calls.lookup ticket with
  | none =>
      simp only [hcall] at hnow ⊢
      exact ⟨c', Follows.same hnow rfl rfl⟩
  | some call =>
      simp only [hcall] at hnow ⊢
      by_cases hgave : call.expired = true
      · simp only [hgave, if_true] at hnow ⊢
        obtain ⟨ht, hold⟩ := lookup_erase_eq_some hnow
        refine ⟨c', Follows.same hold (AList.lookup_erase_ne fun hsame => ht ?_) rfl⟩
        refine hapart.keys t ticket c'.key ?_ ?_
        · rw [keyOf, hold]
          rfl
        · rw [keyOf, hcall, hsame]
          rfl
      · simp only [hgave] at hnow ⊢
        exact ⟨c', Follows.same hnow rfl rfl⟩

/-- **A call after a step** is one that was there, or the one that begins. -/
theorem follows_step (hapart : Apart s) (hfresh : Unshared s m) {t : Nat} {c' : Call κ τ α ε}
    (hnow : (s.step m).calls.lookup t = some c') :
    (∃ c, Follows s (s.step m) m t c c') ∨
      m = .begin c'.key c'.ask ∧ t = s.next ∧ c'.expired = false ∧
        Shows (s.step m) t c' (.collecting []) := by
  cases m with
  | begin key ask =>
      have hcalls : ((s.begin key ask).calls).lookup t = some c' := hnow
      simp only [Office.begin] at hcalls
      by_cases ht : t = s.next
      · subst ht
        rw [AList.lookup_insert] at hcalls
        cases hcalls
        exact .inr ⟨rfl, rfl, rfl, rfl, AList.lookup_insert _⟩
      · rw [AList.lookup_insert_ne ht] at hcalls
        refine .inl ⟨c', Follows.same hcalls (AList.lookup_insert_ne fun hsame => ?_) rfl⟩
        refine hfresh.2 t ?_
        rw [keyOf, hcalls, ← hsame]
        rfl
  | hear key event =>
      left
      cases event with
      | row a =>
          have hcalls : (s.collect key a).calls = s.calls := by
            unfold Office.collect
            split <;> rfl
          exact ⟨c', follows_collect (hcalls ▸ hnow)⟩
      | finish =>
          obtain ⟨c, hwas⟩ := (kept_conclude s key .ok).was hnow
          exact ⟨c, follows_conclude hapart hwas hnow fun _ => rfl⟩
      | refuse e =>
          obtain ⟨c, hwas⟩ := (kept_conclude s key fun _ => .error e).was hnow
          exact ⟨c, follows_conclude hapart hwas hnow fun _ => rfl⟩
  | refuseAll e =>
      obtain ⟨c, hwas⟩ := (kept_refuseAll s e).was hnow
      exact .inl ⟨c, follows_refuseAll hapart hwas hnow⟩
  | sent ticket failure => exact .inl (follows_sent hnow)
  | poll ticket => exact .inl (follows_wake hnow (fun _ => rfl) fun h => (by cases h))
  | elapse ticket => exact .inl (follows_wake hnow (fun _ => rfl) fun _ => rfl)
  | withdraw ticket => exact .inl (follows_withdraw hapart hnow)

/-! ## Every call, over a whole run -/

/-- A call gave up when it had no answer. -/
def GaveUp (ticket : Nat) (key : κ) (moves : List (Move κ τ α ε)) : Prop :=
  ∃ early rest rows, moves = early ++ .elapse ticket :: rest ∧ heard key early = .collecting rows

/-- How a call that waits has come to where it is.  `late` is what happened since it began. -/
def Stands (moves : List (Move κ τ α ε)) (s : Office κ τ α ε) (ticket : Nat)
    (call : Call κ τ α ε) : Prop :=
  ∃ front late, moves = front ++ .begin call.key call.ask :: late ∧
    (run Office.step .empty front).next = ticket ∧
    (call.expired = false → Shows s ticket call (heard call.key late)) ∧
    (call.expired = true → GaveUp ticket call.key late)

/-- Why a call has returned what it has. -/
def Accounted (moves : List (Move κ τ α ε)) (r : Return κ τ α ε) : Prop :=
  ∃ front late, moves = front ++ .begin r.key r.ask :: late ∧
    (run Office.step .empty front).next = r.ticket ∧
    match r.outcome with
    | .answered answer => ∃ mid m rest, late = mid ++ m :: rest ∧
        (m = .poll r.ticket ∨ m = .elapse r.ticket) ∧ heard r.key mid = .closed answer
    | .timedOut => ∃ mid rest, late = mid ++ .withdraw r.ticket :: rest ∧ GaveUp r.ticket r.key mid
    | .unsent e => ∃ mid rest, late = mid ++ .sent r.ticket (some e) :: rest
    | .dropped => False

theorem GaveUp.append {ticket : Nat} {key : κ} {moves : List (Move κ τ α ε)}
    (h : GaveUp ticket key moves) (m : Move κ τ α ε) : GaveUp ticket key (moves ++ [m]) := by
  obtain ⟨early, rest, rows, rfl, hrows⟩ := h
  exact ⟨early, rest ++ [m], rows, by simp, hrows⟩

theorem Accounted.append {moves : List (Move κ τ α ε)} {r : Return κ τ α ε}
    (h : Accounted moves r) (m : Move κ τ α ε) : Accounted (moves ++ [m]) r := by
  obtain ⟨ticket, key, ask, outcome⟩ := r
  obtain ⟨front, late, rfl, hticket, hwhy⟩ := h
  refine ⟨front, late ++ [m], by simp, hticket, ?_⟩
  cases outcome with
  | answered answer =>
      obtain ⟨mid, last, rest, rfl, hlast, hheard⟩ := hwhy
      exact ⟨mid, last, rest ++ [m], by simp, hlast, hheard⟩
  | timedOut =>
      obtain ⟨mid, rest, rfl, hgave⟩ := hwhy
      exact ⟨mid, rest ++ [m], by simp, hgave⟩
  | unsent e =>
      obtain ⟨mid, rest, rfl⟩ := hwhy
      exact ⟨mid, rest ++ [m], by simp⟩
  | dropped => exact hwhy

/-- A call that follows one that stands. -/
theorem Stands.follows {moves : List (Move κ τ α ε)} {t : Nat} {c c' : Call κ τ α ε}
    (h : Stands moves s t c) (hfollows : Follows s s' m t c c') : Stands (moves ++ [m]) s' t c' := by
  obtain ⟨front, late, rfl, hticket, hwaits, hgave⟩ := h
  refine ⟨front, late ++ [m], ?_, hticket, fun hc' => ?_, fun hc' => ?_⟩
  · rw [hfollows.key, hfollows.ask]
    simp
  · obtain ⟨hc, hshows⟩ := hfollows.shows hc'
    rw [hfollows.key, heard_append]
    exact hshows _ (hwaits hc)
  · rw [hfollows.key]
    rcases hfollows.gave hc' with hc | ⟨rfl, hc, hnone⟩
    · exact (hgave hc).append m
    · obtain ⟨rows, hrows⟩ := hnone _ (hwaits hc)
      exact ⟨late, [], rows, rfl, hrows⟩

/-- A call that returns had stood. -/
theorem Stands.accounted {moves : List (Move κ τ α ε)} {t : Nat} {c : Call κ τ α ε}
    {outcome : Outcome α ε} (h : Stands moves s t c) (hwhy : Why s m t c outcome) :
    Accounted (moves ++ [m]) { ticket := t, key := c.key, ask := c.ask, outcome } := by
  obtain ⟨front, late, rfl, hticket, hwaits, hgave⟩ := h
  refine ⟨front, late ++ [m], by simp, hticket, ?_⟩
  cases hwhy with
  | woken hm hc hready =>
      have hshows := hwaits hc
      cases hheard : heard c.key late with
      | collecting rows =>
          -- the request is still there
          rw [hheard] at hshows
          simp [Office.ready, hshows.1, hshows.2] at hready
      | closed answer =>
          rw [hheard] at hshows
          simp only [Office.ready, hshows.1, Option.some.injEq] at hready
          subst hready
          exact ⟨late, m, [], rfl, hm, hheard⟩
  | unsent e hm houtcome =>
      subst hm houtcome
      exact ⟨late, [], rfl⟩
  | timedOut hm hc houtcome =>
      subst hm houtcome
      exact ⟨late, [], rfl, hgave hc⟩

/-- What a run of moves leaves. -/
structure Chronicle (moves : List (Move κ τ α ε)) (s : Office κ τ α ε) : Prop where
  apart : Apart s
  stands : ∀ t c, s.calls.lookup t = some c → Stands moves s t c
  accounted : ∀ r ∈ s.returned, Accounted moves r

theorem Chronicle.step {moves : List (Move κ τ α ε)}
    (h : Chronicle moves (run Office.step .empty moves))
    (hfresh : Unshared (run Office.step .empty moves) m) :
    Chronicle (moves ++ [m]) ((run Office.step .empty moves).step m) := by
  refine ⟨h.apart.step hfresh, fun t c' hnow => ?_, fun r hr => ?_⟩
  · rcases follows_step h.apart hfresh hnow with ⟨c, hfollows⟩ | ⟨rfl, rfl, hwaits, hshows⟩
    · exact (h.stands t c hfollows.was).follows hfollows
    · refine ⟨moves, [], rfl, rfl, fun _ => hshows, fun hgave => ?_⟩
      rw [hwaits] at hgave
      cases hgave
  · rcases step_cases (run Office.step .empty moves) m with
      ⟨key, ask, rfl⟩ | hkept | ⟨t, c, outcome, hreturns, hwhy⟩
    · exact (h.accounted r hr).append _
    · exact (h.accounted r (hkept.returned ▸ hr)).append m
    · rw [hreturns.returned] at hr
      rcases List.mem_append.mp hr with hold | hnew
      · exact (h.accounted r hold).append m
      · rw [List.mem_singleton.mp hnew]
        exact (h.stands t c hreturns.call).accounted hwhy

/-- **Every call hears what is meant for it**, and nothing else, while no two requests share a
key. -/
theorem chronicle {moves : List (Move κ τ α ε)}
    (hmeets : Meets Office.step Unshared (.empty : Office κ τ α ε) moves) :
    Chronicle moves (run Office.step .empty moves) := by
  induction moves using List.reverseRecOn with
  | nil => exact ⟨apart_empty, fun t c h => (by cases h), fun r hr => (by cases hr)⟩
  | append_singleton moves m ih =>
      rw [run_append, run_cons, run_nil]
      exact (ih hmeets.front).step hmeets.at_step

/-- **No call is lost.**  One that has begun waits or has returned. -/
theorem present (front late : List (Move κ τ α ε)) (key : κ) (ask : τ) :
    let t := (run Office.step (.empty : Office κ τ α ε) front).next
    let s := run Office.step .empty (front ++ .begin key ask :: late)
    keyOf s t = some key ∨ ∃ r ∈ s.returned, r.ticket = t ∧ r.key = key := by
  intro t s
  let There (s : Office κ τ α ε) : Prop :=
    t < s.next ∧ (keyOf s t = some key ∨ ∃ r ∈ s.returned, r.ticket = t ∧ r.key = key)
  have hbegun : There ((run Office.step .empty front).begin key ask) := by
    refine ⟨Nat.lt_succ_self _, .inl ?_⟩
    show Option.map _ (((run Office.step .empty front).calls.insert t _).lookup t) = some key
    rw [AList.lookup_insert]
    rfl
  have hstep (s : Office κ τ α ε) (m : Move κ τ α ε) (h : There s) : There (s.step m) := by
    obtain ⟨hlt, hcall⟩ := h
    rcases step_cases s m with ⟨key', ask', rfl⟩ | hkept | ⟨ticket, call, outcome, hreturns, -⟩
    · refine ⟨Nat.lt_succ_of_lt hlt, hcall.imp_left fun hwaits => ?_⟩
      show Option.map _ ((s.calls.insert s.next _).lookup t) = some key
      rw [AList.lookup_insert_ne hlt.ne]
      exact hwaits
    · refine ⟨hkept.next ▸ hlt, ?_⟩
      rw [hkept.calls, hkept.returned]
      exact hcall
    · refine ⟨hreturns.next ▸ hlt, ?_⟩
      rw [hreturns.returned]
      rcases hcall with hwaits | ⟨r, hr, hticket⟩
      · by_cases ht : t = ticket
        · rw [ht, keyOf, hreturns.call] at hwaits
          exact .inr ⟨_, List.mem_append_right _ (List.mem_singleton.mpr rfl), ht.symm,
            Option.some.inj hwaits⟩
        · left
          rw [keyOf, hreturns.calls, AList.lookup_erase_ne ht]
          exact hwaits
      · exact .inr ⟨r, List.mem_append_left _ hr, hticket⟩
  have hlast : There s := by
    rw [show s = run Office.step (run Office.step .empty front) (.begin key ask :: late) from
      run_append _ _ _]
    exact run_invariant There hstep hbegun late
  exact hlast.2

/-! ### After a call has returned -/

/-- A call that has returned left no request, unless its send had failed. -/
def Done (s : Office κ τ α ε) : Prop :=
  ∀ r ∈ s.returned, (∀ e, r.outcome ≠ .unsent e) → ticketOf s r.key = none

theorem Done.shrink (h : Done s) {r : Return κ τ α ε} (hr : r ∈ s.returned)
    (hsent : ∀ e, r.outcome ≠ .unsent e)
    (hrequests : ∀ key t, ticketOf s' key = some t → ticketOf s key = some t) :
    ticketOf s' r.key = none := by
  by_contra hsome
  obtain ⟨t, ht⟩ := Option.ne_none_iff_exists'.mp hsome
  have hold := hrequests r.key t ht
  rw [h r hr hsent] at hold
  cases hold

theorem Done.step {moves : List (Move κ τ α ε)} (h : Done s) (hchronicle : Chronicle moves s)
    (hfresh : ∀ key ask, m = .begin key ask → ∀ r ∈ s.returned, r.key ≠ key) : Done (s.step m) := by
  intro r hr hsent
  rcases step_cases s m with ⟨key, ask, rfl⟩ | hkept | ⟨t, c, outcome, hreturns, hwhy⟩
  · have hne : r.key ≠ key := hfresh key ask rfl r hr
    show ((s.requests.insert key _).lookup r.key).map Request.ticket = none
    rw [AList.lookup_insert_ne hne]
    exact h r hr hsent
  · exact h.shrink (hkept.returned ▸ hr) hsent hkept.requests
  · rw [hreturns.returned] at hr
    rcases List.mem_append.mp hr with hold | hnew
    · exact h.shrink hold hsent hreturns.requests
    rw [List.mem_singleton] at hnew
    subst hnew
    cases hwhy with
    | unsent e hm houtcome => exact absurd houtcome (hsent e)
    | timedOut hm hgave houtcome =>
        subst hm
        simp only [Office.step, Office.withdraw, hreturns.call, hgave, if_true]
        show ((s.requests.erase c.key).lookup c.key).map Request.ticket = none
        rw [AList.lookup_erase]
        rfl
    | woken hm hwaits hready =>
        obtain ⟨front, late, -, -, hshows, -⟩ := hchronicle.stands t c hreturns.call
        have hshown := hshows hwaits
        have hnone : ticketOf s c.key = none := by
          cases hheard : heard c.key late with
          | collecting rows =>
              rw [hheard] at hshown
              simp [Office.ready, hshown.1, hshown.2] at hready
          | closed answer =>
              rw [hheard] at hshown
              rw [ticketOf, hshown.2]
              rfl
        by_contra hsome
        obtain ⟨t', ht'⟩ := Option.ne_none_iff_exists'.mp hsome
        have hold := hreturns.requests c.key t' ht'
        rw [hnone] at hold
        cases hold

/-! ## A schedule that makes moves -/

section Schedule

variable {A : Type*} (move : κ → A → Option (Move κ τ α ε)) (advance : κ → A → κ)

/-- The moves that the choices of a schedule make.  Each of them sees the next free key. -/
def movesOf : κ → List A → List (Move κ τ α ε)
  | _, [] => []
  | key, a :: rest => (move key a).toList ++ movesOf (advance key a) rest

omit [DecidableEq κ] in
theorem movesOf_append (key : κ) (front back : List A) :
    movesOf move advance key (front ++ back) =
      movesOf move advance key front ++ movesOf move advance (front.foldl advance key) back := by
  induction front generalizing key with
  | nil => rfl
  | cons a rest ih => simp [movesOf, ih]

omit [DecidableEq κ] in
/-- A move is made by one of the choices. -/
theorem exists_of_movesOf_eq {key : κ} {schedule : List A} {front late : List (Move κ τ α ε)}
    {m : Move κ τ α ε} (h : movesOf move advance key schedule = front ++ m :: late) :
    ∃ before a after, schedule = before ++ a :: after ∧ movesOf move advance key before = front ∧
      move (before.foldl advance key) a = some m ∧
      movesOf move advance (advance (before.foldl advance key) a) after = late := by
  induction schedule generalizing key front with
  | nil => simp [movesOf] at h
  | cons a rest ih =>
      rw [movesOf] at h
      cases hmove : move key a with
      | none =>
          rw [hmove, Option.toList_none, List.nil_append] at h
          obtain ⟨before, b, after, rfl, hfront, hb, hlate⟩ := ih h
          exact ⟨a :: before, b, after, rfl, by rw [movesOf, hmove, hfront]; rfl, hb, hlate⟩
      | some m' =>
          rw [hmove, Option.toList_some] at h
          cases front with
          | nil =>
              obtain ⟨rfl, hlate⟩ := List.cons_eq_cons.mp h
              exact ⟨[], a, rest, rfl, rfl, hmove, hlate⟩
          | cons m'' front =>
              obtain ⟨rfl, hrest⟩ := List.cons_eq_cons.mp h
              obtain ⟨before, b, after, rfl, hfront, hb, hlate⟩ := ih hrest
              exact ⟨a :: before, b, after, rfl, by rw [movesOf, hmove, hfront]; rfl, hb, hlate⟩

/-- What the choices say about a key, where the next free key does not matter for it. -/
theorem filterMap_about_movesOf {key : κ} {said : A → Option (Event α ε)}
    (hsaid : ∀ next a, (move next a).bind (about key) = said a) (next : κ) (schedule : List A) :
    (movesOf move advance next schedule).filterMap (about key) = schedule.filterMap said := by
  induction schedule generalizing next with
  | nil => rfl
  | cons a rest ih =>
      rw [movesOf, List.filterMap_append, ih, ← List.singleton_append (l := rest),
        List.filterMap_append]
      congr 1
      rw [List.filterMap_cons, List.filterMap_nil, ← hsaid next a]
      cases move next a with
      | none => rfl
      | some m => cases h : about key m <;> simp [h]

/-! ### Keys in order -/

section Ordered

variable [Preorder κ]

/-- Every key in use comes before the bound. -/
structure Below (bound : κ) (s : Office κ τ α ε) : Prop where
  requests : ∀ key t, ticketOf s key = some t → key < bound
  calls : ∀ t key, keyOf s t = some key → key < bound

theorem below_empty (bound : κ) : Below bound (Office.empty : Office κ τ α ε) where
  requests key t h := by cases h
  calls t key h := by cases h

theorem Below.unshared {bound : κ} (h : Below bound s) (ask : τ) :
    Unshared s (.begin bound ask) := by
  refine ⟨Option.eq_none_iff_forall_ne_some.mpr fun t ht => ?_, fun t ht => ?_⟩
  · exact lt_irrefl bound (h.requests bound t ht)
  · exact lt_irrefl bound (h.calls t bound ht)

theorem Below.step {bound bound' : κ} (h : Below bound s) (hle : bound ≤ bound')
    (hbegin : ∀ key ask, m = .begin key ask → key < bound') : Below bound' (s.step m) := by
  rcases step_cases s m with ⟨key, ask, rfl⟩ | hkept | ⟨ticket, call, outcome, hreturns, -⟩
  · have hkey : key < bound' := hbegin key ask rfl
    refine ⟨fun k t hk => ?_, fun t k hk => ?_⟩
    · obtain ⟨request, hrequest, -⟩ := Option.map_eq_some_iff.mp hk
      rcases lookup_insert_eq_some hrequest with ⟨rfl, -⟩ | hold
      · exact hkey
      · exact (h.requests k request.ticket (by rw [ticketOf, hold]; rfl)).trans_le hle
    · obtain ⟨call, hcall, rfl⟩ := Option.map_eq_some_iff.mp hk
      rcases lookup_insert_eq_some hcall with ⟨-, rfl⟩ | hold
      · exact hkey
      · exact (h.calls t call.key (by rw [keyOf, hold]; rfl)).trans_le hle
  · refine ⟨fun k t hk => ?_, fun t k hk => ?_⟩
    · exact (h.requests k t (hkept.requests k t hk)).trans_le hle
    · exact (h.calls t k (hkept.calls t ▸ hk)).trans_le hle
  · refine ⟨fun k t hk => ?_, fun t k hk => ?_⟩
    · exact (h.requests k t (hreturns.requests k t hk)).trans_le hle
    · exact (h.calls t k (keyOf_eq_some_of_erase hreturns.calls hk).2).trans_le hle

/-- **Keys that are handed out in order are not shared.** -/
theorem meets_unshared {start : κ} {schedule : List A} (h : Below start s)
    (hkeys : Meets advance (fun next a => next ≤ advance next a ∧
      ∀ key ask, move next a = some (.begin key ask) → key = next ∧ next < advance next a)
      start schedule) :
    Meets Office.step Unshared s (movesOf move advance start schedule) := by
  induction schedule generalizing s start with
  | nil => trivial
  | cons a rest ih =>
      obtain ⟨⟨hle, hbegin⟩, hrest⟩ := hkeys
      rw [movesOf]
      cases hmove : move start a with
      | none => exact ih ⟨fun k t hk => (h.requests k t hk).trans_le hle,
          fun t k hk => (h.calls t k hk).trans_le hle⟩ hrest
      | some m =>
          refine ⟨?_, ih (h.step hle fun key ask hm => ?_) hrest⟩
          · cases m with
            | begin key ask =>
                obtain ⟨rfl, -⟩ := hbegin key ask hmove
                exact h.unshared ask
            | _ => trivial
          · obtain ⟨rfl, hlt⟩ := hbegin key ask (hm ▸ hmove)
            exact hlt

end Ordered

end Schedule

end Corsair.Verified.Gather
