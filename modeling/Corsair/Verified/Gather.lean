import Corsair.Verified.Runs
import Corsair.Verified.Table

/-!
# Requests that are answered in pieces

A call opens a request under a key and waits.  Rows come in under the key until an end closes the
request or a refusal fails it; then the call has its answer, and takes it when it is woken.  It
gives up at its deadline, and its request is withdrawn a moment later.  Rows whose key has no
request are not taken.

There is one table of requests, and whatever is said under a key goes to the request that is there.
A call hears only what is meant for it if no two requests share a key.

## Main results

* `progress_eq_closed` — a request closes with the rows that came before its end, in their order.
* `step_cases` — what one step does: it begins a call, keeps the calls, or lets one return.
* `Apart.step` — while no call begins under a key in use, no two share one.
-/

namespace Corsair.Verified.Gather

open Corsair.Verified.Runs
open Corsair.Verified.Table

variable {κ τ α ε : Type*}

/-! ## One request by itself -/

/-- What is said about a request. -/
inductive Event (α ε : Type*)
  | row (a : α)
  | finish
  | refuse (e : ε)
  deriving DecidableEq

/-- How far a request has come. -/
inductive Progress (α ε : Type*)
  | collecting (rows : List α)
  | closed (answer : Except ε (List α))

def Progress.hear : Progress α ε → Event α ε → Progress α ε
  | .collecting rows, .row a => .collecting (rows ++ [a])
  | .collecting rows, .finish => .closed (.ok rows)
  | .collecting _, .refuse e => .closed (.error e)
  | .closed answer, _ => .closed answer

/-- How far it has come after everything that was said. -/
def progress (events : List (Event α ε)) : Progress α ε :=
  events.foldl Progress.hear (.collecting [])

theorem foldl_hear_closed (answer : Except ε (List α)) (events : List (Event α ε)) :
    events.foldl Progress.hear (.closed answer) = .closed answer := by
  induction events with
  | nil => rfl
  | cons event rest ih => exact ih

theorem progress_rows (rows : List α) (rest : List (Event α ε)) :
    progress (rows.map Event.row ++ rest) = rest.foldl Progress.hear (.collecting rows) := by
  have hfold (before : List α) :
      (rows.map Event.row ++ rest).foldl Progress.hear (.collecting before) =
        rest.foldl Progress.hear (.collecting (before ++ rows)) := by
    induction rows generalizing before with
    | nil => simp
    | cons a rows ih => simp [Progress.hear, ih]
  exact hfold []

/-- The rows that were said first, and what was said after them. -/
theorem exists_rows (events : List (Event α ε)) :
    ∃ (rows : List α) (rest : List (Event α ε)), events = rows.map Event.row ++ rest ∧
      ∀ event ∈ rest.head?, ∀ a, event ≠ .row a := by
  induction events with
  | nil => exact ⟨[], [], rfl, by simp⟩
  | cons event events ih =>
      cases event with
      | row a =>
          obtain ⟨rows, rest, rfl, hhead⟩ := ih
          exact ⟨a :: rows, rest, rfl, hhead⟩
      | finish => exact ⟨[], .finish :: events, rfl, by simp⟩
      | refuse e => exact ⟨[], .refuse e :: events, rfl, by simp⟩

/-- **A request closes** at its end, with the rows that came before it in their order, or at its
first refusal. -/
theorem progress_eq_closed {events : List (Event α ε)} {answer : Except ε (List α)} :
    progress events = .closed answer ↔
      ∃ (rows : List α) (last : Event α ε) (rest : List (Event α ε)),
        events = rows.map Event.row ++ last :: rest ∧
          (last = .finish ∧ answer = .ok rows ∨ ∃ e, last = .refuse e ∧ answer = .error e) := by
  constructor
  · intro h
    obtain ⟨rows, rest, rfl, hhead⟩ := exists_rows events
    rw [progress_rows] at h
    cases rest with
    | nil => cases h
    | cons last rest =>
        refine ⟨rows, last, rest, rfl, ?_⟩
        cases last with
        | row a => exact absurd rfl (hhead _ rfl a)
        | finish =>
            rw [List.foldl_cons, Progress.hear, foldl_hear_closed] at h
            cases h
            exact .inl ⟨rfl, rfl⟩
        | refuse e =>
            rw [List.foldl_cons, Progress.hear, foldl_hear_closed] at h
            cases h
            exact .inr ⟨e, rfl, rfl⟩
  · rintro ⟨rows, last, rest, rfl, ⟨rfl, rfl⟩ | ⟨e, rfl, rfl⟩⟩
    · rw [progress_rows, List.foldl_cons, Progress.hear, foldl_hear_closed]
    · rw [progress_rows, List.foldl_cons, Progress.hear, foldl_hear_closed]

/-! ## The table and the calls -/

/-- An open request: the ticket of its call, and the rows so far. -/
structure Request (α : Type*) where
  ticket : Nat
  rows : List α

/-- A call that waits.  `inbox` is the answer that it has not taken yet; `expired` says that it has
given up. -/
structure Call (κ τ α ε : Type*) where
  key : κ
  ask : τ
  sent : Bool
  expired : Bool
  inbox : Option (Except ε (List α))

/-- How a call ends. -/
inductive Outcome (α ε : Type*)
  | answered (answer : Except ε (List α))
  | dropped
  | timedOut
  | unsent (e : ε)

/-- A call that has returned. -/
structure Return (κ τ α ε : Type*) where
  ticket : Nat
  key : κ
  ask : τ
  outcome : Outcome α ε

/-- The open requests, the calls that wait, and what the others have returned. -/
structure Office (κ τ α ε : Type*) where
  requests : AList (fun _ : κ => Request α)
  calls : AList (fun _ : Nat => Call κ τ α ε)
  next : Nat
  returned : List (Return κ τ α ε)

/-- A call begins, its send completes, something is said, everything is refused, a call is woken,
before its deadline or at it, or a call that has given up withdraws its request. -/
inductive Move (κ τ α ε : Type*)
  | begin (key : κ) (ask : τ)
  | sent (ticket : Nat) (failure : Option ε)
  | hear (key : κ) (event : Event α ε)
  | refuseAll (e : ε)
  | poll (ticket : Nat)
  | elapse (ticket : Nat)
  | withdraw (ticket : Nat)

/-- An answer reaches a call; one that has given up does not take it. -/
def Call.told (call : Call κ τ α ε) (answer : Except ε (List α)) : Call κ τ α ε :=
  if call.expired then call else { call with inbox := some answer }

/-- An answer is sent to a ticket. -/
def deliver (calls : AList (fun _ : Nat => Call κ τ α ε)) (ticket : Nat)
    (answer : Except ε (List α)) : AList (fun _ : Nat => Call κ τ α ε) :=
  match calls.lookup ticket with
  | some call => calls.insert ticket (call.told answer)
  | none => calls

@[simp] theorem told_key (call : Call κ τ α ε) (answer : Except ε (List α)) :
    (call.told answer).key = call.key := by
  unfold Call.told
  split <;> rfl

@[simp] theorem told_ask (call : Call κ τ α ε) (answer : Except ε (List α)) :
    (call.told answer).ask = call.ask := by
  unfold Call.told
  split <;> rfl

@[simp] theorem told_expired (call : Call κ τ α ε) (answer : Except ε (List α)) :
    (call.told answer).expired = call.expired := by
  unfold Call.told
  split <;> rfl

theorem told_inbox {call : Call κ τ α ε} (h : call.expired = false) (answer : Except ε (List α)) :
    (call.told answer).inbox = some answer := by
  rw [Call.told, h]
  rfl

theorem told_told (call : Call κ τ α ε) (answer : Except ε (List α)) :
    (call.told answer).told answer = call.told answer := by
  cases h : call.expired <;> simp [Call.told, h]

theorem lookup_deliver (calls : AList (fun _ : Nat => Call κ τ α ε)) (ticket t : Nat)
    (answer : Except ε (List α)) :
    (deliver calls ticket answer).lookup t =
      if ticket = t then (calls.lookup t).map (·.told answer) else calls.lookup t := by
  unfold deliver
  by_cases ht : ticket = t
  · subst ht
    cases h : calls.lookup ticket <;> simp [h]
  · rw [if_neg ht]
    split
    · exact AList.lookup_insert_ne (Ne.symm ht)
    · rfl

theorem lookup_deliverAll (entries : List (Sigma fun _ : κ => Request α))
    (calls : AList (fun _ : Nat => Call κ τ α ε)) (answer : Except ε (List α)) (t : Nat) :
    (entries.foldl (fun calls entry => deliver calls entry.2.ticket answer) calls).lookup t =
      if entries.any (·.2.ticket = t) then (calls.lookup t).map (·.told answer)
      else calls.lookup t := by
  induction entries generalizing calls with
  | nil => rfl
  | cons entry rest ih =>
      rw [List.foldl_cons, ih, lookup_deliver, List.any_cons]
      by_cases ht : entry.2.ticket = t
      · cases calls.lookup t <;> simp [ht, told_told]
      · simp only [ht, if_false, decide_false, Bool.false_or]

namespace Office

variable [DecidableEq κ] (s : Office κ τ α ε)

def empty : Office κ τ α ε := { requests := ∅, calls := ∅, next := 0, returned := [] }

def begin (key : κ) (ask : τ) : Office κ τ α ε :=
  { s with
    requests := s.requests.insert key { ticket := s.next, rows := [] }
    calls := s.calls.insert s.next { key, ask, sent := false, expired := false, inbox := none }
    next := s.next + 1 }

/-- A row is added to the request that is there. -/
def collect (key : κ) (a : α) : Office κ τ α ε :=
  match s.requests.lookup key with
  | some request =>
      { s with requests := s.requests.insert key { request with rows := request.rows ++ [a] } }
  | none => s

/-- The request that is there ends, with its rows or with an error. -/
def conclude (key : κ) (answer : List α → Except ε (List α)) : Office κ τ α ε :=
  match s.requests.lookup key with
  | some request =>
      { s with
        requests := s.requests.erase key
        calls := deliver s.calls request.ticket (answer request.rows) }
  | none => s

/-- Every request is refused. -/
def refuseAll (e : ε) : Office κ τ α ε :=
  { s with
    requests := ∅
    calls := s.requests.entries.foldl
      (fun calls entry => deliver calls entry.2.ticket (.error e)) s.calls }

/-- A call returns. -/
def finish (ticket : Nat) (call : Call κ τ α ε) (outcome : Outcome α ε) : Office κ τ α ε :=
  { s with
    calls := s.calls.erase ticket
    returned := s.returned ++ [{ ticket, key := call.key, ask := call.ask, outcome }] }

/-- What a call that is woken finds: its answer, that nobody will answer, or nothing yet. -/
def ready (ticket : Nat) (call : Call κ τ α ε) : Option (Outcome α ε) :=
  match call.inbox with
  | some answer => some (.answered answer)
  | none =>
      if (s.requests.lookup call.key).map Request.ticket = some ticket then none
      else some .dropped

/-- A send has completed.  One that failed leaves the request where it is. -/
def afterSend (ticket : Nat) (failure : Option ε) : Office κ τ α ε :=
  match s.calls.lookup ticket with
  | some call =>
      if call.sent then s
      else
        match failure with
        | none => { s with calls := s.calls.insert ticket { call with sent := true } }
        | some e => s.finish ticket call (.unsent e)
  | none => s

/-- A call is woken; past its deadline it gives up. -/
def wake (ticket : Nat) (pastDeadline : Bool) : Office κ τ α ε :=
  match s.calls.lookup ticket with
  | some call =>
      if call.sent && !call.expired then
        match s.ready ticket call with
        | some outcome => s.finish ticket call outcome
        | none =>
            if pastDeadline then
              { s with calls := s.calls.insert ticket { call with expired := true } }
            else s
      else s
  | none => s

/-- A call that has given up takes its request out and returns. -/
def withdraw (ticket : Nat) : Office κ τ α ε :=
  match s.calls.lookup ticket with
  | some call =>
      if call.expired then
        { s with requests := s.requests.erase call.key }.finish ticket call .timedOut
      else s
  | none => s

def step : Move κ τ α ε → Office κ τ α ε
  | .begin key ask => s.begin key ask
  | .sent ticket failure => s.afterSend ticket failure
  | .hear key (.row a) => s.collect key a
  | .hear key .finish => s.conclude key .ok
  | .hear key (.refuse e) => s.conclude key fun _ => .error e
  | .refuseAll e => s.refuseAll e
  | .poll ticket => s.wake ticket false
  | .elapse ticket => s.wake ticket true
  | .withdraw ticket => s.withdraw ticket

variable {s} in
/-- A call that is woken returns what it finds. -/
theorem returned_wake {t : Nat} {c : Call κ τ α ε} (hcall : s.calls.lookup t = some c)
    (hsent : c.sent = true) (hreads : c.expired = false) {outcome : Outcome α ε}
    (hready : s.ready t c = some outcome) (pastDeadline : Bool) :
    (s.wake t pastDeadline).returned =
      s.returned ++ [{ ticket := t, key := c.key, ask := c.ask, outcome }] := by
  simp [wake, hcall, hsent, hreads, hready, finish]

variable {s} in
/-- At its deadline a call that finds nothing gives up, and returns as it withdraws. -/
theorem returned_withdraw {t : Nat} {c : Call κ τ α ε} (hcall : s.calls.lookup t = some c)
    (hsent : c.sent = true) (hreads : c.expired = false) (hready : s.ready t c = none) :
    ((s.wake t true).withdraw t).returned =
      s.returned ++ [{ ticket := t, key := c.key, ask := c.ask, outcome := .timedOut }] := by
  have hgives : s.wake t true =
      { s with calls := s.calls.insert t { c with expired := true } } := by
    simp [wake, hcall, hsent, hreads, hready]
  simp [hgives, withdraw, finish]

end Office

/-! ## What a call hears -/

section Hearing

variable [DecidableEq κ]

/-- What a move says about a key. -/
def about (key : κ) : Move κ τ α ε → Option (Event α ε)
  | .hear k event => if k = key then some event else none
  | .refuseAll e => some (.refuse e)
  | _ => none

/-- How far a request under a key has come after some moves. -/
def heard (key : κ) (moves : List (Move κ τ α ε)) : Progress α ε :=
  progress (moves.filterMap (about key))

@[simp] theorem heard_nil (key : κ) : heard key ([] : List (Move κ τ α ε)) = .collecting [] := rfl

/-- How far a request comes with one more move. -/
def Progress.after (p : Progress α ε) (key : κ) (m : Move κ τ α ε) : Progress α ε :=
  match about key m with
  | some event => p.hear event
  | none => p

theorem heard_append (key : κ) (moves : List (Move κ τ α ε)) (m : Move κ τ α ε) :
    heard key (moves ++ [m]) = (heard key moves).after key m := by
  rw [heard, heard, progress, progress, Progress.after, List.filterMap_append, List.foldl_append]
  cases h : about key m <;> simp [h]

theorem Progress.after_of_none {key : κ} {m : Move κ τ α ε} (h : about key m = none)
    (p : Progress α ε) : p.after key m = p := by
  rw [Progress.after, h]

theorem Progress.after_of_some {key : κ} {m : Move κ τ α ε} {event : Event α ε}
    (h : about key m = some event) (p : Progress α ε) : p.after key m = p.hear event := by
  rw [Progress.after, h]

/-- A call that has not given up, and its request, show how far it has come. -/
def Shows (s : Office κ τ α ε) (ticket : Nat) (call : Call κ τ α ε) : Progress α ε → Prop
  | .collecting rows =>
      call.inbox = none ∧ s.requests.lookup call.key = some { ticket, rows }
  | .closed answer => call.inbox = some answer ∧ s.requests.lookup call.key = none

theorem Shows.congr {s s' : Office κ τ α ε} {ticket : Nat} {call call' : Call κ τ α ε}
    {p : Progress α ε} (h : Shows s ticket call p)
    (hrequests : s'.requests.lookup call.key = s.requests.lookup call.key)
    (hkey : call'.key = call.key) (hinbox : call'.inbox = call.inbox) : Shows s' ticket call' p := by
  cases p with
  | collecting rows => exact ⟨hinbox.trans h.1, by rw [hkey, hrequests, h.2]⟩
  | closed answer => exact ⟨hinbox.trans h.1, by rw [hkey, hrequests, h.2]⟩

/-! ### Keys and tickets -/

/-- The key of a call. -/
def keyOf (s : Office κ τ α ε) (ticket : Nat) : Option κ :=
  (s.calls.lookup ticket).map Call.key

/-- The ticket of a request. -/
def ticketOf (s : Office κ τ α ε) (key : κ) : Option Nat :=
  (s.requests.lookup key).map Request.ticket

/-- No two calls share a key, and a request is that of its call. -/
structure Apart (s : Office κ τ α ε) : Prop where
  keys : ∀ t t' key, keyOf s t = some key → keyOf s t' = some key → t = t'
  own : ∀ key t, ticketOf s key = some t → t < s.next ∧ ∀ key', keyOf s t = some key' → key' = key
  issued : ∀ t key, keyOf s t = some key → t < s.next
  gone : ∀ r ∈ s.returned, keyOf s r.ticket = none ∧ r.ticket < s.next
  once : (s.returned.map Return.ticket).Nodup

/-- A call that begins finds its key unused. -/
def Unshared (s : Office κ τ α ε) : Move κ τ α ε → Prop
  | .begin key _ => ticketOf s key = none ∧ ∀ t, keyOf s t ≠ some key
  | _ => True

variable {s s' : Office κ τ α ε} {m : Move κ τ α ε}

/-- The calls keep their keys, no request changes hands, and nobody returns. -/
structure Kept (s s' : Office κ τ α ε) : Prop where
  next : s'.next = s.next
  returned : s'.returned = s.returned
  calls : ∀ t, keyOf s' t = keyOf s t
  requests : ∀ key t, ticketOf s' key = some t → ticketOf s key = some t

/-- One call returns. -/
structure Returns (s s' : Office κ τ α ε) (ticket : Nat) (call : Call κ τ α ε)
    (outcome : Outcome α ε) : Prop where
  next : s'.next = s.next
  returned : s'.returned =
    s.returned ++ [{ ticket, key := call.key, ask := call.ask, outcome }]
  call : s.calls.lookup ticket = some call
  calls : s'.calls = s.calls.erase ticket
  requests : ∀ key t, ticketOf s' key = some t → ticketOf s key = some t

theorem Kept.was (h : Kept s s') {t : Nat} {c' : Call κ τ α ε}
    (hnow : s'.calls.lookup t = some c') : ∃ c, s.calls.lookup t = some c := by
  have hkey : keyOf s t = some c'.key := by
    rw [← h.calls t, keyOf, hnow]
    rfl
  obtain ⟨c, hwas, -⟩ := Option.map_eq_some_iff.mp hkey
  exact ⟨c, hwas⟩

theorem Kept.refl (s : Office κ τ α ε) : Kept s s := ⟨rfl, rfl, fun _ => rfl, fun _ _ h => h⟩

theorem Apart.kept (h : Apart s) (hkept : Kept s s') : Apart s' where
  keys t t' key ht ht' := h.keys t t' key (hkept.calls t ▸ ht) (hkept.calls t' ▸ ht')
  own key t ht := by
    obtain ⟨hlt, hkey⟩ := h.own key t (hkept.requests key t ht)
    exact ⟨hkept.next ▸ hlt, fun key' hkey' => hkey key' (hkept.calls t ▸ hkey')⟩
  issued t key ht := hkept.next ▸ h.issued t key (hkept.calls t ▸ ht)
  gone r hr := by
    rw [hkept.calls, hkept.next]
    exact h.gone r (hkept.returned ▸ hr)
  once := hkept.returned ▸ h.once

omit [DecidableEq κ] in
theorem keyOf_eq_some_of_erase {ticket t : Nat} {key : κ}
    (hcalls : s'.calls = s.calls.erase ticket) (h : keyOf s' t = some key) :
    t ≠ ticket ∧ keyOf s t = some key := by
  obtain ⟨call, hcall, hkey⟩ := Option.map_eq_some_iff.mp h
  rw [hcalls] at hcall
  obtain ⟨hne, hold⟩ := lookup_erase_eq_some hcall
  exact ⟨hne, Option.map_eq_some_iff.mpr ⟨call, hold, hkey⟩⟩

theorem Apart.returns (h : Apart s) {ticket : Nat} {call : Call κ τ α ε} {outcome : Outcome α ε}
    (hreturns : Returns s s' ticket call outcome) : Apart s' := by
  have hkey : keyOf s ticket = some call.key := by
    rw [keyOf, hreturns.call]
    rfl
  refine ⟨?_, ?_, ?_, ?_, ?_⟩
  · intro t t' key ht ht'
    exact h.keys t t' key (keyOf_eq_some_of_erase hreturns.calls ht).2
      (keyOf_eq_some_of_erase hreturns.calls ht').2
  · intro key t ht
    obtain ⟨hlt, hkeys⟩ := h.own key t (hreturns.requests key t ht)
    exact ⟨hreturns.next ▸ hlt,
      fun key' hkey' => hkeys key' (keyOf_eq_some_of_erase hreturns.calls hkey').2⟩
  · intro t key ht
    exact hreturns.next ▸ h.issued t key (keyOf_eq_some_of_erase hreturns.calls ht).2
  · intro r hr
    rw [hreturns.returned] at hr
    rw [hreturns.next]
    rcases List.mem_append.mp hr with hold | hnew
    · refine ⟨?_, (h.gone r hold).2⟩
      by_contra hsome
      obtain ⟨key, hkey'⟩ := Option.ne_none_iff_exists'.mp hsome
      have hsame := (keyOf_eq_some_of_erase hreturns.calls hkey').2
      rw [(h.gone r hold).1] at hsame
      cases hsame
    · rw [List.mem_singleton.mp hnew]
      refine ⟨?_, h.issued ticket _ hkey⟩
      rw [keyOf, hreturns.calls, AList.lookup_erase]
      rfl
  · rw [hreturns.returned, List.map_append, List.nodup_append]
    refine ⟨h.once, List.nodup_singleton _, ?_⟩
    intro t ht t' ht'
    obtain ⟨r, hr, rfl⟩ := List.mem_map.mp ht
    rw [List.map_singleton, List.mem_singleton] at ht'
    rintro rfl
    have hnone := (h.gone r hr).1
    rw [ht', hkey] at hnone
    cases hnone

theorem Apart.begin (h : Apart s) {key : κ} {ask : τ} (hfresh : Unshared s (.begin key ask)) :
    Apart (s.begin key ask) := by
  obtain ⟨hrequest, hkeys⟩ := hfresh
  have hcalls (t : Nat) : keyOf (s.begin key ask) t = if t = s.next then some key else keyOf s t := by
    show Option.map _ ((s.calls.insert s.next _).lookup t) = _
    by_cases ht : t = s.next
    · rw [ht, AList.lookup_insert, if_pos rfl]
      rfl
    · rw [AList.lookup_insert_ne ht, if_neg ht]
      rfl
  have hrequests (k : κ) : ticketOf (s.begin key ask) k =
      if k = key then some s.next else ticketOf s k := by
    show Option.map _ ((s.requests.insert key _).lookup k) = _
    by_cases hk : k = key
    · rw [hk, AList.lookup_insert, if_pos rfl]
      rfl
    · rw [AList.lookup_insert_ne hk, if_neg hk]
      rfl
  have hnext : (s.begin key ask).next = s.next + 1 := rfl
  refine ⟨?_, ?_, ?_, ?_, h.once⟩
  · intro t t' k ht ht'
    rw [hcalls] at ht ht'
    split_ifs at ht ht' with h1 h2 h3
    · rw [h1, h2]
    · cases ht
      exact absurd ht' (hkeys t')
    · cases ht'
      exact absurd ht (hkeys t)
    · exact h.keys t t' k ht ht'
  · intro k t ht
    rw [hrequests] at ht
    rw [hnext]
    split_ifs at ht with hk
    · cases ht
      refine ⟨Nat.lt_succ_self _, fun key' hkey' => ?_⟩
      rw [hcalls, if_pos rfl] at hkey'
      rw [hk, Option.some.inj hkey']
    · obtain ⟨hlt, hown⟩ := h.own k t ht
      refine ⟨Nat.lt_succ_of_lt hlt, fun key' hkey' => hown key' ?_⟩
      rwa [hcalls, if_neg hlt.ne] at hkey'
  · intro t k ht
    rw [hcalls] at ht
    rw [hnext]
    split_ifs at ht with hk
    · omega
    · exact Nat.lt_succ_of_lt (h.issued t k ht)
  · intro r hr
    obtain ⟨hnone, hlt⟩ := h.gone r hr
    rw [hcalls, if_neg hlt.ne, hnext]
    exact ⟨hnone, Nat.lt_succ_of_lt hlt⟩

/-! ### What a step does -/

/-- Why a call returns. -/
inductive Why (s : Office κ τ α ε) (m : Move κ τ α ε) (ticket : Nat) (call : Call κ τ α ε)
    (outcome : Outcome α ε) : Prop
  | woken (hm : m = .poll ticket ∨ m = .elapse ticket) (hwaits : call.expired = false)
      (hready : s.ready ticket call = some outcome)
  | unsent (e : ε) (hm : m = .sent ticket (some e)) (houtcome : outcome = .unsent e)
  | timedOut (hm : m = .withdraw ticket) (hgave : call.expired = true)
      (houtcome : outcome = .timedOut)

theorem kept_conclude (s : Office κ τ α ε) (key : κ) (answer : List α → Except ε (List α)) :
    Kept s (s.conclude key answer) := by
  unfold Office.conclude
  split
  · refine ⟨rfl, rfl, fun t => ?_, fun k t ht => ?_⟩
    · simp only [keyOf, lookup_deliver]
      split_ifs
      · cases s.calls.lookup t <;> simp
      · rfl
    · obtain ⟨request, hrequest, hticket⟩ := Option.map_eq_some_iff.mp ht
      exact Option.map_eq_some_iff.mpr ⟨request, (lookup_erase_eq_some hrequest).2, hticket⟩
  · exact Kept.refl s

theorem kept_refuseAll (s : Office κ τ α ε) (e : ε) : Kept s (s.refuseAll e) := by
  refine ⟨rfl, rfl, fun t => ?_, fun k t ht => by cases ht⟩
  simp only [keyOf, Office.refuseAll, lookup_deliverAll]
  split_ifs
  · cases s.calls.lookup t <;> simp
  · rfl

theorem returns_finish {s s' : Office κ τ α ε} {ticket : Nat} {call : Call κ τ α ε}
    (hcall : s.calls.lookup ticket = some call) (outcome : Outcome α ε) (hnext : s'.next = s.next)
    (hcalls : s'.calls = s.calls) (hreturned : s'.returned = s.returned)
    (hrequests : ∀ key t, ticketOf s' key = some t → ticketOf s key = some t) :
    Returns s (s'.finish ticket call outcome) ticket call outcome :=
  ⟨hnext, by rw [← hreturned]; rfl, hcall, by rw [← hcalls]; rfl, hrequests⟩

theorem ticketOf_erase {s : Office κ τ α ε} {key k : κ} {t : Nat}
    (h : ticketOf { s with requests := s.requests.erase key } k = some t) :
    ticketOf s k = some t := by
  obtain ⟨request, hrequest, hticket⟩ := Option.map_eq_some_iff.mp h
  exact Option.map_eq_some_iff.mpr ⟨request, (lookup_erase_eq_some hrequest).2, hticket⟩

omit [DecidableEq κ] in
theorem keyOf_replaced {s : Office κ τ α ε} {ticket : Nat} {call call' : Call κ τ α ε}
    (hcall : s.calls.lookup ticket = some call) (hkey : call'.key = call.key) (t : Nat) :
    keyOf { s with calls := s.calls.insert ticket call' } t = keyOf s t := by
  unfold keyOf
  by_cases ht : t = ticket
  · rw [ht, AList.lookup_insert, hcall, Option.map_some, Option.map_some, hkey]
  · rw [AList.lookup_insert_ne ht]

theorem wake_cases (s : Office κ τ α ε) (ticket : Nat) (past : Bool) :
    Kept s (s.wake ticket past) ∨ ∃ call outcome, Returns s (s.wake ticket past) ticket call outcome ∧
      call.expired = false ∧ s.ready ticket call = some outcome := by
  unfold Office.wake
  split
  · rename_i call hcall
    split
    · rename_i hwaits
      simp only [Bool.and_eq_true, Bool.not_eq_true'] at hwaits
      split
      · rename_i outcome hready
        exact .inr ⟨call, outcome, returns_finish hcall _ rfl rfl rfl (fun _ _ ht => ht), hwaits.2,
          hready⟩
      · split
        · exact .inl ⟨rfl, rfl, keyOf_replaced hcall rfl, fun _ _ ht => ht⟩
        · exact .inl (Kept.refl s)
    · exact .inl (Kept.refl s)
  · exact .inl (Kept.refl s)

/-- **A step** begins a call, or keeps the calls, or lets one return. -/
theorem step_cases (s : Office κ τ α ε) (m : Move κ τ α ε) :
    (∃ key ask, m = .begin key ask) ∨ Kept s (s.step m) ∨
      ∃ ticket call outcome, Returns s (s.step m) ticket call outcome ∧
        Why s m ticket call outcome := by
  cases m with
  | begin key ask => exact .inl ⟨key, ask, rfl⟩
  | hear key event =>
      refine .inr (.inl ?_)
      cases event with
      | row a =>
          show Kept s (s.collect key a)
          unfold Office.collect
          split
          · rename_i request hrequest
            refine ⟨rfl, rfl, fun _ => rfl, fun k t ht => ?_⟩
            by_cases hk : k = key
            · subst hk
              rw [ticketOf, AList.lookup_insert] at ht
              rw [ticketOf, hrequest]
              exact ht
            · rwa [ticketOf, AList.lookup_insert_ne hk] at ht
          · exact Kept.refl s
      | finish => exact kept_conclude s key _
      | refuse e => exact kept_conclude s key fun _ => .error e
  | refuseAll e => exact .inr (.inl (kept_refuseAll s e))
  | sent ticket failure =>
      simp only [Office.step]
      unfold Office.afterSend
      split
      · rename_i call hcall
        split
        · exact .inr (.inl (Kept.refl s))
        · cases failure with
          | none =>
              exact .inr (.inl ⟨rfl, rfl, keyOf_replaced hcall rfl, fun _ _ ht => ht⟩)
          | some e =>
              exact .inr (.inr ⟨ticket, call, _, returns_finish hcall _ rfl rfl rfl
                (fun _ _ ht => ht), .unsent e rfl rfl⟩)
      · exact .inr (.inl (Kept.refl s))
  | poll ticket => exact .inr ((wake_cases s ticket false).imp_right fun
      ⟨call, outcome, hreturns, hwaits, hready⟩ =>
        ⟨ticket, call, outcome, hreturns, .woken (.inl rfl) hwaits hready⟩)
  | elapse ticket => exact .inr ((wake_cases s ticket true).imp_right fun
      ⟨call, outcome, hreturns, hwaits, hready⟩ =>
        ⟨ticket, call, outcome, hreturns, .woken (.inr rfl) hwaits hready⟩)
  | withdraw ticket =>
      simp only [Office.step]
      unfold Office.withdraw
      split
      · rename_i call hcall
        split
        · rename_i hgave
          exact .inr (.inr ⟨ticket, call, _, returns_finish hcall _ rfl rfl rfl
            (fun _ _ ht => ticketOf_erase ht), .timedOut rfl hgave rfl⟩)
        · exact .inr (.inl (Kept.refl s))
      · exact .inr (.inl (Kept.refl s))

theorem Apart.step (h : Apart s) (hfresh : Unshared s m) : Apart (s.step m) := by
  rcases step_cases s m with ⟨key, ask, rfl⟩ | hkept | ⟨ticket, call, outcome, hreturns, -⟩
  · exact h.begin hfresh
  · exact h.kept hkept
  · exact h.returns hreturns

theorem apart_empty : Apart (Office.empty : Office κ τ α ε) where
  keys t t' key ht := by cases ht
  own key t ht := by cases ht
  issued t key ht := by cases ht
  gone r hr := by cases hr
  once := List.nodup_nil

end Hearing

end Corsair.Verified.Gather
