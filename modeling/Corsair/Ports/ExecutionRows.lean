import Corsair.Verified.GatherRows
import Corsair.Ports.RequestReplies

/-!
# No execution is lost or doubled

An execution that comes in is broadcast as a fill, or it is a row of the request that it answers.
Nothing else knows of it: the broadcast fills, the rows with requests, the answers that calls have
in their hands and the answers that they returned are the executions that came in, none of them
twice.

Rows are lost where a request ends without its call: at a disconnect, at a deadline, and where the
send had failed.  The rows that come after a deadline are not lost.  They are broadcast, as if
they had just happened.

## Main results

* `executions_conserved` — over every run, and exactly where no request with rows loses its call.
* `late_rows_broadcast` — once a call has given up, the rows for it are broadcast.
-/

namespace Corsair.Ports.ExecutionRows

open Corsair.Verified
open Corsair.Verified.Runs
open Corsair.Verified.Gather
open Corsair.Ports.Portfolio (Date)
open Corsair.Ports.BrokerApi
open Corsair.Ports.KillRuntime (BrokerError)
open Corsair.Ports.NativeDecoder
open Corsair.Ports.Fills (ExecutionMsg executionToFill)
open Corsair.Ports.RestingSweep (plainFormats)
open Corsair.Ports.RequestReplies

variable {F : Type} [F64 F]

/-- The fill that a step brings. -/
def arrives (fmt : TextFormats F Date) : ReplyStep F → Option (Fill F)
  | .frame fields =>
      match parseReply fmt fields with
      | .ok (.execution e) => executionToFill e
      | _ => none
  | _ => none

/-- The fills that have arrived. -/
def arrived (fmt : TextFormats F Date) (schedule : List (ReplyStep F)) : Multiset (Fill F) :=
  schedule.filterMap (arrives fmt)

/-- The fills that were broadcast, and those that an execution request took. -/
def known (s : ReplyState F) : Multiset (Fill F) := s.fills + held s.executions

/-- The step ends no execution request that has rows, unless its call takes them. -/
def KeepsRows (fmt : TextFormats F Date) (s : ReplyState F) (a : ReplyStep F) : Prop :=
  ∀ m ∈ executionsMove fmt s.nextReqId a, Lossless s.executions m

section Conserved

variable (fmt : TextFormats F Date) (texts : QueryTexts F) (account : String)

/-- A fill goes to the request that waits for it, or is broadcast. -/
theorem fills_step (s : ReplyState F) (a : ReplyStep F) :
    ((step fmt texts account s a).fills : Multiset (Fill F)) +
        (executionsMove fmt s.nextReqId a).elim 0 (accepted s.executions) =
      s.fills + ((arrives fmt a).toList : Multiset (Fill F)) := by
  cases a with
  | frame fields =>
      simp only [step, executionsMove, arrives]
      cases parseReply fmt fields with
      | error e => rfl
      | ok msg =>
          cases msg with
          | execution e =>
              simp only [route]
              cases executionToFill e with
              | none => split_ifs <;> rfl
              | some fill =>
                  by_cases hid : 0 < e.reqId
                  · cases hrequest : s.executions.requests.lookup e.reqId with
                    | none =>
                        simp only [hid, hrequest, Option.isSome_none, Bool.false_eq_true, and_false, if_false,
                          if_true, Option.map_some, Option.elim_some, accepted, add_zero]
                        rfl
                    | some request => simp [hid, accepted, hrequest]
                  · simp only [hid, false_and, if_false, Option.elim_none, add_zero]
                    rfl
          | error e => rfl
          | executionEnd id => rfl
          | contractDetails cd => rfl
          | contractDetailsEnd id => rfl
          | other => rfl
  | fillsCall c => cases c <;> rfl
  | _ => rfl

theorem known_step_le (s : ReplyState F) (a : ReplyStep F) :
    known (step fmt texts account s a) ≤ known s + ((arrives fmt a).toList : Multiset (Fill F)) := by
  have hfills := fills_step fmt texts account s a
  unfold known
  rw [executions_step]
  cases hmove : executionsMove fmt s.nextReqId a with
  | none =>
      rw [hmove, Option.elim_none, add_zero] at hfills
      rw [Option.elim_none, hfills]
      exact (add_right_comm _ _ _).le
  | some m =>
      rw [hmove, Option.elim_some] at hfills
      rw [Option.elim_some]
      have hheld := held_step_le s.executions m
      calc _ ≤ _ + (held s.executions + accepted s.executions m) := add_le_add_right hheld _
        _ = (_ + accepted s.executions m) + held s.executions := by abel
        _ = _ := by rw [hfills]; abel

theorem known_step_eq {s : ReplyState F} {a : ReplyStep F} (hapart : Apart s.executions)
    (hhands : EmptyHands s.executions)
    (hfresh : ∀ m ∈ executionsMove fmt s.nextReqId a, Unshared s.executions m)
    (hkeeps : KeepsRows fmt s a) :
    known (step fmt texts account s a) = known s + ((arrives fmt a).toList : Multiset (Fill F)) := by
  have hfills := fills_step fmt texts account s a
  unfold known
  rw [executions_step]
  cases hmove : executionsMove fmt s.nextReqId a with
  | none =>
      rw [hmove, Option.elim_none, add_zero] at hfills
      rw [Option.elim_none, hfills]
      exact add_right_comm _ _ _
  | some m =>
      rw [hmove, Option.elim_some] at hfills
      rw [Option.elim_some, held_step_eq hapart hhands (hfresh m hmove) (hkeeps m hmove)]
      calc _ = (_ + accepted s.executions m) + held s.executions := by abel
        _ = _ := by rw [hfills]; abel

/-! ## Runs -/

theorem executions_run_idle (schedule : List (ReplyStep F)) :
    (run (step fmt texts account) idle schedule).executions =
      run Office.step .empty (movesOf (executionsDesk fmt).move advance 1000 schedule) :=
  executions_run fmt texts account idle schedule

theorem arrived_append (front : List (ReplyStep F)) (a : ReplyStep F) :
    arrived fmt (front ++ [a]) = arrived fmt front + ((arrives fmt a).toList : Multiset (Fill F)) := by
  unfold arrived
  rw [List.filterMap_append, ← Multiset.coe_add]
  cases h : arrives fmt a <;> simp [h]

/-- The move of the last step finds its key unused. -/
theorem unshared_last {front : List (ReplyStep F)} {a : ReplyStep F}
    (hids : taken (front ++ [a]) < 2 ^ 31 - 1000) :
    let s := run (step fmt texts account) idle front
    ∀ m ∈ executionsMove fmt s.nextReqId a, Unshared s.executions m := by
  intro s m hm
  have hmeets := desk_meets (executionsDesk fmt) hids
  have hnext : s.nextReqId = front.foldl advance 1000 := nextReqId_run fmt texts account idle front
  rw [movesOf_append] at hmeets
  have hlast : movesOf (executionsDesk fmt).move advance (front.foldl advance 1000) [a] = [m] := by
    rw [hnext] at hm
    show (executionsMove fmt (front.foldl advance 1000) a).toList ++ [] = [m]
    rw [hm]
    rfl
  rw [hlast] at hmeets
  have hat := hmeets.at_step
  rwa [← executions_run_idle fmt texts account front] at hat

/-- **Executions are conserved.** What is known of them is never more than came in.  It is all that
came in if no execution request that has rows ends without its call. -/
theorem executions_conserved (schedule : List (ReplyStep F)) :
    let s := run (step fmt texts account) idle schedule
    known s ≤ arrived fmt schedule ∧
      (taken schedule < 2 ^ 31 - 1000 →
        Meets (step fmt texts account) (KeepsRows fmt) idle schedule →
          known s = arrived fmt schedule) := by
  induction schedule using List.reverseRecOn with
  | nil => exact ⟨le_refl _, fun _ _ => rfl⟩
  | append_singleton front a ih =>
      simp only [run_append, run_cons, run_nil, arrived_append] at ih ⊢
      obtain ⟨hle, heq⟩ := ih
      refine ⟨(known_step_le fmt texts account _ a).trans (add_le_add_left hle _),
        fun hids hmeets => ?_⟩
      have hfront : taken front < 2 ^ 31 - 1000 := by
        rw [taken_append] at hids
        omega
      have hchronicle := desk_chronicle (executionsDesk fmt) hfront
      rw [← executions_run_idle fmt texts account front] at hchronicle
      rw [known_step_eq fmt texts account hchronicle.apart hchronicle.emptyHands
        (unshared_last fmt texts account hids) hmeets.at_step, heq hfront hmeets.front]

/-- The id of a call that has returned is behind the next one. -/
theorem key_lt_next {schedule : List (ReplyStep F)} (hids : taken schedule < 2 ^ 31 - 1000) :
    let s := run (step fmt texts account) idle schedule
    ∀ r ∈ s.executions.returned, r.key < s.nextReqId := by
  intro s r hr
  have hreturned := executions_returned fmt texts account schedule hids r hr
  obtain ⟨before, after, hsplit, hkey, -⟩ := hreturned
  have hnext : s.nextReqId = schedule.foldl advance 1000 :=
    nextReqId_run fmt texts account idle schedule
  have hbound : 0 + taken schedule < 2 ^ 31 - 1000 := by omega
  have hfold : schedule.foldl advance (1000 : Int) = 1000 + taken schedule := by
    simpa using foldl_advance hbound
  have hmore : taken before < taken schedule := by
    have hone : taken ((executionsDesk fmt).begins r.ask :: after) = 1 + taken after := by
      simp [taken, (executionsDesk fmt).takesId_begins, Nat.add_comm]
    rw [hsplit, taken_append, hone]
    omega
  rw [hkey, hnext, hfold]
  omega

theorem done_run {schedule : List (ReplyStep F)} (hids : taken schedule < 2 ^ 31 - 1000) :
    Done (run (step fmt texts account) idle schedule).executions := by
  induction schedule using List.reverseRecOn with
  | nil => exact fun r hr => (by cases hr)
  | append_singleton front a ih =>
      have hfront : taken front < 2 ^ 31 - 1000 := by
        rw [taken_append] at hids
        omega
      have hchronicle := desk_chronicle (executionsDesk fmt) hfront
      rw [← executions_run_idle fmt texts account front] at hchronicle
      have hlt := key_lt_next fmt texts account hfront
      simp only [run_append, run_cons, run_nil]
      rw [executions_step]
      cases hmove : executionsMove fmt _ a with
      | none => exact ih hfront
      | some m =>
          refine (ih hfront).step hchronicle fun key ask hm r hr => ?_
          subst hm
          rw [(begin_of_executionsMove hmove).2]
          exact (hlt r hr).ne

/-- **Late rows are taken for live fills.** After a call has returned, by its answer or by its
deadline, an execution under its id is broadcast, whatever happened since. -/
theorem late_rows_broadcast (schedule : List (ReplyStep F)) (hids : taken schedule < 2 ^ 31 - 1000)
    {r : Return Int Nat (Fill F) BrokerError}
    (hr : r ∈ (run (step fmt texts account) idle schedule).executions.returned)
    (hsent : ∀ e, r.outcome ≠ .unsent e) {fields : Frame} {e : ExecutionMsg F} {fill : Fill F}
    (hfields : parseReply fmt fields = .ok (.execution e)) (hfill : executionToFill e = some fill)
    (hlate : e.reqId = r.key) :
    let s := run (step fmt texts account) idle schedule
    step fmt texts account s (.frame fields) = { s with fills := s.fills ++ [fill] } := by
  intro s
  have hnone : s.executions.requests.lookup e.reqId = none := by
    rw [hlate]
    exact Option.map_eq_none_iff.mp (done_run fmt texts account hids r hr hsent)
  simp only [step, hfields, route, hfill, hnone]
  simp

/-- A query of the fills that gives up before its row comes. -/
def fillsTooLate : List (ReplyStep ℚ) :=
  [ .recentFills 0
  , .fillsCall (.sent 0 none)
  , .fillsCall (.elapse 0)
  , .fillsCall (.withdraw 0) ]

def lateRow : Frame :=
  ["11", "1000", "7", "5", "HG", "FUT", "20261228", "0", "", "25000", "COMEX", "USD", "HGZ6", "HG",
    "e1", "t", "DU1", "COMEX", "BOT", "2", "4", "1", "0"]

def lateExecution : ExecutionMsg ℚ where
  reqId := 1000
  contract := ⟨5, "HG", "FUT", "20261228", 0, "", "25000", "COMEX", "", "USD", "HGZ6", "HG"⟩
  execId := "e1"
  side := "BOT"
  shares := 2
  price := 4

theorem late_row_broadcast :
    (step plainFormats noTexts "DU1" (run (step plainFormats noTexts "DU1") idle fillsTooLate)
      (.frame lateRow)).fills = [⟨"e1", 5, .buy, 2, 4⟩] := by
  have hparse : parseReply plainFormats lateRow = .ok (.execution lateExecution) := rfl
  have hfill : executionToFill lateExecution = some ⟨"e1", 5, .buy, 2, 4⟩ := rfl
  have hlate := late_rows_broadcast plainFormats noTexts "DU1" fillsTooLate (by decide)
    (r := ⟨0, 1000, 0, .timedOut⟩) (List.mem_singleton.mpr rfl) (fun _ he => by cases he) hparse
    hfill rfl
  exact congrArg ReplyState.fills hlate

end Conserved

end Corsair.Ports.ExecutionRows
