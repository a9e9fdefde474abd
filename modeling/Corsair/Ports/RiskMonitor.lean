import Corsair.Ports.Hedge
import Corsair.Ports.Kill

/-!
# `corsair_risk::monitor`: the kill slot

The monitor holds its configuration and at most one kill event.  `check` and
`check_daily_pnl_only` look at the slot before anything else, so they fire
only into an empty slot; `fire` itself overwrites; the two clear operations
act on whatever source is in the slot.

The daily P&L is computed as the code computes it, from the positions, the
market view and the hedge managers.  The greeks that `check` takes and ignores
are left out, and so is the margin warning, which only logs.

## Main results

* `checkWith_cases` — a check leaves the slot alone, or
  fills an empty slot with the event it reports.
* `clearDisconnectKill_keeps`, `clearDailyHalt_keeps` — a clear operation
  touches no kill but one of its own source.
-/

namespace Corsair.Ports.RiskMonitor

open Corsair.Verified
open Corsair.Ports.Kill
open Corsair.Ports.Portfolio
open Corsair.Ports.Hedge

/-- `RiskConfig`, as far as the kill checks read it. -/
structure RiskConfig (F : Type) where
  capital : F
  marginKillPct : F
  dailyHaltThreshold : Option F

/-- `RiskCheckOutcome`. -/
inductive RiskCheckOutcome
  | healthy
  | killed (ev : KillEvent)
  | alreadyKilled (ev : KillEvent)
  deriving DecidableEq, Repr

end Corsair.Ports.RiskMonitor

/-- `RiskMonitor`. -/
structure Corsair.Ports.RiskMonitor (F : Type) where
  cfg : RiskMonitor.RiskConfig F
  killed : Option Kill.KillEvent

namespace Corsair.Ports.RiskMonitor

open Corsair.Verified
open Corsair.Ports.Kill
open Corsair.Ports.Portfolio
open Corsair.Ports.Hedge

variable {F : Type} [F64 F]

/-- `is_killed`. -/
def isKilled (m : RiskMonitor F) : Bool := m.killed.isSome

/-- `fire`. -/
def fire (m : RiskMonitor F) (ev : KillEvent) : RiskCheckOutcome × RiskMonitor F :=
  (.killed ev, { m with killed := some ev })

/-- `clear_disconnect_kill`. -/
def clearDisconnectKill (m : RiskMonitor F) : Bool × RiskMonitor F :=
  match m.killed with
  | some ev => if ev.source.isDisconnect then (true, { m with killed := none }) else (false, m)
  | none => (false, m)

/-- `clear_daily_halt`. -/
def clearDailyHalt (m : RiskMonitor F) : Bool × RiskMonitor F :=
  match m.killed with
  | some ev =>
      if ev.source.isDailyClearable then (true, { m with killed := none }) else (false, m)
  | none => (false, m)

/-- What a check reads besides the monitor. -/
structure CheckInput (F : Type) where
  portfolio : PortfolioState F
  marginUsed : F
  market : MarketView F
  hedge : List (HedgeManager F)
  sentinelDir : String
  sentinelFiles : String → SentinelFile
  now : Nat

/-- The daily-halt event if the P&L is below the threshold; `path` is the part
of the text in which the two callers differ. -/
def dailyHaltEvent (cfg : RiskConfig F) (path : String) (inp : CheckInput F) :
    Option KillEvent :=
  match cfg.dailyHaltThreshold with
  | none => none
  | some threshold =>
      let optionsMtm := inp.portfolio.computeMtmPnl inp.market
      let (hedgeMtm, hedgeRealized) := hedgePnl inp.hedge inp.market
      let realized := inp.portfolio.realizedPnlPersisted
      let daily := realized + optionsMtm + hedgeMtm + hedgeRealized
      if F64.lt daily threshold then
        let pct := F64.abs threshold / cfg.capital * F64.lit 100 0
        some
          { reason :=
              "DAILY P&L HALT" ++ path ++ ": $" ++ F64.fixed 0 daily ++ " < $" ++
                F64.fixed 0 threshold ++ " (-" ++ F64.fixed 1 pct ++ "% cap) [opts_mtm=$" ++
                F64.fixed 0 optionsMtm ++ " hedge_mtm=$" ++ F64.fixed 0 hedgeMtm ++
                " hedge_real=$" ++ F64.fixed 0 hedgeRealized ++ " realized=$" ++
                F64.fixed 0 realized ++ "]"
            source := .dailyHalt
            killType := .halt
            timestampNs := inp.now }
      else none

/-- The margin event if the margin is above the kill level. -/
def marginEvent (cfg : RiskConfig F) (inp : CheckInput F) : Option KillEvent :=
  let marginKill := cfg.capital * cfg.marginKillPct
  if F64.gt inp.marginUsed marginKill then
    some
      { reason :=
          "MARGIN KILL: $" ++ F64.fixed 0 inp.marginUsed ++ " > $" ++ F64.fixed 0 marginKill
        source := .risk
        killType := .halt
        timestampNs := inp.now }
  else none

/-- The event that `check` fires into an empty slot: a sentinel, else the
margin, else the daily P&L. -/
def checkEvent (cfg : RiskConfig F) (inp : CheckInput F) : Option KillEvent :=
  (checkInducedSentinels inp.sentinelDir inp.sentinelFiles inp.now).or
    ((marginEvent cfg inp).or (dailyHaltEvent cfg "" inp))

/-- A check with the given trigger. -/
def checkWith (m : RiskMonitor F) (trigger : Option KillEvent) :
    RiskCheckOutcome × RiskMonitor F :=
  match m.killed with
  | some ev => (.alreadyKilled ev, m)
  | none =>
      match trigger with
      | some ev => m.fire ev
      | none => (.healthy, m)

/-- `check`. -/
def check (m : RiskMonitor F) (inp : CheckInput F) : RiskCheckOutcome × RiskMonitor F :=
  m.checkWith (checkEvent m.cfg inp)

/-- `check_daily_pnl_only`. -/
def checkDailyPnlOnly (m : RiskMonitor F) (inp : CheckInput F) :
    RiskCheckOutcome × RiskMonitor F :=
  m.checkWith (dailyHaltEvent m.cfg " (fill-path)" inp)

/-! ## What a check and a clear can do -/

omit [F64 F] in
/-- A check leaves the slot alone, or fills an empty slot with the event it
reports. -/
theorem checkWith_cases (m : RiskMonitor F) (trigger : Option KillEvent) :
    ((m.checkWith trigger).2 = m ∧ ∀ ev, (m.checkWith trigger).1 ≠ .killed ev) ∨
      ∃ ev, m.killed = none ∧ trigger = some ev ∧
        m.checkWith trigger = (.killed ev, { m with killed := some ev }) := by
  unfold checkWith
  cases hslot : m.killed with
  | some ev => exact .inl ⟨rfl, by simp⟩
  | none =>
      cases trigger with
      | none => exact .inl ⟨rfl, by simp⟩
      | some ev => exact .inr ⟨ev, rfl, rfl, rfl⟩

omit [F64 F] in
/-- A clear that finds no kill of its source leaves the monitor alone. -/
theorem clearDisconnectKill_keeps {m : RiskMonitor F}
    (hother : ∀ ev, m.killed = some ev → ev.source.isDisconnect = false) :
    m.clearDisconnectKill.2 = m := by
  unfold clearDisconnectKill
  split
  · rename_i ev hheld
    rw [if_neg (by simp [hother ev hheld])]
  · rfl

omit [F64 F] in
theorem clearDailyHalt_keeps {m : RiskMonitor F}
    (hother : ∀ ev, m.killed = some ev → ev.source.isDailyClearable = false) :
    m.clearDailyHalt.2 = m := by
  unfold clearDailyHalt
  split
  · rename_i ev hheld
    rw [if_neg (by simp [hother ev hheld])]
  · rfl

end Corsair.Ports.RiskMonitor
