import Mathlib.Data.List.Basic

/-!
# `corsair_risk::kill` and `corsair_risk::sentinel`: kill sources

A kill has a source, and the source decides what clears it: a reconnect
clears a disconnect, the session rollover clears a daily halt and an induced
daily halt, and every other source is sticky.

A source has two renderings.  `label` is the telemetry name.  `debugLower` is
the lower-cased `{:?}` form, which the runtime uses on the wire.  They differ
on every source of two words and on every induced source
(`label_eq_debugLower_iff`).
-/

namespace Corsair.Ports.Kill

/-- `KillType`. -/
inductive KillType
  | halt
  | flatten
  | hedgeFlat
  deriving DecidableEq, Repr

/-- The derived `{:?}` of `KillType`. -/
def KillType.debug : KillType → String
  | .halt => "Halt"
  | .flatten => "Flatten"
  | .hedgeFlat => "HedgeFlat"

/-- `KillSource`. -/
inductive KillSource
  | risk
  | disconnect
  | dailyHalt
  | operational
  | traderSilent
  | induced (inner : KillSource)
  deriving DecidableEq, Repr

namespace KillSource

/-- `is_daily_clearable`. -/
def isDailyClearable : KillSource → Bool
  | .dailyHalt => true
  | .induced .dailyHalt => true
  | _ => false

/-- `is_disconnect`. -/
def isDisconnect : KillSource → Bool
  | .disconnect => true
  | _ => false

/-- `label`. -/
def label : KillSource → String
  | .risk => "risk"
  | .disconnect => "disconnect"
  | .dailyHalt => "daily_halt"
  | .operational => "operational"
  | .traderSilent => "trader_silent"
  | .induced inner => "induced_" ++ inner.label

/-- The derived `{:?}` of `KillSource`; a box is transparent in it. -/
def debug : KillSource → String
  | .risk => "Risk"
  | .disconnect => "Disconnect"
  | .dailyHalt => "DailyHalt"
  | .operational => "Operational"
  | .traderSilent => "TraderSilent"
  | .induced inner => "Induced(" ++ inner.debug ++ ")"

/-- `format!("{:?}", source).to_lowercase()`; the names are ASCII. -/
def debugLower (source : KillSource) : String :=
  String.ofList (source.debug.toList.map Char.toLower)

/-- The sources that nothing but a restart clears. -/
def Sticky : KillSource → Prop
  | .risk => True
  | .operational => True
  | .traderSilent => True
  | .induced inner => inner ≠ .dailyHalt
  | .disconnect => False
  | .dailyHalt => False

instance : DecidablePred Sticky := by
  intro source
  cases source <;> unfold Sticky <;> infer_instance

/-- A source is sticky exactly if neither clear operation accepts it. -/
theorem sticky_iff (source : KillSource) :
    source.Sticky ↔ source.isDisconnect = false ∧ source.isDailyClearable = false := by
  cases source with
  | induced inner => cases inner <;> simp [Sticky, isDisconnect, isDailyClearable]
  | risk => simp [Sticky, isDisconnect, isDailyClearable]
  | disconnect => simp [Sticky, isDisconnect]
  | dailyHalt => simp [Sticky, isDailyClearable]
  | operational => simp [Sticky, isDisconnect, isDailyClearable]
  | traderSilent => simp [Sticky, isDisconnect, isDailyClearable]

/-! ### The two renderings

An induced source starts with `induced_` in one and with `induced(` in the
other, and no other source starts with `induced`. -/

theorem label_toList_induced (inner : KillSource) :
    (induced inner).label.toList = "induced_".toList ++ inner.label.toList := by
  rw [label, String.toList_append]

theorem debugLower_toList_induced (inner : KillSource) :
    (induced inner).debugLower.toList =
      "induced(".toList ++ (inner.debugLower.toList ++ [')']) := by
  simp [debugLower, debug, String.toList_append]

theorem label_injective {a b : KillSource} (h : a.label = b.label) : a = b := by
  replace h := congrArg String.toList h
  induction a generalizing b with
  | induced a ih =>
      cases b with
      | induced b =>
          rw [label_toList_induced, label_toList_induced] at h
          rw [ih (List.append_cancel_left h)]
      | _ => simp [label] at h
  | _ => cases b <;> simp [label] at h ⊢

theorem debugLower_injective {a b : KillSource} (h : a.debugLower = b.debugLower) : a = b := by
  replace h := congrArg String.toList h
  induction a generalizing b with
  | induced a ih =>
      cases b with
      | induced b =>
          rw [debugLower_toList_induced, debugLower_toList_induced] at h
          rw [ih (List.append_cancel_right (List.append_cancel_left h))]
      | _ => simp [debugLower, debug] at h
  | _ => cases b <;> simp [debugLower, debug] at h ⊢

/-- The renderings of two sources are never confused. -/
theorem eq_of_label_eq_debugLower {a b : KillSource} (h : a.label = b.debugLower) : a = b := by
  replace h := congrArg String.toList h
  cases a with
  | induced a =>
      cases b with
      | induced b =>
          rw [label_toList_induced, debugLower_toList_induced] at h
          simp at h
      | _ => simp [label, debugLower, debug] at h
  | _ => cases b <;> simp [label, debugLower, debug] at h ⊢

/-- The sources that have one rendering. -/
theorem label_eq_debugLower_iff (source : KillSource) :
    source.label = source.debugLower ↔
      source = .risk ∨ source = .disconnect ∨ source = .operational := by
  cases source with
  | induced inner =>
      have hne : (induced inner).label ≠ (induced inner).debugLower := by
        intro h
        replace h := congrArg String.toList h
        rw [label_toList_induced, debugLower_toList_induced] at h
        simp at h
      simp [hne]
  | _ => decide

theorem debugLower_ne_empty (source : KillSource) : source.debugLower ≠ "" := by
  intro h
  replace h := congrArg String.toList h
  cases source <;> simp [debugLower, debug] at h

end KillSource

/-- `KillEvent`. -/
structure KillEvent where
  reason : String
  source : KillSource
  killType : KillType
  timestampNs : Nat
  deriving DecidableEq, Repr

/-! ## Induced sentinels -/

/-- `InducedSentinel`. -/
structure InducedSentinel where
  key : String
  filename : String
  killType : KillType
  innerSource : KillSource
  deriving DecidableEq, Repr

/-- `INDUCED_SENTINELS`. -/
def inducedSentinels : List InducedSentinel :=
  [ { key := "daily_pnl"
      filename := "corsair_induce_daily_pnl"
      killType := .halt
      innerSource := .dailyHalt },
    { key := "margin"
      filename := "corsair_induce_margin"
      killType := .halt
      innerSource := .risk } ]

/-- A sentinel file as one check finds it. -/
inductive SentinelFile
  | absent
  | removable
  | stuck
  deriving DecidableEq, Repr

/-- `to_ascii_uppercase`. -/
def toAsciiUppercase (s : String) : String :=
  String.ofList (s.toList.map Char.toUpper)

/-- The event of a sentinel found in `dir`. -/
def inducedEvent (dir : String) (now : Nat) (s : InducedSentinel) : KillEvent :=
  { reason :=
      "INDUCED TEST [" ++ toAsciiUppercase s.key ++ "]: sentinel " ++ dir ++ "/" ++
        s.filename ++ " — exercising kill_type=" ++ s.killType.debug ++
        " source=\"" ++ s.innerSource.label ++ "\""
    source := .induced s.innerSource
    killType := s.killType
    timestampNs := now }

/-- `check_induced_sentinels`: the first sentinel that is present fires if its
file can be removed; if it cannot, nothing fires and the others are not
looked at. -/
def checkInducedSentinels (dir : String) (files : String → SentinelFile) (now : Nat) :
    Option KillEvent :=
  go inducedSentinels
where
  go : List InducedSentinel → Option KillEvent
    | [] => none
    | s :: rest =>
        match files s.filename with
        | .absent => go rest
        | .stuck => none
        | .removable => some (inducedEvent dir now s)

end Corsair.Ports.Kill
