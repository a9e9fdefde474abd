import Mathlib.Data.Finset.Card
import Mathlib.Data.List.Induction
import Corsair.Ports.Trader

/-!
# The trader's halt

A kill that the trader has processed, and not resumed, should keep it from
writing orders.  The tick path has a gate for it; the staleness loop has none,
neither where it collects the amends of a pass nor where it writes them.

`KillInForce` reads the halt off the history of steps.  The state keeps it as
a map of sources and a count; `HaltInv` ties the three together.

## Main results

* `staleness_pass_amends_while_killed` — a kill is in force and a staleness
  pass writes a `modify_order`.
* `halted_trader_writes_no_quote` — where no pass collects over a drift-stale
  order while a kill is in force, and no kill is processed while a pass has an
  amend to write, no step of a run writes a `place_order` or a `modify_order`
  while a kill is in force.
* `kills_count_mirrors_map` — after every run the count is the number of sources in the
  map, a resume takes it down by one just where it has a source to remove, and a source in
  the map keeps the tick path from deciding anything.
-/

namespace Corsair.Ports.TraderHalt

open Corsair.Verified
open Corsair.Verified.Runs
open Corsair.Ports.TraderState
open Corsair.Ports.DecideOnTick
open Corsair.Ports.Trader

variable {F : Type}

/-! ## Kills in the history -/

/-- Whether the kill of `source` is in force after a step. -/
def inForce (source : String) (active : Bool) : TraderStep F → Bool
  | .event (.kill msg) _ _ => active || KillMsg.usableSource msg == some source
  | .event (.hello msg) _ _ => active || msg.activeKills.contains source
  | .event (.resume msg) _ _ => active && KillMsg.usableSource msg != some source
  | _ => active

/-- A kill of `source` was processed and no resume of it since. -/
def KillInForce (source : String) (history : List (TraderStep F)) : Prop :=
  history.foldl (inForce source) false = true

instance (source : String) (history : List (TraderStep F)) :
    Decidable (KillInForce source history) := by
  unfold KillInForce
  infer_instance

/-! ## The kill map is touched by nothing else -/

/-- The kill map and its count are the same. -/
def SameKills (s s' : SharedState F) : Prop :=
  s'.kills = s.kills ∧ s'.killsCount = s.killsCount

theorem SameKills.refl (s : SharedState F) : SameKills s s := ⟨rfl, rfl⟩

theorem killsCounted_of_sameKills {s s' : SharedState F}
    (h : s.KillsCounted) (hsame : SameKills s s') : s'.KillsCounted := by
  unfold SharedState.KillsCounted
  rw [hsame.1, hsame.2]
  exact h

theorem sameKills_of_tradeFrame {s s' : SharedState F} (h : TradeFrame s s') :
    SameKills s s' := by
  obtain ⟨_, _, _, _, _, _, rfl⟩ := h
  exact ⟨rfl, rfl⟩

theorem sameKills_onVolSurface (s : SharedState F) (vs : VolSurfaceMsg F) :
    SameKills s (onVolSurface s vs) := by
  unfold onVolSurface
  simp only
  split <;> exact ⟨rfl, rfl⟩

variable [F64 F]

/-- The events that set or clear kills. -/
def touchesKills : Event F → Bool
  | .kill _ => true
  | .resume _ => true
  | .hello _ => true
  | _ => false

theorem sameKills_processEvent (pricing : Pricing F) (placesOrders : Bool) (s : SharedState F)
    (clock : Clock F) (accepts : Nat → Bool) {ev : Event F} (hquiet : touchesKills ev = false) :
    SameKills s (processEvent pricing placesOrders s clock accepts ev).2 := by
  cases ev with
  | undecodable => exact ⟨rfl, rfl⟩
  | unknown => exact ⟨rfl, rfl⟩
  | tick msg => exact sameKills_of_tradeFrame (tradeFrame_onTick ..)
  | underlyingTick price => exact ⟨rfl, rfl⟩
  | volSurface msg => exact sameKills_onVolSurface ..
  | riskState msg => exact ⟨rfl, rfl⟩
  | placeAck msg => exact sameKills_of_tradeFrame (tradeFrame_onPlaceAck ..)
  | orderStatus msg => exact sameKills_of_tradeFrame (tradeFrame_onOrderStatus ..)
  | weekendPause paused => exact ⟨rfl, rfl⟩
  | kill msg => cases hquiet
  | resume msg => cases hquiet
  | hello msg => cases hquiet

theorem sameKills_stalenessCheck (pricing : Pricing F) (s : SharedState F) (clock : Clock F)
    (accepts : Nat → Bool) : SameKills s (stalenessCheck pricing s clock accepts).2 :=
  sameKills_of_tradeFrame (tradeFrame_stalenessLoop ..)

theorem sameKills_event (pricing : Pricing F) (placesOrders : Bool) (s : TraderSys F)
    (clock : Clock F) (accepts : Nat → Bool) {ev : Event F} (hquiet : touchesKills ev = false) :
    SameKills s.shared (nextState pricing placesOrders s (.event ev clock accepts)).shared :=
  sameKills_processEvent pricing placesOrders s.shared clock accepts hquiet

theorem sameKills_collect (pricing : Pricing F) (placesOrders : Bool) (s : TraderSys F)
    (clock : Clock F) :
    SameKills s.shared (nextState pricing placesOrders s (.collect clock)).shared :=
  sameKills_of_tradeFrame (tradeFrame_collect ..)

theorem sameKills_act (pricing : Pricing F) (placesOrders : Bool) (s : TraderSys F)
    (accepted : Bool) :
    SameKills s.shared (nextState pricing placesOrders s (.act accepted)).shared :=
  sameKills_of_tradeFrame (tradeFrame_act ..)

/-! ## The frames of a staleness pass -/

/-- The action amends an order. -/
def Action.Amends : Action F → Prop
  | .modify .. => True
  | .cancel .. => False

instance : DecidablePred (Action.Amends (F := F))
  | .modify .. => isTrue trivial
  | .cancel .. => isFalse id

/-- The staleness loop is inside a pass that has an amend left. -/
def AmendDue (s : TraderSys F) : Prop :=
  ∃ action ∈ (s.pass.map Pass.actions).getD [], Action.Amends action

instance (s : TraderSys F) : Decidable (AmendDue s) := by
  unfold AmendDue
  infer_instance

/-- An acknowledged order whose price is past its theo by more than the
threshold, and that an amend would move. -/
def DriftStale (pricing : Pricing F) (s : SharedState F) (clock : Clock F)
    (key : OurOrderKey) (order : OurOrder F) : Prop :=
  order.orderId.isSome ∧
    ((restingTheo pricing s clock key).any fun theo =>
      drifted s.scalars key order theo && (refreshPrice s.scalars key order theo).isSome) = true

instance (pricing : Pricing F) (s : SharedState F) (clock : Clock F) (key : OurOrderKey)
    (order : OurOrder F) : Decidable (DriftStale pricing s clock key order) := by
  unfold DriftStale
  infer_instance

/-- Only a drift-stale order is amended. -/
theorem driftStale_of_amends {pricing : Pricing F} {s : SharedState F} {clock : Clock F}
    {key : OurOrderKey} {order : OurOrder F} {action : Action F}
    (haction : stalenessAction pricing s clock key order = some action)
    (hamends : Action.Amends action) : DriftStale pricing s clock key order := by
  unfold stalenessAction at haction
  split at haction
  · rename_i orderId theo hid htheo
    split at haction
    · rename_i hdrift
      have hprice : (refreshPrice s.scalars key order theo).isSome := by
        cases hrefresh : refreshPrice s.scalars key order theo with
        | none => simp [hrefresh] at haction
        | some price => rfl
      exact ⟨by simp [hid], by simp [htheo, hdrift, hprice]⟩
    · split at haction
      · split at haction
        · cases haction
          exact absurd hamends id
        · cases haction
      · cases haction
  · cases haction

omit [F64 F] in
/-- An action that is no amend writes no quote. -/
theorem applyAction_no_quote (clock : Clock F) (gtd : Nat) (s : SharedState F)
    (accepted : Bool) {action : Action F} (hcancel : ¬ Action.Amends action) :
    ∀ command ∈ (applyAction clock gtd s accepted action).1, ¬ command.Quotes := by
  intro command hcommand
  cases action with
  | modify orderId key newPrice => exact absurd trivial hcancel
  | cancel orderId key =>
      simp only [applyAction] at hcommand
      split at hcommand
      · rw [List.mem_singleton.mp hcommand]
        exact id
      · cases hcommand

/-! ## The kill map along a run -/

/-- **The halt invariant.** The sources in force are keys of the kill map, and
the count is the size of the map. -/
structure HaltInv (history : List (TraderStep F)) (s : SharedState F) : Prop where
  inMap : ∀ source, KillInForce source history → source ∈ s.kills
  counted : s.KillsCounted

omit [F64 F] in
theorem killInForce_append {source : String} {history : List (TraderStep F)}
    {st : TraderStep F} :
    KillInForce source (history ++ [st]) ↔
      inForce source (history.foldl (inForce source) false) st = true := by
  unfold KillInForce
  rw [List.foldl_append, List.foldl_cons, List.foldl_nil]

omit [F64 F] in
/-- A step that leaves the kill map alone, and that is no kill, resume or
hello. -/
theorem HaltInv.of_sameKills {history : List (TraderStep F)} {s s' : SharedState F}
    {st : TraderStep F} (h : HaltInv history s) (hsame : SameKills s s')
    (hquiet : ∀ source active, inForce source active st = active) :
    HaltInv (history ++ [st]) s' := by
  constructor
  · intro source hforce
    rw [killInForce_append, hquiet] at hforce
    rw [hsame.1]
    exact h.inMap source hforce
  · exact killsCounted_of_sameKills h.counted hsame

/-- **Step lemma.** -/
theorem HaltInv.step {history : List (TraderStep F)} {s : TraderSys F}
    (h : HaltInv history s.shared) (pricing : Pricing F) (placesOrders : Bool)
    (st : TraderStep F) :
    HaltInv (history ++ [st]) (nextState pricing placesOrders s st).shared := by
  match st with
  | .collect clock =>
      exact h.of_sameKills (sameKills_collect ..) fun _ _ => rfl
  | .act accepted =>
      exact h.of_sameKills (sameKills_act ..) fun _ _ => rfl
  | .event (.kill msg) clock accepts =>
      constructor
      · intro source hforce
        rw [killInForce_append] at hforce
        apply mem_onKill.mpr
        rcases Bool.or_eq_true_iff.mp hforce with hold | hnew
        · exact .inr (h.inMap source hold)
        · exact .inl (eq_of_beq hnew)
      · exact killsCounted_onKill h.counted msg
  | .event (.resume msg) clock accepts =>
      constructor
      · intro source hforce
        rw [killInForce_append] at hforce
        have hboth := (Bool.and_eq_true ..).mp hforce
        exact mem_onResume.mpr ⟨bne_iff_ne.mp hboth.2, h.inMap source hboth.1⟩
      · exact killsCounted_onResume h.counted msg
  | .event (.hello msg) clock accepts =>
      constructor
      · intro source hforce
        rw [killInForce_append] at hforce
        apply mem_onHello.mpr
        rcases Bool.or_eq_true_iff.mp hforce with hold | hnew
        · exact .inr (h.inMap source hold)
        · exact .inl (List.contains_iff_mem.mp hnew)
      · exact killsCounted_onHello h.counted msg
  | .event .undecodable clock accepts | .event .unknown clock accepts
  | .event (.tick _) clock accepts | .event (.underlyingTick _) clock accepts
  | .event (.volSurface _) clock accepts | .event (.riskState _) clock accepts
  | .event (.placeAck _) clock accepts | .event (.orderStatus _) clock accepts
  | .event (.weekendPause _) clock accepts =>
      exact h.of_sameKills (sameKills_event _ _ _ _ _ rfl) fun _ _ => rfl

/-- **Run lemma.** -/
theorem HaltInv.run (pricing : Pricing F) (placesOrders : Bool) (burstWindowNs : Nat)
    (history : List (TraderStep F)) :
    HaltInv history
      (Runs.run (nextState pricing placesOrders) (traderStart burstWindowNs) history).shared := by
  induction history using List.reverseRecOn with
  | nil =>
      constructor
      · intro source hforce
        cases hforce
      · rfl
  | append_singleton history st ih =>
      rw [run_append]
      exact ih.step pricing placesOrders st

/-! ## The halt -/

/-- The event may put a kill in force. -/
def raisesKill : Event F → Bool
  | .kill msg => (KillMsg.usableSource msg).isSome
  | .hello msg => !msg.activeKills.isEmpty
  | _ => false

/-- A pass does not collect over a drift-stale order while a kill is in force,
and no kill is processed while a pass has an amend left. -/
def CalmWhileKilled (pricing : Pricing F) (placesOrders : Bool) (s : TraderSys F) :
    TraderStep F → Prop
  | .event ev _ _ => raisesKill ev = true → ¬ AmendDue s
  | .collect clock =>
      (placesOrders && s.pass.isNone) = true → 0 < s.shared.killsCount →
        ∀ e ∈ s.shared.ourOrders.entries, ¬ DriftStale pricing s.shared clock e.1 e.2
  | .act _ => True

instance (pricing : Pricing F) (placesOrders : Bool) (s : TraderSys F) (st : TraderStep F) :
    Decidable (CalmWhileKilled pricing placesOrders s st) := by
  cases st <;> unfold CalmWhileKilled <;> infer_instance

/-- An event that puts no kill in force does not raise the count. -/
theorem killsCount_processEvent_le (pricing : Pricing F) (placesOrders : Bool)
    (s : SharedState F) (clock : Clock F) (accepts : Nat → Bool) {ev : Event F}
    (hraises : raisesKill ev = false) :
    (processEvent pricing placesOrders s clock accepts ev).2.killsCount ≤ s.killsCount := by
  match ev with
  | .kill msg =>
      have hnone : KillMsg.usableSource msg = none := by simpa [raisesKill] using hraises
      show (onKill s msg).killsCount ≤ s.killsCount
      simp [onKill, hnone, SharedState.bump]
  | .resume msg =>
      show (onResume s msg).killsCount ≤ s.killsCount
      unfold onResume SharedState.removeKill
      split
      · exact le_rfl
      · split
        · exact Nat.sub_le ..
        · exact le_rfl
  | .hello msg =>
      have hnil : msg.activeKills = [] := by simpa [raisesKill] using hraises
      show (onHello s msg).killsCount ≤ s.killsCount
      unfold onHello
      rw [hnil]
      split <;> exact le_rfl
  | .undecodable | .unknown | .tick _ | .underlyingTick _ | .volSurface _ | .riskState _
  | .placeAck _ | .orderStatus _ | .weekendPause _ =>
      exact (sameKills_processEvent _ _ _ _ _ rfl).2.le

/-- **The pass invariant.** With a kill in force, no amend is left. -/
def PassInv (s : TraderSys F) : Prop :=
  0 < s.shared.killsCount → ¬ AmendDue s

/-- **Step lemma.** -/
theorem PassInv.step {s : TraderSys F} (h : PassInv s) (pricing : Pricing F)
    (placesOrders : Bool) {st : TraderStep F} (hcalm : CalmWhileKilled pricing placesOrders s st) :
    PassInv (nextState pricing placesOrders s st) := by
  intro hkilled
  cases st with
  | event ev clock accepts =>
      -- the event does not touch the pass, so an amend left is left from before
      show ¬ AmendDue s
      cases hraises : raisesKill ev with
      | true => exact hcalm hraises
      | false =>
          have hle := killsCount_processEvent_le pricing placesOrders s.shared clock accepts hraises
          exact h (hkilled.trans_le hle)
  | collect clock =>
      have hbefore : 0 < s.shared.killsCount := by
        rw [(sameKills_collect pricing placesOrders s clock).2] at hkilled
        exact hkilled
      simp only [nextState, traderStep]
      split
      · rename_i hbegins
        rintro ⟨action, haction, hamends⟩
        obtain ⟨e, he, hsome⟩ := List.mem_filterMap.mp haction
        exact hcalm hbegins hbefore e he (driftStale_of_amends hsome hamends)
      · exact h hbefore
  | act accepted =>
      have hbefore : 0 < s.shared.killsCount := by
        rw [(sameKills_act pricing placesOrders s accepted).2] at hkilled
        exact hkilled
      have hquiet := h hbefore
      rintro ⟨action, haction, hamends⟩
      simp only [nextState, traderStep] at haction
      split at haction
      · exact hquiet ⟨action, haction, hamends⟩
      · cases haction
      · rename_i clock gtd first rest hpass
        refine hquiet ⟨action, ?_, hamends⟩
        rw [hpass]
        exact List.mem_cons_of_mem first haction

/-- With a kill in force and no amend left, no step writes a quote. -/
theorem traderStep_no_quote (pricing : Pricing F) (placesOrders : Bool) (s : TraderSys F)
    (st : TraderStep F) (hkilled : 0 < s.shared.killsCount) (hquiet : ¬ AmendDue s) :
    ∀ command ∈ (traderStep pricing placesOrders s st).1, ¬ command.Quotes := by
  cases st with
  | event ev clock accepts =>
      have hnone : (processEvent pricing placesOrders s.shared clock accepts ev).1 = [] := by
        cases ev with
        | tick msg =>
            show (onTick pricing placesOrders s.shared clock accepts msg).1 = []
            unfold onTick
            split
            · rfl
            · rename_i right _
              have hgate : 0 < (mergeTick s.shared msg right).2.killsCount := hkilled
              simp only [decideOnTick_killed _ _ _ _ _ _ _ hgate, List.isEmpty_nil,
                Bool.true_or, if_true]
        | _ => rfl
      intro command hcommand
      have hmem : command ∈
          (processEvent pricing placesOrders s.shared clock accepts ev).1 := hcommand
      rw [hnone] at hmem
      cases hmem
  | collect clock =>
      intro command hcommand
      simp only [traderStep] at hcommand
      split at hcommand <;> cases hcommand
  | act accepted =>
      intro command hcommand
      simp only [traderStep] at hcommand
      split at hcommand
      · cases hcommand
      · cases hcommand
      · rename_i clock gtd action rest hpass
        have hcancel : ¬ Action.Amends action := by
          intro hamends
          apply hquiet
          refine ⟨action, ?_, hamends⟩
          rw [hpass]
          exact List.mem_cons_self
        exact applyAction_no_quote clock gtd s.shared accepted hcancel command hcommand

/-! A halted trader that amends: a bid of 0.5 rests on a call worth 0.3587 when
a risk kill arrives. -/

/-- The formulas at the money, for forward 6, a quarter of a year and total
variance 0.0225, to four digits. -/
def atTheMoney : Pricing ℚ :=
  { sviImpliedVol := fun _ _ _ _ _ _ _ _ => 3 / 10
    sabrImpliedVol := fun _ _ _ _ _ _ _ => 3 / 10
    black76Greeks := fun _ _ _ _ _ _ =>
      { price := 3587 / 10000, delta := 5299 / 10000, theta := -20 / 10000, vega := 119 / 10000 } }

def quarterYear (ns : Nat) : Clock ℚ :=
  { monoNs := ns, wallNs := ns, timeToExpiry := fun _ => some (1 / 4) }

def overpricedBid : List (TraderStep ℚ) :=
  [.event (.underlyingTick 6) (quarterYear 1) fun _ => true,
    .event
      (.volSurface
        { expiry := "20260526"
          side := "BOTH"
          forward := 6
          params :=
            { model := "svi"
              a := some (225 / 10000)
              b := some 0
              rho := some 0
              m := some 0
              sigma := some (1 / 10)
              alpha := none
              beta := none
              nu := none }
          tsNs := some 1
          calibratedMinK := none
          calibratedMaxK := none
          spotAtFit := some 6 })
      (quarterYear 2) fun _ => true,
    .event
      (.placeAck
        { orderId := 7
          strike := 6
          expiry := "20260526"
          right := "C"
          side := "BUY"
          price := 1 / 2 })
      (quarterYear 3) fun _ => true]

def riskKill : TraderStep ℚ :=
  .event (.kill { source := some "risk", reason := none }) (quarterYear 4) fun _ => true

/-- One pass of the staleness loop over one resting order. -/
def onePass (ns : Nat) : List (TraderStep ℚ) :=
  [.collect (quarterYear ns), .act true, .act true]

theorem staleness_pass_amends_while_killed :
    KillInForce "risk" (overpricedBid ++ [riskKill]) ∧
      ∃ command ∈ commandsOf atTheMoney true
          (run (nextState atTheMoney true) (traderStart 0) (overpricedBid ++ [riskKill]))
          (onePass 5),
        command.Quotes := by
  decide +kernel

/-- A kill that comes between the two loops of a pass does not stop the amend
either. -/
example :
    let history := overpricedBid ++ [.collect (quarterYear 4), riskKill]
    KillInForce "risk" history ∧
      ∃ command ∈ (traderStep atTheMoney true
          (run (nextState atTheMoney true) (traderStart 0) history) (.act true)).1,
        command.Quotes := by
  decide +kernel

/-- **The trader's halt.** In a run in which no pass collects over a
drift-stale order while a kill is in force, and no kill is processed while a
pass has an amend left, a step taken after a kill was processed, and before it
is resumed, writes neither a place nor a modify. -/
theorem halted_trader_writes_no_quote (pricing : Pricing F) (placesOrders : Bool)
    (burstWindowNs : Nat) (history : List (TraderStep F))
    (hcalm : Meets (nextState pricing placesOrders) (CalmWhileKilled pricing placesOrders)
      (traderStart burstWindowNs) history)
    (front : List (TraderStep F)) (st : TraderStep F) (back : List (TraderStep F))
    (hsplit : history = front ++ st :: back) (source : String)
    (hforce : KillInForce source front) :
    ∀ command ∈ (traderStep pricing placesOrders
        (run (nextState pricing placesOrders) (traderStart burstWindowNs) front) st).1,
      ¬ command.Quotes := by
  subst hsplit
  have hinv := HaltInv.run pricing placesOrders burstWindowNs front
  have hkilled := hinv.counted.pos (hinv.inMap source hforce)
  have hpass : PassInv (run (nextState pricing placesOrders) (traderStart burstWindowNs) front) :=
    run_invariant_of_meets PassInv (fun _ _ hstep h => h.step pricing placesOrders hstep)
      (fun hcount => absurd hcount (lt_irrefl 0)) front hcalm.front
  exact traderStep_no_quote pricing placesOrders _ st hkilled (hpass hkilled)

/-- A kill that finds the bid already amended. -/
theorem halted_trader_writes_no_quote_after_amend :
    KillInForce "risk" (overpricedBid ++ onePass 4 ++ [riskKill, .collect (quarterYear 5)]) ∧
      ∀ command ∈ (traderStep atTheMoney true
          (run (nextState atTheMoney true) (traderStart 0)
            (overpricedBid ++ onePass 4 ++ [riskKill, .collect (quarterYear 5)]))
          (.act true)).1,
        ¬ command.Quotes :=
  ⟨by decide +kernel,
    halted_trader_writes_no_quote atTheMoney true 0
      (overpricedBid ++ onePass 4 ++ [riskKill, .collect (quarterYear 5)] ++ [.act true])
      (by decide +kernel) _ _ [] rfl "risk" (by decide +kernel)⟩

/-! ## The count as the gate -/

omit [F64 F] in
/-- A source that is removed is counted down, from at least one. -/
theorem killsCount_onResume {s : SharedState F} (h : s.KillsCounted) {msg : KillMsg}
    {source : String} (hsource : KillMsg.usableSource msg = some source)
    (hmem : source ∈ s.kills) : (onResume s msg).killsCount + 1 = s.killsCount := by
  have hpos := h.pos hmem
  unfold onResume
  rw [hsource]
  show (if (s.kills.lookup source).isSome then s.killsCount - 1 else s.killsCount) + 1 =
    s.killsCount
  rw [if_pos (AList.lookup_isSome.mpr hmem)]
  omega

omit [F64 F] in
theorem killsCount_eq_card {s : SharedState F} (h : s.KillsCounted) :
    s.killsCount = s.kills.keys.toFinset.card := by
  rw [List.toFinset_card_of_nodup s.kills.keys_nodup]
  exact h

/-- **The count mirrors the kill map.** After every run, whatever the messages, the count
is the number of distinct sources in the map; a resume of a source in the map takes it down
by one, and from no less; and while a source is in the map no tick is decided on. -/
theorem kills_count_mirrors_map (pricing : Pricing F) (placesOrders : Bool) (burstWindowNs : Nat)
    (history : List (TraderStep F)) :
    let s := (run (nextState pricing placesOrders) (traderStart burstWindowNs) history).shared
    s.killsCount = s.kills.keys.toFinset.card ∧
      (∀ msg source, KillMsg.usableSource msg = some source → source ∈ s.kills →
        (onResume s msg).killsCount + 1 = s.killsCount) ∧
      ∀ source ∈ s.kills, ∀ timeToExpiry tick right nowMono nowWall,
        decideOnTick pricing timeToExpiry s tick right nowMono nowWall = ([], s) := by
  intro s
  have hcounted : s.KillsCounted := (HaltInv.run pricing placesOrders burstWindowNs history).counted
  refine ⟨killsCount_eq_card hcounted, fun msg source => killsCount_onResume hcounted, ?_⟩
  intro source hmem timeToExpiry tick right nowMono nowWall
  exact decideOnTick_killed _ _ _ _ _ _ _ (hcounted.pos hmem)

/-- A kill, the same kill again, and one more from a hello: two sources, each of which a
resume takes off. -/
theorem kills_count_mirrors_map_after_hello :
    let hello : HelloMsg ℚ := { config := none, activeKills := ["risk", "daily_halt"] }
    let s := (run (nextState atTheMoney true) (traderStart 0)
      (overpricedBid ++ [riskKill, riskKill, .event (.hello hello) (quarterYear 5) fun _ => true,
        .event (.kill { source := some "", reason := none }) (quarterYear 6) fun _ => true])).shared
    s.killsCount = 2 ∧
      (onResume s { source := some "risk", reason := none }).killsCount + 1 = s.killsCount ∧
      ∀ timeToExpiry tick, decideOnTick atTheMoney timeToExpiry s tick 'C' 7 7 = ([], s) := by
  intro hello s
  have hmem : "risk" ∈ s.kills := by decide +kernel
  have hrun := kills_count_mirrors_map atTheMoney true 0
    (overpricedBid ++ [riskKill, riskKill, .event (.hello hello) (quarterYear 5) fun _ => true,
      .event (.kill { source := some "", reason := none }) (quarterYear 6) fun _ => true])
  refine ⟨by decide +kernel, hrun.2.1 _ "risk" rfl hmem, ?_⟩
  intro timeToExpiry tick
  exact hrun.2.2 "risk" hmem timeToExpiry tick 'C' 7 7

end Corsair.Ports.TraderHalt
