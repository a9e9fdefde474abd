import Corsair.Ports.KillRuntime
import Corsair.Ports.TraderHalt

/-!
# Kills on the wire: the broker's slot and the trader's map

The broker holds one kill; the trader holds a map of sources.  Two messages
fill the map: `publish_kill`, at every firing site, and the `hello` that
answers a `welcome`, with the kill in the slot.  The first names the source by
`debugLower`, the second by `label`.  Nothing empties it: the broker clears
its slot on a reconnect and at the rollover, and publishes no `resume`.

The state is the broker's, the welcomes that it has not dispatched, the
dispatcher between its snapshot of the slot and its `publish`, the events that
are published and not processed, and the trader's.  A restarted trader has an
empty map, keeps what it has not drained, and writes a welcome.  A staleness
pass is one step, as none of its own touches the map.  The ring drops no frame
and the server is up.

## Main results

* `cleared_kill_stays_at_trader` — after a disconnect kill and the reconnect,
  or a trader restart over a published trader-silent kill, the two disagree.
* `kills_agree` — where no kill is cleared and no source is announced under
  both of two names, a settled trader is halted exactly if the broker is
  killed, and the source of the kill has exactly one key.
-/

namespace Corsair.Ports.KillAgreement

open Corsair.Verified
open Corsair.Verified.Runs
open Corsair.Ports.Kill
open Corsair.Ports.RiskMonitor
open Corsair.Ports.KillRuntime
open Corsair.Ports.TraderState
open Corsair.Ports.DecideOnTick
open Corsair.Ports.Trader
open Corsair.Ports.TraderHalt

variable {F : Type}

/-- The broker and the trader. -/
structure AgreementState (F : Type) where
  broker : KillState F
  welcomes : Nat
  hello : Option (List KillSource)
  queue : List (Event F)
  trader : SharedState F

/-- A step of either side. -/
inductive AgreementStep (F : Type)
  | broker (st : KillStep F)
  | takeWelcome
  | publishHello
  | publishOther (ev : Event F)
  | process (clock : Clock F) (accepts : Nat → Bool)
  | staleness (clock : Clock F) (accepts : Nat → Bool)
  | restart (drained burstWindowNs : Nat)

/-- `publish_kill`. -/
def killMsg (ev : KillEvent) : KillMsg :=
  { source := some ev.source.debugLower, reason := some ev.reason }

/-- `publish_hello`. -/
def helloMsg (config : HelloConfig F) (sources : List KillSource) : HelloMsg F :=
  { config := some config, activeKills := sources.map KillSource.label }

/-- The names under which an event announces kills. -/
def announces : Event F → List String
  | .kill msg => (KillMsg.usableSource msg).toList
  | .hello msg => msg.activeKills
  | _ => []

/-- The key is in the map, or in an event on its way there. -/
def Announced (s : AgreementState F) (key : String) : Prop :=
  key ∈ s.trader.kills ∨ ∃ ev ∈ s.queue, key ∈ announces ev

instance (s : AgreementState F) (key : String) : Decidable (Announced s key) := by
  unfold Announced
  infer_instance

/-- The key names the source. -/
def Denotes (key : String) (source : KillSource) : Prop :=
  key = source.debugLower ∨ key = source.label

/-- Every event is processed, no task stands between its fire and its
publish, and every welcome is answered. -/
structure Settled (s : AgreementState F) : Prop where
  processed : s.queue = []
  published : ∀ task ev, s.broker.tasks task ≠ .publishing ev
  answered : s.welcomes = 0
  sent : s.hello = none

theorem announces_killMsg (ev : KillEvent) :
    announces (F := F) (.kill (killMsg ev)) = [ev.source.debugLower] := by
  simp [announces, killMsg, KillMsg.usableSource, KillSource.debugLower_ne_empty]

variable [F64 F] (pricing : Pricing F) (placesOrders : Bool) (config : HelloConfig F)

/-- One step. -/
def step (s : AgreementState F) : AgreementStep F → AgreementState F
  | .broker st =>
      { s with
        broker := KillRuntime.step s.broker st
        queue := s.queue ++ (publishes s.broker st).toList.map fun ev => .kill (killMsg ev) }
  | .takeWelcome =>
      if s.hello = none ∧ 0 < s.welcomes then
        { s with
          welcomes := s.welcomes - 1
          hello := some (s.broker.risk.killed.toList.map KillEvent.source) }
      else s
  | .publishHello =>
      match s.hello with
      | none => s
      | some sources =>
          { s with hello := none, queue := s.queue ++ [.hello (helloMsg config sources)] }
  | .publishOther ev =>
      if touchesKills ev then s else { s with queue := s.queue ++ [ev] }
  | .process clock accepts =>
      match s.queue with
      | [] => s
      | ev :: rest =>
          { s with
            queue := rest
            trader := (processEvent pricing placesOrders s.trader clock accepts ev).2 }
  | .staleness clock accepts =>
      { s with
        trader :=
          if placesOrders then (stalenessCheck pricing s.trader clock accepts).2 else s.trader }
  | .restart drained burstWindowNs =>
      { s with
        welcomes := s.welcomes + 1
        queue := s.queue.drop drained
        trader := SharedState.new burstWindowNs }

/-- Nothing has happened. -/
def start (cfg : RiskConfig F) (burstWindowNs : Nat) : AgreementState F :=
  { broker := KillRuntime.start cfg
    welcomes := 0
    hello := none
    queue := []
    trader := SharedState.new burstWindowNs }

/-- A source with two names is not announced under `other`. -/
def OneName (s : AgreementState F) (source : KillSource) (other : String) : Prop :=
  source.label = source.debugLower ∨ ¬ Announced s other

/-- No kill is cleared, and no source is announced under its second name while
the first is in the map or on its way there. -/
def Faithful (s : AgreementState F) : AgreementStep F → Prop
  | .broker st =>
      clears s.broker st = false ∧
        ∀ ev ∈ publishes s.broker st, OneName s ev.source ev.source.label
  | .publishHello =>
      ∀ sources ∈ s.hello, ∀ source ∈ sources, OneName s source source.debugLower
  | _ => True

instance (s : AgreementState F) (st : AgreementStep F) : Decidable (Faithful s st) := by
  cases st <;> unfold Faithful <;> unfold OneName <;> infer_instance

/-! ## What each step announces -/

omit [F64 F] in
theorem announces_of_quiet {ev : Event F} (hquiet : touchesKills ev = false) :
    announces ev = [] := by
  cases ev with
  | kill msg => cases hquiet
  | hello msg => cases hquiet
  | _ => rfl

/-- An event other than a resume adds the names it announces, and no other. -/
theorem mem_processEvent (s : SharedState F) (clock : Clock F) (accepts : Nat → Bool)
    (ev : Event F) (hresume : ∀ msg, ev ≠ .resume msg) (key : String) :
    key ∈ (processEvent pricing placesOrders s clock accepts ev).2.kills ↔
      key ∈ announces ev ∨ key ∈ s.kills := by
  by_cases hquiet : touchesKills ev = false
  · have hsame := sameKills_processEvent pricing placesOrders s clock accepts hquiet
    rw [hsame.1, announces_of_quiet hquiet]
    simp
  · cases ev with
    | kill msg =>
        show key ∈ (onKill s msg).kills ↔ _
        rw [mem_onKill]
        simp [announces]
    | hello msg =>
        show key ∈ (onHello s msg).kills ↔ _
        rw [mem_onHello]
        rfl
    | resume msg => exact absurd rfl (hresume msg)
    | _ => exact absurd rfl hquiet

theorem killsCounted_processEvent {s : SharedState F} (hs : s.KillsCounted) (clock : Clock F)
    (accepts : Nat → Bool) (ev : Event F) :
    (processEvent pricing placesOrders s clock accepts ev).2.KillsCounted := by
  by_cases hquiet : touchesKills ev = false
  · exact killsCounted_of_sameKills hs
      (sameKills_processEvent pricing placesOrders s clock accepts hquiet)
  · cases ev with
    | kill msg => exact killsCounted_onKill hs msg
    | hello msg => exact killsCounted_onHello hs msg
    | resume msg => exact killsCounted_onResume hs msg
    | _ => exact absurd rfl hquiet

omit [F64 F] in
theorem announced_iff_of_append {s s' : AgreementState F} {evs : List (Event F)}
    (hqueue : s'.queue = s.queue ++ evs) (htrader : s'.trader.kills = s.trader.kills)
    (key : String) :
    Announced s' key ↔ Announced s key ∨ ∃ ev ∈ evs, key ∈ announces ev := by
  unfold Announced
  rw [htrader, hqueue]
  simp only [List.mem_append]
  constructor
  · rintro (hmap | ⟨ev, hold | hnew, hkey⟩)
    · exact .inl (.inl hmap)
    · exact .inl (.inr ⟨ev, hold, hkey⟩)
    · exact .inr ⟨ev, hnew, hkey⟩
  · rintro ((hmap | ⟨ev, hold, hkey⟩) | ⟨ev, hnew, hkey⟩)
    · exact .inl hmap
    · exact .inr ⟨ev, .inl hold, hkey⟩
    · exact .inr ⟨ev, .inr hnew, hkey⟩

theorem announced_broker (s : AgreementState F) (st : KillStep F) (key : String) :
    Announced (step pricing placesOrders config s (.broker st)) key ↔
      Announced s key ∨ ∃ ev ∈ publishes s.broker st, key = ev.source.debugLower := by
  have hqueue : (step pricing placesOrders config s (.broker st)).queue =
      s.queue ++ (publishes s.broker st).toList.map fun ev => .kill (killMsg ev) := rfl
  rw [announced_iff_of_append hqueue rfl]
  simp [announces_killMsg]

theorem announced_publishHello (s : AgreementState F) (key : String) :
    Announced (step pricing placesOrders config s .publishHello) key ↔
      Announced s key ∨ ∃ sources ∈ s.hello, ∃ source ∈ sources, key = source.label := by
  cases hhello : s.hello with
  | none => simp [step, hhello]
  | some sources =>
      have hqueue : (step pricing placesOrders config s .publishHello).queue =
          s.queue ++ [.hello (helloMsg config sources)] := by
        simp only [step, hhello]
      rw [announced_iff_of_append hqueue (by simp only [step, hhello])]
      simp [announces, helloMsg, eq_comm]

theorem announced_process {s : AgreementState F} (hresume : ∀ msg, Event.resume msg ∉ s.queue)
    (clock : Clock F) (accepts : Nat → Bool) (key : String) :
    Announced (step pricing placesOrders config s (.process clock accepts)) key ↔
      Announced s key := by
  cases hqueue : s.queue with
  | nil => simp only [step, hqueue]
  | cons ev rest =>
      simp only [step, hqueue]
      have hev : ∀ msg, ev ≠ .resume msg := by
        rintro msg rfl
        exact hresume msg (by simp [hqueue])
      unfold Announced
      rw [mem_processEvent pricing placesOrders _ _ _ _ hev, hqueue]
      simp only [List.mem_cons, exists_eq_or_imp]
      tauto

/-! ## The invariant -/

/-- The trader will learn of the source, or has. -/
def Due (s : AgreementState F) (source : KillSource) : Prop :=
  (∃ task ev, s.broker.tasks task = .publishing ev ∧ ev.source = source) ∨
    (∃ key, Denotes key source ∧ Announced s key) ∨
    0 < s.welcomes ∨ ∃ sources ∈ s.hello, source ∈ sources

/-- **The agreement invariant.** -/
structure AgreeInv (s : AgreementState F) : Prop where
  counted : s.trader.KillsCounted
  noResume : ∀ msg, Event.resume msg ∉ s.queue
  told : ∀ ev, s.broker.risk.killed = some ev → Due s ev.source
  quiet : s.broker.risk.killed = none →
    (∀ task ev, s.broker.tasks task ≠ .publishing ev) ∧ (∀ key, ¬ Announced s key) ∧
      ∀ sources ∈ s.hello, sources = []
  oneName : ∀ source : KillSource, Announced s source.label → Announced s source.debugLower →
    source.label = source.debugLower

omit [F64 F] in
theorem Due.mono {s s' : AgreementState F} {source : KillSource} (h : Due s source)
    (htasks : ∀ task ev, s.broker.tasks task = .publishing ev →
      s'.broker.tasks task = .publishing ev ∨ Announced s' ev.source.debugLower)
    (hannounced : ∀ key, Announced s key → Announced s' key)
    (hwelcomes : s'.welcomes = s.welcomes) (hhello : s'.hello = s.hello) : Due s' source := by
  rcases h with ⟨task, ev, htask, rfl⟩ | ⟨key, hkey, hann⟩ | hwelcome | ⟨sources, hsources, hmem⟩
  · rcases htasks task ev htask with hstill | hnow
    · exact .inl ⟨task, ev, hstill, rfl⟩
    · exact .inr (.inl ⟨_, .inl rfl, hnow⟩)
  · exact .inr (.inl ⟨key, hkey, hannounced key hann⟩)
  · exact .inr (.inr (.inl (by omega)))
  · exact .inr (.inr (.inr ⟨sources, hhello ▸ hsources, hmem⟩))

omit [F64 F] in
/-- Events that pass from the queue to the map, or announce nothing, keep the
invariant. -/
theorem AgreeInv.frame {s : AgreementState F} (h : AgreeInv s) {queue : List (Event F)}
    {trader : SharedState F}
    (hannounced : ∀ key, Announced { s with queue := queue, trader := trader } key ↔
      Announced s key)
    (hcounted : trader.KillsCounted) (hresume : ∀ msg, Event.resume msg ∉ queue) :
    AgreeInv { s with queue := queue, trader := trader } where
  counted := hcounted
  noResume := hresume
  told := by
    intro ev hslot
    apply (h.told ev hslot).mono _ (fun key => (hannounced key).mpr) rfl rfl
    intro task ev htask
    exact .inl htask
  quiet := by
    intro hslot
    rcases h.quiet hslot with ⟨hidle, hnothing, hsources⟩
    exact ⟨hidle, fun key hkey => hnothing key ((hannounced key).mp hkey), hsources⟩
  oneName := by
    intro source hlabel hdebug
    exact h.oneName source ((hannounced _).mp hlabel) ((hannounced _).mp hdebug)

/-- **Broker step.** -/
theorem AgreeInv.broker {s : AgreementState F} (h : AgreeInv s) {st : KillStep F}
    (hfaithful : Faithful s (.broker st)) :
    AgreeInv (step pricing placesOrders config s (.broker st)) := by
  have hann := announced_broker pricing placesOrders config s st
  have hresume : ∀ msg, Event.resume msg ∉
      (step pricing placesOrders config s (.broker st)).queue := by
    intro msg hmem
    rcases List.mem_append.mp hmem with hold | hnew
    · exact h.noResume msg hold
    · obtain ⟨ev, -, hev⟩ := List.mem_map.mp hnew
      cases hev
  have hsilent (hnone : publishes s.broker st = none) (key : String) :
      Announced (step pricing placesOrders config s (.broker st)) key ↔ Announced s key := by
    rw [hann key, hnone]
    simp
  cases step_publishStep s.broker st with
  | quiet hnone hslot htasks =>
      have hsame := hsilent hnone
      constructor
      · exact h.counted
      · exact hresume
      · intro ev hkilled
        apply (h.told ev (hslot.symm.trans hkilled)).mono _ (fun key => (hsame key).mpr) rfl rfl
        intro task ev htask
        exact .inl ((htasks task ev).mpr htask)
      · intro hkilled
        rcases h.quiet (hslot.symm.trans hkilled) with ⟨hidle, hnothing, hsources⟩
        refine ⟨?_, ?_, hsources⟩
        · intro task ev htask
          exact hidle task ev ((htasks task ev).mp htask)
        · intro key hkey
          exact hnothing key ((hsame key).mp hkey)
      · intro source hlabel hdebug
        exact h.oneName source ((hsame _).mp hlabel) ((hsame _).mp hdebug)
  | fired task ev hnone hslot htask hother =>
      have hsame := hsilent hnone
      constructor
      · exact h.counted
      · exact hresume
      · intro ev' hkilled
        obtain rfl : ev = ev' := Option.some_inj.mp (hslot.symm.trans hkilled)
        exact .inl ⟨task, ev, htask, rfl⟩
      · intro hkilled
        exact absurd (hslot.symm.trans hkilled) (Option.some_ne_none ev)
      · intro source hlabel hdebug
        exact h.oneName source ((hsame _).mp hlabel) ((hsame _).mp hdebug)
  | published task ev hsome hslot htask hother =>
      have hadds : ∀ key, Announced (step pricing placesOrders config s (.broker st)) key ↔
          Announced s key ∨ key = ev.source.debugLower := by
        intro key
        rw [hann key, hsome]
        simp
      constructor
      · exact h.counted
      · exact hresume
      · intro ev' hkilled
        apply (h.told ev' (hslot.symm.trans hkilled)).mono _
          (fun key hkey => (hadds key).mpr (.inl hkey)) rfl rfl
        intro task' ev'' htask'
        by_cases hself : task' = task
        · subst hself
          rw [htask] at htask'
          cases htask'
          exact .inr ((hadds _).mpr (.inr rfl))
        · exact .inl ((hother task' ev'').mpr ⟨hself, htask'⟩)
      · intro hkilled
        exact absurd htask ((h.quiet (hslot.symm.trans hkilled)).1 task ev)
      · intro source hlabel hdebug
        have hfresh : OneName s ev.source ev.source.label := hfaithful.2 ev hsome
        rcases (hadds _).mp hlabel with hlabel | hlabel
        · rcases (hadds _).mp hdebug with hdebug | hdebug
          · exact h.oneName source hlabel hdebug
          · obtain rfl := KillSource.debugLower_injective hdebug
            exact hfresh.resolve_right (not_not_intro hlabel)
        · obtain rfl := KillSource.eq_of_label_eq_debugLower hlabel
          exact hlabel
  | cleared hnone hclears =>
      rw [hfaithful.1] at hclears
      cases hclears

theorem AgreeInv.takeWelcome {s : AgreementState F} (h : AgreeInv s) :
    AgreeInv (step pricing placesOrders config s .takeWelcome) := by
  simp only [step]
  split
  · constructor
    · exact h.counted
    · exact h.noResume
    · intro ev hkilled
      have hkilled' : s.broker.risk.killed = some ev := hkilled
      exact .inr (.inr (.inr ⟨_, rfl, by simp [hkilled']⟩))
    · intro hkilled
      have hkilled' : s.broker.risk.killed = none := hkilled
      rcases h.quiet hkilled' with ⟨hidle, hnothing, -⟩
      refine ⟨hidle, hnothing, ?_⟩
      intro sources hsources
      obtain rfl := Option.some_inj.mp hsources
      simp [hkilled']
    · exact h.oneName
  · exact h

/-- **Hello step.** -/
theorem AgreeInv.publishHello {s : AgreementState F} (h : AgreeInv s)
    (hfaithful : Faithful s .publishHello) :
    AgreeInv (step pricing placesOrders config s .publishHello) := by
  cases hhello : s.hello with
  | none =>
      simp only [step, hhello]
      exact h
  | some sources =>
      have hadds : ∀ key, Announced (step pricing placesOrders config s .publishHello) key ↔
          Announced s key ∨ ∃ source ∈ sources, key = source.label := by
        intro key
        rw [announced_publishHello, hhello]
        simp
      have hbroker : (step pricing placesOrders config s .publishHello).broker = s.broker := by
        simp only [step, hhello]
      constructor
      · simp only [step, hhello]
        exact h.counted
      · simp only [step, hhello]
        intro msg hmem
        rcases List.mem_append.mp hmem with hold | hnew
        · exact h.noResume msg hold
        · cases List.mem_singleton.mp hnew
      · intro ev hkilled
        rw [hbroker] at hkilled
        rcases h.told ev hkilled with htask | ⟨key, hkey, hann⟩ | hwelcome | ⟨sources', hs, hmem⟩
        · exact .inl (by rw [hbroker]; exact htask)
        · exact .inr (.inl ⟨key, hkey, (hadds key).mpr (.inl hann)⟩)
        · exact .inr (.inr (.inl (by simpa only [step, hhello] using hwelcome)))
        · obtain rfl : sources = sources' := Option.some_inj.mp (hhello.symm.trans hs)
          exact .inr (.inl ⟨_, .inr rfl, (hadds _).mpr (.inr ⟨ev.source, hmem, rfl⟩)⟩)
      · intro hkilled
        rw [hbroker] at hkilled ⊢
        rcases h.quiet hkilled with ⟨hidle, hnothing, hsources⟩
        have hempty : sources = [] := hsources sources hhello
        refine ⟨hidle, ?_, by simp only [step, hhello]; simp⟩
        intro key hkey
        rcases (hadds key).mp hkey with hold | ⟨source, hmem, -⟩
        · exact hnothing key hold
        · rw [hempty] at hmem
          cases hmem
      · intro source hlabel hdebug
        rcases (hadds _).mp hdebug with hdebug | ⟨other, hother, hdebug⟩
        · rcases (hadds _).mp hlabel with hlabel | ⟨other, hother, hlabel⟩
          · exact h.oneName source hlabel hdebug
          · obtain rfl := KillSource.label_injective hlabel
            exact (hfaithful sources hhello source hother).resolve_right (not_not_intro hdebug)
        · obtain rfl := KillSource.eq_of_label_eq_debugLower hdebug.symm
          exact hdebug.symm

theorem AgreeInv.restart {s : AgreementState F} (h : AgreeInv s) (drained burstWindowNs : Nat) :
    AgreeInv (step pricing placesOrders config s (.restart drained burstWindowNs)) := by
  have hfewer : ∀ key,
      Announced (step pricing placesOrders config s (.restart drained burstWindowNs)) key →
        Announced s key := by
    rintro key (hmap | ⟨ev, hev, hkey⟩)
    · exact absurd hmap (by simp [step, SharedState.new])
    · exact .inr ⟨ev, List.mem_of_mem_drop hev, hkey⟩
  constructor
  · rfl
  · intro msg hmem
    exact h.noResume msg (List.mem_of_mem_drop hmem)
  · intro ev _
    exact .inr (.inr (.inl (Nat.succ_pos _)))
  · intro hkilled
    rcases h.quiet hkilled with ⟨hidle, hnothing, hsources⟩
    exact ⟨hidle, fun key hkey => hnothing key (hfewer key hkey), hsources⟩
  · intro source hlabel hdebug
    exact h.oneName source (hfewer _ hlabel) (hfewer _ hdebug)

theorem start_agreeInv (cfg : RiskConfig F) (burstWindowNs : Nat) :
    AgreeInv (start cfg burstWindowNs) := by
  constructor
  · rfl
  · intro msg hmem
    cases hmem
  · intro ev hkilled
    cases hkilled
  · intro _
    refine ⟨?_, ?_, ?_⟩
    · intro task ev htask
      cases htask
    · rintro key (hmap | ⟨ev, hev, -⟩)
      · exact absurd hmap (by simp [start, SharedState.new])
      · cases hev
    · intro sources hsources
      cases hsources
  · rintro source (hmap | ⟨ev, hev, -⟩)
    · exact absurd hmap (by simp [start, SharedState.new])
    · cases hev

/-- **Step lemma.** -/
theorem AgreeInv.step {s : AgreementState F} (h : AgreeInv s) {st : AgreementStep F}
    (hfaithful : Faithful s st) : AgreeInv (step pricing placesOrders config s st) := by
  cases st with
  | broker st => exact h.broker pricing placesOrders config hfaithful
  | takeWelcome => exact h.takeWelcome pricing placesOrders config
  | publishHello => exact h.publishHello pricing placesOrders config hfaithful
  | publishOther ev =>
      simp only [KillAgreement.step]
      split
      · exact h
      · rename_i htouches
        have hnames : announces ev = [] := announces_of_quiet (by simpa using htouches)
        apply h.frame _ h.counted
        · intro msg hmem
          rcases List.mem_append.mp hmem with hold | hnew
          · exact h.noResume msg hold
          · cases List.mem_singleton.mp hnew
            exact htouches rfl
        · intro key
          have hqueue : { s with queue := s.queue ++ [ev] }.queue = s.queue ++ [ev] := rfl
          rw [announced_iff_of_append hqueue rfl]
          simp [hnames]
  | process clock accepts =>
      have hann := announced_process pricing placesOrders config h.noResume clock accepts
      cases hqueue : s.queue with
      | nil =>
          simp only [KillAgreement.step, hqueue]
          exact h
      | cons ev rest =>
          simp only [KillAgreement.step, hqueue] at hann ⊢
          apply h.frame hann
          · exact killsCounted_processEvent pricing placesOrders h.counted clock accepts ev
          · intro msg hmem
            exact h.noResume msg (by rw [hqueue]; exact List.mem_cons_of_mem ev hmem)
  | staleness clock accepts =>
      have hsame : SameKills s.trader (if placesOrders then
          (stalenessCheck pricing s.trader clock accepts).2 else s.trader) := by
        split
        · exact sameKills_stalenessCheck ..
        · exact .refl _
      apply h.frame _ (killsCounted_of_sameKills h.counted hsame) h.noResume
      intro key
      unfold Announced
      rw [hsame.1]
  | restart drained burstWindowNs =>
      exact h.restart pricing placesOrders config drained burstWindowNs

omit [F64 F] in
/-- A settled pair that satisfies the invariant agrees. -/
theorem AgreeInv.agree {s : AgreementState F} (h : AgreeInv s) (hsettled : Settled s) :
    (0 < s.trader.killsCount ↔ s.broker.risk.isKilled = true) ∧
      ∀ ev, s.broker.risk.killed = some ev →
        ∃! key, key ∈ s.trader.kills ∧ Denotes key ev.source := by
  have hmap : ∀ key, Announced s key ↔ key ∈ s.trader.kills := by
    intro key
    simp [Announced, hsettled.processed]
  have hkey : ∀ ev, s.broker.risk.killed = some ev →
      ∃ key, Denotes key ev.source ∧ key ∈ s.trader.kills := by
    intro ev hkilled
    rcases h.told ev hkilled with ⟨task, ev', htask, -⟩ | ⟨key, hkey, hann⟩ | hwelcome | ⟨_, hs, -⟩
    · exact absurd htask (hsettled.published task ev')
    · exact ⟨key, hkey, (hmap key).mp hann⟩
    · rw [hsettled.answered] at hwelcome
      cases hwelcome
    · rw [hsettled.sent] at hs
      cases hs
  constructor
  · constructor
    · intro hpos
      cases hslot : s.broker.risk.killed with
      | some ev => simp [isKilled, hslot]
      | none =>
          have hnone : ∀ key, key ∉ s.trader.kills := by
            intro key hmem
            exact (h.quiet hslot).2.1 key ((hmap key).mpr hmem)
          rw [h.counted] at hpos
          obtain ⟨key, hmem⟩ := List.exists_mem_of_length_pos hpos
          exact absurd (AList.mem_keys.mpr hmem) (hnone key)
    · intro hkilled
      obtain ⟨ev, hslot⟩ := Option.isSome_iff_exists.mp hkilled
      obtain ⟨key, -, hmem⟩ := hkey ev hslot
      exact h.counted.pos hmem
  · intro ev hkilled
    obtain ⟨key, hdenotes, hmem⟩ := hkey ev hkilled
    refine ⟨key, ⟨hmem, hdenotes⟩, ?_⟩
    rintro key' ⟨hmem', hdenotes'⟩
    rcases hdenotes with rfl | rfl <;> rcases hdenotes' with rfl | rfl
    · rfl
    · exact h.oneName _ ((hmap _).mpr hmem') ((hmap _).mpr hmem)
    · exact (h.oneName _ ((hmap _).mpr hmem) ((hmap _).mpr hmem')).symm
    · rfl

/-- **Kill agreement.** In every run of both sides in which no kill is cleared
and no source is announced under both of two names: a settled trader has a
positive count exactly if the broker is killed, and the source of the kill has
exactly one key of the trader's map. -/
theorem kills_agree (cfg : RiskConfig F) (burstWindowNs : Nat) (steps : List (AgreementStep F))
    (hfaithful : Meets (step pricing placesOrders config) Faithful (start cfg burstWindowNs) steps)
    (hsettled : Settled (run (step pricing placesOrders config) (start cfg burstWindowNs) steps)) :
    let s := run (step pricing placesOrders config) (start cfg burstWindowNs) steps
    (0 < s.trader.killsCount ↔ s.broker.risk.isKilled = true) ∧
      ∀ ev, s.broker.risk.killed = some ev →
        ∃! key, key ∈ s.trader.kills ∧ Denotes key ev.source := by
  intro s
  have hinv : AgreeInv s :=
    run_invariant_of_meets AgreeInv
      (fun _ _ hst h => h.step pricing placesOrders config hst)
      (start_agreeInv cfg burstWindowNs) steps hfaithful
  exact hinv.agree hsettled

/-! ## Two disagreements, and an agreement -/

def noConfig : HelloConfig ℚ :=
  { minEdgeTicks := none
    tickSize := none
    deltaCeiling := none
    marginCeilingPct := none
    contractMultiplier := none
    gtdLifetimeS := none
    gtdRefreshLeadS := none
    deadBandTicks := none
    skipIfSpreadOverEdgeMul := none
    thetaKill := none
    vegaKill := none }

def stepRat : AgreementState ℚ → AgreementStep ℚ → AgreementState ℚ :=
  step atTheMoney true noConfig

def processNext : AgreementStep ℚ := .process (quarterYear 1) fun _ => true

/-- The connection is lost, which the trader hears of, and comes back. -/
def lostAndBack : List (AgreementStep ℚ) :=
  [.broker (.brokerError (.connectionLost "reset by peer") 1), .broker (.advance .errors),
    .broker (.advance .errors), processNext, .broker (.advance .errors), .broker .connected]

/-- A trader-silent kill is published, and then the trader restarts. -/
def silentAndBack : List (AgreementStep ℚ) :=
  [.broker (.watchdogTick 5000000000 1 6000000000), .broker (.advance .watchdog),
    .broker (.advance .watchdog), .broker (.advance .watchdog), .restart 0 0, .takeWelcome,
    .publishHello, processNext, processNext]

/-- **The two sides disagree.** After the reconnect the trader is halted and the
broker is not killed; after the restart the source of the kill has two keys. -/
theorem cleared_kill_stays_at_trader :
    (Settled (run stepRat (start ⟨1, 1, none⟩ 0) lostAndBack) ∧
      0 < (run stepRat (start ⟨1, 1, none⟩ 0) lostAndBack).trader.killsCount ∧
      (run stepRat (start ⟨1, 1, none⟩ 0) lostAndBack).broker.risk.isKilled = false) ∧
    Settled (run stepRat (start ⟨1, 1, none⟩ 0) silentAndBack) ∧
      (run stepRat (start ⟨1, 1, none⟩ 0) silentAndBack).broker.risk.killed.map KillEvent.source =
        some .traderSilent ∧
      KillSource.traderSilent.debugLower ≠ KillSource.traderSilent.label ∧
      KillSource.traderSilent.debugLower ∈
        (run stepRat (start ⟨1, 1, none⟩ 0) silentAndBack).trader.kills ∧
      KillSource.traderSilent.label ∈
        (run stepRat (start ⟨1, 1, none⟩ 0) silentAndBack).trader.kills := by
  refine ⟨⟨⟨by decide, ?_, by decide, by decide⟩, by decide, by decide⟩,
    ⟨by decide, ?_, by decide, by decide⟩, by decide, by decide, by decide, by decide⟩
  · intro task ev htask
    cases task <;> cases htask
  · intro task ev htask
    cases task <;> cases htask

/-- A trader that restarts after it has heard of the kill: the hello brings the
kill back under its other name. -/
def heardAndBack : List (AgreementStep ℚ) :=
  [.broker (.watchdogTick 5000000000 1 6000000000), .broker (.advance .watchdog),
    .broker (.advance .watchdog), .broker (.advance .watchdog), processNext, .restart 0 0,
    .takeWelcome, .publishHello, processNext]

theorem kills_agree_after_restart :
    (0 < (run stepRat (start ⟨1, 1, none⟩ 0) heardAndBack).trader.killsCount ↔
        (run stepRat (start ⟨1, 1, none⟩ 0) heardAndBack).broker.risk.isKilled = true) ∧
      ∀ ev, (run stepRat (start ⟨1, 1, none⟩ 0) heardAndBack).broker.risk.killed = some ev →
        ∃! key, key ∈ (run stepRat (start ⟨1, 1, none⟩ 0) heardAndBack).trader.kills ∧
          Denotes key ev.source := by
  apply kills_agree atTheMoney true noConfig ⟨1, 1, none⟩ 0 heardAndBack
  · show Meets stepRat Faithful (start ⟨1, 1, none⟩ 0) heardAndBack
    decide
  · refine ⟨by decide, ?_, by decide, by decide⟩
    intro task ev htask
    cases task <;> cases htask

end Corsair.Ports.KillAgreement
