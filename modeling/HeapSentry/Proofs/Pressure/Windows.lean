import HeapSentry.Proofs.Pressure.Calls
import HeapSentry.Proofs.Storage.Entries

/-!
# The time within which a version is analysed

A service may be taken down and set up again, for the same version or for another one, and its
clock may be set back.  The ledger goes on from one session to the next and keeps the launch of a
version that was recorded first, which need not be the earliest.
-/

namespace HeapSentry.Pressure

open Storage

namespace Session

variable {settings : Settings} {s : Session} {e : Event}

/-- Whether an event is a call to the session, so that the ledger stays its own. -/
def Event.IsCall : Event → Prop
  | .ledgerChanged _ => False
  | _ => True

/-- When the session was launched, if a call launches it. -/
def launchedAt? (s : Session) : Event → Option Int
  | .start primary nowMs => if (s.loop.start primary).1 then some nowMs else none
  | .foreground primary nowMs => if (s.loop.foreground primary).1 then some nowMs else none
  | _ => none

theorem ledger_handle (settings : Settings) (h : e.IsCall) : (s.handle settings e).2.ledger =
    match s.launchedAt? e with
    | some nowMs => s.ledger.recordLaunch settings.general.appVersion nowMs
    | none => s.ledger := by
  cases e with
  | start primary nowMs =>
      change (if (s.loop.start primary).1 then _ else _) = _
      rw [launchedAt?]
      cases (s.loop.start primary).1 with
      | true => rfl
      | false => rfl
  | foreground primary nowMs =>
      change (if (s.loop.foreground primary).1 then _ else _) = _
      rw [launchedAt?]
      cases (s.loop.foreground primary).1 with
      | true => rfl
      | false => rfl
  | ledgerChanged ledger => cases h
  | stop => rfl
  | background => rfl
  | poll around => rfl

/-- A session that runs was launched. -/
theorem launched_of_running (hrunning : (s.handle settings e).2.loop.phase = .running) :
    s.loop.phase = .running ∨ (s.launchedAt? e).isSome = true := by
  cases e with
  | start primary nowMs =>
      rw [loop_start, TriggerLoop.start_eq] at hrunning
      rw [launchedAt?, TriggerLoop.start_eq]
      grind
  | foreground primary nowMs =>
      rw [loop_foreground, TriggerLoop.foreground_eq, TriggerLoop.start_eq] at hrunning
      rw [launchedAt?, TriggerLoop.foreground_eq, TriggerLoop.start_eq]
      grind
  | stop =>
      rw [loop_stop, TriggerLoop.stop_eq] at hrunning
      grind
  | background =>
      rw [loop_background, TriggerLoop.background_eq] at hrunning
      grind
  | poll around =>
      rw [loop_poll, Session.poll, TriggerLoop.phase_poll] at hrunning
      grind
  | ledgerChanged ledger => exact .inl hrunning

end Session

/-- A session with the settings that it was set up with. -/
structure Service where
  settings : Settings
  session : Session := {}

namespace Service

/-- The session is called, a version was analysed, or the service is set up anew. -/
inductive Turn where
  | call (e : Session.Event) (h : e.IsCall)
  | analysed (version : String)
  | restart (settings : Settings)

def version (s : Service) : String := s.settings.general.appVersion

def after (s : Service) : Turn → Service
  | .call e _ => { s with session := (s.session.handle s.settings e).2 }
  | .analysed version => { s with session := s.session.increment version }
  | .restart settings => ⟨settings, { ledger := s.session.ledger }⟩

def run (s : Service) (turns : List Turn) : Service := turns.foldl after s

/-- When a version was launched, if a turn launches it. -/
def launch? (s : Service) (version : String) : Turn → Option Int
  | .call e _ => if s.version = version then s.session.launchedAt? e else none
  | .analysed _ | .restart _ => none

/-- When a version was launched, in the order of the launches. -/
def launchesOf (s : Service) (version : String) : List Turn → List Int
  | [] => []
  | turn :: turns => (s.launch? version turn).toList ++ (s.after turn).launchesOf version turns

/-- Whether a poll at some time would trigger a dump. -/
def TriggersAt (s : Service) (around : Surroundings) (nowMs : Int) : Prop :=
  (s.session.poll s.settings { around with nowMs }).outcome.isTrigger = true

/-- The time within which a version is analysed, in milliseconds. -/
def periodMs (s : Service) : Nat := s.settings.limits.analysisPeriodSeconds * 1000

/-- Its seconds fit into a word of 64 bits just for settings of so many days. -/
theorem toNat_periodSeconds_iff (l : Settings.Limits) :
    (UInt64.ofNat l.analysisPeriodDays * 86400).toNat = l.analysisPeriodSeconds ↔
      l.analysisPeriodDays ≤ 213503982334601 := by
  rw [UInt64.toNat_mul, UInt64.toNat_ofNat', Settings.Limits.analysisPeriodSeconds]
  change _ * 86400 % 2 ^ 64 = _ ↔ _
  omega

variable {s : Service} {turns : List Turn} {around : Surroundings} {nowMs : Int}

/-! ## What the ledger keeps -/

/-- Whether the entries of the ledger are in order and a session that runs was launched. -/
structure IsSound (s : Service) : Prop where
  sorted : s.session.ledger.IsSorted
  launched : s.session.loop.phase = .running →
    (s.session.ledger.firstLaunchMs s.version).isSome = true

theorem isSorted_after (h : s.session.ledger.IsSorted) (turn : Turn) :
    (s.after turn).session.ledger.IsSorted := by
  cases turn with
  | call e he =>
      change (s.session.handle s.settings e).2.ledger.IsSorted
      rw [Session.ledger_handle s.settings he]
      split
      · exact h.update _ _
      · exact h
  | analysed version => exact h.update version _
  | restart settings => exact h

/-- The ledger keeps the launch that was recorded first. -/
theorem firstLaunchMs_after (h : s.session.ledger.IsSorted) (turn : Turn) (version : String) :
    (s.after turn).session.ledger.firstLaunchMs version =
      (s.session.ledger.firstLaunchMs version).or ((s.launch? version turn).map epochMs) := by
  cases turn with
  | call e he =>
      change (s.session.handle s.settings e).2.ledger.firstLaunchMs version = _
      rw [Session.ledger_handle s.settings he, launch?]
      cases s.session.launchedAt? e with
      | none => simp
      | some nowMs =>
          change ((s.session.ledger.recordLaunch s.version nowMs).entry version).firstLaunchMs = _
          rw [Ledger.recordLaunch, Ledger.entry_update h]
          by_cases hversion : s.version = version
          · subst hversion
            simp [Ledger.firstLaunchMs, Option.orElse_eq_or]
          · rw [if_neg (Ne.symm hversion), if_neg hversion, Option.map_none, Option.or_none]
            rfl
  | analysed analysed =>
      change ((s.session.ledger.increment analysed).entry version).firstLaunchMs = _
      rw [Ledger.increment, Ledger.entry_update h, launch?, Option.map_none, Option.or_none]
      split
      next heq => rw [heq]; rfl
      next => rfl
  | restart settings => exact (Option.or_none ..).symm

theorem firstLaunchMs_run (h : s.session.ledger.IsSorted) (turns : List Turn) (version : String) :
    (s.run turns).session.ledger.firstLaunchMs version =
      (s.session.ledger.firstLaunchMs version).or
        ((s.launchesOf version turns).head?.map epochMs) := by
  induction turns generalizing s with
  | nil => exact (Option.or_none ..).symm
  | cons turn turns ih =>
      have hrest := ih (isSorted_after h turn)
      rw [firstLaunchMs_after h] at hrest
      rw [launchesOf]
      refine hrest.trans ?_
      cases s.launch? version turn with
      | none => simp
      | some nowMs => simp

theorem IsSound.after (h : s.IsSound) (turn : Turn) : (s.after turn).IsSound where
  sorted := isSorted_after h.sorted turn
  launched hrunning := by
    rw [firstLaunchMs_after h.sorted, Option.isSome_or]
    cases turn with
    | call e he =>
        have hcases : s.session.loop.phase = .running ∨
            (s.session.launchedAt? e).isSome = true := Session.launched_of_running hrunning
        rw [Bool.or_eq_true]
        rcases hcases with hbefore | hnew
        · exact .inl (h.launched hbefore)
        · right
          have hlaunch : s.launch? (s.after (.call e he)).version (.call e he) =
              s.session.launchedAt? e := if_pos rfl
          rw [Option.isSome_map, hlaunch]
          exact hnew
    | analysed version =>
        rw [Bool.or_eq_true]
        exact .inl (h.launched hrunning)
    | restart settings => cases hrunning

theorem isSound_run (h : s.IsSound) (turns : List Turn) : (s.run turns).IsSound := by
  induction turns generalizing s with
  | nil => exact h
  | cons turn turns ih => exact ih (h.after turn)

theorem isSound_fresh (settings : Settings) : IsSound ⟨settings, {}⟩ :=
  ⟨Ledger.isSorted_empty, fun hrunning ↦ nomatch hrunning⟩

/-! ## When polls trigger dumps -/

theorem triggersAt_iff (hdebug : s.settings.general.debug = false) :
    s.TriggersAt around nowMs ↔ (∃ t, s.TriggersAt around t) ∧
      ∀ first, s.session.ledger.firstLaunchMs s.version = some first →
        nowMs ≤ first + s.periodMs := by
  have hpoll (t : Int) : s.TriggersAt around t ↔ ∃ d, s.session.loop.phase = .running ∧
      (∃ current, around.reading = some current ∧
        TriggerLoop.decisionOn s.settings current s.session.loop = d) ∧ d.reasons ≠ [] ∧
      s.settings.monitor.enableDumpAnalysis = true ∧
      (s.session.ledger.analysisCount s.version < s.settings.limits.analysisMaxTimesPerVersion ∧
        ∀ first, s.session.ledger.firstLaunchMs s.version = some first →
          t ≤ first + s.periodMs) ∧ around.hasSpace = true := by
    rw [TriggersAt, PollOutcome.isTrigger_iff]
    refine exists_congr fun d ↦ ?_
    rw [Session.poll, TriggerLoop.poll_eq_triggered_iff, TriggerLoop.rateLimited_eq_false_iff,
      hdebug, or_iff_right Bool.false_ne_true]
    rfl
  constructor
  · intro h
    obtain ⟨d, -, -, -, -, ⟨-, hwindow⟩, -⟩ := (hpoll nowMs).1 h
    exact ⟨⟨nowMs, h⟩, hwindow⟩
  · rintro ⟨⟨t, ht⟩, hwindow⟩
    obtain ⟨d, hphase, hread, hreasons, henabled, ⟨hcount, -⟩, hspace⟩ := (hpoll t).1 ht
    exact (hpoll nowMs).2 ⟨d, hphase, hread, hreasons, henabled, ⟨hcount, hwindow⟩, hspace⟩

theorem TriggersAt.running (h : s.TriggersAt around nowMs) : s.session.loop.phase = .running := by
  obtain ⟨d, hd⟩ := PollOutcome.isTrigger_iff.1 h
  exact (TriggerLoop.poll_eq_triggered_iff.1 hd).1

/-- A poll triggers a dump as long as the time from the launch that was recorded first has not
passed.  This is the time from the earliest launch just if no later launch was at an earlier
time. -/
theorem triggers_within_window_iff {settings : Settings}
    (hdebug : ((⟨settings, {}⟩ : Service).run turns).settings.general.debug = false)
    (around : Surroundings) :
    let s := (⟨settings, {}⟩ : Service).run turns
    let launches := (⟨settings, {}⟩ : Service).launchesOf s.version turns
    (∀ nowMs, s.TriggersAt around nowMs ↔ (∃ t, s.TriggersAt around t) ∧
      ∃ first ∈ launches.head?, nowMs ≤ epochMs first + s.periodMs) ∧
    ((∃ t, s.TriggersAt around t) →
      ((∀ nowMs, s.TriggersAt around nowMs →
          ∀ launch ∈ launches, nowMs ≤ launch.toNat + s.periodMs) ↔
        ∀ first ∈ launches.head?, ∀ launch ∈ launches, epochMs first ≤ launch.toNat)) := by
  intro s launches
  have hdebug : s.settings.general.debug = false := hdebug
  have hsound : s.IsSound := isSound_run (isSound_fresh settings) turns
  have hkept : s.session.ledger.firstLaunchMs s.version = launches.head?.map epochMs :=
    firstLaunchMs_run Ledger.isSorted_empty turns s.version
  have hwindow (nowMs : Int) : s.TriggersAt around nowMs ↔ (∃ t, s.TriggersAt around t) ∧
      ∃ first ∈ launches.head?, nowMs ≤ epochMs first + s.periodMs := by
    rw [triggersAt_iff hdebug]
    refine and_congr_right fun ⟨t, ht⟩ ↦ ?_
    have hlaunched := hsound.launched ht.running
    rw [hkept] at hlaunched ⊢
    cases hhead : launches.head? with
    | none =>
        rw [hhead] at hlaunched
        cases hlaunched
    | some first => simp
  refine ⟨hwindow, fun htriggers ↦ ⟨fun hbound first hfirst launch hlaunch ↦ ?_,
    fun hearliest nowMs hnow launch hlaunch ↦ ?_⟩⟩
  -- A poll at the end of the window still triggers, so the bound holds there.
  · have hlast : s.TriggersAt around (epochMs first + s.periodMs) :=
      (hwindow _).2 ⟨htriggers, first, hfirst, Int.le_refl _⟩
    have := hbound _ hlast launch hlaunch
    omega
  · obtain ⟨-, first, hfirst, hle⟩ := (hwindow nowMs).1 hnow
    have := hearliest first hfirst launch hlaunch
    omega

/-! ## A clock that is set back -/

def strict : Settings where
  monitor := { threadThreshold := 2, maxOverThresholdCount := 1 }
  limits := { analysisPeriodDays := 1 }

/-- A service that is started, stopped and started again. -/
def restarts (first second : Int) : List Turn :=
  [.call (.start true first) trivial, .call .stop trivial, .call (.start true second) trivial]

def crowded : Surroundings := ⟨0, some { takenAt := 0, threads := 3 }, [], [], true⟩

theorem triggersAt_restarts {first second nowMs : Int} (h : nowMs ≤ epochMs first + 86400000) :
    ((⟨strict, {}⟩ : Service).run (restarts first second)).TriggersAt crowded nowMs := by
  let s := (⟨strict, {}⟩ : Service).run (restarts first second)
  have hkept : s.session.ledger.firstLaunchMs s.version = some (epochMs first) :=
    firstLaunchMs_run Ledger.isSorted_empty (restarts first second) s.version
  have hledger : s.session.ledger =
      (Ledger.empty.recordLaunch s.version first).recordLaunch s.version second := rfl
  have hcount : s.session.ledger.analysisCount s.version = 0 := by
    have hfirst : (Ledger.empty.recordLaunch s.version first).IsSorted :=
      Ledger.isSorted_empty.update _ _
    rw [hledger, Ledger.analysisCount_recordLaunch hfirst,
      Ledger.analysisCount_recordLaunch Ledger.isSorted_empty]
    rfl
  have hlimits : TriggerLoop.rateLimited strict
      (Surroundings.view { crowded with nowMs } s.session.ledger s.version) = false := by
    rw [TriggerLoop.rateLimited_eq_false_iff]
    refine .inr ⟨?_, fun kept hkept' ↦ ?_⟩
    · exact lt_of_eq_of_lt hcount (by decide)
    · obtain rfl := Option.some.inj (hkept.symm.trans hkept')
      exact h
  have hfresh : Tracker.thread ⟨0, 0⟩ ∈ s.session.loop.trackers := .tail _ (.head _)
  obtain ⟨d, hd, -⟩ := TriggerLoop.triggered_of_threads rfl rfl hfresh
    (by decide) (by decide) rfl hlimits rfl
  exact PollOutcome.isTrigger_iff.2 ⟨d, hd⟩

/-- The clock is not set back, so the window is the one of the earliest launch. -/
theorem triggers_within_window_forward :
    let s := (⟨strict, {}⟩ : Service).run (restarts 0 5000)
    s.TriggersAt crowded 86400000 ∧ ∀ nowMs, s.TriggersAt crowded nowMs → nowMs ≤ 86400000 := by
  intro s
  have htriggers : s.TriggersAt crowded 86400000 := triggersAt_restarts (by decide)
  refine ⟨htriggers, fun nowMs hnow ↦ ?_⟩
  have hlaunches : (⟨strict, {}⟩ : Service).launchesOf s.version (restarts 0 5000) = [0, 5000] := by
    decide +kernel
  have hdebug : s.settings.general.debug = false := rfl
  have hwindow := (triggers_within_window_iff hdebug crowded).2 ⟨_, htriggers⟩
  rw [hlaunches] at hwindow
  exact hwindow.2 (by decide) nowMs hnow 0 (by decide)

theorem window_not_from_earliest_launch :
    ¬ ∀ (settings : Settings) (turns : List Turn) (around : Surroundings) (nowMs : Int),
      let s := (⟨settings, {}⟩ : Service).run turns
      s.settings.general.debug = false → s.TriggersAt around nowMs →
        ∀ launch ∈ (⟨settings, {}⟩ : Service).launchesOf s.version turns,
          nowMs ≤ launch.toNat + s.periodMs := by
  intro h
  have htriggers : ((⟨strict, {}⟩ : Service).run (restarts 5000 0)).TriggersAt crowded 86403000 :=
    triggersAt_restarts (by decide)
  have hbound := h strict (restarts 5000 0) crowded 86403000 rfl htriggers 0 (by decide +kernel)
  exact absurd hbound (by decide)

end Service

end HeapSentry.Pressure
