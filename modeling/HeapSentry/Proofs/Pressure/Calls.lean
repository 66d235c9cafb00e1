import HeapSentry.Pressure.Session
import Mathlib.Tactic.Common

/-!
# Calls of a session

A session is called in any order.  Each call is described once by what it makes of the loop; what
the ledger holds does not matter for this, as others may change it between two calls.
-/

namespace HeapSentry.Pressure

open Storage

namespace PollOutcome

def isTrigger : PollOutcome → Bool
  | .triggered _ => true
  | _ => false

theorem isTrigger_iff {o : PollOutcome} : o.isTrigger = true ↔ ∃ d, o = .triggered d := by
  cases o <;> simp [isTrigger]

end PollOutcome

namespace TriggerLoop

variable {settings : Settings} {v : View} {l : TriggerLoop} {d : Decision}

/-! ## What starting and stopping make of a loop -/

theorem start_eq (l : TriggerLoop) (primary : Bool) :
    l.start primary = if primary = true ∧ l.phase = .stopped then
      (true, { l with phase := .running }) else (false, l) := by
  simp [start]

theorem stop_eq (l : TriggerLoop) :
    l.stop = if l.phase = .running then (true, { l with phase := .stopped }) else (false, l) := by
  simp [stop]

theorem background_eq (l : TriggerLoop) :
    l.background = (decide (l.phase = .running), { l with
      phase := if l.phase = .running then .stopped else l.phase
      resumeOnForeground := decide (l.phase = .running) }) := by
  cases hphase : l.phase <;> simp [background, stop, hphase]

theorem foreground_eq (l : TriggerLoop) (primary : Bool) :
    l.foreground primary = if l.resumeOnForeground = true ∧ l.hasDumped = false then
      start { l with resumeOnForeground := false } primary else (false, l) := by
  cases hresume : l.resumeOnForeground <;> cases hdumped : l.hasDumped <;>
    simp [foreground, hresume, hdumped]

/-! ## What a poll makes of a loop -/

theorem rateLimited_eq_false_iff : rateLimited settings v = false ↔
    settings.general.debug = true ∨
      v.analysisCount < settings.limits.analysisMaxTimesPerVersion ∧
        ∀ first, v.firstLaunchMs = some first →
          v.nowMs ≤ first + (settings.limits.analysisPeriodSeconds * 1000 : Nat) := by
  unfold rateLimited
  cases settings.general.debug
  · cases v.firstLaunchMs with
    | none => simp
    | some first => simp; omega
  · simp

theorem judge_eq_triggered_iff {reasons : Decision} :
    judge settings v reasons = .triggered d ↔ reasons = d ∧ d.reasons ≠ [] ∧
      settings.monitor.enableDumpAnalysis = true ∧ rateLimited settings v = false ∧
        v.hasSpace = true := by
  unfold judge
  cases hreasons : reasons.reasons with
  | nil => grind
  | cons reason rest => grind

/-- The reasons that the trackers give for a snapshot. -/
def decisionOn (settings : Settings) (current : Snapshot) (l : TriggerLoop) : Decision :=
  ⟨(sweep settings.monitor l.last current l.trackers).filterMap fun (verdict, _) ↦ verdict.reason?⟩

theorem outcome_observe (current : Snapshot) : (observe settings v current l).outcome =
    judge settings v (decisionOn settings current l) := rfl

theorem poll_of_stopped (h : l.phase = .stopped) :
    l.poll settings v = { outcome := .stopped, next := l } := by
  simp [poll, h]

theorem poll_of_terminated (h : l.phase = .terminated) :
    l.poll settings v = { outcome := .terminated, next := l } := by
  simp [poll, h]

theorem poll_of_unread (h : l.phase = .running) (hreading : v.reading = none) :
    l.poll settings v = { outcome := .probeFailed, next := l } := by
  simp [poll, h, hreading]

theorem poll_of_read {current : Snapshot} (h : l.phase = .running)
    (hreading : v.reading = some current) :
    l.poll settings v = observe settings v current l := by
  simp [poll, h, hreading]

theorem poll_eq_triggered_iff : (l.poll settings v).outcome = .triggered d ↔
    l.phase = .running ∧ (∃ current, v.reading = some current ∧ decisionOn settings current l = d) ∧
      d.reasons ≠ [] ∧ settings.monitor.enableDumpAnalysis = true ∧
        rateLimited settings v = false ∧ v.hasSpace = true := by
  cases hphase : l.phase with
  | stopped => simp [poll_of_stopped hphase]
  | terminated => simp [poll_of_terminated hphase]
  | running =>
      cases hreading : v.reading with
      | none => simp [poll_of_unread hphase hreading]
      | some current =>
          simp [poll_of_read hphase hreading, outcome_observe, judge_eq_triggered_iff]

/-- Too many threads for long enough trigger a dump, whatever the other trackers find. -/
theorem triggered_of_threads {streak : Streak Nat} {current : Snapshot}
    (hphase : l.phase = .running)
    (hreading : v.reading = some current) (hstreak : Tracker.thread streak ∈ l.trackers)
    (hover : countOver settings.monitor.threadThreshold streak current.threads = true)
    (hcount : settings.monitor.maxOverThresholdCount ≤ streak.count + 1)
    (henabled : settings.monitor.enableDumpAnalysis = true)
    (hlimits : rateLimited settings v = false) (hspace : v.hasSpace = true) :
    ∃ d, (l.poll settings v).outcome = .triggered d ∧ .threadOom ∈ d.reasons := by
  have hverdict : (Tracker.track settings.monitor l.last current (.thread streak)).1 =
      .triggered .threadOom := by
    simp [Tracker.track, trackThreads, debounce, verdictOf, hover, Streak.record, Streak.extend,
      hcount]
  have hreason : Reason.threadOom ∈ (decisionOn settings current l).reasons :=
    List.mem_filterMap.2
      ⟨_, List.mem_map_of_mem hstreak, congrArg Verdict.reason? hverdict⟩
  refine ⟨decisionOn settings current l, poll_eq_triggered_iff.2 ?_, hreason⟩
  exact ⟨hphase, ⟨current, hreading, rfl⟩, List.ne_nil_of_mem hreason, henabled, hlimits, hspace⟩

/-- Captures change nothing but the lists. -/
theorem exists_lists (v : View) (captures : List Capture) (l : TriggerLoop) :
    ∃ threadList fdList, captures.foldl (list v) l = { l with threadList, fdList } := by
  induction captures generalizing l with
  | nil => exact ⟨l.threadList, l.fdList, rfl⟩
  | cons capture captures ih =>
      obtain ⟨threadList, fdList, heq⟩ := ih (list v l capture)
      rw [List.foldl_cons, heq]
      cases capture
      all_goals exact ⟨threadList, fdList, rfl⟩

/-- What a poll that reads a snapshot makes of the loop. -/
theorem exists_next_observe (settings : Settings) (v : View) (current : Snapshot)
    (l : TriggerLoop) :
    ∃ threadList fdList, (observe settings v current l).next = { l with
      trackers := (sweep settings.monitor l.last current l.trackers).map Prod.snd
      last := some current
      threadList, fdList
      phase := if (observe settings v current l).outcome.isTrigger then .terminated else l.phase
      hasDumped := (observe settings v current l).outcome.isTrigger || l.hasDumped } := by
  let swept := sweep settings.monitor l.last current l.trackers
  obtain ⟨threadList, fdList, hlists⟩ := exists_lists v (capturesOf swept)
    { l with trackers := swept.map Prod.snd, last := some current }
  refine ⟨threadList, fdList, ?_⟩
  rw [outcome_observe]
  change (match judge settings v (decisionOn settings current l) with
    | .triggered _ => _
    | _ => _) = _
  rw [hlists]
  cases judge settings v (decisionOn settings current l) <;> rfl

/-- A poll that reads no snapshot changes nothing. -/
theorem poll_cases (settings : Settings) (v : View) (l : TriggerLoop) :
    ((l.poll settings v).next = l ∧ (l.poll settings v).outcome.isTrigger = false) ∨
      ∃ current, l.phase = .running ∧ v.reading = some current ∧
        l.poll settings v = observe settings v current l := by
  cases hphase : l.phase with
  | stopped => exact .inl (by simp [poll_of_stopped hphase, PollOutcome.isTrigger])
  | terminated => exact .inl (by simp [poll_of_terminated hphase, PollOutcome.isTrigger])
  | running =>
      cases hreading : v.reading with
      | none => exact .inl (by simp [poll_of_unread hphase hreading, PollOutcome.isTrigger])
      | some current => exact .inr ⟨current, rfl, rfl, poll_of_read hphase hreading⟩

/-- A poll ends the loop if it triggers, and leaves it as it runs otherwise. -/
theorem phase_poll (settings : Settings) (v : View) (l : TriggerLoop) :
    (l.poll settings v).next.phase =
      if (l.poll settings v).outcome.isTrigger then .terminated else l.phase := by
  rcases poll_cases settings v l with ⟨hnext, hquiet⟩ | ⟨current, -, -, heq⟩
  · rw [hnext, hquiet]
    rfl
  · obtain ⟨threadList, fdList, hnext⟩ := exists_next_observe settings v current l
    rw [heq, hnext]

theorem hasDumped_poll (settings : Settings) (v : View) (l : TriggerLoop) :
    (l.poll settings v).next.hasDumped =
      ((l.poll settings v).outcome.isTrigger || l.hasDumped) := by
  rcases poll_cases settings v l with ⟨hnext, hquiet⟩ | ⟨current, -, -, heq⟩
  · rw [hnext, hquiet]
    rfl
  · obtain ⟨threadList, fdList, hnext⟩ := exists_next_observe settings v current l
    rw [heq, hnext]

theorem resumeOnForeground_poll (settings : Settings) (v : View) (l : TriggerLoop) :
    (l.poll settings v).next.resumeOnForeground = l.resumeOnForeground := by
  rcases poll_cases settings v l with ⟨hnext, -⟩ | ⟨current, -, -, heq⟩
  · rw [hnext]
  · obtain ⟨threadList, fdList, hnext⟩ := exists_next_observe settings v current l
    rw [heq, hnext]

end TriggerLoop

/-! ## Runs -/

namespace Session

/-- What happens to a session.  The ledger may be shared with others who change it. -/
inductive Event where
  | start (primary : Bool) (nowMs : Int)
  | stop
  | background
  | foreground (primary : Bool) (nowMs : Int)
  | poll (around : Surroundings)
  | ledgerChanged (ledger : Ledger)

inductive Answer where
  | moved (changed : Bool)
  | polled (outcome : PollOutcome)

def Answer.isTrigger : Answer → Bool
  | .polled outcome => outcome.isTrigger
  | .moved _ => false

/-- The answer to a call, and the session after it. -/
def handle (settings : Settings) (s : Session) : Event → Option Answer × Session
  | .start primary nowMs =>
    (s.start settings.general.appVersion primary nowMs).map (fun b ↦ some (.moved b)) id
  | .stop => s.stop.map (fun b ↦ some (.moved b)) id
  | .background => s.background.map (fun b ↦ some (.moved b)) id
  | .foreground primary nowMs =>
    (s.foreground settings.general.appVersion primary nowMs).map (fun b ↦ some (.moved b)) id
  | .poll around =>
    let result := s.poll settings around
    (some (.polled result.outcome), { s with loop := result.next })
  | .ledgerChanged ledger => (none, { s with ledger })

def run (settings : Settings) (s : Session) (events : List Event) : Session :=
  events.foldl (fun s e ↦ (s.handle settings e).2) s

/-- The answers to the calls of a run. -/
def answers (settings : Settings) : Session → List Event → List Answer
  | _, [] => []
  | s, e :: events =>
    (s.handle settings e).1.toList ++ answers settings (s.handle settings e).2 events

variable {settings : Settings} {s : Session}

@[simp] theorem run_nil : run settings s [] = s := rfl

@[simp] theorem run_cons (e : Event) (events : List Event) :
    run settings s (e :: events) = run settings (s.handle settings e).2 events := rfl

theorem run_append (events more : List Event) :
    run settings s (events ++ more) = run settings (run settings s events) more := by
  simp [run]

theorem run_snoc (events : List Event) (e : Event) :
    run settings s (events ++ [e]) = ((run settings s events).handle settings e).2 := by
  simp [run]

/-- What every event of some kind keeps holds after a run of such events. -/
theorem run_induction {A : Event → Prop} {P : Session → Prop}
    (hstep : ∀ s e, A e → P s → P (s.handle settings e).2) (h : P s) (events : List Event)
    (hevents : ∀ e ∈ events, A e) : P (run settings s events) := by
  induction events generalizing s with
  | nil => exact h
  | cons e events ih =>
      have hnext := hstep s e (hevents e List.mem_cons_self) h
      exact ih hnext fun e' he' ↦ hevents e' (List.mem_cons_of_mem _ he')

/-! ## What each event makes of the loop -/

@[simp] theorem loop_start (primary : Bool) (nowMs : Int) :
    (s.handle settings (.start primary nowMs)).2.loop = (s.loop.start primary).2 := rfl

@[simp] theorem loop_stop : (s.handle settings .stop).2.loop = s.loop.stop.2 := rfl

@[simp] theorem loop_background :
    (s.handle settings .background).2.loop = s.loop.background.2 := rfl

@[simp] theorem loop_foreground (primary : Bool) (nowMs : Int) :
    (s.handle settings (.foreground primary nowMs)).2.loop = (s.loop.foreground primary).2 := rfl

@[simp] theorem loop_poll (around : Surroundings) :
    (s.handle settings (.poll around)).2.loop = (s.poll settings around).next := rfl

@[simp] theorem loop_ledgerChanged (ledger : Ledger) :
    (s.handle settings (.ledgerChanged ledger)).2.loop = s.loop := rfl

/-- A loop has ended exactly if it has triggered a dump. -/
def EndedByDump (s : Session) : Prop := s.loop.hasDumped = true ↔ s.loop.phase = .terminated

theorem EndedByDump.handle (h : s.EndedByDump) (settings : Settings) (e : Event) :
    (s.handle settings e).2.EndedByDump := by
  unfold EndedByDump at h ⊢
  cases e with
  | start primary nowMs =>
      rw [loop_start, TriggerLoop.start_eq]
      grind
  | stop =>
      rw [loop_stop, TriggerLoop.stop_eq]
      grind
  | background =>
      rw [loop_background, TriggerLoop.background_eq]
      grind
  | foreground primary nowMs =>
      rw [loop_foreground, TriggerLoop.foreground_eq, TriggerLoop.start_eq]
      grind
  | poll around =>
      rw [loop_poll, Session.poll, TriggerLoop.hasDumped_poll, TriggerLoop.phase_poll]
      grind
  | ledgerChanged ledger => exact h

theorem endedByDump_run (settings : Settings) (ledger : Ledger) (events : List Event) :
    (run settings { ledger } events).EndedByDump := by
  have hfresh : EndedByDump { ledger } := by simp [EndedByDump]
  refine run_induction (A := fun _ ↦ True) ?_ hfresh events fun _ _ ↦ trivial
  exact fun s e _ h ↦ h.handle settings e

end Session

end HeapSentry.Pressure
