import HeapSentry.Proofs.Pressure.Calls
import HeapSentry.Supervisor.World

/-!
# A session triggers one dump

A dump is triggered under all limits only, and at most once.  From then on every call is refused
and nothing is read any more.
-/

namespace HeapSentry

namespace Pressure.Session

open Storage

variable {settings : Settings} {s : Session}

/-- The answer to a call of a session that has ended. -/
def Event.refusal : Event → Option Answer
  | .poll _ => some (.polled .terminated)
  | .ledgerChanged _ => none
  | .start _ _ | .stop | .background | .foreground _ _ => some (.moved false)

theorem isTrigger_refusal (e : Event) : ∀ answer ∈ e.refusal, answer.isTrigger = false := by
  cases e <;> simp [Event.refusal, Answer.isTrigger, PollOutcome.isTrigger]

theorem terminated_of_isTrigger {e : Event} {answer : Answer}
    (hanswer : (s.handle settings e).1 = some answer) (h : answer.isTrigger = true) :
    (s.handle settings e).2.loop.phase = .terminated := by
  cases e
  case poll around =>
    obtain rfl := Option.some.inj hanswer
    rw [loop_poll, Session.poll, TriggerLoop.phase_poll]
    exact if_pos h
  case ledgerChanged ledger => simp [handle] at hanswer
  all_goals
    obtain rfl := Option.some.inj hanswer
    simp [Answer.isTrigger] at h

/-- A session that has ended refuses what it is asked, and at most forgets that it was paused. -/
theorem handle_of_terminated (settings : Settings) (hphase : s.loop.phase = .terminated)
    (h : s.EndedByDump) (e : Event) : (s.handle settings e).1 = e.refusal ∧
      ∃ resumeOnForeground, (s.handle settings e).2.loop = { s.loop with resumeOnForeground } := by
  have hdumped : s.loop.hasDumped = true := h.2 hphase
  cases e with
  | start primary nowMs =>
      have hstart : s.loop.start primary = (false, s.loop) := by
        simp [TriggerLoop.start_eq, hphase]
      exact ⟨by simp [handle, Session.start, launched, hstart, Event.refusal],
        s.loop.resumeOnForeground, by rw [loop_start, hstart]⟩
  | stop =>
      have hstop : s.loop.stop = (false, s.loop) := by simp [TriggerLoop.stop_eq, hphase]
      exact ⟨by simp [handle, Session.stop, hstop, Event.refusal],
        s.loop.resumeOnForeground, by rw [loop_stop, hstop]⟩
  | background =>
      have hbackground : s.loop.background =
          (false, { s.loop with resumeOnForeground := false }) := by
        simp [TriggerLoop.background_eq, hphase]
      exact ⟨by simp [handle, Session.background, hbackground, Event.refusal],
        false, by rw [loop_background, hbackground]⟩
  | foreground primary nowMs =>
      have hforeground : s.loop.foreground primary = (false, s.loop) := by
        simp [TriggerLoop.foreground_eq, hdumped]
      exact ⟨by simp [handle, Session.foreground, launched, hforeground, Event.refusal],
        s.loop.resumeOnForeground, by rw [loop_foreground, hforeground]⟩
  | poll around =>
      have hpoll : s.poll settings around = { outcome := .terminated, next := s.loop } :=
        TriggerLoop.poll_of_terminated hphase
      exact ⟨by simp [handle, hpoll, Event.refusal], s.loop.resumeOnForeground,
        by rw [loop_poll, hpoll]⟩
  | ledgerChanged ledger => exact ⟨rfl, s.loop.resumeOnForeground, rfl⟩

theorem run_of_terminated (settings : Settings) (hphase : s.loop.phase = .terminated)
    (h : s.EndedByDump) (events : List Event) :
    answers settings s events = events.filterMap Event.refusal ∧
      ∃ resumeOnForeground, (run settings s events).loop = { s.loop with resumeOnForeground } := by
  induction events generalizing s with
  | nil => exact ⟨rfl, s.loop.resumeOnForeground, rfl⟩
  | cons e events ih =>
      obtain ⟨hanswer, resume, hloop⟩ := handle_of_terminated settings hphase h e
      have hnext : (s.handle settings e).2.loop.phase = .terminated := by rw [hloop, hphase]
      obtain ⟨hanswers, resume', hrun⟩ := ih hnext (h.handle settings e)
      refine ⟨?_, resume', by rw [run_cons, hrun, hloop]⟩
      rw [answers, hanswers, hanswer]
      cases hrefusal : e.refusal <;> simp [hrefusal]

theorem countP_refusals (events : List Event) :
    (events.filterMap Event.refusal).countP Answer.isTrigger = 0 := by
  rw [List.countP_eq_zero]
  intro answer hanswer
  obtain ⟨e, -, he⟩ := List.mem_filterMap.1 hanswer
  simp [isTrigger_refusal e answer he]

/-- A run triggers at most once, and not at all if the session has ended before. -/
theorem countP_isTrigger_le (settings : Settings) (h : s.EndedByDump) (events : List Event) :
    (answers settings s events).countP Answer.isTrigger ≤
      if s.loop.phase = .terminated then 0 else 1 := by
  induction events generalizing s with
  | nil => simp [answers]
  | cons e events ih =>
      by_cases hphase : s.loop.phase = .terminated
      · have hquiet : (answers settings s (e :: events)).countP Answer.isTrigger = 0 := by
          rw [(run_of_terminated settings hphase h (e :: events)).1, countP_refusals]
        rw [if_pos hphase]
        exact Nat.le_of_eq hquiet
      · have hrest := ih (h.handle settings e)
        rw [if_neg hphase, answers, List.countP_append]
        by_cases hended : (s.handle settings e).2.loop.phase = .terminated
        · -- Whatever this answer is, no later one triggers.
          have hfirst : (s.handle settings e).1.toList.countP Answer.isTrigger ≤ 1 :=
            Nat.le_trans List.countP_le_length (by cases (s.handle settings e).1 <;> simp)
          rw [if_pos hended] at hrest
          omega
        · have hfirst : (s.handle settings e).1.toList.countP Answer.isTrigger = 0 := by
            rw [List.countP_eq_zero]
            intro answer hanswer htrigger
            exact hended (terminated_of_isTrigger (Option.mem_toList.1 hanswer) htrigger)
          rw [if_neg hended] at hrest
          omega

end Pressure.Session

namespace Supervisor.World

open Pressure

/-- A poll of a loop that has ended leaves the world as it is; no snapshot is used up. -/
theorem poll_of_terminated {settings : Settings} {w : World} {nowMs : Int}
    (h : w.memory.session.loop.phase = .terminated) :
    w.poll settings nowMs = (.terminated, w) := by
  have hpoll : ∀ around, w.memory.session.poll settings around =
      { outcome := .terminated, next := w.memory.session.loop } :=
    fun around ↦ TriggerLoop.poll_of_terminated h
  simp [World.poll, hpoll, h]

end Supervisor.World

namespace Pressure.Session

open Supervisor Storage

variable {settings : Settings} {ended : Session}

/-- A session that has ended answers nothing but refusals, looks at no snapshot and keeps its
trackers. -/
theorem rests_of_terminated (hphase : ended.loop.phase = .terminated) (h : ended.EndedByDump)
    (later : List Event) :
    let after := run settings ended later
    answers settings ended later = later.filterMap Event.refusal ∧
      after.loop.phase = .terminated ∧
      after.loop.trackers = ended.loop.trackers ∧ after.loop.last = ended.loop.last ∧
      (∀ around', after.poll settings around' = { outcome := .terminated, next := after.loop }) ∧
      ∀ (w : World) nowMs, w.memory.session = after →
        w.poll settings nowMs = (.terminated, w) := by
  intro after
  obtain ⟨hanswers, resume, hafter⟩ := run_of_terminated settings hphase h later
  have hended : after.loop.phase = .terminated := by rw [hafter, hphase]
  refine ⟨hanswers, hended, by rw [hafter], by rw [hafter], ?_, ?_⟩
  · exact fun around' ↦ TriggerLoop.poll_of_terminated hended
  · exact fun w nowMs hw ↦ World.poll_of_terminated (hw ▸ hended)

/-- In every run a dump is triggered at most once, by a poll of a running loop under all limits.
Afterwards every call is refused, the trackers stay as they are and no snapshot is read. -/
theorem triggers_once_within_limits (settings : Settings) (ledger : Ledger)
    (events : List Event) :
    let version := settings.general.appVersion
    let s := run settings { ledger } events
    (s.loop.hasDumped = true ↔ s.loop.phase = .terminated) ∧
    (answers settings { ledger } events).countP Answer.isTrigger ≤ 1 ∧
    (∀ around, (∀ d, (s.poll settings around).outcome ≠ .triggered d) →
      (s.poll settings around).next.phase = s.loop.phase) ∧
    ∀ around d, (s.poll settings around).outcome = .triggered d →
      (s.loop.phase = .running ∧ d.reasons ≠ [] ∧ settings.monitor.enableDumpAnalysis = true ∧
        around.hasSpace = true ∧
        (settings.general.debug = true ∨
          s.ledger.analysisCount version < settings.limits.analysisMaxTimesPerVersion ∧
            ∀ first, s.ledger.firstLaunchMs version = some first →
              around.nowMs ≤ first + (settings.limits.analysisPeriodSeconds * 1000 : Nat))) ∧
      ∀ later,
        let ended := (s.handle settings (.poll around)).2
        let after := run settings ended later
        answers settings ended later = later.filterMap Event.refusal ∧
        after.loop.phase = .terminated ∧
        after.loop.trackers = ended.loop.trackers ∧ after.loop.last = ended.loop.last ∧
        (∀ around', after.poll settings around' = { outcome := .terminated, next := after.loop }) ∧
        ∀ (w : World) nowMs, w.memory.session = after →
          w.poll settings nowMs = (.terminated, w) := by
  intro version s
  have hs : s.EndedByDump := endedByDump_run settings ledger events
  refine ⟨hs, ?_, ?_, ?_⟩
  · have hfresh : EndedByDump { ledger } := by simp [EndedByDump]
    simpa using countP_isTrigger_le settings hfresh events
  · intro around hquiet
    have hnot : (s.poll settings around).outcome.isTrigger = false := by
      rw [← Bool.not_eq_true, PollOutcome.isTrigger_iff, not_exists]
      exact hquiet
    rw [Session.poll, TriggerLoop.phase_poll]
    exact if_neg (by rw [← Session.poll, hnot]; decide)
  · intro around d htriggered
    obtain ⟨hrunning, -, hreasons, henabled, hlimits, hspace⟩ :=
      TriggerLoop.poll_eq_triggered_iff.1 htriggered
    refine ⟨⟨hrunning, hreasons, henabled, hspace, ?_⟩, ?_⟩
    · exact TriggerLoop.rateLimited_eq_false_iff.1 hlimits
    · have htrigger : (s.poll settings around).outcome.isTrigger = true :=
        PollOutcome.isTrigger_iff.2 ⟨d, htriggered⟩
      have hended : (s.handle settings (.poll around)).2.loop.phase = .terminated :=
        terminated_of_isTrigger (e := .poll around) rfl htrigger
      exact fun later ↦ rests_of_terminated hended (hs.handle settings _) later

end Pressure.Session

end HeapSentry
