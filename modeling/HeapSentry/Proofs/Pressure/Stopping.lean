import HeapSentry.Proofs.Pressure.Calls
import Mathlib.Data.List.Induction

/-!
# Stopping while the host is in the background

A session that is paused remembers so, and stopping it does not make it forget.  Hence a stop holds
until the next start unless the session is paused when it is stopped.
-/

namespace HeapSentry.Pressure.Session

open Storage

variable {settings : Settings} {s : Session}

def Event.IsStart : Event → Prop
  | .start _ _ => True
  | _ => False

/-- The host goes to the background or comes back. -/
def Event.IsHostChange : Event → Prop
  | .background | .foreground _ _ => True
  | _ => False

/-- The session has not ended, and when the host last changed it went to the background and the
session was running. -/
def IsPaused (settings : Settings) (s : Session) (past : List Event) : Prop :=
  (run settings s past).loop.phase ≠ .terminated ∧
    ∃ before after, past = before ++ .background :: after ∧
      (run settings s before).loop.phase = .running ∧ ∀ e ∈ after, ¬ e.IsHostChange

/-! ## What a session remembers -/

theorem terminated_handle (h : s.loop.phase = .terminated) (e : Event) :
    (s.handle settings e).2.loop.phase = .terminated := by
  cases e with
  | start primary nowMs => simp [TriggerLoop.start_eq, h]
  | stop => simp [TriggerLoop.stop_eq, h]
  | background => simp [TriggerLoop.background_eq, h]
  | foreground primary nowMs =>
      rw [loop_foreground, TriggerLoop.foreground_eq, TriggerLoop.start_eq]
      grind
  | poll around => rw [loop_poll, Session.poll, TriggerLoop.poll_of_terminated h, h]
  | ledgerChanged ledger => exact h

theorem resumeOnForeground_handle {e : Event} (he : ¬ e.IsHostChange) :
    (s.handle settings e).2.loop.resumeOnForeground = s.loop.resumeOnForeground := by
  cases e with
  | start primary nowMs =>
      rw [loop_start, TriggerLoop.start_eq]
      split <;> rfl
  | stop =>
      rw [loop_stop, TriggerLoop.stop_eq]
      split <;> rfl
  | background => exact absurd trivial he
  | foreground primary nowMs => exact absurd trivial he
  | poll around => rw [loop_poll, Session.poll, TriggerLoop.resumeOnForeground_poll]
  | ledgerChanged ledger => rfl

theorem of_snoc_eq {past before after : List Event} {e e' : Event}
    (h : past ++ [e] = before ++ e' :: after) :
    (past = before ∧ e = e' ∧ after = []) ∨
      ∃ rest, after = rest ++ [e] ∧ past = before ++ e' :: rest := by
  rcases List.eq_nil_or_concat after with rfl | ⟨rest, last, rfl⟩
  · obtain ⟨hpast, hlast⟩ := List.append_inj' h rfl
    exact .inl ⟨hpast, List.singleton_inj.1 hlast, rfl⟩
  · have hsplit : past ++ [e] = (before ++ e' :: rest) ++ [last] := by simpa using h
    obtain ⟨hpast, hlast⟩ := List.append_inj' hsplit rfl
    obtain rfl := List.singleton_inj.1 hlast
    exact .inr ⟨rest, by simp, hpast⟩

theorem isPaused_snoc {past : List Event} {e : Event} (he : ¬ e.IsHostChange) :
    IsPaused settings s (past ++ [e]) ↔
      (run settings s (past ++ [e])).loop.phase ≠ .terminated ∧ IsPaused settings s past := by
  constructor
  · rintro ⟨hphase, before, after, hpast, hrunning, hafter⟩
    have hended : (run settings s past).loop.phase ≠ .terminated := by
      intro hended
      rw [run_snoc] at hphase
      exact hphase (terminated_handle hended e)
    refine ⟨hphase, hended, ?_⟩
    rcases of_snoc_eq hpast with ⟨-, rfl, -⟩ | ⟨rest, rfl, hsplit⟩
    · exact absurd trivial he
    · exact ⟨before, rest, hsplit, hrunning,
        fun e' he' ↦ hafter e' (List.mem_append_left _ he')⟩
  · rintro ⟨hphase, -, before, after, rfl, hrunning, hafter⟩
    refine ⟨hphase, before, after ++ [e], by simp, hrunning, fun e' he' ↦ ?_⟩
    rcases List.mem_append.1 he' with he' | he'
    · exact hafter e' he'
    · exact List.mem_singleton.1 he' ▸ he

theorem isPaused_snoc_background {past : List Event} :
    IsPaused settings s (past ++ [.background]) ↔ (run settings s past).loop.phase = .running := by
  constructor
  · rintro ⟨-, before, after, hpast, hrunning, hafter⟩
    rcases of_snoc_eq hpast with ⟨rfl, -, -⟩ | ⟨rest, rfl, -⟩
    · exact hrunning
    · exact absurd trivial (hafter .background (by simp))
  · intro hrunning
    refine ⟨?_, past, [], rfl, hrunning, by simp⟩
    rw [run_snoc, loop_background, TriggerLoop.background_eq]
    simp [hrunning]

theorem not_isPaused_snoc_foreground {past : List Event} {primary : Bool} {nowMs : Int} :
    ¬ IsPaused settings s (past ++ [.foreground primary nowMs]) := by
  rintro ⟨-, before, after, hpast, -, hafter⟩
  rcases of_snoc_eq hpast with ⟨-, heq, -⟩ | ⟨rest, rfl, -⟩
  · simp at heq
  · exact absurd trivial (hafter (.foreground primary nowMs) (by simp))

/-- A session knows whether it is paused. -/
theorem isPaused_iff (settings : Settings) (ledger : Ledger) (past : List Event) :
    IsPaused settings { ledger } past ↔
      (run settings { ledger } past).loop.phase ≠ .terminated ∧
        (run settings { ledger } past).loop.resumeOnForeground = true := by
  induction past using List.reverseRecOn with
  | nil => simp [IsPaused]
  | append_singleton past e ih =>
      have hother : ∀ e : Event, ¬ e.IsHostChange → (IsPaused settings { ledger } (past ++ [e]) ↔
          (run settings { ledger } (past ++ [e])).loop.phase ≠ .terminated ∧
            (run settings { ledger } (past ++ [e])).loop.resumeOnForeground = true) := by
        intro e he
        rw [isPaused_snoc he, ih, run_snoc, resumeOnForeground_handle he]
        constructor
        · rintro ⟨hphase, -, hresume⟩
          exact ⟨hphase, hresume⟩
        · rintro ⟨hphase, hresume⟩
          exact ⟨hphase, fun hended ↦ hphase (terminated_handle hended e), hresume⟩
      cases e with
      | background =>
          rw [isPaused_snoc_background, run_snoc, loop_background, TriggerLoop.background_eq]
          grind
      | foreground primary nowMs =>
          -- A loop that has ended may go on remembering; any other one is taken up and forgets.
          have hdumped := endedByDump_run settings ledger past
          unfold EndedByDump at hdumped
          rw [iff_false_left not_isPaused_snoc_foreground, run_snoc, loop_foreground,
            TriggerLoop.foreground_eq, TriggerLoop.start_eq]
          grind
      | start primary nowMs => exact hother _ id
      | stop => exact hother _ id
      | poll around => exact hother _ id
      | ledgerChanged ledger => exact hother _ id

/-! ## Sessions at rest -/

/-- The session does not run, and the host does not make it run. -/
def IsAtRest (s : Session) : Prop :=
  s.loop.phase ≠ .running ∧ (s.loop.phase = .terminated ∨ s.loop.resumeOnForeground = false)

theorem poll_of_not_running (h : s.loop.phase ≠ .running) (around : Surroundings) :
    (s.poll settings around).next = s.loop ∧
      ((s.poll settings around).outcome = .stopped ∨
        (s.poll settings around).outcome = .terminated) := by
  cases hphase : s.loop.phase with
  | running => exact absurd hphase h
  | stopped => simp [Session.poll, TriggerLoop.poll_of_stopped hphase]
  | terminated => simp [Session.poll, TriggerLoop.poll_of_terminated hphase]

theorem IsAtRest.handle (h : s.IsAtRest) {e : Event} (he : ¬ e.IsStart) :
    (s.handle settings e).2.IsAtRest := by
  unfold IsAtRest at h ⊢
  cases e with
  | start primary nowMs => exact absurd trivial he
  | stop =>
      rw [loop_stop, TriggerLoop.stop_eq]
      grind
  | background =>
      rw [loop_background, TriggerLoop.background_eq]
      grind
  | foreground primary nowMs =>
      rw [loop_foreground, TriggerLoop.foreground_eq, TriggerLoop.start_eq]
      grind
  | poll around =>
      rw [loop_poll, (poll_of_not_running h.1 around).1]
      exact h
  | ledgerChanged ledger => exact h

theorem isAtRest_stop (settings : Settings)
    (h : s.loop.phase = .terminated ∨ s.loop.resumeOnForeground = false) :
    (s.handle settings .stop).2.IsAtRest := by
  unfold IsAtRest
  rw [loop_stop, TriggerLoop.stop_eq]
  grind

/-- A session that is stopped while it is paused runs again when the host comes back. -/
theorem running_of_stop_foreground (hphase : s.loop.phase ≠ .terminated)
    (hdumped : s.loop.hasDumped = false) (hresume : s.loop.resumeOnForeground = true) :
    (run settings s [.stop, .foreground true 0]).loop.phase = .running := by
  have hstopped : s.loop.stop.2 = { s.loop with phase := .stopped } := by
    rw [TriggerLoop.stop_eq]
    cases hloop : s.loop.phase with
    | running => rfl
    | stopped => rw [if_neg (by decide), ← hloop]
    | terminated => exact absurd hloop hphase
  rw [run_cons, run_cons, run_nil, loop_foreground, loop_stop, hstopped,
    TriggerLoop.foreground_eq, TriggerLoop.start_eq]
  simp [hresume, hdumped]

/-- A stop holds whatever happens until the next start, exactly if the session was not paused when
it was stopped. -/
theorem stop_holds_until_start_iff (settings : Settings) (ledger : Ledger) (past : List Event) :
    (∀ future, (∀ e ∈ future, ¬ e.IsStart) →
      let s := run settings { ledger } (past ++ .stop :: future)
      s.loop.phase ≠ .running ∧ ∀ around, (s.poll settings around).outcome = .stopped ∨
        (s.poll settings around).outcome = .terminated) ↔
      ¬ IsPaused settings { ledger } past := by
  rw [isPaused_iff]
  constructor
  · rintro hholds ⟨hphase, hresume⟩
    have hdumped := endedByDump_run settings ledger past
    have hfuture : ∀ e ∈ [Event.foreground true 0], ¬ e.IsStart := by simp [Event.IsStart]
    have hrest := (hholds [.foreground true 0] hfuture).1
    rw [run_append] at hrest
    refine hrest (running_of_stop_foreground hphase ?_ hresume)
    rw [← Bool.not_eq_true]
    exact fun htrue ↦ hphase (hdumped.1 htrue)
  · intro hnot future hfuture s
    have hforgotten : (run settings { ledger } past).loop.phase = .terminated ∨
        (run settings { ledger } past).loop.resumeOnForeground = false := by
      rw [← Bool.not_eq_true]
      tauto
    have hrest : s.IsAtRest := by
      have hstopped := isAtRest_stop settings hforgotten
      change (run settings { ledger } (past ++ .stop :: future)).IsAtRest
      rw [run_append, run_cons]
      exact run_induction (fun s e he h ↦ h.handle he) hstopped future hfuture
    exact ⟨hrest.1, fun around ↦ (poll_of_not_running hrest.1 around).2⟩

/-- A stop does not always hold until the next start. -/
theorem stop_not_always_held :
    ¬ ∀ (settings : Settings) (ledger : Ledger) (past future : List Event),
      (∀ e ∈ future, ¬ e.IsStart) →
        (run settings { ledger } (past ++ .stop :: future)).loop.phase ≠ .running := by
  intro h
  have hfuture : ∀ e ∈ [Event.foreground true 0], ¬ e.IsStart := by simp [Event.IsStart]
  exact h {} {} [.start true 0, .background] [.foreground true 0] hfuture rfl

end HeapSentry.Pressure.Session
