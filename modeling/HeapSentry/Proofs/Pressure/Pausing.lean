import HeapSentry.Proofs.Pressure.Calls

/-!
# Going to the background more than once

The first notification stops a session that is running and makes it remember so.  The next one finds
it stopped and makes it forget; so a session is taken up again only if it was notified once.
-/

namespace HeapSentry.Pressure.Session

open Storage

variable {settings : Settings} {s : Session}

theorem background_of_running (h : s.loop.phase = .running) :
    (s.handle settings .background).2 =
      { s with loop := { s.loop with phase := .stopped, resumeOnForeground := true } } := by
  have hloop : s.loop.background.2 =
      { s.loop with phase := .stopped, resumeOnForeground := true } := by
    rw [TriggerLoop.background_eq]
    simp [h]
  rw [← hloop]
  rfl

theorem background_of_not_running (h : s.loop.phase ≠ .running) :
    (s.handle settings .background).2 =
      { s with loop := { s.loop with resumeOnForeground := false } } := by
  have hloop : s.loop.background.2 = { s.loop with resumeOnForeground := false } := by
    rw [TriggerLoop.background_eq]
    simp [h]
  rw [← hloop]
  rfl

theorem run_backgrounds (settings : Settings) (h : s.loop.phase = .running) (repeats : ℕ) :
    run settings s (List.replicate (repeats + 1) .background) =
      { s with loop := { s.loop with
        phase := .stopped, resumeOnForeground := decide (repeats = 0) } } := by
  induction repeats with
  | zero => exact background_of_running h
  | succ repeats ih =>
      -- Whatever came before, the last notification finds the session stopped.
      have hstopped : (run settings s (List.replicate (repeats + 1) .background)).loop.phase ≠
          .running := by
        rw [ih]
        exact Phase.noConfusion
      rw [List.replicate_succ', run_snoc, background_of_not_running hstopped, ih]
      simp

theorem foreground_after_backgrounds (h : s.loop.phase = .running) (hdump : s.EndedByDump)
    (repeats : ℕ) (nowMs : Int) :
    let paused := run settings s (List.replicate (repeats + 1) .background)
    (paused.handle settings (.foreground true nowMs)).1 = some (.moved (decide (repeats = 0))) ∧
      ((paused.handle settings (.foreground true nowMs)).2.loop.phase = .running ↔
        repeats = 0) := by
  intro paused
  have hdumped : s.loop.hasDumped = false := by
    rw [← Bool.not_eq_true]
    intro htrue
    have hended := hdump.1 htrue
    simp [h] at hended
  have hforeground : paused.loop.foreground true = (decide (repeats = 0), { s.loop with
      phase := if repeats = 0 then .running else .stopped, resumeOnForeground := false }) := by
    change (run settings s (List.replicate (repeats + 1) .background)).loop.foreground true = _
    rw [run_backgrounds settings h repeats, TriggerLoop.foreground_eq, TriggerLoop.start_eq]
    by_cases hfirst : repeats = 0
    · simp [hfirst, hdumped]
    · simp [hfirst]
  constructor
  · simp [handle, Session.foreground, launched, hforeground]
  · rw [loop_foreground, hforeground]
    by_cases hfirst : repeats = 0
    · simp [hfirst]
    · simp [hfirst]

theorem background_twice_of_not_running (h : s.loop.phase ≠ .running) :
    run settings s [.background, .background] = run settings s [.background] := by
  have honce : run settings s [.background] =
      { s with loop := { s.loop with resumeOnForeground := false } } :=
    background_of_not_running h
  have hstill : (run settings s [.background]).loop.phase ≠ .running := by
    rw [honce]
    exact h
  calc
    run settings s [.background, .background] =
        ((run settings s [.background]).handle settings .background).2 := rfl
    _ = { s with loop := { s.loop with resumeOnForeground := false } } := by
        rw [background_of_not_running hstill, honce]
    _ = run settings s [.background] := honce.symm

theorem background_twice_iff :
    run settings s [.background, .background] = run settings s [.background] ↔
      s.loop.phase ≠ .running := by
  refine ⟨fun hsame hrunning ↦ ?_, background_twice_of_not_running⟩
  have honce := run_backgrounds settings hrunning 0
  have htwice := run_backgrounds settings hrunning 1
  have hmemory := congrArg (fun s : Session ↦ s.loop.resumeOnForeground)
    (htwice.symm.trans (hsame.trans honce))
  simp at hmemory

/-- A second notification changes nothing exactly if the session was not running before the first.
If it was, the next foreground takes it up again exactly if there was no second one. -/
theorem background_idempotent_iff (settings : Settings) (ledger : Ledger) (past : List Event) :
    let s := run settings { ledger } past
    (run settings s [.background, .background] = run settings s [.background] ↔
      s.loop.phase ≠ .running) ∧
    (s.loop.phase = .running → ∀ (repeats : ℕ) (nowMs : Int),
      let paused := run settings s (List.replicate (repeats + 1) .background)
      (paused.handle settings (.foreground true nowMs)).1 = some (.moved (decide (repeats = 0))) ∧
        ((paused.handle settings (.foreground true nowMs)).2.loop.phase = .running ↔
          repeats = 0)) := by
  intro s
  refine ⟨background_twice_iff, fun hrunning ↦ ?_⟩
  exact foreground_after_backgrounds hrunning (endedByDump_run settings ledger past)

/-- A session that has just been started is not taken up again after two notifications. -/
theorem started_background_twice :
    (run {} {} [.start true 0]).loop.phase = .running ∧
      ((run {} {} [.start true 0, .background, .background]).handle {}
        (.foreground true 0)).1 = some (.moved false) := by
  have hrunning : (run {} {} [.start true 0]).loop.phase = .running := rfl
  have htwice := ((background_idempotent_iff {} .empty [.start true 0]).2 hrunning 1 0).1
  exact ⟨hrunning, htwice⟩

/-- A second notification changes sessions, and keeps one that was running from being taken up. -/
theorem background_not_always_idempotent :
    (¬ ∀ (settings : Settings) (ledger : Ledger) (past : List Event),
      let s := run settings { ledger } past
      run settings s [.background, .background] = run settings s [.background]) ∧
    ¬ ∀ (settings : Settings) (ledger : Ledger) (past : List Event),
      let s := run settings { ledger } past
      s.loop.phase = .running →
        (run settings s [.background, .background, .foreground true 0]).loop.phase = .running := by
  constructor
  · intro h
    have hsame := h {} {} [.start true 0]
    have hmemory : false = true := congrArg (fun s : Session ↦ s.loop.resumeOnForeground) hsame
    exact Bool.noConfusion hmemory
  · intro h
    have hresumed : Phase.stopped = .running := h {} {} [.start true 0] rfl
    exact Phase.noConfusion hresumed

end HeapSentry.Pressure.Session
