import HeapSentry.Proofs.Pressure.Tracking

/-!
# Streaks across pauses

Three trackers ask for several snapshots in a row over a limit.  Their streaks are those of all the
snapshots that a session has read: they do not begin anew when the session is started or taken up
again.
-/

namespace HeapSentry.Pressure

open Storage

theorem Verdict.reason?_eq_some_iff {verdict : Verdict} {reason : Reason} :
    verdict.reason? = some reason ↔ verdict = .triggered reason := by
  cases verdict <;> simp [reason?]

/-! ## Rows of snapshots over a limit -/

/-- The trackers that give no reason before they have counted. -/
inductive Watch where
  | threads | fds | device

namespace Watch

variable {m : Settings.Monitor} {w : Watch} {n : Nat} {earlier reads : List Snapshot}
  {current : Snapshot}

def reason : Watch → Reason
  | .threads => .threadOom
  | .fds => .fdOom
  | .device => .lowDeviceMemory

/-- Whether a snapshot is over the limit, and a count has not fallen far since the one before. -/
def isOver (m : Settings.Monitor) (previous : Option Snapshot) (current : Snapshot) : Watch → Bool
  | .threads => m.threadThreshold < current.threads &&
      previous.elim 0 Snapshot.threads ≤ current.threads + countGap
  | .fds => m.fdThreshold < current.fds && previous.elim 0 Snapshot.fds ≤ current.fds + countGap
  | .device => current.device.rate < m.deviceMemoryThreshold

def OverRow (m : Settings.Monitor) (w : Watch) : Option Snapshot → List Snapshot → Prop
  | _, [] => True
  | previous, current :: rest =>
    w.isOver m previous current = true ∧ OverRow m w (some current) rest

/-- The last `n` of the later snapshots or more were over the limit in a row. -/
def EndsOver (m : Settings.Monitor) (w : Watch) (n : Nat) (earlier reads : List Snapshot) : Prop :=
  ∃ before row, reads = before ++ row ∧ n ≤ row.length ∧
    w.OverRow m (earlier ++ before).getLast? row

theorem overRow_append {previous : Option Snapshot} {row more : List Snapshot} :
    w.OverRow m previous (row ++ more) ↔
      w.OverRow m previous row ∧ w.OverRow m (latest previous row) more := by
  induction row generalizing previous with
  | nil => simp [OverRow]
  | cons first row ih => rw [List.cons_append, OverRow, OverRow, ih, latest_cons, and_assoc]

theorem overRow_singleton {previous : Option Snapshot} :
    w.OverRow m previous [current] ↔ w.isOver m previous current = true := by
  simp [OverRow]

theorem latest_getLast? (before row : List Snapshot) :
    latest before.getLast? row = (before ++ row).getLast? := by
  rw [latest, List.getLast?_append]

theorem endsOver_zero : w.EndsOver m 0 earlier reads :=
  ⟨reads, [], (List.append_nil reads).symm, Nat.le_refl 0, trivial⟩

theorem endsOver_succ_snoc : w.EndsOver m (n + 1) [] (reads ++ [current]) ↔
    w.EndsOver m n [] reads ∧ w.isOver m reads.getLast? current = true := by
  constructor
  · rintro ⟨before, row, hreads, hlength, hrow⟩
    rcases List.eq_nil_or_concat row with rfl | ⟨row, last, rfl⟩
    · simp at hlength
    · rw [List.concat_eq_append] at hreads hlength hrow
      rw [← List.append_assoc] at hreads
      obtain ⟨rfl, hlast⟩ := List.append_inj' hreads rfl
      obtain rfl := List.singleton_inj.1 hlast
      obtain ⟨hrow, hover⟩ := overRow_append.1 hrow
      rw [overRow_singleton, List.nil_append, latest_getLast?] at hover
      rw [List.length_append, List.length_singleton] at hlength
      exact ⟨⟨before, row, rfl, Nat.le_of_succ_le_succ hlength, hrow⟩, hover⟩
  · rintro ⟨⟨before, row, rfl, hlength, hrow⟩, hover⟩
    refine ⟨before, row ++ [current], List.append_assoc _ _ _, ?_, overRow_append.2 ⟨hrow, ?_⟩⟩
    · rw [List.length_append, List.length_singleton]
      exact Nat.succ_le_succ hlength
    · rw [overRow_singleton, List.nil_append, latest_getLast?]
      exact hover

theorem EndsOver.mono {k : Nat} (h : w.EndsOver m n earlier reads) (hk : k ≤ n) :
    w.EndsOver m k earlier reads := by
  obtain ⟨before, row, hreads, hlength, hrow⟩ := h
  exact ⟨before, row, hreads, Nat.le_trans hk hlength, hrow⟩

theorem EndsOver.le_length (h : w.EndsOver m n earlier reads) : n ≤ reads.length := by
  obtain ⟨before, row, rfl, hlength, -⟩ := h
  rw [List.length_append]
  omega

/-- A row of all snapshots lies among the later ones as far as these reach. -/
theorem endsOver_iff_of_all (h : w.EndsOver m n [] (earlier ++ reads)) :
    w.EndsOver m n earlier reads ↔ n ≤ reads.length := by
  refine ⟨EndsOver.le_length, fun hreads ↦ ?_⟩
  obtain ⟨before, row, hsplit, hlength, hrow⟩ := h
  rcases List.append_eq_append_iff.1 hsplit with ⟨between, rfl, rfl⟩ | ⟨start, rfl, rfl⟩
  · exact ⟨between, row, rfl, hlength, hrow⟩
  · obtain ⟨-, hrow⟩ := overRow_append.1 hrow
    refine ⟨[], reads, rfl, hreads, ?_⟩
    rwa [List.append_nil, ← latest_getLast?]

/-! ## What streaks count -/

theorem debounce_eq {α : Type} (s : Streak α) (pressing : Bool) (sample : α) (limit : Nat)
    (reason : Reason) : debounce s pressing sample limit reason =
      if pressing = true then
        (if limit ≤ s.count + 1 then .triggered reason else .counting, ⟨s.count + 1, sample⟩)
      else (.quiet, ⟨0, sample⟩) := by
  cases pressing <;> rfl

def tracker (w : Watch) (count : Nat) (last : Option Snapshot) : Tracker :=
  match w with
  | .threads => .thread ⟨count, last.elim 0 Snapshot.threads⟩
  | .fds => .fd ⟨count, last.elim 0 Snapshot.fds⟩
  | .device => .physicalMemory ⟨count, last.elim 0.0 fun s ↦ s.device.rate.toFloat⟩

theorem track_tracker (count : Nat) (last previous : Option Snapshot) :
    (w.tracker count last).track m previous current =
      if w.isOver m last current = true then
        (if m.maxOverThresholdCount ≤ count + 1 then .triggered w.reason else .counting,
          w.tracker (count + 1) (some current))
      else (.quiet, w.tracker 0 (some current)) := by
  cases w with
  | threads =>
      simp only [tracker, Tracker.track, trackThreads, debounce_eq, countOver, isOver]
      rw [apply_ite (Prod.map id Tracker.thread)]
      rfl
  | fds =>
      simp only [tracker, Tracker.track, trackFds, debounce_eq, countOver, isOver]
      rw [apply_ite (Prod.map id Tracker.fd)]
      rfl
  | device =>
      simp only [tracker, Tracker.track, trackDevice, debounce_eq, isOver]
      rw [apply_ite (Prod.map id Tracker.physicalMemory)]
      rfl

/-- How many of the last snapshots were over the limit in a row. -/
def streak (m : Settings.Monitor) (w : Watch) (reads : List Snapshot) : Nat :=
  ((w.tracker 0 none).alone m none reads).count

theorem count_tracker (count : Nat) (last : Option Snapshot) :
    (w.tracker count last).count = count := by
  cases w <;> rfl

theorem alone_tracker (reads : List Snapshot) :
    (w.tracker 0 none).alone m none reads = w.tracker (w.streak m reads) reads.getLast? := by
  induction reads using List.reverseRecOn with
  | nil => simp [streak, Tracker.alone, count_tracker]
  | append_singleton reads current ih =>
      rw [streak, Tracker.alone_snoc, ih, track_tracker, List.getLast?_concat]
      split <;> rw [count_tracker]

theorem streak_snoc : w.streak m (reads ++ [current]) =
    if w.isOver m reads.getLast? current = true then w.streak m reads + 1 else 0 := by
  rw [streak, Tracker.alone_snoc, alone_tracker, track_tracker]
  split <;> rw [count_tracker]

theorem le_streak_iff : n ≤ w.streak m reads ↔ w.EndsOver m n [] reads := by
  induction reads using List.reverseRecOn generalizing n with
  | nil =>
      have hzero : w.streak m [] = 0 := count_tracker 0 none
      rw [hzero]
      constructor
      · intro hn
        rw [Nat.le_zero.1 hn]
        exact endsOver_zero
      · rintro ⟨before, row, hreads, hlength, -⟩
        obtain ⟨-, rfl⟩ := List.append_eq_nil_iff.1 hreads.symm
        exact hlength
  | append_singleton reads current ih =>
      cases n with
      | zero => exact iff_of_true (Nat.zero_le _) endsOver_zero
      | succ n =>
          rw [endsOver_succ_snoc, streak_snoc, ← ih]
          by_cases hover : w.isOver m reads.getLast? current = true
          · rw [if_pos hover, Nat.succ_le_succ_iff, and_iff_left hover]
          · rw [if_neg hover]
            exact iff_of_false (Nat.not_succ_le_zero n) fun h ↦ hover h.2

/-! ## Reasons that were counted for -/

theorem verdictAfter_eq_triggered_iff :
    (w.tracker 0 none).verdictAfter m none reads current = .triggered w.reason ↔
      w.EndsOver m (max 1 m.maxOverThresholdCount) [] (reads ++ [current]) := by
  have hlatest : latest none reads = reads.getLast? := Option.or_none
  rw [Tracker.verdictAfter, alone_tracker, track_tracker, ← le_streak_iff, streak_snoc]
  by_cases hover : w.isOver m reads.getLast? current = true
  · rw [if_pos hover, if_pos hover, Nat.max_le]
    by_cases hlimit : m.maxOverThresholdCount ≤ w.streak m reads + 1
    · simp [hlimit]
    · simp [hlimit]
  · rw [if_neg hover, if_neg hover]
    simp

def giver : Reason → String
  | .heapOom | .highWatermark | .hugeDelta => "heap"
  | .threadOom => "thread"
  | .fdOom => "fd"
  | .lowDeviceMemory => "physical_memory"
  | .heapVelocity => "heap_velocity"

theorem eq_of_verdictOf {α : Type} {s : Streak α} {pressing : Bool} {limit : Nat}
    {reason given : Reason} (h : verdictOf s pressing limit reason = .triggered given) :
    given = reason := by
  unfold verdictOf at h
  split at h
  · cases h
  · split at h
    · exact (Verdict.triggered.inj h).symm
    · cases h

theorem giver_of_trackHeap {previous : Option Snapshot} {s : Streak Float} {given : Reason}
    (h : (trackHeap m previous current s).1 = .triggered given) : giver given = "heap" := by
  unfold trackHeap at h
  extract_lets rate grown threshold pressing at h
  split at h
  · rw [← Verdict.triggered.inj h]
    rfl
  · split at h
    · rw [← Verdict.triggered.inj h]
      rfl
    · rw [eq_of_verdictOf h]
      rfl

theorem giver_of_trackVelocity {previous : Option Snapshot} {given : Reason}
    (h : (trackVelocity m previous current).1 = .triggered given) :
    giver given = "heap_velocity" := by
  unfold trackVelocity at h
  split at h
  · cases h
  · extract_lets limit at h
    split at h
    · rw [← Verdict.triggered.inj h]
      rfl
    · cases h

theorem giver_of_track {t : Tracker} {previous : Option Snapshot} {given : Reason}
    (h : (t.track m previous current).1 = .triggered given) : giver given = t.name := by
  cases t with
  | heap s => exact giver_of_trackHeap h
  | heapVelocity rate => exact giver_of_trackVelocity h
  | thread s => rw [eq_of_verdictOf h]; rfl
  | fd s => rw [eq_of_verdictOf h]; rfl
  | physicalMemory s => rw [eq_of_verdictOf h]; rfl

/-- No other tracker gives the reasons of a watch. -/
theorem eq_tracker_of_name {t : Tracker} (ht : t ∈ Tracker.fresh)
    (hname : giver w.reason = t.name) : t = w.tracker 0 none := by
  simp only [Tracker.fresh, List.mem_cons, List.not_mem_nil, or_false] at ht
  cases w <;> rcases ht with rfl | rfl | rfl | rfl | rfl <;> simp_all [tracker, giver, reason,
    Tracker.name]

theorem tracker_mem_fresh : w.tracker 0 none ∈ Tracker.fresh := by
  cases w <;> simp [tracker, Tracker.fresh]

end Watch

def PollOutcome.Gives (o : PollOutcome) (reason : Reason) : Prop :=
  ∃ d, o.decision? = some d ∧ reason ∈ d.reasons

namespace TriggerLoop

variable {settings : Settings} {v : View} {l : TriggerLoop} {reason : Reason} {w : Watch}

theorem gives_judge_iff {d : Decision} :
    (judge settings v d).Gives reason ↔ reason ∈ d.reasons := by
  rw [PollOutcome.Gives, decision?_judge]
  by_cases hnil : d.reasons = []
  · simp [hnil]
  · simp [hnil]

theorem gives_poll_iff : (l.poll settings v).outcome.Gives reason ↔
    ∃ current, l.read? v = some current ∧ reason ∈ (decisionOn settings current l).reasons := by
  rw [read?]
  cases hphase : l.phase with
  | stopped => simp [poll_of_stopped hphase, PollOutcome.Gives, PollOutcome.decision?]
  | terminated => simp [poll_of_terminated hphase, PollOutcome.Gives, PollOutcome.decision?]
  | running =>
      cases hreading : v.reading with
      | none => simp [poll_of_unread hphase hreading, PollOutcome.Gives, PollOutcome.decision?]
      | some current =>
          rw [poll_of_read hphase hreading, outcome_observe, gives_judge_iff]
          simp

theorem reason_mem_iff {reads : List Snapshot} (h : HasSeen settings.monitor {} reads l)
    (current : Snapshot) : w.reason ∈ (decisionOn settings current l).reasons ↔
      w.EndsOver settings.monitor (max 1 settings.monitor.maxOverThresholdCount) []
        (reads ++ [current]) := by
  rw [decisionOn_eq h, ← Watch.verdictAfter_eq_triggered_iff, List.mem_filterMap]
  constructor
  · rintro ⟨t, ht, hreason⟩
    have hverdict := Verdict.reason?_eq_some_iff.1 hreason
    have hname := Watch.giver_of_track hverdict
    rw [Tracker.name_alone] at hname
    rwa [← Watch.eq_tracker_of_name ht hname]
  · intro hverdict
    exact ⟨_, Watch.tracker_mem_fresh, Verdict.reason?_eq_some_iff.2 hverdict⟩

theorem HasSeen.start {m : Settings.Monitor} {reads : List Snapshot} (h : HasSeen m {} reads l)
    (primary : Bool) : HasSeen m {} reads (l.start primary).2 := by
  rw [start_eq]
  split
  · exact h.of_same rfl rfl
  · exact h

end TriggerLoop

namespace Session

variable {settings : Settings} {s : Session} {e : Event}

/-! ## What a run reads -/

/-- The snapshots that a run reads, up to when the loop last began to run and from then on. -/
structure Reads where
  earlier : List Snapshot := []
  recent : List Snapshot := []

def Reads.all (r : Reads) : List Snapshot := r.earlier ++ r.recent

def Event.read? (s : Session) : Event → Option Snapshot
  | .poll around => if s.loop.phase = .running then around.reading else none
  | _ => none

def Reads.note (settings : Settings) (s : Session) (r : Reads) (e : Event) : Reads :=
  if s.loop.phase ≠ .running ∧ (s.handle settings e).2.loop.phase = .running then ⟨r.all, []⟩
  else { r with recent := r.recent ++ (e.read? s).toList }

def reads (settings : Settings) : Session → Reads → List Event → Reads
  | _, r, [] => r
  | s, r, e :: events => reads settings (s.handle settings e).2 (r.note settings s e) events

theorem reads_snoc (r : Reads) (events : List Event) :
    reads settings s r (events ++ [e]) =
      (reads settings s r events).note settings (run settings s events) e := by
  induction events generalizing s r with
  | nil => rfl
  | cons first events ih => exact ih _

theorem read?_of_not_running (h : s.loop.phase ≠ .running) : e.read? s = none := by
  cases e <;> simp [Event.read?, h]

theorem all_note (r : Reads) : (r.note settings s e).all = r.all ++ (e.read? s).toList := by
  rw [Reads.note]
  split
  next hstarts =>
    rw [read?_of_not_running hstarts.1]
    rfl
  next => exact (List.append_assoc _ _ _).symm

theorem hasSeen_handle {reads : List Snapshot}
    (h : TriggerLoop.HasSeen settings.monitor {} reads s.loop) :
    TriggerLoop.HasSeen settings.monitor {} (reads ++ (e.read? s).toList)
      (s.handle settings e).2.loop := by
  have hunread {l : TriggerLoop} (hl : TriggerLoop.HasSeen settings.monitor {} reads l) :
      TriggerLoop.HasSeen settings.monitor {} (reads ++ []) l := by
    rwa [List.append_nil]
  cases e with
  | start primary nowMs => exact hunread (h.start primary)
  | stop =>
      apply hunread
      rw [loop_stop, TriggerLoop.stop_eq]
      split
      · exact h.of_same rfl rfl
      · exact h
  | background =>
      apply hunread
      rw [loop_background, TriggerLoop.background_eq]
      exact h.of_same rfl rfl
  | foreground primary nowMs =>
      apply hunread
      rw [loop_foreground, TriggerLoop.foreground_eq]
      split
      · have hforgets : TriggerLoop.HasSeen settings.monitor {} reads
            { s.loop with resumeOnForeground := false } := h.of_same rfl rfl
        exact hforgets.start primary
      · exact h
  | poll around =>
      have hpoll := h.poll (v := around.view s.ledger settings.general.appVersion)
      exact hpoll
  | ledgerChanged ledger => exact hunread h

theorem hasSeen_run (settings : Settings) (ledger : Ledger) (past : List Event) :
    TriggerLoop.HasSeen settings.monitor {} (reads settings { ledger } {} past).all
      (run settings { ledger } past).loop := by
  induction past using List.reverseRecOn with
  | nil => exact .nil _ _
  | append_singleton past e ih =>
      rw [reads_snoc, all_note, run_snoc]
      exact hasSeen_handle ih

def Event.isPoll : Event → Bool
  | .poll _ => true
  | _ => false

theorem length_reads_le (settings : Settings) (ledger : Ledger) (past : List Event) :
    (reads settings { ledger } {} past).all.length ≤ past.countP Event.isPoll := by
  induction past using List.reverseRecOn with
  | nil => exact Nat.le_refl 0
  | append_singleton past e ih =>
      have hread : (e.read? (run settings { ledger } past)).toList.length ≤
          [e].countP Event.isPoll := by
        cases e with
        | poll around => exact Option.length_toList_le
        | _ => exact Nat.le_refl 0
      rw [reads_snoc, all_note, List.length_append, List.countP_append]
      exact Nat.add_le_add ih hread

/-- No tracker has counted more than there were polls.  So the counts fit into words of 32 bits as
long as the polls do. -/
theorem count_run_le (settings : Settings) (ledger : Ledger) (past : List Event) :
    ∀ t ∈ (run settings { ledger } past).loop.trackers, t.count ≤ past.countP Event.isPoll := by
  intro t ht
  rw [(hasSeen_run settings ledger past).trackers] at ht
  obtain ⟨fresh, hfresh, rfl⟩ := List.mem_map.1 ht
  have hzero : fresh.count = 0 := by
    simp only [Tracker.fresh, List.mem_cons, List.not_mem_nil, or_false] at hfresh
    obtain rfl | rfl | rfl | rfl | rfl := hfresh <;> rfl
  have hcount : (fresh.alone settings.monitor none (reads settings { ledger } {} past).all).count ≤
      fresh.count + (reads settings { ledger } {} past).all.length := Tracker.count_alone_le _
  rw [hzero, Nat.zero_add] at hcount
  exact Nat.le_trans hcount (length_reads_le settings ledger past)

theorem gives_poll_iff (settings : Settings) (ledger : Ledger) (past : List Event)
    (around : Surroundings) (w : Watch) :
    ((run settings { ledger } past).poll settings around).outcome.Gives w.reason ↔
      (run settings { ledger } past).loop.phase = .running ∧ around.reading.isSome = true ∧
        w.EndsOver settings.monitor (max 1 settings.monitor.maxOverThresholdCount) []
          (reads settings { ledger } {} (past ++ [.poll around])).all := by
  rw [Session.poll, TriggerLoop.gives_poll_iff, reads_snoc, all_note]
  by_cases hrunning : (run settings { ledger } past).loop.phase = .running
  · simp only [TriggerLoop.read?, Event.read?, hrunning, if_true, Surroundings.view, true_and,
      TriggerLoop.reason_mem_iff (hasSeen_run settings ledger past)]
    cases around.reading <;> simp
  · simp [TriggerLoop.read?, hrunning]

/-- A reason shows exactly if the last snapshots of the whole life of the session were over the
limit in a row.  All of these were read since the session last began to run exactly if there were
as many. -/
theorem gives_poll_iff_row (settings : Settings) (ledger : Ledger) (past : List Event)
    (around : Surroundings) (w : Watch) :
    let s := run settings { ledger } past
    let m := settings.monitor
    let r := reads settings { ledger } {} (past ++ [.poll around])
    let gives := (s.poll settings around).outcome.Gives w.reason
    (gives ↔ s.loop.phase = .running ∧ around.reading.isSome = true ∧
      w.EndsOver m (max 1 m.maxOverThresholdCount) [] r.all) ∧
    (gives → (w.EndsOver m m.maxOverThresholdCount r.earlier r.recent ↔
      m.maxOverThresholdCount ≤ r.recent.length)) := by
  intro s m r gives
  have hgives := gives_poll_iff settings ledger past around w
  refine ⟨hgives, fun h ↦ ?_⟩
  obtain ⟨-, -, hrow⟩ := hgives.1 h
  exact Watch.endsOver_iff_of_all (hrow.mono (Nat.le_max_right _ _))

theorem reads_restart {past : List Event} (r : Reads)
    (h : (run settings s past).loop.phase = .running) :
    (run settings s (past ++ [.stop, .start true 0])).loop.phase = .running ∧
      reads settings s r (past ++ [.stop, .start true 0]) =
        ⟨(reads settings s r past).all, []⟩ := by
  have hsplit : past ++ [.stop, .start true 0] = (past ++ [.stop]) ++ [.start true 0] :=
    List.append_cons past _ _
  have hstopped : (run settings s (past ++ [.stop])).loop.phase = .stopped := by
    rw [run_snoc, loop_stop, TriggerLoop.stop_eq, if_pos h]
  have hstarted : (run settings s (past ++ [.stop, .start true 0])).loop.phase = .running := by
    rw [hsplit, run_snoc, loop_start, TriggerLoop.start_eq, if_pos ⟨rfl, hstopped⟩]
  refine ⟨hstarted, ?_⟩
  rw [hsplit, run_snoc] at hstarted
  have hstop : (reads settings s r (past ++ [.stop])).all = (reads settings s r past).all := by
    rw [reads_snoc, all_note]
    exact List.append_nil _
  rw [hsplit, reads_snoc, Reads.note, if_pos ⟨by simp [hstopped], hstarted⟩, hstop]

def crowd : Surroundings := ⟨0, some { takenAt := 0, threads := 3 }, [], [], true⟩

/-- A snapshot from before a stop counts for a reason that shows after the next start. -/
theorem reason_outlives_stop :
    ¬ ∀ (settings : Settings) (ledger : Ledger) (past : List Event) (around : Surroundings)
      (w : Watch), ((run settings { ledger } past).poll settings around).outcome.Gives w.reason →
        let m := settings.monitor
        let r := reads settings { ledger } {} (past ++ [.poll around])
        w.EndsOver m m.maxOverThresholdCount r.earlier r.recent := by
  intro h
  let settings := TriggerLoop.watchful
  let read : Snapshot := { takenAt := 0, threads := 3 }
  let past : List Event := [.start true 0] ++ [.poll crowd]
  have hpolled : (run settings { ledger := .empty } past).loop.phase = .running := by
    rw [run_snoc, loop_poll, Session.poll, TriggerLoop.phase_poll_of_disabled rfl]
    rfl
  have hfirst : (reads settings { ledger := .empty } {} past).all = [read] := by
    rw [reads_snoc, all_note]
    rfl
  obtain ⟨hstarted, hreads⟩ := reads_restart {} hpolled
  have hnote : reads settings { ledger := .empty } {}
      (past ++ [.stop, .start true 0] ++ [.poll crowd]) = ⟨[read], [read]⟩ := by
    rw [reads_snoc, hreads, hfirst, Reads.note, if_neg fun hrestarts ↦ hrestarts.1 hstarted]
    simp [Event.read?, hstarted, crowd, read]
  have hrow : Watch.threads.EndsOver settings.monitor 2 [] [read, read] :=
    ⟨[], [read, read], rfl, Nat.le_refl 2, rfl, rfl, trivial⟩
  have hgives : ((run settings { ledger := .empty } (past ++ [.stop, .start true 0])).poll settings
      crowd).outcome.Gives Watch.threads.reason := by
    rw [gives_poll_iff, hnote]
    exact ⟨hstarted, rfl, hrow⟩
  have hends := h settings .empty (past ++ [.stop, .start true 0]) crowd .threads
  have hcount := (hends hgives).le_length
  rw [hnote] at hcount
  exact absurd hcount (by decide)

end Session

end HeapSentry.Pressure
