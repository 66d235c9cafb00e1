import HeapSentry.Proofs.Pressure.Calls
import Mathlib.Data.List.Induction

/-!
# Trackers on their own

A running loop shows each snapshot that it reads to all trackers, together with the one that it read
before.  Whatever becomes of the polls, each tracker is where it would be had it been alone with
these snapshots.
-/

namespace HeapSentry.Pressure

/-- The last of some snapshots, or one from before them. -/
def latest (previous : Option Snapshot) (reads : List Snapshot) : Option Snapshot :=
  reads.getLast?.or previous

@[simp] theorem latest_nil (previous : Option Snapshot) : latest previous [] = previous := rfl

theorem latest_cons (previous : Option Snapshot) (first : Snapshot) (rest : List Snapshot) :
    latest previous (first :: rest) = latest (some first) rest := by
  cases rest <;> simp [latest, List.getLast?_cons]

@[simp] theorem latest_snoc (previous : Option Snapshot) (reads : List Snapshot) (s : Snapshot) :
    latest previous (reads ++ [s]) = some s := by
  simp [latest]

namespace Tracker

variable {m : Settings.Monitor} {previous : Option Snapshot} {t : Tracker}

/-- Shows snapshots to a single tracker, each with the one before it. -/
def alone (m : Settings.Monitor) : Option Snapshot → List Snapshot → Tracker → Tracker
  | _, [], t => t
  | previous, current :: rest, t => alone m (some current) rest (t.track m previous current).2

theorem alone_snoc (reads : List Snapshot) (current : Snapshot) :
    t.alone m previous (reads ++ [current]) =
      ((t.alone m previous reads).track m (latest previous reads) current).2 := by
  induction reads generalizing previous t with
  | nil => rfl
  | cons first rest ih =>
      rw [List.cons_append, alone, ih, latest_cons]
      rfl

theorem name_track (current : Snapshot) : (t.track m previous current).2.name = t.name := by
  cases t <;> rfl

theorem name_alone (reads : List Snapshot) : (t.alone m previous reads).name = t.name := by
  induction reads generalizing previous t with
  | nil => rfl
  | cons current rest ih => rw [alone, ih, name_track]

theorem count_record_le {α : Type} (s : Streak α) (pressing : Bool) (sample : α) :
    (s.record pressing sample).count ≤ s.count + 1 := by
  cases pressing with
  | true => exact Nat.le_refl _
  | false => exact Nat.zero_le _

theorem count_track_le (current : Snapshot) :
    (t.track m previous current).2.count ≤ t.count + 1 := by
  cases t with
  | heap s =>
      change (trackHeap m previous current s).2.count ≤ s.count + 1
      unfold trackHeap
      extract_lets rate grown threshold pressing
      split
      · exact Nat.le_refl _
      · split
        · exact Nat.le_refl _
        · exact count_record_le ..
  | thread s => exact count_record_le ..
  | fd s => exact count_record_le ..
  | physicalMemory s => exact count_record_le ..
  | heapVelocity rate => exact Nat.zero_le _

/-- A tracker counts no further than there are snapshots: what a new one counts fits into a word of
32 bits as long as their number does. -/
theorem count_alone_le (reads : List Snapshot) :
    (t.alone m previous reads).count ≤ t.count + reads.length := by
  induction reads generalizing previous t with
  | nil => exact Nat.le_refl _
  | cons current rest ih =>
      calc (t.alone m previous (current :: rest)).count
          ≤ (t.track m previous current).2.count + rest.length := ih
        _ ≤ t.count + 1 + rest.length := Nat.add_le_add_right (count_track_le current) _
        _ = t.count + (current :: rest).length := by rw [List.length_cons]; omega

/-- The verdict on a snapshot of a tracker that has been shown others before. -/
def verdictAfter (m : Settings.Monitor) (previous : Option Snapshot) (reads : List Snapshot)
    (current : Snapshot) (t : Tracker) : Verdict :=
  ((t.alone m previous reads).track m (latest previous reads) current).1

end Tracker

namespace TriggerLoop

variable {settings : Settings} {v : View} {l l' : TriggerLoop}

theorem decision?_judge (d : Decision) :
    (judge settings v d).decision? = if d.reasons = [] then none else some d := by
  unfold judge
  cases d.reasons with
  | nil => rfl
  | cons reason rest =>
      simp only [List.isEmpty_cons, Bool.false_eq_true, if_false, reduceCtorEq]
      split
      · rfl
      · split
        · rfl
        · split <;> rfl

def polls (settings : Settings) (l : TriggerLoop) (views : List View) : TriggerLoop :=
  views.foldl (fun l v ↦ (l.poll settings v).next) l

theorem polls_snoc (views : List View) (v : View) :
    polls settings l (views ++ [v]) = ((polls settings l views).poll settings v).next := by
  simp [polls]

/-- The trackers of `l'` and its last snapshot are what the snapshots make of those of `l`. -/
structure HasSeen (m : Settings.Monitor) (l : TriggerLoop) (reads : List Snapshot)
    (l' : TriggerLoop) : Prop where
  trackers : l'.trackers = l.trackers.map (Tracker.alone m l.last reads)
  last : l'.last = latest l.last reads

theorem HasSeen.nil (m : Settings.Monitor) (l : TriggerLoop) : HasSeen m l [] l where
  trackers := by simp [Tracker.alone]
  last := rfl

theorem HasSeen.of_same {m : Settings.Monitor} {reads : List Snapshot} {l'' : TriggerLoop}
    (h : HasSeen m l reads l') (htrackers : l''.trackers = l'.trackers)
    (hlast : l''.last = l'.last) : HasSeen m l reads l'' :=
  ⟨htrackers.trans h.trackers, hlast.trans h.last⟩

theorem HasSeen.observe {reads : List Snapshot} (h : HasSeen settings.monitor l reads l')
    (current : Snapshot) :
    HasSeen settings.monitor l (reads ++ [current]) (observe settings v current l').next := by
  obtain ⟨threadList, fdList, hnext⟩ := exists_next_observe settings v current l'
  rw [hnext]
  constructor
  · simp only [sweep, h.trackers, h.last, List.map_map]
    apply List.map_congr_left
    intro t _
    exact (Tracker.alone_snoc reads current).symm
  · simp

def read? (l : TriggerLoop) (v : View) : Option Snapshot :=
  if l.phase = .running then v.reading else none

theorem HasSeen.poll {reads : List Snapshot} (h : HasSeen settings.monitor l reads l') :
    HasSeen settings.monitor l (reads ++ (l'.read? v).toList) (l'.poll settings v).next := by
  by_cases hphase : l'.phase = .running
  · rw [read?, if_pos hphase]
    cases hreading : v.reading with
    | none => simpa [poll_of_unread hphase hreading] using h
    | some current =>
        rw [poll_of_read hphase hreading]
        exact h.observe current
  · obtain ⟨hnext, -⟩ | ⟨_, hrunning, -⟩ := poll_cases settings v l'
    · rw [read?, if_neg hphase, hnext]
      simpa using h
    · exact absurd hrunning hphase

theorem running_of_polls {views : List View}
    (h : (polls settings l (views ++ [v])).phase = .running) :
    (polls settings l views).phase = .running := by
  rw [polls_snoc, phase_poll] at h
  split at h
  · cases h
  · exact h

theorem hasSeen_polls {views : List View} (h : (polls settings l views).phase = .running) :
    HasSeen settings.monitor l (views.filterMap View.reading) (polls settings l views) := by
  induction views using List.reverseRecOn with
  | nil => exact .nil _ l
  | append_singleton views v ih =>
      have hrunning := running_of_polls h
      have hseen := (ih hrunning).poll (v := v)
      rw [read?, if_pos hrunning] at hseen
      rw [polls_snoc, List.filterMap_append]
      cases hreading : v.reading <;> simpa [hreading] using hseen

theorem decisionOn_eq {reads : List Snapshot} (h : HasSeen settings.monitor l reads l')
    (current : Snapshot) : decisionOn settings current l' =
      ⟨l.trackers.filterMap fun t ↦
        (t.verdictAfter settings.monitor l.last reads current).reason?⟩ := by
  simp only [decisionOn, sweep, h.trackers, h.last, List.map_map, List.filterMap_map]
  rfl

/-- While a loop runs its trackers do not notice each other.  After any polls, a poll leaves each
where the snapshots take it alone, and decides for the reasons of those that are triggered alone. -/
theorem poll_eq_trackers_alone (settings : Settings) (l : TriggerLoop)
    {heap memory : Streak Float} {threads fds : Streak Nat} {rate : Float}
    (htrackers : l.trackers =
      [.heap heap, .thread threads, .fd fds, .physicalMemory memory, .heapVelocity rate])
    (views : List View) (hrunning : (polls settings l views).phase = .running) (v : View) :
    let m := settings.monitor
    let before := views.filterMap View.reading
    let reads := before ++ v.reading.toList
    let result := (polls settings l views).poll settings v
    result.next.trackers =
      [.alone m l.last reads (.heap heap), .alone m l.last reads (.thread threads),
        .alone m l.last reads (.fd fds), .alone m l.last reads (.physicalMemory memory),
        .alone m l.last reads (.heapVelocity rate)] ∧
    result.next.last = latest l.last reads ∧
    (v.reading = none → result.outcome = .probeFailed) ∧
    ∀ current, v.reading = some current →
      let reasons := [Tracker.heap heap, .thread threads, .fd fds, .physicalMemory memory,
        .heapVelocity rate].filterMap fun t ↦ (t.verdictAfter m l.last before current).reason?
      result.outcome.decision? = if reasons = [] then none else some ⟨reasons⟩ := by
  intro m before reads result
  have hseen := hasSeen_polls hrunning
  have hnext := hseen.poll (v := v)
  rw [read?, if_pos hrunning] at hnext
  refine ⟨?_, hnext.last, ?_, ?_⟩
  · rw [hnext.trackers, htrackers]
    rfl
  · intro hreading
    simp [result, poll_of_unread hrunning hreading]
  · intro current hreading
    have houtcome : result.outcome =
        judge settings v (decisionOn settings current (polls settings l views)) := by
      rw [← outcome_observe, ← poll_of_read hrunning hreading]
    rw [houtcome, decision?_judge, decisionOn_eq hseen, htrackers]

theorem phase_poll_of_disabled (hdisabled : settings.monitor.enableDumpAnalysis = false) (v : View)
    (l : TriggerLoop) : (l.poll settings v).next.phase = l.phase := by
  rw [phase_poll, if_neg]
  rw [PollOutcome.isTrigger_iff]
  rintro ⟨d, htriggered⟩
  obtain ⟨-, -, -, henabled, -⟩ := poll_eq_triggered_iff.1 htriggered
  rw [hdisabled] at henabled
  cases henabled

theorem phase_polls_of_disabled (hdisabled : settings.monitor.enableDumpAnalysis = false)
    (views : List View) : (polls settings l views).phase = l.phase := by
  induction views using List.reverseRecOn with
  | nil => rfl
  | append_singleton views v ih => rw [polls_snoc, phase_poll_of_disabled hdisabled, ih]

/-- Three threads are too many, but they are only watched. -/
def watchful : Settings :=
  { monitor := { threadThreshold := 2, maxOverThresholdCount := 2, enableDumpAnalysis := false } }

def crowded (takenAt : Nat) : View := ⟨0, some { takenAt, threads := 3 }, [], [], 0, none, true⟩

/-- A poll that fails does not come between the snapshots of the polls around it. -/
theorem poll_crowded_alone :
    let views := [crowded 0, { crowded 1 with reading := none }]
    let l := polls watchful { phase := .running } views
    l.phase = .running ∧
      (l.poll watchful (crowded 2)).next.trackers[1]? = some (.thread ⟨2, 3⟩) := by
  intro views l
  have hrunning : l.phase = .running := phase_polls_of_disabled rfl views
  obtain ⟨htrackers, -⟩ :=
    poll_eq_trackers_alone watchful { phase := .running } rfl views hrunning (crowded 2)
  refine ⟨hrunning, ?_⟩
  rw [htrackers]
  rfl

end TriggerLoop

end HeapSentry.Pressure
