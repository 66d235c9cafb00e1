import HeapSentry.Proofs.Lists
import HeapSentry.Proofs.Pressure.Debouncing

/-!
# Rows of polls

A poll is of some kind by its snapshot and the one before it.  A tracker that asks for several polls
of a kind in a row has to know how many of the last polls were of that kind.  The trackers of counts
and of the device memory know it after every poll, whether the poll before was counted or not.
-/

namespace HeapSentry.Pressure

variable {kind other : Option Snapshot → Snapshot → Bool} {previous : Option Snapshot}
  {reads : List Snapshot} {current : Snapshot}

/-- Which polls of some snapshots are of a kind. -/
def marks (kind : Option Snapshot → Snapshot → Bool) : Option Snapshot → List Snapshot → List Bool
  | _, [] => []
  | previous, current :: rest => kind previous current :: marks kind (some current) rest

/-- How many of the last polls in a row were of a kind. -/
def lastRow (kind : Option Snapshot → Snapshot → Bool) (reads : List Snapshot) : Nat :=
  ((marks kind none reads).reverse.takeWhile id).length

theorem marks_snoc : marks kind previous (reads ++ [current]) =
    marks kind previous reads ++ [kind (latest previous reads) current] := by
  induction reads generalizing previous with
  | nil => rfl
  | cons first rest ih =>
      rw [List.cons_append, marks, ih, latest_cons]
      rfl

theorem latest_none (reads : List Snapshot) : latest none reads = reads.getLast? := Option.or_none

@[simp] theorem lastRow_nil : lastRow kind [] = 0 := rfl

theorem lastRow_snoc : lastRow kind (reads ++ [current]) =
    if kind reads.getLast? current = true then lastRow kind reads + 1 else 0 := by
  rw [lastRow, marks_snoc, latest_none, List.reverse_append]
  cases hkind : kind reads.getLast? current <;> simp [lastRow]

/-- Polls of another kind lengthen a row only if the poll right before it is one of them. -/
theorem lastRow_or_eq_iff :
    lastRow (fun p c ↦ other p c || kind p c) reads = lastRow kind reads ↔
      ∀ before failing after, reads = before ++ failing :: after →
        after.length = lastRow kind reads → other before.getLast? failing = false := by
  induction reads using List.reverseRecOn with
  | nil => simp
  | append_singleton reads current ih =>
      rw [lastRow_snoc, lastRow_snoc]
      cases hkind : kind reads.getLast? current with
      | true =>
          rw [Bool.or_true, if_pos rfl, if_pos rfl, Nat.succ_inj, ih]
          constructor
          · intro h before failing after hsplit hlength
            obtain ⟨-, -, rfl⟩ | ⟨after', rfl, hreads⟩ := snoc_eq_append_cons hsplit
            · cases hlength
            · rw [List.length_append, List.length_singleton] at hlength
              exact h before failing after' hreads (Nat.succ.inj hlength)
          · intro h before failing after hreads hlength
            refine h before failing (after ++ [current]) ?_ ?_
            · rw [hreads, List.append_assoc, List.cons_append]
            · rw [List.length_append, List.length_singleton, hlength]
      | false =>
          rw [Bool.or_false, if_neg Bool.false_ne_true]
          constructor
          · intro h before failing after hsplit hlength
            obtain rfl := List.length_eq_zero_iff.1 hlength
            obtain ⟨rfl, hlast⟩ := List.append_inj' hsplit rfl
            obtain rfl := List.singleton_inj.1 hlast
            refine Bool.eq_false_iff.2 fun hother ↦ ?_
            rw [if_pos hother] at h
            cases h
          · intro h
            rw [h reads current [] rfl rfl, if_neg Bool.false_ne_true]

/-! ## Counts and device memory -/

namespace Watch

/-- What a watch looks at. -/
def sample (s : Snapshot) : Watch → Float
  | .threads => (UInt64.ofNat s.threads).toFloat
  | .fds => (UInt64.ofNat s.fds).toFloat
  | .device => s.device.rate.toFloat

theorem last_tracker (w : Watch) (count : Nat) :
    (w.tracker count (some current)).last = w.sample current := by
  cases w <;> rfl

theorem streak_eq_lastRow (m : Settings.Monitor) (w : Watch) (reads : List Snapshot) :
    w.streak m reads = lastRow (w.isOver m) reads := by
  induction reads using List.reverseRecOn with
  | nil => exact count_tracker 0 none
  | append_singleton reads current ih => rw [streak_snoc, lastRow_snoc, ih]

/-- After each poll a new tracker has counted the polls over the limit that end there in a row, and
keeps the sample of the poll.  It tells whether the poll was over the limit, and is triggered if it
was and there are enough such polls. -/
theorem track_counts_row (m : Settings.Monitor) (w : Watch) (reads : List Snapshot)
    (current : Snapshot) :
    let counted := w.isOver m reads.getLast? current
    let row := lastRow (w.isOver m) (reads ++ [current])
    let result := ((w.tracker 0 none).alone m none reads).track m reads.getLast? current
    w.tracker 0 none ∈ Tracker.fresh ∧
    result.2 = (w.tracker 0 none).alone m none (reads ++ [current]) ∧
    result.2.count = row ∧ result.2.last = w.sample current ∧ result.1.isOver = counted ∧
    ∀ reason, result.1 = .triggered reason ↔
      reason = w.reason ∧ counted = true ∧ m.maxOverThresholdCount ≤ row := by
  intro counted row result
  have hresult : result = (w.tracker (w.streak m reads) reads.getLast?).track m reads.getLast?
      current := by rw [← alone_tracker]
  have hnext : result.2 = (w.tracker 0 none).alone m none (reads ++ [current]) := by
    rw [Tracker.alone_snoc, latest_none]
  have hrow : row = if counted = true then w.streak m reads + 1 else 0 := by
    rw [streak_eq_lastRow]
    exact lastRow_snoc
  rw [track_tracker] at hresult
  refine ⟨tracker_mem_fresh, hnext, ?_⟩
  by_cases hover : counted = true
  · rw [if_pos hover] at hresult hrow
    rw [hresult, hrow]
    refine ⟨count_tracker _ _, last_tracker w _, ?_, fun reason ↦ ?_⟩
    · rw [hover]
      split <;> rfl
    · by_cases henough : m.maxOverThresholdCount ≤ w.streak m reads + 1
      · simp [henough, hover, eq_comm]
      · simp [henough]
  · rw [if_neg hover] at hresult hrow
    rw [hresult, hrow]
    refine ⟨count_tracker _ _, last_tracker w _, ?_, fun reason ↦ ?_⟩
    · exact (Bool.eq_false_iff.2 hover).symm
    · simp [hover]

end Watch

end HeapSentry.Pressure
