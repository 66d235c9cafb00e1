import HeapSentry.Proofs.Pressure.Rows

/-!
# Forced polls

A heap that is nearly full or grew much is a reason at once, without any counting.  Such a poll is
counted all the same: it makes the row longer that a heap has to be over its threshold, even where
the heap is not over it.
-/

namespace HeapSentry.Pressure

namespace HeapWatch

variable {m : Settings.Monitor} {previous : Option Snapshot} {reads : List Snapshot}
  {current : Snapshot}

/-- The share of the heap that is in use. -/
def share (s : Snapshot) : Float := s.heap.rate.toFloat

/-- Whether the heap is over its threshold, and has not fallen far since the snapshot before. -/
def isPressing (m : Settings.Monitor) (previous : Option Snapshot) (current : Snapshot) : Bool :=
  share current > (m.heapThresholdFor current.heap.max).toFloat &&
    share current ≥ previous.elim 0.0 share - heapRateGap

/-- How many bytes more are in use than at the snapshot before. -/
def growth (previous : Option Snapshot) (current : Snapshot) : Nat :=
  previous.elim 0 fun p ↦ current.heap.used - p.heap.used

/-- Whether the heap is nearly full or grew much since the snapshot before. -/
def isForced (m : Settings.Monitor) (previous : Option Snapshot) (current : Snapshot) : Bool :=
  share current > m.forceDumpHeapMaxThreshold.toFloat ||
    growth previous current > m.forceDumpHeapDeltaThresholdKb * 1024

def isCounted (m : Settings.Monitor) (previous : Option Snapshot) (current : Snapshot) : Bool :=
  isForced m previous current || isPressing m previous current

/-- The limit on the growth in bytes fits into a word of 64 bits just for settings below `2 ^ 54`. -/
theorem toNat_growthLimit_iff (m : Settings.Monitor) :
    (UInt64.ofNat m.forceDumpHeapDeltaThresholdKb * 1024).toNat =
        m.forceDumpHeapDeltaThresholdKb * 1024 ↔
      m.forceDumpHeapDeltaThresholdKb < 2 ^ 54 := by
  rw [UInt64.toNat_mul, UInt64.toNat_ofNat']
  change _ * 1024 % 2 ^ 64 = _ ↔ _
  omega

/-- With such settings words are compared as the numbers are. -/
theorem growth_gt_iff_words (hused : current.heap.used < 2 ^ 64)
    (hlimit : m.forceDumpHeapDeltaThresholdKb < 2 ^ 54) :
    growth previous current > m.forceDumpHeapDeltaThresholdKb * 1024 ↔
      UInt64.ofNat (growth previous current) >
        UInt64.ofNat m.forceDumpHeapDeltaThresholdKb * 1024 := by
  have hgrowth : growth previous current < 2 ^ 64 := by
    cases previous with
    | none => exact Nat.two_pow_pos 64
    | some p => exact Nat.lt_of_le_of_lt (Nat.sub_le _ _) hused
  rw [gt_iff_lt, gt_iff_lt, UInt64.lt_iff_toNat_lt, (toNat_growthLimit_iff m).2 hlimit,
    UInt64.toNat_ofNat_of_lt' hgrowth]

def tracker (count : Nat) (last : Option Snapshot) : Tracker := .heap ⟨count, last.elim 0.0 share⟩

theorem trackHeap_eq (s : Streak Float) : trackHeap m previous current s =
    if share current > m.forceDumpHeapMaxThreshold.toFloat then
      (.triggered .highWatermark, s.extend (share current))
    else if growth previous current > m.forceDumpHeapDeltaThresholdKb * 1024 then
      (.triggered .hugeDelta, s.extend (share current))
    else debounce s (share current > (m.heapThresholdFor current.heap.max).toFloat &&
      share current ≥ s.last - heapRateGap) (share current) m.maxOverThresholdCount .heapOom := by
  cases previous <;> rfl

theorem track_of_forced (h : isForced m previous current = true) (count : Nat) :
    ∃ reason, reason ≠ .heapOom ∧ (tracker count previous).track m previous current =
      (.triggered reason, tracker (count + 1) (some current)) := by
  simp only [tracker, Tracker.track, trackHeap_eq]
  by_cases hfull : share current > m.forceDumpHeapMaxThreshold.toFloat
  · rw [if_pos hfull]
    exact ⟨.highWatermark, by decide, rfl⟩
  · have hgrown : growth previous current > m.forceDumpHeapDeltaThresholdKb * 1024 := by
      simpa [isForced, hfull] using h
    rw [if_neg hfull, if_pos hgrown]
    exact ⟨.hugeDelta, by decide, rfl⟩

theorem track_of_not_forced (h : isForced m previous current = false) (count : Nat) :
    (tracker count previous).track m previous current =
      if isPressing m previous current = true then
        (if m.maxOverThresholdCount ≤ count + 1 then .triggered .heapOom else .counting,
          tracker (count + 1) (some current))
      else (.quiet, tracker 0 (some current)) := by
  obtain ⟨hfull, hgrown⟩ := Bool.or_eq_false_iff.1 h
  simp only [tracker, Tracker.track, trackHeap_eq]
  rw [if_neg (of_decide_eq_false hfull), if_neg (of_decide_eq_false hgrown), Watch.debounce_eq,
    apply_ite (Prod.map id Tracker.heap)]
  rfl

theorem count_track (count : Nat) : ((tracker count previous).track m previous current).2 =
    tracker (if isCounted m previous current = true then count + 1 else 0) (some current) := by
  cases hforced : isForced m previous current with
  | true =>
      obtain ⟨reason, -, htrack⟩ := track_of_forced hforced count
      rw [htrack, isCounted, hforced, Bool.true_or, if_pos rfl]
  | false =>
      rw [track_of_not_forced hforced, isCounted, hforced, Bool.false_or]
      split <;> rfl

theorem alone_tracker (reads : List Snapshot) :
    (tracker 0 none).alone m none reads = tracker (lastRow (isCounted m) reads) reads.getLast? := by
  induction reads using List.reverseRecOn with
  | nil => rfl
  | append_singleton reads current ih =>
      rw [Tracker.alone_snoc, latest_none, ih, count_track, lastRow_snoc, List.getLast?_concat]

/-- The reason that asks for a row of polls shows after a row of polls each of which was over the
threshold or forced.  So many polls were over the threshold exactly if the poll right before them
was not forced. -/
theorem heapOom_iff_row (m : Settings.Monitor) (reads : List Snapshot) (current : Snapshot) :
    let polls := reads ++ [current]
    let row := lastRow (isCounted m) polls
    let result := (((Tracker.heap ⟨0, 0.0⟩).alone m none reads).track m reads.getLast? current)
    result.2 = (Tracker.heap ⟨0, 0.0⟩).alone m none polls ∧
    result.2.count = row ∧ result.2.last = share current ∧
    (result.1 = .triggered .heapOom ↔ isForced m reads.getLast? current = false ∧
      isPressing m reads.getLast? current = true ∧ m.maxOverThresholdCount ≤ row) ∧
    (row = lastRow (isPressing m) polls ↔ ∀ before failing after,
      polls = before ++ failing :: after → after.length = lastRow (isPressing m) polls →
        isForced m before.getLast? failing = false) := by
  intro polls row result
  have hresult : result = (tracker (lastRow (isCounted m) reads) reads.getLast?).track m
      reads.getLast? current := by rw [← alone_tracker]; rfl
  have hnext : result.2 = tracker row (some current) := by
    rw [hresult, count_track, ← lastRow_snoc]
  have hrow : row = if isCounted m reads.getLast? current = true then
      lastRow (isCounted m) reads + 1 else 0 := lastRow_snoc
  refine ⟨?_, by rw [hnext]; rfl, by rw [hnext]; rfl, ?_, lastRow_or_eq_iff⟩
  · change _ = (tracker 0 none).alone m none (reads ++ [current])
    rw [alone_tracker, List.getLast?_concat, hnext]
  · cases hforced : isForced m reads.getLast? current with
    | true =>
        obtain ⟨reason, hreason, htrack⟩ := track_of_forced hforced (lastRow (isCounted m) reads)
        rw [hresult, htrack]
        simp [hreason]
    | false =>
        rw [hresult, track_of_not_forced hforced, hrow, isCounted, hforced, Bool.false_or]
        by_cases hpressing : isPressing m reads.getLast? current = true
        · simp [hpressing]
        · simp [hpressing]

/-! ## A heap that grows below its threshold -/

theorem compare_self (x : Float.Model.UnpackedFloat) :
    x.compare x = none ∨ x.compare x = some .eq := by
  cases x with
  | notANumber => exact .inl rfl
  | infinity sign => cases sign <;> exact .inr rfl
  | zero sign => cases sign <;> exact .inr rfl
  | finite sign significand exponent =>
      have hself : (compare exponent exponent).then (compare significand significand) = .eq := by
        simp
      cases sign with
      | positive => exact .inr (congrArg some hself)
      | negative => exact .inr (congrArg (fun order : Ordering ↦ some order.swap) hself)

theorem not_lt_self (x : Float) : ¬ x < x := by
  intro h
  have hless : (x.toModel.unpack.compare x.toModel.unpack == some .lt) = true := of_decide_eq_true h
  obtain hnone | heq := compare_self x.toModel.unpack
  · simp [hnone] at hless
  · simp [heq] at hless

def growing : Settings.Monitor :=
  { heapThreshold := some 0.5, forceDumpHeapDeltaThresholdKb := 1, maxOverThresholdCount := 2 }

/-- A heap of a million bytes. -/
def usedBytes (used : Nat) : Snapshot := { takenAt := 0, heap := .ofUsed 1000000 used }

/-- The row that is counted is not only of polls over the threshold. -/
theorem heapOom_row_not_only_pressing :
    ¬ ∀ (m : Settings.Monitor) (reads : List Snapshot) (current : Snapshot),
      let row := lastRow (isPressing m) (reads ++ [current])
      let result := (((Tracker.heap ⟨0, 0.0⟩).alone m none reads).track m reads.getLast? current)
      result.2.count = row ∧ (result.1 = .triggered .heapOom → m.maxOverThresholdCount ≤ row) := by
  intro h
  obtain ⟨hcount, -⟩ := h growing [usedBytes 100000] (usedBytes 500000)
  have hforced : isForced growing (some (usedBytes 100000)) (usedBytes 500000) = true :=
    Bool.or_eq_true_iff.2 (.inr (decide_eq_true (by decide)))
  have hrate : (usedBytes 500000).heap.rate = 0.5 := by decide +kernel
  have hpressing : isPressing growing (some (usedBytes 100000)) (usedBytes 500000) = false := by
    have hshare : ¬ share (usedBytes 500000) > (0.5 : Float32).toFloat := by
      rw [share, hrate]
      exact not_lt_self _
    exact Bool.and_eq_false_iff.2 (.inl (decide_eq_false hshare))
  have hrow : lastRow (isPressing growing) ([usedBytes 100000] ++ [usedBytes 500000]) = 0 := by
    rw [lastRow_snoc, List.getLast?_singleton, hpressing, if_neg Bool.false_ne_true]
  rw [hrow, show Tracker.heap ⟨0, 0.0⟩ = tracker 0 none from rfl, alone_tracker,
    List.getLast?_singleton, count_track, isCounted, hforced, Bool.true_or, if_pos rfl] at hcount
  exact Nat.succ_ne_zero _ hcount

end HeapWatch

end HeapSentry.Pressure
