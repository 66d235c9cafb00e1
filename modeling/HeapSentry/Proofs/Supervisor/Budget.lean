import HeapSentry.Proofs.Supervisor.Lifetimes
import HeapSentry.Proofs.Supervisor.Stages

/-!
# The budget of a version

A poll orders a dump only while the version was not analysed too often.  An analysis that an earlier
run left behind is taken up without asking, and is counted all the same.  So the count is held by
the budget and the number of analyses that were taken up again.
-/

namespace HeapSentry

namespace Storage.Ledger

variable {version : String} {change : LedgerEntry → LedgerEntry} {n : Nat}

theorem analysisCount_update_le (l : Ledger)
    (h : ∀ e, (change e).analysisCount ≤ e.analysisCount + n) :
    (l.update version change).analysisCount version ≤ l.analysisCount version + n := by
  obtain ⟨entries⟩ := l
  simp only [analysisCount, entry, update]
  induction entries with
  | nil =>
      rw [updateEntries, List.lookup_cons_self]
      exact h {}
  | cons kept rest ih =>
      obtain ⟨v, e⟩ := kept
      rw [updateEntries]
      by_cases hlt : version < v
      · rw [if_pos hlt, List.lookup_cons_self]
        exact Nat.le_trans (h {}) (Nat.add_le_add_right (Nat.zero_le _) n)
      · rw [if_neg hlt]
        by_cases heq : v = version
        · subst heq
          rw [if_pos rfl, List.lookup_cons_self, List.lookup_cons_self]
          exact h e
        · have hne : (version == v) = false := beq_eq_false_iff_ne.2 (Ne.symm heq)
          rw [if_neg heq, List.lookup_cons, List.lookup_cons, hne]
          exact ih

theorem analysisCount_increment_le (l : Ledger) (version : String) :
    (l.increment version).analysisCount version ≤ l.analysisCount version + 1 :=
  l.analysisCount_update_le fun _ ↦ Nat.le_refl _

theorem analysisCount_recordLaunch_le (l : Ledger) (version : String) (nowMs : Int) :
    (l.recordLaunch version nowMs).analysisCount version ≤ l.analysisCount version := by
  have hsame (e : LedgerEntry) : { e with firstLaunchMs := e.firstLaunchMs <|> some (epochMs nowMs)
    : LedgerEntry }.analysisCount ≤ e.analysisCount + 0 := Nat.le_refl _
  exact l.analysisCount_update_le hsame

end Storage.Ledger

namespace Supervisor

open Pressure Storage

/-! ## The count in the memory -/

/-- Whether an analysis was counted. -/
def Moment.counts (m : Moment) : Bool := m.request matches .countAnalysis

/-- Whether an analysis was counted that an earlier run left. -/
def Moment.recounts (m : Moment) : Bool := m.counts && m.origin.reanalyzes

/-- How many analyses of earlier runs were taken up and counted. -/
def recoveries (history : List Moment) : Nat := history.countP Moment.recounts

theorem recoveries_snoc (history : List Moment) (m : Moment) :
    recoveries (history ++ [m]) = recoveries history + if m.recounts then 1 else 0 := by
  rw [recoveries, List.countP_append, List.countP_singleton]
  rfl

/-- How often a version was analysed, as far as the memory tells. -/
def World.analyses (w : World) (version : String) : Nat :=
  w.memory.session.ledger.analysisCount version

variable {settings : Settings} {w w' : World} {r : Request} {answer : Answer r}

theorem World.analyses_perform_le (hw : w.perform settings r = (answer, w')) (i : Nat)
    (o : Origin) :
    w'.analyses settings.general.appVersion ≤ w.analyses settings.general.appVersion +
      if (Moment.mk i o r answer).counts then 1 else 0 := by
  obtain rfl : _ = w' := congrArg Prod.snd hw
  have hlaunched (nowMs : Int) (started : Bool × TriggerLoop) :
      (w.memory.session.launched settings.general.appVersion nowMs
        started).2.ledger.analysisCount settings.general.appVersion ≤
        w.analyses settings.general.appVersion := by
    rw [Session.launched]
    split
    · exact Ledger.analysisCount_recordLaunch_le _ _ nowMs
    · exact Nat.le_refl _
  cases r with
  | start primary nowMs => exact hlaunched nowMs _
  | foreground primary nowMs => exact hlaunched nowMs _
  | dumpHeap path =>
      rw [World.analyses, World.perform, w.memory_dumpHeap]
      exact Nat.le_refl _
  | countAnalysis => exact Ledger.analysisCount_increment_le _ _
  | _ => exact Nat.le_refl _

/-- A poll triggers only within the budget. -/
theorem World.analyses_lt_of_poll {nowMs : Int} {outcome : PollOutcome}
    (hdebug : settings.general.debug = false)
    (hw : w.perform settings (.poll nowMs) = (outcome, w')) (h : outcome.isTrigger = true) :
    w.analyses settings.general.appVersion < settings.limits.analysisMaxTimesPerVersion := by
  obtain rfl : _ = outcome := congrArg Prod.fst hw
  obtain ⟨d, hd⟩ := PollOutcome.isTrigger_iff.1 h
  obtain ⟨-, -, -, -, hlimits, -⟩ := TriggerLoop.poll_eq_triggered_iff.1 hd
  obtain hbypassed | ⟨hcount, -⟩ := TriggerLoop.rateLimited_eq_false_iff.1 hlimits
  · rw [hdebug] at hbypassed
    cases hbypassed
  · exact hcount

/-! ## What a run keeps -/

variable {setup : Setup} {o : Origin} {duty duty' : Duty} {p p' : Play (duties setup)} {move : Move}

/-- The memory counts no more analyses than it began with and were counted since. -/
def Play.CountsAll (p : Play (duties setup)) (begun : Nat) : Prop :=
  p.world.analyses setup.version ≤ begun + p.history.countP Moment.counts

theorem Play.CountsAll.step {begun : Nat} (h : p.CountsAll begun) (hstep : p.Step setup move p') :
    p'.CountsAll begun := by
  cases hstep with
  | @ask i o duty duty' r answer world hpart hduty hw =>
      have hgrows : world.analyses setup.version ≤ p.world.analyses setup.version +
          if (Moment.mk i o r answer).counts then 1 else 0 := World.analyses_perform_le hw i o
      change world.analyses setup.version ≤ begun + (p.history ++ [_]).countP Moment.counts
      rw [List.countP_append, List.countP_singleton, ← Nat.add_assoc]
      exact Nat.le_trans hgrows (Nat.add_le_add_right h _)
  | _ => exact h

/-- The dump was ordered, or a thread is about to order it. -/
def Play.IsOrdering (p : Play (duties setup)) : Prop :=
  p.world.memory.launched = true ∨ ∃ part ∈ p.cast, part.2 = Duty.triggered

/-- A thread comes to order the dump only from a poll within the budget. -/
theorem Duty.Step.ordering (h : Duty.Step setup o duty r answer duty')
    (hdebug : setup.settings.general.debug = false)
    (hw : w.perform setup.settings r = (answer, w'))
    (hordering : w'.memory.launched = true ∨ duty' = .triggered) :
    w.memory.launched = true ∨ duty = .triggered ∨
      w.analyses setup.version < setup.settings.limits.analysisMaxTimesPerVersion := by
  cases h with
  | plain hplain =>
      obtain ⟨session, generation, tasks, hmemory, -⟩ := World.memory_plain hplain hw
      rw [hmemory] at hordering
      exact hordering.imp id .inl
  | claimLaunch => exact .inr (.inl rfl)
  | @poll _ nowMs outcome =>
      cases htrigger : outcome.isTrigger with
      | true => exact .inr (.inr (World.analyses_lt_of_poll hdebug hw htrigger))
      | false =>
          obtain rfl : _ = w' := congrArg Prod.snd hw
          rw [htrigger] at hordering
          exact .inl (hordering.resolve_right fun h ↦ nomatch h)
  | @claimRecovery _ granted =>
      obtain rfl : _ = w' := congrArg Prod.snd hw
      refine .inl (hordering.resolve_right fun h ↦ ?_)
      cases granted <;> cases h
  | @dump _ path =>
      obtain rfl : _ = w' := congrArg Prod.snd hw
      have hsame := congrArg Memory.launched (w.memory_dumpHeap path)
      exact .inl (hsame.symm.trans (hordering.resolve_right fun h ↦ nomatch h))
  | _ =>
      obtain rfl : _ = w' := congrArg Prod.snd hw
      exact .inl (hordering.resolve_right fun h ↦ nomatch h)

/-- The count stays within the budget, apart from analyses that were taken up again. -/
structure Play.KeepsBudget (p : Play (duties setup)) (budget : Nat) : Prop where
  before : (Stock.before .counted).total p ≤ 1
  count : p.world.analyses setup.version ≤ budget + recoveries p.history
  /-- Once the dump is ordered, there is room for its analysis until that is counted. -/
  room : p.IsOrdering → (Stock.before .counted).spentIn p.history = 0 →
    p.world.analyses setup.version < budget + recoveries p.history

theorem Duty.opening_ne_triggered (o : Origin) : Duty.opening o ≠ .triggered := by
  cases o with
  | call c =>
      cases c with
      | foreground inRuntime => cases inRuntime <;> exact Duty.noConfusion
      | _ => exact Duty.noConfusion
  | task t => cases t <;> exact Duty.noConfusion

theorem Play.IsOrdering.of_enter (h : (p.enter o).IsOrdering) : p.IsOrdering := by
  refine h.imp id ?_
  rintro ⟨part, hpart, htriggered⟩
  obtain hold | rfl := Play.mem_enter.1 hpart
  · exact ⟨part, hold, htriggered⟩
  · exact absurd htriggered (Duty.opening_ne_triggered o)

theorem Play.IsOrdering.of_answered {i : Nat}
    (h : (p.answered i o duty' w' r answer).IsOrdering) :
    (w'.memory.launched = true ∨ duty' = .triggered) ∨ p.IsOrdering := by
  obtain hlaunched | ⟨part, hpart, htriggered⟩ := h
  · exact .inl (.inl hlaunched)
  · obtain hold | rfl := Play.mem_answered hpart
    · exact .inr (.inr ⟨part, hold, htriggered⟩)
    · exact .inl (.inr htriggered)

variable {budget : Nat}

/-- A step that counts no analysis of the dump leaves as much room as there was. -/
theorem Play.KeepsBudget.answered (h : p.KeepsBudget budget)
    (hbudget : setup.settings.limits.analysisMaxTimesPerVersion ≤ budget)
    (hdebug : setup.settings.general.debug = false) {i : Nat}
    (hpart : p.cast[i]? = some (o, duty)) (hduty : Duty.Step setup o duty r answer duty')
    (hw : p.world.perform setup.settings r = (answer, w'))
    (hcounts : (Moment.mk i o r answer).counts = true → o.reanalyzes = true) :
    w'.analyses setup.version ≤
        budget + recoveries (p.history ++ [⟨i, o, r, answer⟩]) ∧
      ((p.answered i o duty' w' r answer).IsOrdering →
        (Stock.before .counted).spentIn p.history = 0 →
          w'.analyses setup.version < budget + recoveries (p.history ++ [⟨i, o, r, answer⟩])) := by
  have hcount := h.count
  have hgrows : w'.analyses setup.version ≤ p.world.analyses setup.version +
      if (Moment.mk i o r answer).recounts then 1 else 0 := by
    have hle : w'.analyses setup.version ≤ p.world.analyses setup.version +
        if (Moment.mk i o r answer).counts then 1 else 0 := World.analyses_perform_le hw i o
    cases hc : (Moment.mk i o r answer).counts with
    | false => simpa [Moment.recounts, hc] using hle
    | true => simpa [Moment.recounts, hc, hcounts hc] using hle
  rw [recoveries_snoc]
  refine ⟨by omega, fun hordering hspent ↦ ?_⟩
  have hroom : p.world.analyses setup.version < budget + recoveries p.history := by
    obtain hnow | hbefore := hordering.of_answered
    · obtain hlaunched | rfl | hlt := hduty.ordering hdebug hw hnow
      · exact h.room (.inl hlaunched) hspent
      · exact h.room (.inr ⟨_, List.mem_of_getElem? hpart, rfl⟩) hspent
      · omega
    · exact h.room hbefore hspent
  omega

/-- Counting the analysis of the dump takes the room that was left for it. -/
theorem Play.KeepsBudget.counted (h : p.KeepsBudget budget) {i : Nat} {ledger : Ledger}
    (hpart : p.cast[i]? = some (o, duty))
    (hduty : Duty.Step setup o duty .countAnalysis ledger duty') (ho : o.reanalyzes = false)
    (hw : p.world.perform setup.settings .countAnalysis = (ledger, w')) :
    w'.analyses setup.version ≤ budget + recoveries p.history := by
  have htoken : 1 ≤ (Stock.before .counted).duty duty := by
    cases hduty with
    | plain hplain => exact hplain.elim
    | count => exact Nat.le_refl 1
    | countFlushed => exact Nat.le_add_left 1 _
    | countAgain => cases ho
  have hheld : (Stock.before .counted).duty duty ≤
      (p.cast.map fun part ↦ (Stock.before .counted).duty part.2).sum :=
    sum_map_eraseIdx hpart ▸ Nat.le_add_left _ _
  have htotal := h.before
  rw [Stock.total, Stock.inWorld] at htotal
  have hlaunched : p.world.memory.launched = true := by
    by_contra hnot
    have hright : 1 ≤ (Stock.before .counted).memory p.world.memory := by
      simp [Stock.before, hnot, held, Stage.rank]
    omega
  have hroom := h.room (.inl hlaunched) (by omega)
  have hgrows : w'.analyses setup.version ≤ p.world.analyses setup.version + 1 :=
    World.analyses_perform_le hw i o
  omega

theorem Play.KeepsBudget.step (h : p.KeepsBudget budget)
    (hbudget : setup.settings.limits.analysisMaxTimesPerVersion ≤ budget)
    (hdebug : setup.settings.general.debug = false) (hstep : p.Step setup move p') :
    p'.KeepsBudget budget := by
  have hbefore := Nat.le_trans ((Stock.lasts_before setup .counted).total_le hstep) h.before
  cases hstep with
  | call c => exact ⟨hbefore, h.count, fun hordering ↦ h.room hordering.of_enter⟩
  | begin htask => exact ⟨hbefore, h.count, fun hordering ↦ h.room hordering.of_enter⟩
  | surround machine host process => exact ⟨hbefore, h.count, h.room⟩
  | @ask i o duty duty' r answer world hpart hduty hw =>
      have hspent : (Stock.before .counted).spentIn (p.history ++ [⟨i, o, r, answer⟩]) =
          (Stock.before .counted).spentIn p.history + (Stock.before .counted).spent o r answer :=
        Stock.spentIn_snoc _ p.history _
      by_cases hcounts : (Moment.mk i o r answer).counts = true → o.reanalyzes = true
      · obtain ⟨hcount, hroom⟩ := h.answered hbudget hdebug hpart hduty hw hcounts
        refine ⟨hbefore, hcount, fun hordering hnone ↦ hroom hordering ?_⟩
        have hnone : (Stock.before .counted).spentIn (p.history ++ [⟨i, o, r, answer⟩]) = 0 := hnone
        omega
      · obtain ⟨hc, ho⟩ := Classical.not_imp.1 hcounts
        have ho : o.reanalyzes = false := Bool.eq_false_iff.2 ho
        cases r with
        | countAnalysis =>
            have hcount := h.counted hpart hduty ho hw
            have hgrows : recoveries p.history ≤
                recoveries (p.history ++ [⟨i, o, .countAnalysis, answer⟩]) := by
              rw [recoveries_snoc]
              exact Nat.le_add_right _ _
            refine ⟨hbefore, ?_, fun _ hnone ↦ ?_⟩
            · exact Nat.le_trans hcount (Nat.add_le_add_left hgrows budget)
            · have hone : (Stock.before .counted).spent o .countAnalysis answer = 1 := by
                simp [Stock.before, ho]
              have hnone : (Stock.before .counted).spentIn
                (p.history ++ [⟨i, o, .countAnalysis, answer⟩]) = 0 := hnone
              omega
        | _ => cases hc

/-- A life counts no more analyses than it begins with and asks to be counted.  So the count of a
version fits into a word of 32 bits as long as these do. -/
theorem Lifetime.analyses_le (l : Lifetime) : l.final.world.analyses l.setup.version ≤
    l.ledger.analysisCount l.setup.version + l.final.history.countP Moment.counts := by
  have hopening : (Play.opening (duties l.setup) l.initial).CountsAll
      (l.ledger.analysisCount l.setup.version) := Nat.le_refl _
  obtain ⟨p, hp, h⟩ := Play.Shows.run (govern_duties l.setup)
    (fun hstep (h : Play.CountsAll _ _) ↦ h.step hstep) (Play.shows_opening _ l.initial) hopening
    l.moves
  rw [Play.CountsAll, hp.world, hp.history] at h
  exact h

theorem Lifetime.count_le (l : Lifetime) (hdebug : l.setup.settings.general.debug = false)
    (hbudget : l.setup.settings.limits.analysisMaxTimesPerVersion ≤ budget)
    (hledger : l.ledger.analysisCount l.setup.version ≤ budget) :
    l.final.world.analyses l.setup.version ≤ budget + recoveries l.final.history := by
  have hopening : (Play.opening (duties l.setup) l.initial).KeepsBudget budget := by
    refine ⟨Nat.le_refl 1, hledger, fun hordering ↦ ?_⟩
    obtain hlaunched | ⟨part, hpart, -⟩ := hordering
    · cases hlaunched
    · cases hpart
  obtain ⟨p, hp, h⟩ := Play.Shows.run (govern_duties l.setup)
    (fun hstep (h : Play.KeepsBudget _ budget) ↦ h.step hbudget hdebug hstep)
    (Play.shows_opening _ l.initial) hopening l.moves
  have hcount := h.count
  rw [hp.world, hp.history] at hcount
  exact hcount

/-! ## From one life to the next -/

/-- Whether every life begins with a ledger that counts no more analyses than were counted before.
It may have forgotten some: the last save may have failed, or not have come any more. -/
def InheritCount (version : String) : Nat → List Lifetime → Prop
  | _, [] => True
  | count, l :: lives => l.ledger.analysisCount version ≤ count ∧
      InheritCount version (l.final.world.analyses version) lives

/-- How many analyses are counted after some lives. -/
def countAfter (version : String) (count : Nat) (lives : List Lifetime) : Nat :=
  lives.foldl (fun _ l ↦ l.final.world.analyses version) count

/-- How many analyses some lives took up again. -/
def recoveriesOf (lives : List Lifetime) : Nat :=
  (lives.map fun l ↦ recoveries l.final.history).sum

/-- Whether a life is one of a version that may be analysed so many times. -/
structure Lifetime.IsLimited (l : Lifetime) (version : String) (budget : Nat) : Prop where
  version : l.setup.version = version
  budget : l.setup.settings.limits.analysisMaxTimesPerVersion = budget
  debug : l.setup.settings.general.debug = false

theorem countAfter_le_add {version : String} {count : Nat} {lives : List Lifetime}
    (hlimited : ∀ l ∈ lives, l.IsLimited version budget) {taken : Nat}
    (hinherit : InheritCount version count lives) (hcount : count ≤ budget + taken) :
    countAfter version count lives ≤ budget + taken + recoveriesOf lives := by
  induction lives generalizing count taken with
  | nil => exact hcount
  | cons l lives ih =>
      have hl := hlimited l List.mem_cons_self
      have hbudget : l.setup.settings.limits.analysisMaxTimesPerVersion ≤ budget + taken := by
        rw [hl.budget]
        exact Nat.le_add_right budget taken
      have hledger : l.ledger.analysisCount l.setup.version ≤ budget + taken := by
        rw [hl.version]
        exact Nat.le_trans hinherit.1 hcount
      have hcount : l.final.world.analyses version ≤
          budget + (taken + recoveries l.final.history) := by
        have hlife := l.count_le hl.debug hbudget hledger
        rwa [hl.version, Nat.add_assoc] at hlife
      have hrest := ih (fun other h ↦ hlimited other (List.mem_cons_of_mem _ h)) hinherit.2 hcount
      have hall : recoveriesOf (l :: lives) =
          recoveries l.final.history + recoveriesOf lives := List.sum_cons
      rw [hall]
      exact Nat.le_trans hrest (by omega)

/-- The budget is exceeded by no more than the analyses that were taken up again. -/
theorem countAfter_le {version : String} {count : Nat} {lives : List Lifetime}
    (hlimited : ∀ l ∈ lives, l.IsLimited version budget)
    (hinherit : InheritCount version count lives) (hcount : count ≤ budget) :
    countAfter version count lives ≤ budget + recoveriesOf lives :=
  countAfter_le_add hlimited hinherit (Nat.le_trans hcount (Nat.le_add_right budget 0))

/-! ## A dump that was left behind -/

def leftoverFiles : FileTree :=
  (FileTree.empty.insert ["analysis"] .dir).insert ["analysis", "1_5.hprof"]
    (.file "JAVA PROFILE".toUTF8)

/-- A life with a spent budget that begins with a dump nobody analysed.  It ends as soon as that
analysis is counted. -/
def leftoverLife : Lifetime where
  setup := {
    settings := { general := { appVersion := "1" }, limits := { analysisMaxTimesPerVersion := 1 } }
    store := ⟨"/"⟩
    analyst := {} }
  machine := { files := leftoverFiles }
  ledger := ⟨[("1", { analysisCount := 1 })]⟩
  host := {}
  process := {}
  moves := [.call (.start true)] ++ List.replicate 11 (.step 0) ++ [.begin 0] ++
    List.replicate 7 (.step 1)

theorem leftoverLife_isLimited : ∀ l ∈ [leftoverLife], l.IsLimited "1" 1 := by
  rintro l hl
  obtain rfl := List.mem_singleton.1 hl
  exact ⟨rfl, rfl, rfl⟩

theorem inheritCount_leftoverLife : InheritCount "1" 1 [leftoverLife] := by
  have hledger : leftoverLife.ledger.analysisCount "1" = 1 := by decide +kernel
  exact ⟨Nat.le_of_eq hledger, trivial⟩

theorem countAfter_leftoverLife_le : countAfter "1" 1 [leftoverLife] ≤ 1 + 1 := by
  have hrecoveries : recoveriesOf [leftoverLife] = 1 := by decide +kernel
  have hle : countAfter "1" 1 [leftoverLife] ≤ 1 + recoveriesOf [leftoverLife] :=
    countAfter_le leftoverLife_isLimited inheritCount_leftoverLife (Nat.le_refl 1)
  rwa [hrecoveries] at hle

/-- The budget may be exceeded. -/
theorem countAfter_not_always_le : ¬ ∀ (version : String) (budget count : Nat)
    (lives : List Lifetime), (∀ l ∈ lives, l.IsLimited version budget) →
      InheritCount version count lives → count ≤ budget →
        countAfter version count lives ≤ budget := by
  intro h
  have hcount : countAfter "1" 1 [leftoverLife] = 2 := by decide +kernel
  have hle := h "1" 1 1 [leftoverLife] leftoverLife_isLimited inheritCount_leftoverLife
    (Nat.le_refl 1)
  rw [hcount] at hle
  exact absurd hle (by decide)

end Supervisor

end HeapSentry
