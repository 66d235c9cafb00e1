import HeapSentry.Proofs.Storage.Mishaps

/-!
# Runs of the supervisor

What the supervisor does on a machine that fails at times, taken step by step: whatever goes wrong,
each step of an analysis leaves the world in one of a few ways.
-/

namespace HeapSentry.Supervisor

open Machine (ChangesAt)
open Report Storage Supervised

variable {α β : Type} {settings : Settings} {setup : Setup} {w w' : World} {job : Job}
  {pair : DumpPair} {r : Report} {outcome : Outcome} {x : α}

/-- What a request may be answered in a world whose machine fails at times, and what becomes of the
world. -/
inductive World.May (settings : Settings) (w : World) :
    (r : Request) → Answer r → World → Prop where
  | performed (r : Request) : May settings w r (w.perform settings r).1 (w.perform settings r).2
  | onMachine {r : Machine.Request} {answer : Machine.Answer r} {m : Machine}
      (h : w.machine.May r answer m) : May settings w (.machine r) answer { w with machine := m }
  | inService {r : Machine.Request} {answer : Machine.Answer r} {m : Machine}
      (h : w.machine.May r answer m) : May settings w (.service r) answer { w with machine := m }

/-- Whether an activity may give a result and leave a world, for all that may go wrong. -/
def World.Runs (settings : Settings) (w : World) (a : Supervised α) (x : α) (w' : World) : Prop :=
  Activity.Runs (World.May settings) w a x w'

namespace World

theorem runs_run (settings : Settings) (w : World) (a : Supervised α) :
    w.Runs settings a (w.run settings a).1 (w.run settings a).2 :=
  Activity.runs_runOn (fun _ r ↦ .performed r) w a

theorem runs_bind {a : Supervised α} {f : α → Supervised β} {y : β} :
    w.Runs settings (a >>= f) y w' ↔
      ∃ x between, w.Runs settings a x between ∧ between.Runs settings (f x) y w' :=
  Activity.runs_bind

/-! ## On the machine -/

theorem exists_of_may_machine {r : Machine.Request} {answer : Machine.Answer r}
    (h : w.May settings (.machine r) answer w') :
    ∃ m, w.machine.May r answer m ∧ w' = { w with machine := m } := by
  cases h with
  | performed => exact ⟨_, .performed r, rfl⟩
  | onMachine h => exact ⟨_, h, rfl⟩

theorem exists_of_may_service {r : Machine.Request} {answer : Machine.Answer r}
    (h : w.May settings (.service r) answer w') :
    ∃ m, w.machine.May r answer m ∧ w' = { w with machine := m } := by
  cases h with
  | performed => exact ⟨_, .performed r, rfl⟩
  | inService h => exact ⟨_, h, rfl⟩

theorem exists_of_through {embed : (r : Machine.Request) → Supervised (Machine.Answer r)}
    (hembed : ∀ {w w' : World} {r answer}, w.Runs settings (embed r) answer w' →
      ∃ m, w.machine.May r answer m ∧ w' = { w with machine := m })
    {a : OnMachine α} (h : w.Runs settings (a.through embed) x w') :
    ∃ m, w.machine.Runs a x m ∧ w' = { w with machine := m } := by
  induction a generalizing w with
  | done x =>
      obtain ⟨rfl, rfl⟩ := h
      exact ⟨w'.machine, ⟨rfl, rfl⟩, rfl⟩
  | ask r next ih =>
      obtain ⟨answer, between, hfirst, hrest⟩ := runs_bind.1 h
      obtain ⟨m, hmay, rfl⟩ := hembed hfirst
      obtain ⟨last, hnext, rfl⟩ := ih answer hrest
      exact ⟨last, ⟨answer, m, hmay, hnext⟩, rfl⟩

theorem exists_of_onMachine {a : OnMachine α} (h : w.Runs settings (onMachine a) x w') :
    ∃ m, w.machine.Runs a x m ∧ w' = { w with machine := m } := by
  refine exists_of_through (fun {w w' r answer} hrun ↦ ?_) h
  exact exists_of_may_machine (Activity.runs_request.1 hrun)

theorem exists_of_inService {a : OnMachine α} (h : w.Runs settings (inService a) x w') :
    ∃ m, w.machine.Runs a x m ∧ w' = { w with machine := m } := by
  refine exists_of_through (fun {w w' r answer} hrun ↦ ?_) h
  exact exists_of_may_service (Activity.runs_request.1 hrun)

/-! ## In memory -/

theorem eq_of_announce {event : Event} {u : Unit} (h : w.Runs settings (announce event) u w') :
    w' = { w with events := event :: w.events } := by
  have hmay := Activity.runs_request.1 h
  cases hmay with
  | performed => rfl

theorem eq_of_countAnalysis {ledger : Ledger} (h : w.Runs settings countAnalysis ledger w') :
    w' = { w with memory := { w.memory with
      session := w.memory.session.increment settings.general.appVersion } } := by
  have hmay := Activity.runs_request.1 h
  cases hmay with
  | performed => rfl

end World

/-! ## The steps of an analysis -/

theorem exists_of_saveLedger {ledger : Ledger} {u : Unit}
    (h : w.Runs settings (saveLedger setup ledger) u w') :
    ∃ m, w' = { w with machine := m } ∧ ChangesAt setup.KeepsLedgerAt w.machine m := by
  rw [saveLedger] at h
  cases hpath : setup.ledgerPath with
  | none =>
      rw [hpath] at h
      obtain ⟨-, rfl⟩ := h
      exact ⟨w'.machine, rfl, .refl _ _⟩
  | some path =>
      rw [hpath] at h
      obtain ⟨saved, between, hsave, hrest⟩ := World.runs_bind.1 h
      obtain ⟨m, hrun, rfl⟩ := World.exists_of_onMachine hsave
      have hchanges : ChangesAt setup.KeepsLedgerAt w.machine m := by
        refine (hrun.changesAt (LedgerFile.asks_save _)).imp fun file hfile ↦ ?_
        exact ⟨path, hpath, hfile⟩
      cases saved with
      | ok u =>
          obtain ⟨-, rfl⟩ := hrest
          exact ⟨m, rfl, hchanges⟩
      | error e =>
          obtain ⟨last, hlog, rfl⟩ := World.exists_of_onMachine hrest
          exact ⟨last, rfl, hchanges.trans (hlog.changesAt (Activity.asks_request trivial))⟩

/-- A quiet activity changes nothing but the log. -/
theorem changesAt_of_quiet {a : OnMachine α} {m m' : Machine} (h : m.Runs a x m')
    (ha : a.Asks Machine.Request.IsQuiet) : ChangesAt (fun _ ↦ False) m m' := by
  refine h.changesAt (ha.imp fun r hr ↦ ?_)
  cases r <;> trivial

theorem changesAt_of_analyze {a : Analyst} {hprof : String} {info : RunningInfo} {m m' : Machine}
    {found : Except AnalysisError Report} (h : m.Runs (a.analyze hprof info) found m') :
    ChangesAt (fun _ ↦ False) m m' := by
  rw [Analyst.analyze_eq] at h
  obtain ⟨size, between, hsize, hrest⟩ := Activity.runs_bind.1 h
  have hbefore : ChangesAt (fun _ ↦ False) m between :=
    Machine.Runs.changesAt hsize (Activity.asks_request trivial)
  exact hbefore.trans (changesAt_of_quiet hrest (a.asks_proceed hprof info size))

theorem exists_size_of_analyze {a : Analyst} {hprof : String} {info : RunningInfo} {m m' : Machine}
    (h : m.Runs (a.analyze hprof info) (.ok r) m') :
    ∃ size, (m.perform (.size hprof)).1 = .ok (size + 1) := by
  rw [Analyst.analyze_eq] at h
  obtain ⟨size, between, hsize, hrest⟩ := Activity.runs_bind.1 h
  cases size with
  | error e => cases hrest.1
  | ok n =>
      cases n with
      | zero => cases hrest.1
      | succ n => exact ⟨n, (Activity.runs_request.1 hsize).size⟩

/-- The analysis fails, or it comes to a report, which can be written or not. -/
theorem cases_of_report {result : Except AnalysisError Report}
    (h : w.Runs settings (report setup job) result w') :
    ∃ found after m,
      w.machine.Runs (setup.analyst.analyze job.pair.hprof job.info) found after ∧
      w' = { w with machine := m } ∧
      ((∃ e, found = .error e ∧ result = .error e ∧ m = after) ∨
        ∃ r, found = .ok r ∧ ∃ answer,
          after.May (.write job.pair.json
            (Report.text { r with reAnalysisTimes := job.reAnalysisTimes }).toUTF8) answer m ∧
          match answer with
          | .error _ => result = .error (.file job.pair.json)
          | .ok () => result = .ok { r with reAnalysisTimes := job.reAnalysisTimes }) := by
  obtain ⟨found, between, hanalyze, hrest⟩ := World.runs_bind.1 h
  obtain ⟨after, hfound, rfl⟩ := World.exists_of_inService hanalyze
  cases found with
  | error e =>
      obtain ⟨rfl, rfl⟩ := hrest
      exact ⟨_, after, after, hfound, rfl, .inl ⟨e, rfl, rfl, rfl⟩⟩
  | ok r =>
      obtain ⟨saved, last, hsave, rfl, rfl⟩ := World.runs_bind.1 hrest
      obtain ⟨m, hrun, rfl⟩ := World.exists_of_onMachine hsave
      obtain ⟨answer, between, hwrite, rfl, rfl⟩ := Activity.runs_bind.1 hrun
      refine ⟨_, after, m, hfound, rfl, .inr ⟨r, rfl, answer, Activity.runs_request.1 hwrite, ?_⟩⟩
      cases answer with
      | error e => rfl
      | ok u => rfl

/-- What is told of uploads, the last first. -/
def Setup.shipments (setup : Setup) (pair : DumpPair) (r : Report) : List Event :=
  (setup.dumpUploads.map fun _ ↦ .dumpUploaded .origin pair.hprof).toList ++
    (setup.uploads.map fun _ ↦ .reportUploaded pair.json r).toList

theorem exists_of_upload {u : UploadDir} (hu : u ∈ setup.uploads ∨ u ∈ setup.dumpUploads)
    {a : OnMachine Unit} {answer : Unit} (ha : a.Asks (Machine.Request.Within u.Takes))
    (h : w.Runs settings (onMachine a) answer w') :
    ∃ m, w' = { w with machine := m } ∧ ChangesAt setup.UploadsTo w.machine m := by
  obtain ⟨m, hrun, rfl⟩ := World.exists_of_onMachine h
  exact ⟨m, rfl, (hrun.changesAt ha).imp fun path hpath ↦ ⟨u, hu, hpath⟩⟩

theorem exists_of_uploadReport {path : String} {answer : Unit}
    (h : w.Runs settings (uploadReport setup path r) answer w') :
    ∃ m, ChangesAt setup.UploadsTo w.machine m ∧ w' = { w with
      machine := m
      events := (setup.uploads.map fun _ ↦ Event.reportUploaded path r).toList ++ w.events } := by
  rw [uploadReport] at h
  cases hu : setup.uploads with
  | none =>
      rw [hu] at h
      obtain ⟨-, rfl⟩ := h
      exact ⟨_, .refl _ _, rfl⟩
  | some u =>
      rw [hu] at h
      obtain ⟨_, between, htell, h⟩ := World.runs_bind.1 h
      obtain rfl := World.eq_of_announce htell
      obtain ⟨m, rfl, hsent⟩ := exists_of_upload (.inl hu) (u.asks_uploadReport _) h
      exact ⟨m, hsent, rfl⟩

theorem exists_of_uploadDump {kind : DumpKind} {path : String} {answer : Unit}
    (h : w.Runs settings (uploadDump setup kind path) answer w') :
    ∃ m, ChangesAt setup.UploadsTo w.machine m ∧ w' = { w with
      machine := m
      events := (setup.dumpUploads.map fun _ ↦ Event.dumpUploaded kind path).toList ++
        w.events } := by
  rw [uploadDump] at h
  cases hu : setup.dumpUploads with
  | none =>
      rw [hu] at h
      obtain ⟨-, rfl⟩ := h
      exact ⟨_, .refl _ _, rfl⟩
  | some u =>
      rw [hu] at h
      obtain ⟨_, between, htell, h⟩ := World.runs_bind.1 h
      obtain rfl := World.eq_of_announce htell
      obtain ⟨m, rfl, hsent⟩ := exists_of_upload (.inr hu) (u.asks_uploadDump _ _) h
      exact ⟨m, hsent, rfl⟩

theorem exists_of_deliver (h : w.Runs settings (deliver setup pair r) outcome w') :
    outcome = .finished pair.json ∧ ∃ m, ChangesAt setup.UploadsTo w.machine m ∧
      w' = { w with
        machine := m
        events := .succeeded pair.json r :: (setup.shipments pair r ++ w.events) } := by
  obtain ⟨_, between, hreport, h⟩ := World.runs_bind.1 h
  obtain ⟨m, hreported, rfl⟩ := exists_of_uploadReport hreport
  obtain ⟨_, between, hdump, h⟩ := World.runs_bind.1 h
  obtain ⟨last, hdumped, rfl⟩ := exists_of_uploadDump hdump
  obtain ⟨_, between, htell, rfl, rfl⟩ := World.runs_bind.1 h
  obtain rfl := World.eq_of_announce htell
  refine ⟨rfl, last, hreported.trans hdumped, ?_⟩
  rw [Setup.shipments, List.append_assoc]

theorem eq_of_delete {m m' : Machine} {u : Unit} (h : m.Runs pair.delete u m') :
    m' = ((m.perform (.remove pair.hprof)).2.perform (.remove pair.json)).2 := by
  obtain ⟨answer, between, hhprof, answer', last, hjson, -, rfl⟩ := h
  rw [hhprof.remove] at hjson
  exact hjson.remove

theorem eq_of_fail {e : AnalysisError} (h : w.Runs settings (fail (some pair) e) outcome w') :
    outcome = .failed e.message ∧ w' = { w with
      machine := ((w.machine.perform (.remove pair.hprof)).2.perform (.remove pair.json)).2
      events := .failed e :: w.events } := by
  obtain ⟨_, between, hdelete, h⟩ := World.runs_bind.1 h
  obtain ⟨m, hrun, rfl⟩ := World.exists_of_onMachine hdelete
  obtain rfl := eq_of_delete hrun
  obtain ⟨_, between, htell, rfl, rfl⟩ := World.runs_bind.1 h
  obtain rfl := World.eq_of_announce htell
  exact ⟨rfl, rfl⟩

end HeapSentry.Supervisor
