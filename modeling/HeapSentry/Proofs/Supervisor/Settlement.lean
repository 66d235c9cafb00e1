import HeapSentry.Proofs.Supervisor.Custody
import HeapSentry.Proofs.Supervisor.Runs

/-!
# How an analysis ends

An analysis leaves a dump with its report or neither of the two, whatever goes wrong on the way.
The first is told as a success, the second as a failure, and never are both told.
-/

namespace HeapSentry.Supervisor

open Machine (ChangesAt)
open Report Storage Storage.FileTree Storage.Path Supervised

variable {setup : Setup} {job : Job} {pair : DumpPair} {m m' : Machine} {w w' v : World}
  {e : AnalysisError} {r : Report} {outcome : Outcome} {files : String → Prop} {path : String}

/-- Whether a path is one of the two of a pair. -/
def Owns (pair : DumpPair) (path : String) : Prop := path = pair.hprof ∨ path = pair.json

/-- The paths that are written for the ledger and for uploads. -/
def Setup.WritesAside (setup : Setup) (path : String) : Prop :=
  setup.KeepsLedgerAt path ∨ setup.UploadsTo path

/-- Whether the files of a pair are no directories, and nothing is kept, uploaded or logged where
they are. -/
structure Setup.Spares (setup : Setup) (pair : DumpPair) (m : Machine) : Prop where
  plain : ∀ path, Owns pair path → m.files.node? (place (m.absolute path)) ≠ some .dir
  apart : ∀ path, Owns pair path → ¬ m.Reach setup.WritesAside (place (m.absolute path))

namespace Setup.Spares

theorem node?_eq (h : setup.Spares pair m) (hpath : Owns pair path)
    (hchanges : ChangesAt files m m') (hfiles : ∀ path, files path → setup.WritesAside path) :
    m'.files.node? (place (m.absolute path)) = m.files.node? (place (m.absolute path)) :=
  (hchanges.imp hfiles).node?_eq (h.apart path hpath)

theorem lookAt_eq_ok {n : Node} (h : setup.Spares pair m) (hpath : Owns pair path)
    (hchanges : ChangesAt files m m') (hfiles : ∀ path, files path → setup.WritesAside path)
    (hlook : m.lookAt path = .ok n) : m'.lookAt path = .ok n := by
  have hchanges := hchanges.imp hfiles
  exact Machine.lookAt_of_evolves hchanges.evolves hchanges.workingDir (h.apart path hpath) hlook

theorem changes (h : setup.Spares pair m) (hchanges : ChangesAt files m m')
    (hfiles : ∀ path, files path → setup.WritesAside path) : setup.Spares pair m' where
  plain path hpath := by
    rw [hchanges.absolute, h.node?_eq hpath hchanges hfiles]
    exact h.plain path hpath
  apart path hpath := by
    rw [hchanges.absolute, hchanges.reach_eq]
    exact h.apart path hpath

theorem write {content : ByteArray} {answer : Except FileError Unit} (h : setup.Spares pair m)
    (hmay : m.May (.write pair.json content) answer m') : setup.Spares pair m' := by
  have hchanges : ChangesAt (· = pair.json) m m' := hmay.changesAt rfl
  constructor
  · intro path hpath hdir
    rw [hchanges.absolute] at hdir
    exact h.plain path hpath (hmay.isDir_of_write hdir)
  · intro path hpath
    rw [hchanges.absolute, hchanges.reach_eq]
    exact h.apart path hpath

/-- Neither file is there once both were removed. -/
theorem gone (h : setup.Spares pair m) (hpath : Owns pair path) :
    ∃ e, (((m.perform (.remove pair.hprof)).2.perform (.remove pair.json)).2).lookAt path =
      .error e := by
  obtain rfl | rfl := hpath
  · obtain ⟨e, hgone⟩ := Machine.exists_error_of_remove (h.plain _ (.inl rfl))
    cases hlater : (((m.perform (.remove pair.hprof)).2.perform (.remove pair.json)).2).lookAt
        pair.hprof with
    | error e => exact ⟨e, rfl⟩
    | ok n =>
        rw [Machine.lookAt_of_lookAt_remove hlater] at hgone
        cases hgone
  · apply Machine.exists_error_of_remove
    intro hdir
    rw [Machine.absolute_congr (m.workingDir_perform (.remove pair.hprof))] at hdir
    exact h.plain _ (.inr rfl)
      (Machine.isDir_of_perform (r := .remove pair.hprof) trivial nofun hdir)

end Setup.Spares

theorem changesAt_of_deletion (pair : DumpPair) (m : Machine) : ChangesAt (Owns pair) m
    ((m.perform (.remove pair.hprof)).2.perform (.remove pair.json)).2 := by
  have hhprof : ChangesAt (Owns pair) m (m.perform (.remove pair.hprof)).2 :=
    Machine.changesAt_perform (r := .remove pair.hprof) (.inl rfl)
  exact hhprof.trans (Machine.changesAt_perform (r := .remove pair.json) (.inr rfl))

/-! ## The two ends -/

/-- Whether the analysis of a job may come to a result if the dump has some content. -/
def Analyses (setup : Setup) (job : Job) (content : ByteArray)
    (found : Except AnalysisError Report) : Prop :=
  ∃ before after : Machine, (before.perform (.read job.pair.hprof)).1 = .ok content ∧
    before.Runs (setup.analyst.analyze job.pair.hprof job.info) found after

/-- What is left of an analysis that came to a report. -/
structure Finished (setup : Setup) (job : Job) (r : Report) (w w' : World) : Prop where
  /-- The dump is as it was, and it is the one that was analysed. -/
  dump : ∃ content,
    w.machine.files.node? (place (w.machine.absolute job.pair.hprof)) = some (.file content) ∧
    (w'.machine.perform (.read job.pair.hprof)).1 = .ok content ∧
    ∃ found, Analyses setup job content (.ok found) ∧
      r = { found with reAnalysisTimes := job.reAnalysisTimes }
  report : (w'.machine.perform (.read job.pair.json)).1 = .ok r.text.toUTF8
  events : w'.events = .succeeded job.pair.json r :: (setup.shipments job.pair r ++ w.events)
  others : ChangesAt (fun path ↦ path = job.pair.json ∨ setup.WritesAside path)
    w.machine w'.machine

/-- What is left of an analysis that was given up. -/
structure GivenUp (setup : Setup) (job : Job) (e : AnalysisError) (w w' : World) : Prop where
  gone : ∀ path, Owns job.pair path → ∃ reason, w'.machine.lookAt path = .error reason
  /-- A file could not be written, or the analysis itself has failed. -/
  cause : e = .file job.pair.json ∨ ∃ before after : Machine,
    before.Runs (setup.analyst.analyze job.pair.hprof job.info) (.error e) after
  events : w'.events = .failed e :: w.events
  others : ChangesAt (fun path ↦ Owns job.pair path ∨ setup.KeepsLedgerAt path)
    w.machine w'.machine

/-- What an analysis does once it was tried to make a report. -/
def onceReported (setup : Setup) (job : Job) : Except AnalysisError Report → Supervised Outcome
  | .ok r => deliver setup job.pair r
  | .error e => fail job.pair e

/-- What an analysis does once it was tried to leave a marker. -/
def onceMarked (setup : Setup) (job : Job) : Except FileError Unit → Supervised Outcome
  | .error _ => fail job.pair (.file job.pair.json)
  | .ok () => do
    let ledger ← countAnalysis
    saveLedger setup ledger
    onceReported setup job (← report setup job)

theorem analyze_eq (setup : Setup) (job : Job) :
    analyze setup job = onMachine job.pair.markInProgress >>= onceMarked setup job := by
  rw [analyze]
  congr 1

theorem givenUp_of_fail (h : v.Runs setup.settings (fail job.pair e) outcome w')
    (hspares : setup.Spares job.pair v.machine) (hevents : v.events = w.events)
    (hchanges : ChangesAt (fun path ↦ Owns job.pair path ∨ setup.KeepsLedgerAt path)
      w.machine v.machine)
    (hcause : e = .file job.pair.json ∨ ∃ before after : Machine,
      before.Runs (setup.analyst.analyze job.pair.hprof job.info) (.error e) after) :
    outcome = .failed e.message ∧ w'.memory = v.memory ∧ GivenUp setup job e w w' := by
  obtain ⟨rfl, rfl⟩ := eq_of_fail h
  refine ⟨rfl, rfl, ⟨fun path hpath ↦ hspares.gone hpath, hcause, ?_, ?_⟩⟩
  · rw [hevents]
  · exact hchanges.trans ((changesAt_of_deletion job.pair _).imp fun _ hpath ↦ .inl hpath)

/-- An analysis comes to a report only if there is something in the dump. -/
theorem exists_content_of_analyze {a : Analyst} {hprof : String} {info : RunningInfo}
    (hplain : m.files.node? (place (m.absolute hprof)) ≠ some .dir)
    (h : m.Runs (a.analyze hprof info) (.ok r) m') :
    ∃ content, m.lookAt hprof = .ok (.file content) ∧ content.size ≠ 0 := by
  obtain ⟨size, hsize⟩ := exists_size_of_analyze h
  rw [Machine.perform_size_eq] at hsize
  obtain ⟨n, hlook, hn⟩ := bind_eq_ok_iff.1 hsize
  cases n with
  | dir =>
      obtain ⟨absolute, haccept, hdir⟩ := bind_eq_ok_iff.1 hlook
      obtain rfl := Machine.eq_of_accept haccept
      exact absurd (node?_of_look hdir) hplain
  | file content =>
      refine ⟨content, hlook, ?_⟩
      rw [Except.ok.inj hn]
      exact Nat.succ_ne_zero size

/-! ## After the marker -/

section Marked

variable {marked kept after : Machine} {found : Report}
  (hspares : setup.Spares job.pair w.machine)
  (hmarked : w.machine.May (.write job.pair.json .empty) (.ok ()) marked)
  (hkept : ChangesAt setup.KeepsLedgerAt marked kept)
include hmarked hkept

theorem changesAt_of_marked :
    ChangesAt (fun path ↦ path = job.pair.json ∨ setup.KeepsLedgerAt path) w.machine kept := by
  have hmarker : ChangesAt (fun path ↦ path = job.pair.json ∨ setup.KeepsLedgerAt path)
      w.machine marked := hmarked.changesAt (.inl rfl)
  exact hmarker.trans (hkept.imp fun _ hpath ↦ .inr hpath)

include hspares

theorem spares_of_marked : setup.Spares job.pair kept :=
  (hspares.write hmarked).changes hkept fun _ ↦ .inl

/-- If there is something in a dump after the marker was left, then it stands elsewhere than the
marker and was there before. -/
theorem node?_of_marked {content : ByteArray}
    (hlook : kept.lookAt job.pair.hprof = .ok (.file content)) (hsize : content.size ≠ 0) :
    place (w.machine.absolute job.pair.hprof) ≠ place (w.machine.absolute job.pair.json) ∧
      w.machine.files.node? (place (w.machine.absolute job.pair.hprof)) =
        some (.file content) := by
  have hwrite := hmarked.write
  have hworking := Machine.workingDir_of_perform_write hwrite
  have hmarker : marked.files.node? (place (w.machine.absolute job.pair.hprof)) =
      some (.file content) := by
    obtain ⟨absolute, haccept, hfile⟩ := bind_eq_ok_iff.1 hlook
    obtain rfl := Machine.eq_of_accept haccept
    have hnode := node?_of_look hfile
    rw [hkept.absolute, (hspares.write hmarked).node?_eq (.inl rfl) hkept fun _ ↦ .inl] at hnode
    rwa [Machine.absolute_congr hworking] at hnode
  have hne : place (w.machine.absolute job.pair.hprof) ≠
      place (w.machine.absolute job.pair.json) := by
    intro heq
    rw [heq, Machine.node?_of_perform_write hwrite] at hmarker
    cases hmarker
    exact hsize rfl
  refine ⟨hne, ?_⟩
  rwa [(Machine.evolves_of_perform_write hwrite).same _ hne] at hmarker

/-- A report that was written stays with its dump while it is delivered. -/
theorem finished_of_deliver
    (hfound : kept.Runs (setup.analyst.analyze job.pair.hprof job.info) (.ok found) after)
    (hr : r = { found with reAnalysisTimes := job.reAnalysisTimes })
    (h : v.Runs setup.settings (deliver setup job.pair r) outcome w')
    (hsaved : after.May (.write job.pair.json r.text.toUTF8) (.ok ()) v.machine)
    (hevents : v.events = w.events) :
    outcome = .finished job.pair.json ∧ w'.memory = v.memory ∧ Finished setup job r w w' := by
  have hkept' := spares_of_marked hspares hmarked hkept
  have hquiet : ChangesAt (fun _ ↦ False) kept after := changesAt_of_analyze hfound
  have hafter : setup.Spares job.pair after := hkept'.changes hquiet nofun
  have hlast := hafter.write hsaved
  have hwrite := hsaved.write
  obtain ⟨rfl, last, hdelivered, rfl⟩ := exists_of_deliver h
  -- The dump is found at each stage.
  obtain ⟨content, hlook, hsize⟩ :=
    exists_content_of_analyze (hkept'.plain _ (.inl rfl)) hfound
  obtain ⟨hne, hnode⟩ := node?_of_marked hspares hmarked hkept hlook hsize
  have habsolute (path : String) : after.absolute path = w.machine.absolute path :=
    (hquiet.absolute path).trans ((changesAt_of_marked hmarked hkept).absolute path)
  have hlook_after := hkept'.lookAt_eq_ok (.inl rfl) hquiet nofun hlook
  have hlook_saved : v.machine.lookAt job.pair.hprof = .ok (.file content) := by
    refine Machine.lookAt_of_evolves (Machine.evolves_of_perform_write hwrite)
      (Machine.workingDir_of_perform_write hwrite) ?_ hlook_after
    rwa [habsolute, habsolute]
  have hdump := hlast.lookAt_eq_ok (.inl rfl) hdelivered (fun _ ↦ .inr) hlook_saved
  have hreport := hlast.lookAt_eq_ok (.inr rfl) hdelivered (fun _ ↦ .inr)
    (Machine.perform_read_eq_ok_iff.1 (Machine.read_of_perform_write hwrite))
  refine ⟨rfl, rfl, ⟨⟨content, hnode, ?_, found, ⟨kept, after, ?_, hfound⟩, hr⟩, ?_, ?_, ?_⟩⟩
  · exact Machine.perform_read_eq_ok_iff.2 hdump
  · exact Machine.perform_read_eq_ok_iff.2 hlook
  · exact Machine.perform_read_eq_ok_iff.2 hreport
  · rw [hevents]
  · have hbefore : ChangesAt (fun path ↦ path = job.pair.json ∨ setup.WritesAside path)
        w.machine kept := (changesAt_of_marked hmarked hkept).imp fun _ hpath ↦ hpath.imp_right .inl
    have hsave : ChangesAt (fun path ↦ path = job.pair.json ∨ setup.WritesAside path)
        after v.machine := hsaved.changesAt (.inl rfl)
    have hupload := hdelivered.imp fun path hpath ↦
      (Or.inr (Or.inr hpath) : path = job.pair.json ∨ setup.WritesAside path)
    exact ((hbefore.trans (hquiet.imp nofun)).trans hsave).trans hupload

end Marked

/-- Whether one of the two ends was reached. -/
def Settled (setup : Setup) (job : Job) (outcome : Outcome) (w w' : World) : Prop :=
  (∃ r, outcome = .finished job.pair.json ∧ Finished setup job r w w') ∨
    ∃ e, outcome = .failed e.message ∧ GivenUp setup job e w w'

theorem settled_of_kept (hspares : setup.Spares job.pair w.machine)
    (hmarked : w.machine.May (.write job.pair.json .empty) (.ok ()) m)
    {result : Except AnalysisError Report} {between : World}
    (hreport : v.Runs setup.settings (report setup job) result between)
    (h : between.Runs setup.settings (onceReported setup job result) outcome w')
    (hkept : ChangesAt setup.KeepsLedgerAt m v.machine) (hevents : v.events = w.events) :
    w'.memory = v.memory ∧ Settled setup job outcome w w' := by
  obtain ⟨found, after, last, hfound, rfl, hresult⟩ := cases_of_report hreport
  have hspared := spares_of_marked hspares hmarked hkept
  have hquiet : ChangesAt (fun _ ↦ False) v.machine after := changesAt_of_analyze hfound
  have hchanges : ChangesAt (fun path ↦ Owns job.pair path ∨ setup.KeepsLedgerAt path)
      w.machine after := by
    have hbefore := changesAt_of_marked hmarked hkept
    exact (hbefore.imp fun _ hpath ↦ hpath.imp_left .inr).trans (hquiet.imp nofun)
  obtain ⟨e, rfl, rfl, rfl⟩ | ⟨r, rfl, answer, hwrite, hresult⟩ := hresult
  · obtain ⟨houtcome, hmemory, hgiven⟩ := givenUp_of_fail h (hspared.changes hquiet nofun) hevents
      hchanges (.inr ⟨v.machine, last, hfound⟩)
    exact ⟨hmemory, .inr ⟨e, houtcome, hgiven⟩⟩
  · cases answer with
    | error e =>
        -- What was written of the report goes as well.
        subst hresult
        have hsave : ChangesAt (fun path ↦ Owns job.pair path ∨ setup.KeepsLedgerAt path)
            after last := hwrite.changesAt (.inl (.inr rfl))
        obtain ⟨houtcome, hmemory, hgiven⟩ := givenUp_of_fail h
          ((hspared.changes hquiet nofun).write hwrite) hevents (hchanges.trans hsave) (.inl rfl)
        exact ⟨hmemory, .inr ⟨_, houtcome, hgiven⟩⟩
    | ok u =>
        subst hresult
        obtain ⟨houtcome, hmemory, hfinished⟩ :=
          finished_of_deliver hspares hmarked hkept hfound rfl h hwrite hevents
        exact ⟨hmemory, .inl ⟨_, houtcome, hfinished⟩⟩

/-- The memory once an analysis is counted. -/
def Memory.counted (memory : Memory) (version : String) : Memory :=
  { memory with session := memory.session.increment version }

theorem settled_of_marked (hspares : setup.Spares job.pair w.machine)
    (hmarked : w.machine.May (.write job.pair.json .empty) (.ok ()) m)
    (h : { w with machine := m }.Runs setup.settings (onceMarked setup job (.ok ())) outcome w') :
    w'.memory = w.memory.counted setup.version ∧ Settled setup job outcome w w' := by
  obtain ⟨ledger, between, hcount, h⟩ := World.runs_bind.1 h
  obtain rfl := World.eq_of_countAnalysis hcount
  obtain ⟨_, between, hsave, h⟩ := World.runs_bind.1 h
  obtain ⟨kept, rfl, hkept⟩ := exists_of_saveLedger hsave
  obtain ⟨result, between, hreport, h⟩ := World.runs_bind.1 h
  exact settled_of_kept hspares hmarked hreport h hkept rfl

theorem settled_of_unmarked {answer : FileError} (hspares : setup.Spares job.pair w.machine)
    (hmarked : w.machine.May (.write job.pair.json .empty) (.error answer) m)
    (h : { w with machine := m }.Runs setup.settings (onceMarked setup job (.error answer))
      outcome w') :
    w'.memory = w.memory ∧ outcome = .failed (AnalysisError.file job.pair.json).message ∧
      GivenUp setup job (.file job.pair.json) w w' := by
  have hchanges : ChangesAt (fun path ↦ Owns job.pair path ∨ setup.KeepsLedgerAt path)
      w.machine m := hmarked.changesAt (.inl (.inr rfl))
  obtain ⟨houtcome, hmemory, hgiven⟩ := givenUp_of_fail (w := w) h (hspares.write hmarked) rfl
    hchanges (.inl rfl)
  exact ⟨hmemory, houtcome, hgiven⟩

/-! ## Every analysis -/

/-- How an analysis is counted: once, unless there is no marker. -/
def Counted (setup : Setup) (job : Job) (outcome : Outcome) (w w' : World) : Prop :=
  ∃ marked between, w.Runs setup.settings (onMachine job.pair.markInProgress) marked between ∧
    between.Runs setup.settings (onceMarked setup job marked) outcome w' ∧
    match marked with
    | .ok () => ∀ version, w'.memory.session.ledger.analysisCount version =
        w.memory.session.ledger.analysisCount version + if version = setup.version then 1 else 0
    | .error _ => w'.memory = w.memory ∧
        outcome = .failed (AnalysisError.file job.pair.json).message

theorem analysisCount_counted {memory : Memory} (h : memory.session.ledger.IsSorted)
    (version other : String) : (memory.counted version).session.ledger.analysisCount other =
      memory.session.ledger.analysisCount other + if other = version then 1 else 0 := by
  change ((memory.session.ledger.increment version).entry other).analysisCount = _
  rw [Ledger.increment, Ledger.entry_update h]
  split
  next heq =>
    rw [heq]
    rfl
  next => rfl

/-- An analysis comes to an end, and whatever goes wrong on the way but with removals, it leaves
the dump with its report or neither of the two, and it is counted once. -/
theorem analyze_settles (hsorted : w.memory.session.ledger.IsSorted)
    (hspares : setup.Spares job.pair w.machine) :
    (∃ outcome w', w.Runs setup.settings (analyze setup job) outcome w') ∧
      ∀ outcome w', w.Runs setup.settings (analyze setup job) outcome w' →
        Settled setup job outcome w w' ∧ Counted setup job outcome w w' := by
  refine ⟨⟨_, _, w.runs_run setup.settings (analyze setup job)⟩, fun outcome w' h ↦ ?_⟩
  rw [analyze_eq] at h
  obtain ⟨marked, between, hmark, hrest⟩ := World.runs_bind.1 h
  obtain ⟨m, hrun, rfl⟩ := World.exists_of_onMachine hmark
  have hmarked := Activity.runs_request.1 hrun
  cases marked with
  | error e =>
      obtain ⟨hmemory, houtcome, hgiven⟩ := settled_of_unmarked hspares hmarked hrest
      exact ⟨.inr ⟨_, houtcome, hgiven⟩, ⟨_, _, hmark, hrest, hmemory, houtcome⟩⟩
  | ok u =>
      obtain ⟨hmemory, hsettled⟩ := settled_of_marked hspares hmarked hrest
      refine ⟨hsettled, ⟨_, _, hmark, hrest, fun version ↦ ?_⟩⟩
      rw [hmemory]
      exact analysisCount_counted hsorted setup.version version

/-! ## Dumps of the analysis directory -/

section Sites

variable {site : Site} {stem dir : String}

theorem isName_of_fileName? {name : String} (h : fileName? path = some name) :
    IsName name ∧ name ≠ ".." := by
  rw [fileName?] at h
  split at h
  next => cases h
  next => cases h
  next last hup hlast =>
    obtain rfl := Option.some.inj h
    exact ⟨isName_of_mem_names (List.mem_of_getLast? hlast), fun heq ↦ hup (heq ▸ rfl)⟩

/-- What is copied to another directory is apart from a dump and its report. -/
theorem isApart_of_receives (hdir : dir ≠ "") (hapart : site.IsApart stem dir)
    (hplace : place (site.absolute dir) ≠ place site.dir) (h : Receives dir path) :
    site.IsApart stem path := by
  obtain rfl | ⟨source, name, hname, rfl⟩ := h
  · exact hapart
  obtain ⟨hname, hup⟩ := isName_of_fileName? hname
  have habsolute : site.absolute (join dir name) = join (site.absolute dir) name := by
    rw [Site.absolute, Site.absolute, if_neg (join_ne_empty hname dir), if_neg hdir,
      join_join hdir hname.relative]
  have hvisits {file : String} (hfile : ¬ Visits (site.absolute dir) (site.fileAt file)) :
      ¬ Visits (site.absolute (join dir name)) (site.fileAt file) := by
    intro hvisits
    rw [habsolute] at hvisits
    obtain hbase | heq := Site.visits_join hname hup hvisits
    · exact hfile hbase
    · exact hplace (List.append_inj_left' heq rfl).symm
  exact ⟨hvisits hapart.1, hvisits hapart.2⟩

/-- The dumps of the analysis directory are spared if all else is kept elsewhere. -/
theorem Setup.spares_pairOf (hstem : IsStem stem) (hm : m.IsAt site)
    (hhprof : m.files.node? (site.fileAt (stem ++ "." ++ "hprof")) ≠ some .dir)
    (hjson : m.files.node? (site.fileAt (stem ++ "." ++ "json")) ≠ some .dir)
    (haside : ∀ path, setup.WritesAside path → site.IsApart stem path) :
    setup.Spares (site.store.pairOf stem) m := by
  have hplace_hprof : place (m.absolute (site.store.pairOf stem).hprof) =
      site.fileAt (stem ++ "." ++ "hprof") := by
    rw [hm.absolute]
    exact site.place_absolute_join (hstem.isName "hprof" (by decide)) (hstem.ne_up "hprof")
  have hplace_json : place (m.absolute (site.store.pairOf stem).json) =
      site.fileAt (stem ++ "." ++ "json") := by
    rw [hm.absolute]
    exact site.place_absolute_join (hstem.isName "json" (by decide)) (hstem.ne_up "json")
  constructor
  · rintro path (rfl | rfl)
    · rw [hplace_hprof]
      exact hhprof
    · rw [hplace_json]
      exact hjson
  · rintro path hpath (⟨other, hother, hvisits⟩ | ⟨log, hlog, heq⟩)
    · rw [hm.absolute other] at hvisits
      obtain rfl | rfl := hpath
      · exact (haside other hother).1 (hplace_hprof ▸ hvisits)
      · exact (haside other hother).2 (hplace_json ▸ hvisits)
    · obtain rfl | rfl := hpath
      · exact hm.log log hlog _ (heq.symm.trans hplace_hprof)
      · exact hm.log log hlog _ (heq.symm.trans hplace_json)

end Sites

/-- A supervisor that keeps all that can be kept. -/
def keeping (indexer : Indexer) : Setup where
  settings := { general := { appVersion := "1.0" } }
  store := ⟨"/"⟩
  analyst := { indexer }
  ledgerPath := some "/ledger.json"
  uploads := some ⟨"/outbox"⟩

/-- A dump that was left behind, of a version that was analysed three times. -/
def leftBehind : World where
  machine.files := (FileTree.empty.insert ["analysis"] .dir).insert
    ["analysis", "1.0_5.hprof"] (.file "{}".toUTF8)
  memory.session.ledger := ⟨[("1.0", { analysisCount := 3 })]⟩

def takenUp : Job := ⟨DumpStore.pairOf ⟨"/"⟩ "1.0_5", {}, 1⟩

theorem spares_leftBehind (indexer : Indexer) :
    (keeping indexer).Spares takenUp.pair leftBehind.machine := by
  let site : Site := ⟨⟨"/"⟩, "1.0", "/"⟩
  have hstem : IsStem "1.0_5" := ⟨by decide, by decide, by decide⟩
  have hat : leftBehind.machine.IsAt site := ⟨rfl, fun _ hlog ↦ nomatch hlog⟩
  refine Setup.spares_pairOf hstem hat ?_ ?_ ?_
  · have hplace : site.fileAt ("1.0_5" ++ "." ++ "hprof") = ["analysis", "1.0_5.hprof"] := by
      decide +kernel
    rw [hplace, leftBehind, node?_insert_self _ (by decide)]
    exact fun hdir ↦ nomatch hdir
  · have hplace : site.fileAt ("1.0_5" ++ "." ++ "json") = ["analysis", "1.0_5.json"] := by
      decide +kernel
    rw [hplace, leftBehind, node?_insert_of_ne _ (by decide), node?_insert_of_ne _ (by decide)]
    exact fun hdir ↦ nomatch hdir
  · rintro path (⟨file, hfile, hpath⟩ | ⟨u, hu, htakes⟩)
    · obtain rfl : "/ledger.json" = file := Option.some.inj hfile
      have hparent : parent? "/ledger.json" = some "/" := by decide +kernel
      rw [hparent] at hpath
      obtain rfl | heq := hpath
      · constructor <;> decide +kernel
      · obtain rfl := Option.some.inj heq
        constructor <;> decide +kernel
    · obtain rfl : ⟨"/outbox"⟩ = u := hu.elim Option.some.inj Option.some.inj
      obtain hreceives | ⟨_ | _, hreceives⟩ := htakes
      all_goals
        exact isApart_of_receives (by decide +kernel) ⟨by decide +kernel, by decide +kernel⟩
          (by decide +kernel) hreceives

/-- How its analysis ends if nothing else goes wrong. -/
def afterwards (indexer : Indexer) : Outcome × World :=
  leftBehind.run (keeping indexer).settings (analyze (keeping indexer) takenUp)

/-- The dump stays with its report, unless the indexer breaks down. -/
theorem leftBehind_settles :
    (∃ r, (afterwards .documents).1 = .finished "/analysis/1.0_5.json" ∧
      Finished (keeping .documents) takenUp r leftBehind (afterwards .documents).2 ∧
      (afterwards .documents).2.memory.session.ledger.analysisCount "1.0" = 4) ∧
    ∃ e, (afterwards (.breaksDown "overflow")).1 = .failed "analysis panicked: overflow" ∧
      GivenUp (keeping (.breaksDown "overflow")) takenUp e leftBehind
        (afterwards (.breaksDown "overflow")).2 ∧
      (afterwards (.breaksDown "overflow")).2.memory.session.ledger.analysisCount "1.0" = 4 := by
  have hsorted : leftBehind.memory.session.ledger.IsSorted := List.pairwise_singleton _ _
  have hsettled (indexer : Indexer) : Settled (keeping indexer) takenUp (afterwards indexer).1
      leftBehind (afterwards indexer).2 := by
    obtain ⟨-, hends⟩ := analyze_settles hsorted (spares_leftBehind indexer)
    exact (hends _ _ (leftBehind.runs_run _ _)).1
  have hfinished : (afterwards .documents).1 = .finished "/analysis/1.0_5.json" := by
    decide +kernel
  have hfailed : (afterwards (.breaksDown "overflow")).1 =
      .failed "analysis panicked: overflow" := by
    decide +kernel
  constructor
  · obtain ⟨r, -, hleft⟩ | ⟨e, hother, -⟩ := hsettled .documents
    · exact ⟨r, hfinished, hleft, by decide +kernel⟩
    · cases hother.symm.trans hfinished
  · obtain ⟨r, hother, -⟩ | ⟨e, -, hleft⟩ := hsettled (.breaksDown "overflow")
    · cases hother.symm.trans hfailed
    · exact ⟨e, hfailed, hleft, by decide +kernel⟩

end HeapSentry.Supervisor
