import HeapSentry.Proofs.Storage.Trees
import HeapSentry.Storage.DumpStore

/-!
# The analysis directory of a machine

What requests to a machine do to the dumps and reports of a storage root.
-/

namespace HeapSentry

open Storage Storage.FileTree Storage.Path

namespace Machine

variable {m : Machine} {path : String}

/-! ## Where requests change the files -/

/-- Where a request may change the files. -/
def Request.Touches (m : Machine) : Request → Location → Prop
  | .write path _, l | .remove path, l | .removeDir path, l | .copy _ path, l =>
    l = place (m.absolute path)
  | .makeDirs path, l => Visits (m.absolute path) l
  | .log _, l => ∃ file ∈ m.logFile, l = place file
  | _, _ => False

/-- Whether a request removes no directory and leaves the log where it is. -/
def Request.IsGentle : Request → Prop
  | .removeDir _ | .logTo _ => False
  | _ => True

theorem eq_of_accept {path' : String} (h : m.accept path = .ok path') :
    path' = m.absolute path := by
  rw [accept] at h
  split at h
  next => exact (Except.ok.inj h).symm
  next => cases h

theorem evolves_settle {places : Location → Prop} {result : Except FileError FileTree}
    (h : ∀ t, result = .ok t → Evolves places m.files t) :
    Evolves places m.files (m.settle result).2.files := by
  cases result with
  | error e => exact .refl _ _
  | ok t => exact h t rfl

/-- A line is written to the log file, if that can be read. -/
theorem logLine_cases (m : Machine) (line : String) :
    m.logLine line = m ∨ ∃ file ∈ m.logFile, ∃ content,
      m.logLine line = (m.settle (m.files.write file content)).2 := by
  rw [logLine]
  split
  next => exact .inl rfl
  next file hfile =>
    split
    next => exact .inl rfl
    next => exact .inr ⟨file, hfile, _, rfl⟩

theorem workingDir_settle (m : Machine) (result : Except FileError FileTree) :
    (m.settle result).2.workingDir = m.workingDir := by
  cases result <;> rfl

theorem logFile_settle (m : Machine) (result : Except FileError FileTree) :
    (m.settle result).2.logFile = m.logFile := by
  cases result <;> rfl

theorem evolves_perform (m : Machine) {r : Request} (h : r.IsGentle) :
    Evolves (r.Touches m) m.files (m.perform r).2.files := by
  cases r with
  | write path content =>
      refine evolves_settle fun t ht ↦ ?_
      obtain ⟨place, haccept, hwrite⟩ := bind_eq_ok_iff.1 ht
      obtain rfl := eq_of_accept haccept
      exact evolves_write hwrite
  | makeDirs path =>
      cases haccept : m.accept path with
      | error e =>
          simp only [perform, haccept]
          exact .refl _ _
      | ok place =>
          obtain rfl := eq_of_accept haccept
          simp only [perform, haccept]
          exact evolves_makeDirs m.files _
  | copy source target =>
      refine evolves_settle fun t ht ↦ ?_
      obtain ⟨place, -, hrest⟩ := bind_eq_ok_iff.1 ht
      obtain ⟨place', haccept, hcopy⟩ := bind_eq_ok_iff.1 hrest
      obtain rfl := eq_of_accept haccept
      exact evolves_copy hcopy
  | remove path =>
      refine evolves_settle fun t ht ↦ ?_
      obtain ⟨place, haccept, hremove⟩ := bind_eq_ok_iff.1 ht
      obtain rfl := eq_of_accept haccept
      exact evolves_remove hremove
  | log line =>
      rw [perform]
      obtain hsame | ⟨file, hfile, content, hwrite⟩ := m.logLine_cases line
      · rw [hsame]
        exact .refl _ _
      · rw [hwrite]
        refine evolves_settle fun t ht ↦ (evolves_write ht).imp ?_
        rintro l rfl
        exact ⟨file, hfile, rfl⟩
  | removeDir path => exact h.elim
  | logTo path => exact h.elim
  | _ => exact .refl _ _

/-- Paths start where they did. -/
theorem workingDir_perform (m : Machine) (r : Request) :
    (m.perform r).2.workingDir = m.workingDir := by
  cases r with
  | write path content => exact workingDir_settle m _
  | copy source target => exact workingDir_settle m _
  | remove path => exact workingDir_settle m _
  | removeDir path => exact workingDir_settle m _
  | makeDirs path =>
      rw [perform]
      cases m.accept path <;> rfl
  | log line =>
      rw [perform]
      obtain hsame | ⟨file, -, content, hwrite⟩ := m.logLine_cases line
      · rw [hsame]
      · rw [hwrite, workingDir_settle]
  | _ => rfl

theorem logFile_perform (m : Machine) {r : Request} (h : r.IsGentle) :
    (m.perform r).2.logFile = m.logFile := by
  cases r with
  | write path content => exact logFile_settle m _
  | copy source target => exact logFile_settle m _
  | remove path => exact logFile_settle m _
  | makeDirs path =>
      rw [perform]
      cases m.accept path <;> rfl
  | log line =>
      rw [perform]
      obtain hsame | ⟨file, -, content, hwrite⟩ := m.logLine_cases line
      · rw [hsame]
      · rw [hwrite, logFile_settle]
  | removeDir path => exact h.elim
  | logTo path => exact h.elim
  | _ => rfl

theorem isProper_perform (h : m.files.IsProper) {r : Request} (hr : r.IsGentle) :
    (m.perform r).2.files.IsProper := by
  refine h.evolve (evolves_perform m hr) fun l hl ↦ ?_
  cases r with
  | makeDirs path => exact hl.proper
  | log line =>
      obtain ⟨file, -, rfl⟩ := hl
      exact (visits_place file).proper
  | write path content => exact (hl ▸ visits_place _ : Visits _ l).proper
  | remove path => exact (hl ▸ visits_place _ : Visits _ l).proper
  | copy source target => exact (hl ▸ visits_place _ : Visits _ l).proper
  | removeDir path => exact hr.elim
  | _ => exact hl.elim

/-- No request but one to make directories makes one. -/
theorem isDir_of_perform {r : Request} {l : Location} (hr : r.IsGentle)
    (hmakes : ∀ path, r = .makeDirs path → ¬ Visits (m.absolute path) l)
    (h : (m.perform r).2.files.node? l = some .dir) : m.files.node? l = some .dir := by
  have hsettle {result : Except FileError FileTree}
      (hresult : ∀ t, result = .ok t → t.node? l = some .dir → m.files.node? l = some .dir)
      (hdir : (m.settle result).2.files.node? l = some .dir) : m.files.node? l = some .dir := by
    cases result with
    | error e => exact hdir
    | ok t => exact hresult t rfl hdir
  cases r with
  | write path content =>
      refine hsettle (fun t ht ↦ ?_) h
      obtain ⟨place, -, hwrite⟩ := bind_eq_ok_iff.1 ht
      exact isDir_of_write hwrite
  | copy source target =>
      refine hsettle (fun t ht ↦ ?_) h
      obtain ⟨place, -, hrest⟩ := bind_eq_ok_iff.1 ht
      obtain ⟨place', -, hcopy⟩ := bind_eq_ok_iff.1 hrest
      exact isDir_of_copy hcopy
  | remove path =>
      refine hsettle (fun t ht ↦ ?_) h
      obtain ⟨place, -, hremove⟩ := bind_eq_ok_iff.1 ht
      exact isDir_of_remove hremove
  | makeDirs path =>
      rwa [(evolves_perform m hr).same l (hmakes path rfl)] at h
  | log line =>
      rw [perform] at h
      obtain hsame | ⟨file, -, content, hwrite⟩ := m.logLine_cases line
      · rwa [hsame] at h
      · rw [hwrite] at h
        exact hsettle (fun t ht ↦ isDir_of_write ht) h
  | removeDir path => exact hr.elim
  | logTo path => exact hr.elim
  | _ => exact h

end Machine

/-! ## Sites -/

/-- A storage root as it is seen from a directory, and a version. -/
structure Site where
  store : DumpStore
  version : String
  workingDir : String

namespace Site

variable {site : Site} {name other stem : String}

def absolute (site : Site) (path : String) : String :=
  if path = "" then "" else join site.workingDir path

/-- The analysis directory. -/
def dir (site : Site) : String := join site.workingDir site.store.analysisDir

/-- Where a file of the analysis directory stands. -/
def fileAt (site : Site) (name : String) : Location := place site.dir ++ [name]

/-- Whether a path leads neither to nor through a file of the analysis directory. -/
def Avoids (site : Site) (path : String) : Prop :=
  ∀ name, ¬ Visits (site.absolute path) (site.fileAt name)

theorem fileAt_ne_root (site : Site) (name : String) : site.fileAt name ≠ [] := by simp [fileAt]

theorem fileAt_inj : site.fileAt name = site.fileAt other ↔ name = other := by
  rw [fileAt, fileAt, List.append_cancel_left_eq, List.cons.injEq]
  exact and_iff_left rfl

theorem absolute_join (site : Site) (h : IsName name) :
    site.absolute (join site.store.analysisDir name) = join site.dir name := by
  rw [absolute, if_neg (join_ne_empty h _), join_join site.store.analysisDir_ne_empty h.relative,
    dir]

theorem absolute_dir (site : Site) : site.absolute site.store.analysisDir = site.dir :=
  if_neg site.store.analysisDir_ne_empty

theorem place_absolute_join (site : Site) (h : IsName name) (hup : name ≠ "..") :
    place (site.absolute (join site.store.analysisDir name)) = site.fileAt name := by
  rw [absolute_join site h, place_join h hup, fileAt]

theorem visits_join (h : IsName name) (hup : name ≠ "..") {base : String} {l : Location}
    (hvisits : Visits (join base name) l) : Visits base l ∨ l = place base ++ [name] := by
  obtain ⟨visited, hvisited, rfl⟩ := hvisits
  rw [names_join_name h] at hvisited
  obtain heq | hinit := List.prefix_concat_iff.1 hvisited
  · refine .inr ?_
    rw [heq, ← place_join h hup, place, names_join_name h]
  · exact .inl ⟨visited, hinit, rfl⟩

/-- A file of the analysis directory is none of the others. -/
theorem not_visits_join (havoids : site.Avoids site.store.analysisDir) (h : IsName name)
    (hup : name ≠ "..") (hne : name ≠ other) :
    ¬ Visits (site.absolute (join site.store.analysisDir name)) (site.fileAt other) := by
  intro hvisits
  rw [absolute_join site h] at hvisits
  obtain hdir | heq := visits_join h hup hvisits
  · exact havoids other (absolute_dir site ▸ hdir)
  · exact hne (fileAt_inj.1 heq).symm

end Site

/-! ## Machines at a site -/

namespace Machine

variable {m : Machine} {site : Site} {name stem : String}

/-- Whether paths start at the site, and the log is none of its files. -/
structure IsAt (m : Machine) (site : Site) : Prop where
  workingDir : m.workingDir = site.workingDir
  log : ∀ file ∈ m.logFile, ∀ name, place file ≠ site.fileAt name

theorem IsAt.absolute (h : m.IsAt site) (path : String) : m.absolute path = site.absolute path := by
  rw [Machine.absolute, Site.absolute, h.workingDir]

/-- Whether a request leaves a file of the analysis directory alone. -/
def Request.Leaves (site : Site) (name : String) : Request → Prop
  | .write path _ | .remove path | .copy _ path | .makeDirs path =>
    ¬ Visits (site.absolute path) (site.fileAt name)
  | .removeDir _ | .logTo _ => False
  | _ => True

theorem Request.Leaves.isGentle {r : Request} (h : r.Leaves site name) : r.IsGentle := by
  cases r with
  | removeDir path => exact h
  | logTo path => exact h
  | _ => trivial

theorem IsAt.perform (h : m.IsAt site) {r : Request} (hr : r.IsGentle) :
    (m.perform r).2.IsAt site where
  workingDir := (workingDir_perform m r).trans h.workingDir
  log := by
    rw [logFile_perform m hr]
    exact h.log

theorem IsAt.node?_perform (h : m.IsAt site) {r : Request} (hr : r.Leaves site name) :
    (m.perform r).2.files.node? (site.fileAt name) = m.files.node? (site.fileAt name) := by
  refine (evolves_perform m hr.isGentle).same _ fun htouches ↦ ?_
  cases r with
  | write path content => exact hr (h.absolute path ▸ htouches ▸ visits_place _)
  | remove path => exact hr (h.absolute path ▸ htouches ▸ visits_place _)
  | copy source target => exact hr (h.absolute target ▸ htouches ▸ visits_place _)
  | makeDirs path => exact hr (h.absolute path ▸ htouches)
  | log line =>
      obtain ⟨file, hfile, heq⟩ := htouches
      exact h.log file hfile name heq.symm
  | removeDir path => exact hr
  | logTo path => exact hr
  | _ => exact htouches

/-! ## Requests for a file of the analysis directory -/

section Files

variable (h : m.IsAt site) (hname : IsEntry name)
  (haccepts : isAcceptable (join site.store.analysisDir name) = true)
include h hname haccepts

theorem IsAt.accept_join :
    m.accept (join site.store.analysisDir name) = .ok (join site.dir name) := by
  rw [accept, if_pos haccepts, h.absolute, site.absolute_join hname.isName]

variable (hdir : m.files.HasDir site.dir)
include hdir

theorem IsAt.isOk_size : ((m.perform (.size (join site.store.analysisDir name))).1).isOk =
    (m.files.node? (site.fileAt name)).isSome := by
  rw [Machine.perform, h.accept_join hname haccepts]
  exact hdir.isOk_size_join hname

variable (hnode : m.files.node? (site.fileAt name) ≠ some .dir)
include hnode

theorem IsAt.node?_remove :
    (m.perform (.remove (join site.store.analysisDir name))).2.files.node? (site.fileAt name) =
      none := by
  rw [Machine.perform, h.accept_join hname haccepts]
  change (m.settle (m.files.remove (join site.dir name))).2.files.node? (site.fileAt name) = none
  rw [hdir.remove_join hname hnode]
  split
  next => exact node?_erase_self _ (site.fileAt_ne_root name)
  next hnone =>
    have hnone : m.files.node? (place site.dir ++ [name]) = none := by simpa using hnone
    exact hnone

end Files

end Machine

end HeapSentry
