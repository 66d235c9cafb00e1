import HeapSentry.Proofs.Storage.Pairs

/-!
# What a scan finds

On a machine where directories can be listed, a scan takes up a dump exactly if it is there without
a report, and removes it if it has one.
-/

namespace HeapSentry

open Storage Storage.FileTree Storage.Path

namespace Site

variable {site : Site}

theorem isName_analysis : IsName "analysis" := ⟨by decide, by decide, by decide⟩

/-- Dumps and those that were taken by hand stand in directories next to each other. -/
theorem exists_base (site : Site) : ∃ base, site.dir = join base "analysis" ∧
    site.absolute site.store.manualDir = join base "manual" := by
  have hmanual : IsName "manual" := ⟨by decide, by decide, by decide⟩
  rw [absolute, DumpStore.manualDir, if_neg (join_ne_empty hmanual _), dir, DumpStore.analysisDir]
  by_cases hroot : site.store.root = ""
  · refine ⟨site.workingDir, ?_, ?_⟩
    · simp [join, hroot]
    · simp [join, hroot]
  · refine ⟨join site.workingDir site.store.root, ?_, ?_⟩
    · rw [join_join hroot isName_analysis.relative]
    · rw [join_join hroot hmanual.relative]

theorem dir_ne_empty (site : Site) : site.dir ≠ "" := by
  obtain ⟨base, hdir, -⟩ := site.exists_base
  rw [hdir]
  exact join_ne_empty isName_analysis base

theorem avoids_manualDir (havoids : site.Avoids site.store.analysisDir) :
    site.Avoids site.store.manualDir := by
  have hmanual : IsName "manual" := ⟨by decide, by decide, by decide⟩
  obtain ⟨base, hdir, habsolute⟩ := site.exists_base
  intro name hvisits
  rw [habsolute] at hvisits
  obtain hbase | heq := visits_join hmanual (by decide) hvisits
  · refine havoids name ?_
    obtain ⟨visited, hvisited, hplace⟩ := hbase
    rw [absolute_dir, hdir]
    refine ⟨visited, ?_, hplace⟩
    rw [names_join_name isName_analysis]
    exact hvisited.trans (List.prefix_append _ _)
  · have hlength := congrArg List.length heq
    rw [fileAt, hdir, place_join isName_analysis (by decide)] at hlength
    simp at hlength

end Site

namespace Machine

variable {m : Machine} {site : Site} {stem name dir : String}

/-- Whether a directory can be listed if it is there. -/
def CanList (m : Machine) (dir : String) : Prop :=
  ∀ e, (m.perform (.entries dir)).1 = .error e → e = .notFound

theorem canList_of_isOk (h : (m.perform (.entries dir)).1.isOk = true) : m.CanList dir := by
  intro e he
  rw [he] at h
  cases h

/-- The names of the files that are listed. -/
def filesIn (found : List (String × Bool)) : List String :=
  (found.filter (!·.2)).map Prod.fst

theorem mem_filesIn {found : List (String × Bool)} :
    name ∈ filesIn found ↔ (name, false) ∈ found := by
  simp [filesIn]

/-- The names of the files that a directory holds, as far as it can be listed. -/
def listing (m : Machine) (dir : String) : List String :=
  match (m.perform (.entries dir)).1 with
  | .ok found => filesIn found
  | .error _ => []

theorem run_listFiles_eq (m : Machine) (dir : String) : m.run (DumpStore.listFiles dir) =
    m.run (match (m.perform (.entries dir)).1.map filesIn with
      | .ok names => pure (.ok (names.map (join dir)))
      | .error .notFound => pure (.ok [])
      | .error _ => pure (.error ⟨dir⟩) : OnMachine (Except PathFailure (List String))) := rfl

theorem run_listFiles (h : m.CanList dir) :
    m.run (DumpStore.listFiles dir) = (.ok ((m.listing dir).map (join dir)), m) := by
  rw [run_listFiles_eq, listing]
  cases hfound : (m.perform (.entries dir)).1 with
  | ok found => rfl
  | error e =>
      obtain rfl := h e hfound
      rfl

/-- Whether the names that are listed are names, and different ones. -/
def IsOrderly (names : List String) : Prop :=
  names.Nodup ∧ ∀ name ∈ names, IsName name ∧ name ≠ ".."

/-- What stands around a name is orderly, and does not hold it again. -/
theorem IsOrderly.split {before later : List String} (h : IsOrderly (before ++ name :: later)) :
    IsOrderly before ∧ IsOrderly later ∧ name ∉ before ∧ name ∉ later := by
  obtain ⟨hnodup, hall⟩ := h
  refine ⟨⟨hnodup.sublist (List.sublist_append_left _ _), fun other hother ↦
    hall other (List.mem_append_left _ hother)⟩, ⟨?_, fun other hother ↦
      hall other (List.mem_append_right _ (List.mem_cons_of_mem _ hother))⟩, ?_⟩
  · exact hnodup.sublist ((List.sublist_cons_self _ _).trans (List.sublist_append_right _ _))
  · rw [List.nodup_append, List.nodup_cons] at hnodup
    exact ⟨fun hmem ↦ hnodup.2.2 _ hmem _ List.mem_cons_self rfl, hnodup.2.1.1⟩

theorem isOrderly_filesIn (hproper : m.files.IsProper) {found : List (String × Bool)}
    (h : (m.perform (.entries dir)).1 = .ok found) : IsOrderly (filesIn found) := by
  obtain ⟨path, -, hentries⟩ := bind_eq_ok_iff.1 h
  constructor
  · have hsub : (filesIn found).Sublist (found.map Prod.fst) := List.filter_sublist.map _
    exact hsub.nodup (nodup_entries hentries)
  · intro name hname
    obtain ⟨n, hnode, -⟩ := (mem_entries hentries).1 (mem_filesIn.1 hname)
    refine hproper _ (by rw [hnode]; rfl) name ?_
    exact List.mem_append_right _ (List.mem_singleton_self name)

variable (hm : m.IsAt site)
include hm

/-- A file that is listed is there. -/
theorem IsAt.has_of_mem_filesIn {found : List (String × Bool)}
    (h : (m.perform (.entries site.store.analysisDir)).1 = .ok found)
    (hname : name ∈ filesIn found) :
    m.Has site name := by
  obtain ⟨path, haccept, hentries⟩ := bind_eq_ok_iff.1 h
  obtain rfl := eq_of_accept haccept
  obtain ⟨n, hnode, -⟩ := (mem_entries hentries).1 (mem_filesIn.1 hname)
  rw [hm.absolute, site.absolute_dir] at hnode
  rw [Has, Site.fileAt, hnode]
  rfl

/-- A file that is there is listed. -/
theorem IsAt.mem_listing (hlist : m.CanList site.store.analysisDir)
    (hnode : m.files.node? (site.fileAt name) ≠ some .dir)
    (hroom : m.Has site name → m.files.HasDir site.dir) :
    name ∈ m.listing site.store.analysisDir ↔ m.Has site name := by
  rw [listing]
  cases hfound : (m.perform (.entries site.store.analysisDir)).1 with
  | ok found =>
      refine ⟨hm.has_of_mem_filesIn hfound, fun hhas ↦ mem_filesIn.2 ?_⟩
      obtain ⟨path, haccept, hentries⟩ := bind_eq_ok_iff.1 hfound
      obtain rfl := eq_of_accept haccept
      rw [hm.absolute, site.absolute_dir] at hentries
      obtain ⟨n, hn⟩ := Option.isSome_iff_exists.1 hhas
      refine (mem_entries hentries).2 ⟨n, hn, ?_⟩
      cases n with
      | dir => exact absurd hn hnode
      | file content => rfl
  | error e =>
      obtain rfl := hlist e hfound
      refine ⟨fun hmem ↦ (nomatch hmem), fun hhas ↦ ?_⟩
      have haccept : m.accept site.store.analysisDir = .ok site.dir := by
        rw [accept]
        split
        next => rw [hm.absolute, site.absolute_dir]
        next hnot =>
          have herror := hfound
          rw [Machine.perform, accept, if_neg hnot] at herror
          cases herror
      have hentries := (hroom hhas).entries site.dir_ne_empty
      rw [Machine.perform, haccept] at hfound
      change m.files.entries site.dir = _ at hfound
      rw [hentries] at hfound
      cases hfound

/-- A directory apart from the others can be listed as before. -/
theorem IsAt.canList_of_evolves {m' : Machine} (hm' : m'.IsAt site)
    (hevolves : Evolves (fun l ↦ ∃ file, l = site.fileAt file) m.files m'.files)
    (havoids : site.Avoids dir) (h : m.CanList dir) : m'.CanList dir := by
  intro e herror
  refine h e ?_
  have haccept : m'.accept dir = m.accept dir := by
    rw [accept, accept, hm.absolute, hm'.absolute]
  rw [Machine.perform, haccept] at herror
  rw [Machine.perform]
  cases hplace : m.accept dir with
  | error e' =>
      rw [hplace] at herror
      exact herror
  | ok path =>
      obtain rfl := eq_of_accept hplace
      rw [hplace] at herror
      refine entries_error (look_congr fun l hl ↦ hevolves.same l ?_) herror
      rintro ⟨file, rfl⟩
      exact havoids file (hm.absolute dir ▸ hl)

variable (havoids : site.Avoids site.store.analysisDir) (h : site.Admits stem)
include havoids h

/-- A dump that has a report is removed. -/
theorem IsAt.run_settle (hprof : m.files.node? (site.fileAt (stem ++ "." ++ "hprof")) ≠ some .dir)
    (hroom : m.files.HasDir site.dir) (scan : StaleScan) :
    let after := m.run (DumpStore.settle scan (site.store.pairOf stem) true)
    after.2.IsAt site ∧ ¬ after.2.Has site (stem ++ "." ++ "hprof") ∧
      after.1.reanalyze = scan.reanalyze := by
  have hgone := hm.node?_remove h.entry_hprof h.acceptable hroom hprof
  have hat := hm.perform (show Request.IsGentle
    (.remove (join site.store.analysisDir (stem ++ "." ++ "hprof"))) from trivial)
  have hleaves : Request.Leaves site (stem ++ "." ++ "hprof")
      (.remove (join site.store.analysisDir (stem ++ "." ++ "json"))) :=
    Site.not_visits_join havoids h.entry_json.isName h.entry_json.ne_up h.hprof_ne_json.symm
  refine ⟨hat.perform hleaves.isGentle, fun hstill ↦ ?_, rfl⟩
  rw [Has] at hstill
  have hgone : (m.run (DumpStore.settle scan (site.store.pairOf stem) true)).2.files.node?
      (site.fileAt (stem ++ "." ++ "hprof")) = none := (hat.node?_perform hleaves).trans hgone
  rw [hgone] at hstill
  cases hstill

section SortOut

variable {names : List String} (hnames : IsOrderly names) (scan : StaleScan)
include hnames

theorem IsAt.run_sortOutAll_others (hnew : stem ++ "." ++ "hprof" ∉ names) :
    let after := m.run (DumpStore.sortOutAll site.version scan (DumpStore.pathsOf site.store names))
    after.2.IsAt site ∧ site.AddsOthers stem scan after.1 ∧
      (after.2.Has site (stem ++ "." ++ "hprof") ↔ m.Has site (stem ++ "." ++ "hprof")) ∧
        (after.2.Has site (stem ++ "." ++ "json") ↔ m.Has site (stem ++ "." ++ "json")) := by
  obtain ⟨hasks, hreturns⟩ := DumpStore.sortOutAll_others havoids h hnames.2 hnew scan
  have hprof := hm.node?_run (hasks.imp fun r hr ↦ hr.1)
  have hjson := hm.node?_run (hasks.imp fun r hr ↦ hr.2)
  refine ⟨(hm.evolves_run (DumpStore.asks_sortOutAll_names hnames.2 _ scan)).1,
    hreturns.runOn _ m, ?_, ?_⟩
  · rw [Has, hprof, Has]
  · rw [Has, hjson, Has]

/-- The dump is taken up if it has no report, and removed otherwise. -/
theorem IsAt.run_sortOutAll
    (hprof : m.files.node? (site.fileAt (stem ++ "." ++ "hprof")) ≠ some .dir)
    (hmem : stem ++ "." ++ "hprof" ∈ names) (hdir : m.files.HasDir site.dir)
    (hscan : site.store.pairOf stem ∉ scan.reanalyze) :
    let after := m.run (DumpStore.sortOutAll site.version scan (DumpStore.pathsOf site.store names))
    (site.store.pairOf stem ∈ after.1.reanalyze ↔ ¬ m.Has site (stem ++ "." ++ "json")) ∧
      (m.Has site (stem ++ "." ++ "json") → ¬ after.2.Has site (stem ++ "." ++ "hprof")) := by
  obtain ⟨before, later, rfl⟩ := List.append_of_mem hmem
  obtain ⟨hbefore, hlater, hnew⟩ := hnames.split
  intro after
  obtain ⟨hat, hadds, -, hreport⟩ := hm.run_sortOutAll_others havoids h hbefore scan hnew.1
  have hsame := hm.node?_run ((DumpStore.sortOutAll_others havoids h hbefore.2 hnew.1 scan).1.imp
    fun r hr ↦ hr.1)
  have hroom := hdir.evolve (hm.evolves_run
    (DumpStore.asks_sortOutAll_names hbefore.2 site.version scan)).2
  generalize hrun : m.run (DumpStore.sortOutAll site.version scan
    (DumpStore.pathsOf site.store before)) = first at *
  obtain ⟨found, m'⟩ := first
  have hafter : after = m'.run (OnMachine.exists? (site.store.pairOf stem).json >>= fun reported ↦
      DumpStore.settle found (site.store.pairOf stem) reported >>= fun scan ↦
        DumpStore.sortOutAll site.version scan (DumpStore.pathsOf site.store later)) := by
    change m.run _ = _
    rw [DumpStore.sortOutAll_split h, run_bind, hrun]
  have hexists : (m'.perform (.size (site.store.pairOf stem).json)).1.isOk =
      (m'.files.node? (site.fileAt (stem ++ "." ++ "json"))).isSome :=
    hat.isOk_size h.entry_json h.acceptable_json hroom
  have hfound : site.store.pairOf stem ∉ found.reanalyze := fun hmem ↦
    hscan ((hadds.mem_iff h).1 hmem)
  rw [run_bind] at hafter
  change after = m'.run (DumpStore.settle found _
    (m'.perform (.size (site.store.pairOf stem).json)).1.isOk >>= _) at hafter
  rw [hexists] at hafter
  rw [← hreport]
  cases hreported : (m'.files.node? (site.fileAt (stem ++ "." ++ "json"))).isSome with
  | false =>
      rw [hreported] at hafter
      have hnone : ¬ m'.Has site (stem ++ "." ++ "json") := by
        rw [Has, hreported]
        exact Bool.false_ne_true
      obtain ⟨-, hadds', -⟩ := hat.run_sortOutAll_others havoids h hlater
        { found with reanalyze := found.reanalyze ++ [site.store.pairOf stem] } hnew.2
      refine ⟨iff_of_true ?_ hnone, fun hhas ↦ absurd hhas hnone⟩
      rw [hafter]
      exact (hadds'.mem_iff h).2 (List.mem_append_right _ (List.mem_singleton_self _))
  | true =>
      rw [hreported, run_bind] at hafter
      have hhas : m'.Has site (stem ++ "." ++ "json") := hreported
      obtain ⟨hat', hgone, hsame'⟩ := hat.run_settle havoids h (hsame ▸ hprof) hroom found
      generalize m'.run (DumpStore.settle found (site.store.pairOf stem) true) = settled at *
      obtain ⟨-, hadds', hkept, -⟩ := hat'.run_sortOutAll_others havoids h hlater settled.1 hnew.2
      rw [hafter]
      refine ⟨iff_of_false (fun hmem ↦ ?_) (not_not_intro hhas), fun _ ↦ hkept.not.2 hgone⟩
      exact hfound (hsame' ▸ (hadds'.mem_iff h).1 hmem)

end SortOut

/-- A scan takes up a dump exactly if it is there without a report, and leaves no other. -/
theorem IsAt.exists_scan (hproper : m.files.IsProper)
    (hprof : m.files.node? (site.fileAt (stem ++ "." ++ "hprof")) ≠ some .dir)
    (hroom : m.Has site (stem ++ "." ++ "hprof") → m.files.HasDir site.dir)
    (hlist : m.CanList site.store.analysisDir) (hmanual : m.CanList site.store.manualDir) :
    ∃ scan m', m.run (site.store.scanStale site.version) = (.ok scan, m') ∧ m'.IsAt site ∧
      (site.store.pairOf stem ∈ scan.reanalyze ↔
        m.Has site (stem ++ "." ++ "hprof") ∧ ¬ m.Has site (stem ++ "." ++ "json")) ∧
      (m'.Has site (stem ++ "." ++ "hprof") →
        m.Has site (stem ++ "." ++ "hprof") ∧ ¬ m.Has site (stem ++ "." ++ "json")) := by
  have hmem := hm.mem_listing hlist hprof hroom
  have hnames : IsOrderly (m.listing site.store.analysisDir) := by
    rw [listing]
    split
    next found hfound => exact isOrderly_filesIn hproper hfound
    next => exact ⟨List.nodup_nil, fun _ h ↦ (nomatch h)⟩
  obtain ⟨hat, hevolves⟩ := hm.evolves_run
    (DumpStore.asks_sortOutAll_names hnames.2 site.version {})
  have hmanual' := hm.canList_of_evolves hat hevolves (Site.avoids_manualDir havoids) hmanual
  have hothers := hm.run_sortOutAll_others havoids h hnames {}
  have hdump := hm.run_sortOutAll havoids h hnames {} hprof
  generalize hrun : m.run (DumpStore.sortOutAll site.version {}
    (DumpStore.pathsOf site.store (m.listing site.store.analysisDir))) = sorted at *
  obtain ⟨found, m'⟩ := sorted
  let manual := (m'.listing site.store.manualDir).map (join site.store.manualDir)
  refine ⟨{ found with manual }, m', ?_, hat, ?_, ?_⟩
  · rw [DumpStore.scanStale, run_bind, run_listFiles hlist]
    change m.run (DumpStore.sortOutAll site.version {} (DumpStore.pathsOf site.store _) >>= _) = _
    rw [run_bind, hrun, run_bind, run_listFiles hmanual']
    rfl
  · by_cases hlisted : stem ++ "." ++ "hprof" ∈ m.listing site.store.analysisDir
    · have hhas := hmem.1 hlisted
      rw [and_iff_right hhas]
      exact (hdump hlisted (hroom hhas) List.not_mem_nil).1
    · have hnot := hmem.not.1 hlisted
      refine iff_of_false (fun hfound ↦ ?_) fun hboth ↦ hnot hboth.1
      exact absurd (((hothers hlisted).2.1.mem_iff h).1 hfound) List.not_mem_nil
  · intro hstill
    by_cases hlisted : stem ++ "." ++ "hprof" ∈ m.listing site.store.analysisDir
    · have hhas := hmem.1 hlisted
      refine ⟨hhas, fun hreport ↦ ?_⟩
      exact (hdump hlisted (hroom hhas) List.not_mem_nil).2 hreport hstill
    · exact (hmem.not.1 hlisted ((hothers hlisted).2.2.1.1 hstill)).elim

end Machine

end HeapSentry
