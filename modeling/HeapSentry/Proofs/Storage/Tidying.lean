import HeapSentry.Proofs.Storage.Clearing
import HeapSentry.Proofs.Storage.Departing

/-!
# What a scan leaves behind

A scan removes the files whose names go, lists them in order, and leaves everything else as it is.
Another scan finds the same dumps again and nothing to remove.
-/

namespace HeapSentry

open Storage Storage.FileTree Storage.Path

namespace Machine

/-- Whether a scan can go about its work: there is nothing but files in the analysis directory, and
each of them can be removed. -/
structure CanTidy (m : Machine) (store : DumpStore) : Prop where
  proper : m.files.IsProper
  analysis : m.CanList store.analysisDir
  manual : m.CanList store.manualDir
  regular : ∀ found, (m.perform (.entries store.analysisDir)).1 = .ok found →
    ∀ name, (name, true) ∉ found
  removable : ∀ name ∈ m.listing store.analysisDir,
    (m.perform (.remove (join store.analysisDir name))).1 = .ok ()

variable {m m' : Machine} {store : DumpStore} {site : Site} {version name stem : String}
  {names : List String}

namespace CanTidy

variable (h : m.CanTidy store)
include h

theorem exists_content (hname : name ∈ m.listing store.analysisDir) :
    ∃ content, m.lookAt (join store.analysisDir name) = .ok (.file content) :=
  perform_remove_eq_ok_iff.1 (h.removable name hname)

theorem isOrderly : IsOrderly (m.listing store.analysisDir) :=
  DumpStore.isOrderly_listing h.proper store.analysisDir

theorem reaches (hname : name ∈ m.listing store.analysisDir) (version : String) :
    m.Reaches ⟨store, version, m.workingDir⟩ := by
  obtain ⟨content, hfile⟩ := h.exists_content hname
  obtain ⟨hisName, hup⟩ := h.isOrderly.2 name hname
  have hworking : m.workingDir = (Site.mk store version m.workingDir).workingDir := rfl
  exact (mem_listing_of_lookAt hworking hisName hup hfile).1

/-- A report that a scan finds is one that is listed. -/
theorem isOk_size_iff (hstem : IsStem stem) :
    (m.perform (.size (store.pairOf stem).json)).1.isOk = true ↔
      stem ++ "." ++ "json" ∈ m.listing store.analysisDir := by
  have hname : IsName (stem ++ "." ++ "json") := hstem.isName "json" (by decide)
  have hup : stem ++ "." ++ "json" ≠ ".." := hstem.ne_up "json"
  have hworking : m.workingDir = (Site.mk store "" m.workingDir).workingDir := rfl
  rw [perform_size_eq]
  constructor
  · intro hok
    cases hlook : m.lookAt (store.pairOf stem).json with
    | error e =>
        rw [hlook] at hok
        cases hok
    | ok n =>
        obtain ⟨-, found, hfound, hmem⟩ := mem_entries_of_lookAt hworking hname hup hlook
        cases n with
        | dir => exact absurd hmem (h.regular found hfound _)
        | file content =>
            rw [listing, hfound, mem_filesIn]
            exact hmem
  · intro hlisted
    obtain ⟨content, hfile⟩ := h.exists_content hlisted
    have hlook : m.lookAt (store.pairOf stem).json = .ok (.file content) := hfile
    rw [hlook]
    rfl

end CanTidy

end Machine

namespace Storage.DumpStore

variable {store : DumpStore} {m m' : Machine} {version name stem : String} {names : List String}

/-- What a scan finds when these names are listed. -/
def scanOf (store : DumpStore) (version : String) (names manual : List String) : StaleScan where
  reanalyze := (names.filter (awaits version names)).map fun name ↦
    .ofHprof (join store.analysisDir name)
  deleted := store.pathsOf (departing version names)
  manual := manual.map (join store.manualDir)

theorem flatMap_ite {α β : Type} (p : α → Bool) (f : α → List β) (as : List α) :
    (as.flatMap fun a ↦ if p a then f a else []) = (as.filter p).flatMap f := by
  induction as with
  | nil => rfl
  | cons a as ih =>
      rw [List.flatMap_cons, ih]
      cases hp : p a <;> simp [hp]

theorem finding_eq (h : m.CanTidy store) (version : String) (hname : IsName name) :
    store.finding m version name =
      ⟨if goes version (m.listing store.analysisDir) name then company version name else [],
        if awaits version (m.listing store.analysisDir) name
          then [.ofHprof (join store.analysisDir name)] else []⟩ := by
  rcases name_cases hname version with hforeign | ⟨stem, hstem, rfl, hmark⟩ | ⟨hmark, hextension⟩
  · have hisForeign : isForeign version name = true := by simp [isForeign, hforeign]
    have hno : isDump version name = false := by simp [isDump, hforeign]
    rw [finding_of_foreign hforeign]
    simp [goes, awaits, company, hisForeign, hno]
  · have hdump : isDump version (stem ++ "." ++ "hprof") = true :=
      (isDump_iff hname).2 ⟨stem, hstem, rfl, hmark⟩
    have hreport := h.isOk_size_iff hstem
    rw [finding_of_dump hstem hmark, ← ofHprof_join store hstem]
    by_cases hlisted : stem ++ "." ++ "json" ∈ m.listing store.analysisDir
    · rw [if_pos (by rw [ofHprof_join store hstem]; exact hreport.2 hlisted)]
      simp [goes, awaits, company, isForeign_of_isDump hdump, hdump, reportOf_append hstem, hlisted]
    · rw [if_neg (by rw [ofHprof_join store hstem]; exact fun hok ↦ hlisted (hreport.1 hok))]
      simp [goes, awaits, isForeign_of_isDump hdump, hdump, reportOf_append hstem, hlisted]
  · have hisForeign : isForeign version name = false := by simp [isForeign, hmark]
    have hno : isDump version name = false := by simp [isDump, hextension]
    rw [finding_of_other hmark hextension]
    simp [goes, awaits, hisForeign, hno]

theorem findings_eq (h : m.CanTidy store) :
    store.findings m version (m.listing store.analysisDir) =
      ⟨departing version (m.listing store.analysisDir),
        ((m.listing store.analysisDir).filter (awaits version (m.listing store.analysisDir))).map
          fun name ↦ .ofHprof (join store.analysisDir name)⟩ := by
  have hfinding : ∀ name ∈ m.listing store.analysisDir, store.finding m version name = _ :=
    fun name hname ↦ finding_eq h version (h.isOrderly.2 name hname).1
  rw [findings, Finding.mk.injEq]
  constructor
  · rw [List.flatMap_congr fun name hname ↦ congrArg Finding.removed (hfinding name hname)]
    exact flatMap_ite _ _ _
  · rw [List.flatMap_congr fun name hname ↦ congrArg Finding.taken (hfinding name hname),
      List.map_eq_flatMap]
    exact flatMap_ite _ _ _

/-! ## After the scan -/

/-- The machine when the files that go are gone. -/
def tidied (store : DumpStore) (version : String) (m : Machine) : Machine :=
  m.discard store (departing version (m.listing store.analysisDir))

theorem tidied_eq (store : DumpStore) (version : String) (m : Machine) :
    store.tidied version m = { m with files := (store.tidied version m).files } :=
  Machine.discard_eq m store _

section Tidied

variable (h : m.CanTidy store)
include h

theorem isName_of_mem_departing : ∀ name ∈ departing version (m.listing store.analysisDir),
    IsName name ∧ name ≠ ".." :=
  fun name hname ↦ h.isOrderly.2 name (mem_departing_iff.1 hname).1

/-- If nothing is listed, nothing is done; otherwise the directory is there. -/
theorem tidied_cases (version : String) :
    (m.listing store.analysisDir = [] ∧ store.tidied version m = m) ∨
      m.Reaches ⟨store, version, m.workingDir⟩ := by
  cases hnames : m.listing store.analysisDir with
  | nil =>
      refine .inl ⟨rfl, ?_⟩
      rw [tidied, hnames]
      rfl
  | cons name names =>
      have hname : name ∈ m.listing store.analysisDir := by
        rw [hnames]
        exact List.mem_cons_self
      exact .inr (h.reaches hname version)

theorem node?_tidied {l : Location} (hl : ∀ name,
    Departs version (m.listing store.analysisDir) name →
      l ≠ place (m.absolute (join store.analysisDir name))) :
    (store.tidied version m).files.node? l = m.files.node? l := by
  rcases tidied_cases h version with ⟨-, hsame⟩ | hm
  · rw [hsame]
  · apply hm.node?_discard (isName_of_mem_departing h)
    intro name hname
    obtain ⟨hisName, hup⟩ := isName_of_mem_departing h name hname
    have hne := hl name (mem_departing_iff.1 hname)
    rwa [hm.absolute_join hisName, place_join hisName hup] at hne

theorem lookAt_tidied_of_departs (hname : Departs version (m.listing store.analysisDir) name) :
    (store.tidied version m).lookAt (join store.analysisDir name) = .error .notFound := by
  obtain ⟨content, hfile⟩ := h.exists_content hname.1
  have hm := h.reaches hname.1 version
  exact hm.lookAt_discard_of_mem (isName_of_mem_departing h) (mem_departing_iff.2 hname) hfile

theorem lookAt_tidied_of_stays (hname : name ∈ staying version (m.listing store.analysisDir)) :
    (store.tidied version m).lookAt (join store.analysisDir name) =
      m.lookAt (join store.analysisDir name) := by
  obtain ⟨hlisted, hstays⟩ := List.mem_filter.1 hname
  obtain ⟨hisName, hup⟩ := h.isOrderly.2 name hlisted
  have hm := h.reaches hlisted version
  exact hm.lookAt_discard (isName_of_mem_departing h) hisName hup (of_decide_eq_true hstays)

/-- The files that go are gone, and the others stay. -/
theorem node?_tidied_file (name : String) :
    (store.tidied version m).files.node? (place (m.absolute store.analysisDir) ++ [name]) =
      if decide (name ∉ departing version (m.listing store.analysisDir))
        then m.files.node? (place (m.absolute store.analysisDir) ++ [name]) else none := by
  rcases tidied_cases h version with ⟨hnil, hsame⟩ | hm
  · rw [hsame, hnil]
    rfl
  · rw [show m.absolute store.analysisDir = _ from hm.absolute_dir]
    change (m.discard store _).files.node? (Site.fileAt ⟨store, version, m.workingDir⟩ name) = _
    by_cases hdeparts : name ∈ departing version (m.listing store.analysisDir)
    · obtain ⟨content, hfile⟩ := h.exists_content (mem_departing_iff.1 hdeparts).1
      rw [if_neg (by simpa using hdeparts)]
      exact hm.node?_discard_of_mem (isName_of_mem_departing h) hdeparts hfile
    · rw [if_pos (by simpa using hdeparts)]
      apply hm.node?_discard (isName_of_mem_departing h)
      rintro other hother heq
      rw [Site.fileAt_inj.1 heq] at hdeparts
      exact hdeparts hother

theorem lookAt_dir_tidied : (store.tidied version m).lookAt store.analysisDir =
    m.lookAt store.analysisDir := by
  rcases tidied_cases h version with ⟨-, hsame⟩ | hm
  · rw [hsame]
  · exact hm.lookAt_analysisDir (hm.discard _)

theorem lookAt_manualDir_tidied :
    (store.tidied version m).lookAt store.manualDir = m.lookAt store.manualDir := by
  rcases tidied_cases h version with ⟨-, hsame⟩ | hm
  · rw [hsame]
  · exact hm.lookAt_manualDir_discard (isName_of_mem_departing h)

theorem listing_tidied : (store.tidied version m).listing store.analysisDir =
    staying version (m.listing store.analysisDir) :=
  Machine.listing_eq_filter (by rw [tidied_eq]) (lookAt_dir_tidied h) (node?_tidied_file h)

theorem listing_manualDir_tidied :
    (store.tidied version m).listing store.manualDir = m.listing store.manualDir := by
  have hfiles : ∀ name, (store.tidied version m).files.node?
      (place (m.absolute store.manualDir) ++ [name]) =
        if true then m.files.node? (place (m.absolute store.manualDir) ++ [name]) else none := by
    intro name
    apply node?_tidied h
    intro other hother heq
    let site : Site := ⟨store, version, m.workingDir⟩
    obtain ⟨hisName, hup⟩ := h.isOrderly.2 other hother.1
    obtain ⟨base, hdir, hmanual⟩ := site.exists_base
    have hplace : place (m.absolute (join store.analysisDir other)) = site.fileAt other :=
      site.place_absolute_join hisName hup
    have hmanual : m.absolute store.manualDir = join base "manual" := hmanual
    rw [hplace, Site.fileAt, hdir, hmanual, place_join Site.isName_analysis (by decide),
      place_join ⟨by decide, by decide, by decide⟩ (by decide)] at heq
    have hlast := (List.append_inj' (List.append_inj' heq rfl).1 rfl).2
    exact absurd hlast (by decide)
  have hlisting : (store.tidied version m).listing store.manualDir =
      (m.listing store.manualDir).filter fun _ ↦ true :=
    Machine.listing_eq_filter (by rw [tidied_eq]) (lookAt_manualDir_tidied h) hfiles
  rw [hlisting, List.filter_true]

theorem canTidy_tidied : (store.tidied version m).CanTidy store where
  proper := Machine.isProper_discard h.proper store _
  analysis := Machine.canList_congr (by rw [tidied_eq]) (lookAt_dir_tidied h) h.analysis
  manual := Machine.canList_congr (by rw [tidied_eq]) (lookAt_manualDir_tidied h) h.manual
  regular found hfound name hmem := by
    obtain ⟨found', hfound'⟩ : ∃ found',
        (m.perform (.entries store.analysisDir)).1 = .ok found' := by
      rw [Machine.exists_entries_iff, ← lookAt_dir_tidied h, ← Machine.exists_entries_iff]
      exact ⟨found, hfound⟩
    apply h.regular found' hfound' name
    obtain ⟨path, haccept, hentries⟩ := bind_eq_ok_iff.1 hfound
    obtain ⟨path', haccept', hentries'⟩ := bind_eq_ok_iff.1 hfound'
    obtain ⟨n, hn, hkind⟩ := (mem_entries hentries).1 hmem
    have hpath : path = path' := by
      have hworking : (store.tidied version m).workingDir = m.workingDir := by rw [tidied_eq]
      have hsame := Machine.accept_congr hworking store.analysisDir
      rw [haccept, haccept'] at hsame
      exact Except.ok.inj hsame
    rw [hpath, Machine.eq_of_accept haccept', node?_tidied_file h] at hn
    split at hn
    next =>
      refine (mem_entries hentries').2 ⟨n, ?_, hkind⟩
      rwa [Machine.eq_of_accept haccept']
    next => cases hn
  removable name hname := by
    rw [listing_tidied h] at hname
    rw [Machine.perform_remove_eq_ok_iff, lookAt_tidied_of_stays h hname]
    exact h.exists_content (List.mem_filter.1 hname).1

/-- A scan finds what the names that are listed tell. -/
theorem run_scan (version : String) : m.run (store.scanStale version) =
    (.ok (store.scanOf version (m.listing store.analysisDir) (m.listing store.manualDir)),
      store.tidied version m) := by
  rcases tidied_cases h version with ⟨hnil, hsame⟩ | hm
  · rw [scanStale, Machine.run_bind, Machine.run_listFiles h.analysis, hsame, hnil]
    change m.run (listFiles store.manualDir >>= _) = _
    rw [Machine.run_bind, Machine.run_listFiles h.manual]
    rfl
  · have hrun := run_scanStale hm h.proper h.analysis h.manual version
    have hfindings : store.findings m version (m.listing store.analysisDir) = _ := findings_eq h
    simp only [hfindings] at hrun
    refine hrun.trans ?_
    rw [← show _ = m.listing store.manualDir from listing_manualDir_tidied h]
    rfl

end Tidied

/-! ## All that a scan does -/

/-- What a scan does with the files of the two directories, and what it tells. -/
structure Tidies (store : DumpStore) (version : String) (m m' : Machine) (scan : StaleScan) :
    Prop where
  removed : ∀ name, Departs version (m.listing store.analysisDir) name →
    m'.lookAt (join store.analysisDir name) = .error .notFound
  untouched : ∀ l, (∀ name, Departs version (m.listing store.analysisDir) name →
    l ≠ place (m.absolute (join store.analysisDir name))) → m'.files.node? l = m.files.node? l
  same : m' = { m with files := m'.files }
  mem_deleted_iff : ∀ path, path ∈ scan.deleted ↔ ∃ name,
    Departs version (m.listing store.analysisDir) name ∧ join store.analysisDir name = path
  nodup_deleted : scan.deleted.Nodup
  /-- Files of other versions and dumps are listed in order, each dump before its report. -/
  deleted_eq : scan.deleted = ((m.listing store.analysisDir).filter
    (goes version (m.listing store.analysisDir))).flatMap fun name ↦
      (company version name).map (join store.analysisDir)
  deleted_order : (((m.listing store.analysisDir).filter
    (goes version (m.listing store.analysisDir))).map (join store.analysisDir)).Pairwise Precedes
  reanalyze_eq : scan.reanalyze = ((m.listing store.analysisDir).filter
    (awaits version (m.listing store.analysisDir))).map fun name ↦
      .ofHprof (join store.analysisDir name)
  reanalyze_order : (scan.reanalyze.map DumpPair.hprof).Pairwise Precedes
  manual_eq : scan.manual = (m.listing store.manualDir).map (join store.manualDir)
  manual_order : scan.manual.Pairwise Precedes

theorem pairwise_precedes (hproper : m.files.IsProper) (dir : String)
    (hnames : names.Sublist (m.listing dir)) :
    (names.map (join dir)).Pairwise Precedes := by
  rw [List.pairwise_map]
  refine ((Machine.pairwise_listing m dir).sublist hnames).imp_of_mem ?_
  intro name other hname hother hlt
  have hisName := (isOrderly_listing hproper dir).2
  exact precedes_join (hisName name (hnames.subset hname)).1
    (hisName other (hnames.subset hother)).1 hlt

theorem tidies_scanOf (h : m.CanTidy store) (version : String) :
    store.Tidies version m (store.tidied version m)
      (store.scanOf version (m.listing store.analysisDir) (m.listing store.manualDir)) where
  removed name := lookAt_tidied_of_departs h
  untouched l := node?_tidied h
  same := tidied_eq store version m
  mem_deleted_iff path := by
    simp only [scanOf, pathsOf, List.mem_map, mem_departing_iff]
  nodup_deleted := by
    refine (nodup_departing h.isOrderly).map_on fun name hname other hother heq ↦ ?_
    have hisName := isName_of_mem_departing h name hname
    have hisName' := isName_of_mem_departing h other hother
    exact (join_inj hisName.1.relative hisName'.1.relative).1 heq
  deleted_eq := by rw [scanOf, pathsOf, departing, List.map_flatMap]
  deleted_order := pairwise_precedes h.proper _ List.filter_sublist
  reanalyze_eq := rfl
  reanalyze_order := by
    rw [scanOf, List.map_map]
    exact pairwise_precedes h.proper _ List.filter_sublist
  manual_eq := rfl
  manual_order := pairwise_precedes h.proper _ (List.Sublist.refl _)

/-- A dump that has an empty report, one without a report, a report of another version and a note,
and a dump that was taken by hand. -/
def mixedFiles : List (Location × Node) :=
  [(["analysis"], .dir), (["analysis", "1.0_5.hprof"], .file "JAVA PROFILE".toUTF8),
    (["analysis", "1.0_5.json"], .file .empty),
    (["analysis", "1.0_6.hprof"], .file "JAVA PROFILE".toUTF8),
    (["analysis", "0.9_7.json"], .file "{}".toUTF8), (["analysis", "1.0_note"], .file .empty),
    (["manual"], .dir), (["manual", "mine.hprof"], .file .empty)]

def mixture : Machine where
  files := mixedFiles.foldl (fun t entry ↦ t.insert entry.1 entry.2) FileTree.empty

theorem mixture_canTidy : mixture.CanTidy ⟨"/"⟩ := by
  have hanalysis : (mixture.perform (.entries (analysisDir ⟨"/"⟩))).1 =
      .ok [("0.9_7.json", false), ("1.0_5.hprof", false), ("1.0_5.json", false),
        ("1.0_6.hprof", false), ("1.0_note", false)] := by decide +kernel
  have hmanual : (mixture.perform (.entries (manualDir ⟨"/"⟩))).1 =
      .ok [("mine.hprof", false)] := by decide +kernel
  refine ⟨?_, Machine.canList_of_isOk (by rw [hanalysis]; rfl),
    Machine.canList_of_isOk (by rw [hmanual]; rfl), ?_, ?_⟩
  · have hnames : ∀ entry ∈ mixedFiles, ∀ name ∈ entry.1, IsName name ∧ name ≠ ".." := by
      decide +kernel
    exact List.foldlRecOn _ _ isProper_empty fun t ht entry hentry ↦
      ht.insert (hnames entry hentry) entry.2
  · intro found hfound name
    obtain rfl := Except.ok.inj (hanalysis.symm.trans hfound)
    simp
  · rw [Machine.listing, hanalysis]
    decide +kernel

end Storage.DumpStore

end HeapSentry
