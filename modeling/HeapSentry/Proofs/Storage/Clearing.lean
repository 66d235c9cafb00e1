import HeapSentry.Proofs.Storage.Sweeping

/-!
# Dumps of other versions

A scan takes a file for one of its version if the name starts with the version and an underscore.
So it clears away the dumps of another version, unless the name of that version starts so, too.
-/

namespace HeapSentry

open Storage Storage.FileTree Storage.Path

namespace Storage.Path

variable {base path rest : String}

theorem isAcceptable_of_append (h : isAcceptable (path ++ rest) = true) :
    isAcceptable path = true := by
  simp only [isAcceptable, Bool.and_eq_true, decide_eq_true_eq, String.utf8ByteSize_append,
    String.toList_append, Bool.not_eq_true', List.contains_eq_mem, List.mem_append] at h ⊢
  refine ⟨by omega, decide_eq_false fun hmem ↦ of_decide_eq_false h.2 (.inl hmem)⟩

/-- A machine that takes a path takes the one of the directory. -/
theorem isAcceptable_of_join (hpath : isAbsolute path = false)
    (h : isAcceptable (join base path) = true) : isAcceptable base = true := by
  rw [join_of_relative hpath] at h
  have hstem := isAcceptable_of_append h
  rw [stem] at hstem
  split at hstem
  next hempty => rwa [hempty]
  next =>
    split at hstem
    next => exact hstem
    next => exact isAcceptable_of_append hstem

end Storage.Path

namespace Machine

variable {m : Machine} {site : Site} {name : String} {content : ByteArray}

/-- What is found in the analysis directory shows that this is there and can be listed. -/
theorem mem_entries_of_lookAt (hworking : m.workingDir = site.workingDir) (hname : IsName name)
    (hup : name ≠ "..") {n : Node}
    (hlookAt : m.lookAt (join site.store.analysisDir name) = .ok n) :
    m.Reaches site ∧ ∃ found, (m.perform (.entries site.store.analysisDir)).1 = .ok found ∧
      (name, n matches .dir) ∈ found := by
  obtain ⟨absolute, haccept, hlook⟩ := bind_eq_ok_iff.1 hlookAt
  obtain rfl := eq_of_accept haccept
  have habsolute : m.absolute (join site.store.analysisDir name) = join site.dir name := by
    rw [← site.absolute_join hname, Machine.absolute, Site.absolute, hworking]
  rw [habsolute] at hlook
  have hroom := (hasDir_of_look_join hname hlook).1
  have hacceptable : isAcceptable site.store.analysisDir = true := by
    rw [accept] at haccept
    split at haccept
    next hjoin => exact isAcceptable_of_join hname.relative hjoin
    next => cases haccept
  have hentries : (m.perform (.entries site.store.analysisDir)).1 =
      .ok (m.files.nodes.toList.filterMap (entryIn? (place site.dir))) := by
    rw [Machine.perform, accept, if_pos hacceptable]
    change m.files.entries (m.absolute site.store.analysisDir) = _
    rw [Machine.absolute, hworking]
    change m.files.entries (site.absolute site.store.analysisDir) = _
    rw [site.absolute_dir, hroom.entries site.dir_ne_empty]
  refine ⟨⟨hworking, hroom⟩, _, hentries, ?_⟩
  have hnode := node?_of_look hlook
  rw [place_join hname hup] at hnode
  exact (mem_entries (hroom.entries site.dir_ne_empty)).2 ⟨n, hnode, by cases n <;> rfl⟩

/-- A file that is found in the analysis directory is listed. -/
theorem mem_listing_of_lookAt (hworking : m.workingDir = site.workingDir) (hname : IsName name)
    (hup : name ≠ "..")
    (hfile : m.lookAt (join site.store.analysisDir name) = .ok (.file content)) :
    m.Reaches site ∧ m.CanList site.store.analysisDir ∧
      name ∈ m.listing site.store.analysisDir := by
  obtain ⟨hm, found, hfound, hmem⟩ := mem_entries_of_lookAt hworking hname hup hfile
  refine ⟨hm, canList_of_isOk (by rw [hfound]; rfl), ?_⟩
  rw [listing, hfound, mem_filesIn]
  exact hmem

end Machine

namespace Storage.DumpStore

variable {store : DumpStore} {m m' : Machine} {v w name stem : String} {nowMs : Int}
  {pair : DumpPair}

/-! ## Names of other versions -/

theorem startsWith_dumpStem_of_ne (hne : v ≠ w) (nowMs : Int) {ending : String}
    (h : '_' ∉ ending.toList) : (dumpStem w nowMs ++ ending).startsWith (versionMark v) =
      w.startsWith (versionMark v) := by
  have hdigits : '_' ∉ (toString nowMs.toNat).toList := by simp
  rw [startsWith_mark_append h, dumpStem, startsWith_mark_append hdigits, Bool.eq_iff_iff,
    String.startsWith_string_iff, String.startsWith_string_iff, toList_versionMark w,
    List.prefix_concat_iff]
  refine or_iff_right fun heq ↦ hne (String.toList_inj.1 ?_)
  rw [toList_versionMark] at heq
  exact (List.append_inj' heq rfl).1

theorem eq_of_newPair (hw : '/' ∉ w.toList) (h : (m.run (store.newPair w nowMs)).1 = .ok pair) :
    pair = store.pairOf (dumpStem w nowMs) := by
  have hrun : (m.run (store.newPair w nowMs)).1 =
      match (m.perform (.makeDirs store.analysisDir)).1 with
      | .ok () => .ok (.ofHprof (join store.analysisDir (dumpName w nowMs)))
      | .error _ => .error ⟨store.analysisDir⟩ := by
    have hmake : m.run (OnMachine.makeDirs store.analysisDir) =
      m.perform (.makeDirs store.analysisDir) := rfl
    rw [newPair, Machine.run_bind, hmake]
    cases (m.perform (.makeDirs store.analysisDir)).1 with
    | ok u => rfl
    | error e => rfl
  rw [hrun] at h
  split at h
  next =>
    rw [← Except.ok.inj h, dumpName_eq, ofHprof_join store (isStem_dumpStem hw nowMs)]
  next => cases h

/-! ## What a scan finds of one dump -/

variable {names : List String} {version : String} {found : Finding}

theorem eq_of_hprof_mem_removed (hstem : IsStem stem) (hname : IsName name)
    (h : stem ++ "." ++ "hprof" ∈ (store.finding m version name).removed) :
    name = stem ++ "." ++ "hprof" := by
  rcases cases_of_mem_removed hname h with heq | ⟨other, hother, -, heq⟩
  · exact heq.symm
  · have hendings := (Site.ending_inj (by decide) (by decide) hstem.ne_empty hother.ne_empty heq).2
    exact absurd hendings (by decide)

theorem eq_of_mem_taken (hstem : IsStem stem) (hname : IsName name)
    (h : store.pairOf stem ∈ (store.finding m version name).taken) :
    name = stem ++ "." ++ "hprof" := by
  rcases name_cases hname version with hforeign | ⟨other, hother, rfl, hmark⟩ | ⟨hmark, hextension⟩
  · rw [finding_of_foreign hforeign] at h
    cases h
  · rw [finding_of_dump hother hmark] at h
    split at h
    · cases h
    · let site : Site := ⟨store, version, ""⟩
      have heq : site.store.pairOf stem = site.store.pairOf other := List.mem_singleton.1 h
      rw [Site.pairOf_inj hstem hother heq]
  · rw [finding_of_other hmark hextension] at h
    cases h

theorem hprof_mem_removed_iff (hstem : IsStem stem) (hnames : ∀ name ∈ names, IsName name)
    (hlisted : stem ++ "." ++ "hprof" ∈ names) :
    stem ++ "." ++ "hprof" ∈ (store.findings m version names).removed ↔
      stem ++ "." ++ "hprof" ∈ (store.finding m version (stem ++ "." ++ "hprof")).removed := by
  constructor
  · intro h
    obtain ⟨name, hname, hmem⟩ := List.mem_flatMap.1 h
    rwa [eq_of_hprof_mem_removed hstem (hnames name hname) hmem] at hmem
  · intro h
    exact List.mem_flatMap.2 ⟨_, hlisted, h⟩

theorem pair_mem_taken_iff (hstem : IsStem stem) (hnames : ∀ name ∈ names, IsName name)
    (hlisted : stem ++ "." ++ "hprof" ∈ names) :
    store.pairOf stem ∈ (store.findings m version names).taken ↔
      store.pairOf stem ∈ (store.finding m version (stem ++ "." ++ "hprof")).taken := by
  constructor
  · intro h
    obtain ⟨name, hname, hmem⟩ := List.mem_flatMap.1 h
    rwa [eq_of_mem_taken hstem (hnames name hname) hmem] at hmem
  · intro h
    exact List.mem_flatMap.2 ⟨_, hlisted, h⟩

/-- Whether a dump is of another version or has a report. -/
def Goes (store : DumpStore) (m : Machine) (version stem : String) : Prop :=
  (stem ++ "." ++ "hprof").startsWith (versionMark version) = false ∨
    (m.perform (.size (store.pairOf stem).json)).1.isOk = true

theorem Goes.finding (h : store.Goes m version stem) (hstem : IsStem stem) :
    stem ++ "." ++ "hprof" ∈ (store.finding m version (stem ++ "." ++ "hprof")).removed ∧
      (store.finding m version (stem ++ "." ++ "hprof")).taken = [] := by
  cases hmark : (stem ++ "." ++ "hprof").startsWith (versionMark version) with
  | false =>
      rw [finding_of_foreign hmark]
      exact ⟨List.mem_singleton_self _, rfl⟩
  | true =>
      have hreported := h.resolve_left (by rw [hmark]; exact Bool.noConfusion)
      rw [finding_of_dump hstem hmark, if_pos hreported]
      exact ⟨List.mem_cons_self, rfl⟩

theorem Goes.json_mem_removed (h : store.Goes m version stem) (hstem : IsStem stem)
    (hhprof : stem ++ "." ++ "hprof" ∈ names) (hjson : stem ++ "." ++ "json" ∈ names) :
    stem ++ "." ++ "json" ∈ (store.findings m version names).removed := by
  rw [findings, List.mem_flatMap]
  cases hmark : (stem ++ "." ++ "hprof").startsWith (versionMark version) with
  | false =>
      have hforeign : (stem ++ "." ++ "json").startsWith (versionMark version) = false := by
        rw [String.append_assoc, startsWith_mark_append (by decide)] at hmark ⊢
        exact hmark
      refine ⟨_, hjson, ?_⟩
      rw [finding_of_foreign hforeign]
      exact List.mem_singleton_self _
  | true =>
      have hreported := h.resolve_left (by rw [hmark]; exact Bool.noConfusion)
      refine ⟨_, hhprof, ?_⟩
      rw [finding_of_dump hstem hmark, if_pos hreported]
      exact List.mem_cons_of_mem _ (List.mem_singleton_self _)

theorem finding_of_not_goes (h : ¬ store.Goes m version stem) (hstem : IsStem stem) :
    store.finding m version (stem ++ "." ++ "hprof") = { taken := [store.pairOf stem] } := by
  rw [Goes, not_or, Bool.not_eq_false] at h
  rw [finding_of_dump hstem h.1, if_neg h.2]

/-! ## Dumps that are cleared away -/

/-- Whether a scan removes and lists a dump and its report, and does not take the dump up. -/
structure Clears (m m' : Machine) (scan : StaleScan) (pair : DumpPair) : Prop where
  dump : (m'.perform (.read pair.hprof)).1 = .error .notFound
  dumpListed : pair.hprof ∈ scan.deleted
  report : ∀ content, (m.perform (.read pair.json)).1 = .ok content →
    (m'.perform (.read pair.json)).1 = .error .notFound ∧ pair.json ∈ scan.deleted
  notTaken : pair ∉ scan.reanalyze

variable {site : Site} {content : ByteArray}

theorem read_discard_of_mem (hm : m.Reaches site)
    (hnames : ∀ name ∈ names, IsName name ∧ name ≠ "..") (hmem : name ∈ names)
    (hread : (m.perform (.read (join site.store.analysisDir name))).1 = .ok content) :
    ((m.discard site.store names).perform (.read (join site.store.analysisDir name))).1 =
      .error .notFound := by
  rw [Machine.perform_read_eq,
    hm.lookAt_discard_of_mem hnames hmem (Machine.perform_read_eq_ok_iff.1 hread)]
  rfl

/-- What a scan does with a dump that could be read before, whatever version it is of. -/
theorem exists_scan_of_read (hworking : m.workingDir = site.workingDir) (hstem : IsStem stem)
    (hproper : m.files.IsProper) (hmanual : m.CanList site.store.manualDir)
    (hread : (m.perform (.read (site.store.pairOf stem).hprof)).1 = .ok content) :
    ∃ scan m', m.run (site.store.scanStale site.version) = (.ok scan, m') ∧
      (site.store.Goes m site.version stem → Clears m m' scan (site.store.pairOf stem)) ∧
      (¬ site.store.Goes m site.version stem → site.store.pairOf stem ∈ scan.reanalyze ∧
        (m'.perform (.read (site.store.pairOf stem).hprof)).1 = .ok content) := by
  have hlists {name : String} {content : ByteArray} (hname : IsName name) (hup : name ≠ "..")
      (h : (m.perform (.read (join site.store.analysisDir name))).1 = .ok content) :=
    Machine.mem_listing_of_lookAt hworking hname hup (Machine.perform_read_eq_ok_iff.1 h)
  have hjson : IsName (stem ++ "." ++ "json") := hstem.isName "json" (by decide)
  have hhprof : IsName (stem ++ "." ++ "hprof") := hstem.isName "hprof" (by decide)
  obtain ⟨hm, hlist, hlisted⟩ := hlists hhprof (hstem.ne_up "hprof") hread
  have hrun := run_scanStale hm hproper hlist hmanual site.version
  have hnames := isOrderly_listing hproper site.store.analysisDir
  have hnames' : ∀ name ∈ m.listing site.store.analysisDir, IsName name :=
    fun name h ↦ (hnames.2 name h).1
  have hremoved : ∀ file ∈ (site.store.findings m site.version
      (m.listing site.store.analysisDir)).removed, IsName file ∧ file ≠ ".." :=
    isName_removed_findings hnames.2 m
  refine ⟨_, _, hrun, fun hgoes ↦ ?_, fun hstays ↦ ?_⟩
  · obtain ⟨hgone, hfree⟩ := hgoes.finding hstem
    have hmem := (hprof_mem_removed_iff hstem hnames' hlisted).2 hgone
    refine ⟨read_discard_of_mem hm hremoved hmem hread, List.mem_map_of_mem hmem, ?_, ?_⟩
    · intro content hreport
      have hjsonListed := (hlists hjson (hstem.ne_up "json") hreport).2.2
      have hmemJson := hgoes.json_mem_removed hstem hlisted hjsonListed
      exact ⟨read_discard_of_mem hm hremoved hmemJson hreport, List.mem_map_of_mem hmemJson⟩
    · intro htaken
      have hmemTaken := (pair_mem_taken_iff hstem hnames' hlisted).1 htaken
      rw [hfree] at hmemTaken
      cases hmemTaken
  · have hfinding := finding_of_not_goes hstays hstem
    refine ⟨(pair_mem_taken_iff hstem hnames' hlisted).2 ?_, ?_⟩
    · rw [hfinding]
      exact List.mem_singleton_self _
    · have hkept : stem ++ "." ++ "hprof" ∉ (site.store.findings m site.version
          (m.listing site.store.analysisDir)).removed := by
        rw [hprof_mem_removed_iff hstem hnames' hlisted, hfinding]
        exact List.not_mem_nil
      rw [Machine.perform_read_eq_ok_iff] at hread ⊢
      exact (hm.lookAt_discard hremoved hhprof (hstem.ne_up "hprof") hkept).trans hread

/-- A scan clears away the dumps of another version just if the name of that version does not start
with its own name and an underscore, or if they have a report.  The others it takes for its own. -/
theorem scan_clears_iff {m₀ : Machine} (hne : v ≠ w) (hw : '/' ∉ w.toList)
    (hnew : (m₀.run (store.newPair w nowMs)).1 = .ok pair) (hproper : m.files.IsProper)
    (hread : (m.perform (.read pair.hprof)).1 = .ok content)
    (hmanual : m.CanList store.manualDir) :
    ∃ scan m', m.run (store.scanStale v) = (.ok scan, m') ∧
      (Clears m m' scan pair ↔ w.startsWith (versionMark v) = false ∨
        (m.perform (.size pair.json)).1.isOk = true) ∧
      (¬ Clears m m' scan pair →
        pair ∈ scan.reanalyze ∧ (m'.perform (.read pair.hprof)).1 = .ok content) := by
  obtain rfl := eq_of_newPair hw hnew
  have hmark : (dumpStem w nowMs ++ "." ++ "hprof").startsWith (versionMark v) =
      w.startsWith (versionMark v) := by
    rw [String.append_assoc]
    exact startsWith_dumpStem_of_ne hne nowMs (by decide)
  let site : Site := ⟨store, v, m.workingDir⟩
  have hworking : m.workingDir = site.workingDir := rfl
  obtain ⟨scan, m', hrun, hclears, htakes⟩ :=
    exists_scan_of_read hworking (isStem_dumpStem hw nowMs) hproper hmanual hread
  rw [← hmark]
  refine ⟨scan, m', hrun, ⟨fun h ↦ ?_, hclears⟩, fun h ↦ htakes fun hgoes ↦ h (hclears hgoes)⟩
  by_contra hstays
  exact h.notTaken (htakes hstays).1

/-- A machine with one dump in its analysis directory. -/
def holdingDump (name : String) : Machine where
  files := (FileTree.empty.insert ["analysis"] .dir).insert ["analysis", name]
    (.file "JAVA PROFILE".toUTF8)

theorem isProper_holdingDump (h : IsName name) (hup : name ≠ "..") :
    (holdingDump name).files.IsProper := by
  have hanalysis : IsName "analysis" ∧ "analysis" ≠ ".." := ⟨Site.isName_analysis, by decide⟩
  refine (isProper_empty.insert ?_ _).insert ?_ _
  · simpa using hanalysis
  · simpa using And.intro hanalysis (And.intro h hup)

theorem scan_clears_other_version : ∃ scan m',
    (holdingDump "2.0_5.hprof").run (scanStale ⟨"/"⟩ "1.0") = (.ok scan, m') ∧
      Clears (holdingDump "2.0_5.hprof") m' scan (pairOf ⟨"/"⟩ "2.0_5") := by
  have hnew : ((holdingDump "2.0_5.hprof").run (newPair ⟨"/"⟩ "2.0" 5)).1 =
      .ok (pairOf ⟨"/"⟩ "2.0_5") := by decide +kernel
  have hread : ((holdingDump "2.0_5.hprof").perform (.read (pairOf ⟨"/"⟩ "2.0_5").hprof)).1 =
      .ok "JAVA PROFILE".toUTF8 := by decide +kernel
  have hmanual : ((holdingDump "2.0_5.hprof").perform (.entries (manualDir ⟨"/"⟩))).1 =
      .error .notFound := by decide +kernel
  obtain ⟨scan, m', hrun, hclears, -⟩ := scan_clears_iff (v := "1.0") (by decide) (by decide) hnew
    (isProper_holdingDump ⟨by decide, by decide, by decide⟩ (by decide)) hread
    fun e he ↦ Except.error.inj (he.symm.trans hmanual)
  exact ⟨scan, m', hrun, hclears.2 (.inl (by decide +kernel))⟩

/-- The dumps of a version whose name starts with that of another one are taken for its own. -/
theorem scan_not_always_clears : ¬ ∀ (store : DumpStore) (m₀ m : Machine) (v w : String)
    (nowMs : Int) (pair : DumpPair) (content : ByteArray), v ≠ w → '/' ∉ v.toList →
      '/' ∉ w.toList → (m₀.run (store.newPair w nowMs)).1 = .ok pair → m.files.IsProper →
      (m.perform (.read pair.hprof)).1 = .ok content → m.CanList store.manualDir →
      ∃ scan m', m.run (store.scanStale v) = (.ok scan, m') ∧ Clears m m' scan pair := by
  intro h
  have hnew : ((holdingDump "1.0_beta_5.hprof").run (newPair ⟨"/"⟩ "1.0_beta" 5)).1 =
      .ok (pairOf ⟨"/"⟩ "1.0_beta_5") := by decide +kernel
  have hread : ((holdingDump "1.0_beta_5.hprof").perform
      (.read (pairOf ⟨"/"⟩ "1.0_beta_5").hprof)).1 = .ok "JAVA PROFILE".toUTF8 := by
    decide +kernel
  have hmanual : ((holdingDump "1.0_beta_5.hprof").perform (.entries (manualDir ⟨"/"⟩))).1 =
      .error .notFound := by decide +kernel
  have hscan : ((holdingDump "1.0_beta_5.hprof").run (scanStale ⟨"/"⟩ "1.0")).1 =
      .ok { reanalyze := [pairOf ⟨"/"⟩ "1.0_beta_5"] } := by decide +kernel
  obtain ⟨scan, m', hrun, hclears⟩ := h ⟨"/"⟩ _ _ "1.0" "1.0_beta" 5 _ _ (by decide) (by decide)
    (by decide) hnew (isProper_holdingDump ⟨by decide, by decide, by decide⟩ (by decide)) hread
    fun e he ↦ Except.error.inj (he.symm.trans hmanual)
  rw [hrun] at hscan
  obtain rfl := Except.ok.inj hscan
  exact hclears.notTaken (List.mem_singleton_self _)

end Storage.DumpStore

end HeapSentry
