import HeapSentry.Proofs.Storage.Leftovers

/-!
# All that a scan does

A scan goes through the files of the analysis directory.  What it makes of each of them shows
before it begins, since no file that it removes counts for another one.  So it removes the files
that it found to be removed, one after the other, and nothing else.
-/

namespace HeapSentry

open Storage Storage.FileTree Storage.Path

namespace Storage.FileTree

variable {t : FileTree} {base path name : String} {l : Location} {n : Node}

/-- A directory is reached through directories. -/
theorem HasDir.node_of_visits (h : t.HasDir path) (hvisits : Visits path l) :
    t.node? l = some .dir := by
  obtain ⟨visited, ⟨rest, hnames⟩, rfl⟩ := hvisits
  have hwalk := h.walk
  rw [← hnames, walk_append] at hwalk
  obtain ⟨here, hhere, hrest⟩ := bind_eq_ok_iff.1 hwalk
  obtain rfl := eq_of_walk hhere
  cases rest with
  | nil =>
      have hnode := h.node
      rwa [place, ← hnames, List.append_nil] at hnode
  | cons next rest =>
      rw [FileTree.walk] at hrest
      split at hrest
      next => cases hrest
      next => cases hrest
      next hnode => exact hnode

/-- What is found in a directory has a name that entries may have. -/
theorem hasDir_of_look_join (hname : IsName name) (h : t.look (join base name) = .ok n) :
    t.HasDir base ∧ isName name = true := by
  obtain ⟨l, hlocate, -⟩ := bind_eq_ok_iff.1 h
  rw [locate, if_neg (join_ne_empty hname base), names_join_name hname, walk_append] at hlocate
  obtain ⟨here, hhere, hlast⟩ := bind_eq_ok_iff.1 hlocate
  obtain rfl := eq_of_walk hhere
  rw [FileTree.walk] at hlast
  split at hlast
  next => cases hlast
  next => cases hlast
  next hnode =>
    split at hlast
    next hvalid => exact ⟨⟨hhere, hnode⟩, hvalid⟩
    next => cases hlast

/-- What a path leads to stands at its place. -/
theorem node?_of_look (h : t.look path = .ok n) : t.node? (place path) = some n := by
  obtain ⟨l, hlocate, hlook⟩ := bind_eq_ok_iff.1 h
  obtain rfl := eq_of_locate hlocate
  split at hlook
  next => cases hlook
  next hnode => exact hnode.trans (congrArg some (Except.ok.inj hlook))
  next hnode =>
    split at hlook
    next => cases hlook
    next => exact hnode.trans (congrArg some (Except.ok.inj hlook))

theorem remove_of_look {e : FileError} (h : t.look path = .error e) : t.remove path = .error e := by
  rw [remove, h]
  rfl

end Storage.FileTree

namespace Machine

variable {m m' : Machine} {site : Site} {name other path : String} {names : List String}
  {content : ByteArray}

/-! ## Removing files of the analysis directory -/

/-- Whether paths start at the site, and the analysis directory is there. -/
structure Reaches (m : Machine) (site : Site) : Prop where
  workingDir : m.workingDir = site.workingDir
  room : m.files.HasDir site.dir

theorem Reaches.absolute_join (h : m.Reaches site) (hname : IsName name) :
    m.absolute (join site.store.analysisDir name) = join site.dir name := by
  rw [← site.absolute_join hname, Machine.absolute, Site.absolute, h.workingDir]

theorem Reaches.perform (h : m.Reaches site) {r : Request} (hr : r.IsGentle) :
    (m.perform r).2.Reaches site where
  workingDir := (workingDir_perform m r).trans h.workingDir
  room := h.room.evolve (evolves_perform m hr)

/-- What a path leads to in the files of a machine. -/
def lookAt (m : Machine) (path : String) : Except FileError Node :=
  m.accept path >>= m.files.look

theorem perform_read_eq (m : Machine) (path : String) : (m.perform (.read path)).1 =
    m.lookAt path >>= fun
      | .dir => .error .isADirectory
      | .file content => .ok content := by
  rw [perform, lookAt]
  cases m.accept path with
  | error e => rfl
  | ok absolute => rfl

theorem perform_size_eq (m : Machine) (path : String) : (m.perform (.size path)).1 =
    m.lookAt path >>= fun
      | .dir => .ok directorySize
      | .file content => .ok content.size := by
  rw [perform, lookAt]
  cases m.accept path with
  | error e => rfl
  | ok absolute => rfl

theorem perform_read_eq_ok_iff :
    (m.perform (.read path)).1 = .ok content ↔ m.lookAt path = .ok (.file content) := by
  rw [perform_read_eq]
  cases m.lookAt path with
  | error e => simp [bind, Except.bind]
  | ok n => cases n <;> simp [bind, Except.bind]

theorem absolute_congr (h : m'.workingDir = m.workingDir) (path : String) :
    m'.absolute path = m.absolute path := by
  rw [Machine.absolute, Machine.absolute, h]

theorem accept_congr (h : m'.workingDir = m.workingDir) (path : String) :
    m'.accept path = m.accept path := by
  rw [accept, accept, absolute_congr h]

/-- A removal changes nothing on the way to another place, since directories stay. -/
theorem Reaches.lookAt_remove_of_visits (h : m.Reaches site) (hname : IsName name)
    (hup : name ≠ "..") (hvisits : ∀ l, Visits (m.absolute path) l →
      Visits site.dir l ∨ l ≠ site.fileAt name) :
    (m.perform (.remove (join site.store.analysisDir name))).2.lookAt path = m.lookAt path := by
  let r : Request := .remove (join site.store.analysisDir name)
  have hevolves := evolves_perform m (r := r) trivial
  have hafter := h.perform (r := r) trivial
  rw [lookAt, lookAt, accept_congr (workingDir_perform m r), accept]
  split
  next =>
    apply look_congr
    intro l hl
    rcases hvisits l hl with hdir | hne
    · rw [h.room.node_of_visits hdir, hafter.room.node_of_visits hdir]
    · apply hevolves.same
      intro htouches
      have htouches : l = place (m.absolute (join site.store.analysisDir name)) := htouches
      rw [h.absolute_join hname, place_join hname hup] at htouches
      exact hne htouches
  next => rfl

/-- A removal leaves the other files as they are. -/
theorem Reaches.lookAt_remove (h : m.Reaches site) (hname : IsName name) (hup : name ≠ "..")
    (hother : IsName other) (hother' : other ≠ "..") (hne : name ≠ other) :
    (m.perform (.remove (join site.store.analysisDir name))).2.lookAt
        (join site.store.analysisDir other) = m.lookAt (join site.store.analysisDir other) := by
  apply h.lookAt_remove_of_visits hname hup
  intro l hl
  rw [h.absolute_join hother] at hl
  rcases Site.visits_join hother hother' hl with hdir | rfl
  · exact .inl hdir
  · exact .inr fun heq ↦ hne (Site.fileAt_inj.1 heq).symm

theorem Reaches.lookAt_manualDir_remove (h : m.Reaches site) (hname : IsName name)
    (hup : name ≠ "..") : (m.perform (.remove (join site.store.analysisDir name))).2.lookAt
      site.store.manualDir = m.lookAt site.store.manualDir := by
  have hmanual : IsName "manual" := ⟨by decide, by decide, by decide⟩
  obtain ⟨base, hdir, habsolute⟩ := site.exists_base
  apply h.lookAt_remove_of_visits hname hup
  intro l hl
  rw [Machine.absolute, h.workingDir] at hl
  change Visits (site.absolute site.store.manualDir) l at hl
  rw [habsolute] at hl
  rcases Site.visits_join hmanual (by decide) hl with ⟨visited, hvisited, hplace⟩ | rfl
  · refine .inl ⟨visited, ?_, hplace⟩
    rw [hdir, names_join_name Site.isName_analysis]
    exact hvisited.trans (List.prefix_append _ _)
  · right
    intro heq
    have hlength := congrArg List.length heq
    rw [Site.fileAt, hdir, place_join Site.isName_analysis (by decide)] at hlength
    simp at hlength

theorem canList_congr (hworking : m'.workingDir = m.workingDir) {dir : String}
    (hlook : m'.lookAt dir = m.lookAt dir) (h : m.CanList dir) : m'.CanList dir := by
  intro e herror
  apply h e
  rw [lookAt, lookAt, accept_congr hworking] at hlook
  rw [Machine.perform, accept_congr hworking] at herror
  rw [Machine.perform]
  cases haccept : m.accept dir with
  | error e' =>
      rw [haccept] at herror
      exact herror
  | ok absolute =>
      rw [haccept] at herror hlook
      exact entries_error hlook herror

/-- A file that is removed is gone. -/
theorem Reaches.lookAt_remove_self (h : m.Reaches site) (hname : IsName name) (hup : name ≠ "..")
    (hfile : m.lookAt (join site.store.analysisDir name) = .ok (.file content)) :
    (m.perform (.remove (join site.store.analysisDir name))).2.lookAt
      (join site.store.analysisDir name) = .error .notFound := by
  obtain ⟨absolute, haccept, hlook⟩ := bind_eq_ok_iff.1 hfile
  obtain rfl := eq_of_accept haccept
  rw [h.absolute_join hname] at haccept hlook
  have hentry : IsEntry name := ⟨hname, hup, (hasDir_of_look_join hname hlook).2⟩
  have hnode := look_eq_file hlook
  rw [place_join hname hup] at hnode
  have hremove : m.files.remove (join site.dir name) =
      .ok (m.files.erase (place site.dir ++ [name])) := by
    rw [h.room.remove_join hentry (by rw [hnode]; exact fun hdir ↦ nomatch hdir), hnode]
    rfl
  let after : Machine := { m with files := m.files.erase (place site.dir ++ [name]) }
  have hafter : (m.perform (.remove (join site.store.analysisDir name))).2 = after := by
    rw [Machine.perform, haccept]
    change (m.settle (m.files.remove (join site.dir name))).2 = after
    rw [hremove]
    rfl
  have hroom := (h.perform (r := .remove (join site.store.analysisDir name)) trivial).room
  rw [hafter] at hroom ⊢
  have haccept' : after.accept (join site.store.analysisDir name) = .ok (join site.dir name) :=
    haccept
  have hgone : after.files.node? (place site.dir ++ [name]) = none :=
    node?_erase_self _ (site.fileAt_ne_root name)
  rw [lookAt, haccept']
  change after.files.look (join site.dir name) = _
  rw [hroom.look_join hentry, hgone]

/-- A file that is not there cannot be removed. -/
theorem remove_of_lookAt {e : FileError} (h : m.lookAt path = .error e) :
    (m.perform (.remove path)).2 = m := by
  rw [perform]
  rw [lookAt] at h
  cases haccept : m.accept path with
  | error e' => rfl
  | ok absolute =>
      rw [haccept] at h
      change (m.settle (m.files.remove absolute)).2 = m
      rw [remove_of_look h]
      rfl

/-- The machine after some files of the analysis directory were removed as far as they could be. -/
def discard (m : Machine) (store : DumpStore) (names : List String) : Machine :=
  names.foldl (fun m name ↦ (m.perform (.remove (join store.analysisDir name))).2) m

theorem discard_append (m : Machine) (store : DumpStore) (names more : List String) :
    m.discard store (names ++ more) = (m.discard store names).discard store more :=
  List.foldl_append

theorem Reaches.discard (h : m.Reaches site) (names : List String) :
    (m.discard site.store names).Reaches site := by
  induction names generalizing m with
  | nil => exact h
  | cons name names ih => exact ih (h.perform (r := .remove _) trivial)

theorem Reaches.lookAt_discard (h : m.Reaches site)
    (hnames : ∀ name ∈ names, IsName name ∧ name ≠ "..") (hother : IsName other)
    (hother' : other ≠ "..") (hnew : other ∉ names) :
    (m.discard site.store names).lookAt (join site.store.analysisDir other) =
      m.lookAt (join site.store.analysisDir other) := by
  induction names generalizing m with
  | nil => rfl
  | cons name names ih =>
      obtain ⟨⟨hname, hup⟩, hnames⟩ := List.forall_mem_cons.1 hnames
      rw [List.mem_cons, not_or] at hnew
      have hrest := ih (h.perform (r := .remove (join site.store.analysisDir name)) trivial) hnames
        hnew.2
      exact hrest.trans (h.lookAt_remove hname hup hother hother' (Ne.symm hnew.1))

theorem Reaches.lookAt_manualDir_discard (h : m.Reaches site)
    (hnames : ∀ name ∈ names, IsName name ∧ name ≠ "..") :
    (m.discard site.store names).lookAt site.store.manualDir =
      m.lookAt site.store.manualDir := by
  induction names generalizing m with
  | nil => rfl
  | cons name names ih =>
      obtain ⟨⟨hname, hup⟩, hnames⟩ := List.forall_mem_cons.1 hnames
      have hrest := ih (h.perform (r := .remove (join site.store.analysisDir name)) trivial) hnames
      exact hrest.trans (h.lookAt_manualDir_remove hname hup)

theorem Reaches.canList_discard (h : m.Reaches site)
    (hnames : ∀ name ∈ names, IsName name ∧ name ≠ "..")
    (hmanual : m.CanList site.store.manualDir) :
    (m.discard site.store names).CanList site.store.manualDir := by
  have hworking := (h.discard names).workingDir.trans h.workingDir.symm
  exact canList_congr hworking (h.lookAt_manualDir_discard hnames) hmanual

theorem Reaches.lookAt_discard_of_notFound (h : m.Reaches site)
    (hnames : ∀ name ∈ names, IsName name ∧ name ≠ "..") (hother : IsName other)
    (hother' : other ≠ "..")
    (hgone : m.lookAt (join site.store.analysisDir other) = .error .notFound) :
    (m.discard site.store names).lookAt (join site.store.analysisDir other) =
      .error .notFound := by
  induction names generalizing m with
  | nil => exact hgone
  | cons name names ih =>
      obtain ⟨⟨hname, hup⟩, hnames⟩ := List.forall_mem_cons.1 hnames
      apply ih (h.perform (r := .remove (join site.store.analysisDir name)) trivial) hnames
      by_cases heq : name = other
      · subst heq
        rw [remove_of_lookAt hgone]
        exact hgone
      · rw [h.lookAt_remove hname hup hother hother' heq]
        exact hgone

theorem Reaches.lookAt_discard_of_mem (h : m.Reaches site)
    (hnames : ∀ name ∈ names, IsName name ∧ name ≠ "..") (hmem : name ∈ names)
    (hfile : m.lookAt (join site.store.analysisDir name) = .ok (.file content)) :
    (m.discard site.store names).lookAt (join site.store.analysisDir name) =
      .error .notFound := by
  obtain ⟨hname, hup⟩ := hnames name hmem
  induction names generalizing m with
  | nil => cases hmem
  | cons first names ih =>
      obtain ⟨⟨hfirst, hfirst'⟩, hrest⟩ := List.forall_mem_cons.1 hnames
      have hafter := h.perform (r := .remove (join site.store.analysisDir first)) trivial
      by_cases heq : first = name
      · subst heq
        exact hafter.lookAt_discard_of_notFound hrest hname hup
          (h.lookAt_remove_self hname hup hfile)
      · apply ih hafter hrest ((List.mem_cons.1 hmem).resolve_left (Ne.symm heq))
        rw [h.lookAt_remove hfirst hfirst' hname hup heq]
        exact hfile

end Machine

namespace Storage.DumpStore

/-! ## What a scan finds -/

/-- Which files a scan finds to be removed, and which dumps to be taken up. -/
structure Finding where
  removed : List String := []
  taken : List DumpPair := []

variable {store : DumpStore} {site : Site} {m : Machine} {version name stem : String}
  {names : List String} {scan : StaleScan}

/-- What a scan makes of a file. -/
def finding (store : DumpStore) (m : Machine) (version name : String) : Finding :=
  if !name.startsWith (versionMark version) then { removed := [name] }
  else if (splitName name).2 ≠ some "hprof" then {}
  else
    let stem := (splitName name).1
    if (m.perform (.size (store.pairOf stem).json)).1.isOk then
      { removed := [name, stem ++ "." ++ "json"] }
    else { taken := [store.pairOf stem] }

theorem finding_of_foreign (h : name.startsWith (versionMark version) = false) :
    store.finding m version name = { removed := [name] } := by
  rw [finding, h]
  rfl

theorem finding_of_other (hmark : name.startsWith (versionMark version) = true)
    (hextension : (splitName name).2 ≠ some "hprof") : store.finding m version name = {} := by
  rw [finding, hmark]
  exact if_pos hextension

theorem finding_of_dump (hstem : IsStem stem)
    (hmark : (stem ++ "." ++ "hprof").startsWith (versionMark version) = true) :
    store.finding m version (stem ++ "." ++ "hprof") =
      if (m.perform (.size (store.pairOf stem).json)).1.isOk then
        { removed := [stem ++ "." ++ "hprof", stem ++ "." ++ "json"] }
      else { taken := [store.pairOf stem] } := by
  rw [finding, hmark, splitName_append hstem.ne_empty "hprof" (by decide)]
  rfl

/-- Files are of other versions, or dumps of the version, or something else of it. -/
theorem name_cases (hname : IsName name) (version : String) :
    name.startsWith (versionMark version) = false ∨
    (∃ stem, IsStem stem ∧ name = stem ++ "." ++ "hprof" ∧
      name.startsWith (versionMark version) = true) ∨
    (name.startsWith (versionMark version) = true ∧ (splitName name).2 ≠ some "hprof") := by
  cases hmark : name.startsWith (versionMark version) with
  | false => exact .inl rfl
  | true =>
      right
      by_cases hextension : (splitName name).2 = some "hprof"
      · obtain ⟨stem, hstem, heq⟩ := exists_stem hname hmark hextension
        exact .inl ⟨stem, hstem, heq, rfl⟩
      · exact .inr ⟨rfl, hextension⟩

/-- A scan with what was found added. -/
def note (store : DumpStore) (scan : StaleScan) (found : Finding) : StaleScan :=
  { scan with
    reanalyze := scan.reanalyze ++ found.taken
    deleted := scan.deleted ++ store.pathsOf found.removed }

theorem note_nothing (store : DumpStore) (scan : StaleScan) : store.note scan {} = scan := by
  simp [note, pathsOf]

theorem run_sortOut_join (hname : IsName name) (hup : name ≠ "..") (m : Machine)
    (scan : StaleScan) : m.run (sortOut version scan (join store.analysisDir name)) =
      (store.note scan (store.finding m version name),
        m.discard store (store.finding m version name).removed) := by
  rw [sortOut_join hname hup]
  rcases name_cases hname version with hforeign | ⟨stem, hstem, rfl, hmark⟩ | ⟨hmark, hextension⟩
  · rw [finding_of_foreign hforeign, hforeign, note, List.append_nil]
    rfl
  · rw [finding_of_dump hstem hmark, hmark, splitName_append hstem.ne_empty "hprof" (by decide),
      ofHprof_join store hstem]
    change m.run (settle scan (store.pairOf stem)
      (m.perform (.size (store.pairOf stem).json)).1.isOk) = _
    cases (m.perform (.size (store.pairOf stem).json)).1.isOk with
    | false =>
        change ({ scan with reanalyze := _ }, m) = (StaleScan.mk _ (scan.deleted ++ []) _, m)
        rw [List.append_nil]
        rfl
    | true =>
        change (_, _) = (StaleScan.mk (scan.reanalyze ++ []) _ _, _)
        rw [List.append_nil]
        rfl
  · rw [finding_of_other hmark hextension, hmark, note_nothing]
    exact congrArg m.run (if_pos hextension)

/-! ## One file after the other -/

/-- What a scan makes of some files. -/
def findings (store : DumpStore) (m : Machine) (version : String) (names : List String) :
    Finding where
  removed := names.flatMap fun name ↦ (store.finding m version name).removed
  taken := names.flatMap fun name ↦ (store.finding m version name).taken

theorem toList_versionMark (version : String) :
    (versionMark version).toList = version.toList ++ ['_'] := by simp [versionMark]

theorem startsWith_mark_append {ending : String} (h : '_' ∉ ending.toList) (text : String) :
    (text ++ ending).startsWith (versionMark version) = text.startsWith (versionMark version) := by
  rw [Bool.eq_iff_iff, String.startsWith_string_iff, String.startsWith_string_iff,
    String.toList_append]
  refine ⟨fun hstarts ↦ ?_, fun hstarts ↦ hstarts.trans (List.prefix_append _ _)⟩
  rcases List.prefix_or_prefix_of_prefix hstarts (List.prefix_append _ _) with hle | ⟨rest, hrest⟩
  · exact hle
  rw [← hrest, List.prefix_append_right_inj] at hstarts
  rcases List.eq_nil_or_concat rest with rfl | ⟨before, last, rfl⟩
  · rw [List.append_nil] at hrest
    exact hrest ▸ List.prefix_rfl
  -- What the mark ends with would stand in the ending.
  · rw [List.concat_eq_append] at hrest hstarts
    rw [toList_versionMark, ← List.append_assoc] at hrest
    obtain rfl := List.singleton_inj.1 (List.append_inj' hrest rfl).2
    exact absurd (hstarts.subset (by simp)) h

/-- A report is of the version that its dump is of. -/
theorem startsWith_mark_json
    (h : (stem ++ "." ++ "hprof").startsWith (versionMark version) = true) :
    (stem ++ "." ++ "json").startsWith (versionMark version) = true := by
  rw [String.append_assoc, startsWith_mark_append (by decide)] at h ⊢
  exact h

variable {other : String}

/-- For a file, a scan removes no other one than the report of the dump that it is. -/
theorem cases_of_mem_removed (hname : IsName name)
    (h : other ∈ (store.finding m version name).removed) :
    other = name ∨ ∃ stem, IsStem stem ∧ name = stem ++ "." ++ "hprof" ∧
      other = stem ++ "." ++ "json" := by
  rcases name_cases hname version with hforeign | ⟨stem, hstem, rfl, hmark⟩ | ⟨hmark, hextension⟩
  · rw [finding_of_foreign hforeign] at h
    exact .inl (List.mem_singleton.1 h)
  · rw [finding_of_dump hstem hmark] at h
    split at h
    · rcases List.mem_cons.1 h with heq | hmem
      · exact .inl heq
      · exact .inr ⟨stem, hstem, rfl, List.mem_singleton.1 hmem⟩
    · cases h
  · rw [finding_of_other hmark hextension] at h
    cases h

theorem isName_removed (hname : IsName name) (hup : name ≠ "..") (m : Machine) :
    ∀ file ∈ (store.finding m version name).removed, IsName file ∧ file ≠ ".." := by
  intro file hfile
  rcases cases_of_mem_removed hname hfile with rfl | ⟨stem, hstem, -, rfl⟩
  · exact ⟨hname, hup⟩
  · exact ⟨hstem.isName "json" (by decide), hstem.ne_up "json"⟩

/-- The report of a dump is removed with that dump only. -/
theorem json_not_mem_removed (hstem : IsStem stem)
    (hmark : (stem ++ "." ++ "hprof").startsWith (versionMark version) = true)
    (hname : IsName name) (hne : name ≠ stem ++ "." ++ "hprof") :
    stem ++ "." ++ "json" ∉ (store.finding m version name).removed := by
  intro hmem
  rcases cases_of_mem_removed hname hmem with rfl | ⟨other, hother, rfl, heq⟩
  · have hextension : (splitName (stem ++ "." ++ "json")).2 ≠ some "hprof" := by
      rw [splitName_append hstem.ne_empty "json" (by decide)]
      exact fun hextension ↦ absurd (Option.some.inj hextension) (by decide)
    rw [finding_of_other (startsWith_mark_json hmark) hextension] at hmem
    cases hmem
  · have hstems := (Site.ending_inj (by decide) (by decide) hstem.ne_empty hother.ne_empty heq).1
    exact hne (by rw [hstems])

/-- What is removed for one file makes no difference to what is found of another one. -/
theorem finding_discard (hm : m.Reaches site) (hname : IsName name) (hup : name ≠ "..")
    (hother : IsName other) (hne : name ≠ other) :
    site.store.finding (m.discard site.store (site.store.finding m version name).removed) version
      other = site.store.finding m version other := by
  rcases name_cases hother version with hforeign | ⟨stem, hstem, rfl, hmark⟩ | ⟨hmark, hextension⟩
  · rw [finding_of_foreign hforeign, finding_of_foreign hforeign]
  · have hremoved : ∀ file ∈ (site.store.finding m version name).removed,
        IsName file ∧ file ≠ ".." := isName_removed hname hup m
    have hlook := hm.lookAt_discard hremoved (hstem.isName "json" (by decide))
      (hstem.ne_up "json") (json_not_mem_removed hstem hmark hname hne)
    rw [finding_of_dump hstem hmark, finding_of_dump hstem hmark, Machine.perform_size_eq,
      Machine.perform_size_eq, pairOf, hlook]
  · rw [finding_of_other hmark hextension, finding_of_other hmark hextension]

theorem findings_discard (hm : m.Reaches site) (hname : IsName name) (hup : name ≠ "..")
    (hnames : ∀ other ∈ names, IsName other ∧ other ≠ "..") (hnew : name ∉ names) :
    site.store.findings (m.discard site.store (site.store.finding m version name).removed) version
      names = site.store.findings m version names := by
  have hsame : ∀ other ∈ names, site.store.finding
      (m.discard site.store (site.store.finding m version name).removed) version other =
        site.store.finding m version other := by
    intro other hmem
    exact finding_discard hm hname hup (hnames other hmem).1 fun heq ↦ hnew (heq ▸ hmem)
  rw [findings, findings, Finding.mk.injEq]
  exact ⟨List.flatMap_congr fun other hmem ↦ congrArg Finding.removed (hsame other hmem),
    List.flatMap_congr fun other hmem ↦ congrArg Finding.taken (hsame other hmem)⟩

theorem note_note (store : DumpStore) (scan : StaleScan) (found more : Finding) :
    store.note (store.note scan found) more =
      store.note scan ⟨found.removed ++ more.removed, found.taken ++ more.taken⟩ := by
  simp [note, pathsOf]

/-- A scan removes the files that it finds to be removed, and lists them. -/
theorem run_sortOutAll (hm : m.Reaches site) (hnames : Machine.IsOrderly names)
    (scan : StaleScan) : m.run (sortOutAll version scan (site.store.pathsOf names)) =
      (site.store.note scan (site.store.findings m version names),
        m.discard site.store (site.store.findings m version names).removed) := by
  induction names generalizing m scan with
  | nil => exact (congrArg (·, m) (note_nothing site.store scan)).symm
  | cons name names ih =>
      obtain ⟨hnodup, hall⟩ := hnames
      obtain ⟨⟨hname, hup⟩, hrest⟩ := List.forall_mem_cons.1 hall
      obtain ⟨hnew, hnodup⟩ := List.nodup_cons.1 hnodup
      have hfirst : m.run (sortOut version scan (join site.store.analysisDir name)) =
          (site.store.note scan (site.store.finding m version name),
            m.discard site.store (site.store.finding m version name).removed) :=
        run_sortOut_join hname hup m scan
      -- The others are found as they were before anything was removed for the first one.
      have hlater := ih (hm.discard (site.store.finding m version name).removed) ⟨hnodup, hrest⟩
        (site.store.note scan (site.store.finding m version name))
      rw [findings_discard hm hname hup hrest hnew, note_note] at hlater
      rw [pathsOf, List.map_cons, sortOutAll, Machine.run_bind, hfirst]
      refine hlater.trans ?_
      rw [← Machine.discard_append]
      rfl

/-! ## The whole scan -/

theorem isOrderly_listing (hproper : m.files.IsProper) (dir : String) :
    Machine.IsOrderly (m.listing dir) := by
  rw [Machine.listing]
  split
  next found hfound => exact Machine.isOrderly_filesIn hproper hfound
  next => exact ⟨List.nodup_nil, List.forall_mem_nil _⟩

theorem isName_removed_findings (hnames : ∀ name ∈ names, IsName name ∧ name ≠ "..")
    (m : Machine) :
    ∀ file ∈ (store.findings m version names).removed, IsName file ∧ file ≠ ".." := by
  intro file hfile
  obtain ⟨name, hname, hmem⟩ := List.mem_flatMap.1 hfile
  exact isName_removed (hnames name hname).1 (hnames name hname).2 m file hmem

/-- A scan removes and lists what it finds to be removed, takes up what it finds to be taken up,
and does nothing else. -/
theorem run_scanStale (hm : m.Reaches site) (hproper : m.files.IsProper)
    (hlist : m.CanList site.store.analysisDir) (hmanual : m.CanList site.store.manualDir)
    (version : String) :
    let found := site.store.findings m version (m.listing site.store.analysisDir)
    let m' := m.discard site.store found.removed
    m.run (site.store.scanStale version) = (.ok { site.store.note {} found with
      manual := (m'.listing site.store.manualDir).map (join site.store.manualDir) }, m') := by
  intro found m'
  have hnames := isOrderly_listing hproper site.store.analysisDir
  have hremoved : ∀ file ∈ found.removed, IsName file ∧ file ≠ ".." :=
    isName_removed_findings hnames.2 m
  have hmanual' := hm.canList_discard hremoved hmanual
  rw [scanStale, Machine.run_bind, Machine.run_listFiles hlist]
  change m.run (sortOutAll version {} (site.store.pathsOf _) >>= _) = _
  rw [Machine.run_bind, run_sortOutAll hm hnames, Machine.run_bind, Machine.run_listFiles hmanual']
  rfl

end Storage.DumpStore

end HeapSentry
