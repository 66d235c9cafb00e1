import HeapSentry.Proofs.Storage.Sites
import HeapSentry.Proofs.Supervisor.Rules

/-!
# Scanning for what earlier runs left

A scan deals with one dump after the other.  Whatever it does with the others, it takes up a dump
exactly if that has no report, and removes it if it has one.
-/

namespace HeapSentry

open Storage Storage.FileTree Storage.Path

namespace Site

variable {site : Site} {stem other name : String}

/-- Whether the dumps of the version have names and places of their own. -/
structure IsRegular (site : Site) : Prop where
  avoids : site.Avoids site.store.analysisDir
  noSlash : '/' ∉ site.version.toList

/-- It is so wherever the analysis directory is reached without detours. -/
theorem isRegular_of_plain (hplain : ".." ∉ names site.dir) (hslash : '/' ∉ site.version.toList) :
    site.IsRegular := by
  refine ⟨fun name hvisits ↦ ?_, hslash⟩
  obtain ⟨visited, hvisited, hplace⟩ := hvisits
  rw [absolute_dir] at hvisited
  have hup : ".." ∉ visited := fun hmem ↦ hplain (hvisited.subset hmem)
  rw [foldl_descend_of_plain hup, fileAt, place, foldl_descend_of_plain hplain, List.nil_append,
    List.nil_append] at hplace
  have hlength := hvisited.length_le
  rw [hplace, List.length_append, List.length_singleton] at hlength
  omega

/-- Whether a name is one that dumps of the version have, and the machine takes it. -/
structure Admits (site : Site) (stem : String) : Prop where
  isStem : IsStem stem
  mark : ∀ ending, (stem ++ ending).startsWith (DumpStore.versionMark site.version) = true
  valid : FileTree.isName (stem ++ "." ++ "hprof") = true
  acceptable : isAcceptable (site.store.pairOf stem).hprof = true

theorem ending_inj {ending ending' : String} (h : '.' ∉ ending.toList) (h' : '.' ∉ ending'.toList)
    (hstem : stem ≠ "") (hother : other ≠ "")
    (heq : stem ++ "." ++ ending = other ++ "." ++ ending') : stem = other ∧ ending = ending' := by
  have hsplit := splitName_append hstem ending h
  rw [heq, splitName_append hother ending' h'] at hsplit
  obtain ⟨hstems, hendings⟩ := Prod.mk.inj hsplit
  exact ⟨hstems.symm, (Option.some.inj hendings).symm⟩

namespace Admits

variable (h : site.Admits stem)
include h

theorem entry_hprof : IsEntry (stem ++ "." ++ "hprof") :=
  ⟨h.isStem.isName "hprof" (by decide), h.isStem.ne_up "hprof", h.valid⟩

theorem entry_json : IsEntry (stem ++ "." ++ "json") := by
  refine ⟨h.isStem.isName "json" (by decide), h.isStem.ne_up "json", ?_⟩
  have hvalid := h.valid
  have hsizes : "json".utf8ByteSize ≤ "hprof".utf8ByteSize := by decide
  simp only [FileTree.isName, Bool.and_eq_true, decide_eq_true_eq, String.utf8ByteSize_append,
    String.toList_append, Bool.not_eq_true', List.contains_eq_mem, List.mem_append] at hvalid ⊢
  refine ⟨by omega, decide_eq_false fun hmem ↦ of_decide_eq_false hvalid.2 ?_⟩
  obtain hstem | hjson := hmem
  · exact .inl hstem
  · exact absurd hjson (by decide)

theorem acceptable_json : isAcceptable (site.store.pairOf stem).json = true := by
  have hacceptable := h.acceptable
  have hsizes : "json".utf8ByteSize ≤ "hprof".utf8ByteSize := by decide
  simp only [DumpStore.pairOf, join_of_relative (h.isStem.relative _), isAcceptable,
    Bool.and_eq_true, decide_eq_true_eq, String.utf8ByteSize_append, String.toList_append,
    Bool.not_eq_true', List.contains_eq_mem, List.mem_append] at hacceptable ⊢
  refine ⟨by omega, decide_eq_false fun hmem ↦ of_decide_eq_false hacceptable.2 ?_⟩
  obtain hbase | hstem | hjson := hmem
  · exact .inl hbase
  · exact .inr (.inl hstem)
  · exact absurd hjson (by decide)

theorem hprof_ne_json : stem ++ "." ++ "hprof" ≠ stem ++ "." ++ "json" := by
  intro heq
  have hendings := (ending_inj (by decide) (by decide) h.isStem.ne_empty h.isStem.ne_empty heq).2
  exact absurd hendings (by decide)

end Admits

/-- Whether a path leads neither to nor through a dump and its report. -/
def IsApart (site : Site) (stem path : String) : Prop :=
  ¬ Visits (site.absolute path) (site.fileAt (stem ++ "." ++ "hprof")) ∧
    ¬ Visits (site.absolute path) (site.fileAt (stem ++ "." ++ "json"))

theorem Avoids.isApart {path : String} (h : site.Avoids path) (stem : String) :
    site.IsApart stem path :=
  ⟨h _, h _⟩

theorem isApart_join (havoids : site.Avoids site.store.analysisDir) (hname : IsName name)
    (hup : name ≠ "..") (hhprof : name ≠ stem ++ "." ++ "hprof")
    (hjson : name ≠ stem ++ "." ++ "json") :
    site.IsApart stem (join site.store.analysisDir name) :=
  ⟨not_visits_join havoids hname hup hhprof, not_visits_join havoids hname hup hjson⟩

/-- The files of one dump are apart from those of another. -/
theorem isApart_pairOf (havoids : site.Avoids site.store.analysisDir) (h : IsStem stem)
    (hother : IsStem other) (hne : other ≠ stem) :
    site.IsApart stem (site.store.pairOf other).hprof ∧
      site.IsApart stem (site.store.pairOf other).json := by
  have hdot : '.' ∉ "hprof".toList ∧ '.' ∉ "json".toList := by decide
  have hinj {ending ending' : String} (hending : '.' ∉ ending.toList)
      (hending' : '.' ∉ ending'.toList) : other ++ "." ++ ending ≠ stem ++ "." ++ ending' :=
    fun heq ↦ hne (ending_inj hending hending' hother.ne_empty h.ne_empty heq).1
  refine ⟨isApart_join havoids (hother.isName "hprof" (by decide)) (hother.ne_up "hprof")
    (hinj hdot.1 hdot.1) (hinj hdot.1 hdot.2), ?_⟩
  exact isApart_join havoids (hother.isName "json" (by decide)) (hother.ne_up "json")
    (hinj hdot.2 hdot.1) (hinj hdot.2 hdot.2)

theorem pairOf_inj (h : IsStem stem) (hother : IsStem other)
    (heq : site.store.pairOf stem = site.store.pairOf other) : stem = other := by
  have hnames := (join_inj (h.relative _) (hother.relative _)).1 (congrArg DumpPair.hprof heq)
  exact (ending_inj (by decide) (by decide) h.ne_empty hother.ne_empty hnames).1

/-- Whether a request leaves a dump and its report alone. -/
def Spares (site : Site) (stem : String) (r : Machine.Request) : Prop :=
  r.Leaves site (stem ++ "." ++ "hprof") ∧ r.Leaves site (stem ++ "." ++ "json")

/-- Whether a dump and its report are apart from those with some stem. -/
structure IsOther (site : Site) (stem : String) (pair : DumpPair) : Prop where
  hprof : site.IsApart stem pair.hprof
  json : site.IsApart stem pair.json

theorem isOther_pairOf (havoids : site.Avoids site.store.analysisDir) (h : IsStem stem)
    (hother : IsStem other) (hne : other ≠ stem) : site.IsOther stem (site.store.pairOf other) :=
  have hapart := isApart_pairOf havoids h hother hne
  ⟨hapart.1, hapart.2⟩

theorem not_isApart_hprof (h : site.Admits stem) :
    ¬ site.IsApart stem (site.store.pairOf stem).hprof := by
  intro hapart
  refine hapart.1 ?_
  rw [← place_absolute_join site h.entry_hprof.isName h.entry_hprof.ne_up]
  exact visits_place _

theorem IsOther.ne {pair : DumpPair} (hpair : site.IsOther stem pair) (h : site.Admits stem) :
    pair ≠ site.store.pairOf stem := by
  rintro rfl
  exact not_isApart_hprof h hpair.hprof

/-- Whether one scan finds what another does, and other dumps. -/
def AddsOthers (site : Site) (stem : String) (scan after : StaleScan) : Prop :=
  ∃ more, after.reanalyze = scan.reanalyze ++ more ∧ ∀ pair ∈ more, site.IsOther stem pair

variable {scan after later : StaleScan}

theorem AddsOthers.refl (site : Site) (stem : String) (scan : StaleScan) :
    site.AddsOthers stem scan scan :=
  ⟨[], (List.append_nil _).symm, fun _ h ↦ nomatch h⟩

theorem AddsOthers.trans (h : site.AddsOthers stem scan after)
    (h' : site.AddsOthers stem after later) : site.AddsOthers stem scan later := by
  obtain ⟨more, hmore, hothers⟩ := h
  obtain ⟨rest, hrest, hothers'⟩ := h'
  refine ⟨more ++ rest, by rw [hrest, hmore, List.append_assoc], fun pair hpair ↦ ?_⟩
  obtain hold | hnew := List.mem_append.1 hpair
  · exact hothers pair hold
  · exact hothers' pair hnew

theorem AddsOthers.mem_iff (h : site.AddsOthers stem scan after) (hadmits : site.Admits stem) :
    site.store.pairOf stem ∈ after.reanalyze ↔ site.store.pairOf stem ∈ scan.reanalyze := by
  obtain ⟨more, hmore, hothers⟩ := h
  rw [hmore, List.mem_append]
  exact or_iff_left fun hmem ↦ (hothers _ hmem).ne hadmits rfl

end Site

namespace Machine

variable {m : Machine} {site : Site} {name stem : String} {α : Type}

/-- What leaves a file alone leaves it as it is. -/
theorem IsAt.node?_run (h : m.IsAt site) {a : OnMachine α}
    (ha : a.Asks (Request.Leaves site name)) :
    (m.run a).2.files.node? (site.fileAt name) = m.files.node? (site.fileAt name) := by
  induction a generalizing m with
  | done x => rfl
  | ask r next ih => exact (ih _ (h.perform ha.1.isGentle) (ha.2 _)).trans (h.node?_perform ha.1)

/-- Whether a request changes nothing but files of the analysis directory. -/
def Request.StaysIn (site : Site) (r : Request) : Prop :=
  r.IsGentle ∧ ∀ m : Machine, m.IsAt site → ∀ l, r.Touches m l → ∃ file, l = site.fileAt file

theorem IsAt.evolves_run (h : m.IsAt site) {a : OnMachine α}
    (ha : a.Asks (Request.StaysIn site)) :
    (m.run a).2.IsAt site ∧
      Evolves (fun l ↦ ∃ file, l = site.fileAt file) m.files (m.run a).2.files := by
  induction a generalizing m with
  | done x => exact ⟨h, .refl _ _⟩
  | ask r next ih =>
      obtain ⟨hat, hevolves⟩ := ih _ (h.perform ha.1.1) (ha.2 _)
      exact ⟨hat, ((evolves_perform m ha.1.1).imp (ha.1.2 m h)).trans hevolves⟩

theorem run_bind {β : Type} (m : Machine) (a : OnMachine α) (f : α → OnMachine β) :
    m.run (a >>= f) = (m.run a).2.run (f (m.run a).1) :=
  Activity.runOn_bind ..

end Machine

namespace Storage.DumpStore

open Machine (Request)

variable {site : Site} {m : Machine} {stem name : String} {scan : StaleScan}

/-- What a scan does with a dump, given whether that has a report. -/
def settle (scan : StaleScan) (pair : DumpPair) (reported : Bool) : OnMachine StaleScan :=
  if reported then do
    pair.delete
    return { scan with deleted := scan.deleted ++ [pair.hprof, pair.json] }
  else
    return { scan with reanalyze := scan.reanalyze ++ [pair] }

theorem sortOut_join (h : IsName name) (hup : name ≠ "..") (store : DumpStore) (version : String)
    (scan : StaleScan) : sortOut version scan (join store.analysisDir name) =
      if !name.startsWith (versionMark version) then do
        removeQuietly (join store.analysisDir name)
        return { scan with deleted := scan.deleted ++ [join store.analysisDir name] }
      else if (splitName name).2 ≠ some "hprof" then
        return scan
      else
        OnMachine.exists? (DumpPair.ofHprof (join store.analysisDir name)).json >>=
          settle scan (DumpPair.ofHprof (join store.analysisDir name)) := by
  rw [sortOut, fileName?_join h hup, extension?_join h hup]
  rfl

/-- What a scan does with the dump itself. -/
theorem sortOut_dump (h : site.Admits stem) (scan : StaleScan) :
    sortOut site.version scan (site.store.pairOf stem).hprof =
      OnMachine.exists? (site.store.pairOf stem).json >>=
        settle scan (site.store.pairOf stem) := by
  have hmark := h.mark ("." ++ "hprof")
  rw [← String.append_assoc] at hmark
  have hextension : (splitName (stem ++ "." ++ "hprof")).2 = some "hprof" := by
    rw [splitName_append h.isStem.ne_empty "hprof" (by decide)]
  rw [pairOf, sortOut_join h.entry_hprof.isName h.entry_hprof.ne_up, hmark, hextension,
    ofHprof_join site.store h.isStem]
  rfl

/-- What a scan does with other files. -/
theorem sortOut_other (havoids : site.Avoids site.store.analysisDir) (h : site.Admits stem)
    (hname : IsName name) (hup : name ≠ "..") (hne : name ≠ stem ++ "." ++ "hprof")
    (scan : StaleScan) :
    (sortOut site.version scan (join site.store.analysisDir name)).Asks (site.Spares stem) ∧
      (sortOut site.version scan (join site.store.analysisDir name)).Returns
        (site.AddsOthers stem scan) := by
  rw [sortOut_join hname hup]
  cases hmark : name.startsWith (versionMark site.version) with
  | false =>
      have hjson : name ≠ stem ++ "." ++ "json" := by
        rintro rfl
        rw [String.append_assoc, h.mark] at hmark
        cases hmark
      have hapart := Site.isApart_join havoids hname hup hne hjson
      exact ⟨⟨hapart, fun _ ↦ trivial⟩, fun _ ↦ .refl site stem scan⟩
  | true =>
      by_cases hextension : (splitName name).2 = some "hprof"
      · obtain ⟨other, hother, rfl⟩ := exists_stem hname hmark hextension
        have hpair := Site.isOther_pairOf havoids h.isStem hother fun heq ↦ hne (by rw [heq])
        rw [if_neg (by simp), if_neg (by simp [hextension]), ofHprof_join site.store hother]
        constructor
        · refine Activity.asks_bind ⟨⟨trivial, trivial⟩, fun _ ↦ trivial⟩ fun reported ↦ ?_
          cases reported with
          | false => trivial
          | true => exact ⟨hpair.hprof, fun _ ↦ ⟨hpair.json, fun _ ↦ trivial⟩⟩
        · refine Activity.returns_bind fun reported ↦ ?_
          cases reported with
          | false => exact ⟨[_], rfl, List.forall_mem_singleton.2 hpair⟩
          | true => exact fun _ _ ↦ .refl site stem scan
      · rw [if_neg (by simp), if_pos hextension]
        exact ⟨trivial, .refl site stem scan⟩

/-- A scan changes nothing but files of the analysis directory. -/
theorem asks_sortOut_join (hname : IsName name) (hup : name ≠ "..") (version : String)
    (scan : StaleScan) :
    (sortOut version scan (join site.store.analysisDir name)).Asks (Request.StaysIn site) := by
  have hremove (file : String) (h : IsName file) (hup : file ≠ "..") :
      Request.StaysIn site (.remove (join site.store.analysisDir file)) := by
    refine ⟨trivial, fun m hm l hl ↦ ⟨file, ?_⟩⟩
    have hl : l = place (m.absolute (join site.store.analysisDir file)) := hl
    rw [hl, hm.absolute, site.place_absolute_join h hup]
  rw [sortOut_join hname hup]
  split
  next => exact ⟨hremove name hname hup, fun _ ↦ trivial⟩
  next hmark =>
    split
    next => trivial
    next hextension =>
      have hmark : name.startsWith (versionMark version) = true := by simpa using hmark
      obtain ⟨other, hother, rfl⟩ := exists_stem hname hmark (not_not.1 hextension)
      rw [ofHprof_join site.store hother]
      refine Activity.asks_bind ⟨⟨trivial, fun _ _ _ h ↦ h.elim⟩, fun _ ↦ trivial⟩
        fun reported ↦ ?_
      cases reported with
      | false => trivial
      | true =>
          refine ⟨hremove _ (hother.isName "hprof" (by decide)) (hother.ne_up _), fun _ ↦ ?_⟩
          exact ⟨hremove _ (hother.isName "json" (by decide)) (hother.ne_up _), fun _ ↦ trivial⟩

/-! ## All files of the directory -/

variable {names : List String}

/-- The files with some names, as a scan lists them. -/
def pathsOf (store : DumpStore) (names : List String) : List String :=
  names.map (join store.analysisDir)

theorem sortOutAll_append (version : String) (scan : StaleScan) (paths more : List String) :
    sortOutAll version scan (paths ++ more) =
      sortOutAll version scan paths >>= fun after ↦ sortOutAll version after more := by
  induction paths generalizing scan with
  | nil => rfl
  | cons path paths ih =>
      rw [List.cons_append, sortOutAll, sortOutAll, Activity.bind_assoc]
      exact congrArg _ (funext fun after ↦ ih after)

theorem asks_sortOutAll_names (hnames : ∀ name ∈ names, IsName name ∧ name ≠ "..")
    (version : String) (scan : StaleScan) :
    (sortOutAll version scan (pathsOf site.store names)).Asks (Request.StaysIn site) := by
  induction names generalizing scan with
  | nil => trivial
  | cons name names ih =>
      obtain ⟨hname, hup⟩ := hnames name List.mem_cons_self
      refine Activity.asks_bind (asks_sortOut_join hname hup version scan) fun after ↦ ?_
      exact ih (fun other h ↦ hnames other (List.mem_cons_of_mem _ h)) after

theorem sortOutAll_others (havoids : site.Avoids site.store.analysisDir) (h : site.Admits stem)
    (hnames : ∀ name ∈ names, IsName name ∧ name ≠ "..") (hnew : stem ++ "." ++ "hprof" ∉ names)
    (scan : StaleScan) :
    (sortOutAll site.version scan (pathsOf site.store names)).Asks (site.Spares stem) ∧
      (sortOutAll site.version scan (pathsOf site.store names)).Returns
        (site.AddsOthers stem scan) := by
  induction names generalizing scan with
  | nil => exact ⟨trivial, .refl site stem scan⟩
  | cons name names ih =>
      obtain ⟨hname, hup⟩ := hnames name List.mem_cons_self
      have hne : name ≠ stem ++ "." ++ "hprof" := fun heq ↦ hnew (heq ▸ List.mem_cons_self)
      obtain ⟨hasks, hreturns⟩ := sortOut_other havoids h hname hup hne scan
      have hrest := ih (fun other h ↦ hnames other (List.mem_cons_of_mem _ h))
        fun hmem ↦ hnew (List.mem_cons_of_mem _ hmem)
      refine ⟨Activity.asks_bind hasks fun after ↦ (hrest after).1, ?_⟩
      exact hreturns.bind fun after hafter ↦ (hrest after).2.imp fun _ ↦ hafter.trans

/-- The dump is dealt with once, and the others leave it alone. -/
theorem sortOutAll_split {before after : List String} (h : site.Admits stem)
    (scan : StaleScan) : sortOutAll site.version scan
        (pathsOf site.store (before ++ (stem ++ "." ++ "hprof") :: after)) =
      sortOutAll site.version scan (pathsOf site.store before) >>= fun scan ↦
        OnMachine.exists? (site.store.pairOf stem).json >>= fun reported ↦
          settle scan (site.store.pairOf stem) reported >>= fun scan ↦
            sortOutAll site.version scan (pathsOf site.store after) := by
  rw [pathsOf, List.map_append, sortOutAll_append]
  refine congrArg _ (funext fun scan ↦ ?_)
  rw [List.map_cons, sortOutAll]
  change sortOut site.version scan (site.store.pairOf stem).hprof >>= _ = _
  rw [sortOut_dump h, Activity.bind_assoc]
  rfl

end Storage.DumpStore

end HeapSentry
