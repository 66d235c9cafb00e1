import HeapSentry.Proofs.Supervisor.Budget
import HeapSentry.Proofs.Supervisor.Overtaking

/-!
# Dumps survive crashes

Lives follow one another on one storage root, and each may end after any request.  Whatever order
its threads took, a dump that no scan of its own life overtook is analysed once at most, and the
next scan can tell from the files whether its analysis was begun.
-/

namespace HeapSentry

open Pressure Storage Storage.FileTree

namespace Site

/-- The dump of a moment and its report. -/
def pairAt (site : Site) (nowMs : Int) : DumpPair :=
  .ofHprof (Path.join site.store.analysisDir (DumpStore.dumpName site.version nowMs))

/-- Whether a machine with some files takes the dump of a moment, which has no report yet. -/
structure IsUnmarked (site : Site) (files : FileTree) (nowMs : Int) : Prop where
  name : FileTree.isName (DumpStore.dumpName site.version nowMs) = true
  path : Path.isAcceptable (site.pairAt nowMs).hprof = true
  /-- What is there under its name is a dump. -/
  hprof : ∀ n, files.node? (site.fileAt (DumpStore.dumpName site.version nowMs)) = some n →
    n ≠ .dir ∧ files.HasDir site.dir
  json : files.node? (site.fileAt (DumpStore.dumpStem site.version nowMs ++ "." ++ "json")) = none

variable {site : Site} {files : FileTree} {nowMs : Int}

theorem IsRegular.pairAt_eq (h : site.IsRegular) (nowMs : Int) :
    site.pairAt nowMs = site.store.pairOf (DumpStore.dumpStem site.version nowMs) := by
  rw [pairAt, DumpStore.dumpName_eq]
  exact DumpStore.ofHprof_join _ (DumpStore.isStem_dumpStem h.noSlash nowMs)

theorem IsUnmarked.admits (h : site.IsUnmarked files nowMs) (hsite : site.IsRegular) :
    site.Admits (DumpStore.dumpStem site.version nowMs) where
  isStem := DumpStore.isStem_dumpStem hsite.noSlash nowMs
  mark := DumpStore.startsWith_dumpStem site.version nowMs
  valid := DumpStore.dumpName_eq site.version nowMs ▸ h.name
  acceptable := hsite.pairAt_eq nowMs ▸ h.path

end Site

namespace Supervisor

variable {site : Site} {stem : String} {files : FileTree} {past : List Moment} {l : Lifetime}
  {lives : List Lifetime} {limit : Nat}

/-- Whether a life is one of a supervisor at a site, where nobody else has to do with files. -/
structure Lifetime.IsAt (l : Lifetime) (site : Site) : Prop where
  store : l.setup.store = site.store
  version : l.setup.version = site.version
  machine : l.machine.IsAt site
  ledger : ∀ path, l.setup.KeepsLedgerAt path → site.Avoids path
  uploads : ∀ path, l.setup.UploadsTo path → site.Avoids path
  tool : l.process.dumpTool.IsTame
  spares : (Scene.opening l.initial).SpareFiles l.setup l.moves

/-- Whether every life begins with the files that the one before left. -/
def InheritFiles : FileTree → List Lifetime → Prop
  | _, [] => True
  | files, l :: lives =>
    l.machine.files = files ∧ InheritFiles l.final.world.machine.files lives

/-- The files that some lives leave. -/
def filesAfter (files : FileTree) (lives : List Lifetime) : FileTree :=
  lives.foldl (fun _ l ↦ l.final.world.machine.files) files

/-- All requests of some lives, in their order. -/
def annalsOf (lives : List Lifetime) : List Moment := lives.flatMap fun l ↦ l.final.history

theorem IsOvertaken.mem_annalsOf {store : DumpStore} {path : String} (hl : l ∈ lives)
    (h : IsOvertaken store path l.final.history) : path ∈ dumps (annalsOf lives) := by
  rw [dumps, annalsOf, List.filterMap_flatMap]
  exact List.mem_flatMap.2 ⟨l, hl, h.mem⟩

theorem Lifetime.IsAt.respects (h : l.IsAt site) (stem : String) : l.setup.Respects site stem where
  store := h.store
  version := h.version
  ledger path hpath := (h.ledger path hpath).isApart stem
  uploads path hpath := (h.uploads path hpath).isApart stem

/-- Whether files can be what some requests left of a dump that was made once at most, and of which
no more than so many analyses were begun. -/
structure AreKept (site : Site) (stem : String) (limit : Nat) (files : FileTree)
    (annals : List Moment) : Prop where
  proper : files.IsProper
  hprof : files.node? (site.fileAt (stem ++ "." ++ "hprof")) ≠ some .dir
  sound : (standing site stem { files } annals).dumped ≤ 1 →
    (standing site stem { files } annals).IsSound
  once : (standing site stem { files } annals).dumped ≤ 1 →
    (standing site stem { files } annals).analysed ≤ limit

theorem AreKept.dumped_of_analysed (h : AreKept site stem limit files past)
    (hanalysed : 0 < (analyses past).count (site.store.pairOf stem).hprof) :
    0 < (dumps past).count (site.store.pairOf stem).hprof := by
  by_contra hnever
  have hsound := h.sound (Nat.le_trans (Nat.le_of_not_lt hnever) (Nat.zero_le 1))
  exact hnever (hsound.marked (hsound.analysed hanalysed)).1

/-- A life leaves the files as they can be. -/
theorem AreKept.life (h : AreKept site stem limit l.machine.files past) (hsite : site.IsRegular)
    (hadmits : site.Admits stem) (hl : l.IsAt site) (hlimit : 1 ≤ limit)
    (hovertaken : IsOvertaken site.store (site.store.pairOf stem).hprof l.final.history →
      2 ≤ limit) :
    AreKept site stem limit l.final.world.machine.files (past ++ l.final.history) := by
  have hground : l.initial.IsGrounded site stem := ⟨hl.machine, h.proper, h.hprof, hl.tool⟩
  have hopening : (Play.opening (custody site stem) l.initial).IsSafe past limit := by
    refine ⟨Play.isOrderly_opening hground rfl rfl, ?_⟩
    have hstanding : (Play.opening (custody site stem) l.initial).standing past =
        standing site stem { files := l.machine.files } past := by
      change standing site stem l.machine (past ++ []) = _
      rw [List.append_nil]
      rfl
    intro honce _
    rw [hstanding] at honce
    have hnone : (Play.opening (custody site stem) l.initial).load = 0 := rfl
    constructor
    case sound => rw [hstanding]; exact h.sound honce
    case fits => exact List.forall_mem_nil _
    case pending => exact fun hpos ↦ (Nat.lt_irrefl 0 (hnone ▸ hpos)).elim
    case once =>
      rw [hstanding, hnone, Nat.zero_add]
      exact h.once honce
    case listed =>
      rintro ⟨part, hmem, -⟩
      cases hmem
  obtain ⟨p, hp, hsafe⟩ := Play.Shows.run_of_spareFiles (Play.IsSafe past limit)
    (govern_custody hsite hadmits (hl.respects stem))
    (fun hshows hspares hstep hsafe ↦
      hsafe.step hsite hadmits h.dumped_of_analysed hlimit hshows hspares hstep)
    (Play.shows_opening _ l.initial) hopening hl.spares
  have hstanding : p.standing past = standing site stem { files := l.final.world.machine.files }
      (past ++ l.final.history) := by
    rw [Play.standing, hp.world, hp.history]
    rfl
  have hgrounded := hsafe.orderly.grounded
  have hkeeps (honce : (p.standing past).dumped ≤ 1) : p.Keeps past limit :=
    hsafe.keeps honce (by rw [hp.history]; exact hovertaken)
  rw [hp.world] at hgrounded
  rw [hstanding] at hkeeps
  refine ⟨hgrounded.proper, hgrounded.hprof, fun honce ↦ ?_, fun honce ↦ ?_⟩
  · rw [← hstanding]
    exact (hkeeps honce).sound
  · rw [← hstanding]
    exact Nat.le_trans (Nat.le_add_left _ _) (hkeeps honce).once

theorem AreKept.lives_after (h : AreKept site stem limit files past) (hsite : site.IsRegular)
    (hadmits : site.Admits stem) (hlives : ∀ l ∈ lives, l.IsAt site)
    (hinherit : InheritFiles files lives) (hlimit : 1 ≤ limit)
    (hovertaken : ∀ l ∈ lives,
      IsOvertaken site.store (site.store.pairOf stem).hprof l.final.history → 2 ≤ limit) :
    AreKept site stem limit (filesAfter files lives) (past ++ annalsOf lives) := by
  induction lives generalizing files past with
  | nil => simpa [filesAfter, annalsOf] using h
  | cons l lives ih =>
      obtain ⟨rfl, hrest⟩ := hinherit
      have hl := h.life hsite hadmits (hlives l List.mem_cons_self) hlimit
        (hovertaken l List.mem_cons_self)
      have hlater := ih hl (fun other hother ↦ hlives other (List.mem_cons_of_mem _ hother)) hrest
        fun other hother ↦ hovertaken other (List.mem_cons_of_mem _ hother)
      rw [List.append_assoc] at hlater
      exact hlater

/-! ## The dump of a moment -/

section Dump

variable {nowMs : Int} (hsite : site.IsRegular) (hunmarked : site.IsUnmarked files nowMs)
include hsite hunmarked

/-- Files are as they can be if a dump that is there was made before. -/
theorem areKept_of_isUnmarked (hproper : files.IsProper) (limit : Nat) (past : List Moment)
    (hpast : analyses past = [] ∧ markings past = [])
    (hmade : Machine.Has { files } site (DumpStore.dumpName site.version nowMs) →
      (site.pairAt nowMs).hprof ∈ dumps past) :
    AreKept site (DumpStore.dumpStem site.version nowMs) limit files past := by
  obtain ⟨hanalyses, hmarkings⟩ := hpast
  have hhprof := hunmarked.hprof
  rw [DumpStore.dumpName_eq] at hhprof hmade
  rw [hsite.pairAt_eq] at hmade
  have hnone : (analyses past).count
      (site.store.pairOf (DumpStore.dumpStem site.version nowMs)).hprof = 0 := by
    rw [hanalyses]
    rfl
  refine ⟨hproper, fun hdir ↦ (hhprof _ hdir).1 rfl, fun _ ↦ ?_, fun _ ↦ ?_⟩
  · constructor
    case hprof =>
      intro hhas
      obtain ⟨n, hn⟩ := Option.isSome_iff_exists.1 hhas
      exact ⟨List.count_pos_iff.2 (hmade hhas), (hhprof n hn).2⟩
    case json =>
      intro hhas
      have hhas : (files.node? (site.fileAt _)).isSome = true := hhas
      rw [hunmarked.json] at hhas
      cases hhas
    case marked =>
      intro hmarked
      have hmarked : _ ∈ markings past := hmarked
      rw [hmarkings] at hmarked
      cases hmarked
    case analysed => exact fun hpos ↦ absurd hnone (Nat.pos_iff_ne_zero.1 hpos)
  · exact Nat.le_trans (Nat.le_of_eq hnone) (Nat.zero_le limit)

/-- A dump that was made in some earlier life. -/
def Moment.earlier (path : String) : Moment := ⟨0, .call .stop, .dumpHeap path, .ok ()⟩

section Lives

variable (hproper : files.IsProper) (hlives : ∀ l ∈ lives, l.IsAt site)
  (hinherit : InheritFiles files lives)
  (honce : (dumps (annalsOf lives)).count (site.pairAt nowMs).hprof ≤ 1)
  (hnew : (site.pairAt nowMs).hprof ∈ dumps (annalsOf lives) →
    ¬ Machine.Has { files } site (DumpStore.dumpName site.version nowMs))
include hproper hlives hinherit honce hnew

/-- What the lives come to if the dump is made once at most, before them or in one of them. -/
theorem exists_isKept_after (hlimit : 1 ≤ limit)
    (hovertaken : ∀ l ∈ lives,
      IsOvertaken site.store (site.pairAt nowMs).hprof l.final.history → 2 ≤ limit) :
    ∃ past, analyses past = [] ∧ markings past = [] ∧
      AreKept site (DumpStore.dumpStem site.version nowMs) limit (filesAfter files lives)
        (past ++ annalsOf lives) ∧
      (dumps (past ++ annalsOf lives)).count (site.pairAt nowMs).hprof ≤ 1 := by
  have hadmits := hunmarked.admits hsite
  have hafter {past : List Moment}
      (hfirst : AreKept site (DumpStore.dumpStem site.version nowMs) limit files past) :=
    hfirst.lives_after hsite hadmits hlives hinherit hlimit (hsite.pairAt_eq nowMs ▸ hovertaken)
  by_cases hthere : Machine.Has { files } site (DumpStore.dumpName site.version nowMs)
  · have hfirst := areKept_of_isUnmarked hsite hunmarked hproper limit
      [.earlier (site.pairAt nowMs).hprof] ⟨rfl, rfl⟩ fun _ ↦ List.mem_singleton_self _
    refine ⟨_, rfl, rfl, hafter hfirst, ?_⟩
    have hnever : (site.pairAt nowMs).hprof ∉ dumps (annalsOf lives) := fun hmem ↦
      hnew hmem hthere
    change (_ :: dumps (annalsOf lives)).count _ ≤ 1
    exact Nat.le_of_eq (by rw [List.count_cons_self, List.count_eq_zero_of_not_mem hnever])
  · have hfirst := areKept_of_isUnmarked hsite hunmarked hproper limit [] ⟨rfl, rfl⟩
      fun hhas ↦ (hthere hhas).elim
    exact ⟨[], rfl, rfl, hafter hfirst, honce⟩

theorem analyses_le_of_limit (hlimit : 1 ≤ limit)
    (hovertaken : ∀ l ∈ lives,
      IsOvertaken site.store (site.pairAt nowMs).hprof l.final.history → 2 ≤ limit) :
    (analyses (annalsOf lives)).count (site.pairAt nowMs).hprof ≤ limit := by
  obtain ⟨past, hanalyses, -, hkept, honce⟩ :=
    exists_isKept_after hsite hunmarked hproper hlives hinherit honce hnew hlimit hovertaken
  have hsum : analyses (past ++ annalsOf lives) = analyses (annalsOf lives) := by
    rw [analyses, List.filterMap_append, ← analyses, hanalyses, List.nil_append, ← analyses]
  rw [hsite.pairAt_eq] at honce ⊢
  rw [← hsum]
  exact hkept.once honce

/-- The next scan takes a dump up exactly if it is still there and was never marked, and a dump that
was marked does not outlast the scan. -/
theorem scan_after {m : Machine} (hm : m.IsAt site) (hfiles : m.files = filesAfter files lives)
    (hlist : m.CanList site.store.analysisDir) (hmanual : m.CanList site.store.manualDir) :
    ∃ scan m', m.run (site.store.scanStale site.version) = (.ok scan, m') ∧
      (site.pairAt nowMs ∈ scan.reanalyze ↔
        m.Has site (DumpStore.dumpName site.version nowMs) ∧
          (site.pairAt nowMs).json ∉ markings (annalsOf lives)) ∧
      ((site.pairAt nowMs).json ∈ markings (annalsOf lives) →
        ¬ m'.Has site (DumpStore.dumpName site.version nowMs)) := by
  obtain ⟨past, -, hmarkings, ⟨hproper', hprof, hsound, -⟩, honce⟩ :=
    exists_isKept_after hsite hunmarked hproper hlives hinherit honce hnew (Nat.le_succ 1)
      fun _ _ _ ↦ Nat.le_refl 2
  have hmarks : markings (past ++ annalsOf lives) = markings (annalsOf lives) := by
    rw [markings, List.filterMap_append, ← markings, hmarkings, List.nil_append, ← markings]
  have hadmits := hunmarked.admits hsite
  rw [hsite.pairAt_eq] at honce ⊢
  rw [DumpStore.dumpName_eq, ← hmarks]
  have hsound := hsound honce
  have hsame (name : String) :
      m.Has site name ↔ Machine.Has { files := filesAfter files lives } site name := by
    rw [Machine.Has, hfiles]
    rfl
  have hroom (hhas : m.Has site (DumpStore.dumpStem site.version nowMs ++ "." ++ "hprof")) :
      m.files.HasDir site.dir := by
    rw [hfiles]
    exact (hsound.hprof ((hsame _).1 hhas)).2
  rw [← hfiles] at hproper' hprof
  obtain ⟨scan, m', hrun, -, hfound, hleft⟩ :=
    hm.exists_scan hsite.avoids hadmits hproper' hprof hroom hlist hmanual
  have hreported
      (hhas : m.Has site (DumpStore.dumpStem site.version nowMs ++ "." ++ "hprof")) :
      m.Has site (DumpStore.dumpStem site.version nowMs ++ "." ++ "json") ↔
        (site.store.pairOf (DumpStore.dumpStem site.version nowMs)).json ∈
          markings (past ++ annalsOf lives) := by
    constructor
    · exact fun hjson ↦ hsound.json ((hsame _).1 hjson)
    · exact fun hmarked ↦ (hsame _).2 ((hsound.marked hmarked).2 ((hsame _).1 hhas))
  refine ⟨scan, m', hrun, hfound.trans (and_congr_right fun hhas ↦ (hreported hhas).not), ?_⟩
  intro hmarked hstill
  obtain ⟨hhas, hnot⟩ := hleft hstill
  exact hnot ((hreported hhas).2 hmarked)

/-- Whatever the lives came to, a dump is analysed twice at most, and once at most unless the dumps
were listed in the life that made it when it was there already.  The next scan takes it up exactly
if it is still there and was never marked, and a dump that was marked does not outlast the scan. -/
theorem analysed_once_unless_overtaken :
    (analyses (annalsOf lives)).count (site.pairAt nowMs).hprof ≤ 2 ∧
      ((∀ l ∈ lives, ¬ IsOvertaken site.store (site.pairAt nowMs).hprof l.final.history) →
        (analyses (annalsOf lives)).count (site.pairAt nowMs).hprof ≤ 1) ∧
      ∀ m : Machine, m.IsAt site → m.files = filesAfter files lives →
        m.CanList site.store.analysisDir → m.CanList site.store.manualDir →
          ∃ scan m', m.run (site.store.scanStale site.version) = (.ok scan, m') ∧
            (site.pairAt nowMs ∈ scan.reanalyze ↔
              m.Has site (DumpStore.dumpName site.version nowMs) ∧
                (site.pairAt nowMs).json ∉ markings (annalsOf lives)) ∧
            ((site.pairAt nowMs).json ∈ markings (annalsOf lives) →
              ¬ m'.Has site (DumpStore.dumpName site.version nowMs)) := by
  refine ⟨?_, fun hnone ↦ ?_, ?_⟩
  · exact analyses_le_of_limit hsite hunmarked hproper hlives hinherit honce hnew (Nat.le_succ 1)
      fun _ _ _ ↦ Nat.le_refl 2
  · exact analyses_le_of_limit hsite hunmarked hproper hlives hinherit honce hnew (Nat.le_refl 1)
      fun l hl hovertaken ↦ (hnone l hl hovertaken).elim
  · intro m hm hfiles hlist hmanual
    exact scan_after hsite hunmarked hproper hlives hinherit honce hnew hm hfiles hlist hmanual

end Lives

end Dump

/-! ## A dump that outlives two lives -/

/-- A life that is started with some files, among dumps of version 1. -/
def lifeFrom (files : FileTree) (moves : List Move) : Lifetime :=
  { leftoverLife with machine := { files }, moves := .call (.start true) :: moves }

/-- A life that ends while it analyses a dump that was left behind. -/
def interruptedLife : Lifetime :=
  lifeFrom leftoverFiles
    (List.replicate 11 (.step 0) ++ [.begin 0] ++ List.replicate 8 (.step 1))

/-- The next life, which ends when it has removed the dump and not yet its report. -/
def tidyingLife : Lifetime :=
  lifeFrom interruptedLife.final.world.machine.files (List.replicate 7 (.step 0))

def leftoverSite : Site := ⟨⟨"/"⟩, "1", "/"⟩

theorem isAt_lifeFrom {moves : List Move} (h : moves.all (!·.surrounds) = true) :
    (lifeFrom files moves).IsAt leftoverSite where
  store := rfl
  version := rfl
  machine := ⟨rfl, fun _ hfile ↦ nomatch hfile⟩
  ledger _ hpath := by
    obtain ⟨_, hfile, -⟩ := hpath
    cases hfile
  uploads _ hpath := by
    obtain ⟨_, hdir | hdir, -⟩ := hpath <;> cases hdir
  tool := isTame_writes none
  spares := Scene.spareFiles_of_all h

theorem isProper_leftoverFiles : leftoverFiles.IsProper := by
  have hanalysis : Path.IsName "analysis" ∧ "analysis" ≠ ".." :=
    ⟨Site.isName_analysis, by decide⟩
  have hdump : Path.IsName "1_5.hprof" ∧ "1_5.hprof" ≠ ".." :=
    ⟨⟨by decide, by decide, by decide⟩, by decide⟩
  refine (isProper_empty.insert ?_ _).insert ?_ _
  · simpa using hanalysis
  · simpa using And.intro hanalysis hdump

theorem isUnmarked_leftoverFiles : leftoverSite.IsUnmarked leftoverFiles 5 where
  name := by decide +kernel
  path := by decide +kernel
  hprof n hn := by
    have hplace : leftoverSite.fileAt (DumpStore.dumpName leftoverSite.version 5) =
        ["analysis", "1_5.hprof"] := by decide +kernel
    have hnames : Path.names leftoverSite.dir = ["analysis"] := by decide +kernel
    have hdir : place leftoverSite.dir = ["analysis"] := by
      rw [place, hnames]
      rfl
    rw [hplace, leftoverFiles, node?_insert_self _ (by decide)] at hn
    obtain rfl := Option.some.inj hn
    refine ⟨Node.noConfusion, ⟨?_, ?_⟩⟩
    · rw [hnames, hdir]
      rfl
    · rw [hdir, leftoverFiles, node?_insert_of_ne _ (by decide), node?_insert_self _ (by decide)]
  json := by
    have hplace : leftoverSite.fileAt
        (DumpStore.dumpStem leftoverSite.version 5 ++ "." ++ "json") =
          ["analysis", "1_5.json"] := by decide +kernel
    rw [hplace, leftoverFiles, node?_insert_of_ne _ (by decide), node?_insert_of_ne _ (by decide)]
    rfl

/-- A dump whose analysis was interrupted is not analysed again, and goes. -/
theorem interruptedLife_analysed_once :
    (analyses (annalsOf [interruptedLife, tidyingLife])).count "/analysis/1_5.hprof" = 1 ∧
      ∃ scan m', Machine.run { files := filesAfter leftoverFiles [interruptedLife, tidyingLife] }
          (leftoverSite.store.scanStale "1") = (.ok scan, m') ∧
        leftoverSite.pairAt 5 ∉ scan.reanalyze ∧
        ¬ m'.Has leftoverSite (DumpStore.dumpName "1" 5) := by
  have hsite : leftoverSite.IsRegular := Site.isRegular_of_plain (by decide +kernel) (by decide)
  have hlives : ∀ l ∈ [interruptedLife, tidyingLife], l.IsAt leftoverSite := by
    intro l hl
    obtain rfl | hl := List.mem_cons.1 hl
    · exact isAt_lifeFrom (by decide)
    · obtain rfl := List.mem_singleton.1 hl
      exact isAt_lifeFrom (by decide)
  have hpath : (leftoverSite.pairAt 5).hprof = "/analysis/1_5.hprof" := by decide +kernel
  have hnever : (leftoverSite.pairAt 5).hprof ∉
      dumps (annalsOf [interruptedLife, tidyingLife]) := by decide +kernel
  have hmarked : (leftoverSite.pairAt 5).json ∈
      markings (annalsOf [interruptedLife, tidyingLife]) := by decide +kernel
  have hanalysed : 0 < (analyses (annalsOf [interruptedLife, tidyingLife])).count
      (leftoverSite.pairAt 5).hprof := by decide +kernel
  obtain ⟨-, honce, hscan⟩ := analysed_once_unless_overtaken hsite isUnmarked_leftoverFiles
    isProper_leftoverFiles hlives ⟨rfl, rfl, trivial⟩
    (by rw [List.count_eq_zero_of_not_mem hnever]; exact Nat.zero_le 1)
    fun hmem ↦ absurd hmem hnever
  have honce := honce fun l hl hovertaken ↦ hnever (hovertaken.mem_annalsOf hl)
  rw [← hpath]
  refine ⟨Nat.le_antisymm honce hanalysed, ?_⟩
  let m : Machine := { files := filesAfter leftoverFiles [interruptedLife, tidyingLife] }
  have hlist : (m.perform (.entries leftoverSite.store.analysisDir)).1.isOk = true := by
    decide +kernel
  have hmanual : (m.perform (.entries leftoverSite.store.manualDir)).1 = .error .notFound := by
    decide +kernel
  obtain ⟨scan, m', hrun, hfound, hgone⟩ := hscan m ⟨rfl, fun _ hfile ↦ (nomatch hfile)⟩ rfl
    (Machine.canList_of_isOk hlist) fun e he ↦ Except.error.inj (he.symm.trans hmanual)
  exact ⟨scan, m', hrun, fun hmem ↦ (hfound.1 hmem).2 hmarked, hgone hmarked⟩

/-! ## A dump that is overtaken -/

/-- The settings of a supervisor to which any thread is a reason. -/
def eager : Settings where
  general := { appVersion := "1" }
  monitor := { threadThreshold := 0, maxOverThresholdCount := 1 }

def crowd : Snapshot := { takenAt := 0, threads := 3 }

/-- A life in which the first call to start is held up before it lists the dumps.  Meanwhile the
host goes to the background and comes back, and the task that then polls is about to do so. -/
def heldUpLife : Lifetime where
  setup := { settings := eager, store := ⟨"/"⟩, analyst := {} }
  machine := { nowMs := 5 }
  ledger := .empty
  host := {}
  process := {
    snapshots := [some crowd]
    dumpTool := .writes (some "{}".toUTF8) }
  moves :=
    .call (.start true) :: List.replicate 4 (.step 0) ++
    .call .background :: List.replicate 2 (.step 1) ++
    .call (.foreground true) :: List.replicate 6 (.step 2) ++
    .begin 0 :: List.replicate 2 (.step 3)

/-- The dump is made and then listed by the call to start, and both who made it and who listed it
begin to analyse it. -/
def overtaking : List Move :=
  List.replicate 2 (.step 3) ++ .begin 0 :: List.replicate 8 (.step 4) ++
    List.replicate 5 (.step 0) ++ List.replicate 5 (.step 4) ++
    .begin 0 :: List.replicate 8 (.step 5)

def overtakenLife : Lifetime :=
  { heldUpLife with moves := heldUpLife.moves ++ .step 3 :: overtaking }

/-- What is left of a poll when its outcome is known. -/
def afterPoll (gen : Nat) (outcome : PollOutcome) : Supervised Unit := do
  match outcome with
  | .triggered d => if ← Supervised.claimLaunch then Supervised.spawn (.handOff d.joined)
  | _ => pure ()
  if outcome.continues then Supervised.spawn (.poll gen)

/-- The scene in which the poll that was awaited had some outcome. -/
def heldUpPoll (outcome : PollOutcome) : Scene where
  world := (heldUpLife.final.world.poll eager 5).2
  threads := heldUpLife.final.threads.set 3 ⟨.task (.poll 1), afterPoll 1 outcome⟩
  history := heldUpLife.final.history ++ [⟨3, .task (.poll 1), .poll 5, outcome⟩]

/-- What the poll decides.  The heap may be another reason than the threads. -/
def heldUpDecision : Decision :=
  TriggerLoop.decisionOn eager crowd heldUpLife.final.world.memory.session.loop

theorem poll_heldUpLife : (heldUpLife.final.world.poll eager 5).1 = .triggered heldUpDecision := by
  have hthreads : (Tracker.track eager.monitor none crowd (.thread ⟨0, 0⟩)).1.reason? =
      some .threadOom := by decide
  have hreason : Reason.threadOom ∈ heldUpDecision.reasons :=
    List.mem_filterMap.2 ⟨_, .tail _ (.head _), hthreads⟩
  simp only [World.poll, Session.poll]
  refine TriggerLoop.poll_eq_triggered_iff.2 ⟨?_, ⟨crowd, ?_, rfl⟩, List.ne_nil_of_mem hreason, rfl,
    ?_, ?_⟩
  all_goals decide +kernel

theorem final_overtakenLife :
    overtakenLife.final = (heldUpPoll (heldUpLife.final.world.poll eager 5).1).run
      heldUpLife.setup overtaking := by
  have hthread : heldUpLife.final.threads[3]? =
      some ⟨.task (.poll 1), .ask (.poll 5) (afterPoll 1)⟩ := rfl
  have hpoll : heldUpLife.final.handle heldUpLife.setup (.step 3) =
      heldUpPoll (heldUpLife.final.world.poll eager 5).1 := by
    rw [Scene.handle, hthread]
    rfl
  rw [← hpoll]
  exact Scene.run_append ..

theorem overtakenLife_analysed_twice :
    dumps overtakenLife.final.history = ["/analysis/1_5.hprof"] ∧
      (analyses overtakenLife.final.history).count "/analysis/1_5.hprof" = 2 := by
  rw [final_overtakenLife, poll_heldUpLife]
  decide +kernel

theorem isAt_overtakenLife : overtakenLife.IsAt leftoverSite where
  store := rfl
  version := rfl
  machine := ⟨rfl, fun _ hfile ↦ nomatch hfile⟩
  ledger _ hpath := by
    obtain ⟨_, hfile, -⟩ := hpath
    cases hfile
  uploads _ hpath := by
    obtain ⟨_, hdir | hdir, -⟩ := hpath <;> cases hdir
  tool := isTame_writes (some "{}".toUTF8)
  spares := Scene.spareFiles_of_all (by decide)

theorem isUnmarked_empty : leftoverSite.IsUnmarked .empty 5 where
  name := by decide +kernel
  path := by decide +kernel
  hprof n hn := by
    have hnone : FileTree.empty.node?
        (leftoverSite.fileAt (DumpStore.dumpName leftoverSite.version 5)) = none := by
      decide +kernel
    cases hnone.symm.trans hn
  json := by decide +kernel

/-- One dump may be analysed twice. -/
theorem analysed_not_always_once : ¬ ∀ (site : Site) (files : FileTree) (nowMs : Int)
    (lives : List Lifetime), site.IsRegular → site.IsUnmarked files nowMs → files.IsProper →
      (∀ l ∈ lives, l.IsAt site) → InheritFiles files lives →
        (dumps (annalsOf lives)).count (site.pairAt nowMs).hprof ≤ 1 →
          ((site.pairAt nowMs).hprof ∈ dumps (annalsOf lives) →
            ¬ Machine.Has { files } site (DumpStore.dumpName site.version nowMs)) →
              (analyses (annalsOf lives)).count (site.pairAt nowMs).hprof ≤ 1 := by
  intro h
  obtain ⟨hdumps, htwice⟩ := overtakenLife_analysed_twice
  have hpath : (leftoverSite.pairAt 5).hprof = "/analysis/1_5.hprof" := by decide +kernel
  have hannals : annalsOf [overtakenLife] = overtakenLife.final.history := List.append_nil _
  have hnever : ¬ Machine.Has { files := .empty } leftoverSite
      (DumpStore.dumpName leftoverSite.version 5) := by
    rw [Machine.Has]
    decide +kernel
  have honce := h leftoverSite .empty 5 [overtakenLife]
    (Site.isRegular_of_plain (by decide +kernel) (by decide)) isUnmarked_empty isProper_empty
    (List.forall_mem_singleton.2 isAt_overtakenLife) ⟨rfl, trivial⟩
  rw [hpath, hannals, hdumps, htwice] at honce
  exact absurd (honce (by decide) fun _ ↦ hnever) (by decide)

end Supervisor

end HeapSentry
