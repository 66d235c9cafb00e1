import HeapSentry.Proofs.Storage.Scanning

/-!
# A dump and its report

What requests to a machine do to a dump and to its report.
-/

namespace HeapSentry

open Storage Storage.FileTree Storage.Path

namespace Machine

variable {m m' : Machine} {site : Site} {stem name : String}

/-- Whether a file of the analysis directory is there. -/
def Has (m : Machine) (site : Site) (name : String) : Prop :=
  (m.files.node? (site.fileAt name)).isSome = true

/-- Whether one machine becomes another without a change to the dump and its report. -/
structure Spared (site : Site) (stem : String) (m m' : Machine) : Prop where
  hprof : m'.Has site (stem ++ "." ++ "hprof") ↔ m.Has site (stem ++ "." ++ "hprof")
  json : m'.Has site (stem ++ "." ++ "json") ↔ m.Has site (stem ++ "." ++ "json")
  room : m.files.HasDir site.dir → m'.files.HasDir site.dir

theorem Spared.refl (site : Site) (stem : String) (m : Machine) : Spared site stem m m :=
  ⟨Iff.rfl, Iff.rfl, id⟩

theorem IsAt.has_perform (hm : m.IsAt site) {r : Request} (hr : r.Leaves site name) :
    (m.perform r).2.Has site name ↔ m.Has site name := by
  rw [Has, hm.node?_perform hr, Has]

theorem IsAt.spared_perform (hm : m.IsAt site) {r : Request} (hr : site.Spares stem r) :
    Spared site stem m (m.perform r).2 where
  hprof := hm.has_perform hr.1
  json := hm.has_perform hr.2
  room hroom := hroom.evolve (evolves_perform m hr.1.isGentle)

theorem settle_eq {result : Except FileError FileTree} {answer : Except FileError Unit}
    (h : m.settle result = (answer, m')) :
    (∃ t, answer = .ok () ∧ result = .ok t ∧ m' = { m with files := t }) ∨
      answer.isOk = false ∧ m' = m := by
  cases result with
  | error e =>
      obtain ⟨rfl, rfl⟩ := Prod.mk.inj h
      exact .inr ⟨rfl, rfl⟩
  | ok t =>
      obtain ⟨rfl, rfl⟩ := Prod.mk.inj h
      exact .inl ⟨t, rfl, rfl, rfl⟩

theorem remove_cases (m : Machine) (path : String) : (m.perform (.remove path)).2 = m ∨
    (m.perform (.remove path)).2 =
      { m with files := m.files.erase (place (m.absolute path)) } := by
  have hsettle : m.settle (m.accept path >>= m.files.remove) =
      ((m.perform (.remove path)).1, (m.perform (.remove path)).2) := rfl
  obtain ⟨t, -, hresult, hafter⟩ | ⟨-, hafter⟩ := settle_eq hsettle
  · obtain ⟨absolute, haccept, hremove⟩ := bind_eq_ok_iff.1 hresult
    obtain rfl := eq_of_accept haccept
    obtain ⟨-, rfl⟩ := eq_of_remove hremove
    exact .inr hafter
  · exact .inl hafter

/-! ## Requests for one of the two -/

section Admits

variable (hadmits : site.Admits stem)
include hadmits

/-- Neither of the two is touched where the other is asked for. -/
theorem not_visits_json (havoids : site.Avoids site.store.analysisDir) :
    ¬ Visits (site.absolute (site.store.pairOf stem).json) (site.fileAt (stem ++ "." ++ "hprof")) :=
  Site.not_visits_join havoids hadmits.entry_json.isName hadmits.entry_json.ne_up
    hadmits.hprof_ne_json.symm

theorem not_visits_hprof (havoids : site.Avoids site.store.analysisDir) :
    ¬ Visits (site.absolute (site.store.pairOf stem).hprof) (site.fileAt (stem ++ "." ++ "json")) :=
  Site.not_visits_join havoids hadmits.entry_hprof.isName hadmits.entry_hprof.ne_up
    hadmits.hprof_ne_json

variable (hm : m.IsAt site)
include hm

theorem IsAt.place_json : place (m.absolute (site.store.pairOf stem).json) =
    site.fileAt (stem ++ "." ++ "json") := by
  rw [hm.absolute, DumpStore.pairOf,
    site.place_absolute_join hadmits.entry_json.isName hadmits.entry_json.ne_up]

theorem IsAt.place_hprof : place (m.absolute (site.store.pairOf stem).hprof) =
    site.fileAt (stem ++ "." ++ "hprof") := by
  rw [hm.absolute, DumpStore.pairOf,
    site.place_absolute_join hadmits.entry_hprof.isName hadmits.entry_hprof.ne_up]

/-- A report that is written is there, if it can be written. -/
theorem IsAt.has_write {content : ByteArray} {answer : Except FileError Unit}
    (hw : m.perform (.write (site.store.pairOf stem).json content) = (answer, m')) :
    (answer = .ok () ∧ m'.Has site (stem ++ "." ++ "json")) ∨ answer.isOk = false ∧ m' = m := by
  obtain ⟨t, rfl, hresult, rfl⟩ | hfails := settle_eq hw
  · obtain ⟨path, haccept, hwrite⟩ := bind_eq_ok_iff.1 hresult
    obtain rfl := eq_of_accept haccept
    obtain ⟨-, rfl⟩ := eq_of_write hwrite
    refine .inl ⟨rfl, ?_⟩
    rw [Has, hm.place_json hadmits, node?_insert_self _ (site.fileAt_ne_root _)]
    rfl
  · exact .inr hfails

omit hadmits hm in
/-- A file that was removed is gone, if it could be removed. -/
theorem not_has_remove {answer : Except FileError Unit} {path : String}
    (hplace : place (m.absolute path) = site.fileAt name)
    (hw : m.perform (.remove path) = (answer, m')) : ¬ m'.Has site name ∨ m' = m := by
  have hafter : (m.perform (.remove path)).2 = m' := congrArg Prod.snd hw
  obtain hsame | herased := m.remove_cases path
  · exact .inr (hafter.symm.trans hsame)
  · refine .inl fun hthere ↦ ?_
    rw [Has, ← hafter, herased, hplace, node?_erase_self _ (site.fileAt_ne_root _)] at hthere
    cases hthere

theorem IsAt.not_has_remove_hprof {answer : Except FileError Unit}
    (hnode : m.files.node? (site.fileAt (stem ++ "." ++ "hprof")) ≠ some .dir)
    (hroom : m.Has site (stem ++ "." ++ "hprof") → m.files.HasDir site.dir)
    (hw : m.perform (.remove (site.store.pairOf stem).hprof) = (answer, m')) :
    ¬ m'.Has site (stem ++ "." ++ "hprof") := by
  intro hthere
  obtain hgone | rfl := not_has_remove (hm.place_hprof hadmits) hw
  · exact hgone hthere
  · have hgone := hm.node?_remove hadmits.entry_hprof hadmits.acceptable (hroom hthere) hnode
    have hsame := congrArg Prod.snd hw
    have hsame : (m'.perform (.remove (join site.store.analysisDir
      (stem ++ "." ++ "hprof")))).2 = m' := hsame
    rw [hsame] at hgone
    rw [Has, hgone] at hthere
    cases hthere

theorem IsAt.has_of_remove_json {answer : Except FileError Unit}
    (hw : m.perform (.remove (site.store.pairOf stem).json) = (answer, m'))
    (hthere : m'.Has site (stem ++ "." ++ "json")) : m.Has site (stem ++ "." ++ "json") := by
  obtain hgone | rfl := not_has_remove (hm.place_json hadmits) hw
  · exact absurd hthere hgone
  · exact hthere

/-- Whether there is a report shows in its size. -/
theorem IsAt.isOk_size_json (hroom : m.files.HasDir site.dir) {answer : Except FileError Nat}
    (hw : m.perform (.size (site.store.pairOf stem).json) = (answer, m')) :
    answer.isOk = true ↔ m.Has site (stem ++ "." ++ "json") := by
  have hsize := hm.isOk_size hadmits.entry_json hadmits.acceptable_json hroom
  have hanswer : (m.perform (.size (join site.store.analysisDir
    (stem ++ "." ++ "json")))).1 = answer := congrArg Prod.fst hw
  rw [← hanswer, hsize, Has]

end Admits

/-- Where the analysis directory was made, it is. -/
theorem IsAt.hasDir_makeDirs (hm : m.IsAt site) {answer : Except FileError Unit}
    (hw : m.perform (.makeDirs site.store.analysisDir) = (answer, m')) (hok : answer.isOk = true) :
    m'.files.HasDir site.dir := by
  rw [Machine.perform] at hw
  cases haccept : m.accept site.store.analysisDir with
  | error e =>
      rw [haccept] at hw
      obtain ⟨rfl, -⟩ := Prod.mk.inj hw
      cases hok
  | ok path =>
      obtain rfl := eq_of_accept haccept
      rw [haccept, hm.absolute, site.absolute_dir] at hw
      obtain ⟨rfl, rfl⟩ := Prod.mk.inj hw
      refine FileTree.hasDir_makeDirs ?_
      have hok : (m.files.makeDirs site.dir).1.isOk = true := hok
      cases hmade : (m.files.makeDirs site.dir).1 with
      | error e =>
          rw [hmade] at hok
          cases hok
      | ok u => rfl

end Machine

end HeapSentry
