import HeapSentry.Proofs.Storage.Listings
import Mathlib.Data.List.Nodup

/-!
# Names that go

What becomes of a file in a scan shows in the names that are listed: files of other versions go, and
so do the dumps that have a report, each with its report.  Among the names that stay there is none
that would go another time.
-/

namespace HeapSentry

open Storage Storage.FileTree Storage.Path

namespace Storage.DumpStore

variable {store : DumpStore} {m m' : Machine} {version name other file stem : String}
  {names : List String}

/-! ## Names that go -/

/-- Whether a file is of another version, by its name. -/
def isForeign (version name : String) : Bool := !name.startsWith (versionMark version)

/-- Whether a file is a dump of the version. -/
def isDump (version name : String) : Bool :=
  name.startsWith (versionMark version) && decide ((splitName name).2 = some "hprof")

/-- The name of the report of a dump. -/
def reportOf (name : String) : String := (splitName name).1 ++ "." ++ "json"

/-- Whether a scan removes a file, apart from the reports of dumps that it removes. -/
def goes (version : String) (names : List String) (name : String) : Bool :=
  isForeign version name || (isDump version name && decide (reportOf name ∈ names))

/-- What is removed with a file, the file itself included. -/
def company (version name : String) : List String :=
  if isForeign version name then [name] else [name, reportOf name]

/-- Whether a file is a dump that a scan takes up. -/
def awaits (version : String) (names : List String) (name : String) : Bool :=
  isDump version name && !decide (reportOf name ∈ names)

def departing (version : String) (names : List String) : List String :=
  (names.filter (goes version names)).flatMap (company version)

theorem isDump_iff (hname : IsName name) : isDump version name = true ↔
    ∃ stem, IsStem stem ∧ name = stem ++ "." ++ "hprof" ∧
      (stem ++ "." ++ "hprof").startsWith (versionMark version) = true := by
  rw [isDump, Bool.and_eq_true, decide_eq_true_iff]
  constructor
  · rintro ⟨hmark, hextension⟩
    obtain ⟨stem, hstem, rfl⟩ := exists_stem hname hmark hextension
    exact ⟨stem, hstem, rfl, hmark⟩
  · rintro ⟨stem, hstem, rfl, hmark⟩
    rw [splitName_append hstem.ne_empty "hprof" (by decide)]
    exact ⟨hmark, rfl⟩

theorem reportOf_append (hstem : IsStem stem) :
    reportOf (stem ++ "." ++ "hprof") = stem ++ "." ++ "json" := by
  rw [reportOf, splitName_append hstem.ne_empty "hprof" (by decide)]

theorem isForeign_of_isDump (h : isDump version name = true) : isForeign version name = false := by
  rw [isDump, Bool.and_eq_true] at h
  rw [isForeign, h.1]
  rfl

/-- The report of a dump is a file of its version, and no dump. -/
theorem reportOf_of_isDump (hname : IsName name) (h : isDump version name = true) :
    isForeign version (reportOf name) = false ∧ isDump version (reportOf name) = false ∧
      IsName (reportOf name) ∧ reportOf name ≠ ".." := by
  obtain ⟨stem, hstem, rfl, hmark⟩ := (isDump_iff hname).1 h
  rw [reportOf_append hstem]
  refine ⟨?_, ?_, hstem.isName "json" (by decide), hstem.ne_up "json"⟩
  · rw [isForeign, startsWith_mark_json hmark]
    rfl
  · rw [isDump, splitName_append hstem.ne_empty "json" (by decide), Bool.and_eq_false_iff]
    exact .inr (decide_eq_false fun hextension ↦ absurd (Option.some.inj hextension) (by decide))

theorem eq_of_reportOf_eq (hname : IsName name) (hother : IsName other)
    (h : isDump version name = true) (h' : isDump version other = true)
    (heq : reportOf name = reportOf other) : name = other := by
  obtain ⟨stem, hstem, rfl, -⟩ := (isDump_iff hname).1 h
  obtain ⟨stem', hstem', rfl, -⟩ := (isDump_iff hother).1 h'
  rw [reportOf_append hstem, reportOf_append hstem'] at heq
  rw [(Site.ending_inj (by decide) (by decide) hstem.ne_empty hstem'.ne_empty heq).1]

theorem mem_company_iff (hgoes : goes version names name = true) :
    file ∈ company version name ↔ file = name ∨
      (isDump version name = true ∧ reportOf name ∈ names ∧ file = reportOf name) := by
  rw [goes, Bool.or_eq_true, Bool.and_eq_true, decide_eq_true_iff] at hgoes
  rw [company]
  rcases hgoes with hforeign | ⟨hdump, hreport⟩
  · have hno : ¬ isDump version name = true := fun hdump ↦ by
      rw [isForeign_of_isDump hdump] at hforeign
      cases hforeign
    simp [hforeign, hno]
  · simp [isForeign_of_isDump hdump, hdump, hreport]

/-- Files do not go in the company of others that go, unless they are reports. -/
theorem disjoint_company (hname : IsName name) (hother : IsName other) (hne : name ≠ other)
    (hgoes : goes version names name = true) (hgoes' : goes version names other = true) :
    List.Disjoint (company version name) (company version other) := by
  -- The report of a dump is nothing that goes by itself.
  have hreport : ∀ {a b : String}, IsName a → isDump version a = true →
      goes version names b = true → reportOf a ≠ b := by
    rintro a b ha hdump hb rfl
    obtain ⟨hforeign, hnone, -⟩ := reportOf_of_isDump ha hdump
    rw [goes, hforeign, hnone] at hb
    cases hb
  intro file hfile hfile'
  rw [mem_company_iff hgoes] at hfile
  rw [mem_company_iff hgoes'] at hfile'
  rcases hfile with rfl | ⟨hdump, -, rfl⟩
  · rcases hfile' with rfl | ⟨hdump', -, rfl⟩
    · exact hne rfl
    · exact hreport hother hdump' hgoes rfl
  · rcases hfile' with heq | ⟨hdump', -, heq⟩
    · exact hreport hname hdump hgoes' heq
    · exact hne (eq_of_reportOf_eq hname hother hdump hdump' heq)

theorem nodup_departing (hnames : Machine.IsOrderly names) :
    (departing version names).Nodup := by
  have hgoing : ∀ name ∈ names.filter (goes version names),
      IsName name ∧ goes version names name = true := by
    intro name hname
    rw [List.mem_filter] at hname
    exact ⟨(hnames.2 name hname.1).1, hname.2⟩
  rw [departing, List.nodup_flatMap]
  constructor
  · intro name hname
    obtain ⟨hname, hgoes⟩ := hgoing name hname
    rw [company]
    split
    · exact List.nodup_singleton name
    next hforeign =>
      rw [goes, Bool.or_eq_true, Bool.and_eq_true] at hgoes
      have hdump := (hgoes.resolve_left hforeign).1
      have hne : name ≠ reportOf name := by
        intro heq
        have hnone := (reportOf_of_isDump hname hdump).2.1
        rw [← heq, hdump] at hnone
        cases hnone
      simpa using hne
  · refine (hnames.1.filter _).imp_of_mem ?_
    intro name other hname hother hne
    exact disjoint_company (hgoing name hname).1 (hgoing other hother).1 hne (hgoing name hname).2
      (hgoing other hother).2

/-- A file goes if it is of another version, or a dump with a report, or the report of a dump. -/
def Departs (version : String) (names : List String) (file : String) : Prop :=
  file ∈ names ∧ (isForeign version file = true ∨ ∃ dump ∈ names, isDump version dump = true ∧
    reportOf dump ∈ names ∧ (file = dump ∨ file = reportOf dump))

theorem mem_departing_iff : file ∈ departing version names ↔ Departs version names file := by
  rw [departing, List.mem_flatMap]
  constructor
  · rintro ⟨name, hname, hfile⟩
    obtain ⟨hlisted, hgoes⟩ := List.mem_filter.1 hname
    rcases (mem_company_iff hgoes).1 hfile with rfl | ⟨hdump, hreport, rfl⟩
    · rw [goes, Bool.or_eq_true, Bool.and_eq_true, decide_eq_true_iff] at hgoes
      refine ⟨hlisted, hgoes.imp_right ?_⟩
      rintro ⟨hdump, hreport⟩
      exact ⟨file, hlisted, hdump, hreport, .inl rfl⟩
    · exact ⟨hreport, .inr ⟨name, hlisted, hdump, hreport, .inr rfl⟩⟩
  · rintro ⟨hlisted, hforeign | ⟨dump, hlisted', hdump, hreport, hfile⟩⟩
    · have hgoes : goes version names file = true := by simp [goes, hforeign]
      exact ⟨file, List.mem_filter.2 ⟨hlisted, hgoes⟩, (mem_company_iff hgoes).2 (.inl rfl)⟩
    · have hgoes : goes version names dump = true := by simp [goes, hdump, hreport]
      refine ⟨dump, List.mem_filter.2 ⟨hlisted', hgoes⟩, (mem_company_iff hgoes).2 ?_⟩
      exact hfile.imp_right fun heq ↦ ⟨hdump, hreport, heq⟩

/-! ## A second time -/

/-- What stays listed. -/
def staying (version : String) (names : List String) : List String :=
  names.filter fun name ↦ decide (name ∉ departing version names)

theorem goes_staying (hname : name ∈ staying version names) :
    goes version (staying version names) name = false := by
  obtain ⟨hlisted, hstays⟩ := List.mem_filter.1 hname
  rw [decide_eq_true_iff, mem_departing_iff] at hstays
  by_contra hgoes
  rw [Bool.not_eq_false, goes, Bool.or_eq_true, Bool.and_eq_true, decide_eq_true_iff] at hgoes
  rcases hgoes with hforeign | ⟨hdump, hreport⟩
  · exact hstays ⟨hlisted, .inl hforeign⟩
  · have hreport := (List.mem_filter.1 hreport).1
    exact hstays ⟨hlisted, .inr ⟨name, hlisted, hdump, hreport, .inl rfl⟩⟩

theorem departing_staying : departing version (staying version names) = [] := by
  have hnone : (staying version names).filter (goes version (staying version names)) = [] := by
    rw [List.filter_eq_nil_iff]
    intro name hname
    rw [goes_staying hname]
    exact Bool.false_ne_true
  rw [departing, hnone]
  rfl

/-- Dumps without a report stay, and nothing takes on the part of their report. -/
theorem filter_awaits_staying (hnames : ∀ name ∈ names, IsName name) :
    (staying version names).filter (awaits version (staying version names)) =
      names.filter (awaits version names) := by
  rw [staying, List.filter_filter]
  refine List.filter_congr fun name hname ↦ ?_
  rw [Bool.eq_iff_iff, Bool.and_eq_true, decide_eq_true_iff, mem_departing_iff]
  simp only [awaits, Bool.and_eq_true, Bool.not_eq_true', decide_eq_false_iff_not]
  constructor
  · rintro ⟨⟨hdump, hreport⟩, hstays⟩
    exact ⟨hdump, fun hlisted ↦ hstays ⟨hname, .inr ⟨name, hname, hdump, hlisted, .inl rfl⟩⟩⟩
  · rintro ⟨hdump, hreport⟩
    refine ⟨⟨hdump, fun hlisted ↦ hreport (List.mem_filter.1 hlisted).1⟩, ?_⟩
    rintro ⟨-, hforeign | ⟨dump, hlisted, hdump', hreport', rfl | rfl⟩⟩
    · rw [isForeign_of_isDump hdump] at hforeign
      cases hforeign
    · exact hreport hreport'
    · rw [(reportOf_of_isDump (hnames dump hlisted) hdump').2.1] at hdump
      cases hdump

end Storage.DumpStore

end HeapSentry
