import HeapSentry.Storage.DumpStore

/-!
# Paths

What the operations on paths do to names.
-/

namespace HeapSentry.Storage

namespace Path

/-! ## Names -/

/-- Whether a text can stand between slashes and counts. -/
structure IsName (name : String) : Prop where
  noSlash : '/' ∉ name.toList
  ne_empty : name ≠ ""
  ne_dot : name ≠ "."

instance (name : String) : Decidable (IsName name) :=
  decidable_of_iff ('/' ∉ name.toList ∧ name ≠ "" ∧ name ≠ ".")
    ⟨fun ⟨noSlash, ne_empty, ne_dot⟩ ↦ ⟨noSlash, ne_empty, ne_dot⟩,
      fun h ↦ ⟨h.noSlash, h.ne_empty, h.ne_dot⟩⟩

theorem not_mem_of_mem_splitOn {c : Char} {cs piece : List Char} (h : piece ∈ cs.splitOn c) :
    c ∉ piece := by
  induction cs generalizing piece with
  | nil =>
      rw [List.splitOn_nil] at h
      obtain rfl := List.mem_singleton.1 h
      exact List.not_mem_nil
  | cons d cs ih =>
      rw [List.splitOn_cons_eq_if_modifyHead] at h
      split at h
      · obtain rfl | hrest := List.mem_cons.1 h
        · exact List.not_mem_nil
        · exact ih hrest
      next hne =>
        obtain ⟨first, rest, hsplit⟩ := List.exists_cons_of_ne_nil (List.splitOn_ne_nil c cs)
        rw [hsplit, List.modifyHead_cons] at h
        obtain rfl | hrest := List.mem_cons.1 h
        · have hfirst : c ∉ first := ih (by rw [hsplit]; exact List.mem_cons_self)
          have hcd : c ≠ d := fun heq ↦ hne (by rw [heq]; exact beq_self_eq_true d)
          exact fun hmem ↦ (List.mem_cons.1 hmem).elim hcd hfirst
        · exact ih (by rw [hsplit]; exact List.mem_cons_of_mem _ hrest)

theorem isName_of_mem_names {path name : String} (h : name ∈ names path) : IsName name := by
  obtain ⟨hpiece, hcounts⟩ := List.mem_filter.1 h
  obtain ⟨piece, hsplit, rfl⟩ := List.mem_map.1 hpiece
  have hcounts : String.ofList piece ≠ "" ∧ String.ofList piece ≠ "." := by simpa using hcounts
  refine ⟨?_, hcounts.1, hcounts.2⟩
  rw [String.toList_ofList]
  exact not_mem_of_mem_splitOn hsplit

theorem names_of_isName {name : String} (h : IsName name) : names name = [name] := by
  have hpiece : name.toList.splitOn '/' = [name.toList] := List.splitOn_eq_singleton h.noSlash
  rw [names, hpiece]
  simp [h.ne_empty, h.ne_dot]

@[simp] theorem names_empty : names "" = [] := by decide +kernel

/-- The names of a path go on after a slash. -/
theorem names_append (base path : String) :
    names (base ++ "/" ++ path) = names base ++ names path := by
  have htext : (base ++ "/" ++ path).toList = base.toList ++ '/' :: path.toList := by simp
  rw [names, htext, List.splitOn_append_cons_self, List.map_append, List.filter_append]
  rfl

/-! ## Joining -/

/-- What a relative path is appended to. -/
def stem (base : String) : String :=
  if base = "" then "" else if base.endsWith '/' then base else base ++ "/"

theorem join_of_relative {path : String} (h : isAbsolute path = false) (base : String) :
    join base path = stem base ++ path := by
  rw [join, stem, h]
  by_cases hempty : base = ""
  · simp [hempty]
  · by_cases hslash : base.endsWith '/' = true
    · simp [hempty, hslash]
    · simp [hempty, hslash]

theorem join_inj {base p q : String} (hp : isAbsolute p = false) (hq : isAbsolute q = false) :
    join base p = join base q ↔ p = q := by
  rw [join_of_relative hp, join_of_relative hq]
  exact String.append_right_inj _

/-- What is appended to starts a new name. -/
theorem stem_cases (base : String) :
    (base = "" ∧ stem base = "") ∨
      ∃ start, stem base = start ++ "/" ∧ names start = names base := by
  rw [stem]
  by_cases hempty : base = ""
  · exact .inl ⟨hempty, if_pos hempty⟩
  · rw [if_neg hempty]
    by_cases hslash : base.endsWith '/' = true
    · obtain ⟨start, hstart⟩ := String.endsWith_char_iff_exists_append.1 hslash
      have hbase : base = start ++ "/" := hstart
      refine .inr ⟨start, by rw [if_pos hslash, hbase], ?_⟩
      have hnames := names_append start ""
      rw [names_empty, List.append_nil, String.append_empty] at hnames
      rw [hbase, hnames]
    · exact .inr ⟨base, if_neg hslash, rfl⟩

theorem names_join {path : String} (h : isAbsolute path = false) (base : String) :
    names (join base path) = names base ++ names path := by
  rw [join_of_relative h]
  obtain ⟨hbase, hstem⟩ | ⟨start, hstem, hnames⟩ := stem_cases base
  · rw [hstem, hbase, names_empty, String.empty_append, List.nil_append]
  · rw [hstem, names_append, hnames]

theorem IsName.relative {name : String} (h : IsName name) : isAbsolute name = false := by
  rw [isAbsolute, String.startsWith_string_eq_false_iff]
  intro hstart
  exact h.noSlash (hstart.subset List.mem_cons_self)

theorem names_join_name {name : String} (h : IsName name) (base : String) :
    names (join base name) = names base ++ [name] := by
  rw [names_join h.relative, names_of_isName h]

theorem fileName?_join {name : String} (h : IsName name) (hup : name ≠ "..") (base : String) :
    fileName? (join base name) = some name := by
  rw [fileName?, names_join_name h, List.getLast?_concat]
  split
  next heq => exact absurd (Option.some.inj heq) hup
  next heq => cases heq
  next heq => exact heq.symm

theorem isAbsolute_append {base : String} (h : base ≠ "") (rest : String) :
    isAbsolute (base ++ rest) = isAbsolute base := by
  have hne : base.toList ≠ [] := by simpa using h
  obtain ⟨c, cs, hbase⟩ := List.exists_cons_of_ne_nil hne
  have hiff : isAbsolute (base ++ rest) = true ↔ isAbsolute base = true := by
    rw [isAbsolute, isAbsolute, String.startsWith_string_iff, String.startsWith_string_iff,
      String.toList_append, hbase]
    simp
  exact Bool.eq_iff_iff.2 hiff

/-- Seeing a path from somewhere else does not change how it ends. -/
theorem join_join {base path : String} (hbase : base ≠ "") (hpath : isAbsolute path = false)
    (dir : String) : join dir (join base path) = join (join dir base) path := by
  have hstem : stem base ≠ "" := by
    obtain ⟨hempty, -⟩ | ⟨start, hstart, -⟩ := stem_cases base
    · exact absurd hempty hbase
    · rw [hstart]
      simp
  have habsolute : isAbsolute (stem base) = isAbsolute base := by
    rw [stem, if_neg hbase]
    split
    · rfl
    · exact isAbsolute_append hbase "/"
  cases hkind : isAbsolute base with
  | true =>
      have hself : join dir base = base := by rw [join, hkind, Bool.true_or, if_pos rfl]
      rw [hself, join_of_relative hpath, join, isAbsolute_append hstem, habsolute, hkind,
        Bool.true_or, if_pos rfl]
  | false =>
      have hends : (stem dir ++ base).endsWith '/' = base.endsWith '/' := by
        have hne : base.toList ≠ [] := by simpa using hbase
        rw [String.endsWith_char_eq_getLast?, String.endsWith_char_eq_getLast?,
          String.toList_append, List.getLast?_append, List.getLast?_eq_some_getLast hne,
          Option.some_or]
      have happend : stem (stem dir ++ base) = stem dir ++ stem base := by
        rw [stem, stem.eq_def base, hends, if_neg hbase, if_neg (by simp [hbase])]
        split
        · rfl
        · exact String.append_assoc ..
      have hrelative : isAbsolute (stem base ++ path) = false := by
        rw [isAbsolute_append hstem, habsolute, hkind]
      rw [join_of_relative hpath, join_of_relative hrelative, join_of_relative hkind,
        join_of_relative hpath, happend, String.append_assoc]

/-! ## Extensions -/

theorem splitName_append {stem : String} (hstem : stem ≠ "") (ending : String)
    (h : '.' ∉ ending.toList) : splitName (stem ++ "." ++ ending) = (stem, some ending) := by
  have hreverse : (stem ++ "." ++ ending).toList.reverse =
      ending.toList.reverse ++ '.' :: stem.toList.reverse := by simp
  have hkeeps : ∀ c ∈ ending.toList.reverse, decide (c ≠ '.') = true := by
    intro c hc
    exact decide_eq_true fun heq ↦ h (heq ▸ List.mem_reverse.1 hc)
  have hne : stem.toList.reverse ≠ [] := by simpa using hstem
  obtain ⟨c, cs, hcs⟩ := List.exists_cons_of_ne_nil hne
  have hback : String.ofList (c :: cs).reverse = stem := by
    rw [← hcs, List.reverse_reverse, String.ofList_toList]
  rw [splitName, hreverse, List.takeWhile_append_of_pos hkeeps, List.dropWhile_append_of_pos hkeeps]
  simp [← hback]

/-- A name with an extension is a stem, a dot and the extension. -/
theorem eq_of_splitName {name stem ending : String} (h : splitName name = (stem, some ending)) :
    name = stem ++ "." ++ ending ∧ stem ≠ "" := by
  have hparts : name.toList.reverse.takeWhile (fun c ↦ decide (c ≠ '.')) ++
      name.toList.reverse.dropWhile (fun c ↦ decide (c ≠ '.')) = name.toList.reverse :=
    List.takeWhile_append_dropWhile
  rw [splitName] at h
  generalize name.toList.reverse.takeWhile (fun c ↦ decide (c ≠ '.')) = after at h hparts
  split at h
  next => cases h
  next => cases h
  next dot before hne hdrop =>
    obtain ⟨rfl, hending⟩ := Prod.mk.inj h
    obtain rfl := Option.some.inj hending
    have hdot : dot = '.' := by
      have hhead := List.head?_dropWhile_not (fun c ↦ decide (c ≠ '.')) name.toList.reverse
      rw [hdrop] at hhead
      simpa using hhead
    rw [hdrop, hdot] at hparts
    have hback : name.toList = before.reverse ++ '.' :: after.reverse := by
      rw [← List.reverse_reverse name.toList, ← hparts]
      simp
    constructor
    · rw [← String.toList_inj, hback]
      simp
    · intro hempty
      exact hne (by simpa using hempty)

theorem extension?_join {name : String} (h : IsName name) (hup : name ≠ "..") (base : String) :
    extension? (join base name) = (splitName name).2 := by
  rw [extension?, fileName?_join h hup, Option.bind_some]

/-- What stands before the extension of a name that is kept by other extensions, too. -/
structure IsStem (stem : String) : Prop where
  noSlash : '/' ∉ stem.toList
  ne_empty : stem ≠ ""
  ne_dot : stem ≠ "."

theorem IsStem.isName {stem : String} (h : IsStem stem) (ending : String)
    (hending : '/' ∉ ending.toList) : IsName (stem ++ "." ++ ending) := by
  have hlength : 0 < stem.length := Nat.pos_of_ne_zero fun hzero ↦
    h.ne_empty (by simpa using hzero)
  refine ⟨by simp [h.noSlash, hending], by simp, fun hdot ↦ ?_⟩
  have hone := congrArg String.length hdot
  rw [String.length_append, String.length_append] at hone
  have : (".".length) = 1 := by decide
  omega

theorem IsStem.ne_up {stem : String} (h : IsStem stem) (ending : String) :
    stem ++ "." ++ ending ≠ ".." := by
  intro hup
  have htext : stem.toList ++ '.' :: ending.toList = ['.', '.'] := by
    have hlist := congrArg String.toList hup
    simpa using hlist
  match hstem : stem.toList with
  | [] => exact h.ne_empty (by simpa using hstem)
  | [c] =>
      rw [hstem] at htext
      obtain rfl : c = '.' := (List.cons.inj htext).1
      exact h.ne_dot (String.toList_inj.1 hstem)
  | c :: d :: cs =>
      rw [hstem] at htext
      have hlength := congrArg List.length htext
      simp at hlength

theorem trimEnd_eq {cs : List Char} {c : Char} (h : c ≠ '/') :
    trimEnd (cs ++ [c, '.']) = cs ++ [c, '.'] := by
  have hreverse : (cs ++ [c, '.']).reverse = '.' :: c :: cs.reverse := by simp
  have hdrop : trimEnd.drop ('.' :: c :: cs.reverse) = '.' :: c :: cs.reverse := by
    rw [trimEnd.drop]
    · simp
    · intro rest heq
      exact h (List.cons.inj (List.cons.inj heq).2).1
  rw [trimEnd, hreverse, hdrop, ← hreverse, List.reverse_reverse]

theorem IsStem.relative {stem : String} (h : IsStem stem) (rest : String) :
    isAbsolute (stem ++ "." ++ rest) = false := by
  have hstem : isAbsolute stem = false := by
    rw [isAbsolute, String.startsWith_string_eq_false_iff]
    exact fun hstart ↦ h.noSlash (hstart.subset List.mem_cons_self)
  rw [String.append_assoc, isAbsolute_append h.ne_empty, hstem]

/-- What is cut off the end of a text. -/
theorem ofList_take_append (text ending : String) :
    String.ofList ((text ++ ending).toList.take ((text ++ ending).length - ending.length)) =
      text := by
  have hlength : (text ++ ending).length - ending.length = text.toList.length := by
    rw [String.length_append, String.length_toList, Nat.add_sub_cancel]
  rw [hlength, String.toList_append, List.take_left, String.ofList_toList]

theorem setExtension_join {stem : String} (h : IsStem stem) (base extension : String) :
    setExtension (join base (stem ++ ".")) extension = join base (stem ++ "." ++ extension) := by
  have hname : fileName? (join base (stem ++ ".")) = some (stem ++ ".") := by
    have hjoin := fileName?_join (h.isName "" (by decide)) (h.ne_up "") base
    rwa [String.append_empty] at hjoin
  have hsplit : splitName (stem ++ ".") = (stem, some "") := by
    have happend := splitName_append h.ne_empty "" (by decide)
    rwa [String.append_empty] at happend
  have hpath : join base (stem ++ ".") = Path.stem base ++ stem ++ "." := by
    have hrelative := h.relative ""
    rw [String.append_empty] at hrelative
    rw [join_of_relative hrelative, String.append_assoc]
  have htrim : trimEnd (Path.stem base ++ stem ++ ".").toList =
      (Path.stem base ++ stem ++ ".").toList := by
    obtain ⟨cs, c, hstem⟩ : ∃ cs c, stem.toList = cs ++ [c] := by
      have hne : stem.toList ≠ [] := by simpa using h.ne_empty
      exact ⟨_, _, (List.dropLast_concat_getLast hne).symm⟩
    have hc : c ≠ '/' := fun heq ↦ h.noSlash (by rw [hstem, heq]; simp)
    have htext : (Path.stem base ++ stem ++ ".").toList =
        ((Path.stem base).toList ++ cs) ++ [c, '.'] := by simp [hstem]
    rw [htext, trimEnd_eq hc]
  have hcut : (stem ++ ".").length - stem.length = ".".length := by
    rw [String.length_append, Nat.add_sub_cancel_left]
  rw [setExtension, hname]
  simp only [hsplit, hpath, htrim, hcut, String.length_toList]
  rw [ofList_take_append, join_of_relative (h.relative extension), ← String.append_assoc,
    ← String.append_assoc]

theorem withExtension_join {stem : String} (h : IsStem stem) (base ending extension : String)
    (hending : '/' ∉ ending.toList) (hdot : '.' ∉ ending.toList) :
    withExtension (join base (stem ++ "." ++ ending)) extension =
      join base (stem ++ "." ++ extension) := by
  have hold : extension? (join base (stem ++ "." ++ ending)) = some ending := by
    rw [extension?_join (h.isName ending hending) (h.ne_up ending),
      splitName_append h.ne_empty ending hdot]
  have hpath : join base (stem ++ "." ++ ending) = join base (stem ++ ".") ++ ending := by
    have hrelative := h.relative ""
    rw [String.append_empty] at hrelative
    rw [join_of_relative (h.relative ending), join_of_relative hrelative]
    exact (String.append_assoc ..).symm
  rw [withExtension, hold]
  simp only [hpath]
  rw [ofList_take_append, setExtension_join h]

end Path

/-! ## Names of dumps -/

namespace DumpStore

open HeapSentry.Storage.Path

variable {version name stem : String}

theorem analysisDir_ne_manualDir (s : DumpStore) : s.analysisDir ≠ s.manualDir := by
  intro h
  have hnames := (join_inj (by decide +kernel) (by decide +kernel)).1 h
  exact absurd hnames (by decide)

theorem analysisDir_ne_empty (s : DumpStore) : s.analysisDir ≠ "" := by
  have hrelative : isAbsolute "analysis" = false := by decide +kernel
  rw [analysisDir, join_of_relative hrelative]
  simp

/-- The dump with some name and the report next to it. -/
def pairOf (s : DumpStore) (stem : String) : DumpPair :=
  ⟨join s.analysisDir (stem ++ "." ++ "hprof"), join s.analysisDir (stem ++ "." ++ "json")⟩

theorem ofHprof_join (s : DumpStore) (h : IsStem stem) :
    DumpPair.ofHprof (join s.analysisDir (stem ++ "." ++ "hprof")) = s.pairOf stem := by
  rw [DumpPair.ofHprof, withExtension_join h _ _ _ (by decide) (by decide)]
  rfl

/-- The name of a dump without its extension. -/
def dumpStem (version : String) (nowMs : Int) : String :=
  versionMark version ++ toString nowMs.toNat

theorem dumpName_eq (version : String) (nowMs : Int) :
    dumpName version nowMs = dumpStem version nowMs ++ "." ++ "hprof" := by
  have hjoin : ".hprof" = "." ++ "hprof" := by decide
  change dumpStem version nowMs ++ ".hprof" = dumpStem version nowMs ++ "." ++ "hprof"
  rw [hjoin, ← String.append_assoc]

theorem isStem_dumpStem (h : '/' ∉ version.toList) (nowMs : Int) :
    IsStem (dumpStem version nowMs) := by
  have hdigits : '/' ∉ Nat.toDigits 10 nowMs.toNat := by
    intro hslash
    have hdigit : ('/').isDigit = true :=
      Nat.isDigit_of_mem_toDigits (by decide : 0 < 10) (Nat.le_refl 10) hslash
    exact absurd hdigit (by decide)
  have hmark : '_' ∈ (dumpStem version nowMs).toList := by simp [dumpStem, versionMark]
  refine ⟨by simp [dumpStem, versionMark, h, hdigits], fun hempty ↦ ?_, fun hdot ↦ ?_⟩
  · rw [hempty] at hmark
    exact absurd hmark (by decide)
  · rw [hdot] at hmark
    exact absurd hmark (by decide)

theorem startsWith_dumpStem (version : String) (nowMs : Int) (ending : String) :
    (dumpStem version nowMs ++ ending).startsWith (versionMark version) = true := by
  rw [String.startsWith_string_iff, dumpStem, String.toList_append, String.toList_append,
    List.append_assoc]
  exact List.prefix_append _ _

/-- What the name of a dump of some version is made of. -/
theorem exists_stem (h : IsName name) (hmark : name.startsWith (versionMark version) = true)
    (hextension : (splitName name).2 = some "hprof") :
    ∃ stem, IsStem stem ∧ name = stem ++ "." ++ "hprof" := by
  generalize hsplit : splitName name = parts at hextension
  obtain ⟨stem, ending⟩ := parts
  obtain rfl : ending = some "hprof" := hextension
  obtain ⟨rfl, hne⟩ := eq_of_splitName hsplit
  refine ⟨stem, ⟨fun hslash ↦ h.noSlash (by simp [hslash]), hne, fun hdot ↦ ?_⟩, rfl⟩
  have hunderscore : '_' ∈ (stem ++ "." ++ "hprof").toList := by
    refine (String.startsWith_string_iff.1 hmark).subset ?_
    simp [versionMark]
  rw [hdot] at hunderscore
  exact absurd hunderscore (by decide)

end DumpStore

end HeapSentry.Storage
