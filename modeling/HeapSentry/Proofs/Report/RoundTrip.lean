import HeapSentry.Proofs.Json.Decoding
import HeapSentry.Report.Format

/-!
# Reading back reports

The text of a report is read as that report, whatever its strings and numbers are and whatever it
leaves out.  Times are floats and must be unset.
-/

namespace HeapSentry.Report

open Json Decode

/-! ## Records of a report -/

theorem reads_strings (xs : List String) : Reads (list string) (.list .str xs) xs :=
  reads_list fun s _ ↦ reads_string s

theorem reads_text (s : String) : Reads string (.str s) s ∧ (Value.str s).reading ≠ .null :=
  ⟨reads_string s, nofun⟩

theorem reads_pathItem (p : PathItem) : Reads PathItem.decoder p.toJson p :=
  reads_record
    (.required (reads_string _) <| .required (reads_string _) <| .omissible _ reads_text .nil)
    (by decide) rfl

theorem reads_gcPath (p : GcPath) : Reads GcPath.decoder p.toJson p := by
  have hpath : Reads (list PathItem.decoder) (.list PathItem.toJson p.path) p.path :=
    reads_list fun item _ ↦ reads_pathItem item
  exact reads_record
    (.required (reads_count _) <| .required (reads_string _) <| .required (reads_string _) <|
      .required (reads_string _) <| .required hpath .nil)
    (by decide) rfl

theorem reads_classInfo (c : ClassInfo) : Reads ClassInfo.decoder c.toJson c :=
  reads_record
    (.required (reads_string _) <| .required (reads_uint64 _) <| .required (reads_uint64 _) .nil)
    (by decide) rfl

theorem reads_leakObject (o : LeakObject) : Reads LeakObject.decoder o.toJson o :=
  reads_record
    (.required (reads_string _) <| .required (reads_uint64 _) <| .required (reads_uint64 _) <|
      .omissible _ reads_text .nil)
    (by decide) rfl

theorem reads_runningInfo {i : RunningInfo} (hfilter : i.filterInstanceTime = none)
    (hfind : i.findGcPathTime = none) : Reads RunningInfo.decoder i.toJson i :=
  reads_record
    (.required (reads_uint64 _) <| .required (reads_uint64 _) <| .required (reads_uint64 _) <|
      .required (reads_uint64 _) <| .required (reads_uint32 _) <| .required (reads_uint32 _) <|
      .required (reads_strings _) <| .required (reads_strings _) <| .required (reads_string _) <|
      .required (reads_string _) <| .required (reads_string _) <| .required (reads_string _) <|
      .required (reads_string _) <| .required (reads_uint64 _) <| .required (reads_uint64 _) <|
      .required (reads_uint64 _) <| .required (reads_uint64 _) <| .required (reads_string _) <|
      .required (reads_string _) <| .unset hfilter <| .unset hfind .nil)
    (by decide) rfl

/-! ## Reports -/

theorem reads_report {r : Report} (hfilter : r.runningInfo.filterInstanceTime = none)
    (hfind : r.runningInfo.findGcPathTime = none) : Reads decoder r.toJson r := by
  have hpaths : Reads (list GcPath.decoder) (.list GcPath.toJson r.gcPaths) r.gcPaths :=
    reads_list fun p _ ↦ reads_gcPath p
  have hclasses : Reads (list ClassInfo.decoder) (.list ClassInfo.toJson r.classInfos)
      r.classInfos := reads_list fun c _ ↦ reads_classInfo c
  have hobjects : Reads (list LeakObject.decoder) (.list LeakObject.toJson r.leakObjects)
      r.leakObjects := reads_list fun o _ ↦ reads_leakObject o
  exact reads_record
    (.required (reads_runningInfo hfilter hfind) <| .required hpaths <| .required hclasses <|
      .required hobjects <| .required (reads_boolean _) <| .required (reads_uint32 _) .nil)
    (by decide) rfl

/-- The text of a report without times is read as that report. -/
theorem ofText_text (r : Report) (hfilter : r.runningInfo.filterInstanceTime = none)
    (hfind : r.runningInfo.findGcPathTime = none) : ofText r.text = .ok r :=
  decode_pretty (reads_report hfilter hfind)

/-- Strings that need escapes, or look like them, and the greatest numbers. -/
def unwieldy : Report where
  runningInfo := { jvmMaxMb := 0xffffffffffffffff, threadCount := 0xffffffff,
                   threadList := ["", "\"quoted\"", "\\u0041"], os := "\x00\n\t\x1f\x7f" }
  gcPaths := [⟨0xffffffffffffffff, "𝄞", "], ", ",", [⟨"a\\", "/", none⟩, ⟨"", "", some "null"⟩]⟩]
  leakObjects := [⟨"ß", 0, 10, none⟩, ⟨"", 9, 0xffffffffffffffff, some "\r\n"⟩]
  reAnalysisTimes := 0xffffffff

theorem ofText_text_unwieldy : unwieldy.runningInfo.filterInstanceTime = none ∧
    unwieldy.runningInfo.findGcPathTime = none ∧ ofText unwieldy.text = .ok unwieldy :=
  ⟨rfl, rfl, ofText_text unwieldy rfl rfl⟩

end HeapSentry.Report
