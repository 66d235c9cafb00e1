import HeapSentry.Settings.Basic
import HeapSentry.Toml.Reader

/-!
# Reading settings

Settings stand in a TOML document of sections.  What is left out has its default and what is
unknown is skipped, but a single value of the wrong kind or size spoils the whole document.
-/

namespace HeapSentry.Settings

open Toml (Value)

/-- The member of a section.  A section may be written as the list of its members in order, and a
date is a section of unknown members. -/
def member? (v : Value) (position : Nat) (name : String) : Option (Option Value) :=
  match v with
  | .table entries => some (entries.lookup name)
  | .array items => some items[position]?
  | .datetime => some none
  | _ => none

/-- A member with its default. -/
def member {α : Type} (v : Value) (position : Nat) (name : String) (read : Value → Option α)
    (default : α) : Option α :=
  match member? v position name with
  | none => none
  | some none => some default
  | some (some v) => read v

/-! ## Kinds of members -/

def string? : Value → Option String
  | .string s => some s
  | _ => none

def boolean? : Value → Option Bool
  | .boolean b => some b
  | _ => none

/-- A natural of some number of bits. -/
def natural? (bits : Nat) : Value → Option Nat
  | .integer i => if 0 ≤ i ∧ i < Nat.pow 2 bits then some i.toNat else none
  | _ => none

/-- A 32-bit float; an integer is rounded to the nearest. -/
def float32? : Value → Option Float32
  | .float x => some x.toFloat32
  | .integer i =>
    if 0 ≤ i ∧ i ≤ 0xffffffffffffffff then some (UInt64.ofNat i.toNat).toFloat32
    else if -0x8000000000000000 ≤ i ∧ i < 0 then some (Int64.ofInt i).toFloat32
    else none
  | _ => none

def strings? : Value → Option (List String)
  | .array items => items.mapM string?
  | _ => none

/-- A member without a default. -/
def optional {α : Type} (read : Value → Option α) (v : Value) : Option (Option α) :=
  (read v).map some

/-! ## Sections -/

def General.ofToml (v : Value) : Option General := do
  let d : General := {}
  let appVersion ← member v 0 "app_version" string? d.appVersion
  let debug ← member v 1 "debug" boolean? d.debug
  some { appVersion, debug }

def Monitor.ofToml (v : Value) : Option Monitor := do
  let d : Monitor := {}
  let loopIntervalMs ← member v 0 "loop_interval_ms" (natural? 64) d.loopIntervalMs
  let initialDelayMs ← member v 1 "initial_delay_ms" (natural? 64) d.initialDelayMs
  let heapThreshold ← member v 2 "heap_threshold" (optional float32?) d.heapThreshold
  let fdThreshold ← member v 3 "fd_threshold" (natural? 32) d.fdThreshold
  let threadThreshold ← member v 4 "thread_threshold" (natural? 32) d.threadThreshold
  let deviceMemoryThreshold ←
    member v 5 "device_memory_threshold" float32? d.deviceMemoryThreshold
  let maxOverThresholdCount ←
    member v 6 "max_over_threshold_count" (natural? 32) d.maxOverThresholdCount
  let forceDumpHeapMaxThreshold ←
    member v 7 "force_dump_java_heap_max_threshold" float32? d.forceDumpHeapMaxThreshold
  let forceDumpHeapDeltaThresholdKb ←
    member v 8 "force_dump_java_heap_delta_threshold_kb" (natural? 64)
      d.forceDumpHeapDeltaThresholdKb
  let heapGrowthRateThresholdKbPerSec ←
    member v 9 "heap_growth_rate_threshold_kb_per_sec" (natural? 64)
      d.heapGrowthRateThresholdKbPerSec
  let enableDumpAnalysis ←
    member v 10 "enable_hprof_dump_analysis" boolean? d.enableDumpAnalysis
  some {
    loopIntervalMs, initialDelayMs, heapThreshold, fdThreshold, threadThreshold,
    deviceMemoryThreshold, maxOverThresholdCount, forceDumpHeapMaxThreshold,
    forceDumpHeapDeltaThresholdKb, heapGrowthRateThresholdKbPerSec, enableDumpAnalysis }

def Limits.ofToml (v : Value) : Option Limits := do
  let d : Limits := {}
  let analysisMaxTimesPerVersion ←
    member v 0 "analysis_max_times_per_version" (natural? 32) d.analysisMaxTimesPerVersion
  let analysisPeriodDays ← member v 1 "analysis_period_days" (natural? 64) d.analysisPeriodDays
  some { analysisMaxTimesPerVersion, analysisPeriodDays }

def Analysis.ofToml (v : Value) : Option Analysis := do
  let d : Analysis := {}
  let bigBitmapPixels ← member v 0 "big_bitmap_pixels" (natural? 64) d.bigBitmapPixels
  let bigPrimitiveArrayBytes ←
    member v 1 "big_primitive_array_bytes" (natural? 64) d.bigPrimitiveArrayBytes
  let bigObjectArrayBytes ←
    member v 2 "big_object_array_bytes" (natural? 64) d.bigObjectArrayBytes
  some { bigBitmapPixels, bigPrimitiveArrayBytes, bigObjectArrayBytes }

def Storage.ofToml (v : Value) : Option Storage := do
  let d : Storage := {}
  let rootDir ← member v 0 "root_dir" (optional string?) d.rootDir
  let minFreeBytes ← member v 1 "min_free_bytes" (natural? 64) d.minFreeBytes
  some { rootDir, minFreeBytes }

def Dump.ofToml (v : Value) : Option Dump := do
  let d : Dump := {}
  let command ← member v 0 "command" strings? d.command
  let heapLimitBytes ← member v 1 "heap_limit_bytes" (optional (natural? 64)) d.heapLimitBytes
  some { command, heapLimitBytes }

def ofToml (v : Value) : Option Settings := do
  let general ← member v 0 "general" General.ofToml {}
  let monitor ← member v 1 "monitor" Monitor.ofToml {}
  let limits ← member v 2 "limits" Limits.ofToml {}
  let analysis ← member v 3 "analysis" Analysis.ofToml {}
  let storage ← member v 4 "storage" Storage.ofToml {}
  let dump ← member v 5 "dump" Dump.ofToml {}
  some { general, monitor, limits, analysis, storage, dump }

/-- The settings of a text, or the defaults where the text is no document of settings. -/
def ofText? (text : String) : Option Settings := Toml.parse? text >>= ofToml

/-- The settings of a file; a file that is missing, not text or not valid gives the defaults. -/
def ofFile (contents : Option ByteArray) : Settings :=
  (contents >>= fun bytes ↦ String.fromUTF8? bytes >>= ofText?).getD {}

end HeapSentry.Settings
