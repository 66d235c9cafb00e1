import HeapSentry.Json.Decode
import HeapSentry.Json.Printer
import HeapSentry.Report.Basic

/-!
# The JSON form of reports

Members stand in the order of the fields, and absent ones are left out.
-/

namespace HeapSentry.Report

open Json

/-! ## Writing -/

private def strings (xs : List String) : Value := .list .str xs

def RunningInfo.toJson (i : RunningInfo) : Value :=
  .record [
    ("jvmMaxMb", some (.nat i.jvmMaxMb.toNat)),
    ("jvmUsedMb", some (.nat i.jvmUsedMb.toNat)),
    ("vssMb", some (.nat i.vssMb.toNat)),
    ("rssMb", some (.nat i.rssMb.toNat)),
    ("threadCount", some (.nat i.threadCount.toNat)),
    ("fdCount", some (.nat i.fdCount.toNat)),
    ("threadList", some (strings i.threadList)),
    ("fdList", some (strings i.fdList)),
    ("os", some (.str i.os)),
    ("osVersion", some (.str i.osVersion)),
    ("arch", some (.str i.arch)),
    ("appVersion", some (.str i.appVersion)),
    ("currentPage", some (.str i.currentPage)),
    ("usageSeconds", some (.nat i.usageSeconds.toNat)),
    ("nowTime", some (.nat i.nowTime.toNat)),
    ("deviceMemTotalMb", some (.nat i.deviceMemTotalMb.toNat)),
    ("deviceMemAvailableMb", some (.nat i.deviceMemAvailableMb.toNat)),
    ("dumpReason", some (.str i.dumpReason)),
    ("monitorVersion", some (.str i.monitorVersion)),
    ("filterInstanceTime", i.filterInstanceTime.map .float),
    ("findGcPathTime", i.findGcPathTime.map .float)]

def PathItem.toJson (p : PathItem) : Value :=
  .record [
    ("reference", some (.str p.reference)),
    ("referenceType", some (.str p.referenceType)),
    ("declaredClass", p.declaredClass.map .str)]

def GcPath.toJson (p : GcPath) : Value :=
  .record [
    ("instanceCount", some (.nat p.instanceCount.toNat)),
    ("leakReason", some (.str p.leakReason)),
    ("gcRoot", some (.str p.gcRoot)),
    ("signature", some (.str p.signature)),
    ("path", some (.list PathItem.toJson p.path))]

def ClassInfo.toJson (c : ClassInfo) : Value :=
  .record [
    ("className", some (.str c.className)),
    ("instanceCount", some (.nat c.instanceCount.toNat)),
    ("leakInstanceCount", some (.nat c.leakInstanceCount.toNat))]

def LeakObject.toJson (o : LeakObject) : Value :=
  .record [
    ("className", some (.str o.className)),
    ("size", some (.nat o.size.toNat)),
    ("objectId", some (.nat o.objectId.toNat)),
    ("extDetail", o.extDetail.map .str)]

def toJson (r : Report) : Value :=
  .record [
    ("runningInfo", some r.runningInfo.toJson),
    ("gcPaths", some (.list GcPath.toJson r.gcPaths)),
    ("classInfos", some (.list ClassInfo.toJson r.classInfos)),
    ("leakObjects", some (.list LeakObject.toJson r.leakObjects)),
    ("analysisDone", some (.bool r.analysisDone)),
    ("reAnalysisTimes", some (.nat r.reAnalysisTimes.toNat))]

def text (r : Report) : String := r.toJson.pretty

/-! ## Reading -/

open Decode

def RunningInfo.decoder : Decoder RunningInfo :=
  record "RunningInfo"
    [required "jvmMaxMb" uint64, required "jvmUsedMb" uint64, required "vssMb" uint64,
      required "rssMb" uint64, required "threadCount" uint32, required "fdCount" uint32,
      required "threadList" (list string), required "fdList" (list string), required "os" string,
      required "osVersion" string, required "arch" string, required "appVersion" string,
      required "currentPage" string, required "usageSeconds" uint64, required "nowTime" uint64,
      required "deviceMemTotalMb" uint64, required "deviceMemAvailableMb" uint64,
      required "dumpReason" string, required "monitorVersion" string,
      omissible "filterInstanceTime" float, omissible "findGcPathTime" float]
    fun (jvmMaxMb, jvmUsedMb, vssMb, rssMb, threadCount, fdCount, threadList, fdList, os, osVersion,
        arch, appVersion, currentPage, usageSeconds, nowTime, deviceMemTotalMb,
        deviceMemAvailableMb, dumpReason, monitorVersion, filterInstanceTime, findGcPathTime, ()) ↦
      { jvmMaxMb, jvmUsedMb, vssMb, rssMb, threadCount, fdCount, threadList, fdList, os, osVersion,
        arch, appVersion, currentPage, usageSeconds, nowTime, deviceMemTotalMb,
        deviceMemAvailableMb, dumpReason, monitorVersion, filterInstanceTime, findGcPathTime }

def PathItem.decoder : Decoder PathItem :=
  record "PathItem"
    [required "reference" string, required "referenceType" string, omissible "declaredClass" string]
    fun (reference, referenceType, declaredClass, ()) ↦ ⟨reference, referenceType, declaredClass⟩

def GcPath.decoder : Decoder GcPath :=
  record "GcPath"
    [required "instanceCount" count, required "leakReason" string, required "gcRoot" string,
      required "signature" string, required "path" (list PathItem.decoder)]
    fun (instanceCount, leakReason, gcRoot, signature, path, ()) ↦
      ⟨instanceCount, leakReason, gcRoot, signature, path⟩

def ClassInfo.decoder : Decoder ClassInfo :=
  record "ClassInfo"
    [required "className" string, required "instanceCount" uint64,
      required "leakInstanceCount" uint64]
    fun (className, instanceCount, leakInstanceCount, ()) ↦
      ⟨className, instanceCount, leakInstanceCount⟩

def LeakObject.decoder : Decoder LeakObject :=
  record "LeakObject"
    [required "className" string, required "size" uint64, required "objectId" uint64,
      omissible "extDetail" string]
    fun (className, size, objectId, extDetail, ()) ↦ ⟨className, size, objectId, extDetail⟩

def decoder : Decoder Report :=
  record "HeapReport"
    [required "runningInfo" RunningInfo.decoder, required "gcPaths" (list GcPath.decoder),
      required "classInfos" (list ClassInfo.decoder),
      required "leakObjects" (list LeakObject.decoder), required "analysisDone" boolean,
      required "reAnalysisTimes" uint32]
    fun (runningInfo, gcPaths, classInfos, leakObjects, analysisDone, reAnalysisTimes, ()) ↦
      ⟨runningInfo, gcPaths, classInfos, leakObjects, analysisDone, reAnalysisTimes⟩

def ofText (text : String) : Except DecodeError Report := decode decoder text

end HeapSentry.Report
