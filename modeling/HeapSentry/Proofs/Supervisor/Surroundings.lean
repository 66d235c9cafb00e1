import HeapSentry.Proofs.Supervisor.Custodians

/-!
# What surrounds a supervisor

The host, the machine and the watched process may change at any moment, but nobody except the
supervisor and the dump tool changes files, and the tool changes none but the one that it is told to
write.
-/

namespace HeapSentry.Supervisor

open Pressure Storage Storage.FileTree

/-! ## Tools and moves -/

/-- Whether a tool changes no file but the one that it is told to write. -/
structure DumpTool.IsTame (tool : DumpTool) : Prop where
  workingDir : ∀ path m, (tool.dump path m).2.workingDir = m.workingDir
  logFile : ∀ path m, (tool.dump path m).2.logFile = m.logFile
  evolves : ∀ path m, Evolves (· = place (m.absolute path)) m.files (tool.dump path m).2.files
  /-- It makes no directory. -/
  file : ∀ path m, (tool.dump path m).2.files.node? (place (m.absolute path)) = some .dir →
    m.files.node? (place (m.absolute path)) = some .dir

theorem isTame_writes (content : Option ByteArray) : (DumpTool.writes content).IsTame := by
  cases content with
  | none => exact ⟨fun _ _ ↦ rfl, fun _ _ ↦ rfl, fun _ _ ↦ .refl _ _, fun _ _ ↦ id⟩
  | some content =>
      constructor
      case workingDir => exact fun path m ↦ Machine.workingDir_perform m (.write path content)
      case logFile => exact fun path m ↦ Machine.logFile_perform m (r := .write path content) trivial
      case evolves => exact fun path m ↦ Machine.evolves_perform m (r := .write path content) trivial
      case file =>
        exact fun path m ↦ Machine.isDir_of_perform (r := .write path content) trivial
          fun _ h ↦ nomatch h

namespace Scene

/-- Whether a move leaves files to the supervisor and to a tame tool. -/
def SparesFiles (s : Scene) : Move → Prop
  | .surround machine _ process =>
      machine.files = s.world.machine.files ∧ machine.workingDir = s.world.machine.workingDir ∧
        machine.logFile = s.world.machine.logFile ∧ process.dumpTool.IsTame
  | _ => True

/-- Whether all moves leave files to the supervisor and to a tame tool. -/
def SpareFiles (setup : Setup) : Scene → List Move → Prop
  | _, [] => True
  | s, move :: moves => s.SparesFiles move ∧ (s.handle setup move).SpareFiles setup moves

end Scene

def Move.surrounds : Move → Bool
  | .surround .. => true
  | _ => false

theorem Scene.spareFiles_of_all {setup : Setup} {s : Scene} {moves : List Move}
    (h : moves.all (!·.surrounds) = true) : s.SpareFiles setup moves := by
  induction moves generalizing s with
  | nil => trivial
  | cons move moves ih =>
      obtain ⟨hmove, hmoves⟩ := Bool.and_eq_true_iff.1 h
      refine ⟨?_, ih hmoves⟩
      cases move with
      | surround machine host process => cases hmove
      | _ => trivial

/-- What holds at first and is kept by every step in such surroundings holds after any moves. -/
theorem Play.Shows.run_of_spareFiles {rules : Rules} {setup : Setup} (Inv : Play rules → Prop)
    (hrules : rules.Govern setup)
    (hstep : ∀ {s : Scene} {p p' : Play rules} {move}, p.Shows s → s.SparesFiles move →
      p.Step setup move p' → Inv p → Inv p')
    {s : Scene} {p : Play rules} (h : p.Shows s) (hp : Inv p) {moves : List Move}
    (hmoves : s.SpareFiles setup moves) : ∃ p', p'.Shows (s.run setup moves) ∧ Inv p' := by
  induction moves generalizing s p with
  | nil => exact ⟨p, h, hp⟩
  | cons move moves ih =>
      obtain ⟨p', hp', rfl | hmove⟩ := h.handle hrules move
      · exact ih hp' hp hmoves.2
      · exact ih hp' (hstep h hmoves.1 hmove hp) hmoves.2

/-! ## The machine -/

variable {site : Site} {stem : String} {settings : Settings} {w w' : World} {o : Origin}
  {c c' : Custody} {r : Request} {answer : Answer r}

/-- Whether a world is one at a site, where what becomes of the dump can be followed. -/
structure World.IsGrounded (site : Site) (stem : String) (w : World) : Prop where
  isAt : w.machine.IsAt site
  proper : w.machine.files.IsProper
  hprof : w.machine.files.node? (site.fileAt (stem ++ "." ++ "hprof")) ≠ some .dir
  tool : w.process.dumpTool.IsTame

/-- Whether a request makes no directory in place of the dump, and removes none. -/
def Request.IsSafe (site : Site) (stem : String) : Request → Prop
  | .machine r | .service r => r.IsGentle ∧ ∀ path, r = .makeDirs path → site.IsApart stem path
  | _ => True

theorem Request.IsCommon.isSafe (h : r.IsCommon site stem) : r.IsSafe site stem := by
  have hspares {r : Machine.Request} (h : site.Spares stem r) :
      r.IsGentle ∧ ∀ path, r = .makeDirs path → site.IsApart stem path := by
    refine ⟨h.1.isGentle, ?_⟩
    rintro path rfl
    exact h
  cases r with
  | machine r => exact hspares h
  | service r =>
      cases r with
      | size path => exact ⟨trivial, fun _ h ↦ nomatch h⟩
      | _ => exact hspares h
  | _ => trivial

theorem Custody.Step.isSafe (h : Custody.Step site stem o c r answer c') (hwild : c ≠ .wild)
    (hsite : site.IsRegular) : r.IsSafe site stem := by
  cases h with
  | wild => exact absurd rfl hwild
  | common h => exact h.isSafe
  | list => exact ⟨trivial, fun _ h ↦ nomatch h⟩
  | find => exact ⟨trivial, fun _ h ↦ nomatch h⟩
  | makeRoom =>
      refine ⟨trivial, ?_⟩
      rintro _ ⟨⟩
      exact hsite.avoids.isApart stem
  | mark => exact ⟨trivial, fun _ h ↦ nomatch h⟩
  | serve => exact ⟨trivial, fun _ h ↦ nomatch h⟩
  | report => exact ⟨trivial, fun _ h ↦ nomatch h⟩
  | remove => exact ⟨trivial, fun _ h ↦ nomatch h⟩
  | clear => exact ⟨trivial, fun _ h ↦ nomatch h⟩
  | _ => trivial

theorem World.dumpTool_perform (hw : w.perform settings r = (answer, w')) :
    w'.process.dumpTool = w.process.dumpTool := by
  obtain rfl : _ = w' := congrArg Prod.snd hw
  cases r with
  | _ => rfl

theorem World.IsGrounded.perform (h : w.IsGrounded site stem) (hsafe : r.IsSafe site stem)
    (hw : w.perform settings r = (answer, w')) : w'.IsGrounded site stem := by
  have htool := World.dumpTool_perform hw
  obtain rfl : _ = w' := congrArg Prod.snd hw
  have hmachine (r : Machine.Request)
      (hr : r.IsGentle ∧ ∀ path, r = .makeDirs path → site.IsApart stem path) :
      World.IsGrounded site stem { w with machine := (w.machine.perform r).2 } := by
    refine ⟨h.isAt.perform hr.1, Machine.isProper_perform h.proper hr.1, fun hdir ↦ ?_, h.tool⟩
    refine h.hprof (Machine.isDir_of_perform hr.1 (fun path hpath ↦ ?_) hdir)
    rw [h.isAt.absolute]
    exact (hr.2 path hpath).1
  cases r with
  | machine r => exact hmachine r hsafe
  | service r => exact hmachine r hsafe
  | dumpHeap path =>
      have hevolves := h.tool.evolves path w.machine
      refine ⟨⟨?_, ?_⟩, ?_, fun hdir ↦ ?_, htool ▸ h.tool⟩
      · exact (h.tool.workingDir path w.machine).trans h.isAt.workingDir
      · intro file hfile
        exact h.isAt.log file (h.tool.logFile path w.machine ▸ hfile)
      · refine h.proper.evolve hevolves ?_
        rintro _ rfl
        exact (visits_place _).proper
      · by_cases hplace : site.fileAt (stem ++ "." ++ "hprof") = place (w.machine.absolute path)
        · refine h.hprof ?_
          have hdir : (w.dumpHeap path).2.machine.files.node?
            (site.fileAt (stem ++ "." ++ "hprof")) = some .dir := hdir
          rw [hplace] at hdir ⊢
          exact h.tool.file path w.machine hdir
        · exact h.hprof ((hevolves.same _ hplace).symm.trans hdir)
  | _ => exact ⟨h.isAt, h.proper, h.hprof, h.tool⟩

theorem World.IsGrounded.surrounded (h : w.IsGrounded site stem) {machine : Machine} {host : Host}
    {process : Process} (hfiles : machine.files = w.machine.files)
    (hworkingDir : machine.workingDir = w.machine.workingDir)
    (hlog : machine.logFile = w.machine.logFile) (htool : process.dumpTool.IsTame) :
    (w.surrounded machine host process).IsGrounded site stem where
  isAt := ⟨hworkingDir.trans h.isAt.workingDir, fun file hfile ↦
    h.isAt.log file (hlog ▸ hfile)⟩
  proper := by
    change machine.files.IsProper
    rw [hfiles]
    exact h.proper
  hprof := by
    change machine.files.node? _ ≠ _
    rw [hfiles]
    exact h.hprof
  tool := htool

end HeapSentry.Supervisor
