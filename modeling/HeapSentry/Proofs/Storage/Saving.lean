import HeapSentry.Proofs.Storage.LedgerText
import HeapSentry.Proofs.Storage.Pairs

/-!
# Saving a ledger

What was written to a path is read from it, and can be written again.  Requests to change the files
may fail on a machine for reasons of its own; a ledger that was saved is the one that is loaded
next, whatever failed before.
-/

namespace HeapSentry

namespace Storage.FileTree

variable {t t' : FileTree} {l : Location} {path : String} {content : ByteArray}

/-! ## Writing to one path again and again -/

theorem locate_of_dirs (hdirs : ∀ l, t.node? l = some .dir → t'.node? l = some .dir)
    (h : t.locate path = .ok l) : t'.locate path = .ok l := by
  rw [locate] at h ⊢
  split at h
  next => cases h
  next hne =>
    rw [if_neg hne]
    exact walk_of_dirs hdirs h

theorem writable_eq_ok_iff : t.writable path = .ok l ↔
    t.locate path = .ok l ∧ t.node? l ≠ some .dir ∧ asksDirectory path = false := by
  constructor
  · intro h
    obtain ⟨l', hlocate, hwritable⟩ := bind_eq_ok_iff.1 h
    split at hwritable
    next => cases hwritable
    next hnode =>
      split at hwritable
      next => cases hwritable
      next hasks =>
        obtain rfl := Except.ok.inj hwritable
        exact ⟨hlocate, hnode, eq_false_of_ne_true hasks⟩
  · rintro ⟨hlocate, hnode, hasks⟩
    rw [writable_of_locate hlocate, hasks]
    split
    next hdir => exact absurd hdir hnode
    next => rfl

theorem write_of_writable (h : t.writable path = .ok l) (content : ByteArray) :
    t.write path content = .ok (t.insert l (.file content)) := by
  rw [write, h]
  rfl

theorem writable_of_write (h : t.write path content = .ok t') :
    t.writable path = .ok (place path) ∧ t' = t.insert (place path) (.file content) := by
  obtain ⟨l, hwritable, ht⟩ := bind_eq_ok_iff.1 h
  have hl := eq_of_locate (writable_eq_ok_iff.1 hwritable).1
  subst hl
  exact ⟨hwritable, (Except.ok.inj ht).symm⟩

theorem node?_of_write (h : t.write path content = .ok t') :
    t'.node? (place path) = some (.file content) := by
  obtain ⟨hwritable, rfl⟩ := writable_of_write h
  apply node?_insert_self
  intro hroot
  apply (writable_eq_ok_iff.1 hwritable).2.1
  rw [hroot, node?_root]

theorem writable_again (h : t.write path content = .ok t') :
    t'.writable path = .ok (place path) := by
  obtain ⟨hlocate, -, hasks⟩ := writable_eq_ok_iff.1 (writable_of_write h).1
  refine writable_eq_ok_iff.2 ⟨locate_of_dirs (evolves_write h).dirs hlocate, ?_, hasks⟩
  rw [node?_of_write h]
  exact fun hdir ↦ nomatch hdir

/-- What was written is read. -/
theorem read_of_write (h : t.write path content = .ok t') : t'.read path = .ok content := by
  obtain ⟨hlocate, -, hasks⟩ := writable_eq_ok_iff.1 (writable_again h)
  rw [read, look_of_locate hlocate, node?_of_write h, hasks]
  rfl

theorem makeDirsAlong_of_walk {ns : List String} {l' : Location} (h : t.walk l ns = .ok l')
    (hlast : t.node? l' = some .dir) : t.makeDirsAlong l ns = (.ok (), t) := by
  induction ns generalizing l with
  | nil => rfl
  | cons name ns ih =>
      rw [walk] at h
      split at h
      next => cases h
      next => cases h
      next =>
        split at h
        next hvalid =>
          have hhere : t.node? (descend l name) = some .dir := by
            cases ns with
            | nil =>
                obtain rfl := Except.ok.inj h
                exact hlast
            | cons next ns =>
                rw [walk] at h
                split at h
                next => cases h
                next => cases h
                next hdir => exact hdir
          rw [makeDirsAlong, hvalid]
          simp only [Bool.not_true, Bool.false_eq_true, if_false, hhere]
          exact ih h
        next => cases h

/-- Directories that are there need not be made. -/
theorem HasDir.makeDirs_eq (h : t.HasDir path) : t.makeDirs path = (.ok (), t) :=
  makeDirsAlong_of_walk h.walk h.node

end Storage.FileTree

open Storage Storage.FileTree

namespace Machine

variable {m m' : Machine} {path : String} {content : ByteArray} {trouble : Trouble}

/-! ## Trouble with the files -/

/-- What goes wrong when directories are made or files are written. -/
structure Trouble where
  makeDirs : Option FileError := none
  write : Option FileError := none
  deriving DecidableEq, Repr

/-- What a machine in trouble answers and what becomes of it. -/
def performIn (trouble : Trouble) (m : Machine) : (r : Request) → Answer r × Machine
  | .makeDirs path =>
    match trouble.makeDirs with
    | some e => (.error e, m)
    | none => m.perform (.makeDirs path)
  | .write path content =>
    match trouble.write with
    | some e => (.error e, m)
    | none => m.perform (.write path content)
  | r => m.perform r

def runIn {α : Type} (trouble : Trouble) (m : Machine) (a : OnMachine α) : α × Machine :=
  a.runOn (performIn trouble) m

theorem runIn_bind {α β : Type} (a : OnMachine α) (f : α → OnMachine β) :
    m.runIn trouble (a >>= f) = (m.runIn trouble a).2.runIn trouble (f (m.runIn trouble a).1) :=
  Activity.runOn_bind ..

theorem runIn_eq_run {α : Type} (m : Machine) (a : OnMachine α) : m.runIn {} a = m.run a := by
  have hperform : performIn {} = perform := by
    funext m r
    cases r <;> rfl
  rw [runIn, hperform, run]

/-! ## Loading what was saved -/

/-- The text that is read from a path. -/
def textAt (m : Machine) (path : String) : Option String := (m.run (OnMachine.readText path)).1

/-- The ledger that is loaded from a path. -/
def ledgerAt (m : Machine) (path : String) : Ledger :=
  (m.textAt path >>= Ledger.ofText?).getD .empty

theorem run_readText_eq (m : Machine) (path : String) : m.run (OnMachine.readText path) =
    ((m.perform (.read path)).1.toOption >>= String.fromUTF8?, m) := by
  have hread : m.run (OnMachine.read path) = ((m.perform (.read path)).1, m) := rfl
  rw [OnMachine.readText, run_bind, hread]
  cases (m.perform (.read path)).1 with
  | ok content => rfl
  | error e => rfl

theorem textAt_eq (m : Machine) (path : String) :
    m.textAt path = ((m.perform (.read path)).1.toOption >>= String.fromUTF8?) :=
  congrArg Prod.fst (m.run_readText_eq path)

theorem run_readText (m : Machine) (path : String) :
    m.run (OnMachine.readText path) = (m.textAt path, m) := by
  rw [textAt_eq, run_readText_eq]

theorem run_load (m : Machine) (path : String) :
    m.run (LedgerFile.load path) = (⟨path, m.ledgerAt path⟩, m) := by
  rw [LedgerFile.load, run_bind, run_readText]
  rfl

theorem textAt_of_read (h : (m.perform (.read path)).1 = .ok content) :
    m.textAt path = String.fromUTF8? content := by
  rw [textAt_eq, h]
  rfl

theorem ledgerAt_of_not_found (h : (m.perform (.read path)).1 = .error .notFound) :
    m.ledgerAt path = .empty := by
  rw [ledgerAt, textAt_eq, h]
  rfl

theorem isSorted_and_fits_ledgerAt (m : Machine) (path : String) :
    (m.ledgerAt path).IsSorted ∧ (m.ledgerAt path).Fits := by
  rw [ledgerAt]
  cases hledger : m.textAt path >>= Ledger.ofText? with
  | none => exact ⟨Ledger.isSorted_empty, List.forall_mem_nil _⟩
  | some l =>
      obtain ⟨text, -, hl⟩ := Option.bind_eq_some_iff.1 hledger
      exact Ledger.isSorted_and_fits_of_ofText? hl

/-- A ledger is loaded from its text. -/
theorem ledgerAt_of_textAt {l : Ledger} (h : m.textAt path = some l.text) (hsorted : l.IsSorted)
    (hfits : l.Fits) : m.ledgerAt path = l := by
  have hl : (m.textAt path >>= Ledger.ofText?) = some l := by
    rw [h]
    exact Ledger.ofText?_text hsorted hfits
  rw [ledgerAt, hl]
  rfl

theorem eq_of_perform_write (h : m.perform (.write path content) = (.ok (), m')) :
    ∃ t, Path.isAcceptable path = true ∧ m.files.write (m.absolute path) content = .ok t ∧
      m' = { m with files := t } := by
  obtain ⟨t, -, hresult, rfl⟩ | ⟨hfails, -⟩ := settle_eq h
  · obtain ⟨absolute, haccept, hwrite⟩ := bind_eq_ok_iff.1 hresult
    obtain rfl := eq_of_accept haccept
    refine ⟨t, ?_, hwrite, rfl⟩
    rw [accept] at haccept
    split at haccept
    next hacceptable => exact hacceptable
    next => cases haccept
  · cases hfails

theorem textAt_of_perform_write (h : m.perform (.write path content) = (.ok (), m')) :
    m'.textAt path = String.fromUTF8? content := by
  obtain ⟨t, hacceptable, hwrite, rfl⟩ := eq_of_perform_write h
  apply textAt_of_read
  rw [perform, accept, if_pos hacceptable]
  exact read_of_write hwrite

/-- How a save goes: room is made, then the text is written. -/
theorem runIn_save (m : Machine) (trouble : Trouble) (f : LedgerFile) :
    m.runIn trouble f.save = (m.runIn trouble f.makeRoom).2.runIn trouble
      (match (m.runIn trouble f.makeRoom).1 with
        | .error e => return .error e
        | .ok () => return onPath f.path (← OnMachine.write f.path f.ledger.text.toUTF8)) :=
  runIn_bind ..

theorem eq_ok_of_onPath {α : Type} {answer : Except FileError α} {a : α}
    (h : onPath path answer = .ok a) : answer = .ok a := by
  cases answer with
  | error e => cases h
  | ok b => exact congrArg _ (Except.ok.inj h)

theorem exists_of_save {f : LedgerFile} (h : m.runIn trouble f.save = (.ok (), m')) :
    ∃ made, m.runIn trouble f.makeRoom = (.ok (), made) ∧
      made.perform (.write f.path f.ledger.text.toUTF8) = (.ok (), m') := by
  rw [runIn_save] at h
  generalize m.runIn trouble f.makeRoom = room at h ⊢
  obtain ⟨_ | ⟨⟩, made⟩ := room
  · cases h
  · refine ⟨made, rfl, ?_⟩
    have hwrite : (onPath f.path (made.performIn trouble
          (.write f.path f.ledger.text.toUTF8)).1,
        (made.performIn trouble (.write f.path f.ledger.text.toUTF8)).2) = (.ok (), m') := h
    rw [performIn] at hwrite
    split at hwrite
    next => cases hwrite
    next =>
      obtain ⟨hanswer, hafter⟩ := Prod.mk.inj hwrite
      exact Prod.ext (eq_ok_of_onPath hanswer) hafter

/-- A ledger that was saved is read from its file. -/
theorem textAt_of_save {f : LedgerFile} (h : m.runIn trouble f.save = (.ok (), m')) :
    m'.textAt f.path = some f.ledger.text := by
  obtain ⟨made, -, hwrite⟩ := exists_of_save h
  rw [textAt_of_perform_write hwrite]
  exact dif_pos f.ledger.text.isValidUTF8

/-! ## Saving again -/

/-- Whether a ledger can be saved at a path. -/
def TakesLedger (m : Machine) (path : String) : Prop :=
  (m.run (LedgerFile.save ⟨path, .empty⟩)).1 = .ok ()

theorem perform_write_of_writable (hacceptable : Path.isAcceptable path = true) {l : Location}
    (hwritable : m.files.writable (m.absolute path) = .ok l) (content : ByteArray) :
    m.perform (.write path content) =
      (.ok (), { m with files := m.files.insert l (.file content) }) := by
  have hwrite := write_of_writable hwritable content
  have haccept : (m.accept path >>= fun p ↦ m.files.write p content) =
      .ok (m.files.insert l (.file content)) := by
    rw [accept, if_pos hacceptable]
    exact hwrite
  rw [perform, haccept]
  rfl

/-- Where something was written, anything can be written. -/
theorem exists_perform_write (h : m.perform (.write path content) = (.ok (), m'))
    (other : ByteArray) : ∃ after, m.perform (.write path other) = (.ok (), after) := by
  obtain ⟨t, hacceptable, hwrite, -⟩ := eq_of_perform_write h
  exact ⟨_, perform_write_of_writable hacceptable (writable_of_write hwrite).1 other⟩

theorem exists_perform_write_again (h : m.perform (.write path content) = (.ok (), m'))
    (other : ByteArray) : ∃ after, m'.perform (.write path other) = (.ok (), after) := by
  obtain ⟨t, hacceptable, hwrite, rfl⟩ := eq_of_perform_write h
  exact ⟨_, perform_write_of_writable hacceptable (writable_again hwrite) other⟩

theorem perform_makeDirs_of_hasDir (hacceptable : Path.isAcceptable path = true)
    (h : m.files.HasDir (m.absolute path)) : m.perform (.makeDirs path) = (.ok (), m) := by
  rw [perform, accept, if_pos hacceptable]
  change ((m.files.makeDirs (m.absolute path)).1,
    { m with files := (m.files.makeDirs (m.absolute path)).2 }) = _
  rw [h.makeDirs_eq]

theorem eq_of_perform_makeDirs (h : m.perform (.makeDirs path) = (.ok (), m')) :
    ∃ t, Path.isAcceptable path = true ∧ t.HasDir (m.absolute path) ∧
      m' = { m with files := t } := by
  rw [perform, accept] at h
  by_cases hacceptable : Path.isAcceptable path = true
  · rw [if_pos hacceptable] at h
    obtain ⟨hok, rfl⟩ := Prod.mk.inj h
    exact ⟨_, hacceptable, hasDir_makeDirs hok, rfl⟩
  · rw [if_neg hacceptable] at h
    cases h

/-- Directories that were made are there, also after something was written. -/
theorem makeDirs_of_write {made : Machine} {parent : String}
    (hmade : m.perform (.makeDirs parent) = (.ok (), made))
    (hwrite : made.perform (.write path content) = (.ok (), m')) :
    m'.perform (.makeDirs parent) = (.ok (), m') := by
  obtain ⟨t, hacceptable, hdir, rfl⟩ := eq_of_perform_makeDirs hmade
  obtain ⟨t', -, hwritten, rfl⟩ := eq_of_perform_write hwrite
  exact perform_makeDirs_of_hasDir hacceptable (hdir.evolve (evolves_write hwritten))

theorem run_makeRoom_of_none {f : LedgerFile} (h : Path.parent? f.path = none) (m : Machine) :
    m.run f.makeRoom = (.ok (), m) := by
  rw [LedgerFile.makeRoom, h]
  rfl

theorem run_makeRoom_of_some {f : LedgerFile} {parent : String}
    (h : Path.parent? f.path = some parent) (m : Machine) : m.run f.makeRoom =
      (onPath parent (m.perform (.makeDirs parent)).1, (m.perform (.makeDirs parent)).2) := by
  rw [LedgerFile.makeRoom, h]
  rfl

theorem makeRoom_of_write {made : Machine} {f : LedgerFile}
    (hmade : m.run f.makeRoom = (.ok (), made))
    (hwrite : made.perform (.write f.path content) = (.ok (), m')) :
    m'.run f.makeRoom = (.ok (), m') := by
  cases hparent : Path.parent? f.path with
  | none => exact run_makeRoom_of_none hparent m'
  | some parent =>
      rw [run_makeRoom_of_some hparent] at hmade ⊢
      obtain ⟨hanswer, hafter⟩ := Prod.mk.inj hmade
      have hdirs : m.perform (.makeDirs parent) = (.ok (), made) :=
        Prod.ext (eq_ok_of_onPath hanswer) hafter
      rw [makeDirs_of_write hdirs hwrite]
      rfl

theorem run_save_eq_ok {made : Machine} {f : LedgerFile}
    (hmade : m.run f.makeRoom = (.ok (), made))
    (hwrite : made.perform (.write f.path f.ledger.text.toUTF8) = (.ok (), m')) :
    m.run f.save = (.ok (), m') := by
  rw [← runIn_eq_run] at hmade ⊢
  rw [runIn_save, hmade]
  change (onPath f.path (made.perform (.write f.path f.ledger.text.toUTF8)).1,
    (made.perform (.write f.path f.ledger.text.toUTF8)).2) = _
  rw [hwrite]
  rfl

/-- Where one ledger can be saved, every ledger can, again and again. -/
theorem TakesLedger.save (h : m.TakesLedger path) (l : Ledger) :
    ∃ after, m.run (LedgerFile.save ⟨path, l⟩) = (.ok (), after) ∧ after.TakesLedger path := by
  obtain ⟨last, hlast⟩ : ∃ last, m.runIn {} (LedgerFile.save ⟨path, .empty⟩) = (.ok (), last) := by
    rw [runIn_eq_run]
    exact ⟨_, Prod.ext h rfl⟩
  obtain ⟨made, hroom, hwritten⟩ := exists_of_save hlast
  rw [runIn_eq_run] at hroom
  obtain ⟨after, hwrite⟩ := exists_perform_write hwritten l.text.toUTF8
  refine ⟨after, run_save_eq_ok (f := ⟨path, l⟩) hroom hwrite, ?_⟩
  obtain ⟨last, hagain⟩ := exists_perform_write_again hwrite Ledger.empty.text.toUTF8
  have hmade := makeRoom_of_write (f := ⟨path, .empty⟩) hroom hwrite
  exact congrArg Prod.fst (run_save_eq_ok (f := ⟨path, .empty⟩) hmade hagain)

end Machine

end HeapSentry
