import HeapSentry.Proofs.Storage.Saving
import HeapSentry.Proofs.Storage.Sweeping
import HeapSentry.Proofs.Supervisor.Footprints

/-!
# Mishaps

What is asked of a machine can fail at any time, for reasons that nobody knows beforehand, and what
was being written can break off anywhere.  All the same, only what a request is about changes, what
was written without an error is there, and what was removed is gone.
-/

namespace HeapSentry

open Storage Storage.FileTree Storage.Path

namespace Activity

variable {Request : Type} {Answer : Request → Type} {α β σ : Type}
  {May : σ → (r : Request) → Answer r → σ → Prop} {s s' : σ}

/-- Whether an activity may give a result and leave a state, if it is known how requests may be
answered. -/
def Runs (May : σ → (r : Request) → Answer r → σ → Prop) : σ → Activity Answer α → α → σ → Prop
  | s, .done a, x, s' => x = a ∧ s' = s
  | s, .ask r next, x, s' => ∃ answer between, May s r answer between ∧
      Runs May between (next answer) x s'

theorem runs_request {r : Request} {answer : Answer r} :
    Runs May s (request r) answer s' ↔ May s r answer s' := by
  constructor
  · rintro ⟨given, between, hmay, rfl, rfl⟩
    exact hmay
  · intro hmay
    exact ⟨answer, s', hmay, rfl, rfl⟩

theorem runs_bind {a : Activity Answer α} {f : α → Activity Answer β} {y : β} :
    Runs May s (a >>= f) y s' ↔
      ∃ x between, Runs May s a x between ∧ Runs May between (f x) y s' := by
  induction a generalizing s with
  | done x =>
      constructor
      · intro h
        exact ⟨x, s, ⟨rfl, rfl⟩, h⟩
      · rintro ⟨x, between, ⟨rfl, rfl⟩, h⟩
        exact h
  | ask r next ih =>
      constructor
      · rintro ⟨answer, between, hmay, hrest⟩
        obtain ⟨x, after, hnext, hf⟩ := (ih answer).1 hrest
        exact ⟨x, after, ⟨answer, between, hmay, hnext⟩, hf⟩
      · rintro ⟨x, after, ⟨answer, between, hmay, hnext⟩, hf⟩
        exact ⟨answer, between, hmay, (ih answer).2 ⟨x, after, hnext, hf⟩⟩

/-- What is carried out in one way is carried out in a way that it may be. -/
theorem runs_runOn {perform : σ → (r : Request) → Answer r × σ}
    (h : ∀ s r, May s r (perform s r).1 (perform s r).2) (s : σ) (a : Activity Answer α) :
    Runs May s a (a.runOn perform s).1 (a.runOn perform s).2 := by
  induction a generalizing s with
  | done x => exact ⟨rfl, rfl⟩
  | ask r next ih => exact ⟨_, _, h s r, ih _ _⟩

/-- What each request keeps is kept by a run. -/
theorem Runs.keeps {Kept : σ → σ → Prop} {P : Request → Prop} {a : Activity Answer α} {x : α}
    (h : Runs May s a x s') (ha : a.Asks P) (hrefl : ∀ s, Kept s s)
    (htrans : ∀ {s₁ s₂ s₃}, Kept s₁ s₂ → Kept s₂ s₃ → Kept s₁ s₃)
    (hstep : ∀ {s₁ s₂ r answer}, P r → May s₁ r answer s₂ → Kept s₁ s₂) : Kept s s' := by
  induction a generalizing s with
  | done x =>
      obtain ⟨-, rfl⟩ := h
      exact hrefl s'
  | ask r next ih =>
      obtain ⟨answer, between, hmay, hrest⟩ := h
      exact htrans (hstep ha.1 hmay) (ih answer hrest (ha.2 answer))

end Activity

namespace Storage.FileTree

variable {t t' : FileTree} {l l' : Location} {path : String} {n : Node} {content : ByteArray}

/-- Whether a file is in the way or not, none changes when directories are made. -/
theorem node?_makeDirsAlong_eq_file (t : FileTree) (l : Location) (ns : List String) :
    (t.makeDirsAlong l ns).2.node? l' = some (.file content) ↔
      t.node? l' = some (.file content) := by
  induction ns generalizing t l with
  | nil => rfl
  | cons name ns ih =>
      rw [makeDirsAlong]
      split
      · rfl
      · cases hnode : t.node? (descend l name) with
        | none =>
            simp only [hnode]
            rw [ih]
            by_cases heq : descend l name = l'
            · subst heq
              have hne : descend l name ≠ [] := by
                intro hroot
                rw [hroot] at hnode
                cases hnode
              simp [node?_insert_self t hne, hnode]
            · rw [node?_insert_of_ne t heq]
        | some n =>
            cases n with
            | dir =>
                simp only [hnode]
                exact ih t _
            | file content =>
                simp only [hnode]

/-- What is found in a tree is found in one that holds more. -/
theorem look_mono (h : ∀ l n, t.node? l = some n → t'.node? l = some n)
    (hlook : t.look path = .ok n) : t'.look path = .ok n := by
  obtain ⟨l, hlocate, -⟩ := bind_eq_ok_iff.1 hlook
  have hlocate' : t'.locate path = .ok l := locate_of_dirs (fun l ↦ h l .dir) hlocate
  have hl := eq_of_locate hlocate
  subst hl
  have hnode := node?_of_look hlook
  rw [look_of_locate hlocate, hnode] at hlook
  rw [look_of_locate hlocate', h _ _ hnode]
  exact hlook

theorem remove_of_look_file (h : t.look path = .ok (.file content)) :
    t.remove path = .ok (t.erase (place path)) := by
  obtain ⟨l, hlocate, -⟩ := bind_eq_ok_iff.1 h
  have hl := eq_of_locate hlocate
  subst hl
  rw [remove, h, hlocate]
  rfl

theorem node?_of_node?_erase (h : (t.erase l).node? l' = some n) : t.node? l' = some n := by
  by_cases hroot : l' = []
  · subst hroot
    exact h
  · by_cases heq : l = l'
    · subst heq
      rw [node?_erase_self t hroot] at h
      cases h
    · rwa [node?_erase_of_ne t heq] at h

end Storage.FileTree

namespace Machine

variable {m m' m'' : Machine} {r : Request} {path other : String} {content : ByteArray}
  {l : Location} {files others : String → Prop} {n : Node}

/-! ## What may happen -/

/-- What a request may be answered on a machine that fails at times, and what becomes of the
machine.  Removals do what they can do. -/
inductive May (m : Machine) : (r : Request) → Answer r → Machine → Prop where
  | performed (r : Request) : May m r (m.perform r).1 (m.perform r).2
  | unread (path : String) (e : FileError) : May m (.read path) (.error e) m
  | unsized (path : String) (e : FileError) : May m (.size path) (.error e) m
  | unmade (path : String) (e : FileError) : May m (.makeDirs path) (.error e) m
  | unwritten (path : String) (content : ByteArray) (e : FileError) :
      May m (.write path content) (.error e) m
  /-- Something was written, but not all. -/
  | torn {path : String} {part : ByteArray} {m' : Machine} (content : ByteArray) (e : FileError)
      (h : m.perform (.write path part) = (.ok (), m')) : May m (.write path content) (.error e) m'
  | uncopied (source target : String) (e : FileError) : May m (.copy source target) (.error e) m
  | cut {target : String} {part : ByteArray} {m' : Machine} (source : String) (e : FileError)
      (h : m.perform (.write target part) = (.ok (), m')) :
      May m (.copy source target) (.error e) m'

/-- Whether an activity may give a result and leave a machine, for all that may go wrong. -/
def Runs {α : Type} (m : Machine) (a : OnMachine α) (x : α) (m' : Machine) : Prop :=
  Activity.Runs May m a x m'

theorem May.write (h : m.May (.write path content) (.ok ()) m') :
    m.perform (.write path content) = (.ok (), m') := by
  generalize hanswer : (Except.ok () : Except FileError Unit) = answer at h
  cases h with
  | performed => rfl
  | unwritten => cases hanswer
  | torn => cases hanswer

theorem May.remove {answer : Except FileError Unit} (h : m.May (.remove path) answer m') :
    m' = (m.perform (.remove path)).2 := by
  cases h with
  | performed => rfl

theorem May.size {size : Nat} (h : m.May (.size path) (.ok size) m') :
    (m.perform (.size path)).1 = .ok size := by
  generalize hanswer : (Except.ok size : Except FileError Nat) = answer at h
  cases h with
  | performed => rfl
  | unsized => cases hanswer

/-! ## What changes -/

/-- The locations that lie on the way to some paths, and that of the log. -/
def Reach (m : Machine) (files : String → Prop) (l : Location) : Prop :=
  (∃ path, files path ∧ Visits (m.absolute path) l) ∨ ∃ log ∈ m.logFile, l = place log

/-- The locations that some paths lead to, and that of the log. -/
def Spots (m : Machine) (files : String → Prop) (l : Location) : Prop :=
  (∃ path, files path ∧ l = place (m.absolute path)) ∨ ∃ log ∈ m.logFile, l = place log

/-- Whether one machine becomes another by changes to the files at some paths, for which
directories may have been made. -/
structure ChangesAt (files : String → Prop) (m m' : Machine) : Prop where
  workingDir : m'.workingDir = m.workingDir
  logFile : m'.logFile = m.logFile
  evolves : Evolves (m.Reach files) m.files m'.files
  contents : ∀ l, ¬ m.Spots files l → ∀ content,
    m'.files.node? l = some (.file content) ↔ m.files.node? l = some (.file content)

/-- What a path leads to stays there, as all directories do. -/
theorem lookAt_of_evolves {places : Location → Prop} (h : Evolves places m.files m'.files)
    (hworking : m'.workingDir = m.workingDir) (hplace : ¬ places (place (m.absolute path)))
    (hlook : m.lookAt path = .ok n) : m'.lookAt path = .ok n := by
  obtain ⟨absolute, haccept, hlook⟩ := bind_eq_ok_iff.1 hlook
  obtain rfl := eq_of_accept haccept
  obtain ⟨l, hlocate, -⟩ := bind_eq_ok_iff.1 hlook
  have hlocate' := locate_of_dirs h.dirs hlocate
  have hl := eq_of_locate hlocate
  subst hl
  rw [lookAt, accept_congr hworking, haccept]
  change m'.files.look (m.absolute path) = .ok n
  rw [look_of_locate hlocate', h.same _ hplace, ← look_of_locate hlocate]
  exact hlook

namespace ChangesAt

theorem refl (files : String → Prop) (m : Machine) : ChangesAt files m m :=
  ⟨rfl, rfl, .refl _ _, fun _ _ _ ↦ Iff.rfl⟩

theorem absolute (h : ChangesAt files m m') (path : String) : m'.absolute path = m.absolute path :=
  absolute_congr h.workingDir path

theorem reach_eq (h : ChangesAt files m m') (others : String → Prop) :
    m'.Reach others = m.Reach others := by
  funext l
  rw [Reach, Reach, h.logFile]
  simp only [h.absolute]

theorem spots_eq (h : ChangesAt files m m') (others : String → Prop) :
    m'.Spots others = m.Spots others := by
  funext l
  rw [Spots, Spots, h.logFile]
  simp only [h.absolute]

theorem trans (h : ChangesAt files m m') (h' : ChangesAt files m' m'') :
    ChangesAt files m m'' where
  workingDir := h'.workingDir.trans h.workingDir
  logFile := h'.logFile.trans h.logFile
  evolves := h.evolves.trans (h.reach_eq files ▸ h'.evolves)
  contents l hl content := by
    have hlater := h'.contents l (by rwa [h.spots_eq]) content
    exact hlater.trans (h.contents l hl content)

theorem imp (h : ChangesAt files m m') (himp : ∀ path, files path → others path) :
    ChangesAt others m m' where
  workingDir := h.workingDir
  logFile := h.logFile
  evolves := h.evolves.imp fun _ hl ↦
    hl.imp_left fun ⟨path, hpath, hvisits⟩ ↦ ⟨path, himp path hpath, hvisits⟩
  contents _ hl := h.contents _ fun hspot ↦
    hl (hspot.imp_left fun ⟨path, hpath, heq⟩ ↦ ⟨path, himp path hpath, heq⟩)

theorem node?_eq (h : ChangesAt files m m') (hl : ¬ m.Reach files l) :
    m'.files.node? l = m.files.node? l :=
  h.evolves.same l hl

end ChangesAt

/-! ## Requests -/

theorem changesAt_of_evolves (h : Evolves (· = place (m.absolute path)) m.files m'.files)
    (hpath : files path) (hworking : m'.workingDir = m.workingDir) (hlog : m'.logFile = m.logFile) :
    ChangesAt files m m' where
  workingDir := hworking
  logFile := hlog
  evolves := h.imp fun _ hl ↦ .inl ⟨path, hpath, hl ▸ visits_place _⟩
  contents _ hl content := by
    rw [h.same _ fun heq ↦ hl (.inl ⟨path, hpath, heq⟩)]

theorem changesAt_perform (hr : r.Within files) : ChangesAt files m (m.perform r).2 := by
  have hworking := workingDir_perform m r
  cases r with
  | write path content =>
      exact changesAt_of_evolves (evolves_perform m (r := .write path content) trivial) hr hworking
        (logFile_perform m (r := .write path content) trivial)
  | copy source target =>
      exact changesAt_of_evolves (evolves_perform m (r := .copy source target) trivial) hr hworking
        (logFile_perform m (r := .copy source target) trivial)
  | remove path =>
      exact changesAt_of_evolves (evolves_perform m (r := .remove path) trivial) hr hworking
        (logFile_perform m (r := .remove path) trivial)
  | makeDirs path =>
      refine ⟨hworking, logFile_perform m (r := .makeDirs path) trivial, ?_, ?_⟩
      · refine (evolves_perform m (r := .makeDirs path) trivial).imp fun l hl ↦ ?_
        exact .inl ⟨path, hr, hl⟩
      · intro l _ content
        rw [perform]
        cases haccept : m.accept path with
        | error e => rfl
        | ok absolute => exact node?_makeDirsAlong_eq_file m.files [] _
  | log line =>
      have hevolves := evolves_perform m (r := .log line) trivial
      refine ⟨hworking, logFile_perform m (r := .log line) trivial, ?_, ?_⟩
      · exact hevolves.imp fun l hl ↦ .inr hl
      · intro l hl content
        rw [hevolves.same l fun hlog ↦ hl (.inr hlog)]
  | removeDir path => exact hr.elim
  | entries dir => exact hr.elim
  | logTo path => exact hr.elim
  | print text => exact ⟨rfl, rfl, .refl _ _, fun _ _ _ ↦ Iff.rfl⟩
  | _ => exact .refl files m

/-- A request changes nothing but what it is about, however it ends. -/
theorem May.changesAt {answer : Answer r} (h : m.May r answer m') (hr : r.Within files) :
    ChangesAt files m m' := by
  have htorn : ∀ {path part}, m.perform (.write path part) = (.ok (), m') → files path →
      ChangesAt files m m' := by
    intro path part hwrite hpath
    have hchanges : ChangesAt files m (m.perform (.write path part)).2 :=
      changesAt_perform (r := .write path part) hpath
    rwa [hwrite] at hchanges
  cases h with
  | performed r => exact changesAt_perform hr
  | torn content e hwrite => exact htorn hwrite hr
  | cut source e hwrite => exact htorn hwrite hr
  | _ => exact .refl files m

theorem Runs.changesAt {α : Type} {a : OnMachine α} {x : α} (h : m.Runs a x m')
    (ha : a.Asks (Request.Within files)) : ChangesAt files m m' :=
  Activity.Runs.keeps h ha (.refl files) .trans fun hr hmay ↦ hmay.changesAt hr

/-! ## Removals and writes -/

theorem lookAt_of_lookAt_remove (h : (m.perform (.remove path)).2.lookAt other = .ok n) :
    m.lookAt other = .ok n := by
  rcases m.remove_cases path with hsame | herased
  · rwa [hsame] at h
  · rw [herased] at h
    obtain ⟨absolute, haccept, hlook⟩ := bind_eq_ok_iff.1 h
    have hbefore : m.accept other = .ok absolute := haccept
    rw [lookAt, hbefore]
    exact look_mono (fun l n ↦ node?_of_node?_erase) hlook

/-- What was removed is gone, unless it is a directory. -/
theorem exists_error_of_remove (hnode : m.files.node? (place (m.absolute path)) ≠ some .dir) :
    ∃ e, (m.perform (.remove path)).2.lookAt path = .error e := by
  cases hafter : (m.perform (.remove path)).2.lookAt path with
  | error e => exact ⟨e, rfl⟩
  | ok n =>
      exfalso
      obtain ⟨absolute, haccept, hlook⟩ := bind_eq_ok_iff.1 (lookAt_of_lookAt_remove hafter)
      obtain rfl := eq_of_accept haccept
      have hn := node?_of_look hlook
      cases n with
      | dir => exact hnode hn
      | file content =>
          have hremove : (m.perform (.remove path)).2 =
              { m with files := m.files.erase (place (m.absolute path)) } := by
            rw [perform, haccept]
            change (m.settle (m.files.remove (m.absolute path))).2 = _
            rw [remove_of_look_file hlook]
            rfl
          rw [hremove] at hafter
          obtain ⟨absolute, haccept', hlook'⟩ := bind_eq_ok_iff.1 hafter
          obtain rfl := eq_of_accept haccept'
          have hgone : (m.files.erase (place (m.absolute path))).node? (place (m.absolute path)) =
              some (.file content) := node?_of_look hlook'
          rw [node?_erase_self] at hgone
          · cases hgone
          · intro hroot
            rw [hroot] at hn
            cases hn

/-- A file that is written, whether as a whole or not, becomes no directory. -/
theorem May.isDir_of_write {answer : Except FileError Unit}
    (h : m.May (.write path content) answer m') (hdir : m'.files.node? l = some .dir) :
    m.files.node? l = some .dir := by
  have hwritten {part : ByteArray}
      (hdir : (m.perform (.write path part)).2.files.node? l = some .dir) :
      m.files.node? l = some .dir :=
    isDir_of_perform (r := .write path part) trivial nofun hdir
  cases h with
  | performed => exact hwritten hdir
  | unwritten => exact hdir
  | torn content e hwrite =>
      apply hwritten
      rwa [hwrite]

theorem workingDir_of_perform_write (h : m.perform (.write path content) = (.ok (), m')) :
    m'.workingDir = m.workingDir := by
  have hworking := m.workingDir_perform (.write path content)
  rwa [h] at hworking

theorem evolves_of_perform_write (h : m.perform (.write path content) = (.ok (), m')) :
    Evolves (· = place (m.absolute path)) m.files m'.files := by
  have hevolves := m.evolves_perform (r := .write path content) trivial
  rwa [h] at hevolves

theorem node?_of_perform_write (h : m.perform (.write path content) = (.ok (), m')) :
    m'.files.node? (place (m.absolute path)) = some (.file content) := by
  obtain ⟨t, -, hwrite, rfl⟩ := eq_of_perform_write h
  exact node?_of_write hwrite

theorem read_of_perform_write (h : m.perform (.write path content) = (.ok (), m')) :
    (m'.perform (.read path)).1 = .ok content := by
  obtain ⟨t, hacceptable, hwrite, rfl⟩ := eq_of_perform_write h
  rw [perform, accept, if_pos hacceptable]
  exact read_of_write hwrite

end Machine

end HeapSentry
