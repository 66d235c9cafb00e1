import HeapSentry.Proofs.Supervisor.Standings

/-!
# Analyses that are still to be begun

An analysis of the dump that is still to be begun waits in the memory or is up to a thread.  Steps
hand it on, and none comes from nowhere: making the dump brings one, and so may looking at a dump
that was listed.
-/

namespace HeapSentry.Supervisor

open Storage

variable {site : Site} {stem : String} {settings : Settings} {w w' : World} {o : Origin}
  {c c' : Custody} {r : Request} {answer : Answer r} {p : Play (custody site stem)} {i : Nat}

/-! ## What waits in the memory -/

/-- How many analyses of the dump wait in the memory. -/
def World.load (site : Site) (stem : String) (w : World) : Nat :=
  share site stem (w.memory.deferred.map Job.pair) +
    (w.memory.tasks.map fun t ↦ share site stem t.pairs).sum

theorem World.load_eq (htasks : w'.memory.tasks = w.memory.tasks)
    (hdeferred : w'.memory.deferred = w.memory.deferred) :
    w'.load site stem = w.load site stem := by
  rw [World.load, World.load, htasks, hdeferred]

variable (site stem) in
theorem World.load_spawn (w : World) (t : Task) :
    (w.remember fun m ↦ { m with tasks := m.tasks ++ [t] }).load site stem =
      w.load site stem + share site stem t.pairs := by
  simp only [World.load, World.remember, List.map_append, List.map_singleton, List.sum_append,
    List.sum_singleton]
  exact (Nat.add_assoc _ _ _).symm

variable (site stem) in
theorem World.load_defer (w : World) (job : Job) :
    (w.remember fun m ↦ { m with deferred := m.deferred ++ [job] }).load site stem =
      w.load site stem + share site stem [job.pair] := by
  simp only [World.load, World.remember, List.map_append, List.map_singleton, share_append]
  omega

variable (site stem) in
theorem World.load_take (w : World) :
    (w.remember ({ · with deferred := [] })).load site stem +
      share site stem (w.memory.deferred.map Job.pair) = w.load site stem := by
  simp only [World.load, World.remember, List.map_nil, share, List.count_nil]
  omega

variable (site stem) in
theorem World.load_withoutTask {position : Nat} {task : Task}
    (htask : w.memory.tasks[position]? = some task) :
    (w.withoutTask position).load site stem + share site stem task.pairs = w.load site stem := by
  have hsum : ((w.memory.tasks.eraseIdx position).map fun t ↦ share site stem t.pairs).sum +
      share site stem task.pairs = _ := sum_map_eraseIdx htask
  rw [World.load, World.load, ← hsum]
  exact Nat.add_assoc _ _ _

/-- Requests that are common leave what is to be done as it is. -/
theorem World.memory_common (h : r.IsCommon site stem) (hw : w.perform settings r = (answer, w')) :
    w'.memory.tasks = w.memory.tasks ∧ w'.memory.deferred = w.memory.deferred := by
  obtain rfl : _ = w' := congrArg Prod.snd hw
  cases r with
  | dumpHeap path => exact h.elim
  | defer job => exact h.elim
  | takeDeferred => exact h.elim
  | spawn task => exact h.elim
  | _ => exact ⟨rfl, rfl⟩

/-! ## What is known -/

/-- Whether all analyses that are still to be done are known. -/
structure Play.IsKnown (p : Play (custody site stem)) : Prop where
  tasks : ∀ t ∈ p.world.memory.tasks, Knows site stem t.pairs
  deferred : Knows site stem (p.world.memory.deferred.map Job.pair)
  parts : ∀ part ∈ p.cast, part.2 ≠ .wild

theorem Custody.given_of_knows {pairs : List DumpPair} (h : Knows site stem pairs) :
    Custody.given site stem pairs = .busy (share site stem pairs) .free := if_pos h

/-- What a thread hands on to a task is known. -/
theorem Custody.Step.knows_spawned (h : Custody.Step site stem o c r answer c') (hwild : c ≠ .wild)
    {t : Task} (ht : Moment.spawned? ⟨i, o, r, answer⟩ = some t) : Knows site stem t.pairs := by
  cases h with
  | wild => exact absurd rfl hwild
  | common h =>
      cases r with
      | spawn task => exact h.elim
      | _ => cases ht
  | spawn hknows =>
      obtain rfl := Option.some.inj ht
      exact hknows
  | _ => cases ht

/-- What a thread puts off is known. -/
theorem Custody.Step.knows_deferred (h : Custody.Step site stem o c r answer c')
    (hwild : c ≠ .wild) {job : Job} (hjob : Moment.deferred? ⟨i, o, r, answer⟩ = some job) :
    Knows site stem [job.pair] := by
  cases h with
  | wild => exact absurd rfl hwild
  | common h =>
      cases r with
      | defer job => exact h.elim
      | _ => cases hjob
  | defer hknows =>
      obtain rfl := Option.some.inj hjob
      exact hknows
  | _ => cases hjob

/-- Threads are lost sight of only if something unknown waits or is listed. -/
theorem Custody.Step.ne_wild (h : Custody.Step site stem o c r answer c') (hwild : c ≠ .wild)
    (hw : w.perform settings r = (answer, w')) (hproper : w.machine.files.IsProper)
    (hdeferred : Knows site stem (w.memory.deferred.map Job.pair)) : c' ≠ .wild := by
  have hanswer := congrArg Prod.fst hw
  cases h with
  | wild => exact absurd rfl hwild
  | common => exact hwild
  | claim => split <;> exact Custody.noConfusion
  | @list answer =>
      cases answer with
      | error e => exact Custody.noConfusion
      | ok found =>
          rw [Custody.listed, if_pos (Machine.isOrderly_filesIn hproper hanswer)]
          split <;> exact Custody.noConfusion
  | find => split <;> exact Custody.noConfusion
  | @take jobs =>
      obtain rfl : w.memory.deferred = jobs := hanswer
      rw [Custody.given_of_knows hdeferred]
      exact Custody.noConfusion
  | makeRoom => split <;> exact Custody.noConfusion
  | mark => split <;> exact Custody.noConfusion
  | _ => exact Custody.noConfusion

theorem Play.IsKnown.enter (h : p.IsKnown) (call : Call) : (p.enter (.call call)).IsKnown := by
  refine ⟨h.tasks, h.deferred, fun part hmem ↦ ?_⟩
  obtain hold | rfl := Play.mem_enter.1 hmem
  · exact h.parts part hold
  · exact Custody.noConfusion

theorem Play.IsKnown.begin (h : p.IsKnown) {position : Nat} {task : Task}
    (htask : p.world.memory.tasks[position]? = some task) :
    (Play.enter { p with world := p.world.withoutTask position } (.task task)).IsKnown := by
  refine ⟨fun t ht ↦ h.tasks t (List.eraseIdx_subset ht), h.deferred, fun part hmem ↦ ?_⟩
  obtain hold | rfl := Play.mem_enter.1 hmem
  · exact h.parts part hold
  · have hgiven := Custody.given_of_knows (h.tasks task (List.mem_of_getElem? htask))
    exact fun hwild ↦ nomatch hgiven.symm.trans hwild

theorem Play.IsKnown.answered (h : p.IsKnown) (hpart : p.cast[i]? = some (o, c))
    (hstep : Custody.Step site stem o c r answer c')
    (hw : p.world.perform settings r = (answer, w')) (hproper : p.world.machine.files.IsProper) :
    (p.answered i o c' w' r answer).IsKnown := by
  have hwild : c ≠ .wild := h.parts (o, c) (List.mem_of_getElem? hpart)
  constructor
  case tasks =>
    intro t ht
    change t ∈ w'.memory.tasks at ht
    rw [World.tasks_perform hw i o] at ht
    obtain hold | hnew := List.mem_append.1 ht
    · exact h.tasks t hold
    · exact hstep.knows_spawned hwild (Option.mem_toList.1 hnew)
  case deferred =>
    change Knows site stem (w'.memory.deferred.map Job.pair)
    rw [World.deferred_perform hw i o, Moment.onQueue]
    split
    · exact knows_nil site stem
    · rw [List.map_append]
      refine h.deferred.append fun pair hpair ↦ ?_
      obtain ⟨job, hjob, rfl⟩ := List.mem_map.1 hpair
      exact hstep.knows_deferred hwild (Option.mem_toList.1 hjob) _ List.mem_cons_self
  case parts =>
    intro part hmem
    obtain hold | rfl := Play.mem_answered hmem
    · exact h.parts part hold
    · exact hstep.ne_wild hwild hw hproper h.deferred

/-! ## What is up to the threads -/

/-- How many analyses of a dump that was marked may be begun. -/
def Grip.load : Grip → Nat
  | .marked => 1
  | _ => 0

/-- How many analyses of the dump a thread may begin. -/
def Custody.load : Custody → Nat
  | .busy n grip => n + grip.load
  | _ => 0

/-- What waits goes from the memory to the thread that takes it. -/
theorem World.load_given (w : World) (h : Knows site stem (w.memory.deferred.map Job.pair)) :
    (w.remember ({ · with deferred := [] })).load site stem +
      (Custody.given site stem (w.memory.deferred.map Job.pair)).load = w.load site stem := by
  rw [Custody.given_of_knows h]
  exact w.load_take site stem

theorem Custody.load_listed (answer : Except FileError (List (String × Bool))) :
    (Custody.listed stem answer).load = 0 := by
  cases answer with
  | error e => rfl
  | ok found =>
      rw [Custody.listed]
      split
      next => split <;> rfl
      next => rfl

/-- How many analyses of the dump some threads may begin. -/
def castLoad (cast : List (Origin × Custody)) : Nat := (cast.map fun part ↦ part.2.load).sum

theorem castLoad_snoc (cast : List (Origin × Custody)) (part : Origin × Custody) :
    castLoad (cast ++ [part]) = castLoad cast + part.2.load := by
  rw [castLoad, List.map_append, List.sum_append, List.map_singleton, List.sum_singleton, castLoad]

theorem castLoad_set {cast : List (Origin × Custody)} (h : cast[i]? = some (o, c)) :
    castLoad (cast.set i (o, c')) + c.load = castLoad cast + c'.load := sum_map_set h (o, c')

theorem load_le_castLoad {cast : List (Origin × Custody)} (h : cast[i]? = some (o, c)) :
    c.load ≤ castLoad cast := by
  have hgone : castLoad (cast.set i (o, .wild)) + c.load = castLoad cast := castLoad_set h
  omega

/-- How many analyses of the dump may be begun. -/
def Play.load (p : Play (custody site stem)) : Nat := p.world.load site stem + castLoad p.cast

/-! ## What a step does to the account -/

/-- How many analyses of the dump a request begins. -/
def Moment.begun (site : Site) (stem : String) (x : Moment) : Nat :=
  if x.analysed? = some (site.store.pairOf stem).hprof then 1 else 0

/-- How often a request makes the dump. -/
def Moment.made (site : Site) (stem : String) (x : Moment) : Nat :=
  if x.dumped? = some (site.store.pairOf stem).hprof then 1 else 0

/-- Whoever listed the dump may find that it has an analysis to do, and no other step adds one that
making the dump does not bring. -/
theorem Custody.Step.account (hstep : Custody.Step site stem o c r answer c')
    (hadmits : site.Admits stem) (hwild : c ≠ .wild) (hstays : c = .sorting → c' = .sorting)
    (hw : w.perform settings r = (answer, w'))
    (hdeferred : Knows site stem (w.memory.deferred.map Job.pair)) :
    w'.load site stem + c'.load + Moment.begun site stem ⟨i, o, r, answer⟩ ≤
      w.load site stem + c.load + Moment.made site stem ⟨i, o, r, answer⟩ := by
  have hworld := congrArg Prod.snd hw
  have hanswer := congrArg Prod.fst hw
  have hidle (hnone : Moment.analysed? ⟨i, o, r, answer⟩ ≠ some (site.store.pairOf stem).hprof)
      (hload : w'.load site stem + c'.load ≤ w.load site stem + c.load) :
      w'.load site stem + c'.load + Moment.begun site stem ⟨i, o, r, answer⟩ ≤
        w.load site stem + c.load + Moment.made site stem ⟨i, o, r, answer⟩ := by
    rw [Moment.begun, if_neg hnone]
    exact Nat.le_trans hload (Nat.le_add_right _ _)
  cases hstep with
  | wild => exact absurd rfl hwild
  | common hcommon =>
      obtain ⟨htasks, hdeferred'⟩ := World.memory_common hcommon hw
      refine hidle (hcommon.isSilent hadmits i o answer).analysed ?_
      rw [World.load_eq htasks hdeferred']
  | claim =>
      obtain rfl : _ = w' := hworld
      refine hidle nofun (Nat.add_le_add_left ?_ _)
      split <;> exact Nat.le_refl _
  | list =>
      obtain rfl : _ = w' := hworld
      refine hidle nofun (Nat.add_le_add_left ?_ _)
      rw [Custody.load_listed]
      exact Nat.zero_le _
  | find =>
      have hsorting := hstays rfl
      split at hsorting <;> cases hsorting
  | @take jobs =>
      obtain rfl : _ = w' := hworld
      obtain rfl : w.memory.deferred = jobs := hanswer
      exact hidle nofun (Nat.le_of_eq (w.load_given hdeferred))
  | @spawn n grip task hknows hle =>
      obtain rfl : _ = w' := hworld
      have hload := w.load_spawn site stem task
      refine hidle nofun ?_
      change (w.remember fun m ↦ { m with tasks := m.tasks ++ [task] }).load site stem +
        (n - share site stem task.pairs + grip.load) ≤ _ + (n + grip.load)
      omega
  | @defer n grip job hknows hle =>
      obtain rfl : _ = w' := hworld
      have hload := w.load_defer site stem job
      refine hidle nofun ?_
      change (w.remember fun m ↦ { m with deferred := m.deferred ++ [job] }).load site stem +
        (n - share site stem [job.pair] + grip.load) ≤ _ + (n + grip.load)
      omega
  | makeRoom =>
      obtain rfl : _ = w' := hworld
      refine hidle nofun (Nat.add_le_add_left ?_ _)
      split <;> exact Nat.le_refl _
  | @dump answer =>
      obtain rfl : _ = w' := hworld
      have hmade : Moment.made site stem ⟨i, o, .dumpHeap (site.store.pairOf stem).hprof, answer⟩ =
          1 := if_pos rfl
      rw [hmade]
      exact Nat.le_refl _
  | dumpOther =>
      obtain rfl : _ = w' := hworld
      exact hidle nofun (Nat.le_refl _)
  | @mark n grip written =>
      obtain rfl : _ = w' := hworld
      refine hidle nofun (Nat.add_le_add_left ?_ _)
      cases written with
      | ok u => exact Nat.le_add_right (n + 1) grip.load
      | error e => exact Nat.le_refl _
  | @serve n answer =>
      obtain rfl : _ = w' := hworld
      have hbegun : Moment.begun site stem
          ⟨i, o, .service (.size (site.store.pairOf stem).hprof), answer⟩ = 1 := if_pos rfl
      rw [hbegun]
      exact Nat.le_refl _
  | report =>
      obtain rfl : _ = w' := hworld
      exact hidle nofun (Nat.le_refl _)
  | @remove n m grip _ hle =>
      obtain rfl : _ = w' := hworld
      refine hidle nofun (Nat.add_le_add_left ?_ _)
      exact Nat.le_trans hle (Nat.le_add_right n grip.load)
  | clear =>
      obtain rfl : _ = w' := hworld
      exact hidle nofun (Nat.le_refl _)

theorem Play.IsKnown.account (h : p.IsKnown) (hadmits : site.Admits stem)
    (hpart : p.cast[i]? = some (o, c)) (hstep : Custody.Step site stem o c r answer c')
    (hstays : c = .sorting → c' = .sorting) (hw : p.world.perform settings r = (answer, w')) :
    (p.answered i o c' w' r answer).load + Moment.begun site stem ⟨i, o, r, answer⟩ ≤
      p.load + Moment.made site stem ⟨i, o, r, answer⟩ := by
  have hcast : castLoad (p.answered i o c' w' r answer).cast + c.load = castLoad p.cast + c'.load :=
    castLoad_set hpart
  have hbalance := hstep.account (i := i) hadmits (h.parts _ (List.mem_of_getElem? hpart)) hstays hw
    h.deferred
  change w'.load site stem + castLoad (p.answered i o c' w' r answer).cast + _ ≤
    p.world.load site stem + castLoad p.cast + _
  omega

end HeapSentry.Supervisor
