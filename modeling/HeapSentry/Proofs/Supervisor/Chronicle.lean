import HeapSentry.Proofs.Lists
import HeapSentry.Proofs.Supervisor.Scenes

/-!
# What a history tells

From the requests alone it can be read which dumps were asked for, which analyses were put off and
taken up again, and what was published.  The memory agrees with that.
-/

namespace HeapSentry.Supervisor

open Storage

/-- Whether a thread takes up analyses of earlier runs. -/
def Origin.reanalyzes : Origin → Bool
  | .task (.reanalyze _) => true
  | _ => false

def Task.flushes : Task → Bool
  | .flush _ => true
  | _ => false

def Origin.flushes : Origin → Bool
  | .task t => t.flushes
  | .call _ => false

namespace Moment

/-- Where a dump was asked for. -/
def dumped? (m : Moment) : Option String :=
  match m.request with
  | .dumpHeap path => some path
  | _ => none

/-- The analysis that was put off. -/
def deferred? (m : Moment) : Option Job :=
  match m.request with
  | .defer job => some job
  | _ => none

/-- The analyses that were taken from those that wait. -/
def taken? : Moment → Option (List Job)
  | ⟨_, _, .takeDeferred, jobs⟩ => some jobs
  | _ => none

/-- The analyses that were entrusted to a task. -/
def entrusted? (m : Moment) : Option (List Job) :=
  match m.request with
  | .spawn (.flush jobs) => some jobs
  | _ => none

/-- The dump whose analysis was begun, if it is none of an earlier run. -/
def served? (m : Moment) : Option String :=
  match m.request with
  | .service (.size path) => if m.origin.reanalyzes then none else some path
  | _ => none

def published? (m : Moment) : Option Outcome :=
  match m.request with
  | .publish outcome => some outcome
  | _ => none

def spawned? (m : Moment) : Option Task :=
  match m.request with
  | .spawn task => some task
  | _ => none

/-- Whether the dumps of earlier runs were listed. -/
def listsDumps (store : DumpStore) (m : Moment) : Bool :=
  match m.request with
  | .machine (.entries dir) => dir = store.analysisDir
  | _ => false

/-- What becomes of the analyses that wait. -/
def onQueue (jobs : List Job) (m : Moment) : List Job :=
  if m.taken?.isSome then [] else jobs ++ m.deferred?.toList

end Moment

def dumps (history : List Moment) : List String := history.filterMap Moment.dumped?

def deferrals (history : List Moment) : List Job := history.filterMap Moment.deferred?

def takings (history : List Moment) : List (List Job) := history.filterMap Moment.taken?

def entrusted (history : List Moment) : List (List Job) := history.filterMap Moment.entrusted?

def services (history : List Moment) : List String := history.filterMap Moment.served?

def publications (history : List Moment) : List Outcome := history.filterMap Moment.published?

/-- What one of the threads has asked for. -/
def ofThread (i : Nat) (history : List Moment) : List Moment := history.filter (·.thread = i)

/-- The analyses that wait after some history. -/
def queue (history : List Moment) : List Job := history.foldl Moment.onQueue []

theorem queue_snoc (history : List Moment) (m : Moment) :
    queue (history ++ [m]) = m.onQueue (queue history) := List.foldl_concat ..

/-- What waits was put off. -/
theorem queue_subset (history : List Moment) : queue history ⊆ deferrals history := by
  induction history using List.reverseRecOn with
  | nil => exact List.Subset.refl _
  | append_singleton history m ih =>
      rw [queue_snoc, deferrals, filterMap_snoc, Moment.onQueue]
      split
      · exact List.nil_subset _
      · intro job hjob
        obtain hold | hnew := List.mem_append.1 hjob
        · exact List.mem_append_left _ (ih hold)
        · exact List.mem_append_right _ hnew

/-- As long as nothing is put off, what waits is taken by the first that asks for it. -/
theorem takings_of_no_deferrals {history : List Moment} {waiting : List Job}
    (hnone : deferrals history = [])
    (htaken : ∀ earlier m later jobs, history = earlier ++ m :: later → m.taken? = some jobs →
      jobs = earlier.foldl Moment.onQueue waiting) :
    takings history = [] ∨
      ∃ others, takings history = waiting :: others ∧ ∀ jobs ∈ others, jobs = [] := by
  induction history generalizing waiting with
  | nil => exact .inl rfl
  | cons m history ih =>
      have hm : m.deferred? = none := by
        cases h : m.deferred? with
        | none => rfl
        | some job => simp [deferrals, h] at hnone
      have hrest : deferrals history = [] := by simpa [deferrals, hm] using hnone
      have hnext := @ih (m.onQueue waiting) hrest fun earlier m' later jobs h ↦
        htaken (m :: earlier) m' later jobs (by rw [h, List.cons_append])
      cases hjobs : m.taken? with
      | none =>
          have hsame : m.onQueue waiting = waiting := by simp [Moment.onQueue, hjobs, hm]
          have htakings : takings (m :: history) = takings history := by simp [takings, hjobs]
          rwa [hsame, ← htakings] at hnext
      | some jobs =>
          have hempty : m.onQueue waiting = [] := by simp [Moment.onQueue, hjobs]
          obtain rfl : jobs = waiting := htaken [] m history jobs rfl hjobs
          refine .inr ⟨takings history, by simp [takings, hjobs], ?_⟩
          rw [hempty] at hnext
          obtain hnil | ⟨others, hothers, hall⟩ := hnext
          · simp [hnil]
          · simpa [hothers] using hall

/-! ## Histories of scenes -/

theorem World.memory_dumpHeap (w : World) (path : String) :
    (w.dumpHeap path).2.memory = w.memory := rfl

variable {settings : Settings} {w w' : World} {r : Request} {answer : Answer r}

theorem World.deferred_perform (hw : w.perform settings r = (answer, w')) (i : Nat) (o : Origin) :
    w'.memory.deferred = Moment.onQueue w.memory.deferred ⟨i, o, r, answer⟩ := by
  obtain rfl : _ = w' := congrArg Prod.snd hw
  cases r with
  | dumpHeap path =>
      have hsame := congrArg Memory.deferred (w.memory_dumpHeap path)
      exact hsame.trans (List.append_nil _).symm
  | defer job => rfl
  | takeDeferred => rfl
  | _ => exact (List.append_nil _).symm

theorem World.outcome_perform (hw : w.perform settings r = (answer, w')) (i : Nat) (o : Origin) :
    w'.memory.outcome =
      (Moment.published? ⟨i, o, r, answer⟩).or w.memory.outcome := by
  obtain rfl : _ = w' := congrArg Prod.snd hw
  cases r with
  | dumpHeap path => exact congrArg Memory.outcome (w.memory_dumpHeap path)
  | _ => rfl

theorem World.tasks_perform (hw : w.perform settings r = (answer, w')) (i : Nat) (o : Origin) :
    w'.memory.tasks = w.memory.tasks ++ (Moment.spawned? ⟨i, o, r, answer⟩).toList := by
  obtain rfl : _ = w' := congrArg Prod.snd hw
  cases r with
  | dumpHeap path =>
      have hsame := congrArg Memory.tasks (w.memory_dumpHeap path)
      exact hsame.trans (List.append_nil _).symm
  | spawn task => rfl
  | _ => exact (List.append_nil _).symm

theorem World.taken_perform (hw : w.perform settings r = (answer, w')) {i : Nat} {o : Origin}
    {jobs : List Job} (h : Moment.taken? ⟨i, o, r, answer⟩ = some jobs) :
    jobs = w.memory.deferred := by
  obtain rfl : _ = answer := congrArg Prod.fst hw
  cases r with
  | takeDeferred => exact (Option.some.inj h).symm
  | _ => cases h

/-- Whether the memory agrees with the history. -/
structure Scene.IsRecorded (s : Scene) : Prop where
  deferred : s.world.memory.deferred = queue s.history
  outcome : s.world.memory.outcome = (publications s.history).getLast?
  taken : ∀ earlier m later jobs, s.history = earlier ++ m :: later → m.taken? = some jobs →
    jobs = queue earlier

/-- What is kept when a thread begins, when a task is taken, when the surroundings change and when a
thread asks for something is kept by all moves. -/
theorem Scene.run_induction {setup : Setup} {Inv : Scene → Prop}
    (henter : ∀ s o, Inv s → Inv (s.enter setup o))
    (hbegin : ∀ s position, Inv s → Inv { s with world := s.world.withoutTask position })
    (hsurround : ∀ s machine host process, Inv s →
      Inv { s with world := s.world.surrounded machine host process })
    (hask : ∀ s i o r next, Inv s → Inv (s.ask setup i o r next))
    {s : Scene} (hs : Inv s) (moves : List Move) : Inv (s.run setup moves) := by
  induction moves generalizing s with
  | nil => exact hs
  | cons move moves ih =>
      refine ih ?_
      cases move with
      | call c => exact henter _ _ hs
      | begin position =>
          rw [Scene.handle]
          split
          · exact hs
          · exact henter _ _ (hbegin _ _ hs)
      | step i =>
          rw [Scene.handle]
          split
          · exact hask _ _ _ _ _ hs
          · exact hs
      | surround machine host process => exact hsurround _ _ _ _ hs

theorem Scene.IsRecorded.ask {setup : Setup} {s : Scene} (h : s.IsRecorded) (i : Nat) (o : Origin)
    (r : Request) (next : Answer r → Supervised Unit) : (s.ask setup i o r next).IsRecorded where
  deferred := by
    rw [Scene.ask, queue_snoc, ← h.deferred]
    exact World.deferred_perform rfl i o
  outcome := by
    have hlast (outcome : Option Outcome) : outcome.toList.getLast? = outcome := by
      cases outcome <;> rfl
    rw [Scene.ask, publications, filterMap_snoc, List.getLast?_append, hlast, ← publications,
      ← h.outcome]
    exact World.outcome_perform rfl i o
  taken earlier m later jobs hsplit hm := by
    obtain ⟨rfl, rfl, -⟩ | ⟨before, -, hold⟩ := snoc_eq_append_cons hsplit
    · rw [← h.deferred]
      exact World.taken_perform rfl hm
    · exact h.taken earlier m before jobs hold hm

theorem Scene.history_run_isPrefix (setup : Setup) (s : Scene) (moves : List Move) :
    s.history <+: (s.run setup moves).history := by
  have hask (later : Scene) (i : Nat) (o : Origin) (r : Request)
      (next : Answer r → Supervised Unit) (h : s.history <+: later.history) :
      s.history <+: (later.ask setup i o r next).history := h.trans (List.prefix_append _ _)
  exact Scene.run_induction (fun _ _ h ↦ h) (fun _ _ h ↦ h) (fun _ _ _ _ h ↦ h) hask
    List.prefix_rfl moves

theorem Scene.isRecorded_run (setup : Setup) {s : Scene} (h : s.IsRecorded) (moves : List Move) :
    (s.run setup moves).IsRecorded := by
  refine Scene.run_induction (fun _ _ h ↦ ?_) (fun _ _ h ↦ ?_) (fun _ _ _ _ h ↦ ?_)
    (fun _ i o r next h ↦ h.ask i o r next) h moves
  · exact ⟨h.deferred, h.outcome, h.taken⟩
  · exact ⟨h.deferred, h.outcome, h.taken⟩
  · exact ⟨h.deferred, h.outcome, h.taken⟩

end HeapSentry.Supervisor
