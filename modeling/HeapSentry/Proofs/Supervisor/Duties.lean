import HeapSentry.Proofs.Pressure.Calls
import HeapSentry.Proofs.Supervisor.Footprints

/-!
# The duties of threads

What matters of a thread is its part in handling the dump, the analyses that wait and what earlier
runs left.  Every call and every task keeps to these parts.
-/

namespace HeapSentry.Supervisor

open Pressure Report Storage Supervised

/-- How far an analysis is. -/
inductive Progress where
  | waiting | counted
  /-- It was begun. -/
  | served
  deriving DecidableEq

inductive Duty where
  | idle
  /-- To sort out what earlier runs left, if nobody has done it. -/
  | starting
  | recovering
  | sorting
  /-- To take what waits. -/
  | returning
  | carrying (jobs : List Job)
  | polling
  | triggered
  | claimed
  /-- To have the heap dumped. -/
  | handing
  /-- To analyse the dump. -/
  | holding (hprof : String) (progress : Progress)
  | flushing (jobs : List Job) (progress : Progress)
  | reanalyzing

namespace Duty

def opening : Origin → Duty
  | .call (.start _) => .starting
  | .call (.foreground true) => .returning
  | .call _ => .idle
  | .task (.poll _) => .polling
  | .task (.handOff _) => .handing
  | .task (.reanalyze _) => .reanalyzing
  | .task (.flush jobs) => .flushing jobs .waiting

/-- Whether nothing has to follow. -/
def IsDone : Duty → Prop
  | .returning | .carrying (_ :: _) | .triggered | .claimed | .handing | .holding _ _ => False
  | .flushing (_ :: _) _ => False
  | _ => True

end Duty

/-- Whether a request is of no concern to the handling of dumps. -/
def Request.IsPlain : Request → Prop
  | .machine (.entries _) | .service (.size _) | .poll _ | .claimLaunch | .claimRecovery
  | .dumpHeap _ | .defer _ | .takeDeferred | .countAnalysis | .publish _ | .spawn (.handOff _)
  | .spawn (.flush _) => False
  | _ => True

/-- Whether an outcome is one of a dump. -/
def Outcome.Concerns (pair : DumpPair) : Outcome → Prop
  | .finished path => path = pair.json
  | .failed _ | .emptyDump => True

inductive Duty.Step (setup : Setup) :
    Origin → Duty → (r : Request) → Answer r → Duty → Prop where
  | plain {o : Origin} {duty : Duty} {r : Request} {answer : Answer r} (h : r.IsPlain) :
      Step setup o duty r answer duty
  | claimRecovery {inRuntime granted : Bool} :
      Step setup (.call (.start inRuntime)) .starting .claimRecovery granted
        (if granted then .recovering else .idle)
  | listDumps {inRuntime : Bool} {answer : Except FileError (List (String × Bool))} :
      Step setup (.call (.start inRuntime)) .recovering
        (.machine (.entries setup.store.analysisDir)) answer .sorting
  | listManual {inRuntime : Bool} {answer : Except FileError (List (String × Bool))} :
      Step setup (.call (.start inRuntime)) .sorting
        (.machine (.entries setup.store.manualDir)) answer .idle
  | takeDeferred {jobs : List Job} :
      Step setup (.call (.foreground true)) .returning .takeDeferred jobs (.carrying jobs)
  | flush {jobs : List Job} (h : jobs ≠ []) :
      Step setup (.call (.foreground true)) (.carrying jobs) (.spawn (.flush jobs)) () .idle
  | poll {generation : Nat} {nowMs : Int} {outcome : PollOutcome} :
      Step setup (.task (.poll generation)) .polling (.poll nowMs) outcome
        (if outcome.isTrigger then .triggered else .idle)
  | claimLaunch {generation : Nat} {granted : Bool} :
      Step setup (.task (.poll generation)) .triggered .claimLaunch granted
        (if granted then .claimed else .idle)
  | handOff {generation : Nat} {reason : String} :
      Step setup (.task (.poll generation)) .claimed (.spawn (.handOff reason)) () .idle
  | dump {reason path : String} {answer : Except ProbeError Unit} :
      Step setup (.task (.handOff reason)) .handing (.dumpHeap path) answer
        (.holding path .waiting)
  | giveUp {reason message : String} :
      Step setup (.task (.handOff reason)) .handing (.publish (.failed message)) () .idle
  | count {reason path : String} {ledger : Ledger} :
      Step setup (.task (.handOff reason)) (.holding path .waiting) .countAnalysis ledger
        (.holding path .counted)
  | serve {reason path : String} {answer : Except FileError Nat} :
      Step setup (.task (.handOff reason)) (.holding path .counted) (.service (.size path)) answer
        (.holding path .served)
  | defer {reason path : String} {job : Job} (h : job.pair = .ofHprof path) :
      Step setup (.task (.handOff reason)) (.holding path .waiting) (.defer job) () .idle
  | publish {reason path : String} {progress : Progress} {outcome : Outcome}
      (h : outcome.Concerns (.ofHprof path)) :
      Step setup (.task (.handOff reason)) (.holding path progress) (.publish outcome) () .idle
  | countFlushed {all jobs : List Job} {job : Job} {ledger : Ledger} :
      Step setup (.task (.flush all)) (.flushing (job :: jobs) .waiting) .countAnalysis ledger
        (.flushing (job :: jobs) .counted)
  | serveFlushed {all jobs : List Job} {job : Job} {answer : Except FileError Nat} :
      Step setup (.task (.flush all)) (.flushing (job :: jobs) .counted)
        (.service (.size job.pair.hprof)) answer (.flushing (job :: jobs) .served)
  | publishFlushed {all jobs : List Job} {job : Job} {progress : Progress} {outcome : Outcome}
      (h : outcome.Concerns job.pair) :
      Step setup (.task (.flush all)) (.flushing (job :: jobs) progress) (.publish outcome) ()
        (.flushing jobs .waiting)
  | countAgain {pairs : List DumpPair} {ledger : Ledger} :
      Step setup (.task (.reanalyze pairs)) .reanalyzing .countAnalysis ledger .reanalyzing
  | serveAgain {pairs : List DumpPair} {path : String} {answer : Except FileError Nat} :
      Step setup (.task (.reanalyze pairs)) .reanalyzing (.service (.size path)) answer
        .reanalyzing

/-- The rules by which the dump is handled. -/
def duties (setup : Setup) : Rules where
  Role := Duty
  opening := Duty.opening
  Step := Duty.Step setup
  Closing _ duty := duty.IsDone

/-! ## Activities -/

variable {setup : Setup} {o : Origin} {duty : Duty} {α : Type} {Q : α → Prop}

theorem Request.Within.isPlain {files : String → Prop} {r : Request} (h : r.Within files) :
    r.IsPlain := by
  cases r with
  | machine r =>
      cases r with
      | entries dir => exact h
      | _ => trivial
  | host => trivial
  | sighting => trivial
  | announce event => trivial
  | _ => exact h.elim

theorem Request.IsQuiet.isPlain {r : Request} (h : r.IsQuiet) : r.IsPlain := by
  cases r with
  | service r =>
      cases r with
      | size path => exact h
      | _ => trivial
  | _ => exact h.elim

theorem returns_fail (pair : Option DumpPair) (e : AnalysisError) :
    (fail pair e).Returns fun outcome ↦ ∃ message, outcome = .failed message := by
  have htell : (announce (.failed e) >>= fun _ ↦
      (pure (.failed e.message) : Supervised Outcome)).Returns
        fun outcome ↦ ∃ message, outcome = .failed message :=
    Activity.returns_bind fun _ ↦ ⟨_, rfl⟩
  cases pair with
  | none => exact htell
  | some pair => exact Activity.returns_bind fun _ ↦ htell

theorem returns_deliver (pair : DumpPair) (r : Report) :
    (deliver setup pair r).Returns (Outcome.Concerns pair) := by
  refine Activity.returns_bind fun _ ↦ Activity.returns_bind fun _ ↦ ?_
  exact Activity.returns_bind fun _ ↦ rfl

theorem follows_plain {a : Supervised α} (ha : a.Asks Request.IsPlain) (hQ : a.Returns Q) :
    (duties setup).Follows o (fun d x ↦ d = duty ∧ Q x) a duty :=
  (duties setup).follows_of_asks (fun _ _ h ↦ .plain h) ha hQ

theorem follows_within {files : String → Prop} {a : Supervised α}
    (ha : a.Asks (Request.Within files)) (hQ : a.Returns Q) :
    (duties setup).Follows o (fun d x ↦ d = duty ∧ Q x) a duty :=
  follows_plain (ha.imp fun _ ↦ Request.Within.isPlain) hQ

/-- An activity that looks around and changes files only, whatever it answers. -/
theorem follows_within_bind {β : Type} {files : String → Prop} {a : Supervised α}
    {f : α → Supervised β} {P : Duty → β → Prop} (ha : a.Asks (Request.Within files))
    (hf : ∀ x, (duties setup).Follows o P (f x) duty) :
    (duties setup).Follows o P (a >>= f) duty := by
  refine Rules.follows_bind (follows_within ha a.returns_trivial) ?_
  rintro _ x ⟨rfl, -⟩
  exact hf x

theorem follows_fail (pair : Option DumpPair) (e : AnalysisError) :
    (duties setup).Follows o (fun d outcome ↦ d = duty ∧ ∃ message, outcome = .failed message)
      (fail pair e) duty :=
  follows_within (asks_fail pair e) (returns_fail pair e)

theorem follows_report (job : Job) {served : Duty}
    (hserve : ∀ answer, Duty.Step setup o duty (.service (.size job.pair.hprof)) answer served) :
    (duties setup).Follows o (fun d _ ↦ d = served) (report setup job) duty := by
  have hanalyze : (duties setup).Follows o (fun d _ ↦ d = served)
      (inService (setup.analyst.analyze job.pair.hprof job.info)) duty := by
    rw [Analyst.analyze_eq, inService, Activity.through_bind]
    refine Rules.follows_request fun size ↦ ⟨served, hserve size, ?_⟩
    refine (follows_plain ((asks_inService (Analyst.asks_proceed _ _ _ size)).imp fun _ ↦
      Request.IsQuiet.isPlain) (Activity.returns_trivial _)).imp ?_
    exact fun _ _ h ↦ h.1
  refine Rules.follows_bind hanalyze ?_
  rintro _ result rfl
  cases result with
  | error e => exact (duties setup).follows_pure rfl
  | ok r =>
      refine follows_within_bind (asks_onMachine (asks_save _ _)) fun _ ↦ ?_
      exact (duties setup).follows_pure rfl

/-- An analysis is counted and begun at most once and gives an outcome of its dump. -/
theorem follows_analyze (job : Job) {counted served : Duty}
    (hcount : ∀ ledger, Duty.Step setup o duty .countAnalysis ledger counted)
    (hserve : ∀ answer,
      Duty.Step setup o counted (.service (.size job.pair.hprof)) answer served) :
    (duties setup).Follows o
      (fun d outcome ↦ (d = duty ∨ d = served) ∧ outcome.Concerns job.pair)
      (analyze setup job) duty := by
  have hfail (d : Duty) (hd : d = duty ∨ d = served) (e : AnalysisError) :
      (duties setup).Follows o
        (fun d outcome ↦ (d = duty ∨ d = served) ∧ outcome.Concerns job.pair)
        (fail job.pair e) d := by
    refine (follows_fail (some job.pair) e).imp ?_
    rintro _ _ ⟨rfl, message, rfl⟩
    exact ⟨hd, trivial⟩
  have hmark : (onMachine job.pair.markInProgress).Asks (Request.Within fun _ ↦ True) :=
    Activity.asks_request trivial
  refine follows_within_bind hmark fun marked ↦ ?_
  cases marked with
  | error e => exact hfail duty (.inl rfl) _
  | ok u =>
      refine Rules.follows_request fun ledger ↦ ⟨counted, hcount ledger, ?_⟩
      refine follows_within_bind (asks_saveLedger setup ledger) fun _ ↦ ?_
      refine Rules.follows_bind (follows_report job hserve) ?_
      rintro _ result rfl
      cases result with
      | error e => exact hfail _ (.inr rfl) e
      | ok r =>
          refine (follows_within (asks_deliver setup job.pair r) (returns_deliver _ r)).imp ?_
          rintro _ outcome ⟨rfl, h⟩
          exact ⟨.inr rfl, h⟩

/-- What a hand-off can end with. -/
def Duty.HandsOver : Duty → Option Outcome → Prop
  | .handing, some outcome => ∃ message, outcome = .failed message
  | .holding path _, some outcome => outcome.Concerns (.ofHprof path)
  | .idle, none => True
  | _, _ => False

theorem follows_take (reason path : String) (info : RunningInfo) :
    (duties setup).Follows (.task (.handOff reason)) Duty.HandsOver
      (take setup (.ofHprof path) info) (.holding path .waiting) := by
  have hsize : (onMachine (OnMachine.size path)).Asks (Request.Within fun _ ↦ True) :=
    Activity.asks_request trivial
  refine follows_within_bind hsize fun answer ↦ ?_
  extract_lets size job
  by_cases hempty : size = 0
  · rw [if_pos hempty]
    refine follows_within_bind (asks_onMachine (DumpPair.asks_delete _)) fun _ ↦ ?_
    exact (duties setup).follows_pure trivial
  · rw [if_neg hempty]
    refine Rules.follows_request fun host ↦ ⟨_, .plain trivial, ?_⟩
    split
    · refine Rules.follows_bind (follows_analyze job (fun _ ↦ .count) fun _ ↦ .serve) ?_
      rintro d outcome ⟨rfl | rfl, h⟩
      · exact (duties setup).follows_pure h
      · exact (duties setup).follows_pure h
    · refine Rules.follows_request fun _ ↦ ⟨_, .defer rfl, ?_⟩
      exact (duties setup).follows_pure trivial

theorem returns_newPair (version : String) (nowMs : Int) :
    (setup.store.newPair version nowMs).Returns fun made ↦
      ∀ pair, made = .ok pair → ∃ hprof, pair = .ofHprof hprof := by
  refine Activity.returns_bind fun made ↦ ?_
  cases made with
  | error e => rintro _ ⟨⟩
  | ok u =>
      rintro _ ⟨⟩
      exact ⟨_, rfl⟩

theorem follows_handOff (reason : String) :
    (duties setup).Follows (.task (.handOff reason)) Duty.HandsOver (handOff setup reason)
      .handing := by
  have hclock : wallClock.Asks (Request.Within fun _ ↦ True) := Activity.asks_request trivial
  refine follows_within_bind (asks_circumstances setup reason fun _ ↦ True) fun info ↦ ?_
  refine follows_within_bind hclock fun nowMs ↦ ?_
  refine Rules.follows_bind (follows_within (asks_onMachine (DumpStore.asks_newPair _ _ nowMs))
    (Activity.returns_through (returns_newPair _ nowMs))) ?_
  rintro _ made ⟨rfl, hmade⟩
  cases made with
  | error e =>
      refine Rules.follows_bind (follows_fail _ _) ?_
      rintro _ outcome ⟨rfl, h⟩
      exact (duties setup).follows_pure h
  | ok pair =>
      obtain ⟨hprof, rfl⟩ := hmade pair rfl
      refine Rules.follows_request fun dumped ↦ ⟨_, .dump, ?_⟩
      cases dumped with
      | error e =>
          refine Rules.follows_bind (follows_fail _ _) ?_
          rintro _ outcome ⟨rfl, message, rfl⟩
          exact (duties setup).follows_pure trivial
      | ok u => exact follows_take reason hprof info

theorem follows_flush (all jobs : List Job) :
    (duties setup).Follows (.task (.flush all)) (fun d _ ↦ d.IsDone) (flush setup jobs)
      (.flushing jobs .waiting) := by
  induction jobs with
  | nil => exact (duties setup).follows_pure trivial
  | cons job jobs ih =>
      refine Rules.follows_bind
        (follows_analyze job (fun _ ↦ .countFlushed) fun _ ↦ .serveFlushed) ?_
      rintro d outcome ⟨rfl | rfl, h⟩
      · exact Rules.follows_request fun _ ↦ ⟨_, .publishFlushed h, ih⟩
      · exact Rules.follows_request fun _ ↦ ⟨_, .publishFlushed h, ih⟩

theorem follows_reanalyze (all pairs : List DumpPair) :
    (duties setup).Follows (.task (.reanalyze all)) (fun d _ ↦ d = .reanalyzing)
      (reanalyze setup pairs) .reanalyzing := by
  induction pairs with
  | nil => exact (duties setup).follows_pure rfl
  | cons pair pairs ih =>
      refine follows_within_bind (asks_circumstances setup _ fun _ ↦ True) fun info ↦ ?_
      refine Rules.follows_bind (follows_analyze _ (fun _ ↦ .countAgain) fun _ ↦ .serveAgain) ?_
      rintro d outcome ⟨rfl | rfl, -⟩
      · exact ih
      · exact ih

theorem follows_listFiles {dir : String} {listed : Duty}
    (h : ∀ answer, Duty.Step setup o duty (.machine (.entries dir)) answer listed) :
    (duties setup).Follows o (fun d _ ↦ d = listed) (onMachine (DumpStore.listFiles dir)) duty := by
  intro answer
  refine ⟨listed, h answer, ?_⟩
  cases answer with
  | ok found => exact rfl
  | error e => cases e <;> exact rfl

theorem follows_scanStale (inRuntime : Bool) :
    (duties setup).Follows (.call (.start inRuntime)) (fun d _ ↦ d.IsDone)
      (onMachine (setup.store.scanStale setup.version)) .recovering := by
  rw [onMachine, DumpStore.scanStale, Activity.through_bind]
  refine Rules.follows_bind (follows_listFiles fun _ ↦ .listDumps) ?_
  rintro _ listed rfl
  cases listed with
  | error e => exact (duties setup).follows_pure trivial
  | ok paths =>
      simp only [Activity.through_bind]
      refine follows_within_bind (asks_onMachine (DumpStore.asks_sortOutAll _ _ paths))
        fun scan ↦ ?_
      refine Rules.follows_bind (follows_listFiles fun _ ↦ .listManual) ?_
      rintro _ manual rfl
      cases manual with
      | error e => exact (duties setup).follows_pure trivial
      | ok found => exact (duties setup).follows_pure trivial

theorem follows_recover (inRuntime : Bool) :
    (duties setup).Follows (.call (.start inRuntime)) (fun d _ ↦ d.IsDone) (recover setup)
      .recovering := by
  refine Rules.follows_bind (follows_scanStale inRuntime) ?_
  intro d scanned hd
  cases scanned with
  | error e =>
      have hlog (line : String) : (onMachine (OnMachine.log line)).Asks
          (Request.Within fun _ ↦ True) := Activity.asks_request trivial
      refine (follows_within (hlog _) (Activity.returns_trivial _)).imp ?_
      rintro _ _ ⟨rfl, -⟩
      exact hd
  | ok scan =>
      refine follows_within_bind (asks_uploadManual setup _) fun _ ↦ ?_
      split
      · exact Rules.follows_request fun _ ↦ ⟨_, .plain trivial, hd⟩
      · exact (duties setup).follows_pure hd

/-! ## Calls and tasks -/

theorem follows_start (inRuntime : Bool) :
    (duties setup).Follows (.call (.start inRuntime)) (fun d _ ↦ d.IsDone)
      (start setup inRuntime) .starting := by
  have hclock : wallClock.Asks (Request.Within fun _ ↦ True) := Activity.asks_request trivial
  have hspawn {d : Duty} (hd : d.IsDone) :
      (duties setup).Follows (.call (.start inRuntime)) (fun d _ ↦ d.IsDone)
        (generation >>= fun gen ↦ spawn (.poll gen) >>= fun _ ↦
          (pure (.ok true) : Supervised (Except CallError Bool))) d := by
    refine Rules.follows_request fun gen ↦ ⟨_, .plain trivial, ?_⟩
    refine Rules.follows_request fun _ ↦ ⟨_, .plain trivial, ?_⟩
    exact (duties setup).follows_pure hd
  cases inRuntime with
  | false => exact (duties setup).follows_pure trivial
  | true =>
      refine Rules.follows_request fun host ↦ ⟨_, .plain trivial, ?_⟩
      refine follows_within_bind hclock fun nowMs ↦ ?_
      refine Rules.follows_request fun result ↦ ⟨_, .plain trivial, ?_⟩
      refine follows_within_bind (asks_saveChanged setup _) fun _ ↦ ?_
      split
      · exact (duties setup).follows_pure trivial
      · refine Rules.follows_request fun granted ↦ ⟨_, .claimRecovery, ?_⟩
        cases granted with
        | false => exact hspawn trivial
        | true => exact Rules.follows_bind (follows_recover true) fun d _ hd ↦ hspawn hd

theorem follows_takeDeferred :
    (duties setup).Follows (.call (.foreground true)) (fun d _ ↦ d.IsDone)
      (takeDeferred >>= fun jobs ↦ match jobs with
        | [] => (pure (.ok ()) : Supervised (Except CallError Unit))
        | jobs => spawn (.flush jobs) >>= fun _ ↦ pure (.ok ())) .returning := by
  refine Rules.follows_request fun jobs ↦ ⟨_, .takeDeferred, ?_⟩
  cases jobs with
  | nil => exact (duties setup).follows_pure trivial
  | cons job jobs =>
      refine Rules.follows_request fun _ ↦ ⟨_, .flush (List.cons_ne_nil _ _), ?_⟩
      exact (duties setup).follows_pure trivial

theorem follows_foreground :
    (duties setup).Follows (.call (.foreground true)) (fun d _ ↦ d.IsDone)
      (onForeground setup true) .returning := by
  have hclock : wallClock.Asks (Request.Within fun _ ↦ True) := Activity.asks_request trivial
  refine Rules.follows_request fun host ↦ ⟨_, .plain trivial, ?_⟩
  refine follows_within_bind hclock fun nowMs ↦ ?_
  refine Rules.follows_request fun result ↦ ⟨_, .plain trivial, ?_⟩
  refine follows_within_bind (asks_saveChanged setup _) fun _ ↦ ?_
  split
  · refine Rules.follows_request fun gen ↦ ⟨_, .plain trivial, ?_⟩
    exact Rules.follows_request fun _ ↦ ⟨_, .plain trivial, follows_takeDeferred⟩
  · exact follows_takeDeferred

theorem follows_pollOnce (gen : Nat) :
    (duties setup).Follows (.task (.poll gen)) (fun d _ ↦ d.IsDone) (pollOnce gen) .polling := by
  have hclock : wallClock.Asks (Request.Within fun _ ↦ True) := Activity.asks_request trivial
  have hgoOn (outcome : PollOutcome) (d : Duty) (hd : d.IsDone) :
      (duties setup).Follows (.task (.poll gen)) (fun d _ ↦ d.IsDone)
        (if outcome.continues then spawn (.poll gen) else pure ()) d := by
    split
    · exact Rules.follows_request fun _ ↦ ⟨_, .plain trivial, hd⟩
    · exact (duties setup).follows_pure hd
  refine Rules.follows_request fun current ↦ ⟨_, .plain trivial, ?_⟩
  split
  · exact (duties setup).follows_pure trivial
  · refine follows_within_bind hclock fun nowMs ↦ ?_
    refine Rules.follows_request fun outcome ↦ ⟨_, .poll, ?_⟩
    cases outcome with
    | triggered d =>
        refine Rules.follows_request fun granted ↦ ⟨_, .claimLaunch, ?_⟩
        cases granted with
        | false => exact hgoOn (.triggered d) .idle trivial
        | true =>
            exact Rules.follows_request fun _ ↦ ⟨_, .handOff, hgoOn (.triggered d) .idle trivial⟩
    | _ => exact hgoOn _ .idle trivial

theorem follows_call (c : Call) :
    (duties setup).Follows (.call c) (fun d _ ↦ d.IsDone) (c.activity setup)
      (Duty.opening (.call c)) := by
  have hforget {α : Type} {a : Supervised α}
      (ha : (duties setup).Follows (.call c) (fun d _ ↦ d.IsDone) a (Duty.opening (.call c))) :
      (duties setup).Follows (.call c) (fun d _ ↦ d.IsDone) (a >>= fun _ ↦ pure ())
        (Duty.opening (.call c)) :=
    Rules.follows_bind ha fun d _ hd ↦ (duties setup).follows_pure hd
  cases c with
  | start inRuntime => exact hforget (follows_start inRuntime)
  | stop =>
      refine Rules.follows_request fun _ ↦ ⟨_, .plain trivial, ?_⟩
      exact Rules.follows_request fun _ ↦ ⟨_, .plain trivial, trivial⟩
  | background =>
      refine Rules.follows_request fun ran ↦ ⟨_, .plain trivial, ?_⟩
      split
      · exact Rules.follows_request fun _ ↦ ⟨_, .plain trivial, trivial⟩
      · exact (duties setup).follows_pure trivial
  | foreground inRuntime =>
      cases inRuntime with
      | false => exact (duties setup).follows_pure trivial
      | true => exact hforget follows_foreground

theorem follows_task (t : Task) :
    (duties setup).Follows (.task t) (fun d _ ↦ d.IsDone) (t.activity setup)
      (Duty.opening (.task t)) := by
  cases t with
  | poll gen => exact follows_pollOnce gen
  | handOff reason =>
      refine Rules.follows_bind (follows_handOff reason) ?_
      intro d result hresult
      cases result with
      | none =>
          refine (duties setup).follows_pure ?_
          cases d <;> trivial
      | some outcome =>
          cases d with
          | handing =>
              obtain ⟨message, rfl⟩ := hresult
              exact Rules.follows_request fun _ ↦ ⟨_, .giveUp, trivial⟩
          | holding hprof progress =>
              exact Rules.follows_request fun _ ↦ ⟨_, .publish hresult, trivial⟩
          | _ => exact hresult.elim
  | reanalyze pairs =>
      refine (follows_reanalyze pairs pairs).imp ?_
      rintro _ _ rfl
      trivial
  | flush jobs => exact follows_flush jobs jobs

theorem govern_duties (setup : Setup) : (duties setup).Govern setup := by
  intro o
  cases o with
  | call c => exact follows_call c
  | task t => exact follows_task t

end HeapSentry.Supervisor
