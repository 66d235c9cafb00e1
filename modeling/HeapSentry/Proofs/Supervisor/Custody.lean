import HeapSentry.Proofs.Storage.Leftovers
import HeapSentry.Proofs.Supervisor.Handling

/-!
# The custody of a dump

As far as one dump is concerned, a thread has some analyses of it to do, has marked it, has had it
analysed or has removed it.  Every call and every task deals with the dump in that order, whatever
other dumps it deals with.
-/

namespace HeapSentry.Supervisor

open Pressure Report Storage Supervised

/-- What a thread did to the dump last. -/
inductive Grip where
  | free | marked | served | removed
  deriving DecidableEq

inductive Custody where
  /-- Nothing is known of it. -/
  | wild
  /-- Is to list the dumps. -/
  | recovering
  /-- The dump was listed and has not been looked at yet. -/
  | sorting
  /-- Has made the analysis directory. -/
  | ready
  /-- Has so many analyses of the dump to do. -/
  | busy (jobs : Nat) (grip : Grip)
  deriving DecidableEq

def Task.pairs : Task → List DumpPair
  | .poll _ | .handOff _ => []
  | .reanalyze pairs => pairs
  | .flush jobs => jobs.map Job.pair

section Pairs

variable (site : Site) (stem : String)

/-- How many of some analyses are of the dump. -/
def share (pairs : List DumpPair) : Nat := pairs.count (site.store.pairOf stem)

/-- Whether some analyses are of the dump or do not touch it. -/
def Knows (pairs : List DumpPair) : Prop :=
  ∀ pair ∈ pairs, pair = site.store.pairOf stem ∨ site.IsOther stem pair

open scoped Classical in
/-- Is given some analyses to do. -/
noncomputable def Custody.given (pairs : List DumpPair) : Custody :=
  if Knows site stem pairs then .busy (share site stem pairs) .free else .wild

noncomputable def Custody.opening : Origin → Custody
  | .call _ => .busy 0 .free
  | .task t => .given site stem t.pairs

open scoped Classical in
/-- Has listed the dumps. -/
noncomputable def Custody.listed : Except FileError (List (String × Bool)) → Custody
  | .error _ => .busy 0 .free
  | .ok found =>
    if Machine.IsOrderly (Machine.filesIn found) then
      if stem ++ "." ++ "hprof" ∈ Machine.filesIn found then .sorting else .busy 0 .free
    else .wild

/-- Whether a request has nothing to do with the dump and with what others may do. -/
def Request.IsCommon : Request → Prop
  | .machine r => site.Spares stem r
  | .service (.size path) => path ≠ (site.store.pairOf stem).hprof
  | .service r => site.Spares stem r
  | .claimRecovery | .dumpHeap _ | .defer _ | .takeDeferred | .spawn _ => False
  | _ => True

inductive Custody.Step : Origin → Custody → (r : Request) → Answer r → Custody → Prop where
  | wild {o : Origin} {r : Request} {answer : Answer r} : Step o .wild r answer .wild
  | common {o : Origin} {c : Custody} {r : Request} {answer : Answer r}
      (h : r.IsCommon site stem) : Step o c r answer c
  | claim {o : Origin} {granted : Bool} :
      Step o (.busy 0 .free) .claimRecovery granted
        (if granted then .recovering else .busy 0 .free)
  | list {o : Origin} {answer : Except FileError (List (String × Bool))} :
      Step o .recovering (.machine (.entries site.store.analysisDir)) answer
        (.listed stem answer)
  | find {o : Origin} {answer : Except FileError Nat} :
      Step o .sorting (.machine (.size (site.store.pairOf stem).json)) answer
        (if answer.isOk then .busy 0 .served else .busy 1 .free)
  | take {o : Origin} {jobs : List Job} :
      Step o (.busy 0 .free) .takeDeferred jobs (.given site stem (jobs.map Job.pair))
  | spawn {o : Origin} {n : Nat} {grip : Grip} {task : Task} (hknows : Knows site stem task.pairs)
      (hle : share site stem task.pairs ≤ n) :
      Step o (.busy n grip) (.spawn task) () (.busy (n - share site stem task.pairs) grip)
  | defer {o : Origin} {n : Nat} {grip : Grip} {job : Job} (hknows : Knows site stem [job.pair])
      (hle : share site stem [job.pair] ≤ n) :
      Step o (.busy n grip) (.defer job) () (.busy (n - share site stem [job.pair]) grip)
  | makeRoom {o : Origin} {answer : Except FileError Unit} :
      Step o (.busy 0 .free) (.machine (.makeDirs site.store.analysisDir)) answer
        (if answer.isOk then .ready else .busy 0 .free)
  | dump {o : Origin} {answer : Except ProbeError Unit} :
      Step o .ready (.dumpHeap (site.store.pairOf stem).hprof) answer (.busy 1 .free)
  | dumpOther {o : Origin} {path : String} {answer : Except ProbeError Unit}
      (h : site.IsApart stem path) : Step o .ready (.dumpHeap path) answer (.busy 0 .free)
  | mark {o : Origin} {n : Nat} {grip : Grip} {answer : Except FileError Unit} :
      Step o (.busy (n + 1) grip) (.machine (.write (site.store.pairOf stem).json .empty)) answer
        (if answer.isOk then .busy n .marked else .busy (n + 1) grip)
  | serve {o : Origin} {n : Nat} {answer : Except FileError Nat} :
      Step o (.busy n .marked) (.service (.size (site.store.pairOf stem).hprof)) answer
        (.busy n .served)
  | report {o : Origin} {n : Nat} {content : ByteArray} {answer : Except FileError Unit} :
      Step o (.busy n .served) (.machine (.write (site.store.pairOf stem).json content)) answer
        (.busy n .served)
  | remove {o : Origin} {n m : Nat} {grip : Grip} {answer : Except FileError Unit} (hle : m ≤ n)
      (howns : m < n ∨ grip ≠ .free) :
      Step o (.busy n grip) (.machine (.remove (site.store.pairOf stem).hprof)) answer
        (.busy m .removed)
  | clear {o : Origin} {n : Nat} {answer : Except FileError Unit} :
      Step o (.busy n .removed) (.machine (.remove (site.store.pairOf stem).json)) answer
        (.busy n .removed)

/-- The rules by which one dump is dealt with. -/
noncomputable def custody : Rules where
  Role := Custody
  opening := Custody.opening site stem
  Step := Custody.Step site stem
  Closing _ _ := True

/-- Whether a supervisor keeps its dumps at a site, and nothing else with the dump. -/
structure Setup.Respects (setup : Setup) : Prop where
  store : setup.store = site.store
  version : setup.version = site.version
  ledger : ∀ path, setup.KeepsLedgerAt path → site.IsApart stem path
  uploads : ∀ path, setup.UploadsTo path → site.IsApart stem path

end Pairs

/-! ## Activities -/

section Activities

variable {site : Site} {stem : String} {setup : Setup} {o : Origin} {c : Custody} {α β : Type}
  {Q : α → Prop}

theorem isCommon_of_within {files : String → Prop}
    (hfiles : ∀ path, files path → site.IsApart stem path) {r : Request} (h : r.Within files) :
    r.IsCommon site stem := by
  cases r with
  | machine r =>
      cases r with
      | write path content => exact hfiles path h
      | makeDirs path => exact hfiles path h
      | copy source target => exact hfiles target h
      | remove path => exact hfiles path h
      | removeDir path => exact h.elim
      | entries dir => exact h.elim
      | logTo path => exact h.elim
      | _ => exact ⟨trivial, trivial⟩
  | host => trivial
  | sighting => trivial
  | announce event => trivial
  | _ => exact h.elim

theorem Request.IsQuiet.isCommon {r : Request} (h : r.IsQuiet) : r.IsCommon site stem := by
  cases r with
  | service r =>
      cases r with
      | read path => exact ⟨trivial, trivial⟩
      | stopwatch => exact ⟨trivial, trivial⟩
      | log line => exact ⟨trivial, trivial⟩
      | _ => exact h.elim
  | _ => exact h.elim

theorem follows_wild (a : Supervised α) :
    (custody site stem).Follows o (fun c _ ↦ c = .wild) a .wild := by
  induction a with
  | done x => rfl
  | ask r next ih => exact fun answer ↦ ⟨.wild, .wild, ih answer⟩

theorem follows_common {a : Supervised α} (ha : a.Asks (Request.IsCommon site stem))
    (hQ : a.Returns Q) :
    (custody site stem).Follows o (fun d x ↦ d = c ∧ Q x) a c :=
  (custody site stem).follows_of_asks (fun _ _ h ↦ .common h) ha hQ

/-- An activity that has nothing to do with the dump, whatever it answers. -/
theorem follows_common_bind {a : Supervised α} {f : α → Supervised β} {P : Custody → β → Prop}
    (ha : a.Asks (Request.IsCommon site stem))
    (hf : ∀ x, (custody site stem).Follows o P (f x) c) :
    (custody site stem).Follows o P (a >>= f) c := by
  refine Rules.follows_bind (follows_common ha a.returns_trivial) ?_
  rintro _ x ⟨rfl, -⟩
  exact hf x

theorem common_circumstances (setup : Setup) (reason : String) :
    (circumstances setup reason).Asks (Request.IsCommon site stem) :=
  (asks_circumstances setup reason fun _ ↦ False).imp fun _ ↦ isCommon_of_within fun _ h ↦ h.elim

theorem common_announce (event : Event) : (announce event).Asks (Request.IsCommon site stem) :=
  Activity.asks_request trivial

theorem common_clock : wallClock.Asks (Request.IsCommon site stem) :=
  Activity.asks_request ⟨trivial, trivial⟩

section Respecting

variable (hsetup : setup.Respects site stem)
include hsetup

theorem common_saveLedger (ledger : Ledger) :
    (saveLedger setup ledger).Asks (Request.IsCommon site stem) :=
  (asks_saveLedger setup ledger).imp fun _ ↦ isCommon_of_within hsetup.ledger

theorem common_saveChanged (changed : Option Ledger) :
    (saveChanged setup changed).Asks (Request.IsCommon site stem) :=
  (asks_saveChanged setup changed).imp fun _ ↦ isCommon_of_within hsetup.ledger

theorem common_deliver (pair : DumpPair) (r : Report) :
    (deliver setup pair r).Asks (Request.IsCommon site stem) :=
  (asks_deliver setup pair r).imp fun _ ↦ isCommon_of_within hsetup.uploads

end Respecting

/-! ## Analyses of other dumps -/

theorem common_fail_none (e : AnalysisError) :
    (fail none e).Asks (Request.IsCommon site stem) := by
  refine (asks_fail none e).imp fun _ ↦ isCommon_of_within ?_
  rintro path ⟨pair, hpair, -⟩
  cases hpair

section Other

variable {pair : DumpPair} (hpair : site.IsOther stem pair)
include hpair

theorem isApart_of_isOther {path : String} (h : path = pair.hprof ∨ path = pair.json) :
    site.IsApart stem path := by
  obtain rfl | rfl := h
  · exact hpair.hprof
  · exact hpair.json

theorem common_fail (e : AnalysisError) :
    (fail pair e).Asks (Request.IsCommon site stem) := by
  refine (asks_fail (some pair) e).imp fun _ ↦ isCommon_of_within ?_
  rintro path ⟨_, ⟨⟩, hpath⟩
  exact isApart_of_isOther hpair hpath

theorem common_delete : (onMachine pair.delete).Asks (Request.IsCommon site stem) :=
  (asks_onMachine pair.asks_delete).imp fun _ ↦
    isCommon_of_within fun _ ↦ isApart_of_isOther hpair

theorem common_report (hadmits : site.Admits stem) {job : Job} (hjob : job.pair = pair) :
    (report setup job).Asks (Request.IsCommon site stem) := by
  subst hjob
  have hne : job.pair.hprof ≠ (site.store.pairOf stem).hprof := by
    intro heq
    exact Site.not_isApart_hprof hadmits (heq ▸ hpair.hprof)
  have hsave (r : Report) : (onMachine (r.save job.pair.json)).Asks (Request.IsCommon site stem) :=
    (asks_onMachine (asks_save r _)).imp fun _ ↦ isCommon_of_within fun _ h ↦ h ▸ hpair.json
  refine Activity.asks_bind ?_ fun result ↦ ?_
  · rw [Analyst.analyze_eq, inService, Activity.through_bind]
    refine Activity.asks_bind (Activity.asks_request hne) fun size ↦ ?_
    exact (asks_inService (Analyst.asks_proceed _ _ _ size)).imp fun _ ↦ Request.IsQuiet.isCommon
  · cases result with
    | error e => trivial
    | ok r => exact Activity.asks_bind (hsave _) fun _ ↦ trivial

theorem common_analyze (hadmits : site.Admits stem) (hsetup : setup.Respects site stem) {job : Job}
    (hjob : job.pair = pair) : (analyze setup job).Asks (Request.IsCommon site stem) := by
  have hmark : (onMachine job.pair.markInProgress).Asks (Request.IsCommon site stem) :=
    Activity.asks_request (show site.IsApart stem job.pair.json from hjob ▸ hpair.json)
  refine Activity.asks_bind hmark fun marked ↦ ?_
  cases marked with
  | error e => exact common_fail (hjob ▸ hpair) _
  | ok u =>
      refine Activity.asks_bind (Activity.asks_request trivial) fun ledger ↦ ?_
      refine Activity.asks_bind (common_saveLedger hsetup ledger) fun _ ↦ ?_
      refine Activity.asks_bind (common_report hpair hadmits hjob) fun result ↦ ?_
      cases result with
      | error e => exact common_fail (hjob ▸ hpair) e
      | ok r => exact common_deliver hsetup job.pair r

end Other

/-! ## Analyses of the dump -/

section Own

variable {n m : Nat} {grip : Grip}

/-- A dump goes before its report. -/
theorem follows_delete (hle : m ≤ n) (howns : m < n ∨ grip ≠ .free) :
    (custody site stem).Follows o (fun c _ ↦ c = .busy m .removed)
      (onMachine (site.store.pairOf stem).delete) (.busy n grip) := by
  refine Rules.follows_request fun _ ↦ ⟨_, .remove hle howns, ?_⟩
  exact Rules.follows_request fun _ ↦ ⟨_, .clear, rfl⟩

theorem follows_fail_own (hle : m ≤ n) (howns : m < n ∨ grip ≠ .free) (e : AnalysisError) :
    (custody site stem).Follows o (fun c _ ↦ c = .busy m .removed)
      (fail (site.store.pairOf stem) e) (.busy n grip) := by
  refine Rules.follows_bind (follows_delete hle howns) ?_
  rintro _ _ rfl
  refine follows_common_bind (common_announce _) fun _ ↦ ?_
  exact (custody site stem).follows_pure rfl

theorem follows_report_own {job : Job} (hjob : job.pair = site.store.pairOf stem) :
    (custody site stem).Follows o (fun c _ ↦ c = .busy n .served) (report setup job)
      (.busy n .marked) := by
  have hanalyze : (custody site stem).Follows o (fun c _ ↦ c = .busy n .served)
      (inService (setup.analyst.analyze job.pair.hprof job.info)) (.busy n .marked) := by
    rw [Analyst.analyze_eq, inService, Activity.through_bind, hjob]
    refine Rules.follows_request fun size ↦ ⟨_, .serve, ?_⟩
    refine (follows_common ((asks_inService (Analyst.asks_proceed _ _ _ size)).imp fun _ ↦
      Request.IsQuiet.isCommon) (Activity.returns_trivial _)).imp ?_
    exact fun _ _ h ↦ h.1
  refine Rules.follows_bind hanalyze ?_
  rintro _ result rfl
  cases result with
  | error e => exact (custody site stem).follows_pure rfl
  | ok r =>
      rw [hjob]
      refine Rules.follows_request fun saved ↦ ⟨_, .report, ?_⟩
      exact (custody site stem).follows_pure rfl

/-- One that has an analysis of the dump to do has one less when it is done. -/
theorem follows_analyze_own (hsetup : setup.Respects site stem) {job : Job}
    (hjob : job.pair = site.store.pairOf stem) :
    (custody site stem).Follows o (fun c _ ↦ ∃ grip, c = .busy n grip) (analyze setup job)
      (.busy (n + 1) grip) := by
  rw [analyze, hjob]
  refine Rules.follows_request fun marked ↦ ⟨_, .mark, ?_⟩
  cases marked with
  | error e =>
      refine (follows_fail_own (Nat.le_succ n) (.inl (Nat.lt_succ_self n)) _).imp ?_
      rintro _ _ rfl
      exact ⟨_, rfl⟩
  | ok u =>
      refine Rules.follows_request fun ledger ↦ ⟨_, .common trivial, ?_⟩
      refine follows_common_bind (common_saveLedger hsetup ledger) fun _ ↦ ?_
      refine Rules.follows_bind (follows_report_own hjob) ?_
      rintro _ result rfl
      cases result with
      | error e =>
          refine (follows_fail_own (Nat.le_refl n) (.inr (by decide)) e).imp ?_
          rintro _ _ rfl
          exact ⟨_, rfl⟩
      | ok r =>
          refine (follows_common (common_deliver hsetup _ r) (Activity.returns_trivial _)).imp ?_
          rintro _ _ ⟨rfl, -⟩
          exact ⟨_, rfl⟩

end Own

end Activities

end HeapSentry.Supervisor
