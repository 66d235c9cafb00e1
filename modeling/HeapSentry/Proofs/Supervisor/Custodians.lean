import HeapSentry.Proofs.Supervisor.Custody

/-!
# All threads keep to the custody

Whatever threads a supervisor begins, they deal with a dump by the rules.
-/

namespace HeapSentry.Supervisor

open Pressure Report Storage Supervised

variable {site : Site} {stem : String} {setup : Setup} {o : Origin} {c : Custody} {α : Type}

/-! ## Shares -/

section Shares

variable {pair : DumpPair} {pairs more : List DumpPair}

theorem share_append : share site stem (pairs ++ more) =
    share site stem pairs + share site stem more := List.count_append

theorem share_own : share site stem (site.store.pairOf stem :: pairs) =
    share site stem pairs + 1 := List.count_cons_self

theorem share_other (hadmits : site.Admits stem) (h : site.IsOther stem pair) :
    share site stem (pair :: pairs) = share site stem pairs :=
  List.count_cons_of_ne (h.ne hadmits)

theorem share_others (hadmits : site.Admits stem) (h : ∀ pair ∈ pairs, site.IsOther stem pair) :
    share site stem pairs = 0 :=
  List.count_eq_zero.2 fun hmem ↦ (h _ hmem).ne hadmits rfl

theorem knows_nil (site : Site) (stem : String) : Knows site stem [] := fun _ h ↦ nomatch h

theorem Knows.append (h : Knows site stem pairs) (h' : Knows site stem more) :
    Knows site stem (pairs ++ more) := fun pair hpair ↦
  (List.mem_append.1 hpair).elim (h pair) (h' pair)

theorem knows_own (site : Site) (stem : String) : Knows site stem [site.store.pairOf stem] :=
  List.forall_mem_singleton.2 (.inl rfl)

theorem knows_others (h : ∀ pair ∈ pairs, site.IsOther stem pair) : Knows site stem pairs :=
  fun pair hpair ↦ .inr (h pair hpair)

theorem knows_cons : Knows site stem (pair :: pairs) ↔
    (pair = site.store.pairOf stem ∨ site.IsOther stem pair) ∧ Knows site stem pairs :=
  List.forall_mem_cons

end Shares

theorem common_onMachine {a : OnMachine α} (h : a.Asks (site.Spares stem)) :
    (onMachine a).Asks (Request.IsCommon site stem) := by
  have hembed (r : Machine.Request) (hr : site.Spares stem r) :
      (Activity.request (Request.machine r) : Supervised _).Asks (Request.IsCommon site stem) :=
    Activity.asks_request hr
  exact Activity.asks_through hembed h

namespace Custody

/-! ## Lists of analyses -/

section Lists

variable (hadmits : site.Admits stem) (hsetup : setup.Respects site stem)
include hadmits hsetup

/-- An analysis takes away its share. -/
theorem follows_analyze (job : Job) (hknows : Knows site stem [job.pair]) (n : Nat)
    (grip : Grip) :
    (custody site stem).Follows o (fun c _ ↦ ∃ grip, c = .busy n grip) (analyze setup job)
      (.busy (n + share site stem [job.pair]) grip) := by
  obtain hown | hother := hknows job.pair List.mem_cons_self
  · rw [hown, share_own]
    exact follows_analyze_own hsetup hown
  · rw [share_other hadmits hother]
    refine (follows_common (common_analyze hother hadmits hsetup rfl)
      (Activity.returns_trivial _)).imp ?_
    rintro _ _ ⟨rfl, -⟩
    exact ⟨grip, rfl⟩

theorem follows_flush {jobs : List Job} {grip : Grip}
    (hknows : Knows site stem (jobs.map Job.pair)) :
    (custody site stem).Follows o (fun _ _ ↦ True) (flush setup jobs)
      (.busy (share site stem (jobs.map Job.pair)) grip) := by
  induction jobs generalizing grip with
  | nil => exact (custody site stem).follows_pure trivial
  | cons job jobs ih =>
      obtain ⟨hjob, hjobs⟩ := knows_cons.1 hknows
      have hshare : share site stem ((job :: jobs).map Job.pair) =
          share site stem (jobs.map Job.pair) + share site stem [job.pair] := by
        rw [Nat.add_comm, ← share_append]
        rfl
      rw [hshare]
      refine Rules.follows_bind
        (follows_analyze hadmits hsetup _ (List.forall_mem_singleton.2 hjob) _ _) ?_
      rintro _ outcome ⟨grip, rfl⟩
      exact Rules.follows_request fun _ ↦ ⟨_, .common trivial, ih hjobs⟩

theorem follows_reanalyze {pairs : List DumpPair} {grip : Grip}
    (hknows : Knows site stem pairs) :
    (custody site stem).Follows o (fun _ _ ↦ True) (reanalyze setup pairs)
      (.busy (share site stem pairs) grip) := by
  induction pairs generalizing grip with
  | nil => exact (custody site stem).follows_pure trivial
  | cons pair pairs ih =>
      obtain ⟨hpair, hpairs⟩ := knows_cons.1 hknows
      have hshare : share site stem (pair :: pairs) =
          share site stem pairs + share site stem [pair] := by
        rw [Nat.add_comm, ← share_append]
        rfl
      rw [hshare]
      refine follows_common_bind (common_circumstances setup _) fun info ↦ ?_
      refine Rules.follows_bind
        (follows_analyze hadmits hsetup _ (List.forall_mem_singleton.2 hpair) _ _) ?_
      rintro _ outcome ⟨grip, rfl⟩
      exact ih hpairs

end Lists

/-! ## Handing off -/

section HandOff

variable (hsite : site.IsRegular) (hadmits : site.Admits stem) (hsetup : setup.Respects site stem)
include hadmits hsetup

/-- A dump that was taken is analysed, put off or removed. -/
theorem follows_take {pair : DumpPair} (info : RunningInfo)
    (hknows : Knows site stem [pair]) :
    (custody site stem).Follows o (fun _ _ ↦ True) (take setup pair info)
      (.busy (share site stem [pair]) .free) := by
  have hsize : (onMachine (OnMachine.size pair.hprof)).Asks (Request.IsCommon site stem) :=
    Activity.asks_request ⟨trivial, trivial⟩
  refine follows_common_bind hsize fun answer ↦ ?_
  extract_lets size job
  by_cases hempty : size = 0
  · rw [if_pos hempty]
    obtain rfl | hother := hknows pair List.mem_cons_self
    · rw [share_own]
      refine Rules.follows_bind (follows_delete (Nat.zero_le 1) (.inl Nat.one_pos)) ?_
      rintro _ _ rfl
      exact (custody site stem).follows_pure trivial
    · rw [share_other hadmits hother]
      refine follows_common_bind (common_delete hother) fun _ ↦ ?_
      exact (custody site stem).follows_pure trivial
  · rw [if_neg hempty]
    refine Rules.follows_request fun host ↦ ⟨_, .common trivial, ?_⟩
    split
    · have hanalyze := follows_analyze (o := o) hadmits hsetup job hknows 0 .free
      rw [Nat.zero_add] at hanalyze
      refine Rules.follows_bind hanalyze ?_
      rintro _ outcome ⟨grip, rfl⟩
      exact (custody site stem).follows_pure trivial
    · refine Rules.follows_request fun _ ↦ ⟨_, .defer hknows (Nat.le_refl _), ?_⟩
      rw [Nat.sub_self]
      exact (custody site stem).follows_pure trivial

include hsite

omit hadmits hsetup in
theorem follows_newPair (nowMs : Int) :
    (custody site stem).Follows o (fun c made ↦ match made with
        | .ok pair => c = .ready ∧ pair = site.store.pairOf (DumpStore.dumpStem site.version nowMs)
        | .error _ => c = .busy 0 .free)
      (onMachine (site.store.newPair site.version nowMs)) (.busy 0 .free) := by
  intro made
  refine ⟨_, .makeRoom, ?_⟩
  cases made with
  | error e => exact (custody site stem).follows_pure rfl
  | ok u =>
      refine (custody site stem).follows_pure ⟨rfl, ?_⟩
      rw [DumpStore.dumpName_eq]
      exact DumpStore.ofHprof_join site.store (DumpStore.isStem_dumpStem hsite.noSlash nowMs)

theorem follows_handOff (reason : String) :
    (custody site stem).Follows o (fun _ _ ↦ True) (handOff setup reason)
      (.busy 0 .free) := by
  refine follows_common_bind (common_circumstances setup reason) fun info ↦ ?_
  refine follows_common_bind common_clock fun nowMs ↦ ?_
  rw [hsetup.store, hsetup.version]
  refine Rules.follows_bind (follows_newPair hsite nowMs) ?_
  intro c made hmade
  cases made with
  | error e =>
      obtain rfl := hmade
      refine Rules.follows_bind
        (follows_common (common_fail_none _) (Activity.returns_trivial _)) ?_
      rintro _ outcome ⟨rfl, -⟩
      exact (custody site stem).follows_pure trivial
  | ok pair =>
      obtain ⟨rfl, rfl⟩ := hmade
      by_cases hstem : DumpStore.dumpStem site.version nowMs = stem
      · rw [hstem]
        refine Rules.follows_request fun dumped ↦ ⟨_, .dump, ?_⟩
        cases dumped with
        | error e =>
            refine Rules.follows_bind
              (follows_fail_own (Nat.zero_le 1) (.inl Nat.one_pos) _) ?_
            rintro _ outcome rfl
            exact (custody site stem).follows_pure trivial
        | ok u =>
            have htake := follows_take (o := o) hadmits hsetup info (knows_own site stem)
            rwa [share_own] at htake
      · have hother := Site.isOther_pairOf hsite.avoids hadmits.isStem
          (DumpStore.isStem_dumpStem hsite.noSlash nowMs) hstem
        refine Rules.follows_request fun dumped ↦ ⟨_, .dumpOther hother.hprof, ?_⟩
        cases dumped with
        | error e =>
            refine Rules.follows_bind
              (follows_common (common_fail hother _) (Activity.returns_trivial _)) ?_
            rintro _ outcome ⟨rfl, -⟩
            exact (custody site stem).follows_pure trivial
        | ok u =>
            have htake := follows_take (o := o) hadmits hsetup info
              (knows_others (List.forall_mem_singleton.2 hother))
            rwa [share_other hadmits hother] at htake

end HandOff

/-! ## Sorting out what earlier runs left -/

/-- Whether what a scan found is known, and so much of it is the dump. -/
structure IsFound (site : Site) (stem : String) (n : Nat) (scan : StaleScan) : Prop where
  knows : Knows site stem scan.reanalyze
  share : share site stem scan.reanalyze = n

theorem IsFound.adds {n : Nat} {scan after : StaleScan} (h : IsFound site stem n scan)
    (hadmits : site.Admits stem) (hadds : site.AddsOthers stem scan after) :
    IsFound site stem n after := by
  obtain ⟨more, hmore, hothers⟩ := hadds
  constructor
  · rw [hmore]
    exact h.knows.append (knows_others hothers)
  · rw [hmore, share_append, h.share, share_others hadmits hothers, Nat.add_zero]

/-- Whether a thread holds what a scan found. -/
def Found (site : Site) (stem : String) (c : Custody) (scan : StaleScan) : Prop :=
  ∃ n grip, c = .busy n grip ∧ IsFound site stem n scan

section Scan

variable (hsite : site.IsRegular) (hadmits : site.Admits stem)
include hsite hadmits

theorem follows_sortOut_others {names : List String} {n : Nat} {grip : Grip} {scan : StaleScan}
    (hnames : Machine.IsOrderly names) (hnew : stem ++ "." ++ "hprof" ∉ names)
    (hscan : IsFound site stem n scan) :
    (custody site stem).Follows o (Custody.Found site stem)
      (onMachine (DumpStore.sortOutAll site.version scan (DumpStore.pathsOf site.store names)))
      (.busy n grip) := by
  obtain ⟨hasks, hreturns⟩ := DumpStore.sortOutAll_others hsite.avoids hadmits hnames.2 hnew scan
  refine (follows_common (common_onMachine hasks) (Activity.returns_through hreturns)).imp ?_
  rintro _ after ⟨rfl, hadds⟩
  exact ⟨n, grip, rfl, hscan.adds hadmits hadds⟩

/-- The dump is looked at once, whatever else is listed. -/
theorem follows_sortOut_listed {names : List String} (hnames : Machine.IsOrderly names)
    (hmem : stem ++ "." ++ "hprof" ∈ names) :
    (custody site stem).Follows o (Custody.Found site stem)
      (onMachine (DumpStore.sortOutAll site.version {} (DumpStore.pathsOf site.store names)))
      .sorting := by
  obtain ⟨before, later, rfl⟩ := List.append_of_mem hmem
  obtain ⟨hbefore, hlater, hnew, hnew'⟩ := hnames.split
  have hnone : IsFound site stem 0 {} := ⟨knows_nil site stem, rfl⟩
  obtain ⟨hasks, hreturns⟩ := DumpStore.sortOutAll_others hsite.avoids hadmits hbefore.2 hnew {}
  rw [DumpStore.sortOutAll_split hadmits, onMachine, Activity.through_bind]
  refine Rules.follows_bind
    (follows_common (common_onMachine hasks) (Activity.returns_through hreturns)) ?_
  rintro _ scan ⟨rfl, hadds⟩
  have hscan := hnone.adds hadmits hadds
  intro answer
  refine ⟨_, .find, ?_⟩
  cases answer with
  | error e =>
      have hfound : IsFound site stem 1
          { scan with reanalyze := scan.reanalyze ++ [site.store.pairOf stem] } := by
        constructor
        · exact hscan.knows.append (knows_own site stem)
        · rw [share_append, hscan.share, share_own]
          rfl
      exact follows_sortOut_others hsite hadmits hlater hnew' hfound
  | ok size =>
      have hrest : (custody site stem).Follows o (Custody.Found site stem)
          (onMachine (site.store.pairOf stem).delete >>= fun _ ↦
            onMachine (DumpStore.sortOutAll site.version
              { scan with deleted := scan.deleted ++
                [(site.store.pairOf stem).hprof, (site.store.pairOf stem).json] }
              (DumpStore.pathsOf site.store later))) (.busy 0 .served) := by
        refine Rules.follows_bind (follows_delete (Nat.le_refl 0) (.inr (by decide))) ?_
        rintro _ _ rfl
        exact follows_sortOut_others hsite hadmits hlater hnew' ⟨hscan.knows, hscan.share⟩
      exact hrest

/-- Whether a thread knows what was listed, and has still to look at the dump if that is listed. -/
def Listed (site : Site) (stem : String) (c : Custody) :
    Except PathFailure (List String) → Prop
  | .error _ => c = .busy 0 .free
  | .ok paths => ∃ names, paths = DumpStore.pathsOf site.store names ∧ Machine.IsOrderly names ∧
      c = if stem ++ "." ++ "hprof" ∈ names then .sorting else .busy 0 .free

omit hsite hadmits in
theorem follows_listDumps :
    (custody site stem).Follows o
      (fun c listed ↦ c = .wild ∨ c.Listed site stem listed)
      (onMachine (DumpStore.listFiles site.store.analysisDir)) .recovering := by
  intro answer
  refine ⟨_, .list, ?_⟩
  cases answer with
  | error e =>
      have hnone : Custody.Listed site stem (.busy 0 .free) (.ok []) :=
        ⟨[], rfl, ⟨List.nodup_nil, fun _ h ↦ nomatch h⟩, rfl⟩
      cases e with
      | notFound => exact (custody site stem).follows_pure (.inr hnone)
      | _ => exact (custody site stem).follows_pure (.inr rfl)
  | ok found =>
      refine (custody site stem).follows_pure ?_
      by_cases horderly : Machine.IsOrderly (Machine.filesIn found)
      · rw [Custody.listed, if_pos horderly]
        exact .inr ⟨_, rfl, horderly, rfl⟩
      · rw [Custody.listed, if_neg horderly]
        exact .inl rfl

/-- Whether a thread holds what a scan found, if the scan came to an end. -/
def Scanned (site : Site) (stem : String) (c : Custody) :
    Except PathFailure StaleScan → Prop
  | .error _ => ∃ n grip, c = .busy n grip
  | .ok scan => c.Found site stem scan

theorem follows_scanStale :
    (custody site stem).Follows o
      (fun c scanned ↦ c = .wild ∨ c.Scanned site stem scanned)
      (onMachine (site.store.scanStale site.version)) .recovering := by
  rw [onMachine, DumpStore.scanStale, Activity.through_bind]
  refine Rules.follows_bind follows_listDumps ?_
  rintro c listed (rfl | hlisted)
  · exact (follows_wild _).imp fun _ _ h ↦ .inl h
  cases listed with
  | error e =>
      obtain rfl := hlisted
      exact (custody site stem).follows_pure (.inr ⟨0, .free, rfl⟩)
  | ok paths =>
      obtain ⟨names, rfl, hnames, hc⟩ := hlisted
      have hsorted : (custody site stem).Follows o (Custody.Found site stem)
          (onMachine (DumpStore.sortOutAll site.version {}
            (DumpStore.pathsOf site.store names))) c := by
        by_cases hmem : stem ++ "." ++ "hprof" ∈ names
        · rw [hc, if_pos hmem]
          exact follows_sortOut_listed hsite hadmits hnames hmem
        · rw [hc, if_neg hmem]
          exact follows_sortOut_others hsite hadmits hnames hmem ⟨knows_nil site stem, rfl⟩
      simp only [Activity.through_bind]
      refine Rules.follows_bind hsorted ?_
      rintro _ scan ⟨n, grip, rfl, hscan⟩
      intro answer
      refine ⟨_, .common ⟨trivial, trivial⟩, ?_⟩
      cases answer with
      | error e =>
          cases e with
          | notFound =>
              exact (custody site stem).follows_pure (.inr ⟨n, grip, rfl, hscan.1, hscan.2⟩)
          | _ => exact (custody site stem).follows_pure (.inr ⟨n, grip, rfl⟩)
      | ok found => exact (custody site stem).follows_pure (.inr ⟨n, grip, rfl, hscan.1, hscan.2⟩)

theorem follows_recover (hsetup : setup.Respects site stem) :
    (custody site stem).Follows o
      (fun c _ ↦ c = .wild ∨ ∃ n grip, c = .busy n grip) (recover setup) .recovering := by
  rw [recover, hsetup.store, hsetup.version]
  refine Rules.follows_bind (follows_scanStale hsite hadmits) ?_
  rintro c scanned (rfl | hscanned)
  · exact (follows_wild _).imp fun _ _ h ↦ .inl h
  cases scanned with
  | error e =>
      obtain ⟨n, grip, rfl⟩ := hscanned
      exact Rules.follows_request fun _ ↦ ⟨_, .common ⟨trivial, trivial⟩, .inr ⟨n, grip, rfl⟩⟩
  | ok scan =>
      obtain ⟨n, grip, rfl, hscan⟩ := hscanned
      have hupload := (asks_uploadManual setup scan.manual).imp fun _ ↦
        isCommon_of_within hsetup.uploads
      refine follows_common_bind hupload fun _ ↦ ?_
      split
      · exact Rules.follows_request fun _ ↦
          ⟨_, .spawn hscan.knows (Nat.le_of_eq hscan.share), .inr ⟨_, grip, rfl⟩⟩
      · exact (custody site stem).follows_pure (.inr ⟨n, grip, rfl⟩)

end Scan

/-! ## Calls and tasks -/

section Govern

variable (hsite : site.IsRegular) (hadmits : site.Admits stem) (hsetup : setup.Respects site stem)

theorem follows_spawn_poll {n : Nat} {grip : Grip} {β : Type} {f : Unit → Supervised β}
    {P : Custody → β → Prop} {gen : Nat}
    (hf : (custody site stem).Follows o P (f ()) (.busy n grip)) :
    (custody site stem).Follows o P (spawn (.poll gen) >>= f) (.busy n grip) :=
  Rules.follows_request fun _ ↦ ⟨_, .spawn (knows_nil site stem) (Nat.zero_le n), hf⟩

include hsetup

include hsite hadmits in
theorem follows_start :
    (custody site stem).Follows o (fun _ _ ↦ True) (start setup true) (.busy 0 .free) := by
  have hspawn {c : Custody} (hc : c = .wild ∨ ∃ n grip, c = .busy n grip) :
      (custody site stem).Follows o (fun _ _ ↦ True)
        (generation >>= fun gen ↦ spawn (.poll gen) >>= fun _ ↦
          (pure (.ok true) : Supervised (Except CallError Bool))) c := by
    obtain rfl | ⟨n, grip, rfl⟩ := hc
    · exact (follows_wild _).imp fun _ _ _ ↦ trivial
    · refine Rules.follows_request fun gen ↦ ⟨_, .common trivial, ?_⟩
      exact follows_spawn_poll ((custody site stem).follows_pure trivial)
  refine Rules.follows_request fun host ↦ ⟨_, .common trivial, ?_⟩
  refine follows_common_bind common_clock fun nowMs ↦ ?_
  refine Rules.follows_request fun result ↦ ⟨_, .common trivial, ?_⟩
  refine follows_common_bind (common_saveChanged hsetup _) fun _ ↦ ?_
  split
  · exact (custody site stem).follows_pure trivial
  · refine Rules.follows_request fun granted ↦ ⟨_, .claim, ?_⟩
    cases granted with
    | false => exact hspawn (.inr ⟨0, .free, rfl⟩)
    | true => exact Rules.follows_bind (follows_recover hsite hadmits hsetup) fun _ _ ↦ hspawn

omit hsetup in
/-- What waits is taken and handed on. -/
theorem follows_takeDeferred :
    (custody site stem).Follows o (fun _ _ ↦ True)
      (takeDeferred >>= fun jobs ↦ match jobs with
        | [] => (pure (.ok ()) : Supervised (Except CallError Unit))
        | jobs => spawn (.flush jobs) >>= fun _ ↦ pure (.ok ())) (.busy 0 .free) := by
  refine Rules.follows_request fun jobs ↦ ⟨_, .take, ?_⟩
  by_cases hknows : Knows site stem (jobs.map Job.pair)
  · rw [Custody.given, if_pos hknows]
    cases jobs with
    | nil => exact (custody site stem).follows_pure trivial
    | cons job jobs =>
        exact Rules.follows_request fun _ ↦ ⟨_, .spawn hknows (Nat.le_refl _), trivial⟩
  · rw [Custody.given, if_neg hknows]
    exact (follows_wild _).imp fun _ _ _ ↦ trivial

theorem follows_foreground :
    (custody site stem).Follows o (fun _ _ ↦ True) (onForeground setup true) (.busy 0 .free) := by
  refine Rules.follows_request fun host ↦ ⟨_, .common trivial, ?_⟩
  refine follows_common_bind common_clock fun nowMs ↦ ?_
  refine Rules.follows_request fun result ↦ ⟨_, .common trivial, ?_⟩
  refine follows_common_bind (common_saveChanged hsetup _) fun _ ↦ ?_
  cases hstarted : result.started with
  | false => exact follows_takeDeferred
  | true =>
      refine Rules.follows_request fun gen ↦ ⟨_, .common trivial, ?_⟩
      exact follows_spawn_poll follows_takeDeferred

omit hsetup in
theorem follows_pollOnce (gen : Nat) :
    (custody site stem).Follows o (fun _ _ ↦ True) (pollOnce gen) (.busy 0 .free) := by
  have hgoOn (outcome : PollOutcome) : (custody site stem).Follows o (fun _ _ ↦ True)
      (if outcome.continues then spawn (.poll gen) else pure ()) (.busy 0 .free) := by
    split
    · exact Rules.follows_request fun _ ↦
        ⟨_, .spawn (knows_nil site stem) (Nat.zero_le 0), trivial⟩
    · exact (custody site stem).follows_pure trivial
  refine Rules.follows_request fun current ↦ ⟨_, .common trivial, ?_⟩
  split
  · exact (custody site stem).follows_pure trivial
  · refine follows_common_bind common_clock fun nowMs ↦ ?_
    refine Rules.follows_request fun outcome ↦ ⟨_, .common trivial, ?_⟩
    cases outcome with
    | triggered d =>
        refine Rules.follows_request fun granted ↦ ⟨_, .common trivial, ?_⟩
        cases granted with
        | false => exact hgoOn (.triggered d)
        | true =>
            exact Rules.follows_request fun _ ↦
              ⟨_, .spawn (knows_nil site stem) (Nat.zero_le 0), hgoOn (.triggered d)⟩
    | _ => exact hgoOn _

include hsite hadmits

theorem follows_call (call : Call) :
    (custody site stem).Follows o (fun _ _ ↦ True) (call.activity setup) (.busy 0 .free) := by
  have hforget {α : Type} {a : Supervised α}
      (ha : (custody site stem).Follows o (fun _ _ ↦ True) a (.busy 0 .free)) :
      (custody site stem).Follows o (fun _ _ ↦ True) (a >>= fun _ ↦ pure ()) (.busy 0 .free) :=
    Rules.follows_bind ha fun _ _ _ ↦ trivial
  cases call with
  | start inRuntime =>
      cases inRuntime with
      | false => exact (custody site stem).follows_pure trivial
      | true => exact hforget (follows_start hsite hadmits hsetup)
  | stop =>
      refine Rules.follows_request fun _ ↦ ⟨_, .common trivial, ?_⟩
      exact Rules.follows_request fun _ ↦ ⟨_, .common trivial, trivial⟩
  | background =>
      refine Rules.follows_request fun ran ↦ ⟨_, .common trivial, ?_⟩
      split
      · exact Rules.follows_request fun _ ↦ ⟨_, .common trivial, trivial⟩
      · exact (custody site stem).follows_pure trivial
  | foreground inRuntime =>
      cases inRuntime with
      | false => exact (custody site stem).follows_pure trivial
      | true => exact hforget (follows_foreground hsetup)

theorem follows_task (t : Task) :
    (custody site stem).Follows o (fun _ _ ↦ True) (t.activity setup)
      (.given site stem t.pairs) := by
  by_cases hknows : Knows site stem t.pairs
  · rw [Custody.given, if_pos hknows]
    cases t with
    | poll gen => exact follows_pollOnce gen
    | handOff reason =>
        refine Rules.follows_bind (follows_handOff hsite hadmits hsetup reason) ?_
        intro c result _
        cases result with
        | none => exact (custody site stem).follows_pure trivial
        | some outcome => exact Rules.follows_request fun _ ↦ ⟨_, .common trivial, trivial⟩
    | reanalyze pairs => exact follows_reanalyze hadmits hsetup hknows
    | flush jobs => exact follows_flush hadmits hsetup hknows
  · rw [Custody.given, if_neg hknows]
    exact (follows_wild _).imp fun _ _ _ ↦ trivial

end Govern

end Custody

theorem govern_custody (hsite : site.IsRegular) (hadmits : site.Admits stem)
    (hsetup : setup.Respects site stem) : (custody site stem).Govern setup := by
  intro o
  cases o with
  | call call => exact Custody.follows_call hsite hadmits hsetup call
  | task t => exact Custody.follows_task hsite hadmits hsetup t

end HeapSentry.Supervisor
