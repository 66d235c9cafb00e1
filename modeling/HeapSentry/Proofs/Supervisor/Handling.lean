import HeapSentry.Proofs.Supervisor.Stages

/-!
# The dump is handled once

However the calls and the tasks of a supervisor are interleaved, the heap is dumped once at most,
the dump is analysed once at most, and there is one outcome at most, which is that of the dump.
-/

namespace HeapSentry.Supervisor

open Storage

/-! ## Who asks for what -/

def Origin.handsOff : Origin → Bool
  | .task (.handOff _) => true
  | _ => false

/-- Whether a thread is a call that can bring the host to the foreground. -/
def Origin.returns : Origin → Bool
  | .call (.foreground inRuntime) => inRuntime
  | _ => false

def Origin.starts : Origin → Bool
  | .call (.start _) => true
  | _ => false

/-- What threads of an origin may ask for, as far as the dump is concerned. -/
def Origin.May (o : Origin) : Request → Prop
  | .dumpHeap _ | .defer _ => o.handsOff = true
  | .takeDeferred | .spawn (.flush _) => o.returns = true
  | .publish _ => o.handsOff = true ∨ o.flushes = true
  | .machine (.entries _) => o.starts = true
  | _ => True

variable {setup : Setup} {o : Origin} {duty duty' : Duty} {r : Request} {answer : Answer r}
variable {history : List Moment} {i : Nat}

theorem Request.IsPlain.may (h : r.IsPlain) (o : Origin) : o.May r := by
  cases r with
  | machine r =>
      cases r with
      | entries dir => exact h.elim
      | _ => trivial
  | spawn task =>
      cases task with
      | flush jobs => exact h.elim
      | _ => trivial
  | dumpHeap path => exact h.elim
  | defer job => exact h.elim
  | takeDeferred => exact h.elim
  | publish outcome => exact h.elim
  | _ => trivial

theorem Duty.Step.may (h : Duty.Step setup o duty r answer duty') : o.May r := by
  cases h with
  | plain h => exact h.may o
  | listDumps => rfl
  | listManual => rfl
  | takeDeferred => rfl
  | flush h => rfl
  | dump => rfl
  | giveUp => exact .inl rfl
  | defer h => rfl
  | publish h => exact .inl rfl
  | publishFlushed h => exact .inr rfl
  | _ => trivial

/-! ## What threads know -/

/-- Plain requests tell nothing about the dump. -/
theorem Request.IsPlain.unnoticed (h : r.IsPlain) (i : Nat) (o : Origin) (answer : Answer r) :
    let m : Moment := ⟨i, o, r, answer⟩
    m.dumped? = none ∧ m.deferred? = none ∧ m.taken? = none ∧ m.entrusted? = none ∧
      m.served? = none ∧ m.published? = none := by
  cases r with
  | service r =>
      cases r with
      | size path => exact h.elim
      | _ => exact ⟨rfl, rfl, rfl, rfl, rfl, rfl⟩
  | spawn task =>
      cases task with
      | flush jobs => exact h.elim
      | _ => exact ⟨rfl, rfl, rfl, rfl, rfl, rfl⟩
  | dumpHeap path => exact h.elim
  | defer job => exact h.elim
  | takeDeferred => exact h.elim
  | publish outcome => exact h.elim
  | _ => exact ⟨rfl, rfl, rfl, rfl, rfl, rfl⟩

/-- Whether what a thread holds goes back to requests that were made. -/
def Duty.Knows (history : List Moment) : Duty → Prop
  | .holding path _ => path ∈ dumps history
  | .carrying jobs | .flushing jobs _ => jobs ⊆ deferrals history
  | _ => True

theorem Duty.Knows.snoc {duty : Duty} (h : duty.Knows history) (m : Moment) :
    duty.Knows (history ++ [m]) := by
  cases duty with
  | holding path progress => exact mem_filterMap_snoc.2 (.inl h)
  | carrying jobs => exact fun job hjob ↦ mem_filterMap_snoc.2 (.inl (h hjob))
  | flushing jobs progress => exact fun job hjob ↦ mem_filterMap_snoc.2 (.inl (h hjob))
  | _ => trivial

section News

variable (h : Duty.Step setup o duty r answer duty') (hduty : duty.Knows history) (i : Nat)
include h hduty

theorem Duty.Step.knows
    (htaken : ∀ jobs, Moment.taken? ⟨i, o, r, answer⟩ = some jobs → jobs ⊆ deferrals history) :
    duty'.Knows (history ++ [⟨i, o, r, answer⟩]) := by
  have hold := hduty.snoc ⟨i, o, r, answer⟩
  cases h with
  | plain h => exact hold
  | @claimRecovery _ granted => cases granted <;> trivial
  | takeDeferred => exact fun job hjob ↦ mem_filterMap_snoc.2 (.inl (htaken _ rfl hjob))
  | @poll _ _ outcome => cases outcome <;> trivial
  | @claimLaunch _ granted => cases granted <;> trivial
  | dump => exact mem_filterMap_snoc.2 (.inr rfl)
  | count => exact hold
  | serve => exact hold
  | countFlushed => exact hold
  | serveFlushed => exact hold
  | publishFlushed h => exact fun job hjob ↦ hold (List.mem_cons_of_mem _ hjob)
  | _ => trivial

theorem Duty.Step.pair_deferred {job : Job} (hjob : Moment.deferred? ⟨i, o, r, answer⟩ = some job) :
    ∃ path ∈ dumps history, job.pair = .ofHprof path := by
  cases h with
  | plain h => simp [(h.unnoticed i o answer).2.1] at hjob
  | @defer _ path _ hpair =>
      obtain rfl := Option.some.inj hjob
      exact ⟨path, hduty, hpair⟩
  | _ => cases hjob

theorem Duty.Step.jobs_entrusted {jobs : List Job}
    (hjobs : Moment.entrusted? ⟨i, o, r, answer⟩ = some jobs) :
    jobs ≠ [] ∧ jobs ⊆ deferrals history := by
  cases h with
  | plain h => simp [(h.unnoticed i o answer).2.2.2.1] at hjobs
  | flush hne =>
      obtain rfl := Option.some.inj hjobs
      exact ⟨hne, hduty⟩
  | _ => cases hjobs

variable (hdeferrals : ∀ job ∈ deferrals history, ∃ path ∈ dumps history, job.pair = .ofHprof path)
include hdeferrals

theorem Duty.Step.path_served {path : String}
    (hpath : Moment.served? ⟨i, o, r, answer⟩ = some path) : path ∈ dumps history := by
  cases h with
  | plain h => simp [(h.unnoticed i o answer).2.2.2.2.1] at hpath
  | serve =>
      obtain rfl := Option.some.inj hpath
      exact hduty
  | @serveFlushed _ _ job =>
      obtain rfl := Option.some.inj hpath
      obtain ⟨path, hdumped, hpair⟩ := hdeferrals job (hduty List.mem_cons_self)
      rwa [hpair]
  | _ => cases hpath

theorem Duty.Step.outcome_published {outcome : Outcome}
    (houtcome : Moment.published? ⟨i, o, r, answer⟩ = some outcome) :
    (∃ message, outcome = .failed message) ∨
      ∃ path ∈ dumps history, outcome.Concerns (.ofHprof path) := by
  cases h with
  | plain h => simp [(h.unnoticed i o answer).2.2.2.2.2] at houtcome
  | giveUp =>
      obtain rfl := Option.some.inj houtcome
      exact .inl ⟨_, rfl⟩
  | @publish _ path _ _ hconcerns =>
      obtain rfl := Option.some.inj houtcome
      exact .inr ⟨path, hduty, hconcerns⟩
  | @publishFlushed _ _ job _ _ hconcerns =>
      obtain rfl := Option.some.inj houtcome
      obtain ⟨path, hdumped, hpair⟩ := hdeferrals job (hduty List.mem_cons_self)
      exact .inr ⟨path, hdumped, hpair ▸ hconcerns⟩
  | _ => cases houtcome

end News

variable {p p' : Play (duties setup)} {move : Move}

/-- Whether what is known in a play goes back to requests that were made. -/
structure Play.IsInformed (p : Play (duties setup)) : Prop where
  threads : ∀ m ∈ p.history, ∃ duty : Duty, p.cast[m.thread]? = some (m.origin, duty)
  may : ∀ m ∈ p.history, m.origin.May m.request
  cast : ∀ {i : Nat} {o : Origin} {duty : Duty}, p.cast[i]? = some (o, duty) →
    duty.Knows p.history
  flushers : ∀ {i : Nat} {jobs : List Job} {duty : Duty},
    p.cast[i]? = some (.task (.flush jobs), duty) → jobs ∈ entrusted p.history
  tasks : ∀ jobs, Task.flush jobs ∈ p.world.memory.tasks → jobs ∈ entrusted p.history
  deferred : p.world.memory.deferred ⊆ deferrals p.history
  deferrals : ∀ job ∈ deferrals p.history, ∃ path ∈ dumps p.history, job.pair = .ofHprof path
  entrusted : ∀ jobs ∈ entrusted p.history, jobs ≠ [] ∧ jobs ⊆ Supervisor.deferrals p.history
  services : ∀ path ∈ services p.history, path ∈ dumps p.history
  publications : ∀ outcome ∈ publications p.history, (∃ message, outcome = .failed message) ∨
    ∃ path ∈ dumps p.history, outcome.Concerns (.ofHprof path)

/-- A task that flushes was asked for. -/
theorem World.mem_tasks_perform {settings : Settings} {w w' : World}
    (hw : w.perform settings r = (answer, w')) {jobs : List Job}
    (h : Task.flush jobs ∈ w'.memory.tasks) (i : Nat) (o : Origin) :
    Task.flush jobs ∈ w.memory.tasks ∨ Moment.entrusted? ⟨i, o, r, answer⟩ = some jobs := by
  rw [World.tasks_perform hw i o] at h
  obtain hold | hnew := List.mem_append.1 h
  · exact .inl hold
  · cases r with
    | spawn task =>
        obtain rfl := List.mem_singleton.1 hnew
        exact .inr rfl
    | _ => cases hnew

theorem Play.IsInformed.enter (h : p.IsInformed) (o : Origin)
    (ho : ∀ jobs, o = .task (.flush jobs) → jobs ∈ Supervisor.entrusted p.history) :
    (p.enter o).IsInformed where
  threads m hm := by
    obtain ⟨duty, hduty⟩ := h.threads m hm
    exact ⟨duty, getElem?_snoc_eq_some_iff.2 (.inl hduty)⟩
  may := h.may
  cast hpart := by
    obtain hold | ⟨-, hnew⟩ := getElem?_snoc_eq_some_iff.1 hpart
    · exact h.cast hold
    · obtain ⟨rfl, rfl⟩ := Prod.mk.inj hnew
      cases o with
      | call c =>
          cases c with
          | foreground inRuntime => cases inRuntime <;> trivial
          | _ => trivial
      | task t =>
          cases t with
          | flush jobs => exact (h.entrusted jobs (ho jobs rfl)).2
          | _ => trivial
  flushers hpart := by
    obtain hold | ⟨-, hnew⟩ := getElem?_snoc_eq_some_iff.1 hpart
    · exact h.flushers hold
    · exact ho _ (Prod.mk.inj hnew).1
  tasks := h.tasks
  deferred := h.deferred
  deferrals := h.deferrals
  entrusted := h.entrusted
  services := h.services
  publications := h.publications

theorem Play.IsInformed.answered (h : p.IsInformed) {world : World}
    (hpart : p.cast[i]? = some (o, duty)) (hduty : Duty.Step setup o duty r answer duty')
    (hw : p.world.perform setup.settings r = (answer, world)) :
    (p.answered i o duty' world r answer).IsInformed := by
  have hknows := h.cast hpart
  have htaken (jobs : List Job) (hjobs : Moment.taken? ⟨i, o, r, answer⟩ = some jobs) :
      jobs ⊆ Supervisor.deferrals p.history := World.taken_perform hw hjobs ▸ h.deferred
  have hdumps {path : String} (hpath : path ∈ dumps p.history) :
      path ∈ dumps (p.history ++ [⟨i, o, r, answer⟩]) := mem_filterMap_snoc.2 (.inl hpath)
  have hdeferrals {job : Job} (hjob : job ∈ Supervisor.deferrals p.history) :
      job ∈ Supervisor.deferrals (p.history ++ [⟨i, o, r, answer⟩]) :=
    mem_filterMap_snoc.2 (.inl hjob)
  constructor
  case threads =>
    intro m hm
    have hi : i < p.cast.length := (List.getElem?_eq_some_iff.1 hpart).1
    have hself : (p.cast.set i (o, duty'))[i]? = some (o, duty') := List.getElem?_set_self hi
    obtain hold | rfl := mem_snoc.1 hm
    · obtain ⟨other, hother⟩ := h.threads m hold
      by_cases hthread : i = m.thread
      · rw [← hthread] at hother
        obtain ⟨horigin, -⟩ := Prod.mk.inj (Option.some.inj (hpart.symm.trans hother))
        exact ⟨duty', by rw [← hthread, ← horigin]; exact hself⟩
      · exact ⟨other, (List.getElem?_set_ne hthread).trans hother⟩
    · exact ⟨duty', hself⟩
  case may =>
    intro m hm
    obtain hold | rfl := mem_snoc.1 hm
    · exact h.may m hold
    · exact hduty.may
  case cast =>
    intro j o' other hj
    obtain ⟨-, hnew⟩ | ⟨-, hold⟩ := getElem?_set_eq_some hj
    · obtain ⟨-, rfl⟩ := Prod.mk.inj hnew
      exact hduty.knows hknows i htaken
    · exact (h.cast hold).snoc _
  case flushers =>
    intro j jobs other hj
    refine mem_filterMap_snoc.2 (.inl ?_)
    obtain ⟨-, hnew⟩ | ⟨-, hold⟩ := getElem?_set_eq_some hj
    · obtain ⟨rfl, -⟩ := Prod.mk.inj hnew
      exact h.flushers hpart
    · exact h.flushers hold
  case tasks =>
    intro jobs hjobs
    obtain hold | hnew := World.mem_tasks_perform hw hjobs i o
    · exact mem_filterMap_snoc.2 (.inl (h.tasks jobs hold))
    · exact mem_filterMap_snoc.2 (.inr hnew)
  case deferred =>
    intro job hjob
    have hqueue : job ∈ Moment.onQueue p.world.memory.deferred ⟨i, o, r, answer⟩ := by
      rwa [← World.deferred_perform hw]
    rw [Moment.onQueue] at hqueue
    split at hqueue
    · cases hqueue
    · obtain hold | hnew := List.mem_append.1 hqueue
      · exact hdeferrals (h.deferred hold)
      · exact mem_filterMap_snoc.2 (.inr (Option.mem_toList.1 hnew))
  case deferrals =>
    intro job hjob
    obtain ⟨path, hpath, hpair⟩ : ∃ path ∈ dumps p.history, job.pair = .ofHprof path := by
      obtain hold | hnew := mem_filterMap_snoc.1 hjob
      · exact h.deferrals job hold
      · exact hduty.pair_deferred hknows i hnew
    exact ⟨path, hdumps hpath, hpair⟩
  case entrusted =>
    intro jobs hjobs
    obtain ⟨hne, hsub⟩ : jobs ≠ [] ∧ jobs ⊆ Supervisor.deferrals p.history := by
      obtain hold | hnew := mem_filterMap_snoc.1 hjobs
      · exact h.entrusted jobs hold
      · exact hduty.jobs_entrusted hknows i hnew
    exact ⟨hne, fun job hjob ↦ hdeferrals (hsub hjob)⟩
  case services =>
    intro path hpath
    obtain hold | hnew := mem_filterMap_snoc.1 hpath
    · exact hdumps (h.services path hold)
    · exact hdumps (hduty.path_served hknows i h.deferrals hnew)
  case publications =>
    intro outcome houtcome
    have hfrom : (∃ message, outcome = .failed message) ∨
        ∃ path ∈ dumps p.history, outcome.Concerns (.ofHprof path) := by
      obtain hold | hnew := mem_filterMap_snoc.1 houtcome
      · exact h.publications outcome hold
      · exact hduty.outcome_published hknows i h.deferrals hnew
    obtain hfailed | ⟨path, hpath, hconcerns⟩ := hfrom
    · exact .inl hfailed
    · exact .inr ⟨path, hdumps hpath, hconcerns⟩

theorem Play.IsInformed.step (h : p.IsInformed) (hstep : p.Step setup move p') :
    p'.IsInformed := by
  cases hstep with
  | call c => exact h.enter _ fun _ ho ↦ nomatch ho
  | @begin position task htask =>
      have hrest : Play.IsInformed { p with world := p.world.withoutTask position } :=
        { h with tasks := fun jobs hjobs ↦ h.tasks jobs (List.mem_of_mem_eraseIdx hjobs) }
      refine hrest.enter _ fun jobs ho ↦ ?_
      obtain rfl : task = .flush jobs := Origin.task.inj ho
      exact h.tasks jobs (List.mem_of_getElem? htask)
  | ask hpart hduty hw => exact h.answered hpart hduty hw
  | surround machine host process => exact { h with }

/-! ## What each thread has done -/

/-- Whether the requests of a thread fit its duty. -/
def Duty.Told (own : List Moment) : Origin → Duty → Prop
  | .call (.foreground true), .returning => takings own = [] ∧ entrusted own = []
  | .call (.foreground true), .carrying jobs => takings own = [jobs] ∧ entrusted own = []
  | .call (.foreground true), .idle =>
    ∃ jobs, jobs ≠ [] ∧ takings own = [jobs] ∧ entrusted own = [jobs]
  | .call (.foreground true), _ => False
  | .task (.flush all), .flushing jobs _ => (publications own).length + jobs.length = all.length
  | .task (.flush _), _ => False
  | _, _ => True

theorem Duty.Told.congr {own own' : List Moment} (hown : duty.Told own o)
    (htaken : takings own' = takings own) (hgiven : entrusted own' = entrusted own)
    (houtcome : publications own' = publications own) : duty.Told own' o := by
  unfold Duty.Told at hown ⊢
  rwa [htaken, hgiven, houtcome]

theorem Duty.Step.told (h : Duty.Step setup o duty r answer duty') (i : Nat) {own : List Moment}
    (hown : duty.Told own o) : duty'.Told (own ++ [⟨i, o, r, answer⟩]) o := by
  have htakings : takings (own ++ [⟨i, o, r, answer⟩]) =
      takings own ++ (Moment.taken? ⟨i, o, r, answer⟩).toList := filterMap_snoc ..
  have hentrusted : entrusted (own ++ [⟨i, o, r, answer⟩]) =
      entrusted own ++ (Moment.entrusted? ⟨i, o, r, answer⟩).toList := filterMap_snoc ..
  have hpublished : publications (own ++ [⟨i, o, r, answer⟩]) =
      publications own ++ (Moment.published? ⟨i, o, r, answer⟩).toList := filterMap_snoc ..
  have hnil {β : Type} (bs : List β) : bs ++ (none : Option β).toList = bs := List.append_nil bs
  cases h with
  | plain h =>
      obtain ⟨-, -, htaken, hgiven, -, houtcome⟩ := h.unnoticed i o answer
      rw [htaken, hnil] at htakings
      rw [hgiven, hnil] at hentrusted
      rw [houtcome, hnil] at hpublished
      exact hown.congr htakings hentrusted hpublished
  | takeDeferred =>
      have htaken : takings own = [] := hown.1
      have hgiven : entrusted own = [] := hown.2
      rw [htaken] at htakings
      rw [hgiven] at hentrusted
      exact ⟨htakings, hentrusted⟩
  | @flush jobs hne =>
      have htaken : takings own = [jobs] := hown.1
      have hgiven : entrusted own = [] := hown.2
      rw [htaken] at htakings
      rw [hgiven] at hentrusted
      exact ⟨jobs, hne, htakings, hentrusted⟩
  | countFlushed =>
      exact hown.congr (htakings.trans (hnil _)) (hentrusted.trans (hnil _))
        (hpublished.trans (hnil _))
  | serveFlushed =>
      exact hown.congr (htakings.trans (hnil _)) (hentrusted.trans (hnil _))
        (hpublished.trans (hnil _))
  | @publishFlushed all jobs job progress outcome =>
      have hlength : (publications own).length + (jobs.length + 1) = all.length := hown
      have hone := congrArg List.length hpublished
      rw [List.length_append] at hone
      change _ + jobs.length = all.length
      rw [hone, ← hlength, Nat.add_assoc]
      exact congrArg _ (Nat.add_comm 1 _)
  | _ => trivial

/-- Whether all threads have done what their duties tell. -/
def Play.IsTold (p : Play (duties setup)) : Prop :=
  ∀ (i : Nat) (o : Origin) (duty : Duty), p.cast[i]? = some (o, duty) →
    duty.Told (ofThread i p.history) o

theorem Play.IsTold.step (h : p.IsTold) (hp : p.IsInformed) (hstep : p.Step setup move p') :
    p'.IsTold := by
  have henter {q : Play (duties setup)} (hcast : q.cast = p.cast) (hhistory : q.history = p.history)
      (o : Origin) : (q.enter o).IsTold := by
    intro i o' duty hpart
    rw [Play.enter, hcast] at hpart
    simp only [Play.enter, hhistory]
    obtain hold | ⟨rfl, hnew⟩ := getElem?_snoc_eq_some_iff.1 hpart
    · exact h i o' duty hold
    · have hown : ofThread p.cast.length p.history = [] := by
        rw [ofThread, List.filter_eq_nil_iff]
        intro m hm
        obtain ⟨other, hother⟩ := hp.threads m hm
        have hlt : m.thread < p.cast.length := (List.getElem?_eq_some_iff.1 hother).1
        simpa using Nat.ne_of_lt hlt
      obtain ⟨rfl, rfl⟩ := Prod.mk.inj hnew
      rw [hown]
      cases o with
      | call c =>
          cases c with
          | foreground inRuntime =>
              cases inRuntime with
              | false => trivial
              | true => exact ⟨rfl, rfl⟩
          | _ => trivial
      | task t =>
          cases t with
          | flush jobs => exact Nat.zero_add _
          | _ => trivial
  cases hstep with
  | call c => exact henter rfl rfl _
  | begin htask => exact henter rfl rfl _
  | @ask i o duty duty' r answer world hpart hduty hw =>
      intro j o' other hj
      have hown : ofThread j (p.history ++ [⟨i, o, r, answer⟩]) =
          ofThread j p.history ++ if i = j then [⟨i, o, r, answer⟩] else [] := by
        by_cases hij : i = j
        · simp [ofThread, hij]
        · simp [ofThread, hij]
      simp only [Play.answered, hown]
      obtain ⟨rfl, hnew⟩ | ⟨hij, hold⟩ := getElem?_set_eq_some hj
      · obtain ⟨rfl, rfl⟩ := Prod.mk.inj hnew
        rw [if_pos rfl]
        exact hduty.told i (h i o duty hpart)
      · rw [if_neg hij, List.append_nil]
        exact h j o' other hold
  | surround machine host process => exact h

/-- The threads that flush and the tasks that will are as many as were entrusted with analyses. -/
def Play.CountsFlushes (p : Play (duties setup)) : Prop :=
  (p.cast.map Prod.fst).countP Origin.flushes + p.world.memory.tasks.countP Task.flushes =
    (entrusted p.history).length

theorem countP_spawned (m : Moment) :
    m.spawned?.toList.countP Task.flushes = m.entrusted?.toList.length := by
  obtain ⟨i, o, r, answer⟩ := m
  cases r with
  | spawn task => cases task <;> rfl
  | _ => rfl

theorem Play.CountsFlushes.step (h : p.CountsFlushes) (hstep : p.Step setup move p') :
    p'.CountsFlushes := by
  cases hstep with
  | call c =>
      have hone : (p.cast.map Prod.fst ++ [Origin.call c]).countP Origin.flushes =
          (p.cast.map Prod.fst).countP Origin.flushes := by
        rw [List.countP_append]
        rfl
      rw [CountsFlushes, Play.enter, List.map_append]
      exact (congrArg (· + _) hone).trans h
  | @begin position task htask =>
      obtain ⟨hlt, rfl⟩ := List.getElem?_eq_some_iff.1 htask
      have hall := (List.getElem_cons_eraseIdx_perm hlt).countP_eq Task.flushes
      have hone : (p.cast.map Prod.fst ++ [Origin.task p.world.memory.tasks[position]]).countP
          Origin.flushes = (p.cast.map Prod.fst).countP Origin.flushes +
            if p.world.memory.tasks[position].flushes then 1 else 0 := by
        rw [List.countP_append, List.countP_singleton]
        rfl
      rw [CountsFlushes, Play.enter, List.map_append]
      refine (congrArg (· + _) hone).trans ?_
      rw [List.countP_cons] at hall
      rw [CountsFlushes] at h
      simp only [World.withoutTask, World.remember]
      omega
  | @ask i o duty duty' r answer world hpart hduty hw =>
      have hcast : (p.cast.set i (o, duty')).map Prod.fst = p.cast.map Prod.fst := by
        obtain ⟨hlt, hget⟩ := List.getElem?_eq_some_iff.1 hpart
        have hi : i < (p.cast.map Prod.fst).length := by rwa [List.length_map]
        have ho : (p.cast.map Prod.fst)[i] = o := by rw [List.getElem_map, hget]
        rw [List.map_set, ← ho]
        exact List.set_getElem_self hi
      have hentrusted : entrusted (p.history ++ [⟨i, o, r, answer⟩]) =
          entrusted p.history ++ (Moment.entrusted? ⟨i, o, r, answer⟩).toList := filterMap_snoc ..
      have hspawned := countP_spawned ⟨i, o, r, answer⟩
      rw [CountsFlushes] at h ⊢
      simp only [Play.answered]
      rw [hcast, World.tasks_perform hw i o, List.countP_append, hentrusted, List.length_append]
      omega
  | surround machine host process => exact h

/-- What is known of any run of a supervisor that was just set up. -/
structure Play.IsSound (p : Play (duties setup)) : Prop where
  informed : p.IsInformed
  told : p.IsTold
  flushes : p.CountsFlushes
  before : ∀ k, (Stock.before k).total p ≤ 1
  scans : (Stock.scans setup).total p ≤ 1

theorem Play.IsSound.step (h : p.IsSound) (hstep : p.Step setup move p') : p'.IsSound where
  informed := h.informed.step hstep
  told := h.told.step h.informed hstep
  flushes := h.flushes.step hstep
  before k := Nat.le_trans ((Stock.lasts_before setup k).total_le hstep) (h.before k)
  scans := Nat.le_trans ((Stock.lasts_scans setup).total_le hstep) h.scans

section Run

variable (setup) (machine : Machine) (ledger : Ledger) (host : Host) (process : Process)

theorem Play.isSound_opening :
    (Play.opening (duties setup) (.fresh machine ledger host process)).IsSound where
  informed := {
    threads := fun _ hm ↦ nomatch hm
    may := fun _ hm ↦ nomatch hm
    cast := fun hpart ↦ nomatch hpart
    flushers := fun hpart ↦ nomatch hpart
    tasks := fun _ ht ↦ nomatch ht
    deferred := List.Subset.refl _
    deferrals := fun _ hjob ↦ nomatch hjob
    entrusted := fun _ hjobs ↦ nomatch hjobs
    services := fun _ hpath ↦ nomatch hpath
    publications := fun _ houtcome ↦ nomatch houtcome }
  told := fun _ _ _ hpart ↦ nomatch hpart
  flushes := rfl
  before k := by
    have hheld : held k .unclaimed 1 ≤ 1 := by
      rw [held]
      split <;> decide
    simpa [Stock.total, Stock.inWorld, Stock.spentIn, Play.opening, World.fresh, Stock.before]
      using hheld
  scans := Nat.le_refl 1

theorem exists_sound_play (moves : List Move) :
    ∃ p : Play (duties setup),
      p.Shows ((Scene.opening (.fresh machine ledger host process)).run setup moves) ∧ p.IsSound :=
  Play.Shows.run (govern_duties setup) (fun hstep h ↦ h.step hstep)
    (Play.shows_opening (duties setup) _) (Play.isSound_opening setup machine ledger host process)
    moves

end Run

theorem Origin.eq_of_returns (h : o.returns = true) : o = .call (.foreground true) := by
  cases o with
  | call c =>
      cases c with
      | foreground inRuntime =>
          obtain rfl : inRuntime = true := h
          rfl
      | _ => cases h
  | task t => cases h

theorem Play.IsSound.length_le {β : Type} (h : p.IsSound) (k : Stage) {f : Moment → Option β}
    (hf : ∀ m b, f m = some b → 1 ≤ (Stock.before k).spent m.origin m.request m.answer) :
    (p.history.filterMap f).length ≤ 1 := by
  have hspent := Stock.length_filterMap_le_spentIn hf p.history
  exact Nat.le_trans hspent (Nat.le_trans (Nat.le_add_left _ _) (h.before k))

theorem Play.IsSound.length_dumps_le (h : p.IsSound) : (dumps p.history).length ≤ 1 := by
  refine h.length_le .holding fun m path hm ↦ ?_
  obtain ⟨i, o, r, answer⟩ := m
  cases r with
  | dumpHeap path => exact Nat.le_refl 1
  | _ => cases hm

theorem Play.IsSound.length_deferrals_le (h : p.IsSound) : (deferrals p.history).length ≤ 1 := by
  refine h.length_le .deferred fun m job hm ↦ ?_
  obtain ⟨i, o, r, answer⟩ := m
  cases r with
  | defer job => exact Nat.le_refl 1
  | _ => cases hm

theorem Play.IsSound.length_entrusted_le (h : p.IsSound) : (entrusted p.history).length ≤ 1 := by
  refine h.length_le .entrusted fun m jobs hm ↦ ?_
  obtain ⟨i, o, r, answer⟩ := m
  cases r with
  | spawn task =>
      cases task with
      | flush jobs => exact Nat.le_refl 1
      | _ => cases hm
  | _ => cases hm

theorem Play.IsSound.length_services_le (h : p.IsSound) : (services p.history).length ≤ 1 := by
  refine h.length_le .served fun m path hm ↦ ?_
  obtain ⟨i, o, r, answer⟩ := m
  cases r with
  | service r =>
      cases r with
      | size path =>
          cases hagain : o.reanalyzes with
          | false => simp [Stock.before, hagain]
          | true => simp [Moment.served?, hagain] at hm
      | _ => cases hm
  | _ => cases hm

theorem Play.IsSound.length_publications_le (h : p.IsSound) :
    (publications p.history).length ≤ 1 := by
  refine h.length_le .published fun m outcome hm ↦ ?_
  obtain ⟨i, o, r, answer⟩ := m
  cases r with
  | publish outcome => exact Nat.le_refl 1
  | _ => cases hm

theorem Play.IsSound.countP_listsDumps_le (h : p.IsSound) :
    p.history.countP (·.listsDumps setup.store) ≤ 1 := by
  rw [List.countP_eq_length_filter, ← List.filterMap_eq_filter]
  refine Nat.le_trans (Stock.length_filterMap_le_spentIn (k := .scans setup) ?_ p.history)
    (Nat.le_trans (Nat.le_add_left _ _) h.scans)
  intro m listed hm
  obtain ⟨i, o, r, answer⟩ := m
  have hlists : Moment.listsDumps setup.store ⟨i, o, r, answer⟩ = true := by
    by_contra hnot
    simp [Option.guard, hnot] at hm
  cases r with
  | machine r =>
      cases r with
      | entries dir =>
          have hdir : dir = setup.store.analysisDir := of_decide_eq_true hlists
          exact Nat.le_of_eq (if_pos hdir).symm
      | _ => cases hlists
  | _ => cases hlists

/-! ## The dump is handled once -/

/-- What is true of the dump at any time. -/
structure Scene.HandlesDumpOnce (setup : Setup) (s : Scene) : Prop where
  /-- The heap is dumped at most once. -/
  dumps : (dumps s.history).length ≤ 1
  /-- At most one analysis is put off. -/
  deferrals : (deferrals s.history).length ≤ 1
  /-- Until an analysis is put off, there is nothing to take. -/
  untaken : ∀ earlier later, s.history = earlier ++ later → Supervisor.deferrals earlier = [] →
    ∀ jobs ∈ takings earlier, jobs = []
  /-- An analysis that was put off goes to the first who takes what waits, and to nobody else. -/
  taken : ∀ earlier i o job later, s.history = earlier ++ ⟨i, o, .defer job, ()⟩ :: later →
    takings later = [] ∨ ∃ others, takings later = [job] :: others ∧ ∀ jobs ∈ others, jobs = []
  /-- Only calls that bring the host to the foreground take what waits. -/
  takers : ∀ m ∈ s.history, m.taken?.isSome → m.origin = .call (.foreground true)
  /-- Each such call takes once, and has a task flush what it took. -/
  returned : ∀ i t, s.threads[i]? = some t → t.origin = .call (.foreground true) →
    t.isDone = true → ∃ jobs, takings (ofThread i s.history) = [jobs] ∧
      entrusted (ofThread i s.history) = if jobs = [] then [] else [jobs]
  /-- Nobody else has tasks flush. -/
  entrusters : ∀ m ∈ s.history, ∀ jobs, m.entrusted? = some jobs →
    m.origin = .call (.foreground true) ∧ takings (ofThread m.thread s.history) = [jobs]
  /-- At most one task flushes. -/
  flushers : s.threads.countP (·.origin.flushes) ≤ 1
  /-- It flushes the analysis that was put off, and comes to one outcome. -/
  flushed : ∀ i t jobs, s.threads[i]? = some t → t.origin = .task (.flush jobs) →
    jobs = Supervisor.deferrals s.history ∧ jobs.length = 1 ∧
      (t.isDone = true → (publications (ofThread i s.history)).length = 1)
  /-- The analysis of the dump is begun at most once, apart from what earlier runs left. -/
  services : (services s.history).length ≤ 1 ∧
    ∀ path ∈ Supervisor.services s.history, path ∈ Supervisor.dumps s.history
  /-- At most one outcome is published. -/
  publications : (publications s.history).length ≤ 1
  outcome : s.world.memory.outcome = (Supervisor.publications s.history).head?
  /-- What was published stays. -/
  lasts : ∀ more, s.world.memory.outcome.isSome →
    (s.run setup more).world.memory.outcome = s.world.memory.outcome
  /-- It is the outcome of the dump, not of one that an earlier run left. -/
  publishers : ∀ m ∈ s.history, m.published?.isSome →
    m.origin.handsOff = true ∨ m.origin.flushes = true
  concerns : ∀ path, s.world.memory.outcome = some (.finished path) →
    ∃ hprof ∈ Supervisor.dumps s.history, path = (DumpPair.ofHprof hprof).json
  /-- What earlier runs left is sorted out at most once. -/
  scans : s.history.countP (·.listsDumps setup.store) ≤ 1

section Handled

variable {s : Scene}

theorem takings_of_deferrals_eq_nil (h : s.IsRecorded) {earlier later : List Moment}
    (hsplit : s.history = earlier ++ later) (hnone : deferrals earlier = []) :
    ∀ jobs ∈ takings earlier, jobs = [] := by
  intro jobs hjobs
  obtain ⟨m, hm, htaken⟩ := List.mem_filterMap.1 hjobs
  obtain ⟨before, after, rfl⟩ := List.append_of_mem hm
  have hqueue := h.taken before m (after ++ later) jobs
    (by rw [hsplit, List.append_assoc, List.cons_append]) htaken
  have hbefore : deferrals before = [] := by
    rw [deferrals, List.filterMap_append] at hnone
    exact (List.append_eq_nil_iff.1 hnone).1
  have hsubset := queue_subset before
  rw [hbefore, ← hqueue] at hsubset
  exact List.eq_nil_of_subset_nil hsubset

/-- If one analysis is put off, the first who takes what waits takes that. -/
theorem takings_of_deferral (h : s.IsRecorded) (hone : (deferrals s.history).length ≤ 1)
    {earlier later : List Moment} {i : Nat} {o : Origin} {job : Job}
    (hsplit : s.history = earlier ++ ⟨i, o, .defer job, ()⟩ :: later) :
    deferrals earlier = [] ∧ (takings later = [] ∨
      ∃ others, takings later = [job] :: others ∧ ∀ jobs ∈ others, jobs = []) := by
  have hall : deferrals s.history = deferrals earlier ++ job :: deferrals later := by
    rw [hsplit, deferrals, List.filterMap_append]
    rfl
  rw [hall, List.length_append, List.length_cons] at hone
  have hearlier : deferrals earlier = [] := List.length_eq_zero_iff.1 (by omega)
  have hlater : deferrals later = [] := List.length_eq_zero_iff.1 (by omega)
  have hqueue : queue earlier = [] := by
    have hsubset := queue_subset earlier
    rw [hearlier] at hsubset
    exact List.eq_nil_of_subset_nil hsubset
  refine ⟨hearlier, takings_of_no_deferrals hlater fun before m after jobs hrest hm ↦ ?_⟩
  rw [h.taken (earlier ++ ⟨i, o, .defer job, ()⟩ :: before) m after jobs
    (by rw [hsplit, hrest, List.append_assoc, List.cons_append]) hm, queue, List.foldl_append]
  rw [queue] at hqueue
  rw [hqueue]
  rfl

variable (h : p.Shows s) (hp : p.IsSound)
include h hp

theorem entrusted_of_mem {m : Moment} (hm : m ∈ s.history) {jobs : List Job}
    (hjobs : m.entrusted? = some jobs) :
    m.origin = .call (.foreground true) ∧ takings (ofThread m.thread s.history) = [jobs] := by
  rw [← h.history] at hm ⊢
  have hmay := hp.informed.may m hm
  obtain ⟨duty, hpart⟩ := hp.informed.threads m hm
  have htold := hp.told _ _ _ hpart
  have hown : jobs ∈ entrusted (ofThread m.thread p.history) :=
    List.mem_filterMap.2 ⟨m, List.mem_filter.2 ⟨hm, decide_eq_true rfl⟩, hjobs⟩
  obtain ⟨i, o, r, answer⟩ := m
  cases r with
  | spawn task =>
      cases task with
      | flush given =>
          obtain rfl := Origin.eq_of_returns hmay
          refine ⟨rfl, ?_⟩
          cases duty with
          | returning =>
              rw [htold.2] at hown
              cases hown
          | carrying carried =>
              rw [htold.2] at hown
              cases hown
          | idle =>
              obtain ⟨taken, -, htakings, hgiven⟩ := htold
              rw [hgiven] at hown
              obtain rfl := List.mem_singleton.1 hown
              exact htakings
          | _ => exact htold.elim
      | _ => cases hjobs
  | _ => cases hjobs

theorem returned_of_isDone {t : Thread} (ht : s.threads[i]? = some t)
    (horigin : t.origin = .call (.foreground true)) (hdone : t.isDone = true) :
    ∃ jobs, takings (ofThread i s.history) = [jobs] ∧
      entrusted (ofThread i s.history) = if jobs = [] then [] else [jobs] := by
  obtain ⟨duty, hpart, hclosing⟩ := h.closing ht hdone
  have htold := hp.told i t.origin duty hpart
  rw [horigin, h.history] at htold
  cases duty with
  | returning => exact hclosing.elim
  | carrying jobs =>
      cases jobs with
      | nil => exact ⟨[], htold.1, htold.2⟩
      | cons job jobs => exact hclosing.elim
  | idle =>
      obtain ⟨jobs, hne, htakings, hgiven⟩ := htold
      exact ⟨jobs, htakings, by rw [if_neg hne, hgiven]⟩
  | _ => exact htold.elim

theorem countP_flushes_le : s.threads.countP (·.origin.flushes) ≤ 1 := by
  have hcount := hp.flushes
  have hgiven := hp.length_entrusted_le
  have horigins : (s.threads.map Thread.origin).countP Origin.flushes =
      s.threads.countP (·.origin.flushes) := List.countP_map
  rw [Play.CountsFlushes, h.origins, horigins] at hcount
  omega

/-- What is flushed is what was put off. -/
theorem entrusted_eq_deferrals (hs : s.IsRecorded) {jobs : List Job}
    (hgiven : jobs ∈ entrusted s.history) :
    jobs = deferrals s.history ∧ (deferrals s.history).length = 1 := by
  have hone := hp.length_deferrals_le
  obtain ⟨hne, hsubset⟩ := hp.informed.entrusted jobs (by rwa [h.history])
  rw [h.history] at hone hsubset
  have htaken : jobs ∈ takings s.history := by
    obtain ⟨m, hm, hjobs⟩ := List.mem_filterMap.1 hgiven
    have hown : jobs ∈ takings (ofThread m.thread s.history) :=
      (entrusted_of_mem h hp hm hjobs).2 ▸ List.mem_singleton_self jobs
    obtain ⟨m', hm', hjobs'⟩ := List.mem_filterMap.1 hown
    exact List.mem_filterMap.2 ⟨m', (List.mem_filter.1 hm').1, hjobs'⟩
  obtain ⟨job, hjob⟩ := List.exists_mem_of_ne_nil jobs hne
  obtain ⟨⟨i, o, r, answer⟩, hm, hdeferred⟩ := List.mem_filterMap.1 (hsubset hjob)
  cases r with
  | defer waiting =>
      obtain rfl := Option.some.inj hdeferred
      obtain ⟨earlier, later, hsplit⟩ := List.append_of_mem hm
      obtain ⟨hearlier, hlater⟩ := takings_of_deferral hs hone hsplit
      have htakings : takings s.history = takings earlier ++ takings later := by
        rw [hsplit, takings, List.filterMap_append]
        rfl
      have hjobs : jobs = [waiting] := by
        obtain hold | hnew := List.mem_append.1 (htakings ▸ htaken)
        · exact absurd (takings_of_deferrals_eq_nil hs hsplit hearlier jobs hold) hne
        · obtain hnil | ⟨others, hothers, hall⟩ := hlater
          · rw [hnil] at hnew
            cases hnew
          · rw [hothers] at hnew
            obtain hfirst | hother := List.mem_cons.1 hnew
            · exact hfirst
            · exact absurd (hall jobs hother) hne
      have hlength : (deferrals s.history).length = 1 :=
        Nat.le_antisymm hone (List.length_pos_of_mem (hsubset hjob))
      obtain ⟨only, honly⟩ := List.length_eq_one_iff.1 hlength
      have heq : waiting = only := List.mem_singleton.1 (honly ▸ hsubset hjob)
      exact ⟨by rw [hjobs, honly, heq], hlength⟩
  | _ => cases hdeferred

theorem flushed_of_origin (hs : s.IsRecorded) {t : Thread} {jobs : List Job}
    (ht : s.threads[i]? = some t) (horigin : t.origin = .task (.flush jobs)) :
    jobs = deferrals s.history ∧ jobs.length = 1 ∧
      (t.isDone = true → (publications (ofThread i s.history)).length = 1) := by
  obtain ⟨duty, hpart, -⟩ := h.follows ht
  rw [horigin] at hpart
  obtain ⟨rfl, hlength⟩ := entrusted_eq_deferrals h hp hs (h.history ▸ hp.informed.flushers hpart)
  refine ⟨rfl, hlength, fun hdone ↦ ?_⟩
  obtain ⟨duty, hpart, hclosing⟩ := h.closing ht hdone
  have htold := hp.told i t.origin duty hpart
  rw [horigin, h.history] at htold
  cases duty with
  | flushing jobs progress =>
      cases jobs with
      | nil => exact htold.trans hlength
      | cons job jobs => exact hclosing.elim
  | _ => exact htold.elim

end Handled

theorem Scene.isRecorded_opening (machine : Machine) (ledger : Ledger) (host : Host)
    (process : Process) : (Scene.opening (.fresh machine ledger host process)).IsRecorded where
  deferred := rfl
  outcome := rfl
  taken earlier m later jobs hsplit _ := by
    have hlength := congrArg List.length hsplit
    simp [Scene.opening] at hlength

/-- Once there is an outcome, it is the only one. -/
theorem Scene.IsRecorded.outcome_eq {s later : Scene} (hs : s.IsRecorded)
    (hlater : later.IsRecorded)
    (hinitial : s.history <+: later.history) (hone : (publications later.history).length ≤ 1)
    (hsome : s.world.memory.outcome.isSome) :
    later.world.memory.outcome = s.world.memory.outcome := by
  obtain ⟨more, hmore⟩ := hinitial
  have hall : publications later.history = publications s.history ++ publications more := by
    rw [← hmore, publications, List.filterMap_append]
    rfl
  rw [hs.outcome] at hsome ⊢
  cases hpublished : publications s.history with
  | nil => simp [hpublished] at hsome
  | cons outcome outcomes =>
      rw [hall, hpublished, List.length_append, List.length_cons] at hone
      have houtcomes : outcomes = [] := List.length_eq_zero_iff.1 (by omega)
      have hnone : publications more = [] := List.length_eq_zero_iff.1 (by omega)
      rw [hlater.outcome, hall, hpublished, houtcomes, hnone]
      rfl

end HeapSentry.Supervisor
