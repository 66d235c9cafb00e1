import HeapSentry.Proofs.Storage.Paths
import HeapSentry.Proofs.Supervisor.Stocks

/-!
# The stages of the dump

The right to hand off the dump is given once.  What becomes of it goes through the stages in one
direction: the dump is ordered and made, its analysis is perhaps put off, taken up and entrusted to
a flush, and in the end an outcome is published.  So whatever leads from one stage to a later one
happens once at most.
-/

namespace HeapSentry.Supervisor

open Storage

inductive Stage where
  | unclaimed | claimed
  /-- The task that hands off has not begun. -/
  | ordered
  | handing | holding
  /-- The analysis waits for the foreground. -/
  | deferred
  | carried
  /-- The task that flushes has not begun. -/
  | entrusted
  | flushing | counted | served | published
  deriving DecidableEq

def Stage.rank : Stage → Nat
  | unclaimed => 0
  | claimed => 1
  | ordered => 2
  | handing => 3
  | holding => 4
  | deferred => 5
  | carried => 6
  | entrusted => 7
  | flushing => 8
  | counted => 9
  | served => 10
  | published => 11

/-- What counts of `n` tokens at a stage for those before the stage `k`. -/
def held (k stage : Stage) (n : Nat) : Nat := if stage.rank < k.rank then n else 0

/-- What counts of `n` tokens that come to a stage for those that come to the stage `k`. -/
def reached (k stage : Stage) (n : Nat) : Nat := if stage = k then n else 0

theorem held_le (stage later : Stage) (h : stage.rank < later.rank) (k : Stage) (n : Nat) :
    held k later n + reached k later n ≤ held k stage n := by
  rw [held, held, reached]
  by_cases hk : later = k
  · subst hk
    simp [h]
  · by_cases hlater : later.rank < k.rank
    · simp [hk, hlater, Nat.lt_trans h hlater]
    · simp [hk, hlater]

theorem held_add (k stage : Stage) (m n : Nat) :
    held k stage (m + n) = held k stage m + held k stage n := by
  rw [held, held, held]
  split <;> rfl

theorem reached_mono (k stage : Stage) {m n : Nat} (h : m ≤ n) :
    reached k stage m ≤ reached k stage n := by
  rw [reached, reached]
  split
  next => exact h
  next => exact Nat.le_refl 0

@[simp] theorem held_zero (k stage : Stage) : held k stage 0 = 0 := ite_self 0

@[simp] theorem reached_self (k : Stage) (n : Nat) : reached k k n = n := if_pos rfl

/-- The stage of an analysis that is done by a thread at some stage. -/
def Progress.stage (start : Stage) : Progress → Stage
  | .waiting => start
  | .counted => .counted
  | .served => .served

namespace Stock

/-- The tokens before a stage, and the requests that lead to it. -/
def before (k : Stage) : Stock where
  memory m := (if m.launched then 0 else held k .unclaimed 1) + held k .deferred m.deferred.length
  task
    | .handOff _ => held k .ordered 1
    | .flush jobs => held k .entrusted jobs.length
    | .poll _ | .reanalyze _ => 0
  duty
    | .claimed => held k .claimed 1
    | .handing => held k .handing 1
    | .holding _ progress => held k (progress.stage .holding) 1
    | .carrying jobs => held k .carried jobs.length
    | .flushing (_ :: jobs) progress =>
      held k .flushing jobs.length + held k (progress.stage .flushing) 1
    | _ => 0
  spent
    | _, .dumpHeap _, _ => reached k .holding 1
    | _, .defer _, _ => reached k .deferred 1
    | _, .spawn (.flush _), _ => reached k .entrusted 1
    | o, .countAnalysis, _ => if o.reanalyzes then 0 else reached k .counted 1
    | o, .service (.size _), _ => if o.reanalyzes then 0 else reached k .served 1
    | _, .publish _, _ => reached k .published 1
    | _, _, _ => 0

variable {setup : Setup}

theorem inWorld_spawn (k : Stage) (w : World) (t : Task) :
    (before k).inWorld (w.remember fun m ↦ { m with tasks := m.tasks ++ [t] }) =
      (before k).inWorld w + (before k).task t := by
  simp only [inWorld, World.remember, List.map_append, List.map_singleton, List.sum_append,
    List.sum_singleton]
  exact (Nat.add_assoc _ _ _).symm

/-- Wherever an analysis is, its outcome is still to come. -/
theorem held_published_le (k : Stage) (progress : Progress) (start : Stage)
    (h : start.rank < Stage.published.rank) :
    reached k .published 1 ≤ held k (progress.stage start) 1 := by
  have hstage : (progress.stage start).rank < Stage.published.rank := by
    cases progress with
    | waiting => exact h
    | counted => exact (by decide : Stage.counted.rank < Stage.published.rank)
    | served => exact (by decide : Stage.served.rank < Stage.published.rank)
  exact Nat.le_trans (Nat.le_add_left _ _) (held_le _ _ hstage k 1)

theorem duty_flushing (k : Stage) (jobs : List Job) :
    (before k).duty (.flushing jobs .waiting) = held k .flushing jobs.length := by
  cases jobs with
  | nil => exact (held_zero k _).symm
  | cons job jobs => exact (held_add k _ _ _).symm

theorem lasts_before (setup : Setup) (k : Stage) : (before k).Lasts setup where
  memory _ _ _ _ := rfl
  plain t ht := by
    cases t with
    | poll gen => rfl
    | reanalyze pairs => rfl
    | handOff reason => exact ht.elim
    | flush jobs => exact ht.elim
  call c := by
    cases c with
    | foreground inRuntime => cases inRuntime <;> rfl
    | _ => rfl
  task t := by
    cases t with
    | poll gen => exact Nat.le_refl _
    | reanalyze pairs => exact Nat.le_refl _
    | handOff reason =>
        exact Nat.le_trans (Nat.le_add_right _ _) (held_le _ _ (by decide) k 1)
    | flush jobs =>
        refine Nat.le_trans (Nat.le_of_eq (duty_flushing k jobs)) ?_
        exact Nat.le_trans (Nat.le_add_right _ _) (held_le _ _ (by decide) k jobs.length)
  spent o r answer hr := by
    cases r with
    | service r =>
        cases r with
        | size path => exact hr.elim
        | _ => rfl
    | spawn t =>
        cases t with
        | poll gen => rfl
        | reanalyze pairs => rfl
        | handOff reason => rfl
        | flush jobs => exact hr.elim
    | dumpHeap path => exact hr.elim
    | defer job => exact hr.elim
    | countAnalysis => exact hr.elim
    | publish outcome => exact hr.elim
    | _ => rfl
  step {o duty duty' r answer w w'} hstep hplain hw := by
    have hanswer := congrArg Prod.fst hw
    obtain rfl : _ = w' := congrArg Prod.snd hw
    have hsame {now later spent : Nat} (h : later + spent ≤ now) :
        (before k).inWorld w + later + spent ≤ (before k).inWorld w + now := by
      rw [Nat.add_assoc]
      exact Nat.add_le_add_left h _
    cases hstep with
    | plain h => exact (hplain h).elim
    | @claimRecovery _ granted => cases granted <;> exact Nat.le_refl _
    | listDumps => exact Nat.le_refl _
    | listManual => exact Nat.le_refl _
    | @takeDeferred jobs =>
        obtain rfl : w.memory.deferred = jobs := hanswer
        have hlater := held_le .deferred .carried (by decide) k
          w.memory.deferred.length
        simp only [inWorld, before, World.perform, World.remember, List.length_nil, held_zero]
        omega
    | @flush jobs h =>
        have hlater := held_le .carried .entrusted (by decide) k jobs.length
        have hone : reached k .entrusted 1 ≤ reached k .entrusted jobs.length :=
          reached_mono k _ (List.length_pos_iff.2 h)
        simp only [World.perform, inWorld_spawn]
        simp only [before]
        omega
    | @poll _ _ outcome => cases outcome <;> exact Nat.le_refl _
    | @claimLaunch _ granted =>
        obtain rfl : (!w.memory.launched) = granted := hanswer
        have hlater := held_le .unclaimed .claimed (by decide) k 1
        cases hlaunched : w.memory.launched with
        | true => simp [inWorld, before, World.perform, World.remember, hlaunched]
        | false =>
            simp only [inWorld, before, World.perform, World.remember, hlaunched, Bool.not_false,
              if_true, Bool.false_eq_true, if_false]
            omega
    | handOff =>
        have hlater := held_le .claimed .ordered (by decide) k 1
        simp only [World.perform, inWorld_spawn]
        simp only [before]
        omega
    | @dump _ path =>
        have hlater := held_le .handing .holding (by decide) k 1
        have hworld : (before k).inWorld (w.perform setup.settings (.dumpHeap path)).2 =
            (before k).inWorld w := by
          rw [inWorld, World.perform, w.memory_dumpHeap]
          rfl
        rw [hworld]
        exact hsame hlater
    | giveUp =>
        have hlater := held_published_le k .waiting .handing (by decide)
        exact hsame (Nat.le_trans (Nat.le_of_eq (Nat.zero_add _)) hlater)
    | count => exact hsame (held_le .holding .counted (by decide) k 1)
    | serve => exact hsame (held_le .counted .served (by decide) k 1)
    | @defer _ _ job h =>
        have hlater := held_le .holding .deferred (by decide) k 1
        simp only [inWorld, before, World.perform, World.remember, List.length_append,
          List.length_singleton, held_add, Progress.stage]
        omega
    | @publish _ _ progress _ h =>
        have hlater := held_published_le k progress .holding (by decide)
        exact hsame (Nat.le_trans (Nat.le_of_eq (Nat.zero_add _)) hlater)
    | @countFlushed _ jobs =>
        have hlater := held_le .flushing .counted (by decide) k 1
        have hall := Nat.add_le_add_left hlater (held k .flushing jobs.length)
        exact hsame (by rwa [← Nat.add_assoc] at hall)
    | @serveFlushed _ jobs =>
        have hlater := held_le .counted .served (by decide) k 1
        have hall := Nat.add_le_add_left hlater (held k .flushing jobs.length)
        exact hsame (by rwa [← Nat.add_assoc] at hall)
    | @publishFlushed _ jobs _ progress _ h =>
        have hlater := held_published_le k progress .flushing (by decide)
        refine hsame ?_
        rw [duty_flushing]
        exact Nat.add_le_add_left hlater _
    | countAgain => exact Nat.le_refl _
    | serveAgain => exact Nat.le_refl _

/-! ## Sorting out what earlier runs left -/

/-- The right to list the dumps, and the requests that list them. -/
def scans (setup : Setup) : Stock where
  memory m := if m.recovered then 0 else 1
  task _ := 0
  duty
    | .recovering => 1
    | _ => 0
  spent
    | _, .machine (.entries dir), _ => if dir = setup.store.analysisDir then 1 else 0
    | _, _, _ => 0

theorem lasts_scans (setup : Setup) : (scans setup).Lasts setup where
  memory _ _ _ _ := rfl
  plain _ _ := rfl
  call c := by
    cases c with
    | foreground inRuntime => cases inRuntime <;> rfl
    | _ => rfl
  task t := by cases t <;> exact Nat.le_refl _
  spent o r answer hr := by
    cases r with
    | machine r =>
        cases r with
        | entries dir => exact hr.elim
        | _ => rfl
    | _ => rfl
  step {o duty duty' r answer w w'} hstep hplain hw := by
    have hanswer := congrArg Prod.fst hw
    obtain rfl : _ = w' := congrArg Prod.snd hw
    cases hstep with
    | plain h => exact (hplain h).elim
    | @claimRecovery _ granted =>
        obtain rfl : (!w.memory.recovered) = granted := hanswer
        cases hrecovered : w.memory.recovered with
        | true => simp [inWorld, scans, World.perform, World.remember, hrecovered]
        | false => simp [inWorld, scans, World.perform, World.remember, hrecovered]
    | @listDumps inRuntime answer =>
        have hspent : (scans setup).spent (.call (.start inRuntime))
            (.machine (.entries setup.store.analysisDir)) answer = 1 := if_pos rfl
        rw [hspent]
        exact Nat.le_refl _
    | @listManual inRuntime answer =>
        have hspent : (scans setup).spent (.call (.start inRuntime))
            (.machine (.entries setup.store.manualDir)) answer = 0 :=
          if_neg setup.store.analysisDir_ne_manualDir.symm
        rw [hspent]
        exact Nat.le_refl _
    | @dump _ path =>
        rw [inWorld, World.perform, w.memory_dumpHeap]
        exact Nat.le_refl _
    | flush h => simp [inWorld, scans, World.perform, World.remember]
    | @poll _ _ outcome => cases outcome <;> exact Nat.le_refl _
    | @claimLaunch _ granted => cases granted <;> exact Nat.le_refl _
    | handOff => simp [inWorld, scans, World.perform, World.remember]
    | _ => exact Nat.le_refl _

end Stock

end HeapSentry.Supervisor
