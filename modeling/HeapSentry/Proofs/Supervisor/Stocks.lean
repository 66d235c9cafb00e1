import HeapSentry.Proofs.Supervisor.Chronicle
import HeapSentry.Proofs.Supervisor.Duties

/-!
# Stocks

What can happen once only is like a token: it waits in the memory, moves on to a thread or to a
task, and is used up by a request.  A stock counts such tokens wherever they are, together with the
requests that used them up.  If no step adds to a stock, there are never more such requests than
tokens at first.
-/

namespace HeapSentry.Supervisor

open Storage

/-! ## What requests change in the memory -/

/-- Whether a task has nothing to do with the dump. -/
def Task.IsPlain : Task → Prop
  | .poll _ | .reanalyze _ => True
  | .handOff _ | .flush _ => False

variable {settings : Settings} {w w' : World}

theorem World.memory_plain {r : Request} {answer : Answer r} (h : r.IsPlain)
    (hw : w.perform settings r = (answer, w')) :
    ∃ session generation tasks,
      w'.memory = { w.memory with session, generation, tasks := w.memory.tasks ++ tasks } ∧
        ∀ t ∈ tasks, t.IsPlain := by
  have hsame (session : Pressure.Session) (generation : Nat) :
      ∃ session' generation' tasks,
        ({ w.memory with session, generation } : Memory) = { w.memory with
          session := session', generation := generation', tasks := w.memory.tasks ++ tasks } ∧
        ∀ t ∈ tasks, t.IsPlain :=
    ⟨session, generation, [], by simp, by simp⟩
  cases r with
  | machine r =>
      obtain rfl : _ = w' := congrArg Prod.snd hw
      exact hsame w.memory.session w.memory.generation
  | service r =>
      obtain rfl : _ = w' := congrArg Prod.snd hw
      exact hsame w.memory.session w.memory.generation
  | spawn task =>
      obtain rfl : _ = w' := congrArg Prod.snd hw
      refine ⟨w.memory.session, w.memory.generation, [task], rfl, ?_⟩
      intro t ht
      obtain rfl := List.mem_singleton.1 ht
      cases t with
      | poll gen => trivial
      | reanalyze pairs => trivial
      | handOff reason => exact h
      | flush jobs => exact h
  | endGeneration =>
      obtain rfl : _ = w' := congrArg Prod.snd hw
      exact hsame w.memory.session (w.memory.generation + 1)
  | poll nowMs => exact h.elim
  | claimLaunch => exact h.elim
  | claimRecovery => exact h.elim
  | dumpHeap path => exact h.elim
  | defer job => exact h.elim
  | takeDeferred => exact h.elim
  | countAnalysis => exact h.elim
  | publish outcome => exact h.elim
  | _ =>
      obtain rfl : _ = w' := congrArg Prod.snd hw
      exact hsame _ w.memory.generation

/-! ## Stocks -/

/-- How many tokens there are of some kind, by where they are. -/
structure Stock where
  memory : Memory → Nat
  task : Task → Nat
  duty : Duty → Nat
  /-- How many tokens a request has used up. -/
  spent : Origin → (r : Request) → Answer r → Nat

namespace Stock

variable {setup : Setup} {k : Stock} {p p' : Play (duties setup)} {move : Move}

def inWorld (k : Stock) (w : World) : Nat := k.memory w.memory + (w.memory.tasks.map k.task).sum

def spentIn (k : Stock) (history : List Moment) : Nat :=
  (history.map fun m ↦ k.spent m.origin m.request m.answer).sum

def total (k : Stock) (p : Play (duties setup)) : Nat :=
  k.inWorld p.world + (p.cast.map fun part ↦ k.duty part.2).sum + k.spentIn p.history

/-- Whether tokens neither come from nowhere nor are made by requests. -/
structure Lasts (setup : Setup) (k : Stock) : Prop where
  memory : ∀ (m : Memory) session generation tasks,
    k.memory { m with session, generation, tasks } = k.memory m
  plain : ∀ t : Task, t.IsPlain → k.task t = 0
  call : ∀ c, k.duty (.opening (.call c)) = 0
  task : ∀ t, k.duty (.opening (.task t)) ≤ k.task t
  spent : ∀ o (r : Request) (answer : Answer r), r.IsPlain → k.spent o r answer = 0
  /-- What a request changes that is not plain. -/
  step : ∀ {o : Origin} {duty duty' : Duty} {r : Request} {answer : Answer r} {w w' : World},
    Duty.Step setup o duty r answer duty' → ¬ r.IsPlain →
      w.perform setup.settings r = (answer, w') →
        k.inWorld w' + k.duty duty' + k.spent o r answer ≤ k.inWorld w + k.duty duty

theorem spentIn_snoc (k : Stock) (history : List Moment) (m : Moment) :
    k.spentIn (history ++ [m]) = k.spentIn history + k.spent m.origin m.request m.answer := by
  simp [spentIn]

theorem length_filterMap_le_spentIn {β : Type} {f : Moment → Option β}
    (h : ∀ m b, f m = some b → 1 ≤ k.spent m.origin m.request m.answer) (history : List Moment) :
    (history.filterMap f).length ≤ k.spentIn history := by
  induction history with
  | nil => exact Nat.zero_le _
  | cons m history ih =>
      have hcons : k.spentIn (m :: history) =
          k.spent m.origin m.request m.answer + k.spentIn history := by simp [spentIn]
      cases hm : f m with
      | none =>
          rw [List.filterMap_cons_none hm, hcons]
          exact Nat.le_trans ih (Nat.le_add_left _ _)
      | some b =>
          have hone := h m b hm
          rw [List.filterMap_cons_some hm, hcons, List.length_cons]
          omega

theorem Lasts.inWorld_plain (hk : k.Lasts setup) {r : Request} {answer : Answer r}
    (h : r.IsPlain) (hw : w.perform settings r = (answer, w')) : k.inWorld w' = k.inWorld w := by
  obtain ⟨session, generation, tasks, hmemory, htasks⟩ := World.memory_plain h hw
  have hsum : (tasks.map k.task).sum = 0 := by
    refine List.sum_eq_zero fun n hn ↦ ?_
    obtain ⟨t, ht, rfl⟩ := List.mem_map.1 hn
    exact hk.plain t (htasks t ht)
  rw [inWorld, inWorld, hmemory, hk.memory, List.map_append, List.sum_append, hsum, Nat.add_zero]

theorem Lasts.total_le (hk : k.Lasts setup) (h : p.Step setup move p') :
    k.total p' ≤ k.total p := by
  have henter {q : Play (duties setup)} (o : Origin) :
      k.total (q.enter o) = k.total q + k.duty (.opening o) := by
    simp only [total, Play.enter, List.map_append, List.map_singleton, List.sum_append,
      List.sum_singleton]
    change _ + (_ + k.duty (.opening o)) + _ = _
    omega
  cases h with
  | call c => exact Nat.le_of_eq (by rw [henter, hk.call, Nat.add_zero])
  | @begin position task htask =>
      have hsum := sum_map_eraseIdx (f := k.task) htask
      have hopening := hk.task task
      rw [henter]
      simp only [total, inWorld, World.withoutTask, World.remember]
      have hmemory := hk.memory p.world.memory p.world.memory.session p.world.memory.generation
        (p.world.memory.tasks.eraseIdx position)
      omega
  | @ask i o duty duty' r answer world hpart hduty hanswer =>
      have hcast : ((p.cast.set i (o, duty')).map fun part ↦ k.duty part.2).sum + k.duty duty =
          (p.cast.map fun part ↦ k.duty part.2).sum + k.duty duty' := sum_map_set hpart (o, duty')
      have hspent : k.spentIn (p.history ++ [⟨i, o, r, answer⟩]) =
          k.spentIn p.history + k.spent o r answer := k.spentIn_snoc p.history _
      have hstep : k.inWorld world + k.duty duty' + k.spent o r answer ≤
          k.inWorld p.world + k.duty duty := by
        by_cases hplain : r.IsPlain
        · cases hduty with
          | plain => simp [hk.inWorld_plain hplain hanswer, hk.spent o r answer hplain]
          | _ => exact hplain.elim
        · exact hk.step hduty hplain hanswer
      simp only [total, Play.answered]
      omega
  | surround machine host process => exact Nat.le_refl _

end Stock

end HeapSentry.Supervisor
