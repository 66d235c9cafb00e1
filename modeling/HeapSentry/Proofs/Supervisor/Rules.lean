import HeapSentry.Proofs.Lists
import HeapSentry.Proofs.Supervisor.Scenes

/-!
# Rules for threads

A thread takes on one role after another.  Rules say what a thread of some role may ask for and what
role each answer gives it.  If every activity follows the rules, then a scene can be seen as a play
in which the threads are nothing but their roles, and what every step of a play keeps holds of every
scene.
-/

namespace HeapSentry

namespace Activity

variable {Request Request' : Type} {Answer : Request → Type} {Answer' : Request' → Type}
variable {α β : Type} {P : Request → Prop}

/-- Whether all requests are of some kind, whatever the answers. -/
def Asks (P : Request → Prop) : Activity Answer α → Prop
  | .done _ => True
  | .ask r next => P r ∧ ∀ answer, (next answer).Asks P

theorem asks_request {r : Request} (h : P r) : (request r : Activity Answer _).Asks P :=
  ⟨h, fun _ ↦ trivial⟩

theorem asks_bind {a : Activity Answer α} {f : α → Activity Answer β} (ha : a.Asks P)
    (hf : ∀ x, (f x).Asks P) : (a >>= f).Asks P := by
  induction a with
  | done x => exact hf x
  | ask r next ih => exact ⟨ha.1, fun answer ↦ ih answer (ha.2 answer)⟩

theorem Asks.imp {Q : Request → Prop} (h : ∀ r, P r → Q r) {a : Activity Answer α}
    (ha : a.Asks P) : a.Asks Q := by
  induction a with
  | done x => trivial
  | ask r next ih => exact ⟨h r ha.1, fun answer ↦ ih answer (ha.2 answer)⟩

theorem asks_through {Q : Request' → Prop} {embed : (r : Request) → Activity Answer' (Answer r)}
    (h : ∀ r, P r → (embed r).Asks Q) {a : Activity Answer α} (ha : a.Asks P) :
    (a.through embed).Asks Q := by
  induction a with
  | done x => trivial
  | ask r next ih => exact asks_bind (h r ha.1) fun answer ↦ ih answer (ha.2 answer)

theorem bind_assoc {γ : Type} (a : Activity Answer α) (f : α → Activity Answer β)
    (g : β → Activity Answer γ) : a >>= f >>= g = a >>= fun x ↦ f x >>= g := by
  induction a with
  | done x => rfl
  | ask r next ih => exact congrArg (ask r) (funext ih)

theorem through_bind (embed : (r : Request) → Activity Answer' (Answer r))
    (a : Activity Answer α) (f : α → Activity Answer β) :
    (a >>= f).through embed = a.through embed >>= fun x ↦ (f x).through embed := by
  induction a with
  | done x => rfl
  | ask r next ih =>
      have hnext (answer : Answer r) : (next answer >>= f).through embed = _ := ih answer
      calc
        (ask r next >>= f).through embed =
            embed r >>= fun answer ↦ (next answer >>= f).through embed := rfl
        _ = embed r >>= fun answer ↦ (next answer).through embed >>= fun x ↦
            (f x).through embed := by rw [funext hnext]
        _ = (ask r next).through embed >>= fun x ↦ (f x).through embed :=
            (bind_assoc _ _ _).symm

/-- Whether all results are of some kind, whatever the answers. -/
def Returns (Q : α → Prop) : Activity Answer α → Prop
  | .done a => Q a
  | .ask _ next => ∀ answer, (next answer).Returns Q

theorem returns_bind {Q : β → Prop} {a : Activity Answer α} {f : α → Activity Answer β}
    (hf : ∀ x, (f x).Returns Q) : (a >>= f).Returns Q := by
  induction a with
  | done x => exact hf x
  | ask r next ih => exact ih

theorem Returns.bind {P : α → Prop} {Q : β → Prop} {a : Activity Answer α}
    {f : α → Activity Answer β} (ha : a.Returns P) (hf : ∀ x, P x → (f x).Returns Q) :
    (a >>= f).Returns Q := by
  induction a with
  | done x => exact hf x ha
  | ask r next ih => exact fun answer ↦ ih answer (ha answer)

theorem Returns.imp {P Q : α → Prop} (h : ∀ x, P x → Q x) {a : Activity Answer α}
    (ha : a.Returns P) : a.Returns Q := by
  induction a with
  | done x => exact h x ha
  | ask r next ih => exact fun answer ↦ ih answer (ha answer)

theorem Returns.runOn {σ : Type} {P : α → Prop} {a : Activity Answer α} (ha : a.Returns P)
    (perform : σ → (r : Request) → Answer r × σ) (s : σ) : P (a.runOn perform s).1 := by
  induction a generalizing s with
  | done x => exact ha
  | ask r next ih => exact ih _ (ha _) _

theorem returns_through {Q : α → Prop} {embed : (r : Request) → Activity Answer' (Answer r)}
    {a : Activity Answer α} (h : a.Returns Q) : (a.through embed).Returns Q := by
  induction a with
  | done x => exact h
  | ask r next ih => exact returns_bind fun answer ↦ ih answer (h answer)

theorem returns_trivial (a : Activity Answer α) : a.Returns fun _ ↦ True := by
  induction a with
  | done x => trivial
  | ask r next ih => exact ih

end Activity

namespace Supervisor

structure Rules where
  Role : Type
  opening : Origin → Role
  /-- What a thread may ask for, and the role that an answer gives it. -/
  Step : Origin → Role → (r : Request) → Answer r → Role → Prop
  /-- The roles in which a thread may end. -/
  Closing : Origin → Role → Prop

namespace Rules

variable {rules : Rules} {o : Origin} {role : rules.Role} {α β : Type}

/-- Whether an activity keeps to the rules and ends well. -/
def Follows (rules : Rules) (o : Origin) (Q : rules.Role → α → Prop) :
    Supervised α → rules.Role → Prop
  | .done a, role => Q role a
  | .ask r next, role =>
    ∀ answer, ∃ role', rules.Step o role r answer role' ∧ rules.Follows o Q (next answer) role'

theorem follows_pure (rules : Rules) {o : Origin} {role : rules.Role}
    {Q : rules.Role → α → Prop} {a : α} (h : Q role a) : rules.Follows o Q (pure a) role := h

theorem follows_bind {P : rules.Role → α → Prop} {Q : rules.Role → β → Prop}
    {a : Supervised α} {f : α → Supervised β} (ha : rules.Follows o P a role)
    (hf : ∀ role' x, P role' x → rules.Follows o Q (f x) role') :
    rules.Follows o Q (a >>= f) role := by
  induction a generalizing role with
  | done x => exact hf role x ha
  | ask r next ih =>
      intro answer
      obtain ⟨role', hstep, hnext⟩ := ha answer
      exact ⟨role', hstep, ih answer hnext⟩

theorem Follows.imp {P Q : rules.Role → α → Prop} {a : Supervised α}
    (ha : rules.Follows o P a role) (h : ∀ role' x, P role' x → Q role' x) :
    rules.Follows o Q a role := by
  induction a generalizing role with
  | done x => exact h role x ha
  | ask r next ih =>
      intro answer
      obtain ⟨role', hstep, hnext⟩ := ha answer
      exact ⟨role', hstep, ih answer hnext⟩

theorem follows_request {r : Request} {Q : rules.Role → β → Prop} {f : Answer r → Supervised β}
    (h : ∀ answer, ∃ role', rules.Step o role r answer role' ∧
      rules.Follows o Q (f answer) role') :
    rules.Follows o Q (Activity.request r >>= f) role := h

/-- A thread that asks only for what leaves it in its role keeps the role. -/
theorem follows_of_asks (rules : Rules) {o : Origin} {role : rules.Role} {P : Request → Prop}
    {Q : α → Prop} (h : ∀ r answer, P r → rules.Step o role r answer role) {a : Supervised α}
    (ha : a.Asks P) (hQ : a.Returns Q) :
    rules.Follows o (fun role' x ↦ role' = role ∧ Q x) a role := by
  induction a with
  | done x => exact ⟨rfl, hQ⟩
  | ask r next ih =>
      exact fun answer ↦ ⟨role, h r answer ha.1, ih answer (ha.2 answer) (hQ answer)⟩

/-- Whether all threads that a supervisor begins keep to the rules. -/
def Govern (rules : Rules) (setup : Setup) : Prop :=
  ∀ o : Origin, rules.Follows o (fun role _ ↦ rules.Closing o role) (o.activity setup)
    (rules.opening o)

end Rules

/-! ## Plays -/

/-- A scene with the roles of its threads in place of what they have yet to do. -/
structure Play (rules : Rules) where
  world : World := {}
  cast : List (Origin × rules.Role) := []
  history : List Moment := []

namespace Play

variable {rules : Rules} {setup : Setup}

def opening (rules : Rules) (w : World) : Play rules := { world := w }

def enter (p : Play rules) (o : Origin) : Play rules :=
  { p with cast := p.cast ++ [(o, rules.opening o)] }

/-- A thread was given an answer and a new role. -/
def answered (p : Play rules) (i : Nat) (o : Origin) (role : rules.Role) (world : World)
    (r : Request) (answer : Answer r) : Play rules :=
  { world, cast := p.cast.set i (o, role), history := p.history ++ [⟨i, o, r, answer⟩] }

theorem mem_enter {p : Play rules} {o : Origin} {part : Origin × rules.Role} :
    part ∈ (p.enter o).cast ↔ part ∈ p.cast ∨ part = (o, rules.opening o) := mem_snoc

theorem mem_answered {p : Play rules} {i : Nat} {o : Origin} {role : rules.Role} {world : World}
    {r : Request} {answer : Answer r} {part : Origin × rules.Role}
    (h : part ∈ (p.answered i o role world r answer).cast) :
    part ∈ p.cast ∨ part = (o, role) := List.mem_or_eq_of_mem_set h

inductive Step (setup : Setup) (p : Play rules) : Move → Play rules → Prop where
  | call (c : Call) : Step setup p (.call c) (p.enter (.call c))
  | begin {position : Nat} {task : Task} (htask : p.world.memory.tasks[position]? = some task) :
      Step setup p (.begin position)
        (enter { p with world := p.world.withoutTask position } (.task task))
  | ask {i : Nat} {o : Origin} {role role' : rules.Role} {r : Request} {answer : Answer r}
      {world : World} (hpart : p.cast[i]? = some (o, role))
      (hrole : rules.Step o role r answer role')
      (hanswer : p.world.perform setup.settings r = (answer, world)) :
      Step setup p (.step i) (p.answered i o role' world r answer)
  | surround (machine : Machine) (host : Host) (process : Process) :
      Step setup p (.surround machine host process)
        { p with world := p.world.surrounded machine host process }

/-- Whether a play shows what happens in a scene. -/
structure Shows (p : Play rules) (s : Scene) : Prop where
  world : p.world = s.world
  history : p.history = s.history
  length : p.cast.length = s.threads.length
  follows : ∀ {i : Nat} {t : Thread}, s.threads[i]? = some t →
    ∃ role, p.cast[i]? = some (t.origin, role) ∧
      rules.Follows t.origin (fun role _ ↦ rules.Closing t.origin role) t.rest role

variable {p : Play rules} {s : Scene}

theorem shows_opening (rules : Rules) (w : World) :
    (Play.opening rules w).Shows (Scene.opening w) :=
  ⟨rfl, rfl, rfl, fun h ↦ by simp [Scene.opening] at h⟩

theorem Shows.enter (hrules : rules.Govern setup) (h : p.Shows s) (o : Origin) :
    (p.enter o).Shows (s.enter setup o) := by
  refine ⟨h.world, h.history, by simp [Play.enter, Scene.enter, h.length], fun {i t} ht ↦ ?_⟩
  obtain hold | ⟨rfl, rfl⟩ := getElem?_snoc_eq_some_iff.1 ht
  · obtain ⟨role, hrole, hfollows⟩ := h.follows hold
    exact ⟨role, getElem?_snoc_eq_some_iff.2 (.inl hrole), hfollows⟩
  · exact ⟨rules.opening o, getElem?_snoc_eq_some_iff.2 (.inr ⟨h.length.symm, rfl⟩), hrules o⟩

/-- A thread that has ended is in a role in which it may end. -/
theorem Shows.closing (h : p.Shows s) {i : Nat} {t : Thread} (ht : s.threads[i]? = some t)
    (hdone : t.isDone = true) :
    ∃ role, p.cast[i]? = some (t.origin, role) ∧ rules.Closing t.origin role := by
  obtain ⟨role, hpart, hfollows⟩ := h.follows ht
  refine ⟨role, hpart, ?_⟩
  rw [Thread.isDone] at hdone
  split at hdone
  next u hrest =>
    rw [hrest] at hfollows
    exact hfollows
  next => cases hdone

theorem Shows.origins (h : p.Shows s) : p.cast.map Prod.fst = s.threads.map Thread.origin := by
  refine List.ext_getElem? fun i ↦ ?_
  rw [List.getElem?_map, List.getElem?_map]
  cases hthread : s.threads[i]? with
  | none =>
      have hlong := List.getElem?_eq_none_iff.1 hthread
      rw [List.getElem?_eq_none (h.length ▸ hlong)]
      rfl
  | some t =>
      obtain ⟨role, hpart, -⟩ := h.follows hthread
      rw [hpart]
      rfl

theorem Shows.ask (h : p.Shows s) {i : Nat} {o : Origin} {rest : Supervised Unit}
    {role : rules.Role} {r : Request} {next : Answer r → Supervised Unit}
    (hthread : s.threads[i]? = some ⟨o, rest⟩)
    (hnext : rules.Follows o (fun role _ ↦ rules.Closing o role)
      (next (s.world.perform setup.settings r).1) role) :
    (p.answered i o role (s.world.perform setup.settings r).2 r
      (s.world.perform setup.settings r).1).Shows (s.ask setup i o r next) := by
  have hi : i < s.threads.length := (List.getElem?_eq_some_iff.1 hthread).1
  refine ⟨rfl, by simp only [answered, Scene.ask, h.history],
    by simp [answered, Scene.ask, h.length], fun {j t} ht ↦ ?_⟩
  by_cases hij : i = j
  · subst hij
    obtain rfl : (⟨o, next _⟩ : Thread) = t := by
      simpa [Scene.ask, List.getElem?_set_self hi] using ht
    refine ⟨role, ?_, hnext⟩
    rw [answered, List.getElem?_set_self (h.length ▸ hi)]
  · rw [Scene.ask, List.getElem?_set_ne hij] at ht
    rw [answered, List.getElem?_set_ne hij]
    exact h.follows ht

/-- Whatever a move does to a scene, some step of the play shows it. -/
theorem Shows.handle (hrules : rules.Govern setup) (h : p.Shows s) (move : Move) :
    ∃ p', p'.Shows (s.handle setup move) ∧ (p' = p ∨ p.Step setup move p') := by
  cases move with
  | call c => exact ⟨_, h.enter hrules _, .inr (.call c)⟩
  | begin position =>
      cases htask : s.world.memory.tasks[position]? with
      | none => exact ⟨p, by simpa [Scene.handle, htask] using h, .inl rfl⟩
      | some task =>
          have hworld : p.world.memory.tasks[position]? = some task := by rw [h.world, htask]
          refine ⟨_, ?_, .inr (.begin hworld)⟩
          simp only [Scene.handle, htask]
          apply Shows.enter hrules
          exact ⟨by rw [h.world], h.history, h.length, h.follows⟩
  | step i =>
      cases hthread : s.threads[i]? with
      | none => exact ⟨p, by simpa [Scene.handle, hthread] using h, .inl rfl⟩
      | some t =>
          obtain ⟨o, rest⟩ := t
          obtain ⟨role, hpart, hfollows⟩ := h.follows hthread
          cases rest with
          | done u => exact ⟨p, by simpa [Scene.handle, hthread] using h, .inl rfl⟩
          | ask r next =>
              obtain ⟨role', hrole, hnext⟩ := hfollows (s.world.perform setup.settings r).1
              refine ⟨_, ?_, .inr (.ask hpart hrole (by rw [h.world]))⟩
              simp only [Scene.handle, hthread]
              exact h.ask hthread hnext
  | surround machine host process =>
      refine ⟨_, ?_, .inr (.surround machine host process)⟩
      exact ⟨by simp only [Scene.handle, h.world], h.history, h.length, h.follows⟩

/-- What holds at first and is kept by every step of a play holds after any moves. -/
theorem Shows.run {Inv : Play rules → Prop} (hrules : rules.Govern setup)
    (hstep : ∀ {p p' : Play rules} {move}, p.Step setup move p' → Inv p → Inv p')
    (h : p.Shows s) (hp : Inv p) (moves : List Move) :
    ∃ p', p'.Shows (s.run setup moves) ∧ Inv p' := by
  induction moves generalizing s p with
  | nil => exact ⟨p, h, hp⟩
  | cons move moves ih =>
      obtain ⟨p', hp', rfl | hmove⟩ := h.handle hrules move
      · exact ih hp' hp
      · exact ih hp' (hstep hmove hp)

end Play

end Supervisor

end HeapSentry
