/-!
# Activities

An activity asks for one thing after another and goes on with the answers.  What it asks for is
data, so an activity can be carried out on the real machine or on a value that stands for one, as a
whole or up to any point.
-/

namespace HeapSentry

/-- Activities that make some requests and get answers of some types. -/
inductive Activity {Request : Type} (Answer : Request → Type) (α : Type) where
  | done (a : α)
  | ask (r : Request) (next : Answer r → Activity Answer α)

namespace Activity

variable {Request Request' : Type} {Answer : Request → Type} {Answer' : Request' → Type}
variable {α β : Type}

def bind : Activity Answer α → (α → Activity Answer β) → Activity Answer β
  | .done a, f => f a
  | .ask r next, f => .ask r fun answer ↦ (next answer).bind f

instance : Monad (Activity Answer) where
  pure := .done
  bind := bind

def request (r : Request) : Activity Answer (Answer r) := .ask r .done

/-- Makes other requests instead. -/
def through (embed : (r : Request) → Activity Answer' (Answer r)) :
    Activity Answer α → Activity Answer' α
  | .done a => .done a
  | .ask r next => (embed r).bind fun answer ↦ (next answer).through embed

/-- Carries out an activity, given what becomes of each request. -/
def run {m : Type → Type} [Monad m] (perform : (r : Request) → m (Answer r)) :
    Activity Answer α → m α
  | .done a => pure a
  | .ask r next => do
    let answer ← perform r
    (next answer).run perform

def runOn {σ : Type} (perform : σ → (r : Request) → Answer r × σ) : σ → Activity Answer α → α × σ
  | s, .done a => (a, s)
  | s, .ask r next =>
    let (answer, s) := perform s r
    (next answer).runOn perform s

@[simp] theorem done_bind (a : α) (f : α → Activity Answer β) :
    (done a : Activity Answer α) >>= f = f a := rfl

@[simp] theorem ask_bind (r : Request) (next : Answer r → Activity Answer α)
    (f : α → Activity Answer β) : ask r next >>= f = ask r fun answer ↦ next answer >>= f := rfl

theorem runOn_bind {σ : Type} (perform : σ → (r : Request) → Answer r × σ) (s : σ)
    (a : Activity Answer α) (f : α → Activity Answer β) :
    (a >>= f).runOn perform s =
      (f (a.runOn perform s).1).runOn perform (a.runOn perform s).2 := by
  induction a generalizing s with
  | done a => rfl
  | ask r next ih => exact ih _ _

end Activity

end HeapSentry
