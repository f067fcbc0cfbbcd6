/-!
Work that asks its surroundings for things. A task is either done or makes one call and goes on
with the reply, so what a task does is open to inspection: it can be run against any surroundings
by `run`, and it can be stopped between any two of its calls.
-/

namespace PlatformBundle

/-- `Reply` says what kind of answer each call gets. -/
inductive Task {Call : Type} (Reply : Call → Type) (α : Type) where
  | done (value : α)
  | call (request : Call) (next : Reply request → Task Reply α)

namespace Task

variable {Call Call' : Type} {Reply : Call → Type} {Reply' : Call' → Type} {α β σ : Type}

protected def bind : Task Reply α → (α → Task Reply β) → Task Reply β
  | .done value, follow => follow value
  | .call request next, follow => .call request (fun reply => (next reply).bind follow)

instance : Monad (Task Reply) where
  pure := .done
  bind := Task.bind

theorem bind_done (task : Task Reply α) : task.bind .done = task := by
  induction task with
  | done value => rfl
  | call request next ih => simp only [Task.bind, ih]

theorem bind_assoc {γ : Type} (task : Task Reply α) (first : α → Task Reply β)
    (second : β → Task Reply γ) :
    (task.bind first).bind second = task.bind (fun value => (first value).bind second) := by
  induction task with
  | done value => rfl
  | call request next ih => simp only [Task.bind, ih]

instance : LawfulMonad (Task Reply) :=
  LawfulMonad.mk' (Task Reply) bind_done (fun _ _ => rfl) bind_assoc

def ask (request : Call) : Task Reply (Reply request) := .call request .done

/-- Runs a task where every call is answered out of a state. -/
def run (answer : (request : Call) → σ → Reply request × σ) : Task Reply α → σ → α × σ
  | .done value, state => (value, state)
  | .call request next, state =>
      let (reply, state) := answer request state
      (next reply).run answer state

theorem run_bind (answer : (request : Call) → σ → Reply request × σ) (task : Task Reply α)
    (follow : α → Task Reply β) (state : σ) :
    (task.bind follow).run answer state =
      (follow (task.run answer state).1).run answer (task.run answer state).2 := by
  induction task generalizing state with
  | done value => rfl
  | call request next ih => simp only [Task.bind, run, ih]

/-- The same task among more calls; `embed` says which of them each call is. -/
def lift (embed : Call → Call')
    (reply : (request : Call) → Reply' (embed request) → Reply request) :
    Task Reply α → Task Reply' α
  | .done value => .done value
  | .call request next => .call (embed request) (fun r => (next (reply request r)).lift embed reply)

end Task

end PlatformBundle
