import PlatformBundle.World
/-!
What a sequence of steps comes to. A step that fails ends the sequence, and what it has done to the
world up to then stays done. The calls of a task are the ones it makes when it is run; a task whose
calls are all of one kind makes none of another, whatever it is answered.
-/

namespace PlatformBundle

theorem bind_eq_ok_iff {ε α β : Type} {first : Except ε α} {follow : α → Except ε β} {value : β} :
    first >>= follow = .ok value ↔ ∃ middle, first = .ok middle ∧ follow middle = .ok value := by
  cases first with
  | error fault => simp [bind, Except.bind]
  | ok middle => simp [bind, Except.bind]

theorem mapError_eq_ok_iff {ε φ α : Type} {attempt : Except ε α} {change : ε → φ} {value : α} :
    attempt.mapError change = .ok value ↔ attempt = .ok value := by
  cases attempt with
  | error fault => constructor <;> intro same <;> cases same
  | ok own => constructor <;> intro same <;> cases same <;> rfl

namespace Task

variable {Call : Type} {Reply : Call → Type} {α β ε σ : Type}
variable (answer : (request : Call) → σ → Reply request × σ)

def calls : Task Reply α → σ → List Call
  | .done _, _ => []
  | .call request next, state =>
      request :: (next (answer request state).1).calls (answer request state).2

/-- The calls that a task makes when it is run, each with the state that it is made in. -/
def moments : Task Reply α → σ → List (Call × σ)
  | .done _, _ => []
  | .call request next, state =>
      (request, state) :: (next (answer request state).1).moments (answer request state).2

theorem calls_eq (task : Task Reply α) (state : σ) :
    task.calls answer state = (task.moments answer state).map Prod.fst := by
  induction task generalizing state with
  | done value => rfl
  | call request next ih => rw [calls, moments, List.map_cons, ih]

theorem moments_bind (task : Task Reply α) (follow : α → Task Reply β) (state : σ) :
    (task.bind follow).moments answer state = task.moments answer state ++
      (follow (task.run answer state).1).moments answer (task.run answer state).2 := by
  induction task generalizing state with
  | done value => rfl
  | call request next ih => simp only [Task.bind, moments, run, ih, List.cons_append]

theorem calls_bind (task : Task Reply α) (follow : α → Task Reply β) (state : σ) :
    (task.bind follow).calls answer state = task.calls answer state ++
      (follow (task.run answer state).1).calls answer (task.run answer state).2 := by
  simp only [calls_eq, moments_bind, List.map_append]

def Within (kind : Call → Prop) : Task Reply α → Prop
  | .done _ => True
  | .call request next => kind request ∧ ∀ reply, (next reply).Within kind

variable {kind : Call → Prop}

theorem within_bind {task : Task Reply α} {follow : α → Task Reply β} (first : task.Within kind)
    (rest : ∀ value, (follow value).Within kind) : (task.bind follow).Within kind := by
  induction task with
  | done value => exact rest value
  | call request next ih => exact ⟨first.1, fun reply => ih reply (first.2 reply)⟩

theorem Within.mono {weaker : Call → Prop} {task : Task Reply α} (within : task.Within kind)
    (implies : ∀ call, kind call → weaker call) : task.Within weaker := by
  induction task with
  | done value => trivial
  | call request next ih =>
      exact ⟨implies request within.1, fun reply => ih reply (within.2 reply)⟩

theorem within_lift {Call' : Type} {Reply' : Call' → Type} {embed : Call → Call'}
    {reply : (request : Call) → Reply' (embed request) → Reply request} {wider : Call' → Prop}
    {task : Task Reply α} (within : task.Within kind)
    (embeds : ∀ call, kind call → wider (embed call)) : (task.lift embed reply).Within wider := by
  induction task with
  | done value => trivial
  | call request next ih =>
      exact ⟨embeds request within.1, fun answer => ih _ (within.2 _)⟩

theorem moments_within {task : Task Reply α} (within : task.Within kind) (state : σ) :
    ∀ moment ∈ task.moments answer state, kind moment.1 := by
  induction task generalizing state with
  | done value => simp [moments]
  | call request next ih =>
      intro moment member
      rcases List.mem_cons.mp member with rfl | later
      · exact within.1
      · exact ih _ (within.2 _) _ moment later

theorem calls_within {task : Task Reply α} (within : task.Within kind) (state : σ) :
    ∀ call ∈ task.calls answer state, kind call := by
  rw [calls_eq]
  exact List.forall_mem_map.mpr (moments_within answer within state)

theorem run_except_bind (first : ExceptT ε (Task Reply) α)
    (follow : α → ExceptT ε (Task Reply) β) (state : σ) :
    Task.run answer (first >>= follow).run state =
      match Task.run answer first.run state with
      | (.ok value, middle) => Task.run answer (follow value).run middle
      | (.error fault, middle) => (.error fault, middle) := by
  have whole := run_bind answer first.run (ExceptT.bindCont follow) state
  refine whole.trans ?_
  rcases Task.run answer first.run state with ⟨_ | value, middle⟩ <;> rfl

theorem run_bind_ok_iff (first : ExceptT ε (Task Reply) α)
    (follow : α → ExceptT ε (Task Reply) β) (state left : σ) (result : β) :
    Task.run answer (first >>= follow).run state = (.ok result, left) ↔
      ∃ value middle, Task.run answer first.run state = (.ok value, middle) ∧
        Task.run answer (follow value).run middle = (.ok result, left) := by
  rw [run_except_bind]
  rcases Task.run answer first.run state with ⟨fault | value, middle⟩
  · simp
  · constructor
    · intro goes
      exact ⟨value, middle, rfl, goes⟩
    · rintro ⟨_, _, same, goes⟩
      cases same
      exact goes

theorem moments_except_bind (first : ExceptT ε (Task Reply) α)
    (follow : α → ExceptT ε (Task Reply) β) (state : σ) :
    Task.moments answer (first >>= follow).run state = Task.moments answer first.run state ++
      match Task.run answer first.run state with
      | (.ok value, middle) => Task.moments answer (follow value).run middle
      | (.error _, _) => [] := by
  refine (moments_bind answer first.run (ExceptT.bindCont follow) state).trans ?_
  rcases Task.run answer first.run state with ⟨_ | value, middle⟩ <;> rfl

theorem calls_except_bind (first : ExceptT ε (Task Reply) α)
    (follow : α → ExceptT ε (Task Reply) β) (state : σ) :
    Task.calls answer (first >>= follow).run state = Task.calls answer first.run state ++
      match Task.run answer first.run state with
      | (.ok value, middle) => Task.calls answer (follow value).run middle
      | (.error _, _) => [] := by
  refine (calls_bind answer first.run (ExceptT.bindCont follow) state).trans ?_
  rcases Task.run answer first.run state with ⟨_ | value, middle⟩ <;> rfl

theorem within_except_bind {first : ExceptT ε (Task Reply) α}
    {follow : α → ExceptT ε (Task Reply) β} (begins : first.run.Within kind)
    (goes : ∀ value, (follow value).run.Within kind) : (first >>= follow).run.Within kind := by
  refine within_bind begins (fun result => ?_)
  cases result with
  | ok value => exact goes value
  | error fault => trivial

end Task

end PlatformBundle
