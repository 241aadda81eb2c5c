import EthPayServer.Lib.Thread
import EthPayServer.Lib.Transition

/-!
# A worker that may crash

One task at a time works on a shared state, call by call, while others write the
state in between.  A crash leaves the task where it is; what is launched next
starts from the state alone.  When every task meets the contract, its invariant
holds in every state the worker reaches.
-/

namespace EthPayServer.Lib

variable {ρ ω ε σ α : Type}

structure Worker (ω ε σ α : Type) where
  shared : σ
  task : Option (Thread ω ε σ α)

inductive WorkerAction (ρ ω ε σ : Type) where
  /-- the task in progress, if there is one, is gone -/
  | launch (request : ρ)
  | call (answer : Answer ε ω)
  /-- another writer leaves the state at `next` -/
  | other (next : σ)

/-- What the worker does for a request, and what may happen around it. -/
structure Duty (ρ ω ε σ α : Type) where
  initial : σ → Prop
  /-- how the world may answer in a state -/
  legal : σ → Answer ε ω → Prop
  others : σ → σ → Prop
  body : ρ → Thread ω ε σ α

def Worker.perform (body : ρ → Thread ω ε σ α) (worker : Worker ω ε σ α) (action : WorkerAction ρ ω ε σ) :
    Worker ω ε σ α :=
  match action with
  | .launch request => { worker with task := some (body request) }
  | .call answer =>
    match worker.task with
    | some (.call _ write next) => ⟨write answer worker.shared, some (next answer worker.shared)⟩
    | _ => worker
  | .other next => { worker with shared := next }

namespace Duty

variable (duty : Duty ρ ω ε σ α)

def Allows (s : σ) (action : WorkerAction ρ ω ε σ) : Prop :=
  match action with
  | .launch _ => True
  | .call answer => duty.legal s answer
  | .other next => duty.others s next

def system : System (Worker ω ε σ α) (WorkerAction ρ ω ε σ) where
  initial worker := duty.initial worker.shared ∧ worker.task = none
  step worker action worker' := duty.Allows worker.shared action ∧ worker' = worker.perform duty.body action

/-- The worker after some actions, from a state without a task. -/
def after (start : σ) (actions : List (WorkerAction ρ ω ε σ)) : Worker ω ε σ α :=
  actions.foldl (Worker.perform duty.body) ⟨start, none⟩

/-- Every action is taken in a state that it passes a check in. -/
def checks (duty : Duty ρ ω ε σ α) (check : σ → WorkerAction ρ ω ε σ → Bool) :
    Worker ω ε σ α → List (WorkerAction ρ ω ε σ) → Bool
  | _, [] => true
  | worker, action :: rest =>
    check worker.shared action && duty.checks check (worker.perform duty.body action) rest

variable {duty}

theorem reachable_of_checks {check : σ → WorkerAction ρ ω ε σ → Bool}
    (sound : ∀ {s action}, check s action = true → duty.Allows s action) {start : σ}
    (initial : duty.initial start) {actions : List (WorkerAction ρ ω ε σ)}
    (passed : duty.checks check ⟨start, none⟩ actions = true) :
    duty.system.Reachable (duty.after start actions) := by
  have begins : duty.system.Reachable ⟨start, none⟩ := .of_initial ⟨initial, rfl⟩
  unfold after
  generalize (⟨start, none⟩ : Worker ω ε σ α) = worker at passed begins ⊢
  induction actions generalizing worker with
  | nil => exact begins
  | cons action rest ih =>
    simp only [checks, Bool.and_eq_true] at passed
    exact ih _ passed.2 (begins.snoc ⟨sound passed.1, rfl⟩)

structure Sound (duty : Duty ρ ω ε σ α) (contract : Thread.Contract ω ε σ) : Prop where
  initially : ∀ {s}, duty.initial s → contract.invariant s
  legal : ∀ {s answer}, duty.legal s answer → contract.legal s answer
  refl : ∀ s, contract.rely s s
  trans : ∀ {s t u}, contract.rely s t → contract.rely t u → contract.rely s u
  others : ∀ {s t}, contract.invariant s → duty.others s t → contract.rely s t ∧ contract.invariant t
  keeps : ∀ {s t}, contract.invariant s → contract.guarantee s t → contract.invariant t
  free : ¬ contract.assumes
  meets : ∀ {request s}, contract.invariant s →
    (duty.body request).Meets contract (fun _ _ => True) (fun _ _ => True) s

structure Holds (contract : Thread.Contract ω ε σ) (worker : Worker ω ε σ α) : Prop where
  invariant : contract.invariant worker.shared
  meets : ∀ task ∈ worker.task, task.Meets contract (fun _ _ => True) (fun _ _ => True) worker.shared

namespace Sound

variable {contract : Thread.Contract ω ε σ} {worker : Worker ω ε σ α}

theorem step (sound : duty.Sound contract) (holds : Holds contract worker) {action : WorkerAction ρ ω ε σ}
    (allowed : duty.Allows worker.shared action) : Holds contract (worker.perform duty.body action) := by
  obtain ⟨shared, task⟩ := worker
  cases action with
  | launch request =>
    refine ⟨holds.invariant, ?_⟩
    rintro _ ⟨⟩
    exact sound.meets holds.invariant
  | other next =>
    obtain ⟨relied, invariant⟩ := sound.others holds.invariant allowed
    refine ⟨invariant, fun task mem => ?_⟩
    exact (holds.meets task mem).stable sound.trans (fun _ _ => trivial) (fun _ _ => trivial) relied
  | call answer =>
    cases task with
    | none => exact holds
    | some thread =>
      cases thread with
      | done result => exact holds
      | call premise write next =>
        obtain ⟨kept, rest⟩ := holds.meets _ rfl shared (sound.refl shared) holds.invariant
          (absurd · sound.free) answer (sound.legal allowed)
        refine ⟨sound.keeps holds.invariant kept, ?_⟩
        rintro _ ⟨⟩
        exact rest

/-- What the contract promises holds in every state of every run. -/
theorem holds (sound : duty.Sound contract) (reached : duty.system.Reachable worker) :
    Holds contract worker := by
  refine reached.invariant ?_ ?_
  · rintro worker ⟨initial, none⟩
    refine ⟨sound.initially initial, ?_⟩
    rw [none]
    rintro _ ⟨⟩
  · rintro worker action worker' - holds ⟨allowed, rfl⟩
    exact sound.step holds allowed

end Sound

end Duty

end EthPayServer.Lib
