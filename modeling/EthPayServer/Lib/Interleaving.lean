import EthPayServer.Lib.Thread
import EthPayServer.Lib.Transition

/-!
# Services that run many threads

A service starts a thread for each request and lets the threads in progress
make their calls in any order.  A thread that is never resumed has crashed.
The rule at the end: when every request's thread meets its contract, the
invariant holds in every state the service reaches with timely calls.
-/

namespace EthPayServer.Lib

variable {ρ ω ε σ α : Type}

/-- A thread in progress and the request it serves. -/
structure Running (ρ ω ε σ α : Type) where
  request : ρ
  thread : Thread ω ε σ α

/-- Make the next call of a thread; a thread that ended makes none. -/
def Running.resume (running : Running ρ ω ε σ α) (answer : Answer ε ω) (s : σ) :
    σ × Running ρ ω ε σ α :=
  match running.thread with
  | .done _ => (s, running)
  | .call _ write next => (write answer s, { running with thread := next answer s })

theorem Running.resume_statement {β : Type} {f : ω → σ → Except ε (β × σ)} {observed : ω} {s t : σ} {b : β}
    (done : f observed s = .ok (b, t)) (request : ρ) (rest : β → Thread ω ε σ α) :
    (⟨request, Thread.statement f >>= rest⟩ : Running ρ ω ε σ α).resume (.ok observed) s =
      (t, ⟨request, rest b⟩) := by
  simp only [resume, Thread.bind_eq, Thread.statement, Thread.andThen, Answer.effect, Answer.observed?,
    Answer.result, done, Except.map]

/-- The shared state and the threads, in the order they were started. -/
structure Pool (ρ ω ε σ α : Type) where
  shared : σ
  running : List (Running ρ ω ε σ α)

/-- What the thread at a position ended with. -/
def Pool.result (pool : Pool ρ ω ε σ α) (index : Nat) : Option (Except ε α) :=
  match pool.running[index]? with
  | some ⟨_, .done result⟩ => some result
  | _ => none

theorem Pool.running_of_result {pool : Pool ρ ω ε σ α} {result : Except ε α}
    (ended : pool.result index = some result) :
    ∃ request, pool.running[index]? = some ⟨request, .done result⟩ := by
  unfold Pool.result at ended
  split at ended
  next request other here =>
    cases ended
    exact ⟨request, here⟩
  · cases ended

inductive PoolAction (ρ ω ε : Type) where
  | start (request : ρ)
  | run (index : Nat) (answer : Answer ε ω)

/-- No call fails and no answer is lost. -/
def PoolAction.answered : PoolAction ρ ω ε → Bool
  | .start _ => true
  | .run _ answer => answer.error?.isNone

/-- The service: a thread is given its position in the pool as its identity. -/
structure Service (ρ ω ε σ α : Type) where
  initial : σ → Prop
  /-- how the world may answer in a state -/
  legal : σ → Answer ε ω → Prop
  body : ρ → Nat → Thread ω ε σ α

def Pool.perform (body : ρ → Nat → Thread ω ε σ α) (pool : Pool ρ ω ε σ α) (action : PoolAction ρ ω ε) :
    Pool ρ ω ε σ α :=
  match action with
  | .start request =>
    { pool with running := pool.running ++ [⟨request, body request pool.running.length⟩] }
  | .run index answer =>
    match pool.running[index]? with
    | none => pool
    | some running =>
      ⟨(running.resume answer pool.shared).1, pool.running.set index (running.resume answer pool.shared).2⟩

/-- The premise of the call that is made holds. -/
def Pool.Timely (pool : Pool ρ ω ε σ α) (action : PoolAction ρ ω ε) : Prop :=
  match action with
  | .start _ => True
  | .run index _ => ∀ running ∈ pool.running[index]?, running.thread.premise pool.shared

namespace Service

variable (service : Service ρ ω ε σ α)

/-- The answer to the call that is made is one the world may give. -/
def Legal (pool : Pool ρ ω ε σ α) (action : PoolAction ρ ω ε) : Prop :=
  match action with
  | .start _ => True
  | .run _ answer => service.legal pool.shared answer

/-- The service as a transition system: any thread may be the next to make a call. -/
def system : System (Pool ρ ω ε σ α) (PoolAction ρ ω ε) where
  initial pool := service.initial pool.shared ∧ pool.running = []
  step pool action pool' := service.Legal pool action ∧ pool' = pool.perform service.body action

/-- The runs in which every call finds its premise true. -/
def timely : System (Pool ρ ω ε σ α) (PoolAction ρ ω ε) :=
  service.system.restrict Pool.Timely

/-- The pool after some actions, from a state without threads. -/
def after (start : σ) (actions : List (PoolAction ρ ω ε)) : Pool ρ ω ε σ α :=
  actions.foldl (Pool.perform service.body) ⟨start, []⟩

variable {service} {actions : List (PoolAction ρ ω ε)}

/-- Where the world may always answer, actions that are answered can be taken anywhere. -/
theorem run_of_answered (legal : ∀ {s answer}, answer.error? = none → service.legal s answer)
    (answered : ∀ action ∈ actions, action.answered = true) (pool : Pool ρ ω ε σ α) :
    service.system.Run pool (actions.foldl (Pool.perform service.body) pool) := by
  induction actions generalizing pool with
  | nil => exact .refl pool
  | cons action rest ih =>
    have isLegal : service.Legal pool action := by
      have isAnswered := answered action List.mem_cons_self
      cases action with
      | start request => trivial
      | run index answer => exact legal (Option.isNone_iff_eq_none.mp isAnswered)
    have first : service.system.step pool action (pool.perform service.body action) := ⟨isLegal, rfl⟩
    exact ((System.Run.refl pool).snoc first).trans
      (ih (fun other mem => answered other (List.mem_cons_of_mem _ mem)) _)

theorem reachable_of_answered {start : σ} (initial : service.initial start)
    (legal : ∀ {s answer}, answer.error? = none → service.legal s answer)
    (answered : ∀ action ∈ actions, action.answered = true) :
    service.system.Reachable (service.after start actions) := by
  have begins : service.system.Reachable ⟨start, []⟩ := .of_initial ⟨initial, rfl⟩
  exact begins.run (run_of_answered legal answered _)

/-- Every action passes a check in the pool it is taken in. -/
def checks (service : Service ρ ω ε σ α) (check : Pool ρ ω ε σ α → PoolAction ρ ω ε → Bool) :
    Pool ρ ω ε σ α → List (PoolAction ρ ω ε) → Bool
  | _, [] => true
  | pool, action :: rest =>
    check pool action && service.checks check (pool.perform service.body action) rest

theorem reachable_of_checks {check : Pool ρ ω ε σ α → PoolAction ρ ω ε → Bool}
    (sound : ∀ {pool action}, check pool action = true → service.Legal pool action) {start : σ}
    (initial : service.initial start) (passed : service.checks check ⟨start, []⟩ actions = true) :
    service.system.Reachable (service.after start actions) := by
  have begins : service.system.Reachable ⟨start, []⟩ := .of_initial ⟨initial, rfl⟩
  unfold after
  generalize (⟨start, []⟩ : Pool ρ ω ε σ α) = pool at passed begins ⊢
  induction actions generalizing pool with
  | nil => exact begins
  | cons action rest ih =>
    simp only [checks, Bool.and_eq_true] at passed
    exact ih _ passed.2 (begins.snoc ⟨sound passed.1, rfl⟩)

theorem timely_of_path {start : σ} (initial : service.initial start)
    (path : service.timely.Path (Pool.perform service.body) ⟨start, []⟩ actions) :
    service.timely.Reachable (service.after start actions) := by
  have begins : service.timely.Reachable ⟨start, []⟩ := .of_initial ⟨initial, rfl⟩
  exact begins.run path.run

/-- What the threads of a service promise one another. -/
structure Spec (service : Service ρ ω ε σ α) where
  invariant : σ → Prop
  rely : Nat → σ → σ → Prop
  guarantee : ρ → Nat → σ → σ → Prop
  /-- what a thread that is not started yet will find -/
  fresh : Nat → σ → Prop
  post : ρ → Nat → α → σ → Prop
  failure : ρ → Nat → ε → σ → Prop
  /-- the calls may count on their premises -/
  assumes : Prop := True

def Spec.contract (spec : Spec service) (request : ρ) (index : Nat) : Thread.Contract ω ε σ where
  legal := service.legal
  invariant := spec.invariant
  rely := spec.rely index
  guarantee := spec.guarantee request index
  assumes := spec.assumes

structure Spec.Sound (spec : Spec service) : Prop where
  initially : ∀ {s}, service.initial s → spec.invariant s ∧ ∀ i, spec.fresh i s
  refl : ∀ i s, spec.rely i s s
  trans : ∀ {i s t u}, spec.rely i s t → spec.rely i t u → spec.rely i s u
  keeps : ∀ {request i s t}, spec.invariant s → spec.guarantee request i s t → spec.invariant t
  compatible : ∀ {request i j s t}, i ≠ j → spec.invariant s → spec.guarantee request i s t →
    spec.rely j s t
  freshKept : ∀ {request i j s t}, i < j → spec.guarantee request i s t → spec.fresh j s → spec.fresh j t
  postStable : ∀ {request i a s t}, spec.rely i s t → spec.post request i a s → spec.post request i a t
  failureStable : ∀ {request i e s t}, spec.rely i s t → spec.failure request i e s →
    spec.failure request i e t
  meets : ∀ {request i s}, spec.invariant s → spec.fresh i s →
    (service.body request i).Meets (spec.contract request i) (spec.post request i)
      (spec.failure request i) s

structure Spec.Holds (spec : Spec service) (pool : Pool ρ ω ε σ α) : Prop where
  invariant : spec.invariant pool.shared
  fresh : ∀ i, pool.running.length ≤ i → spec.fresh i pool.shared
  meets : ∀ (i : Nat) (running : Running ρ ω ε σ α), pool.running[i]? = some running →
    running.thread.Meets (spec.contract running.request i) (spec.post running.request i)
      (spec.failure running.request i) pool.shared

namespace Spec

variable {spec : Spec service} {pool : Pool ρ ω ε σ α}

/-- A call keeps the guarantee, and the thread meets the rest of its contract. -/
theorem Holds.resume (sound : spec.Sound) (holds : spec.Holds pool) {running : Running ρ ω ε σ α}
    {answer : Answer ε ω} (here : pool.running[index]? = some running)
    (legal : service.legal pool.shared answer) (timely : spec.assumes → running.thread.premise pool.shared) :
    (running.resume answer pool.shared).1 = pool.shared ∧
        (running.resume answer pool.shared).2 = running ∨
      spec.guarantee running.request index pool.shared (running.resume answer pool.shared).1 ∧
        (running.resume answer pool.shared).2.thread.Meets (spec.contract running.request index)
          (spec.post running.request index) (spec.failure running.request index)
          (running.resume answer pool.shared).1 ∧
        (running.resume answer pool.shared).2.request = running.request := by
  have meets := holds.meets index running here
  obtain ⟨request, thread⟩ := running
  cases thread with
  | done result => exact .inl ⟨rfl, rfl⟩
  | call premise write next =>
    obtain ⟨kept, rest⟩ :=
      meets pool.shared (sound.refl index _) holds.invariant timely answer legal
    exact .inr ⟨kept, rest, rfl⟩

theorem Holds.start (sound : spec.Sound) (holds : spec.Holds pool) (request : ρ) :
    spec.Holds (pool.perform service.body (.start request)) where
  invariant := holds.invariant
  fresh i late := by
    simp only [Pool.perform, List.length_append, List.length_singleton] at late ⊢
    exact holds.fresh i (by omega)
  meets i running here := by
    simp only [Pool.perform] at here ⊢
    rcases Nat.lt_trichotomy i pool.running.length with before | isNew | after
    · rw [List.getElem?_append_left before] at here
      exact holds.meets i running here
    · subst isNew
      rw [List.getElem?_concat_length] at here
      cases here
      exact sound.meets holds.invariant (holds.fresh _ (Nat.le_refl _))
    · rw [List.getElem?_eq_none (by simp; omega)] at here
      cases here

theorem Holds.step (sound : spec.Sound) (holds : spec.Holds pool) {action : PoolAction ρ ω ε}
    (legal : service.Legal pool action) (timely : spec.assumes → pool.Timely action) :
    spec.Holds (pool.perform service.body action) := by
  cases action with
  | start request => exact holds.start sound request
  | run index answer =>
    cases here : pool.running[index]? with
    | none =>
      simp only [Pool.perform, here]
      exact holds
    | some running =>
      simp only [Pool.perform, here]
      obtain ⟨inside, isRunning⟩ := List.getElem?_eq_some_iff.mp here
      rcases holds.resume sound here legal (fun assumed => timely assumed running here) with
        ⟨sameState, sameThread⟩ | ⟨kept, rest, sameRequest⟩
      · rw [sameState, sameThread, ← isRunning, List.set_getElem_self]
        exact holds
      refine ⟨sound.keeps holds.invariant kept, ?_, ?_⟩
      · intro i late
        rw [List.length_set] at late
        exact sound.freshKept (by omega) kept (holds.fresh i late)
      intro i other there
      rw [List.getElem?_set] at there
      split at there
      · rename_i isIndex
        subst isIndex
        cases there
        rw [sameRequest]
        exact rest
      · rename_i isOther
        exact (holds.meets i other there).stable sound.trans sound.postStable
          sound.failureStable (sound.compatible isOther holds.invariant kept)

theorem Sound.initial (sound : spec.Sound) (initial : service.system.initial pool) : spec.Holds pool := by
  obtain ⟨isInitial, none⟩ := initial
  obtain ⟨invariant, fresh⟩ := sound.initially isInitial
  refine ⟨invariant, fun i _ => fresh i, ?_⟩
  intro i running here
  rw [none] at here
  cases here

/-- What the contracts promise holds in every state reached with timely calls. -/
theorem Sound.holds (sound : spec.Sound) (reached : service.timely.Reachable pool) : spec.Holds pool := by
  refine reached.invariant ?_ ?_
  · exact sound.initial
  · rintro pool action pool' - holds ⟨⟨legal, rfl⟩, timely⟩
    exact holds.step sound legal fun _ => timely

/-- Where no call counts on its premise, it holds in every state. -/
theorem Sound.always (sound : spec.Sound) (free : ¬ spec.assumes) (reached : service.system.Reachable pool) :
    spec.Holds pool := by
  refine reached.invariant sound.initial ?_
  rintro pool action pool' - holds ⟨legal, rfl⟩
  exact holds.step sound legal (absurd · free)

/-- A step keeps the guarantee of the thread that makes it. -/
theorem Holds.guarantees (holds : spec.Holds pool) (sound : spec.Sound) {answer : Answer ε ω}
    {pool' : Pool ρ ω ε σ α} (step : service.system.step pool (.run index answer) pool')
    (timely : spec.assumes → pool.Timely (.run index answer)) :
    pool'.shared = pool.shared ∨ ∃ running, pool.running[index]? = some running ∧
      spec.guarantee running.request index pool.shared pool'.shared := by
  obtain ⟨legal, rfl⟩ := step
  cases here : pool.running[index]? with
  | none =>
    exact .inl (by simp only [Pool.perform, here])
  | some running =>
    simp only [Pool.perform, here]
    rcases holds.resume sound here legal (fun assumed => timely assumed running here) with
      ⟨sameState, -⟩ | ⟨kept, -, -⟩
    · exact .inl sameState
    · exact .inr ⟨running, rfl, kept⟩

/-- What every guarantee implies, from one state to the next, holds from the first to the last. -/
theorem Holds.run (holds : spec.Holds pool) (sound : spec.Sound) {R : σ → σ → Prop} (refl : ∀ s, R s s)
    (trans : ∀ {s t u}, R s t → R t u → R s u)
    (each : ∀ {request i s t}, spec.guarantee request i s t → R s t)
    {runs : System (Pool ρ ω ε σ α) (PoolAction ρ ω ε)} {pool' : Pool ρ ω ε σ α} (run : runs.Run pool pool')
    (steps : ∀ {before action after}, runs.step before action after →
      service.system.step before action after ∧ (spec.assumes → before.Timely action)) :
    spec.Holds pool' ∧ R pool.shared pool'.shared := by
  induction run with
  | refl => exact ⟨holds, refl _⟩
  | tail _ move ih =>
    obtain ⟨held, early⟩ := ih
    obtain ⟨action, moved⟩ := move
    obtain ⟨⟨legal, rfl⟩, timely⟩ := steps moved
    refine ⟨held.step sound legal timely, trans early ?_⟩
    cases action with
    | start request => exact refl _
    | run index answer =>
      rcases held.guarantees sound ⟨legal, rfl⟩ timely with same | ⟨_, _, kept⟩
      · rw [same]
        exact refl _
      · exact each kept

theorem Sound.run (sound : spec.Sound) {R : σ → σ → Prop} (refl : ∀ s, R s s)
    (trans : ∀ {s t u}, R s t → R t u → R s u)
    (each : ∀ {request i s t}, spec.guarantee request i s t → R s t) {pool' : Pool ρ ω ε σ α}
    (reached : service.timely.Reachable pool) (run : service.timely.Run pool pool') :
    R pool.shared pool'.shared :=
  ((sound.holds reached).run sound refl trans each run fun step => ⟨step.1, fun _ => step.2⟩).2

end Spec

def Spec.plain (service : Service ρ ω ε σ α) (invariant : σ → Prop) (guarantee : ρ → σ → σ → Prop) :
    Spec service where
  invariant := invariant
  rely _ _ _ := True
  guarantee request _ := guarantee request
  fresh _ _ := True
  post _ _ _ _ := True
  failure _ _ _ _ := True

theorem Spec.Sound.plain {invariant : σ → Prop} {guarantee : ρ → σ → σ → Prop}
    (initially : ∀ {s}, service.initial s → invariant s)
    (keeps : ∀ {request s t}, invariant s → guarantee request s t → invariant t)
    (meets : ∀ {request i s}, invariant s →
      (service.body request i).Meets ((Spec.plain service invariant guarantee).contract request i)
        (fun _ _ => True) (fun _ _ => True) s) :
    (Spec.plain service invariant guarantee).Sound where
  initially start := ⟨initially start, fun _ => trivial⟩
  refl _ _ := trivial
  trans _ _ := trivial
  keeps := keeps
  compatible _ _ _ := trivial
  freshKept _ _ _ := trivial
  postStable _ _ := trivial
  failureStable _ _ := trivial
  meets holds _ := meets holds

end Service

end EthPayServer.Lib
