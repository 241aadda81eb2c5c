import Mathlib.Logic.Relation
import Mathlib.Data.List.Basic

/-!
# Processes that make atomic calls

A process runs against a world that is consulted once per atomic call: one
database statement, or one request to a remote node.  The `i`-th call either
sees some observation of the world (a clock reading, the current remote state)
or fails with the error the world reports, and the state it already wrote
stays written.  A crash is a world whose calls all fail from some index on, so
"after any prefix of its statements" is a quantifier over that index.
-/

namespace EthPayServer.Lib

/-- How a process ended: its result, the index of its next call, the state it left. -/
structure Outcome (ε σ α : Type) where
  result : Except ε α
  calls : Nat
  state : σ

namespace Outcome

variable {ε σ α β : Type} {outcome : Outcome ε σ α} {failure : ε → σ → Prop}

/-- Continue after a success; an error ends the process where it stands. -/
def andThen (outcome : Outcome ε σ α) (next : α → Nat → σ → Outcome ε σ β) : Outcome ε σ β :=
  match outcome with
  | ⟨.ok a, calls, state⟩ => next a calls state
  | ⟨.error e, calls, state⟩ => ⟨.error e, calls, state⟩

@[simp] theorem andThen_ok (a : α) (calls : Nat) (state : σ)
    (next : α → Nat → σ → Outcome ε σ β) :
    andThen ⟨.ok a, calls, state⟩ next = next a calls state := rfl

@[simp] theorem andThen_error (e : ε) (calls : Nat) (state : σ)
    (next : α → Nat → σ → Outcome ε σ β) :
    andThen ⟨.error e, calls, state⟩ next = ⟨.error e, calls, state⟩ := rfl

/-- What holds at the end, by the way the process ended. -/
def Satisfies (outcome : Outcome ε σ α) (post : α → σ → Prop) (failure : ε → σ → Prop) : Prop :=
  match outcome.result with
  | .ok a => post a outcome.state
  | .error e => failure e outcome.state

theorem Satisfies.of_ok {post : α → σ → Prop} (holds : outcome.Satisfies post failure) {a : α}
    (succeeds : outcome.result = .ok a) : post a outcome.state := by
  rwa [Satisfies, succeeds] at holds

/-- A process that cannot fail succeeds. -/
theorem Satisfies.ok_of_not {post : α → σ → Prop} (holds : outcome.Satisfies post failure)
    (never : ∀ e, ¬ failure e outcome.state) : ∃ a, outcome.result = .ok a ∧ post a outcome.state := by
  cases isResult : outcome.result with
  | ok a => exact ⟨a, rfl, holds.of_ok isResult⟩
  | error e =>
    rw [Satisfies, isResult] at holds
    exact absurd holds (never e)

theorem Satisfies.andThen {next : α → Nat → σ → Outcome ε σ β} (mid : α → σ → Prop) {post : β → σ → Prop}
    (first : outcome.Satisfies mid failure)
    (second : ∀ a calls state, mid a state → (next a calls state).Satisfies post failure) :
    (outcome.andThen next).Satisfies post failure := by
  obtain ⟨result, calls, state⟩ := outcome
  cases result with
  | ok a => exact second a calls state first
  | error e => exact first

theorem Satisfies.mono {post post' : α → σ → Prop} {failure failure' : ε → σ → Prop}
    (holds : outcome.Satisfies post failure) (onOk : ∀ a state, post a state → post' a state)
    (onError : ∀ e state, failure e state → failure' e state) : outcome.Satisfies post' failure' := by
  obtain ⟨result, calls, state⟩ := outcome
  cases result with
  | ok a => exact onOk a state holds
  | error e => exact onError e state holds

end Outcome

/-- What the calls of a process see: an observation of the world, or a failure. -/
abbrev World (ε ω : Type) : Type := Nat → Except ε ω

/-- A process over a state `σ` whose calls observe an `ω`. -/
def Proc (ω ε σ α : Type) : Type := World ε ω → Nat → σ → Outcome ε σ α

variable {i n m cut j : Nat}

namespace Proc

variable {ω ε σ α β : Type} {k : α → Proc ω ε σ β} (e : ε)

instance : Monad (Proc ω ε σ) where
  pure a := fun _ i s => ⟨.ok a, i, s⟩
  bind p k := fun world i s => (p world i s).andThen fun a j t => k a world j t

/-- End with an error, keeping the state. -/
def fail (e : ε) : Proc ω ε σ α := fun _ i s => ⟨.error e, i, s⟩

/-- One atomic call: it happens entirely, or it fails and changes nothing. -/
def call (f : ω → σ → Except ε (α × σ)) : Proc ω ε σ α := fun world i s =>
  match world i with
  | .error e => ⟨.error e, i + 1, s⟩
  | .ok observed =>
    match f observed s with
    | .error e => ⟨.error e, i + 1, s⟩
    | .ok (a, t) => ⟨.ok a, i + 1, t⟩

def read (f : ω → σ → Except ε α) : Proc ω ε σ α :=
  call fun observed s => (f observed s).map (·, s)

/-- Read the local state; not a call. -/
def get : Proc ω ε σ σ := fun _ i s => ⟨.ok s, i, s⟩

/-- Change the local state; not a call. -/
def modify (f : σ → σ) : Proc ω ε σ Unit := fun _ i s => ⟨.ok (), i, f s⟩

/-- The value of a computation that may fail without touching the state. -/
def ofExcept (x : Except ε α) : Proc ω ε σ α := fun _ i s => ⟨x, i, s⟩

/-- Run the body on each item in order and append what the runs return. -/
def collect (items : List β) (body : β → Proc ω ε σ (List α)) : Proc ω ε σ (List α) :=
  match items with
  | [] => pure []
  | item :: rest => do
    let found ← body item
    let more ← collect rest body
    pure (found ++ more)

@[simp] theorem pure_apply (a : α) (world : World ε ω) (i : Nat) (s : σ) :
    (pure a : Proc ω ε σ α) world i s = ⟨.ok a, i, s⟩ := rfl

@[simp] theorem fail_apply (world : World ε ω) (i : Nat) (s : σ) :
    (fail e : Proc ω ε σ α) world i s = ⟨.error e, i, s⟩ := rfl

@[simp] theorem get_apply (world : World ε ω) (i : Nat) (s : σ) :
    (get : Proc ω ε σ σ) world i s = ⟨.ok s, i, s⟩ := rfl

@[simp] theorem modify_apply (f : σ → σ) (world : World ε ω) (i : Nat) (s : σ) :
    (modify f : Proc ω ε σ Unit) world i s = ⟨.ok (), i, f s⟩ := rfl

@[simp] theorem ofExcept_apply (x : Except ε α) (world : World ε ω) (i : Nat) (s : σ) :
    (ofExcept x : Proc ω ε σ α) world i s = ⟨x, i, s⟩ := rfl

@[simp] theorem bind_apply (p : Proc ω ε σ α) (k : α → Proc ω ε σ β)
    (world : World ε ω) (i : Nat) (s : σ) :
    (p >>= k) world i s = (p world i s).andThen fun a j t => k a world j t := rfl

theorem call_of_fault {e : ε} (fault : world i = .error e) (s : σ) :
    call f world i s = ⟨.error e, i + 1, s⟩ := by
  simp [call, fault]

theorem call_of_ok {observed : ω} {s t : σ} {a : α} (answered : world i = .ok observed)
    (done : f observed s = .ok (a, t)) : call f world i s = ⟨.ok a, i + 1, t⟩ := by
  simp [call, answered, done]

theorem call_of_refused {observed : ω} {e : ε} (answered : world i = .ok observed)
    (refused : f observed s = .error e) : call f world i s = ⟨.error e, i + 1, s⟩ := by
  simp [call, answered, refused]

theorem read_of_fault {f : ω → σ → Except ε α} {e : ε} (fault : world i = .error e) (s : σ) :
    read f world i s = ⟨.error e, i + 1, s⟩ :=
  call_of_fault fault s

theorem read_of_ok {f : ω → σ → Except ε α} {observed : ω} (answered : world i = .ok observed) :
    read f world i s = ⟨f observed s, i + 1, s⟩ := by
  unfold read call
  rw [answered]
  cases done : f observed s <;> simp [done, Except.map]

/-! ## Rules for pre- and postconditions -/

/--
Started where `pre` holds, the process ends where `post` holds of its result,
or fails where `failure` holds of its error.
-/
def Triple (world : World ε ω) (pre : σ → Prop) (p : Proc ω ε σ α)
    (post : α → σ → Prop) (failure : ε → σ → Prop) : Prop :=
  ∀ i s, pre s → (p world i s).Satisfies post failure

namespace Triple

variable {pre : σ → Prop} {failure : ε → σ → Prop}

theorem pure {a : α} {post : α → σ → Prop} (holds : ∀ s, pre s → post a s) :
    Triple world pre (pure a) post failure :=
  fun _ s start => holds s start

theorem fail {e : ε} {post : α → σ → Prop} (holds : ∀ s, pre s → failure e s) :
    Triple world pre (fail e) post failure :=
  fun _ s start => holds s start

theorem ends {post : α → σ → Prop} (world : World ε ω) (i : Nat) (s : σ)
    (spec : Triple world (· = s) p post failure) :
    (∃ a, (p world i s).result = .ok a ∧ post a (p world i s).state) ∨
      ∃ e, (p world i s).result = .error e ∧ failure e (p world i s).state := by
  have outcome := spec i s rfl
  unfold Outcome.Satisfies at outcome
  split at outcome
  next a isOk => exact .inl ⟨a, isOk, outcome⟩
  next e isError => exact .inr ⟨e, isError, outcome⟩

theorem bind (mid : α → σ → Prop) {post : β → σ → Prop} (first : Triple world pre p mid failure)
    (second : ∀ a, Triple world (mid a) (k a) post failure) : Triple world pre (p >>= k) post failure :=
  fun i s start => (first i s start).andThen mid fun a calls state holds => second a calls state holds

theorem mono {pre' : σ → Prop} {post post' : α → σ → Prop} {failure' : ε → σ → Prop}
    (triple : Triple world pre p post failure) (before : ∀ s, pre' s → pre s)
    (onOk : ∀ a s, post a s → post' a s) (onError : ∀ e s, failure e s → failure' e s) :
    Triple world pre' p post' failure' :=
  fun i s start => (triple i s (before s start)).mono onOk onError

theorem call {f : ω → σ → Except ε (α × σ)} {post : α → σ → Prop}
    (onFault : ∀ i e s, world i = .error e → pre s → failure e s)
    (onOk : ∀ i observed s a t, world i = .ok observed → pre s →
      f observed s = .ok (a, t) → post a t)
    (onRefused : ∀ i observed s e, world i = .ok observed → pre s →
      f observed s = .error e → failure e s) :
    Triple world pre (call f) post failure := by
  intro i s start
  cases answered : world i with
  | error e =>
    rw [call_of_fault answered]
    exact onFault i e s answered start
  | ok observed =>
    cases done : f observed s with
    | error e =>
      rw [call_of_refused answered done]
      exact onRefused i observed s e answered start done
    | ok result =>
      rw [call_of_ok answered done]
      exact onOk i observed s result.1 result.2 answered start done

theorem read {f : ω → σ → Except ε α} {post : α → σ → Prop}
    (onFault : ∀ i e s, world i = .error e → pre s → failure e s)
    (onOk : ∀ i observed s a, world i = .ok observed → pre s →
      f observed s = .ok a → post a s)
    (onRefused : ∀ i observed s e, world i = .ok observed → pre s →
      f observed s = .error e → failure e s) :
    Triple world pre (read f) post failure := by
  intro i s start
  cases answered : world i with
  | error e =>
    rw [read_of_fault answered]
    exact onFault i e s answered start
  | ok observed =>
    rw [read_of_ok answered]
    cases done : f observed s with
    | error e => exact onRefused i observed s e answered start done
    | ok a => exact onOk i observed s a answered start done

/-- Reading the state one knows. -/
theorem get_bind {next : σ → Proc ω ε σ α} {post : α → σ → Prop}
    (rest : Triple world (· = s) (next s) post failure) :
    Triple world (· = s) (Proc.get >>= next) post failure := by
  rintro i state rfl
  exact rest i state rfl

/-- A collecting loop, with an invariant over the items visited and what they gave. -/
theorem collect {items : List β} {body : β → Proc ω ε σ (List α)}
    (inv : List β → List α → σ → Prop)
    (step : ∀ visited item found, Triple world (inv visited found) (body item)
      (fun more => inv (visited ++ [item]) (found ++ more)) failure)
    (visited : List β) (found : List α) :
    Triple world (inv visited found) (collect items body)
      (fun more => inv (visited ++ items) (found ++ more)) failure := by
  induction items generalizing visited found with
  | nil => exact Triple.pure fun _ holds => by simpa using holds
  | cons item rest ih =>
    refine Triple.bind _ (step visited item found) fun more => ?_
    refine Triple.bind _ (ih (visited ++ [item]) (found ++ more)) fun others => ?_
    exact Triple.pure fun s holds => by simpa [List.append_assoc] using holds

end Triple

/-! ## Processes that only read -/

/-- The calls `i, …, i + n - 1` are answered. -/
def Answered (world : World ε ω) (i n : Nat) : Prop :=
  ∀ k < n, ∃ observed, world (i + k) = .ok observed

theorem Answered.append (first : Answered world i n) (second : Answered world (i + n) m) :
    Answered world i (n + m) := by
  intro k below
  by_cases early : k < n
  · exact first k early
  · obtain ⟨observed, isAnswer⟩ := second (k - n) (by omega)
    exact ⟨observed, by rw [← isAnswer, Nat.add_assoc, Nat.add_sub_of_le (by omega)]⟩

theorem Answered.cons {observed : ω} (here : world i = .ok observed) (later : Answered world (i + 1) n) :
    Answered world i (n + 1) := by
  intro k below
  cases k with
  | zero => exact ⟨observed, here⟩
  | succ k =>
    rw [show i + (k + 1) = i + 1 + k by omega]
    exact later k (by omega)

theorem Answered.ne_error (answered : Answered world i n) (low : i ≤ j) (high : j < i + n) (e : ε) :
    world j ≠ .error e := by
  obtain ⟨observed, isAnswer⟩ := answered (j - i) (by omega)
  rw [Nat.add_sub_of_le low] at isAnswer
  simp [isAnswer]

/-- The first fault from a call on is the first fault of all, if none came before that call. -/
theorem Answered.first_fault {e e' : ε} (answered : Answered world 0 cut) (low : i ≤ cut)
    (before : Answered world i n) (fault : world (i + n) = .error e) (fault' : world cut = .error e') :
    cut = i + n ∧ e' = e := by
  have here : cut = i + n := by
    by_contra apart
    rcases Nat.lt_or_gt_of_ne apart with early | late
    · exact before.ne_error low early e' fault'
    · exact answered.ne_error (Nat.zero_le _) (by omega) e fault
  rw [here, fault] at fault'
  cases fault'
  exact ⟨here, rfl⟩

/--
From a state, the process makes `n` calls that leave it as it is and then ends
with a result that no observation influences; the first fault among those
calls ends it early.
-/
def Reads (p : Proc ω ε σ α) (s : σ) (n : Nat) (result : Except ε α) : Prop :=
  ∀ world i,
    (∃ k e, k < n ∧ Answered world i k ∧ world (i + k) = .error e ∧
      p world i s = ⟨.error e, i + k + 1, s⟩) ∨
    (Answered world i n ∧ p world i s = ⟨result, i + n, s⟩)

namespace Reads

theorem pure (a : α) : Reads (pure a : Proc ω ε σ α) s 0 (.ok a) :=
  fun _ _ => .inr ⟨by simp [Answered], rfl⟩

theorem fail (e : ε) : Reads (fail e : Proc ω ε σ α) s 0 (.error e) :=
  fun _ _ => .inr ⟨by simp [Answered], rfl⟩

theorem read (f : σ → Except ε α) : Reads (read fun _ => f : Proc ω ε σ α) s 1 (f s) := by
  intro world i
  cases answered : world i with
  | error e =>
    exact .inl ⟨0, e, Nat.one_pos, by simp [Answered], answered, read_of_fault answered s⟩
  | ok observed =>
    refine .inr ⟨?_, read_of_ok answered⟩
    intro k below
    obtain rfl : k = 0 := by omega
    exact ⟨observed, answered⟩

/-- What follows a process that only reads starts from the same state. -/
theorem andThen {a : α} (first : Reads p s n (.ok a)) (k : α → Proc ω ε σ β) (world : World ε ω) (i : Nat) :
    (∃ j e, j < n ∧ Answered world i j ∧ world (i + j) = .error e ∧
      (p >>= k) world i s = ⟨.error e, i + j + 1, s⟩) ∨
    (Answered world i n ∧ (p >>= k) world i s = k a world (i + n) s) := by
  rcases first world i with ⟨j, e, below, before, fault, outcome⟩ | ⟨answered, outcome⟩
  · exact .inl ⟨j, e, below, before, fault, by rw [bind_apply, outcome, Outcome.andThen_error]⟩
  · exact .inr ⟨answered, by rw [bind_apply, outcome, Outcome.andThen_ok]⟩

theorem bind {a : α} {result : Except ε β} (first : Reads p s n (.ok a)) (second : Reads (k a) s m result) :
    Reads (p >>= k) s (n + m) result := by
  intro world i
  rcases first.andThen k world i with ⟨j, e, below, before, fault, outcome⟩ | ⟨answered, outcome⟩
  · exact .inl ⟨j, e, by omega, before, fault, outcome⟩
  rw [outcome]
  rcases second world (i + n) with ⟨j, e, below, before, fault, rest⟩ | ⟨answered', rest⟩
  · refine .inl ⟨n + j, e, by omega, answered.append before, ?_, ?_⟩
    · rw [← Nat.add_assoc]
      exact fault
    · rw [rest, Nat.add_assoc i n j]
  · exact .inr ⟨answered.append answered', by rw [rest, Nat.add_assoc]⟩

theorem bind_error {e : ε} (first : Reads p s n (.error e)) : Reads (p >>= k) s n (.error e) := by
  intro world i
  rcases first world i with ⟨j, e', below, before, fault, outcome⟩ | ⟨answered, outcome⟩
  · exact .inl ⟨j, e', below, before, fault, by rw [bind_apply, outcome, Outcome.andThen_error]⟩
  · exact .inr ⟨answered, by rw [bind_apply, outcome, Outcome.andThen_error]⟩

/--
In a world that answers every call below `cut`, a process that only reads goes
through when its calls stay below `cut`, and stops at a fault of the call `cut`.
-/
theorem run {a : α} (reads : Reads p s n (.ok a)) (k : α → Proc ω ε σ β) (answered : Answered world 0 cut)
    (low : i ≤ cut) :
    (i + n ≤ cut → (p >>= k) world i s = k a world (i + n) s) ∧
    (cut < i + n → ∀ e, world cut = .error e → (p >>= k) world i s = ⟨.error e, cut + 1, s⟩) := by
  rcases reads.andThen k world i with ⟨j, e, inside, before, fault, outcome⟩ | ⟨all, outcome⟩
  · constructor
    · intro enough
      exact absurd fault (answered.ne_error (Nat.zero_le _) (by omega) e)
    · intro _ e' fault'
      obtain ⟨rfl, rfl⟩ := answered.first_fault low before fault fault'
      exact outcome
  · exact ⟨fun _ => outcome, fun short e fault => absurd fault (all.ne_error low short e)⟩

end Reads

/-! ## The writes of a process -/

/-- Whatever the world does, the process leaves a state its writes lead to. -/
def Writes (R : σ → σ → Prop) (p : Proc ω ε σ α) : Prop :=
  ∀ world i s, Relation.ReflTransGen R s (p world i s).state

namespace Writes

variable {R : σ → σ → Prop}

theorem pure (a : α) : Writes R (pure a : Proc ω ε σ α) :=
  fun _ _ _ => Relation.ReflTransGen.refl

theorem fail (e : ε) : Writes R (fail e : Proc ω ε σ α) :=
  fun _ _ _ => Relation.ReflTransGen.refl

theorem bind (first : Writes R p) (second : ∀ a, Writes R (k a)) : Writes R (p >>= k) := by
  intro world i s
  have before := first world i s
  rw [bind_apply]
  cases outcome : p world i s with
  | mk result calls state =>
    rw [outcome] at before
    cases result with
    | error e => exact before
    | ok a => exact before.trans (second a world calls state)

theorem call {f : ω → σ → Except ε (α × σ)}
    (writes : ∀ observed s a t, f observed s = .ok (a, t) → Relation.ReflTransGen R s t) :
    Writes R (call f) := by
  intro world i s
  cases answered : world i with
  | error e =>
    rw [call_of_fault answered]
  | ok observed =>
    cases done : f observed s with
    | error e =>
      rw [call_of_refused answered done]
    | ok result =>
      rw [call_of_ok answered done]
      exact writes observed s result.1 result.2 done

theorem read (f : ω → σ → Except ε α) : Writes R (read f) := by
  intro world i s
  cases answered : world i with
  | error e =>
    rw [read_of_fault answered]
  | ok observed =>
    rw [read_of_ok answered]

theorem forM {items : List β} {body : β → Proc ω ε σ PUnit}
    (each : ∀ item ∈ items, Writes R (body item)) : Writes R (forM items body) := by
  induction items with
  | nil => exact Writes.pure _
  | cons item rest ih =>
    rw [List.forM_cons]
    exact Writes.bind (each item List.mem_cons_self) fun _ =>
      ih fun other mem => each other (List.mem_cons_of_mem item mem)

theorem get : Writes R (get : Proc ω ε σ σ) :=
  fun _ _ _ => Relation.ReflTransGen.refl

theorem modify {f : σ → σ} (writes : ∀ s, Relation.ReflTransGen R s (f s)) :
    Writes R (modify f : Proc ω ε σ Unit) :=
  fun _ _ s => writes s

theorem ofExcept (x : Except ε α) : Writes R (ofExcept x : Proc ω ε σ α) :=
  fun _ _ _ => Relation.ReflTransGen.refl

theorem collect {items : List β} {body : β → Proc ω ε σ (List α)}
    (each : ∀ item, Writes R (body item)) : Writes R (collect items body) := by
  induction items with
  | nil => exact Writes.pure _
  | cons item rest ih =>
    exact Writes.bind (each item) fun _ => Writes.bind ih fun _ => Writes.pure _

theorem preserves (writes : Writes R p) {I : σ → Prop} (keeps : ∀ {s t}, R s t → I s → I t) (world : World ε ω)
    (i : Nat) (start : I s) : I (p world i s).state := by
  have path := writes world i s
  generalize (p world i s).state = final at path ⊢
  induction path with
  | refl => exact start
  | tail _ last ih => exact keeps last ih

end Writes

/-! ## The calls of a process -/

/-- The process never gives back the index of a call it made. -/
def Advances (p : Proc ω ε σ α) : Prop := ∀ world i s, i ≤ (p world i s).calls

namespace Advances

theorem pure (a : α) : Advances (pure a : Proc ω ε σ α) := fun _ _ _ => Nat.le_refl _

theorem read (f : ω → σ → Except ε α) : Advances (read f) := by
  intro world i s
  cases answered : world i with
  | error e =>
    rw [read_of_fault answered]
    exact Nat.le_succ i
  | ok observed =>
    rw [read_of_ok answered]
    exact Nat.le_succ i

theorem bind (first : Advances p) (second : ∀ a, Advances (k a)) : Advances (p >>= k) := by
  intro world i s
  have before := first world i s
  rw [bind_apply]
  cases outcome : p world i s with
  | mk result calls state =>
    rw [outcome] at before
    cases result with
    | error e => exact before
    | ok a => exact Nat.le_trans before (second a world calls state)

theorem collect {items : List β} {body : β → Proc ω ε σ (List α)}
    (each : ∀ item, Advances (body item)) : Advances (collect items body) := by
  induction items with
  | nil => exact Advances.pure _
  | cons item rest ih =>
    exact Advances.bind (each item) fun _ => Advances.bind ih fun _ => Advances.pure _

end Advances

/-- A sequence that succeeded ran both of its parts to their end. -/
theorem bind_eq_mk_ok {s t : σ} {b : β} (done : (p >>= k) world i s = ⟨.ok b, j, t⟩) :
    ∃ a mid u, p world i s = ⟨.ok a, mid, u⟩ ∧ k a world mid u = ⟨.ok b, j, t⟩ := by
  rw [bind_apply] at done
  cases outcome : p world i s with
  | mk result calls state =>
    rw [outcome] at done
    cases result with
    | error e => cases done
    | ok a => exact ⟨a, calls, state, rfl, done⟩

theorem read_eq_mk_ok {f : ω → σ → Except ε α} {s t : σ} {a : α} (done : read f world i s = ⟨.ok a, j, t⟩) :
    ∃ observed, world i = .ok observed ∧ f observed s = .ok a ∧ j = i + 1 ∧ t = s := by
  cases answered : world i with
  | error e =>
    rw [read_of_fault answered] at done
    cases done
  | ok observed =>
    rw [read_of_ok answered] at done
    obtain ⟨isResult, rfl, rfl⟩ := Outcome.mk.inj done
    exact ⟨observed, rfl, isResult, rfl, rfl⟩

/-- A collecting loop that succeeded ran its body on each item, within its own calls. -/
theorem collect_eq_mk_ok {items : List β} {body : β → Proc ω ε σ (List α)}
    (advances : ∀ item, Advances (body item)) {s t : σ} {found : List α}
    (done : collect items body world i s = ⟨.ok found, j, t⟩) {item : β} (mem : item ∈ items) :
    ∃ part first last u v, body item world first u = ⟨.ok part, last, v⟩ ∧
      i ≤ first ∧ last ≤ j ∧ part ⊆ found := by
  induction items generalizing i s found with
  | nil => cases mem
  | cons head rest ih =>
    obtain ⟨part, mid, u, here, later⟩ := bind_eq_mk_ok done
    obtain ⟨more, last, v, loop, returned⟩ := bind_eq_mk_ok later
    cases returned
    have reached : i ≤ mid := by simpa [here] using advances head world i s
    rcases List.mem_cons.mp mem with rfl | inRest
    · have loops : Advances (collect rest body) := Advances.collect advances
      have finished : mid ≤ j := by simpa [loop] using loops world mid u
      exact ⟨part, i, mid, s, u, here, Nat.le_refl i, finished, List.subset_append_left _ _⟩
    · obtain ⟨part', first, last, u', v', ran, low, high, inside⟩ := ih loop inRest
      exact ⟨part', first, last, u', v', ran, Nat.le_trans reached low, high,
        List.Subset.trans inside (List.subset_append_right _ _)⟩

/-! ## Worlds -/

/-- The world in which no call fails. -/
def uninterrupted (observed : Nat → ω) : World ε ω := fun i => .ok (observed i)

/-- The world of a process that is stopped after `cut` calls. -/
def crashAfter (cut : Nat) (e : ε) (observed : Nat → ω) : World ε ω := fun i =>
  if i < cut then .ok (observed i) else .error e

@[simp] theorem uninterrupted_apply (observed : Nat → ω) (i : Nat) :
    (uninterrupted observed : World ε ω) i = .ok (observed i) := rfl

theorem crashAfter_of_lt (observed : Nat → ω) (before : i < cut) :
    crashAfter cut e observed i = .ok (observed i) := by
  simp [crashAfter, before]

theorem answered_crashAfter (cut : Nat) (e : ε) (observed : Nat → ω) :
    Answered (crashAfter cut e observed) 0 cut :=
  fun i below => ⟨observed (0 + i), crashAfter_of_lt e observed (by omega)⟩

theorem answered_uninterrupted (observed : Nat → ω) (n : Nat) :
    Answered (uninterrupted observed : World ε ω) 0 n :=
  fun i _ => ⟨observed (0 + i), rfl⟩

theorem crashAfter_of_le (e : ε) (observed : Nat → ω) (after : cut ≤ i) :
    crashAfter cut e observed i = .error e := by
  simp [crashAfter, Nat.not_lt.mpr after]

theorem Reads.state {result : Except ε α} (reads : Reads p s n result) (world : World ε ω) (i : Nat) :
    (p world i s).state = s := by
  rcases reads world i with ⟨_, _, _, _, _, outcome⟩ | ⟨_, outcome⟩
  · rw [outcome]
  · rw [outcome]

theorem Reads.uninterrupted {result : Except ε α} (reads : Reads p s n result) (observed : Nat → ω) (i : Nat) :
    p (Proc.uninterrupted observed) i s = ⟨result, i + n, s⟩ := by
  rcases reads (Proc.uninterrupted observed) i with ⟨_, _, _, _, fault, _⟩ | ⟨_, outcome⟩
  · cases fault
  · exact outcome

end Proc

/-! ## Computations that may fail -/

section Except

variable {ε α β : Type} {x : Except ε α}

theorem bind_eq_ok {f : α → Except ε β} {b : β} : (x >>= f) = .ok b ↔ ∃ a, x = .ok a ∧ f a = .ok b := by
  cases x <;> simp [bind, Except.bind]

theorem map_eq_ok {f : α → β} {b : β} : x.map f = .ok b ↔ ∃ a, x = .ok a ∧ f a = b := by
  cases x <;> simp [Except.map]

theorem map_eq_error {f : α → β} {e : ε} : x.map f = .error e ↔ x = .error e := by
  cases x <;> simp [Except.map]

theorem mapError_eq_ok {ε' : Type} {f : ε → ε'} {a : α} (done : x.mapError f = .ok a) : x = .ok a := by
  cases x with
  | error e => cases done
  | ok b =>
    cases done
    rfl

end Except

/-- Apply a partial function to each item in order; the first error ends the loop. -/
def tryFilterMap {ε α β : Type} (f : α → Except ε (Option β)) : List α → Except ε (List β)
  | [] => .ok []
  | item :: rest =>
    match f item with
    | .error e => .error e
    | .ok found => (tryFilterMap f rest).map (found.toList ++ ·)

section TryFilterMap

variable {ε α β : Type} {f : α → Except ε (Option β)}

theorem tryFilterMap_ok {results : List β} (done : tryFilterMap f items = .ok results) :
    (∀ item ∈ items, ∃ found, f item = .ok found) ∧
      ∀ result, result ∈ results ↔ ∃ item ∈ items, f item = .ok (some result) := by
  induction items generalizing results with
  | nil =>
    cases done
    simp
  | cons item rest ih =>
    simp only [tryFilterMap] at done
    cases here : f item with
    | error e => simp [here] at done
    | ok found =>
      cases later : tryFilterMap f rest with
      | error e => simp [here, later, Except.map] at done
      | ok more =>
        simp only [here, later, Except.map, Except.ok.injEq] at done
        subst done
        obtain ⟨total, mem⟩ := ih later
        refine ⟨by simpa [here] using total, fun result => ?_⟩
        simp [mem, here]

theorem map_tryFilterMap {γ : Type} {results : List β} {view : β → γ} {seen : α → Option γ}
    (done : tryFilterMap f items = .ok results)
    (each : ∀ item ∈ items, ∀ found, f item = .ok found → found.map view = seen item) :
    results.map view = items.filterMap seen := by
  induction items generalizing results with
  | nil =>
    cases done
    rfl
  | cons item rest ih =>
    simp only [tryFilterMap] at done
    cases here : f item with
    | error e => simp [here] at done
    | ok found =>
      simp only [here] at done
      obtain ⟨more, later, rfl⟩ := map_eq_ok.mp done
      have isHead := each item List.mem_cons_self found here
      rw [List.map_append, ih later fun other mem => each other (List.mem_cons_of_mem item mem),
        List.filterMap_cons]
      cases found <;> simp [← isHead]

theorem tryFilterMap_error {e : ε} (failed : tryFilterMap f items = .error e) :
    ∃ item ∈ items, f item = .error e := by
  induction items with
  | nil => cases failed
  | cons item rest ih =>
    simp only [tryFilterMap] at failed
    cases here : f item with
    | error e' =>
      rw [here] at failed
      cases failed
      exact ⟨item, List.mem_cons_self, here⟩
    | ok found =>
      cases later : tryFilterMap f rest with
      | ok more => simp [here, later, Except.map] at failed
      | error e' =>
        simp only [here, later, Except.map, Except.error.injEq] at failed
        subst failed
        obtain ⟨bad, mem, fails⟩ := ih later
        exact ⟨bad, List.mem_cons_of_mem item mem, fails⟩

end TryFilterMap

end EthPayServer.Lib
