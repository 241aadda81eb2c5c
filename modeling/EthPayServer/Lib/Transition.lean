import Mathlib.Logic.Relation

/-!
# Labelled transition systems

A system is a set of initial states and a labelled step relation.  Restricting
a system keeps only the steps that meet a condition on the state they leave
and on their label, so "in every run whose steps all meet the condition" is
reachability in the restricted system.
-/

namespace EthPayServer.Lib

/-- Initial states and labelled steps. -/
structure System (σ α : Type*) where
  initial : σ → Prop
  step : σ → α → σ → Prop

namespace System

variable {σ α : Type*}

/-- Some step leads from the first state to the second. -/
def Moves (sys : System σ α) (s t : σ) : Prop :=
  ∃ a, sys.step s a t

/-- Some finite run leads from the first state to the second. -/
def Run (sys : System σ α) : σ → σ → Prop :=
  Relation.ReflTransGen sys.Moves

/-- Some finite run leads from an initial state here. -/
def Reachable (sys : System σ α) (t : σ) : Prop :=
  ∃ s, sys.initial s ∧ sys.Run s t

/-- Keep the steps that meet a condition on their source state and label. -/
def restrict (sys : System σ α) (condition : σ → α → Prop) : System σ α where
  initial := sys.initial
  step s a t := sys.step s a t ∧ condition s a

variable {sys : System σ α}

theorem Run.refl (s : σ) : sys.Run s s :=
  Relation.ReflTransGen.refl

theorem Run.snoc {s t u : σ} {a : α} (run : sys.Run s t) (last : sys.step t a u) :
    sys.Run s u :=
  Relation.ReflTransGen.tail run ⟨a, last⟩

theorem Run.trans {s t u : σ} (first : sys.Run s t) (second : sys.Run t u) : sys.Run s u :=
  Relation.ReflTransGen.trans first second

theorem Run.preserves {I : σ → Prop} (keeps : ∀ {s a t}, sys.step s a t → I s → I t) (run : sys.Run s t)
    (start : I s) : I t := by
  induction run with
  | refl => exact start
  | tail _ move ih =>
    obtain ⟨a, last⟩ := move
    exact keeps last ih

theorem Reachable.of_initial {s : σ} (start : sys.initial s) : sys.Reachable s :=
  ⟨s, start, Run.refl s⟩

theorem Reachable.snoc {a : α} (reached : sys.Reachable s) (last : sys.step s a t) : sys.Reachable t := by
  obtain ⟨origin, start, run⟩ := reached
  exact ⟨origin, start, run.snoc last⟩

theorem Reachable.run {s t : σ} (reached : sys.Reachable s) (run : sys.Run s t) :
    sys.Reachable t := by
  obtain ⟨origin, start, first⟩ := reached
  exact ⟨origin, start, first.trans run⟩

/--
The invariant rule: what holds initially and is preserved by every step out of
a reachable state holds in every reachable state.
-/
theorem Reachable.invariant {I : σ → Prop}
    (start : ∀ {s}, sys.initial s → I s)
    (keeps : ∀ {s a t}, sys.Reachable s → I s → sys.step s a t → I t)
    {t : σ} (reached : sys.Reachable t) : I t := by
  obtain ⟨origin, isInitial, run⟩ := reached
  induction run with
  | refl => exact start isInitial
  | tail before move ih =>
    obtain ⟨a, last⟩ := move
    exact keeps ⟨origin, isInitial, before⟩ ih last

/-- Labels that may be taken anywhere lead from a reachable state to a reachable state. -/
theorem Reachable.foldl {next : σ → α → σ} {labels : List α} {s : σ} (reached : sys.Reachable s)
    (free : ∀ a ∈ labels, ∀ s, sys.step s a (next s a)) : sys.Reachable (labels.foldl next s) := by
  induction labels generalizing s with
  | nil => exact reached
  | cons a rest ih =>
    exact ih (reached.snoc (free a List.mem_cons_self s)) fun b mem => free b (List.mem_cons_of_mem _ mem)

/-- The labels can be taken one after another, each from where the one before led. -/
def Path (sys : System σ α) (next : σ → α → σ) : σ → List α → Prop
  | _, [] => True
  | s, a :: rest => sys.step s a (next s a) ∧ sys.Path next (next s a) rest

theorem Path.run {next : σ → α → σ} {labels : List α} {s : σ} (path : sys.Path next s labels) :
    sys.Run s (labels.foldl next s) := by
  induction labels generalizing s with
  | nil => exact Run.refl s
  | cons a rest ih => exact ((Run.refl s).snoc path.1).trans (ih path.2)

/-- A finite run together with the steps it takes, oldest first. -/
inductive Trace (sys : System σ α) (s : σ) : List (σ × α × σ) → σ → Prop
  | nil : Trace sys s [] s
  | snoc {steps : List (σ × α × σ)} {t u : σ} {a : α} (before : Trace sys s steps t)
      (last : sys.step t a u) : Trace sys s (steps ++ [(t, a, u)]) u

theorem Trace.forall_steps {P : σ → α → σ → Prop} (each : ∀ {s a t}, sys.step s a t → P s a t)
    (trace : sys.Trace s steps t) : ∀ taken ∈ steps, P taken.1 taken.2.1 taken.2.2 := by
  induction trace with
  | nil => simp
  | snoc _ last ih =>
    intro taken mem
    rcases List.mem_append.mp mem with earlier | isLast
    · exact ih taken earlier
    · rw [List.mem_singleton.mp isLast]
      exact each last

theorem Trace.run (trace : sys.Trace s steps t) : sys.Run s t := by
  induction trace with
  | nil => exact Run.refl _
  | snoc _ last ih => exact ih.snoc last

/-- What holds of every step out of a reachable state holds of all steps of a run. -/
theorem Trace.forall_reachable {P : σ → α → Prop} (start : sys.initial s)
    (each : ∀ {s a t}, sys.Reachable s → sys.step s a t → P s a) (trace : sys.Trace s steps t) :
    ∀ taken ∈ steps, P taken.1 taken.2.1 := by
  induction trace with
  | nil => simp
  | snoc before last ih =>
    intro taken mem
    rcases List.mem_append.mp mem with earlier | isLast
    · exact ih taken earlier
    · rw [List.mem_singleton.mp isLast]
      exact each ⟨s, start, before.run⟩ last

/-- Every reachable state is the end of a run. -/
theorem Reachable.trace {t : σ} (reached : sys.Reachable t) :
    ∃ s steps, sys.initial s ∧ sys.Trace s steps t := by
  obtain ⟨origin, start, run⟩ := reached
  induction run with
  | refl => exact ⟨origin, [], start, .nil⟩
  | tail _ move ih =>
    obtain ⟨a, last⟩ := move
    obtain ⟨s, steps, isInitial, before⟩ := ih
    exact ⟨s, _, isInitial, before.snoc last⟩

theorem Run.of_restrict {condition : σ → α → Prop} (run : (sys.restrict condition).Run s t) : sys.Run s t := by
  induction run with
  | refl => exact Run.refl _
  | tail _ move ih =>
    obtain ⟨a, last, _⟩ := move
    exact ih.snoc last

theorem Reachable.of_restrict {condition : σ → α → Prop} {t : σ}
    (reached : (sys.restrict condition).Reachable t) : sys.Reachable t := by
  obtain ⟨origin, start, run⟩ := reached
  exact ⟨origin, start, run.of_restrict⟩

end System

end EthPayServer.Lib
