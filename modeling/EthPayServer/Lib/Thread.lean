import EthPayServer.Lib.Proc

/-!
# Programs cut at their calls

A thread makes atomic calls against a state that other threads write between
them.  A call may carry a premise: what the program concluded about the state
from what it read before.  The premise is a ghost, no program looks at it; a
run in which every call finds its premise true is one where no other thread
came between a check and the write that relies on it.

A thread is specified by what it relies on from the others, what it guarantees
them for each of its own calls, and what holds when it ends.
-/

namespace EthPayServer.Lib

/-- How the world answers a call: done, not done, or done with the answer lost. -/
inductive Answer (ε ω : Type) where
  | ok (observed : ω)
  | failed (error : ε)
  | lost (observed : ω) (error : ε)

namespace Answer

variable {ω ε ε' σ α : Type}

/-- A call that is never lost. -/
def ofExcept : Except ε ω → Answer ε ω
  | .ok observed => .ok observed
  | .error e => .failed e

def mapError (f : ε → ε') : Answer ε ω → Answer ε' ω
  | .ok observed => .ok observed
  | .failed e => .failed (f e)
  | .lost observed e => .lost observed (f e)

def observed? : Answer ε ω → Option ω
  | .ok observed => some observed
  | .failed _ => none
  | .lost observed _ => some observed

/-- The error the program sees instead of an answer. -/
def error? : Answer ε ω → Option ε
  | .ok _ => none
  | .failed e => some e
  | .lost _ e => some e

/-- The state after one statement; a refused statement changes nothing. -/
def effect (f : ω → σ → Except ε (α × σ)) (answer : Answer ε ω) (s : σ) : σ :=
  match answer.observed? with
  | none => s
  | some observed =>
    match f observed s with
    | .ok (_, t) => t
    | .error _ => s

/-- What the program sees of one statement. -/
def result (f : ω → σ → Except ε (α × σ)) (answer : Answer ε ω) (s : σ) : Except ε α :=
  match answer with
  | .ok observed => (f observed s).map Prod.fst
  | .failed e => .error e
  | .lost _ e => .error e

end Answer

/-- A program over a shared state `σ`, cut at its calls. -/
inductive Thread (ω ε σ α : Type) where
  | done (result : Except ε α)
  | call (premise : σ → Prop) (write : Answer ε ω → σ → σ)
      (next : Answer ε ω → σ → Thread ω ε σ α)

namespace Thread

variable {ω ε ε' σ τ α β : Type} {thread : Thread ω ε σ α}
  {rest : α → Thread ω ε σ β} {body : β → Thread ω ε σ PUnit} {failure : ε → σ → Prop}

/-- Continue after a success; an error ends the thread. -/
def andThen (thread : Thread ω ε σ α) (rest : α → Thread ω ε σ β) : Thread ω ε σ β :=
  match thread with
  | done (.ok a) => rest a
  | done (.error e) => done (.error e)
  | call premise write next => call premise write fun answer s => (next answer s).andThen rest

instance : Monad (Thread ω ε σ) where
  pure a := done (.ok a)
  bind := andThen

def fail (e : ε) : Thread ω ε σ α := done (.error e)

/-- One statement: it happens entirely, or it changes nothing. -/
def statement (f : ω → σ → Except ε (α × σ)) : Thread ω ε σ α :=
  call (fun _ => True) (Answer.effect f) fun answer s => done (answer.result f s)

def query (f : σ → α) : Thread ω ε σ α :=
  statement fun _ s => .ok (f s, s)

/-- The thread whose first call relies on a premise. -/
def assuming (premise : σ → Prop) : Thread ω ε σ α → Thread ω ε σ α
  | done result => done result
  | call _ write next => call premise write next

/-- The thread each of whose calls relies on a premise, beside its own. -/
def relying (premise : σ → Prop) : Thread ω ε σ α → Thread ω ε σ α
  | done result => done result
  | call own write next =>
    call (fun s => own s ∧ premise s) write fun answer s => (next answer s).relying premise

def attempt : Thread ω ε σ α → Thread ω ε σ (Except ε α)
  | done result => done (.ok result)
  | call premise write next => call premise write fun answer s => (next answer s).attempt

def premise : Thread ω ε σ α → σ → Prop
  | done _ => fun _ => True
  | call premise _ _ => premise

/-- A state as one part of a larger state, and its errors among others. -/
structure View (σ ε τ ε' : Type) where
  part : τ → σ
  replace : σ → τ → τ
  fault : ε' → ε
  report : ε → ε'

/-- The same calls on one part of a larger state. -/
def embed (view : View σ ε τ ε') : Thread ω ε σ α → Thread ω ε' τ α
  | done result => done (result.mapError view.report)
  | call premise write next =>
    call (fun t => premise (view.part t))
      (fun answer t => view.replace (write (answer.mapError view.fault) (view.part t)) t)
      fun answer t => (next (answer.mapError view.fault) (view.part t)).embed view

theorem bind_eq (thread : Thread ω ε σ α) (rest : α → Thread ω ε σ β) :
    thread >>= rest = thread.andThen rest := rfl

instance : LawfulMonad (Thread ω ε σ) := LawfulMonad.mk' _
  (fun thread => by
    change thread.andThen (fun a => done (.ok a)) = thread
    induction thread with
    | done result => cases result <;> rfl
    | call premise write next ih => simp only [andThen, ih])
  (fun _ _ => rfl)
  (fun thread first second => by
    change (thread.andThen first).andThen second = thread.andThen fun a => (first a).andThen second
    induction thread with
    | done result => cases result <;> rfl
    | call premise write next ih => simp only [andThen, ih])

theorem embed_bind (view : View σ ε τ ε') (thread : Thread ω ε σ α) (rest : α → Thread ω ε σ β) :
    (thread >>= rest).embed view = thread.embed view >>= fun a => (rest a).embed view := by
  rw [bind_eq, bind_eq]
  induction thread with
  | done result => cases result <;> rfl
  | call premise write next ih =>
    simp only [andThen, embed]
    congr 1
    funext answer t
    exact ih _ _

/-! ## What a thread answers at one moment -/

/-- What the thread ends with when all its calls are answered alike in one state. -/
def ask (observed : ω) (s : σ) : Thread ω ε σ α → Except ε α
  | done result => result
  | call _ _ next => (next (.ok observed) s).ask observed s

@[simp] theorem ask_pure (observed : ω) (s : σ) (a : α) : (pure a : Thread ω ε σ α).ask observed s = .ok a := rfl

@[simp] theorem ask_fail (observed : ω) (s : σ) (e : ε) : (fail e : Thread ω ε σ α).ask observed s = .error e :=
  rfl

@[simp] theorem ask_statement (observed : ω) (s : σ) (f : ω → σ → Except ε (α × σ)) :
    (statement f).ask observed s = (f observed s).map Prod.fst := rfl

@[simp] theorem ask_bind (observed : ω) (s : σ) (thread : Thread ω ε σ α) (rest : α → Thread ω ε σ β) :
    (thread >>= rest).ask observed s = (thread.ask observed s).bind fun a => (rest a).ask observed s := by
  rw [bind_eq]
  induction thread with
  | done result => cases result <;> rfl
  | call premise write next ih => exact ih _ _

@[simp] theorem ask_attempt (observed : ω) (s : σ) (thread : Thread ω ε σ α) :
    thread.attempt.ask observed s = .ok (thread.ask observed s) := by
  induction thread with
  | done result => rfl
  | call premise write next ih => exact ih _ _

/-! ## A thread that runs alone -/

def toProc : Thread ω ε σ α → Proc ω ε σ α
  | done result => Proc.ofExcept result
  | call _ write next => fun world i s =>
    (next (.ofExcept (world i)) s).toProc world (i + 1) (write (.ofExcept (world i)) s)

@[simp] theorem toProc_bind (thread : Thread ω ε σ α) (rest : α → Thread ω ε σ β) :
    (thread >>= rest).toProc = thread.toProc >>= fun a => (rest a).toProc := by
  rw [bind_eq]
  induction thread with
  | done result => cases result <;> rfl
  | call premise write next ih =>
    funext world i s
    rw [Proc.bind_apply]
    simp only [andThen, toProc]
    rw [ih, Proc.bind_apply]

@[simp] theorem toProc_assuming (premise : σ → Prop) (thread : Thread ω ε σ α) :
    (assuming premise thread).toProc = thread.toProc := by
  cases thread <;> rfl

@[simp] theorem toProc_statement (f : ω → σ → Except ε (α × σ)) :
    (statement f).toProc = Proc.call f := by
  funext world i s
  unfold Proc.call
  cases answered : world i with
  | error e =>
    simp [statement, toProc, answered, Answer.ofExcept, Answer.result, Answer.effect,
      Answer.observed?]
  | ok observed =>
    cases ends : f observed s <;>
      simp [statement, toProc, answered, Answer.ofExcept, Answer.result, Answer.effect,
        Answer.observed?, ends, Except.map]

/-- Run alone from a state, the thread may end with a result in another state. -/
def Yields (thread : Thread ω ε σ α) (s : σ) (a : α) (t : σ) : Prop :=
  ∃ world i j, thread.toProc world i s = ⟨.ok a, j, t⟩

namespace Yields

variable {s t : σ} {a : α} {b : β}

theorem of_run {world : World ε ω} {i : Nat} (ran : (thread.toProc world i s).result = .ok a) :
    ∃ t, thread.Yields s a t := by
  refine ⟨(thread.toProc world i s).state, world, i, (thread.toProc world i s).calls, ?_⟩
  rw [← ran]

theorem of_pure {result : α} (ends : (pure a : Thread ω ε σ α).Yields s result t) :
    result = a ∧ t = s := by
  obtain ⟨world, i, j, isEnd⟩ := ends
  cases isEnd
  exact ⟨rfl, rfl⟩

theorem of_fail {e : ε} (ends : (fail e : Thread ω ε σ α).Yields s a t) : False := by
  obtain ⟨world, i, j, isEnd⟩ := ends
  cases isEnd

theorem of_bind (ends : (thread >>= rest).Yields s b t) :
    ∃ a u, thread.Yields s a u ∧ (rest a).Yields u b t := by
  obtain ⟨world, i, j, isEnd⟩ := ends
  rw [toProc_bind] at isEnd
  obtain ⟨a, k, u, first, second⟩ := Proc.bind_eq_mk_ok isEnd
  exact ⟨a, u, ⟨world, i, k, first⟩, ⟨world, k, j, second⟩⟩

theorem of_statement (ends : (statement f).Yields s a t) : ∃ observed, f observed s = .ok (a, t) := by
  obtain ⟨world, i, j, isEnd⟩ := ends
  rw [toProc_statement] at isEnd
  unfold Proc.call at isEnd
  cases answered : world i with
  | error e => simp [answered] at isEnd
  | ok observed =>
    refine ⟨observed, ?_⟩
    cases done : f observed s with
    | error e => simp [answered, done] at isEnd
    | ok pair =>
      simp only [answered, done] at isEnd
      cases isEnd
      rfl

/-- A thread that was tried and told its result ran to its end. -/
theorem of_attempt (ends : thread.attempt.Yields s (.ok a) t) : thread.Yields s a t := by
  obtain ⟨world, i, j, isEnd⟩ := ends
  refine ⟨world, i, j, ?_⟩
  induction thread generalizing s i with
  | done result =>
    cases isEnd
    rfl
  | call premise write next ih => exact ih _ _ _ isEnd

/-- A statement that was tried and told its answer was carried out. -/
theorem of_attempt_statement (ends : (statement f).attempt.Yields s (.ok a) t) :
    ∃ observed, f observed s = .ok (a, t) :=
  ends.of_attempt.of_statement

end Yields

/-! ## Contracts -/

structure Contract (ω ε σ : Type) where
  /-- how the world may answer in a state -/
  legal : σ → Answer ε ω → Prop
  /-- what holds between any two calls of any threads -/
  invariant : σ → Prop
  /-- what the other threads do between two calls of this one -/
  rely : σ → σ → Prop
  guarantee : σ → σ → Prop
  /-- a call may count on its premise -/
  assumes : Prop := True

/--
Started in the state, the thread keeps its guarantee with every call, and ends
where `post` holds of its result or `failure` of its error.
-/
def Meets (contract : Contract ω ε σ) (post : α → σ → Prop) (failure : ε → σ → Prop) :
    Thread ω ε σ α → σ → Prop
  | done (.ok a), s => post a s
  | done (.error e), s => failure e s
  | call premise write next, s => ∀ t, contract.rely s t → contract.invariant t →
      (contract.assumes → premise t) → ∀ answer, contract.legal t answer →
        contract.guarantee t (write answer t) ∧
          (next answer t).Meets contract post failure (write answer t)

/-- The thread keeps the contract, whatever it ends with. -/
abbrev Respects (contract : Contract ω ε σ) (thread : Thread ω ε σ α) (s : σ) : Prop :=
  thread.Meets contract (fun _ _ => True) (fun _ _ => True) s

section Rules

variable {contract : Contract ω ε σ} {post : α → σ → Prop} {s : σ} {premise : σ → Prop}

@[simp] theorem meets_pure (a : α) : (pure a : Thread ω ε σ α).Meets contract post failure s ↔ post a s :=
  Iff.rfl

theorem Meets.mono {post' : α → σ → Prop} {failure' : ε → σ → Prop}
    (meets : thread.Meets contract post failure s) (onOk : ∀ a s, post a s → post' a s)
    (onError : ∀ e s, failure e s → failure' e s) : thread.Meets contract post' failure' s := by
  induction thread generalizing s with
  | done result =>
    cases result with
    | ok a => exact onOk a s meets
    | error e => exact onError e s meets
  | call premise write next ih =>
    intro t relied holds premised answer legal
    obtain ⟨kept, rest⟩ := meets t relied holds premised answer legal
    exact ⟨kept, ih answer t rest⟩

@[simp] theorem meets_bind (thread : Thread ω ε σ β) (rest : β → Thread ω ε σ α) :
    (thread >>= rest).Meets contract post failure s ↔
      thread.Meets contract (fun b => (rest b).Meets contract post failure) failure s := by
  rw [bind_eq]
  induction thread generalizing s with
  | done result => cases result <;> rfl
  | call premise write next ih =>
    simp only [andThen, Meets, ih]

/-- The rule of sequence. -/
theorem Meets.bind {thread : Thread ω ε σ β} {first : β → σ → Prop} {rest : β → Thread ω ε σ α}
    (meets : thread.Meets contract first failure s)
    (next : ∀ b s, first b s → (rest b).Meets contract post failure s) :
    (thread >>= rest).Meets contract post failure s := by
  rw [meets_bind]
  exact meets.mono next fun _ _ failed => failed

@[simp] theorem meets_attempt {post : Except ε β → σ → Prop} (thread : Thread ω ε σ β) :
    thread.attempt.Meets contract post failure s ↔
      thread.Meets contract (fun b => post (.ok b)) (fun e => post (.error e)) s := by
  induction thread generalizing s with
  | done result => cases result <;> rfl
  | call premise write next ih =>
    simp only [attempt, Meets, ih]

/-- What a statement must show: it keeps the guarantee when it is carried out, and nothing otherwise. -/
theorem Meets.statement {f : ω → σ → Except ε (α × σ)} {premise : σ → Prop}
    (onOk : ∀ t observed a u, contract.rely s t → contract.invariant t → (contract.assumes → premise t) →
      contract.legal t (.ok observed) → f observed t = .ok (a, u) →
      contract.guarantee t u ∧ post a u)
    (onLost : ∀ t observed e a u, contract.rely s t → contract.invariant t → (contract.assumes → premise t) →
      contract.legal t (.lost observed e) → f observed t = .ok (a, u) →
      contract.guarantee t u ∧ failure e u)
    (onError : ∀ t e, contract.rely s t → contract.invariant t → contract.guarantee t t ∧ failure e t) :
    (assuming premise (statement f)).Meets contract post failure s := by
  intro t relied holds premised answer legal
  cases answer with
  | ok observed =>
    cases ends : f observed t with
    | ok pair =>
      simp only [Answer.effect, Answer.observed?, Answer.result, ends]
      exact onOk t observed pair.1 pair.2 relied holds premised legal ends
    | error e =>
      simp only [Answer.effect, Answer.observed?, Answer.result, ends]
      exact onError t e relied holds
  | failed e =>
    simp only [Answer.effect, Answer.observed?, Answer.result]
    exact onError t e relied holds
  | lost observed e =>
    cases ends : f observed t with
    | ok pair =>
      simp only [Answer.effect, Answer.observed?, Answer.result, ends]
      exact onLost t observed e pair.1 pair.2 relied holds premised legal ends
    | error _ =>
      simp only [Answer.effect, Answer.observed?, Answer.result, ends]
      exact onError t e relied holds

/-- A statement after which the same holds whether it was carried out or not, and whatever was heard of it. -/
theorem Meets.whatever (Q : σ → Prop)
    (write : ∀ {t observed a u}, contract.rely s t → contract.invariant t → (contract.assumes → premise t) →
      (∃ answer, answer.observed? = some observed ∧ contract.legal t answer) →
      f observed t = .ok (a, u) → contract.guarantee t u ∧ Q u)
    (stays : ∀ {t}, contract.rely s t → contract.invariant t → contract.guarantee t t ∧ Q t)
    (onOk : ∀ {a t}, Q t → post a t) (onError : ∀ {e t}, Q t → failure e t) :
    (assuming premise (Thread.statement f)).Meets contract post failure s := by
  refine Meets.statement ?_ ?_ fun t e relied holds => (stays relied holds).imp id onError
  · intro t observed a u relied holds premised legal ends
    exact (write relied holds premised ⟨_, rfl, legal⟩ ends).imp id onOk
  · intro t observed e a u relied holds premised legal ends
    exact (write relied holds premised ⟨_, rfl, legal⟩ ends).imp id onError

theorem Meets.ofWrite (kept : ∀ t, contract.guarantee t t)
    (write : ∀ {observed t a u}, contract.invariant t → (contract.assumes → premise t) →
      f observed t = .ok (a, u) → contract.guarantee t u) (onOk : ∀ a t, post a t)
    (onError : ∀ e t, failure e t) (s : σ) :
    (assuming premise (Thread.statement f)).Meets contract post failure s := by
  refine Meets.statement ?_ ?_ fun t e _ _ => ⟨kept t, onError e t⟩
  · intro t _ a u _ holds premised _ ends
    exact ⟨write holds premised ends, onOk a u⟩
  · intro t _ e a u _ holds premised _ ends
    exact ⟨write holds premised ends, onError e u⟩

/-- Where the world always answers, a statement that is not refused has one way to go. -/
theorem Meets.answered (available : ∀ {t answer}, contract.legal t answer → ∃ observed, answer = .ok observed)
    (onOk : ∀ t observed, contract.rely s t → contract.invariant t → (contract.assumes → premise t) →
      contract.legal t (.ok observed) →
      ∃ a u, f observed t = .ok (a, u) ∧ contract.guarantee t u ∧ post a u) :
    (assuming premise (Thread.statement f)).Meets contract post failure s := by
  intro t relied holds premised answer legal
  obtain ⟨observed, rfl⟩ := available legal
  obtain ⟨a, u, ends, kept, after⟩ := onOk t observed relied holds premised legal
  simp only [Answer.effect, Answer.observed?, Answer.result, ends]
  exact ⟨kept, after⟩

theorem Meets.query {f : σ → α} (kept : ∀ t, contract.guarantee t t)
    (onOk : ∀ t, contract.rely s t → contract.invariant t → post (f t) t)
    (onError : ∀ t e, contract.rely s t → contract.invariant t → failure e t) :
    (query f).Meets contract post failure s := by
  change (assuming (fun _ => True) (Thread.query f)).Meets contract post failure s
  refine Meets.statement ?_ ?_ fun t e relied holds => ⟨kept t, onError t e relied holds⟩
  · rintro t observed a u relied holds - - ⟨⟩
    exact ⟨kept t, onOk t relied holds⟩
  · rintro t observed e a u relied holds - - ⟨⟩
    exact ⟨kept t, onError t e relied holds⟩

/-- A loop keeps what each of its iterations keeps; the rule names the items still to come. -/
theorem Meets.forM {items : List β} {body : β → Thread ω ε σ PUnit} {failure : ε → σ → Prop}
    (inv : List β → σ → Prop)
    (each : ∀ item rest s, inv (item :: rest) s →
      (body item).Meets contract (fun _ => inv rest) failure s)
    (start : inv items s) : (forM items body).Meets contract (fun _ => inv []) failure s := by
  induction items generalizing s with
  | nil => exact start
  | cons item rest ih =>
    rw [List.forM_cons]
    exact (each item rest s start).bind fun _ _ => ih

/-- What the iteration of every item keeps, the loop keeps. -/
theorem Meets.forM_mem {items : List β} {I : σ → Prop} {failure : ε → σ → Prop}
    (each : ∀ item ∈ items, ∀ s, I s → (body item).Meets contract (fun _ => I) failure s) (start : I s) :
    (items.forM body).Meets contract (fun _ => I) failure s := by
  have loop := Meets.forM (fun rest s => (∀ item ∈ rest, item ∈ items) ∧ I s)
    (fun item rest s here => (each item (here.1 item List.mem_cons_self) s here.2).mono
      (fun _ _ kept => ⟨fun other mem => here.1 other (List.mem_cons_of_mem item mem), kept⟩)
      fun _ _ failed => failed)
    ⟨fun _ mem => mem, start⟩
  exact loop.mono (fun _ _ kept => kept.2) fun _ _ failed => failed

/-- A thread that keeps a contract keeps another one, along with a property that carries from the first to it. -/
theorem Meets.carry {outer : Contract ω ε σ} {Q : σ → Prop}
    (legal : ∀ {t answer}, outer.legal t answer → contract.legal t answer)
    (relied : ∀ {s t}, outer.rely s t → Q s → contract.rely s t ∧ Q t)
    (invariant : ∀ {t}, outer.invariant t → Q t → contract.invariant t)
    (kept : ∀ {t u}, outer.invariant t → Q t → contract.guarantee t u → outer.guarantee t u ∧ Q u)
    (meets : thread.Meets contract post failure s) (holds : Q s) (trusts : contract.assumes → outer.assumes) :
    thread.Meets outer (fun a t => post a t ∧ Q t) failure s := by
  induction thread generalizing s with
  | done result =>
    cases result with
    | ok a => exact ⟨meets, holds⟩
    | error e => exact meets
  | call premise write next ih =>
    intro t later isInvariant premised answer isLegal
    obtain ⟨inner, still⟩ := relied later holds
    obtain ⟨keeps, rest⟩ := meets t inner (invariant isInvariant still) (premised ∘ trusts) answer (legal isLegal)
    obtain ⟨guaranteed, after⟩ := kept isInvariant still keeps
    exact ⟨guaranteed, ih answer t rest after⟩

/-- What neither the others nor the thread's own calls undo still holds at its end. -/
theorem Meets.frame {Q : σ → Prop} (relied : ∀ {s t}, contract.rely s t → Q s → Q t)
    (kept : ∀ {s t}, contract.guarantee s t → Q s → Q t) (meets : thread.Meets contract post failure s)
    (holds : Q s) : thread.Meets contract (fun a t => post a t ∧ Q t) failure s :=
  meets.carry (fun legal => legal) (fun later holds => ⟨later, relied later holds⟩)
    (fun invariant _ => invariant) (fun _ holds keeps => ⟨keeps, kept keeps holds⟩) holds id

/-- A loop whose iterations each establish something lasting ends with all of it. -/
theorem Meets.forM_each {items : List β} {P : β → σ → Prop} {failure : ε → σ → Prop}
    (relied : ∀ {item s t}, contract.rely s t → P item s → P item t)
    (kept : ∀ {item s t}, contract.guarantee s t → P item s → P item t)
    (each : ∀ item s, (body item).Meets contract (fun _ => P item) failure s) :
    (ForM.forM items body).Meets contract (fun _ t => ∀ item ∈ items, P item t) failure s := by
  induction items generalizing s with
  | nil =>
    intro item mem
    cases mem
  | cons first rest ih =>
    rw [List.forM_cons]
    refine (each first s).bind fun _ t holds => ?_
    refine ((ih (s := t)).frame relied kept holds).mono ?_ fun _ _ failed => failed
    rintro _ u ⟨others, here⟩ item mem
    rcases List.mem_cons.mp mem with rfl | mem
    · exact here
    · exact others item mem

/-- A thread keeps its contract on one part of a larger state. -/
theorem Meets.embed {view : View σ ε τ ε'} {whole : Contract ω ε' τ} {post' : α → τ → Prop}
    {failure' : ε' → τ → Prop} (lens : ∀ s t, view.part (view.replace s t) = s)
    (legal : ∀ {t answer}, whole.legal t answer → contract.legal (view.part t) (answer.mapError view.fault))
    (invariant : ∀ {t}, whole.invariant t → contract.invariant (view.part t))
    (rely : ∀ {t u}, whole.rely t u → contract.rely (view.part t) (view.part u))
    (guarantee : ∀ {t s}, whole.invariant t → contract.guarantee (view.part t) s →
      whole.guarantee t (view.replace s t)) (onOk : ∀ {a t}, post a (view.part t) → post' a t)
    (onError : ∀ {e t}, failure e (view.part t) → failure' (view.report e) t) {t : τ}
    (meets : thread.Meets contract post failure (view.part t)) (trusts : contract.assumes → whole.assumes) :
    (thread.embed view).Meets whole post' failure' t := by
  induction thread generalizing t with
  | done result =>
    cases result with
    | ok a => exact onOk meets
    | error e => exact onError meets
  | call premise write next ih =>
    intro u relied holds premised answer isLegal
    obtain ⟨kept, rest⟩ :=
      meets (view.part u) (rely relied) (invariant holds) (premised ∘ trusts) _ (legal isLegal)
    refine ⟨guarantee holds kept, ih _ _ ?_⟩
    rw [lens]
    exact rest

/-- What each call relies on can be taken for an invariant. -/
theorem Meets.relying
    (meets : thread.Meets { contract with invariant := fun t => contract.invariant t ∧ premise t } post
      failure s) (assumed : contract.assumes) : (thread.relying premise).Meets contract post failure s := by
  induction thread generalizing s with
  | done result => cases result <;> exact meets
  | call own write next ih =>
    intro t relied holds premised answer legal
    obtain ⟨kept, rest⟩ :=
      meets t relied ⟨holds, (premised assumed).2⟩ (fun own => (premised own).1) answer legal
    exact ⟨kept, ih answer t rest⟩

/-- What the others do between two calls does not disturb what a thread still has to do. -/
theorem Meets.stable (trans : ∀ {s t u}, contract.rely s t → contract.rely t u → contract.rely s u)
    (onOk : ∀ {a s t}, contract.rely s t → post a s → post a t)
    (onError : ∀ {e s t}, contract.rely s t → failure e s → failure e t)
    (meets : thread.Meets contract post failure s) {t : σ} (relied : contract.rely s t) :
    thread.Meets contract post failure t := by
  cases thread with
  | done result =>
    cases result with
    | ok a => exact onOk relied meets
    | error e => exact onError relied meets
  | call premise write next =>
    intro u later
    exact meets u (trans relied later)

end Rules

/-! ## Threads that only read -/

def ReadOnly : Thread ω ε σ α → Prop
  | done _ => True
  | call _ write next => ∀ answer s, write answer s = s ∧ (next answer s).ReadOnly

namespace ReadOnly

@[simp] theorem pure (a : α) : ReadOnly (pure a : Thread ω ε σ α) := trivial

@[simp] theorem fail (e : ε) : ReadOnly (fail e : Thread ω ε σ α) := trivial

@[simp] theorem query (f : σ → α) : ReadOnly (query f : Thread ω ε σ α) := by
  intro answer s
  cases answer <;> exact ⟨rfl, trivial⟩

theorem bind (first : thread.ReadOnly) (second : ∀ a, (rest a).ReadOnly) : (thread >>= rest).ReadOnly := by
  rw [bind_eq]
  induction thread with
  | done result =>
    cases result with
    | ok a => exact second a
    | error e => trivial
  | call premise write next ih =>
    intro answer s
    exact ⟨(first answer s).1, ih answer s (first answer s).2⟩

theorem of_yields (reads : thread.ReadOnly) {s t : σ} {a : α} (ends : thread.Yields s a t) : t = s := by
  obtain ⟨world, i, j, isEnd⟩ := ends
  induction thread generalizing i with
  | done result =>
    cases isEnd
    rfl
  | call premise write next ih =>
    have step : (next (.ofExcept (world i)) s).toProc world (i + 1) (write (.ofExcept (world i)) s) = _ := isEnd
    rw [(reads _ s).1] at step
    exact ih _ s (reads _ s).2 _ step

theorem attempt (reads : thread.ReadOnly) : thread.attempt.ReadOnly := by
  induction thread with
  | done result => trivial
  | call premise write next ih =>
    intro answer s
    exact ⟨(reads answer s).1, ih answer s (reads answer s).2⟩

theorem statement {f : ω → σ → Except ε (α × σ)}
    (same : ∀ {observed s a t}, f observed s = .ok (a, t) → t = s) : (statement f).ReadOnly := by
  intro answer s
  refine ⟨?_, trivial⟩
  unfold Answer.effect
  split
  · rfl
  · split
    next ends => exact same ends
    · rfl

theorem embed {view : View σ ε τ ε'} (same : ∀ t, view.replace (view.part t) t = t) (reads : thread.ReadOnly) :
    (thread.embed view).ReadOnly := by
  induction thread with
  | done result => trivial
  | call premise write next ih =>
    intro answer t
    obtain ⟨unchanged, rest⟩ := reads (answer.mapError view.fault) (view.part t)
    refine ⟨?_, ih _ _ rest⟩
    dsimp only
    rw [unchanged]
    exact same t

variable (reads : thread.ReadOnly)
include reads

/-- What the others do not disturb stays true while a thread only reads. -/
theorem keeps {P : σ → Prop} (kept : ∀ s, contract.invariant s → contract.guarantee s s)
    (stable : ∀ {s t}, P s → contract.rely s t → P t) {s : σ} (start : P s) :
    thread.Meets contract (fun _ => P) (fun _ => P) s := by
  induction thread generalizing s with
  | done result => cases result <;> exact start
  | call premise write next ih =>
    intro t relied holds _ answer _
    rw [(reads answer t).1]
    exact ⟨kept t holds, ih answer t (reads answer t).2 (stable start relied)⟩

theorem meets {post : α → σ → Prop} (kept : ∀ s, contract.guarantee s s) (onOk : ∀ a s, post a s)
    (onError : ∀ e s, failure e s) (s : σ) : thread.Meets contract post failure s :=
  (reads.keeps (P := fun _ => True) (fun s _ => kept s) (fun _ _ => trivial) trivial).mono
    (fun a s _ => onOk a s) fun e s _ => onError e s

theorem andThen_meets {post : β → σ → Prop} (kept : ∀ s, contract.guarantee s s) (onError : ∀ e s, failure e s)
    (next : ∀ a s, (rest a).Meets contract post failure s) (s : σ) :
    (thread >>= rest).Meets contract post failure s := by
  rw [meets_bind]
  exact reads.meets kept next onError s

end ReadOnly

/-! ## What the calls write -/

/-- Every call keeps a relation, whatever comes in between; under `assumes` it counts on its premise. -/
def Writes (R : σ → σ → Prop) (assumes : Prop := True) : Thread ω ε σ α → Prop
  | done _ => True
  | call premise write next => ∀ s, (assumes → premise s) → ∀ answer,
      R s (write answer s) ∧ (next answer s).Writes R assumes

namespace Writes

variable {R : σ → σ → Prop} {assumes : Prop}

theorem pure (a : α) : (pure a : Thread ω ε σ α).Writes R assumes := trivial

theorem fail (e : ε) : (fail e : Thread ω ε σ α).Writes R assumes := trivial

theorem bind (first : thread.Writes R assumes) (next : ∀ a, (rest a).Writes R assumes) :
    (thread >>= rest).Writes R assumes := by
  induction thread with
  | done result =>
    cases result with
    | ok a => exact next a
    | error e => trivial
  | call premise write rest' ih =>
    intro s holds answer
    obtain ⟨kept, later⟩ := first s holds answer
    exact ⟨kept, ih answer s later⟩

theorem attempt (writes : thread.Writes R assumes) : thread.attempt.Writes R assumes := by
  induction thread with
  | done result => trivial
  | call premise write next ih =>
    intro s holds answer
    obtain ⟨kept, later⟩ := writes s holds answer
    exact ⟨kept, ih answer s later⟩

theorem statement {f : ω → σ → Except ε (α × σ)} {premise : σ → Prop} (kept : ∀ s, R s s)
    (write : ∀ {observed s a t}, (assumes → premise s) → f observed s = .ok (a, t) → R s t) :
    (assuming premise (statement f)).Writes R assumes := by
  intro s holds answer
  constructor
  · unfold Answer.effect
    split
    · exact kept s
    next observed _ =>
      cases ends : f observed s with
      | ok pair => exact write holds ends
      | error e => exact kept s
  · cases answer.result f s <;> trivial

theorem query (kept : ∀ s, R s s) (f : σ → α) : (query f : Thread ω ε σ α).Writes R assumes := by
  change (assuming (fun _ => True) (Thread.query f)).Writes R assumes
  refine statement kept ?_
  rintro observed s a t - ⟨⟩
  exact kept s

theorem readOnly (kept : ∀ s, R s s) (reads : thread.ReadOnly) : thread.Writes R assumes := by
  induction thread with
  | done result => trivial
  | call premise write next ih =>
    intro s _ answer
    obtain ⟨same, later⟩ := reads answer s
    rw [same]
    exact ⟨kept s, ih answer s later⟩

theorem forM (each : ∀ item, (body item).Writes R assumes) (items : List β) :
    (ForM.forM items body).Writes R assumes := by
  induction items with
  | nil => exact pure _
  | cons item rest ih =>
    rw [List.forM_cons]
    exact bind (each item) fun _ => ih

/-- A write of a part is a write of the whole. -/
theorem embed {view : View σ ε τ ε'} {R' : τ → τ → Prop} (writes : thread.Writes R assumes)
    (whole : ∀ {t s}, R (view.part t) s → R' t (view.replace s t)) : (thread.embed view).Writes R' assumes := by
  induction thread with
  | done result => trivial
  | call premise write next ih =>
    intro t holds answer
    obtain ⟨kept, later⟩ := writes (view.part t) holds (answer.mapError view.fault)
    exact ⟨whole kept, ih _ _ later⟩

theorem any (thread : Thread ω ε σ α) : thread.Writes (fun _ _ => True) assumes := by
  induction thread with
  | done result => trivial
  | call premise write next ih => exact fun s _ answer => ⟨trivial, ih answer s⟩

/-- A thread keeps every contract that its writes keep. -/
theorem meets {contract : Contract ω ε σ} (writes : thread.Writes R contract.assumes)
    (kept : ∀ {s t}, contract.invariant s → R s t → contract.guarantee s t) (s : σ) :
    thread.Respects contract s := by
  induction thread generalizing s with
  | done result => cases result <;> trivial
  | call premise write next ih =>
    intro t _ holds premised answer _
    obtain ⟨isKept, later⟩ := writes t premised answer
    exact ⟨kept holds isKept, ih answer t later _⟩

theorem embed_meets {view : View σ ε τ ε'} {whole : Contract ω ε' τ} (writes : thread.Writes R whole.assumes)
    (kept : ∀ {t s}, whole.invariant t → R (view.part t) s → whole.guarantee t (view.replace s t)) (t : τ) :
    (thread.embed view).Respects whole t := by
  have written : (thread.embed view).Writes (fun t u => whole.invariant t → whole.guarantee t u) whole.assumes :=
    writes.embed fun written holds => kept holds written
  exact written.meets (fun holds written => written holds) t

end Writes

/-! ## A thread that runs alone and its contract -/

/-- What every call of a thread keeps without its premise, the thread keeps when it runs alone. -/
theorem Meets.alone {contract : Contract ω ε σ} {I : σ → Prop} {post : α → σ → Prop} {world : World ε ω}
    (free : ¬ contract.assumes) (refl : ∀ s, contract.rely s s)
    (legal : ∀ s i, contract.legal s (.ofExcept (world i))) (holds : ∀ {s}, I s → contract.invariant s)
    (keeps : ∀ {s t}, I s → contract.guarantee s t → I t) {s : σ} (start : I s)
    (meets : thread.Meets contract post failure s) (i : Nat) : I (thread.toProc world i s).state := by
  induction thread generalizing s i with
  | done result => exact start
  | call premise write next ih =>
    obtain ⟨kept, rest⟩ := meets s (refl s) (holds start) (absurd · free) _ (legal s i)
    exact ih _ s (keeps start kept) rest (i + 1)

/-- Keep an invariant with every call, with nothing in between; the world answers as it answers a process. -/
def Contract.alone (world : World ε ω) (I : σ → Prop) : Contract ω ε σ where
  legal _ answer := ∃ i, answer = .ofExcept (world i)
  invariant := I
  rely s t := s = t
  guarantee _ t := I t
  assumes := False

section Alone

variable {world : World ε ω} {I : σ → Prop} {post : α → σ → Prop} {s : σ}

theorem Meets.alone_statement
    (onOk : ∀ {i observed a t}, I s → world i = .ok observed → f observed s = .ok (a, t) → I t ∧ post a t)
    (onError : ∀ {e}, I s → failure e s) :
    (Thread.statement f).Meets (Contract.alone world I) post failure s := by
  change (assuming (fun _ => True) (Thread.statement f)).Meets (Contract.alone world I) post failure s
  refine Meets.statement ?_ ?_ ?_
  · rintro t observed a u rfl holds - ⟨i, isAnswer⟩ ends
    refine onOk (i := i) holds ?_ ends
    cases answered : world i <;> rw [answered] at isAnswer <;> cases isAnswer
    rfl
  · rintro t observed e a u - - - ⟨i, isAnswer⟩ -
    cases answered : world i <;> rw [answered] at isAnswer <;> cases isAnswer
  · rintro t e rfl holds
    exact ⟨holds, onError holds⟩

theorem Meets.alone_query {f : σ → α} (onOk : I s → post (f s) s) (onError : ∀ {e}, I s → failure e s) :
    (Thread.query f).Meets (Contract.alone world I) post failure s := by
  refine Meets.alone_statement ?_ onError
  rintro i observed a t holds - ⟨⟩
  exact ⟨holds, onOk holds⟩

theorem Meets.keeps_alone (start : I s) (meets : thread.Meets (Contract.alone world I) post failure s) (i : Nat) :
    I (thread.toProc world i s).state := by
  refine meets.alone id (fun _ => rfl) ?_ id (fun _ kept => kept) start i
  intro _ i
  exact ⟨i, rfl⟩

end Alone

end Thread

end EthPayServer.Lib
