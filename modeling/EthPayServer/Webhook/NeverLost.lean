import EthPayServer.Webhook.Queue

/-!
# No job is lost

A job is on the ready set or under a claim that still stands for it, until it
is delivered or given up.  A claim stops standing for its job when the job is
put back on the ready set, and is removed only after that or after the job is
done with.  Both facts, once true, stay true, so a worker may act on them however
late it comes.
-/

namespace EthPayServer.Webhook

open Lib Data
open Evm (Time Uuid)

/-! ## What holds between two commands -/

/-- A delivery of the job was answered with success, or its attempts are used up. -/
def Queue.Discharged (queue : Queue) (id : Uuid) : Prop :=
  ∃ delivery ∈ queue.deliveries, delivery.1.id = id ∧ (delivery.2 = true ∨ delivery.1.isExhausted = true)

def Names (serde : JobSerde) (json : Text) (id : Uuid) : Prop :=
  ∃ job, serde.fromStr json = some job ∧ job.id = id

inductive Stands (serde : JobSerde) (queue : Queue) (id : Uuid) : Prop where
  | ready {json : Text} (mem : json ∈ queue.ready.members) (names : Names serde json id)
  | claimed {claim : Claim} (known : claim ∈ queue.claims) (mem : claim.member ∈ queue.processing.members)
      (live : claim.member ∉ queue.requeued) (names : Names serde claim.json id)

structure Accounted (serde : JobSerde) (queue : Queue) : Prop where
  queued : ∀ id ∈ queue.queued, queue.Discharged id ∨ Stands serde queue id
  separated : ∀ claim ∈ queue.claims, ':' ∉ claim.claimId
  distinct : ∀ claim ∈ queue.claims, ∀ other ∈ queue.claims, claim.claimId = other.claimId → claim = other
  oneEach : ∀ claim ∈ queue.claims, ∀ other ∈ queue.claims, claim.worker = other.worker → claim = other
  claimed : ∀ member ∈ queue.processing.members, ∃ claim ∈ queue.claims, claim.member = member
  requeued : ∀ member ∈ queue.requeued, ∃ claim ∈ queue.claims, claim.member = member

structure Grows (before after : Queue) : Prop where
  queued : before.queued ⊆ after.queued
  deliveries : before.deliveries ⊆ after.deliveries
  claims : before.claims ⊆ after.claims
  requeued : before.requeued ⊆ after.requeued
  lapsed : before.lapsed ⊆ after.lapsed

def Idle (worker : Nat) (queue : Queue) : Prop := ∀ claim ∈ queue.claims, claim.worker ≠ worker

def MayRemove (worker : Nat) (queue : Queue) (member : Text) : Prop :=
  (∃ claim ∈ queue.claims, claim.member = member ∧ claim.worker = worker) ∨
    (member ∈ queue.lapsed ∧ Idle worker queue)

structure Acts (serde : JobSerde) (worker : Nat) (before after : Queue) : Prop where
  kept : Accounted serde after
  grows : Grows before after
  own : ∀ claim ∈ after.claims, claim ∈ before.claims ∨ claim.worker = worker
  removes : ∀ member ∈ before.processing.members, member ∉ after.processing.members →
    MayRemove worker before member

/-- What a worker can count on between two of its commands. -/
structure Relies (worker : Nat) (before after : Queue) : Prop where
  grows : Grows before after
  own : ∀ claim ∈ after.claims, claim.worker = worker → claim ∈ before.claims

theorem Grows.refl (queue : Queue) : Grows queue queue :=
  ⟨List.Subset.refl _, List.Subset.refl _, List.Subset.refl _, List.Subset.refl _, List.Subset.refl _⟩

theorem Grows.trans {first second third : Queue} (early : Grows first second) (late : Grows second third) :
    Grows first third where
  queued := List.Subset.trans early.queued late.queued
  deliveries := List.Subset.trans early.deliveries late.deliveries
  claims := List.Subset.trans early.claims late.claims
  requeued := List.Subset.trans early.requeued late.requeued
  lapsed := List.Subset.trans early.lapsed late.lapsed

variable {before after : Queue} {id : Uuid}

theorem Queue.Discharged.grow (discharged : before.Discharged id) (grows : Grows before after) :
    after.Discharged id := by
  obtain ⟨delivery, mem, same, done⟩ := discharged
  exact ⟨delivery, grows.deliveries mem, same, done⟩

theorem Idle.relies {worker : Nat} (idle : Idle worker before) (relied : Relies worker before after) :
    Idle worker after :=
  fun claim mem same => idle claim (relied.own claim mem same) same

variable {serde : JobSerde} {queue : Queue}

theorem Accounted.split (kept : Accounted serde queue) {claim : Claim} (known : claim ∈ queue.claims) :
    splitOnce ':' claim.member = some (claim.claimId, claim.json) :=
  splitOnce_append (kept.separated claim known) claim.json

theorem Accounted.member_inj (kept : Accounted serde queue) {claim other : Claim}
    (known : claim ∈ queue.claims) (knownOther : other ∈ queue.claims)
    (same : claim.member = other.member) : claim = other := by
  have split := kept.split known
  rw [same, kept.split knownOther] at split
  exact kept.distinct claim known other knownOther (congrArg Prod.fst (Option.some.inj split)).symm

/-! ## The commands -/

/-- A job that is ready stays so, and a job under a claim stays under it, when neither is taken away. -/
theorem Stands.mono (stands : Stands serde queue id)
    (ready : ∀ json ∈ queue.ready.members, json ∈ after.ready.members) (claims : queue.claims ⊆ after.claims)
    (processing : ∀ claim ∈ queue.claims, claim.member ∈ queue.processing.members →
      claim.member ∉ queue.requeued → Names serde claim.json id →
      claim.member ∈ after.processing.members ∧ claim.member ∉ after.requeued) : Stands serde after id := by
  cases stands with
  | ready mem names => exact .ready (ready _ mem) names
  | claimed known mem live names =>
    obtain ⟨memAfter, liveAfter⟩ := processing _ known mem live names
    exact .claimed (claims known) memAfter liveAfter names

variable {json member : Text}

theorem Accounted.enqueued (kept : Accounted serde queue) (score : ℚ) (names : Names serde json id) :
    Accounted serde { queue with ready := queue.ready.zadd json score, queued := id :: queue.queued } where
  queued other mem := by
    rcases List.mem_cons.mp mem with rfl | old
    · exact .inr (.ready (SortedSet.mem_zadd.mpr (.inr rfl)) names)
    · refine (kept.queued other old).imp (fun discharged => discharged) fun stands => ?_
      refine stands.mono (fun _ memReady => SortedSet.mem_zadd.mpr (.inl memReady)) (List.Subset.refl _) ?_
      exact fun _ _ memProcessing live _ => ⟨memProcessing, live⟩
  __ := kept

/-- Once the job is back on the ready set its claim stands for nothing. -/
theorem Accounted.requeue (kept : Accounted serde queue) {claim : Claim} (score : ℚ)
    (known : claim ∈ queue.claims) (same : ∀ id, Names serde claim.json id → Names serde json id) :
    Accounted serde (queue.requeue claim.member json score) where
  queued id mem := by
    refine (kept.queued id mem).imp (fun discharged => discharged) fun stands => ?_
    by_cases names : Names serde claim.json id
    · exact .ready (SortedSet.mem_zadd.mpr (.inr rfl)) (same id names)
    refine stands.mono (fun _ memReady => SortedSet.mem_zadd.mpr (.inl memReady)) (List.Subset.refl _) ?_
    intro other knownOther memProcessing live namesOther
    refine ⟨memProcessing, fun memRequeued => ?_⟩
    rcases List.mem_cons.mp memRequeued with isSame | old
    · rw [kept.member_inj knownOther known isSame] at namesOther
      exact names namesOther
    · exact live old
  __ := kept
  requeued member mem := by
    rcases List.mem_cons.mp mem with rfl | old
    · exact ⟨claim, known, rfl⟩
    · exact kept.requeued member old

/-- When a claim may be removed: its job is back on the ready set, or done with. -/
def Removable (serde : JobSerde) (claim : Claim) (queue : Queue) : Prop :=
  claim.member ∈ queue.requeued ∨ ∀ id, Names serde claim.json id → queue.Discharged id

theorem Removable.grow {claim : Claim} (removable : Removable serde claim before) (grows : Grows before after) :
    Removable serde claim after :=
  removable.imp (fun mem => grows.requeued mem) fun discharged id names => (discharged id names).grow grows

theorem Accounted.cleared (kept : Accounted serde queue) {claim : Claim} (known : claim ∈ queue.claims)
    (removable : Removable serde claim queue) :
    Accounted serde { queue with processing := queue.processing.zrem claim.member } where
  queued id mem := by
    rcases kept.queued id mem with discharged | stands
    · exact .inl discharged
    by_cases discharged : queue.Discharged id
    · exact .inl discharged
    refine .inr (stands.mono (fun _ memReady => memReady) (List.Subset.refl _) ?_)
    intro other knownOther memProcessing live names
    refine ⟨SortedSet.mem_zrem.mpr ⟨memProcessing, fun isSame => ?_⟩, live⟩
    -- the claim that goes would be the one the job is under
    rcases removable with memRequeued | done
    · rw [isSame] at live
      exact live memRequeued
    · rw [kept.member_inj knownOther known isSame] at names
      exact discharged (done id names)
  __ := kept
  claimed member mem := kept.claimed member (SortedSet.mem_zrem.mp mem).1

/-- The claimed job goes from the ready set to the processing set in one step. -/
theorem Accounted.claim (kept : Accounted serde queue) {claim : Claim} (deadline : ℚ)
    (separated : ':' ∉ claim.claimId) (fresh : ∀ other ∈ queue.claims, other.claimId ≠ claim.claimId)
    (idle : Idle claim.worker queue) :
    Accounted serde { queue with
      ready := queue.ready.zrem claim.json
      processing := queue.processing.zadd claim.member deadline
      claims := claim :: queue.claims } where
  queued id mem := by
    refine (kept.queued id mem).imp (fun discharged => discharged) fun stands => ?_
    cases stands with
    | claimed known memProcessing live names =>
      exact .claimed (List.mem_cons_of_mem _ known) (SortedSet.mem_zadd.mpr (.inl memProcessing)) live names
    | @ready json memReady names =>
      by_cases isClaimed : json = claim.json
      · refine .claimed (List.mem_cons_self ..) (SortedSet.mem_zadd.mpr (.inr rfl)) ?_ (isClaimed ▸ names)
        -- its member is new, so it was not requeued before
        intro memRequeued
        obtain ⟨other, known, isSame⟩ := kept.requeued _ memRequeued
        have split := kept.split known
        rw [isSame, Claim.member, splitOnce_append separated] at split
        exact fresh other known (congrArg Prod.fst (Option.some.inj split)).symm
      · exact .ready (SortedSet.mem_zrem.mpr ⟨memReady, isClaimed⟩) names
  separated other mem := by
    rcases List.mem_cons.mp mem with rfl | old
    · exact separated
    · exact kept.separated other old
  distinct first memFirst second memSecond same := by
    rcases List.mem_cons.mp memFirst with rfl | oldFirst <;> rcases List.mem_cons.mp memSecond with rfl | oldSecond
    · rfl
    · exact absurd same.symm (fresh second oldSecond)
    · exact absurd same (fresh first oldFirst)
    · exact kept.distinct first oldFirst second oldSecond same
  oneEach first memFirst second memSecond same := by
    rcases List.mem_cons.mp memFirst with rfl | oldFirst <;> rcases List.mem_cons.mp memSecond with rfl | oldSecond
    · rfl
    · exact absurd same.symm (idle second oldSecond)
    · exact absurd same (idle first oldFirst)
    · exact kept.oneEach first oldFirst second oldSecond same
  claimed member mem := by
    rcases SortedSet.mem_zadd.mp mem with old | rfl
    · obtain ⟨other, known, isMember⟩ := kept.claimed member old
      exact ⟨other, List.mem_cons_of_mem _ known, isMember⟩
    · exact ⟨claim, List.mem_cons_self .., rfl⟩
  requeued member mem := by
    obtain ⟨other, known, isMember⟩ := kept.requeued member mem
    exact ⟨other, List.mem_cons_of_mem _ known, isMember⟩

/-- An attempt or a look at the deadlines only adds to the record. -/
theorem Accounted.noted (kept : Accounted serde queue) (deliveries : List (WebhookJob × Bool))
    (lapsed : List Text) (grows : queue.deliveries ⊆ deliveries) :
    Accounted serde { queue with deliveries := deliveries, lapsed := lapsed } where
  queued id mem := by
    refine (kept.queued id mem).imp ?_ fun stands =>
      stands.mono (fun _ mem => mem) (List.Subset.refl _) fun _ _ memProcessing live _ => ⟨memProcessing, live⟩
    rintro ⟨delivery, memDelivery, done⟩
    exact ⟨delivery, grows memDelivery, done⟩
  __ := kept

/-! ## The threads -/

abbrev workerContract (serde : JobSerde) (worker : Nat) : Thread.Contract Observed WebhookError Queue where
  legal := DrawsFresh
  invariant := Accounted serde
  rely := Relies worker
  guarantee := Acts serde worker
  assumes := False

variable {worker : Nat}

/-- A command that makes no claim and removes none. -/
theorem Acts.adds (kept : Accounted serde after) (grows : Grows before after)
    (claims : after.claims = before.claims) (processing : after.processing = before.processing) :
    Acts serde worker before after where
  kept := kept
  grows := grows
  own _ mem := .inl (claims ▸ mem)
  removes _ mem gone := absurd (processing ▸ mem) gone

theorem Acts.refl (kept : Accounted serde queue) : Acts serde worker queue queue :=
  .adds kept (.refl queue) rfl rfl

theorem Grows.requeue (queue : Queue) (member json : Text) (score : ℚ) :
    Grows queue (queue.requeue member json score) :=
  { Grows.refl queue with requeued := List.subset_cons_self _ _ }

variable {failure : WebhookError → Queue → Prop}

theorem clearProcessing_meets {claim : Claim} {Q : Queue → Prop} (known : claim ∈ queue.claims)
    (removable : Removable serde claim queue)
    (may : ∀ {later}, Relies worker queue later → MayRemove worker later claim.member)
    (holds : ∀ {later}, Relies worker queue later → Q later)
    (framed : ∀ {later}, Q later → Q { later with processing := later.processing.zrem claim.member }) :
    Thread.Meets (workerContract serde worker) (fun _ => Q) failure (clearProcessing claim.member) queue := by
  unfold clearProcessing
  rw [Thread.meets_bind, Thread.meets_attempt]
  refine .whatever Q ?_ (fun relied kept => ⟨.refl kept, holds relied⟩) (fun q => q) (fun q => q)
  rintro later seen _ _ relied kept - - ⟨⟩
  refine ⟨⟨kept.cleared (relied.grows.claims known) (removable.grow relied.grows),
    { Grows.refl later with }, fun _ mem => .inl mem, ?_⟩, framed (holds relied)⟩
  intro member mem gone
  have isClaim : member = claim.member := by
    by_contra apart
    exact gone (SortedSet.mem_zrem.mpr ⟨mem, apart⟩)
  rw [isClaim]
  exact may relied

/-! ### Reclaiming -/

/-- What a worker knows of the lapsed claims it still has to put back. -/
structure Reclaiming (worker : Nat) (members : List Text) (queue : Queue) : Prop where
  idle : Idle worker queue
  lapsed : ∀ member ∈ members, member ∈ queue.lapsed
  known : ∀ member ∈ members, ∃ claim ∈ queue.claims, ':' ∉ claim.claimId ∧ claim.member = member

theorem Reclaiming.relies {members : List Text} (reclaiming : Reclaiming worker members before)
    (relied : Relies worker before after) :
    Reclaiming worker members after where
  idle := reclaiming.idle.relies relied
  lapsed member mem := relied.grows.lapsed (reclaiming.lapsed member mem)
  known member mem := by
    obtain ⟨claim, known, isMember⟩ := reclaiming.known member mem
    exact ⟨claim, relied.grows.claims known, isMember⟩

theorem Reclaiming.tail {rest : List Text} (reclaiming : Reclaiming worker (member :: rest) queue) :
    Reclaiming worker rest queue where
  idle := reclaiming.idle
  lapsed other mem := reclaiming.lapsed other (List.mem_cons_of_mem _ mem)
  known other mem := reclaiming.known other (List.mem_cons_of_mem _ mem)

theorem reclaimOneExpiredJob_meets {rest : List Text} (now : ℚ)
    (reclaiming : Reclaiming worker (member :: rest) queue) :
    Thread.Meets (workerContract serde worker) (fun _ => Reclaiming worker rest) failure
      (reclaimOneExpiredJob member now) queue := by
  obtain ⟨claim, known, separated, rfl⟩ := reclaiming.known member (List.mem_cons_self ..)
  unfold reclaimOneExpiredJob
  rw [Claim.member, splitOnce_append separated, ← Claim.member]
  rw [Thread.meets_bind, Thread.meets_attempt]
  refine .statement ?_ ?_ ?_
  · rintro later seen _ _ relied kept - - ⟨⟩
    have known := relied.grows.claims known
    refine ⟨.adds (kept.requeue now known fun _ names => names) (.requeue ..) rfl rfl, ?_⟩
    have still : Reclaiming worker (claim.member :: rest) (later.requeue claim.member claim.json now) :=
      { reclaiming.relies relied with }
    refine clearProcessing_meets known (.inl (List.mem_cons_self ..)) ?_ ?_ fun holds => { holds with }
    · intro last relied
      have now := still.relies relied
      exact .inr ⟨now.lapsed _ (List.mem_cons_self ..), now.idle⟩
    · intro last relied
      exact (still.relies relied).tail
  · rintro later seen _ _ _ relied kept - - ⟨⟩
    refine ⟨.adds (kept.requeue now (relied.grows.claims known) fun _ names => names) (.requeue ..) rfl rfl, ?_⟩
    exact { (reclaiming.relies relied).tail with }
  · intro later _ relied kept
    exact ⟨.refl kept, (reclaiming.relies relied).tail⟩

theorem reclaimExpiredJobs_meets (idle : Idle worker queue) :
    Thread.Meets (workerContract serde worker) (fun _ => Idle worker) failure reclaimExpiredJobs queue := by
  unfold reclaimExpiredJobs
  rw [Thread.meets_bind, Thread.meets_attempt]
  refine .statement ?_ ?_ ?_
  · rintro later seen _ _ relied kept - - ⟨⟩
    refine ⟨.adds (kept.noted _ _ (List.Subset.refl _))
      { Grows.refl later with lapsed := List.subset_append_right _ _ } rfl rfl, ?_⟩
    have stillIdle : Idle worker later := idle.relies relied
    have start : Reclaiming worker (later.processing.rangeByScore seen.now)
        { later with lapsed := later.processing.rangeByScore seen.now ++ later.lapsed } := by
      refine ⟨stillIdle, fun _ mem => List.mem_append_left _ mem, ?_⟩
      intro member mem
      obtain ⟨claim, known, isMember⟩ := kept.claimed member (SortedSet.mem_of_rangeByScore mem)
      exact ⟨claim, known, kept.separated claim known, isMember⟩
    refine Thread.Meets.mono (.forM (Reclaiming worker) ?_ start) (fun _ _ reclaimed => reclaimed.idle)
      fun _ _ failed => failed
    exact fun member rest queue reclaiming => reclaimOneExpiredJob_meets seen.now reclaiming
  · rintro later seen _ _ _ relied kept - - ⟨⟩
    have stillIdle : Idle worker later := idle.relies relied
    exact ⟨.adds (kept.noted _ _ (List.Subset.refl _))
      { Grows.refl later with lapsed := List.subset_append_right _ _ } rfl rfl, stillIdle⟩
  · intro later _ relied kept
    exact ⟨.refl kept, idle.relies relied⟩

/-! ### Delivering -/

theorem clearOwn_meets {claim : Claim} (known : claim ∈ queue.claims) (mine : claim.worker = worker)
    (removable : Removable serde claim queue) :
    Thread.Respects (workerContract serde worker) (clearProcessing claim.member) queue := by
  refine clearProcessing_meets known removable ?_ (fun _ => trivial) fun _ => trivial
  exact fun relied => .inl ⟨claim, relied.grows.claims known, rfl, mine⟩

variable {job : WebhookJob}

theorem Acts.retried {claim : Claim} {now : Time} {result : Unit} (kept : Accounted serde queue)
    (known : claim ∈ queue.claims) (names : ∀ id, Names serde claim.json id → id = job.id)
    (done : queue.retry serde claim.member job now = .ok (result, after)) :
    Acts serde worker queue after ∧ claim ∈ after.claims ∧ Removable serde claim after := by
  obtain ⟨json, isJson, parses⟩ := Option.bind_eq_some_iff.mp
    (serde.roundTrip { job with scheduledAt := now + job.retryDelay })
  simp only [Queue.retry, isJson] at done
  cases done
  refine ⟨.adds (kept.requeue _ known fun id named => ?_) (.requeue ..) rfl rfl, known,
    .inl (List.mem_cons_self ..)⟩
  exact ⟨_, parses, (names id named).symm⟩

theorem scheduleRetry_meets {claim : Claim} (known : claim ∈ queue.claims)
    (names : ∀ id, Names serde claim.json id → id = job.id) :
    Thread.Meets (workerContract serde worker)
      (fun _ later => claim ∈ later.claims ∧ Removable serde claim later) (fun _ _ => True)
      (scheduleRetry serde claim.member job) queue := by
  change Thread.Meets _ _ _ (Thread.assuming (fun _ => True) (scheduleRetry serde claim.member job)) queue
  refine .statement ?_ ?_ ?_
  · intro later seen _ after relied kept _ _ done
    exact Acts.retried kept (relied.grows.claims known) names done
  · intro later seen _ _ after relied kept _ _ done
    exact ⟨(Acts.retried kept (relied.grows.claims known) names done).1, trivial⟩
  · intro later _ _ kept
    exact ⟨.refl kept, trivial⟩

theorem concludeAttempt_meets {claim : Claim} {result : Except WebhookError Unit} (known : claim ∈ queue.claims)
    (mine : claim.worker = worker) (names : ∀ id, Names serde claim.json id → id = job.id)
    (attempted : result.isOk = true ∨ job.isExhausted = true → queue.Discharged job.id) :
    Thread.Respects (workerContract serde worker) (concludeAttempt serde claim.member job result) queue := by
  have removable : queue.Discharged job.id → Removable serde claim queue :=
    fun discharged => .inr fun id named => names id named ▸ discharged
  cases result with
  | ok _ => exact clearOwn_meets known mine (removable (attempted (.inl rfl)))
  | error e =>
    simp only [concludeAttempt]
    split
    next exhausted => exact clearOwn_meets known mine (removable (attempted (.inr exhausted)))
    · rw [Thread.Respects]
      refine (scheduleRetry_meets known names).bind ?_
      rintro _ later ⟨stillKnown, requeued⟩
      exact clearOwn_meets stillKnown mine requeued

theorem processClaimed_meets {claim : Claim} (known : claim ∈ queue.claims) (mine : claim.worker = worker) :
    Thread.Respects (workerContract serde worker) (processClaimed serde claim.member claim.json) queue := by
  unfold Thread.Respects processClaimed
  cases parses : serde.fromStr claim.json with
  | none => trivial
  | some job =>
    simp only
    rw [Thread.meets_bind]
    intro later relied kept _ answer _
    refine ⟨.adds (kept.noted _ _ (List.subset_cons_self _ _))
      { Grows.refl later with deliveries := List.subset_cons_self _ _ } rfl rfl, ?_⟩
    change Thread.Meets _ _ _ (_ >>= _) _
    rw [Thread.meets_bind]
    refine Thread.Meets.mono (concludeAttempt_meets (relied.grows.claims known) mine ?_ ?_)
      (fun _ _ _ => trivial) fun _ _ _ => trivial
    · rintro id ⟨named, isNamed, rfl⟩
      rw [parses] at isNamed
      cases isNamed
      rfl
    intro concluded
    refine ⟨_, List.mem_cons_self .., rfl, concluded.imp (fun isOk => ?_) id⟩
    cases answer with
    | ok seen => exact isOk
    | failed e => cases isOk
    | lost seen e => cases isOk

theorem Acts.claimed {claim : Claim} {deadline : ℚ} {found : Option Text} (kept : Accounted serde queue)
    (separated : ':' ∉ claim.claimId) (fresh : ∀ other ∈ queue.claims, other.claimId ≠ claim.claimId)
    (idle : Idle claim.worker queue) (done : queue.claimScript claim deadline = (found, after)) :
    Acts serde claim.worker queue after ∧
      ∀ member, found = some member → claim ∈ after.claims ∧ member = claim.member := by
  unfold Queue.claimScript at done
  split at done
  · cases done
    refine ⟨⟨kept.claim deadline separated fresh idle,
      { Grows.refl queue with claims := List.subset_cons_self _ _ }, ?_, ?_⟩, ?_⟩
    · intro other mem
      rcases List.mem_cons.mp mem with rfl | old
      · exact .inr rfl
      · exact .inl old
    · intro member mem gone
      exact absurd (SortedSet.mem_zadd.mpr (.inl mem)) gone
    · rintro member ⟨⟩
      exact ⟨List.mem_cons_self .., rfl⟩
  · cases done
    refine ⟨.refl kept, fun member found => ?_⟩
    cases found

theorem claimJob_meets (deadline : ℚ) (idle : Idle worker queue) :
    Thread.Meets (workerContract serde worker)
      (fun found later => ∀ member, found = some member →
        ∃ claim ∈ later.claims, claim.worker = worker ∧ claim.json = json ∧ claim.member = member)
      (fun _ _ => True) (claimJob worker json deadline) queue := by
  change Thread.Meets _ _ _ (Thread.assuming (fun _ => True) (claimJob worker json deadline)) queue
  refine .statement ?_ ?_ ?_
  · intro later seen found after relied kept _ drawn done
    obtain ⟨separated, fresh⟩ := drawn seen rfl
    obtain ⟨acts, made⟩ := Acts.claimed kept separated fresh (idle.relies relied) (Except.ok.inj done)
    refine ⟨acts, fun member isFound => ?_⟩
    obtain ⟨mem, rfl⟩ := made member isFound
    exact ⟨_, mem, rfl, rfl, rfl⟩
  · intro later seen _ found after relied kept _ drawn done
    obtain ⟨separated, fresh⟩ := drawn seen rfl
    exact ⟨(Acts.claimed kept separated fresh (idle.relies relied) (Except.ok.inj done)).1, trivial⟩
  · intro later _ _ kept
    exact ⟨.refl kept, trivial⟩

theorem processNextJob_meets (visibilityTimeout : ℚ) (idle : Idle worker queue) :
    Thread.Respects (workerContract serde worker) (processNextJob serde visibilityTimeout worker) queue := by
  unfold Thread.Respects processNextJob
  refine (reclaimExpiredJobs_meets idle).bind fun _ queue idle => ?_
  rw [Thread.meets_bind]
  change Thread.Meets _ _ _ (Thread.assuming (fun _ => True) (Thread.statement _)) queue
  refine .statement ?_ ?_ fun _ _ _ kept => ⟨.refl kept, trivial⟩
  · rintro later seen ⟨now, next⟩ _ relied kept - - ⟨⟩
    have stillIdle : Idle worker later := idle.relies relied
    refine ⟨.refl kept, ?_⟩
    cases (later.ready.rangeByScore seen.now).head? with
    | none => trivial
    | some json =>
      simp only
      refine (claimJob_meets _ stillIdle).bind fun found queue made => ?_
      cases found with
      | none => trivial
      | some member =>
        obtain ⟨claim, known, mine, rfl, rfl⟩ := made member rfl
        exact processClaimed_meets known mine
  · rintro later seen _ _ _ _ kept - - ⟨⟩
    exact ⟨.refl kept, trivial⟩

theorem queueWebhook_meets (job : WebhookJob) :
    Thread.Respects (workerContract serde worker) (queueWebhook serde job) queue := by
  obtain ⟨json, isJson, parses⟩ := Option.bind_eq_some_iff.mp (serde.roundTrip job)
  simp only [queueWebhook, isJson]
  refine .whatever (fun _ => True) ?_ (fun _ kept => ⟨.refl kept, trivial⟩) (fun _ => trivial) fun _ => trivial
  rintro later seen _ _ _ kept - - ⟨⟩
  refine ⟨.adds (kept.enqueued _ ⟨job, parses, rfl⟩) ?_ rfl rfl, trivial⟩
  exact { Grows.refl later with queued := List.subset_cons_self _ _ }

/-! ## Every run -/

/-- The contracts of emitters and workers. -/
def webhookSpec (serde : JobSerde) (visibilityTimeout : ℚ) :
    Service.Spec (webhookDesk serde visibilityTimeout) where
  invariant := Accounted serde
  rely := Relies
  guarantee _ := Acts serde
  fresh := Idle
  post _ _ _ _ := True
  failure _ _ _ _ := True
  assumes := False

theorem webhook_sound (visibilityTimeout : ℚ) : (webhookSpec serde visibilityTimeout).Sound where
  initially := by
    rintro queue rfl
    refine ⟨⟨?_, ?_, ?_, ?_, ?_, ?_⟩, ?_⟩
    all_goals simp [Queue.empty, SortedSet.empty, SortedSet.members]
    intro _ _ mem
    cases mem
  refl _ queue := ⟨.refl queue, fun _ mem _ => mem⟩
  trans early late :=
    ⟨early.grows.trans late.grows, fun claim mem mine => early.own claim (late.own claim mem mine) mine⟩
  keeps _ acts := acts.kept
  compatible apart _ acts := by
    refine ⟨acts.grows, fun claim mem mine => ?_⟩
    rcases acts.own claim mem with old | others
    · exact old
    · exact absurd (others.symm.trans mine) apart
  freshKept earlier acts idle := by
    intro claim mem mine
    rcases acts.own claim mem with old | others
    · exact idle claim old mine
    · omega
  postStable _ _ := trivial
  failureStable _ _ := trivial
  meets := by
    intro request worker queue _ idle
    cases request with
    | queueWebhook job =>
      simp only [webhookDesk]
      exact (queueWebhook_meets job).bind fun _ _ _ => trivial
    | processNextJob => exact processNextJob_meets visibilityTimeout idle

def Queue.Holds (serde : JobSerde) (queue : Queue) (id : Uuid) : Prop :=
  (∃ json ∈ queue.ready.members, Names serde json id) ∨
    ∃ member ∈ queue.processing.members, ∃ claimId json,
      splitOnce ':' member = some (claimId, json) ∧ Names serde json id

/--
Every queued job is in the ready set or the processing set until a delivery of
it was answered with success or its attempts are used up.  A command removes
another worker's claim only while its own worker has made none, and only if that
claim was seen past its deadline; so a worker that comes late removes no claim
but its own.
-/
theorem jobs_never_lost {visibilityTimeout : ℚ}
    {pool : Pool WebhookRequest Observed WebhookError Queue Bool}
    (reached : (webhookDesk serde visibilityTimeout).system.Reachable pool) :
    (∀ id ∈ pool.shared.queued, pool.shared.Discharged id ∨ pool.shared.Holds serde id) ∧
      ∀ worker answer pool',
        (webhookDesk serde visibilityTimeout).system.step pool (.run worker answer) pool' →
          ∀ claim ∈ pool.shared.claims, claim.member ∈ pool.shared.processing.members →
            claim.member ∉ pool'.shared.processing.members →
              claim.worker = worker ∨ (Idle worker pool.shared ∧ claim.member ∈ pool.shared.lapsed) := by
  have sound : (webhookSpec serde visibilityTimeout).Sound := webhook_sound visibilityTimeout
  have holds := sound.always id reached
  have kept : Accounted serde pool.shared := holds.invariant
  constructor
  · intro id mem
    refine (kept.queued id mem).imp (fun discharged => discharged) fun stands => ?_
    cases stands with
    | ready memReady names => exact .inl ⟨_, memReady, names⟩
    | claimed known memProcessing live names =>
      exact .inr ⟨_, memProcessing, _, _, kept.split known, names⟩
  intro worker answer pool' step claim known mem gone
  rcases holds.guarantees sound step (absurd · id) with same | ⟨running, -, acts⟩
  · rw [same] at gone
    exact absurd mem gone
  · rcases acts.removes claim.member mem gone with ⟨other, knownOther, isSame, mine⟩ | ⟨lapsed, idle⟩
    · rw [kept.member_inj known knownOther isSame.symm]
      exact .inl mine
    · exact .inr ⟨idle, lapsed⟩

/-! ## A claim that is taken over -/

/-- Numbers as tallies, each ended by a comma. -/
def writeNat (n : Nat) : Text := List.replicate n '1' ++ [',']

def readNat (text : Text) : Option (Nat × Text) :=
  (splitOnce ',' text).map fun (tally, rest) => (tally.length, rest)

theorem readNat_writeNat (n : Nat) (rest : Text) : readNat (writeNat n ++ rest) = some (n, rest) := by
  have absent : ',' ∉ List.replicate n '1' := fun mem => absurd (List.eq_of_mem_replicate mem) (by decide)
  simp [readNat, writeNat, List.append_assoc, splitOnce_append absent]

/-- Texts as the numbers of their characters, after their length. -/
def writeText (text : Text) : Text := writeNat text.length ++ text.flatMap fun c => writeNat c.toNat

def readChars : Nat → Text → Option (Text × Text)
  | 0, rest => some ([], rest)
  | n + 1, rest => (readNat rest).bind fun (code, rest) =>
    (readChars n rest).map fun (chars, rest) => (Char.ofNat code :: chars, rest)

def readText (text : Text) : Option (Text × Text) :=
  (readNat text).bind fun (length, rest) => readChars length rest

theorem readChars_write (chars rest : Text) :
    readChars chars.length ((chars.flatMap fun c => writeNat c.toNat) ++ rest) = some (chars, rest) := by
  induction chars with
  | nil => rfl
  | cons c chars ih =>
    simp only [List.length_cons, List.flatMap_cons, List.append_assoc, readChars, readNat_writeNat,
      Option.bind_some, ih, Option.map_some, Char.ofNat_toNat]

theorem readText_writeText (text rest : Text) : readText (writeText text ++ rest) = some (text, rest) := by
  simp only [readText, writeText, List.append_assoc, readNat_writeNat, Option.bind_some, readChars_write]

def tallySerde : JobSerde where
  toString job := some (writeNat job.id ++ (writeNat job.storeWebhookId ++ (writeText job.webhookUrl ++
    (writeText job.webhookSecret ++ (writeText job.payload ++ (writeNat job.attempts.toNat ++
      (writeNat job.maxAttempts.toNat ++ (writeNat job.createdAt ++ writeNat job.scheduledAt))))))))
  fromStr text := do
    let (id, text) ← readNat text
    let (storeWebhookId, text) ← readNat text
    let (webhookUrl, text) ← readText text
    let (webhookSecret, text) ← readText text
    let (payload, text) ← readText text
    let (attempts, text) ← readNat text
    let (maxAttempts, text) ← readNat text
    let (createdAt, text) ← readNat text
    let (scheduledAt, _) ← readNat text
    pure ⟨id, storeWebhookId, webhookUrl, webhookSecret, payload, .ofNat attempts, .ofNat maxAttempts,
      createdAt, scheduledAt⟩
  roundTrip job := by
    have last := readNat_writeNat job.scheduledAt []
    rw [List.append_nil] at last
    simp [readNat_writeNat, readText_writeText, last]

def sampleJob : WebhookJob := ⟨1, 2, [], [], [], 0, 7, 0, 0⟩

def seenAt (now : Time) (claimId : Char) : Answer WebhookError Observed := .ok ⟨now, [claimId], .ok ()⟩

/-- One worker claims the job and stalls; another finds the claim lapsed and takes the job over. -/
def takenOver : Pool WebhookRequest Observed WebhookError Queue Bool :=
  (webhookDesk tallySerde 3).after .empty
    [.start (.queueWebhook sampleJob), .run 0 (seenAt 1 'a'), .start .processNextJob,
      .run 1 (seenAt 1 'a'), .run 1 (seenAt 1 'a'), .run 1 (seenAt 1 'a'), .start .processNextJob,
      .run 2 (seenAt 5 'b'), .run 2 (seenAt 5 'b'), .run 2 (seenAt 5 'b'), .run 2 (seenAt 5 'b'),
      .run 2 (seenAt 5 'b')]

theorem drawsFresh_seenAt {now : Time} {claimId : Char} (separated : claimId ≠ ':')
    (fresh : ∀ claim ∈ queue.claims, claim.claimId ≠ [claimId]) : DrawsFresh queue (seenAt now claimId) := by
  rintro seen ⟨⟩
  exact ⟨fun mem => separated (List.mem_singleton.mp mem).symm, fresh⟩

theorem takenOver_not_lost :
    takenOver.shared.claims.map Claim.claimId = [['b'], ['a']] ∧
      (takenOver.shared.Discharged 1 ∨ takenOver.shared.Holds tallySerde 1) := by
  have begins : (webhookDesk tallySerde 3).system.Reachable ⟨.empty, []⟩ := .of_initial ⟨rfl, rfl⟩
  have reached : (webhookDesk tallySerde 3).system.Reachable takenOver := by
    refine begins.run (System.Path.run ?_)
    refine ⟨⟨trivial, rfl⟩, ⟨drawsFresh_seenAt (by decide) ?_, rfl⟩, ⟨trivial, rfl⟩,
      ⟨drawsFresh_seenAt (by decide) ?_, rfl⟩, ⟨drawsFresh_seenAt (by decide) ?_, rfl⟩,
      ⟨drawsFresh_seenAt (by decide) ?_, rfl⟩, ⟨trivial, rfl⟩, ⟨drawsFresh_seenAt (by decide) ?_, rfl⟩,
      ⟨drawsFresh_seenAt (by decide) ?_, rfl⟩, ⟨drawsFresh_seenAt (by decide) ?_, rfl⟩,
      ⟨drawsFresh_seenAt (by decide) ?_, rfl⟩, ⟨drawsFresh_seenAt (by decide) ?_, rfl⟩, trivial⟩
    all_goals decide +kernel
  exact ⟨by decide +kernel, (jobs_never_lost reached).1 1 (by decide +kernel)⟩

end EthPayServer.Webhook
