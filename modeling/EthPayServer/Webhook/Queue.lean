import EthPayServer.Data.Schema
import EthPayServer.Lib.Interleaving
import EthPayServer.Lib.SortedSet
import Mathlib.Data.List.Lex
import Mathlib.Data.Char

/-!
# The webhook queue

Jobs wait in a ready set and are moved, one script at a time, into a processing
set while a worker delivers them.  A claim is stored under a name of its own, so
a worker that comes late finds its claim gone and not another's in its place.
-/

namespace EthPayServer.Webhook

open Lib Data
open Evm (Time Uuid)

/-! ## Jobs -/

structure WebhookJob where
  id : Uuid
  storeWebhookId : Uuid
  webhookUrl : Text
  webhookSecret : Text
  payload : Text
  attempts : UInt32
  maxAttempts : UInt32
  createdAt : Time
  scheduledAt : Time
deriving DecidableEq

def retryDelaysSecs : List Nat := [60, 300, 1800, 7200, 43200, 86400]

/-- Seconds until the next attempt. -/
def WebhookJob.retryDelay (job : WebhookJob) : Nat :=
  retryDelaysSecs.getD (min (job.attempts.toNat - 1) (retryDelaysSecs.length - 1)) 0

def WebhookJob.isExhausted (job : WebhookJob) : Bool := job.maxAttempts ≤ job.attempts

/-- How jobs are written to JSON and read back. -/
structure JobSerde where
  toString : WebhookJob → Option Text
  fromStr : Text → Option WebhookJob
  roundTrip : ∀ job, (toString job).bind fromStr = some job

inductive WebhookError where
  | redis (message : String)
  | http (message : String)
  | unreachable (message : String)
  | serialization (message : String)
  | database (message : String)

/-- `str::split_once`: what stands before and after the first separator. -/
def splitOnce (separator : Char) : Text → Option (Text × Text)
  | [] => none
  | c :: rest =>
    if c = separator then some ([], rest)
    else (splitOnce separator rest).map fun (before, after) => (c :: before, after)

theorem eq_of_splitOnce {separator : Char} {text before after : Text}
    (split : splitOnce separator text = some (before, after)) : text = before ++ separator :: after := by
  induction text generalizing before with
  | nil => cases split
  | cons c rest ih =>
    simp only [splitOnce] at split
    split at split
    next isSeparator =>
      cases split
      rw [isSeparator, List.nil_append]
    · obtain ⟨⟨inner, last⟩, isInner, isPair⟩ := Option.map_eq_some_iff.mp split
      cases isPair
      rw [ih isInner, List.cons_append]

theorem splitOnce_append {separator : Char} {before : Text} (absent : separator ∉ before) (after : Text) :
    splitOnce separator (before ++ separator :: after) = some (before, after) := by
  induction before with
  | nil => simp [splitOnce]
  | cons c rest ih =>
    obtain ⟨apart, absentRest⟩ := not_or.mp (mt List.mem_cons.mpr absent)
    simp [splitOnce, Ne.symm apart, ih absentRest]

/-! ## The two sets -/

/-- A claim: its own id, the claimed job, and the call of `process_next_job` that made it. -/
structure Claim where
  claimId : Text
  json : Text
  worker : Nat

/-- The member of the processing set that stands for a claim. -/
def Claim.member (claim : Claim) : Text := claim.claimId ++ ':' :: claim.json

/-- The two sets of the queue, and what has happened so far. -/
structure Queue where
  ready : SortedSet Text
  processing : SortedSet Text
  /-- jobs that were put on the ready set by `queue_webhook` -/
  queued : List Uuid
  /-- attempts, and whether the endpoint answered with success -/
  deliveries : List (WebhookJob × Bool)
  claims : List Claim
  /-- processing members whose job was put back on the ready set -/
  requeued : List Text
  /-- processing members that were seen past their deadline -/
  lapsed : List Text

def Queue.empty : Queue := ⟨.empty, .empty, [], [], [], [], []⟩

/-- What a call brings in: the clock, a drawn claim id, and the endpoint's reply. -/
structure Observed where
  now : Time
  claimId : Text
  reply : Except WebhookError Unit

abbrev WorkerT : Type → Type := Thread Observed WebhookError Queue

section Service

variable (serde : JobSerde)

def queueWebhook (job : WebhookJob) : WorkerT Unit :=
  match serde.toString job with
  | none => Thread.fail (.serialization "job")
  | some json => Thread.statement fun _ queue => .ok ((),
      { queue with ready := queue.ready.zadd json job.scheduledAt, queued := job.id :: queue.queued })

/-- Remove a claim; an error is logged. -/
def clearProcessing (member : Text) : WorkerT Unit := do
  let _ ← (Thread.statement fun _ queue =>
    .ok ((), { queue with processing := queue.processing.zrem member })).attempt
  pure ()

/-- Put a job on the ready set on account of a claim that is to be removed. -/
def Queue.requeue (queue : Queue) (member json : Text) (score : ℚ) : Queue :=
  { queue with ready := queue.ready.zadd json score, requeued := member :: queue.requeued }

def reclaimOneExpiredJob (member : Text) (now : ℚ) : WorkerT Unit :=
  match splitOnce ':' member with
  | none => pure ()
  | some (_, json) => do
    match ← (Thread.statement fun _ queue => .ok ((), queue.requeue member json now)).attempt with
    | .error _ => pure ()
    | .ok _ => clearProcessing member

def reclaimExpiredJobs : WorkerT Unit := do
  match ← (Thread.statement fun seen queue => .ok ((seen.now, queue.processing.rangeByScore seen.now),
      { queue with lapsed := queue.processing.rangeByScore seen.now ++ queue.lapsed })).attempt with
  | .error _ => pure ()
  | .ok (now, expired) => forM expired fun member => reclaimOneExpiredJob member now

/-- `CLAIM_JOB_SCRIPT`: moves the job if it is still ready. -/
def Queue.claimScript (queue : Queue) (claim : Claim) (deadline : ℚ) : Option Text × Queue :=
  if claim.json ∈ queue.ready.members then
    (some claim.member,
      { queue with
        ready := queue.ready.zrem claim.json
        processing := queue.processing.zadd claim.member deadline
        claims := claim :: queue.claims })
  else (none, queue)

/-- Run the script under a claim id drawn for it. -/
def claimJob (worker : Nat) (json : Text) (deadline : ℚ) : WorkerT (Option Text) :=
  Thread.statement fun seen queue => .ok (queue.claimScript ⟨seen.claimId, json, worker⟩ deadline)

/-- The endpoint answered the attempt with success, whether or not the answer came through. -/
def answeredWithSuccess (answer : Answer WebhookError Observed) : Bool :=
  match answer.observed? with
  | some seen => seen.reply.isOk
  | none => false

/-- What the worker sees of an attempt. -/
def outcome : Answer WebhookError Observed → Except WebhookError Unit
  | .ok seen => seen.reply
  | .failed e => .error e
  | .lost _ e => .error e

/-- One attempt to deliver; it leaves the sets alone. -/
def deliverWebhook (job : WebhookJob) : WorkerT (Except WebhookError Unit) :=
  .call (fun _ => True)
    (fun answer queue => { queue with deliveries := (job, answeredWithSuccess answer) :: queue.deliveries })
    fun answer _ => .done (.ok (outcome answer))

/-- Put the job back for another attempt, later. -/
def Queue.retry (queue : Queue) (member : Text) (job : WebhookJob) (now : Time) :
    Except WebhookError (Unit × Queue) :=
  let next := { job with scheduledAt := now + job.retryDelay }
  match serde.toString next with
  | none => .error (.serialization "job")
  | some json => .ok ((), queue.requeue member json next.scheduledAt)

def scheduleRetry (member : Text) (job : WebhookJob) : WorkerT Unit :=
  Thread.statement fun seen queue => queue.retry serde member job seen.now

def concludeAttempt (member : Text) (job : WebhookJob) (result : Except WebhookError Unit) : WorkerT Unit :=
  match result with
  | .ok _ => clearProcessing member
  | .error _ =>
    if job.isExhausted then clearProcessing member
    else do
      scheduleRetry serde member job
      clearProcessing member

def processClaimed (member json : Text) : WorkerT Bool :=
  match serde.fromStr json with
  | none => Thread.fail (.serialization "job")
  | some job => do
    let job := { job with attempts := job.attempts + 1 }
    let result ← deliverWebhook job
    concludeAttempt serde member job result
    pure true

/-- One round of a worker; `true` if a job was processed. -/
def processNextJob (visibilityTimeout : ℚ) (worker : Nat) : WorkerT Bool := do
  reclaimExpiredJobs
  let (now, next) ← Thread.statement fun seen queue =>
    .ok (((seen.now : ℚ), (queue.ready.rangeByScore seen.now).head?), queue)
  match next with
  | none => pure false
  | some json => do
    match ← claimJob worker json (now + visibilityTimeout) with
    | none => pure false
    | some member => processClaimed serde member json

inductive WebhookRequest where
  | queueWebhook (job : WebhookJob)
  | processNextJob

/-- Claim ids are hyphenated hex and none is drawn twice. -/
def DrawsFresh (queue : Queue) (answer : Answer WebhookError Observed) : Prop :=
  ∀ seen, answer.observed? = some seen →
    ':' ∉ seen.claimId ∧ ∀ claim ∈ queue.claims, claim.claimId ≠ seen.claimId

/-- Any number of emitters and workers. -/
def webhookDesk (visibilityTimeout : ℚ) : Service WebhookRequest Observed WebhookError Queue Bool where
  initial queue := queue = Queue.empty
  legal := DrawsFresh
  body request worker :=
    match request with
    | .queueWebhook job => do
      queueWebhook serde job
      pure true
    | .processNextJob => processNextJob serde visibilityTimeout worker

end Service

end EthPayServer.Webhook
