import EthPayServer.Data.Schema
import EthPayServer.Lib.Proc

/-!
# Where the event consumer resumes

`chain_cursors` holds one row per chain: the epoch of the outbox, the position
of the last event applied for the chain and its height.  `run` loads the rows,
compares their epochs with the outbox's, and resumes after the highest position
of any row.  A row of another epoch stops the start, or, when the operator
accepts the break, is dropped once the chain's watches are armed again.
-/

namespace EthPayServer.Outbox

open Lib Data

structure ChainCursor where
  epoch : Int
  seq : Int
  blockHeight : Int
deriving DecidableEq, Repr

/-- A position in the outbox. -/
structure EventCursor where
  epoch : Int
  seq : Int
  blockHeight : Int
deriving DecidableEq, Repr

/-- The rows of `chain_cursors` of this adapter, by chain. -/
abbrev Cursors : Type := HashMap Nat ChainCursor

structure Deletion where
  chainId : Nat
  cursor : Option ChainCursor
  watched : List WatchedAddressRow

/-- The tables a start reads and writes, and the deletions so far. -/
structure CursorDb where
  cursors : Cursors
  watchedAddresses : List WatchedAddressRow
  deletions : List Deletion

/-- How a statement ends for the process: an error may come before or after its effect. -/
inductive Reply where
  | done
  | failed (error : RepositoryError)
  | lost (error : RepositoryError)

/-- How a run of the consumer ends: the process dies, gives up, or halts at an event. -/
inductive RunError where
  | crash
  | fatal (reason : String)
  | halt (chainId : Nat) (seq : Int)
deriving DecidableEq

abbrev RunM : Type → Type := Proc Reply RunError CursorDb

/-! ## Statements -/

def statement {α : Type} (f : CursorDb → α × CursorDb) : RunM (Except RepositoryError α) :=
  Proc.call fun reply db => .ok <| match reply with
    | .done => (.ok (f db).1, (f db).2)
    | .failed e => (.error e, db)
    | .lost e => (.error e, (f db).2)

def chainCursors : RunM (Except RepositoryError Cursors) := statement fun db => (db.cursors, db)

/-- The upsert: a row of the same epoch only moves forward. -/
def Cursors.commit (cursors : Cursors) (chainId : Nat) (cursor : ChainCursor) : Cursors :=
  match cursors.find? chainId with
  | none => cursors.put (chainId, cursor)
  | some stored =>
    if stored.2.epoch ≠ cursor.epoch ∨ stored.2.seq < cursor.seq then cursors.put (chainId, cursor)
    else cursors

def commitChainCursor (chainId : Nat) (cursor : ChainCursor) : RunM (Except RepositoryError Unit) :=
  statement fun db => ((), { db with cursors := db.cursors.commit chainId cursor })

/-- Delete the row of a chain. -/
def CursorDb.drop (db : CursorDb) (chainId : Nat) : CursorDb :=
  { db with
    cursors := db.cursors.filter fun entry => entry.1 ≠ chainId
    deletions := db.deletions ++
      [⟨chainId, (db.cursors.find? chainId).map Prod.snd, db.watchedAddresses⟩] }

def deleteChainCursor (chainId : Nat) : RunM (Except RepositoryError Unit) :=
  statement fun db => ((), db.drop chainId)

/-- The rows `reset_chain_watch_notifications` updates. -/
def isActiveOn (chainId : Nat) (row : WatchedAddressRow) : Bool :=
  decide (row.chainId = .evm chainId) && row.isActive

def CursorDb.rearm (db : CursorDb) (chainId : Nat) : CursorDb :=
  { db with
    watchedAddresses := db.watchedAddresses.map fun row =>
      if isActiveOn chainId row then { row with monitorNotified := false } else row }

def resetChainWatchNotifications (chainId : Nat) : RunM (Except RepositoryError Nat) :=
  statement fun db => ((db.watchedAddresses.filter (isActiveOn chainId)).length, db.rearm chainId)

/-- The outbox's epoch, as the bridge answers. -/
def currentEpoch (epoch : Int) : RunM (Except RepositoryError Int) := statement fun db => (epoch, db)

/-! ## Reconciling -/

def lineageNotAccepted : String := "event outbox lineage break not accepted"

def lineageNotBroken : String :=
  "failed to re-arm watch_retry or drop the stale cursor after an event outbox lineage break"

/-- The loop of `break_lineage`: whether every chain so far was re-armed, and the cursors left. -/
def breakChains : List Nat → Bool → Cursors → RunM (Bool × Cursors)
  | [], allRearmed, cursors => pure (allRearmed, cursors)
  | chainId :: rest, allRearmed, cursors => do
    match ← resetChainWatchNotifications chainId with
    | .ok _ =>
      match ← deleteChainCursor chainId with
      | .ok () => breakChains rest allRearmed (cursors.filter fun entry => entry.1 ≠ chainId)
      | .error _ => breakChains rest false cursors
    | .error _ => breakChains rest false cursors

/-- Re-arm `watch_retry` for the chains, then forget their cursors. -/
def breakLineage (cursors : Cursors) (chainIds : List Nat) : RunM Cursors := do
  let (allRearmed, left) ← breakChains chainIds true cursors
  if allRearmed then pure left else Proc.fail (.fatal lineageNotBroken)

/-- The chains whose cursor is of another epoch, in the map's iteration order. -/
def mismatched (cursors : Cursors) (bridgeEpoch : Int) (order : Nat → Nat) : List Nat :=
  ((arrange order cursors.rows).filter fun entry => decide (entry.2.epoch ≠ bridgeEpoch)).map Prod.fst

/-- After the highest position of any cursor. -/
def resumePoint (cursors : Cursors) (bridgeEpoch : Int) : Option EventCursor :=
  (cursors.rows.map fun entry => entry.2.seq).max?.map fun seq => ⟨bridgeEpoch, seq, 0⟩

/-- Reconcile the stored cursors with the outbox's epoch: where to resume, and the cursors left. -/
def reconcileCursors (acceptLineageBreak : Bool) (order : Nat → Nat) (cursors : Cursors)
    (bridgeEpoch : Int) : RunM (Option EventCursor × Cursors) :=
  if cursors.rows.isEmpty then pure (none, cursors)
  else if (mismatched cursors bridgeEpoch order).isEmpty then
    pure (resumePoint cursors bridgeEpoch, cursors)
  else if acceptLineageBreak then do
    let left ← breakLineage cursors (mismatched cursors bridgeEpoch order)
    pure (resumePoint left bridgeEpoch, left)
  else Proc.fail (.fatal lineageNotAccepted)

/-- The part of `run` before it subscribes. -/
def startUp (acceptLineageBreak : Bool) (order : Nat → Nat) (epoch : Int) :
    RunM (Option EventCursor × Cursors) := do
  match ← chainCursors with
  | .error _ => Proc.fail (.fatal "failed to load chain cursors")
  | .ok cursors =>
    match ← currentEpoch epoch with
    | .error _ => Proc.fail (.fatal "failed to read the event outbox's epoch")
    | .ok bridgeEpoch => reconcileCursors acceptLineageBreak order cursors bridgeEpoch

/--
Commit the position of an envelope once it is applied, under the epoch the
consumer resumed with; `applied` also holds of an event the operator skips.
-/
def applyEnvelope (applied : Bool) (bridgeEpoch : Int) (chainId : Nat) (seq blockHeight : Int)
    (cursors : Cursors) : RunM Cursors :=
  if applied then do
    match ← commitChainCursor chainId ⟨bridgeEpoch, seq, blockHeight⟩ with
    | .ok () => pure (cursors.put (chainId, ⟨bridgeEpoch, seq, blockHeight⟩))
    | .error _ => Proc.fail (.halt chainId seq)
  else Proc.fail (.halt chainId seq)

/-! ## What the statements do -/

section Statement

variable {α : Type} {f : CursorDb → α × CursorDb} {world : World RunError Reply}
  {pre : CursorDb → Prop}

/-- A statement: its answer, or an error with or without its effect, or the end of the process. -/
theorem statement_spec {post : Except RepositoryError α → CursorDb → Prop}
    {failure : RunError → CursorDb → Prop}
    (crashes : ∀ i e db, world i = .error e → pre db → failure e db)
    (answers : ∀ db, pre db → post (.ok (f db).1) (f db).2)
    (fails : ∀ db e, pre db → post (.error e) db)
    (loses : ∀ db e, pre db → post (.error e) (f db).2) :
    Proc.Triple world pre (statement f) post failure := by
  refine Proc.Triple.call ?_ ?_ ?_
  · intro i e db fault holds
    exact crashes i e db fault holds
  · intro i reply db a db' answered holds done
    cases reply with
    | done =>
      cases done
      exact answers db holds
    | failed e =>
      cases done
      exact fails db e holds
    | lost e =>
      cases done
      exact loses db e holds
  · intro i reply db e answered holds refused
    cases refused

end Statement

/-- An envelope leaves the database as it was, or with its cursor committed. -/
theorem applyEnvelope_state {applied : Bool} {epoch : Int} {chainId : Nat} {seq blockHeight : Int}
    {cursors : Cursors} {world : World RunError Reply} (i : Nat) (db : CursorDb) :
    (applyEnvelope applied epoch chainId seq blockHeight cursors world i db).state = db ∨
      (applyEnvelope applied epoch chainId seq blockHeight cursors world i db).state =
        { db with cursors := db.cursors.commit chainId ⟨epoch, seq, blockHeight⟩ } := by
  let Table : CursorDb → Prop := fun after => after = db ∨
    after = { db with cursors := db.cursors.commit chainId ⟨epoch, seq, blockHeight⟩ }
  have spec : Proc.Triple world (· = db) (applyEnvelope applied epoch chainId seq blockHeight cursors)
      (fun _ => Table) (fun _ => Table) := by
    cases applied with
    | false => exact Proc.Triple.fail fun _ same => .inl same
    | true =>
      refine Proc.Triple.bind (fun _ => Table) ?_ ?_
      · refine statement_spec (fun _ _ _ _ same => .inl same) ?_ (fun _ _ same => .inl same) ?_
        · rintro after rfl
          exact .inr rfl
        · rintro after e rfl
          exact .inr rfl
      · rintro (e | ⟨⟩)
        · exact Proc.Triple.fail fun _ holds => holds
        · exact Proc.Triple.pure fun _ holds => holds
  rcases spec.ends world i db with ⟨_, _, table⟩ | ⟨_, _, table⟩ <;> exact table

@[simp] theorem mem_mismatched {cursors : Cursors} {bridgeEpoch : Int} {order : Nat → Nat}
    {chainId : Nat} : chainId ∈ mismatched cursors bridgeEpoch order ↔
      ∃ cursor, (chainId, cursor) ∈ cursors.rows ∧ cursor.epoch ≠ bridgeEpoch := by
  simp [mismatched]

theorem Cursors.mem_commit {cursors : Cursors} {chainId : Nat} {cursor : ChainCursor}
    {entry : Nat × ChainCursor} (mem : entry ∈ (cursors.commit chainId cursor).rows) :
    entry = (chainId, cursor) ∨ entry ∈ cursors.rows := by
  unfold Cursors.commit at mem
  split at mem
  · exact (Table.mem_put mem).imp_right And.left
  · split at mem
    · exact (Table.mem_put mem).imp_right And.left
    · exact .inr mem

end EthPayServer.Outbox
