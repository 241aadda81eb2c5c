import EthPayServer.Outbox.Cursors
import EthPayServer.Lib.Transition

/-!
# Starts after a break of the outbox's lineage

Every start loads the cursor table and reconciles it with the outbox's epoch.
Whatever statement fails or however the process dies, what is left in the table
are rows that were there, all rows of the outbox's epoch among them, and a row
of another epoch is gone only after its chain's watches were armed again.  So a
later start can pick up where an earlier one stopped, and one that completes
leaves only rows of the outbox's epoch.
-/

namespace EthPayServer.Outbox

open Lib Data

structure Careful (epoch : Int) (deletion : Deletion) : Prop where
  stale : ∀ cursor, deletion.cursor = some cursor → cursor.epoch ≠ epoch
  rearmed : ∀ row ∈ deletion.watched, isActiveOn deletion.chainId row = true → row.monitorNotified = false

/-- What the tables keep at any point of a start. -/
structure Partway (epoch : Int) (start db : CursorDb) : Prop where
  kept : ∀ entry ∈ start.cursors.rows, entry.2.epoch = epoch → entry ∈ db.cursors.rows
  stored : ∀ entry ∈ db.cursors.rows, entry ∈ start.cursors.rows
  careful : ∀ deletion ∈ db.deletions, deletion ∈ start.deletions ∨ Careful epoch deletion

variable (epoch : Int)

theorem Partway.refl (start : CursorDb) : Partway epoch start start :=
  ⟨fun _ mem _ => mem, fun _ mem => mem, fun _ => .inl⟩

/-- The loop of `break_lineage` with some chains still to come. -/
structure Breaking (epoch : Int) (start : CursorDb) (todo : List Nat) (allRearmed : Bool)
    (cursors : Cursors) (db : CursorDb) : Prop extends Partway epoch start db where
  dropped : allRearmed = true → ∀ entry ∈ db.cursors.rows, entry.2.epoch ≠ epoch → entry.1 ∈ todo
  same : allRearmed = true → cursors = db.cursors

section Loop

variable {epoch : Int} {start db : CursorDb} {todo rest : List Nat} {allRearmed : Bool}
  {cursors : Cursors} {chainId : Nat}

/-- A chain that was not dropped makes the whole break a failure. -/
theorem Breaking.giveUp {cursors' : Cursors}
    (breaking : Breaking epoch start todo allRearmed cursors db) :
    Breaking epoch start rest false cursors' db :=
  ⟨breaking.toPartway, by simp, by simp⟩

theorem Breaking.rearm (breaking : Breaking epoch start todo allRearmed cursors db) (chainId : Nat) :
    Breaking epoch start todo allRearmed cursors (db.rearm chainId) :=
  ⟨⟨breaking.kept, breaking.stored, breaking.careful⟩, breaking.dropped, breaking.same⟩

def Rearmed (chainId : Nat) (db : CursorDb) : Prop :=
  ∀ row ∈ db.watchedAddresses, isActiveOn chainId row = true → row.monitorNotified = false

theorem rearmed_rearm (chainId : Nat) (db : CursorDb) : Rearmed chainId (db.rearm chainId) := by
  intro row mem isActive
  obtain ⟨old, _, rfl⟩ := List.mem_map.mp mem
  by_cases active : isActiveOn chainId old = true
  · rw [if_pos active]
  · rw [if_neg active] at isActive
    exact absurd isActive active

/-- Deleting the row of a chain whose watches are armed again. -/
theorem Breaking.drop (breaking : Breaking epoch start (chainId :: rest) allRearmed cursors db)
    (rearmed : Rearmed chainId db)
    (stale : ∀ cursor, (chainId, cursor) ∈ start.cursors.rows → cursor.epoch ≠ epoch) :
    Breaking epoch start rest allRearmed (cursors.filter fun entry => entry.1 ≠ chainId)
      (db.drop chainId) := by
  refine ⟨⟨?_, ?_, ?_⟩, ?_, ?_⟩
  · intro entry mem current
    refine List.mem_filter.mpr ⟨breaking.kept entry mem current, ?_⟩
    have other : entry.1 ≠ chainId := by
      rintro rfl
      exact stale entry.2 mem current
    simpa using other
  · intro entry mem
    exact breaking.stored entry (List.mem_filter.mp mem).1
  · intro deletion mem
    rcases List.mem_append.mp mem with old | new
    · exact breaking.careful deletion old
    rw [List.mem_singleton.mp new]
    refine .inr ⟨?_, rearmed⟩
    intro cursor isCursor
    obtain ⟨entry, found, rfl⟩ := Option.map_eq_some_iff.mp isCursor
    obtain ⟨memEntry, rfl⟩ := Table.find?_eq_some.mp found
    exact stale entry.2 (breaking.stored entry memEntry)
  · intro all entry mem outdated
    obtain ⟨memOld, other⟩ := List.mem_filter.mp mem
    rcases List.mem_cons.mp (breaking.dropped all entry memOld outdated) with same | later
    · exact absurd same (by simpa using other)
    · exact later
  · intro all
    rw [breaking.same all]
    rfl

theorem breakChains_spec {world : World RunError Reply}
    (faults : ∀ i e, world i = .error e → e = .crash)
    (stale : ∀ chainId ∈ todo, ∀ cursor, (chainId, cursor) ∈ start.cursors.rows → cursor.epoch ≠ epoch) :
    Proc.Triple world (Breaking epoch start todo allRearmed cursors)
      (breakChains todo allRearmed cursors)
      (fun result => Breaking epoch start [] result.1 result.2)
      (fun e db => e = .crash ∧ Partway epoch start db) := by
  induction todo generalizing allRearmed cursors with
  | nil => exact Proc.Triple.pure fun db breaking => breaking
  | cons chainId rest ih =>
    have later : ∀ other ∈ rest, ∀ cursor, (other, cursor) ∈ start.cursors.rows →
        cursor.epoch ≠ epoch := fun other mem => stale other (List.mem_cons_of_mem _ mem)
    -- the two statements for this chain
    have resets : Proc.Triple world (Breaking epoch start (chainId :: rest) allRearmed cursors)
        (resetChainWatchNotifications chainId)
        (fun result db => Breaking epoch start (chainId :: rest) allRearmed cursors db ∧
          (result.isOk → Rearmed chainId db))
        (fun e db => e = .crash ∧ Partway epoch start db) := by
      refine statement_spec ?_ ?_ ?_ ?_
      · exact fun i e db fault breaking => ⟨faults i e fault, breaking.toPartway⟩
      · exact fun db breaking => ⟨breaking.rearm chainId, fun _ => rearmed_rearm chainId db⟩
      · exact fun db e breaking => ⟨breaking, by simp [Except.isOk, Except.toBool]⟩
      · exact fun db e breaking => ⟨breaking.rearm chainId, by simp [Except.isOk, Except.toBool]⟩
    have deletes : Proc.Triple world (fun db =>
        Breaking epoch start (chainId :: rest) allRearmed cursors db ∧ Rearmed chainId db)
        (deleteChainCursor chainId)
        (fun result db => Breaking epoch start rest (allRearmed && result.isOk)
          (if result.isOk then cursors.filter fun entry => entry.1 ≠ chainId else cursors) db)
        (fun e db => e = .crash ∧ Partway epoch start db) := by
      refine statement_spec ?_ ?_ ?_ ?_
      · exact fun i e db fault holds => ⟨faults i e fault, holds.1.toPartway⟩
      · intro db holds
        simpa [Except.isOk, Except.toBool] using holds.1.drop holds.2 (stale chainId List.mem_cons_self)
      · intro db e holds
        simpa [Except.isOk, Except.toBool] using holds.1.giveUp
      · intro db e holds
        simpa [Except.isOk, Except.toBool] using
          (holds.1.drop holds.2 (stale chainId List.mem_cons_self)).giveUp
    refine Proc.Triple.bind _ resets ?_
    rintro (e | count)
    · exact (ih later).mono (fun db holds => holds.1.giveUp) (fun _ _ holds => holds)
        fun _ _ failed => failed
    refine Proc.Triple.bind _ (deletes.mono (fun db holds => ⟨holds.1, holds.2 rfl⟩)
      (fun _ _ holds => holds) fun _ _ failed => failed) ?_
    rintro (e | ⟨⟩)
    · exact (ih later).mono (fun db holds => holds.giveUp) (fun _ _ holds => holds)
        fun _ _ failed => failed
    · refine (ih later).mono (fun db holds => ?_) (fun _ _ holds => holds) fun _ _ failed => failed
      simpa [Except.isOk, Except.toBool] using holds

end Loop

/-! ## One start -/

/-- What a start that completes leaves: only rows of the epoch, and the position after the highest. -/
structure Completed (epoch : Int) (start : CursorDb) (result : Option EventCursor × Cursors)
    (db : CursorDb) : Prop extends Partway epoch start db where
  current : ∀ entry ∈ db.cursors.rows, entry.2.epoch = epoch
  loaded : result.2 = db.cursors
  resume : result.1 = resumePoint db.cursors epoch

/-- The errors that mean a row of another epoch was found. -/
def MeansMismatch (e : RunError) : Prop := e = .fatal lineageNotAccepted ∨ e = .fatal lineageNotBroken

/-- What a start that does not complete leaves. -/
structure Halted (epoch : Int) (start : CursorDb) (e : RunError) (db : CursorDb) : Prop
    extends Partway epoch start db where
  mismatch : MeansMismatch e → ∃ entry ∈ start.cursors.rows, entry.2.epoch ≠ epoch

section Start

variable {epoch : Int} {start : CursorDb} {world : World RunError Reply}

theorem halted_of_crash {db : CursorDb} (partway : Partway epoch start db) :
    Halted epoch start .crash db :=
  ⟨partway, by rintro (impossible | impossible) <;> cases impossible⟩

theorem reconcileCursors_spec (faults : ∀ i e, world i = .error e → e = .crash) (accept : Bool)
    (order : Nat → Nat) :
    Proc.Triple world (· = start) (reconcileCursors accept order start.cursors epoch)
      (Completed epoch start) (Halted epoch start) := by
  rintro i db rfl
  unfold reconcileCursors
  by_cases empty : db.cursors.rows.isEmpty
  · rw [if_pos empty]
    have noRows := List.isEmpty_iff.mp empty
    exact ⟨Partway.refl epoch db, by simp [noRows], rfl, by simp [resumePoint, noRows]⟩
  rw [if_neg empty]
  by_cases none : (mismatched db.cursors epoch order).isEmpty
  · rw [if_pos none]
    refine ⟨Partway.refl epoch db, ?_, rfl, rfl⟩
    intro entry mem
    by_contra outdated
    have stale : entry.1 ∈ mismatched db.cursors epoch order :=
      mem_mismatched.mpr ⟨entry.2, mem, outdated⟩
    rw [List.isEmpty_iff.mp none] at stale
    cases stale
  rw [if_neg none]
  have mismatch : ∃ entry ∈ db.cursors.rows, entry.2.epoch ≠ epoch := by
    obtain ⟨chainId, mem⟩ := List.exists_mem_of_ne_nil _ (fun nil => none (List.isEmpty_iff.mpr nil))
    obtain ⟨cursor, memRow, outdated⟩ := mem_mismatched.mp mem
    exact ⟨(chainId, cursor), memRow, outdated⟩
  cases accept with
  | false => exact ⟨Partway.refl epoch db, fun _ => mismatch⟩
  | true =>
    have stale : ∀ chainId ∈ mismatched db.cursors epoch order, ∀ cursor,
        (chainId, cursor) ∈ db.cursors.rows → cursor.epoch ≠ epoch := by
      intro chainId mem cursor memRow
      obtain ⟨cursor', memRow', outdated⟩ := mem_mismatched.mp mem
      cases Table.eq_of_key memRow memRow' rfl
      exact outdated
    have begun : Breaking epoch db (mismatched db.cursors epoch order) true db.cursors db := by
      refine ⟨Partway.refl epoch db, ?_, fun _ => rfl⟩
      intro _ entry mem outdated
      exact mem_mismatched.mpr ⟨entry.2, mem, outdated⟩
    have loop := breakChains_spec faults stale i db begun
    refine Outcome.Satisfies.andThen (fun left after => Partway epoch db after ∧ left = after.cursors ∧
      ∀ entry ∈ after.cursors.rows, entry.2.epoch = epoch) ?_ ?_
    · refine Outcome.Satisfies.andThen _ (loop.mono (fun _ _ holds => holds) ?_) ?_
      · rintro e after ⟨rfl, partway⟩
        exact halted_of_crash partway
      rintro ⟨allRearmed, left⟩ calls after broken
      cases allRearmed with
      | false => exact ⟨broken.toPartway, fun _ => mismatch⟩
      | true =>
        refine ⟨broken.toPartway, broken.same rfl, fun entry mem => ?_⟩
        by_contra outdated
        cases broken.dropped rfl entry mem outdated
    · rintro left calls after ⟨partway, rfl, current⟩
      exact ⟨partway, current, rfl, rfl⟩

theorem startUp_spec (faults : ∀ i e, world i = .error e → e = .crash) (accept : Bool)
    (order : Nat → Nat) :
    Proc.Triple world (· = start) (startUp accept order epoch) (Completed epoch start)
      (Halted epoch start) := by
  have gaveUp : ∀ reason, reason ≠ lineageNotAccepted → reason ≠ lineageNotBroken →
      Halted epoch start (.fatal reason) start := by
    intro reason notRefused notBroken
    refine ⟨Partway.refl epoch start, ?_⟩
    rintro (same | same)
    · exact absurd (RunError.fatal.inj same) notRefused
    · exact absurd (RunError.fatal.inj same) notBroken
  -- both reads leave the tables as they are
  have reads : ∀ {α : Type} (f : CursorDb → α), Proc.Triple world (· = start)
      (statement fun db => (f db, db))
      (fun result db => db = start ∧ ∀ a, result = .ok a → a = f start) (Halted epoch start) := by
    intro α f
    refine statement_spec ?_ ?_ ?_ ?_
    · rintro i e db fault rfl
      rw [faults i e fault]
      exact halted_of_crash (Partway.refl epoch db)
    · rintro db rfl
      exact ⟨rfl, fun a same => (Except.ok.inj same).symm⟩
    · rintro db e rfl
      exact ⟨rfl, by simp⟩
    · rintro db e rfl
      exact ⟨rfl, by simp⟩
  refine Proc.Triple.bind _ (reads CursorDb.cursors) ?_
  rintro (e | cursors) i db ⟨rfl, isLoaded⟩
  · exact gaveUp _ (by decide) (by decide)
  obtain rfl := isLoaded cursors rfl
  refine Outcome.Satisfies.andThen _ (reads (fun _ => epoch) i db rfl) ?_
  rintro (e | bridgeEpoch) calls after ⟨rfl, isEpoch⟩
  · exact gaveUp _ (by decide) (by decide)
  obtain rfl := isEpoch bridgeEpoch rfl
  exact reconcileCursors_spec faults accept order calls after rfl

end Start

/-- The position is the highest among the rows of the epoch; none if there is no such row. -/
def ResumesAfter (epoch : Int) (cursors : Cursors) : Option EventCursor → Prop
  | none => ∀ entry ∈ cursors.rows, entry.2.epoch ≠ epoch
  | some cursor => cursor.epoch = epoch ∧
    (∃ entry ∈ cursors.rows, entry.2.epoch = epoch ∧ entry.2.seq = cursor.seq) ∧
    ∀ entry ∈ cursors.rows, entry.2.epoch = epoch → entry.2.seq ≤ cursor.seq

theorem Completed.resumesAfter {epoch : Int} {start db : CursorDb}
    {result : Option EventCursor × Cursors} (completed : Completed epoch start result db) :
    ResumesAfter epoch start.cursors result.1 := by
  rw [completed.resume, resumePoint]
  cases highest : (db.cursors.rows.map fun entry => entry.2.seq).max? with
  | none =>
    intro entry mem current
    have kept := completed.kept entry mem current
    rw [List.max?_eq_none_iff, List.map_eq_nil_iff] at highest
    rw [highest] at kept
    cases kept
  | some seq =>
    obtain ⟨mem, bound⟩ := List.max?_eq_some_iff.mp highest
    obtain ⟨entry, memEntry, isSeq⟩ := List.mem_map.mp mem
    refine ⟨rfl, ⟨entry, completed.stored entry memEntry, completed.current entry memEntry, isSeq⟩, ?_⟩
    intro other memOther current
    exact bound _ (List.mem_map_of_mem (completed.kept other memOther current))

/-! ## Every sequence of starts -/

/-- A consumer whose start completed: the cursors it holds and where it resumed. -/
structure Session where
  cursors : Cursors
  resume : Option EventCursor

/-- A server over its restarts, while the outbox's epoch stays the same. -/
structure Lineage where
  db : CursorDb
  session : Option Session
  /-- whether some start has completed -/
  completed : Bool
  /-- chain and position of every envelope delivered -/
  delivered : List (Nat × Int)

inductive LineageAction where
  | start (acceptLineageBreak : Bool) (order : Nat → Nat) (world : World RunError Reply)
  | deliver (chainId : Nat) (seq blockHeight : Int) (applied : Bool) (world : World RunError Reply)
  /-- other tasks of the server add, switch off and send watches -/
  | rewatch (rows : List WatchedAddressRow)
  | stop

namespace Lineage

/-- A crash is the only fault; an envelope is delivered to a consumer whose start completed. -/
def Valid (lineage : Lineage) : LineageAction → Prop
  | .start _ _ world => ∀ i e, world i = .error e → e = .crash
  | .deliver _ _ _ _ _ => lineage.session.isSome
  | _ => True

def started (epoch : Int) (lineage : Lineage) (acceptLineageBreak : Bool) (order : Nat → Nat)
    (world : World RunError Reply) : Outcome RunError CursorDb (Option EventCursor × Cursors) :=
  startUp acceptLineageBreak order epoch world 0 lineage.db

def perform (epoch : Int) (lineage : Lineage) : LineageAction → Lineage
  | .start acceptLineageBreak order world =>
    let outcome := lineage.started epoch acceptLineageBreak order world
    match outcome.result with
    | .ok (resume, cursors) => { lineage with
        db := outcome.state
        session := some ⟨cursors, resume⟩
        completed := true }
    | .error _ => { lineage with db := outcome.state, session := none }
  | .deliver chainId seq blockHeight applied world =>
    match lineage.session with
    | none => lineage
    | some session =>
      let outcome := applyEnvelope applied epoch chainId seq blockHeight session.cursors world 0 lineage.db
      { lineage with
        db := outcome.state
        session := match outcome.result with
          | .ok cursors => some { session with cursors }
          | .error _ => none
        delivered := lineage.delivered ++ [(chainId, seq)] }
  | .rewatch rows => { lineage with db := { lineage.db with watchedAddresses := rows } }
  | .stop => { lineage with session := none }

/-- Any cursor table and any watches; no start yet. -/
structure IsInitial (lineage : Lineage) : Prop where
  deletions : lineage.db.deletions = []
  session : lineage.session = none
  completed : lineage.completed = false
  delivered : lineage.delivered = []

end Lineage

def lineage (epoch : Int) : System Lineage LineageAction where
  initial := Lineage.IsInitial
  step before action after := before.Valid action ∧ after = before.perform epoch action

/-- What a start does, whichever way it ends. -/
inductive StartEnds (epoch : Int) (before after : Lineage) : Except RunError (Option EventCursor × Cursors) →
    Prop
  | halts (e : RunError) (stopped : after.session = none) (silent : after.delivered = before.delivered)
      (later : before.completed = true → ¬ MeansMismatch e) : StartEnds epoch before after (.error e)
  | completes (resume : Option EventCursor) (cursors : Cursors)
      (running : after.session = some ⟨cursors, resume⟩) (completed : after.completed = true)
      (highest : ResumesAfter epoch before.db.cursors resume) :
      StartEnds epoch before after (.ok (resume, cursors))

structure Converges (epoch : Int) (lineage : Lineage) : Prop where
  current : lineage.completed = true → ∀ entry ∈ lineage.db.cursors.rows, entry.2.epoch = epoch
  careful : ∀ deletion ∈ lineage.db.deletions, Careful epoch deletion
  starts : ∀ accept order world, (∀ i e, world i = .error e → e = .crash) →
    StartEnds epoch lineage (lineage.perform epoch (.start accept order world))
      (lineage.started epoch accept order world).result

namespace Lineage

variable {epoch : Int} {before : Lineage}

/-- What holds between any two actions. -/
structure Sound (epoch : Int) (lineage : Lineage) : Prop where
  current : lineage.completed = true → ∀ entry ∈ lineage.db.cursors.rows, entry.2.epoch = epoch
  careful : ∀ deletion ∈ lineage.db.deletions, Careful epoch deletion
  session : lineage.session.isSome → lineage.completed = true

theorem Sound.careful_of_partway (sound : before.Sound epoch) {db : CursorDb}
    (partway : Partway epoch before.db db) : ∀ deletion ∈ db.deletions, Careful epoch deletion := by
  intro deletion mem
  rcases partway.careful deletion mem with old | new
  · exact sound.careful deletion old
  · exact new

theorem Sound.start (sound : before.Sound epoch) {accept : Bool} {order : Nat → Nat}
    {world : World RunError Reply} (faults : ∀ i e, world i = .error e → e = .crash) :
    (before.perform epoch (.start accept order world)).Sound epoch ∧
      StartEnds epoch before (before.perform epoch (.start accept order world))
        (before.started epoch accept order world).result := by
  have spec : (before.started epoch accept order world).Satisfies (Completed epoch before.db)
      (Halted epoch before.db) := startUp_spec faults accept order 0 before.db rfl
  simp only [perform]
  generalize before.started epoch accept order world = outcome at *
  obtain ⟨result, calls, db⟩ := outcome
  cases result with
  | error e =>
    have halted : Halted epoch before.db e db := spec
    refine ⟨⟨?_, sound.careful_of_partway halted.toPartway, by simp⟩, .halts e rfl rfl ?_⟩
    · intro completed entry mem
      exact sound.current completed entry (halted.stored entry mem)
    · intro completed mismatch
      obtain ⟨entry, mem, outdated⟩ := halted.mismatch mismatch
      exact outdated (sound.current completed entry mem)
  | ok result =>
    have done : Completed epoch before.db result db := spec
    exact ⟨⟨fun _ => done.current, sound.careful_of_partway done.toPartway, fun _ => rfl⟩,
      .completes result.1 result.2 rfl rfl done.resumesAfter⟩

/-- A delivery commits its position under the epoch, or nothing. -/
theorem applyEnvelope_cursors {applied : Bool} {chainId : Nat} {seq blockHeight : Int}
    {cursors : Cursors} {world : World RunError Reply} {db : CursorDb} :
    (applyEnvelope applied epoch chainId seq blockHeight cursors world 0 db).state.deletions =
        db.deletions ∧
      ∀ entry ∈ (applyEnvelope applied epoch chainId seq blockHeight cursors world 0 db).state.cursors.rows,
        entry.2.epoch = epoch ∨ entry ∈ db.cursors.rows := by
  rcases applyEnvelope_state 0 db with same | committed
  · rw [same]
    exact ⟨rfl, fun _ => .inr⟩
  · rw [committed]
    refine ⟨rfl, fun entry mem => ?_⟩
    rcases Cursors.mem_commit mem with rfl | old
    · exact .inl rfl
    · exact .inr old

theorem Sound.step (sound : before.Sound epoch) {action : LineageAction} (valid : before.Valid action) :
    (before.perform epoch action).Sound epoch := by
  cases action with
  | start accept order world => exact (sound.start valid).1
  | deliver chainId seq blockHeight applied world =>
    simp only [perform]
    cases isSession : before.session with
    | none => exact sound
    | some session =>
      have completed := sound.session valid
      obtain ⟨sameDeletions, cursors⟩ := @applyEnvelope_cursors epoch applied chainId seq blockHeight
        session.cursors world before.db
      refine ⟨?_, ?_, fun _ => completed⟩
      · intro _ entry mem
        exact (cursors entry mem).elim id (sound.current completed entry)
      · intro deletion mem
        rw [show _ = _ from sameDeletions] at mem
        exact sound.careful deletion mem
  | rewatch rows => exact ⟨sound.current, sound.careful, sound.session⟩
  | stop => exact ⟨sound.current, sound.careful, by simp [perform]⟩

end Lineage

/--
After any sequence of starts, deliveries, failures and crashes: a start halts
without a delivery or completes and resumes after the highest position of the
outbox's epoch; once one has completed, every stored cursor is of that epoch and
no start halts on a mismatch; and no cursor was dropped before the chain's
watches were armed again.
-/
theorem lineage_break_converges (epoch : Int) {after : Lineage}
    (reached : (lineage epoch).Reachable after) : Converges epoch after := by
  have sound : after.Sound epoch := by
    refine reached.invariant (I := Lineage.Sound epoch) ?_ ?_
    · rintro start ⟨deletions, session, completed, _⟩
      exact ⟨by simp [completed], by simp [deletions], by simp [session]⟩
    · rintro before action after _ sound ⟨valid, rfl⟩
      exact sound.step valid
  exact ⟨sound.current, sound.careful, fun accept order world faults => (sound.start faults).2⟩

/-! ## A break that is interrupted once -/

def sentWatch : WatchedAddressRow :=
  ⟨1, 1, .evm 1, ⟨[], by decide⟩, none, true, 10, true⟩

/-- Chain 1 stopped at position 7 of an earlier epoch, chain 2 is at position 3 of epoch 5. -/
def brokenLineage : Lineage where
  db :=
    { cursors := (Table.empty.put (1, ⟨4, 7, 0⟩)).put (2, ⟨5, 3, 0⟩)
      watchedAddresses := [sentWatch]
      deletions := [] }
  session := none
  completed := false
  delivered := []

/-- The process dies after the watches are armed again, before the cursor is deleted. -/
def interruptedStart : LineageAction :=
  .start true id (Proc.crashAfter 3 .crash fun _ => .done)

def acceptedStart : LineageAction := .start true id (Proc.uninterrupted fun _ => .done)

def convergedLineage : Lineage :=
  (brokenLineage.perform 5 interruptedStart).perform 5 acceptedStart

theorem convergedLineage_reachable : (lineage 5).Reachable convergedLineage := by
  have started := System.Reachable.of_initial (show (lineage 5).initial brokenLineage from
    ⟨rfl, rfl, rfl, rfl⟩)
  have interrupted := started.snoc (a := interruptedStart) ⟨?_, rfl⟩
  · refine interrupted.snoc (a := acceptedStart) ⟨?_, rfl⟩
    rintro i e ⟨⟩
  · intro i e fault
    unfold Proc.crashAfter at fault
    split at fault <;> cases fault
    rfl

/-- The second start resumes after position 3, and the stale cursor went after the watch was armed. -/
theorem lineage_break_converges_interrupted :
    convergedLineage.session.map Session.resume = some (some ⟨5, 3, 0⟩) ∧
      convergedLineage.db.deletions.length = 1 ∧ Converges 5 convergedLineage :=
  ⟨by decide +kernel, by decide +kernel, lineage_break_converges 5 convergedLineage_reachable⟩

end EthPayServer.Outbox
