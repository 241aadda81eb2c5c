import EthPayServer.Consumer.Retraction

/-!
# A retraction that is cut and delivered again

The second delivery sees only the payments that are not marked yet.  It finishes
the marks, and it writes the status of every invoice that still has a payment to
mark; an invoice whose payments were all marked before the cut, but whose status
was not written yet, is not visited again.
-/

namespace EthPayServer.Consumer

open Lib Data
open Evm (Time Uuid ReorgDetected)

def MovesBack (base : Db) (goal : List Uuid) (invoiceId : Uuid) : Prop :=
  ∃ invoice, getInvoice invoiceId base = some invoice ∧ isClosed invoice.status = false ∧
    invoice.status ≠ statusAfter base goal invoiceId

/--
The cut falls between the last mark of a group and the write of its status, and
the status has to change.  The groups start at call `i`.
-/
def LosesStatus (base : Db) (goal : List Uuid) (cut : Nat) : Nat → List (Uuid × List Payment) → Prop
  | _, [] => False
  | i, group :: rest =>
    (i + group.2.length ≤ cut ∧ cut < i + group.2.length + 3 ∧ MovesBack base goal group.1) ∨
      LosesStatus base goal cut (i + groupCalls base group) rest

variable {invoiceId id : Uuid} {group other : Uuid × List Payment} {rest groups : List (Uuid × List Payment)}
   {i k : Nat}

section Progress

variable {base : Db} {goal marked written : List Uuid} {cut : Nat}

theorem MovesBack.isOpen (moves : MovesBack base goal invoiceId) : isOpen base invoiceId = true := by
  obtain ⟨invoice, found, isNotClosed, _⟩ := moves
  simp [isOpen_iff found, isNotClosed]

theorem IsPlan.eq_of_mem (plan : IsPlan base goal groups) (mem : group ∈ groups) (memOther : other ∈ groups)
    {payment : Payment} (memPayment : payment ∈ base.payments.rows) (ofGroup : payment.invoiceId = group.1)
    (inside : payment.id ∈ groupIds other) : other = group :=
  List.inj_on_of_nodup_map plan.distinct memOther mem
    (((plan.group other memOther).invoice_of_mem memPayment inside).symm.trans ofGroup)

/-- What a retraction has marked and written: whole groups, and the first payments of one more. -/
inductive Front (base : Db) (groups : List (Uuid × List Payment)) : List Uuid → List Uuid → Prop
  | mk (done rest : List (Uuid × List Payment)) (part : List Uuid) (split : groups = done ++ rest)
      (isPart : part = [] ∨ ∃ group ∈ rest, ∃ n, part = (group.2.take n).map Payment.id) :
      Front base groups (done.flatMap groupIds ++ part) (done.flatMap (opened base))

section

variable (front : Front base groups marked written)
include front

theorem Front.mem_marked (mem : id ∈ marked) : ∃ group ∈ groups, id ∈ groupIds group := by
  obtain ⟨done, rest, part, rfl, isPart⟩ := front
  rcases List.mem_append.mp mem with earlier | inPart
  · obtain ⟨group, memGroup, inside⟩ := List.mem_flatMap.mp earlier
    exact ⟨group, List.mem_append_left _ memGroup, inside⟩
  · rcases isPart with rfl | ⟨group, memGroup, n, rfl⟩
    · cases inPart
    · exact ⟨group, List.mem_append_right _ memGroup, List.map_subset _ (List.take_subset _ _) inPart⟩

theorem Front.mem_written (mem : invoiceId ∈ written) :
    ∃ group ∈ groups, group.1 = invoiceId ∧ isOpen base invoiceId = true := by
  obtain ⟨done, rest, part, rfl, isPart⟩ := front
  obtain ⟨group, memGroup, inside⟩ := List.mem_flatMap.mp mem
  have same := eq_of_mem_opened inside
  refine ⟨group, List.mem_append_left _ memGroup, same.symm, ?_⟩
  rw [same]
  by_contra closed
  simp [opened, closed] at inside

theorem Front.take (plan : IsPlan base goal groups) (mem : group ∈ groups) :
    ∃ k, ∀ payment ∈ base.payments.rows, payment.invoiceId = group.1 →
      (payment.id ∈ marked ↔ payment.id ∈ (group.2.take k).map Payment.id) := by
  have covered : ∀ id ∈ marked, ∃ group ∈ groups, id ∈ groupIds group := fun _ mem => front.mem_marked mem
  obtain ⟨done, rest, part, rfl, isPart⟩ := front
  have nothing : ∀ id : Uuid, id ∉ (group.2.take 0).map Payment.id := by simp
  rcases List.mem_append.mp mem with earlier | later
  · -- marked whole
    refine ⟨group.2.length, fun payment memPayment ofGroup => ?_⟩
    rw [List.take_length]
    constructor
    · intro isMarked
      obtain ⟨other, memOther, inside⟩ := covered _ isMarked
      rwa [← plan.eq_of_mem mem memOther memPayment ofGroup inside]
    · exact fun inside => List.mem_append_left _ (List.mem_flatMap.mpr ⟨group, earlier, inside⟩)
  have outside := (plan.apart later).1
  have inPart : ∀ payment ∈ base.payments.rows, payment.invoiceId = group.1 →
      (payment.id ∈ done.flatMap groupIds ++ part ↔ payment.id ∈ part) := fun payment memPayment ofGroup => by
    rw [List.mem_append, or_iff_right (outside payment memPayment ofGroup)]
  rcases isPart with rfl | ⟨next, memNext, n, rfl⟩
  · refine ⟨0, fun payment memPayment ofGroup => ?_⟩
    rw [inPart payment memPayment ofGroup]
    exact iff_of_false List.not_mem_nil (nothing _)
  by_cases here : next = group
  · rw [here] at inPart
    exact ⟨n, here ▸ inPart⟩
  refine ⟨0, fun payment memPayment ofGroup => ?_⟩
  rw [inPart payment memPayment ofGroup]
  refine iff_of_false (fun inside => here ?_) (nothing _)
  exact plan.eq_of_mem mem (List.mem_append_right _ memNext) memPayment ofGroup
    (List.map_subset _ (List.take_subset _ _) inside)

end

theorem not_losesStatus_of_lt (before : cut < i) : ¬ LosesStatus base goal cut i groups := by
  induction groups generalizing i with
  | nil => exact id
  | cons group rest ih =>
    rintro (⟨low, _, _⟩ | later)
    · omega
    · exact ih (by omega) later

/-- A front part of a group that holds all of it is at least as long. -/
theorem length_le_of_front (isGroup : IsGroup base goal group)
    (all : ∀ payment ∈ group.2, payment.id ∈ (group.2.take k).map Payment.id) : group.2.length ≤ k := by
  by_contra short
  have subset : group.2.map Payment.id ⊆ (group.2.take k).map Payment.id := by
    intro id mem
    obtain ⟨payment, memPayment, rfl⟩ := List.mem_map.mp mem
    exact all payment memPayment
  have longer := (isGroup.distinct.subperm subset).length_le
  simp only [List.length_map, List.length_take] at longer
  omega

theorem losesStatus_append {done : List (Uuid × List Payment)} (late : i + totalCalls base done ≤ cut) :
    LosesStatus base goal cut i (done ++ rest) ↔
      LosesStatus base goal cut (i + totalCalls base done) rest := by
  induction done generalizing i with
  | nil => rfl
  | cons group done ih =>
    have calls : totalCalls base (group :: done) = groupCalls base group + totalCalls base done := by
      simp [totalCalls]
    rw [calls, ← Nat.add_assoc] at late
    rw [List.cons_append, LosesStatus, calls, ← Nat.add_assoc, ← ih late]
    refine or_iff_right ?_
    rintro ⟨_, early, moves⟩
    simp only [groupCalls, moves.isOpen, if_true] at late
    omega

/-- A group that is marked whole does not get the status it has to get. -/
def Lost (base : Db) (goal : List Uuid) (groups : List (Uuid × List Payment)) (marked written : List Uuid) :
    Prop :=
  ∃ group ∈ groups, MovesBack base goal group.1 ∧ group.1 ∉ written ∧
    ∀ payment ∈ group.2, payment.id ∈ marked

/-- Only the group that was marked in part can lose its status. -/
theorem Lost.part (done : List (Uuid × List Payment)) {part : List Uuid}
    (plan : IsPlan base goal (done ++ rest))
    (lost : Lost base goal (done ++ rest) (done.flatMap groupIds ++ part) (done.flatMap (opened base))) :
    part ≠ [] ∧ ∀ group ∈ rest, ∀ n, part = (group.2.take n).map Payment.id →
      group.2.length ≤ n ∧ MovesBack base goal group.1 := by
  obtain ⟨group, mem, moves, unwritten, marked⟩ := lost
  have isGroup := plan.group group mem
  rcases List.mem_append.mp mem with earlier | later
  · refine absurd (List.mem_flatMap.mpr ⟨group, earlier, ?_⟩) unwritten
    simp [opened, moves.isOpen]
  have inPart : ∀ payment ∈ group.2, payment.id ∈ part := fun payment memPayment =>
    (List.mem_append.mp (marked payment memPayment)).resolve_left
      ((plan.apart later).1 payment (isGroup.rows payment memPayment).1 (isGroup.rows payment memPayment).2.2)
  obtain ⟨payment, memPayment⟩ := List.exists_mem_of_ne_nil _ isGroup.nonempty
  obtain ⟨memBase, _, ofGroup⟩ := isGroup.rows payment memPayment
  refine ⟨List.ne_nil_of_mem (inPart payment memPayment), ?_⟩
  rintro next memNext n rfl
  obtain rfl : next = group := plan.eq_of_mem mem (List.mem_append_right _ memNext) memBase ofGroup
    (List.map_subset _ (List.take_subset _ _) (inPart payment memPayment))
  exact ⟨length_le_of_front isGroup inPart, moves⟩

end Progress

/-! ## The second delivery -/

variable {delivery first second : Delivery}

section Resumed

variable {event : ReorgDetected} {base mid : Db} {goal marked written : List Uuid}

theorem retractions_mid (state : Retracting base goal marked written mid) :
    retractions event mid =
      (retractions event base).filter fun payment => decide (payment.id ∉ marked) := by
  unfold retractions reorgCandidates
  rw [state.payments, retractRows, List.filter_filter, List.filter_filter, List.filter_filter,
    List.filter_map]
  have same : ∀ payment : Payment, payment ∈ base.payments.rows.filter
      ((fun payment => (!survived event payment && decide (payment.chainId = .evm event.chainId ∧
        (payment.blockNumber.any fun number => asI64 event.forkBlock ≤ number) = true ∧
          payment.reorged = false))) ∘
        fun payment => if payment.id ∈ marked then payment.retract else payment) →
      (if payment.id ∈ marked then payment.retract else payment) = payment := by
    intro payment mem
    obtain ⟨_, live⟩ := List.mem_filter.mp mem
    split
    next isMarked => simp [isMarked, Payment.retract] at live
    · rfl
  rw [List.map_congr_left same, List.map_id'']
  · refine List.filter_congr fun payment _ => ?_
    by_cases isMarked : payment.id ∈ marked
    · simp [isMarked, Payment.retract]
    · simp [isMarked]
  · exact fun _ => rfl

theorem mem_retractions_mid (state : Retracting base goal marked written mid) {payment : Payment} :
    payment ∈ retractions event mid ↔ payment ∈ retractions event base ∧ payment.id ∉ marked := by
  rw [retractions_mid state, List.mem_filter, decide_eq_true_eq]

theorem mem_planIds (delivery : Delivery) :
    id ∈ (retractionPlan delivery event base).flatMap groupIds ↔ id ∈ retractionIds event base := by
  rw [List.mem_flatMap]
  constructor
  · rintro ⟨group, memGroup, inside⟩
    obtain ⟨payment, memPayment, rfl⟩ := List.mem_map.mp inside
    obtain ⟨_, isRows⟩ := mem_byInvoice.mp (mem_arrange.mp memGroup)
    rw [isRows] at memPayment
    exact List.mem_map_of_mem (List.mem_filter.mp memPayment).1
  · intro mem
    obtain ⟨payment, memPayment, rfl⟩ := List.mem_map.mp mem
    obtain ⟨group, memGroup, _, inside⟩ := mem_retractionPlan delivery memPayment
    exact ⟨group, memGroup, List.mem_map_of_mem inside⟩

/-- The invoices a whole plan writes are the open ones it has payments of. -/
theorem mem_planOpened (delivery : Delivery) :
    invoiceId ∈ (retractionPlan delivery event base).flatMap (opened base) ↔
      (∃ payment ∈ retractions event base, payment.invoiceId = invoiceId) ∧
        isOpen base invoiceId = true := by
  rw [List.mem_flatMap]
  constructor
  · rintro ⟨group, memGroup, inside⟩
    obtain ⟨some, _⟩ := mem_byInvoice.mp (mem_arrange.mp memGroup)
    have same := eq_of_mem_opened inside
    rw [same]
    refine ⟨some, ?_⟩
    by_contra closed
    simp [opened, closed] at inside
  · rintro ⟨⟨payment, memPayment, rfl⟩, isOpen⟩
    obtain ⟨group, memGroup, same, _⟩ := mem_retractionPlan delivery memPayment
    exact ⟨group, memGroup, by simp [opened, same, isOpen]⟩

theorem filter_unmarked (isGroup : IsGroup base goal group)
    (front : ∀ payment ∈ base.payments.rows, payment.invoiceId = group.1 →
      (payment.id ∈ marked ↔ payment.id ∈ (group.2.take k).map Payment.id)) :
    group.2.filter (fun payment => decide (payment.id ∉ marked)) = group.2.drop k := by
  have frontOf : ∀ payment ∈ group.2, payment.id ∈ marked ↔
      payment.id ∈ (group.2.take k).map Payment.id := by
    intro payment mem
    obtain ⟨memBase, _, ofGroup⟩ := isGroup.rows payment mem
    exact front payment memBase ofGroup
  have split : group.2.take k ++ group.2.drop k = group.2 := List.take_append_drop k group.2
  have nodup := isGroup.distinct
  rw [← split, List.map_append, List.nodup_append] at nodup
  have taken : (group.2.take k).filter (fun payment => decide (payment.id ∉ marked)) = [] := by
    refine List.filter_eq_nil_iff.mpr fun payment mem => ?_
    have isMarked := (frontOf payment (List.mem_of_mem_take mem)).mpr (List.mem_map_of_mem mem)
    simpa using isMarked
  have left : (group.2.drop k).filter (fun payment => decide (payment.id ∉ marked)) =
      group.2.drop k := by
    refine List.filter_eq_self.mpr fun payment mem => ?_
    rw [decide_eq_true_eq, frontOf payment (List.mem_of_mem_drop mem)]
    exact fun inside => nodup.2.2 _ inside _ (List.mem_map_of_mem mem) rfl
  conv_lhs => rw [← split]
  rw [List.filter_append, taken, left, List.nil_append]

theorem group_rows (mem : group ∈ retractionPlan delivery event base) :
    group.2 = (retractions event base).filter fun payment => payment.invoiceId = group.1 :=
  (mem_byInvoice.mp (mem_arrange.mp mem)).2

section

variable (front : Front base (retractionPlan first event base) marked written)
  (state : Retracting base (retractionIds event base) marked written mid)
include front state

/-- The received amounts fit after each mark of the second delivery too. -/
theorem sinks_mid (sinks : ∀ group ∈ retractionPlan first event base, Sinks base group) :
    ∀ group ∈ retractionPlan second event mid, Sinks mid group := by
  intro group mem k high
  have plan := retractionPlan_isPlan first event base
  -- the group of the same invoice in the first plan
  obtain ⟨payment, memPayment⟩ := List.exists_mem_of_ne_nil _
    ((retractionPlan_isPlan second event mid).group group mem).nonempty
  rw [group_rows mem, List.mem_filter, decide_eq_true_eq, mem_retractions_mid state] at memPayment
  obtain ⟨whole, memWhole, sameInvoice, _⟩ := mem_retractionPlan first memPayment.1.1
  rw [memPayment.2] at sameInvoice
  obtain ⟨n, taken⟩ := front.take plan memWhole
  have isWhole := plan.group whole memWhole
  have isRest : group.2 = whole.2.drop n := by
    rw [← filter_unmarked isWhole taken, group_rows mem, group_rows memWhole, retractions_mid state,
      sameInvoice, List.filter_filter, List.filter_filter]
    exact List.filter_congr fun payment _ => Bool.and_comm _ _
  have within : n + k < whole.2.length := by
    rw [isRest, List.length_drop] at high
    omega
  have fits := sinks whole memWhole (n + k) within
  rw [SinksAt, state.payments, retractRows_retractRows, isRest]
  rw [SinksAt, Nat.add_assoc, List.take_add, List.map_append, sameInvoice] at fits
  rw [creditedTotal_retractRows_congr]
  · exact fits
  · intro other memOther ofGroup
    rw [List.mem_append, List.mem_append, taken other memOther (ofGroup.trans sameInvoice.symm)]

/-- The statuses a cut retraction has to write are the ones the second delivery writes, or lost. -/
theorem mem_resumed :
    invoiceId ∈ written ++
        (retractionPlan second event mid).flatMap (opened mid) ↔
      isOpen base invoiceId = true ∧
        (invoiceId ∈ written ∨
          ∃ payment ∈ retractions event mid, payment.invoiceId = invoiceId) := by
  have sameOpen : invoiceId ∉ written →
      isOpen mid invoiceId = isOpen base invoiceId := by
    intro unwritten
    have sameStatus := state.getInvoice_status unwritten
    unfold isOpen
    cases found : getInvoice invoiceId base with
    | none =>
      rw [found] at sameStatus
      rw [Option.map_eq_none_iff.mp sameStatus]
    | some invoice =>
      rw [found] at sameStatus
      obtain ⟨current, isCurrent, same⟩ := Option.map_eq_some_iff.mp sameStatus
      rw [isCurrent]
      simp [same]
  rw [List.mem_append, mem_planOpened second]
  by_cases isWritten : invoiceId ∈ written
  · obtain ⟨_, _, _, isOpen⟩ := front.mem_written isWritten
    exact iff_of_true (.inl isWritten) ⟨isOpen, .inl isWritten⟩
  · rw [sameOpen isWritten, or_iff_right isWritten, or_iff_right isWritten, and_comm]

end

/-- An uninterrupted retraction marks every payment and writes every open invoice. -/
theorem retraction_whole (delivery : Delivery) (clock : Nat → Time)
    (verifiable : event.survivorsVerifiable = true)
    (sinks : ∀ group ∈ retractionPlan delivery event base, Sinks base group) :
    (handleReorgDetected delivery event (Proc.uninterrupted clock) 0 base).result = .ok () ∧
      Retracting base (retractionIds event base)
        ((retractionPlan delivery event base).flatMap groupIds)
        ((retractionPlan delivery event base).flatMap (opened base))
        (handleReorgDetected delivery event (Proc.uninterrupted clock) 0 base).state := by
  rcases handleReorgDetected_cases delivery verifiable (Proc.uninterrupted clock) base with
    ⟨e, fault, _⟩ | ⟨ending, _⟩
  · cases fault
  cases ending with
  | whole db' ends _ _ state =>
    rw [ends]
    exact ⟨rfl, state⟩
  | inside done _ group n e db' split _ _ _ _ why =>
    cases why (sinks group (by simp [split]) n)

/-- However a retraction ends, its progress is a front of its plan, and only a cut loses a status. -/
theorem retraction_front (delivery : Delivery) (world : World EventConsumerError Time)
    (verifiable : event.survivorsVerifiable = true) :
    let plan := retractionPlan delivery event base
    let goal := retractionIds event base
    ∃ marked written, Front base plan marked written ∧
      Retracting base goal marked written (handleReorgDetected delivery event world 0 base).state ∧
      (Lost base goal plan marked written → ∃ cut e, Proc.Answered world 0 cut ∧ world cut = .error e ∧
        LosesStatus base goal cut 1 plan) ∧
      ((∀ group ∈ plan, Sinks base group) → ∀ cut e, Proc.Answered world 0 cut → world cut = .error e →
        LosesStatus base goal cut 1 plan → Lost base goal plan marked written) := by
  intro groups goal
  have plan : IsPlan base goal groups := retractionPlan_isPlan delivery event base
  rcases handleReorgDetected_cases delivery verifiable world base with ⟨e, fault, outcome⟩ | ⟨ending, first⟩
  · -- not even the candidates were read
    refine ⟨[], [], .mk [] groups [] rfl (.inl rfl), by rw [outcome]; exact Retracting.start base _, ?_, ?_⟩
    · exact fun lost => absurd rfl (Lost.part [] plan lost).1
    · intro _ cut e' answered _ loses
      rcases Nat.eq_zero_or_pos cut with rfl | begun
      · exact absurd loses (not_losesStatus_of_lt Nat.one_pos)
      · exact absurd fault (answered.ne_error (Nat.zero_le _) (by omega) e)
  cases ending with
  | whole db' ends answered _ state =>
    have front : Front base groups _ _ := .mk groups [] [] (List.append_nil _).symm (.inl rfl)
    rw [List.append_nil] at front
    refine ⟨_, _, front, by rw [ends]; exact state, fun lost => ?_, fun _ cut e' answered' fault loses => ?_⟩
    · rw [← List.append_nil groups] at plan
      exact absurd rfl (Lost.part groups plan (by simpa using lost)).1
    have within : Proc.Answered world 0 (1 + totalCalls base groups) := first.append answered
    have late : 1 + totalCalls base groups ≤ cut := by
      by_contra early
      exact within.ne_error (Nat.zero_le _) (by omega) e' fault
    rw [← List.append_nil groups, losesStatus_append late] at loses
    exact loses.elim
  | inside done back group n e db' split short ends answered state why =>
    have isGroups : groups = done ++ group :: back := split
    have answered := first.append answered
    rw [isGroups] at plan ⊢
    have loses : LosesStatus base goal (1 + (totalCalls base done + n)) 1 (done ++ group :: back) ↔
        group.2.length ≤ n ∧ MovesBack base goal group.1 := by
      rw [losesStatus_append (by omega), LosesStatus,
        or_iff_left (not_losesStatus_of_lt (by omega))]
      constructor
      · exact fun ⟨low, _, moves⟩ => ⟨by omega, moves⟩
      · rintro ⟨low, moves⟩
        simp only [groupCalls, moves.isOpen, if_true] at short
        exact ⟨by omega, by omega, moves⟩
    refine ⟨_, _, .mk done _ _ rfl (.inr ⟨group, List.mem_cons_self, n, rfl⟩), by rw [ends]; exact state, ?_, ?_⟩
    · intro lost
      obtain ⟨long, moves⟩ := (lost.part done plan).2 group List.mem_cons_self n rfl
      exact ⟨_, e, answered, why fun early => absurd long (by omega), loses.mpr ⟨long, moves⟩⟩
    intro sinks cut e' answered' fault lost
    have stopped := why (sinks group (by simp) n)
    obtain ⟨rfl, _⟩ := answered'.first_fault (Nat.zero_le _) answered (by rwa [Nat.zero_add]) fault
    rw [Nat.zero_add, loses] at lost
    refine ⟨group, by simp, lost.2, (plan.apart List.mem_cons_self).2, fun payment mem => ?_⟩
    rw [List.take_of_length_le lost.1]
    exact List.mem_append_right _ (List.mem_map_of_mem mem)

/-- A cut retraction has made the progress its calls allow. -/
theorem retraction_cut (delivery : Delivery) (clock : Nat → Time) (cut : Nat)
    (verifiable : event.survivorsVerifiable = true)
    (sinks : ∀ group ∈ retractionPlan delivery event base, Sinks base group) :
    ∃ marked written, Front base (retractionPlan delivery event base) marked written ∧
      Retracting base (retractionIds event base) marked written
        (handleReorgDetected delivery event (Proc.crashAfter cut .stopped clock) 0 base).state ∧
      (Lost base (retractionIds event base) (retractionPlan delivery event base) marked written ↔
        LosesStatus base (retractionIds event base) cut 1 (retractionPlan delivery event base)) := by
  have answered := Proc.answered_crashAfter cut EventConsumerError.stopped clock
  have stopped : Proc.crashAfter cut EventConsumerError.stopped clock cut = .error .stopped :=
    Proc.crashAfter_of_le _ _ le_rfl
  obtain ⟨marked, written, front, state, loses, lost⟩ := retraction_front delivery
    (Proc.crashAfter cut .stopped clock) verifiable
  refine ⟨marked, written, front, state, fun isLost => ?_, lost sinks cut _ answered stopped⟩
  obtain ⟨cut', e, answered', fault, isLoss⟩ := loses isLost
  obtain ⟨rfl, _⟩ := answered.first_fault (Nat.zero_le _) answered' (by rwa [Nat.zero_add]) stopped
  rwa [Nat.zero_add]

theorem retraction_resumed (first second : Delivery) (clock' : Nat → Time)
    (verifiable : event.survivorsVerifiable = true)
    (sinks : ∀ group ∈ retractionPlan first event base, Sinks base group)
    (front : Front base (retractionPlan first event base) marked written)
    (state : Retracting base (retractionIds event base) marked written mid) :
    (handleReorgDetected second event (Proc.uninterrupted clock') 0 mid).result = .ok () ∧
      ∃ marked, (∀ payment ∈ base.payments.rows,
          payment.id ∈ marked ↔ payment.id ∈ retractionIds event base) ∧
        Retracting base (retractionIds event base) marked
          (written ++
            (retractionPlan second event mid).flatMap (opened mid))
          (handleReorgDetected second event (Proc.uninterrupted clock') 0 mid).state := by
  obtain ⟨succeeds, later⟩ := retraction_whole second clock' verifiable (sinks_mid front state sinks)
  have resumes : ∀ payment ∈ base.payments.rows, payment.id ∈ retractionIds event base ↔
      payment.id ∈ marked ∨
        payment.id ∈ retractionIds event mid := by
    intro payment mem
    constructor
    · intro inside
      by_cases isMarked : payment.id ∈ marked
      · exact .inl isMarked
      · right
        have left := (mem_retractions_mid state).mpr ⟨(mem_retractionIds mem).mp inside, isMarked⟩
        exact List.mem_map_of_mem left
    rintro (isMarked | left)
    · exact (mem_planIds first).mp (List.mem_flatMap.mpr (front.mem_marked isMarked))
    · obtain ⟨other, memOther, same⟩ := List.mem_map.mp left
      rw [← same]
      exact List.mem_map_of_mem ((mem_retractions_mid state).mp memOther).1
  refine ⟨succeeds, _, ?_, state.trans later fun payment mem _ => resumes payment mem⟩
  intro payment mem
  rw [resumes payment mem, List.mem_append, mem_planIds second]

/-- The second delivery ends with every status one retraction writes, unless the cut lost one. -/
theorem resumed_status_iff (first second delivery : Delivery)
    (front : Front base (retractionPlan first event base) marked written)
    (state : Retracting base (retractionIds event base) marked written mid) :
    (∀ invoice ∈ base.invoices.rows,
      (if invoice.id ∈ written ++
          (retractionPlan second event mid).flatMap (opened mid) then
        statusAfter base (retractionIds event base) invoice.id else invoice.status) =
      if invoice.id ∈ (retractionPlan delivery event base).flatMap (opened base) then
        statusAfter base (retractionIds event base) invoice.id else invoice.status) ↔
      ¬ Lost base (retractionIds event base) (retractionPlan first event base) marked written := by
  constructor
  · rintro same ⟨group, memGroup, ⟨invoice, found, isNotClosed, moves⟩, unwritten, marked⟩
    obtain ⟨memInvoice, isId⟩ := Table.find?_eq_some.mp found
    have hasPayment := (mem_byInvoice.mp (mem_arrange.mp memGroup)).1
    have inWhole : invoice.id ∈ (retractionPlan delivery event base).flatMap (opened base) := by
      rw [isId, mem_planOpened]
      exact ⟨hasPayment, by simp [isOpen_iff found, isNotClosed]⟩
    have notResumed : invoice.id ∉ written ++
        (retractionPlan second event mid).flatMap (opened mid) := by
      rw [isId, mem_resumed front state]
      rintro ⟨_, isWritten | ⟨payment, memPayment, ofInvoice⟩⟩
      · exact unwritten isWritten
      · obtain ⟨toRetract, unmarked⟩ := (mem_retractions_mid state).mp memPayment
        refine unmarked (marked payment ?_)
        rw [group_rows memGroup]
        exact List.mem_filter.mpr ⟨toRetract, by simpa using ofInvoice⟩
    have sameStatus := same invoice memInvoice
    rw [if_neg notResumed, if_pos inWhole, isId] at sameStatus
    exact moves sameStatus
  intro kept invoice memInvoice
  have found : getInvoice invoice.id base = some invoice := Table.find?_of_mem memInvoice
  by_cases inWhole : invoice.id ∈ (retractionPlan delivery event base).flatMap (opened base)
  · rw [if_pos inWhole]
    split
    · rfl
    next notResumed =>
      rw [mem_resumed front state] at notResumed
      obtain ⟨⟨payment, memPayment, ofInvoice⟩, isOpen⟩ := (mem_planOpened delivery).mp inWhole
      by_contra moves
      obtain ⟨group, memGroup, same, _⟩ := mem_retractionPlan first memPayment
      rw [ofInvoice] at same
      refine kept ⟨group, memGroup, ?_, ?_, ?_⟩
      · rw [same]
        exact ⟨invoice, found, by simpa [isOpen_iff found] using isOpen, moves⟩
      · rw [same]
        exact fun isWritten => notResumed ⟨isOpen, .inl isWritten⟩
      intro other memOther
      by_contra unmarked
      rw [group_rows memGroup, List.mem_filter, decide_eq_true_eq, same] at memOther
      exact notResumed ⟨isOpen, .inr ⟨other, (mem_retractions_mid state).mpr
        ⟨memOther.1, unmarked⟩, memOther.2⟩⟩
  rw [if_neg inWhole]
  split
  next resumed =>
    rw [mem_resumed front state] at resumed
    refine absurd ((mem_planOpened delivery).mpr ⟨?_, resumed.1⟩) inWhole
    rcases resumed.2 with isWritten | ⟨payment, memPayment, ofInvoice⟩
    · obtain ⟨group, memGroup, same, _⟩ := front.mem_written isWritten
      rw [← same]
      exact (mem_byInvoice.mp (mem_arrange.mp memGroup)).1
    · exact ⟨payment, ((mem_retractions_mid state).mp memPayment).1, ofInvoice⟩
  · rfl

/-- A retraction that went through kept every total within its column. -/
theorem sinks_of_succeeds {clock : Nat → Time} (verifiable : event.survivorsVerifiable = true)
    (succeeds : (handleReorgDetected delivery event (Proc.uninterrupted clock) 0 base).result = .ok ()) :
    ∀ group ∈ retractionPlan delivery event base, Sinks base group := by
  rcases handleReorgDetected_cases delivery verifiable (Proc.uninterrupted clock) base with
    ⟨e, fault, _⟩ | ⟨ending, _⟩
  · cases fault
  cases ending with
  | whole _ _ _ sinks _ => exact sinks
  | inside _ _ _ _ _ _ _ _ ends _ _ _ =>
    rw [ends] at succeeds
    cases succeeds

end Resumed

end EthPayServer.Consumer
