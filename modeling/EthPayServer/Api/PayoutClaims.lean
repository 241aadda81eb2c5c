import EthPayServer.Api.Payouts

/-!
# One claim per invoice, one outcome per payout

Both hold as long as no other request comes between what a request read and
the write that relies on it, and neither holds without that: the checks and
the writes are separate statements, and no constraint of the table repeats
the check.
-/

namespace EthPayServer.Api

open Lib Data
open Evm (Time Uuid)

/-! ## Claims -/

def ClaimedOnce (ledger : Ledger) : Prop :=
  ∀ payout ∈ ledger.payouts.rows, ∀ other ∈ ledger.payouts.rows, payout.storeId = other.storeId →
    payout.status ≠ .failed → other.status ≠ .failed →
    ∀ invoiceId ∈ payout.invoiceIds, invoiceId ∈ other.invoiceIds → payout = other

/-- The payout holds its claims, as the pending payout did that the request read. -/
def NotReleased (payoutId : Uuid) (ledger : Ledger) : Prop :=
  ∀ payout ∈ ledger.payouts.rows, payout.id = payoutId → payout.status ≠ .failed

def claimsAsRead : PayoutRequest → Ledger → Prop
  | .create _ storeId body _ => fun ledger => ledger.invoiceIdsAlreadyClaimed storeId body.invoiceIds = []
  | .settle _ _ payoutId _ => NotReleased payoutId
  | .abandon _ _ _ _ => fun _ => True

/-- The requests, from any table in which no invoice is claimed twice. -/
abbrev claimsDesk : Service PayoutRequest Time StatusCode Ledger Payout :=
  payoutDesk ClaimedOnce claimsAsRead

variable {ledger after : Ledger}

theorem ClaimedOnce.create {payout : Payout} (once : ClaimedOnce ledger)
    (unclaimed : ledger.invoiceIdsAlreadyClaimed payout.storeId payout.invoiceIds = [])
    (done : Ledger.createPayout payout ledger = .ok ((), after)) : ClaimedOnce after := by
  obtain ⟨rows, -, -, -⟩ := Ledger.createPayout_ok done
  have free : ∀ other ∈ ledger.payouts.rows, other.storeId = payout.storeId → other.status ≠ .failed →
      ∀ invoiceId ∈ payout.invoiceIds, invoiceId ∉ other.invoiceIds := by
    intro other mem sameStore live invoiceId named namedToo
    have claimed : invoiceId ∈ ledger.invoiceIdsAlreadyClaimed payout.storeId payout.invoiceIds :=
      Ledger.mem_invoiceIdsAlreadyClaimed.mpr ⟨other, mem, sameStore, live, namedToo, named⟩
    rw [unclaimed] at claimed
    cases claimed
  intro one memOne two memTwo sameStore liveOne liveTwo invoiceId namedOne namedTwo
  rw [rows, List.mem_append, List.mem_singleton] at memOne memTwo
  rcases memOne with oldOne | rfl
  · rcases memTwo with oldTwo | rfl
    · exact once one oldOne two oldTwo sameStore liveOne liveTwo invoiceId namedOne namedTwo
    · exact absurd namedOne (free one oldOne sameStore liveOne invoiceId namedTwo)
  · rcases memTwo with oldTwo | rfl
    · exact absurd namedTwo (free two oldTwo sameStore.symm liveTwo invoiceId namedOne)
    · rfl

variable {txHash message : Option Text}

theorem ClaimedOnce.update {payoutId : Uuid} {status : PayoutStatus} (once : ClaimedOnce ledger)
    (revives : status = .failed ∨ NotReleased payoutId ledger)
    (done : Ledger.updatePayoutStatus payoutId status txHash none message ledger = .ok ((), after)) :
    ClaimedOnce after := by
  cases done
  have live : ∀ old ∈ ledger.payouts.rows,
      (old.withStatus payoutId status txHash none message).status ≠ .failed → old.status ≠ .failed := by
    intro old mem
    unfold Payout.withStatus
    split
    next isPayout =>
      rcases revives with rfl | held
      · exact fun alive => absurd rfl alive
      · exact fun _ => held old mem isPayout
    · exact id
  intro one memOne two memTwo
  obtain ⟨oldOne, memOldOne, rfl⟩ := List.mem_map.mp memOne
  obtain ⟨oldTwo, memOldTwo, rfl⟩ := List.mem_map.mp memTwo
  obtain ⟨-, storeOne, invoicesOne⟩ := oldOne.withStatus_keeps payoutId status txHash none message
  obtain ⟨-, storeTwo, invoicesTwo⟩ := oldTwo.withStatus_keeps payoutId status txHash none message
  rw [storeOne, storeTwo, invoicesOne, invoicesTwo]
  intro sameStore liveOne liveTwo invoiceId namedOne namedTwo
  rw [once oldOne memOldOne oldTwo memOldTwo sameStore (live oldOne memOldOne liveOne)
    (live oldTwo memOldTwo liveTwo) invoiceId namedOne namedTwo]

theorem claims_sound :
    (Service.Spec.plain claimsDesk ClaimedOnce fun _ before after =>
      ClaimedOnce before → ClaimedOnce after).Sound := by
  refine .plain id (fun once kept => kept once) ?_
  intro request _ ledger _
  refine (request.thread_writes (R := fun before after => ClaimedOnce before → ClaimedOnce after) (fun _ => id)
    ?_).meets (fun _ kept => kept) ledger
  intro before after relied write once
  cases write with
  | created sameStore sameInvoices done =>
    refine once.create ?_ done
    rw [sameStore, sameInvoices]
    exact relied
  | settled done => exact once.update (.inr relied) done
  | abandoned done => exact once.update (.inl rfl) done

/--
No invoice is paid out twice, in every run in which the claims are still as
they were read when a payout is inserted or settled.
-/
theorem no_invoice_paid_out_twice
    {pool : Pool PayoutRequest Time StatusCode Ledger Payout}
    (reached : claimsDesk.timely.Reachable pool) : ClaimedOnce pool.shared :=
  (claims_sound.holds reached).invariant

def paidLedger : Ledger where
  db := { Db.empty with
    invoices := ⟨[⟨1, 10, ⟨5, by decide⟩, ⟨5, by decide⟩, .paid, 100⟩], by decide⟩
    payments := ⟨[{
      id := 7, invoiceId := 1, paymentOptionId := none, chainId := .evm 1, assetType := .native
      assetSymbol := ⟨"ETH".toList, by decide⟩, tokenAddress := none, amount := ⟨5, by decide⟩
      txHash := ⟨[], by decide⟩, txIndex := 0, blockNumber := some 3, detectedAt := 20
      confirmedAt := some 30, fromAddress := none, reorged := false, extra := none
      creditedAmount := none, rateUsed := none, rateAppliedAt := none }], by decide⟩
    uniquePaymentTx := by decide
    paymentInvoice := by decide
    paymentOption := by decide
    optionInvoice := by simp [Db.empty] }
  users := ⟨[⟨2, true⟩], by decide⟩
  stores := ⟨[⟨10, 2⟩], by decide⟩
  userStores := []
  payouts := Table.empty
  refunds := Table.empty

def payoutBody : CreatePayoutRequest := ⟨[1], "0xfeed".toList, .evm 1, "ETH".toList, none⟩

/-- Ask for a payout of the invoice, under a given id. -/
def payoutOfOne (id : Uuid) : PayoutRequest := .create ⟨2, true⟩ 10 payoutBody ⟨id, 40⟩

/-- Two requests read the claims before either inserts. -/
def racedPool : Pool PayoutRequest Time StatusCode Ledger Payout :=
  claimsDesk.after paidLedger
    ([.start (payoutOfOne 51), .start (payoutOfOne 52)] ++ List.replicate 3 (.run 0 (.ok 40)) ++
      List.replicate 4 (.run 1 (.ok 40)) ++ [.run 0 (.ok 40)])

theorem paidLedger_claimedOnce : ClaimedOnce paidLedger := by
  intro payout mem
  cases mem

theorem racedPool_claims_twice :
    claimsDesk.system.Reachable racedPool ∧ ¬ ClaimedOnce racedPool.shared := by
  constructor
  · exact Service.reachable_of_answered paidLedger_claimedOnce onlyFaults_of_answered (by decide)
  intro once
  have rows : racedPool.shared.payouts.rows =
      [newPayout 10 payoutBody ⟨52, 40⟩ 5, newPayout 10 payoutBody ⟨51, 40⟩ 5] := rfl
  have same := once (newPayout 10 payoutBody ⟨52, 40⟩ 5) (by simp [rows])
    (newPayout 10 payoutBody ⟨51, 40⟩ 5) (by simp [rows]) rfl (by decide) (by decide) 1 (by decide)
    (by decide)
  exact absurd (congrArg Payout.id same) (by decide)

/-- A payout that is given up, one of the same invoice after it, and a third request that is refused. -/
def claimedPool : Pool PayoutRequest Time StatusCode Ledger Payout :=
  claimsDesk.after paidLedger
    (.start (payoutOfOne 51) :: List.replicate 4 (.run 0 (.ok 40)) ++
      .start (.abandon ⟨2, true⟩ 10 51 none) :: List.replicate 3 (.run 1 (.ok 40)) ++
      .start (payoutOfOne 52) :: List.replicate 4 (.run 2 (.ok 40)) ++
      .start (payoutOfOne 53) :: List.replicate 4 (.run 3 (.ok 40)))

theorem claimedPool_claims_once :
    claimedPool.shared.payouts.rows.map (fun payout => (payout.id, payout.status)) =
        [(51, .failed), (52, .pending)] ∧
      ClaimedOnce claimedPool.shared := by
  refine ⟨rfl, no_invoice_paid_out_twice (Service.timely_of_path paidLedger_claimedOnce ?_)⟩
  have answered : OnlyFaults (.ok 40 : Answer StatusCode Time) := onlyFaults_of_answered rfl
  repeat' apply And.intro
  all_goals first | trivial | exact answered | (rintro running ⟨⟩; trivial)

/-! ## Outcomes -/

/-- The payout is pending, as the request that updates it read. -/
def StillPending (payoutId : Uuid) (ledger : Ledger) : Prop :=
  ∀ payout ∈ ledger.payouts.rows, payout.id = payoutId → payout.status = .pending

def statusAsRead : PayoutRequest → Ledger → Prop
  | .create _ _ _ _ => fun _ => True
  | .settle _ _ payoutId _ => StillPending payoutId
  | .abandon _ _ payoutId _ => StillPending payoutId

abbrev outcomesDesk : Service PayoutRequest Time StatusCode Ledger Payout :=
  payoutDesk (fun _ => True) statusAsRead

/-- What a payout may have become: a pending one may have ended, an outcome stays with its hash. -/
structure PayoutOutcome (payout later : Payout) : Prop where
  id : later.id = payout.id
  status : later.status ≠ payout.status →
    payout.status = .pending ∧ (later.status = .confirmed ∨ later.status = .failed)
  txHash : payout.status ≠ .pending → later.txHash = payout.txHash

theorem PayoutOutcome.refl (payout : Payout) : PayoutOutcome payout payout :=
  ⟨rfl, fun differs => absurd rfl differs, fun _ => rfl⟩

theorem PayoutOutcome.trans {payout later last : Payout} (first : PayoutOutcome payout later)
    (second : PayoutOutcome later last) : PayoutOutcome payout last := by
  refine ⟨second.id.trans first.id, ?_, ?_⟩
  · intro differs
    by_cases same : later.status = payout.status
    · rw [← same] at differs ⊢
      exact second.status differs
    obtain ⟨pending, ended⟩ := first.status same
    refine ⟨pending, ?_⟩
    by_cases stays : last.status = later.status
    · rw [stays]
      exact ended
    · exact (second.status stays).2
  intro ended
  have same : later.status = payout.status := by
    by_contra differs
    exact ended (first.status differs).1
  rw [second.txHash (same ▸ ended), first.txHash ended]

/-- Every payout of the first state has an outcome in the second. -/
def OutcomesFinal (before after : Ledger) : Prop :=
  ∀ payout ∈ before.payouts.rows, ∃ later ∈ after.payouts.rows, PayoutOutcome payout later

theorem OutcomesFinal.refl (ledger : Ledger) : OutcomesFinal ledger ledger :=
  fun payout mem => ⟨payout, mem, .refl payout⟩

theorem OutcomesFinal.trans {first second third : Ledger} (early : OutcomesFinal first second)
    (late : OutcomesFinal second third) : OutcomesFinal first third := by
  intro payout mem
  obtain ⟨later, memLater, became⟩ := early payout mem
  obtain ⟨last, memLast, ended⟩ := late later memLater
  exact ⟨last, memLast, became.trans ended⟩

theorem OutcomesFinal.update {payoutId : Uuid} {status : PayoutStatus} (pending : StillPending payoutId ledger)
    (ends : status = .confirmed ∨ status = .failed)
    (done : Ledger.updatePayoutStatus payoutId status txHash none message ledger = .ok ((), after)) :
    OutcomesFinal ledger after := by
  cases done
  intro payout mem
  refine ⟨_, List.mem_map_of_mem mem, ?_⟩
  unfold Payout.withStatus
  split
  next isPayout =>
    have wasPending := pending payout mem isPayout
    exact ⟨rfl, fun _ => ⟨wasPending, ends⟩, fun ended => absurd wasPending ended⟩
  · exact .refl payout

theorem outcomes_sound :
    (Service.Spec.plain outcomesDesk (fun _ => True) fun _ => OutcomesFinal).Sound := by
  refine .plain id (fun _ _ => trivial) ?_
  intro request _ ledger _
  refine (request.thread_writes OutcomesFinal.refl ?_).meets (fun _ kept => kept) ledger
  intro before after relied write
  cases write with
  | created sameStore sameInvoices done =>
    obtain ⟨rows, -, -, -⟩ := Ledger.createPayout_ok done
    intro old mem
    exact ⟨old, rows ▸ List.mem_append_left _ mem, .refl old⟩
  | settled done => exact .update relied (.inl rfl) done
  | abandoned done => exact .update relied (.inr rfl) done

theorem outcomes_of_step {pool pool' : Pool PayoutRequest Time StatusCode Ledger Payout}
    {action : PoolAction PayoutRequest Time StatusCode}
    (reached : outcomesDesk.timely.Reachable pool)
    (step : outcomesDesk.timely.step pool action pool') :
    OutcomesFinal pool.shared pool'.shared := by
  cases action with
  | start request =>
    obtain ⟨⟨-, rfl⟩, -⟩ := step
    exact .refl _
  | run index answer =>
    rcases (outcomes_sound.holds reached).guarantees outcomes_sound step.1 fun _ => step.2 with
      same | ⟨_, _, kept⟩
    · rw [same]
      exact .refl _
    · exact kept

/--
Payout outcomes are final, in every run in which a payout is still pending
when a settlement or an abandonment updates it.
-/
theorem payout_outcomes_final {pool pool' : Pool PayoutRequest Time StatusCode Ledger Payout}
    (reached : outcomesDesk.timely.Reachable pool)
    (run : outcomesDesk.timely.Run pool pool') :
    OutcomesFinal pool.shared pool'.shared := by
  induction run with
  | refl => exact .refl _
  | tail before move ih =>
    obtain ⟨action, step⟩ := move
    exact ih.trans (outcomes_of_step (reached.run before) step)

def pendingLedger : Ledger :=
  { paidLedger with payouts := ⟨[newPayout 10 payoutBody ⟨51, 40⟩ 5], by decide⟩ }

/-- Two settlements read the pending payout, and the first updates it. -/
def settledPool : Pool PayoutRequest Time StatusCode Ledger Payout :=
  outcomesDesk.after pendingLedger
    [.start (.settle ⟨2, true⟩ 10 51 "0xaa".toList), .start (.settle ⟨2, true⟩ 10 51 "0xbb".toList),
      .run 0 (.ok 50), .run 1 (.ok 50), .run 0 (.ok 50)]

/-- The second settlement updates it again. -/
def resettledPool : Pool PayoutRequest Time StatusCode Ledger Payout :=
  settledPool.perform outcomesDesk.body (.run 1 (.ok 51))

theorem settledPool_overwritten :
    outcomesDesk.system.Reachable settledPool ∧ outcomesDesk.system.Run settledPool resettledPool ∧
      ¬ OutcomesFinal settledPool.shared resettledPool.shared := by
  have answered : OnlyFaults (.ok 51 : Answer StatusCode Time) := onlyFaults_of_answered rfl
  refine ⟨Service.reachable_of_answered trivial onlyFaults_of_answered (by decide), ?_, ?_⟩
  · have step : outcomesDesk.system.step settledPool (.run 1 (.ok 51)) resettledPool := ⟨answered, rfl⟩
    exact (System.Run.refl _).snoc step
  intro final
  obtain ⟨later, mem, became⟩ := final
    { newPayout 10 payoutBody ⟨51, 40⟩ 5 with status := .confirmed, txHash := some "0xaa".toList }
    (List.mem_singleton.mpr rfl)
  rw [List.mem_singleton.mp mem] at became
  exact absurd (became.txHash (by decide)) (by decide)

def settledAlone : Pool PayoutRequest Time StatusCode Ledger Payout :=
  outcomesDesk.after pendingLedger
    [.start (.settle ⟨2, true⟩ 10 51 "0xaa".toList), .run 0 (.ok 50), .run 0 (.ok 50)]

theorem settledAlone_final :
    (settledAlone.shared.payouts.rows.map Payout.status = [.confirmed]) ∧
      OutcomesFinal pendingLedger settledAlone.shared := by
  have answered : OnlyFaults (.ok 50 : Answer StatusCode Time) := onlyFaults_of_answered rfl
  have begins : outcomesDesk.timely.Reachable ⟨pendingLedger, []⟩ := .of_initial ⟨trivial, rfl⟩
  refine ⟨rfl, payout_outcomes_final begins (System.Path.run ?_)⟩
  refine ⟨⟨⟨trivial, rfl⟩, trivial⟩, ⟨⟨answered, rfl⟩, ?_⟩, ⟨⟨answered, rfl⟩, ?_⟩, trivial⟩
  · rintro running ⟨⟩
    trivial
  · rintro running ⟨⟩ payout mem -
    rw [List.mem_singleton.mp mem]
    rfl

/-! ## What a payout is worth -/

/-- A confirmed payment that stands, on the payout's chain. -/
def IsPaid (body : CreatePayoutRequest) (payment : Payment) : Prop :=
  payment.confirmedAt.isSome ∧ payment.reorged = false ∧ payment.chainId = body.chainId

/-- The payment is in the payout's asset: in the same contract, or native as the payout is. -/
def IsInAsset (body : CreatePayoutRequest) (payment : Payment) : Prop :=
  (payment.tokenAddress.map fun token => lower token.val) = body.tokenAddress.map lower

instance (body : CreatePayoutRequest) (payment : Payment) : Decidable (IsPaid body payment) := by
  unfold IsPaid
  infer_instance

instance (body : CreatePayoutRequest) (payment : Payment) : Decidable (IsInAsset body payment) := by
  unfold IsInAsset
  infer_instance

/-- What the invoices of a request received in its asset: the raw amounts, each payment once. -/
def receivedTotal (body : CreatePayoutRequest) (db : Db) : Nat :=
  ((db.payments.rows.filter fun payment =>
      payment.invoiceId ∈ body.invoiceIds ∧ IsPaid body payment ∧ IsInAsset body payment).map
    fun payment => payment.amount.units.toNat).sum

/-- The payments `sum_payable` counts. -/
def countsSymbol (body : CreatePayoutRequest) (payment : Payment) : Bool :=
  IsPaid body payment ∧ payment.assetSymbol.val = body.assetSymbol

/-- What a payment adds to a payout: what it reads as, if `sum_payable` counts it. -/
def payableAmount (body : CreatePayoutRequest) (payment : Payment) : Nat :=
  if countsSymbol body payment then (parseU256 payment.amount.units).getD 0 else 0

/-- What `payable_total` adds up: every payment as often as its invoice is listed. -/
def listedTotal (body : CreatePayoutRequest) (invoiceIds : List Uuid) (db : Db) : Nat :=
  (db.payments.rows.map fun payment => invoiceIds.count payment.invoiceId * payableAmount body payment).sum

section Worth

variable {invoiceId storeId : Uuid} {invoiceIds : List Uuid} {ledger after : Ledger}
  {body : CreatePayoutRequest} {total result : Nat}

theorem listedTotal_cons (invoiceId : Uuid) (invoiceIds : List Uuid) (db : Db) :
    listedTotal body (invoiceId :: invoiceIds) db =
      listedTotal body [invoiceId] db + listedTotal body invoiceIds db := by
  unfold listedTotal
  rw [← List.sum_map_add]
  refine congrArg List.sum (List.map_congr_left fun payment _ => ?_)
  rw [← Nat.add_mul, List.count_cons, List.count_cons, List.count_nil]
  congr 1
  omega

theorem foldl_addU256 (amounts : List Nat) (small : total < 2 ^ 256) :
    amounts.foldl (fun total amount => (total + amount) % 2 ^ 256) total = (total + amounts.sum) % 2 ^ 256 := by
  induction amounts generalizing total with
  | nil => exact (Nat.mod_eq_of_lt small).symm
  | cons amount rest ih =>
    rw [List.foldl_cons, ih (Nat.mod_lt _ (by decide)), Nat.mod_add_mod, List.sum_cons, Nat.add_assoc]

theorem sumPayable_eq : sumPayable (ledger.getValidForInvoice invoiceId) body.chainId body.assetSymbol =
    listedTotal body [invoiceId] ledger.db % 2 ^ 256 := by
  rw [sumPayable, foldl_addU256 _ (by decide), Nat.zero_add, Ledger.getValidForInvoice, listedTotal]
  congr 1
  induction ledger.db.payments.rows with
  | nil => rfl
  | cons payment rest ih =>
    rw [List.map_cons, List.sum_cons, ← ih]
    simp only [payableAmount, countsSymbol, IsPaid, List.filter_cons, List.count_cons, List.count_nil]
    cases parsed : parseU256 payment.amount.units <;> grind

theorem payableTotal_yields (small : total < 2 ^ 256)
    (ends : (payableTotal storeId body.chainId body.assetSymbol invoiceIds total).Yields ledger result after) :
    result = (total + listedTotal body invoiceIds ledger.db) % 2 ^ 256 := by
  induction invoiceIds generalizing total with
  | nil =>
    obtain ⟨rfl, _⟩ := ends.of_pure
    simpa [listedTotal] using (Nat.mod_eq_of_lt small).symm
  | cons invoiceId rest ih =>
    obtain ⟨found, _, reads, ends⟩ := ends.of_bind
    cases Thread.ReadOnly.of_yields (.query _) reads
    cases found with
    | none => exact ends.of_fail.elim
    | some invoice =>
      simp only at ends
      split at ends
      · exact ends.of_fail.elim
      obtain ⟨payments, _, reads, ends⟩ := ends.of_bind
      cases Thread.ReadOnly.of_yields (.query _) reads
      obtain ⟨_, isRows⟩ := reads.of_statement
      cases isRows
      rw [ih (Nat.mod_lt _ (by decide)) ends, sumPayable_eq, listedTotal_cons invoiceId rest, Nat.mod_add_mod]
      omega

/-- A payment that counts as it should: of an invoice listed once, by symbol as by contract. -/
def CountsRight (body : CreatePayoutRequest) (payment : Payment) : Prop :=
  (payment.assetSymbol.val = body.assetSymbol ↔ IsInAsset body payment) ∧
    (IsInAsset body payment → body.invoiceIds.count payment.invoiceId = 1)

theorem listedTotal_eq (fits : receivedTotal body ledger.db < 2 ^ 256)
    (right : ∀ payment ∈ ledger.db.payments.rows, payment.invoiceId ∈ body.invoiceIds →
      IsPaid body payment → CountsRight body payment) :
    listedTotal body body.invoiceIds ledger.db = receivedTotal body ledger.db := by
  have split : receivedTotal body ledger.db = (ledger.db.payments.rows.map fun payment =>
      if payment.invoiceId ∈ body.invoiceIds ∧ IsPaid body payment ∧ IsInAsset body payment then
        payment.amount.units.toNat else 0).sum := by
    unfold receivedTotal
    induction ledger.db.payments.rows with
    | nil => rfl
    | cons payment rest ih =>
      rw [List.map_cons, List.sum_cons, ← ih, List.filter_cons]
      grind
  rw [split] at fits ⊢
  unfold listedTotal
  refine congrArg List.sum (List.map_congr_left fun payment mem => ?_)
  have small := (List.single_le_sum (fun _ _ => Nat.zero_le _) _ (List.mem_map_of_mem mem)).trans_lt fits
  by_cases paid : payment.invoiceId ∈ body.invoiceIds ∧ IsPaid body payment
  · obtain ⟨sameAsset, once⟩ := right payment mem paid.1 paid.2
    by_cases inAsset : IsInAsset body payment
    · rw [if_pos ⟨paid.1, paid.2, inAsset⟩] at small ⊢
      simp only [once inAsset, payableAmount, countsSymbol, paid.2, sameAsset.mpr inAsset, parseU256]
      grind
    · simp [payableAmount, countsSymbol, inAsset, sameAsset]
  · rw [if_neg fun counted => paid ⟨counted.1, counted.2.1⟩]
    rcases not_and_or.mp paid with unlisted | unpaid
    · rw [List.count_eq_zero_of_not_mem unlisted, Nat.zero_mul]
    · simp [payableAmount, countsSymbol, unpaid]
end Worth

/-- The request of an administrator, alone. -/
def paysOut (body : CreatePayoutRequest) (total : Nat) (after : Ledger) : Prop :=
  (createPayout (fun _ => True) ⟨2, true⟩ 10 body ⟨51, 40⟩).Yields paidLedger
    (newPayout 10 body ⟨51, 40⟩ total) after

end EthPayServer.Api
