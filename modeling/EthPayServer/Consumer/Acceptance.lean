import EthPayServer.Consumer.Resumption
import EthPayServer.Consumer.Writes

/-!
# When an application succeeds

With a database that always answers, an event is refused for one of two
reasons: the money it moves does not fit the columns that hold it, or it
confirms a payment that is confirmed already.
-/

namespace EthPayServer.Consumer

open Lib Data
open Evm (Time Uuid MonitorEvent PaymentDetected PaymentConfirmed ReorgDetected addressText hashText)

/-- The decimal library's quotients of amounts: not negative, and exact to 99 digits. -/
structure Divides (divide : Division) : Prop where
  nonneg : ∀ {a b : ℚ}, 0 ≤ a → 0 < b → 0 ≤ divide a b
  close : ∀ {a b : ℚ}, 0 ≤ a → 0 < b → divide a b ≤ a / b + a / b / 10 ^ 99

theorem divides_exact : Divides (· / ·) where
  nonneg := fun nonneg positive => div_nonneg nonneg positive.le
  close := fun nonneg positive => le_add_of_nonneg_right (by positivity)

/-! ## Totals -/

/-- No credit is negative, and what each invoice received fits its column. -/
structure CreditsFit (db : Db) : Prop where
  credits : ∀ row ∈ db.payments.rows, ∀ credit ∈ row.creditedAmount, 0 ≤ credit.units
  totals : ∀ invoiceId, creditedTotal db.payments.rows invoiceId < 10 ^ 78

variable {row : Payment}

theorem creditTo_nonneg (credits : ∀ credit ∈ row.creditedAmount, 0 ≤ credit.units) (invoiceId : Uuid) :
    0 ≤ row.creditTo invoiceId := by
  unfold Payment.creditTo
  split
  · cases credited : row.creditedAmount with
    | none => exact le_rfl
    | some credit => exact credits credit credited
  · exact le_rfl

variable {rows : List Payment}

theorem creditedTotal_nonneg (credits : ∀ row ∈ rows, ∀ credit ∈ row.creditedAmount, 0 ≤ credit.units)
    (invoiceId : Uuid) : 0 ≤ creditedTotal rows invoiceId := by
  refine List.sum_nonneg ?_
  intro credit mem
  obtain ⟨row, memRow, rfl⟩ := List.mem_map.mp mem
  exact creditTo_nonneg (credits row memRow) invoiceId

theorem creditedTotal_append (rows rows' : List Payment) (invoiceId : Uuid) :
    creditedTotal (rows ++ rows') invoiceId =
      creditedTotal rows invoiceId + creditedTotal rows' invoiceId := by
  simp [creditedTotal]

variable {invoiceId : Uuid}

theorem creditTo_of_ne (other : row.invoiceId ≠ invoiceId) : row.creditTo invoiceId = 0 := by
  simp [Payment.creditTo, other]

variable {change : Payment → Payment} {db : Db}

theorem creditedTotal_changeRow_of_ne (mem : row ∈ db.payments.rows)
    (keeps : ∀ payment, (change payment).identity = payment.identity) (other : row.invoiceId ≠ invoiceId) :
    creditedTotal (changeRow row.id change db.payments.rows) invoiceId =
      creditedTotal db.payments.rows invoiceId := by
  unfold creditedTotal changeRow
  rw [List.map_map]
  congr 1
  refine List.map_congr_left fun payment memPayment => ?_
  simp only [Function.comp_apply]
  split
  next same =>
    obtain rfl := db.payments.eq_of_key memPayment mem same
    rw [creditTo_of_ne other, creditTo_of_ne]
    rwa [Db.invoiceId_of_identity (keeps payment)]
  · rfl

/-- A change that adds nothing to any total keeps every total within what it was. -/
theorem creditedTotal_changeRow_le (id : Uuid)
    (less : ∀ row ∈ rows, (change row).creditTo invoiceId ≤ row.creditTo invoiceId) :
    creditedTotal (changeRow id change rows) invoiceId ≤ creditedTotal rows invoiceId := by
  unfold creditedTotal changeRow
  rw [List.map_map]
  refine List.sum_le_sum fun row mem => ?_
  simp only [Function.comp_apply]
  split
  · exact less row mem
  · exact le_rfl

variable {now : Time}

theorem total_lt_of_recorded {db db' : Db} (recorded : Recorded now row rows db db') :
    creditedTotal rows row.invoiceId < 10 ^ 78 := by
  obtain ⟨total, isTotal, _⟩ := recorded.invoices
  have fits := total.fits
  rw [← isTotal]
  omega

/-! ## What a payment is worth -/

/-- What an amount is worth through an option: in its own coin, or at the option's rate. -/
def worth (amount : Nat) (option : PaymentOption) : ℚ :=
  match option.rate with
  | none => amount / 10 ^ option.decimals
  | some rate => amount / 10 ^ option.decimals / rate.toRat

structure IsCredit (worth : ℚ) (units : Int) : Prop where
  nonneg : 0 ≤ units
  close : (units : ℚ) ≤ worth * 10 ^ 18 + worth * 10 ^ 18 / 10 ^ 99 + 1 / 2

variable {value credit : ℚ} {delivery : Delivery}

theorem isCredit_format {worth : ℚ} (nonneg : 0 ≤ value) (close : value ≤ worth + worth / 10 ^ 99) :
    IsCredit worth (Numeric.roundUnits 18 (formatAmount value)) := by
  rw [formatAmount, Numeric.roundUnits_div]
  refine ⟨Numeric.roundUnits_nonneg nonneg, (Numeric.roundUnits_le nonneg).trans ?_⟩
  have scaled := mul_le_mul_of_nonneg_right close (Numeric.pow_scale_pos 18).le
  have spread : (worth + worth / 10 ^ 99) * 10 ^ 18 = worth * 10 ^ 18 + worth * 10 ^ 18 / 10 ^ 99 := by
    ring
  linarith

theorem isCredit_through (divides : Divides divide) {amount : Nat} {option : PaymentOption}
    (rates : ∀ rate ∈ option.rate, 0 ≤ rate.toRat)
    (credited : (creditThrough divide amount now option).creditedAmount = some credit) :
    IsCredit (worth amount option) (Numeric.roundUnits 18 credit) := by
  have coins : (0 : ℚ) ≤ amount / 10 ^ option.decimals := by positivity
  unfold creditThrough at credited
  unfold worth
  cases isRate : option.rate with
  | none =>
    simp only [isRate, Option.some.injEq] at credited
    subst credited
    exact isCredit_format coins (le_add_of_nonneg_right (by positivity))
  | some rate =>
    have nonneg := rates rate isRate
    by_cases zero : rate.toRat = 0
    · simp [isRate, convertPaymentToInvoiceCurrency, zero] at credited
    · simp only [isRate, convertPaymentToInvoiceCurrency, if_neg zero, Option.some.injEq] at credited
      subst credited
      have positive : 0 < rate.toRat := lt_of_le_of_ne nonneg (Ne.symm zero)
      exact isCredit_format (divides.nonneg coins positive) (divides.close coins positive)

/-- A credit that is worth less than the room in a column fits beside what the column holds. -/
theorem IsCredit.fits {units others : Int} {worth : ℚ} (credit : IsCredit worth units)
    (nonneg : 0 ≤ others) (room : (others : ℚ) / 10 ^ 18 + worth ≤ 10 ^ 60 - 1) : others + units < 10 ^ 78 := by
  have held : (0 : ℚ) ≤ others / 10 ^ 18 := by
    have : (0 : ℚ) ≤ others := by exact_mod_cast nonneg
    positivity
  have scaled : (others : ℚ) + worth * 10 ^ 18 ≤ 10 ^ 78 - 10 ^ 18 := by
    have cancel : ((others : ℚ) / 10 ^ 18 + worth) * 10 ^ 18 = others + worth * 10 ^ 18 := by
      field_simp
    rw [← cancel]
    calc ((others : ℚ) / 10 ^ 18 + worth) * 10 ^ 18 ≤ (10 ^ 60 - 1) * 10 ^ 18 := by gcongr
      _ = 10 ^ 78 - 10 ^ 18 := by norm_num
  have small : worth * 10 ^ 18 / 10 ^ 99 ≤ 1 / 2 := by
    have bounded : worth ≤ 10 ^ 60 := by linarith
    calc worth * 10 ^ 18 / 10 ^ 99 ≤ 10 ^ 60 * 10 ^ 18 / 10 ^ 99 := by gcongr
      _ ≤ 1 / 2 := by norm_num
  have close := credit.close
  have bound : ((others + units : Int) : ℚ) < ((10 ^ 78 : Int) : ℚ) := by
    push_cast
    linarith
  exact_mod_cast bound

/-! ## Credits stay within their columns -/

def RatesNonneg (db : Db) : Prop :=
  ∀ option ∈ db.paymentOptions.rows, ∀ rate ∈ option.rate, 0 ≤ rate.toRat

theorem isCredit_of_described (divides : Divides divide) (rates : RatesNonneg db) {tokenAddress : Option Text}
    (credited : (creditFor divide event.amount.toNat delivery.now (optionFor event tokenAddress db)
      db).creditedAmount = some credit) :
    ∃ option ∈ db.paymentOptions.rows, optionFor event tokenAddress db = some option.id ∧
      IsCredit (worth event.amount.toNat option) (Numeric.roundUnits 18 credit) := by
  unfold creditFor at credited
  cases resolved : (optionFor event tokenAddress db).bind (getPaymentOption · db) with
  | none =>
    rw [resolved] at credited
    cases credited
  | some option =>
    rw [resolved] at credited
    obtain ⟨id, isId, isOption⟩ := Option.bind_eq_some_iff.mp resolved
    obtain ⟨mem, rfl⟩ := Table.find?_eq_some.mp isOption
    exact ⟨option, mem, isId, isCredit_through divides (rates option mem) credited⟩

theorem credits_of_described (divides : Divides divide) (rates : RatesNonneg db) {payment : PaymentData}
    {txIndex : Int} (isDescribed : described divide delivery event db = .ok (payment, txIndex))
    (isRow : payment.toRow txIndex = .ok row) : ∀ credit ∈ row.creditedAmount, 0 ≤ credit.units := by
  obtain ⟨_, asset, _, rfl⟩ := described_ok isDescribed
  intro credit isCredit
  rw [(PaymentData.toRow_ok isRow).creditedAmount] at isCredit
  obtain ⟨value, isValue, stored⟩ := Option.bind_eq_some_iff.mp isCredit
  obtain ⟨_, _, _, bounds⟩ := isCredit_of_described divides rates isValue
  rw [Numeric.ofUnits?_eq_some.mp stored]
  exact bounds.nonneg

namespace CreditsFit

variable {db db' : Db}

theorem of_samePayments (fit : CreditsFit db) (same : db'.payments = db.payments) : CreditsFit db' := by
  obtain ⟨credits, totals⟩ := fit
  exact ⟨by rwa [same], by rwa [same]⟩

theorem empty : CreditsFit Db.empty :=
  ⟨by simp [Db.empty], by simp [Db.empty, creditedTotal]⟩

/-- A row was changed and its invoice's total written. -/
theorem changed (fit : CreditsFit db) (mem : row ∈ db.payments.rows) (change : Payment → Payment)
    (keeps : ∀ payment, (change payment).identity = payment.identity)
    (credits : ∀ credit ∈ (change row).creditedAmount, 0 ≤ credit.units)
    (recorded : Recorded now (change row) (changeRow row.id change db.payments.rows) db db') :
    CreditsFit db' := by
  refine ⟨?_, ?_⟩
  · intro changed memChanged
    rw [recorded.payments] at memChanged
    obtain ⟨old, memOld, rfl⟩ := List.mem_map.mp memChanged
    split
    next same =>
      obtain rfl := db.payments.eq_of_key memOld mem same
      exact credits
    · exact fit.credits old memOld
  intro invoiceId
  rw [recorded.payments]
  by_cases own : row.invoiceId = invoiceId
  · have total := total_lt_of_recorded recorded
    rwa [Db.invoiceId_of_identity (keeps row), own] at total
  · rw [creditedTotal_changeRow_of_ne mem keeps own]
    exact fit.totals invoiceId

/-- A row was added and its invoice's total written. -/
theorem inserted (fit : CreditsFit db) (credits : ∀ credit ∈ row.creditedAmount, 0 ≤ credit.units)
    (recorded : Recorded now row (db.payments.rows ++ [row]) db db') : CreditsFit db' := by
  refine ⟨?_, ?_⟩
  · intro other mem
    rw [recorded.payments] at mem
    rcases List.mem_append.mp mem with old | new
    · exact fit.credits other old
    · rw [List.mem_singleton.mp new]
      exact credits
  intro invoiceId
  rw [recorded.payments]
  by_cases own : row.invoiceId = invoiceId
  · rw [← own]
    exact total_lt_of_recorded recorded
  · rw [creditedTotal_append]
    simpa [creditedTotal, creditTo_of_ne own] using fit.totals invoiceId

/-- Every write of the event consumer keeps the credits within their columns. -/
theorem write (divides : Divides divide) (fit : CreditsFit db) (rates : RatesNonneg db) {event : MonitorEvent}
    (written : Write divide event db db') : CreditsFit db' := by
  rcases written.kinds with ⟨_, row, ⟨_, _, _, _, _, isDescribed, isRow⟩, recorded⟩ |
    ⟨_, row, mem, change, changes, recorded⟩ | ⟨_, _, written, _⟩ | same
  · exact fit.inserted (credits_of_described divides rates isDescribed isRow) recorded
  · refine fit.changed mem change changes.identity ?_ recorded
    cases changes with
    | absorbs proposed describes =>
      obtain ⟨_, _, _, _, _, isDescribed, isRow⟩ := describes
      intro credit isCredit
      rcases Option.or_eq_some_iff.mp isCredit with new | ⟨_, old⟩
      · exact credits_of_described divides rates isDescribed isRow credit new
      · exact fit.credits row mem credit old
    | confirms | retracts => exact fit.credits row mem
  · exact fit.of_samePayments written.payments
  · exact fit.of_samePayments same.payments

end CreditsFit

/-! ## Confirmations and retractions -/

/-- Rows that were changed without adding a credit still fit. -/
theorem CreditsFit.map {db : Db} (fit : CreditsFit db) {change : Payment → Payment} {invoiceId : Uuid}
    (credits : ∀ row ∈ db.payments.rows, ∀ credit ∈ (change row).creditedAmount, 0 ≤ credit.units)
    (less : ∀ row ∈ db.payments.rows, (change row).creditTo invoiceId ≤ row.creditTo invoiceId) :
    (creditedTotal (db.payments.rows.map change) invoiceId).natAbs < 10 ^ 78 := by
  have nonneg : 0 ≤ creditedTotal (db.payments.rows.map change) invoiceId :=
    creditedTotal_nonneg (List.forall_mem_map.mpr credits) _
  have bound : creditedTotal (db.payments.rows.map change) invoiceId ≤
      creditedTotal db.payments.rows invoiceId := by
    unfold creditedTotal
    rw [List.map_map]
    exact List.sum_le_sum less
  have total := fit.totals invoiceId
  omega

theorem markConfirmed_total (fit : CreditsFit db) {payment : Payment} (mem : payment ∈ db.payments.rows)
    (unconfirmed : payment.confirmedAt = none) (confirmedAt now : Time) :
    ∃ marked, markConfirmed payment.id confirmedAt now db = .ok ((), marked) := by
  have found : db.payments.rows.find? (fun other =>
      decide (other.id = payment.id ∧ other.confirmedAt = none)) = some payment :=
    Table.find?_of_unique mem (by simp [unconfirmed]) fun other memOther same =>
      db.payments.eq_of_key memOther mem (of_decide_eq_true same).1
  have fits : (creditedTotal (changeRow payment.id (Payment.confirm confirmedAt) db.payments.rows)
      payment.invoiceId).natAbs < 10 ^ 78 := by
    refine fit.map (fun row mem => ?_) fun row _ => ?_
    · split <;> exact fit.credits row mem
    · split <;> exact le_rfl
  obtain ⟨written, done⟩ := updatePayment_total payment (Payment.confirm confirmedAt) (by simp) fits now
  refine ⟨written, ?_⟩
  rw [markConfirmed, found]
  exact map_eq_ok.mpr ⟨written, done, rfl⟩

theorem confirmed_succeeds (fit : CreditsFit db) {event : PaymentConfirmed}
    (unconfirmed : ∀ payment, getByTxIndex event.invoiceId (hashText event.txHash) event.txIndex db =
      some payment → payment.confirmedAt = none) (clock : Nat → Time) :
    (handlePaymentConfirmed event (Proc.uninterrupted clock) 0 db).result = .ok () := by
  rcases (handlePaymentConfirmed_spec event).ends _ 0 db with ⟨_, done, _⟩ |
    ⟨_, _, ⟨_, fault | ⟨payment, now, error, found, failed⟩⟩ | ⟨_, _, _, fault⟩⟩
  · exact done
  · exact absurd fault not_faults_uninterrupted
  · obtain ⟨marked, done⟩ := markConfirmed_total fit (getByTxIndex_some found).1
      (unconfirmed payment found) event.confirmedAt now
    rw [done] at failed
    cases failed
  · exact absurd fault not_faults_uninterrupted

/-- Retracting rows takes nothing below zero and adds nothing. -/
theorem CreditsFit.retractRows {db : Db} (fit : CreditsFit db) (ids : List Uuid) (invoiceId : Uuid) :
    (creditedTotal (retractRows ids db.payments.rows) invoiceId).natAbs < 10 ^ 78 := by
  refine fit.map (fun row mem => ?_) fun row mem => ?_
  · split <;> exact fit.credits row mem
  · split
    · rw [creditTo_retract]
      exact creditTo_nonneg (fit.credits row mem) invoiceId
    · exact le_rfl

theorem reorg_succeeds (fit : CreditsFit db) (delivery : Delivery) (event : ReorgDetected) (clock : Nat → Time) :
    (handleReorgDetected delivery event (Proc.uninterrupted clock) 0 db).result = .ok () := by
  by_cases verifiable : event.survivorsVerifiable = true
  · exact (retraction_whole delivery clock verifiable fun group _ k _ =>
      fit.retractRows _ group.1).1
  · rw [handleReorgDetected, if_neg verifiable]
    rfl

/-! ## Detections -/

structure IsTransfer (event : PaymentDetected) : Prop where
  native : event.isNative = true → event.tokenAddress = none
  token : event.isNative = false → event.tokenAddress.isSome = true ∧ event.logIndex.isSome = true

def tokenText (event : PaymentDetected) : Option Text := event.tokenAddress.map addressText

def filedInvoice (event : PaymentDetected) (db : Db) : Uuid :=
  ((db.payments.rows.find? fun row => decide (transferKey event = some row.txKey)).map
    Payment.invoiceId).getD event.invoiceId

def otherTotal (event : PaymentDetected) (db : Db) : Int :=
  creditedTotal (db.payments.rows.filter fun row => decide (transferKey event ≠ some row.txKey))
    (filedInvoice event db)

/--
Beside the other payments of its invoice the payment's worth leaves a margin of
one in the columns that hold credits, through each option at its key.
-/
def HasRoom (event : PaymentDetected) (db : Db) : Prop :=
  ∀ option ∈ db.paymentOptions.rows, isLateOption event (tokenText event) option = true →
    (otherTotal event db : ℚ) / 10 ^ 18 + worth event.amount.toNat option ≤ 10 ^ 60 - 1

theorem length_nativeSymbol (chainId : Nat) : (nativeSymbol chainId).length ≤ 32 := by
  unfold nativeSymbol
  cases found : nativeSymbols.find? fun entry => decide (entry.1 = chainId) with
  | none => decide
  | some entry =>
    have short : ∀ entry ∈ nativeSymbols, entry.2.toList.length ≤ 32 := by decide
    exact short entry (List.mem_of_find?_eq_some found)

theorem length_assetSymbolFor (symbol : Option (VarChar 32)) :
    (assetSymbolFor (symbol.map Subtype.val)).length ≤ 32 := by
  cases symbol with
  | none => decide
  | some symbol =>
    simp only [Option.map_some, assetSymbolFor]
    split
    · decide
    · exact symbol.property

theorem length_addressText (address : Evm.Address) : (addressText address).length = 42 :=
  length_hexText 40 _

theorem assetFor_total (isTransfer : IsTransfer event) (db : Db) :
    ∃ asset, assetFor event db = .ok asset ∧ asset.2.2 = tokenText event ∧ asset.2.1.length ≤ 32 := by
  unfold assetFor tokenText
  by_cases native : event.isNative = true
  · rw [if_pos native, isTransfer.native native]
    exact ⟨_, rfl, rfl, length_nativeSymbol event.chainId⟩
  · rw [if_neg native]
    obtain ⟨token, isToken⟩ := Option.isSome_iff_exists.mp (isTransfer.token (by simpa using native)).1
    rw [isToken]
    exact ⟨_, rfl, rfl, length_assetSymbolFor _⟩

theorem txIndex_total (isTransfer : IsTransfer event) : ∃ txIndex, event.txIndex = some txIndex := by
  unfold PaymentDetected.txIndex
  by_cases native : event.isNative = true
  · exact ⟨-1, if_pos native⟩
  · obtain ⟨index, isIndex⟩ := Option.isSome_iff_exists.mp (isTransfer.token (by simpa using native)).2
    rw [if_neg native, isIndex]
    exact ⟨_, rfl⟩

theorem described_total (isTransfer : IsTransfer event) (divide : Division) (delivery : Delivery) (db : Db) :
    ∃ payment asset txIndex, asset.2.2 = tokenText event ∧ asset.2.1.length ≤ 32 ∧
      payment = paymentData delivery event asset (optionFor event (tokenText event) db) (creditFor divide
        event.amount.toNat delivery.now (optionFor event (tokenText event) db) db) ∧
      described divide delivery event db = .ok (payment, txIndex) := by
  obtain ⟨asset, isAsset, isToken, short⟩ := assetFor_total isTransfer db
  obtain ⟨txIndex, isIndex⟩ := txIndex_total isTransfer
  refine ⟨_, asset, txIndex, isToken, short, rfl, ?_⟩
  simp only [described, isAsset, isIndex, isToken]

theorem rateUsed_creditFor (divide : Division) (amount : Nat) (now : Time) (optionId : Option Uuid)
    (db : Db) : ∀ value, (creditFor divide amount now optionId db).rateUsed = some value →
      ∃ rate : Numeric 38 18, value = rate.toRat := by
  intro value used
  unfold creditFor at used
  cases resolved : optionId.bind (getPaymentOption · db) with
  | none => simp [resolved] at used
  | some option =>
    simp only [resolved, creditThrough] at used
    cases isRate : option.rate with
    | none => simp [isRate] at used
    | some rate =>
      simp only [isRate] at used
      split at used
      · exact ⟨rate, (Option.some.inj used).symm⟩
      · cases used

theorem nullable_total {α β : Type} {write : α → Except RepositoryError β} {value : Option α}
    (each : ∀ a, value = some a → ∃ b, write a = .ok b) : ∃ stored, nullable write value = .ok stored := by
  cases value with
  | none => exact ⟨none, rfl⟩
  | some a =>
    obtain ⟨b, done⟩ := each a rfl
    exact ⟨some b, nullable_ok.mpr (.inr ⟨a, b, rfl, done, rfl⟩)⟩

theorem numeric_total {precision scale : Nat}
    (fits : (Numeric.roundUnits scale value).natAbs < 10 ^ precision) :
    ∃ stored, numeric precision scale value = .ok stored := by
  obtain ⟨stored, isStored⟩ := Option.isSome_iff_exists.mp (Numeric.ofUnits?_isSome.mpr fits)
  exact ⟨stored, numeric_ok.mpr isStored⟩

theorem varChar_total {bound : Nat} {text : Text} (short : text.length ≤ bound) :
    ∃ stored, varChar bound text = .ok stored :=
  ⟨⟨text, short⟩, varChar_ok.mpr rfl⟩

/-- The row of a transfer whose credit fits its column can be proposed. -/
theorem toRow_total {asset : AssetType × Text × Option Text} (isToken : asset.2.2 = tokenText event)
    (short : asset.2.1.length ≤ 32) {optionId : Option Uuid} {credit : Credit}
    (credits : ∀ value, credit.creditedAmount = some value → (Numeric.roundUnits 18 value).natAbs < 10 ^ 78)
    (rates : ∀ value, credit.rateUsed = some value → ∃ rate : Numeric 38 18, value = rate.toRat)
    (txIndex : Int) : ∃ row, (paymentData delivery event asset optionId credit).toRow txIndex = .ok row := by
  have amountFits : (Numeric.roundUnits 0 (event.amount.toNat : ℚ)).natAbs < 10 ^ 78 := by
    have exact := Numeric.roundUnits_div 0 (event.amount.toNat : Int)
    simp only [pow_zero, div_one, Int.cast_natCast] at exact
    rw [exact, Int.natAbs_natCast]
    exact lt_trans event.amount.isLt (by norm_num)
  have short42 : ∀ address, (addressText address).length ≤ 42 := fun address =>
    (length_addressText address).le
  obtain ⟨amount, isAmount⟩ := numeric_total amountFits
  obtain ⟨symbol, isSymbol⟩ := varChar_total short
  obtain ⟨token, isTokenStored⟩ : ∃ stored, nullable (varChar 42) asset.2.2 = .ok stored := by
    refine nullable_total fun text isText => varChar_total ?_
    rw [isToken] at isText
    obtain ⟨address, _, rfl⟩ := Option.map_eq_some_iff.mp isText
    exact short42 address
  obtain ⟨txHash, isHash⟩ : ∃ stored, varChar 66 (hashText event.txHash) = .ok stored :=
    varChar_total (length_hexText 64 _).le
  obtain ⟨sender, isSender⟩ : ∃ stored, nullable (varChar 42) (some (addressText event.fromAddress)) =
      .ok stored := by
    refine nullable_total fun text isText => varChar_total ?_
    rw [← Option.some.inj isText]
    exact short42 _
  obtain ⟨credited, isCredited⟩ : ∃ stored, nullable (numeric 78 18) credit.creditedAmount = .ok stored :=
    nullable_total fun value isValue => numeric_total (credits value isValue)
  obtain ⟨rate, isRate⟩ : ∃ stored, nullable (numeric 38 18) credit.rateUsed = .ok stored := by
    refine nullable_total fun value isValue => ?_
    obtain ⟨rate, rfl⟩ := rates value isValue
    exact ⟨rate, numeric_ok.mpr (Numeric.ofRat?_toRat rate)⟩
  exact ⟨_, bind_eq_ok.mpr ⟨amount, isAmount, bind_eq_ok.mpr ⟨symbol, isSymbol, bind_eq_ok.mpr
    ⟨token, isTokenStored, bind_eq_ok.mpr ⟨txHash, isHash, bind_eq_ok.mpr ⟨sender, isSender,
      bind_eq_ok.mpr ⟨credited, isCredited, bind_eq_ok.mpr ⟨rate, isRate, rfl⟩⟩⟩⟩⟩⟩⟩⟩

theorem creditedTotal_changeRow (mem : row ∈ db.payments.rows) (change : Payment → Payment) (invoiceId : Uuid) :
    creditedTotal (changeRow row.id change db.payments.rows) invoiceId =
      creditedTotal (db.payments.rows.filter fun other => decide (other.txKey ≠ row.txKey)) invoiceId +
        (change row).creditTo invoiceId := by
  have nodup : db.payments.rows.Nodup := List.Nodup.of_map _ db.uniquePaymentTx
  have others : (db.payments.rows.filter fun other => decide (other.txKey ≠ row.txKey)) =
      db.payments.rows.erase row := by
    rw [nodup.erase_eq_filter]
    refine List.filter_congr fun other memOther => ?_
    by_cases same : other.txKey = row.txKey
    · simp [Db.eq_of_txKey memOther mem same]
    · have differs : other ≠ row := fun isRow => same (by rw [isRow])
      simp [same, differs]
  have split := ((List.perm_cons_erase mem).map fun payment =>
    (if payment.id = row.id then change payment else payment).creditTo invoiceId).sum_eq
  rw [others]
  unfold creditedTotal changeRow
  rw [List.map_map]
  refine split.trans ?_
  rw [List.map_cons, List.sum_cons, if_pos rfl, add_comm]
  congr 2
  refine List.map_congr_left fun other memOther => ?_
  have differs : other.id ≠ row.id := by
    intro same
    obtain rfl := db.payments.eq_of_key (List.mem_of_mem_erase memOther) mem same
    exact nodup.not_mem_erase memOther
  rw [if_neg differs]

section Detected

theorem CreditsFit.otherTotal_nonneg (fit : CreditsFit db) (event : PaymentDetected) :
    0 ≤ otherTotal event db :=
  creditedTotal_nonneg (fun row mem => fit.credits row (List.mem_filter.mp mem).1) _

/-- A credit finds room beside the other payments of its invoice. -/
theorem credit_fits (divides : Divides divide) (fit : CreditsFit db) (rates : RatesNonneg db)
    (resolves : ∀ id, optionFor event (tokenText event) db = some id → ∃ option ∈ db.paymentOptions.rows,
      option.id = id ∧ isLateOption event (tokenText event) option = true) (room : HasRoom event db)
    (credited : (creditFor divide event.amount.toNat delivery.now (optionFor event (tokenText event) db)
      db).creditedAmount = some value) :
    0 ≤ Numeric.roundUnits 18 value ∧ otherTotal event db + Numeric.roundUnits 18 value < 10 ^ 78 := by
  obtain ⟨option, mem, isOption, credit⟩ := isCredit_of_described divides rates credited
  obtain ⟨resolved, memResolved, sameId, isLate⟩ := resolves option.id isOption
  obtain rfl := db.paymentOptions.eq_of_key memResolved mem sameId
  exact ⟨credit.nonneg, credit.fits (fit.otherTotal_nonneg event) (room resolved memResolved isLate)⟩

theorem creditTo_le {credit : Numeric 78 18} (isCredit : row.creditedAmount = some credit)
    (nonneg : 0 ≤ credit.units) (invoiceId : Uuid) : row.creditTo invoiceId ≤ credit.units := by
  unfold Payment.creditTo
  split
  · rw [isCredit]
    exact le_rfl
  · exact nonneg

section Filed

variable (fit : CreditsFit db) (isKey : transferKey event = some row.txKey)
  (credits : ∀ credit, row.creditedAmount = some credit →
    0 ≤ credit.units ∧ otherTotal event db + credit.units < 10 ^ 78)
include fit isKey credits

theorem total_of_update {existing : Payment} (mem : existing ∈ db.payments.rows)
    (same : existing.txKey = row.txKey) :
    (creditedTotal (changeRow existing.id (·.absorb row) db.payments.rows)
      existing.invoiceId).natAbs < 10 ^ 78 := by
  have nonneg : 0 ≤ creditedTotal (changeRow existing.id (·.absorb row) db.payments.rows)
      existing.invoiceId := by
    refine creditedTotal_nonneg ?_ _
    intro changed memChanged
    obtain ⟨old, memOld, rfl⟩ := List.mem_map.mp memChanged
    intro credit isCredit
    split at isCredit
    · rcases Option.or_eq_some_iff.mp isCredit with new | ⟨_, kept⟩
      · exact (credits credit new).1
      · exact fit.credits old memOld credit kept
    · exact fit.credits old memOld credit isCredit
  have less : creditedTotal (changeRow existing.id (·.absorb row) db.payments.rows)
      existing.invoiceId < 10 ^ 78 := by
    cases isCredit : row.creditedAmount with
    | none =>
      -- nothing new is credited, so the total is what it was
      refine lt_of_le_of_lt (creditedTotal_changeRow_le existing.id fun payment _ => ?_)
        (fit.totals existing.invoiceId)
      simp [Payment.creditTo, Payment.absorb, isCredit]
    | some credit =>
      have filed : filedInvoice event db = existing.invoiceId := by
        have found : db.payments.rows.find? (fun other => decide (transferKey event = some other.txKey)) =
            some existing := by
          refine Table.find?_of_unique mem (by simp [isKey, same]) fun other memOther isOther => ?_
          rw [decide_eq_true_eq, isKey, ← same, Option.some.injEq] at isOther
          exact Db.eq_of_txKey memOther mem isOther.symm
        rw [filedInvoice, found]
        rfl
      have others : (db.payments.rows.filter fun other =>
          decide (other.txKey ≠ existing.txKey)) = db.payments.rows.filter fun other =>
            decide (transferKey event ≠ some other.txKey) := by
        refine List.filter_congr fun other _ => ?_
        simp [isKey, same, eq_comm]
      have room := (credits credit isCredit).2
      rw [otherTotal, filed, ← others] at room
      rw [creditedTotal_changeRow mem]
      have adds : (existing.absorb row).creditTo existing.invoiceId ≤ credit.units :=
        creditTo_le (by simp [Payment.absorb, isCredit]) (credits credit isCredit).1 _
      omega
  omega

theorem total_of_insert (freshKey : row.txKey ∉ db.payments.rows.map Payment.txKey)
    (isInvoice : row.invoiceId = event.invoiceId) :
    (creditedTotal (db.payments.rows ++ [row]) row.invoiceId).natAbs < 10 ^ 78 := by
  have unknown : ∀ other ∈ db.payments.rows, transferKey event ≠ some other.txKey := by
    intro other mem isOther
    rw [isKey, Option.some.injEq] at isOther
    exact freshKey (List.mem_map.mpr ⟨other, mem, isOther.symm⟩)
  have isTotal : otherTotal event db = creditedTotal db.payments.rows row.invoiceId := by
    have missing : db.payments.rows.find? (fun other => decide (transferKey event = some other.txKey)) =
        none := List.find?_eq_none.mpr fun other mem => by simpa using unknown other mem
    have all : (db.payments.rows.filter fun other => decide (transferKey event ≠ some other.txKey)) =
        db.payments.rows := List.filter_eq_self.mpr fun other mem => by simpa using unknown other mem
    rw [otherTotal, filedInvoice, missing, all, isInvoice]
    rfl
  have low := fit.otherTotal_nonneg event
  have total := fit.totals row.invoiceId
  have adds : 0 ≤ row.creditTo row.invoiceId ∧
      otherTotal event db + row.creditTo row.invoiceId < 10 ^ 78 := by
    cases isCredit : row.creditedAmount with
    | none =>
      have nothing : row.creditTo row.invoiceId = 0 := by simp [Payment.creditTo, isCredit]
      omega
    | some credit =>
      obtain ⟨nonneg, room⟩ := credits credit isCredit
      have less := creditTo_le isCredit nonneg row.invoiceId
      have positive : 0 ≤ row.creditTo row.invoiceId := creditTo_nonneg (fun other isOther => by
        rw [isCredit] at isOther
        cases isOther
        exact nonneg) _
      omega
  have isSum : creditedTotal (db.payments.rows ++ [row]) row.invoiceId =
      otherTotal event db + row.creditTo row.invoiceId := by
    rw [creditedTotal_append, isTotal]
    simp [creditedTotal]
  omega

end Filed

/-- A detected transfer that finds room in the columns is filed. -/
theorem detected_succeeds (divides : Divides divide) (fit : CreditsFit db) (rates : RatesNonneg db)
    (isTransfer : IsTransfer event) (fresh : delivery.paymentId ∉ db.payments.keys)
    (hasInvoice : event.invoiceId ∈ db.invoices.keys)
    (resolves : ∀ id, optionFor event (tokenText event) db = some id → ∃ option ∈ db.paymentOptions.rows,
      option.id = id ∧ isLateOption event (tokenText event) option = true)
    (room : HasRoom event db) (clock : Nat → Time) :
    (handlePaymentDetected divide delivery event (Proc.uninterrupted clock) 0 db).result = .ok () := by
  obtain ⟨payment, asset, txIndex, isToken, short, isPayment, isDescribed⟩ :=
    described_total isTransfer divide delivery db
  have nonneg := fit.otherTotal_nonneg event
  obtain ⟨row, isRow⟩ : ∃ row, payment.toRow txIndex = .ok row := by
    rw [isPayment]
    refine toRow_total isToken short ?_ (rateUsed_creditFor divide _ _ _ db) txIndex
    intro value isValue
    have fits := credit_fits divides fit rates resolves room isValue
    omega
  have proposes := PaymentData.toRow_ok isRow
  have isKey := transferKey_of_row isDescribed isRow
  have credits : ∀ credit, row.creditedAmount = some credit →
      0 ≤ credit.units ∧ otherTotal event db + credit.units < 10 ^ 78 := by
    intro credit isCredit
    rw [proposes.creditedAmount, isPayment] at isCredit
    obtain ⟨value, isValue, stored⟩ := Option.bind_eq_some_iff.mp isCredit
    rw [Numeric.ofUnits?_eq_some.mp stored]
    exact credit_fits divides fit rates resolves room isValue
  have files : ∀ now, ∃ db', upsertWithTxIndexAndObligation payment txIndex "payment_detected" now db =
      .ok ((), db') := by
    intro now
    by_cases known : row.txKey ∈ db.payments.rows.map Payment.txKey
    · obtain ⟨existing, mem, same⟩ := List.mem_map.mp known
      exact upsert_update isRow mem same (total_of_update fit isKey credits mem same) _ now
    have isInvoice : row.invoiceId = event.invoiceId := by rw [proposes.invoiceId, isPayment]; rfl
    refine upsert_insert isRow ?_ known ?_ ?_ (total_of_insert fit isKey credits known isInvoice) _ now
    · rw [proposes.id, isPayment]
      exact fresh
    · rw [isInvoice]
      exact hasInvoice
    · intro option isOption
      rw [proposes.paymentOptionId, isPayment] at isOption
      obtain ⟨resolved, mem, sameId, _⟩ := resolves option isOption
      exact Table.mem_keys.mpr ⟨resolved, mem, sameId⟩
  rcases (handlePaymentDetected_spec divide delivery event).ends (Proc.uninterrupted clock) 0 db with
    ⟨_, done, _⟩ | ⟨_, _, _, fault | failed | ⟨now, payment, index, error, isDescribed', failed, _⟩⟩
  · exact done
  · exact absurd fault not_faults_uninterrupted
  · rw [isDescribed] at failed
    cases failed
  rw [isDescribed] at isDescribed'
  cases isDescribed'
  obtain ⟨db', done⟩ := files now
  rw [done] at failed
  cases failed

end Detected

end EthPayServer.Consumer
