import EthPayServer.Watch.Notify

/-!
# Options and their watches

Each option of a new invoice gets a row of `watched_addresses`; a row that is
there is pointed at the new option, and keeps the invoice it was inserted for.
-/

namespace EthPayServer.Watch

open Lib Data Consumer

/-! ## The invoice of a watch -/

/-- What a watch is unique by: native addresses are compared in any letter case. -/
def uniqueSite (chainId : ChainId) (address : Text) (token : Option Text) : ChainId × Text × Option Text :=
  (chainId, if token = none then lower address else address, token)

def quotedSite (option : PaymentOptionData) : ChainId × Text × Option Text :=
  uniqueSite option.chainId option.paymentAddress option.tokenAddress

def rowSite (row : WatchedAddressRow) : ChainId × Text × Option Text :=
  uniqueSite row.chainId row.address.val (row.tokenAddress.map Subtype.val)

variable {row old : WatchedAddressRow} {db db' quoted : Db} {invoice : InvoiceData}
  {option : PaymentOptionData} {options later : List PaymentOptionData}

theorem rowSite_of_meets (met : row.meets old = true) : rowSite old = rowSite row := by
  unfold WatchedAddressRow.meets at met
  cases token : row.tokenAddress with
  | none =>
    simp only [token, decide_eq_true_eq] at met
    simp [rowSite, uniqueSite, token, met]
  | some text =>
    simp only [token, decide_eq_true_eq] at met
    simp [rowSite, uniqueSite, token, met]

/-- The option of a row is one of the row's invoice. -/
def Named (db : Db) (watch : WatchedAddressRow) : Prop :=
  ∃ option ∈ db.paymentOptions.rows, option.id = watch.paymentOptionId ∧ option.invoiceId = watch.invoiceId

def WatchesNamed (db : Db) : Prop :=
  ∀ watch ∈ db.watchedAddresses, watch.isActive = true → Named db watch

/-- While an invoice is created, only its own rows stand where its options go, and none where later ones do. -/
structure Serving (invoice : InvoiceData) (options later : List PaymentOptionData) (db : Db) : Prop where
  named : ∀ watch ∈ db.watchedAddresses, Named db watch
  own : ∀ watch ∈ db.watchedAddresses,
    watch.invoiceId = invoice.id ∨ ∀ option ∈ options, quotedSite option ≠ rowSite watch
  clear : ∀ watch ∈ db.watchedAddresses, ∀ option ∈ later, quotedSite option ≠ rowSite watch

theorem Serving.quote (serving : Serving invoice options later db) (mem : option ∈ options)
    (apart : ∀ other ∈ later, quotedSite other ≠ quotedSite option)
    (own : option.invoiceId = invoice.id) (stored : insertPaymentOption option db = .ok quoted)
    (pointed : upsertWatchedAddress invoice option quoted = .ok db') : Serving invoice options later db' := by
  obtain ⟨inserted, stores, isOptions, -, -, sameWatches⟩ := insertPaymentOption_ok stored
  obtain ⟨row, isOption, isChain, isAddress, isToken, ⟨-, -, forInvoice⟩, isWatches, -, -, sameOptions⟩ :=
    upsertWatchedAddress_ok pointed
  have isSite : rowSite row = quotedSite option := by
    rw [rowSite, isChain, isAddress, isToken]
    rfl
  have isRows : db'.paymentOptions.rows = db.paymentOptions.rows ++ [inserted] := by rw [sameOptions, isOptions]
  have namedNow (watch : WatchedAddressRow) (points : watch.paymentOptionId = option.id)
      (serves : watch.invoiceId = invoice.id) : Named db' watch := by
    refine ⟨inserted, ?_, stores.id.trans points.symm, stores.invoiceId.trans (own.trans serves.symm)⟩
    rw [isRows]
    exact List.mem_append_right _ (List.mem_singleton_self _)
  rw [sameWatches] at isWatches
  refine ⟨fun watch memWatch => ?_, fun watch memWatch => ?_, fun watch memWatch => ?_⟩ <;>
  rw [isWatches] at memWatch <;>
  rcases mem_watchedRows memWatch with rfl | before | ⟨old, before, met, rfl⟩
  · exact namedNow _ isOption forInvoice
  · obtain ⟨known, memKnown, facts⟩ := serving.named watch before
    exact ⟨known, by rw [isRows]; exact List.mem_append_left _ memKnown, facts⟩
  · refine namedNow _ isOption ((serving.own old before).resolve_right fun others => ?_)
    exact others option mem (isSite.symm.trans (rowSite_of_meets met).symm)
  · exact .inl forInvoice
  · exact serving.own watch before
  · exact serving.own old before
  · rw [isSite]
    exact apart
  · exact serving.clear watch before
  · exact serving.clear old before

abbrev Creations : Type := List (InvoiceData × List PaymentOptionData)

/-- The database after some calls of `create_invoice_with_options`; one that fails leaves nothing. -/
def afterCreations (calls : Creations) (db : Db) : Db :=
  calls.foldl (fun db call => match createInvoiceWithOptions call.1 call.2 db with
    | .ok db' => db'
    | .error _ => db) db

/-- No option goes to the site of an option of an earlier call. -/
def Apart (calls : Creations) : Prop :=
  calls.Pairwise fun call next => ∀ option ∈ call.2, ∀ other ∈ next.2, quotedSite other ≠ quotedSite option

/-- Every option names the invoice of its call. -/
def OfInvoice (calls : Creations) : Prop := ∀ call ∈ calls, ∀ option ∈ call.2, option.invoiceId = call.1.id

theorem named_afterCreations {calls : Creations} (apart : Apart calls) (own : OfInvoice calls)
    (named : ∀ watch ∈ db.watchedAddresses, Named db watch)
    (clear : ∀ watch ∈ db.watchedAddresses, ∀ call ∈ calls, ∀ option ∈ call.2,
      quotedSite option ≠ rowSite watch) : WatchesNamed (afterCreations calls db) := by
  induction calls generalizing db with
  | nil => exact fun watch mem _ => named watch mem
  | cons call calls ih =>
    obtain ⟨fromLater, apart⟩ := List.pairwise_cons.mp apart
    obtain ⟨ownNow, own⟩ := List.forall_mem_cons.mp own
    rw [afterCreations, List.foldl_cons]
    cases made : createInvoiceWithOptions call.1 call.2 db with
    | error e =>
      exact ih apart own named fun watch mem next isNext => clear watch mem next (List.mem_cons_of_mem _ isNext)
    | ok created =>
      have start : Serving call.1 call.2 (calls.flatMap Prod.snd) db := by
        refine ⟨named, fun watch mem => .inr (clear watch mem call List.mem_cons_self), ?_⟩
        intro watch mem option isLater
        obtain ⟨next, isNext, isOption⟩ := List.mem_flatMap.mp isLater
        exact clear watch mem next (List.mem_cons_of_mem _ isNext) option isOption
      have serving := createInvoiceWithOptions_statements made start ?_ ?_
      · exact ih apart own serving.named fun watch mem next isNext option isOption =>
          serving.clear watch mem option (List.mem_flatMap.mpr ⟨next, isNext, isOption⟩)
      · intro before after inserted serving
        have added := insertInvoice_ok inserted
        refine ⟨?_, ?_, ?_⟩ <;> rw [added.watchedAddresses]
        · intro watch mem
          unfold Named
          rw [added.paymentOptions]
          exact serving.named watch mem
        · exact serving.own
        · exact serving.clear
      · intro option mem before quoted after stored pointed serving
        refine serving.quote mem (fun other isLater => ?_) (ownNow option mem) stored pointed
        obtain ⟨next, isNext, isOption⟩ := List.mem_flatMap.mp isLater
        exact fromLater next isNext option mem other isOption

/--
Where no site is used again and the options name the invoice of their call, every
active watch names the invoice of its option.
-/
theorem watches_named {calls : Creations} (apart : Apart calls) (own : OfInvoice calls) :
    WatchesNamed (afterCreations calls Db.empty) :=
  named_afterCreations apart own (fun _ mem => nomatch mem) fun _ mem => nomatch mem

/-- An invoice paid to address 5, and another to an address. -/
def twoInvoices (option : PaymentOptionData) : Creations :=
  [(sampleInvoice, [sampleOption]), ({ sampleInvoice with id := 2 }, [{ option with id := 2 }])]

theorem watches_named_two : WatchesNamed (afterCreations
    (twoInvoices { sampleOption with invoiceId := 2, paymentAddress := Evm.addressText 6 }) Db.empty) := by
  refine watches_named ?_ ?_
  · rw [Apart, twoInvoices, List.pairwise_pair]
    decide +kernel
  · unfold OfInvoice
    decide +kernel

/--
The watch of a reused address stays with the first invoice and points at the
option of the second; an option may also name another invoice than its call.
-/
theorem reused_address_misnamed :
    ¬ WatchesNamed (afterCreations (twoInvoices { sampleOption with invoiceId := 2 }) Db.empty) ∧
    ¬ WatchesNamed (afterCreations (twoInvoices { sampleOption with
      paymentMethodId := ("POL", .evm 1), paymentAddress := Evm.addressText 6 }) Db.empty) := by
  unfold WatchesNamed Named
  decide +kernel

end EthPayServer.Watch
