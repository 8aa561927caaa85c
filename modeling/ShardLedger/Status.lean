import ShardLedger.Text.Decimal
/-
Status codes.

A node answers every request with a status, and every receipt carries one.  On the wire a status is
its integer code; the fifty-four known codes are dense from zero, and any other code is kept as it
came, so that a newer node never breaks an older client.
-/

set_option autoImplicit false

namespace ShardLedger

/-- **A status**, known by name or kept as an unrecognized code. -/
inductive Status where
  /-- The request passed the node's checks. -/
  | ok
  | invalidTransaction
  | payerAccountNotFound
  /-- The body names a node account that the receiving node does not serve. -/
  | invalidNodeAccount
  | transactionExpired
  | invalidTransactionStart
  | invalidTransactionDuration
  | invalidSignature
  | memoTooLong
  | insufficientTxFee
  | insufficientPayerBalance
  /-- A transaction with this identifier was already received. -/
  | duplicateTransaction
  /-- The node is overloaded; ask again later. -/
  | busy
  | notSupported
  | invalidFileId
  | invalidAccountId
  | invalidContractId
  | invalidTransactionId
  /-- The node has no receipt for the transaction, or none yet. -/
  | receiptNotFound
  | recordNotFound
  | invalidSolidityId
  /-- The transaction has not reached consensus yet. -/
  | unknown
  /-- The transaction reached consensus and was applied. -/
  | success
  | failInvalid
  | failFee
  | failBalance
  | keyRequired
  | badEncoding
  | insufficientAccountBalance
  | invalidSolidityAddress
  | insufficientGas
  | contractSizeLimitExceeded
  | localCallModificationException
  | contractRevertExecuted
  | contractExecutionException
  | invalidReceivingNodeAccount
  | missingQueryHeader
  | accountUpdateFailed
  | invalidKeyEncoding
  | nullSolidityAddress
  | contractUpdateFailed
  | invalidQueryHeader
  | invalidFeeSubmitted
  | invalidPayerSignature
  | keyNotProvided
  | invalidExpirationTime
  | noWaclKey
  | fileContentEmpty
  /-- Transfer amounts do not net to zero. -/
  | invalidAccountAmounts
  | emptyTransactionBody
  | invalidTransactionBody
  /-- The account was deleted and can no longer pay, send or receive. -/
  | accountDeleted
  /-- A deletion names the deleted account as its own beneficiary. -/
  | transferAccountSameAsDeleteAccount
  | autoRenewDurationNotInRange
  /-- A code that is not known here. -/
  | unrecognized (code : Int32)
deriving DecidableEq, Repr

namespace Status

/-- **The known statuses** with their names, in code order: the code of each is its place. -/
def table : List (Status × String) :=
  [(.ok, "Ok"),
   (.invalidTransaction, "InvalidTransaction"),
   (.payerAccountNotFound, "PayerAccountNotFound"),
   (.invalidNodeAccount, "InvalidNodeAccount"),
   (.transactionExpired, "TransactionExpired"),
   (.invalidTransactionStart, "InvalidTransactionStart"),
   (.invalidTransactionDuration, "InvalidTransactionDuration"),
   (.invalidSignature, "InvalidSignature"),
   (.memoTooLong, "MemoTooLong"),
   (.insufficientTxFee, "InsufficientTxFee"),
   (.insufficientPayerBalance, "InsufficientPayerBalance"),
   (.duplicateTransaction, "DuplicateTransaction"),
   (.busy, "Busy"),
   (.notSupported, "NotSupported"),
   (.invalidFileId, "InvalidFileId"),
   (.invalidAccountId, "InvalidAccountId"),
   (.invalidContractId, "InvalidContractId"),
   (.invalidTransactionId, "InvalidTransactionId"),
   (.receiptNotFound, "ReceiptNotFound"),
   (.recordNotFound, "RecordNotFound"),
   (.invalidSolidityId, "InvalidSolidityId"),
   (.unknown, "Unknown"),
   (.success, "Success"),
   (.failInvalid, "FailInvalid"),
   (.failFee, "FailFee"),
   (.failBalance, "FailBalance"),
   (.keyRequired, "KeyRequired"),
   (.badEncoding, "BadEncoding"),
   (.insufficientAccountBalance, "InsufficientAccountBalance"),
   (.invalidSolidityAddress, "InvalidSolidityAddress"),
   (.insufficientGas, "InsufficientGas"),
   (.contractSizeLimitExceeded, "ContractSizeLimitExceeded"),
   (.localCallModificationException, "LocalCallModificationException"),
   (.contractRevertExecuted, "ContractRevertExecuted"),
   (.contractExecutionException, "ContractExecutionException"),
   (.invalidReceivingNodeAccount, "InvalidReceivingNodeAccount"),
   (.missingQueryHeader, "MissingQueryHeader"),
   (.accountUpdateFailed, "AccountUpdateFailed"),
   (.invalidKeyEncoding, "InvalidKeyEncoding"),
   (.nullSolidityAddress, "NullSolidityAddress"),
   (.contractUpdateFailed, "ContractUpdateFailed"),
   (.invalidQueryHeader, "InvalidQueryHeader"),
   (.invalidFeeSubmitted, "InvalidFeeSubmitted"),
   (.invalidPayerSignature, "InvalidPayerSignature"),
   (.keyNotProvided, "KeyNotProvided"),
   (.invalidExpirationTime, "InvalidExpirationTime"),
   (.noWaclKey, "NoWaclKey"),
   (.fileContentEmpty, "FileContentEmpty"),
   (.invalidAccountAmounts, "InvalidAccountAmounts"),
   (.emptyTransactionBody, "EmptyTransactionBody"),
   (.invalidTransactionBody, "InvalidTransactionBody"),
   (.accountDeleted, "AccountDeleted"),
   (.transferAccountSameAsDeleteAccount, "TransferAccountSameAsDeleteAccount"),
   (.autoRenewDurationNotInRange, "AutoRenewDurationNotInRange")]

/-- **Every known status**, in code order. -/
def all : List Status :=
  table.map Prod.fst

/-- **The wire code** of a status. -/
def code : Status → Int32
  | .ok => 0
  | .invalidTransaction => 1
  | .payerAccountNotFound => 2
  | .invalidNodeAccount => 3
  | .transactionExpired => 4
  | .invalidTransactionStart => 5
  | .invalidTransactionDuration => 6
  | .invalidSignature => 7
  | .memoTooLong => 8
  | .insufficientTxFee => 9
  | .insufficientPayerBalance => 10
  | .duplicateTransaction => 11
  | .busy => 12
  | .notSupported => 13
  | .invalidFileId => 14
  | .invalidAccountId => 15
  | .invalidContractId => 16
  | .invalidTransactionId => 17
  | .receiptNotFound => 18
  | .recordNotFound => 19
  | .invalidSolidityId => 20
  | .unknown => 21
  | .success => 22
  | .failInvalid => 23
  | .failFee => 24
  | .failBalance => 25
  | .keyRequired => 26
  | .badEncoding => 27
  | .insufficientAccountBalance => 28
  | .invalidSolidityAddress => 29
  | .insufficientGas => 30
  | .contractSizeLimitExceeded => 31
  | .localCallModificationException => 32
  | .contractRevertExecuted => 33
  | .contractExecutionException => 34
  | .invalidReceivingNodeAccount => 35
  | .missingQueryHeader => 36
  | .accountUpdateFailed => 37
  | .invalidKeyEncoding => 38
  | .nullSolidityAddress => 39
  | .contractUpdateFailed => 40
  | .invalidQueryHeader => 41
  | .invalidFeeSubmitted => 42
  | .invalidPayerSignature => 43
  | .keyNotProvided => 44
  | .invalidExpirationTime => 45
  | .noWaclKey => 46
  | .fileContentEmpty => 47
  | .invalidAccountAmounts => 48
  | .emptyTransactionBody => 49
  | .invalidTransactionBody => 50
  | .accountDeleted => 51
  | .transferAccountSameAsDeleteAccount => 52
  | .autoRenewDurationNotInRange => 53
  | .unrecognized c => c

/-- **The status of a wire code.** -/
def ofCode (c : Int32) : Status :=
  if 0 ≤ c.toInt then
    match all[c.toInt.toNat]? with
    | some s => s
    | none => .unrecognized c
  else .unrecognized c

/-- **The name of a status**; an unrecognized one shows its code. -/
def name (s : Status) : String :=
  match s with
  | .unrecognized c => "Unrecognized(" ++ String.ofList (Text.integer c.toInt) ++ ")"
  | s =>
    match table.find? fun e => e.1 = s with
    | some e => e.2
    | none => ""

/-- **The text of a status** in messages: its name and code. -/
def text (s : Status) : String :=
  match s with
  | .unrecognized c => "unrecognized status " ++ String.ofList (Text.integer c.toInt)
  | s => s.name ++ " (" ++ String.ofList (Text.integer s.code.toInt) ++ ")"

/-- **The node accepted the request.** -/
def isOk (s : Status) : Bool := s = .ok

/-- **The transaction was applied.** -/
def isSuccess (s : Status) : Bool := s = .success

/-- **The receipt is not final yet.** -/
def isPending (s : Status) : Bool := s = .unknown

/-- **An answer that says "ask again later"** rather than "no". -/
def isTransient (s : Status) : Bool :=
  s = .busy || s = .receiptNotFound || s = .recordNotFound

/-! ## Codes and statuses -/

/-- **A status is canonical**: it does not keep the code of a known one as unrecognized. -/
def Canonical (s : Status) : Prop :=
  ∀ c, s = .unrecognized c → ¬ (0 ≤ c.toInt ∧ c.toInt < 54)

/-- Every known status is canonical. -/
theorem canonical_of_mem {s : Status} (h : s ∈ all) : s.Canonical := by
  rintro c rfl
  have hnone : ∀ s ∈ all, ∀ c, s ≠ .unrecognized c := by
    simp [all, table]
  exact absurd rfl (hnone _ h c)

/-- Reading the code of a canonical status gives it back. -/
theorem ofCode_code {s : Status} (h : s.Canonical) : ofCode s.code = s := by
  cases s with
  | unrecognized c =>
    have hc := h c rfl
    have hl : all.length = 54 := rfl
    show ofCode c = .unrecognized c
    unfold ofCode
    split
    · have hn : all[c.toInt.toNat]? = none := List.getElem?_eq_none (by omega)
      rw [hn]
    · rfl
  | _ => rfl

/-- The code of the status read from a code is that code. -/
theorem code_ofCode (c : Int32) : (ofCode c).code = c := by
  unfold ofCode
  split
  · split
    · rename_i h s hs
      have hn : ∀ n : Nat, n < 54 → (all[n]?).map code = some (Int32.ofNat n) := by decide
      have hlt : c.toInt.toNat < 54 := by
        obtain ⟨hl, _⟩ := List.getElem?_eq_some_iff.mp hs
        exact hl
      have := hn _ hlt
      rw [hs] at this
      simp only [Option.map_some, Option.some.injEq] at this
      rw [this]
      apply Int32.toInt_inj.mp
      rw [Int32.toInt_ofNat_of_lt (by omega)]
      omega
    · rfl
  · rfl

end Status

end ShardLedger
