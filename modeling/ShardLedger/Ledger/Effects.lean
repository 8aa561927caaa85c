import ShardLedger.Ledger.Basic
/-
What an accepted transaction does to the accounts.

Each kind of transaction checks everything it needs before it changes anything, so that one that
fails leaves the accounts as they were.  The outcome is a receipt.
-/

set_option autoImplicit false

namespace ShardLedger

/-- **A renewal period**, if accounts may have it. -/
def autoRenewPeriod? (seconds : Int64) : Option Duration :=
  if 0 ≤ seconds then
    let period := Duration.ofSeconds (UInt64.ofNat seconds.toInt.toNat)
    if period.IsAutoRenew then some period else none
  else none

namespace Ledger

/-! ## 1. Creation -/

/-- **Create an account** and fund it from the payer. -/
def create (l : Ledger) (payer : AccountId) (c : Creation) (now : Timestamp) : Receipt × Ledger :=
  match autoRenewPeriod? c.autoRenewSeconds with
  | none => (.ofStatus .autoRenewDurationNotInRange, l)
  | some period =>
    if (l.balance? payer).any (c.initialBalance ≤ ·) then
      let id := AccountId.simple l.nextAccount
      let l := l.debit payer c.initialBalance
      let l := { l with
        nextAccount := l.nextAccount + 1
        accounts := l.accounts.set id (.opened c.key 0 period now) }
      ((Receipt.ofStatus .success).withAccountId id, l.credit id c.initialBalance)
    else (.ofStatus .insufficientPayerBalance, l)

/-! ## 2. Transfer -/

/-- **The net amount for each account** of a list of legs. -/
def netOf (legs : List AccountAmount) : Table AccountId Int :=
  legs.foldl (fun net leg => post net leg.accountId leg.amount.toInt) .empty

/-- **The balance of an account after a net amount**, if the account can bear it. -/
def settled (l : Ledger) (id : AccountId) (delta : Int) : Except Status UInt64 := do
  let a ← l.liveAccount id
  let balance := (a.balance.toNat : Int) + delta
  if balance < 0 then .error .insufficientAccountBalance
  else
    match toU64? balance with
    | some balance => .ok balance
    | none => .error .invalidAccountAmounts

/-- **The balances after the net amounts**, if every account can bear its own. -/
def settlement (l : Ledger) (net : List (AccountId × Int)) :
    Except Status (List (AccountId × UInt64 × Int)) :=
  net.mapM fun e => do
    let balance ← l.settled e.1 e.2
    return (e.1, balance, e.2)

/-- **Write a settled balance.** -/
def settle (l : Ledger) (e : AccountId × UInt64 × Int) : Ledger :=
  { l with
    accounts := l.accounts.adjust e.1 fun a => { a with balance := e.2.1 }
    journal := post l.journal e.1 e.2.2 }

/-- **Transfer amounts** that sum to zero. -/
def transfer (l : Ledger) (legs : List AccountAmount) : Receipt × Ledger :=
  let net := netOf legs
  if net.values.sum ≠ 0 then (.ofStatus .invalidAccountAmounts, l)
  else
    match l.settlement net.entries with
    | .error status => (.ofStatus status, l)
    | .ok settled => (.ofStatus .success, settled.foldl settle l)

/-! ## 3. Update -/

/-- **The renewal period that an update asks for**, if it asks for one and accounts may have it. -/
def renewal (u : Update) : Except Status (Option Duration) :=
  match u.autoRenewSeconds with
  | none => .ok none
  | some seconds =>
    match autoRenewPeriod? seconds with
    | some period => .ok (some period)
    | none => .error .autoRenewDurationNotInRange

/-- **An account after an update.** -/
def updated (a : Account) (key : Option PublicKey) (period : Option Duration) : Account :=
  { a with
    key := key.getD a.key
    autoRenewSeconds :=
      match period with
      | some p => Int64.ofNat p.seconds.toNat
      | none => a.autoRenewSeconds }

/-- **Update an account.** -/
def update (l : Ledger) (u : Update) : Receipt × Ledger :=
  match l.liveAccount u.accountId, renewal u with
  | .error status, _ => (.ofStatus status, l)
  | _, .error status => (.ofStatus status, l)
  | .ok a, .ok period =>
    (.ofStatus .success, { l with accounts := l.accounts.set u.accountId (updated a u.key period) })

/-! ## 4. Deletion -/

/-- **Delete an account** and pass what it holds to another. -/
def delete (l : Ledger) (d : Deletion) : Receipt × Ledger :=
  if d.accountId = d.beneficiary then (.ofStatus .transferAccountSameAsDeleteAccount, l)
  else
    match l.liveAccount d.accountId, l.liveAccount d.beneficiary with
    | .error status, _ => (.ofStatus status, l)
    | _, .error status => (.ofStatus status, l)
    | .ok a, .ok _ =>
      let l := (l.debit d.accountId a.balance).credit d.beneficiary a.balance
      (.ofStatus .success,
        { l with accounts := l.accounts.adjust d.accountId fun a => { a with deleted := true } })

/-! ## 5. Any payload -/

/-- **Apply what a transaction does**, once its fee is paid. -/
def apply (l : Ledger) (payer : AccountId) (payload : Payload) (now : Timestamp) : Receipt × Ledger :=
  match payload with
  | .create c => l.create payer c now
  | .transfer legs => l.transfer legs
  | .update u => l.update u
  | .delete d => l.delete d

end Ledger

end ShardLedger
