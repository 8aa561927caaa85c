import ShardLedger.Proofs.Admission
/-
Authorization of effects.

The keys that must sign are collected leg by leg, with no regard to whether an account is there, and
are matched with the signatures by position.  What a transaction does is computed later, from one net
amount for each account.  The two meet in the required keys: whoever loses value, a key, a renewal
period or its place among the living has its key among them, and so has a key that is newly set; and
each required key was met by a signature of its own.
-/

set_option autoImplicit false

namespace ShardLedger

namespace Ledger

/-! ## 1. What needs no signature -/

/-- The required keys are a matter of keys only. -/
theorem requiredKeys_congr {l l' : Ledger} {p p' : Account} (hkey : p'.key = p.key)
    (hkeys : ∀ id, l'.keyOf? id = l.keyOf? id) (payload : Payload) :
    l'.requiredKeys p' payload = l.requiredKeys p payload := by
  unfold requiredKeys
  rw [hkey]
  simp only [hkeys]

/-- **An account is spared**: it holds no less than before, under the same key, with the same renewal
period, and is deleted exactly if it was. -/
structure Spared (a a' : Account) : Prop where
  balance : a.balance ≤ a'.balance
  key : a'.key = a.key
  renewal : a'.autoRenewSeconds = a.autoRenewSeconds
  deletion : a'.deleted = a.deleted

theorem Spared.refl (a : Account) : Spared a a :=
  ⟨UInt64.le_refl _, rfl, rfl, rfl⟩

theorem Spared.trans {a b c : Account} (hab : Spared a b) (hbc : Spared b c) : Spared a c where
  balance := UInt64.le_trans hab.balance hbc.balance
  key := hbc.key.trans hab.key
  renewal := hbc.renewal.trans hab.renewal
  deletion := hbc.deletion.trans hab.deletion

/-- An account that holds no less, and is otherwise the same, is spared. -/
theorem spared_of_le (a : Account) {balance : UInt64} (h : a.balance ≤ balance) :
    Spared a { a with balance := balance } :=
  ⟨h, rfl, rfl, rfl⟩

/-- Adding to a balance never lowers it, even where it stops. -/
theorem le_saturateU64_add (balance amount : UInt64) :
    balance ≤ saturateU64 (balance.toNat + amount.toNat) := by
  have := balance.toNat_lt
  rw [UInt64.le_iff_toNat_le, toNat_saturateU64]
  omega

/-- The fee spares everyone but the payer. -/
theorem le_balanceAfterFee {c : Config} {body : TransactionBody} {id : AccountId}
    (h : id ≠ body.id.accountId) (balance : UInt64) :
    balance ≤ balanceAfterFee c body id balance := by
  unfold balanceAfterFee
  rw [if_neg h]
  by_cases hpn : body.id.accountId = body.node
  · rw [if_pos hpn]
    exact UInt64.le_refl _
  · rw [if_neg hpn]
    by_cases hn : id = body.node
    · rw [if_pos hn]
      exact le_saturateU64_add _ _
    · rw [if_neg hn]
      exact UInt64.le_refl _

/-! ## 2. What each outcome needs -/

/-- A negative leg puts the key of its account among the required ones. -/
theorem key_mem_requiredKeys_transfer {l : Ledger} {p a : Account} {legs : List AccountAmount}
    {leg : AccountAmount} (hleg : leg ∈ legs) (hneg : leg.amount < 0)
    (ha : l.accounts.get? leg.accountId = some a) :
    a.key ∈ l.requiredKeys p (.transfer legs) := by
  refine List.mem_cons_of_mem _ (List.mem_filterMap.mpr ⟨leg, ?_, ?_⟩)
  · exact List.mem_filter.mpr ⟨hleg, decide_eq_true hneg⟩
  · rw [keyOf?, ha, Option.map_some]

/-- **The slot that a transaction opens**: the next account of the ledger, if a creation succeeds. -/
def Opens (l : Ledger) (payload : Payload) (receipt : Receipt) (id : AccountId) : Prop :=
  (∃ c, payload = .create c) ∧ receipt.status = .success ∧ id = .simple l.nextAccount

/-- **The keys account for a change**: an account is spared unless its key is required, and a key is
set only if it is required. -/
structure Covered (keys : List PublicKey) (a a' : Account) : Prop where
  spared : Spared a a' ∨ a.key ∈ keys
  rekeyed : a'.key = a.key ∨ a'.key ∈ keys

theorem Covered.of_spared {keys : List PublicKey} {a a' : Account} (h : Spared a a') :
    Covered keys a a' :=
  ⟨.inl h, .inl h.key⟩

section Applied

variable {l l' : Ledger} {p a : Account} {payer id : AccountId} {now : Timestamp}
  {payload : Payload} {receipt : Receipt}

/-- A creation changes the payer and no other account that was there. -/
theorem get?_afterCreate_of_ne (c : Creation) (period : Duration)
    (h : id ≠ .simple l.nextAccount) :
    (l.afterCreate payer c period now).accounts.get? id
      = (l.debit payer c.initialBalance).accounts.get? id := by
  rw [afterCreate, get?_credit, if_neg h, Table.get?_set, if_neg h]

/-- A deletion takes nothing from any other account. -/
theorem spared_afterDelete {d : Deletion} (b : Account) (h : id ≠ d.accountId)
    (ha : l.accounts.get? id = some a) :
    ∃ a', (l.afterDelete d b).accounts.get? id = some a' ∧ Spared a a' := by
  have hd : (l.debit d.accountId b.balance).accounts.get? id = some a := by
    rw [get?_debit, if_neg h, ha]
  rw [afterDelete, Table.get?_adjust, if_neg h, get?_credit]
  by_cases hb : id = d.beneficiary
  · rw [if_pos hb, ← hb, hd]
    exact ⟨_, rfl, spared_of_le a (le_saturateU64_add _ _)⟩
  · rw [if_neg hb, hd]
    exact ⟨a, rfl, .refl a⟩

/-- **Every outcome is covered by the required keys.** -/
theorem Applied.covered (h : Applied l payer now payload receipt l')
    (hp : l.accounts.get? payer = some p) (ha : l.accounts.get? id = some a)
    (hid : ¬ l.Opens payload receipt id) :
    ∃ a', l'.accounts.get? id = some a' ∧ Covered (l.requiredKeys p payload) a a' := by
  cases h with
  | failed => exact ⟨a, ha, .of_spared (.refl a)⟩
  | @created c period =>
    have hne : id ≠ .simple l.nextAccount := fun h => hid ⟨⟨c, rfl⟩, rfl, h⟩
    rw [get?_afterCreate_of_ne c period hne, get?_debit]
    by_cases hpay : id = payer
    · -- The payer funds the new account, and its key is the first that is required.
      rw [hpay, hp] at ha
      obtain rfl := Option.some.inj ha
      rw [if_pos hpay, hp]
      exact ⟨_, rfl, .inr List.mem_cons_self, .inl rfl⟩
    · rw [if_neg hpay]
      exact ⟨a, ha, .of_spared (.refl a)⟩
  | @transferred legs settled balanced settles =>
    rcases settled_account_cases settles id with
      ⟨-, hsame⟩ | ⟨delta, b, balance, hnet, hb, -, hsum, hl'⟩
    · exact ⟨a, hsame.trans ha, .of_spared (.refl a)⟩
    · rw [ha] at hb
      obtain rfl := Option.some.inj hb
      refine ⟨_, hl', ?_, .inl rfl⟩
      -- An account that loses has a negative leg, and being there it has a key to be required.
      by_cases hneg : delta < 0
      · obtain ⟨leg, hleg, rfl, hamount⟩ := exists_negative_leg hnet hneg
        exact .inr (key_mem_requiredKeys_transfer hleg hamount ha)
      · refine .inl (spared_of_le a (UInt64.le_iff_toNat_le.mpr ?_))
        omega
  | @updated u b period there =>
    rw [afterUpdate, Table.get?_set]
    by_cases hu : id = u.accountId
    · -- The account must sign under its old key, and under the new one if it is given.
      rw [hu, there] at ha
      obtain rfl := Option.some.inj ha
      have hold : b.key ∈ l.requiredKeys p (.update u) := by
        simp [requiredKeys, keyOf?, there]
      refine ⟨_, if_pos hu, .inr hold, ?_⟩
      cases hkey : u.key with
      | none => exact .inl rfl
      | some key =>
        have hnew : (Ledger.updated b (some key) period).key = key := rfl
        refine .inr ?_
        simp [requiredKeys, hkey, hnew]
    · rw [if_neg hu]
      exact ⟨a, ha, .of_spared (.refl a)⟩
  | @deleted d b heir distinct there =>
    by_cases hd : id = d.accountId
    · -- Only the account that is deleted loses anything.
      rw [hd, there] at ha
      obtain rfl := Option.some.inj ha
      have hold : b.key ∈ l.requiredKeys p (.delete d) := by
        simp [requiredKeys, keyOf?, there]
      rw [afterDelete, Table.get?_adjust, if_pos hd, get?_credit, if_neg distinct, get?_debit,
        if_pos rfl, there]
      exact ⟨_, rfl, .inr hold, .inl rfl⟩
    · obtain ⟨a', ha', hs⟩ := spared_afterDelete b hd ha
      exact ⟨a', ha', .of_spared hs⟩

end Applied

end Ledger

section Signing

variable [SignatureScheme]

/-! ## 3. What the signatures say -/

/-- **A key signs a transaction**: one of the signatures is of the body under that key. -/
def SignedTransaction.IsSignedUnder (t : SignedTransaction) (key : PublicKey) : Prop :=
  ∃ s ∈ t.signatures, key.verify t.bodyBytes s = true

namespace Ledger

/-- The match by position, one required key at a time. -/
theorem verify_of_isSignedBy {keys : List PublicKey} {t : SignedTransaction}
    (h : isSignedBy keys t = true) (i : Nat) (hi : i < keys.length) :
    ∃ s, t.signatures[i]? = some s ∧ keys[i].verify t.bodyBytes s = true := by
  rw [isSignedBy, Bool.and_eq_true, decide_eq_true_eq, List.all_eq_true] at h
  obtain ⟨hlen, hall⟩ := h
  -- There are no fewer signatures than keys, so each key has one at its place.
  have his : i < t.signatures.length := Nat.lt_of_lt_of_le hi hlen
  have hz : i < (keys.zip t.signatures).length := by
    rw [List.length_zip]
    omega
  have hmem := hall _ (List.getElem_mem hz)
  rw [List.getElem_zip] at hmem
  exact ⟨t.signatures[i], List.getElem?_eq_getElem his, hmem⟩

/-- Every required key signs. -/
theorem isSignedUnder_of_mem {keys : List PublicKey} {t : SignedTransaction}
    (h : isSignedBy keys t = true) {key : PublicKey} (hk : key ∈ keys) : t.IsSignedUnder key := by
  obtain ⟨i, hi, rfl⟩ := List.mem_iff_getElem.mp hk
  obtain ⟨s, hs, hv⟩ := verify_of_isSignedBy h i hi
  exact ⟨s, List.mem_of_getElem? hs, hv⟩

/-! ## 4. Submissions -/

/-- **The effects of a transaction are authorized**: the first signature is the payer's; an account
that was there, other than one whose slot the transaction opens, is still there, and is spared unless
it signs; and if its key is another, the new one signs too. -/
structure Authorized (l l' : Ledger) (t : SignedTransaction) (body : TransactionBody)
    (receipt : Receipt) : Prop where
  payer : ∃ p s, l.accounts.get? body.id.accountId = some p ∧ t.signatures[0]? = some s
    ∧ p.key.verify t.bodyBytes s = true
  effects : ∀ id a, l.accounts.get? id = some a → ¬ l.Opens body.payload receipt id →
    ∃ a', l'.accounts.get? id = some a' ∧ (Spared a a' ∨ t.IsSignedUnder a.key)
      ∧ (a'.key = a.key ∨ t.IsSignedUnder a'.key)

/-- An accepted transaction requires the same keys once its fee is charged. -/
theorem requiredKeys_charged {c : Config} {l : Ledger} {t : SignedTransaction} {now : Timestamp}
    {body : TransactionBody} {payer : Account} (ha : Admitted c l t now body payer)
    (balance : UInt64) :
    (charged c l body).requiredKeys { payer with balance := balance } body.payload
      = l.requiredKeys payer body.payload := by
  refine requiredKeys_congr rfl (fun id => ?_) body.payload
  rw [keyOf?, keyOf?, get?_charged ha, Option.map_map, Function.comp_def]

/-- **What an admitted transaction does is authorized.** -/
theorem Admitted.authorized_outcome {c : Config} {l : Ledger} {t : SignedTransaction}
    {now : Timestamp} {body : TransactionBody} {payer : Account}
    (ha : Admitted c l t now body payer) :
    Authorized l (outcome c l body now).2 t body (outcome c l body now).1 where
  payer := by
    obtain ⟨s, hs, hv⟩ := verify_of_isSignedBy ha.signed 0 (Nat.succ_pos _)
    exact ⟨payer, s, ha.pays, hs, hv⟩
  effects := by
    intro id a hget hid
    have hcharged : ∀ {k : AccountId} {b : Account}, l.accounts.get? k = some b →
        (charged c l body).accounts.get? k
          = some { b with balance := balanceAfterFee c body k b.balance } := by
      intro k b hb
      rw [get?_charged ha, hb, Option.map_some]
    have hid' : ¬ (charged c l body).Opens body.payload (outcome c l body now).1 id := by
      rw [Opens, (onlyAccounts_charged c l body).nextAccount]
      exact hid
    obtain ⟨a', ha', hcovered⟩ :=
      (outcome_applied c l body now).covered (hcharged ha.pays) (hcharged hget) hid'
    rw [requiredKeys_charged ha] at hcovered
    have hsigns : ∀ {key}, key ∈ l.requiredKeys payer body.payload → t.IsSignedUnder key :=
      isSignedUnder_of_mem ha.signed
    refine ⟨a', ha', ?_, hcovered.rekeyed.imp_right hsigns⟩
    by_cases hpay : id = body.id.accountId
    · -- The payer is charged the fee, and signs first.
      rw [hpay, ha.pays] at hget
      obtain rfl := Option.some.inj hget
      exact .inr (hsigns List.mem_cons_self)
    · have hfee := spared_of_le a (le_balanceAfterFee (c := c) hpay a.balance)
      exact hcovered.spared.imp hfee.trans hsigns

/-- **Accepted transactions are authorized.**  Whatever counts as a signature, the effects of an
accepted transaction are covered by the signatures it carries.

The work is in `Applied.covered`, one case for each outcome: what it changes is accounted for by the keys
that the node requires. -/
theorem submit_authorized (c : Config) (l : Ledger) (t : SignedTransaction) (now : Timestamp)
    (h : (l.submit c t now).1 = .ok) :
    ∃ body r, t.body = .ok body ∧ (l.submit c t now).2.receipts.get? body.id = some r
      ∧ Authorized l (l.submit c t now).2 t body r.record.receipt := by
  rcases submit_cases c l t now with ⟨status, hne, heq⟩ | ⟨body, payer, ha, heq⟩
  · rw [heq] at h
    exact absurd h hne
  · rw [heq]
    refine ⟨body, kept c (l.prune now c.receiptRetention) t body now, ha.decodes, ?_, ?_⟩
    · rw [get?_receipts_accept, if_pos rfl]
    · -- Pruning and keeping the receipt leave the accounts to the outcome.
      rw [accept_eq]
      exact ⟨ha.authorized_outcome.payer, ha.authorized_outcome.effects⟩

end Ledger

end Signing

open Trial in
set_option maxRecDepth 10000 in
/-- The deletion is accepted, and so its effects are authorized. -/
theorem Ledger.submit_authorized_deletion :
    letI := scheme
    (ledger.submit {} signedDeletion ⟨1001, 0⟩).1 = .ok
      ∧ ∃ body r, signedDeletion.body = .ok body
        ∧ (ledger.submit {} signedDeletion ⟨1001, 0⟩).2.receipts.get? body.id = some r
        ∧ Authorized ledger (ledger.submit {} signedDeletion ⟨1001, 0⟩).2 signedDeletion body
            r.record.receipt := by
  let := scheme
  have h : (ledger.submit {} signedDeletion ⟨1001, 0⟩).1 = .ok := by decide +kernel
  exact ⟨h, submit_authorized {} ledger signedDeletion ⟨1001, 0⟩ h⟩

end ShardLedger
