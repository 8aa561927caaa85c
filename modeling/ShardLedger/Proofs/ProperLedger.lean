import ShardLedger.Proofs.AtMostOnce
import ShardLedger.Proofs.BinaryReading
import ShardLedger.Proofs.RecordAccuracy
/-
Ledgers that have nothing improper to tell.

Readers on the other side of a wire refuse an account identifier with a negative component and a key
that is no point, so a ledger must not tell of one.  What it tells of are the keys of accounts, and
records; and the accounts that a record names are those of a body that was read, those that the
transaction moved value for, and those that were created.  Bodies that were read are proper, and the
numbers that accounts are created under do not run out.  So every ledger that operations can reach
answers every proper request with a proper response.
-/

set_option autoImplicit false

namespace ShardLedger

section Signing

variable [SignatureScheme]

/-! ## 1. Reachable ledgers -/

/-- **An operation is proper**: an account is not opened under a key that is no point. -/
def Operation.Proper : Operation → Prop
  | .createAccount _ key _ _ => key.Proper
  | .submit _ _ | .ask _ | .setBalance _ _ => True

namespace Ledger

/-- **A ledger can be reached**: proper operations lead to it from the empty one, and all the way there
is a number for the next account. -/
inductive Reachable (c : Config) : Ledger → Prop
  | empty (numbered : 0 ≤ c.firstAccountNumber) : Reachable c (.empty c)
  | step {l : Ledger} (op : Operation) (reached : Reachable c l) (proper : op.Proper)
    (numbered : 0 ≤ (l.perform c op).nextAccount) : Reachable c (l.perform c op)

/-- **A ledger is proper**: the keys of its accounts are, and the records it keeps, and so is the next
account. -/
structure Proper (l : Ledger) : Prop where
  keys : ∀ {id a}, l.accounts.get? id = some a → a.key.Proper
  records : ∀ {id r}, l.receipts.get? id = some r → r.record.Proper
  numbered : 0 ≤ l.nextAccount

/-! ## 2. Moves of value -/

/-- **A ledger in the middle of a transaction is sound**: the keys of its accounts are proper, and the
accounts that its journal names. -/
structure Sound (l : Ledger) : Prop where
  keys : ∀ {id a}, l.accounts.get? id = some a → a.key.Proper
  named : ∀ {id delta}, l.journal.get? id = some delta → id.Proper

section Sound

variable {l l' : Ledger}

/-- Writing one account under a proper key, with no note of it, keeps a ledger sound. -/
theorem Sound.set (h : Sound l) (id : AccountId) {a : Account} (hkey : a.key.Proper)
    (haccounts : l'.accounts = l.accounts.set id a) (hjournal : l'.journal = l.journal) :
    Sound l' where
  keys {k b} hb := by
    rw [haccounts, Table.get?_set] at hb
    split at hb
    · obtain rfl := Option.some.inj hb
      exact hkey
    · exact h.keys hb
  named hd := h.named (hjournal ▸ hd)

/-- Changing one account but not its key, with no note of it, keeps a ledger sound. -/
theorem Sound.adjust (h : Sound l) (id : AccountId) {f : Account → Account}
    (hkey : ∀ a, (f a).key = a.key) (haccounts : l'.accounts = l.accounts.adjust id f)
    (hjournal : l'.journal = l.journal) : Sound l' where
  keys {k b} hb := by
    rw [haccounts, Table.get?_adjust] at hb
    split at hb
    · obtain ⟨a, ha, rfl⟩ := Option.map_eq_some_iff.mp hb
      rw [hkey]
      exact h.keys ha
    · exact h.keys hb
  named hd := h.named (hjournal ▸ hd)

/-- Noting a change for a proper account keeps a ledger sound. -/
theorem Sound.post (h : Sound l) {id : AccountId} (hid : id.Proper) (delta : Int) :
    Sound { l with journal := post l.journal id delta } where
  keys := h.keys
  named {k d} hd := by
    rw [get?_post] at hd
    split at hd
    · rename_i hk
      exact hk ▸ hid
    · exact h.named hd

theorem Sound.debit (h : Sound l) {id : AccountId} (hid : id.Proper) (amount : UInt64) :
    Sound (l.debit id amount) := by
  unfold Ledger.debit
  cases ha : l.accounts.get? id with
  | none => exact h
  | some a =>
    have hkey := h.keys ha
    refine (h.post hid (-(min amount a.balance).toNat)).set id ?_ rfl rfl
    exact hkey

theorem Sound.credit (h : Sound l) {id : AccountId} (hid : id.Proper) (amount : UInt64) :
    Sound (l.credit id amount) := by
  unfold Ledger.credit
  cases ha : l.accounts.get? id with
  | none => exact h
  | some a =>
    have hkey := h.keys ha
    refine (h.post hid _).set id ?_ rfl rfl
    exact hkey

theorem Sound.foldl_settle {settled : List (AccountId × UInt64 × Int)} (h : Sound l)
    (hids : ∀ e ∈ settled, e.1.Proper) : Sound (settled.foldl Ledger.settle l) := by
  induction settled generalizing l with
  | nil => exact h
  | cons e settled ih =>
    refine ih ?_ fun x hx => hids x (List.mem_cons_of_mem _ hx)
    exact (h.post (hids e List.mem_cons_self) e.2.2).adjust e.1
      (f := fun a => { a with balance := e.2.1 }) (fun _ => rfl) rfl rfl

omit [SignatureScheme] in
/-- A settlement is of accounts that the legs name. -/
theorem exists_leg_of_settlement {legs : List AccountAmount}
    {settled : List (AccountId × UInt64 × Int)} (h : l.settlement (netOf legs).entries = .ok settled)
    {e : AccountId × UInt64 × Int} (he : e ∈ settled) : ∃ leg ∈ legs, leg.accountId = e.1 := by
  have hentry : (e.1, e.2.2) ∈ (netOf legs).entries :=
    (settlement_entries h).1 ▸ List.mem_map_of_mem (f := fun e => (e.1, e.2.2)) he
  rw [Table.mem_entries_iff, get?_netOf] at hentry
  split at hentry
  · rename_i hmem
    exact List.mem_map.mp hmem
  · cases hentry

end Sound

/-! ## 3. Accepted transactions -/

section Applied

variable {l l' : Ledger} {payer : AccountId} {now : Timestamp} {payload : Payload}
  {receipt : Receipt}

omit [SignatureScheme] in
theorem simple_proper {number : Int64} (h : 0 ≤ number) : (AccountId.simple number).Proper :=
  ⟨Int64.le_refl _, Int64.le_refl _, h⟩

omit [SignatureScheme] in
/-- Every failure is a known status. -/
theorem mem_all_of_failures : ∀ status ∈ failures, status ∈ Status.all := by
  decide

/-- **Every outcome keeps a ledger sound.** -/
theorem Applied.sound (h : Applied l payer now payload receipt l') (hl : Sound l)
    (hpayer : payer.Proper) (hpayload : payload.Proper) (hnext : 0 ≤ l.nextAccount) : Sound l' := by
  cases h with
  | failed => exact hl
  | created =>
    rw [afterCreate]
    refine Sound.credit ?_ (simple_proper hnext) _
    refine (hl.debit hpayer _).set _ ?_ rfl rfl
    exact hpayload
  | transferred balanced settles =>
    refine hl.foldl_settle fun e he => ?_
    -- Whoever is settled is named by a leg.
    obtain ⟨leg, hleg, heq⟩ := exists_leg_of_settlement settles he
    exact heq ▸ hpayload leg hleg
  | @updated u a period there =>
    rw [afterUpdate]
    refine hl.set u.accountId ?_ rfl rfl
    -- The key is the one that is asked for, or else the one that was there.
    change (u.key.getD a.key).Proper
    cases hkey : u.key with
    | none => exact hl.keys there
    | some k => exact hpayload.2 k hkey
  | deleted =>
    rw [afterDelete]
    exact ((hl.debit hpayload.1 _).credit hpayload.2 _).adjust _
      (f := fun a => { a with deleted := true }) (fun _ => rfl) rfl rfl

omit [SignatureScheme] in
/-- **Every outcome has a proper receipt.** -/
theorem Applied.proper_receipt (h : Applied l payer now payload receipt l')
    (hnext : 0 ≤ l.nextAccount) : receipt.Proper := by
  have hsuccess : Status.success.Canonical := Status.canonical_of_mem (by decide)
  cases h with
  | failed fails => exact ⟨Status.canonical_of_mem (mem_all_of_failures _ fails), nofun⟩
  | created =>
    refine ⟨hsuccess, ?_⟩
    rintro _ ⟨⟩
    exact simple_proper hnext
  | transferred => exact ⟨hsuccess, nofun⟩
  | updated => exact ⟨hsuccess, nofun⟩
  | deleted => exact ⟨hsuccess, nofun⟩

end Applied

section Accept

variable {c : Config} {l : Ledger} {body : TransactionBody}

theorem Proper.sound_charged (h : l.Proper) (hbody : body.Proper) : Sound (charged c l body) := by
  have hempty : Sound { l with journal := .empty } := ⟨h.keys, nofun⟩
  exact (hempty.debit hbody.id _).credit hbody.node _

/-- **The ledger after accepting** a proper body keeps proper keys and records. -/
theorem Proper.accept (h : l.Proper) (hbody : body.Proper) (t : SignedTransaction)
    (now : Timestamp) (hnext : 0 ≤ (l.accept c t body now).nextAccount) :
    (l.accept c t body now).Proper := by
  have happlied := outcome_applied c l body now
  have hnumbered : 0 ≤ (charged c l body).nextAccount := by
    rw [(onlyAccounts_charged c l body).nextAccount]
    exact h.numbered
  have hsound := happlied.sound (h.sound_charged hbody) hbody.id hbody.payload hnumbered
  have hkept : (kept c l t body now).record.Proper :=
    { id := hbody.id
      receipt := happlied.proper_receipt hnumbered
      transfers := fun a ha => hsound.named (mem_netChanges.mp ha).1 }
  refine ⟨fun {id a} ha => ?_, fun {id r} hr => ?_, hnext⟩
  · rw [accept_eq] at ha
    exact hsound.keys ha
  · rw [get?_receipts_accept] at hr
    split at hr
    · obtain rfl := Option.some.inj hr
      exact hkept
    · exact h.records hr

end Accept

/-! ## 4. Operations -/

section Step

variable {c : Config} {l : Ledger}

theorem Proper.prune (h : l.Proper) (now : Timestamp) (retention : Duration) :
    (l.prune now retention).Proper where
  keys := h.keys
  records {id r} hr := by
    rw [get?_receipts_prune] at hr
    exact h.records (Option.filter_eq_some_iff.mp hr).1
  numbered := h.numbered

theorem Proper.submit (h : l.Proper) (t : SignedTransaction) (now : Timestamp)
    (hnext : 0 ≤ (l.submit c t now).2.nextAccount) : (l.submit c t now).2.Proper := by
  have hpruned := h.prune now c.receiptRetention
  rcases submit_cases c l t now with ⟨status, -, heq⟩ | ⟨body, payer, ha, heq⟩
  · rw [heq]
    exact hpruned
  · rw [heq] at hnext ⊢
    exact hpruned.accept (SignedTransaction.proper_of_body ha.decodes) t now hnext

theorem Proper.ask (h : l.Proper) (q : Query) : (l.ask c q).2.Proper := by
  have hframe := untouched_ask c l q
  refine ⟨fun {k a} ha => ?_, fun {k s} hs => ?_, ?_⟩
  · rw [hframe.accounts] at ha
    exact h.keys ha
  · rw [get?_receipts_asked] at hs
    obtain ⟨r, hr, rfl⟩ := Option.map_eq_some_iff.mp hs
    rw [Retained.record_asked]
    exact h.records hr
  · rw [hframe.nextAccount]
    exact h.numbered

/-- **Every proper operation keeps a ledger proper** while there are numbers for accounts. -/
theorem Proper.perform (h : l.Proper) {op : Operation} (hop : op.Proper)
    (hnext : 0 ≤ (l.perform c op).nextAccount) : (l.perform c op).Proper := by
  cases op with
  | submit t now => exact h.submit t now hnext
  | ask q => exact h.ask q
  | createAccount id key balance now =>
    refine ⟨fun {k a} ha => ?_, h.records, h.numbered⟩
    rw [Ledger.perform, createAccount, Table.get?_set] at ha
    split at ha
    · obtain rfl := Option.some.inj ha
      exact hop
    · exact h.keys ha
  | setBalance id balance =>
    refine ⟨fun {k a} ha => ?_, h.records, h.numbered⟩
    rw [Ledger.perform, setBalance, Table.get?_adjust] at ha
    split at ha
    · obtain ⟨b, hb, rfl⟩ := Option.map_eq_some_iff.mp ha
      have hkey := h.keys hb
      exact hkey
    · exact h.keys ha

/-- A request is an operation, and a proper one. -/
theorem Reachable.handle (h : Reachable c l) (r : Request) (now : Timestamp)
    (hnext : 0 ≤ (l.handle c r now).2.nextAccount) : Reachable c (l.handle c r now).2 := by
  cases r with
  | transaction t => exact .step (.submit t now) h trivial hnext
  | query q => exact .step (.ask q) h trivial hnext

/-- **Every ledger that can be reached is proper.** -/
theorem Reachable.proper (h : Reachable c l) : l.Proper := by
  induction h with
  | empty numbered => exact ⟨nofun, nofun, numbered⟩
  | step op _ proper numbered ih => exact ih.perform proper numbered

end Step

/-! ## 5. Responses -/

section Respond

variable {c : Config} {l : Ledger}

omit [SignatureScheme] in
/-- Every refusal is a known status. -/
theorem mem_all_of_refusals : ∀ status ∈ refusals, status ∈ Status.all := by
  decide

omit [SignatureScheme] in
/-- A history is of records that are kept. -/
theorem exists_of_mem_history {id : AccountId} {s : Record} (h : s ∈ l.history id) :
    ∃ k r, l.receipts.get? k = some r ∧ r.record = s := by
  have hlisted := (perm_foldl_insertByTime _ []).mem_iff.mp h
  rw [List.append_nil] at hlisted
  obtain ⟨r, hr, heq⟩ := List.mem_map.mp hlisted
  obtain ⟨⟨k, _⟩, hmem, rfl⟩ := List.mem_map.mp (List.mem_filter.mp hr).1
  exact ⟨k, _, (Table.mem_entries_iff _ _ _).mp hmem, heq⟩

/-- **The answer to a proper question is proper.** -/
theorem Proper.answer (h : l.Proper) {q : Question} (hq : q.Proper) {a : Answer} {l' : Ledger}
    (ha : l.answer q = .ok (a, l')) : a.Proper := by
  cases q with
  | accountBalance id =>
    obtain ⟨account, -, ha⟩ := bind_eq_ok.mp ha
    obtain ⟨rfl, -⟩ := Prod.mk.inj (Except.ok.inj ha)
    exact hq
  | accountInfo id =>
    rw [Ledger.answer] at ha
    split at ha
    · rename_i account hget
      obtain ⟨rfl, -⟩ := Prod.mk.inj (Except.ok.inj ha)
      exact ⟨hq, h.keys hget⟩
    · cases ha
  | accountRecords id =>
    rw [Ledger.answer] at ha
    split at ha
    · obtain ⟨rfl, -⟩ := Prod.mk.inj (Except.ok.inj ha)
      refine ⟨hq, fun s hs => ?_⟩
      obtain ⟨k, r, hr, rfl⟩ := exists_of_mem_history hs
      exact h.records hr
    · cases ha
  | transactionReceipt id =>
    rw [Ledger.answer] at ha
    split at ha
    · rename_i r hr
      obtain ⟨rfl, -⟩ := Prod.mk.inj (Except.ok.inj ha)
      -- What a poll shows is the receipt of the record, or that there is none yet.
      change (pollReceipt r).1.Proper
      unfold pollReceipt
      split
      · exact (h.records hr).receipt
      · have hunknown : Receipt.pending.status.Canonical := Status.canonical_of_mem (by decide)
        exact ⟨hunknown, fun a ha => absurd ha (Option.not_mem_none a)⟩
    · cases ha
  | transactionRecord id =>
    rw [Ledger.answer] at ha
    split at ha
    · rename_i r hr
      split at ha
      · obtain ⟨rfl, -⟩ := Prod.mk.inj (Except.ok.inj ha)
        exact h.records hr
      · cases ha
    · cases ha

omit [SignatureScheme] in
/-- **What stands in for an answer is a known status.** -/
theorem failsWith_answer (l : Ledger) (q : Question) : FailsWith Status.all (l.answer q) := by
  cases q with
  | accountBalance id =>
    exact ((failsWith_liveAccount l id).mono mem_all_of_failures).bind fun a => .ok _
  | accountInfo id =>
    rw [Ledger.answer]
    split
    · exact .ok _
    · exact .error (by decide)
  | accountRecords id =>
    rw [Ledger.answer]
    split
    · exact .ok _
    · exact .error (by decide)
  | transactionReceipt id =>
    rw [Ledger.answer]
    split
    · exact .ok _
    · exact .error (by decide)
  | transactionRecord id =>
    rw [Ledger.answer]
    split
    · split
      · exact .ok _
      · exact .error (by decide)
    · exact .error (by decide)

omit [SignatureScheme] in
/-- **What keeps a question from being asked is a known status.** -/
theorem failsWith_admits (l : Ledger) (q : Question) : FailsWith Status.all (l.admits q) := by
  cases q with
  | accountBalance id =>
    exact ((failsWith_liveAccount l id).mono mem_all_of_failures).map
  | accountInfo id => exact .require (by decide)
  | accountRecords id => exact .require (by decide)
  | transactionReceipt id => exact .ok ()
  | transactionRecord id => exact .ok ()

/-- A response without an answer is proper if its status is known. -/
theorem proper_withoutAnswer {status : Status} (h : status ∈ Status.all) (phase : Phase)
    (cost : UInt64) : (QueryResponse.mk status phase cost none).Proper where
  precheck := Status.canonical_of_mem h
  answer a ha := absurd ha (Option.not_mem_none a)

theorem Proper.response_ask (h : l.Proper) {q : Query} (hq : q.question.Proper) :
    (l.ask c q).1.Proper := by
  have hok : Status.ok ∈ Status.all := by decide
  obtain ⟨phase, question⟩ := q
  cases phase with
  | cost =>
    rw [Ledger.ask]
    cases ha : l.admits question with
    | error status => exact proper_withoutAnswer (failsWith_admits l question status ha) _ _
    | ok _ => exact proper_withoutAnswer hok _ _
  | answer =>
    rw [Ledger.ask]
    cases ha : l.answer question with
    | error status => exact proper_withoutAnswer (failsWith_answer l question status ha) _ _
    | ok al =>
      refine ⟨Status.canonical_of_mem hok, ?_⟩
      rintro _ ⟨⟩
      exact h.answer hq ha

/-- **A proper ledger answers a proper request with a proper response.** -/
theorem Proper.response_handle (h : l.Proper) {r : Request} (hr : r.Proper) (now : Timestamp) :
    (l.handle c r now).1.Proper := by
  cases r with
  | transaction t =>
    have hknown : (l.submit c t now).1 ∈ Status.all := by
      rcases submit_status c l t now with hok | hrefused
      · rw [hok]
        decide
      · exact mem_all_of_refusals _ hrefused
    exact Status.canonical_of_mem hknown
  | query q => exact h.response_ask hr

end Respond

end Ledger

end Signing

/-! ## 6. The ledger for trials -/

namespace Trial

theorem proper_key (number : UInt8) : letI := scheme; (key number).Proper :=
  ⟨List.length_replicate, rfl⟩

/-- The ledger for trials can be reached. -/
theorem reachable_ledger : letI := scheme; ledger.Reachable {} := by
  let := scheme
  have hopen : ∀ {l : Ledger} {id number balance}, l.Reachable {} → 0 ≤ l.nextAccount →
      (l.createAccount id (key number) balance ⟨1000, 0⟩).Reachable {} :=
    fun {l id number balance} h hn =>
      .step (.createAccount id (key number) balance ⟨1000, 0⟩) h (proper_key number) hn
  exact hopen (hopen (hopen (.empty (by decide)) (by decide)) (by decide)) (by decide)

end Trial

end ShardLedger
