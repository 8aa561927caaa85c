import ShardLedger.Proofs.BinaryReading
import ShardLedger.Proofs.SignatureCover
import ShardLedger.Proofs.TransferMeaning
/-
Client and node check alike.

Two rules are checked on both sides.  The amounts of a transfer cancel: the client adds the legs up as they
were given, the node adds up its table of net amounts.  And an account renews in a period that is neither
too short nor too long: the client compares the period to the nanosecond, the node the whole seconds that
it finds in a body, which are a word with a sign.

On amounts the two sides always agree.  On periods the node is the more lenient, by less than one second:
the longest period with a fraction is the longest period to it.  So neither rule ever fails a transaction
that a client has let through, and a transfer that still ends with its amounts refused has no account to
hold them.
-/

set_option autoImplicit false

namespace ShardLedger

open PayloadDraft

/-! ## 1. Periods, whole and cut -/

namespace Duration

/-- The seconds of a period that fits their signed word are not mistaken for others. -/
theorem toInt_wireSeconds {period : Duration} (h : period.seconds.toNat < 2 ^ 63) :
    (wireSeconds period).toInt = period.seconds.toNat := by
  rw [wireSeconds, Int64.toInt_ofNat_of_lt h]

/-- The seconds of any longer period are negative there. -/
theorem toInt_wireSeconds_neg {period : Duration} (h : 2 ^ 63 ≤ period.seconds.toNat) :
    (wireSeconds period).toInt < 0 := by
  have hlt := period.seconds.toNat_lt
  have hsize : Int64.size = 2 ^ 64 := rfl
  rw [wireSeconds, Int64.toInt_ofNat', hsize, Int.bmod]
  omega

/-- **The node reads a period cut to its seconds.**  It takes it exactly if accounts may renew in the
period so cut. -/
theorem autoRenewPeriod?_wireSeconds (period : Duration) :
    autoRenewPeriod? (wireSeconds period)
      = if (ofSeconds period.seconds).IsAutoRenew then some (ofSeconds period.seconds) else none := by
  unfold autoRenewPeriod?
  by_cases hfits : period.seconds.toNat < 2 ^ 63
  · have hseconds := toInt_wireSeconds hfits
    have hnonneg : 0 ≤ wireSeconds period := by
      rw [Int64.le_iff_toInt_le, hseconds]
      exact Int.natCast_nonneg _
    rw [if_pos hnonneg, hseconds, Int.toNat_natCast, UInt64.ofNat_toNat]
  · have hneg := toInt_wireSeconds_neg (Nat.le_of_not_lt hfits)
    have hnot : ¬ 0 ≤ wireSeconds period := by
      rw [Int64.le_iff_toInt_le]
      exact Int.not_le.mpr hneg
    -- So many seconds are too long for any account.
    have hlong : ¬ (ofSeconds period.seconds).IsAutoRenew := by
      rintro ⟨-, hle⟩
      rw [le_iff, total_ofSeconds] at hle
      have hmax : maxAutoRenew.total = 8000001 * nanosPerSecond := rfl
      simp only [nanosPerSecond] at hle hmax
      omega
    rw [if_neg hnot, if_neg hlong]

/-- **What cutting a period lets through**: the longest period with a fraction, and nothing else. -/
theorem isAutoRenew_ofSeconds_iff (period : Duration) :
    (ofSeconds period.seconds).IsAutoRenew
      ↔ period.IsAutoRenew ∨ period.seconds = maxAutoRenew.seconds ∧ period.subsecNanos ≠ 0 := by
  have hseconds := period.toNat_seconds
  have hmaxSeconds : maxAutoRenew.seconds.toNat = 8000001 := rfl
  have hmax : maxAutoRenew.total = 8000001 * nanosPerSecond := rfl
  have hmin : minAutoRenew.total = 604800 * nanosPerSecond := rfl
  rw [IsAutoRenew, IsAutoRenew, ← UInt64.toNat_inj]
  simp only [le_iff, total_ofSeconds, hseconds, subsecNanos, hmaxSeconds, hmax, hmin, nanosPerSecond]
  omega

end Duration

/-! ## 2. What drafts and bodies ask for -/

/-- **The renewal period that a draft asks for.** -/
def PayloadDraft.renewal? : PayloadDraft → Option Duration
  | .create _ _ period => some period
  | .update _ _ period => period
  | .transfer _ | .delete _ _ => none

/-- **The seconds between renewals** that a body asks for. -/
def Payload.renewalSeconds? : Payload → Option Int64
  | .create c => some c.autoRenewSeconds
  | .update u => u.autoRenewSeconds
  | .transfer _ | .delete _ => none

namespace PayloadDraft

variable {p : PayloadDraft}

/-- A body asks for the seconds of the period that its draft asks for. -/
theorem renewalSeconds?_of_payload {q : Payload} (h : p.payload = .ok q) :
    q.renewalSeconds? = p.renewal?.map wireSeconds := by
  unfold payload at h
  split at h <;> cases h <;> rfl

/-- Only a transfer is written as one, with the very legs. -/
theorem eq_transfer_of_payload {legs : List AccountAmount} (h : p.payload = .ok (.transfer legs)) :
    p = .transfer legs := by
  unfold payload at h
  split at h <;> cases h
  rfl

/-- The check of a period passes exactly if accounts may renew in it. -/
theorem checkAutoRenew_eq_ok {period : Duration} :
    checkAutoRenew period = .ok () ↔ period.IsAutoRenew := by
  unfold checkAutoRenew
  by_cases h : period.IsAutoRenew <;> simp [h]

/-- A valid draft asks for no period but one in which accounts may renew. -/
theorem isAutoRenew_of_validate (h : p.validate = .ok ()) {period : Duration}
    (hperiod : period ∈ p.renewal?) : period.IsAutoRenew := by
  unfold validate at h
  split at h
  · cases h
  · obtain rfl := Option.some.inj hperiod
    exact checkAutoRenew_eq_ok.mp h
  · cases hperiod
  · cases hperiod
  · obtain rfl := Option.some.inj hperiod
    exact checkAutoRenew_eq_ok.mp h
  · cases h
  · cases hperiod

/-- A period in which accounts may renew is taken by the node, cut to its seconds. -/
theorem autoRenewPeriod?_of_isAutoRenew {period : Duration} (h : period.IsAutoRenew) :
    autoRenewPeriod? (wireSeconds period) = some (.ofSeconds period.seconds) := by
  rw [period.autoRenewPeriod?_wireSeconds, if_pos (period.isAutoRenew_ofSeconds_iff.mpr (.inl h))]

/-- **A transfer is valid exactly if its net amounts cancel.** -/
theorem validate_transfer_iff (legs : List AccountAmount) :
    (PayloadDraft.transfer legs).validate = .ok () ↔ (Ledger.netOf legs).values.sum = 0 := by
  have htotal : sumOf legs = Ledger.totalOf legs := rfl
  rw [Ledger.sum_values_netOf, ← htotal, validate]
  by_cases h : sumOf legs = 0 <;> simp [h]

end PayloadDraft

/-! ## 3. From the draft to the body that is decoded -/

/-- The body that is assembled says what the draft asks for. -/
theorem Draft.payload_of_assembled {d : Draft} {m : Mint} {now : Timestamp} {b : TransactionBody}
    (h : d.assembled m now = .ok b) : d.payload.payload = .ok b.payload := by
  obtain ⟨d₁, hd, hb⟩ := assembled_eq_ok.mp h
  obtain ⟨-, -, hpayload, -⟩ := identify_signed hd
  obtain ⟨id, -, hb⟩ := bind_eq_ok.mp hb
  obtain ⟨node, -, hb⟩ := bind_eq_ok.mp hb
  obtain ⟨q, hq, hb⟩ := bind_eq_ok.mp hb
  obtain rfl := Except.ok.inj hb
  rw [← hpayload]
  exact hq

section Sending

variable [SignatureScheme] {σ : Type}

/-- **What a submission sends** is the body of a valid draft, as it stands. -/
theorem Connection.of_mem_sent {c : Connection σ} {d : Draft} {s : ClientState σ}
    {t : SignedTransaction} (h : .transaction t ∈ (c.witness (·.execute d) s).2) :
    d.payload.validate = .ok ()
      ∧ ∃ b, d.assembled s.mint s.wall = .ok b ∧ t.bodyBytes = Wired.toBytes b := by
  have hexecute := c.witness_execute d s
  cases hclosed : (d.close s.mint s.wall).1 with
  | error e =>
    rw [hclosed] at hexecute
    rw [hexecute] at h
    cases h
  | ok closed =>
    obtain ⟨b, hb⟩ := Draft.assembled_of_close hclosed
    rw [hclosed] at hexecute
    rw [hexecute] at h
    rw [Draft.close_eq hb] at hclosed
    split at hclosed
    · cases hclosed
    · rename_i hvalid
      split at hclosed <;> cases hclosed
      split at h
      · cases h
      · obtain rfl := Request.transaction.inj (List.mem_singleton.mp h)
        exact ⟨hvalid, b, hb, rfl⟩

/-- **A valid draft is sent as it was signed**, on a connection that is open. -/
theorem Connection.sent_of_assembled {c : Connection σ} {d : Draft} {s : ClientState σ}
    {b : TransactionBody} (hvalid : d.payload.validate = .ok ())
    (hb : d.assembled s.mint s.wall = .ok b)
    (hsame : ∀ signed ∈ d.signedBytes, signed = Wired.toBytes b) (hopen : s.closed = false) :
    (c.witness (·.execute d) s).2 = [.transaction ⟨Wired.toBytes b, d.signatures⟩] := by
  have hexecute := c.witness_execute d s
  rw [Draft.close_eq hb, hvalid, if_pos hsame] at hexecute
  simpa [hopen] using hexecute

/-- **What is decoded from a submission is what the draft asks for**, and the draft was valid. -/
theorem Connection.decoded_of_mem_sent {c : Connection σ} {d : Draft} {n : Nat}
    (hd : d.Storable n) (hn : n < 2 ^ 64) {s : ClientState σ} {t : SignedTransaction}
    (h : .transaction t ∈ (c.witness (·.execute d) s).2) {b : TransactionBody} (hb : t.body = .ok b) :
    d.payload.validate = .ok () ∧ d.payload.payload = .ok b.payload := by
  obtain ⟨hvalid, b', hassembled, hbytes⟩ := of_mem_sent h
  have hfits := (hd.assembled hn hassembled).fits_bare
  rw [SignedTransaction.body, hbytes] at hb
  obtain rfl := Wired.eq_of_ofBytes_toBytes rfl hfits hb
  exact ⟨hvalid, Draft.payload_of_assembled hassembled⟩

end Sending

/-! ## 4. What a receipt blames -/

namespace Ledger

/-- **What a status blames.**  A renewal out of range blames seconds that the payload asks for.  Amounts
refused blame the legs of a transfer, which do not cancel, or one account that they name and whose balance
would not fit its word. -/
structure Blames (l : Ledger) (payload : Payload) (status : Status) : Prop where
  renewal : status = .autoRenewDurationNotInRange →
    ∃ seconds ∈ payload.renewalSeconds?, autoRenewPeriod? seconds = none
  amounts : status = .invalidAccountAmounts → ∃ legs, payload = .transfer legs
    ∧ ((netOf legs).values.sum ≠ 0
      ∨ ∃ id ∈ named legs, ∃ a, l.accounts.get? id = some a
        ∧ 2 ^ 64 ≤ (a.balance.toNat : Int) + legSum id legs)

variable {l : Ledger} {payload : Payload} {status : Status}

/-- Any other status blames neither. -/
theorem Blames.blameless (hrenewal : status ≠ .autoRenewDurationNotInRange)
    (hamounts : status ≠ .invalidAccountAmounts) : l.Blames payload status where
  renewal h := absurd h hrenewal
  amounts h := absurd h hamounts

/-- An account that cannot be found live blames neither. -/
theorem Blames.of_liveAccount {id : AccountId} (h : l.liveAccount id = .error status) :
    l.Blames payload status := by
  unfold liveAccount at h
  split at h
  · cases h
    exact .blameless (by decide) (by decide)
  · split at h <;> cases h
    exact .blameless (by decide) (by decide)

/-- **When the check of an account fails**: there is no live account, or it holds too little, or its
balance would not fit. -/
theorem settled_eq_error {id : AccountId} {delta : Int} (h : l.settled id delta = .error status) :
    l.liveAccount id = .error status ∨ status = .insufficientAccountBalance
      ∨ status = .invalidAccountAmounts
        ∧ ∃ a, l.accounts.get? id = some a ∧ 2 ^ 64 ≤ (a.balance.toNat : Int) + delta := by
  unfold settled at h
  cases hl : l.liveAccount id with
  | error s =>
    rw [hl] at h
    obtain rfl : s = status := Except.error.inj h
    exact .inl rfl
  | ok a =>
    rw [hl] at h
    simp only [bind, Except.bind] at h
    split at h
    · cases h
      exact .inr (.inl rfl)
    · rename_i hnonneg
      have hsize : UInt64.size = 2 ^ 64 := rfl
      unfold toU64? at h
      split at h <;> cases h
      rename_i hnone
      refine .inr (.inr ⟨rfl, a, (liveAccount_eq_ok.mp hl).1, ?_⟩)
      split at hnone
      · cases hnone
      · omega

/-- A settlement fails with the check of one of its accounts. -/
theorem settlement_eq_error {net : List (AccountId × Int)} (h : l.settlement net = .error status) :
    ∃ e ∈ net, l.settled e.1 e.2 = .error status := by
  induction net with
  | nil => cases h
  | cons e net ih =>
    rw [settlement, List.mapM_cons] at h
    cases hs : l.settled e.1 e.2 with
    | error s =>
      rw [hs] at h
      obtain rfl : s = status := Except.error.inj h
      exact ⟨e, List.mem_cons_self, hs⟩
    | ok balance =>
      cases hr : l.settlement net with
      | error s =>
        rw [settlement] at hr
        rw [hs, hr] at h
        obtain rfl : s = status := Except.error.inj h
        obtain ⟨e', he', hfails⟩ := ih (by rw [settlement, hr])
        exact ⟨e', List.mem_cons_of_mem _ he', hfails⟩
      | ok rest =>
        rw [settlement] at hr
        rw [hs, hr] at h
        cases h

/-- A settlement that fails blames an account that is not live, or one that the legs name and that would hold
too much. -/
theorem Blames.of_settlement {legs : List AccountAmount}
    (h : l.settlement (netOf legs).entries = .error status) : l.Blames (.transfer legs) status := by
  obtain ⟨e, he, hfails⟩ := settlement_eq_error h
  rw [Table.mem_entries_iff, get?_netOf] at he
  split at he
  · rename_i hnamed
    have hdelta : legSum e.1 legs = e.2 := Option.some.inj he
    rcases settled_eq_error hfails with hlive | rfl | ⟨rfl, a, ha, hlarge⟩
    · exact .of_liveAccount hlive
    · exact .blameless (by decide) (by decide)
    · rw [← hdelta] at hlarge
      exact ⟨fun h => absurd h (by decide),
        fun _ => ⟨legs, rfl, .inr ⟨e.1, hnamed, a, ha, hlarge⟩⟩⟩
  · cases he

/-- A renewal that is refused blames the seconds that the update asks for. -/
theorem Blames.of_renewal {u : Update} (h : Ledger.renewal u = .error status) :
    l.Blames (.update u) status := by
  unfold Ledger.renewal at h
  split at h
  · cases h
  · rename_i seconds hseconds
    split at h <;> cases h
    rename_i hnone
    exact ⟨fun _ => ⟨seconds, hseconds, hnone⟩, fun h => absurd h (by decide)⟩

/-- **A receipt blames what it should**, whatever the transaction does.  The cases are those of the
handlers. -/
theorem blames_apply (l : Ledger) (payer : AccountId) (payload : Payload) (now : Timestamp) :
    l.Blames payload (l.apply payer payload now).1.status := by
  have hsuccess : l.Blames payload .success := .blameless (by decide) (by decide)
  cases payload with
  | create c =>
    rw [apply, create]
    cases hp : autoRenewPeriod? c.autoRenewSeconds with
    | none => exact ⟨fun _ => ⟨_, rfl, hp⟩, by rintro ⟨⟩⟩
    | some period =>
      have hpoor : l.Blames (.create c) .insufficientPayerBalance :=
        .blameless (by decide) (by decide)
      dsimp only
      split
      · exact hsuccess
      · exact hpoor
  | transfer legs =>
    rw [apply, transfer]
    by_cases hsum : (netOf legs).values.sum = 0
    · rw [if_neg (not_not_intro hsum)]
      cases hs : l.settlement (netOf legs).entries with
      | ok settled => exact hsuccess
      | error status => exact .of_settlement hs
    · rw [if_pos hsum]
      exact ⟨by rintro ⟨⟩, fun _ => ⟨legs, rfl, .inl hsum⟩⟩
  | update u =>
    rw [apply, update]
    cases hl : l.liveAccount u.accountId with
    | error status => exact .of_liveAccount hl
    | ok a =>
      cases hr : renewal u with
      | error status => exact .of_renewal hr
      | ok period => exact hsuccess
  | delete d =>
    rw [apply, delete]
    by_cases heq : d.accountId = d.beneficiary
    · have hsame : l.Blames (.delete d) .transferAccountSameAsDeleteAccount :=
        .blameless (by decide) (by decide)
      rw [if_pos heq]
      exact hsame
    · rw [if_neg heq]
      cases hl : l.liveAccount d.accountId with
      | error status => exact .of_liveAccount hl
      | ok a =>
        cases hb : l.liveAccount d.beneficiary with
        | error status => exact .of_liveAccount hb
        | ok b => exact hsuccess

/-- **The receipt of an accepted transaction** is kept under its identifier and blames what it should, in
the ledger that the fee has left. -/
theorem receipt_blames [SignatureScheme] {c : Config} {l : Ledger} {t : SignedTransaction}
    {now : Timestamp} (h : (l.submit c t now).1 = .ok) :
    ∃ b r, t.body = .ok b ∧ (l.submit c t now).2.receipts.get? b.id = some r
      ∧ (charged c (l.prune now c.receiptRetention) b).Blames b.payload r.record.receipt.status := by
  rcases submit_cases c l t now with ⟨status, hne, hsubmit⟩ | ⟨b, payer, ha, hsubmit⟩
  · rw [hsubmit] at h
    exact absurd h hne
  · refine ⟨b, kept c (l.prune now c.receiptRetention) t b now, ha.decodes, ?_, ?_⟩
    · rw [hsubmit, get?_receipts_accept, if_pos rfl]
    · exact blames_apply _ _ _ _

end Ledger

/-! ## 5. Agreement -/

open Ledger in
/-- **Client and node check alike.**  A transfer is valid to the client exactly if its net amounts cancel.
A period in a valid draft is one the node takes, cut to its seconds; and of the periods that the client
refuses, the node takes those only that are the longest period with a fraction.

So whatever draft is submitted, if a request is sent, the body that is decoded from it asks for what the
draft does, and for no seconds that the node refuses.  And if a node accepts it, at whatever time and
whatever its settings and its ledger, the receipt does not tell of a renewal out of range; and it tells of
amounts that are refused only if an account that is named in a transfer would have more than a balance
can hold.

The work is in `validate_transfer_iff` for amounts, in `Connection.decoded_of_mem_sent` for what reaches the
node, and in `receipt_blames` for what a receipt that refuses has to point at. -/
theorem client_node_checks_agree [SignatureScheme] {σ : Type} :
    (∀ legs, (PayloadDraft.transfer legs).validate = .ok () ↔ (netOf legs).values.sum = 0)
    ∧ (∀ p : PayloadDraft, p.validate = .ok () → ∀ period ∈ p.renewal?,
        autoRenewPeriod? (wireSeconds period) = some (.ofSeconds period.seconds))
    ∧ (∀ period, checkAutoRenew period ≠ .ok () → autoRenewPeriod? (wireSeconds period) ≠ none →
        period.seconds = maxAutoRenew.seconds ∧ period.subsecNanos ≠ 0)
    ∧ ∀ (conn : Connection σ) (s : ClientState σ) (d : Draft) (n : Nat) (t : SignedTransaction),
        d.Storable n → n < 2 ^ 64 → .transaction t ∈ (conn.witness (·.execute d) s).2 →
        (∀ b, t.body = .ok b → d.payload.payload = .ok b.payload
          ∧ ∀ seconds ∈ b.payload.renewalSeconds?, autoRenewPeriod? seconds ≠ none)
        ∧ ∀ (c : Config) (l : Ledger) (now : Timestamp), (l.submit c t now).1 = .ok →
          ∃ b r, t.body = .ok b ∧ (l.submit c t now).2.receipts.get? b.id = some r
            ∧ r.record.receipt.status ≠ .autoRenewDurationNotInRange
            ∧ (r.record.receipt.status = .invalidAccountAmounts →
              ∃ legs, d.payload = .transfer legs ∧ ∃ id ∈ named legs, ∃ a,
                (charged c (l.prune now c.receiptRetention) b).accounts.get? id = some a
                  ∧ 2 ^ 64 ≤ (a.balance.toNat : Int) + legSum id legs) := by
  refine ⟨validate_transfer_iff, fun p hp period hperiod => ?_, fun period hrefused htaken => ?_,
    fun conn s d n t hd hn hsent => ?_⟩
  · exact autoRenewPeriod?_of_isAutoRenew (isAutoRenew_of_validate hp hperiod)
  · rw [period.autoRenewPeriod?_wireSeconds] at htaken
    have hcut : (Duration.ofSeconds period.seconds).IsAutoRenew := by
      by_contra hnot
      exact htaken (if_neg hnot)
    exact (period.isAutoRenew_ofSeconds_iff.mp hcut).resolve_left
      fun hperiod => hrefused (checkAutoRenew_eq_ok.mpr hperiod)
  · have hseconds : ∀ {b : TransactionBody}, t.body = .ok b →
        ∀ seconds ∈ b.payload.renewalSeconds?, autoRenewPeriod? seconds ≠ none := by
      intro b hb seconds hseconds
      obtain ⟨hvalid, hpayload⟩ := Connection.decoded_of_mem_sent hd hn hsent hb
      rw [renewalSeconds?_of_payload hpayload] at hseconds
      obtain ⟨period, hperiod, rfl⟩ := Option.mem_map.mp hseconds
      rw [autoRenewPeriod?_of_isAutoRenew (isAutoRenew_of_validate hvalid hperiod)]
      exact Option.some_ne_none _
    refine ⟨fun b hb => ⟨(Connection.decoded_of_mem_sent hd hn hsent hb).2, hseconds hb⟩,
      fun c l now hok => ?_⟩
    obtain ⟨b, r, hb, hr, hblames⟩ := receipt_blames hok
    obtain ⟨hvalid, hpayload⟩ := Connection.decoded_of_mem_sent hd hn hsent hb
    refine ⟨b, r, hb, hr, fun hstatus => ?_, fun hstatus => ?_⟩
    · obtain ⟨seconds, hasked, hnone⟩ := hblames.renewal hstatus
      exact hseconds hb seconds hasked hnone
    · obtain ⟨legs, hlegs, hblamed⟩ := hblames.amounts hstatus
      have hdraft : d.payload = .transfer legs := by
        rw [hlegs] at hpayload
        exact eq_transfer_of_payload hpayload
      rw [hdraft] at hvalid
      exact ⟨legs, hdraft, hblamed.resolve_left fun hsum => hsum ((validate_transfer_iff legs).mp hvalid)⟩

/-! ## 6. A transfer to a full account, and the longest period -/

namespace Trial

/-- **A transfer** that the client has no reason to refuse. -/
def overflowLegs : List AccountAmount :=
  [⟨.simple 4, -300⟩, ⟨.simple 5, 300⟩]

/-- **The body of the transfer.** -/
def overflow : TransactionBody :=
  { deletion with payload := .transfer overflowLegs }

/-- **The draft of the transfer**, signed by the payer and by the account that is debited. -/
def overflowDraft : Draft :=
  { signedDraft with
    payload := .transfer overflowLegs
    signatures := (signedBy [2, 4] overflow).signatures
    signedBytes := some (signedBy [2, 4] overflow).bodyBytes }

/-- **A ledger in which the account that is credited is full.** -/
def fullLedger : Ledger :=
  ledger.setBalance (.simple 5) 0xffffffffffffffff

/-- **The longest period, and half a second.** -/
def overlongRenewal : Duration :=
  ⟨8000001 * nanosPerSecond + 500000000, by decide⟩

/-- The transfer is sent as it was signed. -/
theorem sent_overflow :
    letI := scheme
    (connection.witness (·.execute overflowDraft) client).2
      = [.transaction (signedBy [2, 4] overflow)] := by
  let := scheme
  have hassembled : overflowDraft.assembled client.mint client.wall = .ok overflow := rfl
  have hsame : ∀ signed ∈ overflowDraft.signedBytes, signed = Wired.toBytes overflow :=
    fun _ h => (Option.some.inj h).symm
  have hvalid : overflowDraft.payload.validate = .ok () :=
    (validate_transfer_iff overflowLegs).mpr (by decide)
  exact Connection.sent_of_assembled hvalid hassembled hsame rfl

end Trial

open Trial Ledger in
set_option maxRecDepth 10000 in
/-- A transfer that the client lets through fails on a full account, and this account is to blame.  The
longest period with a fraction is refused by the client and would be taken by the node. -/
theorem client_node_checks_agree_full :
    letI := scheme
    let t := signedBy [2, 4] overflow
    (overflowDraft.Storable 2 ∧ (2 : Nat) < 2 ^ 64
        ∧ .transaction t ∈ (connection.witness (·.execute overflowDraft) client).2
        ∧ (fullLedger.submit {} t ⟨1001, 0⟩).1 = .ok)
      ∧ (∃ b r, t.body = .ok b ∧ (fullLedger.submit {} t ⟨1001, 0⟩).2.receipts.get? b.id = some r
        ∧ r.record.receipt.status = .invalidAccountAmounts
        ∧ ∃ id ∈ named overflowLegs, ∃ a,
          (charged {} (fullLedger.prune ⟨1001, 0⟩ defaultRetention) b).accounts.get? id = some a
            ∧ 2 ^ 64 ≤ (a.balance.toNat : Int) + legSum id overflowLegs)
      ∧ (checkAutoRenew overlongRenewal ≠ .ok ()
        ∧ autoRenewPeriod? (wireSeconds overlongRenewal) ≠ none)
      ∧ overlongRenewal.seconds = maxAutoRenew.seconds ∧ overlongRenewal.subsecNanos ≠ 0 := by
  intro t
  -- The scheme is named throughout, so that no two spellings of it are compared by computing the ledger.
  obtain ⟨-, -, hperiods, hsubmissions⟩ := @client_node_checks_agree scheme Emulator
  have hstorable : overflowDraft.Storable 2 := ⟨by decide, Nat.le_refl 2⟩
  have hsent : .transaction t
      ∈ ((@connection scheme).witness (@Connection.execute _ scheme · overflowDraft) client).2 := by
    rw [sent_overflow]
    exact List.mem_singleton_self _
  have hok : (@submit scheme {} fullLedger t ⟨1001, 0⟩).1 = .ok := by decide +kernel
  have hbody : @SignedTransaction.body scheme t = .ok overflow := by decide +kernel
  have hstatus : ∀ r ∈ (@submit scheme {} fullLedger t ⟨1001, 0⟩).2.receipts.get? overflow.id,
      r.record.receipt.status = .invalidAccountAmounts := by
    decide +kernel
  have hrefused : checkAutoRenew overlongRenewal ≠ .ok () := by
    rw [Ne, checkAutoRenew_eq_ok]
    decide
  have htaken : autoRenewPeriod? (wireSeconds overlongRenewal) ≠ none := by decide
  obtain ⟨-, hreceipts⟩ :=
    hsubmissions _ client overflowDraft 2 t hstorable (by decide) hsent
  obtain ⟨b, r, hb, hr, -, hblames⟩ := hreceipts {} fullLedger ⟨1001, 0⟩ hok
  obtain rfl : overflow = b := Except.ok.inj (hbody.symm.trans hb)
  have hrefusal := hstatus r hr
  obtain ⟨legs, hlegs, hblamed⟩ := hblames hrefusal
  obtain rfl : overflowLegs = legs := PayloadDraft.transfer.inj hlegs
  exact ⟨⟨hstorable, by decide, hsent, hok⟩, ⟨overflow, r, hb, hr, hrefusal, hblamed⟩,
    ⟨hrefused, htaken⟩, hperiods overlongRenewal hrefused htaken⟩

end ShardLedger
