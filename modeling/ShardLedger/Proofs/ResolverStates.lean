import ShardLedger.Proofs.PollBudgets
import Mathlib.Data.List.Induction
/-
What a resolver has to show for its polls.

A resolver may be asked to poll at any time and by anyone, not only by a resolution.  Between two polls the
client may be used for other things, its clocks go on, the connection may be closed; so below every poll is
asked for in some state of the client, and nothing is said of where that state comes from.  Nor is anything
said of the replies: a poll may fail, time out, or be answered by what is no answer to it.

Whatever comes, the state of a resolver is a summary of the polls that it made: how many they were, when the
first was sent, how many of them left the outcome open, and the outcome as soon as one of them settles it.
After that no poll is made.
-/

set_option autoImplicit false

namespace ShardLedger

variable {σ : Type}

/-! ## 1. What a response says of a transaction -/

namespace Response

/-- **A response leaves the outcome open**: it has a receipt or nothing for an answer, and says to ask again
later, or shows a receipt that is not settled. -/
def isInconclusive : Response → Bool
  | .query ⟨precheck, _, _, none⟩ => precheck.isTransient
  | .query ⟨precheck, _, _, some (.transactionReceipt receipt)⟩ =>
    precheck.isTransient || (precheck = .ok && receipt.status = .unknown)
  | _ => false

/-- **A response decides the outcome**: it shows a receipt that is settled, or the node refuses to answer and
does not ask for patience. -/
inductive Decides : Response → Outcome → Prop
  | success {phase : Phase} {cost : UInt64} {receipt : Receipt} (settled : receipt.status = .success) :
    Decides (.query ⟨.ok, phase, cost, some (.transactionReceipt receipt)⟩) (.success receipt)
  | failure {phase : Phase} {cost : UInt64} {receipt : Receipt} (settled : receipt.status ≠ .unknown)
    (failed : receipt.status ≠ .success) :
    Decides (.query ⟨.ok, phase, cost, some (.transactionReceipt receipt)⟩)
      (.failure receipt.status (some receipt))
  | refusal {precheck : Status} {phase : Phase} {cost : UInt64} {answer : Option Answer}
    (typed : ∀ a ∈ answer, a.kind = .transactionReceipt) (refused : precheck ≠ .ok)
    (final : precheck.isTransient = false) :
    Decides (.query ⟨precheck, phase, cost, answer⟩) (.failure precheck none)

/-- **What a resolver takes from a response** to its poll. -/
def finding (r : Response) (id : TransactionId) : Except ClientError Finding :=
  ((Question.transactionReceipt id).check r).bind findingOf

/-- **A response to a poll** leaves the outcome open, decides it, or is an error; and it is taken for what it
is. -/
inductive Tells (r : Response) (id : TransactionId) : Prop
  | nothing (inconclusive : r.isInconclusive = true) (undecided : ∀ o, ¬ r.Decides o)
    (found : r.finding id = .ok .pending)
  | outcome (o : Outcome) (conclusive : r.isInconclusive = false) (decided : r.Decides o)
    (found : r.finding id = .ok (.final o))
  | error (e : ClientError) (conclusive : r.isInconclusive = false) (undecided : ∀ o, ¬ r.Decides o)
    (found : r.finding id = .error e)

variable {id : TransactionId} {precheck : Status} {phase : Phase} {cost : UInt64}

/-- The status of a success asks for no patience. -/
theorem ok_not_transient : Status.ok.isTransient = false := by
  decide

/-- A response with no answer of another kind passes the check, and is taken in. -/
theorem finding_of_typed {r : QueryResponse} (typed : ∀ a ∈ r.answer, a.kind = .transactionReceipt) :
    (query r).finding id = findingOf r := by
  have hall : r.answer.all (·.kind = (Question.transactionReceipt id).expected) = true := by
    rw [Option.all_eq_true]
    intro a ha
    exact decide_eq_true (typed a ha)
  have hchecked : (Question.transactionReceipt id).check (query r) = .ok r := if_pos hall
  rw [finding, hchecked]
  rfl

/-- A receipt is an answer of the right kind. -/
theorem typed_receipt {receipt : Receipt} :
    ∀ a ∈ some (Answer.transactionReceipt receipt), a.kind = .transactionReceipt := by
  intro a ha
  obtain rfl := Option.some.inj ha
  rfl

/-- A response with a receipt. -/
theorem tells_of_receipt (receipt : Receipt) :
    (query ⟨precheck, phase, cost, some (.transactionReceipt receipt)⟩).Tells id := by
  have hfinding : (query ⟨precheck, phase, cost, some (.transactionReceipt receipt)⟩).finding id = findingOf _ :=
    finding_of_typed typed_receipt
  by_cases htransient : precheck.isTransient = true
  · refine .nothing ?_ ?_ ?_
    · simp [isInconclusive, htransient]
    · intro o hdecides
      cases hdecides with
      | success => simp [ok_not_transient] at htransient
      | failure => simp [ok_not_transient] at htransient
      | refusal typed refused final => simp [final] at htransient
    · simp [hfinding, findingOf, htransient]
  · simp only [Bool.not_eq_true] at htransient
    by_cases hok : precheck = .ok
    · subst hok
      by_cases hpending : receipt.status = .unknown
      · refine .nothing ?_ ?_ ?_
        · simp [isInconclusive, hpending]
        · intro o hdecides
          cases hdecides with
          | success settled => simp [hpending] at settled
          | failure settled => exact settled hpending
          | refusal typed refused => exact refused rfl
        · simp [hfinding, findingOf, htransient, Status.isOk, Status.isPending, hpending]
      · by_cases hsuccess : receipt.status = .success
        · refine .outcome (.success receipt) ?_ (.success hsuccess) ?_
          · simp [isInconclusive, htransient, hpending]
          · simp [hfinding, findingOf, htransient, Status.isOk, Status.isPending, Status.isSuccess, hsuccess]
        · refine .outcome (.failure receipt.status (some receipt)) ?_ (.failure hpending hsuccess) ?_
          · simp [isInconclusive, htransient, hpending]
          · simp [hfinding, findingOf, htransient, Status.isOk, Status.isPending, Status.isSuccess, hpending,
              hsuccess]
    · refine .outcome (.failure precheck none) ?_ (.refusal typed_receipt hok htransient) ?_
      · simp [isInconclusive, htransient, hok]
      · simp [hfinding, findingOf, htransient, Status.isOk, hok]

/-- A response with no answer. -/
theorem tells_of_none : (query ⟨precheck, phase, cost, none⟩).Tells id := by
  have htyped : ∀ a ∈ (none : Option Answer), a.kind = .transactionReceipt := by
    intro a ha
    simp at ha
  have hfinding : (query ⟨precheck, phase, cost, none⟩).finding id = findingOf _ := finding_of_typed htyped
  by_cases htransient : precheck.isTransient = true
  · refine .nothing htransient ?_ ?_
    · intro o hdecides
      cases hdecides with
      | refusal typed refused final => simp [final] at htransient
    · simp [hfinding, findingOf, htransient]
  · simp only [Bool.not_eq_true] at htransient
    by_cases hok : precheck = .ok
    · subst hok
      refine .error (.unexpectedResponse .transactionReceipt) htransient ?_ ?_
      · intro o hdecides
        cases hdecides with
        | refusal typed refused => exact refused rfl
      · simp [hfinding, findingOf, htransient, Status.isOk]
    · refine .outcome (.failure precheck none) htransient (.refusal htyped hok htransient) ?_
      simp [hfinding, findingOf, htransient, Status.isOk, hok]

/-- A response with another answer than a receipt. -/
theorem tells_of_other {a : Answer} (ha : a.kind ≠ .transactionReceipt) :
    (query ⟨precheck, phase, cost, some a⟩).Tells id := by
  refine .error (.unexpectedResponse .transactionReceipt) ?_ ?_ ?_
  · cases a with
    | transactionReceipt receipt => exact absurd rfl ha
    | _ => rfl
  · intro o hdecides
    cases hdecides with
    | success => exact ha rfl
    | failure => exact ha rfl
    | refusal typed => exact ha (typed a rfl)
  · simp [finding, Question.check, Question.expected, Except.bind, ha]

/-- **Every response to a poll is taken for what it is.** -/
theorem tells (r : Response) (id : TransactionId) : r.Tells id := by
  cases r with
  | transaction precheck =>
    refine .error (.unexpectedResponse .transactionReceipt) rfl ?_ rfl
    intro o hdecides
    cases hdecides
  | query response =>
    obtain ⟨precheck, phase, cost, answer⟩ := response
    cases answer with
    | none => exact tells_of_none
    | some a =>
      by_cases ha : a.kind = .transactionReceipt
      · obtain ⟨receipt, rfl⟩ : ∃ receipt, a = .transactionReceipt receipt := by
          cases a with
          | transactionReceipt receipt => exact ⟨receipt, rfl⟩
          | _ => cases ha
        exact tells_of_receipt receipt
      · exact tells_of_other ha

end Response

/-! ## 2. What a poll says -/

namespace Poll

/-- **A poll left the outcome open.** -/
def isInconclusive (p : Poll) : Bool :=
  match p.reply with
  | .ok response => response.isInconclusive
  | .error _ => false

/-- **A poll decided the outcome.** -/
def Decides (p : Poll) (o : Outcome) : Prop :=
  ∃ response, p.reply = .ok response ∧ response.Decides o

/-- **A poll settles the outcome** as the last of so many since the first was sent: it decides it, or it leaves
it open when a budget is spent. -/
inductive Settles (policy : BackoffPolicy) (polls : Nat) (start : Instant) (p : Poll) : Outcome → Prop
  | decided {o : Outcome} (decides : p.Decides o) : Settles policy polls start p o
  | spent (inconclusive : p.isInconclusive = true)
    (spent : policy.maxPolls.toNat ≤ polls ∨ policy.maxElapsed.total ≤ p.ended - start) :
    Settles policy polls start p (.unresolved polls (p.ended - start))

/-- **A poll** leaves the outcome open, decides it, or is an error; and it is taken for what it is. -/
theorem finding_cases (p : Poll) (id : TransactionId) :
    (p.isInconclusive = true ∧ (∀ o, ¬ p.Decides o) ∧ p.finding id = .ok .pending)
      ∨ (∃ o, p.isInconclusive = false ∧ p.Decides o ∧ p.finding id = .ok (.final o))
      ∨ ∃ e, p.isInconclusive = false ∧ (∀ o, ¬ p.Decides o) ∧ p.finding id = .error e := by
  obtain ⟨number, sent, ended, reply⟩ := p
  cases reply with
  | error e =>
    refine .inr (.inr ⟨e, rfl, ?_, rfl⟩)
    rintro o ⟨response, hreply, -⟩
    cases hreply
  | ok response =>
    have hdecides : ∀ o, Decides ⟨number, sent, ended, .ok response⟩ o → response.Decides o := by
      rintro o ⟨same, hsame, hdecides⟩
      obtain rfl := Except.ok.inj hsame
      exact hdecides
    cases response.tells id with
    | nothing inconclusive undecided found =>
      exact .inl ⟨inconclusive, fun o ho => undecided o (hdecides o ho), found⟩
    | outcome o conclusive decided found =>
      exact .inr (.inl ⟨o, conclusive, ⟨response, rfl, decided⟩, found⟩)
    | error e conclusive undecided found =>
      exact .inr (.inr ⟨e, conclusive, fun o ho => undecided o (hdecides o ho), found⟩)

end Poll

/-! ## 3. Polls asked for, and polls made -/

namespace Connection

/-- **The resolver after some polls**, each asked for in a state of the client. -/
def resolverAfter (c : Connection σ) (r : Resolver) : List (ClientState σ) → Resolver
  | [] => r
  | s :: ss => c.resolverAfter ((c.poll r).run s).1.2 ss

/-- **The polls that were made** of those that were asked for: as long as there is no outcome, all of them. -/
def pollsMade (c : Connection σ) (r : Resolver) : List (ClientState σ) → List Poll
  | [] => []
  | s :: ss =>
    (if r.outcome?.isNone then [c.pollMade r s] else []) ++ c.pollsMade ((c.poll r).run s).1.2 ss

end Connection

/-- **What a resolver has to show** after so many polls were asked for, of which these were made. -/
structure Resolver.Shows (r : Resolver) (id : TransactionId) (policy : BackoffPolicy) (asked : Nat)
    (made : List Poll) : Prop where
  id_eq : r.id = id
  policy_eq : r.policy = policy
  polls : r.polls = made.length
  startedAt : r.startedAt = made.head?.map (·.sent)
  /-- Polls that left the outcome open are counted, and no others. -/
  pendingPolls : r.pendingPolls = made.countP (·.isInconclusive)
  /-- Until there is an outcome every poll that is asked for is made, and none of them decides. -/
  waiting : r.outcome? = none →
    made.length = asked ∧ r.state = (if asked = 0 then .submitted else .polling asked)
      ∧ ∀ p ∈ made, ∀ o, ¬ p.Decides o
  /-- The outcome is what the last poll settled. -/
  resolved : ∀ o, r.outcome? = some o →
    ∃ first last, made.head? = some first ∧ made.getLast? = some last
      ∧ last.Settles policy made.length first.sent o

/-- **What the next poll comes to**, in a state of the client. -/
structure Connection.Proceeds (c : Connection σ) (r : Resolver) (s : ClientState σ) : Prop where
  /-- An error settles nothing; it comes of a poll that neither leaves the outcome open nor decides it. -/
  failed : ∀ e r' s', (c.poll r).run s = ((.error e, r'), s') →
    r'.outcome? = none ∧ (c.pollMade r s).isInconclusive = false
      ∧ ∀ o, ¬ (c.pollMade r s).Decides o
  /-- There is no outcome yet only if the poll leaves it open and both budgets allow another. -/
  again : ∀ r' s', (c.poll r).run s = ((.ok none, r'), s') →
    r'.outcome? = none ∧ (c.pollMade r s).isInconclusive = true
      ∧ r'.polls < r.policy.maxPolls.toNat
      ∧ ∀ start ∈ r'.startedAt, (c.pollMade r s).ended - start < r.policy.maxElapsed.total
  /-- An outcome that is given is kept. -/
  told : ∀ o r' s', (c.poll r).run s = ((.ok (some o), r'), s') → r'.outcome? = some o
  /-- An outcome that is kept is given again, now and after any other polls, and nothing is sent. -/
  settled : ∀ o, r.outcome? = some o →
    (c.poll r).run s = ((.ok (some o), r), s)
      ∧ (∀ memory, (c.witnessed.poll r).run memory = ((.ok (some o), r), memory))
      ∧ ∀ ss, c.resolverAfter r ss = r ∧ c.pollsMade r ss = []

/-! ## 4. One poll -/

namespace Connection

variable {c : Connection σ} {r : Resolver} {s : ClientState σ}

/-- A poll is not made if the outcome is known. -/
theorem run_poll_of_some {o : Outcome} (h : r.outcome? = some o) (s : ClientState σ) :
    (c.poll r).run s = ((.ok (some o), r), s) := by
  unfold poll
  rw [h]
  rfl

/-- A poll that is made is taken in as it tells. -/
theorem run_poll_of_none (h : r.outcome? = none) (s : ClientState σ) :
    ((c.poll r).run s).1
      = match (c.pollMade r s).finding r.id with
        | .error e => (.error e, r.beginPoll s.now)
        | .ok finding =>
          (.ok ((r.beginPoll s.now).settle (c.pollMade r s).ended finding).outcome?,
            (r.beginPoll s.now).settle (c.pollMade r s).ended finding) := by
  rw [run_poll h]
  rfl

/-- Once there is an outcome, polls change nothing and none is made. -/
theorem resolverAfter_of_some {o : Outcome} (h : r.outcome? = some o) (ss : List (ClientState σ)) :
    c.resolverAfter r ss = r ∧ c.pollsMade r ss = [] := by
  induction ss with
  | nil => exact ⟨rfl, rfl⟩
  | cons s ss ih =>
    have hpoll : ((c.poll r).run s).1.2 = r := by rw [run_poll_of_some h]
    have hsome : ¬ r.outcome?.isNone := by simp [h]
    rw [resolverAfter, pollsMade, hpoll, if_neg hsome]
    exact ih

/-- One more poll that is asked for. -/
theorem resolverAfter_concat (c : Connection σ) (r : Resolver) (ss : List (ClientState σ))
    (s : ClientState σ) :
    c.resolverAfter r (ss ++ [s]) = ((c.poll (c.resolverAfter r ss)).run s).1.2 := by
  induction ss generalizing r with
  | nil => rfl
  | cons first ss ih => exact ih _

/-- One more poll, which is made unless the outcome is known. -/
theorem pollsMade_concat (c : Connection σ) (r : Resolver) (ss : List (ClientState σ))
    (s : ClientState σ) :
    c.pollsMade r (ss ++ [s])
      = c.pollsMade r ss
        ++ if (c.resolverAfter r ss).outcome?.isNone then [c.pollMade (c.resolverAfter r ss) s] else [] := by
  induction ss generalizing r with
  | nil => simp [pollsMade, resolverAfter]
  | cons first ss ih => rw [List.cons_append, pollsMade, ih, pollsMade, resolverAfter, List.append_assoc]

end Connection

namespace Resolver

variable {r : Resolver} {now : Instant}

/-- When both budgets allow another poll. -/
theorem hasBudget_iff :
    r.hasBudget now = true
      ↔ r.polls < r.policy.maxPolls.toNat ∧ r.elapsed now < r.policy.maxElapsed.total := by
  simp [hasBudget]

/-- A poll that tells nothing leaves the resolver waiting while both budgets allow another. -/
theorem settle_of_hasBudget (h : r.hasBudget now = true) :
    r.settle now .pending = { r with pendingPolls := r.pendingPolls + 1 } :=
  if_pos h

/-- A poll that tells nothing when a budget is spent ends in giving up. -/
theorem settle_of_not_hasBudget (h : r.hasBudget now = false) :
    r.settle now .pending
      = { r with
          pendingPolls := r.pendingPolls + 1
          state := .resolved (.unresolved r.polls (r.elapsed now)) } :=
  if_neg (Bool.eq_false_iff.mp h)

end Resolver

namespace Connection

variable {c : Connection σ} {r : Resolver}

/-- **What a poll that is made comes to**: an error, no outcome yet, or the outcome that it settles. -/
theorem poll_cases (hopen : r.outcome? = none) (s : ClientState σ) :
    (∃ e, ((c.poll r).run s).1 = (.error e, r.beginPoll s.now)
        ∧ (c.pollMade r s).isInconclusive = false ∧ ∀ o, ¬ (c.pollMade r s).Decides o)
      ∨ (((c.poll r).run s).1 = (.ok none, { r.beginPoll s.now with pendingPolls := r.pendingPolls + 1 })
        ∧ (c.pollMade r s).isInconclusive = true ∧ (∀ o, ¬ (c.pollMade r s).Decides o)
        ∧ (r.beginPoll s.now).hasBudget (c.pollMade r s).ended = true)
      ∨ ∃ o, ((c.poll r).run s).1
          = (.ok (some o),
            { r.beginPoll s.now with
              pendingPolls := r.pendingPolls + (c.pollMade r s).isInconclusive.toNat
              state := .resolved o })
        ∧ (c.pollMade r s).Settles r.policy (r.polls + 1) (r.startedAt.getD s.now) o := by
  rw [run_poll_of_none hopen]
  rcases (c.pollMade r s).finding_cases r.id with
    ⟨hinconclusive, hnot, hfound⟩ | ⟨o, hconclusive, hdecides, hfound⟩ | ⟨e, hconclusive, hnot, hfound⟩
  · rw [hfound]
    by_cases hbudget : (r.beginPoll s.now).hasBudget (c.pollMade r s).ended = true
    · right
      left
      simp only [Resolver.settle_of_hasBudget hbudget]
      exact ⟨rfl, hinconclusive, hnot, hbudget⟩
    · right
      right
      simp only [Resolver.settle_of_not_hasBudget (Bool.eq_false_iff.mpr hbudget), hinconclusive]
      refine ⟨_, rfl, .spent hinconclusive ?_⟩
      rcases not_and_or.mp (fun hboth => hbudget (Resolver.hasBudget_iff.mpr hboth)) with hpolls | helapsed
      · exact .inl (Nat.le_of_not_lt hpolls)
      · exact .inr (Nat.le_of_not_lt helapsed)
  · right
    right
    rw [hfound, hconclusive]
    exact ⟨o, rfl, .decided hdecides⟩
  · left
    rw [hfound]
    exact ⟨e, rfl, hconclusive, hnot⟩

/-- What a poll that is made returns, and how it leaves the resolver. -/
theorem proceeds_of_none (hopen : r.outcome? = none) (s : ClientState σ) : c.Proceeds r s := by
  have hcases := poll_cases (c := c) hopen s
  constructor
  · intro e r' s' hrun
    rw [hrun] at hcases
    rcases hcases with ⟨e', hpoll, hconclusive, hnot⟩ | ⟨hpoll, -⟩ | ⟨o, hpoll, -⟩
    · obtain ⟨-, rfl⟩ := Prod.mk.inj hpoll
      exact ⟨rfl, hconclusive, hnot⟩
    · cases (Prod.mk.inj hpoll).1
    · cases (Prod.mk.inj hpoll).1
  · intro r' s' hrun
    rw [hrun] at hcases
    rcases hcases with ⟨e, hpoll, -⟩ | ⟨hpoll, hinconclusive, -, hbudget⟩ | ⟨o, hpoll, -⟩
    · cases (Prod.mk.inj hpoll).1
    · obtain ⟨-, rfl⟩ := Prod.mk.inj hpoll
      obtain ⟨hpolls, helapsed⟩ := Resolver.hasBudget_iff.mp hbudget
      refine ⟨rfl, hinconclusive, hpolls, ?_⟩
      intro start hstart
      obtain rfl := Option.some.inj hstart
      exact helapsed
    · cases (Prod.mk.inj hpoll).1
  · intro o r' s' hrun
    rw [hrun] at hcases
    rcases hcases with ⟨e, hpoll, -⟩ | ⟨hpoll, -⟩ | ⟨o', hpoll, -⟩
    · cases (Prod.mk.inj hpoll).1
    · cases (Prod.mk.inj hpoll).1
    · obtain ⟨hsame, rfl⟩ := Prod.mk.inj hpoll
      obtain rfl := Option.some.inj (Except.ok.inj hsame)
      rfl
  · intro o ho
    rw [hopen] at ho
    cases ho

/-- A resolver with an outcome gives it again, and sends nothing. -/
theorem proceeds_of_some {o : Outcome} (ho : r.outcome? = some o) (s : ClientState σ) : c.Proceeds r s := by
  have hrun := run_poll_of_some (c := c) ho s
  constructor
  · intro e r' s' hpoll
    rw [hrun] at hpoll
    cases hpoll
  · intro r' s' hpoll
    rw [hrun] at hpoll
    cases hpoll
  · intro o' r' s' hpoll
    rw [hrun] at hpoll
    cases hpoll
    exact ho
  · intro o' ho'
    exact ⟨run_poll_of_some ho' s, run_poll_of_some ho', resolverAfter_of_some ho'⟩

end Connection

/-! ## 5. Any polls -/

namespace Resolver

variable {c : Connection σ} {r : Resolver} {now : Instant} {id : TransactionId} {policy : BackoffPolicy}
  {asked : Nat} {made : List Poll}

/-- A resolver that is asked for its first poll shows nothing. -/
theorem shows_start (id : TransactionId) (policy : BackoffPolicy) :
    (start id policy).Shows id policy 0 [] where
  id_eq := rfl
  policy_eq := rfl
  polls := rfl
  startedAt := rfl
  pendingPolls := rfl
  waiting _ := ⟨rfl, rfl, fun p hp => absurd hp List.not_mem_nil⟩
  resolved o ho := by
    have hnone : (start id policy).outcome? = none := rfl
    rw [hnone] at ho
    cases ho

/-- **One poll more to show.**  The poll is begun, it is counted if it leaves the outcome open, and it settles
the outcome or does not decide it. -/
theorem Shows.extend (h : r.Shows id policy asked made) (hopen : r.outcome? = none) {p : Poll}
    (hsent : p.sent = now) {pending : Nat} {state : ResolverState}
    (hpending : pending = r.pendingPolls + p.isInconclusive.toNat)
    (hstate : (state = .polling (r.polls + 1) ∧ ∀ o, ¬ p.Decides o)
      ∨ ∃ o, state = .resolved o ∧ p.Settles policy (r.polls + 1) (r.startedAt.getD now) o) :
    ({ r.beginPoll now with pendingPolls := pending, state := state } : Resolver).Shows id policy
      (asked + 1) (made ++ [p]) := by
  obtain ⟨hcount, -, hundecided⟩ := h.waiting hopen
  have hlength : (made ++ [p]).length = r.polls + 1 := by simp [h.polls]
  have hasked : r.polls + 1 = asked + 1 := by rw [h.polls, hcount]
  -- The first poll is the one that started the time.
  obtain ⟨first, hfirst, hstarted⟩ :
      ∃ first, (made ++ [p]).head? = some first ∧ r.startedAt.getD now = first.sent := by
    rw [h.startedAt]
    cases made with
    | nil => exact ⟨p, rfl, hsent.symm⟩
    | cons first rest => exact ⟨first, rfl, rfl⟩
  refine ⟨h.id_eq, h.policy_eq, hlength.symm, ?_, ?_, ?_, ?_⟩
  · rw [hfirst, Option.map_some, ← hstarted]
    rfl
  · rw [List.countP_append, List.countP_singleton, ← h.pendingPolls]
    cases hinconclusive : p.isInconclusive <;> simp [hpending, hinconclusive]
  · intro hnone
    rcases hstate with ⟨rfl, hnot⟩ | ⟨o, rfl, -⟩
    · refine ⟨hlength.trans hasked, ?_, ?_⟩
      · simp only [hasked, Nat.succ_ne_zero, if_false]
      · intro q hq
        rcases List.mem_append.mp hq with hq | hq
        · exact hundecided q hq
        · rw [List.mem_singleton.mp hq]
          exact hnot
    · cases hnone
  · intro o ho
    rcases hstate with ⟨rfl, -⟩ | ⟨o', rfl, hsettles⟩
    · cases ho
    · obtain rfl : o' = o := Option.some.inj ho
      refine ⟨first, p, hfirst, by simp, ?_⟩
      rw [hlength, ← hstarted]
      exact hsettles

/-- **A poll that is made** while there is no outcome: the resolver has one poll more to show. -/
theorem Shows.poll (h : r.Shows id policy asked made) (hopen : r.outcome? = none) (s : ClientState σ) :
    ((c.poll r).run s).1.2.Shows id policy (asked + 1) (made ++ [c.pollMade r s]) := by
  rcases Connection.poll_cases (c := c) hopen s with
    ⟨e, hpoll, hconclusive, hnot⟩ | ⟨hpoll, hinconclusive, hnot, -⟩ | ⟨o, hpoll, hsettles⟩
  · rw [hpoll]
    exact h.extend hopen rfl (by simp [hconclusive]) (.inl ⟨rfl, hnot⟩)
  · rw [hpoll]
    exact h.extend hopen rfl (by simp [hinconclusive]) (.inl ⟨rfl, hnot⟩)
  · rw [hpoll]
    rw [h.policy_eq] at hsettles
    exact h.extend hopen rfl rfl (.inr ⟨o, rfl, hsettles⟩)

/-- **A poll that is not made** since the outcome is known: there is nothing more to show. -/
theorem Shows.skip (h : r.Shows id policy asked made) {o : Outcome} (ho : r.outcome? = some o) :
    r.Shows id policy (asked + 1) made :=
  { h with
    waiting := fun hnone => by
      rw [ho] at hnone
      cases hnone }

end Resolver

namespace Connection

/-- **What a resolver has to show after any polls.**  The induction is on the polls that are asked for. -/
theorem shows_resolverAfter (c : Connection σ) (id : TransactionId) (policy : BackoffPolicy)
    (ss : List (ClientState σ)) :
    (c.resolverAfter (.start id policy) ss).Shows id policy ss.length
      (c.pollsMade (.start id policy) ss) := by
  induction ss using List.reverseRecOn with
  | nil => exact Resolver.shows_start id policy
  | append_singleton ss s ih =>
    rw [resolverAfter_concat, pollsMade_concat, List.length_append, List.length_singleton]
    cases houtcome : (c.resolverAfter (.start id policy) ss).outcome? with
    | none => exact ih.poll houtcome s
    | some o =>
      rw [run_poll_of_some houtcome]
      simpa using ih.skip houtcome

/-- **A resolver is a summary of its polls.**  However often a resolver is asked to poll, in whatever states of
the client and whatever the replies are: it has its polls to show, which are all that were asked for until there
is an outcome; and the next poll proceeds as it should.

The work is in `shows_resolverAfter`, by induction on the polls, and in `poll_cases` for the next one. -/
theorem resolver_shows_and_proceeds (c : Connection σ) (id : TransactionId) (policy : BackoffPolicy)
    (ss : List (ClientState σ)) :
    (c.resolverAfter (.start id policy) ss).Shows id policy ss.length (c.pollsMade (.start id policy) ss)
      ∧ ∀ s, c.Proceeds (c.resolverAfter (.start id policy) ss) s := by
  refine ⟨c.shows_resolverAfter id policy ss, ?_⟩
  intro s
  cases houtcome : (c.resolverAfter (.start id policy) ss).outcome? with
  | none => exact proceeds_of_none houtcome s
  | some o => exact proceeds_of_some houtcome s

end Connection

end ShardLedger
