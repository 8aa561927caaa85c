import ShardLedger.Proofs.SessionSteps
/-
Every call gets its own reply.

The two ends of a stream stay in agreement whatever the schedule, save that no line is given up
half-written.  So the stream is never given up, no line is answered twice or out of turn, and a call that
returns has the answer to its own line.

Nor do the two ends come to a stop.  A call that waits gets a link that is free, its line is written as the
stream accepts it, the node answers the next line whenever a whole one is on the way to it, and with
everything that is on the way to it a call that waits for its reply returns.
-/

set_option autoImplicit false

namespace ShardLedger

open Wire
open Rpc (ResponseEnvelope)

section Signing

variable [SignatureScheme]

namespace Session

/-! ## 1. Schedules -/

section Schedules

variable {c : Config} {s : Session}

/-- **What the client does** is no business of the node, and makes no new calls. -/
structure ClientOnly (s s' : Session) : Prop where
  calls : s'.calls = s.calls
  ledger : s'.ledger = s.ledger
  answered : s'.answered = s.answered

omit [SignatureScheme] in
theorem clientOnly_take (s : Session) (i : Nat) : ClientOnly s (s.take i) := by
  simp only [take]
  repeat' split
  all_goals exact ⟨rfl, rfl, rfl⟩

omit [SignatureScheme] in
theorem clientOnly_write (s : Session) (count : Nat) : ClientOnly s (s.write count) := by
  simp only [write]
  repeat' split
  all_goals exact ⟨rfl, rfl, rfl⟩

theorem clientOnly_read (s : Session) (count : Nat) : ClientOnly s (s.read count) := by
  simp only [read]
  repeat' split
  all_goals exact ⟨rfl, rfl, rfl⟩

/-- The node makes no calls. -/
theorem calls_answer (s : Session) (now : Timestamp) : (s.answer c now).calls = s.calls := by
  simp only [answer]
  repeat' split
  all_goals rfl

/-- Only a new call is added to the calls. -/
theorem calls_step (e : Event) : (s.step c e).calls = s.calls ++ requestsOf [e] := by
  cases e with
  | call r => rfl
  | leave i => exact (List.append_nil _).symm
  | take i => exact (clientOnly_take s i).calls.trans (List.append_nil _).symm
  | write count => exact (clientOnly_write s count).calls.trans (List.append_nil _).symm
  | answer now => exact (calls_answer s now).trans (List.append_nil _).symm
  | read count => exact (clientOnly_read s count).calls.trans (List.append_nil _).symm
  | abandon => exact (List.append_nil _).symm
  | operate op => exact (List.append_nil _).symm

omit [SignatureScheme] in
theorem requestsOf_cons (e : Event) (es : List Event) :
    requestsOf (e :: es) = requestsOf [e] ++ requestsOf es :=
  List.filterMap_append (l := [e])

theorem calls_run (s : Session) (events : List Event) :
    (s.run c events).calls = s.calls ++ requestsOf events := by
  induction events generalizing s with
  | nil => exact (List.append_nil _).symm
  | cons e es ih =>
    rw [requestsOf_cons, ← List.append_assoc, ← calls_step (c := c)]
    exact ih (s.step c e)

/-- **Every event keeps a session coherent**, unless it gives up a line half-written. -/
theorem IsCoherent.step (h : s.IsCoherent c) (e : Event)
    (hfew : (s.step c e).calls.length < 2 ^ 64) (hwhole : e = .abandon → s.isWriting = false) :
    (s.step c e).IsCoherent c := by
  cases e with
  | call r =>
    rw [calls_step, List.length_append] at hfew
    exact h.call r hfew
  | leave i => exact h.leave i
  | take i => exact h.take i
  | write count => exact h.write count
  | answer now => exact h.answer now
  | read count => exact h.read count
  | abandon => exact h.abandon (hwhole rfl)
  | operate op => exact h.operate op

/-- **A schedule keeps a session coherent** if it makes fewer calls than there are identifiers and gives
up no line half-written. -/
theorem IsCoherent.run (h : s.IsCoherent c) {events : List Event}
    (hfew : s.calls.length + (requestsOf events).length < 2 ^ 64)
    (hwhole : ∀ p ∈ points c s events, p.2 = .abandon → p.1.isWriting = false) :
    (s.run c events).IsCoherent c := by
  induction events generalizing s with
  | nil => exact h
  | cons e es ih =>
    rw [requestsOf_cons, List.length_append, ← Nat.add_assoc, ← List.length_append,
      ← calls_step (c := c)] at hfew
    have hstep := h.step e (Nat.lt_of_le_of_lt (Nat.le_add_right _ _) hfew)
      (hwhole _ List.mem_cons_self)
    exact ih hstep hfew fun p hp => hwhole p (List.mem_cons_of_mem _ hp)

/-! ## 2. The ledger of the node -/

/-- A line changes the ledger as a request does, or not at all. -/
theorem ledger_serveLines (c : Config) (now : Timestamp) (line : Bytes) (l : Ledger) :
    (Rpc.serveLines c now [line] l).2.2 = l
      ∨ ∃ r, (Rpc.serveLines c now [line] l).2.2 = (l.handle c r now).2 := by
  simp only [Rpc.serveLines, Rpc.dispatch]
  repeat' split
  any_goals exact .inl rfl
  exact .inr ⟨_, rfl⟩

/-- A line that is answered is noted with the ledgers before and after. -/
theorem answer_noted (s : Session) (now : Timestamp) :
    ((s.answer c now).ledger = s.ledger ∧ (s.answer c now).answered = s.answered)
      ∨ ∃ a, a.before = s.ledger ∧ a.after = (s.answer c now).ledger
        ∧ (s.answer c now).answered = s.answered ++ [a] := by
  unfold answer
  by_cases hup : s.hungUp
  · rw [if_pos hup]
    exact .inl ⟨rfl, rfl⟩
  · rw [if_neg hup]
    split
    · exact .inl ⟨rfl, rfl⟩
    · exact .inr ⟨_, rfl, rfl, rfl⟩

/-- The node changes its ledger as a request does, or not at all. -/
theorem ledger_answer (s : Session) (now : Timestamp) :
    (s.answer c now).ledger = s.ledger ∨ ∃ r, (s.answer c now).ledger = (s.ledger.handle c r now).2 := by
  unfold answer
  by_cases hup : s.hungUp
  · rw [if_pos hup]
    exact .inl rfl
  · rw [if_neg hup]
    split
    · exact .inl rfl
    · exact ledger_serveLines c now _ s.ledger

/-- **Every event leads from ledgers that can be reached to such ledgers**, if there is a number for the
next account and nothing improper is done to the ledger besides. -/
theorem reachable_step (e : Event) (hnumbered : 0 ≤ (s.step c e).ledger.nextAccount)
    (hproper : ∀ op, e = .operate op → op.Proper) (hledger : s.ledger.Reachable c)
    (hall : ∀ a ∈ s.answered, a.before.Reachable c) :
    (s.step c e).ledger.Reachable c ∧ ∀ a ∈ (s.step c e).answered, a.before.Reachable c := by
  have hclient : ∀ {s'}, ClientOnly s s' →
      s'.ledger.Reachable c ∧ ∀ a ∈ s'.answered, a.before.Reachable c := by
    rintro s' ⟨-, hsame, hsame'⟩
    rw [hsame, hsame']
    exact ⟨hledger, hall⟩
  cases e with
  | call r => exact ⟨hledger, hall⟩
  | leave i => exact hclient ⟨rfl, rfl, rfl⟩
  | take i => exact hclient (clientOnly_take s i)
  | write count => exact hclient (clientOnly_write s count)
  | read count => exact hclient (clientOnly_read s count)
  | abandon => exact hclient ⟨rfl, rfl, rfl⟩
  | operate op => exact ⟨.step op hledger (hproper op rfl) hnumbered, hall⟩
  | answer now =>
    change 0 ≤ (s.answer c now).ledger.nextAccount at hnumbered
    change (s.answer c now).ledger.Reachable c ∧ ∀ a ∈ (s.answer c now).answered, _
    constructor
    · rcases ledger_answer (c := c) s now with heq | ⟨r, heq⟩
      · rw [heq]
        exact hledger
      · rw [heq] at hnumbered ⊢
        exact hledger.handle r now hnumbered
    · rcases answer_noted (c := c) s now with ⟨-, heq⟩ | ⟨a, hbefore, -, heq⟩
      · rw [heq]
        exact hall
      · rw [heq, List.forall_mem_append, List.forall_mem_singleton, hbefore]
        exact ⟨hall, hledger⟩

/-- **A schedule lets numbers last**: there is always one for the next account, and whatever is done to
the ledger besides is proper. -/
def Lasting (c : Config) (s : Session) (events : List Event) : Prop :=
  ∀ p ∈ points c s events,
    0 ≤ (p.1.step c p.2).ledger.nextAccount ∧ ∀ op, p.2 = .operate op → op.Proper

/-- **A node answers from ledgers that can be reached**, if it begins with one. -/
theorem reachable_answered {events : List Event} (hlast : Lasting c s events)
    (hledger : s.ledger.Reachable c) (hall : ∀ a ∈ s.answered, a.before.Reachable c) :
    ∀ a ∈ (s.run c events).answered, a.before.Reachable c := by
  induction events generalizing s with
  | nil => exact hall
  | cons e es ih =>
    obtain ⟨hnumbered, hproper⟩ := hlast _ List.mem_cons_self
    obtain ⟨hledger', hall'⟩ := reachable_step e hnumbered hproper hledger hall
    exact ih (fun p hp => hlast p (List.mem_cons_of_mem _ hp)) hledger' hall'

/-- **The operations** that a schedule does besides. -/
def operationsOf (events : List Event) : List Operation :=
  events.filterMap fun
    | .operate op => some op
    | _ => none

/-- **How a ledger came about** from an earlier one: operations were done to it and lines were answered
from it, in some order that keeps theirs, each of them once and nothing else. -/
inductive Replay (c : Config) (l : Ledger) : List Operation → List Answered → Ledger → Prop
  | start : Replay c l [] [] l
  | operated {ops : List Operation} {answered : List Answered} {l' : Ledger} (op : Operation)
    (before : Replay c l ops answered l') : Replay c l (ops ++ [op]) answered (l'.perform c op)
  | answered {ops : List Operation} {answered : List Answered} (a : Answered)
    (before : Replay c l ops answered a.before) : Replay c l ops (answered ++ [a]) a.after

omit [SignatureScheme] in
theorem operationsOf_cons (e : Event) (es : List Event) :
    operationsOf (e :: es) = operationsOf [e] ++ operationsOf es :=
  List.filterMap_append (l := [e])

/-- **Every event adds itself** to how the ledger came about, if it does anything to it. -/
theorem Replay.step {l : Ledger} {ops : List Operation} (h : Replay c l ops s.answered s.ledger)
    (e : Event) :
    Replay c l (ops ++ operationsOf [e]) (s.step c e).answered (s.step c e).ledger := by
  have hclient : ∀ {s'}, ClientOnly s s' → Replay c l (ops ++ []) s'.answered s'.ledger := by
    rintro s' ⟨-, hledger, hanswered⟩
    rw [List.append_nil, hledger, hanswered]
    exact h
  cases e with
  | call r => exact (List.append_nil ops).symm ▸ h
  | leave i => exact hclient ⟨rfl, rfl, rfl⟩
  | take i => exact hclient (clientOnly_take s i)
  | write count => exact hclient (clientOnly_write s count)
  | read count => exact hclient (clientOnly_read s count)
  | abandon => exact hclient ⟨rfl, rfl, rfl⟩
  | operate op => exact .operated op h
  | answer now =>
    change Replay c l (ops ++ []) (s.answer c now).answered (s.answer c now).ledger
    rw [List.append_nil]
    rcases answer_noted (c := c) s now with ⟨hledger, hanswered⟩ | ⟨a, hbefore, hafter, hanswered⟩
    · rw [hledger, hanswered]
      exact h
    · rw [hanswered, ← hafter]
      exact .answered a (hbefore ▸ h)

/-- **The ledger after a schedule** came about by its operations and the lines that were answered. -/
theorem Replay.run {l : Ledger} {ops : List Operation} (h : Replay c l ops s.answered s.ledger)
    (events : List Event) :
    Replay c l (ops ++ operationsOf events) (s.run c events).answered (s.run c events).ledger := by
  induction events generalizing s ops with
  | nil => exact (List.append_nil ops).symm ▸ h
  | cons e es ih =>
    rw [operationsOf_cons, ← List.append_assoc]
    exact ih (h.step e)

end Schedules

/-! ## 3. Own replies -/

section Faithful

omit [SignatureScheme] in
/-- There is one line feed for each line. -/
theorem count_bytesOf {lines : List Bytes} (h : ∀ line ∈ lines, 0x0A ∉ line) :
    (bytesOf lines).count 0x0A = lines.length := by
  induction lines with
  | nil => rfl
  | cons line lines ih =>
    have hline := List.count_eq_zero_of_not_mem (h line List.mem_cons_self)
    rw [bytesOf_cons, List.count_append, List.count_cons_self, hline,
      ih fun l hl => h l (List.mem_cons_of_mem _ hl), List.length_cons, Nat.zero_add]

omit [SignatureScheme] in
theorem lineFeed_notMem_linesOf (asks : List Request) : ∀ line ∈ linesOf asks, 0x0A ∉ line := by
  intro line hline
  obtain ⟨k, hk, rfl⟩ := List.mem_mapIdx.mp hline
  exact lineFeed_notMem_lineOf _ _

variable {c : Config} {s : Session} {asks : List Request} {taken : Nat} {unfinished : Bytes}

omit [SignatureScheme] in
/-- Whoever writes has the link, with something left of a line. -/
theorem exists_holder_of_isWriting (h : s.isWriting = true) :
    ∃ holder, s.holder = some holder ∧ holder.left.isEmpty = false := by
  unfold isWriting at h
  cases hholder : s.holder with
  | none =>
    rw [hholder] at h
    cases h
  | some holder =>
    rw [hholder, Option.any_some, Bool.not_eq_true'] at h
    exact ⟨holder, rfl, h⟩

/-- Of the lines of all that have begun, those are written that do not end in what is left. -/
theorem Coherent.count_left (h : s.Coherent c asks taken unfinished) :
    s.sent.length + s.left.count 0x0A = asks.length := by
  have hbegun := h.numbering.length_begun
  cases hwriting : s.isWriting with
  | false =>
    obtain ⟨hleft, hsent⟩ := left_begun_of_not_isWriting hwriting
    rw [hsent] at hbegun
    rw [hleft, List.count_nil, hbegun, Nat.add_zero]
  | true =>
    obtain ⟨holder, hholder, hleft⟩ := exists_holder_of_isWriting hwriting
    obtain ⟨n, r, hlast⟩ := h.last holder hholder
    rw [begun_of_left hholder hleft, List.length_append, List.length_singleton] at hbegun
    -- What is left is the end of one line, with its line feed.
    have hone : s.left.count 0x0A = 1 := by
      rw [left, hholder]
      rcases List.suffix_concat_iff.mp hlast.left with hnil | ⟨part, hpart, hsuffix⟩
      · rw [List.isEmpty_eq_false_iff] at hleft
        exact absurd hnil hleft
      · have hfeed : 0x0A ∉ part := fun hmem => lineFeed_notMem_lineOf n r (hsuffix.subset hmem)
        simp only [hpart, List.count_append, List.count_singleton_self,
          List.count_eq_zero_of_not_mem hfeed, Nat.zero_add]
    omega

/-- **The lines on the way to the node** are those that were written and are still to be answered. -/
theorem Coherent.answered_count (h : s.Coherent c asks taken unfinished) :
    s.answered.length + s.toNode.count 0x0A = s.sent.length := by
  have hlines : ∀ line ∈ (linesOf asks).drop s.answered.length, 0x0A ∉ line := fun line hline =>
    lineFeed_notMem_linesOf asks line (List.mem_of_mem_drop hline)
  have hcount := count_bytesOf hlines
  rw [← h.outbound, List.count_append, List.length_drop, length_linesOf] at hcount
  have hleft := h.count_left
  have hanswered := h.answered_le
  omega

/-- The node has answered only lines that were written. -/
theorem Coherent.answered_le_sent (h : s.Coherent c asks taken unfinished) :
    s.answered.length ≤ s.sent.length :=
  h.answered_count ▸ Nat.le_add_right _ _

/-- The call whose line was written as a number, and its request. -/
theorem Coherent.sent_asked (h : s.Coherent c asks taken unfinished) {k : Nat} {r : Request}
    (hr : asks[k]? = some r) (hk : k < s.sent.length) :
    ∃ call, s.sent[k]? = some call ∧ s.calls[call]? = some r := by
  have hsent : s.sent[k]? = some s.sent[k] := List.getElem?_eq_getElem hk
  have hbegun : s.begun[k]? = some s.sent[k] := getElem?_of_prefix (List.prefix_append _ _) hsent
  exact ⟨_, hsent, (h.numbering.getElem?_calls hbegun).trans hr⟩

/-- **A call that waits for its reply** uses all that arrives and waits on, or it returns. -/
theorem Coherent.reads (h : s.Coherent c asks taken unfinished) {holder : Holder}
    (hholder : s.holder = some holder) (hleft : holder.left = []) (count : Nat) :
    ((s.read count).holder = some holder ∧ (s.read count).toClient = s.toClient.drop count
        ∧ (s.read count).returned = s.returned)
      ∨ ∃ result, (s.read count).holder = none
        ∧ (s.read count).returned = s.returned ++ [(holder.call, result)] := by
  have hempty : holder.left.isEmpty = true := List.isEmpty_iff.mpr hleft
  obtain ⟨n, r, hlast⟩ := h.last holder hholder
  rcases h.read_cases count hholder hempty hlast with
    ⟨taken', unfinished', -, -, -, -, heq⟩ | ⟨a, later, -, -, heq⟩
  · rw [heq]
    exact .inl ⟨hholder, rfl, rfl⟩
  · rw [heq]
    exact .inr ⟨_, rfl, rfl⟩

/-- **A call that waits returns** with everything that is on the way to it, once the node has answered
all lines. -/
theorem Coherent.returns (h : s.Coherent c asks taken unfinished) {holder : Holder}
    (hholder : s.holder = some holder) (hleft : holder.left = []) (hnone : 0x0A ∉ s.toNode)
    {count : Nat} (hcount : s.toClient.length ≤ count) :
    ∃ result, (s.read count).returned = s.returned ++ [(holder.call, result)] := by
  have hempty : holder.left.isEmpty = true := List.isEmpty_iff.mpr hleft
  have hwriting : s.isWriting = false := by rw [isWriting_eq hholder, hempty, Bool.not_true]
  have hanswered := h.answered_count
  rw [List.count_eq_zero_of_not_mem hnone, Nat.add_zero] at hanswered
  have hbegun := h.numbering.length_begun
  rw [(left_begun_of_not_isWriting hwriting).2, ← hanswered] at hbegun
  obtain ⟨n, r, hlast⟩ := h.last holder hholder
  rcases h.read_cases count hholder hempty hlast with
    ⟨taken', unfinished', hle, -, hline, hinbound, -⟩ | ⟨a, later, -, -, heq⟩
  · -- Its reply was given and not taken, so reading cannot end before a line feed.
    have hlt : taken' < (s.answered.map fun a => (a.outcome c).1).length := by
      rw [List.length_map, hbegun, hlast.length]
      exact Nat.lt_succ_of_le hle
    rw [List.drop_of_length_le hcount, List.append_nil, List.drop_eq_getElem_cons hlt,
      List.map_cons, bytesOf_cons] at hinbound
    refine absurd ?_ hline
    rw [hinbound]
    exact List.mem_append_right _ List.mem_cons_self
  · rw [heq]
    exact ⟨_, rfl⟩

/-- **A session is faithful.** -/
structure Faithful (c : Config) (s : Session) : Prop where
  /-- The stream is in use at both ends. -/
  inUse : s.link.stream ≠ none ∧ s.hungUp = false
  /-- No call has its line written twice. -/
  once : s.sent.Nodup
  /-- The node answers the lines that were written, in their order; a proper request changes the ledger
  as it does when it is handled directly. -/
  handled : ∀ (k : Nat) (a : Answered), s.answered[k]? = some a →
    ∃ call r, s.sent[k]? = some call ∧ s.calls[call]? = some r ∧ a.line = lineOf k r
      ∧ a.after = (a.outcome c).2
      ∧ (r.Proper → a.after = (a.before.handle c r a.now).2)
  /-- The other lines that were written are on the way to the node. -/
  complete : s.answered.length + s.toNode.count 0x0A = s.sent.length
  /-- Every call that has returned has what the node answered to its own line; for a proper request to a
  ledger that can be reached, that is the response of the ledger. -/
  own : ∀ call result, (call, result) ∈ s.returned →
    ∃ (k : Nat) (r : Request) (a : Answered),
      s.sent[k]? = some call ∧ s.calls[call]? = some r ∧ s.answered[k]? = some a
      ∧ result = (a.outcome c).1.response (Rpc.methodOf r)
      ∧ (r.Proper → a.before.Reachable c → result = .ok (a.before.handle c r a.now).1)

/-- **A coherent session is faithful.** -/
theorem Coherent.faithful (h : s.Coherent c asks taken unfinished) : s.Faithful c where
  inUse := by
    rw [h.link]
    exact ⟨Option.some_ne_none _, h.up⟩
  once := by
    refine h.numbering.distinct.sublist ?_
    rw [begun, List.append_assoc]
    exact List.sublist_append_left _ _
  handled k a ha := by
    obtain ⟨r, hr, hline⟩ := h.line_of_answered ha
    have hk : k < s.sent.length :=
      Nat.lt_of_lt_of_le (List.getElem?_eq_some_iff.mp ha).1 h.answered_le_sent
    obtain ⟨call, hsent, hcall⟩ := h.sent_asked hr hk
    have hafter := h.outcome a (List.mem_of_getElem? ha)
    refine ⟨call, r, hsent, hcall, hline, hafter, fun hproper => ?_⟩
    rw [hafter, Answered.outcome_of_line c hline, Rpc.dispatch_proper hproper]
  complete := h.answered_count
  own call result hreturned := by
    obtain ⟨k, r, a, hsent, hr, ha, hline, hresult⟩ := h.own call result hreturned
    refine ⟨k, r, a, hsent, hr, ha, hresult, fun hproper hreachable => ?_⟩
    rw [hresult, Answered.outcome_of_line c hline]
    exact Rpc.response_dispatch hreachable.proper hproper _ _

end Faithful

/-! ## 4. No standstill -/

section Responsive

variable {c : Config} {s : Session} {asks : List Request} {taken : Nat} {unfinished : Bytes}

/-- **The node has handled the next line**, and no other: it is the line of the first call whose line was
written and not answered yet.  The line is gone from what is on the way to the node, its reply is on the way
to the client, and the ledger is what the request made of it. -/
structure HandledNext (c : Config) (s : Session) (now : Timestamp) (s' : Session) (a : Answered) :
    Prop where
  sender : ∃ call r, s.sent[s.answered.length]? = some call ∧ s.calls[call]? = some r
    ∧ a.line = lineOf s.answered.length r
    ∧ (r.Proper → s'.ledger = (s.ledger.handle c r now).2)
  asked : a.now = now ∧ a.before = s.ledger ∧ a.after = s'.ledger
  noted : s'.answered = s.answered ++ [a]
  toNode : s.toNode = a.line ++ 0x0A :: s'.toNode
  toClient : s'.toClient = s.toClient ++ (replyLine (a.outcome c).1 ++ [0x0A])

/-- **A session is responsive**: what can happen next does happen with its event. -/
structure Responsive (c : Config) (s : Session) : Prop where
  /-- A call that is made waits for the link. -/
  made : ∀ r, (s.step c (.call r)).waiting = s.waiting ++ [s.calls.length]
  /-- A call that waits gets the link if no other has it, with the next line for its request to write. -/
  takes : s.holder = none → ∀ call ∈ s.waiting, ∃ r o, s.calls[call]? = some r
    ∧ (s.step c (.take call)).holder = some ⟨call, o, lineOf s.sent.length r ++ [0x0A]⟩
  /-- What the stream accepts of a line is on the way to the node.  With the last of it the line is
  written. -/
  writes : ∀ h ∈ s.holder, h.left ≠ [] → ∀ count,
    (s.step c (.write count)).toNode = s.toNode ++ h.left.take count
      ∧ (s.step c (.write count)).sent
        = if h.left.length ≤ count then s.sent ++ [h.call] else s.sent
  /-- The node handles the next line whenever a whole one is on the way to it. -/
  answers : 0x0A ∈ s.toNode → ∀ now, ∃ a, s.HandledNext c now (s.step c (.answer now)) a
  /-- A call that waits for its reply uses all that arrives and waits on, or it returns. -/
  reads : ∀ h ∈ s.holder, h.left = [] → ∀ count,
    ((s.step c (.read count)).holder = some h
        ∧ (s.step c (.read count)).toClient = s.toClient.drop count
        ∧ (s.step c (.read count)).returned = s.returned)
      ∨ ∃ result, (s.step c (.read count)).holder = none
        ∧ (s.step c (.read count)).returned = s.returned ++ [(h.call, result)]
  /-- It returns with everything that is on the way to it, once the node has answered all lines. -/
  returns : ∀ h ∈ s.holder, h.left = [] → 0x0A ∉ s.toNode → ∀ count, s.toClient.length ≤ count →
    ∃ result, (s.step c (.read count)).returned = s.returned ++ [(h.call, result)]
  /-- A call that is given up lets go of the link. -/
  abandons : (s.step c .abandon).holder = none

/-- A call that waits has the next line to write once it gets the link. -/
theorem Coherent.takes (h : s.Coherent c asks taken unfinished) (hholder : s.holder = none)
    {call : Nat} (hcall : call ∈ s.waiting) :
    ∃ r o, s.calls[call]? = some r
      ∧ (s.take call).holder = some ⟨call, o, lineOf s.sent.length r ++ [0x0A]⟩ := by
  have hidle : s.isWriting = false := by rw [isWriting, hholder, Option.any_none]
  have hlength := h.numbering.length_begun
  rw [(left_begun_of_not_isWriting hidle).2] at hlength
  have hlink := h.link
  rw [hidle, ← hlength] at hlink
  have hr := List.getElem?_eq_getElem (h.numbering.known call (List.mem_append_right _ hcall))
  have htake := take_of_waiting hholder hr hcall hlink
  exact ⟨_, _, hr, congrArg Session.holder htake⟩

omit [SignatureScheme] in
/-- What is written of a line is on the way, and with the last of it the line is written. -/
theorem writes_of_left {h : Holder} (hholder : s.holder = some h) (hleft : h.left ≠ []) (count : Nat) :
    (s.write count).toNode = s.toNode ++ h.left.take count
      ∧ (s.write count).sent = if h.left.length ≤ count then s.sent ++ [h.call] else s.sent := by
  rw [write_of_left hholder (List.isEmpty_eq_false_iff.mpr hleft)]
  by_cases hcount : h.left.length ≤ count
  · have hrest : (h.left.drop count).isEmpty = true :=
      List.isEmpty_iff.mpr (List.drop_of_length_le hcount)
    rw [if_pos hrest, if_pos hcount]
    exact ⟨rfl, rfl⟩
  · have hrest : ¬ (h.left.drop count).isEmpty = true := by
      rwa [List.isEmpty_iff, List.drop_eq_nil_iff]
    rw [if_neg hrest, if_neg hcount]
    exact ⟨rfl, rfl⟩

/-- **The node handles the next line** whenever a whole one is on the way to it. -/
theorem Coherent.answers (h : s.Coherent c asks taken unfinished) (hmem : 0x0A ∈ s.toNode)
    (now : Timestamp) : ∃ a, s.HandledNext c now (s.answer c now) a := by
  obtain ⟨r, rest, hr, -, hnode, heq⟩ := h.answer_eq hmem now
  -- A line that is on the way was written.
  have hlt : s.answered.length < s.sent.length := by
    have hcount := h.answered_count
    have hpos := List.count_pos_iff.mpr hmem
    omega
  obtain ⟨call, hsent, hcall⟩ := h.sent_asked hr hlt
  let a : Answered :=
    ⟨lineOf s.answered.length r, now, s.ledger,
      (Rpc.dispatch c s.ledger (Rpc.requestLine (lineId s.answered.length) r) now).2⟩
  have houtcome : a.outcome c
      = Rpc.dispatch c s.ledger (Rpc.requestLine (lineId s.answered.length) r) now :=
    a.outcome_of_line c rfl
  refine ⟨a, ?_⟩
  rw [heq]
  exact
    { sender := ⟨call, r, hsent, hcall, rfl, fun hproper => by
        rw [Session.replied, Rpc.dispatch_proper hproper]⟩
      asked := ⟨rfl, rfl, rfl⟩
      noted := rfl
      toNode := hnode
      toClient := by rw [houtcome, Session.replied, bytesOf_singleton] }

/-- **A coherent session is responsive.** -/
theorem Coherent.responsive (h : s.Coherent c asks taken unfinished) : s.Responsive c where
  made _ := rfl
  takes hholder _ hcall := h.takes hholder hcall
  writes _ hholder hleft count := writes_of_left hholder hleft count
  answers hmem now := h.answers hmem now
  reads _ hholder hleft count := h.reads hholder hleft count
  returns _ hholder hleft hnone _ hcount := h.returns hholder hleft hnone hcount
  abandons := rfl

end Responsive

/-! ## 5. Whole schedules -/

/-- **No reply goes astray.**  Whatever the schedule, as long as it makes fewer calls than there are
identifiers and gives up no line half-written: the stream stays in use, the node answers every line that
is written once and in order, and every call that returns has the answer to its own request.  Replies of
calls that were given up do no harm.  Nor does anything come to a stop: the node handles the next line
whenever one is there, and a call returns when its reply has arrived.  Nothing but the answers, and what the
schedule does besides, changes the ledger.  And from a ledger that can be reached, as long as numbers last,
the node answers from no others.

The work is in `IsCoherent.step`: the invariant that ties what is between the two ends to the numbers of the
lines is kept by every event. -/
theorem run_faithful (c : Config) (l : Ledger) (events : List Event)
    (hfew : (requestsOf events).length < 2 ^ 64)
    (hwhole : ∀ p ∈ points c (start l) events, p.2 = .abandon → p.1.isWriting = false) :
    ((start l).run c events).calls = requestsOf events
      ∧ ((start l).run c events).Faithful c
      ∧ ((start l).run c events).Responsive c
      ∧ Replay c l (operationsOf events) ((start l).run c events).answered
          ((start l).run c events).ledger
      ∧ (l.Reachable c → Lasting c (start l) events →
          ∀ a ∈ ((start l).run c events).answered, a.before.Reachable c) := by
  have hfew' : (start l).calls.length + (requestsOf events).length < 2 ^ 64 := by
    rwa [start, List.length_nil, Nat.zero_add]
  obtain ⟨asks, taken, unfinished, h⟩ := (isCoherent_start c l).run hfew' hwhole
  have hreplay : Replay c l [] (start l).answered (start l).ledger := .start
  exact ⟨calls_run _ _, h.faithful, h.responsive, hreplay.run events, fun hl hlast =>
    reachable_answered hlast hl fun a ha => absurd ha List.not_mem_nil⟩

end Session

end Signing

/-! ## 6. A schedule with calls that are given up -/

namespace Session

/-- **A schedule for trials**: of three calls, one is given up while it waits for its reply and one while
it waits for the link.  The third is in the middle of its line when the node answers the first, and reads
the replies in two parts.  Before the node answers it, a balance is set. -/
def trialEvents : List Event :=
  [.call (.transaction ⟨[], []⟩), .take 0, .write 100, .write 4096,
    .call (.query ⟨.cost, .accountInfo (.simple 5)⟩),
    .call (.query ⟨.answer, .accountBalance (.simple 5)⟩), .abandon, .take 2, .write 20,
    .answer ⟨1001, 0⟩, .leave 1, .write 4096, .read 20, .operate (.setBalance (.simple 5) 700),
    .answer ⟨1002, 0⟩, .read 4096]

/-- **What there is to see of a session**: the calls whose lines were written, the times at which the node
answered, and the responses that were returned. -/
def seen (s : Session) : List Nat × List Timestamp × List (Nat × Option Response) :=
  (s.sent, s.answered.map Answered.now,
    s.returned.map fun (call, result) => (call, result.toOption))

open Trial in
/-- No reply of that schedule goes astray.  The node has answered the lines of the first and of the third
call, and the third has returned with the balance that was set. -/
theorem run_faithful_trialEvents :
    letI := scheme
    let s := (start Trial.ledger).run {} trialEvents
    ((requestsOf trialEvents).length < 2 ^ 64
        ∧ ∀ p ∈ points {} (start Trial.ledger) trialEvents, p.2 = .abandon → p.1.isWriting = false)
      ∧ s.Faithful {} ∧ s.Responsive {}
      ∧ s.seen = ([0, 2], [⟨1001, 0⟩, ⟨1002, 0⟩],
          [(2, some (.query ⟨.ok, .answer, 0, some (.accountBalance (.simple 5) 700)⟩))])
      ∧ s.answered.map Answered.line
        = [lineOf 0 (.transaction ⟨[], []⟩),
            lineOf 1 (.query ⟨.answer, .accountBalance (.simple 5)⟩)] := by
  let := scheme
  intro s
  have hfew : (requestsOf trialEvents).length < 2 ^ 64 := by decide
  have hline : ((start Trial.ledger).run {} (trialEvents.take 6)).isWriting = false := by
    decide +kernel
  have hwhole : ∀ p ∈ points {} (start Trial.ledger) trialEvents,
      p.2 = .abandon → p.1.isWriting = false := by
    simp only [trialEvents, points, List.forall_mem_cons, reduceCtorEq, false_imp_iff, true_and,
      List.not_mem_nil, implies_true, and_true, forall_const]
    exact hline
  have hseen : s.seen = ([0, 2], [⟨1001, 0⟩, ⟨1002, 0⟩],
      [(2, some (.query ⟨.ok, .answer, 0, some (.accountBalance (.simple 5) 700)⟩))]) := by
    decide +kernel
  obtain ⟨hcalls, hfaithful, hresponsive, -, -⟩ :=
    run_faithful {} Trial.ledger trialEvents hfew hwhole
  refine ⟨⟨hfew, hwhole⟩, hfaithful, hresponsive, hseen, ?_⟩
  -- The lines are those of the calls that were written, by their numbers.
  have hparts := hseen
  rw [seen, Prod.mk.injEq, Prod.mk.injEq] at hparts
  obtain ⟨hsent, hnows, -⟩ := hparts
  have hhandled : ∀ {k : Nat} {a : Answered} {call : Nat} {r : Request}, s.answered[k]? = some a →
      [0, 2][k]? = some call → (requestsOf trialEvents)[call]? = some r → a.line = lineOf k r := by
    intro k a call r ha hcall hr
    obtain ⟨call', r', hcall', hr', hline, -, -⟩ := hfaithful.handled k a ha
    rw [hsent, hcall] at hcall'
    rw [hcalls, ← Option.some.inj hcall', hr] at hr'
    rw [hline, Option.some.inj hr']
  obtain ⟨a, b, hanswered⟩ : ∃ a b, s.answered = [a, b] := by
    rw [← List.length_eq_two, ← List.length_map Answered.now, hnows]
    rfl
  rw [hanswered] at hhandled ⊢
  rw [List.map_cons, List.map_singleton, hhandled (k := 0) rfl rfl rfl, hhandled (k := 1) rfl rfl rfl]

end Session

end ShardLedger
