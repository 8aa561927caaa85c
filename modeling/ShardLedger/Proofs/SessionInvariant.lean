import ShardLedger.Proofs.RemoteAgreement
import ShardLedger.Proofs.ReplyReading
/-
What holds between a client and a node.

A call that was given up leaves traces behind: half a reply line in the hands of the client, replies that
nobody reads, lines that the node has still to answer.  None of them is forgotten, and none can be
mistaken.  The requests that got the link are numbered in order, and so are their lines, the node's
answers and the replies.  What is between the two ends is at every moment made of the same three pieces:
lines that were not answered yet, replies that were not taken yet, and a part of the first of them.  The
call that has the link is the last to have got a number, and its reply is not among those taken.
-/

set_option autoImplicit false

namespace ShardLedger

open Wire
open Rpc (ResponseEnvelope)

namespace Session

/-! ## 1. Lines by number -/

/-- **The line of a request**, by its number in the stream. -/
@[irreducible]
def lineOf (number : Nat) (r : Request) : Bytes :=
  Rpc.requestBytes (lineId number) r

/-- **The lines of requests** in the order of the stream. -/
def linesOf (asks : List Request) : List Bytes :=
  asks.mapIdx lineOf

theorem length_linesOf (asks : List Request) : (linesOf asks).length = asks.length :=
  List.length_mapIdx

theorem linesOf_concat (asks : List Request) (r : Request) :
    linesOf (asks ++ [r]) = linesOf asks ++ [lineOf asks.length r] :=
  List.mapIdx_concat

theorem lineFeed_notMem_lineOf (number : Nat) (r : Request) : 0x0A ∉ lineOf number r := by
  rw [lineOf]
  exact Rpc.lineFeed_notMem_requestBytes _ _

theorem toText?_lineOf (number : Nat) (r : Request) :
    Bytes.toText? (lineOf number r)
      = some (Wired.toJson (Rpc.RequestEnvelope.ofRequest (lineId number) r)).text := by
  rw [lineOf]
  exact Bytes.toText?_ofText _

theorem isEmpty_line (number : Nat) (r : Request) :
    (lineOf number r ++ [0x0A]).isEmpty = false := by
  rw [List.isEmpty_eq_false_iff]
  exact List.append_ne_nil_of_right_ne_nil _ (List.cons_ne_nil _ _)

/-- A history only grows. -/
theorem getElem?_of_prefix {α : Type} {xs ys : List α} (h : xs <+: ys) {k : Nat} {x : α}
    (hx : xs[k]? = some x) : ys[k]? = some x := by
  obtain ⟨zs, rfl⟩ := h
  rw [List.getElem?_append_left (List.getElem?_eq_some_iff.mp hx).1, hx]

/-! ## 2. Numbers of calls -/

/-- **The calls that have begun are numbered**: `asks` are their requests, in order.  No call begins
twice, and there are fewer calls than identifiers. -/
structure Numbering (calls : List Request) (begun waiting : List Nat) (asks : List Request) :
    Prop where
  few : calls.length < 2 ^ 64
  asked : begun.map (calls[·]?) = asks.map some
  distinct : (begun ++ waiting).Nodup
  known : ∀ i ∈ begun ++ waiting, i < calls.length

section Numbering

variable {calls asks : List Request} {begun waiting : List Nat} {i : Nat} {r : Request}

theorem Numbering.length_begun (h : Numbering calls begun waiting asks) :
    begun.length = asks.length := by
  have hlength := congrArg List.length h.asked
  rwa [List.length_map, List.length_map] at hlength

/-- There are enough identifiers. -/
theorem Numbering.length_lt (h : Numbering calls begun waiting asks) : asks.length < 2 ^ 64 := by
  have hnodup : begun.Nodup := h.distinct.sublist (List.sublist_append_left _ _)
  have hsub : begun ⊆ List.range calls.length := fun i hi =>
    List.mem_range.mpr (h.known i (List.mem_append_left _ hi))
  have hle := hnodup.length_le_of_subset hsub
  rw [List.length_range, h.length_begun] at hle
  exact Nat.lt_of_le_of_lt hle h.few

/-- The request of a call that has a number. -/
theorem Numbering.getElem?_calls (h : Numbering calls begun waiting asks) {k : Nat}
    (hk : begun[k]? = some i) : calls[i]? = asks[k]? := by
  have heq := congrArg (·[k]?) h.asked
  simp only [List.getElem?_map, hk, Option.map_some] at heq
  cases hr : asks[k]? with
  | none =>
    rw [hr] at heq
    cases heq
  | some r =>
    rw [hr] at heq
    exact Option.some.inj heq

/-- A new call waits. -/
theorem Numbering.call (h : Numbering calls begun waiting asks) (r : Request)
    (hfew : calls.length + 1 < 2 ^ 64) :
    Numbering (calls ++ [r]) begun (waiting ++ [calls.length]) asks where
  few := by rwa [List.length_append]
  asked := by
    rw [← h.asked]
    refine List.map_congr_left fun i hi => ?_
    exact List.getElem?_append_left (h.known i (List.mem_append_left _ hi))
  distinct := by
    rw [← List.append_assoc]
    refine List.nodup_append.mpr ⟨h.distinct, List.pairwise_singleton _ _, fun i hi j hj heq => ?_⟩
    rw [List.mem_singleton] at hj
    exact Nat.lt_irrefl _ (h.known _ (hj ▸ heq ▸ hi))
  known i hi := by
    rw [← List.append_assoc, List.mem_append, List.mem_singleton] at hi
    rw [List.length_append, List.length_singleton]
    rcases hi with hi | rfl
    · exact Nat.lt_succ_of_lt (h.known i hi)
    · exact Nat.lt_succ_self _

/-- A call that waits is given up. -/
theorem Numbering.leave (h : Numbering calls begun waiting asks) (i : Nat) :
    Numbering calls begun (waiting.erase i) asks := by
  have hsub : List.Sublist (begun ++ waiting.erase i) (begun ++ waiting) :=
    (List.Sublist.refl _).append List.erase_sublist
  exact ⟨h.few, h.asked, h.distinct.sublist hsub, fun j hj => h.known j (hsub.subset hj)⟩

/-- A call that waits begins: it moves behind those that have begun. -/
theorem Numbering.take (h : Numbering calls begun waiting asks) (hmem : i ∈ waiting)
    (hr : calls[i]? = some r) :
    Numbering calls (begun ++ [i]) (waiting.erase i) (asks ++ [r]) := by
  have hperm : (begun ++ [i] ++ waiting.erase i).Perm (begun ++ waiting) := by
    rw [List.append_assoc]
    exact (List.perm_cons_erase hmem).symm.append_left _
  refine ⟨h.few, ?_, hperm.nodup_iff.mpr h.distinct, fun j hj => h.known j (hperm.mem_iff.mp hj)⟩
  rw [List.map_append, List.map_append, h.asked, List.map_singleton, hr, List.map_singleton]

end Numbering

end Session

section Signing

variable [SignatureScheme]

/-! ## 3. The invariant -/

/-- **What the node made of a line**: its reply, and the ledger after it. -/
def Answered.outcome (c : Config) (a : Answered) : ResponseEnvelope × Ledger :=
  Rpc.dispatch c a.before ((Bytes.toText? a.line).getD "").toList a.now

theorem Answered.outcome_of_line (c : Config) {a : Answered} {k : Nat} {r : Request}
    (h : a.line = Session.lineOf k r) :
    a.outcome c = Rpc.dispatch c a.before (Rpc.requestLine (Session.lineId k) r) a.now := by
  rw [outcome, h, Session.toText?_lineOf, Option.getD_some, Rpc.toList_text_ofRequest]

namespace Session

omit [SignatureScheme] in
/-- **The part of a line that is still to be written.** -/
def left (s : Session) : Bytes :=
  match s.holder with
  | none => []
  | some h => h.left

omit [SignatureScheme] in
/-- **The calls that have begun**: those whose lines were written, and the one that is writing. -/
def begun (s : Session) : List Nat :=
  s.sent ++
    match s.holder with
    | none => []
    | some h => if h.left.isEmpty then [] else [h.call]

/-- **A call has its own reply**: its line was written as number `k`, the node answered line number `k`,
and the result is what the reply says for the method of the request. -/
def Own (c : Config) (s : Session) (call : Nat) (result : Except TransportError Response) : Prop :=
  ∃ k r a, s.sent[k]? = some call ∧ s.calls[call]? = some r ∧ s.answered[k]? = some a
    ∧ a.line = lineOf k r ∧ result = (a.outcome c).1.response (Rpc.methodOf r)

/-- **The call that has the link** is the last that has begun, it has written a part of its line, and
its reply is not among those that were taken. -/
structure Last (begun : List Nat) (asks : List Request) (taken : Nat) (h : Holder) (n : Nat)
    (r : Request) : Prop where
  length : asks.length = n + 1
  ask : asks[n]? = some r
  call : begun[n]? = some h.call
  id : h.outgoing.id = lineId n
  method : h.outgoing.method = Rpc.methodOf r
  left : h.left <:+ lineOf n r ++ [0x0A]
  taken_le : taken ≤ n

/-- **The two ends agree** on what is between them.  The node has answered the first lines, and the
others are on the way; the client has taken the first replies, holds a part of the next, and the others
are on the way. -/
structure Coherent (c : Config) (s : Session) (asks : List Request) (taken : Nat)
    (unfinished : Bytes) : Prop where
  numbering : Numbering s.calls s.begun s.waiting asks
  link : s.link = ⟨some ⟨unfinished, s.isWriting⟩, lineId asks.length⟩
  up : s.hungUp = false
  answered : s.answered.map Answered.line = (linesOf asks).take s.answered.length
  outcome : ∀ a ∈ s.answered, a.after = (a.outcome c).2
  outbound : s.toNode ++ s.left = bytesOf ((linesOf asks).drop s.answered.length)
  taken_le : taken ≤ s.answered.length
  inbound : unfinished ++ s.toClient
    = bytesOf (((s.answered.map fun a => (a.outcome c).1).drop taken).map replyLine)
  line : 0x0A ∉ unfinished
  last : ∀ h ∈ s.holder, ∃ n r, Last s.begun asks taken h n r
  own : ∀ i result, (i, result) ∈ s.returned → s.Own c i result

/-- **A session is coherent.** -/
def IsCoherent (c : Config) (s : Session) : Prop :=
  ∃ asks taken unfinished, s.Coherent c asks taken unfinished

theorem isCoherent_start (c : Config) (l : Ledger) : (start l).IsCoherent c := by
  refine ⟨[], 0, [], ?_⟩
  exact
    { numbering := ⟨Nat.two_pow_pos 64, rfl, List.nodup_nil, nofun⟩
      link := rfl
      up := rfl
      answered := rfl
      outcome := nofun
      outbound := rfl
      taken_le := Nat.le_refl _
      inbound := rfl
      line := nofun
      last := nofun
      own := fun _ _ h => absurd h List.not_mem_nil }

/-! ## 4. What coherence says -/

section Facts

variable {c : Config} {s : Session} {asks : List Request} {taken : Nat} {unfinished : Bytes}

theorem Coherent.answered_le (h : s.Coherent c asks taken unfinished) :
    s.answered.length ≤ asks.length := by
  have hlength := congrArg List.length h.answered
  rw [List.length_map, List.length_take, length_linesOf] at hlength
  omega

/-- **A line that was answered** is the one of its number. -/
theorem Coherent.line_of_answered (h : s.Coherent c asks taken unfinished) {k : Nat}
    {a : Answered} (ha : s.answered[k]? = some a) :
    ∃ r, asks[k]? = some r ∧ a.line = lineOf k r := by
  have hk : k < s.answered.length := (List.getElem?_eq_some_iff.mp ha).1
  have hline := congrArg (·[k]?) h.answered
  simp only [List.getElem?_map, ha, Option.map_some, List.getElem?_take_of_lt hk, linesOf,
    List.getElem?_mapIdx] at hline
  obtain ⟨r, hr, heq⟩ := Option.map_eq_some_iff.mp hline.symm
  exact ⟨r, hr, heq.symm⟩

/-- The replies of the node are in order. -/
theorem Coherent.inOrder (h : s.Coherent c asks taken unfinished) :
    InOrder (s.answered.map fun a => (a.outcome c).1) := by
  intro k e he
  rw [List.getElem?_map] at he
  obtain ⟨a, ha, rfl⟩ := Option.map_eq_some_iff.mp he
  obtain ⟨r, -, hline⟩ := h.line_of_answered ha
  rw [Answered.outcome_of_line c hline]
  exact Rpc.isReply_dispatch _ r c _ _

/-- What a call has stays its own. -/
theorem Own.mono {s' : Session} {call : Nat} {result : Except TransportError Response}
    (h : s.Own c call result) (hsent : s.sent <+: s'.sent) (hcalls : s.calls <+: s'.calls)
    (hanswered : s.answered <+: s'.answered) : s'.Own c call result := by
  obtain ⟨k, r, a, hk, hr, ha, hrest⟩ := h
  exact ⟨k, r, a, getElem?_of_prefix hsent hk, getElem?_of_prefix hcalls hr,
    getElem?_of_prefix hanswered ha, hrest⟩

end Facts

/-! ## 5. Calls that come and go -/

section Calls

variable {c : Config} {s : Session}

/-- A call is made. -/
theorem IsCoherent.call (h : s.IsCoherent c) (r : Request) (hfew : s.calls.length + 1 < 2 ^ 64) :
    (s.step c (.call r)).IsCoherent c := by
  obtain ⟨asks, taken, unfinished, h⟩ := h
  refine ⟨asks, taken, unfinished, { h with numbering := h.numbering.call r hfew, own := ?_ }⟩
  intro i result hi
  exact (h.own i result hi).mono (List.prefix_refl _) (List.prefix_append _ _)
    (List.prefix_refl _)

/-- A call that waits for the link is given up. -/
theorem IsCoherent.leave (h : s.IsCoherent c) (call : Nat) :
    (s.step c (.leave call)).IsCoherent c := by
  obtain ⟨asks, taken, unfinished, h⟩ := h
  exact ⟨asks, taken, unfinished, { h with numbering := h.numbering.leave call }⟩

omit [SignatureScheme] in
/-- With no line being written, nothing is left of a line, and the lines of all that have begun are
written. -/
theorem left_begun_of_not_isWriting (h : s.isWriting = false) : s.left = [] ∧ s.begun = s.sent := by
  unfold isWriting at h
  unfold left begun
  cases hh : s.holder with
  | none => exact ⟨rfl, List.append_nil _⟩
  | some holder =>
    rw [hh, Option.any_some, Bool.not_eq_false'] at h
    simp only [h, if_true, List.append_nil, and_true]
    exact List.isEmpty_iff.mp h

omit [SignatureScheme] in
/-- While a line is being written, it is of the call that has begun last. -/
theorem begun_of_left {holder : Holder} (h : s.holder = some holder)
    (hleft : holder.left.isEmpty = false) : s.begun = s.sent ++ [holder.call] := by
  unfold begun
  rw [h]
  simp only [hleft, Bool.false_eq_true, if_false]

omit [SignatureScheme] in
theorem isWriting_eq {holder : Holder} (h : s.holder = some holder) :
    s.isWriting = !holder.left.isEmpty := by
  rw [isWriting, h, Option.any_some]

/-- The call that has the link is given up, but not in the middle of its line. -/
theorem IsCoherent.abandon (h : s.IsCoherent c) (hwhole : s.isWriting = false) :
    (s.step c .abandon).IsCoherent c := by
  obtain ⟨asks, taken, unfinished, h⟩ := h
  obtain ⟨hleft, hbegun⟩ := left_begun_of_not_isWriting hwhole
  have hbegun' : (s.step c .abandon).begun = s.begun := by
    rw [hbegun]
    exact List.append_nil _
  refine ⟨asks, taken, unfinished, { h with
    numbering := ?_, link := ?_, outbound := ?_, last := nofun }⟩
  · rw [hbegun']
    exact h.numbering
  · have hlink := h.link
    rwa [hwhole] at hlink
  · have houtbound := h.outbound
    rwa [hleft] at houtbound

/-- Something else is done to the ledger. -/
theorem IsCoherent.operate (h : s.IsCoherent c) (op : Operation) :
    (s.step c (.operate op)).IsCoherent c := by
  obtain ⟨asks, taken, unfinished, h⟩ := h
  exact ⟨asks, taken, unfinished, { h with }⟩

end Calls

end Session

end Signing

end ShardLedger
