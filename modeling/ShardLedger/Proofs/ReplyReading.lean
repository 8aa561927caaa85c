import ShardLedger.Proofs.LineBytes
/-
Reading among replies.

The replies of a node to the lines of one client bear the numbers of the lines, in order.  A call that
reads on from anywhere before its own reply, with any part of a line in hand, skips what comes before
and stops at its own; or it has used up what has arrived, and its own is still to come.
-/

set_option autoImplicit false

namespace ShardLedger

open Wire
open Rpc (ResponseEnvelope IsReply)

namespace Session

/-- **The identifier of a line**, by its number in the stream. -/
def lineId (number : Nat) : UInt64 :=
  UInt64.ofNat (number + 1)

theorem lineId_lt_lineId {k n : Nat} (hk : k < n) (hn : n + 1 < 2 ^ 64) : lineId k < lineId n := by
  have hk' : k + 1 < 2 ^ 64 := by omega
  rw [UInt64.lt_iff_toNat_lt, lineId, lineId, UInt64.toNat_ofNat_of_lt' hk',
    UInt64.toNat_ofNat_of_lt' hn]
  omega

section Reading

variable [SignatureScheme]

/-- **Replies in order**: each bears the number of its line. -/
def InOrder (replies : List ResponseEnvelope) : Prop :=
  ∀ k e, replies[k]? = some e → IsReply (lineId k) e

/-- A reply of an earlier line is stale. -/
theorem judge_earlier {k n : Nat} {e : ResponseEnvelope} (h : IsReply (lineId k) e) (hk : k < n)
    (hn : n + 1 < 2 ^ 64) : judge (lineId n) (replyLine e) = .stale := by
  have hlt := lineId_lt_lineId hk hn
  rw [judge, h.readReply_replyLine]
  simp only [h.id_eq, Json.natural, Json.natural?]
  rw [if_neg (UInt64.ne_of_lt hlt), if_pos hlt]

/-- The reply to the line itself is the one that is waited for. -/
theorem judge_own {n : Nat} {e : ResponseEnvelope} (h : IsReply (lineId n) e) :
    judge (lineId n) (replyLine e) = .current e := by
  rw [judge, h.readReply_replyLine]
  simp only [h.id_eq, Json.natural, Json.natural?, if_true]

/-- **Reading on among replies.**  Of the replies, `taken` were taken before and the reader waits for
number `n`.  Either everything that has arrived is used up before that reply, or the reply is found, and
nothing behind it is touched.  The induction is on the bytes that have arrived. -/
theorem readOn_replies {replies : List ResponseEnvelope} (hall : InOrder replies) {n : Nat}
    (hn : n + 1 < 2 ^ 64) (arrived : Bytes) {later : Bytes} {unfinished : Bytes} {taken : Nat}
    (htaken : taken ≤ n) (hlength : taken ≤ replies.length) (hline : 0x0A ∉ unfinished)
    (hbytes : unfinished ++ (arrived ++ later) = bytesOf ((replies.drop taken).map replyLine)) :
    (∃ taken' unfinished', readOn (lineId n) false unfinished arrived = .more unfinished'
        ∧ taken' ≤ n ∧ taken' ≤ replies.length ∧ 0x0A ∉ unfinished'
        ∧ unfinished' ++ later = bytesOf ((replies.drop taken').map replyLine))
      ∨ ∃ e rest, readOn (lineId n) false unfinished arrived = .reply e rest
        ∧ replies[n]? = some e
        ∧ rest ++ later = bytesOf ((replies.drop (n + 1)).map replyLine) := by
  induction arrived generalizing unfinished taken with
  | nil => exact .inl ⟨taken, unfinished, rfl, htaken, hlength, hline, hbytes⟩
  | cons b bs ih =>
    rw [readOn]
    by_cases hb : b = 0x0A
    · rw [if_pos hb]
      rw [hb, List.cons_append] at hbytes
      -- A line is complete, and it is the next reply.
      have hlt : taken < replies.length := by
        by_contra hge
        rw [List.drop_of_length_le (by omega), List.map_nil, bytesOf_nil] at hbytes
        simp at hbytes
      have hget : replies[taken]? = some replies[taken] := List.getElem?_eq_getElem hlt
      have hreply := hall taken _ hget
      rw [List.drop_eq_getElem_cons hlt, List.map_cons, bytesOf_cons] at hbytes
      obtain ⟨rfl, hrest⟩ :=
        eq_of_append_lineFeed hline (Rpc.lineFeed_notMem_replyLine _) hbytes
      obtain hlt' | rfl := Nat.lt_or_eq_of_le htaken
      · rw [judge_earlier hreply hlt' hn]
        exact ih hlt' hlt (List.not_mem_nil) hrest
      · rw [judge_own hreply]
        exact .inr ⟨_, bs, rfl, hget, hrest⟩
    · rw [if_neg hb]
      refine ih htaken hlength ?_ ?_
      · rw [List.mem_append, List.mem_singleton, not_or]
        exact ⟨hline, Ne.symm hb⟩
      · rw [List.append_assoc]
        exact hbytes

end Reading

end Session

end ShardLedger
