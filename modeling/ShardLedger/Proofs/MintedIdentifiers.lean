import ShardLedger.Proofs.AcceptanceWindow
/-
Freshly minted identifiers are in time.

A mint hands out starts that are a little behind the clock, and one nanosecond later than the last where
the clock has not moved enough.  So each start is later than all before it, no earlier than its own reading
asks for, and by that no more ahead of it than there were calls before, as long as the clock does not go
back.

A node accepts a start up to ten seconds ahead of its own clock, and until the validity has passed.  The
two sides have constants of their own: a start five seconds behind the clock leaves fifteen seconds for a
node whose clock is slow, less the nanoseconds that a busy mint is ahead, and what is left of the validity
for one whose clock is fast.
-/

set_option autoImplicit false

namespace ShardLedger

/-- The greater of two words. -/
theorem toInt_max (a b : Int64) : (max a b).toInt = max a.toInt b.toInt := by
  have hmax : max a b = if a ≤ b then b else a := rfl
  rw [hmax]
  by_cases h : a ≤ b
  · rw [if_pos h]
    rw [Int64.le_iff_toInt_le] at h
    omega
  · rw [if_neg h]
    rw [Int64.le_iff_toInt_le] at h
    omega

namespace Mint

/-! ## 1. A mint and its clock -/

/-- **A mint after some calls.** -/
def after (m : Mint) (calls : List (ClockReading × AccountId)) : Mint :=
  calls.foldl (fun m call => (m.start call.1.timestamp).2) m

section Start

variable (m : Mint) (now : Timestamp)

/-- **A start is what the clock alone would give**, or the next after the last one. -/
theorem toInt_last_start :
    (m.start now).2.last.toInt = max (candidate now).toInt (min (m.last.toInt + 1) (2 ^ 63 - 1)) := by
  have := m.last.le_toInt
  have hnext : (m.start now).2.last = max (candidate now) (saturateI64 (m.last.toInt + 1)) := rfl
  rw [hnext, toInt_max, toInt_saturateI64]
  omega

/-- What the clock alone would give is five seconds behind it. -/
theorem toInt_candidate {n : Int64} (h : 0 ≤ n.toInt) :
    (candidate (.ofNanos n)).toInt = n.toInt - 5 * Timestamp.second := by
  have hskew : (startSkew.total : Int) = 5 * Timestamp.second := by decide
  have hfloor : Timestamp.floor = -2 ^ 63 + (2 ^ 31 - 1) := rfl
  have hlt := n.toInt_lt
  have hsecond : Timestamp.second = 1000000000 := rfl
  have hcount : (saturateI64 (n.toInt - startSkew.total)).toInt = n.toInt - 5 * Timestamp.second := by
    rw [toInt_saturateI64]
    omega
  rw [candidate, Timestamp.saturatingSub_ofNanos (by omega) (by omega),
    Timestamp.toInt_asNanos_ofNanos (by omega), hcount]

end Start

section Calls

variable {m : Mint} {calls : List (ClockReading × AccountId)}

theorem after_cons (m : Mint) (call : ClockReading × AccountId)
    (calls : List (ClockReading × AccountId)) :
    m.after (call :: calls) = (m.start call.1.timestamp).2.after calls := rfl

theorem ids_cons (m : Mint) (call : ClockReading × AccountId)
    (calls : List (ClockReading × AccountId)) :
    m.ids (call :: calls)
      = ⟨call.2, .ofNanos (m.start call.1.timestamp).2.last⟩
        :: (m.start call.1.timestamp).2.ids calls := rfl

/-- One more call. -/
theorem ids_concat (m : Mint) (calls : List (ClockReading × AccountId))
    (call : ClockReading × AccountId) :
    m.ids (calls ++ [call])
      = m.ids calls ++ [⟨call.2, .ofNanos ((m.after calls).start call.1.timestamp).2.last⟩] := by
  induction calls generalizing m with
  | nil => rfl
  | cons first calls ih => rw [List.cons_append, ids_cons, ids_cons, ih, after_cons, List.cons_append]

/-- A mint does not go back. -/
theorem last_le_after (m : Mint) (calls : List (ClockReading × AccountId)) :
    m.last.toInt ≤ (m.after calls).last.toInt := by
  induction calls generalizing m with
  | nil => exact Int.le_refl _
  | cons call calls ih =>
    have hlater := ih (m.start call.1.timestamp).2
    have hnext := m.toInt_last_start call.1.timestamp
    have := m.last.toInt_lt
    rw [after_cons]
    omega

/-- **No start that was handed out is later** than the last one. -/
theorem exact_le_of_mem_ids {id : TransactionId} (h : id ∈ m.ids calls) :
    id.validStart.exact ≤ (m.after calls).last.toInt := by
  induction calls generalizing m with
  | nil => cases h
  | cons call calls ih =>
    rw [ids_cons] at h
    rw [after_cons]
    rcases List.mem_cons.mp h with rfl | h
    · rw [Timestamp.exact_ofNanos]
      exact last_le_after _ calls
    · exact ih h

/-- **A mint is ahead of its clock by no more than its calls.**  The induction is on the calls, and the
bound moves on by one nanosecond with each. -/
theorem last_after_lt {bound : Int} (hfirst : m.last.toInt < bound)
    (hclock : ∀ call ∈ calls, (candidate call.1.timestamp).toInt ≤ bound) :
    (m.after calls).last.toInt < bound + calls.length := by
  induction calls generalizing m bound with
  | nil => simpa [after] using hfirst
  | cons call calls ih =>
    have hnext := m.toInt_last_start call.1.timestamp
    have hcall := hclock call List.mem_cons_self
    have hstep : (m.start call.1.timestamp).2.last.toInt < bound + 1 := by omega
    have hrest := ih hstep fun later hlater => by
      have := hclock later (List.mem_cons_of_mem _ hlater)
      omega
    rw [after_cons, List.length_cons]
    omega

/-- **The next start of a fresh mint**, five seconds behind the clock or ahead of that by no more than the
calls before, and later than every start before, where the clock has not gone back and the end of the word
is not near. -/
theorem start_bounds {n : Int64} (hn : 0 ≤ n.toInt)
    (hend : n.toInt - 5 * Timestamp.second + calls.length < 2 ^ 63 - 1)
    (hclock : ∀ call ∈ calls, 0 ≤ call.1.timestamp.exact ∧ call.1.timestamp ≤ .ofNanos n) :
    let start := ((fresh.after calls).start (.ofNanos n)).2.last.toInt
    n.toInt - 5 * Timestamp.second ≤ start
      ∧ start ≤ n.toInt - 5 * Timestamp.second + calls.length
      ∧ (fresh.after calls).last.toInt < start := by
  intro start
  have hcandidates : ∀ call ∈ calls,
      (candidate call.1.timestamp).toInt ≤ n.toInt - 5 * Timestamp.second := by
    intro call hcall
    obtain ⟨hepoch, hle⟩ := hclock call hcall
    obtain ⟨m, hm⟩ := Timestamp.exists_timestamp_eq call.1
    rw [hm, Timestamp.exact_ofNanos] at hepoch
    rw [hm] at hle ⊢
    have hbefore := Timestamp.toInt_le_of_ofNanos_le hle
    rw [toInt_candidate hepoch]
    omega
  have hlowest : fresh.last.toInt = -2 ^ 63 := by decide
  have hsecond : Timestamp.second = 1000000000 := rfl
  have hlast : (fresh.after calls).last.toInt < n.toInt - 5 * Timestamp.second + calls.length :=
    last_after_lt (by omega) hcandidates
  have hnext := (fresh.after calls).toInt_last_start (.ofNanos n)
  rw [toInt_candidate hn] at hnext
  omega

end Calls

end Mint

namespace Ledger

/-! ## 2. A node and its clock -/

/-- **What a transaction is refused with that is not in time.** -/
def untimely : List Status :=
  [.invalidTransactionDuration, .invalidTransactionStart, .transactionExpired]

/-- **A transaction is in time** by a clock: it passes the checks that have to do with time. -/
structure Timely (now : Timestamp) (body : TransactionBody) : Prop where
  validity : minValidSeconds ≤ body.validSeconds ∧ body.validSeconds ≤ maxValidSeconds
  started : body.id.validStart ≤ now.saturatingAdd maxStartAhead
  unexpired : now < body.expiresAt

section Timely

variable [SignatureScheme] {l : Ledger} {t : SignedTransaction} {now : Timestamp} {body : TransactionBody}

/-- **What is in time is refused for other reasons.** -/
theorem Timely.failsWith_precheck (h : Timely now body) (c : Config) (hbody : t.body = .ok body) :
    FailsWith (refusals.filter (· ∉ untimely)) (l.precheck c t now) := by
  have hread : (t.body.mapError fun _ => Status.invalidTransactionBody) = .ok body :=
    mapError_eq_ok.mpr hbody
  refine .bind_of_eq_ok hread ?_
  refine (FailsWith.require (by decide)).bind fun _ => ?_
  refine ((failsWith_payer l _).mono (by decide)).bind fun payer => ?_
  -- The demands of time are met, and the rest of the chain makes others.
  refine .bind_of_met h.validity ?_
  refine .bind_of_met h.started ?_
  refine .bind_of_met h.unexpired ?_
  refine (FailsWith.require (by decide)).bind fun _ => ?_
  refine (FailsWith.require (by decide)).bind fun _ => ?_
  refine (FailsWith.require (by decide)).bind fun _ => ?_
  refine (FailsWith.require (by decide)).bind fun _ => ?_
  exact (FailsWith.require (by decide)).bind fun _ => .ok body

/-- What is in time is not refused for reasons of time. -/
theorem Timely.submit_notMem (h : Timely now body) (c : Config) (hbody : t.body = .ok body) :
    (l.submit c t now).1 ∉ untimely := by
  rw [submit_eq]
  cases hcheck : (l.prune now c.receiptRetention).precheck c t now with
  | error status =>
    have hother := h.failsWith_precheck c hbody status hcheck
    exact of_decide_eq_true (List.mem_filter.mp hother).2
  | ok body =>
    show Status.ok ∉ untimely
    decide

omit [SignatureScheme] in
/-- **In exact time**: a start ten seconds ahead of the clock at the most, whose validity has not passed. -/
theorem timely_of_bounds {n n' : Int64} (hstart : body.id.validStart = .ofNanos n)
    (hmin : 15 ≤ body.validSeconds.toInt) (hmax : body.validSeconds.toInt ≤ 180)
    (hn : Timestamp.floor ≤ n.toInt) (hn' : Timestamp.floor ≤ n'.toInt)
    (hahead : n.toInt ≤ n'.toInt + 10 * Timestamp.second)
    (hleft : n'.toInt < n.toInt + body.validSeconds.toInt * Timestamp.second)
    (hroom : n.toInt + body.validSeconds.toInt * Timestamp.second < 2 ^ 63) :
    Timely (.ofNanos n') body := by
  have hsecond : Timestamp.second = 1000000000 := rfl
  have hfloor : Timestamp.floor = -2 ^ 63 + (2 ^ 31 - 1) := rfl
  have hspan := TransactionBody.total_validity_eq hmin hmax
  have hspanAhead := total_maxStartAhead
  have hlt := n.toInt_lt
  rw [hsecond] at hahead hleft hroom hspan hspanAhead
  refine ⟨?_, ?_, ?_⟩
  · have hfifteen : minValidSeconds.toInt = 15 := by decide
    have hmost : maxValidSeconds.toInt = 180 := by decide
    rw [Int64.le_iff_toInt_le, Int64.le_iff_toInt_le]
    omega
  · rw [hstart, Timestamp.saturatingAdd_ofNanos hn' (by omega)]
    refine Timestamp.ofNanos_le_ofNanos ?_
    rw [toInt_saturateI64]
    omega
  · rw [TransactionBody.expiresAt, hstart, Timestamp.saturatingAdd_ofNanos hn (by omega)]
    refine Timestamp.ofNanos_lt_ofNanos ?_
    rw [toInt_saturateI64]
    omega

end Timely

/-! ## 3. Both together -/

/-- **A freshly minted identifier is in time.**  Take a process whose clock does not go back, and reads what
is between the epoch and 200 seconds before the end of the word.  Each of the first 10^10 identifiers that it
mints is for its payer, and differs from all before it.  And no transaction under it that is valid for a span
that may be accepted is refused for reasons of time by a node whose clock is behind that of the process by
fifteen seconds at the most, less one nanosecond for each identifier before, or ahead of it by less than the
validity less five seconds.

The work is in `Mint.start_bounds` for what the process hands out, and in `timely_of_bounds` for what a node
makes of it. -/
theorem minted_in_time [SignatureScheme] (calls : List (ClockReading × AccountId)) (r : ClockReading)
    (payer : AccountId)
    (hclock : (calls.map (·.1.timestamp) ++ [r.timestamp]).Pairwise (· ≤ ·))
    (hrange : ∀ now ∈ calls.map (·.1.timestamp) ++ [r.timestamp],
      0 ≤ now.exact ∧ now.exact ≤ 2 ^ 63 - 1 - 200 * Timestamp.second)
    (hcount : calls.length < 10 ^ 10) :
    ∃ id, Mint.fresh.ids (calls ++ [(r, payer)]) = Mint.fresh.ids calls ++ [id]
      ∧ id.accountId = payer
      ∧ id ∉ Mint.fresh.ids calls
      ∧ ∀ (c : Config) (l : Ledger) (t : SignedTransaction) (body : TransactionBody) (r' : ClockReading),
          t.body = .ok body → body.id = id →
          15 ≤ body.validSeconds.toInt → body.validSeconds.toInt ≤ 180 →
          r.timestamp.exact - 15 * Timestamp.second + calls.length ≤ r'.timestamp.exact →
          r'.timestamp.exact
            < r.timestamp.exact + (body.validSeconds.toInt - 5) * Timestamp.second →
          (l.submit c t r'.timestamp).1 ∉ untimely := by
  have hsecond : Timestamp.second = 1000000000 := rfl
  have hfloor : Timestamp.floor = -2 ^ 63 + (2 ^ 31 - 1) := rfl
  obtain ⟨n, hn⟩ := Timestamp.exists_timestamp_eq r
  obtain ⟨hepoch, hlimit⟩ := hrange r.timestamp (List.mem_append_right _ (List.mem_singleton_self _))
  obtain ⟨-, -, hbefore⟩ := List.pairwise_append.mp hclock
  have hcalls : ∀ call ∈ calls, 0 ≤ call.1.timestamp.exact ∧ call.1.timestamp ≤ .ofNanos n := by
    intro call hcall
    have hmem := List.mem_map_of_mem (f := fun call => call.1.timestamp) hcall
    exact ⟨(hrange _ (List.mem_append_left _ hmem)).1,
      hn ▸ hbefore _ hmem r.timestamp (List.mem_singleton_self _)⟩
  rw [hn, Timestamp.exact_ofNanos] at hepoch hlimit ⊢
  obtain ⟨hbehind, hahead, hlater⟩ := Mint.start_bounds hepoch (by omega) hcalls
  refine ⟨_, Mint.ids_concat _ _ _, rfl, ?_, ?_⟩
  · intro hmem
    have hle := Mint.exact_le_of_mem_ids hmem
    rw [hn, Timestamp.exact_ofNanos] at hle
    omega
  · intro c l t body r' hbody hid hmin hmax hslow hfast
    obtain ⟨n', hn'⟩ := Timestamp.exists_timestamp_eq r'
    rw [hn', Timestamp.exact_ofNanos] at hslow hfast
    rw [hn']
    have hstart : body.id.validStart = .ofNanos ((Mint.fresh.after calls).start (.ofNanos n)).2.last := by
      rw [hid, hn]
    rw [hsecond] at hslow hfast hbehind hahead hlimit
    refine (timely_of_bounds hstart hmin hmax ?_ ?_ ?_ ?_ ?_).submit_notMem c hbody
      <;> simp only [hsecond, hfloor] <;> omega

end Ledger

namespace Trial

/-- **The deletion under a minted identifier**, the second for a clock that stands still. -/
def mintedDeletion : TransactionBody :=
  { deletion with id := ⟨.simple 2, ⟨1000, 1⟩⟩ }

end Trial

namespace Ledger

open Trial in
set_option maxRecDepth 10000 in
/-- The second identifier by a clock that stands still is another one than the first, and in time for a node
whose clock is four seconds behind. -/
theorem minted_in_time_deletion :
    letI := scheme
    let r : ClockReading := ⟨1005, 0⟩
    let r' : ClockReading := ⟨1001, 0⟩
    let calls : List (ClockReading × AccountId) := [(r, .simple 2)]
    ((calls.map (·.1.timestamp) ++ [r.timestamp]).Pairwise (· ≤ ·)
        ∧ (∀ now ∈ calls.map (·.1.timestamp) ++ [r.timestamp],
            0 ≤ now.exact ∧ now.exact ≤ 2 ^ 63 - 1 - 200 * Timestamp.second)
        ∧ calls.length < 10 ^ 10)
      ∧ Mint.fresh.ids (calls ++ [(r, .simple 2)]) = Mint.fresh.ids calls ++ [mintedDeletion.id]
      ∧ mintedDeletion.id ∉ Mint.fresh.ids calls
      ∧ (signedBy [2, 4] mintedDeletion).body = .ok mintedDeletion
      ∧ (ledger.submit {} (signedBy [2, 4] mintedDeletion) r'.timestamp).1 ∉ untimely := by
  let := scheme
  intro r r' calls
  have hclock : (calls.map (·.1.timestamp) ++ [r.timestamp]).Pairwise (· ≤ ·) := by decide +kernel
  have hrange : ∀ now ∈ calls.map (·.1.timestamp) ++ [r.timestamp],
      0 ≤ now.exact ∧ now.exact ≤ 2 ^ 63 - 1 - 200 * Timestamp.second := by decide +kernel
  have hcount : calls.length < 10 ^ 10 := by decide
  have hminted : Mint.fresh.ids (calls ++ [(r, .simple 2)])
      = Mint.fresh.ids calls ++ [mintedDeletion.id] := by decide +kernel
  have hbody : (signedBy [2, 4] mintedDeletion).body = .ok mintedDeletion := by decide +kernel
  obtain ⟨id, hids, -, hnew, htimely⟩ := minted_in_time calls r (.simple 2) hclock hrange hcount
  obtain rfl : id = mintedDeletion.id :=
    List.singleton_inj.mp (List.append_cancel_left (hids.symm.trans hminted))
  have hstatus : (ledger.submit {} (signedBy [2, 4] mintedDeletion) r'.timestamp).1 ∉ untimely :=
    htimely {} ledger (signedBy [2, 4] mintedDeletion) mintedDeletion r' hbody rfl (by decide) (by decide)
      (by decide +kernel) (by decide +kernel)
  exact ⟨⟨hclock, hrange, hcount⟩, hminted, hnew, hbody, hstatus⟩

end Ledger

end ShardLedger
