import ShardLedger.Client.Caller
import ShardLedger.Proofs.Admission
import ShardLedger.Proofs.LineBytes
/-
What breaks a stream, and that it stays broken.

A link is broken if it has no stream any more, or if its stream has a half-written line.  Whoever begins a
call on a broken link is turned away before anything is written or read, and leaves it broken.

A call that begins on a link in use goes through the bytes at hand line by line.  It skips the lines that are
late for it, replies that bear the identifiers of calls before it.  The first line that is not late decides:
if it bears the identifier of the call it is its reply, and otherwise the stream makes no sense.  So the call
ends in one of four ways.  It is given up between lines, or it has found its own reply; then the link is still
in use, and what it has not gone through is still at hand.  It is given up in the middle of its line, or it
fails on the way to its reply; then the link is broken.  What the reply says has no part in it.  A call whose
own reply makes no sense fails as if the stream did, and yet the stream stays in use.
-/

set_option autoImplicit false

namespace ShardLedger

open Session (bytesOf bytesOf_nil bytesOf_cons bytesOf_append)

/-! ## 1. Broken links -/

/-- **A failure of the stream**: of the socket, by its end, or by a frame that makes no sense. -/
def TransportError.IsOfStream : TransportError → Prop
  | .io | .closed | .frame _ => True
  | .unreachable | .rpc _ _ => False

/-- **An ending that breaks the stream**: the call was given up in the middle of its line, or it returned
with a failure of the stream before it had read the reply to its own line. -/
def Ending.Breaks : Ending → Prop
  | .left => False
  | .cut => True
  | .returned result reply => reply = none ∧ ∃ e, result = .error e ∧ e.IsOfStream

/-- **How a call ends that is turned away**: the channel is closed, unless it is given up before it can be
told. -/
def Attempt.refused (a : Attempt) : Ending :=
  match a.progress with
  | none => .left
  | some _ => .returned (.error .closed) none

namespace Link

/-- **A link is broken**: what there may still be of a stream has a half-written line. -/
def IsBroken (l : Link) : Prop :=
  ∀ s ∈ l.stream, s.writing = true

/-- **A link is in use**: there is a stream, and no line is half-written. -/
def InUse (l : Link) : Prop :=
  ∃ unfinished, l.stream = some ⟨unfinished, false⟩

theorem isBroken_dropped (l : Link) : l.dropped.IsBroken :=
  nofun

/-- A link is broken or in use. -/
theorem isBroken_or_inUse (l : Link) : l.IsBroken ∨ l.InUse := by
  obtain ⟨stream, nextId⟩ := l
  rcases stream with _ | ⟨unfinished, _ | _⟩
  · exact .inl nofun
  · exact .inr ⟨unfinished, rfl⟩
  · left
    rintro _ ⟨⟩
    rfl

variable {l : Link} {request : Request}

/-- No call begins on a broken link, which stays broken. -/
theorem IsBroken.begin_eq (h : l.IsBroken) (request : Request) :
    ∃ l' : Link, l.begin request = (.error .closed, l') ∧ l'.IsBroken := by
  unfold begin
  cases hs : l.stream with
  | none => exact ⟨l, rfl, h⟩
  | some s =>
    simp only [h s hs, if_true]
    exact ⟨_, rfl, isBroken_dropped _⟩

/-- A call begins on a link in use under the next identifier, with its line half-written; nothing else is
done to the stream. -/
theorem InUse.begin_eq (h : l.InUse) (request : Request) :
    ∃ (o : Outgoing) (l' : Link), l.begin request = (.ok o, l') ∧ o.id = l.nextId
      ∧ o.method = Rpc.methodOf request ∧ l'.IsBroken ∧ l'.written.stream = l.stream := by
  obtain ⟨unfinished, hstream⟩ := h
  refine ⟨_, _, by simp only [begin, hstream, Bool.false_eq_true, if_false]; rfl, rfl, rfl, ?_, ?_⟩
  · rintro _ ⟨⟩
    rfl
  · rw [hstream]
    rfl

/-- A broken link is not in use. -/
theorem IsBroken.not_inUse (h : l.IsBroken) : ¬ l.InUse := by
  rintro ⟨unfinished, hstream⟩
  cases h _ hstream

end Link

/-! ## 2. The lines of the peer -/

/-- **A line is a reply** that bears an identifier. -/
def Bears (line : Bytes) (id : UInt64) (reply : Rpc.ResponseEnvelope) : Prop :=
  readReply line = .ok reply ∧ reply.id = .natural id

/-- **A line is late** for the call of an identifier: it is a reply that bears a lower one. -/
def IsLate (id : UInt64) (line : Bytes) : Prop :=
  ∃ old reply, Bears line old reply ∧ old < id

/-- **A call goes through** bytes up to the rest of them: whole lines that are late for it. -/
def GoesThrough (id : UInt64) (bytes rest : Bytes) : Prop :=
  ∃ late, (∀ line ∈ late, 0x0A ∉ line ∧ IsLate id line) ∧ bytes = bytesOf late ++ rest

/-- **A call finds its reply** among bytes, with the rest of them behind it: the first line that is not late
for it bears its identifier. -/
def Finds (id : UInt64) (bytes : Bytes) (reply : Rpc.ResponseEnvelope) (rest : Bytes) : Prop :=
  ∃ line, 0x0A ∉ line ∧ Bears line id reply ∧ GoesThrough id bytes (line ++ 0x0A :: rest)

/-- **A call fails before its reply**, with bytes at hand of which some are unused then: all that it has gone
through is late for it. -/
inductive Fails (id : UInt64) (closes : Bool) (bytes unused : Bytes) : TransportError → Prop where
  /-- The socket fails, when it has read a part of a line at most. -/
  | io {part : Bytes} (whole : 0x0A ∉ part) (goes : GoesThrough id bytes (part ++ unused)) :
    Fails id closes bytes unused .io
  /-- There is no further line, and the peer closes its end. -/
  | ended {part : Bytes} (last : closes = true) (whole : 0x0A ∉ part)
    (goes : GoesThrough id bytes part) : Fails id closes bytes unused .closed
  /-- The first line that is not late for it is not its reply either. -/
  | wrong {line rest : Bytes} {fault : FrameFault} (whole : 0x0A ∉ line) (early : ¬ IsLate id line)
    (other : ∀ reply, ¬ Bears line id reply) (goes : GoesThrough id bytes (line ++ 0x0A :: rest)) :
    Fails id closes bytes unused (.frame fault)

section Lines

variable {id : UInt64} {closes : Bool} {line bytes bytes' rest rest' unused : Bytes}
  {reply : Rpc.ResponseEnvelope} {e : TransportError}

theorem natural?_eq_some_iff {j : Json} {n : UInt64} : j.natural? = some n ↔ j = .natural n := by
  constructor
  · intro h
    unfold Json.natural? at h
    split at h <;> cases h
    rfl
  · rintro rfl
    rfl

/-- The verdict on a line that bears an identifier. -/
theorem Bears.judge_eq {got : UInt64} (h : Bears line got reply) (id : UInt64) :
    judge id line
      = if got = id then .current reply
        else if got < id then .stale
        else .wrong (.otherId reply.id id) := by
  obtain ⟨hread, hid⟩ := h
  simp only [judge, hread, hid, Json.natural, Json.natural?]

/-- The verdict on a line that bears no identifier. -/
theorem judge_of_not_bears (h : ∀ got reply, ¬ Bears line got reply) (id : UInt64) :
    ∃ fault, judge id line = .wrong fault := by
  unfold judge
  cases hread : readReply line with
  | error fault => exact ⟨_, rfl⟩
  | ok reply =>
    cases hid : reply.id.natural? with
    | none => exact ⟨.otherId reply.id id, by simp only [hid]⟩
    | some got => exact absurd ⟨hread, natural?_eq_some_iff.mp hid⟩ (h got reply)

/-- **A line is judged** to be the reply of a call, late for it, or of no use to it. -/
theorem judge_cases (id : UInt64) (line : Bytes) :
    (∃ reply, judge id line = .current reply ∧ Bears line id reply)
      ∨ (judge id line = .stale ∧ IsLate id line)
      ∨ ∃ fault, judge id line = .wrong fault ∧ ¬ IsLate id line ∧ ∀ reply, ¬ Bears line id reply := by
  by_cases h : ∃ got reply, Bears line got reply
  · obtain ⟨got, reply, h⟩ := h
    -- A line bears one identifier at the most.
    have hone : ∀ {got' reply'}, Bears line got' reply' → got' = got := by
      rintro got' reply' ⟨hread, hid⟩
      obtain rfl : reply' = reply := Except.ok.inj (hread.symm.trans h.1)
      have hnatural := natural?_eq_some_iff.mpr hid
      rw [natural?_eq_some_iff.mpr h.2] at hnatural
      exact (Option.some.inj hnatural).symm
    by_cases hown : got = id
    · subst hown
      exact .inl ⟨reply, by rw [h.judge_eq, if_pos rfl], h⟩
    · by_cases hlate : got < id
      · exact .inr (.inl ⟨by rw [h.judge_eq, if_neg hown, if_pos hlate], got, reply, h, hlate⟩)
      · refine .inr (.inr ⟨_, by rw [h.judge_eq, if_neg hown, if_neg hlate], ?_, fun reply' h' => ?_⟩)
        · rintro ⟨old, reply', h', hold⟩
          rw [hone h'] at hold
          exact hlate hold
        · exact hown (hone h').symm
  · have hnone : ∀ got reply, ¬ Bears line got reply := fun got reply hb => h ⟨got, reply, hb⟩
    obtain ⟨fault, hjudge⟩ := judge_of_not_bears hnone id
    refine .inr (.inr ⟨fault, hjudge, ?_, hnone id⟩)
    rintro ⟨old, reply, hb, -⟩
    exact hnone old reply hb

theorem GoesThrough.refl (id : UInt64) (bytes : Bytes) : GoesThrough id bytes bytes :=
  ⟨[], nofun, rfl⟩

theorem GoesThrough.trans (h : GoesThrough id bytes rest) (h' : GoesThrough id rest rest') :
    GoesThrough id bytes rest' := by
  obtain ⟨late, hlate, rfl⟩ := h
  obtain ⟨late', hlate', rfl⟩ := h'
  refine ⟨late ++ late', List.forall_mem_append.mpr ⟨hlate, hlate'⟩, ?_⟩
  rw [bytesOf_append, List.append_assoc]

/-- A call goes through a line that is late for it. -/
theorem goesThrough_line (hline : 0x0A ∉ line) (hlate : IsLate id line) (rest : Bytes) :
    GoesThrough id (line ++ 0x0A :: rest) rest := by
  refine ⟨[line], List.forall_mem_singleton.mpr ⟨hline, hlate⟩, ?_⟩
  rw [bytesOf_cons, bytesOf_nil, List.append_assoc]
  rfl

/-- More bytes behind are left over. -/
theorem GoesThrough.append (h : GoesThrough id bytes rest) (later : Bytes) :
    GoesThrough id (bytes ++ later) (rest ++ later) := by
  obtain ⟨late, hlate, rfl⟩ := h
  exact ⟨late, hlate, List.append_assoc _ _ _⟩

/-- What is left over are the last of the bytes. -/
theorem GoesThrough.suffix (h : GoesThrough id bytes rest) : rest <:+ bytes := by
  obtain ⟨late, -, rfl⟩ := h
  exact List.suffix_append _ _

theorem Finds.append (h : Finds id bytes reply rest) (later : Bytes) :
    Finds id (bytes ++ later) reply (rest ++ later) := by
  obtain ⟨line, hline, hbears, hgoes⟩ := h
  have hgoes' := hgoes.append later
  rw [List.append_assoc, List.cons_append] at hgoes'
  exact ⟨line, hline, hbears, hgoes'⟩

theorem Finds.suffix (h : Finds id bytes reply rest) : rest <:+ bytes := by
  obtain ⟨line, -, -, hgoes⟩ := h
  exact ((List.suffix_cons _ _).trans (List.suffix_append _ _)).trans hgoes.suffix

/-- Whoever has gone through some of the bytes before has found what it finds behind them. -/
theorem Finds.after (hgoes : GoesThrough id bytes bytes') (h : Finds id bytes' reply rest) :
    Finds id bytes reply rest := by
  obtain ⟨line, hline, hbears, hgoes'⟩ := h
  exact ⟨line, hline, hbears, hgoes.trans hgoes'⟩

theorem Fails.after (hgoes : GoesThrough id bytes bytes') (h : Fails id closes bytes' unused e) :
    Fails id closes bytes unused e := by
  cases h with
  | io whole goes => exact .io whole (hgoes.trans goes)
  | ended last whole goes => exact .ended last whole (hgoes.trans goes)
  | wrong whole early other goes => exact .wrong whole early other (hgoes.trans goes)

/-- A call that fails before its reply fails with a failure of the stream. -/
theorem Fails.isOfStream (h : Fails id closes bytes unused e) : e.IsOfStream := by
  cases h <;> trivial

end Lines

/-! ## 3. Reading -/

/-- **What reading on comes to**, said of the bytes that are read. -/
inductive Reads (id : UInt64) (ended : Bool) (bytes : Bytes) : Reading → Prop where
  /-- They leave a part of a line. -/
  | more {part : Bytes} (whole : 0x0A ∉ part) (goes : GoesThrough id bytes part) :
    Reads id ended bytes (.more part)
  /-- The reply is among them. -/
  | reply {r : Rpc.ResponseEnvelope} {rest : Bytes} (finds : Finds id bytes r rest) :
    Reads id ended bytes (.reply r rest)
  /-- They leave a part of a line, and nothing will follow. -/
  | ended {part : Bytes} (last : ended = true) (whole : 0x0A ∉ part)
    (goes : GoesThrough id bytes part) : Reads id ended bytes (.failed .closed)
  /-- They have a line that is neither late nor the reply. -/
  | wrong {line rest : Bytes} {fault : FrameFault} (whole : 0x0A ∉ line) (early : ¬ IsLate id line)
    (other : ∀ reply, ¬ Bears line id reply) (goes : GoesThrough id bytes (line ++ 0x0A :: rest)) :
    Reads id ended bytes (.failed (.frame fault))

section Reads

variable {id : UInt64} {closes ended : Bool} {bytes bytes' later unused : Bytes}

theorem Reads.after {reading : Reading} (hgoes : GoesThrough id bytes bytes')
    (h : Reads id ended bytes' reading) : Reads id ended bytes reading := by
  cases h with
  | more whole goes => exact .more whole (hgoes.trans goes)
  | reply finds => exact .reply (finds.after hgoes)
  | ended last whole goes => exact .ended last whole (hgoes.trans goes)
  | wrong whole early other goes => exact .wrong whole early other (hgoes.trans goes)

/-- A call whose reading fails has failed before its reply. -/
theorem Reads.fails {e : TransportError}
    (h : Reads id (closes && later.isEmpty) bytes (.failed e)) (unused : Bytes) :
    Fails id closes (bytes ++ later) unused e := by
  cases h with
  | ended last whole goes =>
    rw [Bool.and_eq_true, List.isEmpty_iff] at last
    obtain ⟨hcloses, rfl⟩ := last
    rw [List.append_nil]
    exact .ended hcloses whole goes
  | wrong whole early other goes =>
    have hgoes := goes.append later
    rw [List.append_assoc, List.cons_append] at hgoes
    exact .wrong whole early other hgoes

/-- **Reading on** goes through the lines that are late, and stops at the first one that is not.  The
induction is on the bytes that have arrived. -/
theorem reads_readOn {unfinished : Bytes} (h : 0x0A ∉ unfinished) (arrived : Bytes) :
    Reads id ended (unfinished ++ arrived) (readOn id ended unfinished arrived) := by
  induction arrived generalizing unfinished with
  | nil =>
    rw [readOn, List.append_nil]
    by_cases hended : ended = true
    · rw [if_pos hended]
      exact .ended hended h (.refl _ _)
    · rw [if_neg hended]
      exact .more h (.refl _ _)
  | cons b bs ih =>
    rw [readOn]
    by_cases hb : b = 0x0A
    · rw [if_pos hb, hb]
      -- A whole line: late, the reply, or of no use.
      rcases judge_cases id unfinished with
        ⟨reply, hjudge, hbears⟩ | ⟨hjudge, hlate⟩ | ⟨fault, hjudge, hearly, hother⟩
      · rw [hjudge]
        exact .reply ⟨unfinished, h, hbears, .refl _ _⟩
      · rw [hjudge]
        exact (ih List.not_mem_nil).after (goesThrough_line h hlate bs)
      · rw [hjudge]
        exact .wrong h hearly hother (.refl _ _)
    · rw [if_neg hb]
      have hpart : 0x0A ∉ unfinished ++ [b] := by
        rw [List.mem_append, List.mem_singleton, not_or]
        exact ⟨h, Ne.symm hb⟩
      have hread := ih hpart
      rwa [List.append_assoc] at hread

end Reads

/-! ## 4. One call -/

namespace Caller

/-- **The bytes at hand**: those that were read of a line, and those that were not used yet. -/
def atHand (s : Caller) : Bytes :=
  (match s.link.stream with
    | none => []
    | some stream => stream.unfinished) ++ s.unused

/-- **A caller is ready** for a call: its stream is in use, and what was read of a line is no whole one. -/
def Ready (s : Caller) : Prop :=
  ∃ unfinished, s.link.stream = some ⟨unfinished, false⟩ ∧ 0x0A ∉ unfinished

theorem Ready.inUse {s : Caller} (h : s.Ready) : s.link.InUse := by
  obtain ⟨unfinished, hstream, -⟩ := h
  exact ⟨unfinished, hstream⟩

variable [SignatureScheme]

/-- **How a call ends that has begun** under an identifier, for a method, with bytes at hand on a stream
that the peer closes or not; and what it leaves. -/
inductive Concluded (id : UInt64) (method : Rpc.Method) (closes : Bool) (bytes : Bytes) :
    Ending → Caller → Prop where
  /-- It was given up between lines. -/
  | left {s : Caller} (ready : s.Ready) (goes : GoesThrough id bytes s.atHand) :
    Concluded id method closes bytes .left s
  /-- It was given up in the middle of its line. -/
  | cut {s : Caller} (broken : s.link.IsBroken) : Concluded id method closes bytes .cut s
  /-- It has read its reply. -/
  | replied {s : Caller} (reply : Rpc.ResponseEnvelope) (ready : s.Ready)
    (finds : Finds id bytes reply s.atHand) :
    Concluded id method closes bytes (.returned (reply.response method) (some reply)) s
  /-- It has failed before. -/
  | failed {s : Caller} {e : TransportError} (broken : s.link.IsBroken)
    (fails : Fails id closes bytes s.unused e) :
    Concluded id method closes bytes (.returned (.error e) none) s

section Attempt

variable {s s' : Caller} {a : Attempt} {id : UInt64} {method : Rpc.Method} {closes : Bool}
  {bytes bytes' : Bytes} {ending : Ending}

theorem Concluded.after (hgoes : GoesThrough id bytes bytes')
    (h : Concluded id method closes bytes' ending s) : Concluded id method closes bytes ending s := by
  cases h with
  | left ready goes => exact .left ready (hgoes.trans goes)
  | cut broken => exact .cut broken
  | replied reply ready finds => exact .replied reply ready (finds.after hgoes)
  | failed broken fails => exact .failed broken (fails.after hgoes)

/-- **A call that reads on** finds its reply, or fails, or is given up.  The induction is on the portions
that arrive. -/
theorem concluded_read (o : Outgoing) (portions : List Nat) (fails : Bool) (h : s.Ready) :
    Concluded o.id o.method s.closes s.atHand (read o portions fails s).1
      (read o portions fails s).2 := by
  induction portions generalizing s with
  | nil =>
    -- Nothing more arrives: the call is given up, or the socket fails.
    cases fails with
    | false => exact .left h (.refl _ _)
    | true =>
      obtain ⟨unfinished, hstream, hpart⟩ := h
      have hhand : s.atHand = unfinished ++ s.unused := by rw [atHand, hstream]
      rw [hhand]
      exact .failed s.link.isBroken_dropped (.io hpart (.refl _ _))
  | cons n portions ih =>
    obtain ⟨unfinished, hstream, hpart⟩ := h
    have hhand : s.atHand = unfinished ++ s.unused.take n ++ s.unused.drop n := by
      rw [atHand, hstream, List.append_assoc, List.take_append_drop]
    have hread : Reads o.id (s.closes && (s.unused.drop n).isEmpty) (unfinished ++ s.unused.take n)
        (readOn o.id (s.closes && (s.unused.drop n).isEmpty) unfinished (s.unused.take n)) :=
      reads_readOn hpart _
    simp only [read, Link.receive, Link.reply?, hstream, hhand]
    cases hreading : readOn o.id (s.closes && (s.unused.drop n).isEmpty) unfinished (s.unused.take n)
      with
    | more part =>
      rw [hreading] at hread
      cases hread with
      | more whole goes =>
        -- The call reads on with what is left of this portion.
        let s₁ : Caller :=
          { s with link := { s.link with stream := some ⟨part, false⟩ }, unused := s.unused.drop n }
        have hready : s₁.Ready := ⟨part, rfl, whole⟩
        exact (ih hready).after (goes.append _)
    | reply r rest =>
      rw [hreading] at hread
      cases hread with
      | reply finds => exact .replied r ⟨[], rfl, List.not_mem_nil⟩ (finds.append _)
    | failed e =>
      rw [hreading] at hread
      exact .failed s.link.isBroken_dropped (hread.fails _)

/-- **A call on a broken link** is turned away, and uses no bytes. -/
theorem attempt_of_isBroken (h : s.link.IsBroken) (a : Attempt) :
    (s.attempt a).1 = a.refused ∧ (s.attempt a).2.unused = s.unused
      ∧ (s.attempt a).2.link.IsBroken := by
  obtain ⟨request, progress⟩ := a
  cases progress with
  | none => exact ⟨rfl, rfl, h⟩
  | some progress =>
    obtain ⟨l', hbegin, hbroken⟩ := h.begin_eq request
    simp only [attempt, hbegin, Attempt.refused, true_and]
    exact hbroken

/-- **A call on a link in use** that gets it ends as one that has begun under the next identifier. -/
theorem concluded_attempt (h : s.Ready) (request : Request) (progress : Progress) :
    Concluded s.link.nextId (Rpc.methodOf request) s.closes s.atHand
      (s.attempt ⟨request, some progress⟩).1 (s.attempt ⟨request, some progress⟩).2 := by
  obtain ⟨o, l', hbegin, hid, hmethod, hbroken, hwritten⟩ := h.inUse.begin_eq request
  simp only [attempt, hbegin]
  rw [← hid, ← hmethod]
  cases progress with
  | cutOff => exact .cut hbroken
  | unwritten =>
    obtain ⟨unfinished, hstream, hpart⟩ := h
    have hhand : s.atHand = unfinished ++ s.unused := by rw [atHand, hstream]
    rw [hhand]
    exact .failed l'.isBroken_dropped (.io hpart (.refl _ _))
  | written portions fails =>
    let s₁ : Caller := { s with link := l'.written }
    have hready : s₁.Ready := by
      obtain ⟨unfinished, hstream, hpart⟩ := h
      exact ⟨unfinished, hwritten.trans hstream, hpart⟩
    have hhand : s₁.atHand = s.atHand := by
      unfold atHand
      rw [hwritten]
    rw [← hhand]
    exact concluded_read o portions fails hready

end Attempt

/-! ## 5. All later calls -/

/-- **The stream is shut**: every later call is turned away, and none uses any further bytes. -/
def IsShut (s : Caller) : Prop :=
  ∀ later, s.endings later = later.map Attempt.refused ∧ (s.run later).unused = s.unused

/-- **A broken stream is shut.**  The induction is on the later calls, each of which leaves it broken. -/
theorem isShut_of_isBroken {s : Caller} (h : s.link.IsBroken) : s.IsShut := by
  intro later
  induction later generalizing s with
  | nil => exact ⟨rfl, rfl⟩
  | cons a later ih =>
    obtain ⟨hending, hunused, hbroken⟩ := attempt_of_isBroken h a
    obtain ⟨hendings, hrest⟩ := ih hbroken
    constructor
    · rw [endings, List.map_cons, hending, hendings]
    · rw [run, List.foldl_cons, ← run, hrest, hunused]

/-- **A caller is on course** through what the peer has sent: as long as its stream is in use, it is ready,
and the bytes at hand are the last of those. -/
def OnCourse (sent : Bytes) (s : Caller) : Prop :=
  s.link.InUse → s.Ready ∧ s.atHand <:+ sent

section Course

variable {s : Caller} {sent : Bytes}

omit [SignatureScheme] in
/-- A new caller is on course. -/
theorem onCourse_start (sent : Bytes) (closes : Bool) : OnCourse sent (start sent closes) :=
  fun _ => ⟨⟨[], rfl, List.not_mem_nil⟩, List.suffix_refl _⟩

/-- **Every call keeps the caller on course.** -/
theorem OnCourse.attempt (h : OnCourse sent s) (a : Attempt) : OnCourse sent (s.attempt a).2 := by
  intro hinUse
  obtain ⟨request, progress⟩ := a
  cases progress with
  | none => exact h hinUse
  | some progress =>
    rcases s.link.isBroken_or_inUse with hbroken | hinUse₀
    · obtain ⟨-, -, hbroken'⟩ := attempt_of_isBroken hbroken ⟨request, some progress⟩
      exact absurd hinUse hbroken'.not_inUse
    · obtain ⟨hready, hsuffix⟩ := h hinUse₀
      have hconcluded := concluded_attempt hready request progress
      generalize s.attempt ⟨request, some progress⟩ = outcome at hconcluded hinUse ⊢
      obtain ⟨ending, s'⟩ := outcome
      cases hconcluded with
      | left ready goes => exact ⟨ready, goes.suffix.trans hsuffix⟩
      | replied reply ready finds => exact ⟨ready, finds.suffix.trans hsuffix⟩
      | cut broken => exact absurd hinUse broken.not_inUse
      | failed broken fails => exact absurd hinUse broken.not_inUse

/-- **Calls keep the caller on course.**  The induction is on the calls. -/
theorem OnCourse.run (h : OnCourse sent s) (calls : List Attempt) : OnCourse sent (s.run calls) := by
  induction calls generalizing s with
  | nil => exact h
  | cons a calls ih => exact ih (h.attempt a)

end Course

/-- **A broken stream stays broken.**  Whatever the peer sends, and whatever calls there were before:

* as long as the stream is in use, the bytes at hand are the last of those that the peer sends;
* once a call was given up in the middle of its line, or has returned with a failure of the stream before it
  had read the reply to its own line, every later call is turned away and uses no further bytes;
* every other return is what the call's own reply says, which is the first line at hand that is not late for
  it and bears its identifier; the stream stays in use, just behind that reply;
* a call that is given up between lines does not change whether the stream is in use, and has gone through
  nothing but lines that are late for it;
* nor has a call that fails without a reply on a stream in use, and what stops it is the socket, the end of
  the stream, or a line that is neither late nor its reply.

The work is in `concluded_read`, which follows a call through the portions that arrive. -/
theorem broken_stream_stays_broken (sent : Bytes) (closes : Bool) (earlier : List Attempt) (a : Attempt) :
    let s := (start sent closes).run earlier
    let ending := (s.attempt a).1
    let s' := (s.attempt a).2
    (s.link.InUse → s.atHand <:+ sent)
      ∧ (ending.Breaks → s'.IsShut)
      ∧ (¬ ending.Breaks → ending ≠ .left →
          ∃ reply, ending = .returned (reply.response (Rpc.methodOf a.request)) (some reply)
            ∧ Finds s.link.nextId s.atHand reply s'.atHand ∧ s'.link.InUse)
      ∧ (ending = .left → (s'.link.InUse ↔ s.link.InUse)
          ∧ GoesThrough s.link.nextId s.atHand s'.atHand)
      ∧ (s.link.InUse → ∀ e, ending = .returned (.error e) none →
          Fails s.link.nextId s.closes s.atHand s'.unused e) := by
  intro s ending s'
  have hcourse : OnCourse sent s := (onCourse_start sent closes).run earlier
  obtain ⟨request, progress⟩ := a
  refine ⟨fun hinUse => (hcourse hinUse).2, ?_⟩
  cases progress with
  | none =>
    -- It is given up while it waits for the link, when nothing is done.
    exact ⟨False.elim, fun _ hne => absurd rfl hne, fun _ => ⟨Iff.rfl, .refl _ _⟩,
      fun _ _ (h : Ending.left = _) => nomatch h⟩
  | some progress =>
    rcases s.link.isBroken_or_inUse with hbroken | hinUse
    · -- The call is turned away.
      obtain ⟨hending, -, hbroken'⟩ := attempt_of_isBroken hbroken ⟨request, some progress⟩
      have hrefused : ending = .returned (.error .closed) none := hending
      rw [hrefused]
      refine ⟨fun _ => isShut_of_isBroken hbroken', fun h => ?_, nofun, fun hinUse => ?_⟩
      · exact absurd ⟨rfl, .closed, rfl, trivial⟩ h
      · exact absurd hinUse hbroken.not_inUse
    · -- The call has begun: what it comes to is all that counts from here on.
      have hconcluded := concluded_attempt (hcourse hinUse).1 request progress
      change Concluded _ _ _ _ ending s' at hconcluded
      generalize ending = ending, s' = s' at hconcluded ⊢
      cases hconcluded with
      | left ready goes =>
        exact ⟨False.elim, fun _ hne => absurd rfl hne,
          fun _ => ⟨iff_of_true ready.inUse hinUse, goes⟩, fun _ _ => nofun⟩
      | cut broken =>
        exact ⟨fun _ => isShut_of_isBroken broken, fun h => absurd trivial h, nofun, fun _ _ => nofun⟩
      | replied reply ready finds =>
        refine ⟨fun h => ?_, fun _ _ => ⟨reply, rfl, finds, ready.inUse⟩, nofun, fun _ _ h => ?_⟩
        · exact absurd h.1 (Option.some_ne_none reply)
        · exact absurd (Ending.returned.inj h).2 (Option.some_ne_none reply)
      | failed broken fails =>
        refine ⟨fun _ => isShut_of_isBroken broken, fun h => ?_, nofun, fun _ e he => ?_⟩
        · exact absurd ⟨rfl, _, rfl, fails.isOfStream⟩ h
        · cases he
          exact fails

end Caller

/-! ## 6. A reply without an outcome -/

namespace Trial

/-- **A call for trials**, whose line is written. -/
def submission : Attempt where
  request := .transaction ⟨[], []⟩
  progress := some (.written [25, 400] false)

/-- **A reply without an outcome**, to the call of an identifier of one digit. -/
def wordless (id : Char) : Bytes :=
  Bytes.ofText ("\x7b\"jsonrpc\":\"2.0\",\"id\":" ++ String.singleton id ++ "\x7d\n")

/-- **A reply that accepts a transaction**, to the second call. -/
def acceptance : Bytes :=
  Bytes.ofText "\x7b\"jsonrpc\":\"2.0\",\"id\":2,\"result\":\x7b\"precheck\":0\x7d\x7d\n"

end Trial

namespace Caller

open Trial in
/-- A reply under the identifier of no call breaks the stream: what follows it stays unread.  The call's own
reply does not, though it has no outcome: the stream stays in use, just behind it. -/
theorem broken_stream_stays_broken_wordless :
    letI := scheme
    let s := start (wordless '7' ++ acceptance) false
    let t := start (wordless '1' ++ acceptance) false
    ((s.attempt submission).1.Breaks ∧ (s.attempt submission).2.unused = acceptance
        ∧ (s.attempt submission).2.IsShut)
      ∧ ¬ (t.attempt submission).1.Breaks ∧ (t.attempt submission).1 ≠ .left
        ∧ ∃ reply, (t.attempt submission).1 = .returned (.error (.frame .noOutcome)) (some reply)
          ∧ Finds 1 (wordless '1' ++ acceptance) reply acceptance
          ∧ (t.attempt submission).2.link.InUse := by
  let := scheme
  intro s t
  have hbreaks : (s.attempt submission).1.Breaks := ⟨rfl, _, rfl, trivial⟩
  have hreturned : ∃ reply,
      (t.attempt submission).1 = .returned (.error (.frame .noOutcome)) (some reply) := ⟨_, rfl⟩
  obtain ⟨reply, hreturned⟩ := hreturned
  have hnot : ¬ (t.attempt submission).1.Breaks := by
    rw [hreturned]
    exact fun h => absurd h.1 (Option.some_ne_none _)
  have hleft : (t.attempt submission).1 ≠ .left := by
    rw [hreturned]
    nofun
  obtain ⟨-, hshut, -, -, -⟩ :=
    broken_stream_stays_broken (wordless '7' ++ acceptance) false [] submission
  obtain ⟨-, -, hreply, -, -⟩ :=
    broken_stream_stays_broken (wordless '1' ++ acceptance) false [] submission
  obtain ⟨reply', heq, hfinds, hinUse⟩ := hreply hnot hleft
  have hhand : (t.attempt submission).2.atHand = acceptance := by decide +kernel
  refine ⟨⟨hbreaks, by decide +kernel, hshut hbreaks⟩, hnot, hleft, reply, hreturned, ?_, hinUse⟩
  obtain rfl : reply' = reply := by
    have hsame := heq.symm.trans hreturned
    exact Option.some.inj (Ending.returned.inj hsame).2
  change Finds 1 _ _ (t.attempt submission).2.atHand at hfinds
  rwa [hhand] at hfinds

open Trial in
/-- **A failure may leave the stream in use**: the reply to the first call has no outcome, so that the call
fails for a frame that makes no sense, and yet the second call reads on and has its transaction accepted. -/
theorem wordless_reply_leaves_in_use :
    letI := scheme
    ∃ first second,
      (start (wordless '1' ++ acceptance) false).endings [submission, submission]
        = [.returned (.error (.frame .noOutcome)) (some first),
            .returned (.ok (.transaction .ok)) (some second)] := by
  exact ⟨_, _, rfl⟩

end Caller

end ShardLedger
