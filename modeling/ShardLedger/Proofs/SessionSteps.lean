import ShardLedger.Proofs.SessionInvariant
/-
What the two ends do keeps them in agreement.

A call that gets the link puts the next line on the way, whole or in parts.  The node takes the lines from
the front and adds its replies at the back.  The call that waits takes replies from the front, up to its
own.  Each is an equation about the session that it leaves, and the invariant is read off that.
-/

set_option autoImplicit false

namespace ShardLedger

open Wire
open Rpc (ResponseEnvelope)

section Signing

variable [SignatureScheme]

namespace Session

/-! ## 1. Writing a line -/

section Writing

variable {c : Config} {s : Session} {asks : List Request} {taken : Nat} {unfinished : Bytes}

omit [SignatureScheme] in
/-- A link that is not writing begins a call. -/
theorem begin_eq (unfinished : Bytes) (n : Nat) (r : Request) :
    (⟨some ⟨unfinished, false⟩, lineId n⟩ : Link).begin r
      = (.ok ⟨lineId n, Rpc.methodOf r, lineOf n r ++ [0x0A]⟩,
          ⟨some ⟨unfinished, true⟩, lineId (n + 1)⟩) := by
  have hnext : lineId n + 1 = lineId (n + 1) := (UInt64.ofNat_add _ _).symm
  rw [← hnext, lineOf]
  rfl

/-- **The session once a call has the link**, with number `n` for its request. -/
def granted (s : Session) (call n : Nat) (r : Request) (unfinished : Bytes) : Session :=
  { s with
    waiting := s.waiting.erase call
    link := ⟨some ⟨unfinished, true⟩, lineId (n + 1)⟩
    holder := some ⟨call, ⟨lineId n, Rpc.methodOf r, lineOf n r ++ [0x0A]⟩, lineOf n r ++ [0x0A]⟩ }

omit [SignatureScheme] in
/-- A call that waits gets a link that no other has. -/
theorem take_of_waiting {call n : Nat} {r : Request} {unfinished : Bytes} (hholder : s.holder = none)
    (hr : s.calls[call]? = some r) (hmem : call ∈ s.waiting)
    (hlink : s.link = ⟨some ⟨unfinished, false⟩, lineId n⟩) :
    s.take call = s.granted call n r unfinished := by
  unfold take
  simp only [hholder, hr, if_pos hmem, hlink, begin_eq]
  rfl

omit [SignatureScheme] in
/-- A call gets the link, or nothing happens. -/
theorem take_cases (s : Session) (call : Nat) :
    s.take call = s
      ∨ ∃ r, s.holder = none ∧ s.calls[call]? = some r ∧ call ∈ s.waiting
          ∧ ∀ unfinished n, s.link = ⟨some ⟨unfinished, false⟩, lineId n⟩ →
              s.take call = s.granted call n r unfinished := by
  cases hholder : s.holder with
  | some holder => exact .inl (by rw [take, hholder])
  | none =>
    cases hr : s.calls[call]? with
    | none => exact .inl (by rw [take, hholder, hr])
    | some r =>
      by_cases hmem : call ∈ s.waiting
      · exact .inr ⟨r, rfl, rfl, hmem, fun _ _ => take_of_waiting hholder hr hmem⟩
      · exact .inl (by simp only [take, hholder, hr, if_neg hmem])

/-- **A call that gets the link** has the next number for its request, and its line is on the way. -/
theorem Coherent.granted (h : s.Coherent c asks taken unfinished) (hholder : s.holder = none)
    {call : Nat} {r : Request} (hr : s.calls[call]? = some r) (hmem : call ∈ s.waiting) :
    (s.granted call asks.length r unfinished).Coherent c (asks ++ [r]) taken unfinished := by
  have hidle : s.isWriting = false := by rw [isWriting, hholder, Option.any_none]
  obtain ⟨hleft, hbegun⟩ := left_begun_of_not_isWriting hidle
  have hanswered := h.answered_le
  have hnumbering := h.numbering
  have houtbound := h.outbound
  rw [hbegun] at hnumbering
  rw [hleft, List.append_nil] at houtbound
  have hempty := isEmpty_line asks.length r
  have hbegun' : (s.granted call asks.length r unfinished).begun = s.sent ++ [call] := by
    rw [begun_of_left (s := s.granted call asks.length r unfinished) rfl hempty]
    rfl
  have hwriting : (s.granted call asks.length r unfinished).isWriting = true := by
    rw [isWriting_eq (s := s.granted call asks.length r unfinished) rfl, hempty, Bool.not_false]
  refine { h with numbering := ?_, link := ?_, answered := ?_, outbound := ?_, last := ?_ }
  · rw [hbegun']
    exact hnumbering.take hmem hr
  · rw [hwriting, List.length_append]
    rfl
  -- The new line is behind all that were answered.
  · rw [linesOf_concat, List.take_append_of_le_length (by rwa [length_linesOf])]
    exact h.answered
  · change s.toNode ++ (lineOf asks.length r ++ [0x0A])
      = bytesOf ((linesOf (asks ++ [r])).drop s.answered.length)
    rw [linesOf_concat, List.drop_append_of_le_length (by rwa [length_linesOf]), bytesOf_append,
      ← houtbound, bytesOf_singleton]
  · rintro _ ⟨⟩
    refine ⟨asks.length, r, List.length_append, List.getElem?_concat_length, ?_, rfl, rfl,
      List.suffix_refl _, Nat.le_trans h.taken_le hanswered⟩
    rw [hbegun', ← hnumbering.length_begun, List.getElem?_concat_length]

/-- **A call gets the link**, or nothing happens. -/
theorem IsCoherent.take (h : s.IsCoherent c) (call : Nat) :
    (s.step c (.take call)).IsCoherent c := by
  change (s.take call).IsCoherent c
  rcases take_cases s call with heq | ⟨r, hholder, hr, hmem, heq⟩
  · rw [heq]
    exact h
  · obtain ⟨asks, taken, unfinished, h⟩ := h
    have hlink := h.link
    rw [isWriting, hholder, Option.any_none] at hlink
    rw [heq _ _ hlink]
    exact ⟨_, _, _, h.granted hholder hr hmem⟩

/-- **The session with more of a line written.** -/
def advanced (s : Session) (h : Holder) (count : Nat) : Session :=
  { s with
    toNode := s.toNode ++ h.left.take count
    holder := some { h with left := h.left.drop count } }

/-- **The session with the whole line written.** -/
def finished (s : Session) (h : Holder) (count : Nat) : Session :=
  { s.advanced h count with
    link := s.link.written
    sent := s.sent ++ [h.call] }

omit [SignatureScheme] in
/-- A part of what is left of a line is written, and with it perhaps the line. -/
theorem write_of_left {h : Holder} (hholder : s.holder = some h) (hleft : h.left.isEmpty = false)
    (count : Nat) :
    s.write count
      = if (h.left.drop count).isEmpty then s.finished h count else s.advanced h count := by
  simp only [write, hholder, hleft, Bool.false_eq_true, if_false]
  rfl

omit [SignatureScheme] in
/-- A part of a line is written, and with it perhaps the line; or nothing happens. -/
theorem write_cases (s : Session) (count : Nat) :
    s.write count = s
      ∨ ∃ h, s.holder = some h ∧ h.left.isEmpty = false
        ∧ (((h.left.drop count).isEmpty = false ∧ s.write count = s.advanced h count)
          ∨ ((h.left.drop count).isEmpty = true ∧ s.write count = s.finished h count)) := by
  cases hholder : s.holder with
  | none => exact .inl (by rw [write, hholder])
  | some h =>
    cases hleft : h.left.isEmpty with
    | true => exact .inl (by simp only [write, hholder, hleft, if_true])
    | false =>
      rw [write_of_left hholder hleft]
      refine .inr ⟨h, rfl, hleft, ?_⟩
      cases (h.left.drop count).isEmpty with
      | false => exact .inl ⟨rfl, rfl⟩
      | true => exact .inr ⟨rfl, rfl⟩

/-- What is written of a line and what is left of it are still the whole. -/
theorem Coherent.outbound_advanced (h : s.Coherent c asks taken unfinished) {holder : Holder}
    (hholder : s.holder = some holder) (count : Nat) :
    (s.advanced holder count).toNode ++ holder.left.drop count
      = bytesOf ((linesOf asks).drop s.answered.length) := by
  rw [← h.outbound, left, hholder, advanced, List.append_assoc, List.take_append_drop]

/-- The call that writes stays the last to have begun. -/
theorem Coherent.last_advanced (h : s.Coherent c asks taken unfinished) {holder : Holder}
    (hholder : s.holder = some holder) (count : Nat) :
    ∃ n r, Last s.begun asks taken { holder with left := holder.left.drop count } n r := by
  obtain ⟨n, r, hlast⟩ := h.last holder hholder
  exact ⟨n, r, { hlast with left := (List.drop_suffix _ _).trans hlast.left }⟩

/-- **More of a line is written**, and something is left of it. -/
theorem Coherent.advanced (h : s.Coherent c asks taken unfinished) {holder : Holder}
    (hholder : s.holder = some holder) {count : Nat} (hrest : (holder.left.drop count).isEmpty = false)
    (hleft : holder.left.isEmpty = false) :
    (s.advanced holder count).Coherent c asks taken unfinished := by
  have hwriting : s.isWriting = true := by rw [isWriting_eq hholder, hleft, Bool.not_false]
  have hbegun : (s.advanced holder count).begun = s.begun := by
    rw [begun_of_left hholder hleft, begun_of_left (s := s.advanced holder count) rfl hrest]
    rfl
  refine { h with
    numbering := ?_, link := ?_, outbound := h.outbound_advanced hholder count, last := ?_ }
  · rw [hbegun]
    exact h.numbering
  · rw [isWriting_eq (s := s.advanced holder count) rfl, hrest, Bool.not_false, ← hwriting]
    exact h.link
  · rintro _ ⟨⟩
    rw [hbegun]
    exact h.last_advanced hholder count

/-- **The whole line is written.**  Its call counts as sent instead of writing, so it keeps its place. -/
theorem Coherent.finished (h : s.Coherent c asks taken unfinished) {holder : Holder}
    (hholder : s.holder = some holder) {count : Nat} (hrest : (holder.left.drop count).isEmpty = true)
    (hleft : holder.left.isEmpty = false) :
    (s.finished holder count).Coherent c asks taken unfinished := by
  have hwriting : (s.finished holder count).isWriting = false := by
    rw [isWriting_eq (s := s.finished holder count) rfl, hrest, Bool.not_true]
  have hbegun : (s.finished holder count).begun = s.begun := by
    rw [begun_of_left hholder hleft]
    exact (left_begun_of_not_isWriting hwriting).2
  refine { h with
    numbering := ?_, link := ?_, outbound := h.outbound_advanced hholder count, last := ?_,
    own := ?_ }
  · rw [hbegun]
    exact h.numbering
  · rw [hwriting]
    change s.link.written = _
    rw [h.link]
    rfl
  · rintro _ ⟨⟩
    rw [hbegun]
    exact h.last_advanced hholder count
  · intro i result hi
    exact (h.own i result hi).mono (List.prefix_append _ _) (List.prefix_refl _)
      (List.prefix_refl _)

/-- **A part of a line is written**, or nothing happens. -/
theorem IsCoherent.write (h : s.IsCoherent c) (count : Nat) :
    (s.step c (.write count)).IsCoherent c := by
  change (s.write count).IsCoherent c
  rcases write_cases s count with heq | ⟨holder, hholder, hleft, ⟨hrest, heq⟩ | ⟨hrest, heq⟩⟩
  · rw [heq]
    exact h
  · obtain ⟨asks, taken, unfinished, h⟩ := h
    rw [heq]
    exact ⟨_, _, _, h.advanced hholder hrest hleft⟩
  · obtain ⟨asks, taken, unfinished, h⟩ := h
    rw [heq]
    exact ⟨_, _, _, h.finished hholder hrest hleft⟩

end Writing

/-! ## 2. Answering a line -/

section Answering

variable {c : Config} {s : Session} {asks : List Request} {taken : Nat} {unfinished : Bytes}

/-- A node answers the line of a request. -/
theorem serveLines_lineOf (c : Config) (l : Ledger) (now : Timestamp) (k : Nat) (r : Request) :
    Rpc.serveLines c now [lineOf k r] l
      = ([(Rpc.dispatch c l (Rpc.requestLine (lineId k) r) now).1], true,
          (Rpc.dispatch c l (Rpc.requestLine (lineId k) r) now).2) := by
  rw [lineOf]
  exact Rpc.serveLines_requestBytes (lineId k) r c l now

/-- **The session once the node has answered** a line for a request. -/
def replied (c : Config) (s : Session) (n : Nat) (r : Request) (now : Timestamp) (rest : Bytes) :
    Session :=
  let outcome := Rpc.dispatch c s.ledger (Rpc.requestLine (lineId n) r) now
  { s with
    toNode := rest
    toClient := s.toClient ++ bytesOf [replyLine outcome.1]
    ledger := outcome.2
    hungUp := false
    answered := s.answered ++ [⟨lineOf n r, now, s.ledger, outcome.2⟩] }

/-- **A whole line that has not been answered** is the next one. -/
theorem Coherent.next_line (h : s.Coherent c asks taken unfinished) {line rest : Bytes}
    (hline : 0x0A ∉ line) (hnode : s.toNode = line ++ 0x0A :: rest) :
    ∃ r, asks[s.answered.length]? = some r ∧ line = lineOf s.answered.length r
      ∧ rest ++ s.left = bytesOf ((linesOf asks).drop (s.answered.length + 1)) := by
  have houtbound := h.outbound
  rw [hnode, List.append_assoc, List.cons_append] at houtbound
  have hlt : s.answered.length < (linesOf asks).length := by
    by_contra hge
    rw [List.drop_of_length_le (by omega), bytesOf_nil] at houtbound
    simp at houtbound
  have hlt' : s.answered.length < asks.length := by rwa [length_linesOf] at hlt
  have hget : (linesOf asks)[s.answered.length] = lineOf s.answered.length asks[s.answered.length] :=
    List.getElem_mapIdx
  rw [List.drop_eq_getElem_cons hlt, hget, bytesOf_cons] at houtbound
  obtain ⟨rfl, hrest⟩ := eq_of_append_lineFeed hline (lineFeed_notMem_lineOf _ _) houtbound
  exact ⟨_, List.getElem?_eq_getElem hlt', rfl, hrest⟩

/-- The node answers the next line, if a whole one is on the way to it. -/
theorem Coherent.answer_eq (h : s.Coherent c asks taken unfinished) (hmem : 0x0A ∈ s.toNode)
    (now : Timestamp) :
    ∃ r rest, asks[s.answered.length]? = some r
      ∧ rest ++ s.left = bytesOf ((linesOf asks).drop (s.answered.length + 1))
      ∧ s.toNode = lineOf s.answered.length r ++ 0x0A :: rest
      ∧ s.answer c now = s.replied c s.answered.length r now rest := by
  obtain ⟨line, rest, hnode, hline⟩ := List.eq_append_cons_of_mem hmem
  obtain ⟨r, hr, rfl, hrest⟩ := h.next_line hline hnode
  refine ⟨r, rest, hr, hrest, hnode, ?_⟩
  unfold answer
  rw [h.up, hnode, cutLines_append hline]
  simp only [Bool.false_eq_true, if_false, serveLines_lineOf, bytesOf_cutLines, List.map_cons,
    List.map_nil, Bool.not_true, replied]

/-- The node answers the next line, or nothing happens. -/
theorem Coherent.answer_cases (h : s.Coherent c asks taken unfinished) (now : Timestamp) :
    s.answer c now = s
      ∨ ∃ r rest, asks[s.answered.length]? = some r
        ∧ rest ++ s.left = bytesOf ((linesOf asks).drop (s.answered.length + 1))
        ∧ s.answer c now = s.replied c s.answered.length r now rest := by
  by_cases hmem : 0x0A ∈ s.toNode
  · obtain ⟨r, rest, hr, hrest, -, heq⟩ := h.answer_eq hmem now
    exact .inr ⟨r, rest, hr, hrest, heq⟩
  · left
    rw [answer, h.up, cutLines_of_notMem hmem]
    rfl

/-- **The node has answered the next line**: its reply is behind the others. -/
theorem Coherent.replied (h : s.Coherent c asks taken unfinished) (now : Timestamp) {r : Request}
    {rest : Bytes} (hr : asks[s.answered.length]? = some r)
    (hrest : rest ++ s.left = bytesOf ((linesOf asks).drop (s.answered.length + 1))) :
    (s.replied c s.answered.length r now rest).Coherent c asks taken unfinished := by
  have houtcome := Answered.outcome_of_line c (k := s.answered.length) (r := r)
    (a := ⟨lineOf s.answered.length r, now, s.ledger,
      (Rpc.dispatch c s.ledger (Rpc.requestLine (lineId s.answered.length) r) now).2⟩) rfl
  refine { h with
    up := rfl, answered := ?_, outcome := ?_, outbound := ?_, taken_le := ?_, inbound := ?_,
    own := ?_ }
  · have hnext : (linesOf asks)[s.answered.length]? = some (lineOf s.answered.length r) := by
      rw [linesOf, List.getElem?_mapIdx, hr, Option.map_some]
    simp only [Session.replied, List.map_append, List.length_append, List.length_singleton,
      List.take_add_one, hnext, h.answered]
    rfl
  · intro a ha
    simp only [Session.replied, List.mem_append, List.mem_singleton] at ha
    rcases ha with ha | rfl
    · exact h.outcome a ha
    · rw [houtcome]
  · simp only [Session.replied, List.length_append, List.length_singleton]
    exact hrest
  · simp only [Session.replied, List.length_append]
    exact Nat.le_add_right_of_le h.taken_le
  -- The client has not taken more replies than there were, so the new one is on the way.
  · have hle : taken ≤ (s.answered.map fun a => (a.outcome c).1).length := by
      rw [List.length_map]
      exact h.taken_le
    simp only [Session.replied, List.map_append, List.map_singleton, houtcome,
      List.drop_append_of_le_length hle, bytesOf_append, ← h.inbound, List.append_assoc]
  · intro i result hi
    exact (h.own i result hi).mono (List.prefix_refl _) (List.prefix_refl _)
      (List.prefix_append _ _)

/-- **The node answers a line**, or nothing happens. -/
theorem IsCoherent.answer (h : s.IsCoherent c) (now : Timestamp) :
    (s.step c (.answer now)).IsCoherent c := by
  change (s.answer c now).IsCoherent c
  obtain ⟨asks, taken, unfinished, h⟩ := h
  rcases h.answer_cases now with heq | ⟨r, rest, hr, hrest, heq⟩
  · rw [heq]
    exact ⟨asks, taken, unfinished, h⟩
  · rw [heq]
    exact ⟨_, _, _, h.replied now hr hrest⟩

end Answering

/-! ## 3. Reading on -/

section Reading

variable {c : Config} {s : Session} {asks : List Request} {taken : Nat} {unfinished : Bytes}

/-- **The session with more of the replies read**, and the call still waiting. -/
def readTo (s : Session) (unfinished later : Bytes) : Session :=
  { s with
    link := { s.link with stream := some ⟨unfinished, false⟩ }
    toClient := later }

/-- **The session once a call has returned.** -/
def settled (s : Session) (call : Nat) (result : Except TransportError Response) (later : Bytes) :
    Session :=
  { s.readTo [] later with
    holder := none
    returned := s.returned ++ [(call, result)] }

/-- **The call that waits reads on**: it waits for more, or it returns with its own reply. -/
theorem Coherent.read_cases (h : s.Coherent c asks taken unfinished) (count : Nat) {holder : Holder}
    (hholder : s.holder = some holder) (hleft : holder.left.isEmpty = true) {n : Nat} {r : Request}
    (hlast : Last s.begun asks taken holder n r) :
    (∃ taken' unfinished', taken' ≤ n ∧ taken' ≤ s.answered.length ∧ 0x0A ∉ unfinished'
        ∧ unfinished' ++ s.toClient.drop count
          = bytesOf (((s.answered.map fun a => (a.outcome c).1).drop taken').map replyLine)
        ∧ s.read count = s.readTo unfinished' (s.toClient.drop count))
      ∨ ∃ a later, s.answered[n]? = some a
        ∧ later
          = bytesOf (((s.answered.map fun a => (a.outcome c).1).drop (n + 1)).map replyLine)
        ∧ s.read count
          = s.settled holder.call ((a.outcome c).1.response (Rpc.methodOf r)) later := by
  have hwriting : s.isWriting = false := by rw [isWriting_eq hholder, hleft, Bool.not_true]
  have hlink := h.link
  rw [hwriting] at hlink
  have hn : n + 1 < 2 ^ 64 := hlast.length ▸ h.numbering.length_lt
  have hbytes := h.inbound
  rw [← List.take_append_drop count s.toClient] at hbytes
  have hlength : taken ≤ (s.answered.map fun a => (a.outcome c).1).length := by
    rw [List.length_map]
    exact h.taken_le
  rcases readOn_replies h.inOrder hn (s.toClient.take count) hlast.taken_le hlength h.line hbytes
    with ⟨taken', unfinished', hread, hle, hle', hline, hrest⟩ | ⟨e, rest, hread, he, hrest⟩
  · rw [List.length_map] at hle'
    refine .inl ⟨taken', unfinished', hle, hle', hline, hrest, ?_⟩
    simp only [read, hholder, hleft, if_true, h.up, Bool.false_and, Link.receive, hlink, hlast.id,
      hread, List.nil_append, readTo]
  · rw [List.getElem?_map] at he
    obtain ⟨a, ha, rfl⟩ := Option.map_eq_some_iff.mp he
    refine .inr ⟨a, _, ha, hrest, ?_⟩
    simp only [read, hholder, hleft, if_true, h.up, Bool.false_and, Link.receive, hlink, hlast.id,
      hread, hlast.method, settled, readTo]

/-- Reading is for a call that waits. -/
theorem read_of_not_waiting (h : ∀ holder, s.holder = some holder → holder.left.isEmpty = false)
    (count : Nat) : s.read count = s := by
  unfold Session.read
  cases hholder : s.holder with
  | none => rfl
  | some holder =>
    simp only [h holder hholder, Bool.false_eq_true, if_false]

/-- **More of the replies is read**: some are taken, none of them the reply that the call waits
for. -/
theorem Coherent.readTo (h : s.Coherent c asks taken unfinished) {holder : Holder}
    (hholder : s.holder = some holder) (hleft : holder.left.isEmpty = true) {n : Nat} {r : Request}
    (hlast : Last s.begun asks taken holder n r) {taken' : Nat} {unfinished' later : Bytes}
    (hle : taken' ≤ n) (hle' : taken' ≤ s.answered.length) (hline : 0x0A ∉ unfinished')
    (hinbound : unfinished' ++ later
      = bytesOf (((s.answered.map fun a => (a.outcome c).1).drop taken').map replyLine)) :
    (s.readTo unfinished' later).Coherent c asks taken' unfinished' := by
  have hwriting : s.isWriting = false := by rw [isWriting_eq hholder, hleft, Bool.not_true]
  have hid : s.link.nextId = lineId asks.length := by rw [h.link]
  refine { h with
    link := ?_, taken_le := hle', inbound := hinbound, line := hline, last := ?_ }
  · change (⟨some ⟨unfinished', false⟩, s.link.nextId⟩ : Link) = ⟨some ⟨_, s.isWriting⟩, _⟩
    rw [hid, hwriting]
  · intro holder' hholder'
    obtain rfl : holder' = holder := Option.some.inj (hholder'.symm.trans hholder)
    exact ⟨n, r, { hlast with taken_le := hle }⟩

/-- **A call has returned** with what the node answered to its line, and its reply is the last that was
taken. -/
theorem Coherent.settled (h : s.Coherent c asks taken unfinished) {holder : Holder}
    (hholder : s.holder = some holder) (hleft : holder.left.isEmpty = true) {n : Nat} {r : Request}
    (hlast : Last s.begun asks taken holder n r) {a : Answered} (ha : s.answered[n]? = some a) :
    (s.settled holder.call ((a.outcome c).1.response (Rpc.methodOf r))
        (bytesOf (((s.answered.map fun a => (a.outcome c).1).drop (n + 1)).map replyLine))).Coherent
      c asks (n + 1) [] := by
  have hwriting : s.isWriting = false := by rw [isWriting_eq hholder, hleft, Bool.not_true]
  obtain ⟨hnothing, hbegun⟩ := left_begun_of_not_isWriting hwriting
  have hid : s.link.nextId = lineId asks.length := by rw [h.link]
  -- Nobody has the link any more, and all that have begun have their lines written.
  have hbegun' (result : Except TransportError Response) (later : Bytes) :
      (s.settled holder.call result later).begun = s.begun := by
    rw [hbegun]
    exact List.append_nil _
  have hn : n < s.answered.length := (List.getElem?_eq_some_iff.mp ha).1
  refine { h with
    numbering := ?_, link := ?_, outbound := ?_, taken_le := hn, inbound := rfl,
    line := List.not_mem_nil, last := nofun, own := ?_ }
  · rw [hbegun']
    exact h.numbering
  · change (⟨some ⟨[], false⟩, s.link.nextId⟩ : Link) = ⟨some ⟨[], false⟩, _⟩
    rw [hid]
  · have houtbound := h.outbound
    rwa [hnothing] at houtbound
  · intro i result hi
    rcases List.mem_append.mp hi with hi | hi
    · exact h.own i result hi
    · obtain ⟨rfl, rfl⟩ := Prod.mk.inj (List.mem_singleton.mp hi)
      obtain ⟨r', hr', hline⟩ := h.line_of_answered ha
      obtain rfl : r = r' := Option.some.inj (hlast.ask.symm.trans hr')
      have hsent := hlast.call
      rw [hbegun] at hsent
      exact ⟨n, r, a, hsent, (h.numbering.getElem?_calls hlast.call).trans hlast.ask, ha, hline, rfl⟩

/-- **The call that waits reads on.** -/
theorem IsCoherent.read (h : s.IsCoherent c) (count : Nat) :
    (s.step c (.read count)).IsCoherent c := by
  change (s.read count).IsCoherent c
  obtain ⟨asks, taken, unfinished, h⟩ := h
  by_cases hwaits : ∃ holder, s.holder = some holder ∧ holder.left.isEmpty = true
  · obtain ⟨holder, hholder, hleft⟩ := hwaits
    obtain ⟨n, r, hlast⟩ := h.last holder hholder
    rcases h.read_cases count hholder hleft hlast with
      ⟨taken', unfinished', hle, hle', hline, hinbound, heq⟩ | ⟨a, later, ha, rfl, heq⟩
    · rw [heq]
      exact ⟨_, _, _, h.readTo hholder hleft hlast hle hle' hline hinbound⟩
    · rw [heq]
      exact ⟨_, _, _, h.settled hholder hleft hlast ha⟩
  · have hsame : s.read count = s := read_of_not_waiting (fun holder hholder =>
      Bool.not_eq_true _ ▸ fun hleft => hwaits ⟨holder, hholder, hleft⟩) count
    rw [hsame]
    exact ⟨asks, taken, unfinished, h⟩

end Reading

end Session

end Signing

end ShardLedger
