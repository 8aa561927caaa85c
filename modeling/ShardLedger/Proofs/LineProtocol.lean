import ShardLedger.Proofs.Admission
import ShardLedger.Proofs.LineAnswers
import ShardLedger.Proofs.LineBytes
/-
The line protocol of a node.

A stream is answered line by line: every line that is not blank gets the reply that it deserves, from the
ledger that the lines before it have left, and every reply is one line again.  A carriage return at the end
of a line is no part of it; the node does not take it off, but it is a blank wherever it could be read.

The lines of a text are cut at its line feeds.  The node cuts bytes, long before it looks for characters.
That comes to the same, because the byte of a line feed is part of no other character.
-/

set_option autoImplicit false

namespace ShardLedger

namespace Rpc

/-! ## 1. The lines of a text -/

/-- **A line without its carriage return**, if it ends with one. -/
def unreturned (line : List Char) : List Char :=
  if line.getLast? = some '\r' then line.dropLast else line

/-- **The lines of a text.**  Each ends with a line feed, and what stands behind the last line feed is a
line if there is anything. -/
def textLines (cs : List Char) : List (List Char) :=
  (cs.splitOn '\n').dropLast.map unreturned
    ++ (cs.splitOn '\n').getLast?.toList.filter fun line => !line.isEmpty

section Texts

variable {line : List Char}

/-- No character of a line is a line feed. -/
theorem beq_lineFeed (h : '\n' ∉ line) : ∀ c ∈ line, (c == '\n') = false := by
  intro c hc
  rw [beq_eq_false_iff_ne]
  rintro rfl
  exact h hc

/-- A text without line feeds is one line, if there is anything. -/
theorem textLines_of_notMem (h : '\n' ∉ line) :
    textLines line = if line.isEmpty then [] else [line] := by
  rw [textLines, List.splitOn_eq_splitOnP, List.splitOnP_eq_singleton (beq_lineFeed h)]
  cases line <;> rfl

/-- The first line of a text, and the lines behind it. -/
theorem textLines_append (h : '\n' ∉ line) (cs : List Char) :
    textLines (line ++ '\n' :: cs) = unreturned line :: textLines cs := by
  have hsplit : (line ++ '\n' :: cs).splitOn '\n' = line :: cs.splitOn '\n' := by
    rw [List.splitOn_eq_splitOnP, List.splitOn_eq_splitOnP]
    exact List.splitOnP_append_cons_of_forall_mem (beq_lineFeed h) '\n' rfl cs
  have hne : cs.splitOn '\n' ≠ [] := by
    rw [List.splitOn_eq_splitOnP]
    exact List.splitOnP_ne_nil _ _
  obtain ⟨piece, pieces, hpieces⟩ := List.exists_cons_of_ne_nil hne
  rw [textLines, textLines, hsplit, hpieces, List.dropLast_cons_of_ne_nil (List.cons_ne_nil _ _),
    List.getLast?_cons_cons, List.map_cons, List.cons_append]

end Texts

/-! ## 2. The lines of a stream -/

section Streams

variable {line : Bytes}

/-- A stream without line feeds is one line, if there is anything. -/
theorem lines_of_notMem (h : 0x0A ∉ line) : lines line = if line.isEmpty then [] else [line] := by
  rw [lines, Session.cutLines_of_notMem h]
  rfl

/-- The first line of a stream, and the lines behind it. -/
theorem lines_append (h : 0x0A ∉ line) (rest : Bytes) :
    lines (line ++ 0x0A :: rest) = line :: lines rest := by
  rw [lines, Session.cutLines_append h]
  rfl

/-- **Whole lines are cut** where they were put together. -/
theorem cutLines_bytesOf {written : List Bytes} (h : ∀ line ∈ written, 0x0A ∉ line) :
    cutLines (Session.bytesOf written) = (written, []) := by
  induction written with
  | nil => rfl
  | cons line written ih =>
    obtain ⟨hline, hwritten⟩ := List.forall_mem_cons.mp h
    rw [Session.bytesOf_cons, Session.cutLines_append hline, ih hwritten]

/-- **A line of characters** as bytes. -/
def lineBytes (line : List Char) : Bytes :=
  Bytes.ofText (String.ofList line)

theorem lineFeed_notMem_lineBytes {line : List Char} (h : '\n' ∉ line) : 0x0A ∉ lineBytes line :=
  Bytes.lineFeed_notMem_ofText (by rwa [String.toList_ofList])

theorem isEmpty_lineBytes (line : List Char) : (lineBytes line).isEmpty = line.isEmpty := by
  rw [lineBytes, Bytes.ofText_ofList]
  cases line with
  | nil => rfl
  | cons c cs =>
    rw [List.flatMap_cons]
    cases hseq : String.utf8EncodeChar c with
    | nil => exact absurd hseq String.utf8EncodeChar_ne_nil
    | cons b bs => rfl

theorem lineBytes_append (line cs : List Char) :
    lineBytes (line ++ '\n' :: cs) = lineBytes line ++ 0x0A :: lineBytes cs := by
  simp only [lineBytes, Bytes.ofText_ofList, List.flatMap_append, List.flatMap_cons]
  rfl

end Streams

/-! ## 3. One line after the other -/

section Serving

variable [SignatureScheme]

/-- **Answer the lines of a stream** by a clock: each at the time that it shows then. -/
def serveTimed (c : Config) :
    (Nat → Timestamp) → List Bytes → Ledger → List ResponseEnvelope × Bool × Ledger
  | _, [], l => ([], true, l)
  | clock, line :: rest, l =>
    match serveLines c (clock 0) [line] l with
    | (replies, false, l) => (replies, false, l)
    | (replies, true, l) =>
      let (later, served, l) := serveTimed c (fun n => clock (n + 1)) rest l
      (replies ++ later, served, l)

/-- By a clock that stands still, lines are answered as they are at one time. -/
theorem serveTimed_const (c : Config) (now : Timestamp) (lines : List Bytes) (l : Ledger) :
    serveTimed c (fun _ => now) lines l = serveLines c now lines l := by
  induction lines generalizing l with
  | nil => rfl
  | cons line lines ih =>
    cases htext : Bytes.toText? line with
    | none => simp only [serveTimed, serveLines, htext]
    | some s =>
      cases hblank : Text.isBlankText s.toList <;>
        simp only [serveTimed, serveLines, htext, hblank, ih, if_true, Bool.false_eq_true, if_false,
          List.nil_append, List.cons_append]

/-- **Lines are answered one after the other**, each at its time and from the ledger that the one before
has left.  Lines of blanks are passed over. -/
inductive Answers (c : Config) :
    (Nat → Timestamp) → List (List Char) → Ledger → List ResponseEnvelope → Ledger → Prop
  | done {clock : Nat → Timestamp} {l : Ledger} : Answers c clock [] l [] l
  | pass {clock : Nat → Timestamp} {line : List Char} {lines : List (List Char)} {l l' : Ledger}
    {replies : List ResponseEnvelope} (blank : Text.isBlankText line = true)
    (later : Answers c (fun n => clock (n + 1)) lines l replies l') :
    Answers c clock (line :: lines) l replies l'
  | answer {clock : Nat → Timestamp} {line : List Char} {lines : List (List Char)} {l l' : Ledger}
    {replies : List ResponseEnvelope} (asking : Text.isBlankText line = false)
    (later : Answers c (fun n => clock (n + 1)) lines (dispatch c l line (clock 0)).2 replies l') :
    Answers c clock (line :: lines) l ((dispatch c l line (clock 0)).1 :: replies) l'

section Answers

variable {c : Config} {clock : Nat → Timestamp} {line : List Char} {lines : List (List Char)}
  {l l' : Ledger} {replies : List ResponseEnvelope}

/-- There is one reply for each line that is not blank. -/
theorem Answers.length_eq (h : Answers c clock lines l replies l') :
    replies.length = lines.countP fun line => !Text.isBlankText line := by
  induction h with
  | done => rfl
  | pass blank _ ih => rw [List.countP_cons_of_neg (by simp [blank]), ih]
  | answer asking _ ih => rw [List.countP_cons_of_pos (by simp [asking]), List.length_cons, ih]

/-- A carriage return at the end of a line changes nothing. -/
theorem dispatch_unreturned (c : Config) (l : Ledger) (line : List Char) (now : Timestamp) :
    dispatch c l (unreturned line) now = dispatch c l line now := by
  unfold unreturned
  split
  · rename_i hlast
    have hconcat : line.dropLast ++ ['\r'] = line := List.dropLast_append_getLast? _ hlast
    rw [dispatch, dispatch, ← Json.ofChars?_concat (c := '\r') rfl, hconcat]
  · rfl

omit [SignatureScheme] in
theorem isBlankText_unreturned (line : List Char) :
    Text.isBlankText (unreturned line) = Text.isBlankText line := by
  unfold unreturned
  split
  · rename_i hlast
    have hconcat : line.dropLast ++ ['\r'] = line := List.dropLast_append_getLast? _ hlast
    conv_rhs => rw [← hconcat]
    simp [Text.isBlankText, Text.isBlank]
  · rfl

/-- **The node's next line** is answered as the next line of the text, if the two have the same answer. -/
theorem serveTimed_cons {line' : List Char} {rest : List Bytes}
    (hblank : Text.isBlankText line' = Text.isBlankText line)
    (hdispatch : ∀ l now, dispatch c l line' now = dispatch c l line now)
    (later : ∀ l, ∃ replies l', serveTimed c (fun n => clock (n + 1)) rest l = (replies, true, l')
      ∧ Answers c (fun n => clock (n + 1)) lines l replies l') :
    ∃ replies l', serveTimed c clock (lineBytes line :: rest) l = (replies, true, l')
      ∧ Answers c clock (line' :: lines) l replies l' := by
  have htext : Bytes.toText? (lineBytes line) = some (String.ofList line) := Bytes.toText?_ofText _
  cases h : Text.isBlankText line with
  | true =>
    obtain ⟨replies, l', hserve, hanswers⟩ := later l
    refine ⟨replies, l', ?_, .pass (hblank.trans h) hanswers⟩
    simp only [serveTimed, serveLines, htext, String.toList_ofList, h, if_true, hserve,
      List.nil_append]
  | false =>
    obtain ⟨replies, l', hserve, hanswers⟩ := later (dispatch c l line (clock 0)).2
    rw [← hdispatch] at hanswers
    refine ⟨_, l', ?_, .answer (hblank.trans h) hanswers⟩
    simp only [serveTimed, serveLines, htext, String.toList_ofList, h, Bool.false_eq_true, if_false,
      hserve, hdispatch, List.cons_append, List.nil_append]

/-- **A text is answered line by line.**  The induction is on its length, one line at a time. -/
theorem serveTimed_text (c : Config) (clock : Nat → Timestamp) (l : Ledger) (cs : List Char) :
    ∃ replies l', serveTimed c clock (Rpc.lines (lineBytes cs)) l = (replies, true, l')
      ∧ Answers c clock (textLines cs) l replies l' := by
  induction hn : cs.length using Nat.strongRecOn generalizing cs clock l with
  | ind n ih =>
    subst hn
    by_cases hfeed : '\n' ∈ cs
    -- The node's first line still has its carriage return, which makes no difference to the answer.
    · obtain ⟨line, rest, rfl, hline⟩ := List.eq_append_cons_of_mem hfeed
      rw [lineBytes_append, lines_append (lineFeed_notMem_lineBytes hline), textLines_append hline]
      refine serveTimed_cons (isBlankText_unreturned line) (dispatch_unreturned c · line ·) fun l => ?_
      exact ih rest.length (by simp only [List.length_append, List.length_cons]; omega) _ l rest rfl
    · rw [lines_of_notMem (lineFeed_notMem_lineBytes hfeed), textLines_of_notMem hfeed,
        isEmpty_lineBytes]
      have hend : ∀ clock l, ∃ replies l', serveTimed c clock [] l = (replies, true, l')
          ∧ Answers c clock [] l replies l' := fun clock l => ⟨[], l, rfl, .done⟩
      split
      · exact hend clock l
      · exact serveTimed_cons rfl (fun _ _ => rfl) (hend _)

end Answers

/-! ## 4. The protocol -/

/-- **The line protocol.**  A line gets the reply that it deserves, in any state of the ledger; what it
deserves is a matter of the value that it spells and of its members, of which the last of each name counts.
A stream of text gets one reply for each of its lines that is not blank, in order, each to its line and from
the ledger that the lines before it have left; and what is written are whole lines, one for each reply.
This is so by any clock, of which one that stands still is a case.

The work is in `dispatch_cases`, for which a line spells a value or does not; streams are by induction on
their lines in `serveTimed_text`. -/
theorem line_protocol (c : Config) :
    (∀ (l : Ledger) (line : List Char) (now : Timestamp),
        IsReplyTo c l line now (dispatch c l line now).1 (dispatch c l line now).2)
      ∧ (∀ (line : List Char) (v : Json.Raw) (j : Json), Json.Grammar.Text v line → Json.Says line j →
        ∀ name, j.get? name = (v.last? name).bind (Json.Raw.toJson? 126))
      ∧ (∀ (clock : Nat → Timestamp) (l : Ledger) (text : String),
        ∃ replies l', serveTimed c clock (lines (Bytes.ofText text)) l = (replies, true, l')
          ∧ Answers c clock (textLines text.toList) l replies l'
          ∧ replies.length = (textLines text.toList).countP (fun line => !Text.isBlankText line)
          ∧ cutLines (Session.bytesOf (replies.map Session.replyLine))
            = (replies.map Session.replyLine, []))
      ∧ ∀ (l : Ledger) (stream : Bytes) (now : Timestamp),
        serve c l stream now = serveTimed c (fun _ => now) (lines stream) l := by
  refine ⟨isReplyTo_dispatch c, fun line v j htext hsays => hsays.get?_eq htext,
    fun clock l text => ?_, fun l stream now => ?_⟩
  · obtain ⟨replies, l', hserve, hanswers⟩ := serveTimed_text c clock l text.toList
    rw [lineBytes, String.ofList_toList] at hserve
    refine ⟨replies, l', hserve, hanswers, hanswers.length_eq, cutLines_bytesOf ?_⟩
    exact List.forall_mem_map.mpr fun e _ => lineFeed_notMem_replyLine e
  · exact (serveTimed_const c now (lines stream) l).symm

end Serving

/-- **A line with two identifiers**, and nothing else. -/
def repeatedId : List Char :=
  ['\x7b', '"', 'i', 'd', '"', ':', '1', ',', '"', 'i', 'd', '"', ':', '7', '\x7d']

/-- **What it spells.** -/
def repeatedIdText : Json.Raw :=
  .object [(some "id", .number (some (.natural 1))), (some "id", .number (some (.natural 7)))]

/-- It is refused for want of a version, under the second identifier. -/
theorem line_protocol_repeatedId :
    letI := Trial.scheme
    let told : Json := .object [("id", .natural 7)]
    Json.Grammar.Text repeatedIdText repeatedId ∧ Json.Says repeatedId told
      ∧ told.get? "id" = (repeatedIdText.last? "id").bind (Json.Raw.toJson? 126)
      ∧ (dispatch {} Trial.ledger repeatedId ⟨1000, 0⟩).1.error.map ErrorObject.code = some (-32600)
      ∧ IsIdOf repeatedId (dispatch {} Trial.ledger repeatedId ⟨1000, 0⟩).1.id := by
  let := Trial.scheme
  have htext : Json.Grammar.Text repeatedIdText repeatedId := Json.Raw.ofChars_eq_iff.mp rfl
  have hsays : Json.Says repeatedId (.object [("id", .natural 7)]) :=
    Json.ofChars?_eq_some_iff.mp rfl
  have hrefused : Refused repeatedId (-32600) := .faulty hsays (.unversioned nofun)
  obtain ⟨hreply, hmembers, -⟩ := line_protocol {}
  have hline := hreply Trial.ledger repeatedId ⟨1000, 0⟩
  exact ⟨htext, hsays, hmembers _ _ _ htext hsays "id", (hline.refused _).mpr hrefused,
    hline.identifier⟩

/-! ## 5. Beyond the limits -/

section Nesting

open Json (Raw)
open Json.Grammar

/-- **Arrays in an array**, so many times, and nothing else. -/
def nested : Nat → Raw
  | 0 => .array []
  | n + 1 => .array [nested n]

/-- **Brackets in brackets.** -/
def nestedChars (n : Nat) : List Char :=
  List.replicate (n + 1) '[' ++ List.replicate (n + 1) ']'

theorem depth_nested (n : Nat) : (nested n).depth = n + 1 := by
  induction n with
  | zero => rfl
  | succ n ih => rw [nested, Raw.depth, Raw.depthItems, Raw.depthItems, ih, Nat.max_zero]

/-- Brackets in brackets are a text of arrays in arrays. -/
theorem valueText_nested (n : Nat) : ValueText (nested n) (nestedChars n) := by
  induction n with
  | zero => exact .emptyArray blanks_nil
  | succ n ih =>
    have hitems : ItemsText [nested n] (nestedChars n) := by
      have h := ItemsText.single blanks_nil ih blanks_nil
      rwa [List.nil_append, List.append_nil] at h
    have hlast : List.replicate (n + 1 + 1) ']' = List.replicate (n + 1) ']' ++ [']'] :=
      List.replicate_succ'
    rw [nestedChars, hlast, ← List.append_assoc]
    exact .array hitems

theorem text_nested (n : Nat) : Text (nested n) (nestedChars n) :=
  ⟨[], nestedChars n, [], blanks_nil, valueText_nested n, blanks_nil, (List.append_nil _).symm⟩

/-- **Brackets that nest too deep** are refused, as if they were no JSON. -/
theorem refused_nested {n : Nat} (h : 127 ≤ n) : Refused (nestedChars n) (-32700) :=
  .beyond (text_nested n) (.inr (by rw [depth_nested]; omega))

/-- **A JSON text may be refused as none**: brackets that nest 128 deep. -/
theorem deep_nesting_refused :
    letI := Trial.scheme
    let line := List.replicate 128 '[' ++ List.replicate 128 ']'
    (∃ v, Text v line)
      ∧ (dispatch {} Trial.ledger line ⟨1000, 0⟩).1.error.map ErrorObject.code = some (-32700) := by
  have hrefused : Refused (nestedChars 127) (-32700) := refused_nested (Nat.le_refl _)
  exact ⟨⟨nested 127, text_nested 127⟩, @Refused.error_dispatch Trial.scheme _ _ _ _ _ hrefused⟩

end Nesting

end Rpc

end ShardLedger
