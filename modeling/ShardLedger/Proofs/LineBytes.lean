import ShardLedger.Client.Session
import ShardLedger.Proofs.EnvelopeLines
import ShardLedger.Proofs.BinaryForm
/-
Lines as bytes.

A line travels as the UTF-8 bytes of its text and a line feed.  The byte of a line feed is part of no
other character, so a text without line feeds is a line of its own wherever it stands in a stream.  A
client spells the characters of a line out again one by one, each as the shortest sequence that is
valid; sequences of UTF-8 do not begin with each other, so the shortest is the one that was written.

A peer may send bytes that are no text.  What stands for such a byte spoils the string that it stands in, so
that the string has no content, and can be skipped all the same; behind a backslash it breaks the syntax.
-/

set_option autoImplicit false

namespace ShardLedger

/-! ## 1. Characters -/

namespace Bytes

/-- The byte of a line feed is part of no other character. -/
theorem eq_lineFeed_of_mem {c : Char} (h : 0x0A ∈ String.utf8EncodeChar c) : c = '\n' := by
  have hbyte : ∀ n, n < 256 → (0x0A : UInt8) = UInt8.ofNat n → n = 10 := by
    intro n hn heq
    have hnat := congrArg UInt8.toNat heq
    rw [UInt8.toNat_ofNat_of_lt' hn] at hnat
    exact hnat.symm
  have hlt := c.val.toNat_lt
  -- Every byte of a longer sequence is at least 128.
  simp only [String.utf8EncodeChar] at h
  split at h
  · have hval := hbyte _ (by omega) (List.mem_singleton.mp h)
    exact Char.ext (UInt32.toNat_inj.mp hval)
  · split at h
    · simp only [List.mem_cons, List.not_mem_nil, or_false] at h
      rcases h with h | h
      all_goals
        have := hbyte _ (by omega) h
        omega
    · split at h
      · simp only [List.mem_cons, List.not_mem_nil, or_false] at h
        rcases h with h | h | h
        all_goals
          have := hbyte _ (by omega) h
          omega
      · simp only [List.mem_cons, List.not_mem_nil, or_false] at h
        rcases h with h | h | h | h
        all_goals
          have := hbyte _ (by omega) h
          omega

/-- **A text without line feeds** has no byte of a line feed. -/
theorem lineFeed_notMem_ofText {s : String} (h : '\n' ∉ s.toList) : 0x0A ∉ ofText s := by
  rw [ofText_eq, List.mem_flatMap]
  rintro ⟨c, hc, hmem⟩
  exact h (eq_lineFeed_of_mem hmem ▸ hc)

/-- A sequence that a stream begins with says which character it is. -/
theorem eq_of_utf8EncodeChar_append {c d : Char} {b t : Bytes}
    (h : String.utf8EncodeChar c ++ b = String.utf8EncodeChar d ++ t) : c = d := by
  have hc := ByteArray.utf8DecodeChar?_utf8EncodeChar_append (b := b.toByteArray) (c := c)
  have hd := ByteArray.utf8DecodeChar?_utf8EncodeChar_append (b := t.toByteArray) (c := d)
  rw [← List.toByteArray_append] at hc hd
  rw [h, hd] at hc
  exact (Option.some.inj hc).symm

/-- Bytes that spell one character are its sequence. -/
theorem eq_utf8EncodeChar_of_toText? {b : Bytes} {c : Char}
    (h : (toText? b).map String.toList = some [c]) : b = String.utf8EncodeChar c := by
  obtain ⟨s, hs, hlist⟩ := Option.map_eq_some_iff.mp h
  have hbytes : ofText s = b := by
    rw [toText?, String.fromUTF8?] at hs
    split at hs
    · obtain rfl := Option.some.inj hs
      rfl
    · cases hs
  rw [← hbytes, ofText_eq, hlist, List.flatMap_singleton]

/-- The sequence of a character spells it. -/
theorem toText?_utf8EncodeChar (c : Char) :
    (toText? (String.utf8EncodeChar c)).map String.toList = some [c] := by
  have h := toText?_ofText (String.ofList [c])
  rw [ofText_ofList, List.flatMap_singleton] at h
  rw [h, Option.map_some, String.toList_ofList]

/-- What is taken off is a character whose sequence stands in front. -/
theorem eq_append_of_takeChar? {b rest : Bytes} {c : Char} (h : takeChar? b = some (c, rest)) :
    b = String.utf8EncodeChar c ++ rest := by
  obtain ⟨n, -, hn⟩ := List.exists_of_findSome?_eq_some h
  split at hn
  · rename_i d hd
    obtain ⟨rfl, rfl⟩ := Prod.mk.inj (Option.some.inj hn)
    rw [← eq_utf8EncodeChar_of_toText? hd, List.take_append_drop]
  · cases hn

/-- A character whose sequence stands in front keeps the reader from failing. -/
theorem takeChar?_ne_none (c : Char) (t : Bytes) :
    takeChar? (String.utf8EncodeChar c ++ t) ≠ none := by
  intro h
  have hpos := c.utf8Size_pos
  have hfour := c.utf8Size_le_four
  have hmem : c.utf8Size ∈ [1, 2, 3, 4] := by
    simp only [List.mem_cons, List.not_mem_nil, or_false]
    omega
  have hnone := List.findSome?_eq_none_iff.mp h _ hmem
  rw [List.take_left' (String.length_utf8EncodeChar c), toText?_utf8EncodeChar] at hnone
  cases hnone

/-- **A client takes off the character** that the bytes begin with. -/
theorem takeChar?_append (c : Char) (t : Bytes) :
    takeChar? (String.utf8EncodeChar c ++ t) = some (c, t) := by
  obtain ⟨⟨d, rest⟩, h⟩ := Option.ne_none_iff_exists'.mp (takeChar?_ne_none c t)
  -- Whatever is taken off stands in front of the same bytes, so it is this character.
  have hsplit := eq_append_of_takeChar? h
  obtain rfl := eq_of_utf8EncodeChar_append hsplit
  rw [h, List.append_cancel_left hsplit]

end Bytes

/-! ## 2. Reply lines -/

/-- **A client reads the characters** of a reply line as they were written. -/
theorem replyChars_flatMap (cs : List Char) (bound : Nat)
    (h : (cs.flatMap String.utf8EncodeChar).length ≤ bound) :
    replyChars bound (cs.flatMap String.utf8EncodeChar) = cs := by
  induction cs generalizing bound with
  | nil => cases bound <;> rfl
  | cons c cs ih =>
    rw [List.flatMap_cons] at h ⊢
    -- A character has at least one byte, which the bound has room for.
    have hpos := c.utf8Size_pos
    rw [List.length_append, String.length_utf8EncodeChar] at h
    obtain ⟨bound, rfl⟩ : ∃ n, bound = n + 1 := ⟨bound - 1, by omega⟩
    have htake := Bytes.takeChar?_append c (cs.flatMap String.utf8EncodeChar)
    cases hseq : String.utf8EncodeChar c with
    | nil => exact absurd hseq String.utf8EncodeChar_ne_nil
    | cons b bs =>
      rw [hseq] at htake
      rw [List.cons_append] at htake ⊢
      rw [replyChars, htake]
      simp only [ih bound (by omega)]

theorem replyChars_ofText (s : String) :
    replyChars (Bytes.ofText s).length (Bytes.ofText s) = s.toList := by
  rw [Bytes.ofText_eq]
  exact replyChars_flatMap s.toList _ (Nat.le_refl _)

/-! ## 3. Bytes that are part of no character -/

namespace Json.Raw

/-- **A byte that is part of no character** is scanned like any other in a string. -/
theorem scanPieces_spoiler (cs : List Char) :
    scanPieces (spoiler ++ cs)
      = (scanPieces cs).map fun r => (.char '\uFFFD' :: .unit 0xDC00 :: r.1, r.2) := by
  have hunit : unit? 'd' 'c' '0' '0' = some 0xDC00 := by decide
  have hspoiler : spoiler ++ cs = '\uFFFD' :: '\\' :: 'u' :: 'd' :: 'c' :: '0' :: '0' :: cs := rfl
  rw [hspoiler, scanPieces_char (by decide) (by decide) (by decide), scanPieces_unit hunit,
    Option.map_map]
  rfl

/-- Behind a backslash it breaks the syntax. -/
theorem scanPieces_backslash_spoiler (cs : List Char) :
    scanPieces ('\\' :: (spoiler ++ cs)) = none :=
  scanPieces_no_escape (c := '\uFFFD') (by decide) (by decide)

/-- **It spoils the string**, whatever else stands in that: a second half of a surrogate pair behind a
character stands alone. -/
theorem joinPieces_spoiled {u : Nat} (h : isTrailing u) (c : Char) (before after : List Piece) :
    joinPieces (before ++ .char c :: .unit u :: after) = none := by
  have hleading : isLeading u = false := by
    simp only [isLeading, isTrailing, Bool.and_eq_true, decide_eq_true_eq, Bool.and_eq_false_iff,
      decide_eq_false_iff_not] at h ⊢
    omega
  have hunit : joinPieces (.unit u :: after) = none := by
    unfold joinPieces
    simp [hleading, h]
  -- The pieces before are joined one by one, or two at a time; no pair reaches past the character.
  induction before using joinPieces.induct with
  | case1 => simp [joinPieces, hunit]
  | case2 d ps ih => simp [joinPieces, ih]
  | case3 u' hlead t ps ht ih => simp [joinPieces, hlead, ht, ih]
  | case4 u' hlead t ps ht => simp [joinPieces, hlead, ht]
  | case5 u' ps hlead hps =>
    cases ps with
    | nil => simp [joinPieces, hlead]
    | cons p ps =>
      cases p with
      | char d => simp [joinPieces, hlead]
      | unit t => exact absurd rfl (hps t ps)
  | case6 u' ps hlead ht =>
    rw [List.cons_append]
    unfold joinPieces
    simp [hlead, ht]
  | case7 u' ps hlead ht ih =>
    rw [List.cons_append]
    unfold joinPieces
    simp [hlead, ht, ih]

end Json.Raw

open Json.Raw Json.Grammar in
/-- **A byte that is part of no character**, behind any part of a string: the string goes on behind the byte
and has no content.  Right behind a backslash it has no end either, and where a value should begin there is
none. -/
theorem replyChars_stray {b : UInt8} {bs : Bytes} (h : Bytes.takeChar? (b :: bs) = none) (bound : Nat)
    {ps : List Piece} {w : List Char} (hw : StringText ps w) :
    scanString (w ++ replyChars (bound + 1) (b :: bs))
        = (scanString (replyChars bound bs)).map (fun r => (none, r.2))
      ∧ scanString (w ++ '\\' :: replyChars (bound + 1) (b :: bs)) = none
      ∧ ∀ depth, readValue (depth + 1) (replyChars (bound + 1) (b :: bs)) = (.broken, none) := by
  have hchars : replyChars (bound + 1) (b :: bs) = spoiler ++ replyChars bound bs := by
    rw [replyChars, h]
  rw [hchars]
  refine ⟨?_, ?_, fun _ => rfl⟩
  · rw [scanString, scanString, scanPieces_append hw, scanPieces_spoiler, Option.map_map, Option.map_map,
      Option.map_map]
    congr 1
    funext r
    exact Prod.ext (joinPieces_spoiled (by decide) _ ps r.1) rfl
  · rw [scanString, scanPieces_append hw, scanPieces_backslash_spoiler]
    rfl

example :
    let reply := fun stray : Bytes =>
      Bytes.ofText "\x7b\"x\":\"" ++ stray ++ Bytes.ofText "\",\"jsonrpc\":\"2.0\",\"id\":1\x7d"
    (readReply (reply [0xFF])).isOk = true ∧ (readReply (reply [0x5C, 0xFF])).isOk = false := by
  decide +kernel

/-! ## 4. Lines in a stream -/

namespace Session

theorem bytesOf_nil : bytesOf [] = [] := rfl

theorem bytesOf_cons (line : Bytes) (lines : List Bytes) :
    bytesOf (line :: lines) = line ++ 0x0A :: bytesOf lines := by
  rw [bytesOf, List.flatMap_cons, List.append_assoc]
  rfl

theorem bytesOf_singleton (line : Bytes) : bytesOf [line] = line ++ [0x0A] :=
  List.flatMap_singleton _ _

theorem bytesOf_append (lines lines' : List Bytes) :
    bytesOf (lines ++ lines') = bytesOf lines ++ bytesOf lines' :=
  List.flatMap_append

/-- **The first line of a stream** is where it was put. -/
theorem eq_of_append_lineFeed {line line' rest rest' : Bytes} (h : 0x0A ∉ line) (h' : 0x0A ∉ line')
    (heq : line ++ 0x0A :: rest = line' ++ 0x0A :: rest') : line = line' ∧ rest = rest' := by
  induction line generalizing line' with
  | nil =>
    cases line' with
    | nil => exact ⟨rfl, (List.cons.inj heq).2⟩
    | cons y ys =>
      obtain ⟨rfl, -⟩ := List.cons.inj heq
      exact absurd List.mem_cons_self h'
  | cons x xs ih =>
    cases line' with
    | nil =>
      obtain ⟨rfl, -⟩ := List.cons.inj heq
      exact absurd List.mem_cons_self h
    | cons y ys =>
      obtain ⟨rfl, htail⟩ := List.cons.inj heq
      rw [List.mem_cons, not_or] at h h'
      obtain ⟨rfl, hrest⟩ := ih h.2 h'.2 htail
      exact ⟨rfl, hrest⟩

/-- What the node cuts off at a byte. -/
theorem cutLines_cons (x : UInt8) (xs : Bytes) :
    Rpc.cutLines (x :: xs)
      = if x = 0x0A then ([] :: (Rpc.cutLines xs).1, (Rpc.cutLines xs).2)
        else
          match (Rpc.cutLines xs).1 with
          | [] => ([], x :: (Rpc.cutLines xs).2)
          | line :: lines => ((x :: line) :: lines, (Rpc.cutLines xs).2) := rfl

/-- Without a line feed there is no whole line. -/
theorem cutLines_of_notMem {b : Bytes} (h : 0x0A ∉ b) : Rpc.cutLines b = ([], b) := by
  induction b with
  | nil => rfl
  | cons x xs ih =>
    rw [List.mem_cons, not_or] at h
    rw [cutLines_cons, ih h.2, if_neg (Ne.symm h.1)]

/-- A whole line in front is the first that is cut off. -/
theorem cutLines_append {line : Bytes} (h : 0x0A ∉ line) (rest : Bytes) :
    Rpc.cutLines (line ++ 0x0A :: rest)
      = (line :: (Rpc.cutLines rest).1, (Rpc.cutLines rest).2) := by
  induction line with
  | nil => rw [List.nil_append, cutLines_cons, if_pos rfl]
  | cons x xs ih =>
    rw [List.mem_cons, not_or] at h
    rw [List.cons_append, cutLines_cons, ih h.2, if_neg (Ne.symm h.1)]

/-- **What is cut off** is all there is. -/
theorem bytesOf_cutLines (b : Bytes) :
    bytesOf (Rpc.cutLines b).1 ++ (Rpc.cutLines b).2 = b := by
  induction b with
  | nil => rfl
  | cons x xs ih =>
    rw [cutLines_cons]
    by_cases hx : x = 0x0A
    · rw [if_pos hx, hx, bytesOf_cons, List.nil_append, List.cons_append, ih]
    · rw [if_neg hx]
      cases hlines : (Rpc.cutLines xs).1 with
      | nil =>
        rw [hlines, bytesOf_nil, List.nil_append] at ih
        rw [bytesOf_nil, List.nil_append, ih]
      | cons line lines =>
        rw [hlines, bytesOf_cons, List.append_assoc, List.cons_append] at ih
        rw [bytesOf_cons, List.append_assoc, List.cons_append, List.cons_append, ih]

end Session

/-! ## 5. The lines of requests and replies -/

namespace Rpc

/-- **The text of a value** has no byte of a line feed. -/
theorem lineFeed_notMem_text (j : Json) : 0x0A ∉ Bytes.ofText j.text := by
  apply Bytes.lineFeed_notMem_ofText
  rw [Json.text, String.toList_ofList]
  exact Json.lineFeed_notMem_chars j

/-- **The line of a request** as bytes, without its line feed. -/
def requestBytes (id : UInt64) (r : Request) : Bytes :=
  Bytes.ofText (Wired.toJson (RequestEnvelope.ofRequest id r)).text

section Request

variable (id : UInt64) (r : Request)

theorem toList_text_ofRequest :
    (Wired.toJson (RequestEnvelope.ofRequest id r)).text.toList = requestLine id r :=
  String.toList_ofList

theorem lineFeed_notMem_requestBytes : 0x0A ∉ requestBytes id r :=
  lineFeed_notMem_text _

/-- The line of a request opens with a brace, so it is not blank. -/
theorem isBlankText_requestLine : Text.isBlankText (requestLine id r) = false := by
  rw [requestLine, toJson_ofRequest]
  rfl

/-- **A node answers the bytes** of a request as it answers the line. -/
theorem serveLines_requestBytes [SignatureScheme] (c : Config) (l : Ledger) (now : Timestamp) :
    serveLines c now [requestBytes id r] l
      = ([(dispatch c l (requestLine id r) now).1], true,
          (dispatch c l (requestLine id r) now).2) := by
  have htext : Bytes.toText? (requestBytes id r)
      = some (Wired.toJson (RequestEnvelope.ofRequest id r)).text := Bytes.toText?_ofText _
  rw [serveLines, htext]
  simp only [toList_text_ofRequest, isBlankText_requestLine]
  rfl

end Request

/-- **A reply is one line**, whatever it says. -/
theorem lineFeed_notMem_replyLine (e : ResponseEnvelope) : 0x0A ∉ Session.replyLine e :=
  lineFeed_notMem_text _

section Reply

variable [SignatureScheme] {id : UInt64} {e : ResponseEnvelope}

/-- **A client reads a reply** from its bytes. -/
theorem IsReply.readReply_replyLine (h : IsReply id e) :
    readReply (Session.replyLine e) = .ok e := by
  rw [readReply, Session.replyLine, replyChars_ofText, Json.text, String.toList_ofList]
  exact h.ofChars_chars

end Reply

end Rpc

end ShardLedger
