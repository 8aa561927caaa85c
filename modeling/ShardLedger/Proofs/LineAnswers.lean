import ShardLedger.Proofs.EnvelopeOpening
/-
The answer to a line.

Every line has an answer, and the answer says what the line deserves.  Which error it is, is decided by the
text alone: whether it is JSON, what its members are, and what its parameters decode to.  A line that is
answered with an error has not touched the ledger; any other has done what its request does.
-/

set_option autoImplicit false

namespace ShardLedger

open Wire

namespace Rpc

open Json (Says)

/-! ## 1. What a line asks for -/

/-- **A value is an envelope**: it has the version, a known method and an identifier.  Parameters that
are left out are null. -/
structure IsEnvelope (j id : Json) (m : Method) (params : Json) : Prop where
  version : j.get? "jsonrpc" = some (.string protocolVersion)
  method : j.get? "method" = some (.string m.name)
  identifier : j.get? "id" = some id
  parameters : params = (j.get? "params").getD .null

/-- **Parameters decode** as the type of the method. -/
def Decodes (m : Method) (params : Json) (r : Request) : Prop :=
  match m with
  | .submit => ∃ t : SignedTransaction, Wired.ofTree params = .ok t ∧ r = .transaction t
  | .query => ∃ q : Query, Wired.ofTree params = .ok q ∧ r = .query q

/-- **What is wrong with a value**, by the code of the error. -/
inductive Faulty (j : Json) : Int32 → Prop
  /-- It does not have the version. -/
  | unversioned (version : j.get? "jsonrpc" ≠ some (.string protocolVersion)) : Faulty j (-32600)
  /-- Its method is not there or no string. -/
  | methodless (method : ∀ name, j.get? "method" ≠ some (.string name)) : Faulty j (-32600)
  /-- It has a known method and no identifier. -/
  | anonymous {m : Method} (method : j.get? "method" = some (.string m.name))
    (identifier : j.get? "id" = none) : Faulty j (-32600)
  /-- Its method is not known. -/
  | unknown (version : j.get? "jsonrpc" = some (.string protocolVersion)) {name : String}
    (method : j.get? "method" = some (.string name)) (other : ∀ m : Method, m.name ≠ name) :
    Faulty j (-32601)
  /-- Its parameters do not decode. -/
  | undecoded {id params : Json} {m : Method} (envelope : IsEnvelope j id m params)
    (undecodable : ∀ r, ¬ Decodes m params r) : Faulty j (-32602)

/-- **Why a line is refused**, by the code of the error. -/
inductive Refused (line : List Char) : Int32 → Prop
  /-- It is no JSON text. -/
  | notJson (text : ∀ v, ¬ Json.Grammar.Text v line) : Refused line (-32700)
  /-- It is a JSON text beyond the limits of the reader. -/
  | beyond {v : Json.Raw} (text : Json.Grammar.Text v line)
    (limits : v.isEntire = false ∨ 127 < v.depth) : Refused line (-32700)
  /-- What it says is no envelope, or has parameters that do not decode. -/
  | faulty {j : Json} {code : Int32} (said : Says line j) (fault : Faulty j code) : Refused line code

/-- **What a line asks for**, under which identifier. -/
def Asks (line : List Char) (id : Json) (r : Request) : Prop :=
  ∃ j m params, Says line j ∧ IsEnvelope j id m params ∧ Decodes m params r

/-- **The identifier of a line**: the member of its object, or null. -/
def IsIdOf (line : List Char) (id : Json) : Prop :=
  (∃ j, Says line j ∧ j.get? "id" = some id)
    ∨ id = .null ∧ ∀ j, Says line j → j.get? "id" = none

variable [SignatureScheme]

/-- **The reply that a line deserves**, and the ledger that it leaves. -/
structure IsReplyTo (c : Config) (l : Ledger) (line : List Char) (now : Timestamp)
    (e : ResponseEnvelope) (l' : Ledger) : Prop where
  version : e.version = "2.0"
  /-- There is a result or an error, and not both. -/
  outcome : e.result.isSome = !e.error.isSome
  identifier : IsIdOf line e.id
  refused (code : Int32) : e.error.map ErrorObject.code = some code ↔ Refused line code
  intact (failed : e.error.isSome = true) : l' = l
  answered {id : Json} {r : Request} (asks : Asks line id r) :
    e = .ofResponse id (l.handle c r now).1 ∧ l' = (l.handle c r now).2

/-! ## 2. The steps of the answer -/

section Steps

variable {j id params : Json} {m : Method}

omit [SignatureScheme]

theorem ofName?_eq_some_iff {name : String} : Method.ofName? name = some m ↔ m.name = name := by
  constructor
  · intro h
    unfold Method.ofName? at h
    split at h
    · rename_i heq
      obtain rfl := Option.some.inj h
      exact heq.symm
    · split at h
      · rename_i heq
        obtain rfl := Option.some.inj h
        exact heq.symm
      · cases h
  · rintro rfl
    exact ofName?_name m

/-- A member that is a string. -/
theorem bind_string?_eq_some {o : Option Json} {s : String} :
    o.bind Json.string? = some s ↔ o = some (.string s) := by
  cases o with
  | none => simp
  | some j => cases j <;> simp [Json.string?]

/-- **An envelope is opened** to what its parameters decode to. -/
theorem request_eq_ok_iff {e : RequestEnvelope} {r : Request} :
    e.request = .ok r ↔ Decodes e.method e.params r := by
  cases e with
  | mk version id m params =>
    cases m with
    | submit =>
      simp only [RequestEnvelope.request, Decodes]
      cases (Wired.ofTree params : Except Fault SignedTransaction) <;>
        simp [Except.map, Except.mapError, eq_comm]
    | query =>
      simp only [RequestEnvelope.request, Decodes]
      cases (Wired.ofTree params : Except Fault Query) <;>
        simp [Except.map, Except.mapError, eq_comm]

/-- Without the version nothing else is looked at. -/
theorem openEnvelope_of_version_ne (h : j.get? "jsonrpc" ≠ some (.string protocolVersion)) :
    openEnvelope j = .error (.invalidRequest "jsonrpc must be \"2.0\"") :=
  if_pos fun heq => h (bind_string?_eq_some.mp heq)

/-- With the version a method is looked for. -/
theorem openEnvelope_of_version (h : j.get? "jsonrpc" = some (.string protocolVersion)) :
    openEnvelope j
      = (match (j.get? "method").bind Json.string? with
        | none => .error (.invalidRequest "missing method")
        | some name =>
          if (Method.ofName? name).isNone then .error (.methodNotFound name)
          else do
            let envelope : RequestEnvelope ←
              (Wired.ofTree j).mapError fun fault => .invalidRequest fault.message
            envelope.request) :=
  if_neg (not_not.mpr (bind_string?_eq_some.mpr h))

/-- With the version and a known method, all that is left is to decode the envelope. -/
theorem openEnvelope_of_method (hj : j.canonical = j)
    (hversion : j.get? "jsonrpc" = some (.string protocolVersion))
    (hmethod : j.get? "method" = some (.string m.name)) :
    openEnvelope j
      = match j.get? "id" with
        | none => .error (.invalidRequest Fault.misfit.message)
        | some id =>
          RequestEnvelope.request ⟨protocolVersion, id, m, (j.get? "params").getD .null⟩ := by
  rw [openEnvelope_of_version hversion, hmethod]
  simp only [Option.bind_some, Json.string?, ofName?_name, ofTree_envelope hj hversion hmethod]
  cases j.get? "id" <;> rfl

/-- An envelope is opened to what its parameters say. -/
theorem IsEnvelope.openEnvelope_eq (h : IsEnvelope j id m params) (hj : j.canonical = j) :
    openEnvelope j = RequestEnvelope.request ⟨protocolVersion, id, m, params⟩ := by
  rw [openEnvelope_of_method hj h.version h.method, h.identifier, h.parameters]

/-- **What is wrong with a value** is what the error says. -/
theorem Faulty.openEnvelope_eq {code : Int32} (h : Faulty j code) (hj : j.canonical = j) :
    ∃ error, openEnvelope j = .error error ∧ error.code = code := by
  by_cases hversion : j.get? "jsonrpc" = some (.string protocolVersion)
  · cases h with
    | unversioned version => exact absurd hversion version
    | methodless method =>
      have hnone : (j.get? "method").bind Json.string? = none :=
        Option.eq_none_iff_forall_ne_some.mpr fun name hname =>
          method name (bind_string?_eq_some.mp hname)
      rw [openEnvelope_of_version hversion, hnone]
      exact ⟨_, rfl, rfl⟩
    | anonymous method identifier =>
      rw [openEnvelope_of_method hj hversion method, identifier]
      exact ⟨_, rfl, rfl⟩
    | @unknown _ name method other =>
      have hnone : Method.ofName? name = none :=
        Option.eq_none_iff_forall_ne_some.mpr fun m hm => other m (ofName?_eq_some_iff.mp hm)
      rw [openEnvelope_of_version hversion, method]
      simp only [Option.bind_some, Json.string?, hnone, Option.isNone_none, if_true]
      exact ⟨_, rfl, rfl⟩
    | undecoded envelope undecodable =>
      rw [envelope.openEnvelope_eq hj]
      cases hrequest : RequestEnvelope.request ⟨protocolVersion, _, _, _⟩ with
      | ok r => exact absurd (request_eq_ok_iff.mp hrequest) (undecodable r)
      | error error =>
        obtain ⟨message, rfl⟩ := request_error hrequest
        exact ⟨_, rfl, rfl⟩
  · rw [openEnvelope_of_version_ne hversion]
    refine ⟨_, rfl, ?_⟩
    cases h with
    | unversioned | methodless | anonymous => rfl
    | unknown version => exact absurd version hversion
    | undecoded envelope => exact absurd envelope.version hversion

/-- **A value is faulty or asks for something.** -/
theorem faulty_or_envelope (j : Json) :
    (∃ code, Faulty j code) ∨ ∃ id m params r, IsEnvelope j id m params ∧ Decodes m params r := by
  by_cases hversion : j.get? "jsonrpc" = some (.string protocolVersion)
  case neg => exact .inl ⟨_, .unversioned hversion⟩
  by_cases hmethod : ∃ name, j.get? "method" = some (.string name)
  case neg => exact .inl ⟨_, .methodless fun name h => hmethod ⟨name, h⟩⟩
  obtain ⟨name, hmethod⟩ := hmethod
  by_cases hknown : ∃ m : Method, m.name = name
  case neg => exact .inl ⟨_, .unknown hversion hmethod fun m h => hknown ⟨m, h⟩⟩
  obtain ⟨m, rfl⟩ := hknown
  cases hid : j.get? "id" with
  | none => exact .inl ⟨_, .anonymous hmethod hid⟩
  | some id =>
    have henvelope : IsEnvelope j id m ((j.get? "params").getD .null) :=
      ⟨hversion, hmethod, hid, rfl⟩
    by_cases hparams : ∃ r, Decodes m ((j.get? "params").getD .null) r
    · obtain ⟨r, hr⟩ := hparams
      exact .inr ⟨_, _, _, _, henvelope, hr⟩
    · exact .inl ⟨_, .undecoded henvelope fun r h => hparams ⟨r, h⟩⟩

end Steps

/-! ## 3. The answer to a line -/

section Answer

variable {c : Config} {l : Ledger} {line : List Char} {now : Timestamp}

/-- A line that is not read is answered as one that is no JSON. -/
theorem dispatch_of_unread (h : ¬ ∃ j, Says line j) :
    dispatch c l line now = (.failure .null (.parseError "line is not JSON"), l) := by
  have hnone : Json.ofChars? line = none :=
    Option.eq_none_iff_forall_ne_some.mpr fun j hj => h ⟨j, Json.ofChars?_eq_some_iff.mp hj⟩
  rw [dispatch, hnone]

/-- A line that is read is answered as its envelope is opened. -/
theorem dispatch_of_read {j : Json} (h : Says line j) :
    dispatch c l line now
      = match openEnvelope j with
        | .error error => (.failure (idOf j) error, l)
        | .ok r => (.ofResponse (idOf j) (l.handle c r now).1, (l.handle c r now).2) := by
  have hread := Json.ofChars?_eq_some_iff.mpr h
  cases hopen : openEnvelope j with
  | error error => simp only [dispatch, hread, hopen]
  | ok r => simp only [dispatch, hread, hopen]

omit [SignatureScheme] in
/-- Which lines are not read: those that are no JSON, and those beyond the limits. -/
theorem refused_of_unread (h : ¬ ∃ j, Says line j) : Refused line (-32700) := by
  by_cases htext : ∃ v, Json.Grammar.Text v line
  · obtain ⟨v, htext⟩ := htext
    refine .beyond htext ?_
    by_contra hlimits
    rw [not_or, Bool.not_eq_false, Nat.not_lt] at hlimits
    exact h (Json.exists_says_iff.mpr ⟨v, htext, hlimits⟩)
  · exact .notJson fun v hv => htext ⟨v, hv⟩

omit [SignatureScheme] in
/-- A line that is no JSON, or beyond the limits, is not read. -/
theorem unread_of_beyond {v : Json.Raw} (h : Json.Grammar.Text v line)
    (hlimits : v.isEntire = false ∨ 127 < v.depth) : ¬ ∃ j, Says line j := by
  intro hj
  obtain ⟨v', htext, hentire, hdepth⟩ := Json.exists_says_iff.mp hj
  obtain rfl := h.unique htext
  rcases hlimits with hmissing | hdeep
  · rw [hentire] at hmissing
    cases hmissing
  · exact Nat.not_lt.mpr hdepth hdeep

/-- **A refused line** is answered with its code. -/
theorem Refused.error_dispatch {code : Int32} (h : Refused line code) :
    (dispatch c l line now).1.error.map ErrorObject.code = some code := by
  cases h with
  | notJson text =>
    rw [dispatch_of_unread fun ⟨j, v, htext, _⟩ => text v htext]
    rfl
  | beyond text limits =>
    rw [dispatch_of_unread (unread_of_beyond text limits)]
    rfl
  | faulty said fault =>
    obtain ⟨error, hopen, rfl⟩ := fault.openEnvelope_eq said.canonical_eq
    rw [dispatch_of_read said, hopen]
    rfl

/-- **A line that asks for something** is answered with what that does. -/
theorem Asks.dispatch_eq {id : Json} {r : Request} (h : Asks line id r) :
    dispatch c l line now = (.ofResponse id (l.handle c r now).1, (l.handle c r now).2) := by
  obtain ⟨j, m, params, hsays, henvelope, hdecodes⟩ := h
  have hid : idOf j = id := by rw [idOf, henvelope.identifier, Option.getD_some]
  have hrequest := request_eq_ok_iff (e := ⟨protocolVersion, id, m, params⟩).mpr hdecodes
  rw [dispatch_of_read hsays, henvelope.openEnvelope_eq hsays.canonical_eq, hrequest]
  simp only [hid]

omit [SignatureScheme] in
/-- The identifier that is looked up is that of the line. -/
theorem isIdOf_idOf {j : Json} (h : Says line j) : IsIdOf line (idOf j) := by
  rw [idOf]
  cases hid : j.get? "id" with
  | none => exact .inr ⟨rfl, fun j' h' => h.unique h' ▸ hid⟩
  | some id => exact .inl ⟨j, h, hid⟩

/-- **A line is refused or asks for something**, and is answered so. -/
theorem dispatch_cases (c : Config) (l : Ledger) (line : List Char) (now : Timestamp) :
    (∃ id error, dispatch c l line now = (.failure id error, l)
        ∧ IsIdOf line id ∧ Refused line error.code)
      ∨ ∃ id r, dispatch c l line now
          = (.ofResponse id (l.handle c r now).1, (l.handle c r now).2)
        ∧ IsIdOf line id ∧ Asks line id r := by
  by_cases hsays : ∃ j, Says line j
  · obtain ⟨j, hsays⟩ := hsays
    rcases faulty_or_envelope j with ⟨code, hfault⟩ | ⟨id, m, params, r, henvelope, hdecodes⟩
    · obtain ⟨error, hopen, rfl⟩ := hfault.openEnvelope_eq hsays.canonical_eq
      refine .inl ⟨idOf j, error, ?_, isIdOf_idOf hsays, .faulty hsays hfault⟩
      rw [dispatch_of_read hsays, hopen]
    · have hasks : Asks line id r := ⟨j, m, params, hsays, henvelope, hdecodes⟩
      exact .inr ⟨id, r, hasks.dispatch_eq, .inl ⟨j, hsays, henvelope.identifier⟩, hasks⟩
  · refine .inl ⟨.null, _, dispatch_of_unread hsays, ?_, refused_of_unread hsays⟩
    exact .inr ⟨rfl, fun j hj => absurd ⟨j, hj⟩ hsays⟩

/-- **Every line gets the reply that it deserves.** -/
theorem isReplyTo_dispatch (c : Config) (l : Ledger) (line : List Char) (now : Timestamp) :
    IsReplyTo c l line now (dispatch c l line now).1 (dispatch c l line now).2 := by
  have hrefused : ∀ code, Refused line code →
      (dispatch c l line now).1.error.map ErrorObject.code = some code := fun _ h => h.error_dispatch
  have hanswered : ∀ id r, Asks line id r → dispatch c l line now
      = (.ofResponse id (l.handle c r now).1, (l.handle c r now).2) := fun _ _ h => h.dispatch_eq
  rcases dispatch_cases c l line now with ⟨id, error, heq, hid, hcode⟩ | ⟨id, r, heq, hid, hasks⟩
  · rw [heq] at hrefused hanswered ⊢
    refine ⟨rfl, rfl, hid, fun code => ⟨?_, hrefused code⟩, fun _ => rfl, fun {id r} h => ?_⟩
    · intro h
      exact Option.some.inj h ▸ hcode
    · exact Prod.mk.inj (hanswered id r h)
  · rw [heq] at hrefused hanswered ⊢
    refine ⟨rfl, rfl, hid, fun code => ⟨nofun, hrefused code⟩, nofun, fun {id r} h => ?_⟩
    exact Prod.mk.inj (hanswered id r h)

end Answer

end Rpc

end ShardLedger
