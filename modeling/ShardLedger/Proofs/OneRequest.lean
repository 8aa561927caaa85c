import ShardLedger.Client.Errand
import ShardLedger.Client.Witness
import ShardLedger.Proofs.ResolverStates
import ShardLedger.Proofs.SignatureCover
/-
At most one request for an errand.

An errand calls the channel once or not at all, and its result tells which.  What can be found wrong without
the channel is found before, and so is a connection that is closed; any other error, and any value but an
outcome that was known already, is what the one call came to.  Nothing is sent a second time in silence.

This is so of an errand that is done alone and of any number of errands that share a connection, in
whatever order their steps follow each other and whatever the channel does.  Who begins when the connection
is marked as closed does not reach the channel any more, and the channel is let go once at the most.
-/

set_option autoImplicit false

namespace ShardLedger

/-! ## 1. Errors, by where they come from -/

namespace ClientError

/-- **What is found wrong with a draft**, without the channel. -/
def IsLocal : ClientError → Prop
  | .missingField _ | .unbalancedTransfer _ | .autoRenewPeriod _ | .staleSignature => True
  | _ => False

/-- **What becomes of a call** instead of a response. -/
def IsTransport : ClientError → Prop
  | .submission _ | .timeout _ => True
  | _ => False

/-- **What is found wrong with a response.** -/
def IsVerdict : ClientError → Prop
  | .preCheck _ | .unexpectedResponse _ => True
  | _ => False

end ClientError

/-- **A result has no error but such.** -/
def ErrsWith {α : Type} (P : ClientError → Prop) (x : Except ClientError α) : Prop :=
  ∀ e, x = .error e → P e

namespace ErrsWith

variable {α β : Type} {P : ClientError → Prop} {x : Except ClientError α}

theorem ok (a : α) : ErrsWith P (.ok a : Except ClientError α) := nofun

theorem error {e : ClientError} (h : P e) : ErrsWith P (.error e : Except ClientError α) := by
  rintro _ ⟨⟩
  exact h

/-- A chain errs with what its steps err with. -/
theorem bind {f : α → Except ClientError β} (hx : ErrsWith P x) (hf : ∀ a, ErrsWith P (f a)) :
    ErrsWith P (x.bind f) := by
  cases x with
  | error e => exact .error (hx e rfl)
  | ok a => exact hf a

theorem map {f : α → β} (hx : ErrsWith P x) : ErrsWith P (x.map f) := by
  cases x with
  | error e => exact .error (hx e rfl)
  | ok a => exact .ok _

end ErrsWith

/-! ## 2. Where errors come from -/

section Sources

open ClientError

variable {d : Draft}

theorem PayloadDraft.validate_errs (p : PayloadDraft) : ErrsWith IsLocal p.validate := by
  have hcheck : ∀ period, ErrsWith IsLocal (checkAutoRenew period) := by
    intro period
    unfold checkAutoRenew
    split
    · exact .ok ()
    · exact .error trivial
  unfold validate
  split
  · exact .error trivial
  · exact hcheck _
  · split
    · exact .ok ()
    · exact .error trivial
  · exact .ok ()
  · exact hcheck _
  · exact .error trivial
  · exact .ok ()

namespace Draft

/-- A part that is missing is found here. -/
theorem demand_errs {α : Type} (part : Option α) (field : Field) :
    ErrsWith IsLocal (demand part field) := by
  cases part with
  | none => exact .error trivial
  | some a => exact .ok a

/-- A body is assembled without the channel. -/
theorem body_errs (d : Draft) : ErrsWith IsLocal d.body := by
  have hpayload : ErrsWith IsLocal d.payload.payload := by
    unfold PayloadDraft.payload
    split
    · exact .error trivial
    · exact .ok _
    · exact .ok _
    · exact .ok _
    · exact .error trivial
    · exact .ok _
  exact (demand_errs _ _).bind fun _ => (demand_errs _ _).bind fun _ => hpayload.bind fun _ => .ok _

theorem identify_errs (d : Draft) (m : Mint) (now : Timestamp) :
    ErrsWith IsLocal (d.identify m now).1 := by
  unfold identify
  split
  · exact .ok _
  · exact .error trivial
  · exact .ok _

variable [SignatureScheme]

/-- **What keeps a draft from being submitted** is found without the channel. -/
theorem close_errs (d : Draft) (m : Mint) (now : Timestamp) : ErrsWith IsLocal (d.close m now).1 := by
  have hsigned : ∀ (d : Draft) bytes, ErrsWith IsLocal (d.checkSigned bytes) := by
    intro d bytes
    unfold checkSigned
    split
    · split
      · exact .ok ()
      · exact .error trivial
    · exact .ok ()
  have hseal : ∀ d : Draft, ErrsWith IsLocal d.sealBody := fun d =>
    (body_errs d).bind fun b => (hsigned d _).bind fun _ => .ok _
  unfold close
  split
  · rename_i e hvalid
    exact .error (d.payload.validate_errs e hvalid)
  · exact (d.identify_errs m now).bind hseal

end Draft

/-- What is wrong with a response is found in the response. -/
theorem Question.check_errs (q : Question) (response : Response) :
    ErrsWith IsVerdict (q.check response) := by
  unfold check
  split
  · exact .error trivial
  · split
    · exact .ok _
    · exact .error trivial

theorem Question.checkCost_errs (q : Question) (response : Response) :
    ErrsWith IsVerdict (q.checkCost response) := by
  unfold checkCost
  split
  · exact .error trivial
  · exact .ok _

theorem Question.answerIn_errs (q : Question) (r : QueryResponse) :
    ErrsWith IsVerdict (q.answerIn r) := by
  unfold answerIn
  split
  · split
    · exact .ok _
    · exact .error trivial
  · exact .error trivial

theorem findingOf_errs (r : QueryResponse) : ErrsWith IsVerdict (findingOf r) := by
  unfold findingOf
  split
  · exact .ok _
  · split
    · exact .ok _
    · split
      · split
        · exact .ok _
        · split
          · exact .ok _
          · exact .ok _
      · exact .error trivial

/-- A poll ends with the error that its finding has. -/
theorem Resolver.endPoll_errs {P : ClientError → Prop} {r : Resolver} {now : Instant}
    {result : Except ClientError Response}
    (h : ErrsWith P ((result.bind r.question.check).bind findingOf)) :
    ErrsWith P (r.endPoll now result).1 := by
  unfold endPoll
  split
  · rename_i e hfinding
    exact .error (h e hfinding)
  · exact .ok _

theorem Errand.verdictOf_errs (id : TransactionId) (response : Response) :
    ErrsWith IsVerdict (verdictOf id response) := by
  cases response with
  | transaction precheck => exact .ok _
  | query r => exact .error trivial

/-- **What becomes of a call** is a response, or an error of the channel or the deadline. -/
theorem Upshot.response_errs (timeout : Duration) (upshot : Upshot) :
    ErrsWith IsTransport (upshot.response timeout) := by
  rcases upshot with _ | error | response
  · exact .error trivial
  · exact .error trivial
  · exact .ok response

end Sources

/-! ## 3. What an errand may send -/

namespace Errand

/-- **The outcome is known already**: a poll of a resolver that has it. -/
def IsKnown : Errand → Prop
  | .poll r => r.outcome? ≠ none
  | _ => False

/-- **The requests an errand may send**: transactions if it submits a draft, and else queries. -/
def MaySend : Errand → Request → Prop
  | .submit _, r => ∃ t, r = .transaction t
  | _, r => ∃ q, r = .query q

/-- **The result tells what was sent.**  Nothing if the errand found the connection closed or something wrong
with a draft, or if the outcome was known; and else one request. -/
def Tells (e : Errand) (sent : List Request) : Except ClientError Gain → Prop
  | .error (.missingField _) | .error (.unbalancedTransfer _) | .error (.autoRenewPeriod _)
  | .error .staleSignature | .error .connectionClosed => sent = []
  | .error (.submission _) | .error (.timeout _) | .error (.preCheck _)
  | .error (.unexpectedResponse _) => sent.length = 1
  | .error (.connection _ _) => False
  | .ok _ => (e.IsKnown → sent = []) ∧ (¬ e.IsKnown → sent.length = 1)

/-- **An errand is modest** with what it sends: one request at the most, of its own kind, and as many as its
result tells if it has one. -/
structure Modest (e : Errand) (sent : List Request) (result? : Option (Except ClientError Gain)) :
    Prop where
  length_le : sent.length ≤ 1
  maySend : ∀ r ∈ sent, e.MaySend r
  tells : ∀ result ∈ result?, e.Tells sent result

/-- **What an order of an errand is like**: its request is of the errand's kind, an error in place of the
response is the result, and what the result finds wrong with a response it finds in the response. -/
structure Order.Fits (o : Order) (e : Errand) : Prop where
  maySend : e.MaySend o.request
  unknown : ¬ e.IsKnown
  relays : ∀ now error, o.conclude now (.error error) = .error error
  judges : ∀ now response, ErrsWith ClientError.IsVerdict (o.conclude now (.ok response))

section Results

variable {e : Errand} {o : Order} {now : Instant}

/-- Whoever has sent nothing is modest, if the result tells so. -/
theorem Modest.unsent {result? : Option (Except ClientError Gain)}
    (h : ∀ result ∈ result?, e.Tells [] result) : e.Modest [] result? :=
  ⟨Nat.zero_le 1, nofun, h⟩

/-- Whoever has sent an order is modest, if the result tells so. -/
theorem Order.Fits.modest (h : o.Fits e) {result? : Option (Except ClientError Gain)}
    (hresult : ∀ result ∈ result?, e.Tells [o.request] result) : e.Modest [o.request] result? where
  length_le := Nat.le_refl 1
  maySend _ hr := List.mem_singleton.mp hr ▸ h.maySend
  tells := hresult

/-- A connection that was closed tells that nothing was sent. -/
theorem Order.Fits.tells_closed (h : o.Fits e) :
    e.Tells [] (o.conclude now (.error .connectionClosed)) := by
  rw [h.relays]
  exact rfl

/-- **What becomes of a call tells that it was made.** -/
theorem Order.Fits.tells_called (h : o.Fits e) {result : Except ClientError Response}
    (hresult : ErrsWith ClientError.IsTransport result) :
    e.Tells [o.request] (o.conclude now result) := by
  -- An error in place of the response is handed on as it is; a response may still be refused.
  cases result with
  | error error =>
    have htransport := hresult error rfl
    rw [h.relays]
    cases error with
    | submission | timeout => exact rfl
    | connection | connectionClosed | unbalancedTransfer | autoRenewPeriod | missingField
    | staleSignature | preCheck | unexpectedResponse => exact htransport.elim
  | ok response =>
    have hverdict := h.judges now response
    cases hconclude : o.conclude now (.ok response) with
    | ok gain => exact ⟨fun hknown => absurd hknown h.unknown, fun _ => rfl⟩
    | error error =>
      have hjudged := hverdict error hconclude
      cases error with
      | preCheck | unexpectedResponse => exact rfl
      | connection | connectionClosed | submission | timeout | unbalancedTransfer | autoRenewPeriod
      | missingField | staleSignature => exact hjudged.elim

/-- What is found wrong with a draft tells that nothing was sent. -/
theorem tells_local {error : ClientError} (h : error.IsLocal) : e.Tells [] (.error error) := by
  cases error with
  | missingField | unbalancedTransfer | autoRenewPeriod | staleSignature => exact rfl
  | connection | connectionClosed | submission | timeout | preCheck | unexpectedResponse =>
    exact h.elim

end Results

/-! ## 4. Preparations -/

section Preparations

variable [SignatureScheme]

/-- **A preparation that is done tells that nothing was sent, and an order fits its errand.** -/
theorem prepare_cases (e : Errand) (mint : Mint) (wall : Timestamp) (now : Instant) :
    (∃ result, (e.prepare mint wall now).1 = .done result ∧ e.Tells [] result)
      ∨ ∃ o, (e.prepare mint wall now).1 = .ordered o ∧ o.Fits e := by
  cases e with
  | submit d =>
    have herrs := d.close_errs mint wall
    rw [prepare]
    rcases hclose : d.close mint wall with ⟨error | ⟨id, t⟩, mint'⟩
    · exact .inl ⟨_, rfl, tells_local (herrs error (congrArg Prod.fst hclose))⟩
    · exact .inr ⟨_, rfl, ⟨t, rfl⟩, not_false, fun _ _ => rfl,
        fun _ response => verdictOf_errs id response⟩
  | ask q =>
    exact .inr ⟨_, rfl, ⟨_, rfl⟩, not_false, fun _ _ => rfl,
      fun _ response => (q.check_errs response).map⟩
  | askCost q =>
    exact .inr ⟨_, rfl, ⟨_, rfl⟩, not_false, fun _ _ => rfl,
      fun _ response => (q.checkCost_errs response).map⟩
  | answer q =>
    exact .inr ⟨_, rfl, ⟨_, rfl⟩, not_false, fun _ _ => rfl,
      fun _ response => ((q.check_errs response).bind q.answerIn_errs).map⟩
  | poll r =>
    rw [prepare]
    cases houtcome : r.outcome? with
    | some o =>
      have hknown : (Errand.poll r).IsKnown := by
        rw [IsKnown, houtcome]
        exact Option.some_ne_none o
      exact .inl ⟨_, rfl, fun _ => rfl, fun hnot => absurd hknown hnot⟩
    | none =>
      refine .inr ⟨_, rfl, ⟨_, rfl⟩, fun hknown => hknown houtcome, fun _ _ => rfl,
        fun later response => ?_⟩
      exact (Resolver.endPoll_errs (((r.beginPoll now).question.check_errs response).bind findingOf_errs)).map

variable {σ : Type}

omit [SignatureScheme] in
/-- What is made of the result of an operation. -/
theorem run_bind_mk {α β : Type} (x : ClientM σ α) (f : α → Except ClientError β)
    (s : ClientState σ) :
    (x >>= fun a => ExceptT.mk (pure (f a))).run s = ((x.run s).1.bind f, (x.run s).2) := by
  rw [ClientM.run_bind]
  rcases x.run s with ⟨_ | _, _⟩ <;> rfl

omit [SignatureScheme] in
theorem run_bind_pure {α β : Type} (x : ClientM σ α) (f : α → β) (s : ClientState σ) :
    (x >>= fun a => pure (f a)).run s = ((x.run s).1.map f, (x.run s).2) := by
  rw [ClientM.run_bind]
  rcases x.run s with ⟨_ | _, _⟩ <;> rfl

/-- **An errand is its preparation**, and one round trip if a request is ready. -/
theorem run_eq (c : Connection σ) (e : Errand) (s : ClientState σ) :
    (e.run c).run s = match e.prepare s.mint s.wall s.now with
      | (.done result, mint) => (result, { s with mint := mint })
      | (.ordered o, mint) =>
        let called := (c.call o.request).run { s with mint := mint }
        (o.conclude called.2.now called.1, called.2) := by
  cases e with
  | submit d =>
    have hclose : d.closeNow.run s
        = ((d.close s.mint s.wall).1, { s with mint := (d.close s.mint s.wall).2 }) := rfl
    rw [run, Connection.execute, run_bind_pure, ClientM.run_bind, hclose, prepare]
    rcases d.close s.mint s.wall with ⟨error | ⟨id, t⟩, mint⟩
    · rfl
    · dsimp only
      rw [ClientM.run_bind]
      rcases (c.call (.transaction t)).run { s with mint := mint } with ⟨_ | _ | _, after⟩ <;> rfl
  | ask q =>
    rw [run, run_bind_pure, Connection.ask, run_bind_mk]
    rfl
  | askCost q =>
    rw [run, run_bind_pure, Connection.askCost, run_bind_mk]
    rfl
  | answer q =>
    have hanswer : c.answer q = c.ask q >>= fun r => ExceptT.mk (pure (q.answerIn r)) := by
      unfold Connection.answer
      refine congrArg _ (funext fun r => ?_)
      unfold Question.answerIn
      split
      · cases r.answer <;> rfl
      · rfl
    rw [run, run_bind_pure, hanswer, run_bind_mk, Connection.ask, run_bind_mk]
    rfl
  | poll r =>
    -- A poll gives the resolver back as well, also when it fails; of this an errand keeps nothing.
    have hrun : ((poll r).run c).run s
        = (((c.poll r).run s).1.1.map .outcome, ((c.poll r).run s).2) := rfl
    rw [hrun, prepare]
    cases houtcome : r.outcome? with
    | some o =>
      rw [Connection.run_poll_of_some houtcome]
      rfl
    | none =>
      rw [Connection.run_poll houtcome]
      rfl

variable {c : Connection σ} {e : Errand} {s : ClientState σ}

theorem run_of_done {result : Except ClientError Gain}
    (h : (e.prepare s.mint s.wall s.now).1 = .done result) :
    ∃ mint, (e.run c).run s = (result, { s with mint := mint }) := by
  rw [run_eq]
  rcases hprepare : e.prepare s.mint s.wall s.now with ⟨preparation, mint⟩
  rw [hprepare] at h
  obtain rfl := h
  exact ⟨mint, rfl⟩

/-- The round trip begins where the errand began; only the mint may have moved on. -/
theorem run_of_ordered {o : Order} (h : (e.prepare s.mint s.wall s.now).1 = .ordered o) :
    ∃ s' : ClientState σ, s'.closed = s.closed ∧ s'.world = s.world
      ∧ (e.run c).run s = (o.conclude ((c.call o.request).run s').2.now ((c.call o.request).run s').1,
          ((c.call o.request).run s').2) := by
  rw [run_eq]
  rcases hprepare : e.prepare s.mint s.wall s.now with ⟨preparation, mint⟩
  rw [hprepare] at h
  obtain rfl := h
  exact ⟨{ s with mint := mint }, rfl, rfl, rfl⟩

end Preparations

end Errand

/-! ## 5. What happens on a shared connection -/

/-- **The errand and the calls for it agree**, however far it has come. -/
def Doing.Sound (d : Doing) (calls : List Request) : Prop :=
  match d.stage with
  | .ready o | .admitted o => o.Fits d.errand ∧ calls = []
  | .called o => o.Fits d.errand ∧ calls = [o.request]
  | .ended result => d.errand.Modest calls (some result)

/-- An errand that agrees with its calls is modest, whether it has ended or not. -/
theorem Doing.Sound.modest {d : Doing} {calls : List Request} (h : d.Sound calls) :
    d.errand.Modest calls d.result? := by
  obtain ⟨e, stage⟩ := d
  cases stage with
  | ready o | admitted o =>
    obtain ⟨-, rfl⟩ := h
    exact .unsent fun _ hresult => absurd hresult (Option.not_mem_none _)
  | called o =>
    obtain ⟨hfits, rfl⟩ := h
    exact hfits.modest fun _ hresult => absurd hresult (Option.not_mem_none _)
  | ended result => exact h

/-- Nobody is admitted by preparing. -/
theorem Errand.Preparation.stage_ne_admitted (preparation : Preparation) (o : Order) :
    preparation.stage ≠ .admitted o := by
  cases preparation <;> exact nofun

namespace Sharing

variable {s : Sharing} {place p : Nat} {new : Errand.Stage}

@[simp] theorem length_join {d : Doing} : (s.join d).doings.length = s.doings.length + 1 :=
  List.length_append

@[simp] theorem length_move : (s.move place new).doings.length = s.doings.length :=
  List.length_modify _ _ _

@[simp] theorem callsOf_move : (s.move place new).callsOf p = s.callsOf p := rfl

/-- Only the errand at the place moves. -/
theorem getElem?_move : (s.move place new).doings[p]?
    = if p = place then s.doings[p]?.map fun d => { d with stage := new } else s.doings[p]? := by
  rw [move, List.getElem?_modify]
  by_cases h : p = place
  · simp only [if_pos h, if_pos h.symm]
    rfl
  · simp only [if_neg h, if_neg (Ne.symm h), Option.map_eq_map, Option.map_id_fun', id]

theorem stage?_move : (s.move place new).stage? p
    = if p = place then (s.stage? p).map fun _ => new else s.stage? p := by
  rw [stage?, getElem?_move]
  split
  · rw [stage?, Option.map_map, Option.map_map]
    rfl
  · rfl

/-- What is at a place after a move was there before, but for the stage of the errand that moved. -/
theorem getElem?_move_cases {old : Errand.Stage} {d : Doing} (hstage : s.stage? place = some old)
    (hd : (s.move place new).doings[p]? = some d) :
    p ≠ place ∧ s.doings[p]? = some d
      ∨ p = place ∧ s.doings[p]? = some ⟨d.errand, old⟩ ∧ d.stage = new := by
  rw [getElem?_move] at hd
  split at hd
  · rename_i hp
    subst hp
    obtain ⟨⟨e, stage⟩, hbefore, rfl⟩ := Option.map_eq_some_iff.mp hd
    rw [stage?, hbefore] at hstage
    obtain rfl := Option.some.inj hstage
    exact .inr ⟨rfl, hbefore, rfl⟩
  · rename_i hp
    exact .inl ⟨hp, hd⟩

/-- Who is at a place was there before, or has just begun. -/
theorem stage?_join {d : Doing} {stage : Errand.Stage} (h : (s.join d).stage? p = some stage) :
    s.stage? p = some stage ∨ d.stage = stage := by
  rw [stage?, join, List.getElem?_append] at h
  split at h
  · exact .inl h
  · obtain ⟨d', hd', rfl⟩ := Option.map_eq_some_iff.mp h
    obtain rfl := List.mem_singleton.mp (List.mem_of_getElem? hd')
    exact .inr rfl

/-- A call is a call for one errand. -/
theorem callsOf_note_call (r : Request) : (s.note (.call place r)).callsOf p
    = if p = place then s.callsOf p ++ [r] else s.callsOf p := by
  unfold callsOf note
  rw [List.filterMap_append]
  by_cases h : p = place
  · simp [h]
  · simp [h, Ne.symm h]

@[simp] theorem callsOf_note_close : (s.note .close).callsOf p = s.callsOf p := by
  simp [callsOf, note]

@[simp] theorem closings_note_call (r : Request) : (s.note (.call place r)).closings = s.closings := by
  simp [closings, note]

@[simp] theorem closings_note_close : (s.note .close).closings = s.closings + 1 := by
  simp [closings, note]

/-! ## 6. What is kept -/

/-- **The errands agree with their calls**, nothing is sent for an errand that is not begun, and the channel
is let go by whoever has marked the connection. -/
structure Sound (s : Sharing) : Prop where
  agree : ∀ (place : Nat) (d : Doing), s.doings[place]? = some d → d.Sound (s.callsOf place)
  beyond : ∀ place, s.doings.length ≤ place → s.callsOf place = []
  once : s.closings + s.owed ≤ s.closed.toNat

theorem sound_start (closed : Bool) : (start closed).Sound where
  agree _ _ hd := nomatch hd
  beyond _ _ := rfl
  once := Nat.zero_le _

/-- **Beginning an errand keeps it so**, if nothing is to be sent for a result that is there already. -/
theorem Sound.join (h : s.Sound) {d : Doing} (hd : d.Sound []) : (s.join d).Sound where
  agree p d' hd' := by
    rcases Nat.lt_trichotomy p s.doings.length with hp | hp | hp
    · rw [Sharing.join, List.getElem?_append_left hp] at hd'
      exact h.agree p d' hd'
    · subst hp
      rw [Sharing.join, List.getElem?_concat_length] at hd'
      obtain rfl := Option.some.inj hd'
      have hnone : (s.join d).callsOf s.doings.length = [] := h.beyond _ (Nat.le_refl _)
      rwa [hnone]
    · rw [List.getElem?_eq_none (by rwa [length_join])] at hd'
      cases hd'
  beyond p hp := by
    rw [length_join] at hp
    exact h.beyond p (Nat.le_of_succ_le hp)
  once := h.once

/-- **Moving an errand on keeps it so**, if the errand agrees with its calls after it. -/
theorem Sound.move (h : s.Sound) {old : Errand.Stage} (hstage : s.stage? place = some old)
    (hnew : ∀ e, Doing.Sound ⟨e, old⟩ (s.callsOf place) →
      Doing.Sound ⟨e, new⟩ (s.callsOf place)) :
    (s.move place new).Sound where
  agree p d hd := by
    rw [callsOf_move]
    rcases getElem?_move_cases hstage hd with ⟨-, hbefore⟩ | ⟨rfl, hbefore, rfl⟩
    · exact h.agree p d hbefore
    · exact hnew _ (h.agree p _ hbefore)
  beyond p hp := h.beyond p (by simpa using hp)
  once := h.once

/-- **A call keeps it so**, if it is the errand's own. -/
theorem Sound.call (h : s.Sound) {o : Errand.Order} (hstage : s.stage? place = some (.admitted o)) :
    ((s.move place (.called o)).note (.call place o.request)).Sound where
  -- Moved on and not yet noted, the errand would not agree with its calls: the two are one step.
  agree p d hd := by
    rw [callsOf_note_call, callsOf_move]
    rcases getElem?_move_cases hstage hd with ⟨hne, hbefore⟩ | ⟨rfl, hbefore, hnew⟩
    · rw [if_neg hne]
      exact h.agree p d hbefore
    · obtain ⟨e, stage⟩ := d
      obtain rfl := hnew
      obtain ⟨hfits, hnone⟩ := h.agree p _ hbefore
      rw [if_pos rfl, hnone]
      exact ⟨hfits, rfl⟩
  beyond p hp := by
    have hbeyond : s.doings.length ≤ p := by simpa [note] using hp
    have hne : p ≠ place := by
      rintro rfl
      rw [stage?, List.getElem?_eq_none hbeyond] at hstage
      cases hstage
    rw [callsOf_note_call, if_neg hne]
    exact h.beyond p hbeyond
  once := by
    rw [closings_note_call]
    exact h.once

/-- **Who begins late does not get through**: the connection is closed, and at the places from `n` on nobody
has called the channel or has been admitted. -/
structure Late (n : Nat) (s : Sharing) : Prop where
  closed : s.closed = true
  unsent : ∀ place, n ≤ place → s.callsOf place = []
  refused : ∀ place o, n ≤ place → s.stage? place ≠ some (.admitted o)

variable {n : Nat}

theorem late_start : (start true).Late 0 :=
  ⟨rfl, fun _ _ => rfl, fun _ _ _ h => nomatch h⟩

/-- **Moving an errand on keeps it so**, unless the errand is admitted. -/
theorem Late.move (h : s.Late n) (hnew : ∀ o, new ≠ .admitted o) : (s.move place new).Late n where
  closed := h.closed
  unsent := h.unsent
  refused p o hp hstage := by
    rw [stage?_move] at hstage
    split at hstage
    · obtain ⟨_, -, hstage⟩ := Option.map_eq_some_iff.mp hstage
      exact hnew o hstage
    · exact h.refused p o hp hstage

/-! ## 7. Steps -/

variable [SignatureScheme]

/-- **What a step can be.** -/
inductive Stepped (timeout : Duration) (s : Sharing) : Happening → Sharing → Prop
  /-- It is passed over. -/
  | idle (h : Happening) : Stepped timeout s h s
  | begun (e : Errand) (mint : Mint) (wall : Timestamp) (now : Instant) :
    Stepped timeout s (.begin e mint wall now) (s.join ⟨e, (e.prepare mint wall now).1.stage⟩)
  | refused {place : Nat} {o : Errand.Order} (now : Instant) (hstage : s.stage? place = some (.ready o))
      (hclosed : s.closed = true) :
    Stepped timeout s (.look place now) (s.move place (.ended (o.conclude now (.error .connectionClosed))))
  | admitted {place : Nat} {o : Errand.Order} (now : Instant) (hstage : s.stage? place = some (.ready o))
      (hopen : s.closed = false) :
    Stepped timeout s (.look place now) (s.move place (.admitted o))
  | called {place : Nat} {o : Errand.Order} (hstage : s.stage? place = some (.admitted o)) :
    Stepped timeout s (.call place) ((s.move place (.called o)).note (.call place o.request))
  | finished {place : Nat} {o : Errand.Order} (upshot : Upshot) (now : Instant)
      (hstage : s.stage? place = some (.called o)) :
    Stepped timeout s (.finish place upshot now)
      (s.move place (.ended (o.conclude now (upshot.response timeout))))
  | marked (hopen : s.closed = false) :
    Stepped timeout s .mark { s with closed := true, owed := s.owed + 1 }
  | letGo (howed : s.owed ≠ 0) :
    Stepped timeout s .letGo ({ s with owed := s.owed - 1 }.note .close)

/-- **Every step is such.** -/
theorem stepped (timeout : Duration) (s : Sharing) (h : Happening) :
    Stepped timeout s h (s.step timeout h) := by
  cases h with
  | begin e mint wall now => exact .begun e mint wall now
  | look place now =>
    rw [step]
    split
    · rename_i o hstage
      cases hclosed : s.closed with
      | true => exact .refused now hstage hclosed
      | false => exact .admitted now hstage hclosed
    · exact .idle _
  | call place =>
    rw [step]
    split
    · rename_i o hstage
      exact .called hstage
    · exact .idle _
  | finish place upshot now =>
    rw [step]
    split
    · rename_i o hstage
      exact .finished upshot now hstage
    · exact .idle _
  | mark =>
    rw [step]
    cases hclosed : s.closed with
    | true => exact .idle _
    | false => exact .marked hclosed
  | letGo =>
    rw [step]
    split
    · exact .idle _
    · rename_i howed
      exact .letGo howed

/-- **Every step keeps it so.** -/
theorem Sound.step (h : s.Sound) (timeout : Duration) (happening : Happening) :
    (s.step timeout happening).Sound := by
  have hstepped := stepped timeout s happening
  generalize s.step timeout happening = s' at hstepped
  cases hstepped with
  | idle => exact h
  | begun e mint wall now =>
    refine h.join ?_
    rcases e.prepare_cases mint wall now with ⟨result, hdone, htells⟩ | ⟨o, hordered, hfits⟩
    · rw [hdone]
      refine Errand.Modest.unsent ?_
      rintro _ ⟨⟩
      exact htells
    · rw [hordered]
      exact ⟨hfits, rfl⟩
  | refused now hstage =>
    refine h.move hstage ?_
    rintro e ⟨hfits, hnone⟩
    rw [hnone]
    refine Errand.Modest.unsent ?_
    rintro _ ⟨⟩
    exact hfits.tells_closed
  | admitted now hstage => exact h.move hstage fun _ hready => hready
  | called hstage => exact h.call hstage
  | finished upshot now hstage =>
    refine h.move hstage ?_
    rintro e ⟨hfits, hone⟩
    rw [hone]
    refine hfits.modest ?_
    rintro _ ⟨⟩
    exact hfits.tells_called (upshot.response_errs timeout)
  | marked hopen =>
    refine ⟨h.agree, h.beyond, ?_⟩
    have honce := h.once
    rw [hopen] at honce
    exact Nat.succ_le_succ honce
  | letGo howed =>
    refine ⟨fun p d hd => ?_, fun p hp => ?_, ?_⟩
    · rw [callsOf_note_close]
      exact h.agree p d hd
    · rw [callsOf_note_close]
      exact h.beyond p hp
    · have honce : s.closings + s.owed ≤ s.closed.toNat := h.once
      rw [closings_note_close]
      change s.closings + 1 + (s.owed - 1) ≤ s.closed.toNat
      omega

theorem run_append (timeout : Duration) (s : Sharing) (before after : List Happening) :
    s.run timeout (before ++ after) = (s.run timeout before).run timeout after :=
  List.foldl_append

/-- **A whole run keeps it so**, by induction on what happens. -/
theorem Sound.run (h : s.Sound) (timeout : Duration) (happenings : List Happening) :
    (s.run timeout happenings).Sound := by
  induction happenings generalizing s with
  | nil => exact h
  | cons happening rest ih => exact ih (h.step timeout happening)

/-- **Whoever is not there when the connection is marked is late.** -/
theorem Sound.late_mark (h : s.Sound) (timeout : Duration) : (s.step timeout .mark).Late s.doings.length := by
  have hnobody : ∀ place o, s.doings.length ≤ place → s.stage? place ≠ some (.admitted o) := by
    intro place o hplace
    rw [stage?, List.getElem?_eq_none hplace]
    exact nofun
  rw [Sharing.step]
  split
  · rename_i hclosed
    exact ⟨hclosed, h.beyond, hnobody⟩
  · exact ⟨rfl, h.beyond, hnobody⟩

/-- **Every step keeps it so.** -/
theorem Late.step (h : s.Late n) (timeout : Duration) (happening : Happening) :
    (s.step timeout happening).Late n := by
  have hstepped := stepped timeout s happening
  generalize s.step timeout happening = s' at hstepped
  cases hstepped with
  | idle => exact h
  | begun e mint wall now =>
    refine ⟨h.closed, h.unsent, fun p o hp hstage => ?_⟩
    rcases stage?_join hstage with hstage | hstage
    · exact h.refused p o hp hstage
    · exact (e.prepare mint wall now).1.stage_ne_admitted o hstage
  | refused now hstage => exact h.move nofun
  | admitted now hstage hopen => cases hopen.symm.trans h.closed
  | @called place o hstage =>
    -- Whoever is admitted was there before the mark.
    have hearly : ∀ p, n ≤ p → p ≠ place := by
      rintro _ hp rfl
      exact h.refused _ o hp hstage
    have hmoved : (s.move place (.called o)).Late n := h.move nofun
    refine ⟨h.closed, fun p hp => ?_, hmoved.refused⟩
    rw [callsOf_note_call, if_neg (hearly p hp)]
    exact h.unsent p hp
  | finished upshot now hstage => exact h.move nofun
  | marked hopen => cases hopen.symm.trans h.closed
  | letGo howed =>
    refine ⟨h.closed, fun p hp => ?_, h.refused⟩
    rw [callsOf_note_close]
    exact h.unsent p hp

theorem Late.run (h : s.Late n) (timeout : Duration) (happenings : List Happening) :
    (s.run timeout happenings).Late n := by
  induction happenings generalizing s with
  | nil => exact h
  | cons happening rest ih => exact ih (h.step timeout happening)

end Sharing

/-! ## 8. Errands done alone -/

section Alone

variable {σ : Type} {c : Connection σ}

/-- Waiting gives what it waits for. -/
theorem Connection.result_await (p : Pending) (s : ClientState σ) :
    ((await p).run s).1 = p.result := by
  obtain ⟨due, result⟩ := p
  cases due <;> cases result <;> rfl

/-- **Something comes of every call**, whatever the channel does. -/
theorem Connection.result_pendingOf (c : Connection σ) (now : Instant) (d : Delivery) :
    ∃ upshot : Upshot, (c.pendingOf now d).result = upshot.response c.requestTimeout := by
  unfold pendingOf
  cases d with
  | never => exact ⟨none, rfl⟩
  | atOnce reply => exact ⟨some reply, rfl⟩
  | after delay reply =>
    dsimp only
    split
    · exact ⟨some reply, rfl⟩
    · exact ⟨none, rfl⟩

/-- **A round trip on an open connection** ends with what came of the call. -/
theorem Connection.result_call (r : Request) {s : ClientState σ} (hopen : s.closed = false) :
    ∃ upshot : Upshot, ((c.call r).run s).1 = upshot.response c.requestTimeout := by
  rw [run_call, if_neg (by simp [hopen]), result_await]
  exact c.result_pendingOf _ _

variable [SignatureScheme]

namespace Errand

/-- **What happens when an errand is done alone**, by what comes of its call. -/
def alone (e : Errand) (s : ClientState σ) (upshot : Upshot) (later : Instant) : List Happening :=
  [.begin e s.mint s.wall s.now, .look 0 s.now, .call 0, .finish 0 upshot later]

variable {e : Errand} {s : ClientState σ} {upshot : Upshot} {later : Instant} {timeout : Duration}

/-- What is done without the channel is done when it is begun. -/
theorem run_alone_of_done {result : Except ClientError Gain} (closed : Bool)
    (h : (e.prepare s.mint s.wall s.now).1 = .done result) :
    (Sharing.start closed).run timeout (e.alone s upshot later)
      = ⟨closed, 0, [⟨e, .ended result⟩], []⟩ := by
  have hbegin : (Sharing.start closed).step timeout (.begin e s.mint s.wall s.now)
      = ⟨closed, 0, [⟨e, .ended result⟩], []⟩ := by
    rw [Sharing.step, h]
    rfl
  rw [Sharing.run, alone, List.foldl_cons, hbegin]
  rfl

/-- An order meets a connection that is closed, or calls the channel. -/
theorem run_alone_of_ordered {o : Order} (closed : Bool)
    (h : (e.prepare s.mint s.wall s.now).1 = .ordered o) :
    (Sharing.start closed).run timeout (e.alone s upshot later)
      = if closed then
          ⟨true, 0, [⟨e, .ended (o.conclude s.now (.error .connectionClosed))⟩], []⟩
        else
          ⟨false, 0, [⟨e, .ended (o.conclude later (upshot.response timeout))⟩],
            [.call 0 o.request]⟩ := by
  have hbegin : (Sharing.start closed).step timeout (.begin e s.mint s.wall s.now)
      = ⟨closed, 0, [⟨e, .ready o⟩], []⟩ := by
    rw [Sharing.step, h]
    rfl
  rw [Sharing.run, alone, List.foldl_cons, hbegin]
  cases closed <;> rfl

/-- **An errand done alone is an errand on a connection that nobody else uses.** -/
theorem witness_eq_alone (e : Errand) (c : Connection σ) (s : ClientState σ) :
    ∃ upshot later,
      let shared := (Sharing.start s.closed).run c.requestTimeout (e.alone s upshot later)
      shared.doings = [⟨e, .ended (c.witness (e.run ·) s).1⟩]
        ∧ shared.callsOf 0 = (c.witness (e.run ·) s).2 := by
  unfold Connection.witness
  rcases e.prepare_cases s.mint s.wall s.now with ⟨result, hdone, -⟩ | ⟨o, hordered, hfits⟩
  · obtain ⟨mint, hrun⟩ := run_of_done (c := c.witnessed) (s := s.witnessed) hdone
    refine ⟨none, 0, ?_⟩
    rw [run_alone_of_done s.closed hdone, hrun]
    exact ⟨rfl, rfl⟩
  · obtain ⟨s', hclosed, hworld, hrun⟩ :=
      run_of_ordered (c := c.witnessed) (s := s.witnessed) hordered
    cases hc : s.closed with
    | true =>
      -- The errand ends with the look, so that it does not matter what would have come of a call.
      refine ⟨none, 0, ?_⟩
      rw [run_alone_of_ordered true hordered, hrun, Connection.run_call, if_pos (hclosed.trans hc),
        hfits.relays, hfits.relays]
      exact ⟨rfl, congrArg Prod.snd hworld.symm⟩
    | false =>
      obtain ⟨upshot, hupshot⟩ :=
        Connection.result_call (c := c.witnessed) o.request (hclosed.trans hc)
      refine ⟨upshot, ((c.witnessed.call o.request).run s').2.now, ?_⟩
      have hsent := c.sent_call o.request s'
      rw [hclosed.trans hc, hworld] at hsent
      rw [run_alone_of_ordered false hordered, hrun, hupshot]
      exact ⟨rfl, hsent.symm⟩

/-- **An errand done alone is modest**, and sends nothing on a connection that is closed. -/
theorem modest_alone (e : Errand) (c : Connection σ) (s : ClientState σ) :
    e.Modest (c.witness (e.run ·) s).2 (some (c.witness (e.run ·) s).1)
      ∧ (s.closed = true → (c.witness (e.run ·) s).2 = []) := by
  obtain ⟨upshot, later, hdoings, hcalls⟩ := e.witness_eq_alone c s
  have hsound := (Sharing.sound_start s.closed).run c.requestTimeout (e.alone s upshot later)
  have hended := hsound.agree 0 ⟨e, .ended (c.witness (e.run ·) s).1⟩ (by rw [hdoings]; rfl)
  rw [← hcalls]
  refine ⟨hended.modest, fun hclosed => ?_⟩
  rw [hclosed]
  exact (Sharing.late_start.run c.requestTimeout (e.alone s upshot later)).unsent 0 (Nat.le_refl 0)

end Errand

/-- **Closing alone is closing a connection that nobody else uses**: the channel is let go once, or not at
all if the connection was closed. -/
theorem Connection.close_eq_alone (c : Connection σ) (s : ClientState σ) :
    let shared := (Sharing.start s.closed).run c.requestTimeout [.mark, .letGo]
    shared.closed = true ∧ shared.closings = (if s.closed then 0 else 1)
      ∧ c.close.run s
        = (.ok (), { s with closed := true, world := c.channel.close^[shared.closings] s.world }) := by
  obtain ⟨wall, now, allowance, mint, closed, world⟩ := s
  cases closed <;> exact ⟨rfl, rfl, rfl⟩

end Alone

/-! ## 9. At most one request -/

section OneRequest

variable [SignatureScheme] {σ : Type}

/-- **At most one request for an errand.**  Whatever the connection, an errand that is done alone sends one
request at the most, of its own kind, and as many as its result tells; and none if the connection is closed.

The same is so of every errand on a shared connection, whatever happens on it and in whatever order, and
whether the errand has ended or not.  Nothing is sent for errands that are begun when the connection is
closed, or after somebody has begun to close it.  And the channel is let go once at the most.

The work is in `Sharing.Sound.step`, one case for each happening: the calls in the log are those that the
stages of the errands allow. -/
theorem at_most_one_request (c : Connection σ) :
    (∀ (e : Errand) (s : ClientState σ),
      let (result, sent) := c.witness (e.run ·) s
      e.Modest sent (some result) ∧ (s.closed = true → sent = []))
    ∧ ∀ (closed : Bool) (happenings : List Happening),
      let s := (Sharing.start closed).run c.requestTimeout happenings
      (∀ (place : Nat) (d : Doing), s.doings[place]? = some d →
          d.errand.Modest (s.callsOf place) d.result?)
        ∧ (∀ place, s.doings.length ≤ place → s.callsOf place = [])
        ∧ (closed = true → ∀ place, s.callsOf place = [])
        ∧ (∀ before after, happenings = before ++ .mark :: after → ∀ place,
            ((Sharing.start closed).run c.requestTimeout before).doings.length ≤ place →
              s.callsOf place = [])
        ∧ s.closings ≤ 1 := by
  refine ⟨fun e s => e.modest_alone c s, fun closed happenings => ?_⟩
  have hsound := (Sharing.sound_start closed).run c.requestTimeout happenings
  refine ⟨fun place d hd => (hsound.agree place d hd).modest, hsound.beyond, ?_, ?_, ?_⟩
  · rintro rfl place
    exact (Sharing.late_start.run c.requestTimeout happenings).unsent place (Nat.zero_le place)
  · rintro before after rfl
    have hbefore := (Sharing.sound_start closed).run c.requestTimeout before
    have hlate := (hbefore.late_mark c.requestTimeout).run c.requestTimeout after
    rw [Sharing.run_append]
    exact hlate.unsent
  · exact (Nat.le_add_right _ _).trans (hsound.once.trans (Bool.toNat_le _))

end OneRequest

namespace Trial

/-- **A question about an account.** -/
def inquiry : Errand :=
  .ask (.accountBalance (.simple 2))

/-- **A question is asked, and passes the look** at the connection. -/
def beforeClosing : List Happening :=
  [.begin inquiry .fresh ⟨1005, 0⟩ 0, .look 0 0]

/-- **Another is asked while the connection is being closed**, and then somebody closes it again. -/
def whileClosing : List Happening :=
  [.begin inquiry .fresh ⟨1005, 0⟩ 1, .look 1 1, .call 0, .call 1, .letGo, .finish 0 none 5, .mark,
    .letGo]

/-- The channel is called for the first question and then let go. -/
theorem run_closing [SignatureScheme] (timeout : Duration) :
    (Sharing.start false).run timeout (beforeClosing ++ .mark :: whileClosing)
      = ⟨true, 0,
          [⟨inquiry, .ended (.error (.timeout timeout))⟩, ⟨inquiry, .ended (.error .connectionClosed)⟩],
          [.call 0 (.query ⟨.answer, .accountBalance (.simple 2)⟩), .close]⟩ :=
  rfl

end Trial

open Trial in
/-- The question that passed the look is sent, also when the connection is closed in between; the other is
not. -/
theorem at_most_one_request_closing :
    letI := scheme
    let shared := (Sharing.start false).run connection.requestTimeout
      (beforeClosing ++ .mark :: whileClosing)
    let lost : Doing := ⟨inquiry, .ended (.error (.timeout connection.requestTimeout))⟩
    (shared.doings[0]? = some lost ∧ lost.errand.Modest (shared.callsOf 0) lost.result?
        ∧ shared.callsOf 0 = [.query ⟨.answer, .accountBalance (.simple 2)⟩])
      ∧ shared.callsOf 1 = [] ∧ shared.callsOf 2 = [] ∧ shared.closings = 1
      ∧ (connection.witness (inquiry.run ·) { client with closed := true }).2 = [] := by
  let := scheme
  obtain ⟨halone, hshared⟩ := at_most_one_request connection
  obtain ⟨hmodest, hbeyond, -, hlate, -⟩ := hshared false (beforeClosing ++ .mark :: whileClosing)
  have hrun := run_closing connection.requestTimeout
  have hlost := congrArg (fun s : Sharing => s.doings[0]?) hrun
  have hlength := congrArg (fun s : Sharing => s.doings.length) hrun
  refine ⟨⟨hlost, hmodest 0 _ hlost, congrArg (Sharing.callsOf · 0) hrun⟩, ?_, ?_, ?_, ?_⟩
  · exact hlate beforeClosing whileClosing rfl 1 (Nat.le_refl 1)
  · exact hbeyond 2 (Nat.le_of_eq hlength)
  · exact congrArg Sharing.closings hrun
  · exact (halone inquiry { client with closed := true }).2 rfl

end ShardLedger
