import ShardLedger.Proofs.Admission
import ShardLedger.Proofs.TableTotal
/-
What a transfer means, leg by leg.

A transfer adds its legs up in a table, checks the table in the order of its accounts and stops at the
first account that cannot bear its net amount.  None of this shows in the end: a transfer succeeds
exactly if its amounts cancel and every account that is named can bear the exact sum of its legs, and it
then moves every account by this sum.  So of the legs only two things count, which accounts they name
and what the legs of each account sum to; in what order they stand, and into how many legs an amount is
cut, does not.
-/

set_option autoImplicit false

namespace ShardLedger

namespace Ledger

/-! ## 1. The sum of all legs -/

/-- **The exact sum of all legs.** -/
def totalOf (legs : List AccountAmount) : Int :=
  (legs.map fun leg => leg.amount.toInt).sum

/-- Adding legs up, all entries together gain all legs. -/
theorem sum_values_foldl_post (legs : List AccountAmount) (net : Table AccountId Int) :
    (legs.foldl (fun net leg => post net leg.accountId leg.amount.toInt) net).values.sum
      = net.values.sum + totalOf legs := by
  induction legs generalizing net with
  | nil => exact (Int.add_zero _).symm
  | cons leg legs ih =>
    have hset := Table.sum_values_set net leg.accountId
      ((net.get? leg.accountId).getD 0 + leg.amount.toInt)
    have htotal : totalOf (leg :: legs) = leg.amount.toInt + totalOf legs := by
      rw [totalOf, List.map_cons, List.sum_cons, totalOf]
    rw [List.foldl_cons, ih, post, htotal]
    omega

/-- The net amounts sum to what the legs sum to. -/
theorem sum_values_netOf (legs : List AccountAmount) :
    (netOf legs).values.sum = totalOf legs := by
  rw [netOf, sum_values_foldl_post]
  exact Int.zero_add _

/-- The net amount of an account is the sum of its legs, nothing if it has none. -/
theorem getD_get?_netOf (legs : List AccountAmount) (id : AccountId) :
    ((netOf legs).get? id).getD 0 = legSum id legs := by
  rw [get?_netOf]
  split
  · rfl
  · rename_i h
    rw [legSum_eq_zero h, Option.getD_none]

/-! ## 2. When the checks pass -/

/-- The check of an account passes with the balance that settles its net amount, and no other. -/
theorem settled_eq_ok {l : Ledger} {id : AccountId} {delta : Int} {balance : UInt64} :
    l.settled id delta = .ok balance ↔ l.Settles id delta balance := by
  refine ⟨settles_of_settled, fun ⟨a, ha, hlive, hbalance⟩ => ?_⟩
  have hlt : balance.toNat < UInt64.size := balance.toNat_lt
  have hword : toU64? ((a.balance.toNat : Int) + delta) = some balance := by
    rw [← hbalance, toU64?, if_pos ⟨by omega, by omega⟩, Int.toNat_natCast, UInt64.ofNat_toNat]
  rw [settled, liveAccount_eq_ok.mpr ⟨ha, hlive⟩]
  simp only [bind, Except.bind, hword]
  rw [if_neg (by omega)]

/-- A settlement passes exactly if every net amount can be settled.  The induction is on the net
amounts, since the first that cannot be settled ends the checks. -/
theorem settlement_isOk {l : Ledger} {net : List (AccountId × Int)} :
    (∃ settled, l.settlement net = .ok settled)
      ↔ ∀ e ∈ net, ∃ balance, l.Settles e.1 e.2 balance := by
  constructor
  · rintro ⟨settled, h⟩ e he
    obtain ⟨hmap, hall⟩ := settlement_entries h
    rw [← hmap] at he
    obtain ⟨s, hs, rfl⟩ := List.mem_map.mp he
    exact ⟨s.2.1, hall s hs⟩
  · intro h
    induction net with
    | nil => exact ⟨[], rfl⟩
    | cons e net ih =>
      obtain ⟨balance, hbalance⟩ := h e List.mem_cons_self
      obtain ⟨rest, hrest⟩ := ih fun x hx => h x (List.mem_cons_of_mem _ hx)
      refine ⟨(e.1, balance, e.2) :: rest, ?_⟩
      rw [settlement] at hrest ⊢
      rw [List.mapM_cons, settled_eq_ok.mpr hbalance, hrest]
      rfl

/-- **An account bears its legs**: it is there and not deleted, and with the exact sum of its legs its
balance is neither negative nor too large. -/
def Bears (l : Ledger) (legs : List AccountAmount) (id : AccountId) : Prop :=
  ∃ a, l.accounts.get? id = some a ∧ a.deleted = false
    ∧ 0 ≤ a.balance.toNat + legSum id legs ∧ a.balance.toNat + legSum id legs < 2 ^ 64

/-- An account bears its legs if there is a balance that settles their sum. -/
theorem exists_settles_iff {l : Ledger} {legs : List AccountAmount} {id : AccountId} :
    (∃ balance, l.Settles id (legSum id legs) balance) ↔ l.Bears legs id := by
  constructor
  · rintro ⟨balance, a, ha, hlive, hbalance⟩
    have hlt := balance.toNat_lt
    exact ⟨a, ha, hlive, by omega, by omega⟩
  · rintro ⟨a, ha, hlive, hlo, hhi⟩
    refine ⟨UInt64.ofNat (a.balance.toNat + legSum id legs).toNat, a, ha, hlive, ?_⟩
    have hsize : ((a.balance.toNat : Int) + legSum id legs).toNat < UInt64.size := by
      have : UInt64.size = 2 ^ 64 := rfl
      omega
    rw [UInt64.toNat_ofNat_of_lt' hsize, Int.toNat_of_nonneg hlo]

/-- **A transfer can be made**: its amounts cancel, and every account that it names bears its legs. -/
structure Transferable (l : Ledger) (legs : List AccountAmount) : Prop where
  cancels : totalOf legs = 0
  bears : ∀ id ∈ named legs, l.Bears legs id

/-- The checks of a transfer pass exactly if every account named bears its legs. -/
theorem settlement_netOf_isOk {l : Ledger} {legs : List AccountAmount} :
    (∃ settled, l.settlement (netOf legs).entries = .ok settled)
      ↔ ∀ id ∈ named legs, l.Bears legs id := by
  rw [settlement_isOk]
  constructor
  · intro h id hid
    refine exists_settles_iff.mp (h (id, legSum id legs) ?_)
    rw [Table.mem_entries_iff, get?_netOf, if_pos hid]
  · rintro h ⟨id, delta⟩ he
    rw [Table.mem_entries_iff, get?_netOf] at he
    split at he
    · rename_i hid
      obtain rfl := Option.some.inj he
      exact exists_settles_iff.mpr (h id hid)
    · cases he

/-! ## 3. What is written -/

/-- Adding the entries of a table to a journal, an entry of the journal gains the entry of the table.
The induction is on the entries: behind the one that is added no other is of the same account. -/
theorem getD_foldl_post {es : List (AccountId × Int)} (h : Ascending es)
    (journal : Table AccountId Int) (id : AccountId) :
    ((es.foldl (fun journal e => post journal e.1 e.2) journal).get? id).getD 0
      = (journal.get? id).getD 0 + (Table.find? id es).getD 0 := by
  induction es generalizing journal with
  | nil => exact (Int.add_zero _).symm
  | cons e es ih =>
    obtain ⟨hlater, hes⟩ := List.pairwise_cons.mp h
    rw [List.foldl_cons, ih hes, get?_post, Table.find?]
    by_cases hid : id = e.1
    · have hnone : Table.find? e.1 es = none := Table.find?_eq_none_of_forall_lt hlater
      rw [hid, if_pos rfl, if_pos Std.ReflCmp.compare_self, hnone, Option.getD_some,
        Option.getD_some, Option.getD_none, Int.add_zero]
    · rw [if_neg hid, if_neg fun hc => hid (Std.LawfulEqOrd.compare_eq_iff_eq.mp hc)]

/-- Settling posts the net amounts. -/
theorem journal_foldl_settle (settled : List (AccountId × UInt64 × Int)) (l : Ledger) :
    (settled.foldl settle l).journal
      = (settled.map fun e => (e.1, e.2.2)).foldl (fun journal e => post journal e.1 e.2)
          l.journal := by
  induction settled generalizing l with
  | nil => rfl
  | cons e settled ih => exact ih (settle l e)

/-- **What a transfer leaves**: the accounts it names have moved by the exact sum of their legs and are
otherwise as before, all other accounts are as before, the journal has gained the same sums, and nothing
else has changed. -/
structure Transferred (l : Ledger) (legs : List AccountAmount) (l' : Ledger) : Prop
    extends OnlyAccounts l l' where
  moved : ∀ id ∈ named legs, ∃ a, ∃ balance : UInt64, l.accounts.get? id = some a
    ∧ (balance.toNat : Int) = a.balance.toNat + legSum id legs
    ∧ l'.accounts.get? id = some { a with balance := balance }
  unmoved : ∀ id ∉ named legs, l'.accounts.get? id = l.accounts.get? id
  noted : ∀ id, (l'.journal.get? id).getD 0 = (l.journal.get? id).getD 0 + legSum id legs

/-- What settling the net amounts leaves. -/
theorem transferred_foldl_settle {l : Ledger} {legs : List AccountAmount}
    {settled : List (AccountId × UInt64 × Int)}
    (h : l.settlement (netOf legs).entries = .ok settled) :
    l.Transferred legs (settled.foldl settle l) where
  toOnlyAccounts := onlyAccounts_foldl_settle settled l
  moved id hid := by
    rcases settled_account_cases h id with ⟨hnone, -⟩ | ⟨delta, a, balance, hnet, ha, -, hb, hafter⟩
    · rw [get?_netOf, if_pos hid] at hnone
      cases hnone
    · rw [get?_netOf, if_pos hid] at hnet
      obtain rfl := Option.some.inj hnet
      exact ⟨a, balance, ha, hb, hafter⟩
  unmoved id hid := by
    rcases settled_account_cases h id with ⟨-, hafter⟩ | ⟨delta, a, balance, hnet, -⟩
    · exact hafter
    · rw [get?_netOf, if_neg hid] at hnet
      cases hnet
  noted id := by
    rw [journal_foldl_settle, (settlement_entries h).1, getD_foldl_post (netOf legs).ascending]
    exact congrArg _ (getD_get?_netOf legs id)

/-! ## 4. What counts of the legs -/

/-- **Legs come to the same**: they name the same accounts, each with the same sum. -/
structure SameNet (legs legs' : List AccountAmount) : Prop where
  mem_named : ∀ id, id ∈ named legs ↔ id ∈ named legs'
  legSum : ∀ id, legSum id legs = legSum id legs'

/-- **Legs regrouped**: the order is changed, or some legs of one account are replaced by other legs of
the account with the same exact sum, one after the other any number of times. -/
inductive Regrouped : List AccountAmount → List AccountAmount → Prop
  | permuted {legs legs' : List AccountAmount} (perm : legs.Perm legs') : Regrouped legs legs'
  | recut (id : AccountId) (before after : List AccountAmount) {part part' : List AccountAmount}
    (nonempty : part ≠ []) (nonempty' : part' ≠ [])
    (own : ∀ leg ∈ part, leg.accountId = id) (own' : ∀ leg ∈ part', leg.accountId = id)
    (sum : totalOf part = totalOf part') :
    Regrouped (before ++ part ++ after) (before ++ part' ++ after)
  | trans {legs legs' legs'' : List AccountAmount} :
    Regrouped legs legs' → Regrouped legs' legs'' → Regrouped legs legs''

theorem named_append (legs legs' : List AccountAmount) :
    named (legs ++ legs') = named legs ++ named legs' :=
  List.map_append

theorem legSum_append (id : AccountId) (legs legs' : List AccountAmount) :
    legSum id (legs ++ legs') = legSum id legs + legSum id legs' := by
  simp only [legSum, List.filter_append, List.map_append, List.sum_append]

section OneAccount

variable {id : AccountId} {part : List AccountAmount}

/-- Legs of one account name this account. -/
theorem mem_named_of_own (hne : part ≠ []) (hown : ∀ leg ∈ part, leg.accountId = id)
    (k : AccountId) : k ∈ named part ↔ k = id := by
  unfold named
  rw [List.mem_map]
  constructor
  · rintro ⟨leg, hleg, rfl⟩
    exact hown leg hleg
  · rintro rfl
    obtain ⟨leg, hleg⟩ := List.exists_mem_of_ne_nil part hne
    exact ⟨leg, hleg, hown leg hleg⟩

/-- Legs of one account sum to what all of them sum to. -/
theorem legSum_of_own (hown : ∀ leg ∈ part, leg.accountId = id) :
    legSum id part = totalOf part := by
  have hall : part.filter (fun leg => leg.accountId = id) = part :=
    List.filter_eq_self.mpr fun leg hleg => decide_eq_true (hown leg hleg)
  rw [legSum, hall, totalOf]

end OneAccount

/-- Legs regrouped come to the same. -/
theorem Regrouped.sameNet {legs legs' : List AccountAmount} (h : Regrouped legs legs') :
    SameNet legs legs' := by
  induction h with
  | permuted perm => exact ⟨fun id => (perm.map _).mem_iff, fun id => ((perm.filter _).map _).sum_eq⟩
  | @recut id before after part part' nonempty nonempty' own own' sum =>
    refine ⟨fun k => ?_, fun k => ?_⟩
    · simp only [named_append, List.mem_append, mem_named_of_own nonempty own,
        mem_named_of_own nonempty' own']
    · have hpart : Ledger.legSum k part = Ledger.legSum k part' := by
        by_cases hk : k = id
        · rw [hk, legSum_of_own own, legSum_of_own own', sum]
        · rw [legSum_eq_zero, legSum_eq_zero]
          · exact fun hm => hk ((mem_named_of_own nonempty' own' k).mp hm)
          · exact fun hm => hk ((mem_named_of_own nonempty own k).mp hm)
      rw [legSum_append, legSum_append, legSum_append, legSum_append, hpart]
  | trans _ _ ih ih' =>
    exact ⟨fun id => (ih.mem_named id).trans (ih'.mem_named id),
      fun id => (ih.legSum id).trans (ih'.legSum id)⟩

/-- Legs that come to the same have the same table of net amounts. -/
theorem SameNet.netOf_eq {legs legs' : List AccountAmount} (h : SameNet legs legs') :
    netOf legs = netOf legs' := by
  refine Table.ext_get? fun id => ?_
  simp only [get?_netOf, h.mem_named id, h.legSum id]

/-- Of the legs only the net amounts count. -/
theorem SameNet.transfer_eq {legs legs' : List AccountAmount} (h : SameNet legs legs') (l : Ledger) :
    l.transfer legs' = l.transfer legs := by
  rw [transfer, transfer, h.netOf_eq]

/-! ## 5. The meaning of a transfer -/

/-- A transfer succeeds exactly if it can be made, and then leaves what it should. -/
theorem transfer_cases (l : Ledger) (legs : List AccountAmount) :
    ((l.transfer legs).1 = .ofStatus .success ∧ l.Transferable legs
        ∧ l.Transferred legs (l.transfer legs).2)
      ∨ ((l.transfer legs).1.status ≠ .success ∧ ¬ l.Transferable legs
        ∧ (l.transfer legs).2 = l) := by
  rw [transfer, sum_values_netOf]
  by_cases hsum : totalOf legs = 0
  · rw [if_neg (not_not_intro hsum)]
    cases hs : l.settlement (netOf legs).entries with
    | ok settled =>
      have hbears := settlement_netOf_isOk.mp ⟨settled, hs⟩
      exact .inl ⟨rfl, ⟨hsum, hbears⟩, transferred_foldl_settle hs⟩
    | error status =>
      refine .inr ⟨?_, fun ht => ?_, rfl⟩
      · -- No check fails with success.
        have hfails := failsWith_settlement l _ status hs
        rintro rfl
        revert hfails
        decide
      · obtain ⟨settled, hok⟩ := settlement_netOf_isOk.mpr ht.bears
        rw [hs] at hok
        cases hok
  · rw [if_pos hsum]
    exact .inr ⟨by simp [Receipt.ofStatus], fun ht => hsum ht.cancels, rfl⟩

/-- **The exact meaning of a transfer.**  A transfer ends in success exactly if its amounts cancel and
every account that it names is there, is not deleted and can bear the exact sum of its legs.  If it
does, every account named has this sum added, and nothing else but the journal changes; if it does not,
nothing changes at all.  Legs regrouped in any way have the same outcome, with the same receipt, the
same accounts and the same journal.

The work is in `transfer_cases`, and for regrouped legs in `SameNet.transfer_eq`. -/
theorem transfer_meaning (l : Ledger) (legs : List AccountAmount) :
    ((l.transfer legs).1.status = .success ↔ l.Transferable legs)
      ∧ (l.Transferable legs → l.Transferred legs (l.transfer legs).2)
      ∧ (¬ l.Transferable legs → (l.transfer legs).2 = l)
      ∧ ∀ legs', Regrouped legs legs' → l.transfer legs' = l.transfer legs := by
  have hregroup : ∀ legs', Regrouped legs legs' → l.transfer legs' = l.transfer legs :=
    fun legs' h => h.sameNet.transfer_eq l
  rcases transfer_cases l legs with ⟨hok, hcan, hleft⟩ | ⟨hfail, hcannot, hsame⟩
  · refine ⟨iff_of_true ?_ hcan, fun _ => hleft, fun hnot => absurd hcan hnot, hregroup⟩
    rw [hok]
    rfl
  · exact ⟨iff_of_false hfail hcannot, fun hcan => absurd hcan hcannot, fun _ => hsame, hregroup⟩

open Trial in
set_option maxRecDepth 10000 in
/-- An account pays all that it holds in two legs of one transfer, and in one of another. -/
theorem transfer_meaning_recut :
    let legs := [⟨.simple 4, -300⟩, ⟨.simple 5, 0⟩, ⟨.simple 4, -200⟩, ⟨.simple 5, 500⟩]
    let legs' := [⟨.simple 5, 500⟩, ⟨.simple 4, -500⟩]
    ledger.Transferable legs ∧ Regrouped legs legs'
      ∧ ledger.Transferred legs (ledger.transfer legs).2
      ∧ ((ledger.transfer legs).2.balance? (.simple 4), (ledger.transfer legs).2.balance? (.simple 5))
          = (some 0, some 500)
      ∧ ledger.transfer legs' = ledger.transfer legs := by
  intro legs legs'
  obtain ⟨hiff, hleft, -, hregroup⟩ := transfer_meaning ledger legs
  have hcan : ledger.Transferable legs := hiff.mp (by decide +kernel)
  -- The legs are sorted by account, and then those of each account put together.
  have hsort : Regrouped legs
      [⟨.simple 5, 0⟩, ⟨.simple 5, 500⟩, ⟨.simple 4, -300⟩, ⟨.simple 4, -200⟩] :=
    .permuted (by decide)
  have hgain : Regrouped
      ([] ++ [⟨.simple 5, 0⟩, ⟨.simple 5, 500⟩] ++ [⟨.simple 4, -300⟩, ⟨.simple 4, -200⟩])
      ([] ++ [⟨.simple 5, 500⟩] ++ [⟨.simple 4, -300⟩, ⟨.simple 4, -200⟩]) :=
    .recut (.simple 5) _ _ (by decide) (by decide) (by decide) (by decide) (by decide)
  have hloss : Regrouped
      ([⟨.simple 5, 500⟩] ++ [⟨.simple 4, -300⟩, ⟨.simple 4, -200⟩] ++ [])
      ([⟨.simple 5, 500⟩] ++ [⟨.simple 4, -500⟩] ++ []) :=
    .recut (.simple 4) _ _ (by decide) (by decide) (by decide) (by decide) (by decide)
  have hlegs : Regrouped legs legs' := hsort.trans (hgain.trans hloss)
  exact ⟨hcan, hlegs, hleft hcan, by decide +kernel, hregroup legs' hlegs⟩

end Ledger

end ShardLedger
