import ShardLedger.Proofs.Moves
import Mathlib.Algebra.Order.BigOperators.Group.List
import Mathlib.Algebra.Order.Group.Int
import Mathlib.Tactic.ByContra
/-
What a settled transfer does, account by account.

A transfer first adds its legs up to one net amount for each account named, then checks every account
against its net amount, and only then writes.  Since the accounts of a table of net amounts are
distinct, the writes do not meet: an account that is named ends with its balance plus its exact net
amount, and any other stays as it was.
-/

set_option autoImplicit false

namespace ShardLedger

/-- The keys of a table are distinct. -/
theorem Table.nodup_keys {κ α : Type} [Ord κ] [Std.TransOrd κ] (t : Table κ α) :
    (t.entries.map Prod.fst).Nodup := by
  refine List.pairwise_map.mpr (t.ascending.imp fun {a b} hlt heq => ?_)
  have hself : compare b.1 b.1 = .eq := Std.ReflCmp.compare_self
  rw [heq, hself] at hlt
  exact absurd hlt (by decide)

namespace Ledger

/-! ## 1. Net amounts -/

/-- **The accounts that legs name.** -/
def named (legs : List AccountAmount) : List AccountId :=
  legs.map (·.accountId)

/-- **The exact sum of the legs of an account.** -/
def legSum (id : AccountId) (legs : List AccountAmount) : Int :=
  ((legs.filter fun leg => leg.accountId = id).map fun leg => leg.amount.toInt).sum

theorem named_cons (leg : AccountAmount) (legs : List AccountAmount) :
    named (leg :: legs) = leg.accountId :: named legs :=
  List.map_cons

theorem legSum_cons (id : AccountId) (leg : AccountAmount) (legs : List AccountAmount) :
    legSum id (leg :: legs)
      = (if leg.accountId = id then leg.amount.toInt else 0) + legSum id legs := by
  unfold legSum
  by_cases h : leg.accountId = id
  · rw [List.filter_cons_of_pos (by simpa using h), if_pos h, List.map_cons, List.sum_cons]
  · rw [List.filter_cons_of_neg (by simpa using h), if_neg h, Int.zero_add]

/-- An account without a leg has nothing to add up. -/
theorem legSum_eq_zero {id : AccountId} {legs : List AccountAmount}
    (h : id ∉ named legs) : legSum id legs = 0 := by
  have hnone : legs.filter (fun leg => leg.accountId = id) = [] := by
    refine List.filter_eq_nil_iff.mpr fun leg hleg => ?_
    simp only [decide_eq_true_eq]
    exact fun hid => h (List.mem_map.mpr ⟨leg, hleg, hid⟩)
  rw [legSum, hnone, List.map_nil, List.sum_nil]

/-- A look-up after adding to an entry. -/
theorem get?_post (net : Table AccountId Int) (id k : AccountId) (delta : Int) :
    (post net id delta).get? k
      = if k = id then some ((net.get? id).getD 0 + delta) else net.get? k := by
  rw [post, Table.get?_set]

/-- Adding legs up, an entry gains the legs of its account.  The induction is on the legs, for any
table they are added to. -/
theorem get?_foldl_post (legs : List AccountAmount) (net : Table AccountId Int) (id : AccountId) :
    (legs.foldl (fun net leg => post net leg.accountId leg.amount.toInt) net).get? id
      = if id ∈ named legs then some ((net.get? id).getD 0 + legSum id legs)
        else net.get? id := by
  induction legs generalizing net with
  | nil => simp [named]
  | cons leg legs ih =>
    rw [List.foldl_cons, ih, get?_post, legSum_cons, named_cons]
    simp only [List.mem_cons]
    by_cases hid : id = leg.accountId
    · rw [← hid]
      by_cases hm : id ∈ named legs
      · simp only [if_pos hm, if_true, Option.getD_some, true_or, Option.some.injEq]
        omega
      · -- No leg of this account follows, so what follows sums to nothing.
        simp only [if_neg hm, if_true, true_or, legSum_eq_zero hm, Int.add_zero]
    · have hne : ¬ leg.accountId = id := fun h => hid h.symm
      simp only [hid, if_neg hne, if_false, false_or, Int.zero_add]

/-- The net amount of an account is the sum of its legs. -/
theorem get?_netOf (legs : List AccountAmount) (id : AccountId) :
    (netOf legs).get? id
      = if id ∈ named legs then some (legSum id legs) else none := by
  rw [netOf, get?_foldl_post, Table.get?_empty, Option.getD_none, Int.zero_add]

/-- A negative net amount has a negative leg. -/
theorem exists_negative_leg {legs : List AccountAmount} {id : AccountId} {delta : Int}
    (h : (netOf legs).get? id = some delta) (hneg : delta < 0) :
    ∃ leg ∈ legs, leg.accountId = id ∧ leg.amount < 0 := by
  rw [get?_netOf] at h
  split at h
  · obtain rfl := Option.some.inj h
    -- Were no leg of the account negative, neither would their sum be.
    by_contra hall
    have hsum : 0 ≤ legSum id legs := by
      refine List.sum_nonneg fun x hx => ?_
      obtain ⟨leg, hleg, rfl⟩ := List.mem_map.mp hx
      obtain ⟨hmem, hid⟩ := List.mem_filter.mp hleg
      by_contra hlt
      refine hall ⟨leg, hmem, by simpa using hid, Int64.lt_iff_toInt_lt.mpr ?_⟩
      simpa using hlt
    omega
  · cases h

/-! ## 2. Checking -/

/-- An account is live if it is there and not deleted. -/
theorem liveAccount_eq_ok {l : Ledger} {id : AccountId} {a : Account} :
    l.liveAccount id = .ok a ↔ l.accounts.get? id = some a ∧ a.deleted = false := by
  unfold liveAccount
  cases l.accounts.get? id with
  | none => simp
  | some b =>
    cases hd : b.deleted with
    | true =>
      simp only [hd, if_true, reduceCtorEq, false_iff, Option.some.injEq, not_and]
      rintro rfl
      simp [hd]
    | false =>
      simp only [hd, Bool.false_eq_true, if_false, Except.ok.injEq, Option.some.injEq]
      constructor
      · rintro rfl
        exact ⟨rfl, hd⟩
      · exact And.left

/-- **A balance settles a net amount**: the account is live, and the balance is what it has with the
amount added exactly. -/
def Settles (l : Ledger) (id : AccountId) (delta : Int) (balance : UInt64) : Prop :=
  ∃ a, l.accounts.get? id = some a ∧ a.deleted = false
    ∧ (balance.toNat : Int) = a.balance.toNat + delta

/-- The check of an account finds the balance that settles its net amount. -/
theorem settles_of_settled {l : Ledger} {id : AccountId} {delta : Int} {balance : UInt64}
    (h : l.settled id delta = .ok balance) : l.Settles id delta balance := by
  unfold settled at h
  cases hl : l.liveAccount id with
  | error status => rw [hl] at h; cases h
  | ok a =>
    obtain ⟨ha, hd⟩ := liveAccount_eq_ok.mp hl
    refine ⟨a, ha, hd, ?_⟩
    rw [hl] at h
    simp only [bind, Except.bind] at h
    split at h
    · cases h
    · rename_i hnonneg
      unfold toU64? at h
      split at h
      · rename_i b hb
        split at hb
        · rename_i hrange
          obtain rfl := Option.some.inj hb
          obtain rfl := Except.ok.inj h
          have hlt : ((a.balance.toNat : Int) + delta).toNat < UInt64.size := by omega
          rw [UInt64.toNat_ofNat_of_lt' hlt]
          omega
        · cases hb
      · cases h

/-- A settlement has one entry for each net amount, in order, and each entry settles its own. -/
theorem settlement_entries {l : Ledger} {net : List (AccountId × Int)}
    {settled : List (AccountId × UInt64 × Int)} (h : l.settlement net = .ok settled) :
    settled.map (fun e => (e.1, e.2.2)) = net ∧ ∀ e ∈ settled, l.Settles e.1 e.2.2 e.2.1 := by
  induction net generalizing settled with
  | nil =>
    obtain rfl : [] = settled := Except.ok.inj h
    simp
  | cons e net ih =>
    rw [settlement, List.mapM_cons] at h
    cases hs : l.settled e.1 e.2 with
    | error status => rw [hs] at h; cases h
    | ok balance =>
      cases hr : l.settlement net with
      | error status => rw [settlement] at hr; rw [hs, hr] at h; cases h
      | ok rest =>
        obtain ⟨hmap, hall⟩ := ih hr
        rw [settlement] at hr
        rw [hs, hr] at h
        obtain rfl : (e.1, balance, e.2) :: rest = settled := Except.ok.inj h
        refine ⟨by rw [List.map_cons, hmap], fun x hx => ?_⟩
        rcases List.mem_cons.mp hx with rfl | hx
        · exact settles_of_settled hs
        · exact hall x hx

/-! ## 3. Writing -/

/-- An account after one settled balance is written. -/
theorem get?_settle (l : Ledger) (e : AccountId × UInt64 × Int) (k : AccountId) :
    (settle l e).accounts.get? k
      = if k = e.1 then (l.accounts.get? e.1).map fun a => { a with balance := e.2.1 }
        else l.accounts.get? k := by
  rw [settle, Table.get?_adjust]

/-- Writing a settled balance does not unsettle another account. -/
theorem Settles.settle_of_ne {l : Ledger} {id : AccountId} {delta : Int} {balance : UInt64}
    (h : l.Settles id delta balance) {e : AccountId × UInt64 × Int} (hne : id ≠ e.1) :
    (settle l e).Settles id delta balance := by
  obtain ⟨a, ha, hlive, hbalance⟩ := h
  exact ⟨a, by rw [get?_settle, if_neg hne, ha], hlive, hbalance⟩

/-- An account that is not settled stays as it is. -/
theorem get?_foldl_settle_of_not_mem {settled : List (AccountId × UInt64 × Int)} {k : AccountId}
    (h : k ∉ settled.map Prod.fst) (l : Ledger) :
    (settled.foldl settle l).accounts.get? k = l.accounts.get? k := by
  induction settled generalizing l with
  | nil => rfl
  | cons e settled ih =>
    simp only [List.map_cons, List.mem_cons, not_or] at h
    rw [List.foldl_cons, ih h.2, get?_settle, if_neg h.1]

/-- An account that is settled once has the settled balance, and all else as before. -/
theorem get?_foldl_settle_of_mem {settled : List (AccountId × UInt64 × Int)}
    (hn : (settled.map Prod.fst).Nodup) {e : AccountId × UInt64 × Int} (he : e ∈ settled)
    (l : Ledger) :
    (settled.foldl settle l).accounts.get? e.1
      = (l.accounts.get? e.1).map fun a => { a with balance := e.2.1 } := by
  induction settled generalizing l with
  | nil => cases he
  | cons f settled ih =>
    rw [List.map_cons, List.nodup_cons] at hn
    rw [List.foldl_cons]
    rcases List.mem_cons.mp he with rfl | he
    · -- No later entry is of this account, so what is written now stays.
      rw [get?_foldl_settle_of_not_mem hn.1, get?_settle, if_pos rfl]
    · have hne : ¬ e.1 = f.1 := fun h => hn.1 (h ▸ List.mem_map_of_mem he)
      rw [ih hn.2 he, get?_settle, if_neg hne]

/-- Settling is a matter of accounts. -/
theorem onlyAccounts_foldl_settle (settled : List (AccountId × UInt64 × Int)) (l : Ledger) :
    OnlyAccounts l (settled.foldl settle l) := by
  induction settled generalizing l with
  | nil => exact ⟨rfl, rfl, rfl⟩
  | cons e settled ih =>
    have hstep : OnlyAccounts l (settle l e) := ⟨rfl, rfl, rfl⟩
    exact hstep.trans (ih (settle l e))

/-- The accounts of a settlement of a table of net amounts are distinct. -/
theorem nodup_settled {l : Ledger} {net : Table AccountId Int}
    {settled : List (AccountId × UInt64 × Int)} (h : l.settlement net.entries = .ok settled) :
    (settled.map Prod.fst).Nodup := by
  have hkeys : settled.map Prod.fst = net.entries.map Prod.fst := by
    rw [← (settlement_entries h).1, List.map_map, Function.comp_def]
  rw [hkeys]
  exact net.nodup_keys

/-- **What a settled table of net amounts does to an account**: without a net amount it stays, and
with one it is live and has the amount added exactly. -/
theorem settled_account_cases {l : Ledger} {net : Table AccountId Int}
    {settled : List (AccountId × UInt64 × Int)} (h : l.settlement net.entries = .ok settled)
    (id : AccountId) :
    (net.get? id = none
        ∧ (settled.foldl settle l).accounts.get? id = l.accounts.get? id)
      ∨ ∃ delta a, ∃ balance : UInt64,
          net.get? id = some delta ∧ l.accounts.get? id = some a ∧ a.deleted = false
            ∧ (balance.toNat : Int) = a.balance.toNat + delta
            ∧ (settled.foldl settle l).accounts.get? id = some { a with balance := balance } := by
  obtain ⟨hmap, hall⟩ := settlement_entries h
  cases hnet : net.get? id with
  | none =>
    -- An account that is settled has an entry, and so a net amount.
    refine .inl ⟨rfl, get?_foldl_settle_of_not_mem (fun hm => ?_) l⟩
    obtain ⟨e, he, rfl⟩ := List.mem_map.mp hm
    have hentry : (e.1, e.2.2) ∈ net.entries := hmap ▸ List.mem_map.mpr ⟨e, he, rfl⟩
    rw [(Table.mem_entries_iff net _ _).mp hentry] at hnet
    cases hnet
  | some delta =>
    have hentry : (id, delta) ∈ settled.map fun e => (e.1, e.2.2) :=
      hmap ▸ (Table.mem_entries_iff net _ _).mpr hnet
    obtain ⟨e, he, heq⟩ := List.mem_map.mp hentry
    obtain ⟨rfl, rfl⟩ := Prod.mk.inj heq
    obtain ⟨a, ha, hlive, hbalance⟩ := hall e he
    refine .inr ⟨e.2.2, a, e.2.1, rfl, ha, hlive, hbalance, ?_⟩
    rw [get?_foldl_settle_of_mem (nodup_settled h) he, ha, Option.map_some]

end Ledger

end ShardLedger
