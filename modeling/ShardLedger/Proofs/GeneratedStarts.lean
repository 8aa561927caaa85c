import ShardLedger.Proofs.MintedIdentifiers
import Mathlib.Order.Bounds.Basic
/-
What a mint hands out, for any clock.

A mint keeps one count only, and everything that the clock did before is in it.  Taken by itself a reading
asks for a start five seconds earlier.  Each start is what its own reading asks for, or else what an earlier
one asked for, with a nanosecond more for every call since; and of all these it is the greatest.  So a clock
that goes back, or stands still, shows only in nanoseconds, and a clock that goes on is caught up with.

The words end somewhere.  At the lower end nothing is lost: no reading asks for the very first count, where a
mint begins.  At the upper end a mint has no more to give.  Up to there starts grow, and no two are the same.
-/

set_option autoImplicit false

namespace ShardLedger

/-- A count that comes back from its timestamp is above the first one: the seconds of the first one stop at
the end of the word, and it has nanoseconds beyond them. -/
theorem Timestamp.lt_asNanos_ofNanos (n : Int64) : -2 ^ 63 < (ofNanos n).asNanos.toInt := by
  have := n.le_toInt
  rw [asNanos, toInt_saturateI64, toInt_saturateI64, toInt_seconds_ofNanos, toInt_nanos_ofNanos]
  simp only [second]
  omega

namespace Mint

/-! ## 1. Starts -/

/-- **The starts that a mint hands out** one after the other, each at a reading of the clock. -/
def starts (m : Mint) : List Timestamp → List Timestamp
  | [] => []
  | now :: nows => (m.start now).1 :: (m.start now).2.starts nows

/-- **The counts that ask to be the start** after so many others, each call in between counted as a
nanosecond. -/
def demands (nows : List Timestamp) (k : Nat) : Set Int :=
  {x | ∃ j ≤ k, ∃ now ∈ nows[j]?, x = (candidate now).toInt + (k - j)}

/-- No reading asks for the first count of all. -/
theorem lt_candidate (now : Timestamp) : -2 ^ 63 < (candidate now).toInt :=
  Timestamp.lt_asNanos_ofNanos _

/-- What a reading asks for is no earlier than the reading less the skew. -/
theorem saturatingSub_le_ofNanos_candidate (now : Timestamp) :
    now.saturatingSub startSkew ≤ .ofNanos (candidate now) :=
  Timestamp.ofNanos_le_ofNanos (Timestamp.le_asNanos_ofNanos _)

section Starts

variable {m : Mint} {nows : List Timestamp} {k : Nat}

/-- A mint hands out a start for every reading. -/
theorem length_starts (m : Mint) (nows : List Timestamp) : (m.starts nows).length = nows.length := by
  induction nows generalizing m with
  | nil => rfl
  | cons now nows ih => simp [starts, ih]

/-- **Before the end of the word** the next start is what the reading asks for, or the next after the last. -/
theorem toInt_last_start_of_ne (hroom : m.last ≠ Int64.maxValue) (now : Timestamp) :
    (m.start now).2.last.toInt = max (candidate now).toInt (m.last.toInt + 1) := by
  have hlast : m.last.toInt ≠ 2 ^ 63 - 1 := by
    intro hmax
    apply hroom
    exact Int64.toInt_inj.mp hmax
  have := m.last.toInt_lt
  rw [toInt_last_start]
  omega

/-- A start that is not the last one of all leaves room for more. -/
theorem last_start_ne {now : Timestamp} (h : (m.start now).1 ≠ .ofNanos Int64.maxValue) :
    (m.start now).2.last ≠ Int64.maxValue := by
  intro hmax
  apply h
  exact congrArg Timestamp.ofNanos hmax

/-- What asks to be the first start. -/
theorem mem_demands_zero {now : Timestamp} {x : Int} :
    x ∈ demands (now :: nows) 0 ↔ x = (candidate now).toInt := by
  simp [demands]

/-- What asks to be a later start: the first reading, moved on, or one of the others. -/
theorem mem_demands_succ {now : Timestamp} {x : Int} :
    x ∈ demands (now :: nows) (k + 1) ↔ x = (candidate now).toInt + (k + 1) ∨ x ∈ demands nows k := by
  constructor
  · rintro ⟨j, hj, reading, hreading, hx⟩
    cases j with
    | zero =>
      obtain rfl : now = reading := Option.some.inj hreading
      left
      simpa using hx
    | succ j =>
      right
      refine ⟨j, Nat.le_of_succ_le_succ hj, reading, hreading, ?_⟩
      push_cast at hx
      omega
  · rintro (hx | ⟨j, hj, reading, hreading, hx⟩)
    · refine ⟨0, Nat.zero_le _, now, rfl, ?_⟩
      push_cast
      omega
    · refine ⟨j + 1, Nat.succ_le_succ hj, reading, hreading, ?_⟩
      push_cast
      omega

/-- **A start is the greatest count that asks to be it**, the count that the mint begins with among them,
as long as no start before is the last one of all.  The induction is on the readings: the first start is the
count that the mint of the others begins with. -/
theorem exists_isGreatest (hk : k < nows.length) (hlast : m.last ≠ Int64.maxValue)
    (hroom : ∀ t ∈ (m.starts nows).take k, t ≠ .ofNanos Int64.maxValue) :
    ∃ n : Int64, (m.starts nows)[k]? = some (.ofNanos n)
      ∧ IsGreatest (insert (m.last.toInt + (k + 1)) (demands nows k)) n.toInt := by
  induction nows generalizing m k with
  | nil => cases hk
  | cons now nows ih =>
    have hstart := toInt_last_start_of_ne hlast now
    cases k with
    | zero =>
      refine ⟨(m.start now).2.last, rfl, ?_, ?_⟩
      · simp only [Set.mem_insert_iff, mem_demands_zero]
        omega
      · intro x hx
        simp only [Set.mem_insert_iff, mem_demands_zero] at hx
        omega
    | succ k =>
      have hfirst := last_start_ne (hroom _ List.mem_cons_self)
      obtain ⟨n, hn, hmem, hbound⟩ := ih (Nat.lt_of_succ_lt_succ hk) hfirst fun t ht =>
        hroom t (List.mem_cons_of_mem _ ht)
      refine ⟨n, hn, ?_, ?_⟩
      · simp only [Set.mem_insert_iff, mem_demands_succ] at hmem ⊢
        rcases hmem with hmem | hmem
        · push_cast
          omega
        · exact .inr (.inr hmem)
      · intro x hx
        simp only [Set.mem_insert_iff, mem_demands_succ] at hx
        have hcarried : (m.start now).2.last.toInt + (k + 1) ≤ n.toInt := hbound (.inl rfl)
        push_cast at hx
        rcases hx with hx | hx | hx
        · omega
        · omega
        · exact hbound (.inr hx)

/-- Every start is later than the count that the mint begins with. -/
theorem ofNanos_last_lt (hlast : m.last ≠ Int64.maxValue)
    (hroom : ∀ t ∈ (m.starts nows).take k, t ≠ .ofNanos Int64.maxValue) {t : Timestamp}
    (ht : (m.starts nows)[k]? = some t) : .ofNanos m.last < t := by
  obtain ⟨hk, -⟩ := List.getElem?_eq_some_iff.mp ht
  rw [length_starts] at hk
  obtain ⟨n, hn, -, hbound⟩ := exists_isGreatest hk hlast hroom
  obtain rfl := Option.some.inj (ht.symm.trans hn)
  have hcarried : m.last.toInt + (k + 1) ≤ n.toInt := hbound (.inl rfl)
  apply Timestamp.ofNanos_lt_ofNanos
  omega

/-- **Starts grow**, as long as none but the newest is the last one of all. -/
theorem pairwise_starts (hlast : m.last ≠ Int64.maxValue)
    (hroom : ∀ t ∈ (m.starts nows).take k, t ≠ .ofNanos Int64.maxValue) :
    ((m.starts nows).take (k + 1)).Pairwise (· < ·) := by
  induction nows generalizing m k with
  | nil => exact .nil
  | cons now nows ih =>
    cases k with
    | zero => exact List.pairwise_singleton _ _
    | succ k =>
      have hfirst := last_start_ne (hroom _ List.mem_cons_self)
      have hrest : ∀ t ∈ ((m.start now).2.starts nows).take k, t ≠ .ofNanos Int64.maxValue :=
        fun t ht => hroom t (List.mem_cons_of_mem _ ht)
      refine .cons ?_ (ih hfirst hrest)
      intro t ht
      obtain ⟨j, hj⟩ := List.mem_iff_getElem?.mp ht
      rw [List.getElem?_take] at hj
      by_cases hlt : j < k + 1
      · rw [if_pos hlt] at hj
        refine ofNanos_last_lt hfirst (fun t ht => hrest t ?_) hj
        exact List.take_subset_take_left _ (Nat.le_of_lt_succ hlt) ht
      · rw [if_neg hlt] at hj
        cases hj

end Starts

/-! ## 2. A process -/

/-- A fresh mint begins with the first count of all. -/
theorem toInt_last_fresh : fresh.last.toInt = -2 ^ 63 := by
  decide

/-- What a fresh mint begins with is not the last count of all. -/
theorem last_fresh_ne : fresh.last ≠ Int64.maxValue := by
  decide

/-- **The count that a mint begins with does not show** if the first reading asks for more. -/
theorem isGreatest_of_lt {m : Mint} {now : Timestamp} {nows : List Timestamp} {k : Nat} {n : Int}
    (hlow : m.last.toInt < (candidate now).toInt)
    (h : IsGreatest (insert (m.last.toInt + (k + 1)) (demands (now :: nows) k)) n) :
    IsGreatest (demands (now :: nows) k) n := by
  have hfirst : (candidate now).toInt + k ∈ demands (now :: nows) k := by
    refine ⟨0, Nat.zero_le k, now, rfl, ?_⟩
    push_cast
    omega
  obtain ⟨hmem, hbound⟩ := h
  have hreached : (candidate now).toInt + k ≤ n := hbound (Set.mem_insert_of_mem _ hfirst)
  refine ⟨?_, fun x hx => hbound (Set.mem_insert_of_mem _ hx)⟩
  rcases Set.mem_insert_iff.mp hmem with hmem | hmem
  · have hsame : n = (candidate now).toInt + k := by omega
    rw [hsame]
    exact hfirst
  · exact hmem

/-- **What a process hands out.**  Whatever its clock shows, forward, backward, or standing still, as long as no
start before is the last one of all, the next one is for the greatest of what this and the earlier readings ask
for, each with a nanosecond more for every call since.  So the starts up to there grow and no two are the same;
and the new one has its nanoseconds below a second, and is no earlier than its own reading asks for.

The work is in `exists_isGreatest`, by induction on the readings. -/
theorem starts_eq_greatest (nows : List Timestamp) {k : Nat} (hk : k < nows.length)
    (hroom : ∀ t ∈ (fresh.starts nows).take k, t ≠ .ofNanos Int64.maxValue) :
    (∃ n : Int64, (fresh.starts nows)[k]? = some (.ofNanos n) ∧ IsGreatest (demands nows k) n.toInt)
      ∧ ((fresh.starts nows).take (k + 1)).Pairwise (· < ·)
      ∧ ((fresh.starts nows).take (k + 1)).Nodup
      ∧ ∀ t ∈ (fresh.starts nows)[k]?, ∀ now ∈ nows[k]?,
          (0 ≤ t.nanos.toInt ∧ t.nanos.toInt < Timestamp.second)
            ∧ now.saturatingSub startSkew ≤ .ofNanos (candidate now) ∧ .ofNanos (candidate now) ≤ t := by
  obtain ⟨first, rest, rfl⟩ : ∃ first rest, nows = first :: rest := by
    cases nows with
    | nil => cases hk
    | cons first rest => exact ⟨first, rest, rfl⟩
  obtain ⟨n, hn, hgreatest⟩ := exists_isGreatest hk last_fresh_ne hroom
  have hlow : fresh.last.toInt < (candidate first).toInt := by
    rw [toInt_last_fresh]
    exact lt_candidate first
  have hdemands := isGreatest_of_lt hlow hgreatest
  have hgrow := pairwise_starts last_fresh_ne hroom
  refine ⟨⟨n, hn, hdemands⟩, hgrow, ?_, ?_⟩
  · refine hgrow.imp ?_
    rintro a b hlt rfl
    exact Std.lt_irrefl hlt
  · intro t ht now hnow
    obtain rfl := Option.some.inj (hn.symm.trans ht)
    refine ⟨?_, saturatingSub_le_ofNanos_candidate now, ?_⟩
    · rw [Timestamp.toInt_nanos_ofNanos]
      simp only [Timestamp.second]
      omega
    · -- Its own reading is one of those that ask.
      have hown : (candidate now).toInt ∈ demands (first :: rest) k := by
        refine ⟨k, Nat.le_refl k, now, hnow, ?_⟩
        omega
      exact Timestamp.ofNanos_le_ofNanos (hdemands.2 hown)

/-- A clock that stands still, goes back and comes back again: the fourth start is three nanoseconds after what
the first reading asked for. -/
theorem starts_eq_greatest_restless :
    let nows : List Timestamp := [⟨1005, 0⟩, ⟨1005, 0⟩, ⟨1003, 0⟩, ⟨1005, 1⟩]
    3 < nows.length
      ∧ (∀ t ∈ (fresh.starts nows).take 3, t ≠ .ofNanos Int64.maxValue)
      ∧ (fresh.starts nows)[3]? = some ⟨1000, 3⟩
      ∧ IsGreatest (demands nows 3) 1000000000003
      ∧ ((fresh.starts nows).take 4).Nodup := by
  intro nows
  have hroom : ∀ t ∈ (fresh.starts nows).take 3, t ≠ .ofNanos Int64.maxValue := by decide +kernel
  obtain ⟨⟨n, hn, hgreatest⟩, -, hnodup, -⟩ := starts_eq_greatest nows (k := 3) (by decide) hroom
  have hfourth : (fresh.starts nows)[3]? = some (.ofNanos 1000000000003) := by decide +kernel
  have hcount : n.toInt = 1000000000003 := by
    have hsame := congrArg Timestamp.exact (Option.some.inj (hn.symm.trans hfourth))
    rw [Timestamp.exact_ofNanos, Timestamp.exact_ofNanos] at hsame
    exact hsame
  rw [hcount] at hgreatest
  exact ⟨by decide, hroom, by decide +kernel, hgreatest, hnodup⟩

end Mint

end ShardLedger
