import Mathlib.Data.List.Sort
import Mathlib.Data.Set.Card

/-!
# The newest rows

`ORDER BY key DESC LIMIT n`, read backwards, on rows with different keys.  Which rows that are
does not depend on how the database sorts: a row is among them when fewer than `n` rows have a
greater key (`mem_newest`), the rows are in ascending order (`newest_pairwise`), and a smaller limit
gives an end of what a greater one gives (`newest_suffix`).

## Main definitions

* `newest` : the `n` rows with the greatest keys, in ascending order.
-/

namespace ArgusSbomGuard

variable {α κ : Type*} [LinearOrder κ] {key : α → κ} {rows xs : List α} {a : α} {m n : ℕ}

/-- The `n` rows with the greatest keys, the greatest one last. -/
def newest (key : α → κ) (n : ℕ) (rows : List α) : List α :=
  ((rows.insertionSort fun a b => key b ≤ key a).take n).reverse

/-! ### Lists that descend -/

/-- The beginning of a list that descends, by the number of rows before a row. -/
theorem mem_take_of_descending (hs : xs.Pairwise fun a b => key b < key a) :
    a ∈ xs.take n ↔ a ∈ xs ∧ xs.countP (fun b => key a < key b) < n := by
  induction xs generalizing n with
  | nil => simp
  | cons x xs ih =>
    obtain ⟨hx, hxs⟩ := List.pairwise_cons.1 hs
    cases n with
    | zero => simp
    | succ n =>
      rw [List.take_succ_cons, List.mem_cons, List.mem_cons, ih hxs]
      constructor
      · rintro (rfl | ⟨ha, hlt⟩)
        · refine ⟨.inl rfl, ?_⟩
          have hnone : (a :: xs).countP (fun b => decide (key a < key b)) = 0 := by
            rw [List.countP_eq_zero]
            intro b hb
            rcases List.mem_cons.1 hb with rfl | hb
            · simp
            · simpa using (hx b hb).le
          omega
        · refine ⟨.inr ha, ?_⟩
          rw [List.countP_cons_of_pos (by simpa using hx a ha)]
          omega
      · rintro ⟨rfl | ha, hlt⟩
        · exact .inl rfl
        · rw [List.countP_cons_of_pos (by simpa using hx a ha)] at hlt
          exact .inr ⟨ha, by omega⟩

/-- Sorting rows with different keys. -/
theorem sorted_descending (hkeys : rows.Pairwise fun a b => key a ≠ key b) :
    (rows.insertionSort fun a b => key b ≤ key a).Pairwise fun a b => key b < key a := by
  have hne : (rows.insertionSort fun a b => key b ≤ key a).Pairwise fun a b => key a ≠ key b :=
    hkeys.perm (rows.perm_insertionSort _).symm fun h => h.symm
  have hle := rows.pairwise_insertionSort fun a b : α => key b ≤ key a
  exact hle.imp₂ (fun a b hab hne => lt_of_le_of_ne hab hne.symm) hne

/-! ### The newest rows -/

/-- **Which rows are the newest.** -/
theorem mem_newest (hkeys : rows.Pairwise fun a b => key a ≠ key b) :
    a ∈ newest key n rows ↔ a ∈ rows ∧ rows.countP (fun b => key a < key b) < n := by
  have hperm := rows.perm_insertionSort fun a b => key b ≤ key a
  rw [newest, List.mem_reverse, mem_take_of_descending (sorted_descending hkeys), hperm.mem_iff,
    hperm.countP_eq]

theorem newest_pairwise (hkeys : rows.Pairwise fun a b => key a ≠ key b) :
    (newest key n rows).Pairwise fun a b => key a < key b :=
  List.pairwise_reverse.2 ((sorted_descending hkeys).sublist (List.take_sublist n _))

theorem newest_suffix (h : n ≤ m) : newest key n rows <:+ newest key m rows := by
  refine List.reverse_suffix.2 ?_
  rw [← Nat.min_eq_left h, ← List.take_take]
  exact List.take_prefix n _

/-- Two ascending lists with the same rows are equal. -/
theorem eq_of_ascending {ys : List α} (hxs : xs.Pairwise fun a b => key a < key b)
    (hys : ys.Pairwise fun a b => key a < key b) (hmem : ∀ a, a ∈ xs ↔ a ∈ ys) : xs = ys := by
  have hnodup : ∀ {zs : List α}, (zs.Pairwise fun a b => key a < key b) → zs.Nodup :=
    fun hzs => hzs.imp fun hlt heq => (heq ▸ hlt).ne rfl
  have hperm : xs.Perm ys := (List.perm_ext_iff_of_nodup (hnodup hxs) (hnodup hys)).2 hmem
  exact hperm.eq_of_pairwise (fun a b _ _ hab hba => absurd hab hba.asymm) hxs hys

/-- Leaving out rows below a bound leaves them out of the newest ones. -/
theorem newest_filter (hkeys : rows.Pairwise fun a b => key a ≠ key b) (c : κ) :
    newest key n (rows.filter fun a => c ≤ key a) =
      (newest key n rows).filter fun a => c ≤ key a := by
  have hkeys' : (rows.filter fun a => c ≤ key a).Pairwise fun a b => key a ≠ key b :=
    hkeys.sublist List.filter_sublist
  refine eq_of_ascending (newest_pairwise hkeys')
    ((newest_pairwise hkeys).sublist List.filter_sublist) fun a => ?_
  rw [mem_newest hkeys', List.mem_filter, List.mem_filter, mem_newest hkeys]
  have hcount : c ≤ key a → (rows.filter fun a => c ≤ key a).countP
      (fun b => decide (key a < key b)) = rows.countP fun b => decide (key a < key b) := by
    intro hc
    rw [List.countP_filter]
    refine List.countP_congr fun b _ => ?_
    simp only [Bool.and_eq_true, decide_eq_true_eq, and_iff_left_iff_imp]
    exact fun hlt => hc.trans hlt.le
  constructor
  · rintro ⟨⟨ha, hc⟩, hlt⟩
    rw [hcount (of_decide_eq_true hc)] at hlt
    exact ⟨⟨ha, hlt⟩, hc⟩
  · rintro ⟨⟨ha, hlt⟩, hc⟩
    rw [hcount (of_decide_eq_true hc)]
    exact ⟨⟨ha, hc⟩, hlt⟩

end ArgusSbomGuard
