import Mathlib.Algebra.BigOperators.Group.List.Lemmas
import Mathlib.Data.List.Dedup
import Mathlib.Data.Set.Card

/-!
# Distinct rows and their counts

The answer of a query is a list of rows in an order that the query does not fix.  `DISTINCT`
removes repeated rows, `DISTINCT ON` keeps the first row of each key, and what either leaves is
counted.  None of the counts depends on the order, and when the key determines the row the two
ways of counting agree (`countP_dedup`, `countP_distinctOn`).

## Main definitions

* `Arrangement α` : an order in which rows come.
* `countDistinct` : `count(DISTINCT x)`.
* `distinctOn key` : `DISTINCT ON (key)`.
* `groupCount` : `count(*)` with `GROUP BY`.
* `Determines key rows` : the key determines the row.
-/

namespace ArgusSbomGuard

/-- An order in which the elements of a list are gone through. -/
structure Arrangement (α : Type) where
  order : List α → List α
  perm : ∀ xs, (order xs).Perm xs

/-- The order of the database. -/
def storedOrder (α : Type) : Arrangement α := ⟨id, fun _ => .refl _⟩

variable {α κ : Type} [DecidableEq κ]

/-- `count(DISTINCT x)`. -/
def countDistinct (xs : List κ) : ℕ := xs.dedup.length

/-- `DISTINCT ON (key)`: the first row of each key. -/
def distinctOn (key : α → κ) : List α → List α
  | [] => []
  | a :: rows => a :: (distinctOn key rows).filter fun b => key b ≠ key a

/-- `SELECT x, count(*) ... GROUP BY x`. -/
def groupCount (xs : List κ) : List (κ × ℕ) := xs.dedup.map fun x => (x, xs.count x)

/-- Rows with the same key are the same. -/
def Determines (key : α → κ) (rows : List α) : Prop :=
  ∀ a ∈ rows, ∀ b ∈ rows, key a = key b → a = b

/-! ### Counting distinct values -/

/-- The count depends on what there is, not on how often or in which order. -/
theorem countDistinct_congr {xs ys : List κ} (h : ∀ x, x ∈ xs ↔ x ∈ ys) :
    countDistinct xs = countDistinct ys := by
  refine List.Perm.length_eq ((List.perm_ext_iff_of_nodup xs.nodup_dedup ys.nodup_dedup).2 ?_)
  intro x
  rw [List.mem_dedup, List.mem_dedup, h]

/-- The count is the size of the set of values. -/
theorem countDistinct_eq_ncard (xs : List κ) : countDistinct xs = Set.ncard {x | x ∈ xs} := by
  have hset : {x | x ∈ xs} = (xs.toFinset : Set κ) := Set.ext fun _ => List.mem_toFinset.symm
  rw [hset, Set.ncard_coe_finset, List.card_toFinset]
  rfl

/-! ### Groups -/

/-- The groups with a property have as many rows as there are with it. -/
theorem sum_groupCount (xs : List κ) (p : κ → Bool) :
    (((groupCount xs).filter fun g => p g.1).map Prod.snd).sum = xs.countP p := by
  rw [groupCount, List.filter_map, List.map_map]
  exact List.sum_map_count_dedup_filter_eq_countP p xs

/-- In whatever order they come. -/
theorem sum_arranged_groupCount (groups : Arrangement (κ × ℕ)) (xs : List κ) (p : κ → Bool) :
    (((groups.order (groupCount xs)).filter fun g => p g.1).map Prod.snd).sum = xs.countP p := by
  rw [← sum_groupCount]
  exact (((groups.perm (groupCount xs)).filter _).map Prod.snd).sum_eq

/-! ### Distinct rows -/

section Distinct

variable {key : α → κ} {rows : List α} {a : α}

theorem mem_of_mem_distinctOn (h : a ∈ distinctOn key rows) : a ∈ rows := by
  induction rows with
  | nil => exact h
  | cons b rows ih =>
    rcases List.mem_cons.1 h with rfl | h
    · exact List.mem_cons_self
    · exact List.mem_cons_of_mem _ (ih (List.mem_filter.1 h).1)

/-- No two rows that are left have the same key. -/
theorem nodup_keys_distinctOn (rows : List α) : ((distinctOn key rows).map key).Nodup := by
  induction rows with
  | nil => exact List.nodup_nil
  | cons b rows ih =>
    rw [distinctOn, List.map_cons, List.nodup_cons]
    constructor
    · intro hmem
      obtain ⟨c, hc, hkey⟩ := List.mem_map.1 hmem
      exact of_decide_eq_true (List.mem_filter.1 hc).2 hkey
    · exact ih.sublist (List.filter_sublist.map key)

/-- Each key is left in some row. -/
theorem exists_mem_distinctOn (h : a ∈ rows) : ∃ b ∈ distinctOn key rows, key b = key a := by
  induction rows with
  | nil => exact absurd h List.not_mem_nil
  | cons c rows ih =>
    by_cases hkey : key a = key c
    · exact ⟨c, List.mem_cons_self, hkey.symm⟩
    · have ha : a ∈ rows := (List.mem_cons.1 h).resolve_left fun he => hkey (he ▸ rfl)
      obtain ⟨b, hb, hba⟩ := ih ha
      refine ⟨b, List.mem_cons_of_mem _ (List.mem_filter.2 ⟨hb, ?_⟩), hba⟩
      exact decide_eq_true fun hbc => hkey (hba.symm.trans hbc)

variable [DecidableEq α]

/-- When the key determines the row, `DISTINCT ON` keeps what `DISTINCT` keeps. -/
theorem distinctOn_perm_dedup (hdet : Determines key rows) :
    (distinctOn key rows).Perm rows.dedup := by
  refine (List.perm_ext_iff_of_nodup (nodup_keys_distinctOn rows).of_map rows.nodup_dedup).2 ?_
  intro a
  rw [List.mem_dedup]
  refine ⟨mem_of_mem_distinctOn, fun ha => ?_⟩
  obtain ⟨b, hb, hkey⟩ : ∃ b ∈ distinctOn key rows, key b = key a := exists_mem_distinctOn ha
  exact hdet b (mem_of_mem_distinctOn hb) a ha hkey ▸ hb

/-- The distinct rows with a property are as many as their keys. -/
theorem countP_dedup (hdet : Determines key rows) (p : α → Bool) :
    rows.dedup.countP p = countDistinct ((rows.filter p).map key) := by
  have hnodup : ((rows.dedup.filter p).map key).Nodup := by
    refine List.Nodup.map_on ?_ (rows.nodup_dedup.filter p)
    intro a ha b hb
    exact hdet a (List.mem_dedup.1 (List.mem_filter.1 ha).1) b
      (List.mem_dedup.1 (List.mem_filter.1 hb).1)
  calc rows.dedup.countP p
      = ((rows.dedup.filter p).map key).length := by
        rw [List.length_map, List.countP_eq_length_filter]
    _ = countDistinct ((rows.dedup.filter p).map key) := by
        rw [countDistinct, hnodup.dedup]
    _ = countDistinct ((rows.filter p).map key) := by
        refine countDistinct_congr fun k => ?_
        simp only [List.mem_map, List.mem_filter, List.mem_dedup]

/-- The same for the rows of `DISTINCT ON`, in whatever order they come. -/
theorem countP_distinctOn (hdet : Determines key rows) (arrangement : Arrangement α)
    (p : α → Bool) :
    (distinctOn key (arrangement.order rows)).countP p =
      countDistinct ((rows.filter p).map key) := by
  have hperm := arrangement.perm rows
  have hdet' : Determines key (arrangement.order rows) := fun a ha b hb =>
    hdet a (hperm.mem_iff.1 ha) b (hperm.mem_iff.1 hb)
  rw [(distinctOn_perm_dedup hdet').countP_eq p, hperm.dedup.countP_eq p, countP_dedup hdet]

end Distinct

end ArgusSbomGuard
