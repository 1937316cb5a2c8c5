import ArgusSbomGuard.Relational.Query
import Mathlib.Data.List.MinMax

/-!
# The greatest row of each key

A loop over rows that keeps one of them for each key in a dictionary and replaces it by a greater
one only.  For each key the dictionary ends with `List.argmax` of the key's rows, the first of the
greatest (`lookup_keepGreatest`).  Which one this is depends on the order of the rows, unless one
of them is greater than all others.

## Main definitions

* `setKey` : the assignment `d[key] = value`.
* `keepGreatest` : a round of the loop.
* `Arrangement.putFirst` : an order that begins with a given row.
-/

namespace ArgusSbomGuard

variable {κ β γ : Type} [DecidableEq κ]

/-- `d[key] = value`, for a dictionary whose entries are in no particular order. -/
def setKey (d : List (κ × β)) (k : κ) (b : β) : List (κ × β) :=
  (k, b) :: d.filter fun e => e.1 ≠ k

/-- A key has one entry. -/
def UniqueEntries (d : List (κ × β)) : Prop := d.Pairwise fun a b => a.1 ≠ b.1

/-- The rows of a key. -/
def rowsOf (k : κ) (rows : List (κ × β)) : List β := (rows.filter fun e => e.1 = k).map Prod.snd

variable {d : List (κ × β)} {k k' : κ} {b : β} {rows : List (κ × β)}

theorem UniqueEntries.setKey (h : UniqueEntries d) : UniqueEntries (setKey d k b) := by
  refine List.pairwise_cons.2 ⟨fun e he => ?_, h.filter _⟩
  exact fun heq => of_decide_eq_true (List.mem_filter.1 he).2 heq.symm

theorem mem_rowsOf : b ∈ rowsOf k rows ↔ (k, b) ∈ rows := by
  simp only [rowsOf, List.mem_map, List.mem_filter, decide_eq_true_eq, Prod.exists]
  constructor
  · rintro ⟨_, b, ⟨hmem, rfl⟩, rfl⟩
    exact hmem
  · exact fun hmem => ⟨k, b, ⟨hmem, rfl⟩, rfl⟩

theorem rowsOf_cons_self : rowsOf k ((k, b) :: rows) = b :: rowsOf k rows := by
  rw [rowsOf, List.filter_cons_of_pos (by simp), List.map_cons, rowsOf]

/-! ### Lookups -/

variable [BEq κ] [LawfulBEq κ]

theorem lookup_filter_ne (h : k' ≠ k) : (d.filter fun e => e.1 ≠ k).lookup k' = d.lookup k' := by
  induction d with
  | nil => rfl
  | cons e d ih =>
    by_cases he : e.1 = k
    · rw [List.filter_cons_of_neg (by simpa using he), ih, List.lookup_cons,
        beq_eq_false_iff_ne.2 (he ▸ h)]
    · rw [List.filter_cons_of_pos (by simpa using he), List.lookup_cons, List.lookup_cons, ih]

theorem lookup_setKey : (setKey d k b).lookup k' = if k' = k then some b else d.lookup k' := by
  rw [setKey, List.lookup_cons]
  split_ifs with h
  · rw [beq_iff_eq.2 h]
  · rw [beq_eq_false_iff_ne.2 h]
    exact lookup_filter_ne h

/-- The entries are what is found under their keys. -/
theorem UniqueEntries.mem_iff (h : UniqueEntries d) : (k, b) ∈ d ↔ d.lookup k = some b := by
  induction d with
  | nil => exact iff_of_false List.not_mem_nil nofun
  | cons e d ih =>
    obtain ⟨hne, hd⟩ := List.pairwise_cons.1 h
    rw [List.mem_cons, List.lookup_cons, ih hd]
    by_cases hk : k = e.1
    · rw [beq_iff_eq.2 hk]
      constructor
      · rintro (rfl | hlookup)
        · rfl
        · exact absurd hk.symm (hne _ ((ih hd).2 hlookup))
      · intro hb
        exact .inl (Prod.ext hk (Option.some.inj hb).symm)
    · rw [beq_eq_false_iff_ne.2 hk]
      exact or_iff_right fun he => hk (congrArg Prod.fst he)

/-! ### The loop -/

variable [LinearOrder γ] {value : β → γ}

/-- `if key not in d or value > d[key]: d[key] = value`. -/
def keepGreatest (value : β → γ) (d : List (κ × β)) (e : κ × β) : List (κ × β) :=
  match d.lookup e.1 with
  | none => setKey d e.1 e.2
  | some b => if value b < value e.2 then setKey d e.1 e.2 else d

theorem lookup_keepGreatest_step (e : κ × β) : (keepGreatest value d e).lookup k =
    if k = e.1 then List.argAux (fun b c => value c < value b) (d.lookup k) e.2
    else d.lookup k := by
  unfold keepGreatest
  split
  · rename_i hnone
    rw [lookup_setKey]
    split_ifs with hk
    · rw [hk, hnone]
      rfl
    · rfl
  · rename_i b hb
    split_ifs with hlt hk hk
    · rw [lookup_setKey, if_pos hk, hk, hb, List.argAux]
      exact (if_pos hlt).symm
    · rw [lookup_setKey, if_neg hk]
    · rw [hk, hb, List.argAux]
      exact (if_neg hlt).symm
    · rfl

theorem lookup_foldl_keepGreatest : (rows.foldl (keepGreatest value) d).lookup k =
    (rowsOf k rows).foldl (List.argAux fun b c => value c < value b) (d.lookup k) := by
  induction rows generalizing d with
  | nil => rfl
  | cons e rows ih =>
    rw [List.foldl_cons, ih, lookup_keepGreatest_step, rowsOf, rowsOf]
    by_cases hk : k = e.1
    · rw [if_pos hk, List.filter_cons_of_pos (by simpa using hk.symm), List.map_cons,
        List.foldl_cons]
    · rw [if_neg hk, List.filter_cons_of_neg (by simpa using Ne.symm hk)]

/-- **The loop ends with the first of the greatest rows of each key.** -/
theorem lookup_keepGreatest :
    (rows.foldl (keepGreatest value) []).lookup k = (rowsOf k rows).argmax value :=
  lookup_foldl_keepGreatest

omit [LawfulBEq κ] in
theorem uniqueEntries_foldl (h : UniqueEntries d) :
    UniqueEntries (rows.foldl (keepGreatest value) d) := by
  induction rows generalizing d with
  | nil => exact h
  | cons e rows ih =>
    refine ih ?_
    unfold keepGreatest
    split
    · exact h.setKey
    · split_ifs
      · exact h.setKey
      · exact h

theorem mem_keepGreatest : (k, b) ∈ rows.foldl (keepGreatest value) [] ↔
    (rowsOf k rows).argmax value = some b := by
  rw [(uniqueEntries_foldl List.Pairwise.nil).mem_iff, lookup_keepGreatest]

/-! ### The order of the rows -/

section Argmax

variable {α : Type} {f : α → γ} {xs : List α} {a m : α}

/-- What is greater than all others is found in any order. -/
theorem argmax_eq_of_lt (hm : m ∈ xs) (hlt : ∀ a ∈ xs, a ≠ m → f a < f m) :
    xs.argmax f = some m := by
  cases hmax : xs.argmax f with
  | none =>
    rw [List.argmax_eq_none.1 hmax] at hm
    exact absurd hm List.not_mem_nil
  | some n =>
    refine congrArg some (not_not.1 fun hne => ?_)
    exact List.not_lt_of_mem_argmax hm hmax (hlt n (List.argmax_mem hmax) hne)

/-- What comes first is found if nothing is greater. -/
theorem argmax_cons_eq_self (h : ∀ b ∈ xs, f b ≤ f a) : (a :: xs).argmax f = some a := by
  rw [List.argmax_cons]
  cases hmax : xs.argmax f with
  | none => rfl
  | some c => exact if_neg (not_lt.2 (h c (List.argmax_mem hmax)))

end Argmax

/-- The order that begins with `a`. -/
def Arrangement.putFirst {α : Type} [DecidableEq α] (a : α) : Arrangement α where
  order xs := if a ∈ xs then a :: xs.erase a else xs
  perm xs := by
    split_ifs with h
    · exact (List.perm_cons_erase h).symm
    · exact .refl xs

theorem Arrangement.order_putFirst {α : Type} [DecidableEq α] {a : α} {xs : List α}
    (h : a ∈ xs) : (Arrangement.putFirst a).order xs = a :: xs.erase a :=
  if_pos h

end ArgusSbomGuard
