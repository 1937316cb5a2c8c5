import Mathlib.Data.List.Basic
import Mathlib.Data.List.TakeWhile

/-!
# Splitting at a separator

Python's `split` and `rsplit` with at most one split, on lists.  Each operation has a lemma for a
list with the separator in a known place.

## Main definitions

* `beforeFirst`, `splitFirst` : `split(sep, 1)`.
* `afterLast` : the last item of `rsplit(sep, 1)`.
-/

namespace ArgusSbomGuard

variable {α : Type} [DecidableEq α]

/-- `xs.split(sep, 1)[0]`. -/
def beforeFirst (sep : α) (xs : List α) : List α := xs.takeWhile fun x => x ≠ sep

/-- `xs.split(sep, 1)`, if it has two items. -/
def splitFirst (sep : α) : List α → Option (List α × List α)
  | [] => none
  | x :: xs => if x = sep then some ([], xs) else (splitFirst sep xs).map fun p => (x :: p.1, p.2)

/-- `xs.rsplit(sep, 1)[-1]`. -/
def afterLast (sep : α) (xs : List α) : List α :=
  (xs.reverse.takeWhile fun x => x ≠ sep).reverse

variable {sep : α} {xs ys : List α}

/-! ### The first separator -/

theorem beforeFirst_append_cons (h : sep ∉ xs) : beforeFirst sep (xs ++ sep :: ys) = xs := by
  induction xs with
  | nil => simp [beforeFirst]
  | cons x xs ih =>
    obtain ⟨hx, hxs⟩ := not_or.1 (mt List.mem_cons.2 h)
    have hcons : beforeFirst sep (x :: (xs ++ sep :: ys)) =
        x :: beforeFirst sep (xs ++ sep :: ys) :=
      List.takeWhile_cons_of_pos (decide_eq_true (Ne.symm hx))
    rw [List.cons_append, hcons, ih hxs]

theorem beforeFirst_of_notMem (h : sep ∉ xs) : beforeFirst sep xs = xs :=
  List.takeWhile_eq_self_iff.2 fun _ hx => decide_eq_true fun heq => h (heq ▸ hx)

theorem beforeFirst_comm (a b : α) (xs : List α) :
    beforeFirst a (beforeFirst b xs) = beforeFirst b (beforeFirst a xs) := by
  simp only [beforeFirst, List.takeWhile_takeWhile, and_comm]

theorem splitFirst_append_cons (h : sep ∉ xs) :
    splitFirst sep (xs ++ sep :: ys) = some (xs, ys) := by
  induction xs with
  | nil => rw [List.nil_append, splitFirst, if_pos rfl]
  | cons x xs ih =>
    obtain ⟨hx, hxs⟩ := not_or.1 (mt List.mem_cons.2 h)
    rw [List.cons_append, splitFirst, if_neg (Ne.symm hx), ih hxs]
    rfl

theorem splitFirst_eq_some {part rest : List α} (h : splitFirst sep xs = some (part, rest)) :
    xs = part ++ sep :: rest := by
  induction xs generalizing part with
  | nil => cases h
  | cons x xs ih =>
    rw [splitFirst] at h
    split_ifs at h with hx
    · cases h
      rw [hx, List.nil_append]
    · obtain ⟨⟨part', rest'⟩, hsplit, heq⟩ := Option.map_eq_some_iff.1 h
      cases heq
      rw [ih hsplit, List.cons_append]

theorem splitFirst_eq_none : splitFirst sep xs = none ↔ sep ∉ xs := by
  induction xs with
  | nil => exact iff_of_true rfl List.not_mem_nil
  | cons x xs ih =>
    rw [splitFirst, List.mem_cons, not_or]
    split_ifs with hx
    · exact iff_of_false nofun fun h => h.1 hx.symm
    · rw [Option.map_eq_none_iff, ih]
      exact ⟨fun h => ⟨Ne.symm hx, h⟩, fun h => h.2⟩

/-! ### The last separator -/

theorem mem_of_mem_afterLast {x : α} (h : x ∈ afterLast sep xs) : x ∈ xs :=
  List.mem_reverse.1 ((List.takeWhile_sublist _).subset (List.mem_reverse.1 h))

theorem afterLast_append_cons (h : sep ∉ ys) : afterLast sep (xs ++ sep :: ys) = ys := by
  have hrev : (xs ++ sep :: ys).reverse = ys.reverse ++ sep :: xs.reverse := by
    rw [List.reverse_append, List.reverse_cons, List.append_assoc, List.singleton_append]
  have hfirst : beforeFirst sep (xs ++ sep :: ys).reverse = ys.reverse := by
    rw [hrev]
    exact beforeFirst_append_cons (mt List.mem_reverse.1 h)
  exact (congrArg List.reverse hfirst).trans ys.reverse_reverse

/-- What comes before a part with a separator does not matter. -/
theorem afterLast_append_of_mem (h : sep ∈ ys) : afterLast sep (xs ++ ys) = afterLast sep ys := by
  obtain ⟨bs, as, hrev, hbs⟩ := List.eq_append_cons_of_mem (List.mem_reverse.2 h)
  have hys : ys = as.reverse ++ sep :: bs.reverse := by
    rw [← ys.reverse_reverse, hrev, List.reverse_append, List.reverse_cons, List.append_assoc,
      List.singleton_append]
  have hlast : sep ∉ bs.reverse := mt List.mem_reverse.1 hbs
  rw [hys, ← List.append_assoc, afterLast_append_cons hlast, afterLast_append_cons hlast]

end ArgusSbomGuard
