import Mathlib.Data.List.Basic

/-!
# Columns under repeated upserts

A row that is upserted again and again merges the incoming values into its columns, each column
by a rule of its own: it takes the new value over, it takes it over when there is one, or it
collects what it has not seen yet.  Whatever the rule, a sequence of upserts that is replayed
leaves the column as the first run left it.

## Main definitions

* `overwrite g`, `coalesce g`, `collect skip g` : the three rules, for values read by `g`.
-/

namespace ArgusSbomGuard

variable {α β : Type*}

/-- The new value replaces the old one. -/
def overwrite (g : β → α) (_ : α) (x : β) : α := g x

/-- The new value replaces the old one if there is a new value. -/
def coalesce (g : β → Option α) (a : Option α) (x : β) : Option α := g x <|> a

/-- The new value is appended unless it is skipped or there already. -/
def collect [DecidableEq α] (skip : α → Prop) [DecidablePred skip] (g : β → α) (as : List α)
    (x : β) : List α :=
  if skip (g x) ∨ g x ∈ as then as else as ++ [g x]

/-! ### Replaying -/

/-- The last value that was taken over stays. -/
theorem foldl_overwrite (g : β → α) (xs : List β) (a : α) :
    xs.foldl (overwrite g) a = (xs.getLast?.map g).getD a := by
  induction xs generalizing a with
  | nil => rfl
  | cons x xs ih =>
    rw [List.foldl_cons, ih, List.getLast?_cons]
    cases xs.getLast? <;> rfl

theorem foldl_overwrite_replay (g : β → α) (xs : List β) (a : α) :
    xs.foldl (overwrite g) (xs.foldl (overwrite g) a) = xs.foldl (overwrite g) a := by
  cases xs <;> rfl

theorem foldl_coalesce (g : β → Option α) (xs : List β) (a : Option α) :
    xs.foldl (coalesce g) a = (xs.foldl (coalesce g) none <|> a) := by
  induction xs generalizing a with
  | nil => rfl
  | cons x xs ih =>
    change xs.foldl _ (g x <|> a) = (xs.foldl _ (g x <|> none) <|> a)
    rw [ih (g x <|> a), ih (g x <|> none)]
    cases xs.foldl (coalesce g) none <;> cases g x <;> rfl

theorem foldl_coalesce_replay (g : β → Option α) (xs : List β) (a : Option α) :
    xs.foldl (coalesce g) (xs.foldl (coalesce g) a) = xs.foldl (coalesce g) a := by
  rw [foldl_coalesce g xs (xs.foldl _ a), foldl_coalesce g xs a]
  cases xs.foldl (coalesce g) none <;> rfl

/-- A value that is there, and any that replaces it, has the property. -/
theorem exists_foldl_coalesce {P : α → Prop} {g : β → Option α} {xs : List β} {a : Option α}
    (hg : ∀ x ∈ xs, ∀ y ∈ g x, P y) (ha : ∃ y ∈ a, P y) :
    ∃ y ∈ xs.foldl (coalesce g) a, P y := by
  induction xs generalizing a with
  | nil => exact ha
  | cons x xs ih =>
    refine ih (fun x' hx' => hg x' (List.mem_cons_of_mem _ hx')) ?_
    cases hx : g x with
    | none => simpa only [coalesce, hx, Option.orElse_eq_orElse, Option.orElse_none] using ha
    | some y => exact ⟨y, by rw [coalesce, hx]; rfl, hg x List.mem_cons_self y hx⟩

section Collect

variable [DecidableEq α] {skip : α → Prop} [DecidablePred skip] {g : β → α} {xs : List β}
  {as : List α} {y : α}

theorem mem_collect {x : β} : y ∈ collect skip g as x ↔ y ∈ as ∨ (y = g x ∧ ¬ skip y) := by
  unfold collect
  split_ifs with h
  · refine ⟨.inl, ?_⟩
    rintro (hy | ⟨rfl, hskip⟩)
    · exact hy
    · exact h.resolve_left hskip
  · rw [List.mem_append, List.mem_singleton]
    refine or_congr_right ⟨?_, And.left⟩
    rintro rfl
    exact ⟨rfl, fun hs => h (.inl hs)⟩

theorem mem_foldl_collect :
    y ∈ xs.foldl (collect skip g) as ↔ y ∈ as ∨ ((∃ x ∈ xs, y = g x) ∧ ¬ skip y) := by
  induction xs generalizing as with
  | nil => simp
  | cons x xs ih =>
    rw [List.foldl_cons, ih, mem_collect, or_assoc, List.exists_mem_cons_iff, or_and_right]

/-- Nothing is collected when all is there. -/
theorem foldl_collect_of_mem (h : ∀ x ∈ xs, skip (g x) ∨ g x ∈ as) :
    xs.foldl (collect skip g) as = as := by
  induction xs with
  | nil => rfl
  | cons x xs ih =>
    rw [List.foldl_cons, collect, if_pos (h x List.mem_cons_self)]
    exact ih fun x' hx' => h x' (List.mem_cons_of_mem _ hx')

theorem foldl_collect_replay :
    xs.foldl (collect skip g) (xs.foldl (collect skip g) as) = xs.foldl (collect skip g) as := by
  refine foldl_collect_of_mem fun x hx => ?_
  by_cases hs : skip (g x)
  · exact .inl hs
  · exact .inr (mem_foldl_collect.2 (.inr ⟨⟨x, hx, rfl⟩, hs⟩))

/-- **What is collected is listed in the order of its first occurrences.** -/
theorem foldl_collect_eraseDups {ys : List α} : xs.foldl (collect skip g) ys.eraseDups =
    (ys ++ (xs.map g).filter fun y => ¬ skip y).eraseDups := by
  induction xs generalizing ys with
  | nil => rw [List.foldl_nil, List.map_nil, List.filter_nil, List.append_nil]
  | cons x xs ih =>
    -- the first value joins the list of what has occurred
    have hfirst : collect skip g ys.eraseDups x =
        (ys ++ [g x].filter fun y => ¬ skip y).eraseDups := by
      by_cases hs : skip (g x)
      · simp [collect, hs]
      · by_cases hm : g x ∈ ys
        · simp [collect, hs, hm, List.eraseDups_append, List.removeAll]
        · simp [collect, hs, hm, List.eraseDups_append, List.removeAll, List.eraseDups_cons]
    rw [List.foldl_cons, hfirst, ih, List.append_assoc, ← List.filter_append]
    rfl

theorem nodup_foldl_collect (has : as.Nodup) : (xs.foldl (collect skip g) as).Nodup := by
  induction xs generalizing as with
  | nil => exact has
  | cons x xs ih =>
    refine ih ?_
    unfold collect
    split_ifs with h
    · exact has
    · refine List.nodup_append.2
        ⟨has, List.pairwise_singleton _ _, fun a ha b hb heq => h (.inr ?_)⟩
      rw [← List.mem_singleton.1 hb, ← heq]
      exact ha

theorem nodup_eraseDups (ys : List α) : ys.eraseDups.Nodup := by
  have hcollected : ys.foldl (collect (fun _ : α => False) id) [] = ys.eraseDups := by
    have hall : ys.foldl (collect (fun _ : α => False) id) ([] : List α).eraseDups =
        ([] ++ (ys.map id).filter fun _ => ¬ False).eraseDups := foldl_collect_eraseDups
    simpa using hall
  rw [← hcollected]
  exact nodup_foldl_collect List.nodup_nil

end Collect

end ArgusSbomGuard
