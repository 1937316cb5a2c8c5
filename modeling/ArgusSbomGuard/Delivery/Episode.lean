import Mathlib.Data.List.Basic
import Mathlib.Order.Nat

/-!
# Announcing something whose scope may change

Something that is open in some scope is announced over a channel that may fail.  An announcement
that failed is tried again until a number of attempts is used up, one that was delivered is not
repeated, and when the scope changes everything starts over for the new one.  What is no longer
open is forgotten.

The state of one announcement is an `Episode`.  While the scope stays the same, the attempts of a
whole run keep within the budget and end with the first delivery (`Spent.budget`).

## Main definitions

* `Episode σ` : nothing announced, attempts that failed so far, or a delivery.
* `Episode.due`, `Episode.attempt` : whether a delivery is to be attempted, and what it leaves.
* `Episode.used` : the part of the budget that is used up for a scope.
* `Episode.Spent` : the attempts of a run with one scope.
-/

namespace ArgusSbomGuard

/-- How far the announcement of something has come. -/
inductive Episode (σ : Type*)
  | idle
  | failed (scope : σ) (attempts : ℕ)
  | sent (scope : σ)

namespace Episode

variable {σ : Type*} [DecidableEq σ]

/-- Whether a delivery for the scope `now` is to be attempted, with a budget of `max` attempts. -/
def due (max : ℕ) (now : σ) : Episode σ → Bool
  | idle => true
  | failed scope attempts => decide (scope ≠ now ∨ attempts < max)
  | sent scope => decide (scope ≠ now)

/-- The attempts for the scope `now` that failed. -/
def failures (now : σ) : Episode σ → ℕ
  | failed scope attempts => if scope = now then attempts else 0
  | _ => 0

/-- The episode after an attempt. -/
def attempt (now : σ) (delivered : Bool) (e : Episode σ) : Episode σ :=
  if delivered then sent now else failed now (e.failures now + 1)

/-- The part of the budget that is used up for the scope `now`; a delivery uses all of it. -/
def used (max : ℕ) (now : σ) : Episode σ → ℕ
  | idle => 0
  | failed scope attempts => if scope = now then attempts else 0
  | sent scope => if scope = now then max else 0

/-- The attempts that failed are at least one and at most `max`. -/
def Bounded (max : ℕ) : Episode σ → Prop
  | failed _ attempts => 1 ≤ attempts ∧ attempts ≤ max
  | _ => True

variable {max : ℕ} {now : σ} {e e₀ : Episode σ} {delivered : Bool}

/-- A delivery is due as long as the budget is not used up. -/
theorem due_iff (hmax : 0 < max) : e.due max now = true ↔ e.used max now < max := by
  cases e with
  | idle => simp [due, used, hmax]
  | failed scope attempts =>
    simp only [due, used, decide_eq_true_eq]
    split_ifs with h <;> simp [h, hmax]
  | sent scope =>
    simp only [due, used, decide_eq_true_eq]
    split_ifs with h <;> simp [h, hmax]

theorem used_le (he : e.Bounded max) : e.used max now ≤ max := by
  cases e with
  | idle => exact Nat.zero_le max
  | failed scope attempts =>
    simp only [used]
    split_ifs
    · exact he.2
    · exact Nat.zero_le max
  | sent scope =>
    simp only [used]
    split_ifs
    · exact le_rfl
    · exact Nat.zero_le max

theorem failures_eq_used (h : e.due max now = true) : e.failures now = e.used max now := by
  cases e with
  | sent scope =>
    have hne : scope ≠ now := by simpa [due] using h
    simp [failures, used, hne]
  | _ => rfl

@[simp] theorem used_attempt_delivered : (e.attempt now true).used max now = max := by
  simp [attempt, used]

@[simp] theorem used_attempt_failed :
    (e.attempt now false).used max now = e.failures now + 1 := by
  simp [attempt, used]

/-- An attempt that was due stays within the budget. -/
theorem bounded_attempt (hmax : 0 < max) (h : e.due max now = true) :
    (e.attempt now delivered).Bounded max := by
  cases delivered with
  | true => trivial
  | false =>
    have hlt := (due_iff hmax).1 h
    rw [← failures_eq_used h] at hlt
    exact ⟨Nat.le_add_left 1 _, hlt⟩

/-! ### Runs with one scope -/

/-- From the episode `e₀` the attempts `xs` for the scope `now` led to the episode `e`: all of
them failed, or the last one was delivered. -/
def Spent (max : ℕ) (now : σ) (e₀ : Episode σ) (xs : List Bool) (e : Episode σ) : Prop :=
  (∀ ys zs, xs = ys ++ true :: zs → zs = [] ∧ e.used max now = max) ∧
    xs.length + e₀.used max now ≤ e.used max now ∧ e.used max now ≤ max

theorem Spent.refl (he : e.Bounded max) : Spent max now e [] e :=
  ⟨fun _ _ h => by simp at h, by simp, used_le he⟩

/-- One more attempt, which was due. -/
theorem Spent.attempt {xs : List Bool} (hmax : 0 < max) (h : Spent max now e₀ xs e)
    (hdue : e.due max now = true) :
    Spent max now e₀ (xs ++ [delivered]) (e.attempt now delivered) := by
  have hlt := (due_iff hmax).1 hdue
  have hlen := h.2.1
  -- nothing was delivered so far, because a delivery would have used up the budget
  have hnone : ∀ ys zs, xs ≠ ys ++ true :: zs := fun ys zs hxs =>
    absurd (h.1 ys zs hxs).2 hlt.ne
  refine ⟨fun ys zs hxs => ?_, ?_, ?_⟩
  · rcases List.append_eq_append_iff.1 hxs with ⟨as, rfl, hrest⟩ | ⟨as, rfl, hrest⟩
    · cases as with
      | nil =>
        obtain ⟨rfl, hzs⟩ := List.cons.inj hrest
        exact ⟨hzs.symm, used_attempt_delivered⟩
      | cons a as => simp at hrest
    · cases as with
      | nil =>
        obtain ⟨rfl, hzs⟩ := List.cons.inj hrest
        exact ⟨hzs, used_attempt_delivered⟩
      | cons a as =>
        obtain ⟨rfl, -⟩ := List.cons.inj hrest
        exact absurd rfl (hnone ys as)
  · rw [List.length_append, List.length_singleton]
    cases delivered with
    | true => rw [used_attempt_delivered]; omega
    | false => rw [used_attempt_failed, failures_eq_used hdue]; omega
  · cases delivered with
    | true => rw [used_attempt_delivered]
    | false => rw [used_attempt_failed, failures_eq_used hdue]; omega

/-- **The budget.**  The attempts keep within what was left of the budget, and nothing is
attempted after a delivery. -/
theorem Spent.budget {xs : List Bool} (h : Spent max now e₀ xs e) :
    xs.length + e₀.used max now ≤ max ∧ ∀ ys zs, xs = ys ++ true :: zs → zs = [] :=
  ⟨h.2.1.trans h.2.2, fun ys zs hxs => (h.1 ys zs hxs).1⟩

/-- Nothing after a delivery means one delivery at most. -/
theorem count_true_le_one {xs : List Bool} (h : ∀ ys zs, xs = ys ++ true :: zs → zs = []) :
    xs.count true ≤ 1 := by
  induction xs with
  | nil => exact Nat.zero_le 1
  | cons x xs ih =>
    cases x with
    | true => rw [h [] xs rfl, List.count_singleton_self]
    | false =>
      rw [List.count_cons_of_ne (by decide)]
      exact ih fun ys zs heq => h (false :: ys) zs (congrArg (List.cons false) heq)

end Episode

end ArgusSbomGuard
