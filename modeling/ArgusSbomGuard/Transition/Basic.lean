import Mathlib.Logic.Basic
import Mathlib.Order.Defs.PartialOrder

/-!
# Machines and guarded runs

A machine is a state with a partial step function: `step s a` is the state after action `a`,
or `none` when `a` cannot happen in `s`.  A property of all runs is proved by an invariant
(`Machine.Reaches.invariant`); a property of the runs whose every step satisfies a condition
is the same statement for `Machine.Reaches P`, where `P s a` is the condition on taking `a`
in state `s`.  A quantity that the steps can only enlarge is the same at both ends of a run
exactly when no step enlarged it (`Machine.run_eq_iff`).

## Main definitions

* `Machine S A` : an initial state and a step function.
* `Machine.Reaches P s` : a run from the initial state to `s` all of whose steps satisfy `P`.
* `Machine.Reachable s` : a run from the initial state to `s`.
* `Machine.startingAt s` : the machine that starts in another state.
* `Machine.run`, `Machine.after` : the state after a list of actions, for concrete runs.
* `Machine.outputs` : what the steps of a run put out, the history that a state results from.
-/

namespace ArgusSbomGuard

/-- A machine with states `S` and actions `A`. -/
structure Machine (S : Type*) (A : Type*) where
  init : S
  step : S → A → Option S

namespace Machine

variable {S A : Type*} (M : Machine S A)

/-- A run from the initial state whose every step satisfies `P` ends in the given state. -/
inductive Reaches (P : S → A → Prop) : S → Prop
  | init : Reaches P M.init
  | step {s s' : S} {a : A} : Reaches P s → P s a → M.step s a = some s' → Reaches P s'

/-- Some run from the initial state ends in the given state. -/
def Reachable : S → Prop := M.Reaches fun _ _ => True

/-- The machine with another initial state. -/
def startingAt (s : S) : Machine S A := { M with init := s }

/-- The state after the actions `as` from `s`, if they can happen in this order. -/
def run : S → List A → Option S
  | s, [] => some s
  | s, a :: as => (M.step s a).bind fun s' => run s' as

/-- Every step of the run `as` from `s` satisfies `P`. -/
def Allowed (P : S → A → Prop) : S → List A → Prop
  | _, [] => True
  | s, a :: as => P s a ∧ ∀ s', M.step s a = some s' → Allowed P s' as

instance Allowed.decidable (P : S → A → Prop) [∀ s a, Decidable (P s a)] :
    (s : S) → (as : List A) → Decidable (M.Allowed P s as)
  | _, [] => .isTrue trivial
  | s, a :: as =>
    have : Decidable (∀ s', M.step s a = some s' → Allowed M P s' as) :=
      match M.step s a with
      | none => .isTrue nofun
      | some t => match decidable P t as with
        | .isTrue hP => .isTrue fun _ ht => Option.some.inj ht ▸ hP
        | .isFalse hP => .isFalse fun hall => hP (hall t rfl)
    inferInstanceAs (Decidable (P s a ∧ _))

/-- What the steps of the run `as` from `s` put out, in order. -/
def outputs {β : Type*} (out : S → A → List β) : S → List A → List β
  | _, [] => []
  | s, a :: as => out s a ++ match M.step s a with
    | some s' => outputs out s' as
    | none => []

variable {M} {P Q : S → A → Prop}

namespace Reaches

theorem mono (hPQ : ∀ s a, P s a → Q s a) {s : S} (h : M.Reaches P s) : M.Reaches Q s := by
  induction h with
  | init => exact .init
  | step _ hP hst ih => exact .step ih (hPQ _ _ hP) hst

theorem reachable {s : S} (h : M.Reaches P s) : M.Reachable s := h.mono fun _ _ _ => trivial

/-- A predicate that holds initially and is preserved by every step allowed by `P` holds in
every state that such steps reach. -/
theorem invariant {I : S → Prop} {s : S} (h : M.Reaches P s) (hinit : I M.init)
    (hstep : ∀ s a s', I s → P s a → M.step s a = some s' → I s') : I s := by
  induction h with
  | init => exact hinit
  | step _ hP hst ih => exact hstep _ _ _ ih hP hst

/-- A predicate that is preserved where an invariant `I` of all steps holds. -/
theorem invariant_under {I J : S → Prop} {s : S} (h : M.Reaches P s) (hI : I M.init)
    (hIstep : ∀ s a s', I s → M.step s a = some s' → I s') (hJ : J M.init)
    (hJstep : ∀ s a s', I s → J s → P s a → M.step s a = some s' → J s') : J s := by
  have hboth : I s ∧ J s := by
    refine h.invariant (I := fun s => I s ∧ J s) ⟨hI, hJ⟩ fun s a s' ⟨hi, hj⟩ hP hst => ?_
    exact ⟨hIstep s a s' hi hst, hJstep s a s' hi hj hP hst⟩
  exact hboth.2

theorem run {as : List A} {s s' : S} (h : M.Reaches P s) (hP : M.Allowed P s as)
    (hrun : M.run s as = some s') : M.Reaches P s' := by
  induction as generalizing s with
  | nil => obtain rfl := Option.some.inj hrun; exact h
  | cons a as ih =>
    obtain ⟨t, ht, hrest⟩ := Option.bind_eq_some_iff.1 hrun
    exact ih (h.step hP.1 ht) (hP.2 t ht) hrest

end Reaches

theorem allowed_true (as : List A) (s : S) : M.Allowed (fun _ _ => True) s as := by
  induction as generalizing s with
  | nil => trivial
  | cons a as ih => exact ⟨trivial, fun s' _ => ih s'⟩

/-- Two conditions that agree on the steps of a run, as long as the second one has kept an
invariant, allow the same runs. -/
theorem allowed_congr {I : S → Prop} {R : S → A → Prop}
    (hI : ∀ s a s', I s → Q s a → M.step s a = some s' → I s')
    (h : ∀ s a, I s → P s a → (R s a ↔ Q s a)) {as : List A} {s : S} (hs : I s)
    (hP : M.Allowed P s as) : M.Allowed R s as ↔ M.Allowed Q s as := by
  induction as generalizing s with
  | nil => rfl
  | cons a as ih =>
    constructor
    · rintro ⟨hr, hrest⟩
      have hq : Q s a := (h s a hs hP.1).1 hr
      exact ⟨hq, fun s' hst => (ih (hI s a s' hs hq hst) (hP.2 s' hst)).1 (hrest s' hst)⟩
    · rintro ⟨hq, hrest⟩
      refine ⟨(h s a hs hP.1).2 hq, fun s' hst => ?_⟩
      exact (ih (hI s a s' hs hq hst) (hP.2 s' hst)).2 (hrest s' hst)

/-- A relation between the history and the state that every step keeps. -/
theorem run_outputs {β : Type*} {f : S → A → List β} {I : List β → S → Prop}
    (hstep : ∀ h s a s', I h s → M.step s a = some s' → I (h ++ f s a) s')
    {h : List β} {as : List A} {s s' : S} (hs : I h s) (hrun : M.run s as = some s') :
    I (h ++ M.outputs f s as) s' := by
  induction as generalizing s h with
  | nil =>
    obtain rfl := Option.some.inj hrun
    rwa [outputs, List.append_nil]
  | cons a as ih =>
    obtain ⟨t, ht, hrest⟩ := Option.bind_eq_some_iff.1 hrun
    simp only [outputs, ht]
    rw [← List.append_assoc]
    exact ih (hstep h s a t hs ht) hrest

/-- The same for a relation that the allowed steps keep. -/
theorem allowed_run_outputs {β : Type*} {f : S → A → List β} {I : List β → S → Prop}
    (hstep : ∀ h s a s', I h s → P s a → M.step s a = some s' → I (h ++ f s a) s')
    {h : List β} {as : List A} {s s' : S} (hs : I h s) (hP : M.Allowed P s as)
    (hrun : M.run s as = some s') : I (h ++ M.outputs f s as) s' := by
  induction as generalizing s h with
  | nil =>
    obtain rfl := Option.some.inj hrun
    rwa [outputs, List.append_nil]
  | cons a as ih =>
    obtain ⟨t, ht, hrest⟩ := Option.bind_eq_some_iff.1 hrun
    simp only [outputs, ht]
    rw [← List.append_assoc]
    exact ih (hstep h s a t hs hP.1 ht) (hP.2 t ht) hrest

/-- What every allowed step puts out is computed from what another output shows of it. -/
theorem outputs_map {β γ : Type*} {f : S → A → List β} {g : S → A → List γ} {F : γ → β}
    (h : ∀ s a, P s a → f s a = (g s a).map F) {as : List A} {s : S} (hP : M.Allowed P s as) :
    M.outputs f s as = (M.outputs g s as).map F := by
  induction as generalizing s with
  | nil => rfl
  | cons a as ih =>
    rw [outputs, outputs, List.map_append, h s a hP.1]
    refine congrArg ((g s a).map F ++ ·) ?_
    cases hst : M.step s a with
    | none => rfl
    | some s' => exact ih (hP.2 s' hst)

theorem run_append {as bs : List A} {s s' : S} (hrun : M.run s as = some s') :
    M.run s (as ++ bs) = M.run s' bs := by
  induction as generalizing s with
  | nil => rw [Option.some.inj hrun, List.nil_append]
  | cons a as ih =>
    obtain ⟨t, ht, hrest⟩ := Option.bind_eq_some_iff.1 hrun
    rw [List.cons_append, run, ht, Option.bind_some, ih hrest]

theorem outputs_append {β : Type*} {f : S → A → List β} {as bs : List A} {s s' : S}
    (hrun : M.run s as = some s') :
    M.outputs f s (as ++ bs) = M.outputs f s as ++ M.outputs f s' bs := by
  induction as generalizing s with
  | nil => rw [Option.some.inj hrun, outputs, List.nil_append, List.nil_append]
  | cons a as ih =>
    obtain ⟨t, ht, hrest⟩ := Option.bind_eq_some_iff.1 hrun
    simp only [List.cons_append, outputs, ht, ih hrest, List.append_assoc]

section Growing

variable {α : Type*} [PartialOrder α] {I : S → Prop} {f : S → α} {s s' : S} {as : List A}

/-- What no allowed step makes smaller, no allowed run makes smaller. -/
theorem le_of_run (hI : ∀ s a s', I s → M.step s a = some s' → I s')
    (hle : ∀ s a s', I s → P s a → M.step s a = some s' → f s ≤ f s')
    (hs : I s) (hP : M.Allowed P s as) (hrun : M.run s as = some s') : f s ≤ f s' := by
  induction as generalizing s with
  | nil =>
    obtain rfl := Option.some.inj hrun
    exact le_refl (f s)
  | cons a as ih =>
    obtain ⟨t, ht, hrest⟩ := Option.bind_eq_some_iff.1 hrun
    exact le_trans (hle s a t hs hP.1 ht) (ih (hI s a t hs ht) (hP.2 t ht) hrest)

/-- **What can only grow ends as it began exactly when no step made it grow.**  `Q` says of a step
that it does not. -/
theorem run_eq_iff (hI : ∀ s a s', I s → M.step s a = some s' → I s')
    (hle : ∀ s a s', I s → P s a → M.step s a = some s' → f s ≤ f s')
    (hQ : ∀ s a s', I s → P s a → M.step s a = some s' → (f s' = f s ↔ Q s a))
    (hs : I s) (hP : M.Allowed P s as) (hrun : M.run s as = some s') :
    f s' = f s ↔ M.Allowed Q s as := by
  induction as generalizing s with
  | nil =>
    obtain rfl := Option.some.inj hrun
    exact iff_of_true rfl trivial
  | cons a as ih =>
    obtain ⟨t, ht, hrest⟩ := Option.bind_eq_some_iff.1 hrun
    have hst : f s ≤ f t := hle s a t hs hP.1 ht
    have hih : f s' = f t ↔ M.Allowed Q t as := ih (hI s a t hs ht) (hP.2 t ht) hrest
    constructor
    · intro heq
      -- the state in between is caught between two equal ones
      have hts : f t ≤ f s := heq ▸ le_of_run hI hle (hI s a t hs ht) (hP.2 t ht) hrest
      have hmid : f t = f s := le_antisymm hts hst
      refine ⟨(hQ s a t hs hP.1 ht).1 hmid, fun t' ht' => ?_⟩
      obtain rfl := Option.some.inj (ht.symm.trans ht')
      exact hih.1 (heq.trans hmid.symm)
    · rintro ⟨hq, hall⟩
      exact (hih.2 (hall t ht)).trans ((hQ s a t hs hP.1 ht).2 hq)

end Growing

variable (M) in
/-- The end of the run `as` from the initial state, all of whose actions can happen. -/
def after (as : List A) (h : (M.run M.init as).isSome) : S := (M.run M.init as).get h

theorem reaches_after {as : List A} {h : (M.run M.init as).isSome}
    (hP : M.Allowed P M.init as) : M.Reaches P (M.after as h) :=
  Reaches.init.run hP (Option.some_get h).symm

theorem reachable_after {as : List A} {h : (M.run M.init as).isSome} :
    M.Reachable (M.after as h) :=
  reaches_after (allowed_true as M.init)

end Machine

instance decidableExistsSome {α : Type*} (x : Option α) (p : α → Prop) [DecidablePred p] :
    Decidable (∃ a, x = some a ∧ p a) :=
  match x with
  | none => .isFalse nofun
  | some a => decidable_of_iff (p a)
    ⟨fun h => ⟨a, rfl, h⟩, fun ⟨_, ha, h⟩ => Option.some.inj ha ▸ h⟩

instance decidableForallSome {α : Type*} (x : Option α) (p : α → Prop) [DecidablePred p] :
    Decidable (∀ a, x = some a → p a) :=
  match x with
  | none => .isTrue nofun
  | some a => decidable_of_iff (p a) ⟨fun h _ ha => Option.some.inj ha ▸ h, fun h => h a rfl⟩

end ArgusSbomGuard
