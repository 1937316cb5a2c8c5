import ArgusSbomGuard.Transition.Session
import Mathlib.Data.Fintype.Basic
import Mathlib.Logic.Function.Basic

/-!
# Any number of transactions on a shared store

Transactions at the isolation level `read committed`: each step of a transaction sees the store as
it is committed, together with the writes of its own transaction.  A write that conflicts with a
pending write of another transaction (the same row, or the same unique key) waits for the end of the
other one; when the wait is over the step is taken again on what is committed then.  A transaction
may be aborted at any time.  So the pending writes of different transactions never conflict
(`Transactions.apart_step`).

Stores, writes and program counters are arbitrary types.  Invariants are proved move by move
(`Transactions.step_cases`), and a move leaves all transactions but one alone
(`Shared.put_other`).

## Main definitions

* `Shared` : the committed store and the transactions.
* `Transactions` : what the transactions do, and which writes wait for each other.
* `Transactions.step` : the next state.
* `Transactions.machine` : the machine, in which all transactions begin.
* `writeAt` : the write of one row of a store that is a function of its keys.
* `Consistent` : no conflicts between the rows of a store that is a list of inserted rows.
-/

namespace ArgusSbomGuard

/-- A transaction with the writes it has issued. -/
structure Txn (W P : Type*) where
  pending : List W
  status : Status P

/-- The committed store, and the transactions. -/
structure Shared (ι D W P : Type*) where
  store : D
  txns : ι → Txn W P

/-- A transaction takes its next step, or is aborted. -/
inductive Move (ι : Type*)
  | step (i : ι)
  | abort (i : ι)

/-- Two transactions can be named by numerals. -/
instance twoTransactions : @NeZero ℕ Zero.ofOfNat0 2 :=
  ⟨Nat.succ_ne_zero 1⟩

/-- What the transactions do. -/
structure Transactions (ι D W P : Type*) where
  write : D → W → D
  routine : ι → P → D → Outcome W P
  /-- The writes of two transactions that cannot both be pending. -/
  Conflict : W → W → Prop
  decConflict : DecidableRel Conflict

variable {ι D W P : Type*} [DecidableEq ι]

/-- Another store, and one transaction changed. -/
def Shared.put (s : Shared ι D W P) (store : D) (i : ι) (t : Txn W P) : Shared ι D W P :=
  ⟨store, Function.update s.txns i t⟩

namespace Shared

variable {s : Shared ι D W P} {store : D} {i j : ι} {t : Txn W P}

@[simp] theorem put_store : (s.put store i t).store = store := rfl

@[simp] theorem put_self : (s.put store i t).txns i = t := by
  simp only [put, Function.update_self]

theorem put_other (h : j ≠ i) : (s.put store i t).txns j = s.txns j := by
  simp only [put, Function.update_of_ne h]

/-- All transactions begin. -/
def start (store : D) (pc : ι → P) : Shared ι D W P := ⟨store, fun i => ⟨[], .running (pc i)⟩⟩

end Shared

namespace Transactions

variable (T : Transactions ι D W P)

/-- The store as the transaction `i` sees it. -/
def view (s : Shared ι D W P) (i : ι) : D := (s.txns i).pending.foldl T.write s.store

/-- A write has to wait for another transaction than `i`. -/
def Blocked (s : Shared ι D W P) (i : ι) (ws : List W) : Prop :=
  ∃ j, j ≠ i ∧ ∃ w ∈ ws, ∃ w' ∈ (s.txns j).pending, T.Conflict w w'

instance [Fintype ι] (s : Shared ι D W P) (i : ι) (ws : List W) : Decidable (T.Blocked s i ws) :=
  have := T.decConflict
  inferInstanceAs (Decidable (∃ j, j ≠ i ∧ ∃ w ∈ ws, _))

/-- The next state; a blocked transaction cannot take its step. -/
def step [Fintype ι] (s : Shared ι D W P) : Move ι → Option (Shared ι D W P)
  | .step i => match (s.txns i).status with
    | .running pc => match T.routine i pc (T.view s i) with
      | .next ws pc =>
        if T.Blocked s i ws then none
        else some (s.put s.store i ⟨(s.txns i).pending ++ ws, .running pc⟩)
      | .commit => some (s.put (T.view s i) i ⟨[], .committed⟩)
      | .rollback => some (s.put s.store i ⟨[], .rolledBack⟩)
    | _ => none
  | .abort i => match (s.txns i).status with
    | .running _ => some (s.put s.store i ⟨[], .rolledBack⟩)
    | _ => none

/-- The machine in which all transactions begin on a store. -/
def machine [Fintype ι] (store : D) (pc : ι → P) : Machine (Shared ι D W P) (Move ι) where
  init := .start store pc
  step := T.step

variable {T} {s s' : Shared ι D W P} {i j : ι}

omit [DecidableEq ι] in
theorem view_of_pending_nil (h : (s.txns i).pending = []) : T.view s i = s.store := by
  rw [view, h]
  rfl

theorem view_put_self {store : D} {t : Txn W P} :
    T.view (s.put store i t) i = t.pending.foldl T.write store := by
  rw [view, Shared.put_self, Shared.put_store]

/-- A move that stores nothing does not change what the others see. -/
theorem view_put_other {t : Txn W P} (h : j ≠ i) :
    T.view (s.put s.store i t) j = T.view s j := by
  rw [view, Shared.put_other h, Shared.put_store]
  rfl

/-- What a move can do. -/
theorem step_cases [Fintype ι] {m : Move ι} (h : T.step s m = some s') :
    (∃ i pc, m = .step i ∧ (s.txns i).status = .running pc ∧
      ((∃ ws pc', T.routine i pc (T.view s i) = .next ws pc' ∧ ¬ T.Blocked s i ws ∧
          s' = s.put s.store i ⟨(s.txns i).pending ++ ws, .running pc'⟩) ∨
        (T.routine i pc (T.view s i) = .commit ∧ s' = s.put (T.view s i) i ⟨[], .committed⟩) ∨
        (T.routine i pc (T.view s i) = .rollback ∧ s' = s.put s.store i ⟨[], .rolledBack⟩))) ∨
      ∃ i pc, m = .abort i ∧ (s.txns i).status = .running pc ∧
        s' = s.put s.store i ⟨[], .rolledBack⟩ := by
  cases m with
  | step i =>
    refine .inl ?_
    simp only [step] at h
    split at h
    · rename_i pc hpc
      refine ⟨i, pc, rfl, hpc, ?_⟩
      split at h
      · rename_i ws pc' hout
        split_ifs at h with hblocked
        exact .inl ⟨ws, pc', hout, hblocked, (Option.some.inj h).symm⟩
      · rename_i hout
        exact .inr (.inl ⟨hout, (Option.some.inj h).symm⟩)
      · rename_i hout
        exact .inr (.inr ⟨hout, (Option.some.inj h).symm⟩)
    · cases h
  | abort i =>
    refine .inr ?_
    simp only [step] at h
    split at h
    · rename_i pc hpc
      exact ⟨i, pc, rfl, hpc, (Option.some.inj h).symm⟩
    · cases h

/-- No two transactions have conflicting writes. -/
def Apart (T : Transactions ι D W P) (s : Shared ι D W P) : Prop :=
  ∀ i j, i ≠ j → ∀ w ∈ (s.txns i).pending, ∀ w' ∈ (s.txns j).pending, ¬ T.Conflict w w'

/-- A transaction whose pending writes are changed for others that conflict with nothing. -/
theorem Apart.put (h : Apart T s) (hsymm : ∀ w w', T.Conflict w w' → T.Conflict w' w) {store : D}
    {t : Txn W P}
    (hfree : ∀ j, j ≠ i → ∀ w ∈ t.pending, ∀ w' ∈ (s.txns j).pending, ¬ T.Conflict w w') :
    Apart T (s.put store i t) := by
  intro j k hjk w hw w' hw'
  by_cases hj : j = i
  · subst hj
    rw [Shared.put_self] at hw
    rw [Shared.put_other hjk.symm] at hw'
    exact hfree k hjk.symm w hw w' hw'
  · rw [Shared.put_other hj] at hw
    by_cases hk : k = i
    · subst hk
      rw [Shared.put_self] at hw'
      exact fun hc => hfree j hj w' hw' w hw (hsymm w w' hc)
    · rw [Shared.put_other hk] at hw'
      exact h j k hjk w hw w' hw'

/-- **Pending writes never conflict.** -/
theorem apart_step [Fintype ι] {m : Move ι} (h : Apart T s)
    (hsymm : ∀ w w', T.Conflict w w' → T.Conflict w' w) (hst : T.step s m = some s') :
    Apart T s' := by
  have hnil : ∀ {i : ι} {store : D} {status : Status P},
      Apart T (s.put store i ⟨[], status⟩) := by
    intro i store status
    exact h.put hsymm fun _ _ _ hw => absurd hw List.not_mem_nil
  rcases step_cases hst with ⟨i, pc, -, -, hout⟩ | ⟨i, pc, -, -, rfl⟩
  · rcases hout with ⟨ws, pc', -, hfree, rfl⟩ | ⟨-, rfl⟩ | ⟨-, rfl⟩
    · refine h.put hsymm fun j hji w hw w' hw' hc => ?_
      rcases List.mem_append.1 hw with hw | hw
      · exact h i j hji.symm w hw w' hw' hc
      · exact hfree ⟨j, hji, w, hw, w', hw', hc⟩
    · exact hnil
    · exact hnil
  · exact hnil

end Transactions

/-! ### Stores with rows -/

section Rows

variable {κ R : Type*} [DecidableEq κ] {key : W → κ} {act : W → R → R}

/-- The row with the key of the write becomes what the write makes of it. -/
def writeAt (key : W → κ) (act : W → R → R) (d : κ → R) (w : W) : κ → R :=
  Function.update d (key w) (act w (d (key w)))

theorem writeAt_self {d : κ → R} {w : W} : writeAt key act d w (key w) = act w (d (key w)) :=
  Function.update_self ..

theorem writeAt_other {d : κ → R} {w : W} {k : κ} (h : k ≠ key w) : writeAt key act d w k = d k :=
  Function.update_of_ne h ..

/-- A row after some writes depends on the row before and on the writes of its key. -/
theorem foldl_writeAt (ws : List W) (d : κ → R) (k : κ) :
    ws.foldl (writeAt key act) d k =
      (ws.filter fun w => key w = k).foldl (fun r w => act w r) (d k) := by
  induction ws generalizing d with
  | nil => rfl
  | cons w ws ih =>
    rw [List.foldl_cons, ih]
    by_cases hk : key w = k
    · subst hk
      rw [List.filter_cons_of_pos (by simp), List.foldl_cons, writeAt_self]
    · rw [List.filter_cons_of_neg (by simpa using hk), writeAt_other (Ne.symm hk)]

/-- Without a write of its key a row stays what it is. -/
theorem foldl_writeAt_of_forall_ne {ws : List W} {d : κ → R} {k : κ} (h : ∀ w ∈ ws, key w ≠ k) :
    ws.foldl (writeAt key act) d k = d k := by
  rw [foldl_writeAt, List.filter_eq_nil_iff.2 (by simpa using h)]
  rfl

/-- After a commit another transaction sees a row as before, or, when it has not written the row, as
the transaction that has committed saw it. -/
theorem Transactions.view_commit {T : Transactions ι (κ → R) W P} {s : Shared ι (κ → R) W P}
    (hwrite : T.write = writeAt key act) (hconflict : ∀ w w', key w = key w' → T.Conflict w w')
    (hapart : Apart T s) {i j : ι} (hji : j ≠ i) (t : Txn W P) (k : κ) :
    (T.view s i k = s.store k ∧ T.view (s.put (T.view s i) i t) j k = T.view s j k) ∨
      (T.view s j k = s.store k ∧ T.view (s.put (T.view s i) i t) j k = T.view s i k) := by
  have hview : ∀ j (s : Shared ι (κ → R) W P), T.view s j k =
      ((s.txns j).pending.filter fun w => key w = k).foldl (fun r w => act w r) (s.store k) := by
    intro j s
    rw [view, hwrite, foldl_writeAt]
  have hsame : ∀ j, (∀ w ∈ (s.txns j).pending, key w ≠ k) → T.view s j k = s.store k := by
    intro j hj
    rw [view, hwrite, foldl_writeAt_of_forall_ne hj]
  have hafter : T.view (s.put (T.view s i) i t) j k =
      ((s.txns j).pending.filter fun w => key w = k).foldl (fun r w => act w r)
        (T.view s i k) := by
    rw [hview j, Shared.put_other hji, Shared.put_store]
  by_cases hw : ∃ w ∈ (s.txns j).pending, key w = k
  · obtain ⟨w, hw, rfl⟩ := hw
    have hi : T.view s i (key w) = s.store (key w) := by
      refine hsame i fun w' hw' heq => ?_
      exact hapart j i hji w hw w' hw' (hconflict w w' heq.symm)
    exact .inl ⟨hi, by rw [hafter, hi, hview j s]⟩
  · have hnone : ∀ w ∈ (s.txns j).pending, key w ≠ k := fun w hj heq => hw ⟨w, hj, heq⟩
    refine .inr ⟨hsame j hnone, ?_⟩
    rw [hafter, List.filter_eq_nil_iff.2 (by simpa using hnone)]
    rfl

end Rows

/-! ### Stores of inserted rows -/

section Inserted

variable {T : Transactions ι (List W) W P} {s s' : Shared ι (List W) W P} {i j : ι}

omit [DecidableEq ι] in
/-- When a write adds a row, a transaction sees its rows after those that are committed. -/
theorem Transactions.view_inserted (hwrite : T.write = fun d w => d ++ [w]) :
    T.view s i = s.store ++ (s.txns i).pending := by
  have hfold : ∀ (ws d : List W), ws.foldl (fun d w => d ++ [w]) d = d ++ ws := by
    intro ws
    induction ws with
    | nil => exact fun d => (List.append_nil d).symm
    | cons w ws ih =>
      intro d
      rw [List.foldl_cons, ih, List.append_assoc]
      rfl
  rw [view, hwrite, hfold]

/-- What a transaction sees after the commit of another one: its own view, and the new rows. -/
theorem Transactions.mem_view_commit (hwrite : T.write = fun d w => d ++ [w]) (hji : j ≠ i)
    {t : Txn W P} {w : W} :
    w ∈ T.view (s.put (T.view s i) i t) j ↔ w ∈ T.view s j ∨ w ∈ (s.txns i).pending := by
  rw [view_inserted hwrite, view_inserted hwrite, view_inserted hwrite, Shared.put_other hji,
    Shared.put_store, List.mem_append, List.mem_append, List.mem_append, or_right_comm]

/-- No two rows that are committed, or that one transaction sees, conflict. -/
structure Consistent (T : Transactions ι (List W) W P) (s : Shared ι (List W) W P) : Prop where
  store : s.store.Pairwise fun w w' => ¬ T.Conflict w w'
  view : ∀ i, (T.view s i).Pairwise fun w w' => ¬ T.Conflict w w'

/-- **No conflicting rows are committed**, when no transaction inserts a row that conflicts with one
it sees. -/
theorem consistent_step [Fintype ι] {m : Move ι} (hwrite : T.write = fun d w => d ++ [w])
    (hcheck : ∀ i pc d ws pc', T.routine i pc d = .next ws pc' →
      (d.Pairwise fun w w' => ¬ T.Conflict w w') →
        (d ++ ws).Pairwise fun w w' => ¬ T.Conflict w w')
    (hapart : Transactions.Apart T s) (h : Consistent T s) (hst : T.step s m = some s') :
    Consistent T s' := by
  -- a transaction that is put aside leaves the views of the others
  have hput : ∀ {i : ι} {t : Txn W P},
      ((s.store ++ t.pending).Pairwise fun w w' => ¬ T.Conflict w w') →
        Consistent T (s.put s.store i t) := by
    intro i t hi
    refine ⟨h.store, fun j => ?_⟩
    by_cases hji : j = i
    · subst hji
      rwa [Transactions.view_inserted hwrite, Shared.put_self, Shared.put_store]
    · rw [Transactions.view_put_other hji]
      exact h.view j
  rcases Transactions.step_cases hst with ⟨i, pc, rfl, hpc, hout⟩ | ⟨i, pc, rfl, -, rfl⟩
  · rcases hout with ⟨ws, pc', hout, -, rfl⟩ | ⟨-, rfl⟩ | ⟨-, rfl⟩
    · refine hput ?_
      rw [← List.append_assoc, ← Transactions.view_inserted hwrite]
      exact hcheck i pc _ ws pc' hout (h.view i)
    · refine ⟨h.view i, fun j => ?_⟩
      rw [Transactions.view_inserted hwrite, Shared.put_store]
      by_cases hji : j = i
      · subst hji
        rw [Shared.put_self, List.append_nil]
        exact h.view j
      · rw [Shared.put_other hji]
        have hj := h.view j
        rw [Transactions.view_inserted hwrite, List.pairwise_append] at hj
        refine List.pairwise_append.2 ⟨h.view i, hj.2.1, fun w hw w' hw' => ?_⟩
        rw [Transactions.view_inserted hwrite] at hw
        rcases List.mem_append.1 hw with hw | hw
        · exact hj.2.2 w hw w' hw'
        · exact hapart i j (Ne.symm hji) w hw w' hw'
    · exact hput (by rw [List.append_nil]; exact h.store)
  · exact hput (by rw [List.append_nil]; exact h.store)

end Inserted

end ArgusSbomGuard
