import ArgusSbomGuard.Transition.Basic

/-!
# Transactions on a shared store

A transaction runs a *routine* on a store that others may change as well.  In each step the
routine sees the committed store together with the writes its own transaction has issued (the
view of `read committed`), and it issues more writes, commits, or gives up.

A routine that nobody disturbs has one result, which an evaluation of the routine computes in one
go: if the evaluation agrees with every single step (`Evaluates`), the result of a session does
not change from step to step (`Session.result_step`), wherever the session was stopped and
whatever happened to the store before.  So a session that is disturbed once ends with the
evaluation of the rest of its routine on the view after the disturbance.

Stores, writes and program counters are arbitrary types.

## Main definitions

* `Outcome` : what a routine does in one step.
* `Session`, `Session.view`, `Session.step` : a transaction in progress.
* `Evaluates` : a function computes what a routine commits.
* `Session.result` : what a session is going to commit if nobody disturbs it.
-/

namespace ArgusSbomGuard

variable {D W P : Type*}

/-- One step of a routine: issue writes and go on, commit, or give up. -/
inductive Outcome (W P : Type*)
  | next (writes : List W) (pc : P)
  | commit
  | rollback

/-- How far a transaction is. -/
inductive Status (P : Type*)
  | running (pc : P)
  | committed
  | rolledBack

/-- Where the routine stands, while it runs. -/
def Status.pc? : Status P → Option P
  | .running pc => some pc
  | _ => none

instance (status : Status P) : Decidable (status = .committed) :=
  match status with
  | .running _ => .isFalse nofun
  | .committed => .isTrue rfl
  | .rolledBack => .isFalse nofun

/-- The committed store, and a transaction with the writes it has issued. -/
structure Session (D W P : Type*) where
  store : D
  pending : List W
  status : Status P

namespace Session

/-- A transaction that begins. -/
def start (store : D) (pc : P) : Session D W P := ⟨store, [], .running pc⟩

variable (write : D → W → D) (routine : P → D → Outcome W P) (eval : P → D → Option D)

/-- The store as the transaction sees it. -/
def view (s : Session D W P) : D := s.pending.foldl write s.store

/-- The next step of the transaction. -/
def step (s : Session D W P) : Option (Session D W P) :=
  match s.status with
  | .running pc => match routine pc (s.view write) with
    | .next ws pc => some { s with pending := s.pending ++ ws, status := .running pc }
    | .commit => some ⟨s.view write, [], .committed⟩
    | .rollback => some ⟨s.store, [], .rolledBack⟩
  | .committed => none
  | .rolledBack => none

/-- The transaction is over. -/
def Ended (s : Session D W P) : Prop := ∀ pc, s.status ≠ .running pc

instance (s : Session D W P) : Decidable s.Ended :=
  match h : s.status with
  | .running pc => .isFalse fun hn => hn pc h
  | .committed => .isTrue fun _ hn => nomatch h.symm.trans hn
  | .rolledBack => .isTrue fun _ hn => nomatch h.symm.trans hn

/-- What the session commits if nobody disturbs it from now on. -/
def result (s : Session D W P) : Option D :=
  match s.status with
  | .running pc => eval pc (s.view write)
  | .committed => some s.store
  | .rolledBack => none

end Session

/-- What a routine commits after a step, if `eval` computes what it commits from then on. -/
def Outcome.commits (write : D → W → D) (eval : P → D → Option D) (d : D) :
    Outcome W P → Option D
  | .next ws pc => eval pc (ws.foldl write d)
  | .commit => some d
  | .rollback => none

/-- The function `eval` computes what the routine, run to its end, commits. -/
def Evaluates (write : D → W → D) (routine : P → D → Outcome W P) (eval : P → D → Option D) :
    Prop :=
  ∀ pc d, eval pc d = (routine pc d).commits write eval d

namespace Session

variable {write : D → W → D} {routine : P → D → Outcome W P} {eval : P → D → Option D}
  {s s' : Session D W P}

/-- What a step can do. -/
theorem step_cases (h : s.step write routine = some s') : ∃ pc, s.status = .running pc ∧
    ((∃ ws pc', routine pc (s.view write) = .next ws pc' ∧
        s' = { s with pending := s.pending ++ ws, status := .running pc' }) ∨
      (routine pc (s.view write) = .commit ∧ s' = ⟨s.view write, [], .committed⟩) ∨
      (routine pc (s.view write) = .rollback ∧ s' = ⟨s.store, [], .rolledBack⟩)) := by
  unfold step at h
  split at h
  · rename_i pc hpc
    refine ⟨pc, hpc, ?_⟩
    split at h
    · rename_i ws pc' hout
      exact .inl ⟨ws, pc', hout, (Option.some.inj h).symm⟩
    · rename_i hout
      exact .inr (.inl ⟨hout, (Option.some.inj h).symm⟩)
    · rename_i hout
      exact .inr (.inr ⟨hout, (Option.some.inj h).symm⟩)
  · cases h
  · cases h

/-- Only a commit changes the store. -/
theorem store_step (h : s.step write routine = some s') (hs' : s'.status ≠ .committed) :
    s'.store = s.store := by
  obtain ⟨pc, -, ⟨ws, pc', -, rfl⟩ | ⟨-, rfl⟩ | ⟨-, rfl⟩⟩ := step_cases h
  · rfl
  · exact absurd rfl hs'
  · rfl

theorem ne_committed_of_running {pc : P} (h : s.status = .running pc) :
    s.status ≠ .committed := by
  intro hc
  rw [h] at hc
  cases hc

theorem ne_committed_of_rolledBack (h : s.status = .rolledBack) : s.status ≠ .committed := by
  intro hc
  rw [h] at hc
  cases hc

/-- **A step does not change the result.** -/
theorem result_step (heval : Evaluates write routine eval)
    (h : s.step write routine = some s') : s'.result write eval = s.result write eval := by
  obtain ⟨pc, hpc, ⟨ws, pc', hout, rfl⟩ | ⟨hout, rfl⟩ | ⟨hout, rfl⟩⟩ := step_cases h
  · have hview : (⟨s.store, s.pending ++ ws, .running pc'⟩ : Session D W P).view write =
        ws.foldl write (s.view write) := List.foldl_append
    simp only [result, hpc, hview, heval pc, hout, Outcome.commits]
  · simp only [result, hpc, heval pc, hout, Outcome.commits]
  · simp only [result, hpc, heval pc, hout, Outcome.commits]

/-- The result of a session that is over. -/
theorem result_eq_of_ended (h : s.Ended) :
    (s.status = .committed ∧ s.result write eval = some s.store) ∨
      (s.status = .rolledBack ∧ s.result write eval = none) := by
  cases hst : s.status with
  | running pc => exact absurd hst (h pc)
  | committed => exact .inl ⟨rfl, by simp only [result, hst]⟩
  | rolledBack => exact .inr ⟨rfl, by simp only [result, hst]⟩

end Session

end ArgusSbomGuard
