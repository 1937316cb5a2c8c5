import ArgusSbomGuard.Transition.Concurrent
import ArgusSbomGuard.Risk.Scopes
import ArgusSbomGuard.System.World

/-!
# Concurrent requests to create acceptances

`create_risk_acceptance` as a routine: check the rows that the request names, read the acceptances
that are there, decide, insert and commit.  The unique indexes make two requests of the same scope
wait for each other, but nothing does so for a request of a project and one of a service: when both
read before either commits, both acceptances are stored (`both_levels_stored`).  In the runs in
which a request does not read while such a competitor is undecided, the two levels stay apart
(`levels_apart`).

## Main definitions

* `createRoutine` : the steps of a request.
* `createTransactions` : any number of requests.
* `LevelsApart` : no project-level acceptance beside one of a service.
* `ReadsAlone` : the condition on a move.
-/

namespace ArgusSbomGuard

/-- A request with what its transaction draws. -/
structure CreateRequest where
  data : RiskAcceptanceCreate
  newId : Uuid
  now : DateTime

/-- The row that the request inserts. -/
def CreateRequest.row (r : CreateRequest) : RiskAcceptance := r.data.row r.newId r.now

/-- The next step of `create_risk_acceptance`. -/
inductive CreatePc
  | check
  | read
  | decide (existing : List RiskAcceptance)
  | insert
  | commit

/-- One step of `create_risk_acceptance` on what its transaction sees. -/
def createRoutine (r : CreateRequest) : CreatePc → Database → Outcome RiskAcceptance CreatePc
  | .check, db => match checkRequest db r.data with
    | .ok _ => .next [] .read
    | .error _ => .rollback
  | .read, db => .next [] (.decide (existingAcceptances db r.data))
  | .decide existing, _ => match checkExisting r.data.serviceId existing with
    | .ok _ => .next [] .insert
    | .error _ => .rollback
  | .insert, db => match db.insertRiskAcceptance r.row with
    | .ok _ => .next [r.row] .commit
    | .error _ => .rollback
  | .commit, _ => .commit

/-- Carry out the insert of an acceptance; one that violates a constraint has no effect. -/
def Database.addAcceptance (db : Database) (a : RiskAcceptance) : Database :=
  match db.insertRiskAcceptance a with
  | .ok db' => db'
  | .error _ => db

/-- Requests on a shared database; two inserts with a common unique key wait for each other. -/
def createTransactions {ι : Type} (requests : ι → CreateRequest) :
    Transactions ι Database RiskAcceptance CreatePc where
  write := Database.addAcceptance
  routine i := createRoutine (requests i)
  Conflict := Clash
  decConflict _ _ := inferInstance

/-! ### One request alone -/

/-- A request from its decision on. -/
def decideRest (r : CreateRequest) (existing : List RiskAcceptance) (db : Database) :
    Option Database :=
  match checkExisting r.data.serviceId existing with
  | .ok _ => (db.insertRiskAcceptance r.row).toOption
  | .error _ => none

/-- What the rest of a request commits when nobody disturbs it. -/
def createRest (r : CreateRequest) : CreatePc → Database → Option Database
  | .check, db => (createRiskAcceptance db r.data r.newId r.now).toOption
  | .read, db => decideRest r (existingAcceptances db r.data) db
  | .decide existing, db => decideRest r existing db
  | .insert, db => (db.insertRiskAcceptance r.row).toOption
  | .commit, db => some db

theorem createRest_check {r : CreateRequest} {db : Database} (h : checkRequest db r.data = .ok ()) :
    createRest r .check db = createRest r .read db := by
  simp only [createRest, createRiskAcceptance, decideRest, CreateRequest.row, h, bind, Except.bind]
  cases checkExisting r.data.serviceId (existingAcceptances db r.data) with
  | error e => rfl
  | ok _ =>
    cases db.insertRiskAcceptance (r.data.row r.newId r.now) with
    | ok db' => rfl
    | error e => cases e <;> rfl

/-- **Undisturbed, the routine commits what `create_risk_acceptance` computes.** -/
theorem createRest_evaluates (r : CreateRequest) :
    Evaluates Database.addAcceptance (createRoutine r) (createRest r) := by
  intro pc db
  cases pc with
  | check =>
    simp only [createRoutine]
    cases h : checkRequest db r.data with
    | ok _ => exact createRest_check h
    | error e => simp only [createRest, createRiskAcceptance, h]; rfl
  | read => rfl
  | decide existing =>
    simp only [createRoutine, createRest, decideRest]
    cases checkExisting r.data.serviceId existing <;> rfl
  | insert =>
    simp only [createRoutine, createRest]
    cases h : db.insertRiskAcceptance r.row with
    | ok db' => simp [Outcome.commits, createRest, Database.addAcceptance, h, Except.toOption]
    | error e => rfl
  | commit => rfl

/-- The steps in which a request goes on. -/
theorem createRoutine_next {r : CreateRequest} {pc pc' : CreatePc} {db : Database}
    {ws : List RiskAcceptance} (h : createRoutine r pc db = .next ws pc') :
    (pc = .check ∧ ws = [] ∧ pc' = .read) ∨
      (pc = .read ∧ ws = [] ∧ pc' = .decide (existingAcceptances db r.data)) ∨
      (∃ existing, pc = .decide existing ∧
        (checkExisting r.data.serviceId existing).isOk = true ∧ ws = [] ∧ pc' = .insert) ∨
      (pc = .insert ∧ ws = [r.row] ∧ pc' = .commit) := by
  cases pc with
  | check =>
    simp only [createRoutine] at h
    split at h <;> cases h
    exact .inl ⟨rfl, rfl, rfl⟩
  | read =>
    cases h
    exact .inr (.inl ⟨rfl, rfl, rfl⟩)
  | decide existing =>
    simp only [createRoutine] at h
    split at h
    · rename_i hok
      cases h
      exact .inr (.inr (.inl ⟨existing, rfl, by rw [hok]; rfl, rfl, rfl⟩))
    · cases h
  | insert =>
    simp only [createRoutine] at h
    split at h <;> cases h
    exact .inr (.inr (.inr ⟨rfl, rfl, rfl⟩))
  | commit => cases h

/-- A request commits at its end only. -/
theorem createRoutine_commit {r : CreateRequest} {pc : CreatePc} {db : Database}
    (h : createRoutine r pc db = .commit) : pc = .commit := by
  cases pc with
  | commit => rfl
  | read => cases h
  | check => simp only [createRoutine] at h; split at h <;> cases h
  | decide existing => simp only [createRoutine] at h; split at h <;> cases h
  | insert => simp only [createRoutine] at h; split at h <;> cases h

/-! ### The two levels -/

/-- One acceptance is of the project and the other of a service, for the same vulnerability. -/
def Competes (a b : RiskAcceptance) : Prop :=
  a.projectId = b.projectId ∧ a.vulnerabilityId = b.vulnerabilityId ∧
    a.serviceId.isNone ≠ b.serviceId.isNone

instance (a b : RiskAcceptance) : Decidable (Competes a b) :=
  inferInstanceAs (Decidable (_ ∧ _))

/-- There is no project-level acceptance beside one of a service. -/
def LevelsApart (db : Database) : Prop :=
  ∀ a ∈ db.riskAcceptances, ∀ b ∈ db.riskAcceptances, ¬ Competes a b

instance (db : Database) : Decidable (LevelsApart db) :=
  inferInstanceAs (Decidable (∀ a ∈ db.riskAcceptances, ∀ b ∈ db.riskAcceptances, _))

/-- The request has found nothing in its way, and is not over. -/
def foundNone (r : CreateRequest) : Status CreatePc → Bool
  | .running (.decide existing) => (checkExisting r.data.serviceId existing).isOk
  | .running .insert => true
  | .running .commit => true
  | _ => false

/-- The next step of the request reads the acceptances. -/
def isReading : Status CreatePc → Bool
  | .running .read => true
  | _ => false

variable {ι : Type}

/-- A request that reads and finds nothing in its way has no competitor that has found nothing in
its way either and is not over. -/
def ReadsAlone (requests : ι → CreateRequest) (s : Shared ι Database RiskAcceptance CreatePc) :
    Move ι → Prop
  | .step i => isReading (s.txns i).status = true →
      checkExisting (requests i).data.serviceId (existingAcceptances s.store (requests i).data) =
        .ok () →
      ∀ j, j ≠ i → foundNone (requests j) (s.txns j).status = true →
        ¬ Competes (requests i).row (requests j).row
  | .abort _ => True

instance [Fintype ι] [DecidableEq ι] (requests : ι → CreateRequest)
    (s : Shared ι Database RiskAcceptance CreatePc) (m : Move ι) :
    Decidable (ReadsAlone requests s m) :=
  match m with
  | .step i =>
    have : Decidable (checkExisting (requests i).data.serviceId
        (existingAcceptances s.store (requests i).data) = .ok ()) :=
      inferInstance
    inferInstanceAs (Decidable (isReading (s.txns i).status = true → _))
  | .abort _ => .isTrue trivial

/-- What keeps the levels apart: a request that has found nothing in its way competes neither with
what is stored nor with another such request. -/
structure Exclusive (requests : ι → CreateRequest)
    (s : Shared ι Database RiskAcceptance CreatePc) : Prop where
  apart : LevelsApart s.store
  clear : ∀ i, foundNone (requests i) (s.txns i).status = true →
    ∀ a ∈ s.store.riskAcceptances, ¬ Competes a (requests i).row
  alone : ∀ i j, i ≠ j → foundNone (requests i) (s.txns i).status = true →
    foundNone (requests j) (s.txns j).status = true → ¬ Competes (requests i).row (requests j).row
  pending : ∀ i, (s.txns i).pending = [] ∨
    ((s.txns i).pending = [(requests i).row] ∧ (s.txns i).status = .running .commit)

theorem Competes.symm {a b : RiskAcceptance} (h : Competes a b) : Competes b a :=
  ⟨h.1.symm, h.2.1.symm, h.2.2.symm⟩

theorem not_competes_self (a : RiskAcceptance) : ¬ Competes a a := fun h => h.2.2 rfl

/-- Acceptances of comparable scopes are the competitors, or have the same scope. -/
theorem comparable_of_competes {a b : RiskAcceptance} (h : Competes a b) :
    Comparable a.serviceId b.serviceId := by
  rcases ha : a.serviceId with _ | i
  · exact .inl rfl
  · rcases hb : b.serviceId with _ | j
    · exact .inr (.inl rfl)
    · exact absurd (by rw [ha, hb]; rfl) h.2.2

/-- A request that finds nothing in its way competes with nothing that is stored. -/
theorem not_competes_of_checkExisting {db : Database} {r : CreateRequest}
    (h : checkExisting r.data.serviceId (existingAcceptances db r.data) = .ok ())
    {a : RiskAcceptance} (ha : a ∈ db.riskAcceptances) : ¬ Competes a r.row := fun hcomp =>
  checkExisting_eq_ok.1 h a (mem_existingAcceptances.2 ⟨ha, hcomp.1, hcomp.2.1⟩)
    (comparable_of_competes hcomp)

theorem mem_addAcceptance {db : Database} {a b : RiskAcceptance}
    (h : b ∈ (db.addAcceptance a).riskAcceptances) : b ∈ db.riskAcceptances ∨ b = a := by
  unfold Database.addAcceptance at h
  split at h
  · rename_i db' hins
    obtain ⟨t, ht, htables⟩ := Database.insertRiskAcceptance_eq_ok hins
    rw [htables] at h
    exact (Table.mem_insert? ht).1 h
  · exact .inl h

section Moves

variable [DecidableEq ι] {requests : ι → CreateRequest}
  {s : Shared ι Database RiskAcceptance CreatePc} {i : ι} {t : Txn RiskAcceptance CreatePc}

/-- A move that stores nothing, after which a request has found nothing only if it had before. -/
theorem Exclusive.put (h : Exclusive requests s)
    (hfound : foundNone (requests i) t.status = true →
      foundNone (requests i) (s.txns i).status = true)
    (hpending : t.pending = [] ∨ (t.pending = [(requests i).row] ∧ t.status = .running .commit)) :
    Exclusive requests (s.put s.store i t) := by
  have hback : ∀ j, foundNone (requests j) ((s.put s.store i t).txns j).status = true →
      foundNone (requests j) (s.txns j).status = true := by
    intro j hj
    by_cases hji : j = i
    · subst hji
      rw [Shared.put_self] at hj
      exact hfound hj
    · rwa [Shared.put_other hji] at hj
  refine ⟨h.apart, fun j hj => h.clear j (hback j hj), fun j k hjk hj hk =>
    h.alone j k hjk (hback j hj) (hback k hk), fun j => ?_⟩
  by_cases hji : j = i
  · subst hji
    rwa [Shared.put_self]
  · rw [Shared.put_other hji]
    exact h.pending j

theorem eq_ok_of_isOk {ε : Type} {x : Except ε Unit} (h : x.isOk = true) : x = .ok () := by
  cases x with
  | ok _ => rfl
  | error e => cases h

/-- A request that reads without a competitor. -/
theorem Exclusive.read (h : Exclusive requests s) (hi : isReading (s.txns i).status = true)
    (halone : ReadsAlone requests s (.step i)) :
    Exclusive requests (s.put s.store i
      ⟨[], .running (.decide (existingAcceptances s.store (requests i).data))⟩) := by
  let s' : Shared ι Database RiskAcceptance CreatePc :=
    s.put s.store i ⟨[], .running (.decide (existingAcceptances s.store (requests i).data))⟩
  have hfound : foundNone (requests i) (s'.txns i).status = true →
      checkExisting (requests i).data.serviceId (existingAcceptances s.store (requests i).data) =
        .ok () := by
    intro hj
    rw [Shared.put_self] at hj
    exact eq_ok_of_isOk hj
  have hother : ∀ j, j ≠ i → foundNone (requests j) (s'.txns j).status = true →
      foundNone (requests j) (s.txns j).status = true := by
    intro j hji hj
    rwa [Shared.put_other hji] at hj
  refine ⟨h.apart, fun j hj a ha => ?_, fun j k hjk hj hk => ?_, fun j => ?_⟩
  · by_cases hji : j = i
    · subst hji
      exact not_competes_of_checkExisting (hfound hj) ha
    · exact h.clear j (hother j hji hj) a ha
  · by_cases hji : j = i
    · subst hji
      exact halone hi (hfound hj) k hjk.symm (hother k hjk.symm hk)
    · by_cases hki : k = i
      · subst hki
        exact fun hc => halone hi (hfound hk) j hji (hother j hji hj) hc.symm
      · exact h.alone j k hjk (hother j hji hj) (hother k hki hk)
  · by_cases hji : j = i
    · subst hji
      exact .inl (by rw [Shared.put_self])
    · rw [Shared.put_other hji]
      exact h.pending j

omit [DecidableEq ι] in
/-- What is stored after a commit was stored before, or is the row of the request. -/
theorem mem_view (h : Exclusive requests s) {a : RiskAcceptance}
    (ha : a ∈ ((createTransactions requests).view s i).riskAcceptances) :
    a ∈ s.store.riskAcceptances ∨ a = (requests i).row := by
  rcases h.pending i with hp | ⟨hp, -⟩
  · rw [Transactions.view_of_pending_nil hp] at ha
    exact .inl ha
  · rw [Transactions.view, hp] at ha
    exact mem_addAcceptance ha

/-- A request that commits. -/
theorem Exclusive.commit (h : Exclusive requests s)
    (hi : foundNone (requests i) (s.txns i).status = true) : Exclusive requests
      (s.put ((createTransactions requests).view s i) i ⟨[], .committed⟩) := by
  have hother : ∀ j, foundNone (requests j)
      ((s.put ((createTransactions requests).view s i) i ⟨[], .committed⟩).txns j).status = true →
      j ≠ i ∧ foundNone (requests j) (s.txns j).status = true := by
    intro j hj
    by_cases hji : j = i
    · subst hji
      rw [Shared.put_self] at hj
      cases hj
    · rw [Shared.put_other hji] at hj
      exact ⟨hji, hj⟩
  refine ⟨fun a ha b hb => ?_, fun j hj a ha => ?_, fun j k hjk hj hk => ?_, fun j => ?_⟩
  · rcases mem_view h ha with ha | rfl <;> rcases mem_view h hb with hb | rfl
    · exact h.apart a ha b hb
    · exact h.clear i hi a ha
    · exact fun hc => h.clear i hi b hb hc.symm
    · exact not_competes_self _
  · obtain ⟨hji, hj⟩ := hother j hj
    rcases mem_view h ha with ha | rfl
    · exact h.clear j hj a ha
    · exact h.alone i j hji.symm hi hj
  · exact h.alone j k hjk (hother j hj).2 (hother k hk).2
  · by_cases hji : j = i
    · subst hji
      exact .inl (by rw [Shared.put_self])
    · rw [Shared.put_other hji]
      exact h.pending j

/-- Every move in which nobody reads beside a competitor keeps the requests apart. -/
theorem exclusive_step [Fintype ι] {s' : Shared ι Database RiskAcceptance CreatePc} {m : Move ι}
    (h : Exclusive requests s) (halone : ReadsAlone requests s m)
    (hst : (createTransactions requests).step s m = some s') : Exclusive requests s' := by
  have hnil : ∀ i pc, (s.txns i).status = .running pc → pc ≠ .commit → (s.txns i).pending = [] := by
    intro i pc hpc hne
    rcases h.pending i with hp | ⟨-, hcommit⟩
    · exact hp
    · exact absurd (Status.running.inj (hpc.symm.trans hcommit)) hne
  rcases Transactions.step_cases hst with ⟨i, pc, rfl, hpc, hout⟩ | ⟨i, pc, rfl, -, rfl⟩
  · rcases hout with ⟨ws, pc', hout, -, rfl⟩ | ⟨hout, rfl⟩ | ⟨-, rfl⟩
    · rcases createRoutine_next hout with ⟨rfl, rfl, rfl⟩ | ⟨rfl, rfl, rfl⟩ |
        ⟨existing, rfl, hok, rfl, rfl⟩ | ⟨rfl, rfl, rfl⟩
      · exact h.put nofun (.inl (by rw [List.append_nil, hnil i _ hpc nofun]))
      · rw [List.append_nil, hnil i _ hpc nofun,
          Transactions.view_of_pending_nil (hnil i _ hpc nofun)]
        exact h.read (by rw [hpc]; rfl) halone
      · refine h.put (fun _ => ?_) (.inl (by rw [List.append_nil, hnil i _ hpc nofun]))
        rw [hpc]
        exact hok
      · refine h.put (fun _ => by rw [hpc]; rfl) (.inr ⟨?_, rfl⟩)
        rw [hnil i _ hpc nofun, List.nil_append]
    · obtain rfl := createRoutine_commit hout
      exact h.commit (by rw [hpc]; rfl)
    · exact h.put nofun (.inl rfl)
  · exact h.put nofun (.inl rfl)

end Moves

/-- **The levels stay apart when nobody reads beside a competitor.** -/
theorem levels_apart [DecidableEq ι] [Fintype ι] {requests : ι → CreateRequest} {db : Database}
    (hdb : LevelsApart db) {s : Shared ι Database RiskAcceptance CreatePc}
    (hs : ((createTransactions requests).machine db fun _ => .check).Reaches
      (ReadsAlone requests) s) : LevelsApart s.store := by
  have hexcl : Exclusive requests s := by
    refine hs.invariant (I := Exclusive requests) ?_ fun s m s' h hP hst => exclusive_step h hP hst
    exact ⟨hdb, nofun, nofun, fun _ => .inl rfl⟩
  exact hexcl.apart

/-! ### Examples -/

/-- A release of a service with one finding. -/
def demoServed : World :=
  demo [demoProject, .uploadSbom ⟨none, some "project", none, some "api", [0, 1]⟩ ⟨7, 10, 100⟩,
    demoScan 10 [1, 1] 110] (by decide +kernel)

/-- A request to accept the finding for the project, and one to accept it for the service. -/
def demoRequests (i : Fin 2) : CreateRequest :=
  if i = 0 then ⟨⟨1, 1, none, "project", by decide⟩, 20, 120⟩
  else ⟨⟨1, 1, some 7, "service", by decide⟩, 21, 121⟩

/-- The two requests on the release. -/
def demoCreates : Machine (Shared (Fin 2) Database RiskAcceptance CreatePc) (Move (Fin 2)) :=
  (createTransactions demoRequests).machine demoServed.db fun _ => .check

/-- Both requests read before either inserts. -/
def demoInterleaved : List (Move (Fin 2)) :=
  [0, 1, 0, 1, 0, 1, 0, 1, 0, 1].map .step

theorem demoInterleaved_isSome :
    (demoCreates.run demoCreates.init demoInterleaved).isSome := by decide +kernel

/-- **Both levels are stored** when both requests read before either inserts. -/
theorem both_levels_stored : (system demoEnv).Reachable demoServed ∧
    LevelsApart demoServed.db ∧
    ∃ s, demoCreates.Reachable s ∧ ¬ LevelsApart s.store :=
  ⟨demo_reachable, by decide +kernel, demoCreates.after demoInterleaved demoInterleaved_isSome,
    Machine.reachable_after, by decide +kernel⟩

/-- One request after the other; the second is rejected. -/
def demoSerial : List (Move (Fin 2)) :=
  [0, 0, 0, 0, 0, 1, 1, 1].map .step

theorem demoSerial_isSome : (demoCreates.run demoCreates.init demoSerial).isSome := by
  decide +kernel

/-- The levels at the end of that run. -/
theorem levels_apart_demo : LevelsApart (demoCreates.after demoSerial demoSerial_isSome).store :=
  levels_apart (by decide +kernel) (Machine.reaches_after (by decide +kernel))

end ArgusSbomGuard
