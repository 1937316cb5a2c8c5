import ArgusSbomGuard.System.Invariant
import ArgusSbomGuard.Risk.Scopes

/-!
# The life of an acceptance

Over any run of requests and tasks no two acceptances of a vulnerability in a project have
comparable scopes (`noOverlap`), since a request is checked against what is there and everything
else only removes acceptances.  So in every reachable state a request succeeds when it should,
hides what it names, and its deletion brings that back (`acceptance_lifecycle`).
-/

namespace ArgusSbomGuard

variable {env : Env} {db db' : Database} {w w' : World} {a : Action}

/-- No acceptance was added. -/
def AcceptancesKept (db db' : Database) : Prop :=
  ∀ x ∈ db'.riskAcceptances, x ∈ db.riskAcceptances

theorem AcceptancesKept.of_eq (h : db'.riskAcceptances = db.riskAcceptances) :
    AcceptancesKept db db' := fun x hx => by rwa [h] at hx

theorem AcceptancesKept.trans {db'' : Database} (h : AcceptancesKept db db')
    (h' : AcceptancesKept db' db'') : AcceptancesKept db db'' := fun x hx => h x (h' x hx)

theorem deleteServices_kept {p : Service → Bool} (h : db.deleteServices p = .ok db') :
    AcceptancesKept db db' := by
  unfold Database.deleteServices at h
  split_ifs at h
  cases h
  exact fun x hx => (Table.mem_deleteWhere.1 hx).1

theorem deleteProjects_kept {p : Project → Bool} (h : db.deleteProjects p = .ok db') :
    AcceptancesKept db db' := by
  unfold Database.deleteProjects at h
  split_ifs at h
  cases h
  exact fun x hx => (Table.mem_deleteWhere.1 hx).1

theorem deleteProject_kept {projectId : Uuid} (h : deleteProject db projectId = .ok db') :
    AcceptancesKept db db' := by
  unfold deleteProject at h
  split at h
  · cases h
  obtain ⟨db₁, hsboms, h⟩ := bind_eq_ok.1 (mapError_eq_ok h)
  obtain ⟨db₂, hservices, h⟩ := bind_eq_ok.1 h
  have hfirst : AcceptancesKept db db₁ := .of_eq (by rw [Database.deleteSboms_eq_ok hsboms]; rfl)
  exact (hfirst.trans (deleteServices_kept hservices)).trans (deleteProjects_kept h)

theorem deleteService_kept {serviceId : Uuid} (h : deleteService db serviceId = .ok db') :
    AcceptancesKept db db' := by
  unfold deleteService at h
  split at h
  · cases h
  dsimp only at h
  split_ifs at h
  exact deleteServices_kept (mapError_eq_ok h)

theorem deleteRiskAcceptance_kept {acceptanceId : Uuid}
    (h : deleteRiskAcceptance db acceptanceId = .ok db') : AcceptancesKept db db' := by
  unfold deleteRiskAcceptance at h
  split at h
  · cases h
  · cases h
    exact fun x hx => (Table.mem_deleteWhere.1 hx).1

theorem storeSbom_kept {projectId : Uuid} {raw : Json} {version serviceName : Option String}
    {inp : StoreInput} {sbom : SBOM}
    (h : storeSbom env db projectId raw version serviceName inp = .ok (db', sbom)) :
    AcceptancesKept db db' := by
  rcases storeSbom_eq_ok h with ⟨rfl, -⟩ | hstored
  · exact .of_eq rfl
  · exact .of_eq (by rw [hstored.frame])

/-! ### All actions -/

/-- Only a request for one adds an acceptance. -/
theorem acceptances_step (howned : ServiceOwned w.db) (hst : World.step env w a = some w') :
    AcceptancesKept w.db w'.db ∨ ∃ data newId now, createRiskAcceptance w.db data newId now =
      .ok w'.db := by
  cases World.step_effect hst with
  | unchanged h => exact .inl (.of_eq (by rw [h]))
  | createProject h => exact .inl (.of_eq (by rw [createProject_eq_ok h]))
  | deleteProject h => exact .inl (deleteProject_kept h)
  | deleteService h => exact .inl (deleteService_kept h)
  | storeSbom h => exact .inl (storeSbom_kept h)
  | scanSbom _ _ h => exact .inl (.of_eq (by rw [h.frame]))
  | deleteSbom _ h =>
    obtain ⟨sbom, -, -, heffect⟩ := deleteSbom_eq_ok howned h
    exact .inl (.of_eq (by rw [heffect.frame]))
  | pruneSboms h =>
    obtain ⟨target, htables⟩ := pruneSboms_eq_ok h
    exact .inl (.of_eq (by rw [htables]))
  | createRiskAcceptance h => exact .inr ⟨_, _, _, h⟩
  | deleteRiskAcceptance h => exact .inl (deleteRiskAcceptance_kept h)

/-- Every action keeps the scopes apart. -/
theorem noOverlap_step (howned : ServiceOwned w.db) (hnone : NoOverlap w.db)
    (hst : World.step env w a = some w') : NoOverlap w'.db := by
  rcases acceptances_step howned hst with hkept | ⟨data, newId, now, hok⟩
  · exact fun x hx y hy => hnone x (hkept x hx) y (hkept y hy)
  · obtain ⟨hfree, hmem⟩ := createRiskAcceptance_inserted hok
    intro x hx y hy hp hv hcomp
    rcases (hmem x).1 hx with hx | rfl <;> rcases (hmem y).1 hy with hy | rfl
    · exact hnone x hx y hy hp hv hcomp
    · exact absurd hcomp (hfree x hx hp hv)
    · exact absurd hcomp.symm (hfree y hy hp.symm hv.symm)
    · rfl

/-- **No scopes overlap in any reachable state.** -/
theorem noOverlap (hw : (system env).Reachable w) : NoOverlap w.db :=
  hw.invariant_under (I := fun w => SystemInvariant w.db) systemInvariant_empty
    (fun _ _ _ hinv hst => systemInvariant_step hinv hst)
    (fun _ hx => absurd hx (Table.not_mem_empty _))
    fun _ _ _ hinv hnone _ hst => noOverlap_step hinv.owned hnone hst

/-- A request that creates an acceptance of a scope hides the open links of the scope: they were
actionable and are not any more, and every other link stays what it was. -/
structure Hides (data : RiskAcceptanceCreate) (db db' : Database) : Prop where
  frame : db'.toTables = { db.toTables with riskAcceptances := db'.riskAcceptances }
  hidden : ∀ l s, l.status = .OPEN → data.Covers l s →
    actionable db l s = true ∧ actionable db' l s = false
  others : ∀ l s, ¬ (l.status = .OPEN ∧ data.Covers l s) →
    actionable db' l s = actionable db l s

/-- The deletion of an acceptance brings the open links of its scope back. -/
structure Restores (a : RiskAcceptance) (db db' : Database) : Prop where
  frame : db'.toTables = { db.toTables with riskAcceptances := db'.riskAcceptances }
  restored : ∀ l s, l.status = .OPEN → a.Covers l s →
    actionable db l s = false ∧ actionable db' l s = true

/-- **The life of an acceptance.**  In every reachable state a request with a new identifier
succeeds exactly when it is acceptable, a rejected request changes nothing, a successful one hides
the open links of its scope, and the deletion of any acceptance brings them back. -/
theorem acceptance_lifecycle (hw : (system env).Reachable w) :
    (∀ data newId now, (∀ a ∈ w.db.riskAcceptances, a.id ≠ newId) →
      ((∃ db', createRiskAcceptance w.db data newId now = .ok db') ↔ Acceptable w.db data)) ∧
    (∀ data newId now e, createRiskAcceptance w.db data newId now = .error e →
      World.step env w (.createRiskAcceptance data newId now) = some w) ∧
    (∀ data newId now db', createRiskAcceptance w.db data newId now = .ok db' →
      Hides data w.db db') ∧
    ∀ a ∈ w.db.riskAcceptances, ∃ db', deleteRiskAcceptance w.db a.id = .ok db' ∧
      Restores a w.db db' := by
  refine ⟨fun data newId now hid => createRiskAcceptance_isOk_iff hid, ?_, ?_, ?_⟩
  · intro data newId now e he
    simp only [World.step, he, World.commit]
  · intro data newId now db' hok
    have hhides := createRiskAcceptance_hides hok
    exact ⟨createRiskAcceptance_eq_ok hok, fun l s => (hhides l s).1, fun l s => (hhides l s).2⟩
  · intro a ha
    obtain ⟨db', hok, hframe, hlinks⟩ := deleteRiskAcceptance_restores (noOverlap hw) ha
    exact ⟨db', hok, hframe, hlinks⟩

/-- A release whose finding is accepted for the project. -/
def demoAccepted : World :=
  demo [demoProject, demoUpload 1 10 100, demoScan 10 [1, 1] 110,
    .createRiskAcceptance ⟨1, 1, none, "not reachable", by decide⟩ 5 120] (by decide +kernel)

/-- The life of the acceptances of that release. -/
theorem acceptance_lifecycle_demo :
    (∀ data newId now, (∀ a ∈ demoAccepted.db.riskAcceptances, a.id ≠ newId) →
      ((∃ db', createRiskAcceptance demoAccepted.db data newId now = .ok db') ↔
        Acceptable demoAccepted.db data)) ∧
    (∀ data newId now e, createRiskAcceptance demoAccepted.db data newId now = .error e →
      World.step demoEnv demoAccepted (.createRiskAcceptance data newId now) =
        some demoAccepted) ∧
    (∀ data newId now db', createRiskAcceptance demoAccepted.db data newId now = .ok db' →
      Hides data demoAccepted.db db') ∧
    ∀ a ∈ demoAccepted.db.riskAcceptances, ∃ db',
      deleteRiskAcceptance demoAccepted.db a.id = .ok db' ∧ Restores a demoAccepted.db db' :=
  acceptance_lifecycle demo_reachable

end ArgusSbomGuard
