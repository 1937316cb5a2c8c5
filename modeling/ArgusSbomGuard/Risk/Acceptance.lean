import ArgusSbomGuard.Sbom.Upload

/-!
# Risk acceptances

`create_risk_acceptance` and `delete_risk_acceptance` of `api/v1/vulnerabilities.py`.
-/

namespace ArgusSbomGuard

/-- A request body that passed validation, after which the reason has no NUL character. -/
structure RiskAcceptanceCreate where
  projectId : Uuid
  vulnerabilityId : Uuid
  serviceId : Option Uuid
  reason : String
  reasonFits : fitsText reason = true

variable (db : Database)

/-- The service is one of the project. -/
def serviceBelongs (projectId serviceId : Uuid) : Bool :=
  match db.services.find? fun v => v.id == serviceId with
  | some service => service.projectId == projectId
  | none => false

/-- `open_link`: the vulnerability has an open link in the requested scope. -/
def openInScope (data : RiskAcceptanceCreate) : Bool :=
  db.links.rows.any fun l => l.vulnerabilityId == data.vulnerabilityId && l.status == .OPEN &&
    db.sboms.rows.any fun s => s.id == l.sbomId && s.projectId == data.projectId &&
      (data.serviceId.isNone || s.serviceId == data.serviceId)

/-- `existing`: the acceptances of the vulnerability in the project. -/
def existingAcceptances (data : RiskAcceptanceCreate) : List RiskAcceptance :=
  db.riskAcceptances.rows.filter fun a =>
    a.projectId == data.projectId && a.vulnerabilityId == data.vulnerabilityId

/-- The row of a new acceptance. -/
def RiskAcceptanceCreate.row (data : RiskAcceptanceCreate) (newId : Uuid) (now : DateTime) :
    RiskAcceptance :=
  ⟨newId, data.projectId, data.serviceId, data.vulnerabilityId, data.reason, now⟩

/-- The checks of `create_risk_acceptance` on the rows that the request names. -/
def checkRequest (data : RiskAcceptanceCreate) : Except ApiError Unit :=
  if ¬ ∃ p ∈ db.projects, p.id = data.projectId then .error (.http 404 "Project not found")
  else if ¬ ∃ v ∈ db.vulnerabilities, v.id = data.vulnerabilityId then
    .error (.http 404 "Vulnerability not found")
  else if data.serviceId.any fun i => !serviceBelongs db data.projectId i then
    .error (.http 400 "Service does not belong to the project")
  else if !openInScope db data then
    .error (.http 400 "Vulnerability is not open in the requested scope")
  else .ok ()

/-- Its checks on the acceptances that are there. -/
def checkExisting (serviceId : Option Uuid) (existing : List RiskAcceptance) :
    Except ApiError Unit :=
  match serviceId with
  | none =>
    if existing ≠ [] then .error (.http 409
      "Vulnerability already accepted for this project; revert the narrower acceptances first")
    else .ok ()
  | some serviceId =>
    if existing.any fun row => row.serviceId == none then
      .error (.http 409 "Vulnerability already accepted at project scope")
    else if existing.any fun row => row.serviceId == some serviceId then
      .error (.http 409 "Vulnerability already accepted in this service")
    else .ok ()

/-- `create_risk_acceptance`. -/
def createRiskAcceptance (data : RiskAcceptanceCreate) (newId : Uuid) (now : DateTime) :
    Except ApiError Database := do
  checkRequest db data
  checkExisting data.serviceId (existingAcceptances db data)
  match db.insertRiskAcceptance (data.row newId now) with
  | .ok db => return db
  | .error .integrityError => throw (.http 409 "Vulnerability already accepted in this scope")
  | .error e => throw (.unhandled e)

/-- `delete_risk_acceptance`. -/
def deleteRiskAcceptance (acceptanceId : Uuid) : Except ApiError Database :=
  match db.riskAcceptances.find? fun a => a.id == acceptanceId with
  | none => .error (.http 404 "Risk acceptance not found")
  | some acceptance => .ok (db.deleteRiskAcceptances fun a => a.id == acceptance.id)

/-! ### What they change -/

variable {db} {db' : Database}

theorem createRiskAcceptance_eq_ok {data : RiskAcceptanceCreate} {newId : Uuid} {now : DateTime}
    (h : createRiskAcceptance db data newId now = .ok db') :
    db'.toTables = { db.toTables with riskAcceptances := db'.riskAcceptances } := by
  simp only [createRiskAcceptance, bind_eq_ok] at h
  obtain ⟨-, -, -, -, h⟩ := h
  split at h
  · rename_i db₁ hins
    cases h
    obtain ⟨t, -, ht⟩ := Database.insertRiskAcceptance_eq_ok hins
    rw [ht]
  · cases h
  · cases h

theorem deleteRiskAcceptance_eq_ok {acceptanceId : Uuid}
    (h : deleteRiskAcceptance db acceptanceId = .ok db') :
    db'.toTables = { db.toTables with riskAcceptances := db'.riskAcceptances } := by
  unfold deleteRiskAcceptance at h
  split at h
  · cases h
  · cases h; rfl

end ArgusSbomGuard
