import ArgusSbomGuard.Sbom.Upload

/-!
# Projects and services

`create_project` and `delete_project` of `api/v1/projects.py`, and `delete_service` of
`api/v1/services.py`.  The deletion of a project cascades through the ORM relationships.
-/

namespace ArgusSbomGuard

/-- A request body that passed validation; the other fields are only stored. -/
structure ProjectCreate where
  name : String
  nameFits : fitsVarchar 255 name = true

variable (env : Env) (db : Database)

/-- `create_project`; the slug is a generated column. -/
def createProject (data : ProjectCreate) (newId : Uuid) : Except ApiError Database :=
  if ∃ p ∈ db.projects, p.name = data.name then .error (.http 409 "Project already exists")
  else match db.insertProject ⟨newId, data.name, env.slugify data.name⟩ with
    | .ok db => .ok db
    | .error .integrityError =>
      -- `_is_slug_conflict`
      if ∃ p ∈ db.projects, p.slug = env.slugify data.name then
        .error (.http 409 "Project slug already in use")
      else .error (.http 409 "Project name already exists")
    | .error e => .error (.unhandled e)

/-- The SBOMs that go with a project: its own, and those of its services. -/
def projectSboms (projectId : Uuid) : List Uuid :=
  (db.sboms.rows.filter fun s => s.projectId == projectId ||
    db.services.rows.any fun v => v.projectId == projectId && s.serviceId == some v.id).map (·.id)

/-- `delete_project`. -/
def deleteProject (projectId : Uuid) : Except ApiError Database :=
  match findProject db projectId with
  | none => .error (.http 404 "Project not found")
  | some project => Except.mapError .unhandled do
    let target := projectSboms db project.id
    let db := db.deleteLinks fun l => target.contains l.sbomId
    let db := db.deleteDependencies fun d => target.contains d.sbomId
    let db ← db.deleteSboms fun s => target.contains s.id
    let db ← db.deleteServices fun v => v.projectId == project.id
    db.deleteProjects fun p => p.id == project.id

/-- `delete_service`. -/
def deleteService (serviceId : Uuid) : Except ApiError Database :=
  match db.services.find? fun v => v.id == serviceId with
  | none => .error (.http 404 "Service not found")
  | some service =>
    let count := (db.sboms.rows.filter fun s => s.serviceId == some serviceId).length
    if 0 < count then
      .error (.http 409 ("Cannot delete service with " ++ toString count ++ " SBOM(s)"))
    else (db.deleteServices fun v => v.id == service.id).mapError .unhandled

/-! ### What they change -/

variable {env} {db} {db' : Database}

theorem createProject_eq_ok {data : ProjectCreate} {newId : Uuid}
    (h : createProject env db data newId = .ok db') :
    db'.toTables = { db.toTables with projects := db'.projects } := by
  unfold createProject at h
  split at h
  · cases h
  split at h
  · rename_i db₁ hins
    cases h
    obtain ⟨t, -, ht⟩ := Database.insertProject_eq_ok hins
    rw [ht]
  · split at h <;> cases h
  · cases h

/-- A deleted project takes SBOMs with their links and dependencies along, and its services. -/
theorem deleteProject_eq_ok {projectId : Uuid} (h : deleteProject db projectId = .ok db') :
    ∃ target : List Uuid, db'.toTables = { db.toTables with
      projects := db'.projects
      services := db.services.deleteWhere fun v => v.projectId == projectId
      links := db.links.deleteWhere fun l => target.contains l.sbomId
      dependencies := db.dependencies.deleteWhere fun d => target.contains d.sbomId
      sboms := db.sboms.deleteWhere fun s => target.contains s.id
      riskAcceptances := db'.riskAcceptances } := by
  unfold deleteProject at h
  split at h
  · cases h
  rename_i project hfind
  obtain rfl := beq_iff_eq.1 (Table.mem_of_find? hfind).2
  obtain ⟨db₁, hsboms, h⟩ := bind_eq_ok.1 (mapError_eq_ok h)
  obtain ⟨db₂, hservices, h⟩ := bind_eq_ok.1 h
  obtain ⟨ra, hra⟩ := Database.deleteServices_eq_ok hservices
  obtain ⟨ra', hra'⟩ := Database.deleteProjects_eq_ok h
  refine ⟨projectSboms db project.id, ?_⟩
  rw [hra', hra, Database.deleteSboms_eq_ok hsboms]
  rfl

theorem deleteService_eq_ok {serviceId : Uuid} (h : deleteService db serviceId = .ok db') :
    db'.toTables = { db.toTables with
      services := db.services.deleteWhere fun v => v.id == serviceId
      riskAcceptances := db'.riskAcceptances } := by
  unfold deleteService at h
  split at h
  · cases h
  rename_i service hfind
  obtain rfl := beq_iff_eq.1 (Table.mem_of_find? hfind).2
  dsimp only at h
  split_ifs at h
  obtain ⟨ra, hra⟩ := Database.deleteServices_eq_ok (mapError_eq_ok h)
  rw [hra]

end ArgusSbomGuard
