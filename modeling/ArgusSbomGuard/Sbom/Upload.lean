import ArgusSbomGuard.Python.StripNul
import ArgusSbomGuard.Sbom.Parser

/-!
# Uploading a document

The two upload endpoints: `upload_sbom` of `api/v1/sboms.py` and `UploadSBOM` of
`services/grpc_server.py`.  Both look the project up, parse the document, store it and send a
message to the scan task, also when the document was stored before.  Only the REST endpoint
removes NUL characters, and only it passes the service name on.
-/

namespace ArgusSbomGuard

/-- What a REST handler raises. -/
inductive ApiError
  /-- `_validation_error`. -/
  | validation (loc : List String) (msg : String)
  /-- `HTTPException`. -/
  | http (statusCode : ℕ) (detail : String)
  /-- An exception the handler does not catch; the client sees a generic 500. -/
  | unhandled (e : PyError)
  deriving DecidableEq

/-- The multipart form of `upload_sbom`. -/
structure UploadForm where
  projectId : Option String
  projectSlug : Option String
  version : Option String
  serviceName : Option String
  file : List UInt8

structure SBOMUploadResponse where
  id : Uuid
  format : Option SBOMFormat
  dependencyCount : Option ℕ
  sha256 : String

variable (env : Env)

/-- `select(Project).where(Project.id == project_uuid)`. -/
def findProject (db : Database) (projectUuid : Uuid) : Option Project :=
  db.projects.find? fun p => p.id == projectUuid

/-- `select(Project).where(Project.slug == project_slug)`. -/
def findProjectBySlug (db : Database) (projectSlug : String) :
    Except PyError (Option Project) :=
  if fitsText projectSlug then .ok (db.projects.find? fun p => p.slug == projectSlug)
  else .error .dataError

/-- The part of `upload_sbom` that chooses the project. -/
def uploadProject (db : Database) (projectId projectSlug : Option String) :
    Except ApiError Project :=
  match projectId.filter (· ≠ ""), projectSlug.filter (· ≠ "") with
  | none, none =>
    .error (.validation ["body", "project_id"] "project_id or project_slug is required")
  | some _, some _ =>
    .error (.validation ["body", "project_id"] "Provide only one of project_id or project_slug")
  | some projectId, none =>
    match (env.parseUuid projectId).bind (findProject db) with
    | some project => .ok project
    | none => .error (.http 404 "Project not found")
  | none, some projectSlug =>
    match findProjectBySlug db projectSlug with
    | .ok (some project) => .ok project
    | .ok none => .error (.http 404 "Project not found")
    | .error e => .error (.unhandled e)

/-- `_strip_nul_from_strings(raw)`: the function calls itself on each element. -/
def stripNulFromStrings (raw : Json) : Except PyError Json :=
  if raw.calls ≤ env.stripCalls then .ok raw.stripNul else .error .recursionError

/-- The part of `upload_sbom` that parses the file. -/
def uploadedDocument (file : List UInt8) : Except ApiError Json :=
  match env.loads file with
  | .ok raw => (stripNulFromStrings env raw).mapError .unhandled
  | .error .jsonDecodeError => .error (.validation ["body", "file"] "Invalid JSON")
  | .error e => .error (.unhandled e)

/-- `upload_sbom`: the database, the message sent to `scan_sbom` and the response. -/
def uploadSbom (db : Database) (form : UploadForm) (inp : StoreInput) :
    Except ApiError (Database × String × SBOMUploadResponse) := do
  let project ← uploadProject env db (form.projectId.map PyStr.stripNul)
    (form.projectSlug.map PyStr.stripNul)
  let raw ← uploadedDocument env form.file
  let (db, sbom) ← (storeSbom env db project.id raw (form.version.map PyStr.stripNul)
    (form.serviceName.map PyStr.stripNul) inp).mapError .unhandled
  -- the message is sent for a document that was stored before, too
  return (db, env.strUuid sbom.id, ⟨sbom.id, sbom.format, sbom.dependencyCount, sbom.sha256⟩)

/-! ### gRPC -/

inductive GrpcStatusCode
  | INVALID_ARGUMENT | NOT_FOUND
  deriving DecidableEq

/-- How a gRPC call fails: `context.abort`, or an exception. -/
inductive GrpcError
  | aborted (code : GrpcStatusCode) (details : String)
  | unhandled (e : PyError)
  deriving DecidableEq

/-- The message `UploadRequest`; nothing reads its `service_name`. -/
structure UploadRequest where
  projectId : String
  version : Option String
  sbomJson : List UInt8
  serviceName : Option String
  projectSlug : Option String

/-- The message `UploadResponse`. -/
structure UploadResponse where
  sbomId : String
  format : String
  dependencyCount : ℕ
  sha256 : String

/-- `SBOMFormat.value`. -/
def SBOMFormat.value : SBOMFormat → String
  | .CYCLONEDX => "cyclonedx"
  | .SPDX => "spdx"

/-- The part of `UploadSBOM` that chooses the project. -/
def grpcProject (db : Database) (projectId : String) (projectSlug : Option String) :
    Except GrpcError Project := do
  let project ← match projectSlug.filter (· ≠ ""), projectId != "" with
    | some _, true =>
      throw (.aborted .INVALID_ARGUMENT "provide only one of project_id or project_slug")
    | none, false => throw (.aborted .INVALID_ARGUMENT "project_id or project_slug is required")
    | some projectSlug, false => (findProjectBySlug db projectSlug).mapError .unhandled
    | none, true => match env.parseUuid projectId with
      | none => throw (.aborted .INVALID_ARGUMENT "invalid project_id UUID")
      | some projectUuid => pure (findProject db projectUuid)
  match project with
  | some project => return project
  | none => throw (.aborted .NOT_FOUND "project not found")

/-- The part of `UploadSBOM` that parses the document. -/
def grpcDocument (sbomJson : List UInt8) : Except GrpcError Json :=
  match env.loads sbomJson with
  | .ok raw => .ok raw
  | .error .jsonDecodeError =>
    .error (.aborted .INVALID_ARGUMENT ("invalid JSON: " ++ env.loadsError sbomJson))
  | .error e => .error (.unhandled e)

/-- `UploadSBOM`: the database, the message sent to `scan_sbom` and the response. -/
def grpcUploadSbom (db : Database) (request : UploadRequest) (inp : StoreInput) :
    Except GrpcError (Database × String × UploadResponse) := do
  let project ← grpcProject env db request.projectId request.projectSlug
  let raw ← grpcDocument env request.sbomJson
  let (db, sbom) ← (storeSbom env db project.id raw request.version none inp).mapError .unhandled
  return (db, env.strUuid sbom.id, ⟨env.strUuid sbom.id, (sbom.format.map (·.value)).getD "",
    sbom.dependencyCount.getD 0, sbom.sha256⟩)

/-! ### What a successful upload did -/

variable {env} {db db' : Database} {inp : StoreInput} {message : String}

/-- The project of an upload is stored. -/
theorem uploadProject_mem {projectId projectSlug : Option String} {project : Project}
    (h : uploadProject env db projectId projectSlug = .ok project) : project ∈ db.projects := by
  unfold uploadProject at h
  split at h
  · cases h
  · cases h
  · split at h
    · rename_i found hfind
      obtain rfl := Except.ok.inj h
      obtain ⟨i, -, hfind⟩ := Option.bind_eq_some_iff.1 hfind
      exact (Table.mem_of_find? hfind).1
    · cases h
  · split at h
    · rename_i found hfind
      obtain rfl := Except.ok.inj h
      unfold findProjectBySlug at hfind
      split_ifs at hfind
      exact (Table.mem_of_find? (Except.ok.inj hfind)).1
    · cases h
    · cases h

/-- A successful upload went through `store_sbom`, for a stored project, and sent the message
for the SBOM it found or stored. -/
theorem uploadSbom_eq_ok {form : UploadForm} {response : SBOMUploadResponse}
    (h : uploadSbom env db form inp = .ok (db', message, response)) :
    ∃ project raw version serviceName sbom,
      storeSbom env db project raw version serviceName inp = .ok (db', sbom) ∧
        message = env.strUuid sbom.id ∧ response.id = sbom.id := by
  simp only [uploadSbom, bind_eq_ok, Prod.exists] at h
  obtain ⟨project, -, raw, -, db₁, sbom, hstore, h⟩ := h
  cases h
  exact ⟨_, _, _, _, sbom, mapError_eq_ok hstore, rfl, rfl⟩

theorem grpcUploadSbom_eq_ok {request : UploadRequest} {response : UploadResponse}
    (h : grpcUploadSbom env db request inp = .ok (db', message, response)) :
    ∃ project raw version serviceName sbom,
      storeSbom env db project raw version serviceName inp = .ok (db', sbom) ∧
        message = env.strUuid sbom.id ∧ response.sbomId = env.strUuid sbom.id := by
  simp only [grpcUploadSbom, bind_eq_ok, Prod.exists] at h
  obtain ⟨project, -, raw, -, db₁, sbom, hstore, h⟩ := h
  cases h
  exact ⟨_, _, _, _, sbom, mapError_eq_ok hstore, rfl, rfl⟩

end ArgusSbomGuard
