import ArgusSbomGuard.Models.Database
import ArgusSbomGuard.Models.Environment

/-!
# Storing a document

`services/sbom_parser.py`.  A document that is stored already, under any project, is returned as
it is; a new one is inserted with its dependencies and, when it or the request names one, its
service.  The fields of a document have any JSON type, and the operations on them raise as
Python's do.

What a call that returned did is `storeSbom_eq_ok`: it found the document or it stored it
(`Stored`).
-/

namespace ArgusSbomGuard

/-- The values of one entry of `deps_data`. -/
structure DependencyData where
  name : Json
  version : Json
  purl : Json
  depType : Json
  license : Json
  isDirect : Bool
  extraData : Json

/-- The text of a field of `metadata.component`, stripped; `none` when it is no text or blank. -/
def extractComponentText (field : String) (raw : Json) : Except PyError (Option String) := do
  let metadata := (← raw.get "metadata" .null).pyOr (.obj [])
  let component := (← metadata.get "component" .null).pyOr (.obj [])
  match ← component.get field .null with
  | .str s => return if PyStr.strip s = "" then none else some (PyStr.strip s)
  | _ => return none

/-- `_extract_service_name`. -/
def extractServiceName : Json → Except PyError (Option String) := extractComponentText "name"

/-- `_extract_component_version`. -/
def extractComponentVersion : Json → Except PyError (Option String) :=
  extractComponentText "version"

/-- The loop of `_extract_license`. -/
def findLicense : List Json → Except PyError Json
  | [] => .ok (.str "")
  | licenseEntry :: licenses => do
    if ← licenseEntry.hasKey "license" then (← licenseEntry.item "license").get "id" (.str "")
    else findLicense licenses

/-- `_extract_license`. -/
def extractLicense (component : Json) : Except PyError Json := do
  findLicense (← (← component.get "licenses" (.arr [])).iter)

/-- `parse_cyclonedx`. -/
def parseCyclonedx (raw : Json) : Except PyError (List DependencyData) := do
  (← (← raw.get "components" (.arr [])).iter).mapM fun component => do
    return {
      purl := ← component.get "purl" (.str "")
      name := ← component.get "name" (.str "")
      version := ← component.get "version" (.str "")
      depType := ← component.get "type" (.str "library")
      license := ← extractLicense component
      isDirect := true
      extraData := component }

/-- `parse_spdx`. -/
def parseSpdx (raw : Json) : Except PyError (List DependencyData) := do
  (← (← raw.get "packages" (.arr [])).iter).mapM fun package => do
    return {
      name := ← package.get "name" (.str "")
      version := ← package.get "versionInfo" (.str "")
      purl := .str ""
      depType := .str "library"
      license := ← package.get "licenseDeclared" (.str "")
      isDirect := true
      extraData := package }

/-- The choice of `store_sbom` between the formats. -/
def parseDocument (raw : Json) : Except PyError (Option SBOMFormat × List DependencyData) := do
  match ← raw.get "bomFormat" (.str "") with
  | .str fmt =>
    if PyStr.lower fmt = "cyclonedx" then return (some .CYCLONEDX, ← parseCyclonedx raw)
    else if (← raw.get "spdxVersion" .null).truthy then return (some .SPDX, ← parseSpdx raw)
    else return (none, [])
  | _ => throw .attributeError

variable (env : Env)

/-- `_extract_timestamp`: unlike `_parse_date`, it does not catch the error of a value that has
no `replace`. -/
def extractTimestamp (raw : Json) : Except PyError (Option DateTime) := do
  let ts ← ((← raw.get "metadata" .null).pyOr (.obj [])).get "timestamp" .null
  if !ts.truthy then return none
  match ts with
  | .str s => return env.fromisoformat (PyStr.replaceChar s 'Z' "+00:00")
  | _ => throw .attributeError

/-- `_get_or_create_service`, with the service as it is stored. -/
def getOrCreateService (db : Database) (projectId : Uuid) (name : String) (newId : Uuid) :
    Except PyError (Database × Service) :=
  -- the name is a parameter of the `SELECT`
  if !env.sends name then .error .dataError
  else match db.services.find? fun v => v.projectId == projectId && v.name == name with
    | some service => .ok (db, service)
    | none => do
      let service : Service := ⟨newId, projectId, ← env.varchar 255 name⟩
      return (← db.insertService service, service)

/-- `Dependency(sbom_id=sbom_id, **dependency_data)`, with its values bound to the columns. -/
def bindDependency (sbomId : Uuid) (d : DependencyData) : Except PyError Dependency := do
  return {
    sbomId
    name := ← env.varcharParamNotNull 512 d.name
    version := ← env.varcharParamNotNull 255 d.version
    purl := ← env.varcharParam 1024 d.purl
    depType := ← env.varcharParam 50 d.depType
    license := ← env.varcharParam 255 d.license
    isDirect := d.isDirect
    extraData := ← env.jsonParam d.extraData }

/-- The loop at the end of `store_sbom`. -/
def addDependencies (sbomId : Uuid) : Database → List DependencyData → Except PyError Database
  | db, [] => .ok db
  | db, d :: ds => do
    addDependencies sbomId (← db.insertDependency (← bindDependency env sbomId d)) ds

/-- What storing a document gets from outside: the identifiers drawn for new rows, and the
`now()` of the transaction. -/
structure StoreInput where
  newServiceId : Uuid
  newSbomId : Uuid
  now : DateTime

/-- `version or _extract_component_version(raw) or sha`. -/
def chooseVersion (version : Option String) (raw : Json) (sha : String) :
    Except PyError String :=
  match version.filter (· ≠ "") with
  | some version => .ok version
  | none => do return (← extractComponentVersion raw).getD sha

/-- The service of a new SBOM. -/
def chooseService (db : Database) (projectId : Uuid) (effectiveName : Option String)
    (newId : Uuid) : Except PyError (Database × Option Service) :=
  match effectiveName with
  | none => .ok (db, none)
  | some name => do
    let (db, service) ← getOrCreateService env db projectId name newId
    return (db, some service)

/-- `store_sbom`, with the SBOM as it is stored; `created_at` and `uploaded_at` default to
`now()`. -/
def storeSbom (db : Database) (projectId : Uuid) (raw : Json) (version serviceName : Option String)
    (inp : StoreInput) : Except PyError (Database × SBOM) := do
  let (fmt, depsData) ← parseDocument raw
  let sha ← env.computeSha256 raw
  let version ← chooseVersion version raw sha
  match db.sboms.find? fun s => s.sha256 == sha with
  -- the document is known, under whatever project and service
  | some existing => return (db, existing)
  | none =>
    let autoService ← extractServiceName raw
    -- the name in the request wins over the one in the document
    let effectiveName := serviceName.filter (· ≠ "") <|> autoService
    let (db, service) ← chooseService env db projectId effectiveName inp.newServiceId
    let createdAt ← timestampParam (← extractTimestamp env raw)
    let sbom : SBOM := {
      id := inp.newSbomId
      projectId
      version := some (← env.varchar 255 version)
      format := fmt
      rawSbom := ← env.jsonParam raw
      sha256 := sha
      dependencyCount := some depsData.length
      uploadedAt := inp.now
      createdAt := createdAt.getD inp.now
      serviceId := service.map (·.id) }
    let db ← db.insertSbom sbom
    let db ← addDependencies env sbom.id db depsData
    return (db, sbom)

/-! ### What storing did -/

/-- `sbom` is new in `db'`, stored for the project `projectId` at `now`; at most its service and
its dependencies are new besides. -/
structure Stored (projectId : Uuid) (now : DateTime) (sbom : SBOM) (db db' : Database) : Prop where
  frame : db'.toTables = { db.toTables with
    services := db'.services, sboms := db'.sboms, dependencies := db'.dependencies }
  insert : db.sboms.insert? sbom = some db'.sboms
  services : db'.services = db.services ∨ ∃ v, db.services.insert? v = some db'.services
  project : sbom.projectId = projectId
  service : ∀ i ∈ sbom.serviceId, ∃ v ∈ db'.services, v.id = i ∧ v.projectId = projectId
  uploadedAt : sbom.uploadedAt = now

variable {env} {db db' : Database} {projectId : Uuid}

theorem addDependencies_frame {sbomId : Uuid} {ds : List DependencyData}
    (h : addDependencies env sbomId db ds = .ok db') :
    db'.toTables = { db.toTables with dependencies := db'.dependencies } := by
  induction ds generalizing db with
  | nil => cases h; rfl
  | cons d ds ih =>
    simp only [addDependencies, bind_eq_ok] at h
    obtain ⟨dep, -, db₁, hins, h⟩ := h
    obtain ⟨t, -, ht⟩ := Database.insertDependency_eq_ok hins
    rw [ih h, ht]

/-- The row of the SBOM and those of its dependencies leave the other tables as they are. -/
theorem insertSbom_addDependencies {sbom : SBOM} {db₁ : Database} {ds : List DependencyData}
    (hins : db.insertSbom sbom = .ok db₁) (hdeps : addDependencies env sbom.id db₁ ds = .ok db') :
    db.sboms.insert? sbom = some db'.sboms ∧
      db'.toTables = { db.toTables with
        sboms := db'.sboms, dependencies := db'.dependencies } := by
  obtain ⟨t, ht, hframe⟩ := Database.insertSbom_eq_ok hins
  have hframe' := addDependencies_frame hdeps
  have hsboms : db'.sboms = t := by rw [hframe', hframe]
  refine ⟨hsboms ▸ ht, ?_⟩
  rw [hframe', hframe]

theorem getOrCreateService_eq_ok {name : String} {newId : Uuid} {service : Service}
    (h : getOrCreateService env db projectId name newId = .ok (db', service)) :
    db'.toTables = { db.toTables with services := db'.services } ∧
      (db'.services = db.services ∨ ∃ v, db.services.insert? v = some db'.services) ∧
      service ∈ db'.services ∧ service.projectId = projectId := by
  unfold getOrCreateService at h
  split_ifs at h
  split at h
  · rename_i found hfind
    obtain ⟨rfl, rfl⟩ := Prod.mk.inj (Except.ok.inj h)
    obtain ⟨hmem, hp⟩ := Table.mem_of_find? hfind
    rw [Bool.and_eq_true, beq_iff_eq, beq_iff_eq] at hp
    exact ⟨rfl, .inl rfl, hmem, hp.1⟩
  · obtain ⟨stored, -, h⟩ := bind_eq_ok.1 h
    obtain ⟨db₁, hins, h⟩ := bind_eq_ok.1 h
    obtain ⟨rfl, rfl⟩ := Prod.mk.inj (Except.ok.inj h)
    obtain ⟨t, ht, htab⟩ := Database.insertService_eq_ok hins
    have hsv : db₁.services = t := by rw [htab]
    rw [hsv]
    exact ⟨htab, .inr ⟨_, ht⟩, (Table.mem_insert? ht).2 (.inr rfl), rfl⟩

theorem chooseService_eq_ok {name : Option String} {newId : Uuid} {service : Option Service}
    (h : chooseService env db projectId name newId = .ok (db', service)) :
    db'.toTables = { db.toTables with services := db'.services } ∧
      (db'.services = db.services ∨ ∃ v, db.services.insert? v = some db'.services) ∧
      ∀ v ∈ service, v ∈ db'.services ∧ v.projectId = projectId := by
  unfold chooseService at h
  split at h
  · obtain ⟨rfl, rfl⟩ := Prod.mk.inj (Except.ok.inj h)
    exact ⟨rfl, .inl rfl, fun v hv => nomatch hv⟩
  · simp only [bind_eq_ok, Prod.exists] at h
    obtain ⟨db₁, service, hget, h⟩ := h
    obtain ⟨rfl, rfl⟩ := Prod.mk.inj (Except.ok.inj h)
    obtain ⟨hframe, hsv, hmem, hproj⟩ := getOrCreateService_eq_ok hget
    refine ⟨hframe, hsv, fun v hv => ?_⟩
    obtain rfl := Option.some.inj hv
    exact ⟨hmem, hproj⟩

/-- `store_sbom` found the document, or stored it. -/
theorem storeSbom_eq_ok {raw : Json} {version serviceName : Option String} {inp : StoreInput}
    {sbom : SBOM} (h : storeSbom env db projectId raw version serviceName inp = .ok (db', sbom)) :
    (db' = db ∧ sbom ∈ db.sboms) ∨ Stored projectId inp.now sbom db db' := by
  simp only [storeSbom, bind_eq_ok, Prod.exists] at h
  obtain ⟨fmt, depsData, -, sha, -, version, -, h⟩ := h
  split at h
  · rename_i existing hfind
    obtain ⟨rfl, rfl⟩ := Prod.mk.inj (Except.ok.inj h)
    exact .inl ⟨rfl, (Table.mem_of_find? hfind).1⟩
  · simp only [bind_eq_ok, Prod.exists] at h
    obtain ⟨autoService, -, db₁, service, hservice, _, -, createdAt, -, _, -, _, -, db₂, hins, db₃,
      hdeps, h⟩ := h
    obtain ⟨rfl, rfl⟩ := Prod.mk.inj (Except.ok.inj h)
    obtain ⟨hframe₁, hsv, hmem⟩ := chooseService_eq_ok hservice
    obtain ⟨hinsert, hframe₂⟩ := insertSbom_addDependencies hins hdeps
    have hservices : db₃.services = db₁.services := by rw [hframe₂]
    refine .inr ⟨?_, ?_, ?_, rfl, ?_, rfl⟩
    · rw [hframe₂, hframe₁]
    · rw [← hinsert, hframe₁]
    · rw [hservices]
      exact hsv
    · intro i hi
      obtain ⟨v, hv, rfl⟩ := Option.map_eq_some_iff.1 hi
      rw [hservices]
      exact ⟨v, (hmem v hv).1, rfl, (hmem v hv).2⟩

end ArgusSbomGuard
