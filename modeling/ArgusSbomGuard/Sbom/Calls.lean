import ArgusSbomGuard.Transition.Concurrent
import ArgusSbomGuard.Sbom.Rows

/-!
# `store_sbom` as a routine

`store_sbom` step by step: it looks up the document and the service, and inserts what it did not
find.  What a call reads and inserts are rows of `services`, `sboms` and `dependencies`; the
projects do not change meanwhile.  An undisturbed call inserts what `store_sbom` does
(`storeRest_lookup`).

## Main definitions

* `UploadRow` : the rows.
* `UploadRow.checkInsert` : what an `INSERT` checks.
* `storeRoutine`, `storeTransactions` : the steps of a call, and any number of calls.
* `RowsOf` : the rows are those of a database.
-/

namespace ArgusSbomGuard

/-! ### Rows -/

/-- A row that `store_sbom` inserts. -/
inductive UploadRow
  | service (v : Service)
  | sbom (s : SBOM)
  | dependency (d : Dependency)

namespace UploadRow

def service? : UploadRow → Option Service
  | .service v => some v
  | _ => none

def sbom? : UploadRow → Option SBOM
  | .sbom s => some s
  | _ => none

def dependency? : UploadRow → Option Dependency
  | .dependency d => some d
  | _ => none

/-- The two rows agree on a unique key of their table. -/
protected def Clash : UploadRow → UploadRow → Prop
  | .service v, .service v' => ArgusSbomGuard.Clash v v'
  | .sbom s, .sbom s' => ArgusSbomGuard.Clash s s'
  | _, _ => False

instance : UniqueKeys UploadRow where
  Clash := UploadRow.Clash
  decClash
    | .service v, .service v' => inferInstanceAs (Decidable (ArgusSbomGuard.Clash v v'))
    | .sbom s, .sbom s' => inferInstanceAs (Decidable (ArgusSbomGuard.Clash s s'))
    | .service _, .sbom _ | .service _, .dependency _ | .sbom _, .service _
    | .sbom _, .dependency _ | .dependency _, _ => .isFalse id
  clash_symm {a b} h := by
    cases a <;> cases b
    case service.service => exact clash_symm (R := Service) h
    case sbom.sbom => exact clash_symm (R := SBOM) h
    all_goals exact h

/-- The services among the rows. -/
def services (rows : List UploadRow) : List Service := rows.filterMap service?

def sboms (rows : List UploadRow) : List SBOM := rows.filterMap sbom?

def dependencies (rows : List UploadRow) : List Dependency := rows.filterMap dependency?

/-- The values fit the columns, as far as no binding of a parameter has checked it. -/
def fits : UploadRow → Bool
  | .service v => fitsVarchar 255 v.name
  | .sbom s => s.version.all (fitsVarchar 255) && fitsVarchar 64 s.sha256 &&
      s.rawSbom.storable && s.dependencyCount.all fitsInteger
  | .dependency d => d.extraData.storable

/-- The rows that the foreign keys refer to are there; the projects are those of the database. -/
def HasParents (db : Database) (rows : List UploadRow) : UploadRow → Prop
  | .service v => ∃ p ∈ db.projects, p.id = v.projectId
  | .sbom s => (∃ p ∈ db.projects, p.id = s.projectId) ∧
      ∀ i ∈ s.serviceId, ∃ v ∈ services rows, v.id = i
  | .dependency d => ∃ s ∈ sboms rows, s.id = d.sbomId

instance (db : Database) (rows : List UploadRow) :
    (row : UploadRow) → Decidable (HasParents db rows row)
  | .service _ => inferInstanceAs (Decidable (∃ p ∈ db.projects, _))
  | .sbom _ => inferInstanceAs (Decidable ((∃ p ∈ db.projects, _) ∧ ∀ i ∈ _, _))
  | .dependency _ => inferInstanceAs (Decidable (∃ s ∈ sboms rows, _))

/-- What an `INSERT` checks. -/
def checkInsert (db : Database) (rows : List UploadRow) (row : UploadRow) : Except PyError Unit :=
  if !row.fits then .error .dataError
  else if HasParents db rows row ∧ ¬ ∃ r ∈ rows, UniqueKeys.Clash r row then .ok ()
  else .error .integrityError

end UploadRow

/-- The rows of a database. -/
def uploadRows (db : Database) : List UploadRow :=
  db.services.rows.map .service ++ (db.sboms.rows.map .sbom ++ db.dependencies.rows.map .dependency)

/-- `SELECT ... FROM sboms WHERE sha256 = :sha`. -/
def findDocument (rows : List UploadRow) (sha : String) : Option SBOM :=
  (UploadRow.sboms rows).find? fun s => s.sha256 == sha

/-- `SELECT ... FROM services WHERE project_id = :project_id AND name = :name`. -/
def findService (rows : List UploadRow) (projectId : Uuid) (name : String) : Option Service :=
  (UploadRow.services rows).find? fun v => v.projectId == projectId && v.name == name

/-! ### A call -/

/-- The arguments of `store_sbom`, with what the call gets from outside. -/
structure UploadCall where
  projectId : Uuid
  raw : Json
  version : Option String
  serviceName : Option String
  inp : StoreInput

/-- What `store_sbom` has computed before its first query. -/
structure ReadDocument where
  format : Option SBOMFormat
  entries : List DependencyData
  version : String

/-- The next step of `store_sbom`. -/
inductive StorePc
  | lookup
  | service (p : ReadDocument) (name : String)
  | insertService (p : ReadDocument) (name : String)
  | insertSbom (p : ReadDocument) (serviceId : Option Uuid)
  | insertDependencies (ds : List DependencyData)
  | done
  | failed (e : PyError)

variable (env : Env)

namespace UploadCall

variable (c : UploadCall)

/-- The part of `store_sbom` before its first query. -/
def read : Except PyError ReadDocument := do
  let (format, entries) ← parseDocument c.raw
  let sha ← env.computeSha256 c.raw
  return ⟨format, entries, ← chooseVersion c.version c.raw sha⟩

/-- The object `Service(...)`, with its values bound to the columns. -/
def service (name : String) : Except PyError Service := do
  return ⟨c.inp.newServiceId, c.projectId, ← env.varchar 255 name⟩

/-- The object `SBOM(...)`, with its values bound to the columns. -/
def sbom (p : ReadDocument) (serviceId : Option Uuid) : Except PyError SBOM := do
  let createdAt ← timestampParam (← extractTimestamp env c.raw)
  return {
    id := c.inp.newSbomId
    projectId := c.projectId
    version := some (← env.varchar 255 p.version)
    format := p.format
    rawSbom := ← env.jsonParam c.raw
    sha256 := env.sha256 c.raw
    dependencyCount := some p.entries.length
    uploadedAt := c.inp.now
    createdAt := createdAt.getD c.inp.now
    serviceId }

end UploadCall

/-- The `INSERT` of a row on what the transaction sees. -/
def insertedRow? (db : Database) (rows : List UploadRow) (row : Except PyError UploadRow) :
    Except PyError UploadRow := do
  let row ← row
  UploadRow.checkInsert db rows row
  return row

/-- The step that inserts a row; no error is caught. -/
def insertStep (db : Database) (rows : List UploadRow) (row : Except PyError UploadRow)
    (pc : StorePc) : Outcome UploadRow StorePc :=
  match insertedRow? db rows row with
  | .ok row => .next [row] pc
  | .error e => .next [] (.failed e)

/-- One step of `store_sbom` on what its transaction sees. -/
def storeRoutine (db : Database) (c : UploadCall) :
    StorePc → List UploadRow → Outcome UploadRow StorePc
  | .lookup, rows => match c.read env with
    | .error e => .next [] (.failed e)
    | .ok p => match findDocument rows (env.sha256 c.raw) with
      | some _ => .next [] .done
      | none => match extractServiceName c.raw with
        | .error e => .next [] (.failed e)
        | .ok autoService => match c.serviceName.filter (· ≠ "") <|> autoService with
          | some name => .next [] (.service p name)
          | none => .next [] (.insertSbom p none)
  | .service p name, rows =>
    if !env.sends name then .next [] (.failed .dataError)
    else match findService rows c.projectId name with
      | some v => .next [] (.insertSbom p (some v.id))
      | none => .next [] (.insertService p name)
  | .insertService p name, rows =>
    insertStep db rows ((c.service env name).map .service)
      (.insertSbom p (some c.inp.newServiceId))
  | .insertSbom p serviceId, rows =>
    insertStep db rows ((c.sbom env p serviceId).map .sbom) (.insertDependencies p.entries)
  | .insertDependencies [], _ => .next [] .done
  | .insertDependencies (d :: ds), rows =>
    insertStep db rows ((bindDependency env c.inp.newSbomId d).map .dependency)
      (.insertDependencies ds)
  | .done, _ => .commit
  | .failed _, _ => .rollback

/-- Calls on shared rows; two inserts with a common unique key wait for each other. -/
def storeTransactions {ι : Type} (db : Database) (calls : ι → UploadCall) :
    Transactions ι (List UploadRow) UploadRow StorePc where
  write rows row := rows ++ [row]
  routine i := storeRoutine env db (calls i)
  Conflict := Clash
  decConflict _ _ := inferInstance

/-! ### One call alone -/

section Alone

variable (db : Database) (c : UploadCall)

/-- An insert and what follows it. -/
def insertRest (rows : List UploadRow) (row : Except PyError UploadRow)
    (rest : List UploadRow → Option (List UploadRow)) : Option (List UploadRow) :=
  match insertedRow? db rows row with
  | .ok row => rest (rows ++ [row])
  | .error _ => none

/-- A call from the inserts of dependencies on. -/
def dependenciesRest : List DependencyData → List UploadRow → Option (List UploadRow)
  | [], rows => some rows
  | d :: ds, rows => insertRest db rows ((bindDependency env c.inp.newSbomId d).map .dependency)
      (dependenciesRest ds)

/-- A call from the insert of the SBOM on. -/
def sbomRest (p : ReadDocument) (serviceId : Option Uuid) (rows : List UploadRow) :
    Option (List UploadRow) :=
  insertRest db rows ((c.sbom env p serviceId).map .sbom) (dependenciesRest env db c p.entries)

/-- A call from the lookup of the service on. -/
def serviceRest (p : ReadDocument) (name : String) (rows : List UploadRow) :
    Option (List UploadRow) :=
  if !env.sends name then none
  else match findService rows c.projectId name with
    | some v => sbomRest env db c p (some v.id) rows
    | none => insertRest db rows ((c.service env name).map .service)
        (sbomRest env db c p (some c.inp.newServiceId))

/-- What the rest of a call commits when nobody disturbs it. -/
def storeRest : StorePc → List UploadRow → Option (List UploadRow)
  | .lookup, rows => match c.read env with
    | .error _ => none
    | .ok p => match findDocument rows (env.sha256 c.raw) with
      | some _ => some rows
      | none => match extractServiceName c.raw with
        | .error _ => none
        | .ok autoService => match c.serviceName.filter (· ≠ "") <|> autoService with
          | some name => serviceRest env db c p name rows
          | none => sbomRest env db c p none rows
  | .service p name, rows => serviceRest env db c p name rows
  | .insertService p name, rows => insertRest db rows ((c.service env name).map .service)
      (sbomRest env db c p (some c.inp.newServiceId))
  | .insertSbom p serviceId, rows => sbomRest env db c p serviceId rows
  | .insertDependencies ds, rows => dependenciesRest env db c ds rows
  | .done, rows => some rows
  | .failed _, _ => none

variable {env db c} {rows : List UploadRow} {db₁ db₂ : Database}

theorem insertStep_commits {row : Except PyError UploadRow} {pc : StorePc}
    {eval : StorePc → List UploadRow → Option (List UploadRow)} (hfailed : ∀ e rows,
      eval (.failed e) rows = none) :
    (insertStep db rows row pc).commits (fun rows row => rows ++ [row]) eval rows =
      insertRest db rows row (eval pc) := by
  unfold insertStep insertRest
  cases insertedRow? db rows row with
  | ok row => rfl
  | error e => exact hfailed e rows

/-- The evaluation follows the routine step by step. -/
theorem storeRest_evaluates : Evaluates (fun (rows : List UploadRow) row => rows ++ [row])
    (storeRoutine env db c) (storeRest env db c) := by
  intro pc rows
  have hfailed : ∀ e rows, storeRest env db c (.failed e) rows = none := fun _ _ => rfl
  cases pc with
  | lookup =>
    simp only [storeRoutine, storeRest]
    cases c.read env with
    | error e => rfl
    | ok p =>
      cases findDocument rows (env.sha256 c.raw) with
      | some s => rfl
      | none =>
        cases extractServiceName c.raw with
        | error e => rfl
        | ok autoService =>
          cases h : c.serviceName.filter (· ≠ "") <|> autoService <;> simp only [h] <;> rfl
  | service p name =>
    simp only [storeRoutine, storeRest, serviceRest]
    cases env.sends name with
    | false => rfl
    | true => cases findService rows c.projectId name <;> rfl
  | insertService p name =>
    simp only [storeRoutine, insertStep_commits hfailed]
    rfl
  | insertSbom p serviceId =>
    simp only [storeRoutine, insertStep_commits hfailed]
    rfl
  | insertDependencies ds =>
    cases ds with
    | nil => rfl
    | cons d ds =>
      simp only [storeRoutine, insertStep_commits hfailed]
      rfl
  | done => rfl
  | failed e => rfl

/-- The rows are those of the database, whose projects have not changed. -/
structure RowsOf (db : Database) (rows : List UploadRow) (db₁ : Database) : Prop where
  projects : db₁.projects = db.projects
  services : UploadRow.services rows = db₁.services.rows
  sboms : UploadRow.sboms rows = db₁.sboms.rows
  dependencies : UploadRow.dependencies rows = db₁.dependencies.rows

theorem rowsOf_uploadRows : RowsOf db (uploadRows db) db where
  projects := rfl
  services := by
    simp [uploadRows, UploadRow.services, List.filterMap_map, Function.comp_def,
      UploadRow.service?]
  sboms := by
    simp [uploadRows, UploadRow.sboms, List.filterMap_map, Function.comp_def, UploadRow.sbom?]
  dependencies := by
    simp [uploadRows, UploadRow.dependencies, List.filterMap_map, Function.comp_def,
      UploadRow.dependency?]

theorem mem_services {v : Service} : v ∈ UploadRow.services rows ↔ .service v ∈ rows := by
  simp only [UploadRow.services, List.mem_filterMap]
  constructor
  · rintro ⟨row, hrow, h⟩
    cases row <;> simp only [UploadRow.service?, reduceCtorEq, Option.some.injEq] at h
    exact h ▸ hrow
  · exact fun h => ⟨_, h, rfl⟩

theorem mem_sboms {s : SBOM} : s ∈ UploadRow.sboms rows ↔ .sbom s ∈ rows := by
  simp only [UploadRow.sboms, List.mem_filterMap]
  constructor
  · rintro ⟨row, hrow, h⟩
    cases row <;> simp only [UploadRow.sbom?, reduceCtorEq, Option.some.injEq] at h
    exact h ▸ hrow
  · exact fun h => ⟨_, h, rfl⟩

theorem checkInsert_eq_ok {row : UploadRow} : UploadRow.checkInsert db rows row = .ok () ↔
    row.fits = true ∧ UploadRow.HasParents db rows row ∧ ∀ r ∈ rows, ¬ Clash r row := by
  unfold UploadRow.checkInsert
  by_cases hfits : row.fits = true
  · simp only [hfits, Bool.not_true, Bool.false_eq_true, if_false, true_and, not_exists, not_and]
    split_ifs with h
    · exact iff_of_true rfl h
    · exact iff_of_false nofun h
  · rw [if_pos (by simpa using hfits)]
    exact iff_of_false nofun fun h => hfits h.1

theorem insertedRow?_eq_ok {row : Except PyError UploadRow} {row' : UploadRow} :
    insertedRow? db rows row = .ok row' ↔
      row = .ok row' ∧ UploadRow.checkInsert db rows row' = .ok () := by
  simp only [insertedRow?, bind_eq_ok]
  constructor
  · rintro ⟨r, rfl, ⟨⟩, hcheck, h⟩
    obtain rfl := Except.ok.inj h
    exact ⟨rfl, hcheck⟩
  · rintro ⟨rfl, hcheck⟩
    exact ⟨row', rfl, (), hcheck, rfl⟩

theorem not_clash_service {v : Service} (h : RowsOf db rows db₁) :
    (∀ r ∈ rows, ¬ Clash r (.service v)) ↔ ∀ a ∈ db₁.services, ¬ Clash a v := by
  have hmem : ∀ a : Service, .service a ∈ rows ↔ a ∈ db₁.services := fun a => by
    rw [← mem_services, h.services]
    rfl
  constructor
  · exact fun hrows a ha => hrows (.service a) ((hmem a).2 ha)
  · intro hdb r hr
    cases r with
    | service a => exact hdb a ((hmem a).1 hr)
    | sbom s => exact id
    | dependency d => exact id

theorem not_clash_sbom {s : SBOM} (h : RowsOf db rows db₁) :
    (∀ r ∈ rows, ¬ Clash r (.sbom s)) ↔ ∀ a ∈ db₁.sboms, ¬ Clash a s := by
  have hmem : ∀ a : SBOM, .sbom a ∈ rows ↔ a ∈ db₁.sboms := fun a => by
    rw [← mem_sboms, h.sboms]
    rfl
  constructor
  · exact fun hrows a ha => hrows (.sbom a) ((hmem a).2 ha)
  · intro hdb r hr
    cases r with
    | service v => exact id
    | sbom a => exact hdb a ((hmem a).1 hr)
    | dependency d => exact id

theorem insertService_rows {v : Service} (h : RowsOf db rows db₁) :
    ((∃ db₂, db₁.insertService v = .ok db₂) ↔
      UploadRow.checkInsert db rows (.service v) = .ok ()) ∧
    ∀ db₂, db₁.insertService v = .ok db₂ → RowsOf db (rows ++ [.service v]) db₂ := by
  constructor
  · rw [Database.insertService_isOk, checkInsert_eq_ok, not_clash_service h, h.projects]
    rfl
  · intro db₂ hins
    obtain ⟨t, ht, htab⟩ := Database.insertService_eq_ok hins
    have hrows := (Table.insert?_eq_some ht).2
    refine ⟨?_, ?_, ?_, ?_⟩
    · rw [htab]
      exact h.projects
    · rw [htab, hrows, ← h.services, UploadRow.services, List.filterMap_append]
      rfl
    · rw [htab, ← h.sboms, UploadRow.sboms, List.filterMap_append]
      exact List.append_nil _
    · rw [htab, ← h.dependencies, UploadRow.dependencies, List.filterMap_append]
      exact List.append_nil _

theorem insertSbom_rows {s : SBOM} (h : RowsOf db rows db₁) :
    ((∃ db₂, db₁.insertSbom s = .ok db₂) ↔ UploadRow.checkInsert db rows (.sbom s) = .ok ()) ∧
    ∀ db₂, db₁.insertSbom s = .ok db₂ → RowsOf db (rows ++ [.sbom s]) db₂ := by
  constructor
  · rw [Database.insertSbom_isOk, checkInsert_eq_ok, not_clash_sbom h, h.projects]
    simp only [UploadRow.fits, Bool.and_eq_true, and_assoc, UploadRow.HasParents, h.services]
    rfl
  · intro db₂ hins
    obtain ⟨t, ht, htab⟩ := Database.insertSbom_eq_ok hins
    have hrows := (Table.insert?_eq_some ht).2
    refine ⟨?_, ?_, ?_, ?_⟩
    · rw [htab]
      exact h.projects
    · rw [htab, ← h.services, UploadRow.services, List.filterMap_append]
      exact List.append_nil _
    · rw [htab, hrows, ← h.sboms, UploadRow.sboms, List.filterMap_append]
      rfl
    · rw [htab, ← h.dependencies, UploadRow.dependencies, List.filterMap_append]
      exact List.append_nil _

theorem insertDependency_rows {d : Dependency} (h : RowsOf db rows db₁) :
    ((∃ db₂, db₁.insertDependency d = .ok db₂) ↔
      UploadRow.checkInsert db rows (.dependency d) = .ok ()) ∧
    ∀ db₂, db₁.insertDependency d = .ok db₂ → RowsOf db (rows ++ [.dependency d]) db₂ := by
  constructor
  · have hclash : ∀ r ∈ rows, ¬ Clash r (.dependency d) := fun r _ => by cases r <;> exact id
    rw [Database.insertDependency_isOk, checkInsert_eq_ok, and_iff_left hclash]
    simp only [UploadRow.fits, UploadRow.HasParents, h.sboms]
    rfl
  · intro db₂ hins
    obtain ⟨t, ht, htab⟩ := Database.insertDependency_eq_ok hins
    have hrows := (Table.insert?_eq_some ht).2
    refine ⟨?_, ?_, ?_, ?_⟩
    · rw [htab]
      exact h.projects
    · rw [htab, ← h.services, UploadRow.services, List.filterMap_append]
      exact List.append_nil _
    · rw [htab, ← h.sboms, UploadRow.sboms, List.filterMap_append]
      exact List.append_nil _
    · rw [htab, hrows, ← h.dependencies, UploadRow.dependencies, List.filterMap_append]
      rfl

/-- Both fail, or both end with the same rows. -/
def SameRows (db : Database) : Except PyError Database → Option (List UploadRow) → Prop
  | .ok db₂, some rows => RowsOf db rows db₂
  | .error _, none => True
  | _, _ => False

theorem sameRows_insert {row : UploadRow} {r : Except PyError Database}
    {f : Database → Except PyError Database}
    {rest : List UploadRow → Option (List UploadRow)}
    (hcheck : ((∃ db₂, r = .ok db₂) ↔ UploadRow.checkInsert db rows row = .ok ()) ∧
      ∀ db₂, r = .ok db₂ → RowsOf db (rows ++ [row]) db₂)
    (hrest : ∀ db₂, RowsOf db (rows ++ [row]) db₂ → SameRows db (f db₂) (rest (rows ++ [row]))) :
    SameRows db (r >>= f) (insertRest db rows (.ok row) rest) := by
  unfold insertRest
  cases r with
  | ok db₂ =>
    have hins := insertedRow?_eq_ok.2 ⟨rfl, hcheck.1.1 ⟨db₂, rfl⟩⟩
    rw [hins]
    exact hrest db₂ (hcheck.2 db₂ rfl)
  | error e =>
    cases hins : insertedRow? db rows (.ok row) with
    | error e' => trivial
    | ok row' =>
      obtain ⟨hrow, hchecked⟩ := insertedRow?_eq_ok.1 hins
      obtain rfl := Except.ok.inj hrow
      obtain ⟨db₂, h⟩ := hcheck.1.2 hchecked
      cases h

theorem dependenciesRest_rows {ds : List DependencyData} (h : RowsOf db rows db₁) :
    SameRows db (addDependencies env c.inp.newSbomId db₁ ds)
      (dependenciesRest env db c ds rows) := by
  induction ds generalizing rows db₁ with
  | nil => exact h
  | cons d ds ih =>
    simp only [addDependencies, dependenciesRest]
    cases bindDependency env c.inp.newSbomId d with
    | error e => trivial
    | ok row => exact sameRows_insert (insertDependency_rows h) fun db₂ h₂ => ih h₂

theorem sbomRest_rows {p : ReadDocument} {serviceId : Option Uuid} (h : RowsOf db rows db₁) :
    SameRows db (do
      let s ← c.sbom env p serviceId
      addDependencies env c.inp.newSbomId (← db₁.insertSbom s) p.entries)
      (sbomRest env db c p serviceId rows) := by
  unfold sbomRest
  cases c.sbom env p serviceId with
  | error e => trivial
  | ok s => exact sameRows_insert (insertSbom_rows h) fun db₂ h₂ => dependenciesRest_rows h₂

/-- What `store_sbom` does after its lookup of the document. -/
def storeNew (env : Env) (c : UploadCall) (db₁ : Database) (p : ReadDocument) :
    Except PyError Database := do
  let autoService ← extractServiceName c.raw
  let (db₂, service) ← chooseService env db₁ c.projectId
    (c.serviceName.filter (· ≠ "") <|> autoService) c.inp.newServiceId
  let s ← c.sbom env p (service.map (·.id))
  addDependencies env c.inp.newSbomId (← db₂.insertSbom s) p.entries

/-- The part of `store_sbom` after its lookup. -/
theorem storeNew_map {format : Option SBOMFormat} {entries : List DependencyData}
    {version : String} : Except.map Prod.fst (do
      let autoService ← extractServiceName c.raw
      let (db, service) ← chooseService env db₁ c.projectId
        (c.serviceName.filter (· ≠ "") <|> autoService) c.inp.newServiceId
      let createdAt ← timestampParam (← extractTimestamp env c.raw)
      let sbom : SBOM := {
        id := c.inp.newSbomId
        projectId := c.projectId
        version := some (← env.varchar 255 version)
        format
        rawSbom := ← env.jsonParam c.raw
        sha256 := env.sha256 c.raw
        dependencyCount := some entries.length
        uploadedAt := c.inp.now
        createdAt := createdAt.getD c.inp.now
        serviceId := service.map (·.id) }
      let db ← db.insertSbom sbom
      let db ← addDependencies env sbom.id db entries
      return (db, sbom)) = storeNew env c db₁ ⟨format, entries, version⟩ := by
  change (Prod.fst : Database × SBOM → Database) <$> (_ : Except PyError (Database × SBOM)) = _
  -- the same steps in the same order, of whose result only the database is kept
  simp only [storeNew, UploadCall.sbom, map_bind, map_pure, bind_assoc, pure_bind, bind_pure]

theorem storeSbom_map : (storeSbom env db₁ c.projectId c.raw c.version c.serviceName c.inp).map
    Prod.fst = (do
      let p ← c.read env
      match db₁.sboms.find? fun s => s.sha256 == env.sha256 c.raw with
      | some _ => return db₁
      | none => storeNew env c db₁ p) := by
  unfold storeSbom UploadCall.read
  cases parseDocument c.raw with
  | error e => rfl
  | ok r =>
    obtain ⟨format, entries⟩ := r
    simp only [bind, Except.bind]
    cases hsha : env.computeSha256 c.raw with
    | error e => rfl
    | ok sha =>
      obtain ⟨-, rfl⟩ := env.computeSha256_eq_ok.1 hsha
      simp only
      cases chooseVersion c.version c.raw (env.sha256 c.raw) with
      | error e => rfl
      | ok version =>
        simp only [pure, Except.pure]
        cases db₁.sboms.find? fun s => s.sha256 == env.sha256 c.raw with
        | some s => rfl
        | none => exact storeNew_map

theorem storeNew_rows {p : ReadDocument} {autoService : Option String} (h : RowsOf db rows db₁)
    (hauto : extractServiceName c.raw = .ok autoService) :
    SameRows db (storeNew env c db₁ p)
      (match c.serviceName.filter (· ≠ "") <|> autoService with
        | some name => serviceRest env db c p name rows
        | none => sbomRest env db c p none rows) := by
  unfold storeNew
  rw [hauto]
  change SameRows db (chooseService env db₁ c.projectId
    (c.serviceName.filter (· ≠ "") <|> autoService) c.inp.newServiceId >>= _) _
  cases c.serviceName.filter (· ≠ "") <|> autoService with
  | none => exact sbomRest_rows h
  | some name =>
    simp only [chooseService, getOrCreateService, serviceRest]
    have hfind : findService rows c.projectId name =
        db₁.services.find? fun v => v.projectId == c.projectId && v.name == name := by
      rw [findService, h.services]
      rfl
    rw [hfind]
    cases env.sends name with
    | false => trivial
    | true =>
      cases db₁.services.find? fun v => v.projectId == c.projectId && v.name == name with
      | some v => exact sbomRest_rows h
      | none =>
        simp only [Bool.not_true, Bool.false_eq_true, if_false, UploadCall.service, bind_assoc,
          pure_bind]
        cases env.varchar 255 name with
        | error e => trivial
        | ok stored => exact sameRows_insert (insertService_rows h) fun db₂ h₂ => sbomRest_rows h₂

/-- **Undisturbed, a call inserts what `store_sbom` does.** -/
theorem storeRest_lookup (h : RowsOf db rows db₁) :
    SameRows db ((storeSbom env db₁ c.projectId c.raw c.version c.serviceName c.inp).map Prod.fst)
      (storeRest env db c .lookup rows) := by
  rw [storeSbom_map]
  simp only [storeRest]
  cases c.read env with
  | error e => trivial
  | ok p =>
    have hfind : findDocument rows (env.sha256 c.raw) =
        db₁.sboms.find? fun s => s.sha256 == env.sha256 c.raw := by
      rw [findDocument, h.sboms]
      rfl
    simp only [hfind, bind, Except.bind]
    cases db₁.sboms.find? fun s => s.sha256 == env.sha256 c.raw with
    | some s => exact h
    | none =>
      simp only
      cases hauto : extractServiceName c.raw with
      | error e =>
        rw [storeNew, hauto]
        trivial
      | ok autoService => exact storeNew_rows h hauto

end Alone

end ArgusSbomGuard
