import ArgusSbomGuard.Models.Schema

/-!
# The database and its statements

`Database` is the content of the tables together with the foreign keys of the initial
migration, so a row that refers to a missing row cannot be stored.  The statements below check
the constraints the way the database does: a violated unique or foreign key is an
`IntegrityError`, a value that does not fit its column a `DataError`, and the failed statement
has no effect.  All other modules change the database through these statements only.

Each statement that can fail has a lemma `..._eq_ok` that says what it did when it did not.
-/

namespace ArgusSbomGuard

/-- The contents of the tables. -/
structure Tables where
  projects : Table Project
  services : Table Service
  sboms : Table SBOM
  dependencies : Table Dependency
  vulnerabilities : Table Vulnerability
  links : Table SBOMVulnerability
  riskAcceptances : Table RiskAcceptance

/-- The tables with their foreign keys. -/
structure Database extends Tables where
  servicesProject : ∀ v ∈ services, ∃ p ∈ projects, p.id = v.projectId
  sbomsProject : ∀ s ∈ sboms, ∃ p ∈ projects, p.id = s.projectId
  sbomsService : ∀ s ∈ sboms, ∀ i ∈ s.serviceId, ∃ v ∈ services, v.id = i
  dependenciesSbom : ∀ d ∈ dependencies, ∃ s ∈ sboms, s.id = d.sbomId
  linksSbom : ∀ l ∈ links, ∃ s ∈ sboms, s.id = l.sbomId
  linksVulnerability : ∀ l ∈ links, ∃ v ∈ vulnerabilities, v.id = l.vulnerabilityId
  acceptancesProject : ∀ a ∈ riskAcceptances, ∃ p ∈ projects, p.id = a.projectId
  acceptancesService : ∀ a ∈ riskAcceptances, ∀ i ∈ a.serviceId, ∃ v ∈ services, v.id = i
  acceptancesVulnerability :
    ∀ a ∈ riskAcceptances, ∃ v ∈ vulnerabilities, v.id = a.vulnerabilityId

namespace Database

@[ext] theorem ext {a b : Database} (h : a.toTables = b.toTables) : a = b := by
  cases a; cases b; cases h; rfl

/-- The empty database. -/
def empty : Database where
  projects := .empty
  services := .empty
  sboms := .empty
  dependencies := .empty
  vulnerabilities := .empty
  links := .empty
  riskAcceptances := .empty
  servicesProject := fun _ h => absurd h (Table.not_mem_empty _)
  sbomsProject := fun _ h => absurd h (Table.not_mem_empty _)
  sbomsService := fun _ h => absurd h (Table.not_mem_empty _)
  dependenciesSbom := fun _ h => absurd h (Table.not_mem_empty _)
  linksSbom := fun _ h => absurd h (Table.not_mem_empty _)
  linksVulnerability := fun _ h => absurd h (Table.not_mem_empty _)
  acceptancesProject := fun _ h => absurd h (Table.not_mem_empty _)
  acceptancesService := fun _ h => absurd h (Table.not_mem_empty _)
  acceptancesVulnerability := fun _ h => absurd h (Table.not_mem_empty _)

variable (db : Database)

/-! ### Inserts -/

/-- `INSERT INTO t VALUES r` in a database that becomes `k t'` with the new table `t'`. -/
def insertRow {R : Type*} [UniqueKeys R] (t : Table R) (r : R)
    (k : (t' : Table R) → t.insert? r = some t' → Database) : Except PyError Database :=
  match h : t.insert? r with
  | none => .error .integrityError
  | some t' => .ok (k t' h)

def insertProject (p : Project) : Except PyError Database :=
  if !(fitsVarchar 255 p.name && fitsVarchar 255 p.slug) then .error .dataError
  else insertRow db.projects p fun t h => { db with
        projects := t
        servicesProject := fun v hv => Table.exists_mem_insert? h (db.servicesProject v hv)
        sbomsProject := fun s hs => Table.exists_mem_insert? h (db.sbomsProject s hs)
        acceptancesProject := fun a ha =>
          Table.exists_mem_insert? h (db.acceptancesProject a ha) }

def insertService (v : Service) : Except PyError Database :=
  if !fitsVarchar 255 v.name then .error .dataError
  else if hp : ∃ p ∈ db.projects, p.id = v.projectId then
    insertRow db.services v fun t h => { db with
        services := t
        servicesProject := Table.forall_mem_insert? h db.servicesProject hp
        sbomsService := fun s hs i hi =>
          Table.exists_mem_insert? h (db.sbomsService s hs i hi)
        acceptancesService := fun a ha i hi =>
          Table.exists_mem_insert? h (db.acceptancesService a ha i hi) }
  else .error .integrityError

/-- `version`, `sha256` and `dependency_count` are bounded, and the document goes to a JSON
column. -/
def insertSbom (s : SBOM) : Except PyError Database :=
  if !(s.version.all (fitsVarchar 255) && fitsVarchar 64 s.sha256 && s.rawSbom.storable &&
      s.dependencyCount.all fitsInteger) then
    .error .dataError
  else if hp : (∃ p ∈ db.projects, p.id = s.projectId) ∧
      ∀ i ∈ s.serviceId, ∃ v ∈ db.services, v.id = i then
    insertRow db.sboms s fun t h => { db with
        sboms := t
        sbomsProject := Table.forall_mem_insert? h db.sbomsProject hp.1
        sbomsService := Table.forall_mem_insert? h db.sbomsService hp.2
        dependenciesSbom := fun d hd => Table.exists_mem_insert? h (db.dependenciesSbom d hd)
        linksSbom := fun l hl => Table.exists_mem_insert? h (db.linksSbom l hl) }
  else .error .integrityError

def insertDependency (d : Dependency) : Except PyError Database :=
  if !d.extraData.storable then .error .dataError
  else if hs : ∃ s ∈ db.sboms, s.id = d.sbomId then
    insertRow db.dependencies d fun t h => { db with
        dependencies := t
        dependenciesSbom := Table.forall_mem_insert? h db.dependenciesSbom hs }
  else .error .integrityError

/-- Ids of vulnerabilities and package URLs have no space, so nothing is cut here: a text that is
too long for its column is refused, whatever it ends in. -/
def insertVulnerability (v : Vulnerability) : Except PyError Database :=
  if !(fitsVarchar 50 v.cveId && v.summary.all fitsText && v.extraData.storable) then
    .error .dataError
  else insertRow db.vulnerabilities v fun t h => { db with
        vulnerabilities := t
        linksVulnerability := fun l hl =>
          Table.exists_mem_insert? h (db.linksVulnerability l hl)
        acceptancesVulnerability := fun a ha =>
          Table.exists_mem_insert? h (db.acceptancesVulnerability a ha) }

def insertLink (l : SBOMVulnerability) : Except PyError Database :=
  if !fitsVarchar 1024 l.dependencyPurl then .error .dataError
  -- both parents have to be there; a missing one is an `IntegrityError` like a duplicate
  else if hs : (∃ s ∈ db.sboms, s.id = l.sbomId) ∧
      ∃ v ∈ db.vulnerabilities, v.id = l.vulnerabilityId then
    insertRow db.links l fun t h => { db with
        links := t
        linksSbom := Table.forall_mem_insert? h db.linksSbom hs.1
        linksVulnerability := Table.forall_mem_insert? h db.linksVulnerability hs.2 }
  else .error .integrityError

def insertRiskAcceptance (a : RiskAcceptance) : Except PyError Database :=
  if !fitsText a.reason then .error .dataError
  else if hr : (∃ p ∈ db.projects, p.id = a.projectId) ∧
      (∀ i ∈ a.serviceId, ∃ v ∈ db.services, v.id = i) ∧
      ∃ v ∈ db.vulnerabilities, v.id = a.vulnerabilityId then
    insertRow db.riskAcceptances a fun t h => { db with
        riskAcceptances := t
        acceptancesProject := Table.forall_mem_insert? h db.acceptancesProject hr.1
        acceptancesService := Table.forall_mem_insert? h db.acceptancesService hr.2.1
        acceptancesVulnerability :=
          Table.forall_mem_insert? h db.acceptancesVulnerability hr.2.2 }
  else .error .integrityError

/-! ### Updates -/

/-- Update the row of a vulnerability with functions that leave `id` and `cve_id` alone. -/
def updateVulnerability (p : Vulnerability → Bool) (f : Vulnerability → Vulnerability)
    (hid : ∀ v, (f v).id = v.id) (hcve : ∀ v, (f v).cveId = v.cveId) : Database :=
  { db with
    vulnerabilities := db.vulnerabilities.updateWhere p f fun a b => by
      rw [clash_vulnerability_iff, clash_vulnerability_iff, hid, hcve]
    linksVulnerability := fun l hl =>
      Table.exists_mem_updateWhere (db.linksVulnerability l hl) fun v hv => (hid v).trans hv
    acceptancesVulnerability := fun a ha =>
      Table.exists_mem_updateWhere (db.acceptancesVulnerability a ha)
        fun v hv => (hid v).trans hv }

/-- `UPDATE projects SET name = ...`, which computes the slug again, of the row with the id of
`p`. -/
def updateProject (p : Project) : Except PyError Database :=
  if !(fitsVarchar 255 p.name && fitsVarchar 255 p.slug) then .error .dataError
  else match h : db.projects.replace? (fun q => q.id == p.id) p with
    | none => .error .integrityError
    | some t =>
      have hkept : ∀ i, (∃ q ∈ db.projects, q.id = i) → ∃ q ∈ t, q.id = i := fun _ hi =>
        Table.exists_mem_replace? h hi fun _ hq hid => (beq_iff_eq.1 hq).symm.trans hid
      .ok { db with
        projects := t
        servicesProject := fun v hv => hkept _ (db.servicesProject v hv)
        sbomsProject := fun s hs => hkept _ (db.sbomsProject s hs)
        acceptancesProject := fun a ha => hkept _ (db.acceptancesProject a ha) }

/-- Update links with a function that leaves the primary key alone. -/
def updateLinks (p : SBOMVulnerability → Bool) (f : SBOMVulnerability → SBOMVulnerability)
    (hf : ∀ l, (f l).key = l.key) : Database :=
  { db with
    links := db.links.updateWhere p f fun a b => by
      rw [clash_link_iff, clash_link_iff, hf]
    linksSbom := Table.forall_mem_updateWhere db.linksSbom fun l hl => by
      rwa [show (f l).sbomId = l.sbomId from congrArg (·.1) (hf l)]
    linksVulnerability := Table.forall_mem_updateWhere db.linksVulnerability fun l hl => by
      rwa [show (f l).vulnerabilityId = l.vulnerabilityId from congrArg (·.2.2) (hf l)] }

/-! ### Deletes -/

def deleteLinks (p : SBOMVulnerability → Bool) : Database :=
  { db with
    links := db.links.deleteWhere p
    linksSbom := Table.forall_mem_deleteWhere db.linksSbom
    linksVulnerability := Table.forall_mem_deleteWhere db.linksVulnerability }

def deleteDependencies (p : Dependency → Bool) : Database :=
  { db with
    dependencies := db.dependencies.deleteWhere p
    dependenciesSbom := Table.forall_mem_deleteWhere db.dependenciesSbom }

def deleteRiskAcceptances (p : RiskAcceptance → Bool) : Database :=
  { db with
    riskAcceptances := db.riskAcceptances.deleteWhere p
    acceptancesProject := Table.forall_mem_deleteWhere db.acceptancesProject
    acceptancesService := Table.forall_mem_deleteWhere db.acceptancesService
    acceptancesVulnerability := Table.forall_mem_deleteWhere db.acceptancesVulnerability }

/-- No `ON DELETE CASCADE`: a link or a dependency of a deleted SBOM stops the statement. -/
def deleteSboms (p : SBOM → Bool) : Except PyError Database :=
  if h : (∀ d ∈ db.dependencies, ∃ s ∈ db.sboms.deleteWhere p, s.id = d.sbomId) ∧
      ∀ l ∈ db.links, ∃ s ∈ db.sboms.deleteWhere p, s.id = l.sbomId then
    .ok { db with
      sboms := db.sboms.deleteWhere p
      sbomsProject := Table.forall_mem_deleteWhere db.sbomsProject
      sbomsService := Table.forall_mem_deleteWhere db.sbomsService
      dependenciesSbom := h.1
      linksSbom := h.2 }
  else .error .integrityError

/-- The acceptances of a deleted service go with it (`ON DELETE CASCADE`). -/
def deleteServices (p : Service → Bool) : Except PyError Database :=
  -- `sboms.service_id` does not cascade
  if h : ∀ s ∈ db.sboms, ∀ i ∈ s.serviceId, ∃ v ∈ db.services.deleteWhere p, v.id = i then
    .ok { db with
      services := db.services.deleteWhere p
      riskAcceptances := db.riskAcceptances.deleteWhere fun a =>
        !decide (∀ i ∈ a.serviceId, ∃ v ∈ db.services.deleteWhere p, v.id = i)
      servicesProject := Table.forall_mem_deleteWhere db.servicesProject
      sbomsService := h
      acceptancesProject := Table.forall_mem_deleteWhere db.acceptancesProject
      acceptancesService := fun a ha => by simpa using (Table.mem_deleteWhere.1 ha).2
      acceptancesVulnerability := Table.forall_mem_deleteWhere db.acceptancesVulnerability }
  else .error .integrityError

/-- The acceptances of a deleted project go with it (`ON DELETE CASCADE`). -/
def deleteProjects (p : Project → Bool) : Except PyError Database :=
  if h : (∀ v ∈ db.services, ∃ q ∈ db.projects.deleteWhere p, q.id = v.projectId) ∧
      ∀ s ∈ db.sboms, ∃ q ∈ db.projects.deleteWhere p, q.id = s.projectId then
    .ok { db with
      projects := db.projects.deleteWhere p
      riskAcceptances := db.riskAcceptances.deleteWhere fun a =>
        !decide (∃ q ∈ db.projects.deleteWhere p, q.id = a.projectId)
      servicesProject := h.1
      sbomsProject := h.2
      acceptancesProject := fun a ha => by simpa using (Table.mem_deleteWhere.1 ha).2
      acceptancesService := Table.forall_mem_deleteWhere db.acceptancesService
      acceptancesVulnerability := Table.forall_mem_deleteWhere db.acceptancesVulnerability }
  else .error .integrityError

/-! ### What a statement that succeeded did -/

variable {db} {db' : Database}

theorem insertRow_eq_ok {R : Type*} [UniqueKeys R] {t : Table R} {r : R}
    {k : (t' : Table R) → t.insert? r = some t' → Database} (h : insertRow t r k = .ok db') :
    ∃ t', ∃ ht : t.insert? r = some t', k t' ht = db' := by
  unfold insertRow at h
  split at h
  · cases h
  · rename_i t' ht; exact ⟨t', ht, Except.ok.inj h⟩

theorem insertRow_error {R : Type*} [UniqueKeys R] {t : Table R} {r : R} {e : PyError}
    {k : (t' : Table R) → t.insert? r = some t' → Database} (h : insertRow t r k = .error e) :
    e = .integrityError := by
  unfold insertRow at h
  split at h
  · exact (Except.error.inj h).symm
  · cases h

theorem insertRow_eq_error {R : Type*} [UniqueKeys R] {t : Table R} {r : R} {e : PyError}
    {k : (t' : Table R) → t.insert? r = some t' → Database} (h : insertRow t r k = .error e) :
    ∃ a ∈ t, Clash a r := by
  unfold insertRow at h
  split at h
  · rename_i hnone; exact Table.insert?_eq_none.1 hnone
  · cases h

/-- A row is inserted when it clashes with none. -/
theorem insertRow_isOk {R : Type*} [UniqueKeys R] {t : Table R} {r : R}
    {k : (t' : Table R) → t.insert? r = some t' → Database} :
    (∃ db', insertRow t r k = .ok db') ↔ ∀ a ∈ t, ¬ Clash a r := by
  constructor
  · rintro ⟨db', h⟩ a ha hclash
    obtain ⟨t', ht, -⟩ := insertRow_eq_ok h
    rw [Table.insert?_eq_none.2 ⟨a, ha, hclash⟩] at ht
    cases ht
  · intro hfree
    cases h : insertRow t r k with
    | ok db' => exact ⟨db', rfl⟩
    | error e =>
      obtain ⟨a, ha, hclash⟩ := insertRow_eq_error h
      exact absurd hclash (hfree a ha)

theorem insertService_isOk {v : Service} : (∃ db', db.insertService v = .ok db') ↔
    fitsVarchar 255 v.name = true ∧ (∃ p ∈ db.projects, p.id = v.projectId) ∧
      ∀ a ∈ db.services, ¬ Clash a v := by
  unfold insertService
  by_cases hname : fitsVarchar 255 v.name = true
  · by_cases hp : ∃ p ∈ db.projects, p.id = v.projectId
    · rw [hname, dif_pos hp]
      exact insertRow_isOk.trans ⟨fun h => ⟨rfl, hp, h⟩, fun h => h.2.2⟩
    · rw [hname, dif_neg hp]
      exact ⟨fun ⟨_, h⟩ => (nomatch h), fun h => absurd h.2.1 hp⟩
  · rw [Bool.not_eq_true] at hname
    rw [hname]
    exact ⟨fun ⟨_, h⟩ => (nomatch h), fun h => (nomatch h.1)⟩

theorem insertSbom_isOk {s : SBOM} : (∃ db', db.insertSbom s = .ok db') ↔
    (s.version.all (fitsVarchar 255) = true ∧ fitsVarchar 64 s.sha256 = true ∧
      s.rawSbom.storable = true ∧ s.dependencyCount.all fitsInteger = true) ∧
    ((∃ p ∈ db.projects, p.id = s.projectId) ∧
      ∀ i ∈ s.serviceId, ∃ v ∈ db.services, v.id = i) ∧
    ∀ a ∈ db.sboms, ¬ Clash a s := by
  have hfit : (s.version.all (fitsVarchar 255) && fitsVarchar 64 s.sha256 &&
      s.rawSbom.storable && s.dependencyCount.all fitsInteger) = true ↔
      s.version.all (fitsVarchar 255) = true ∧ fitsVarchar 64 s.sha256 = true ∧
        s.rawSbom.storable = true ∧ s.dependencyCount.all fitsInteger = true := by
    simp only [Bool.and_eq_true, and_assoc]
  rw [← hfit]
  unfold insertSbom
  split_ifs with hn hp
  · rw [Bool.not_eq_true'] at hn
    rw [hn]
    exact ⟨fun ⟨_, h⟩ => (nomatch h), fun h => (nomatch h.1)⟩
  · rw [Bool.not_eq_true', Bool.not_eq_false] at hn
    exact insertRow_isOk.trans ⟨fun h => ⟨hn, hp, h⟩, fun h => h.2.2⟩
  · exact ⟨fun ⟨_, h⟩ => (nomatch h), fun h => absurd h.2.1 hp⟩

theorem insertDependency_isOk {d : Dependency} : (∃ db', db.insertDependency d = .ok db') ↔
    d.extraData.storable = true ∧ ∃ s ∈ db.sboms, s.id = d.sbomId := by
  unfold insertDependency
  by_cases hextra : d.extraData.storable = true
  · by_cases hs : ∃ s ∈ db.sboms, s.id = d.sbomId
    · rw [hextra, dif_pos hs]
      exact insertRow_isOk.trans ⟨fun _ => ⟨rfl, hs⟩, fun _ _ _ hclash => hclash⟩
    · rw [hextra, dif_neg hs]
      exact ⟨fun ⟨_, h⟩ => (nomatch h), fun h => absurd h.2 hs⟩
  · rw [Bool.not_eq_true] at hextra
    rw [hextra]
    exact ⟨fun ⟨_, h⟩ => (nomatch h), fun h => (nomatch h.1)⟩

theorem insertProject_eq_ok {p : Project} (h : db.insertProject p = .ok db') :
    ∃ t, db.projects.insert? p = some t ∧ db'.toTables = { db.toTables with projects := t } := by
  unfold insertProject at h
  split_ifs at h
  obtain ⟨t, ht, rfl⟩ := insertRow_eq_ok h
  exact ⟨t, ht, rfl⟩

/-- The name and the slug of a stored project fit their columns. -/
theorem insertProject_fits {p : Project} (h : db.insertProject p = .ok db') :
    fitsVarchar 255 p.name = true ∧ fitsVarchar 255 p.slug = true := by
  unfold insertProject at h
  split_ifs at h with hfits
  simpa using hfits

theorem updateProject_eq_ok {p : Project} (h : db.updateProject p = .ok db') :
    (fitsVarchar 255 p.name = true ∧ fitsVarchar 255 p.slug = true) ∧
      ∃ t, db.projects.replace? (fun q => q.id == p.id) p = some t ∧
        db'.toTables = { db.toTables with projects := t } := by
  unfold updateProject at h
  split_ifs at h with hfits
  refine ⟨by simpa using hfits, ?_⟩
  split at h
  · cases h
  · rename_i t ht
    obtain rfl := Except.ok.inj h
    exact ⟨t, ht, rfl⟩

/-- A project whose name and slug fit their columns can only violate a key. -/
theorem insertProject_error {p : Project} {e : PyError} (hname : fitsVarchar 255 p.name = true)
    (hslug : fitsVarchar 255 p.slug = true) (h : db.insertProject p = .error e) :
    e = .integrityError := by
  rw [insertProject, hname, hslug] at h
  exact insertRow_error h

theorem updateProject_error {p : Project} {e : PyError} (hname : fitsVarchar 255 p.name = true)
    (hslug : fitsVarchar 255 p.slug = true) (h : db.updateProject p = .error e) :
    e = .integrityError := by
  rw [updateProject, hname, hslug, Bool.and_self, Bool.not_true, if_neg Bool.false_ne_true] at h
  split at h
  · exact (Except.error.inj h).symm
  · cases h

theorem insertService_eq_ok {v : Service} (h : db.insertService v = .ok db') :
    ∃ t, db.services.insert? v = some t ∧ db'.toTables = { db.toTables with services := t } := by
  unfold insertService at h
  split_ifs at h
  obtain ⟨t, ht, rfl⟩ := insertRow_eq_ok h
  exact ⟨t, ht, rfl⟩

theorem insertSbom_eq_ok {s : SBOM} (h : db.insertSbom s = .ok db') :
    ∃ t, db.sboms.insert? s = some t ∧ db'.toTables = { db.toTables with sboms := t } := by
  unfold insertSbom at h
  split_ifs at h
  obtain ⟨t, ht, rfl⟩ := insertRow_eq_ok h
  exact ⟨t, ht, rfl⟩

theorem insertDependency_eq_ok {d : Dependency} (h : db.insertDependency d = .ok db') :
    ∃ t, db.dependencies.insert? d = some t ∧
      db'.toTables = { db.toTables with dependencies := t } := by
  unfold insertDependency at h
  split_ifs at h
  obtain ⟨t, ht, rfl⟩ := insertRow_eq_ok h
  exact ⟨t, ht, rfl⟩

theorem insertVulnerability_eq_ok {v : Vulnerability}
    (h : db.insertVulnerability v = .ok db') :
    ∃ t, db.vulnerabilities.insert? v = some t ∧
      db'.toTables = { db.toTables with vulnerabilities := t } := by
  unfold insertVulnerability at h
  split_ifs at h
  obtain ⟨t, ht, rfl⟩ := insertRow_eq_ok h
  exact ⟨t, ht, rfl⟩

theorem insertLink_eq_ok {l : SBOMVulnerability} (h : db.insertLink l = .ok db') :
    (∃ s ∈ db.sboms, s.id = l.sbomId) ∧
      ∃ t, db.links.insert? l = some t ∧ db'.toTables = { db.toTables with links := t } := by
  unfold insertLink at h
  split_ifs at h with _ hfk
  obtain ⟨t, ht, rfl⟩ := insertRow_eq_ok h
  exact ⟨hfk.1, t, ht, rfl⟩

/-- An integrity error of a link insert: a missing parent, or the link is there already. -/
theorem insertLink_integrityError {l : SBOMVulnerability}
    (h : db.insertLink l = .error .integrityError) :
    (¬ ∃ s ∈ db.sboms, s.id = l.sbomId) ∨
      (¬ ∃ v ∈ db.vulnerabilities, v.id = l.vulnerabilityId) ∨
      ∃ a ∈ db.links, a.key = l.key := by
  unfold insertLink at h
  split_ifs at h with hfit hfk
  · cases h
  · exact .inr (.inr (insertRow_eq_error h))
  · by_cases hs : ∃ s ∈ db.sboms, s.id = l.sbomId
    · exact .inr (.inl fun hv => hfk ⟨hs, hv⟩)
    · exact .inl hs

theorem insertRiskAcceptance_eq_ok {a : RiskAcceptance}
    (h : db.insertRiskAcceptance a = .ok db') :
    ∃ t, db.riskAcceptances.insert? a = some t ∧
      db'.toTables = { db.toTables with riskAcceptances := t } := by
  unfold insertRiskAcceptance at h
  split_ifs at h
  obtain ⟨t, ht, rfl⟩ := insertRow_eq_ok h
  exact ⟨t, ht, rfl⟩

theorem mem_updateLinks {p : SBOMVulnerability → Bool}
    {f : SBOMVulnerability → SBOMVulnerability} (hf : ∀ l, (f l).key = l.key)
    {l : SBOMVulnerability} :
    l ∈ (db.updateLinks p f hf).links ↔ ∃ a ∈ db.links, (if p a then f a else a) = l :=
  List.mem_map

theorem deleteSboms_eq_ok {p : SBOM → Bool} (h : db.deleteSboms p = .ok db') :
    db'.toTables = { db.toTables with sboms := db.sboms.deleteWhere p } := by
  unfold deleteSboms at h
  split_ifs at h
  cases h; rfl

/-- Deleting SBOMs succeeds once their links and dependencies are gone. -/
theorem deleteSboms_succeeds {p : SBOM → Bool}
    (hd : ∀ d ∈ db.dependencies, ∀ s ∈ db.sboms, s.id = d.sbomId → p s = false)
    (hl : ∀ l ∈ db.links, ∀ s ∈ db.sboms, s.id = l.sbomId → p s = false) :
    ∃ db', db.deleteSboms p = .ok db' := by
  unfold deleteSboms
  rw [dif_pos]
  · exact ⟨_, rfl⟩
  · refine ⟨fun d hdm => ?_, fun l hlm => ?_⟩
    · obtain ⟨s, hs, hid⟩ := db.dependenciesSbom d hdm
      exact ⟨s, Table.mem_deleteWhere.2 ⟨hs, hd d hdm s hs hid⟩, hid⟩
    · obtain ⟨s, hs, hid⟩ := db.linksSbom l hlm
      exact ⟨s, Table.mem_deleteWhere.2 ⟨hs, hl l hlm s hs hid⟩, hid⟩

theorem deleteServices_eq_ok {p : Service → Bool} (h : db.deleteServices p = .ok db') :
    ∃ ra, db'.toTables =
      { db.toTables with services := db.services.deleteWhere p, riskAcceptances := ra } := by
  unfold deleteServices at h
  split_ifs at h
  cases h; exact ⟨_, rfl⟩

theorem deleteProjects_eq_ok {p : Project → Bool} (h : db.deleteProjects p = .ok db') :
    ∃ ra, db'.toTables =
      { db.toTables with projects := db.projects.deleteWhere p, riskAcceptances := ra } := by
  unfold deleteProjects at h
  split_ifs at h
  cases h; exact ⟨_, rfl⟩

end Database

end ArgusSbomGuard
