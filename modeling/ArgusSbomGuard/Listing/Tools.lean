import ArgusSbomGuard.Listing.SbomDetail
import ArgusSbomGuard.Listing.Windows
import ArgusSbomGuard.Relational.Growing

/-!
# The tools that list services, SBOMs and acceptances

`list_services`, `list_sboms` and `list_risk_acceptances` of the MCP server.  They differ in what
they select; the window of rows, one row more to look ahead and the envelope are the same
(`pageOf`).  In all three orders no two rows are tied, by the identifier at the end of the order or
by the name of a service, which is its only one in the project (`ListsRows`).

## Main definitions

* `pageOf` : the page of a tool.
* `listServices`, `listSboms`, `listRiskAcceptances` : the tools.
* `ListsRows` : the pages of a tool are windows of its rows.
-/

namespace ArgusSbomGuard

/-- `ServiceItem`. -/
structure ServiceItem where
  id : Uuid
  projectId : Uuid
  name : String
  deriving DecidableEq

/-- `SbomItem`. -/
structure SbomItem where
  id : Uuid
  projectId : Uuid
  projectName : String
  serviceId : Option Uuid
  serviceName : Option String
  version : Option String
  format : Option String
  sha256 : String
  dependencyCount : Option ℕ
  uploadedAt : DateTime
  deriving DecidableEq

/-- `RiskAcceptanceItem`. -/
structure RiskAcceptanceItem where
  id : Uuid
  projectId : Uuid
  projectName : String
  serviceId : Option Uuid
  serviceName : Option String
  vulnerabilityId : Uuid
  cveId : String
  reason : String
  createdAt : DateTime
  deriving DecidableEq

/-- The page of a tool: the rows of the window, one more that is not shown, and the envelope. -/
def pageOf {α β κ : Type} [LinearOrder κ] (key : α → κ) (item : α → β) (rows : List α)
    (offset limit : ℤ) : Except McpError (McpPage β) := do
  let start ← (offsetParam offset).mapError .unhandled
  let fetched := window start (limit.toNat + 1)
    ((TieOrder.ofArrangement key (storedOrder α)).order rows)
  return pageFields ((fetched.take limit.toNat).map item) rows.length offset limit

variable (db : Database)

/-- `Project.name`, joined. -/
def projectNames (projectId : Uuid) : List String :=
  (db.projects.rows.filter fun p => p.id == projectId).map (·.name)

/-- `Service.name`, outer-joined. -/
def serviceName (serviceId : Option Uuid) : Option String :=
  (serviceId.bind fun i => db.services.find? fun v => v.id == i).map (·.name)

/-! ### `list_services` -/

/-- The services of a project. -/
def listedServices (projectId : Uuid) : List Service :=
  db.services.rows.filter fun v => v.projectId == projectId

def serviceItem (v : Service) : ServiceItem := ⟨v.id, v.projectId, v.name⟩

/-- `list_services`, with the names in the order of a collation. -/
def listServices {κ : Type} [LinearOrder κ] (collate : String → κ) (env : Env) (projectId : String)
    (offset limit : ℤ) : Except McpError (McpPage ServiceItem) := do
  validatePage offset limit
  let projectUuid ← uuidOrError env projectId "project_id"
  match db.projects.find? fun p => p.id == projectUuid with
  | none => .error (.toolError "Project not found")
  | some _ =>
    pageOf (fun v => collate v.name) serviceItem (listedServices db projectUuid) offset limit

/-! ### `list_sboms` -/

/-- A row of the query of `list_sboms`: the SBOM, its project's name and its service's name. -/
abbrev SbomRow := SBOM × String × Option String

/-- The SBOMs with the names of their projects and services. -/
def listedSboms (projectId serviceId : Option Uuid) : List SbomRow :=
  (db.sboms.rows.filter fun s => projectId.all (fun i => s.projectId == i) &&
    serviceId.all fun i => s.serviceId == some i).flatMap fun s =>
      (projectNames db s.projectId).map fun name => (s, name, serviceName db s.serviceId)

/-- `SBOM.uploaded_at.desc(), SBOM.id`. -/
def sbomKey (r : SbomRow) : DateTime ×ₗ ℕ := toLex (-r.1.uploadedAt, r.1.id)

def sbomItem : SbomRow → SbomItem
  | (s, projectName, serviceName) => ⟨s.id, s.projectId, projectName, s.serviceId, serviceName,
      s.version, s.format.map (·.value), s.sha256, s.dependencyCount, s.uploadedAt⟩

/-- `list_sboms`. -/
def listSboms (env : Env) (projectId serviceId : Option String) (offset limit : ℤ) :
    Except McpError (McpPage SbomItem) := do
  validatePage offset limit
  let projectUuid ← projectId.mapM fun value => uuidOrError env value "project_id"
  let serviceUuid ← serviceId.mapM fun value => uuidOrError env value "service_id"
  pageOf sbomKey sbomItem (listedSboms db projectUuid serviceUuid) offset limit

/-! ### `list_risk_acceptances` -/

/-- A row of the query: the acceptance, the CVE and the names of the project and the service. -/
abbrev AcceptanceRow := RiskAcceptance × String × String × Option String

/-- The acceptances with what they are about. -/
def listedAcceptances (projectId : Option Uuid) : List AcceptanceRow :=
  (db.riskAcceptances.rows.filter fun a => projectId.all fun i => a.projectId == i).flatMap fun a =>
    ((db.vulnerabilities.rows.filter fun v => v.id == a.vulnerabilityId).map (·.cveId)).flatMap
      fun cveId => (projectNames db a.projectId).map fun name =>
        (a, cveId, name, serviceName db a.serviceId)

/-- `RiskAcceptance.created_at.desc(), RiskAcceptance.id`. -/
def acceptanceKey (r : AcceptanceRow) : DateTime ×ₗ ℕ := toLex (-r.1.createdAt, r.1.id)

def riskAcceptanceItem : AcceptanceRow → RiskAcceptanceItem
  | (a, cveId, projectName, serviceName) => ⟨a.id, a.projectId, projectName, a.serviceId,
      serviceName, a.vulnerabilityId, cveId, a.reason, a.createdAt⟩

/-- `list_risk_acceptances`. -/
def listRiskAcceptances (env : Env) (projectId : Option String) (offset limit : ℤ) :
    Except McpError (McpPage RiskAcceptanceItem) := do
  validatePage offset limit
  let projectUuid ← projectId.mapM fun value => uuidOrError env value "project_id"
  pageOf acceptanceKey riskAcceptanceItem (listedAcceptances db projectUuid) offset limit

/-! ### The rows -/

variable {db} {env : Env} {projectId serviceId : Option Uuid} {p : Uuid}

theorem mem_projectNames {name : String} :
    name ∈ projectNames db p ↔ ∃ q ∈ db.projects, q.id = p ∧ q.name = name := by
  simp only [projectNames, List.mem_map, List.mem_filter, beq_iff_eq, Table.mem_rows, and_assoc]

theorem mem_listedServices {v : Service} :
    v ∈ listedServices db p ↔ v ∈ db.services ∧ v.projectId = p := by
  simp only [listedServices, List.mem_filter, beq_iff_eq, Table.mem_rows]

theorem mem_listedSboms {r : SbomRow} : r ∈ listedSboms db projectId serviceId ↔
    (r.1 ∈ db.sboms ∧ (∀ i ∈ projectId, r.1.projectId = i) ∧
      ∀ i ∈ serviceId, r.1.serviceId = some i) ∧
    r.2.1 ∈ projectNames db r.1.projectId ∧ r.2.2 = serviceName db r.1.serviceId := by
  obtain ⟨s, name, service⟩ := r
  simp only [listedSboms, List.mem_flatMap, List.mem_map, List.mem_filter, Bool.and_eq_true,
    Option.all_eq_true, beq_iff_eq, Table.mem_rows, Prod.mk.injEq, Option.mem_def]
  constructor
  · rintro ⟨s, hs, name, hname, rfl, rfl, rfl⟩
    exact ⟨hs, hname, rfl⟩
  · rintro ⟨hs, hname, rfl⟩
    exact ⟨s, hs, name, hname, rfl, rfl, rfl⟩

theorem mem_listedAcceptances {r : AcceptanceRow} : r ∈ listedAcceptances db projectId ↔
    (r.1 ∈ db.riskAcceptances ∧ ∀ i ∈ projectId, r.1.projectId = i) ∧
    db.HasCve r.1.vulnerabilityId r.2.1 ∧ r.2.2.1 ∈ projectNames db r.1.projectId ∧
    r.2.2.2 = serviceName db r.1.serviceId := by
  obtain ⟨a, cve, name, service⟩ := r
  simp only [listedAcceptances, List.mem_flatMap, List.mem_map, List.mem_filter, Option.all_eq_true,
    beq_iff_eq, Table.mem_rows, Prod.mk.injEq, Option.mem_def, Database.HasCve]
  constructor
  · rintro ⟨a, ha, cve, ⟨v, ⟨hv, hid⟩, hcve⟩, name, hname, rfl, rfl, rfl, rfl⟩
    exact ⟨ha, ⟨v, hv, hid, hcve⟩, hname, rfl⟩
  · rintro ⟨ha, ⟨v, hv, hid, hcve⟩, hname, rfl⟩
    exact ⟨a, ha, cve, ⟨v, ⟨hv, hid⟩, hcve⟩, name, hname, rfl, rfl, rfl, rfl⟩

/-! ### The pages -/

/-- A page is the window of the rows in their only order. -/
theorem pageOf_eq_ok {α β κ : Type} [LinearOrder κ] {key : α → κ} {item : α → β} {rows : List α}
    {offset limit : ℤ} {page : McpPage β} (h : pageOf key item rows offset limit = .ok page) :
    page = pageFields ((window offset.toNat limit.toNat
      ((TieOrder.ofArrangement key (storedOrder α)).order rows)).map item) rows.length offset
        limit := by
  obtain ⟨start, hstart, h⟩ := bind_eq_ok.1 h
  obtain rfl : start = offset.toNat := by
    have hok := mapError_eq_ok hstart
    unfold offsetParam at hok
    split_ifs at hok
    exact (Except.ok.inj hok).symm
  rw [← Except.ok.inj h]
  simp only [window, List.take_take, Nat.min_eq_left (Nat.le_succ _)]

/-- The pages of a tool are windows of its rows, of which no two are tied and all have items of
their own. -/
structure ListsRows {α β κ : Type} [LinearOrder κ] (tool : Database → ℤ → ℤ →
    Except McpError (McpPage β)) (rows : Database → List α) (key : α → κ) (item : α → β) :
    Prop where
  nodup : ∀ db, ((rows db).map item).Nodup
  determines : ∀ db, Determines key (rows db)
  page : ∀ {db offset limit page}, tool db offset limit = .ok page →
    0 ≤ offset ∧ 1 ≤ limit ∧ pageOf key item (rows db) offset limit = .ok page

/-- A row that is found by a unique key is the only one. -/
theorem filter_eq_singleton {R : Type} [UniqueKeys R] {t : Table R} {q : R → Bool} {r : R}
    (hr : r ∈ t) (hq : q r = true) (hkey : ∀ a, q a = true → Clash a r) :
    t.rows.filter q = [r] := by
  have hnodup : (t.rows.filter q).Nodup := by
    refine (t.unique.filter q).imp_of_mem fun {a b} ha hb hclash heq => hclash ?_
    obtain ⟨ha, hqa⟩ := List.mem_filter.1 ha
    have har : a = r := Table.eq_of_clash ha hr (hkey a hqa)
    exact heq ▸ har ▸ hkey r hq
  refine List.perm_singleton.1 ((List.perm_ext_iff_of_nodup hnodup (List.nodup_singleton r)).2 ?_)
  intro a
  rw [List.mem_filter, List.mem_singleton]
  constructor
  · rintro ⟨ha, hqa⟩
    exact Table.eq_of_clash ha hr (hkey a hqa)
  · rintro rfl
    exact ⟨hr, hq⟩

/-- The project is there, once. -/
theorem exists_projectNames (h : ∃ q ∈ db.projects, q.id = p) :
    ∃ name, projectNames db p = [name] := by
  obtain ⟨q, hq, rfl⟩ := h
  have hone : (db.projects.rows.filter fun p => p.id == q.id) = [q] :=
    filter_eq_singleton hq (beq_self_eq_true _) fun a ha => .inl (beq_iff_eq.1 ha)
  exact ⟨q.name, congrArg (List.map Project.name) hone⟩

/-- A join with one row for each keeps the rows. -/
theorem map_flatMap_of_single {α β : Type} {l : List α} {f : α → List β} {g : β → α}
    (h : ∀ a ∈ l, ∃ b, f a = [b] ∧ g b = a) : (l.flatMap f).map g = l := by
  rw [List.map_flatMap]
  refine (List.flatMap_congr fun a ha => ?_).trans (List.flatMap_singleton' l)
  obtain ⟨b, hf, hg⟩ := h a ha
  rw [hf, List.map_singleton, hg]

/-- Rows with identifiers of their own. -/
theorem nodup_ids {R : Type} [UniqueKeys R] (t : Table R) (q : R → Bool) {ident : R → Uuid}
    (hkey : ∀ a b : R, ident a = ident b → Clash a b) :
    ((t.rows.filter q).map ident).Nodup := by
  rw [List.Nodup, List.pairwise_map]
  exact (t.unique.filter q).imp fun {a b} hclash heq => hclash (hkey a b heq)

/-- The join with the project leaves one row for each SBOM. -/
theorem nodup_listedSboms : ((listedSboms db projectId serviceId).map fun r => r.1.id).Nodup := by
  have hfst : (listedSboms db projectId serviceId).map Prod.fst = db.sboms.rows.filter fun s =>
      projectId.all (fun i => s.projectId == i) &&
        serviceId.all fun i => s.serviceId == some i := by
    refine map_flatMap_of_single fun s hs => ?_
    obtain ⟨name, hname⟩ := exists_projectNames (db.sbomsProject s (List.mem_filter.1 hs).1)
    exact ⟨(s, name, serviceName db s.serviceId), by rw [hname, List.map_singleton], rfl⟩
  have hids : (((listedSboms db projectId serviceId).map Prod.fst).map SBOM.id).Nodup :=
    hfst ▸ nodup_ids db.sboms _ fun a b h => .inl h
  rwa [List.map_map] at hids

/-- So do the joins with the vulnerability and the project for each acceptance. -/
theorem nodup_listedAcceptances :
    ((listedAcceptances db projectId).map fun r => r.1.id).Nodup := by
  have hfst : (listedAcceptances db projectId).map Prod.fst =
      db.riskAcceptances.rows.filter fun a => projectId.all fun i => a.projectId == i := by
    refine map_flatMap_of_single fun a ha => ?_
    have hrow : a ∈ db.riskAcceptances := (List.mem_filter.1 ha).1
    obtain ⟨name, hname⟩ := exists_projectNames (db.acceptancesProject a hrow)
    obtain ⟨v, hv, hid⟩ := db.acceptancesVulnerability a hrow
    have hone : (db.vulnerabilities.rows.filter fun v => v.id == a.vulnerabilityId) = [v] :=
      filter_eq_singleton hv (beq_iff_eq.2 hid) fun b hb => .inl ((beq_iff_eq.1 hb).trans hid.symm)
    refine ⟨(a, v.cveId, name, serviceName db a.serviceId), ?_, rfl⟩
    rw [hone, List.map_singleton, List.flatMap_singleton, hname, List.map_singleton]
  have hids : (((listedAcceptances db projectId).map Prod.fst).map RiskAcceptance.id).Nodup :=
    hfst ▸ nodup_ids db.riskAcceptances _ fun a b h => .inl h
  rwa [List.map_map] at hids

/-! ### The three tools -/

theorem listServices_listsRows {κ : Type} [LinearOrder κ] {collate : String → κ}
    (hcollate : Function.Injective collate) (projectId : String) :
    ListsRows (fun db => listServices db collate env projectId)
      (fun db => (env.parseUuid projectId).elim [] (listedServices db)) (fun v => collate v.name)
      serviceItem where
  nodup db := by
    cases env.parseUuid projectId with
    | none => exact List.nodup_nil
    | some i =>
      refine List.Nodup.of_map ServiceItem.id ?_
      rw [List.map_map]
      exact nodup_ids db.services _ fun a b h => .inl h
  determines db := by
    cases env.parseUuid projectId with
    | none => exact fun a ha => absurd ha List.not_mem_nil
    | some i =>
      intro a ha b hb hname
      obtain ⟨ha, hai⟩ := mem_listedServices.1 ha
      obtain ⟨hb, hbi⟩ := mem_listedServices.1 hb
      exact Table.eq_of_clash ha hb (.inr ⟨hai.trans hbi.symm, hcollate hname⟩)
  page h := by
    obtain ⟨u, hvalid, h⟩ := bind_eq_ok.1 h
    obtain ⟨i, hi, h⟩ := bind_eq_ok.1 h
    obtain ⟨hoffset, hlimit, -⟩ := validatePage_eq_ok.1 hvalid
    refine ⟨hoffset, hlimit, ?_⟩
    rw [uuidOrError_eq_ok hi]
    split at h
    · cases h
    · exact h

theorem listSboms_listsRows (projectId serviceId : Option String) :
    ListsRows (fun db => listSboms db env projectId serviceId)
      (fun db => listedSboms db (projectId.bind env.parseUuid) (serviceId.bind env.parseUuid))
      sbomKey sbomItem where
  nodup db := by
    refine List.Nodup.of_map SbomItem.id ?_
    rw [List.map_map]
    exact nodup_listedSboms
  determines db a ha b hb hkey :=
    List.inj_on_of_nodup_map nodup_listedSboms ha hb (congrArg (fun k => (ofLex k).2) hkey)
  page h := by
    obtain ⟨u, hvalid, h⟩ := bind_eq_ok.1 h
    obtain ⟨i, hi, h⟩ := bind_eq_ok.1 h
    obtain ⟨j, hj, h⟩ := bind_eq_ok.1 h
    obtain ⟨hoffset, hlimit, -⟩ := validatePage_eq_ok.1 hvalid
    refine ⟨hoffset, hlimit, ?_⟩
    rw [← mapM_uuidOrError_eq_ok hi, ← mapM_uuidOrError_eq_ok hj]
    exact h

theorem listRiskAcceptances_listsRows (projectId : Option String) :
    ListsRows (fun db => listRiskAcceptances db env projectId)
      (fun db => listedAcceptances db (projectId.bind env.parseUuid)) acceptanceKey
      riskAcceptanceItem where
  nodup db := by
    refine List.Nodup.of_map RiskAcceptanceItem.id ?_
    rw [List.map_map]
    exact nodup_listedAcceptances
  determines db a ha b hb hkey :=
    List.inj_on_of_nodup_map nodup_listedAcceptances ha hb (congrArg (fun k => (ofLex k).2) hkey)
  page h := by
    obtain ⟨u, hvalid, h⟩ := bind_eq_ok.1 h
    obtain ⟨i, hi, h⟩ := bind_eq_ok.1 h
    obtain ⟨hoffset, hlimit, -⟩ := validatePage_eq_ok.1 hvalid
    refine ⟨hoffset, hlimit, ?_⟩
    rw [← mapM_uuidOrError_eq_ok hi]
    exact h

end ArgusSbomGuard
