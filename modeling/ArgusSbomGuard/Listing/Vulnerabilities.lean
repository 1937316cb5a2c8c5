import ArgusSbomGuard.Relational.Like
import ArgusSbomGuard.Listing.Pagination
import ArgusSbomGuard.Risk.Actionable
import ArgusSbomGuard.Models.Environment
import Mathlib.Algebra.Order.Ring.Rat

/-!
# The lists of open vulnerabilities

`build_vuln_subquery` and `apply_vuln_ordering` of `services/vulnerability_queries.py`, the route
`/vulnerabilities/active` and the tool `list_vulnerabilities`, which both start from these two.  The
tool orders by the identifier as well, the route does not.

The database compares identifiers, numbers, instants and texts; `NULLS LAST` and the place of `NaN`
above all numbers are part of the sort keys.

## Main definitions

* `VulnFilters`, `buildVulnSubquery` : which vulnerabilities a list is about.
* `applyVulnOrdering` : the sort key of a vulnerability.
* `activeVulnerabilities`, `listVulnerabilities` : the lists.
-/

namespace ArgusSbomGuard

/-- The filters of the lists. -/
structure VulnFilters where
  severity : Option String
  projectId : Option Uuid
  serviceId : Option Uuid
  cveId : Option String

/-- No filters. -/
def noFilters : VulnFilters := ⟨none, none, none, none⟩

/-- A filter that is missing or empty admits everything. -/
def textFilter (filter : Option String) (condition : String → Except PyError Bool) :
    Except PyError Bool :=
  match filter with
  | some text => if text = "" then .ok true else condition text
  | none => .ok true

/-- The conditions of the filters on a vulnerability with a link on an SBOM. -/
def VulnFilters.admits (lower : String → String) (filters : VulnFilters) (v : Vulnerability)
    (s : SBOM) : Except PyError Bool := do
  let severityMatches ← textFilter filters.severity fun severity =>
    match v.severity with
    | some value => ilike lower value.value (PyStr.stripNul severity)
    | none => .ok false
  if !severityMatches then return false
  let cveMatches ← textFilter filters.cveId fun cveId =>
    ilike lower v.cveId ("%" ++ PyStr.stripNul cveId ++ "%")
  if !cveMatches then return false
  return filters.projectId.all (fun i => s.projectId == i) &&
    filters.serviceId.all fun i => s.serviceId == some i

variable (db : Database) (lower : String → String)

/-- The vulnerabilities joined with their actionable links and the SBOMs of these. -/
def openVulnRows : List (Vulnerability × SBOM) :=
  (joinLinks db (actionable db)).flatMap fun ls =>
    (db.vulnerabilities.rows.filter fun v => v.id == ls.1.vulnerabilityId).map fun v => (v, ls.2)

/-- `build_vuln_subquery`. -/
def buildVulnSubquery (filters : VulnFilters) : Except PyError (List Uuid) := do
  let rows ← selectWhere (fun row => filters.admits lower row.1 row.2) (openVulnRows db)
  return (rows.map fun row => row.1.id).dedup

/-- `select(Vulnerability).where(Vulnerability.id.in_(...))`. -/
def selectVulnerabilities (filters : VulnFilters) : Except PyError (List Vulnerability) := do
  let ids ← buildVulnSubquery db lower filters
  return db.vulnerabilities.rows.filter fun v => v.id ∈ ids

/-! ### The order -/

/-- A value to sort by, ascending: a class of values and a number within the class. -/
abbrev SortKey := ℕ ×ₗ ℚ

/-- `column.asc().nullslast()` or `column.desc().nullslast()` of a float column. -/
def floatKey (desc : Bool) : Option PyFloat → SortKey
  | some (.finite q) => if desc then toLex (2, -q) else toLex (1, q)
  | some (.infinite false) => toLex (if desc then 1 else 2, 0)
  | some (.infinite true) => toLex (if desc then 3 else 0, 0)
  | some .nan => toLex (if desc then 0 else 3, 0)
  | none => toLex (4, 0)

/-- The same of an instant. -/
def instantKey (desc : Bool) : Option DateTime → SortKey
  | some t => toLex (0, if desc then -t else t)
  | none => toLex (1, 0)

/-- `severity_case`. -/
def severityCase : Option VulnerabilitySeverity → ℕ
  | some .CRITICAL => 0
  | some .HIGH => 1
  | some .MEDIUM => 2
  | some .LOW => 3
  | _ => 99

/-- The key of `apply_vuln_ordering`; every other order than `asc` is descending. -/
def applyVulnOrdering (sort order : String) (v : Vulnerability) : SortKey ×ₗ SortKey :=
  let desc := order != "asc"
  let first := match sort with
    | "severity" =>
      let rank := severityCase v.severity
      toLex (if desc then 99 - rank else rank, 0)
    | "epss_score" => floatKey desc v.epssScore
    | "published_at" => instantKey desc v.publishedAt
    | _ => floatKey desc v.cvssScore
  toLex (first, floatKey true v.cvssScore)

/-! ### The route -/

/-- The query parameters of `/vulnerabilities/active`. -/
structure ActiveQuery where
  page : ℕ
  perPage : ℕ
  filters : VulnFilters
  sort : String
  order : String
  onePage : 1 ≤ page
  onePerPage : 1 ≤ perPage
  perPageLe : perPage ≤ 200

/-- The first page is one. -/
theorem firstPage : 1 ≤ 1 :=
  le_rfl

structure VulnerabilityResponse where
  id : Uuid
  cveId : String
  severity : Option String
  cvssScore : Option PyFloat
  epssScore : Option PyFloat
  epssPercentile : Option PyFloat
  summary : Option String
  source : Option String
  publishedAt : Option DateTime
  projects : List String
  services : List String

structure PageResponse (α : Type) where
  items : List α
  total : ℕ
  page : ℕ
  perPage : ℕ
  totalPages : ℕ
  hasMore : Bool

/-- `sorted` of a set of the texts that are not empty. -/
def sortedSet (texts : List String) : List String :=
  (texts.filter fun text => text ≠ "").dedup.insertionSort fun a b => a ≤ b

/-- The actionable links of a vulnerability with their SBOMs. -/
def openLinksOf (v : Uuid) : List (SBOMVulnerability × SBOM) :=
  joinLinks db fun l s => actionable db l s && l.vulnerabilityId == v

/-- The names of the projects in which a vulnerability is open. -/
def projectMap (v : Uuid) : List String :=
  (openLinksOf db v).map fun ls =>
    ((db.projects.find? fun p => p.id == ls.2.projectId).map (·.name)).getD ""

/-- The names of the services in which a vulnerability is open. -/
def serviceMap (v : Uuid) : List String :=
  (openLinksOf db v).filterMap fun ls =>
    (ls.2.serviceId.bind fun i => db.services.find? fun s => s.id == i).map (·.name)

def vulnerabilityResponse (v : Vulnerability) : VulnerabilityResponse :=
  ⟨v.id, v.cveId, v.severity.map (·.value), v.cvssScore, v.epssScore, v.epssPercentile, v.summary,
    v.source, v.publishedAt, sortedSet (projectMap db v.id), sortedSet (serviceMap db v.id)⟩

/-- `active_vulnerabilities`. -/
def activeVulnerabilities (query : ActiveQuery)
    (tie : TieOrder (applyVulnOrdering query.sort query.order)) :
    Except PyError (PageResponse VulnerabilityResponse) := do
  let rows ← selectVulnerabilities db lower query.filters
  let pg := paginate rows tie query.page query.perPage none
  return ⟨pg.items.map (vulnerabilityResponse db), pg.total, pg.page, pg.perPage, pg.totalPages,
    pg.hasMore⟩

/-! ### The tool -/

/-- How a tool ends without a result. -/
inductive McpError
  | toolError (message : String)
  | unhandled (e : PyError)
  deriving DecidableEq

/-- `McpPage`. -/
structure McpPage (α : Type) where
  items : List α
  total : ℕ
  offset : ℤ
  limit : ℤ
  hasMore : Bool

structure VulnerabilityItem extends VulnerabilityResponse where
  dependencyPurls : List String
  fixedVersions : List String
  fixState : Option String

/-- `_validate_page`. -/
def validatePage (offset limit : ℤ) : Except McpError Unit :=
  if offset < 0 then .error (.toolError "offset must be >= 0")
  else if limit < 1 ∨ limit > 500 then .error (.toolError "limit must be between 1 and 500")
  else .ok ()

/-- `_uuid_or_error`. -/
def uuidOrError (env : Env) (value field : String) : Except McpError Uuid :=
  match env.parseUuid value with
  | some i => .ok i
  | none => .error (.toolError (field ++ " must be a valid UUID"))

/-- A value of a `str` field of a response model. -/
def strField : Json → Except PyError String
  | .str s => .ok s
  | _ => .error .valueError

/-- A value of a `str | None` field of a response model. -/
def optionalStrField : Json → Except PyError (Option String)
  | .null => .ok none
  | j => (strField j).map some

/-- `_fix_info`, as it is validated by `VulnerabilityItem`. -/
def fixInfo (v : Vulnerability) : Except PyError (List String × Option String) := do
  let fix := (← (v.extraData.pyOr (.obj [])).get "fix" .null).pyOr (.obj [])
  let versions ← ((← fix.get "versions" .null).pyOr (.arr [])).iter
  let state ← fix.get "state" .null
  return (← versions.mapM strField, ← optionalStrField state)

/-- The packages on which a vulnerability is open. -/
def purlMap (v : Uuid) : List String := (openLinksOf db v).map (·.1.dependencyPurl)

def vulnerabilityItem (v : Vulnerability) : Except PyError VulnerabilityItem := do
  let (fixedVersions, fixState) ← fixInfo v
  return { vulnerabilityResponse db v with
    dependencyPurls := sortedSet (purlMap db v.id), fixedVersions, fixState }

/-- The parameter of `OFFSET`, a number of 64 bits. -/
def offsetParam (offset : ℤ) : Except PyError ℕ :=
  if offset < 2 ^ 63 then .ok offset.toNat else .error .dataError

/-- `_page_fields`. -/
def pageFields {α : Type} (items : List α) (total : ℕ) (offset limit : ℤ) : McpPage α :=
  ⟨items, total, offset, limit, offset + items.length < total⟩

/-- The order of `list_vulnerabilities`, in which no two vulnerabilities are tied. -/
def listKey (v : Vulnerability) : (SortKey ×ₗ SortKey) ×ₗ ℕ :=
  toLex (applyVulnOrdering "severity" "desc" v, v.id)

/-- The arguments of `list_vulnerabilities`. -/
structure ListArguments where
  severity : Option String
  projectId : Option String
  serviceId : Option String
  cveId : Option String
  offset : ℤ
  limit : ℤ

/-- The arguments without filters. -/
def ListArguments.window (offset limit : ℤ) : ListArguments :=
  ⟨none, none, none, none, offset, limit⟩

/-- The texts of the identifiers as parameters of the query. -/
def ListArguments.bind (env : Env) (args : ListArguments) : Except PyError Unit :=
  if args.projectId.all env.takesUuid && args.serviceId.all env.takesUuid then .ok ()
  else .error .dataError

/-- `list_vulnerabilities`. -/
def listVulnerabilities (env : Env) (args : ListArguments) :
    Except McpError (McpPage VulnerabilityItem) := do
  validatePage args.offset args.limit
  let projectId ← args.projectId.mapM fun value => uuidOrError env value "project_id"
  let serviceId ← args.serviceId.mapM fun value => uuidOrError env value "service_id"
  -- the query gets the texts, not the identifiers
  (args.bind env).mapError .unhandled
  let rows ← (selectVulnerabilities db lower
    ⟨args.severity, projectId, serviceId, args.cveId⟩).mapError .unhandled
  let start ← (offsetParam args.offset).mapError .unhandled
  let ordered := (TieOrder.ofArrangement listKey (storedOrder _)).order rows
  let vulns := ((ordered.drop start).take (args.limit.toNat + 1)).take args.limit.toNat
  let items ← (vulns.mapM (vulnerabilityItem db)).mapError .unhandled
  return pageFields items rows.length args.offset args.limit

end ArgusSbomGuard
