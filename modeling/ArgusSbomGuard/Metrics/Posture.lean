import ArgusSbomGuard.Metrics.Snapshots
import Mathlib.Data.List.Sort

/-!
# The posture of the platform

`vulnerability_summary` of the REST API, the page `dashboard` and `summarize_vulnerabilities` of
the MCP server.  Each has its own queries for the same figures: the vulnerabilities of each
severity that are open somewhere, those that are fixed somewhere, and the projects in which one is
open.  `posture` says what the figures are about, and each of the three is compared with it.

## Main definitions

* `vulnerabilitySummary`, `dashboard`, `summarizeVulnerabilities` : the functions of the source.
* `Posture`, `posture` : what they report.
-/

namespace ArgusSbomGuard

variable (db : Database)

/-! ### The three reports -/

/-- The counts of the query that `vulnerability_summary` and `dashboard` both have. -/
def distinctCounts : OpenCounts :=
  .of fun severity => countIlike (severityRows db (actionable db)).dedup severity.value

/-- The projects of the SBOMs with an actionable link, once for each such link. -/
def projectRows : List Uuid := (joinLinks db (actionable db)).map fun ls => ls.2.projectId

/-- The services of the SBOMs with an actionable link, where there is one. -/
def serviceRows : List Uuid := (joinLinks db (actionable db)).filterMap fun ls => ls.2.serviceId

/-- The fixed count of `dashboard` and of `summarize_vulnerabilities`. -/
def fixedCount : ℕ :=
  countDistinct ((db.links.rows.filter fun l => l.status == .FIXED).map (·.vulnerabilityId))

structure VulnerabilitySummaryResponse where
  counts : SeverityCounts
  total : ℕ
  affectedProjects : ℕ
  deriving DecidableEq

/-- `vulnerability_summary`; its unknown count is always zero. -/
def vulnerabilitySummary : VulnerabilitySummaryResponse :=
  let counts : SeverityCounts := ⟨distinctCounts db, 0⟩
  ⟨counts, counts.sum, (projectRows db).dedup.length⟩

/-- An SBOM with the names of its project and of its service. -/
abbrev RecentSbom := SBOM × String × Option String

/-- The context of the dashboard template; the labels are formatted by `strftime`. -/
structure DashboardContext extends OpenCounts where
  projectCount : ℕ
  sbomCount : ℕ
  fixedCount : ℕ
  recentSboms : List RecentSbom
  chartLabels : List Date
  chartCritical : List ℕ
  chartHigh : List ℕ
  chartMedium : List ℕ
  chartLow : List ℕ
  chartFixed : List ℕ

/-- The SBOMs joined with their projects and, where there is one, their services. -/
def sbomRows : List RecentSbom :=
  db.sboms.rows.flatMap fun s =>
    (db.projects.rows.filter fun p => p.id == s.projectId).map fun p =>
      (s, p.name, (s.serviceId.bind fun i => db.services.find? fun v => v.id == i).map (·.name))

/-- The newest global snapshots in chronological order. -/
def snapRows (snapshots : Table VulnerabilitySnapshot) (snapshotRetentionDays : ℕ) :
    List VulnerabilitySnapshot :=
  (((snapshots.rows.filter fun row => row.projectId == none).insertionSort fun a b =>
    b.snapshotDate ≤ a.snapshotDate).take snapshotRetentionDays).reverse

/-- `dashboard`. -/
def dashboard (snapshots : Table VulnerabilitySnapshot) (snapshotRetentionDays : ℕ)
    (recent : Arrangement RecentSbom) : DashboardContext :=
  let chart := snapRows snapshots snapshotRetentionDays
  { toOpenCounts := distinctCounts db
    projectCount := db.projects.rows.length
    sbomCount := db.sboms.rows.length
    fixedCount := fixedCount db
    recentSboms := ((recent.order (sbomRows db)).insertionSort fun a b =>
      b.1.uploadedAt ≤ a.1.uploadedAt).take 5
    chartLabels := chart.map (·.snapshotDate)
    chartCritical := chart.map (·.figures.critical)
    chartHigh := chart.map (·.figures.high)
    chartMedium := chart.map (·.figures.medium)
    chartLow := chart.map (·.figures.low)
    chartFixed := chart.map (·.figures.fixed) }

structure SummarizeResponse where
  counts : SeverityCounts
  total : ℕ
  affectedProjects : ℕ
  affectedServices : ℕ
  fixed : ℕ
  deriving DecidableEq

/-- `summarize_vulnerabilities`. -/
def summarizeVulnerabilities (rowOrder : Arrangement SeverityRow) :
    Except PyError SummarizeResponse := do
  let counts ← tally (distinctOn Prod.fst (rowOrder.order (severityRows db (actionable db))))
  return ⟨counts, counts.sum, countDistinct (projectRows db), countDistinct (serviceRows db),
    fixedCount db⟩

/-! ### What they report -/

/-- The figures of the platform. -/
structure Posture where
  counts : OpenCounts
  openTotal : ℕ
  fixed : ℕ
  affectedProjects : ℕ

/-- The vulnerabilities of a severity that are open in some project. -/
def openRated (severity : VulnerabilitySeverity) : Set Uuid :=
  {v | (∃ p, OpenIn db p v) ∧ ∃ r ∈ db.vulnerabilities, r.id = v ∧ r.severity = some severity}

/-- How many vulnerabilities are open in some project, by severity and in total, how many are fixed
on some SBOM, and in how many projects a vulnerability is open. -/
noncomputable def posture : Posture where
  counts := .of fun severity => (openRated db severity).ncard
  openTotal := Set.ncard {v | ∃ p, OpenIn db p v}
  fixed := Set.ncard {v | ∃ l ∈ db.links, l.status = .FIXED ∧ l.vulnerabilityId = v}
  affectedProjects := Set.ncard {p | ∃ v, OpenIn db p v}

theorem ratedWith_actionable (severity : VulnerabilitySeverity) :
    ratedWith db (actionable db) severity = openRated db severity := by
  ext v
  change (v, some severity) ∈ severityRows db (actionable db) ↔ _ ∧ _
  rw [mem_severityRows]
  constructor
  · rintro ⟨l, hl, s, hs, hid, hact, hv, hr⟩
    exact ⟨⟨s.projectId, l, hl, s, hs, hid, hact, hv, rfl⟩, hr⟩
  · rintro ⟨⟨p, l, hl, s, hs, hid, hact, hv, -⟩, hr⟩
    exact ⟨l, hl, s, hs, hid, hact, hv, hr⟩

theorem severityCounts_actionable :
    severityCounts db (actionable db) = (posture db).counts := by
  simp only [severityCounts, posture, ratedWith_actionable]

theorem distinctCounts_eq : distinctCounts db = (posture db).counts :=
  countIlike_distinct.trans (severityCounts_actionable db)

theorem countDistinct_openIds :
    countDistinct ((severityRows db (actionable db)).map Prod.fst) = (posture db).openTotal := by
  rw [countDistinct_eq_ncard]
  refine congrArg Set.ncard (Set.ext fun v => ?_)
  change v ∈ List.map Prod.fst (severityRows db (actionable db)) ↔ ∃ p, OpenIn db p v
  simp only [List.mem_map, Prod.exists, exists_and_right, exists_eq_right, mem_severityRows]
  constructor
  · rintro ⟨_, l, hl, s, hs, hid, hact, hv, -⟩
    exact ⟨s.projectId, l, hl, s, hs, hid, hact, hv, rfl⟩
  -- the vulnerability of a link is stored, so that the join finds it
  · rintro ⟨p, l, hl, s, hs, hid, hact, rfl, -⟩
    obtain ⟨r, hr, hrv⟩ := db.linksVulnerability l hl
    exact ⟨r.severity, l, hl, s, hs, hid, hact, rfl, r, hr, hrv, rfl⟩

theorem countDistinct_projectRows :
    countDistinct (projectRows db) = (posture db).affectedProjects := by
  rw [countDistinct_eq_ncard]
  refine congrArg Set.ncard (Set.ext fun p => ?_)
  change p ∈ projectRows db ↔ ∃ v, OpenIn db p v
  simp only [projectRows, List.mem_map, Prod.exists, mem_joinLinks]
  constructor
  · rintro ⟨l, s, ⟨hl, hs, hid, hact⟩, rfl⟩
    exact ⟨l.vulnerabilityId, l, hl, s, hs, hid, hact, rfl, rfl⟩
  · rintro ⟨v, l, hl, s, hs, hid, hact, -, rfl⟩
    exact ⟨l, s, ⟨hl, hs, hid, hact⟩, rfl⟩

theorem vulnerabilitySummary_eq :
    (vulnerabilitySummary db).counts.toOpenCounts = (posture db).counts ∧
      (vulnerabilitySummary db).affectedProjects = (posture db).affectedProjects :=
  ⟨distinctCounts_eq db, countDistinct_projectRows db⟩

theorem fixedCount_eq : fixedCount db = (posture db).fixed := by
  rw [fixedCount, countDistinct_eq_ncard]
  refine congrArg Set.ncard (Set.ext fun v => ?_)
  change v ∈ List.map _ _ ↔ ∃ l ∈ db.links, _
  simp only [List.mem_map, List.mem_filter, beq_iff_eq, Table.mem_rows, and_assoc]

theorem dashboard_eq (snapshots : Table VulnerabilitySnapshot) (snapshotRetentionDays : ℕ)
    (recent : Arrangement RecentSbom) :
    (dashboard db snapshots snapshotRetentionDays recent).toOpenCounts = (posture db).counts ∧
      (dashboard db snapshots snapshotRetentionDays recent).fixedCount = (posture db).fixed :=
  ⟨distinctCounts_eq db, fixedCount_eq db⟩

/-- The dictionary of `summarize_vulnerabilities` has a key for every severity. -/
theorem summarizeVulnerabilities_isOk (rowOrder : Arrangement SeverityRow) :
    ∃ response, summarizeVulnerabilities db rowOrder = .ok response ∧
      response.counts.toOpenCounts = (posture db).counts ∧
      response.total = (posture db).openTotal ∧
      response.fixed = (posture db).fixed ∧
      response.affectedProjects = (posture db).affectedProjects := by
  obtain ⟨counts, htally, hcounts, hsum⟩ := tally_distinctOn rowOrder
  exact ⟨_, bind_eq_ok.2 ⟨counts, htally, rfl⟩, hcounts.trans (severityCounts_actionable db),
    hsum.trans (countDistinct_openIds db), fixedCount_eq db, countDistinct_projectRows db⟩

/-! ### The snapshot of the current day -/

variable {db} {inp : SnapshotInput}

/-- On the current day a snapshot counts as open what the other reports do. -/
theorem snapshotFigures_today : (snapshotFigures db inp inp.todayAgain).toOpenCounts =
    (posture db).counts := by
  rw [snapshotFigures_open, openOnDay, if_pos rfl, severityCounts_actionable]

/-- The links that were fixed by a day are all fixed links when these have their times and none of
these is later. -/
theorem fixedBy_eq {date : Date} (hfixed : ∀ l ∈ db.links, l.status = .FIXED →
    ∃ t, l.fixedAt = some t ∧ t.date ≤ date) : fixedBy db date = (posture db).fixed := by
  rw [← fixedCount_eq, fixedBy, fixedCount]
  refine congrArg (fun ls : List SBOMVulnerability => countDistinct (ls.map _)) ?_
  refine List.filter_congr fun l hl => ?_
  rw [Bool.and_eq_left_iff_imp]
  intro hst
  obtain ⟨t, ht, hle⟩ := hfixed l hl (beq_iff_eq.1 hst)
  rw [ht]
  exact decide_eq_true hle

end ArgusSbomGuard
