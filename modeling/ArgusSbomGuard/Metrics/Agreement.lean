import ArgusSbomGuard.Metrics.Posture
import ArgusSbomGuard.System.Clock

/-!
# The reports agree

The summary of the REST API, the dashboard, the summary of the MCP server and the snapshot of the
current day show the same figures in every state (`counters_agree`).  A run may start on the empty
database or on any other in order, so that the vulnerabilities have any severity or none: a scan
always stores one.
-/

namespace ArgusSbomGuard

/-- The figures that more than one report has are the same. -/
structure CountersAgree (rest : VulnerabilitySummaryResponse) (page : DashboardContext)
    (mcp : SummarizeResponse) (row : VulnerabilitySnapshot) : Prop where
  pageOpen : page.toOpenCounts = rest.counts.toOpenCounts
  mcpOpen : mcp.counts.toOpenCounts = rest.counts.toOpenCounts
  snapshotOpen : row.figures.toOpenCounts = rest.counts.toOpenCounts
  mcpFixed : mcp.fixed = page.fixedCount
  snapshotFixed : row.figures.fixed = page.fixedCount
  affectedProjects : mcp.affectedProjects = rest.affectedProjects

variable {env : Env} {db : Database} {now : DateTime} {inp : SnapshotInput} {w₀ w : World}

/-- In a state without times in the future every fixed link was fixed by today. -/
theorem fixedBy_today (hinv : LinkCoherent db) (hfixed : FixedBefore now db) :
    fixedBy db now.date = (posture db).fixed := by
  refine fixedBy_eq fun l hl hst => ?_
  obtain ⟨t, ht⟩ := Option.isSome_iff_exists.1 ((hinv l hl).1 hst)
  exact ⟨t, ht, Int.ediv_le_ediv (by decide) (hfixed l hl t ht)⟩

/-- **The four counters agree.**  At the instant `now`, after any run up to it, `mcp` is what the
MCP server answers and `row` is the global row of the current day after a snapshot for that day,
whether the day is given or not. -/
theorem counters_agree (hinv : SystemInvariant w₀.db) (hfixed : FixedBefore now w₀.db)
    (hw : ((system env).startingAt w₀).Reaches (fun _ a => a.NotAfter now) w)
    (htoday : inp.todayAgain = now.date) {snapshotDate : Option String}
    (hdate : inp.targetDate snapshotDate = .ok now.date)
    {snapshots : Table VulnerabilitySnapshot} (hid : ∀ row ∈ snapshots, row.id ≠ inp.newId)
    (shown : Table VulnerabilitySnapshot) (snapshotRetentionDays : ℕ)
    (recent : Arrangement RecentSbom) (rowOrder : Arrangement SeverityRow) :
    ∃ mcp, summarizeVulnerabilities w.db rowOrder = .ok mcp ∧
      ∃ snapshots', doSnapshotMetrics w.db inp snapshots snapshotDate = .ok snapshots' ∧
        ∃ row, globalRow snapshots' now.date = some row ∧
          CountersAgree (vulnerabilitySummary w.db)
            (dashboard w.db shown snapshotRetentionDays recent) mcp row := by
  have hinv' := systemInvariant_run hinv hw
  have hfixed' := fixedBefore hinv hfixed hw
  obtain ⟨mcp, hmcp, hmcpOpen, -, hmcpFixed, hmcpAffected⟩ :=
    summarizeVulnerabilities_isOk w.db rowOrder
  obtain ⟨snapshots', hok, row, hrow, hfigures⟩ := doSnapshotMetrics_global w.db hdate hid
  obtain ⟨hrestOpen, hrestAffected⟩ := vulnerabilitySummary_eq w.db
  obtain ⟨hpageOpen, hpageFixed⟩ := dashboard_eq w.db shown snapshotRetentionDays recent
  refine ⟨mcp, hmcp, snapshots', hok, row, hrow, ?_⟩
  constructor
  · rw [hpageOpen, hrestOpen]
  · rw [hmcpOpen, hrestOpen]
  · rw [hfigures, ← htoday, snapshotFigures_today, hrestOpen]
  · rw [hmcpFixed, hpageFixed]
  · rw [hfigures, hpageFixed]
    exact fixedBy_today hinv'.coherent hfixed'
  · rw [hmcpAffected, hrestAffected]

/-! ### An example -/

/-- A vulnerability of the demonstration. -/
def demoVulnerability (id : Uuid) (severity : Option VulnerabilitySeverity) : Vulnerability :=
  ⟨id, demoName 'c' id, none, severity, none, none, none, none, [], none, .null⟩

/-- A database with a critical finding on two packages, one without a severity and a fixed one. -/
def demoRows : Except PyError Database := do
  let db ← Database.empty.insertProject ⟨2, "rated", "rated"⟩
  let db ← db.insertSbom ⟨3, 2, none, none, .null, "hash", none, 50, 50, none⟩
  let db ← db.insertVulnerability (demoVulnerability 1 (some .CRITICAL))
  let db ← db.insertVulnerability (demoVulnerability 2 none)
  let db ← db.insertVulnerability (demoVulnerability 3 (some .HIGH))
  let db ← db.insertLink ⟨3, "a", 1, .OPEN, none, 60⟩
  let db ← db.insertLink ⟨3, "b", 1, .OPEN, none, 60⟩
  let db ← db.insertLink ⟨3, "a", 2, .OPEN, none, 60⟩
  db.insertLink ⟨3, "a", 3, .FIXED, some 70, 60⟩

/-- The demonstration on top of that database. -/
def demoRated : World := ⟨demoRows.toOption.get (by decide +kernel), [], []⟩

def demoRatedRun : List Action :=
  [demoProject, demoUpload 1 10 100, demoScan 10 [1, 7] 110,
    .createRiskAcceptance ⟨1, 7, none, "accepted", by decide⟩ 1 120]

theorem demoRatedRun_isSome :
    (((system demoEnv).startingAt demoRated).run demoRated demoRatedRun).isSome := by
  decide +kernel

/-- A snapshot on the first day. -/
def demoSnapshotInput : SnapshotInput := ⟨fun _ => none, 0, 0, 1, storedOrder _⟩

/-- The reports on the demonstration: the critical finding counts once, the accepted one and the one
without a severity do not count. -/
theorem counters_agree_demo :
    let w := ((system demoEnv).startingAt demoRated).after demoRatedRun demoRatedRun_isSome
    let page := dashboard w.db .empty 30 (storedOrder _)
    (page.toOpenCounts = ⟨1, 0, 0, 0⟩ ∧ page.fixedCount = 1 ∧
      (vulnerabilitySummary w.db).affectedProjects = 1) ∧
    ∃ mcp, summarizeVulnerabilities w.db (storedOrder _) = .ok mcp ∧
      ∃ snapshots', doSnapshotMetrics w.db demoSnapshotInput .empty none = .ok snapshots' ∧
        ∃ row, globalRow snapshots' (200 : DateTime).date = some row ∧
          CountersAgree (vulnerabilitySummary w.db) page mcp row :=
  ⟨by decide +kernel,
    counters_agree ⟨by decide +kernel, by decide +kernel⟩ (by decide +kernel)
      (Machine.reaches_after (by decide +kernel)) rfl rfl
      (fun _ h => absurd h (Table.not_mem_empty _)) .empty 30 (storedOrder _) (storedOrder _)⟩

end ArgusSbomGuard
