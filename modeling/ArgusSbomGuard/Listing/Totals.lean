import ArgusSbomGuard.Listing.Vulnerabilities
import ArgusSbomGuard.Metrics.Posture
import ArgusSbomGuard.System.World

/-!
# The totals of the lists and of the summary

Both lists count the vulnerabilities that are open in some project.  The summary adds up four
counts, so its total leaves out the vulnerabilities without one of the four severities
(`totals_agree_iff`).
-/

namespace ArgusSbomGuard

variable {db : Database} {lower : String → String}

/-! ### The lists -/

theorem admits_noFilters (v : Vulnerability) (s : SBOM) :
    noFilters.admits lower v s = .ok true := rfl

/-- A vulnerability is in the joined rows when it is open in some project. -/
theorem mem_openVulnRows {v : Vulnerability} : (∃ s, (v, s) ∈ openVulnRows db) ↔
    v ∈ db.vulnerabilities ∧ ∃ p, OpenIn db p v.id := by
  simp only [openVulnRows, List.mem_flatMap, List.mem_map, List.mem_filter, Prod.exists,
    mem_joinLinks, beq_iff_eq, Table.mem_rows, Prod.mk.injEq]
  constructor
  · rintro ⟨s, l, s', ⟨hl, hs, hid, hact⟩, v', ⟨hv, hvl⟩, rfl, rfl⟩
    exact ⟨hv, s'.projectId, l, hl, s', hs, hid, hact, hvl.symm, rfl⟩
  · rintro ⟨hv, p, l, hl, s, hs, hid, hact, hlv, -⟩
    exact ⟨s, l, s, ⟨hl, hs, hid, hact⟩, v, ⟨hv, hlv.symm⟩, rfl, rfl⟩

/-- No two vulnerabilities of a list have the same identifier. -/
theorem nodup_ids_filter (p : Vulnerability → Bool) :
    ((db.vulnerabilities.rows.filter p).map (·.id)).Nodup :=
  List.pairwise_map.2 ((db.vulnerabilities.unique.filter p).imp fun hn hid => hn (.inl hid))

/-- Without filters a list is about the vulnerabilities that are open in some project. -/
theorem selectVulnerabilities_noFilters : ∃ rows,
    selectVulnerabilities db lower noFilters = .ok rows ∧ rows.length = (posture db).openTotal := by
  have hrows : selectWhere (fun row => noFilters.admits lower row.1 row.2) (openVulnRows db) =
      .ok ((openVulnRows db).filter fun _ => true) :=
    selectWhere_eq_filter fun row _ => admits_noFilters row.1 row.2
  have hsub : buildVulnSubquery db lower noFilters =
      .ok ((openVulnRows db).map fun row => row.1.id).dedup := by
    rw [buildVulnSubquery, hrows, List.filter_true]
    rfl
  refine ⟨_, bind_eq_ok.2 ⟨_, hsub, rfl⟩, ?_⟩
  rw [← List.length_map (·.id), ← (nodup_ids_filter _).dedup]
  refine (countDistinct_eq_ncard _).trans (congrArg Set.ncard (Set.ext fun i => ?_))
  change i ∈ List.map _ _ ↔ ∃ p, OpenIn db p i
  simp only [List.mem_map, List.mem_filter, decide_eq_true_eq, List.mem_dedup, Prod.exists,
    Table.mem_rows]
  constructor
  · rintro ⟨v, ⟨-, v', s, hrow, hid⟩, rfl⟩
    rw [← hid]
    exact (mem_openVulnRows.1 ⟨s, hrow⟩).2
  · rintro ⟨p, hopen⟩
    obtain ⟨l, hl, s, hs, hid, hact, rfl, hp⟩ := hopen
    obtain ⟨v, hv, hvl⟩ := db.linksVulnerability l hl
    have hv' : ∃ p, OpenIn db p v.id := ⟨p, l, hl, s, hs, hid, hact, hvl.symm, hp⟩
    obtain ⟨s', hrow⟩ := mem_openVulnRows.2 ⟨hv, hv'⟩
    exact ⟨v, ⟨hv, v, s', hrow, rfl⟩, hvl⟩

theorem activeVulnerabilities_total (query : ActiveQuery)
    (tie : TieOrder (applyVulnOrdering query.sort query.order)) (h : query.filters = noFilters) :
    ∃ response, activeVulnerabilities db lower query tie = .ok response ∧
      response.total = (posture db).openTotal := by
  obtain ⟨rows, hrows, hlen⟩ : ∃ rows, selectVulnerabilities db lower noFilters = .ok rows ∧
    rows.length = (posture db).openTotal := selectVulnerabilities_noFilters
  exact ⟨_, bind_eq_ok.2 ⟨rows, h ▸ hrows, rfl⟩, hlen⟩

theorem listVulnerabilities_total {env : Env} {offset limit : ℤ}
    {response : McpPage VulnerabilityItem}
    (h : listVulnerabilities db lower env (.window offset limit) = .ok response) :
    response.total = (posture db).openTotal := by
  obtain ⟨rows, hrows, hlen⟩ : ∃ rows, selectVulnerabilities db lower noFilters = .ok rows ∧
    rows.length = (posture db).openTotal := selectVulnerabilities_noFilters
  simp only [listVulnerabilities, ListArguments.window, Option.mapM_none, bind_eq_ok] at h
  obtain ⟨-, -, projectId, hproject, serviceId, hservice, -, -, rows', hrows', -, -, items, -,
    hok⟩ := h
  cases hproject
  cases hservice
  have heq : rows = rows' := Except.ok.inj (hrows.symm.trans (mapError_eq_ok hrows'))
  rw [← Except.ok.inj hok, ← hlen, heq]
  rfl

/-! ### The summary -/

/-- Every vulnerability that is open in some project has one of the four severities. -/
def AllRated (db : Database) : Prop :=
  ∀ v ∈ db.vulnerabilities, (∃ p, OpenIn db p v.id) →
    ∃ severity, v.severity = some severity ∧ severity ≠ .UNKNOWN

/-- The severity is one of the four that the summary counts. -/
def isRated (severity : Option VulnerabilitySeverity) : Bool :=
  severity.any fun severity => severity ≠ .UNKNOWN

@[simp] theorem isRated_none : isRated none = false := rfl

@[simp] theorem isRated_some (severity : VulnerabilitySeverity) :
    isRated (some severity) = decide (severity ≠ .UNKNOWN) := rfl

theorem isRated_iff {severity : Option VulnerabilitySeverity} :
    isRated severity = true ↔ ∃ s, severity = some s ∧ s ≠ .UNKNOWN := by
  simp only [isRated, Option.any_eq_true, decide_eq_true_eq]

/-- The four counts together count the rows with one of the four severities. -/
theorem sum_countP_severity (rows : List SeverityRow) :
    SeverityCounts.sum ⟨.of fun severity => rows.countP fun row => row.2 == some severity, 0⟩ =
      rows.countP fun row => isRated row.2 := by
  induction rows with
  | nil => rfl
  | cons row rows ih =>
    simp only [SeverityCounts.sum, OpenCounts.of, List.countP_cons] at ih ⊢
    rcases row with ⟨v, _ | severity⟩
    · simpa using ih
    · cases severity <;> simp <;> omega

theorem summary_total : (vulnerabilitySummary db).total =
    (severityRows db (actionable db)).dedup.countP fun row => isRated row.2 := by
  rw [← sum_countP_severity]
  simp only [vulnerabilitySummary, distinctCounts, countIlike_value]

/-- All vulnerabilities that are open are rated when all rows are. -/
theorem allRated_iff :
    AllRated db ↔ ∀ row ∈ (severityRows db (actionable db)).dedup, isRated row.2 = true := by
  simp only [List.mem_dedup, isRated_iff]
  constructor
  · rintro h ⟨v, severity⟩ hrow
    obtain ⟨l, hl, s, hs, hid, hact, hlv, r, hr, hrv, rfl⟩ := mem_severityRows.1 hrow
    exact h r hr ⟨s.projectId, l, hl, s, hs, hid, hact, hlv.trans hrv.symm, rfl⟩
  · rintro h v hv ⟨p, l, hl, s, hs, hid, hact, hlv, -⟩
    exact h (v.id, v.severity)
      (mem_severityRows.2 ⟨l, hl, s, hs, hid, hact, hlv, v, hv, rfl, rfl⟩)

theorem summary_total_eq_iff :
    (vulnerabilitySummary db).total = (posture db).openTotal ↔ AllRated db := by
  have htotal : (severityRows db (actionable db)).dedup.length = (posture db).openTotal := by
    rw [← countDistinct_openIds, ← List.countP_true, countP_dedup severityRows_determines,
      List.filter_true]
  rw [summary_total, ← htotal, List.countP_eq_length, allRated_iff]

/-- **The totals agree when everything is rated.**  The total of the summary is the one of the
list of open vulnerabilities and the one of the tool, without filters and whatever page is asked
for, exactly when no open vulnerability is without one of the four severities. -/
theorem totals_agree_iff (db : Database) (lower : String → String) (query : ActiveQuery)
    (hquery : query.filters = noFilters)
    (tie : TieOrder (applyVulnOrdering query.sort query.order)) (env : Env) (offset limit : ℤ) :
    ∃ page, activeVulnerabilities db lower query tie = .ok page ∧
      ∀ tool, listVulnerabilities db lower env (.window offset limit) = .ok tool →
        ((vulnerabilitySummary db).total = page.total ∧
          (vulnerabilitySummary db).total = tool.total ↔ AllRated db) := by
  obtain ⟨page, hpage, hpageTotal⟩ : ∃ page, activeVulnerabilities db lower query tie = .ok page ∧
    page.total = (posture db).openTotal := activeVulnerabilities_total query tie hquery
  refine ⟨page, hpage, fun tool htool => ?_⟩
  rw [hpageTotal, listVulnerabilities_total htool, and_self, summary_total_eq_iff]

/-! ### An example -/

/-- The query of a request without parameters. -/
def defaultQuery : ActiveQuery :=
  ⟨1, 50, noFilters, "cvss_score", "desc", firstPage, by decide, by decide⟩

/-- Rows in the order of their keys, and of the table where these are the same. -/
def stableOrder {α κ : Type} [LinearOrder κ] (key : α → κ) : TieOrder key :=
  .ofArrangement key (storedOrder α)

/-- The release with one finding, which grype did not rate. -/
theorem totals_agree_demo : ∃ page,
    activeVulnerabilities demoFound.db PyStr.lower defaultQuery (stableOrder _) = .ok page ∧
      ∃ tool, listVulnerabilities demoFound.db PyStr.lower demoEnv (.window 0 50) = .ok tool ∧
        ((vulnerabilitySummary demoFound.db).total = page.total ∧
          (vulnerabilitySummary demoFound.db).total = tool.total ↔ AllRated demoFound.db) := by
  obtain ⟨page, hpage, h⟩ := totals_agree_iff demoFound.db PyStr.lower defaultQuery rfl
    (stableOrder _) demoEnv 0 50
  cases htool : listVulnerabilities demoFound.db PyStr.lower demoEnv (.window 0 50) with
  | ok tool => exact ⟨page, hpage, tool, rfl, h tool htool⟩
  | error e =>
    have hok : (listVulnerabilities demoFound.db PyStr.lower demoEnv (.window 0 50)).isOk := by
      decide +kernel
    rw [htool] at hok
    cases hok

/-- The summary leaves out the finding that both lists count. -/
theorem totals_differ : (system demoEnv).Reachable demoFound ∧
    (vulnerabilitySummary demoFound.db).total = 0 ∧
    (activeVulnerabilities demoFound.db PyStr.lower defaultQuery (stableOrder _)).map (·.total) =
      .ok 1 ∧
    (listVulnerabilities demoFound.db PyStr.lower demoEnv (.window 0 50)).map (·.total) = .ok 1 :=
  ⟨demo_reachable, by decide +kernel⟩

end ArgusSbomGuard
