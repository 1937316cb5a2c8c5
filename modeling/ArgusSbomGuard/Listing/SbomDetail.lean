import ArgusSbomGuard.Listing.Filters
import ArgusSbomGuard.Metrics.Counters
import ArgusSbomGuard.Sbom.Upload
import ArgusSbomGuard.System.World
import Mathlib.Data.String.Basic

/-!
# The detail of an SBOM and the list of its findings

The tools `get_sbom` and `get_sbom_vulnerabilities` of the MCP server.  The first counts the
findings of an SBOM that are not accepted in groups, by severity and status, and adds each group to
two dictionaries; the second lists them, on request those of one status.  The counts of the first
are the totals of the second (`sbom_detail_agrees`).

## Main definitions

* `sbomFindings` : the findings that both are about.
* `getSbom`, `getSbomVulnerabilities` : the tools.
-/

namespace ArgusSbomGuard

/-- `VulnerabilityStatus.value`. -/
def VulnerabilityStatus.value : VulnerabilityStatus → String
  | .OPEN => "open"
  | .FIXED => "fixed"

/-- `status_counts`. -/
structure StatusCounts where
  opened : ℕ
  fixed : ℕ

/-- `VulnerabilityCounts`. -/
structure VulnerabilityCounts extends SeverityCounts where
  total : ℕ

structure SbomDetail where
  id : Uuid
  projectId : Uuid
  projectName : String
  serviceId : Option Uuid
  serviceName : Option String
  version : Option String
  format : Option String
  sha256 : String
  dependencyCount : Option ℕ
  uploadedAt : DateTime
  vulnerabilityCounts : VulnerabilityCounts
  openCount : ℕ
  fixedCount : ℕ

structure SbomVulnerabilityItem where
  cveId : String
  severity : Option String
  cvssScore : Option PyFloat
  summary : Option String
  status : String
  dependencyPurl : String
  fixedVersions : List String
  fixState : Option String

structure SbomVulnerabilitiesPage where
  sbomId : Uuid
  total : ℕ
  offset : ℤ
  limit : ℤ
  hasMore : Bool
  vulnerabilities : List SbomVulnerabilityItem

variable (db : Database) (env : Env)

/-- `_load_sbom`. -/
def loadSbom (sbomId : String) : Except McpError SBOM := do
  let sbomUuid ← uuidOrError env sbomId "sbom_id"
  match db.sboms.find? fun s => s.id == sbomUuid with
  | some sbom => return sbom
  | none => .error (.toolError "SBOM not found")

/-- `scalar_one`. -/
def scalarOne {α : Type} : Option α → Except McpError α
  | some a => .ok a
  | none => .error (.unhandled .noResultFound)

/-- The vulnerabilities joined with their links on the SBOM that are not accepted. -/
def sbomFindings (sbomId : Uuid) : List (Vulnerability × SBOMVulnerability) :=
  (joinLinks db fun l s => l.sbomId == sbomId && !coveredByAcceptance db l s none).flatMap fun ls =>
    (db.vulnerabilities.rows.filter fun v => v.id == ls.1.vulnerabilityId).map fun v => (v, ls.1)

/-! ### `get_sbom` -/

/-- What the findings are grouped by. -/
abbrev SeverityStatus := Option VulnerabilitySeverity × VulnerabilityStatus

/-- `counts[key] += n`. -/
def SeverityCounts.plus (counts : SeverityCounts) (key : String) (n : ℕ) :
    Except PyError SeverityCounts :=
  match key with
  | "critical" => .ok { counts with critical := counts.critical + n }
  | "high" => .ok { counts with high := counts.high + n }
  | "medium" => .ok { counts with medium := counts.medium + n }
  | "low" => .ok { counts with low := counts.low + n }
  | "unknown" => .ok { counts with unknown := counts.unknown + n }
  | _ => .error .keyError

/-- `status_counts[key] += n`. -/
def StatusCounts.plus (counts : StatusCounts) (key : String) (n : ℕ) :
    Except PyError StatusCounts :=
  match key with
  | "open" => .ok { counts with opened := counts.opened + n }
  | "fixed" => .ok { counts with fixed := counts.fixed + n }
  | _ => .error .keyError

/-- A round of the loop of `get_sbom`. -/
def addGroup (counts : SeverityCounts × StatusCounts) (group : SeverityStatus × ℕ) :
    Except PyError (SeverityCounts × StatusCounts) := do
  let severityCounts ← counts.1.plus (severityKey group.1.1) group.2
  let statusCounts ← counts.2.plus group.1.2.value group.2
  return (severityCounts, statusCounts)

/-- `get_sbom`; the groups come in some order. -/
def getSbom (groups : Arrangement (SeverityStatus × ℕ)) (sbomId : String) :
    Except McpError SbomDetail := do
  let sbom ← loadSbom db env sbomId
  let project ← scalarOne (db.projects.find? fun p => p.id == sbom.projectId)
  let service ← sbom.serviceId.mapM fun i => scalarOne (db.services.find? fun v => v.id == i)
  let rows := (sbomFindings db sbom.id).map fun r => (r.1.severity, r.2.status)
  let counts ← ((groups.order (groupCount rows)).foldlM addGroup
    (⟨⟨0, 0, 0, 0⟩, 0⟩, ⟨0, 0⟩)).mapError .unhandled
  return {
    id := sbom.id
    projectId := sbom.projectId
    projectName := project.name
    serviceId := sbom.serviceId
    serviceName := service.map (·.name)
    version := sbom.version
    format := sbom.format.map (·.value)
    sha256 := sbom.sha256
    dependencyCount := sbom.dependencyCount
    uploadedAt := sbom.uploadedAt
    vulnerabilityCounts := ⟨counts.1, counts.1.sum⟩
    openCount := counts.2.opened
    fixedCount := counts.2.fixed }

/-! ### `get_sbom_vulnerabilities` -/

/-- The arguments of `get_sbom_vulnerabilities`. -/
structure SbomListArguments where
  sbomId : String
  offset : ℤ
  limit : ℤ
  status : Option String
  severity : Option String

/-- `Vulnerability.cve_id, SBOMVulnerability.dependency_purl`, in the order of a collation. -/
def findingKey {κ : Type} (collate : String → κ) (r : Vulnerability × SBOMVulnerability) :
    κ ×ₗ κ :=
  toLex (collate r.1.cveId, collate r.2.dependencyPurl)

/-- The filter `status`, which is bound as a text. -/
def findingsOfStatus (status : Option String) (rows : List (Vulnerability × SBOMVulnerability)) :
    Except PyError (List (Vulnerability × SBOMVulnerability)) :=
  match status with
  | none => .ok rows
  | some text => if fitsText text
    then .ok (rows.filter fun r => PyStr.lower r.2.status.value == PyStr.lower text)
    else .error .dataError

/-- The filter `severity`. -/
def findingsOfSeverity (lower : String → String) (severity : Option String) :
    List (Vulnerability × SBOMVulnerability) →
      Except PyError (List (Vulnerability × SBOMVulnerability)) :=
  selectWhere fun r => severityFilter lower severity r.1

def sbomVulnerabilityItem (r : Vulnerability × SBOMVulnerability) :
    Except PyError SbomVulnerabilityItem := do
  let (fixedVersions, fixState) ← fixInfo r.1
  return ⟨r.1.cveId, r.1.severity.map (·.value), r.1.cvssScore, r.1.summary, r.2.status.value,
    r.2.dependencyPurl, fixedVersions, fixState⟩

/-- `get_sbom_vulnerabilities`. -/
def getSbomVulnerabilities {κ : Type} [LinearOrder κ] {collate : String → κ}
    (lower : String → String) (tie : TieOrder (findingKey collate)) (args : SbomListArguments) :
    Except McpError SbomVulnerabilitiesPage := do
  validatePage args.offset args.limit
  let sbom ← loadSbom db env args.sbomId
  let base ← (findingsOfStatus args.status (sbomFindings db sbom.id)).mapError .unhandled
  let base ← (findingsOfSeverity lower args.severity base).mapError .unhandled
  let start ← (offsetParam args.offset).mapError .unhandled
  let rows := ((tie.order base).drop start).take (args.limit.toNat + 1)
  let vulnerabilities ← ((rows.take args.limit.toNat).mapM sbomVulnerabilityItem).mapError
    .unhandled
  return ⟨sbom.id, base.length, args.offset, args.limit, args.limit.toNat < rows.length,
    vulnerabilities⟩

/-! ### The counts -/

section Counts

/-- The count of a status. -/
def StatusCounts.count (counts : StatusCounts) : VulnerabilityStatus → ℕ
  | .OPEN => counts.opened
  | .FIXED => counts.fixed

/-- Every severity has its key, and the group is added once. -/
theorem SeverityCounts.plus_severityKey (counts : SeverityCounts)
    (severity : Option VulnerabilitySeverity) (n : ℕ) :
    ∃ counts', counts.plus (severityKey severity) n = .ok counts' ∧
      counts'.sum = counts.sum + n := by
  rcases severity with _ | severity
  · exact ⟨_, rfl, (Nat.add_assoc _ _ _).symm⟩
  · cases severity <;> refine ⟨_, rfl, ?_⟩ <;> simp only [sum] <;> omega

/-- So has every status. -/
theorem StatusCounts.plus_value (counts : StatusCounts) (status : VulnerabilityStatus) (n : ℕ) :
    ∃ counts', counts.plus status.value n = .ok counts' ∧ ∀ status',
      counts'.count status' = counts.count status' + if status = status' then n else 0 := by
  cases status <;> refine ⟨_, rfl, fun status' => ?_⟩ <;> cases status' <;> rfl

/-- The loop adds up the groups, all of them and those of a status. -/
theorem foldlM_addGroup (groups : List (SeverityStatus × ℕ))
    (counts : SeverityCounts × StatusCounts) :
    ∃ counts', groups.foldlM addGroup counts = .ok counts' ∧
      counts'.1.sum = counts.1.sum + (groups.map Prod.snd).sum ∧
      ∀ status, counts'.2.count status = counts.2.count status +
        ((groups.filter fun g => g.1.2 == status).map Prod.snd).sum := by
  induction groups generalizing counts with
  | nil => exact ⟨counts, rfl, rfl, fun _ => rfl⟩
  | cons group groups ih =>
    obtain ⟨severities, hseverities, hsum⟩ :=
      counts.1.plus_severityKey group.1.1 group.2
    obtain ⟨statuses, hstatuses, hcount⟩ := counts.2.plus_value group.1.2 group.2
    obtain ⟨counts', hok, hsum', hcount'⟩ := ih (severities, statuses)
    refine ⟨counts', ?_, ?_, fun status => ?_⟩
    · rw [List.foldlM_cons, addGroup, hseverities, hstatuses]
      exact hok
    · rw [hsum', hsum, List.map_cons, List.sum_cons, Nat.add_assoc]
    · rw [hcount', hcount, List.filter_cons, Nat.add_assoc]
      by_cases hst : group.1.2 = status
      · rw [if_pos hst, if_pos (beq_iff_eq.2 hst), List.map_cons, List.sum_cons]
      · rw [if_neg hst, if_neg (mt beq_iff_eq.1 hst), Nat.zero_add]

/-- The counts are those of the rows, however they are grouped. -/
theorem foldlM_groupCount (groups : Arrangement (SeverityStatus × ℕ))
    (rows : List SeverityStatus) :
    ∃ counts, (groups.order (groupCount rows)).foldlM addGroup (⟨⟨0, 0, 0, 0⟩, 0⟩, ⟨0, 0⟩) =
        .ok counts ∧
      counts.1.sum = rows.length ∧
      ∀ status, counts.2.count status = rows.countP fun row => row.2 == status := by
  obtain ⟨counts, hok, hsum, hcount⟩ :=
    foldlM_addGroup (groups.order (groupCount rows)) (⟨⟨0, 0, 0, 0⟩, 0⟩, ⟨0, 0⟩)
  refine ⟨counts, hok, ?_, fun status => ?_⟩
  · have hall := sum_arranged_groupCount groups rows fun _ => true
    rw [List.filter_true, List.countP_true] at hall
    rw [hsum, hall]
    exact Nat.zero_add _
  · rw [hcount, sum_arranged_groupCount groups rows fun row => row.2 == status]
    cases status <;> exact Nat.zero_add _

theorem countP_open_add_countP_fixed (rows : List SeverityStatus) :
    ((rows.countP fun row => row.2 == .OPEN) + rows.countP fun row => row.2 == .FIXED) =
      rows.length := by
  rw [List.length_eq_countP_add_countP fun row : SeverityStatus => row.2 == .OPEN]
  refine congrArg _ (List.countP_congr fun row _ => ?_)
  rcases row with ⟨severity, _ | _⟩ <;> exact Iff.rfl

end Counts

/-! ### The tools -/

variable {db env} {sbom : SBOM} {sbomId : String} {lower : String → String}

theorem loadSbom_eq_ok (hsbom : sbom ∈ db.sboms) (hid : env.parseUuid sbomId = some sbom.id) :
    loadSbom db env sbomId = .ok sbom := by
  have hfind : (db.sboms.find? fun s => s.id == sbom.id) = some sbom :=
    Table.find?_eq_some hsbom (beq_self_eq_true _) fun a ha => .inl (beq_iff_eq.1 ha)
  refine bind_eq_ok.2 ⟨sbom.id, ?_, ?_⟩
  · rw [uuidOrError, hid]
  · rw [hfind]
    rfl

theorem scalarOne_find? {R : Type} [UniqueKeys R] {t : Table R} {p : R → Bool}
    (h : ∃ a ∈ t, p a = true) : ∃ a, scalarOne (t.find? p) = .ok a := by
  obtain ⟨a, ha, hp⟩ := h
  cases hfind : t.find? p with
  | some b => exact ⟨b, rfl⟩
  | none => exact absurd hp (List.find?_eq_none.1 hfind a ha)

/-- The tool finds the SBOM, its project and its service, and counts the findings. -/
theorem getSbom_eq_ok (hsbom : sbom ∈ db.sboms) (hid : env.parseUuid sbomId = some sbom.id)
    (groups : Arrangement (SeverityStatus × ℕ)) :
    ∃ detail, getSbom db env groups sbomId = .ok detail ∧
      detail.vulnerabilityCounts.sum = (sbomFindings db sbom.id).length ∧
      detail.vulnerabilityCounts.total = (sbomFindings db sbom.id).length ∧
      detail.openCount = (sbomFindings db sbom.id).countP (fun r => r.2.status == .OPEN) ∧
      detail.fixedCount = (sbomFindings db sbom.id).countP fun r => r.2.status == .FIXED := by
  obtain ⟨project, hproject⟩ : ∃ project,
      scalarOne (db.projects.find? fun p => p.id == sbom.projectId) = .ok project := by
    obtain ⟨p, hp, hpid⟩ := db.sbomsProject sbom hsbom
    exact scalarOne_find? ⟨p, hp, beq_iff_eq.2 hpid⟩
  obtain ⟨service, hservice⟩ : ∃ service, (sbom.serviceId.mapM fun i =>
      scalarOne (db.services.find? fun v => v.id == i)) = .ok service := by
    cases hs : sbom.serviceId with
    | none => exact ⟨none, rfl⟩
    | some i =>
      obtain ⟨v, hv, hvid⟩ := db.sbomsService sbom hsbom i hs
      obtain ⟨a, ha⟩ := scalarOne_find? (p := fun v : Service => v.id == i)
        ⟨v, hv, beq_iff_eq.2 hvid⟩
      exact ⟨some a, bind_eq_ok.2 ⟨a, ha, rfl⟩⟩
  obtain ⟨counts, hcounts, hsum, hcount⟩ := foldlM_groupCount groups
    ((sbomFindings db sbom.id).map fun r => (r.1.severity, r.2.status))
  rw [List.length_map] at hsum
  have hstatus : ∀ status, counts.2.count status =
      (sbomFindings db sbom.id).countP fun r => r.2.status == status := by
    intro status
    rw [hcount, List.countP_map]
    rfl
  refine ⟨_, bind_eq_ok.2 ⟨sbom, loadSbom_eq_ok hsbom hid, bind_eq_ok.2 ⟨project, hproject,
    bind_eq_ok.2 ⟨service, hservice, bind_eq_ok.2 ⟨counts, ?_, rfl⟩⟩⟩⟩, hsum, hsum,
    hstatus .OPEN, hstatus .FIXED⟩
  rw [hcounts]
  rfl

/-- Without a severity the filter `severity` admits everything. -/
theorem findingsOfSeverity_none (rows : List (Vulnerability × SBOMVulnerability)) :
    findingsOfSeverity lower none rows = .ok rows := by
  have hall : findingsOfSeverity lower none rows = .ok (rows.filter fun _ => true) :=
    selectWhere_eq_filter fun _ _ => rfl
  rwa [List.filter_true] at hall

/-- The filter `status` compares statuses. -/
theorem findingsOfStatus_value (status : VulnerabilityStatus)
    (rows : List (Vulnerability × SBOMVulnerability)) :
    findingsOfStatus (some status.value) rows =
      .ok (rows.filter fun r => r.2.status == status) := by
  have hfits : fitsText status.value = true := by cases status <;> decide
  have hlower : ∀ s : VulnerabilityStatus,
      (PyStr.lower s.value == PyStr.lower status.value) = (s == status) := by
    intro s
    cases s <;> cases status <;> decide
  simp only [findingsOfStatus, hfits, if_true, hlower]

section List

variable {κ : Type} [LinearOrder κ] {collate : String → κ} {tie : TieOrder (findingKey collate)}
  {offset limit : ℤ} {status : Option String} {base : List (Vulnerability × SBOMVulnerability)}

variable (db env lower tie sbomId status) in
/-- The list with the filter `status` has `n` findings, on whatever page; it is shown in every
window in range when the details of the vulnerabilities are in order. -/
structure ListTotal (n : ℕ) : Prop where
  total : ∀ offset limit page,
    getSbomVulnerabilities db env lower tie ⟨sbomId, offset, limit, status, none⟩ = .ok page →
      page.total = n
  shown : (∀ v ∈ db.vulnerabilities, ∃ info, fixInfo v = .ok info) → ∀ offset limit,
    0 ≤ offset ∧ offset < 2 ^ 63 → 1 ≤ limit ∧ limit ≤ 500 → ∃ page,
      getSbomVulnerabilities db env lower tie ⟨sbomId, offset, limit, status, none⟩ = .ok page

theorem mem_sbomFindings {r : Vulnerability × SBOMVulnerability} {i : Uuid}
    (h : r ∈ sbomFindings db i) : r.1 ∈ db.vulnerabilities := by
  simp only [sbomFindings, List.mem_flatMap, List.mem_map, List.mem_filter] at h
  obtain ⟨-, -, v, ⟨hv, -⟩, rfl⟩ := h
  exact hv

/-- The total counts what the filter `status` admits. -/
theorem listTotal (hsbom : sbom ∈ db.sboms) (hid : env.parseUuid sbomId = some sbom.id)
    (hstatus : findingsOfStatus status (sbomFindings db sbom.id) = .ok base)
    (hbase : base ⊆ sbomFindings db sbom.id) :
    ListTotal db env sbomId lower tie status base.length := by
  constructor
  · intro offset limit page h
    simp only [getSbomVulnerabilities, bind_eq_ok] at h
    obtain ⟨-, -, s, hs, rows, hrows, rows', hrows', start, -, items, -, hok⟩ := h
    obtain rfl : sbom = s := Except.ok.inj ((loadSbom_eq_ok hsbom hid).symm.trans hs)
    obtain rfl : base = rows := Except.ok.inj (hstatus.symm.trans (mapError_eq_ok hrows))
    obtain rfl : base = rows' :=
      Except.ok.inj ((findingsOfSeverity_none base).symm.trans (mapError_eq_ok hrows'))
    rw [← Except.ok.inj hok]
  · intro hfix offset limit hoffset hlimit
    have hvalid : validatePage offset limit = .ok () := by
      rw [validatePage, if_neg (by omega), if_neg (by omega)]
    have hitem : ∀ r ∈ (((tie.order base).drop offset.toNat).take (limit.toNat + 1)).take
        limit.toNat, ∃ item, sbomVulnerabilityItem r = .ok item ∧ True := by
      intro r hr
      have hmem : r ∈ tie.order base :=
        List.mem_of_mem_drop (List.mem_of_mem_take (List.mem_of_mem_take hr))
      obtain ⟨info, hinfo⟩ :=
        hfix r.1 (mem_sbomFindings (hbase ((tie.perm base).mem_iff.1 hmem)))
      exact ⟨_, bind_eq_ok.2 ⟨info, hinfo, rfl⟩, trivial⟩
    obtain ⟨items, hitems, -⟩ := mapM_isOk.2 hitem
    refine ⟨_, bind_eq_ok.2 ⟨(), hvalid, bind_eq_ok.2 ⟨sbom, loadSbom_eq_ok hsbom hid,
      bind_eq_ok.2 ⟨base, ?_, bind_eq_ok.2 ⟨base, ?_, bind_eq_ok.2 ⟨offset.toNat, ?_,
        bind_eq_ok.2 ⟨items, ?_, rfl⟩⟩⟩⟩⟩⟩⟩
    · rw [hstatus]
      rfl
    · rw [findingsOfSeverity_none]
      rfl
    · rw [offsetParam, if_pos hoffset.2]
      rfl
    · rw [hitems]
      rfl

/-- **The detail of an SBOM agrees with the list of its findings.**  The counts by severity add up
to the open and the fixed count, which together are the total of the list without filters; each of
the two is the total of the list of its status. -/
theorem sbom_detail_agrees (hsbom : sbom ∈ db.sboms) (hid : env.parseUuid sbomId = some sbom.id)
    (groups : Arrangement (SeverityStatus × ℕ)) (lower : String → String)
    (tie : TieOrder (findingKey collate)) :
    ∃ detail, getSbom db env groups sbomId = .ok detail ∧
      detail.vulnerabilityCounts.sum = detail.openCount + detail.fixedCount ∧
      detail.vulnerabilityCounts.total = detail.openCount + detail.fixedCount ∧
      ListTotal db env sbomId lower tie none (detail.openCount + detail.fixedCount) ∧
      ListTotal db env sbomId lower tie (some "open") detail.openCount ∧
      ListTotal db env sbomId lower tie (some "fixed") detail.fixedCount := by
  obtain ⟨detail, hok, hsum, htotal, hopen, hfixed⟩ := getSbom_eq_ok hsbom hid groups
  have hall : detail.openCount + detail.fixedCount = (sbomFindings db sbom.id).length := by
    rw [hopen, hfixed, ← List.length_map fun r => (r.1.severity, r.2.status),
      ← countP_open_add_countP_fixed, List.countP_map, List.countP_map]
    rfl
  refine ⟨detail, hok, hsum.trans hall.symm, htotal.trans hall.symm, ?_, ?_, ?_⟩
  · rw [hall]
    exact listTotal hsbom hid rfl (List.Subset.refl _)
  · rw [hopen, List.countP_eq_length_filter]
    exact listTotal hsbom hid (findingsOfStatus_value .OPEN _) (List.filter_subset_self _)
  · rw [hfixed, List.countP_eq_length_filter]
    exact listTotal hsbom hid (findingsOfStatus_value .FIXED _) (List.filter_subset_self _)

end List

/-- The release whose only finding is gone. -/
theorem sbom_detail_agrees_demo :
    ∃ detail, getSbom demoRetired.db demoEnv (storedOrder _) (demoEnv.strUuid 10) = .ok detail ∧
      detail.fixedCount = 1 ∧ detail.vulnerabilityCounts.sum = detail.openCount + 1 ∧
      ∃ page, getSbomVulnerabilities demoRetired.db demoEnv PyStr.lower
          (.ofArrangement (findingKey id) (storedOrder _))
          ⟨demoEnv.strUuid 10, 0, 50, some "fixed", none⟩ = .ok page ∧ page.total = 1 := by
  obtain ⟨sbom, hs, hid⟩ : ∃ s ∈ demoRetired.db.sboms, s.id = 10 := by decide +kernel
  have hparse : demoEnv.parseUuid (demoEnv.strUuid 10) = some sbom.id := by
    rw [hid]
    exact demoEnv.parseUuid_strUuid 10
  obtain ⟨detail, hok, hsum, -, -, -, hfixed⟩ := sbom_detail_agrees hs hparse (storedOrder _)
    PyStr.lower (.ofArrangement (findingKey id) (storedOrder _))
  have hone : ∃ detail, getSbom demoRetired.db demoEnv (storedOrder _) (demoEnv.strUuid 10) =
      .ok detail ∧ detail.fixedCount = 1 := by
    decide +kernel
  obtain ⟨detail', hok', hone⟩ := hone
  obtain rfl : detail = detail' := Except.ok.inj (hok.symm.trans hok')
  have hfix : ∀ v ∈ demoRetired.db.vulnerabilities, ∃ info, fixInfo v = .ok info ∧ True := by
    decide +kernel
  obtain ⟨page, hpage⟩ := hfixed.shown (fun v hv => (hfix v hv).imp fun _ h => h.1) 0 50
    (by decide) (by decide)
  rw [hone] at hsum hfixed
  exact ⟨detail, hok, hone, hsum, page, hpage, hfixed.total 0 50 page hpage⟩

end ArgusSbomGuard
