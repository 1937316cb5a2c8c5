import ArgusSbomGuard.Relational.Query
import ArgusSbomGuard.Risk.Actionable

/-!
# Counting findings by severity

The query that the counters start from, the vulnerabilities joined with some of their links and
SBOMs, and the ways in which its rows are counted: with `ILIKE` in the database, key by key in a
dictionary, or by comparing lowered texts.  Whatever the way, the count of a severity is the number
of vulnerabilities that have the severity and such a link (`severityCounts`).

## Main definitions

* `OpenCounts`, `SeverityCounts` : counts by severity.
* `severityRows` : the query.
* `countIlike`, `tally`, `countLower` : the ways of counting.
* `severityCounts` : what they count.
-/

namespace ArgusSbomGuard

/-- The counts of the severities that are known. -/
structure OpenCounts where
  critical : ℕ
  high : ℕ
  medium : ℕ
  low : ℕ
  deriving DecidableEq

/-- `SeverityCounts`. -/
structure SeverityCounts extends OpenCounts where
  unknown : ℕ
  deriving DecidableEq

def OpenCounts.of (count : VulnerabilitySeverity → ℕ) : OpenCounts :=
  ⟨count .CRITICAL, count .HIGH, count .MEDIUM, count .LOW⟩

theorem OpenCounts.of_congr {f g : VulnerabilitySeverity → ℕ}
    (h : ∀ severity, severity ≠ .UNKNOWN → f severity = g severity) : of f = of g := by
  rw [of, of, h .CRITICAL nofun, h .HIGH nofun, h .MEDIUM nofun, h .LOW nofun]

/-- `sum(counts.values())`. -/
def SeverityCounts.sum (counts : SeverityCounts) : ℕ :=
  counts.critical + counts.high + counts.medium + counts.low + counts.unknown

/-- The identifier and the severity of a vulnerability, as they are selected. -/
abbrev SeverityRow := Uuid × Option VulnerabilitySeverity

variable (db : Database)

/-- The vulnerabilities joined with their links and the SBOMs of these, `WHERE p`. -/
def severityRows (p : SBOMVulnerability → SBOM → Bool) : List SeverityRow :=
  (joinLinks db p).flatMap fun ls =>
    (db.vulnerabilities.rows.filter fun v => v.id == ls.1.vulnerabilityId).map fun v =>
      (v.id, v.severity)

/-- The vulnerabilities of a severity with a link that satisfies `p`. -/
def ratedWith (p : SBOMVulnerability → SBOM → Bool) (severity : VulnerabilitySeverity) :
    Set Uuid :=
  {v | (v, some severity) ∈ severityRows db p}

/-- The numbers of vulnerabilities with a link that satisfies `p`, by severity. -/
noncomputable def severityCounts (p : SBOMVulnerability → SBOM → Bool) : OpenCounts :=
  .of fun severity => (ratedWith db p severity).ncard

/-! ### Three ways of counting -/

/-- `text ILIKE pattern`, for a pattern without wildcards. -/
def ilikeLiteral (text pattern : String) : Bool := PyStr.lower text == PyStr.lower pattern

/-- `count(*) FILTER (WHERE severity ILIKE pattern)`. -/
def countIlike (rows : List SeverityRow) (pattern : String) : ℕ :=
  rows.countP fun row => row.2.any fun severity => ilikeLiteral severity.value pattern

/-- `counts[key] += 1`. -/
def SeverityCounts.bump (counts : SeverityCounts) (key : String) :
    Except PyError SeverityCounts :=
  match key with
  | "critical" => .ok { counts with critical := counts.critical + 1 }
  | "high" => .ok { counts with high := counts.high + 1 }
  | "medium" => .ok { counts with medium := counts.medium + 1 }
  | "low" => .ok { counts with low := counts.low + 1 }
  | "unknown" => .ok { counts with unknown := counts.unknown + 1 }
  | _ => .error .keyError

/-- `"unknown" if severity is None else str(severity).lower()`. -/
def severityKey : Option VulnerabilitySeverity → String
  | none => "unknown"
  | some severity => PyStr.lower severity.value

/-- The counts after going through the rows. -/
def tally (rows : List SeverityRow) : Except PyError SeverityCounts :=
  rows.foldlM (fun counts row => counts.bump (severityKey row.2)) ⟨⟨0, 0, 0, 0⟩, 0⟩

/-- `[severity.lower() for severity in total_dict.values()]`, of rows with a severity. -/
def loweredSeverities (rows : List SeverityRow) : List String :=
  (rows.filterMap (·.2)).map fun severity => PyStr.lower severity.value

/-- `sum(1 for severity in severities if severity == value.lower())`. -/
def countLower (severities : List String) (value : VulnerabilitySeverity) : ℕ :=
  severities.countP fun severity => severity == PyStr.lower value.value

theorem lower_value_inj {a b : VulnerabilitySeverity} :
    PyStr.lower a.value = PyStr.lower b.value ↔ a = b := by
  cases a <;> cases b <;> decide

theorem countIlike_value (rows : List SeverityRow) (severity : VulnerabilitySeverity) :
    countIlike rows severity.value = rows.countP fun row => row.2 == some severity := by
  refine List.countP_congr fun row _ => ?_
  cases row.2 with
  | none => exact iff_of_false nofun nofun
  | some s =>
    simp only [Option.any_some, ilikeLiteral, beq_iff_eq, lower_value_inj, Option.some.injEq]

theorem countLower_rows (rows : List SeverityRow) (severity : VulnerabilitySeverity) :
    countLower (loweredSeverities rows) severity =
      rows.countP fun row => row.2 == some severity := by
  rw [countLower, loweredSeverities, List.countP_map, List.countP_filterMap]
  refine List.countP_congr fun row _ => ?_
  cases row.2 with
  | none => exact iff_of_false nofun nofun
  | some s => simp [lower_value_inj]

/-- The counts with one more of a severity; what has no severity is unknown. -/
def SeverityCounts.add (counts : SeverityCounts) : Option VulnerabilitySeverity → SeverityCounts
  | some .CRITICAL => { counts with critical := counts.critical + 1 }
  | some .HIGH => { counts with high := counts.high + 1 }
  | some .MEDIUM => { counts with medium := counts.medium + 1 }
  | some .LOW => { counts with low := counts.low + 1 }
  | some .UNKNOWN => { counts with unknown := counts.unknown + 1 }
  | none => { counts with unknown := counts.unknown + 1 }

/-- Every severity has its key. -/
theorem bump_severityKey (counts : SeverityCounts) (severity : Option VulnerabilitySeverity) :
    counts.bump (severityKey severity) = .ok (counts.add severity) := by
  rcases severity with _ | severity
  · rfl
  · cases severity <;> rfl

theorem foldlM_bump (rows : List SeverityRow) (counts : SeverityCounts) :
    rows.foldlM (fun counts row => counts.bump (severityKey row.2)) counts =
      .ok (rows.foldl (fun counts row => counts.add row.2) counts) := by
  induction rows generalizing counts with
  | nil => rfl
  | cons row rows ih =>
    rw [List.foldlM_cons, bump_severityKey, List.foldl_cons]
    exact ih (counts.add row.2)

namespace SeverityCounts

/-- The count under the key of a severity. -/
def count (counts : SeverityCounts) : VulnerabilitySeverity → ℕ
  | .CRITICAL => counts.critical
  | .HIGH => counts.high
  | .MEDIUM => counts.medium
  | .LOW => counts.low
  | .UNKNOWN => counts.unknown

theorem count_add (counts : SeverityCounts) (o : Option VulnerabilitySeverity)
    (severity : VulnerabilitySeverity) : (counts.add o).count severity =
      counts.count severity + if o.getD .UNKNOWN == severity then 1 else 0 := by
  rcases o with _ | o
  · cases severity <;> rfl
  · cases o <;> cases severity <;> rfl

theorem count_foldl_add (rows : List SeverityRow) (counts : SeverityCounts)
    (severity : VulnerabilitySeverity) :
    (rows.foldl (fun counts row => counts.add row.2) counts).count severity =
      counts.count severity + rows.countP fun row => row.2.getD .UNKNOWN == severity := by
  induction rows generalizing counts with
  | nil => rfl
  | cons row rows ih =>
    rw [List.foldl_cons, ih, count_add, List.countP_cons]
    omega

theorem sum_add (counts : SeverityCounts) (o : Option VulnerabilitySeverity) :
    (counts.add o).sum = counts.sum + 1 := by
  rcases o with _ | o
  · rfl
  · cases o <;> simp only [add, sum] <;> omega

theorem sum_foldl_add (rows : List SeverityRow) (counts : SeverityCounts) :
    (rows.foldl (fun counts row => counts.add row.2) counts).sum = counts.sum + rows.length := by
  induction rows generalizing counts with
  | nil => rfl
  | cons row rows ih =>
    rw [List.foldl_cons, ih, sum_add, List.length_cons]
    omega

end SeverityCounts

/-- What has no severity has none of the known ones. -/
theorem getD_unknown_beq {severity : VulnerabilitySeverity} (hknown : severity ≠ .UNKNOWN)
    (o : Option VulnerabilitySeverity) :
    (o.getD .UNKNOWN == severity) = true ↔ (o == some severity) = true := by
  cases o with
  | none => exact iff_of_false (fun h => hknown (beq_iff_eq.1 h).symm) nofun
  | some s => rw [Option.getD_some, beq_iff_eq, beq_iff_eq, Option.some.injEq]

/-- The dictionary counts the rows of each known severity, and all rows in total. -/
theorem tally_eq_ok (rows : List SeverityRow) : ∃ counts, tally rows = .ok counts ∧
    counts.toOpenCounts = .of (fun severity => rows.countP fun row => row.2 == some severity) ∧
    counts.sum = rows.length := by
  refine ⟨_, foldlM_bump rows _, ?_, ?_⟩
  · refine OpenCounts.of_congr (f := SeverityCounts.count _) fun severity hknown => ?_
    have hzero : SeverityCounts.count ⟨⟨0, 0, 0, 0⟩, 0⟩ severity = 0 := by
      cases severity <;> rfl
    rw [SeverityCounts.count_foldl_add, hzero, Nat.zero_add]
    exact List.countP_congr fun row _ => getD_unknown_beq hknown row.2
  · rw [SeverityCounts.sum_foldl_add]
    exact Nat.zero_add _

/-! ### What they count -/

variable {db} {p : SBOMVulnerability → SBOM → Bool}

theorem mem_severityRows {v : Uuid} {severity : Option VulnerabilitySeverity} :
    (v, severity) ∈ severityRows db p ↔ ∃ l ∈ db.links, ∃ s ∈ db.sboms, s.id = l.sbomId ∧
      p l s = true ∧ l.vulnerabilityId = v ∧
        ∃ r ∈ db.vulnerabilities, r.id = v ∧ r.severity = severity := by
  simp only [severityRows, List.mem_flatMap, Prod.exists, mem_joinLinks, List.mem_map,
    List.mem_filter, beq_iff_eq, Table.mem_rows, Prod.mk.injEq]
  constructor
  · rintro ⟨l, s, ⟨hl, hs, hid, hp⟩, r, ⟨hr, hrl⟩, rfl, rfl⟩
    exact ⟨l, hl, s, hs, hid, hp, hrl.symm, r, hr, rfl, rfl⟩
  · rintro ⟨l, hl, s, hs, hid, hp, rfl, r, hr, hrl, rfl⟩
    exact ⟨l, s, ⟨hl, hs, hid, hp⟩, r, ⟨hr, hrl⟩, hrl, rfl⟩

/-- A vulnerability has one severity, in however many rows it is. -/
theorem severityRows_determines : Determines Prod.fst (severityRows db p) := by
  rintro ⟨v, severity⟩ ha ⟨v', severity'⟩ hb (rfl : v = v')
  obtain ⟨_, -, _, -, -, -, -, r, hr, hrv, rfl⟩ := mem_severityRows.1 ha
  obtain ⟨_, -, _, -, -, -, -, r', hr', hrv', rfl⟩ := mem_severityRows.1 hb
  rw [Table.eq_of_clash hr hr' (.inl (hrv.trans hrv'.symm))]

theorem countDistinct_severityRows (severity : VulnerabilitySeverity) :
    countDistinct (((severityRows db p).filter fun row => row.2 == some severity).map Prod.fst) =
      (ratedWith db p severity).ncard := by
  rw [countDistinct_eq_ncard]
  refine congrArg Set.ncard (Set.ext fun v => ?_)
  change v ∈ List.map _ _ ↔ (v, some severity) ∈ severityRows db p
  simp only [List.mem_map, List.mem_filter, beq_iff_eq, Prod.exists, exists_and_right,
    exists_eq_right]

/-- `SELECT DISTINCT`, counted with `ILIKE`. -/
theorem countIlike_distinct :
    OpenCounts.of (fun severity => countIlike (severityRows db p).dedup severity.value) =
      severityCounts db p := by
  refine OpenCounts.of_congr fun severity _ => ?_
  rw [countIlike_value, countP_dedup severityRows_determines, countDistinct_severityRows]

/-- `SELECT DISTINCT ON`, counted in a dictionary. -/
theorem tally_distinctOn (arrangement : Arrangement SeverityRow) :
    ∃ counts, tally (distinctOn Prod.fst (arrangement.order (severityRows db p))) = .ok counts ∧
      counts.toOpenCounts = severityCounts db p ∧
      counts.sum = countDistinct ((severityRows db p).map Prod.fst) := by
  obtain ⟨counts, hok, hopen, hsum⟩ :=
    tally_eq_ok (distinctOn Prod.fst (arrangement.order (severityRows db p)))
  refine ⟨counts, hok, hopen.trans (OpenCounts.of_congr fun severity _ => ?_), ?_⟩
  · rw [countP_distinctOn severityRows_determines, countDistinct_severityRows]
  · rw [hsum, ← List.countP_true, countP_distinctOn severityRows_determines, List.filter_true]

/-- `SELECT DISTINCT ON` of the rows with a severity, counted by their lowered texts. -/
theorem countLower_distinctOn (arrangement : Arrangement SeverityRow) :
    OpenCounts.of (countLower (loweredSeverities (distinctOn Prod.fst (arrangement.order
      ((severityRows db p).filter fun row => row.2.isSome))))) = severityCounts db p := by
  have hdet : Determines Prod.fst ((severityRows db p).filter fun row => row.2.isSome) :=
    fun a ha b hb => severityRows_determines a (List.mem_filter.1 ha).1 b (List.mem_filter.1 hb).1
  refine OpenCounts.of_congr fun severity _ => ?_
  rw [countLower_rows, countP_distinctOn hdet, ← countDistinct_severityRows, List.filter_filter]
  refine congrArg (fun rows : List SeverityRow => countDistinct (rows.map Prod.fst)) ?_
  refine List.filter_congr fun row _ => ?_
  cases row.2 with
  | none => rfl
  | some s => exact Bool.and_true _

end ArgusSbomGuard
