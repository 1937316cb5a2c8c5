import ArgusSbomGuard.Metrics.Counters

/-!
# Daily snapshots

`do_snapshot_metrics` of `services/snapshots.py` and the table `vulnerability_snapshots`.  A run
computes the figures of a day and writes them to the global row of the day, the one without a
project; the partial unique index leaves room for one such row a day.

The day of a run is today or a given one.  Today's open findings are those of the counters; for
any other day they are reconstructed from the times of the links.

## Main definitions

* `VulnerabilitySnapshot` : a row.
* `snapshotFigures` : the figures of a day.
* `doSnapshotMetrics` : a run.
* `globalRow` : the row that the charts show for a day.
-/

namespace ArgusSbomGuard

/-- The columns `critical_count`, `high_count`, `medium_count`, `low_count`, `fixed_count` and
`total_dependencies`. -/
structure SnapshotFigures extends OpenCounts where
  fixed : ℕ
  totalDependencies : ℕ
  deriving DecidableEq

/-- A row of `vulnerability_snapshots`. -/
structure VulnerabilitySnapshot where
  id : Uuid
  projectId : Option Uuid
  snapshotDate : Date
  figures : SnapshotFigures
  deriving DecidableEq

/-- The unique constraint on the project and the date, and the partial index for rows without a
project. -/
instance : UniqueKeys VulnerabilitySnapshot where
  Clash a b := a.id = b.id ∨ (a.projectId = b.projectId ∧ a.snapshotDate = b.snapshotDate)
  decClash _ _ := inferInstanceAs (Decidable (_ ∨ _))
  clash_symm := by
    rintro a b (h | h)
    · exact .inl h.symm
    · exact .inr ⟨h.1.symm, h.2.symm⟩

/-- What a run gets from outside: `date.fromisoformat`, the two readings of `date.today()`, a new
identifier and the order of the rows of its query. -/
structure SnapshotInput where
  fromisoformat : String → Option Date
  today : Date
  todayAgain : Date
  newId : Uuid
  totals : Arrangement SeverityRow

variable (db : Database) (inp : SnapshotInput)

/-! ### The figures of a day -/

/-- `target_date`; an empty text is like none. -/
def SnapshotInput.targetDate (snapshotDate : Option String) : Except PyError Date :=
  match snapshotDate.filter (· ≠ "") with
  | none => .ok inp.today
  | some s => match inp.fromisoformat s with
    | some d => .ok d
    | none => .error .valueError

/-- The link was open at an instant, and not accepted by then. -/
def openAt (dayEnd : DateTime) (l : SBOMVulnerability) (s : SBOM) : Bool :=
  decide (l.detectedAt ≤ dayEnd) && (l.fixedAt.all fun t => decide (dayEnd < t)) &&
    !coveredByAcceptance db l s (some dayEnd)

/-- The links that count as open on a day. -/
def openOnDay (targetDate : Date) : SBOMVulnerability → SBOM → Bool :=
  if targetDate = inp.todayAgain then actionable db else openAt db targetDate.lastInstant

/-- `total_dict`; its keys are distinct already. -/
def totalRows (targetDate : Date) : List SeverityRow :=
  distinctOn Prod.fst (inp.totals.order
    ((severityRows db (openOnDay db inp targetDate)).filter fun row => row.2.isSome))

/-- `fixed_val`. -/
def fixedBy (targetDate : Date) : ℕ :=
  countDistinct ((db.links.rows.filter fun l =>
    l.status == .FIXED && l.fixedAt.any fun t => decide (t.date ≤ targetDate)).map
      (·.vulnerabilityId))

/-- `dep_count_val`; the database compares the instant with the start of the date. -/
def dependenciesBy (targetDate : Date) : ℕ :=
  ((db.sboms.rows.filter fun s => decide (s.createdAt ≤ targetDate.start)).flatMap fun s =>
    db.dependencies.rows.filter fun d => d.sbomId == s.id).length

def snapshotFigures (targetDate : Date) : SnapshotFigures where
  toOpenCounts := .of (countLower (loweredSeverities (totalRows db inp targetDate)))
  fixed := fixedBy db targetDate
  totalDependencies := dependenciesBy db targetDate

/-! ### The global row -/

/-- The row is the global one of the day. -/
def isGlobal (date : Date) (row : VulnerabilitySnapshot) : Bool :=
  row.projectId == none && row.snapshotDate == date

/-- The global row of a day. -/
def globalRow (snapshots : Table VulnerabilitySnapshot) (date : Date) :
    Option VulnerabilitySnapshot :=
  snapshots.find? (isGlobal date)

/-- `INSERT ... ON CONFLICT (snapshot_date) WHERE project_id IS NULL DO UPDATE`. -/
def upsertGlobal (snapshots : Table VulnerabilitySnapshot) (newId : Uuid) (date : Date)
    (figures : SnapshotFigures) : Except PyError (Table VulnerabilitySnapshot) :=
  if ∃ row ∈ snapshots, isGlobal date row = true then
    .ok (snapshots.updateWhere (isGlobal date) (fun row => { row with figures })
      fun _ _ => Iff.rfl)
  else match snapshots.insert? ⟨newId, none, date, figures⟩ with
    | some snapshots => .ok snapshots
    | none => .error .integrityError

/-- `do_snapshot_metrics`. -/
def doSnapshotMetrics (snapshots : Table VulnerabilitySnapshot) (snapshotDate : Option String) :
    Except PyError (Table VulnerabilitySnapshot) := do
  let targetDate ← inp.targetDate snapshotDate
  upsertGlobal snapshots inp.newId targetDate (snapshotFigures db inp targetDate)

/-! ### What a run writes -/

variable {db} {inp} {snapshots snapshots' : Table VulnerabilitySnapshot} {newId : Uuid}
  {date : Date} {figures : SnapshotFigures} {row : VulnerabilitySnapshot}

theorem isGlobal_iff : isGlobal date row = true ↔
    row.projectId = none ∧ row.snapshotDate = date := by
  rw [isGlobal, Bool.and_eq_true, beq_iff_eq, beq_iff_eq]

/-- A day has one global row. -/
theorem globalRow_eq_some (hrow : row ∈ snapshots) (hglobal : isGlobal date row = true) :
    globalRow snapshots date = some row := by
  refine Table.find?_eq_some hrow hglobal fun a ha => .inr ?_
  rw [isGlobal_iff] at ha hglobal
  exact ⟨ha.1.trans hglobal.1.symm, ha.2.trans hglobal.2.symm⟩

theorem upsertGlobal_isOk (hid : ∀ row ∈ snapshots, row.id ≠ newId) :
    ∃ snapshots', upsertGlobal snapshots newId date figures = .ok snapshots' := by
  unfold upsertGlobal
  split_ifs with hday
  · exact ⟨_, rfl⟩
  · cases hins : snapshots.insert? ⟨newId, none, date, figures⟩ with
    | some t => exact ⟨t, rfl⟩
    | none =>
      obtain ⟨row, hrow, hsame | ⟨hproject, hdate⟩⟩ := Table.insert?_eq_none.1 hins
      · exact absurd hsame (hid row hrow)
      · exact absurd ⟨row, hrow, isGlobal_iff.2 ⟨hproject, hdate⟩⟩ hday

theorem globalRow_upsertGlobal (h : upsertGlobal snapshots newId date figures = .ok snapshots') :
    ∃ row, globalRow snapshots' date = some row ∧ row.figures = figures := by
  unfold upsertGlobal at h
  split_ifs at h with hday
  · obtain ⟨row, hrow, hglobal⟩ := hday
    cases h
    refine ⟨{ row with figures }, globalRow_eq_some ?_ hglobal, rfl⟩
    exact Table.mem_updateWhere.2 ⟨row, hrow, if_pos hglobal⟩
  · split at h
    · rename_i t hins
      cases h
      refine ⟨⟨newId, none, date, figures⟩, globalRow_eq_some ?_ (isGlobal_iff.2 ⟨rfl, rfl⟩), rfl⟩
      exact (Table.mem_insert? hins).2 (.inr rfl)
    · cases h

variable (db) in
/-- A run leaves the figures of its day in the global row. -/
theorem doSnapshotMetrics_global {snapshotDate : Option String}
    (hdate : inp.targetDate snapshotDate = .ok date)
    (hid : ∀ row ∈ snapshots, row.id ≠ inp.newId) :
    ∃ snapshots', doSnapshotMetrics db inp snapshots snapshotDate = .ok snapshots' ∧
      ∃ row, globalRow snapshots' date = some row ∧
        row.figures = snapshotFigures db inp date := by
  obtain ⟨snapshots', hok⟩ : ∃ snapshots', upsertGlobal snapshots inp.newId date
    (snapshotFigures db inp date) = .ok snapshots' := upsertGlobal_isOk hid
  exact ⟨snapshots', bind_eq_ok.2 ⟨date, hdate, hok⟩, globalRow_upsertGlobal hok⟩

/-- The open counts of a day are those of the links that count as open on it. -/
theorem snapshotFigures_open :
    (snapshotFigures db inp date).toOpenCounts = severityCounts db (openOnDay db inp date) :=
  countLower_distinctOn inp.totals

end ArgusSbomGuard
