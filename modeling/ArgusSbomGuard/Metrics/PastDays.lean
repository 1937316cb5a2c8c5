import ArgusSbomGuard.Metrics.History
import ArgusSbomGuard.Metrics.Posture

/-!
# The snapshots of days that are over

For a day that is over a snapshot has two conditions on the links, with bounds of their own: open at
the last instant of the day, and fixed by its date.  Every link that was detected by then satisfies
one of them, and the open counts are the sizes of disjoint buckets (`past_day_partition`).

When nothing happened after a day, the findings that count for it are those that count for any later
one.  Its dependencies are too, unless their SBOM was created after its first instant, which is
what the creation is compared with (`quiet_days_iff`).

## Main definitions

* `SBOMVulnerability.openOn`, `SBOMVulnerability.fixedOn` : the two conditions.
* `openVulnerabilities`, `openBucket` : the vulnerabilities that are open on a day, and those of a
  severity.
* `QuietSince` : a state in which nothing happened after an instant.
-/

namespace ArgusSbomGuard

/-- Detected by the end of the day and not fixed by then. -/
def SBOMVulnerability.openOn (l : SBOMVulnerability) (D : Date) : Bool :=
  decide (l.detectedAt ≤ D.lastInstant) && l.fixedAt.all fun t => decide (D.lastInstant < t)

/-- Fixed, with a date that is not later, as `fixedBy` counts. -/
def SBOMVulnerability.fixedOn (l : SBOMVulnerability) (D : Date) : Bool :=
  l.status == .FIXED && l.fixedAt.any fun t => decide (t.date ≤ D)

/-- The vulnerabilities with a link that was open on the day. -/
def openVulnerabilities (db : Database) (D : Date) : Set Uuid :=
  {v | ∃ l ∈ db.links, l.openOn D = true ∧ l.vulnerabilityId = v}

/-- Those of a severity. -/
def openBucket (db : Database) (D : Date) (severity : VulnerabilitySeverity) : Set Uuid :=
  {v | v ∈ openVulnerabilities db D ∧ RatedAs db v severity}

/-- No SBOM was created, and nothing detected, fixed or accepted, after `now`. -/
structure QuietSince (now : DateTime) (db : Database) : Prop extends NothingAfter now db where
  created : ∀ s ∈ db.sboms, s.createdAt ≤ now

instance (now : DateTime) (db : Database) : Decidable (QuietSince now db) :=
  decidable_of_iff (NothingAfter now db ∧ ∀ s ∈ db.sboms, s.createdAt ≤ now)
    ⟨fun ⟨h, hc⟩ => ⟨h, hc⟩, fun h => ⟨h.toNothingAfter, h.created⟩⟩

variable {db : Database} {D D' : Date} {l : SBOMVulnerability} {v : Uuid}
  {severity : VulnerabilitySeverity} {inp inp' : SnapshotInput}

/-! ### Open or fixed -/

/-- The open counts of a past day are about the first condition. -/
theorem openAt_lastInstant (s : SBOM) : openAt db D.lastInstant l s =
    (l.openOn D && !coveredByAcceptance db l s (some D.lastInstant)) := rfl

/-- A link that was detected by the end of the day is open on it or fixed on it. -/
theorem openOn_xor_fixedOn (hinv : LinkCoherent db) (hl : l ∈ db.links)
    (hdetected : l.detectedAt ≤ D.lastInstant) : Xor (l.openOn D = true) (l.fixedOn D = true) := by
  rw [SBOMVulnerability.openOn, decide_eq_true hdetected, Bool.true_and,
    SBOMVulnerability.fixedOn]
  cases hfixed : l.fixedAt with
  | none =>
    refine .inl ⟨rfl, ?_⟩
    rw [Option.any_none, Bool.and_false]
    exact Bool.false_ne_true
  | some t =>
    have hst : l.status = .FIXED := (hinv l hl).2 (by rw [hfixed]; rfl)
    rw [hst, Option.all_some, Option.any_some, beq_self_eq_true, Bool.true_and,
      decide_eq_true_eq, decide_eq_true_eq, date_le_iff]
    rcases lt_or_ge D.lastInstant t with hlt | hle
    · exact .inl ⟨hlt, not_le.2 hlt⟩
    · exact .inr ⟨hle, not_lt.2 hle⟩

/-! ### The buckets -/

/-- Rows with a severity are counted under one of the five. -/
theorem length_eq_sum_countP {rows : List SeverityRow} (hrated : ∀ row ∈ rows, row.2 ≠ none) :
    (rows.countP fun row => row.2 == some .CRITICAL) +
        (rows.countP fun row => row.2 == some .HIGH) +
        (rows.countP fun row => row.2 == some .MEDIUM) +
        (rows.countP fun row => row.2 == some .LOW) +
      (rows.countP fun row => row.2 == some .UNKNOWN) = rows.length := by
  induction rows with
  | nil => rfl
  | cons row rows ih =>
    have ih := ih fun r hr => hrated r (List.mem_cons_of_mem _ hr)
    obtain ⟨v, _ | severity⟩ := row
    · exact absurd rfl (hrated _ List.mem_cons_self)
    · simp only [List.countP_cons, List.length_cons, ← ih]
      cases severity <;> simp <;> omega

/-- The numbers of vulnerabilities of each severity add up when every vulnerability has one. -/
theorem sum_ncard_ratedWith {p : SBOMVulnerability → SBOM → Bool}
    (hrated : ∀ r ∈ db.vulnerabilities, r.severity ≠ none) :
    (ratedWith db p .CRITICAL).ncard + (ratedWith db p .HIGH).ncard +
        (ratedWith db p .MEDIUM).ncard + (ratedWith db p .LOW).ncard +
      (ratedWith db p .UNKNOWN).ncard = countDistinct ((severityRows db p).map Prod.fst) := by
  have hcount : ∀ severity, (ratedWith db p severity).ncard =
      (severityRows db p).dedup.countP fun row => row.2 == some severity := by
    intro severity
    rw [countP_dedup severityRows_determines, countDistinct_severityRows]
  have hall : (severityRows db p).dedup.countP (fun _ => true) =
      countDistinct (((severityRows db p).filter fun _ => true).map Prod.fst) :=
    countP_dedup severityRows_determines fun _ => true
  rw [List.countP_true, List.filter_true] at hall
  rw [hcount, hcount, hcount, hcount, hcount, ← hall]
  refine length_eq_sum_countP fun row hrow => ?_
  obtain ⟨_, -, _, -, -, -, -, r, hr, -, hsev⟩ := mem_severityRows.1 (List.mem_dedup.1 hrow)
  exact hsev ▸ hrated r hr

/-- Without acceptances the rows that count for a past day are those of its buckets. -/
theorem ratedWith_openAt (hfree : ∀ a, a ∉ db.riskAcceptances) :
    ratedWith db (openAt db D.lastInstant) severity = openBucket db D severity := by
  have huncovered : ∀ (l : SBOMVulnerability) (s : SBOM) (t : Option DateTime),
      coveredByAcceptance db l s t = false := by
    intro l s t
    exact List.any_eq_false.2 fun a ha => absurd ha (hfree a)
  refine Set.ext fun v => mem_ratedWith_openAt.trans (and_congr_left fun _ => ?_)
  constructor
  · rintro ⟨l, hl, s, -, -, hopen, hv⟩
    rw [openAt_lastInstant, Bool.and_eq_true] at hopen
    exact ⟨l, hl, hopen.1, hv⟩
  · rintro ⟨l, hl, hopen, hv⟩
    obtain ⟨s, hs, hid⟩ := db.linksSbom l hl
    refine ⟨l, hl, s, hs, hid, ?_, hv⟩
    rw [openAt_lastInstant, hopen, huncovered]
    rfl

theorem exists_openBucket (hrated : ∀ r ∈ db.vulnerabilities, r.severity ≠ none)
    (hv : v ∈ openVulnerabilities db D) : ∃ severity, v ∈ openBucket db D severity := by
  obtain ⟨l, hl, -, rfl⟩ := id hv
  obtain ⟨r, hr, hid⟩ := db.linksVulnerability l hl
  obtain ⟨severity, hsev⟩ := Option.ne_none_iff_exists'.1 (hrated r hr)
  exact ⟨severity, hv, r, hr, hid, hsev⟩

/-- No vulnerability is in two buckets. -/
theorem openBucket_unique {severity' : VulnerabilitySeverity} (h : v ∈ openBucket db D severity)
    (h' : v ∈ openBucket db D severity') : severity = severity' := by
  obtain ⟨-, r, hr, rfl, hsev⟩ := h
  exact Option.some.inj (hsev.symm.trans ((ratedAs_iff hr).1 h'.2))

/-- The buckets hold the open vulnerabilities. -/
theorem sum_ncard_openBucket (hfree : ∀ a, a ∉ db.riskAcceptances)
    (hrated : ∀ r ∈ db.vulnerabilities, r.severity ≠ none) :
    (openBucket db D .CRITICAL).ncard + (openBucket db D .HIGH).ncard +
        (openBucket db D .MEDIUM).ncard + (openBucket db D .LOW).ncard +
      (openBucket db D .UNKNOWN).ncard = (openVulnerabilities db D).ncard := by
  have hsum := sum_ncard_ratedWith (p := openAt db D.lastInstant) hrated
  simp only [ratedWith_openAt hfree] at hsum
  rw [hsum, countDistinct_eq_ncard]
  refine congrArg Set.ncard (Set.ext fun v => ?_)
  change v ∈ List.map _ _ ↔ _
  rw [List.mem_map]
  constructor
  · rintro ⟨⟨v, severity⟩, hrow, rfl⟩
    obtain ⟨l, hl, s, -, -, hopen, hv, -⟩ := mem_severityRows.1 hrow
    rw [openAt_lastInstant, Bool.and_eq_true] at hopen
    exact ⟨l, hl, hopen.1, hv⟩
  · intro hv
    obtain ⟨severity, hbucket⟩ := exists_openBucket hrated hv
    rw [← ratedWith_openAt hfree] at hbucket
    exact ⟨_, hbucket, rfl⟩

/-- **The snapshot of a past day partitions the links.**  Each link that was detected by then is
either open on the day or fixed on it; and without acceptances, when every vulnerability has a
severity, the run counts each open vulnerability in one bucket. -/
theorem past_day_partition (hinv : LinkCoherent db) {snapshotDate : Option String}
    (hdate : inp.targetDate snapshotDate = .ok D) (hpast : D < inp.todayAgain)
    {snapshots : Table VulnerabilitySnapshot} (hid : ∀ row ∈ snapshots, row.id ≠ inp.newId) :
    (∀ l ∈ db.links, l.detectedAt ≤ D.lastInstant →
        Xor (l.openOn D = true) (l.fixedOn D = true)) ∧
      ∃ snapshots', doSnapshotMetrics db inp snapshots snapshotDate = .ok snapshots' ∧
        ∃ row, globalRow snapshots' D = some row ∧
          ((∀ a, a ∉ db.riskAcceptances) → (∀ r ∈ db.vulnerabilities, r.severity ≠ none) →
            row.figures.toOpenCounts = .of (fun severity => (openBucket db D severity).ncard) ∧
              row.figures.critical + row.figures.high + row.figures.medium + row.figures.low +
                (openBucket db D .UNKNOWN).ncard = (openVulnerabilities db D).ncard ∧
              ∀ v ∈ openVulnerabilities db D, ∃! severity, v ∈ openBucket db D severity) := by
  refine ⟨fun l hl => openOn_xor_fixedOn hinv hl, ?_⟩
  obtain ⟨snapshots', hok, row, hrow, hfigures⟩ := doSnapshotMetrics_global db hdate hid
  refine ⟨snapshots', hok, row, hrow, fun hfree hrated => ?_⟩
  have hopen : row.figures.toOpenCounts =
      .of fun severity => (openBucket db D severity).ncard := by
    rw [hfigures, snapshotFigures_open, openOnDay, if_neg hpast.ne, severityCounts]
    simp only [ratedWith_openAt hfree]
  refine ⟨hopen, ?_, fun v hv => ?_⟩
  · rw [hopen]
    exact sum_ncard_openBucket hfree hrated
  · obtain ⟨severity, hmem⟩ := exists_openBucket hrated hv
    exact ⟨severity, hmem, fun severity' h => openBucket_unique h hmem⟩

/-! ### A demonstration -/

/-- A release that was created at the given time of the first day, with a dependency and findings:
a critical one in two packages, one of unknown severity and one that was fixed at noon. -/
def pastRows (createdAt : DateTime) : Except PyError Database := do
  let db ← Database.empty.insertProject ⟨1, "past", "past"⟩
  let db ← db.insertSbom ⟨1, 1, none, none, .null, "hash", none, createdAt, createdAt, none⟩
  let db ← db.insertDependency ⟨1, "a", "1.0", some "a", none, none, true, .null⟩
  let db ← db.insertVulnerability
    ⟨1, "c1", none, some .CRITICAL, none, none, none, none, [], none, .null⟩
  let db ← db.insertVulnerability
    ⟨2, "c2", none, some .UNKNOWN, none, none, none, none, [], none, .null⟩
  let db ← db.insertVulnerability
    ⟨3, "c3", none, some .HIGH, none, none, none, none, [], none, .null⟩
  let db ← db.insertLink ⟨1, "a", 1, .OPEN, none, createdAt⟩
  let db ← db.insertLink ⟨1, "b", 1, .OPEN, none, createdAt⟩
  let db ← db.insertLink ⟨1, "a", 2, .OPEN, none, createdAt⟩
  db.insertLink ⟨1, "a", 3, .FIXED, some 43200000000, createdAt⟩

def pastDatabase (createdAt : DateTime) : Database := (pastRows createdAt).toOption.getD .empty

/-- The input of a snapshot for the day `D`, taken on the next one. -/
def pastInput (D : Date) : SnapshotInput where
  fromisoformat _ := some D
  today := D + 1
  todayAgain := D + 1
  newId := D.toNat
  totals := storedOrder SeverityRow

theorem past_day_partition_demo :
    ∃ snapshots', doSnapshotMetrics (pastDatabase 0) (pastInput 0) .empty (some "day") =
        .ok snapshots' ∧
      ∃ row, globalRow snapshots' 0 = some row ∧
        row.figures.critical + row.figures.high + row.figures.medium + row.figures.low +
          (openBucket (pastDatabase 0) 0 .UNKNOWN).ncard =
            (openVulnerabilities (pastDatabase 0) 0).ncard := by
  obtain ⟨-, stored, hok, row, hrow, hcounts⟩ :=
    @past_day_partition (pastDatabase 0) 0 (pastInput 0) (by decide +kernel) (some "day") rfl
      (by decide) .empty nofun
  exact ⟨stored, hok, row, hrow, (hcounts (by decide +kernel) (by decide +kernel)).2.1⟩

/-! ### Quiet days -/

/-- A list of lists loses nothing when the parts that are left out are empty. -/
theorem length_flatMap_filter_le {α β : Type} (p : α → Bool) (f : α → List β) (xs : List α) :
    ((xs.filter p).flatMap f).length ≤ (xs.flatMap f).length := by
  induction xs with
  | nil => exact le_rfl
  | cons x xs ih =>
    rw [List.flatMap_cons, List.length_append]
    cases hp : p x with
    | true =>
      rw [List.filter_cons_of_pos hp, List.flatMap_cons, List.length_append]
      omega
    | false =>
      rw [List.filter_cons_of_neg (by rw [hp]; exact Bool.false_ne_true)]
      omega

theorem length_flatMap_filter_eq_iff {α β : Type} {p : α → Bool} {f : α → List β} {xs : List α} :
    ((xs.filter p).flatMap f).length = (xs.flatMap f).length ↔
      ∀ x ∈ xs, p x = false → f x = [] := by
  induction xs with
  | nil => exact iff_of_true rfl nofun
  | cons x xs ih =>
    rw [List.flatMap_cons, List.length_append, List.forall_mem_cons, ← ih]
    cases hp : p x with
    | true =>
      rw [List.filter_cons_of_pos hp, List.flatMap_cons, List.length_append]
      simp
    | false =>
      rw [List.filter_cons_of_neg (by rw [hp]; exact Bool.false_ne_true)]
      have hle := length_flatMap_filter_le p f xs
      rw [← List.length_eq_zero_iff]
      constructor
      · intro h
        exact ⟨fun _ => by omega, by omega⟩
      · rintro ⟨hzero, hrest⟩
        rw [hrest, hzero rfl, Nat.zero_add]

/-- A day is over before a later one starts. -/
theorem lastInstant_lt_start (hlater : D < D') : D.lastInstant < D'.start := by
  have hnext : ∀ D D' : ℤ, D < D' → (D + 1) * 86400000000 - 1 < D' * 86400000000 := by omega
  exact hnext D D' hlater

theorem start_le_lastInstant : D.start ≤ D.lastInstant := by
  have hday : ∀ D : ℤ, D * 86400000000 ≤ (D + 1) * 86400000000 - 1 := by omega
  exact hday D

/-- After a quiet day every dependency counts. -/
theorem dependenciesBy_after (hquiet : QuietSince D.lastInstant db) (hlater : D < D') :
    dependenciesBy db D' = (db.sboms.rows.flatMap fun s =>
      db.dependencies.rows.filter fun d => d.sbomId == s.id).length := by
  rw [dependenciesBy, length_flatMap_filter_eq_iff]
  intro s hs hlate
  have hcreated := hquiet.created s hs
  exact absurd (hcreated.trans (lastInstant_lt_start hlater).le) (of_decide_eq_false hlate)

/-- On the day itself those count whose SBOM was there at its start. -/
theorem dependenciesBy_eq_iff (hquiet : QuietSince D.lastInstant db) (hlater : D < D') :
    dependenciesBy db D' = dependenciesBy db D ↔
      ∀ s ∈ db.sboms, (∃ d ∈ db.dependencies, d.sbomId = s.id) → s.createdAt ≤ D.start := by
  rw [eq_comm, dependenciesBy_after hquiet hlater, dependenciesBy, length_flatMap_filter_eq_iff]
  refine forall₂_congr fun s _ => ?_
  rw [decide_eq_false_iff_not, List.filter_eq_nil_iff, ← not_imp_not, not_not]
  simp only [Table.mem_rows, beq_iff_eq, not_forall, not_not, exists_prop]

/-- What counts for a day after which nothing happened is what counts now. -/
theorem snapshotFigures_quiet (hinv : LinkCoherent db) (hnow : NothingAfter D.lastInstant db)
    (hpast : D < inp.todayAgain) :
    (snapshotFigures db inp D).toOpenCounts = severityCounts db (actionable db) ∧
      (snapshotFigures db inp D).fixed = (posture db).fixed := by
  constructor
  · rw [snapshotFigures_open, openOnDay, if_neg hpast.ne, severityCounts_actionable_eq hinv hnow]
  · refine fixedBy_eq fun l hl hst => ?_
    obtain ⟨t, ht⟩ := Option.isSome_iff_exists.1 ((hinv l hl).1 hst)
    exact ⟨t, ht, date_le_iff.2 (hnow.fixed l hl t ht)⟩

theorem NothingAfter.mono {now later : DateTime} (h : NothingAfter now db) (hle : now ≤ later) :
    NothingAfter later db where
  detected l hl := (h.detected l hl).trans hle
  fixed l hl t ht := (h.fixed l hl t ht).trans hle
  accepted a ha := (h.accepted a ha).trans hle

theorem SnapshotFigures.eq_iff_totalDependencies {a b : SnapshotFigures}
    (hopen : a.toOpenCounts = b.toOpenCounts) (hfixed : a.fixed = b.fixed) :
    a = b ↔ a.totalDependencies = b.totalDependencies := by
  obtain ⟨a, _, _⟩ := a
  obtain ⟨b, _, _⟩ := b
  obtain rfl : a = b := hopen
  obtain rfl := hfixed
  simp

/-- **Quiet days.**  When nothing happened after the day `D`, its snapshot and that of a later day
have the same figures exactly when every SBOM with dependencies was there at the start of `D`. -/
theorem quiet_days_iff (hinv : LinkCoherent db) (hquiet : QuietSince D.lastInstant db)
    (hlater : D < D') (hpast : D < inp.todayAgain) (hpast' : D' < inp'.todayAgain)
    {snapshotDate snapshotDate' : Option String} (hdate : inp.targetDate snapshotDate = .ok D)
    (hdate' : inp'.targetDate snapshotDate' = .ok D')
    {snapshots snapshots' : Table VulnerabilitySnapshot}
    (hid : ∀ row ∈ snapshots, row.id ≠ inp.newId)
    (hid' : ∀ row ∈ snapshots', row.id ≠ inp'.newId) :
    ∃ stored, doSnapshotMetrics db inp snapshots snapshotDate = .ok stored ∧
      ∃ row, globalRow stored D = some row ∧
        ∃ stored', doSnapshotMetrics db inp' snapshots' snapshotDate' = .ok stored' ∧
          ∃ row', globalRow stored' D' = some row' ∧
            (row'.figures = row.figures ↔ ∀ s ∈ db.sboms,
              (∃ d ∈ db.dependencies, d.sbomId = s.id) → s.createdAt ≤ D.start) := by
  obtain ⟨stored, hok, row, hrow, hfigures⟩ := doSnapshotMetrics_global db hdate hid
  obtain ⟨stored', hok', row', hrow', hfigures'⟩ := doSnapshotMetrics_global db hdate' hid'
  refine ⟨stored, hok, row, hrow, stored', hok', row', hrow', ?_⟩
  have hend : D.lastInstant ≤ D'.lastInstant :=
    (lastInstant_lt_start hlater).le.trans start_le_lastInstant
  obtain ⟨hopen, hfixed⟩ := snapshotFigures_quiet hinv hquiet.toNothingAfter hpast
  obtain ⟨hopen', hfixed'⟩ := snapshotFigures_quiet hinv (hquiet.toNothingAfter.mono hend) hpast'
  rw [hfigures, hfigures', SnapshotFigures.eq_iff_totalDependencies (hopen'.trans hopen.symm)
    (hfixed'.trans hfixed.symm)]
  exact dependenciesBy_eq_iff hquiet hlater

/-- The dependency of a release of the first hour counts from the next day on. -/
theorem quiet_day_gains_dependency :
    (LinkCoherent (pastDatabase 3600000000) ∧
      QuietSince (Date.lastInstant 0) (pastDatabase 3600000000)) ∧
    ∃ stored, doSnapshotMetrics (pastDatabase 3600000000) (pastInput 0) .empty (some "day") =
        .ok stored ∧
      ∃ row, globalRow stored 0 = some row ∧
        ∃ stored', doSnapshotMetrics (pastDatabase 3600000000) (pastInput 1) stored
            (some "day") = .ok stored' ∧
          ∃ row', globalRow stored' 1 = some row' ∧
            row.figures.totalDependencies = 0 ∧ row'.figures.totalDependencies = 1 := by
  decide +kernel

theorem quiet_days_demo :
    ∃ stored, doSnapshotMetrics (pastDatabase 0) (pastInput 0) .empty (some "day") = .ok stored ∧
      ∃ row, globalRow stored 0 = some row ∧
        ∃ stored', doSnapshotMetrics (pastDatabase 0) (pastInput 1) .empty (some "day") =
            .ok stored' ∧
          ∃ row', globalRow stored' 1 = some row' ∧ row'.figures = row.figures := by
  obtain ⟨stored, hok, row, hrow, stored', hok', row', hrow', hiff⟩ :=
    @quiet_days_iff (pastDatabase 0) 0 1 (pastInput 0) (pastInput 1) (by decide +kernel)
      (by decide +kernel) (by decide) (by decide) (by decide) (some "day") (some "day") rfl rfl
      .empty .empty nofun nofun
  exact ⟨stored, hok, row, hrow, stored', hok', row', hrow', hiff.2 (by decide +kernel)⟩

end ArgusSbomGuard
