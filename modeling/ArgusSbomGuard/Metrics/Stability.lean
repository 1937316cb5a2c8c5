import ArgusSbomGuard.Metrics.History
import ArgusSbomGuard.System.Coverage
import ArgusSbomGuard.Alerts.System

/-!
# The snapshot of a day, taken again later

The snapshot of a day is taken live, at the end of the day, and may be taken again on any later
one.  Uploads, scans and rescans in between never lower what counts for the day, nor change what
was fixed by then; so the two snapshots have the same figures exactly when no scan in between
dated a finding back (`snapshot_stable_iff`).

## Main definitions

* `scanRefreshes` : what a scan reads from its report.
* `Action.Follows` : an upload, a scan or a rescan after an instant.
* `Action.KeepsPast` : no finding is dated back by a scan that is committed.
-/

namespace ArgusSbomGuard

/-- The SBOM of a message and the refreshes of the report about it. -/
def scanRefreshes (env : Env) (db : Database) (message : String) (inp : ScanInput) :
    Option (SBOM × List Refresh) := do
  let sbomUuid ← env.parseUuid message
  let sbom ← db.sboms.find? fun s => s.id == sbomUuid
  let report ← scanReport env sbom inp.grype
  let us ← (reportRefreshes env report).toOption
  return (sbom, us)

/-- The scan runs to its commit. -/
def ScanCommits (env : Env) (db : Database) (message : String) (inp : ScanInput) : Prop :=
  ∃ r, doScanSbom env db message inp = .ok r ∧ r.2 = .scanned

instance (env : Env) (db : Database) (message : String) (inp : ScanInput) :
    Decidable (ScanCommits env db message inp) :=
  inferInstanceAs (Decidable (∃ r, doScanSbom env db message inp = .ok r ∧ r.2 = .scanned))

/-- The message and the input of a scan. -/
def Action.scan? : Action → Option (String × ScanInput)
  | .scanSbom message inp => some (message, inp)
  | _ => none

/-- An upload, a scan or a rescan after the instant, whose report keeps the severities of the CVEs
that are known. -/
def Action.Follows (env : Env) (t : DateTime) (w : World) (a : Action) : Prop :=
  (∀ x ∈ a.readings, t < x) ∧ a.IsPipeline ∧ ∀ scan, a.scan? = some scan →
    ∀ r, scanRefreshes env w.db scan.1 scan.2 = some r → SeveritiesKept w.db r.2

instance (env : Env) (t : DateTime) (w : World) (a : Action) : Decidable (a.Follows env t w) :=
  inferInstanceAs (Decidable (_ ∧ _ ∧ _))

/-- The action is no scan that is committed and dates a finding back to the instant or before. -/
def Action.KeepsPast (env : Env) (t : DateTime) (w : World) (a : Action) : Prop :=
  ∀ scan, a.scan? = some scan → ScanCommits env w.db scan.1 scan.2 →
    ∀ r, scanRefreshes env w.db scan.1 scan.2 = some r → BackdatesNothing w.db t r.1 r.2

instance (env : Env) (t : DateTime) (w : World) (a : Action) :
    Decidable (a.KeepsPast env t w) :=
  inferInstanceAs (Decidable (∀ scan, a.scan? = some scan → ScanCommits env w.db scan.1 scan.2 →
    ∀ r, scanRefreshes env w.db scan.1 scan.2 = some r → BackdatesNothing w.db t r.1 r.2))

variable {env : Env} {t : DateTime} {D : Date} {w w' : World} {a : Action} {as : List Action}

/-! ### One action -/

/-- What a later action did: nothing to the findings, or a scan. -/
inductive LaterEffect (env : Env) (t : DateTime) (a : Action) (w w' : World) : Prop
  | same (h : SameFindings w.db w'.db) (ha : a.KeepsPast env t w)
  | scanned {sbom : SBOM} {report : Json} {inp : ScanInput} {us : List Refresh}
    (h : ScanEffect sbom report inp w.db w'.db) (hsbom : sbom ∈ w.db.sboms)
    (hretired : t < inp.retiredAt) (hreconciled : t < inp.reconciledAt)
    (hrefreshed : Refreshed us w.db w'.db) (hkept : SeveritiesKept w.db us)
    (hus : reportRefreshes env report = .ok us)
    (ha : a.KeepsPast env t w ↔ BackdatesNothing w.db t sbom us)

theorem keepsPast_of_noScan (h : a.scan? = none) : a.KeepsPast env t w := by
  intro scan hscan
  cases h.symm.trans hscan

theorem keepsPast_scanSbom {message : String} {inp : ScanInput} :
    Action.KeepsPast env t w (.scanSbom message inp) ↔ (ScanCommits env w.db message inp →
      ∀ r, scanRefreshes env w.db message inp = some r → BackdatesNothing w.db t r.1 r.2) := by
  constructor
  · intro h
    exact h (message, inp) rfl
  · rintro h scan ⟨⟩
    exact h

theorem scanRefreshes_eq_some {db : Database} {message : String} {inp : ScanInput} {sbom : SBOM}
    {report : Json} {us : List Refresh} (hsbom : sbom ∈ db.sboms)
    (hid : env.parseUuid message = some sbom.id)
    (hreport : scanReport env sbom inp.grype = some report)
    (hus : reportRefreshes env report = .ok us) :
    scanRefreshes env db message inp = some (sbom, us) := by
  have hfind : (db.sboms.find? fun s => s.id == sbom.id) = some sbom :=
    Table.find?_eq_some hsbom (beq_self_eq_true _) fun a ha => .inl (beq_iff_eq.1 ha)
  simp only [scanRefreshes, hid, Option.bind_eq_bind, Option.bind_some, hfind, hreport, hus,
    Except.toOption]
  rfl

theorem storeSbom_sameFindings {db db' : Database} {projectId : Uuid} {raw : Json}
    {version serviceName : Option String} {inp : StoreInput} {sbom : SBOM}
    (h : storeSbom env db projectId raw version serviceName inp = .ok (db', sbom)) :
    SameFindings db db' := by
  rcases storeSbom_eq_ok h with ⟨rfl, -⟩ | hstored
  · exact .refl db'
  · exact hstored.sameFindings

theorem later_scan {message : String} {inp : ScanInput}
    (ha : Action.Follows env t w (.scanSbom message inp)) (h : w.scan env message inp = w') :
    LaterEffect env t (.scanSbom message inp) w w' := by
  obtain ⟨hreadings, -, hkept⟩ := ha
  rcases World.scan_outcome h with ⟨db', hok, rfl⟩ | ⟨rfl, hnone⟩
  · obtain ⟨sbom, hsbom, hid, report, us, hreport, hus, hrefreshed⟩ := doScanSbom_refreshed hok
    have hreads := scanRefreshes_eq_some hsbom hid hreport hus
    refine .scanned (scanEffect_of_message hsbom hid hreport hok) hsbom
      (hreadings _ List.mem_cons_self)
      (hreadings _ (List.mem_cons_of_mem _ List.mem_cons_self)) hrefreshed
      (hkept (message, inp) rfl _ hreads) hus ?_
    rw [keepsPast_scanSbom]
    constructor
    · exact fun h => h ⟨_, hok, rfl⟩ _ hreads
    · rintro h - r hr
      obtain rfl := Option.some.inj (hreads.symm.trans hr)
      exact h
  · refine .same (.refl w'.db) (keepsPast_scanSbom.2 ?_)
    rintro ⟨⟨db', e⟩, hr, rfl⟩
    exact absurd hr (hnone db')

/-- **Every later action is of one of the two kinds.** -/
theorem laterEffect (ha : a.Follows env t w) (hst : World.step env w a = some w') :
    LaterEffect env t a w w' := by
  cases a with
  | createProject data newId =>
    refine .same (World.commit_elim (P := SameFindings w.db) (Option.some.inj hst) (.refl w.db)
      fun db' hok => ?_) (keepsPast_of_noScan rfl)
    have hframe := createProject_eq_ok hok
    exact ⟨fun s hs => by rwa [hframe], by rw [hframe], by rw [hframe], by rw [hframe]⟩
  | uploadSbom form inp =>
    refine .same (World.enqueue_elim (P := SameFindings w.db) (Option.some.inj hst) (.refl w.db)
      fun db' message response hok => ?_) (keepsPast_of_noScan rfl)
    obtain ⟨project, raw, version, serviceName, sbom, hstore, -⟩ := uploadSbom_eq_ok hok
    exact storeSbom_sameFindings hstore
  | grpcUploadSbom request inp =>
    refine .same (World.enqueue_elim (P := SameFindings w.db) (Option.some.inj hst) (.refl w.db)
      fun db' message response hok => ?_) (keepsPast_of_noScan rfl)
    obtain ⟨project, raw, version, serviceName, sbom, hstore, -⟩ := grpcUploadSbom_eq_ok hok
    exact storeSbom_sameFindings hstore
  | scanSbom message inp =>
    simp only [World.step] at hst
    split at hst
    · exact later_scan ha (Option.some.inj hst)
    · cases hst
  | rescanVulnerabilities =>
    obtain rfl := Option.some.inj hst
    exact .same (.refl w.db) (keepsPast_of_noScan rfl)
  | deleteProject projectId => exact ha.2.1.elim
  | deleteService serviceId => exact ha.2.1.elim
  | deleteSbom sbomId tie now => exact ha.2.1.elim
  | pruneSboms days today => exact ha.2.1.elim
  | createRiskAcceptance data newId now => exact ha.2.1.elim
  | deleteRiskAcceptance acceptanceId => exact ha.2.1.elim

theorem later_retiredBy {v : Uuid} (ha : a.Follows env t w)
    (hst : World.step env w a = some w') : RetiredBy w'.db t v ↔ RetiredBy w.db t v := by
  cases laterEffect ha hst with
  | same h => exact h.retiredBy
  | scanned h _ hretired hreconciled => exact h.retiredBy hretired hreconciled

/-- A later action takes nothing away from what counts at the instant. -/
theorem later_ratedAt_subset (hinv : SystemInvariant w.db) (ha : a.Follows env t w)
    (hst : World.step env w a = some w') : ratedAt w.db t ⊆ ratedAt w'.db t := by
  cases laterEffect ha hst with
  | same h => exact h.ratedAt.ge
  | scanned h hsbom hretired hreconciled hrefreshed hkept =>
    exact h.ratedAt_subset hsbom hinv.coherent hretired hreconciled hrefreshed hkept

theorem later_ratedAt_iff (hinv : SystemInvariant w.db) (ha : a.Follows env t w)
    (hst : World.step env w a = some w') :
    ratedAt w'.db t = ratedAt w.db t ↔ a.KeepsPast env t w := by
  cases laterEffect ha hst with
  | same h hpast => exact iff_of_true h.ratedAt hpast
  | scanned h hsbom hretired hreconciled hrefreshed hkept hus hpast =>
    rw [hpast]
    exact h.ratedAt_eq_iff hsbom hinv.coherent hretired hreconciled hrefreshed hkept hus

/-! ### Runs -/

/-- The actions of the run follow the instant. -/
abbrev LaterRun (env : Env) (t : DateTime) : World → List Action → Prop :=
  (system env).Allowed fun w a => a.Follows env t w

/-- No action of the run dates a finding back. -/
abbrev PastKept (env : Env) (t : DateTime) : World → List Action → Prop :=
  (system env).Allowed fun w a => a.KeepsPast env t w

theorem fixedBy_run (hinv : SystemInvariant w.db) (hlater : LaterRun env D.lastInstant w as)
    (hrun : (system env).run w as = some w') : fixedBy w'.db D = fixedBy w.db D := by
  refine (Machine.run_eq_iff (Q := fun _ _ => True) (I := fun w => SystemInvariant w.db)
    (f := fun w => fixedBy w.db D) (fun _ _ _ => systemInvariant_step) ?_ ?_ hinv hlater hrun).2
    (Machine.allowed_true as w)
  · intro w a w' _ ha hst
    exact (fixedBy_congr fun v => later_retiredBy ha hst).ge
  · intro w a w' _ ha hst
    exact iff_of_true (fixedBy_congr fun v => later_retiredBy ha hst) trivial

theorem severityCounts_run_iff (hinv : SystemInvariant w.db) (hlater : LaterRun env t w as)
    (hrun : (system env).run w as = some w') :
    severityCounts w'.db (openAt w'.db t) = severityCounts w.db (openAt w.db t) ↔
      PastKept env t w as := by
  have hstep : ∀ w a w', SystemInvariant w.db → a.Follows env t w →
      (system env).step w a = some w' → ratedAt w.db t ≤ ratedAt w'.db t :=
    fun _ _ _ hinv ha hst => later_ratedAt_subset hinv ha hst
  have hsub : ratedAt w.db t ⊆ ratedAt w'.db t :=
    Machine.le_of_run (I := fun w => SystemInvariant w.db) (f := fun w => ratedAt w.db t)
      (fun _ _ _ => systemInvariant_step) hstep hinv hlater hrun
  rw [severityCounts_eq_iff hsub]
  exact Machine.run_eq_iff (I := fun w => SystemInvariant w.db) (f := fun w => ratedAt w.db t)
    (fun _ _ _ => systemInvariant_step) hstep
    (fun _ _ _ hinv ha hst => later_ratedAt_iff hinv ha hst) hinv hlater hrun

/-- **Snapshot stability.**  The snapshot of the day `D`, taken live at its end and again on another
day after uploads, scans and rescans, has the same open counts and the same fixed count exactly
when none of the scans dated a finding back to the day or before. -/
theorem snapshot_stable_iff (hw : (system env).Reachable w)
    (hnow : NothingAfter D.lastInstant w.db) (hlater : LaterRun env D.lastInstant w as)
    (hrun : (system env).run w as = some w') {live again : SnapshotInput}
    (htoday : live.todayAgain = D) (hday : again.todayAgain ≠ D)
    {liveDate againDate : Option String} (hlive : live.targetDate liveDate = .ok D)
    (hagain : again.targetDate againDate = .ok D)
    {snapshots snapshots' : Table VulnerabilitySnapshot}
    (hid : ∀ row ∈ snapshots, row.id ≠ live.newId)
    (hid' : ∀ row ∈ snapshots', row.id ≠ again.newId) :
    ∃ stored, doSnapshotMetrics w.db live snapshots liveDate = .ok stored ∧
      ∃ row, globalRow stored D = some row ∧
        ∃ stored', doSnapshotMetrics w'.db again snapshots' againDate = .ok stored' ∧
          ∃ row', globalRow stored' D = some row' ∧
            (row'.figures.toOpenCounts = row.figures.toOpenCounts ∧
                row'.figures.fixed = row.figures.fixed ↔
              PastKept env D.lastInstant w as) := by
  have hinv := systemInvariant hw
  obtain ⟨stored, hok, row, hrow, hfigures⟩ := doSnapshotMetrics_global w.db hlive hid
  obtain ⟨stored', hok', row', hrow', hfigures'⟩ := doSnapshotMetrics_global w'.db hagain hid'
  refine ⟨stored, hok, row, hrow, stored', hok', row', hrow', ?_⟩
  have hfixed : row'.figures.fixed = row.figures.fixed := by
    rw [hfigures, hfigures']
    exact fixedBy_run hinv hlater hrun
  have hopen : row.figures.toOpenCounts = severityCounts w.db (openAt w.db D.lastInstant) := by
    rw [hfigures, snapshotFigures_open, openOnDay, if_pos htoday.symm,
      severityCounts_actionable_eq hinv.coherent hnow]
  have hopen' : row'.figures.toOpenCounts =
      severityCounts w'.db (openAt w'.db D.lastInstant) := by
    rw [hfigures', snapshotFigures_open, openOnDay, if_neg hday.symm]
  rw [hopen, hopen', and_iff_left hfixed]
  exact severityCounts_run_iff hinv hlater hrun

/-! ### A finding that is dated back -/

/-- The day of the demonstration, and a time on the next one. -/
def snapshotDay : Date := 739000

def dayAfter : DateTime := snapshotDay.lastInstant + 1000

/-- A scan whose findings are critical. -/
def ratedScan (id : Uuid) (pairs : List UInt8) (now : DateTime) : Action :=
  .scanSbom (alertEnv.strUuid id) ⟨.exited 0 (2 :: pairs), String.length, now, now⟩

/-- The day ends with a release whose scan found the given pairs. -/
def dayEnd (pairs : List UInt8) : List Action :=
  [demoProject, demoUpload 1 10 snapshotDay.start, ratedScan 10 pairs (snapshotDay.start + 10)]

/-- The release has no findings at the end of the day. -/
def quietDay : World := (system alertEnv).after (dayEnd []) (by decide +kernel)

/-- The release has one finding at the end of the day. -/
def busyDay : World := (system alertEnv).after (dayEnd [1, 1]) (by decide +kernel)

/-- The input of a snapshot on the day `today`. -/
def snapshotInput (today : Date) : SnapshotInput where
  fromisoformat _ := some snapshotDay
  today := today
  todayAgain := today
  newId := 1
  totals := storedOrder SeverityRow

/-- A CVE that the release is found to have on the next day counts for the day that was over. -/
theorem finding_dated_back :
    ((system alertEnv).Reachable quietDay ∧
      NothingAfter snapshotDay.lastInstant quietDay.db ∧
      LaterRun alertEnv snapshotDay.lastInstant quietDay
        [.rescanVulnerabilities, ratedScan 10 [1, 1] dayAfter]) ∧
    ∃ w, (system alertEnv).run quietDay
        [.rescanVulnerabilities, ratedScan 10 [1, 1] dayAfter] = some w ∧
      ∃ stored, doSnapshotMetrics quietDay.db (snapshotInput snapshotDay) .empty none =
          .ok stored ∧
        ∃ row, globalRow stored snapshotDay = some row ∧
          ∃ stored', doSnapshotMetrics w.db (snapshotInput (snapshotDay + 1)) stored
              (some "day") = .ok stored' ∧
            ∃ row', globalRow stored' snapshotDay = some row' ∧
              row.figures.critical = 0 ∧ row'.figures.critical = 1 := by
  refine ⟨⟨Machine.reachable_after, by decide +kernel, by decide +kernel⟩, by decide +kernel⟩

/-- A finding of the day that a later scan confirms, and a new release with the same CVE. -/
theorem snapshot_stable_demo :
    ∃ w, (system alertEnv).run busyDay [.rescanVulnerabilities, ratedScan 10 [1, 1] dayAfter,
        demoUpload 2 11 dayAfter, ratedScan 11 [1, 1] (dayAfter + 10)] = some w ∧
      ∃ stored, doSnapshotMetrics busyDay.db (snapshotInput snapshotDay) .empty none =
          .ok stored ∧
        ∃ row, globalRow stored snapshotDay = some row ∧
          ∃ stored', doSnapshotMetrics w.db (snapshotInput (snapshotDay + 1)) .empty
              (some "day") = .ok stored' ∧
            ∃ row', globalRow stored' snapshotDay = some row' ∧
              row'.figures.toOpenCounts = row.figures.toOpenCounts ∧
                row'.figures.fixed = row.figures.fixed := by
  obtain ⟨w, hrun⟩ : ∃ w, (system alertEnv).run busyDay [.rescanVulnerabilities,
      ratedScan 10 [1, 1] dayAfter, demoUpload 2 11 dayAfter,
        ratedScan 11 [1, 1] (dayAfter + 10)] = some w :=
    Option.isSome_iff_exists.1 (by decide +kernel)
  obtain ⟨stored, hok, row, hrow, stored', hok', row', hrow', hiff⟩ :=
    @snapshot_stable_iff alertEnv snapshotDay busyDay w _ Machine.reachable_after
      (by decide +kernel) (by decide +kernel) hrun (snapshotInput snapshotDay)
      (snapshotInput (snapshotDay + 1)) rfl (by decide) none (some "day") rfl rfl .empty .empty
      nofun nofun
  exact ⟨w, hrun, stored, hok, row, hrow, stored', hok', row', hrow', hiff.2 (by decide +kernel)⟩

end ArgusSbomGuard
