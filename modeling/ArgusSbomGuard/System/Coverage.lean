import ArgusSbomGuard.System.Invariant

/-!
# The latest SBOM covers its scope

When every SBOM of a scope has been scanned, nothing should be open on an old SBOM that is not
open on the latest one.  Uploads and scans keep it that way unless a scan comes at a bad moment:
a scan of an old SBOM may find what the latest one does not have, and a scan of the latest SBOM
does not reconcile the SBOMs that were uploaded at the very same time.  `InOrder` excludes these
two moments, and `latest_covers_scope` holds for every run without them.

## Main definitions

* `Action.IsPipeline` : creating projects, uploading, scanning and rescanning.
* `InOrder` : the condition on a step.
* `Covered` : the latest SBOM of each scope covers the scope once it was scanned.
-/

namespace ArgusSbomGuard

/-- The action creates a project or is one of the upload and scan pipeline. -/
def Action.IsPipeline : Action → Prop
  | .createProject _ _ => True
  | .uploadSbom _ _ => True
  | .grpcUploadSbom _ _ => True
  | .scanSbom _ _ => True
  | .rescanVulnerabilities => True
  | _ => False

instance : DecidablePred Action.IsPipeline := fun a => by
  unfold Action.IsPipeline
  split <;> infer_instance

/-- A scan of `sbom` with `report` leaves `v` open on `sbom`, if `v` is stored: it is open and
reported, or reported for a package without a link. -/
def Confirms (db : Database) (sbom : SBOM) (report : Json) (v : Uuid) : Prop :=
  ∃ c, db.HasCve v c ∧ ((db.OpenOn sbom.id v ∧ ReportsCve report c) ∨
    ∃ purl, Reports report purl c ∧ ∀ l ∈ db.links, l.key ≠ (sbom.id, purl, v))

/-- The scan of `sbom` with `report` is in order.  `L` is the latest SBOM of the scope: if it is
another one and was scanned, whatever the scan finds anew is open on `L`; if it is `sbom`, the
scan confirms whatever is open on an SBOM uploaded at the same time. -/
def ScanInOrder (w : World) (sbom : SBOM) (report : Json) : Prop :=
  ∀ L ∈ w.db.sboms, L.scope = sbom.scope → IsLatest w.db L →
    (L.id ≠ sbom.id → L.id ∈ w.scanned → ∀ purl c, Reports report purl c →
        (∀ i, w.db.HasCve i c → ∀ l ∈ w.db.links, l.key ≠ (sbom.id, purl, i)) →
          ∃ i, w.db.HasCve i c ∧ w.db.OpenOn L.id i) ∧
      (L.id = sbom.id → ∀ s ∈ w.db.sboms, s.scope = L.scope → s.id ≠ L.id →
        s.uploadedAt = L.uploadedAt → ∀ v, w.db.OpenOn s.id v → Confirms w.db L report v)

/-- The condition on a step: it is one of the pipeline, and a scan is in order. -/
def InOrder (env : Env) (w : World) : Action → Prop
  | .scanSbom message inp => ∀ sbom ∈ w.db.sboms, env.parseUuid message = some sbom.id →
      ∀ report, scanReport env sbom inp.grype = some report → ScanInOrder w sbom report
  | a => a.IsPipeline

/-- The latest SBOM of each scope, once scanned, covers the scope. -/
structure Covered (w : World) : Prop where
  stored : ∀ i ∈ w.scanned, ∃ s ∈ w.db.sboms, s.id = i
  covers : ∀ L ∈ w.db.sboms, IsLatest w.db L → L.id ∈ w.scanned →
    w.db.exposure.Covers {i | InScope w.db L i} L.id

/-- The condition on a step in the simplest case: only the newest SBOM of a scope is scanned. -/
def OnlyNewest (env : Env) (w : World) : Action → Prop
  | .scanSbom message _ => ∀ sbom ∈ w.db.sboms, env.parseUuid message = some sbom.id →
      ∀ s ∈ w.db.sboms, s.scope = sbom.scope → s.id ≠ sbom.id → s.uploadedAt < sbom.uploadedAt
  | a => a.IsPipeline

instance (env : Env) (w : World) : DecidablePred (OnlyNewest env w) := fun a => by
  unfold OnlyNewest
  split <;> infer_instance

variable {env : Env} {w w' : World} {db db' : Database} {sbom : SBOM}

/-- Whatever it reports, a scan of the newest SBOM is in order. -/
theorem inOrder_of_newest {a : Action} (h : OnlyNewest env w a) : InOrder env w a := by
  cases a with
  | scanSbom message inp =>
    intro sbom hs hid report _ L hL hscope hlatest
    have hnewest := h sbom hs hid
    by_cases heq : L.id = sbom.id
    · obtain rfl := Database.sbom_eq hL hs heq
      exact ⟨fun hne => absurd heq hne, fun _ s hsdb hsc hne htie =>
        absurd htie (hnewest s hsdb hsc hne).ne⟩
    · exact absurd (IsLatest.uploadedAt_le hlatest hs hscope.symm)
        (hnewest L hL hscope heq).not_ge
  | _ => exact h

theorem exposure_congr (h : db'.links = db.links) : db'.exposure = db.exposure := by
  unfold Database.exposure Database.OpenOn
  rw [h]

theorem Covered.congr (hinv : Covered w) (hsboms : w'.db.sboms = w.db.sboms)
    (hlinks : w'.db.links = w.db.links) (hscanned : w'.scanned = w.scanned) : Covered w' where
  stored := by
    rw [hscanned, hsboms]
    exact hinv.stored
  covers := by
    unfold IsLatest InScope
    rw [hscanned, hsboms, exposure_congr hlinks]
    exact hinv.covers

/-! ### Uploads -/

theorem Covered.stored_upload {projectId : Uuid} {now : DateTime} {queue : List String}
    (hinv : Covered w) (h : Stored projectId now sbom w.db db') :
    Covered { w with db := db', queue } where
  stored i hi := by
    obtain ⟨s, hs, hid⟩ := hinv.stored i hi
    exact ⟨s, h.mem_sboms.2 (.inl hs), hid⟩
  covers L hL hlatest hscanned := by
    -- the new SBOM was not scanned yet, so that it makes no claim of its own
    have hnew : ∀ i ∈ w.scanned, i ≠ sbom.id := by
      intro i hi hid
      obtain ⟨s, hs, rfl⟩ := hinv.stored i hi
      exact (Table.insert?_eq_some h.insert).1 s hs (.inl hid)
    rcases h.mem_sboms.1 hL with hL | rfl
    · have hold := hinv.covers L hL (fun s hs => hlatest s (h.mem_sboms.2 (.inl hs))) hscanned
      change Exposure.Covers db'.exposure _ _
      rw [exposure_congr h.links]
      rintro _ ⟨s, hs, hscope, rfl⟩
      rcases h.mem_sboms.1 hs with hs | rfl
      · exact hold _ ⟨s, hs, hscope, rfl⟩
      · -- nothing is open on a new SBOM, which no link can refer to
        rintro v ⟨l, hl, hls, -⟩
        obtain ⟨t, ht, hid⟩ := w.db.linksSbom l hl
        exact absurd (.inl (hid.trans hls)) ((Table.insert?_eq_some h.insert).1 t ht)
    · exact absurd rfl (hnew _ hscanned)

theorem Covered.storeSbom {projectId : Uuid} {raw : Json} {version serviceName : Option String}
    {inp : StoreInput} {queue : List String} (hinv : Covered w)
    (h : storeSbom env w.db projectId raw version serviceName inp = .ok (db', sbom)) :
    Covered { w with db := db', queue } := by
  rcases storeSbom_eq_ok h with ⟨rfl, -⟩ | hstored
  · exact hinv.congr rfl rfl rfl
  · exact hinv.stored_upload hstored

/-! ### Scans -/

theorem newlyOpen_subset {report : Json} {inp : ScanInput} {L : SBOM}
    (h : ScanEffect sbom report inp w.db db') (hord : ScanInOrder w sbom report)
    (hL : L ∈ w.db.sboms) (hscope : L.scope = sbom.scope) (hlatest : IsLatest w.db L)
    (hne : L.id ≠ sbom.id) (hscanned : L.id ∈ w.scanned) :
    newlyOpen w.db db' sbom report ⊆ w.db.exposure L.id := by
  rintro v ⟨purl, c, hrep, hc, hno⟩
  obtain ⟨i, hi, hopen⟩ := (hord L hL hscope hlatest).1 hne hscanned purl c hrep
    fun i hi l hl hkey => hno l hl (by rw [hkey, (h.hasCve hi).id_unique hc])
  rwa [(h.hasCve hi).id_unique hc] at hopen

theorem openOn_of_confirms {report : Json} {inp : ScanInput} {v : Uuid}
    (h : ScanEffect sbom report inp db db') (hconf : Confirms db sbom report v) :
    v ∈ (db.exposure sbom.id ∪ newlyOpen db db' sbom report) ∩ reportedIn db' report := by
  obtain ⟨c, hc, ⟨hopen, hrep⟩ | ⟨purl, hrep, hno⟩⟩ := hconf
  · exact ⟨.inl hopen, c, hrep, h.hasCve hc⟩
  · exact ⟨.inr ⟨purl, c, hrep, h.hasCve hc, hno⟩, c, hrep.reportsCve, h.hasCve hc⟩

theorem Covered.scan {report : Json} {inp : ScanInput} (hinv : Covered w)
    (hown : ServiceOwned w.db) (hs : sbom ∈ w.db.sboms)
    (h : ScanEffect sbom report inp w.db w'.db) (hscanned : w'.scanned = sbom.id :: w.scanned)
    (hord : ScanInOrder w sbom report) : Covered w' where
  stored i hi := by
    rw [hscanned] at hi
    rw [h.sboms]
    rcases List.mem_cons.1 hi with rfl | hi
    · exact ⟨sbom, hs, rfl⟩
    · exact hinv.stored i hi
  covers L hL hlatest hLscanned := by
    unfold IsLatest InScope at *
    rw [h.sboms] at hL hlatest ⊢
    rw [h.exposure hs]
    -- the latest SBOM was scanned itself, or one that cannot close anything on it
    by_cases hid : L.id = sbom.id
    · obtain rfl := Database.sbom_eq hL hs hid
      refine Exposure.covers_scan not_older_self ?_
      rintro _ ⟨s, hsdb, hscope, rfl⟩
      by_cases heq : s.id = L.id
      · exact .inl heq
      rcases (IsLatest.uploadedAt_le hlatest hsdb hscope).lt_or_eq with hlt | htie
      · exact .inr (.inl ((older_iff hL).2 ((olderThan_iff hown hL hsdb).2 ⟨hscope, hlt⟩)))
      · refine .inr (.inr fun v hv => openOn_of_confirms h ?_)
        exact (hord L hL rfl hlatest).2 rfl s hsdb hscope heq htie v hv
    · rw [hscanned] at hLscanned
      have hLscanned := (List.mem_cons.1 hLscanned).resolve_left hid
      have hnot : ¬ w.db.Older L.id sbom.id := by
        rw [older_iff hs, olderThan_iff hown hs hL]
        rintro ⟨hscope, hlt⟩
        exact hlt.not_ge (IsLatest.uploadedAt_le hlatest hs hscope.symm)
      refine Exposure.Covers.scan (hinv.covers L hL hlatest hLscanned) hid hnot not_older_self ?_
      rintro ⟨s, hsdb, hscope, hsid⟩
      rw [Database.sbom_eq hsdb hs hsid] at hscope
      exact newlyOpen_subset h hord hL hscope.symm hlatest hid hLscanned

/-! ### Runs -/

theorem covered_step {a : Action} (hsys : SystemInvariant w.db) (hinv : Covered w)
    (hord : InOrder env w a) (hst : World.step env w a = some w') : Covered w' := by
  cases a with
  | createProject data newId =>
    rcases World.commit_cases (Option.some.inj hst) with rfl | ⟨db', hok, rfl⟩
    · exact hinv
    · have h := createProject_eq_ok hok
      exact hinv.congr (by rw [h]) (by rw [h]) rfl
  | uploadSbom form inp =>
    rcases World.enqueue_cases (Option.some.inj hst) with rfl | ⟨db', message, response, hok, rfl⟩
    · exact hinv
    · obtain ⟨project, raw, version, serviceName, sbom, hstore, -⟩ := uploadSbom_eq_ok hok
      exact hinv.storeSbom hstore
  | grpcUploadSbom request inp =>
    rcases World.enqueue_cases (Option.some.inj hst) with rfl | ⟨db', message, response, hok, rfl⟩
    · exact hinv
    · obtain ⟨project, raw, version, serviceName, sbom, hstore, -⟩ := grpcUploadSbom_eq_ok hok
      exact hinv.storeSbom hstore
  | scanSbom message inp =>
    simp only [World.step] at hst
    split at hst
    case isFalse => cases hst
    rcases World.scan_cases (Option.some.inj hst) with
      rfl | ⟨sbom, hs, report, hreport, hid, heffect, -, hscanned⟩
    · exact hinv
    · exact hinv.scan hsys.owned hs heffect hscanned (hord sbom hs hid report hreport)
  | rescanVulnerabilities =>
    obtain rfl := Option.some.inj hst
    exact hinv.congr rfl rfl rfl
  | deleteProject | deleteService | deleteSbom | pruneSboms | createRiskAcceptance
  | deleteRiskAcceptance => exact hord.elim

theorem covered (hw : (system env).Reaches (InOrder env) w) : Covered w := by
  have hinit : Covered (system env).init :=
    ⟨nofun, fun L hL => absurd hL (Table.not_mem_empty L)⟩
  induction hw with
  | init => exact hinit
  | step hw hord hst ih => exact covered_step (systemInvariant hw.reachable) ih hord hst

/-- **The latest SBOM covers its scope** after every run of uploads and scans in order, once all
SBOMs of the scope were scanned. -/
theorem latest_covers_scope (hw : (system env).Reaches (InOrder env) w) {L : SBOM}
    (hL : L ∈ w.db.sboms) (hlatest : L.id ∈ latestSbomIds w.db)
    (hscanned : ∀ s ∈ w.db.sboms, s.scope = L.scope → s.id ∈ w.scanned) :
    ∀ s ∈ w.db.sboms, s.scope = L.scope → ∀ v, w.db.OpenOn s.id v → w.db.OpenOn L.id v := by
  obtain ⟨L', hL', hid, hmax⟩ := mem_latestSbomIds.1 hlatest
  obtain rfl := Database.sbom_eq hL' hL hid
  intro s hs hscope v hv
  exact (covered hw).covers L' hL hmax (hscanned L' hL rfl) s.id ⟨s, hs, hscope, rfl⟩ hv

theorem demo_reaches {as : List Action}
    {h : ((system demoEnv).run (system demoEnv).init as).isSome} {P : World → Action → Prop}
    (hP : (system demoEnv).Allowed P (system demoEnv).init as) :
    (system demoEnv).Reaches P (demo as h) :=
  Machine.reaches_after hP

/-- The newer release covers the older one, whose finding it does not have. -/
theorem latest_covers_scope_demo :
    let w := demoScanned
    ∃ L ∈ w.db.sboms, L.id = 11 ∧ w.db.LinkedOn 10 1 ∧
      ∀ s ∈ w.db.sboms, s.scope = L.scope → ∀ v, w.db.OpenOn s.id v → w.db.OpenOn L.id v := by
  intro w
  have hw : (system demoEnv).Reaches (InOrder demoEnv) w :=
    (demo_reaches (by decide +kernel)).mono fun _ _ => inOrder_of_newest
  obtain ⟨L, hL, hid, hlinked, hlatest, hscanned⟩ : ∃ L ∈ w.db.sboms, L.id = 11 ∧
      w.db.LinkedOn 10 1 ∧ L.id ∈ latestSbomIds w.db ∧
        ∀ s ∈ w.db.sboms, s.scope = L.scope → s.id ∈ w.scanned := by
    decide +kernel
  exact ⟨L, hL, hid, hlinked, latest_covers_scope hw hL hlatest hscanned⟩

/-- The scan of an old release ends after that of the next one. -/
def demoLate : World :=
  demo [demoProject, demoUpload 1 10 100, demoUpload 2 11 200, demoScan 11 [] 210,
    demoScan 10 [1, 1] 220] (by decide +kernel)

/-- What the late scan finds stays open on the old release only. -/
theorem late_scan_uncovers :
    ∃ w, (system demoEnv).Reaches (fun _ a => a.IsPipeline) w ∧
      ∃ L ∈ w.db.sboms, L.id ∈ latestSbomIds w.db ∧
        (∀ s ∈ w.db.sboms, s.scope = L.scope → s.id ∈ w.scanned) ∧
          ∃ s ∈ w.db.sboms, s.scope = L.scope ∧ w.db.OpenOn s.id 1 ∧ ¬ w.db.OpenOn L.id 1 := by
  refine ⟨demoLate, demo_reaches (by decide +kernel), ?_⟩
  decide +kernel

end ArgusSbomGuard
