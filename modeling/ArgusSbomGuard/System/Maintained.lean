import ArgusSbomGuard.Sbom.Retention
import ArgusSbomGuard.System.Coverage

/-!
# The latest SBOM covers its scope under upkeep

Retention removes old SBOMs, and acceptances hide findings without closing them.  Neither does any
harm to what uploads and scans in order achieve: in every run of both, the latest SBOM of a scope,
once scanned, covers what is left of the scope (`latest_covers`).  The identifier of a removed SBOM
is not drawn again.

## Main definitions

* `Action.IsUpkeep` : accepting a risk, taking an acceptance back, and retention.
* `Maintained` : the condition on a step.
* `CoveredBy` : the invariant, with the scanned SBOMs that are left.
-/

namespace ArgusSbomGuard

/-- The action accepts a risk, takes an acceptance back or is a run of retention. -/
def Action.IsUpkeep : Action → Prop
  | .pruneSboms _ _ | .createRiskAcceptance _ _ _ | .deleteRiskAcceptance _ => True
  | _ => False

/-- An upload does not draw the identifier of an SBOM that was scanned. -/
def Action.DrawsNew (w : World) : Action → Prop
  | .uploadSbom _ inp | .grpcUploadSbom _ inp => inp.newSbomId ∉ w.scanned
  | _ => True

/-- The condition on a step: it is one of the pipeline, in order, or one of the upkeep. -/
def Maintained (env : Env) (w : World) (a : Action) : Prop :=
  (InOrder env w a ∨ a.IsUpkeep) ∧ a.DrawsNew w

instance : DecidablePred Action.IsUpkeep := fun a => by
  unfold Action.IsUpkeep
  split <;> infer_instance

instance (w : World) : DecidablePred (Action.DrawsNew w) := fun a =>
  match a with
  | .uploadSbom _ inp | .grpcUploadSbom _ inp =>
    inferInstanceAs (Decidable (inp.newSbomId ∉ w.scanned))
  | .createProject _ _ | .deleteProject _ | .deleteService _ | .scanSbom _ _
  | .rescanVulnerabilities | .deleteSbom _ _ _ | .pruneSboms _ _ | .createRiskAcceptance _ _ _
  | .deleteRiskAcceptance _ => .isTrue trivial

/-- `scanned` are the SBOMs that were scanned and are left, and the latest ones cover their
scopes. -/
structure CoveredBy (w : World) (scanned : List Uuid) : Prop where
  subset : ∀ i ∈ scanned, i ∈ w.scanned
  complete : ∀ s ∈ w.db.sboms, s.id ∈ w.scanned → s.id ∈ scanned
  covered : Covered { w with scanned }

variable {env : Env} {w w' : World} {db db' : Database} {sbom : SBOM} {scanned : List Uuid}

/-- Only the newest SBOM of a scope is scanned, as in the runs of the demonstration. -/
theorem maintained_of_newest {a : Action} (h : (OnlyNewest env w a ∨ a.IsUpkeep) ∧ a.DrawsNew w) :
    Maintained env w a :=
  ⟨h.1.imp_left inOrder_of_newest, h.2⟩

/-! ### Uploads and scans -/

/-- A new SBOM has the identifier that was drawn for it. -/
theorem id_of_storeSbom {projectId : Uuid} {raw : Json} {version serviceName : Option String}
    {inp : StoreInput}
    (h : storeSbom env db projectId raw version serviceName inp = .ok (db', sbom))
    (hnew : sbom ∉ db.sboms) : sbom.id = inp.newSbomId := by
  simp only [ArgusSbomGuard.storeSbom, bind_eq_ok, Prod.exists] at h
  obtain ⟨_, _, -, _, -, _, -, h⟩ := h
  split at h
  · rename_i existing hfind
    obtain ⟨-, rfl⟩ := Prod.mk.inj (Except.ok.inj h)
    exact absurd (Table.mem_of_find? hfind).1 hnew
  · simp only [bind_eq_ok, Prod.exists] at h
    obtain ⟨_, -, _, _, -, _, -, _, -, _, -, _, -, _, -, _, -, h⟩ := h
    obtain ⟨-, rfl⟩ := Prod.mk.inj (Except.ok.inj h)
    rfl

theorem CoveredBy.storeSbom {projectId : Uuid} {raw : Json} {version serviceName : Option String}
    {inp : StoreInput} {queue : List String} (hw : CoveredBy w scanned)
    (hdraw : inp.newSbomId ∉ w.scanned)
    (h : storeSbom env w.db projectId raw version serviceName inp = .ok (db', sbom)) :
    CoveredBy { w with db := db', queue } scanned where
  subset := hw.subset
  complete s hs hscanned := by
    by_cases hold : s ∈ w.db.sboms
    · exact hw.complete s hold hscanned
    rcases storeSbom_eq_ok h with ⟨rfl, -⟩ | hstored
    · exact absurd hs hold
    · obtain rfl := (hstored.mem_sboms.1 hs).resolve_left hold
      rw [id_of_storeSbom h hold] at hscanned
      exact absurd hscanned hdraw
  covered := hw.covered.storeSbom h

/-- A scan is in order also when only the SBOMs that are left count as scanned. -/
theorem ScanInOrder.mono {report : Json} (h : ScanInOrder w sbom report)
    (hsub : ∀ i ∈ scanned, i ∈ w.scanned) : ScanInOrder { w with scanned } sbom report :=
  fun L hL hscope hlatest => ⟨fun hne hi => (h L hL hscope hlatest).1 hne (hsub _ hi),
    (h L hL hscope hlatest).2⟩

theorem CoveredBy.scan {report : Json} {inp : ScanInput} (hw : CoveredBy w scanned)
    (hown : ServiceOwned w.db) (hs : sbom ∈ w.db.sboms)
    (h : ScanEffect sbom report inp w.db w'.db) (hscanned : w'.scanned = sbom.id :: w.scanned)
    (hord : ScanInOrder w sbom report) : CoveredBy w' (sbom.id :: scanned) where
  subset i hi := by
    rw [hscanned]
    exact (List.mem_cons.1 hi).elim (fun heq => heq ▸ List.mem_cons_self)
      fun hi => List.mem_cons_of_mem _ (hw.subset i hi)
  complete s hsdb hi := by
    rw [hscanned] at hi
    rw [h.sboms] at hsdb
    exact (List.mem_cons.1 hi).elim (fun heq => heq ▸ List.mem_cons_self)
      fun hi => List.mem_cons_of_mem _ (hw.complete s hsdb hi)
  covered := by
    have hrest : Covered { w with scanned } := hw.covered
    exact hrest.scan hown hs h rfl (hord.mono hw.subset)

/-! ### Upkeep -/

/-- A step that leaves SBOMs and links as they are. -/
theorem CoveredBy.congr (hw : CoveredBy w scanned) (hsboms : w'.db.sboms = w.db.sboms)
    (hlinks : w'.db.links = w.db.links) (hscanned : w'.scanned = w.scanned) :
    CoveredBy w' scanned where
  subset := hscanned ▸ hw.subset
  complete := by
    rw [hscanned, hsboms]
    exact hw.complete
  covered := hw.covered.congr hsboms hlinks rfl

variable {cutoff : DateTime}

/-- A link survives with its SBOM. -/
theorem Retained.mem_links (h : Retained db cutoff db') {l : SBOMVulnerability} :
    l ∈ db'.links ↔ l ∈ db.links ∧ ∃ s ∈ db'.sboms, s.id = l.sbomId := by
  rw [← Table.mem_rows, h.links, List.mem_filter, decide_eq_true_eq, Table.mem_rows]

theorem Retained.openOn (h : Retained db cutoff db') {s v : Uuid} :
    db'.OpenOn s v ↔ db.OpenOn s v ∧ ∃ t ∈ db'.sboms, t.id = s := by
  constructor
  · rintro ⟨l, hl, rfl, hv, hst⟩
    obtain ⟨hl, ht⟩ := h.mem_links.1 hl
    exact ⟨⟨l, hl, rfl, hv, hst⟩, ht⟩
  · rintro ⟨⟨l, hl, rfl, hv, hst⟩, ht⟩
    exact ⟨l, h.mem_links.2 ⟨hl, ht⟩, rfl, hv, hst⟩

/-- What is left of a scope is covered by its latest SBOM, which is left. -/
theorem CoveredBy.retain (hw : CoveredBy w scanned) (h : Retained w.db cutoff db') :
    CoveredBy { w with db := db' } (scanned.filter fun i => ∃ s ∈ db'.sboms, s.id = i) where
  subset i hi := hw.subset i (List.mem_filter.1 hi).1
  complete s hs hi := List.mem_filter.2
    ⟨hw.complete s (h.mem_sboms.1 hs).1 hi, decide_eq_true ⟨s, hs, rfl⟩⟩
  covered := by
    refine ⟨fun i hi => of_decide_eq_true (List.mem_filter.1 hi).2, fun L hL hlatest hi => ?_⟩
    have hcovers := hw.covered.covers L (h.mem_sboms.1 hL).1 ((h.isLatest_iff hL).1 hlatest)
      (List.mem_filter.1 hi).1
    rintro _ ⟨s, hs, hscope, rfl⟩ v hv
    have hopen : v ∈ w.db.exposure L.id :=
      hcovers _ ⟨s, (h.mem_sboms.1 hs).1, hscope, rfl⟩ (h.openOn.1 hv).1
    exact h.openOn.2 ⟨hopen, L, hL, rfl⟩

theorem CoveredBy.prune (hw : CoveredBy w scanned) {days : Option ℕ} {today : Date}
    (h : pruneSboms w.db days today = .ok db') :
    ∃ scanned, CoveredBy { w with db := db' } scanned := by
  cases days with
  | none =>
    obtain rfl : w.db = db' := Except.ok.inj h
    exact ⟨scanned, hw⟩
  | some days =>
    obtain ⟨d, -, hretained⟩ := retained_of_ok h
    exact ⟨_, hw.retain hretained⟩

/-! ### Runs -/

theorem coveredBy_step {a : Action} (hown : ServiceOwned w.db) (hw : CoveredBy w scanned)
    (ha : Maintained env w a) (hst : World.step env w a = some w') :
    ∃ scanned, CoveredBy w' scanned := by
  obtain ⟨hstep, hdraw⟩ := ha
  cases a with
  | createProject data newId =>
    rcases World.commit_cases (Option.some.inj hst) with rfl | ⟨db', hok, rfl⟩
    · exact ⟨scanned, hw⟩
    · have h := createProject_eq_ok hok
      exact ⟨scanned, hw.congr (by rw [h]) (by rw [h]) rfl⟩
  | uploadSbom form inp =>
    rcases World.enqueue_cases (Option.some.inj hst) with rfl | ⟨db', message, response, hok, rfl⟩
    · exact ⟨scanned, hw⟩
    · obtain ⟨project, raw, version, serviceName, sbom, hstore, -⟩ := uploadSbom_eq_ok hok
      exact ⟨scanned, hw.storeSbom hdraw hstore⟩
  | grpcUploadSbom request inp =>
    rcases World.enqueue_cases (Option.some.inj hst) with rfl | ⟨db', message, response, hok, rfl⟩
    · exact ⟨scanned, hw⟩
    · obtain ⟨project, raw, version, serviceName, sbom, hstore, -⟩ := grpcUploadSbom_eq_ok hok
      exact ⟨scanned, hw.storeSbom hdraw hstore⟩
  | scanSbom message inp =>
    simp only [World.step] at hst
    split at hst
    case isFalse => cases hst
    rcases World.scan_cases (Option.some.inj hst) with
      rfl | ⟨sbom, hs, report, hreport, hid, heffect, -, hscanned⟩
    · exact ⟨scanned, hw⟩
    · exact ⟨_, hw.scan hown hs heffect hscanned
        (hstep.resolve_right id sbom hs hid report hreport)⟩
  | rescanVulnerabilities =>
    obtain rfl := Option.some.inj hst
    exact ⟨scanned, hw.congr rfl rfl rfl⟩
  | pruneSboms days today =>
    rcases World.commit_cases (Option.some.inj hst) with rfl | ⟨db', hok, rfl⟩
    · exact ⟨scanned, hw⟩
    · exact hw.prune hok
  | createRiskAcceptance data newId now =>
    rcases World.commit_cases (Option.some.inj hst) with rfl | ⟨db', hok, rfl⟩
    · exact ⟨scanned, hw⟩
    · have h := createRiskAcceptance_eq_ok hok
      exact ⟨scanned, hw.congr (by rw [h]) (by rw [h]) rfl⟩
  | deleteRiskAcceptance acceptanceId =>
    rcases World.commit_cases (Option.some.inj hst) with rfl | ⟨db', hok, rfl⟩
    · exact ⟨scanned, hw⟩
    · have h := deleteRiskAcceptance_eq_ok hok
      exact ⟨scanned, hw.congr (by rw [h]) (by rw [h]) rfl⟩
  | deleteProject | deleteService | deleteSbom => exact hstep.elim False.elim False.elim

theorem coveredBy (hw : (system env).Reaches (Maintained env) w) :
    ∃ scanned, CoveredBy w scanned := by
  have hinit : CoveredBy (system env).init [] :=
    ⟨nofun, nofun, nofun, fun L hL => absurd hL (Table.not_mem_empty L)⟩
  induction hw with
  | init => exact ⟨[], hinit⟩
  | step hw ha hst ih =>
    obtain ⟨scanned, hcovered⟩ := ih
    exact coveredBy_step (systemInvariant hw.reachable).owned hcovered ha hst

/-- **The latest SBOM covers its scope under upkeep**, once it was scanned. -/
theorem latest_covers (hw : (system env).Reaches (Maintained env) w) {L : SBOM}
    (hL : L ∈ w.db.sboms) (hlatest : IsLatest w.db L) (hscanned : L.id ∈ w.scanned) :
    w.db.exposure.Covers {i | InScope w.db L i} L.id := by
  obtain ⟨scanned, hcovered⟩ := coveredBy hw
  exact hcovered.covered.covers L hL hlatest (hcovered.complete L hL hscanned)

/-- Three releases, the first of them removed by retention, and an accepted risk. -/
def demoUpkeep : World :=
  demo [demoProject, demoUpload 1 10 100, demoScan 10 [1, 1] 110, demoUpload 2 11 200,
    demoScan 11 [1, 1, 2, 2] 210, .pruneSboms (some 1) 5,
    .createRiskAcceptance ⟨1, 1, none, "build tool only", by decide⟩ 5 220, demoUpload 3 12 300,
    demoScan 12 [2, 2] 310] (by decide +kernel)

theorem demoUpkeep_reaches : (system demoEnv).Reaches (Maintained demoEnv) demoUpkeep := by
  have hreaches : (system demoEnv).Reaches
      (fun w a => (OnlyNewest demoEnv w a ∨ a.IsUpkeep) ∧ a.DrawsNew w) demoUpkeep :=
    demo_reaches (by decide +kernel)
  exact hreaches.mono fun _ _ => maintained_of_newest

end ArgusSbomGuard
