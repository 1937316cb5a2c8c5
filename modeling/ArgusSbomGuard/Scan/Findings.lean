import ArgusSbomGuard.System.Invariant

/-!
# What a scan finds, and what it closes

The properties of one complete scan of a stored SBOM, for every history of its links.

* A reported pair of package and CVE has a link afterwards, open unless it was fixed before
  (`hasLink_open_iff`): a link that is there already is left alone, so a finding that comes back
  stays fixed.
* An open link is about a CVE of the report (`open_link_reported`), though its package need not
  be: links are retired by CVE.
* An open link is fixed only because of a report that lacks it or because the document is empty
  (`fixed_by_report`).
* The first scan of a new latest SBOM makes its report the open set of the scope
  (`fresh_upload_pipeline`).
-/

namespace ArgusSbomGuard

variable {env : Env} {w : World} {db db' : Database} {sbom : SBOM} {inp : ScanInput}
  {report : Json}

/-! ### Every reported pair -/

/-- A reported pair has an open link after the scan exactly when it had no fixed link before. -/
theorem hasLink_open_iff (h : ScanEffect sbom report inp db db') {purl c : String}
    (hrep : Reports report purl c) :
    db'.HasLink sbom.id purl c .OPEN ↔ ¬ db.HasLink sbom.id purl c .FIXED := by
  constructor
  · rintro ⟨l', hl', ⟨hs', hp', ho⟩, hc'⟩ ⟨l, hl, ⟨hs, hp, hf⟩, hc⟩
    obtain ⟨a, ha, himg⟩ := h.old l hl
    obtain rfl := himg.eq_of_fixed hf
    have hkey : a.key = l'.key := by
      rw [SBOMVulnerability.key, SBOMVulnerability.key, hs, hp, hs', hp',
        (h.hasCve hc).id_unique hc']
    rw [Database.link_eq ha hl' hkey] at hf
    exact nomatch hf.symm.trans ho
  · intro hfixed
    obtain ⟨i, hi, l', hl', hkey⟩ := h.exists_link hrep
    obtain ⟨hs', hp', hv'⟩ : l'.sbomId = sbom.id ∧ l'.dependencyPurl = purl ∧
        l'.vulnerabilityId = i := by
      simpa [SBOMVulnerability.key] using hkey
    refine ⟨l', hl', ⟨hs', hp', ?_⟩, hv' ▸ hi⟩
    rcases h.origin l' hl' with ⟨l, hl, himg⟩ | ⟨_, _, _, -, -, -, rfl⟩
    · have hlkey : l.key = (sbom.id, purl, i) := himg.key.symm.trans hkey
      obtain ⟨hs, hp, hv⟩ : l.sbomId = sbom.id ∧ l.dependencyPurl = purl ∧
          l.vulnerabilityId = i := by
        simpa [SBOMVulnerability.key] using hlkey
      refine himg.open_iff.2 ⟨?_, fun hst => hst.2.2 ⟨c, hrep.reportsCve, hv ▸ hi⟩,
        not_superseded_of_eq hs⟩
      cases hst : l.status with
      | OPEN => rfl
      | FIXED => exact absurd ⟨l, hl, ⟨hs, hp, hst⟩, (h.hasCve_iff hl).1 (hv ▸ hi)⟩ hfixed
    · rfl

theorem runGrype_eq_some {run : GrypeRun} (h : runGrype env run = some report) :
    ∃ stdout, run = .exited 0 stdout ∧ env.loads stdout = .ok report := by
  cases run with
  | raised => cases h
  | exited returncode stdout =>
    simp only [runGrype] at h
    split at h
    · cases h
    rename_i hzero
    obtain rfl := not_not.1 hzero
    refine ⟨stdout, rfl, ?_⟩
    split at h
    · cases h
    · rename_i results _ hloads
      rw [hloads, Option.some.inj h]
    · cases h

/-- A run of the task without a result ends as failed. -/
theorem doScanSbom_failed (hs : sbom ∈ db.sboms) (hraw : sbom.rawSbom.truthy = true)
    (hrun : runGrype env inp.grype = none) :
    doScanSbom env db (env.strUuid sbom.id) inp = .ok (db, .failed) := by
  unfold doScanSbom
  rw [env.parseUuid_strUuid]
  simp only
  rw [Table.find?_eq_some hs (by simp) fun a ha => .inl (beq_iff_eq.1 ha)]
  simp only [scanWithGrype, hraw, Bool.not_true, Bool.false_eq_true, if_false, hrun]
  rfl

/-- A link that a scan with a report closes is not about a CVE of the report, or it is on an
older SBOM and its vulnerability is not open on the scanned one. -/
theorem closed_by_scan (h : ScanEffect sbom report inp db db') {l l' : SBOMVulnerability}
    (hl : l ∈ db.links) (hl' : l' ∈ db'.links) (hkey : l'.key = l.key) (ho : l.status = .OPEN)
    (hf : l'.status = .FIXED) : Stale db' sbom (ReportsCve report) l ∨ Superseded db' sbom l := by
  obtain ⟨a, ha, himg⟩ := h.old l hl
  obtain rfl := Database.link_eq ha hl' (himg.key.trans hkey.symm)
  by_contra hno
  rw [not_or] at hno
  exact nomatch hf.symm.trans (himg.open_iff.2 ⟨ho, hno⟩)

/-- **Only a report or an empty document fixes.**  When a scan turns an open link into a fixed
one, the document is empty, or grype ended with exit code 0 and a parseable report that lacks
the vulnerability: it has no match for it, or, for a link of an older SBOM, matches without a
package or for packages whose link was fixed before.  When grype fails on a document that is not
empty, or prints no report, nothing changes. -/
theorem fixed_by_report (hs : sbom ∈ w.db.sboms) (inp : ScanInput) :
    (∀ l ∈ w.db.links, ∀ l' ∈ (w.scan env (env.strUuid sbom.id) inp).db.links,
      l'.key = l.key → l.status = .OPEN → l'.status = .FIXED →
        sbom.rawSbom.truthy = false ∨
          ∃ stdout report, inp.grype = .exited 0 stdout ∧ env.loads stdout = .ok report ∧
            ∀ c, w.db.HasCve l.vulnerabilityId c →
              (l.sbomId = sbom.id → ¬ ReportsCve report c) ∧
                ∀ purl, Reports report purl c → w.db.HasLink sbom.id purl c .FIXED) ∧
      (sbom.rawSbom.truthy = true → runGrype env inp.grype = none →
        w.scan env (env.strUuid sbom.id) inp = w) := by
  refine ⟨fun l hl l' hl' hkey ho hf => ?_, fun hraw hrun => ?_⟩
  · rcases World.scan_cases (rfl : _ = w.scan env (env.strUuid sbom.id) inp) with
      hsame | ⟨t, ht, report, hreport, hid, heffect, -⟩
    · rw [hsame] at hl'
      rw [Database.link_eq hl' hl hkey] at hf
      exact nomatch hf.symm.trans ho
    rw [env.parseUuid_strUuid] at hid
    obtain rfl := Database.sbom_eq hs ht (Option.some.inj hid)
    cases hraw : sbom.rawSbom.truthy with
    | false => exact .inl rfl
    | true =>
      rw [scanReport, if_pos hraw] at hreport
      obtain ⟨stdout, hrun, hloads⟩ := runGrype_eq_some hreport
      refine .inr ⟨stdout, report, hrun, hloads, fun c hc => ?_⟩
      have hc' := heffect.hasCve hc
      rcases closed_by_scan heffect hl hl' hkey ho hf with hst | hsup
      · have hno : ¬ ReportsCve report c := fun hrep => hst.2.2 ⟨c, hrep, hc'⟩
        exact ⟨fun _ => hno, fun purl hrep => absurd hrep.reportsCve hno⟩
      · refine ⟨fun hid => absurd hsup (not_superseded_of_eq hid), fun purl hrep => ?_⟩
        by_contra hfixed
        obtain ⟨a, ha, ⟨has, -, hao⟩, hac⟩ := (hasLink_open_iff heffect hrep).2 hfixed
        exact hsup.2.2 ⟨a, ha, has, hac.id_unique hc', hao⟩
  · rw [World.scan, doScanSbom_failed hs hraw hrun]

/-- A scan whose report lacks what the one before found. -/
theorem fixed_by_report_demo :
    let w := demoFound
    let inp := demoInput [] 120
    ∃ sbom ∈ w.db.sboms, (∀ l ∈ w.db.links,
      ∀ l' ∈ (w.scan demoEnv (demoEnv.strUuid sbom.id) inp).db.links,
        l'.key = l.key → l.status = .OPEN → l'.status = .FIXED →
          sbom.rawSbom.truthy = false ∨
            ∃ stdout report, inp.grype = .exited 0 stdout ∧ demoEnv.loads stdout = .ok report ∧
              ∀ c, w.db.HasCve l.vulnerabilityId c →
                (l.sbomId = sbom.id → ¬ ReportsCve report c) ∧
                  ∀ purl, Reports report purl c → w.db.HasLink sbom.id purl c .FIXED) ∧
        (sbom.rawSbom.truthy = true → runGrype demoEnv inp.grype = none →
          w.scan demoEnv (demoEnv.strUuid sbom.id) inp = w) := by
  intro w inp
  obtain ⟨sbom, hs, -⟩ : ∃ s ∈ w.db.sboms, s.id = 10 := by decide +kernel
  exact ⟨sbom, hs, fixed_by_report hs inp⟩

/-- A release with one finding, and a newer one with an empty document. -/
def demoEmpty : World :=
  demo [demoProject, demoUpload 1 10 100, demoScan 10 [1, 1] 110,
    .uploadSbom ⟨none, some "project", none, none, []⟩ ⟨0, 11, 200⟩] (by decide +kernel)

/-- The scan of an empty document fixes the links of the older SBOM although grype could not even
be started. -/
theorem empty_document_fixes :
    ∃ w, (system demoEnv).Reachable w ∧ ∃ sbom ∈ w.db.sboms, ∃ inp, inp.grype = .raised ∧
      w.db.HasLink 10 "p" "c" .OPEN ∧
        (w.scan demoEnv (demoEnv.strUuid sbom.id) inp).db.HasLink 10 "p" "c" .FIXED := by
  refine ⟨demoEmpty, demo_reachable, ?_⟩
  obtain ⟨sbom, hs, hid⟩ : ∃ s ∈ demoEmpty.db.sboms, s.id = 11 := by decide +kernel
  refine ⟨sbom, hs, ⟨.raised, String.length, 210, 210⟩, rfl, by decide +kernel, ?_⟩
  rw [hid]
  decide +kernel

/-! ### The scan of a new latest SBOM -/

/-- The open set of the scope after the first scan of a new latest SBOM. -/
theorem openOn_fresh (hown : ServiceOwned db) (hs : sbom ∈ db.sboms)
    (hfresh : ∀ l ∈ db.links, l.sbomId ≠ sbom.id)
    (hnewest : ∀ s ∈ db.sboms, s.scope = sbom.scope → s.id ≠ sbom.id →
      s.uploadedAt < sbom.uploadedAt)
    (h : ScanEffect sbom report inp db db') :
    (∀ v, db'.OpenOn sbom.id v ↔ ∃ purl c, Reports report purl c ∧ db'.HasCve v c) ∧
      db'.exposure.Covers {i | InScope db sbom i} sbom.id := by
  refine ⟨fun v => h.openOn_self.trans ⟨?_, ?_⟩, ?_⟩
  · rintro ⟨⟨l, hl, hls, -⟩ | ⟨purl, c, hrep, hc, -⟩, -⟩
    · exact absurd hls (hfresh l hl)
    · exact ⟨purl, c, hrep, hc⟩
  · rintro ⟨purl, c, hrep, hc⟩
    refine ⟨.inr ⟨purl, c, hrep, hc, fun a ha hkey => hfresh a ha ?_⟩, c, hrep.reportsCve, hc⟩
    exact congrArg (·.1) hkey
  · rw [h.exposure hs]
    refine Exposure.covers_scan not_older_self ?_
    rintro _ ⟨s, hsdb, hscope, rfl⟩
    by_cases hid : s.id = sbom.id
    · exact .inl hid
    · refine .inr (.inl ((older_iff hs).2 ((olderThan_iff hown hs hsdb).2 ⟨hscope, ?_⟩)))
      exact hnewest s hsdb hscope hid

end ArgusSbomGuard
