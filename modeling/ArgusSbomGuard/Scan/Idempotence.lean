import ArgusSbomGuard.Scan.Isolation
import ArgusSbomGuard.Scan.Refresh

/-!
# A repeated scan changes nothing

A scan that is run again with the same report finds every row of the report's CVEs there and
refreshes it with the values it has already (`Refreshed.again`), and finds every reported link
there and every other one fixed (`Ledger.scan_scan`).  No time is stamped anew.
-/

namespace ArgusSbomGuard

variable {env : Env} {db db' db₁ db₂ : Database} {sbom : SBOM} {report : Json}
  {inp inp' : ScanInput} {us : List Refresh} {l : SBOMVulnerability} {v : Vulnerability}

/-! ### Vulnerabilities -/

/-- The refreshes of the matches of a report. -/
def reportRefreshes (env : Env) (report : Json) : Except PyError (List Refresh) := do
  readRefreshes env (← reportMatches report)

/-- The refreshes of a list of matches are about the pairs of the matches. -/
theorem readRefreshes_pairs {ms : List Json} (h : readRefreshes env ms = .ok us) :
    us.map (fun u => (u.m.vulnId, u.m.purl)) = ms.filterMap matchPair := by
  induction ms generalizing us with
  | nil =>
    cases h
    rfl
  | cons m ms ih =>
    obtain ⟨g?, hparse, h⟩ := bind_eq_ok.1 h
    have hpair := matchPair_of_parseMatch hparse
    cases g? with
    | none => rw [List.filterMap_cons_none hpair, ih h]
    | some g =>
      simp only [bind_eq_ok] at h
      obtain ⟨u, hu, us', hus', h⟩ := h
      obtain rfl := Except.ok.inj h
      rw [List.filterMap_cons_some hpair, List.map_cons, ih hus', m_of_readRefresh hu]

/-- The refreshes of a report are about its pairs. -/
theorem reportRefreshes_pairs (h : reportRefreshes env report = .ok us) :
    us.map (fun u => (u.m.vulnId, u.m.purl)) = report.pairs := by
  obtain ⟨ms, hms, hus⟩ := bind_eq_ok.1 h
  rcases reportMatches_eq_ok hms with rfl | ⟨hnil, hstr⟩
  · exact readRefreshes_pairs hus
  -- the matches are texts, of which none can be read
  · cases ms with
    | nil => rw [readRefreshes_pairs hus, Json.pairs, hnil]
    | cons m ms =>
      obtain ⟨s, rfl⟩ := hstr m List.mem_cons_self
      obtain ⟨_, hone, -⟩ := bind_eq_ok.1 hus
      cases hone

/-- The refreshes of a report are about the pairs that it reports. -/
theorem reports_iff (h : reportRefreshes env report = .ok us) {purl c : String} :
    Reports report purl c ↔ ∃ u ∈ us, u.m.vulnId = c ∧ u.m.purl = purl ∧ purl ≠ "" := by
  simp only [reports_iff_mem_pairs, ← reportRefreshes_pairs h, List.mem_map, Prod.mk.injEq]
  constructor
  · rintro ⟨⟨u, hu, hc, hp⟩, hne⟩
    exact ⟨u, hu, hc, hp, hne⟩
  · rintro ⟨u, hu, hc, hp, hne⟩
    exact ⟨⟨u, hu, hc, hp⟩, hne⟩

/-- Refreshing again with the same values. -/
theorem Refreshed.again (h : Refreshed us db db₁) (h' : Refreshed us db₁ db₂) :
    v ∈ db₂.vulnerabilities ↔ v ∈ db₁.vulnerabilities := by
  have hsettled : ∀ v ∈ db₁.vulnerabilities, refreshAll us v = v := by
    intro v hv
    obtain ⟨v₀, rfl, -⟩ := h.origin v hv
    exact refreshAll_replay
  constructor
  · intro hv
    obtain ⟨v₀, rfl, hv₀ | ⟨hno, hfirst⟩⟩ := h'.origin v hv
    · rwa [hsettled v₀ hv₀]
    -- no row is new, because every CVE got its row the first time
    · obtain ⟨u, hu, hc⟩ := hfirst.exists_mem
      obtain ⟨a, ha, hac⟩ := h.stored u hu
      exact absurd (hac.trans hc) (hno a ha)
  · intro hv
    rw [← hsettled v hv]
    exact h'.kept v hv

theorem Refreshed.congr (h : Refreshed us db db₁)
    (hsame : db₂.vulnerabilities = db₁.vulnerabilities) : Refreshed us db db₂ :=
  ⟨hsame ▸ h.kept, hsame ▸ h.origin, hsame ▸ h.stored⟩

theorem scanWithGrype_refreshed {scanResults : List Json}
    (h : scanWithGrype env db sbom inp = .ok (some (db₁, scanResults))) :
    ∃ report us, scanReport env sbom inp.grype = some report ∧
      reportRefreshes env report = .ok us ∧ Refreshed us db db₁ := by
  unfold scanWithGrype at h
  unfold scanReport
  split at h
  case isTrue hraw =>
    cases h
    exact ⟨_, [], if_neg (by simpa using hraw), rfl, .refl db⟩
  case isFalse hraw =>
    split at h
    · cases h
    · rename_i results hrun
      obtain ⟨p, hp, h⟩ := bind_eq_ok.1 h
      cases h
      obtain ⟨ms, hms, hp⟩ := bind_eq_ok.1 hp
      obtain ⟨us, hus, hrefreshed⟩ := processMatches_refreshed hp
      exact ⟨results, us, (if_pos (by simpa using hraw)).trans hrun,
        bind_eq_ok.2 ⟨ms, hms, hus⟩, hrefreshed⟩

/-- A successful scan refreshed the vulnerabilities with the values of its report. -/
theorem doScanSbom_refreshed {sbomId : String}
    (h : doScanSbom env db sbomId inp = .ok (db', .scanned)) :
    ∃ sbom ∈ db.sboms, env.parseUuid sbomId = some sbom.id ∧ ∃ report us,
      scanReport env sbom inp.grype = some report ∧ reportRefreshes env report = .ok us ∧
        Refreshed us db db' := by
  rcases doScanSbom_cases h with
    ⟨-, he⟩ | ⟨sbom, hsbom, hid, db₁, scanResults, db₂, hr, rfl, rfl, -⟩
  · exact absurd rfl he
  obtain ⟨report, us, hreport, hus, hrefreshed⟩ := scanWithGrype_refreshed hr
  refine ⟨sbom, hsbom, hid, report, us, hreport, hus, hrefreshed.congr ?_⟩
  -- the retirement and the reconciliation write links only
  rw [reconcileVulnerabilities_updated.frame, retireStaleVulnerabilities_updated.frame]

/-! ### Links -/

/-- A pair has one status. -/
theorem status_of_hasLink {st : VulnerabilityStatus} {c : String} (hl : l ∈ db.links)
    (hc : db.HasCve l.vulnerabilityId c) (h : db.HasLink l.sbomId l.dependencyPurl c st) :
    l.status = st := by
  obtain ⟨a, ha, ⟨hs, hp, rfl⟩, hac⟩ := h
  rw [Database.link_eq hl ha]
  rw [SBOMVulnerability.key, SBOMVulnerability.key, hs, hp, hac.id_unique hc]

/-- A scan that changes no status changes no link. -/
theorem ScanEffect.links_of_ledger (h : ScanEffect sbom report inp db db')
    (hledger : db'.ledger = db.ledger) : l ∈ db'.links ↔ l ∈ db.links := by
  have hstatus : ∀ a ∈ db.links, ∀ a' ∈ db'.links, LinkImage db' sbom report inp a a' →
      a' = a := by
    intro a ha a' ha' himg
    obtain ⟨c, hc⟩ := Database.exists_hasCve ha
    have hkey := himg.key
    have hlink : db.HasLink a.sbomId a.dependencyPurl c a'.status := by
      refine (hasLink_iff_of_ledger_eq hledger).1 ⟨a', ha', ⟨himg.sbomId, ?_, rfl⟩, ?_⟩
      · exact congrArg (·.2.1) hkey
      · exact himg.vulnerabilityId ▸ h.hasCve hc
    have hst := status_of_hasLink ha hc hlink
    -- a link that the scan closed would have had two statuses
    rcases himg with ⟨hstale, rfl⟩ | ⟨hsup, rfl⟩ | ⟨-, -, rfl⟩
    · exact absurd (hstale.2.1.symm.trans hst) (by simp [SBOMVulnerability.fix])
    · exact absurd (hsup.2.1.symm.trans hst) (by simp [SBOMVulnerability.fix])
    · rfl
  constructor
  · intro hl
    rcases h.origin l hl with ⟨a, ha, himg⟩ | ⟨purl, c, i, -, hc, hno, rfl⟩
    · rwa [hstatus a ha l hl himg]
    · obtain ⟨a, ha, ⟨hs, hp, -⟩, hac⟩ : db.HasLink sbom.id purl c .OPEN :=
        (hasLink_iff_of_ledger_eq hledger).1 ⟨_, hl, ⟨rfl, rfl, rfl⟩, hc⟩
      refine absurd ?_ (hno a ha)
      rw [SBOMVulnerability.key, hs, hp, (h.hasCve hac).id_unique hc]
  · intro hl
    obtain ⟨l', hl', himg⟩ := h.old l hl
    rwa [← hstatus l hl l' hl' himg]

/-- **Scan idempotence.**  A second run of `do_scan_sbom` with the same run of grype, at any later
time, changes no link and no vulnerability. -/
theorem scan_idempotent {sbomId : String} {e e' : ScanEnd} (hgrype : inp'.grype = inp.grype)
    (h : doScanSbom env db sbomId inp = .ok (db₁, e))
    (h' : doScanSbom env db₁ sbomId inp' = .ok (db₂, e')) :
    (∀ l, l ∈ db₂.links ↔ l ∈ db₁.links) ∧
      ∀ v, v ∈ db₂.vulnerabilities ↔ v ∈ db₁.vulnerabilities := by
  by_cases he' : e' = .scanned
  case neg =>
    rw [doScanSbom_unchanged h' he']
    exact ⟨fun _ => Iff.rfl, fun _ => Iff.rfl⟩
  subst he'
  obtain ⟨t, ht, hid', report', us', hreport', hus', hrefreshed'⟩ := doScanSbom_refreshed h'
  rw [hgrype] at hreport'
  by_cases he : e = .scanned
  case neg =>
    -- the first run was on the same database and would have had the report as well
    obtain rfl := doScanSbom_unchanged h he
    rw [scanReport_of_not_scanned ht hid' h he] at hreport'
    cases hreport'
  subst he
  obtain ⟨sbom, hsbom, hid, report, us, hreport, hus, hrefreshed⟩ := doScanSbom_refreshed h
  -- both runs scan the same SBOM with the same report
  have heffect := scanEffect_of_message hsbom hid hreport h
  rw [heffect.sboms] at ht
  obtain rfl := Database.sbom_eq ht hsbom (Option.some.inj (hid'.symm.trans hid))
  obtain rfl := Option.some.inj (hreport'.symm.trans hreport)
  obtain rfl := Except.ok.inj (hus'.symm.trans hus)
  have heffect' := scanEffect_of_message (heffect.sboms ▸ ht) hid' (hgrype ▸ hreport') h'
  have hold : Supersedes db₁ t = Supersedes db t := by
    simp only [Supersedes, OlderThan, heffect.sboms]
  refine ⟨fun l => heffect'.links_of_ledger ?_, fun v => hrefreshed.again hrefreshed'⟩
  rw [heffect'.ledger, hold, heffect.ledger, Ledger.scan_scan]

/-- A report with a repeated pair and a CVE in two packages, scanned twice. -/
theorem scan_idempotent_demo :
    ∃ db₁, doScanSbom demoEnv demoUploaded.db (demoEnv.strUuid 11)
        (demoInput [2, 1, 1, 1, 2, 1] 210) = .ok (db₁, .scanned) ∧
      ∃ db₂, doScanSbom demoEnv db₁ (demoEnv.strUuid 11)
          (demoInput [2, 1, 1, 1, 2, 1] 220) = .ok (db₂, .scanned) ∧
        (∃ l ∈ db₁.links, l.fixedAt = none) ∧ (∀ l, l ∈ db₂.links ↔ l ∈ db₁.links) ∧
          ∀ v, v ∈ db₂.vulnerabilities ↔ v ∈ db₁.vulnerabilities := by
  obtain ⟨db₁, h, db₂, h', hl⟩ : ∃ db₁, doScanSbom demoEnv demoUploaded.db (demoEnv.strUuid 11)
      (demoInput [2, 1, 1, 1, 2, 1] 210) = .ok (db₁, .scanned) ∧
        ∃ db₂, doScanSbom demoEnv db₁ (demoEnv.strUuid 11)
          (demoInput [2, 1, 1, 1, 2, 1] 220) = .ok (db₂, .scanned) ∧
            ∃ l ∈ db₁.links, l.fixedAt = none := by
    decide +kernel
  have hgrype : (demoInput [2, 1, 1, 1, 2, 1] 220).grype =
      (demoInput [2, 1, 1, 1, 2, 1] 210).grype := rfl
  exact ⟨db₁, h, db₂, h', hl, scan_idempotent hgrype h h'⟩

end ArgusSbomGuard
