import ArgusSbomGuard.Metrics.Snapshots
import ArgusSbomGuard.Scan.Idempotence
import ArgusSbomGuard.System.Clock

/-!
# The figures of a past day under later scans

A snapshot of a past day counts the links that were open at its last instant.  A later scan stamps
its times on links that were open then, which keeps them open at that instant, and it never
removes one.  But the links it inserts are dated by their SBOM (`newLink`), so that a finding of
today may count for a day long ago.

`ratedAt` is what a snapshot counts for an instant; `ScanEffect.ratedAt_eq_iff` says which scans
leave it as it is.

## Main definitions

* `NothingAfter` : a state without times in the future.
* `CountedAt`, `ratedAt` : the vulnerabilities open at an instant, with their severities.
* `RetiredBy` : the vulnerabilities with a link that was fixed by an instant.
* `AddsNothing`, `BackdatesNothing` : a finding, and a scan, without effect on a past instant.
-/

namespace ArgusSbomGuard

/-- Nothing was detected, fixed or accepted after `now`. -/
structure NothingAfter (now : DateTime) (db : Database) : Prop where
  detected : ∀ l ∈ db.links, l.detectedAt ≤ now
  fixed : FixedBefore now db
  accepted : ∀ a ∈ db.riskAcceptances, a.createdAt ≤ now

instance (now : DateTime) (db : Database) : Decidable (NothingAfter now db) :=
  decidable_of_iff ((∀ l ∈ db.links, l.detectedAt ≤ now) ∧ FixedBefore now db ∧
      ∀ a ∈ db.riskAcceptances, a.createdAt ≤ now)
    ⟨fun ⟨hd, hf, ha⟩ => ⟨hd, hf, ha⟩, fun h => ⟨h.detected, h.fixed, h.accepted⟩⟩

/-- Some link of the vulnerability was open at the instant. -/
def CountedAt (db : Database) (t : DateTime) (v : Uuid) : Prop :=
  ∃ l ∈ db.links, ∃ s ∈ db.sboms, s.id = l.sbomId ∧ openAt db t l s = true ∧ l.vulnerabilityId = v

instance (db : Database) (t : DateTime) (v : Uuid) : Decidable (CountedAt db t v) :=
  inferInstanceAs (Decidable (∃ l ∈ db.links, ∃ s ∈ db.sboms, _))

/-- The vulnerability has the severity. -/
def RatedAs (db : Database) (v : Uuid) (severity : VulnerabilitySeverity) : Prop :=
  ∃ r ∈ db.vulnerabilities, r.id = v ∧ r.severity = some severity

/-- What a snapshot counts for an instant: the vulnerabilities open then, with the severities that
have a count. -/
def ratedAt (db : Database) (t : DateTime) : Set (Uuid × VulnerabilitySeverity) :=
  {r | r.2 ≠ .UNKNOWN ∧ CountedAt db t r.1 ∧ RatedAs db r.1 r.2}

/-- Some link of the vulnerability was fixed by the instant. -/
def RetiredBy (db : Database) (t : DateTime) (v : Uuid) : Prop :=
  ∃ l ∈ db.links, l.status = .FIXED ∧ (∃ x ∈ l.fixedAt, x ≤ t) ∧ l.vulnerabilityId = v

/-- The severity that the last refresh of a CVE has. -/
def severityOf (us : List Refresh) (c : String) : Option VulnerabilitySeverity :=
  ((us.filter fun u => u.m.vulnId == c).getLast?).map (·.m.severity)

/-- The finding of a CVE in a package of `sbom` adds nothing to what counts at the instant: the
vulnerability counts already, the link is there, or it is accepted. -/
def AddsNothing (db : Database) (t : DateTime) (sbom : SBOM) (purl c : String) : Prop :=
  ∃ v ∈ db.vulnerabilities, v.cveId = c ∧ (CountedAt db t v.id ∨
    (∃ l ∈ db.links, l.key = (sbom.id, purl, v.id)) ∨
      coveredByAcceptance db (newLink sbom purl v.id) sbom (some t) = true)

instance (db : Database) (t : DateTime) (sbom : SBOM) (purl c : String) :
    Decidable (AddsNothing db t sbom purl c) :=
  inferInstanceAs (Decidable (∃ v ∈ db.vulnerabilities, _))

/-- No finding with a severity that has a count is dated back to the instant or before. -/
def BackdatesNothing (db : Database) (t : DateTime) (sbom : SBOM) (us : List Refresh) : Prop :=
  sbom.createdAt ≤ t → ∀ u ∈ us, u.m.purl ≠ "" → severityOf us u.m.vulnId ≠ some .UNKNOWN →
    AddsNothing db t sbom u.m.purl u.m.vulnId

instance (db : Database) (t : DateTime) (sbom : SBOM) (us : List Refresh) :
    Decidable (BackdatesNothing db t sbom us) :=
  inferInstanceAs (Decidable (_ → _))

/-- The refreshes keep the severities of the CVEs that have a row. -/
def SeveritiesKept (db : Database) (us : List Refresh) : Prop :=
  ∀ u ∈ us, ∀ v ∈ db.vulnerabilities, v.cveId = u.m.vulnId → v.severity = some u.m.severity

instance (db : Database) (us : List Refresh) : Decidable (SeveritiesKept db us) :=
  inferInstanceAs (Decidable (∀ u ∈ us, ∀ v ∈ db.vulnerabilities, _))

variable {env : Env} {db db' : Database} {t : DateTime} {D : Date} {v : Uuid}
  {severity : VulnerabilitySeverity}

/-! ### Counting at an instant -/

theorem openAt_iff {l : SBOMVulnerability} {s : SBOM} : openAt db t l s = true ↔
    l.detectedAt ≤ t ∧ (∀ x ∈ l.fixedAt, t < x) ∧ coveredByAcceptance db l s (some t) = false := by
  rw [openAt, Bool.and_eq_true, Bool.and_eq_true, decide_eq_true_eq, Option.all_eq_true_iff_get,
    Bool.not_eq_true', and_assoc]
  refine and_congr_right fun _ => and_congr_left fun _ => ?_
  cases l.fixedAt with
  | none => exact iff_of_true nofun nofun
  | some x => simp

theorem mem_ratedWith_openAt : v ∈ ratedWith db (openAt db t) severity ↔
    CountedAt db t v ∧ RatedAs db v severity := by
  refine mem_severityRows.trans ⟨?_, ?_⟩
  · rintro ⟨l, hl, s, hs, hid, hopen, hv, hrow⟩
    exact ⟨⟨l, hl, s, hs, hid, hopen, hv⟩, hrow⟩
  · rintro ⟨⟨l, hl, s, hs, hid, hopen, hv⟩, hrow⟩
    exact ⟨l, hl, s, hs, hid, hopen, hv, hrow⟩

theorem ratedWith_finite (p : SBOMVulnerability → SBOM → Bool) :
    (ratedWith db p severity).Finite :=
  (List.finite_toSet (severityRows db p)).preimage (Prod.mk_left_injective _).injOn

theorem OpenCounts.of_inj {f g : VulnerabilitySeverity → ℕ} (h : of f = of g)
    (hknown : severity ≠ .UNKNOWN) : f severity = g severity := by
  obtain ⟨hc, hh, hm, hl⟩ := OpenCounts.mk.inj h
  cases severity with
  | CRITICAL => exact hc
  | HIGH => exact hh
  | MEDIUM => exact hm
  | LOW => exact hl
  | UNKNOWN => exact absurd rfl hknown

/-- The counts of an instant tell whether anything was added to what counts. -/
theorem severityCounts_eq_iff (hsub : ratedAt db t ⊆ ratedAt db' t) :
    severityCounts db' (openAt db' t) = severityCounts db (openAt db t) ↔
      ratedAt db' t = ratedAt db t := by
  constructor
  · intro hcounts
    refine Set.Subset.antisymm ?_ hsub
    rintro ⟨v, severity⟩ ⟨hknown, hcounted, hrated⟩
    have hslice : ratedWith db (openAt db t) severity ⊆ ratedWith db' (openAt db' t) severity := by
      intro a ha
      have hmem : (a, severity) ∈ ratedAt db t := ⟨hknown, mem_ratedWith_openAt.1 ha⟩
      exact mem_ratedWith_openAt.2 (hsub hmem).2
    have hcard := OpenCounts.of_inj hcounts hknown
    have hsame := Set.eq_of_subset_of_ncard_le hslice hcard.le (ratedWith_finite _)
    refine ⟨hknown, mem_ratedWith_openAt.1 ?_⟩
    rw [hsame]
    exact mem_ratedWith_openAt.2 ⟨hcounted, hrated⟩
  · intro hsame
    refine OpenCounts.of_congr fun severity hknown => congrArg Set.ncard (Set.ext fun v => ?_)
    have hmem : (v, severity) ∈ ratedAt db' t ↔ (v, severity) ∈ ratedAt db t := by rw [hsame]
    rw [mem_ratedWith_openAt, mem_ratedWith_openAt]
    exact ⟨fun h => (hmem.1 ⟨hknown, h⟩).2, fun h => (hmem.2 ⟨hknown, h⟩).2⟩

/-- The last instant of a day is the last with its date. -/
theorem date_le_iff {x : DateTime} : x.date ≤ D ↔ x ≤ D.lastInstant := by
  have hdiv : ∀ x D : ℤ, x / 86400000000 ≤ D ↔ x ≤ (D + 1) * 86400000000 - 1 := by omega
  exact hdiv x D

/-- The fixed count of a day depends on what was fixed by its last instant. -/
theorem fixedBy_congr (h : ∀ v, RetiredBy db' D.lastInstant v ↔ RetiredBy db D.lastInstant v) :
    fixedBy db' D = fixedBy db D := by
  have hmem : ∀ {db : Database} {v : Uuid},
      v ∈ (db.links.rows.filter fun l => l.status == .FIXED && l.fixedAt.any fun t =>
        decide (t.date ≤ D)).map (·.vulnerabilityId) ↔ RetiredBy db D.lastInstant v := by
    intro db v
    simp only [RetiredBy, List.mem_map, List.mem_filter, Bool.and_eq_true, beq_iff_eq,
      Option.any_eq_true, decide_eq_true_eq, date_le_iff, Table.mem_rows, Option.mem_def, and_assoc]
  exact countDistinct_congr fun v => hmem.trans ((h v).trans hmem.symm)

/-- In a state without later times what is open now was open at the instant. -/
theorem actionable_eq_openAt (hinv : LinkCoherent db) (hnow : NothingAfter t db)
    {l : SBOMVulnerability} (hl : l ∈ db.links) (s : SBOM) :
    actionable db l s = openAt db t l s := by
  have hcovered : coveredByAcceptance db l s (some t) = coveredByAcceptance db l s none := by
    rw [coveredByAcceptance, coveredByAcceptance, Bool.eq_iff_iff, List.any_eq_true,
      List.any_eq_true]
    refine exists_congr fun a => and_congr_right fun ha => ?_
    rw [Option.all_some, decide_eq_true (hnow.accepted a ha), Option.all_none]
  rw [Bool.eq_iff_iff, openAt_iff, hcovered, actionable, Bool.and_eq_true, beq_iff_eq,
    Bool.not_eq_true']
  constructor
  · rintro ⟨hopen, hfree⟩
    refine ⟨hnow.detected l hl, fun x hx => ?_, hfree⟩
    have hfixed : l.status = .FIXED := (hinv l hl).2 (Option.isSome_iff_exists.2 ⟨x, hx⟩)
    cases hopen.symm.trans hfixed
  · rintro ⟨-, hlater, hfree⟩
    refine ⟨?_, hfree⟩
    cases hst : l.status with
    | OPEN => rfl
    | FIXED =>
      obtain ⟨x, hx⟩ := Option.isSome_iff_exists.1 ((hinv l hl).1 hst)
      exact absurd (hlater x hx) (not_lt.2 (hnow.fixed l hl x hx))

/-- So the counts of the day are those of its last instant. -/
theorem severityCounts_actionable_eq (hinv : LinkCoherent db) (hnow : NothingAfter t db) :
    severityCounts db (actionable db) = severityCounts db (openAt db t) := by
  refine OpenCounts.of_congr fun severity _ => congrArg Set.ncard (Set.ext fun v => ?_)
  refine mem_severityRows.trans (Iff.trans ?_ mem_severityRows.symm)
  refine exists_congr fun l => and_congr_right fun hl => ?_
  simp only [actionable_eq_openAt hinv hnow hl]

/-! ### Statements that leave the findings alone -/

/-- SBOMs may have been added; vulnerabilities, links and acceptances are the same. -/
structure SameFindings (db db' : Database) : Prop where
  sboms : ∀ s ∈ db.sboms, s ∈ db'.sboms
  vulnerabilities : db'.vulnerabilities = db.vulnerabilities
  links : db'.links = db.links
  riskAcceptances : db'.riskAcceptances = db.riskAcceptances

theorem SameFindings.refl (db : Database) : SameFindings db db := ⟨fun _ h => h, rfl, rfl, rfl⟩

theorem coveredByAcceptance_congr {l l' : SBOMVulnerability} (s : SBOM) (x : Option DateTime)
    (hacceptances : db'.riskAcceptances = db.riskAcceptances)
    (hv : l'.vulnerabilityId = l.vulnerabilityId) :
    coveredByAcceptance db' l' s x = coveredByAcceptance db l s x := by
  rw [coveredByAcceptance, coveredByAcceptance, hacceptances, hv]

namespace SameFindings

variable (h : SameFindings db db')
include h

theorem countedAt : CountedAt db' t v ↔ CountedAt db t v := by
  have hopen : ∀ l s, openAt db' t l s = openAt db t l s := by
    intro l s
    rw [openAt, openAt, coveredByAcceptance_congr s (some t) h.riskAcceptances rfl]
  simp only [CountedAt, h.links, hopen]
  refine exists_congr fun l => and_congr_right fun hl => ⟨?_, ?_⟩
  · rintro ⟨s, hs, hid, hrest⟩
    -- the SBOM of a link is an old one
    obtain ⟨s₀, hs₀, hid₀⟩ := db.linksSbom l hl
    obtain rfl := Database.sbom_eq hs (h.sboms s₀ hs₀) (hid.trans hid₀.symm)
    exact ⟨s, hs₀, hid, hrest⟩
  · rintro ⟨s, hs, hrest⟩
    exact ⟨s, h.sboms s hs, hrest⟩

theorem ratedAt : ratedAt db' t = ratedAt db t := by
  refine Set.ext fun r => and_congr_right fun _ => and_congr h.countedAt ?_
  rw [RatedAs, RatedAs, h.vulnerabilities]

theorem retiredBy : RetiredBy db' t v ↔ RetiredBy db t v := by
  rw [RetiredBy, RetiredBy, h.links]

end SameFindings

theorem Stored.sameFindings {projectId : Uuid} {now : DateTime} {sbom : SBOM}
    (h : Stored projectId now sbom db db') : SameFindings db db' where
  sboms s hs := h.mem_sboms.2 (.inl hs)
  vulnerabilities := by rw [h.frame]
  links := h.links
  riskAcceptances := by rw [h.frame]

/-! ### Severities after a scan -/

variable {us : List Refresh} {u : Refresh}

theorem ratedAs_iff {a : Vulnerability} (ha : a ∈ db.vulnerabilities) :
    RatedAs db a.id severity ↔ a.severity = some severity := by
  constructor
  · rintro ⟨r, hr, hid, hsev⟩
    rwa [← Table.eq_of_clash hr ha (.inl hid)]
  · exact fun h => ⟨a, ha, rfl, h⟩

theorem exists_severityOf (hu : u ∈ us) :
    ∃ severity, severityOf us u.m.vulnId = some severity := by
  have hmem : u ∈ us.filter fun x => x.m.vulnId == u.m.vulnId :=
    List.mem_filter.2 ⟨hu, beq_self_eq_true _⟩
  obtain ⟨x, hx⟩ := Option.isSome_iff_exists.1
    (List.getLast?_isSome.2 (List.ne_nil_of_mem hmem))
  exact ⟨x.m.severity, by rw [severityOf, hx]; rfl⟩

theorem mem_of_severityOf {c : String} (h : severityOf us c = some severity) :
    ∃ u ∈ us, u.m.vulnId = c ∧ u.m.severity = severity := by
  obtain ⟨u, hu, hsev⟩ := Option.map_eq_some_iff.1 h
  obtain ⟨hmem, hc⟩ := List.mem_filter.1 (List.mem_of_getLast? hu)
  exact ⟨u, hmem, beq_iff_eq.1 hc, hsev⟩

theorem severity_refreshAll {a : Vulnerability} :
    (refreshAll us a).severity = (severityOf us a.cveId <|> a.severity) := by
  have hcolumn : (refreshAll us a).severity = (us.filter fun u => u.m.vulnId == a.cveId).foldl
      (overwrite fun u => some u.m.severity) a.severity :=
    column_refreshAll fun v u h => by rw [apply_eq h]; rfl
  rw [hcolumn, foldl_overwrite, severityOf]
  cases (us.filter fun u => u.m.vulnId == a.cveId).getLast? <;> rfl

/-- What had a row keeps its severity. -/
theorem Refreshed.ratedAs_iff (h : Refreshed us db db') (hkept : SeveritiesKept db us)
    {a : Vulnerability} (ha : a ∈ db.vulnerabilities) :
    RatedAs db' a.id severity ↔ RatedAs db a.id severity := by
  have hsame : (refreshAll us a).severity = a.severity := by
    rw [severity_refreshAll]
    cases hsev : severityOf us a.cveId with
    | none => rfl
    | some severity =>
      obtain ⟨u, hu, hc, rfl⟩ := mem_of_severityOf hsev
      exact (hkept u hu a ha hc.symm).symm
  rw [ArgusSbomGuard.ratedAs_iff ha, ← hsame, ← ArgusSbomGuard.ratedAs_iff (h.kept a ha),
    id_refreshAll]

/-- What was reported has the severity of its last refresh. -/
theorem Refreshed.ratedAs_severityOf (h : Refreshed us db db') (hu : u ∈ us)
    (hv : db'.HasCve v u.m.vulnId) :
    RatedAs db' v severity ↔ severityOf us u.m.vulnId = some severity := by
  obtain ⟨a', ha', rfl, hc⟩ := hv
  obtain ⟨a, rfl, -⟩ := h.origin a' ha'
  obtain ⟨s, hs⟩ := exists_severityOf hu
  rw [cveId_refreshAll] at hc
  rw [ArgusSbomGuard.ratedAs_iff ha', severity_refreshAll, hc, hs]
  rfl

/-! ### What counts after a scan -/

section Scan

variable {sbom : SBOM} {report : Json} {inp : ScanInput} {l l' : SBOMVulnerability}

theorem ScanEffect.riskAcceptances (h : ScanEffect sbom report inp db db') :
    db'.riskAcceptances = db.riskAcceptances := by rw [h.frame]

/-- A link that a later scan closes was open at the instant, and stays so. -/
theorem LinkImage.openAt_eq (himg : LinkImage db' sbom report inp l l') (hinv : LinkCoherent db)
    (hl : l ∈ db.links) (hretired : t < inp.retiredAt) (hreconciled : t < inp.reconciledAt)
    (hacceptances : db'.riskAcceptances = db.riskAcceptances) (s : SBOM) :
    openAt db' t l' s = openAt db t l s := by
  have hcovered : coveredByAcceptance db' l' s (some t) = coveredByAcceptance db l s (some t) :=
    coveredByAcceptance_congr s (some t) hacceptances himg.vulnerabilityId
  have hclosed : ∀ now, l.status = .OPEN → l' = l.fix now → t < now →
      openAt db' t l' s = openAt db t l s := by
    rintro now hopen rfl hnow
    have hnone : l.fixedAt = none := by
      rw [← Option.not_isSome_iff_eq_none, ← hinv l hl, hopen]
      exact nofun
    rw [openAt, openAt, hcovered, hnone]
    simp only [SBOMVulnerability.fix, Option.all_some, Option.all_none, decide_eq_true hnow]
    rfl
  rcases himg with ⟨hstale, heq⟩ | ⟨hsup, heq⟩ | ⟨-, -, rfl⟩
  · exact hclosed _ hstale.2.1 heq hretired
  · exact hclosed _ hsup.2.1 heq hreconciled
  · rw [openAt, openAt, hcovered]

namespace ScanEffect

variable (h : ScanEffect sbom report inp db db') (hsbom : sbom ∈ db.sboms)
  (hinv : LinkCoherent db) (hretired : t < inp.retiredAt) (hreconciled : t < inp.reconciledAt)
include h hsbom hinv hretired hreconciled

/-- What counts at the instant after a later scan: what counted before, and the findings that
are dated back. -/
theorem countedAt : CountedAt db' t v ↔ CountedAt db t v ∨ (sbom.createdAt ≤ t ∧
    ∃ purl c, Reports report purl c ∧ db'.HasCve v c ∧
      (∀ a ∈ db.links, a.key ≠ (sbom.id, purl, v)) ∧
        coveredByAcceptance db (newLink sbom purl v) sbom (some t) = false) := by
  constructor
  · rintro ⟨l', hl', s, hs, hid, hopen, rfl⟩
    rw [h.sboms] at hs
    rcases h.origin l' hl' with ⟨l, hl, himg⟩ | ⟨purl, c, i, hrep, hc, hno, rfl⟩
    · rw [himg.openAt_eq hinv hl hretired hreconciled h.riskAcceptances] at hopen
      exact .inl ⟨l, hl, s, hs, hid.trans himg.sbomId, hopen, himg.vulnerabilityId.symm⟩
    · obtain rfl := Database.sbom_eq hs hsbom hid
      obtain ⟨hdated, -, hfree⟩ := openAt_iff.1 hopen
      rw [coveredByAcceptance_congr s (some t) h.riskAcceptances rfl] at hfree
      exact .inr ⟨hdated, purl, c, hrep, hc, hno, hfree⟩
  · rintro (⟨l, hl, s, hs, hid, hopen, rfl⟩ | ⟨hdated, purl, c, hrep, hc, hno, hfree⟩)
    · obtain ⟨l', hl', himg⟩ := h.old l hl
      refine ⟨l', hl', s, h.sboms ▸ hs, hid.trans himg.sbomId.symm, ?_, himg.vulnerabilityId⟩
      rwa [himg.openAt_eq hinv hl hretired hreconciled h.riskAcceptances]
    · refine ⟨_, h.new _ ⟨purl, c, v, hrep, hc, hno, rfl⟩, sbom, h.sboms ▸ hsbom, rfl, ?_, rfl⟩
      refine openAt_iff.2 ⟨hdated, nofun, ?_⟩
      rwa [coveredByAcceptance_congr sbom (some t) h.riskAcceptances rfl]

omit hsbom hinv in
/-- A later scan fixes nothing by the instant. -/
theorem retiredBy : RetiredBy db' t v ↔ RetiredBy db t v := by
  constructor
  · rintro ⟨l', hl', hst, ⟨x, hx, hle⟩, rfl⟩
    rcases h.origin l' hl' with ⟨l, hl, himg⟩ | ⟨purl, c, i, -, -, -, rfl⟩
    · rcases himg with ⟨-, rfl⟩ | ⟨-, rfl⟩ | ⟨-, -, rfl⟩
      · obtain rfl := Option.some.inj hx
        exact absurd hle (not_le.2 hretired)
      · obtain rfl := Option.some.inj hx
        exact absurd hle (not_le.2 hreconciled)
      · exact ⟨l', hl, hst, ⟨x, hx, hle⟩, rfl⟩
    · cases hst
  · rintro ⟨l, hl, hst, hx, rfl⟩
    obtain ⟨l', hl', himg⟩ := h.old l hl
    obtain rfl := himg.eq_of_fixed hst
    exact ⟨l', hl', hst, hx, rfl⟩

variable (hrefreshed : Refreshed us db db') (hkept : SeveritiesKept db us)
include hrefreshed hkept

/-- A later scan takes nothing away from what counts at the instant. -/
theorem ratedAt_subset : ratedAt db t ⊆ ratedAt db' t := by
  rintro ⟨v, severity⟩ ⟨hknown, hcounted, a, ha, rfl, hsev⟩
  refine ⟨hknown, ?_, (hrefreshed.ratedAs_iff hkept ha).2 ⟨a, ha, rfl, hsev⟩⟩
  exact (h.countedAt hsbom hinv hretired hreconciled).2 (.inl hcounted)

/-- **A later scan leaves what counts at the instant as it is exactly when it dates nothing
back.** -/
theorem ratedAt_eq_iff (hus : reportRefreshes env report = .ok us) :
    ratedAt db' t = ratedAt db t ↔ BackdatesNothing db t sbom us := by
  constructor
  · intro hsame hdated u hu hpurl hrated
    have hrep : Reports report u.m.purl u.m.vulnId := (reports_iff hus).2 ⟨u, hu, rfl, rfl, hpurl⟩
    obtain ⟨v, hv⟩ := h.stored hrep
    obtain ⟨severity, hsev⟩ := exists_severityOf hu
    -- a stored vulnerability of the database is the one that was reported
    have hstored : ∀ a ∈ db.vulnerabilities, a.id = v → a.cveId = u.m.vulnId := by
      rintro a ha rfl
      exact (h.hasCve ⟨a, ha, rfl, rfl⟩).cve_unique hv
    by_cases hlink : ∃ l ∈ db.links, l.key = (sbom.id, u.m.purl, v)
    · obtain ⟨l, hl, hkey⟩ := hlink
      obtain ⟨a, ha, hid⟩ := db.linksVulnerability l hl
      obtain rfl : a.id = v := hid.trans (congrArg (·.2.2) hkey)
      exact ⟨a, ha, hstored a ha rfl, .inr (.inl ⟨l, hl, hkey⟩)⟩
    cases hcovered : coveredByAcceptance db (newLink sbom u.m.purl v) sbom (some t) with
    | true =>
      obtain ⟨acceptance, hmem, hcov⟩ := List.any_eq_true.1 hcovered
      simp only [Bool.and_eq_true, beq_iff_eq] at hcov
      obtain ⟨a, ha, hid⟩ := db.acceptancesVulnerability acceptance hmem
      obtain rfl : a.id = v := hid.trans hcov.1.1.1
      exact ⟨a, ha, hstored a ha rfl, .inr (.inr hcovered)⟩
    | false =>
      -- otherwise the finding counts now, so it counted before
      have hnew : (v, severity) ∈ ratedAt db' t := by
        refine ⟨fun hunknown => hrated (hsev.trans (congrArg some hunknown)), ?_,
          (hrefreshed.ratedAs_severityOf hu hv).2 hsev⟩
        exact (h.countedAt hsbom hinv hretired hreconciled).2 (.inr ⟨hdated, u.m.purl, u.m.vulnId,
          hrep, hv, fun l hl hkey => hlink ⟨l, hl, hkey⟩, hcovered⟩)
      rw [hsame] at hnew
      obtain ⟨-, hcounted, a, ha, rfl, -⟩ := hnew
      exact ⟨a, ha, hstored a ha rfl, .inl hcounted⟩
  · intro hnothing
    refine Set.Subset.antisymm ?_
      (h.ratedAt_subset hsbom hinv hretired hreconciled hrefreshed hkept)
    rintro ⟨v, severity⟩ ⟨hknown, hcounted, hrated⟩
    -- whatever has a row has the severity that it had
    have hold : ∀ a ∈ db.vulnerabilities, a.id = v → CountedAt db t v →
        (v, severity) ∈ ratedAt db t := by
      rintro a ha rfl hc
      exact ⟨hknown, hc, (hrefreshed.ratedAs_iff hkept ha).1 hrated⟩
    rcases (h.countedAt hsbom hinv hretired hreconciled).1 hcounted with
      hc | ⟨hdated, purl, c, hrep, hv, hno, hfree⟩
    · obtain ⟨l, hl, s, hs, hid, hopen, rfl⟩ := hc
      obtain ⟨a, ha, hav⟩ := db.linksVulnerability l hl
      exact hold a ha hav ⟨l, hl, s, hs, hid, hopen, rfl⟩
    · obtain ⟨u, hu, rfl, rfl, hpurl⟩ := (reports_iff hus).1 hrep
      have hsev := (hrefreshed.ratedAs_severityOf hu hv).1 hrated
      have hcount : severityOf us u.m.vulnId ≠ some .UNKNOWN := by
        rw [hsev]
        exact fun hunknown => hknown (Option.some.inj hunknown)
      obtain ⟨a, ha, hac, hnone⟩ := hnothing hdated u hu hpurl hcount
      obtain rfl : a.id = v := (h.hasCve ⟨a, ha, rfl, hac⟩).id_unique hv
      rcases hnone with hc | ⟨l, hl, hkey⟩ | hcov
      · exact hold a ha rfl hc
      · exact absurd hkey (hno l hl)
      · rw [hcov] at hfree
        cases hfree

end ScanEffect

end Scan

end ArgusSbomGuard
