import ArgusSbomGuard.Scan.Task

/-!
# What is open after a scan

Consequences of `ScanEffect`: a link is open after a scan exactly when it was open before or is
new, is not stale and is not superseded (`ScanEffect.openOn_iff`).  On the sets of open
vulnerabilities a scan is therefore the abstract `Exposure.scan` (`ScanEffect.exposure`).
-/

namespace ArgusSbomGuard

/-- The vulnerabilities for which a scan of `sbom` inserts a link. -/
def newlyOpen (db db' : Database) (sbom : SBOM) (report : Json) : Set Uuid :=
  {v | ∃ purl c, Reports report purl c ∧ db'.HasCve v c ∧
    ∀ a ∈ db.links, a.key ≠ (sbom.id, purl, v)}

/-- The stored vulnerabilities that a report is about. -/
def reportedIn (db : Database) (report : Json) : Set Uuid :=
  {v | ∃ c, ReportsCve report c ∧ db.HasCve v c}

variable {db db' : Database} {sbom : SBOM} {report : Json} {inp : ScanInput}
  {l l' : SBOMVulnerability}

namespace LinkImage

theorem key (h : LinkImage db' sbom report inp l l') : l'.key = l.key := by
  rcases h with ⟨-, rfl⟩ | ⟨-, rfl⟩ | ⟨-, -, rfl⟩ <;> rfl

theorem open_iff (h : LinkImage db' sbom report inp l l') : l'.status = .OPEN ↔
    l.status = .OPEN ∧ ¬ Stale db' sbom (ReportsCve report) l ∧ ¬ Superseded db' sbom l := by
  rcases h with ⟨hs, rfl⟩ | ⟨hs, rfl⟩ | ⟨hst, hsup, rfl⟩
  · exact ⟨nofun, fun h => absurd hs h.2.1⟩
  · exact ⟨nofun, fun h => absurd hs h.2.2⟩
  · exact (and_iff_left ⟨hst, hsup⟩).symm

/-- A scan never touches a fixed link. -/
theorem eq_of_fixed (h : LinkImage db' sbom report inp l l') (hl : l.status = .FIXED) :
    l' = l := by
  rcases h with ⟨hs, -⟩ | ⟨hs, -⟩ | ⟨-, -, rfl⟩
  · exact absurd (hs.2.1.symm.trans hl) nofun
  · exact absurd (hs.2.1.symm.trans hl) nofun
  · rfl

theorem sbomId (h : LinkImage db' sbom report inp l l') : l'.sbomId = l.sbomId :=
  congrArg (·.1) h.key

theorem vulnerabilityId (h : LinkImage db' sbom report inp l l') :
    l'.vulnerabilityId = l.vulnerabilityId :=
  congrArg (·.2.2) h.key

end LinkImage

namespace ScanEffect

variable (h : ScanEffect sbom report inp db db')
include h

theorem sboms : db'.sboms = db.sboms := by rw [h.frame]

theorem services : db'.services = db.services := by rw [h.frame]

theorem olderThan {L : SBOM} {i : Uuid} : OlderThan db' L i ↔ OlderThan db L i := by
  unfold OlderThan
  rw [h.sboms]

theorem inScope {L : SBOM} {i : Uuid} : InScope db' L i ↔ InScope db L i := by
  unfold InScope
  rw [h.sboms]

/-- The CVE id of a linked vulnerability stays what it was. -/
theorem hasCve_iff (hl : l ∈ db.links) {c : String} :
    db'.HasCve l.vulnerabilityId c ↔ db.HasCve l.vulnerabilityId c := by
  refine ⟨fun hc => ?_, h.hasCve⟩
  obtain ⟨c', hc'⟩ := Database.exists_hasCve hl
  rwa [hc.cve_unique (h.hasCve hc')]

/-- The link that a reported pair has after the scan: the one it had before or a new one. -/
theorem exists_link {purl c : String} (hrep : Reports report purl c) :
    ∃ i, db'.HasCve i c ∧ ∃ l ∈ db'.links, l.key = (sbom.id, purl, i) := by
  obtain ⟨i, hi⟩ := h.stored hrep
  refine ⟨i, hi, ?_⟩
  by_cases hold : ∃ a ∈ db.links, a.key = (sbom.id, purl, i)
  · obtain ⟨a, ha, hkey⟩ := hold
    obtain ⟨l', hl', himg⟩ := h.old a ha
    exact ⟨l', hl', himg.key.trans hkey⟩
  · exact ⟨_, h.new _ ⟨purl, c, i, hrep, hi, fun a ha hk => hold ⟨a, ha, hk⟩, rfl⟩, rfl⟩

/-- The links of other SBOMs keep their keys. -/
theorem linkedOn {i v : Uuid} (hi : i ≠ sbom.id) : db'.LinkedOn i v ↔ db.LinkedOn i v := by
  constructor
  · rintro ⟨l', hl', rfl, rfl⟩
    rcases h.origin l' hl' with ⟨l, hl, himg⟩ | ⟨_, _, _, -, -, -, rfl⟩
    · exact ⟨l, hl, himg.sbomId.symm, himg.vulnerabilityId.symm⟩
    · exact absurd rfl hi
  · rintro ⟨l, hl, rfl, rfl⟩
    obtain ⟨l', hl', himg⟩ := h.old l hl
    exact ⟨l', hl', himg.sbomId, himg.vulnerabilityId⟩

/-- What is open after a scan. -/
theorem openOn_iff {i v : Uuid} : db'.OpenOn i v ↔
    (db.OpenOn i v ∨ (i = sbom.id ∧ v ∈ newlyOpen db db' sbom report)) ∧
      (i = sbom.id → v ∈ reportedIn db' report) ∧
      (OlderThan db sbom i → db'.OpenOn sbom.id v) := by
  constructor
  · rintro ⟨l', hl', rfl, rfl, hopen⟩
    rcases h.origin l' hl' with ⟨l, hl, himg⟩ | ⟨purl, c, i, hrep, hc, hno, rfl⟩
    · obtain ⟨ho, hst, hsup⟩ := himg.open_iff.1 hopen
      rw [himg.sbomId, himg.vulnerabilityId]
      refine ⟨.inl ⟨l, hl, rfl, rfl, ho⟩, fun hi => ?_, fun hold => ?_⟩
      · by_contra hc
        exact hst ⟨hi, ho, hc⟩
      · by_contra hn
        exact hsup ⟨h.olderThan.2 hold, ho, hn⟩
    · exact ⟨.inr ⟨rfl, purl, c, hrep, hc, hno⟩, fun _ => ⟨c, hrep.reportsCve, hc⟩,
        fun hold => absurd hold not_olderThan_self⟩
  -- conversely nothing closes the link: it is neither stale nor superseded
  · rintro ⟨⟨l, hl, rfl, rfl, ho⟩ | ⟨rfl, purl, c, hrep, hc, hno⟩, hcur, hsup⟩
    · obtain ⟨l', hl', himg⟩ := h.old l hl
      refine ⟨l', hl', himg.sbomId, himg.vulnerabilityId, himg.open_iff.2 ⟨ho, ?_, ?_⟩⟩
      · exact fun hst => hst.2.2 (hcur hst.1)
      · exact fun hs => hs.2.2 (hsup (h.olderThan.1 hs.1))
    · exact ⟨_, h.new _ ⟨purl, c, v, hrep, hc, hno, rfl⟩, rfl, rfl, rfl⟩

theorem openOn_self {v : Uuid} : db'.OpenOn sbom.id v ↔
    (db.OpenOn sbom.id v ∨ v ∈ newlyOpen db db' sbom report) ∧ v ∈ reportedIn db' report := by
  rw [h.openOn_iff]
  simp only [true_and, forall_const]
  exact and_congr_right fun _ => and_iff_left fun hold => absurd hold not_olderThan_self

/-- **A scan refines the abstract scan**: on the sets of open vulnerabilities it detects what
has no link yet, retires what is not reported and supersedes the older SBOMs. -/
theorem exposure (hsbom : sbom ∈ db.sboms) :
    db'.exposure = db.exposure.scan db.Older sbom.id (newlyOpen db db' sbom report)
      (reportedIn db' report) := by
  have hself : ∀ v, v ∈ (db.exposure.detect sbom.id (newlyOpen db db' sbom report)).retire
      sbom.id (reportedIn db' report) sbom.id ↔ db'.OpenOn sbom.id v := fun v => by
    rw [Exposure.retire_detect_self]
    exact h.openOn_self.symm
  ext i v
  change db'.OpenOn i v ↔ _ ∧ (db.Older i sbom.id → _)
  rw [hself, older_iff hsbom, h.openOn_iff, ← and_assoc]
  rfl

end ScanEffect

end ArgusSbomGuard
