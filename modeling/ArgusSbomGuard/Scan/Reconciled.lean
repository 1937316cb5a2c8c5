import ArgusSbomGuard.System.World

/-!
# What the reconciliation is for

`reconcile_vulnerabilities` runs one of two updates, or none, and finds the older SBOMs by their
service alone when there is one.  On the links all of it is one specification, `reconciledLinks`:
an open link of an earlier SBOM in the scope becomes fixed when its vulnerability is not open on
the given SBOM, and no other link changes.

## Main definitions

* `Outdated` : the links that become fixed.
* `reconciledLinks` : the specification.
-/

namespace ArgusSbomGuard

variable {db db' : Database} {sbom : SBOM} {now : DateTime}

/-- An open link of an earlier SBOM in the scope of `sbom`, for a vulnerability that is not open on
`sbom`. -/
structure Outdated (db : Database) (sbom : SBOM) (l : SBOMVulnerability) : Prop where
  earlier : ∃ s ∈ db.sboms, (s.id = l.sbomId ∧ s.scope = sbom.scope) ∧
    s.uploadedAt < sbom.uploadedAt
  isOpen : l.status = .OPEN
  gone : ∀ m ∈ db.links, m.sbomId = sbom.id → m.status = .OPEN →
    m.vulnerabilityId ≠ l.vulnerabilityId

instance (db : Database) (sbom : SBOM) (l : SBOMVulnerability) : Decidable (Outdated db sbom l) :=
  decidable_of_iff
    ((∃ s ∈ db.sboms, (s.id = l.sbomId ∧ s.scope = sbom.scope) ∧ s.uploadedAt < sbom.uploadedAt) ∧
      l.status = .OPEN ∧
      ∀ m ∈ db.links, m.sbomId = sbom.id → m.status = .OPEN →
        m.vulnerabilityId ≠ l.vulnerabilityId)
    ⟨fun ⟨h, ho, hg⟩ => ⟨h, ho, hg⟩, fun ⟨h, ho, hg⟩ => ⟨h, ho, hg⟩⟩

/-- What a reconciliation makes of the links, as a specification. -/
def reconciledLinks (db : Database) (sbom : SBOM) (now : DateTime) : List SBOMVulnerability :=
  db.links.rows.map fun l => if Outdated db sbom l then l.fix now else l

/-- A link that the statements select is outdated, and conversely. -/
theorem superseded_iff_outdated (hown : ServiceOwned db) (hsbom : sbom ∈ db.sboms)
    {l : SBOMVulnerability} : Superseded db sbom l ↔ Outdated db sbom l := by
  constructor
  · rintro ⟨⟨s, hs, hold, hid⟩, ho, hgone⟩
    obtain ⟨hscope, hlt⟩ := (isOlder_iff hown hsbom hs).1 hold
    refine ⟨⟨s, hs, ⟨hid, hscope⟩, hlt⟩, ho, fun m hm hms hmo hv => ?_⟩
    exact hgone ⟨m, hm, hms, hv, hmo⟩
  · rintro ⟨⟨s, hs, ⟨hid, hscope⟩, hlt⟩, ho, hgone⟩
    refine ⟨⟨s, hs, (isOlder_iff hown hsbom hs).2 ⟨hscope, hlt⟩, hid⟩, ho, ?_⟩
    rintro ⟨m, hm, hms, hv, hmo⟩
    exact hgone m hm hms hmo hv

/-- A reconciliation leaves nothing to reconcile. -/
theorem not_superseded_of_updated
    (h : Database.LinksUpdated (Superseded db sbom) (·.fix now) db db') {l : SBOMVulnerability}
    (hl : l ∈ db'.links) : ¬ Superseded db' sbom l := by
  rintro ⟨hold, ho, hgone⟩
  obtain ⟨a, ha, ⟨-, rfl⟩ | ⟨hkept, rfl⟩⟩ := (h.mem l).1 hl
  · cases ho
  -- the link was kept because its vulnerability is open on `sbom`, where nothing is fixed
  · have hopen : db.OpenOn sbom.id a.vulnerabilityId := by
      by_contra hno
      refine hkept ⟨?_, ho, hno⟩
      rwa [OlderThan, ← h.sboms]
    obtain ⟨m, hm, hms, hv, hmo⟩ := hopen
    refine hgone ⟨m, h.kept hm fun hsup => not_olderThan_self (hms ▸ hsup.1), hms, hv, hmo⟩

/-- **The reconciliation meets its specification**, on all branches, and has nothing to do when it
runs again. -/
theorem reconcileVulnerabilities_spec (hown : ServiceOwned db) (hsbom : sbom ∈ db.sboms)
    (hdb' : db' = db.writeAll (reconcileVulnerabilities db sbom now)) :
    db'.toTables = { db.toTables with links := db'.links } ∧
      db'.links.rows = reconciledLinks db sbom now ∧
      ∀ later, db'.writeAll (reconcileVulnerabilities db' sbom later) = db' := by
  have hupd : Database.LinksUpdated (Superseded db sbom) (·.fix now) db db' := by
    rw [hdb']
    exact reconcileVulnerabilities_updated
  refine ⟨hupd.frame, ?_, fun later => ?_⟩
  · rcases reconcileVulnerabilities_cases db sbom now with
      ⟨hnil, hnone⟩ | ⟨p, hfix, hp⟩
    · rw [hdb', hnil]
      refine (List.map_id _).symm.trans (List.map_congr_left fun l hl => ?_)
      exact (if_neg fun h => hnone l hl ((superseded_iff_outdated hown hsbom).2 h)).symm
    · rw [hdb', hfix]
      refine Database.fixWhere_rows.trans (List.map_congr_left fun l hl => ?_)
      simp only [hp l hl, superseded_iff_outdated hown hsbom]
  · rcases reconcileVulnerabilities_cases db' sbom later with
      ⟨hnil, -⟩ | ⟨p, hfix, hp⟩
    · rw [hnil]
      rfl
    · rw [hfix]
      refine Database.write_fixWhere_of_forall fun l hl => ?_
      exact Bool.eq_false_iff.2 fun hpl => not_superseded_of_updated hupd hl ((hp l hl).1 hpl)

/-- A reconciliation with the second of two releases, which has no finding yet. -/
theorem reconcileVulnerabilities_demo : ∃ sbom ∈ demoUploaded.db.sboms, ∃ db' : Database,
    db'.links.rows ≠ demoUploaded.db.links.rows ∧
      db'.links.rows = reconciledLinks demoUploaded.db sbom 300 ∧
      ∀ later, db'.writeAll (reconcileVulnerabilities db' sbom later) = db' := by
  obtain ⟨sbom, hsbom, hne⟩ : ∃ sbom ∈ demoUploaded.db.sboms,
      (demoUploaded.db.writeAll (reconcileVulnerabilities demoUploaded.db sbom 300)).links.rows ≠
        demoUploaded.db.links.rows := by
    decide +kernel
  exact ⟨sbom, hsbom, _, hne, (reconcileVulnerabilities_spec (by decide +kernel) hsbom rfl).2⟩

end ArgusSbomGuard
