import ArgusSbomGuard.Exposure.Basic
import ArgusSbomGuard.Models.Write

/-!
# Retiring and reconciling links

`retire_stale_vulnerabilities` closes the links of the scanned SBOM whose CVE the scan no longer
reports; `reconcile_vulnerabilities` closes the links of older SBOMs of the scope whose
vulnerability is not open on the given SBOM.  Each is one bulk update, in two branches that
differ in the text of the statement only (`retireStaleVulnerabilities_updated`,
`reconcileVulnerabilities_updated`).

The sets of open vulnerabilities are `Database.exposure`, the age of the SBOMs is `Database.Older`.
-/

namespace ArgusSbomGuard

/-- `retire_stale_vulnerabilities`. -/
def retireStaleVulnerabilities (db : Database) (sbom : SBOM) (currentCveIds : List String)
    (now : DateTime) : Write :=
  if currentCveIds ≠ [] then
    let currentVulnIds :=
      (db.vulnerabilities.rows.filter fun v => currentCveIds.contains v.cveId).map (·.id)
    db.fixWhere (fun l => l.sbomId == sbom.id && l.status == .OPEN &&
      !currentVulnIds.contains l.vulnerabilityId) now
  -- nothing reported: every open link of the SBOM is closed
  else db.fixWhere (fun l => l.sbomId == sbom.id && l.status == .OPEN) now

/-- `scope_filter`: by the service alone when there is one. -/
def scopeFilter (sbom s : SBOM) : Bool :=
  match sbom.serviceId with
  | some i => s.serviceId == some i
  | none => s.projectId == sbom.projectId && s.serviceId == none

/-- The condition of the query for the older SBOMs. -/
def isOlder (sbom s : SBOM) : Bool :=
  scopeFilter sbom s && s.id != sbom.id && decide (s.uploadedAt < sbom.uploadedAt)

/-- `reconcile_vulnerabilities`; without older SBOMs it writes nothing. -/
def reconcileVulnerabilities (db : Database) (sbom : SBOM) (now : DateTime) : List Write :=
  let olderIds := (db.sboms.rows.filter (isOlder sbom)).map (·.id)
  if olderIds = [] then []
  else
    let currentIds := (db.links.rows.filter fun l =>
      l.sbomId == sbom.id && l.status == .OPEN).map (·.vulnerabilityId)
    if currentIds ≠ [] then
      [db.fixWhere (fun l => olderIds.contains l.sbomId && l.status == .OPEN &&
        !currentIds.contains l.vulnerabilityId) now]
    -- nothing open on the SBOM: the older ones are closed altogether
    else [db.fixWhere (fun l => olderIds.contains l.sbomId && l.status == .OPEN) now]

/-! ### The links they fix -/

/-- An open link of `sbom` whose CVE does not satisfy `C`. -/
def Stale (db : Database) (sbom : SBOM) (C : String → Prop) (l : SBOMVulnerability) : Prop :=
  l.sbomId = sbom.id ∧ l.status = .OPEN ∧ ¬ ∃ c, C c ∧ db.HasCve l.vulnerabilityId c

/-- The SBOM with identifier `i` is older than `sbom` in the eyes of the reconciliation. -/
def OlderThan (db : Database) (sbom : SBOM) (i : Uuid) : Prop :=
  ∃ s ∈ db.sboms, isOlder sbom s = true ∧ s.id = i

instance (db : Database) (sbom : SBOM) (i : Uuid) : Decidable (OlderThan db sbom i) :=
  inferInstanceAs (Decidable (∃ s ∈ db.sboms, _))

/-- An open link of an older SBOM whose vulnerability is not open on `sbom`. -/
def Superseded (db : Database) (sbom : SBOM) (l : SBOMVulnerability) : Prop :=
  OlderThan db sbom l.sbomId ∧ l.status = .OPEN ∧ ¬ db.OpenOn sbom.id l.vulnerabilityId

variable {db db' : Database} {sbom s : SBOM} {now : DateTime}

theorem retireStaleVulnerabilities_updated {cves : List String} :
    Database.LinksUpdated (Stale db sbom (· ∈ cves)) (·.fix now) db
      (db.write (retireStaleVulnerabilities db sbom cves now)) := by
  unfold retireStaleVulnerabilities
  split_ifs with hcves
  · refine Database.fixWhere_updated.congr fun l hl => ?_
    have hids : l.vulnerabilityId ∈
        (db.vulnerabilities.rows.filter fun v => cves.contains v.cveId).map (·.id) ↔
          ∃ c ∈ cves, db.HasCve l.vulnerabilityId c := by
      simp only [List.mem_map, List.mem_filter, List.contains_iff_mem]
      constructor
      · rintro ⟨v, ⟨hv, hc⟩, hid⟩
        exact ⟨v.cveId, hc, v, hv, hid, rfl⟩
      · rintro ⟨c, hc, v, hv, hid, rfl⟩
        exact ⟨v, ⟨hv, hc⟩, hid⟩
    simp only [Stale, Bool.and_eq_true, beq_iff_eq, Bool.not_eq_true', ← Bool.not_eq_true,
      List.contains_iff_mem, hids, and_assoc]
  · obtain rfl := not_not.1 hcves
    refine Database.fixWhere_updated.congr fun l hl => ?_
    simp [Stale]

/-- The reconciliation is one bulk update at most, of the superseded links. -/
theorem reconcileVulnerabilities_cases (db : Database) (sbom : SBOM) (now : DateTime) :
    (reconcileVulnerabilities db sbom now = [] ∧ ∀ l ∈ db.links, ¬ Superseded db sbom l) ∨
      ∃ p, reconcileVulnerabilities db sbom now = [db.fixWhere p now] ∧
        ∀ l ∈ db.links, p l = true ↔ Superseded db sbom l := by
  have holder : ∀ i, i ∈ (db.sboms.rows.filter (isOlder sbom)).map (·.id) ↔
      OlderThan db sbom i := fun i => by
    simp only [OlderThan, List.mem_map, List.mem_filter, and_assoc, Table.mem_rows]
  have hcurrent : ∀ v, v ∈ (db.links.rows.filter fun l =>
      l.sbomId == sbom.id && l.status == .OPEN).map (·.vulnerabilityId) ↔
        db.OpenOn sbom.id v := fun v => by
    simp only [Database.OpenOn, List.mem_map, List.mem_filter, Bool.and_eq_true, beq_iff_eq,
      Table.mem_rows]
    exact exists_congr fun l => by tauto
  simp only [reconcileVulnerabilities]
  split_ifs with hnone hempty
  · refine .inl ⟨rfl, fun l _ hl => ?_⟩
    have := (holder l.sbomId).2 hl.1
    rw [hnone] at this
    exact List.not_mem_nil this
  · refine .inr ⟨_, rfl, fun l hl => ?_⟩
    simp only [Superseded, Bool.and_eq_true, beq_iff_eq, Bool.not_eq_true', ← Bool.not_eq_true,
      List.contains_iff_mem, holder, hcurrent, and_assoc]
  · refine .inr ⟨_, rfl, fun l hl => ?_⟩
    have hno : ¬ db.OpenOn sbom.id l.vulnerabilityId := fun h => by
      have := (hcurrent l.vulnerabilityId).2 h
      rw [not_not.1 hempty] at this
      exact List.not_mem_nil this
    simp only [Superseded, Bool.and_eq_true, beq_iff_eq, List.contains_iff_mem, holder, hno,
      not_false_eq_true, and_true]

theorem reconcileVulnerabilities_updated :
    Database.LinksUpdated (Superseded db sbom) (·.fix now) db
      (db.writeAll (reconcileVulnerabilities db sbom now)) := by
  rcases reconcileVulnerabilities_cases db sbom now with ⟨hnil, hnone⟩ | ⟨p, hfix, hp⟩
  · rw [hnil]
    exact Database.LinksUpdated.refl hnone
  · rw [hfix]
    exact Database.fixWhere_updated.congr hp

/-! ### Scopes -/

/-- Every SBOM of a service belongs to the project of the service. -/
def ServiceOwned (db : Database) : Prop :=
  ∀ s ∈ db.sboms, ∀ v ∈ db.services, s.serviceId = some v.id → v.projectId = s.projectId

instance (db : Database) : Decidable (ServiceOwned db) :=
  inferInstanceAs (Decidable (∀ s ∈ db.sboms, ∀ v ∈ db.services, _))

/-- The SBOM with identifier `i` is in the scope of `sbom`. -/
def InScope (db : Database) (sbom : SBOM) (i : Uuid) : Prop :=
  ∃ s ∈ db.sboms, s.scope = sbom.scope ∧ s.id = i

instance (db : Database) (sbom : SBOM) (i : Uuid) : Decidable (InScope db sbom i) :=
  inferInstanceAs (Decidable (∃ s ∈ db.sboms, _))

/-- The filter by service alone selects the scope, because a service has one project. -/
theorem scopeFilter_iff (hown : ServiceOwned db) (hsbom : sbom ∈ db.sboms) (hs : s ∈ db.sboms) :
    scopeFilter sbom s = true ↔ s.scope = sbom.scope := by
  unfold scopeFilter SBOM.scope
  split
  · rename_i i hi
    rw [beq_iff_eq, Prod.mk.injEq, hi]
    refine ⟨fun h => ⟨?_, h⟩, fun h => h.2⟩
    -- both SBOMs name the same service, which has one project
    obtain ⟨v, hv, hid⟩ := db.sbomsService s hs i h
    rw [← hown s hs v hv (by rw [h, hid]), hown sbom hsbom v hv (by rw [hi, hid])]
  · rename_i hnone
    rw [Bool.and_eq_true, beq_iff_eq, beq_iff_eq, Prod.mk.injEq, hnone]

theorem isOlder_iff (hown : ServiceOwned db) (hsbom : sbom ∈ db.sboms) (hs : s ∈ db.sboms) :
    isOlder sbom s = true ↔ s.scope = sbom.scope ∧ s.uploadedAt < sbom.uploadedAt := by
  rw [isOlder, Bool.and_eq_true, Bool.and_eq_true, scopeFilter_iff hown hsbom hs, bne_iff_ne,
    decide_eq_true_eq, and_assoc]
  refine and_congr_right fun _ => and_iff_right_of_imp fun hlt heq => ?_
  rw [Database.sbom_eq hs hsbom heq] at hlt
  exact lt_irrefl _ hlt

theorem olderThan_iff (hown : ServiceOwned db) (hsbom : sbom ∈ db.sboms) (hs : s ∈ db.sboms) :
    OlderThan db sbom s.id ↔ s.scope = sbom.scope ∧ s.uploadedAt < sbom.uploadedAt := by
  rw [← isOlder_iff hown hsbom hs]
  constructor
  · rintro ⟨t, ht, hold, hid⟩
    rwa [← Database.sbom_eq ht hs hid]
  · exact fun h => ⟨s, hs, h, rfl⟩

theorem inScope_of_olderThan {L : SBOM} {i : Uuid} (hown : ServiceOwned db) (hL : L ∈ db.sboms)
    (hscope : L.scope = sbom.scope) (h : OlderThan db L i) : InScope db sbom i := by
  obtain ⟨s, hs, hold, hid⟩ := h
  exact ⟨s, hs, ((isOlder_iff hown hL hs).1 hold).1.trans hscope, hid⟩

theorem not_olderThan_self : ¬ OlderThan db sbom sbom.id := by
  rintro ⟨s, -, hold, hid⟩
  simp [isOlder, hid] at hold

/-! ### Exposure -/

/-- The vulnerabilities that are open on each SBOM. -/
def Database.exposure (db : Database) : Exposure Uuid Uuid := fun s => {v | db.OpenOn s v}

/-- The SBOM `i` is older than the SBOM `n`. -/
def Database.Older (db : Database) (i n : Uuid) : Prop :=
  ∃ sbom ∈ db.sboms, sbom.id = n ∧ OlderThan db sbom i

theorem older_iff {i : Uuid} (hsbom : sbom ∈ db.sboms) :
    db.Older i sbom.id ↔ OlderThan db sbom i := by
  constructor
  · rintro ⟨t, ht, hid, hold⟩
    rwa [← Database.sbom_eq ht hsbom hid]
  · exact fun h => ⟨sbom, hsbom, rfl, h⟩

theorem not_older_self {n : Uuid} : ¬ db.Older n n := by
  rintro ⟨sbom, -, rfl, hold⟩
  exact not_olderThan_self hold

end ArgusSbomGuard
