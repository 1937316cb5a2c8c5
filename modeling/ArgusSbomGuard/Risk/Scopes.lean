import ArgusSbomGuard.Risk.Acceptance
import ArgusSbomGuard.Risk.Actionable

/-!
# Scopes of acceptances

An acceptance is about a vulnerability in a project or in one of its services.  Two scopes are
comparable when one contains the other; a project-level scope contains every service.  This file
says which requests to create an acceptance succeed (`createRiskAcceptance_isOk_iff`), what a new
acceptance hides (`createRiskAcceptance_hides`) and what a deleted one brings back
(`deleteRiskAcceptance_restores`).

## Main definitions

* `CoversLink` : a link on an SBOM lies in a scope.
* `Comparable` : one of two scopes contains the other.
* `Acceptable` : what a request needs.
* `NoOverlap` : no two acceptances have comparable scopes.
-/

namespace ArgusSbomGuard

/-- The link on the SBOM is about the vulnerability and lies in the project, and in the service if
there is one. -/
def CoversLink (projectId vulnerabilityId : Uuid) (serviceId : Option Uuid) (l : SBOMVulnerability)
    (s : SBOM) : Prop :=
  l.vulnerabilityId = vulnerabilityId ∧ s.projectId = projectId ∧
    (serviceId = none ∨ s.serviceId = serviceId)

instance (projectId vulnerabilityId : Uuid) (serviceId : Option Uuid) (l : SBOMVulnerability)
    (s : SBOM) : Decidable (CoversLink projectId vulnerabilityId serviceId l s) :=
  inferInstanceAs (Decidable (_ ∧ _))

/-- The scope of an acceptance. -/
def RiskAcceptance.Covers (a : RiskAcceptance) : SBOMVulnerability → SBOM → Prop :=
  CoversLink a.projectId a.vulnerabilityId a.serviceId

/-- The scope of a request. -/
def RiskAcceptanceCreate.Covers (data : RiskAcceptanceCreate) : SBOMVulnerability → SBOM → Prop :=
  CoversLink data.projectId data.vulnerabilityId data.serviceId

/-- One of the scopes of the same vulnerability in the same project contains the other. -/
def Comparable (a b : Option Uuid) : Prop := a = none ∨ b = none ∨ a = b

instance (a b : Option Uuid) : Decidable (Comparable a b) :=
  inferInstanceAs (Decidable (_ ∨ _))

/-- What a request to create an acceptance needs. -/
structure Acceptable (db : Database) (data : RiskAcceptanceCreate) : Prop where
  project : ∃ p ∈ db.projects, p.id = data.projectId
  vulnerability : ∃ v ∈ db.vulnerabilities, v.id = data.vulnerabilityId
  service : ∀ i ∈ data.serviceId, ∃ v ∈ db.services, v.id = i ∧ v.projectId = data.projectId
  openLink : ∃ l ∈ db.links, ∃ s ∈ db.sboms, s.id = l.sbomId ∧ l.status = .OPEN ∧ data.Covers l s
  free : ∀ a ∈ db.riskAcceptances, a.projectId = data.projectId →
    a.vulnerabilityId = data.vulnerabilityId → ¬ Comparable a.serviceId data.serviceId

/-- No two acceptances of a vulnerability in a project have comparable scopes. -/
def NoOverlap (db : Database) : Prop :=
  ∀ a ∈ db.riskAcceptances, ∀ b ∈ db.riskAcceptances, a.projectId = b.projectId →
    a.vulnerabilityId = b.vulnerabilityId → Comparable a.serviceId b.serviceId → a = b

instance (db : Database) : Decidable (NoOverlap db) :=
  inferInstanceAs (Decidable (∀ a ∈ db.riskAcceptances, ∀ b ∈ db.riskAcceptances, _))

variable {db db' : Database} {data : RiskAcceptanceCreate} {newId : Uuid} {now : DateTime}

theorem Comparable.symm {a b : Option Uuid} (h : Comparable a b) : Comparable b a := by
  rcases h with h | h | h
  · exact .inr (.inl h)
  · exact .inl h
  · exact .inr (.inr h.symm)

/-- Two scopes in which the same link lies are comparable. -/
theorem Comparable.of_coversLink {p v p' v' : Uuid} {a b : Option Uuid} {l : SBOMVulnerability}
    {s : SBOM} (ha : CoversLink p v a l s) (hb : CoversLink p' v' b l s) :
    p = p' ∧ v = v' ∧ Comparable a b := by
  obtain ⟨hva, hpa, ha⟩ := ha
  obtain ⟨hvb, hpb, hb⟩ := hb
  refine ⟨hpa.symm.trans hpb, hva.symm.trans hvb, ?_⟩
  rcases ha with ha | ha
  · exact .inl ha
  · rcases hb with hb | hb
    · exact .inr (.inl hb)
    · exact .inr (.inr (ha.symm.trans hb))

theorem coveredByAcceptance_iff {l : SBOMVulnerability} {s : SBOM} :
    coveredByAcceptance db l s none = true ↔ ∃ a ∈ db.riskAcceptances, a.Covers l s := by
  simp only [coveredByAcceptance, List.any_eq_true, Table.mem_rows, Bool.and_eq_true,
    Bool.or_eq_true, beq_iff_eq, Option.all_none, and_true, RiskAcceptance.Covers, CoversLink]
  refine exists_congr fun a => and_congr_right fun _ => ?_
  constructor
  · rintro ⟨⟨hv, hp⟩, hs⟩
    exact ⟨hv.symm, hp.symm, hs.imp_right Eq.symm⟩
  · rintro ⟨hv, hp, hs⟩
    exact ⟨⟨hv.symm, hp.symm⟩, hs.imp_right Eq.symm⟩

theorem actionable_iff {l : SBOMVulnerability} {s : SBOM} : actionable db l s = true ↔
    l.status = .OPEN ∧ ∀ a ∈ db.riskAcceptances, ¬ a.Covers l s := by
  rw [actionable, Bool.and_eq_true, beq_iff_eq, Bool.not_eq_true', ← Bool.not_eq_true,
    coveredByAcceptance_iff, not_exists]
  simp only [not_and]

/-! ### When a request succeeds -/

theorem serviceBelongs_iff {projectId serviceId : Uuid} :
    serviceBelongs db projectId serviceId = true ↔
      ∃ v ∈ db.services, v.id = serviceId ∧ v.projectId = projectId := by
  unfold serviceBelongs
  constructor
  · intro h
    split at h
    · rename_i service hfind
      obtain ⟨hmem, hid⟩ := Table.mem_of_find? hfind
      exact ⟨service, hmem, beq_iff_eq.1 hid, beq_iff_eq.1 h⟩
    · cases h
  · rintro ⟨v, hv, rfl, rfl⟩
    have hfind : (db.services.find? fun u => u.id == v.id) = some v :=
      Table.find?_eq_some hv (beq_self_eq_true _) fun a ha => .inl (beq_iff_eq.1 ha)
    simp only [hfind, beq_self_eq_true]

theorem openInScope_iff : openInScope db data = true ↔
    ∃ l ∈ db.links, ∃ s ∈ db.sboms, s.id = l.sbomId ∧ l.status = .OPEN ∧ data.Covers l s := by
  simp only [openInScope, List.any_eq_true, Bool.and_eq_true, Bool.or_eq_true, beq_iff_eq,
    Table.mem_rows, Option.isNone_iff_eq_none, RiskAcceptanceCreate.Covers, CoversLink]
  constructor
  · rintro ⟨l, hl, ⟨hv, hst⟩, s, hs, ⟨hid, hp⟩, hscope⟩
    exact ⟨l, hl, s, hs, hid, hst, hv, hp, hscope⟩
  · rintro ⟨l, hl, s, hs, hid, hst, hv, hp, hscope⟩
    exact ⟨l, hl, ⟨hv, hst⟩, s, hs, ⟨hid, hp⟩, hscope⟩

theorem checkRequest_eq_ok : checkRequest db data = .ok () ↔
    (∃ p ∈ db.projects, p.id = data.projectId) ∧
      (∃ v ∈ db.vulnerabilities, v.id = data.vulnerabilityId) ∧
      (∀ i ∈ data.serviceId, ∃ v ∈ db.services, v.id = i ∧ v.projectId = data.projectId) ∧
      ∃ l ∈ db.links, ∃ s ∈ db.sboms, s.id = l.sbomId ∧ l.status = .OPEN ∧ data.Covers l s := by
  have hservice : (data.serviceId.any fun i => !serviceBelongs db data.projectId i) = false ↔
      ∀ i ∈ data.serviceId, ∃ v ∈ db.services, v.id = i ∧ v.projectId = data.projectId := by
    cases hid : data.serviceId with
    | none => exact iff_of_true rfl nofun
    | some i =>
      simp only [Option.any_some, Bool.not_eq_false', Option.mem_some_iff, forall_eq',
        serviceBelongs_iff]
  rw [← openInScope_iff, ← hservice]
  unfold checkRequest
  split_ifs with hp hv hs ho <;> simp_all

theorem mem_existingAcceptances {a : RiskAcceptance} : a ∈ existingAcceptances db data ↔
    a ∈ db.riskAcceptances ∧ a.projectId = data.projectId ∧
      a.vulnerabilityId = data.vulnerabilityId := by
  simp only [existingAcceptances, List.mem_filter, Bool.and_eq_true, beq_iff_eq, Table.mem_rows]

/-- The checks on what is there reject comparable scopes. -/
theorem checkExisting_eq_ok {serviceId : Option Uuid} {existing : List RiskAcceptance} :
    checkExisting serviceId existing = .ok () ↔
      ∀ a ∈ existing, ¬ Comparable a.serviceId serviceId := by
  cases serviceId with
  | none =>
    simp only [checkExisting]
    split_ifs with h
    · refine iff_of_false nofun fun hfree => ?_
      obtain ⟨a, ha⟩ := List.exists_mem_of_ne_nil _ h
      exact hfree a ha (.inr (.inl rfl))
    · rw [not_not] at h
      rw [h]
      exact iff_of_true rfl fun a ha => absurd ha List.not_mem_nil
  | some serviceId =>
    simp only [checkExisting]
    split_ifs with hproject hservice
    · refine iff_of_false nofun fun hfree => ?_
      obtain ⟨a, ha, hnone⟩ := List.any_eq_true.1 hproject
      exact hfree a ha (.inl (beq_iff_eq.1 hnone))
    · refine iff_of_false nofun fun hfree => ?_
      obtain ⟨a, ha, hsame⟩ := List.any_eq_true.1 hservice
      exact hfree a ha (.inr (.inr (beq_iff_eq.1 hsame)))
    · refine iff_of_true rfl fun a ha hcomp => ?_
      rcases hcomp with h | h | h
      · exact hproject (List.any_eq_true.2 ⟨a, ha, beq_iff_eq.2 h⟩)
      · cases h
      · exact hservice (List.any_eq_true.2 ⟨a, ha, beq_iff_eq.2 h⟩)

/-- The insert of a request that passed the checks succeeds. -/
theorem insertRiskAcceptance_isOk (hid : ∀ a ∈ db.riskAcceptances, a.id ≠ newId)
    (hacc : Acceptable db data) :
    ∃ db', db.insertRiskAcceptance (data.row newId now) = .ok db' := by
  have hfree : ∀ a ∈ db.riskAcceptances, ¬ Clash a (data.row newId now) := by
    rintro a ha (h | ⟨hp, hs, hv⟩)
    · exact hid a ha h
    · exact hacc.free a ha hp hv (.inr (.inr hs))
  have hservice : ∀ i ∈ (data.row newId now).serviceId, ∃ v ∈ db.services, v.id = i := by
    intro i hi
    obtain ⟨v, hv, hvi, -⟩ := hacc.service i hi
    exact ⟨v, hv, hvi⟩
  have hfit : (!fitsText (data.row newId now).reason) = false := by
    rw [Bool.not_eq_false']
    exact data.reasonFits
  rw [Database.insertRiskAcceptance, if_neg (ne_true_of_eq_false hfit),
    dif_pos ⟨hacc.project, hservice, hacc.vulnerability⟩]
  exact Database.insertRow_isOk.2 hfree

/-- **A request succeeds exactly when it is acceptable**, for an identifier that is new. -/
theorem createRiskAcceptance_isOk_iff (hid : ∀ a ∈ db.riskAcceptances, a.id ≠ newId) :
    (∃ db', createRiskAcceptance db data newId now = .ok db') ↔ Acceptable db data := by
  constructor
  · rintro ⟨db', h⟩
    simp only [createRiskAcceptance, bind_eq_ok] at h
    obtain ⟨_, hrequest, _, hexisting, -⟩ := h
    obtain ⟨hp, hv, hs, ho⟩ := checkRequest_eq_ok.1 hrequest
    refine ⟨hp, hv, hs, ho, fun a ha hap hav => ?_⟩
    exact checkExisting_eq_ok.1 hexisting a (mem_existingAcceptances.2 ⟨ha, hap, hav⟩)
  · intro hacc
    obtain ⟨db', hins⟩ : ∃ db', db.insertRiskAcceptance (data.row newId now) = .ok db' :=
      insertRiskAcceptance_isOk hid hacc
    have hrequest : checkRequest db data = .ok () :=
      checkRequest_eq_ok.2 ⟨hacc.project, hacc.vulnerability, hacc.service, hacc.openLink⟩
    have hexisting : checkExisting data.serviceId (existingAcceptances db data) = .ok () := by
      refine checkExisting_eq_ok.2 fun a ha => ?_
      obtain ⟨ha, hap, hav⟩ := mem_existingAcceptances.1 ha
      exact hacc.free a ha hap hav
    refine ⟨db', ?_⟩
    rw [createRiskAcceptance, hrequest, hexisting]
    simp only [hins]
    rfl

/-! ### What a success does -/

/-- A successful request adds its acceptance, which has no comparable one. -/
theorem createRiskAcceptance_inserted (h : createRiskAcceptance db data newId now = .ok db') :
    (∀ a ∈ db.riskAcceptances, a.projectId = data.projectId →
        a.vulnerabilityId = data.vulnerabilityId → ¬ Comparable a.serviceId data.serviceId) ∧
      ∀ a, a ∈ db'.riskAcceptances ↔ a ∈ db.riskAcceptances ∨ a = data.row newId now := by
  simp only [createRiskAcceptance, bind_eq_ok] at h
  obtain ⟨_, -, _, hexisting, h⟩ := h
  refine ⟨fun a ha hap hav => ?_, ?_⟩
  · exact checkExisting_eq_ok.1 hexisting a (mem_existingAcceptances.2 ⟨ha, hap, hav⟩)
  · split at h
    · rename_i db₁ hins
      cases h
      obtain ⟨t, ht, htables⟩ := Database.insertRiskAcceptance_eq_ok hins
      intro a
      rw [show db'.riskAcceptances = t by rw [htables], Table.mem_insert? ht]
    · cases h
    · cases h

/-- **A new acceptance hides the open links of its scope, and no others.** -/
theorem createRiskAcceptance_hides (h : createRiskAcceptance db data newId now = .ok db')
    (l : SBOMVulnerability) (s : SBOM) :
    (l.status = .OPEN → data.Covers l s →
        actionable db l s = true ∧ actionable db' l s = false) ∧
      (¬ (l.status = .OPEN ∧ data.Covers l s) → actionable db' l s = actionable db l s) := by
  obtain ⟨hfree, hmem⟩ := createRiskAcceptance_inserted h
  constructor
  · intro hst hcovers
    constructor
    · refine actionable_iff.2 ⟨hst, fun a ha hcov => ?_⟩
      obtain ⟨hp, hv, hcomp⟩ := Comparable.of_coversLink hcov hcovers
      exact hfree a ha hp hv hcomp
    · rw [← Bool.not_eq_true, actionable_iff]
      exact fun hact => hact.2 _ ((hmem _).2 (.inr rfl)) hcovers
  · intro hother
    rw [Bool.eq_iff_iff, actionable_iff, actionable_iff]
    refine and_congr_right fun hst => ?_
    simp only [hmem, or_imp, forall_and, forall_eq]
    exact and_iff_left fun hcovers => hother ⟨hst, hcovers⟩

/-- **A deleted acceptance brings the open links of its scope back**, where no scopes overlap. -/
theorem deleteRiskAcceptance_restores (hnone : NoOverlap db) {a : RiskAcceptance}
    (ha : a ∈ db.riskAcceptances) : ∃ db', deleteRiskAcceptance db a.id = .ok db' ∧
      db'.toTables = { db.toTables with riskAcceptances := db'.riskAcceptances } ∧
      ∀ l s, l.status = .OPEN → a.Covers l s →
        actionable db l s = false ∧ actionable db' l s = true := by
  have hfind : (db.riskAcceptances.find? fun b => b.id == a.id) = some a :=
    Table.find?_eq_some ha (beq_self_eq_true _) fun b hb => .inl (beq_iff_eq.1 hb)
  refine ⟨db.deleteRiskAcceptances fun b => b.id == a.id, by rw [deleteRiskAcceptance, hfind], rfl,
    fun l s hst hcovers => ⟨?_, ?_⟩⟩
  · rw [← Bool.not_eq_true, actionable_iff]
    exact fun hact => hact.2 a ha hcovers
  · refine actionable_iff.2 ⟨hst, fun b hb hcov => ?_⟩
    obtain ⟨hb, hne⟩ := Table.mem_deleteWhere.1 hb
    obtain ⟨hp, hv, hcomp⟩ := Comparable.of_coversLink hcov hcovers
    -- the only comparable acceptance is the one that went
    obtain rfl := hnone b hb a ha hp hv hcomp
    exact absurd (beq_self_eq_true b.id) (ne_true_of_eq_false hne)

end ArgusSbomGuard
