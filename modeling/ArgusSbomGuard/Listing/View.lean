import ArgusSbomGuard.Metrics.Posture
import ArgusSbomGuard.Risk.Tabs
import ArgusSbomGuard.System.Maintained
import Mathlib.Data.String.Basic

/-!
# What the lists show of the findings

The list of open vulnerabilities and the summary read links and SBOMs, but of these they show only
in which scopes each vulnerability is open and not accepted.  Two databases that agree on that give
the same answers (`SameView`).  Retention removes SBOMs with their links; where the latest SBOM of
each scope covers it, that cannot be seen in the answers (`prune_invisible`).

## Main definitions

* `SameView` : the same vulnerabilities are open in the same scopes.
-/

namespace ArgusSbomGuard

/-- The same vulnerabilities are open in the same scopes of the same projects and services. -/
structure SameView (db db' : Database) : Prop where
  projects : db'.projects = db.projects
  services : db'.services = db.services
  vulnerabilities : db'.vulnerabilities = db.vulnerabilities
  scopes : ∀ p v scope, OpenScope db' p v scope ↔ OpenScope db p v scope

variable {db db' : Database} {lower : String → String} {filters : VulnFilters} {v : Vulnerability}

/-! ### The parts of an answer -/

theorem mem_openLinksOf {i : Uuid} {l : SBOMVulnerability} {s : SBOM} :
    (l, s) ∈ openLinksOf db i ↔ l ∈ db.links ∧ s ∈ db.sboms ∧ s.id = l.sbomId ∧
      actionable db l s = true ∧ l.vulnerabilityId = i := by
  rw [openLinksOf, mem_joinLinks, Bool.and_eq_true, beq_iff_eq]

theorem mem_projectMap {i : Uuid} {name : String} : name ∈ projectMap db i ↔
    ∃ p scope, OpenScope db p i scope ∧
      ((db.projects.find? fun q => q.id == p).map (·.name)).getD "" = name := by
  simp only [projectMap, List.mem_map, Prod.exists, mem_openLinksOf]
  constructor
  · rintro ⟨l, s, ⟨hl, hs, hid, hact, hv⟩, rfl⟩
    exact ⟨s.projectId, s.serviceId, ⟨l, hl, s, hs, hid, hact, hv, rfl, rfl⟩, rfl⟩
  · rintro ⟨p, scope, ⟨l, hl, s, hs, hid, hact, hv, rfl, -⟩, rfl⟩
    exact ⟨l, s, ⟨hl, hs, hid, hact, hv⟩, rfl⟩

theorem mem_serviceMap {i : Uuid} {name : String} : name ∈ serviceMap db i ↔
    ∃ p scope, OpenScope db p i scope ∧ serviceName db scope = some name := by
  simp only [serviceMap, List.mem_filterMap, Prod.exists, mem_openLinksOf]
  constructor
  · rintro ⟨l, s, ⟨hl, hs, hid, hact, hv⟩, hname⟩
    exact ⟨s.projectId, s.serviceId, ⟨l, hl, s, hs, hid, hact, hv, rfl, rfl⟩, hname⟩
  · rintro ⟨p, scope, ⟨l, hl, s, hs, hid, hact, hv, -, rfl⟩, hname⟩
    exact ⟨l, s, ⟨hl, hs, hid, hact, hv⟩, hname⟩

/-- The rows of the query of the list, by their scopes. -/
theorem exists_openRow {p : Uuid} {scope : Option Uuid} :
    (∃ s, (v, s) ∈ openVulnRows db ∧ s.projectId = p ∧ s.serviceId = scope) ↔
      v ∈ db.vulnerabilities ∧ OpenScope db p v.id scope := by
  simp only [openVulnRows, List.mem_flatMap, Prod.exists, mem_joinLinks, List.mem_map,
    List.mem_filter, beq_iff_eq, Table.mem_rows, Prod.mk.injEq]
  constructor
  · rintro ⟨s, ⟨l, s, ⟨hl, hs, hid, hact⟩, v, ⟨hv, hlv⟩, rfl, rfl⟩, hp, hscope⟩
    exact ⟨hv, l, hl, s, hs, hid, hact, hlv.symm, hp, hscope⟩
  · rintro ⟨hv, l, hl, s, hs, hid, hact, hlv, hp, hscope⟩
    exact ⟨s, ⟨l, s, ⟨hl, hs, hid, hact⟩, v, ⟨hv, hlv.symm⟩, rfl, rfl⟩, hp, hscope⟩

/-- Of an SBOM the filters see its project and its service. -/
theorem admits_congr {s s' : SBOM} (hproject : s.projectId = s'.projectId)
    (hservice : s.serviceId = s'.serviceId) :
    filters.admits lower v s = filters.admits lower v s' := by
  rw [admits_eq_textsAdmit, admits_eq_textsAdmit, hproject, hservice]

/-- A sorted set depends on what is in it. -/
theorem sortedSet_congr {xs ys : List String} (h : ∀ x, x ∈ xs ↔ x ∈ ys) :
    sortedSet xs = sortedSet ys := by
  have hperm : (xs.filter fun text => text ≠ "").dedup.Perm
      (ys.filter fun text => text ≠ "").dedup := by
    refine (List.perm_ext_iff_of_nodup (List.nodup_dedup _) (List.nodup_dedup _)).2 fun x => ?_
    simp only [List.mem_dedup, List.mem_filter, h]
  have hsorted : ∀ zs : List String,
      (zs.insertionSort fun a b => a ≤ b).Pairwise fun a b => a ≤ b :=
    List.pairwise_insertionSort _
  refine List.Perm.eq_of_pairwise' (hsorted _) (hsorted _) ?_
  exact (List.perm_insertionSort _ _).trans (hperm.trans (List.perm_insertionSort _ _).symm)

theorem SameView.symm (h : SameView db db') : SameView db' db where
  projects := h.projects.symm
  services := h.services.symm
  vulnerabilities := h.vulnerabilities.symm
  scopes p v scope := (h.scopes p v scope).symm

namespace SameView

variable (h : SameView db db')
include h

theorem response (v : Vulnerability) :
    vulnerabilityResponse db' v = vulnerabilityResponse db v := by
  have hprojects : sortedSet (projectMap db' v.id) = sortedSet (projectMap db v.id) := by
    refine sortedSet_congr fun name => ?_
    simp only [mem_projectMap, h.projects, h.scopes]
  have hservices : sortedSet (serviceMap db' v.id) = sortedSet (serviceMap db v.id) := by
    refine sortedSet_congr fun name => ?_
    simp only [mem_serviceMap, serviceName, h.services, h.scopes]
  rw [vulnerabilityResponse, vulnerabilityResponse, hprojects, hservices]

/-- The query of the list has the same rows, as far as the filters see. -/
theorem exists_row_iff {P : Except PyError Bool → Prop} :
    (∃ s, (v, s) ∈ openVulnRows db' ∧ P (filters.admits lower v s)) ↔
      ∃ s, (v, s) ∈ openVulnRows db ∧ P (filters.admits lower v s) := by
  have hrows : ∀ p scope, (∃ s, (v, s) ∈ openVulnRows db' ∧ s.projectId = p ∧ s.serviceId = scope) ↔
      ∃ s, (v, s) ∈ openVulnRows db ∧ s.projectId = p ∧ s.serviceId = scope := by
    intro p scope
    rw [exists_openRow, exists_openRow, h.scopes, h.vulnerabilities]
  constructor
  · rintro ⟨s, hs, hP⟩
    obtain ⟨s', hs', hp, hscope⟩ := (hrows _ _).1 ⟨s, hs, rfl, rfl⟩
    exact ⟨s', hs', admits_congr hp hscope ▸ hP⟩
  · rintro ⟨s, hs, hP⟩
    obtain ⟨s', hs', hp, hscope⟩ := (hrows _ _).2 ⟨s, hs, rfl, rfl⟩
    exact ⟨s', hs', admits_congr hp hscope ▸ hP⟩

theorem filtersWork (hwork : FiltersWork db lower filters) : FiltersWork db' lower filters := by
  rintro ⟨v, s⟩ hs
  by_contra hfails
  obtain ⟨s', hs', hfails'⟩ :=
    (h.exists_row_iff (P := fun r => ¬ ∃ b, r = .ok b)).1 ⟨s, hs, hfails⟩
  exact hfails' (hwork _ hs')

theorem matching_eq : matching db' lower filters = matching db lower filters := by
  rw [matching, matching, h.vulnerabilities]
  refine List.filter_congr fun v hv => Bool.eq_iff_iff.2 ?_
  have hv' : v ∈ db'.vulnerabilities := h.vulnerabilities ▸ hv
  have hrow : ∀ db : Database, v ∈ db.vulnerabilities →
      (((openVulnRows db).any fun row => row.1.id == v.id &&
        (filters.admits lower row.1 row.2).toOption == some true) = true ↔
      ∃ s, (v, s) ∈ openVulnRows db ∧ (filters.admits lower v s).toOption = some true) := by
    intro db hv
    simp only [List.any_eq_true, Bool.and_eq_true, beq_iff_eq, Prod.exists]
    constructor
    · rintro ⟨u, s, hs, hid, hadmits⟩
      have hu : u ∈ db.vulnerabilities := (mem_openVulnRows.1 ⟨s, hs⟩).1
      obtain rfl : u = v := Table.eq_of_clash hu hv (.inl hid)
      exact ⟨s, hs, hadmits⟩
    · rintro ⟨s, hs, hadmits⟩
      exact ⟨v, s, hs, rfl, hadmits⟩
  rw [hrow db' hv', hrow db hv]
  exact h.exists_row_iff (P := fun r => r.toOption = some true)

/-- The list has the same answer to every request. -/
theorem activeVulnerabilities {query : ActiveQuery}
    {tie : TieOrder (applyVulnOrdering query.sort query.order)}
    {response : PageResponse VulnerabilityResponse}
    (hok : activeVulnerabilities db lower query tie = .ok response) :
    activeVulnerabilities db' lower query tie = .ok response := by
  obtain ⟨rows, hrows, hpage⟩ := bind_eq_ok.1 hok
  have hwork := filtersWork_of_isOk hrows
  obtain rfl : matching db lower query.filters = rows :=
    Except.ok.inj ((selectVulnerabilities_eq hwork).symm.trans hrows)
  refine bind_eq_ok.2 ⟨_, selectVulnerabilities_eq (h.filtersWork hwork), ?_⟩
  rw [h.matching_eq, funext h.response]
  exact hpage

/-- A vulnerability is open in the same projects. -/
theorem openIn {p i : Uuid} : OpenIn db' p i ↔ OpenIn db p i := by
  simp only [openIn_iff_exists_scope, h.scopes]

/-- The summary has the same counts. -/
theorem summary : vulnerabilitySummary db' = vulnerabilitySummary db := by
  have hcounts : distinctCounts db' = distinctCounts db := by
    rw [distinctCounts_eq, distinctCounts_eq]
    simp only [posture, openRated, h.openIn, h.vulnerabilities]
  have haffected : (projectRows db').dedup.length = (projectRows db).dedup.length := by
    have hposture : (posture db').affectedProjects = (posture db).affectedProjects := by
      simp only [posture, h.openIn]
    rw [← countDistinct_projectRows, ← countDistinct_projectRows] at hposture
    exact hposture
  rw [vulnerabilitySummary, vulnerabilitySummary, hcounts, haffected]

end SameView

/-! ### Retention -/

variable {cutoff : DateTime}

/-- A link that survives is as actionable as it was. -/
theorem Retained.actionable_eq (h : Retained db cutoff db') (l : SBOMVulnerability) (s : SBOM) :
    actionable db' l s = actionable db l s := by
  have hframe : db'.riskAcceptances = db.riskAcceptances := by rw [h.frame]
  rw [actionable, actionable, coveredByAcceptance, coveredByAcceptance, hframe]

/-- Where the latest SBOM covers its scope, the others are not missed. -/
theorem Retained.sameView (h : Retained db cutoff db')
    (hcovers : ∀ L ∈ db.sboms, IsLatest db L → db.exposure.Covers {i | InScope db L i} L.id) :
    SameView db db' where
  projects := by rw [h.frame]
  services := by rw [h.frame]
  vulnerabilities := by rw [h.frame]
  scopes p i scope := by
    constructor
    · rintro ⟨l, hl, s, hs, hid, hact, hv, hp, hscope⟩
      rw [h.actionable_eq] at hact
      exact ⟨l, (h.mem_links.1 hl).1, s, (h.mem_sboms.1 hs).1, hid, hact, hv, hp, hscope⟩
    · rintro ⟨l, hl, s, hs, hid, hact, hv, hp, hscope⟩
      obtain ⟨L, hL, hLscope, hlatest⟩ := h.exists_latest hs
      obtain ⟨hst, hfree⟩ := actionable_iff.1 hact
      -- the latest SBOM has an open link of its own for the vulnerability
      obtain ⟨l', hl', hLid, hlv, hst'⟩ : db.OpenOn L.id i :=
        hcovers L (h.mem_sboms.1 hL).1 hlatest s.id ⟨s, hs, hLscope.symm, rfl⟩
          ⟨l, hl, hid.symm, hv, hst⟩
      obtain ⟨hLp, hLs⟩ := Prod.mk.inj hLscope
      refine ⟨l', h.mem_links.2 ⟨hl', L, hL, hLid.symm⟩, L, hL, hLid.symm, ?_, hlv, hLp.trans hp,
        hLs.trans hscope⟩
      rw [h.actionable_eq]
      refine actionable_iff.2 ⟨hst', fun a ha hcov => hfree a ha ?_⟩
      obtain ⟨hav, hap, has⟩ := hcov
      exact ⟨hv.trans (hlv.symm.trans hav), hLp.symm.trans hap, has.imp_right hLs.symm.trans⟩

/-- Where every latest SBOM was scanned, retention keeps the view. -/
theorem sameView_of_prune {env : Env} {w : World} (hw : (system env).Reaches (Maintained env) w)
    (hscanned : ∀ L ∈ w.db.sboms, IsLatest w.db L → L.id ∈ w.scanned) {days : Option ℕ}
    {today : Date} (hprune : pruneSboms w.db days today = .ok db') : SameView w.db db' := by
  cases days with
  | none =>
    obtain rfl : w.db = db' := Except.ok.inj hprune
    exact ⟨rfl, rfl, rfl, fun _ _ _ => Iff.rfl⟩
  | some days =>
    obtain ⟨d, -, hretained⟩ := retained_of_ok hprune
    exact hretained.sameView fun L hL hlatest =>
      latest_covers hw hL hlatest (hscanned L hL hlatest)

/-- **Retention cannot be seen in the answers.**  After a run of uploads and scans in order, with
acceptances and earlier retention between them, when every latest SBOM was scanned, retention
changes nothing in the pages of the list of open vulnerabilities, in the summary and in the scopes
in which a vulnerability is open. -/
theorem prune_invisible {env : Env} {w : World} (hw : (system env).Reaches (Maintained env) w)
    (hscanned : ∀ L ∈ w.db.sboms, IsLatest w.db L → L.id ∈ w.scanned) {days : Option ℕ}
    {today : Date} (hprune : pruneSboms w.db days today = .ok db') :
    (∀ lower query tie response, activeVulnerabilities db' lower query tie = .ok response ↔
      activeVulnerabilities w.db lower query tie = .ok response) ∧
    vulnerabilitySummary db' = vulnerabilitySummary w.db ∧
    ∀ p v scope, OpenScope db' p v scope ↔ OpenScope w.db p v scope := by
  have hview := sameView_of_prune hw hscanned hprune
  exact ⟨fun _ _ _ _ => ⟨hview.symm.activeVulnerabilities, hview.activeVulnerabilities⟩,
    hview.summary, hview.scopes⟩

/-- Retention removes the older of two releases. -/
theorem demoUpkeep_prune : ∃ db', pruneSboms demoUpkeep.db (some 1) 5 = .ok db' ∧
    (∃ s ∈ demoUpkeep.db.sboms, s.id = 11) ∧ ¬ ∃ s ∈ db'.sboms, s.id = 11 := by
  have hgone : (pruneSboms demoUpkeep.db (some 1) 5).toOption.any fun db' =>
      decide ¬ ∃ s ∈ db'.sboms, s.id = 11 := by decide +kernel
  cases hprune : pruneSboms demoUpkeep.db (some 1) 5 with
  | error e =>
    rw [hprune] at hgone
    cases hgone
  | ok db' =>
    rw [hprune] at hgone
    exact ⟨db', rfl, by decide +kernel, of_decide_eq_true hgone⟩

/-- What is open after the removal is open before. -/
theorem prune_invisible_demo : ∃ db', pruneSboms demoUpkeep.db (some 1) 5 = .ok db' ∧
    (∃ s ∈ demoUpkeep.db.sboms, s.id = 11) ∧ (¬ ∃ s ∈ db'.sboms, s.id = 11) ∧
    vulnerabilitySummary db' = vulnerabilitySummary demoUpkeep.db ∧
    ∀ p v scope, OpenScope db' p v scope ↔ OpenScope demoUpkeep.db p v scope := by
  obtain ⟨db', hprune, hthere, hgone⟩ := demoUpkeep_prune
  have hinvisible := prune_invisible demoUpkeep_reaches (by decide +kernel) hprune
  exact ⟨db', hprune, hthere, hgone, hinvisible.2⟩

end ArgusSbomGuard
