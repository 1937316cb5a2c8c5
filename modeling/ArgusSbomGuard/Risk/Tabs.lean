import ArgusSbomGuard.Listing.Pages
import ArgusSbomGuard.Listing.Tools
import ArgusSbomGuard.System.Acceptances

/-!
# The two tabs of the vulnerability page

`vulnerabilities_page` of `api/pages/vulnerabilities.py` lists the open vulnerabilities on one tab,
those that are accepted on the other, with the same filters.  The filter of a service is about the
SBOM of a finding on the one and about the scope of the acceptance on the other.  So what is open in
a service is on exactly one of the tabs, unless it is accepted for the whole project: then it is on
none of the two, and appears among the accepted ones only when the filter is taken away
(`tabs_of_service`).

## Main definitions

* `selectAccepted` : the query of `_accepted_page`.
* `AcceptedFor` : a vulnerability is accepted in exactly this scope.
* `AcceptanceOwned` : an acceptance for a service is one of the service's project.
-/

namespace ArgusSbomGuard

/-- A row of the query of `_accepted_page`. -/
abbrev AcceptedRow := RiskAcceptance × Vulnerability × String × Option String

variable (db : Database) (lower : String → String)

/-- The acceptances joined with their vulnerabilities and projects, and outer-joined with their
services. -/
def acceptedRows : List AcceptedRow :=
  db.riskAcceptances.rows.flatMap fun a =>
    (db.vulnerabilities.rows.filter fun v => v.id == a.vulnerabilityId).flatMap fun v =>
      (projectNames db a.projectId).map fun name => (a, v, name, serviceName db a.serviceId)

/-- The conditions of `severity` and `cve_id`, which are the same on both tabs. -/
def VulnFilters.textsAdmit (filters : VulnFilters) (v : Vulnerability) : Except PyError Bool := do
  if !(← severityFilter lower filters.severity v) then return false
  cveFilter lower filters.cveId v

/-- The conditions of the filters on an acceptance. -/
def VulnFilters.admitsAcceptance (filters : VulnFilters) (r : AcceptedRow) :
    Except PyError Bool := do
  if !(← filters.textsAdmit lower r.2.1) then return false
  return filters.projectId.all (fun i => r.1.projectId == i) &&
    filters.serviceId.all fun i => r.1.serviceId == some i

/-- The query of `_accepted_page`. -/
def selectAccepted (filters : VulnFilters) : Except PyError (List AcceptedRow) :=
  selectWhere (filters.admitsAcceptance lower) (acceptedRows db)

/-- The vulnerability is accepted in exactly this scope, a service or the whole project. -/
def AcceptedFor (p : Uuid) (scope : Option Uuid) (v : Uuid) : Prop :=
  ∃ a ∈ db.riskAcceptances, a.projectId = p ∧ a.serviceId = scope ∧ a.vulnerabilityId = v

instance (p : Uuid) (scope : Option Uuid) (v : Uuid) : Decidable (AcceptedFor db p scope v) :=
  inferInstanceAs (Decidable (∃ a ∈ db.riskAcceptances, _))

/-- The vulnerability has an open link, accepted or not, on an SBOM of the service. -/
def OpenInService (s v : Uuid) : Prop :=
  ∃ l ∈ db.links, ∃ sbom ∈ db.sboms, sbom.id = l.sbomId ∧ l.status = .OPEN ∧
    l.vulnerabilityId = v ∧ sbom.serviceId = some s

/-- The service of an acceptance belongs to its project. -/
def AcceptanceOwned : Prop :=
  ∀ a ∈ db.riskAcceptances, ∀ v ∈ db.services, a.serviceId = some v.id → v.projectId = a.projectId

instance (s v : Uuid) : Decidable (OpenInService db s v) :=
  inferInstanceAs (Decidable (∃ l ∈ db.links, ∃ sbom ∈ db.sboms, _))

instance : Decidable (AcceptanceOwned db) :=
  inferInstanceAs (Decidable (∀ a ∈ db.riskAcceptances, ∀ v ∈ db.services, _))

variable {db lower} {db' : Database} {env : Env} {w w' : World} {filters : VulnFilters}
  {v : Vulnerability}

/-! ### Acceptances and their services -/

/-- A service is not added under the identifier of one that an acceptance is about. -/
theorem AcceptanceOwned.of_services (h : AcceptanceOwned db) (hkept : AcceptancesKept db db')
    (hservices : ∀ v ∈ db'.services, v ∈ db.services ∨ ∀ u ∈ db.services, u.id ≠ v.id) :
    AcceptanceOwned db' := by
  intro a ha v hv hav
  have hold : a ∈ db.riskAcceptances := hkept a ha
  rcases hservices v hv with hv | hnew
  · exact h a hold v hv hav
  · obtain ⟨u, hu, hid⟩ := db.acceptancesService a hold v.id hav
    exact absurd hid (hnew u hu)

theorem Stored.new_service {p : Uuid} {now : DateTime} {sbom : SBOM}
    (h : Stored p now sbom db db') {v : Service} (hv : v ∈ db'.services) :
    v ∈ db.services ∨ ∀ u ∈ db.services, u.id ≠ v.id := by
  rcases h.services with he | ⟨new, hnew⟩
  · exact .inl (he ▸ hv)
  · rcases (Table.mem_insert? hnew).1 hv with hv | rfl
    · exact .inl hv
    · exact .inr fun u hu hid => (Table.insert?_eq_some hnew).1 u hu (.inl hid)

/-- Nothing adds a service under a used identifier. -/
theorem services_step (howned : ServiceOwned w.db) {a : Action}
    (hst : World.step env w a = some w') :
    ∀ v ∈ w'.db.services, v ∈ w.db.services ∨ ∀ u ∈ w.db.services, u.id ≠ v.id := by
  intro v hv
  cases World.step_effect hst with
  | unchanged h => exact .inl (h ▸ hv)
  | createProject h => rw [createProject_eq_ok h] at hv; exact .inl hv
  | deleteProject h => exact .inl ((deleteProject_trimmed h).services v hv)
  | deleteService h => exact .inl ((deleteService_trimmed h).services v hv)
  | storeSbom h =>
    rcases storeSbom_eq_ok h with ⟨heq, -⟩ | hstored
    · exact .inl (heq ▸ hv)
    · exact hstored.new_service hv
  | scanSbom _ _ h => rw [h.frame] at hv; exact .inl hv
  | deleteSbom _ h =>
    obtain ⟨sbom, -, -, heffect⟩ := deleteSbom_eq_ok howned h
    rw [heffect.frame] at hv
    exact .inl hv
  | pruneSboms h => exact .inl ((pruneSboms_trimmed h).services v hv)
  | createRiskAcceptance h => rw [createRiskAcceptance_eq_ok h] at hv; exact .inl hv
  | deleteRiskAcceptance h => rw [deleteRiskAcceptance_eq_ok h] at hv; exact .inl hv

/-- A request for an acceptance names a service of the project. -/
theorem acceptanceOwned_step (howned : ServiceOwned w.db) (h : AcceptanceOwned w.db) {a : Action}
    (hst : World.step env w a = some w') : AcceptanceOwned w'.db := by
  rcases acceptances_step howned hst with hkept | ⟨data, newId, now, hok⟩
  · exact h.of_services hkept (services_step howned hst)
  · have hrequest : checkRequest w.db data = .ok () := by
      obtain ⟨u, hrequest, -⟩ := bind_eq_ok.1 hok
      exact hrequest
    have hframe : w'.db.services = w.db.services := by rw [createRiskAcceptance_eq_ok hok]
    intro a ha v hv hav
    rw [hframe] at hv
    rcases ((createRiskAcceptance_inserted hok).2 a).1 ha with ha | rfl
    · exact h a ha v hv hav
    · obtain ⟨-, -, hservice, -⟩ := checkRequest_eq_ok.1 hrequest
      obtain ⟨u, hu, hid, hp⟩ := hservice v.id hav
      rw [Database.service_eq hv hu hid.symm]
      exact hp

theorem acceptanceOwned (hw : (system env).Reachable w) : AcceptanceOwned w.db :=
  hw.invariant_under (I := fun w => SystemInvariant w.db) systemInvariant_empty
    (fun _ _ _ hinv hst => systemInvariant_step hinv hst)
    (fun _ ha => absurd ha (Table.not_mem_empty _))
    fun _ _ _ hinv howned _ hst => acceptanceOwned_step hinv.owned howned hst

/-! ### The rows of the tabs -/

theorem mem_acceptedRows {r : AcceptedRow} : r ∈ acceptedRows db ↔
    r.1 ∈ db.riskAcceptances ∧ (r.2.1 ∈ db.vulnerabilities ∧ r.2.1.id = r.1.vulnerabilityId) ∧
      r.2.2.1 ∈ projectNames db r.1.projectId ∧ r.2.2.2 = serviceName db r.1.serviceId := by
  obtain ⟨a, v, name, service⟩ := r
  simp only [acceptedRows, List.mem_flatMap, List.mem_map, List.mem_filter, beq_iff_eq,
    Table.mem_rows, Prod.mk.injEq]
  constructor
  · rintro ⟨a, ha, v, hv, name, hname, rfl, rfl, rfl, rfl⟩
    exact ⟨ha, hv, hname, rfl⟩
  · rintro ⟨ha, hv, hname, rfl⟩
    exact ⟨a, ha, v, hv, name, hname, rfl, rfl, rfl, rfl⟩

/-- Every acceptance of a stored vulnerability has its row. -/
theorem exists_acceptedRow {a : RiskAcceptance} (ha : a ∈ db.riskAcceptances)
    (hv : v ∈ db.vulnerabilities) (hid : a.vulnerabilityId = v.id) :
    ∃ names, (a, v, names) ∈ acceptedRows db := by
  obtain ⟨name, hname⟩ := exists_projectNames (db.acceptancesProject a ha)
  exact ⟨(name, serviceName db a.serviceId),
    mem_acceptedRows.2 ⟨ha, ⟨hv, hid.symm⟩, hname ▸ List.mem_singleton_self name, rfl⟩⟩

/-- A condition that is checked first. -/
theorem checkFirst_eq_ok {x : Except PyError Bool} {b : Bool} :
    (do if !(← x) then return false
        return b : Except PyError Bool) = .ok true ↔ x = .ok true ∧ b = true := by
  rcases x with e | _ | _
  · exact iff_of_false nofun fun h => nomatch h.1
  · exact iff_of_false nofun fun h => nomatch h.1
  · exact ⟨fun h => ⟨rfl, Except.ok.inj h⟩, fun h => congrArg Except.ok h.2⟩

/-- On the tab of the open ones the texts are checked first, too. -/
theorem admits_eq_textsAdmit {s : SBOM} : filters.admits lower v s = (do
    if !(← filters.textsAdmit lower v) then return false
    return filters.projectId.all (fun i => s.projectId == i) &&
      filters.serviceId.all fun i => s.serviceId == some i) := by
  rw [admits_eq, VulnFilters.textsAdmit]
  rcases severityFilter lower filters.severity v with e | _ | _ <;> rfl

theorem admits_eq_ok {s : SBOM} : filters.admits lower v s = .ok true ↔
    filters.textsAdmit lower v = .ok true ∧ (∀ i ∈ filters.projectId, s.projectId = i) ∧
      ∀ i ∈ filters.serviceId, s.serviceId = some i := by
  rw [admits_eq_textsAdmit, checkFirst_eq_ok]
  simp only [Bool.and_eq_true, Option.all_eq_true, beq_iff_eq, Option.mem_def]

theorem admitsAcceptance_eq_ok {r : AcceptedRow} : filters.admitsAcceptance lower r = .ok true ↔
    filters.textsAdmit lower r.2.1 = .ok true ∧ (∀ i ∈ filters.projectId, r.1.projectId = i) ∧
      ∀ i ∈ filters.serviceId, r.1.serviceId = some i := by
  rw [VulnFilters.admitsAcceptance, checkFirst_eq_ok]
  simp only [Bool.and_eq_true, Option.all_eq_true, beq_iff_eq, Option.mem_def]

/-- A vulnerability is on the first tab with an actionable link that the filters admit. -/
theorem mem_active_iff {active : List Vulnerability}
    (hactive : selectVulnerabilities db lower filters = .ok active)
    (hv : v ∈ db.vulnerabilities) : v ∈ active ↔ filters.textsAdmit lower v = .ok true ∧
      ∃ l ∈ db.links, ∃ s ∈ db.sboms, s.id = l.sbomId ∧ actionable db l s = true ∧
        l.vulnerabilityId = v.id ∧ (∀ i ∈ filters.projectId, s.projectId = i) ∧
        ∀ i ∈ filters.serviceId, s.serviceId = some i := by
  obtain ⟨ids, hids, hrows⟩ := bind_eq_ok.1 hactive
  obtain ⟨rows, hselect, hdedup⟩ := bind_eq_ok.1 hids
  rw [← Except.ok.inj hrows, ← Except.ok.inj hdedup]
  simp only [List.mem_filter, Table.mem_rows, hv, true_and, decide_eq_true_eq, List.mem_dedup,
    List.mem_map, mem_selectWhere hselect, admits_eq_ok, openVulnRows, List.mem_flatMap,
    Prod.exists, mem_joinLinks, beq_iff_eq, Prod.mk.injEq]
  constructor
  · rintro ⟨u, s, ⟨⟨l, t, ⟨hl, hs, hid, hact⟩, u', ⟨hu, hlu⟩, rfl, rfl⟩, htexts, hp, hsv⟩, huv⟩
    obtain rfl : u' = v := Table.eq_of_clash hu hv (.inl huv)
    exact ⟨htexts, l, hl, t, hs, hid, hact, hlu.symm, hp, hsv⟩
  · rintro ⟨htexts, l, hl, s, hs, hid, hact, hlv, hp, hsv⟩
    exact ⟨v, s, ⟨⟨l, s, ⟨hl, hs, hid, hact⟩, v, ⟨hv, hlv.symm⟩, rfl, rfl⟩, htexts, hp, hsv⟩, rfl⟩

/-- It is on the second tab with an acceptance that the filters admit. -/
theorem mem_accepted_iff {accepted : List AcceptedRow}
    (haccepted : selectAccepted db lower filters = .ok accepted) (hv : v ∈ db.vulnerabilities) :
    v ∈ accepted.map (·.2.1) ↔ filters.textsAdmit lower v = .ok true ∧
      ∃ a ∈ db.riskAcceptances, a.vulnerabilityId = v.id ∧
        (∀ i ∈ filters.projectId, a.projectId = i) ∧
        ∀ i ∈ filters.serviceId, a.serviceId = some i := by
  simp only [List.mem_map, mem_selectWhere haccepted, admitsAcceptance_eq_ok]
  constructor
  · rintro ⟨r, ⟨hr, htexts, hp, hsv⟩, rfl⟩
    obtain ⟨ha, ⟨-, hid⟩, -⟩ := mem_acceptedRows.1 hr
    exact ⟨htexts, r.1, ha, hid.symm, hp, hsv⟩
  · rintro ⟨htexts, a, ha, hid, hp, hsv⟩
    obtain ⟨names, hrow⟩ := exists_acceptedRow ha hv hid
    exact ⟨(a, v, names), ⟨hrow, htexts, hp, hsv⟩, rfl⟩

/-- Without the filters of scopes the second tab works as well. -/
theorem selectAccepted_isOk {accepted : List AcceptedRow}
    (haccepted : selectAccepted db lower filters = .ok accepted)
    (projectId serviceId : Option Uuid) :
    ∃ whole, selectAccepted db lower { filters with projectId, serviceId } = .ok whole := by
  refine selectWhere_isOk.2 fun r hr => ?_
  obtain ⟨b, hb⟩ := selectWhere_isOk.1 ⟨accepted, haccepted⟩ r hr
  obtain ⟨c, hc, -⟩ := bind_eq_ok.1 hb
  -- these filters do not fail, and the texts are the same
  have hsame : ({ filters with projectId, serviceId } : VulnFilters).textsAdmit lower r.2.1 =
      .ok c := hc
  rw [VulnFilters.admitsAcceptance, hsame]
  cases c <;> exact ⟨_, rfl⟩

/-! ### What is open in a service -/

/-- **The tabs of a service.**  In every reachable state a vulnerability that is open in a service
and that the texts of the filters admit is, when the page is filtered by the service, on the first
tab exactly when it is accepted neither for the service nor for the project, and on the second tab
exactly when it is accepted for the service.  When it is accepted for the project, it is not
accepted for the service, so that it is on neither tab, and on the second one without the filter of
the service. -/
theorem tabs_of_service (hw : (system env).Reachable w) {service : Service}
    (hservice : service ∈ w.db.services) (hfilter : filters.serviceId = some service.id)
    (hproject : ∀ i ∈ filters.projectId, i = service.projectId) {active : List Vulnerability}
    {accepted : List AcceptedRow}
    (hactive : selectVulnerabilities w.db lower filters = .ok active)
    (haccepted : selectAccepted w.db lower filters = .ok accepted)
    (hv : v ∈ w.db.vulnerabilities) (hopen : OpenInService w.db service.id v.id)
    (htexts : filters.textsAdmit lower v = .ok true) :
    (v ∈ active ↔ ¬ AcceptedFor w.db service.projectId none v.id ∧
      ¬ AcceptedFor w.db service.projectId (some service.id) v.id) ∧
    (v ∈ accepted.map (·.2.1) ↔ AcceptedFor w.db service.projectId (some service.id) v.id) ∧
    (AcceptedFor w.db service.projectId none v.id →
      ¬ AcceptedFor w.db service.projectId (some service.id) v.id ∧
      ∃ whole, selectAccepted w.db lower { filters with serviceId := none } = .ok whole ∧
        v ∈ whole.map (·.2.1)) := by
  have howned : ServiceOwned w.db := (systemInvariant hw).owned
  have hsame : ∀ s : SBOM, s ∈ w.db.sboms → s.serviceId = some service.id →
      s.projectId = service.projectId := fun s hs hid => (howned s hs service hservice hid).symm
  refine ⟨?_, ?_, ?_⟩
  · rw [mem_active_iff hactive hv]
    constructor
    · rintro ⟨-, l, -, s, hs, -, hact, hlv, -, hsv⟩
      have hsid : s.serviceId = some service.id := hsv service.id hfilter
      have hfree := (actionable_iff.1 hact).2
      constructor
      · rintro ⟨a, ha, hp, hscope, hav⟩
        exact hfree a ha ⟨hlv.trans hav.symm, (hsame s hs hsid).trans hp.symm, .inl hscope⟩
      · rintro ⟨a, ha, hp, hscope, hav⟩
        exact hfree a ha ⟨hlv.trans hav.symm, (hsame s hs hsid).trans hp.symm,
          .inr (hsid.trans hscope.symm)⟩
    · rintro ⟨hwhole, hscoped⟩
      obtain ⟨l, hl, s, hs, hid, hst, hlv, hsid⟩ := hopen
      refine ⟨htexts, l, hl, s, hs, hid, actionable_iff.2 ⟨hst, fun a ha hcov => ?_⟩, hlv, ?_, ?_⟩
      · obtain ⟨hav, hp, hscope⟩ := hcov
        have hap : a.projectId = service.projectId := hp.symm.trans (hsame s hs hsid)
        rcases hscope with hnone | hsame
        · exact hwhole ⟨a, ha, hap, hnone, hav.symm.trans hlv⟩
        · exact hscoped ⟨a, ha, hap, hsame.symm.trans hsid, hav.symm.trans hlv⟩
      · intro i hi
        rw [hproject i hi]
        exact hsame s hs hsid
      · intro i hi
        rw [hsid, ← hfilter]
        exact hi
  · rw [mem_accepted_iff haccepted hv]
    constructor
    · rintro ⟨-, a, ha, hav, -, hsv⟩
      have hscope : a.serviceId = some service.id := hsv service.id hfilter
      exact ⟨a, ha, (acceptanceOwned hw a ha service hservice hscope).symm, hscope, hav⟩
    · rintro ⟨a, ha, hp, hscope, hav⟩
      refine ⟨htexts, a, ha, hav, fun i hi => hp.trans (hproject i hi).symm, fun i hi => ?_⟩
      rw [hscope, ← hfilter]
      exact hi
  · rintro ⟨a, ha, hp, hscope, hav⟩
    constructor
    · rintro ⟨b, hb, hp', hscope', hbv⟩
      -- the scopes would overlap
      have hab : a = b :=
        noOverlap hw a ha b hb (hp.trans hp'.symm) (hav.trans hbv.symm) (.inl hscope)
      rw [← hab, hscope] at hscope'
      cases hscope'
    · obtain ⟨whole, hwhole⟩ := selectAccepted_isOk haccepted filters.projectId none
      refine ⟨whole, hwhole, (mem_accepted_iff hwhole hv).2 ⟨htexts, a, ha, hav, ?_, nofun⟩⟩
      exact fun i hi => hp.trans (hproject i hi).symm

theorem exists_of_isOk {ε α : Type} {x : Except ε α} (h : x.isOk = true) : ∃ a, x = .ok a := by
  cases x with
  | error e => cases h
  | ok a => exact ⟨a, rfl⟩

/-- A finding of a service, accepted for the whole project. -/
def demoWide : World :=
  demo [demoProject, .uploadSbom ⟨none, some "project", none, some "api", [0, 1]⟩ ⟨20, 10, 100⟩,
    demoScan 10 [1, 1] 110, .createRiskAcceptance ⟨1, 1, none, "behind a proxy", by decide⟩ 5 120]
    (by decide +kernel)

/-- The filter of the service. -/
def demoServiceFilter : VulnFilters := ⟨some "unknown", none, some 20, none⟩

theorem tabs_of_service_demo : ∃ v ∈ demoWide.db.vulnerabilities,
    OpenInService demoWide.db 20 v.id ∧
    ∃ active accepted whole,
      selectVulnerabilities demoWide.db PyStr.lower demoServiceFilter = .ok active ∧
      selectAccepted demoWide.db PyStr.lower demoServiceFilter = .ok accepted ∧
      selectAccepted demoWide.db PyStr.lower { demoServiceFilter with serviceId := none } =
        .ok whole ∧
      v ∉ active ∧ v ∉ accepted.map (·.2.1) ∧ v ∈ whole.map (·.2.1) := by
  obtain ⟨v, hv, hopen, htexts, hwide⟩ : ∃ v ∈ demoWide.db.vulnerabilities,
      OpenInService demoWide.db 20 v.id ∧ demoServiceFilter.textsAdmit PyStr.lower v = .ok true ∧
      AcceptedFor demoWide.db 1 none v.id := by decide +kernel
  obtain ⟨service, hservice, hid, hproject⟩ :
      ∃ s ∈ demoWide.db.services, s.id = 20 ∧ s.projectId = 1 := by decide +kernel
  have hactive : (selectVulnerabilities demoWide.db PyStr.lower demoServiceFilter).isOk := by
    decide +kernel
  have haccepted : (selectAccepted demoWide.db PyStr.lower demoServiceFilter).isOk := by
    decide +kernel
  obtain ⟨active, hactive⟩ := exists_of_isOk hactive
  obtain ⟨accepted, haccepted⟩ := exists_of_isOk haccepted
  have hall : ∀ i ∈ demoServiceFilter.projectId, i = service.projectId := nofun
  have htabs := tabs_of_service (w := demoWide) (v := v) demo_reachable hservice
    (congrArg some hid.symm) hall hactive haccepted hv (hid ▸ hopen) htexts
  have hwide' : AcceptedFor demoWide.db service.projectId none v.id := hproject ▸ hwide
  obtain ⟨hscoped, whole, hwhole, hmem⟩ := htabs.2.2 hwide'
  exact ⟨v, hv, hopen, active, accepted, whole, hactive, haccepted, hwhole,
    fun h => (htabs.1.1 h).1 hwide', fun h => hscoped (htabs.2.1.1 h), hmem⟩

end ArgusSbomGuard
