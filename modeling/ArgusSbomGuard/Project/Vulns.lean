import ArgusSbomGuard.Listing.ActiveMaps
import ArgusSbomGuard.Listing.Vulnerabilities
import ArgusSbomGuard.Project.Latest
import ArgusSbomGuard.Risk.Scopes

/-!
# The vulnerabilities of a project page

`_get_project_vulns` of `api/pages/projects.py` lists the vulnerabilities of the newest SBOMs of a
project, each with the scopes in which the page offers to accept it: the whole project, and the
services in whose SBOMs it was found.  The browser sends the scope that is chosen to
`create_risk_acceptance`, which takes the services, but the project only when nothing of it is
accepted already (`offered_scopes_iff`).

## Main definitions

* `getProjectVulns` : the list.
* `requestAcceptance` : the request for a scope.
* `OfferHolds` : every scope that is offered is accepted.
-/

namespace ArgusSbomGuard

/-- A row of the query `vuln_rows`. -/
structure PageVulnRow where
  link : SBOMVulnerability
  vulnerability : Vulnerability
  name : Option String
  version : Option String

/-- An entry of the list. -/
structure ProjectVulnEntry where
  vulnerabilityId : String
  cveId : String
  severity : Option VulnerabilitySeverity
  cvssScore : Option PyFloat
  epssScore : Option PyFloat
  epssPercentile : Option PyFloat
  summary : Option String
  serviceName : Option String
  dependencyPurl : String
  dependencyName : String
  cvssVector : Json
  published : String
  urls : Json
  fixVersions : Json
  scopes : List AcceptScope

/-- `seen`, `scopes_by_cve` and `result`. -/
structure VulnsState where
  seen : List String
  scopesByCve : List (String × List (String × AcceptScope))
  result : List ProjectVulnEntry

/-- What a page gets from outside: the project and its name, the filter, the order of the rows of
`id_q` and `format_dt`. -/
structure VulnsInput where
  projectId : Uuid
  projectName : String
  serviceId : Option String
  idOrder : Arrangement IdRow
  formatDt : DateTime → String

variable (db : Database) (env : Env) (inp : VulnsInput)

/-- The filter `service_id`; the database does not compare another text with an identifier. -/
def serviceIdFilter (serviceId : Option String) : Except PyError (Option Uuid) :=
  match serviceId.filter (· ≠ "") with
  | none => .ok none
  | some text => match env.parseUuid text with
    | some i => .ok (some i)
    | none => .error .dataError

/-- `sbom_to_svc_id` and `sbom_to_svc`: the service of an SBOM, if it has a name. -/
def pageService (sbomId : Uuid) : Option Service :=
  ((db.sboms.find? fun s => s.id == sbomId).bind fun s => s.serviceId.bind fun i =>
    db.services.find? fun v => v.id == i).filter fun v => v.name ≠ ""

/-- `vuln_rows`. -/
def pageVulnRows (serviceId : Option Uuid) : List PageVulnRow :=
  (projectVulnRows db inp.idOrder inp.projectId serviceId).flatMap fun lv =>
    (joinedDependencies db lv.1).map fun nv => ⟨lv.1, lv.2, nv.1, nv.2⟩

/-- `Vulnerability.cvss_score.desc().nullslast()`. -/
def pageVulnKey (row : PageVulnRow) : SortKey := floatKey true row.vulnerability.cvssScore

/-! ### The scopes -/

/-- The scope of the whole project. -/
def projectScope : AcceptScope := ⟨env.strUuid inp.projectId, inp.projectName, "", ""⟩

/-- The scope of a service. -/
def serviceScope (v : Service) : AcceptScope :=
  ⟨env.strUuid inp.projectId, inp.projectName, env.strUuid v.id, v.name⟩

/-- What a row does to the bucket of its CVE. -/
def addScopes (row : PageVulnRow) (bucket : List (String × AcceptScope)) :
    List (String × AcceptScope) :=
  let bucket := updateKey "" (fun scope => scope.getD (projectScope env inp)) bucket
  match pageService db row.link.sbomId with
  | none => bucket
  | some v => updateKey (env.strUuid v.id) (fun _ => serviceScope env inp v) bucket

/-- `sorted(..., key=lambda s: (s["service_name"] != "", s["service_name"]))`. -/
def sortPageScopes : List AcceptScope → List AcceptScope :=
  (TieOrder.ofArrangement (fun s : AcceptScope => toLex (s.serviceName != "", s.serviceName))
    (storedOrder AcceptScope)).order

/-! ### The list -/

/-- `cvss_list[0].get("vector") if cvss_list else ""`. -/
def cvssVector (cvssList : Json) : Except PyError Json :=
  if cvssList.truthy then do (← cvssList.index0).get "vector" .null
  else .ok (.str "")

/-- The entry of a row, without its scopes. -/
def pageVulnEntry (row : PageVulnRow) : Except PyError ProjectVulnEntry := do
  let v := row.vulnerability
  let ed := v.extraData.pyOr (.obj [])
  let cvssVec ← cvssVector ((← ed.get "cvss" .null).pyOr (.arr []))
  let urls := (← ed.get "urls" .null).pyOr (.arr [])
  let fixInfo := (← ed.get "fix" .null).pyOr (.obj [])
  let fixVersions := (← fixInfo.get "versions" .null).pyOr (.arr [])
  return {
    vulnerabilityId := env.strUuid v.id
    cveId := v.cveId
    severity := v.severity
    cvssScore := v.cvssScore
    epssScore := v.epssScore
    epssPercentile := v.epssPercentile
    summary := v.summary
    serviceName := (pageService db row.link.sbomId).map (·.name)
    dependencyPurl := row.link.dependencyPurl
    dependencyName := depName row.name row.version (some row.link.dependencyPurl)
    cvssVector := cvssVec
    published := (v.publishedAt.map inp.formatDt).getD ""
    urls
    fixVersions
    scopes := [] }

/-- A round of the loop over `vuln_rows`. -/
def addPageVuln (st : VulnsState) (row : PageVulnRow) : Except PyError VulnsState := do
  let scopesByCve := updateKey row.vulnerability.cveId
    (fun bucket => addScopes db env inp row (bucket.getD [])) st.scopesByCve
  if st.seen.contains row.vulnerability.cveId then return { st with scopesByCve }
  let entry ← pageVulnEntry db env inp row
  return ⟨row.vulnerability.cveId :: st.seen, scopesByCve, st.result ++ [entry]⟩

/-- `_get_project_vulns`. -/
def getProjectVulns (rowOrder : TieOrder pageVulnKey) : Except PyError (List ProjectVulnEntry) := do
  let serviceId ← serviceIdFilter env inp.serviceId
  if pageSbomIds db inp.idOrder inp.projectId serviceId = [] then return []
  let st ← (rowOrder.order (pageVulnRows db inp serviceId)).foldlM (addPageVuln db env inp)
    ⟨[], [], []⟩
  return st.result.map fun entry => { entry with
    scopes := sortPageScopes (((st.scopesByCve.lookup entry.cveId).getD []).map Prod.snd) }

/-! ### The request -/

/-- The length of a reason, without its NUL characters, is one that the model allows. -/
def ValidReason (reason : String) : Prop :=
  1 ≤ (PyStr.stripNul reason).length ∧ (PyStr.stripNul reason).length ≤ 2000

instance (reason : String) : Decidable (ValidReason reason) :=
  inferInstanceAs (Decidable (_ ∧ _))

theorem fitsText_stripNul (s : String) : fitsText (PyStr.stripNul s) = true := by
  simp [fitsText, PyStr.stripNul]

/-- The body that the browser sends for a scope, which has no service when its text is empty, after
its validation. -/
def requestAcceptance (vulnerabilityId : String) (scope : AcceptScope) (reason : String) :
    Option RiskAcceptanceCreate := do
  let vulnerabilityId ← env.parseUuid vulnerabilityId
  let projectId ← env.parseUuid scope.projectId
  let serviceId ←
    if scope.serviceId = "" then some none else (env.parseUuid scope.serviceId).map some
  if ValidReason reason then
    some ⟨projectId, vulnerabilityId, serviceId, PyStr.stripNul reason, fitsText_stripNul reason⟩
  else none

/-! ### The buckets -/

variable {db env inp} {row : PageVulnRow} {rows : List PageVulnRow}
  {bucket : List (String × AcceptScope)} {v : Vulnerability} {e : ProjectVulnEntry}

/-- Every scope in a bucket is that of the project or that of the service of a row. -/
theorem forall_addScopes {P : AcceptScope → Prop} (hbucket : ∀ b ∈ bucket, P b.2)
    (hproject : P (projectScope env inp))
    (hservice : ∀ v, pageService db row.link.sbomId = some v → P (serviceScope env inp v)) :
    ∀ b ∈ addScopes db env inp row bucket, P b.2 := by
  have hfirst : ∀ b ∈ updateKey "" (fun scope => scope.getD (projectScope env inp)) bucket,
      P b.2 :=
    forall_values_updateKey hbucket hproject fun _ h => h
  unfold addScopes
  split
  · exact hfirst
  · rename_i v hv
    exact forall_values_updateKey hfirst (hservice v hv) fun _ _ => hservice v hv

/-- The key of the project is not one of a service. -/
theorem lookup_addScopes (hstr : ∀ i, env.strUuid i ≠ "") :
    (addScopes db env inp row bucket).lookup "" =
      some ((bucket.lookup "").getD (projectScope env inp)) := by
  unfold addScopes
  split
  · rw [lookup_updateKey, if_pos rfl]
  · rename_i v _
    rw [lookup_updateKey, if_neg (hstr v.id).symm, lookup_updateKey, if_pos rfl]

theorem forall_foldl_addScopes {P : AcceptScope → Prop} (hbucket : ∀ b ∈ bucket, P b.2)
    (hproject : P (projectScope env inp)) (hservice : ∀ row ∈ rows, ∀ v,
      pageService db row.link.sbomId = some v → P (serviceScope env inp v)) :
    ∀ b ∈ rows.foldl (fun bucket row => addScopes db env inp row bucket) bucket, P b.2 := by
  induction rows generalizing bucket with
  | nil => exact hbucket
  | cons row rows ih =>
    obtain ⟨hrow, hrows⟩ := List.forall_mem_cons.1 hservice
    exact ih (forall_addScopes hbucket hproject hrow) hrows

/-- After the first row the bucket has the scope of the project. -/
theorem lookup_foldl_addScopes (hstr : ∀ i, env.strUuid i ≠ "")
    (hbucket : bucket.lookup "" = some (projectScope env inp)) :
    (rows.foldl (fun bucket row => addScopes db env inp row bucket) bucket).lookup "" =
      some (projectScope env inp) := by
  induction rows generalizing bucket with
  | nil => exact hbucket
  | cons row rows ih => exact ih (by rw [lookup_addScopes hstr, hbucket]; rfl)

theorem projectScope_mem (hstr : ∀ i, env.strUuid i ≠ "") (hrow : row ∈ rows) :
    ("", projectScope env inp) ∈
      rows.foldl (fun bucket row => addScopes db env inp row bucket) [] := by
  cases rows with
  | nil => exact absurd hrow List.not_mem_nil
  | cons first rows =>
    rw [List.foldl_cons]
    refine mem_of_lookup (lookup_foldl_addScopes hstr ?_)
    rw [lookup_addScopes hstr]
    rfl

/-! ### The loop -/

/-- What a round of the loop does. -/
theorem addPageVuln_eq_ok {st st' : VulnsState} (h : addPageVuln db env inp st row = .ok st') :
    st'.scopesByCve = groupRow (fun row bucket => addScopes db env inp row (bucket.getD []))
      st.scopesByCve (row.vulnerability.cveId, row) ∧
    ∀ e ∈ st'.result, e ∈ st.result ∨ (e.vulnerabilityId = env.strUuid row.vulnerability.id ∧
      e.cveId = row.vulnerability.cveId) := by
  unfold addPageVuln at h
  split_ifs at h with hseen
  · obtain rfl := Except.ok.inj h
    exact ⟨rfl, fun e he => .inl he⟩
  · obtain ⟨entry, hentry, h⟩ := bind_eq_ok.1 h
    obtain rfl := Except.ok.inj h
    refine ⟨rfl, fun e he => (List.mem_append.1 he).imp_right fun he => ?_⟩
    obtain rfl := List.mem_singleton.1 he
    simp only [pageVulnEntry, bind_eq_ok] at hentry
    obtain ⟨_, -, _, -, _, -, _, -, _, -, hok⟩ := hentry
    rw [← Except.ok.inj hok]
    exact ⟨rfl, rfl⟩

theorem foldlM_addPageVuln {st st' : VulnsState}
    (h : rows.foldlM (addPageVuln db env inp) st = .ok st') :
    st'.scopesByCve = (rows.map fun row => (row.vulnerability.cveId, row)).foldl
      (groupRow fun row bucket => addScopes db env inp row (bucket.getD [])) st.scopesByCve ∧
    ∀ e ∈ st'.result, e ∈ st.result ∨ ∃ row ∈ rows,
      e.vulnerabilityId = env.strUuid row.vulnerability.id ∧
        e.cveId = row.vulnerability.cveId := by
  induction rows generalizing st with
  | nil =>
    obtain rfl := Except.ok.inj h
    exact ⟨rfl, fun e he => .inl he⟩
  | cons row rows ih =>
    rw [List.foldlM_cons] at h
    obtain ⟨st₁, hstep, hrest⟩ := bind_eq_ok.1 h
    obtain ⟨hscopes, hresult⟩ := addPageVuln_eq_ok hstep
    obtain ⟨hscopes', hresult'⟩ := ih hrest
    refine ⟨by rw [hscopes', hscopes]; rfl, fun e he => ?_⟩
    rcases hresult' e he with he | ⟨r, hr, hrow⟩
    · exact (hresult e he).imp_right fun hrow => ⟨row, List.mem_cons_self, hrow⟩
    · exact .inr ⟨r, List.mem_cons_of_mem _ hr, hrow⟩

/-! ### The entries -/

/-- A row is about an actionable link on an SBOM of the project. -/
theorem mem_pageVulnRows {serviceId : Option Uuid} (h : row ∈ pageVulnRows db inp serviceId) :
    row.vulnerability ∈ db.vulnerabilities ∧ ∃ s ∈ db.sboms, s.id = row.link.sbomId ∧
      OpenScope db inp.projectId row.vulnerability.id s.serviceId := by
  obtain ⟨⟨l, v⟩, hlv, hrow⟩ := List.mem_flatMap.1 h
  obtain ⟨nv, -, rfl⟩ := List.mem_map.1 hrow
  obtain ⟨⟨l', s⟩, hls, hv⟩ := List.mem_flatMap.1 hlv
  obtain ⟨v', hv', heq⟩ := List.mem_map.1 hv
  obtain ⟨rfl, rfl⟩ := Prod.mk.inj heq
  obtain ⟨hl, hs, hid, hshown⟩ := mem_joinLinks.1 hls
  obtain ⟨hids, hact⟩ := Bool.and_eq_true_iff.1 hshown
  obtain ⟨hv', hvl⟩ := List.mem_filter.1 hv'
  refine ⟨hv', s, hs, hid, l', hl, s, hs, hid, hact, (beq_iff_eq.1 hvl).symm, ?_, rfl⟩
  -- the page takes SBOMs of the project
  obtain ⟨key, hpage⟩ := mem_pageSbomIds.1 (List.contains_iff_mem.1 hids)
  obtain ⟨t, ht, htid, hscope⟩ := pageLatest_mem (key_of_pageLatest hpage) hpage
  obtain rfl := Database.sbom_eq ht hs (htid.trans hid.symm)
  exact congrArg Prod.fst hscope

theorem pageService_eq_some {s : SBOM} {i : Uuid} {svc : Service} (hs : s ∈ db.sboms)
    (hid : s.id = i) (h : pageService db i = some svc) :
    svc ∈ db.services ∧ s.serviceId = some svc.id := by
  have hfind : (db.sboms.find? fun t => t.id == i) = some s :=
    Table.find?_eq_some hs (beq_iff_eq.2 hid) fun t ht => .inl ((beq_iff_eq.1 ht).trans hid.symm)
  rw [pageService, hfind, Option.bind_some] at h
  obtain ⟨j, hj, hfound⟩ := Option.bind_eq_some_iff.1 (Option.filter_eq_some_iff.1 h).1
  obtain ⟨hmem, hsvc⟩ := Table.mem_of_find? hfound
  exact ⟨hmem, hj.trans (congrArg some (beq_iff_eq.1 hsvc).symm)⟩

variable (db env inp) in
/-- The entry is about the vulnerability: it offers the project, and the services in which the
vulnerability is open. -/
structure EntryOf (e : ProjectVulnEntry) (v : Vulnerability) : Prop where
  mem : v ∈ db.vulnerabilities
  id : e.vulnerabilityId = env.strUuid v.id
  found : ∃ scope, OpenScope db inp.projectId v.id scope
  project : projectScope env inp ∈ e.scopes
  scopes : ∀ b ∈ e.scopes, b = projectScope env inp ∨ ∃ svc ∈ db.services,
    b = serviceScope env inp svc ∧ OpenScope db inp.projectId v.id (some svc.id)

/-- The rows that fill the bucket of a CVE. -/
theorem mem_cveRows {c : String} :
    row ∈ rowsOf c (rows.map fun row => (row.vulnerability.cveId, row)) ↔
      row ∈ rows ∧ row.vulnerability.cveId = c := by
  simp only [mem_rowsOf, List.mem_map, Prod.mk.injEq]
  constructor
  · rintro ⟨r, hr, hc, rfl⟩
    exact ⟨hr, hc⟩
  · rintro ⟨hr, hc⟩
    exact ⟨row, hr, hc, rfl⟩

theorem mem_sortPageScopes {b : AcceptScope} :
    b ∈ sortPageScopes (bucket.map Prod.snd) ↔ ∃ k, (k, b) ∈ bucket := by
  have hperm : (sortPageScopes (bucket.map Prod.snd)).Perm (bucket.map Prod.snd) :=
    (TieOrder.ofArrangement _ (storedOrder AcceptScope)).perm _
  rw [hperm.mem_iff, List.mem_map]
  exact ⟨fun ⟨⟨k, _⟩, hk, hb⟩ => ⟨k, hb ▸ hk⟩, fun ⟨k, hk⟩ => ⟨(k, b), hk, rfl⟩⟩

/-- A scope in the bucket of a CVE is that of the project or of a service in which it is open. -/
theorem scope_of_cveRows (hrows : ∀ r ∈ rows, ∃ serviceId, r ∈ pageVulnRows db inp serviceId)
    (hv : v ∈ db.vulnerabilities) {k : String} {b : AcceptScope}
    (hb : (k, b) ∈ (rowsOf v.cveId (rows.map fun row => (row.vulnerability.cveId, row))).foldl
      (fun bucket row => addScopes db env inp row bucket) []) :
    b = projectScope env inp ∨ ∃ svc ∈ db.services,
      b = serviceScope env inp svc ∧ OpenScope db inp.projectId v.id (some svc.id) := by
  refine forall_foldl_addScopes (P := fun b => b = projectScope env inp ∨ ∃ svc ∈ db.services,
    b = serviceScope env inp svc ∧ OpenScope db inp.projectId v.id (some svc.id))
      (fun _ h => absurd h List.not_mem_nil) (.inl rfl) ?_ (k, b) hb
  intro r hr svc hsvc
  obtain ⟨hr, hcve⟩ := mem_cveRows.1 hr
  obtain ⟨serviceId, hr⟩ := hrows r hr
  obtain ⟨hrv, s, hs, hid, hopen⟩ := mem_pageVulnRows hr
  obtain ⟨hmem, hservice⟩ := pageService_eq_some hs hid hsvc
  -- the CVE tells the vulnerability
  obtain rfl : r.vulnerability = v := Table.eq_of_clash hrv hv (.inr hcve)
  exact .inr ⟨svc, hmem, rfl, hservice ▸ hopen⟩

/-- Each entry of the list is about a vulnerability. -/
theorem getProjectVulns_entry (hstr : ∀ i, env.strUuid i ≠ "") {rowOrder : TieOrder pageVulnKey}
    {entries : List ProjectVulnEntry} (h : getProjectVulns db env inp rowOrder = .ok entries)
    (he : e ∈ entries) : ∃ v, EntryOf db env inp e v := by
  obtain ⟨serviceId, -, h⟩ := bind_eq_ok.1 h
  split_ifs at h with hnone
  · obtain rfl := Except.ok.inj h
    exact absurd he List.not_mem_nil
  obtain ⟨st, hloop, h⟩ := bind_eq_ok.1 h
  obtain rfl := Except.ok.inj h
  obtain ⟨hscopes, hresult⟩ := foldlM_addPageVuln hloop
  obtain ⟨entry, hentry, rfl⟩ := List.mem_map.1 he
  obtain ⟨row, hrow, hid, hcve⟩ := (hresult entry hentry).resolve_left List.not_mem_nil
  have hperm := rowOrder.perm (pageVulnRows db inp serviceId)
  obtain ⟨hv, s, hs, hsid, hopen⟩ := mem_pageVulnRows (hperm.mem_iff.1 hrow)
  have hbucket : (st.scopesByCve.lookup entry.cveId).getD [] =
      (rowsOf row.vulnerability.cveId ((rowOrder.order (pageVulnRows db inp serviceId)).map
        fun row => (row.vulnerability.cveId, row))).foldl
          (fun bucket row => addScopes db env inp row bucket) [] := by
    rw [hscopes, hcve]
    exact getD_lookup_groupInto _ _
  refine ⟨row.vulnerability, hv, hid, ⟨_, hopen⟩, ?_, ?_⟩
  · refine mem_sortPageScopes.2 ⟨"", ?_⟩
    rw [hbucket]
    exact projectScope_mem hstr (mem_cveRows.2 ⟨hrow, rfl⟩)
  · intro b hb
    obtain ⟨k, hb⟩ := mem_sortPageScopes.1 hb
    rw [hbucket] at hb
    exact scope_of_cveRows (fun r hr => ⟨serviceId, hperm.mem_iff.1 hr⟩) hv hb

/-! ### The offer -/

variable (db env) in
/-- Whatever scope of the entry is chosen, a request with a valid reason and the identifier `newId`
succeeds. -/
def OfferHolds (e : ProjectVulnEntry) (newId : Uuid) (now : DateTime) : Prop :=
  ∀ b ∈ e.scopes, ∀ reason, ValidReason reason →
    ∃ data, requestAcceptance env e.vulnerabilityId b reason = some data ∧
      ∃ db', createRiskAcceptance db data newId now = .ok db'

/-- The request for a scope. -/
theorem requestAcceptance_eq {vulnerabilityId projectId : Uuid} {projectName serviceName : String}
    {reason : String} (serviceId : Option Uuid) (hstr : ∀ i, env.strUuid i ≠ "")
    (hreason : ValidReason reason) :
    requestAcceptance env (env.strUuid vulnerabilityId)
        ⟨env.strUuid projectId, projectName, serviceText env serviceId, serviceName⟩ reason =
      some ⟨projectId, vulnerabilityId, serviceId, PyStr.stripNul reason,
        fitsText_stripNul reason⟩ := by
  simp only [requestAcceptance, env.parseUuid_strUuid, Option.bind_eq_bind, Option.bind_some,
    if_pos hreason]
  cases serviceId with
  | none => rw [serviceText, if_pos rfl]
  | some i =>
    rw [serviceText, if_neg (hstr i), env.parseUuid_strUuid, Option.map_some, Option.bind_some]

theorem requestAcceptance_project {vulnerabilityId : Uuid} {reason : String}
    (hstr : ∀ i, env.strUuid i ≠ "") (hreason : ValidReason reason) :
    requestAcceptance env (env.strUuid vulnerabilityId) (projectScope env inp) reason =
      some ⟨inp.projectId, vulnerabilityId, none, PyStr.stripNul reason,
        fitsText_stripNul reason⟩ :=
  requestAcceptance_eq none hstr hreason

/-- A scope in which the vulnerability is open can be accepted when nothing of the project is. -/
theorem acceptable_of_openScope (howned : ServiceOwned db) {data : RiskAcceptanceCreate}
    {scope : Option Uuid} (hopen : OpenScope db data.projectId data.vulnerabilityId scope)
    (hscope : data.serviceId = none ∨ data.serviceId = scope)
    (hfree : ∀ a ∈ db.riskAcceptances, a.projectId = data.projectId →
      a.vulnerabilityId ≠ data.vulnerabilityId) : Acceptable db data := by
  obtain ⟨l, hl, s, hs, hid, hact, hv, hp, hsc⟩ := hopen
  refine ⟨?_, ?_, fun i hi => ?_, ⟨l, hl, s, hs, hid, (actionable_iff.1 hact).1, hv, hp, ?_⟩,
    fun a ha hap hav => absurd hav (hfree a ha hap)⟩
  · exact hp ▸ db.sbomsProject s hs
  · exact hv ▸ db.linksVulnerability l hl
  · rcases hscope with hnone | hsome
    · rw [hnone] at hi
      cases hi
    · have hservice : s.serviceId = some i := hsc.trans (hsome.symm.trans hi)
      obtain ⟨svc, hsvc, rfl⟩ := db.sbomsService s hs i hservice
      exact ⟨svc, hsvc, rfl, (howned s hs svc hsvc hservice).trans hp⟩
  · exact hscope.imp_right fun h => hsc.trans h.symm

/-- **Offered scopes.**  In every reachable state all scopes that a project page offers for a
vulnerability are accepted exactly when the vulnerability is not accepted anywhere in the
project. -/
theorem offered_scopes_iff {w : World} (hw : (system env).Reachable w)
    (hstr : ∀ i, env.strUuid i ≠ "") {rowOrder : TieOrder pageVulnKey}
    {entries : List ProjectVulnEntry} (h : getProjectVulns w.db env inp rowOrder = .ok entries)
    (he : e ∈ entries) {newId : Uuid} (hid : ∀ a ∈ w.db.riskAcceptances, a.id ≠ newId)
    (now : DateTime) :
    OfferHolds w.db env e newId now ↔ ∀ a ∈ w.db.riskAcceptances, a.projectId = inp.projectId →
      env.strUuid a.vulnerabilityId ≠ e.vulnerabilityId := by
  obtain ⟨v, hv⟩ := getProjectVulns_entry hstr h he
  rw [hv.id]
  simp only [OfferHolds, hv.id, ne_eq, strUuid_inj]
  constructor
  · intro hoffer a ha hap hav
    obtain ⟨data, hdata, hok⟩ := hoffer _ hv.project "x" (by decide)
    obtain rfl := Option.some.inj ((requestAcceptance_project hstr (by decide)).symm.trans hdata)
    exact ((createRiskAcceptance_isOk_iff hid).1 hok).free a ha hap hav (.inr (.inl rfl))
  · intro hfree b hb reason hreason
    rcases hv.scopes b hb with rfl | ⟨svc, -, rfl, hopen⟩
    · obtain ⟨scope, hopen⟩ := hv.found
      exact ⟨_, requestAcceptance_project hstr hreason,
        (createRiskAcceptance_isOk_iff hid).2
          (acceptable_of_openScope (systemInvariant hw).owned hopen (.inl rfl) hfree)⟩
    · exact ⟨_, requestAcceptance_eq (some svc.id) hstr hreason,
        (createRiskAcceptance_isOk_iff hid).2
          (acceptable_of_openScope (systemInvariant hw).owned hopen (.inr rfl) hfree)⟩

/-! ### A finding that is accepted in one service -/

/-- Two services with the same finding. -/
def twoServices : List Action :=
  [demoProject, textUpload "project" (some "api") 1 10 5 100, textScan 10 [1, 1] 110,
    textUpload "project" (some "web") 2 11 6 120, textScan 11 [1, 1] 130]

def bothOpen : World := (system textEnv).after twoServices (by decide +kernel)

/-- Accept the finding in one of them. -/
def acceptApi : Action := .createRiskAcceptance ⟨1, 1, some 5, "not called", by decide⟩ 1 140

def oneAccepted : World := (system textEnv).after (twoServices ++ [acceptApi]) (by decide +kernel)

/-- The page of the project, without a filter. -/
def demoVulnsInput : VulnsInput := ⟨1, "project", none, storedOrder IdRow, fun _ => ""⟩

/-- The scope that the page offers. -/
def demoProjectScope : AcceptScope := projectScope textEnv demoVulnsInput

/-- The request for it. -/
def demoRequest : RiskAcceptanceCreate :=
  ⟨1, 1, none, PyStr.stripNul "no fix", fitsText_stripNul "no fix"⟩

def demoRowOrder : TieOrder pageVulnKey := .ofArrangement pageVulnKey (storedOrder PageVulnRow)

/-- The page offers the project for the finding, and the request is rejected. -/
theorem offered_project_rejected : (system textEnv).Reachable oneAccepted ∧
    (∃ entries, getProjectVulns oneAccepted.db textEnv demoVulnsInput demoRowOrder =
      .ok entries ∧ ∃ e ∈ entries, e.vulnerabilityId = textEnv.strUuid 1 ∧
        demoProjectScope ∈ e.scopes) ∧
    requestAcceptance textEnv (textEnv.strUuid 1) demoProjectScope "no fix" = some demoRequest ∧
    createRiskAcceptance oneAccepted.db demoRequest 2 150 = .error (.http 409 ("Vulnerability " ++
      "already accepted for this project; revert the narrower acceptances first")) := by
  have hrequest : checkRequest oneAccepted.db demoRequest = .ok () := by decide +kernel
  have hexisting : checkExisting demoRequest.serviceId
      (existingAcceptances oneAccepted.db demoRequest) = .error (.http 409 ("Vulnerability " ++
        "already accepted for this project; revert the narrower acceptances first")) := by
    decide +kernel
  refine ⟨Machine.reachable_after, by decide +kernel,
    requestAcceptance_project textEnv_strUuid (by decide), ?_⟩
  rw [createRiskAcceptance, hrequest, hexisting]
  rfl

/-- The page of the project before. -/
theorem offered_scopes_demo :
    ∃ entries, getProjectVulns bothOpen.db textEnv demoVulnsInput demoRowOrder = .ok entries ∧
      entries.length = 1 ∧ ∀ e ∈ entries, OfferHolds bothOpen.db textEnv e 1 150 := by
  have hentries : ∃ entries, getProjectVulns bothOpen.db textEnv demoVulnsInput demoRowOrder =
      .ok entries ∧ entries.length = 1 := by
    decide +kernel
  obtain ⟨entries, hok, hlen⟩ := hentries
  have hnone : ∀ a, a ∉ bothOpen.db.riskAcceptances := by decide +kernel
  refine ⟨entries, hok, hlen, fun e he => ?_⟩
  exact (offered_scopes_iff Machine.reachable_after textEnv_strUuid hok he
    (fun a ha => absurd ha (hnone a)) 150).2 fun a ha => absurd ha (hnone a)

end ArgusSbomGuard
