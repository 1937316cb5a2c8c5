import ArgusSbomGuard.Listing.Severities
import ArgusSbomGuard.Relational.Matches
import ArgusSbomGuard.System.CveIds

/-!
# The texts of the filters

`list_vulnerabilities` puts the texts of its filters into the patterns of `ILIKE` as they are.  The
list is the one that the texts ask for, whatever is stored, exactly when the texts have no special
characters, or the patterns admit nothing that can be stored and do not fail
(`filters_literal_iff`).

## Main definitions

* `VulnFilters.admitsLiterally` : the filters, when the texts stand for themselves.
* `listLiterally` : the list with these filters.
* `FiltersLiteral` : the list is that one, in every state.
* `PlainText`, `SeverityRejects`, `SeverityWorks`, `cveSpan` : what matters about a text.
-/

namespace ArgusSbomGuard

variable (db : Database) (lower : String → String) (env : Env)

/-- What the filters ask for: the severity is the given one and the CVE id contains the given text,
ignoring case.  A text that is empty is no filter. -/
def VulnFilters.admitsLiterally (filters : VulnFilters) (v : Vulnerability) (s : SBOM) : Bool :=
  (filters.severity.all fun text =>
    text == "" || v.severity.any fun value => lower value.value == lower text) &&
  (filters.cveId.all fun text => decide ((lower text).toList <:+: (lower v.cveId).toList)) &&
  (filters.projectId.all (fun i => s.projectId == i) &&
    filters.serviceId.all fun i => s.serviceId == some i)

/-- The open vulnerabilities that the filters ask for. -/
def literalMatching (filters : VulnFilters) : List Vulnerability :=
  db.vulnerabilities.rows.filter fun v => (openVulnRows db).any fun row =>
    row.1.id == v.id && filters.admitsLiterally lower row.1 row.2

/-- The page of the tool, when `query` finds the vulnerabilities. -/
def toolPage (query : VulnFilters → Except PyError (List Vulnerability)) (args : ListArguments) :
    Except McpError (McpPage VulnerabilityItem) := do
  validatePage args.offset args.limit
  let projectId ← args.projectId.mapM fun value => uuidOrError env value "project_id"
  let serviceId ← args.serviceId.mapM fun value => uuidOrError env value "service_id"
  (args.bind env).mapError .unhandled
  let rows ← (query ⟨args.severity, projectId, serviceId, args.cveId⟩).mapError .unhandled
  let start ← (offsetParam args.offset).mapError .unhandled
  let ordered := (TieOrder.ofArrangement listKey (storedOrder _)).order rows
  let vulns := ((ordered.drop start).take (args.limit.toNat + 1)).take args.limit.toNat
  let items ← (vulns.mapM (vulnerabilityItem db)).mapError .unhandled
  return pageFields items rows.length args.offset args.limit

/-- The list that the filters ask for. -/
def listLiterally (args : ListArguments) : Except McpError (McpPage VulnerabilityItem) :=
  toolPage db env (fun filters => .ok (literalMatching db lower filters)) args

/-- In every state the tool lists what the two texts ask for, and fails on nothing else. -/
def FiltersLiteral (severity cveId : Option String) : Prop :=
  ∀ db, CveIdsFit db → ∀ env projectId serviceId offset limit,
    listVulnerabilities db lower env ⟨severity, projectId, serviceId, cveId, offset, limit⟩ =
      listLiterally db lower env ⟨severity, projectId, serviceId, cveId, offset, limit⟩

/-- No character of the text is special, or removed from it. -/
def PlainText (filter : Option String) : Prop :=
  ∀ text ∈ filter, ∀ c ∈ text.toList, c ∉ '\x00' :: metaChars

/-- The severity filter on a severity. -/
def severityAdmits (severity : Option String) (value : VulnerabilitySeverity) :
    Except PyError Bool :=
  textFilter severity fun text => ilike lower value.value (PyStr.stripNul text)

/-- The pattern of the severity filter matches none of the severities. -/
def SeverityRejects (severity : Option String) : Prop :=
  ∀ value, severityAdmits lower severity value = .ok false

/-- The pattern of the severity filter fails on none of the severities. -/
def SeverityWorks (severity : Option String) : Prop :=
  ∀ value, ∃ b, severityAdmits lower severity value = .ok b

/-- The length of the shortest CVE ids that the CVE filter admits. -/
def cveSpan (cveId : Option String) : ℕ :=
  (cveId.map fun text => patternSpan ("%" ++ PyStr.stripNul text ++ "%").toList).getD 0

variable {db lower env} {collation : Collation} {text s : String} {severity cveId : Option String}
  {filters : VulnFilters} {v : Vulnerability} {sbom : SBOM} {value : VulnerabilitySeverity}

/-! ### The patterns -/

theorem cveSpan_some :
    cveSpan (some text) = patternSpan ("%" ++ PyStr.stripNul text ++ "%").toList := by
  rw [cveSpan, Option.map_some, Option.getD_some]

theorem toList_cvePattern (text : String) :
    ("%" ++ text ++ "%").toList = '%' :: (text.toList ++ ['%']) := by
  simp

/-- The pattern of the CVE filter never fails. -/
theorem ilike_cvePattern (collation : Collation) (text s : String) :
    ∃ b, ilike collation.lower s ("%" ++ text ++ "%") = .ok b ∧
      (b = true ↔ Matches (("%" ++ text ++ "%").toList.map collation.lowerChar)
        (s.toList.map collation.lowerChar)) := by
  have hcomplete : Complete (("%" ++ text ++ "%").toList.map collation.lowerChar) := by
    rw [collation.complete_map, toList_cvePattern]
    exact complete_append_any ('%' :: text.toList)
  rw [ilike, collation.toList_lower, collation.toList_lower]
  exact like_spec _ hcomplete

theorem ilike_short (h : s.length < patternSpan ("%" ++ text ++ "%").toList) :
    ilike collation.lower s ("%" ++ text ++ "%") = .ok false := by
  obtain ⟨b, hb, hmatches⟩ := ilike_cvePattern collation text s
  cases b with
  | false => exact hb
  | true =>
    have hle := (hmatches.1 rfl).patternSpan_le
    rw [collation.patternSpan_map, List.length_map, String.length_toList] at hle
    omega

section Plain

variable (h : ∀ c ∈ text.toList, c ∉ '\x00' :: metaChars)

include h

theorem stripNul_plain : PyStr.stripNul text = text :=
  stripNul_eq fun hmem => h _ hmem List.mem_cons_self

theorem lower_plain (collation : Collation) :
    ∀ c ∈ text.toList.map collation.lowerChar, c ∉ metaChars := by
  simp only [List.forall_mem_map]
  intro c hc hmem
  exact h c hc (List.mem_cons_of_mem _ (collation.lowerChar_mem_metaChars.1 hmem))

/-- A text without special characters matches what it is equal to. -/
theorem ilike_plain : ilike collation.lower s (PyStr.stripNul text) =
    .ok (collation.lower s == collation.lower text) := by
  have hplain := lower_plain h collation
  have hcomplete : Complete (text.toList.map collation.lowerChar) := by
    have happend := complete_plain_append hplain []
    rw [List.append_nil] at happend
    exact happend.2 trivial
  rw [stripNul_plain h, ilike, collation.toList_lower, collation.toList_lower,
    like_eq_ok hcomplete, matches_plain_iff hplain, beq_iff_eq, ← String.toList_inj,
    collation.toList_lower, collation.toList_lower]

/-- Between percent signs it matches what contains it. -/
theorem ilike_contains : ilike collation.lower s ("%" ++ PyStr.stripNul text ++ "%") =
    .ok (decide ((collation.lower text).toList <:+: (collation.lower s).toList)) := by
  obtain ⟨b, hb, hmatches⟩ := ilike_cvePattern collation text s
  rw [stripNul_plain h, hb, collation.toList_lower, collation.toList_lower]
  rw [toList_cvePattern, List.map_cons, List.map_append, collation.lowerChar_percent,
    List.map_cons, List.map_nil, collation.lowerChar_percent,
    matches_contains_iff (lower_plain h collation)] at hmatches
  exact congrArg Except.ok (Bool.eq_iff_iff.2 (hmatches.trans decide_eq_true_iff.symm))

end Plain

/-! ### The filters -/

/-- The severity filter on a vulnerability, which may have no severity. -/
def severityFilter (lower : String → String) (severity : Option String) (v : Vulnerability) :
    Except PyError Bool :=
  textFilter severity fun text => match v.severity with
    | some value => ilike lower value.value (PyStr.stripNul text)
    | none => .ok false

/-- The CVE filter on a vulnerability. -/
def cveFilter (lower : String → String) (cveId : Option String) (v : Vulnerability) :
    Except PyError Bool :=
  textFilter cveId fun text => ilike lower v.cveId ("%" ++ PyStr.stripNul text ++ "%")

theorem admits_eq : filters.admits lower v sbom = (do
    if !(← severityFilter lower filters.severity v) then return false
    if !(← cveFilter lower filters.cveId v) then return false
    return filters.projectId.all (fun i => sbom.projectId == i) &&
      filters.serviceId.all fun i => sbom.serviceId == some i) := rfl

/-- A severity filter that works may be evaluated first. -/
theorem admits_of_ok {b c : Bool} (hseverity : severityFilter lower filters.severity v = .ok b)
    (hcve : b = true → cveFilter lower filters.cveId v = .ok c) :
    filters.admits lower v sbom = .ok (b && c &&
      (filters.projectId.all (fun i => sbom.projectId == i) &&
        filters.serviceId.all fun i => sbom.serviceId == some i)) := by
  rw [admits_eq, hseverity]
  cases b with
  | false => rfl
  | true =>
    rw [hcve rfl]
    cases c <;> rfl

theorem severityFilter_some (h : v.severity = some value) :
    severityFilter lower severity v = severityAdmits lower severity value := by
  simp only [severityFilter, h, severityAdmits]

theorem severityAdmits_plain (h : PlainText severity) :
    severityAdmits collation.lower severity value = .ok (severity.all fun text =>
      text == "" || collation.lower value.value == collation.lower text) := by
  cases severity with
  | none => rfl
  | some text =>
    by_cases hempty : text = ""
    · simp [severityAdmits, textFilter, hempty]
    · simp only [severityAdmits, textFilter, hempty, if_false]
      rw [ilike_plain (h text rfl)]
      simp [hempty]

theorem severityFilter_plain (h : PlainText severity) :
    severityFilter collation.lower severity v = .ok (severity.all fun text =>
      text == "" || v.severity.any fun value => collation.lower value.value ==
        collation.lower text) := by
  cases hv : v.severity with
  | some value => exact (severityFilter_some hv).trans (severityAdmits_plain h)
  | none =>
    rcases severity with _ | text
    · rfl
    · by_cases hempty : text = "" <;> simp [severityFilter, textFilter, hempty, hv]

theorem cveFilter_plain (h : PlainText cveId) :
    cveFilter collation.lower cveId v = .ok (cveId.all fun text =>
      decide ((collation.lower text).toList <:+: (collation.lower v.cveId).toList)) := by
  cases cveId with
  | none => rfl
  | some text =>
    by_cases hempty : text = ""
    · simp [cveFilter, textFilter, hempty]
    · simp only [cveFilter, textFilter, hempty, if_false]
      rw [ilike_contains (h text rfl), Option.all_some]

theorem plainText_of_all
    (h : (text.toList.all fun c => decide (c ∉ '\x00' :: metaChars)) = true) :
    PlainText (some text) := by
  rintro text' ⟨⟩ c hc
  exact of_decide_eq_true (List.all_eq_true.1 h c hc)

theorem plainText_value : PlainText (some value.value) := by
  cases value <;> exact plainText_of_all (by decide)

/-- The severities have no special characters, and nor has a text that is one of them. -/
theorem plain_of_lower_eq (h : collation.lower value.value = collation.lower text) :
    ∀ c ∈ text.toList, c ∉ '\x00' :: metaChars := by
  intro c hc hspecial
  have hlower : value.value.toList.map collation.lowerChar =
      text.toList.map collation.lowerChar := by
    simpa only [collation.toList_lower] using congrArg String.toList h
  have hmem : collation.lowerChar c ∈ value.value.toList.map collation.lowerChar :=
    hlower ▸ List.mem_map_of_mem hc
  obtain ⟨d, hd, hdc⟩ := List.mem_map.1 hmem
  rw [(collation.special c c hspecial).2 rfl, collation.special d c hspecial] at hdc
  exact plainText_value _ rfl d hd (hdc ▸ hspecial)

/-! ### Filters that admit nothing -/

theorem severityFilter_rejects (h : SeverityRejects lower severity) :
    severityFilter lower severity v = .ok false := by
  cases hv : v.severity with
  | some value => exact (severityFilter_some hv).trans (h value)
  | none =>
    have hcritical := h .CRITICAL
    cases severity with
    | none => cases hcritical
    | some text =>
      by_cases hempty : text = ""
      · simp [severityAdmits, textFilter, hempty] at hcritical
      · simp [severityFilter, textFilter, hempty, hv]

/-- A severity filter that matches no severity is not one of them. -/
theorem all_eq_false_of_rejects (h : SeverityRejects collation.lower severity) :
    (severity.all fun text => text == "" || v.severity.any fun value =>
      collation.lower value.value == collation.lower text) = false := by
  rw [Bool.eq_false_iff]
  intro hall
  cases severity with
  | none => cases h .CRITICAL
  | some text =>
    rw [Option.all_some, Bool.or_eq_true, beq_iff_eq, Option.any_eq_true] at hall
    rcases hall with rfl | ⟨value, -, hvalue⟩
    · cases h .CRITICAL
    · have hplain : PlainText (some text) := by
        rintro text' ⟨⟩
        exact plain_of_lower_eq (beq_iff_eq.1 hvalue)
      have hadmits := (severityAdmits_plain hplain).symm.trans (h value)
      simp [beq_iff_eq.1 hvalue] at hadmits

/-- A severity filter that works on the severities works on every vulnerability. -/
theorem severityFilter_works (h : SeverityWorks lower severity) :
    ∃ b, severityFilter lower severity v = .ok b := by
  cases hv : v.severity with
  | some value =>
    rw [severityFilter_some hv]
    exact h value
  | none =>
    rcases severity with _ | text
    · exact ⟨true, rfl⟩
    · by_cases hempty : text = "" <;> simp [severityFilter, textFilter, hempty, hv]

theorem length_le_of_fits (h : fitsVarchar 50 s = true) : s.length ≤ 50 := by
  rw [fitsVarchar, Bool.and_eq_true, decide_eq_true_eq] at h
  exact h.1

theorem cveFilter_span (h : 50 < cveSpan cveId) (hfits : fitsVarchar 50 v.cveId = true) :
    cveFilter collation.lower cveId v = .ok false := by
  cases cveId with
  | none => exact absurd h (by decide)
  | some text =>
    have hempty : text ≠ "" := by
      rintro rfl
      exact absurd h (by decide)
    rw [cveSpan_some] at h
    have hshort := (length_le_of_fits hfits).trans_lt h
    rw [cveFilter, textFilter, if_neg hempty, ilike_short hshort]

theorem patternSpan_cvePattern_le (text : String) :
    patternSpan ("%" ++ PyStr.stripNul text ++ "%").toList ≤ text.length := by
  have hstrip : (PyStr.stripNul text).toList.length ≤ text.toList.length := by
    rw [PyStr.stripNul, String.toList_ofList]
    exact List.length_filter_le _ _
  rw [toList_cvePattern, patternSpan, ← String.length_toList]
  exact patternSpan_append_any_le.trans hstrip

/-- No CVE id contains a text that is longer than it. -/
theorem all_eq_false_of_span (h : 50 < cveSpan cveId) (hfits : fitsVarchar 50 v.cveId = true) :
    (cveId.all fun text =>
      decide ((collation.lower text).toList <:+: (collation.lower v.cveId).toList)) = false := by
  rw [Bool.eq_false_iff]
  intro hall
  cases cveId with
  | none => exact absurd h (by decide)
  | some text =>
    have hinfix := (of_decide_eq_true (Option.all_some ▸ hall)).length_le
    rw [collation.toList_lower, collation.toList_lower, List.length_map, List.length_map,
      String.length_toList, String.length_toList] at hinfix
    rw [cveSpan_some] at h
    have hle := patternSpan_cvePattern_le text
    have hlength := length_le_of_fits hfits
    omega

/-- **The filters are taken literally** when the texts have no special characters, or together
admit nothing. -/
theorem admits_literally (h : PlainText filters.severity ∧ PlainText filters.cveId ∨
      SeverityRejects collation.lower filters.severity ∨
      SeverityWorks collation.lower filters.severity ∧ 50 < cveSpan filters.cveId)
    (hfits : fitsVarchar 50 v.cveId = true) :
    filters.admits collation.lower v sbom =
      .ok (filters.admitsLiterally collation.lower v sbom) := by
  rw [VulnFilters.admitsLiterally]
  rcases h with ⟨hseverity, hcve⟩ | hrejects | ⟨hworks, hspan⟩
  · exact admits_of_ok (severityFilter_plain hseverity) fun _ => cveFilter_plain hcve
  · rw [all_eq_false_of_rejects hrejects, Bool.false_and, Bool.false_and]
    refine admits_of_ok (c := false) (severityFilter_rejects hrejects) fun hb => ?_
    exact absurd hb Bool.false_ne_true
  · obtain ⟨b, hb⟩ := severityFilter_works (v := v) hworks
    have hcve : cveFilter collation.lower filters.cveId v = .ok false := cveFilter_span hspan hfits
    rw [admits_of_ok hb fun _ => hcve, all_eq_false_of_span hspan hfits, Bool.and_false,
      Bool.and_false]

/-! ### The list -/

theorem listVulnerabilities_eq_toolPage (args : ListArguments) :
    listVulnerabilities db lower env args = toolPage db env (selectVulnerabilities db lower) args :=
  rfl

/-- Filters that are taken literally on every row find what they ask for. -/
theorem selectVulnerabilities_literally
    (h : ∀ row ∈ openVulnRows db,
      filters.admits lower row.1 row.2 = .ok (filters.admitsLiterally lower row.1 row.2)) :
    selectVulnerabilities db lower filters = .ok (literalMatching db lower filters) := by
  have hwork : FiltersWork db lower filters := fun row hrow => ⟨_, h row hrow⟩
  rw [selectVulnerabilities_eq hwork]
  refine congrArg Except.ok (List.filter_congr fun v _ => Bool.eq_iff_iff.2 ?_)
  simp only [List.any_eq_true, Bool.and_eq_true]
  refine exists_congr fun row => and_congr_right fun hrow => and_congr_right fun _ => ?_
  rw [h row hrow]
  simp [Except.toOption]

theorem openVulnRows_vulnerability {row : Vulnerability × SBOM} (h : row ∈ openVulnRows db) :
    row.1 ∈ db.vulnerabilities := by
  simp only [openVulnRows, List.mem_flatMap, List.mem_map, List.mem_filter] at h
  obtain ⟨ls, -, v, ⟨hv, -⟩, rfl⟩ := h
  exact hv

/-- The page is the one that is asked for when the query finds what is asked for. -/
theorem toolPage_congr {query query' : VulnFilters → Except PyError (List Vulnerability)}
    {args : ListArguments}
    (h : ∀ projectId serviceId, query ⟨args.severity, projectId, serviceId, args.cveId⟩ =
      query' ⟨args.severity, projectId, serviceId, args.cveId⟩) :
    toolPage db env query args = toolPage db env query' args := by
  simp only [toolPage, h]

/-! ### A finding that tells the texts apart -/

/-- A table with one row. -/
def Table.single {R : Type*} [UniqueKeys R] (r : R) : Table R :=
  ⟨[r], List.pairwise_singleton _ _⟩

theorem Table.forall_mem_single {R : Type*} [UniqueKeys R] {r : R} {P : R → Prop} (h : P r) :
    ∀ a ∈ Table.single r, P a := by
  intro a ha
  rw [List.mem_singleton.1 ha]
  exact h

theorem Table.exists_mem_single {R : Type*} [UniqueKeys R] {r : R} {P : R → Prop} (h : P r) :
    ∃ a ∈ Table.single r, P a :=
  ⟨r, List.mem_singleton_self r, h⟩

/-- A vulnerability of which only its name and its severity are known. -/
def namedVulnerability (cveId : String) (value : VulnerabilitySeverity) : Vulnerability :=
  ⟨3, cveId, none, some value, none, none, none, none, [], none, .null⟩

/-- The release in which it is found. -/
def foundOn : SBOM := ⟨2, 1, none, none, .null, "hash", none, 100, 100, none⟩

/-- Where nothing is accepted, no acceptance has a service. -/
theorem noAcceptances_service : ∀ a ∈ (Table.empty : Table RiskAcceptance), ∀ i ∈ a.serviceId,
    ∃ v ∈ (Table.empty : Table Service), v.id = i :=
  fun _ h => absurd h (Table.not_mem_empty _)

/-- A database with one finding. -/
def oneFinding (cveId : String) (value : VulnerabilitySeverity) : Database where
  projects := .single ⟨1, "project", "project"⟩
  services := .empty
  sboms := .single foundOn
  dependencies := .empty
  vulnerabilities := .single (namedVulnerability cveId value)
  links := .single ⟨2, "package", 3, .OPEN, none, 110⟩
  riskAcceptances := .empty
  servicesProject := fun _ h => absurd h (Table.not_mem_empty _)
  sbomsProject := Table.forall_mem_single (Table.exists_mem_single rfl)
  sbomsService := Table.forall_mem_single fun _ h => absurd h (Option.not_mem_none _)
  dependenciesSbom := fun _ h => absurd h (Table.not_mem_empty _)
  linksSbom := Table.forall_mem_single (Table.exists_mem_single rfl)
  linksVulnerability := Table.forall_mem_single (Table.exists_mem_single rfl)
  acceptancesProject := fun _ h => absurd h (Table.not_mem_empty _)
  acceptancesService := noAcceptances_service
  acceptancesVulnerability := fun _ h => absurd h (Table.not_mem_empty _)

theorem openVulnRows_oneFinding (cveId : String) (value : VulnerabilitySeverity) :
    openVulnRows (oneFinding cveId value) = [(namedVulnerability cveId value, foundOn)] := rfl

section OneFinding

variable {cve : String}

/-- The query finds the vulnerability when the filters admit it. -/
theorem selectVulnerabilities_oneFinding :
    selectVulnerabilities (oneFinding cve value) lower filters =
      (filters.admits lower (namedVulnerability cve value) foundOn).map fun b =>
        if b then [namedVulnerability cve value] else [] := by
  rw [selectVulnerabilities, buildVulnSubquery, openVulnRows_oneFinding, selectWhere_singleton]
  cases filters.admits lower (namedVulnerability cve value) foundOn with
  | error e => rfl
  | ok b => cases b <;> rfl

theorem literalMatching_oneFinding :
    literalMatching (oneFinding cve value) lower filters =
      if filters.admitsLiterally lower (namedVulnerability cve value) foundOn then
        [namedVulnerability cve value] else [] := by
  rw [literalMatching, openVulnRows_oneFinding]
  cases h : filters.admitsLiterally lower (namedVulnerability cve value) foundOn <;>
    simp [oneFinding, Table.single, h]

/-- The total of the page of a query without a project and a service. -/
theorem total_oneFinding (result : Except PyError Bool)
    {query : VulnFilters → Except PyError (List Vulnerability)}
    (h : query ⟨severity, none, none, cveId⟩ =
      result.map fun b => if b then [namedVulnerability cve value] else []) :
    (toolPage (oneFinding cve value) demoEnv query ⟨severity, none, none, cveId, 0, 1⟩).map
      (·.total) = (result.map Bool.toNat).mapError .unhandled := by
  change (toolPage (oneFinding cve value) demoEnv (fun _ => query ⟨severity, none, none, cveId⟩)
    ⟨severity, none, none, cveId, 0, 1⟩).map (·.total) = _
  rw [h]
  cases result with
  | error e => rfl
  | ok b => cases b <;> rfl

/-- Filters that are always taken literally are so on the finding. -/
theorem FiltersLiteral.admits (h : FiltersLiteral lower severity cveId) (cve : String)
    (value : VulnerabilitySeverity) (hfits : fitsVarchar 50 cve = true) :
    VulnFilters.admits lower ⟨severity, none, none, cveId⟩ (namedVulnerability cve value) foundOn =
      .ok (VulnFilters.admitsLiterally lower ⟨severity, none, none, cveId⟩
        (namedVulnerability cve value) foundOn) := by
  have hcves : CveIdsFit (oneFinding cve value) := by
    intro v hv
    rw [List.mem_singleton.1 hv]
    exact hfits
  have hpage := congrArg (Except.map (·.total)) (h _ hcves demoEnv none none 0 1)
  rw [listVulnerabilities_eq_toolPage, listLiterally,
    total_oneFinding _ selectVulnerabilities_oneFinding,
    total_oneFinding (.ok _) (congrArg Except.ok literalMatching_oneFinding)] at hpage
  generalize VulnFilters.admitsLiterally lower ⟨severity, none, none, cveId⟩
    (namedVulnerability cve value) foundOn = literal at hpage ⊢
  cases hadmits : VulnFilters.admits lower ⟨severity, none, none, cveId⟩
      (namedVulnerability cve value) foundOn with
  | error e =>
    rw [hadmits] at hpage
    cases hpage
  | ok b =>
    rw [hadmits] at hpage
    cases b <;> cases literal
    · rfl
    · cases hpage
    · cases hpage
    · rfl

end OneFinding

/-! ### The shortest CVE id that a filter admits -/

/-- The shortest CVE id that matches the pattern of a text. -/
def shortestCve (text : String) : String :=
  String.ofList (patternText (PyStr.stripNul text ++ "%").toList)

theorem toList_shortestCve (text : String) : (shortestCve text).toList =
    patternText ((PyStr.stripNul text).toList ++ ['%']) := by
  simp [shortestCve]

theorem length_shortestCve (text : String) :
    (shortestCve text).length = cveSpan (some text) := by
  rw [← String.length_toList, toList_shortestCve, length_patternText]
  simp [cveSpan, patternSpan]

theorem shortestCve_fits (h : cveSpan (some text) ≤ 50) :
    fitsVarchar 50 (shortestCve text) = true := by
  have hnul : '\x00' ∉ (shortestCve text).toList := by
    rw [toList_shortestCve]
    intro hmem
    rcases mem_patternText hmem with hmem | hx
    · simp [PyStr.stripNul] at hmem
    · exact absurd hx (by decide)
  simpa [fitsVarchar, length_shortestCve, h] using hnul

theorem ilike_shortestCve (text : String) : ilike collation.lower (shortestCve text)
    ("%" ++ PyStr.stripNul text ++ "%") = .ok true := by
  obtain ⟨b, hb, hmatches⟩ := ilike_cvePattern collation (PyStr.stripNul text)
    (shortestCve text)
  have htext := matches_patternText (complete_append_any (PyStr.stripNul text).toList)
  rw [hb]
  refine congrArg Except.ok (hmatches.2 (collation.matches_map ?_))
  rw [toList_cvePattern, toList_shortestCve, matches_any_iff]
  exact ⟨_, List.suffix_refl _, htext⟩

/-- It contains the text only when this has no special characters. -/
theorem plain_of_shortestCve
    (h : (collation.lower text).toList <:+: (collation.lower (shortestCve text)).toList) :
    ∀ c ∈ text.toList, c ∉ '\x00' :: metaChars := by
  have hstrip : (PyStr.stripNul text).toList = text.toList.filter fun c => c != '\x00' := by
    rw [PyStr.stripNul, String.toList_ofList]
  rw [collation.toList_lower, collation.toList_lower, toList_shortestCve, hstrip] at h
  have hle := h.length_le
  have hspan := patternSpan_append_any_le (p := text.toList.filter fun c => c != '\x00')
  have hfilter := List.length_filter_le (fun c => c != '\x00') text.toList
  rw [List.length_map, List.length_map, length_patternText] at hle
  -- nothing was removed, and nothing matches less than itself
  have hall : (text.toList.filter fun c => c != '\x00') = text.toList :=
    (List.filter_sublist).eq_of_length (by omega)
  rw [hall] at h hspan hle
  have heq := h.eq_of_length (by
    rw [List.length_map, List.length_map, length_patternText]
    omega)
  intro c hc hspecial
  rcases List.mem_cons.1 hspecial with rfl | hmeta
  · exact absurd (List.filter_eq_self.1 hall _ hc) (by decide)
  · exact collation.plain_of_patternText heq.symm c hc hmeta

/-! ### When the filters are literal -/

/-- Filters that are taken literally do not fail on a severity. -/
theorem FiltersLiteral.works (h : FiltersLiteral lower severity cveId) :
    SeverityWorks lower severity := by
  intro value
  have hadmits := h.admits "" value (by decide)
  rw [admits_eq] at hadmits
  obtain ⟨b, hb, -⟩ := bind_eq_ok.1 hadmits
  exact ⟨b, (severityFilter_some rfl).symm.trans hb⟩

/-- Texts that admit some vulnerability have no special characters, if the list is to be the one
they ask for. -/
theorem FiltersLiteral.plain (h : FiltersLiteral collation.lower severity cveId)
    (hadmits : severityAdmits collation.lower severity value = .ok true)
    (hspan : cveSpan cveId ≤ 50) : PlainText severity ∧ PlainText cveId := by
  obtain ⟨cve, hfits, hcve, hcontains⟩ : ∃ cve, fitsVarchar 50 cve = true ∧
      cveFilter collation.lower cveId (namedVulnerability cve value) = .ok true ∧
        ((cveId.all fun text => decide
          ((collation.lower text).toList <:+: (collation.lower cve).toList)) = true →
            PlainText cveId) := by
    cases cveId with
    | none => exact ⟨"", by decide, rfl, fun _ _ hmem => by cases hmem⟩
    | some text =>
      refine ⟨shortestCve text, shortestCve_fits hspan, ?_, fun hall => ?_⟩
      · rw [cveFilter, textFilter]
        split_ifs
        · rfl
        · exact ilike_shortestCve text
      · rintro text' ⟨⟩
        exact plain_of_shortestCve (of_decide_eq_true hall)
  have hliteral := h.admits cve value hfits
  rw [admits_of_ok (b := true) (c := true) ((severityFilter_some rfl).trans hadmits)
    fun _ => hcve] at hliteral
  have hboth := (Except.ok.inj hliteral).symm
  simp only [VulnFilters.admitsLiterally, Option.all_none, Bool.and_self, Bool.and_true,
    Bool.and_eq_true] at hboth
  refine ⟨?_, hcontains hboth.2⟩
  rintro text ⟨⟩
  have hseverity := hboth.1
  rw [Option.all_some, Bool.or_eq_true] at hseverity
  rcases hseverity with hempty | hvalue
  · rw [beq_iff_eq.1 hempty]
    exact fun c hc => absurd hc List.not_mem_nil
  · exact plain_of_lower_eq (beq_iff_eq.1 hvalue)

/-- **Filters are literal when nothing in them is special.**  In every state the tool lists exactly
what the texts of its filters ask for, and fails on no text, if and only if the texts have no
special characters, or the severity matches nothing, or the CVE ids would have to be longer than
any that is stored. -/
theorem filters_literal_iff (collation : Collation) (severity cveId : Option String) :
    FiltersLiteral collation.lower severity cveId ↔
      PlainText severity ∧ PlainText cveId ∨ SeverityRejects collation.lower severity ∨
        SeverityWorks collation.lower severity ∧ 50 < cveSpan cveId := by
  constructor
  · intro h
    by_cases hspan : 50 < cveSpan cveId
    · exact .inr (.inr ⟨h.works, hspan⟩)
    by_cases hrejects : SeverityRejects collation.lower severity
    · exact .inr (.inl hrejects)
    obtain ⟨value, hvalue⟩ := not_forall.1 hrejects
    obtain ⟨b, hb⟩ := h.works value
    cases b with
    | false => exact absurd hb hvalue
    | true => exact .inl (h.plain hb (not_lt.1 hspan))
  · intro h db hcves env projectId serviceId offset limit
    refine toolPage_congr fun project service => ?_
    refine selectVulnerabilities_literally fun row hrow => admits_literally h ?_
    exact hcves _ (openVulnRows_vulnerability hrow)

/-! ### Examples -/

/-- Filters without special characters. -/
theorem filters_literal_demo :
    FiltersLiteral asciiCollation.lower (some "critical") (some "cve-2024") := by
  refine (filters_literal_iff asciiCollation (some "critical") (some "cve-2024")).2 (.inl ?_)
  exact ⟨plainText_of_all (by decide), plainText_of_all (by decide)⟩

/-- The filters of a request, without a project and a service. -/
def textArguments (severity cveId : Option String) : ListArguments :=
  ⟨severity, none, none, cveId, 0, 50⟩

/-- A percent sign lists every severity and an underscore every CVE id, where nothing is asked for;
a backslash makes the tool fail. -/
theorem filters_not_literal : (system gradedEnv).Reachable demoGraded ∧
    CveIdsFit demoGraded.db ∧
    (listVulnerabilities demoGraded.db asciiCollation.lower gradedEnv
        (textArguments (some "%") none)).map (·.total) = .ok 2 ∧
      (listLiterally demoGraded.db asciiCollation.lower gradedEnv
        (textArguments (some "%") none)).map (·.total) = .ok 0 ∧
      (listVulnerabilities demoGraded.db asciiCollation.lower gradedEnv
        (textArguments none (some "_"))).map (·.total) = .ok 2 ∧
      (listLiterally demoGraded.db asciiCollation.lower gradedEnv
        (textArguments none (some "_"))).map (·.total) = .ok 0 ∧
      (listVulnerabilities demoGraded.db asciiCollation.lower gradedEnv
        (textArguments (some "\\") none)).map (·.total) = .error (.unhandled .dataError) ∧
      (listLiterally demoGraded.db asciiCollation.lower gradedEnv
        (textArguments (some "\\") none)).map (·.total) = .ok 0 :=
  ⟨Machine.reachable_after, cveIdsFit Machine.reachable_after, by decide +kernel⟩

end ArgusSbomGuard
