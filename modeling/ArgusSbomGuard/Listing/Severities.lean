import ArgusSbomGuard.Listing.Pages

/-!
# Lists sorted by severity

`severity_case` numbers the severities from the most severe one up, so that `desc` puts the unknown
ones first and the critical ones last, and `asc` does the opposite: the reverse of the other sort
fields, of `critical > high > medium > low`, and of what the tool `list_vulnerabilities` asks for
(`severity_sort_reversed`).  So a page is in the order that was asked for exactly when it has one
severity only (`severity_monotone_iff`).

## Main definitions

* `severityLevel` : how severe a severity is.
* `SeverityMonotone` : the rows come in the order that was asked for.
* `WithinOneSeverity` : the window of a page lies within the vulnerabilities of one severity.
-/

namespace ArgusSbomGuard

/-- How severe the text of a severity is. -/
def severityLevel : Option String → ℕ
  | some "CRITICAL" => 4
  | some "HIGH" => 3
  | some "MEDIUM" => 2
  | some "LOW" => 1
  | _ => 0

/-- From one row to the next the severity does not decrease for `asc`, and does not increase
otherwise. -/
def SeverityMonotone (order : String) (severities : List (Option String)) : Prop :=
  severities.Pairwise fun a b =>
    if order = "asc" then severityLevel a ≤ severityLevel b else severityLevel b ≤ severityLevel a

instance (order : String) (severities : List (Option String)) :
    Decidable (SeverityMonotone order severities) :=
  inferInstanceAs (Decidable (severities.Pairwise _))

/-- The place of a vulnerability's severity in the lists: they begin with the most severe one for
`asc`, and with the least severe one otherwise. -/
def severityPlace (order : String) (v : Vulnerability) : ℕ :=
  if order = "asc" then 4 - severityLevel (v.severity.map (·.value))
  else severityLevel (v.severity.map (·.value))

/-- A window of `length` rows from `start` on is empty or lies within the rows of one severity. -/
def WithinOneSeverity (order : String) (rows : List Vulnerability) (start length : ℕ) : Prop :=
  rows.length ≤ start ∨ ∃ place, rows.countP (fun v => severityPlace order v < place) ≤ start ∧
    min (start + length) rows.length ≤ rows.countP fun v => severityPlace order v ≤ place

/-- The filters of the arguments. -/
def ListArguments.filters (env : Env) (args : ListArguments) : VulnFilters :=
  ⟨args.severity, args.projectId.bind env.parseUuid, args.serviceId.bind env.parseUuid, args.cveId⟩

variable {db : Database} {lower : String → String} {env : Env} {order : String}
  {v a b : Vulnerability} {vulns : List Vulnerability}

/-! ### The order of the severities -/

theorem severityLevel_value (severity : Option VulnerabilitySeverity) :
    severityLevel (severity.map (·.value)) = 4 - min 4 (severityCase severity) := by
  rcases severity with _ | severity
  · decide
  · cases severity <;> decide

theorem severityLevel_le (severity : Option VulnerabilitySeverity) :
    severityLevel (severity.map (·.value)) ≤ 4 := by
  rw [severityLevel_value]
  omega

theorem applyVulnOrdering_severity : applyVulnOrdering "severity" order v =
    toLex (toLex (if order = "asc" then severityCase v.severity else 99 - severityCase v.severity,
      0), floatKey true v.cvssScore) := by
  by_cases horder : order = "asc" <;> simp [applyVulnOrdering, horder]

/-- Rows in the order of the query have their severities in the order of the places. -/
theorem severityPlace_le
    (h : applyVulnOrdering "severity" order a ≤ applyVulnOrdering "severity" order b) :
    severityPlace order a ≤ severityPlace order b := by
  rw [applyVulnOrdering_severity, applyVulnOrdering_severity] at h
  have hfirst : (if order = "asc" then severityCase a.severity else 99 - severityCase a.severity) ≤
      if order = "asc" then severityCase b.severity else 99 - severityCase b.severity := by
    rcases Prod.Lex.toLex_le_toLex.1 h with h | h
    · rcases Prod.Lex.toLex_lt_toLex.1 h with h | h
      · exact h.le
      · exact h.1.le
    · exact (Prod.mk.inj (toLex_inj.1 h.1)).1.le
  have hmax : ∀ s : Option VulnerabilitySeverity, severityCase s ≤ 99 := by
    intro s
    rcases s with _ | s
    · decide
    · cases s <;> decide
  have ha := hmax a.severity
  have hb := hmax b.severity
  unfold severityPlace
  rw [severityLevel_value, severityLevel_value]
  split_ifs at hfirst ⊢ <;> omega

/-- The rows come in the order that was asked for when their places descend. -/
theorem severityMonotone_map :
    SeverityMonotone order (vulns.map fun v => v.severity.map (·.value)) ↔
      vulns.Pairwise fun a b => severityPlace order b ≤ severityPlace order a := by
  unfold SeverityMonotone
  rw [List.pairwise_map]
  refine iff_of_eq (congrArg (List.Pairwise · vulns) ?_)
  funext a b
  have ha := severityLevel_le a.severity
  have hb := severityLevel_le b.severity
  unfold severityPlace
  split_ifs
  · exact propext (by omega)
  · rfl

/-- A window of the ordered query. -/
theorem severityMonotone_window {rows ordered : List Vulnerability} (hperm : ordered.Perm rows)
    (hsorted : ordered.Pairwise fun a b =>
      applyVulnOrdering "severity" order a ≤ applyVulnOrdering "severity" order b)
    {start length : ℕ} :
    SeverityMonotone order
        (((ordered.drop start).take length).map fun v => v.severity.map (·.value)) ↔
      WithinOneSeverity order rows start length := by
  rw [severityMonotone_map, window_descends_iff (hsorted.imp severityPlace_le)]
  unfold WithinOneSeverity
  simp only [hperm.length_eq, hperm.countP_eq]

/-! ### The two lists -/

theorem activeVulnerabilities_severities {query : ActiveQuery}
    {tie : TieOrder (applyVulnOrdering query.sort query.order)}
    {response : PageResponse VulnerabilityResponse}
    (h : activeVulnerabilities db lower query tie = .ok response) :
    response.items.map (·.severity) =
      (((tie.order (matching db lower query.filters)).drop ((query.page - 1) * query.perPage)).take
        query.perPage).map fun v => v.severity.map (·.value) := by
  obtain ⟨rows, hrows, h⟩ := bind_eq_ok.1 h
  have hmatching : rows = matching db lower query.filters :=
    Except.ok.inj (hrows.symm.trans (selectVulnerabilities_eq (filtersWork_of_isOk hrows)))
  subst hmatching
  rw [← Except.ok.inj h]
  simp only [paginate_items, pageAt, List.map_map]
  rfl

theorem vulnerabilityItem_severity {item : VulnerabilityItem}
    (h : vulnerabilityItem db v = .ok item) : item.severity = v.severity.map (·.value) := by
  obtain ⟨⟨fixedVersions, fixState⟩, -, h⟩ := bind_eq_ok.1 h
  rw [← Except.ok.inj h]
  rfl

theorem mapM_severity {items : List VulnerabilityItem}
    (h : vulns.mapM (vulnerabilityItem db) = .ok items) :
    items.map (·.severity) = vulns.map fun v => v.severity.map (·.value) := by
  induction vulns generalizing items with
  | nil =>
    cases h
    rfl
  | cons v vulns ih =>
    rw [List.mapM_cons] at h
    obtain ⟨item, hitem, h⟩ := bind_eq_ok.1 h
    obtain ⟨rest, hrest, h⟩ := bind_eq_ok.1 h
    rw [← Except.ok.inj h, List.map_cons, List.map_cons, vulnerabilityItem_severity hitem, ih hrest]

theorem uuidOrError_eq_ok {value field : String} {i : Uuid}
    (h : uuidOrError env value field = .ok i) : env.parseUuid value = some i := by
  unfold uuidOrError at h
  split at h
  · rename_i j hj
    rw [hj, Except.ok.inj h]
  · cases h

/-- An identifier that is given has to be one. -/
theorem mapM_uuidOrError_eq_ok {value : Option String} {field : String} {i : Option Uuid}
    (h : value.mapM (fun value => uuidOrError env value field) = .ok i) :
    i = value.bind env.parseUuid := by
  cases value with
  | none => exact (Except.ok.inj h).symm
  | some value =>
    obtain ⟨j, hj, h⟩ := map_eq_ok.1 h
    rw [h, Option.bind_some, uuidOrError_eq_ok hj]

/-- The rows that the tool lists. -/
theorem listVulnerabilities_eq_ok {args : ListArguments} {page : McpPage VulnerabilityItem}
    (h : listVulnerabilities db lower env args = .ok page) :
    FiltersWork db lower (args.filters env) ∧
      ((((TieOrder.ofArrangement listKey (storedOrder _)).order
        (matching db lower (args.filters env))).drop args.offset.toNat).take
          args.limit.toNat).mapM (vulnerabilityItem db) = .ok page.items := by
  obtain ⟨-, -, hargs⟩ := bind_eq_ok.1 h
  obtain ⟨projectId, hproject, hargs⟩ := bind_eq_ok.1 hargs
  obtain ⟨serviceId, hservice, hquery⟩ := bind_eq_ok.1 hargs
  obtain rfl := mapM_uuidOrError_eq_ok hproject
  obtain rfl := mapM_uuidOrError_eq_ok hservice
  obtain ⟨-, -, hquery⟩ := bind_eq_ok.1 hquery
  obtain ⟨rows, hrows, hquery⟩ := bind_eq_ok.1 hquery
  have hwork : FiltersWork db lower (args.filters env) := filtersWork_of_isOk (mapError_eq_ok hrows)
  obtain rfl : matching db lower (args.filters env) = rows :=
    Except.ok.inj ((selectVulnerabilities_eq hwork).symm.trans (mapError_eq_ok hrows))
  obtain ⟨start, hstart, hpage⟩ := bind_eq_ok.1 hquery
  obtain rfl : start = args.offset.toNat := by
    have hok := mapError_eq_ok hstart
    unfold offsetParam at hok
    split_ifs at hok
    exact (Except.ok.inj hok).symm
  obtain ⟨items, hitems, hpage⟩ := bind_eq_ok.1 hpage
  rw [List.take_take, Nat.min_eq_left (Nat.le_succ _)] at hitems
  rw [← Except.ok.inj hpage]
  exact ⟨hwork, mapError_eq_ok hitems⟩

/-- The severities on a page of the tool. -/
theorem listVulnerabilities_severities {args : ListArguments} {page : McpPage VulnerabilityItem}
    (h : listVulnerabilities db lower env args = .ok page) :
    page.items.map (·.severity) =
      ((((TieOrder.ofArrangement listKey (storedOrder _)).order
        (matching db lower (args.filters env))).drop args.offset.toNat).take
          args.limit.toNat).map fun v => v.severity.map (·.value) :=
  mapM_severity (listVulnerabilities_eq_ok h).2

/-- The tool orders by the severity before it orders by the identifier. -/
theorem applyVulnOrdering_le_of_listKey (h : listKey a ≤ listKey b) :
    applyVulnOrdering "severity" "desc" a ≤ applyVulnOrdering "severity" "desc" b := by
  rcases Prod.Lex.toLex_le_toLex.1 h with h | h
  · exact h.le
  · exact h.1.le

/-- **The order that was asked for.**  A page that is sorted by severity is in the order that was
asked for exactly when it lies within the vulnerabilities of one severity; for the tool this order
begins with the most severe ones. -/
theorem severity_monotone_iff (db : Database) (lower : String → String) :
    (∀ query tie response, query.sort = "severity" →
      activeVulnerabilities db lower query tie = .ok response →
        (SeverityMonotone query.order (response.items.map (·.severity)) ↔
          WithinOneSeverity query.order (matching db lower query.filters)
            ((query.page - 1) * query.perPage) query.perPage)) ∧
    ∀ env args page, listVulnerabilities db lower env args = .ok page →
      (SeverityMonotone "desc" (page.items.map (·.severity)) ↔
        WithinOneSeverity "desc" (matching db lower (args.filters env)) args.offset.toNat
          args.limit.toNat) := by
  constructor
  · intro query tie response hsort hresponse
    rw [activeVulnerabilities_severities hresponse]
    refine severityMonotone_window (tie.perm _) ((tie.sorted _).imp fun h => ?_)
    rw [hsort] at h
    exact h
  · intro env args page hpage
    rw [listVulnerabilities_severities hpage]
    exact severityMonotone_window ((TieOrder.ofArrangement listKey (storedOrder _)).perm _)
      (((TieOrder.ofArrangement listKey (storedOrder _)).sorted _).imp
        applyVulnOrdering_le_of_listKey)

/-! ### An example -/

/-- The severities of a report, by their numbers. -/
def gradeOf (grade : UInt8) : String :=
  match grade % 5 with
  | 1 => "critical"
  | 2 => "high"
  | 3 => "medium"
  | 4 => "low"
  | _ => "unknown"

/-- The matches of a report on one package, with one CVE for each number. -/
def gradedMatches (grades : List UInt8) : List Json :=
  grades.map fun grade =>
    .obj [("vulnerability", .obj [("id", .str (demoName 'c' grade.toNat)),
        ("severity", .str (gradeOf grade))]),
      ("artifact", .obj [("purl", .str "p")])]

/-- The demonstration, with reports in which the findings have severities. -/
def gradedEnv : Env := { demoEnv with
  loads
    | 2 :: grades => .ok (.obj [("matches", .arr (gradedMatches grades))])
    | bytes => demoEnv.loads bytes }

/-- An upload, and a scan that finds CVEs of some severities. -/
def gradedActions (grades : List UInt8) : List Action :=
  [demoProject, demoUpload 1 10 100,
    .scanSbom (gradedEnv.strUuid 10) ⟨.exited 0 (2 :: grades), String.length, 110, 110⟩]

/-- A release with a critical finding and one that is low. -/
def demoGraded : World :=
  (system gradedEnv).after (gradedActions [1, 4]) (by decide +kernel)

/-- The first page of the list by severity. -/
def severityQuery (order : String) (perPage : ℕ) (hone : 1 ≤ perPage) (hle : perPage ≤ 200) :
    ActiveQuery :=
  ⟨1, perPage, noFilters, "severity", order, firstPage, hone, hle⟩

/-- A release with two findings that are low and two that are critical. -/
def demoPaired : World :=
  (system gradedEnv).after (gradedActions [1, 4, 6, 9]) (by decide +kernel)

/-- The first page of two has the low findings, so it is in order. -/
theorem severity_monotone_demo : ∃ response,
    activeVulnerabilities demoPaired.db PyStr.lower
        (severityQuery "desc" 2 (by decide) (by decide)) (.ofArrangement _ (storedOrder _)) =
          .ok response ∧
      response.items.map (·.severity) = [some "LOW", some "LOW"] ∧
      SeverityMonotone "desc" (response.items.map (·.severity)) := by
  obtain ⟨response, hresponse, hitems⟩ : ∃ response,
      activeVulnerabilities demoPaired.db PyStr.lower
        (severityQuery "desc" 2 (by decide) (by decide)) (.ofArrangement _ (storedOrder _)) =
          .ok response ∧
      response.items.map (·.severity) = [some "LOW", some "LOW"] := by
    decide +kernel
  refine ⟨response, hresponse, hitems, ?_⟩
  exact ((severity_monotone_iff _ _).1 _ _ _ rfl hresponse).2 (.inr ⟨1, by decide +kernel⟩)

/-- In both orders, and on the page of the tool, the severities come in the opposite order. -/
theorem severity_sort_reversed : (system gradedEnv).Reachable demoGraded ∧
    (activeVulnerabilities demoGraded.db PyStr.lower
        (severityQuery "desc" 10 (by decide) (by decide)) (.ofArrangement _ (storedOrder _))).map
        (fun response => response.items.map (·.severity)) = .ok [some "LOW", some "CRITICAL"] ∧
      (activeVulnerabilities demoGraded.db PyStr.lower
        (severityQuery "asc" 10 (by decide) (by decide)) (.ofArrangement _ (storedOrder _))).map
        (fun response => response.items.map (·.severity)) = .ok [some "CRITICAL", some "LOW"] ∧
      (listVulnerabilities demoGraded.db PyStr.lower gradedEnv (.window 0 50)).map
        (fun page => page.items.map (·.severity)) = .ok [some "LOW", some "CRITICAL"] ∧
      ¬ SeverityMonotone "desc" [some "LOW", some "CRITICAL"] ∧
      ¬ SeverityMonotone "asc" [some "CRITICAL", some "LOW"] :=
  ⟨Machine.reachable_after, by decide +kernel⟩

end ArgusSbomGuard
