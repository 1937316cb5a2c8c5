import ArgusSbomGuard.Listing.Vulnerabilities
import ArgusSbomGuard.System.World

/-!
# Going through the pages of the active list

Every page of `/vulnerabilities/active` is a query of its own, and its `ORDER BY` does not tell
apart vulnerabilities with the same sort values.  All pages together list every matching
vulnerability once, whatever the database makes of the ties, exactly when vulnerabilities with the
same sort values are on the same page and no filter makes the query fail (`paging_complete_iff`).

## Main definitions

* `ActiveQuery.at` : the same query for another page.
* `matching` : the vulnerabilities that the filters are about.
* `FiltersWork` : no pattern of the filters is rejected.
* `ListsOnce` : all pages together list what they should.
-/

namespace ArgusSbomGuard

/-- The same query for the `k`-th page, from zero. -/
def ActiveQuery.at (query : ActiveQuery) (k : ℕ) : ActiveQuery :=
  { query with page := k + 1, onePage := Nat.le_add_left 1 k }

variable (db : Database) (lower : String → String)

/-- The open vulnerabilities that the filters admit. -/
def matching (filters : VulnFilters) : List Vulnerability :=
  db.vulnerabilities.rows.filter fun v => (openVulnRows db).any fun row =>
    row.1.id == v.id && (filters.admits lower row.1 row.2).toOption == some true

/-- The filters can be evaluated on all open vulnerabilities. -/
def FiltersWork (filters : VulnFilters) : Prop :=
  ∀ row ∈ openVulnRows db, ∃ b, filters.admits lower row.1 row.2 = .ok b

/-- The pages from the first to the last list the matching vulnerabilities, each once. -/
def ListsOnce (query : ActiveQuery)
    (orders : ℕ → TieOrder (applyVulnOrdering query.sort query.order)) : Prop :=
  ∃ responses : ℕ → PageResponse VulnerabilityResponse,
    (∀ k, activeVulnerabilities db lower (query.at k) (orders k) = .ok (responses k)) ∧
      ((List.range (responses 0).totalPages).flatMap fun k =>
        (responses k).items.map (·.id)).Perm ((matching db lower query.filters).map (·.id))

variable {db lower} {filters : VulnFilters}

theorem nodup_matching : ((matching db lower filters).map (·.id)).Nodup :=
  List.pairwise_map.2 ((db.vulnerabilities.unique.filter _).imp fun hn hid => hn (.inl hid))

/-- The query of the list returns the matching vulnerabilities. -/
theorem selectVulnerabilities_eq (h : FiltersWork db lower filters) :
    selectVulnerabilities db lower filters = .ok (matching db lower filters) := by
  have hrows : selectWhere (fun row => filters.admits lower row.1 row.2) (openVulnRows db) =
      .ok ((openVulnRows db).filter fun row =>
        (filters.admits lower row.1 row.2).toOption == some true) := by
    refine selectWhere_eq_filter fun row hrow => ?_
    obtain ⟨b, hb⟩ := h row hrow
    rw [hb]
    cases b <;> rfl
  refine bind_eq_ok.2 ⟨_, bind_eq_ok.2 ⟨_, hrows, rfl⟩, congrArg Except.ok ?_⟩
  refine List.filter_congr fun v _ => Bool.eq_iff_iff.2 ?_
  simp only [decide_eq_true_eq, List.mem_dedup, List.mem_map, List.mem_filter, List.any_eq_true,
    Bool.and_eq_true, beq_iff_eq]
  constructor
  · rintro ⟨row, ⟨hrow, hadmits⟩, hid⟩
    exact ⟨row, hrow, hid, hadmits⟩
  · rintro ⟨row, hrow, hid, hadmits⟩
    exact ⟨row, ⟨hrow, hadmits⟩, hid⟩

/-- A filter that fails on some row makes the query fail. -/
theorem filtersWork_of_isOk {rows : List Vulnerability}
    (h : selectVulnerabilities db lower filters = .ok rows) : FiltersWork db lower filters := by
  obtain ⟨ids, hids, -⟩ := bind_eq_ok.1 h
  obtain ⟨kept, hkept, -⟩ := bind_eq_ok.1 hids
  exact selectWhere_isOk.1 ⟨kept, hkept⟩

/-- A page of the list. -/
theorem activeVulnerabilities_at (h : FiltersWork db lower filters) {query : ActiveQuery}
    (hquery : query.filters = filters)
    (tie : TieOrder (applyVulnOrdering query.sort query.order)) (k : ℕ) :
    ∃ response, activeVulnerabilities db lower (query.at k) tie = .ok response ∧
      response.items.map (·.id) =
        (pageAt query.perPage k (tie.order (matching db lower filters))).map (·.id) ∧
      response.totalPages = totalPagesOf (matching db lower filters).length query.perPage := by
  subst hquery
  refine ⟨_, bind_eq_ok.2 ⟨_, selectVulnerabilities_eq h, rfl⟩, ?_, rfl⟩
  exact List.map_map.trans (congrArg (List.map fun v => v.id)
    (paginate_items (matching db lower query.filters) tie (k + 1) query.perPage))

/-- Rows that are told apart by their identifiers are the same as others with the same
identifiers. -/
theorem perm_of_ids {rows listed : List Vulnerability} (hrows : (rows.map (·.id)).Nodup)
    (hsub : ∀ v ∈ listed, v ∈ rows) (h : (listed.map (·.id)).Perm (rows.map (·.id))) :
    listed.Perm rows := by
  have hinj := List.inj_on_of_nodup_map hrows
  refine (List.perm_ext_iff_of_nodup (h.nodup_iff.2 hrows).of_map hrows.of_map).2 fun v =>
    ⟨hsub v, fun hv => ?_⟩
  obtain ⟨v', hv', hid⟩ := List.mem_map.1 (h.mem_iff.2 (List.mem_map.2 ⟨v, hv, rfl⟩))
  exact hinj (hsub v' hv') hv hid ▸ hv'

/-- The pages list what the ordered query has on them. -/
theorem listsOnce_iff (h : FiltersWork db lower filters) {query : ActiveQuery}
    (hquery : query.filters = filters)
    (orders : ℕ → TieOrder (applyVulnOrdering query.sort query.order)) :
    ListsOnce db lower query orders ↔
      (listedPages query.perPage
        (totalPagesOf (matching db lower filters).length query.perPage) orders
        (matching db lower filters)).Perm (matching db lower filters) := by
  have hpage := fun k => activeVulnerabilities_at h hquery (orders k) k
  have hsub : ∀ pages, ∀ v ∈ listedPages query.perPage pages orders (matching db lower filters),
      v ∈ matching db lower filters := by
    intro pages v hv
    obtain ⟨k, -, hv⟩ := List.mem_flatMap.1 hv
    exact ((orders k).perm _).mem_iff.1 (List.mem_of_mem_drop (List.mem_of_mem_take hv))
  -- the identifiers on the pages of any answers to the requests
  have hids : ∀ responses : ℕ → PageResponse VulnerabilityResponse,
      (∀ k, activeVulnerabilities db lower (query.at k) (orders k) = .ok (responses k)) →
      ((List.range (responses 0).totalPages).flatMap fun k =>
        (responses k).items.map (·.id)) =
      (listedPages query.perPage (totalPagesOf (matching db lower filters).length query.perPage)
        orders (matching db lower filters)).map (·.id) := by
    intro responses hok
    obtain ⟨response, hresponse, -, htotal⟩ := hpage 0
    rw [Except.ok.inj ((hok 0).symm.trans hresponse), htotal, listedPages, List.map_flatMap]
    refine List.flatMap_congr fun k _ => ?_
    obtain ⟨response, hresponse, hitems, -⟩ := hpage k
    rw [Except.ok.inj ((hok k).symm.trans hresponse), hitems]
  constructor
  · rintro ⟨responses, hok, hperm⟩
    rw [hids responses hok, hquery] at hperm
    exact perm_of_ids nodup_matching (hsub _) hperm
  · intro hperm
    choose responses hok _ using hpage
    refine ⟨responses, hok, ?_⟩
    rw [hids responses hok, hquery]
    exact hperm.map _

/-- A vulnerability that is listed twice. -/
theorem not_listsOnce_of_repeat (h : FiltersWork db lower filters) {query : ActiveQuery}
    (hquery : query.filters = filters)
    {orders : ℕ → TieOrder (applyVulnOrdering query.sort query.order)}
    (hrepeat : ¬ ((listedPages query.perPage
      (totalPagesOf (matching db lower filters).length query.perPage) orders
      (matching db lower filters)).map (·.id)).Nodup) :
    ¬ ListsOnce db lower query orders := fun hlists =>
  hrepeat ((((listsOnce_iff h hquery orders).1 hlists).map (·.id)).nodup_iff.2 nodup_matching)

/-- **Complete paging.**  All pages together list every matching vulnerability exactly once,
whatever order the database chooses for the ties in each of the queries, exactly when
vulnerabilities with the same sort values lie on the same page and no filter makes the query
fail. -/
theorem paging_complete_iff (db : Database) (lower : String → String) (query : ActiveQuery) :
    (∀ orders, ListsOnce db lower query orders) ↔
      FiltersWork db lower query.filters ∧
        TiesWithinPages (applyVulnOrdering query.sort query.order) query.perPage
          (matching db lower query.filters) := by
  let key := applyVulnOrdering query.sort query.order
  let rows := matching db lower query.filters
  have hpages : (∀ orders : ℕ → TieOrder key, (listedPages query.perPage
      (totalPagesOf rows.length query.perPage) orders rows).Perm rows) ↔
      TiesWithinPages key query.perPage rows :=
    pages_perm_iff query.onePerPage nodup_matching.of_map
      (le_totalPages_mul rows.length query.onePerPage)
  constructor
  · intro hall
    have hwork : FiltersWork db lower query.filters := by
      obtain ⟨responses, hok, -⟩ := hall fun _ => .ofArrangement _ (storedOrder _)
      obtain ⟨rows, hrows, -⟩ := bind_eq_ok.1 (hok 0)
      exact filtersWork_of_isOk hrows
    exact ⟨hwork, hpages.1 fun orders => (listsOnce_iff hwork rfl orders).1 (hall orders)⟩
  · rintro ⟨hwork, hties⟩ orders
    exact (listsOnce_iff hwork rfl orders).2 (hpages.2 hties orders)

/-! ### An example -/

/-- A release with two findings, about which grype says nothing but their names. -/
def demoTied : World :=
  demo [demoProject, demoUpload 1 10 100, demoScan 10 [1, 1, 2, 2] 110] (by decide +kernel)

/-- The list with one vulnerability on a page. -/
def demoPages : ActiveQuery :=
  ⟨1, 1, noFilters, "cvss_score", "desc", firstPage, firstPage, by decide⟩

/-- The database puts the two findings in one order for the first page, in the other for the
second. -/
def demoOrders (k : ℕ) : TieOrder (applyVulnOrdering "cvss_score" "desc") :=
  .thenBy _ fun v => if k = 0 then v.id else 2 - v.id

/-- The first finding is on both pages, the second on none. -/
theorem paging_repeats :
    (system demoEnv).Reachable demoTied ∧
      ¬ ListsOnce demoTied.db PyStr.lower demoPages demoOrders :=
  ⟨demo_reachable, not_listsOnce_of_repeat (fun _ _ => ⟨true, rfl⟩) rfl (by decide +kernel)⟩

end ArgusSbomGuard
