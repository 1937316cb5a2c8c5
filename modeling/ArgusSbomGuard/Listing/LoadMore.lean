import ArgusSbomGuard.Listing.Pagination

/-!
# Loading more rows

A list is shown page by page: `partials/load_more.html` links each page to the next one, by the
number of the page or, for a list that began with a preview, by an offset.  While the query returns
its rows in one order, the pages tile the result however they are addressed (`pages_tile`).

The lists of a project page begin on the page itself, the history of SBOMs with a preview and the
vulnerabilities with a first page, and go on with the answers of `project_sboms_page` and
`project_vulns_page`.

## Main definitions

* `PageRequest`, `loadMoreLink` : a page that is asked for, and the link to the next one.
* `followLinks` : the rows of a page and of all that its link leads to.
* `projectVulnsPage`, `sbomHistory`, `vulnHistory` : the lists of a project page.
-/

namespace ArgusSbomGuard

/-- The page that a request asks for; an offset takes precedence over the number. -/
structure PageRequest where
  page : ℕ
  offset : Option ℕ
  onePage : 1 ≤ page

/-- The number of rows before the page. -/
def PageRequest.start (r : PageRequest) (perPage : ℕ) : ℕ :=
  r.offset.getD ((r.page - 1) * perPage)

/-- The request for a page without an offset. -/
def PageRequest.number (k : ℕ) : PageRequest := ⟨k + 1, none, Nat.succ_pos k⟩

/-- The request for the rows from an offset on; the page number is not sent. -/
def PageRequest.from (offset : ℕ) : PageRequest := ⟨1, some offset, le_rfl⟩

/-- The link of `load_more.html` under a page. -/
def loadMoreLink {α : Type} (pg : Page α) : Option PageRequest :=
  if !pg.items.isEmpty && pg.hasMore then
    some (match pg.offset with
      | some offset => .from (offset + pg.perPage)
      | none => .number pg.page)
  else none

variable {α κ : Type} [LinearOrder κ] {key : α → κ}

/-- The page that answers a request. -/
def PageRequest.ask (r : PageRequest) (rows : List α) (tie : TieOrder key) (perPage : ℕ) : Page α :=
  paginate rows tie r.page perPage r.offset

variable {rows xs : List α} {tie : TieOrder key} {perPage : ℕ} {r r' : PageRequest}

/-! ### One page -/

theorem hasMore_ask : (r.ask rows tie perPage).hasMore = true ↔
    r.start perPage + perPage < rows.length := by
  have hlen := (tie.perm rows).length_eq
  simp only [PageRequest.ask, PageRequest.start, paginate, List.length_take, List.length_drop,
    decide_eq_true_eq, hlen]
  omega

/-- The rows of a page, when the query returns `xs`. -/
theorem items_ask (hxs : tie.order rows = xs) :
    (r.ask rows tie perPage).items = (xs.drop (r.start perPage)).take perPage := by
  have hlen : xs.length = rows.length := TieOrder.length_eq hxs
  simp only [PageRequest.ask, PageRequest.start, paginate, hxs, List.take_take,
    Nat.min_eq_left (Nat.le_succ perPage)]
  rcases Nat.le_total (r.offset.getD ((r.page - 1) * perPage)) rows.length with h | h
  · rw [Nat.min_eq_left h]
  -- past the last row both are empty
  · rw [Nat.min_eq_right h, List.drop_eq_nil_of_le hlen.le,
      List.drop_eq_nil_of_le (hlen.le.trans h)]

/-- A page has a link when there are rows after it, and the link leads to these. -/
theorem loadMoreLink_eq_some (h : loadMoreLink (r.ask rows tie perPage) = some r') :
    r.start perPage + perPage < rows.length ∧ r'.start perPage = r.start perPage + perPage := by
  unfold loadMoreLink at h
  split_ifs at h with hmore
  obtain rfl := Option.some.inj h
  refine ⟨hasMore_ask.1 (Bool.and_eq_true_iff.1 hmore).2, ?_⟩
  obtain ⟨page, offset, hpage⟩ := r
  cases offset with
  | some offset => rfl
  | none =>
    change page * perPage = (page - 1) * perPage + perPage
    rw [← Nat.succ_mul, Nat.succ_eq_add_one, Nat.sub_add_cancel hpage]

/-- A page without a link is the last one. -/
theorem loadMoreLink_eq_none (hper : 0 < perPage)
    (h : loadMoreLink (r.ask rows tie perPage) = none) :
    rows.length ≤ r.start perPage + perPage := by
  by_contra hlt
  have hmore : (r.ask rows tie perPage).hasMore = true := hasMore_ask.2 (not_le.1 hlt)
  have hitems : (r.ask rows tie perPage).items.isEmpty = false := by
    have hlen := (tie.perm rows).length_eq
    rw [items_ask rfl, List.isEmpty_eq_false_iff, ← List.length_pos_iff, List.length_take,
      List.length_drop]
    omega
  simp only [loadMoreLink, hitems, hmore] at h
  cases h

/-! ### Following the links -/

/-- The rows that are shown after following the links from a request to the last page; each page is
a query of its own. -/
def followLinks (rows : List α) (orders : PageRequest → TieOrder key) (perPage : ℕ)
    (hper : 0 < perPage) (r : PageRequest) : List α :=
  match _ : loadMoreLink (r.ask rows (orders r) perPage) with
  | some next => (r.ask rows (orders r) perPage).items ++ followLinks rows orders perPage hper next
  | none => (r.ask rows (orders r) perPage).items
termination_by rows.length - r.start perPage
decreasing_by
  obtain ⟨hmore, hstart⟩ := loadMoreLink_eq_some ‹_›
  omega

/-- The links lead to all rows from the first page on. -/
theorem followLinks_eq {orders : PageRequest → TieOrder key} (hper : 0 < perPage)
    (hxs : ∀ r, (orders r).order rows = xs) (r : PageRequest) :
    followLinks rows orders perPage hper r = xs.drop (r.start perPage) := by
  have hlen : xs.length = rows.length := TieOrder.length_eq (hxs r)
  induction hn : rows.length - r.start perPage using Nat.strong_induction_on generalizing r with
  | _ n ih =>
    rw [followLinks]
    split
    · rename_i next hlink
      obtain ⟨hmore, hstart⟩ := loadMoreLink_eq_some hlink
      rw [ih _ (by omega) next rfl, items_ask (hxs r), hstart, ← List.drop_drop,
        List.take_append_drop]
    · rename_i hlink
      have hlast := loadMoreLink_eq_none hper hlink
      rw [items_ask (hxs r), List.take_of_length_le]
      rw [List.length_drop]
      omega

/-! ### All pages -/

theorem lt_totalPagesOf_iff (hper : 0 < perPage) {total k : ℕ} (hk : 0 < k) :
    k < totalPagesOf total perPage ↔ k * perPage < total := by
  rw [totalPagesOf, lt_max_iff, Nat.lt_div_iff_mul_lt hper]
  constructor
  · rintro (hone | hlt)
    · omega
    · omega
  · intro hlt
    exact .inr (by omega)

/-- What it means that the pages of a list tile it: the rows of all pages, and those of a preview
and of the pages that its link leads to, are the rows of the list, and a page says that there are
more rows when there are rows after it. -/
structure Tiles (rows : List α) (orders : PageRequest → TieOrder key) (perPage : ℕ)
    (hper : 0 < perPage) (xs : List α) : Prop where
  pages : ((List.range (totalPagesOf rows.length perPage)).flatMap fun k =>
    ((PageRequest.number k).ask rows (orders (.number k)) perPage).items) = xs
  links : ∀ preview, xs.take preview ++ followLinks rows orders perPage hper (.from preview) = xs
  hasMore : ∀ r : PageRequest, (r.ask rows (orders r) perPage).hasMore = true ↔
    xs.drop (r.start perPage + perPage) ≠ []
  lastPage : ∀ r : PageRequest, r.offset = none →
    ((r.ask rows (orders r) perPage).hasMore = true ↔
      r.page < (r.ask rows (orders r) perPage).totalPages)

/-- **The pages tile the result.**  When the query returns its rows in one order, its pages put
together are the rows in this order, without a gap and without an overlap, whether they are asked
for by number or by the offsets after a preview, and each page knows whether it is the last. -/
theorem pages_tile (rows xs : List α) (orders : PageRequest → TieOrder key)
    (hxs : ∀ r, (orders r).order rows = xs) (perPage : ℕ) (hper : 0 < perPage) :
    Tiles rows orders perPage hper xs := by
  have hlen : xs.length = rows.length := TieOrder.length_eq (hxs (.number 0))
  refine ⟨?_, fun preview => ?_, fun r => ?_, ?_⟩
  · have hpage : ∀ k, ((PageRequest.number k).ask rows (orders (.number k)) perPage).items =
        pageAt perPage k xs := fun k => items_ask (hxs _)
    simp only [hpage, flatMap_pageAt]
    exact List.take_of_length_le (hlen.le.trans (le_totalPages_mul rows.length hper))
  · rw [followLinks_eq hper hxs]
    exact List.take_append_drop preview xs
  · rw [hasMore_ask, ne_eq, List.drop_eq_nil_iff, hlen, not_le]
  · rintro ⟨page, offset, hpage⟩ (rfl : offset = none)
    refine hasMore_ask.trans ?_
    change (page - 1) * perPage + perPage < rows.length ↔ page < totalPagesOf rows.length perPage
    rw [lt_totalPagesOf_iff hper hpage, ← Nat.succ_mul, Nat.succ_eq_add_one,
      Nat.sub_add_cancel hpage]

/-- Three rows in pages of two. -/
theorem pages_tile_demo : ∃ hper, Tiles [3, 1, 2]
    (fun _ => TieOrder.ofArrangement (id : ℕ → ℕ) (storedOrder ℕ)) 2 hper [1, 2, 3] :=
  ⟨by decide, pages_tile [3, 1, 2] [1, 2, 3] _ (fun _ => by decide) 2 (by decide)⟩

/-! ### The lists of a project page -/

/-- `PROJECT_SBOM_HISTORY_PREVIEW`. -/
def projectSbomHistoryPreview : ℕ := 3

/-- `PROJECT_SBOM_HISTORY_PER_PAGE` and `PROJECT_VULN_PER_PAGE`. -/
def projectPerPage : ℕ := 25

/-- `sbom_history_pages`. -/
def sbomHistoryPages (total : ℕ) : ℕ :=
  if projectSbomHistoryPreview < total then
    max 1 ((total + projectSbomHistoryPreview - 1) / projectSbomHistoryPreview)
  else 1

theorem projectPerPage_pos : 0 < projectPerPage := by decide

/-- The history of SBOMs on a project page: the preview, and what its button leads to if there is
one. -/
def sbomHistory (rows : List α) (orders : PageRequest → TieOrder key) (tie : TieOrder key) :
    List α :=
  (tie.order rows).take projectSbomHistoryPreview ++
    if 1 < sbomHistoryPages rows.length then
      followLinks rows orders projectPerPage projectPerPage_pos (.from projectSbomHistoryPreview)
    else []

/-- The items of `project_vulns_page`, and `has_more`. -/
def projectVulnsPage (allVulns : List α) (page perPage : ℕ) : List α × Bool :=
  let offset := (page - 1) * perPage
  ((allVulns.drop offset).take perPage, decide (offset + perPage < allVulns.length))

/-- The vulnerabilities on a project page, and `project_vuln_has_more`. -/
def projectVulns (allVulns : List α) : List α × Bool :=
  (allVulns.take projectPerPage, decide (projectPerPage < allVulns.length))

theorem one_lt_sbomHistoryPages {total : ℕ} :
    1 < sbomHistoryPages total ↔ projectSbomHistoryPreview < total := by
  unfold sbomHistoryPages projectSbomHistoryPreview
  split_ifs with h
  · refine iff_of_true ?_ h
    rw [lt_max_iff, Nat.lt_div_iff_mul_lt (by decide)]
    exact .inr (by omega)
  · exact iff_of_false (by decide) h

/-- **The history of a project is complete.** -/
theorem sbomHistory_eq {orders : PageRequest → TieOrder key} (hxs : ∀ r, (orders r).order rows = xs)
    (htie : tie.order rows = xs) : sbomHistory rows orders tie = xs := by
  have hlen : xs.length = rows.length := TieOrder.length_eq htie
  rw [sbomHistory, htie]
  split_ifs with hmore
  · rw [followLinks_eq projectPerPage_pos hxs]
    exact List.take_append_drop _ xs
  · rw [one_lt_sbomHistoryPages, not_lt] at hmore
    rw [List.append_nil, List.take_of_length_le (hlen.le.trans hmore)]

/-- The first page of the vulnerabilities is the one that the project page begins with. -/
theorem projectVulnsPage_one (allVulns : List α) :
    projectVulnsPage allVulns 1 projectPerPage = projectVulns allVulns := by
  simp only [projectVulnsPage, projectVulns, Nat.sub_self, Nat.zero_mul, List.drop_zero,
    Nat.zero_add]

/-- **The pages of the vulnerabilities of a project tile them.** -/
theorem projectVulnsPage_tile (allVulns : List α) (hper : 0 < perPage) :
    ((List.range (totalPagesOf allVulns.length perPage)).flatMap fun k =>
      (projectVulnsPage allVulns (k + 1) perPage).1) = allVulns ∧
    ∀ page, 1 ≤ page → ((projectVulnsPage allVulns page perPage).2 = true ↔
      page < totalPagesOf allVulns.length perPage) := by
  constructor
  · have hpage : ∀ k, (projectVulnsPage allVulns (k + 1) perPage).1 = pageAt perPage k allVulns :=
      fun _ => rfl
    simp only [hpage, flatMap_pageAt]
    exact List.take_of_length_le (le_totalPages_mul allVulns.length hper)
  · intro page hpage
    rw [projectVulnsPage, decide_eq_true_eq, lt_totalPagesOf_iff hper hpage, ← Nat.succ_mul,
      Nat.succ_eq_add_one, Nat.sub_add_cancel hpage]

end ArgusSbomGuard
