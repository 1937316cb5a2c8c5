import ArgusSbomGuard.Listing.Totals

/-!
# Windows of a query

Every list asks the database for the rows from an `OFFSET` on, up to a `LIMIT`, which are numbers of
64 bits.  The lists of the REST routes and of the pages go through `paginate`, which does not skip
more rows than there are; the tools send the offset of the request after `_validate_page`.  So a
window is in range unless it is that of a tool with an offset that is too great
(`window_in_range_iff`).

## Main definitions

* `Window`, `Window.query` : what is sent to the database, and its answer.
* `WindowRequest`, `WindowRequest.window` : a request for rows, and the window that it leads to.
* `WindowRequest.Bounded` : the condition.
-/

namespace ArgusSbomGuard

/-- What `count(*)` returns. -/
structure Count where
  n : ℕ
  bigint : n < 2 ^ 63

/-- `OFFSET` and `LIMIT`. -/
structure Window where
  offset : ℤ
  limit : ℤ

/-- A number that `OFFSET` and `LIMIT` can have. -/
def IsBound (n : ℤ) : Prop := 0 ≤ n ∧ n < 2 ^ 63

instance (n : ℤ) : Decidable (IsBound n) := inferInstanceAs (Decidable (_ ∧ _))

structure Window.InRange (w : Window) : Prop where
  offset : IsBound w.offset
  limit : IsBound w.limit

instance (w : Window) : Decidable w.InRange :=
  decidable_of_iff (IsBound w.offset ∧ IsBound w.limit)
    ⟨fun h => ⟨h.1, h.2⟩, fun h => ⟨h.offset, h.limit⟩⟩

/-- The rows of a window; the database takes no other numbers. -/
def Window.query {α : Type} (w : Window) (rows : List α) : Except PyError (List α) :=
  if w.InRange then .ok ((rows.drop w.offset.toNat).take w.limit.toNat) else .error .dataError

/-! ### Requests -/

/-- The parameters of a request for rows, before they are validated. -/
inductive WindowRequest
  /-- A list of the REST API or of the pages. -/
  | list (page perPage : ℤ)
  /-- `project_sboms_page`. -/
  | history (page perPage : ℤ) (offset : Option ℤ)
  /-- A tool with pages. -/
  | tool (offset limit : ℤ)

/-- The answer to a request that is not admitted. -/
inductive WindowError
  | validation (parameter : String)
  | tool (e : McpError)

/-- `Query(ge=lowest, le=highest)`. -/
def queryParam (parameter : String) (lowest : ℤ) (highest : Option ℤ) (value : ℤ) :
    Except WindowError ℤ :=
  if value < lowest ∨ ∃ h ∈ highest, h < value then .error (.validation parameter) else .ok value

/-- The window of `paginate`. -/
def paginateWindow (page perPage : ℤ) (offset : Option ℤ) (total : Count) : Window :=
  ⟨min (offset.getD (max 0 ((page - 1) * perPage))) total.n, perPage + 1⟩

/-- The window of an admitted request. -/
def WindowRequest.window (total : Count) : WindowRequest → Except WindowError Window
  | .list page perPage => do
    let page ← queryParam "page" 1 none page
    let perPage ← queryParam "per_page" 1 (some 200) perPage
    return paginateWindow page perPage none total
  | .history page perPage offset => do
    let page ← queryParam "page" 1 none page
    let perPage ← queryParam "per_page" 1 (some 200) perPage
    let offset ← offset.mapM (queryParam "offset" 0 none)
    return paginateWindow page perPage offset total
  | .tool offset limit => do
    (validatePage offset limit).mapError .tool
    return ⟨offset, limit + 1⟩

/-- A tool is not asked for rows beyond the 64 bits, or the request is rejected for its limit. -/
def WindowRequest.Bounded : WindowRequest → Prop
  | .tool offset limit => offset < 2 ^ 63 ∨ limit < 1 ∨ 500 < limit
  | _ => True

variable {total : Count} {page perPage offset limit : ℤ} {w : Window} {r : WindowRequest}

theorem queryParam_eq_ok {parameter : String} {lowest value n : ℤ} {highest : Option ℤ} :
    queryParam parameter lowest highest value = .ok n ↔
      value = n ∧ lowest ≤ value ∧ ∀ h ∈ highest, value ≤ h := by
  unfold queryParam
  split_ifs with hout
  · refine iff_of_false nofun ?_
    rintro ⟨-, hlow, hhigh⟩
    rcases hout with h | ⟨h, hmem, hlt⟩
    · omega
    · have := hhigh h hmem
      omega
  · simp only [not_or, not_exists, not_and, not_lt] at hout
    exact ⟨fun h => ⟨Except.ok.inj h, hout⟩, fun h => congrArg Except.ok h.1⟩

theorem validatePage_eq_ok : validatePage offset limit = .ok () ↔
    0 ≤ offset ∧ 1 ≤ limit ∧ limit ≤ 500 := by
  unfold validatePage
  split_ifs with hoffset hlimit
  · exact iff_of_false nofun fun h => by omega
  · exact iff_of_false nofun fun h => by omega
  · exact iff_of_true rfl (by omega)

/-- What `paginate` sends is in range. -/
theorem paginateWindow_inRange {offset : Option ℤ} (hper : 1 ≤ perPage) (hmax : perPage ≤ 200)
    (hoffset : ∀ n ∈ offset, 0 ≤ n) : (paginateWindow page perPage offset total).InRange := by
  have hlow : 0 ≤ offset.getD (max 0 ((page - 1) * perPage)) := by
    cases offset with
    | none => exact le_max_left _ _
    | some n => exact hoffset n rfl
  have htotal : (total.n : ℤ) < 2 ^ 63 := by exact_mod_cast total.bigint
  refine ⟨⟨?_, ?_⟩, ?_, ?_⟩
  · exact le_min hlow (Int.natCast_nonneg _)
  · exact (min_le_right _ _).trans_lt htotal
  · change 0 ≤ perPage + 1
    omega
  · change perPage + 1 < 2 ^ 63
    omega

/-- What a request that is not one of a tool leads to is in range. -/
theorem window_inRange (hr : ∀ offset limit, r ≠ .tool offset limit)
    (h : r.window total = .ok w) : w.InRange := by
  cases r with
  | list page perPage =>
    simp only [WindowRequest.window, bind_eq_ok, queryParam_eq_ok] at h
    obtain ⟨page, ⟨rfl, -, -⟩, perPage, ⟨rfl, hper, hmax⟩, hok⟩ := h
    obtain rfl := Except.ok.inj hok
    exact paginateWindow_inRange hper (hmax 200 rfl) nofun
  | history page perPage offset =>
    simp only [WindowRequest.window, bind_eq_ok, queryParam_eq_ok] at h
    obtain ⟨page, ⟨rfl, -, -⟩, perPage, ⟨rfl, hper, hmax⟩, start, hstart, hok⟩ := h
    obtain rfl := Except.ok.inj hok
    refine paginateWindow_inRange hper (hmax 200 rfl) ?_
    cases offset with
    | none =>
      cases hstart
      exact nofun
    | some n =>
      obtain ⟨m, hm, hsome⟩ := bind_eq_ok.1 hstart
      obtain ⟨rfl, hlow, -⟩ := queryParam_eq_ok.1 hm
      cases hsome
      rintro _ ⟨⟩
      exact hlow
  | tool offset limit => exact absurd rfl (hr offset limit)

theorem toolWindow_eq_ok : (WindowRequest.tool offset limit).window total = .ok w ↔
    (0 ≤ offset ∧ 1 ≤ limit ∧ limit ≤ 500) ∧ w = ⟨offset, limit + 1⟩ := by
  rw [← validatePage_eq_ok]
  simp only [WindowRequest.window, bind_eq_ok]
  constructor
  · rintro ⟨_, hvalid, hok⟩
    exact ⟨mapError_eq_ok hvalid, (Except.ok.inj hok).symm⟩
  · rintro ⟨hvalid, rfl⟩
    exact ⟨(), by rw [hvalid]; rfl, rfl⟩

theorem query_isOk : (∀ (α : Type) (rows : List α), ∃ answer, w.query rows = .ok answer) ↔
    w.InRange := by
  unfold Window.query
  constructor
  · intro h
    obtain ⟨answer, hok⟩ := h ℕ []
    by_contra hout
    rw [if_neg hout] at hok
    cases hok
  · intro h α rows
    exact ⟨_, if_pos h⟩

/-- **Windows in range.**  The window of an admitted request is one that the database takes, so that
it answers with rows, exactly when the request is not one of a tool for rows beyond the 64 bits. -/
theorem window_in_range_iff (r : WindowRequest) (total : Count) :
    (∀ w, r.window total = .ok w → w.InRange ∧ ∀ (α : Type) (rows : List α),
      ∃ answer, w.query rows = .ok answer) ↔ r.Bounded := by
  simp only [query_isOk, and_self]
  by_cases htool : ∃ offset limit, r = .tool offset limit
  · obtain ⟨offset, limit, rfl⟩ := htool
    simp only [toolWindow_eq_ok, WindowRequest.Bounded]
    constructor
    · intro h
      by_contra hnot
      simp only [not_or, not_lt] at hnot
      have hrange := h ⟨offset, limit + 1⟩ ⟨⟨by omega, by omega, by omega⟩, rfl⟩
      exact absurd hrange.offset.2 (not_lt.2 hnot.1)
    · rintro h w ⟨⟨hlow, hone, hmax⟩, rfl⟩
      refine ⟨⟨hlow, ?_⟩, ?_, ?_⟩
      · change offset < 2 ^ 63
        omega
      · change 0 ≤ limit + 1
        omega
      · change limit + 1 < 2 ^ 63
        omega
  · have hr : ∀ offset limit, r ≠ .tool offset limit := fun offset limit heq =>
      htool ⟨offset, limit, heq⟩
    refine iff_of_true (fun w h => window_inRange hr h) ?_
    cases r with
    | tool offset limit => exact absurd rfl (hr offset limit)
    | _ => trivial

/-! ### The lists -/

/-- `paginate` shows the rows of its window without the last one, which it only looks for. -/
theorem paginate_window {α κ : Type} [LinearOrder κ] {key : α → κ} (rows : List α)
    (tie : TieOrder key) {page perPage : ℕ} (offset : Option ℕ) (htotal : total.n = rows.length)
    (hpage : 1 ≤ page) (hper : 1 ≤ perPage) (hmax : perPage ≤ 200) :
    ∃ answer, (paginateWindow page perPage (offset.map (↑)) total).query (tie.order rows) =
        .ok answer ∧ (paginate rows tie page perPage offset).items = answer.take perPage := by
  have hrange : (paginateWindow page perPage (offset.map (↑)) total).InRange := by
    refine paginateWindow_inRange (by omega) (by omega) fun n hn => ?_
    obtain ⟨m, -, rfl⟩ := Option.mem_map.1 hn
    exact Int.natCast_nonneg m
  have hoffset : (paginateWindow page perPage (offset.map (↑)) total).offset.toNat =
      min (offset.getD ((page - 1) * perPage)) rows.length := by
    have hstart : (offset.map Nat.cast).getD (max 0 (((page : ℤ) - 1) * perPage)) =
        ((offset.getD ((page - 1) * perPage) : ℕ) : ℤ) := by
      cases offset with
      | some n => rfl
      | none =>
        have hprod : ((page : ℤ) - 1) * perPage = (((page - 1) * perPage : ℕ) : ℤ) := by
          rw [Nat.cast_mul, Nat.cast_sub hpage, Nat.cast_one]
        rw [Option.map_none, Option.getD_none, Option.getD_none, hprod]
        exact max_eq_right (Int.natCast_nonneg _)
    change (min ((offset.map Nat.cast).getD _) (total.n : ℤ)).toNat = _
    rw [hstart, htotal]
    omega
  refine ⟨_, if_pos hrange, ?_⟩
  rw [hoffset]
  rfl

/-- A tool that is asked for rows beyond the 64 bits ends in an error of the database. -/
theorem listVulnerabilities_unbounded {db : Database} {lower : String → String} {env : Env}
    {offset limit : ℤ} (hoffset : 2 ^ 63 ≤ offset) (hone : 1 ≤ limit) (hmax : limit ≤ 500) :
    listVulnerabilities db lower env (.window offset limit) = .error (.unhandled .dataError) := by
  have hvalid : validatePage offset limit = .ok () :=
    validatePage_eq_ok.2 ⟨by omega, hone, hmax⟩
  have hparam : offsetParam offset = .error .dataError := if_neg (not_lt.2 hoffset)
  obtain ⟨rows, hrows, -⟩ : ∃ rows, selectVulnerabilities db lower ⟨none, none, none, none⟩ =
    .ok rows ∧ rows.length = (posture db).openTotal := selectVulnerabilities_noFilters
  simp only [listVulnerabilities, ListArguments.window, hvalid, Option.mapM_none, pure_bind, hrows,
    hparam]
  rfl

/-- A tool that is asked for the rows from `2 ^ 63` on. -/
theorem tool_out_of_range : ∃ w, (WindowRequest.tool (2 ^ 63) 50).window ⟨0, by decide⟩ = .ok w ∧
    ¬ w.InRange ∧
    listVulnerabilities Database.empty PyStr.lower demoEnv (.window (2 ^ 63) 50) =
      .error (.unhandled .dataError) :=
  ⟨⟨2 ^ 63, 51⟩, rfl, by decide, listVulnerabilities_unbounded le_rfl (by decide) (by decide)⟩

end ArgusSbomGuard
