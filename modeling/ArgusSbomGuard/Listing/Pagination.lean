import ArgusSbomGuard.Relational.Paging

/-!
# Pagination

`services/pagination.py`: the count of the rows and one page of them, which is asked for with one
row more than it has so that the answer tells whether there are further rows.
-/

namespace ArgusSbomGuard

/-- `Page`. -/
structure Page (α : Type) where
  items : List α
  total : ℕ
  page : ℕ
  perPage : ℕ
  totalPages : ℕ
  hasMore : Bool
  offset : Option ℕ

/-- `max(1, (total + per_page - 1) // per_page)`. -/
def totalPagesOf (total perPage : ℕ) : ℕ := max 1 ((total + perPage - 1) / perPage)

variable {α κ : Type} [LinearOrder κ] {key : α → κ}

/-- `paginate`, for the rows that the query returns without its `ORDER BY`. -/
def paginate (rows : List α) (tie : TieOrder key) (page perPage : ℕ) (offset : Option ℕ) :
    Page α :=
  let total := rows.length
  -- an offset that is given takes precedence over the page, and neither exceeds the row count
  let effectiveOffset := min (offset.getD ((page - 1) * perPage)) total
  let allItems := ((tie.order rows).drop effectiveOffset).take (perPage + 1)
  { items := allItems.take perPage
    total
    page
    perPage
    totalPages := totalPagesOf total perPage
    hasMore := perPage < allItems.length
    offset }

theorem paginate_items (rows : List α) (tie : TieOrder key) (page perPage : ℕ) :
    (paginate rows tie page perPage none).items =
      pageAt perPage (page - 1) (tie.order rows) := by
  simp only [paginate, pageAt, List.take_take, Option.getD_none, Nat.min_eq_left (Nat.le_succ _)]
  rcases Nat.le_total ((page - 1) * perPage) rows.length with h | h
  · rw [Nat.min_eq_left h]
  -- past the last row both are empty
  · have hlen := (tie.perm rows).length_eq
    rw [Nat.min_eq_right h, List.drop_eq_nil_of_le (by omega), List.drop_eq_nil_of_le (by omega)]

/-- The pages have room for all rows. -/
theorem le_totalPages_mul (total : ℕ) {perPage : ℕ} (h : 0 < perPage) :
    total ≤ totalPagesOf total perPage * perPage := by
  have hdiv := Nat.div_add_mod' (total + perPage - 1) perPage
  have hmod := Nat.mod_lt (total + perPage - 1) h
  calc total ≤ (total + perPage - 1) / perPage * perPage := by omega
    _ ≤ totalPagesOf total perPage * perPage := Nat.mul_le_mul_right _ (Nat.le_max_right _ _)

end ArgusSbomGuard
