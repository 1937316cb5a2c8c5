import ArgusSbomGuard.Relational.Query
import Mathlib.Data.List.Sort
import Mathlib.Data.Prod.Lex
import Mathlib.Order.Nat

/-!
# Pages of an ordered query

A query with `ORDER BY` returns its rows in some order in which the sort keys do not decrease;
rows with the same key come in any order, and in another one the next time.  When every page is a
query of its own, the pages list every row once exactly when no rows with the same key lie on both
sides of a page boundary (`pages_perm_iff`).

## Main definitions

* `TieOrder key` : an order that `ORDER BY key` allows.
* `pageAt n k xs` : the `k`-th page of `n` rows.
* `rank`, `upTo` : the places that `ORDER BY` leaves to a row.
* `TiesWithinPages` : no rows with the same key lie on different pages.
-/

namespace ArgusSbomGuard

/-- An order in which `ORDER BY key` may return rows. -/
structure TieOrder {α κ : Type} [LinearOrder κ] (key : α → κ) extends Arrangement α where
  sorted : ∀ xs, (order xs).Pairwise fun a b => key a ≤ key b

variable {α κ : Type} [LinearOrder κ] {key : α → κ}

/-- The query returns as many rows as there are. -/
theorem TieOrder.length_eq {tie : TieOrder key} {rows xs : List α} (hxs : tie.order rows = xs) :
    xs.length = rows.length :=
  hxs ▸ (tie.perm rows).length_eq

/-- Sort what comes in some order; the sort is stable. -/
def TieOrder.ofArrangement (key : α → κ) (arrangement : Arrangement α) : TieOrder key where
  order xs := (arrangement.order xs).insertionSort fun a b => key a ≤ key b
  perm _ := (List.perm_insertionSort _ _).trans (arrangement.perm _)
  sorted _ :=
    have : Std.Total fun a b : α => key a ≤ key b := ⟨fun a b => le_total (key a) (key b)⟩
    have : IsTrans α fun a b => key a ≤ key b := ⟨fun _ _ _ => le_trans⟩
    List.pairwise_insertionSort _ _

/-- The `k`-th page of `n` rows, from zero. -/
def pageAt (n k : ℕ) (xs : List α) : List α := (xs.drop (k * n)).take n

/-- The pages, one after the other, each in an order of its own. -/
def listedPages (n pages : ℕ) (orders : ℕ → TieOrder key) (rows : List α) : List α :=
  (List.range pages).flatMap fun k => pageAt n k ((orders k).order rows)

/-- The number of rows that come before `a` in every order. -/
def rank (key : α → κ) (rows : List α) (a : α) : ℕ := rows.countP fun b => key b < key a

/-- The number of rows that may come before `a`, and `a` itself. -/
def upTo (key : α → κ) (rows : List α) (a : α) : ℕ := rows.countP fun b => key b ≤ key a

/-- Rows with the same key lie on the same page of `n` rows. -/
def TiesWithinPages (key : α → κ) (n : ℕ) (rows : List α) : Prop :=
  ∀ a ∈ rows, rank key rows a / n = (upTo key rows a - 1) / n

instance (n : ℕ) (rows : List α) : Decidable (TiesWithinPages key n rows) :=
  inferInstanceAs (Decidable (∀ a ∈ rows, _))

/-! ### Pages of one list -/

/-- The first pages hold the first rows. -/
theorem flatMap_pageAt (n pages : ℕ) (xs : List α) :
    ((List.range pages).flatMap fun k => pageAt n k xs) = xs.take (pages * n) := by
  induction pages with
  | zero => rw [Nat.zero_mul, List.take_zero, List.range_zero, List.flatMap_nil]
  | succ pages ih =>
    rw [List.range_succ, List.flatMap_append, ih, List.flatMap_singleton, pageAt, Nat.succ_mul,
      List.take_add]

/-! ### The place of a row -/

section Place

variable {xs rows : List α} {a : α} {i n k : ℕ}

theorem rank_le_index (hs : xs.Pairwise fun a b => key a ≤ key b) (hi : i < xs.length) :
    rank key xs xs[i] ≤ i := by
  -- from the place `i` on no key is smaller
  have hrest : (xs.drop i).countP (fun b => key b < key xs[i]) = 0 := by
    rw [List.countP_eq_zero]
    intro b hb
    obtain ⟨j, hj, rfl⟩ := List.mem_iff_getElem.1 hb
    rw [decide_eq_true_eq, not_lt, List.getElem_drop]
    rcases Nat.eq_zero_or_pos j with rfl | hpos
    · rfl
    · exact List.pairwise_iff_getElem.1 hs i (i + j) hi _ (by omega)
  calc rank key xs xs[i]
      = (xs.take i).countP (fun b => key b < key xs[i]) +
          (xs.drop i).countP (fun b => key b < key xs[i]) := by
        rw [← List.countP_append, List.take_append_drop, rank]
    _ ≤ i := by
        rw [hrest, Nat.add_zero]
        exact List.countP_le_length.trans (List.length_take_le i xs)

theorem index_lt_upTo (hs : xs.Pairwise fun a b => key a ≤ key b) (hi : i < xs.length) :
    i < upTo key xs xs[i] := by
  -- up to the place `i` no key is greater
  have hfirst : (xs.take (i + 1)).countP (fun b => key b ≤ key xs[i]) = i + 1 := by
    have hlen : (xs.take (i + 1)).length = i + 1 := by
      rw [List.length_take]; omega
    refine (List.countP_eq_length.2 fun b hb => ?_).trans hlen
    obtain ⟨j, hj, rfl⟩ := List.mem_iff_getElem.1 hb
    rw [decide_eq_true_eq, List.getElem_take]
    rcases Nat.lt_or_ge j i with hlt | hge
    · exact List.pairwise_iff_getElem.1 hs j i _ hi hlt
    · have hji : j = i := by omega
      subst hji
      rfl
  calc i < (xs.take (i + 1)).countP (fun b => key b ≤ key xs[i]) := by omega
    _ ≤ upTo key xs xs[i] := by
        rw [upTo]
        exact (List.take_sublist _ _).countP_le

theorem mem_pageAt (hn : 0 < n) :
    a ∈ pageAt n k xs ↔ ∃ i, ∃ h : i < xs.length, xs[i] = a ∧ i / n = k := by
  simp only [pageAt, List.mem_iff_getElem, List.getElem_take, List.getElem_drop,
    List.length_take, List.length_drop]
  constructor
  · rintro ⟨j, hj, rfl⟩
    refine ⟨k * n + j, by omega, rfl, ?_⟩
    rw [Nat.mul_comm, Nat.mul_add_div hn, Nat.div_eq_of_lt (by omega), Nat.add_zero]
  · rintro ⟨i, hi, rfl, rfl⟩
    have hdiv := Nat.div_add_mod' i n
    have hmod := Nat.mod_lt i hn
    exact ⟨i % n, by omega, by simp only [hdiv]⟩

theorem rank_perm (h : xs.Perm rows) : rank key xs a = rank key rows a := h.countP_eq _

theorem upTo_perm (h : xs.Perm rows) : upTo key xs a = upTo key rows a := h.countP_eq _

/-- The place of a row in an order. -/
theorem exists_place (o : TieOrder key) (ha : a ∈ rows) :
    ∃ i, ∃ h : i < (o.order rows).length, (o.order rows)[i] = a := by
  exact List.mem_iff_getElem.1 ((o.perm rows).mem_iff.2 ha)

theorem place_bounds (o : TieOrder key) (hi : i < (o.order rows).length)
    (hia : (o.order rows)[i] = a) : rank key rows a ≤ i ∧ i < upTo key rows a := by
  subst hia
  rw [← rank_perm (o.perm rows), ← upTo_perm (o.perm rows)]
  exact ⟨rank_le_index (o.sorted rows) hi, index_lt_upTo (o.sorted rows) hi⟩

/-- Where ties stay within pages, the page of a row is the same in every order. -/
theorem mem_page_iff (hn : 0 < n) (hties : TiesWithinPages key n rows) (o : TieOrder key)
    (ha : a ∈ rows) : a ∈ pageAt n k (o.order rows) ↔ rank key rows a / n = k := by
  have hplace : ∀ i, ∀ h : i < (o.order rows).length, (o.order rows)[i] = a →
      i / n = rank key rows a / n := by
    intro i hi hia
    obtain ⟨hlow, hup⟩ := place_bounds o hi hia
    have hle : i / n ≤ (upTo key rows a - 1) / n := Nat.div_le_div_right (by omega)
    exact le_antisymm (hle.trans (hties a ha).ge) (Nat.div_le_div_right hlow)
  rw [mem_pageAt hn]
  constructor
  · rintro ⟨i, hi, hia, rfl⟩
    exact (hplace i hi hia).symm
  · rintro rfl
    obtain ⟨i, hi, hia⟩ := exists_place o ha
    exact ⟨i, hi, hia, hplace i hi hia⟩

end Place

/-! ### Windows of an ordered query -/

section Window

variable {xs : List α} {i start n : ℕ}

/-- The places in a window. -/
theorem getElem_window (hi : i < ((xs.drop start).take n).length) :
    ∃ h : start + i < xs.length, ((xs.drop start).take n)[i] = xs[start + i] := by
  have hlen : i < min n (xs.length - start) := by
    simpa only [List.length_take, List.length_drop] using hi
  refine ⟨by omega, ?_⟩
  rw [List.getElem_take, List.getElem_drop]

theorem countP_le_mono (key : α → κ) {c d : κ} (h : c ≤ d) (xs : List α) :
    (xs.countP fun b => key b ≤ c) ≤ xs.countP fun b => key b ≤ d := by
  refine List.countP_mono_left fun b _ hb => ?_
  exact decide_eq_true (le_trans (of_decide_eq_true hb) h)

theorem countP_le_lt_mono (key : α → κ) {c d : κ} (h : c < d) (xs : List α) :
    (xs.countP fun b => key b ≤ c) ≤ xs.countP fun b => key b < d := by
  refine List.countP_mono_left fun b _ hb => ?_
  exact decide_eq_true (lt_of_le_of_lt (of_decide_eq_true hb) h)

/-- The first row and the last row of a descending window have the same key. -/
theorem upTo_of_window_descends (hs : xs.Pairwise fun a b => key a ≤ key b)
    (hdesc : ((xs.drop start).take n).Pairwise fun a b => key b ≤ key a)
    (hstart : start < xs.length) :
    min (start + n) xs.length ≤ xs.countP fun b => key b ≤ key xs[start] := by
  rcases Nat.eq_zero_or_pos n with rfl | hn
  · have hup : start < xs.countP fun b => key b ≤ key xs[start] := index_lt_upTo hs hstart
    omega
  obtain ⟨last, hlast⟩ : ∃ last, last + 1 = min n (xs.length - start) :=
    ⟨min n (xs.length - start) - 1, by omega⟩
  have hup : start + last < xs.countP fun b => key b ≤ key xs[start + last] :=
    index_lt_upTo hs (by omega)
  have hkey : key xs[start + last] ≤ key xs[start] := by
    have hlen : ((xs.drop start).take n).length = last + 1 := by
      rw [List.length_take, List.length_drop, hlast]
    rcases Nat.eq_zero_or_pos last with rfl | hpos
    · exact le_refl _
    · have hpair := List.pairwise_iff_getElem.1 hdesc 0 last (by omega) (by omega) hpos
      simpa only [List.getElem_take, List.getElem_drop, Nat.add_zero] using hpair
  have hmono := countP_le_mono key hkey xs
  omega

/-- A place between the rows before a key and the rows up to it holds that key. -/
theorem key_of_place (hs : xs.Pairwise fun a b => key a ≤ key b) {c : κ} (hi : i < xs.length)
    (hbefore : xs.countP (fun b => key b < c) ≤ i) (hupTo : i < xs.countP fun b => key b ≤ c) :
    key xs[i] = c := by
  refine le_antisymm ?_ ?_
  · by_contra hgt
    have hrank : xs.countP (fun b => key b < key xs[i]) ≤ i := rank_le_index hs hi
    have hmono := countP_le_lt_mono key (not_le.1 hgt) xs
    omega
  · by_contra hlt
    have hup : i < xs.countP fun b => key b ≤ key xs[i] := index_lt_upTo hs hi
    have hmono := countP_le_lt_mono key (not_le.1 hlt) xs
    omega

/-- A window of an ascending list that descends has one key: the window is empty, or it lies within
the rows of a key. -/
theorem window_descends_iff (hs : xs.Pairwise fun a b => key a ≤ key b) :
    (((xs.drop start).take n).Pairwise fun a b => key b ≤ key a) ↔
      xs.length ≤ start ∨ ∃ c, xs.countP (fun b => key b < c) ≤ start ∧
        min (start + n) xs.length ≤ xs.countP fun b => key b ≤ c := by
  constructor
  · intro hdesc
    rcases Nat.lt_or_ge start xs.length with hstart | hstart
    · exact .inr ⟨key xs[start], rank_le_index hs hstart,
        upTo_of_window_descends hs hdesc hstart⟩
    · exact .inl hstart
  · intro hwindow
    refine List.pairwise_iff_getElem.2 fun i j hi hj hij => ?_
    obtain ⟨hi', hxi⟩ := getElem_window hi
    obtain ⟨hj', hxj⟩ := getElem_window hj
    have hlen : j < min n (xs.length - start) := by
      simpa only [List.length_take, List.length_drop] using hj
    obtain hempty | ⟨c, hbefore, hupTo⟩ := hwindow
    · omega
    -- both rows have the key of the window
    have hkeyi : key xs[start + i] = c := key_of_place hs hi' (by omega) (by omega)
    have hkeyj : key xs[start + j] = c := key_of_place hs hj' (by omega) (by omega)
    rw [hxi, hxj, hkeyi, hkeyj]

end Window

/-! ### Orders that put one row first or last among its ties -/

/-- The order by `key` and then by `tie`. -/
def TieOrder.thenBy (key : α → κ) (tie : α → ℕ) : TieOrder key where
  toArrangement := (TieOrder.ofArrangement (fun b => (toLex (key b, tie b) : κ ×ₗ ℕ))
    (storedOrder α)).toArrangement
  sorted xs := by
    refine (TieOrder.sorted (TieOrder.ofArrangement _ (storedOrder α)) xs).imp fun {a b} h => ?_
    rcases Prod.Lex.toLex_le_toLex.1 h with h | h
    · exact h.le
    · exact h.1.le

section Favour

/-- A row among those with its key, in an order that breaks ties. -/
theorem thenBy_bounds {tie : α → ℕ} {rows : List α} {a : α} {i : ℕ}
    (hi : i < ((TieOrder.thenBy key tie).order rows).length)
    (hia : ((TieOrder.thenBy key tie).order rows)[i] = a) :
    rank (fun b => (toLex (key b, tie b) : κ ×ₗ ℕ)) rows a ≤ i ∧
      i < upTo (fun b => (toLex (key b, tie b) : κ ×ₗ ℕ)) rows a :=
  place_bounds (TieOrder.ofArrangement (fun b => (toLex (key b, tie b) : κ ×ₗ ℕ))
    (storedOrder α)) hi hia

variable [DecidableEq α] {rows : List α} {a : α} {n : ℕ}

theorem countP_le_add_count {p q : α → Bool} (h : ∀ b, p b = true → q b = true ∨ b = a)
    (xs : List α) : xs.countP p ≤ xs.countP q + xs.count a := by
  induction xs with
  | nil => exact Nat.le_refl 0
  | cons b xs ih =>
    rw [List.countP_cons, List.countP_cons, List.count_cons]
    by_cases hp : p b = true
    · rcases h b hp with hq | rfl
      · simp only [hp, hq, if_true]
        omega
      · simp only [hp, if_true, beq_self_eq_true]
        omega
    · simp only [hp, if_false, Bool.false_eq_true]
      omega

/-- A row that comes first among its ties. -/
theorem mem_page_first (hn : 0 < n) (hnodup : rows.Nodup) (ha : a ∈ rows) :
    a ∈ pageAt n (rank key rows a / n)
      ((TieOrder.thenBy key fun b => if b = a then 0 else 1).order rows) := by
  obtain ⟨i, hi, hia⟩ := exists_place (TieOrder.thenBy key fun b => if b = a then 0 else 1) ha
  have hup := (thenBy_bounds hi hia).2
  have hlow := (place_bounds _ hi hia).1
  have hcount : upTo (fun b => (toLex (key b, if b = a then 0 else 1) : κ ×ₗ ℕ)) rows a ≤
      rank key rows a + rows.count a := by
    refine countP_le_add_count (fun b hb => ?_) rows
    rcases Prod.Lex.toLex_le_toLex.1 (of_decide_eq_true hb) with h | ⟨-, h⟩
    · exact .inl (decide_eq_true h)
    · rcases eq_or_ne b a with hba | hba
      · exact .inr hba
      · simp only [if_neg hba, if_true] at h
        omega
  rw [List.count_eq_one_of_mem hnodup ha] at hcount
  have hrank : i = rank key rows a := by omega
  exact (mem_pageAt hn).2 ⟨i, hi, hia, congrArg (· / n) hrank⟩

/-- A row that comes last among its ties. -/
theorem mem_page_last (hn : 0 < n) (hnodup : rows.Nodup) (ha : a ∈ rows) :
    a ∈ pageAt n ((upTo key rows a - 1) / n)
      ((TieOrder.thenBy key fun b => if b = a then 1 else 0).order rows) := by
  obtain ⟨i, hi, hia⟩ := exists_place (TieOrder.thenBy key fun b => if b = a then 1 else 0) ha
  have hlow := (thenBy_bounds hi hia).1
  have hup := (place_bounds _ hi hia).2
  have hcount : upTo key rows a ≤
      rank (fun b => (toLex (key b, if b = a then 1 else 0) : κ ×ₗ ℕ)) rows a +
        rows.count a := by
    refine countP_le_add_count (fun b hb => ?_) rows
    rcases eq_or_ne b a with hba | hba
    · exact .inr hba
    · refine .inl (decide_eq_true (Prod.Lex.toLex_lt_toLex.2 ?_))
      rcases lt_or_eq_of_le (of_decide_eq_true hb) with hlt | heq
      · exact .inl hlt
      · exact .inr ⟨heq, by simp only [if_neg hba, if_true, Nat.zero_lt_one]⟩
  rw [List.count_eq_one_of_mem hnodup ha] at hcount
  have hlast : i = upTo key rows a - 1 := by omega
  exact (mem_pageAt hn).2 ⟨i, hi, hia, congrArg (· / n) hlast⟩

end Favour

/-! ### All pages -/

section Pages

variable {rows : List α} {n pages : ℕ}

/-- A row that is on two pages is listed twice. -/
theorem not_nodup_of_two_pages {orders : ℕ → TieOrder key} {a : α} {i j : ℕ} (hi : i < pages)
    (hj : j < pages) (hij : i ≠ j) (hai : a ∈ pageAt n i ((orders i).order rows))
    (haj : a ∈ pageAt n j ((orders j).order rows)) :
    ¬ (listedPages n pages orders rows).Nodup := by
  intro hnodup
  rw [listedPages, List.nodup_flatMap] at hnodup
  have hdisjoint := List.pairwise_iff_getElem.1 hnodup.2
  rcases Nat.lt_or_gt_of_ne hij with hlt | hlt
  · have := hdisjoint i j (by simpa using hi) (by simpa using hj) hlt
    simp only [List.getElem_range] at this
    exact this hai haj
  · have := hdisjoint j i (by simpa using hj) (by simpa using hi) hlt
    simp only [List.getElem_range] at this
    exact this haj hai

/-- The pages up to the last one hold every row, at its first place and at its last one. -/
theorem page_bounds (key : α → κ) (hn : 0 < n) (hpages : rows.length ≤ pages * n) {a : α}
    (ha : a ∈ rows) :
    rank key rows a / n ≤ (upTo key rows a - 1) / n ∧ (upTo key rows a - 1) / n < pages := by
  classical
  have hle : upTo key rows a ≤ rows.length := List.countP_le_length
  have hpos : 0 < rows.length := List.length_pos_of_mem ha
  obtain ⟨i, hi, hia⟩ := exists_place (TieOrder.ofArrangement key (storedOrder α)) ha
  obtain ⟨hlow, hup⟩ := place_bounds _ hi hia
  exact ⟨Nat.div_le_div_right (by omega), (Nat.div_lt_iff_lt_mul hn).2 (by omega)⟩

/-- Pages that never repeat a row keep ties together. -/
theorem ties_of_pages_nodup (hn : 0 < n) (hnodup : rows.Nodup) (hpages : rows.length ≤ pages * n)
    (hall : ∀ orders : ℕ → TieOrder key, (listedPages n pages orders rows).Nodup) :
    TiesWithinPages key n rows := by
  classical
  intro a ha
  by_contra hne
  obtain ⟨hmono, hbound⟩ := page_bounds key hn hpages ha
  -- the row comes first on one page, and last when the other page is asked for
  let orders : ℕ → TieOrder key := fun k =>
    if k = rank key rows a / n then TieOrder.thenBy key fun b => if b = a then 0 else 1
    else TieOrder.thenBy key fun b => if b = a then 1 else 0
  refine not_nodup_of_two_pages (a := a) (hmono.trans_lt hbound) hbound hne ?_ ?_ (hall orders)
  · simpa only [orders, if_pos] using mem_page_first hn hnodup ha
  · simpa only [orders, if_neg (Ne.symm hne)] using mem_page_last hn hnodup ha

/-- Where ties stay together, the rows on a page are the same in every order. -/
theorem mem_pageAt_order (hn : 0 < n) (hties : TiesWithinPages key n rows) (o : TieOrder key)
    {k : ℕ} {a : α} :
    a ∈ pageAt n k (o.order rows) ↔ a ∈ rows ∧ rank key rows a / n = k := by
  constructor
  · intro ha
    have hrow : a ∈ rows := (o.perm rows).mem_iff.1 (List.mem_of_mem_drop (List.mem_of_mem_take ha))
    exact ⟨hrow, (mem_page_iff hn hties o hrow).1 ha⟩
  · rintro ⟨hrow, hk⟩
    exact (mem_page_iff hn hties o hrow).2 hk

/-- Where ties stay together, no row is listed twice. -/
theorem pages_nodup (hn : 0 < n) (hnodup : rows.Nodup) (hties : TiesWithinPages key n rows)
    (orders : ℕ → TieOrder key) : (listedPages n pages orders rows).Nodup := by
  rw [listedPages, List.nodup_flatMap]
  constructor
  · intro k _
    exact (((orders k).perm rows).nodup_iff.2 hnodup).sublist
      ((List.take_sublist _ _).trans (List.drop_sublist _ _))
  · refine List.nodup_range.imp fun {i j} hij a hi hj => hij ?_
    have hpage : rank key rows a / n = i := ((mem_pageAt_order hn hties _).1 hi).2
    exact hpage.symm.trans ((mem_pageAt_order hn hties _).1 hj).2

/-- **Complete paging.**  The pages, each in an order of its own, list every row exactly once,
whatever these orders are, exactly when rows with the same key are on the same page. -/
theorem pages_perm_iff (hn : 0 < n) (hnodup : rows.Nodup) (hpages : rows.length ≤ pages * n) :
    (∀ orders : ℕ → TieOrder key, (listedPages n pages orders rows).Perm rows) ↔
      TiesWithinPages key n rows := by
  constructor
  · intro hall
    exact ties_of_pages_nodup hn hnodup hpages fun orders => (hall orders).nodup_iff.2 hnodup
  · intro hties orders
    refine (List.perm_ext_iff_of_nodup (pages_nodup hn hnodup hties orders) hnodup).2 fun a => ?_
    simp only [listedPages, List.mem_flatMap, List.mem_range, mem_pageAt_order hn hties]
    constructor
    · rintro ⟨k, -, ha, -⟩
      exact ha
    · intro ha
      obtain ⟨hmono, hbound⟩ := page_bounds key hn hpages ha
      exact ⟨_, hmono.trans_lt hbound, ha, rfl⟩

end Pages

end ArgusSbomGuard
