import ArgusSbomGuard.Relational.Paging

/-!
# Reading a table that grows, window by window

A client reads the rows of an ordered query window after window.  Every window is a query of its
own, and rows may be added between two of them.  Where no two rows have the same key, a row that
is added can only move the others to later places (`rank_mono`).  So a row that was there at the
beginning is never behind the client unless it was seen (`Ahead`), and when the client is at the
end, it has seen all of these rows (`Ahead.complete`).

## Main definitions

* `window start n xs` : `OFFSET start LIMIT n`.
* `Ahead` : what was not seen is not behind.
-/

namespace ArgusSbomGuard

variable {α κ : Type} [LinearOrder κ] {key : α → κ}

/-- The rows that `OFFSET start LIMIT n` leaves. -/
def window (start n : ℕ) (xs : List α) : List α := (xs.drop start).take n

/-- A client reads on from the place `start`.  A row of `first` was seen, or is in the table at that
place or a later one. -/
def Ahead (key : α → κ) (first : List α) (seen : α → Prop) (rows : List α) (start : ℕ) : Prop :=
  ∀ a ∈ first, seen a ∨ a ∈ rows ∧ start ≤ rank key rows a

variable {first rows rows' xs : List α} {seen seen' : α → Prop} {a : α} {start n i : ℕ}

theorem length_window : (window start n xs).length = min n (xs.length - start) := by
  rw [window, List.length_take, List.length_drop]

theorem mem_window : a ∈ window start n xs ↔
    ∃ i, ∃ h : i < xs.length, start ≤ i ∧ i < start + n ∧ xs[i] = a := by
  simp only [window, List.mem_iff_getElem, List.getElem_take, List.getElem_drop,
    List.length_take, List.length_drop]
  constructor
  · rintro ⟨j, hj, rfl⟩
    exact ⟨start + j, by omega, by omega, by omega, rfl⟩
  · rintro ⟨i, hi, hlow, hhigh, rfl⟩
    exact ⟨i - start, by omega, by simp only [Nat.add_sub_cancel' hlow]⟩

/-! ### The place of a row -/

/-- A row comes before no more rows than there are others. -/
theorem rank_lt_length (ha : a ∈ rows) : rank key rows a < rows.length := by
  refine lt_of_le_of_ne List.countP_le_length fun heq => ?_
  have hall := List.countP_eq_length.1 heq a ha
  exact absurd (of_decide_eq_true hall) (lt_irrefl _)

/-- New rows move the others to later places only. -/
theorem rank_mono (hnodup : rows.Nodup) (hsub : rows ⊆ rows') :
    rank key rows a ≤ rank key rows' a :=
  (hnodup.subperm hsub).countP_le _

/-- Where the key determines the row, it determines its place. -/
theorem place_eq_rank (hnodup : rows.Nodup) (hdet : Determines key rows) (o : TieOrder key)
    (hi : i < (o.order rows).length) (hia : (o.order rows)[i] = a) : i = rank key rows a := by
  classical
  have ha : a ∈ rows := (o.perm rows).mem_iff.1 (hia ▸ List.getElem_mem hi)
  obtain ⟨hlow, hup⟩ := place_bounds o hi hia
  have hcount : upTo key rows a ≤ rank key rows a + rows.count a := by
    -- only `a` itself has the key of `a`
    refine (List.countP_mono_left (q := fun b => key b < key a ∨ b = a) fun b hb hle => ?_).trans ?_
    · rcases lt_or_eq_of_le (of_decide_eq_true hle) with hlt | heq
      · exact decide_eq_true (.inl hlt)
      · exact decide_eq_true (.inr (hdet b hb a ha heq))
    · refine countP_le_add_count (fun b hb => ?_) rows
      exact (of_decide_eq_true hb).imp_left decide_eq_true
  rw [List.count_eq_one_of_mem hnodup ha] at hcount
  omega

/-! ### What was not seen is not behind -/

theorem ahead_start (rows : List α) : Ahead key rows seen rows 0 :=
  fun _ ha => .inr ⟨ha, Nat.zero_le _⟩

theorem Ahead.grow (h : Ahead key first seen rows start) (hnodup : rows.Nodup)
    (hsub : rows ⊆ rows') : Ahead key first seen rows' start := by
  intro a ha
  rcases h a ha with hseen | ⟨hrow, hplace⟩
  · exact .inl hseen
  · exact .inr ⟨hsub hrow, hplace.trans (rank_mono hnodup hsub)⟩

/-- A window holds what stands at its places, so that nothing falls behind. -/
theorem Ahead.read (h : Ahead key first seen rows start) (hnodup : rows.Nodup)
    (hdet : Determines key rows) (o : TieOrder key) (hold : ∀ a, seen a → seen' a)
    (hnew : ∀ a ∈ window start n (o.order rows), seen' a) :
    Ahead key first seen' rows (start + n) := by
  intro a ha
  rcases h a ha with hseen | ⟨hrow, hplace⟩
  · exact .inl (hold a hseen)
  · obtain ⟨i, hi, hia⟩ := exists_place o hrow
    obtain rfl := place_eq_rank hnodup hdet o hi hia
    rcases Nat.lt_or_ge (rank key rows a) (start + n) with hin | hout
    · exact .inl (hnew a (mem_window.2 ⟨_, hi, hplace, hin, hia⟩))
    · exact .inr ⟨hrow, hout⟩

/-- At the end of the table every row was seen. -/
theorem Ahead.complete (h : Ahead key first seen rows start) (hend : rows.length ≤ start) :
    ∀ a ∈ first, seen a := by
  intro a ha
  rcases h a ha with hseen | ⟨hrow, hplace⟩
  · exact hseen
  · have hlt : rank key rows a < rows.length := rank_lt_length hrow
    omega

end ArgusSbomGuard
