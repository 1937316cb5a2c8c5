import Mathlib.Data.List.Basic
import Mathlib.Data.List.Pairwise

/-!
# Tables with unique keys

A table of a relational database is a list of rows in which no two rows agree on a unique key.
The constraint is a field of `Table`, so a table that violates it cannot be built: an insert
that would violate it fails (`Table.insert?`), and an update may only apply a function that
leaves the keys alone.

## Main definitions

* `UniqueKeys R` : the unique constraints on rows `R`, as a relation `Clash`.
* `Table R` : rows without clashes.
* `Table.insert?`, `Table.updateWhere`, `Table.deleteWhere` : the three kinds of statement.
* `rowNumber` : the window function `row_number()` over a partition and an order.
-/

namespace ArgusSbomGuard

/-- The unique constraints of a table with rows `R`. -/
class UniqueKeys (R : Type*) where
  /-- The two rows agree on some unique key. -/
  Clash : R → R → Prop
  decClash : DecidableRel Clash
  clash_symm : ∀ {a b : R}, Clash a b → Clash b a

export UniqueKeys (Clash clash_symm)

variable {R : Type*} [UniqueKeys R]

instance : DecidableRel (Clash (R := R)) := UniqueKeys.decClash

/-- A table: rows of which no two agree on a unique key. -/
structure Table (R : Type*) [UniqueKeys R] where
  rows : List R
  unique : rows.Pairwise fun a b => ¬ Clash a b

namespace Table

instance : Membership R (Table R) := ⟨fun t r => r ∈ t.rows⟩

theorem mem_rows {t : Table R} {r : R} : r ∈ t.rows ↔ r ∈ t := Iff.rfl

instance (t : Table R) (P : R → Prop) [DecidablePred P] : Decidable (∃ r ∈ t, P r) :=
  inferInstanceAs (Decidable (∃ r ∈ t.rows, P r))

instance (t : Table R) (P : R → Prop) [DecidablePred P] : Decidable (∀ r ∈ t, P r) :=
  inferInstanceAs (Decidable (∀ r ∈ t.rows, P r))

/-- A table is its rows. -/
theorem ext_rows {t t' : Table R} (h : t.rows = t'.rows) : t = t' := by
  cases t; cases t'; cases h; rfl

/-- The table without rows. -/
def empty : Table R := ⟨[], List.Pairwise.nil⟩

@[simp] theorem not_mem_empty (r : R) : r ∉ (empty : Table R) := List.not_mem_nil

/-- Two rows that agree on a unique key are the same row. -/
theorem eq_of_clash {t : Table R} {a b : R} (ha : a ∈ t) (hb : b ∈ t) (h : Clash a b) :
    a = b := by
  have : Std.Symm fun a b : R => ¬ Clash a b := ⟨fun _ _ hn hc => hn (clash_symm hc)⟩
  by_contra hne
  exact t.unique.forall ha hb hne h

/-- `INSERT`: fails when the row agrees with a stored one on a unique key. -/
def insert? (t : Table R) (r : R) : Option (Table R) :=
  if h : ∃ a ∈ t.rows, Clash a r then none
  else some ⟨t.rows ++ [r], by
    refine List.pairwise_append.2 ⟨t.unique, List.pairwise_singleton _ _, fun a ha b hb => ?_⟩
    rw [List.mem_singleton] at hb
    exact fun hc => h ⟨a, ha, hb ▸ hc⟩⟩

theorem insert?_eq_some {t t' : Table R} {r : R} (h : t.insert? r = some t') :
    (∀ a ∈ t, ¬ Clash a r) ∧ t'.rows = t.rows ++ [r] := by
  unfold insert? at h
  split_ifs at h with hc
  obtain rfl := Option.some.inj h
  exact ⟨fun a ha hcl => hc ⟨a, ha, hcl⟩, rfl⟩

theorem insert?_eq_none {t : Table R} {r : R} : t.insert? r = none ↔ ∃ a ∈ t, Clash a r := by
  unfold insert?
  split_ifs with hc
  · exact ⟨fun _ => hc, fun _ => rfl⟩
  · exact ⟨nofun, fun h => absurd h hc⟩

theorem mem_insert? {t t' : Table R} {r a : R} (h : t.insert? r = some t') :
    a ∈ t' ↔ a ∈ t ∨ a = r := by
  rw [← mem_rows, (insert?_eq_some h).2, List.mem_append, List.mem_singleton, mem_rows]

/-- `UPDATE ... WHERE p`, for a function that changes no unique key. -/
def updateWhere (t : Table R) (p : R → Bool) (f : R → R)
    (hf : ∀ a b, Clash (f a) b ↔ Clash a b) : Table R where
  rows := t.rows.map fun r => if p r then f r else r
  unique := by
    -- the update changes no key on either side of the comparison
    have hite : ∀ a b, Clash (if p a then f a else a) b ↔ Clash a b := fun a b => by
      split_ifs
      · exact hf a b
      · rfl
    refine List.pairwise_map.2 (t.unique.imp fun {a b} hn hc => hn ?_)
    exact clash_symm ((hite b a).1 (clash_symm ((hite a _).1 hc)))

theorem mem_updateWhere {t : Table R} {p : R → Bool} {f : R → R}
    {hf : ∀ a b, Clash (f a) b ↔ Clash a b} {r : R} :
    r ∈ t.updateWhere p f hf ↔ ∃ a ∈ t, (if p a then f a else a) = r :=
  List.mem_map

/-- `DELETE ... WHERE p`. -/
def deleteWhere (t : Table R) (p : R → Bool) : Table R :=
  ⟨t.rows.filter fun r => !p r, t.unique.filter _⟩

@[simp] theorem mem_deleteWhere {t : Table R} {p : R → Bool} {r : R} :
    r ∈ t.deleteWhere p ↔ r ∈ t ∧ p r = false := by
  rw [← mem_rows, deleteWhere, List.mem_filter, mem_rows, Bool.not_eq_true']

/-- `UPDATE ... WHERE p` of the keys of one row, which becomes `r`: fails when another row agrees
with `r` on a unique key. -/
def replace? (t : Table R) (p : R → Bool) (r : R) : Option (Table R) := (t.deleteWhere p).insert? r

theorem mem_replace? {t t' : Table R} {p : R → Bool} {r a : R} (h : t.replace? p r = some t') :
    a ∈ t' ↔ (a ∈ t ∧ p a = false) ∨ a = r := by
  rw [mem_insert? h, mem_deleteWhere]

theorem exists_mem_replace? {t t' : Table R} {p : R → Bool} {r : R} {P : R → Prop}
    (h : t.replace? p r = some t') (ht : ∃ a ∈ t, P a) (hr : ∀ a, p a = true → P a → P r) :
    ∃ a ∈ t', P a := by
  obtain ⟨a, ha, hPa⟩ := ht
  cases hp : p a with
  | false => exact ⟨a, (mem_replace? h).2 (.inl ⟨ha, hp⟩), hPa⟩
  | true => exact ⟨r, (mem_replace? h).2 (.inr rfl), hr a hp hPa⟩

theorem forall_mem_insert? {t t' : Table R} {r : R} {P : R → Prop} (h : t.insert? r = some t')
    (ht : ∀ a ∈ t, P a) (hr : P r) : ∀ a ∈ t', P a := fun a ha =>
  ((mem_insert? h).1 ha).elim (ht a) fun he => he ▸ hr

theorem exists_mem_insert? {t t' : Table R} {r : R} {P : R → Prop} (h : t.insert? r = some t')
    (ht : ∃ a ∈ t, P a) : ∃ a ∈ t', P a :=
  ht.imp fun _ ha => ⟨(mem_insert? h).2 (.inl ha.1), ha.2⟩

theorem forall_mem_updateWhere {t : Table R} {p : R → Bool} {f : R → R}
    {hf : ∀ a b, Clash (f a) b ↔ Clash a b} {P : R → Prop} (ht : ∀ a ∈ t, P a)
    (hP : ∀ a, P a → P (f a)) : ∀ a ∈ t.updateWhere p f hf, P a := by
  intro r hr
  obtain ⟨a, ha, rfl⟩ := mem_updateWhere.1 hr
  split_ifs
  · exact hP a (ht a ha)
  · exact ht a ha

theorem exists_mem_updateWhere {t : Table R} {p : R → Bool} {f : R → R}
    {hf : ∀ a b, Clash (f a) b ↔ Clash a b} {P : R → Prop} (ht : ∃ a ∈ t, P a)
    (hP : ∀ a, P a → P (f a)) : ∃ a ∈ t.updateWhere p f hf, P a := by
  obtain ⟨a, ha, hPa⟩ := ht
  refine ⟨_, mem_updateWhere.2 ⟨a, ha, rfl⟩, ?_⟩
  split_ifs
  · exact hP a hPa
  · exact hPa

theorem forall_mem_deleteWhere {t : Table R} {p : R → Bool} {P : R → Prop}
    (ht : ∀ a ∈ t, P a) : ∀ a ∈ t.deleteWhere p, P a := fun a ha =>
  ht a (mem_deleteWhere.1 ha).1

/-- `SELECT ... WHERE p`, when at most one row is expected. -/
def find? (t : Table R) (p : R → Bool) : Option R := t.rows.find? p

theorem mem_of_find? {t : Table R} {p : R → Bool} {r : R} (h : t.find? p = some r) :
    r ∈ t ∧ p r = true :=
  ⟨List.mem_of_find?_eq_some h, List.find?_some h⟩

theorem find?_eq_none {t : Table R} {p : R → Bool} :
    t.find? p = none ↔ ∀ r ∈ t, p r = false := by
  simp only [find?, List.find?_eq_none, Bool.not_eq_true, mem_rows]

/-- A lookup by a unique key finds the row that has the key. -/
theorem find?_eq_some {t : Table R} {p : R → Bool} {r : R} (hr : r ∈ t) (hp : p r = true)
    (huniq : ∀ a, p a = true → Clash a r) : t.find? p = some r := by
  cases hf : t.find? p with
  | none => simp [find?_eq_none.1 hf r hr] at hp
  | some a =>
    obtain ⟨ha, hpa⟩ := mem_of_find? hf
    rw [eq_of_clash ha hr (huniq a hpa)]

end Table

/-! ### Window functions -/

/-- `row_number() over (partition by ... order by ...)`: one more than the number of rows of
the partition of `r` that the order puts before `r`. -/
def rowNumber {R : Type*} (same before : R → R → Bool) (rows : List R) (r : R) : ℕ :=
  (rows.filter fun a => same a r && before a r).length + 1

theorem rowNumber_eq_one {R : Type*} {same before : R → R → Bool} {rows : List R} {r : R} :
    rowNumber same before rows r = 1 ↔ ∀ a ∈ rows, same a r = true → before a r = false := by
  simp only [rowNumber, Nat.add_eq_right, List.length_eq_zero_iff, List.filter_eq_nil_iff,
    Bool.and_eq_true, not_and, Bool.not_eq_true]

end ArgusSbomGuard
