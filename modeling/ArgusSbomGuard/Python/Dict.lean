import ArgusSbomGuard.Relational.Greatest

/-!
# Dictionaries that are filled in a loop

A dictionary keeps its entries in the order in which their keys came.  A loop over rows that changes
the entry of each row's key leaves under a key what the rows of that key make of it
(`lookup_groupInto`).  When each row replaces the entry, the dictionary ends with the last row of
each key (`bucketBy`), so that none of them is lost exactly when the key separates what the rows
have (`forall_mem_bucketBy_iff`).

## Main definitions

* `updateKey` : `d[key] = f(d.get(key))`.
* `groupInto` : the dictionary after the loop.
* `bucketBy` : the values of `d[key(row)] = row`.
-/

namespace ArgusSbomGuard

variable {κ β γ ρ : Type} [DecidableEq κ]

/-- `d[key] = f(d.get(key))`: an entry that is there keeps its place, a new one comes last. -/
def updateKey (k : κ) (f : Option γ → γ) : List (κ × γ) → List (κ × γ)
  | [] => [(k, f none)]
  | e :: d => if e.1 = k then (k, f (some e.2)) :: d else e :: updateKey k f d

/-- A round of a loop in which `g` changes the entry of a row's key. -/
def groupRow (g : ρ → Option γ → γ) (d : List (κ × γ)) (row : κ × ρ) : List (κ × γ) :=
  updateKey row.1 (g row.2) d

/-- The dictionary after the loop. -/
def groupInto (g : ρ → Option γ → γ) (rows : List (κ × ρ)) : List (κ × γ) :=
  rows.foldl (groupRow g) []

/-- The values of the dictionary after `d[key(row)] = row` for each row. -/
def bucketBy (key : β → κ) (rows : List β) : List β :=
  (groupInto (fun b _ => b) (rows.map fun b => (key b, b))).map Prod.snd

variable {d : List (κ × γ)} {k k' : κ} {f : Option γ → γ} {g : ρ → Option γ → γ}
  {rows : List (κ × ρ)}

/-! ### One entry -/

theorem lookup_updateKey : (updateKey k f d).lookup k' =
    if k' = k then some (f (d.lookup k)) else d.lookup k' := by
  induction d with
  | nil =>
    rw [updateKey, List.lookup_cons]
    split_ifs with h
    · rw [beq_iff_eq.2 h]
      rfl
    · rw [beq_eq_false_iff_ne.2 h]
  | cons e d ih =>
    rw [updateKey]
    by_cases he : e.1 = k
    · rw [if_pos he, List.lookup_cons, List.lookup_cons, List.lookup_cons, he, beq_self_eq_true]
      split_ifs with h
      · rw [beq_iff_eq.2 h]
      · rw [beq_eq_false_iff_ne.2 h]
    · rw [if_neg he, List.lookup_cons, ih, List.lookup_cons, List.lookup_cons,
        beq_eq_false_iff_ne.2 (Ne.symm he)]
      split_ifs with h
      · rw [h, beq_eq_false_iff_ne.2 (Ne.symm he)]
      · rfl

theorem mem_keys_updateKey {e : κ × γ} (h : e ∈ updateKey k f d) :
    e.1 = k ∨ ∃ e' ∈ d, e'.1 = e.1 := by
  induction d with
  | nil => exact .inl (List.mem_singleton.1 h ▸ rfl)
  | cons a d ih =>
    rw [updateKey] at h
    split_ifs at h with ha
    · rcases List.mem_cons.1 h with rfl | h
      · exact .inl rfl
      · exact .inr ⟨e, List.mem_cons_of_mem _ h, rfl⟩
    · rcases List.mem_cons.1 h with rfl | h
      · exact .inr ⟨e, List.mem_cons_self, rfl⟩
      · exact (ih h).imp_right fun ⟨e', he', heq⟩ => ⟨e', List.mem_cons_of_mem _ he', heq⟩

/-- A new key comes last. -/
theorem updateKey_of_notMem (h : ∀ e ∈ d, e.1 ≠ k) : updateKey k f d = d ++ [(k, f none)] := by
  induction d with
  | nil => rfl
  | cons e d ih =>
    obtain ⟨he, hd⟩ := List.forall_mem_cons.1 h
    rw [updateKey, if_neg he, ih hd, List.cons_append]

theorem UniqueEntries.updateKey (h : UniqueEntries d) : UniqueEntries (updateKey k f d) := by
  induction d with
  | nil => exact List.pairwise_singleton _ _
  | cons a d ih =>
    obtain ⟨hne, hd⟩ := List.pairwise_cons.1 h
    rw [ArgusSbomGuard.updateKey]
    split_ifs with ha
    · exact List.pairwise_cons.2 ⟨fun e he => ha ▸ hne e he, hd⟩
    · refine List.pairwise_cons.2 ⟨fun e he => ?_, ih hd⟩
      rcases mem_keys_updateKey he with heq | ⟨e', he', heq⟩
      · rwa [heq]
      · rw [← heq]
        exact hne e' he'

/-- What holds of all values of a dictionary after an assignment. -/
theorem forall_values_updateKey {P : γ → Prop} (hd : ∀ e ∈ d, P e.2) (hnone : P (f none))
    (hsome : ∀ c, P c → P (f (some c))) : ∀ e ∈ updateKey k f d, P e.2 := by
  induction d with
  | nil =>
    intro e he
    rw [List.mem_singleton.1 he]
    exact hnone
  | cons a d ih =>
    obtain ⟨ha, hd⟩ := List.forall_mem_cons.1 hd
    rw [updateKey]
    split_ifs
    · exact List.forall_mem_cons.2 ⟨hsome a.2 ha, hd⟩
    · exact List.forall_mem_cons.2 ⟨ha, ih hd⟩

theorem mem_of_lookup {c : γ} (h : d.lookup k = some c) : (k, c) ∈ d := by
  obtain ⟨before, after, rfl, -⟩ := List.lookup_eq_some_iff.1 h
  exact List.mem_append_right _ List.mem_cons_self

/-! ### The loop -/

theorem lookup_foldl_groupRow : (rows.foldl (groupRow g) d).lookup k =
    (rowsOf k rows).foldl (fun o r => some (g r o)) (d.lookup k) := by
  induction rows generalizing d with
  | nil => rfl
  | cons row rows ih =>
    rw [List.foldl_cons, ih, groupRow, lookup_updateKey, rowsOf, rowsOf]
    by_cases hk : k = row.1
    · rw [if_pos hk, List.filter_cons_of_pos (by simpa using hk.symm), List.map_cons,
        List.foldl_cons, hk]
    · rw [if_neg hk, List.filter_cons_of_neg (by simpa using Ne.symm hk)]

/-- **The loop leaves under a key what the rows of the key make of it.** -/
theorem lookup_groupInto : (groupInto g rows).lookup k =
    (rowsOf k rows).foldl (fun o r => some (g r o)) none :=
  lookup_foldl_groupRow

theorem uniqueEntries_groupInto : UniqueEntries (groupInto g rows) := by
  have hloop : ∀ d : List (κ × γ), UniqueEntries d →
      UniqueEntries (rows.foldl (groupRow g) d) := by
    induction rows with
    | nil => exact fun _ h => h
    | cons row rows ih => exact fun d h => ih _ h.updateKey
  exact hloop [] List.Pairwise.nil

/-- A loop that fills a collection for each key, which is empty before its first row. -/
theorem getD_lookup_groupInto (h : ρ → γ → γ) (z : γ) :
    ((groupInto (fun r o => h r (o.getD z)) rows).lookup k).getD z =
      (rowsOf k rows).foldl (fun c r => h r c) z := by
  have hfold : ∀ (rs : List ρ) (o : Option γ),
      (rs.foldl (fun o r => some (h r (o.getD z))) o).getD z =
        rs.foldl (fun c r => h r c) (o.getD z) := by
    intro rs
    induction rs with
    | nil => exact fun _ => rfl
    | cons r rs ih => exact fun o => ih (some (h r (o.getD z)))
  rw [lookup_groupInto, hfold]
  rfl

/-! ### The last row of each key -/

variable {key : β → κ} {bs : List β} {b : β}

/-- The value under a key is its last row. -/
theorem lookup_overwrite {rows : List (κ × β)} :
    (groupInto (fun b _ => b) rows).lookup k = (rowsOf k rows).getLast? := by
  have hfold : ∀ (rs : List β) (o : Option β),
      rs.foldl (fun _ r => some r) o = rs.getLast?.or o := by
    intro rs
    induction rs with
    | nil => exact fun o => (Option.none_or).symm
    | cons r rs ih =>
      intro o
      rw [List.foldl_cons, ih, List.getLast?_cons]
      cases rs.getLast? <;> rfl
  rw [lookup_groupInto, hfold, Option.or_none]

/-- The entries are among the rows. -/
theorem mem_of_mem_overwrite {rows : List (κ × β)} {e : κ × β}
    (h : e ∈ groupInto (fun b _ => b) rows) : e ∈ rows := by
  have hlast : (rowsOf e.1 rows).getLast? = some e.2 := by
    rw [← lookup_overwrite]
    exact uniqueEntries_groupInto.mem_iff.1 h
  exact mem_rowsOf.1 (List.mem_of_getLast? hlast)

/-- Rows with different keys are the entries. -/
theorem overwrite_of_uniqueEntries {rows : List (κ × β)} (h : UniqueEntries rows) :
    groupInto (fun b _ => b) rows = rows := by
  have hloop : ∀ d : List (κ × β), UniqueEntries (d ++ rows) →
      rows.foldl (groupRow fun b _ => b) d = d ++ rows := by
    induction rows with
    | nil => exact fun d _ => (List.append_nil d).symm
    | cons e rows ih =>
      intro d hd
      have hnew : ∀ e' ∈ d, e'.1 ≠ e.1 := fun e' he' =>
        (List.pairwise_append.1 hd).2.2 e' he' e List.mem_cons_self
      rw [List.append_cons] at hd ⊢
      rw [List.foldl_cons, groupRow, updateKey_of_notMem hnew]
      exact ih (List.pairwise_cons.1 h).2 _ hd
  exact hloop [] h

theorem mem_bucketBy_iff : b ∈ bucketBy key bs ↔
    (rowsOf (key b) (bs.map fun b => (key b, b))).getLast? = some b := by
  simp only [bucketBy, List.mem_map, Prod.exists, exists_eq_right,
    uniqueEntries_groupInto.mem_iff, lookup_overwrite]
  constructor
  · rintro ⟨k, hlast⟩
    have hmem := mem_rowsOf.1 (List.mem_of_getLast? hlast)
    obtain ⟨b', -, heq⟩ := List.mem_map.1 hmem
    obtain ⟨rfl, rfl⟩ := Prod.mk.inj heq
    exact hlast
  · exact fun hlast => ⟨_, hlast⟩

theorem mem_of_mem_bucketBy (h : b ∈ bucketBy key bs) : b ∈ bs := by
  obtain ⟨e, he, rfl⟩ := List.mem_map.1 h
  obtain ⟨b, hb, rfl⟩ := List.mem_map.1 (mem_of_mem_overwrite he)
  exact hb

/-- Values with the same key are the same. -/
theorem eq_of_mem_bucketBy {b' : β} (h : b ∈ bucketBy key bs) (h' : b' ∈ bucketBy key bs)
    (hkey : key b = key b') : b = b' := by
  rw [mem_bucketBy_iff] at h h'
  rw [hkey] at h
  exact Option.some.inj (h.symm.trans h')

/-- Each key has a value. -/
theorem exists_mem_bucketBy (h : b ∈ bs) : ∃ b' ∈ bucketBy key bs, key b' = key b := by
  have hmem : b ∈ rowsOf (key b) (bs.map fun b => (key b, b)) :=
    mem_rowsOf.2 (List.mem_map_of_mem h)
  obtain ⟨b', hlast⟩ := Option.isSome_iff_exists.1
    (List.getLast?_isSome.2 (List.ne_nil_of_mem hmem))
  obtain ⟨c, -, heq⟩ := List.mem_map.1 (mem_rowsOf.1 (List.mem_of_getLast? hlast))
  obtain ⟨hkey, rfl⟩ := Prod.mk.inj heq
  exact ⟨c, mem_bucketBy_iff.2 (hkey ▸ hlast), hkey⟩

theorem nodup_bucketBy_keys : ((bucketBy key bs).map key).Nodup := by
  have hkeys : (bucketBy key bs).map key =
      (groupInto (fun b _ => b) (bs.map fun b => (key b, b))).map Prod.fst := by
    rw [bucketBy, List.map_map]
    refine List.map_congr_left fun e he => ?_
    obtain ⟨b, -, rfl⟩ := List.mem_map.1 (mem_of_mem_overwrite he)
    rfl
  rw [hkeys, List.Nodup, List.pairwise_map]
  exact uniqueEntries_groupInto

/-- **Nothing is lost exactly when the key separates what the rows have.**  Here `p` is what is
wanted of a row, and tells its key. -/
theorem forall_mem_bucketBy_iff {α : Type} {p : β → α} (hp : ∀ b b', p b = p b' → key b = key b') :
    (∀ b ∈ bs, ∃ b' ∈ bucketBy key bs, p b' = p b) ↔
      ∀ b ∈ bs, ∀ b' ∈ bs, key b = key b' → p b = p b' := by
  constructor
  · intro hall b hb b' hb' hkey
    obtain ⟨c, hc, hcb⟩ := hall b hb
    obtain ⟨c', hc', hcb'⟩ := hall b' hb'
    have hsame : c = c' := by
      refine eq_of_mem_bucketBy hc hc' ?_
      rw [hp c b hcb, hp c' b' hcb', hkey]
    rw [← hcb, ← hcb', hsame]
  · intro hsep b hb
    obtain ⟨b', hb', hkey⟩ : ∃ b' ∈ bucketBy key bs, key b' = key b := exists_mem_bucketBy hb
    exact ⟨b', hb', hsep b' (mem_of_mem_bucketBy hb') b hb hkey⟩

end ArgusSbomGuard
