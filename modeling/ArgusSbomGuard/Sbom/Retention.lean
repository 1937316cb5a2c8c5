import ArgusSbomGuard.Scan.Task

/-!
# Retention

`prune_sboms` of `services/retention.py`: SBOMs created before a cutoff are deleted, except the
latest of each scope.  The pruning of snapshots touches no table of the model and is left out.

The three statements delete what they should, `Retained`, in every state (`pruneSboms_retained`):
each of them evaluates the target again, but none changes it before the last one.

## Main definitions

* `pruneSboms` : `prune_sboms`.
* `Kept`, `Retained` : what has to survive, and the database in which only that has survived.
-/

namespace ArgusSbomGuard

/-- `date.today() - timedelta(days=days)`. -/
def daysBefore (today : Date) (days : ℕ) : Except PyError Date :=
  if 999999999 < days then .error .overflowError
  else if today - days < 1 ∨ 3652059 < today - days then .error .overflowError
  else .ok (today - days)

/-- The subquery `target`, evaluated by each of the three statements. -/
def pruneTarget (db : Database) (sbomCutoff : DateTime) : List Uuid :=
  (db.sboms.rows.filter fun s =>
    decide (1 < rowNumber (fun a b => a.scope == b.scope) laterSbom db.sboms.rows s) &&
      decide (s.createdAt < sbomCutoff)).map (·.id)

/-- `prune_sboms`, for a value of `settings.sbom_retention_days`. -/
def pruneSboms (db : Database) (sbomRetentionDays : Option ℕ) (today : Date) :
    Except PyError Database :=
  match sbomRetentionDays with
  | none => .ok db
  | some days => do
    let sbomCutoff := (← daysBefore today days).start
    -- children first, since their foreign keys do not cascade
    let db := db.deleteLinks fun l => (pruneTarget db sbomCutoff).contains l.sbomId
    let db := db.deleteDependencies fun d => (pruneTarget db sbomCutoff).contains d.sbomId
    db.deleteSboms fun s => (pruneTarget db sbomCutoff).contains s.id

variable {db db' : Database} {days : Option ℕ} {today : Date}

/-- Pruning deletes SBOMs with their links and dependencies, and nothing else. -/
theorem pruneSboms_eq_ok (h : pruneSboms db days today = .ok db') :
    ∃ target : List Uuid, db'.toTables = { db.toTables with
      links := db.links.deleteWhere fun l => target.contains l.sbomId
      dependencies := db.dependencies.deleteWhere fun d => target.contains d.sbomId
      sboms := db.sboms.deleteWhere fun s => target.contains s.id } := by
  cases days with
  | none =>
    cases h
    exact ⟨[], by simp [Table.deleteWhere]⟩
  | some days =>
    simp only [pruneSboms, bind_eq_ok] at h
    obtain ⟨d, -, h⟩ := h
    exact ⟨pruneTarget db d.start, Database.deleteSboms_eq_ok h⟩

/-! ### What survives -/

/-- The SBOM is the latest of its scope, or not created before the cutoff. -/
def Kept (db : Database) (cutoff : DateTime) (s : SBOM) : Prop :=
  IsLatest db s ∨ cutoff ≤ s.createdAt

instance (db : Database) (cutoff : DateTime) (s : SBOM) : Decidable (Kept db cutoff s) :=
  inferInstanceAs (Decidable (_ ∨ _))

/-- Of `db` exactly what has to be kept is left in `db'`. -/
structure Retained (db : Database) (cutoff : DateTime) (db' : Database) : Prop where
  frame : db'.toTables = { db.toTables with
    sboms := db'.sboms, links := db'.links, dependencies := db'.dependencies }
  sboms : db'.sboms.rows = db.sboms.rows.filter fun s => Kept db cutoff s
  links : db'.links.rows = db.links.rows.filter fun l => ∃ s ∈ db'.sboms, s.id = l.sbomId
  dependencies : db'.dependencies.rows =
    db.dependencies.rows.filter fun d => ∃ s ∈ db'.sboms, s.id = d.sbomId

variable {cutoff : DateTime} {s : SBOM}

/-- The subquery selects what need not be kept. -/
theorem mem_pruneTarget (hs : s ∈ db.sboms) :
    s.id ∈ pruneTarget db cutoff ↔ ¬ Kept db cutoff s := by
  have hrank : ∀ t : SBOM,
      1 < rowNumber (fun a b => a.scope == b.scope) laterSbom db.sboms.rows t ↔
        ¬ IsLatest db t := by
    intro t
    rw [← rowNumber_eq_one_iff_isLatest, rowNumber]
    omega
  simp only [pruneTarget, List.mem_map, List.mem_filter, Bool.and_eq_true, decide_eq_true_eq,
    hrank, Kept, not_or, not_le]
  constructor
  · rintro ⟨t, ⟨ht, hold⟩, hid⟩
    rwa [← Database.sbom_eq ht hs hid]
  · exact fun hold => ⟨s, ⟨hs, hold⟩, rfl⟩

/-- What a run that computes its cutoff does. -/
theorem pruneSboms_eq (db : Database) {days : ℕ} {d : Date} (hd : daysBefore today days = .ok d) :
    ∃ db', pruneSboms db (some days) today = .ok db' ∧ db'.toTables = { db.toTables with
      links := db.links.deleteWhere fun l => (pruneTarget db d.start).contains l.sbomId
      dependencies := db.dependencies.deleteWhere fun r =>
        (pruneTarget db d.start).contains r.sbomId
      sboms := db.sboms.deleteWhere fun s => (pruneTarget db d.start).contains s.id } := by
  obtain ⟨db', hdb'⟩ : ∃ db', pruneSboms db (some days) today = .ok db' := by
    simp only [pruneSboms, hd]
    -- the children of the target are gone when its SBOMs are deleted
    refine Database.deleteSboms_succeeds (fun r hr s _ hid => ?_) fun l hl s _ hid => ?_
    · rw [hid]
      exact (Table.mem_deleteWhere.1 hr).2
    · rw [hid]
      exact (Table.mem_deleteWhere.1 hl).2
  refine ⟨db', hdb', ?_⟩
  simp only [pruneSboms, hd] at hdb'
  exact Database.deleteSboms_eq_ok hdb'

/-- A row survives with its SBOM. -/
theorem contains_pruneTarget {i : Uuid} (hrow : ∃ s ∈ db.sboms, s.id = i)
    (hsboms : ∀ s, s ∈ db'.sboms ↔ s ∈ db.sboms ∧ Kept db cutoff s) :
    (!(pruneTarget db cutoff).contains i) = decide (∃ s ∈ db'.sboms, s.id = i) := by
  obtain ⟨s, hs, rfl⟩ := hrow
  rw [Bool.eq_iff_iff, Bool.not_eq_true', ← Bool.not_eq_true, List.contains_iff_mem,
    mem_pruneTarget hs, not_not, decide_eq_true_eq]
  constructor
  · exact fun hkept => ⟨s, (hsboms s).2 ⟨hs, hkept⟩, rfl⟩
  · rintro ⟨t, ht, hid⟩
    obtain ⟨ht, hkept⟩ := (hsboms t).1 ht
    rwa [← Database.sbom_eq ht hs hid]

theorem retained_of_tables (h : db'.toTables = { db.toTables with
      links := db.links.deleteWhere fun l => (pruneTarget db cutoff).contains l.sbomId
      dependencies := db.dependencies.deleteWhere fun r =>
        (pruneTarget db cutoff).contains r.sbomId
      sboms := db.sboms.deleteWhere fun s => (pruneTarget db cutoff).contains s.id }) :
    Retained db cutoff db' := by
  have hrows : db'.sboms.rows = db.sboms.rows.filter fun s => Kept db cutoff s := by
    rw [h]
    refine List.filter_congr fun s hs => ?_
    rw [Bool.eq_iff_iff, Bool.not_eq_true', ← Bool.not_eq_true, List.contains_iff_mem,
      mem_pruneTarget hs, not_not, decide_eq_true_eq]
  have hsboms : ∀ s, s ∈ db'.sboms ↔ s ∈ db.sboms ∧ Kept db cutoff s := by
    intro s
    rw [← Table.mem_rows, hrows, List.mem_filter, decide_eq_true_eq, Table.mem_rows]
  have hlinks : db'.links = db.links.deleteWhere fun l =>
      (pruneTarget db cutoff).contains l.sbomId := by rw [h]
  have hdependencies : db'.dependencies = db.dependencies.deleteWhere fun r =>
      (pruneTarget db cutoff).contains r.sbomId := by rw [h]
  refine ⟨by rw [h], hrows, ?_, ?_⟩
  · rw [hlinks]
    exact List.filter_congr fun l hl => contains_pruneTarget (db.linksSbom l hl) hsboms
  · rw [hdependencies]
    exact List.filter_congr fun d hd => contains_pruneTarget (db.dependenciesSbom d hd) hsboms

/-- A run that ends well computed its cutoff. -/
theorem retained_of_ok {days : ℕ} (h : pruneSboms db (some days) today = .ok db') :
    ∃ d, daysBefore today days = .ok d ∧ Retained db d.start db' := by
  cases hd : daysBefore today days with
  | ok d =>
    obtain ⟨_, hok, htables⟩ := pruneSboms_eq db hd
    obtain rfl := Except.ok.inj (hok.symm.trans h)
    exact ⟨d, rfl, retained_of_tables htables⟩
  | error e =>
    simp only [pruneSboms, hd] at h
    cases h

namespace Retained

theorem mem_sboms (h : Retained db cutoff db') :
    s ∈ db'.sboms ↔ s ∈ db.sboms ∧ Kept db cutoff s := by
  rw [← Table.mem_rows, h.sboms, List.mem_filter, decide_eq_true_eq, Table.mem_rows]

/-- The latest SBOM of a scope is the same before and after. -/
theorem isLatest_iff (h : Retained db cutoff db') (hs : s ∈ db'.sboms) :
    IsLatest db' s ↔ IsLatest db s := by
  constructor
  · intro hlast t ht hscope
    obtain ⟨L, hL, hLs, hLlast⟩ := exists_isLatest (h.mem_sboms.1 hs).1
    have hle : L.rank ≤ s.rank := hlast L (h.mem_sboms.2 ⟨hL, .inl hLlast⟩) hLs
    exact (hLlast t ht (hscope.trans hLs.symm)).trans hle
  · exact fun hlast t ht hscope => hlast t (h.mem_sboms.1 ht).1 hscope

/-- Every scope keeps its latest SBOM. -/
theorem exists_latest (h : Retained db cutoff db') (hs : s ∈ db.sboms) :
    ∃ L ∈ db'.sboms, L.scope = s.scope ∧ IsLatest db L := by
  obtain ⟨L, hL, hscope, hlast⟩ := exists_isLatest hs
  exact ⟨L, h.mem_sboms.2 ⟨hL, .inl hlast⟩, hscope, hlast⟩

theorem latestSbomIds_eq (h : Retained db cutoff db') : latestSbomIds db' = latestSbomIds db := by
  rw [latestSbomIds, latestSbomIds, h.sboms, List.filter_filter]
  refine congrArg (List.map _) (List.filter_congr fun s hs => ?_)
  rw [← h.sboms, Bool.eq_iff_iff, Bool.and_eq_true, decide_eq_true_eq, beq_iff_eq, beq_iff_eq,
    rowNumber_eq_one_iff_isLatest, rowNumber_eq_one_iff_isLatest]
  constructor
  · rintro ⟨hlast, hkept⟩
    exact (h.isLatest_iff (h.mem_sboms.2 ⟨hs, hkept⟩)).1 hlast
  · intro hlast
    exact ⟨(h.isLatest_iff (h.mem_sboms.2 ⟨hs, .inl hlast⟩)).2 hlast, .inl hlast⟩

/-- A second run with the same cutoff finds no target. -/
theorem pruneTarget_eq_nil (h : Retained db cutoff db') : pruneTarget db' cutoff = [] := by
  refine List.eq_nil_iff_forall_not_mem.2 fun i hi => ?_
  obtain ⟨s, hs, rfl⟩ := List.mem_map.1 hi
  have hmem : s ∈ db'.sboms := (List.mem_filter.1 hs).1
  refine (mem_pruneTarget hmem).1 hi ?_
  exact (h.mem_sboms.1 hmem).2.imp_left (h.isLatest_iff hmem).2

theorem pruneSboms_again (h : Retained db cutoff db') {days : ℕ} {d : Date}
    (hd : daysBefore today days = .ok d) (hcutoff : d.start = cutoff) :
    pruneSboms db' (some days) today = .ok db' := by
  obtain ⟨db'', hok, htables⟩ := pruneSboms_eq db' hd
  rw [hok]
  refine congrArg _ (Database.ext ?_)
  rw [htables, hcutoff, h.pruneTarget_eq_nil]
  simp [Table.deleteWhere]

end Retained

/-- `latest_sbom_ids` returns one identifier for each scope with an SBOM. -/
structure OnePerScope (db : Database) : Prop where
  nodup : (latestSbomIds db).Nodup
  unique : ∀ s ∈ db.sboms,
    ∃! L, L ∈ db.sboms ∧ L.scope = s.scope ∧ L.id ∈ latestSbomIds db

theorem onePerScope (db : Database) : OnePerScope db where
  nodup := List.pairwise_map.2 <|
    (db.sboms.unique.filter _).imp fun hne heq => hne (.inl heq)
  unique s hs := by
    have hlast : ∀ L ∈ db.sboms, L.id ∈ latestSbomIds db → IsLatest db L := by
      intro L hL hmem
      obtain ⟨t, ht, hid, hlast⟩ := mem_latestSbomIds.1 hmem
      rwa [← Database.sbom_eq ht hL hid]
    obtain ⟨L, hL, hscope, hLlast⟩ := exists_isLatest hs
    refine ⟨L, ⟨hL, hscope, mem_latestSbomIds.2 ⟨L, hL, rfl, hLlast⟩⟩, ?_⟩
    rintro L' ⟨hL', hscope', hmem'⟩
    exact (hlast L' hL' hmem').unique hLlast hL' hL (hscope'.trans hscope.symm)

/-- **Retention keeps exactly what it should.**  A run whose cutoff is no date deletes nothing. -/
theorem pruneSboms_retained (db : Database) (days : ℕ) (today : Date) :
    (∃ d db', daysBefore today days = .ok d ∧ pruneSboms db (some days) today = .ok db' ∧
      Retained db d.start db' ∧
      (∀ s ∈ db.sboms, ∃ L ∈ db'.sboms, L.scope = s.scope ∧ IsLatest db L) ∧
      latestSbomIds db' = latestSbomIds db ∧ OnePerScope db ∧
      ∀ today' days', daysBefore today' days' = .ok d →
        pruneSboms db' (some days') today' = .ok db') ∨
    (daysBefore today days = .error .overflowError ∧
      pruneSboms db (some days) today = .error .overflowError) := by
  cases hd : daysBefore today days with
  | ok d =>
    obtain ⟨db', hok, htables⟩ := pruneSboms_eq db hd
    have hret : Retained db d.start db' := retained_of_tables htables
    exact .inl ⟨d, db', rfl, hok, hret, fun s hs => hret.exists_latest hs, hret.latestSbomIds_eq,
      onePerScope db, fun today' days' hd' => hret.pruneSboms_again hd' rfl⟩
  | error e =>
    obtain rfl : e = .overflowError := by
      unfold daysBefore at hd
      split_ifs at hd <;> cases hd <;> rfl
    exact .inr ⟨rfl, by simp only [pruneSboms, hd]; rfl⟩

/-- Three SBOMs of one scope, of the third, the fifth and the eighth day, the first and the last
with a finding and a dependency. -/
def demoStoredRows : Except PyError Database := do
  let db ← Database.empty.insertProject ⟨1, "kept", "kept"⟩
  let db ← db.insertVulnerability
    ⟨2, "CVE-2024-1", none, none, none, none, none, none, [], none, .null⟩
  let db ← db.insertSbom ⟨3, 1, none, none, .null, "first", none, 300, Date.start 3, none⟩
  let db ← db.insertSbom ⟨5, 1, none, none, .null, "second", none, 500, Date.start 5, none⟩
  let db ← db.insertSbom ⟨8, 1, none, none, .null, "third", none, 400, Date.start 8, none⟩
  let db ← db.insertDependency ⟨3, "a", "1.0", none, none, none, true, .null⟩
  let db ← db.insertDependency ⟨8, "a", "1.1", none, none, none, true, .null⟩
  let db ← db.insertLink ⟨3, "a", 2, .OPEN, none, 300⟩
  db.insertLink ⟨8, "a", 2, .OPEN, none, 400⟩

def demoStored : Database := demoStoredRows.toOption.get (by decide +kernel)

/-- On the ninth day with two days of retention, the first SBOM goes with its rows.  The second is
the latest upload, and the third was created in time. -/
theorem pruneSboms_retained_demo : ∃ db', pruneSboms demoStored (some 2) 9 = .ok db' ∧
    Retained demoStored (Date.start 7) db' ∧
    demoStored.sboms.rows.map (·.id) = [3, 5, 8] ∧ db'.sboms.rows.map (·.id) = [5, 8] ∧
    db'.links.rows.map (·.sbomId) = [8] ∧ db'.dependencies.rows.map (·.sbomId) = [8] := by
  have hleft : (pruneSboms demoStored (some 2) 9).toOption.map (fun db' =>
      (db'.sboms.rows.map (·.id), db'.links.rows.map (·.sbomId),
        db'.dependencies.rows.map (·.sbomId))) = some ([5, 8], [8], [8]) := by decide +kernel
  rcases pruneSboms_retained demoStored 2 9 with ⟨d, db', hd, hok, hretained, -⟩ | ⟨herror, -⟩
  · obtain rfl : 7 = d := Except.ok.inj hd
    rw [hok] at hleft
    obtain ⟨hsboms, hrows⟩ := Prod.mk.inj (Option.some.inj hleft)
    obtain ⟨hlinks, hdependencies⟩ := Prod.mk.inj hrows
    exact ⟨db', hok, hretained, by decide +kernel, hsboms, hlinks, hdependencies⟩
  · cases herror

end ArgusSbomGuard
