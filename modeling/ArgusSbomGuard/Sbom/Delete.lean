import ArgusSbomGuard.Scan.Reconcile
import ArgusSbomGuard.Sbom.Upload
import Mathlib.Data.List.MinMax

/-!
# Deleting an SBOM

`delete_sbom` of `api/v1/sboms.py`.  After the SBOM is gone with its links and dependencies, all
fixed links of its scope are reopened and the latest remaining SBOM is reconciled again.  When
several SBOMs have the latest upload time the query's `LIMIT 1` returns any of them; the order
in which the database sees them is an input (`tie`).

The effect on every link is `DeleteEffect`: a remaining link of the scope ends closed when it is
superseded by a link-less latest SBOM, and open otherwise.
-/

namespace ArgusSbomGuard

/-- The condition, besides the identifier, of the two queries of `delete_sbom` for the SBOMs of
the same project and service or none. -/
def sameScope (sbom s : SBOM) : Bool :=
  s.serviceId == sbom.serviceId && s.projectId == sbom.projectId

/-- `latest_query`. -/
def latestRemaining (db : Database) (sbom : SBOM) (tie : Uuid → ℕ) : Option SBOM :=
  (db.sboms.rows.filter fun s => s.id != sbom.id && sameScope sbom s).argmax fun s =>
    toLex (s.uploadedAt, tie s.id)

/-- The query `older_ids`. -/
def remainingIds (db : Database) (sbom : SBOM) : List Uuid :=
  (db.sboms.rows.filter fun s => s.id != sbom.id && sameScope sbom s).map (·.id)

/-- The update of the loop of `delete_sbom`. -/
def reopenLinks (db : Database) (oid : Uuid) : Database :=
  db.updateLinks (fun l => l.sbomId == oid && l.status == .FIXED) (·.reopen) key_reopen

/-- `await db.delete(sbom)`: the links and the dependencies go first. -/
def deleteCascade (db : Database) (sbomId : Uuid) : Except PyError Database :=
  ((db.deleteLinks fun l => l.sbomId == sbomId).deleteDependencies fun d =>
    d.sbomId == sbomId).deleteSboms fun s => s.id == sbomId

/-- `delete_sbom`. -/
def deleteSbom (db : Database) (sbomId : Uuid) (tie : Uuid → ℕ) (now : DateTime) :
    Except ApiError Database :=
  match db.sboms.find? fun s => s.id == sbomId with
  | none => .error (.http 404 "SBOM not found")
  | some sbom =>
    -- picked before anything is deleted
    let latestSbom := latestRemaining db sbom tie
    match deleteCascade db sbomId with
    | .error e => .error (.unhandled e)
    | .ok db =>
      -- `older_ids` has no condition on the upload time: newer SBOMs and the latest are among them
      let db := (remainingIds db sbom).foldl reopenLinks db
      match latestSbom with
      | some latestSbom => .ok (db.writeAll (reconcileVulnerabilities db latestSbom now))
      | none => .ok db

/-! ### The links that remain -/

/-- The SBOM of the link is older than `latest`, which has no link, open or fixed, for the same
vulnerability. -/
def ClosedBy (db : Database) (latest : Option SBOM) (l : SBOMVulnerability) : Prop :=
  ∃ L ∈ latest, OlderThan db L l.sbomId ∧ ¬ db.LinkedOn L.id l.vulnerabilityId

/-- The link `l` of another SBOM before the deletion of `sbom` is `l'` after it. -/
def DeleteImage (db : Database) (sbom : SBOM) (latest : Option SBOM) (now : DateTime)
    (l l' : SBOMVulnerability) : Prop :=
  (ClosedBy db latest l ∧ l' = l.fix now) ∨
    (¬ ClosedBy db latest l ∧ InScope db sbom l.sbomId ∧
      l' = if l.status = .FIXED then l.reopen else l) ∨
    (¬ ClosedBy db latest l ∧ ¬ InScope db sbom l.sbomId ∧ l' = l)

/-- The effect of the deletion of `sbom` when `latest` is picked as the latest remaining one. -/
structure DeleteEffect (sbom : SBOM) (latest : Option SBOM) (now : DateTime)
    (db db' : Database) : Prop where
  frame : db'.toTables = { db.toTables with
    links := db'.links
    dependencies := db.dependencies.deleteWhere fun d => d.sbomId == sbom.id
    sboms := db.sboms.deleteWhere fun s => s.id == sbom.id }
  old : ∀ l ∈ db.links, l.sbomId ≠ sbom.id →
    ∃ l' ∈ db'.links, DeleteImage db sbom latest now l l'
  origin : ∀ l' ∈ db'.links, ∃ l ∈ db.links, l.sbomId ≠ sbom.id ∧
    DeleteImage db sbom latest now l l'

variable {db db' db₁ : Database} {sbom s : SBOM} {tie : Uuid → ℕ} {now : DateTime}

theorem DeleteImage.key {latest : Option SBOM} {l l' : SBOMVulnerability}
    (h : DeleteImage db sbom latest now l l') : l'.key = l.key := by
  rcases h with ⟨-, rfl⟩ | ⟨-, -, rfl⟩ | ⟨-, -, rfl⟩
  · rfl
  · split_ifs <;> rfl
  · rfl

theorem sameScope_iff : sameScope sbom s = true ↔ s.scope = sbom.scope := by
  rw [sameScope, Bool.and_eq_true, beq_iff_eq, beq_iff_eq, SBOM.scope, SBOM.scope,
    Prod.mk.injEq, and_comm]

theorem latestRemaining_eq_some {L : SBOM} (h : latestRemaining db sbom tie = some L) :
    L ∈ db.sboms ∧ L.id ≠ sbom.id ∧ L.scope = sbom.scope := by
  have hmem := List.argmax_mem (Option.mem_def.2 h)
  rw [List.mem_filter, Bool.and_eq_true, bne_iff_ne, sameScope_iff] at hmem
  exact hmem

theorem latestRemaining_congr (h : db'.sboms = db.sboms) :
    latestRemaining db' sbom tie = latestRemaining db sbom tie := by
  unfold latestRemaining
  rw [h]

/-- The SBOM picked is uploaded last, and last by `tie` among those. -/
theorem latestRemaining_max {L : SBOM} (h : latestRemaining db sbom tie = some L)
    (hs : s ∈ db.sboms) (hid : s.id ≠ sbom.id) (hscope : s.scope = sbom.scope) :
    toLex (s.uploadedAt, tie s.id) ≤ toLex (L.uploadedAt, tie L.id) := by
  refine List.le_of_mem_argmax (f := fun s : SBOM => toLex (s.uploadedAt, tie s.id)) ?_
    (Option.mem_def.2 h)
  rw [List.mem_filter, Bool.and_eq_true, bne_iff_ne, sameScope_iff]
  exact ⟨hs, hid, hscope⟩

theorem latestRemaining_eq_none (h : latestRemaining db sbom tie = none) (hs : s ∈ db.sboms)
    (hid : s.id ≠ sbom.id) : s.scope ≠ sbom.scope := by
  intro hscope
  have hnil := List.argmax_eq_none.1 h
  rw [List.filter_eq_nil_iff] at hnil
  refine hnil s hs ?_
  rw [Bool.and_eq_true, bne_iff_ne, sameScope_iff]
  exact ⟨hid, hscope⟩

/-! ### The parts of the deletion -/

theorem deleteCascade_eq_ok (h : deleteCascade db sbom.id = .ok db₁) :
    db₁.toTables = { db.toTables with
      links := db.links.deleteWhere fun l => l.sbomId == sbom.id
      dependencies := db.dependencies.deleteWhere fun d => d.sbomId == sbom.id
      sboms := db.sboms.deleteWhere fun s => s.id == sbom.id } :=
  Database.deleteSboms_eq_ok h

theorem deleteCascade_succeeds (i : Uuid) : ∃ db₁, deleteCascade db i = .ok db₁ := by
  refine Database.deleteSboms_succeeds (fun d hd s _ hid => ?_) (fun l hl s _ hid => ?_)
  · rw [hid]
    exact (Table.mem_deleteWhere.1 hd).2
  · rw [hid]
    exact (Table.mem_deleteWhere.1 hl).2

/-- The loop of `delete_sbom` is one update. -/
theorem foldl_reopenLinks_updated (ids : List Uuid) :
    Database.LinksUpdated (fun l => l.sbomId ∈ ids ∧ l.status = .FIXED) (·.reopen) db
      (ids.foldl reopenLinks db) := by
  -- by induction on the SBOMs of the loop; what one round reopens is not fixed in the next
  induction ids generalizing db with
  | nil => exact Database.LinksUpdated.refl fun l _ hl => List.not_mem_nil hl.1
  | cons i ids ih =>
    have hone : Database.LinksUpdated (fun l => l.sbomId = i ∧ l.status = .FIXED) (·.reopen) db
        (reopenLinks db i) :=
      (Database.updateLinks_updated key_reopen).congr fun a _ => by
        rw [Bool.and_eq_true, beq_iff_eq, beq_iff_eq]
    refine (hone.trans ih fun a _ _ hfixed => nomatch hfixed.2).congr fun a _ => ?_
    rw [List.mem_cons, or_and_right]

/-- The parts of the deletion of `sbom`: `db₁` is the database after the cascade, `db₂` after the
loop, and `latest` the SBOM that is reconciled. -/
structure DeleteParts (sbom : SBOM) (latest : Option SBOM) (now : DateTime)
    (db db₁ db₂ db' : Database) : Prop where
  cascade : deleteCascade db sbom.id = .ok db₁
  picked : ∀ L ∈ latest, L ∈ db.sboms ∧ L.id ≠ sbom.id ∧ L.scope = sbom.scope
  reopened : Database.LinksUpdated (fun l => InScope db sbom l.sbomId ∧ l.status = .FIXED)
    (·.reopen) db₁ db₂
  closed : Database.LinksUpdated (fun l => ∃ L ∈ latest, Superseded db₂ L l) (·.fix now) db₂ db'

namespace DeleteParts

variable {db₂ : Database} {latest : Option SBOM} {a b c : SBOMVulnerability}
  (h : DeleteParts sbom latest now db db₁ db₂ db')
include h

theorem mem_links : a ∈ db₁.links ↔ a ∈ db.links ∧ a.sbomId ≠ sbom.id := by
  rw [deleteCascade_eq_ok h.cascade, Table.mem_deleteWhere, beq_eq_false_iff_ne]

theorem olderThan {L : SBOM} {i : Uuid} (hi : i ≠ sbom.id) :
    OlderThan db₂ L i ↔ OlderThan db L i := by
  unfold OlderThan
  rw [h.reopened.sboms, deleteCascade_eq_ok h.cascade]
  refine exists_congr fun s => ?_
  rw [Table.mem_deleteWhere, beq_eq_false_iff_ne]
  exact ⟨fun hs => ⟨hs.1.1, hs.2⟩, fun hs => ⟨⟨hs.1, hs.2.2.trans_ne hi⟩, hs.2⟩⟩

/-- Once the loop has reopened it, a link of the latest SBOM is open, whatever it was. -/
theorem openOn_latest {L : SBOM} {v : Uuid} (hL : L ∈ latest) :
    db₂.OpenOn L.id v ↔ db.LinkedOn L.id v := by
  obtain ⟨hLdb, hLid, hLscope⟩ := h.picked L hL
  constructor
  · rintro ⟨b, hb, hs, hv, -⟩
    obtain ⟨a, ha, ⟨-, rfl⟩ | ⟨-, rfl⟩⟩ := (h.reopened.mem b).1 hb
    · exact ⟨a, (h.mem_links.1 ha).1, hs, hv⟩
    · exact ⟨a, (h.mem_links.1 ha).1, hs, hv⟩
  · rintro ⟨a, ha, hs, hv⟩
    have ha₁ : a ∈ db₁.links := h.mem_links.2 ⟨ha, hs.trans_ne hLid⟩
    cases hst : a.status with
    | OPEN =>
      have hno : ¬ (InScope db sbom a.sbomId ∧ a.status = .FIXED) := fun hfixed =>
        nomatch hst.symm.trans hfixed.2
      exact ⟨a, h.reopened.kept ha₁ hno, hs, hv, hst⟩
    | FIXED =>
      have hin : InScope db sbom a.sbomId := ⟨L, hLdb, hLscope, hs.symm⟩
      exact ⟨a.reopen, h.reopened.changed ha₁ ⟨hin, hst⟩, hs, hv, rfl⟩

/-- A link of the scope is open after the loop, so that only the other conditions of the
reconciliation count. -/
theorem superseded_iff (hown : ServiceOwned db) (hid : a.sbomId ≠ sbom.id) (hkey : b.key = a.key)
    (hst : InScope db sbom a.sbomId → b.status = .OPEN) :
    (∃ L ∈ latest, Superseded db₂ L b) ↔ ClosedBy db latest a := by
  have hs : b.sbomId = a.sbomId := congrArg (·.1) hkey
  have hv : b.vulnerabilityId = a.vulnerabilityId := congrArg (·.2.2) hkey
  refine exists_congr fun L => and_congr_right fun hL => ?_
  obtain ⟨hLdb, -, hLscope⟩ := h.picked L hL
  rw [Superseded, hs, hv, h.olderThan hid, h.openOn_latest hL]
  refine and_congr_right fun hold => and_iff_right (hst ?_)
  exact inScope_of_olderThan hown hLdb hLscope hold

/-- The link `a` becomes `b` in the loop and `c` in the reconciliation. -/
theorem image (hown : ServiceOwned db) (hid : a.sbomId ≠ sbom.id)
    (hab : ((InScope db sbom a.sbomId ∧ a.status = .FIXED) ∧ a.reopen = b) ∨
      (¬ (InScope db sbom a.sbomId ∧ a.status = .FIXED) ∧ a = b))
    (hbc : ((∃ L ∈ latest, Superseded db₂ L b) ∧ b.fix now = c) ∨
      (¬ (∃ L ∈ latest, Superseded db₂ L b) ∧ b = c)) :
    DeleteImage db sbom latest now a c := by
  rcases hab with ⟨⟨hin, hst⟩, rfl⟩ | ⟨hno, rfl⟩
  · rw [h.superseded_iff hown hid (key_reopen a) fun _ => rfl] at hbc
    rcases hbc with ⟨hcl, rfl⟩ | ⟨hcl, rfl⟩
    · exact .inl ⟨hcl, rfl⟩
    · exact .inr (.inl ⟨hcl, hin, (if_pos hst).symm⟩)
  · have hst : InScope db sbom a.sbomId → a.status = .OPEN := fun hin => by
      cases hs : a.status with
      | OPEN => rfl
      | FIXED => exact absurd ⟨hin, hs⟩ hno
    rw [h.superseded_iff hown hid rfl hst] at hbc
    rcases hbc with ⟨hcl, rfl⟩ | ⟨hcl, rfl⟩
    · exact .inl ⟨hcl, rfl⟩
    · by_cases hin : InScope db sbom a.sbomId
      · exact .inr (.inl ⟨hcl, hin, by rw [hst hin]; rfl⟩)
      · exact .inr (.inr ⟨hcl, hin, rfl⟩)

/-- The parts of the deletion, composed. -/
theorem effect (hown : ServiceOwned db) : DeleteEffect sbom latest now db db' where
  frame := by rw [h.closed.frame, h.reopened.frame, deleteCascade_eq_ok h.cascade]
  old a ha hid := by
    obtain ⟨b, hb, hab⟩ := h.reopened.image (h.mem_links.2 ⟨ha, hid⟩)
    obtain ⟨c, hc, hbc⟩ := h.closed.image hb
    exact ⟨c, hc, h.image hown hid hab hbc⟩
  origin c hc := by
    obtain ⟨b, hb, hbc⟩ := (h.closed.mem c).1 hc
    obtain ⟨a, ha, hab⟩ := (h.reopened.mem b).1 hb
    obtain ⟨ha, hid⟩ := h.mem_links.1 ha
    exact ⟨a, ha, hid, h.image hown hid hab hbc⟩

end DeleteParts

/-- The SBOMs the loop goes through are those of the scope that are left. -/
theorem mem_remainingIds (hcascade : deleteCascade db sbom.id = .ok db₁) {i : Uuid} :
    i ∈ remainingIds db₁ sbom ↔ i ≠ sbom.id ∧ InScope db sbom i := by
  simp only [remainingIds, List.mem_map, List.mem_filter, Bool.and_eq_true, bne_iff_ne,
    sameScope_iff, Table.mem_rows, InScope]
  rw [deleteCascade_eq_ok hcascade]
  simp only [Table.mem_deleteWhere, beq_eq_false_iff_ne]
  constructor
  · rintro ⟨s, ⟨⟨hs, hne⟩, -, hscope⟩, rfl⟩
    exact ⟨hne, s, hs, hscope, rfl⟩
  · rintro ⟨hne, s, hs, hscope, rfl⟩
    exact ⟨s, ⟨⟨hs, hne⟩, hne, hscope⟩, rfl⟩

/-- What the deletion did when the service of every SBOM belongs to its project. -/
theorem deleteSbom_eq_ok {sbomId : Uuid} (hown : ServiceOwned db)
    (h : deleteSbom db sbomId tie now = .ok db') :
    ∃ sbom ∈ db.sboms, sbom.id = sbomId ∧
      DeleteEffect sbom (latestRemaining db sbom tie) now db db' := by
  unfold deleteSbom at h
  split at h
  · cases h
  rename_i sbom hfind
  obtain ⟨hsbom, hid⟩ := Table.mem_of_find? hfind
  obtain rfl := beq_iff_eq.1 hid
  refine ⟨sbom, hsbom, rfl, ?_⟩
  dsimp only at h
  split at h
  · cases h
  rename_i db₁ hcascade
  have hreopened : Database.LinksUpdated
      (fun l => InScope db sbom l.sbomId ∧ l.status = .FIXED) (·.reopen) db₁
      ((remainingIds db₁ sbom).foldl reopenLinks db₁) := by
    refine (foldl_reopenLinks_updated _).congr fun l hl => ?_
    rw [deleteCascade_eq_ok hcascade, Table.mem_deleteWhere, beq_eq_false_iff_ne] at hl
    rw [mem_remainingIds hcascade, and_iff_right hl.2]
  refine DeleteParts.effect ⟨hcascade, fun L hL => latestRemaining_eq_some hL, hreopened, ?_⟩ hown
  split at h
  · rename_i L hL
    obtain rfl := Except.ok.inj h
    rw [hL]
    refine reconcileVulnerabilities_updated.congr fun l _ => ?_
    simp
  · rename_i hnone
    obtain rfl := Except.ok.inj h
    rw [hnone]
    exact Database.LinksUpdated.refl fun l _ => by simp

/-- A stored SBOM can be deleted. -/
theorem deleteSbom_succeeds (hsbom : sbom ∈ db.sboms) (tie : Uuid → ℕ) (now : DateTime) :
    ∃ db', deleteSbom db sbom.id tie now = .ok db' := by
  obtain ⟨db₁, hcascade⟩ : ∃ db₁, deleteCascade db sbom.id = .ok db₁ :=
    deleteCascade_succeeds sbom.id
  unfold deleteSbom
  rw [Table.find?_eq_some hsbom (by simp) fun a ha => .inl (beq_iff_eq.1 ha)]
  simp only [hcascade]
  split
  · exact ⟨_, rfl⟩
  · exact ⟨_, rfl⟩

end ArgusSbomGuard
