import ArgusSbomGuard.Transition.Concurrent
import ArgusSbomGuard.Scan.Refresh
import ArgusSbomGuard.System.World

/-!
# Concurrent scans and the affected packages

The rows of `vulnerabilities` are shared by all scans.  For each match `_upsert_vulnerability` looks
the row of the CVE up, inserts it when there is none, changes the object it got, and lets the
session write the changed columns with the next flush.  `affected_packages` is one of these columns:
the new list is computed from the object, so a package that another scan added in between is
overwritten (`package_lost`).  In the runs in which no list is written over a package that the scan
neither had read nor reports, no package is lost (`packages_kept`).

Only the statements on `vulnerabilities` are steps here: those on links neither read these rows nor
change them.

## Main definitions

* `CveRows`, `RowWrite` : the rows by CVE id, and the statements that change one.
* `upsertRoutine` : the steps of a scan.
* `ScanTask.Reported` : what the report of a scan says.
* `OverwritesOwn` : the condition on a move.
* `Progress` : what holds of a scan between two steps.
-/

namespace ArgusSbomGuard

/-! ### Rows -/

/-- The rows of `vulnerabilities`, by CVE id. -/
abbrev CveRows := String → Option Vulnerability

/-- The rows of a database. -/
def Database.cveRows (db : Database) : CveRows := fun c =>
  db.vulnerabilities.find? fun v => v.cveId == c

/-- `x == y` for scores. -/
def sameScore : Option PyFloat → Option PyFloat → Bool
  | none, none => true
  | some x, some y => x.pyEq y
  | _, _ => false

/-- The session finds no column to write. -/
def Vulnerability.unchanged (old now : Vulnerability) : Bool :=
  old.severity == now.severity && sameScore old.cvssScore now.cvssScore &&
    sameScore old.epssScore now.epssScore && sameScore old.epssPercentile now.epssPercentile &&
    old.summary == now.summary && old.affectedPackages == now.affectedPackages &&
    old.publishedAt == now.publishedAt && old.extraData.pyEq now.extraData

/-- The row after the `UPDATE` of an object: only the columns that changed are written. -/
def Vulnerability.assignChanged (old now row : Vulnerability) : Vulnerability :=
  { row with
    severity := if old.severity = now.severity then row.severity else now.severity
    cvssScore := if sameScore old.cvssScore now.cvssScore then row.cvssScore else now.cvssScore
    epssScore := if sameScore old.epssScore now.epssScore then row.epssScore else now.epssScore
    epssPercentile := if sameScore old.epssPercentile now.epssPercentile then row.epssPercentile
      else now.epssPercentile
    summary := if old.summary = now.summary then row.summary else now.summary
    affectedPackages := if old.affectedPackages = now.affectedPackages then row.affectedPackages
      else now.affectedPackages
    publishedAt := if old.publishedAt = now.publishedAt then row.publishedAt else now.publishedAt
    extraData := if old.extraData.pyEq now.extraData then row.extraData else now.extraData }

/-- The statements that change a row. -/
inductive RowWrite
  | insert (v : Vulnerability)
  | update (cveId : String) (old now : Vulnerability)

/-- The row that the statement changes. -/
def RowWrite.cveId : RowWrite → String
  | .insert v => v.cveId
  | .update c _ _ => c

/-- The row after the statement. -/
def RowWrite.act : RowWrite → Option Vulnerability → Option Vulnerability
  | .insert v, none => some v
  | .insert _, some row => some row
  | .update _ old now, row => row.map fun row => old.assignChanged now row

/-! ### A scan -/

/-- The message of a task, with what its scan gets from outside. -/
structure ScanTask where
  sbomId : String
  inp : ScanInput

variable (env : Env)

/-- The report that the scan of a task works with, if it gets that far. -/
def ScanTask.report (db : Database) (t : ScanTask) : Option Json := do
  let sbomUuid ← env.parseUuid t.sbomId
  let sbom ← db.sboms.find? fun s => s.id == sbomUuid
  scanReport env sbom t.inp.grype

/-- The assignments at the end of `_upsert_vulnerability`. -/
def Refresh.assign (u : Refresh) (v : Vulnerability) : Vulnerability :=
  refreshVulnerability u.m u.cvss u.epss u.percentile u.description v

/-- The next step of a scan; `ms` are the matches still to be processed. -/
inductive UpsertPc
  | start
  /-- `held` is the object of the last match, with its CVE id. -/
  | lookup (ms : List Json) (held : Option (String × Vulnerability))
  | insert (u : Refresh) (ms : List Json)
  | update (u : Refresh) (old : Vulnerability) (ms : List Json)

/-- What a lookup returns: the session keeps only the object of the last match alive, and does not
refresh it with the row. -/
def lookupObject (held : Option (String × Vulnerability)) (rows : CveRows) (c : String) :
    Option Vulnerability :=
  (rows c).map fun row => match held with
    | some (c', v) => if c' = c then v else row
    | none => row

/-- The row that `_upsert_vulnerability` inserts. -/
def insertedRow (t : ScanTask) (u : Refresh) : Except PyError Vulnerability := do
  let summary ← textParam (← u.m.vulnData.get "description" (.str ""))
  if u.m.vulnData.storable then
    return newVulnerability (t.inp.newId u.m.vulnId) u.m u.cvss u.epss u.percentile summary
  else throw .dataError

/-- One step of the scan of a task on what its transaction sees. -/
def upsertRoutine (db : Database) (t : ScanTask) : UpsertPc → CveRows → Outcome RowWrite UpsertPc
  | .start, _ => match t.report env db with
    | none => .rollback
    | some report => match reportMatches report with
      | .ok ms => .next [] (.lookup ms none)
      | .error _ => .rollback
  -- the links are retired and reconciled before the commit
  | .lookup [] _, _ => .commit
  | .lookup (m :: ms) held, rows => match parseMatch env m with
    | .ok none => .next [] (.lookup ms held)
    | .ok (some g) => match readRefresh g with
      | .ok u => match lookupObject held rows g.vulnId with
        | some old => .next [] (.update u old ms)
        | none => .next [] (.insert u ms)
      | .error _ => .rollback
    | .error _ => .rollback
  | .insert u ms, rows => match rows u.m.vulnId with
    -- another scan has inserted the row: the savepoint is rolled back and the row selected again
    | some row => .next [] (.update u row ms)
    | none => match insertedRow t u with
      | .ok row => .next [.insert row] (.update u row ms)
      | .error _ => .rollback
  | .update u old ms, _ =>
    let now := u.assign old
    if old.unchanged now then .next [] (.lookup ms (some (u.m.vulnId, now)))
    else if u.m.vulnData.storable then
      .next [.update u.m.vulnId old now] (.lookup ms (some (u.m.vulnId, now)))
    else .rollback

variable {ι : Type}

/-- Scans on shared rows; two statements on one row wait for each other. -/
def scanTransactions (db : Database) (tasks : ι → ScanTask) :
    Transactions ι CveRows RowWrite UpsertPc where
  write := writeAt RowWrite.cveId RowWrite.act
  routine i := upsertRoutine env db (tasks i)
  Conflict w w' := w.cveId = w'.cveId
  decConflict _ _ := inferInstance

/-- The report of the task names the package for the CVE. -/
def ScanTask.Reported (db : Database) (t : ScanTask) (purl c : String) : Prop :=
  ∃ report, t.report env db = some report ∧ Reports report purl c

/-- The update that is the next statement of a scan, with the object before it. -/
def nextUpdate : Status UpsertPc → Option (Refresh × Vulnerability)
  | .running (.update u old _) => some (u, old)
  | _ => none

/-- A list of packages is written over a row only if the scan has read every package of the row, or
reports it. -/
def OverwritesOwn (db : Database) (tasks : ι → ScanTask) (s : Shared ι CveRows RowWrite UpsertPc) :
    Move ι → Prop
  | .step i => ∀ w, nextUpdate (s.txns i).status = some w →
    w.2.affectedPackages ≠ (w.1.assign w.2).affectedPackages →
      ∀ row, (scanTransactions env db tasks).view s i w.1.m.vulnId = some row →
        ∀ purl ∈ row.affectedPackages,
          purl ∈ w.2.affectedPackages ∨ (tasks i).Reported env db purl w.1.m.vulnId
  | .abort _ => True

instance (j : Json) (s : String) : Decidable (j = .str s) :=
  match j with
  | .str t => decidable_of_iff (t = s) ⟨congrArg _, Json.str.inj⟩
  | .null => .isFalse nofun
  | .bool _ => .isFalse nofun
  | .int _ => .isFalse nofun
  | .float _ => .isFalse nofun
  | .arr _ => .isFalse nofun
  | .obj _ => .isFalse nofun

instance (report : Json) (purl c : String) : Decidable (Reports report purl c) :=
  inferInstanceAs (Decidable (∃ m ∈ report.matches,
    ((m.field "vulnerability").field "id" = .str c ∧ c ≠ "") ∧
      (m.field "artifact").field "purl" = .str purl ∧ purl ≠ ""))

instance (db : Database) (t : ScanTask) (purl c : String) :
    Decidable (t.Reported env db purl c) :=
  inferInstanceAs (Decidable (∃ report, t.report env db = some report ∧ Reports report purl c))

instance (db : Database) (tasks : ι → ScanTask) (s : Shared ι CveRows RowWrite UpsertPc)
    (m : Move ι) : Decidable (OverwritesOwn env db tasks s m) :=
  match m with
  | .step i => inferInstanceAs (Decidable (∀ w, nextUpdate (s.txns i).status = some w → _))
  | .abort _ => .isTrue trivial

/-! ### What the steps do -/

/-- The packages of the row. -/
def packages (rows : CveRows) (c : String) : List String :=
  (rows c).elim [] (·.affectedPackages)

theorem mem_packages {rows : CveRows} {purl c : String} :
    purl ∈ packages rows c ↔ ∃ row, rows c = some row ∧ purl ∈ row.affectedPackages := by
  unfold packages
  cases rows c with
  | none => simp
  | some row => simp

/-- No row and no package of a row is gone. -/
def Grows (rows rows' : CveRows) : Prop :=
  ∀ c row, rows c = some row →
    ∃ row', rows' c = some row' ∧ row.affectedPackages ⊆ row'.affectedPackages

theorem Grows.packages {rows rows' : CveRows} (h : Grows rows rows') (c : String) :
    packages rows c ⊆ packages rows' c := by
  intro purl hp
  obtain ⟨row, hrow, hp⟩ := mem_packages.1 hp
  obtain ⟨row', hrow', hsub⟩ := h c row hrow
  exact mem_packages.2 ⟨row', hrow', hsub hp⟩

theorem subset_assign {u : Refresh} {v : Vulnerability} :
    v.affectedPackages ⊆ (u.assign v).affectedPackages := by
  intro purl hp
  simp only [Refresh.assign, refreshVulnerability]
  split_ifs
  · exact hp
  · exact List.mem_append_left _ hp

theorem mem_assign {u : Refresh} {v : Vulnerability} (h : u.m.purl ≠ "") :
    u.m.purl ∈ (u.assign v).affectedPackages := by
  simp only [Refresh.assign, refreshVulnerability]
  split_ifs with hin
  · exact hin.resolve_left h
  · exact List.mem_append_right _ (List.mem_singleton.2 rfl)

theorem affectedPackages_of_unchanged {old now : Vulnerability} (h : old.unchanged now = true) :
    old.affectedPackages = now.affectedPackages := by
  simp only [Vulnerability.unchanged, Bool.and_eq_true, beq_iff_eq] at h
  exact h.1.1.2

variable {env} {db : Database} {t : ScanTask} {rows rows' store store' : CveRows}

theorem insertedRow_eq_ok {u : Refresh} {row : Vulnerability} (h : insertedRow t u = .ok row) :
    row.cveId = u.m.vulnId ∧
      row.affectedPackages = if u.m.purl = "" then [] else [u.m.purl] := by
  obtain ⟨description, -, h⟩ := bind_eq_ok.1 h
  obtain ⟨summary, -, h⟩ := bind_eq_ok.1 h
  split_ifs at h
  obtain rfl := Except.ok.inj h
  exact ⟨rfl, rfl⟩

/-- The steps in which a scan goes on. -/
theorem upsertRoutine_next {pc pc' : UpsertPc} {ws : List RowWrite}
    (h : upsertRoutine env db t pc rows = .next ws pc') :
    (∃ report ms, pc = .start ∧ t.report env db = some report ∧ reportMatches report = .ok ms ∧
        ws = [] ∧ pc' = .lookup ms none) ∨
    (∃ m ms held, pc = .lookup (m :: ms) held ∧ parseMatch env m = .ok none ∧
        ws = [] ∧ pc' = .lookup ms held) ∨
    (∃ m ms held u, pc = .lookup (m :: ms) held ∧ parseMatch env m = .ok (some u.m) ∧
        ((∃ old, lookupObject held rows u.m.vulnId = some old ∧ ws = [] ∧ pc' = .update u old ms) ∨
          (lookupObject held rows u.m.vulnId = none ∧ ws = [] ∧ pc' = .insert u ms))) ∨
    (∃ u ms row, pc = .insert u ms ∧ pc' = .update u row ms ∧
        ((rows u.m.vulnId = some row ∧ ws = []) ∨
          (rows u.m.vulnId = none ∧ insertedRow t u = .ok row ∧ ws = [.insert row]))) ∨
    (∃ u old ms, pc = .update u old ms ∧
        pc' = .lookup ms (some (u.m.vulnId, u.assign old)) ∧
        ((old.unchanged (u.assign old) = true ∧ ws = []) ∨
          ws = [.update u.m.vulnId old (u.assign old)])) := by
  cases pc with
  | start =>
    simp only [upsertRoutine] at h
    split at h
    · cases h
    rename_i report hreport
    split at h <;> cases h
    rename_i ms hms
    exact .inl ⟨report, ms, rfl, hreport, hms, rfl, rfl⟩
  | lookup ms held =>
    cases ms with
    | nil => cases h
    | cons m ms =>
      simp only [upsertRoutine] at h
      split at h
      · rename_i hparse
        cases h
        exact .inr (.inl ⟨m, ms, held, rfl, hparse, rfl, rfl⟩)
      · rename_i g hparse
        split at h
        · rename_i u hu
          obtain rfl := m_of_readRefresh hu
          refine .inr (.inr (.inl ⟨m, ms, held, u, rfl, hparse, ?_⟩))
          split at h <;> cases h
          · rename_i old hold
            exact .inl ⟨old, hold, rfl, rfl⟩
          · rename_i hnone
            exact .inr ⟨hnone, rfl, rfl⟩
        · cases h
      · cases h
  | insert u ms =>
    simp only [upsertRoutine] at h
    split at h
    · rename_i row hrow
      cases h
      exact .inr (.inr (.inr (.inl ⟨u, ms, row, rfl, rfl, .inl ⟨hrow, rfl⟩⟩)))
    · rename_i hnone
      split at h <;> cases h
      rename_i row hrow
      exact .inr (.inr (.inr (.inl ⟨u, ms, row, rfl, rfl, .inr ⟨hnone, hrow, rfl⟩⟩)))
  | update u old ms =>
    simp only [upsertRoutine] at h
    split_ifs at h with hsame hstorable
    · cases h
      exact .inr (.inr (.inr (.inr ⟨u, old, ms, rfl, rfl, .inl ⟨hsame, rfl⟩⟩)))
    · cases h
      exact .inr (.inr (.inr (.inr ⟨u, old, ms, rfl, rfl, .inr rfl⟩)))

/-- A scan commits when no match is left. -/
theorem upsertRoutine_commit {pc : UpsertPc} (h : upsertRoutine env db t pc rows = .commit) :
    ∃ held, pc = .lookup [] held := by
  cases pc with
  | start =>
    simp only [upsertRoutine] at h
    split at h
    · cases h
    · split at h <;> cases h
  | lookup ms held =>
    cases ms with
    | nil => exact ⟨held, rfl⟩
    | cons m ms =>
      simp only [upsertRoutine] at h
      split at h
      · cases h
      · split at h
        · split at h <;> cases h
        · cases h
      · cases h
  | insert u ms =>
    simp only [upsertRoutine] at h
    split at h
    · cases h
    · split at h <;> cases h
  | update u old ms =>
    simp only [upsertRoutine] at h
    split_ifs at h

/-! ### One scan -/

/-- The object that the session holds. -/
def UpsertPc.object : UpsertPc → Option (String × Vulnerability)
  | .start => none
  | .lookup _ held => held
  | .insert _ _ => none
  | .update u old _ => some (u.m.vulnId, old)

/-- Some match still to be processed names the package for the CVE. -/
def UpsertPc.Ahead (purl c : String) : UpsertPc → Prop
  | .start => True
  | .lookup ms _ => ∃ m ∈ ms, MatchesCve m c ∧ MatchesPurl m purl
  | .insert u ms => (u.m.vulnId = c ∧ u.m.purl = purl) ∨
      ∃ m ∈ ms, MatchesCve m c ∧ MatchesPurl m purl
  | .update u _ ms => (u.m.vulnId = c ∧ u.m.purl = purl) ∨
      ∃ m ∈ ms, MatchesCve m c ∧ MatchesPurl m purl

/-- The packages of the row as the scan knows them: those of its object, if it holds one. -/
def known (object : Option (String × Vulnerability)) (rows : CveRows) (c : String) : List String :=
  match object with
  | some (c', v) => if c' = c then v.affectedPackages else packages rows c
  | none => packages rows c

theorem known_self {rows : CveRows} {c : String} {v : Vulnerability} :
    known (some (c, v)) rows c = v.affectedPackages :=
  if_pos rfl

theorem known_other {rows : CveRows} {c c' : String} {v : Vulnerability} (h : c' ≠ c) :
    known (some (c', v)) rows c = packages rows c :=
  if_neg h

/-- The object that is held has no package that its row has not. -/
def Behind (object : Option (String × Vulnerability)) (rows : CveRows) : Prop :=
  ∀ c v, object = some (c, v) →
    ∃ row, rows c = some row ∧ v.affectedPackages ⊆ row.affectedPackages

theorem behind_none {rows : CveRows} : Behind none rows := by
  intro c v h
  cases h

theorem Behind.known_subset {object : Option (String × Vulnerability)} (h : Behind object rows)
    (c : String) : known object rows c ⊆ packages rows c := by
  intro purl hp
  rcases object with _ | ⟨c', v⟩
  · exact hp
  · by_cases hc : c' = c
    · subst hc
      rw [known_self] at hp
      obtain ⟨row, hrow, hsub⟩ := h c' v rfl
      exact mem_packages.2 ⟨row, hrow, hsub hp⟩
    · rwa [known_other hc] at hp

/-- What holds of a scan between two steps, on the rows as its transaction sees them: the pairs of
its report are stored or ahead, and what is stored is seen, or reported. -/
structure Progress (P : String → String → Prop) (store rows : CveRows) (pc : UpsertPc) : Prop where
  behind : Behind pc.object rows
  todo : ∀ purl c, P purl c → pc.Ahead purl c ∨ purl ∈ known pc.object rows c
  kept : ∀ c row, store c = some row → ∃ row', rows c = some row' ∧
    ∀ purl ∈ row.affectedPackages, purl ∈ row'.affectedPackages ∨ P purl c

namespace Progress

variable {P : String → String → Prop} {m : Json} {ms : List Json} {u : Refresh}
  {old row : Vulnerability} {held : Option (String × Vulnerability)}

/-- A scan that begins. -/
theorem begin : Progress P store store .start where
  behind := behind_none
  todo _ _ _ := .inl trivial
  kept _ row hrow := ⟨row, hrow, fun _ hp => .inl hp⟩

theorem start {report : Json} (h : Progress P store rows .start)
    (hP : ∀ purl c, P purl c → Reports report purl c) (hms : reportMatches report = .ok ms) :
    Progress P store rows (.lookup ms none) where
  behind := behind_none
  todo purl c hp := by
    obtain ⟨m, hm, hmatch⟩ := hP purl c hp
    rcases reportMatches_eq_ok hms with rfl | ⟨hnil, -⟩
    · exact .inl ⟨m, hm, hmatch⟩
    · rw [hnil] at hm
      exact absurd hm List.not_mem_nil
  kept := h.kept

theorem skip (h : Progress P store rows (.lookup (m :: ms) held))
    (hparse : parseMatch env m = .ok none) : Progress P store rows (.lookup ms held) where
  behind := h.behind
  todo purl c hp := by
    refine (h.todo purl c hp).imp_left fun ⟨m', hm', hmatch⟩ => ?_
    rcases List.mem_cons.1 hm' with rfl | hm'
    · exact absurd hmatch.1 (parseMatch_eq_none hparse c)
    · exact ⟨m', hm', hmatch⟩
  kept := h.kept

/-- A pair that was ahead is the one of the match at hand, or of a later match. -/
theorem ahead_cons {purl c : String} (hparse : parseMatch env m = .ok (some u.m))
    (h : ∃ m' ∈ m :: ms, MatchesCve m' c ∧ MatchesPurl m' purl) :
    (u.m.vulnId = c ∧ u.m.purl = purl) ∨ ∃ m ∈ ms, MatchesCve m c ∧ MatchesPurl m purl := by
  obtain ⟨m', hm', hmatch⟩ := h
  rcases List.mem_cons.1 hm' with rfl | hm'
  · obtain ⟨hcve, -, hpurl⟩ := parseMatch_eq_some hparse
    exact .inl ⟨hcve.unique hmatch.1, ((hpurl purl).1 hmatch.2).1⟩
  · exact .inr ⟨m', hm', hmatch⟩

theorem missing (h : Progress P store rows (.lookup (m :: ms) held))
    (hparse : parseMatch env m = .ok (some u.m)) : Progress P store rows (.insert u ms) where
  behind := behind_none
  todo purl c hp := (h.todo purl c hp).imp (ahead_cons hparse) fun hk => h.behind.known_subset c hk
  kept := h.kept

/-- A lookup returns the object that is held, or the row. -/
theorem found (h : Progress P store rows (.lookup (m :: ms) held))
    (hparse : parseMatch env m = .ok (some u.m))
    (hold : lookupObject held rows u.m.vulnId = some old) :
    Progress P store rows (.update u old ms) := by
  obtain ⟨row, hrow, hobject⟩ := Option.map_eq_some_iff.1 hold
  have hself : ∀ purl ∈ known held rows u.m.vulnId, purl ∈ old.affectedPackages := by
    intro purl hp
    rcases held with _ | ⟨c', v⟩
    · obtain ⟨row', hrow', hp⟩ := mem_packages.1 hp
      obtain rfl := Option.some.inj (hrow.symm.trans hrow')
      exact hobject ▸ hp
    · simp only at hobject
      split_ifs at hobject with hc
      · subst hc hobject
        rwa [known_self] at hp
      · rw [known_other hc] at hp
        obtain ⟨row', hrow', hp⟩ := mem_packages.1 hp
        obtain rfl := Option.some.inj (hrow.symm.trans hrow')
        exact hobject ▸ hp
  refine ⟨?_, fun purl c hp => ?_, h.kept⟩
  · rintro c v ⟨⟩
    refine ⟨row, hrow, ?_⟩
    rcases held with _ | ⟨c', v⟩
    · exact hobject ▸ List.Subset.refl _
    · simp only at hobject
      split_ifs at hobject with hc
      · obtain ⟨row', hrow', hsub⟩ := h.behind c' v rfl
        subst hc hobject
        obtain rfl := Option.some.inj (hrow.symm.trans hrow')
        exact hsub
      · exact hobject ▸ List.Subset.refl _
  · refine (h.todo purl c hp).imp (ahead_cons hparse) fun hk => ?_
    by_cases hc : u.m.vulnId = c
    · subst hc
      change purl ∈ known (some _) rows _
      rw [known_self]
      exact hself purl hk
    · change purl ∈ known (some _) rows _
      rw [known_other hc]
      exact h.behind.known_subset c hk

/-- The scan holds the row of the CVE, which it has selected again or inserted. -/
theorem reselected (h : Progress P store rows (.insert u ms)) (hgrows : Grows rows rows')
    (hrow : rows' u.m.vulnId = some row) : Progress P store rows' (.update u row ms) where
  behind := by
    rintro c v ⟨⟩
    exact ⟨row, hrow, List.Subset.refl _⟩
  todo purl c hp := by
    refine (h.todo purl c hp).imp_right fun hk => ?_
    have hpack := hgrows.packages c hk
    by_cases hc : u.m.vulnId = c
    · subst hc
      change purl ∈ known (some _) rows' _
      rw [known_self]
      obtain ⟨row', hrow', hp⟩ := mem_packages.1 hpack
      obtain rfl := Option.some.inj (hrow.symm.trans hrow')
      exact hp
    · change purl ∈ known (some _) rows' _
      rwa [known_other hc]
  kept c a ha := by
    obtain ⟨b, hb, hab⟩ := h.kept c a ha
    obtain ⟨b', hb', hsub⟩ := hgrows c b hb
    exact ⟨b', hb', fun purl hp => (hab purl hp).imp_left fun hp => hsub hp⟩

/-- The update of a row: if the list is written, the row has the packages of the object afterwards,
and has lost none that the scan does not report. -/
theorem update (h : Progress P store rows (.update u old ms)) (hP : ∀ purl c, P purl c → purl ≠ "")
    (hown : old.affectedPackages ≠ (u.assign old).affectedPackages →
      ∀ row, rows u.m.vulnId = some row → ∀ purl ∈ row.affectedPackages,
        purl ∈ old.affectedPackages ∨ P purl u.m.vulnId)
    (hother : ∀ c, c ≠ u.m.vulnId → rows' c = rows c)
    (hwritten : ∀ row, rows u.m.vulnId = some row → ∃ row', rows' u.m.vulnId = some row' ∧
      row'.affectedPackages =
        if old.affectedPackages = (u.assign old).affectedPackages then row.affectedPackages
        else (u.assign old).affectedPackages) :
    Progress P store rows' (.lookup ms (some (u.m.vulnId, u.assign old))) := by
  obtain ⟨row, hrow, hsub⟩ := h.behind _ _ rfl
  obtain ⟨row', hrow', hlist⟩ := hwritten row hrow
  have hnow : (u.assign old).affectedPackages ⊆ row'.affectedPackages := by
    rw [hlist]
    split_ifs with hsame
    · exact hsame ▸ hsub
    · exact List.Subset.refl _
  have hkept : ∀ purl ∈ row.affectedPackages,
      purl ∈ row'.affectedPackages ∨ P purl u.m.vulnId := by
    intro purl hp
    rw [hlist]
    split_ifs with hsame
    · exact .inl hp
    · exact (hown hsame row hrow purl hp).imp_left fun hp => subset_assign hp
  refine ⟨?_, fun purl c hp => ?_, fun c a ha => ?_⟩
  · rintro c v ⟨⟩
    exact ⟨row', hrow', hnow⟩
  · have hahead := h.todo purl c hp
    change (∃ m ∈ ms, _) ∨ purl ∈ known (some _) rows' c
    by_cases hc : u.m.vulnId = c
    · subst hc
      rw [known_self]
      rcases hahead with (⟨-, rfl⟩ | hms) | hk
      · exact .inr (mem_assign (hP _ _ hp))
      · exact .inl hms
      · have hk : purl ∈ known (some (u.m.vulnId, old)) rows u.m.vulnId := hk
        rw [known_self] at hk
        exact .inr (subset_assign hk)
    · rw [known_other hc]
      rcases hahead with (⟨hcve, -⟩ | hms) | hk
      · exact absurd hcve hc
      · exact .inl hms
      · have hk : purl ∈ known (some (u.m.vulnId, old)) rows c := hk
        rw [known_other hc] at hk
        rw [packages, hother c (Ne.symm hc)]
        exact .inr hk
  · obtain ⟨b, hb, hab⟩ := h.kept c a ha
    by_cases hc : c = u.m.vulnId
    · subst hc
      obtain rfl := Option.some.inj (hrow.symm.trans hb)
      refine ⟨row', hrow', fun purl hp => ?_⟩
      rcases hab purl hp with hp | hp
      · exact hkept purl hp
      · exact .inr hp
    · exact ⟨b, (hother c hc).trans hb, hab⟩

/-- The scan has reported nothing that it does not see when no match is left. -/
theorem finished (h : Progress P store rows (.lookup [] held)) :
    Grows store rows ∧ ∀ purl c, P purl c → purl ∈ packages rows c := by
  have hall : ∀ purl c, P purl c → purl ∈ packages rows c := by
    intro purl c hp
    rcases h.todo purl c hp with ⟨m, hm, -⟩ | hk
    · exact absurd hm List.not_mem_nil
    · exact h.behind.known_subset c hk
  refine ⟨fun c row hrow => ?_, hall⟩
  obtain ⟨row', hrow', hsub⟩ := h.kept c row hrow
  refine ⟨row', hrow', fun purl hp => (hsub purl hp).elim id fun hp => ?_⟩
  obtain ⟨a, ha, hp⟩ := mem_packages.1 (hall purl c hp)
  obtain rfl := Option.some.inj (hrow'.symm.trans ha)
  exact hp

/-- Another scan commits: each row is as the scan has seen it, or is not written by the scan and has
grown. -/
theorem other {pc : UpsertPc} (h : Progress P store rows pc) (hgrows : Grows store store')
    (hrows : ∀ c, (store' c = store c ∧ rows' c = rows c) ∨
      (rows c = store c ∧ rows' c = store' c)) : Progress P store' rows' pc := by
  have hview : Grows rows rows' := by
    intro c row hrow
    rcases hrows c with ⟨-, hc⟩ | ⟨hc, hc'⟩
    · exact ⟨row, hc.trans hrow, List.Subset.refl _⟩
    · obtain ⟨row', hrow', hsub⟩ := hgrows c row (hc.symm.trans hrow)
      exact ⟨row', hc'.trans hrow', hsub⟩
  refine ⟨fun c v hv => ?_, fun purl c hp => (h.todo purl c hp).imp_right fun hk => ?_,
    fun c row hrow => ?_⟩
  · obtain ⟨row, hrow, hsub⟩ := h.behind c v hv
    obtain ⟨row', hrow', hsub'⟩ := hview c row hrow
    exact ⟨row', hrow', List.Subset.trans hsub hsub'⟩
  · rcases hobject : pc.object with _ | ⟨c', v⟩
    · rw [hobject] at hk
      exact hview.packages c hk
    · rw [hobject] at hk
      by_cases hc : c' = c
      · subst hc
        rwa [known_self] at hk ⊢
      · rw [known_other hc] at hk ⊢
        exact hview.packages c hk
  · rcases hrows c with ⟨hc, hc'⟩ | ⟨-, hc'⟩
    · obtain ⟨row', hrow', hsub⟩ := h.kept c row (hc.symm.trans hrow)
      exact ⟨row', hc'.trans hrow', hsub⟩
    · exact ⟨row, hc'.trans hrow, fun _ hp => .inl hp⟩

end Progress

/-! ### Any number of scans -/

/-- What holds between two moves: every scan is in progress or has stored the pairs of its
report. -/
structure NoneLost (env : Env) (db : Database) (tasks : ι → ScanTask)
    (s : Shared ι CveRows RowWrite UpsertPc) : Prop where
  apart : Transactions.Apart (scanTransactions env db tasks) s
  running : ∀ i pc, (s.txns i).status = .running pc →
    Progress ((tasks i).Reported env db) s.store ((scanTransactions env db tasks).view s i) pc
  committed : ∀ i, (s.txns i).status = .committed →
    ∀ purl c, (tasks i).Reported env db purl c → purl ∈ packages s.store c

section Moves

variable [DecidableEq ι] {tasks : ι → ScanTask} {s : Shared ι CveRows RowWrite UpsertPc} {i : ι}

theorem ne_empty_of_reported {purl c : String} (h : t.Reported env db purl c) : purl ≠ "" := by
  obtain ⟨report, -, m, -, -, -, hne⟩ := h
  exact hne

omit [DecidableEq ι] in
/-- The next step of a scan. -/
theorem NoneLost.next {pc pc' : UpsertPc} {ws : List RowWrite} (h : NoneLost env db tasks s)
    (hown : OverwritesOwn env db tasks s (.step i)) (hpc : (s.txns i).status = .running pc)
    (hout : upsertRoutine env db (tasks i) pc ((scanTransactions env db tasks).view s i) =
      .next ws pc') :
    Progress ((tasks i).Reported env db) s.store
      (ws.foldl (writeAt RowWrite.cveId RowWrite.act) ((scanTransactions env db tasks).view s i))
      pc' := by
  have hprogress := h.running i pc hpc
  rcases upsertRoutine_next hout with ⟨report, ms, rfl, hreport, hms, rfl, rfl⟩ |
    ⟨m, ms, held, rfl, hparse, rfl, rfl⟩ | ⟨m, ms, held, u, rfl, hparse, hlookup⟩ |
    ⟨u, ms, row, rfl, rfl, hrow⟩ | ⟨u, old, ms, rfl, rfl, hwrite⟩
  · refine hprogress.start (fun purl c ⟨report', hreport', hrep⟩ => ?_) hms
    exact Option.some.inj (hreport'.symm.trans hreport) ▸ hrep
  · exact hprogress.skip hparse
  · rcases hlookup with ⟨old, hold, rfl, rfl⟩ | ⟨-, rfl, rfl⟩
    · exact hprogress.found hparse hold
    · exact hprogress.missing hparse
  · rcases hrow with ⟨hrow, rfl⟩ | ⟨hnone, hins, rfl⟩
    · exact hprogress.reselected (fun c row hrow => ⟨row, hrow, List.Subset.refl _⟩) hrow
    · have hcve : RowWrite.cveId (.insert row) = u.m.vulnId := (insertedRow_eq_ok hins).1
      rw [← hcve] at hnone
      refine hprogress.reselected (fun c a ha => ⟨a, ?_, List.Subset.refl _⟩) ?_
      · refine (writeAt_other ?_).trans ha
        rintro rfl
        cases hnone.symm.trans ha
      · rw [← hcve]
        refine writeAt_self.trans ?_
        rw [hnone]
        rfl
  · have hne : ∀ purl c, (tasks i).Reported env db purl c → purl ≠ "" :=
      fun purl c => ne_empty_of_reported
    have hown := hown (u, old) (by rw [hpc]; rfl)
    rcases hwrite with ⟨hsame, rfl⟩ | rfl
    · refine hprogress.update hne hown (fun _ _ => rfl) fun row hrow => ⟨row, hrow, ?_⟩
      rw [if_pos (affectedPackages_of_unchanged hsame)]
    · let w : RowWrite := .update u.m.vulnId old (u.assign old)
      let rows := (scanTransactions env db tasks).view s i
      have hself : writeAt RowWrite.cveId RowWrite.act rows w u.m.vulnId =
          (rows u.m.vulnId).map fun row => old.assignChanged (u.assign old) row :=
        writeAt_self
      refine hprogress.update hne hown (fun c hc => ?_) fun row hrow =>
        ⟨old.assignChanged (u.assign old) row, ?_, rfl⟩
      · show writeAt RowWrite.cveId RowWrite.act rows w c = rows c
        exact writeAt_other hc
      · exact hself.trans (congrArg (Option.map _) hrow)

/-- A move that stores nothing keeps what holds of the other scans. -/
theorem NoneLost.put [Fintype ι] {t : Txn RowWrite UpsertPc} (h : NoneLost env db tasks s)
    (hapart : Transactions.Apart (scanTransactions env db tasks) (s.put s.store i t))
    (hrunning : ∀ pc, t.status = .running pc → Progress ((tasks i).Reported env db) s.store
      ((scanTransactions env db tasks).view (s.put s.store i t) i) pc)
    (hcommitted : t.status ≠ .committed) :
    NoneLost env db tasks (s.put s.store i t) := by
  refine ⟨hapart, fun j pc hpc => ?_, fun j hj => ?_⟩
  · by_cases hji : j = i
    · subst hji
      rw [Shared.put_self] at hpc
      exact hrunning pc hpc
    · rw [Shared.put_other hji] at hpc
      rw [Transactions.view_put_other hji]
      exact h.running j pc hpc
  · by_cases hji : j = i
    · subst hji
      rw [Shared.put_self] at hj
      exact absurd hj hcommitted
    · rw [Shared.put_other hji] at hj
      exact h.committed j hj

/-- Every move in which no foreign package is overwritten keeps all packages. -/
theorem noneLost_step [Fintype ι] {s' : Shared ι CveRows RowWrite UpsertPc} {m : Move ι}
    (h : NoneLost env db tasks s) (hown : OverwritesOwn env db tasks s m)
    (hst : (scanTransactions env db tasks).step s m = some s') : NoneLost env db tasks s' := by
  have hapart := Transactions.apart_step h.apart (fun _ _ heq => Eq.symm heq) hst
  rcases Transactions.step_cases hst with ⟨i, pc, rfl, hpc, hout⟩ | ⟨i, pc, rfl, -, rfl⟩
  · rcases hout with ⟨ws, pc', hout, -, rfl⟩ | ⟨hout, rfl⟩ | ⟨-, rfl⟩
    · refine h.put hapart (fun pc'' hpc'' => ?_) nofun
      obtain rfl := Status.running.inj hpc''
      rw [Transactions.view_put_self, List.foldl_append]
      exact h.next hown hpc hout
    · obtain ⟨held, rfl⟩ := upsertRoutine_commit hout
      obtain ⟨hgrows, hstored⟩ := (h.running i _ hpc).finished
      refine ⟨hapart, fun j pc hj => ?_, fun j hj => ?_⟩
      · have hji : j ≠ i := by
          rintro rfl
          rw [Shared.put_self] at hj
          cases hj
        rw [Shared.put_other hji] at hj
        exact (h.running j pc hj).other hgrows
          (Transactions.view_commit rfl (fun _ _ heq => heq) h.apart hji _)
      · by_cases hji : j = i
        · subst hji
          exact hstored
        · rw [Shared.put_other hji] at hj
          exact fun purl c hp => hgrows.packages c (h.committed j hj purl c hp)
    · exact h.put hapart (by rintro _ ⟨⟩) nofun
  · exact h.put hapart (by rintro _ ⟨⟩) nofun

end Moves

/-- **No package is lost** in the runs in which no list is written over a package that the scan
neither had read nor reports: every non-empty package of the report of a scan that has committed
is on the row of its CVE. -/
theorem packages_kept [DecidableEq ι] [Fintype ι] {tasks : ι → ScanTask}
    {s : Shared ι CveRows RowWrite UpsertPc}
    (hs : ((scanTransactions env db tasks).machine db.cveRows fun _ => .start).Reaches
      (OverwritesOwn env db tasks) s) {i : ι} (hi : (s.txns i).status = .committed)
    {report : Json} (hreport : (tasks i).report env db = some report) {purl c : String}
    (hp : Reports report purl c) :
    ∃ row, s.store c = some row ∧ purl ∈ row.affectedPackages := by
  have hkept : NoneLost env db tasks s := by
    refine hs.invariant (I := NoneLost env db tasks) ?_ fun s m s' h hP hst =>
      noneLost_step h hP hst
    refine ⟨fun i j _ w hw => absurd hw List.not_mem_nil, fun i pc hpc => ?_, nofun⟩
    obtain rfl := Status.running.inj hpc
    exact Progress.begin
  exact mem_packages.1 (hkept.committed i hi purl c ⟨report, hreport, hp⟩)

/-! ### Examples -/

/-- A rescan of the first release and a scan of the second, which name two packages for one CVE. -/
def demoTasks (i : Fin 2) : ScanTask :=
  if i = 0 then ⟨demoEnv.strUuid 10, demoInput [2, 1] 300⟩
  else ⟨demoEnv.strUuid 11, demoInput [3, 1] 300⟩

/-- The two scans, on a release with one finding and a newer one. -/
def demoScans : Machine (Shared (Fin 2) CveRows RowWrite UpsertPc) (Move (Fin 2)) :=
  (scanTransactions demoEnv demoUploaded.db demoTasks).machine demoUploaded.db.cveRows
    fun _ => .start

/-- Both scans look the CVE up before either writes its row. -/
def demoLost : List (Move (Fin 2)) := [0, 0, 1, 1, 0, 0, 1, 1].map .step

theorem demoLost_isSome : (demoScans.run demoScans.init demoLost).isSome := by decide +kernel

/-- **A package is lost** when both scans have looked the CVE up before either writes. -/
theorem package_lost : (system demoEnv).Reachable demoUploaded ∧
    ∃ s, demoScans.Reachable s ∧ (∀ i, (s.txns i).status = .committed) ∧
      (demoTasks 0).Reported demoEnv demoUploaded.db (demoName 'p' 2) (demoName 'c' 1) ∧
      (demoTasks 1).Reported demoEnv demoUploaded.db (demoName 'p' 3) (demoName 'c' 1) ∧
      ∃ row, s.store (demoName 'c' 1) = some row ∧
        row.affectedPackages = [demoName 'p' 1, demoName 'p' 3] :=
  ⟨demo_reachable, demoScans.after demoLost demoLost_isSome, Machine.reachable_after,
    by decide +kernel⟩

/-- One scan after the other. -/
def demoKept : List (Move (Fin 2)) := [0, 0, 0, 0, 1, 1, 1, 1].map .step

theorem demoKept_isSome : (demoScans.run demoScans.init demoKept).isSome := by decide +kernel

/-- The package of the first scan at the end of that run. -/
theorem packages_kept_demo : ∃ row,
    (demoScans.after demoKept demoKept_isSome).store (demoName 'c' 1) = some row ∧
      demoName 'p' 2 ∈ row.affectedPackages :=
  packages_kept (Machine.reaches_after (by decide +kernel)) (i := 0) (by decide +kernel)
    (rfl : (demoTasks 0).report demoEnv demoUploaded.db = some (demoReport [2, 1]))
    (by decide +kernel)

end ArgusSbomGuard
