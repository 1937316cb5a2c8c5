import ArgusSbomGuard.Transition.Session
import ArgusSbomGuard.Scan.Task

/-!
# The scan task in steps

`do_scan_sbom` as a routine: load the SBOM, run grype, then for each match upsert the
vulnerability and insert the link, retire, reconcile and commit.  Other transactions may commit
between two steps, above all while grype runs.  An exception on the way, a failed run of grype or
an SBOM that is not found ends the routine with a rollback.

Undisturbed, the routine commits what `doScanSbom` computes (`scanRest_evaluates`).  If the SBOM is
gone before the links are reconciled, no link is inserted and every open link of an older SBOM is
fixed (`scanRest_deleted`).

## Main definitions

* `ScanPc` : where the task is, with the objects it has loaded.
* `scanRoutine` : the next step.
* `scanRest` : what the rest of the task commits.
* `fixedKeys` : the links that pending writes fix.
-/

namespace ArgusSbomGuard

/-- The next step of `do_scan_sbom`; `ms` are the matches still to be processed and `vulns` the
result so far. -/
inductive ScanPc
  | load
  | grype (sbom : SBOM)
  | upsert (sbom : SBOM) (ms vulns : List Json)
  | link (sbom : SBOM) (g : GrypeMatch) (v : Vulnerability) (ms vulns : List Json)
  | retire (sbom : SBOM) (vulns : List Json)
  | reconcile (sbom : SBOM)
  | commit (sbom : SBOM)

/-- The SBOM the task has loaded. -/
def ScanPc.sbom? : ScanPc → Option SBOM
  | .load => none
  | .grype sbom => some sbom
  | .upsert sbom _ _ => some sbom
  | .link sbom _ _ _ _ => some sbom
  | .retire sbom _ => some sbom
  | .reconcile sbom => some sbom
  | .commit sbom => some sbom

variable (env : Env) (sbomId : String) (inp : ScanInput)

/-- One step of `do_scan_sbom` on what its transaction sees. -/
def scanRoutine : ScanPc → Database → Outcome Write ScanPc
  | .load, db => match env.parseUuid sbomId with
    -- the task returns early, and its session is closed without a commit
    | none => .rollback
    | some sbomUuid => match db.sboms.find? fun s => s.id == sbomUuid with
      | none => .rollback
      | some sbom => .next [] (.grype sbom)
  -- grype reads nothing from the database
  | .grype sbom, _ =>
    if !sbom.rawSbom.truthy then .next [] (.retire sbom [])
    else match runGrype env inp.grype with
      | none => .rollback
      | some results => match reportMatches results with
        | .ok ms => .next [] (.upsert sbom ms [])
        | .error _ => .rollback
  | .upsert sbom [] vulns, _ => .next [] (.retire sbom vulns)
  | .upsert sbom (m :: ms) vulns, db => match parseMatch env m with
    | .ok none => .next [] (.upsert sbom ms vulns)
    | .ok (some g) => match upsertVulnerability db (inp.newId g.vulnId) g with
      | .ok (ws, v) => .next ws (.link sbom g v ms vulns)
      | .error _ => .rollback
    | .error _ => .rollback
  | .link sbom g v ms vulns, db => match linkVulnerability db sbom v g.purl with
    | .ok ws => .next ws (.upsert sbom ms (vulns ++ [g.vulnData]))
    | .error _ => .rollback
  | .retire sbom vulns, db =>
    .next [retireStaleVulnerabilities db sbom (reportedIds vulns) inp.retiredAt] (.reconcile sbom)
  | .reconcile sbom, db =>
    .next (reconcileVulnerabilities db sbom inp.reconciledAt) (.commit sbom)
  | .commit _, _ => .commit

/-! ### The rest of the task -/

/-- The end of the task, after the matches are stored. -/
def finishScan (sbom : SBOM) (vulns : List Json) (db : Database) : Database :=
  let db := db.write (retireStaleVulnerabilities db sbom (reportedIds vulns) inp.retiredAt)
  db.writeAll (reconcileVulnerabilities db sbom inp.reconciledAt)

/-- The loop over the matches and the end of the task. -/
def processRest (sbom : SBOM) (ms vulns : List Json) (db : Database) : Option Database :=
  match processMatches env sbom inp.newId db ms with
  | .ok (db, rest) => some (finishScan inp sbom (vulns ++ rest) db)
  | .error _ => none

/-- The task from the insert of a link on. -/
def linkRest (sbom : SBOM) (g : GrypeMatch) (v : Vulnerability) (ms vulns : List Json)
    (db : Database) : Option Database :=
  match linkVulnerability db sbom v g.purl with
  | .ok ws => processRest env inp sbom ms (vulns ++ [g.vulnData]) (db.writeAll ws)
  | .error _ => none

/-- The database that a run of the task commits, if it does. -/
def committedDatabase : Except PyError (Database × ScanEnd) → Option Database
  | .ok (db, .scanned) => some db
  | _ => none

/-- What the rest of the task commits. -/
def scanRest : ScanPc → Database → Option Database
  | .load, db => committedDatabase (doScanSbom env db sbomId inp)
  | .grype sbom, db => match scanWithGrype env db sbom inp with
    | .ok (some (db, vulns)) => some (finishScan inp sbom vulns db)
    | _ => none
  | .upsert sbom ms vulns, db => processRest env inp sbom ms vulns db
  | .link sbom g v ms vulns, db => linkRest env inp sbom g v ms vulns db
  | .retire sbom vulns, db => some (finishScan inp sbom vulns db)
  | .reconcile sbom, db =>
    some (db.writeAll (reconcileVulnerabilities db sbom inp.reconciledAt))
  | .commit _, db => some db

variable {env sbomId inp} {db db' : Database} {sbom : SBOM}

theorem scanRest_load {i : Uuid} (hid : env.parseUuid sbomId = some i)
    (hfind : (db.sboms.find? fun s => s.id == i) = some sbom) :
    scanRest env sbomId inp .load db = scanRest env sbomId inp (.grype sbom) db := by
  simp only [scanRest, doScanSbom, hid, hfind]
  cases scanWithGrype env db sbom inp with
  | error e => rfl
  | ok r => cases r <;> rfl

theorem scanRest_grype {results : Json} (hraw : sbom.rawSbom.truthy = true)
    (hrun : runGrype env inp.grype = some results) :
    scanRest env sbomId inp (.grype sbom) db = match reportMatches results with
      | .ok ms => processRest env inp sbom ms [] db
      | .error _ => none := by
  simp only [scanRest, scanWithGrype, hraw, hrun, processGrypeResults, processRest, bind,
    Except.bind, Bool.not_true, Bool.false_eq_true, if_false]
  cases reportMatches results with
  | error e => rfl
  | ok ms =>
    dsimp only
    cases processMatches env sbom inp.newId db ms <;> rfl

/-- The loop over a match without a vulnerability. -/
theorem processRest_skip {m : Json} {ms vulns : List Json} (hparse : parseMatch env m = .ok none) :
    processRest env inp sbom (m :: ms) vulns db = processRest env inp sbom ms vulns db := by
  simp only [processRest, processMatches, processMatch, hparse, bind, Except.bind, pure,
    Except.pure]
  cases processMatches env sbom inp.newId db ms <;> rfl

/-- The loop over a match that has one. -/
theorem processRest_cons {m : Json} {ms vulns : List Json} {g : GrypeMatch}
    (hparse : parseMatch env m = .ok (some g)) :
    processRest env inp sbom (m :: ms) vulns db =
      match upsertVulnerability db (inp.newId g.vulnId) g with
      | .ok (ws, v) => linkRest env inp sbom g v ms vulns (db.writeAll ws)
      | .error _ => none := by
  simp only [processRest, linkRest, processMatches, processMatch, hparse, bind, Except.bind]
  cases upsertVulnerability db (inp.newId g.vulnId) g with
  | error e => rfl
  | ok r =>
    cases hlink : linkVulnerability (db.writeAll r.1) sbom r.2 g.purl with
    | error e => simp [hlink]
    | ok ws' =>
      simp only [hlink, pure, Except.pure]
      cases processMatches env sbom inp.newId ((db.writeAll r.1).writeAll ws') ms with
      | error e => rfl
      | ok r' => simp

/-- **Undisturbed, the routine commits what `do_scan_sbom` computes.** -/
theorem scanRest_evaluates :
    Evaluates Database.write (scanRoutine env sbomId inp) (scanRest env sbomId inp) := by
  intro pc db
  cases pc with
  | load =>
    simp only [scanRoutine]
    split
    · rename_i hid
      simp only [scanRest, doScanSbom, hid]
      rfl
    · rename_i i hid
      split
      · rename_i hfind
        simp only [scanRest, doScanSbom, hid, hfind]
        rfl
      · rename_i sbom hfind
        exact scanRest_load hid hfind
  | grype sbom =>
    simp only [scanRoutine]
    split
    · rename_i hraw
      simp only [scanRest, scanWithGrype, hraw, if_true]
      rfl
    · rename_i hraw
      have hraw : sbom.rawSbom.truthy = true := by simpa using hraw
      split
      · rename_i hrun
        simp only [scanRest, scanWithGrype, hraw, hrun]
        rfl
      · rename_i results hrun
        rw [scanRest_grype hraw hrun]
        cases reportMatches results <;> rfl
  | upsert sbom ms vulns =>
    cases ms with
    | nil => simp [scanRest, processRest, processMatches, scanRoutine, Outcome.commits]
    | cons m ms =>
      simp only [scanRoutine]
      split
      · rename_i hparse
        exact processRest_skip hparse
      · rename_i g hparse
        refine (processRest_cons hparse).trans ?_
        cases upsertVulnerability db (inp.newId g.vulnId) g <;> rfl
      · rename_i e hparse
        simp only [scanRest, processRest, processMatches, processMatch, hparse, bind,
          Except.bind]
        rfl
  | link sbom g v ms vulns =>
    simp only [scanRoutine, scanRest, linkRest]
    cases linkVulnerability db sbom v g.purl <;> rfl
  | retire sbom vulns => rfl
  | reconcile sbom => rfl
  | commit sbom => rfl

/-! ### What a step issues -/

/-- The update of `retire_stale_vulnerabilities` fixes open links of the SBOM. -/
theorem fixed_retireStaleVulnerabilities {cves : List String} {now : DateTime} {k : LinkKey}
    (hk : k ∈ (retireStaleVulnerabilities db sbom cves now).fixed) :
    ∃ l ∈ db.links, l.key = k ∧ l.sbomId = sbom.id ∧ l.status = .OPEN := by
  unfold retireStaleVulnerabilities at hk
  split_ifs at hk
  · obtain ⟨l, hl, hp, hkey⟩ := Database.mem_fixed_fixWhere.1 hk
    simp only [Bool.and_eq_true, beq_iff_eq] at hp
    exact ⟨l, hl, hkey, hp.1⟩
  · obtain ⟨l, hl, hp, hkey⟩ := Database.mem_fixed_fixWhere.1 hk
    simp only [Bool.and_eq_true, beq_iff_eq] at hp
    exact ⟨l, hl, hkey, hp⟩

theorem retireStaleVulnerabilities_ne_addLink {cves : List String} {now : DateTime}
    (l : SBOMVulnerability) : .addLink l ≠ retireStaleVulnerabilities db sbom cves now := by
  unfold retireStaleVulnerabilities
  split_ifs <;> exact Database.fixWhere_ne_addLink l

/-- The update of `reconcile_vulnerabilities`, if there is one, fixes open links. -/
theorem fixedKeys_reconcileVulnerabilities {now : DateTime} {k : LinkKey}
    (hk : k ∈ fixedKeys (reconcileVulnerabilities db sbom now)) :
    ∃ l ∈ db.links, l.key = k ∧ l.status = .OPEN := by
  simp only [reconcileVulnerabilities, fixedKeys] at hk
  split_ifs at hk
  · cases hk
  · rw [List.flatMap_singleton, Database.mem_fixed_fixWhere] at hk
    obtain ⟨l, hl, hp, hkey⟩ := hk
    simp only [Bool.and_eq_true, beq_iff_eq] at hp
    exact ⟨l, hl, hkey, hp.1.2⟩
  · rw [List.flatMap_singleton, Database.mem_fixed_fixWhere] at hk
    obtain ⟨l, hl, hp, hkey⟩ := hk
    simp only [Bool.and_eq_true, beq_iff_eq] at hp
    exact ⟨l, hl, hkey, hp.2⟩

theorem addLink_not_mem_reconcileVulnerabilities {now : DateTime} (l : SBOMVulnerability) :
    .addLink l ∉ reconcileVulnerabilities db sbom now := by
  simp only [reconcileVulnerabilities]
  split_ifs
  · exact List.not_mem_nil
  · exact fun hl => Database.fixWhere_ne_addLink l (List.mem_singleton.1 hl)
  · exact fun hl => Database.fixWhere_ne_addLink l (List.mem_singleton.1 hl)

/-- What a step that goes on did: it loaded the SBOM, wrote vulnerabilities at most, inserted a
link, retired links of the SBOM or reconciled. -/
inductive ScanStep (env : Env) (sbomId : String) (inp : ScanInput) (db : Database) :
    ScanPc → List Write → ScanPc → Prop
  | load {sbom : SBOM} (hs : sbom ∈ db.sboms) (hid : env.parseUuid sbomId = some sbom.id) :
      ScanStep env sbomId inp db .load [] (.grype sbom)
  | store {sbom : SBOM} {pc pc' : ScanPc} {ws : List Write} (hpc : pc.sbom? = some sbom)
      (hpc' : pc'.sbom? = some sbom)
      (hbefore : ∀ s, pc ≠ .commit s) (hafter : ∀ s, pc' ≠ .commit s)
      (hws : ∀ w ∈ ws, w.IsVulnerability) : ScanStep env sbomId inp db pc ws pc'
  | link {sbom : SBOM} {g : GrypeMatch} {v : Vulnerability} {ms vulns : List Json} {purl : String}
      {i : Uuid} :
      ScanStep env sbomId inp db (.link sbom g v ms vulns) [.addLink (newLink sbom purl i)]
        (.upsert sbom ms (vulns ++ [g.vulnData]))
  | retire {sbom : SBOM} {vulns : List Json} :
      ScanStep env sbomId inp db (.retire sbom vulns)
        [retireStaleVulnerabilities db sbom (reportedIds vulns) inp.retiredAt] (.reconcile sbom)
  | reconcile {sbom : SBOM} :
      ScanStep env sbomId inp db (.reconcile sbom)
        (reconcileVulnerabilities db sbom inp.reconciledAt) (.commit sbom)

theorem ScanStep.read {pc pc' : ScanPc} (hpc : pc.sbom? = some sbom) (hpc' : pc'.sbom? = some sbom)
    (hbefore : ∀ s, pc ≠ .commit s) (hafter : ∀ s, pc' ≠ .commit s) :
    ScanStep env sbomId inp db pc [] pc' :=
  .store hpc hpc' hbefore hafter (List.forall_mem_nil _)

theorem scanStep_of_next {pc pc' : ScanPc} {ws : List Write}
    (h : scanRoutine env sbomId inp pc db = .next ws pc') :
    ScanStep env sbomId inp db pc ws pc' := by
  cases pc with
  | load =>
    simp only [scanRoutine] at h
    split at h
    · cases h
    rename_i i hid
    split at h
    · cases h
    rename_i sbom hfind
    cases h
    obtain ⟨hs, hsid⟩ := Table.mem_of_find? hfind
    exact .load hs (hid.trans (congrArg some (beq_iff_eq.1 hsid).symm))
  | grype sbom =>
    simp only [scanRoutine] at h
    split at h
    · cases h
      exact .read rfl rfl nofun nofun
    split at h
    · cases h
    split at h
    · cases h
      exact .read rfl rfl nofun nofun
    · cases h
  | upsert sbom ms vulns =>
    cases ms with
    | nil =>
      cases h
      exact .read rfl rfl nofun nofun
    | cons m ms =>
      simp only [scanRoutine] at h
      split at h
      · cases h
        exact .read rfl rfl nofun nofun
      · split at h
        · rename_i hups
          cases h
          exact .store rfl rfl nofun nofun (upsertVulnerability_eq_ok hups).1
        · cases h
      · cases h
  | link sbom g v ms vulns =>
    simp only [scanRoutine] at h
    split at h
    · rename_i ws hlink
      cases h
      rcases linkVulnerability_eq_ok hlink with ⟨rfl, -⟩ | ⟨-, rfl, -⟩
      · exact .read rfl rfl nofun nofun
      · exact .link
    · cases h
  | retire sbom vulns =>
    cases h
    exact .retire
  | reconcile sbom =>
    cases h
    exact .reconcile
  | commit sbom => cases h

/-! ### After the SBOM is deleted -/

/-- Once the SBOM is gone, no link is inserted: the database refuses it, and the error is
swallowed. -/
theorem linkVulnerability_deleted {v : Vulnerability} {purl : String} {ws : List Write}
    (hno : ∀ s ∈ db.sboms, s.id ≠ sbom.id) (h : linkVulnerability db sbom v purl = .ok ws) :
    ws = [] := by
  rcases linkVulnerability_eq_ok h with ⟨rfl, -⟩ | ⟨-, -, db', hins⟩
  · rfl
  · obtain ⟨⟨s, hs, hid⟩, -⟩ := Database.insertLink_eq_ok hins
    exact absurd hid (hno s hs)

theorem processMatches_deleted {newId : String → Uuid} {ms vulns : List Json}
    (hno : ∀ s ∈ db.sboms, s.id ≠ sbom.id)
    (h : processMatches env sbom newId db ms = .ok (db', vulns)) :
    db'.links = db.links ∧ db'.sboms = db.sboms := by
  induction ms generalizing db vulns with
  | nil =>
    cases h
    exact ⟨rfl, rfl⟩
  | cons m ms ih =>
    simp only [processMatches, bind_eq_ok, Prod.exists] at h
    obtain ⟨db₁, vs, hone, db₂, rest, hrest, h⟩ := h
    cases h
    -- one match writes vulnerabilities only, so the SBOM stays gone for the others
    have hmid : db₁.links = db.links ∧ db₁.sboms = db.sboms := by
      obtain ⟨g?, -, hone⟩ := bind_eq_ok.1 hone
      cases g? with
      | none =>
        cases hone
        exact ⟨rfl, rfl⟩
      | some g =>
        simp only [bind_eq_ok, Prod.exists] at hone
        obtain ⟨ws, v, hups, ws', hlink, hone⟩ := hone
        cases hone
        obtain rfl := linkVulnerability_deleted (by simpa using hno) hlink
        exact ⟨Database.writeAll_links (upsertVulnerability_eq_ok hups).1,
          Database.writeAll_sboms ws⟩
    obtain ⟨hlinks, hsboms⟩ := ih (hmid.2 ▸ hno) hrest
    exact ⟨hlinks.trans hmid.1, hsboms.trans hmid.2⟩

/-- A deleted SBOM has nothing open, so that reconciling it closes all of the older ones. -/
theorem reconcileVulnerabilities_deleted {now : DateTime} {i v : Uuid}
    (hno : ∀ s ∈ db.sboms, s.id ≠ sbom.id) :
    (db.writeAll (reconcileVulnerabilities db sbom now)).OpenOn i v ↔
      db.OpenOn i v ∧ ¬ OlderThan db sbom i := by
  have hclosed : ¬ db.OpenOn sbom.id v := by
    rintro ⟨l, hl, hls, -⟩
    obtain ⟨s, hs, hid⟩ := db.linksSbom l hl
    exact hno s hs (hid.trans hls)
  refine reconcileVulnerabilities_updated.openOn_fix.trans ?_
  constructor
  · rintro ⟨l, hl, ⟨rfl, rfl, ho⟩, hsup⟩
    exact ⟨⟨l, hl, rfl, rfl, ho⟩, fun hold => hsup ⟨hold, ho, hclosed⟩⟩
  · rintro ⟨⟨l, hl, rfl, rfl, ho⟩, hnot⟩
    exact ⟨l, hl, ⟨rfl, rfl, ho⟩, fun hsup => hnot hsup.1⟩

/-- The database `db'` is `db` without the open links of SBOMs older than `sbom`. -/
structure OlderClosed (sbom : SBOM) (db db' : Database) : Prop where
  sboms : db'.sboms = db.sboms
  openOn : ∀ i v, db'.OpenOn i v ↔ db.OpenOn i v ∧ ¬ OlderThan db sbom i

theorem OlderClosed.congr (h : OlderClosed sbom db db') {db₀ : Database}
    (hsboms : db.sboms = db₀.sboms) (hopen : ∀ i v, db.OpenOn i v ↔ db₀.OpenOn i v) :
    OlderClosed sbom db₀ db' where
  sboms := h.sboms.trans hsboms
  openOn i v := by
    rw [h.openOn, hopen]
    unfold OlderThan
    rw [hsboms]

theorem olderClosed_reconcile {now : DateTime} (hno : ∀ s ∈ db.sboms, s.id ≠ sbom.id) :
    OlderClosed sbom db (db.writeAll (reconcileVulnerabilities db sbom now)) where
  sboms := Database.writeAll_sboms _
  openOn _ _ := reconcileVulnerabilities_deleted hno

theorem olderClosed_finishScan {vulns : List Json} (hno : ∀ s ∈ db.sboms, s.id ≠ sbom.id) :
    OlderClosed sbom db (finishScan inp sbom vulns db) := by
  refine (olderClosed_reconcile (by simpa using hno)).congr (Database.write_sboms _) fun i v => ?_
  refine retireStaleVulnerabilities_updated.openOn_fix.trans ?_
  constructor
  · rintro ⟨l, hl, hopen, -⟩
    exact ⟨l, hl, hopen⟩
  · rintro ⟨l, hl, hopen⟩
    refine ⟨l, hl, hopen, fun hstale => ?_⟩
    obtain ⟨s, hs, hid⟩ := db.linksSbom l hl
    exact hno s hs (hid.trans hstale.1)

theorem olderClosed_processRest {ms vulns : List Json} (hno : ∀ s ∈ db.sboms, s.id ≠ sbom.id)
    (h : processRest env inp sbom ms vulns db = some db') : OlderClosed sbom db db' := by
  unfold processRest at h
  split at h
  · rename_i db₁ rest hms
    cases h
    obtain ⟨hlinks, hsboms⟩ := processMatches_deleted hno hms
    refine (olderClosed_finishScan (hsboms ▸ hno)).congr hsboms fun i v => ?_
    unfold Database.OpenOn
    rw [hlinks]
  · cases h

/-- A scan that does not find its SBOM commits nothing. -/
theorem scanRest_load_deleted {n : Uuid} (hno : ∀ s ∈ db.sboms, s.id ≠ n) :
    scanRest env (env.strUuid n) inp .load db = none := by
  simp only [scanRest, committedDatabase]
  split
  · rename_i db' hscan
    obtain ⟨s, hs, hid, -⟩ := doScanSbom_scanned hscan
    rw [env.parseUuid_strUuid] at hid
    exact absurd (Option.some.inj hid).symm (hno s hs)
  · rfl

/-- **The rest of a scan whose SBOM is gone** closes all that is open on the older SBOMs, whatever
grype reports. -/
theorem scanRest_deleted {pc : ScanPc} (hno : ∀ s ∈ db.sboms, s.id ≠ sbom.id)
    (hpc : pc.sbom? = some sbom) (hcommit : ∀ s, pc ≠ .commit s)
    (h : scanRest env sbomId inp pc db = some db') : OlderClosed sbom db db' := by
  cases pc with
  | load => cases hpc
  | grype sbom =>
    cases hpc
    rw [scanRest_evaluates, scanRoutine] at h
    split at h
    · cases h
      exact olderClosed_finishScan hno
    split at h
    · cases h
    split at h
    · exact olderClosed_processRest hno h
    · cases h
  | upsert sbom ms vulns =>
    cases hpc
    exact olderClosed_processRest hno h
  | link sbom g v ms vulns =>
    cases hpc
    simp only [scanRest, linkRest] at h
    split at h
    · rename_i ws hlink
      obtain rfl := linkVulnerability_deleted hno hlink
      exact olderClosed_processRest hno h
    · cases h
  | retire sbom vulns =>
    cases hpc
    cases h
    exact olderClosed_finishScan hno
  | reconcile sbom =>
    cases hpc
    cases h
    exact olderClosed_reconcile hno
  | commit sbom => exact absurd rfl (hcommit sbom)

end ArgusSbomGuard
