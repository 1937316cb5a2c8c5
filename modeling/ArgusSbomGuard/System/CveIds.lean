import ArgusSbomGuard.System.Details

/-!
# The CVE ids that are stored

The name of a CVE is written once, when its row is inserted, and the database checks then that it
fits into its column.  So it does in every reachable state (`cveIdsFit`).
-/

namespace ArgusSbomGuard

/-- The CVE ids fit into their column. -/
def CveIdsFit (db : Database) : Prop := ∀ v ∈ db.vulnerabilities, fitsVarchar 50 v.cveId = true

variable {env : Env} {db db' : Database} {w w' : World} {a : Action}

/-! ### The writes of a scan -/

theorem CveIdsFit.insert {v : Vulnerability} (h : CveIdsFit db)
    (hins : db.insertVulnerability v = .ok db') : CveIdsFit db' := by
  obtain ⟨t, ht, htab⟩ := Database.insertVulnerability_eq_ok hins
  have hfits : fitsVarchar 50 v.cveId = true := by
    unfold Database.insertVulnerability at hins
    split_ifs at hins with hcheck
    simp only [Bool.not_eq_true', Bool.not_eq_false, Bool.and_eq_true] at hcheck
    exact hcheck.1.1
  unfold CveIdsFit
  rw [htab]
  exact Table.forall_mem_insert? ht h hfits

theorem CveIdsFit.write (h : CveIdsFit db) (write : Write) : CveIdsFit (db.write write) := by
  cases write with
  | addVulnerability v =>
    simp only [Database.write]
    split
    · rename_i db' hins
      exact h.insert hins
    · exact h
  | setVulnerability v =>
    intro v' hv'
    obtain ⟨a, ha, rfl⟩ := List.mem_map.1 hv'
    split_ifs <;> exact h a ha
  | addLink l =>
    simp only [Database.write]
    split
    · rename_i db' hins
      obtain ⟨-, t, -, htab⟩ := Database.insertLink_eq_ok hins
      unfold CveIdsFit
      rw [htab]
      exact h
    · exact h
  | fixLinks keys now => exact h

theorem CveIdsFit.writeAll (h : CveIdsFit db) (writes : List Write) :
    CveIdsFit (db.writeAll writes) := by
  induction writes generalizing db with
  | nil => exact h
  | cons write writes ih => exact ih (h.write write)

/-! ### A scan -/

theorem CveIdsFit.processMatches {sbom : SBOM} {newId : String → Uuid} {ms vulns : List Json}
    (h : CveIdsFit db) (hok : processMatches env sbom newId db ms = .ok (db', vulns)) :
    CveIdsFit db' := by
  induction ms generalizing db vulns with
  | nil =>
    obtain ⟨rfl, -⟩ := Prod.mk.inj (Except.ok.inj hok)
    exact h
  | cons m ms ih =>
    simp only [ArgusSbomGuard.processMatches, bind_eq_ok, Prod.exists] at hok
    obtain ⟨db₁, vs, hone, db₂, rest, hrest, hok⟩ := hok
    obtain ⟨rfl, -⟩ := Prod.mk.inj (Except.ok.inj hok)
    refine ih ?_ hrest
    obtain ⟨g?, -, hone⟩ := bind_eq_ok.1 hone
    cases g? with
    | none =>
      obtain ⟨rfl, -⟩ := Prod.mk.inj (Except.ok.inj hone)
      exact h
    | some g =>
      simp only [bind_eq_ok, Prod.exists] at hone
      obtain ⟨writes, v, -, writes', -, hone⟩ := hone
      obtain ⟨rfl, -⟩ := Prod.mk.inj (Except.ok.inj hone)
      exact (h.writeAll writes).writeAll writes'

theorem CveIdsFit.scanWithGrype {sbom : SBOM} {inp : ScanInput} {scanResults : List Json}
    (h : CveIdsFit db) (hok : scanWithGrype env db sbom inp = .ok (some (db', scanResults))) :
    CveIdsFit db' := by
  unfold ArgusSbomGuard.scanWithGrype at hok
  split at hok
  · cases hok
    exact h
  · split at hok
    · cases hok
    · obtain ⟨p, hp, hok⟩ := bind_eq_ok.1 hok
      cases hok
      obtain ⟨ms, -, hp⟩ := bind_eq_ok.1 hp
      exact h.processMatches hp

theorem CveIdsFit.doScanSbom {sbomId : String} {inp : ScanInput} {e : ScanEnd} (h : CveIdsFit db)
    (hok : doScanSbom env db sbomId inp = .ok (db', e)) : CveIdsFit db' := by
  rcases doScanSbom_cases hok with ⟨rfl, -⟩ | ⟨sbom, -, -, _, _, _, hr, rfl, rfl, -⟩
  · exact h
  · exact ((h.scanWithGrype hr).write _).writeAll _

/-! ### Runs -/

theorem cveIdsFit_step (howned : ServiceOwned w.db) (h : CveIdsFit w.db)
    (hst : World.step env w a = some w') : CveIdsFit w'.db := by
  by_cases hscan : ∃ message inp, a = .scanSbom message inp
  · obtain ⟨message, inp, rfl⟩ := hscan
    simp only [World.step] at hst
    split at hst
    · rcases World.scan_outcome (Option.some.inj hst) with ⟨db', hok, rfl⟩ | ⟨rfl, -⟩
      · exact h.doScanSbom hok
      · exact h
    · cases hst
  · have hsame := StepEffect.details howned (World.step_effect hst) fun message inp ha =>
      hscan ⟨message, inp, ha⟩
    unfold CveIdsFit
    rw [hsame.1]
    exact h

/-- **In every reachable state the CVE ids fit into their column.** -/
theorem cveIdsFit (hw : (system env).Reachable w) : CveIdsFit w.db := by
  have hboth : SystemInvariant w.db ∧ CveIdsFit w.db :=
    hw.invariant (I := fun s => SystemInvariant s.db ∧ CveIdsFit s.db)
      ⟨systemInvariant_empty, fun _ hv => absurd hv (Table.not_mem_empty _)⟩
      fun s a s' hs _ hst => ⟨systemInvariant_step hs.1 hst, cveIdsFit_step hs.1.owned hs.2 hst⟩
  exact hboth.2

end ArgusSbomGuard
