import ArgusSbomGuard.Scan.Links
import ArgusSbomGuard.Scan.Reconcile
import Mathlib.Data.List.MinMax

/-!
# The scan task

`scan_with_grype` and `services/scanning.py`.  A scan is one transaction: it runs grype on a
stored document, stores the matches, retires the links that are stale, reconciles the older
SBOMs of the scope and commits; an exception on the way rolls everything back.

## Main definitions

* `doScanSbom` : `do_scan_sbom`, with the way it ended (`ScanEnd`).
* `scanReport` : the report a scan works with, a function of its inputs.
* `ScanEffect` : what a successful scan did to the links, each old link having one image and
  each new link being a reported pair.
* `latestSbomIds` : `latest_sbom_ids`.

The specification of the task is `doScanSbom_scanned`; all that is proved about scans follows
from it.  On the sets of open vulnerabilities it is `exposure_scan`.
-/

namespace ArgusSbomGuard

/-- What a scan gets from outside: the run of grype, the identifiers drawn for new
vulnerabilities and the times read when links are fixed. -/
structure ScanInput where
  grype : GrypeRun
  newId : String → Uuid
  retiredAt : DateTime
  reconciledAt : DateTime

/-- How `do_scan_sbom` returned: without an SBOM, after a failed scan or with a commit. -/
inductive ScanEnd
  | skipped | failed | scanned
  deriving DecidableEq

variable (env : Env)

/-- `scan_with_grype`: an empty document has the empty result without a run of grype; `none` is
a failed scan. -/
def scanWithGrype (db : Database) (sbom : SBOM) (inp : ScanInput) :
    Except PyError (Option (Database × List Json)) :=
  if !sbom.rawSbom.truthy then .ok (some (db, []))
  else match runGrype env inp.grype with
    | none => .ok none
    | some results => do return some (← processGrypeResults env db sbom inp.newId results)

/-- `do_scan_sbom`. -/
def doScanSbom (db : Database) (sbomId : String) (inp : ScanInput) :
    Except PyError (Database × ScanEnd) :=
  match env.parseUuid sbomId with
  | none => .ok (db, .skipped)
  | some sbomUuid => match db.sboms.find? fun s => s.id == sbomUuid with
    | none => .ok (db, .skipped)
    | some sbom => do
      match ← scanWithGrype env db sbom inp with
      | none => return (db, .failed)
      | some (db, scanResults) =>
        let db := db.write
          (retireStaleVulnerabilities db sbom (reportedIds scanResults) inp.retiredAt)
        return (db.writeAll (reconcileVulnerabilities db sbom inp.reconciledAt), .scanned)

/-- The report a scan of `sbom` works with, if it has one. -/
def scanReport (sbom : SBOM) (grype : GrypeRun) : Option Json :=
  if sbom.rawSbom.truthy then runGrype env grype else some (.obj [])

/-! ### The latest SBOM of a scope -/

/-- The order `uploaded_at, id` of SBOMs. -/
def SBOM.rank (s : SBOM) : DateTime ×ₗ Uuid := toLex (s.uploadedAt, s.id)

/-- `a` comes before `b` in the order `uploaded_at DESC, id DESC`. -/
def laterSbom (a b : SBOM) : Bool := decide (b.rank < a.rank)

/-- The rows whose `row_number()` over their scope and this order is `1`; `raw_sbom` is never
null, so that the query's filter on it keeps all rows. -/
def latestSbomIds (db : Database) : List Uuid :=
  (db.sboms.rows.filter fun s =>
    rowNumber (fun a b => a.scope == b.scope) laterSbom db.sboms.rows s == 1).map (·.id)

/-- No SBOM of the scope of `sbom` is later. -/
def IsLatest (db : Database) (sbom : SBOM) : Prop :=
  ∀ s ∈ db.sboms, s.scope = sbom.scope → s.rank ≤ sbom.rank

instance (db : Database) (sbom : SBOM) : Decidable (IsLatest db sbom) :=
  inferInstanceAs (Decidable (∀ s ∈ db.sboms, _))

/-- The window function finds the latest SBOM. -/
theorem rowNumber_eq_one_iff_isLatest {db : Database} {s : SBOM} :
    rowNumber (fun a b => a.scope == b.scope) laterSbom db.sboms.rows s = 1 ↔ IsLatest db s := by
  simp only [rowNumber_eq_one, laterSbom, decide_eq_false_iff_not, not_lt, IsLatest, beq_iff_eq,
    Table.mem_rows]

theorem mem_latestSbomIds {db : Database} {i : Uuid} :
    i ∈ latestSbomIds db ↔ ∃ s ∈ db.sboms, s.id = i ∧ IsLatest db s := by
  simp only [latestSbomIds, List.mem_map, List.mem_filter, beq_iff_eq,
    rowNumber_eq_one_iff_isLatest, Table.mem_rows]
  exact exists_congr fun s => by tauto

/-- Every scope with an SBOM has a latest one. -/
theorem exists_isLatest {db : Database} {s : SBOM} (hs : s ∈ db.sboms) :
    ∃ L ∈ db.sboms, L.scope = s.scope ∧ IsLatest db L := by
  have hmem : s ∈ db.sboms.rows.filter fun t => t.scope == s.scope :=
    List.mem_filter.2 ⟨hs, beq_self_eq_true _⟩
  cases hmax : (db.sboms.rows.filter fun t => t.scope == s.scope).argmax SBOM.rank with
  | none =>
    rw [List.argmax_eq_none.1 hmax] at hmem
    exact absurd hmem List.not_mem_nil
  | some L =>
    obtain ⟨hL, hscope⟩ := List.mem_filter.1 (List.argmax_mem hmax)
    refine ⟨L, hL, beq_iff_eq.1 hscope, fun t ht hts => ?_⟩
    refine List.le_of_mem_argmax (List.mem_filter.2 ⟨ht, ?_⟩) hmax
    rw [hts, beq_iff_eq.1 hscope, beq_self_eq_true]

/-- A scope has one latest SBOM. -/
theorem IsLatest.unique {db : Database} {a b : SBOM} (ha : IsLatest db a) (hb : IsLatest db b)
    (hadb : a ∈ db.sboms) (hbdb : b ∈ db.sboms) (hscope : a.scope = b.scope) : a = b := by
  have hrank : a.rank = b.rank := (hb a hadb hscope).antisymm (ha b hbdb hscope.symm)
  exact Database.sbom_eq hadb hbdb (congrArg (fun r => (ofLex r).2) hrank)

theorem IsLatest.uploadedAt_le {db : Database} {a s : SBOM} (ha : IsLatest db a)
    (hs : s ∈ db.sboms) (hscope : s.scope = a.scope) : s.uploadedAt ≤ a.uploadedAt := by
  rcases Prod.Lex.le_iff.1 (ha s hs hscope) with h | h
  · exact h.le
  · exact h.1.le

/-! ### What a scan does to the links -/

/-- The link `l` before a scan of `sbom` is `l'` after it: retired, reconciled or left alone. -/
def LinkImage (db' : Database) (sbom : SBOM) (report : Json) (inp : ScanInput)
    (l l' : SBOMVulnerability) : Prop :=
  (Stale db' sbom (ReportsCve report) l ∧ l' = l.fix inp.retiredAt) ∨
    (Superseded db' sbom l ∧ l' = l.fix inp.reconciledAt) ∨
    (¬ Stale db' sbom (ReportsCve report) l ∧ ¬ Superseded db' sbom l ∧ l' = l)

/-- The link that a scan of `sbom` inserts for a reported pair without a link. -/
def NewLink (db db' : Database) (sbom : SBOM) (report : Json) (l : SBOMVulnerability) : Prop :=
  ∃ purl c i, Reports report purl c ∧ db'.HasCve i c ∧
    (∀ a ∈ db.links, a.key ≠ (sbom.id, purl, i)) ∧ l = newLink sbom purl i

/-- The effect of a scan of `sbom` that worked with `report`. -/
structure ScanEffect (sbom : SBOM) (report : Json) (inp : ScanInput) (db db' : Database) :
    Prop where
  frame : db'.toTables = { db.toTables with
    vulnerabilities := db'.vulnerabilities, links := db'.links }
  hasCve : ∀ {i c}, db.HasCve i c → db'.HasCve i c
  stored : ∀ {purl c}, Reports report purl c → ∃ i, db'.HasCve i c
  old : ∀ l ∈ db.links, ∃ l' ∈ db'.links, LinkImage db' sbom report inp l l'
  new : ∀ l, NewLink db db' sbom report l → l ∈ db'.links
  origin : ∀ l' ∈ db'.links,
    (∃ l ∈ db.links, LinkImage db' sbom report inp l l') ∨ NewLink db db' sbom report l'

variable {env} {db db₁ db₂ db' : Database} {sbom : SBOM} {inp : ScanInput}

theorem not_superseded_of_eq {l : SBOMVulnerability} (h : l.sbomId = sbom.id) :
    ¬ Superseded db sbom l := fun hs => not_olderThan_self (h ▸ hs.1)

/-- The parts of a scan of `sbom` that works with `report`: `db₁` is the database with the matches
stored, `db₂` the one after the retirement. -/
structure ScanParts (sbom : SBOM) (report : Json) (inp : ScanInput)
    (db db₁ db₂ db' : Database) : Prop where
  grown : Grown sbom (Reports report) db db₁
  retired : Database.LinksUpdated (Stale db₁ sbom (ReportsCve report)) (·.fix inp.retiredAt)
    db₁ db₂
  reconciled : Database.LinksUpdated (Superseded db₂ sbom) (·.fix inp.reconciledAt) db₂ db'

namespace ScanParts

variable {report : Json} {l l' : SBOMVulnerability}
  (h : ScanParts sbom report inp db db₁ db₂ db')
include h

theorem hasCve_iff {i : Uuid} {c : String} : db'.HasCve i c ↔ db₁.HasCve i c :=
  h.reconciled.hasCve.trans h.retired.hasCve

theorem stale_iff : Stale db' sbom (ReportsCve report) l ↔
    Stale db₁ sbom (ReportsCve report) l := by
  simp only [Stale, h.hasCve_iff]

/-- The reconciliation closes nothing on `sbom` itself, so that it can be read off the result. -/
theorem superseded_iff : Superseded db' sbom l ↔ Superseded db₂ sbom l := by
  have hopen : ∀ v, db'.OpenOn sbom.id v ↔ db₂.OpenOn sbom.id v := fun v => by
    refine h.reconciled.openOn_fix.trans (exists_congr fun a => and_congr_right fun _ => ?_)
    exact and_iff_left_of_imp fun ha => not_superseded_of_eq ha.1
  simp only [Superseded, OlderThan, hopen, h.reconciled.sboms]

theorem exists_image (hl : l ∈ db₁.links) :
    ∃ l' ∈ db'.links, LinkImage db' sbom report inp l l' := by
  by_cases hst : Stale db₁ sbom (ReportsCve report) l
  · have hl₂ := h.retired.changed hl hst
    -- a link that was just retired is not open any more
    have hnot : ¬ Superseded db₂ sbom (l.fix inp.retiredAt) := by
      intro hsup
      cases hsup.2.1
    exact ⟨_, h.reconciled.kept hl₂ hnot, .inl ⟨h.stale_iff.2 hst, rfl⟩⟩
  · have hl₂ := h.retired.kept hl hst
    by_cases hsup : Superseded db₂ sbom l
    · exact ⟨_, h.reconciled.changed hl₂ hsup, .inr (.inl ⟨h.superseded_iff.2 hsup, rfl⟩)⟩
    · exact ⟨l, h.reconciled.kept hl₂ hsup,
        .inr (.inr ⟨mt h.stale_iff.1 hst, mt h.superseded_iff.1 hsup, rfl⟩)⟩

theorem exists_origin (hl' : l' ∈ db'.links) :
    ∃ l ∈ db₁.links, LinkImage db' sbom report inp l l' := by
  obtain ⟨l₂, hl₂, hrec⟩ := (h.reconciled.mem l').1 hl'
  obtain ⟨l, hl, hret⟩ := (h.retired.mem l₂).1 hl₂
  refine ⟨l, hl, ?_⟩
  rcases hret with ⟨hst, rfl⟩ | ⟨hst, rfl⟩
  · rcases hrec with ⟨hsup, -⟩ | ⟨-, rfl⟩
    · cases hsup.2.1
    · exact .inl ⟨h.stale_iff.2 hst, rfl⟩
  · rcases hrec with ⟨hsup, rfl⟩ | ⟨hsup, rfl⟩
    · exact .inr (.inl ⟨h.superseded_iff.2 hsup, rfl⟩)
    · exact .inr (.inr ⟨mt h.stale_iff.1 hst, mt h.superseded_iff.1 hsup, rfl⟩)

omit h in
/-- The link of a reported pair is neither stale nor superseded. -/
theorem image_newLink {purl c : String} {i : Uuid} (hrep : Reports report purl c)
    (hc : db'.HasCve i c) (himg : LinkImage db' sbom report inp (newLink sbom purl i) l') :
    l' = newLink sbom purl i := by
  rcases himg with ⟨hst, -⟩ | ⟨hsup, -⟩ | ⟨-, -, rfl⟩
  · exact absurd ⟨c, hrep.reportsCve, hc⟩ hst.2.2
  · exact absurd hsup (not_superseded_of_eq rfl)
  · rfl

/-- A link inserted by the loop is still there at the end. -/
theorem newLink_mem (hnew : NewLink db db' sbom report l) : l ∈ db'.links := by
  obtain ⟨purl, c, i, hrep, hc, hno, rfl⟩ := hnew
  obtain ⟨i', hi', l, hl, hkey⟩ := h.grown.linked purl c hrep
  obtain rfl := hi'.id_unique (h.hasCve_iff.1 hc)
  obtain ⟨purl', c', i, -, -, rfl⟩ := h.grown.new l hl fun hl => hno l hl hkey
  obtain ⟨rfl, rfl⟩ := Prod.mk.inj (Prod.mk.inj hkey).2
  obtain ⟨l', hl', himg⟩ := h.exists_image hl
  exact image_newLink hrep hc himg ▸ hl'

/-- The three parts of a scan, composed. -/
theorem effect : ScanEffect sbom report inp db db' where
  frame := by rw [h.reconciled.frame, h.retired.frame, h.grown.frame]
  hasCve hc := h.hasCve_iff.2 (h.grown.hasCve hc)
  stored hrep := by
    obtain ⟨i, hi, -⟩ := h.grown.linked _ _ hrep
    exact ⟨i, h.hasCve_iff.2 hi⟩
  old l hl := h.exists_image (h.grown.old l hl)
  new _ hnew := h.newLink_mem hnew
  origin l' hl' := by
    obtain ⟨l, hl, himg⟩ := h.exists_origin hl'
    by_cases hldb : l ∈ db.links
    · exact .inl ⟨l, hldb, himg⟩
    · obtain ⟨purl, c, i, hrep, hi, rfl⟩ := h.grown.new l hl hldb
      have hc := h.hasCve_iff.2 hi
      rw [image_newLink hrep hc himg]
      refine .inr ⟨purl, c, i, hrep, hc, fun a ha hkey => hldb ?_, rfl⟩
      rwa [← Database.link_eq (h.grown.old a ha) hl hkey]

end ScanParts

/-- The loop over the matches of a report, in terms of what the report says. -/
theorem processGrypeResults_grown {newId : String → Uuid} {results : Json} {vulns : List Json}
    (hs : sbom ∈ db.sboms)
    (h : processGrypeResults env db sbom newId results = .ok (db₁, vulns)) :
    Grown sbom (Reports results) db db₁ ∧ ∀ c, c ∈ reportedIds vulns ↔ ReportsCve results c := by
  obtain ⟨ms, hms, h⟩ := bind_eq_ok.1 h
  obtain ⟨hgrown, hids⟩ := processMatches_grown hs h
  rcases reportMatches_eq_ok hms with rfl | ⟨hnil, hstr⟩
  · exact ⟨hgrown, hids⟩
  · -- a string has no field, so the loop has not gone through any
    cases ms with
    | nil =>
      refine ⟨hgrown.congr fun purl c => ?_, fun c => (hids c).trans ?_⟩
      · simp [Reports, hnil]
      · simp [ReportsCve, hnil]
    | cons m ms =>
      obtain ⟨s, rfl⟩ := hstr m List.mem_cons_self
      obtain ⟨_, hone, -⟩ := bind_eq_ok.1 h
      cases hone

/-- A scan that produced a result stored the pairs of its report, and the result names the CVEs
of the report. -/
theorem scanWithGrype_eq_ok {scanResults : List Json} (hs : sbom ∈ db.sboms)
    (h : scanWithGrype env db sbom inp = .ok (some (db₁, scanResults))) :
    ∃ report, scanReport env sbom inp.grype = some report ∧ Grown sbom (Reports report) db db₁ ∧
      ∀ c, c ∈ reportedIds scanResults ↔ ReportsCve report c := by
  unfold scanWithGrype at h
  unfold scanReport
  -- grype ran on a document that is not empty; for an empty one the report is empty as well
  by_cases hraw : sbom.rawSbom.truthy
  · rw [if_pos hraw]
    simp only [hraw, Bool.not_true, Bool.false_eq_true, if_false] at h
    split at h
    · cases h
    · rename_i results hrun
      obtain ⟨p, hp, h⟩ := bind_eq_ok.1 h
      cases h
      exact ⟨results, hrun, processGrypeResults_grown hs hp⟩
  · rw [if_neg hraw]
    simp only [hraw, Bool.not_false, if_true] at h
    obtain ⟨rfl, rfl⟩ := Prod.mk.inj (Option.some.inj (Except.ok.inj h))
    refine ⟨_, rfl, (Grown.refl sbom db).congr fun purl c => ?_, fun c => ?_⟩
    · simp [Reports, Json.matches, Json.field]
    · simp [ReportsCve, reportedIds, Json.matches, Json.field]

/-- How the task ends: it writes nothing, or Grype had a result for a stored SBOM. -/
theorem doScanSbom_cases {sbomId : String} {e : ScanEnd}
    (h : doScanSbom env db sbomId inp = .ok (db', e)) :
    (db' = db ∧ e ≠ .scanned) ∨
      ∃ sbom ∈ db.sboms, env.parseUuid sbomId = some sbom.id ∧ ∃ db₁ scanResults db₂,
        scanWithGrype env db sbom inp = .ok (some (db₁, scanResults)) ∧
        db₂ = db₁.write
          (retireStaleVulnerabilities db₁ sbom (reportedIds scanResults) inp.retiredAt) ∧
        db' = db₂.writeAll (reconcileVulnerabilities db₂ sbom inp.reconciledAt) ∧
        e = .scanned := by
  unfold doScanSbom at h
  split at h
  · cases h
    exact .inl ⟨rfl, nofun⟩
  rename_i sbomUuid hid
  split at h
  · cases h
    exact .inl ⟨rfl, nofun⟩
  rename_i sbom hfind
  obtain ⟨hsbom, hsid⟩ := Table.mem_of_find? hfind
  obtain rfl := beq_iff_eq.1 hsid
  obtain ⟨r, hr, h⟩ := bind_eq_ok.1 h
  cases r with
  | none =>
    cases h
    exact .inl ⟨rfl, nofun⟩
  | some r =>
    cases h
    exact .inr ⟨sbom, hsbom, hid, _, _, _, hr, rfl, rfl, rfl⟩

/-- **What a successful scan did.**  It worked with the report of its inputs on the stored SBOM
it was asked for. -/
theorem doScanSbom_scanned {sbomId : String}
    (h : doScanSbom env db sbomId inp = .ok (db', .scanned)) :
    ∃ sbom ∈ db.sboms, env.parseUuid sbomId = some sbom.id ∧
      ∃ report, scanReport env sbom inp.grype = some report ∧
        ScanEffect sbom report inp db db' := by
  rcases doScanSbom_cases h with
    ⟨-, he⟩ | ⟨sbom, hsbom, hid, db₁, scanResults, db₂, hr, rfl, rfl, -⟩
  · exact absurd rfl he
  obtain ⟨report, hreport, hgrown, hids⟩ := scanWithGrype_eq_ok hsbom hr
  refine ⟨sbom, hsbom, hid, report, hreport,
    ScanParts.effect ⟨hgrown, ?_, reconcileVulnerabilities_updated⟩⟩
  refine retireStaleVulnerabilities_updated.congr fun l _ => ?_
  simp only [Stale, hids]

/-- The effect of a successful scan of a stored SBOM with a known report. -/
theorem scanEffect_of_message {sbomId : String} {report : Json} (hs : sbom ∈ db.sboms)
    (hid : env.parseUuid sbomId = some sbom.id)
    (hreport : scanReport env sbom inp.grype = some report)
    (h : doScanSbom env db sbomId inp = .ok (db', .scanned)) :
    ScanEffect sbom report inp db db' := by
  obtain ⟨t, ht, hid', r, hr, heffect⟩ := doScanSbom_scanned h
  obtain rfl := Database.sbom_eq hs ht (Option.some.inj (hid.symm.trans hid'))
  obtain rfl := Option.some.inj (hreport.symm.trans hr)
  exact heffect

theorem scanEffect_of_scanned {report : Json} (hs : sbom ∈ db.sboms)
    (hreport : scanReport env sbom inp.grype = some report)
    (h : doScanSbom env db (env.strUuid sbom.id) inp = .ok (db', .scanned)) :
    ScanEffect sbom report inp db db' :=
  scanEffect_of_message hs (env.parseUuid_strUuid _) hreport h

/-- A scan that did not commit changed nothing. -/
theorem doScanSbom_unchanged {sbomId : String} {e : ScanEnd}
    (h : doScanSbom env db sbomId inp = .ok (db', e)) (he : e ≠ .scanned) : db' = db := by
  rcases doScanSbom_cases h with ⟨hdb, -⟩ | ⟨_, -, -, _, _, _, -, -, -, hscanned⟩
  · exact hdb
  · exact absurd hscanned he

end ArgusSbomGuard
