import ArgusSbomGuard.Exposure.Ledger
import ArgusSbomGuard.Scan.Effect
import ArgusSbomGuard.System.Invariant

/-!
# Scans of different scopes do not interfere

A scan changes no link outside the scope of its SBOM, and inside the scope only links of the SBOM
itself and of strictly older ones.  On the statuses, named by SBOM, package and CVE id, a scan is
`Ledger.scan` (`ScanEffect.ledger`), so that scans of different scopes commute.

## Main definitions

* `Database.ledger` : the statuses of all links.
* `Supersedes` : the SBOMs whose links the reconciliation of a scan may fix.
* `Ledger.scanFor` : what a scan that may have failed does to the statuses.
-/

namespace ArgusSbomGuard

/-- The statuses of the links, by SBOM, package and CVE id. -/
def Database.ledger (db : Database) : Ledger Uuid String String := fun s =>
  ⟨fun purl c => db.HasLink s purl c .OPEN, fun purl c => db.HasLink s purl c .FIXED⟩

/-- The SBOMs that are older than `sbom` in the eyes of the reconciliation. -/
def Supersedes (db : Database) (sbom : SBOM) : Set Uuid := {i | OlderThan db sbom i}

/-- A scan of `sbom` on the statuses; without a report nothing changes. -/
noncomputable def Ledger.scanFor (L : Ledger Uuid String String) (sbom : SBOM) (old : Set Uuid) :
    Option Json → Ledger Uuid String String
  | none => L
  | some report => L.scan sbom.id old (Reports report) (ReportsCve report)

variable {env : Env} {db db' : Database} {sbom : SBOM} {report : Json} {inp : ScanInput}
  {l l' : SBOMVulnerability} {s v : Uuid} {purl c : String}

/-! ### Statuses -/

theorem Database.openOn_iff_hasOpen (hc : db.HasCve v c) :
    db.OpenOn s v ↔ (db.ledger s).HasOpen c := by
  constructor
  · rintro ⟨l, hl, hs, rfl, ho⟩
    exact ⟨l.dependencyPurl, l, hl, ⟨hs, rfl, ho⟩, hc⟩
  · rintro ⟨purl, l, hl, ⟨hs, -, ho⟩, hlc⟩
    exact ⟨l, hl, hs, hlc.id_unique hc, ho⟩

/-- The record of an SBOM knows a package and a CVE exactly when they have a link. -/
theorem Database.known_iff : (db.ledger s).Known purl c ↔
    ∃ l ∈ db.links, l.sbomId = s ∧ l.dependencyPurl = purl ∧ db.HasCve l.vulnerabilityId c := by
  constructor
  · rintro (⟨l, hl, ⟨hs, hp, -⟩, hc⟩ | ⟨l, hl, ⟨hs, hp, -⟩, hc⟩) <;> exact ⟨l, hl, hs, hp, hc⟩
  · rintro ⟨l, hl, hs, hp, hc⟩
    cases hst : l.status with
    | OPEN => exact .inl ⟨l, hl, ⟨hs, hp, hst⟩, hc⟩
    | FIXED => exact .inr ⟨l, hl, ⟨hs, hp, hst⟩, hc⟩

/-- What keeps an open link of SBOM `s` about the CVE `c` open in a scan of `sbom`. -/
def KeptOpen (db' : Database) (sbom : SBOM) (report : Json) (s : Uuid) (c : String) : Prop :=
  (s = sbom.id → ReportsCve report c) ∧
    (OlderThan db' sbom s → (db'.ledger sbom.id).HasOpen c)

theorem keptOpen_iff (ho : l.status = .OPEN) (hc : db'.HasCve l.vulnerabilityId c) :
    KeptOpen db' sbom report l.sbomId c ↔
      ¬ Stale db' sbom (ReportsCve report) l ∧ ¬ Superseded db' sbom l := by
  have hcve : (∃ c, ReportsCve report c ∧ db'.HasCve l.vulnerabilityId c) ↔
      ReportsCve report c :=
    ⟨fun ⟨_, hrep, hc'⟩ => hc'.cve_unique hc ▸ hrep, fun hrep => ⟨c, hrep, hc⟩⟩
  simp only [KeptOpen, Stale, Superseded, ho, hcve, Database.openOn_iff_hasOpen hc, true_and]
  tauto

theorem LinkImage.open_iff_kept (h : LinkImage db' sbom report inp l l')
    (hc : db'.HasCve l.vulnerabilityId c) :
    l'.status = .OPEN ↔ l.status = .OPEN ∧ KeptOpen db' sbom report l.sbomId c := by
  rw [h.open_iff]
  exact and_congr_right fun ho => (keptOpen_iff ho hc).symm

theorem LinkImage.fixed_iff (h : LinkImage db' sbom report inp l l')
    (hc : db'.HasCve l.vulnerabilityId c) :
    l'.status = .FIXED ↔
      l.status = .FIXED ∨ (l.status = .OPEN ∧ ¬ KeptOpen db' sbom report l.sbomId c) := by
  have hopen := h.open_iff_kept hc
  cases hl : l.status <;> cases hl' : l'.status <;> simp_all

namespace ScanEffect

variable (h : ScanEffect sbom report inp db db')
include h

/-- A link whose pair had none before the scan is a new one. -/
theorem newLink_iff : (∃ i, NewLink db db' sbom report (newLink sbom purl i) ∧ db'.HasCve i c) ↔
    Reports report purl c ∧ ¬ (db.ledger sbom.id).Known purl c := by
  rw [Database.known_iff]
  constructor
  · rintro ⟨i, ⟨purl', c', i', hrep, hi, hno, heq⟩, hc⟩
    obtain ⟨rfl, rfl⟩ : purl = purl' ∧ i = i' := by
      simpa [newLink] using heq
    obtain rfl := hi.cve_unique hc
    refine ⟨hrep, ?_⟩
    rintro ⟨l, hl, hs, hp, hlc⟩
    refine hno l hl ?_
    rw [SBOMVulnerability.key, hs, hp, ((h.hasCve_iff hl).2 hlc).id_unique hc]
  · rintro ⟨hrep, hno⟩
    obtain ⟨i, hi⟩ := h.stored hrep
    refine ⟨i, ⟨purl, c, i, hrep, hi, fun l hl hkey => hno ?_, rfl⟩, hi⟩
    obtain ⟨hs, hp, rfl⟩ : l.sbomId = sbom.id ∧ l.dependencyPurl = purl ∧
        l.vulnerabilityId = i := by
      simpa [SBOMVulnerability.key] using hkey
    exact ⟨l, hl, hs, hp, (h.hasCve_iff hl).1 hi⟩

theorem hasLink_open : db'.HasLink s purl c .OPEN ↔
    (db.HasLink s purl c .OPEN ∧ KeptOpen db' sbom report s c) ∨
      (s = sbom.id ∧ Reports report purl c ∧ ¬ (db.ledger s).Known purl c) := by
  constructor
  · rintro ⟨l', hl', ⟨rfl, rfl, ho⟩, hc⟩
    rcases h.origin l' hl' with ⟨l, hl, himg⟩ | hnew
    · rw [himg.vulnerabilityId] at hc
      obtain ⟨hlo, hkept⟩ := (himg.open_iff_kept hc).1 ho
      have hp : l.dependencyPurl = l'.dependencyPurl := congrArg (·.2.1) himg.key.symm
      exact .inl ⟨⟨l, hl, ⟨himg.sbomId.symm, hp, hlo⟩, (h.hasCve_iff hl).1 hc⟩,
        himg.sbomId ▸ hkept⟩
    · obtain ⟨purl, _, i, -, -, -, rfl⟩ := id hnew
      exact .inr ⟨rfl, h.newLink_iff.1 ⟨i, hnew, hc⟩⟩
  · rintro (⟨⟨l, hl, ⟨rfl, rfl, ho⟩, hc⟩, hkept⟩ | ⟨rfl, hnew⟩)
    · obtain ⟨l', hl', himg⟩ := h.old l hl
      have hc' := h.hasCve hc
      exact ⟨l', hl', ⟨himg.sbomId, congrArg (·.2.1) himg.key,
        (himg.open_iff_kept hc').2 ⟨ho, hkept⟩⟩, himg.vulnerabilityId ▸ hc'⟩
    · obtain ⟨i, hnew, hc⟩ := h.newLink_iff.2 hnew
      exact ⟨_, h.new _ hnew, ⟨rfl, rfl, rfl⟩, hc⟩

theorem hasLink_fixed : db'.HasLink s purl c .FIXED ↔ db.HasLink s purl c .FIXED ∨
    (db.HasLink s purl c .OPEN ∧ ¬ KeptOpen db' sbom report s c) := by
  constructor
  · rintro ⟨l', hl', ⟨rfl, rfl, hf⟩, hc⟩
    rcases h.origin l' hl' with ⟨l, hl, himg⟩ | ⟨_, _, _, -, -, -, rfl⟩
    · rw [himg.vulnerabilityId] at hc
      have hp : l.dependencyPurl = l'.dependencyPurl := congrArg (·.2.1) himg.key.symm
      have hcve := (h.hasCve_iff hl).1 hc
      rcases (himg.fixed_iff hc).1 hf with hlf | ⟨hlo, hkept⟩
      · exact .inl ⟨l, hl, ⟨himg.sbomId.symm, hp, hlf⟩, hcve⟩
      · exact .inr ⟨⟨l, hl, ⟨himg.sbomId.symm, hp, hlo⟩, hcve⟩, himg.sbomId ▸ hkept⟩
    · cases hf
  · have himage : ∀ l ∈ db.links, l.sbomId = s → l.dependencyPurl = purl →
        db.HasCve l.vulnerabilityId c → (l.status = .FIXED ∨
          (l.status = .OPEN ∧ ¬ KeptOpen db' sbom report s c)) →
            db'.HasLink s purl c .FIXED := by
      rintro l hl rfl rfl hc hst
      obtain ⟨l', hl', himg⟩ := h.old l hl
      have hc' := h.hasCve hc
      exact ⟨l', hl', ⟨himg.sbomId, congrArg (·.2.1) himg.key, (himg.fixed_iff hc').2 hst⟩,
        himg.vulnerabilityId ▸ hc'⟩
    rintro (⟨l, hl, ⟨hs, hp, hf⟩, hc⟩ | ⟨⟨l, hl, ⟨hs, hp, ho⟩, hc⟩, hkept⟩)
    · exact himage l hl hs hp hc (.inl hf)
    · exact himage l hl hs hp hc (.inr ⟨ho, hkept⟩)

/-- **A scan refines the scan of the ledger.** -/
theorem ledger : db'.ledger =
    db.ledger.scan sbom.id (Supersedes db sbom) (Reports report) (ReportsCve report) := by
  have hself : db'.ledger sbom.id =
      ((db.ledger sbom.id).enter (Reports report)).close (ReportsCve report) := by
    ext purl c
    · have hrep : Reports report purl c → ReportsCve report c := Reports.reportsCve
      refine h.hasLink_open.trans ?_
      simp only [KeptOpen, not_olderThan_self, false_implies, and_true, true_and, forall_const,
        Record.close, Record.enter, Database.ledger]
      tauto
    · have hrep : Reports report purl c → ReportsCve report c := Reports.reportsCve
      refine h.hasLink_fixed.trans ?_
      simp only [KeptOpen, not_olderThan_self, false_implies, and_true, forall_const,
        Record.close, Record.enter, Database.ledger]
      tauto
  funext s
  by_cases hs : s = sbom.id
  · rw [hs, Ledger.scan_self, hself]
  by_cases hold : OlderThan db sbom s
  · rw [Ledger.scan_of_mem hs hold, Ledger.scan_self, ← hself]
    ext purl c
    · refine h.hasLink_open.trans ?_
      simp only [KeptOpen, hs, h.olderThan, hold, false_implies, true_and, forall_const,
        false_and, or_false, Record.close, Database.ledger]
    · refine h.hasLink_fixed.trans ?_
      simp only [KeptOpen, hs, h.olderThan, hold, false_implies, true_and, forall_const,
        Record.close, Database.ledger]
  · rw [Ledger.scan_of_not_mem fun hmem => (Set.mem_insert_iff.1 hmem).elim hs hold]
    ext purl c
    · refine h.hasLink_open.trans ?_
      simp only [KeptOpen, hs, h.olderThan, hold, false_implies, and_true, false_and, or_false,
        Database.ledger]
    · refine h.hasLink_fixed.trans ?_
      simp only [KeptOpen, hs, h.olderThan, hold, false_implies, and_true, not_true, and_false,
        or_false, Database.ledger]

/-- A scan leaves the links of SBOMs alone that are neither scanned nor older. -/
theorem mem_links_iff (hs : l.sbomId ≠ sbom.id) (hold : ¬ OlderThan db sbom l.sbomId) :
    l ∈ db'.links ↔ l ∈ db.links := by
  have hkeep : ∀ {a a'}, LinkImage db' sbom report inp a a' → a.sbomId = l.sbomId → a' = a := by
    rintro a a' (⟨hst, -⟩ | ⟨hsup, -⟩ | ⟨-, -, rfl⟩) hid
    · exact absurd (hid.symm.trans hst.1) hs
    · exact absurd (h.olderThan.1 (hid ▸ hsup.1)) hold
    · rfl
  constructor
  · intro hl
    rcases h.origin l hl with ⟨a, ha, himg⟩ | ⟨_, _, _, -, -, -, rfl⟩
    · rwa [hkeep himg himg.sbomId.symm]
    · exact absurd rfl hs
  · intro hl
    obtain ⟨l', hl', himg⟩ := h.old l hl
    rwa [← hkeep himg rfl]

end ScanEffect

/-! ### Scans with and without a report -/

/-- A scan of a stored SBOM that did not commit had no report. -/
theorem scanReport_of_not_scanned {sbomId : String} {e : ScanEnd} (hs : sbom ∈ db.sboms)
    (hid : env.parseUuid sbomId = some sbom.id)
    (h : doScanSbom env db sbomId inp = .ok (db', e)) (he : e ≠ .scanned) :
    scanReport env sbom inp.grype = none := by
  have hfind : (db.sboms.find? fun a => a.id == sbom.id) = some sbom :=
    Table.find?_eq_some hs (beq_self_eq_true _) fun _ ha => .inl (beq_iff_eq.1 ha)
  simp only [doScanSbom, hid, hfind] at h
  obtain ⟨r, hr, h⟩ := bind_eq_ok.1 h
  cases r with
  | some r => exact absurd (Prod.mk.inj (Except.ok.inj h)).2.symm he
  | none =>
    unfold scanWithGrype at hr
    split at hr
    · cases hr
    · rename_i hraw
      split at hr
      · rename_i hrun
        rw [scanReport, if_pos (by simpa using hraw), hrun]
      · obtain ⟨_, -, hr⟩ := bind_eq_ok.1 hr
        cases hr

/-- What a completed scan of a stored SBOM did to the statuses. -/
theorem doScanSbom_ledger {e : ScanEnd} (hs : sbom ∈ db.sboms)
    (h : doScanSbom env db (env.strUuid sbom.id) inp = .ok (db', e)) :
    db'.sboms = db.sboms ∧ db'.ledger =
      db.ledger.scanFor sbom (Supersedes db sbom) (scanReport env sbom inp.grype) := by
  by_cases he : e = .scanned
  · subst he
    obtain ⟨t, ht, hid, report, hreport, heffect⟩ := doScanSbom_scanned h
    rw [env.parseUuid_strUuid] at hid
    obtain rfl := Database.sbom_eq hs ht (Option.some.inj hid)
    rw [hreport]
    exact ⟨heffect.sboms, heffect.ledger⟩
  · rw [scanReport_of_not_scanned hs (env.parseUuid_strUuid _) h he, doScanSbom_unchanged h he]
    exact ⟨rfl, rfl⟩

/-- SBOMs of different scopes supersede nothing in common. -/
theorem disjoint_supersedes {a b : SBOM} (hown : ServiceOwned db) (ha : a ∈ db.sboms)
    (hb : b ∈ db.sboms) (hscope : a.scope ≠ b.scope) :
    ∀ i ∈ insert a.id (Supersedes db a), i ∉ insert b.id (Supersedes db b) := by
  -- whatever a scan of `x` touches is in the scope of `x`
  have hin : ∀ {x}, x ∈ db.sboms → ∀ i ∈ insert x.id (Supersedes db x), InScope db x i := by
    rintro x hx i (rfl | hold)
    · exact ⟨x, hx, rfl, rfl⟩
    · exact inScope_of_olderThan hown hx rfl hold
  intro i hia hib
  obtain ⟨s, hs, hsa, rfl⟩ := hin ha i hia
  obtain ⟨t, ht, htb, hid⟩ := hin hb s.id hib
  exact hscope (by rw [← hsa, ← htb, Database.sbom_eq ht hs hid])

theorem Ledger.scanFor_comm {L : Ledger Uuid String String} {a b : SBOM} {olda oldb : Set Uuid}
    (hdisj : ∀ i ∈ insert a.id olda, i ∉ insert b.id oldb) (ra rb : Option Json) :
    (L.scanFor a olda ra).scanFor b oldb rb = (L.scanFor b oldb rb).scanFor a olda ra := by
  cases ra with
  | none => rfl
  | some ra =>
    cases rb with
    | none => rfl
    | some rb => exact Ledger.scan_comm hdisj

theorem hasLink_iff_of_ledger_eq {st : VulnerabilityStatus} (h : db.ledger = db'.ledger) :
    db.HasLink s purl c st ↔ db'.HasLink s purl c st := by
  have hs : db.ledger s = db'.ledger s := congrFun h s
  cases st with
  | OPEN => exact iff_of_eq (congrArg (fun R => R.isOpen purl c) hs)
  | FIXED => exact iff_of_eq (congrArg (fun R => R.isFixed purl c) hs)

/-- **Scan isolation and commutation.**  A completed scan of `a` leaves the links of every SBOM
alone that is in another scope, or in the same scope and not strictly older; and two scans of
SBOMs of different scopes give the same statuses in either order. -/
theorem scan_isolation (hown : ServiceOwned db) {a : SBOM} (ha : a ∈ db.sboms) {ia : ScanInput}
    {da : Database} {ea : ScanEnd}
    (hda : doScanSbom env db (env.strUuid a.id) ia = .ok (da, ea)) :
    (∀ l, (∃ t ∈ db.sboms, t.id = l.sbomId ∧ (t.scope ≠ a.scope ∨
        (t.id ≠ a.id ∧ ¬ t.uploadedAt < a.uploadedAt))) → (l ∈ da.links ↔ l ∈ db.links)) ∧
      ∀ b ∈ db.sboms, a.scope ≠ b.scope → ∀ {ib ia' ib' dab dB dba eb eb' ea'},
        doScanSbom env da (env.strUuid b.id) ib = .ok (dab, eb) →
        doScanSbom env db (env.strUuid b.id) ib' = .ok (dB, eb') →
        doScanSbom env dB (env.strUuid a.id) ia' = .ok (dba, ea') →
        ia'.grype = ia.grype → ib'.grype = ib.grype →
        ∀ s purl c st, dab.HasLink s purl c st ↔ dba.HasLink s purl c st := by
  constructor
  · rintro l ⟨t, ht, hid, hout⟩
    by_cases he : ea = .scanned
    · subst he
      obtain ⟨a', ha', hida, report, -, heffect⟩ := doScanSbom_scanned hda
      rw [env.parseUuid_strUuid] at hida
      obtain rfl := Database.sbom_eq ha ha' (Option.some.inj hida)
      refine heffect.mem_links_iff (fun hsame => ?_) (fun hold => ?_)
      · obtain rfl := Database.sbom_eq ht ha (hid.trans hsame)
        exact hout.elim (fun hn => hn rfl) (fun hn => hn.1 rfl)
      · obtain ⟨hscope, hlt⟩ := (olderThan_iff hown ha ht).1 (hid ▸ hold)
        exact hout.elim (fun hn => hn hscope) (fun hn => hn.2 hlt)
    · rw [doScanSbom_unchanged hda he]
  · intro b hb hscope ib ia' ib' dab dB dba eb eb' ea' hdab hdB hdba hia hib s purl c st
    obtain ⟨hsboms, hledger⟩ := doScanSbom_ledger ha hda
    obtain ⟨hsboms', hledger'⟩ := doScanSbom_ledger hb hdB
    have hold : Supersedes da b = Supersedes db b := by
      simp only [Supersedes, OlderThan, hsboms]
    have hold' : Supersedes dB a = Supersedes db a := by
      simp only [Supersedes, OlderThan, hsboms']
    refine hasLink_iff_of_ledger_eq ?_
    rw [(doScanSbom_ledger (hsboms ▸ hb) hdab).2, (doScanSbom_ledger (hsboms' ▸ ha) hdba).2,
      hledger, hledger', hold, hold', hia, hib]
    exact Ledger.scanFor_comm (disjoint_supersedes hown ha hb hscope) _ _

/-- A release without a service and one of a service. -/
def demoScopes : World :=
  demo [demoProject, demoUpload 1 10 100, demoScan 10 [1, 1] 110,
    .uploadSbom { demoForm 2 with serviceName := some "s" } ⟨5, 11, 200⟩] (by decide +kernel)

/-- Scans of the two releases in both orders, with the same reports. -/
theorem scan_isolation_demo :
    let db := demoScopes.db
    ∃ da, doScanSbom demoEnv db (demoEnv.strUuid 10) (demoInput [2, 1] 210) = .ok (da, .scanned) ∧
      ∃ dab, doScanSbom demoEnv da (demoEnv.strUuid 11) (demoInput [1, 1] 220) =
          .ok (dab, .scanned) ∧
        ∃ dB, doScanSbom demoEnv db (demoEnv.strUuid 11) (demoInput [1, 1] 210) =
            .ok (dB, .scanned) ∧
          ∃ dba, doScanSbom demoEnv dB (demoEnv.strUuid 10) (demoInput [2, 1] 220) =
              .ok (dba, .scanned) ∧
            (∀ l, l.sbomId = 11 → (l ∈ da.links ↔ l ∈ db.links)) ∧
              ∀ s purl c st, dab.HasLink s purl c st ↔ dba.HasLink s purl c st := by
  intro db
  obtain ⟨a, ha, hida, b, hb, hidb, hscope⟩ : ∃ a ∈ db.sboms, a.id = 10 ∧
      ∃ b ∈ db.sboms, b.id = 11 ∧ a.scope ≠ b.scope := by
    decide +kernel
  obtain ⟨da, hda, dab, hdab, -⟩ : ∃ da, doScanSbom demoEnv db (demoEnv.strUuid 10)
      (demoInput [2, 1] 210) = .ok (da, .scanned) ∧
        ∃ dab, doScanSbom demoEnv da (demoEnv.strUuid 11) (demoInput [1, 1] 220) =
          .ok (dab, .scanned) ∧ True := by
    decide +kernel
  obtain ⟨dB, hdB, dba, hdba, -⟩ : ∃ dB, doScanSbom demoEnv db (demoEnv.strUuid 11)
      (demoInput [1, 1] 210) = .ok (dB, .scanned) ∧
        ∃ dba, doScanSbom demoEnv dB (demoEnv.strUuid 10) (demoInput [2, 1] 220) =
          .ok (dba, .scanned) ∧ True := by
    decide +kernel
  refine ⟨da, hda, dab, hdab, dB, hdB, dba, hdba, ?_⟩
  rw [← hida] at hda hdba
  rw [← hidb] at hdab hdB
  have hown : ServiceOwned db := (systemInvariant demo_reachable).owned
  obtain ⟨hframe, hcomm⟩ := scan_isolation hown ha hda
  exact ⟨fun l hl => hframe l ⟨b, hb, hidb.trans hl.symm, .inl hscope.symm⟩,
    hcomm b hb hscope hdab hdB hdba rfl rfl⟩

end ArgusSbomGuard
