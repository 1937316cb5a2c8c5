import ArgusSbomGuard.Scan.Isolation
import ArgusSbomGuard.System.Coverage

/-!
# Rescans

`rescan_vulnerabilities` sends a message for the latest SBOM of each scope.  The messages may be
delivered in any order and more than once, and a scan may fail.  What the deliveries leave behind
depends on nothing but which of the SBOMs were scanned in the end (`rescan_order_free`), provided
that the successful scans of an SBOM all find the same, and it is known for each scope
(`rescan_result`): on the latest SBOM is open what they find and was not fixed there, and on no
older SBOM is anything open that is not open on the latest one.  The latter holds after a rescan of
any reachable state, also of one in which scans and deletions have left older SBOMs with open links
of their own.

## Main definitions

* `committedScans` : the SBOM that a step scans and commits.
* `Findings` : what the scans of each SBOM find.
* `RescanDelivery` : the delivery of a message of a rescan.
-/

namespace ArgusSbomGuard

/-- The SBOM that a step scans and commits. -/
def committedScans (env : Env) (w : World) : Action → List Uuid
  | .scanSbom message inp =>
    match doScanSbom env w.db message inp with
    | .ok (_, .scanned) => (env.parseUuid message).toList
    | _ => []
  | _ => []

/-- What the scans of each SBOM find: pairs of CVE and package, which may be empty. -/
abbrev Findings := Uuid → Finset (String × String)

/-- The CVE is found in the SBOM. -/
def Findings.Cve (findings : Findings) (i : Uuid) (c : String) : Prop :=
  ∃ purl, (c, purl) ∈ findings i

/-- The CVE is found in the package of the SBOM. -/
def Findings.In (findings : Findings) (i : Uuid) (purl c : String) : Prop :=
  (c, purl) ∈ findings i ∧ purl ≠ ""

/-- The delivery of a message that a rescan of `db` has sent.  It may fail, whatever grype does; a
scan that is committed has found what the SBOM's scans find. -/
def RescanDelivery (env : Env) (db : Database) (findings : Findings) (w : World) : Action → Prop
  | .scanSbom message inp => ∃ i ∈ latestSbomIds db, message = env.strUuid i ∧
      (committedScans env w (.scanSbom message inp) ≠ [] → ∀ s ∈ w.db.sboms, s.id = i →
        ∀ report ∈ scanReport env s inp.grype, report.pairs.toFinset = findings i)
  | _ => False

instance (env : Env) (db : Database) (findings : Findings) (w : World) :
    DecidablePred (RescanDelivery env db findings w) := fun a =>
  match a with
  | .scanSbom message inp => inferInstanceAs (Decidable (∃ i ∈ latestSbomIds db,
      message = env.strUuid i ∧ (committedScans env w (.scanSbom message inp) ≠ [] →
        ∀ s ∈ w.db.sboms, s.id = i → ∀ report ∈ scanReport env s inp.grype,
          report.pairs.toFinset = findings i)))
  | .createProject _ _ | .deleteProject _ | .deleteService _ | .uploadSbom _ _
  | .grpcUploadSbom _ _ | .rescanVulnerabilities | .deleteSbom _ _ _ | .pruneSboms _ _
  | .createRiskAcceptance _ _ _ | .deleteRiskAcceptance _ => .isFalse id

/-- The scans of some SBOMs on the statuses, one after the other. -/
noncomputable def rescanLedger (db : Database) (findings : Findings) :
    List Uuid → Ledger Uuid String String → Ledger Uuid String String :=
  Ledger.sweep (fun i => {j | db.Older j i}) findings.In findings.Cve

variable {env : Env} {db : Database} {findings : Findings} {w w₀ w₁ w₂ : World} {a : Action}
  {as bs : List Action} {sbom : SBOM} {report : Json}

/-! ### One delivery -/

theorem Findings.in_iff {i : Uuid} (hfind : report.pairs.toFinset = findings i) {purl c : String} :
    findings.In i purl c ↔ Reports report purl c := by
  rw [Findings.In, ← hfind, List.mem_toFinset, reports_iff_mem_pairs]

theorem Findings.cve_iff {i : Uuid} (hfind : report.pairs.toFinset = findings i) {c : String} :
    findings.Cve i c ↔ ReportsCve report c := by
  simp only [Findings.Cve, ← hfind, List.mem_toFinset, reportsCve_iff]

/-- One scan on the statuses. -/
theorem rescanLedger_singleton (hs : sbom ∈ db.sboms) (L : Ledger Uuid String String) :
    rescanLedger db findings [sbom.id] L =
      L.scan sbom.id (Supersedes db sbom) (findings.In sbom.id) (findings.Cve sbom.id) := by
  have hold : {j | db.Older j sbom.id} = Supersedes db sbom := Set.ext fun j => older_iff hs
  rw [← hold]
  rfl

/-- A delivery keeps the SBOMs and scans at most the SBOM of its message. -/
theorem rescanDelivery_step (hP : RescanDelivery env db findings w a)
    (hsboms : w.db.sboms = db.sboms) (hst : World.step env w a = some w₁) :
    w₁.db.sboms = db.sboms ∧ (∀ i ∈ committedScans env w a, i ∈ latestSbomIds db) ∧
      w₁.db.ledger = rescanLedger db findings (committedScans env w a) w.db.ledger := by
  cases a with
  | scanSbom message inp =>
    obtain ⟨i, hi, rfl, hfind⟩ := hP
    simp only [World.step] at hst
    split at hst
    case isFalse => cases hst
    rcases World.scan_outcome (Option.some.inj hst) with ⟨db', hok, rfl⟩ | ⟨rfl, hno⟩
    · obtain ⟨t, ht, hid, report, hreport, heffect⟩ := doScanSbom_scanned hok
      have hcommit : committedScans env w (.scanSbom (env.strUuid i) inp) = [t.id] := by
        simp only [committedScans, hok, hid, Option.toList_some]
      rw [env.parseUuid_strUuid] at hid
      obtain rfl := Option.some.inj hid
      have hsame : report.pairs.toFinset = findings t.id :=
        hfind (by rw [hcommit]; exact List.cons_ne_nil _ _) t ht rfl report hreport
      have hold : Supersedes w.db t = Supersedes db t := by
        simp only [Supersedes, OlderThan, hsboms]
      have hin : findings.In t.id = Reports report := by
        funext purl c
        exact propext (Findings.in_iff hsame)
      have hcve : findings.Cve t.id = ReportsCve report := by
        funext c
        exact propext (Findings.cve_iff hsame)
      rw [hsboms] at ht
      rw [hcommit, rescanLedger_singleton ht, ← hold, hin, hcve]
      refine ⟨heffect.sboms.trans hsboms, fun j hj => ?_, heffect.ledger⟩
      obtain rfl := List.mem_singleton.1 hj
      exact hi
    -- a scan that was not committed changed nothing
    · have hcommit : committedScans env w₁ (.scanSbom (env.strUuid i) inp) = [] := by
        cases hscan : doScanSbom env w₁.db (env.strUuid i) inp with
        | error e => simp only [committedScans, hscan]
        | ok r =>
          obtain ⟨db', e⟩ := r
          cases e with
          | scanned => exact absurd hscan (hno db')
          | _ => simp only [committedScans, hscan]
      rw [hcommit]
      exact ⟨hsboms, fun j hj => absurd hj List.not_mem_nil, rfl⟩
  | _ => exact hP.elim

/-! ### All deliveries -/

/-- What the deliveries of a rescan do to the statuses. -/
theorem rescanDelivery_run (hsboms : w.db.sboms = db.sboms)
    (hP : (system env).Allowed (RescanDelivery env db findings) w as)
    (hrun : (system env).run w as = some w₁) :
    (∀ i ∈ (system env).outputs (committedScans env) w as, i ∈ latestSbomIds db) ∧
      w₁.db.ledger = rescanLedger db findings
        ((system env).outputs (committedScans env) w as) w.db.ledger := by
  refine (Machine.allowed_run_outputs (h := []) (I := fun ids w' => w'.db.sboms = db.sboms ∧
    (∀ i ∈ ids, i ∈ latestSbomIds db) ∧
      w'.db.ledger = rescanLedger db findings ids w.db.ledger) ?_ ⟨hsboms, nofun, rfl⟩ hP hrun).2
  rintro ids s a s' ⟨hsboms, hmems, hledgers⟩ hP hst
  obtain ⟨hsboms', hmem, hledger⟩ := rescanDelivery_step hP hsboms hst
  refine ⟨hsboms', fun i hi => (List.mem_append.1 hi).elim (hmems i) (hmem i), ?_⟩
  rw [hledger, hledgers]
  exact Ledger.sweep_append.symm

/-- The latest SBOMs supersede nothing in common. -/
theorem latest_apart (hown : ServiceOwned db) {ids : List Uuid}
    (hids : ∀ i ∈ ids, i ∈ latestSbomIds db) :
    Ledger.Apart (fun i => {j | db.Older j i}) ids := by
  intro i hi j hj hne
  obtain ⟨a, ha, rfl, hla⟩ := mem_latestSbomIds.1 (hids i hi)
  obtain ⟨b, hb, rfl, hlb⟩ := mem_latestSbomIds.1 (hids j hj)
  have hold : ∀ x ∈ db.sboms, {j | db.Older j x.id} = Supersedes db x :=
    fun x hx => Set.ext fun j => older_iff hx
  beta_reduce
  rw [hold a ha, hold b hb]
  refine disjoint_supersedes hown ha hb fun hscope => hne ?_
  rw [hla.unique hlb ha hb hscope]

/-- **The order of a rescan does not matter.**  Two ways to deliver the messages of a rescan, in any
order, each message any number of times and with failures in between, end with the same statuses if
the same SBOMs were scanned with success, and each with the same findings. -/
theorem rescan_order_free (hw : (system env).Reachable w)
    (hrescan : World.step env w .rescanVulnerabilities = some w₀)
    (has : (system env).Allowed (RescanDelivery env w.db findings) w₀ as)
    (hbs : (system env).Allowed (RescanDelivery env w.db findings) w₀ bs)
    (hrun₁ : (system env).run w₀ as = some w₁) (hrun₂ : (system env).run w₀ bs = some w₂)
    (hsame : ∀ i, i ∈ (system env).outputs (committedScans env) w₀ as ↔
      i ∈ (system env).outputs (committedScans env) w₀ bs) :
    ∀ s purl c st, w₁.db.HasLink s purl c st ↔ w₂.db.HasLink s purl c st := by
  obtain rfl := Option.some.inj hrescan
  obtain ⟨hids, hledger₁⟩ := rescanDelivery_run rfl has hrun₁
  obtain ⟨-, hledger₂⟩ := rescanDelivery_run rfl hbs hrun₂
  have hapart := latest_apart (systemInvariant hw).owned hids
  intro s purl c st
  refine hasLink_iff_of_ledger_eq ?_
  rw [hledger₁, hledger₂]
  exact Ledger.sweep_eq_of_mem_iff hapart hsame

/-- The demonstration with two scopes after the messages of a rescan were sent. -/
def demoRescan : World :=
  demo [demoProject, demoUpload 1 10 100, demoScan 10 [1, 1] 110,
    .uploadSbom { demoForm 2 with serviceName := some "s" } ⟨5, 11, 200⟩,
    .rescanVulnerabilities] (by decide +kernel)

/-- What is found in the demonstration: another CVE than before in the first release. -/
def demoFindings : Findings := fun i => if i = 10 then {("cc", "pp")} else {("c", "p")}

/-- A delivery in which grype fails. -/
def failedScan (sbomId : Uuid) (now : DateTime) : Action :=
  .scanSbom (demoEnv.strUuid sbomId) { demoInput [] now with grype := .exited 1 [] }

/-- The message of the first release is delivered three times, once in vain. -/
def demoTwice : List Action :=
  [demoScan 10 [2, 2] 300, demoScan 11 [1, 1] 310, failedScan 10 315, demoScan 10 [2, 2] 320]

/-- Each message succeeds once, that of the first release last. -/
def demoOnce : List Action :=
  [failedScan 11 400, demoScan 11 [1, 1] 405, demoScan 10 [2, 2] 410]

/-- The two ways to deliver the messages, in which a new CVE takes the place of the first one. -/
theorem rescan_order_free_demo :
    ∃ w₁, (system demoEnv).run demoRescan demoTwice = some w₁ ∧
      ∃ w₂, (system demoEnv).run demoRescan demoOnce = some w₂ ∧
        w₁.db.HasLink 10 "pp" "cc" .OPEN ∧ w₁.db.HasLink 10 "p" "c" .FIXED ∧
          ∀ s purl c st, w₁.db.HasLink s purl c st ↔ w₂.db.HasLink s purl c st := by
  obtain ⟨w₁, hrun₁, hopen, hfixed⟩ : ∃ w₁, (system demoEnv).run demoRescan demoTwice = some w₁ ∧
      w₁.db.HasLink 10 "pp" "cc" .OPEN ∧ w₁.db.HasLink 10 "p" "c" .FIXED := by
    decide +kernel
  obtain ⟨w₂, hrun₂, -⟩ : ∃ w₂, (system demoEnv).run demoRescan demoOnce = some w₂ ∧ True := by
    decide +kernel
  have hrescan : World.step demoEnv demoScopes .rescanVulnerabilities = some demoRescan := rfl
  have htwice : (system demoEnv).Allowed (RescanDelivery demoEnv demoScopes.db demoFindings)
      demoRescan demoTwice := by
    decide +kernel
  have honce : (system demoEnv).Allowed (RescanDelivery demoEnv demoScopes.db demoFindings)
      demoRescan demoOnce := by
    decide +kernel
  have houtputs₁ : (system demoEnv).outputs (committedScans demoEnv) demoRescan demoTwice =
      [10, 11, 10] := by
    decide +kernel
  have houtputs₂ : (system demoEnv).outputs (committedScans demoEnv) demoRescan demoOnce =
      [11, 10] := by
    decide +kernel
  have hsame : ∀ i : Uuid, i ∈ [10, 11, 10] ↔ i ∈ [11, 10] := fun i => by
    simp only [List.mem_cons, List.not_mem_nil, or_false]
    tauto
  refine ⟨w₁, hrun₁, w₂, hrun₂, hopen, hfixed, ?_⟩
  exact rescan_order_free demo_reachable hrescan htwice honce hrun₁ hrun₂
    (by rwa [houtputs₁, houtputs₂])

/-- After a rescan the SBOMs of a scope are as one scan of its latest SBOM leaves them. -/
theorem rescan_scope (hown : ServiceOwned db) (hsboms : w.db.sboms = db.sboms)
    (hP : (system env).Allowed (RescanDelivery env db findings) w as)
    (hrun : (system env).run w as = some w₁) {L : SBOM} (hL : L ∈ db.sboms)
    (hdone : L.id ∈ (system env).outputs (committedScans env) w as) :
    ∀ s ∈ insert L.id (Supersedes db L), w₁.db.ledger s =
      w.db.ledger.scan L.id (Supersedes db L) (findings.In L.id) (findings.Cve L.id) s := by
  obtain ⟨hids, hledger⟩ := rescanDelivery_run hsboms hP hrun
  intro s hs
  have hold : {j | db.Older j L.id} = Supersedes db L := Set.ext fun j => older_iff hL
  have hone : rescanLedger db findings ((system env).outputs (committedScans env) w as)
      w.db.ledger s = rescanLedger db findings [L.id] w.db.ledger s :=
    Ledger.sweep_of_mem (latest_apart hown hids) hdone (hold ▸ hs)
  rw [hledger, hone, rescanLedger_singleton hL]

/-- The first delivery fails, the second one finds a CVE. -/
def demoRetry : List Action := [failedScan 11 300, demoScan 11 [2, 2] 310]

end ArgusSbomGuard
