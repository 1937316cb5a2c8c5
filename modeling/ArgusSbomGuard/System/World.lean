import ArgusSbomGuard.Transition.Basic
import ArgusSbomGuard.Scan.Effect
import ArgusSbomGuard.Sbom.Delete
import ArgusSbomGuard.Sbom.Retention
import ArgusSbomGuard.Risk.Acceptance
import ArgusSbomGuard.Project.Projects

/-!
# The running system

The handlers and tasks as the actions of one machine.  Each action is one transaction; a request
that fails leaves the database as it was.  A message sent to the scan task may be delivered at
any time, in any order and more than once, so messages are never taken out of the queue.  What
comes from outside (uploaded bytes, runs of grype, new identifiers, times) is an input of the
action and is not restricted.

## Main definitions

* `World` : the database, the messages sent to `scan_sbom` and, for the statements of theorems
  only, the SBOMs scanned with success so far.
* `Action`, `World.step` : what can happen.
* `system` : the machine.
-/

namespace ArgusSbomGuard

structure World where
  db : Database
  /-- The messages sent to `scan_sbom`. -/
  queue : List String
  /-- The SBOMs that some run of `do_scan_sbom` scanned and committed. -/
  scanned : List Uuid

/-- The requests and tasks of the system. -/
inductive Action
  | createProject (data : ProjectCreate) (newId : Uuid)
  | deleteProject (projectId : Uuid)
  | deleteService (serviceId : Uuid)
  | uploadSbom (form : UploadForm) (inp : StoreInput)
  | grpcUploadSbom (request : UploadRequest) (inp : StoreInput)
  | scanSbom (message : String) (inp : ScanInput)
  | rescanVulnerabilities
  | deleteSbom (sbomId : Uuid) (tie : Uuid → ℕ) (now : DateTime)
  | pruneSboms (sbomRetentionDays : Option ℕ) (today : Date)
  | createRiskAcceptance (data : RiskAcceptanceCreate) (newId : Uuid) (now : DateTime)
  | deleteRiskAcceptance (acceptanceId : Uuid)

namespace World

/-- The database of a successful request; a failed one is rolled back. -/
def commit {ε : Type} (w : World) : Except ε Database → World
  | .ok db => { w with db }
  | .error _ => w

/-- A successful upload also sends a message. -/
def enqueue {ε R : Type} (w : World) : Except ε (Database × String × R) → World
  | .ok (db, message, _) => { w with db, queue := w.queue ++ [message] }
  | .error _ => w

/-- The `scan_sbom` task for a message. -/
def scan (env : Env) (w : World) (message : String) (inp : ScanInput) : World :=
  match doScanSbom env w.db message inp with
  | .ok (db, .scanned) =>
    { w with db, scanned := (env.parseUuid message).toList ++ w.scanned }
  | .ok (db, _) => { w with db }
  | .error _ => w

/-- The state after an action; only a message that was sent can be delivered. -/
def step (env : Env) (w : World) : Action → Option World
  | .createProject data newId => some (w.commit (createProject env w.db data newId))
  | .deleteProject projectId => some (w.commit (deleteProject w.db projectId))
  | .deleteService serviceId => some (w.commit (deleteService w.db serviceId))
  | .uploadSbom form inp => some (w.enqueue (uploadSbom env w.db form inp))
  | .grpcUploadSbom request inp => some (w.enqueue (grpcUploadSbom env w.db request inp))
  -- the message stays in the queue, so that it may be delivered again
  | .scanSbom message inp => if message ∈ w.queue then some (w.scan env message inp) else none
  | .rescanVulnerabilities =>
    some { w with queue := w.queue ++ (latestSbomIds w.db).map env.strUuid }
  | .deleteSbom sbomId tie now => some (w.commit (deleteSbom w.db sbomId tie now))
  | .pruneSboms days today => some (w.commit (pruneSboms w.db days today))
  | .createRiskAcceptance data newId now =>
    some (w.commit (createRiskAcceptance w.db data newId now))
  | .deleteRiskAcceptance acceptanceId =>
    some (w.commit (deleteRiskAcceptance w.db acceptanceId))

end World

/-- The system, started on an empty database. -/
def system (env : Env) : Machine World Action where
  init := ⟨.empty, [], []⟩
  step := World.step env

variable {env : Env} {w w' : World}

namespace World

/-- What a request can do to the world. -/
theorem commit_cases {ε : Type} {r : Except ε Database} (h : w.commit r = w') :
    w' = w ∨ ∃ db', r = .ok db' ∧ w' = { w with db := db' } := by
  cases r with
  | error e => exact .inl h.symm
  | ok db => exact .inr ⟨db, rfl, h.symm⟩

theorem enqueue_cases {ε R : Type} {r : Except ε (Database × String × R)}
    (h : w.enqueue r = w') : w' = w ∨ ∃ db' message response, r = .ok (db', message, response) ∧
      w' = { w with db := db', queue := w.queue ++ [message] } := by
  cases r with
  | error e => exact .inl h.symm
  | ok r => exact .inr ⟨r.1, r.2.1, r.2.2, rfl, h.symm⟩

/-- What holds of the database before a request and of any result holds after it. -/
theorem commit_elim {ε : Type} {r : Except ε Database} {P : Database → Prop}
    (h : w.commit r = w') (hsame : P w.db) (hr : ∀ db', r = .ok db' → P db') : P w'.db := by
  rcases commit_cases h with rfl | ⟨db', hok, rfl⟩
  · exact hsame
  · exact hr db' hok

theorem enqueue_elim {ε R : Type} {r : Except ε (Database × String × R)} {P : Database → Prop}
    (h : w.enqueue r = w') (hsame : P w.db)
    (hr : ∀ db' message response, r = .ok (db', message, response) → P db') : P w'.db := by
  rcases enqueue_cases h with rfl | ⟨db', message, response, hok, rfl⟩
  · exact hsame
  · exact hr db' message response hok

/-- A run of the scan task either commits a scan or leaves the world as it was. -/
theorem scan_outcome {message : String} {inp : ScanInput} (h : w.scan env message inp = w') :
    (∃ db', doScanSbom env w.db message inp = .ok (db', .scanned) ∧
      w' = { w with db := db', scanned := (env.parseUuid message).toList ++ w.scanned }) ∨
    w' = w ∧ ∀ db', doScanSbom env w.db message inp ≠ .ok (db', .scanned) := by
  unfold scan at h
  split at h
  · rename_i db' hscan
    exact .inl ⟨db', hscan, h.symm⟩
  -- a scan that is not committed writes nothing
  · rename_i db' e hne hscan
    rw [doScanSbom_unchanged hscan hne] at h
    refine .inr ⟨h.symm, fun db'' hok => hne ?_⟩
    exact congrArg Prod.snd (Except.ok.inj (hscan.symm.trans hok))
  · rename_i e herr
    exact .inr ⟨h.symm, fun db'' hok => nomatch herr.symm.trans hok⟩

/-- A run of the scan task changes nothing, or scans a stored SBOM. -/
theorem scan_cases {message : String} {inp : ScanInput} (h : w.scan env message inp = w') :
    w' = w ∨ ∃ sbom ∈ w.db.sboms, ∃ report, scanReport env sbom inp.grype = some report ∧
      env.parseUuid message = some sbom.id ∧ ScanEffect sbom report inp w.db w'.db ∧
        w'.queue = w.queue ∧ w'.scanned = sbom.id :: w.scanned := by
  rcases scan_outcome h with ⟨db', hscan, rfl⟩ | ⟨rfl, -⟩
  · obtain ⟨sbom, hsbom, hid, report, hreport, heffect⟩ := doScanSbom_scanned hscan
    exact .inr ⟨sbom, hsbom, report, hreport, hid, heffect, rfl, by rw [hid]; rfl⟩
  · exact .inl rfl

/-- What an action did to the database: nothing, or what the operation behind it did. -/
inductive StepEffect (env : Env) (a : Action) (db db' : Database) : Prop
  | unchanged (h : db' = db)
  | createProject {data : ProjectCreate} {newId : Uuid}
    (h : createProject env db data newId = .ok db')
  | deleteProject {projectId : Uuid} (h : deleteProject db projectId = .ok db')
  | deleteService {serviceId : Uuid} (h : deleteService db serviceId = .ok db')
  | storeSbom {projectId : Uuid} {raw : Json} {version serviceName : Option String}
    {inp : StoreInput} {sbom : SBOM}
    (h : storeSbom env db projectId raw version serviceName inp = .ok (db', sbom))
  | scanSbom {message : String} {inp : ScanInput} {sbom : SBOM} {report : Json}
    (ha : a = .scanSbom message inp) (hsbom : sbom ∈ db.sboms)
    (h : ScanEffect sbom report inp db db')
  | deleteSbom {sbomId : Uuid} {tie : Uuid → ℕ} {now : DateTime}
    (ha : a = .deleteSbom sbomId tie now)
    (h : deleteSbom db sbomId tie now = .ok db')
  | pruneSboms {days : Option ℕ} {today : Date}
    (h : pruneSboms db days today = .ok db')
  | createRiskAcceptance {data : RiskAcceptanceCreate} {newId : Uuid} {now : DateTime}
    (h : createRiskAcceptance db data newId now = .ok db')
  | deleteRiskAcceptance {acceptanceId : Uuid}
    (h : deleteRiskAcceptance db acceptanceId = .ok db')

theorem step_effect {a : Action} (hst : step env w a = some w') :
    StepEffect env a w.db w'.db := by
  cases a with
  | createProject data newId =>
    exact commit_elim (Option.some.inj hst) (.unchanged rfl) fun db' hok => .createProject hok
  | deleteProject projectId =>
    exact commit_elim (Option.some.inj hst) (.unchanged rfl) fun db' hok => .deleteProject hok
  | deleteService serviceId =>
    exact commit_elim (Option.some.inj hst) (.unchanged rfl) fun db' hok => .deleteService hok
  | uploadSbom form inp =>
    refine enqueue_elim (Option.some.inj hst) (.unchanged rfl) fun db' message response hok => ?_
    obtain ⟨project, raw, version, serviceName, sbom, hstore, -⟩ := uploadSbom_eq_ok hok
    exact .storeSbom hstore
  | grpcUploadSbom request inp =>
    refine enqueue_elim (Option.some.inj hst) (.unchanged rfl) fun db' message response hok => ?_
    obtain ⟨project, raw, version, serviceName, sbom, hstore, -⟩ := grpcUploadSbom_eq_ok hok
    exact .storeSbom hstore
  | scanSbom message inp =>
    simp only [step] at hst
    split at hst
    case isFalse => cases hst
    rcases scan_cases (Option.some.inj hst) with rfl | ⟨sbom, hs, report, -, -, heffect, -⟩
    · exact .unchanged rfl
    · exact .scanSbom rfl hs heffect
  | rescanVulnerabilities =>
    obtain rfl := Option.some.inj hst
    exact .unchanged rfl
  | deleteSbom sbomId tie now =>
    exact commit_elim (Option.some.inj hst) (.unchanged rfl) fun db' hok => .deleteSbom rfl hok
  | pruneSboms days today =>
    exact commit_elim (Option.some.inj hst) (.unchanged rfl) fun db' hok => .pruneSboms hok
  | createRiskAcceptance data newId now =>
    exact commit_elim (Option.some.inj hst) (.unchanged rfl) fun db' hok =>
      .createRiskAcceptance hok
  | deleteRiskAcceptance acceptanceId =>
    exact commit_elim (Option.some.inj hst) (.unchanged rfl) fun db' hok =>
      .deleteRiskAcceptance hok

end World

/-! ### A concrete system

An environment in which runs can be evaluated.  The names it works with are rows of one letter. -/

/-- A name of `n` letters. -/
def demoName (c : Char) (n : ℕ) : String := String.ofList (List.replicate n c)

/-- A document; its serial number serves as its hash. -/
def demoDocument (serial : ℕ) : Json :=
  .obj [("bomFormat", .str "CycloneDX"), ("serialNumber", .str (demoName 's' serial))]

/-- The matches of a report, given by the number of their package and that of their CVE. -/
def demoMatches : List UInt8 → List Json
  | p :: c :: rest =>
    .obj [("vulnerability", .obj [("id", .str (demoName 'c' c.toNat))]),
      ("artifact", .obj [("purl", .str (demoName 'p' p.toNat))])] :: demoMatches rest
  | _ => []

/-- A report of grype. -/
def demoReport (pairs : List UInt8) : Json := .obj [("matches", .arr (demoMatches pairs))]

def demoEnv : Env where
  loads
    | [] => .ok (.obj [])
    | 0 :: serial :: _ => .ok (demoDocument serial.toNat)
    | 1 :: pairs => .ok (demoReport pairs)
    | _ => .error .jsonDecodeError
  loadsError _ := "Expecting value: line 1 column 1 (char 0)"
  loneSurrogate _ := false
  loneSurrogate_private _ h := nomatch h
  stripCalls := 900
  dumpsDepth := 3000
  columnDepth := 3000
  sha256 j := match j.field "serialNumber" with
    | .str s => s
    | _ => ""
  fromisoformat _ := none
  parseUuid s := some s.length
  strUuid := demoName 'u'
  parseUuid_strUuid i := by simp [demoName]
  takesUuid _ := true
  slugify s := s

/-- The only project of the demonstration. -/
def demoProject : Action := .createProject ⟨"project", by decide⟩ 1

/-- The form that uploads the document with a serial number. -/
def demoForm (serial : UInt8) : UploadForm := ⟨none, some "project", none, none, [0, serial]⟩

/-- Upload the document with a serial number as the SBOM `id`. -/
def demoUpload (serial : UInt8) (id : Uuid) (now : DateTime) : Action :=
  .uploadSbom (demoForm serial) ⟨0, id, now⟩

/-- A run of grype that reports the given pairs of package and CVE. -/
def demoInput (pairs : List UInt8) (now : DateTime) : ScanInput :=
  ⟨.exited 0 (1 :: pairs), String.length, now, now⟩

/-- Scan the SBOM `id`. -/
def demoScan (id : Uuid) (pairs : List UInt8) (now : DateTime) : Action :=
  .scanSbom (demoEnv.strUuid id) (demoInput pairs now)

/-- The demonstration after some actions, all of which can happen. -/
def demo (as : List Action) (h : ((system demoEnv).run (system demoEnv).init as).isSome) : World :=
  (system demoEnv).after as h

theorem demo_reachable {as : List Action}
    {h : ((system demoEnv).run (system demoEnv).init as).isSome} :
    (system demoEnv).Reachable (demo as h) :=
  Machine.reachable_after

/-- A release with one finding. -/
def demoFound : World :=
  demo [demoProject, demoUpload 1 10 100, demoScan 10 [1, 1] 110] (by decide +kernel)

/-- A release whose finding a rescan has retired. -/
def demoRetired : World :=
  demo [demoProject, demoUpload 1 10 100, demoScan 10 [1, 1] 110, demoScan 10 [] 120]
    (by decide +kernel)

/-- A release with one finding, and a newer one that is not scanned yet. -/
def demoUploaded : World :=
  demo [demoProject, demoUpload 1 10 100, demoScan 10 [1, 1] 110, demoUpload 2 11 200]
    (by decide +kernel)

/-- Two releases with different findings, each scanned before the next upload. -/
def demoScanned : World :=
  demo [demoProject, demoUpload 1 10 100, demoScan 10 [1, 1] 110, demoUpload 2 11 200,
    demoScan 11 [2, 2] 210] (by decide +kernel)

/-- A scan in the demonstration works with the report of its input. -/
theorem demo_report {sbom : SBOM} (h : sbom.rawSbom.truthy = true) (pairs : List UInt8)
    (now : DateTime) :
    scanReport demoEnv sbom (demoInput pairs now).grype = some (demoReport pairs) := by
  rw [scanReport, if_pos h]
  rfl

end ArgusSbomGuard
