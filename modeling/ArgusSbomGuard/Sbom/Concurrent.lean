import ArgusSbomGuard.Sbom.Calls
import ArgusSbomGuard.System.Uploads
import Mathlib.Algebra.Order.BigOperators.Group.Finset

/-!
# Concurrent uploads

Nothing keeps a call of `store_sbom` from inserting a row that another call has looked up in vain,
and the error of the other one's insert is not caught (`concurrent_uploads_fail`).  In the runs in
which no call commits such a row, every accepted document is stored, and no call waits for ever
(`concurrent_uploads_end_well`).

## Main definitions

* `UploadCall.Cut`, `StorePc.Awaits`, `CommitsApart` : the condition on a move.
* `StoreProgress` : what holds of a call between two steps.
* `UploadsInOrder` : the invariant.
* `UploadsEndWell` : what should hold in every state.
-/

namespace ArgusSbomGuard

variable (env : Env) {ι : Type}

/-- The service has the name that the column holds of the longer one that the call asks for, so that
the call does not find it. -/
def UploadCall.Cut (c : UploadCall) (v : Service) : Prop :=
  v.projectId = c.projectId ∧ ∃ name ∈ documentService c.raw c.serviceName,
    v.name = cutText 255 name ∧ cutText 255 name ≠ name

/-- The call is to insert a row with the unique key of this one: it has looked it up in vain, or it
will. -/
def StorePc.Awaits (c : UploadCall) : StorePc → UploadRow → Prop
  | .service _ _, .sbom s => s.sha256 = env.sha256 c.raw
  | .insertService _ _, .sbom s => s.sha256 = env.sha256 c.raw
  | .insertSbom _ _, .sbom s => s.sha256 = env.sha256 c.raw
  | .lookup, .service v => c.Cut v
  | .service _ _, .service v => c.Cut v
  | .insertService _ name, .service v => v.projectId = c.projectId ∧ v.name = cutText 255 name
  | _, _ => False

def StorePc.isDone : StorePc → Bool
  | .done => true
  | _ => false

/-- A call that commits has inserted no row that another one awaits; no call is aborted. -/
def CommitsApart (calls : ι → UploadCall) (s : Shared ι (List UploadRow) UploadRow StorePc) :
    Move ι → Prop
  | .step i => ∀ pc, (s.txns i).status.pc? = some pc → pc.isDone = true → ∀ j, j ≠ i →
      ∀ pc', (s.txns j).status.pc? = some pc' →
        ∀ row ∈ (s.txns i).pending, ¬ pc'.Awaits env (calls j) row
  | .abort _ => False

/-- The steps that a call has to take at most. -/
@[simp] def StorePc.remaining (c : UploadCall) : StorePc → ℕ
  | .lookup => (documentEntries c.raw).length + 6
  | .service p _ => p.entries.length + 5
  | .insertService p _ => p.entries.length + 4
  | .insertSbom p _ => p.entries.length + 3
  | .insertDependencies ds => ds.length + 2
  | .done => 1
  | .failed _ => 1

/-- How far a call is. -/
@[simp] def StorePc.rank : StorePc → ℕ
  | .lookup => 0
  | .service _ _ => 1
  | .insertService _ _ => 2
  | .insertSbom _ _ => 3
  | .insertDependencies _ => 4
  | .done => 5
  | .failed _ => 5

/-- How far a call is at least that has inserted the row. -/
@[simp] def UploadRow.rank : UploadRow → ℕ
  | .service _ => 3
  | .sbom _ => 4
  | .dependency _ => 4

/-- The steps that all calls have to take at most. -/
def remainingSteps [Fintype ι] (calls : ι → UploadCall)
    (s : Shared ι (List UploadRow) UploadRow StorePc) : ℕ :=
  ∑ i, (s.txns i).status.pc?.elim 0 (StorePc.remaining (calls i))

/-- The document is accepted. -/
def UploadCall.Accepted (db : Database) (c : UploadCall) : Prop :=
  ArgusSbomGuard.Accepted env db c.projectId c.raw c.version c.serviceName

/-- No accepted document is lost, rows are unique, and the calls go on until all have ended. -/
structure UploadsEndWell [DecidableEq ι] [Fintype ι] (db : Database) (calls : ι → UploadCall)
    (s : Shared ι (List UploadRow) UploadRow StorePc) : Prop where
  noError : ∀ i, (calls i).Accepted env db → ∀ e, (s.txns i).status ≠ .running (.failed e)
  notRolledBack : ∀ i, (calls i).Accepted env db → (s.txns i).status ≠ .rolledBack
  stored : ∀ i, (s.txns i).status = .committed →
    ∃ sbom ∈ UploadRow.sboms s.store, sbom.sha256 = env.sha256 (calls i).raw
  unique : s.store.Pairwise fun row row' => ¬ Clash row row'
  goesOn : (∃ i pc, (s.txns i).status = .running pc) →
    ∃ j, ((storeTransactions env db calls).step s (.step j)).isSome
  ends : ∀ ms, (((storeTransactions env db calls).machine (uploadRows db)
    fun _ => .lookup).run s ms).isSome → ms.length ≤ remainingSteps calls s

instance (c : UploadCall) (v : Service) : Decidable (c.Cut v) :=
  inferInstanceAs (Decidable (_ ∧ ∃ name ∈ documentService c.raw c.serviceName, _))

instance (c : UploadCall) : (pc : StorePc) → (row : UploadRow) → Decidable (pc.Awaits env c row)
  | .service _ _, .sbom s | .insertService _ _, .sbom s | .insertSbom _ _, .sbom s =>
    inferInstanceAs (Decidable (s.sha256 = env.sha256 c.raw))
  | .lookup, .service v | .service _ _, .service v => inferInstanceAs (Decidable (c.Cut v))
  | .insertService _ name, .service v =>
    inferInstanceAs (Decidable (v.projectId = c.projectId ∧ v.name = cutText 255 name))
  | .service _ _, .dependency _ | .insertService _ _, .dependency _ | .insertSbom _ _, .service _
  | .insertSbom _ _, .dependency _ | .lookup, .sbom _ | .lookup, .dependency _
  | .insertDependencies _, _ | .done, _ | .failed _, _ => .isFalse id

instance [DecidableEq ι] [Fintype ι] (calls : ι → UploadCall)
    (s : Shared ι (List UploadRow) UploadRow StorePc) (m : Move ι) :
    Decidable (CommitsApart env calls s m) :=
  match m with
  | .step i => inferInstanceAs (Decidable (∀ pc, (s.txns i).status.pc? = some pc → _))
  | .abort _ => .isFalse id

/-! ### One call -/

/-- The row has the new identifiers of the call. -/
def UploadCall.Owns (c : UploadCall) : UploadRow → Prop
  | .service v => v.id = c.inp.newServiceId
  | .sbom s => s.id = c.inp.newSbomId
  | .dependency d => d.sbomId = c.inp.newSbomId

/-- The call has read its document, and neither the document nor the new identifier is stored. -/
structure Looked (c : UploadCall) (rows : List UploadRow) (p : ReadDocument) : Prop where
  read : c.read env = .ok p
  unknown : ∀ s ∈ UploadRow.sboms rows, s.sha256 ≠ env.sha256 c.raw
  fresh : ∀ s ∈ UploadRow.sboms rows, s.id ≠ c.inp.newSbomId

/-- No service has the new identifier of the call. -/
def FreshService (c : UploadCall) (rows : List UploadRow) : Prop :=
  ∀ v ∈ UploadRow.services rows, v.id ≠ c.inp.newServiceId

/-- If the document fits, its service is there or can be inserted. -/
def FreeService (db : Database) (c : UploadCall) (rows : List UploadRow) : Prop :=
  Storable env db c.projectId c.raw c.version c.serviceName →
    ∀ name ∈ documentService c.raw c.serviceName,
      (∃ v ∈ UploadRow.services rows, v.projectId = c.projectId ∧ v.name = name) ∨
        ∀ v ∈ UploadRow.services rows, ¬ c.Cut v

/-- What holds of a call whose transaction sees these rows. -/
def StoreProgress (db : Database) (c : UploadCall) (rows : List UploadRow) : StorePc → Prop
  | .lookup => FreshService c rows ∧ FreeService env db c rows ∧
      ∀ s ∈ UploadRow.sboms rows, s.id ≠ c.inp.newSbomId
  | .service p name => Looked env c rows p ∧ FreshService c rows ∧ FreeService env db c rows ∧
      documentService c.raw c.serviceName = some name
  | .insertService p name => Looked env c rows p ∧ FreshService c rows ∧
      documentService c.raw c.serviceName = some name ∧
      (∀ v ∈ db.services, ¬ (v.projectId = c.projectId ∧ v.name = name)) ∧
      (Storable env db c.projectId c.raw c.version c.serviceName →
        ∀ v ∈ UploadRow.services rows, ¬ (v.projectId = c.projectId ∧ v.name = cutText 255 name))
  | .insertSbom p serviceId => Looked env c rows p ∧
      ∀ i ∈ serviceId, ∃ v ∈ UploadRow.services rows, v.id = i
  | .insertDependencies ds =>
      (∃ s ∈ UploadRow.sboms rows, s.id = c.inp.newSbomId ∧ s.sha256 = env.sha256 c.raw) ∧
      (∀ s ∈ db.sboms, s.sha256 ≠ env.sha256 c.raw) ∧ ∃ p, c.read env = .ok p ∧ ds ⊆ p.entries
  | .done => ∃ s ∈ UploadRow.sboms rows, s.sha256 = env.sha256 c.raw
  | .failed _ => ¬ c.Accepted env db

variable {env} {db : Database} {c c' : UploadCall} {rows rows' new : List UploadRow} {pc : StorePc}

theorem mem_sboms_append {s : SBOM} :
    s ∈ UploadRow.sboms (rows ++ new) ↔ s ∈ UploadRow.sboms rows ∨ s ∈ UploadRow.sboms new := by
  rw [UploadRow.sboms, List.filterMap_append, List.mem_append]
  rfl

theorem mem_services_append {v : Service} : v ∈ UploadRow.services (rows ++ new) ↔
    v ∈ UploadRow.services rows ∨ v ∈ UploadRow.services new := by
  rw [UploadRow.services, List.filterMap_append, List.mem_append]
  rfl

/-- Calls draw different identifiers. -/
theorem not_owns {row : UploadRow} (hsbom : c.inp.newSbomId ≠ c'.inp.newSbomId)
    (hservice : c.inp.newServiceId ≠ c'.inp.newServiceId) (h : c'.Owns row) : ¬ c.Owns row := by
  cases row with
  | service v => exact fun hown => hservice (hown.symm.trans h)
  | sbom s => exact fun hown => hsbom (hown.symm.trans h)
  | dependency d => exact fun hown => hsbom (hown.symm.trans h)

/-- Rows of another call that the call does not await leave it where it is. -/
theorem StoreProgress.other (h : StoreProgress env db c rows pc)
    (hrows : ∀ row, row ∈ rows' ↔ row ∈ rows ∨ row ∈ new)
    (hnew : ∀ row ∈ new, ¬ c.Owns row ∧ ¬ pc.Awaits env c row) :
    StoreProgress env db c rows' pc := by
  have hsboms : ∀ {s}, s ∈ UploadRow.sboms rows' → s ∈ UploadRow.sboms rows ∨ .sbom s ∈ new := by
    intro s hs
    rw [mem_sboms] at hs ⊢
    exact (hrows _).1 hs
  have hservices : ∀ {v}, v ∈ UploadRow.services rows' →
      v ∈ UploadRow.services rows ∨ .service v ∈ new := by
    intro v hv
    rw [mem_services] at hv ⊢
    exact (hrows _).1 hv
  have hsbom : ∀ {s}, s ∈ UploadRow.sboms rows → s ∈ UploadRow.sboms rows' := fun hs =>
    mem_sboms.2 ((hrows _).2 (.inl (mem_sboms.1 hs)))
  have hservice : ∀ {v}, v ∈ UploadRow.services rows → v ∈ UploadRow.services rows' := fun hv =>
    mem_services.2 ((hrows _).2 (.inl (mem_services.1 hv)))
  have hfresh : FreshService c rows → FreshService c rows' := fun hf v hv =>
    (hservices hv).elim (hf v) fun hv => (hnew _ hv).1
  have hfreshSbom : (∀ s ∈ UploadRow.sboms rows, s.id ≠ c.inp.newSbomId) →
      ∀ s ∈ UploadRow.sboms rows', s.id ≠ c.inp.newSbomId := fun hf s hs =>
    (hsboms hs).elim (hf s) fun hs => (hnew _ hs).1
  have hfree : (∀ v, .service v ∈ new → ¬ c.Cut v) → FreeService env db c rows →
      FreeService env db c rows' := fun hcut hf hstorable name hname =>
    (hf hstorable name hname).imp (fun ⟨v, hv, hmatch⟩ => ⟨v, hservice hv, hmatch⟩)
      fun hnone v hv => (hservices hv).elim (hnone v) (hcut v)
  have hlooked : ∀ {p}, Looked env c rows p →
      (∀ s, .sbom s ∈ new → s.sha256 ≠ env.sha256 c.raw) → Looked env c rows' p :=
    fun hl hunknown => ⟨hl.read, fun s hs => (hsboms hs).elim (hl.unknown s) (hunknown s),
      hfreshSbom hl.fresh⟩
  cases pc with
  | lookup => exact ⟨hfresh h.1, hfree (fun v hv => (hnew _ hv).2) h.2.1, hfreshSbom h.2.2⟩
  | service p name =>
    exact ⟨hlooked h.1 fun s hs => (hnew _ hs).2, hfresh h.2.1,
      hfree (fun v hv => (hnew _ hv).2) h.2.2.1, h.2.2.2⟩
  | insertService p name =>
    obtain ⟨hl, hf, hname, hdb, hcut⟩ := h
    refine ⟨hlooked hl fun s hs => (hnew _ hs).2, hfresh hf, hname, hdb, fun hstorable v hv => ?_⟩
    exact (hservices hv).elim (hcut hstorable v) fun hv => (hnew _ hv).2
  | insertSbom p serviceId =>
    refine ⟨hlooked h.1 fun s hs => (hnew _ hs).2, fun i hi => ?_⟩
    obtain ⟨v, hv, hid⟩ := h.2 i hi
    exact ⟨v, hservice hv, hid⟩
  | insertDependencies ds =>
    obtain ⟨⟨s, hs, hsame⟩, hrest⟩ := h
    exact ⟨⟨s, hsbom hs, hsame⟩, hrest⟩
  | done =>
    obtain ⟨s, hs, hash⟩ := h
    exact ⟨s, hsbom hs, hash⟩
  | failed e => exact h

/-! ### One step -/

theorem insertStep_next {row : Except PyError UploadRow} {pc' : StorePc} {ws : List UploadRow}
    (h : insertStep db rows row pc = .next ws pc') :
    (∃ r, row = .ok r ∧ UploadRow.checkInsert db rows r = .ok () ∧ ws = [r] ∧ pc' = pc) ∨
      (ws = [] ∧ (∃ e, pc' = .failed e) ∧
        ∀ r, row = .ok r → UploadRow.checkInsert db rows r ≠ .ok ()) := by
  unfold insertStep at h
  split at h <;> cases h
  · rename_i r hr
    obtain ⟨hrow, hcheck⟩ := insertedRow?_eq_ok.1 hr
    exact .inl ⟨r, hrow, hcheck, rfl, rfl⟩
  · rename_i e he
    refine .inr ⟨rfl, ⟨e, rfl⟩, fun r hrow hcheck => ?_⟩
    cases he.symm.trans (insertedRow?_eq_ok.2 ⟨hrow, hcheck⟩)

theorem read_eq_ok {p : ReadDocument} (h : c.read env = .ok p) :
    parseDocument c.raw = .ok (p.format, p.entries) ∧
      p.version = documentVersion env c.raw c.version := by
  simp only [UploadCall.read, bind_eq_ok, Prod.exists] at h
  obtain ⟨fmt, ds, hparse, sha, hsha, version, hversion, h⟩ := h
  obtain ⟨-, rfl⟩ := env.computeSha256_eq_ok.1 hsha
  obtain rfl := Except.ok.inj h
  exact ⟨hparse, ((chooseVersion_eq_ok (parseDocument_shape.1 ⟨_, hparse⟩).object).1
    hversion).2.symm⟩

theorem UploadCall.Accepted.read (h : c.Accepted env db) : ∃ p, c.read env = .ok p := by
  obtain ⟨⟨fmt, ds⟩, hparse⟩ := parseDocument_shape.2 h.shape
  refine ⟨⟨fmt, ds, documentVersion env c.raw c.version⟩, ?_⟩
  simp only [UploadCall.read, bind_eq_ok, Prod.exists]
  exact ⟨fmt, ds, hparse, _, env.computeSha256_eq_ok.2 ⟨h.hashed, rfl⟩, _,
    (chooseVersion_eq_ok h.shape.object).2 ⟨h.versioned, rfl⟩, rfl⟩

/-- An accepted document that is not stored fits. -/
theorem UploadCall.Accepted.storable (h : c.Accepted env db)
    (hunknown : ∀ s ∈ db.sboms, s.sha256 ≠ env.sha256 c.raw) :
    Storable env db c.projectId c.raw c.version c.serviceName :=
  h.stored.resolve_left fun ⟨s, hs, hash⟩ => hunknown s hs hash

theorem sbom_eq_ok {p : ReadDocument} {serviceId : Option Uuid} {s : SBOM}
    (h : c.sbom env p serviceId = .ok s) : s.id = c.inp.newSbomId ∧ s.projectId = c.projectId ∧
      s.version.all (fitsVarchar 255) = true ∧ s.rawSbom = c.raw ∧ s.sha256 = env.sha256 c.raw ∧
      s.dependencyCount = some p.entries.length ∧ s.serviceId = serviceId := by
  simp only [UploadCall.sbom, bind_eq_ok] at h
  obtain ⟨_, -, createdAt, -, version, hversion, _, hcolumn, h⟩ := h
  obtain ⟨-, rfl⟩ := env.jsonParam_eq_ok.1 hcolumn
  obtain rfl := Except.ok.inj h
  exact ⟨rfl, rfl, varchar_fits hversion, rfl, rfl, rfl, rfl⟩

theorem Storable.sbom (h : Storable env db c.projectId c.raw c.version c.serviceName)
    (hraw : c.raw.isObject = true) {p : ReadDocument} (hread : c.read env = .ok p)
    (serviceId : Option Uuid) : ∃ s, c.sbom env p serviceId = .ok s := by
  obtain ⟨createdAt, hcreated⟩ := (timestamp_isOk hraw h.component.1).2 h.timestamp
  obtain ⟨ts, hts, hcreated⟩ := bind_eq_ok.1 hcreated
  have hversion := env.varchar_eq_ok.2 ⟨h.version, rfl⟩
  rw [← (read_eq_ok hread).2] at hversion
  simp only [UploadCall.sbom, bind_eq_ok]
  exact ⟨_, ts, hts, createdAt, hcreated, _, hversion, _,
    env.jsonParam_eq_ok.2 ⟨h.column.2, rfl⟩, rfl⟩

theorem service_eq_ok {name : String} {v : Service} (h : c.service env name = .ok v) :
    env.writes 255 name = true ∧ v = ⟨c.inp.newServiceId, c.projectId, cutText 255 name⟩ := by
  obtain ⟨stored, hstored, h⟩ := bind_eq_ok.1 h
  obtain ⟨hwrites, rfl⟩ := env.varchar_eq_ok.1 hstored
  exact ⟨hwrites, (Except.ok.inj h).symm⟩

/-- The entries of an accepted document fit. -/
theorem Storable.fits {p : ReadDocument}
    (h : Storable env db c.projectId c.raw c.version c.serviceName) (hread : c.read env = .ok p) :
    ∀ d ∈ p.entries, d.Fits env ∧ d.extraData.FitsColumn env := by
  obtain ⟨r, hparse, hfits⟩ := parseDocument_fits.2 (h.entries.fitsColumn h.column)
  obtain rfl := Except.ok.inj (hparse.symm.trans (read_eq_ok hread).1)
  exact hfits

section Step

variable (hold : ∀ row ∈ uploadRows db, row ∈ rows)
include hold

omit hold in
theorem mem_uploadRows_sbom {s : SBOM} : .sbom s ∈ uploadRows db ↔ s ∈ db.sboms := by
  rw [← mem_sboms, rowsOf_uploadRows.sboms]
  rfl

omit hold in
theorem mem_uploadRows_service {v : Service} : .service v ∈ uploadRows db ↔ v ∈ db.services := by
  rw [← mem_services, rowsOf_uploadRows.services]
  rfl

theorem Looked.unknown_db {p : ReadDocument} (h : Looked env c rows p) :
    ∀ s ∈ db.sboms, s.sha256 ≠ env.sha256 c.raw := fun s hs =>
  h.unknown s (mem_sboms.2 (hold _ (mem_uploadRows_sbom.2 hs)))

/-- The insert of the service of an accepted document succeeds. -/
theorem checkInsert_service {p : ReadDocument} {name : String}
    (hproject : ∃ q ∈ db.projects, q.id = c.projectId)
    (hacc : c.Accepted env db) (h : StoreProgress env db c rows (.insertService p name)) :
    ∃ v, c.service env name = .ok v ∧ UploadRow.checkInsert db rows (.service v) = .ok () := by
  obtain ⟨hlooked, hfresh, hname, hnone, hcut⟩ := h
  have hstorable := hacc.storable (hlooked.unknown_db hold)
  obtain ⟨hsends, hfits⟩ := hstorable.service name hname
  have hcasts := (hfits.resolve_left fun ⟨v, hv, hmatch⟩ => hnone v hv hmatch).1
  have hwritten := env.varchar_eq_ok.2 ⟨Bool.and_eq_true_iff.2 ⟨hsends, hcasts⟩, rfl⟩
  refine ⟨_, bind_eq_ok.2 ⟨_, hwritten, rfl⟩, checkInsert_eq_ok.2 ⟨fitsVarchar_cutText hcasts,
    hproject, fun r hr hclash => ?_⟩⟩
  cases r with
  | service v =>
    rcases hclash with hid | hmatch
    · exact hfresh v (mem_services.2 hr) hid
    · exact hcut hstorable v (mem_services.2 hr) hmatch
  | sbom s => exact hclash
  | dependency d => exact hclash

/-- The insert of the SBOM of an accepted document succeeds. -/
theorem checkInsert_sbom {p : ReadDocument} {serviceId : Option Uuid} {s : SBOM}
    (hproject : ∃ q ∈ db.projects, q.id = c.projectId)
    (hsha : ∀ j, fitsVarchar 64 (env.sha256 j) = true) (hacc : c.Accepted env db)
    (h : StoreProgress env db c rows (.insertSbom p serviceId))
    (hs : c.sbom env p serviceId = .ok s) :
    UploadRow.checkInsert db rows (.sbom s) = .ok () := by
  obtain ⟨hlooked, hservice⟩ := h
  have hstorable := hacc.storable (hlooked.unknown_db hold)
  obtain ⟨hparse, -⟩ := read_eq_ok hlooked.read
  obtain ⟨hid, hpid, hver, hraw, hash, hcount, hsid⟩ := sbom_eq_ok hs
  have hlength := length_parseDocument hparse
  refine checkInsert_eq_ok.2 ⟨?_, ⟨?_, ?_⟩, fun r hr hclash => ?_⟩
  · have hfits : fitsInteger p.entries.length = true := hlength ▸ hstorable.count
    simp only [UploadRow.fits, hver, hash, hraw, hcount, Option.all_some, hsha,
      hstorable.column.1, hfits, Bool.and_self]
  · rw [hpid]
    exact hproject
  · rw [hsid]
    exact hservice
  · cases r with
    | service v => exact hclash
    | sbom t =>
      rcases hclash with htid | hthash
      · exact hlooked.fresh t (mem_sboms.2 hr) (htid.trans hid)
      · exact hlooked.unknown t (mem_sboms.2 hr) (hthash.trans hash)
    | dependency d => exact hclash

section Next

variable {pc' : StorePc} {ws : List UploadRow}

omit hold in
theorem StoreProgress.nothing (h : StoreProgress env db c rows pc') :
    StoreProgress env db c (rows ++ []) pc' ∧ ∀ row ∈ ([] : List UploadRow), c.Owns row :=
  ⟨by rwa [List.append_nil], fun _ hrow => absurd hrow List.not_mem_nil⟩

/-- The lookup of the document. -/
theorem StoreProgress.next_lookup (h : StoreProgress env db c rows .lookup)
    (hout : storeRoutine env db c .lookup rows = .next ws pc') :
    StoreProgress env db c (rows ++ ws) pc' ∧ ∀ row ∈ ws, c.Owns row := by
  simp only [storeRoutine] at hout
  split at hout
  · cases hout
    rename_i e he
    refine StoreProgress.nothing fun hacc => ?_
    obtain ⟨p, hp⟩ := hacc.read
    cases he.symm.trans hp
  rename_i p hread
  split at hout
  · cases hout
    rename_i s hfind
    have hash := List.find?_some hfind
    exact StoreProgress.nothing ⟨s, List.mem_of_find?_eq_some hfind, beq_iff_eq.1 hash⟩
  rename_i hnone
  have hlooked : Looked env c rows p := by
    refine ⟨hread, fun s hs hash => ?_, h.2.2⟩
    have := List.find?_eq_none.1 hnone s hs
    simp [hash] at this
  split at hout
  · cases hout
    rename_i e he
    refine StoreProgress.nothing fun hacc => ?_
    have hauto : extractServiceName c.raw = .ok _ := extractComponentText_eq_ok.2
      ⟨hacc.shape.object, (hacc.storable (hlooked.unknown_db hold)).component, rfl⟩
    cases he.symm.trans hauto
  rename_i autoService hauto
  obtain ⟨-, -, rfl⟩ := extractComponentText_eq_ok.1 hauto
  split at hout <;> cases hout
  · rename_i name hname
    exact StoreProgress.nothing ⟨hlooked, h.1, h.2.1, hname⟩
  · exact StoreProgress.nothing ⟨hlooked, fun i hi => absurd hi (Option.not_mem_none i)⟩

/-- The lookup of the service. -/
theorem StoreProgress.next_service {p : ReadDocument} {name : String}
    (h : StoreProgress env db c rows (.service p name))
    (hout : storeRoutine env db c (.service p name) rows = .next ws pc') :
    StoreProgress env db c (rows ++ ws) pc' ∧ ∀ row ∈ ws, c.Owns row := by
  obtain ⟨hlooked, hfresh, hfree, hname⟩ := h
  simp only [storeRoutine] at hout
  split_ifs at hout with hsends
  · cases hout
    refine StoreProgress.nothing fun hacc => ?_
    have hfits := (hacc.storable (hlooked.unknown_db hold)).service name hname
    rw [hfits.1] at hsends
    cases hsends
  split at hout <;> cases hout
  · rename_i v hfind
    refine StoreProgress.nothing ⟨hlooked, fun i hi => ?_⟩
    exact ⟨v, List.mem_of_find?_eq_some hfind, Option.some.inj hi⟩
  · rename_i hnone
    have hunknown : ∀ v ∈ UploadRow.services rows,
        ¬ (v.projectId = c.projectId ∧ v.name = name) := by
      intro v hv hmatch
      have := List.find?_eq_none.1 hnone v hv
      simp [hmatch.1, hmatch.2] at this
    refine StoreProgress.nothing ⟨hlooked, hfresh, hname, fun v hv => ?_,
      fun hstorable v hv hmatch => ?_⟩
    · exact hunknown v (mem_services.2 (hold _ (mem_uploadRows_service.2 hv)))
    · rcases hfree hstorable name hname with ⟨u, hu, hsame⟩ | hnocut
      · exact hunknown u hu hsame
      · by_cases hcut : cutText 255 name = name
        · exact hunknown v hv ⟨hmatch.1, hmatch.2.trans hcut⟩
        · exact hnocut v hv ⟨hmatch.1, name, hname, hmatch.2, hcut⟩

theorem StoreProgress.next_insertService (hproject : ∃ q ∈ db.projects, q.id = c.projectId)
    {p : ReadDocument} {name : String} (h : StoreProgress env db c rows (.insertService p name))
    (hout : storeRoutine env db c (.insertService p name) rows = .next ws pc') :
    StoreProgress env db c (rows ++ ws) pc' ∧ ∀ row ∈ ws, c.Owns row := by
  rcases insertStep_next hout with ⟨r, hr, -, rfl, rfl⟩ | ⟨rfl, ⟨e, rfl⟩, hfail⟩
  · obtain ⟨v, hv, rfl⟩ := map_eq_ok.1 hr
    obtain ⟨-, rfl⟩ := service_eq_ok hv
    obtain ⟨hlooked, -⟩ := h
    refine ⟨⟨⟨hlooked.read, fun s hs => ?_, fun s hs => ?_⟩, fun i hi => ?_⟩, ?_⟩
    · exact (mem_sboms_append.1 hs).elim (hlooked.unknown s) fun hs => absurd hs List.not_mem_nil
    · exact (mem_sboms_append.1 hs).elim (hlooked.fresh s) fun hs => absurd hs List.not_mem_nil
    · exact ⟨_, mem_services_append.2 (.inr (List.mem_singleton.2 rfl)), Option.some.inj hi⟩
    · rintro row hrow
      obtain rfl := List.mem_singleton.1 hrow
      rfl
  · refine StoreProgress.nothing fun hacc => ?_
    obtain ⟨v, hv, hcheck⟩ := checkInsert_service hold hproject hacc h
    exact hfail (.service v) (by rw [hv]; rfl) hcheck

theorem StoreProgress.next_insertSbom (hproject : ∃ q ∈ db.projects, q.id = c.projectId)
    (hsha : ∀ j, fitsVarchar 64 (env.sha256 j) = true) {p : ReadDocument}
    {serviceId : Option Uuid} (h : StoreProgress env db c rows (.insertSbom p serviceId))
    (hout : storeRoutine env db c (.insertSbom p serviceId) rows = .next ws pc') :
    StoreProgress env db c (rows ++ ws) pc' ∧ ∀ row ∈ ws, c.Owns row := by
  rcases insertStep_next hout with ⟨r, hr, -, rfl, rfl⟩ | ⟨rfl, ⟨e, rfl⟩, hfail⟩
  · obtain ⟨hlooked, -⟩ := h
    obtain ⟨s, hs, rfl⟩ := map_eq_ok.1 hr
    obtain ⟨hid, -, -, -, hash, -⟩ := sbom_eq_ok hs
    refine ⟨⟨⟨s, mem_sboms_append.2 (.inr (List.mem_singleton.2 rfl)), hid, hash⟩,
      hlooked.unknown_db hold, p, hlooked.read, List.Subset.refl _⟩, ?_⟩
    rintro row hrow
    obtain rfl := List.mem_singleton.1 hrow
    exact hid
  · refine StoreProgress.nothing fun hacc => ?_
    obtain ⟨s, hs⟩ :=
      (hacc.storable (h.1.unknown_db hold)).sbom hacc.shape.object h.1.read serviceId
    exact hfail (.sbom s) (by rw [hs]; rfl) (checkInsert_sbom hold hproject hsha hacc h hs)

omit hold in
theorem StoreProgress.next_insertDependencies {ds : List DependencyData}
    (h : StoreProgress env db c rows (.insertDependencies ds))
    (hout : storeRoutine env db c (.insertDependencies ds) rows = .next ws pc') :
    StoreProgress env db c (rows ++ ws) pc' ∧ ∀ row ∈ ws, c.Owns row := by
  obtain ⟨⟨s, hs, hid, hash⟩, hunknown, p, hread, hsub⟩ := h
  cases ds with
  | nil =>
    cases hout
    exact StoreProgress.nothing ⟨s, hs, hash⟩
  | cons d ds =>
    obtain ⟨hd, hds⟩ := List.cons_subset.1 hsub
    rcases insertStep_next hout with ⟨r, hr, -, rfl, rfl⟩ | ⟨rfl, ⟨e, rfl⟩, hfail⟩
    · refine ⟨⟨⟨s, mem_sboms_append.2 (.inl hs), hid, hash⟩, hunknown, p, hread, hds⟩, ?_⟩
      obtain ⟨dep, hdep, rfl⟩ := map_eq_ok.1 hr
      rintro row hrow
      obtain rfl := List.mem_singleton.1 hrow
      exact (bindDependency_eq_ok hdep).1
    · refine StoreProgress.nothing fun hacc => ?_
      obtain ⟨hfits, hextra⟩ := (hacc.storable hunknown).fits hread d hd
      obtain ⟨dep, hdep⟩ := bindDependency_isOk.2 ⟨hfits, hextra.2⟩
      obtain ⟨hsid, hex⟩ := bindDependency_eq_ok (i := c.inp.newSbomId) hdep
      refine hfail (.dependency dep) (by rw [hdep]; rfl) (checkInsert_eq_ok.2 ⟨?_, ?_, ?_⟩)
      · exact (congrArg Json.storable hex).trans hextra.1
      · exact ⟨s, hs, hid.trans hsid.symm⟩
      · intro r _
        cases r <;> exact id

/-- The next step of a call. -/
theorem StoreProgress.next
    (hproject : ∃ q ∈ db.projects, q.id = c.projectId)
    (hsha : ∀ j, fitsVarchar 64 (env.sha256 j) = true) (h : StoreProgress env db c rows pc)
    (hout : storeRoutine env db c pc rows = .next ws pc') :
    StoreProgress env db c (rows ++ ws) pc' ∧ ∀ row ∈ ws, c.Owns row := by
  cases pc with
  | lookup => exact h.next_lookup hold hout
  | service p name => exact h.next_service hold hout
  | insertService p name => exact h.next_insertService hold hproject hout
  | insertSbom p serviceId => exact h.next_insertSbom hold hproject hsha hout
  | insertDependencies ds => exact h.next_insertDependencies hout
  | done => cases hout
  | failed e => cases hout

end Next

end Step

/-! ### What a step can be -/

theorem StorePc.rank_le (pc : StorePc) : pc.rank ≤ 5 := by
  cases pc <;> simp

/-- A step goes on without a write, inserts a row, or ends the call.  A call only goes on, nearer to
its end, and a row that it inserts clashes only with rows of calls that are farther. -/
theorem storeRoutine_cases (env : Env) (db : Database) (c : UploadCall) (pc : StorePc)
    (rows : List UploadRow) :
    (∃ pc', storeRoutine env db c pc rows = .next [] pc' ∧ pc.rank ≤ pc'.rank ∧
      pc'.remaining c < pc.remaining c) ∨
    (∃ row next, storeRoutine env db c pc rows = insertStep db rows row next ∧
      pc.rank ≤ next.rank ∧ next.remaining c < pc.remaining c ∧ 1 < pc.remaining c ∧
      ∀ r, row = .ok r → r.rank ≤ next.rank ∧ ∀ row', Clash r row' → pc.rank < row'.rank) ∨
    (pc = .done ∧ storeRoutine env db c pc rows = .commit) ∨
    ∃ e, pc = .failed e ∧ storeRoutine env db c pc rows = .rollback := by
  cases pc with
  | lookup =>
    refine .inl ?_
    simp only [storeRoutine]
    split
    · exact ⟨_, rfl, Nat.zero_le _, by simp⟩
    rename_i p hread
    have hlength : p.entries.length = (documentEntries c.raw).length :=
      length_parseDocument (read_eq_ok hread).1
    repeat' split
    all_goals exact ⟨_, rfl, Nat.zero_le _, by simp [hlength]⟩
  | service p name =>
    refine .inl ?_
    simp only [storeRoutine]
    split
    · exact ⟨_, rfl, by simp, by simp⟩
    · split <;> exact ⟨_, rfl, by simp, by simp⟩
  | insertService p name =>
    refine .inr (.inl ⟨_, _, rfl, by simp, by simp, by simp, fun r hr => ?_⟩)
    obtain ⟨v, -, rfl⟩ := map_eq_ok.1 hr
    refine ⟨by simp, fun row' hclash => ?_⟩
    cases row' with
    | service v => simp
    | sbom s => exact hclash.elim
    | dependency d => exact hclash.elim
  | insertSbom p serviceId =>
    refine .inr (.inl ⟨_, _, rfl, by simp, by simp, by simp, fun r hr => ?_⟩)
    obtain ⟨s, -, rfl⟩ := map_eq_ok.1 hr
    refine ⟨by simp, fun row' hclash => ?_⟩
    cases row' with
    | service v => exact hclash.elim
    | sbom s => simp
    | dependency d => exact hclash.elim
  | insertDependencies ds =>
    cases ds with
    | nil => exact .inl ⟨_, rfl, by simp, by simp⟩
    | cons d ds =>
      refine .inr (.inl ⟨_, _, rfl, le_rfl, by simp, by simp, fun r hr => ?_⟩)
      obtain ⟨dep, -, rfl⟩ := map_eq_ok.1 hr
      exact ⟨by simp, fun row' hclash => hclash.elim⟩
  | done => exact .inr (.inr (.inl ⟨rfl, rfl⟩))
  | failed e => exact .inr (.inr (.inr ⟨e, rfl, rfl⟩))

theorem insertStep_ne_commit {row : Except PyError UploadRow} {next : StorePc} :
    insertStep db rows row next ≠ .commit := by
  intro h
  unfold insertStep at h
  split at h <;> cases h

theorem insertStep_ne_rollback {row : Except PyError UploadRow} {next : StorePc} :
    insertStep db rows row next ≠ .rollback := by
  intro h
  unfold insertStep at h
  split at h <;> cases h

section Outcomes

variable {pc' : StorePc} {ws : List UploadRow}

/-- A step inserts at most one row, which the checks let through. -/
theorem storeRoutine_inserts (hout : storeRoutine env db c pc rows = .next ws pc') :
    ws = [] ∨ ∃ row, ws = [row] ∧ UploadRow.checkInsert db rows row = .ok () := by
  rcases storeRoutine_cases env db c pc rows with
    ⟨next, heq, -⟩ | ⟨row, next, heq, -⟩ | ⟨-, heq⟩ | ⟨e, -, heq⟩ <;> rw [heq] at hout
  · cases hout
    exact .inl rfl
  · rcases insertStep_next hout with ⟨r, -, hcheck, rfl, -⟩ | ⟨rfl, -⟩
    · exact .inr ⟨r, rfl, hcheck⟩
    · exact .inl rfl
  · cases hout
  · cases hout

/-- A step brings a call nearer to its end. -/
theorem storeRoutine_remaining (hout : storeRoutine env db c pc rows = .next ws pc') :
    pc'.remaining c < pc.remaining c := by
  rcases storeRoutine_cases env db c pc rows with ⟨next, heq, -, hless⟩ |
    ⟨row, next, heq, -, hless, hone, -⟩ | ⟨-, heq⟩ | ⟨e, -, heq⟩ <;> rw [heq] at hout
  · cases hout
    exact hless
  · rcases insertStep_next hout with ⟨r, -, -, -, rfl⟩ | ⟨-, ⟨e, rfl⟩, -⟩
    · exact hless
    · exact hone
  · cases hout
  · cases hout

/-- A call only goes on, and it waits for calls that are farther. -/
theorem storeRoutine_rank (hout : storeRoutine env db c pc rows = .next ws pc') :
    pc.rank ≤ pc'.rank ∧
      ∀ row ∈ ws, row.rank ≤ pc'.rank ∧ ∀ row', Clash row row' → pc.rank < row'.rank := by
  rcases storeRoutine_cases env db c pc rows with ⟨next, heq, hrank, -⟩ |
    ⟨row, next, heq, hrank, -, -, hrow⟩ | ⟨-, heq⟩ | ⟨e, -, heq⟩ <;> rw [heq] at hout
  · cases hout
    exact ⟨hrank, fun _ hrow => absurd hrow List.not_mem_nil⟩
  · rcases insertStep_next hout with ⟨r, hr, -, rfl, rfl⟩ | ⟨rfl, ⟨e, rfl⟩, -⟩
    · refine ⟨hrank, fun row' hrow' => ?_⟩
      rw [List.mem_singleton.1 hrow']
      exact hrow r hr
    · exact ⟨pc.rank_le, fun _ hrow => absurd hrow List.not_mem_nil⟩
  · cases hout
  · cases hout

/-- A call commits at its end, and gives up after an error. -/
theorem storeRoutine_commit (hout : storeRoutine env db c pc rows = .commit) : pc = .done := by
  rcases storeRoutine_cases env db c pc rows with
    ⟨next, heq, -⟩ | ⟨row, next, heq, -⟩ | ⟨hdone, -⟩ | ⟨e, -, heq⟩
  · cases heq.symm.trans hout
  · exact absurd (heq.symm.trans hout) insertStep_ne_commit
  · exact hdone
  · cases heq.symm.trans hout

theorem storeRoutine_rollback (hout : storeRoutine env db c pc rows = .rollback) :
    ∃ e, pc = .failed e := by
  rcases storeRoutine_cases env db c pc rows with
    ⟨next, heq, -⟩ | ⟨row, next, heq, -⟩ | ⟨-, heq⟩ | ⟨e, hfailed, -⟩
  · cases heq.symm.trans hout
  · exact absurd (heq.symm.trans hout) insertStep_ne_rollback
  · cases heq.symm.trans hout
  · exact ⟨e, hfailed⟩

end Outcomes

/-! ### Any number of calls -/

/-- The calls are for stored projects and draw new identifiers, no two the same; hashes have 64
characters. -/
structure CallsFit (env : Env) (db : Database) (calls : ι → UploadCall) : Prop where
  project : ∀ i, ∃ p ∈ db.projects, p.id = (calls i).projectId
  sha256 : ∀ j, fitsVarchar 64 (env.sha256 j) = true
  sboms : ∀ i, ∀ s ∈ db.sboms, s.id ≠ (calls i).inp.newSbomId
  services : ∀ i, ∀ v ∈ db.services, v.id ≠ (calls i).inp.newServiceId
  sbomIds : ∀ i j, i ≠ j → (calls i).inp.newSbomId ≠ (calls j).inp.newSbomId
  serviceIds : ∀ i j, i ≠ j → (calls i).inp.newServiceId ≠ (calls j).inp.newServiceId

variable [DecidableEq ι] {calls : ι → UploadCall}
  {s s' : Shared ι (List UploadRow) UploadRow StorePc} {i : ι}

/-- What holds after every move of the runs in which no awaited row is committed. -/
structure UploadsInOrder (env : Env) (db : Database) (calls : ι → UploadCall)
    (s : Shared ι (List UploadRow) UploadRow StorePc) : Prop where
  apart : Transactions.Apart (storeTransactions env db calls) s
  consistent : Consistent (storeTransactions env db calls) s
  old : ∀ row ∈ uploadRows db, row ∈ s.store
  owned : ∀ i, ∀ row ∈ (s.txns i).pending, (calls i).Owns row
  inserted : ∀ i, ∀ row ∈ (s.txns i).pending,
    ∃ pc, (s.txns i).status = .running pc ∧ row.rank ≤ pc.rank
  running : ∀ i pc, (s.txns i).status = .running pc →
    StoreProgress env db (calls i) ((storeTransactions env db calls).view s i) pc
  committed : ∀ i, (s.txns i).status = .committed →
    ∃ sbom ∈ UploadRow.sboms s.store, sbom.sha256 = env.sha256 (calls i).raw
  rolledBack : ∀ i, (s.txns i).status = .rolledBack → ¬ (calls i).Accepted env db

/-- A move of one call that stores nothing. -/
theorem UploadsInOrder.put {t : Txn UploadRow StorePc} (h : UploadsInOrder env db calls s)
    (hapart : Transactions.Apart (storeTransactions env db calls) (s.put s.store i t))
    (hconsistent : Consistent (storeTransactions env db calls) (s.put s.store i t))
    (howned : ∀ row ∈ t.pending, (calls i).Owns row)
    (hinserted : ∀ row ∈ t.pending, ∃ pc, t.status = .running pc ∧ row.rank ≤ pc.rank)
    (hrunning : ∀ pc, t.status = .running pc → StoreProgress env db (calls i)
      ((storeTransactions env db calls).view (s.put s.store i t) i) pc)
    (hcommitted : t.status ≠ .committed)
    (hrolledBack : t.status = .rolledBack → ¬ (calls i).Accepted env db) :
    UploadsInOrder env db calls (s.put s.store i t) := by
  refine ⟨hapart, hconsistent, h.old, fun j => ?_, fun j => ?_, fun j => ?_, fun j => ?_,
    fun j => ?_⟩ <;> by_cases hji : j = i
  any_goals
    subst hji
    rw [Shared.put_self]
  any_goals rw [Shared.put_other hji]
  · exact howned
  · exact h.owned j
  · exact hinserted
  · exact h.inserted j
  · exact hrunning
  · rw [Transactions.view_put_other hji]
    exact h.running j
  · exact fun hj => absurd hj hcommitted
  · exact h.committed j
  · exact hrolledBack
  · exact h.rolledBack j

/-- The commit of a call whose rows no other call awaits. -/
theorem UploadsInOrder.commit (h : UploadsInOrder env db calls s) (hfit : CallsFit env db calls)
    (hapart : Transactions.Apart (storeTransactions env db calls)
      (s.put ((storeTransactions env db calls).view s i) i ⟨[], .committed⟩))
    (hconsistent : Consistent (storeTransactions env db calls)
      (s.put ((storeTransactions env db calls).view s i) i ⟨[], .committed⟩))
    (hi : (s.txns i).status = .running .done) (hown : CommitsApart env calls s (.step i)) :
    UploadsInOrder env db calls
      (s.put ((storeTransactions env db calls).view s i) i ⟨[], .committed⟩) := by
  have hstore : ∀ row ∈ s.store, row ∈ (storeTransactions env db calls).view s i := by
    intro row hrow
    rw [Transactions.view_inserted rfl]
    exact List.mem_append_left _ hrow
  refine ⟨hapart, hconsistent, fun row hrow => hstore row (h.old row hrow), fun j => ?_,
    fun j => ?_, fun j => ?_, fun j => ?_, fun j => ?_⟩ <;> by_cases hji : j = i
  any_goals
    subst hji
    rw [Shared.put_self]
  any_goals rw [Shared.put_other hji]
  · exact fun row hrow => absurd hrow List.not_mem_nil
  · exact h.owned j
  · exact fun row hrow => absurd hrow List.not_mem_nil
  · exact h.inserted j
  · exact nofun
  · intro pc hpc
    refine (h.running j pc hpc).other (fun row => Transactions.mem_view_commit rfl hji)
      fun row hrow => ⟨?_, ?_⟩
    · exact not_owns (hfit.sbomIds j i hji) (hfit.serviceIds j i hji) (h.owned i row hrow)
    · exact hown .done (by rw [hi]; rfl) rfl j hji pc (by rw [hpc]; rfl) row hrow
  · exact fun _ => h.running j .done hi
  · intro hj
    obtain ⟨sbom, hsbom, hash⟩ := h.committed j hj
    exact ⟨sbom, mem_sboms.2 (hstore _ (mem_sboms.1 hsbom)), hash⟩
  · exact nofun
  · exact h.rolledBack j

/-- Every move that commits no awaited row keeps the calls in order. -/
theorem uploadsInOrder_step [Fintype ι] {m : Move ι} (hfit : CallsFit env db calls)
    (h : UploadsInOrder env db calls s) (hown : CommitsApart env calls s m)
    (hst : (storeTransactions env db calls).step s m = some s') :
    UploadsInOrder env db calls s' := by
  have hapart := Transactions.apart_step h.apart (fun _ _ hclash => clash_symm hclash) hst
  have hconsistent : Consistent (storeTransactions env db calls) s' := by
    refine consistent_step rfl (fun i pc d ws pc' hout hd => ?_) h.apart h.consistent hst
    rcases storeRoutine_inserts hout with rfl | ⟨row, rfl, hcheck⟩
    · rwa [List.append_nil]
    · refine List.pairwise_append.2 ⟨hd, List.pairwise_singleton _ _, fun r hr r' hr' => ?_⟩
      obtain rfl := List.mem_singleton.1 hr'
      exact (checkInsert_eq_ok.1 hcheck).2.2 r hr
  rcases Transactions.step_cases hst with ⟨i, pc, rfl, hpc, hout⟩ | ⟨i, pc, rfl, -, -⟩
  · have hprogress := h.running i pc hpc
    rcases hout with ⟨ws, pc', hout, -, rfl⟩ | ⟨hout, rfl⟩ | ⟨hout, rfl⟩
    · have hold : ∀ row ∈ uploadRows db, row ∈ (storeTransactions env db calls).view s i := by
        intro row hrow
        rw [Transactions.view_inserted rfl]
        exact List.mem_append_left _ (h.old row hrow)
      obtain ⟨hnext, howns⟩ := hprogress.next hold (hfit.project i) hfit.sha256 hout
      obtain ⟨hle, hrank⟩ := storeRoutine_rank hout
      refine h.put hapart hconsistent (fun row hrow => ?_) (fun row hrow => ⟨pc', rfl, ?_⟩)
        (fun pc'' hpc'' => ?_) nofun nofun
      · exact (List.mem_append.1 hrow).elim (h.owned i row) (howns row)
      · rcases List.mem_append.1 hrow with hrow | hrow
        · obtain ⟨pc₀, hpc₀, hr⟩ := h.inserted i row hrow
          obtain rfl := Status.running.inj (hpc₀.symm.trans hpc)
          exact hr.trans hle
        · exact (hrank row hrow).1
      · obtain rfl := Status.running.inj hpc''
        rw [Transactions.view_inserted rfl, Shared.put_self, Shared.put_store,
          ← List.append_assoc]
        rwa [Transactions.view_inserted rfl] at hnext
    · obtain rfl := storeRoutine_commit hout
      exact h.commit hfit hapart hconsistent hpc hown
    · obtain ⟨e, rfl⟩ := storeRoutine_rollback hout
      exact h.put hapart hconsistent (fun row hrow => absurd hrow List.not_mem_nil)
        (fun row hrow => absurd hrow List.not_mem_nil) nofun nofun fun _ => hprogress
  · exact hown.elim

theorem clash_uploadRows : (uploadRows db).Pairwise fun row row' => ¬ Clash row row' := by
  refine List.pairwise_append.2 ⟨?_, List.pairwise_append.2 ⟨?_, ?_, ?_⟩, ?_⟩
  · exact List.pairwise_map.2 db.services.unique
  · exact List.pairwise_map.2 db.sboms.unique
  · exact List.pairwise_map.2 (List.pairwise_of_forall fun _ _ => id)
  · intro row hrow row' hrow'
    obtain ⟨t, -, rfl⟩ := List.mem_map.1 hrow
    obtain ⟨d, -, rfl⟩ := List.mem_map.1 hrow'
    exact id
  · intro row hrow row' hrow'
    obtain ⟨v, -, rfl⟩ := List.mem_map.1 hrow
    rcases List.mem_append.1 hrow' with hrow' | hrow'
    · obtain ⟨t, -, rfl⟩ := List.mem_map.1 hrow'
      exact id
    · obtain ⟨d, -, rfl⟩ := List.mem_map.1 hrow'
      exact id

omit [DecidableEq ι] in
theorem freeService_start : FreeService env db c (uploadRows db) := by
  intro hstorable name hname
  refine (hstorable.service name hname).2.imp (fun ⟨v, hv, hmatch⟩ => ?_) fun ⟨_, hnone⟩ v hv => ?_
  · exact ⟨v, mem_services.2 (mem_uploadRows_service.2 hv), hmatch⟩
  · rintro ⟨hproject, name', hname', hcut, -⟩
    obtain rfl := Option.some.inj (hname.symm.trans hname')
    exact hnone v (mem_uploadRows_service.1 (mem_services.1 hv)) ⟨hproject, hcut⟩

omit [DecidableEq ι] in
theorem uploadsInOrder_start (hfit : CallsFit env db calls) :
    UploadsInOrder env db calls (.start (uploadRows db) fun _ => .lookup) where
  apart _ _ _ _ hw := absurd hw List.not_mem_nil
  consistent := ⟨clash_uploadRows, fun _ => clash_uploadRows⟩
  old _ hrow := hrow
  owned _ _ hrow := absurd hrow List.not_mem_nil
  inserted _ _ hrow := absurd hrow List.not_mem_nil
  running i pc hpc := by
    obtain rfl := Status.running.inj hpc
    refine ⟨fun v hv => ?_, freeService_start, fun t ht => ?_⟩
    · rw [mem_services] at hv
      exact hfit.services i v (mem_uploadRows_service.1 hv)
    · rw [mem_sboms] at ht
      exact hfit.sboms i t (mem_uploadRows_sbom.1 ht)
  committed := nofun
  rolledBack := nofun

/-- A call that cannot take its step waits for one that is farther. -/
theorem UploadsInOrder.waits [Fintype ι] (h : UploadsInOrder env db calls s) {pc : StorePc}
    (hpc : (s.txns i).status = .running pc)
    (hnone : (storeTransactions env db calls).step s (.step i) = none) :
    ∃ j pc', (s.txns j).status = .running pc' ∧ pc.rank < pc'.rank := by
  simp only [Transactions.step, hpc] at hnone
  split at hnone
  · rename_i ws pc' hout
    split_ifs at hnone with hblocked
    obtain ⟨j, -, row, hrow, row', hrow', hclash⟩ := hblocked
    obtain ⟨pc'', hpc'', hrank⟩ := h.inserted j row' hrow'
    exact ⟨j, pc'', hpc'', (((storeRoutine_rank hout).2 row hrow).2 row' hclash).trans_le hrank⟩
  · cases hnone
  · cases hnone

/-- While a call runs, some call can take its step. -/
theorem UploadsInOrder.goesOn [Fintype ι] (h : UploadsInOrder env db calls s) {pc : StorePc}
    (hpc : (s.txns i).status = .running pc) :
    ∃ j, ((storeTransactions env db calls).step s (.step j)).isSome := by
  -- follow the calls that are waited for; each is farther than the one before
  induction hn : 5 - pc.rank using Nat.strongRecOn generalizing i pc with
  | ind n ih =>
    subst hn
    cases hst : (storeTransactions env db calls).step s (.step i) with
    | some s' => exact ⟨i, by rw [hst]; rfl⟩
    | none =>
      obtain ⟨j, pc', hpc', hlt⟩ := h.waits hpc hst
      have hle := pc'.rank_le
      exact ih (5 - pc'.rank) (by omega) hpc' rfl

theorem StorePc.remaining_pos (c : UploadCall) (pc : StorePc) : 0 < pc.remaining c := by
  cases pc <;> simp

/-- Every move brings the end nearer. -/
theorem remainingSteps_step [Fintype ι] {m : Move ι}
    (hst : (storeTransactions env db calls).step s m = some s') :
    remainingSteps calls s' < remainingSteps calls s := by
  have hput : ∀ {i : ι} {pc : StorePc} {store : List UploadRow} {t : Txn UploadRow StorePc},
      (s.txns i).status = .running pc →
        t.status.pc?.elim 0 (StorePc.remaining (calls i)) < pc.remaining (calls i) →
          remainingSteps calls (s.put store i t) < remainingSteps calls s := by
    intro i pc store t hpc hlt
    have hi : t.status.pc?.elim 0 (StorePc.remaining (calls i)) <
        (s.txns i).status.pc?.elim 0 (StorePc.remaining (calls i)) := by
      rw [hpc]
      exact hlt
    refine Finset.sum_lt_sum (fun j _ => ?_) ⟨i, Finset.mem_univ i, ?_⟩
    · by_cases hji : j = i
      · subst hji
        rw [Shared.put_self]
        exact hi.le
      · rw [Shared.put_other hji]
    · rw [Shared.put_self]
      exact hi
  rcases Transactions.step_cases hst with ⟨i, pc, rfl, hpc, hout⟩ | ⟨i, pc, rfl, hpc, rfl⟩
  · rcases hout with ⟨ws, pc', hout, -, rfl⟩ | ⟨-, rfl⟩ | ⟨-, rfl⟩
    · exact hput hpc (storeRoutine_remaining hout)
    · exact hput hpc (pc.remaining_pos _)
    · exact hput hpc (pc.remaining_pos _)
  · exact hput hpc (pc.remaining_pos _)

/-- Every run ends. -/
theorem length_le_remainingSteps [Fintype ι] {ms : List (Move ι)}
    (h : (((storeTransactions env db calls).machine (uploadRows db) fun _ => .lookup).run s
      ms).isSome) : ms.length ≤ remainingSteps calls s := by
  induction ms generalizing s with
  | nil => exact Nat.zero_le _
  | cons m ms ih =>
    obtain ⟨t, ht⟩ := Option.isSome_iff_exists.1 h
    obtain ⟨s₁, hst, hrun⟩ := Option.bind_eq_some_iff.1 ht
    have hlt := remainingSteps_step hst
    have hle := ih (Option.isSome_iff_exists.2 ⟨t, hrun⟩)
    rw [List.length_cons]
    omega

/-- **Concurrent uploads end well** in the runs in which no call commits a row that another one has
looked up in vain and not inserted yet. -/
theorem concurrent_uploads_end_well [Fintype ι] (hfit : CallsFit env db calls)
    (hs : ((storeTransactions env db calls).machine (uploadRows db) fun _ => .lookup).Reaches
      (CommitsApart env calls) s) : UploadsEndWell env db calls s := by
  have h : UploadsInOrder env db calls s :=
    hs.invariant (I := UploadsInOrder env db calls) (uploadsInOrder_start hfit)
      fun s m s' h hown hst => uploadsInOrder_step hfit h hown hst
  refine ⟨fun i hacc e hpc => ?_, fun i hacc hst => h.rolledBack i hst hacc, h.committed,
    h.consistent.store, fun ⟨i, pc, hpc⟩ => h.goesOn hpc, fun ms => length_le_remainingSteps⟩
  exact h.running i _ hpc hacc

/-! ### Examples -/

def StorePc.error? : StorePc → Option PyError
  | .failed e => some e
  | _ => none

/-- The upload of a document twice. -/
def sameCalls (i : Fin 2) : UploadCall := ⟨1, demoDocument 1, none, none, ⟨20 + i, 10 + i, 100⟩⟩

/-- The upload of two documents for a new service. -/
def serviceCalls (i : Fin 2) : UploadCall :=
  ⟨1, demoDocument (1 + i), none, some "api", ⟨20 + i, 10 + i, 100⟩⟩

/-- Two calls on the database of a new project. -/
def demoCalls (calls : Fin 2 → UploadCall) :
    Machine (Shared (Fin 2) (List UploadRow) UploadRow StorePc) (Move (Fin 2)) :=
  (storeTransactions uploadEnv uploadWorld.db calls).machine (uploadRows uploadWorld.db)
    fun _ => .lookup

theorem callsFit_same : CallsFit uploadEnv uploadWorld.db sameCalls where
  project := by decide
  sha256 := uploadEnv_sha256
  sboms := by decide
  services := by decide
  sbomIds := by decide
  serviceIds := by decide

theorem callsFit_service : CallsFit uploadEnv uploadWorld.db serviceCalls where
  project := by decide
  sha256 := uploadEnv_sha256
  sboms := by decide
  services := by decide
  sbomIds := by decide
  serviceIds := by decide

/-- Both calls look up before either inserts; then the first one ends. -/
def demoSame : List (Move (Fin 2)) := [0, 1, 0, 0, 0, 1].map .step

def demoService : List (Move (Fin 2)) := [0, 0, 1, 1, 0, 0, 0, 0, 1].map .step

theorem demoSame_isSome : ((demoCalls sameCalls).run (demoCalls sameCalls).init demoSame).isSome :=
  by decide +kernel

theorem demoService_isSome :
    ((demoCalls serviceCalls).run (demoCalls serviceCalls).init demoService).isSome := by
  decide +kernel

/-- A call that fails although its document is accepted. -/
theorem not_uploadsEndWell [Fintype ι] {e : PyError} (hfit : CallsFit env db calls) (i : ι)
    (hstores : ∃ r, storeSbom env db (calls i).projectId (calls i).raw (calls i).version
      (calls i).serviceName (calls i).inp = .ok r)
    (herror : (s.txns i).status.pc?.bind StorePc.error? = some e) :
    ¬ UploadsEndWell env db calls s := by
  intro h
  have hacc : (calls i).Accepted env db := (storeSbom_isOk_iff (hfit.project i) hfit.sha256
    (hfit.sboms i) (hfit.services i)).1 hstores
  cases hst : (s.txns i).status with
  | running pc =>
    rw [hst] at herror
    cases pc with
    | failed e' => exact h.noError i hacc e' hst
    | _ => cases herror
  | committed =>
    rw [hst] at herror
    cases herror
  | rolledBack =>
    rw [hst] at herror
    cases herror

/-- **The second upload fails** with an `IntegrityError`, of the same document and of another one
for the same new service. -/
theorem concurrent_uploads_fail : (system uploadEnv).Reachable uploadWorld ∧
    (∃ s, (demoCalls sameCalls).Reachable s ∧
      (s.txns 1).status.pc?.bind StorePc.error? = some .integrityError ∧
      ¬ UploadsEndWell uploadEnv uploadWorld.db sameCalls s) ∧
    ∃ s, (demoCalls serviceCalls).Reachable s ∧
      (s.txns 1).status.pc?.bind StorePc.error? = some .integrityError ∧
      ¬ UploadsEndWell uploadEnv uploadWorld.db serviceCalls s := by
  have hsame : (((demoCalls sameCalls).after demoSame demoSame_isSome).txns 1).status.pc?.bind
      StorePc.error? = some .integrityError := by decide +kernel
  have hservice : (((demoCalls serviceCalls).after demoService demoService_isSome).txns
      1).status.pc?.bind StorePc.error? = some .integrityError := by decide +kernel
  refine ⟨Machine.reachable_after, ⟨_, Machine.reachable_after, hsame, ?_⟩,
    _, Machine.reachable_after, hservice, ?_⟩
  · exact not_uploadsEndWell callsFit_same 1 ⟨_, rfl⟩ hsame
  · exact not_uploadsEndWell callsFit_service 1 ⟨_, rfl⟩ hservice

/-- One upload after the other. -/
def demoApart : List (Move (Fin 2)) := [0, 0, 0, 0, 0, 0, 1, 1, 1, 1, 1].map .step

theorem demoApart_isSome :
    ((demoCalls serviceCalls).run (demoCalls serviceCalls).init demoApart).isSome := by
  decide +kernel

/-- The end of that run. -/
theorem concurrent_uploads_end_well_demo : UploadsEndWell uploadEnv uploadWorld.db serviceCalls
    ((demoCalls serviceCalls).after demoApart demoApart_isSome) :=
  concurrent_uploads_end_well callsFit_service (Machine.reaches_after (by decide +kernel))

end ArgusSbomGuard
