import ArgusSbomGuard.System.Uploads

/-!
# The two upload endpoints

The same upload over REST and over gRPC, to the same project of the same database.  The endpoints
differ in two ways: only REST removes NUL characters, with a function that a deep document exhausts,
and only REST passes the service name on.  So they agree on an upload unless one of the two shows
(`uploads_agree_iff`).

## Main definitions

* `Upload` : what a client sends to either endpoint, besides the project.
* `SameSbom`, `OutcomesAgree` : how two outcomes should agree.
* `SameOutcome` : the condition on the upload.
-/

namespace ArgusSbomGuard

/-- An upload, as a client of either endpoint makes it. -/
structure Upload where
  file : List UInt8
  version : Option String
  serviceName : Option String

/-- The form of the upload. -/
def Upload.form (u : Upload) (projectId projectSlug : Option String) : UploadForm :=
  ⟨projectId, projectSlug, u.version, u.serviceName, u.file⟩

/-- The message of the upload. -/
def Upload.request (u : Upload) (projectId : String) (projectSlug : Option String) :
    UploadRequest :=
  ⟨projectId, u.version, u.file, u.serviceName, projectSlug⟩

/-- Two SBOMs of two databases have the same service, hash and document, and the same dependencies
up to the reference to the SBOM. -/
structure SameSbom (db db' : Database) (s s' : SBOM) : Prop where
  service : serviceOf db s = serviceOf db' s'
  sha256 : s.sha256 = s'.sha256
  rawSbom : s.rawSbom = s'.rawSbom
  dependencies : dependencyRows db' s'.id =
    (dependencyRows db s.id).map fun d => { d with sbomId := s'.id }

/-- Both uploads failed, so that neither stored anything, or both ended with SBOMs that are
related. -/
def OutcomesAgree (env : Env) (same : Database → Database → SBOM → SBOM → Prop) :
    Except ApiError (Database × String × SBOMUploadResponse) →
      Except GrpcError (Database × String × UploadResponse) → Prop
  | .error _, .error _ => True
  | .ok (db, _, response), .ok (db', _, response') => ∃ s ∈ db.sboms, ∃ s' ∈ db'.sboms,
    s.id = response.id ∧ env.strUuid s'.id = response'.sbomId ∧ same db db' s s'
  | _, _ => False

/-- The uploads agree. -/
def UploadsAgree (env : Env) (db : Database) (form : UploadForm) (request : UploadRequest)
    (inp inp' : StoreInput) : Prop :=
  OutcomesAgree env SameSbom (uploadSbom env db form inp) (grpcUploadSbom env db request inp')

variable (env : Env)

/-- The document is accepted over REST. -/
def AcceptedByRest (db : Database) (projectId : Uuid) (u : Upload) (raw : Json) : Prop :=
  raw.calls ≤ env.stripCalls ∧ Accepted env db projectId raw.stripNul (u.version.map PyStr.stripNul)
    (u.serviceName.map PyStr.stripNul)

/-- The document is accepted over gRPC. -/
def AcceptedByGrpc (db : Database) (projectId : Uuid) (u : Upload) (raw : Json) : Prop :=
  Accepted env db projectId raw u.version none

/-- The document is stored already, under the hash that both endpoints compute, or both endpoints
are to store the same document for the same service. -/
def SameDocument (db : Database) (projectId : Uuid) (u : Upload) (raw : Json) : Prop :=
  ((∃ s ∈ db.sboms, s.sha256 = env.sha256 raw) ∧ env.sha256 raw.stripNul = env.sha256 raw) ∨
    (raw.stripNul = raw ∧
      (documentService raw (u.serviceName.map PyStr.stripNul)).map (storedName db projectId) =
        (documentService raw none).map (storedName db projectId))

/-- The file is no JSON, or both endpoints reject the document, or both accept it and treat it
alike. -/
def SameOutcome (db : Database) (projectId : Uuid) (u : Upload) : Prop :=
  match env.loads u.file with
  | .error _ => True
  | .ok raw => (¬ AcceptedByRest env db projectId u raw ∧ ¬ AcceptedByGrpc env db projectId u raw) ∨
    (AcceptedByRest env db projectId u raw ∧ AcceptedByGrpc env db projectId u raw ∧
      SameDocument env db projectId u raw)

variable {env} {db db₁ db₂ : Database} {projectId : Uuid} {raw raw' : Json}
  {name name' : Option String}

theorem OutcomesAgree.mono {same same' : Database → Database → SBOM → SBOM → Prop}
    {r : Except ApiError (Database × String × SBOMUploadResponse)}
    {r' : Except GrpcError (Database × String × UploadResponse)}
    (h : OutcomesAgree env same r r')
    (hsame : ∀ db db' s s', same db db' s s' → same' db db' s s') :
    OutcomesAgree env same' r r' := by
  cases r with
  | error e =>
    cases r' with
    | error e' => trivial
    | ok r' => exact h
  | ok r =>
    cases r' with
    | error e' => exact h
    | ok r' =>
      obtain ⟨s, hs, s', hs', hid, hid', h⟩ := h
      exact ⟨s, hs, s', hs', hid, hid', hsame _ _ _ _ h⟩

instance {same : Database → Database → SBOM → SBOM → Prop} [∀ db db' s s',
    Decidable (same db db' s s')] : (r : Except ApiError (Database × String × SBOMUploadResponse)) →
    (r' : Except GrpcError (Database × String × UploadResponse)) →
    Decidable (OutcomesAgree env same r r')
  | .error _, .error _ => .isTrue trivial
  | .error _, .ok _ => .isFalse id
  | .ok _, .error _ => .isFalse id
  | .ok (db, _, response), .ok (db', _, response') =>
    inferInstanceAs (Decidable (∃ s ∈ db.sboms, ∃ s' ∈ db'.sboms,
      s.id = response.id ∧ env.strUuid s'.id = response'.sbomId ∧ same db db' s s'))

/-! ### What the endpoints stored -/

theorem SameSbom.refl {s : SBOM} : SameSbom db db s s where
  service := rfl
  sha256 := rfl
  rawSbom := rfl
  dependencies := by
    have hself : ∀ d ∈ dependencyRows db s.id, { d with sbomId := s.id } = d := fun d hd => by
      rw [← beq_iff_eq.1 (List.mem_filter.1 hd).2]
    rw [List.map_congr_left hself, List.map_id']

theorem bindDependency_unlinked {i j : Uuid} {d : DependencyData} {row : Dependency}
    (h : bindDependency env i d = .ok row) :
    bindDependency env j d = .ok { row with sbomId := j } := by
  simp only [bindDependency, bind_eq_ok] at h ⊢
  obtain ⟨name, hname, version, hversion, purl, hpurl, depType, hdepType, license, hlicense,
    extraData, hextraData, h⟩ := h
  obtain rfl := Except.ok.inj h
  exact ⟨name, hname, version, hversion, purl, hpurl, depType, hdepType, license, hlicense,
    extraData, hextraData, rfl⟩

/-- The same entries make the same rows, up to the reference to the SBOM. -/
theorem mapM_bindDependency {i j : Uuid} {ds : List DependencyData} {rows : List Dependency}
    (h : ds.mapM (bindDependency env i) = .ok rows) :
    ds.mapM (bindDependency env j) = .ok (rows.map fun d => { d with sbomId := j }) := by
  induction ds generalizing rows with
  | nil =>
    obtain rfl := Except.ok.inj h
    rfl
  | cons d ds ih =>
    simp only [List.mapM_cons, bind_eq_ok] at h ⊢
    obtain ⟨row, hrow, rest, hrest, h⟩ := h
    obtain rfl := Except.ok.inj h
    exact ⟨_, bindDependency_unlinked hrow, _, ih hrest, rfl⟩

theorem StoredDocument.service_eq {s : SBOM}
    (h : StoredDocument env projectId raw name s db db₁) :
    serviceOf db₁ s =
      ((documentService raw name).map (storedName db projectId)).map (projectId, ·) := by
  rw [h.service, Option.map_map]
  rfl

theorem StoredDocument.same {s s' : SBOM}
    (h : StoredDocument env projectId raw name s db db₁)
    (h' : StoredDocument env projectId raw name' s' db db₂)
    (hservice : (documentService raw name).map (storedName db projectId) =
      (documentService raw name').map (storedName db projectId)) :
    SameSbom db₁ db₂ s s' where
  service := by rw [h.service_eq, h'.service_eq, hservice]
  sha256 := by rw [h.sha256, h'.sha256]
  rawSbom := by rw [h.rawSbom, h'.rawSbom]
  dependencies := by
    obtain ⟨r, hparse, hrows⟩ := h.entries
    obtain ⟨r', hparse', hrows'⟩ := h'.entries
    obtain rfl := Except.ok.inj (hparse.symm.trans hparse')
    exact Except.ok.inj (hrows'.symm.trans (mapM_bindDependency hrows))

theorem StoredDocument.not_known {s : SBOM} (h : StoredDocument env projectId raw name s db db₁) :
    ¬ ∃ s ∈ db.sboms, s.sha256 = env.sha256 raw := by
  rintro ⟨t, ht, hash⟩
  exact beq_eq_false_iff_ne.1 (Table.find?_eq_none.1 h.unknown t ht) hash

/-- **When two uploads end with the same SBOM.** -/
theorem sameSbom_iff {version version' : Option String} {inp inp' : StoreInput} {s s' : SBOM}
    (h : storeSbom env db projectId raw version name inp = .ok (db₁, s))
    (h' : storeSbom env db projectId raw' version' name' inp' = .ok (db₂, s')) :
    SameSbom db₁ db₂ s s' ↔
      ((∃ t ∈ db.sboms, t.sha256 = env.sha256 raw') ∧ env.sha256 raw = env.sha256 raw') ∨
        (raw = raw' ∧ (documentService raw name).map (storedName db projectId) =
          (documentService raw' name').map (storedName db projectId)) := by
  -- a document that is found has its hash
  have hfound : ∀ {raw : Json} {t : SBOM},
      db.sboms.find? (fun s => s.sha256 == env.sha256 raw) = some t →
        t ∈ db.sboms ∧ t.sha256 = env.sha256 raw := fun hfind =>
    ⟨(Table.mem_of_find? hfind).1, beq_iff_eq.1 (Table.mem_of_find? hfind).2⟩
  rcases storeSbom_document h with ⟨rfl, hfind⟩ | hstored <;>
    rcases storeSbom_document h' with ⟨rfl, hfind'⟩ | hstored'
  case inl.inl =>
    constructor
    · intro hsame
      refine .inl ⟨⟨s', hfound hfind'⟩, ?_⟩
      rw [← (hfound hfind).2, hsame.sha256, (hfound hfind').2]
    · intro hcase
      have hash : env.sha256 raw = env.sha256 raw' := by
        rcases hcase with ⟨-, hash⟩ | ⟨rfl, -⟩
        · exact hash
        · rfl
      rw [hash] at hfind
      obtain rfl := Option.some.inj (hfind.symm.trans hfind')
      exact .refl
  case inl.inr =>
    refine iff_of_false (fun hsame => hstored'.not_known ⟨s, (hfound hfind).1, ?_⟩) ?_
    · rw [hsame.sha256, hstored'.sha256]
    · rintro (⟨hknown, -⟩ | ⟨rfl, -⟩)
      · exact hstored'.not_known hknown
      · exact hstored'.not_known ⟨s, hfound hfind⟩
  case inr.inl =>
    refine iff_of_false (fun hsame => hstored.not_known ⟨s', (hfound hfind').1, ?_⟩) ?_
    · rw [← hsame.sha256, hstored.sha256]
    · rintro (⟨-, hash⟩ | ⟨rfl, -⟩)
      · exact hstored.not_known ⟨s', (hfound hfind').1, hash ▸ (hfound hfind').2⟩
      · exact hstored.not_known ⟨s', hfound hfind'⟩
  case inr.inr =>
    constructor
    · intro hsame
      have hraw : raw = raw' := by rw [← hstored.rawSbom, hsame.rawSbom, hstored'.rawSbom]
      have hservice := hsame.service
      rw [hstored.service_eq, hstored'.service_eq] at hservice
      exact .inr ⟨hraw, Option.map_injective (Prod.mk_right_injective projectId) hservice⟩
    · rintro (⟨hknown, -⟩ | ⟨rfl, hservice⟩)
      · exact absurd hknown hstored'.not_known
      · exact hstored.same hstored' hservice

/-! ### Both endpoints -/

variable {u : Upload} {requestId : String} {requestSlug : Option String} {inp inp' : StoreInput}
  {project : Project}

theorem grpcUploadSbom_of_loads_error {e : PyError} (h : env.loads u.file = .error e)
    (hproject : grpcProject env db requestId requestSlug = .ok project) :
    ∃ e', grpcUploadSbom env db (u.request requestId requestSlug) inp = .error e' := by
  have hdocument : ∃ e', grpcDocument env u.file = .error e' := by
    rw [grpcDocument, h]
    cases e <;> exact ⟨_, rfl⟩
  obtain ⟨e', he'⟩ := hdocument
  refine ⟨e', ?_⟩
  rw [grpcUploadSbom, Upload.request, hproject]
  change (grpcDocument env u.file >>= _) = _
  rw [he']
  rfl

theorem grpcUploadSbom_of_loads (h : env.loads u.file = .ok raw)
    (hproject : grpcProject env db requestId requestSlug = .ok project) :
    grpcUploadSbom env db (u.request requestId requestSlug) inp =
      match storeSbom env db project.id raw u.version none inp with
      | .ok (db', s) => .ok (db', env.strUuid s.id, ⟨env.strUuid s.id,
          (s.format.map (·.value)).getD "", s.dependencyCount.getD 0, s.sha256⟩)
      | .error e => .error (.unhandled e) := by
  have hdocument : grpcDocument env u.file = .ok raw := by
    rw [grpcDocument, h]
  rw [grpcUploadSbom, Upload.request, hproject]
  change (grpcDocument env u.file >>= _) = _
  rw [hdocument]
  change ((storeSbom env db project.id raw u.version none inp).mapError _ >>= _) = _
  cases storeSbom env db project.id raw u.version none inp <;> rfl

theorem mem_of_storeSbom {version : Option String} {s : SBOM}
    (h : storeSbom env db projectId raw version name inp = .ok (db₁, s)) : s ∈ db₁.sboms := by
  rcases storeSbom_rows h with ⟨rfl, hs⟩ | hstored
  · exact hs
  · exact (Table.mem_insert? hstored.insert).2 (.inr rfl)

/-- Two uploads that ended agree when their SBOMs do. -/
theorem outcomesAgree_ok {same : Database → Database → SBOM → SBOM → Prop} {s s' : SBOM}
    {message message' : String} {response : SBOMUploadResponse} {response' : UploadResponse}
    (hs : s ∈ db₁.sboms) (hs' : s' ∈ db₂.sboms) (hid : response.id = s.id)
    (hid' : response'.sbomId = env.strUuid s'.id) :
    OutcomesAgree env same (.ok (db₁, message, response)) (.ok (db₂, message', response')) ↔
      same db₁ db₂ s s' := by
  constructor
  · rintro ⟨t, ht, t', ht', htid, htid', h⟩
    rw [hid] at htid
    rw [hid'] at htid'
    have hidt : t'.id = s'.id := Option.some.inj <| by
      rw [← env.parseUuid_strUuid, htid', env.parseUuid_strUuid]
    rwa [Database.sbom_eq ht hs htid, Database.sbom_eq ht' hs' hidt] at h
  · exact fun h => ⟨s, hs, s', hs', hid.symm, hid'.symm, h⟩

/-- **When the endpoints agree.**  For every database, every project that both requests name and
every upload, with new identifiers and hashes of 64 characters. -/
theorem uploads_agree_iff {formId formSlug : Option String}
    (hsha : ∀ j, fitsVarchar 64 (env.sha256 j) = true)
    (hform : uploadProject env db (formId.map PyStr.stripNul) (formSlug.map PyStr.stripNul) =
      .ok project)
    (hrequest : grpcProject env db requestId requestSlug = .ok project)
    (hnew : ∀ i ∈ [inp, inp'], (∀ s ∈ db.sboms, s.id ≠ i.newSbomId) ∧
      ∀ v ∈ db.services, v.id ≠ i.newServiceId) :
    UploadsAgree env db (u.form formId formSlug) (u.request requestId requestSlug) inp inp' ↔
      SameOutcome env db project.id u := by
  have hmem : ∃ p ∈ db.projects, p.id = project.id := ⟨project, uploadProject_mem hform, rfl⟩
  unfold UploadsAgree SameOutcome
  cases hloads : env.loads u.file with
  | error e =>
    obtain ⟨e', he'⟩ : ∃ e', grpcUploadSbom env db (u.request requestId requestSlug) inp' =
      .error e' := grpcUploadSbom_of_loads_error hloads hrequest
    rw [uploadSbom_of_loads_error hloads hform, he']
    exact iff_of_true trivial trivial
  | ok raw =>
    obtain ⟨hsbom, hservice⟩ := hnew inp (by simp)
    obtain ⟨hsbom', hservice'⟩ := hnew inp' (by simp)
    have hgrpc : _ ↔ AcceptedByGrpc env db project.id u raw :=
      storeSbom_isOk_iff hmem hsha hsbom' hservice'
    rw [grpcUploadSbom_of_loads hloads hrequest]
    dsimp only
    by_cases hcalls : raw.calls ≤ env.stripCalls
    case neg =>
      -- only gRPC can store a document that is nested too deep for REST
      have hrest : ¬ AcceptedByRest env db project.id u raw := fun h => hcalls h.1
      have hfail : uploadSbom env db (u.form formId formSlug) inp =
        .error (.unhandled .recursionError) := uploadSbom_of_calls hloads hcalls hform
      rw [hfail, ← hgrpc]
      cases hstore' : storeSbom env db project.id raw u.version none inp' with
      | error e' => exact iff_of_true trivial (.inl ⟨hrest, by simp⟩)
      | ok r' => exact iff_of_false id (by simp [hrest])
    have hrest : _ ↔ AcceptedByRest env db project.id u raw :=
      (storeSbom_isOk_iff hmem hsha hsbom hservice).trans (and_iff_right hcalls).symm
    have hstored : uploadSbom env db (u.form formId formSlug) inp = _ :=
      uploadSbom_of_loads hloads hcalls hform
    rw [hstored, ← hrest, ← hgrpc]
    dsimp only [Upload.form]
    cases hstore : storeSbom env db project.id raw.stripNul (u.version.map PyStr.stripNul)
        (u.serviceName.map PyStr.stripNul) inp with
    | error e =>
      cases hstore' : storeSbom env db project.id raw u.version none inp' with
      | error e' => exact iff_of_true trivial (.inl ⟨by simp, by simp⟩)
      | ok r' => exact iff_of_false id (by simp)
    | ok r =>
      cases hstore' : storeSbom env db project.id raw u.version none inp' with
      | error e' => exact iff_of_false id (by simp)
      | ok r' =>
        refine Iff.trans (outcomesAgree_ok (mem_of_storeSbom hstore) (mem_of_storeSbom hstore') rfl
          rfl) ?_
        refine (sameSbom_iff hstore hstore').trans
          ⟨fun h => .inr ⟨⟨r, rfl⟩, ⟨r', rfl⟩, h.imp_right ?_⟩, ?_⟩
        · rintro ⟨hraw, hname⟩
          rw [hraw] at hname
          exact ⟨hraw, hname⟩
        · rintro (⟨hnone, -⟩ | ⟨-, -, hsame⟩)
          · exact absurd ⟨r, rfl⟩ hnone
          · refine hsame.imp_right fun ⟨hraw, hname⟩ => ⟨hraw, ?_⟩
            rw [hraw]
            exact hname

theorem UploadsAgree.service {form : UploadForm} {request : UploadRequest} {inp inp' : StoreInput}
    (h : UploadsAgree env db form request inp inp') :
    OutcomesAgree env (fun db db' s s' => serviceOf db s = serviceOf db' s')
      (uploadSbom env db form inp) (grpcUploadSbom env db request inp') :=
  OutcomesAgree.mono h fun _ _ _ _ hsame => hsame.service

/-- A document with a service name. -/
def namedUpload : Upload := ⟨[0, 1], none, some "api"⟩

/-- Over gRPC the name is lost. -/
theorem service_name_lost :
    uploadProject uploadEnv uploadWorld.db none (some "project") =
        .ok ⟨1, "project", "project"⟩ ∧
      grpcProject uploadEnv uploadWorld.db "" (some "project") = .ok ⟨1, "project", "project"⟩ ∧
      ¬ UploadsAgree uploadEnv uploadWorld.db (namedUpload.form none (some "project"))
        (namedUpload.request "" (some "project")) ⟨5, 10, 100⟩ ⟨5, 10, 100⟩ := by
  refine ⟨rfl, rfl, mt UploadsAgree.service ?_⟩
  decide +kernel

/-- The agreement on that upload. -/
theorem uploads_agree_demo :
    UploadsAgree uploadEnv uploadWorld.db (namedUpload.form none (some "project"))
        (namedUpload.request "" (some "project")) ⟨5, 10, 100⟩ ⟨6, 11, 100⟩ ↔
      SameOutcome uploadEnv uploadWorld.db (⟨1, "project", "project"⟩ : Project).id namedUpload :=
  uploads_agree_iff uploadEnv_sha256 rfl rfl (by decide)

end ArgusSbomGuard
