import ArgusSbomGuard.Sbom.Rows
import ArgusSbomGuard.System.Invariant

/-!
# Uploads of any document

In every reachable state the stored values fit their columns, and the dependency count of an SBOM is
the number of its dependencies (`rowsFit`): documents are only stored by `store_sbom`, and removed
together with their dependencies.

An upload over REST ends with an unhandled exception when `json.loads` raises anything but a
`JSONDecodeError`, when the document is nested too deep for `_strip_nul_from_strings`, or when
`store_sbom` does not accept it; otherwise it ends as it should (`upload_ends_well_iff`).

## Main definitions

* `DocumentsChanged` : what an action does to the documents.
* `EndsWell` : how an upload should end.
* `UploadFits` : the condition on the upload.
-/

namespace ArgusSbomGuard

variable {env : Env} {db db' : Database} {projectId : Uuid}

/-! ### Every action -/

/-- SBOMs were only removed, each with its dependencies. -/
def DocumentsRemoved (db db' : Database) : Prop :=
  ∃ p : Uuid → Bool, db'.sboms = db.sboms.deleteWhere (fun s => p s.id) ∧
    db'.dependencies = db.dependencies.deleteWhere (fun d => p d.sbomId) ∧
    ∀ v ∈ db'.services, v ∈ db.services

theorem DocumentsRemoved.of_eq (hsboms : db'.sboms = db.sboms)
    (hdeps : db'.dependencies = db.dependencies) (hservices : ∀ v ∈ db'.services, v ∈ db.services) :
    DocumentsRemoved db db' := by
  refine ⟨fun _ => false, ?_, ?_, hservices⟩
  · rw [hsboms]
    simp [Table.deleteWhere]
  · rw [hdeps]
    simp [Table.deleteWhere]

theorem DocumentsRemoved.rowsFit (h : DocumentsRemoved db db') (hrows : RowsFit db) :
    RowsFit db' := by
  obtain ⟨p, hsboms, hdeps, hservices⟩ := h
  refine ⟨fun s hs => ?_, fun d hd => ?_, fun v hv => hrows.services v (hservices v hv),
    fun s hs => ?_⟩
  · rw [hsboms] at hs
    exact hrows.sboms s (Table.mem_deleteWhere.1 hs).1
  · rw [hdeps] at hd
    exact hrows.dependencies d (Table.mem_deleteWhere.1 hd).1
  · rw [hsboms] at hs
    obtain ⟨hs, hkept⟩ := Table.mem_deleteWhere.1 hs
    rw [hrows.counted s hs, dependencyRows, dependencyRows, hdeps]
    refine congrArg (fun rows => some (List.length rows)) ?_
    rw [Table.deleteWhere, List.filter_filter]
    refine (List.filter_congr fun d _ => ?_).symm
    by_cases hid : d.sbomId = s.id
    · simp [hid, hkept]
    · simp [hid]

/-- What an action does to the documents. -/
inductive DocumentsChanged (db db' : Database) : Prop
  | removed (h : DocumentsRemoved db db')
  | stored {sbom : SBOM} (h : StoredRows sbom db db')

theorem DocumentsChanged.refl : DocumentsChanged db db := .removed (.of_eq rfl rfl fun _ hv => hv)

theorem storeSbom_documents {raw : Json} {version serviceName : Option String} {inp : StoreInput}
    {sbom : SBOM} (h : storeSbom env db projectId raw version serviceName inp = .ok (db', sbom)) :
    DocumentsChanged db db' := by
  rcases storeSbom_rows h with ⟨rfl, -⟩ | hstored
  · exact .refl
  · exact .stored hstored

variable {w w' : World} {a : Action}

/-- Every action stores a document, or at most removes some. -/
theorem documents_step (howned : ServiceOwned w.db) (hst : World.step env w a = some w') :
    DocumentsChanged w.db w'.db := by
  cases World.step_effect hst with
  | unchanged h =>
    rw [h]
    exact .refl
  | createProject hok =>
    have h := createProject_eq_ok hok
    exact .removed (.of_eq (by rw [h]) (by rw [h]) fun v hv => by rwa [h] at hv)
  | deleteProject hok =>
    obtain ⟨target, h⟩ := deleteProject_eq_ok hok
    refine .removed ⟨target.contains, by rw [h], by rw [h], fun v hv => ?_⟩
    rw [h] at hv
    exact (Table.mem_deleteWhere.1 hv).1
  | deleteService hok =>
    have h := deleteService_eq_ok hok
    refine .removed (.of_eq (by rw [h]) (by rw [h]) fun v hv => ?_)
    rw [h] at hv
    exact (Table.mem_deleteWhere.1 hv).1
  | storeSbom h => exact storeSbom_documents h
  | scanSbom _ _ heffect =>
    have h := heffect.frame
    exact .removed (.of_eq (by rw [h]) (by rw [h]) fun v hv => by rwa [h] at hv)
  | deleteSbom _ hok =>
    obtain ⟨sbom, -, -, heffect⟩ := deleteSbom_eq_ok howned hok
    have h := heffect.frame
    exact .removed ⟨fun i => i == sbom.id, by rw [h], by rw [h], fun v hv => by rwa [h] at hv⟩
  | pruneSboms hok =>
    obtain ⟨target, h⟩ := pruneSboms_eq_ok hok
    exact .removed ⟨target.contains, by rw [h], by rw [h], fun v hv => by rwa [h] at hv⟩
  | createRiskAcceptance hok =>
    have h := createRiskAcceptance_eq_ok hok
    exact .removed (.of_eq (by rw [h]) (by rw [h]) fun v hv => by rwa [h] at hv)
  | deleteRiskAcceptance hok =>
    have h := deleteRiskAcceptance_eq_ok hok
    exact .removed (.of_eq (by rw [h]) (by rw [h]) fun v hv => by rwa [h] at hv)

theorem rowsFit_empty : RowsFit .empty where
  sboms _ hs := absurd hs (Table.not_mem_empty _)
  dependencies _ hd := absurd hd (Table.not_mem_empty _)
  services _ hv := absurd hv (Table.not_mem_empty _)
  counted _ hs := absurd hs (Table.not_mem_empty _)

/-- **The stored values fit and the dependencies are counted in every reachable state.** -/
theorem rowsFit (hw : (system env).Reachable w) : RowsFit w.db :=
  hw.invariant_under (I := fun w => SystemInvariant w.db) systemInvariant_empty
    (fun _ _ _ hinv hst => systemInvariant_step hinv hst) rowsFit_empty
    fun _ _ _ hinv hrows _ hst => by
      cases documents_step hinv.owned hst with
      | removed h => exact h.rowsFit hrows
      | stored h => exact h.rowsFit hrows

/-! ### How an upload ends -/

/-- The status of the answer. -/
def ApiError.statusCode : ApiError → ℕ
  | .validation _ _ => 422
  | .http statusCode _ => statusCode
  | .unhandled _ => 500

/-- An upload should end with a 4xx answer and an unchanged state, or with a stored SBOM whose
dependencies are counted, in a database whose values fit. -/
def EndsWell (env : Env) (w : World) (form : UploadForm) (inp : StoreInput) : Prop :=
  match uploadSbom env w.db form inp with
  | .error e => (400 ≤ e.statusCode ∧ e.statusCode < 500) ∧
      World.step env w (.uploadSbom form inp) = some w
  | .ok (db', _, response) => (∃ sbom ∈ db'.sboms, sbom.id = response.id ∧
      response.dependencyCount = some (dependencyRows db' sbom.id).length) ∧ RowsFit db'

/-- The file is no JSON, or a document that is not nested too deep and is accepted. -/
def UploadFits (env : Env) (db : Database) (projectId : Uuid) (form : UploadForm) : Prop :=
  match env.loads form.file with
  | .error e => e = .jsonDecodeError
  | .ok raw => raw.calls ≤ env.stripCalls ∧
      Accepted env db projectId raw.stripNul (form.version.map PyStr.stripNul)
        (form.serviceName.map PyStr.stripNul)

variable {form : UploadForm} {inp : StoreInput} {project : Project}

theorem uploadSbom_of_loads_error {e : PyError} (h : env.loads form.file = .error e)
    (hproject : uploadProject env db (form.projectId.map PyStr.stripNul)
      (form.projectSlug.map PyStr.stripNul) = .ok project) :
    uploadSbom env db form inp = .error (if e = .jsonDecodeError then
      .validation ["body", "file"] "Invalid JSON" else .unhandled e) := by
  have hdocument : uploadedDocument env form.file = .error (if e = .jsonDecodeError then
      .validation ["body", "file"] "Invalid JSON" else .unhandled e) := by
    rw [uploadedDocument, h]
    cases e <;> rfl
  rw [uploadSbom, hproject]
  change (uploadedDocument env form.file >>= _) = _
  rw [hdocument]
  rfl

/-- A document that is nested too deep. -/
theorem uploadSbom_of_calls {raw : Json} (h : env.loads form.file = .ok raw)
    (hcalls : ¬ raw.calls ≤ env.stripCalls)
    (hproject : uploadProject env db (form.projectId.map PyStr.stripNul)
      (form.projectSlug.map PyStr.stripNul) = .ok project) :
    uploadSbom env db form inp = .error (.unhandled .recursionError) := by
  have hdocument : uploadedDocument env form.file = .error (.unhandled .recursionError) := by
    simp only [uploadedDocument, h, stripNulFromStrings, if_neg hcalls, Except.mapError]
  rw [uploadSbom, hproject]
  change (uploadedDocument env form.file >>= _) = _
  rw [hdocument]
  rfl

theorem uploadSbom_of_loads {raw : Json} (h : env.loads form.file = .ok raw)
    (hcalls : raw.calls ≤ env.stripCalls)
    (hproject : uploadProject env db (form.projectId.map PyStr.stripNul)
      (form.projectSlug.map PyStr.stripNul) = .ok project) :
    uploadSbom env db form inp =
      match storeSbom env db project.id raw.stripNul (form.version.map PyStr.stripNul)
        (form.serviceName.map PyStr.stripNul) inp with
      | .ok (db', sbom) => .ok (db', env.strUuid sbom.id,
          ⟨sbom.id, sbom.format, sbom.dependencyCount, sbom.sha256⟩)
      | .error e => .error (.unhandled e) := by
  have hdocument : uploadedDocument env form.file = .ok raw.stripNul := by
    simp only [uploadedDocument, h, stripNulFromStrings, if_pos hcalls, Except.mapError]
  rw [uploadSbom, hproject]
  change (uploadedDocument env form.file >>= _) = _
  rw [hdocument]
  change ((storeSbom env db project.id raw.stripNul _ _ inp).mapError _ >>= _) = _
  cases storeSbom env db project.id raw.stripNul (form.version.map PyStr.stripNul)
    (form.serviceName.map PyStr.stripNul) inp <;> rfl

/-- **When an upload ends well.**  In every reachable state, for an existing project, with new
identifiers and hashes of 64 characters, an upload ends well exactly when its file is no JSON or a
document that is not nested too deep and is accepted. -/
theorem upload_ends_well_iff (hw : (system env).Reachable w)
    (hsha : ∀ j, fitsVarchar 64 (env.sha256 j) = true)
    (hproject : uploadProject env w.db (form.projectId.map PyStr.stripNul)
      (form.projectSlug.map PyStr.stripNul) = .ok project)
    (hsbom : ∀ s ∈ w.db.sboms, s.id ≠ inp.newSbomId)
    (hservice : ∀ v ∈ w.db.services, v.id ≠ inp.newServiceId) :
    EndsWell env w form inp ↔ UploadFits env w.db project.id form := by
  cases hloads : env.loads form.file with
  | error e =>
    rw [EndsWell, uploadSbom_of_loads_error hloads hproject, UploadFits, hloads]
    by_cases he : e = .jsonDecodeError
    · refine iff_of_true ⟨?_, ?_⟩ he
      · rw [if_pos he]
        decide
      · rw [World.step, uploadSbom_of_loads_error hloads hproject]
        rfl
    · refine iff_of_false (fun h => ?_) he
      rw [if_neg he] at h
      exact Nat.lt_irrefl 500 h.1.2
  | ok raw =>
    have hmem : ∃ p ∈ w.db.projects, p.id = project.id := ⟨project, uploadProject_mem hproject, rfl⟩
    rw [UploadFits, hloads, EndsWell]
    by_cases hcalls : raw.calls ≤ env.stripCalls
    case neg =>
      rw [uploadSbom_of_calls hloads hcalls hproject]
      exact iff_of_false (fun h => Nat.lt_irrefl 500 h.1.2) fun h => hcalls h.1
    rw [uploadSbom_of_loads hloads hcalls hproject]
    refine Iff.trans ?_ ((storeSbom_isOk_iff hmem hsha hsbom hservice).trans
      (and_iff_right hcalls).symm)
    cases hstore : storeSbom env w.db project.id raw.stripNul (form.version.map PyStr.stripNul)
      (form.serviceName.map PyStr.stripNul) inp with
    | error e =>
      exact iff_of_false (fun h => Nat.lt_irrefl 500 h.1.2) not_isOk_error
    | ok r =>
      obtain ⟨db', sbom⟩ := r
      refine iff_of_true ?_ ⟨_, rfl⟩
      have hrows := rowsFit hw
      rcases storeSbom_rows hstore with ⟨rfl, hs⟩ | hstored
      · exact ⟨⟨sbom, hs, rfl, hrows.counted sbom hs⟩, hrows⟩
      · have hrows' := hstored.rowsFit hrows
        have hs : sbom ∈ db'.sboms := (Table.mem_insert? hstored.insert).2 (.inr rfl)
        exact ⟨⟨sbom, hs, rfl, hrows'.counted sbom hs⟩, hrows'⟩

/-- Hashes of 64 characters, and a file that is an empty list. -/
def uploadEnv : Env := { demoEnv with
  loads := fun
    | [] => .ok (.arr [])
    | file => demoEnv.loads file
  sha256 := fun j =>
    let n := (demoEnv.sha256 j).length % 64
    String.ofList (List.replicate n '0' ++ List.replicate (64 - n) '1') }

/-- A new project. -/
def uploadWorld : World := (system uploadEnv).after [demoProject] (by decide)

theorem uploadEnv_sha256 (j : Json) : fitsVarchar 64 (uploadEnv.sha256 j) = true := by
  have hle : (demoEnv.sha256 j).length % 64 ≤ 64 := (Nat.mod_lt _ (by decide)).le
  simp [fitsVarchar, uploadEnv, hle]

/-- The upload of an empty list ends with an unhandled exception: a list has no method `get`. -/
theorem list_upload_fails : (system uploadEnv).Reachable uploadWorld ∧
    ¬ EndsWell uploadEnv uploadWorld ⟨none, some "project", none, none, []⟩ ⟨0, 10, 100⟩ :=
  ⟨Machine.reachable_after, fun h => absurd h.1.2 (by decide)⟩

/-- The upload of a document ends well because the document is accepted. -/
theorem upload_ends_well_demo :
    EndsWell uploadEnv uploadWorld (demoForm 1) ⟨0, 10, 100⟩ ↔
      UploadFits uploadEnv uploadWorld.db (⟨1, "project", "project"⟩ : Project).id (demoForm 1) :=
  upload_ends_well_iff Machine.reachable_after uploadEnv_sha256 rfl (by decide) (by decide)

end ArgusSbomGuard
