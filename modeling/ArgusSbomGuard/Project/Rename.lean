import ArgusSbomGuard.Project.Slug
import ArgusSbomGuard.Python.StripNul
import ArgusSbomGuard.System.Uploads

/-!
# Projects that change their names

A project gets another name over REST, where `ProjectUpdate` checks the body, or on its page, whose
handler `update_project_name` makes checks of its own: it strips the name and looks for an
alphanumeric character, but it neither removes NUL characters nor looks at the length.  The columns
of the database do the rest: whatever is created, renamed in either way and deleted, in every
reachable state each project has the slug of its present name, which is usable and under which
alone both upload endpoints find it (`found_by_slug`).  The two ways end differently exactly where
a missing check shows (`renames_agree_iff`).

## Main definitions

* `patchProject`, `updateProjectName` : the two ways.
* `ProjectAction`, `projectSystem` : the system with both.
* `Named` : the name of a project passed the checks, and its slug is that of the name.
-/

namespace ArgusSbomGuard

section

variable (t : Alphabet) (env : Env) (db : Database)

/-- `update_project` with a body that has a name only. -/
def patchProject (projectId : Uuid) (raw : String) : Except ApiError Database := do
  updateProject t db projectId ⟨some (← validateName t raw)⟩

/-- `update_project_name`, for the field `name` of the form. -/
def updateProjectName (projectId : Uuid) (raw : String) : Except ApiError Database :=
  let name := PyStr.strip raw
  if !name.toList.any t.isalnum then .error (.http 422 "")
  else match findProject db projectId with
    | none => .error (.http 404 "")
    | some project =>
      -- the query for other projects of the name refuses NUL characters
      if !fitsText name then .error (.unhandled .dataError)
      else if ∃ p ∈ db.projects, p.name = name ∧ p.id ≠ project.id then .error (.http 409 "")
      -- an attribute that keeps its value is not written
      else if project.name = name then .ok db
      else match db.updateProject ⟨project.id, name, slugify t name⟩ with
        | .ok db => .ok db
        | .error .integrityError => .error (.http 409 "")
        | .error e => .error (.unhandled e)

/-- An action of the system, or a change of a name over REST or on the page of the project. -/
inductive ProjectAction
  | system (a : Action)
  | rename (projectId : Uuid) (raw : String)
  | renamePage (projectId : Uuid) (raw : String)

/-- The state after an action. -/
def World.stepProject (w : World) : ProjectAction → Option World
  | .system a => w.step (env.withSlugs t) a
  | .rename projectId raw => some (w.commit (patchProject t w.db projectId raw))
  | .renamePage projectId raw => some (w.commit (updateProjectName t w.db projectId raw))

/-- The system with changes of names. -/
def projectSystem : Machine World ProjectAction where
  init := (system (env.withSlugs t)).init
  step := World.stepProject t env

/-- A project that is created has a name that passed the check of its characters. -/
def Checked (_ : World) : ProjectAction → Prop
  | .system (.createProject data _) => data.name.toList.any t.isalnum = true
  | _ => True

/-- The name of the project passed the checks, and the slug is that of the name. -/
structure Named (p : Project) : Prop where
  fits : fitsVarchar 255 p.name = true
  hasAlphanumeric : p.name.toList.any t.isalnum = true
  slug : p.slug = slugify t p.name
  slugFits : fitsVarchar 255 p.slug = true

end

variable {t : Alphabet} {env : Env} {db db' : Database} {w w' : World} {p : Project}
  {projectId : Uuid} {raw : String}

theorem Named.usable (h : Named t p) : UsableSlug t p.slug := by
  have hlen : slugLength t p.name ≤ 255 := by
    rw [← fitsVarchar_slugify, ← h.slug]
    exact h.slugFits
  rw [h.slug]
  exact (usableSlug_slugify ⟨p.name, h.fits, h.hasAlphanumeric⟩).2 hlen

/-! ### What is stored -/

theorem projects_createProject {data : ProjectCreate} {newId : Uuid}
    (h : createProject env db data newId = .ok db') :
    fitsVarchar 255 (env.slugify data.name) = true ∧ ∀ q ∈ db'.projects,
      q ∈ db.projects ∨ q = ⟨newId, data.name, env.slugify data.name⟩ := by
  unfold createProject at h
  split at h
  · cases h
  split at h
  · rename_i db₁ hins
    obtain rfl := Except.ok.inj h
    obtain ⟨table, htable, hframe⟩ := Database.insertProject_eq_ok hins
    refine ⟨(Database.insertProject_fits hins).2, fun q hq => ?_⟩
    rw [hframe] at hq
    exact (Table.mem_insert? htable).1 hq
  · split at h <;> cases h
  · cases h

/-- No project was added or changed. -/
def ProjectsKept (db db' : Database) : Prop := ∀ q ∈ db'.projects, q ∈ db.projects

theorem projects_deleteProject (h : deleteProject db projectId = .ok db') :
    ProjectsKept db db' := by
  unfold deleteProject at h
  split at h
  · cases h
  obtain ⟨db₁, hsboms, h⟩ := bind_eq_ok.1 (mapError_eq_ok h)
  obtain ⟨db₂, hservices, h⟩ := bind_eq_ok.1 h
  obtain ⟨ra, hra⟩ := Database.deleteServices_eq_ok hservices
  obtain ⟨ra', hra'⟩ := Database.deleteProjects_eq_ok h
  intro q hq
  rw [hra', hra, Database.deleteSboms_eq_ok hsboms] at hq
  exact (Table.mem_deleteWhere.1 hq).1

/-- Only a creation stores a project that was not there. -/
theorem projects_step {a : Action} (howned : ServiceOwned w.db)
    (ha : ∀ data newId, a ≠ .createProject data newId) (hst : w.step env a = some w') :
    ProjectsKept w.db w'.db := by
  have hstored : ∀ {p raw version name inp sbom db'},
      storeSbom env w.db p raw version name inp = .ok (db', sbom) → ProjectsKept w.db db' := by
    intro p raw version name inp sbom db' h q hq
    rcases storeSbom_eq_ok h with ⟨rfl, -⟩ | hstored
    · exact hq
    · rwa [hstored.frame] at hq
  have hsame : ProjectsKept w.db w.db := fun _ => id
  cases a with
  | createProject data newId => exact absurd rfl (ha data newId)
  | deleteProject projectId =>
    exact World.commit_elim (Option.some.inj hst) hsame fun db' h => projects_deleteProject h
  | deleteService serviceId =>
    refine World.commit_elim (Option.some.inj hst) hsame fun db' h => ?_
    intro q hq
    rwa [deleteService_eq_ok h] at hq
  | uploadSbom form inp =>
    refine World.enqueue_elim (Option.some.inj hst) hsame fun db' message response h => ?_
    obtain ⟨project, raw, version, serviceName, sbom, hstore, -⟩ := uploadSbom_eq_ok h
    exact hstored hstore
  | grpcUploadSbom request inp =>
    refine World.enqueue_elim (Option.some.inj hst) hsame fun db' message response h => ?_
    obtain ⟨project, raw, version, serviceName, sbom, hstore, -⟩ := grpcUploadSbom_eq_ok h
    exact hstored hstore
  | scanSbom message inp =>
    simp only [World.step] at hst
    split at hst
    case isFalse => cases hst
    rcases World.scan_cases (Option.some.inj hst) with rfl | ⟨sbom, -, report, -, -, heffect, -⟩
    · exact hsame
    · intro q hq
      rwa [heffect.frame] at hq
  | rescanVulnerabilities =>
    obtain rfl := Option.some.inj hst
    exact hsame
  | deleteSbom sbomId tie now =>
    refine World.commit_elim (Option.some.inj hst) hsame fun db' h => ?_
    intro q hq
    obtain ⟨sbom, -, -, heffect⟩ := deleteSbom_eq_ok howned h
    rwa [heffect.frame] at hq
  | pruneSboms days today =>
    refine World.commit_elim (Option.some.inj hst) hsame fun db' h => ?_
    intro q hq
    obtain ⟨target, hframe⟩ := pruneSboms_eq_ok h
    rwa [hframe] at hq
  | createRiskAcceptance data newId now =>
    refine World.commit_elim (Option.some.inj hst) hsame fun db' h => ?_
    intro q hq
    rwa [createRiskAcceptance_eq_ok h] at hq
  | deleteRiskAcceptance acceptanceId =>
    refine World.commit_elim (Option.some.inj hst) hsame fun db' h => ?_
    intro q hq
    rwa [deleteRiskAcceptance_eq_ok h] at hq

/-- What a change of a name does: nothing, or it stores a name that passed the checks, with its
slug. -/
def Renames (t : Alphabet) (db db' : Database) : Prop :=
  db' = db ∨ ∃ p : Project, Named t p ∧ ∃ table,
    db.projects.replace? (fun q => q.id == p.id) p = some table ∧
      db'.toTables = { db.toTables with projects := table }

theorem renames_of_updateProject {name : String} {i : Uuid}
    (halnum : name.toList.any t.isalnum = true)
    (h : db.updateProject ⟨i, name, slugify t name⟩ = .ok db') : Renames t db db' := by
  obtain ⟨⟨hname, hslug⟩, table, htable, hframe⟩ := Database.updateProject_eq_ok h
  exact .inr ⟨⟨i, name, slugify t name⟩, ⟨hname, halnum, rfl, hslug⟩, table, htable, hframe⟩

theorem renames_patchProject (h : patchProject t db projectId raw = .ok db') :
    Renames t db db' := by
  obtain ⟨name, -, h⟩ := bind_eq_ok.1 h
  unfold updateProject at h
  split at h
  · cases h
  dsimp only at h
  unfold renameProject at h
  split at h
  · cases h
  split at h
  · exact .inl (Except.ok.inj h).symm
  split at h
  · rename_i hupd
    obtain rfl := Except.ok.inj h
    exact renames_of_updateProject name.hasAlphanumeric hupd
  · split at h <;> cases h
  · cases h

theorem renames_updateProjectName (h : updateProjectName t db projectId raw = .ok db') :
    Renames t db db' := by
  unfold updateProjectName at h
  dsimp only at h
  split at h
  · cases h
  rename_i halnum
  have halnum : (PyStr.strip raw).toList.any t.isalnum = true := by simpa using halnum
  split at h
  · cases h
  split at h
  · cases h
  split at h
  · cases h
  split at h
  · exact .inl (Except.ok.inj h).symm
  split at h
  · rename_i hupd
    obtain rfl := Except.ok.inj h
    exact renames_of_updateProject halnum hupd
  · cases h
  · cases h

theorem Renames.named (h : Renames t db db') (hnamed : ∀ q ∈ db.projects, Named t q) :
    ∀ q ∈ db'.projects, Named t q := by
  rcases h with rfl | ⟨p, hp, table, htable, hframe⟩
  · exact hnamed
  · intro q hq
    rw [hframe] at hq
    rcases (Table.mem_replace? htable).1 hq with ⟨hq, -⟩ | rfl
    · exact hnamed q hq
    · exact hp

theorem Renames.invariant (h : Renames t db db') (hinv : SystemInvariant db) :
    SystemInvariant db' := by
  rcases h with rfl | ⟨p, -, table, -, hframe⟩
  · exact hinv
  · exact (trimmed_of_unchanged hframe).invariant hinv

/-- Every step keeps the names. -/
theorem named_step {a : ProjectAction} (hinv : SystemInvariant w.db)
    (hnamed : ∀ q ∈ w.db.projects, Named t q) (hchecked : Checked t w a)
    (hst : w.stepProject t env a = some w') :
    SystemInvariant w'.db ∧ ∀ q ∈ w'.db.projects, Named t q := by
  have hrename : ∀ {r : Except ApiError Database}, (∀ db', r = .ok db' → Renames t w.db db') →
      w.commit r = w' → SystemInvariant w'.db ∧ ∀ q ∈ w'.db.projects, Named t q := by
    intro r hr hcommit
    exact World.commit_elim (P := fun db => SystemInvariant db ∧ ∀ q ∈ db.projects, Named t q)
      hcommit ⟨hinv, hnamed⟩ fun db' hok => ⟨(hr db' hok).invariant hinv, (hr db' hok).named hnamed⟩
  cases a with
  | rename projectId raw =>
    exact hrename (fun db' => renames_patchProject) (Option.some.inj hst)
  | renamePage projectId raw =>
    exact hrename (fun db' => renames_updateProjectName) (Option.some.inj hst)
  | system a =>
    refine ⟨systemInvariant_step hinv hst, ?_⟩
    by_cases ha : ∃ data newId, a = .createProject data newId
    · obtain ⟨data, newId, rfl⟩ := ha
      refine World.commit_elim (P := fun db => ∀ q ∈ db.projects, Named t q)
        (Option.some.inj hst) hnamed fun db' h q hq => ?_
      obtain ⟨hslug, hmem⟩ := projects_createProject h
      rcases hmem q hq with hq | rfl
      · exact hnamed q hq
      · exact ⟨data.nameFits, hchecked, rfl, hslug⟩
    · have hkept : ProjectsKept w.db w'.db :=
        projects_step hinv.owned (fun data newId heq => ha ⟨data, newId, heq⟩) hst
      exact fun q hq => hnamed q (hkept q hq)

/-- **The names that are stored passed the checks, whichever way they came.** -/
theorem named_reachable (h : (projectSystem t env).Reaches (Checked t) w) :
    ∀ q ∈ w.db.projects, Named t q := by
  have hinit : ∀ q ∈ (projectSystem t env).init.db.projects, Named t q := fun q hq =>
    absurd hq (Table.not_mem_empty q)
  refine (h.invariant (I := fun w => SystemInvariant w.db ∧ ∀ q ∈ w.db.projects, Named t q)
    ⟨systemInvariant_empty, hinit⟩ ?_).2
  intro w a w' ⟨hinv, hnamed⟩ hchecked hst
  exact named_step hinv hnamed hchecked hst

/-! ### Uploads by slug -/

/-- A lookup by slug finds the project under its own slug only. -/
theorem Named.findProjectBySlug_iff (h : Named t p) (hp : p ∈ db.projects) {slug : String} :
    findProjectBySlug db slug = .ok (some p) ↔ slug = p.slug := by
  unfold findProjectBySlug
  constructor
  · intro hfind
    split_ifs at hfind
    exact (beq_iff_eq.1 (Table.mem_of_find? (Except.ok.inj hfind)).2).symm
  · rintro rfl
    have hfits : fitsText p.slug = true := (Bool.and_eq_true_iff.1 h.slugFits).2
    have hfind : (db.projects.find? fun q => q.slug == p.slug) = some p :=
      Table.find?_eq_some hp (beq_self_eq_true p.slug) fun a ha => .inr (.inr (beq_iff_eq.1 ha))
    rw [if_pos hfits, hfind]

/-- An upload over REST is for the project of the slug. -/
theorem Named.uploadProject_iff (h : Named t p) (hp : p ∈ db.projects) {slug : String} :
    uploadProject env db none (some slug) = .ok p ↔ slug = p.slug := by
  by_cases hempty : slug = ""
  · subst hempty
    refine iff_of_false nofun fun heq => h.usable.nonempty heq.symm
  rw [← h.findProjectBySlug_iff hp]
  have hslug : (some slug).filter (· ≠ "") = some slug := by simpa using hempty
  simp only [uploadProject, Option.filter_none, hslug]
  cases findProjectBySlug db slug with
  | error e => exact iff_of_false nofun nofun
  | ok found =>
    cases found with
    | none => exact iff_of_false nofun nofun
    | some q => simp only [Except.ok.injEq, Option.some.injEq]

/-- An upload over gRPC is for the project of the slug. -/
theorem Named.grpcProject_iff (h : Named t p) (hp : p ∈ db.projects) {slug : String} :
    grpcProject env db "" (some slug) = .ok p ↔ slug = p.slug := by
  by_cases hempty : slug = ""
  · subst hempty
    refine iff_of_false nofun fun heq => h.usable.nonempty heq.symm
  rw [← h.findProjectBySlug_iff hp]
  have hslug : (some slug).filter (· ≠ "") = some slug := by simpa using hempty
  simp only [grpcProject, hslug, bne_self_eq_false]
  cases findProjectBySlug db slug with
  | error e => exact iff_of_false nofun nofun
  | ok found =>
    cases found with
    | none => exact iff_of_false nofun nofun
    | some q =>
      show (Except.ok q : Except GrpcError Project) = .ok p ↔ _
      simp only [Except.ok.injEq, Option.some.injEq]

/-- **A project is found under the slug of its present name.**  Whatever was created, renamed in
either way and deleted before, a stored project has the slug of its name, which is usable, and both
upload endpoints find the project under this slug and under no other. -/
theorem found_by_slug (h : (projectSystem t env).Reaches (Checked t) w)
    (hp : p ∈ w.db.projects) :
    UsableSlug t (slugify t p.name) ∧ ∀ slug,
      (uploadProject env w.db none (some slug) = .ok p ↔ slug = slugify t p.name) ∧
        (grpcProject env w.db "" (some slug) = .ok p ↔ slug = slugify t p.name) := by
  have hnamed := named_reachable h p hp
  rw [← hnamed.slug]
  exact ⟨hnamed.usable, fun slug => ⟨hnamed.uploadProject_iff hp, hnamed.grpcProject_iff hp⟩⟩

/-- A project is created, renamed over REST and then on its page. -/
def renamedActions : List ProjectAction :=
  [.system (.createProject ⟨"Straße 7", by decide⟩ 1), .rename 1 "Platz 8",
    .renamePage 1 "  Straße 9 "]

/-- The system of the demonstration, with German names. -/
def germanSystem : Machine World ProjectAction := projectSystem germanAlphabet demoEnv

theorem renamedActions_isSome : (germanSystem.run germanSystem.init renamedActions).isSome := by
  decide +kernel

/-- After the changes of its name. -/
def demoRenamed : World := germanSystem.after renamedActions renamedActions_isSome

theorem demoRenamed_reaches : germanSystem.Reaches (Checked germanAlphabet) demoRenamed := by
  have hname : "Straße 7".toList.any germanAlphabet.isalnum = true := by decide +kernel
  exact Machine.reaches_after
    ⟨hname, fun _ _ => ⟨trivial, fun _ _ => ⟨trivial, fun _ _ => trivial⟩⟩⟩

theorem found_by_slug_demo : ∃ p ∈ demoRenamed.db.projects, p.name = "Straße 9" ∧
    UsableSlug germanAlphabet (slugify germanAlphabet p.name) ∧ ∀ slug,
      (uploadProject demoEnv demoRenamed.db none (some slug) = .ok p ↔
        slug = slugify germanAlphabet p.name) ∧
      (grpcProject demoEnv demoRenamed.db "" (some slug) = .ok p ↔
        slug = slugify germanAlphabet p.name) := by
  have hrow : ∃ p ∈ demoRenamed.db.projects.rows, p.name = "Straße 9" := by decide +kernel
  obtain ⟨p, hp, hname⟩ := hrow
  exact ⟨p, hp, hname, found_by_slug demoRenamed_reaches hp⟩

/-! ### The two ways -/

theorem validateName_stripNul : validateName t (PyStr.stripNul raw) = validateName t raw := by
  simp only [validateName, stripNul_eq (Json.notMem_stripNul raw)]

theorem fitsVarchar_stripNul :
    fitsVarchar 255 (PyStr.stripNul raw) = true ↔ (PyStr.stripNul raw).length ≤ 255 := by
  have hnul : (PyStr.stripNul raw).toList.contains '\x00' = false := by
    rw [List.contains_eq_mem, decide_eq_false_iff_not]
    exact Json.notMem_stripNul raw
  rw [fitsVarchar, hnul, Bool.not_false, Bool.and_true, decide_eq_true_eq]

/-- NUL characters do not count as alphanumeric. -/
theorem any_stripNul (hnul : t.isalnum '\x00' = false) :
    (PyStr.stripNul raw).toList.any t.isalnum = raw.toList.any t.isalnum := by
  rw [PyStr.stripNul, String.toList_ofList, List.any_filter]
  refine congrArg raw.toList.any (funext fun c => ?_)
  by_cases hc : c = '\x00'
  · rw [hc, hnul, Bool.and_false]
  · rw [bne_iff_ne.2 hc, Bool.true_and]

/-- A body that is refused. -/
theorem patchProject_refused (h : (PyStr.stripNul raw).toList.any t.isalnum = false ∨
    255 < (PyStr.stripNul raw).length) :
    (patchProject t db projectId raw).mapError ApiError.statusCode = .error 422 := by
  unfold patchProject validateName
  dsimp only
  by_cases hfits : fitsVarchar 255 (PyStr.stripNul raw) = true
  · have halnum := h.resolve_right (not_lt.2 (fitsVarchar_stripNul.1 hfits))
    simp only [hfits, halnum, dite_true, Bool.false_eq_true, dite_false]
    rfl
  · simp only [hfits, Bool.false_eq_true, dite_false]
    rfl

/-- A body that passes the checks. -/
theorem patchProject_eq {name : ProjectName t} (hname : name.val = PyStr.stripNul raw) :
    patchProject t db projectId raw = updateProject t db projectId ⟨some name⟩ := by
  unfold patchProject
  rw [← validateName_stripNul, ← hname, validateName_val]
  rfl

/-- The page refuses only names without an alphanumeric character with this status. -/
theorem updateProjectName_refused_iff :
    (updateProjectName t db projectId raw).mapError ApiError.statusCode = .error 422 ↔
      (PyStr.strip raw).toList.any t.isalnum = false := by
  unfold updateProjectName
  dsimp only
  cases halnum : (PyStr.strip raw).toList.any t.isalnum with
  | false => exact iff_of_true rfl rfl
  | true =>
    refine iff_of_false ?_ (Bool.false_ne_true ∘ Eq.symm)
    simp only [Bool.not_true, Bool.false_eq_true, if_false]
    split
    · nofun
    · split
      · nofun
      split
      · nofun
      split
      · nofun
      split <;> nofun

/-- A name that fits is stored in either way. -/
theorem updateProjectName_eq {name : ProjectName t} (hname : name.val = PyStr.strip raw) :
    (updateProjectName t db projectId raw).mapError ApiError.statusCode =
      (updateProject t db projectId ⟨some name⟩).mapError ApiError.statusCode := by
  have hfits : fitsText name.val = true := (Bool.and_eq_true_iff.1 name.fits).2
  unfold updateProjectName updateProject
  simp only [← hname, name.hasAlphanumeric, hfits, Bool.not_true, Bool.false_eq_true, if_false]
  cases findProject db projectId with
  | none => rfl
  | some project =>
    simp only [renameProject]
    split
    · rfl
    split
    · rfl
    cases db.updateProject ⟨project.id, name.val, slugify t name.val⟩ with
    | ok db' => rfl
    | error e =>
      cases e with
      | integrityError =>
        simp only
        split <;> rfl
      | _ => rfl

/-- A name with a NUL character leads to a database error, when there is the project. -/
theorem updateProjectName_nul (halnum : (PyStr.strip raw).toList.any t.isalnum = true)
    (hnul : '\x00' ∈ (PyStr.strip raw).toList) :
    updateProjectName t db projectId raw = match findProject db projectId with
      | none => .error (.http 404 "")
      | some _ => .error (.unhandled .dataError) := by
  have hfits : fitsText (PyStr.strip raw) = false := by
    simpa [fitsText] using hnul
  simp only [updateProjectName, halnum, hfits, Bool.not_true, Bool.not_false, Bool.false_eq_true,
    if_false, if_true]

/-- Where the stored names passed the checks, a change ends with a database error exactly when the
new slug does not fit. -/
theorem updateProject_failed_iff {name : ProjectName t} {project : Project}
    (hnamed : ∀ q ∈ db.projects, Named t q) (hfind : findProject db projectId = some project) :
    (updateProject t db projectId ⟨some name⟩).mapError ApiError.statusCode = .error 500 ↔
      255 < slugLength t name.val := by
  constructor
  · intro hfailed
    by_contra hshort
    cases hupd : updateProject t db projectId ⟨some name⟩ with
    | ok db' =>
      rw [hupd] at hfailed
      cases hfailed
    | error e =>
      rw [hupd] at hfailed
      rcases updateProject_error (not_lt.1 hshort) hupd with rfl | ⟨detail, rfl⟩
      · cases hfailed
      · cases hfailed
  · intro hlong
    have hslug : fitsVarchar 255 (slugify t name.val) = false := by
      rw [← Bool.not_eq_true, fitsVarchar_slugify]
      exact not_le.2 hlong
    -- no stored project has a name whose slug is too long
    have hnone : ∀ q ∈ db.projects, q.name ≠ name.val := by
      intro q hq heq
      have hfits := (hnamed q hq).slugFits
      rw [(hnamed q hq).slug, heq, hslug] at hfits
      cases hfits
    have hproject : project ∈ db.projects := (Table.mem_of_find? hfind).1
    unfold updateProject renameProject
    rw [hfind]
    dsimp only
    rw [if_neg (by rintro ⟨q, hq, heq, -⟩; exact hnone q hq heq),
      if_neg (hnone project hproject), Database.updateProject, hslug, Bool.and_false]
    rfl

/-- None of the checks that the page leaves out shows on the stripped name: it has no alphanumeric
character, so that both ways refuse it, or it is short enough and has no NUL character, or those do
not matter, since there is no such project or the database refuses the slug anyway. -/
def ChecksAgree (t : Alphabet) (db : Database) (projectId : Uuid) (name : String) : Prop :=
  name.toList.any t.isalnum = false ∨ ((PyStr.stripNul name).length ≤ 255 ∧
    ('\x00' ∉ name.toList ∨ findProject db projectId = none ∨
      255 < slugLength t (PyStr.stripNul name)))

instance (t : Alphabet) (db : Database) (projectId : Uuid) (name : String) :
    Decidable (ChecksAgree t db projectId name) :=
  inferInstanceAs (Decidable (_ ∨ _))

/-- **The two ways to change a name.**  In every reachable state, a change on the page ends like
the change to the stripped name over REST, with the same status and the same tables, exactly when
none of the checks that the page leaves out shows. -/
theorem renames_agree_iff (hnul : t.isalnum '\x00' = false)
    (h : (projectSystem t env).Reaches (Checked t) w) :
    (updateProjectName t w.db projectId raw).mapError ApiError.statusCode =
        (patchProject t w.db projectId (PyStr.strip raw)).mapError ApiError.statusCode ↔
      ChecksAgree t w.db projectId (PyStr.strip raw) := by
  have hany : (PyStr.stripNul (PyStr.strip raw)).toList.any t.isalnum =
      (PyStr.strip raw).toList.any t.isalnum := any_stripNul hnul
  unfold ChecksAgree
  cases halnum : (PyStr.strip raw).toList.any t.isalnum with
  | false =>
    rw [patchProject_refused (.inl (hany.trans halnum)), updateProjectName_refused_iff, halnum]
    exact iff_of_true rfl (.inl rfl)
  | true =>
    rcases lt_or_ge 255 (PyStr.stripNul (PyStr.strip raw)).length with hlong | hshort
    · rw [patchProject_refused (.inr hlong), updateProjectName_refused_iff, halnum]
      refine iff_of_false Bool.false_ne_true.symm ?_
      rintro (hfalse | ⟨hle, -⟩)
      · cases hfalse
      · exact hlong.not_ge hle
    let name : ProjectName t := ⟨PyStr.stripNul (PyStr.strip raw), fitsVarchar_stripNul.2 hshort,
      hany.trans halnum⟩
    have hpatch : patchProject t w.db projectId (PyStr.strip raw) =
        updateProject t w.db projectId ⟨some name⟩ := patchProject_eq rfl
    rw [hpatch]
    by_cases hmem : '\x00' ∈ (PyStr.strip raw).toList
    · rw [updateProjectName_nul halnum hmem]
      cases hfind : findProject w.db projectId with
      | none =>
        refine iff_of_true ?_ (.inr ⟨hshort, .inr (.inl rfl)⟩)
        rw [updateProject, hfind]
        rfl
      | some project =>
        have hfailed : (updateProject t w.db projectId ⟨some name⟩).mapError ApiError.statusCode =
            .error 500 ↔ 255 < slugLength t name.val :=
          updateProject_failed_iff (named_reachable h) hfind
        constructor
        · intro heq
          exact .inr ⟨hshort, .inr (.inr (hfailed.1 heq.symm))⟩
        · rintro (hfalse | ⟨-, hnot | hnone | hslug⟩)
          · cases hfalse
          · exact absurd hmem hnot
          · cases hnone
          · exact (hfailed.2 hslug).symm
    · have hname : name.val = PyStr.strip raw := stripNul_eq hmem
      exact iff_of_true (updateProjectName_eq hname) (.inr ⟨hshort, .inl hmem⟩)

/-- A name with a NUL character is a database error on the page, and none over REST. -/
theorem renames_agree_iff_demo :
    (updateProjectName germanAlphabet demoRenamed.db 1 " Weg\x00 2 ").mapError
        ApiError.statusCode ≠
      (patchProject germanAlphabet demoRenamed.db 1 (PyStr.strip " Weg\x00 2 ")).mapError
        ApiError.statusCode := by
  intro heq
  have hagree := (renames_agree_iff (by decide) demoRenamed_reaches).1 heq
  exact absurd hagree (by decide +kernel)

end ArgusSbomGuard
