import ArgusSbomGuard.Sbom.Accepted

/-!
# The rows of a stored document

A document becomes one row of `sboms`, one of `dependencies` for each of its entries and at most one
of `services`; all of them fit their columns, and the SBOM counts its dependencies (`RowsFit`).

## Main definitions

* `SBOM.Fits`, `Dependency.Fits` : the values fit the columns.
* `dependencyRows` : the dependencies of an SBOM.
* `RowsFit` : all values of a database fit, and all dependencies are counted.
* `storedName` : the name of the service that is found or inserted for a name.
* `StoredRows`, `StoredDocument` : the rows that storing a document adds, and that they are those
  of the document.
-/

namespace ArgusSbomGuard

/-- The values fit the columns of `sboms`. -/
def SBOM.Fits (s : SBOM) : Prop :=
  s.version.all (fitsVarchar 255) = true ∧ fitsVarchar 64 s.sha256 = true ∧
    s.rawSbom.storable = true ∧ s.dependencyCount.all fitsInteger = true

/-- The values fit the columns of `dependencies`. -/
def Dependency.Fits (d : Dependency) : Prop :=
  fitsVarchar 512 d.name = true ∧ fitsVarchar 255 d.version = true ∧
    d.purl.all (fitsVarchar 1024) = true ∧ d.depType.all (fitsVarchar 50) = true ∧
    d.license.all (fitsVarchar 255) = true ∧ d.extraData.storable = true

/-- The dependencies of an SBOM. -/
def dependencyRows (db : Database) (sbomId : Uuid) : List Dependency :=
  db.dependencies.rows.filter fun d => d.sbomId == sbomId

/-- The stored values fit their columns, and the dependencies are counted. -/
structure RowsFit (db : Database) : Prop where
  sboms : ∀ s ∈ db.sboms, s.Fits
  dependencies : ∀ d ∈ db.dependencies, d.Fits
  services : ∀ v ∈ db.services, fitsVarchar 255 v.name = true
  counted : ∀ s ∈ db.sboms, s.dependencyCount = some (dependencyRows db s.id).length

/-! ### Storing -/

variable {env : Env} {db db' : Database} {projectId : Uuid}

theorem varchar_fits {n : ℕ} {text s : String} (h : env.varchar n text = .ok s) :
    fitsVarchar n s = true := by
  obtain ⟨hwrites, rfl⟩ := env.varchar_eq_ok.1 h
  exact fitsVarchar_cutText (Bool.and_eq_true_iff.1 hwrites).2

theorem varcharParam_eq_ok {n : ℕ} {j : Json} {v : Option String}
    (h : env.varcharParam n j = .ok v) : v.all (fitsVarchar n) = true := by
  cases j with
  | null =>
    obtain rfl := Except.ok.inj h
    rfl
  | str s =>
    obtain ⟨t, ht, rfl⟩ := map_eq_ok.1 h
    exact varchar_fits ht
  | _ => cases h

theorem varcharParamNotNull_eq_ok {n : ℕ} {j : Json} {s : String}
    (h : env.varcharParamNotNull n j = .ok s) : fitsVarchar n s = true := by
  cases j with
  | str t => exact varchar_fits h
  | _ => cases h

theorem bindDependency_fits {i : Uuid} {d : DependencyData} {row : Dependency}
    (h : bindDependency env i d = .ok row) (hextra : row.extraData.storable = true) :
    row.Fits := by
  simp only [bindDependency, bind_eq_ok] at h
  obtain ⟨name, hname, version, hversion, purl, hpurl, depType, hdepType, license, hlicense, _, -,
    h⟩ := h
  obtain rfl := Except.ok.inj h
  exact ⟨varcharParamNotNull_eq_ok hname, varcharParamNotNull_eq_ok hversion,
    varcharParam_eq_ok hpurl, varcharParam_eq_ok hdepType, varcharParam_eq_ok hlicense, hextra⟩

/-- The loop at the end of `store_sbom` adds the rows of the entries, in order. -/
theorem addDependencies_rows {i : Uuid} {ds : List DependencyData}
    (h : addDependencies env i db ds = .ok db') :
    ∃ rows, ds.mapM (bindDependency env i) = .ok rows ∧
      db'.dependencies.rows = db.dependencies.rows ++ rows ∧ ∀ d ∈ rows, d.sbomId = i ∧ d.Fits := by
  induction ds generalizing db with
  | nil =>
    obtain rfl := Except.ok.inj h
    exact ⟨[], rfl, (List.append_nil _).symm, fun d hd => absurd hd List.not_mem_nil⟩
  | cons d ds ih =>
    simp only [addDependencies, bind_eq_ok] at h
    obtain ⟨row, hrow, db₁, hins, h⟩ := h
    obtain ⟨t, ht, htab⟩ := Database.insertDependency_eq_ok hins
    have hfirst : db₁.dependencies.rows = db.dependencies.rows ++ [row] := by
      rw [htab]
      exact (Table.insert?_eq_some ht).2
    have hfits : row.Fits :=
      bindDependency_fits hrow (Database.insertDependency_isOk.1 ⟨db₁, hins⟩).1
    obtain ⟨rows, hmap, hrows, hall⟩ := ih h
    refine ⟨row :: rows, ?_, ?_, ?_⟩
    · simp only [List.mapM_cons, bind_eq_ok]
      exact ⟨row, hrow, rows, hmap, rfl⟩
    · rw [hrows, hfirst, List.append_assoc]
      rfl
    · exact List.forall_mem_cons.2 ⟨⟨(bindDependency_eq_ok hrow).1, hfits⟩, hall⟩

/-- The rows of a document that was stored. -/
structure StoredRows (sbom : SBOM) (db db' : Database) : Prop where
  insert : db.sboms.insert? sbom = some db'.sboms
  fits : sbom.Fits
  services : ∀ v ∈ db'.services, v ∈ db.services ∨ fitsVarchar 255 v.name = true
  dependencies : ∃ rows, db'.dependencies.rows = db.dependencies.rows ++ rows ∧
    sbom.dependencyCount = some rows.length ∧ ∀ d ∈ rows, d.sbomId = sbom.id ∧ d.Fits

/-- The project and the name of the service of an SBOM. -/
def serviceOf (db : Database) (s : SBOM) : Option (Uuid × String) :=
  (s.serviceId.bind fun i => db.services.find? fun v => v.id == i).map
    fun v => (v.projectId, v.name)

/-- The name of the service that is found or inserted for a name. -/
def storedName (db : Database) (projectId : Uuid) (name : String) : String :=
  if ∃ v ∈ db.services, v.projectId = projectId ∧ v.name = name then name else cutText 255 name

/-- A document that was not stored yet is stored as `sbom`. -/
structure StoredDocument (env : Env) (projectId : Uuid) (raw : Json) (serviceName : Option String)
    (sbom : SBOM) (db db' : Database) : Prop extends StoredRows sbom db db' where
  unknown : db.sboms.find? (fun s => s.sha256 == env.sha256 raw) = none
  sha256 : sbom.sha256 = env.sha256 raw
  rawSbom : sbom.rawSbom = raw
  service : serviceOf db' sbom =
    (documentService raw serviceName).map fun name => (projectId, storedName db projectId name)
  entries : ∃ r, parseDocument raw = .ok r ∧
    r.2.mapM (bindDependency env sbom.id) = .ok (dependencyRows db' sbom.id)

theorem serviceOf_eq {s : SBOM} {v : Service} (hv : v ∈ db.services)
    (hs : s.serviceId = some v.id) : serviceOf db s = some (v.projectId, v.name) := by
  have hfind : db.services.find? (fun u => u.id == v.id) = some v :=
    Table.find?_eq_some hv (beq_self_eq_true v.id) fun u hu => .inl (beq_iff_eq.1 hu)
  rw [serviceOf, hs, Option.bind_some, hfind]
  rfl

theorem getOrCreateService_named {name : String} {newId : Uuid} {v : Service}
    (h : getOrCreateService env db projectId name newId = .ok (db', v)) :
    v.projectId = projectId ∧ v.name = storedName db projectId name := by
  unfold getOrCreateService at h
  split_ifs at h
  split at h
  · rename_i found hfind
    obtain ⟨-, rfl⟩ := Prod.mk.inj (Except.ok.inj h)
    obtain ⟨hmem, hmatch⟩ := Table.mem_of_find? hfind
    rw [Bool.and_eq_true, beq_iff_eq, beq_iff_eq] at hmatch
    rw [storedName, if_pos ⟨_, hmem, hmatch⟩]
    exact hmatch
  · rename_i hnone
    have hfree : ¬ ∃ u ∈ db.services, u.projectId = projectId ∧ u.name = name := by
      rintro ⟨u, hu, hmatch⟩
      have := Table.find?_eq_none.1 hnone u hu
      simp [hmatch.1, hmatch.2] at this
    obtain ⟨stored, hstored, h⟩ := bind_eq_ok.1 h
    obtain ⟨_, -, h⟩ := bind_eq_ok.1 h
    obtain ⟨-, rfl⟩ := Prod.mk.inj (Except.ok.inj h)
    rw [storedName, if_neg hfree]
    exact ⟨rfl, (env.varchar_eq_ok.1 hstored).2.symm⟩

/-- The service of a new SBOM has the name asked for, as it is stored. -/
theorem chooseService_named {name : Option String} {newId : Uuid} {service : Option Service}
    (h : chooseService env db projectId name newId = .ok (db', service)) :
    (service.map fun v => (v.projectId, v.name)) =
      name.map fun n => (projectId, storedName db projectId n) := by
  cases name with
  | none =>
    obtain ⟨-, rfl⟩ := Prod.mk.inj (Except.ok.inj h)
    rfl
  | some name =>
    simp only [chooseService, bind_eq_ok, Prod.exists] at h
    obtain ⟨db₁, v, hget, h⟩ := h
    obtain ⟨-, rfl⟩ := Prod.mk.inj (Except.ok.inj h)
    obtain ⟨hproject, hname⟩ := getOrCreateService_named hget
    rw [Option.map_some, Option.map_some, hproject, hname]

theorem chooseService_fits {name : Option String} {newId : Uuid} {service : Option Service}
    (h : chooseService env db projectId name newId = .ok (db', service)) :
    ∀ v ∈ db'.services, v ∈ db.services ∨ fitsVarchar 255 v.name = true := by
  cases name with
  | none =>
    obtain ⟨rfl, -⟩ := Prod.mk.inj (Except.ok.inj h)
    exact fun v hv => .inl hv
  | some name =>
    simp only [chooseService, bind_eq_ok, Prod.exists] at h
    obtain ⟨db₁, service, hget, h⟩ := h
    obtain ⟨rfl, -⟩ := Prod.mk.inj (Except.ok.inj h)
    unfold getOrCreateService at hget
    split_ifs at hget
    split at hget
    · obtain ⟨rfl, -⟩ := Prod.mk.inj (Except.ok.inj hget)
      exact fun v hv => .inl hv
    · obtain ⟨stored, -, hget⟩ := bind_eq_ok.1 hget
      obtain ⟨db₂, hins, hget⟩ := bind_eq_ok.1 hget
      obtain ⟨rfl, -⟩ := Prod.mk.inj (Except.ok.inj hget)
      obtain ⟨t, ht, htab⟩ := Database.insertService_eq_ok hins
      intro v hv
      rw [htab] at hv
      refine ((Table.mem_insert? ht).1 hv).imp_right fun heq => ?_
      rw [heq]
      exact (Database.insertService_isOk.1 ⟨_, hins⟩).1

/-- The dependencies of a new SBOM: no row referred to it before. -/
theorem dependencyRows_stored {sbom : SBOM} {rows : List Dependency}
    (hins : db.sboms.insert? sbom = some db'.sboms)
    (hrows : db'.dependencies.rows = db.dependencies.rows ++ rows)
    (hall : ∀ d ∈ rows, d.sbomId = sbom.id) : dependencyRows db' sbom.id = rows := by
  have hnew := (Table.insert?_eq_some hins).1
  have hold : db.dependencies.rows.filter (fun d => d.sbomId == sbom.id) = [] := by
    refine List.filter_eq_nil_iff.2 fun d hd heq => ?_
    obtain ⟨s, hs, hid⟩ := db.dependenciesSbom d hd
    exact hnew s hs (.inl (hid.trans (beq_iff_eq.1 heq)))
  have hself : rows.filter (fun d => d.sbomId == sbom.id) = rows :=
    List.filter_eq_self.2 fun d hd => beq_iff_eq.2 (hall d hd)
  rw [dependencyRows, hrows, List.filter_append, hold, hself, List.nil_append]

/-- What `store_sbom` found or stored. -/
theorem storeSbom_document {raw : Json} {version serviceName : Option String} {inp : StoreInput}
    {sbom : SBOM} (h : storeSbom env db projectId raw version serviceName inp = .ok (db', sbom)) :
    (db' = db ∧ db.sboms.find? (fun s => s.sha256 == env.sha256 raw) = some sbom) ∨
      StoredDocument env projectId raw serviceName sbom db db' := by
  simp only [storeSbom, bind_eq_ok, Prod.exists] at h
  obtain ⟨fmt, ds, hparse, sha, hsha, version, -, h⟩ := h
  obtain ⟨-, rfl⟩ := env.computeSha256_eq_ok.1 hsha
  split at h
  · rename_i existing hfind
    obtain ⟨rfl, rfl⟩ := Prod.mk.inj (Except.ok.inj h)
    exact .inl ⟨rfl, hfind⟩
  · rename_i hnone
    simp only [bind_eq_ok, Prod.exists] at h
    obtain ⟨autoService, hauto, db₁, service, hchoose, _, -, createdAt, -, _, -, _, hcolumn, db₂,
      hins, db₃, hdeps, h⟩ := h
    obtain ⟨-, rfl⟩ := env.jsonParam_eq_ok.1 hcolumn
    obtain ⟨rfl, hsbom⟩ := Prod.mk.inj (Except.ok.inj h)
    obtain ⟨-, -, rfl⟩ := extractComponentText_eq_ok.1 hauto
    obtain ⟨hframe₁, -, hmem⟩ := chooseService_eq_ok hchoose
    obtain ⟨hinsert, hframe₂⟩ := insertSbom_addDependencies hins hdeps
    have hservices : db₃.services = db₁.services := by rw [hframe₂]
    have hbefore : db₂.dependencies = db.dependencies := by
      obtain ⟨_, -, htab⟩ := Database.insertSbom_eq_ok hins
      rw [htab, hframe₁]
    obtain ⟨rows, hmap, hrows, hall⟩ := addDependencies_rows hdeps
    rw [hbefore] at hrows
    replace hinsert : db.sboms.insert? sbom = some db₃.sboms := by
      rw [← hinsert, hframe₁, hsbom]
    subst hsbom
    have hself := dependencyRows_stored hinsert hrows fun d hd => (hall d hd).1
    refine .inr ⟨⟨hinsert, (Database.insertSbom_isOk.1 ⟨db₂, hins⟩).1, ?_, rows, hrows, ?_, hall⟩,
      hnone, rfl, rfl, ?_, (fmt, ds), hparse, ?_⟩
    · rw [hservices]
      exact chooseService_fits hchoose
    · rw [length_mapM hmap]
    · have hnamed := chooseService_named hchoose
      cases service with
      | none => exact hnamed
      | some v =>
        rw [← hservices] at hmem
        exact (serviceOf_eq (hmem v rfl).1 rfl).trans hnamed
    · rw [hself]
      exact hmap

/-- What `store_sbom` added. -/
theorem storeSbom_rows {raw : Json} {version serviceName : Option String} {inp : StoreInput}
    {sbom : SBOM} (h : storeSbom env db projectId raw version serviceName inp = .ok (db', sbom)) :
    (db' = db ∧ sbom ∈ db.sboms) ∨ StoredRows sbom db db' :=
  (storeSbom_document h).imp (fun hfound => ⟨hfound.1, (Table.mem_of_find? hfound.2).1⟩)
    (·.toStoredRows)

/-- A stored document keeps the rows in order: its identifier is new, so that no dependency refers
to it yet. -/
theorem StoredRows.rowsFit {sbom : SBOM} (h : StoredRows sbom db db') (hrows : RowsFit db) :
    RowsFit db' := by
  obtain ⟨rows, hdeps, hcount, hall⟩ := h.dependencies
  have hnew := (Table.insert?_eq_some h.insert).1
  refine ⟨Table.forall_mem_insert? h.insert hrows.sboms h.fits, fun d hd => ?_, fun v hv => ?_,
    Table.forall_mem_insert? h.insert (fun s hs => ?_) ?_⟩
  · have hd : d ∈ db'.dependencies.rows := hd
    rw [hdeps, List.mem_append] at hd
    exact hd.elim (hrows.dependencies d) fun hd => (hall d hd).2
  · exact (h.services v hv).elim (hrows.services v) id
  · have hother : rows.filter (fun d => d.sbomId == s.id) = [] := by
      refine List.filter_eq_nil_iff.2 fun d hd heq => ?_
      exact hnew s hs (.inl ((beq_iff_eq.1 heq).symm.trans (hall d hd).1))
    rw [hrows.counted s hs, dependencyRows, dependencyRows, hdeps, List.filter_append, hother,
      List.append_nil]
  · rw [hcount, dependencyRows_stored h.insert hdeps fun d hd => (hall d hd).1]

end ArgusSbomGuard
