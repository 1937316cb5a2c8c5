import ArgusSbomGuard.Listing.Purl
import ArgusSbomGuard.Python.Dict
import ArgusSbomGuard.Relational.Paging
import ArgusSbomGuard.Risk.Actionable
import ArgusSbomGuard.System.World
import Mathlib.Data.String.Basic

/-!
# The scopes of the active list

`_active_maps` of `api/pages/vulnerabilities.py` collects for each vulnerability of the list the
names of its projects and services, the scopes in which it can be accepted and its packages.  The
scopes are kept in a dictionary by their service, so that of two projects without a service only one
is kept: the scopes are those of the actionable links exactly when the service, or its absence,
tells the project (`active_scopes_exact_iff`).

## Main definitions

* `AcceptScope` : a scope that can be chosen.
* `activeMaps` : the four maps.
* `ScopesExact` : the scopes are those of the actionable links.
-/

namespace ArgusSbomGuard

/-- A scope in which a vulnerability can be accepted, as the templates get it. -/
structure AcceptScope where
  projectId : String
  projectName : String
  serviceId : String
  serviceName : String
  deriving DecidableEq

/-- The project and the service of the scope, which the browser sends. -/
def AcceptScope.pair (s : AcceptScope) : String × String := (s.projectId, s.serviceId)

/-- A row of the query `scope_rows`. -/
structure ScopeRow where
  vulnerabilityId : Uuid
  projectId : Uuid
  projectName : String
  serviceId : Option Uuid
  serviceName : Option String

/-- A row of the query `dep_rows`. -/
structure DepRow where
  vulnerabilityId : Uuid
  name : Option String
  version : Option String
  purl : String

/-- The four maps, by vulnerability. -/
structure ActiveMaps where
  projectMap : List (Uuid × List String)
  serviceMap : List (Uuid × List String)
  scopeMap : List (Uuid × List AcceptScope)
  depMap : List (Uuid × List String)

variable (db : Database) (env : Env)

/-- `str(svc_id) if svc_id else ""`. -/
def serviceText : Option Uuid → String
  | some i => env.strUuid i
  | none => ""

/-- The value that is stored in the bucket for a row. -/
def ScopeRow.scope (row : ScopeRow) : AcceptScope :=
  ⟨env.strUuid row.projectId, row.projectName, serviceText env row.serviceId,
    row.serviceName.getD ""⟩

/-- The actionable links of the vulnerabilities with their SBOMs. -/
def activeLinks (vulnIds : List Uuid) : List (SBOMVulnerability × SBOM) :=
  joinLinks db fun l s => actionable db l s && vulnIds.contains l.vulnerabilityId

/-- `scope_rows`. -/
def scopeRows (vulnIds : List Uuid) : List ScopeRow :=
  (activeLinks db vulnIds).flatMap fun ls =>
    (db.projects.rows.filter fun p => p.id == ls.2.projectId).map fun p =>
      ⟨ls.1.vulnerabilityId, ls.2.projectId, p.name, ls.2.serviceId,
        (ls.2.serviceId.bind fun i => db.services.find? fun v => v.id == i).map (·.name)⟩

/-- The names and versions of the dependencies that are outer-joined to a link; a package that is
not among them has no name. -/
def joinedDependencies (l : SBOMVulnerability) : List (Option String × Option String) :=
  match db.dependencies.rows.filter fun d =>
    d.sbomId == l.sbomId && d.purl == some l.dependencyPurl with
  | [] => [(none, none)]
  | ds => ds.map fun d => (some d.name, some d.version)

/-- `dep_rows`. -/
def depRows (vulnIds : List Uuid) : List DepRow :=
  (activeLinks db vulnIds).flatMap fun ls => (joinedDependencies db ls.1).map fun nv =>
    ⟨ls.1.vulnerabilityId, nv.1, nv.2, ls.1.dependencyPurl⟩

/-- `setdefault(key, set()).add(name)`. -/
def addToSet (name : String) (set : Option (List String)) : List String :=
  (set.getD []).insert name

/-- `bucket[key] = scope`, where the key is the service of the scope. -/
def addToBucket (scope : AcceptScope) (bucket : List (String × AcceptScope)) :
    List (String × AcceptScope) :=
  updateKey scope.serviceId (fun _ => scope) bucket

/-- `sorted(..., key=lambda s: (s["project_name"], s["service_name"]))`. -/
def sortScopes : List AcceptScope → List AcceptScope :=
  (TieOrder.ofArrangement (fun s : AcceptScope => toLex (s.projectName, s.serviceName))
    (storedOrder AcceptScope)).order

/-- `_active_maps`, for the identifiers of the vulnerabilities. -/
def activeMaps (scopeOrder : Arrangement ScopeRow) (depOrder : Arrangement DepRow)
    (vulnIds : List Uuid) : ActiveMaps :=
  if vulnIds = [] then ⟨[], [], [], []⟩
  else
    let rows := scopeOrder.order (scopeRows db vulnIds)
    let deps := depOrder.order (depRows db vulnIds)
    { projectMap := groupInto addToSet (rows.map fun r => (r.vulnerabilityId, r.projectName))
      serviceMap := groupInto addToSet (rows.filterMap fun r =>
        (r.serviceName.filter (· ≠ "")).map fun name => (r.vulnerabilityId, name))
      scopeMap := (groupInto (fun r bucket => addToBucket (r.scope env) (bucket.getD []))
        (rows.map fun r => (r.vulnerabilityId, r))).map fun e =>
          (e.1, sortScopes (e.2.map Prod.snd))
      depMap := (groupInto addToSet (deps.map fun r =>
        (r.vulnerabilityId, depName r.name r.version (some r.purl)))).map fun e =>
          (e.1, e.2.insertionSort fun a b => a ≤ b) }

/-- `scope_map.get(vuln.id, [])`. -/
def ActiveMaps.scopesOf (maps : ActiveMaps) (v : Uuid) : List AcceptScope :=
  (maps.scopeMap.lookup v).getD []

/-- The scopes are the projects and services, or none, of the actionable links of the vulnerability,
each once. -/
structure ScopesExact (v : Uuid) (scopes : List AcceptScope) : Prop where
  nodup : (scopes.map AcceptScope.pair).Nodup
  mem : ∀ pair, pair ∈ scopes.map AcceptScope.pair ↔
    ∃ p scope, OpenScope db p v scope ∧ pair = (env.strUuid p, serviceText env scope)

variable {db env} {scopeOrder : Arrangement ScopeRow} {depOrder : Arrangement DepRow}
  {vulnIds : List Uuid} {v p : Uuid} {scope : Option Uuid}

/-! ### The rows -/

theorem strUuid_inj {i j : Uuid} : env.strUuid i = env.strUuid j ↔ i = j := by
  constructor
  · intro h
    have hi := env.parseUuid_strUuid i
    rw [h, env.parseUuid_strUuid] at hi
    exact (Option.some.inj hi).symm
  · exact congrArg _

/-- The text of a service tells it from the others and from none. -/
theorem serviceText_inj (hstr : ∀ i, env.strUuid i ≠ "") {a b : Option Uuid} :
    serviceText env a = serviceText env b ↔ a = b := by
  cases a with
  | none =>
    cases b with
    | none => exact iff_of_true rfl rfl
    | some j => exact iff_of_false (fun h => hstr j h.symm) nofun
  | some i =>
    cases b with
    | none => exact iff_of_false (hstr i) nofun
    | some j => exact strUuid_inj.trans Option.some_inj.symm

/-- The rows of a vulnerability in the list are about the scopes in which it is open. -/
theorem exists_scopeRow (hv : v ∈ vulnIds) : (∃ row ∈ scopeRows db vulnIds,
    row.vulnerabilityId = v ∧ row.projectId = p ∧ row.serviceId = scope) ↔
      OpenScope db p v scope := by
  simp only [scopeRows, activeLinks, List.mem_flatMap, List.mem_map, List.mem_filter, Prod.exists,
    mem_joinLinks, Bool.and_eq_true, List.contains_iff_mem, beq_iff_eq, Table.mem_rows]
  constructor
  · rintro ⟨_, ⟨l, s, ⟨hl, hs, hid, hact, -⟩, q, -, rfl⟩, hlv, hsp, hsc⟩
    exact ⟨l, hl, s, hs, hid, hact, hlv, hsp, hsc⟩
  · rintro ⟨l, hl, s, hs, hid, hact, rfl, rfl, rfl⟩
    obtain ⟨q, hq, hqid⟩ := db.sbomsProject s hs
    exact ⟨_, ⟨l, s, ⟨hl, hs, hid, hact, hv⟩, q, ⟨hq, hqid⟩, rfl⟩, rfl, rfl, rfl⟩

/-! ### The buckets -/

theorem lookup_map_snd {κ α β : Type} [BEq κ] {f : α → β} {k : κ} (d : List (κ × α)) :
    (d.map fun e => (e.1, f e.2)).lookup k = (d.lookup k).map f := by
  induction d with
  | nil => rfl
  | cons e d ih =>
    rw [List.map_cons, List.lookup_cons, List.lookup_cons, ih]
    cases k == e.1 <;> rfl

theorem sortScopes_perm (scopes : List AcceptScope) : (sortScopes scopes).Perm scopes :=
  (TieOrder.ofArrangement _ (storedOrder AcceptScope)).perm scopes

/-- The bucket of a vulnerability after its rows. -/
theorem bucketBy_scopes (rows : List ScopeRow) :
    bucketBy AcceptScope.serviceId (rows.map (·.scope env)) =
      (rows.foldl (fun bucket r => addToBucket (r.scope env) bucket) []).map Prod.snd := by
  rw [bucketBy, groupInto, List.map_map, List.foldl_map]
  rfl

/-- The scopes of a vulnerability are the last rows of the keys in its bucket. -/
theorem scopesOf_perm (hv : v ∈ vulnIds) :
    ((activeMaps db env scopeOrder depOrder vulnIds).scopesOf v).Perm
      (bucketBy AcceptScope.serviceId ((rowsOf v ((scopeOrder.order (scopeRows db vulnIds)).map
        fun r => (r.vulnerabilityId, r))).map (·.scope env))) := by
  have hmap : (activeMaps db env scopeOrder depOrder vulnIds).scopeMap =
      (groupInto (fun (r : ScopeRow) bucket => addToBucket (r.scope env) (bucket.getD []))
        ((scopeOrder.order (scopeRows db vulnIds)).map fun r => (r.vulnerabilityId, r))).map
          fun e => (e.1, sortScopes (e.2.map Prod.snd)) := by
    rw [activeMaps, if_neg (List.ne_nil_of_mem hv)]
  rw [ActiveMaps.scopesOf, hmap,
    lookup_map_snd (f := fun bucket : List (String × AcceptScope) =>
      sortScopes (bucket.map Prod.snd)), bucketBy_scopes, ← getD_lookup_groupInto]
  cases (groupInto (fun (r : ScopeRow) bucket => addToBucket (r.scope env) (bucket.getD []))
    ((scopeOrder.order (scopeRows db vulnIds)).map fun r => (r.vulnerabilityId, r))).lookup v with
  | none => exact .refl _
  | some bucket => exact sortScopes_perm _

/-- What goes through the bucket of a vulnerability. -/
theorem exists_rowsOf_pair (hv : v ∈ vulnIds) (pair : String × String) :
    (∃ b ∈ (rowsOf v ((scopeOrder.order (scopeRows db vulnIds)).map fun r =>
        (r.vulnerabilityId, r))).map (·.scope env), b.pair = pair) ↔
      ∃ p scope, OpenScope db p v scope ∧ pair = (env.strUuid p, serviceText env scope) := by
  simp only [List.mem_map, mem_rowsOf, Prod.mk.injEq, (scopeOrder.perm _).mem_iff]
  constructor
  · rintro ⟨_, ⟨row, ⟨row', hrow, rfl, rfl⟩, rfl⟩, rfl⟩
    exact ⟨_, _, (exists_scopeRow hv).1 ⟨row', hrow, rfl, rfl, rfl⟩, rfl⟩
  · rintro ⟨p, scope, hopen, rfl⟩
    obtain ⟨row, hrow, hrv, rfl, rfl⟩ := (exists_scopeRow hv).2 hopen
    exact ⟨row.scope env, ⟨row, ⟨row, hrow, hrv, rfl⟩, rfl⟩, rfl⟩

section Bucket

variable {bs scopes : List AcceptScope} (hpair : ∀ pair, (∃ b ∈ bs, b.pair = pair) ↔
  ∃ p scope, OpenScope db p v scope ∧ pair = (env.strUuid p, serviceText env scope))
include hpair

/-- The key separates what goes through the bucket when the service tells the project. -/
theorem service_separates_iff (hstr : ∀ i, env.strUuid i ≠ "") :
    (∀ b ∈ bs, ∀ b' ∈ bs, b.serviceId = b'.serviceId → b.pair = b'.pair) ↔
      ∀ p p' scope, OpenScope db p v scope → OpenScope db p' v scope → p = p' := by
  constructor
  · intro h p p' scope hp hp'
    obtain ⟨b, hb, hbp⟩ := (hpair _).2 ⟨p, scope, hp, rfl⟩
    obtain ⟨b', hb', hbp'⟩ := (hpair _).2 ⟨p', scope, hp', rfl⟩
    have hservice : b.serviceId = b'.serviceId :=
      (congrArg Prod.snd hbp).trans (congrArg Prod.snd hbp').symm
    have hsame : (env.strUuid p, serviceText env scope) = (env.strUuid p', serviceText env scope) :=
      hbp.symm.trans ((h b hb b' hb' hservice).trans hbp')
    exact strUuid_inj.1 (congrArg Prod.fst hsame)
  · intro h b hb b' hb' hservice
    obtain ⟨p, scope, hp, hbp⟩ := (hpair _).1 ⟨b, hb, rfl⟩
    obtain ⟨p', scope', hp', hbp'⟩ := (hpair _).1 ⟨b', hb', rfl⟩
    obtain rfl : scope = scope' := (serviceText_inj hstr).1
      ((congrArg Prod.snd hbp).symm.trans (hservice.trans (congrArg Prod.snd hbp')))
    rw [hbp, hbp', h p p' scope hp hp']

/-- The values of the bucket are exact when none is lost; no two of them have the same service. -/
theorem scopesExact_iff (hperm : scopes.Perm (bucketBy AcceptScope.serviceId bs)) :
    ScopesExact db env v scopes ↔
      ∀ b ∈ bs, ∃ b' ∈ bucketBy AcceptScope.serviceId bs, b'.pair = b.pair := by
  constructor
  · intro hexact b hb
    obtain ⟨b', hb', heq⟩ := List.mem_map.1 ((hexact.mem b.pair).2 ((hpair _).1 ⟨b, hb, rfl⟩))
    exact ⟨b', hperm.mem_iff.1 hb', heq⟩
  · intro hkept
    constructor
    · refine (hperm.map AcceptScope.pair).nodup_iff.2 ?_
      have hkeys : ((bucketBy AcceptScope.serviceId bs).map AcceptScope.serviceId).Nodup :=
        nodup_bucketBy_keys
      rw [List.Nodup, List.pairwise_map] at hkeys ⊢
      exact hkeys.imp fun hne heq => hne (congrArg Prod.snd heq)
    · intro pair
      rw [← hpair, (hperm.map AcceptScope.pair).mem_iff, List.mem_map]
      constructor
      · rintro ⟨b, hb, rfl⟩
        exact ⟨b, mem_of_mem_bucketBy hb, rfl⟩
      · rintro ⟨b, hb, rfl⟩
        exact hkept b hb

end Bucket

/-- **The scopes of the active list.**  The list has the scopes of the actionable links of a
vulnerability, each once, exactly when no two of these links are in different projects and in the
same service, or both in none. -/
theorem active_scopes_exact_iff (hstr : ∀ i, env.strUuid i ≠ "") (scopeOrder : Arrangement ScopeRow)
    (depOrder : Arrangement DepRow) (hv : v ∈ vulnIds) :
    ScopesExact db env v ((activeMaps db env scopeOrder depOrder vulnIds).scopesOf v) ↔
      ∀ p p' scope, OpenScope db p v scope → OpenScope db p' v scope → p = p' := by
  have hkey : ∀ b b' : AcceptScope, b.pair = b'.pair → b.serviceId = b'.serviceId :=
    fun _ _ h => congrArg Prod.snd h
  rw [scopesExact_iff (exists_rowsOf_pair hv) (scopesOf_perm hv), forall_mem_bucketBy_iff hkey,
    service_separates_iff (exists_rowsOf_pair hv) hstr]

/-! ### Two projects -/

/-- The demonstration with identifiers whose texts are not empty. -/
def textEnv : Env := { demoEnv with
  parseUuid s := if s = "" then none else some (s.length - 1)
  strUuid i := demoName 'u' (i + 1)
  parseUuid_strUuid i := by
    have hlen : (demoName 'u' (i + 1)).length = i + 1 := by simp [demoName]
    have hne : demoName 'u' (i + 1) ≠ "" := by
      intro h
      rw [h] at hlen
      cases hlen
    rw [if_neg hne, hlen]
    rfl }

theorem textEnv_strUuid (i : Uuid) : textEnv.strUuid i ≠ "" := by
  intro h
  have hparse := textEnv.parseUuid_strUuid i
  rw [h] at hparse
  cases hparse

/-- Upload the document with a serial number to a project, for a service if one is given. -/
def textUpload (slug : String) (service : Option String) (serial : UInt8) (id newService : Uuid)
    (now : DateTime) : Action :=
  .uploadSbom ⟨none, some slug, none, service, [0, serial]⟩ ⟨newService, id, now⟩

/-- A scan that reports the given pairs of package and CVE. -/
def textScan (id : Uuid) (pairs : List UInt8) (now : DateTime) : Action :=
  .scanSbom (textEnv.strUuid id) (demoInput pairs now)

/-- Two projects without services that have the same vulnerability. -/
def twoProjects : World := (system textEnv).after
  [demoProject, .createProject ⟨"library", by decide⟩ 2,
    textUpload "project" none 1 10 0 100, textScan 10 [1, 1] 110,
    textUpload "library" none 2 11 0 120, textScan 11 [1, 1] 130] (by decide +kernel)

/-- The scopes that the list has for the vulnerability. -/
def shadowedScopes : List AcceptScope :=
  (activeMaps twoProjects.db textEnv (storedOrder ScopeRow) (storedOrder DepRow) [1]).scopesOf 1

/-- There is a scope for one of them only. -/
theorem project_shadowed : (system textEnv).Reachable twoProjects ∧
    OpenScope twoProjects.db 1 1 none ∧ OpenScope twoProjects.db 2 1 none ∧
    shadowedScopes.map AcceptScope.pair = [(textEnv.strUuid 2, "")] ∧
    ¬ ScopesExact twoProjects.db textEnv 1 shadowedScopes := by
  have hopen : OpenScope twoProjects.db 1 1 none := by decide +kernel
  have hpairs : shadowedScopes.map AcceptScope.pair = [(textEnv.strUuid 2, "")] := by
    decide +kernel
  refine ⟨Machine.reachable_after, hopen, by decide +kernel, hpairs, fun hexact => ?_⟩
  have hmem := (hexact.mem _).2 ⟨1, none, hopen, rfl⟩
  rw [hpairs] at hmem
  exact absurd hmem (by decide +kernel)

/-- A project that has the vulnerability in a service and in an SBOM without one. -/
def twoScopes : World := (system textEnv).after
  [demoProject, textUpload "project" none 1 10 0 100, textScan 10 [1, 1] 110,
    textUpload "project" (some "api") 2 11 5 120, textScan 11 [1, 1] 130] (by decide +kernel)

theorem active_scopes_exact_demo : ScopesExact twoScopes.db textEnv 1
    ((activeMaps twoScopes.db textEnv (storedOrder ScopeRow) (storedOrder DepRow) [1]).scopesOf
      1) := by
  refine (active_scopes_exact_iff textEnv_strUuid _ _ List.mem_cons_self).2 ?_
  have hone : ∀ s ∈ twoScopes.db.sboms, s.projectId = 1 := by decide +kernel
  rintro p p' scope ⟨-, -, s, hs, -, -, -, hp, -⟩ ⟨-, -, s', hs', -, -, -, hp', -⟩
  rw [← hp, ← hp', hone s hs, hone s' hs']

end ArgusSbomGuard
