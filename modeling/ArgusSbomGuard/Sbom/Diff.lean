import ArgusSbomGuard.Relational.Query
import ArgusSbomGuard.System.World

/-!
# The difference of two SBOMs

`diff_sboms` of `api/v1/sboms.py`.  What was added and removed are differences of sets, but the
changes of versions are read from dictionaries, which keep one version of each name: the last one
in the order in which Python goes through the set.  So a package with several versions may be
reported with a version that did not change.  `diffSboms_coherent_iff` says for which pairs of SBOMs
the diff is coherent in all orders.

## Main definitions

* `diffSboms` : `diff_sboms`, for given orders of its sets.
* `Coherent` : what a diff has to say.
* `VersionsApart` : the condition on the versions of a name.
-/

namespace ArgusSbomGuard

/-- A name with a version: an element of the sets, and a `DiffItemResponse`. -/
structure Package where
  name : String
  version : String
  deriving DecidableEq

/-- `VersionChangeResponse`. -/
structure VersionChange where
  name : String
  fromVersion : String
  toVersion : String
  deriving DecidableEq

/-- `SBOMDiffResponse`. -/
structure SBOMDiff where
  added : List Package
  removed : List Package
  changed : List VersionChange

/-- The orders in which the sets of `diff_sboms` are gone through. -/
structure DiffOrders where
  depsA : Arrangement Package
  depsB : Arrangement Package
  added : Arrangement Package
  removed : Arrangement Package
  common : Arrangement String

/-- `dict(deps)[name]`: of several packages with one name the last one counts. -/
def dictGet (deps : List Package) (name : String) : Option String :=
  (deps.reverse.find? fun p => p.name == name).map (·.version)

/-- The set of the dependencies of an SBOM. -/
def dependencySet (db : Database) (sbomId : Uuid) : List Package :=
  ((db.dependencies.rows.filter fun d => d.sbomId == sbomId).map fun d =>
    ⟨d.name, d.version⟩).dedup

/-- `diff_sboms`, on the two sets. -/
def diffDependencies (orders : DiffOrders) (depsA depsB : List Package) : SBOMDiff :=
  let namesA := dictGet (orders.depsA.order depsA)
  let namesB := dictGet (orders.depsB.order depsB)
  let common := orders.common.order <|
    (depsA.map (·.name)).dedup.filter fun name => (depsB.map (·.name)).contains name
  { added := orders.added.order (depsB.filter fun p => !depsA.contains p)
    removed := orders.removed.order (depsA.filter fun p => !depsB.contains p)
    changed := common.filterMap fun name =>
      -- a common name has a version on either side
      match namesA name, namesB name with
      | some v, some w => if v ≠ w then some ⟨name, v, w⟩ else none
      | _, _ => none }

/-- `diff_sboms`. -/
def diffSboms (db : Database) (sbomId otherId : Uuid) (orders : DiffOrders) : SBOMDiff :=
  diffDependencies orders (dependencySet db sbomId) (dependencySet db otherId)

/-- A diff says what changed between two sets, and nothing else. -/
structure Coherent (depsA depsB : List Package) (r : SBOMDiff) : Prop where
  old : ∀ c ∈ r.changed, ⟨c.name, c.fromVersion⟩ ∈ depsA ∧ ⟨c.name, c.fromVersion⟩ ∉ depsB
  new : ∀ c ∈ r.changed, ⟨c.name, c.toVersion⟩ ∈ depsB ∧ ⟨c.name, c.toVersion⟩ ∉ depsA
  removed : ∀ p ∈ depsA, p ∉ depsB →
    p ∈ r.removed ∨ ∃ c ∈ r.changed, c.name = p.name ∧ c.fromVersion = p.version
  added : ∀ p ∈ depsB, p ∉ depsA →
    p ∈ r.added ∨ ∃ c ∈ r.changed, c.name = p.name ∧ c.toVersion = p.version
  onlyRemoved : ∀ p ∈ r.removed, p ∈ depsA ∧ p ∉ depsB
  onlyAdded : ∀ p ∈ r.added, p ∈ depsB ∧ p ∉ depsA

/-- The two sets have no version of the name in common, or both have one and the same. -/
def VersionsApart (depsA depsB : List Package) (name : String) : Prop :=
  (∀ v, ⟨name, v⟩ ∈ depsA → ⟨name, v⟩ ∉ depsB) ∨
    ∃ v, ∀ w, (⟨name, w⟩ ∈ depsA ↔ w = v) ∧ (⟨name, w⟩ ∈ depsB ↔ w = v)

variable {deps depsA depsB : List Package} {orders : DiffOrders} {name v w : String}

/-! ### Dictionaries -/

theorem mem_of_dictGet (h : dictGet deps name = some v) : ⟨name, v⟩ ∈ deps := by
  obtain ⟨p, hp, rfl⟩ := Option.map_eq_some_iff.1 h
  have hname := List.find?_some hp
  obtain rfl : p.name = name := beq_iff_eq.1 hname
  exact List.mem_reverse.1 (List.mem_of_find?_eq_some hp)

theorem dictGet_append_singleton : dictGet (deps ++ [⟨name, v⟩]) name = some v := by
  simp [dictGet]

/-- The order in which an element comes last. -/
def Arrangement.last {α : Type} [DecidableEq α] (a : α) : Arrangement α where
  order xs := if a ∈ xs then xs.erase a ++ [a] else xs
  perm xs := by
    split_ifs with ha
    · exact (List.perm_append_singleton a _).trans (List.perm_cons_erase ha).symm
    · exact .refl xs

theorem dictGet_last (h : ⟨name, v⟩ ∈ deps) :
    dictGet ((Arrangement.last ⟨name, v⟩).order deps) name = some v := by
  simp only [Arrangement.last, if_pos h, dictGet_append_singleton]

/-! ### What is reported -/

theorem mem_added {p : Package} :
    p ∈ (diffDependencies orders depsA depsB).added ↔ p ∈ depsB ∧ p ∉ depsA := by
  rw [diffDependencies, (orders.added.perm _).mem_iff, List.mem_filter, Bool.not_eq_true',
    ← Bool.not_eq_true, List.contains_iff_mem]

theorem mem_removed {p : Package} :
    p ∈ (diffDependencies orders depsA depsB).removed ↔ p ∈ depsA ∧ p ∉ depsB := by
  rw [diffDependencies, (orders.removed.perm _).mem_iff, List.mem_filter, Bool.not_eq_true',
    ← Bool.not_eq_true, List.contains_iff_mem]

theorem mem_changed {c : VersionChange} :
    c ∈ (diffDependencies orders depsA depsB).changed ↔
      dictGet (orders.depsA.order depsA) c.name = some c.fromVersion ∧
        dictGet (orders.depsB.order depsB) c.name = some c.toVersion ∧
          c.fromVersion ≠ c.toVersion := by
  rw [diffDependencies, List.mem_filterMap]
  constructor
  · rintro ⟨name, -, h⟩
    split at h
    · rename_i v w hv hw
      split_ifs at h with hne
      obtain rfl := Option.some.inj h
      exact ⟨hv, hw, hne⟩
    · cases h
  · rintro ⟨hv, hw, hne⟩
    refine ⟨c.name, ?_, by rw [hv, hw]; exact if_pos hne⟩
    have hA := (orders.depsA.perm _).mem_iff.1 (mem_of_dictGet hv)
    have hB := (orders.depsB.perm _).mem_iff.1 (mem_of_dictGet hw)
    rw [(orders.common.perm _).mem_iff, List.mem_filter, List.mem_dedup, List.contains_iff_mem]
    exact ⟨List.mem_map.2 ⟨_, hA, rfl⟩, List.mem_map.2 ⟨_, hB, rfl⟩⟩

/-- Only the changes can be wrong. -/
theorem coherent_of_changed
    (h : ∀ c ∈ (diffDependencies orders depsA depsB).changed,
      ⟨c.name, c.fromVersion⟩ ∉ depsB ∧ ⟨c.name, c.toVersion⟩ ∉ depsA) :
    Coherent depsA depsB (diffDependencies orders depsA depsB) where
  old c hc := by
    refine ⟨?_, (h c hc).1⟩
    exact (orders.depsA.perm _).mem_iff.1 (mem_of_dictGet (mem_changed.1 hc).1)
  new c hc := by
    refine ⟨?_, (h c hc).2⟩
    exact (orders.depsB.perm _).mem_iff.1 (mem_of_dictGet (mem_changed.1 hc).2.1)
  removed p hp hno := .inl (mem_removed.2 ⟨hp, hno⟩)
  added p hp hno := .inl (mem_added.2 ⟨hp, hno⟩)
  onlyRemoved p hp := mem_removed.1 hp
  onlyAdded p hp := mem_added.1 hp

/-! ### The condition -/

/-- Two different versions on the two sides are both unshared. -/
theorem versionsApart_iff : VersionsApart depsA depsB name ↔
    ∀ v w, ⟨name, v⟩ ∈ depsA → ⟨name, w⟩ ∈ depsB → v ≠ w →
      ⟨name, v⟩ ∉ depsB ∧ ⟨name, w⟩ ∉ depsA := by
  constructor
  · rintro (hdisjoint | ⟨u, hone⟩) v w hv hw hne
    · exact ⟨hdisjoint v hv, fun hwA => hdisjoint w hwA hw⟩
    · exact absurd (((hone v).1.1 hv).trans ((hone w).2.1 hw).symm) hne
  · intro h
    by_cases hshared : ∃ u, ⟨name, u⟩ ∈ depsA ∧ ⟨name, u⟩ ∈ depsB
    · obtain ⟨u, hA, hB⟩ := hshared
      -- a second version on either side would be reported beside the shared one
      refine .inr ⟨u, fun w => ⟨⟨fun hw => ?_, fun hw => hw ▸ hA⟩,
        ⟨fun hw => ?_, fun hw => hw ▸ hB⟩⟩⟩
      · by_contra hne
        exact (h w u hw hB hne).2 hA
      · by_contra hne
        exact (h u w hA hw (Ne.symm hne)).1 hB
    · exact .inl fun v hv hvB => hshared ⟨v, hv, hvB⟩

/-- The orders in which a version comes last on either side. -/
def DiffOrders.ending (p q : Package) : DiffOrders where
  depsA := .last p
  depsB := .last q
  added := storedOrder Package
  removed := storedOrder Package
  common := storedOrder String

theorem diffDependencies_coherent_iff :
    (∀ orders, Coherent depsA depsB (diffDependencies orders depsA depsB)) ↔
      ∀ name, VersionsApart depsA depsB name := by
  constructor
  · intro h name
    refine versionsApart_iff.2 fun v w hv hw hne => ?_
    have hc : (⟨name, v, w⟩ : VersionChange) ∈
        (diffDependencies (.ending ⟨name, v⟩ ⟨name, w⟩) depsA depsB).changed :=
      mem_changed.2 ⟨dictGet_last hv, dictGet_last hw, hne⟩
    exact ⟨((h _).old _ hc).2, ((h _).new _ hc).2⟩
  · intro h orders
    refine coherent_of_changed fun c hc => ?_
    obtain ⟨hv, hw, hne⟩ := mem_changed.1 hc
    exact versionsApart_iff.1 (h c.name) c.fromVersion c.toVersion
      ((orders.depsA.perm _).mem_iff.1 (mem_of_dictGet hv))
      ((orders.depsB.perm _).mem_iff.1 (mem_of_dictGet hw)) hne

/-- **When the diff is coherent.**  In all orders of the sets exactly when no name has several
versions of which one is shared. -/
theorem diffSboms_coherent_iff (db : Database) (sbomId otherId : Uuid) :
    (∀ orders, Coherent (dependencySet db sbomId) (dependencySet db otherId)
      (diffSboms db sbomId otherId orders)) ↔
    ∀ name, VersionsApart (dependencySet db sbomId) (dependencySet db otherId) name :=
  diffDependencies_coherent_iff

/-! ### Examples -/

/-- The components of a document, given by the numbers of their names and versions. -/
def demoComponents : List UInt8 → List Json
  | n :: v :: rest =>
    .obj [("name", .str (demoName 'n' n.toNat)), ("version", .str (demoName 'v' v.toNat))] ::
      demoComponents rest
  | _ => []

/-- An environment in which the bytes after the serial number of a document are its components. -/
def demoLibraries : Env :=
  { demoEnv with loads := fun
      | serial :: components => .ok (.obj [("bomFormat", .str "CycloneDX"),
          ("serialNumber", .str (demoName 's' serial.toNat)),
          ("components", .arr (demoComponents components))])
      | [] => .error .jsonDecodeError }

/-- Upload a document with the given serial number and components as the SBOM `id`. -/
def demoLibrary (document : List UInt8) (id : Uuid) : Action :=
  .uploadSbom ⟨none, some "project", none, none, document⟩ ⟨0, id, 100⟩

/-- Two SBOMs: the first has two versions of a package, the second only one of them. -/
def demoUpgrade : List Action :=
  [demoProject, demoLibrary [1, 1, 1, 1, 2] 10, demoLibrary [2, 1, 1] 11]

theorem demoUpgrade_isSome :
    ((system demoLibraries).run (system demoLibraries).init demoUpgrade).isSome := by
  decide +kernel

/-- The two SBOMs, stored. -/
def demoUpgraded : World := (system demoLibraries).after demoUpgrade demoUpgrade_isSome

/-- **A version that both SBOMs have is reported as the new one.** -/
theorem unchanged_version_reported : (system demoLibraries).Reachable demoUpgraded ∧
    ¬ ∀ orders, Coherent (dependencySet demoUpgraded.db 10) (dependencySet demoUpgraded.db 11)
      (diffSboms demoUpgraded.db 10 11 orders) := by
  refine ⟨Machine.reachable_after, fun h => ?_⟩
  -- the dictionary of the first set keeps the version that was removed
  have hnew := (h (.ending ⟨"n", "vv"⟩ ⟨"n", "v"⟩)).new ⟨"n", "vv", "v"⟩ (by decide +kernel)
  exact hnew.2 (by decide +kernel)

end ArgusSbomGuard
