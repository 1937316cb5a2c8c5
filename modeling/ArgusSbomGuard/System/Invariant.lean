import ArgusSbomGuard.System.World

/-!
# Invariants of every run

Two facts hold in every reachable state whatever happens: a link is fixed exactly when it has a
time of being fixed (`LinkCoherent`), and the service of an SBOM belongs to its project
(`ServiceOwned`).  The other half of link coherence, unique keys and existing parents, is part of
the type `Database`, which every statement keeps.

The actions fall into four kinds (`Changed`): those that only remove rows (`Trimmed`), uploads,
scans and deletions; each kind has its preservation lemma.
-/

namespace ArgusSbomGuard

/-- A link is fixed exactly when `fixed_at` is set. -/
def LinkCoherent (db : Database) : Prop :=
  ∀ l ∈ db.links, l.status = .FIXED ↔ l.fixedAt.isSome

instance (db : Database) : Decidable (LinkCoherent db) :=
  inferInstanceAs (Decidable (∀ l ∈ db.links, _))

/-- What every reachable database satisfies besides its constraints. -/
structure SystemInvariant (db : Database) : Prop where
  owned : ServiceOwned db
  coherent : LinkCoherent db

/-- No SBOM, service or link was added or changed. -/
structure Trimmed (db db' : Database) : Prop where
  sboms : ∀ s ∈ db'.sboms, s ∈ db.sboms
  services : ∀ v ∈ db'.services, v ∈ db.services
  links : ∀ l ∈ db'.links, l ∈ db.links

variable {env : Env} {db db' : Database} {sbom : SBOM}

/-! ### Requests that remove rows -/

theorem Trimmed.invariant (h : Trimmed db db') (hinv : SystemInvariant db) :
    SystemInvariant db' where
  owned s hs v hv := hinv.owned s (h.sboms s hs) v (h.services v hv)
  coherent l hl := hinv.coherent l (h.links l hl)

/-- Requests about projects and acceptances leave the other tables alone. -/
theorem trimmed_of_unchanged {projects : Table Project} {riskAcceptances : Table RiskAcceptance}
    (h : db'.toTables = { db.toTables with projects, riskAcceptances }) : Trimmed db db' where
  sboms s hs := by rwa [h] at hs
  services v hv := by rwa [h] at hv
  links l hl := by rwa [h] at hl

theorem deleteProject_trimmed {projectId : Uuid} (h : deleteProject db projectId = .ok db') :
    Trimmed db db' := by
  obtain ⟨target, h⟩ := deleteProject_eq_ok h
  refine ⟨fun s hs => ?_, fun v hv => ?_, fun l hl => ?_⟩
  · rw [h] at hs
    exact (Table.mem_deleteWhere.1 hs).1
  · rw [h] at hv
    exact (Table.mem_deleteWhere.1 hv).1
  · rw [h] at hl
    exact (Table.mem_deleteWhere.1 hl).1

theorem deleteService_trimmed {serviceId : Uuid} (h : deleteService db serviceId = .ok db') :
    Trimmed db db' := by
  have h := deleteService_eq_ok h
  refine ⟨fun s hs => ?_, fun v hv => ?_, fun l hl => ?_⟩
  · rwa [h] at hs
  · rw [h] at hv
    exact (Table.mem_deleteWhere.1 hv).1
  · rwa [h] at hl

theorem pruneSboms_trimmed {days : Option ℕ} {today : Date}
    (h : pruneSboms db days today = .ok db') : Trimmed db db' := by
  obtain ⟨target, h⟩ := pruneSboms_eq_ok h
  refine ⟨fun s hs => ?_, fun v hv => ?_, fun l hl => ?_⟩
  · rw [h] at hs
    exact (Table.mem_deleteWhere.1 hs).1
  · rwa [h] at hv
  · rw [h] at hl
    exact (Table.mem_deleteWhere.1 hl).1

/-! ### Uploads -/

theorem Stored.mem_sboms {projectId : Uuid} {now : DateTime}
    (h : Stored projectId now sbom db db') {s : SBOM} :
    s ∈ db'.sboms ↔ s ∈ db.sboms ∨ s = sbom :=
  Table.mem_insert? h.insert

theorem Stored.mem_services {projectId : Uuid} {now : DateTime}
    (h : Stored projectId now sbom db db') {v : Service} (hv : v ∈ db.services) :
    v ∈ db'.services := by
  rcases h.services with he | ⟨u, hu⟩
  · rwa [he]
  · exact (Table.mem_insert? hu).2 (.inl hv)

theorem Stored.links {projectId : Uuid} {now : DateTime}
    (h : Stored projectId now sbom db db') : db'.links = db.links := by
  rw [h.frame]

theorem Stored.invariant {projectId : Uuid} {now : DateTime}
    (h : Stored projectId now sbom db db') (hinv : SystemInvariant db) :
    SystemInvariant db' where
  owned s hs v hv hsv := by
    rcases h.mem_sboms.1 hs with hs | rfl
    · -- the service is an old one, because the SBOM refers to it already
      obtain ⟨u, hu, hid⟩ := db.sbomsService s hs v.id hsv
      rw [Database.service_eq hv (h.mem_services hu) hid.symm]
      exact hinv.owned s hs u hu (by rw [hsv, hid])
    · obtain ⟨u, hu, hid, hproj⟩ := h.service v.id hsv
      rw [Database.service_eq hv hu hid.symm, hproj, h.project]
  coherent := by
    unfold LinkCoherent
    rw [h.links]
    exact hinv.coherent

/-! ### Scans and deletions -/

theorem ScanEffect.invariant {report : Json} {inp : ScanInput}
    (h : ScanEffect sbom report inp db db') (hinv : SystemInvariant db) :
    SystemInvariant db' where
  owned := by
    unfold ServiceOwned
    rw [h.sboms, h.services]
    exact hinv.owned
  coherent l' hl' := by
    rcases h.origin l' hl' with ⟨l, hl, himg⟩ | ⟨purl, c, i, -, -, -, rfl⟩
    · rcases himg with ⟨-, rfl⟩ | ⟨-, rfl⟩ | ⟨-, -, rfl⟩
      · exact iff_of_true rfl rfl
      · exact iff_of_true rfl rfl
      · exact hinv.coherent l' hl
    · exact iff_of_false nofun nofun

theorem DeleteEffect.invariant {latest : Option SBOM} {now : DateTime}
    (h : DeleteEffect sbom latest now db db') (hinv : SystemInvariant db) :
    SystemInvariant db' where
  owned s hs v hv := by
    rw [h.frame] at hs hv
    exact hinv.owned s (Table.mem_deleteWhere.1 hs).1 v hv
  coherent l' hl' := by
    obtain ⟨l, hl, -, himg⟩ := h.origin l' hl'
    rcases himg with ⟨-, rfl⟩ | ⟨-, -, rfl⟩ | ⟨-, -, rfl⟩
    · exact iff_of_true rfl rfl
    · split_ifs with hst
      · exact iff_of_false nofun nofun
      · exact hinv.coherent l hl
    · exact hinv.coherent l' hl

/-! ### All actions -/

/-- What an action did to the database. -/
inductive Changed (a : Action) (db db' : Database) : Prop
  | trimmed (h : Trimmed db db')
  | stored {projectId : Uuid} {now : DateTime} {sbom : SBOM} (h : Stored projectId now sbom db db')
  | scanned {message : String} {inp : ScanInput} {sbom : SBOM} {report : Json}
    (ha : a = .scanSbom message inp) (hsbom : sbom ∈ db.sboms)
    (h : ScanEffect sbom report inp db db')
  | deleted {sbomId : Uuid} {tie : Uuid → ℕ} {now : DateTime} {sbom : SBOM} {latest : Option SBOM}
    (ha : a = .deleteSbom sbomId tie now) (h : DeleteEffect sbom latest now db db')

theorem Trimmed.refl : Trimmed db db := ⟨fun _ h => h, fun _ h => h, fun _ h => h⟩

theorem storeSbom_changed {a : Action} {projectId : Uuid} {raw : Json}
    {version serviceName : Option String} {inp : StoreInput}
    (h : storeSbom env db projectId raw version serviceName inp = .ok (db', sbom)) :
    Changed a db db' := by
  rcases storeSbom_eq_ok h with ⟨rfl, -⟩ | hstored
  · exact .trimmed .refl
  · exact .stored hstored

/-- **Every action is of one of the four kinds.** -/
theorem step_changed {w w' : World} {a : Action} (howned : ServiceOwned w.db)
    (hst : World.step env w a = some w') : Changed a w.db w'.db := by
  cases World.step_effect hst with
  | unchanged h =>
    rw [h]
    exact .trimmed .refl
  | createProject h => exact .trimmed (trimmed_of_unchanged (createProject_eq_ok h))
  | deleteProject h => exact .trimmed (deleteProject_trimmed h)
  | deleteService h => exact .trimmed (deleteService_trimmed h)
  | storeSbom h => exact storeSbom_changed h
  | scanSbom ha hs h => exact .scanned ha hs h
  | deleteSbom ha h =>
    obtain ⟨sbom, -, -, heffect⟩ := deleteSbom_eq_ok howned h
    exact .deleted ha heffect
  | pruneSboms h => exact .trimmed (pruneSboms_trimmed h)
  | createRiskAcceptance h =>
    exact .trimmed (trimmed_of_unchanged (createRiskAcceptance_eq_ok h))
  | deleteRiskAcceptance h =>
    exact .trimmed (trimmed_of_unchanged (deleteRiskAcceptance_eq_ok h))

/-- Every action keeps the invariant. -/
theorem systemInvariant_step {w w' : World} {a : Action} (hinv : SystemInvariant w.db)
    (hst : World.step env w a = some w') : SystemInvariant w'.db := by
  cases step_changed hinv.owned hst with
  | trimmed h => exact h.invariant hinv
  | stored h => exact h.invariant hinv
  | scanned _ _ h => exact h.invariant hinv
  | deleted _ h => exact h.invariant hinv

theorem systemInvariant_empty : SystemInvariant .empty where
  owned _ hs := absurd hs (Table.not_mem_empty _)
  coherent _ hl := absurd hl (Table.not_mem_empty _)

/-- A run from a state in order ends in one. -/
theorem systemInvariant_run {w₀ w : World} {P : World → Action → Prop}
    (hinv : SystemInvariant w₀.db) (hw : ((system env).startingAt w₀).Reaches P w) :
    SystemInvariant w.db :=
  hw.invariant hinv fun _ _ _ hinv _ hst => systemInvariant_step hinv hst

/-- **The invariant holds in every reachable state.** -/
theorem systemInvariant {w : World} (hw : (system env).Reachable w) : SystemInvariant w.db :=
  systemInvariant_run systemInvariant_empty hw

/-- Link coherence in every reachable state: status and time agree, keys are unique, parents
exist. -/
theorem link_coherence {w : World} (hw : (system env).Reachable w) :
    (∀ l ∈ w.db.links, l.status = .FIXED ↔ l.fixedAt.isSome) ∧
      (w.db.links.rows.Pairwise fun a b => a.key ≠ b.key) ∧
      (w.db.vulnerabilities.rows.Pairwise fun a b => a.cveId ≠ b.cveId) ∧
      (∀ l ∈ w.db.links, ∃ s ∈ w.db.sboms, s.id = l.sbomId) ∧
      ∀ l ∈ w.db.links, ∃ v ∈ w.db.vulnerabilities, v.id = l.vulnerabilityId :=
  ⟨(systemInvariant hw).coherent, w.db.links.unique,
    w.db.vulnerabilities.unique.imp fun hn hc => hn (.inr hc), w.db.linksSbom,
    w.db.linksVulnerability⟩

/-- The demonstration with a link that was found and retired. -/
theorem link_coherence_demo :
    let db := demoRetired.db
    (∀ l ∈ db.links, l.status = .FIXED ↔ l.fixedAt.isSome) ∧
      (db.links.rows.Pairwise fun a b => a.key ≠ b.key) ∧
      (db.vulnerabilities.rows.Pairwise fun a b => a.cveId ≠ b.cveId) ∧
      (∀ l ∈ db.links, ∃ s ∈ db.sboms, s.id = l.sbomId) ∧
      ∀ l ∈ db.links, ∃ v ∈ db.vulnerabilities, v.id = l.vulnerabilityId :=
  link_coherence demo_reachable

end ArgusSbomGuard
