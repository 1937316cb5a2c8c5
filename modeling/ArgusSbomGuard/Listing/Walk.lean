import ArgusSbomGuard.Listing.Tools
import ArgusSbomGuard.System.World

/-!
# A client that reads the pages of a tool

A client of the MCP server asks a tool for one page after the other, as long as `has_more` says that
there is one.  Every call has a session of its own, and the system goes on between the calls.  As
long as nothing that the tool lists is removed, the client ends with every row that was there when
it began, and with as many rows as there were at the end; when none was added, it has every row
once (`walks_complete`).

## Main definitions

* `Walk`, `walkSystem` : the client next to the running system.
* `Action.Adds` : the actions that remove no row that a tool lists.
* `WalksComplete` : what a client can rely on.
-/

namespace ArgusSbomGuard

variable {α β κ : Type} [LinearOrder κ]

/-- The world, and a client on its way through the pages of a tool. -/
structure Walk (β : Type) where
  world : World
  got : List β
  offset : ℕ
  finished : Bool

/-- The system takes a step, or the client asks for the next page. -/
inductive WalkAction
  | system (a : Action)
  | page

/-- The client reads pages of `limit` rows, from the first one on. -/
def walkSystem (env : Env) (tool : Database → ℤ → ℤ → Except McpError (McpPage β)) (limit : ℤ)
    (w : World) : Machine (Walk β) WalkAction where
  init := ⟨w, [], 0, false⟩
  step s
    | .system a => (World.step env s.world a).map fun world => { s with world }
    | .page => if s.finished then none else
      match tool s.world.db s.offset limit with
      | .ok page => some { s with
          got := s.got ++ page.items
          offset := s.offset + limit.toNat
          finished := !page.hasMore }
      -- a call that fails can be made again
      | .error _ => some s

/-- The action does not delete a project, a service, an SBOM or an acceptance. -/
def Action.Adds : Action → Prop
  | .deleteProject _ | .deleteService _ | .deleteSbom _ _ _ | .pruneSboms _ _
  | .deleteRiskAcceptance _ => False
  | _ => True

/-- The same of an action next to the client. -/
def WalkAction.Adds : WalkAction → Prop
  | .system a => a.Adds
  | .page => True

instance Action.decidableAdds : (a : Action) → Decidable a.Adds
  | .deleteProject _ | .deleteService _ | .deleteSbom _ _ _ | .pruneSboms _ _
  | .deleteRiskAcceptance _ => .isFalse id
  | .createProject _ _ | .uploadSbom _ _ | .grpcUploadSbom _ _ | .scanSbom _ _
  | .rescanVulnerabilities | .createRiskAcceptance _ _ _ => .isTrue trivial

instance WalkAction.decidableAdds : (a : WalkAction) → Decidable a.Adds
  | .system a => Action.decidableAdds a
  | .page => .isTrue trivial

/-- A client that is at the end has every item that was listed at the beginning, and as many items
as there were at its last page; when none came in meanwhile, it has every one once. -/
def WalksComplete (env : Env) (tool : Database → ℤ → ℤ → Except McpError (McpPage β))
    (items : Database → List β) : Prop :=
  ∀ limit w actions s, (walkSystem env tool limit w).Allowed (fun _ a => a.Adds)
      (walkSystem env tool limit w).init actions →
    (walkSystem env tool limit w).run (walkSystem env tool limit w).init actions = some s →
    s.finished = true →
      items w.db ⊆ s.got ∧ s.got.length ≤ (items s.world.db).length ∧
      ((items s.world.db).length = (items w.db).length → s.got.Perm (items w.db))

/-! ### What is listed stays -/

/-- The rows that the tools list are still there. -/
structure OnlyAdded (db db' : Database) : Prop where
  projects : ∀ p ∈ db.projects, p ∈ db'.projects
  services : ∀ v ∈ db.services, v ∈ db'.services
  sboms : ∀ s ∈ db.sboms, s ∈ db'.sboms
  riskAcceptances : ∀ a ∈ db.riskAcceptances, a ∈ db'.riskAcceptances
  hasCve : ∀ {i c}, db.HasCve i c → db'.HasCve i c

theorem OnlyAdded.refl (db : Database) : OnlyAdded db db :=
  ⟨fun _ => id, fun _ => id, fun _ => id, fun _ => id, id⟩

variable {env : Env} {db db' : Database} {w w' : World} {projectId serviceId : Option Uuid}

theorem Stored.onlyAdded {p : Uuid} {now : DateTime} {sbom : SBOM}
    (h : Stored p now sbom db db') : OnlyAdded db db' := by
  have hframe := h.frame
  refine ⟨fun p hp => ?_, fun v hv => ?_, fun s hs => (Table.mem_insert? h.insert).2 (.inl hs),
    fun a ha => ?_, fun {i c} hc => ?_⟩
  · rwa [hframe]
  · rcases h.services with he | ⟨u, hu⟩
    · rwa [he]
    · exact (Table.mem_insert? hu).2 (.inl hv)
  · rwa [hframe]
  · rw [Database.HasCve, hframe]
    exact hc

theorem storeSbom_onlyAdded {p : Uuid} {raw : Json} {version service : Option String}
    {inp : StoreInput} {sbom : SBOM}
    (h : storeSbom env db p raw version service inp = .ok (db', sbom)) : OnlyAdded db db' := by
  rcases storeSbom_eq_ok h with ⟨rfl, -⟩ | hstored
  · exact .refl db'
  · exact hstored.onlyAdded

theorem ScanEffect.onlyAdded {sbom : SBOM} {report : Json} {inp : ScanInput}
    (h : ScanEffect sbom report inp db db') : OnlyAdded db db' := by
  have hframe := h.frame
  refine ⟨fun p hp => ?_, fun v hv => ?_, fun s hs => ?_, fun a ha => ?_, h.hasCve⟩ <;> rwa [hframe]

theorem createProject_onlyAdded {data : ProjectCreate} {newId : Uuid}
    (h : createProject env db data newId = .ok db') : OnlyAdded db db' := by
  unfold createProject at h
  split at h
  · cases h
  split at h
  · rename_i db₁ hins
    cases h
    obtain ⟨t, ht, hframe⟩ := Database.insertProject_eq_ok hins
    refine ⟨fun p hp => ?_, fun v hv => ?_, fun s hs => ?_, fun a ha => ?_, fun {i c} hc => ?_⟩
    · rw [hframe]
      exact (Table.mem_insert? ht).2 (.inl hp)
    · rwa [hframe]
    · rwa [hframe]
    · rwa [hframe]
    · rw [Database.HasCve, hframe]
      exact hc
  · split at h <;> cases h
  · cases h

theorem createRiskAcceptance_onlyAdded {data : RiskAcceptanceCreate} {newId : Uuid}
    {now : DateTime} (h : createRiskAcceptance db data newId now = .ok db') :
    OnlyAdded db db' := by
  simp only [createRiskAcceptance, bind_eq_ok] at h
  obtain ⟨-, -, -, -, h⟩ := h
  split at h
  · rename_i db₁ hins
    cases h
    obtain ⟨t, ht, hframe⟩ := Database.insertRiskAcceptance_eq_ok hins
    refine ⟨fun p hp => ?_, fun v hv => ?_, fun s hs => ?_, fun a ha => ?_, fun {i c} hc => ?_⟩
    · rwa [hframe]
    · rwa [hframe]
    · rwa [hframe]
    · rw [hframe]
      exact (Table.mem_insert? ht).2 (.inl ha)
    · rw [Database.HasCve, hframe]
      exact hc
  · cases h
  · cases h

/-- An action that deletes nothing keeps what the tools list. -/
theorem onlyAdded_of_step {a : Action} (hadds : a.Adds) (hst : World.step env w a = some w') :
    OnlyAdded w.db w'.db := by
  cases a with
  | createProject data newId =>
    exact World.commit_elim (Option.some.inj hst) (.refl _) fun db' h => createProject_onlyAdded h
  | uploadSbom form inp =>
    refine World.enqueue_elim (Option.some.inj hst) (.refl _) fun db' message response hok => ?_
    obtain ⟨project, raw, version, serviceName, sbom, hstore, -⟩ := uploadSbom_eq_ok hok
    exact storeSbom_onlyAdded hstore
  | grpcUploadSbom request inp =>
    refine World.enqueue_elim (Option.some.inj hst) (.refl _) fun db' message response hok => ?_
    obtain ⟨project, raw, version, serviceName, sbom, hstore, -⟩ := grpcUploadSbom_eq_ok hok
    exact storeSbom_onlyAdded hstore
  | scanSbom message inp =>
    simp only [World.step] at hst
    split at hst
    case isFalse => cases hst
    rcases World.scan_cases (Option.some.inj hst) with
      rfl | ⟨sbom, -, report, -, -, heffect, -⟩
    · exact .refl _
    · exact heffect.onlyAdded
  | rescanVulnerabilities =>
    obtain rfl := Option.some.inj hst
    exact .refl _
  | createRiskAcceptance data newId now =>
    exact World.commit_elim (Option.some.inj hst) (.refl _) fun db' h =>
      createRiskAcceptance_onlyAdded h
  | deleteProject projectId => exact hadds.elim
  | deleteService serviceId => exact hadds.elim
  | deleteSbom sbomId tie now => exact hadds.elim
  | pruneSboms days today => exact hadds.elim
  | deleteRiskAcceptance acceptanceId => exact hadds.elim

namespace OnlyAdded

variable (h : OnlyAdded db db')
include h

theorem mem_projectNames {p : Uuid} {name : String} (hname : name ∈ projectNames db p) :
    name ∈ projectNames db' p := by
  obtain ⟨q, hq, hid, hqn⟩ := ArgusSbomGuard.mem_projectNames.1 hname
  exact ArgusSbomGuard.mem_projectNames.2 ⟨q, h.projects q hq, hid, hqn⟩

/-- The service of a row keeps its name. -/
theorem serviceName_eq {i : Option Uuid} (hi : ∀ j ∈ i, ∃ v ∈ db.services, v.id = j) :
    serviceName db' i = serviceName db i := by
  cases i with
  | none => rfl
  | some j =>
    obtain ⟨v, hv, rfl⟩ := hi j rfl
    have hfind : ∀ db : Database, v ∈ db.services →
        (db.services.find? fun u => u.id == v.id) = some v := fun db hv =>
      Table.find?_eq_some hv (beq_self_eq_true _) fun u hu => .inl (beq_iff_eq.1 hu)
    simp only [serviceName, Option.bind_some, hfind db hv, hfind db' (h.services v hv)]

theorem listedServices_subset {p : Uuid} : listedServices db p ⊆ listedServices db' p := by
  intro v hv
  obtain ⟨hv, hp⟩ := mem_listedServices.1 hv
  exact mem_listedServices.2 ⟨h.services v hv, hp⟩

theorem listedSboms_subset :
    listedSboms db projectId serviceId ⊆ listedSboms db' projectId serviceId := by
  intro r hr
  obtain ⟨⟨hs, hfilters⟩, hname, hservice⟩ := mem_listedSboms.1 hr
  refine mem_listedSboms.2 ⟨⟨h.sboms _ hs, hfilters⟩, h.mem_projectNames hname, ?_⟩
  rw [hservice, h.serviceName_eq (db.sbomsService _ hs)]

theorem listedAcceptances_subset :
    listedAcceptances db projectId ⊆ listedAcceptances db' projectId := by
  intro r hr
  obtain ⟨⟨ha, hfilter⟩, hcve, hname, hservice⟩ := mem_listedAcceptances.1 hr
  refine mem_listedAcceptances.2 ⟨⟨h.riskAcceptances _ ha, hfilter⟩, h.hasCve hcve,
    h.mem_projectNames hname, ?_⟩
  rw [hservice, h.serviceName_eq (db.acceptancesService _ ha)]

end OnlyAdded

/-! ### The client -/

section Client

variable {tool : Database → ℤ → ℤ → Except McpError (McpPage β)} {rows : Database → List α}
  {key : α → κ} {item : α → β} {limit : ℤ} {first : List α} {s s' : Walk β}

/-- What holds at every point of the way: the rows of the beginning are there, nothing is behind
that was not read, and the client has no more than there is. -/
structure OnTheWay (rows : Database → List α) (key : α → κ) (item : α → β) (first : List α)
    (s : Walk β) : Prop where
  kept : first ⊆ rows s.world.db
  ahead : Ahead key first (fun a => item a ∈ s.got) (rows s.world.db) s.offset
  complete : s.finished = true → ∀ a ∈ first, item a ∈ s.got
  length : s.got.length ≤ (rows s.world.db).length
  offset : s.finished = false → s.got.length = s.offset

theorem onTheWay_init (w : World) :
    OnTheWay rows key item (rows w.db) (walkSystem env tool limit w).init where
  kept := fun _ => id
  ahead := ahead_start _
  complete := nofun
  length := Nat.zero_le _
  offset _ := rfl

/-- Rows that come in do no harm. -/
theorem OnTheWay.system (h : OnTheWay rows key item first s) (hlists : ListsRows tool rows key item)
    (hsub : rows s.world.db ⊆ rows w'.db) :
    OnTheWay rows key item first { s with world := w' } where
  kept _ ha := hsub (h.kept ha)
  ahead := h.ahead.grow (hlists.nodup _).of_map hsub
  complete := h.complete
  length := h.length.trans ((hlists.nodup _).of_map.subperm hsub).length_le
  offset := h.offset

/-- A page brings the rows of its window. -/
theorem OnTheWay.page (h : OnTheWay rows key item first s) (hlists : ListsRows tool rows key item)
    {page : McpPage β} (hunfinished : s.finished = false)
    (hpage : tool s.world.db s.offset limit = .ok page) :
    OnTheWay rows key item first { s with
      got := s.got ++ page.items
      offset := s.offset + limit.toNat
      finished := !page.hasMore } := by
  obtain ⟨-, hlimit, hok⟩ := hlists.page hpage
  have hpage := pageOf_eq_ok hok
  rw [Int.toNat_natCast] at hpage
  have hitems : page.items = (window s.offset limit.toNat
      ((TieOrder.ofArrangement key (storedOrder α)).order (rows s.world.db))).map item := by
    rw [hpage, pageFields]
  have hlength : page.items.length =
      min limit.toNat ((rows s.world.db).length - s.offset) := by
    rw [hitems, List.length_map, length_window, TieOrder.length_eq rfl]
  have hmore : page.hasMore = true ↔
      (s.offset : ℤ) + page.items.length < (rows s.world.db).length := by
    rw [hitems, hpage, pageFields, decide_eq_true_iff]
  have hgot : s.got.length = s.offset := h.offset hunfinished
  have hle : s.got.length ≤ (rows s.world.db).length := h.length
  have hahead : Ahead key first (fun a => item a ∈ s.got ++ page.items) (rows s.world.db)
      (s.offset + limit.toNat) := by
    refine h.ahead.read (hlists.nodup _).of_map (hlists.determines _)
      (TieOrder.ofArrangement key (storedOrder α)) (fun a => List.mem_append_left _) ?_
    intro a ha
    rw [hitems]
    exact List.mem_append_right _ (List.mem_map_of_mem ha)
  refine ⟨h.kept, hahead, fun hfinished => ?_, ?_, fun hgoing => ?_⟩
  · rw [Bool.not_eq_true', ← Bool.not_eq_true, hmore] at hfinished
    exact hahead.complete (by omega)
  · show (s.got ++ page.items).length ≤ (rows s.world.db).length
    rw [List.length_append]
    omega
  · show (s.got ++ page.items).length = s.offset + limit.toNat
    rw [Bool.not_eq_false', hmore] at hgoing
    rw [List.length_append]
    omega

/-- One step, as long as nothing that is listed is deleted. -/
theorem OnTheWay.step (h : OnTheWay rows key item first s) (hlists : ListsRows tool rows key item)
    (hrows : ∀ {db db'}, OnlyAdded db db' → rows db ⊆ rows db') {a : WalkAction} (hadds : a.Adds)
    (hst : (walkSystem env tool limit w).step s a = some s') :
    OnTheWay rows key item first s' := by
  cases a with
  | system a =>
    obtain ⟨w', hw, rfl⟩ := Option.map_eq_some_iff.1 hst
    exact h.system hlists (hrows (onlyAdded_of_step hadds hw))
  | page =>
    simp only [walkSystem] at hst
    split_ifs at hst with hfinished
    split at hst
    · rename_i page hpage
      obtain rfl := Option.some.inj hst
      exact h.page hlists (Bool.eq_false_iff.2 hfinished) hpage
    · obtain rfl := Option.some.inj hst
      exact h

/-- What is listed by windows of rows that stay, a client reads completely. -/
theorem walksComplete_of_listsRows (hlists : ListsRows tool rows key item)
    (hrows : ∀ {db db'}, OnlyAdded db db' → rows db ⊆ rows db') :
    WalksComplete env tool fun db => (rows db).map item := by
  intro limit w actions s hallowed hrun hfinished
  have hway : OnTheWay rows key item (rows w.db) s := by
    refine (Machine.Reaches.init.run hallowed hrun).invariant (onTheWay_init w) ?_
    exact fun s a s' h hadds hst => h.step hlists hrows hadds hst
  have hsub : (rows w.db).map item ⊆ s.got := by
    intro b hb
    obtain ⟨a, ha, rfl⟩ := List.mem_map.1 hb
    exact hway.complete hfinished a ha
  refine ⟨hsub, hway.length.trans (List.length_map _).ge, fun hsame => ?_⟩
  -- as many as there were, and each of these
  have hsubperm : ((rows w.db).map item).Subperm s.got := (hlists.nodup w.db).subperm hsub
  refine (hsubperm.perm_of_length_le ?_).symm
  rw [← hsame, List.length_map]
  exact hway.length

end Client

/-- **A client misses nothing.**  Whoever reads the pages of `list_services`, `list_sboms` or
`list_risk_acceptances` to the end, while the system adds and scans but deletes nothing, has every
item of the beginning, and each once when none was added. -/
theorem walks_complete {collate : String → κ} (hcollate : Function.Injective collate)
    (projectId : String) (project service : Option String) :
    WalksComplete env (fun db => listServices db collate env projectId)
      (fun db => ((env.parseUuid projectId).elim [] (listedServices db)).map serviceItem) ∧
    WalksComplete env (fun db => listSboms db env project service)
      (fun db => (listedSboms db (project.bind env.parseUuid)
        (service.bind env.parseUuid)).map sbomItem) ∧
    WalksComplete env (fun db => listRiskAcceptances db env project)
      (fun db => (listedAcceptances db (project.bind env.parseUuid)).map riskAcceptanceItem) := by
  refine ⟨walksComplete_of_listsRows (listServices_listsRows hcollate projectId) fun h => ?_,
    walksComplete_of_listsRows (listSboms_listsRows project service) fun h => ?_,
    walksComplete_of_listsRows (listRiskAcceptances_listsRows project) fun h => ?_⟩
  · cases env.parseUuid projectId with
    | none => exact fun _ => id
    | some i => exact h.listedServices_subset
  · exact h.listedSboms_subset
  · exact h.listedAcceptances_subset

/-- Two releases, of which the client reads one at a time; a third one comes in after the first
page. -/
def demoReading : List WalkAction := [.page, .system (demoUpload 3 12 300), .page, .page]

/-- The client that reads the releases. -/
def demoClient : Machine (Walk SbomItem) WalkAction :=
  walkSystem demoEnv (fun db => listSboms db demoEnv none none) 1 demoScanned

theorem demoReading_isSome : (demoClient.run demoClient.init demoReading).isSome := by
  decide +kernel

/-- The client at the end of its pages. -/
def demoReader : Walk SbomItem := demoClient.after demoReading demoReading_isSome

/-- The release at the boundary is read twice, the older one is not missed. -/
theorem walks_complete_demo : demoReader.got.map SbomItem.id = [11, 11, 10] ∧
    (listedSboms demoScanned.db none none).map sbomItem ⊆ demoReader.got := by
  have hallowed : demoClient.Allowed (fun _ a => a.Adds) demoClient.init demoReading := by
    decide +kernel
  have hrun : demoClient.run demoClient.init demoReading = some demoReader :=
    (Option.some_get demoReading_isSome).symm
  have hfinished : demoReader.finished = true := by decide +kernel
  refine ⟨by decide +kernel, ?_⟩
  exact ((walks_complete Function.injective_id "" none none).2.1 1 demoScanned demoReading
    demoReader hallowed hrun hfinished).1

end ArgusSbomGuard
