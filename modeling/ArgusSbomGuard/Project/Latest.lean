import ArgusSbomGuard.Relational.Greatest
import ArgusSbomGuard.Risk.Actionable
import ArgusSbomGuard.System.Invariant

/-!
# The current SBOM of a scope

The project page shows the vulnerabilities of one SBOM for each service and of one without a
service.  `_get_project_vulns` of `api/pages/projects.py` takes the one whose document is the
newest, by `created_at`; the rescan takes the one that was uploaded last (`latestSbomIds`).  The
two choices are the same whatever the order of the rows exactly when the last upload of each scope
has the newest document (`oneLatest_iff`).

They are the same in every state when each upload has a document that is newer than those of its
scope that were uploaded before it (`one_latest_sbom`), and, as long as the clock of the server
goes forward, only then (`one_latest_sbom_iff`).

## Main definitions

* `latestMap`, `pageLatest`, `projectVulnRows` : what the page chooses and shows.
* `OneLatest` : the choices agree.
* `TimesAgree` : the times of two SBOMs agree on which one is later.
* `Action.KeepsOrder` : an upload whose document is as new as its upload.
-/

namespace ArgusSbomGuard

/-! ### The project page -/

/-- A row of the query `id_q`: the SBOM, its service and `created_at`. -/
abbrev IdRow := Uuid × Option Uuid × DateTime

/-- A value of `latest_map`: the SBOM and `created_at`. -/
abbrev LatestEntry := Uuid × DateTime

variable (db : Database) (order : Arrangement IdRow) (projectId : Uuid) (serviceId : Option Uuid)

/-- `id_q`, which filters by the service if one is given. -/
def idRows : List IdRow :=
  (db.sboms.rows.filter fun s =>
    s.projectId == projectId && serviceId.all fun i => s.serviceId == some i).map fun s =>
      (s.id, s.serviceId, s.createdAt)

/-- `latest_map`; its keys are the services and `__no_service__`. -/
def latestMap : List (Option Uuid × LatestEntry) :=
  ((order.order (idRows db projectId serviceId)).map fun row =>
    (row.2.1, row.1, row.2.2)).foldl (keepGreatest Prod.snd) []

/-- `latest_map[key][0]`. -/
def pageLatest (key : Option Uuid) : Option Uuid :=
  ((latestMap db order projectId serviceId).lookup key).map Prod.fst

/-- The set `latest_sbom_ids` of the page. -/
def pageSbomIds : List Uuid := (latestMap db order projectId serviceId).map (·.2.1)

/-- The links of the query `vuln_rows` with their vulnerabilities; the dependency that is joined
to a link only names its package. -/
def projectVulnRows : List (SBOMVulnerability × Vulnerability) :=
  (joinLinks db fun l s =>
    (pageSbomIds db order projectId serviceId).contains l.sbomId && actionable db l s).flatMap
      fun ls => (db.vulnerabilities.rows.filter fun v => v.id == ls.1.vulnerabilityId).map
        fun v => (ls.1, v)

/-- The page chooses for each scope what `latest_sbom_ids` returns for it, and shows
vulnerabilities of those SBOMs alone. -/
structure OneLatest : Prop where
  chosen : ∀ order projectId serviceId key, (∀ i ∈ serviceId, key = some i) → ∀ sbomId,
    pageLatest db order projectId serviceId key = some sbomId ↔
      sbomId ∈ latestSbomIds db ∧ ∃ s ∈ db.sboms, s.id = sbomId ∧ s.scope = (projectId, key)
  shown : ∀ order projectId serviceId, ∀ row ∈ projectVulnRows db order projectId serviceId,
    row.1.sbomId ∈ latestSbomIds db

/-- The last upload of each scope has the newest document. -/
def LatestIsNewest : Prop :=
  ∀ L ∈ db.sboms, IsLatest db L → ∀ s ∈ db.sboms, s.scope = L.scope → s.id ≠ L.id →
    s.createdAt < L.createdAt

variable {db} {order} {projectId} {serviceId} {key : Option Uuid} {env : Env} {w w' : World}

/-! ### What the page chooses -/

/-- The entries among which the page chooses for a scope. -/
theorem mem_rowsOf_idRows (hkey : ∀ i ∈ serviceId, key = some i) {e : LatestEntry} :
    e ∈ rowsOf key ((order.order (idRows db projectId serviceId)).map fun row =>
        (row.2.1, row.1, row.2.2)) ↔
      ∃ s ∈ db.sboms, s.scope = (projectId, key) ∧ e = (s.id, s.createdAt) := by
  rw [mem_rowsOf]
  simp only [List.mem_map, (order.perm _).mem_iff, idRows, List.mem_filter, Bool.and_eq_true,
    beq_iff_eq, Table.mem_rows, Option.all_eq_true, Prod.exists, Prod.mk.injEq, SBOM.scope]
  constructor
  · rintro ⟨_, _, _, ⟨s, ⟨hs, rfl, -⟩, rfl, rfl, rfl⟩, rfl, he⟩
    exact ⟨s, hs, ⟨rfl, rfl⟩, he.symm⟩
  · rintro ⟨s, hs, ⟨rfl, rfl⟩, rfl⟩
    exact ⟨_, _, _, ⟨s, ⟨hs, rfl, hkey⟩, rfl, rfl, rfl⟩, rfl, rfl⟩

theorem mem_pageSbomIds {i : Uuid} : i ∈ pageSbomIds db order projectId serviceId ↔
    ∃ key, pageLatest db order projectId serviceId key = some i := by
  simp only [pageSbomIds, pageLatest, latestMap, lookup_keepGreatest, List.mem_map, Prod.exists,
    mem_keepGreatest, Option.map_eq_some_iff, exists_and_right, exists_eq_right]

/-- If the last uploads have the newest documents, the page finds them in any order. -/
theorem pageLatest_of_newest (h : LatestIsNewest db) {L : SBOM} (hL : L ∈ db.sboms)
    (hlatest : IsLatest db L) (hkey : ∀ i ∈ serviceId, L.serviceId = some i) :
    pageLatest db order L.projectId serviceId L.serviceId = some L.id := by
  rw [pageLatest, latestMap, lookup_keepGreatest]
  refine Option.map_eq_some_iff.2 ⟨(L.id, L.createdAt), argmax_eq_of_lt ?_ ?_, rfl⟩
  · exact (mem_rowsOf_idRows hkey).2 ⟨L, hL, rfl, rfl⟩
  · intro e he hne
    obtain ⟨s, hs, hscope, rfl⟩ := (mem_rowsOf_idRows hkey).1 he
    refine h L hL hlatest s hs hscope fun hid => hne ?_
    rw [Database.sbom_eq hs hL hid]

/-- The page chooses for the services that it does not filter out. -/
theorem key_of_pageLatest {i : Uuid} (h : pageLatest db order projectId serviceId key = some i) :
    ∀ i ∈ serviceId, key = some i := by
  rw [pageLatest, latestMap, lookup_keepGreatest] at h
  obtain ⟨e, he, -⟩ := Option.map_eq_some_iff.1 h
  obtain ⟨row, hrow, heq⟩ := List.mem_map.1 (mem_rowsOf.1 (List.argmax_mem he))
  obtain ⟨s, hs, rfl⟩ := List.mem_map.1 ((order.perm _).mem_iff.1 hrow)
  obtain ⟨rfl, -⟩ := Prod.mk.inj heq
  intro i hi
  obtain ⟨-, hservice⟩ := Bool.and_eq_true_iff.1 (List.mem_filter.1 hs).2
  exact beq_iff_eq.1 ((Option.all_eq_true _ _).1 hservice i hi)

/-- The page chooses one of the SBOMs of the scope. -/
theorem pageLatest_mem (hkey : ∀ i ∈ serviceId, key = some i) {i : Uuid}
    (h : pageLatest db order projectId serviceId key = some i) :
    ∃ s ∈ db.sboms, s.id = i ∧ s.scope = (projectId, key) := by
  rw [pageLatest, latestMap, lookup_keepGreatest] at h
  obtain ⟨e, he, rfl⟩ := Option.map_eq_some_iff.1 h
  obtain ⟨s, hs, hscope, rfl⟩ := (mem_rowsOf_idRows hkey).1 (List.argmax_mem he)
  exact ⟨s, hs, rfl, hscope⟩

theorem oneLatest_of_newest (h : LatestIsNewest db) : OneLatest db := by
  have hchosen : ∀ order projectId serviceId key, (∀ i ∈ serviceId, key = some i) → ∀ sbomId,
      pageLatest db order projectId serviceId key = some sbomId ↔
        sbomId ∈ latestSbomIds db ∧
          ∃ s ∈ db.sboms, s.id = sbomId ∧ s.scope = (projectId, key) := by
    intro order projectId serviceId key hkey sbomId
    constructor
    · intro hpage
      obtain ⟨s, hs, rfl, hscope⟩ := pageLatest_mem hkey hpage
      obtain ⟨L, hL, hLs, hlatest⟩ := exists_isLatest hs
      obtain ⟨rfl, rfl⟩ := Prod.mk.inj (hLs.trans hscope)
      have hfound : pageLatest db order L.projectId serviceId L.serviceId = some L.id :=
        pageLatest_of_newest h hL hlatest hkey
      obtain hid : L.id = s.id := Option.some.inj (hfound.symm.trans hpage)
      exact ⟨mem_latestSbomIds.2 ⟨L, hL, hid, hlatest⟩, s, hs, rfl, hscope⟩
    · rintro ⟨hmem, s, hs, rfl, hscope⟩
      obtain ⟨L, hL, hid, hlatest⟩ := mem_latestSbomIds.1 hmem
      obtain rfl := Database.sbom_eq hL hs hid
      obtain ⟨rfl, rfl⟩ := Prod.mk.inj hscope
      exact pageLatest_of_newest h hL hlatest hkey
  refine ⟨hchosen, fun order projectId serviceId row hrow => ?_⟩
  obtain ⟨⟨l, s⟩, hls, hrow⟩ := List.mem_flatMap.1 hrow
  obtain ⟨v, -, rfl⟩ := List.mem_map.1 hrow
  obtain ⟨-, -, -, hshown⟩ := mem_joinLinks.1 hls
  obtain ⟨hids, -⟩ := Bool.and_eq_true_iff.1 hshown
  obtain ⟨key, hpage⟩ := mem_pageSbomIds.1 (List.contains_iff_mem.1 hids)
  exact ((hchosen _ _ _ _ (key_of_pageLatest hpage) _).1 hpage).1

/-- If some document of a scope is as new as that of the last upload, the page finds it when its
row comes first. -/
theorem newest_of_oneLatest (h : OneLatest db) : LatestIsNewest db := by
  intro L hL hlatest s hs hscope hid
  by_contra hnot
  obtain ⟨hproject, hservice⟩ := Prod.mk.inj hscope
  have hkey : ∀ i ∈ (none : Option Uuid), L.serviceId = some i := nofun
  have hrow : (s.id, s.serviceId, s.createdAt) ∈ idRows db L.projectId none := by
    refine List.mem_map.2 ⟨s, List.mem_filter.2 ⟨hs, ?_⟩, rfl⟩
    rw [← hproject, beq_self_eq_true]
    rfl
  have hpage := (h.chosen (.putFirst (s.id, s.serviceId, s.createdAt)) L.projectId none
    L.serviceId hkey L.id).2 ⟨mem_latestSbomIds.2 ⟨L, hL, rfl, hlatest⟩, L, hL, rfl, rfl⟩
  rw [pageLatest, latestMap, lookup_keepGreatest] at hpage
  obtain ⟨e, hmax, hpicked⟩ := Option.map_eq_some_iff.1 hpage
  obtain ⟨t, ht, -, rfl⟩ := (mem_rowsOf_idRows hkey).1 (List.argmax_mem hmax)
  obtain rfl := Database.sbom_eq ht hL hpicked
  rw [Arrangement.order_putFirst hrow, List.map_cons, ← hservice, rowsOf_cons_self] at hmax
  -- nothing is newer than the last upload, so nothing is newer than what comes first
  have hfirst := argmax_cons_eq_self (f := Prod.snd) (a := (s.id, s.createdAt)) fun b hb =>
    (List.le_of_mem_argmax (List.mem_cons_of_mem _ hb) hmax).trans (not_lt.1 hnot)
  exact hid (congrArg Prod.fst (Option.some.inj (hfirst.symm.trans hmax)))

/-- **The choices agree exactly when the last upload of each scope has the newest document.** -/
theorem oneLatest_iff : OneLatest db ↔ LatestIsNewest db :=
  ⟨newest_of_oneLatest, oneLatest_of_newest⟩

/-! ### Runs -/

/-- The times of the documents and those of the uploads agree on which SBOM is the later one. -/
def TimesAgree (a b : SBOM) : Prop :=
  (a.rank < b.rank ∧ a.createdAt < b.createdAt) ∨ (b.rank < a.rank ∧ b.createdAt < a.createdAt)

instance (a b : SBOM) : Decidable (TimesAgree a b) := inferInstanceAs (Decidable (_ ∨ _))

variable (db) in
/-- In each scope the newer documents were uploaded later. -/
def ScopesInOrder : Prop :=
  ∀ a ∈ db.sboms, ∀ b ∈ db.sboms, a.scope = b.scope → a.id ≠ b.id → TimesAgree a b

/-- If the action stores an SBOM, its place among those of its scope is the same by the time of the
document and by that of the upload. -/
def Action.KeepsOrder (env : Env) (w : World) (a : Action) : Prop :=
  ∀ w', World.step env w a = some w' → ∀ s ∈ w'.db.sboms, (∀ b ∈ w.db.sboms, b.id ≠ s.id) →
    ∀ b ∈ w.db.sboms, b.scope = s.scope → TimesAgree b s

instance (env : Env) (w : World) (a : Action) : Decidable (a.KeepsOrder env w) :=
  inferInstanceAs (Decidable (∀ w', World.step env w a = some w' → _))

/-- If the action stores an SBOM, it is the last upload of its scope. -/
def Action.MovesForward (env : Env) (w : World) (a : Action) : Prop :=
  ∀ w', World.step env w a = some w' → ∀ s ∈ w'.db.sboms, (∀ b ∈ w.db.sboms, b.id ≠ s.id) →
    ∀ b ∈ w.db.sboms, b.scope = s.scope → b.rank < s.rank

variable {a : Action}

theorem TimesAgree.symm {a b : SBOM} (h : TimesAgree a b) : TimesAgree b a := Or.symm h

theorem ScopesInOrder.newest (h : ScopesInOrder db) : LatestIsNewest db := by
  intro L hL hlatest s hs hscope hid
  rcases h s hs L hL hscope hid with ⟨-, hlt⟩ | ⟨hrank, -⟩
  · exact hlt
  · exact absurd hrank (not_lt.2 (hlatest s hs hscope))

/-- An action stores at most one SBOM, and changes none. -/
theorem sboms_step (howned : ServiceOwned w.db) (hst : World.step env w a = some w') :
    (∀ s ∈ w'.db.sboms, s ∈ w.db.sboms) ∨ ∃ new, (∀ b ∈ w.db.sboms, b.id ≠ new.id) ∧
      ∀ s, s ∈ w'.db.sboms ↔ s ∈ w.db.sboms ∨ s = new := by
  cases step_changed howned hst with
  | trimmed h => exact .inl h.sboms
  | @stored _ _ sbom h =>
    refine .inr ⟨sbom, fun b hb hid => ?_, fun s => h.mem_sboms⟩
    exact Table.insert?_eq_some h.insert |>.1 b hb (.inl hid)
  | scanned _ _ h =>
    rw [h.sboms]
    exact .inl fun s hs => hs
  | deleted _ h =>
    refine .inl fun s hs => ?_
    rw [h.frame] at hs
    exact (Table.mem_deleteWhere.1 hs).1

theorem scopesInOrder_step (howned : ServiceOwned w.db) (h : ScopesInOrder w.db)
    (ha : a.KeepsOrder env w) (hst : World.step env w a = some w') : ScopesInOrder w'.db := by
  rcases sboms_step howned hst with hsub | ⟨new, hfresh, hmem⟩
  · exact fun x hx y hy => h x (hsub x hx) y (hsub y hy)
  · have hnew : ∀ b ∈ w.db.sboms, b.scope = new.scope → TimesAgree b new :=
      ha w' hst new ((hmem new).2 (.inr rfl)) hfresh
    intro x hx y hy hscope hid
    rcases (hmem x).1 hx with hx | rfl
    · rcases (hmem y).1 hy with hy | rfl
      · exact h x hx y hy hscope hid
      · exact hnew x hx hscope
    · rcases (hmem y).1 hy with hy | rfl
      · exact (hnew y hy hscope.symm).symm
      · exact absurd rfl hid

theorem scopesInOrder_empty : ScopesInOrder .empty :=
  fun _ hs => absurd hs (Table.not_mem_empty _)

/-- **One notion of latest SBOM.**  In every state reached by uploads whose documents are as new as
the uploads, and by any other actions, the page chooses what the rescan does. -/
theorem one_latest_sbom (hw : (system env).Reaches (Action.KeepsOrder env) w) :
    OneLatest w.db := by
  have hinv : ScopesInOrder w.db := hw.invariant_under (I := fun w => SystemInvariant w.db)
    (J := fun w => ScopesInOrder w.db) systemInvariant_empty
    (fun _ _ _ => systemInvariant_step) scopesInOrder_empty
    fun _ _ _ hinv hord ha hst => scopesInOrder_step hinv.owned hord ha hst
  exact oneLatest_of_newest hinv.newest

/-- While the clock goes forward, the choices agree after every action of a run exactly when every
upload has a document that is newer than those before it. -/
theorem one_latest_sbom_iff {as : List Action}
    (hclock : (system env).Allowed (Action.MovesForward env) (system env).init as) :
    (system env).Allowed (fun w a => ∀ w', World.step env w a = some w' → OneLatest w'.db)
        (system env).init as ↔
      (system env).Allowed (Action.KeepsOrder env) (system env).init as := by
  refine Machine.allowed_congr (I := fun w => SystemInvariant w.db ∧ ScopesInOrder w.db)
    ?_ ?_ ⟨systemInvariant_empty, scopesInOrder_empty⟩ hclock
  · rintro w a w' ⟨hinv, hord⟩ ha hst
    exact ⟨systemInvariant_step hinv hst, scopesInOrder_step hinv.owned hord ha hst⟩
  · rintro w a ⟨hinv, hord⟩ hforward
    constructor
    · intro hlatest w' hst s hs hfresh b hb hscope
      rcases sboms_step hinv.owned hst with hsub | ⟨new, -, hmem⟩
      · exact absurd rfl (hfresh s (hsub s hs))
      -- the stored SBOM is the last upload of its scope
      have hlast : IsLatest w'.db s := by
        intro x hx hxs
        rcases (hmem x).1 hx with hx | rfl
        · exact (hforward w' hst s hs hfresh x hx hxs).le
        · rcases (hmem s).1 hs with hs | rfl
          · exact absurd rfl (hfresh s hs)
          · exact le_rfl
      exact .inl ⟨hforward w' hst s hs hfresh b hb hscope, newest_of_oneLatest (hlatest w' hst)
        s hs hlast b ((hmem b).2 (.inl hb)) hscope (hfresh b hb)⟩
    · intro ha w' hst
      exact oneLatest_of_newest (scopesInOrder_step hinv.owned hord ha hst).newest

/-! ### A document that is older than its upload -/

def stampedDay : DateTime := Date.start 739000

/-- The demonstration with documents that have a timestamp. -/
def stampedEnv : Env := { demoEnv with
  loads
    | 3 :: serial :: stamp :: _ => .ok (.obj [("bomFormat", .str "CycloneDX"),
      ("serialNumber", .str (demoName 's' serial.toNat)),
      ("metadata", .obj [("timestamp", .str (demoName 't' stamp.toNat))])])
    | bytes => demoEnv.loads bytes
  fromisoformat s := some (stampedDay + s.length) }

/-- Upload a document with a timestamp as the SBOM `id`, some minutes after the day began. -/
def stampedUpload (serial stamp : UInt8) (id : Uuid) (minutes : ℕ) : Action :=
  .uploadSbom ⟨none, some "project", none, none, [3, serial, stamp]⟩
    ⟨0, id, stampedDay + 60000000 * minutes⟩

def stampedScan (id : Uuid) (pairs : List UInt8) (minutes : ℕ) : Action :=
  .scanSbom (stampedEnv.strUuid id)
    (demoInput pairs (stampedDay + 60000000 * minutes))

/-- Two releases, of which the second upload has the older document. -/
def demoBackport : World := (system stampedEnv).after
  [demoProject, stampedUpload 1 5 10 1, stampedScan 10 [1, 1] 2, stampedUpload 2 3 11 3,
    stampedScan 11 [2, 2] 4] (by decide +kernel)

/-- The page chooses the release with the newer document, whose finding is gone; the finding of the
last upload is not shown. -/
theorem page_shows_older_upload : (system stampedEnv).Reachable demoBackport ∧
    latestSbomIds demoBackport.db = [11] ∧
    pageLatest demoBackport.db (storedOrder IdRow) 1 none none = some 10 ∧
    projectVulnRows demoBackport.db (storedOrder IdRow) 1 none = [] ∧
    ∃ l ∈ demoBackport.db.links, l.sbomId = 11 ∧ l.status = .OPEN := by
  refine ⟨Machine.reachable_after, ?_⟩
  decide +kernel

/-- Two releases, each with a newer document. -/
def demoReleases : World := (system stampedEnv).after
  [demoProject, stampedUpload 1 3 10 1, stampedScan 10 [1, 1] 2, stampedUpload 2 5 11 3,
    stampedScan 11 [2, 2] 4] (by decide +kernel)

theorem one_latest_sbom_demo : demoReleases.db.sboms.rows.length = 2 ∧
    OneLatest demoReleases.db :=
  ⟨by decide +kernel,
    @one_latest_sbom stampedEnv demoReleases (Machine.reaches_after (by decide +kernel))⟩

end ArgusSbomGuard
