import ArgusSbomGuard.System.Invariant

/-!
# What a deletion leaves behind

After a deletion each link of the scope is open unless its SBOM is older than the latest
remaining one and that one has no link, of either status, for the same vulnerability.  The
history of the links, which of them a rescan had retired and which an upload had reconciled, is
forgotten.

* `delete_post_state` : this closed form.
* `upload_scan_delete_restores_iff` : when deleting a scanned SBOM restores what was before.
* `delete_superseded_iff` : when deleting a superseded SBOM changes nothing else.

On the sets of open vulnerabilities the deletion opens whatever is linked and lets the latest
remaining SBOM supersede the older ones (`DeleteEffect.exposure`).
-/

namespace ArgusSbomGuard

variable {env : Env} {w : World} {db db' : Database} {sbom : SBOM} {latest : Option SBOM}
  {tie : Uuid → ℕ} {now : DateTime} {l l' : SBOMVulnerability}

/-! ### The image of a link -/

namespace DeleteImage

theorem sbomId (h : DeleteImage db sbom latest now l l') : l'.sbomId = l.sbomId :=
  congrArg (·.1) h.key

theorem vulnerabilityId (h : DeleteImage db sbom latest now l l') :
    l'.vulnerabilityId = l.vulnerabilityId :=
  congrArg (·.2.2) h.key

theorem eq_fix (h : DeleteImage db sbom latest now l l') (hcl : ClosedBy db latest l) :
    l' = l.fix now := by
  rcases h with ⟨-, rfl⟩ | ⟨hno, -⟩ | ⟨hno, -⟩
  · rfl
  · exact absurd hcl hno
  · exact absurd hcl hno

theorem eq_of_not_inScope (h : DeleteImage db sbom latest now l l') (hcl : ¬ ClosedBy db latest l)
    (hin : ¬ InScope db sbom l.sbomId) : l' = l := by
  rcases h with ⟨hc, -⟩ | ⟨-, hi, -⟩ | ⟨-, -, rfl⟩
  · exact absurd hc hcl
  · exact absurd hi hin
  · rfl

/-- A link of the scope that is not closed is open, and has no time of being fixed. -/
theorem reopened (h : DeleteImage db sbom latest now l l') (hcoh : LinkCoherent db)
    (hl : l ∈ db.links) (hcl : ¬ ClosedBy db latest l) (hin : InScope db sbom l.sbomId) :
    l'.status = .OPEN ∧ l'.fixedAt = none := by
  rcases h with ⟨hc, -⟩ | ⟨-, -, rfl⟩ | ⟨-, hno, -⟩
  · exact absurd hc hcl
  · split_ifs with hst
    · exact ⟨rfl, rfl⟩
    · have hopen : l.status = .OPEN := by
        cases h : l.status with
        | OPEN => rfl
        | FIXED => exact absurd h hst
      refine ⟨hopen, Option.not_isSome_iff_eq_none.1 fun hsome => hst ((hcoh l hl).2 hsome)⟩
  · exact absurd hin hno

end DeleteImage

/-! ### The closed form -/

theorem linkedOn_of_key {k : LinkKey} (h : ∃ l ∈ db.links, l.key = k) :
    db.LinkedOn k.1 k.2.2 := by
  obtain ⟨l, hl, rfl⟩ := h
  exact ⟨l, hl, rfl, rfl⟩

namespace DeleteEffect

variable (h : DeleteEffect sbom latest now db db')
include h

theorem mem_sboms {s : SBOM} : s ∈ db'.sboms ↔ s ∈ db.sboms ∧ s.id ≠ sbom.id := by
  rw [h.frame, Table.mem_deleteWhere, beq_eq_false_iff_ne]

theorem mem_dependencies {d : Dependency} :
    d ∈ db'.dependencies ↔ d ∈ db.dependencies ∧ d.sbomId ≠ sbom.id := by
  rw [h.frame, Table.mem_deleteWhere, beq_eq_false_iff_ne]

/-- Exactly the links of the deleted SBOM are gone. -/
theorem exists_key {k : LinkKey} : (∃ l ∈ db'.links, l.key = k) ↔
    (∃ l ∈ db.links, l.key = k) ∧ k.1 ≠ sbom.id := by
  constructor
  · rintro ⟨l', hl', rfl⟩
    obtain ⟨l, hl, hid, himg⟩ := h.origin l' hl'
    rw [himg.key]
    exact ⟨⟨l, hl, rfl⟩, hid⟩
  · rintro ⟨⟨l, hl, rfl⟩, hid⟩
    obtain ⟨l', hl', himg⟩ := h.old l hl hid
    exact ⟨l', hl', himg.key⟩

theorem linkedOn {i v : Uuid} (hi : i ≠ sbom.id) : db'.LinkedOn i v ↔ db.LinkedOn i v := by
  constructor
  · rintro ⟨l, hl, rfl, rfl⟩
    exact linkedOn_of_key (h.exists_key.1 ⟨l, hl, rfl⟩).1
  · rintro ⟨l, hl, rfl, rfl⟩
    exact linkedOn_of_key (h.exists_key.2 ⟨⟨l, hl, rfl⟩, hi⟩)

end DeleteEffect

/-- A closed link is in the scope. -/
theorem ClosedBy.inScope (hown : ServiceOwned db)
    (hlatest : ∀ L ∈ latest, L ∈ db.sboms ∧ L.scope = sbom.scope) (h : ClosedBy db latest l) :
    InScope db sbom l.sbomId := by
  obtain ⟨L, hL, hold, -⟩ := h
  exact inScope_of_olderThan hown (hlatest L hL).1 (hlatest L hL).2 hold

/-- Whether a link of the scope is fixed after the deletion. -/
theorem DeleteImage.fixed_iff (h : DeleteImage db sbom latest now l l') (hcoh : LinkCoherent db)
    (hl : l ∈ db.links) (hin : InScope db sbom l.sbomId) :
    l'.status = .FIXED ↔ ClosedBy db latest l := by
  constructor
  · intro hf
    by_contra hcl
    exact nomatch hf.symm.trans (h.reopened hcoh hl hcl hin).1
  · intro hcl
    rw [h.eq_fix hcl]
    rfl

/-- The vulnerabilities that are linked on each SBOM, open or fixed. -/
def Database.linked (db : Database) : Exposure Uuid Uuid := fun s => {v | db.LinkedOn s v}

/-- **A deletion refines the abstract operations**: on the SBOMs of the scope that remain,
whatever is linked is opened, and the latest one supersedes the others. -/
theorem DeleteEffect.exposure {L : SBOM} (h : DeleteEffect sbom (some L) now db db')
    (hcoh : LinkCoherent db) (hL : L ∈ db.sboms) {i : Uuid} (hi : i ≠ sbom.id)
    (hin : InScope db sbom i) :
    db'.exposure i = db.linked.supersede db.Older L.id i := by
  have hclosed : ∀ a : SBOMVulnerability, a.sbomId = i → (¬ ClosedBy db (some L) a ↔
      (db.Older i L.id → db.LinkedOn L.id a.vulnerabilityId)) := by
    rintro a rfl
    rw [older_iff hL]
    simp [ClosedBy, not_and]
  ext v
  constructor
  · rintro ⟨l', hl', rfl, rfl, ho⟩
    obtain ⟨l, hl, -, himg⟩ := h.origin l' hl'
    have hcl : ¬ ClosedBy db (some L) l := fun hcl =>
      nomatch ho.symm.trans ((himg.fixed_iff hcoh hl (himg.sbomId ▸ hin)).2 hcl)
    rw [himg.vulnerabilityId]
    exact ⟨⟨l, hl, himg.sbomId.symm, rfl⟩, (hclosed l himg.sbomId.symm).1 hcl⟩
  · rintro ⟨⟨l, hl, rfl, rfl⟩, hsup⟩
    obtain ⟨l', hl', himg⟩ := h.old l hl hi
    exact ⟨l', hl', himg.sbomId, himg.vulnerabilityId,
      (himg.reopened hcoh hl ((hclosed l rfl).2 hsup) hin).1⟩

/-- A stored SBOM can be deleted, with the effect of `DeleteEffect`. -/
theorem deleteSbom_effect (hinv : SystemInvariant db) (hs : sbom ∈ db.sboms) (tie : Uuid → ℕ)
    (now : DateTime) : ∃ db', deleteSbom db sbom.id tie now = .ok db' ∧
      DeleteEffect sbom (latestRemaining db sbom tie) now db db' := by
  obtain ⟨db', hdel⟩ := deleteSbom_succeeds hs tie now
  obtain ⟨t, ht, hid, heffect⟩ := deleteSbom_eq_ok hinv.owned hdel
  obtain rfl := Database.sbom_eq ht hs hid
  exact ⟨db', hdel, heffect⟩

/-- A deletion leaves the links outside the scope alone. -/
theorem DeleteEffect.mem_links_iff (h : DeleteEffect sbom latest now db db')
    (hown : ServiceOwned db) (hs : sbom ∈ db.sboms)
    (hlatest : ∀ L ∈ latest, L ∈ db.sboms ∧ L.scope = sbom.scope)
    (hout : ¬ InScope db sbom l.sbomId) : l ∈ db'.links ↔ l ∈ db.links := by
  have hkept : ∀ {a a'}, ¬ InScope db sbom a.sbomId → DeleteImage db sbom latest now a a' →
      a' = a := fun {a a'} hout himg =>
    himg.eq_of_not_inScope (fun hcl => hout (hcl.inScope hown hlatest)) hout
  constructor
  · intro hl'
    obtain ⟨a, ha, -, himg⟩ := h.origin l hl'
    rwa [hkept (himg.sbomId ▸ hout) himg]
  · intro hl
    obtain ⟨l', hl', himg⟩ := h.old l hl fun hid => hout ⟨sbom, hs, rfl, hid.symm⟩
    rwa [hkept hout himg] at hl'

/-- The state after the deletion of `sbom` when `L` is the latest SBOM that remains. -/
structure DeletePostState (sbom L : SBOM) (now : DateTime) (db db' : Database) : Prop where
  sboms : ∀ s, s ∈ db'.sboms ↔ s ∈ db.sboms ∧ s.id ≠ sbom.id
  noLinks : ∀ l ∈ db'.links, l.sbomId ≠ sbom.id
  noDependencies : ∀ d ∈ db'.dependencies, d.sbomId ≠ sbom.id
  keys : ∀ k : LinkKey, (∃ l ∈ db'.links, l.key = k) ↔
    (∃ l ∈ db.links, l.key = k) ∧ k.1 ≠ sbom.id
  latest : ∀ l ∈ db'.links, l.sbomId = L.id → l.status = .OPEN ∧ l.fixedAt = none
  older : ∀ l ∈ db'.links, InScope db' sbom l.sbomId → l.sbomId ≠ L.id →
    (db'.LinkedOn L.id l.vulnerabilityId → l.status = .OPEN ∧ l.fixedAt = none) ∧
      (¬ db'.LinkedOn L.id l.vulnerabilityId → l.status = .FIXED ∧ l.fixedAt = some now)
  outside : ∀ l, ¬ InScope db sbom l.sbomId → (l ∈ db'.links ↔ l ∈ db.links)

theorem DeleteEffect.postState {L : SBOM} (h : DeleteEffect sbom (some L) now db db')
    (hinv : SystemInvariant db) (hs : sbom ∈ db.sboms) (hL : L ∈ db.sboms)
    (hLid : L.id ≠ sbom.id) (hLscope : L.scope = sbom.scope)
    (hmax : ∀ s ∈ db.sboms, s.scope = sbom.scope → s.id ≠ sbom.id → s.id ≠ L.id →
      s.uploadedAt < L.uploadedAt) : DeletePostState sbom L now db db' where
  sboms _ := h.mem_sboms
  noLinks l hl := (h.exists_key.1 ⟨l, hl, rfl⟩).2
  noDependencies _ hd := (h.mem_dependencies.1 hd).2
  keys _ := h.exists_key
  latest l' hl' hl's := by
    obtain ⟨l, hl, -, himg⟩ := h.origin l' hl'
    have hls : l.sbomId = L.id := himg.sbomId.symm.trans hl's
    refine himg.reopened hinv.coherent hl ?_ ⟨L, hL, hLscope, hls.symm⟩
    rintro ⟨_, ⟨⟩, hold, -⟩
    exact not_olderThan_self (hls ▸ hold)
  older l' hl' hin hne := by
    obtain ⟨s, hs', hscope, hid⟩ := hin
    obtain ⟨hsdb, hsne⟩ := h.mem_sboms.1 hs'
    obtain ⟨l, hl, -, himg⟩ := h.origin l' hl'
    have hls : l.sbomId = s.id := himg.sbomId.symm.trans hid.symm
    have hold : OlderThan db L l.sbomId := by
      rw [hls, olderThan_iff hinv.owned hL hsdb]
      exact ⟨hscope.trans hLscope.symm, hmax s hsdb hscope hsne (hid.trans_ne hne)⟩
    rw [himg.vulnerabilityId, h.linkedOn hLid]
    refine ⟨fun hlinked => ?_, fun hno => ?_⟩
    · refine himg.reopened hinv.coherent hl ?_ ⟨s, hsdb, hscope, hls.symm⟩
      rintro ⟨_, ⟨⟩, -, hno⟩
      exact hno hlinked
    · rw [himg.eq_fix ⟨L, rfl, hold, hno⟩]
      exact ⟨rfl, rfl⟩
  outside l hout := h.mem_links_iff hinv.owned hs
    (fun _ hL' => Option.some.inj hL' ▸ ⟨hL, hLscope⟩) hout

/-- **The state after a deletion**, when no two SBOMs of the scope were uploaded at the same
time and another one remains. -/
theorem delete_post_state (hw : (system env).Reachable w) (hs : sbom ∈ w.db.sboms)
    (hdistinct : ∀ s ∈ w.db.sboms, ∀ t ∈ w.db.sboms, s.scope = sbom.scope →
      t.scope = sbom.scope → s.uploadedAt = t.uploadedAt → s.id = t.id)
    (hother : ∃ s ∈ w.db.sboms, s.scope = sbom.scope ∧ s.id ≠ sbom.id) (tie : Uuid → ℕ)
    (now : DateTime) :
    ∃ db', deleteSbom w.db sbom.id tie now = .ok db' ∧ ∃ L ∈ db'.sboms, L.scope = sbom.scope ∧
      (∀ s ∈ db'.sboms, s.scope = sbom.scope → s.id ≠ L.id → s.uploadedAt < L.uploadedAt) ∧
        DeletePostState sbom L now w.db db' := by
  obtain ⟨db', hdel, heffect⟩ := deleteSbom_effect (systemInvariant hw) hs tie now
  refine ⟨db', hdel, ?_⟩
  cases hlatest : latestRemaining w.db sbom tie with
  | none =>
    obtain ⟨s, hsdb, hscope, hid⟩ := hother
    exact absurd hscope (latestRemaining_eq_none hlatest hsdb hid)
  | some L =>
    obtain ⟨hL, hLid, hLscope⟩ := latestRemaining_eq_some hlatest
    have hmax : ∀ s ∈ w.db.sboms, s.scope = sbom.scope → s.id ≠ sbom.id → s.id ≠ L.id →
        s.uploadedAt < L.uploadedAt := by
      intro s hsdb hscope hid hne
      rcases Prod.Lex.le_iff.1 (latestRemaining_max hlatest hsdb hid hscope) with hlt | ⟨heq, -⟩
      · exact hlt
      · exact absurd (hdistinct s hsdb L hL hscope hLscope heq) hne
    rw [hlatest] at heffect
    refine ⟨L, heffect.mem_sboms.2 ⟨hL, hLid⟩, hLscope, fun s hs' hscope hne => ?_,
      heffect.postState (systemInvariant hw) hs hL hLid hLscope hmax⟩
    obtain ⟨hsdb, hid⟩ := heffect.mem_sboms.1 hs'
    exact hmax s hsdb hscope hid hne

/-- Three scanned releases. -/
def demoThree : World :=
  demo [demoProject, demoUpload 1 10 100, demoScan 10 [1, 1] 110, demoUpload 2 11 200,
    demoScan 11 [2, 2] 210, demoUpload 3 12 300, demoScan 12 [1, 1] 310] (by decide +kernel)

/-- The newest of them is deleted. -/
theorem delete_post_state_demo :
    let w := demoThree
    ∃ sbom ∈ w.db.sboms, sbom.id = 12 ∧
      ∃ db', deleteSbom w.db sbom.id (fun _ => 0) 320 = .ok db' ∧
        ∃ L ∈ db'.sboms, L.scope = sbom.scope ∧
          (∀ s ∈ db'.sboms, s.scope = sbom.scope → s.id ≠ L.id → s.uploadedAt < L.uploadedAt) ∧
            DeletePostState sbom L 320 w.db db' := by
  intro w
  obtain ⟨sbom, hs, hid, hdistinct, hother⟩ : ∃ r ∈ w.db.sboms, r.id = 12 ∧
      (∀ s ∈ w.db.sboms, ∀ t ∈ w.db.sboms, s.scope = r.scope → t.scope = r.scope →
        s.uploadedAt = t.uploadedAt → s.id = t.id) ∧
      ∃ s ∈ w.db.sboms, s.scope = r.scope ∧ s.id ≠ r.id := by
    decide +kernel
  exact ⟨sbom, hs, hid, delete_post_state demo_reachable hs hdistinct hother _ _⟩

/-! ### Deleting a superseded SBOM -/

/-- The latest SBOM of a scope is not older than the one that a deletion of another SBOM picks,
so the deletion opens all that is linked on it. -/
theorem openOn_latest {M : SBOM} (hinv : SystemInvariant db)
    (h : DeleteEffect sbom (latestRemaining db sbom tie) now db db') (hM : M ∈ db.sboms)
    (hMid : M.id ≠ sbom.id) (hMscope : M.scope = sbom.scope) (hMlatest : IsLatest db M) (v : Uuid) :
    db'.OpenOn M.id v ↔ db.LinkedOn M.id v := by
  cases hlatest : latestRemaining db sbom tie with
  | none => exact absurd hMscope (latestRemaining_eq_none hlatest hM hMid)
  | some L =>
    obtain ⟨hL, hLid, hLscope⟩ := latestRemaining_eq_some hlatest
    rw [hlatest] at h
    have hnot : ¬ db.Older M.id L.id := by
      rw [older_iff hL, olderThan_iff hinv.owned hL hM]
      rintro ⟨-, hlt⟩
      exact hlt.not_ge (hMlatest.uploadedAt_le hL (hLscope.trans hMscope.symm))
    have hexp := h.exposure hinv.coherent hL hMid ⟨M, hM, hMscope, rfl⟩
    rw [Exposure.supersede_of_not_older hnot] at hexp
    exact Set.ext_iff.1 hexp v

/-- **When deleting a superseded SBOM changes nothing else.**  The open set of the latest SBOM
and the times of the links that stay fixed are preserved exactly when the latest SBOM `M` has no
fixed link for a vulnerability that is not open on it, and no fixed link of an older SBOM has to
be closed again, unless it was fixed at the very time of the deletion. -/
theorem delete_superseded_iff (hw : (system env).Reachable w) (hs : sbom ∈ w.db.sboms) {M : SBOM}
    (hM : M ∈ w.db.sboms) (hMid : M.id ≠ sbom.id) (hMscope : M.scope = sbom.scope)
    (hMlatest : IsLatest w.db M) (tie : Uuid → ℕ) (now : DateTime) :
    ∃ db', deleteSbom w.db sbom.id tie now = .ok db' ∧
      (((∀ v, db'.OpenOn M.id v ↔ w.db.OpenOn M.id v) ∧
          ∀ l ∈ w.db.links, ∀ l' ∈ db'.links, l'.key = l.key → l.status = .FIXED →
            l'.status = .FIXED → l'.fixedAt = l.fixedAt) ↔
        (∀ l ∈ w.db.links, l.sbomId = M.id → l.status = .FIXED →
            w.db.OpenOn M.id l.vulnerabilityId) ∧
          ∀ L ∈ latestRemaining w.db sbom tie, ∀ l ∈ w.db.links, l.sbomId ≠ sbom.id →
            l.status = .FIXED → OlderThan w.db L l.sbomId →
              ¬ w.db.LinkedOn L.id l.vulnerabilityId → l.fixedAt = some now) := by
  have hinv := systemInvariant hw
  obtain ⟨db', hdel, heffect⟩ := deleteSbom_effect hinv hs tie now
  refine ⟨db', hdel, and_congr ?_ ?_⟩
  · have hopen := openOn_latest hinv heffect hM hMid hMscope hMlatest
    constructor
    · rintro heq l hl hls -
      exact (heq _).1 ((hopen _).2 ⟨l, hl, hls, rfl⟩)
    · intro hcond v
      rw [hopen]
      constructor
      · rintro ⟨l, hl, hls, rfl⟩
        cases hst : l.status with
        | OPEN => exact ⟨l, hl, hls, rfl, hst⟩
        | FIXED => exact hcond l hl hls hst
      · rintro ⟨l, hl, hls, hv, -⟩
        exact ⟨l, hl, hls, hv⟩
  · constructor
    · intro hkeep L hL l hl hne hst hold hno
      obtain ⟨l', hl', himg⟩ := heffect.old l hl hne
      have hfix := himg.eq_fix ⟨L, hL, hold, hno⟩
      rw [← hkeep l hl l' hl' himg.key hst (by rw [hfix]; rfl), hfix]
      rfl
    · intro hcond l hl l' hl' hkey hst hst'
      obtain ⟨a, ha, hne, himg⟩ := heffect.origin l' hl'
      obtain rfl := Database.link_eq ha hl (himg.key.symm.trans hkey)
      by_cases hcl : ClosedBy w.db (latestRemaining w.db sbom tie) a
      · obtain ⟨L, hL, hold, hno⟩ := id hcl
        rw [himg.eq_fix hcl, hcond L hL a hl hne hst hold hno]
        rfl
      · by_cases hin : InScope w.db sbom a.sbomId
        · exact nomatch hst'.symm.trans (himg.reopened hinv.coherent hl hcl hin).1
        · rw [himg.eq_of_not_inScope hcl hin]

/-- The older of two scanned releases is deleted. -/
theorem delete_superseded_iff_demo :
    let w := demoScanned
    ∃ sbom ∈ w.db.sboms, sbom.id = 10 ∧ ∃ M ∈ w.db.sboms, M.id = 11 ∧
      ∃ db', deleteSbom w.db sbom.id (fun _ => 0) 320 = .ok db' ∧
        (((∀ v, db'.OpenOn M.id v ↔ w.db.OpenOn M.id v) ∧
            ∀ l ∈ w.db.links, ∀ l' ∈ db'.links, l'.key = l.key → l.status = .FIXED →
              l'.status = .FIXED → l'.fixedAt = l.fixedAt) ↔
          (∀ l ∈ w.db.links, l.sbomId = M.id → l.status = .FIXED →
              w.db.OpenOn M.id l.vulnerabilityId) ∧
            ∀ L ∈ latestRemaining w.db sbom fun _ => 0, ∀ l ∈ w.db.links, l.sbomId ≠ sbom.id →
              l.status = .FIXED → OlderThan w.db L l.sbomId →
                ¬ w.db.LinkedOn L.id l.vulnerabilityId → l.fixedAt = some 320) := by
  intro w
  obtain ⟨sbom, hs, hid, M, hM, hMid, hne, hscope, hlatest⟩ : ∃ s ∈ w.db.sboms, s.id = 10 ∧
      ∃ M ∈ w.db.sboms, M.id = 11 ∧ M.id ≠ s.id ∧ M.scope = s.scope ∧ IsLatest w.db M := by
    decide +kernel
  exact ⟨sbom, hs, hid, M, hM, hMid,
    delete_superseded_iff demo_reachable hs hM hne hscope hlatest _ _⟩

/-- Two releases, of which the newer one has a finding that a rescan has retired. -/
def demoRetiredLatest : World :=
  demo [demoProject, demoUpload 1 10 100, demoUpload 2 11 200, demoScan 11 [1, 1] 210,
    demoScan 11 [] 220] (by decide +kernel)

/-- Deleting an old release reopens what a rescan of the latest one had retired. -/
theorem delete_superseded_reopens :
    ∃ w, (system demoEnv).Reachable w ∧ ∃ sbom ∈ w.db.sboms, ∃ M ∈ w.db.sboms,
      M.id ≠ sbom.id ∧ M.scope = sbom.scope ∧ IsLatest w.db M ∧ ∃ db',
        deleteSbom w.db sbom.id (fun _ => 0) 320 = .ok db' ∧
          ¬ w.db.OpenOn M.id 1 ∧ db'.OpenOn M.id 1 := by
  refine ⟨demoRetiredLatest, demo_reachable, ?_⟩
  decide +kernel

/-! ### Uploading, scanning and deleting -/

/-- The links of the scope are as a deletion that picks `latest` leaves them: fixed exactly on
the SBOMs older than `latest`, for the vulnerabilities without a link on `latest`. -/
def Settled (db : Database) (sbom : SBOM) (latest : Option SBOM) : Prop :=
  ∀ L ∈ latest, ∀ l ∈ db.links, InScope db sbom l.sbomId →
    (l.status = .FIXED ↔ OlderThan db L l.sbomId ∧ ¬ db.LinkedOn L.id l.vulnerabilityId)

section

variable {projectId : Uuid} {uploaded : DateTime} {db₁ db₂ : Database} {report : Json}
  {inp : ScanInput}

/-- The new SBOM is not one of those that a deletion of it selects from. -/
theorem Stored.latestRemaining (h : Stored projectId uploaded sbom db db₁) :
    latestRemaining db₁ sbom tie = latestRemaining db sbom tie := by
  unfold ArgusSbomGuard.latestRemaining
  rw [(Table.insert?_eq_some h.insert).2, List.filter_append]
  simp

theorem Stored.id_ne (h : Stored projectId uploaded sbom db db₁) {s : SBOM} (hs : s ∈ db.sboms) :
    s.id ≠ sbom.id := fun hid =>
  (Table.insert?_eq_some h.insert).1 s hs (.inl hid)

theorem Stored.link_ne (h : Stored projectId uploaded sbom db db₁) (hl : l ∈ db.links) :
    l.sbomId ≠ sbom.id := by
  obtain ⟨s, hs, hid⟩ := db.linksSbom l hl
  exact hid ▸ h.id_ne hs

/-- The stored SBOMs other than the new one are the same. -/
theorem Stored.exists_sbom_iff (h : Stored projectId uploaded sbom db db₁) {P : SBOM → Prop}
    {i : Uuid} (hi : i ≠ sbom.id) :
    (∃ s ∈ db₁.sboms, P s ∧ s.id = i) ↔ ∃ s ∈ db.sboms, P s ∧ s.id = i := by
  constructor
  · rintro ⟨s, hs, hP, rfl⟩
    exact ⟨s, (h.mem_sboms.1 hs).resolve_right fun he => hi (he ▸ rfl), hP, rfl⟩
  · rintro ⟨s, hs, hP, hid⟩
    exact ⟨s, h.mem_sboms.2 (.inl hs), hP, hid⟩

theorem Stored.olderThan (h : Stored projectId uploaded sbom db db₁) {L : SBOM} {i : Uuid}
    (hi : i ≠ sbom.id) : OlderThan db₁ L i ↔ OlderThan db L i :=
  h.exists_sbom_iff hi

theorem Stored.inScope (h : Stored projectId uploaded sbom db db₁) {i : Uuid}
    (hi : i ≠ sbom.id) : InScope db₁ sbom i ↔ InScope db sbom i :=
  h.exists_sbom_iff hi

/-- A link outside the scope of the scanned SBOM is left alone. -/
theorem LinkImage.eq_of_not_inScope (h : LinkImage db₁ sbom report inp l l')
    (hinv : SystemInvariant db₁) (hs : sbom ∈ db₁.sboms) (hout : ¬ InScope db₁ sbom l.sbomId) :
    l' = l := by
  rcases h with ⟨hst, -⟩ | ⟨hsup, -⟩ | ⟨-, -, rfl⟩
  · exact absurd ⟨sbom, hs, rfl, hst.1.symm⟩ hout
  · exact absurd (inScope_of_olderThan hinv.owned hs rfl hsup.1) hout
  · rfl

/-- The links of the other SBOMs after an upload, a scan and a deletion of the uploaded SBOM. -/
theorem deleted_scan_fixed_iff (hinv : SystemInvariant db)
    (hstored : Stored projectId uploaded sbom db db₁)
    (hscan : ScanEffect sbom report inp db₁ db₂)
    (hdel : DeleteEffect sbom (latestRemaining db₂ sbom tie) now db₂ db') (hl : l ∈ db.links) :
    ∃ l' ∈ db'.links, l'.key = l.key ∧ (¬ InScope db sbom l.sbomId → l' = l) ∧
      (InScope db sbom l.sbomId →
        (l'.status = .FIXED ↔ ClosedBy db (latestRemaining db sbom tie) l)) := by
  have hs₁ : sbom ∈ db₁.sboms := hstored.mem_sboms.2 (.inr rfl)
  have hinv₁ := hstored.invariant hinv
  have hinv₂ := hscan.invariant hinv₁
  have hne := hstored.link_ne hl
  rw [latestRemaining_congr hscan.sboms, hstored.latestRemaining] at hdel
  have hscope₂ : ∀ i, i ≠ sbom.id → (InScope db₂ sbom i ↔ InScope db sbom i) := fun i hi =>
    hscan.inScope.trans (hstored.inScope hi)
  -- the link `l` is `l₂` after the scan, with the same key, and `l'` after the deletion
  obtain ⟨l₂, hl₂, himg₂⟩ := hscan.old l (hstored.links ▸ hl)
  have hs₂ := himg₂.sbomId
  obtain ⟨l', hl', himg⟩ := hdel.old l₂ hl₂ (hs₂ ▸ hne)
  have hclosed : ClosedBy db₂ (latestRemaining db sbom tie) l₂ ↔
      ClosedBy db (latestRemaining db sbom tie) l := by
    refine exists_congr fun L => and_congr_right fun hL => ?_
    rw [hs₂, himg₂.vulnerabilityId]
    refine and_congr (hscan.olderThan.trans (hstored.olderThan hne)) (not_congr ?_)
    rw [hscan.linkedOn (latestRemaining_eq_some hL).2.1]
    unfold Database.LinkedOn
    rw [hstored.links]
  refine ⟨l', hl', himg.key.trans himg₂.key, fun hout => ?_, fun hin => ?_⟩
  · have hout₂ : ¬ InScope db₂ sbom l₂.sbomId := by rwa [hs₂, hscope₂ _ hne]
    have hcl : ¬ ClosedBy db₂ (latestRemaining db sbom tie) l₂ := fun hcl => by
      obtain ⟨L, hL, hold, -⟩ := hclosed.1 hcl
      obtain ⟨hLdb, -, hLscope⟩ := latestRemaining_eq_some hL
      exact hout (inScope_of_olderThan hinv.owned hLdb hLscope hold)
    rw [himg.eq_of_not_inScope hcl hout₂]
    refine himg₂.eq_of_not_inScope hinv₂ (hscan.sboms ▸ hs₁) ?_
    rwa [hscope₂ _ hne]
  · rw [← hclosed]
    refine himg.fixed_iff hinv₂.coherent hl₂ ?_
    rwa [hs₂, hscope₂ _ hne]

end

/-- **When a deletion undoes an upload and a scan.**  A new document is uploaded, scanned with
success and deleted; every link of the other SBOMs is back to the status it had if and only if
the scope was settled before. -/
theorem upload_scan_delete_restores_iff (hw : (system env).Reachable w) {form : UploadForm}
    {store : StoreInput} {db₁ db₂ : Database} {message : String} {response : SBOMUploadResponse}
    {inp : ScanInput} (hup : uploadSbom env w.db form store = .ok (db₁, message, response))
    (hnew : ∀ s ∈ w.db.sboms, s.id ≠ response.id)
    (hscan : doScanSbom env db₁ message inp = .ok (db₂, .scanned)) (tie : Uuid → ℕ)
    (now : DateTime) :
    ∃ sbom ∈ db₁.sboms, sbom.id = response.id ∧
      ∃ db₃, deleteSbom db₂ sbom.id tie now = .ok db₃ ∧
        ((∀ l ∈ w.db.links, ∃ l' ∈ db₃.links, l'.key = l.key ∧ l'.status = l.status) ↔
          Settled w.db sbom (latestRemaining w.db sbom tie)) := by
  have hinv := systemInvariant hw
  obtain ⟨project, raw, version, serviceName, sbom, hstore, hmsg, hid⟩ := uploadSbom_eq_ok hup
  have hstored : Stored project store.now sbom w.db db₁ := by
    rcases storeSbom_eq_ok hstore with ⟨-, hmem⟩ | hstored
    · exact absurd hid.symm (hnew sbom hmem)
    · exact hstored
  have hs₁ : sbom ∈ db₁.sboms := hstored.mem_sboms.2 (.inr rfl)
  obtain ⟨t, ht, htid, report, -, heffect⟩ := doScanSbom_scanned hscan
  rw [hmsg, env.parseUuid_strUuid] at htid
  obtain rfl := Database.sbom_eq hs₁ ht (Option.some.inj htid)
  have hinv₂ := heffect.invariant (hstored.invariant hinv)
  obtain ⟨db₃, hdel, hdeleff⟩ := deleteSbom_effect hinv₂ (heffect.sboms ▸ hs₁) tie now
  refine ⟨sbom, hs₁, hid.symm, db₃, hdel, fun hback L hL l hl hin => ?_, fun hset l hl => ?_⟩
  · obtain ⟨l', hl', hkey, -, hfix⟩ :=
      deleted_scan_fixed_iff hinv hstored heffect hdeleff hl
    obtain ⟨a, ha, hakey, hst⟩ := hback l hl
    obtain rfl := Database.link_eq ha hl' (hakey.trans hkey.symm)
    rw [← hst, hfix hin, hL]
    simp [ClosedBy]
  · obtain ⟨l', hl', hkey, hout, hfix⟩ :=
      deleted_scan_fixed_iff hinv hstored heffect hdeleff hl
    refine ⟨l', hl', hkey, ?_⟩
    by_cases hin : InScope w.db sbom l.sbomId
    · obtain ⟨s, hs, hscope, hsid⟩ := id hin
      -- a link of the scope is on another SBOM of it, so one was picked
      cases hL : latestRemaining w.db sbom tie with
      | none => exact absurd hscope (latestRemaining_eq_none hL hs (hstored.id_ne hs))
      | some L =>
        have hiff : l'.status = .FIXED ↔ l.status = .FIXED := by
          rw [hfix hin, hset L hL l hl hin, hL]
          simp [ClosedBy]
        cases hst : l.status with
        | FIXED => exact hiff.2 hst
        | OPEN =>
          cases hst' : l'.status with
          | OPEN => rfl
          | FIXED => exact nomatch hst.symm.trans (hiff.1 hst')
    · rw [hout hin]

/-- A second release is uploaded, scanned and deleted. -/
theorem upload_scan_delete_restores_iff_demo :
    let w := demoFound
    ∃ db₁ message response db₂,
      uploadSbom demoEnv w.db (demoForm 2) ⟨0, 11, 200⟩ = .ok (db₁, message, response) ∧
        doScanSbom demoEnv db₁ message (demoInput [2, 2] 210) = .ok (db₂, .scanned) ∧
          ∃ sbom ∈ db₁.sboms, sbom.id = response.id ∧
            ∃ db₃, deleteSbom db₂ sbom.id (fun _ => 0) 220 = .ok db₃ ∧
              ((∀ l ∈ w.db.links, ∃ l' ∈ db₃.links, l'.key = l.key ∧ l'.status = l.status) ↔
                Settled w.db sbom (latestRemaining w.db sbom fun _ => 0)) := by
  intro w
  obtain ⟨⟨db₁, message, response⟩, hup, hnew, db₂, hscan, -⟩ :
      ∃ r, uploadSbom demoEnv w.db (demoForm 2) ⟨0, 11, 200⟩ = .ok r ∧
        (∀ s ∈ w.db.sboms, s.id ≠ r.2.2.id) ∧
          ∃ db₂, doScanSbom demoEnv r.1 r.2.1 (demoInput [2, 2] 210) = .ok (db₂, .scanned) ∧
            True := by
    decide +kernel
  exact ⟨db₁, message, response, db₂, hup, hscan,
    upload_scan_delete_restores_iff demo_reachable hup hnew hscan _ _⟩

/-- A finding that a rescan had retired is open after a newer release came and went. -/
theorem upload_scan_delete_reopens :
    ∃ w, (system demoEnv).Reachable w ∧ ∃ form store inp r db₂ db₃,
      uploadSbom demoEnv w.db form store = .ok r ∧
        (∀ s ∈ w.db.sboms, s.id ≠ r.2.2.id ∧ s.uploadedAt < store.now) ∧
          doScanSbom demoEnv r.1 r.2.1 inp = .ok (db₂, .scanned) ∧
            deleteSbom db₂ r.2.2.id (fun _ => 0) 320 = .ok db₃ ∧
              w.db.HasLink 10 "p" "c" .FIXED ∧ db₃.HasLink 10 "p" "c" .OPEN := by
  refine ⟨demoRetired, demo_reachable, demoForm 2, ⟨0, 11, 200⟩, demoInput [] 210, ?_⟩
  obtain ⟨r, hup, hnew, db₂, hscan, db₃, hdel, hbefore, hafter⟩ :
      ∃ r, uploadSbom demoEnv demoRetired.db (demoForm 2) ⟨0, 11, 200⟩ = .ok r ∧
        (∀ s ∈ demoRetired.db.sboms, s.id ≠ r.2.2.id ∧ s.uploadedAt < 200) ∧
          ∃ db₂, doScanSbom demoEnv r.1 r.2.1 (demoInput [] 210) = .ok (db₂, .scanned) ∧
            ∃ db₃, deleteSbom db₂ r.2.2.id (fun _ => 0) 320 = .ok db₃ ∧
              demoRetired.db.HasLink 10 "p" "c" .FIXED ∧ db₃.HasLink 10 "p" "c" .OPEN := by
    decide +kernel
  exact ⟨r, db₂, db₃, hup, hnew, hscan, hdel, hbefore, hafter⟩

end ArgusSbomGuard
