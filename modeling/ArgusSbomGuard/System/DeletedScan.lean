import ArgusSbomGuard.System.ScanDelete

/-!
# Deleting an SBOM while it is scanned

A scan that finds its SBOM gone when it inserts the links goes on without them, and reconciles the
older SBOMs with nothing.  `scan_of_deleted_iff` says when this does no harm, for every
interleaving.

The deletion leaves open in the scope what is linked on the latest SBOM that remains
(`DeleteEffect.openInScope_iff`).  The scan then closes what it reconciles: everything if it
reconciles after the deletion (`not_openInScope_of_olderClosed`), the links it has picked if it
reconciled before (`openInScope_commit_iff`).

## Main definitions

* `OpenInScope` : what is open on the SBOMs of a scope.
* `DeleteHarmless` : the condition on the state in which the deletion falls.
-/

namespace ArgusSbomGuard

/-- The vulnerability `v` is open on some SBOM in the scope of `sbom`. -/
def OpenInScope (db : Database) (sbom : SBOM) (v : Uuid) : Prop :=
  ∃ s ∈ db.sboms, s.scope = sbom.scope ∧ db.OpenOn s.id v

instance (db : Database) (sbom : SBOM) (v : Uuid) : Decidable (OpenInScope db sbom v) :=
  inferInstanceAs (Decidable (∃ s ∈ db.sboms, _))

/-- No two SBOMs in the scope of `sbom` were uploaded at the same time. -/
def DistinctUploads (db : Database) (sbom : SBOM) : Prop :=
  ∀ s ∈ db.sboms, ∀ t ∈ db.sboms, s.scope = sbom.scope → t.scope = sbom.scope →
    s.uploadedAt = t.uploadedAt → s.id = t.id

instance (db : Database) (sbom : SBOM) : Decidable (DistinctUploads db sbom) :=
  inferInstanceAs (Decidable (∀ s ∈ db.sboms, _))

/-- The deletion of `sbom` does no harm in the state `s` of its scan: the scan is over, or another
SBOM of the scope is the latest, or the scan has reconciled already and left each vulnerability
that is linked on the latest remaining SBOM alone: it is open on `sbom`, or fixed somewhere in the
scope, so that the deletion reopens it. -/
def DeleteHarmless (db : Database) (sbom : SBOM) (latest : Option SBOM) (s : ScanSession) : Prop :=
  s.Ended ∨ ¬ IsLatest db sbom ∨ ∀ L ∈ latest, ∀ v, db.LinkedOn L.id v →
    s.status = .running (.commit sbom) ∧ ((s.view Database.write).OpenOn sbom.id v ∨
      ∃ l ∈ db.links, l.sbomId ≠ sbom.id ∧ InScope db sbom l.sbomId ∧ l.vulnerabilityId = v ∧
        l.status = .FIXED)

variable {env : Env} {db db' d : Database} {sbom : SBOM} {inp : ScanInput} {tie : Uuid → ℕ}
  {now : DateTime} {s s' : ScanSession}

/-! ### What the deletion leaves -/

section

variable {L : SBOM} (hinv : SystemInvariant db)
include hinv

/-- The latest SBOM reconciles all others of its scope when the upload times differ. -/
theorem IsLatest.olderThan (hs : sbom ∈ db.sboms) (hlatest : IsLatest db sbom)
    (hdistinct : DistinctUploads db sbom) {t : SBOM} (ht : t ∈ db.sboms)
    (hscope : t.scope = sbom.scope) (hid : t.id ≠ sbom.id) : OlderThan db sbom t.id := by
  rw [olderThan_iff hinv.owned hs ht]
  refine ⟨hscope, lt_of_le_of_ne (hlatest.uploadedAt_le ht hscope) fun heq => hid ?_⟩
  exact hdistinct t ht sbom hs hscope rfl heq

/-- If `sbom` is not the latest SBOM, it does not reconcile the latest one that remains. -/
theorem not_olderThan_latestRemaining (hs : sbom ∈ db.sboms)
    (hL : latestRemaining db sbom tie = some L) (hlatest : ¬ IsLatest db sbom) :
    ¬ OlderThan db sbom L.id := by
  obtain ⟨hLdb, -, -⟩ := latestRemaining_eq_some hL
  rw [olderThan_iff hinv.owned hs hLdb]
  rintro ⟨-, hlt⟩
  refine hlatest fun t ht hscope => ?_
  by_cases hid : t.id = sbom.id
  · rw [Database.sbom_eq ht hs hid]
  · refine (Prod.Lex.lt_iff.2 (.inl ?_)).le
    refine lt_of_le_of_lt ?_ hlt
    rcases Prod.Lex.le_iff.1 (latestRemaining_max hL ht hid hscope) with hlt' | heq
    · exact hlt'.le
    · exact heq.1.le

variable (h : DeleteEffect sbom (latestRemaining db sbom tie) now db db')
include h

/-- Whatever is linked on the latest SBOM that remains is open on it. -/
theorem DeleteEffect.openOn_latestRemaining (hL : latestRemaining db sbom tie = some L) (v : Uuid) :
    db'.OpenOn L.id v ↔ db.LinkedOn L.id v := by
  obtain ⟨hLdb, hLid, hLscope⟩ := latestRemaining_eq_some hL
  rw [hL] at h
  have hexp := h.exposure hinv.coherent hLdb hLid ⟨L, hLdb, hLscope, rfl⟩
  rw [Exposure.supersede_of_not_older not_older_self] at hexp
  exact Set.ext_iff.1 hexp v

/-- After a deletion the latest SBOM that remains covers the others of the scope. -/
theorem DeleteEffect.covers (hdistinct : DistinctUploads db sbom)
    (hL : latestRemaining db sbom tie = some L) :
    db'.exposure.Covers {i | i ≠ sbom.id ∧ InScope db sbom i} L.id := by
  obtain ⟨hLdb, hLid, hLscope⟩ := latestRemaining_eq_some hL
  have hexp : ∀ i, i ≠ sbom.id → InScope db sbom i →
      db'.exposure i = db.linked.supersede db.Older L.id i := by
    rw [hL] at h
    exact fun i hi hin => h.exposure hinv.coherent hLdb hi hin
  have hsup : (db.linked.supersede db.Older L.id).Covers
      {i | i ≠ sbom.id ∧ InScope db sbom i} L.id := by
    refine Exposure.covers_supersede not_older_self ?_
    rintro _ ⟨hid, t, ht, hscope, rfl⟩
    rcases Prod.Lex.le_iff.1 (latestRemaining_max hL ht hid hscope) with hlt | ⟨heq, -⟩
    · refine .inl ((older_iff hLdb).2 ((olderThan_iff hinv.owned hLdb ht).2 ?_))
      exact ⟨hscope.trans hLscope.symm, hlt⟩
    · rw [hdistinct t ht L hLdb hscope hLscope heq]
      exact .inr subset_rfl
  rintro i ⟨hid, hin⟩
  rw [hexp i hid hin, hexp L.id hLid ⟨L, hLdb, hLscope, rfl⟩]
  exact hsup i ⟨hid, hin⟩

/-- **What is open in the scope after a deletion** is what is linked on the latest SBOM that
remains. -/
theorem DeleteEffect.openInScope_iff (hdistinct : DistinctUploads db sbom) (v : Uuid) :
    OpenInScope db' sbom v ↔ ∃ L ∈ latestRemaining db sbom tie, db.LinkedOn L.id v := by
  have hmem : OpenInScope db' sbom v ↔
      ∃ i ∈ {i | i ≠ sbom.id ∧ InScope db sbom i}, v ∈ db'.exposure i := by
    constructor
    · rintro ⟨t, ht, hscope, hv⟩
      obtain ⟨ht, hid⟩ := h.mem_sboms.1 ht
      exact ⟨t.id, ⟨hid, t, ht, hscope, rfl⟩, hv⟩
    · rintro ⟨_, ⟨hid, t, ht, hscope, rfl⟩, hv⟩
      exact ⟨t, h.mem_sboms.2 ⟨ht, hid⟩, hscope, hv⟩
  rw [hmem]
  cases hL : latestRemaining db sbom tie with
  | none =>
    refine iff_of_false ?_ nofun
    rintro ⟨_, ⟨hid, t, ht, hscope, rfl⟩, -⟩
    exact latestRemaining_eq_none hL ht hid hscope
  | some L =>
    obtain ⟨hLdb, hLid, hLscope⟩ := latestRemaining_eq_some hL
    rw [(h.covers hinv hdistinct hL).exists_iff ⟨hLid, L, hLdb, hLscope, rfl⟩]
    refine (h.openOn_latestRemaining hinv hL v).trans ?_
    simp

/-! ### The scan after the deletion -/

omit hinv in
theorem DeleteEffect.olderThan {i : Uuid} : OlderThan db' sbom i ↔ OlderThan db sbom i := by
  constructor
  · rintro ⟨t, ht, hold, hid⟩
    exact ⟨t, (h.mem_sboms.1 ht).1, hold, hid⟩
  · rintro ⟨t, ht, hold, rfl⟩
    refine ⟨t, h.mem_sboms.2 ⟨ht, fun hid => ?_⟩, hold, rfl⟩
    have hself : OlderThan db sbom t.id := ⟨t, ht, hold, rfl⟩
    exact not_olderThan_self (hid ▸ hself)

/-- Closing what is open on older SBOMs does not matter if `sbom` is not the latest. -/
theorem openInScope_iff_of_not_latest (hs : sbom ∈ db.sboms) (hdistinct : DistinctUploads db sbom)
    (hlatest : ¬ IsLatest db sbom) (hsboms : d.sboms = db'.sboms)
    (hopen : ∀ i v, d.OpenOn i v → db'.OpenOn i v)
    (hkept : ∀ i v, ¬ OlderThan db sbom i → db'.OpenOn i v → d.OpenOn i v) (v : Uuid) :
    OpenInScope d sbom v ↔ OpenInScope db' sbom v := by
  constructor
  · rintro ⟨t, ht, hscope, hv⟩
    exact ⟨t, hsboms ▸ ht, hscope, hopen t.id v hv⟩
  · intro hv
    obtain ⟨L, hL, hlinked⟩ := (h.openInScope_iff hinv hdistinct v).1 hv
    obtain ⟨hLdb, hLid, hLscope⟩ := latestRemaining_eq_some hL
    refine ⟨L, hsboms ▸ h.mem_sboms.2 ⟨hLdb, hLid⟩, hLscope, hkept L.id v ?_ ?_⟩
    · exact not_olderThan_latestRemaining hinv hs hL hlatest
    · exact (h.openOn_latestRemaining hinv hL v).2 hlinked

/-- The rest of a scan that has not reconciled yet closes the scope of its deleted SBOM if that
was the latest one. -/
theorem not_openInScope_of_olderClosed (hs : sbom ∈ db.sboms) (hdistinct : DistinctUploads db sbom)
    (hlatest : IsLatest db sbom) (hd : OlderClosed sbom db' d) (v : Uuid) :
    ¬ OpenInScope d sbom v := by
  rintro ⟨t, ht, hscope, hv⟩
  rw [hd.sboms] at ht
  obtain ⟨htdb, hid⟩ := h.mem_sboms.1 ht
  refine ((hd.openOn t.id v).1 hv).2 (h.olderThan.2 ?_)
  exact hlatest.olderThan hinv hs hdistinct htdb hscope hid

end

section

variable {ws : List Write} {report : Json} {l : SBOMVulnerability}
  (hws : Unlinked db sbom (.commit sbom) ws)
  (hscan : ScanEffect sbom report inp db (db.writeAll ws))
include hws hscan

/-- The links of other SBOMs that a scan has fixed and not committed yet. -/
theorem mem_fixedKeys_iff (hl : l ∈ db.links) (ho : l.status = .OPEN) (hne : l.sbomId ≠ sbom.id) :
    l.key ∈ fixedKeys ws ↔
      OlderThan db sbom l.sbomId ∧ ¬ (db.writeAll ws).OpenOn sbom.id l.vulnerabilityId := by
  have hview : l ∈ (db.writeAll ws).links ↔ l ∈ db.links ∧ l.key ∉ fixedKeys ws :=
    Database.mem_writeAll_open hws.noLink ho
  constructor
  · intro hk
    obtain ⟨l', hl', himg⟩ := hscan.old l hl
    rcases himg with ⟨hst, -⟩ | ⟨hsup, -⟩ | ⟨-, -, rfl⟩
    · exact absurd hst.1 hne
    · exact ⟨hscan.olderThan.1 hsup.1, hsup.2.2⟩
    · exact absurd hk (hview.1 hl').2
  · rintro ⟨hold, hclosed⟩
    by_contra hk
    have hopen : (db.writeAll ws).OpenOn l.sbomId l.vulnerabilityId :=
      ⟨l, hview.2 ⟨hl, hk⟩, rfl, rfl, ho⟩
    exact hclosed ((hscan.openOn_iff.1 hopen).2.2 hold)

/-- The scan fixes no link that was fixed before, or whose vulnerability is open on its SBOM. -/
theorem not_mem_fixedKeys (hl : l ∈ db.links) (hne : l.sbomId ≠ sbom.id)
    (hcase : l.status = .FIXED ∨ (db.writeAll ws).OpenOn sbom.id l.vulnerabilityId) :
    l.key ∉ fixedKeys ws := by
  intro hk
  obtain ⟨a, ha, hakey, hao⟩ := hws.fixed l.key hk
  obtain rfl := Database.link_eq ha hl hakey
  rcases hcase with hfixed | hopen
  · exact nomatch hao.symm.trans hfixed
  · exact ((mem_fixedKeys_iff hws hscan hl hao hne).1 hk).2 hopen

variable (h : DeleteEffect sbom (latestRemaining db sbom tie) now db db')
include h

/-- A commit after the deletion closes no link of an SBOM that the scan did not reconcile. -/
theorem openOn_commit_of_not_older {i v : Uuid} (hi : ¬ OlderThan db sbom i)
    (hv : db'.OpenOn i v) : (db'.writeAll ws).OpenOn i v := by
  obtain ⟨l, hl, rfl, rfl, ho⟩ := hv
  refine (Database.openOn_writeAll hws.noLink).2 ⟨l, hl, ⟨rfl, rfl, ho⟩, fun hk => ?_⟩
  obtain ⟨a, ha, hkey, hao⟩ := hws.fixed l.key hk
  have hs : a.sbomId = l.sbomId := congrArg (·.1) hkey
  have hne : a.sbomId ≠ sbom.id := hs ▸ (h.exists_key.1 ⟨l, hl, rfl⟩).2
  exact hi (hs ▸ ((mem_fixedKeys_iff hws hscan ha hao hne).1 (hkey ▸ hk)).1)

/-- A link that the scan has not fixed, for a vulnerability linked on the latest SBOM that remains,
is reopened by the deletion and stays open. -/
theorem openInScope_commit_of_linked (hinv : SystemInvariant db) {L : SBOM}
    (hL : latestRemaining db sbom tie = some L) (hlinked : db.LinkedOn L.id l.vulnerabilityId)
    (hl : l ∈ db.links) (hne : l.sbomId ≠ sbom.id) (hin : InScope db sbom l.sbomId)
    (hcase : l.status = .FIXED ∨ (db.writeAll ws).OpenOn sbom.id l.vulnerabilityId) :
    OpenInScope (db'.writeAll ws) sbom l.vulnerabilityId := by
  obtain ⟨l', hl', himg⟩ := h.old l hl hne
  have hnot : ¬ ClosedBy db (latestRemaining db sbom tie) l := by
    rintro ⟨L', hL', -, hno⟩
    obtain rfl := Option.some.inj (hL'.symm.trans hL)
    exact hno hlinked
  have ho : l'.status = .OPEN := (himg.reopened hinv.coherent hl hnot hin).1
  have hk : l'.key ∉ fixedKeys ws := himg.key ▸ not_mem_fixedKeys hws hscan hl hne hcase
  obtain ⟨t, ht, hscope, hid⟩ := hin
  refine ⟨t, ?_, hscope, (Database.openOn_writeAll hws.noLink).2 ⟨l', hl', ?_, hk⟩⟩
  · rw [Database.writeAll_sboms]
    exact h.mem_sboms.2 ⟨ht, hid ▸ hne⟩
  · exact ⟨himg.sbomId.trans hid.symm, himg.vulnerabilityId, ho⟩

/-- What is open in the scope of the deleted SBOM, if it was the latest, when the scan commits
after the deletion. -/
theorem openInScope_commit_iff (hinv : SystemInvariant db) (hs : sbom ∈ db.sboms)
    (hdistinct : DistinctUploads db sbom) (hlatest : IsLatest db sbom) (v : Uuid) :
    OpenInScope (db'.writeAll ws) sbom v ↔ OpenInScope db' sbom v ∧
      ((db.writeAll ws).OpenOn sbom.id v ∨ ∃ l ∈ db.links, l.sbomId ≠ sbom.id ∧
        InScope db sbom l.sbomId ∧ l.vulnerabilityId = v ∧ l.status = .FIXED) := by
  constructor
  · rintro ⟨t, ht, hscope, hv⟩
    rw [Database.writeAll_sboms] at ht
    obtain ⟨l', hl', ⟨hls, rfl, ho⟩, hk⟩ := (Database.openOn_writeAll hws.noLink).1 hv
    refine ⟨⟨t, ht, hscope, l', hl', hls, rfl, ho⟩, ?_⟩
    obtain ⟨l, hl, hne, himg⟩ := h.origin l' hl'
    have hsid : l.sbomId = t.id := himg.sbomId.symm.trans hls
    have hvid : l.vulnerabilityId = l'.vulnerabilityId := himg.vulnerabilityId.symm
    obtain ⟨htdb, htid⟩ := h.mem_sboms.1 ht
    cases hst : l.status with
    | FIXED => exact .inr ⟨l, hl, hne, ⟨t, htdb, hscope, hsid.symm⟩, hvid, hst⟩
    | OPEN =>
      -- it was open all along, so the scan would have fixed it
      left
      by_contra hclosed
      refine hk (himg.key ▸ (mem_fixedKeys_iff hws hscan hl hst hne).2 ⟨?_, hvid ▸ hclosed⟩)
      exact hsid ▸ hlatest.olderThan hinv hs hdistinct htdb hscope htid
  · rintro ⟨hv, hcase⟩
    obtain ⟨L, hL, hlinked⟩ := (h.openInScope_iff hinv hdistinct v).1 hv
    obtain ⟨hLdb, hLid, hLscope⟩ := latestRemaining_eq_some hL
    rcases hcase with hview | ⟨l, hl, hne, hin, rfl, hfixed⟩
    · obtain ⟨a, ha, haL, rfl⟩ := id hlinked
      have hin : InScope db sbom a.sbomId := ⟨L, hLdb, hLscope, haL.symm⟩
      exact openInScope_commit_of_linked hws hscan h hinv hL hlinked ha (haL ▸ hLid) hin
        (.inr hview)
    · exact openInScope_commit_of_linked hws hscan h hinv hL hlinked hl hne hin (.inl hfixed)

end

/-! ### The two together -/

/-- What is open in the scope after `d` and after `db'` is the same. -/
def SameOpen (sbom : SBOM) (d db' : Database) : Prop :=
  ∀ v, OpenInScope d sbom v ↔ OpenInScope db' sbom v

section

variable (hinv : SystemInvariant db) (hs : sbom ∈ db.sboms)
  (hdistinct : DistinctUploads db sbom)
  (h : DeleteEffect sbom (latestRemaining db sbom tie) now db db')
include hinv hs hdistinct h

/-- A scan that reconciles after the deletion. -/
theorem sameOpen_olderClosed_iff (hd : OlderClosed sbom db' d) : SameOpen sbom d db' ↔
    ¬ IsLatest db sbom ∨ ∀ L ∈ latestRemaining db sbom tie, ∀ v, ¬ db.LinkedOn L.id v := by
  by_cases hlatest : IsLatest db sbom
  · simp only [hlatest, not_true_eq_false, false_or]
    have hclosed := not_openInScope_of_olderClosed hinv h hs hdistinct hlatest hd
    constructor
    · exact fun hsame L hL v hv => hclosed v
        ((hsame v).2 ((h.openInScope_iff hinv hdistinct v).2 ⟨L, hL, hv⟩))
    · intro hnone v
      refine iff_of_false (hclosed v) fun hv => ?_
      obtain ⟨L, hL, hlinked⟩ := (h.openInScope_iff hinv hdistinct v).1 hv
      exact hnone L hL v hlinked
  · refine iff_of_true ?_ (.inl hlatest)
    refine openInScope_iff_of_not_latest hinv h hs hdistinct hlatest hd.sboms
      (fun i v hv => ((hd.openOn i v).1 hv).1) fun i v hi hv => (hd.openOn i v).2 ⟨hv, ?_⟩
    rwa [h.olderThan]

/-- A scan that reconciled before the deletion and commits after it. -/
theorem sameOpen_commit_iff {ws : List Write} {report : Json}
    (hws : Unlinked db sbom (.commit sbom) ws)
    (hscan : ScanEffect sbom report inp db (db.writeAll ws)) :
    SameOpen sbom (db'.writeAll ws) db' ↔ ¬ IsLatest db sbom ∨
      ∀ L ∈ latestRemaining db sbom tie, ∀ v, db.LinkedOn L.id v →
        (db.writeAll ws).OpenOn sbom.id v ∨ ∃ l ∈ db.links, l.sbomId ≠ sbom.id ∧
          InScope db sbom l.sbomId ∧ l.vulnerabilityId = v ∧ l.status = .FIXED := by
  by_cases hlatest : IsLatest db sbom
  · simp only [hlatest, not_true_eq_false, false_or]
    have hcommit := openInScope_commit_iff hws hscan h hinv hs hdistinct hlatest
    constructor
    · exact fun hsame L hL v hv => ((hcommit v).1
        ((hsame v).2 ((h.openInScope_iff hinv hdistinct v).2 ⟨L, hL, hv⟩))).2
    · intro hcond v
      refine (hcommit v).trans (and_iff_left_of_imp fun hv => ?_)
      obtain ⟨L, hL, hlinked⟩ := (h.openInScope_iff hinv hdistinct v).1 hv
      exact hcond L hL v hlinked
  · refine iff_of_true ?_ (.inl hlatest)
    refine openInScope_iff_of_not_latest hinv h hs hdistinct hlatest
      (Database.writeAll_sboms ws) (fun i v hv => ?_) fun i v hi hv =>
        openOn_commit_of_not_older hws hscan h hi hv
    obtain ⟨l, hl, hopen, -⟩ := (Database.openOn_writeAll hws.noLink).1 hv
    exact ⟨l, hl, hopen⟩

end

/-- The deletion of a scanned SBOM leaves the same open as the deletion of the SBOM before. -/
theorem sameOpen_of_scanned {report : Json} {db₁ db₂ : Database} (hinv : SystemInvariant db)
    (hdistinct : DistinctUploads db sbom) (hscan : ScanEffect sbom report inp db db₁)
    (h₁ : DeleteEffect sbom (latestRemaining db₁ sbom tie) now db₁ db₂)
    (h : DeleteEffect sbom (latestRemaining db sbom tie) now db db') : SameOpen sbom db₂ db' := by
  intro v
  have hdistinct₁ : DistinctUploads db₁ sbom := by
    unfold DistinctUploads
    rw [hscan.sboms]
    exact hdistinct
  rw [h₁.openInScope_iff (hscan.invariant hinv) hdistinct₁, h.openInScope_iff hinv hdistinct,
    latestRemaining_congr hscan.sboms]
  refine exists_congr fun L => and_congr_right fun hL => ?_
  exact hscan.linkedOn (latestRemaining_eq_some hL).2.1

theorem sbom?_eq_none {pc : ScanPc} (h : pc.sbom? = none) : pc = .load := by
  cases pc with
  | load => rfl
  | _ => cases h

/-- The writes pending before anything is reconciled do not matter once the SBOM is gone. -/
theorem Unlinked.openOn_deleted {pc : ScanPc} {ws : List Write} {latest : Option SBOM}
    (hws : Unlinked db sbom pc ws) (hpc : ∀ t, pc ≠ .commit t)
    (h : DeleteEffect sbom latest now db db') (i v : Uuid) :
    (db'.writeAll ws).OpenOn i v ↔ db'.OpenOn i v := by
  refine (Database.openOn_writeAll hws.noLink).trans (exists_congr fun l => ?_)
  refine and_congr_right fun hl => and_iff_left fun hk => ?_
  exact (h.exists_key.1 ⟨l, hl, rfl⟩).2 (hws.own hpc l.key hk)

/-- The scan was running when its SBOM was deleted, and commits `d`. -/
theorem sameOpen_running_iff {pc : ScanPc} (hinv : SystemInvariant db) (hs : sbom ∈ db.sboms)
    (hdistinct : DistinctUploads db sbom)
    (h : DeleteEffect sbom (latestRemaining db sbom tie) now db db')
    (hund : Undisturbed env db sbom inp s) (hpc : s.status = .running pc)
    (hws : Unlinked db sbom pc s.pending)
    (hd : scanRest env (env.strUuid sbom.id) inp pc (db'.writeAll s.pending) = some d) :
    SameOpen sbom d db' ↔ DeleteHarmless db sbom (latestRemaining db sbom tie) s := by
  have hno : ∀ t ∈ (db'.writeAll s.pending).sboms, t.id ≠ sbom.id := fun t ht => by
    rw [Database.writeAll_sboms] at ht
    exact (h.mem_sboms.1 ht).2
  have hrunning : ¬ s.Ended := fun hend => hend pc hpc
  simp only [DeleteHarmless, hrunning, false_or, hpc, Status.running.injEq]
  -- the scan has reconciled before the deletion, or is going to reconcile after it
  by_cases hcommit : pc = .commit sbom
  · obtain rfl := hcommit
    obtain rfl := Option.some.inj hd
    have hview := hund.view hpc
    have hresult : s.result Database.write (scanRest env (env.strUuid sbom.id) inp) =
        some (db.writeAll s.pending) := by
      simp only [Session.result, hpc, hview]
      rfl
    obtain ⟨report, hscan⟩ := hund.scanEffect hs hresult
    simp only [true_and, hview]
    exact sameOpen_commit_iff hinv hs hdistinct h hws hscan
  · simp only [hcommit, false_and, imp_false]
    have hne : ∀ t, pc ≠ .commit t := by
      rintro t rfl
      exact hcommit (congrArg _ ((hund.running _ hpc).1 t rfl))
    refine sameOpen_olderClosed_iff hinv hs hdistinct h ?_
    cases hsb : pc.sbom? with
    | none =>
      obtain rfl := sbom?_eq_none hsb
      rw [scanRest_load_deleted hno] at hd
      cases hd
    | some t =>
      obtain rfl := (hund.running _ hpc).1 t hsb
      refine (scanRest_deleted hno hsb hne hd).congr (Database.writeAll_sboms _) ?_
      exact hws.openOn_deleted hne h

/-- **A scan of an SBOM that is deleted meanwhile.**  For every interleaving of the scan with a
successful deletion of its SBOM, the same is open in the scope as after the deletion alone if and
only if the scan is rolled back or the deletion falls where it does no harm. -/
theorem scan_of_deleted_iff {w : World} (hw : (system env).Reachable w) (hs : sbom ∈ w.db.sboms)
    (hdistinct : DistinctUploads w.db sbom) (inp : ScanInput) {s₁ s₂ s₃ : ScanSession}
    (hbefore : (scanDelete env w.db sbom.id inp).Reachable s₁)
    (hdel : (scanDelete env w.db sbom.id inp).step s₁ (.delete tie now) = some s₂)
    (hafter : ((scanDelete env w.db sbom.id inp).startingAt s₂).Reachable s₃)
    (hend : s₃.Ended) :
    ∃ alone, deleteSbom w.db sbom.id tie now = .ok alone ∧
      ((∀ v, OpenInScope s₃.store sbom v ↔ OpenInScope alone sbom v) ↔
        s₃.status = .rolledBack ∨
          DeleteHarmless w.db sbom (latestRemaining w.db sbom tie) s₁) := by
  have hinv := systemInvariant hw
  obtain ⟨alone, halone, heffect⟩ := deleteSbom_effect hinv hs tie now
  refine ⟨alone, halone, ?_⟩
  obtain ⟨⟨⟩, -⟩ | ⟨_, _, db', ⟨⟩, hlink, hdb', rfl⟩ := scanDelete_cases hdel
  rcases undisturbed_or_deleted hinv hs hbefore with hund | hno
  swap
  · obtain ⟨t, ht, hid⟩ := exists_of_deleteSbom hdb'
    exact absurd hid (hno t ht)
  obtain ⟨hinv₁, hs₁⟩ := hund.stored hinv hs
  obtain ⟨db'', hdb'', heffect₁⟩ := deleteSbom_effect hinv₁ hs₁ tie now
  obtain rfl := Except.ok.inj (hdb'.symm.trans hdb'')
  have hcont := continues_of_deleted (fun t ht => (heffect₁.mem_sboms.1 ht).2) hafter
  cases hst : s₁.status with
  | running pc =>
    have hstore : s₁.store = w.db := hund.store (Session.ne_committed_of_running hst)
    rw [hstore] at hdb'
    obtain rfl := Except.ok.inj (halone.symm.trans hdb')
    rcases Session.result_eq_of_ended hend with ⟨hcommitted, hresult⟩ | ⟨hrolled, -⟩
    · have hws := ((hund.running pc hst).2).resolve_left (by simp [hlink])
      have hrest := hcont.result.symm.trans hresult
      simp only [Session.result, hst] at hrest
      simp only [hcommitted, reduceCtorEq, false_or]
      exact sameOpen_running_iff hinv hs hdistinct heffect hund hst hws hrest
    · rw [hcont.store (Session.ne_committed_of_rolledBack hrolled)]
      exact iff_of_true (fun v => Iff.rfl) (.inl hrolled)
  -- the scan came first; the deletion forgets what it fixed
  | committed =>
    have hended : s₁.Ended := fun pc hpc => Session.ne_committed_of_running hpc hst
    rw [hcont.store_of_ended hended hend]
    have hresult : s₁.result Database.write (scanRest env (env.strUuid sbom.id) inp) =
        some s₁.store := by
      simp only [Session.result, hst]
    obtain ⟨report, hscan⟩ := hund.scanEffect hs hresult
    exact iff_of_true (sameOpen_of_scanned hinv hdistinct hscan heffect₁ heffect)
      (.inr (.inl hended))
  | rolledBack =>
    have hended : s₁.Ended := fun pc hpc => by rw [hst] at hpc; cases hpc
    rw [hcont.store_of_ended hended hend]
    rw [hund.store (Session.ne_committed_of_rolledBack hst)] at hdb'
    obtain rfl := Except.ok.inj (halone.symm.trans hdb')
    exact iff_of_true (fun v => Iff.rfl) (.inr (.inl hended))

/-- Two releases, of which the older one is not scanned yet. -/
def demoUnscanned : World :=
  demo [demoProject, demoUpload 1 10 100, demoUpload 2 11 200, demoScan 11 [1, 1] 210]
    (by decide +kernel)

/-- The older one is deleted after its scan has loaded it. -/
theorem scan_of_deleted_iff_demo :
    let w := demoUnscanned
    let M := scanDelete demoEnv w.db 10 (demoInput [2, 2] 220)
    ∃ s₁ s₂ s₃ alone, M.Reachable s₁ ∧ M.step s₁ (.delete (fun _ => 0) 230) = some s₂ ∧
      (M.startingAt s₂).Reachable s₃ ∧ s₃.Ended ∧
        deleteSbom w.db 10 (fun _ => 0) 230 = .ok alone ∧
          ∃ sbom ∈ w.db.sboms, sbom.id = 10 ∧
            ∀ v, OpenInScope s₃.store sbom v ↔ OpenInScope alone sbom v := by
  intro w M
  obtain ⟨sbom, hs, hid, hdistinct, hlatest⟩ : ∃ s ∈ w.db.sboms, s.id = 10 ∧
      DistinctUploads w.db s ∧ ¬ IsLatest w.db s := by
    decide +kernel
  obtain ⟨s₁, h₁, s₂, hdel, s₃, h₃, hend⟩ : ∃ s₁, M.run M.init [.scan] = some s₁ ∧
      ∃ s₂, M.step s₁ (.delete (fun _ => 0) 230) = some s₂ ∧
        ∃ s₃, (M.startingAt s₂).run s₂ (.replicate 7 .scan) = some s₃ ∧ s₃.Ended := by
    decide +kernel
  have hbefore : M.Reachable s₁ := Machine.Reaches.init.run (Machine.allowed_true _ _) h₁
  have hafter : (M.startingAt s₂).Reachable s₃ :=
    Machine.Reaches.init.run (Machine.allowed_true _ _) h₃
  refine ⟨s₁, s₂, s₃, ?_⟩
  subst M
  rw [← hid] at hbefore hdel hafter ⊢
  obtain ⟨alone, halone, hiff⟩ :=
    scan_of_deleted_iff demo_reachable hs hdistinct _ hbefore hdel hafter hend
  exact ⟨alone, hbefore, hdel, hafter, hend, halone, sbom, hs, rfl,
    hiff.2 (.inr (.inr (.inl hlatest)))⟩

/-- The newest release is deleted while grype runs: the scan reports what is open on the release
before, and fixes it. -/
theorem scan_of_deleted_fixes :
    ∃ w, (system demoEnv).Reachable w ∧ ∃ sbom ∈ w.db.sboms, DistinctUploads w.db sbom ∧
      ∃ inp tie now s₁ s₂ s₃ alone, (scanDelete demoEnv w.db sbom.id inp).Reachable s₁ ∧
        (scanDelete demoEnv w.db sbom.id inp).step s₁ (.delete tie now) = some s₂ ∧
          ((scanDelete demoEnv w.db sbom.id inp).startingAt s₂).Reachable s₃ ∧ s₃.Ended ∧
            deleteSbom w.db sbom.id tie now = .ok alone ∧
              OpenInScope alone sbom 1 ∧ ¬ OpenInScope s₃.store sbom 1 := by
  refine ⟨demoUploaded, demo_reachable, ?_⟩
  obtain ⟨sbom, hs, hid, hdistinct, s₁, h₁, s₂, hdel, s₃, h₃, hend, alone, halone, ho, hno⟩ :
      ∃ s ∈ demoUploaded.db.sboms, s.id = 11 ∧ DistinctUploads demoUploaded.db s ∧
        ∃ s₁, (scanDelete demoEnv demoUploaded.db s.id (demoInput [1, 1] 220)).run
            (.start demoUploaded.db .load) [.scan] = some s₁ ∧
          ∃ s₂, (scanDelete demoEnv demoUploaded.db s.id (demoInput [1, 1] 220)).step s₁
              (.delete (fun _ => 0) 230) = some s₂ ∧
            ∃ s₃, ((scanDelete demoEnv demoUploaded.db s.id
                (demoInput [1, 1] 220)).startingAt s₂).run s₂
                  (.replicate 7 .scan) = some s₃ ∧ s₃.Ended ∧
              ∃ alone, deleteSbom demoUploaded.db s.id (fun _ => 0) 230 = .ok alone ∧
                OpenInScope alone s 1 ∧ ¬ OpenInScope s₃.store s 1 := by
    decide +kernel
  exact ⟨sbom, hs, hdistinct, demoInput [1, 1] 220, fun _ => 0, 230, s₁, s₂, s₃, alone,
    Machine.Reaches.init.run (Machine.allowed_true _ _) h₁, hdel,
    Machine.Reaches.init.run (Machine.allowed_true _ _) h₃, hend, halone, ho, hno⟩

end ArgusSbomGuard
