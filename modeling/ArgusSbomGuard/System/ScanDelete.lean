import ArgusSbomGuard.Scan.Steps
import ArgusSbomGuard.Sbom.DeleteOutcome

/-!
# A scan and a deletion, interleaved

`do_scan_sbom` and `delete_sbom` for one SBOM.  The deletion is one step; it waits while the scan
has inserted a link of the SBOM and not committed yet, since that row refers to the row to be
deleted.  Other waits are left out, so that all interleavings the database allows are there.

Until the deletion the scan is `Undisturbed`: it commits what `doScanSbom` computes, and as long as
it has inserted no link its pending writes fix links that are open (`Unlinked`).  After the
deletion only the scan goes on (`Continues`).

## Main definitions

* `scanDelete` : the machine of the two.
* `Undisturbed` : the invariant of the scan before the deletion.
-/

namespace ArgusSbomGuard

/-- Some of the writes inserts a link of SBOM `i`. -/
def insertsLink (ws : List Write) (i : Uuid) : Bool :=
  ws.any fun
    | .addLink l => l.sbomId == i
    | _ => false

/-- A scan in progress. -/
abbrev ScanSession := Session Database Write ScanPc

/-- A step of the scan, or the deletion. -/
inductive ScanDelete
  | scan
  | delete (tie : Uuid → ℕ) (now : DateTime)

/-- The scan of the SBOM `sbomId` and its deletion, which is possible when it succeeds and the
scan does not hold the row. -/
def scanDelete (env : Env) (db : Database) (sbomId : Uuid) (inp : ScanInput) :
    Machine ScanSession ScanDelete where
  init := .start db .load
  step s
    | .scan => s.step Database.write (scanRoutine env (env.strUuid sbomId) inp)
    | .delete tie now =>
      -- the new link holds a lock on the row of its SBOM until the scan ends
      if insertsLink s.pending sbomId then none
      else match deleteSbom s.store sbomId tie now with
        | .ok db => some { s with store := db }
        | .error _ => none

/-- The writes of a scan of `sbom` that has not inserted a link: they fix open links only, and
those of `sbom` only as long as nothing is reconciled. -/
structure Unlinked (db : Database) (sbom : SBOM) (pc : ScanPc) (ws : List Write) : Prop where
  noLink : ∀ l, .addLink l ∉ ws
  fixed : ∀ k ∈ fixedKeys ws, ∃ l ∈ db.links, l.key = k ∧ l.status = .OPEN
  own : (∀ s, pc ≠ .commit s) → ∀ k ∈ fixedKeys ws, k.1 = sbom.id

/-- A scan of `sbom` on the database `db`, as long as nobody disturbs it. -/
structure Undisturbed (env : Env) (db : Database) (sbom : SBOM) (inp : ScanInput)
    (s : ScanSession) : Prop where
  store : s.status ≠ .committed → s.store = db
  result : s.result Database.write (scanRest env (env.strUuid sbom.id) inp) =
    committedDatabase (doScanSbom env db (env.strUuid sbom.id) inp)
  running : ∀ pc, s.status = .running pc → (∀ t ∈ pc.sbom?, t = sbom) ∧
    (insertsLink s.pending sbom.id = true ∨ Unlinked db sbom pc s.pending)

variable {env : Env} {db db' d : Database} {sbom : SBOM} {inp : ScanInput} {tie : Uuid → ℕ}
  {now : DateTime} {s s' : ScanSession}

/-! ### The scan before the deletion -/

theorem Unlinked.append {pc pc' : ScanPc} {ws ws' : List Write} (h : Unlinked db sbom pc ws)
    (hno : ∀ l, .addLink l ∉ ws')
    (hfixed : ∀ k ∈ fixedKeys ws', ∃ l ∈ (db.writeAll ws).links, l.key = k ∧ l.status = .OPEN)
    (hown : (∀ s, pc' ≠ .commit s) →
      (∀ s, pc ≠ .commit s) ∧ ∀ k ∈ fixedKeys ws', k.1 = sbom.id) :
    Unlinked db sbom pc' (ws ++ ws') where
  noLink l hl := (List.mem_append.1 hl).elim (h.noLink l) (hno l)
  fixed k hk := by
    rw [fixedKeys_append, List.mem_append] at hk
    rcases hk with hk | hk
    · exact h.fixed k hk
    · obtain ⟨l, hl, hkey, ho⟩ := hfixed k hk
      exact ⟨l, ((Database.mem_writeAll_open h.noLink ho).1 hl).1, hkey, ho⟩
  own hpc' k hk := by
    rw [fixedKeys_append, List.mem_append] at hk
    rcases hk with hk | hk
    · exact h.own (hown hpc').1 k hk
    · exact (hown hpc').2 k hk

/-- A step of the scan inserts its first link, or it still has none. -/
theorem Unlinked.step {pc pc' : ScanPc} {ws ws' : List Write} {sbomId : String}
    (h : Unlinked db sbom pc ws) (hpc : ∀ t ∈ pc.sbom?, t = sbom)
    (hstep : ScanStep env sbomId inp (db.writeAll ws) pc ws' pc') :
    insertsLink ws' sbom.id = true ∨ Unlinked db sbom pc' (ws ++ ws') := by
  cases hstep with
  | load hs hid => exact .inr (h.append nofun nofun fun _ => ⟨nofun, nofun⟩)
  | store hpc hpc' hbefore hafter hws =>
    refine .inr (h.append (fun l hl => hws _ hl) ?_ fun _ => ⟨hbefore, ?_⟩)
    · rw [fixedKeys_eq_nil hws]
      exact nofun
    · rw [fixedKeys_eq_nil hws]
      exact nofun
  | @link t g v ms vulns purl i =>
    obtain rfl := hpc t rfl
    simp [insertsLink, newLink]
  | @retire t vulns =>
    obtain rfl := hpc t rfl
    have hfixed : fixedKeys [retireStaleVulnerabilities (db.writeAll ws) t (reportedIds vulns)
        inp.retiredAt] = _ := List.flatMap_singleton ..
    refine .inr (h.append (fun l hl => ?_) ?_ fun _ => ⟨nofun, ?_⟩)
    · exact retireStaleVulnerabilities_ne_addLink l (List.mem_singleton.1 hl)
    · intro k hk
      obtain ⟨l, hl, hkey, -, ho⟩ := fixed_retireStaleVulnerabilities (hfixed ▸ hk)
      exact ⟨l, hl, hkey, ho⟩
    · intro k hk
      obtain ⟨l, -, rfl, hls, -⟩ := fixed_retireStaleVulnerabilities (hfixed ▸ hk)
      exact hls
  | @reconcile t =>
    refine .inr (h.append addLink_not_mem_reconcileVulnerabilities
      (fun k hk => fixedKeys_reconcileVulnerabilities hk) fun hpc' => absurd rfl (hpc' t))

/-- What an undisturbed scan commits is the result of a scan. -/
theorem Undisturbed.scanEffect (h : Undisturbed env db sbom inp s) (hs : sbom ∈ db.sboms)
    (hd : s.result Database.write (scanRest env (env.strUuid sbom.id) inp) = some d) :
    ∃ report, ScanEffect sbom report inp db d := by
  rw [h.result] at hd
  unfold committedDatabase at hd
  split at hd
  · rename_i d' hscan
    cases hd
    obtain ⟨t, ht, hid, report, -, heffect⟩ := doScanSbom_scanned hscan
    rw [env.parseUuid_strUuid] at hid
    obtain rfl := Database.sbom_eq hs ht (Option.some.inj hid)
    exact ⟨report, heffect⟩
  · cases hd

/-- A step of the scan works with the SBOM it was asked for. -/
theorem ScanStep.own {pc pc' : ScanPc} {ws : List Write} (hs : sbom ∈ db.sboms)
    (hstep : ScanStep env (env.strUuid sbom.id) inp db pc ws pc')
    (hpc : ∀ t ∈ pc.sbom?, t = sbom) : ∀ t ∈ pc'.sbom?, t = sbom := by
  rintro t ht
  cases hstep with
  | load hmem hid =>
    obtain rfl := Option.some.inj ht
    rw [env.parseUuid_strUuid] at hid
    exact (Database.sbom_eq hs hmem (Option.some.inj hid)).symm
  | store hown hown' _ _ _ => exact hpc t (hown.trans (hown'.symm.trans ht))
  | link => exact hpc t ht
  | retire => exact hpc t ht
  | reconcile => exact hpc t ht

theorem undisturbed_start : Undisturbed env db sbom inp (.start db .load) where
  store _ := rfl
  result := rfl
  running pc hpc := by
    cases hpc
    exact ⟨nofun, .inr ⟨nofun, nofun, fun _ => nofun⟩⟩

/-- As long as nobody disturbs the scan, its transaction works on the database it began with. -/
theorem Undisturbed.view (h : Undisturbed env db sbom inp s) {pc : ScanPc}
    (hpc : s.status = .running pc) : s.view Database.write = db.writeAll s.pending := by
  rw [← h.store (Session.ne_committed_of_running hpc)]
  rfl

theorem Undisturbed.step (h : Undisturbed env db sbom inp s) (hs : sbom ∈ db.sboms)
    (hst : s.step Database.write (scanRoutine env (env.strUuid sbom.id) inp) = some s') :
    Undisturbed env db sbom inp s' := by
  have hresult := (Session.result_step scanRest_evaluates hst).trans h.result
  obtain ⟨pc, hpc, hcase⟩ := Session.step_cases hst
  have hstore : s.store = db := h.store (Session.ne_committed_of_running hpc)
  rcases hcase with ⟨ws, pc', hout, rfl⟩ | ⟨-, rfl⟩ | ⟨-, rfl⟩
  · rw [h.view hpc] at hout
    have hstep := scanStep_of_next hout
    obtain ⟨hown, hpending⟩ := h.running pc hpc
    refine ⟨fun _ => hstore, hresult, ?_⟩
    rintro _ ⟨⟩
    refine ⟨hstep.own (by simpa using hs) hown, ?_⟩
    unfold insertsLink at *
    rw [List.any_append, Bool.or_eq_true]
    rcases hpending with hlink | hno
    · exact .inl (.inl hlink)
    · exact (hno.step hown hstep).imp .inr id
  · exact ⟨fun hc => absurd rfl hc, hresult, fun _ hpc => by cases hpc⟩
  · exact ⟨fun _ => hstore, hresult, fun _ hpc => by cases hpc⟩

/-! ### Runs -/

theorem scanDelete_cases {n : Uuid} {a : ScanDelete}
    (hst : (scanDelete env db n inp).step s a = some s') :
    (a = .scan ∧ s.step Database.write (scanRoutine env (env.strUuid n) inp) = some s') ∨
      ∃ tie now db', a = .delete tie now ∧ insertsLink s.pending n = false ∧
        deleteSbom s.store n tie now = .ok db' ∧ s' = { s with store := db' } := by
  cases a with
  | scan => exact .inl ⟨rfl, hst⟩
  | delete tie now =>
    simp only [scanDelete] at hst
    split at hst
    · cases hst
    rename_i hlink
    split at hst
    · rename_i db' hdel
      exact .inr ⟨tie, now, db', rfl, by simpa using hlink, hdel, (Option.some.inj hst).symm⟩
    · cases hst

theorem exists_of_deleteSbom {n : Uuid} (h : deleteSbom db n tie now = .ok db') :
    ∃ t ∈ db.sboms, t.id = n := by
  unfold deleteSbom at h
  split at h
  · cases h
  rename_i t hfind
  obtain ⟨ht, hid⟩ := Table.mem_of_find? hfind
  exact ⟨t, ht, beq_iff_eq.1 hid⟩

theorem sboms_of_step {sbomId : String}
    (h : s.step Database.write (scanRoutine env sbomId inp) = some s') :
    s'.store.sboms = s.store.sboms := by
  obtain ⟨pc, -, ⟨ws, pc', -, rfl⟩ | ⟨-, rfl⟩ | ⟨-, rfl⟩⟩ := Session.step_cases h
  · rfl
  · exact Database.writeAll_sboms s.pending
  · rfl

theorem Undisturbed.stored (h : Undisturbed env db sbom inp s) (hinv : SystemInvariant db)
    (hs : sbom ∈ db.sboms) : SystemInvariant s.store ∧ sbom ∈ s.store.sboms := by
  by_cases hst : s.status = .committed
  · have hresult : s.result Database.write (scanRest env (env.strUuid sbom.id) inp) =
        some s.store := by
      simp only [Session.result, hst]
    obtain ⟨report, heffect⟩ := h.scanEffect hs hresult
    exact ⟨heffect.invariant hinv, heffect.sboms ▸ hs⟩
  · rw [h.store hst]
    exact ⟨hinv, hs⟩

/-- A run in which the SBOM is still there has not disturbed its scan. -/
theorem undisturbed_or_deleted (hinv : SystemInvariant db) (hs : sbom ∈ db.sboms)
    (h : (scanDelete env db sbom.id inp).Reachable s) :
    Undisturbed env db sbom inp s ∨ ∀ t ∈ s.store.sboms, t.id ≠ sbom.id := by
  -- by induction on the run: the scan steps until a deletion, and a second deletion fails
  unfold Machine.Reachable at h
  induction h with
  | init => exact .inl undisturbed_start
  | step _ _ hst ih =>
    rcases scanDelete_cases hst with ⟨-, hst⟩ | ⟨tie, now, db', -, -, hdel, rfl⟩
    · rcases ih with hund | hno
      · exact .inl (hund.step hs hst)
      · exact .inr (sboms_of_step hst ▸ hno)
    · rcases ih with hund | hno
      · obtain ⟨hinv', hs'⟩ := hund.stored hinv hs
        obtain ⟨t, ht, hid, heffect⟩ := deleteSbom_eq_ok hinv'.owned hdel
        exact .inr fun r hr => hid ▸ (heffect.mem_sboms.1 hr).2
      · obtain ⟨t, ht, hid⟩ := exists_of_deleteSbom hdel
        exact absurd hid (hno t ht)

/-- What stays the same from `s` on once the SBOM is gone. -/
structure Continues (env : Env) (n : Uuid) (inp : ScanInput) (s s' : ScanSession) : Prop where
  sboms : s'.store.sboms = s.store.sboms
  store : s'.status ≠ .committed → s'.store = s.store
  result : s'.result Database.write (scanRest env (env.strUuid n) inp) =
    s.result Database.write (scanRest env (env.strUuid n) inp)

/-- A scan that is over does not go on. -/
theorem Continues.store_of_ended {n : Uuid} (h : Continues env n inp s s') (hs : s.Ended)
    (hs' : s'.Ended) : s'.store = s.store := by
  rcases Session.result_eq_of_ended hs' with ⟨-, hresult'⟩ | ⟨hrolled, -⟩
  · rcases Session.result_eq_of_ended hs with ⟨-, hresult⟩ | ⟨-, hresult⟩
    · exact Option.some.inj (hresult'.symm.trans (h.result.trans hresult))
    · exact nomatch hresult'.symm.trans (h.result.trans hresult)
  · exact h.store (Session.ne_committed_of_rolledBack hrolled)

/-- After the deletion only the scan goes on. -/
theorem continues_of_deleted {n : Uuid} (hno : ∀ t ∈ s.store.sboms, t.id ≠ n)
    (h : ((scanDelete env db n inp).startingAt s).Reachable s') : Continues env n inp s s' := by
  refine h.invariant ⟨rfl, fun _ => rfl, rfl⟩ fun t a t' ht _ hst => ?_
  change (scanDelete env db n inp).step t a = some t' at hst
  rcases scanDelete_cases hst with ⟨-, hst⟩ | ⟨tie, now, db', -, -, hdel, rfl⟩
  · refine ⟨(sboms_of_step hst).trans ht.sboms, fun hnc => ?_,
      (Session.result_step scanRest_evaluates hst).trans ht.result⟩
    obtain ⟨pc, hpc, -⟩ := Session.step_cases hst
    exact (Session.store_step hst hnc).trans (ht.store (Session.ne_committed_of_running hpc))
  · obtain ⟨r, hr, hid⟩ := exists_of_deleteSbom hdel
    exact absurd hid (hno r (ht.sboms ▸ hr))

end ArgusSbomGuard
