import ArgusSbomGuard.System.Invariant

/-!
# Runs up to an instant

The actions that happened by an instant read the clock at that instant or before
(`Action.NotAfter`).  Such runs leave no link that was fixed later (`FixedBefore`).
-/

namespace ArgusSbomGuard

/-- The readings of the clock in an action; `prune_sboms` only asks for the day. -/
def Action.readings : Action → List DateTime
  | .uploadSbom _ inp => [inp.now]
  | .grpcUploadSbom _ inp => [inp.now]
  | .scanSbom _ inp => [inp.retiredAt, inp.reconciledAt]
  | .deleteSbom _ _ now => [now]
  | .pruneSboms _ today => [today.start]
  | .createRiskAcceptance _ _ now => [now]
  | _ => []

/-- The action happened by `now`. -/
def Action.NotAfter (now : DateTime) (a : Action) : Prop := ∀ t ∈ a.readings, t ≤ now

instance (now : DateTime) (a : Action) : Decidable (a.NotAfter now) :=
  inferInstanceAs (Decidable (∀ t ∈ a.readings, t ≤ now))

/-- No link was fixed after `now`. -/
def FixedBefore (now : DateTime) (db : Database) : Prop :=
  ∀ l ∈ db.links, ∀ t ∈ l.fixedAt, t ≤ now

instance (now : DateTime) (db : Database) : Decidable (FixedBefore now db) :=
  inferInstanceAs (Decidable (∀ l ∈ db.links, _))

variable {env : Env} {now : DateTime} {db db' : Database} {sbom : SBOM} {w w' : World}

theorem ScanEffect.fixedBefore {report : Json} {inp : ScanInput}
    (h : ScanEffect sbom report inp db db') (hfixed : FixedBefore now db)
    (hretired : inp.retiredAt ≤ now) (hreconciled : inp.reconciledAt ≤ now) :
    FixedBefore now db' := by
  intro l' hl' t ht
  rcases h.origin l' hl' with ⟨l, hl, himg⟩ | ⟨purl, c, i, -, -, -, rfl⟩
  · rcases himg with ⟨-, rfl⟩ | ⟨-, rfl⟩ | ⟨-, -, rfl⟩
    · obtain rfl := Option.some.inj ht
      exact hretired
    · obtain rfl := Option.some.inj ht
      exact hreconciled
    · exact hfixed l' hl t ht
  · cases ht

theorem DeleteEffect.fixedBefore {latest : Option SBOM} {deletedAt : DateTime}
    (h : DeleteEffect sbom latest deletedAt db db') (hfixed : FixedBefore now db)
    (hnow : deletedAt ≤ now) : FixedBefore now db' := by
  intro l' hl' t ht
  obtain ⟨l, hl, -, himg⟩ := h.origin l' hl'
  rcases himg with ⟨-, rfl⟩ | ⟨-, -, rfl⟩ | ⟨-, -, rfl⟩
  · obtain rfl := Option.some.inj ht
    exact hnow
  · split_ifs at ht with hst
    · cases ht
    · exact hfixed l hl t ht
  · exact hfixed l' hl t ht

theorem fixedBefore_step {a : Action} (howned : ServiceOwned w.db) (hfixed : FixedBefore now w.db)
    (hnow : a.NotAfter now) (hst : World.step env w a = some w') : FixedBefore now w'.db := by
  cases step_changed howned hst with
  | trimmed h => exact fun l hl => hfixed l (h.links l hl)
  | stored h => exact fun l hl => hfixed l (h.links ▸ hl)
  | scanned ha _ h =>
    subst ha
    exact h.fixedBefore hfixed (hnow _ List.mem_cons_self)
      (hnow _ (List.mem_cons_of_mem _ List.mem_cons_self))
  | deleted ha h =>
    subst ha
    exact h.fixedBefore hfixed (hnow _ List.mem_cons_self)

/-- A run up to `now` leaves nothing that was fixed later. -/
theorem fixedBefore {w₀ : World} (hinv : SystemInvariant w₀.db) (hfixed : FixedBefore now w₀.db)
    (hw : ((system env).startingAt w₀).Reaches (fun _ a => a.NotAfter now) w) :
    FixedBefore now w.db :=
  hw.invariant_under (I := fun w => SystemInvariant w.db) hinv
    (fun _ _ _ => systemInvariant_step) hfixed fun _ _ _ hinv => fixedBefore_step hinv.owned

end ArgusSbomGuard
