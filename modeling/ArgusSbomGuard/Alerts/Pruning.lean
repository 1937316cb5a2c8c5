import ArgusSbomGuard.Alerts.Effect
import ArgusSbomGuard.Listing.View

/-!
# The check and retention

The check of the alerts goes through what is open, so that on two databases with the same view it
does the same, apart from the order in which the pairs of a set come (`SameView.simulates`).
Retention keeps the view where the latest SBOMs are scanned: it causes no message and keeps none
back, and the order of the two scheduled tasks does not matter (`prune_unannounced`).

## Main definitions

* `CheckRun.seen` : what a run sends and stores.
* `Simulates` : what the checks on one database do, the checks on the other one can do.
-/

namespace ArgusSbomGuard

/-- The deliveries of a run with their outcomes, and the notifications that it stores. -/
def CheckRun.seen (run : CheckRun) :
    List ((Uuid × Uuid) × DeliveryOutcome) × Except PyError (List Notification) :=
  (run.attempts.map fun a => (a.pair, a.outcome), run.result)

/-- What a check does on `db'`, one on `db` does in some order of the open pairs, with the same
settings, rules, notifications and channels. -/
def Simulates (env : Env) (db db' : Database) : Prop :=
  ∀ (lib : MailLibrary) (inp : CheckInput) (rules : Table AlertRule) (ns : List Notification),
    ∃ pairOrder, (doCheckAlerts env db' lib inp rules ns).seen =
      (doCheckAlerts env db lib { inp with pairOrder } rules ns).seen

variable {env : Env} {db db' : Database} {lib : MailLibrary} {inp : CheckInput}

/-- An arrangement that takes one order of a list for another. -/
def Arrangement.sending {α : Type} [DecidableEq α] (xs ys : List α) (h : ys.Perm xs) :
    Arrangement α where
  order zs := if zs = xs then ys else zs
  perm zs := by
    split_ifs with heq
    · rwa [heq]
    · exact .refl zs

@[simp] theorem Arrangement.order_sending {α : Type} [DecidableEq α] {xs ys : List α}
    (h : ys.Perm xs) : (Arrangement.sending xs ys h).order xs = ys := if_pos rfl

namespace SameView

variable (h : SameView db db')
include h

theorem openPairs_perm : (openPairs db').Perm (openPairs db) := by
  have hmem : ∀ pair, pair ∈ openPairs db' ↔ pair ∈ openPairs db := by
    rintro ⟨p, v⟩
    rw [mem_openPairs, mem_openPairs, h.openIn]
  exact (List.perm_ext_iff_of_nodup (List.nodup_dedup _) (List.nodup_dedup _)).2 hmem

/-- The services of a finding are the same, and they are sorted. -/
theorem currentServices_eq (p v : Uuid) :
    currentServices env db' p v = currentServices env db p v := by
  have hsorted : ∀ xs : List String,
      (xs.insertionSort fun a b => a ≤ b).Pairwise fun a b => a ≤ b :=
    List.pairwise_insertionSort _
  have hnodup : ∀ db, (currentServices env db p v).Nodup := fun db =>
    (List.perm_insertionSort _ _).nodup_iff.2 (List.nodup_dedup _)
  have hmem : ∀ service, service ∈ currentServices env db' p v ↔
      service ∈ currentServices env db p v := by
    intro service
    simp only [mem_currentServices, h.scopes]
  exact List.Perm.eq_of_pairwise' (hsorted _) (hsorted _)
    ((List.perm_ext_iff_of_nodup (hnodup db') (hnodup db)).2 hmem)

/-- A delivery depends neither on the database nor on the order of the pairs. -/
theorem deliverPair_eq (pairOrder : Arrangement (Uuid × Uuid)) (alert : AlertRule)
    (vuln : Vulnerability) :
    deliverPair env db' lib inp alert vuln =
      deliverPair env db lib { inp with pairOrder } alert vuln := by
  rw [deliverPair, deliverPair, h.projects, h.services, h.currentServices_eq]

/-- The loop of the check does the same in the same visits. -/
theorem checkVisits_seen (pairOrder : Arrangement (Uuid × Uuid))
    (visits : List (AlertRule × Vulnerability)) (rows added : List Notification) :
    (checkVisits env db' lib inp visits rows added).seen =
      (checkVisits env db lib { inp with pairOrder } visits rows added).seen := by
  induction visits generalizing rows added with
  | nil => rfl
  | cons visit visits ih =>
    obtain ⟨alert, vuln⟩ := visit
    have hdeliver : deliverPair env db' lib inp alert vuln =
        deliverPair env db lib { inp with pairOrder } alert vuln :=
      h.deliverPair_eq pairOrder alert vuln
    have hattempt : ((attemptFor env db' lib inp alert vuln).pair,
        (attemptFor env db' lib inp alert vuln).outcome) =
          ((attemptFor env db lib { inp with pairOrder } alert vuln).pair,
            (attemptFor env db lib { inp with pairOrder } alert vuln).outcome) := by
      simp only [attemptFor, Attempt.pair, hdeliver]
    simp only [checkVisits, h.currentServices_eq, hdeliver]
    split_ifs
    · cases deliverPair env db lib { inp with pairOrder } alert vuln with
      | error e => exact congrArg (fun a => ([a], Except.error e)) hattempt
      | ok result =>
        obtain ⟨channel, success⟩ := result
        obtain ⟨hrest, hresult⟩ := Prod.mk.inj (ih _ _)
        exact Prod.ext (congrArg₂ List.cons hattempt hrest) hresult
    · exact ih rows added

/-- **The check does the same where the same is open.** -/
theorem simulates : Simulates env db db' := by
  intro lib inp rules ns
  refine ⟨.sending (openPairs db) (inp.pairOrder.order (openPairs db'))
    ((inp.pairOrder.perm _).trans h.openPairs_perm), ?_⟩
  have hvisits : visits db' = visits db := by
    funext alerts pairs
    rw [visits, visits, h.vulnerabilities]
  unfold doCheckAlerts
  dsimp only
  rw [hvisits, Arrangement.order_sending]
  -- the orders of the rules are the same
  by_cases hnone : (enabledAlerts inp rules).isEmpty = true
  · exact (congrArg CheckRun.seen (if_pos hnone)).trans
      (congrArg CheckRun.seen (if_pos hnone)).symm
  · refine (congrArg CheckRun.seen (if_neg hnone)).trans
      (Eq.trans ?_ (congrArg CheckRun.seen (if_neg hnone)).symm)
    exact h.checkVisits_seen _ _ _ _

end SameView

/-- **Retention is not announced.**  After a run of uploads and scans in order, with acceptances and
earlier retention between them, when every latest SBOM was scanned, the check sends and records
after retention what it can send and record before it, and nothing else, whatever the rules, the
notifications and the channels are. -/
theorem prune_unannounced {w : World} (hw : (system env).Reaches (Maintained env) w)
    (hscanned : ∀ L ∈ w.db.sboms, IsLatest w.db L → L.id ∈ w.scanned) {days : Option ℕ}
    {today : Date} (hprune : pruneSboms w.db days today = .ok db') :
    Simulates env w.db db' ∧ Simulates env db' w.db := by
  have hview := sameView_of_prune hw hscanned hprune
  exact ⟨hview.simulates, hview.symm.simulates⟩

/-- The checks before and after the removal of a release. -/
theorem prune_unannounced_demo : ∃ db', pruneSboms demoUpkeep.db (some 1) 5 = .ok db' ∧
    (¬ ∃ s ∈ db'.sboms, s.id = 11) ∧ Simulates demoEnv demoUpkeep.db db' ∧
      Simulates demoEnv db' demoUpkeep.db := by
  obtain ⟨db', hprune, -, hgone⟩ := demoUpkeep_prune
  exact ⟨db', hprune, hgone, prune_unannounced demoUpkeep_reaches (by decide +kernel) hprune⟩

end ArgusSbomGuard
