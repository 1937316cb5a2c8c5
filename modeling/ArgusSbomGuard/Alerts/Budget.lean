import ArgusSbomGuard.Alerts.System
import Mathlib.Data.Finset.Empty

/-!
# The budget of an announcement

A run of the system during which a rule stays as it is and a vulnerability stays open in the same
services, with any other steps in between.  The checks of such a run attempt at most
`maxAlertDeliveryAttempts` deliveries for the pair, with the failures from before the run, and none
after one that succeeded (`retry_budget`).  The argument is that of `Episode.Spent`: each check
makes an attempt that is due, or leaves the episode of the pair alone.
-/

namespace ArgusSbomGuard

variable {env : Env} {lib : MailLibrary} {w w' w₀ : AlertWorld} {alert : AlertRule} {v : Uuid}
  {services : Finset String}

/-- The deliveries for a pair that some runs of the check attempted. -/
def attemptsOf (pair : Uuid × Uuid) (checks : List CheckRecord) : List Attempt :=
  (checks.flatMap (·.attempts)).filter fun a => a.pair == pair

/-- An action on a state that has the rule, enabled; a check runs to its end, and finds the
vulnerability open in the services. -/
def Steady (env : Env) (lib : MailLibrary) (alert : AlertRule) (v : Uuid)
    (services : Finset String) (w : AlertWorld) (a : AlertAction) : Prop :=
  alert ∈ w.alerts.rules ∧ alert.enabled = true ∧ match a with
    | .checkAlerts inp => OpenIn w.world.db alert.projectId v ∧
      (currentServices env w.world.db alert.projectId v).toFinset = services ∧
        ∃ ns, (w.runCheck env lib inp).result = .ok ns
    | _ => True

theorem attemptsOf_append {pair : Uuid × Uuid} {checks checks' : List CheckRecord} :
    attemptsOf pair (checks ++ checks') = attemptsOf pair checks ++ attemptsOf pair checks' := by
  simp [attemptsOf]

/-- An attempt is the only one of its pair in a run. -/
theorem filter_pair_eq {as : List Attempt} {a : Attempt} (h : (as.map Attempt.pair).Nodup)
    (ha : a ∈ as) : (as.filter fun b => b.pair == a.pair) = [a] := by
  obtain ⟨xs, ys, rfl⟩ := List.append_of_mem ha
  rw [List.map_append, List.map_cons, List.nodup_middle, List.nodup_cons, ← List.map_append] at h
  have hother : ∀ b ∈ xs ++ ys, ¬ (b.pair == a.pair) = true := fun b hb heq =>
    h.1 (beq_iff_eq.1 heq ▸ List.mem_map_of_mem hb)
  rw [List.filter_append, List.filter_cons, if_pos (beq_self_eq_true _),
    List.filter_eq_nil_iff.2 fun b hb => hother b (List.mem_append_left _ hb),
    List.filter_eq_nil_iff.2 fun b hb => hother b (List.mem_append_right _ hb), List.nil_append]

/-- A check that is not due for a pair that is open leaves its notifications alone. -/
theorem CheckEffect.history_eq_of_open {ns ns' : List Notification} {rules : Table AlertRule}
    {db : Database} {inp : CheckInput} (h : CheckEffect env db lib inp rules ns ns')
    (hrule : alert ∈ rules) (hopen : OpenIn db alert.projectId v)
    (hdue : ∀ vuln, Visited db rules alert vuln → vuln.id = v →
      ¬ visitDue env db (alert, vuln) (history ns (alert.id, v)) = true) :
    history ns' (alert.id, v) = history ns (alert.id, v) := by
  by_cases hvisited : ∃ vuln, Visited db rules alert vuln ∧ vuln.id = v
  · obtain ⟨vuln, hv, rfl⟩ := hvisited
    rw [h.visited alert vuln hv, afterVisit, if_neg (hdue vuln hv rfl)]
  -- the pair is passed over, and not closed
  · rw [h.other (alert.id, v), if_neg]
    · rintro ⟨alert', hr, hid, -, hclosed⟩
      obtain rfl := rule_eq hr hrule hid
      exact hclosed hopen
    · intro alert' vuln hv hpair
      obtain ⟨hid, rfl⟩ := Prod.mk.inj hpair
      obtain rfl := rule_eq hv.rule hrule hid
      exact hvisited ⟨vuln, hv, rfl⟩

/-- **One check**: it attempts nothing for the pair and leaves its episode alone, or it makes one
attempt that is due. -/
theorem check_spends {inp : CheckInput} (hinv : AlertInvariant w.alerts)
    (hsteady : Steady env lib alert v services w (.checkAlerts inp)) :
    ∃ xs, (w.check env lib inp).checks = w.checks ++
        [⟨openPairs w.world.db, w.due env lib inp, true⟩] ∧
      attemptsOf (alert.id, v) [⟨openPairs w.world.db, w.due env lib inp, true⟩] = xs ∧
      ((xs = [] ∧ episode (history (w.check env lib inp).alerts.notifications (alert.id, v)) =
          episode (history w.alerts.notifications (alert.id, v))) ∨
        ∃ a, xs = [a] ∧
          (episode (history w.alerts.notifications (alert.id, v))).due maxAlertDeliveryAttempts
            services = true ∧
          episode (history (w.check env lib inp).alerts.notifications (alert.id, v)) =
            (episode (history w.alerts.notifications (alert.id, v))).attempt services
              a.succeeded) := by
  obtain ⟨hrule, hen, hopen, hservices, hres⟩ := hsteady
  have hok := hinv.pairOk
  have hno := doCheckAlerts_commits_iff.1 hres
  obtain ⟨ns, heffect, heq⟩ := check_commits (w := w) hno
  refine ⟨_, by rw [heq], rfl, ?_⟩
  rw [heq]
  have hflat : attemptsOf (alert.id, v) [⟨openPairs w.world.db, w.due env lib inp, true⟩] =
      (w.due env lib inp).filter fun a => a.pair == (alert.id, v) := by
    simp [attemptsOf]
  rw [hflat]
  by_cases hdue : ∃ vuln, Visited w.world.db w.alerts.rules alert vuln ∧ vuln.id = v ∧
      visitDue env w.world.db (alert, vuln)
        (history w.alerts.notifications (alert.id, v)) = true
  · obtain ⟨vuln, hv, rfl, hdue⟩ := hdue
    have hmem : attemptFor env w.world.db lib inp alert vuln ∈ w.due env lib inp :=
      mem_due.2 ⟨alert, vuln, hv, hdue, rfl⟩
    refine .inr ⟨attemptFor env w.world.db lib inp alert vuln, ?_, ?_, ?_⟩
    · exact filter_pair_eq nodup_due hmem
    · rw [visitDue_iff (hok _)] at hdue
      exact hservices ▸ hdue
    · rw [← hservices, heffect.visited alert vuln hv]
      exact episode_afterVisit (fun _ hn => (mem_history.1 hn).2) (hok _) hdue (hno _ hmem)
  · refine .inl ⟨List.filter_eq_nil_iff.2 fun a ha heqp => ?_, ?_⟩
    · obtain ⟨alert', vuln, hv, hd, rfl⟩ := mem_due.1 ha
      obtain ⟨hid, rfl⟩ := Prod.mk.inj (beq_iff_eq.1 heqp)
      obtain rfl := rule_eq hv.rule hrule hid
      exact hdue ⟨vuln, hv, rfl, hd⟩
    · rw [heffect.history_eq_of_open hrule hopen fun vuln hv hid hd => hdue ⟨vuln, hv, hid, hd⟩]

/-- The attempts for the pair since a state, with the episode that they led to as long as the rule
is there. -/
def SpentSince (alert : AlertRule) (v : Uuid) (services : Finset String) (w₀ w : AlertWorld) :
    Prop :=
  ∃ checks e, w.checks = w₀.checks ++ checks ∧
    Episode.Spent maxAlertDeliveryAttempts services
      (episode (history w₀.alerts.notifications (alert.id, v)))
      ((attemptsOf (alert.id, v) checks).map (·.succeeded)) e ∧
    (alert ∈ w.alerts.rules → e = episode (history w.alerts.notifications (alert.id, v)))

theorem spentSince_step {a : AlertAction} (hinv : AlertInvariant w.alerts)
    (hspent : SpentSince alert v services w₀ w) (hsteady : Steady env lib alert v services w a)
    (hst : AlertWorld.step env lib w a = some w') : SpentSince alert v services w₀ w' := by
  obtain ⟨checks, e, hchecks, hspent, hepisode⟩ := hspent
  obtain rfl := hepisode hsteady.1
  rcases alertStep_cases hinv.owned hst with ⟨inp, rfl, rfl⟩ | hedit
  · obtain ⟨xs, hrec, hxs, ⟨rfl, heq⟩ | ⟨a, rfl, hdue, heq⟩⟩ := check_spends hinv hsteady
    · refine ⟨checks ++ [_], _, by rw [hrec, hchecks, List.append_assoc], ?_, fun _ => heq.symm⟩
      rwa [attemptsOf_append, hxs, List.append_nil]
    · refine ⟨checks ++ [_], _, by rw [hrec, hchecks, List.append_assoc], ?_, fun _ => heq.symm⟩
      rw [attemptsOf_append, hxs, List.map_append]
      exact hspent.attempt (by decide) hdue
  · refine ⟨checks, _, hedit.checks.trans hchecks, hspent, fun hrule => ?_⟩
    rw [hedit.histories (alert.id, v) ⟨alert, hrule, rfl⟩]

theorem spentSince (hw₀ : (alertSystem env lib).Reachable w₀)
    (hrun : ((alertSystem env lib).startingAt w₀).Reaches (Steady env lib alert v services) w) :
    SpentSince alert v services w₀ w := by
  have hinv₀ := alertInvariant hw₀
  refine hrun.invariant_under (I := fun w => AlertInvariant w.alerts) hinv₀
    (fun _ _ _ => alertInvariant_step) ?_ fun _ _ _ => spentSince_step
  exact ⟨[], _, (List.append_nil _).symm, .refl (bounded_episode (hinv₀.pairOk _)), fun _ => rfl⟩

/-- What is used up of the budget, by the notifications of a pair. -/
theorem used_episode {h : List Notification} {n : Notification} (hok : PairOk h) (hn : n ∈ h)
    (hservices : n.services = services) :
    (n.status = .SENT → (episode h).used maxAlertDeliveryAttempts services =
        maxAlertDeliveryAttempts) ∧
      (n.status = .FAILED → (episode h).used maxAlertDeliveryAttempts services = n.attempts) := by
  refine ⟨fun hst => ?_, fun hst => ?_⟩
  · simp [episode, hok.activeOf_eq hn (active_of_status (.inl hst)), hst, Episode.used, hservices]
  · simp [episode, hok.activeOf_eq hn (active_of_status (.inr hst)), hst, Episode.used, hservices]

/-- The deliveries for a pair that some checks attempted keep within the budget that the
notifications from before left for the services. -/
structure WithinBudget (pair : Uuid × Uuid) (services : Finset String)
    (notifications : List Notification) (checks : List CheckRecord) : Prop where
  attempts : (attemptsOf pair checks).length ≤ maxAlertDeliveryAttempts
  successes : (attemptsOf pair checks).countP (·.succeeded) ≤ 1
  last : ∀ xs a ys, attemptsOf pair checks = xs ++ a :: ys → a.succeeded = true → ys = []
  delivered : ∀ n ∈ notifications, n.pair = pair → n.services = services → n.status = .SENT →
    attemptsOf pair checks = []
  failed : ∀ n ∈ notifications, n.pair = pair → n.services = services → n.status = .FAILED →
    n.attempts + (attemptsOf pair checks).length ≤ maxAlertDeliveryAttempts

/-- **The budget of a pair**: while a rule stays as it is and a vulnerability stays open in the
same services, at most the allowed number of deliveries are attempted, with the failures from
before, and none after one that succeeded. -/
theorem retry_budget (hw₀ : (alertSystem env lib).Reachable w₀)
    (hrun : ((alertSystem env lib).startingAt w₀).Reaches (Steady env lib alert v services) w) :
    ∃ checks, w.checks = w₀.checks ++ checks ∧
      WithinBudget (alert.id, v) services w₀.alerts.notifications checks := by
  obtain ⟨checks, e, hchecks, hspent, -⟩ := spentSince hw₀ hrun
  obtain ⟨hlen, hlast⟩ := hspent.budget
  rw [List.length_map] at hlen
  have hok := (alertInvariant hw₀).pairOk (alert.id, v)
  refine ⟨checks, hchecks, by omega, ?_, fun xs a ys heq ha => ?_,
    fun n hn hpair hservices hst => ?_, fun n hn hpair hservices hst => ?_⟩
  · have hcount := Episode.count_true_le_one hlast
    simpa [List.count, List.countP_map, Function.comp_def] using hcount
  · refine List.map_eq_nil_iff.1 (hlast (xs.map (·.succeeded)) (ys.map (·.succeeded)) ?_)
    rw [heq, List.map_append, List.map_cons, ha]
  · rw [(used_episode hok (mem_history.2 ⟨hn, hpair⟩) hservices).1 hst] at hlen
    exact List.eq_nil_of_length_eq_zero (by omega)
  · rw [(used_episode hok (mem_history.2 ⟨hn, hpair⟩) hservices).2 hst] at hlen
    omega

/-- A delivery that failed in the demonstration, and its retry. -/
def demoFailed : AlertWorld := demoPending.check alertEnv plainMail (demoCheck fun _ _ => false)

def demoRetried : AlertWorld := demoFailed.check alertEnv plainMail (demoCheck fun _ _ => true)

theorem retry_budget_demo : ∃ alert ∈ demoPending.alerts.rules, ∃ checks,
    demoRetried.checks = demoPending.checks ++ checks ∧
      WithinBudget (alert.id, 1) ∅ demoPending.alerts.notifications checks := by
  have hrules : ∃ alert ∈ demoPending.alerts.rules, alert.enabled = true ∧ alert.projectId = 1 := by
    decide +kernel
  obtain ⟨alert, ha, hen, hp⟩ := hrules
  have hsteady : Steady alertEnv plainMail alert 1 ∅ demoPending
      (.checkAlerts (demoCheck fun _ _ => false)) :=
    ⟨ha, hen, by rw [hp]; decide +kernel, by rw [hp]; decide +kernel,
      doCheckAlerts_commits_iff.2 (by decide +kernel)⟩
  have hsteady' : Steady alertEnv plainMail alert 1 ∅ demoFailed
      (.checkAlerts (demoCheck fun _ _ => true)) :=
    ⟨by rw [demoFailed, check_rules]; exact ha, hen, by rw [hp]; decide +kernel,
      by rw [hp]; decide +kernel, doCheckAlerts_commits_iff.2 (by decide +kernel)⟩
  exact ⟨alert, ha, retry_budget alertDemo_reachable ((Machine.Reaches.init.step hsteady rfl).step
    hsteady' rfl)⟩

end ArgusSbomGuard
