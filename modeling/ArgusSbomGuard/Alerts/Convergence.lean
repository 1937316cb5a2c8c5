import ArgusSbomGuard.Alerts.System

/-!
# What a run of the check achieves

A run all of whose deliveries succeed leaves the enabled rules with one delivered notification for
each vulnerability that they announce, for the services in which it is open, and with no other
active ones (`check_converges`).

A run in which a delivery raises an exception is rolled back and ends there, so that messages sent
before it are forgotten and pairs after it not tried (`deliveries_isolated_iff`).
-/

namespace ArgusSbomGuard

variable {env : Env} {lib : MailLibrary} {w : AlertWorld} {inp : CheckInput} {alert : AlertRule}
  {vuln : Vulnerability} {n : Notification}

/-! ### A delivered notification -/

/-- A pair that is not due, with attempts left, has a delivered notification for the current
services. -/
theorem sent_of_not_due {h : List Notification} (hok : PairOk h)
    (hleft : ∀ n ∈ h, n.status = .FAILED → n.attempts < maxAlertDeliveryAttempts)
    (hdue : ¬ visitDue env w.world.db (alert, vuln) h = true) :
    ∃ n, activeOf h = [n] ∧ n.status = .SENT ∧
      n.services = (currentServices env w.world.db alert.projectId vuln.id).toFinset := by
  rw [visitDue_iff hok] at hdue
  rcases hok with hnil | ⟨n, ha, hann⟩
  · rw [episode, hnil] at hdue
    exact absurd rfl hdue
  · refine ⟨n, ha, ?_⟩
    have hn : n ∈ h := (mem_activeOf.1 (ha ▸ List.mem_singleton_self n)).1
    rcases hann with ⟨hst, -⟩ | ⟨hst, -⟩
    · refine ⟨hst, ?_⟩
      simpa [episode, ha, hst, Episode.due] using hdue
    · have hlt := hleft n hn hst
      simp [episode, ha, hst, Episode.due, hlt] at hdue

/-! ### Convergence -/

/-- After a run whose deliveries all succeed, a pair that was visited and had attempts left has a
delivered notification for the current services. -/
theorem CheckEffect.sent {ns ns' : List Notification}
    (h : CheckEffect env w.world.db lib inp w.alerts.rules ns ns')
    (hok : ∀ k, PairOk (history ns k)) (hv : Visited w.world.db w.alerts.rules alert vuln)
    (hdelivered : ∀ a ∈ due env w.world.db lib inp w.alerts.rules ns, a.outcome = .delivered)
    (hleft : ∀ n ∈ history ns (alert.id, vuln.id), n.status = .FAILED →
      n.attempts < maxAlertDeliveryAttempts) :
    ∃ n, activeOf (history ns' (alert.id, vuln.id)) = [n] ∧ n.status = .SENT ∧
      n.services = (currentServices env w.world.db alert.projectId vuln.id).toFinset := by
  by_cases hdue : visitDue env w.world.db (alert, vuln) (history ns (alert.id, vuln.id)) = true
  · have hout := hdelivered _ (mem_due.2 ⟨alert, vuln, hv, hdue, rfl⟩)
    obtain ⟨n, ha, hn⟩ := h.recorded hok hv hdue (by rw [hout]; decide)
    refine ⟨n, ha, ?_, hn.services_eq⟩
    rw [hn.status, Attempt.succeeded, hout]
    rfl
  · rw [h.visited alert vuln hv, afterVisit, if_neg hdue]
    exact sent_of_not_due (hok _) hleft hdue

/-- After a run that commits, what is closed has no active notification of an enabled rule. -/
theorem CheckEffect.not_active_of_closed {ns ns' : List Notification}
    (h : CheckEffect env w.world.db lib inp w.alerts.rules ns ns') (ha : alert ∈ w.alerts.rules)
    (hen : alert.enabled = true) (hid : n.alertRuleId = alert.id)
    (hclosed : ¬ OpenIn w.world.db alert.projectId n.vulnerabilityId) (hn : n ∈ ns') :
    ¬ n.active = true := by
  have hcloses : Closes w.world.db w.alerts.rules n.pair := ⟨alert, ha, hid.symm, hen, hclosed⟩
  have hmem : n ∈ history ns' n.pair := mem_history.2 ⟨hn, rfl⟩
  rw [h.other n.pair fun a v hv heq => hv.not_closes (heq ▸ hcloses), if_pos hcloses] at hmem
  obtain ⟨m, -, rfl⟩ := List.mem_map.1 hmem
  simp [Notification.active, Notification.resolve]

/-- **What a run whose deliveries all succeed leaves**: one delivered notification, for the
services in which the vulnerability is open, for all that an enabled rule announces, and active
notifications of an enabled rule for what is open in its project only. -/
theorem check_converges (hw : (alertSystem env lib).Reachable w)
    (hdelivered : ∀ a ∈ (w.runCheck env lib inp).attempts, a.outcome = .delivered)
    (hleft : ∀ n ∈ w.alerts.notifications, n.status = .FAILED →
      n.attempts < maxAlertDeliveryAttempts) :
    (∀ alert vuln, Visited w.world.db w.alerts.rules alert vuln →
      ∃ n, activeOf (history (w.check env lib inp).alerts.notifications (alert.id, vuln.id)) = [n] ∧
        n.status = .SENT ∧ ∀ service, service ∈ n.services ↔
          ∃ i, OpenScope w.world.db alert.projectId vuln.id (some i) ∧ env.strUuid i = service) ∧
      ∀ alert ∈ w.alerts.rules, alert.enabled = true →
        ∀ n ∈ (w.check env lib inp).alerts.notifications, n.alertRuleId = alert.id →
          n.active = true → OpenIn w.world.db alert.projectId n.vulnerabilityId := by
  have hok := (alertInvariant hw).pairOk
  -- no delivery raises, so that the run goes through all that is due and commits
  have hall : untilRaised (w.due env lib inp) = w.due env lib inp :=
    untilRaised_eq_self fun a ha hraise => by
      rw [← runCheck_attempts] at ha
      cases (hdelivered a ha).symm.trans hraise
  rw [runCheck_attempts, hall] at hdelivered
  have hno : ∀ a ∈ w.due env lib inp, a.outcome ≠ .raised := fun a ha hraise => by
    cases (hdelivered a ha).symm.trans hraise
  obtain ⟨ns, heffect, heq⟩ := check_commits hno
  rw [heq]
  refine ⟨fun alert vuln hv => ?_, fun alert ha hen n hn hid hact => ?_⟩
  · obtain ⟨n, hn, hst, hservices⟩ := heffect.sent hok hv hdelivered fun n hn =>
      hleft n (mem_history.1 hn).1
    refine ⟨n, hn, hst, fun service => ?_⟩
    rw [hservices, List.mem_toFinset, mem_currentServices]
  · by_contra hclosed
    exact heffect.not_active_of_closed ha hen hid hclosed hn hact

/-- Four messages are due, one of them for the second time. -/
theorem check_converges_demo :
    (∀ alert vuln, Visited demoBusy.world.db demoBusy.alerts.rules alert vuln →
      ∃ n, activeOf (history (demoBusy.check alertEnv plainMail
          (demoCheck fun _ _ => true)).alerts.notifications (alert.id, vuln.id)) = [n] ∧
        n.status = .SENT ∧ ∀ service, service ∈ n.services ↔
          ∃ i, OpenScope demoBusy.world.db alert.projectId vuln.id (some i) ∧
            alertEnv.strUuid i = service) ∧
      ∀ alert ∈ demoBusy.alerts.rules, alert.enabled = true →
        ∀ n ∈ (demoBusy.check alertEnv plainMail
            (demoCheck fun _ _ => true)).alerts.notifications, n.alertRuleId = alert.id →
          n.active = true → OpenIn demoBusy.world.db alert.projectId n.vulnerabilityId :=
  check_converges alertDemo_reachable (by decide +kernel) (by decide +kernel)

/-! ### Isolation -/

/-- Every pair that is due is tried. -/
def AllTried (env : Env) (lib : MailLibrary) (w : AlertWorld) (inp : CheckInput) : Prop :=
  ∀ alert vuln, Visited w.world.db w.alerts.rules alert vuln →
    visitDue env w.world.db (alert, vuln)
        (history w.alerts.notifications (alert.id, vuln.id)) = true →
      ∃ a ∈ (w.runCheck env lib inp).attempts, a.pair = (alert.id, vuln.id)

/-- Every message that was delivered has a notification that says so, for the services it was
about, and no next run sends it again. -/
def AllRecorded (env : Env) (lib : MailLibrary) (w : AlertWorld) (inp : CheckInput) : Prop :=
  ∀ a ∈ (w.runCheck env lib inp).attempts, a.outcome = .delivered →
    (∃ n ∈ (w.check env lib inp).alerts.notifications, n.pair = a.pair ∧ n.status = .SENT ∧
      n.services = (currentServices env w.world.db a.projectId a.vulnerabilityId).toFinset) ∧
    ∀ inp', ∀ b ∈ ((w.check env lib inp).runCheck env lib inp').attempts, b.pair ≠ a.pair

/-- All that is due is tried exactly when nothing is due after an attempt that raises. -/
theorem allTried_iff : AllTried env lib w inp ↔
    ∀ xs a ys, w.due env lib inp = xs ++ a :: ys → a.outcome = .raised → ys = [] := by
  rw [← untilRaised_eq_self_iff]
  constructor
  · intro htried
    have hinitial : untilRaised (w.due env lib inp) <+: w.due env lib inp := untilRaised_initial
    obtain ⟨rest, hrest⟩ := hinitial
    -- an attempt after the end of the run would be due twice
    cases rest with
    | nil => rwa [List.append_nil] at hrest
    | cons d rest =>
      have hd : d ∈ w.due env lib inp := hrest ▸ List.mem_append_right _ List.mem_cons_self
      obtain ⟨alert, vuln, hv, hdue, rfl⟩ := mem_due.1 hd
      obtain ⟨a, ha, hpair⟩ := htried alert vuln hv hdue
      rw [runCheck_attempts] at ha
      have hnodup : ((w.due env lib inp).map Attempt.pair).Nodup := nodup_due
      rw [← hrest, List.map_append, List.map_cons] at hnodup
      exact absurd hpair
        ((List.nodup_append.1 hnodup).2.2 _ (List.mem_map_of_mem ha) _ List.mem_cons_self)
  · intro hall alert vuln hv hdue
    refine ⟨attemptFor env w.world.db lib inp alert vuln, ?_, rfl⟩
    rw [runCheck_attempts, hall]
    exact mem_due.2 ⟨alert, vuln, hv, hdue, rfl⟩

/-- In a run in which nothing raises, all that was delivered is recorded. -/
theorem allRecorded_of_commits (hw : (alertSystem env lib).Reachable w)
    (h : ∀ a ∈ w.due env lib inp, a.outcome ≠ .raised) : AllRecorded env lib w inp := by
  have hok := (alertInvariant hw).pairOk
  obtain ⟨ns, heffect, heq⟩ := check_commits h
  intro a ha hout
  rw [runCheck_attempts] at ha
  obtain ⟨alert, vuln, hv, hdue, rfl⟩ := mem_due.1 (untilRaised_initial.subset ha)
  obtain ⟨n, hact, hn⟩ := heffect.recorded hok hv hdue (by rw [hout]; decide)
  have hmem : n ∈ history ns (alert.id, vuln.id) :=
    (mem_activeOf.1 (hact ▸ List.mem_singleton_self n)).1
  have hst : n.status = .SENT := by
    rw [hn.status, Attempt.succeeded, hout]
    rfl
  rw [heq]
  refine ⟨⟨n, (mem_history.1 hmem).1, hn.pair, hst, hn.services_eq⟩, fun inp' b hb hpair => ?_⟩
  -- the next run finds the same pair with that notification
  rw [runCheck_attempts] at hb
  exact (visitDue_iff_of_sent (heffect.pairOk hok _) hmem hst).1
    (visitDue_of_mem_due hv (untilRaised_initial.subset hb) hpair) hn.services_eq

/-- **When a run is not undone**: every pair that is due is tried and every delivered message is
recorded exactly when a delivery that raises is the last one due and comes after no delivered
one. -/
theorem deliveries_isolated_iff (hw : (alertSystem env lib).Reachable w) :
    AllTried env lib w inp ∧ AllRecorded env lib w inp ↔
      ∀ xs a ys, w.due env lib inp = xs ++ a :: ys → a.outcome = .raised →
        ys = [] ∧ ∀ x ∈ xs, x.outcome ≠ .delivered := by
  have hok := (alertInvariant hw).pairOk
  constructor
  · rintro ⟨htried, hrecorded⟩ xs a ys heq hraise
    refine ⟨allTried_iff.1 htried xs a ys heq hraise, fun x hx hout => ?_⟩
    have hall : untilRaised (w.due env lib inp) = w.due env lib inp :=
      untilRaised_eq_self_iff.2 (allTried_iff.1 htried)
    have hxdue : x ∈ w.due env lib inp := heq ▸ List.mem_append_left _ hx
    obtain ⟨⟨n, hn, hpair, hst, hservices⟩, -⟩ :=
      hrecorded x (by rw [runCheck_attempts, hall]; exact hxdue) hout
    -- the run was rolled back, so that the notification was there before and nothing was due
    rw [check_aborts ⟨a, heq ▸ List.mem_append_right _ List.mem_cons_self, hraise⟩] at hn
    obtain ⟨alert, vuln, hv, hdue, rfl⟩ := mem_due.1 hxdue
    exact (visitDue_iff_of_sent (hok _) (mem_history.2 ⟨hn, hpair⟩) hst).1 hdue hservices
  · intro h
    refine ⟨allTried_iff.2 fun xs a ys heq hraise => (h xs a ys heq hraise).1, ?_⟩
    obtain hnone | ⟨a, ha, hraise⟩ := check_cases env lib w inp
    · exact allRecorded_of_commits hw hnone
    -- the run is rolled back, but nothing was delivered
    · obtain ⟨xs, ys, heq⟩ := List.append_of_mem ha
      obtain ⟨rfl, hnone⟩ := h xs a ys heq hraise
      intro b hb hout
      rw [runCheck_attempts] at hb
      have hb := untilRaised_initial.subset hb
      rw [heq] at hb
      rcases List.mem_append.1 hb with hb | hb
      · exact absurd hout (hnone b hb)
      · obtain rfl := List.mem_singleton.1 hb
        cases hraise.symm.trans hout

/-- A rule that sends email to a text with a line break. -/
def brokenRule (id : Uuid) : AlertAction :=
  .createAlert ⟨1, .HIGH, .EMAIL, [("to", .str "a\nb")], true, rfl⟩ id

/-- A finding that three rules announce, the second one by an email that cannot be built. -/
def demoBroken : AlertWorld :=
  alertDemo (criticalFinding ++ [slackRule 5 true, brokenRule 6, slackRule 7 true])
    (by decide +kernel)

theorem demoBroken_due : demoBroken.due alertEnv plainMail (demoCheck fun _ _ => true) =
    [⟨5, 1, 1, [none], .delivered⟩] ++ ⟨6, 1, 1, [none], .raised⟩ ::
      [⟨7, 1, 1, [none], .delivered⟩] := by decide +kernel

/-- The run of the check of three rules tries two of them, and forgets the message of the first
one. -/
theorem check_not_isolated : (alertSystem alertEnv plainMail).Reachable demoBroken ∧
    ¬ AllTried alertEnv plainMail demoBroken (demoCheck fun _ _ => true) ∧
      ¬ AllRecorded alertEnv plainMail demoBroken (demoCheck fun _ _ => true) := by
  refine ⟨alertDemo_reachable, fun htried => ?_, fun hrecorded => ?_⟩
  · have hnil := allTried_iff.1 htried _ _ _ demoBroken_due rfl
    cases hnil
  · have hattempts : ⟨5, 1, 1, [none], .delivered⟩ ∈
        (demoBroken.runCheck alertEnv plainMail (demoCheck fun _ _ => true)).attempts := by
      rw [runCheck_attempts, demoBroken_due]
      exact List.mem_cons_self
    obtain ⟨⟨n, hn, -⟩, -⟩ := hrecorded _ hattempts rfl
    rw [check_aborts ⟨⟨6, 1, 1, [none], .raised⟩, by rw [demoBroken_due]; decide, rfl⟩] at hn
    have hnone : demoBroken.alerts.notifications = [] := by decide +kernel
    rw [hnone] at hn
    exact absurd hn List.not_mem_nil

/-- Four messages are due, one of them for the second time, and none raises. -/
theorem deliveries_isolated_demo :
    demoBusy.due alertEnv plainMail (demoCheck fun _ _ => true) =
        [⟨5, 1, 1, [none], .delivered⟩, ⟨5, 1, 2, [none], .delivered⟩,
          ⟨6, 1, 1, [none], .delivered⟩, ⟨6, 1, 2, [none], .delivered⟩] ∧
      (AllTried alertEnv plainMail demoBusy (demoCheck fun _ _ => true) ∧
          AllRecorded alertEnv plainMail demoBusy (demoCheck fun _ _ => true) ↔
        ∀ xs a ys, demoBusy.due alertEnv plainMail (demoCheck fun _ _ => true) = xs ++ a :: ys →
          a.outcome = .raised → ys = [] ∧ ∀ x ∈ xs, x.outcome ≠ .delivered) :=
  ⟨by decide +kernel, deliveries_isolated_iff alertDemo_reachable⟩

end ArgusSbomGuard
