import ArgusSbomGuard.Alerts.Effect
import ArgusSbomGuard.Alerts.Rules
import ArgusSbomGuard.System.World

/-!
# The running system with alerts

The requests on alert rules and the task `check_alerts` as further actions of the machine.  Each
run of the check is one action: runs do not overlap.

## Main definitions

* `AlertWorld` : the world with the tables of the alerts and, for the statements of theorems only,
  a record of each run of the check.
* `alertSystem` : the machine.
* `Edited` : what an action other than a check does to rules and notifications.
* `AlertInvariant`, `alertInvariant` : notifications have their rules, and every pair at most one
  active notification.
-/

namespace ArgusSbomGuard

/-- What was open at a run of the check, what it attempted, and whether it committed. -/
structure CheckRecord where
  openPairs : List (Uuid × Uuid)
  attempts : List Attempt
  committed : Bool
  deriving DecidableEq

structure AlertWorld where
  world : World
  alerts : AlertTables
  /-- The runs of the check so far, the last one at the end. -/
  checks : List CheckRecord

/-- The requests and tasks of the system with alerts. -/
inductive AlertAction
  | base (a : Action)
  | createAlert (data : AlertRuleCreate) (newId : Uuid)
  | updateAlert (alertId : Uuid) (data : AlertRuleUpdate)
  | deleteAlert (alertId : Uuid)
  | checkAlerts (inp : CheckInput)

namespace AlertWorld

variable (env : Env) (lib : MailLibrary) (w : AlertWorld)

/-- The tables of a successful request; a failed one is rolled back. -/
def commit {ε : Type} : Except ε AlertTables → AlertWorld
  | .ok alerts => { w with alerts }
  | .error _ => w

/-- The alerts after a request of the rest of the system: a deleted project takes its rules
along. -/
def cascade : Action → AlertTables
  | .deleteProject projectId => match deleteProject w.world.db projectId with
    | .ok _ => w.alerts.deleteRules fun alert => alert.projectId == projectId
    | .error _ => w.alerts
  | _ => w.alerts

/-- The run of `do_check_alerts` in a state. -/
def runCheck (inp : CheckInput) : CheckRun :=
  doCheckAlerts env w.world.db lib inp w.alerts.rules w.alerts.notifications

/-- The deliveries that are due in a run, in order. -/
def due (inp : CheckInput) : List Attempt :=
  ArgusSbomGuard.due env w.world.db lib inp w.alerts.rules w.alerts.notifications

/-- The record of a run. -/
def record (inp : CheckInput) : CheckRecord where
  openPairs := openPairs w.world.db
  attempts := (runCheck env lib w inp).attempts
  committed := (runCheck env lib w inp).result.isOk

/-- The `check_alerts` task; a run that raises is rolled back. -/
def check (inp : CheckInput) : AlertWorld :=
  { w with
    alerts := match (runCheck env lib w inp).result with
      | .ok notifications => { w.alerts with notifications }
      | .error _ => w.alerts
    checks := w.checks ++ [record env lib w inp] }

/-- The state after an action. -/
def step : AlertAction → Option AlertWorld
  | .base a => (World.step env w.world a).map fun world =>
    { w with world, alerts := w.cascade a }
  | .createAlert data newId => some (w.commit (createAlert w.world.db w.alerts data newId))
  | .updateAlert alertId data => some (w.commit (updateAlert w.world.db w.alerts alertId data))
  | .deleteAlert alertId => some (w.commit (deleteAlert w.alerts alertId))
  | .checkAlerts inp => some (w.check env lib inp)

end AlertWorld

/-- The system with alerts, started on an empty database. -/
def alertSystem (env : Env) (lib : MailLibrary) : Machine AlertWorld AlertAction where
  init := ⟨⟨.empty, [], []⟩, .empty, []⟩
  step := AlertWorld.step env lib

/-- The action moves the rule to another project. -/
def AlertAction.Moves (db : Database) (alert : AlertRule) : AlertAction → Prop
  | .updateAlert alertId data => alert.id = alertId ∧
    ∃ p, data.projectId = some p ∧ p ≠ alert.projectId ∧ ∃ project ∈ db.projects, project.id = p
  | _ => False

instance (db : Database) (alert : AlertRule) (a : AlertAction) : Decidable (a.Moves db alert) :=
  match a with
  | .updateAlert alertId data => inferInstanceAs (Decidable (alert.id = alertId ∧
      ∃ p, data.projectId = some p ∧ p ≠ alert.projectId ∧ ∃ project ∈ db.projects, project.id = p))
  | .base _ => .isFalse id
  | .createAlert _ _ => .isFalse id
  | .deleteAlert _ => .isFalse id
  | .checkAlerts _ => .isFalse id

/-- What an action other than a check does to rules and notifications: a rule that was there stays
in its project unless the action moves it, and the notifications of a rule go with it. -/
structure Edited (a : AlertAction) (w w' : AlertWorld) : Prop where
  checks : w'.checks = w.checks
  rules : ∀ alert' ∈ w'.alerts.rules, (∀ alert ∈ w.alerts.rules, alert.id ≠ alert'.id) ∨
    ∃ alert ∈ w.alerts.rules, alert.id = alert'.id ∧
      (alert'.projectId = alert.projectId ∨ a.Moves w.world.db alert)
  notifications : ∀ n, n ∈ w'.alerts.notifications ↔
    n ∈ w.alerts.notifications ∧ ∃ alert ∈ w'.alerts.rules, alert.id = n.alertRuleId
  histories : ∀ k, (∃ alert ∈ w'.alerts.rules, alert.id = k.1) →
    history w'.alerts.notifications k = history w.alerts.notifications k

variable {env : Env} {lib : MailLibrary} {w w' : AlertWorld} {t : AlertTables}

/-! ### Actions other than a check -/

theorem history_deleteRules {p : AlertRule → Bool} {k : Uuid × Uuid}
    (hk : ∃ alert ∈ (t.deleteRules p).rules, alert.id = k.1) :
    history (t.deleteRules p).notifications k = history t.notifications k := by
  obtain ⟨alert, ha, hid⟩ := hk
  obtain ⟨ha, hp⟩ := Table.mem_deleteWhere.1 ha
  rw [history, AlertTables.deleteRules, List.filter_filter, history]
  refine List.filter_congr fun n _ => ?_
  by_cases hn : n.pair = k
  · -- the only rule with this identifier is not deleted
    have hkeep : ∀ a ∈ t.rules, p a = true → a.id ≠ n.alertRuleId := fun a haa hpa haid => by
      have hsame : a.id = alert.id := haid.trans (hid.trans (congrArg Prod.fst hn).symm).symm
      rw [rule_eq haa ha hsame, hp] at hpa
      cases hpa
    simpa [hn, Table.mem_rows] using hkeep
  · simp [hn]

theorem mem_deleteRules {p : AlertRule → Bool} (howned : t.Owned) {n : Notification} :
    n ∈ (t.deleteRules p).notifications ↔ n ∈ t.notifications ∧
      ∃ alert ∈ (t.deleteRules p).rules, alert.id = n.alertRuleId := by
  simp only [AlertTables.deleteRules, List.mem_filter, Bool.not_eq_true', List.any_eq_false,
    Bool.and_eq_true, beq_iff_eq, not_and, Table.mem_rows, Table.mem_deleteWhere]
  refine and_congr_right fun hn => ⟨fun h => ?_, ?_⟩
  · obtain ⟨alert, ha, hid⟩ := howned n hn
    refine ⟨alert, ⟨ha, ?_⟩, hid⟩
    exact Bool.eq_false_iff.2 fun hp => h alert ha hp hid
  · rintro ⟨alert, ⟨ha, hp⟩, hid⟩ a haa hpa haid
    rw [rule_eq haa ha (haid.trans hid.symm), hp] at hpa
    cases hpa

theorem edited_of_deleteRules {a : AlertAction} {p : AlertRule → Bool}
    (howned : w.alerts.Owned) (hchecks : w'.checks = w.checks)
    (h : w'.alerts = w.alerts.deleteRules p) : Edited a w w' where
  checks := hchecks
  rules alert ha := by
    rw [h] at ha
    exact .inr ⟨alert, (Table.mem_deleteWhere.1 ha).1, rfl, .inl rfl⟩
  notifications n := by
    rw [h]
    exact mem_deleteRules howned
  histories k hk := by
    rw [h] at hk ⊢
    exact history_deleteRules hk

/-- A change of the rules that keeps those that are there. -/
theorem edited_of_rules {a : AlertAction} {rules : Table AlertRule}
    (howned : w.alerts.Owned) (hchecks : w'.checks = w.checks)
    (h : w'.alerts = { w.alerts with rules })
    (hkeep : ∀ alert ∈ w.alerts.rules, ∃ alert' ∈ rules, alert'.id = alert.id)
    (hrules : ∀ alert' ∈ rules, (∀ alert ∈ w.alerts.rules, alert.id ≠ alert'.id) ∨
      ∃ alert ∈ w.alerts.rules, alert.id = alert'.id ∧
        (alert'.projectId = alert.projectId ∨ a.Moves w.world.db alert)) : Edited a w w' where
  checks := hchecks
  rules := by rwa [h]
  notifications n := by
    rw [h]
    refine ⟨fun hn => ⟨hn, ?_⟩, And.left⟩
    obtain ⟨alert, ha, hid⟩ := howned n hn
    obtain ⟨alert', ha', hid'⟩ := hkeep alert ha
    exact ⟨alert', ha', hid'.trans hid⟩
  histories k _ := by rw [h]

/-- The rules and notifications stay the same. -/
theorem edited_of_unchanged {a : AlertAction} (howned : w.alerts.Owned)
    (hchecks : w'.checks = w.checks) (h : w'.alerts = w.alerts) : Edited a w w' :=
  edited_of_rules howned hchecks h (fun alert ha => ⟨alert, ha, rfl⟩)
    fun alert ha => .inr ⟨alert, ha, rfl, .inl rfl⟩

theorem commit_cases {ε : Type} {r : Except ε AlertTables} (h : w.commit r = w') :
    w' = w ∨ ∃ t, r = .ok t ∧ w' = { w with alerts := t } := by
  cases r with
  | error e => exact .inl h.symm
  | ok t => exact .inr ⟨t, rfl, h.symm⟩

/-- **What an action can do**: run the check, or edit. -/
theorem alertStep_cases {a : AlertAction} (howned : w.alerts.Owned)
    (h : AlertWorld.step env lib w a = some w') :
    (∃ inp, a = .checkAlerts inp ∧ w' = w.check env lib inp) ∨ Edited a w w' := by
  cases a with
  | base a =>
    obtain ⟨world, -, rfl⟩ := Option.map_eq_some_iff.1 h
    right
    cases a with
    | deleteProject projectId =>
      cases hdel : deleteProject w.world.db projectId with
      | error e =>
        refine edited_of_unchanged howned rfl ?_
        simp only [AlertWorld.cascade, hdel]
      | ok db =>
        refine edited_of_deleteRules (p := fun alert => alert.projectId == projectId) howned rfl ?_
        simp only [AlertWorld.cascade, hdel]
    | _ => exact edited_of_unchanged howned rfl rfl
  | createAlert data newId =>
    right
    rcases commit_cases (Option.some.inj h) with rfl | ⟨t, hok, rfl⟩
    · exact edited_of_unchanged howned rfl rfl
    obtain ⟨rules, hins, rfl⟩ := createAlert_eq_ok hok
    refine edited_of_rules howned rfl rfl ?_ fun alert ha => ?_
    · exact fun alert ha => ⟨alert, (Table.mem_insert? hins).2 (.inl ha), rfl⟩
    · rcases (Table.mem_insert? hins).1 ha with ha | rfl
      · exact .inr ⟨alert, ha, rfl, .inl rfl⟩
      · exact .inl (Table.insert?_eq_some hins).1
  | updateAlert alertId data =>
    right
    rcases commit_cases (Option.some.inj h) with rfl | ⟨t, hok, rfl⟩
    · exact edited_of_unchanged howned rfl rfl
    obtain ⟨hproject, rfl⟩ := updateAlert_eq_ok hok
    refine edited_of_rules howned rfl rfl ?_ fun alert ha => .inr ?_
    · refine fun alert ha => ⟨_, Table.mem_updateWhere.2 ⟨alert, ha, rfl⟩, ?_⟩
      split_ifs <;> rfl
    · obtain ⟨old, hold, rfl⟩ := Table.mem_updateWhere.1 ha
      refine ⟨old, hold, by split_ifs <;> rfl, ?_⟩
      split_ifs with hid
      · -- the rule of the request: it is moved when another project is given
        cases hp : data.projectId with
        | none => exact .inl (by simp [AlertRuleUpdate.apply, hp])
        | some p =>
          by_cases hne : p = old.projectId
          · exact .inl (by simp [AlertRuleUpdate.apply, hp, hne])
          · exact .inr ⟨beq_iff_eq.1 hid, p, hp, hne, hproject p hp⟩
      · exact .inl rfl
  | deleteAlert alertId =>
    right
    rcases commit_cases (Option.some.inj h) with rfl | ⟨t, hok, rfl⟩
    · exact edited_of_unchanged howned rfl rfl
    exact edited_of_deleteRules howned rfl (deleteAlert_eq_ok hok)
  | checkAlerts inp => exact .inl ⟨inp, rfl, (Option.some.inj h).symm⟩

/-! ### A run of the check -/

theorem runCheck_attempts {inp : CheckInput} :
    (w.runCheck env lib inp).attempts = untilRaised (w.due env lib inp) :=
  doCheckAlerts_attempts

/-- A run in which nothing that is due raises commits. -/
theorem check_commits {inp : CheckInput} (h : ∀ a ∈ w.due env lib inp, a.outcome ≠ .raised) :
    ∃ ns, CheckEffect env w.world.db lib inp w.alerts.rules w.alerts.notifications ns ∧
      w.check env lib inp = ⟨w.world, ⟨w.alerts.rules, ns⟩,
        w.checks ++ [⟨openPairs w.world.db, w.due env lib inp, true⟩]⟩ := by
  obtain ⟨ns, hres⟩ := doCheckAlerts_commits_iff.2 h
  have hrun : (w.runCheck env lib inp).result = .ok ns := hres
  have hall : untilRaised (w.due env lib inp) = w.due env lib inp :=
    untilRaised_eq_self fun a ha => h a (untilRaised_initial.subset ha)
  refine ⟨ns, doCheckAlerts_effect hres, ?_⟩
  simp only [AlertWorld.check, AlertWorld.record, runCheck_attempts, hrun, hall]
  rfl

/-- A run in which something that is due raises leaves all tables alone. -/
theorem check_aborts {inp : CheckInput} (h : ∃ a ∈ w.due env lib inp, a.outcome = .raised) :
    w.check env lib inp = ⟨w.world, w.alerts,
      w.checks ++ [⟨openPairs w.world.db, untilRaised (w.due env lib inp), false⟩]⟩ := by
  obtain ⟨a, ha, hraise⟩ := h
  cases hres : (w.runCheck env lib inp).result with
  | ok ns => exact absurd hraise (doCheckAlerts_commits_iff.1 ⟨ns, hres⟩ a ha)
  | error e =>
    simp only [AlertWorld.check, AlertWorld.record, runCheck_attempts, hres]
    rfl

theorem check_cases (env : Env) (lib : MailLibrary) (w : AlertWorld) (inp : CheckInput) :
    (∀ a ∈ w.due env lib inp, a.outcome ≠ .raised) ∨
      ∃ a ∈ w.due env lib inp, a.outcome = .raised := by
  by_cases h : ∃ a ∈ w.due env lib inp, a.outcome = .raised
  · exact .inr h
  · exact .inl fun a ha hraise => h ⟨a, ha, hraise⟩

/-- A check changes no rule. -/
@[simp] theorem check_rules {inp : CheckInput} :
    (w.check env lib inp).alerts.rules = w.alerts.rules := by
  obtain h | h := check_cases env lib w inp
  · obtain ⟨ns, -, heq⟩ := check_commits h
    rw [heq]
  · rw [check_aborts h]

/-- Every notification has its rule, and every pair at most one active notification, which is the
announcement of an episode. -/
structure AlertInvariant (t : AlertTables) : Prop where
  owned : t.Owned
  pairOk : ∀ k, PairOk (history t.notifications k)

theorem pairOk_nil : PairOk [] := .inl rfl

theorem pairOk_resolve {h : List Notification} : PairOk (h.map (·.resolve)) := by
  refine .inl ?_
  rw [activeOf_map fun _ => false]
  · simp
  · exact fun _ _ => rfl

theorem pair_of_mem_history {ns : List Notification} {k : Uuid × Uuid} :
    ∀ n ∈ history ns k, n.pair = k := fun _ hn => (mem_history.1 hn).2

theorem Edited.invariant {a : AlertAction} (h : Edited a w w')
    (hinv : AlertInvariant w.alerts) : AlertInvariant w'.alerts where
  owned n hn := ((h.notifications n).1 hn).2
  pairOk k := by
    by_cases hk : ∃ alert ∈ w'.alerts.rules, alert.id = k.1
    · rw [h.histories k hk]
      exact hinv.pairOk k
    · have hnil : history w'.alerts.notifications k = [] :=
        List.eq_nil_iff_forall_not_mem.2 fun n hn => by
          obtain ⟨hmem, rfl⟩ := mem_history.1 hn
          exact hk ((h.notifications n).1 hmem).2
      rw [hnil]
      exact pairOk_nil

section Effect

variable {db : Database} {inp : CheckInput} {rules : Table AlertRule} {ns ns' : List Notification}

theorem CheckEffect.pairOk (h : CheckEffect env db lib inp rules ns ns')
    (hok : ∀ k, PairOk (history ns k)) (k : Uuid × Uuid) : PairOk (history ns' k) := by
  by_cases hk : ∃ alert vuln, Visited db rules alert vuln ∧ (alert.id, vuln.id) = k
  · obtain ⟨alert, vuln, hv, rfl⟩ := hk
    rw [h.visited alert vuln hv]
    exact pairOk_afterVisit pair_of_mem_history (hok _)
  · rw [h.other k fun alert vuln hv heq => hk ⟨alert, vuln, hv, heq⟩]
    split_ifs
    · exact pairOk_resolve
    · exact hok k

/-- A run adds notifications of stored rules only. -/
theorem CheckEffect.owned (h : CheckEffect env db lib inp rules ns ns')
    (howned : AlertTables.Owned ⟨rules, ns⟩) : AlertTables.Owned ⟨rules, ns'⟩ := by
  intro n hn
  by_cases hk : ∃ alert vuln, Visited db rules alert vuln ∧ (alert.id, vuln.id) = n.pair
  · obtain ⟨alert, vuln, hv, hpair⟩ := hk
    exact ⟨alert, hv.rule, congrArg Prod.fst hpair⟩
  · have hmem : n ∈ history ns' n.pair := mem_history.2 ⟨hn, rfl⟩
    rw [h.other n.pair fun alert vuln hv heq => hk ⟨alert, vuln, hv, heq⟩] at hmem
    split_ifs at hmem
    · obtain ⟨m, hm, rfl⟩ := List.mem_map.1 hmem
      exact howned m (mem_history.1 hm).1
    · exact howned n (mem_history.1 hmem).1

end Effect

theorem check_invariant {inp : CheckInput} (hinv : AlertInvariant w.alerts) :
    AlertInvariant (w.check env lib inp).alerts := by
  obtain h | h := check_cases env lib w inp
  · obtain ⟨ns, heffect, heq⟩ := check_commits h
    rw [heq]
    exact ⟨heffect.owned hinv.owned, heffect.pairOk hinv.pairOk⟩
  · rw [check_aborts h]
    exact hinv

theorem alertInvariant_empty : AlertInvariant .empty where
  owned _ hn := absurd hn List.not_mem_nil
  pairOk _ := pairOk_nil

theorem alertInvariant_step {a : AlertAction} (hinv : AlertInvariant w.alerts)
    (h : AlertWorld.step env lib w a = some w') : AlertInvariant w'.alerts := by
  rcases alertStep_cases hinv.owned h with ⟨inp, -, rfl⟩ | hedit
  · exact check_invariant hinv
  · exact hedit.invariant hinv

/-- **The invariant holds in every reachable state.** -/
theorem alertInvariant (hw : (alertSystem env lib).Reachable w) : AlertInvariant w.alerts :=
  hw.invariant alertInvariant_empty fun _ _ _ hinv _ hst => alertInvariant_step hinv hst

/-! ### A concrete system with alerts

The demonstration again, with findings that are critical. -/

/-- The matches of a report whose findings are critical. -/
def criticalMatches : List UInt8 → List Json
  | p :: c :: rest =>
    .obj [("vulnerability",
        .obj [("id", .str (demoName 'c' c.toNat)), ("severity", .str "critical")]),
      ("artifact", .obj [("purl", .str (demoName 'p' p.toNat))])] :: criticalMatches rest
  | _ => []

def alertEnv : Env := { demoEnv with
  loads
    | 2 :: pairs => .ok (.obj [("matches", .arr (criticalMatches pairs))])
    | bytes => demoEnv.loads bytes }

/-- A library that parses every header of one line. -/
def plainMail : MailLibrary where
  parseHeader _ _ := .ok ()
  setContent _ := .ok ()

/-- Upload the document with a serial number for a service, which is `serviceId` if it is new. -/
def serviceUpload (serial : UInt8) (id : Uuid) (serviceName : Option String) (serviceId : Uuid)
    (now : DateTime) : AlertAction :=
  .base (.uploadSbom ⟨none, some "project", none, serviceName, [0, serial]⟩
    ⟨serviceId, id, now⟩)

/-- Scan the SBOM `id`; the findings are critical. -/
def criticalScan (id : Uuid) (pairs : List UInt8) (now : DateTime) : AlertAction :=
  .base (.scanSbom (alertEnv.strUuid id) ⟨.exited 0 (2 :: pairs), String.length, now, now⟩)

/-- Create the rule `id` for the project of the demonstration. -/
def slackRule (id : Uuid) (enabled : Bool) : AlertAction :=
  .createAlert ⟨1, .HIGH, .SLACK, [], enabled, rfl⟩ id

/-- Enable or disable a rule. -/
def setEnabled (id : Uuid) (enabled : Bool) : AlertAction :=
  .updateAlert id ⟨none, none, none, some enabled⟩

/-- A run of the check in which the channels take some of the messages. -/
def demoCheck (sends : Uuid → Uuid → Bool) : CheckInput where
  settings := ⟨"mail", "argus", "slack", "discord", []⟩
  alertOrder := storedOrder AlertRule
  pairOrder := storedOrder (Uuid × Uuid)
  sends := sends

def alertDemo (as : List AlertAction)
    (h : ((alertSystem alertEnv plainMail).run (alertSystem alertEnv plainMail).init as).isSome) :
    AlertWorld :=
  (alertSystem alertEnv plainMail).after as h

theorem alertDemo_reachable {as : List AlertAction}
    {h : ((alertSystem alertEnv plainMail).run
      (alertSystem alertEnv plainMail).init as).isSome} :
    (alertSystem alertEnv plainMail).Reachable (alertDemo as h) :=
  Machine.reachable_after

theorem alertDemo_reaches {P : AlertWorld → AlertAction → Prop} {as : List AlertAction}
    {h : ((alertSystem alertEnv plainMail).run
      (alertSystem alertEnv plainMail).init as).isSome}
    (hP : (alertSystem alertEnv plainMail).Allowed P (alertSystem alertEnv plainMail).init as) :
    (alertSystem alertEnv plainMail).Reaches P (alertDemo as h) :=
  Machine.reaches_after hP

/-- A critical finding in the project of the demonstration. -/
def criticalFinding : List AlertAction :=
  [.base demoProject, serviceUpload 1 10 none 0 100, criticalScan 10 [1, 1] 110]

/-- A finding that is to be announced. -/
def demoPending : AlertWorld :=
  alertDemo (criticalFinding ++ [slackRule 5 true]) (by decide +kernel)

/-- A finding that the check has announced. -/
def demoAnnounced : AlertWorld :=
  alertDemo (criticalFinding ++ [slackRule 5 true, .checkAlerts (demoCheck fun _ _ => true)])
    (by decide +kernel)

/-- Two findings and two rules, one of which has tried to announce the first finding in vain. -/
def demoBusy : AlertWorld :=
  alertDemo (criticalFinding ++ [slackRule 5 true, .checkAlerts (demoCheck fun _ _ => false),
    slackRule 6 true, criticalScan 10 [1, 1, 2, 2] 120]) (by decide +kernel)

/-! ### The state of the announcements -/

/-- In every reachable state a pair has at most one active notification, a delivered one has no
failed attempts, and a failed one between one and the allowed number. -/
theorem alert_state (hw : (alertSystem env lib).Reachable w) :
    (∀ pair, (activeOf (history w.alerts.notifications pair)).length ≤ 1) ∧
      (∀ n ∈ w.alerts.notifications, n.status = .SENT → n.attempts = 0) ∧
      ∀ n ∈ w.alerts.notifications, n.status = .FAILED →
        1 ≤ n.attempts ∧ n.attempts ≤ maxAlertDeliveryAttempts := by
  have hok := (alertInvariant hw).pairOk
  have hann : ∀ n ∈ w.alerts.notifications, n.status = .SENT ∨ n.status = .FAILED →
      Announcement n := fun n hn hst =>
    (hok n.pair).announcement (mem_history.2 ⟨hn, rfl⟩) (active_of_status hst)
  refine ⟨fun pair => (hok pair).length_le, fun n hn hst => ?_, fun n hn hst => ?_⟩
  · rcases hann n hn (.inl hst) with ⟨-, hattempts⟩ | ⟨hfailed, -⟩
    · exact hattempts
    · cases hst.symm.trans hfailed
  · rcases hann n hn (.inr hst) with ⟨hsent, -⟩ | ⟨-, hbound⟩
    · cases hst.symm.trans hsent
    · exact hbound

/-- The demonstration with an announced finding. -/
theorem alert_state_demo :
    (∀ pair, (activeOf (history demoAnnounced.alerts.notifications pair)).length ≤ 1) ∧
      (∀ n ∈ demoAnnounced.alerts.notifications, n.status = .SENT → n.attempts = 0) ∧
      ∀ n ∈ demoAnnounced.alerts.notifications, n.status = .FAILED →
        1 ≤ n.attempts ∧ n.attempts ≤ maxAlertDeliveryAttempts :=
  alert_state alertDemo_reachable

end ArgusSbomGuard
