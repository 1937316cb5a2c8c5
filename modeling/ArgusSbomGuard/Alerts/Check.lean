import ArgusSbomGuard.Alerts.Deliver
import ArgusSbomGuard.Models.Environment
import ArgusSbomGuard.Relational.Query
import ArgusSbomGuard.Risk.Actionable
import Mathlib.Data.List.Sort

/-!
# Checking the alerts

`do_check_alerts` of `services/alerting.py` and the functions it is made of.  A run is one
transaction: it resolves the notifications of what is no longer open, then goes through the
enabled rules and the open vulnerabilities of their projects, delivers what is due and records
the outcome.  An exception on the way rolls everything back, the messages sent so far excepted.

The orders in which the database returns the rules and in which the set of open pairs is gone
through are inputs (`Arrangement`), like the answers of the channels.

## Main definitions

* `openPairs`, `currentServices` : `_open_vulnerabilities`.
* `deliveryAction`, `resolveClosedEpisodes`, `recordDelivery` : the functions of the source.
* `doCheckAlerts` : a run, with the deliveries it attempted (`CheckRun`).
-/

namespace ArgusSbomGuard

/-! ### What is open -/

variable (env : Env) (db : Database)

/-- The rows of the query of `_open_vulnerabilities`. -/
def openRows : List (Uuid × Uuid × Option Uuid) :=
  (joinLinks db (actionable db)).map fun ls =>
    (ls.1.vulnerabilityId, ls.2.projectId, ls.2.serviceId)

/-- `open_pairs`: the project and the vulnerability of each row. -/
def openPairs : List (Uuid × Uuid) := ((openRows db).map fun row => (row.2.1, row.1)).dedup

/-- The scopes of the rows of a vulnerability in a project. -/
def openScopes (projectId vulnId : Uuid) : List (Option Uuid) :=
  ((openRows db).filter fun row => row.1 == vulnId && row.2.1 == projectId).map (·.2.2)

/-- `services_by_vuln.get(vuln_id, {}).get(project_id, [])`: rows without a service add
nothing. -/
def currentServices (projectId vulnId : Uuid) : List String :=
  (((openScopes db projectId vulnId).filterMap id).map env.strUuid).dedup.insertionSort (· ≤ ·)

/-! ### One pair -/

inductive DeliveryAction
  | SKIP | GIVE_UP | RESEND | RETRY | DELIVER
  deriving DecidableEq

/-- The notifications of a rule and a vulnerability: `by_pair`. -/
def history (notifications : List Notification) (pair : Uuid × Uuid) : List Notification :=
  notifications.filter fun n => n.pair == pair

/-- The notifications that are not resolved. -/
def activeOf (existing : List Notification) : List Notification := existing.filter (·.active)

def failedOf (existing : List Notification) : List Notification :=
  existing.filter fun n => n.status == .FAILED

/-- `max(notification.attempts for notification in failed)`, `0` for none. -/
def maxAttempts (failed : List Notification) : ℕ := (failed.map (·.attempts)).foldl max 0

/-- `_delivery_action`. -/
def deliveryAction (existing : List Notification) (currentServices : List String) :
    DeliveryAction :=
  let sent := (activeOf existing).filter fun n => n.status == .SENT
  match sent.getLast? with
  | some n => if n.services = currentServices.toFinset then .SKIP else .RESEND
  | none => match (failedOf existing).getLast? with
    | some n =>
      if n.services ≠ currentServices.toFinset then .RESEND
      else if maxAlertDeliveryAttempts ≤ maxAttempts (failedOf existing) then .GIVE_UP
      else .RETRY
    | none => .DELIVER

/-- The action is one that delivers. -/
def DeliveryAction.delivers : DeliveryAction → Bool
  | .SKIP => false
  | .GIVE_UP => false
  | _ => true

/-- `notification.status = NotificationStatus.RESOLVED`. -/
def Notification.resolve (n : Notification) : Notification := { n with status := .RESOLVED }

/-- `_resolve_closed_episodes`, on all rows: the ones of other rules are not loaded. -/
def resolveClosedEpisodes (notifications : List Notification) (alerts : List AlertRule)
    (openPairs : List (Uuid × Uuid)) : List Notification :=
  notifications.map fun n => match alerts.find? fun alert => alert.id == n.alertRuleId with
    | some alert => if (alert.projectId, n.vulnerabilityId) ∉ openPairs then n.resolve else n
    | none => n

section Record

variable (existing : List Notification) (action : DeliveryAction) (channel : NotificationChannel)
  (success : Bool) (currentServices : List String)

/-- The status and the attempts that `_record_delivery` writes. -/
def recordedStatus : NotificationStatus := if success then .SENT else .FAILED

def recordedAttempts : ℕ :=
  if success then 0 else if action = .RESEND then 1 else maxAttempts (failedOf existing) + 1

/-- What `_record_delivery` makes of a row of `existing`: a resend resolves what is active, any
other delivery updates what failed. -/
def recordRow (n : Notification) : Notification :=
  if action = .RESEND then if n.status ≠ .RESOLVED then n.resolve else n
  else if n.status = .FAILED then
    { n with
      status := recordedStatus success
      channel := some channel
      attempts := recordedAttempts existing action success
      serviceIds := some currentServices }
  else n

/-- The rows that `_record_delivery` adds: none when failed ones were updated. -/
def recordNew (pair : Uuid × Uuid) : List Notification :=
  if action ≠ .RESEND ∧ failedOf existing ≠ [] then []
  else [⟨pair.1, pair.2, some currentServices, some channel, recordedStatus success,
    recordedAttempts existing action success⟩]

/-- `_record_delivery`: the loaded rows after it, and the rows it adds. -/
def recordDelivery (pair : Uuid × Uuid) (rows : List Notification) :
    List Notification × List Notification :=
  (rows.map fun n =>
    if n.pair = pair then recordRow existing action channel success currentServices n else n,
    recordNew existing action channel success currentServices pair)

end Record

/-! ### A run -/

/-- What a run gets from outside: the settings, the orders of its loops, and whether the channel
takes the message of a rule about a vulnerability. -/
structure CheckInput where
  settings : Settings
  alertOrder : Arrangement AlertRule
  pairOrder : Arrangement (Uuid × Uuid)
  sends : Uuid → Uuid → Bool

inductive DeliveryOutcome
  | delivered | failed | raised
  deriving DecidableEq

/-- A delivery that a run attempted; the scopes are those in which the vulnerability was open. -/
structure Attempt where
  alertRuleId : Uuid
  projectId : Uuid
  vulnerabilityId : Uuid
  scopes : List (Option Uuid)
  outcome : DeliveryOutcome
  deriving DecidableEq

/-- The rule and the vulnerability of an attempt. -/
def Attempt.pair (a : Attempt) : Uuid × Uuid := (a.alertRuleId, a.vulnerabilityId)

/-- The channel took the message. -/
def Attempt.succeeded (a : Attempt) : Bool := a.outcome == .delivered

/-- A run of `do_check_alerts`: the deliveries it attempted, in order, and the notifications it
committed. -/
structure CheckRun where
  attempts : List Attempt
  result : Except PyError (List Notification)

variable (lib : MailLibrary) (inp : CheckInput)

/-- The call of `_deliver` for a rule and a vulnerability. -/
def deliverPair (alert : AlertRule) (vuln : Vulnerability) :
    Except PyError (NotificationChannel × Bool) :=
  deliver lib inp.settings alert vuln
    (((db.projects.find? fun p => p.id == alert.projectId).map (·.name)).getD "")
    ((currentServices env db alert.projectId vuln.id).map fun serviceId =>
      ((db.services.find? fun v => env.strUuid v.id == serviceId).map (·.name)).getD "")
    (inp.sends alert.id vuln.id)

def outcomeOf : Except PyError (NotificationChannel × Bool) → DeliveryOutcome
  | .ok (_, true) => .delivered
  | .ok (_, false) => .failed
  | .error _ => .raised

/-- The attempt that a delivery for a rule and a vulnerability is. -/
def attemptFor (alert : AlertRule) (vuln : Vulnerability) : Attempt where
  alertRuleId := alert.id
  projectId := alert.projectId
  vulnerabilityId := vuln.id
  scopes := openScopes db alert.projectId vuln.id
  outcome := outcomeOf (deliverPair env db lib inp alert vuln)

/-- The body of the inner loop, once the rule and the vulnerability are found to go together, for
all of them: `rows` are the loaded notifications and `added` the new ones. -/
def checkVisits : List (AlertRule × Vulnerability) → List Notification → List Notification →
    CheckRun
  | [], rows, added => ⟨[], .ok (rows ++ added)⟩
  | (alert, vuln) :: visits, rows, added =>
    let existing := history rows (alert.id, vuln.id)
    let services := currentServices env db alert.projectId vuln.id
    let action := deliveryAction existing services
    if action.delivers then
      match deliverPair env db lib inp alert vuln with
      | .error e => ⟨[attemptFor env db lib inp alert vuln], .error e⟩
      | .ok (channel, success) =>
        let recorded := recordDelivery existing action channel success services
          (alert.id, vuln.id) rows
        let run := checkVisits visits recorded.1 (added ++ recorded.2)
        ⟨attemptFor env db lib inp alert vuln :: run.attempts, run.result⟩
    else checkVisits visits rows added

/-- The pairs that the loops do not `continue` over.  An open vulnerability is stored, so that
`vulns[vuln_id]` is there. -/
def visits (alerts : List AlertRule) (pairs : List (Uuid × Uuid)) :
    List (AlertRule × Vulnerability) :=
  alerts.flatMap fun alert => pairs.filterMap fun pair =>
    if pair.1 ≠ alert.projectId then none
    else (db.vulnerabilities.find? fun v => v.id == pair.2).bind fun vuln =>
      if withinThreshold alert vuln then some (alert, vuln) else none

/-- `_enabled_alerts`. -/
def enabledAlerts (rules : Table AlertRule) : List AlertRule :=
  inp.alertOrder.order (rules.rows.filter (·.enabled))

/-- `do_check_alerts`. -/
def doCheckAlerts (rules : Table AlertRule) (notifications : List Notification) : CheckRun :=
  let pairs := inp.pairOrder.order (openPairs db)
  let alerts := enabledAlerts inp rules
  if alerts.isEmpty then ⟨[], .ok notifications⟩
  else checkVisits env db lib inp (visits db alerts pairs)
    (resolveClosedEpisodes notifications alerts pairs) []

end ArgusSbomGuard
