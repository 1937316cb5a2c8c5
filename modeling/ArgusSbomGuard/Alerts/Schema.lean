import ArgusSbomGuard.Models.Schema
import Mathlib.Data.Finset.Dedup

/-!
# Alert rules and notifications

The tables of `models/alert.py` and the settings that the delivery of alerts reads.  The rows of
`notifications` are kept in the order in which they were created; their identifiers are read by no
modelled function.
-/

namespace ArgusSbomGuard

inductive SeverityThreshold
  | CRITICAL | HIGH | MEDIUM | LOW
  deriving DecidableEq

inductive NotificationChannel
  | EMAIL | SLACK | DISCORD
  deriving DecidableEq

inductive NotificationStatus
  | SENT | FAILED | RESOLVED
  deriving DecidableEq

/-- A row of `alert_rules`; `config` is a JSON object. -/
structure AlertRule where
  id : Uuid
  projectId : Uuid
  severityThreshold : SeverityThreshold
  notificationType : NotificationChannel
  config : List (String × Json)
  enabled : Bool

instance : UniqueKeys AlertRule where
  Clash a b := a.id = b.id
  decClash _ _ := inferInstanceAs (Decidable (_ = _))
  clash_symm := Eq.symm

/-- A row of `notifications`. -/
structure Notification where
  alertRuleId : Uuid
  vulnerabilityId : Uuid
  serviceIds : Option (List String)
  channel : Option NotificationChannel
  status : NotificationStatus
  attempts : ℕ
  deriving DecidableEq

/-- The rule and the vulnerability of a notification. -/
def Notification.pair (n : Notification) : Uuid × Uuid := (n.alertRuleId, n.vulnerabilityId)

/-- The notification is not resolved. -/
def Notification.active (n : Notification) : Bool := n.status != .RESOLVED

/-- `set(service_ids or [])`. -/
def Notification.services (n : Notification) : Finset String := (n.serviceIds.getD []).toFinset

/-- The settings of `config.py` for the delivery of alerts. -/
structure Settings where
  smtpHost : String
  smtpFrom : String
  slackWebhookUrl : String
  discordWebhookUrl : String
  alertEmailRecipients : List String

def maxAlertDeliveryAttempts : ℕ := 5

/-! ### Severities -/

/-- `SeverityThreshold.value`. -/
def SeverityThreshold.value : SeverityThreshold → String
  | .CRITICAL => "critical"
  | .HIGH => "high"
  | .MEDIUM => "medium"
  | .LOW => "low"

/-- `_severity_rank`. -/
def severityRank (value : Option String) : ℕ :=
  match PyStr.lower ((value.filter (· ≠ "")).getD "unknown") with
  | "critical" => 0
  | "high" => 1
  | "medium" => 2
  | "low" => 3
  | _ => 99

/-- The severity of a vulnerability is within the threshold of a rule. -/
def withinThreshold (alert : AlertRule) (vuln : Vulnerability) : Bool :=
  !decide (severityRank (some alert.severityThreshold.value) <
    severityRank (vuln.severity.map (·.value)))

end ArgusSbomGuard
