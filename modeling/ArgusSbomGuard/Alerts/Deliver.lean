import ArgusSbomGuard.Alerts.Schema

/-!
# Delivering an alert

`_deliver` of `services/alerting.py` and the channels of `services/notifications.py`.  Whether a
webhook or the mail server takes a message is an input (`sends`); an exception of these calls is
caught and counts as not taken.  An email is built before that, outside the `try`, with the
standard library's `EmailMessage`, whose exceptions leave `_deliver`: it refuses a header of several
lines (`MailLibrary.setHeader`), and how it parses a header besides is a parameter (`MailLibrary`).
-/

namespace ArgusSbomGuard

/-- What a message is built from; all channels get the same values. -/
structure Message where
  cveId : String
  severity : Option VulnerabilitySeverity
  projectName : String
  serviceNames : List String
  affected : List String
  summary : Option String

/-- How `email.message.EmailMessage` parses the value of a header and encodes a content. -/
structure MailLibrary where
  parseHeader : String → Json → Except PyError Unit
  setContent : Message → Except PyError Unit

/-- `msg[name] = value`; only a text is checked for line breaks. -/
def MailLibrary.setHeader (lib : MailLibrary) (name : String) (value : Json) :
    Except PyError Unit :=
  match value with
  | .str s => if PyStr.multiline s then .error .valueError else lib.parseHeader name value
  | _ => lib.parseHeader name value

/-- The short name of one entry of `affected_packages`. -/
def packageName (purl : String) : String :=
  let afterSlash := (purl.toList.reverse.takeWhile (· ≠ '/')).reverse
  String.ofList ((afterSlash.takeWhile (· ≠ '@')).takeWhile (· ≠ '?'))

/-- `_package_names`. -/
def packageNames (affectedPackages : List String) : List String :=
  affectedPackages.foldl (fun names purl =>
    if packageName purl ≠ "" ∧ packageName purl ∉ names then names ++ [packageName purl]
    else names) []

variable (lib : MailLibrary) (settings : Settings)

/-- `send_email`. -/
def sendEmail (recipients : Json) (subject : String) (message : Message) (sends : Bool) :
    Except PyError Bool :=
  if settings.smtpHost = "" then .ok false
  else do
    lib.setHeader "Subject" (.str subject)
    lib.setHeader "From" (.str settings.smtpFrom)
    lib.setHeader "To" recipients
    lib.setContent message
    return sends

/-- `_deliver`. -/
def deliver (alert : AlertRule) (vuln : Vulnerability) (projectName : String)
    (serviceNames : List String) (sends : Bool) : Except PyError (NotificationChannel × Bool) :=
  let message : Message := {
    cveId := vuln.cveId
    severity := vuln.severity
    projectName
    serviceNames
    affected := packageNames vuln.affectedPackages
    summary := vuln.summary }
  match alert.notificationType with
  | .SLACK => if settings.slackWebhookUrl = "" then .ok (.SLACK, false) else .ok (.SLACK, sends)
  | .DISCORD =>
    if settings.discordWebhookUrl = "" then .ok (.DISCORD, false) else .ok (.DISCORD, sends)
  | .EMAIL =>
    let recipients := ((alert.config.lookup "to").getD .null).pyOr
      (.str (", ".intercalate settings.alertEmailRecipients))
    if !recipients.truthy then .ok (.EMAIL, false)
    else do return (.EMAIL, ← sendEmail lib settings recipients ("Critical: " ++ vuln.cveId)
      message sends)

end ArgusSbomGuard
