import ArgusSbomGuard.Alerts.Schema
import ArgusSbomGuard.Sbom.Upload

/-!
# Creating, updating and deleting alert rules

`create_alert`, `update_alert` and `delete_alert` of `api/v1/alerts.py`.  A rule takes its
notifications along when it is deleted, and a project its rules: these cascades are those of the
ORM relationships.
-/

namespace ArgusSbomGuard

/-- The tables of `models/alert.py`. -/
structure AlertTables where
  rules : Table AlertRule
  notifications : List Notification

namespace AlertTables

def empty : AlertTables := ⟨.empty, []⟩

/-- Delete rules, with their notifications. -/
def deleteRules (t : AlertTables) (p : AlertRule → Bool) : AlertTables where
  rules := t.rules.deleteWhere p
  notifications := t.notifications.filter fun n =>
    !t.rules.rows.any fun alert => p alert && alert.id == n.alertRuleId

/-- Every notification has its rule. -/
def Owned (t : AlertTables) : Prop :=
  ∀ n ∈ t.notifications, ∃ alert ∈ t.rules, alert.id = n.alertRuleId

end AlertTables

/-- A request body that passed validation, after which no text has a NUL character. -/
structure AlertRuleCreate where
  projectId : Uuid
  severityThreshold : SeverityThreshold
  notificationType : NotificationChannel
  config : List (String × Json)
  enabled : Bool
  stripped : (Json.obj config).stripNul = .obj config

/-- The row of a new rule. -/
def AlertRuleCreate.row (data : AlertRuleCreate) (newId : Uuid) : AlertRule where
  id := newId
  projectId := data.projectId
  severityThreshold := data.severityThreshold
  notificationType := data.notificationType
  config := data.config
  enabled := data.enabled

/-- A request body that passed validation. -/
structure AlertRuleUpdate where
  projectId : Option Uuid
  severityThreshold : Option SeverityThreshold
  notificationType : Option NotificationChannel
  enabled : Option Bool

/-- The rule with the fields of the request that are there. -/
def AlertRuleUpdate.apply (data : AlertRuleUpdate) (alert : AlertRule) : AlertRule :=
  { alert with
    projectId := data.projectId.getD alert.projectId
    severityThreshold := data.severityThreshold.getD alert.severityThreshold
    notificationType := data.notificationType.getD alert.notificationType
    enabled := data.enabled.getD alert.enabled }

variable (db : Database) (t : AlertTables)

/-- `create_alert`. -/
def createAlert (data : AlertRuleCreate) (newId : Uuid) : Except ApiError AlertTables :=
  match findProject db data.projectId with
  | none => .error (.http 404 "Project not found")
  | some _ =>
    if !(Json.obj data.config).storable then .error (.unhandled .dataError)
    else match t.rules.insert? (data.row newId) with
      | some rules => .ok { t with rules }
      | none => .error (.unhandled .integrityError)

/-- `update_alert`. -/
def updateAlert (alertId : Uuid) (data : AlertRuleUpdate) : Except ApiError AlertTables :=
  match t.rules.find? fun alert => alert.id == alertId with
  | none => .error (.http 404 "Alert not found")
  | some _ =>
    if data.projectId.any fun projectId => (findProject db projectId).isNone then
      .error (.http 404 "Project not found")
    else .ok { t with
      rules := t.rules.updateWhere (fun alert => alert.id == alertId) data.apply
        fun _ _ => Iff.rfl }

/-- `delete_alert`. -/
def deleteAlert (alertId : Uuid) : Except ApiError AlertTables :=
  match t.rules.find? fun alert => alert.id == alertId with
  | none => .error (.http 404 "Alert not found")
  | some alert => .ok (t.deleteRules fun a => a.id == alert.id)

/-! ### What they change -/

variable {db} {t} {t' : AlertTables}

theorem createAlert_eq_ok {data : AlertRuleCreate} {newId : Uuid}
    (h : createAlert db t data newId = .ok t') :
    ∃ rules, t.rules.insert? (data.row newId) = some rules ∧ t' = { t with rules } := by
  unfold createAlert at h
  split at h
  · cases h
  split_ifs at h
  split at h
  · rename_i rules hins
    exact ⟨rules, hins, (Except.ok.inj h).symm⟩
  · cases h

theorem updateAlert_eq_ok {alertId : Uuid} {data : AlertRuleUpdate}
    (h : updateAlert db t alertId data = .ok t') :
    (∀ p ∈ data.projectId, ∃ project ∈ db.projects, project.id = p) ∧
      t' = { t with
        rules := t.rules.updateWhere (fun alert => alert.id == alertId) data.apply
          fun _ _ => Iff.rfl } := by
  unfold updateAlert at h
  split at h
  · cases h
  split_ifs at h with hproject
  refine ⟨fun p hp => ?_, (Except.ok.inj h).symm⟩
  cases hfind : findProject db p with
  | none => simp [Option.mem_def.1 hp, hfind] at hproject
  | some project =>
    obtain ⟨hmem, hid⟩ := Table.mem_of_find? hfind
    exact ⟨project, hmem, beq_iff_eq.1 hid⟩

theorem deleteAlert_eq_ok {alertId : Uuid} (h : deleteAlert t alertId = .ok t') :
    t' = t.deleteRules fun alert => alert.id == alertId := by
  unfold deleteAlert at h
  split at h
  · cases h
  · rename_i alert hfind
    obtain rfl := beq_iff_eq.1 (Table.mem_of_find? hfind).2
    exact (Except.ok.inj h).symm

end ArgusSbomGuard
