import CloudOps.Model.RemediationEngine

/-!
# Actions as functions on resources

`applySimulatedAction` succeeds exactly on the allowlisted actions, and what it makes of a
resource is then a total function, `effect`. `applyActions` is its iteration over a list,
with the error of the first action that is not allowlisted.
-/

set_option autoImplicit false

namespace CloudOps.Interface

open CloudOps.Computation CloudOps.Model

/-- What an action makes of a resource; an action that is refused leaves it alone. -/
def effect (r : ResourceState) (action : RemediationAction) : ResourceState :=
  match applySimulatedAction r action with
  | .ok (r', _) => r'
  | .error _ => r

/-- Applies a list of actions, each to the result of the one before. -/
def applyActions (r : ResourceState) (actions : List RemediationAction) :
    Except AppError ResourceState :=
  actions.foldlM (fun r action => do
    let (r', _) ← applySimulatedAction r action
    pure r') r

/-- An action of the plan for resource `id`, with the parameters `createPlan` gives it. -/
structure PlannedFor (id : String) (action : RemediationAction) : Prop where
  allowlisted : action.actionType ∈ ALLOWLISTED_ACTIONS
  resourceId : action.resourceId = id
  params : action.params = defaultParams action.actionType id

variable {r : ResourceState} {action : RemediationAction} {id : String}

/-- The allowlist has five action types. -/
theorem mem_allowlisted {t : ActionType} : t ∈ ALLOWLISTED_ACTIONS ↔
    t = .addMissingTag ∨ t = .createAlarm ∨ t = .enableBackupPolicy ∨
      t = .restartUnhealthyService ∨ t = .restrictPublicStorage := by
  simp [ALLOWLISTED_ACTIONS]

/-- The key and the value an `add_missing_tag` action sets. -/
def tagKey (action : RemediationAction) : String := (action.params.get? "key").getD "Owner"

def tagValue (action : RemediationAction) : String := (action.params.get? "value").getD "platform"

/-- The alarm a `create_alarm` action adds. -/
def alarmName (action : RemediationAction) : String :=
  (action.params.get? "alarmName").getD (action.resourceId ++ "-health")

/-- Alarms with one more name, unless it is among them. -/
def withAlarm (alarms : List String) (alarm : String) : List String :=
  if alarm ∈ alarms then alarms else alarms ++ [alarm]

/-- **What `applySimulatedAction` does to an allowlisted action**, branch by branch.
SRCLINE: packages/shared/src/remediation/engine.ts:26-97 -/
theorem applySimulatedAction_ok (h : action.actionType ∈ ALLOWLISTED_ACTIONS) :
    ∃ message, applySimulatedAction r action =
      .ok (effect r action, simulatedResult action message) := by
  unfold effect applySimulatedAction assertAllowlisted
  rw [if_pos h]
  rcases mem_allowlisted.mp h with h | h | h | h | h <;> rw [h] <;> exact ⟨_, rfl⟩

/-- An action that is not allowlisted is refused by name.
SRCLINE: packages/shared/src/remediation/engine.ts:5-9 -/
theorem applySimulatedAction_error (h : action.actionType ∉ ALLOWLISTED_ACTIONS) :
    applySimulatedAction r action =
      .error (.forbidden ("Action " ++ action.actionType.name ++ " is not allowlisted")) := by
  unfold applySimulatedAction assertAllowlisted
  rw [if_neg h]
  rfl

section Effects

/-- The tag action sets its tag. -/
theorem effect_addMissingTag (h : action.actionType = .addMissingTag) :
    effect r action =
      { r.next with tags := r.next.tags.set (tagKey action) (tagValue action) } := by
  simp only [effect, applySimulatedAction, assertAllowlisted, h]
  rfl

/-- The alarm action adds its alarm. -/
theorem effect_createAlarm (h : action.actionType = .createAlarm) :
    effect r action = { r.next with config := { r.next.config with
      alarms := some (withAlarm (r.config.alarms.getD []) (alarmName action)) } } := by
  simp only [effect, applySimulatedAction, assertAllowlisted, h]
  rfl

/-- The backup action turns backups on. -/
theorem effect_enableBackupPolicy (h : action.actionType = .enableBackupPolicy) :
    effect r action =
      { r.next with config := { r.next.config with backupEnabled := some true } } := by
  simp only [effect, applySimulatedAction, assertAllowlisted, h]
  rfl

/-- The restart action makes the service healthy and caps its error rate. -/
theorem effect_restartUnhealthyService (h : action.actionType = .restartUnhealthyService) :
    effect r action =
      { r.next with
        config := { r.next.config with healthCheckStatus := some .healthy }
        metrics := { r.next.metrics with
          errorRate := some (min (r.metrics.errorRate.getD 0) (1 / 100)) } } := by
  simp only [effect, applySimulatedAction, assertAllowlisted, h]
  rfl

/-- The storage action ends public access. -/
theorem effect_restrictPublicStorage (h : action.actionType = .restrictPublicStorage) :
    effect r action =
      { r.next with config := { r.next.config with publicAccess := some false } } := by
  simp only [effect, applySimulatedAction, assertAllowlisted, h]
  rfl

end Effects

/-- A list of allowlisted actions is applied by folding their effects. -/
theorem applyActions_eq_foldl {actions : List RemediationAction}
    (h : ∀ action ∈ actions, action.actionType ∈ ALLOWLISTED_ACTIONS) :
    applyActions r actions = .ok (actions.foldl effect r) := by
  induction actions generalizing r with
  | nil => rfl
  | cons action actions ih =>
      obtain ⟨_, hok⟩ := applySimulatedAction_ok (r := r) (h action List.mem_cons_self)
      have hrest := ih (r := effect r action) fun a ha => h a (List.mem_cons_of_mem _ ha)
      simp only [applyActions, List.foldlM_cons, hok] at hrest ⊢
      exact hrest

end CloudOps.Interface
