import CloudOps.Computation.Dict
import CloudOps.Model.Types
import Mathlib.Data.Rat.Floor

/-!
# Simulated remediation

`applySimulatedAction` and its guards, over the resource types of `types/index.ts`. An
absent field is `none`, a number of the source is a rational, a `Record<string, string>` is
an insertion-ordered dictionary.
-/

set_option autoImplicit false

namespace CloudOps.Model

open CloudOps.Computation

inductive HealthCheckStatus
  | healthy | unhealthy | unknown
  deriving DecidableEq, Repr

/-- SRCLINE: packages/shared/src/types/index.ts:50-58 -/
structure ResourceConfig where
  publicAccess : Option Bool
  backupEnabled : Option Bool
  alarms : Option (List String)
  healthCheckStatus : Option HealthCheckStatus
  instanceState : Option String
  runtime : Option String
  encryption : Option Bool
  deriving DecidableEq

/-- SRCLINE: packages/shared/src/types/index.ts:60-68 -/
structure ResourceMetrics where
  cpuUtilizationAvg : Option ℚ
  consecutiveLowUtilizationPeriods : Option ℚ
  errorRate : Option ℚ
  errorCount : Option ℚ
  p99LatencyMs : Option ℚ
  failureRateDelta : Option ℚ
  requestCount : Option ℚ
  deriving DecidableEq

/-- A `Record<string, string>`. -/
abbrev StringRecord := Dict String String

/-- What an action reads and writes of a resource.
SRCLINE: packages/shared/src/remediation/engine.ts:12-16 -/
structure ResourceState where
  tags : StringRecord
  config : ResourceConfig
  metrics : ResourceMetrics
  deriving DecidableEq

structure RemediationAction where
  actionType : ActionType
  resourceId : String
  findingId : String
  params : StringRecord
  deriving DecidableEq

structure ActionResult where
  actionType : ActionType
  resourceId : String
  ok : Bool
  simulated : Bool
  message : String
  deriving DecidableEq

/-- SRCLINE: packages/shared/src/remediation/engine.ts:5-9 -/
def assertAllowlisted (actionType : ActionType) : Except AppError Unit :=
  if actionType ∈ ALLOWLISTED_ACTIONS then pure ()
  else throw (.forbidden ("Action " ++ actionType.name ++ " is not allowlisted"))

/-- The result every branch of `applySimulatedAction` returns, up to its message. -/
def simulatedResult (action : RemediationAction) (message : String) : ActionResult where
  actionType := action.actionType
  resourceId := action.resourceId
  ok := true
  simulated := true
  message := message

/-- The copy the actions work on; its alarms are always present.
SRCLINE: packages/shared/src/remediation/engine.ts:20-24 -/
def ResourceState.next (resource : ResourceState) : ResourceState :=
  { resource with
    config := { resource.config with alarms := some (resource.config.alarms.getD []) } }

/-- SRCLINE: packages/shared/src/remediation/engine.ts:11-99 -/
def applySimulatedAction (resource : ResourceState) (action : RemediationAction) :
    Except AppError (ResourceState × ActionResult) := do
  assertAllowlisted action.actionType
  let next := resource.next
  match action.actionType with
  | .addMissingTag =>
      let key := (action.params.get? "key").getD "Owner"
      let value := (action.params.get? "value").getD "platform"
      pure ({ next with tags := next.tags.set key value },
        simulatedResult action ("Added tag " ++ key ++ "=" ++ value))
  | .createAlarm =>
      let alarm := (action.params.get? "alarmName").getD (action.resourceId ++ "-health")
      let alarms := next.config.alarms.getD []
      let alarms := if alarm ∈ alarms then alarms else alarms ++ [alarm]
      pure ({ next with config := { next.config with alarms := some alarms } },
        simulatedResult action ("Created simulated alarm " ++ alarm))
  | .enableBackupPolicy =>
      pure ({ next with config := { next.config with backupEnabled := some true } },
        simulatedResult action "Enabled simulated backup policy")
  | .restartUnhealthyService =>
      pure ({ next with
          config := { next.config with healthCheckStatus := some .healthy }
          metrics := { next.metrics with
            errorRate := some (min (next.metrics.errorRate.getD 0) (1 / 100)) } },
        simulatedResult action "Restarted simulated unhealthy service")
  | .restrictPublicStorage =>
      pure ({ next with config := { next.config with publicAccess := some false } },
        simulatedResult action "Restricted simulated public storage access")
  | actionType => throw (.validation ("Unsupported action " ++ actionType.name))

/-- SRCLINE: packages/shared/src/remediation/engine.ts:101-107 -/
def rejectMutationsIfDisabled (enableAwsMutations : Bool) (providerName : Provider) :
    Except AppError Unit :=
  if providerName == .aws && !enableAwsMutations then
    throw (.forbidden ("Real AWS mutations are disabled. Set ENABLE_AWS_MUTATIONS=true only " ++
      "after explicit confirmation."))
  else pure ()

/-- The parameters `RemediationService` plans an action with.
SRCLINE: apps/api/src/services/remediation-service.ts:254-263 -/
def defaultParams (actionType : ActionType) (resourceId : String) : StringRecord :=
  match actionType with
  | .addMissingTag => ⟨[("key", "Owner"), ("value", "platform")], by decide⟩
  | .createAlarm => ⟨[("alarmName", resourceId ++ "-health")], by simp⟩
  | _ => Dict.empty

end CloudOps.Model
