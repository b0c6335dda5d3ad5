import CloudOps.Model.RemediationEngine
import Mathlib.Data.List.Infix

/-!
# The policy engine

The nine rules of the Python service, over JSON values as Python holds them. `evaluate`
raises if a rule does, so every rule is an `Except`; what `float`, `int` and `len` refuse
is as in CPython. Floats are rationals with the two infinities and not-a-number. The
grammar of numerals in strings is a parameter, `PyNumerals`: no rule looks at a
string's digits, and every result holds for all of them.

The last section is the payload the worker sends for a typed resource.
-/

set_option autoImplicit false

namespace CloudOps.Model

open CloudOps.Computation

/-! ## Python values -/

inductive PyFloat
  | fin (q : ℚ) | posInf | negInf | nan
  deriving DecidableEq

/-- A JSON value after parsing. -/
inductive PyVal
  | none
  | bool (b : Bool)
  | int (n : ℤ)
  | float (x : PyFloat)
  | str (s : String)
  | list (items : List PyVal)
  | dict (entries : List (String × PyVal))

inductive PyError
  | valueError | typeError | overflowError
  deriving DecidableEq, Repr

/-- What `float(s)` and `int(s)` read from a string, `none` being the `ValueError`. -/
structure PyNumerals where
  float : String → Option PyFloat
  int : String → Option ℤ

/-- `bool(v)`. -/
def PyVal.truthy : PyVal → Bool
  | .none => false
  | .bool b => b
  | .int n => n != 0
  | .float x => x != .fin 0
  | .str s => s != ""
  | .list items => !items.isEmpty
  | .dict entries => !entries.isEmpty

/-- `v or w`. -/
def PyVal.or (v w : PyVal) : PyVal := if v.truthy then v else w

/-- `d.get(k)`. -/
def pyGet (d : Dict String PyVal) (k : String) : PyVal := (d.get? k).getD .none

/-- `float(v)`. An integer from `2 ** 1024 - 2 ** 970` on rounds past the largest float. -/
def pyFloat (numerals : PyNumerals) : PyVal → Except PyError PyFloat
  | .bool b => pure (.fin (if b then 1 else 0))
  | .int n => if n.natAbs < 2 ^ 1024 - 2 ^ 970 then pure (.fin n) else throw .overflowError
  | .float x => pure x
  | .str s => match numerals.float s with
    | some x => pure x
    | none => throw .valueError
  | .none | .list _ | .dict _ => throw .typeError

/-- The integer part, towards zero. -/
def truncate (q : ℚ) : ℤ := if 0 ≤ q then ⌊q⌋ else ⌈q⌉

/-- `int(v)`. -/
def pyInt (numerals : PyNumerals) : PyVal → Except PyError ℤ
  | .bool b => pure (if b then 1 else 0)
  | .int n => pure n
  | .float (.fin q) => pure (truncate q)
  | .float .nan => throw .valueError
  | .float _ => throw .overflowError
  | .str s => match numerals.int s with
    | some n => pure n
    | none => throw .valueError
  | .none | .list _ | .dict _ => throw .typeError

/-- `len(v)`. -/
def pyLen : PyVal → Except PyError ℕ
  | .str s => pure s.length
  | .list items => pure items.length
  | .dict entries => pure entries.length
  | _ => throw .typeError

/-- `x < q` for a number `q`. -/
def PyFloat.ltNum : PyFloat → ℚ → Bool
  | .fin x, q => x < q
  | .negInf, _ => true
  | .posInf, _ | .nan, _ => false

/-- `x > q` for a number `q`. -/
def PyFloat.gtNum : PyFloat → ℚ → Bool
  | .fin x, q => q < x
  | .posInf, _ => true
  | .negInf, _ | .nan, _ => false

/-- `s.lower()`, character by character. The rules compare the result with `prod` and
`production` alone, and no character outside ASCII has a lower case that could be part of an
occurrence of either. -/
def pyLower (s : String) : String := String.ofList (s.toList.map Char.toLower)

/-- `needle in s`. -/
def pyIn (needle s : String) : Bool := decide (needle.toList <:+: s.toList)

/-! ## Payloads and findings (`models.py`) -/

inductive Severity
  | critical | high | medium | low | info
  deriving DecidableEq, Repr

structure ResourcePayload where
  id : String
  type : String
  region : String
  name : String
  tags : StringRecord
  config : Dict String PyVal
  metrics : Dict String PyVal

structure RecommendationOut where
  actionType : ActionType
  explanation : String
  estimatedImpact : String
  confidence : ℚ

structure FindingOut where
  resourceId : String
  ruleId : String
  severity : Severity
  title : String
  description : String
  evidence : List (String × PyVal)
  recommendation : RecommendationOut

/-! ## The rules (`engine.py`) -/

def REQUIRED_TAGS : List String := ["Environment", "Owner", "CostCenter", "Service"]

def STATEFUL_TYPES : List String := ["ec2", "s3"]

def PRODUCTION_HINTS : List String := ["prod", "production"]

/-- SRCLINE: services/diagnostics/app/engine.py:18-20 -/
def isProd (resource : ResourcePayload) : Bool :=
  let env := pyLower ((resource.tags.get? "Environment").getD "")
  PRODUCTION_HINTS.contains env || pyIn "prod" (pyLower resource.name)

/-- `resource.metrics.get(key) or 0`. -/
def metricOrZero (resource : ResourcePayload) (key : String) : PyVal :=
  (pyGet resource.metrics key).or (.int 0)

section Rules

variable (numerals : PyNumerals) (resource : ResourcePayload)

/-- SRCLINE: services/diagnostics/app/engine.py:23-50 -/
def ruleLowUtilization : Except PyError (Option FindingOut) := do
  let cpu ← pyFloat numerals (metricOrZero resource "cpuUtilizationAvg")
  let periods ← pyInt numerals (metricOrZero resource "consecutiveLowUtilizationPeriods")
  if resource.type != "ec2" then return none
  if cpu.ltNum 10 && 3 ≤ periods then
    return some {
      resourceId := resource.id
      ruleId := "ec2.low_utilization"
      severity := .medium
      title := "EC2 instance has persistently low utilization"
      description := "Average CPU has stayed below 10% across consecutive observation " ++
        "periods. This is a rightsizing signal, not an automatic stop."
      evidence := [("cpuUtilizationAvg", .float cpu),
        ("consecutiveLowUtilizationPeriods", .int periods),
        ("threshold", .dict [("cpu", .int 10), ("periods", .int 3)])]
      recommendation := {
        actionType := .manualReview
        explanation :=
          "Review instance family and schedule; do not auto-terminate production compute."
        estimatedImpact :=
          "Potential compute cost reduction with downtime risk if sized incorrectly."
        confidence := 82 / 100 } }
  return none

/-- The required tags a resource lacks or leaves empty.
SRCLINE: services/diagnostics/app/engine.py:54 -/
def missingTags (tags : StringRecord) : List String :=
  REQUIRED_TAGS.filter fun tag => (tags.get? tag).getD "" == ""

/-- SRCLINE: services/diagnostics/app/engine.py:53-70 -/
def ruleMissingTags : Except PyError (Option FindingOut) := do
  let missing := missingTags resource.tags
  if missing.isEmpty then return none
  return some {
    resourceId := resource.id
    ruleId := "resource.missing_tags"
    severity := if !isProd resource then .low else .medium
    title := "Resource is missing required operational tags"
    description := "Cost allocation, ownership, and incident routing depend on " ++
      "Environment, Owner, CostCenter, and Service."
    evidence := [("missingTags", .list (missing.map .str)),
      ("presentTags", .dict (resource.tags.entries.map fun e => (e.1, .str e.2)))]
    recommendation := {
      actionType := .addMissingTag
      explanation := "Add missing tags " ++ ", ".intercalate missing ++
        " using the allowlisted tagging action."
      estimatedImpact := "No runtime impact; improves ownership and cost reporting."
      confidence := 96 / 100 } }

/-- SRCLINE: services/diagnostics/app/engine.py:73-91 -/
def rulePublicS3 : Except PyError (Option FindingOut) := do
  if resource.type != "s3" then return none
  match pyGet resource.config "publicAccess" with
  | .bool true =>
    return some {
      resourceId := resource.id
      ruleId := "s3.public_access"
      severity := .high
      title := "S3 bucket allows public access"
      description :=
        "Public ACLs or a disabled public access block increase data-exfiltration risk."
      evidence := [("publicAccess", .bool true),
        ("encryption", pyGet resource.config "encryption")]
      recommendation := {
        actionType := .restrictPublicStorage
        explanation := "Enable public access block settings unless the bucket is an " ++
          "approved static website."
        estimatedImpact := "May break anonymous reads; confirm CDN origin behavior first."
        confidence := 9 / 10 } }
  | _ => return none

/-- SRCLINE: services/diagnostics/app/engine.py:94-113 -/
def ruleMissingAlarms : Except PyError (Option FindingOut) := do
  if resource.type == "cloudwatch" then return none
  let alarms := (pyGet resource.config "alarms").or (.list [])
  if isProd resource then
    let len ← pyLen alarms
    if len == 0 then
      return some {
        resourceId := resource.id
        ruleId := "cloudwatch.missing_alarms"
        severity := .medium
        title := "Production resource has no CloudWatch alarms"
        description :=
          "Without alarms, failure detection depends on human observation of dashboards."
        evidence := [("alarms", alarms), ("environmentHint", .str "prod")]
        recommendation := {
          actionType := .createAlarm
          explanation := "Create a simulated availability/error alarm as a starting SLO signal."
          estimatedImpact := "Low; additional CloudWatch cost and possible alert noise."
          confidence := 78 / 100 } }
  return none

/-- SRCLINE: services/diagnostics/app/engine.py:116-133 -/
def ruleUnhealthyService : Except PyError (Option FindingOut) := do
  match pyGet resource.config "healthCheckStatus" with
  | .str "unhealthy" =>
    return some {
      resourceId := resource.id
      ruleId := "service.unhealthy"
      severity := .critical
      title := "Service health check is failing"
      description := "The resource is reporting an unhealthy status from its configured check."
      evidence := [("healthCheckStatus", .str "unhealthy"),
        ("instanceState", pyGet resource.config "instanceState")]
      recommendation := {
        actionType := .restartUnhealthyService
        explanation := "Restart the simulated service after confirming the blast radius."
        estimatedImpact := "Brief interruption; in-flight requests may fail."
        confidence := 74 / 100 } }
  | _ => return none

/-- SRCLINE: services/diagnostics/app/engine.py:136-154 -/
def ruleMissingBackup : Except PyError (Option FindingOut) := do
  if !STATEFUL_TYPES.contains resource.type then return none
  match pyGet resource.config "backupEnabled" with
  | .bool false =>
    if isProd resource then
      return some {
        resourceId := resource.id
        ruleId := "resource.missing_backup"
        severity := .high
        title := "Stateful production resource has no backup configuration"
        description := "A failure or accidental deletion would not have a restore point."
        evidence := [("backupEnabled", .bool false), ("type", .str resource.type)]
        recommendation := {
          actionType := .enableBackupPolicy
          explanation :=
            "Enable a simulated backup policy (retention to be confirmed by the owner)."
          estimatedImpact := "Storage cost increase; no immediate runtime impact."
          confidence := 88 / 100 } }
    return none
  | _ => return none

/-- SRCLINE: services/diagnostics/app/engine.py:157-175 -/
def ruleRepeatedErrors : Except PyError (Option FindingOut) := do
  let errorRate ← pyFloat numerals (metricOrZero resource "errorRate")
  let errorCount ← pyInt numerals (metricOrZero resource "errorCount")
  if errorRate.gtNum (5 / 100) && 10 < errorCount then
    return some {
      resourceId := resource.id
      ruleId := "app.repeated_errors"
      severity := .high
      title := "Repeated application errors exceed error-budget threshold"
      description := "Error rate is above 5% with a meaningful absolute error count."
      evidence := [("errorRate", .float errorRate), ("errorCount", .int errorCount),
        ("threshold", .float (.fin (5 / 100)))]
      recommendation := {
        actionType := .restartUnhealthyService
        explanation := "If errors correlate with a wedged process, restart; otherwise " ++
          "investigate application logs."
        estimatedImpact := "Possible brief availability hit; may not fix application defects."
        confidence := 7 / 10 } }
  return none

/-- SRCLINE: services/diagnostics/app/engine.py:178-195 -/
def ruleElevatedLatency : Except PyError (Option FindingOut) := do
  let p99 ← pyFloat numerals (metricOrZero resource "p99LatencyMs")
  if p99.gtNum 1000 then
    return some {
      resourceId := resource.id
      ruleId := "api.elevated_latency"
      severity := .medium
      title := "Elevated API p99 latency"
      description := "p99 latency exceeds 1000ms, which typically breaches user-facing SLOs."
      evidence := [("p99LatencyMs", .float p99), ("thresholdMs", .int 1000)]
      recommendation := {
        actionType := .createAlarm
        explanation := "Create a latency alarm and inspect dependency saturation before scaling."
        estimatedImpact :=
          "Alerting only; no direct user impact from the remediation itself."
        confidence := 76 / 100 } }
  return none

/-- SRCLINE: services/diagnostics/app/engine.py:198-215 -/
def ruleFailureRateIncrease : Except PyError (Option FindingOut) := do
  let delta ← pyFloat numerals (metricOrZero resource "failureRateDelta")
  if delta.gtNum (1 / 10) then
    return some {
      resourceId := resource.id
      ruleId := "reliability.failure_rate_increase"
      severity := .high
      title := "Unusual increase in failure rate"
      description :=
        "Failure rate rose by more than 10 percentage points versus the previous window."
      evidence := [("failureRateDelta", .float delta), ("threshold", .float (.fin (1 / 10)))]
      recommendation := {
        actionType := .createAlarm
        explanation := "Page on further increases and capture a rollback decision record."
        estimatedImpact := "Operational attention; alarm creation is low risk."
        confidence := 8 / 10 } }
  return none

end Rules

/-- SRCLINE: services/diagnostics/app/engine.py:218-228 -/
def RULES (numerals : PyNumerals) : List (ResourcePayload → Except PyError (Option FindingOut)) :=
  [ruleLowUtilization numerals, ruleMissingTags, rulePublicS3, ruleMissingAlarms,
    ruleUnhealthyService, ruleMissingBackup, ruleRepeatedErrors numerals,
    ruleElevatedLatency numerals, ruleFailureRateIncrease numerals]

/-- The loop of `evaluate`: the findings of the rules, in order.
SRCLINE: services/diagnostics/app/engine.py:231-237 -/
def evaluateRules (resource : ResourcePayload) :
    List (ResourcePayload → Except PyError (Option FindingOut)) → Except PyError (List FindingOut)
  | [] => pure []
  | rule :: rules => do
      let result ← rule resource
      let findings ← evaluateRules resource rules
      pure (result.toList ++ findings)

/-- SRCLINE: services/diagnostics/app/engine.py:231-237 -/
def evaluate (numerals : PyNumerals) (resource : ResourcePayload) :
    Except PyError (List FindingOut) :=
  evaluateRules resource (RULES numerals)

/-! ## The endpoint (`main.py`) -/

/-- SRCLINE: services/diagnostics/app/models.py:26-29 -/
structure AnalyzeRequest where
  workspaceId : String
  correlationId : String
  resources : List ResourcePayload

/-- SRCLINE: services/diagnostics/app/models.py:49-51 -/
structure AnalyzeResponse where
  engine : String := "deterministic-operational-policies"
  findings : List FindingOut

/-- The loop of `analyze`: the findings of the resources, in order.
SRCLINE: services/diagnostics/app/main.py:48-50 -/
def evaluateAll (numerals : PyNumerals) : List ResourcePayload → Except PyError (List FindingOut)
  | [] => pure []
  | resource :: resources => do
      let found ← evaluate numerals resource
      let findings ← evaluateAll numerals resources
      pure (found ++ findings)

/-- SRCLINE: services/diagnostics/app/main.py:42-53 -/
def analyze (numerals : PyNumerals) (payload : AnalyzeRequest) :
    Except PyError AnalyzeResponse := do
  let findings ← evaluateAll numerals payload.resources
  pure { findings := findings }

/-! ## The payload of a typed resource -/

def HealthCheckStatus.name : HealthCheckStatus → String
  | .healthy => "healthy"
  | .unhealthy => "unhealthy"
  | .unknown => "unknown"

/-- A rational number of a typed resource, as Python reads it. -/
def pyNumber (q : ℚ) : PyVal := .float (.fin q)

/-- The config of a resource as JSON; an absent field is no key. -/
def ResourceConfig.json (config : ResourceConfig) : Dict String PyVal :=
  Dict.ofFields
    [("publicAccess", config.publicAccess.map .bool),
      ("backupEnabled", config.backupEnabled.map .bool),
      ("alarms", config.alarms.map fun alarms => .list (alarms.map .str)),
      ("healthCheckStatus", config.healthCheckStatus.map fun status => .str status.name),
      ("instanceState", config.instanceState.map .str),
      ("runtime", config.runtime.map .str),
      ("encryption", config.encryption.map .bool)]
    (by simp)

/-- The metrics of a resource as JSON; an absent field is no key. -/
def ResourceMetrics.json (metrics : ResourceMetrics) : Dict String PyVal :=
  Dict.ofFields
    [("cpuUtilizationAvg", metrics.cpuUtilizationAvg.map pyNumber),
      ("consecutiveLowUtilizationPeriods", metrics.consecutiveLowUtilizationPeriods.map pyNumber),
      ("errorRate", metrics.errorRate.map pyNumber),
      ("errorCount", metrics.errorCount.map pyNumber),
      ("p99LatencyMs", metrics.p99LatencyMs.map pyNumber),
      ("failureRateDelta", metrics.failureRateDelta.map pyNumber),
      ("requestCount", metrics.requestCount.map pyNumber)]
    (by simp)

/-- What `JobProcessor.run` sends to the policy engine for one resource.
SRCLINE: apps/worker/src/processor.ts:93-101 -/
def payload (id : String) (type : ResourceType) (region name : String) (resource : ResourceState) :
    ResourcePayload where
  id := id
  type := type.name
  region := region
  name := name
  tags := resource.tags
  config := resource.config.json
  metrics := resource.metrics.json

end CloudOps.Model
