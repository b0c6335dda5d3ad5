import CloudOps.Model.PolicyEngine
import CloudOps.Model.Database

/-!
# The cloud providers (`providers/`)

`MockAwsProvider` filters a fixed inventory. `AwsProvider` asks the services of an account; what
they answer is `AwsCloud`, each call with a result or with the error that is caught (a call that
times out ends with an error too). The answer of `GetFunction` is not looked at, and `raw`,
`lastSyncedAt` and `version` of an item are no part of a listing here.
-/

set_option autoImplicit false

namespace CloudOps.Model

open CloudOps.Computation

/-- SRCLINE: packages/shared/src/providers/types.ts:3-6 -/
structure InventoryQuery where
  types : Option (List ResourceType)
  region : Option String

/-- The query without a condition, and no query at all. -/
def InventoryQuery.all : InventoryQuery := ⟨none, none⟩

/-- SRCLINE: packages/shared/src/providers/types.ts:16-26 -/
structure ProviderError where
  message : String
  retryable : Bool
  code : String

/-- SRCLINE: packages/shared/src/providers/types.ts:8-14 -/
structure CloudProvider where
  name : Provider
  listResources : InventoryQuery → Except ProviderError (List ListedResource)

/-- `Object.fromEntries`: a later entry of a key replaces an earlier one. -/
def fromEntries (entries : List (String × String)) : StringRecord :=
  entries.foldl (fun record entry => record.set entry.1 entry.2) Dict.empty

def noMetrics : ResourceMetrics := ⟨none, none, none, none, none, none, none⟩

/-! ## The mock inventory -/

/-- `resource({…})` of a type in a region; the rest of its fields follow.
SRCLINE: packages/shared/src/providers/mock.ts:7-21 -/
def mockResource (type : ResourceType) (region arn name : String) (tags : List (String × String))
    (config : ResourceConfig) (metrics : ResourceMetrics) : ListedResource where
  provider := .mock
  type := type
  region := region
  arn := arn
  name := name
  tags := fromEntries tags
  config := config
  metrics := metrics

/-- The fields of `config` in the order of the type. -/
def resourceConfig (publicAccess backupEnabled : Option Bool) (alarms : List String)
    (healthCheckStatus : Option HealthCheckStatus) (instanceState runtime : Option String)
    (encryption : Option Bool) : ResourceConfig :=
  ⟨publicAccess, backupEnabled, some alarms, healthCheckStatus, instanceState, runtime,
    encryption⟩

/-- SRCLINE: packages/shared/src/providers/mock.ts:27-277 -/
def buildMockInventory : List ListedResource :=
  [mockResource .ec2 "us-east-1" "arn:aws:ec2:us-east-1:123456789012:instance/i-web-prod-1"
      "i-web-prod-1" [("Environment", "prod"), ("Owner", "platform"), ("Service", "web")]
      (resourceConfig (some false) (some false) ["cpu-high"] (some .healthy) (some "running") none
        none)
      ⟨some (32 / 10), some 6, some (1 / 100), some 4, some 180, some 0, some 12000⟩,
    mockResource .ec2 "us-east-1" "arn:aws:ec2:us-east-1:123456789012:instance/i-api-prod-2"
      "i-api-prod-2" [("Environment", "prod"), ("Owner", "api"), ("CostCenter", "cc-100"),
        ("Service", "checkout-api")]
      (resourceConfig (some false) (some true) ["5xx"] (some .unhealthy) (some "running") none none)
      ⟨some 62, some 0, some (14 / 100), some 88, some 2400, some (18 / 100), some 54000⟩,
    mockResource .ec2 "us-west-2" "arn:aws:ec2:us-west-2:123456789012:instance/i-batch-dev-3"
      "i-batch-dev-3" []
      (resourceConfig (some false) (some false) [] (some .unknown) (some "running") none none)
      ⟨some 18, some 1, some 0, some 0, some 90, some 0, some 200⟩,
    mockResource .ec2 "us-east-1" "arn:aws:ec2:us-east-1:123456789012:instance/i-db-prod"
      "i-db-prod" [("Environment", "prod"), ("Owner", "data"), ("CostCenter", "cc-200"),
        ("Service", "postgres")]
      (resourceConfig (some false) (some false) ["disk"] (some .healthy) (some "running") none none)
      ⟨some 41, some 0, some (2 / 1000), some 2, some 40, some 0, some 8000⟩,
    mockResource .ec2 "us-east-1" "arn:aws:ec2:us-east-1:123456789012:instance/i-cache-prod"
      "i-cache-prod" [("Environment", "prod"), ("Owner", "platform"), ("CostCenter", "cc-100"),
        ("Service", "redis")]
      (resourceConfig (some false) (some true) [] (some .healthy) (some "running") none none)
      ⟨some 33, some 0, some 0, some 0, some 12, some 0, some 90000⟩,
    mockResource .s3 "us-east-1" "arn:aws:s3:::acme-public-assets" "acme-public-assets"
      [("Environment", "prod"), ("Service", "cdn")]
      (resourceConfig (some true) (some false) [] none none none (some false))
      { noMetrics with requestCount := some 400000 },
    mockResource .s3 "us-east-1" "arn:aws:s3:::acme-logs-private" "acme-logs-private"
      (REQUIRED_TAGS.map fun t => (t, if t = "CostCenter" then "cc-100" else "ops"))
      (resourceConfig (some false) (some true) ["replication-lag"] none none none (some true))
      { noMetrics with requestCount := some 1200 },
    mockResource .s3 "us-west-2" "arn:aws:s3:::acme-data-lake" "acme-data-lake"
      [("Environment", "prod"), ("Owner", "analytics"), ("CostCenter", "cc-300"),
        ("Service", "lake")]
      (resourceConfig (some true) (some true) [] none none none (some true))
      { noMetrics with requestCount := some 22000 },
    mockResource .s3 "us-east-1" "arn:aws:s3:::acme-backups" "acme-backups"
      [("Environment", "prod"), ("Owner", "sre"), ("CostCenter", "cc-100"), ("Service", "backup")]
      (resourceConfig (some false) (some true) ["failed-jobs"] none none none (some true))
      { noMetrics with requestCount := some 80 },
    mockResource .lambda "us-east-1" "arn:aws:lambda:us-east-1:123456789012:function:ingest"
      "ingest" [("Environment", "prod"), ("Owner", "data"), ("Service", "ingest")]
      (resourceConfig none (some false) [] (some .healthy) none (some "nodejs20.x") none)
      ⟨none, none, some (9 / 100), some 41, some 1800, some (4 / 100), some 15000⟩,
    mockResource .lambda "us-east-1" "arn:aws:lambda:us-east-1:123456789012:function:reports"
      "reports" [("Environment", "prod"), ("Owner", "bi"), ("CostCenter", "cc-300"),
        ("Service", "reports")]
      (resourceConfig none (some false) ["errors", "throttles"] (some .healthy) none
        (some "python3.12") none)
      ⟨none, none, some (4 / 1000), some 3, some 420, some 0, some 4000⟩,
    mockResource .lambda "us-east-1" "arn:aws:lambda:us-east-1:123456789012:function:webhooks"
      "webhooks" [("Environment", "prod"), ("Owner", "api"), ("CostCenter", "cc-100"),
        ("Service", "webhooks")]
      (resourceConfig none (some false) ["duration"] (some .healthy) none (some "nodejs20.x") none)
      ⟨none, none, some (3 / 100), some 19, some 700, some (22 / 100), some 9000⟩,
    mockResource .cloudwatch "us-east-1" "arn:aws:cloudwatch:us-east-1:123456789012:alarm:cpu-high"
      "cpu-high" [("Environment", "prod"), ("Owner", "sre"), ("CostCenter", "cc-100"),
        ("Service", "observability")]
      (resourceConfig none none ["cpu-high"] none none none none) noMetrics]

/-- Keeps the items that meet a condition, if there is one. -/
def MockAwsProvider.byTypes (types : Option (List ResourceType)) (items : List ListedResource) :
    List ListedResource :=
  match types with
  | none | some [] => items
  | some types => items.filter fun r => r.type ∈ types

def MockAwsProvider.byRegion (region : Option String) (items : List ListedResource) :
    List ListedResource :=
  match region with
  | none => items
  | some region => if region = "" then items else items.filter fun r => r.region = region

/-- SRCLINE: packages/shared/src/providers/mock.ts:285-296 -/
def MockAwsProvider.listResources (query : InventoryQuery) : List ListedResource :=
  byRegion query.region (byTypes query.types buildMockInventory)

/-! ## The account -/

/-- An error as `catch` sees it. -/
structure SdkError where
  name : String
  message : String

/-- SRCLINE: packages/shared/src/providers/aws.ts:34-39 -/
def isThrottle (err : SdkError) : Bool :=
  ["Throttling", "ThrottlingException", "TooManyRequestsException",
    "TimeoutError"].contains err.name

/-- SRCLINE: packages/shared/src/providers/aws.ts:41-47 -/
def wrap (err : SdkError) (action : String) : ProviderError where
  message := "AWS " ++ action ++ " failed: " ++ err.message
  retryable := isThrottle err
  code := if isThrottle err then "THROTTLED" else "AWS_ERROR"

/-- SRCLINE: packages/shared/src/providers/aws.ts:97-107 -/
def send {α : Type} (label : String) (call : Except SdkError α) : Except ProviderError α :=
  call.mapError fun err => wrap err label

/-- The tags of an answer: keys and values may be missing. -/
abbrev TagList := List (Option String × Option String)

structure Ec2Instance where
  InstanceId : Option String
  Tags : Option TagList
  PublicIpAddress : Option String
  stateName : Option String

structure PublicAccessBlock where
  BlockPublicAcls : Option Bool
  BlockPublicPolicy : Option Bool
  IgnorePublicAcls : Option Bool
  RestrictPublicBuckets : Option Bool

structure LambdaFunction where
  FunctionName : Option String
  FunctionArn : Option String
  Runtime : Option String

/-- What the services answer. A list that is missing is read as empty; the averages are those of
the data points of an instance. -/
structure AwsCloud where
  describeInstances : Except SdkError (Option (List (Option (List Ec2Instance))))
  getMetricStatistics : String → Except SdkError (Option (List (Option ℚ)))
  listBuckets : Except SdkError (Option (List (Option String)))
  getBucketLocation : String → Except SdkError (Option String)
  getBucketTagging : String → Except SdkError (Option TagList)
  getPublicAccessBlock : String → Except SdkError (Option PublicAccessBlock)
  listFunctions : Except SdkError (Option (List LambdaFunction))
  listTags : String → Except SdkError (Option StringRecord)
  listMetrics : Except SdkError (Option (List (Option String)))

/-- `Object.fromEntries` of a tag list. -/
def tagsOf (tags : Option TagList) : StringRecord :=
  fromEntries ((tags.getD []).map fun t => (t.1.getD "", t.2.getD ""))

/-- `Number(x.toFixed(2))`: halves away from zero. -/
def toFixed2 (x : ℚ) : ℚ :=
  if x < 0 then -(⌊-x * 100 + 1 / 2⌋ / 100) else ⌊x * 100 + 1 / 2⌋ / 100

structure AwsProvider where
  region : String
  cloud : AwsCloud

namespace AwsProvider

variable (p : AwsProvider)

/-- SRCLINE: packages/shared/src/providers/aws.ts:147-171 -/
def cpuForInstance (instanceId : String) : ResourceMetrics :=
  let avg := match send "GetMetricStatistics" (p.cloud.getMetricStatistics instanceId) with
    | .ok stats =>
      let points := stats.getD []
      if points.length = 0 then 0 else (points.map (·.getD 0)).sum / points.length
    | .error _ => 0
  { noMetrics with cpuUtilizationAvg := some (toFixed2 avg) }

/-- SRCLINE: packages/shared/src/providers/aws.ts:115-142 -/
def ec2Resource (inst : Ec2Instance) : ListedResource :=
  let id := inst.InstanceId.getD "unknown"
  let tags := tagsOf inst.Tags
  { provider := .aws
    type := .ec2
    region := p.region
    arn := "arn:aws:ec2:" ++ p.region ++ ":instance/" ++ id
    name := (tags.get? "Name").getD id
    tags := tags
    config := {
      publicAccess := some (inst.PublicIpAddress.getD "" != "")
      backupEnabled := some false
      alarms := some []
      healthCheckStatus := some
        (if inst.stateName = some "running" then .healthy else .unknown)
      instanceState := inst.stateName
      runtime := none
      encryption := none }
    metrics := p.cpuForInstance id }

/-- SRCLINE: packages/shared/src/providers/aws.ts:109-145 -/
def listEc2 : Except ProviderError (List ListedResource) := do
  let out ← send "DescribeInstances" p.cloud.describeInstances
  return (out.getD []).flatMap fun reservation => (reservation.getD []).map p.ec2Resource

/-- The region of a bucket: where it says it is, `us-east-1` if it says nothing, the provider's
region if it was not told.
SRCLINE: packages/shared/src/providers/aws.ts:178-186 -/
def bucketRegion (name : String) : String :=
  match send "GetBucketLocation" (p.cloud.getBucketLocation name) with
  | .ok location => if location.getD "" = "" then "us-east-1" else location.getD ""
  | .error _ => p.region

/-- SRCLINE: packages/shared/src/providers/aws.ts:196-210 -/
def bucketPublicAccess (name : String) : Bool :=
  match send "GetPublicAccessBlock" (p.cloud.getPublicAccessBlock name) with
  | .ok cfg => !(cfg.any fun cfg => cfg.BlockPublicAcls.getD false &&
      cfg.BlockPublicPolicy.getD false && cfg.IgnorePublicAcls.getD false &&
      cfg.RestrictPublicBuckets.getD false)
  | .error _ => true

/-- SRCLINE: packages/shared/src/providers/aws.ts:176-223 -/
def s3Resource (bucket : Option String) : ListedResource :=
  let name := bucket.getD "unknown"
  { provider := .aws
    type := .s3
    region := p.bucketRegion name
    arn := "arn:aws:s3:::" ++ name
    name := name
    tags := match send "GetBucketTagging" (p.cloud.getBucketTagging name) with
      | .ok tagSet => tagsOf tagSet
      | .error _ => Dict.empty
    config := resourceConfig (some (p.bucketPublicAccess name)) (some false) [] none none none none
    metrics := noMetrics }

/-- SRCLINE: packages/shared/src/providers/aws.ts:173-226 -/
def listS3 : Except ProviderError (List ListedResource) := do
  let listed ← send "ListBuckets" p.cloud.listBuckets
  return (listed.getD []).map p.s3Resource

/-- SRCLINE: packages/shared/src/providers/aws.ts:233-269 -/
def lambdaResource (fn : LambdaFunction) : ListedResource :=
  let name := fn.FunctionName.getD "unknown"
  { provider := .aws
    type := .lambda
    region := p.region
    arn := fn.FunctionArn.getD name
    name := name
    tags := if fn.FunctionArn.getD "" = "" then Dict.empty else
      match send "ListTags" (p.cloud.listTags (fn.FunctionArn.getD "")) with
      | .ok tags => tags.getD Dict.empty
      | .error _ => Dict.empty
    config := resourceConfig none (some false) [] (some .unknown) none fn.Runtime none
    metrics := noMetrics }

/-- SRCLINE: packages/shared/src/providers/aws.ts:228-272 -/
def listLambda : Except ProviderError (List ListedResource) := do
  let listed ← send "ListFunctions" p.cloud.listFunctions
  return (listed.getD []).map p.lambdaResource

/-- SRCLINE: packages/shared/src/providers/aws.ts:278-290 -/
def metricResource (m : Option String × ℕ) : ListedResource where
  provider := .aws
  type := .cloudwatch
  region := p.region
  arn := "arn:aws:cloudwatch:" ++ p.region ++ ":metric/" ++ m.1.getD "metric" ++ "-" ++ toString m.2
  name := m.1.getD ("metric-" ++ toString m.2)
  tags := Dict.empty
  config := resourceConfig none none [m.1.getD "metric"] none none none none
  metrics := noMetrics

/-- SRCLINE: packages/shared/src/providers/aws.ts:274-291 -/
def listAlarms : Except ProviderError (List ListedResource) := do
  let metrics ← send "ListMetrics" p.cloud.listMetrics
  return ((metrics.getD []).take 20).zipIdx.map p.metricResource

/-- The types listed for a query. -/
def typesOf (query : InventoryQuery) : List ResourceType :=
  query.types.getD [.ec2, .s3, .lambda, .cloudwatch]

/-- SRCLINE: packages/shared/src/providers/aws.ts:80-95 -/
def listResources (query : InventoryQuery) : Except ProviderError (List ListedResource) := do
  let types := typesOf query
  let ec2 ← (if .ec2 ∈ types then p.listEc2 else pure [])
  let s3 ← (if .s3 ∈ types then p.listS3 else pure [])
  let lambda ← (if .lambda ∈ types then p.listLambda else pure [])
  let alarms ← (if .cloudwatch ∈ types then p.listAlarms else pure [])
  return ec2 ++ s3 ++ lambda ++ alarms

end AwsProvider

/-- SRCLINE: packages/shared/src/providers/factory.ts:15-27 -/
def createCloudProvider (mode : Provider) (region : String) (cloud : AwsCloud) : CloudProvider :=
  match mode with
  | .aws => ⟨.aws, AwsProvider.listResources ⟨region, cloud⟩⟩
  | .mock => ⟨.mock, fun query => .ok (MockAwsProvider.listResources query)⟩

end CloudOps.Model
