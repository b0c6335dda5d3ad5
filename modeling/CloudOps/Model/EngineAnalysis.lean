import CloudOps.Model.Database
import CloudOps.Model.PolicyEngine

/-!
# The analysis of an inventory

The worker sends the loaded resources to the diagnostics service and reads its answer back
as JSON. `engineAnalysis` is this exchange when the service answers in time; a rule that
raises makes it a status 500. The text of a finding's evidence is a parameter, as nothing
reads it.
-/

set_option autoImplicit false

namespace CloudOps.Model

open CloudOps.Computation

def Severity.name : Severity → String
  | .critical => "critical"
  | .high => "high"
  | .medium => "medium"
  | .low => "low"
  | .info => "info"

/-- A finding of the service as the client reads it.
SRCLINE: packages/shared/src/diagnostics/client.ts:15-29 -/
def FindingOut.received (json : List (String × PyVal) → JsonText) (finding : FindingOut) :
    EngineFinding where
  resourceId := finding.resourceId
  ruleId := finding.ruleId
  severity := finding.severity.name
  title := finding.title
  description := finding.description
  evidence := json finding.evidence
  recommendation := {
    actionType := finding.recommendation.actionType
    explanation := finding.recommendation.explanation
    estimatedImpact := finding.recommendation.estimatedImpact
    confidence := finding.recommendation.confidence }

/-- What the worker sends for the loaded resources.
SRCLINE: apps/worker/src/processor.ts:93-101 -/
def analyzeRequest (workspaceId correlationId : String) (resources : List CloudResource) :
    AnalyzeRequest where
  workspaceId := workspaceId
  correlationId := correlationId
  resources := resources.map fun r => payload r.id r.type r.region r.name r.state

/-- How the service answers a request.
SRCLINE: services/diagnostics/app/main.py:42-53 -/
def engineExchange (numerals : PyNumerals) (json : List (String × PyVal) → JsonText)
    (request : AnalyzeRequest) : Exchange :=
  match analyze numerals request with
  | .ok response => .answered 200 (.ok ⟨response.findings.map (·.received json)⟩)
  | .error _ => .answered 500 (.error ⟨"SyntaxError", "Internal Server Error"⟩)

/-- The analysis a run of the processor gets for the resources it has loaded.
SRCLINE: apps/worker/src/processor.ts:93-108 -/
def engineAnalysis (numerals : PyNumerals) (json : List (String × PyVal) → JsonText)
    (workspaceId correlationId : String) (resources : List CloudResource) :
    Except AppError DiagnosticEngineResult :=
  (engineExchange numerals json (analyzeRequest workspaceId correlationId resources)).result

end CloudOps.Model
