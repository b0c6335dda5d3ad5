import CloudOps.Model.CircuitBreaker

/-!
# The diagnostics client (`diagnostics/client.ts`)

What the diagnostics service answers with, and the ways in which a call of it fails. The
HTTP exchange is an argument. JSON that is only passed on is kept as its text.
-/

set_option autoImplicit false

namespace CloudOps.Model

/-- A JSON value that is stored and returned unread, as its text. -/
abbrev JsonText := String

/-- SRCLINE: packages/shared/src/diagnostics/client.ts:23-28 -/
structure EngineRecommendation where
  actionType : ActionType
  explanation : String
  estimatedImpact : String
  confidence : ℚ
  deriving DecidableEq

/-- SRCLINE: packages/shared/src/diagnostics/client.ts:15-29 -/
structure EngineFinding where
  resourceId : String
  ruleId : String
  severity : String
  title : String
  description : String
  evidence : JsonText
  recommendation : EngineRecommendation
  deriving DecidableEq

structure DiagnosticEngineResult where
  findings : List EngineFinding

/-- How the HTTP exchange went: `fetch` was rejected, took too long, or was answered with a status
and a body that is JSON or is not. -/
inductive Exchange
  | rejected (error : OtherError)
  | timedOut
  | answered (status : ℕ) (body : Except OtherError DiagnosticEngineResult)

/-- `response.ok`. -/
def ok (status : ℕ) : Bool := 200 ≤ status && status ≤ 299

/-- The function `analyze` passes to the breaker.
SRCLINE: packages/shared/src/diagnostics/client.ts:44-66 -/
def Exchange.result : Exchange → Except AppError DiagnosticEngineResult
  | .rejected error => .error (.internal error)
  | .timedOut => .error (.internal ⟨"Error", "Diagnostics service timed out"⟩)
  | .answered status body =>
    if !ok status then
      .error (.dependency ("Diagnostics returned HTTP " ++ toString status) (500 ≤ status))
    else
      match body with
      | .ok result => .ok result
      | .error error => .error (.internal error)

/-- `analyze`, the exchange taking from `started` to `settled`.
SRCLINE: packages/shared/src/diagnostics/client.ts:39-67 -/
def DiagnosticsClient.analyze (breaker : CircuitBreaker) (started settled : Time)
    (exchange : Exchange) : Except AppError DiagnosticEngineResult × CircuitBreaker :=
  match breaker.exec started with
  | (.error e, breaker) => (.error e, breaker)
  | (.ok _, breaker) =>
    match exchange.result with
    | .ok result => (.ok result, breaker.settle settled true)
    | .error e => (.error e, breaker.settle settled false)

end CloudOps.Model
