import CloudOps.Model.ResourceService

/-!
# Requests to the services

The calls of the services that write resources, plans, approvals or executions, and their
programs.
-/

set_option autoImplicit false

namespace CloudOps.Model

open CloudOps.Computation

/-- The requests to the two services. -/
inductive ApiRequest
  | createPlan (workspaceId actorId correlationId : String) (input : RemediationService.PlanInput)
  | approve (workspaceId planId actorId correlationId : String)
      (input : RemediationService.ApproveInput)
  | execute (workspaceId planId actorId correlationId : String)
      (input : RemediationService.ExecuteInput)
  | sync (workspaceId actorId correlationId : String) (input : ResourceService.SyncInput)

/-- The program of a request. -/
def ApiRequest.program (hashToken : String → String) (config : ApiConfig) :
    ApiRequest → DbProg Response
  | .createPlan ws actor correlation input =>
    RemediationService.createPlan ws actor correlation input
  | .approve ws planId actor correlation input =>
    RemediationService.approve hashToken config ws planId actor correlation input
  | .execute ws planId actor correlation input =>
    RemediationService.execute hashToken config ws planId actor correlation input
  | .sync ws actor correlation input => ResourceService.sync config ws actor correlation input

/-- A request on its way to the services: the call it leads to, or the error it was refused
with before it got there. -/
abbrev Incoming : Type := Except AppError ApiRequest

/-- The program of an incoming request. -/
def Incoming.program (hashToken : String → String) (config : ApiConfig) (incoming : Incoming) :
    DbProg Response := do
  let request ← Prog.ofExcept incoming
  request.program hashToken config

end CloudOps.Model
