import CloudOps.Model.RemediationService

/-!
# The resource service

`sync` writes what the cloud provider lists, resource by resource, each in one atomic update.
The listing, the clock readings and the identities of new documents are arguments.
-/

set_option autoImplicit false

namespace CloudOps.Model.ResourceService

open CloudOps.Computation CloudOps.Model

/-- A listed resource, with the instant and the identity its update draws. -/
structure SyncItem where
  item : ListedResource
  lastSyncedAt : Time
  newId : String

/-- The body of `sync`, what the provider lists for it, and the instant of the audit event. -/
structure SyncInput where
  types : Option (List ResourceType)
  region : Option String
  discovered : Except AppError (List SyncItem)
  auditedAt : Time

/-- The loop of `sync`.
SRCLINE: apps/api/src/services/resource-service.ts:31-40 -/
def syncLoop (workspaceId : String) : List SyncItem → List CloudResource →
    DbProg (List CloudResource)
  | [], upserted => return upserted
  | i :: items, upserted => do
    let doc ← CloudResourceModel.findOneAndUpdate workspaceId i.item i.lastSyncedAt i.newId
    syncLoop workspaceId items (upserted ++ [doc])

def syncAudit (config : ApiConfig) (workspaceId actorId correlationId : String)
    (input : SyncInput) (upserted : List CloudResource) : AuditEvent where
  workspaceId := workspaceId
  actorId := actorId
  action := "resources.sync"
  resourceType := "CloudResource"
  resourceId := none
  correlationId := correlationId
  metadata := .synced upserted.length config.CLOUD_PROVIDER
  createdAt := input.auditedAt

/-- SRCLINE: apps/api/src/services/resource-service.ts:25-52 -/
def sync (config : ApiConfig) (workspaceId actorId correlationId : String) (input : SyncInput) :
    DbProg Response := do
  let discovered ← Prog.ofExcept input.discovered
  let upserted ← syncLoop workspaceId discovered []
  recordAudit (syncAudit config workspaceId actorId correlationId input upserted)
  return .synced config.CLOUD_PROVIDER upserted

end CloudOps.Model.ResourceService
