import CloudOps.Analysis.AppClients

/-!
# Requests and workers on one database

Requests of the API and the programs of the workers interleave at their database calls, and
writes may fail. Every call of a request is allowed by the claims of its token, at the store
it is performed on (`calls_allowed`); every audit event is borne out by the documents and
names the subject of a request (`audits_borne_out`); a response carries documents of the
workspace of its token, or the error a request is refused with (`responses_confined`).
-/

set_option autoImplicit false

namespace CloudOps.Analysis

open CloudOps.Computation CloudOps.Model

section Runs

variable {app : AppConfig} {db : Database} {clients : ℕ → AppClient}
  {G : AppPool → PoolEvent → Prop} {s : AppPool} {q : ℕ} {call : HttpCall}

/-- **What is performed is permitted**, to a request by its claims or to a worker. -/
theorem permitted_of_performs {e : PoolEvent} {op : DbOp}
    (hs : (Pool.machine database faults).Reaches G (appStart app db clients) s)
    (hp : s.Performs e q op) :
    (∃ call claims, clients q = .http call ∧ call.auth app.packages app.http = .ok claims ∧
      Permits claims call.correlationId (auditAction call.route) (own q s.history) s.store op) ∨
    WorkerPermits s.store op := by
  cases hq : clients q with
  | http call =>
      have hprogram : ((clients q).program app).Permitted database Stays _ _ [] :=
        hq ▸ http_permitted call
      obtain ⟨claims, hclaims, hpermits⟩ := Pool.allowed_of_performs respects_stays hprogram hs hp
      exact Or.inl ⟨call, claims, rfl, hclaims, hpermits⟩
  | _ =>
      have hprogram : ((clients q).program app).Permitted database Stays (fun _ => WorkerPermits) _
          [] :=
        worker_keeps (hq ▸ rfl)
      exact Or.inr (Pool.allowed_of_performs respects_stays hprogram hs hp)

/-- **Every call of a request is allowed**: in every interleaving with any other requests and
workers, writes failing or not, a request makes only the calls that the claims of its verified
token allow at the very store they are performed on.
SRCLINE: apps/api/src/routes/api.ts:30-241, apps/api/src/middleware/auth.ts:5-33,
apps/api/src/services/remediation-service.ts:37-252 -/
theorem calls_allowed
    (hs : (Pool.machine database faults).Reaches G (appStart app db clients) s)
    (hq : clients q = .http call) {ev : Event DbOp Database} (hev : (q, ev) ∈ s.history) :
    ∃ claims, call.auth app.packages app.http = .ok claims ∧ Allowed claims ev.before ev.op := by
  have hprogram : ((clients q).program app).Permitted database Stays _ _ [] :=
    hq ▸ http_permitted call
  obtain ⟨_, _, -, claims, hclaims, hpermits⟩ :=
    Pool.allowed_of_reaches respects_stays hprogram hs hev
  exact ⟨claims, hclaims, hpermits.allowed⟩

/-- The calls of the execution are allowed. -/
theorem calls_allowed_remediation : ∃ s : AppPool, (own 4 s.history).length = 10 ∧
    ∀ ev ∈ own 4 s.history, ∃ claims, Allowed claims ev.before ev.op := by
  refine ⟨remediationPool, by decide +kernel, fun ev hev => ?_⟩
  obtain ⟨claims, -, hallowed⟩ := calls_allowed remediationPool_reached rfl (mem_own.mp hev)
  exact ⟨claims, hallowed⟩

/-- The event has been recorded for a request, which had this past when it recorded it. -/
def Signed (app : AppConfig) (clients : ℕ → AppClient) (history : List (ℕ × Event DbOp Database))
    (past : Past) (event : AuditEvent) : Prop :=
  ∃ q call claims, clients q = .http call ∧ call.auth app.packages app.http = .ok claims ∧
    canOperate claims.role = true ∧ auditAction call.route = some event.action ∧
    event.workspaceId = claims.workspaceId ∧ event.actorId = claims.sub ∧
    event.correlationId = call.correlationId ∧
    ∃ before rest, own q history = past ++ ⟨.recordAudit event, before⟩ :: rest

/-- Who has recorded an event has recorded it, whatever happens next. -/
theorem Signed.append {history : List (ℕ × Event DbOp Database)} {past : Past} {event : AuditEvent}
    (h : Signed app clients history past event) (q' : ℕ) (ev : Event DbOp Database) :
    Signed app clients (history ++ [(q', ev)]) past event := by
  obtain ⟨q, call, claims, hq, hclaims, hrole, haction, hws, hactor, hcorrelation, before, rest,
    hown⟩ := h
  refine ⟨q, call, claims, hq, hclaims, hrole, haction, hws, hactor, hcorrelation, before, ?_⟩
  by_cases hsame : q' = q
  · subst hsame
    exact ⟨rest ++ [ev], by rw [own_append_self, hown, List.append_assoc, List.cons_append]⟩
  · exact ⟨rest, by rw [own_append_ne hsame, hown]⟩

/-- An event after a call was there before, or has just been recorded. -/
theorem mem_audits_exec {op : DbOp} {db : Database} {event : AuditEvent}
    (h : event ∈ (op.exec db).2.audits) : event ∈ db.audits ∨ op = .recordAudit event := by
  cases op with
  | recordAudit new =>
      rcases List.mem_append.mp h with hold | hnew
      · exact Or.inl hold
      · rw [List.mem_singleton.mp hnew]
        exact Or.inr rfl
  | _ => exact Or.inl h

/-- **The audit trail tells the truth**: every event is signed by the subject of a request, in its
workspace and under its correlation id, and the document it names is stored with the figures it
gives. The figure of a `sync` is the number of resources that the request has upserted, each of
which is stored.
SRCLINE: packages/shared/src/audit/record.ts:3-22, apps/api/src/services/job-service.ts:43-51,
apps/api/src/services/remediation-service.ts:90-98,
apps/api/src/services/resource-service.ts:31-50 -/
theorem audits_borne_out (hdb : db.audits = [])
    (hs : (Pool.machine database faults).Reaches G (appStart app db clients) s) :
    ∀ event ∈ s.store.audits, ∃ past, Signed app clients s.history past event ∧
      BorneOut past s.store event := by
  refine Pool.invariant_of_performs (I := fun store history => ∀ event ∈ store.audits, ∃ past,
    Signed app clients history past event ∧ BorneOut past store event) hs ?_ ?_
  · intro event hevent
    rw [show (appStart app db clients).store.audits = [] from hdb] at hevent
    exact absurd hevent List.not_mem_nil
  · intro t e q op ht _ hp ih event hevent
    have hstays : Stays t.store (op.exec t.store).2 := respects_stays.exec op t.store
    rcases mem_audits_exec hevent with hold | rfl
    · obtain ⟨past, hsigned, hborne⟩ := ih event hold
      exact ⟨past, hsigned.append q _, hborne.stays hstays⟩
    · rcases permitted_of_performs ht hp with ⟨call, claims, hq, hclaims, hpermits⟩ | hworker
      · obtain ⟨hrole, hws, hactor⟩ := hpermits.allowed
        obtain ⟨haction, hcorrelation, hborne⟩ := hpermits.audited event rfl
        refine ⟨own q t.history, ⟨q, call, claims, hq, hclaims, hrole, haction.symm, hws, hactor,
          hcorrelation, t.store, [], ?_⟩, hborne.stays hstays⟩
        exact own_append_self
      · exact absurd hworker.1 (by simp [workerCall])

/-- A listed bucket with a name. -/
def listedAs (name : String) : ListedResource :=
  ⟨.mock, .s3, "eu-west-1", "arn:aws:s3:::" ++ name, name, Dict.empty, bucket.config,
    bucket.metrics⟩

/-- The request that syncs two buckets. -/
def syncRequest : HttpCall := requestOf "operator" "c-6" (.syncResources ⟨none, none,
  .ok [⟨listedAs "logs", 1, "r-2"⟩, ⟨listedAs "backups", 2, "r-3"⟩], 3⟩)

/-- The request when it has ended. -/
def syncedPool : AppPool :=
  ((Pool.machine database faults).run (appStart smallApp bucketInventory fun _ => .http syncRequest)
    (List.replicate 3 (.run 0))).get (by decide +kernel)

/-- Four events tell the story of the bucket, and one of two buckets that are synced. -/
theorem audits_borne_out_remediation :
    (remediationPool.store.audits.map (·.action) =
      ["diagnostics.create", "remediation.plan", "remediation.approve", "remediation.execute"] ∧
    ∀ event ∈ remediationPool.store.audits, ∃ past, BorneOut past remediationPool.store event) ∧
    syncedPool.store.audits.map (·.metadata) = [.synced 2 .mock] ∧
    ∀ event ∈ syncedPool.store.audits, ∃ past, BorneOut past syncedPool.store event := by
  have hs : (Pool.machine database faults).Reaches Machine.unguarded
      (appStart smallApp bucketInventory fun _ => .http syncRequest) syncedPool :=
    Machine.reaches_of_run (List.replicate 3 (.run 0)) (Option.some_get _).symm
  refine ⟨⟨by decide +kernel, fun event hevent => ?_⟩, by decide +kernel, fun event hevent => ?_⟩
  · obtain ⟨past, -, hborne⟩ := audits_borne_out rfl remediationPool_reached event hevent
    exact ⟨past, hborne⟩
  · obtain ⟨past, -, hborne⟩ := audits_borne_out rfl hs event hevent
    exact ⟨past, hborne⟩

/-- A request without a valid token is refused before it calls the database. -/
theorem refused_of_auth {e : AppError} (hauth : call.auth app.packages app.http = .error e)
    (hs : (Pool.machine database faults).Reaches G (appStart app db clients) s)
    (hq : clients q = .http call) : s.procs q = .throw e ∧ own q s.history = [] := by
  have hprogram : (clients q).program app = .throw e := by
    rw [hq]
    unfold AppClient.program HttpCall.program
    dsimp only
    rw [hauth]
    rfl
  refine Pool.invariant_of_own (I := fun p past => p = .throw e ∧ past = []) hs
    ⟨hprogram, rfl⟩ ?_ ?_
  · intro op k past before rest h _
    cases h.1
  · intro op k past h _
    cases h.1

/-- The error of a token that is not accepted.
SRCLINE: apps/api/src/middleware/auth.ts:5-20, packages/shared/src/auth/index.ts:23-38 -/
theorem auth_error {e : AppError} (h : call.auth app.packages app.http = .error e) :
    e.statusCode = 401 := by
  unfold HttpCall.auth authMiddleware at h
  split at h
  · cases h; rfl
  · split at h
    · cases h; rfl
    · unfold verifyAccessToken at h
      split at h
      · cases h; rfl
      · split at h
        · cases h; rfl
        · cases h

/-- What a client is told of an error.
SRCLINE: apps/api/src/middleware/error-handler.ts:5-34 -/
theorem errorHandler_body (correlationId : String) (e : AppError) :
    ∃ error, (errorHandler correlationId e).body = .error error ∧
      error.correlationId = correlationId ∧
      (500 ≤ e.statusCode → error.message = "Internal server error") :=
  ⟨_, rfl, rfl, fun hstatus => if_pos hstatus⟩

/-- The status of an error is that of an error. -/
theorem statusCode_ge (e : AppError) : 400 ≤ e.statusCode := by
  cases e <;> simp [AppError.statusCode]

/-- **A response is confined to the workspace of the token**, however the requests and the workers
interleave: it carries documents of that workspace, or an error under the correlation id of the
request, which says nothing of a failure of the server. Without a valid token it is a 401, and no
call has been made.
SRCLINE: apps/api/src/app.ts:84-86, apps/api/src/routes/api.ts:30-241,
apps/api/src/middleware/error-handler.ts:5-34 -/
theorem responses_confined {response : HttpResponse}
    (hs : (Pool.machine database faults).Reaches G (appStart app db clients) s)
    (hq : clients q = .http call) (hresponse : Responded call (s.procs q) response) :
    (∃ claims, call.auth app.packages app.http = .ok claims ∧
      Sent claims.workspaceId (response.status, response.body)) ∨
    ∃ error, response.body = .error error ∧ 400 ≤ response.status ∧
      error.correlationId = call.correlationId ∧
      (500 ≤ response.status → error.message = "Internal server error") ∧
      ∀ e, call.auth app.packages app.http = .error e →
        response.status = 401 ∧ own q s.history = [] := by
  have hprogram : ((clients q).program app).Permitted database Stays _ _ [] :=
    hq ▸ http_permitted call
  generalize hp : s.procs q = p at hresponse
  cases hresponse with
  | sent sent =>
      obtain ⟨claims, hclaims, hsent⟩ := Pool.ended_of_reaches hprogram hs hp sent rfl
      exact Or.inl ⟨claims, hclaims, hsent⟩
  | threw e =>
      obtain ⟨error, hbody, hcorrelation, hmessage⟩ := errorHandler_body call.correlationId e
      refine Or.inr ⟨error, hbody, statusCode_ge e, hcorrelation, hmessage, fun e' hauth => ?_⟩
      obtain ⟨hthrow, hown⟩ := refused_of_auth hauth hs hq
      obtain rfl : e = e' := Prog.throw.inj (hp.symm.trans hthrow)
      exact ⟨auth_error hauth, hown⟩

/-- The execution is sent to its workspace. -/
theorem responses_confined_remediation : ∃ (s : AppPool) (response : HttpResponse) (W : String),
    Responded executeRequest (s.procs 4) response ∧ response.status = 200 ∧
      Sent W (response.status, response.body) := by
  have hended : endStatus (remediationPool.procs 4) = some 200 := by decide +kernel
  obtain ⟨response, hresponse, hstatus⟩ := responded_of_endStatus executeRequest hended
  rcases responses_confined remediationPool_reached rfl hresponse with
    ⟨claims, -, hsent⟩ | ⟨_, -, herror, -⟩
  · exact ⟨remediationPool, response, claims.workspaceId, hresponse, hstatus, hsent⟩
  · omega

end Runs

end CloudOps.Analysis
