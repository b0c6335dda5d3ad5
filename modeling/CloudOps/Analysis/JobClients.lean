import CloudOps.Analysis.Attempts
import CloudOps.Analysis.JobIntake
import CloudOps.Analysis.JobStages
import CloudOps.Analysis.Reprocessing
import CloudOps.Model.Http

/-!
# Everything that runs on the database

The requests of the API, the attempts of workers, and what goes on beside an attempt: its
heartbeats, its run after a timeout, and the recovery of the loop. `ClientCall` lists the calls
by what they have to do with jobs, each with what its program performed before it.
-/

set_option autoImplicit false

namespace CloudOps.Analysis

open CloudOps.Computation CloudOps.Model CloudOps.Model.JobProcessor

/-- The routes that only read. -/
def readsOnly : ApiRoute → Bool
  | .listResources _ | .getResource _ | .listJobs _ | .getJob _ | .listFindings _
  | .listRecommendations _ | .listAuditEvents _ => true
  | _ => false

/-- A program on the database: a request that makes plans or syncs, one that only reads, one that
creates or retries a job, and what the workers do. -/
inductive JobClient
  | request (incoming : Incoming)
  | read (packages : HttpPackages) (http : HttpConfig) (claims : AuthClaims)
      (correlationId : String) (route : ApiRoute) (hreads : readsOnly route = true)
  | create (c : CreateCall)
  | retry (workspaceId id actorId correlationId : String) (now auditedAt : Time)
  | attempt (analyze : List CloudResource → Except AppError DiagnosticEngineResult)
      (draws : AttemptDraws) (interruption : Option (Prog.Interruption AppError))
  | run (workspaceId jobId : String) (c : RunCall)
  | heartbeat (jobId workerId : String) (now : Time)
  | recoverAbandoned (now : Time)

namespace JobClient

/-- The program of a client; its outcome does not matter here. -/
def program (hashToken : String → String) (config : ApiConfig) (cfg : JobQueueConfig) :
    JobClient → DbProg Unit
  | .request incoming => do
    let _ ← incoming.program hashToken config
    return ()
  | .read packages http claims correlationId route _ => do
    let _ ← route.program packages http claims correlationId
    return ()
  | .create c => do
    let _ ← c.program
    return ()
  | .retry workspaceId id actorId correlationId now auditedAt => do
    let _ ← JobService.retry workspaceId id actorId correlationId now auditedAt
    return ()
  | .attempt analyze draws interruption => do
    let _ ← Model.attempt cfg analyze draws interruption
    return ()
  | .run workspaceId jobId c => do
    let _ ← c.program workspaceId jobId
    return ()
  | .heartbeat jobId workerId now => .call (.heartbeatJob cfg jobId workerId now) .ret
  | .recoverAbandoned now => .call (.recoverAbandoned now) .ret

/-- Whether it fails jobs: it reads one by its id in order to fail it. -/
def fails : JobClient → Bool
  | .attempt .. => true
  | _ => false

/-- When it retries a job, if it does. -/
def retriesAt : JobClient → Option Time
  | .retry _ _ _ _ now _ => some now
  | _ => none

/-- A call that has nothing to do with the jobs the client writes. -/
def leavesJobs (client : JobClient) : DbOp → Bool
  | .findJobById _ => !client.fails
  | .findJob _ _ => client.retriesAt.isNone
  | op => apartFromJobs op

end JobClient

/-- The job that a call hands out, and the worker it hands it to. -/
def handed? : Event DbOp Database → Option (String × String)
  | ⟨.claimJob config workerId now jobId, before⟩ =>
    ((DbOp.claimJob config workerId now jobId).exec before).1.map fun job => (job.id, workerId)
  | _ => none

/-- A program has been handed the job. -/
def HandedTo (past : Past) (jobId : String) : Prop :=
  ∃ ev ∈ past, ∃ workerId, handed? ev = some (jobId, workerId)

/-- The calls of a client by what they have to do with jobs. -/
inductive ClientCall (cfg : JobQueueConfig) (client : JobClient) (past : Past) : DbOp → Prop
  | apart (op : DbOp) (hop : client.leavesJobs op = true) : ClientCall cfg client past op
  | create (svc : JobService) (id workspaceId actorId correlationId : String)
      (input : CreateJobInput) (now : Time) : ClientCall cfg client past
        (.createJob (svc.newJob id workspaceId actorId correlationId input now))
  | claim (workerId : String) (now : Time) (jobId : String) :
      ClientCall cfg client past (.claimJob cfg workerId now jobId)
  | heartbeat (jobId workerId : String) (now : Time) :
      ClientCall cfg client past (.heartbeatJob cfg jobId workerId now)
  | complete (jobId : String) (summary : JobResultSummary) (now : Time)
      (hhanded : HandedTo past jobId) : ClientCall cfg client past (.completeJob jobId summary now)
  | readFailed (jobId : String) (hhanded : HandedTo past jobId) :
      ClientCall cfg client past (.findJobById jobId)
  | fail (older : Past) (before : Database) (jobId : String) (stored : DiagnosticJob)
      (error : StructuredFailure) (random : ℚ) (now : Time) (hfails : client.fails = true)
      (hpast : past = older ++ [⟨.findJobById jobId, before⟩])
      (hstored : before.jobs.get? jobId = some stored) : ClientCall cfg client past
        (.failJob cfg ⟨jobId, stored.attempts, stored.maxAttempts, error⟩ random now)
  | readRetried (id workspaceId : String) : ClientCall cfg client past (.findJob id workspaceId)
  | save (older : Past) (found : Database) (id workspaceId : String) (job : DiagnosticJob)
      (now : Time) (hpast : past = older ++ [⟨.findJob id workspaceId, found⟩])
      (hjob : found.findJob id workspaceId = some job) (hstatus : retryable job.status = true)
      (hnow : client.retriesAt = some now) : ClientCall cfg client past (.saveJob ⟨job, now⟩)
  | recover (now : Time) : ClientCall cfg client past (.recoverAbandoned now)

section Programs

variable {hashToken : String → String} {config : ApiConfig} {cfg : JobQueueConfig}
  {client : JobClient} {past : Past} {op : DbOp}

/-- A call that touches no job leaves the jobs of any client alone. -/
theorem leavesJobs_of_apart (hop : apartFromJobs op = true) : client.leavesJobs op = true := by
  cases op <;> first | exact hop | cases hop

/-- **The requests that make, approve and execute plans do not write jobs**, nor does `sync`. -/
theorem justified_leavesJobs {incoming : Incoming}
    (h : Justified hashToken config incoming past op) :
    (JobClient.request incoming).leavesJobs op = true := by
  by_cases hwrites : op.writes = true
  · apply leavesJobs_of_apart
    rcases justified_cases h hwrites with ⟨_, _, _, _, hstage⟩ | ⟨_, _, _, _, hstage⟩ |
        ⟨_, _, _, _, _, _, hstage, _⟩ | ⟨_, _, _, _, hstage⟩ <;>
      generalize writesOf past = W at hstage <;> cases hstage <;> rfl
  · cases op <;> first | rfl | exact absurd rfl hwrites

/-- What is sent in the end calls nothing. -/
theorem emits_send {α β : Type} {J : Past → DbOp → Prop} {p : DbProg α} {f : α → β}
    (hp : p.Emits database J (fun _ _ => True) past) :
    (p >>= fun a => return f a).Emits database J (fun _ _ => True) past := by
  refine Prog.Emits.bind (hp.mono (fun _ _ h => h) fun past result _ => ?_)
  cases result <;> trivial

/-- A list reads.
SRCLINE: apps/api/src/services/query-service.ts:9-53 -/
theorem emits_listing {δ : Type} {leaves : DbOp → Bool} {count list : DbOp} {page : Page}
    {total : count.Reply → ℕ} {docs : list.Reply → List δ} (hcount : leaves count = true)
    (hlist : leaves list = true) :
    (do let n ← (Prog.call count .ret : DbProg count.Reply)
        let found ← (Prog.call list .ret : DbProg list.Reply)
        return (⟨docs found, page.page, page.limit, total n⟩ : Listing δ) :
      DbProg (Listing δ)).Emits database (fun _ op => leaves op = true) (fun _ _ => True) past :=
  emits_call hcount fun _ _ _ => emits_call hlist fun _ _ _ => trivial

/-- **A route that only reads leaves the jobs alone.**
SRCLINE: apps/api/src/routes/api.ts:54-77, 98-119, 135-166, 221-241 -/
theorem readsOnly_emits {packages : HttpPackages} {http : HttpConfig} {claims : AuthClaims}
    {correlationId : String} {route : ApiRoute} (hreads : readsOnly route = true) :
    (route.program packages http claims correlationId).Emits database
      (fun _ op => (JobClient.read packages http claims correlationId route hreads).leavesJobs op =
        true) (fun _ _ => True) [] := by
  cases route with
  | getResource id | getJob id =>
      refine emits_ofExcept (fun id' _ => emits_call rfl fun before item _ => ?_) fun _ _ => trivial
      cases item <;> trivial
  | listResources query | listJobs query | listFindings query | listRecommendations query =>
      exact emits_ofExcept (fun parsed _ => emits_send (emits_listing rfl rfl)) fun _ _ => trivial
  | listAuditEvents query =>
      refine emits_ofExcept (fun claims' _ => ?_) fun _ _ => trivial
      exact emits_ofExcept (fun parsed _ => emits_send (emits_listing rfl rfl)) fun _ _ => trivial
  | _ => cases hreads

/-- The calls of an attempt, as those of a client.
SRCLINE: apps/worker/src/processor.ts:24-80 -/
theorem AttemptCalls.clientCall {a : Attempt} (h : AttemptCalls a past op)
    (hclient : client.fails = true) : ClientCall a.config client past op := by
  cases h with
  | claim => exact .claim _ _ _
  | work past op job hhanded hop =>
      have hhandedTo : HandedTo past job.id := by
        obtain ⟨before, rest, rfl, hreply, -⟩ := hhanded
        refine ⟨_, List.mem_cons_self, a.draws.workerId, ?_⟩
        change ((attemptClaim a).exec before).1 = some job at hreply
        show ((attemptClaim a).exec before).1.map _ = _
        rw [hreply]
        rfl
      cases hop with
      | apart op hop => exact .apart op (leavesJobs_of_apart hop)
      | complete summary now => exact .complete job.id summary now hhandedTo
      | read => exact .readFailed job.id hhandedTo
      | fail older before stored error random now hpast hstored =>
          exact .fail older before job.id stored error random now hclient hpast hstored

/-- **The calls of every client.**
SRCLINE: apps/api/src/services/job-service.ts:15-104, apps/worker/src/processor.ts:24-154,
packages/shared/src/jobs/queue.ts:15-119 -/
theorem client_emits (client : JobClient) : (client.program hashToken config cfg).Emits database
    (ClientCall cfg client) (fun _ _ => True) [] := by
  cases client with
  | request incoming =>
      exact (emits_discard (program_emits hashToken config incoming)).mono
        (fun _ op h => .apart op (justified_leavesJobs h)) fun _ _ _ => trivial
  | read packages http claims correlationId route hreads =>
      exact (emits_discard (readsOnly_emits hreads)).mono (fun _ op h => .apart op h)
        fun _ _ _ => trivial
  | create c =>
      refine (emits_discard c.program_emits).mono (fun past op h => ?_) fun _ _ _ => trivial
      cases h with
      | insert found hnone => exact .create ..
      | _ => exact .apart _ rfl
  | retry workspaceId id actorId correlationId now auditedAt =>
      refine (emits_discard retry_emits).mono (fun past op h => ?_) fun _ _ _ => trivial
      cases h with
      | lookUp => exact .readRetried id workspaceId
      | save found job hjob hstatus =>
          exact .save [] found id workspaceId job now (List.nil_append _).symm hjob hstatus rfl
      | audit past event => exact .apart _ rfl
  | attempt analyze draws interruption =>
      exact (emits_discard (attempt_emits ⟨cfg, analyze, draws, interruption⟩)).mono
        (fun _ _ h => h.clientCall rfl) fun _ _ _ => trivial
  | run workspaceId jobId c =>
      exact (emits_discard (run_emits rfl)).mono
        (fun _ op h => .apart op (leavesJobs_of_apart h.apart)) fun _ _ _ => trivial
  | heartbeat jobId workerId now => exact ⟨.heartbeat jobId workerId now, fun _ => trivial⟩
  | recoverAbandoned now => exact ⟨.recover now, fun _ => trivial⟩

end Programs

end CloudOps.Analysis
