import CloudOps.Analysis.HttpRoutes
import CloudOps.Analysis.JobClients
import CloudOps.Analysis.SingleExecution

/-!
# The clients of the database

Requests of the API, and the programs of the workers. What a request keeps to is the policy of
its claims (`http_permitted`); what a worker keeps to are its own calls, each about a job that it
has claimed or a finding that it has written (`worker_keeps`).
-/

set_option autoImplicit false

namespace CloudOps.Analysis

open CloudOps.Computation CloudOps.Model CloudOps.Model.JobProcessor

/-! ## The programs -/

/-- A request of the API, or a program of a worker. An attempt whose run has lost the race against
the timeout is two programs: its run, which goes on, and its failure. -/
inductive AppClient
  | http (call : HttpCall)
  | attempt (analyze : List CloudResource → Except AppError DiagnosticEngineResult)
      (draws : AttemptDraws) (interruption : Option (Prog.Interruption AppError))
  | timedOut (analyze : List CloudResource → Except AppError DiagnosticEngineResult)
      (draws : AttemptDraws)
  | failure (jobId : String) (error : StructuredFailure) (random : ℚ) (now : Time)
  | heartbeat (jobId workerId : String) (now : Time)
  | recoverAbandoned (now : Time)

/-- The settings of the API and of the queue, and the packages of the API. -/
structure AppConfig where
  packages : HttpPackages
  http : HttpConfig
  queue : JobQueueConfig

/-- The program of a client: what a request sends, nothing for a worker. -/
def AppClient.program (app : AppConfig) : AppClient → DbProg (Option (ℕ × Body))
  | .http call => do
    let sent ← call.program app.packages app.http
    return some sent
  | .attempt analyze draws interruption => do
    let _ ← Model.attempt app.queue analyze draws interruption
    return none
  | .timedOut analyze draws => do
    let _ ← processNextTimedOut app.queue analyze draws
    return none
  | .failure jobId error random now => do
    let _ ← fail app.queue jobId error random now
    return none
  | .heartbeat jobId workerId now => do
    let _ ← (Prog.call (.heartbeatJob app.queue jobId workerId now) .ret : DbProg Unit)
    return none
  | .recoverAbandoned now => do
    let _ ← (Prog.call (.recoverAbandoned now) .ret : DbProg Unit)
    return none

/-- Clients in flight on the database. -/
abbrev AppPool : Type := Pool DbOp DbOp.Reply Database AppError (Option (ℕ × Body))

/-- Clients none of which has begun. -/
def appStart (app : AppConfig) (db : Database) (clients : ℕ → AppClient) : AppPool :=
  Pool.initial db fun q => (clients q).program app

/-- A request that has ended has its response. -/
inductive Responded (call : HttpCall) : DbProg (Option (ℕ × Body)) → HttpResponse → Prop
  | sent (sent : ℕ × Body) : Responded call (.ret (some sent)) (call.respond (.ok sent))
  | threw (e : AppError) : Responded call (.throw e) (call.respond (.error e))

/-- The status a request has ended with. -/
def endStatus : DbProg (Option (ℕ × Body)) → Option ℕ
  | .ret (some sent) => some sent.1
  | .throw e => some e.statusCode
  | _ => none

/-- A program that has ended with a status has responded with it. -/
theorem responded_of_endStatus {p : DbProg (Option (ℕ × Body))} {status : ℕ} (call : HttpCall)
    (h : endStatus p = some status) : ∃ response, Responded call p response ∧
      response.status = status := by
  unfold endStatus at h
  split at h
  · next sent => exact ⟨_, .sent sent, Option.some.inj h⟩
  · next e => exact ⟨_, .threw e, Option.some.inj h⟩
  · cases h

/-! ## The workers -/

/-- The calls of the workers. -/
def workerCall : DbOp → Bool
  | .findJobById _ | .findInventory _ _ _ | .claimJob _ _ _ _ | .heartbeatJob _ _ _ _
  | .completeJob _ _ _ | .failJob _ _ _ _ | .recoverAbandoned _ | .upsertFinding _ _ _ _ _ _
  | .upsertRecommendation _ _ _ _ _ _ _ | .createHealthCheck _ => true
  | _ => false

/-- What a worker may do: its own calls, and what they refer to is stored. -/
def WorkerPermits (db : Database) (op : DbOp) : Prop := workerCall op = true ∧ Refers db op

section Workers

variable {analyze : List CloudResource → Except AppError DiagnosticEngineResult} {past : Past}
  {op : DbOp} {db : Database}

/-- A job that has been claimed is stored. -/
theorem mem_of_claimed {config : JobQueueConfig} {workerId jobId : String} {now : Time}
    {job : DiagnosticJob}
    (h : (database.exec (.claimJob config workerId now jobId) db).1 = some job) :
    job ∈ ((DbOp.claimJob config workerId now jobId).exec db).2.jobs := by
  obtain ⟨jobs, hclaimed, hjob⟩ := Option.bind_eq_some_iff.mp
    (show (JobQueue.claim config db.jobs workerId now jobId).bind (·.get? jobId) = some job from h)
  show job ∈ (JobQueue.claim config db.jobs workerId now jobId).getD db.jobs
  rw [hclaimed]
  exact (Collection.get?_eq_some_iff.mp hjob).1

/-- The claim by which the job has been handed out. -/
def ClaimedBy (past : Past) (job : DiagnosticJob) : Prop :=
  ∃ config workerId now jobId before,
    ⟨.claimJob config workerId now jobId, before⟩ ∈ past ∧
      (database.exec (.claimJob config workerId now jobId) before).1 = some job

/-- A claim stays in the past. -/
theorem ClaimedBy.append {job : DiagnosticJob} {newer : Past} (h : ClaimedBy past job) :
    ClaimedBy (past ++ newer) job := by
  obtain ⟨config, workerId, now, jobId, before, hev, hjob⟩ := h
  exact ⟨config, workerId, now, jobId, before, List.mem_append_left _ hev, hjob⟩

/-- A job that has been handed out is stored, whatever happens. -/
theorem ClaimedBy.kept {job : DiagnosticJob} (h : ClaimedBy past job)
    (hkept : Kept database Stays past db) :
    ∃ stored ∈ db.jobs, stored.id = job.id ∧ stored.workspaceId = job.workspaceId := by
  obtain ⟨config, workerId, now, jobId, before, hev, hjob⟩ := h
  have hstays : Stays ((DbOp.claimJob config workerId now jobId).exec before).2 db := hkept _ hev
  obtain ⟨stored, hmem, horigin⟩ := hstays.jobs job (mem_of_claimed hjob)
  exact ⟨stored, hmem, congrArg (·.1) horigin, congrArg (·.2.1) horigin⟩

/-- What a run refers to has been claimed or written before.
SRCLINE: apps/worker/src/processor.ts:82-153 -/
theorem RunStage.permits {job : DiagnosticJob} {rounds : ℕ → RoundDraws}
    (h : RunStage job.workspaceId job.id analyze rounds past op) (hclaimed : ClaimedBy past job)
    (hkept : Kept database Stays past db) : WorkerPermits db op := by
  cases h with
  | inventory ids types => exact ⟨rfl, trivial⟩
  | finding correlationId finding now n _ => exact ⟨rfl, hclaimed.kept hkept⟩
  | recommendation correlationId id finding now newId _ hwrote =>
      obtain ⟨correlationId', now', newId', before, stored, hev, hok, rfl⟩ := hwrote
      obtain ⟨hmem, hkey⟩ := upsertFinding_ok hok
      obtain ⟨found, hfound, horigin⟩ := Stays.findings (hkept _ hev) stored hmem
      refine ⟨rfl, found, hfound, ?_⟩
      rw [horigin]
      simp only [keyOf, keyFor, Prod.mk.injEq] at hkey
      unfold findingOrigin
      rw [hkey.1, hkey.2.1, hkey.2.2.1]
  | health check => exact ⟨rfl, trivial⟩

/-! ### The walk of an attempt -/

/-- A call about one job, by its identity alone. -/
def aboutJob (jobId : String) : DbOp → Bool
  | .findJobById id | .claimJob _ _ _ id | .completeJob id _ _ => id == jobId
  | .failJob _ call _ _ => call.jobId == jobId
  | _ => false

/-- The calls of the queue about a job refer to nothing. -/
theorem permits_aboutJob {jobId : String} (h : aboutJob jobId op = true) : WorkerPermits db op := by
  cases op with
  | findJobById _ | claimJob _ _ _ _ | completeJob _ _ _ | failJob _ _ _ _ => exact ⟨rfl, trivial⟩
  | _ => cases h

/-- A program nobody waits for the outcome of, each of whose calls meets `J`. -/
abbrev Meets {α : Type} (J : Past → DbOp → Prop) (p : DbProg α) (past : Past) : Prop :=
  p.Emits database J (fun _ _ => True) past

variable {J : Past → DbOp → Prop} {jobId : String}

/-- A program meets its rules if its first call does, and what follows on any reply. -/
theorem meets_call {α : Type} {f : op.Reply → DbProg α} (hop : J past op)
    (hrest : ∀ before reply, (database.exec op before).1 = reply →
      Meets J (f reply) (past ++ [⟨op, before⟩])) :
    Meets J ((Prog.call op .ret : DbProg op.Reply) >>= f) past :=
  emits_call hop hrest

/-- `fail` only reads and writes the job it fails.
SRCLINE: packages/shared/src/jobs/queue.ts:66-101 -/
theorem fail_meets {config : JobQueueConfig} {error : StructuredFailure} {random : ℚ}
    {now : Time} (hcall : ∀ past op, aboutJob jobId op = true → J past op) :
    Meets J (fail config jobId error random now) past := by
  refine meets_call (hcall _ _ (beq_self_eq_true jobId)) fun before job? _ => ?_
  cases job? with
  | none => trivial
  | some job => exact meets_call (hcall _ _ (beq_self_eq_true jobId)) fun _ _ _ => trivial

/-- The identity of the job that has been claimed is the one that was asked for. -/
theorem id_of_claimed {config : JobQueueConfig} {workerId : String} {now : Time}
    {job : DiagnosticJob}
    (h : (database.exec (.claimJob config workerId now jobId) db).1 = some job) :
    job.id = jobId := by
  obtain ⟨jobs, -, hjob⟩ := Option.bind_eq_some_iff.mp
    (show (JobQueue.claim config db.jobs workerId now jobId).bind (·.get? jobId) = some job from h)
  exact (Collection.get?_eq_some_iff.mp hjob).2

/-- What `J` must allow an attempt: the calls about its job, and the run of the job once it has been
claimed. -/
structure AllowsAttempt (J : Past → DbOp → Prop)
    (analyze : List CloudResource → Except AppError DiagnosticEngineResult) (draws : AttemptDraws) :
    Prop where
  call : ∀ past op, aboutJob draws.jobId op = true → J past op
  run : ∀ job past, ClaimedBy past job → job.id = draws.jobId → upsertKeys past = [] →
    Meets J (JobProcessor.run job.workspaceId job.id job.correlationId job.resourceIds
      job.resourceTypes analyze draws.rounds) past

/-- An attempt meets the rules that allow its calls.
SRCLINE: apps/worker/src/processor.ts:24-80 -/
theorem attempt_meets {config : JobQueueConfig} {draws : AttemptDraws}
    {interruption : Option (Prog.Interruption AppError)} (hJ : AllowsAttempt J analyze draws) :
    Meets J (Model.attempt config analyze draws interruption) [] := by
  refine meets_call (hJ.call _ _ (beq_self_eq_true _)) fun before job? hjob => ?_
  cases job? with
  | none => trivial
  | some job =>
    have hclaimed : ClaimedBy [⟨.claimJob config draws.workerId draws.claimedAt draws.jobId,
        before⟩] job := ⟨_, _, _, _, before, List.mem_cons_self, hjob⟩
    have hid : job.id = draws.jobId := id_of_claimed hjob
    have habout : ∀ past op, aboutJob job.id op = true → J past op := by
      rw [hid]
      exact hJ.call
    have hprocess : Meets J (JobProcessor.process analyze draws job)
        [⟨.claimJob config draws.workerId draws.claimedAt draws.jobId, before⟩] := by
      refine Prog.Emits.bind ((hJ.run job _ hclaimed hid rfl).mono (fun _ _ h => h) ?_)
      intro past result _
      cases result with
      | error err => trivial
      | ok summary =>
        exact meets_call (habout _ _ (beq_self_eq_true job.id)) fun _ _ _ => trivial
    refine Prog.Emits.handle ((hprocess.interrupted fun _ _ => trivial).mono (fun _ _ h => h) ?_)
    intro past outcome _
    cases outcome with
    | ok u => trivial
    | error err =>
      refine Prog.Emits.bind ((fail_meets habout).mono (fun _ _ h => h) fun past result _ => ?_)
      cases result <;> trivial

/-- A run that goes on after its timeout meets the rules that allow the calls of its attempt.
SRCLINE: apps/worker/src/processor.ts:24-43, packages/shared/src/observability/retry.ts:19-33 -/
theorem processNextTimedOut_meets {config : JobQueueConfig} {draws : AttemptDraws}
    (hJ : AllowsAttempt J analyze draws) :
    Meets J (processNextTimedOut config analyze draws) [] := by
  refine meets_call (hJ.call _ _ (beq_self_eq_true _)) fun before job? hjob => ?_
  cases job? with
  | none => trivial
  | some job =>
    have hclaimed : ClaimedBy [⟨.claimJob config draws.workerId draws.claimedAt draws.jobId,
        before⟩] job := ⟨_, _, _, _, before, List.mem_cons_self, hjob⟩
    have hrun := hJ.run job _ hclaimed (id_of_claimed hjob) rfl
    exact Prog.Emits.handle (hrun.mono (fun _ _ h => h) fun _ _ _ => trivial)

/-- Nothing is sent by a worker. -/
theorem meets_discard {α β : Type} {p : DbProg α} {b : β} (hp : Meets J p past) :
    Meets J (p >>= fun _ => return b) past := by
  refine Prog.Emits.bind (hp.mono (fun _ _ h => h) fun past result _ => ?_)
  cases result <;> trivial

/-- What a worker relies on at each of its calls, under a policy. -/
abbrev WorkerKeepsTo {α : Type} (A : Database → DbOp → Prop) (p : DbProg α) (past : Past) : Prop :=
  p.Permitted database Stays (fun _ => A) (fun _ => True) past

/-- A run keeps to the permissions of its job, which has been claimed.
SRCLINE: apps/worker/src/processor.ts:82-153 -/
theorem run_keeps {job : DiagnosticJob} {rounds : ℕ → RoundDraws} (hclaimed : ClaimedBy past job)
    (hpast : upsertKeys past = []) :
    WorkerKeepsTo WorkerPermits (JobProcessor.run job.workspaceId job.id job.correlationId
      job.resourceIds job.resourceTypes analyze rounds) past := by
  refine Prog.Emits.mono (Prog.Emits.carry (I := (ClaimedBy · job)) (run_emits hpast) hclaimed
    fun _ _ _ h _ => h.append) ?_ fun _ _ _ => trivial
  exact fun past op h db hkept => h.1.permits h.2 hkept

/-- What an attempt refers to is stored. -/
theorem allows_attempt {draws : AttemptDraws} : AllowsAttempt
    (fun past op => ∀ db, Kept database Stays past db → WorkerPermits db op) analyze draws where
  call := fun _ _ h _ _ => permits_aboutJob h
  run := fun _ _ hclaimed _ hpast => run_keeps hclaimed hpast

/-- Whether a client is a worker. -/
def AppClient.isWorker : AppClient → Bool
  | .http _ => false
  | _ => true

/-- **The workers make only their own calls**, and what these refer to is stored.
SRCLINE: apps/worker/src/processor.ts:24-154, packages/shared/src/jobs/queue.ts:15-119 -/
theorem worker_keeps {app : AppConfig} {client : AppClient} (h : client.isWorker = true) :
    WorkerKeepsTo WorkerPermits (client.program app) [] := by
  cases client with
  | http call => cases h
  | attempt analyze draws interruption =>
      exact meets_discard (attempt_meets allows_attempt)
  | timedOut analyze draws =>
      exact meets_discard (processNextTimedOut_meets allows_attempt)
  | failure jobId error random now =>
      exact meets_discard (fail_meets fun _ _ h _ _ => permits_aboutJob h)
  | heartbeat jobId workerId now =>
      exact meets_call (fun _ _ => ⟨rfl, trivial⟩) fun _ _ _ => trivial
  | recoverAbandoned now =>
      exact meets_call (fun _ _ => ⟨rfl, trivial⟩) fun _ _ _ => trivial

end Workers

/-! ## The requests -/

/-- What a request keeps to, as a client. -/
theorem http_permitted {app : AppConfig} (call : HttpCall) :
    ((AppClient.http call).program app).Permitted database Stays
      (fun past db op => ∃ claims, call.auth app.packages app.http = .ok claims ∧
        Permits claims call.correlationId (auditAction call.route) past db op)
      (fun result => ∀ sent, result = .ok (some sent) → ∃ claims,
        call.auth app.packages app.http = .ok claims ∧ Sent claims.workspaceId sent) [] := by
  refine Prog.Emits.bind (Prog.Emits.mono (HttpCall.program_permitted call) (fun _ _ h => h) ?_)
  intro past result hresult
  cases result with
  | error e => exact fun _ h => nomatch h
  | ok sent =>
    rintro sent' heq
    obtain rfl := Option.some.inj (Except.ok.inj heq)
    exact hresult sent rfl

/-! ## A bucket that is made private -/

/-- A small installation, with a token for an admin and one for an operator. -/
def smallApp : AppConfig where
  packages :=
    { decode := fun text =>
        if text = "admin" then some ⟨⟨"u-1", "admin@ws", .admin, "ws"⟩, "secret", "8h"⟩
        else if text = "operator" then
          some ⟨⟨"u-2", "operator@ws", .operator, "ws"⟩, "secret", "8h"⟩
        else none
      number := fun _ => none
      hashToken := fun token => token
      fold := fun c => c }
  http := ⟨⟨.mock, false, 900000⟩, ⟨"secret", "8h"⟩, 3, 20000⟩
  queue := ⟨30000, 3, 10, 20⟩

/-- What the engine finds of the bucket. -/
def publicAccess : EngineFinding where
  resourceId := "r-1"
  ruleId := "s3.public_access"
  severity := "high"
  title := "Public bucket"
  description := ""
  evidence := ""
  recommendation := ⟨.restrictPublicStorage, "", "", 1⟩

def requestOf (token correlationId : String) (route : ApiRoute) : HttpCall :=
  ⟨some ("Bearer " ++ token), false, some correlationId, none, "", route⟩

/-- The request that executes the plan. -/
def executeRequest : HttpCall := requestOf "operator" "c-4"
  (.executePlan "p-1" ⟨"approval-token-01", "exec-key-1", 6, 6, 7, 7, "e-1", 8⟩)

/-- The bucket is diagnosed; a plan for the finding is made, approved and executed. Another request
has no valid token. -/
def remediationClients : ℕ → AppClient
  | 0 => .http <| requestOf "operator" "c-0"
    (.createDiagnostics ⟨none, none, "job-key-1"⟩ ⟨"job-1", 0, 1⟩)
  | 1 => .attempt (fun _ => .ok ⟨[publicAccess]⟩)
    ⟨"worker-1", "job-1", 2, 3, 3, 0, fun _ => ⟨2, "f-1", 2, "rec-1", 2⟩⟩ none
  | 2 => .http <| requestOf "operator" "c-2"
    (.createPlan ⟨["f-1"], false, "plan-key-1", "p-1", 4⟩)
  | 3 => .http <| requestOf "admin" "c-3" (.approvePlan "p-1" ⟨"approval-token-01", "t-1", 5, 5⟩)
  | 4 => .http executeRequest
  | _ => .http <| requestOf "nobody" "c-5" (.listJobs fun _ => none)

/-- A store with nothing but the bucket. -/
def bucketInventory : Database :=
  { Database.empty with
    resources := ⟨[bucket], List.nodup_singleton _, List.nodup_singleton _⟩ }

/-- The clients, each after the other. -/
def remediationCalls : List PoolEvent :=
  (List.replicate 3 0 ++ List.replicate 6 1 ++ List.replicate 5 2 ++ List.replicate 4 3 ++
    List.replicate 10 4).map .run

/-- The clients when they have ended. -/
def remediationPool : AppPool :=
  ((Pool.machine database faults).run (appStart smallApp bucketInventory remediationClients)
    remediationCalls).get (by decide +kernel)

/-- The clients of the bucket get there. -/
theorem remediationPool_reached : (Pool.machine database faults).Reaches Machine.unguarded
    (appStart smallApp bucketInventory remediationClients) remediationPool :=
  Machine.reaches_of_run remediationCalls (Option.some_get _).symm

end CloudOps.Analysis
