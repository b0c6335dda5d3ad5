import CloudOps.Computation.Simulation
import CloudOps.Analysis.JobClients
import CloudOps.Analysis.JobLifecycle

/-!
# The programs refine the job store

The machine `jobStore` has one event for each database step on jobs, with times, executions
and calls in flight of its own. Here the programs of the API and of the workers, interleaved
at their database calls, are shown to make exactly such steps (`jobs_refine`): what holds of
the jobs in every run of the machine holds of the jobs that the programs leave.

A failure in flight is an entry of `failCalls` with the error it will write, which is known
only when it is written. The relation is therefore stated for every assignment of errors to
programs, and the write of a failure starts from the assignment that it fulfils.
-/

set_option autoImplicit false

namespace CloudOps.Analysis

open CloudOps.Computation CloudOps.Model
open Machine (unguarded)

/-! ## What the steps are -/

/-- Clients in flight on the database. -/
abbrev ClientPool : Type := Pool DbOp DbOp.Reply Database AppError Unit

/-- The instant of a call, if it has read the clock; a retry reads it when it reads its job. -/
def instant (client : JobClient) : DbOp → Option Time
  | .createJob job => some job.createdAt
  | .findJob _ _ => client.retriesAt
  | .claimJob _ _ now _ | .heartbeatJob _ _ _ now | .completeJob _ _ now | .failJob _ _ _ now
  | .recoverAbandoned now => some now
  | _ => none

/-- **The guard of a run**: the instants of its calls come in their order, and a heartbeat is for a
job that its worker has been handed. -/
structure Clocked (clients : ℕ → JobClient) (start : Time) (s : ClientPool) (e : PoolEvent) :
    Prop where
  clock : ∀ q op now, s.Performs e q op → instant (clients q) op = some now → start ≤ now ∧
    ∀ q' ev now', (q', ev) ∈ s.history → instant (clients q') ev.op = some now' → now' ≤ now
  heartbeats : ∀ q cfg jobId workerId now, s.Performs e q (.heartbeatJob cfg jobId workerId now) →
    ∃ q' ev, (q', ev) ∈ s.history ∧ handed? ev = some (jobId, workerId)

/-- The failure that a client has begun by reading its job. -/
def failRead? (client : JobClient) (error : StructuredFailure) : Event DbOp Database →
    Option FailCall
  | ⟨.findJobById jobId, before⟩ =>
    if client.fails then
      (before.jobs.get? jobId).map fun job => ⟨jobId, job.attempts, job.maxAttempts, error⟩
    else none
  | _ => none

/-- The retry that a client has begun by reading its job. -/
def retryRead? (client : JobClient) : Event DbOp Database → Option RetryCall
  | ⟨.findJob id workspaceId, found⟩ => do
    let now ← client.retriesAt
    let job ← found.findJob id workspaceId
    if retryable job.status then some ⟨job, now⟩ else none
  | _ => none

/-- What a program has begun with its last call. -/
def begunBy {C : Type} (read : ℕ → Event DbOp Database → Option C) (history : History) (q : ℕ) :
    Option C :=
  (own q history).getLast?.bind (read q)

/-- Every job that has been handed out is that of an execution. -/
def Executed (history : History) (executions : List Execution) : Prop :=
  ∀ q ev jobId workerId, (q, ev) ∈ history → handed? ev = some (jobId, workerId) →
    ∃ ex ∈ executions, ex.jobId = jobId ∧ ex.workerId = workerId

/-- **The relation between the programs and the job store**, for the errors that the failures in
flight are going to write. -/
structure Refined (clients : ℕ → JobClient) (start : Time) (errors : ℕ → StructuredFailure)
    (store : Database) (history : History) (js : JobStore) : Prop where
  jobs : js.jobs = store.jobs
  clock : js.now = start ∨ ∃ q ev, (q, ev) ∈ history ∧ instant (clients q) ev.op = some js.now
  executions : Executed history js.executions
  fails : Slots (begunBy (fun q => failRead? (clients q) (errors q)) history) js.failCalls
  retries : Slots (begunBy (fun q => retryRead? (clients q)) history) js.retryCalls

section Bookkeeping

variable {C : Type} {read : ℕ → Event DbOp Database → Option C} {history : History} {q : ℕ}
  {e : Event DbOp Database} {calls : List C} {executions executions' : List Execution}

/-- A program has begun what its last call reads. -/
theorem begunBy_append_self : begunBy read (history ++ [(q, e)]) q = read q e := by
  simp [begunBy]

/-- The calls of others do not matter for what a program has begun. -/
theorem begunBy_append_ne {q' : ℕ} (h : q' ≠ q) :
    begunBy read (history ++ [(q, e)]) q' = begunBy read history q' := by
  rw [begunBy, own_append_ne (Ne.symm h)]
  rfl

/-- A call that begins nothing leaves the others in flight. -/
theorem slots_append (h : Slots (begunBy read history) calls) (hnone : read q e = none) :
    Slots (begunBy read (history ++ [(q, e)])) calls := by
  refine h.keep fun q' c hq' => ?_
  by_cases hqq : q' = q
  · subst hqq
    rw [begunBy_append_self, hnone] at hq'
    cases hq'
  · rwa [begunBy_append_ne hqq] at hq'

/-- A call that begins something puts it in flight. -/
theorem slots_begin {c : C} (h : Slots (begunBy read history) calls) (hsome : read q e = some c) :
    Slots (begunBy read (history ++ [(q, e)])) (calls ++ [c]) := by
  refine h.push (q := q) fun q' c' hq' => ?_
  by_cases hqq : q' = q
  · subst hqq
    rw [begunBy_append_self, hsome] at hq'
    exact Or.inl ⟨rfl, (Option.some.inj hq').symm⟩
  · rw [begunBy_append_ne hqq] at hq'
    exact Or.inr hq'

/-- A call that ends what its program has begun takes it out of flight. -/
theorem slots_end {c : C} (h : Slots (begunBy read history) calls)
    (hbegun : begunBy read history q = some c) (hnone : read q e = none) :
    ∃ i, calls[i]? = some c ∧ Slots (begunBy read (history ++ [(q, e)])) (calls.eraseIdx i) := by
  refine h.take hbegun fun q' c' hq' => ?_
  by_cases hqq : q' = q
  · subst hqq
    rw [begunBy_append_self, hnone] at hq'
    cases hq'
  · rw [begunBy_append_ne hqq] at hq'
    exact ⟨hqq, hq'⟩

/-- What a program has begun, read off its past. -/
theorem begunBy_of_own {past : Past} (h : own q history = past ++ [e]) :
    begunBy read history q = read q e := by
  rw [begunBy, h]
  simp

/-- A further call keeps jobs handed out and executions together. -/
theorem executed_append (h : Executed history executions)
    (hcover : ∀ ex ∈ executions, ∃ ex' ∈ executions', ex'.jobId = ex.jobId ∧
      ex'.workerId = ex.workerId)
    (hnew : ∀ jobId workerId, handed? e = some (jobId, workerId) →
      ∃ ex ∈ executions', ex.jobId = jobId ∧ ex.workerId = workerId) :
    Executed (history ++ [(q, e)]) executions' := by
  intro q' e' jobId workerId hmem hhanded
  rcases List.mem_append.mp hmem with hold | hlast
  · obtain ⟨ex, hex, rfl, rfl⟩ := h q' e' jobId workerId hold hhanded
    exact hcover ex hex
  · obtain ⟨-, rfl⟩ := Prod.mk.inj (List.mem_singleton.mp hlast)
    exact hnew jobId workerId hhanded

/-- A call that hands nothing out. -/
theorem executed_same (h : Executed history executions) (hnone : handed? e = none) :
    Executed (history ++ [(q, e)]) executions :=
  executed_append h (fun ex hex => ⟨ex, hex, rfl, rfl⟩) fun _ _ hhanded => by
    rw [hnone] at hhanded
    cases hhanded

/-- A change of what an execution believes. -/
theorem executed_set {i : ℕ} {ex ex' : Execution} (h : Executed history executions)
    (hnone : handed? e = none) (hi : executions[i]? = some ex) (hjob : ex'.jobId = ex.jobId)
    (hworker : ex'.workerId = ex.workerId) :
    Executed (history ++ [(q, e)]) (executions.set i ex') := by
  refine executed_append h (fun old hold => ?_) fun _ _ hhanded => by
    rw [hnone] at hhanded
    cases hhanded
  obtain ⟨j, hj⟩ := List.mem_iff_getElem?.mp hold
  by_cases hij : i = j
  · subst hij
    obtain rfl := Option.some.inj (hi.symm.trans hj)
    refine ⟨ex', List.mem_iff_getElem?.mpr ⟨i, ?_⟩, hjob, hworker⟩
    have hlt := (List.getElem?_eq_some_iff.mp hi).1
    simp [hlt]
  · refine ⟨old, List.mem_iff_getElem?.mpr ⟨j, ?_⟩, rfl, rfl⟩
    rw [List.getElem?_set_ne hij]
    exact hj

end Bookkeeping

/-! ## One step of a program, as steps of the job store -/

section Steps

variable {cfg : JobQueueConfig} {clients : ℕ → JobClient} {start now : Time}
  {errors : ℕ → StructuredFailure} {store : Database} {history : History} {js : JobStore}
  {q : ℕ} {op : DbOp}

/-- The call is matched by steps of the job store. -/
def Matched (cfg : JobQueueConfig) (clients : ℕ → JobClient) (start : Time)
    (errors : ℕ → StructuredFailure) (store : Database) (history : History) (q : ℕ) (op : DbOp)
    (js : JobStore) : Prop :=
  ∃ js', (jobStore cfg).Reaches unguarded js js' ∧
    Refined clients start errors (op.exec store).2 (history ++ [(q, ⟨op, store⟩)]) js'

/-- The clock goes on to a later instant. -/
theorem reaches_tick (h : js.now ≤ now) :
    (jobStore cfg).Reaches unguarded js { js with now := now } := by
  refine Machine.Reaches.refl.step (.tick (now - js.now).toNat) trivial ?_
  have hnow : js.now + ((now - js.now).toNat : ℤ) = now := by
    rw [Int.toNat_of_nonneg (sub_nonneg.mpr h)]
    exact add_sub_cancel js.now now
  show some { js with now := js.now + ((now - js.now).toNat : ℤ) } = _
  rw [hnow]

/-- A step of the job store that takes no time. -/
theorem reaches_step {js' : JobStore} (e : JobEvent) (hstep : JobStore.step cfg js e = some js') :
    (jobStore cfg).Reaches unguarded js js' :=
  Machine.Reaches.refl.step e trivial hstep

/-- A step of the job store at an instant. -/
theorem reaches_at {js' : JobStore} (e : JobEvent) (h : js.now ≤ now)
    (hstep : JobStore.step cfg { js with now := now } e = some js') :
    (jobStore cfg).Reaches unguarded js js' :=
  (reaches_tick h).step e trivial hstep

/-- The relation after a call, put together. -/
theorem Refined.next (h : Refined clients start errors store history js) {js' : JobStore}
    (hjobs : js'.jobs = (op.exec store).2.jobs)
    (hclock : js'.now = js.now ∨ instant (clients q) op = some js'.now)
    (hexecutions : Executed (history ++ [(q, ⟨op, store⟩)]) js'.executions)
    (hfails : Slots (begunBy (fun q => failRead? (clients q) (errors q))
      (history ++ [(q, ⟨op, store⟩)])) js'.failCalls)
    (hretries : Slots (begunBy (fun q => retryRead? (clients q))
      (history ++ [(q, ⟨op, store⟩)])) js'.retryCalls) :
    Refined clients start errors (op.exec store).2 (history ++ [(q, ⟨op, store⟩)]) js' where
  jobs := hjobs
  clock := by
    rcases hclock with hsame | hread
    · rw [hsame]
      refine h.clock.imp_right fun ⟨q', ev, hmem, hinstant⟩ => ?_
      exact ⟨q', ev, List.mem_append_left _ hmem, hinstant⟩
    · exact Or.inr ⟨q, ⟨op, store⟩, by simp, hread⟩
  executions := hexecutions
  fails := hfails
  retries := hretries

/-- A call that has nothing to do with jobs is no step. -/
theorem matched_apart (h : Refined clients start errors store history js)
    (hop : (clients q).leavesJobs op = true) :
    Matched cfg clients start errors store history q op js := by
  have hjobs : (op.exec store).2.jobs = store.jobs := by
    cases op <;> first | rfl | cases hop
  have hhanded : handed? ⟨op, store⟩ = none := by
    cases op <;> first | rfl | cases hop
  have hfail : failRead? (clients q) (errors q) ⟨op, store⟩ = none := by
    cases op with
    | findJobById jobId =>
        have hfails : (clients q).fails = false := by simpa [JobClient.leavesJobs] using hop
        simp [failRead?, hfails]
    | _ => rfl
  have hretry : retryRead? (clients q) ⟨op, store⟩ = none := by
    cases op with
    | findJob id workspaceId =>
        have hretries : (clients q).retriesAt = none := by simpa [JobClient.leavesJobs] using hop
        simp [retryRead?, hretries]
    | _ => rfl
  exact ⟨js, .refl, h.next (h.jobs.trans hjobs.symm) (Or.inl rfl)
    (executed_same h.executions hhanded) (slots_append h.fails hfail)
    (slots_append h.retries hretry)⟩

/-- The creation of a job is matched by that of the job store.
SRCLINE: apps/api/src/services/job-service.ts:29-42 -/
theorem matched_create (h : Refined clients start errors store history js) (hnow : js.now ≤ now)
    (svc : JobService) (id workspaceId actorId correlationId : String) (input : CreateJobInput) :
    Matched cfg clients start errors store history q
      (.createJob (svc.newJob id workspaceId actorId correlationId input now)) js := by
  let job := svc.newJob id workspaceId actorId correlationId input now
  cases hinsert : store.jobs.insert? job with
  | none =>
      have hjobs : ((DbOp.createJob job).exec store).2.jobs = store.jobs := by
        simp [DbOp.exec, createIn, hinsert]
      exact ⟨js, .refl, h.next (h.jobs.trans hjobs.symm) (Or.inl rfl)
        (executed_same h.executions rfl) (slots_append h.fails rfl) (slots_append h.retries rfl)⟩
  | some jobs =>
      have hjobs : ((DbOp.createJob job).exec store).2.jobs = jobs := by
        simp [DbOp.exec, createIn, hinsert]
      have hstep : JobStore.step cfg { js with now := now }
          (.create svc id workspaceId actorId correlationId input) =
            some { js with now := now, jobs := jobs } := by
        show (js.jobs.insert? job).map _ = _
        rw [h.jobs, hinsert]
        rfl
      exact ⟨_, reaches_at _ hnow hstep, h.next hjobs.symm (Or.inr rfl)
        (executed_same h.executions rfl) (slots_append h.fails rfl) (slots_append h.retries rfl)⟩

/-- A claim that succeeds is matched by one of the job store; one that does not changes nothing.
SRCLINE: packages/shared/src/jobs/queue.ts:15-35 -/
theorem matched_claim (h : Refined clients start errors store history js) (hnow : js.now ≤ now)
    (workerId jobId : String) :
    Matched cfg clients start errors store history q (.claimJob cfg workerId now jobId) js := by
  cases hclaim : JobQueue.claim cfg store.jobs workerId now jobId with
  | none =>
      have hjobs : ((DbOp.claimJob cfg workerId now jobId).exec store).2.jobs = store.jobs := by
        simp [DbOp.exec, hclaim]
      have hhanded : handed? ⟨.claimJob cfg workerId now jobId, store⟩ = none := by
        simp [handed?, DbOp.exec, hclaim]
      exact ⟨js, .refl, h.next (h.jobs.trans hjobs.symm) (Or.inl rfl)
        (executed_same h.executions hhanded) (slots_append h.fails rfl)
        (slots_append h.retries rfl)⟩
  | some jobs =>
      have hjobs : ((DbOp.claimJob cfg workerId now jobId).exec store).2.jobs = jobs := by
        simp [DbOp.exec, hclaim]
      have hstep : JobStore.step cfg { js with now := now } (.claim workerId jobId) =
          some { js with
            now := now
            jobs := jobs
            executions := js.executions ++ [⟨jobId, workerId, now + cfg.leaseMs, false⟩]
            handOuts := Function.update js.handOuts jobId (js.handOuts jobId + 1) } := by
        show (JobQueue.claim cfg js.jobs workerId now jobId).map _ = _
        rw [h.jobs, hclaim]
        rfl
      refine ⟨_, reaches_at _ hnow hstep, h.next hjobs.symm (Or.inr rfl)
        (executed_append h.executions ?_ ?_) (slots_append h.fails rfl)
        (slots_append h.retries rfl)⟩
      · exact fun ex hex => ⟨ex, List.mem_append_left _ hex, rfl, rfl⟩
      · intro jobId' workerId' hhanded
        refine ⟨⟨jobId, workerId, now + cfg.leaseMs, false⟩, by simp, ?_⟩
        simp only [handed?, DbOp.exec, hclaim, Option.bind_some, Option.map_eq_some_iff] at hhanded
        obtain ⟨job, hget, heq⟩ := hhanded
        obtain ⟨rfl, rfl⟩ := Prod.mk.inj heq
        exact ⟨(id_of_get? hget).symm, rfl⟩

/-- A heartbeat of the job store is the update of the database.
SRCLINE: packages/shared/src/jobs/queue.ts:37-45 -/
theorem heartbeat_jobs (s : JobStore) (i : ℕ) (ex : Execution) :
    (s.heartbeat cfg i ex).jobs = s.jobs.updateMany (fun job => job.id = ex.jobId &&
      heartbeatFilter ex.workerId job) (heartbeatUpdate cfg s.now) := by
  unfold JobStore.heartbeat
  cases hget : s.jobs.get? ex.jobId with
  | none =>
      refine (Collection.updateMany_eq_self fun job hjob => ?_).symm
      have hne : job.id ≠ ex.jobId := Collection.get?_eq_none_iff.mp hget job hjob
      simp [hne]
  | some stored =>
      obtain ⟨hstored, hid⟩ := Collection.get?_eq_some_iff.mp hget
      have hsame : ∀ job ∈ s.jobs, job.id = ex.jobId → job = stored := fun job hjob hjobId =>
        Collection.eq_of_id hjob hstored (hjobId.trans hid.symm)
      by_cases hfilter : heartbeatFilter ex.workerId stored = true
      · simp only [hfilter, if_true]
        refine Collection.updateMany_congr fun job hjob => ?_
        by_cases hjobId : job.id = ex.jobId
        · obtain rfl := hsame job hjob hjobId
          simp [hfilter, Document._id, hjobId]
        · simp [hjobId, Document._id]
      · simp only [hfilter, if_false, Bool.false_eq_true]
        refine (Collection.updateMany_eq_self fun job hjob => ?_).symm
        by_cases hjobId : job.id = ex.jobId
        · obtain rfl := hsame job hjob hjobId
          simp [hfilter]
        · simp [hjobId]

/-- The heartbeat of a job that was handed out is matched by that of its execution.
SRCLINE: packages/shared/src/jobs/queue.ts:37-45 -/
theorem matched_heartbeat (h : Refined clients start errors store history js) (hnow : js.now ≤ now)
    {jobId workerId : String}
    (hhanded : ∃ q' ev, (q', ev) ∈ history ∧ handed? ev = some (jobId, workerId)) :
    Matched cfg clients start errors store history q (.heartbeatJob cfg jobId workerId now) js := by
  obtain ⟨q', ev, hmem, hev⟩ := hhanded
  obtain ⟨ex, hex, rfl, rfl⟩ := h.executions q' ev jobId workerId hmem hev
  obtain ⟨i, hi⟩ := List.mem_iff_getElem?.mp hex
  have hstep : JobStore.step cfg { js with now := now } (.heartbeat i) =
      some (JobStore.heartbeat cfg { js with now := now } i ex) := by
    show (js.executions[i]?).map _ = _
    rw [hi]
    rfl
  have hjobs : (JobStore.heartbeat cfg { js with now := now } i ex).jobs =
      ((DbOp.heartbeatJob cfg ex.jobId ex.workerId now).exec store).2.jobs := by
    rw [heartbeat_jobs, h.jobs]
    rfl
  rcases heartbeat_cases cfg { js with now := now } i ex with ⟨_, _, _, heq⟩ | heq <;>
    rw [heq] at hstep hjobs
  · exact ⟨_, reaches_at _ hnow hstep, h.next hjobs (Or.inr rfl)
      (executed_set h.executions rfl hi rfl rfl) (slots_append h.fails rfl)
      (slots_append h.retries rfl)⟩
  · exact ⟨_, reaches_at _ hnow hstep, h.next hjobs (Or.inr rfl)
      (executed_same h.executions rfl) (slots_append h.fails rfl) (slots_append h.retries rfl)⟩

/-- A job that a program has been handed is that of an execution. -/
theorem Refined.execution (h : Refined clients start errors store history js) {jobId : String}
    (hhanded : HandedTo (own q history) jobId) :
    ∃ (i : ℕ) (ex : Execution), js.executions[i]? = some ex ∧ ex.jobId = jobId := by
  obtain ⟨ev, hmem, workerId, hev⟩ := hhanded
  obtain ⟨ex, hex, hjob, -⟩ := h.executions q ev jobId workerId (mem_own.mp hmem) hev
  obtain ⟨i, hi⟩ := List.mem_iff_getElem?.mp hex
  exact ⟨i, ex, hi, hjob⟩

/-- The completion of a job that was handed out is matched by that of its execution.
SRCLINE: packages/shared/src/jobs/queue.ts:47-64 -/
theorem matched_complete (h : Refined clients start errors store history js) (hnow : js.now ≤ now)
    {jobId : String} (hhanded : HandedTo (own q history) jobId) (summary : JobResultSummary) :
    Matched cfg clients start errors store history q (.completeJob jobId summary now) js := by
  obtain ⟨i, ex, hi, rfl⟩ := h.execution hhanded
  have hstep : JobStore.step cfg { js with now := now } (.complete i summary) =
      some (JobStore.complete { js with now := now } i ex summary) := by
    show (js.executions[i]?).map _ = _
    rw [hi]
    rfl
  have hjobs : (JobStore.complete { js with now := now } i ex summary).jobs =
      ((DbOp.completeJob ex.jobId summary now).exec store).2.jobs := by
    show js.jobs.update ex.jobId (completeUpdate summary now) = _
    rw [h.jobs]
    rfl
  exact ⟨_, reaches_at _ hnow hstep, h.next hjobs (Or.inr rfl)
    (executed_set h.executions rfl hi rfl rfl) (slots_append h.fails rfl)
    (slots_append h.retries rfl)⟩

/-- The read of a failure; its error is the one it will be written with.
SRCLINE: packages/shared/src/jobs/queue.ts:66-71 -/
theorem matched_readFailed (h : Refined clients start errors store history js) {jobId : String}
    (hhanded : HandedTo (own q history) jobId) :
    Matched cfg clients start errors store history q (.findJobById jobId) js := by
  cases hread : failRead? (clients q) (errors q) ⟨.findJobById jobId, store⟩ with
  | none =>
      exact ⟨js, .refl, h.next h.jobs (Or.inl rfl) (executed_same h.executions rfl)
        (slots_append h.fails hread) (slots_append h.retries rfl)⟩
  | some call =>
      obtain ⟨i, ex, hi, rfl⟩ := h.execution hhanded
      obtain ⟨job, hjob, rfl⟩ : ∃ job, js.jobs.get? ex.jobId = some job ∧
          ⟨ex.jobId, job.attempts, job.maxAttempts, errors q⟩ = call := by
        simp only [failRead?] at hread
        split at hread
        · rw [h.jobs]
          exact Option.map_eq_some_iff.mp hread
        · cases hread
      have hstep : JobStore.step cfg js (.failRead i (errors q)) =
          some { js with
            executions := js.executions.set i { ex with called := true }
            failCalls := js.failCalls ++
              [⟨ex.jobId, job.attempts, job.maxAttempts, errors q⟩] } := by
        show (js.executions[i]?).map (JobStore.failRead js i · (errors q)) = _
        rw [hi]
        simp only [Option.map_some, JobStore.failRead, hjob]
      exact ⟨_, reaches_step _ hstep, h.next h.jobs (Or.inl rfl)
        (executed_set h.executions rfl hi rfl rfl) (slots_begin h.fails hread)
        (slots_append h.retries rfl)⟩

/-- The write of a failure: the relation before it foresees its error.
SRCLINE: packages/shared/src/jobs/queue.ts:70-101 -/
theorem matched_fail {older : Past} {before : Database} {jobId : String} {stored : DiagnosticJob}
    {error : StructuredFailure} (random : ℚ)
    (h : Refined clients start (Function.update errors q error) store history js)
    (hnow : js.now ≤ now) (hfails : (clients q).fails = true)
    (hpast : own q history = older ++ [⟨.findJobById jobId, before⟩])
    (hstored : before.jobs.get? jobId = some stored) :
    Matched cfg clients start errors store history q
      (.failJob cfg ⟨jobId, stored.attempts, stored.maxAttempts, error⟩ random now) js := by
  let call : FailCall := ⟨jobId, stored.attempts, stored.maxAttempts, error⟩
  have hbegun : begunBy (fun q' => failRead? (clients q') (Function.update errors q error q'))
      history q = some call := by
    rw [begunBy_of_own hpast]
    simp [failRead?, hfails, hstored, call]
  obtain ⟨i, hi, hslots⟩ := slots_end (e := ⟨.failJob cfg call random now, store⟩) h.fails hbegun
    rfl
  have hstep : JobStore.step cfg { js with now := now } (.failWrite i random) =
      some (JobStore.failWrite cfg { js with now := now } i call random) := by
    show (js.failCalls[i]?).map _ = _
    rw [hi]
    rfl
  have hjobs : (JobStore.failWrite cfg { js with now := now } i call random).jobs =
      ((DbOp.failJob cfg call random now).exec store).2.jobs := by
    simp only [JobStore.failWrite, h.jobs, DbOp.exec]
  -- the errors of the other failures in flight are those foreseen before
  have hrest : Slots (begunBy (fun q => failRead? (clients q) (errors q))
      (history ++ [(q, ⟨.failJob cfg call random now, store⟩)])) (js.failCalls.eraseIdx i) := by
    refine hslots.keep fun q' c hq' => ?_
    by_cases hqq : q' = q
    · subst hqq
      rw [begunBy_append_self] at hq'
      cases hq'
    · rw [begunBy_append_ne hqq] at hq' ⊢
      simpa [begunBy, Function.update_of_ne hqq] using hq'
  have hretries := slots_append (q := q)
    (e := ⟨.failJob cfg call random now, store⟩) h.retries rfl
  refine ⟨_, reaches_at _ hnow hstep, ?_⟩
  exact { jobs := hjobs
          clock := Or.inr ⟨q, _, List.mem_append_right _ List.mem_cons_self, rfl⟩
          executions := executed_same h.executions rfl
          fails := hrest
          retries := hretries }

/-- The read of a retry is matched by one of the job store, unless the retry throws.
SRCLINE: apps/api/src/services/job-service.ts:81-88 -/
theorem matched_readRetried (h : Refined clients start errors store history js)
    (hnow : ∀ now, (clients q).retriesAt = some now → js.now ≤ now) (id workspaceId : String) :
    Matched cfg clients start errors store history q (.findJob id workspaceId) js := by
  cases hread : retryRead? (clients q) ⟨.findJob id workspaceId, store⟩ with
  | none =>
      exact ⟨js, .refl, h.next h.jobs (Or.inl rfl) (executed_same h.executions rfl)
        (slots_append h.fails rfl) (slots_append h.retries hread)⟩
  | some call =>
      simp only [retryRead?, Option.bind_eq_bind, Option.bind_eq_some_iff] at hread
      obtain ⟨now, hretries, job, hjob, hcall⟩ := hread
      split at hcall
      · next hstatus =>
        cases hcall
        have hfound : js.jobs.find? (fun job => job.id = id && job.workspaceId = workspaceId) =
            some job := by
          rw [h.jobs, ← hjob, Database.findJob]
          congr 1
        have hstep : JobStore.step cfg { js with now := now } (.retryRead workspaceId id) =
            some { js with now := now, retryCalls := js.retryCalls ++ [⟨job, now⟩] } := by
          show JobStore.retryRead { js with now := now } workspaceId id = _
          simp only [JobStore.retryRead, hfound, hstatus, if_true]
        have hbegin : retryRead? (clients q) ⟨.findJob id workspaceId, store⟩ =
            some ⟨job, now⟩ := by
          simp [retryRead?, hretries, hjob, hstatus]
        exact ⟨_, reaches_at _ (hnow now hretries) hstep, h.next h.jobs (Or.inr hretries)
          (executed_same h.executions rfl) (slots_append h.fails rfl)
          (slots_begin h.retries hbegin)⟩
      · cases hcall

/-- The save of a retry is matched by the save of the retry that its read has begun.
SRCLINE: apps/api/src/services/job-service.ts:87-94 -/
theorem matched_save {older : Past} {found : Database} {id workspaceId : String}
    {job : DiagnosticJob} (h : Refined clients start errors store history js)
    (hpast : own q history = older ++ [⟨.findJob id workspaceId, found⟩])
    (hjob : found.findJob id workspaceId = some job) (hstatus : retryable job.status = true)
    (hnow : (clients q).retriesAt = some now) :
    Matched cfg clients start errors store history q (.saveJob ⟨job, now⟩) js := by
  have hbegun : begunBy (fun q => retryRead? (clients q)) history q = some ⟨job, now⟩ := by
    rw [begunBy_of_own hpast]
    simp [retryRead?, hnow, hjob, hstatus]
  obtain ⟨i, hi, hslots⟩ := slots_end (e := ⟨.saveJob ⟨job, now⟩, store⟩) h.retries hbegun rfl
  have hstep : JobStore.step cfg js (.retrySave i) = some (js.retrySave i ⟨job, now⟩) := by
    show (js.retryCalls[i]?).map _ = _
    rw [hi]
    rfl
  have hjobs : (js.retrySave i ⟨job, now⟩).jobs =
      ((DbOp.saveJob ⟨job, now⟩).exec store).2.jobs := by
    simp only [JobStore.retrySave, h.jobs, DbOp.exec]
  exact ⟨_, reaches_step _ hstep, h.next hjobs (Or.inl rfl)
    (executed_same h.executions rfl) (slots_append h.fails rfl) hslots⟩

/-- A recovery is matched by one of the job store.
SRCLINE: packages/shared/src/jobs/queue.ts:103-119 -/
theorem matched_recover (h : Refined clients start errors store history js) (hnow : js.now ≤ now) :
    Matched cfg clients start errors store history q (.recoverAbandoned now) js := by
  have hstep : JobStore.step cfg { js with now := now } .recoverAbandoned =
      some { js with now := now, jobs := JobQueue.recoverAbandoned js.jobs now } := rfl
  have hjobs : JobQueue.recoverAbandoned js.jobs now =
      ((DbOp.recoverAbandoned now).exec store).2.jobs := by
    rw [h.jobs]
    rfl
  exact ⟨_, reaches_at _ hnow hstep, h.next hjobs (Or.inr rfl) (executed_same h.executions rfl)
    (slots_append h.fails rfl) (slots_append h.retries rfl)⟩

/-- **Every call of a client is matched**, from the errors it fulfils.
SRCLINE: packages/shared/src/jobs/queue.ts:15-119, apps/api/src/services/job-service.ts:15-104 -/
theorem matched_call (hcall : ClientCall cfg (clients q) (own q history) op)
    (hclock : ∀ now, instant (clients q) op = some now → start ≤ now ∧
      ∀ q' ev now', (q', ev) ∈ history → instant (clients q') ev.op = some now' → now' ≤ now)
    (hheartbeats : ∀ cfg jobId workerId now, op = .heartbeatJob cfg jobId workerId now →
      ∃ q' ev, (q', ev) ∈ history ∧ handed? ev = some (jobId, workerId)) :
    ∃ errors', ∀ js, Refined clients start errors' store history js →
      Matched cfg clients start errors store history q op js := by
  -- the clock of the job store is not ahead of the call
  have hle : ∀ {errors'} {js : JobStore}, Refined clients start errors' store history js →
      ∀ now, instant (clients q) op = some now → js.now ≤ now := by
    intro errors' js h now hnow
    obtain ⟨hstart, hearlier⟩ := hclock now hnow
    rcases h.clock with hsame | ⟨q', ev, hmem, hinstant⟩
    · rw [hsame]
      exact hstart
    · exact hearlier q' ev js.now hmem hinstant
  cases hcall with
  | apart op hop => exact ⟨errors, fun js h => matched_apart h hop⟩
  | create svc id workspaceId actorId correlationId input now =>
      exact ⟨errors, fun js h => matched_create h (hle h now rfl) svc id _ _ _ input⟩
  | claim workerId now jobId =>
      exact ⟨errors, fun js h => matched_claim h (hle h now rfl) workerId jobId⟩
  | heartbeat jobId workerId now =>
      exact ⟨errors, fun js h => matched_heartbeat h (hle h now rfl)
        (hheartbeats cfg jobId workerId now rfl)⟩
  | complete jobId summary now hhanded =>
      exact ⟨errors, fun js h => matched_complete h (hle h now rfl) hhanded summary⟩
  | readFailed jobId hhanded => exact ⟨errors, fun js h => matched_readFailed h hhanded⟩
  | fail older before jobId stored error random now hfails hpast hstored =>
      exact ⟨Function.update errors q error, fun js h =>
        matched_fail random h (hle h now rfl) hfails hpast hstored⟩
  | readRetried id workspaceId =>
      exact ⟨errors, fun js h => matched_readRetried h (hle h) id workspaceId⟩
  | save older found id workspaceId job now hpast hjob hstatus hnow =>
      exact ⟨errors, fun js h => matched_save h hpast hjob hstatus hnow⟩
  | recover now => exact ⟨errors, fun js h => matched_recover h (hle h now rfl)⟩

end Steps

/-! ## Runs -/

section Runs

variable {hashToken : String → String} {config : ApiConfig} {cfg : JobQueueConfig}
  {clients : ℕ → JobClient} {db : Database} {start : Time} {s : ClientPool}

/-- Every run is related to a run of the job store. -/
theorem refined_of_reaches (hdb : db.jobs = Collection.empty)
    (hs : (Pool.machine database faults).Reaches (Clocked clients start)
      (Pool.initial db fun q => (clients q).program hashToken config cfg) s)
    (errors : ℕ → StructuredFailure) : ∃ js, (jobStore cfg).Reaches unguarded
      (JobStore.initial start) js ∧ Refined clients start errors s.store s.history js := by
  refine hs.foreseen (R := fun errors s js =>
    Refined clients start errors s.store s.history js) (fun errors => ?_) ?_ errors
  · exact { jobs := hdb.symm
            clock := Or.inl rfl
            executions := fun _ _ _ _ h => absurd h List.not_mem_nil
            fails := slots_nil fun _ => rfl
            retries := slots_nil fun _ => rfl }
  · intro errors u e u' hu hG hstep
    rcases Pool.step_performs hstep with ⟨q, op, rest, hp, rfl⟩ | ⟨hstore, hhistory⟩
    · have hcall : ClientCall cfg (clients q) (own q u.history) op := by
        have hconforms := Pool.conforms_of_reaches (fun q => client_emits (clients q)) hu q
        obtain ⟨k, hq⟩ := hp.next
        rw [hq] at hconforms
        exact hconforms.next
      refine matched_call hcall (fun now hnow => hG.clock q op now hp hnow) ?_
      rintro cfg' jobId workerId now rfl
      exact hG.heartbeats q cfg' jobId workerId now hp
    · refine ⟨errors, fun js h => ⟨js, .refl, ?_⟩⟩
      rw [hstore, hhistory]
      exact h

/-- A failure that is never written. -/
def noFailure : StructuredFailure := ⟨"", "", false, none, 0⟩

end Runs

/-! ## An attempt that times out, and a second one -/

/-- Whether a call keeps to the clock, and a heartbeat to a job that has been handed out. -/
def clockCheck (clients : ℕ → JobClient) (start : Time) (s : ClientPool) (q : ℕ)
    (op : DbOp) : Bool :=
  (match instant (clients q) op with
    | some now => decide (start ≤ now) && s.history.all fun e =>
      (instant (clients e.1) e.2.op).all fun now' => decide (now' ≤ now)
    | none => true) &&
  match op with
  | .heartbeatJob _ jobId workerId _ =>
    s.history.any fun e => handed? e.2 == some (jobId, workerId)
  | _ => true

/-- The check of the calls decides the guard. -/
theorem clocked_of_check {clients : ℕ → JobClient} {start : Time} (s : ClientPool) (e : PoolEvent)
    (h : Pool.passes (clockCheck clients start) s e = true) : Clocked clients start s e := by
  constructor
  · intro q op now hp hnow
    have hpass := (Bool.and_eq_true_iff.mp (hp.passed h)).1
    simp only [hnow, Bool.and_eq_true, decide_eq_true_eq, List.all_eq_true] at hpass
    refine ⟨hpass.1, fun q' ev now' hmem hinstant => ?_⟩
    have hall := hpass.2 (q', ev) hmem
    simpa [hinstant] using hall
  · rintro q cfg jobId workerId now hp
    have hpass := (Bool.and_eq_true_iff.mp (hp.passed h)).2
    obtain ⟨⟨q', ev⟩, hmem, heq⟩ := List.any_eq_true.mp hpass
    exact ⟨q', ev, hmem, eq_of_beq heq⟩

/-- A job is created; an attempt claims it, beats once and times out; another attempt completes
it. -/
def timedOutClients : ℕ → JobClient
  | 0 => .create ⟨⟨3, 20000⟩, "ws", "operator", "c-0", ⟨none, none, "job-key-1"⟩, ⟨"job-1", 0, 0⟩⟩
  | 1 => .attempt (fun _ => .ok ⟨[]⟩)
    ⟨"worker-1", "job-1", 1, 3, 4, 0, fun _ => ⟨0, "f", 0, "r", 0⟩⟩
    (some ⟨1, false, JobProcessor.jobTimedOut⟩)
  | 2 => .heartbeat "job-1" "worker-1" 2
  | _ => .attempt (fun _ => .ok ⟨[]⟩)
    ⟨"worker-2", "job-1", 50, 51, 52, 0, fun _ => ⟨0, "f", 0, "r", 0⟩⟩ none

/-- The clients before they have begun. -/
def timedOutStart : ClientPool :=
  Pool.initial .empty fun q => (timedOutClients q).program (fun token => token)
    ⟨.mock, false, 900000⟩ ⟨30000, 3, 10, 20⟩

/-- Their calls in turn; the last one completes the job. -/
def timedOutCalls : List PoolEvent := [0, 0, 0, 1, 2, 1, 1, 1, 3, 3, 3].map .run

/-- The clients after these calls. -/
def timedOutClientPool : ClientPool :=
  ((Pool.machine database faults).runChecked (Pool.passes (clockCheck timedOutClients 0))
    timedOutStart timedOutCalls).get (by decide +kernel)

/-- The clients get there under the guard. -/
theorem timedOutClientPool_reached : (Pool.machine database faults).Reaches
    (Clocked timedOutClients 0) timedOutStart timedOutClientPool :=
  Machine.reaches_of_runChecked clocked_of_check timedOutCalls (Option.some_get _).symm

/-- The clients when the attempt has timed out and nobody has claimed the job again. -/
def afterTimeoutPool : ClientPool :=
  ((Pool.machine database faults).runChecked (Pool.passes (clockCheck timedOutClients 0))
    timedOutStart (timedOutCalls.take 8)).get (by decide +kernel)

end CloudOps.Analysis
