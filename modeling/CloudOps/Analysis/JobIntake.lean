import CloudOps.Model.JobService
import CloudOps.Analysis.ServiceRuns

/-!
# Creating a job once

`create` looks its key up, inserts, and looks again when the insertion was refused. The stages
of a request are read off what it has performed; that exactly one insertion of a key succeeds
is what the unique index says of the path of the whole run.
-/

set_option autoImplicit false

namespace CloudOps.Analysis

open CloudOps.Computation CloudOps.Model

/-- The arguments of a call of `create`. -/
structure CreateCall where
  svc : JobService
  workspaceId : String
  actorId : String
  correlationId : String
  input : CreateJobInput
  draws : JobService.CreateDraws

namespace CreateCall

variable (c : CreateCall)

def program : DbProg JobService.JobReply :=
  JobService.create c.svc c.workspaceId c.actorId c.correlationId c.input c.draws

/-- The job it inserts. -/
def job : DiagnosticJob :=
  c.svc.newJob c.draws.newJobId c.workspaceId c.actorId c.correlationId c.input c.draws.now

/-- The audit event it records after the insertion. -/
def audit : AuditEvent :=
  JobService.createAudit c.actorId c.correlationId c.job c.draws.auditedAt

/-- What it finds under its key. -/
def lookUp (db : Database) : Option DiagnosticJob :=
  db.findJobByKey c.workspaceId c.input.idempotencyKey

/-- The call that looks its key up. -/
abbrev keyRead : DbOp := .findJobByKey c.workspaceId c.input.idempotencyKey

/-- The reads and writes of `create`, each with what came before it. -/
inductive Stage : Past → DbOp → Prop
  | lookUp : Stage [] c.keyRead
  | insert (found : Database) (hnone : c.lookUp found = none) :
      Stage [⟨c.keyRead, found⟩] (.createJob c.job)
  | audit (found inserted : Database) (hfree : ¬ inserted.jobs.Conflicts c.job) :
      Stage [⟨c.keyRead, found⟩, ⟨.createJob c.job, inserted⟩] (.recordAudit c.audit)
  | replay (found inserted : Database) (htaken : inserted.jobs.Conflicts c.job) :
      Stage [⟨c.keyRead, found⟩, ⟨.createJob c.job, inserted⟩] c.keyRead

/-- How `create` ends. -/
inductive Ending : Past → Except AppError JobService.JobReply → Prop
  | found (found : Database) (job : DiagnosticJob) (hjob : c.lookUp found = some job) :
      Ending [⟨c.keyRead, found⟩] (.ok ⟨job, true⟩)
  | created (found inserted audited : Database) (hfree : ¬ inserted.jobs.Conflicts c.job) :
      Ending [⟨c.keyRead, found⟩, ⟨.createJob c.job, inserted⟩, ⟨.recordAudit c.audit, audited⟩]
        (.ok ⟨c.job, false⟩)
  | replayed (found inserted replay : Database) (job : DiagnosticJob)
      (htaken : inserted.jobs.Conflicts c.job) (hjob : c.lookUp replay = some job) :
      Ending [⟨c.keyRead, found⟩, ⟨.createJob c.job, inserted⟩, ⟨c.keyRead, replay⟩]
        (.ok ⟨job, true⟩)
  | lost (found inserted replay : Database) (htaken : inserted.jobs.Conflicts c.job)
      (hnone : c.lookUp replay = none) :
      Ending [⟨c.keyRead, found⟩, ⟨.createJob c.job, inserted⟩, ⟨c.keyRead, replay⟩]
        (.error .duplicateKey)

/-- **A request keeps to its stages**, whatever happens to the jobs between its calls.
SRCLINE: apps/api/src/services/job-service.ts:15-63 -/
theorem program_emits : c.program.Emits database c.Stage c.Ending [] := by
  refine emits_call .lookUp fun found existing hexisting => ?_
  cases existing with
  | some job => exact .found found job hexisting
  | none =>
      refine Prog.Emits.handle (emits_attempt (k := fun reply : DbOp.Reply (.createJob c.job) =>
        reply) (Stage.insert found hexisting) ?_ ?_)
      · intro inserted _ hok
        have hfree : ¬ inserted.jobs.Conflicts c.job := free_of_createIn hok
        exact emits_call (.audit found inserted hfree) fun audited _ _ =>
          .created found inserted audited hfree
      · intro inserted e herror
        obtain ⟨htaken, rfl⟩ := taken_of_createIn herror
        simp only [if_true]
        refine emits_call (.replay found inserted htaken) fun replay job? hjob => ?_
        cases job? with
        | some job => exact .replayed found inserted replay job htaken hjob
        | none => exact .lost found inserted replay htaken hjob

variable {c} {past : Past} {op : DbOp} {db : Database} {job : DiagnosticJob}

/-- No call of a request removes or changes a job. -/
theorem Stage.keeps (h : c.Stage past op) (hmem : job ∈ db.jobs) : job ∈ (op.exec db).2.jobs := by
  cases h with
  | insert found hnone => exact mem_createIn.mpr (Or.inl hmem)
  | _ => exact hmem

/-- A job after a call of a request was there before, or has just been inserted. -/
theorem Stage.jobs (h : c.Stage past op) (hmem : job ∈ (op.exec db).2.jobs) :
    job ∈ db.jobs ∨ (op = .createJob c.job ∧ ¬ db.jobs.Conflicts c.job ∧ job = c.job) := by
  cases h with
  | insert found hnone =>
      rcases mem_createIn.mp hmem with hold | ⟨hfree, rfl⟩
      · exact Or.inl hold
      · exact Or.inr ⟨rfl, hfree, rfl⟩
  | _ => exact Or.inl hmem

end CreateCall

/-! ## Runs of many requests -/

/-- Requests to create jobs, in flight on the database. -/
abbrev IntakePool : Type := Pool DbOp DbOp.Reply Database AppError JobService.JobReply

/-- The machine that interleaves them at their database calls. -/
abbrev intake : Machine IntakePool PoolEvent := Pool.machine database faults

/-- Requests none of which has begun. -/
def accept (db : Database) (requests : ℕ → CreateCall) : IntakePool :=
  Pool.initial db fun q => (requests q).program

/-- The driver gives every new job an id of its own. -/
structure NewJobIds (db : Database) (requests : ℕ → CreateCall) : Prop where
  distinct : ∀ q q', (requests q).draws.newJobId = (requests q').draws.newJobId → q = q'
  unstored : ∀ q, ∀ job ∈ db.jobs, job.id ≠ (requests q).draws.newJobId
  unaudited : ∀ q, ∀ event ∈ db.audits, event.resourceId ≠ some (requests q).draws.newJobId

/-- A stretch of a run, its calls each at a stage of its request. -/
structure IntakePath (requests : ℕ → CreateCall) (db : Database) (history : History)
    (db' : Database) : Prop where
  chained : Pool.Chained database db history db'
  staged : ∀ q ev, (q, ev) ∈ history → ∃ past, (requests q).Stage past ev.op

namespace IntakePath

variable {requests : ℕ → CreateCall} {db db' : Database} {history older newer : History} {q : ℕ}
  {ev : Event DbOp Database} {job : DiagnosticJob}

/-- A path splits at each of its calls. -/
theorem split (h : IntakePath requests db (older ++ (q, ev) :: newer) db') :
    IntakePath requests db older ev.before ∧
      IntakePath requests (ev.op.exec ev.before).2 newer db' := by
  obtain ⟨hold, hnew⟩ := h.chained.split
  have hstaged : ∀ q' ev', (q', ev') ∈ older ∨ (q', ev') ∈ newer →
      ∃ past, (requests q').Stage past ev'.op := by
    intro q' ev' hmem
    refine h.staged q' ev' (List.mem_append.mpr ?_)
    rcases hmem with hmem | hmem
    · exact Or.inl hmem
    · exact Or.inr (List.mem_cons_of_mem _ hmem)
  exact ⟨⟨hold, fun q' ev' hmem => hstaged q' ev' (Or.inl hmem)⟩,
    ⟨hnew, fun q' ev' hmem => hstaged q' ev' (Or.inr hmem)⟩⟩

/-- Jobs stay as they are. -/
theorem kept (h : IntakePath requests db history db') :
    (∀ job ∈ db.jobs, job ∈ db'.jobs) ∧
      ∀ q ev, (q, ev) ∈ history → ∀ job ∈ ev.before.jobs, job ∈ db'.jobs := by
  refine h.chained.le (R := fun db db' => ∀ job ∈ db.jobs, job ∈ db'.jobs) (fun _ _ h => h)
    (fun _ _ _ h h' job hmem => h' job (h job hmem)) ?_
  intro q ev hev job hmem
  obtain ⟨past, hstage⟩ := h.staged q ev hev
  exact hstage.keeps hmem

/-- A new job has been inserted. -/
theorem born (h : IntakePath requests db history db') (hmem : job ∈ db'.jobs) :
    job ∈ db.jobs ∨ ∃ q before, (q, ⟨.createJob (requests q).job, before⟩) ∈ history ∧
      ¬ before.jobs.Conflicts (requests q).job ∧ job = (requests q).job := by
  rcases h.chained.enters (P := fun db => job ∈ db.jobs) hmem with hold | ⟨q, ev, hev, hnew, hin⟩
  · exact Or.inl hold
  · obtain ⟨past, hstage⟩ := h.staged q ev hev
    rcases hstage.jobs hin with hbefore | ⟨hop, hfree, hjob⟩
    · exact absurd hbefore hnew
    · obtain ⟨op, before⟩ := ev
      obtain rfl : op = .createJob (requests q).job := hop
      exact Or.inr ⟨q, before, hev, hfree, hjob⟩

end IntakePath

/-- The request carries this workspace and this idempotency key. -/
def CreateCall.Carries (c : CreateCall) (workspaceId idempotencyKey : String) : Prop :=
  c.workspaceId = workspaceId ∧ c.input.idempotencyKey = idempotencyKey

/-- The job is stored under this workspace and this idempotency key. -/
def Under (workspaceId idempotencyKey : String) (job : DiagnosticJob) : Prop :=
  job.workspaceId = workspaceId ∧ job.idempotencyKey = idempotencyKey

section Runs

variable {db : Database} {requests : ℕ → CreateCall} {s : IntakePool} {q : ℕ}
  {inserted : Database} {G : IntakePool → PoolEvent → Prop}

/-- The history of a run is a path. -/
theorem intakePath (hs : intake.Reaches G (accept db requests) s) :
    IntakePath requests db s.history s.store where
  chained := Pool.chained_of_reaches hs
  staged := by
    intro q ev hev
    obtain ⟨older, newer, hown⟩ := List.append_of_mem (mem_own.mpr hev)
    have hconforms := Pool.conforms_of_reaches (fun q => (requests q).program_emits) hs q
    exact ⟨older, hconforms.emitted older ev newer hown⟩

/-- A request that has ended has ended in one of its ways. -/
theorem ending_of_ret {result : JobService.JobReply}
    (hs : intake.Reaches Pool.OnlyRuns (accept db requests) s) (hq : s.procs q = .ret result) :
    (requests q).Ending (own q s.history) (.ok result) := by
  have h := Pool.emits_of_reaches (fun q => (requests q).program_emits) hs (fun _ _ h => h) q
  rw [hq] at h
  exact h

/-- A request that has thrown has ended with its error. -/
theorem ending_of_throw {err : AppError}
    (hs : intake.Reaches Pool.OnlyRuns (accept db requests) s) (hq : s.procs q = .throw err) :
    (requests q).Ending (own q s.history) (.error err) := by
  have h := Pool.emits_of_reaches (fun q => (requests q).program_emits) hs (fun _ _ h => h) q
  rw [hq] at h
  exact h

/-- What a request has found under its key is stored under it. -/
theorem lookUp_some {c : CreateCall} {found : Database} {job : DiagnosticJob}
    (h : c.lookUp found = some job) :
    job ∈ found.jobs ∧ Under c.workspaceId c.input.idempotencyKey job := by
  obtain ⟨hmem, hp⟩ := Collection.mem_of_find? h
  simpa [Under] using And.intro hmem hp

/-- **A refused insertion has found the key taken**, its id being new.
SRCLINE: packages/shared/src/db/models/diagnostic-job.ts:28 -/
theorem taken_of_conflict (hids : NewJobIds db requests)
    (hs : intake.Reaches G (accept db requests) s) {first last : Event DbOp Database}
    (hown : own q s.history = [first, ⟨.createJob (requests q).job, inserted⟩, last])
    (hfirst : first.op ≠ .createJob (requests q).job)
    (hlast : last.op ≠ .createJob (requests q).job)
    (htaken : inserted.jobs.Conflicts (requests q).job) :
    ∃ job ∈ inserted.jobs,
      Under (requests q).workspaceId (requests q).input.idempotencyKey job := by
  obtain ⟨job, hmem, hid | hindex⟩ := htaken
  · exfalso
    have hpath := intakePath hs
    have hsplit : own q s.history = [first] ++ ⟨.createJob (requests q).job, inserted⟩ :: [last] :=
      hown
    obtain ⟨older, newer, hhist, -, -⟩ := own_split hsplit
    rw [hhist] at hpath
    rcases hpath.split.1.born hmem with hold | ⟨q', before, hev, hfree, rfl⟩
    · exact hids.unstored q job hold hid
    · obtain rfl := hids.distinct q' q hid
      -- the job with this id is the request's own, so it has inserted twice
      have hev' : (⟨.createJob (requests q').job, before⟩ : Event DbOp Database) ∈
          own q' s.history :=
        mem_own.mpr (hhist ▸ List.mem_append_left _ hev)
      rw [hown] at hev'
      rcases List.mem_cons.mp hev' with heq | hev'
      · exact hfirst (heq ▸ rfl)
      · rcases List.mem_cons.mp hev' with heq | hev'
        · obtain rfl := (Event.mk.inj heq).2
          exact hfree ⟨_, hmem, Or.inl rfl⟩
        · exact hlast (List.mem_singleton.mp hev' ▸ rfl)
  · exact ⟨job, hmem, Prod.mk.inj hindex⟩

/-- **A returned job is stored** under the key of the request.
SRCLINE: apps/api/src/services/job-service.ts:21-60 -/
theorem returned_stored {result : JobService.JobReply}
    (hs : intake.Reaches Pool.OnlyRuns (accept db requests) s) (hq : s.procs q = .ret result) :
    result.job ∈ s.store.jobs ∧
      Under (requests q).workspaceId (requests q).input.idempotencyKey result.job := by
  have hpath := intakePath hs
  have hending := ending_of_ret hs hq
  generalize hown : own q s.history = past at hending
  have hperformed : ∀ ev ∈ past, (q, ev) ∈ s.history := fun ev hev => mem_own.mp (hown ▸ hev)
  cases hending with
  | found found job hjob =>
      obtain ⟨hmem, hunder⟩ := lookUp_some hjob
      exact ⟨hpath.kept.2 q _ (hperformed _ List.mem_cons_self) job hmem, hunder⟩
  | created found inserted audited hfree =>
      have hsplit : own q s.history = [⟨_, found⟩] ++ ⟨.createJob (requests q).job, inserted⟩ ::
          [⟨.recordAudit (requests q).audit, audited⟩] := hown
      obtain ⟨older, newer, hhist, -, -⟩ := own_split hsplit
      rw [hhist] at hpath
      have hin : (requests q).job ∈ ((DbOp.createJob (requests q).job).exec inserted).2.jobs :=
        mem_createIn.mpr (Or.inr ⟨hfree, rfl⟩)
      exact ⟨hpath.split.2.kept.1 _ hin, rfl, rfl⟩
  | replayed found inserted replay job htaken hjob =>
      obtain ⟨hmem, hunder⟩ := lookUp_some hjob
      have hread := hperformed _ (List.mem_cons_of_mem _ (List.mem_cons_of_mem _
        List.mem_cons_self))
      exact ⟨hpath.kept.2 q _ hread job hmem, hunder⟩

/-- **No request fails**: the one that was refused finds the job it was refused for.
SRCLINE: apps/api/src/services/job-service.ts:53-61 -/
theorem not_thrown (hids : NewJobIds db requests) {err : AppError}
    (hs : intake.Reaches Pool.OnlyRuns (accept db requests) s) : s.procs q ≠ .throw err := by
  intro hq
  have hending := ending_of_throw hs hq
  generalize hown : own q s.history = past at hending
  cases hending with
  | lost found inserted replay htaken hnone =>
      obtain ⟨job, hmem, hunder⟩ := taken_of_conflict hids hs hown (by simp) (by simp) htaken
      have hsplit : own q s.history = [⟨_, found⟩, ⟨_, inserted⟩] ++ ⟨_, replay⟩ :: [] := hown
      obtain ⟨older, newer, hhist, hold, -⟩ := own_split hsplit
      have hpath := intakePath hs
      rw [hhist] at hpath
      have hinserted : (q, (⟨.createJob (requests q).job, inserted⟩ : Event DbOp Database)) ∈
          older := mem_own.mp (hold ▸ by simp)
      have hreplay := hpath.split.1.kept.2 q _ hinserted job hmem
      have hmiss := Collection.find?_eq_none.mp hnone job hreplay
      simp [hunder.1, hunder.2] at hmiss

/-- The request whose insertion succeeded returns its own job as new. -/
theorem inserter_returns (hs : intake.Reaches Pool.OnlyRuns (accept db requests) s)
    (hev : (q, ⟨.createJob (requests q).job, inserted⟩) ∈ s.history)
    (hfree : ¬ inserted.jobs.Conflicts (requests q).job) {result : JobService.JobReply}
    (hq : s.procs q = .ret result) :
    result = ⟨(requests q).job, false⟩ ∧ ∃ found audited, own q s.history =
      [⟨(requests q).keyRead, found⟩,
        ⟨.createJob (requests q).job, inserted⟩, ⟨.recordAudit (requests q).audit, audited⟩] := by
  have hending := ending_of_ret hs hq
  have hmem := mem_own.mpr hev
  generalize own q s.history = past at hending hmem
  cases hending with
  | found found job hjob => simp at hmem
  | created found inserted' audited hfree' =>
      have hsame : inserted = inserted' := by simpa using hmem
      subst hsame
      exact ⟨rfl, found, audited, rfl⟩
  | replayed found inserted' replay job htaken hjob =>
      have hsame : inserted = inserted' := by simpa using hmem
      subst hsame
      exact absurd htaken hfree

/-- The event says that this job has been created. -/
def namesJob (id : String) (event : AuditEvent) : Bool :=
  event.action == "diagnostics.create" && event.resourceId == some id

/-- **One audit event names the job**: only the request that inserted it writes one.
SRCLINE: apps/api/src/services/job-service.ts:43-51 -/
theorem audited_once (hids : NewJobIds db requests)
    (hs : intake.Reaches G (accept db requests) s) {found audited : Database}
    (hown : own q s.history = [⟨(requests q).keyRead, found⟩,
      ⟨.createJob (requests q).job, inserted⟩, ⟨.recordAudit (requests q).audit, audited⟩]) :
    s.store.audits.filter (namesJob (requests q).job.id) = [(requests q).audit] := by
  let view (db : Database) : List AuditEvent := db.audits.filter (namesJob (requests q).job.id)
  let act (op : DbOp) (events : List AuditEvent) : List AuditEvent := match op with
    | .recordAudit event => events ++ [event]
    | _ => events
  have hpath := intakePath hs
  have hview : view s.store = (own q s.history).foldl (fun v ev => act ev.op v) (view db) := by
    refine hpath.chained.view view act q ?_ ?_
    · intro ev hev
      obtain ⟨past, hstage⟩ := hpath.staged q ev hev
      obtain ⟨op, before⟩ := ev
      cases hstage with
      | audit found inserted hfree =>
          have hnames : namesJob (requests q).job.id (requests q).audit = true := by
            simp [namesJob, CreateCall.audit, JobService.createAudit]
          simp [view, act, database, DbOp.exec, hnames]
      | _ => rfl
    · intro q' ev hev hne
      obtain ⟨past, hstage⟩ := hpath.staged q' ev hev
      obtain ⟨op, before⟩ := ev
      cases hstage with
      | audit found inserted hfree =>
          have hnames : namesJob (requests q).job.id (requests q').audit = false := by
            have hid : (requests q').job.id ≠ (requests q).job.id :=
              fun h => hne (hids.distinct q' q h)
            simp [namesJob, CreateCall.audit, JobService.createAudit, hid]
          simp [view, database, DbOp.exec, hnames]
      | _ => rfl
  have hstart : view db = [] := by
    refine List.filter_eq_nil_iff.mpr fun event hevent hnames => ?_
    simp only [namesJob, Bool.and_eq_true, beq_iff_eq] at hnames
    exact hids.unaudited q event hevent hnames.2
  rw [hown, hstart] at hview
  exact hview

/-- The requests for a key have made this one job. -/
structure CreatedOnce (requests : ℕ → CreateCall) (workspaceId idempotencyKey : String)
    (s : IntakePool) (job : DiagnosticJob) : Prop where
  stored : job ∈ s.store.jobs ∧ Under workspaceId idempotencyKey job
  unique : ∀ job' ∈ s.store.jobs, Under workspaceId idempotencyKey job' → job' = job
  returned : ∀ q, (requests q).Carries workspaceId idempotencyKey → own q s.history ≠ [] →
    ∃ replayed, s.procs q = .ret ⟨job, replayed⟩
  first : ∃! q, (requests q).Carries workspaceId idempotencyKey ∧
    ∃ job', s.procs q = .ret ⟨job', false⟩
  audited : (s.store.audits.filter (namesJob job.id)).length = 1

/-- **A key makes one job**: once the requests carrying it that have begun have ended, all of
them have returned the one job under it, and one of them has made it.
SRCLINE: apps/api/src/services/job-service.ts:15-63 -/
theorem created_once {workspaceId idempotencyKey : String} (hids : NewJobIds db requests)
    (hnew : ∀ job ∈ db.jobs, ¬ Under workspaceId idempotencyKey job)
    (hs : intake.Reaches Pool.OnlyRuns (accept db requests) s)
    (hsome : ∃ q, (requests q).Carries workspaceId idempotencyKey ∧ own q s.history ≠ [])
    (hended : ∀ q, (requests q).Carries workspaceId idempotencyKey → own q s.history ≠ [] →
      (s.procs q).Ended) :
    ∃ job, CreatedOnce requests workspaceId idempotencyKey s job := by
  have hreturns : ∀ q, (requests q).Carries workspaceId idempotencyKey → own q s.history ≠ [] →
      ∃ result, s.procs q = .ret result := by
    intro q hcarries hbegun
    have hend := hended q hcarries hbegun
    cases hq : s.procs q with
    | call op k => rw [hq] at hend; exact hend.elim
    | throw err => exact absurd hq (not_thrown hids hs)
    | ret result => exact ⟨result, rfl⟩
  have hstored : ∀ q result, (requests q).Carries workspaceId idempotencyKey →
      s.procs q = .ret result →
      result.job ∈ s.store.jobs ∧ Under workspaceId idempotencyKey result.job := by
    intro q result hcarries hq
    obtain ⟨hmem, hunder⟩ := returned_stored hs hq
    rw [hcarries.1, hcarries.2] at hunder
    exact ⟨hmem, hunder⟩
  obtain ⟨q₀, hcarries₀, hbegun₀⟩ := hsome
  obtain ⟨⟨job, replayed⟩, hq₀⟩ := hreturns q₀ hcarries₀ hbegun₀
  have hjob : job ∈ s.store.jobs ∧ Under workspaceId idempotencyKey job :=
    hstored q₀ _ hcarries₀ hq₀
  have hunique : ∀ job' ∈ s.store.jobs, Under workspaceId idempotencyKey job' → job' = job := by
    intro job' hmem hunder
    refine Collection.eq_of_index hmem hjob.1 ?_
    exact Prod.ext (hunder.1.trans hjob.2.1.symm) (hunder.2.trans hjob.2.2.symm)
  -- the job has been inserted by one of the requests
  obtain ⟨q₁, inserted, hev, hfree, hjob₁⟩ := ((intakePath hs).born hjob.1).resolve_left
    fun hmem => hnew job hmem hjob.2
  have hcarries₁ : (requests q₁).Carries workspaceId idempotencyKey := by
    have hunder := hjob.2
    rw [hjob₁] at hunder
    exact hunder
  have hbegun₁ : own q₁ s.history ≠ [] := List.ne_nil_of_mem (mem_own.mpr hev)
  obtain ⟨result₁, hq₁⟩ := hreturns q₁ hcarries₁ hbegun₁
  obtain ⟨hresult₁, found, audited, hown₁⟩ := inserter_returns hs hev hfree hq₁
  refine ⟨job, hjob, hunique, ?_, ⟨q₁, ⟨hcarries₁, (requests q₁).job, ?_⟩, ?_⟩, ?_⟩
  · intro q hcarries hbegun
    obtain ⟨⟨job', replayed'⟩, hq⟩ := hreturns q hcarries hbegun
    have hstored' := hstored q _ hcarries hq
    refine ⟨replayed', ?_⟩
    rw [hq, ← hunique job' hstored'.1 hstored'.2]
  · rw [hq₁, hresult₁]
  · rintro q ⟨hcarries, job', hq⟩
    have hstored' := hstored q _ hcarries hq
    have hsame : job' = (requests q₁).job :=
      (hunique job' hstored'.1 hstored'.2).trans hjob₁
    have hending := ending_of_ret hs hq
    generalize own q s.history = past at hending
    cases hending with
    | created found inserted audited hfree =>
        exact hids.distinct q q₁ (congrArg DiagnosticJob.id hsame)
  · rw [hjob₁, audited_once hids hs hown₁]
    rfl

end Runs

/-! ## Two requests that both look before either inserts -/

/-- Requests with one key and with bodies and ids of their own. -/
def sameKey (q : ℕ) : CreateCall where
  svc := ⟨3, 20000⟩
  workspaceId := "ws"
  actorId := "operator"
  correlationId := "c"
  input := ⟨some (List.replicate q "r-1"), none, "job-key-1"⟩
  draws := ⟨String.ofList (List.replicate q 'j'), q, q⟩

/-- Requests 0 and 1 look, 0 inserts, 1 is refused and looks again, 2 comes late. -/
def lookedTwice : List PoolEvent := [0, 1, 0, 1, 1, 2, 0].map .run

/-- The pool after these steps. -/
def lookedTwicePool : IntakePool :=
  (intake.run (accept .empty sameKey) lookedTwice).get (by decide +kernel)

/-- Three requests under one key make one job. -/
theorem created_once_lookedTwice :
    ∃ job, CreatedOnce sameKey "ws" "job-key-1" lookedTwicePool job := by
  have hs : intake.Reaches Pool.OnlyRuns (accept .empty sameKey) lookedTwicePool := by
    refine Machine.reaches_of_run_guarded lookedTwice (Option.some_get _).symm ?_
    intro e he _
    obtain ⟨q, -, rfl⟩ := List.mem_map.mp he
    exact ⟨q, rfl⟩
  refine created_once ⟨?_, ?_, ?_⟩ ?_ hs ⟨0, ⟨rfl, rfl⟩, by decide +kernel⟩ ?_
  · intro q q' h
    have hlength := congrArg String.length h
    simpa [sameKey] using hlength
  · exact fun q job hmem => absurd hmem (Collection.not_mem_empty job)
  · exact fun q event hmem => absurd hmem List.not_mem_nil
  · exact fun job hmem => absurd hmem (Collection.not_mem_empty job)
  · intro q _ hbegun
    obtain ⟨ev, hev⟩ := List.exists_mem_of_ne_nil _ hbegun
    have hq : q ∈ lookedTwicePool.history.map (·.1) :=
      List.mem_map.mpr ⟨(q, ev), mem_own.mp hev, rfl⟩
    rw [show lookedTwicePool.history.map (·.1) = [0, 1, 0, 1, 1, 2, 0] by decide +kernel] at hq
    have hcases : q = 0 ∨ q = 1 ∨ q = 2 := by
      simp at hq
      omega
    rcases hcases with rfl | rfl | rfl <;> decide +kernel

end CloudOps.Analysis
