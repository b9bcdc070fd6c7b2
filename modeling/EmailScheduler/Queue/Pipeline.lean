import EmailScheduler.Foundation.JobQueue
import EmailScheduler.Queue.EmailQueue
import EmailScheduler.Delivery.ClosedRows

/-!
# Deliveries through the queue

The delivery system with BullMQ deciding which jobs are executed. A waiting job is started by one
execution; when that has ended the worker settles the job by how it ended. Jobs are added by the
enqueue passes, page by page, for rows that a page query returned some time before.

Of BullMQ the model assumes that a job whose processor throws is run again while `attemptsMade + 1 <
attempts` and kept among the failed jobs otherwise, that `moveToDelayed` does not count as an
attempt, that finished jobs are kept up to `JOB_RETENTION_COUNT`, and that adding a job whose id
exists in any state does nothing. When a delayed job becomes due is left open.

An active job whose lock is gone has stalled: BullMQ puts it back, or gives it up. The model lets
that happen to any active job at any time, also while its execution runs. What a result needs of it
is named in its statement: `LocksKept`, that only an execution that has ended loses its lock, and
`StallsWithin`, that a job is put back below a limit and given up from there on. The worker is
created without `maxStalledCount`, for which BullMQ takes 1.
-/

set_option autoImplicit false

namespace EmailScheduler

open Foundation

/-- The queue of `createEmailQueue`; an active job carries the number of its execution. -/
abbrev EmailQueue : Type := JobQueue BullJobId EmailJobData Nat

/-- A job as BullMQ stores it, with the `attempts` of `defaultJobOptions`. -/
def queuedJob (config : AppConfig) (job : BulkJob) : QueuedJob BullJobId EmailJobData where
  id := job.opts.jobId
  data := job.data
  attempts := config.smtpMaxAttempts.toNat
  attemptsMade := 0
  stalledCount := 0

/-- `queue.addBulk`. -/
def EmailQueue.addBulk (config : AppConfig) (q : EmailQueue) (jobs : List BulkJob) : EmailQueue :=
  q.addAll (jobs.map fun job => (queuedJob config job, decide (0 < job.opts.delay)))

/-- The job as it is passed to the processor. -/
def processorJob (job : QueuedJob BullJobId EmailJobData) : Job where
  scheduledEmailId := job.data.scheduledEmailId
  attemptsMade := job.attemptsMade
  attempts := some job.attempts

/-- What becomes of a job whose execution ended; `afterThrow`, if its processor threw. -/
def Outcome.verdict (afterThrow : Verdict) : Outcome → Verdict
  | .returned => .completed
  | .delayed _ => .delayed
  | .delayLost _ _ => afterThrow
  | .unrecoverable _ => .failed
  | .failed _ => afterThrow
  | .threw _ => afterThrow

/-- `removeOnComplete` and `removeOnFail`. -/
def AppConfig.retention (config : AppConfig) : Nat := config.jobRetentionCount.toNat

/-- Deliveries and the queue they come from. -/
structure Pipeline where
  delivery : Delivery
  queue : EmailQueue

inductive PipelineEvent where
  | world (event : DeliveryEvent)
  | addBulk (jobs : List BulkJob)
  | promote (id : BullJobId)
  | start (id : BullJobId)
  | settle (id : BullJobId)
  | requeue (id : BullJobId)
  | giveUp (id : BullJobId)

namespace Pipeline

/-- A job names a row and carries the row's job id. -/
def jobOfRow (db : Database) (job : BulkJob) : Bool :=
  db.emails.any fun e =>
    decide (job.data.scheduledEmailId = e.id) && decide (job.opts.jobId = e.bullJobId)

/-- One step. -/
def step (config : AppConfig) : PipelineEvent → Pipeline → Option Pipeline
  -- Executions are started by the queue only.
  | .world (.deliver _), _ => none
  | .world event, s =>
      (Delivery.step config event s.delivery).map fun d => { s with delivery := d }
  | .addBulk jobs, s =>
      if jobs.all (jobOfRow s.delivery.database) then
        some { s with queue := s.queue.addBulk config jobs }
      else none
  | .promote id, s =>
      match s.queue.find? id with
      | some (_, .delayed) => some { s with queue := s.queue.move id .waiting }
      | _ => none
  | .start id, s =>
      match s.queue.find? id with
      | some (job, .waiting) =>
          (Delivery.step config (.deliver (processorJob job)) s.delivery).map fun d =>
            ⟨d, s.queue.move id (.active s.delivery.executions.length)⟩
      | _ => none
  | .settle id, s =>
      match s.queue.find? id with
      | some (job, .active i) =>
          match s.delivery.stageOf i with
          | .finished outcome =>
              some { s with
                queue := s.queue.settle config.retention job (outcome.verdict job.afterThrow) }
          | _ => none
      | _ => none
  -- A stalled job is put back, or failed without another attempt.
  | .requeue id, s =>
      match s.queue.find? id with
      | some (_, .active _) => some { s with queue := s.queue.putBack id }
      | _ => none
  | .giveUp id, s =>
      match s.queue.find? id with
      | some (job, .active _) =>
          some { s with queue := s.queue.settle config.retention job .failed }
      | _ => none

/-- Runs start with an empty queue. -/
def system (config : AppConfig) : TransitionSystem Pipeline PipelineEvent where
  init s := (Delivery.system config).init s.delivery ∧ s.queue = JobQueue.empty
  step := step config

/-! ## What is assumed of stalled jobs -/

/-- The execution in which a job is active runs. -/
def isRun (s : Pipeline) (id : BullJobId) : Bool :=
  match s.queue.find? id with
  | some (_, .active i) => (s.delivery.stageOf i).isRunning
  | _ => false

/-- No lock is lost: the execution of a stalled job has ended. -/
def LocksKept (s : Pipeline) : PipelineEvent → Prop
  | .requeue id => s.isRun id = false
  | .giveUp id => s.isRun id = false
  | _ => True

instance (s : Pipeline) (event : PipelineEvent) : Decidable (LocksKept s event) :=
  match event with
  | .requeue id => inferInstanceAs (Decidable (s.isRun id = false))
  | .giveUp id => inferInstanceAs (Decidable (s.isRun id = false))
  | .world _ | .addBulk _ | .promote _ | .start _ | .settle _ => .isTrue trivial

/-- How often a live job was put back. -/
def stalledCount (s : Pipeline) (id : BullJobId) : Nat :=
  match s.queue.find? id with
  | some (job, _) => job.stalledCount
  | none => 0

/-- A stalled job is put back while that happened less than `limit` times, and given up after
that. -/
def StallsWithin (limit : Nat) (s : Pipeline) : PipelineEvent → Prop
  | .requeue id => s.stalledCount id < limit
  | .giveUp id => limit ≤ s.stalledCount id
  | _ => True

/-! ## Steps -/

/-- `reconcileEmailQueue` with no worker running: the sweep, then every page to `addBulk`. -/
def reconcile (config : AppConfig) (now : Int) (s : Pipeline) : Pipeline :=
  let r := reconcileEmailQueue config s.delivery.database now
  ⟨s.delivery.withDatabase r.database, s.queue.addBulk config r.pass.jobs⟩

variable {config : AppConfig} {s t : Pipeline} {event : PipelineEvent}

/-- A step, without the details of the lookups: the system moves without the queue; or jobs are
added; or a live job is moved, started, settled, put back or given up. -/
inductive StepCase (config : AppConfig) (s : Pipeline) : PipelineEvent → Pipeline → Prop where
  | world (event : DeliveryEvent) (d : Delivery) : (∀ job, event ≠ .deliver job) →
      (Delivery.system config).step event s.delivery = some d →
      StepCase config s (.world event) ⟨d, s.queue⟩
  | addBulk (jobs : List BulkJob) : (∀ job ∈ jobs, jobOfRow s.delivery.database job = true) →
      StepCase config s (.addBulk jobs) ⟨s.delivery, s.queue.addBulk config jobs⟩
  | promote (job : QueuedJob BullJobId EmailJobData) : (job, LiveState.delayed) ∈ s.queue.live →
      StepCase config s (.promote job.id) ⟨s.delivery, s.queue.move job.id .waiting⟩
  | start (job : QueuedJob BullJobId EmailJobData) (d : Delivery) :
      (job, LiveState.waiting) ∈ s.queue.live →
      (Delivery.system config).step (.deliver (processorJob job)) s.delivery = some d →
      StepCase config s (.start job.id)
        ⟨d, s.queue.move job.id (.active s.delivery.executions.length)⟩
  | settle (job : QueuedJob BullJobId EmailJobData) (i : Nat) (outcome : Outcome) :
      (job, LiveState.active i) ∈ s.queue.live → s.delivery.stageOf i = .finished outcome →
      StepCase config s (.settle job.id)
        ⟨s.delivery, s.queue.settle config.retention job (outcome.verdict job.afterThrow)⟩
  | requeue (job : QueuedJob BullJobId EmailJobData) (i : Nat) :
      (job, LiveState.active i) ∈ s.queue.live →
      StepCase config s (.requeue job.id) ⟨s.delivery, s.queue.putBack job.id⟩
  | giveUp (job : QueuedJob BullJobId EmailJobData) (i : Nat) :
      (job, LiveState.active i) ∈ s.queue.live →
      StepCase config s (.giveUp job.id)
        ⟨s.delivery, s.queue.settle config.retention job .failed⟩

/-- **Step rule of the pipeline.** -/
theorem stepCase_of_step (h : (system config).step event s = some t) :
    StepCase config s event t := by
  simp only [system] at h
  cases event with
  | world event =>
      -- Deliveries are started by the queue, so the world does not make them.
      have hcase : (∀ job, event ≠ .deliver job) ∧ ∃ d,
          Delivery.step config event s.delivery = some d ∧
            ({ s with delivery := d } : Pipeline) = t := by
        cases event with
        | deliver job => cases h
        | _ =>
            refine ⟨?_, Option.map_eq_some_iff.1 h⟩
            intro job hjob
            cases hjob
      obtain ⟨hdeliver, d, hd, rfl⟩ := hcase
      exact .world event d hdeliver hd
  | addBulk jobs =>
      simp only [step] at h
      split at h
      next hjobs =>
        cases h
        exact .addBulk jobs (List.all_eq_true.1 hjobs)
      next => cases h
  | promote id =>
      simp only [step] at h
      split at h
      next job hfind =>
        cases h
        obtain ⟨hlive, rfl⟩ := JobQueue.mem_of_find? hfind
        exact .promote job hlive
      next => cases h
  | start id =>
      simp only [step] at h
      split at h
      next job hfind =>
        obtain ⟨d, hd, rfl⟩ := Option.map_eq_some_iff.1 h
        obtain ⟨hlive, rfl⟩ := JobQueue.mem_of_find? hfind
        exact .start job d hlive hd
      next => cases h
  | settle id =>
      simp only [step] at h
      split at h
      next job i hfind =>
        split at h
        next outcome hstage =>
          cases h
          obtain ⟨hlive, rfl⟩ := JobQueue.mem_of_find? hfind
          exact .settle job i outcome hlive hstage
        next => cases h
      next => cases h
  | requeue id =>
      simp only [step] at h
      split at h
      next job i hfind =>
        cases h
        obtain ⟨hlive, rfl⟩ := JobQueue.mem_of_find? hfind
        exact .requeue job i hlive
      next => cases h
  | giveUp id =>
      simp only [step] at h
      split at h
      next job i hfind =>
        cases h
        obtain ⟨hlive, rfl⟩ := JobQueue.mem_of_find? hfind
        exact .giveUp job i hlive
      next => cases h

/-- The execution of a job that is active in it, and the times the job was put back. -/
theorem isRun_eq (hids : s.queue.UniqueIds) {job : QueuedJob BullJobId EmailJobData} {i : Nat}
    (hjob : (job, .active i) ∈ s.queue.live) :
    s.isRun job.id = (s.delivery.stageOf i).isRunning := by
  unfold isRun
  rw [hids.find?_eq hjob]

theorem stalledCount_eq (hids : s.queue.UniqueIds) {job : QueuedJob BullJobId EmailJobData}
    {state : LiveState Nat} (hjob : (job, state) ∈ s.queue.live) :
    s.stalledCount job.id = job.stalledCount := by
  unfold stalledCount
  rw [hids.find?_eq hjob]

/-- The deliveries of a pipeline are a run of the delivery system. -/
theorem delivery_steps {P : Pipeline → PipelineEvent → Prop} (h : (system config).Steps P s t) :
    (Delivery.system config).Steps TransitionSystem.anyStep s.delivery t.delivery := by
  apply h.map Pipeline.delivery
  intro s event t _ hstep
  cases stepCase_of_step hstep with
  | world event d _ hd => exact .single trivial hd
  | addBulk => exact .refl
  | promote => exact .refl
  | start job d _ hd => exact .single trivial hd
  | settle => exact .refl
  | requeue => exact .refl
  | giveUp => exact .refl

theorem delivery_reachable {P : Pipeline → PipelineEvent → Prop}
    (h : (system config).Reachable P s) :
    (Delivery.system config).Reachable TransitionSystem.anyStep s.delivery := by
  obtain ⟨s₀, hinit, hsteps⟩ := h
  exact ⟨s₀.delivery, hinit.1, delivery_steps hsteps⟩

end Pipeline

end EmailScheduler
