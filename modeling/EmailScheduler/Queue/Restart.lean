import EmailScheduler.RateLimit.RateSeed
import EmailScheduler.Delivery.Backlog
import EmailScheduler.Queue.NoStrandedEmail

/-!
# Restarting the worker

`startWorker` seeds the limiter, reconciles the queue with the database, and only then takes jobs.
That this is enough to recover is shown from every state that a run reaches which gives up no job on
an open row. The worker stops, wherever its executions are, and starts again at a time at which the
claims it left are stale. Then the jobs that are in the queue bring every email to its end
(`restartClears`): no further job is added, no further sweep is made, and no email waits for a job
that it does not have.

The jobs that were active when the worker stopped have stalled, and BullMQ puts a job back only so
often. One that has used that up is given up by BullMQ instead, so none may have.

The way of one email is the delivery of `exists_delivered`, with a job of the queue: it is promoted
or put back if it does not wait, started, and settled as completed.
-/

set_option autoImplicit false

namespace EmailScheduler

open Foundation

namespace Pipeline

variable {config : AppConfig} {s t : Pipeline} {limit : Nat}

/-! ## The start of a worker -/

/-- An execution whose worker has ended. -/
def stopExecution (x : Execution) : Execution :=
  if x.stage.isRunning then { x with stage := .crashed } else x

/-- The workers have ended, and with them the executions that ran. -/
def stopped (s : Pipeline) : Pipeline :=
  ⟨⟨s.delivery.world, s.delivery.executions.map stopExecution⟩, s.queue⟩

/-- `startWorker`, up to the creation of the worker: the limiter is seeded and the queue
reconciled. -/
def startWorker (config : AppConfig) (seededAt now : Int) (s : Pipeline) : Pipeline :=
  let (_, limiter) :=
    seedSenderRateLimits config s.delivery.database seededAt s.delivery.world.limiter
  reconcile config now ⟨s.delivery.withLimiter limiter, s.queue⟩

/-- A step of the delivery system that starts no execution is a step of the pipeline. -/
theorem step_world {event : DeliveryEvent} {d d' : Delivery}
    (hdeliver : ∀ job, event ≠ .deliver job)
    (h : (Delivery.system config).step event d = some d') (q : EmailQueue) :
    (system config).step (.world event) ⟨d, q⟩ = some ⟨d', q⟩ := by
  have hstep : Delivery.step config event d = some d' := h
  cases event with
  | deliver job => exact absurd rfl (hdeliver job)
  | _ =>
      simp only [system, step]
      rw [hstep]
      rfl

/-- The executions stop one after the other: those in front have stopped, the rest has not yet. -/
theorem steps_stopRest {w : World} {q : EmailQueue} (front rest : List Execution) :
    (system config).Steps KeepsOpenRows ⟨⟨w, front ++ rest⟩, q⟩
      ⟨⟨w, front ++ rest.map stopExecution⟩, q⟩ := by
  induction rest generalizing front with
  | nil => exact .refl
  | cons x rest ih =>
      have hfirst : (system config).Steps KeepsOpenRows ⟨⟨w, front ++ x :: rest⟩, q⟩
          ⟨⟨w, front ++ stopExecution x :: rest⟩, q⟩ := by
        unfold stopExecution
        split
        next hrunning =>
          refine .tail (.world (.crash front.length)) .refl ⟨rfl, trivial⟩ (step_world ?_ ?_ q)
          · intro job hevent
            cases hevent
          · have hstage : Delivery.stageOf ⟨w, front ++ x :: rest⟩ front.length = x.stage := by
              simp [Delivery.stageOf]
            simp only [Delivery.system, Delivery.step]
            rw [hstage, if_pos hrunning, Delivery.moveTo, modify_append_cons]
        -- An execution that has ended stays as it is.
        next => exact .refl
      have hothers := ih (front ++ [stopExecution x])
      rw [List.append_assoc, List.append_assoc] at hothers
      exact hfirst.trans hothers

theorem steps_stopped : (system config).Steps KeepsOpenRows s s.stopped :=
  steps_stopRest [] s.delivery.executions

theorem isRunning_stopped (i : Nat) : (s.stopped.delivery.stageOf i).isRunning = false := by
  unfold stopped Delivery.stageOf
  dsimp only
  rw [List.getElem?_map]
  cases s.delivery.executions[i]? with
  | none => rfl
  | some x =>
      show (stopExecution x).stage.isRunning = false
      unfold stopExecution
      split
      next => rfl
      next hstopped => simpa using hstopped

/-- The seeding is one call for each sender. -/
theorem steps_seedSenders (seededAt : Int) (senders : List EmailSender) (limiter : Limiter) :
    (system config).Steps KeepsOpenRows ⟨s.delivery.withLimiter limiter, s.queue⟩
      ⟨s.delivery.withLimiter
        (senders.foldl (seedSender config s.delivery.database seededAt) limiter), s.queue⟩ := by
  induction senders generalizing limiter with
  | nil => exact .refl
  | cons sender senders ih =>
      let event : DeliveryEvent :=
        .seed sender.policy (s.delivery.database.acceptedCount sender.id seededAt)
          (s.delivery.database.lastAcceptedAt sender.id seededAt) seededAt
      have hfirst : (system config).Steps KeepsOpenRows ⟨s.delivery.withLimiter limiter, s.queue⟩
          ⟨s.delivery.withLimiter
            (seedSender config s.delivery.database seededAt limiter sender), s.queue⟩ :=
        .single (l := .world event) ⟨rfl, trivial⟩ rfl
      exact hfirst.trans (ih _)

theorem steps_seeded (seededAt : Int) :
    (system config).Steps KeepsOpenRows s ⟨s.delivery.withLimiter (seedSenderRateLimits config
      s.delivery.database seededAt s.delivery.world.limiter).2, s.queue⟩ :=
  steps_seedSenders seededAt _ s.delivery.world.limiter

/-- A reconciliation is a sweep and the jobs of its pass. -/
theorem steps_reconcile (now : Int) :
    (system config).Steps KeepsOpenRows s (s.reconcile config now) := by
  let r := reconcileEmailQueue config s.delivery.database now
  have hswept : (system config).Steps KeepsOpenRows s
      ⟨s.delivery.withDatabase r.database, s.queue⟩ :=
    .single (l := .world (.sweep now)) ⟨rfl, trivial⟩ rfl
  refine .tail (.addBulk r.pass.jobs) hswept ⟨rfl, trivial⟩ ?_
  -- The pages are read after the sweep, so their jobs name rows of the swept table.
  have hjobs : r.pass.jobs.all (jobOfRow r.database) = true := by
    rw [List.all_eq_true]
    intro job hjob
    rcases EnqueuePass.exists_row_of_loop hjob with hnone | ⟨e, he, -, time, rfl⟩
    · cases hnone
    · exact List.any_eq_true.2 ⟨e, he, by simp [bulkJob, jobOptions]⟩
  exact if_pos hjobs

theorem steps_startWorker (seededAt now : Int) :
    (system config).Steps KeepsOpenRows s (s.startWorker config seededAt now) :=
  (steps_seeded seededAt).trans (steps_reconcile now)

/-! ## One email -/

/-- What the queue and one worker do: no job is added or given up, nothing is swept, what the world
does is to drive an execution, and jobs that stalled are put back within the limit. -/
def Serves (limit : Nat) (s : Pipeline) (event : PipelineEvent) : Prop :=
  KeepsOpenRows s event ∧ StallsWithin limit s event ∧
    match event with
    | .world event => Delivery.Drives s.delivery event
    | .addBulk _ | .giveUp _ => False
    | .promote _ | .start _ | .settle _ | .requeue _ => True

theorem reachable_of_serves (h : (system config).Reachable KeepsOpenRows s)
    (hst : (system config).Steps (Serves limit) s t) : (system config).Reachable KeepsOpenRows t :=
  h.trans (hst.mono fun _ _ hserves => hserves.1)

/-- Every email is served: by the job that it is shown to have. -/
def everyEmail (_ : Uuid) : Bool := true

/-- No execution runs, every email that waits has its job, and jobs left active can be put back. -/
structure Ready (limit : Nat) (s : Pipeline) : Prop where
  stopped : ∀ i, (s.delivery.stageOf i).isRunning = false
  jobs : ∀ e ∈ s.delivery.waiting everyEmail, ∃ x ∈ s.queue.live, x.1.id = e.bullJobId
  stalls : ∀ job i, (job, .active i) ∈ s.queue.live → job.stalledCount < limit

/-- A run of the delivery system that drives executions is one of the pipeline. -/
theorem steps_world {d d' : Delivery} (h : (Delivery.system config).Steps Delivery.Drives d d')
    (q : EmailQueue) : (system config).Steps (Serves limit) ⟨d, q⟩ ⟨d', q⟩ := by
  apply h.map (fun d => (⟨d, q⟩ : Pipeline))
  intro d event d' hdrives hstep
  refine .single (l := .world event) ⟨⟨rfl, trivial⟩, trivial, hdrives⟩ (step_world ?_ hstep q)
  rintro job rfl
  exact hdrives

/-- Two queues have the same live jobs but for those under an id. -/
def SameOthers (id : BullJobId) (q q' : EmailQueue) : Prop :=
  ∀ x, x.1.id ≠ id → (x ∈ q'.live ↔ x ∈ q.live)

theorem SameOthers.trans {id : BullJobId} {q q' q'' : EmailQueue} (h : SameOthers id q q')
    (h' : SameOthers id q' q'') : SameOthers id q q'' :=
  fun x hne => (h' x hne).trans (h x hne)

theorem sameOthers_move (q : EmailQueue) (id : BullJobId) (state : LiveState Nat) :
    SameOthers id q (q.move id state) :=
  fun _ hne => JobQueue.mem_live_move_iff_of_ne hne

theorem sameOthers_putBack (q : EmailQueue) (id : BullJobId) : SameOthers id q (q.putBack id) :=
  fun _ hne => JobQueue.mem_live_putBack_iff_of_ne hne

/-- A live job that no execution runs is made to wait. -/
theorem exists_waiting (hinv : QueueInv s) (hready : Ready limit s)
    {job : QueuedJob BullJobId EmailJobData} {state : LiveState Nat}
    (hjob : (job, state) ∈ s.queue.live) :
    ∃ (q : EmailQueue) (job' : QueuedJob BullJobId EmailJobData), job'.id = job.id ∧
      (job', .waiting) ∈ q.live ∧ SameOthers job.id s.queue q ∧
      (system config).Steps (Serves limit) s ⟨s.delivery, q⟩ := by
  have hfind := hinv.ids.find?_eq hjob
  cases state with
  | waiting => exact ⟨s.queue, job, rfl, hjob, fun _ _ => Iff.rfl, .refl⟩
  | delayed =>
      refine ⟨_, job, rfl, JobQueue.mem_live_move_self hjob .waiting, sameOthers_move _ _ _,
        .single (l := .promote job.id) ⟨⟨rfl, trivial⟩, trivial, trivial⟩ ?_⟩
      simp only [system, step]
      rw [hfind]
  | active i =>
      -- The worker that had taken it has ended, so BullMQ puts it back.
      have hlock : LocksKept s (.requeue job.id) :=
        (isRun_eq hinv.ids hjob).trans (hready.stopped i)
      have hstalls : StallsWithin limit s (.requeue job.id) := by
        show s.stalledCount job.id < limit
        rw [stalledCount_eq hinv.ids hjob]
        exact hready.stalls job i hjob
      refine ⟨_, { job with stalledCount := job.stalledCount + 1 }, rfl,
        JobQueue.mem_live_putBack_self hjob, sameOthers_putBack _ _,
        .single (l := .requeue job.id) ⟨⟨rfl, hlock⟩, hstalls, trivial⟩ ?_⟩
      simp only [system, step]
      rw [hfind]

/-- The job of an email that waits is started. -/
theorem exists_started (h : (system config).Reachable KeepsOpenRows s) (hready : Ready limit s)
    {e : ScheduledEmail} (he : e ∈ s.delivery.waiting everyEmail) :
    ∃ (job : QueuedJob BullJobId EmailJobData) (q : EmailQueue), job.id = e.bullJobId ∧
      job.data.scheduledEmailId = e.id ∧ (job, .active s.delivery.executions.length) ∈ q.live ∧
      SameOthers job.id s.queue q ∧ (system config).Steps (Serves limit) s
        ⟨s.delivery.withExecution (processorJob job) .loading s.delivery.world, q⟩ := by
  have hinv := queueInv_of_reachable h
  have hvalid := Delivery.rowValid_of_reachable (delivery_reachable h) e (List.mem_filter.1 he).1
  obtain ⟨⟨queued, state⟩, hlive, hqueued⟩ := hready.jobs e he
  -- It may be delayed or active still, so it is made to wait first.
  obtain ⟨q, job, hsame, hwaiting, hothers, hwaits⟩ := exists_waiting hinv hready hlive
  have hid : job.id = e.bullJobId := hsame.trans hqueued
  have hinvWaits := queueInv_of_reachable (reachable_of_serves h hwaits)
  have hdata : job.data.scheduledEmailId = e.id := by
    apply createBullJobId_injective
    rw [← hvalid.bullJobId, ← hid]
    exact (hinvWaits.named job (QueueInv.mem_jobs hwaiting)).1.symm
  refine ⟨job, q.move job.id (.active s.delivery.executions.length), hid, hdata, ?_, ?_, ?_⟩
  · exact JobQueue.mem_live_move_self hwaiting _
  · rw [hsame]
    exact hothers.trans (sameOthers_move _ _ _)
  · refine .tail (.start job.id) hwaits ⟨⟨rfl, trivial⟩, trivial, trivial⟩ ?_
    simp only [system, step]
    rw [hinvWaits.ids.find?_eq hwaiting]
    rfl

/-- A job whose execution has returned is completed. -/
theorem steps_completed (hinv : QueueInv s) {job : QueuedJob BullJobId EmailJobData} {i : Nat}
    (hjob : (job, .active i) ∈ s.queue.live) (hstage : s.delivery.stageOf i = .finished .returned) :
    (system config).Steps (Serves limit) s
      ⟨s.delivery, s.queue.settle config.retention job .completed⟩ := by
  have hfind := hinv.ids.find?_eq hjob
  refine .tail (.settle job.id) .refl ⟨⟨?_, trivial⟩, trivial, trivial⟩ ?_
  -- Only a job that failed for the infrastructure can be given up.
  · simp only [givesUpOpenRow]
    rw [hfind]
    dsimp only
    rw [hstage]
    rfl
  · simp only [system, step]
    rw [hfind]
    dsimp only
    rw [hstage]
    rfl

/-- **An email that waits is sent by its job**, and the others still have theirs. -/
theorem exists_served (h : (system config).Reachable KeepsOpenRows s) (hready : Ready limit s)
    {e : ScheduledEmail} (he : e ∈ s.delivery.waiting everyEmail)
    (hlimits : ∀ x ∈ s.delivery.database.senders, 1 ≤ x.hourlyLimit) :
    ∃ t, (system config).Steps (Serves limit) s t ∧
      Delivery.Delivered e s.delivery t.delivery ∧ Ready limit t := by
  have hdelivery := delivery_reachable h
  obtain ⟨hmem, hwaits⟩ := List.mem_filter.1 he
  have hopen := (Delivery.waits_iff.1 hwaits).1
  obtain ⟨job, q, hid, hdata, hactive, hothers, hstarted⟩ := exists_started h hready he
  have hjob : (processorJob job).scheduledEmailId = e.id := hdata
  obtain ⟨w, hdrives, hdelivered⟩ := Delivery.exists_delivered hdelivery hmem hopen hlimits hjob
  have hended := hstarted.trans (steps_world hdrives q)
  have hinv := queueInv_of_reachable (reachable_of_serves h hended)
  refine ⟨_, hended.trans (steps_completed hinv hactive Delivery.stageOf_last), hdelivered,
    ?_, ?_, ?_⟩
  · intro i
    rw [Delivery.stageOf_withExecution]
    split
    -- The new execution has returned.
    · rfl
    · exact hready.stopped i
  · intro r hr
    obtain ⟨hr, hne⟩ := hdelivered.mem_waiting (Delivery.primaryKey_emails hdelivery) hmem hr
    obtain ⟨x, hx, hxid⟩ := hready.jobs r hr
    -- Another email has another job.
    have hother : x.1.id ≠ job.id := by
      intro hsame
      rw [hxid, hid] at hsame
      have hvalid := Delivery.rowValid_of_reachable hdelivery
      rw [(hvalid r (List.mem_filter.1 hr).1).bullJobId, (hvalid e hmem).bullJobId] at hsame
      exact hne (createBullJobId_injective hsame)
    exact ⟨x, JobQueue.mem_liveWithout.2 ⟨(hothers x hother).2 hx, hother⟩, hxid⟩
  · intro other i hother
    obtain ⟨hlive, hne⟩ := JobQueue.mem_liveWithout.1 hother
    exact hready.stalls other i ((hothers _ hne).1 hlive)

/-! ## All emails -/

/-- **The jobs of the queue send everything that waits.** -/
theorem exists_drained (waiting : List ScheduledEmail)
    (h : (system config).Reachable KeepsOpenRows s) (hready : Ready limit s)
    (hwaiting : s.delivery.waiting everyEmail = waiting)
    (hlimits : ∀ x ∈ s.delivery.database.senders, 1 ≤ x.hourlyLimit) :
    ∃ t, (system config).Steps (Serves limit) s t ∧
      Delivery.Drained everyEmail s.delivery t.delivery := by
  induction waiting generalizing s with
  | nil => exact ⟨s, .refl, Delivery.drained_of_none hwaiting⟩
  | cons e rest ih =>
      have he : e ∈ s.delivery.waiting everyEmail := by
        rw [hwaiting]
        exact List.mem_cons_self
      obtain ⟨t, hst, hdelivered, hready⟩ := exists_served h hready he hlimits
      have hreach := reachable_of_serves h hst
      have hrest := hdelivered.waiting_eq
        (Delivery.primaryKey_emails (delivery_reachable h)) hwaiting
      obtain ⟨u, htu, hdrained⟩ := ih hreach hready hrest (by rwa [hdelivered.senders])
      exact ⟨u, hst.trans htu, hdrained.of_delivered (delivery_reachable hreach) hdelivered
        (delivery_steps htu) hwaiting hrest⟩

/-- A reconciliation with no execution running leaves every email that waits with its job, and the
jobs that were active as they were. -/
theorem ready_reconcile (h : (system config).Reachable KeepsOpenRows s)
    (hstopped : ∀ i, (s.delivery.stageOf i).isRunning = false)
    (hstalls : ∀ job i, (job, .active i) ∈ s.queue.live → job.stalledCount < limit) (now : Int) :
    Ready limit (s.reconcile config now) where
  stopped := hstopped
  jobs e he := by
    obtain ⟨hmem, hwaits⟩ := List.mem_filter.1 he
    exact (noStrandedEmail_of_reachable h now).2 e hmem (Delivery.waits_iff.1 hwaits).1
  stalls job i hactive := hstalls job i (JobQueue.active_addAll_iff.1 hactive)

/-- **A restart clears the backlog.** In every state that a run reaches which gives up no job on an
open row the worker may stop and start again. If the claims are stale by then, and each job that was
active was put back less than `limit` times, the jobs in the queue bring every email to its end. -/
theorem restartClears (h : (system config).Reachable KeepsOpenRows s)
    (hlimits : ∀ x ∈ s.delivery.database.senders, 1 ≤ x.hourlyLimit)
    (hstalls : ∀ job i, (job, .active i) ∈ s.queue.live → job.stalledCount < limit)
    (seededAt : Int) {now : Int}
    (hstale : ∀ e ∈ s.delivery.database.emails, e.status = .processing →
      isStale config now e = true) :
    (system config).Steps KeepsOpenRows s (s.stopped.startWorker config seededAt now) ∧
      ∃ t, (system config).Steps (Serves limit) (s.stopped.startWorker config seededAt now) t ∧
        Delivery.Cleared everyEmail s.delivery t.delivery := by
  have hsteps : (system config).Steps KeepsOpenRows s (s.stopped.startWorker config seededAt now) :=
    steps_stopped.trans (steps_startWorker seededAt now)
  have hreach := h.trans hsteps
  have hready : Ready limit (s.stopped.startWorker config seededAt now) :=
    ready_reconcile (h.trans (steps_stopped.trans (steps_seeded seededAt)))
      isRunning_stopped hstalls
      now
  obtain ⟨t, hst, hdrained⟩ := exists_drained _ hreach hready rfl hlimits
  have hend := delivery_reachable (reachable_of_serves hreach hst)
  -- Stopping and seeding leave the rows and the submissions.
  have hcleared := Delivery.cleared_of_drained
    (s := s.stopped.delivery.withLimiter (seedSenderRateLimits config s.delivery.database seededAt
      s.delivery.world.limiter).2) hstale hend hdrained
  exact ⟨hsteps, t, hst, hcleared.rows, hcleared.submissions, hcleared.label⟩

/-- Three emails, two of them with jobs: one execution sends, the other one is about to ask the
limiter. -/
def twoOfThreeStarted : List PipelineEvent :=
  let advance (i : Nat) (token : Uuid) : PipelineEvent := .world (.advance i ⟨1000, token, .done⟩)
  [.world (.createBatch
      (Delivery.requestFor ["a@test.invalid", "b@test.invalid", "c@test.invalid"]) 10
      fun i => 100 + i),
    .addBulk [⟨emailJobName, ⟨100⟩, ⟨createBullJobId 100, 0⟩⟩,
      ⟨emailJobName, ⟨101⟩, ⟨createBullJobId 101, 0⟩⟩],
    .start (createBullJobId 100), .start (createBullJobId 101),
    advance 0 0, advance 0 0, advance 0 70, advance 0 0, advance 1 0]

/-- The worker stops there and starts again after the lease, with BullMQ's limit. -/
theorem restartClears_after_twoOfThreeStarted : ∃ s,
    (system validConfig).run KeepsOpenRows twoOfThreeStarted idleStart = some s ∧
      s.delivery.database.emails.map ScheduledEmail.status = [.processing, .scheduled, .scheduled] ∧
      s.delivery.executions.map (fun x => x.stage.isRunning) = [true, true] ∧
      s.queue.live.length = 2 ∧
      (system validConfig).Steps KeepsOpenRows s (s.stopped.startWorker validConfig 40000 40000) ∧
      ∃ t, (system validConfig).Steps (Serves 1) (s.stopped.startWorker validConfig 40000 40000) t ∧
        Delivery.Cleared everyEmail s.delivery t.delivery := by
  have hlimits : ∀ s, (system validConfig).run KeepsOpenRows twoOfThreeStarted idleStart = some s →
      ∀ x ∈ s.delivery.database.senders, 1 ≤ x.hourlyLimit := by
    intro s hs
    cases hs
    decide
  have hstalls : ∀ s, (system validConfig).run KeepsOpenRows twoOfThreeStarted idleStart = some s →
      ∀ x ∈ s.queue.live, x.1.stalledCount < 1 := by
    intro s hs
    cases hs
    decide
  have hstale : ∀ s, (system validConfig).run KeepsOpenRows twoOfThreeStarted idleStart = some s →
      ∀ e ∈ s.delivery.database.emails, e.status = .processing →
        isStale validConfig 40000 e = true := by
    intro s hs
    cases hs
    decide
  exact ⟨_, rfl, by decide, by decide, by decide, restartClears (TransitionSystem.reachable_of_run
    twoOfThreeStarted (idleStart_init validConfig) rfl) (hlimits _ rfl)
    (fun _ _ hactive => hstalls _ rfl _ hactive) 40000 (hstale _ rfl)⟩

end Pipeline

end EmailScheduler
