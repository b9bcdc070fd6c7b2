import EmailScheduler.Queue.Pipeline

/-!
# No stranded email

The status of a row and the life of its job agree over whole runs: when a job is finished for good
its row is closed (`QueueInv`), so a reconciliation, whose additions only take effect for ids that
the queue does not know, leaves every open row with a live job. There is one way out of the
invariant. The processor reads the row, asks the limiter, defers and claims before it touches the
row, and an error of one of these calls uses up an attempt of the job like any other. When that
happens on the last attempt BullMQ keeps the job as failed while the row is open; `KeepsOpenRows`
says that it does not happen, and that BullMQ gives up no job with an open row for having stalled
and lets no running execution lose its lock.
-/

set_option autoImplicit false

namespace EmailScheduler

open Foundation

/-- An execution ended by an error of the database, of Redis or of the queue. -/
def Outcome.isInfrastructureError : Outcome → Bool
  | .threw _ => true
  | .delayLost _ _ => true
  | _ => false

namespace Pipeline

/-- The row of a job is open. -/
def hasOpenRow (s : Pipeline) (job : QueuedJob BullJobId EmailJobData) : Bool :=
  s.delivery.database.emails.any fun e =>
    decide (e.id = job.data.scheduledEmailId) && e.status.isOpen

/-- A job is given up while its row is open: after an infrastructure error on its last attempt, or
for having stalled. -/
def givesUpOpenRow (s : Pipeline) : PipelineEvent → Bool
  | .settle id =>
      match s.queue.find? id with
      | some (job, .active i) =>
          match s.delivery.stageOf i with
          | .finished outcome =>
              outcome.isInfrastructureError && decide (job.attempts ≤ job.attemptsMade + 1) &&
                s.hasOpenRow job
          | _ => false
      | _ => false
  | .giveUp id =>
      match s.queue.find? id with
      | some (job, _) => s.hasOpenRow job
      | none => false
  | _ => false

/-- The condition on the steps of a run. -/
def KeepsOpenRows (s : Pipeline) (event : PipelineEvent) : Prop :=
  s.givesUpOpenRow event = false ∧ LocksKept s event

instance (s : Pipeline) (event : PipelineEvent) : Decidable (KeepsOpenRows s event) :=
  inferInstanceAs (Decidable (_ ∧ _))

/-- What ties the queue to the executions and to the rows. -/
structure QueueInv (s : Pipeline) : Prop where
  ids : s.queue.UniqueIds
  named : ∀ job ∈ s.queue.jobs, job.id = createBullJobId job.data.scheduledEmailId ∧
    ∃ e ∈ s.delivery.database.emails, e.id = job.data.scheduledEmailId
  active : ∀ job i, (job, .active i) ∈ s.queue.live →
    s.delivery.jobOf? i = some (processorJob job)
  running : ∀ i, (s.delivery.stageOf i).isRunning = true → ∃ job, (job, .active i) ∈ s.queue.live
  settled : ∀ job i, (job, .active i) ∈ s.queue.live → (s.delivery.stageOf i).isSettled = true →
    Closed s.delivery.database job.data.scheduledEmailId
  retry : ∀ job i, (job, .active i) ∈ s.queue.live → (s.delivery.stageOf i).asksRetry = true →
    job.attemptsMade + 1 < job.attempts
  finished : ∀ job, job ∈ s.queue.completed ∨ job ∈ s.queue.failed →
    Closed s.delivery.database job.data.scheduledEmailId

variable {config : AppConfig} {s t : Pipeline} {event : PipelineEvent}

/-! ## Jobs and their executions -/

namespace QueueInv

/-- Jobs for one email are one job. -/
theorem id_eq (hinv : QueueInv s) {a b : QueuedJob BullJobId EmailJobData}
    (ha : a ∈ s.queue.jobs) (hb : b ∈ s.queue.jobs)
    (hdata : a.data.scheduledEmailId = b.data.scheduledEmailId) : a.id = b.id := by
  rw [(hinv.named a ha).1, (hinv.named b hb).1, hdata]

theorem mem_jobs {job : QueuedJob BullJobId EmailJobData} {state : LiveState Nat}
    (h : (job, state) ∈ s.queue.live) : job ∈ s.queue.jobs :=
  JobQueue.mem_jobs.2 (Or.inl ⟨state, h⟩)

/-- A live job has one state. -/
theorem state_eq (hinv : QueueInv s) {a b : QueuedJob BullJobId EmailJobData}
    {x y : LiveState Nat} (ha : (a, x) ∈ s.queue.live) (hb : (b, y) ∈ s.queue.live)
    (hid : a.id = b.id) : x = y :=
  congrArg Prod.snd (hinv.ids.live_eq ha hb hid)

/-- Live jobs for one email are one job in one state. -/
theorem live_eq (hinv : QueueInv s) {x y : QueuedJob BullJobId EmailJobData × LiveState Nat}
    (hx : x ∈ s.queue.live) (hy : y ∈ s.queue.live)
    (hdata : x.1.data.scheduledEmailId = y.1.data.scheduledEmailId) : x = y :=
  hinv.ids.live_eq hx hy (hinv.id_eq (mem_jobs hx) (mem_jobs hy) hdata)

end QueueInv

/-- A job of `addBulk` is for a row, under the job id of that row. -/
theorem named_of_jobOfRow
    (hs : (Delivery.system config).Reachable TransitionSystem.anyStep s.delivery)
    {job : BulkJob} (h : jobOfRow s.delivery.database job = true) :
    job.opts.jobId = createBullJobId job.data.scheduledEmailId ∧
      ∃ e ∈ s.delivery.database.emails, e.id = job.data.scheduledEmailId := by
  obtain ⟨e, he, hnamed⟩ := List.any_eq_true.1 h
  simp only [Bool.and_eq_true, decide_eq_true_eq] at hnamed
  refine ⟨?_, e, he, hnamed.1.symm⟩
  rw [hnamed.2, hnamed.1]
  exact (Delivery.rowValid_of_reachable hs e he).bullJobId

/-- The claim of an execution is on the row of its job. -/
theorem claim_id_eq_job
    (hs : (Delivery.system config).Reachable TransitionSystem.anyStep s.delivery)
    {i : Nat} {job : Job} (hjob : s.delivery.jobOf? i = some job)
    {p : LoadedEmail × ClaimedEmail} (hp : (s.delivery.stageOf i).delivery? = some p) :
    p.2.id = job.scheduledEmailId :=
  (Delivery.claim_id_eq hs hp).trans
    (Delivery.loaded_id_eq hs hjob (Stage.loaded?_of_delivery? hp))

/-- An execution that runs after a step that starts none ran before. -/
theorem isRunning_of_step {event : DeliveryEvent} {d d' : Delivery}
    (hdeliver : ∀ job, event ≠ .deliver job)
    (h : (Delivery.system config).step event d = some d') {i : Nat}
    (hrunning : (d'.stageOf i).isRunning = true) : (d.stageOf i).isRunning = true := by
  rcases Delivery.isRunning_of_step h hrunning with ⟨hold, -⟩ | ⟨job, hevent, -, -⟩
  · exact hold
  · exact absurd hevent (hdeliver job)

/-- A row stays closed in a step of an execution that does not deliver it. -/
theorem closed_of_world (hinv : QueueInv s)
    (hs : (Delivery.system config).Reachable TransitionSystem.anyStep s.delivery)
    {event : DeliveryEvent} {d : Delivery}
    (h : (Delivery.system config).step event s.delivery = some d) {id : Uuid}
    (hclosed : Closed s.delivery.database id)
    (hother : ∀ job i input, (job, .active i) ∈ s.queue.live → job.data.scheduledEmailId = id →
      event = .advance i input →
        (s.delivery.stageOf i).delivery? = none) : Closed d.database id := by
  apply Delivery.closed_of_step h hclosed
  intro i input failing error hevent hstage hid
  -- The execution that records the failure runs a job, which is a job for this row.
  obtain ⟨job, hactive⟩ := hinv.running i (by rw [hstage]; rfl)
  have hclaim := claim_id_eq_job hs (hinv.active job i hactive)
    (p := (failing.loaded, failing.claim)) (by rw [hstage]; rfl)
  have hnone := hother job i input hactive (hclaim.symm.trans hid) hevent
  rw [hstage] at hnone
  cases hnone

/-! ## Steps -/

theorem queueInv_init (h : (system config).init s) : QueueInv s := by
  obtain ⟨⟨-, -, -, -, -, -, hexecutions⟩, hqueue⟩ := h
  have hstage : ∀ i, s.delivery.stageOf i = .crashed := by
    intro i
    rw [Delivery.stageOf, hexecutions]
    rfl
  have hlive : ∀ x, x ∉ s.queue.live := by
    intro x hx
    rw [hqueue] at hx
    cases hx
  have hjobs : ∀ job, job ∉ s.queue.jobs := by
    intro job hjob
    rw [hqueue] at hjob
    cases hjob
  constructor
  · rw [hqueue]
    exact JobQueue.uniqueIds_empty
  · intro job hjob
    exact absurd hjob (hjobs job)
  · intro job i hactive
    exact absurd hactive (hlive _)
  · intro i hrunning
    rw [hstage] at hrunning
    cases hrunning
  · intro job i hactive
    exact absurd hactive (hlive _)
  · intro job i hactive
    exact absurd hactive (hlive _)
  · intro job hjob
    exact absurd (JobQueue.mem_jobs.2 (Or.inr hjob)) (hjobs job)

/-- **Step lemma for the delivery system.** -/
theorem queueInv_world (hinv : QueueInv s)
    (hs : (Delivery.system config).Reachable TransitionSystem.anyStep s.delivery)
    {event : DeliveryEvent} {d : Delivery} (hdeliver : ∀ job, event ≠ .deliver job)
    (h : (Delivery.system config).step event s.delivery = some d) :
    QueueInv ⟨d, s.queue⟩ := by
  constructor
  · exact hinv.ids
  · intro job hjob
    obtain ⟨hid, hrow⟩ := hinv.named job hjob
    exact ⟨hid, Delivery.exists_email_of_step h hrow⟩
  · intro job i hactive
    exact Delivery.jobOf?_eq_of_step h (hinv.active job i hactive)
  · intro i hrunning
    exact hinv.running i (isRunning_of_step hdeliver h hrunning)
  · intro job i hactive hsettled
    have hjob := hinv.active job i hactive
    by_cases hown : ∃ input, event = .advance i input
    · -- The execution of the job itself moves.
      obtain ⟨input, rfl⟩ := hown
      obtain ⟨x, stage', w, hx, hstage, hadvance, rfl⟩ := Delivery.step_advance config h
      have hself : Delivery.stageOf { (s.delivery.moveTo i stage') with world := w } i = stage' :=
        Delivery.stageOf_moveTo_self (List.getElem?_eq_some_iff.1 hx).1
      have hxjob : x.job = processorJob job :=
        Option.some.inj ((Delivery.jobOf?_of_getElem? hx).symm.trans hjob)
      rw [hxjob, ← hstage] at hadvance
      have hrow := (hinv.named job (QueueInv.mem_jobs hactive)).2
      apply closed_of_advance hadvance hrow (Delivery.rowValid_of_reachable hs)
        (Delivery.findScheduledEmail_isSome hs hrow)
      · intro loaded hloaded
        exact Delivery.loaded_id_eq hs hjob hloaded
      · exact hinv.settled job i hactive
      · rw [← hself]
        exact hsettled
    · -- Another execution moves, or none: the stage was settled before.
      have hbefore : (s.delivery.stageOf i).isSettled = true := by
        cases Delivery.stageStep_of_step h i with
        | same heq =>
            rw [← heq]
            exact hsettled
        | delivered new hevent _ _ => exact absurd hevent (hdeliver new)
        | crashed _ heq =>
            have hfalse : (d.stageOf i).isSettled = true := hsettled
            rw [heq] at hfalse
            cases hfalse
        | advanced input hevent _ _ => exact absurd ⟨input, hevent⟩ hown
        | returned _ _ hstage _ => rw [hstage]; rfl
        | threw _ _ hstage _ => rw [hstage]; rfl
      apply closed_of_world hinv hs h (hinv.settled job i hactive hbefore)
      intro other k input hother hdata hevent
      cases hinv.live_eq hother hactive hdata
      exact absurd ⟨input, hevent⟩ hown
  · intro job i hactive hretry
    have hjob := hinv.active job i hactive
    -- `retry`: the failure was recorded as retryable because the job has attempts left.
    cases Delivery.stageStep_of_step h i with
    | same heq =>
        apply hinv.retry job i hactive
        rw [← heq]
        exact hretry
    | delivered new hevent _ _ => exact absurd hevent (hdeliver new)
    | crashed _ heq =>
        have hfalse : (d.stageOf i).asksRetry = true := hretry
        rw [heq] at hfalse
        cases hfalse
    | @advanced x input _ hx hadvance =>
        have hfinal := finalRetry_of_asksRetry hadvance hretry
        have hxjob : x.job = processorJob job :=
          Option.some.inj ((Delivery.jobOf?_of_getElem? hx).symm.trans hjob)
        rw [hxjob, Job.finalRetry, decide_eq_false_iff_not] at hfinal
        exact Nat.lt_of_not_le hfinal
    | returned failing receipt _ heq =>
        have hfalse : (d.stageOf i).asksRetry = true := hretry
        rw [heq, afterSend] at hfalse
        split at hfalse <;> cases hfalse
    | threw _ _ _ heq =>
        have hfalse : (d.stageOf i).asksRetry = true := hretry
        rw [heq] at hfalse
        cases hfalse
  · intro job hdone
    apply closed_of_world hinv hs h (hinv.finished job hdone)
    intro other i _ hother hdata _
    -- A finished job and a live one do not share an id.
    have hid := hinv.id_eq (JobQueue.mem_jobs.2 (Or.inr hdone)) (QueueInv.mem_jobs hother)
      hdata.symm
    exact absurd hid (hinv.ids.not_finished hother hdone)

/-- **Step lemma for `addBulk`.** -/
theorem queueInv_addBulk (hinv : QueueInv s)
    (hs : (Delivery.system config).Reachable TransitionSystem.anyStep s.delivery)
    {jobs : List BulkJob}
    (hjobs : ∀ job ∈ jobs, jobOfRow s.delivery.database job = true) :
    QueueInv ⟨s.delivery, s.queue.addBulk config jobs⟩ := by
  constructor
  · exact JobQueue.uniqueIds_addAll hinv.ids _
  · intro job hjob
    rcases JobQueue.mem_jobs_addAll hjob with hold | ⟨x, hx, rfl⟩
    · exact hinv.named job hold
    · obtain ⟨bulk, hbulk, rfl⟩ := List.mem_map.1 hx
      exact named_of_jobOfRow hs (hjobs bulk hbulk)
  · intro job i hactive
    exact hinv.active job i (JobQueue.active_addAll_iff.1 hactive)
  · intro i hrunning
    obtain ⟨job, hactive⟩ := hinv.running i hrunning
    exact ⟨job, JobQueue.active_addAll_iff.2 hactive⟩
  · intro job i hactive
    exact hinv.settled job i (JobQueue.active_addAll_iff.1 hactive)
  · intro job i hactive
    exact hinv.retry job i (JobQueue.active_addAll_iff.1 hactive)
  · intro job hdone
    apply hinv.finished job
    rw [← JobQueue.addAll_completed s.queue, ← JobQueue.addAll_failed s.queue]
    exact hdone

/-- **A job that no execution runs** may be moved, put back, tried again or finished on a closed
row. -/
theorem queueInv_released (hinv : QueueInv s) {job : QueuedJob BullJobId EmailJobData}
    {state : LiveState Nat} (hjob : (job, state) ∈ s.queue.live)
    (hstopped : ∀ i, state = .active i → (s.delivery.stageOf i).isRunning = false) {q : EmailQueue}
    (hids : q.UniqueIds)
    (hjobs : ∀ known ∈ q.jobs, ∃ old ∈ s.queue.jobs, old.id = known.id ∧ old.data = known.data)
    (hactive : ∀ other i, (other, .active i) ∈ q.live → (other, .active i) ∈ s.queue.live)
    (hothers : ∀ x ∈ s.queue.live, x.1.id ≠ job.id → x ∈ q.live)
    (hfinished : ∀ done, done ∈ q.completed ∨ done ∈ q.failed →
      (done ∈ s.queue.completed ∨ done ∈ s.queue.failed) ∨
        done = job ∧ Closed s.delivery.database job.data.scheduledEmailId) :
    QueueInv ⟨s.delivery, q⟩ := by
  constructor
  · exact hids
  · intro other hother
    obtain ⟨old, hold, hid, hdata⟩ := hjobs other hother
    have hnamed := hinv.named old hold
    rw [hid, hdata] at hnamed
    exact hnamed
  · intro other i hother
    exact hinv.active other i (hactive other i hother)
  · intro i hrunning
    obtain ⟨other, hother⟩ := hinv.running i hrunning
    refine ⟨other, hothers _ hother ?_⟩
    intro hid
    -- The job is not the job of a running execution.
    have hstate := hinv.state_eq hjob hother hid.symm
    rw [hstopped i hstate] at hrunning
    cases hrunning
  · intro other i hother
    exact hinv.settled other i (hactive other i hother)
  · intro other i hother
    exact hinv.retry other i (hactive other i hother)
  · intro done hdone
    rcases hfinished done hdone with hbefore | ⟨rfl, hclosed⟩
    · exact hinv.finished done hbefore
    · exact hclosed

/-- A delayed job becomes due. -/
theorem queueInv_promote (hinv : QueueInv s) {job : QueuedJob BullJobId EmailJobData}
    (hjob : (job, .delayed) ∈ s.queue.live) :
    QueueInv ⟨s.delivery, s.queue.move job.id .waiting⟩ := by
  apply queueInv_released hinv hjob
  · intro i hstate
    cases hstate
  · exact JobQueue.uniqueIds_move hinv.ids _ _
  · exact fun _ => JobQueue.exists_of_mem_jobs_move
  · intro other i hactive
    rcases JobQueue.mem_live_move hactive with ⟨y, -, -, heq⟩ | ⟨hold, -⟩
    · cases heq
    · exact hold
  · exact fun _ => JobQueue.mem_live_move_of_ne
  · exact fun _ => Or.inl

/-- A job that stalled is put back. -/
theorem queueInv_requeue (hinv : QueueInv s) {job : QueuedJob BullJobId EmailJobData} {i : Nat}
    (hjob : (job, .active i) ∈ s.queue.live) (hlock : LocksKept s (.requeue job.id)) :
    QueueInv ⟨s.delivery, s.queue.putBack job.id⟩ := by
  apply queueInv_released hinv hjob
  · intro k hstate
    cases hstate
    exact (isRun_eq hinv.ids hjob).symm.trans hlock
  · exact JobQueue.uniqueIds_putBack hinv.ids _
  · exact fun _ => JobQueue.exists_of_mem_jobs_putBack
  · intro other k hactive
    rcases JobQueue.mem_live_putBack hactive with ⟨y, -, -, heq⟩ | ⟨hold, -⟩
    · cases heq
    · exact hold
  · exact fun _ => JobQueue.mem_live_updateMany_of_ne _
  · exact fun _ => Or.inl

/-- A waiting job is started. -/
theorem queueInv_start (hinv : QueueInv s) {job : QueuedJob BullJobId EmailJobData}
    (hjob : (job, .waiting) ∈ s.queue.live) {d : Delivery}
    (h : (Delivery.system config).step (.deliver (processorJob job)) s.delivery = some d) :
    QueueInv ⟨d, s.queue.move job.id (.active s.delivery.executions.length)⟩ := by
  have hstep := h
  cases h
  -- An active job is the one started, on the new execution, or was active before.
  have hcases : ∀ other i, (other, .active i) ∈
      (s.queue.move job.id (.active s.delivery.executions.length)).live →
      (other = job ∧ i = s.delivery.executions.length) ∨ (other, .active i) ∈ s.queue.live := by
    intro other i hactive
    rcases JobQueue.mem_live_move hactive with ⟨y, hy, hid, heq⟩ | hold
    · cases heq
      exact Or.inl ⟨congrArg Prod.fst (hinv.ids.live_eq hy hjob hid), rfl⟩
    · exact Or.inr hold.1
  -- An execution that was there before keeps its stage.
  have hstage : ∀ other i, (other, LiveState.active i) ∈ s.queue.live →
      Delivery.stageOf { s.delivery with
        executions := s.delivery.executions ++ [⟨processorJob job, .loading⟩] } i =
        s.delivery.stageOf i := by
    intro other i hactive
    obtain ⟨x, hx, -⟩ := Option.map_eq_some_iff.1 (hinv.active other i hactive)
    have hlt : i < s.delivery.executions.length := (List.getElem?_eq_some_iff.1 hx).1
    rw [Delivery.stageOf_append, if_neg (Nat.ne_of_lt hlt)]
  have hnew : Delivery.stageOf { s.delivery with
      executions := s.delivery.executions ++ [⟨processorJob job, .loading⟩] }
        s.delivery.executions.length = .loading := by
    rw [Delivery.stageOf_append, if_pos rfl]
  constructor
  · exact JobQueue.uniqueIds_move hinv.ids _ _
  · intro other hother
    obtain ⟨old, hold, hid, hdata⟩ := JobQueue.exists_of_mem_jobs_move hother
    rw [← hid, ← hdata]
    exact hinv.named old hold
  · intro other i hactive
    rcases hcases other i hactive with ⟨rfl, rfl⟩ | hold
    · simp [Delivery.jobOf?]
    · exact Delivery.jobOf?_eq_of_step hstep (hinv.active other i hold)
  · intro i hrunning
    by_cases hi : i = s.delivery.executions.length
    · subst hi
      exact ⟨job, JobQueue.mem_live_move_self hjob _⟩
    · have hbefore : (s.delivery.stageOf i).isRunning = true := by
        have hrunning' := hrunning
        rw [Delivery.stageOf_append, if_neg hi] at hrunning'
        exact hrunning'
      obtain ⟨other, hother⟩ := hinv.running i hbefore
      refine ⟨other, JobQueue.mem_live_move_of_ne hother ?_⟩
      intro hid
      cases hinv.state_eq hjob hother hid.symm
  · intro other i hactive hsettled
    rcases hcases other i hactive with ⟨rfl, rfl⟩ | hold
    · rw [hnew] at hsettled
      cases hsettled
    · rw [hstage other i hold] at hsettled
      exact hinv.settled other i hold hsettled
  · intro other i hactive hretry
    rcases hcases other i hactive with ⟨rfl, rfl⟩ | hold
    · rw [hnew] at hretry
      cases hretry
    · rw [hstage other i hold] at hretry
      exact hinv.retry other i hold hretry
  · intro other hdone
    exact hinv.finished other hdone

/-- A job whose row is not open is for a closed row. -/
theorem closed_of_hasOpenRow (hinv : QueueInv s) {job : QueuedJob BullJobId EmailJobData}
    {state : LiveState Nat} (hjob : (job, state) ∈ s.queue.live) (h : s.hasOpenRow job = false) :
    Closed s.delivery.database job.data.scheduledEmailId := by
  obtain ⟨-, e, he, hid⟩ := hinv.named job (QueueInv.mem_jobs hjob)
  have hrow := List.any_eq_false.1 h e he
  refine ⟨e, he, hid, ?_⟩
  simpa [hid] using hrow

/-- **A job is finished for good on a closed row only.** -/
theorem closed_of_verdict (hinv : QueueInv s) {job : QueuedJob BullJobId EmailJobData} {i : Nat}
    {outcome : Outcome} (hjob : (job, .active i) ∈ s.queue.live)
    (hstage : s.delivery.stageOf i = .finished outcome) (hkeeps : KeepsOpenRows s (.settle job.id))
    (hverdict : outcome.verdict job.afterThrow = .completed ∨
      outcome.verdict job.afterThrow = .failed) :
    Closed s.delivery.database job.data.scheduledEmailId := by
  have hthrow : outcome.isInfrastructureError = true → job.afterThrow ≠ .retried →
      Closed s.delivery.database job.data.scheduledEmailId := by
    intro herror hfailed
    -- The condition rules out that a job is given up by a throw while its row is open.
    have hfind := hinv.ids.find?_eq hjob
    have hlast : decide (job.attempts ≤ job.attemptsMade + 1) = true := by
      rw [decide_eq_true_eq]
      by_contra hmore
      exact hfailed (Verdict.afterThrow_eq_retried_iff.2 (Nat.lt_of_not_le hmore))
    have hrow := hkeeps.1
    dsimp only at hfind
    simp only [givesUpOpenRow, hfind, hstage, herror, hlast, Bool.true_and] at hrow
    exact closed_of_hasOpenRow hinv hjob hrow
  have hnotRetried : ∀ verdict : Verdict, verdict = .completed ∨ verdict = .failed →
      verdict ≠ .retried := by
    rintro verdict (rfl | rfl) <;> simp
  cases outcome with
  -- An execution that ends without an error has settled; a failed one has attempts left.
  | returned => exact hinv.settled job i hjob (by rw [hstage]; rfl)
  | delayed availableAt => rcases hverdict with hverdict | hverdict <;> cases hverdict
  | delayLost availableAt error => exact hthrow rfl (hnotRetried _ hverdict)
  | unrecoverable message => exact hinv.settled job i hjob (by rw [hstage]; rfl)
  | failed message =>
      have hmore := hinv.retry job i hjob (by rw [hstage]; rfl)
      exact absurd (Verdict.afterThrow_eq_retried_iff.2 hmore) (hnotRetried _ hverdict)
  | threw error => exact hthrow rfl (hnotRetried _ hverdict)

/-- A job that no execution runs is settled, and if that finishes it its row is closed. -/
theorem queueInv_settled (hinv : QueueInv s) {job : QueuedJob BullJobId EmailJobData} {i : Nat}
    (hjob : (job, .active i) ∈ s.queue.live) (hstopped : (s.delivery.stageOf i).isRunning = false)
    {verdict : Verdict} (hclosed : verdict = .completed ∨ verdict = .failed →
      Closed s.delivery.database job.data.scheduledEmailId) (retention : Nat) :
    QueueInv ⟨s.delivery, s.queue.settle retention job verdict⟩ := by
  apply queueInv_released hinv hjob
  · intro k hstate
    cases hstate
    exact hstopped
  · exact JobQueue.uniqueIds_settle hinv.ids hjob _ _
  · exact fun _ => JobQueue.exists_of_mem_jobs_settle hjob
  · intro other k hactive
    rcases JobQueue.mem_live_settle hactive with ⟨hold, -⟩ | ⟨y, -, -, hstate, -⟩
    · exact hold
    · cases hstate
  · exact fun _ => JobQueue.mem_live_settle_of_ne
  · intro done hdone
    exact (JobQueue.mem_finished_settle hdone).imp_right fun h => ⟨h.1, hclosed h.2⟩

/-- **Step lemma for settling.** -/
theorem queueInv_settle (hinv : QueueInv s) {job : QueuedJob BullJobId EmailJobData} {i : Nat}
    {outcome : Outcome} (hjob : (job, .active i) ∈ s.queue.live)
    (hstage : s.delivery.stageOf i = .finished outcome)
    (hkeeps : KeepsOpenRows s (.settle job.id)) :
    QueueInv ⟨s.delivery, s.queue.settle config.retention job (outcome.verdict job.afterThrow)⟩ :=
  queueInv_settled hinv hjob (by rw [hstage]; rfl) (closed_of_verdict hinv hjob hstage hkeeps) _

/-- The row of a job that is given up for having stalled is closed. -/
theorem closed_of_giveUp (hinv : QueueInv s) {job : QueuedJob BullJobId EmailJobData} {i : Nat}
    (hjob : (job, .active i) ∈ s.queue.live) (hkeeps : KeepsOpenRows s (.giveUp job.id)) :
    Closed s.delivery.database job.data.scheduledEmailId := by
  have hfind := hinv.ids.find?_eq hjob
  have hrow := hkeeps.1
  dsimp only at hfind
  simp only [givesUpOpenRow, hfind] at hrow
  exact closed_of_hasOpenRow hinv hjob hrow

theorem queueInv_step (hinv : QueueInv s)
    (hs : (Delivery.system config).Reachable TransitionSystem.anyStep s.delivery)
    (hkeeps : KeepsOpenRows s event) (h : (system config).step event s = some t) : QueueInv t := by
  cases stepCase_of_step h with
  | world event d hdeliver hd => exact queueInv_world hinv hs hdeliver hd
  | addBulk jobs hjobs => exact queueInv_addBulk hinv hs hjobs
  | promote job hjob => exact queueInv_promote hinv hjob
  | start job d hjob hd => exact queueInv_start hinv hjob hd
  | settle job i outcome hjob hstage => exact queueInv_settle hinv hjob hstage hkeeps
  | requeue job i hjob => exact queueInv_requeue hinv hjob hkeeps.2
  | giveUp job i hjob =>
      have hstopped : (s.delivery.stageOf i).isRunning = false :=
        (isRun_eq hinv.ids hjob).symm.trans hkeeps.2
      exact queueInv_settled hinv hjob hstopped (fun _ => closed_of_giveUp hinv hjob hkeeps) _

theorem queueInv_of_reachable (h : (system config).Reachable KeepsOpenRows s) : QueueInv s := by
  apply h.invariant_of_reachable
  · intro s hs
    exact queueInv_init hs
  · intro s event t hs hkeeps hstep hinv
    exact queueInv_step hinv (delivery_reachable hs) hkeeps hstep

/-! ## After a reconciliation -/

/-- An open row after the sweep is the row before it. -/
theorem mem_of_open_after_sweep {db : Database} {now : Int} {e : ScheduledEmail}
    (he : e ∈ (sweepStaleLeases config db now).2.emails) (hopen : e.status.isOpen = true) :
    e ∈ db.emails := by
  obtain ⟨row, hrow, rfl⟩ := mem_updateMany.1 he
  split at hopen
  · cases hopen
  next hfresh =>
    rw [if_neg hfresh]
    exact hrow

/-- What a reconciliation leaves behind: it has returned, and every open row has a live job under
its own job id. -/
def NoStrandedEmail (config : AppConfig) (now : Int) (s : Pipeline) : Prop :=
  (reconcileEmailQueue config s.delivery.database now).pass.returned = true ∧
    ∀ e ∈ (s.reconcile config now).delivery.database.emails, e.status.isOpen = true →
      ∃ x ∈ (s.reconcile config now).queue.live, x.1.id = e.bullJobId

instance (config : AppConfig) (now : Int) (s : Pipeline) :
    Decidable (NoStrandedEmail config now s) :=
  inferInstanceAs (Decidable (_ ∧ ∀ e ∈ (s.reconcile config now).delivery.database.emails,
    e.status.isOpen = true → ∃ x ∈ (s.reconcile config now).queue.live, x.1.id = e.bullJobId))

/-- **No stranded email.** In every run that gives up no job on an open row and loses no lock, and
at every time, a reconciliation leaves every open row with a job that will still run. -/
theorem noStrandedEmail_of_reachable (h : (system config).Reachable KeepsOpenRows s) (now : Int) :
    NoStrandedEmail config now s := by
  have hinv := queueInv_of_reachable h
  have hs := delivery_reachable h
  have hkey := Delivery.primaryKey_emails hs
  refine ⟨reconcileEmailQueue_returned config now hkey, ?_⟩
  intro e he hopen
  -- The pass hands the row over, so its id is known to the queue afterwards.
  obtain ⟨job, hjob, hid, hdata⟩ := reconcileEmailQueue_handed hkey he hopen
  obtain ⟨known, hknown, hknownId⟩ := JobQueue.exists_addAll s.queue
    (List.mem_map_of_mem (f := fun job => (queuedJob config job, decide (0 < job.opts.delay))) hjob)
  have hknownId : known.id = e.bullJobId := hknownId.trans hid
  rcases JobQueue.mem_jobs.1 hknown with ⟨state, hlive⟩ | hdone
  · exact ⟨(known, state), hlive, hknownId⟩
  · -- A finished job was finished before, and its row is closed.
    rw [JobQueue.addAll_completed, JobQueue.addAll_failed] at hdone
    have hclosed := hinv.finished known hdone
    have hbefore := mem_of_open_after_sweep he hopen
    have hnamed := (hinv.named known (JobQueue.mem_jobs.2 (Or.inr hdone))).1
    rw [hknownId, (Delivery.rowValid_of_reachable hs e hbefore).bullJobId] at hnamed
    have hrow := createBullJobId_injective hnamed
    rw [hclosed.isOpen_eq_false hkey hbefore hrow] at hopen
    cases hopen

/-! ## A database that is down -/

/-- One scheduled email and its job. -/
def scheduledAndQueued : List PipelineEvent :=
  [.world (.createBatch (Delivery.requestFor ["a@test.invalid"]) 10 fun i => 100 + i),
    .addBulk [⟨emailJobName, ⟨100⟩, ⟨createBullJobId 100, 0⟩⟩]]

/-- The job is started as execution `i`, cannot read its row, and is settled. -/
def unreachableDatabase (i : Nat) : List PipelineEvent :=
  [.start (createBullJobId 100), .world (.advance i ⟨0, 0, .refused notFinalizedError⟩),
    .settle (createBullJobId 100)]

/-- Nothing runs and nothing is queued. -/
def idleStart : Pipeline := ⟨Delivery.oneSenderStart, JobQueue.empty⟩

theorem idleStart_init (config : AppConfig) : (system config).init idleStart :=
  ⟨Delivery.oneSenderStart_init config, rfl⟩

/-- Two failures leave the job its third attempt. -/
theorem noStrandedEmail_after_twoFailures : ∃ s,
    (system validConfig).run KeepsOpenRows
      (scheduledAndQueued ++ unreachableDatabase 0 ++ [.promote (createBullJobId 100)] ++
        unreachableDatabase 1) idleStart = some s ∧
      s.delivery.database.emails.map ScheduledEmail.status = [.scheduled] ∧
      NoStrandedEmail validConfig 0 s :=
  ⟨_, rfl, by decide, noStrandedEmail_of_reachable (TransitionSystem.reachable_of_run
    (scheduledAndQueued ++ unreachableDatabase 0 ++ [.promote (createBullJobId 100)] ++
      unreachableDatabase 1) (idleStart_init validConfig) rfl) 0⟩

/-- The third failure uses the job up: the row stays `SCHEDULED`, and adding its job again does
nothing. -/
theorem strandedEmail_after_threeFailures : ∃ s,
    (system validConfig).Reachable TransitionSystem.anyStep s ∧
      (∀ x ∈ s.delivery.executions, x.stage.isRunning = false) ∧
      (s.reconcile validConfig 0).delivery.database.emails.map ScheduledEmail.status =
        [.scheduled] ∧
      (s.reconcile validConfig 0).queue.live = [] ∧
      ¬ NoStrandedEmail validConfig 0 s :=
  ⟨_, TransitionSystem.reachable_of_run (scheduledAndQueued ++ unreachableDatabase 0 ++
      [.promote (createBullJobId 100)] ++ unreachableDatabase 1 ++
      [.promote (createBullJobId 100)] ++ unreachableDatabase 2) (idleStart_init validConfig) rfl,
    by decide, by decide, rfl, by decide⟩

end Pipeline

end EmailScheduler
