import EmailScheduler.Queue.NoStrandedEmail
import EmailScheduler.Delivery.Backlog

/-!
# One runner for an email

The delivery system lets any number of executions of one job run at once. The queue does not, as
long as no execution that runs loses its lock: the id of a job is that of its email, BullMQ keeps
one job under an id, and a live job is active in one execution. So no two executions that run are
for one email (`RunnerInv.exclusive`), however often its job is added, put back and started again. A
lost lock (`LocksKept` is the assumption that there is none) lets BullMQ start a job a second time
while it runs.

Two answers of the database that the processor provides for are then never given. Between the query
that loads a row and the claim nobody else touches the row, so the deferral that `recordRateLimit`
asks for is written on the row that was loaded, and `claimEmail` never comes back without a claim
(`oneRunner_of_reachable`).
-/

set_option autoImplicit false

namespace EmailScheduler

open Foundation

/-- The row an execution has loaded and has not claimed yet. -/
def Stage.unclaimed? : Stage → Option LoadedEmail
  | .reserving loaded _ => some loaded
  | .recordingRateLimit loaded _ _ => some loaded
  | .claiming loaded _ => some loaded
  | _ => none

namespace Stage

variable {stage : Stage} {loaded : LoadedEmail}

theorem isRunning_of_unclaimed? (h : stage.unclaimed? = some loaded) : stage.isRunning = true := by
  cases stage <;> first | rfl | cases h

theorem loaded?_of_unclaimed? (h : stage.unclaimed? = some loaded) :
    stage.loaded? = some loaded := by
  cases stage <;> first | exact h | cases h

theorem unclaimed?_afterSend (d : Sending) (receipt : DeliveryReceipt) :
    (afterSend d receipt).unclaimed? = none := by
  unfold afterSend
  split <;> rfl

end Stage

/-- A step that leaves a row unclaimed leaves the database, and had the row before or has just
loaded it. -/
theorem unclaimed?_of_advance {config : AppConfig} {job : Job} {input : StepInput} {w w' : World}
    {stage stage' : Stage} (h : advance config job input w stage = some (stage', w'))
    {loaded : LoadedEmail} (hloaded : stage'.unclaimed? = some loaded) :
    w'.database = w.database ∧ (stage.unclaimed? = some loaded ∨
      w.database.findScheduledEmail job.scheduledEmailId = some loaded ∧
        loaded.email.status.isOpen = true) := by
  cases advanceCase_of_advance h with
  | due hfind hopen =>
      cases hloaded
      exact ⟨rfl, Or.inr ⟨hfind, hopen⟩⟩
  | denied => exact ⟨rfl, Or.inl hloaded⟩
  | admitted _ => exact ⟨rfl, Or.inl hloaded⟩
  -- The other cases end before the limiter is asked or after the claim.
  | _ => cases hloaded

namespace Pipeline

variable {config : AppConfig} {s t : Pipeline} {event : PipelineEvent}

/-! ## Executions and their jobs -/

/-- Every job has the id of its email, and an execution that runs has its own active job. -/
structure RunnerInv (s : Pipeline) : Prop where
  ids : s.queue.UniqueIds
  named : ∀ job ∈ s.queue.jobs, job.id = createBullJobId job.data.scheduledEmailId
  owner : ∀ i job, s.delivery.jobOf? i = some job → (s.delivery.stageOf i).isRunning = true →
    ∃ q, (q, .active i) ∈ s.queue.live ∧ processorJob q = job

/-- **Two executions that run are for two emails.** -/
theorem RunnerInv.exclusive (hinv : RunnerInv s) {i j : Nat} {job other : Job}
    (hi : s.delivery.jobOf? i = some job) (hj : s.delivery.jobOf? j = some other)
    (hrunning : (s.delivery.stageOf i).isRunning = true)
    (hrunning' : (s.delivery.stageOf j).isRunning = true)
    (hid : job.scheduledEmailId = other.scheduledEmailId) : i = j := by
  obtain ⟨q, hq, rfl⟩ := hinv.owner i job hi hrunning
  obtain ⟨r, hr, rfl⟩ := hinv.owner j other hj hrunning'
  -- One email gives one job id, and one job id is in one state.
  have hjobs : q.id = r.id := by
    rw [hinv.named q (QueueInv.mem_jobs hq), hinv.named r (QueueInv.mem_jobs hr)]
    exact congrArg createBullJobId hid
  have hstate := congrArg Prod.snd (hinv.ids.live_eq hq hr hjobs)
  injection hstate

theorem runnerInv_init (h : (system config).init s) : RunnerInv s := by
  obtain ⟨⟨-, -, -, -, -, -, hexecutions⟩, hqueue⟩ := h
  -- There are no jobs and no executions.
  constructor
  · rw [hqueue]
    exact JobQueue.uniqueIds_empty
  · intro job hjob
    rw [hqueue] at hjob
    cases hjob
  · intro i job hjob
    rw [Delivery.jobOf?, hexecutions] at hjob
    cases hjob

/-- The deliveries move on without the queue. -/
theorem runnerInv_world (hinv : RunnerInv s) {event : DeliveryEvent} {d : Delivery}
    (hdeliver : ∀ job, event ≠ .deliver job)
    (h : (Delivery.system config).step event s.delivery = some d) : RunnerInv ⟨d, s.queue⟩ := by
  refine ⟨hinv.ids, hinv.named, ?_⟩
  intro i job hjob hrunning
  -- An execution that runs now ran before, since only the queue starts one.
  rcases Delivery.isRunning_of_step h hrunning with ⟨hbefore, hsame⟩ | ⟨new, hevent, -, -⟩
  · exact hinv.owner i job (hsame.symm.trans hjob) hbefore
  · exact absurd hevent (hdeliver new)

/-- Jobs that are added again change nothing, and new ones are named after their rows. -/
theorem runnerInv_addBulk (hinv : RunnerInv s)
    (hs : (Delivery.system config).Reachable TransitionSystem.anyStep s.delivery)
    {jobs : List BulkJob} (hjobs : ∀ job ∈ jobs, jobOfRow s.delivery.database job = true) :
    RunnerInv ⟨s.delivery, s.queue.addBulk config jobs⟩ := by
  refine ⟨JobQueue.uniqueIds_addAll hinv.ids _, ?_, ?_⟩
  · intro job hjob
    rcases JobQueue.mem_jobs_addAll hjob with hold | ⟨x, hx, rfl⟩
    · exact hinv.named job hold
    · obtain ⟨bulk, hbulk, rfl⟩ := List.mem_map.1 hx
      exact (named_of_jobOfRow hs (hjobs bulk hbulk)).1
  · intro i job hjob hrunning
    obtain ⟨q, hq, hqjob⟩ := hinv.owner i job hjob hrunning
    -- A job that is active is live already, and adding does not touch it.
    exact ⟨q, JobQueue.active_addAll_iff.2 hq, hqjob⟩

/-- **A job that no execution runs** may go anywhere, while the others stay. -/
theorem runnerInv_released (hinv : RunnerInv s) {job : QueuedJob BullJobId EmailJobData}
    {state : LiveState Nat} (hjob : (job, state) ∈ s.queue.live)
    (hstopped : ∀ i, state = .active i → (s.delivery.stageOf i).isRunning = false) {q : EmailQueue}
    (hids : q.UniqueIds)
    (hjobs : ∀ known ∈ q.jobs, ∃ old ∈ s.queue.jobs, old.id = known.id ∧ old.data = known.data)
    (hothers : ∀ x ∈ s.queue.live, x.1.id ≠ job.id → x ∈ q.live) : RunnerInv ⟨s.delivery, q⟩ := by
  refine ⟨hids, ?_, ?_⟩
  · intro other hother
    obtain ⟨old, hold, hid, hdata⟩ := hjobs other hother
    rw [← hid, ← hdata]
    exact hinv.named old hold
  · intro i other hother hrunning
    obtain ⟨r, hr, hrjob⟩ := hinv.owner i other hother hrunning
    refine ⟨r, hothers _ hr ?_, hrjob⟩
    intro hid
    -- The job would be active in an execution that runs.
    have hactive := congrArg Prod.snd (hinv.ids.live_eq hjob hr hid.symm)
    rw [hstopped i hactive] at hrunning
    cases hrunning

/-- A job that is not active is moved. -/
theorem runnerInv_move (hinv : RunnerInv s) {job : QueuedJob BullJobId EmailJobData}
    {state : LiveState Nat} (hjob : (job, state) ∈ s.queue.live) (hidle : ∀ i, state ≠ .active i)
    (state' : LiveState Nat) : RunnerInv ⟨s.delivery, s.queue.move job.id state'⟩ :=
  runnerInv_released hinv hjob (fun i hstate => absurd hstate (hidle i))
    (JobQueue.uniqueIds_move hinv.ids _ _) (fun _ => JobQueue.exists_of_mem_jobs_move)
    (fun _ => JobQueue.mem_live_move_of_ne)

/-- A waiting job gets a new execution. -/
theorem runnerInv_start (hinv : RunnerInv s) {job : QueuedJob BullJobId EmailJobData}
    (hjob : (job, .waiting) ∈ s.queue.live) {d : Delivery}
    (h : (Delivery.system config).step (.deliver (processorJob job)) s.delivery = some d) :
    RunnerInv ⟨d, s.queue.move job.id (.active s.delivery.executions.length)⟩ := by
  have hmoved : RunnerInv
    ⟨s.delivery, s.queue.move job.id (.active s.delivery.executions.length)⟩ :=
    runnerInv_move hinv hjob (fun _ => by simp) _
  refine ⟨hmoved.ids, hmoved.named, ?_⟩
  intro i other hother hrunning
  rcases Delivery.isRunning_of_step h hrunning with ⟨hbefore, hsame⟩ | ⟨new, hevent, hi, hnew⟩
  · exact hmoved.owner i other (hsame.symm.trans hother) hbefore
  · cases hevent
    refine ⟨job, ?_, Option.some.inj (hnew.symm.trans hother)⟩
    rw [hi]
    exact JobQueue.mem_live_move_self hjob _

/-- A job whose execution has ended is put back. -/
theorem runnerInv_requeue (hinv : RunnerInv s) {job : QueuedJob BullJobId EmailJobData} {i : Nat}
    (hjob : (job, .active i) ∈ s.queue.live) (hstopped : (s.delivery.stageOf i).isRunning = false) :
    RunnerInv ⟨s.delivery, s.queue.putBack job.id⟩ := by
  apply runnerInv_released hinv hjob
  · intro k hstate
    cases hstate
    exact hstopped
  · exact JobQueue.uniqueIds_putBack hinv.ids _
  · exact fun _ => JobQueue.exists_of_mem_jobs_putBack
  · exact fun _ => JobQueue.mem_live_updateMany_of_ne _

/-- A job whose execution has ended is settled. -/
theorem runnerInv_settle (hinv : RunnerInv s) {job : QueuedJob BullJobId EmailJobData} {i : Nat}
    (hjob : (job, .active i) ∈ s.queue.live) (hstopped : (s.delivery.stageOf i).isRunning = false)
    (retention : Nat) (verdict : Verdict) :
    RunnerInv ⟨s.delivery, s.queue.settle retention job verdict⟩ := by
  apply runnerInv_released hinv hjob
  · intro k hstate
    cases hstate
    exact hstopped
  · exact JobQueue.uniqueIds_settle hinv.ids hjob _ _
  · exact fun _ => JobQueue.exists_of_mem_jobs_settle hjob
  · exact fun _ => JobQueue.mem_live_settle_of_ne

theorem runnerInv_of_reachable (h : (system config).Reachable LocksKept s) : RunnerInv s := by
  apply h.invariant_of_reachable
  · intro s hs
    exact runnerInv_init hs
  · intro s event t hs hlocks hstep hinv
    cases stepCase_of_step hstep with
    | world event d hdeliver hd => exact runnerInv_world hinv hdeliver hd
    | addBulk jobs hjobs => exact runnerInv_addBulk hinv (delivery_reachable hs) hjobs
    | promote job hjob => exact runnerInv_move hinv hjob (fun _ => by simp) _
    | start job d hjob hd => exact runnerInv_start hinv hjob hd
    | settle job i outcome hjob hstage =>
        exact runnerInv_settle hinv hjob (by rw [hstage]; rfl) _ _
    | requeue job i hjob =>
        exact runnerInv_requeue hinv hjob ((isRun_eq hinv.ids hjob).symm.trans hlocks)
    | giveUp job i hjob =>
        exact runnerInv_settle hinv hjob ((isRun_eq hinv.ids hjob).symm.trans hlocks) _ _

/-! ## From the load to the claim -/

/-- Rows that executions have loaded and not claimed are as they were loaded. -/
def Unchanged (s : Pipeline) : Prop :=
  ∀ i loaded, (s.delivery.stageOf i).unclaimed? = some loaded →
    loaded.email ∈ s.delivery.database.emails ∧ loaded.email.status.isOpen = true

/-- An open row changes only in a step of an execution that has loaded it and not claimed it yet. -/
theorem mem_of_step (hs : (Delivery.system config).Reachable TransitionSystem.anyStep s.delivery)
    {event : DeliveryEvent} {d : Delivery}
    (h : (Delivery.system config).step event s.delivery = some d) {e : ScheduledEmail}
    (he : e ∈ s.delivery.database.emails) (hopen : e.status.isOpen = true)
    (hother : ∀ i input loaded, event = .advance i input →
      (s.delivery.stageOf i).unclaimed? = some loaded → loaded.email.id ≠ e.id) :
    e ∈ d.database.emails := by
  obtain ⟨e', he', -, hstep⟩ := Delivery.accountStep_of_mem hs h he
  have hprocessing := (ne_processing_of_isOpen hopen).1
  generalize hc : s.delivery.database.account e = c at hstep
  generalize hc' : d.database.account e' = c' at hstep
  obtain rfl : c.email = e := by rw [← hc]; rfl
  obtain rfl : c'.email = e' := by rw [← hc']; rfl
  cases hstep with
  | keep => exact he'
  | deferred hevent hstage hid =>
      exact absurd hid (hother _ _ _ hevent (by rw [hstage]; rfl))
  | claimed hevent hstage hid =>
      exact absurd hid (hother _ _ _ hevent (by rw [hstage]; rfl))
  | accepted _ _ hheld => exact absurd (status_of_heldBy hheld) hprocessing
  | failed _ _ _ _ _ hheld => exact absurd (status_of_heldBy hheld) hprocessing
  | failedLate => exact he'
  | abandoned _ hstale => exact absurd (isStale_iff.1 hstale).1 hprocessing

/-- **Step lemma for the delivery system.** -/
theorem unchanged_world (hinv : RunnerInv s) (hunchanged : Unchanged s)
    (hs : (Delivery.system config).Reachable TransitionSystem.anyStep s.delivery)
    {event : DeliveryEvent} {d : Delivery}
    (h : (Delivery.system config).step event s.delivery = some d) : Unchanged ⟨d, s.queue⟩ := by
  intro i loaded hloaded
  change (d.stageOf i).unclaimed? = some loaded at hloaded
  by_cases hown : ∃ input, event = .advance i input
  · -- The execution itself moves, and leaves the database.
    obtain ⟨input, rfl⟩ := hown
    obtain ⟨x, stage', w, hx, hstage, hadvance, rfl⟩ := Delivery.step_advance config h
    have hself : Delivery.stageOf { (s.delivery.moveTo i stage') with world := w } i = stage' :=
      Delivery.stageOf_moveTo_self (List.getElem?_eq_some_iff.1 hx).1
    rw [hself] at hloaded
    obtain ⟨hsame, hbefore | ⟨hfind, hopen⟩⟩ := unclaimed?_of_advance hadvance hloaded
    · show _ ∈ w.database.emails ∧ _
      rw [hsame]
      exact hunchanged i loaded (by rw [hstage]; exact hbefore)
    · show _ ∈ w.database.emails ∧ _
      rw [hsame]
      exact ⟨(Database.findScheduledEmail_eq_some _ hfind).1, hopen⟩
  · -- The execution stays where it was, and another one that moves is for another email.
    have hbefore : (s.delivery.stageOf i).unclaimed? = some loaded := by
      cases Delivery.stageStep_of_step h i with
      | same heq => rwa [heq] at hloaded
      | delivered _ _ _ heq => rw [heq] at hloaded; cases hloaded
      | crashed _ heq => rw [heq] at hloaded; cases hloaded
      | advanced input hevent _ _ => exact absurd ⟨input, hevent⟩ hown
      | returned d receipt _ heq => rw [heq, Stage.unclaimed?_afterSend] at hloaded; cases hloaded
      | threw _ _ _ heq => rw [heq] at hloaded; cases hloaded
    obtain ⟨hmem, hopen⟩ := hunchanged i loaded hbefore
    refine ⟨mem_of_step hs h hmem hopen ?_, hopen⟩
    rintro j input other rfl hother hid
    have hjob : ∀ k found, (s.delivery.stageOf k).unclaimed? = some found →
        ∃ job, s.delivery.jobOf? k = some job ∧ found.email.id = job.scheduledEmailId := by
      intro k found hfound
      obtain ⟨x, hx, -⟩ := Delivery.exists_of_stageOf_ne_crashed (s := s.delivery) (i := k)
        (Delivery.ne_crashed_of_isRunning (Stage.isRunning_of_unclaimed? hfound))
      have hjob := Delivery.jobOf?_of_getElem? hx
      exact ⟨x.job, hjob, Delivery.loaded_id_eq hs hjob (Stage.loaded?_of_unclaimed? hfound)⟩
    obtain ⟨job, hi, hjobId⟩ := hjob i loaded hbefore
    obtain ⟨job', hj, hjobId'⟩ := hjob j other hother
    have hsame := hinv.exclusive hi hj (Stage.isRunning_of_unclaimed? hbefore)
      (Stage.isRunning_of_unclaimed? hother) (hjobId.symm.trans (hid.symm.trans hjobId'))
    exact hown ⟨input, by rw [hsame]⟩

theorem unchanged_of_reachable (h : (system config).Reachable LocksKept s) : Unchanged s := by
  apply h.invariant_of_reachable
  · rintro s ⟨⟨-, -, -, -, -, -, hexecutions⟩, -⟩ i loaded hloaded
    rw [Delivery.stageOf, hexecutions] at hloaded
    cases hloaded
  · intro s event t hs _ hstep hunchanged
    have hinv := runnerInv_of_reachable hs
    have hreach := delivery_reachable hs
    cases stepCase_of_step hstep with
    | world event d _ hd => exact unchanged_world hinv hunchanged hreach hd
    | start job d _ hd => exact unchanged_world hinv hunchanged hreach hd
    -- The other steps are about the queue only.
    | _ => exact hunchanged

/-! ## What the processor relies on -/

/-- The database after the deferral of a row. -/
def deferredDatabase (db : Database) (e : ScheduledEmail) (nextAvailableAt now : Int)
    (token : Uuid) :
    Database :=
  { db with
    emails := updateMany (deferrable e.id) (deferRow nextAvailableAt) db.emails
    attempts := db.attempts ++ [deferAttempt (deferRow nextAvailableAt e) now token] }

/-- An open row is deferred under a fresh token. -/
theorem recordRateLimit_of_open {d : Delivery} {Q : Delivery → DeliveryEvent → Prop}
    (h : (Delivery.system config).Reachable Q d) {e : ScheduledEmail} (he : e ∈ d.database.emails)
    (hopen : e.status.isOpen = true) {token : Uuid} (hfresh : Delivery.FreshToken d.database token)
    (nextAvailableAt now : Int) : recordRateLimit d.database e.id nextAvailableAt now token =
      .ok ((), deferredDatabase d.database e nextAvailableAt now token) := by
  have hdeferrable : deferrable e.id e = true := deferrable_iff.2 ⟨rfl, hopen⟩
  unfold recordRateLimit
  dsimp only
  split
  next hnone =>
    -- The update matches the row.
    rw [(updateManyAndReturn_of_head?_none hnone).1 e he] at hdeferrable
    cases hdeferrable
  next email hsome =>
    obtain ⟨row, hrow, hmatch, rfl⟩ := mem_of_head?_updateManyAndReturn hsome
    obtain rfl := (Delivery.primaryKey_emails h).eq_of_key_eq hrow he (deferrable_iff.1 hmatch).1
    obtain ⟨db, hdb⟩ := Delivery.createSendAttempt_isOk (updateManyAndReturn (deferrable row.id)
      (deferRow nextAvailableAt) d.database.emails).2
      (deferAttempt (deferRow nextAvailableAt row) now token) (Delivery.rowLedger_of_mem h row hrow)
      hfresh rfl rfl
    rw [hdb]
    obtain ⟨-, rfl⟩ := Database.createSendAttempt_eq_ok hdb
    rfl

/-- What holds of the executions in a state reached. -/
structure OneRunner (s : Pipeline) : Prop where
  exclusive : ∀ i j job job', s.delivery.jobOf? i = some job → s.delivery.jobOf? j = some job' →
    (s.delivery.stageOf i).isRunning = true → (s.delivery.stageOf j).isRunning = true →
    job.scheduledEmailId = job'.scheduledEmailId → i = j
  unchanged : s.Unchanged
  defers : ∀ i loaded nextAvailableAt now,
    s.delivery.stageOf i = .recordingRateLimit loaded nextAvailableAt now →
    ∀ token, Delivery.FreshToken s.delivery.database token →
      recordRateLimit s.delivery.database loaded.email.id nextAvailableAt now token =
        .ok ((), deferredDatabase s.delivery.database loaded.email nextAvailableAt now token)
  claims : ∀ i loaded now, s.delivery.stageOf i = .claiming loaded now →
    ∀ token, Delivery.FreshToken s.delivery.database token →
      claimEmail s.delivery.database loaded.email.id now token =
        .ok (some (Delivery.claimOf loaded.email token),
          Delivery.claimedDatabase s.delivery.database loaded.email token now)

/-- **One runner.** In every state that the queue and its workers can reach while no execution that
runs loses its lock, the executions that run are for different emails, and each finds its row as it
loaded it when it defers or claims it. -/
theorem oneRunner_of_reachable (h : (system config).Reachable LocksKept s) :
    OneRunner s := by
  have hreach := delivery_reachable h
  have hunchanged := unchanged_of_reachable h
  constructor
  · intro i j job job' hi hj hrunning hrunning' hid
    exact (runnerInv_of_reachable h).exclusive hi hj hrunning hrunning' hid
  · exact hunchanged
  · intro i loaded nextAvailableAt now hstage token hfresh
    obtain ⟨hmem, hopen⟩ := hunchanged i loaded (by rw [hstage]; rfl)
    exact recordRateLimit_of_open hreach hmem hopen hfresh nextAvailableAt now
  · intro i loaded now hstage token hfresh
    obtain ⟨hmem, hopen⟩ := hunchanged i loaded (by rw [hstage]; rfl)
    exact Delivery.claimEmail_of_open hreach hmem hopen hfresh now

/-- Two emails whose jobs are added twice: the first execution crashes and its job is started again.
One execution is about to claim its row, and the other one has to wait. -/
def startedAgain : List PipelineEvent :=
  let jobs : List BulkJob := [⟨emailJobName, ⟨100⟩, ⟨createBullJobId 100, 0⟩⟩,
    ⟨emailJobName, ⟨101⟩, ⟨createBullJobId 101, 0⟩⟩]
  let advance (i : Nat) : PipelineEvent := .world (.advance i ⟨1000, 0, .done⟩)
  [.world (.createBatch (Delivery.requestFor ["a@test.invalid", "b@test.invalid"]) 10
      fun i => 100 + i),
    .addBulk jobs, .start (createBullJobId 100), .start (createBullJobId 101),
    advance 0, .world (.crash 0), .addBulk jobs, .requeue (createBullJobId 100),
    .start (createBullJobId 100), advance 1, advance 2, advance 1, advance 2]

theorem oneRunner_after_startedAgain : ∃ s,
    (system validConfig).run LocksKept startedAgain idleStart = some s ∧
      s.delivery.executions.map (fun x => (x.job.scheduledEmailId, x.stage.isRunning)) =
        [(100, false), (101, true), (100, true)] ∧
      s.delivery.executions.map (fun x => x.stage.unclaimed?.isSome) = [false, true, true] ∧
      OneRunner s :=
  ⟨_, rfl, by decide, by decide, oneRunner_of_reachable (TransitionSystem.reachable_of_run
    startedAgain (idleStart_init validConfig) rfl)⟩

/-- The lock of a job is lost while its execution runs, and the job is started a second time. -/
def lostLock : List PipelineEvent :=
  let jobs : List BulkJob := [⟨emailJobName, ⟨100⟩, ⟨createBullJobId 100, 0⟩⟩]
  [.world (.createBatch (Delivery.requestFor ["a@test.invalid"]) 10 fun i => 100 + i),
    .addBulk jobs,
    .start (createBullJobId 100), .requeue (createBullJobId 100), .start (createBullJobId 100)]

/-- Without the assumption on locks an email has two runners. -/
theorem not_oneRunner_after_lostLock : ∃ s,
    (system validConfig).run TransitionSystem.anyStep lostLock idleStart = some s ∧ ¬ OneRunner s :=
  ⟨_, rfl, fun h => absurd (h.exclusive 0 1 _ _ rfl rfl rfl rfl rfl) (by decide)⟩

end Pipeline

end EmailScheduler
