import EmailScheduler.Delivery.Records
import EmailScheduler.RateLimit.History
import EmailScheduler.Foundation.Lease

/-!
# The processor

One execution of the function that `createEmailProcessor` returns, as a sequence of stages. A stage
is an execution waiting for one operation: a database transaction, a Redis script, a BullMQ call or
`mailer.send`. `advance` performs the operation of a stage and continues with its reply; everything
the source does between two operations happens in the continuation.

An operation may fail before it takes effect, and its reply may be lost after it took effect; both
throw an error into the execution.
-/

set_option autoImplicit false

namespace EmailScheduler

open Foundation

/-- A job as the processor sees it; `attempts` is `job.opts.attempts`. -/
structure Job where
  scheduledEmailId : Uuid
  attemptsMade : Nat
  attempts : Option Nat
deriving DecidableEq, Repr

/-- `finalRetry`. -/
def Job.finalRetry (job : Job) : Bool := decide (job.attemptsMade + 1 ≥ job.attempts.getD 1)

/-- How an execution ends. After `delayLost` BullMQ has moved the job, but the call threw. -/
inductive Outcome where
  | returned
  | delayed (availableAt : Int)
  | delayLost (availableAt : Int) (error : InfrastructureError)
  | unrecoverable (message : String)
  | failed (message : String)
  | threw (error : InfrastructureError)
deriving DecidableEq

/-- `EmailMessage`. -/
structure EmailMessage where
  scheduledEmailId : Uuid
  fromName : String
  fromEmail : String
  recipientEmail : String
  subject : String
  bodyText : String
deriving DecidableEq, Repr

/-- A claimed email on its way through `mailer.send`: the row as it was loaded, the claim, the `now`
at which the limiter admitted it, and the number of its submission. -/
structure Sending where
  loaded : LoadedEmail
  claim : ClaimedEmail
  admittedAt : Int
  submission : Nat
deriving DecidableEq, Repr

/-- What was recorded before `updateBatchCompletion` runs. -/
inductive Recorded where
  | accepted
  | failed (result : FailureResult)
deriving DecidableEq, Repr

/-- Where an execution is. -/
inductive Stage where
  | loading
  | delaying (availableAt : Int)
  | reserving (loaded : LoadedEmail) (now : Int)
  | recordingRateLimit (loaded : LoadedEmail) (nextAvailableAt now : Int)
  | claiming (loaded : LoadedEmail) (now : Int)
  | claimed (loaded : LoadedEmail) (claim : ClaimedEmail) (now : Int)
  | sending (d : Sending)
  | recordingAccepted (d : Sending) (receipt : DeliveryReceipt)
  | recordingFailure (d : Sending) (error : ThrownValue)
  | countingRemaining (d : Sending) (recorded : Recorded)
  | countingUnsuccessful (d : Sending) (recorded : Recorded)
  | labelling (d : Sending) (recorded : Recorded) (unsuccessful : Nat)
  | finished (outcome : Outcome)
  | crashed
deriving DecidableEq

/-- The execution has not ended. -/
def Stage.isRunning : Stage → Bool
  | .finished _ | .crashed => false
  | _ => true

/-- A message handed to the SMTP server, with the token of the claim it was sent under, the times of
its admission and of the call of `mailer.send`, and what the server did with it so far. -/
structure Submission where
  message : EmailMessage
  senderId : Uuid
  token : Uuid
  admittedAt : Int
  handedOverAt : Int
  status : Fate
deriving DecidableEq, Repr

/-- What executions share: the database, the limiter in Redis, and the SMTP server. -/
structure World where
  database : Database
  limiter : Limiter
  submissions : List Submission

/-! ## Replies -/

/-- How an operation answers: it is done; or it failed without effect; or it took effect and its
reply was lost. -/
inductive Reply where
  | done
  | refused (error : InfrastructureError)
  | lost (error : InfrastructureError)
deriving DecidableEq

/-- The answer to a query. -/
def Reply.read {β : Type} (reply : Reply) (value : β) : Except InfrastructureError β :=
  match reply with
  | .done => .ok value
  | .refused e => .error e
  | .lost e => .error e

/-- The answer to an operation on a store, and the store afterwards. -/
def Reply.deliver {β σ : Type} (reply : Reply) (store : σ)
    (outcome : Except InfrastructureError (β × σ)) : Except InfrastructureError β × σ :=
  match reply, outcome with
  | .refused e, _ => (.error e, store)
  | .done, .error e => (.error e, store)
  | .lost _, .error e => (.error e, store)
  | .done, .ok (value, store') => (.ok value, store')
  | .lost e, .ok (_, store') => (.error e, store')

/-- The operation was not refused: if it can commit, it does. -/
def Reply.commits : Reply → Bool
  | .refused _ => false
  | _ => true

/-- The inputs of a step: the time, which `new Date()` reads, the id that `randomUUID` draws, and
the reply of the operation. -/
structure StepInput where
  now : Int
  token : Uuid
  reply : Reply
deriving DecidableEq

/-! ## Continuations -/

/-- The policy passed to `reserve`. -/
def LoadedEmail.policy (loaded : LoadedEmail) : SenderPolicy :=
  ⟨loaded.email.senderId, loaded.sender.hourlyLimit, loaded.sender.minimumDelayMs⟩

/-- The message passed to `mailer.send`. -/
def LoadedEmail.message (loaded : LoadedEmail) : EmailMessage where
  scheduledEmailId := loaded.email.id
  fromName := loaded.sender.displayName
  fromEmail := loaded.sender.email
  recipientEmail := loaded.email.recipientEmail
  subject := loaded.batch.subject
  bodyText := loaded.batch.bodyText

/-- After `findUnique`: skip a row that is missing, terminal or `PROCESSING`; delay a row that is
not due; otherwise ask the limiter. -/
def afterLoad (now : Int) : Except InfrastructureError (Option LoadedEmail) → Stage
  | .error e => .finished (.threw e)
  | .ok none => .finished .returned
  | .ok (some loaded) =>
      if loaded.email.status.isTerminal || decide (loaded.email.status = .processing) then
        .finished .returned
      else if loaded.email.nextAttemptAt > now then .delaying loaded.email.nextAttemptAt
      else .reserving loaded now

/-- After `job.moveToDelayed`. -/
def afterDelay (availableAt : Int) : Reply → Stage
  | .done => .finished (.delayed availableAt)
  | .refused e => .finished (.threw e)
  | .lost e => .finished (.delayLost availableAt e)

/-- After `rateLimiter.reserve`. -/
def afterReserve (loaded : LoadedEmail) (now : Int) :
    Except InfrastructureError RateLimitDecision → Stage
  | .error e => .finished (.threw e)
  | .ok admission =>
      if !admission.admitted then .recordingRateLimit loaded admission.nextAvailableAt now
      else .claiming loaded now

/-- After `recordRateLimit`. -/
def afterRateLimit (nextAvailableAt : Int) : Except InfrastructureError Unit → Stage
  | .error e => .finished (.threw e)
  | .ok () => .delaying nextAvailableAt

/-- After `claimEmail`. -/
def afterClaim (loaded : LoadedEmail) (now : Int) :
    Except InfrastructureError (Option ClaimedEmail) → Stage
  | .error e => .finished (.threw e)
  | .ok none => .finished .returned
  | .ok (some claim) => .claimed loaded claim now

/-- After `mailer.send` returned: a receipt without an accepted recipient is thrown as a
rejection. -/
def afterSend (d : Sending) (receipt : DeliveryReceipt) : Stage :=
  if receipt.acceptedCount = 0 then .recordingFailure d .rejectedDelivery
  else .recordingAccepted d receipt

/-- After the transaction of `recordAccepted`; its errors are caught like those of `send`. -/
def afterAccepted (d : Sending) : Except InfrastructureError Unit → Stage
  | .error e => .recordingFailure d e.value
  | .ok () => .countingRemaining d .accepted

/-- After the transaction of `recordFailure`. -/
def afterFailure (d : Sending) : Except InfrastructureError FailureResult → Stage
  | .error e => .finished (.threw e)
  | .ok result =>
      if result = .retryable then .finished (.failed "Transient SMTP delivery failure")
      else .countingRemaining d (.failed result)

/-- An error of `updateBatchCompletion`: within `recordAccepted` it is caught. -/
def Recorded.afterError (d : Sending) (e : InfrastructureError) : Recorded → Stage
  | .accepted => .recordingFailure d e.value
  | .failed _ => .finished (.threw e)

/-- The end of an execution after `updateBatchCompletion`. -/
def Recorded.outcome : Recorded → Outcome
  | .accepted => .returned
  | .failed result => .unrecoverable ("Email delivery " ++ result.text)

/-- After the first count of `updateBatchCompletion`. -/
def afterRemaining (d : Sending) (recorded : Recorded) : Except InfrastructureError Nat → Stage
  | .error e => recorded.afterError d e
  | .ok remaining =>
      if remaining ≠ 0 then .finished recorded.outcome else .countingUnsuccessful d recorded

/-- After the second count. -/
def afterUnsuccessful (d : Sending) (recorded : Recorded) : Except InfrastructureError Nat → Stage
  | .error e => recorded.afterError d e
  | .ok unsuccessful => .labelling d recorded unsuccessful

/-- After the update of the batch. -/
def afterLabel (d : Sending) (recorded : Recorded) : Except InfrastructureError Unit → Stage
  | .error e => recorded.afterError d e
  | .ok () => .finished recorded.outcome

/-! ## Steps -/

/-- The operation of a stage and its continuation. `mailer.send` itself returns or throws later, so
`sending` has no step here. -/
def advance (config : AppConfig) (job : Job) (input : StepInput) (w : World) :
    Stage → Option (Stage × World)
  | .loading =>
      some (afterLoad input.now
        (input.reply.read (w.database.findScheduledEmail job.scheduledEmailId)), w)
  | .delaying availableAt => some (afterDelay availableAt input.reply, w)
  | .reserving loaded now =>
      let result := input.reply.deliver w.limiter
        (.ok (w.limiter.reserve config loaded.policy loaded.email.id now))
      some (afterReserve loaded now result.1, { w with limiter := result.2 })
  | .recordingRateLimit loaded nextAvailableAt now =>
      let result := input.reply.deliver w.database
        (recordRateLimit w.database loaded.email.id nextAvailableAt now input.token)
      some (afterRateLimit nextAvailableAt result.1, { w with database := result.2 })
  | .claiming loaded now =>
      let result := input.reply.deliver w.database
        (claimEmail w.database loaded.email.id now input.token)
      some (afterClaim loaded now result.1, { w with database := result.2 })
  | .claimed loaded claim now =>
      some (.sending ⟨loaded, claim, now, w.submissions.length⟩, { w with
        submissions := w.submissions ++
          [⟨loaded.message, loaded.email.senderId, claim.processingToken, now, input.now,
            .pending⟩] })
  | .recordingAccepted d receipt =>
      let result := input.reply.deliver w.database
        (recordAccepted w.database d.claim receipt input.now)
      some (afterAccepted d result.1, { w with database := result.2 })
  | .recordingFailure d error =>
      let result := input.reply.deliver w.database
        (recordFailure config w.database d.claim (classifyDeliveryError error) job.finalRetry error
          input.now)
      some (afterFailure d result.1, { w with database := result.2 })
  | .countingRemaining d recorded =>
      some (afterRemaining d recorded
        (input.reply.read (countRemaining w.database d.claim.batchId)), w)
  | .countingUnsuccessful d recorded =>
      some (afterUnsuccessful d recorded
        (input.reply.read (countUnsuccessful w.database d.claim.batchId)), w)
  | .labelling d recorded unsuccessful =>
      let result := input.reply.deliver w.database
        (labelBatch w.database d.claim.batchId unsuccessful)
      some (afterLabel d recorded result.1, { w with database := result.2 })
  | .sending _ => none
  | .finished _ => none
  | .crashed => none

/-! ## Replies, case by case -/

theorem Reply.read_cases {β : Type} (reply : Reply) (value : β) :
    reply.read value = .ok value ∨ ∃ e, reply.read value = .error e := by
  cases reply with
  | done => exact Or.inl rfl
  | refused e => exact Or.inr ⟨e, rfl⟩
  | lost e => exact Or.inr ⟨e, rfl⟩

/-- An operation was answered and took effect; or it threw, with or without its effect. -/
theorem Reply.deliver_cases {β σ : Type} (reply : Reply) (store : σ)
    (outcome : Except InfrastructureError (β × σ)) :
    (∃ value store', outcome = .ok (value, store') ∧
        reply.deliver store outcome = (.ok value, store')) ∨
      (∃ e, reply.deliver store outcome = (.error e, store)) ∨
      (∃ e value store', outcome = .ok (value, store') ∧
        reply.deliver store outcome = (.error e, store')) := by
  cases reply with
  | done =>
      cases outcome with
      | error e => exact Or.inr (Or.inl ⟨e, rfl⟩)
      | ok result => exact Or.inl ⟨result.1, result.2, rfl, rfl⟩
  | refused e => exact Or.inr (Or.inl ⟨e, rfl⟩)
  | lost e =>
      cases outcome with
      | error e' => exact Or.inr (Or.inl ⟨e', rfl⟩)
      | ok result => exact Or.inr (Or.inr ⟨e, result.1, result.2, rfl, rfl⟩)

/-! ## Inversion of a step -/

/-- **What an operation leads to.** One case for each way in which an execution goes on, with what
its operation found or committed. What the operation of an execution that throws has done is left to
the equation of the step. -/
inductive AdvanceCase (config : AppConfig) (job : Job) (input : StepInput) (w : World) :
    Stage → Stage → World → Prop where
  | threw {stage : Stage} {e : InfrastructureError} {w' : World} :
      advance config job input w stage = some (.finished (.threw e), w') →
      AdvanceCase config job input w stage (.finished (.threw e)) w'
  | missing : w.database.findScheduledEmail job.scheduledEmailId = none →
      AdvanceCase config job input w .loading (.finished .returned) w
  | skipped {loaded : LoadedEmail} :
      w.database.findScheduledEmail job.scheduledEmailId = some loaded →
      loaded.email.status.isOpen = false →
      AdvanceCase config job input w .loading (.finished .returned) w
  | notDue {loaded : LoadedEmail} :
      w.database.findScheduledEmail job.scheduledEmailId = some loaded →
      loaded.email.status.isOpen = true → input.now < loaded.email.nextAttemptAt →
      AdvanceCase config job input w .loading (.delaying loaded.email.nextAttemptAt) w
  | due {loaded : LoadedEmail} :
      w.database.findScheduledEmail job.scheduledEmailId = some loaded →
      loaded.email.status.isOpen = true → loaded.email.nextAttemptAt ≤ input.now →
      AdvanceCase config job input w .loading (.reserving loaded input.now) w
  | delayed {availableAt : Int} :
      AdvanceCase config job input w (.delaying availableAt) (.finished (.delayed availableAt)) w
  | delayLost {availableAt : Int} {e : InfrastructureError} :
      AdvanceCase config job input w (.delaying availableAt)
        (.finished (.delayLost availableAt e)) w
  | denied {loaded : LoadedEmail} {now nextAvailableAt : Int} :
      now < nextAvailableAt →
      AdvanceCase config job input w (.reserving loaded now)
        (.recordingRateLimit loaded nextAvailableAt now)
        { w with limiter := (w.limiter.reserve config loaded.policy loaded.email.id now).2 }
  | admitted {loaded : LoadedEmail} {now : Int} :
      (w.limiter.reserve config loaded.policy loaded.email.id now).1.admitted = true →
      AdvanceCase config job input w (.reserving loaded now) (.claiming loaded now)
        { w with limiter := (w.limiter.reserve config loaded.policy loaded.email.id now).2 }
  | deferred {loaded : LoadedEmail} {nextAvailableAt now : Int} {db : Database} :
      recordRateLimit w.database loaded.email.id nextAvailableAt now input.token = .ok ((), db) →
      AdvanceCase config job input w (.recordingRateLimit loaded nextAvailableAt now)
        (.delaying nextAvailableAt) { w with database := db }
  | unclaimed {loaded : LoadedEmail} {now : Int} {db : Database} :
      claimEmail w.database loaded.email.id now input.token = .ok (none, db) →
      AdvanceCase config job input w (.claiming loaded now) (.finished .returned)
        { w with database := db }
  | claimed {loaded : LoadedEmail} {now : Int} {claim : ClaimedEmail} {db : Database} :
      claimEmail w.database loaded.email.id now input.token = .ok (some claim, db) →
      AdvanceCase config job input w (.claiming loaded now) (.claimed loaded claim now)
        { w with database := db }
  | sent {loaded : LoadedEmail} {claim : ClaimedEmail} {now : Int} :
      AdvanceCase config job input w (.claimed loaded claim now)
        (.sending ⟨loaded, claim, now, w.submissions.length⟩)
        { w with submissions := w.submissions ++
          [⟨loaded.message, loaded.email.senderId, claim.processingToken, now, input.now,
            .pending⟩] }
  | accepted {d : Sending} {receipt : DeliveryReceipt} {db : Database} :
      recordAccepted w.database d.claim receipt input.now = .ok ((), db) →
      AdvanceCase config job input w (.recordingAccepted d receipt)
        (.countingRemaining d .accepted) { w with database := db }
  | notAccepted {d : Sending} {receipt : DeliveryReceipt} {e : InfrastructureError}
      {db : Database} :
      db = w.database ∨ recordAccepted w.database d.claim receipt input.now = .ok ((), db) →
      AdvanceCase config job input w (.recordingAccepted d receipt)
        (.recordingFailure d e.value) { w with database := db }
  | retried {d : Sending} {error : ThrownValue} {message : String} {db : Database} :
      recordFailure config w.database d.claim (classifyDeliveryError error) job.finalRetry error
        input.now = .ok (.retryable, db) →
      AdvanceCase config job input w (.recordingFailure d error) (.finished (.failed message))
        { w with database := db }
  | failed {d : Sending} {error : ThrownValue} {result : FailureResult} {db : Database} :
      recordFailure config w.database d.claim (classifyDeliveryError error) job.finalRetry error
        input.now = .ok (result, db) → result ≠ .retryable →
      AdvanceCase config job input w (.recordingFailure d error)
        (.countingRemaining d (.failed result)) { w with database := db }
  | unfinished {d : Sending} {recorded : Recorded} :
      AdvanceCase config job input w (.countingRemaining d recorded)
        (.finished recorded.outcome) w
  | countedRemaining {d : Sending} {recorded : Recorded} :
      countRemaining w.database d.claim.batchId = 0 →
      AdvanceCase config job input w (.countingRemaining d recorded)
        (.countingUnsuccessful d recorded) w
  | countedUnsuccessful {d : Sending} {recorded : Recorded} :
      AdvanceCase config job input w (.countingUnsuccessful d recorded)
        (.labelling d recorded (countUnsuccessful w.database d.claim.batchId)) w
  | labelled {d : Sending} {recorded : Recorded} {unsuccessful : Nat} {db : Database} :
      labelBatch w.database d.claim.batchId unsuccessful = .ok ((), db) →
      AdvanceCase config job input w (.labelling d recorded unsuccessful)
        (.finished recorded.outcome) { w with database := db }
  | caughtRemaining {d : Sending} {e : InfrastructureError} :
      AdvanceCase config job input w (.countingRemaining d .accepted)
        (.recordingFailure d e.value) w
  | caughtUnsuccessful {d : Sending} {e : InfrastructureError} :
      AdvanceCase config job input w (.countingUnsuccessful d .accepted)
        (.recordingFailure d e.value) w
  | caughtLabel {d : Sending} {unsuccessful : Nat} {e : InfrastructureError} {db : Database} :
      db = w.database ∨ labelBatch w.database d.claim.batchId unsuccessful = .ok ((), db) →
      AdvanceCase config job input w (.labelling d .accepted unsuccessful)
        (.recordingFailure d e.value) { w with database := db }

/-- The rows that the processor does not skip are the open ones. -/
theorem ScheduledEmailStatus.isOpen_eq_not_skipped (status : ScheduledEmailStatus) :
    status.isOpen = !(status.isTerminal || decide (status = .processing)) := by
  cases status <;> rfl

theorem isOpen_of_not_skipped {status : ScheduledEmailStatus}
    (h : ¬ (status.isTerminal || decide (status = .processing)) = true) :
    status.isOpen = true := by
  rw [Bool.not_eq_true] at h
  rw [ScheduledEmailStatus.isOpen_eq_not_skipped, h]
  rfl

section Inversion

variable {config : AppConfig} {job : Job} {input : StepInput} {w w' : World}
  {stage stage' : Stage}

theorem advanceCase_of_advance (h : advance config job input w stage = some (stage', w')) :
    AdvanceCase config job input w stage stage' w' := by
  have hthrew : ∀ {e : InfrastructureError}, stage' = .finished (.threw e) →
      AdvanceCase config job input w stage stage' w' := by
    intro e heq
    subst heq
    exact .threw h
  cases stage with
  | loading =>
      cases h
      rcases input.reply.read_cases (w.database.findScheduledEmail job.scheduledEmailId) with
        hread | ⟨e, hread⟩
      · rw [hread]
        cases hfind : w.database.findScheduledEmail job.scheduledEmailId with
        | none => exact .missing hfind
        | some loaded =>
            unfold afterLoad
            dsimp only
            split_ifs with hskip hdue
            · refine .skipped hfind ?_
              rw [ScheduledEmailStatus.isOpen_eq_not_skipped, hskip]
              rfl
            · exact .notDue hfind (isOpen_of_not_skipped hskip) hdue
            · exact .due hfind (isOpen_of_not_skipped hskip) (Int.not_lt.1 hdue)
      · exact hthrew (by rw [hread]; rfl)
  | delaying availableAt =>
      cases h
      cases hreply : input.reply with
      | done => exact .delayed
      | refused e => rw [hreply] at hthrew; exact hthrew rfl
      | lost e => exact .delayLost
  | reserving loaded now =>
      cases h
      cases hreply : input.reply with
      | done =>
          cases hadmitted :
              (w.limiter.reserve config loaded.policy loaded.email.id now).1.admitted with
          | false =>
              have hstage : afterReserve loaded now
                  (.ok (w.limiter.reserve config loaded.policy loaded.email.id now).1) =
                    .recordingRateLimit loaded
                      (w.limiter.reserve config loaded.policy loaded.email.id now).1.nextAvailableAt
                      now := by
                rw [afterReserve, if_pos (by rw [hadmitted]; rfl)]
              exact hstage ▸ .denied (lt_nextAvailableAt_of_denied hadmitted)
          | true =>
              have hstage : afterReserve loaded now
                  (.ok (w.limiter.reserve config loaded.policy loaded.email.id now).1) =
                    .claiming loaded now := by
                rw [afterReserve, if_neg (by rw [hadmitted]; simp)]
              exact hstage ▸ .admitted hadmitted
      | refused e => rw [hreply] at hthrew; exact hthrew rfl
      | lost e => rw [hreply] at hthrew; exact hthrew rfl
  | recordingRateLimit loaded nextAvailableAt now =>
      cases h
      rcases input.reply.deliver_cases w.database (recordRateLimit w.database loaded.email.id
          nextAvailableAt now input.token) with
        ⟨u, db, hok, heq⟩ | ⟨e, heq⟩ | ⟨e, u, db, hok, heq⟩
      · rw [heq]
        exact .deferred hok
      · exact hthrew (by rw [heq]; rfl)
      · exact hthrew (by rw [heq]; rfl)
  | claiming loaded now =>
      cases h
      rcases input.reply.deliver_cases w.database
          (claimEmail w.database loaded.email.id now input.token) with
        ⟨claim, db, hok, heq⟩ | ⟨e, heq⟩ | ⟨e, claim, db, hok, heq⟩
      · rw [heq]
        cases claim with
        | none => exact .unclaimed hok
        | some claim => exact .claimed hok
      · exact hthrew (by rw [heq]; rfl)
      · exact hthrew (by rw [heq]; rfl)
  | claimed loaded claim now =>
      cases h
      exact .sent
  | sending d => cases h
  | recordingAccepted d receipt =>
      cases h
      -- An error of this transaction is caught, like those of `send`.
      rcases input.reply.deliver_cases w.database
          (recordAccepted w.database d.claim receipt input.now) with
        ⟨u, db, hok, heq⟩ | ⟨e, heq⟩ | ⟨e, u, db, hok, heq⟩
      · rw [heq]
        exact .accepted hok
      · rw [heq]
        exact .notAccepted (Or.inl rfl)
      · rw [heq]
        exact .notAccepted (Or.inr hok)
  | recordingFailure d error =>
      cases h
      rcases input.reply.deliver_cases w.database (recordFailure config w.database d.claim
          (classifyDeliveryError error) job.finalRetry error input.now) with
        ⟨result, db, hok, heq⟩ | ⟨e, heq⟩ | ⟨e, result, db, hok, heq⟩
      · rw [heq]
        by_cases hretry : result = .retryable
        · subst hretry
          exact .retried hok
        · have hstage : afterFailure d (.ok result) = .countingRemaining d (.failed result) :=
            if_neg hretry
          rw [hstage]
          exact .failed hok hretry
      · exact hthrew (by rw [heq]; rfl)
      · exact hthrew (by rw [heq]; rfl)
  | countingRemaining d recorded =>
      cases h
      rcases input.reply.read_cases (countRemaining w.database d.claim.batchId) with
        hread | ⟨e, hread⟩
      · rw [hread]
        by_cases hzero : countRemaining w.database d.claim.batchId = 0
        · rw [afterRemaining, if_neg (by simpa using hzero)]
          exact .countedRemaining hzero
        · rw [afterRemaining, if_pos hzero]
          exact .unfinished
      · cases recorded with
        | accepted =>
            rw [hread]
            exact .caughtRemaining
        | failed result => exact hthrew (by rw [hread]; rfl)
  | countingUnsuccessful d recorded =>
      cases h
      rcases input.reply.read_cases (countUnsuccessful w.database d.claim.batchId) with
        hread | ⟨e, hread⟩
      · rw [hread]
        exact .countedUnsuccessful
      · cases recorded with
        | accepted =>
            rw [hread]
            exact .caughtUnsuccessful
        | failed result => exact hthrew (by rw [hread]; rfl)
  | labelling d recorded unsuccessful =>
      cases h
      rcases input.reply.deliver_cases w.database
          (labelBatch w.database d.claim.batchId unsuccessful) with
        ⟨u, db, hok, heq⟩ | ⟨e, heq⟩ | ⟨e, u, db, hok, heq⟩
      · rw [heq]
        exact .labelled hok
      · cases recorded with
        | accepted =>
            rw [heq]
            exact .caughtLabel (Or.inl rfl)
        | failed result => exact hthrew (by rw [heq]; rfl)
      · cases recorded with
        | accepted =>
            rw [heq]
            exact .caughtLabel (Or.inr hok)
        | failed result => exact hthrew (by rw [heq]; rfl)
  | finished outcome => cases h
  | crashed => cases h

end Inversion

/-! ## The claim of an execution -/

/-- The row an execution has loaded and the claim it made on it. -/
def Stage.delivery? : Stage → Option (LoadedEmail × ClaimedEmail)
  | .claimed loaded claim _ => some (loaded, claim)
  | .sending d => some (d.loaded, d.claim)
  | .recordingAccepted d _ => some (d.loaded, d.claim)
  | .recordingFailure d _ => some (d.loaded, d.claim)
  | .countingRemaining d _ => some (d.loaded, d.claim)
  | .countingUnsuccessful d _ => some (d.loaded, d.claim)
  | .labelling d _ _ => some (d.loaded, d.claim)
  | _ => none

theorem delivery?_afterSend (d : Sending) (receipt : DeliveryReceipt) :
    (afterSend d receipt).delivery? = some (d.loaded, d.claim) := by
  unfold afterSend
  split_ifs <;> rfl

/-- **Where a claim comes from.** After a step an execution has the claim it had before, or the one
that its `claimEmail` just committed. -/
theorem delivery?_of_advance {config : AppConfig} {job : Job} {input : StepInput} {w w' : World}
    {stage stage' : Stage} (h : advance config job input w stage = some (stage', w'))
    {p : LoadedEmail × ClaimedEmail} (hp : stage'.delivery? = some p) :
    stage.delivery? = some p ∨ ∃ now, stage = .claiming p.1 now ∧
      claimEmail w.database p.1.email.id now input.token = .ok (some p.2, w'.database) := by
  cases advanceCase_of_advance h with
  | claimed hok =>
      cases hp
      exact Or.inr ⟨_, rfl, hok⟩
  | sent => exact Or.inl hp
  | accepted _ => exact Or.inl hp
  | notAccepted _ => exact Or.inl hp
  | failed _ _ => exact Or.inl hp
  | countedRemaining _ => exact Or.inl hp
  | countedUnsuccessful => exact Or.inl hp
  | caughtRemaining => exact Or.inl hp
  | caughtUnsuccessful => exact Or.inl hp
  | caughtLabel _ => exact Or.inl hp
  -- The other cases end in a stage without a claim.
  | _ => cases hp

end EmailScheduler
