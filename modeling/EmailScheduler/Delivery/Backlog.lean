import EmailScheduler.Delivery.ClosedRows
import EmailScheduler.Delivery.HourlyCap
import EmailScheduler.Delivery.RowLedger
import Mathlib.Data.Finset.Dedup
import Mathlib.Data.Finset.Order

/-!
# Every backlog can be cleared

No state of the rows, the limiter and the executions that a run reaches is a dead end for an email
that the queue still serves. The delivery system has no queue of its own, so which emails have a job
that will run is a parameter, `served`, and executions are started for these only. Whatever crashes,
refusals, deferrals and lost replies came before, the worker can still bring every such email to its
end: those that wait are sent, each with one message more, those that an interrupted execution left
in `PROCESSING` are given up, and the batches get their labels (`backlogCleared`). All it takes of
the senders is that they may send an email an hour.

The run is the plain one. The sweep comes first; then the emails go one after the other, each at a
time at which the limiter has room (`exists_admitted`) and under a token that no attempt carries.
That a delivery meets no constraint on its way is what the invariants of rows, attempts and batches
are for (`exists_delivered`).
-/

set_option autoImplicit false

namespace EmailScheduler

open Foundation

/-- An element in the middle of a list is modified. -/
theorem modify_append_cons {α : Type} (rows : List α) (r : α) (rest : List α) (f : α → α) :
    (rows ++ r :: rest).modify rows.length f = rows ++ f r :: rest := by
  induction rows with
  | nil => rfl
  | cons q rows ih => simp [ih]

namespace Delivery

variable {config : AppConfig} {P : Delivery → DeliveryEvent → Prop} {s t u : Delivery}
  {event : DeliveryEvent} {served : Uuid → Bool}

/-! ## Room in the limiter -/

/-- There is an hour after which no sender has a counter. -/
theorem exists_lastHour (h : (system config).Reachable P s) :
    ∃ bound, ∀ senderId start, s.world.limiter.redis (.hour senderId start) ≠ none →
      start ≤ bound := by
  apply h.invariant (I := fun s => ∃ bound, ∀ senderId start,
    s.world.limiter.redis (.hour senderId start) ≠ none → start ≤ bound)
  · rintro s ⟨-, -, -, hredis, -⟩
    refine ⟨0, ?_⟩
    intro senderId start hkey
    rw [hredis] at hkey
    exact absurd rfl hkey
  · rintro s event t - hstep ⟨bound, hbound⟩
    have hlimiter := limiterStep hstep
    generalize t.world.limiter = limiter at hlimiter
    -- A call writes at most the counter of its own hour.
    have hcall : ∀ {redis : LimiterStore} {policy : SenderPolicy} {now : Int},
        (∀ key, key ≠ .hour policy.senderId (hourStart now) → key ≠ .next policy.senderId →
          (∀ id, key ≠ .reservation policy.senderId id) → redis key = s.world.limiter.redis key) →
        ∃ bound, ∀ senderId start, redis (.hour senderId start) ≠ none → start ≤ bound := by
      intro redis policy now hframe
      refine ⟨max bound (hourStart now), ?_⟩
      intro senderId start hkey
      by_cases hown : RateKey.hour senderId start = .hour policy.senderId (hourStart now)
      · injection hown with _ hstart
        omega
      · rw [hframe _ hown (by simp) (by simp)] at hkey
        have hle := hbound senderId start hkey
        omega
    cases hlimiter with
    | same => exact ⟨bound, hbound⟩
    | reserved =>
        apply hcall
        intro key hhour hnext hreservation
        exact reserve_frame hhour hnext (hreservation _)
    | seeded policy acceptedCount lastAcceptedAt now =>
        apply hcall
        intro key hhour hnext _
        exact seed_frame _ _ _ _ _ _ _ hhour hnext
    | ticked => exact ⟨bound, hbound⟩

/-- What a key reads is at most what was written under it, whatever the time. -/
theorem exists_reading_le (redis : LimiterStore) (key : RateKey) :
    ∃ bound, ∀ clock, reading redis clock key ≤ bound := by
  cases hkey : redis key with
  | none =>
      refine ⟨0, ?_⟩
      intro clock
      rw [reading, ExpiringStore.get_eq_none_of_none hkey]
      exact le_refl 0
  | some e =>
      refine ⟨max 0 e.value, ?_⟩
      intro clock
      rw [reading]
      cases hget : redis.get clock key with
      | none => exact le_max_left 0 e.value
      | some v =>
          obtain ⟨e', he', rfl, -⟩ := ExpiringStore.entry_of_get hget
          obtain rfl := Option.some.inj (he'.symm.trans hkey)
          exact le_max_right 0 e'.value

/-- **The limiter admits everybody some time.** After the last hour with a counter and after `next`,
a policy that allows an email an hour is admitted. -/
theorem exists_admitted (h : (system config).Reachable P s) {policy : SenderPolicy}
    (hlimit : 1 ≤ policy.hourlyLimit) (emailId : Uuid) (earliest : Int) :
    ∃ now, earliest ≤ now ∧ s.world.limiter.clock ≤ now ∧
      (reserve config policy emailId now now s.world.limiter.redis).1.admitted = true := by
  obtain ⟨lastHour, hhour⟩ := exists_lastHour h
  obtain ⟨next, hnext⟩ := exists_reading_le s.world.limiter.redis (.next policy.senderId)
  let now := max (max earliest s.world.limiter.clock) (max (lastHour + oneHourMilliseconds) next)
  have hlater : lastHour < hourStart now := by
    have hend := lt_hourEnd now
    unfold hourEnd at hend
    omega
  have hfree : s.world.limiter.redis (.hour policy.senderId (hourStart now)) = none := by
    by_contra hkey
    have hle := hhour _ _ hkey
    omega
  refine ⟨now, by omega, by omega, ?_⟩
  apply reserve_admitted
  · have hle := hnext now
    show reading s.world.limiter.redis now (.next policy.senderId) ≤ now
    omega
  · rw [reading, ExpiringStore.get_eq_none_of_none hfree]
    exact hlimit

/-- There are tokens that no attempt carries. -/
theorem exists_freshToken (db : Database) : ∃ token, FreshToken db token := by
  obtain ⟨bound, hbound⟩ := (db.attempts.map SendAttempt.attemptToken).toFinset.exists_le
  refine ⟨bound + 1, ?_⟩
  intro a ha
  have hle : a.attemptToken ≤ bound := hbound _ (by simpa using ⟨a, ha, rfl⟩)
  exact Nat.ne_of_lt (Nat.lt_succ_of_le hle)

/-! ## The steps of the last execution -/

/-- What the worker, the clock and the SMTP server do when nothing fails. Only served emails have a
job that is started. -/
def Delivers (served : Uuid → Bool) (_ : Delivery) : DeliveryEvent → Prop
  | .deliver job => served job.scheduledEmailId = true
  | .advance _ _ | .sendReturns _ _ | .smtpAccepts _ | .sweep _ | .tick _ => True
  | _ => False

/-- The same without new executions and without the sweep. -/
def Drives (_ : Delivery) : DeliveryEvent → Prop
  | .advance _ _ | .sendReturns _ _ | .smtpAccepts _ | .tick _ => True
  | _ => False

theorem Drives.delivers (h : Drives s event) : Delivers served s event := by
  cases event with
  | advance => trivial
  | sendReturns => trivial
  | smtpAccepts => trivial
  | tick => trivial
  | _ => exact h.elim

/-- The system with one more execution, in another world. -/
def withExecution (s : Delivery) (job : Job) (stage : Stage) (w : World) : Delivery :=
  ⟨w, s.executions ++ [⟨job, stage⟩]⟩

section LastExecution

variable {s₀ : Delivery} {w w' : World} {job : Job} {stage stage' : Stage}

theorem stageOf_withExecution (i : Nat) : (s.withExecution job stage w).stageOf i =
    if i = s.executions.length then stage else s.stageOf i :=
  stageOf_append job

theorem stageOf_last : (s.withExecution job stage w).stageOf s.executions.length = stage :=
  (stageOf_withExecution _).trans (if_pos rfl)

theorem moveTo_withExecution : (s.withExecution job stage w).moveTo s.executions.length stage' =
    s.withExecution job stage' w := by
  rw [moveTo, withExecution, modify_append_cons]
  rfl

/-- The last execution takes a step. -/
theorem steps_advanceLast (input : StepInput)
    (h : (system config).Steps Drives s₀ (s.withExecution job stage w))
    (hadvance : advance config job input w stage = some (stage', w')) :
    (system config).Steps Drives s₀ (s.withExecution job stage' w') := by
  refine .tail (.advance s.executions.length input) h trivial ?_
  have hlast : (s.withExecution job stage w).executions[s.executions.length]? =
    some ⟨job, stage⟩ := by
    simp [withExecution]
  simp only [system, step]
  rw [hlast, Option.bind_some]
  dsimp only
  rw [show (s.withExecution job stage w).world = w from rfl, hadvance, Option.map_some,
    moveTo_withExecution]
  rfl

/-- The SMTP server accepts the message of the last execution, and `mailer.send` returns. -/
theorem steps_acceptedLast {d : Sending} {x : Submission} {receipt : DeliveryReceipt}
    {subs : List Submission} {db : Database} {limiter : Limiter}
    (h : (system config).Steps Drives s₀
      (s.withExecution job (.sending d) ⟨db, limiter, subs ++ [x]⟩))
    (hd : d.submission = subs.length) (hx : x.status = .pending)
    (hreceipt : receipt.acceptedCount ≠ 0) :
    (system config).Steps Drives s₀ (s.withExecution job (.recordingAccepted d receipt)
      ⟨db, limiter, subs ++ [{ x with status := .accepted }]⟩) := by
  have hstatus : ∀ y : Submission, statusOf (s.withExecution job (.sending d)
      ⟨db, limiter, subs ++ [y]⟩) subs.length = y.status := by
    intro y
    simp [statusOf, submissions, withExecution]
  have haccepts : (system config).Steps Drives s₀ (s.withExecution job (.sending d)
      ⟨db, limiter, subs ++ [{ x with status := .accepted }]⟩) := by
    refine .tail (.smtpAccepts subs.length) h trivial ?_
    simp only [system, step]
    rw [if_pos ((hstatus x).trans hx), settle, withExecution, modify_append_cons]
    rfl
  refine .tail (.sendReturns s.executions.length receipt) haccepts trivial ?_
  simp only [system, step]
  rw [sendReturns, stageOf_last]
  dsimp only
  rw [if_neg, moveTo_withExecution, afterSend, if_neg hreceipt]
  rw [hd, hstatus]
  simp

end LastExecution

/-! ## One email -/

/-- An open row that is due goes on to the limiter. -/
theorem afterLoad_of_due {loaded : LoadedEmail} {now : Int}
    (hopen : loaded.email.status.isOpen = true)
    (hdue : loaded.email.nextAttemptAt ≤ now) :
    afterLoad now (.ok (some loaded)) = .reserving loaded now := by
  have hterminal := ScheduledEmailStatus.not_isTerminal_of_isOpen hopen
  have hprocessing := (ne_processing_of_isOpen hopen).1
  simp [afterLoad, hterminal, hprocessing, hdue]

/-- What the claim of a row returns. -/
def claimOf (e : ScheduledEmail) (token : Uuid) : ClaimedEmail :=
  ⟨e.id, e.batchId, e.attemptCount + 1, token⟩

/-- The database after the claim of a row. -/
def claimedDatabase (db : Database) (e : ScheduledEmail) (token : Uuid) (now : Int) : Database :=
  { db with
    emails := updateMany (claimable e.id) (claimRow token now) db.emails
    attempts := db.attempts ++ [claimAttempt (claimRow token now e) now token] }

/-- An open row is claimed under a fresh token. -/
theorem claimEmail_of_open (h : (system config).Reachable P s) {e : ScheduledEmail}
    (he : e ∈ s.database.emails) (hopen : e.status.isOpen = true) {token : Uuid}
    (hfresh : FreshToken s.database token) (now : Int) : claimEmail s.database e.id now token =
      .ok (some (claimOf e token), claimedDatabase s.database e token now) := by
  obtain ⟨claim, db, hok⟩ := claimEmail_isOk h hfresh e.id now
  have hclaimable : claimable e.id e = true :=
    claimable_iff.2 ⟨rfl, (rowValid_of_reachable h e he).unclaimed hopen, hopen⟩
  cases claim with
  | none =>
      rw [(claimEmail_eq_ok_none hok).2 e he] at hclaimable
      cases hclaimable
  | some claim =>
      obtain ⟨row, hrow, hmatch, rfl, -, rfl⟩ := claimEmail_eq_ok_some hok
      obtain rfl := (primaryKey_emails h).eq_of_key_eq hrow he (claimable_iff.1 hmatch).1
      exact hok

/-- The acceptance of the one row that a claim holds is recorded. -/
theorem recordAccepted_of_held {db : Database} {claim : ClaimedEmail} {e : ScheduledEmail}
    (hids : PrimaryKey ScheduledEmail.id db.emails) (he : e ∈ db.emails)
    (hheld : heldBy claim e = true)
    (hattempt : ∃ a ∈ db.attempts, a.attemptToken = claim.processingToken)
    (receipt : DeliveryReceipt)
    (now : Int) : recordAccepted db claim receipt now = .ok ((), { db with
      emails := updateMany (heldBy claim) (acceptRow receipt now) db.emails
      attempts := updateMany (fun a => decide (a.attemptToken = claim.processingToken))
        (acceptAttempt receipt now) db.attempts }) := by
  have hone : db.emails.filter (heldBy claim) = [e] := by
    apply hids.filter_eq_singleton he hheld
    intro q hq
    exact (heldBy_iff.1 hq).1.trans (heldBy_iff.1 hheld).1.symm
  have hlogged : (db.attempts.any fun a => decide (a.attemptToken = claim.processingToken)) =
    true := by
    simpa using hattempt
  unfold recordAccepted updateManyAndReturn Database.updateSendAttempt
  dsimp only
  rw [hone, if_neg (by simp), if_pos hlogged]
  rfl

/-- The rows after the claim and the acceptance of one of them. -/
theorem exists_map_accepted {emails : List ScheduledEmail} {e : ScheduledEmail}
    (hids : PrimaryKey ScheduledEmail.id emails) (he : e ∈ emails)
    (hclaimable : claimable e.id e = true) {claim : ClaimedEmail} (hclaim : claim.id = e.id)
    (now now' : Int) (receipt : DeliveryReceipt) :
    ∃ f, updateMany (heldBy claim) (acceptRow receipt now')
        (updateMany (claimable e.id) (claimRow claim.processingToken now) emails) = emails.map f ∧
      (f e).status = .sent ∧ (f e).key = e.key ∧ ∀ r ∈ emails, r ≠ e → f r = r := by
  have hheld : heldBy claim (claimRow claim.processingToken now e) = true :=
    heldBy_iff.2 ⟨hclaim.symm, rfl, rfl⟩
  refine ⟨_, List.map_map, ?_, ?_, ?_⟩
  · simp [hclaimable, hheld, acceptRow]
  · simp only [Function.comp_apply, hclaimable, hheld, if_true]
    rfl
  · intro r hr hne
    -- Another row has another id.
    have hid : r.id ≠ e.id := fun heq => hne (hids.eq_of_key_eq hr he heq)
    simp [claimable, heldBy, hclaim, hid]

/-- The end of an execution whose email was accepted: it labels the batch if nothing remains. -/
theorem exists_labelled {s₀ : Delivery} {db : Database} {limiter : Limiter}
    {subs : List Submission} {job : Job}
    {d : Sending} (h : (system config).Steps Drives s₀
      (s.withExecution job (.countingRemaining d .accepted) ⟨db, limiter, subs⟩))
    (hbatch : ∃ b ∈ db.batches, b.id = d.claim.batchId) :
    ∃ db', (system config).Steps Drives s₀
        (s.withExecution job (.finished .returned) ⟨db', limiter, subs⟩) ∧
      db'.emails = db.emails ∧ db'.senders = db.senders ∧
      (Finished db' d.claim.batchId → ∃ b ∈ db'.batches, b.id = d.claim.batchId ∧
        b.status ≠ .scheduled) := by
  let input : StepInput := ⟨0, 0, .done⟩
  -- The batch gets its label from the execution of its last email only.
  by_cases hremaining : countRemaining db d.claim.batchId = 0
  · have hcounting : (system config).Steps Drives s₀
        (s.withExecution job (.countingUnsuccessful d .accepted) ⟨db, limiter, subs⟩) := by
      apply steps_advanceLast input h
      show some (afterRemaining d .accepted (.ok (countRemaining db d.claim.batchId)), _) = _
      rw [afterRemaining, if_neg (not_not.2 hremaining)]
    have hlabelling : (system config).Steps Drives s₀ (s.withExecution job
        (.labelling d .accepted (countUnsuccessful db d.claim.batchId)) ⟨db, limiter, subs⟩) :=
      steps_advanceLast input hcounting rfl
    have hexists : (db.batches.any fun b => decide (b.id = d.claim.batchId)) = true := by
      simpa using hbatch
    obtain ⟨db', hlabel⟩ :
      ∃ db', labelBatch db d.claim.batchId (countUnsuccessful db d.claim.batchId) =
        .ok ((), db') := by
      rw [labelBatch, if_pos hexists]
      exact ⟨_, rfl⟩
    have hlabelled : (system config).Steps Drives s₀
        (s.withExecution job (.finished .returned) ⟨db', limiter, subs⟩) := by
      apply steps_advanceLast input hlabelling
      simp only [advance]
      rw [hlabel]
      rfl
    obtain rfl := labelBatch_eq_ok hlabel
    refine ⟨_, hlabelled, rfl, rfl, ?_⟩
    · intro _
      obtain ⟨b, hb, hid⟩ := hbatch
      refine ⟨_, mem_updateMany.2 ⟨b, hb, rfl⟩, ?_⟩
      rw [if_pos (by simpa using hid)]
      refine ⟨hid, ?_⟩
      unfold completionStatus
      split <;> simp
  · refine ⟨db, steps_advanceLast input h ?_, rfl, rfl, ?_⟩
    · show some (afterRemaining d .accepted (.ok (countRemaining db d.claim.batchId)), _) = _
      rw [afterRemaining, if_pos hremaining]
      rfl
    · intro hfinished
      exact absurd (countRemaining_eq_zero_iff.2 hfinished) hremaining

/-- What the delivery of one email has done. -/
structure Delivered (e : ScheduledEmail) (s t : Delivery) : Prop where
  rows : ∃ f, t.database.emails = s.database.emails.map f ∧ (f e).status = .sent ∧
    (f e).key = e.key ∧
    ∀ r ∈ s.database.emails, r ≠ e → f r = r
  senders : t.database.senders = s.database.senders
  submission : ∃ x, t.submissions = s.submissions ++ [x] ∧ x.message.scheduledEmailId = e.id ∧
    x.status = .accepted
  label : Finished t.database e.batchId → ∃ b ∈ t.database.batches, b.id = e.batchId ∧
    b.status ≠ .scheduled

/-- An execution for an email that waits gets as far as its claim. -/
theorem exists_claimed (h : (system config).Reachable TransitionSystem.anyStep s)
    {e : ScheduledEmail}
    (he : e ∈ s.database.emails) (hopen : e.status.isOpen = true)
    (hlimits : ∀ x ∈ s.database.senders, 1 ≤ x.hourlyLimit) {job : Job}
    (hjob : job.scheduledEmailId = e.id) :
    ∃ loaded now token limiter, loaded.email = e ∧ (system config).Steps Drives
      (s.withExecution job .loading s.world)
      (s.withExecution job (.claimed loaded (claimOf e token) now)
        ⟨claimedDatabase s.database e token now, limiter, s.submissions⟩) := by
  -- What the processor loads is the row, with a sender that may send.
  obtain ⟨loaded, hfind⟩ := Option.isSome_iff_exists.1 (findScheduledEmail_isSome h ⟨e, he, rfl⟩)
  obtain ⟨hmem, hid, -, -, hsender, -⟩ := Database.findScheduledEmail_eq_some _ hfind
  obtain rfl : loaded.email = e := (primaryKey_emails h).eq_of_key_eq hmem he hid
  have hlimit : 1 ≤ loaded.policy.hourlyLimit := hlimits _ hsender
  obtain ⟨now, hdue, hclock, hadmitted⟩ :=
    exists_admitted h hlimit loaded.email.id loaded.email.nextAttemptAt
  obtain ⟨token, hfresh⟩ := exists_freshToken s.database
  let limiter : Limiter := ⟨s.world.limiter.redis, now, s.world.limiter.history⟩
  let reserved := (limiter.reserve config loaded.policy loaded.email.id now).2
  let input : StepInput := ⟨now, token, .done⟩
  have hloading : (system config).Steps Drives (s.withExecution job .loading s.world)
      (s.withExecution job .loading ⟨s.database, limiter, s.submissions⟩) :=
    .tail (.tick now) .refl trivial (if_pos hclock)
  have hreserving : (system config).Steps Drives (s.withExecution job .loading s.world)
      (s.withExecution job (.reserving loaded now) ⟨s.database, limiter, s.submissions⟩) := by
    apply steps_advanceLast input hloading
    show some (afterLoad now (.ok (s.database.findScheduledEmail job.scheduledEmailId)), _) = _
    rw [hjob, hfind, afterLoad_of_due hopen hdue]
  have hclaiming : (system config).Steps Drives (s.withExecution job .loading s.world)
      (s.withExecution job (.claiming loaded now) ⟨s.database, reserved, s.submissions⟩) := by
    apply steps_advanceLast input hreserving
    show some (afterReserve loaded now (.ok (reserve config loaded.policy loaded.email.id now now
      s.world.limiter.redis).1), _) = _
    rw [afterReserve, hadmitted]
    rfl
  refine ⟨loaded, now, token, reserved, rfl, steps_advanceLast input hclaiming ?_⟩
  simp only [advance]
  rw [claimEmail_of_open h he hopen hfresh now]
  rfl

/-- **An execution for an email that waits can send it.** -/
theorem exists_delivered (h : (system config).Reachable TransitionSystem.anyStep s)
    {e : ScheduledEmail} (he : e ∈ s.database.emails) (hopen : e.status.isOpen = true)
    (hlimits : ∀ x ∈ s.database.senders, 1 ≤ x.hourlyLimit) {job : Job}
    (hjob : job.scheduledEmailId = e.id) :
    ∃ w, (system config).Steps Drives (s.withExecution job .loading s.world)
        (s.withExecution job (.finished .returned) w) ∧
      Delivered e s (s.withExecution job (.finished .returned) w) := by
  obtain ⟨loaded, now, token, limiter, rfl, hclaimed⟩ := exists_claimed h he hopen hlimits hjob
  let input : StepInput := ⟨now, token, .done⟩
  let receipt : DeliveryReceipt := ⟨"message", none, 1, 0⟩
  let claim := claimOf loaded.email token
  let x : Submission := ⟨loaded.message, loaded.email.senderId, token, now, now, .pending⟩
  let d : Sending := ⟨loaded, claim, now, s.submissions.length⟩
  let db := claimedDatabase s.database loaded.email token now
  have hsending : (system config).Steps Drives (s.withExecution job .loading s.world)
      (s.withExecution job (.sending d) ⟨db, limiter, s.submissions ++ [x]⟩) :=
    steps_advanceLast input hclaimed rfl
  have haccepted := steps_acceptedLast hsending rfl rfl (show receipt.acceptedCount ≠ 0 by decide)
  -- The claim holds the row, and its attempt is the last one.
  have hids := primaryKey_emails h
  have hclaimable : claimable loaded.email.id loaded.email = true :=
    claimable_iff.2 ⟨rfl, (rowValid_of_reachable h _ he).unclaimed hopen, hopen⟩
  have hmem : claimRow token now loaded.email ∈ db.emails :=
    mem_updateMany.2 ⟨_, he, if_pos hclaimable⟩
  have hidsClaimed : PrimaryKey ScheduledEmail.id db.emails := by
    apply hids.updateMany
    intro r
    rfl
  have hheld : heldBy claim (claimRow token now loaded.email) = true := heldBy_iff.2 ⟨rfl, rfl, rfl⟩
  have hlogged : ∃ a ∈ db.attempts, a.attemptToken = claim.processingToken :=
    ⟨_, List.mem_append_right _ (List.mem_singleton_self _), rfl⟩
  have hcounting : (system config).Steps Drives (s.withExecution job .loading s.world)
      (s.withExecution job (.countingRemaining d .accepted) ⟨{ db with
        emails := updateMany (heldBy claim) (acceptRow receipt now) db.emails
        attempts := updateMany (fun a => decide (a.attemptToken = claim.processingToken))
          (acceptAttempt receipt now) db.attempts }, limiter,
        s.submissions ++ [{ x with status := .accepted }]⟩) := by
    apply steps_advanceLast input haccepted
    simp only [advance]
    rw [recordAccepted_of_held hidsClaimed hmem hheld hlogged receipt now]
    rfl
  obtain ⟨db', hend, hemails, hsenders, hlabel⟩ :=
    exists_labelled hcounting ((batchInv_of_reachable h).batch_of_email _ he)
  obtain ⟨f, hrows, hf⟩ :=
    exists_map_accepted hids he hclaimable (rfl : claim.id = _) now now receipt
  exact ⟨_, hend, ⟨f, hemails.trans hrows, hf⟩, hsenders, ⟨_, rfl, rfl, rfl⟩, hlabel⟩

/-! ## All emails -/

/-- The email waits and is served. -/
def waits (served : Uuid → Bool) (e : ScheduledEmail) : Bool := e.status.isOpen && served e.id

theorem waits_iff {e : ScheduledEmail} :
    waits served e = true ↔ e.status.isOpen = true ∧ served e.id = true :=
  Bool.and_eq_true_iff

theorem waits_of_sent {e : ScheduledEmail} (h : e.status = .sent) : waits served e = false := by
  rw [waits, h]
  rfl

/-- The rows of the served emails that wait. -/
def waiting (s : Delivery) (served : Uuid → Bool) : List ScheduledEmail :=
  s.database.emails.filter (waits served)

/-- What sending everything that waits and is served has done. -/
structure Drained (served : Uuid → Bool) (s t : Delivery) : Prop where
  rows : ∃ f, t.database.emails = s.database.emails.map f ∧
    (∀ e ∈ s.database.emails, waits served e = false → f e = e) ∧
    ∀ e ∈ s.database.emails, waits served e = true → (f e).status = .sent ∧ (f e).key = e.key
  submissions : ∃ sent, t.submissions = s.submissions ++ sent ∧
    (sent.map fun x => x.message.scheduledEmailId) = (s.waiting served).map ScheduledEmail.id ∧
    ∀ x ∈ sent, x.status = .accepted
  label : ∀ e ∈ s.waiting served, Finished t.database e.batchId →
    ∃ b ∈ t.database.batches, b.id = e.batchId ∧ b.status ≠ .scheduled

theorem drained_of_none (h : s.waiting served = []) : Drained served s s where
  rows := by
    refine ⟨id, (List.map_id _).symm, fun _ _ _ => rfl, ?_⟩
    intro e he hwaits
    have hmem : e ∈ s.waiting served := List.mem_filter.2 ⟨he, hwaits⟩
    rw [h] at hmem
    cases hmem
  submissions := ⟨[], (List.append_nil _).symm, by rw [h]; rfl, by simp⟩
  label e he := by
    rw [h] at he
    cases he

/-- After a delivery the others wait that waited before. -/
theorem Delivered.mem_waiting {e r : ScheduledEmail} (h : Delivered e s t)
    (hids : PrimaryKey ScheduledEmail.id s.database.emails) (he : e ∈ s.database.emails)
    (hr : r ∈ t.waiting served) : r ∈ s.waiting served ∧ r.id ≠ e.id := by
  obtain ⟨f, hemails, hsent, -, hother⟩ := h.rows
  obtain ⟨hmem, hwaits⟩ := List.mem_filter.1 hr
  rw [hemails, List.mem_map] at hmem
  obtain ⟨q, hq, rfl⟩ := hmem
  by_cases hqe : q = e
  · rw [hqe, waits_of_sent hsent] at hwaits
    cases hwaits
  · rw [hother q hq hqe] at hwaits ⊢
    exact ⟨List.mem_filter.2 ⟨hq, hwaits⟩, fun hid => hqe (hids.eq_of_key_eq hq he hid)⟩

/-- The rows that wait after the first of them was delivered. -/
theorem Delivered.waiting_eq {e : ScheduledEmail} {rest : List ScheduledEmail}
    (h : Delivered e s t) (hids : PrimaryKey ScheduledEmail.id s.database.emails)
    (hwaiting : s.waiting served = e :: rest) : t.waiting served = rest := by
  obtain ⟨f, hemails, hsent, -, hother⟩ := h.rows
  have hnodup : (s.waiting served).Nodup := (List.Nodup.of_map _ hids).filter _
  rw [hwaiting, List.nodup_cons] at hnodup
  have hne : ∀ r ∈ rest, r ≠ e := by
    rintro r hr rfl
    exact hnodup.1 hr
  have hwaits : ∀ r ∈ s.database.emails,
      (waits served ∘ f) r = (decide (r ≠ e) && waits served r) := by
    intro r hr
    rw [Function.comp_apply]
    by_cases hre : r = e
    · simp [hre, waits_of_sent hsent]
    · simp [hre, hother r hr hre]
  have hmem : ∀ r ∈ rest, r ∈ s.database.emails := by
    intro r hr
    have hwaits : r ∈ s.waiting served := by
      rw [hwaiting]
      exact List.mem_cons_of_mem _ hr
    exact (List.mem_filter.1 hwaits).1
  calc t.waiting served = (s.database.emails.filter (waits served ∘ f)).map f := by
        rw [waiting, hemails, List.filter_map]
    _ = ((s.waiting served).filter fun r => decide (r ≠ e)).map f := by
        rw [waiting, List.filter_filter, List.filter_congr hwaits]
    _ = rest.map f := by
        rw [hwaiting, List.filter_cons_of_neg (by simp),
          List.filter_eq_self.2 fun r hr => decide_eq_true (hne r hr)]
    _ = rest := by
        rw [List.map_congr_left fun r hr => hother r (hmem r hr) (hne r hr), List.map_id']

/-- One email is delivered, and then the others. -/
theorem Drained.of_delivered {e : ScheduledEmail} {rest : List ScheduledEmail}
    (h : (system config).Reachable P t) (hdelivered : Delivered e s t)
    (hsteps : (system config).Steps P t u) (hdrained : Drained served t u)
    (hwaiting : s.waiting served = e :: rest) (hrest : t.waiting served = rest) :
    Drained served s u := by
  obtain ⟨f, hemails, hsent, hkey, hother⟩ := hdelivered.rows
  obtain ⟨g, hemails', hkept, hsent'⟩ := hdrained.rows
  have hmem : ∀ {r}, r ∈ s.database.emails → f r ∈ t.database.emails := by
    intro r hr
    rw [hemails]
    exact List.mem_map_of_mem hr
  have he : waits served e = true := by
    have hwaits : e ∈ s.waiting served := by
      rw [hwaiting]
      exact List.mem_cons_self
    exact (List.mem_filter.1 hwaits).2
  constructor
  · refine ⟨g ∘ f, by rw [hemails', hemails, List.map_map], ?_, ?_⟩
    · intro r hr hclosed
      have hne : r ≠ e := by
        rintro rfl
        rw [he] at hclosed
        cases hclosed
      have hf := hother r hr hne
      rw [Function.comp_apply, hf]
      exact hkept r (hf ▸ hmem hr) hclosed
    · intro r hr hopen
      rw [Function.comp_apply]
      by_cases hre : r = e
      · subst hre
        rw [hkept _ (hmem hr) (waits_of_sent hsent)]
        exact ⟨hsent, hkey⟩
      · have hf := hother r hr hre
        rw [hf]
        exact hsent' r (hf ▸ hmem hr) hopen
  · obtain ⟨x, hx, hid, hstatus⟩ := hdelivered.submission
    obtain ⟨sent, hsubs, hids, hstatuses⟩ := hdrained.submissions
    refine ⟨x :: sent, ?_, ?_, ?_⟩
    · rw [hsubs, hx, List.append_assoc, List.singleton_append]
    · rw [hwaiting, List.map_cons, List.map_cons, hid, hids, hrest]
    · intro y hy
      rcases List.mem_cons.1 hy with rfl | hy
      · exact hstatus
      · exact hstatuses y hy
  · intro r hr hfinished
    rw [hwaiting] at hr
    rcases List.mem_cons.1 hr with rfl | hr
    · by_cases hdone : Finished t.database r.batchId
      · -- The delivery finished the batch and labelled it; the label stays.
        obtain ⟨b, hb, hid, hlabel⟩ := hdelivered.label hdone
        obtain ⟨b', hb', hid', hstatus⟩ := label_of_steps (batchInv_of_reachable h) hsteps hb hlabel
        exact ⟨b', hb', hid'.trans hid, by rwa [hstatus]⟩
      · -- Another email of the batch still waits.
        unfold Finished at hdone
        push Not at hdone
        obtain ⟨q, hq, hterminal⟩ := hdone
        obtain ⟨hqmem, hqbatch⟩ := (Database.mem_emailsOf _).1 hq
        cases hqwaits : waits served q with
        | true =>
            rw [← hqbatch] at hfinished ⊢
            exact hdrained.label q (List.mem_filter.2 ⟨hqmem, hqwaits⟩) hfinished
        | false =>
            have hend : q ∈ u.database.emailsOf r.batchId := by
              rw [Database.mem_emailsOf, hemails', List.mem_map]
              exact ⟨⟨q, hqmem, hkept q hqmem hqwaits⟩, hqbatch⟩
            exact absurd (hfinished q hend) hterminal
    · rw [← hrest] at hr
      exact hdrained.label r hr hfinished

/-- **Everything that waits and is served can be sent.** -/
theorem exists_drained (waiting : List ScheduledEmail)
    (h : (system config).Reachable TransitionSystem.anyStep s)
    (hwaiting : s.waiting served = waiting)
    (hlimits : ∀ x ∈ s.database.senders, 1 ≤ x.hourlyLimit) :
    ∃ t, (system config).Steps (Delivers served) s t ∧ Drained served s t := by
  induction waiting generalizing s with
  | nil => exact ⟨s, .refl, drained_of_none hwaiting⟩
  | cons e rest ih =>
      have hmem : e ∈ s.waiting served := by
        rw [hwaiting]
        exact List.mem_cons_self
      obtain ⟨he, hwaits⟩ := List.mem_filter.1 hmem
      obtain ⟨hopen, hserved⟩ := waits_iff.1 hwaits
      let job : Job := ⟨e.id, 0, none⟩
      obtain ⟨w, hdrives, hdelivered⟩ :=
        exists_delivered h he hopen hlimits (rfl : job.scheduledEmailId = e.id)
      have hst := (TransitionSystem.Steps.single (l := .deliver job) hserved rfl).trans
        (hdrives.mono (Q := Delivers served) fun _ _ => Drives.delivers)
      have hrest := hdelivered.waiting_eq (primaryKey_emails h) hwaiting
      have hany := hst.mono (Q := TransitionSystem.anyStep) fun _ _ _ => trivial
      obtain ⟨u, htu, hdrained⟩ := ih (h.trans hany) hrest (by rwa [hdelivered.senders])
      have hanyRest := htu.mono (Q := TransitionSystem.anyStep) fun _ _ _ => trivial
      exact ⟨u, hst.trans htu,
        hdrained.of_delivered (h.trans hany) hdelivered hanyRest hwaiting hrest⟩

/-! ## The emails of interrupted executions -/

theorem isTerminal_of_closed {status : ScheduledEmailStatus} (hopen : status.isOpen = false)
    (hprocessing : status ≠ .processing) : status.isTerminal = true := by
  cases status <;> simp_all [ScheduledEmailStatus.isOpen, ScheduledEmailStatus.isTerminal]

/-- A row in `PROCESSING` has the time of its claim. -/
theorem startedAt_of_processing (h : (system config).Reachable P s) :
    ∀ e ∈ s.database.emails, e.status = .processing →
      ∃ time, e.processingStartedAt = some time := by
  apply h.invariant (I := fun s => ∀ e ∈ s.database.emails, e.status = .processing →
    ∃ time, e.processingStartedAt = some time)
  · rintro s ⟨-, hemails, -⟩ e he
    rw [hemails] at he
    cases he
  · intro s event t _ hstep hinv e' he' hprocessing
    obtain ⟨f, new, hrows⟩ := emailsStep hstep
    rcases hrows.mem he' with ⟨e, he, -, hrow⟩ | hnew
    · cases hrow with
      | keep => exact hinv _ he hprocessing
      | deferred => cases hprocessing
      | claimed token now => exact ⟨now, rfl⟩
      | accepted => cases hprocessing
      | failed result => exact absurd hprocessing result.status_cases.1
      | abandoned => cases hprocessing
    · rw [(hrows.new_rows e' hnew).scheduled] at hprocessing
      cases hprocessing

/-- Some time every row in `PROCESSING` is stale. -/
theorem exists_allStale (h : (system config).Reachable P s) :
    ∃ now, ∀ e ∈ s.database.emails, e.status = .processing → isStale config now e = true := by
  obtain ⟨latest, hlatest⟩ :=
    (s.database.emails.map fun e => e.processingStartedAt.getD 0).toFinset.exists_le
  refine ⟨latest + config.processingLeaseMs + 1, ?_⟩
  intro e he hprocessing
  obtain ⟨time, htime⟩ := startedAt_of_processing h e he hprocessing
  have hle : time ≤ latest := by
    apply hlatest
    rw [List.mem_toFinset, List.mem_map]
    exact ⟨e, he, by rw [htime, Option.getD_some]⟩
  exact isStale_iff.2 ⟨hprocessing, time, htime, by omega⟩

/-- A row after the sweep. -/
def sweptRow (config : AppConfig) (now : Int) (e : ScheduledEmail) : ScheduledEmail :=
  if isStale config now e then abandonRow e else e

theorem sweptRow_of_not_processing {e : ScheduledEmail} (h : e.status ≠ .processing) (now : Int) :
    sweptRow config now e = e :=
  if_neg fun hstale => h (isStale_iff.1 hstale).1

/-- The sweep leaves the rows that wait. -/
theorem waiting_sweep (now : Int) :
    (s.withDatabase (sweepStaleLeases config s.database now).2).waiting served =
      s.waiting served := by
  have hwaits : ∀ e ∈ s.database.emails,
      (waits served ∘ sweptRow config now) e = waits served e := by
    intro e _
    rw [Function.comp_apply]
    unfold sweptRow waits
    split
    next hstale =>
      rw [(isStale_iff.1 hstale).1]
      rfl
    next => rfl
  calc (s.withDatabase (sweepStaleLeases config s.database now).2).waiting served
      = (s.database.emails.map (sweptRow config now)).filter (waits served) := rfl
    _ = (s.database.emails.filter (waits served ∘ sweptRow config now)).map
          (sweptRow config now) := List.filter_map
    _ = (s.waiting served).map (sweptRow config now) := by rw [List.filter_congr hwaits, waiting]
    _ = s.waiting served := by
        refine (List.map_congr_left ?_).trans (List.map_id _)
        intro e he
        have hopen := (waits_iff.1 (List.mem_filter.1 he).2).1
        exact sweptRow_of_not_processing (ne_processing_of_isOpen hopen).1 now

/-- What clearing the backlog does to a row. -/
inductive RowCleared (served : Uuid → Bool) (e : ScheduledEmail) : ScheduledEmail → Prop where
  | kept : e.status.isTerminal = true → RowCleared served e e
  | unserved : e.status.isOpen = true → served e.id = false → RowCleared served e e
  | sent {e' : ScheduledEmail} : e.status.isOpen = true → served e.id = true → e'.status = .sent →
      e'.key = e.key → RowCleared served e e'
  | abandoned : e.status = .processing → RowCleared served e (abandonRow e)

/-- The email does not wait, or is served. -/
def IsServed (served : Uuid → Bool) (e : ScheduledEmail) : Prop :=
  e.status.isOpen = true → served e.id = true

theorem RowCleared.isTerminal {e e' : ScheduledEmail} (h : RowCleared served e e')
    (hserved : IsServed served e) : e'.status.isTerminal = true := by
  cases h with
  | kept hterminal => exact hterminal
  | unserved hopen hnot =>
      rw [hserved hopen] at hnot
      cases hnot
  | sent _ _ hsent => rw [hsent]; rfl
  | abandoned => rfl

theorem RowCleared.batchId_eq {e e' : ScheduledEmail} (h : RowCleared served e e') :
    e'.batchId = e.batchId := by
  cases h with
  | kept => rfl
  | unserved => rfl
  | sent _ _ _ hkey => exact congrArg (fun key => key.2.1) hkey
  | abandoned => rfl

/-- The backlog of the served emails is cleared: every row but those of other emails that wait has
come to its end, the server has accepted one more message for each served email that waited, and the
batches of these have the label that their emails ask for, if all that waited in them are served. -/
structure Cleared (served : Uuid → Bool) (s t : Delivery) : Prop where
  rows : ∃ f, t.database.emails = s.database.emails.map f ∧
    ∀ e ∈ s.database.emails, RowCleared served e (f e)
  submissions : ∃ sent, t.submissions = s.submissions ++ sent ∧
    (sent.map fun x => x.message.scheduledEmailId) = (s.waiting served).map ScheduledEmail.id ∧
    ∀ x ∈ sent, x.status = .accepted
  label : ∀ e ∈ s.waiting served, (∀ r ∈ s.database.emailsOf e.batchId, IsServed served r) →
    ∃ b ∈ t.database.batches, b.id = e.batchId ∧
      (b.status = .completed ∧ (∀ r ∈ t.database.emailsOf b.id, r.status = .sent) ∨
        b.status = .partiallyFailed ∧ ∃ r ∈ t.database.emailsOf b.id, r.status ≠ .sent)

/-- A sweep that finds every claim stale, and then everything that waits and is served is sent. -/
theorem cleared_of_drained {now : Int}
    (hstale : ∀ e ∈ s.database.emails, e.status = .processing → isStale config now e = true)
    (h : (system config).Reachable P t)
    (hdrained : Drained served (s.withDatabase (sweepStaleLeases config s.database now).2) t) :
    Cleared served s t := by
  obtain ⟨g, hemails, hkept, hsent⟩ := hdrained.rows
  have hrows : ∃ f, t.database.emails = s.database.emails.map f ∧
      ∀ e ∈ s.database.emails, RowCleared served e (f e) := by
    refine ⟨g ∘ sweptRow config now, hemails.trans List.map_map, ?_⟩
    intro e he
    have hmem : sweptRow config now e ∈ s.database.emails.map (sweptRow config now) :=
      List.mem_map_of_mem he
    rw [Function.comp_apply]
    by_cases hprocessing : e.status = .processing
    · have habandoned : sweptRow config now e = abandonRow e := if_pos (hstale e he hprocessing)
      rw [habandoned] at hmem ⊢
      rw [hkept _ hmem rfl]
      exact .abandoned hprocessing
    · rw [sweptRow_of_not_processing hprocessing] at hmem ⊢
      cases hopen : e.status.isOpen with
      | false =>
          rw [hkept e hmem (by rw [waits, hopen]; rfl)]
          exact .kept (isTerminal_of_closed hopen hprocessing)
      | true =>
          cases hserved : served e.id with
          | true =>
              obtain ⟨hstatus, hkey⟩ := hsent e hmem (waits_iff.2 ⟨hopen, hserved⟩)
              exact .sent hopen hserved hstatus hkey
          | false =>
              rw [hkept e hmem (by rw [waits, hserved, Bool.and_false])]
              exact .unserved hopen hserved
  refine ⟨hrows, ?_, ?_⟩
  · obtain ⟨sent, hsubs, hids, hstatuses⟩ := hdrained.submissions
    rw [waiting_sweep] at hids
    exact ⟨sent, hsubs, hids, hstatuses⟩
  · intro e he hserved
    obtain ⟨f, hend, hcleared⟩ := hrows
    have hfinished : Finished t.database e.batchId := by
      intro r hr
      obtain ⟨hr, hbatch⟩ := (Database.mem_emailsOf _).1 hr
      rw [hend, List.mem_map] at hr
      obtain ⟨q, hq, rfl⟩ := hr
      rw [(hcleared q hq).batchId_eq] at hbatch
      exact (hcleared q hq).isTerminal (hserved q ((Database.mem_emailsOf _).2 ⟨hq, hbatch⟩))
    rw [← waiting_sweep now] at he
    obtain ⟨b, hb, hid, hlabel⟩ := hdrained.label e he hfinished
    have hright := (batchInv_of_reachable h).label b hb
    refine ⟨b, hb, hid, ?_⟩
    cases hstatus : b.status with
    | creating => exact absurd hstatus hright.scheduled
    | scheduled => exact absurd hstatus hlabel
    | completed => exact Or.inl ⟨rfl, hright.completed hstatus⟩
    | partiallyFailed => exact Or.inr ⟨rfl, (hright.partiallyFailed hstatus).2⟩

/-- The sweep and then one email after the other, at a time at which all claims are stale. -/
theorem exists_cleared_of_stale (h : (system config).Reachable TransitionSystem.anyStep s)
    (hlimits : ∀ x ∈ s.database.senders, 1 ≤ x.hourlyLimit) {now : Int}
    (hstale : ∀ e ∈ s.database.emails, e.status = .processing → isStale config now e = true)
    (served : Uuid → Bool) :
    ∃ t, (system config).Steps (Delivers served) s t ∧ Cleared served s t := by
  have hswept : (system config).Steps (Delivers served) s
      (s.withDatabase (sweepStaleLeases config s.database now).2) :=
    .tail (.sweep now) .refl trivial rfl
  have hreach := h.trans (hswept.mono (Q := TransitionSystem.anyStep) fun _ _ _ => trivial)
  obtain ⟨t, hst, hdrained⟩ :
    ∃ t, (system config).Steps (Delivers served) _ t ∧ Drained served _ t :=
    exists_drained _ hreach rfl hlimits
  have hreachEnd := hreach.trans (hst.mono (Q := TransitionSystem.anyStep) fun _ _ _ => trivial)
  exact ⟨t, hswept.trans hst, cleared_of_drained hstale hreachEnd hdrained⟩

/-- **Every backlog can be cleared**, from every state reached, as far as the emails are served. -/
theorem backlogCleared (h : (system config).Reachable TransitionSystem.anyStep s)
    (hlimits : ∀ x ∈ s.database.senders, 1 ≤ x.hourlyLimit) (served : Uuid → Bool) :
    ∃ t, (system config).Steps (Delivers served) s t ∧ Cleared served s t := by
  obtain ⟨now, hstale⟩ := exists_allStale h
  exact exists_cleared_of_stale h hlimits hstale served

/-- Three emails: an execution crashes while it sends the first one, the limiter defers the second
one, and the third one has no job. -/
def interrupted : List DeliveryEvent :=
  [.createBatch (requestFor ["a@test.invalid", "b@test.invalid", "c@test.invalid"]) 10
      (fun i => 100 + i),
    .deliver ⟨100, 0, some 3⟩, .deliver ⟨101, 0, some 3⟩,
    .advance 0 ⟨1000, 0, .done⟩, .advance 0 ⟨1000, 0, .done⟩, .advance 0 ⟨1000, 70, .done⟩,
    .advance 0 ⟨1000, 0, .done⟩, .crash 0,
    .advance 1 ⟨1000, 0, .done⟩, .advance 1 ⟨1000, 0, .done⟩, .advance 1 ⟨1000, 71, .done⟩]

/-- The first two emails have jobs. -/
def hasJob (id : Uuid) : Bool := decide (id < 102)

theorem backlogCleared_after_interrupted : ∃ s,
    (system validConfig).run TransitionSystem.anyStep interrupted oneSenderStart = some s ∧
      s.database.emails.map ScheduledEmail.status = [.processing, .rateLimited, .scheduled] ∧
      (∀ x ∈ s.database.senders, 1 ≤ x.hourlyLimit) ∧
      ∃ t, (system validConfig).Steps (Delivers hasJob) s t ∧ Cleared hasJob s t := by
  have hreach : ∀ s, (system validConfig).run TransitionSystem.anyStep interrupted oneSenderStart =
      some s → (system validConfig).Reachable TransitionSystem.anyStep s := by
    intro s hs
    exact reachable_from_oneSender interrupted hs
  have hlimits : ∀ s, (system validConfig).run TransitionSystem.anyStep interrupted oneSenderStart =
      some s → ∀ x ∈ s.database.senders, 1 ≤ x.hourlyLimit := by
    intro s hs
    cases hs
    decide
  exact ⟨_, rfl, by decide, hlimits _ rfl, backlogCleared (hreach _ rfl) (hlimits _ rfl) hasJob⟩

end Delivery

end EmailScheduler
