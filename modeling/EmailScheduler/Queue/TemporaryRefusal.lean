import EmailScheduler.Queue.JobRun
import EmailScheduler.Delivery.AtMostOnce

/-!
# Temporary SMTP refusals

A reply code between 400 and 499 means that the server refused the message for now. This module
follows an execution whose `mailer.send` throws such a reply to the end of `recordFailure`.

The claim of an execution stays current until the execution records an outcome, unless a reconcile
pass gives the row up (`current_of_reachable`), so the outcome is written on the row. The row is
left for another attempt exactly when the error does not carry one of `permanentCodes` besides its
reply (`retryScheduled_iff`): `classifyDeliveryError` looks at these codes first.
-/

set_option autoImplicit false

namespace EmailScheduler

open Foundation

/-! ## Classification -/

/-- The error carries a reply between 400 and 499. -/
def ThrownValue.IsTemporary (error : ThrownValue) : Prop :=
  ∃ reply, smtpResponseCode error = some reply ∧ 400 ≤ reply ∧ reply < 500

theorem InfrastructureError.not_isTemporary (e : InfrastructureError) : ¬ e.value.IsTemporary := by
  rintro ⟨reply, hreply, -⟩
  rw [e.no_responseCode] at hreply
  cases hreply

theorem not_isTemporary_rejectedDelivery : ¬ ThrownValue.rejectedDelivery.IsTemporary := by
  rintro ⟨reply, hreply, -⟩
  cases hreply

/-- The two codes of `permanentCodes`. -/
theorem hasCode_permanentCodes_eq_false {code : Option String} :
    hasCode permanentCodes code = false ↔ code ≠ some "EAUTH" ∧ code ≠ some "EENVELOPE" := by
  cases code with
  | none => simp [hasCode]
  | some c => simp [hasCode, permanentCodes]

/-- A temporary reply is classified by the code next to it. -/
theorem classify_of_isTemporary {error : ThrownValue} (h : error.IsTemporary) :
    classifyDeliveryError error =
      if hasCode permanentCodes (smtpCode error) then .permanent else .transient := by
  obtain ⟨reply, hreply, hlow, hhigh⟩ := h
  have hnot : ¬ reply ≥ 500 := by omega
  cases error with
  | rejectedDelivery => cases hreply
  | primitive => cases hreply
  | object code responseCode =>
      unfold classifyDeliveryError
      dsimp only
      rw [hreply]
      by_cases hcode : hasCode permanentCodes (smtpCode (.object code responseCode)) = true
      · simp [hcode]
      · simp [hcode, hnot, hlow, hhigh]

/-! ## A claim that is not swept -/

/-- The execution has not recorded an outcome yet: it has claimed its row, or sent the message, or
`mailer.send` threw a temporary reply. -/
def Stage.HoldsRow (db : Database) : Stage → Prop
  | .claimed _ claim _ => Delivery.Current db claim
  | .sending d => Delivery.Current db d.claim
  | .recordingAccepted d _ => Delivery.Current db d.claim
  | .recordingFailure d error => error.IsTemporary → Delivery.Current db d.claim
  | _ => True

namespace Delivery

variable {config : AppConfig} {P : Delivery → DeliveryEvent → Prop} {s t u v : Delivery}
  {event : DeliveryEvent} {i : Nat}

/-- No reconcile pass gives up a row that execution `i` has claimed. -/
def SparesClaim (config : AppConfig) (i : Nat) (s : Delivery) : DeliveryEvent → Prop
  | .sweep now => ∀ p ∈ (s.stageOf i).delivery?, ∀ e ∈ s.database.emails,
      heldBy p.2 e = true → isStale config now e = false
  | _ => True

instance (s : Delivery) (event : DeliveryEvent) : Decidable (SparesClaim config i s event) :=
  match event with
  | .sweep now => inferInstanceAs (Decidable (∀ p ∈ (s.stageOf i).delivery?,
      ∀ e ∈ s.database.emails, heldBy p.2 e = true → isStale config now e = false))
  | .deliver _ | .advance _ _ | .sendReturns _ _ | .sendThrows _ _ | .smtpAccepts _ | .crash _
  | .createBatch _ _ _ | .updateSender _ | .seed _ _ _ _ | .tick _ => .isTrue trivial

theorem token?_recordingFailure (d : Sending) (error : ThrownValue) :
    (Stage.recordingFailure d error).holder.token? = some d.claim.processingToken := by
  show (if classifyDeliveryError error = .transient then d.refused else d.sent).token? = _
  split_ifs <;> rfl

/-- A row stays with the claim that holds it through the steps of other executions. -/
theorem current_of_other (hreach : (system config).Reachable P s) {p : LoadedEmail × ClaimedEmail}
    (hp : (s.stageOf i).delivery? = some p)
    (hholder : (s.stageOf i).holder.token? = some p.2.processingToken)
    (hspares : SparesClaim config i s event) (hother : ∀ input, event ≠ .advance i input)
    (h : (system config).step event s = some t) (hcurrent : Current s.database p.2) :
    Current t.database p.2 := by
  obtain ⟨e, he, hheld⟩ := hcurrent
  obtain ⟨hid, hstatus, htoken⟩ := heldBy_iff.1 hheld
  have hinv := LeaseState.inv_of_reachable (lease_reachable hreach)
  -- Another execution has another token.
  have hforeign : ∀ j d, (s.stageOf j).holder.token? = some d →
      (∃ input, event = .advance j input) → e.processingToken ≠ some d := by
    rintro j d hj ⟨input, rfl⟩ hsame
    rw [htoken, Option.some.injEq] at hsame
    have hij : i = j := hinv.worker_unique i j d (by rw [← hsame]; exact hholder) hj
    exact hother input (by rw [hij])
  obtain ⟨e', he', -, hchange⟩ := accountStep_of_mem hreach h he
  refine ⟨e', he', ?_⟩
  have hopen : ¬ e.status.isOpen = true := by
    rw [hstatus]
    exact Bool.false_ne_true
  generalize haccount : s.database.account e = c at hchange
  generalize haccount' : t.database.account e' = c' at hchange
  have hemail : c.email = e := by rw [← haccount]; rfl
  have hemail' : c'.email = e' := by rw [← haccount']; rfl
  rw [← hemail']
  cases hchange with
  | keep => rw [hemail]; exact hheld
  | deferred _ _ _ hisOpen => exact absurd (hemail ▸ hisOpen) hopen
  | claimed _ _ _ hisOpen => exact absurd (hemail ▸ hisOpen) hopen
  | accepted hevent hstage hheld' =>
      rw [hemail] at hheld'
      exact absurd (heldBy_iff.1 hheld').2.2 (hforeign _ _ (by rw [hstage]; rfl) ⟨_, hevent⟩)
  | @failed j input x d error result hevent _ hstage _ _ hheld' =>
      rw [hemail] at hheld'
      refine absurd (heldBy_iff.1 hheld').2.2 (hforeign j _ ?_ ⟨_, hevent⟩)
      rw [hstage]
      exact token?_recordingFailure d error
  | failedLate => rw [hemail]; exact hheld
  | abandoned hevent hstale =>
      subst hevent
      rw [hemail, hspares p hp e he hheld] at hstale
      cases hstale

/-- A step of an execution that claims, sends or throws keeps what is said about its row. -/
theorem holdsRow_of_advance {job : Job} {input : StepInput} {w w' : World} {stage stage' : Stage}
    (h : advance config job input w stage = some (stage', w'))
    (hholds : stage.HoldsRow w.database) :
    stage'.HoldsRow w'.database := by
  cases advanceCase_of_advance h with
  | @claimed loaded now claim db hok =>
      obtain ⟨row, hrow, hmatch, rfl, -, hdb⟩ := claimEmail_eq_ok_some hok
      refine ⟨claimRow input.token now row, ?_, heldBy_iff.2 ⟨rfl, rfl, rfl⟩⟩
      rw [hdb]
      exact mem_updateMany.2 ⟨row, hrow, by rw [if_pos hmatch]⟩
  | sent => exact hholds
  -- An error of the database carries no reply.
  | notAccepted => exact fun htemporary => absurd htemporary (InfrastructureError.not_isTemporary _)
  | caughtRemaining =>
      exact fun htemporary => absurd htemporary (InfrastructureError.not_isTemporary _)
  | caughtUnsuccessful =>
      exact fun htemporary => absurd htemporary (InfrastructureError.not_isTemporary _)
  | caughtLabel => exact fun htemporary => absurd htemporary (InfrastructureError.not_isTemporary _)
  -- The other cases end in a stage of which nothing is said.
  | _ => exact trivial

theorem holdsRow_step (hreach : (system config).Reachable P s)
    (hspares : SparesClaim config i s event) (h : (system config).step event s = some t)
    (hholds : (s.stageOf i).HoldsRow s.database) : (t.stageOf i).HoldsRow t.database := by
  by_cases hown : ∃ input, event = .advance i input
  · obtain ⟨input, rfl⟩ := hown
    obtain ⟨x, stage', w, hx, hstage, hadvance, rfl⟩ := step_advance config h
    have hlt : i < s.executions.length := (List.getElem?_eq_some_iff.1 hx).1
    have hmoved : Delivery.stageOf { s.moveTo i stage' with world := w } i = stage' :=
      stageOf_moveTo_self hlt
    rw [hmoved]
    exact holdsRow_of_advance hadvance (hstage ▸ hholds)
  · rw [not_exists] at hown
    -- No other execution writes a row under a claim that is current.
    have hkept : ∀ p, (s.stageOf i).delivery? = some p →
        (s.stageOf i).holder.token? = some p.2.processingToken →
        Current s.database p.2 → Current t.database p.2 :=
      fun p hp hholder => current_of_other hreach hp hholder hspares hown h
    cases stageStep_of_step h i with
    | same heq =>
        rw [heq]
        cases hstage : s.stageOf i with
        | claimed loaded claim now =>
            rw [hstage] at hkept hholds
            exact hkept (loaded, claim) rfl rfl hholds
        | sending d =>
            rw [hstage] at hkept hholds
            exact hkept (d.loaded, d.claim) rfl rfl hholds
        | recordingAccepted d receipt =>
            rw [hstage] at hkept hholds
            exact hkept (d.loaded, d.claim) rfl rfl hholds
        | recordingFailure d error =>
            rw [hstage] at hkept hholds
            exact fun htemporary => hkept (d.loaded, d.claim) rfl (token?_recordingFailure d error)
              (hholds htemporary)
        | _ => exact trivial
    | delivered job _ _ heq => rw [heq]; exact trivial
    | crashed _ heq => rw [heq]; exact trivial
    | advanced input hevent => exact absurd hevent (hown input)
    | returned d receipt hstage heq =>
        rw [hstage] at hkept hholds
        rw [heq]
        unfold afterSend
        split_ifs
        · exact fun htemporary => absurd htemporary not_isTemporary_rejectedDelivery
        · exact hkept (d.loaded, d.claim) rfl rfl hholds
    | threw d error hstage heq =>
        rw [hstage] at hkept hholds
        rw [heq]
        exact fun _ => hkept (d.loaded, d.claim) rfl rfl hholds

/-- In a run whose sweeps spare the claim of an execution, the claim is current until the execution
records an outcome. -/
theorem holdsRow_of_reachable (h : (system config).Reachable (SparesClaim config i) s) :
    (s.stageOf i).HoldsRow s.database := by
  apply h.invariant_of_reachable (I := fun s => (s.stageOf i).HoldsRow s.database)
  · rintro s ⟨-, -, -, -, -, -, hexecutions⟩
    rw [stageOf, hexecutions]
    exact trivial
  · intro s event t hreach hspares hstep hholds
    exact holdsRow_step hreach hspares hstep hholds

/-- What `recordFailure` does when the database answers: it commits, and the execution goes on with
its result. -/
theorem recordFailure_of_step (hreach : (system config).Reachable P s) {job : Job}
    (hjob : s.jobOf? i = some job) {d : Sending} {error : ThrownValue}
    (hstage : s.stageOf i = .recordingFailure d error) {input : StepInput}
    (hreply : input.reply = .done) (h : (system config).step (.advance i input) s = some t) :
    ∃ result, recordFailure config s.database d.claim (classifyDeliveryError error) job.finalRetry
        error input.now = .ok (result, t.database) ∧
      t.stageOf i = afterFailure d (.ok result) := by
  obtain ⟨x, stage', w, hx, hxstage, hadvance, rfl⟩ := step_advance config h
  rw [jobOf?_of_getElem? hx, Option.some.injEq] at hjob
  obtain ⟨a, ha, htoken, -⟩ := (logInv_of_reachable hreach).claims i (d.loaded, d.claim)
    (by rw [hstage]; rfl)
  obtain ⟨result, db, hok⟩ := recordFailure_isOk config
    (List.any_eq_true.2 ⟨a, ha, decide_eq_true htoken⟩) (classifyDeliveryError error)
    job.finalRetry error input.now
  have hlt : i < s.executions.length := (List.getElem?_eq_some_iff.1 hx).1
  rw [← hxstage, hstage, hjob] at hadvance
  cases hadvance
  have hdeliver : input.reply.deliver s.database (recordFailure config s.database d.claim
      (classifyDeliveryError error) job.finalRetry error input.now) = (.ok result, db) := by
    rw [hreply, hok]
    rfl
  refine ⟨result, ?_, ?_⟩
  · show _ = Except.ok (result, (input.reply.deliver s.database _).2)
    rw [hdeliver]
    exact hok
  · refine (stageOf_moveTo_self hlt).trans ?_
    show afterFailure d (input.reply.deliver s.database _).1 = _
    rw [hdeliver]

/-- The processor has left the email for another attempt: the row waits for a later time, the
attempt is logged as a failure that can pass, and BullMQ runs the job again. -/
structure RetryScheduled (job : Job) (i : Nat) (claim : ClaimedEmail) (now : Int) (s : Delivery) :
    Prop where
  row : s.database.RowHas claim.id fun e => e.status = .retryable ∧ now < e.nextAttemptAt
  not_ended : ∀ e ∈ s.database.emails, e.id = claim.id →
    e.status ≠ .failed ∧ e.status ≠ .deliveryUnknown
  attempt : ∃ a ∈ s.database.attempts,
    a.attemptToken = claim.processingToken ∧ a.outcome = .transientFailure
  rerun : ∃ outcome, s.stageOf i = .finished outcome ∧ job.verdict outcome = .retried

/-- A transient failure that is not the last retry is recorded as one that can pass. -/
theorem retryScheduled_of_transient (hreach : (system config).Reachable P s) {job : Job}
    (hmore : job.attemptsMade + 1 < job.maxAttempts) {d : Sending} {error : ThrownValue}
    (hcurrent : Current s.database d.claim) {finalRetry : Bool} (hfinal : finalRetry = false)
    {now : Int} {result : FailureResult} (hclass : classifyDeliveryError error = .transient)
    (hok : recordFailure config s.database d.claim
    (classifyDeliveryError error) finalRetry error now =
      .ok (result, t.database)) (hattempt : ∃ a ∈ s.database.attempts,
        a.attemptToken = d.claim.processingToken)
    (hstage : t.stageOf i = afterFailure d (.ok result)) :
    RetryScheduled job i d.claim now t := by
  obtain ⟨hresult, hdb⟩ := recordFailure_eq_ok hok
  have hretryable : result = .retryable := by
    rw [hresult, hclass, hfinal]
    rfl
  subst hretryable
  obtain ⟨e, he, hheld⟩ := hcurrent
  obtain ⟨hid, -, -⟩ := heldBy_iff.1 hheld
  have hemails := congrArg Database.emails hdb
  have hattempts := congrArg Database.attempts hdb
  dsimp only at hemails hattempts
  -- The update meets the row of the claim, and ids do not repeat.
  have hrow : ∀ e' ∈ t.database.emails, e'.id = d.claim.id →
      e' = failRow config .retryable (safeError (classifyDeliveryError error) error) now e := by
    intro e' he' hid'
    rw [hemails] at he'
    obtain ⟨r, hr, rfl⟩ := mem_updateMany.1 he'
    have hrid : r.id = d.claim.id := by
      split_ifs at hid' <;> exact hid'
    rw [(primaryKey_emails hreach).eq_of_key_eq hr he (hrid.trans hid.symm), if_pos hheld]
  have hbackoff := config.one_le_smtpBackoffMs
  constructor
  · refine ⟨failRow config .retryable
      (safeError (classifyDeliveryError error) error) now e, ?_, hid,
      rfl, ?_⟩
    · rw [hemails]
      exact mem_updateMany.2 ⟨e, he, by rw [if_pos hheld]⟩
    · show now < now + config.smtpBackoffMs
      omega
  · intro e' he' hid'
    rw [hrow e' he' hid']
    exact ⟨by simp [failRow, FailureResult.status], by simp [failRow, FailureResult.status]⟩
  · obtain ⟨a, ha, htoken⟩ := hattempt
    refine ⟨failAttempt .retryable
      (safeError (classifyDeliveryError error) error) now a, ?_, htoken,
      rfl⟩
    rw [hattempts]
    exact mem_updateMany.2 ⟨a, ha, by rw [if_pos (decide_eq_true htoken)]⟩
  · exact ⟨_, hstage, if_pos hmore⟩

/-- A permanent failure ends the email. -/
theorem not_retryScheduled_of_permanent {job : Job} {d : Sending} {error : ThrownValue}
    (hcurrent : Current s.database d.claim) {finalRetry : Bool} {now : Int} {result : FailureResult}
    (hclass : classifyDeliveryError error = .permanent)
    (hok : recordFailure config s.database d.claim
    (classifyDeliveryError error) finalRetry error now =
      .ok (result, t.database)) : ¬ RetryScheduled job i d.claim now t := by
  intro hscheduled
  obtain ⟨hresult, hdb⟩ := recordFailure_eq_ok hok
  obtain ⟨e, he, hheld⟩ := hcurrent
  obtain ⟨hid, -, -⟩ := heldBy_iff.1 hheld
  have hfailed : result = .failed := by
    rw [hresult, hclass]
    cases finalRetry <;> rfl
  subst hfailed
  refine (hscheduled.not_ended (failRow config .failed
    (safeError (classifyDeliveryError error) error) now e) ?_ hid).1 rfl
  rw [hdb]
  exact mem_updateMany.2 ⟨e, he, by rw [if_pos hheld]⟩

/-- **Temporary refusals.** An execution whose job has attempts left throws a temporary reply out of
`mailer.send`, and nothing sweeps its claim before the failure is recorded. The email is left for
another attempt exactly when the error's `code` is neither of the two that mean a permanent
failure. -/
theorem retryScheduled_iff {job : Job} {d : Sending} {error : ThrownValue} {input : StepInput}
    (hreach : (system config).Reachable (SparesClaim config i) s) (hjob : s.jobOf? i = some job)
    (hmore : job.attemptsMade + 1 < job.maxAttempts) (htemporary : error.IsTemporary)
    (hthrow : (system config).step (.sendThrows i error) s = some t)
    (hrun : (system config).Steps (SparesClaim config i) t u)
    (hwaiting : u.stageOf i = .recordingFailure d error)
    (hrecord : (system config).step (.advance i input) u = some v) (hreply : input.reply = .done) :
    RetryScheduled job i d.claim input.now v ↔
      smtpCode error ≠ some "EAUTH" ∧ smtpCode error ≠ some "EENVELOPE" := by
  have hreach' : (system config).Reachable (SparesClaim config i) u :=
    (hreach.trans (.single (l := .sendThrows i error) trivial hthrow)).trans hrun
  have hjob' : u.jobOf? i = some job := by
    apply hrun.invariant (I := fun s => s.jobOf? i = some job) (jobOf?_eq_of_step hthrow hjob)
    intro s event t _ hstep hkept
    exact jobOf?_eq_of_step hstep hkept
  have hcurrent : Current u.database d.claim := by
    have hholds := holdsRow_of_reachable hreach'
    rw [hwaiting] at hholds
    exact hholds htemporary
  obtain ⟨result, hok, hstage⟩ := recordFailure_of_step hreach' hjob' hwaiting hreply hrecord
  obtain ⟨a, ha, htoken, -⟩ := (logInv_of_reachable hreach').claims i (d.loaded, d.claim)
    (by rw [hwaiting]; rfl)
  have hfinal : job.finalRetry = false := by
    rw [Job.finalRetry, decide_eq_false_iff_not]
    exact Nat.not_le.2 hmore
  have hclass := classify_of_isTemporary htemporary
  rw [← hasCode_permanentCodes_eq_false]
  cases hcode : hasCode permanentCodes (smtpCode error) with
  | false =>
      rw [hcode] at hclass
      exact iff_of_true
        (retryScheduled_of_transient hreach' hmore hcurrent hfinal hclass hok
          ⟨a, ha, htoken⟩ hstage) rfl
  | true =>
      rw [hcode] at hclass
      exact iff_of_false (not_retryScheduled_of_permanent hcurrent hclass hok) Bool.noConfusion

/-- One email on its way through `mailer.send`. The job has three attempts. -/
def sendingEmail : List DeliveryEvent :=
  [.createBatch (requestFor ["lead@test.invalid"]) 10 (fun i => 100 + i), .deliver ⟨100, 0, some 3⟩,
    .advance 0 ⟨0, 0, .done⟩, .advance 0 ⟨0, 0, .done⟩, .advance 0 ⟨0, 70, .done⟩,
    .advance 0 ⟨0, 0, .done⟩]

/-- A server that asks to try again later, and a login that a server refuses for now. -/
def greylisted : ThrownValue := .object (.string "EMESSAGE") (.integer 451)

def loginRefused : ThrownValue := .object (.string "EAUTH") (.integer 454)

/-- A reconcile pass runs before the failure is recorded. -/
theorem retryScheduled_after_greylisted : ∃ s t u v,
    (system validConfig).run (SparesClaim validConfig 0) sendingEmail oneSenderStart = some s ∧
      (system validConfig).step (.sendThrows 0 greylisted) s = some t ∧
      (system validConfig).step (.sweep 500) t = some u ∧
      (system validConfig).step (.advance 0 ⟨1000, 0, .done⟩) u = some v ∧
      RetryScheduled ⟨100, 0, some 3⟩ 0 ⟨100, 10, 1, 70⟩ 1000 v := by
  refine ⟨_, _, _, _, rfl, rfl, rfl, rfl, ?_⟩
  have htemporary : greylisted.IsTemporary := ⟨451, rfl, by decide, by decide⟩
  have hreply : (StepInput.mk 1000 0 .done).reply = .done := rfl
  refine (retryScheduled_iff (i := 0) (reachable_from_oneSender sendingEmail rfl) rfl ?_ htemporary
    rfl (.single (l := .sweep 500) ?_ rfl) rfl rfl hreply).2 ?_
  · decide
  · decide
  · exact ⟨by decide, by decide⟩

/-- A refused login carries `EAUTH` besides its reply, so the email is given up. -/
theorem not_retryScheduled_after_loginRefused : ∃ s,
    (system validConfig).run (SparesClaim validConfig 0)
        (sendingEmail ++ [.sendThrows 0 loginRefused, .advance 0 ⟨1000, 0, .done⟩]) oneSenderStart =
      some s ∧
    loginRefused.IsTemporary ∧ Job.finalRetry ⟨100, 0, some 3⟩ = false ∧
    s.database.emails.map ScheduledEmail.status = [.failed] ∧
    s.database.attempts.map SendAttempt.outcome = [.definiteFailure] ∧
    ¬ RetryScheduled ⟨100, 0, some 3⟩ 0 ⟨100, 10, 1, 70⟩ 1000 s := by
  refine ⟨_, rfl, ⟨454, rfl, by decide, by decide⟩, by decide, by decide, by decide, ?_⟩
  intro hscheduled
  exact (hscheduled.not_ended _ (List.mem_singleton_self _) rfl).1 rfl

end Delivery

end EmailScheduler
