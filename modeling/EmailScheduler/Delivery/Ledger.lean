import EmailScheduler.Delivery.Rows

/-!
# Rows and their attempts

A scheduled email and its `SendAttempt` rows form an account. `AccountStep` lists what a step of the
delivery system does to an account, with the execution or sweep that does it; every fact about rows
and attempts together is an invariant of accounts, by `account_invariant`.

`LogInv` is what makes accounts independent of each other: an attempt token occurs once, and the
claim of an execution is logged on the email it was made on. So an update of the attempt with a
token touches the account of one email only.
-/

set_option autoImplicit false

namespace EmailScheduler

open Foundation

/-- The attempts of an email, oldest first. -/
def Database.attemptsOf (db : Database) (emailId : Uuid) : List SendAttempt :=
  db.attempts.filter fun a => decide (a.scheduledEmailId = emailId)

/-- An email with its attempts. -/
structure Account where
  email : ScheduledEmail
  attempts : List SendAttempt

/-- The account of a row. -/
def Database.account (db : Database) (e : ScheduledEmail) : Account := ⟨e, db.attemptsOf e.id⟩

/-- The update of the attempt with a token. -/
def updateAttempt (token : Uuid) (data : SendAttempt → SendAttempt) (attempts : List SendAttempt) :
    List SendAttempt :=
  updateMany (fun a => decide (a.attemptToken = token)) data attempts

/-! ## Attempts of one email -/

section Attempts

variable {db db' : Database} {id token : Uuid} {data : SendAttempt → SendAttempt}

theorem mem_attemptsOf {a : SendAttempt} :
    a ∈ db.attemptsOf id ↔ a ∈ db.attempts ∧ a.scheduledEmailId = id := by
  simp [Database.attemptsOf]

theorem attemptsOf_congr (h : db'.attempts = db.attempts) :
    db'.attemptsOf id = db.attemptsOf id := by
  rw [Database.attemptsOf, Database.attemptsOf, h]

theorem attemptsOf_append {a : SendAttempt} (h : db'.attempts = db.attempts ++ [a]) :
    db'.attemptsOf id = db.attemptsOf id ++ if a.scheduledEmailId = id then [a] else [] := by
  rw [Database.attemptsOf, h, List.filter_append, Database.attemptsOf]
  congr 1
  by_cases hid : a.scheduledEmailId = id <;> simp [hid]

theorem mem_updateAttempt {attempts : List SendAttempt} {a : SendAttempt}
    (h : a ∈ updateAttempt token data attempts) :
    (a ∈ attempts ∧ a.attemptToken ≠ token) ∨
      ∃ b ∈ attempts, b.attemptToken = token ∧ a = data b := by
  obtain ⟨b, hb, rfl⟩ := mem_updateMany.1 h
  by_cases htoken : b.attemptToken = token
  · exact Or.inr ⟨b, hb, htoken, by simp [htoken]⟩
  · exact Or.inl (by simpa [htoken] using hb)

theorem mem_updateAttempt_of_ne {attempts : List SendAttempt} {a : SendAttempt} (ha : a ∈ attempts)
    (hne : a.attemptToken ≠ token) : a ∈ updateAttempt token data attempts :=
  mem_updateMany.2 ⟨a, ha, by simp [hne]⟩

theorem map_updateAttempt {β : Type} (g : SendAttempt → β) (hg : ∀ a, g (data a) = g a)
    (attempts : List SendAttempt) : (updateAttempt token data attempts).map g = attempts.map g :=
  map_updateMany g hg attempts

/-- An update by token acts on the attempts of every email by itself. -/
theorem attemptsOf_updateAttempt (hdata : ∀ a, (data a).scheduledEmailId = a.scheduledEmailId)
    (h : db'.attempts = updateAttempt token data db.attempts) :
    db'.attemptsOf id = updateAttempt token data (db.attemptsOf id) := by
  rw [Database.attemptsOf, h]
  exact filter_updateMany (fun a => by rw [hdata a]) db.attempts

end Attempts

/-! ## Who commits what -/

namespace Delivery

/-- **What a step commits.** The transaction of an execution, the sweep, or a new batch; every other
step leaves the emails and the attempts as they are. -/
inductive CommitStep (config : AppConfig) (s : Delivery) (event : DeliveryEvent) (db : Database) :
    Prop where
  | quiet : db.emails = s.database.emails → db.attempts = s.database.attempts →
      CommitStep config s event db
  | deferred {i : Nat} {input : StepInput} {loaded : LoadedEmail} {nextAvailableAt now : Int} :
      event = .advance i input → s.stageOf i = .recordingRateLimit loaded nextAvailableAt now →
      recordRateLimit s.database loaded.email.id nextAvailableAt now input.token = .ok ((), db) →
      CommitStep config s event db
  | claimed {i : Nat} {input : StepInput} {loaded : LoadedEmail} {now : Int}
      {claim : Option ClaimedEmail} :
      event = .advance i input → s.stageOf i = .claiming loaded now →
      claimEmail s.database loaded.email.id now input.token = .ok (claim, db) →
      CommitStep config s event db
  | accepted {i : Nat} {input : StepInput} {d : Sending} {receipt : DeliveryReceipt} :
      event = .advance i input → s.stageOf i = .recordingAccepted d receipt →
      recordAccepted s.database d.claim receipt input.now = .ok ((), db) →
      CommitStep config s event db
  | failed {i : Nat} {input : StepInput} {x : Execution} {d : Sending} {error : ThrownValue}
      {result : FailureResult} :
      event = .advance i input → s.executions[i]? = some x →
      s.stageOf i = .recordingFailure d error → input.reply.commits = true →
      recordFailure config s.database d.claim (classifyDeliveryError error) x.job.finalRetry error
        input.now = .ok (result, db) →
      CommitStep config s event db
  | swept {now : Int} : event = .sweep now → db = (sweepStaleLeases config s.database now).2 →
      CommitStep config s event db
  | created {input : CreateBatchInput} {batchId : Uuid} {newId : Nat → Uuid} {batch : EmailBatch} :
      event = .createBatch input batchId newId →
      createBatchTransaction s.database input batchId newId = .ok (batch, db) →
      CommitStep config s event db

variable {config : AppConfig} {P : Delivery → DeliveryEvent → Prop} {s t : Delivery}
  {event : DeliveryEvent}

theorem commitStep_of_step (h : (system config).step event s = some t) :
    CommitStep config s event t.database := by
  have hquiet : CommitStep config s event s.database := .quiet rfl rfl
  cases stepCase_of_step h with
  | deliver job => exact hquiet
  | @advance i input x stage' w hx hstage hadvance =>
      show CommitStep config s (.advance i input) w.database
      cases hcase : x.stage with
      | recordingRateLimit loaded nextAvailableAt now =>
          rw [hcase] at hadvance hstage
          cases hadvance
          exact Reply.deliver_snd _ _ _ (R := CommitStep config s _) hquiet fun _ _ hok =>
            .deferred rfl hstage hok
      | claiming loaded now =>
          rw [hcase] at hadvance hstage
          cases hadvance
          exact Reply.deliver_snd _ _ _ (R := CommitStep config s _) hquiet fun _ _ hok =>
            .claimed rfl hstage hok
      | recordingAccepted d receipt =>
          rw [hcase] at hadvance hstage
          cases hadvance
          exact Reply.deliver_snd _ _ _ (R := CommitStep config s _) hquiet fun _ _ hok =>
            .accepted rfl hstage hok
      | recordingFailure d error =>
          rw [hcase] at hadvance hstage
          cases hadvance
          exact Reply.deliver_snd_of_commits _ _ _ (R := CommitStep config s _) hquiet
            fun _ _ hcommits hok => .failed rfl hx hstage hcommits hok
      | labelling d recorded unsuccessful =>
          -- The label is written on the batch only.
          rw [hcase] at hadvance
          cases hadvance
          refine Reply.deliver_snd _ _ _ (R := CommitStep config s _) hquiet fun _ db hok => ?_
          have hdb := labelBatch_eq_ok hok
          exact .quiet (by rw [hdb]) (by rw [hdb])
      | sending d => rw [hcase] at hadvance; cases hadvance
      | finished outcome => rw [hcase] at hadvance; cases hadvance
      | crashed => rw [hcase] at hadvance; cases hadvance
      | loading => rw [hcase] at hadvance; cases hadvance; exact hquiet
      | delaying availableAt => rw [hcase] at hadvance; cases hadvance; exact hquiet
      | reserving loaded now => rw [hcase] at hadvance; cases hadvance; exact hquiet
      | claimed loaded claim now => rw [hcase] at hadvance; cases hadvance; exact hquiet
      | countingRemaining d recorded => rw [hcase] at hadvance; cases hadvance; exact hquiet
      | countingUnsuccessful d recorded => rw [hcase] at hadvance; cases hadvance; exact hquiet
  | sendReturns hstage hreceipt => exact hquiet
  | sendRefused hstage htransient hpending => exact hquiet
  | sendThrows hstage htransient => exact hquiet
  | smtpAccepts hpending => exact hquiet
  | crash hrunning => exact hquiet
  | sweep now => exact .swept rfl rfl
  | createBatch hleads hok => exact .created rfl hok
  | updateSender sender => exact .quiet rfl rfl
  | seed => exact hquiet
  | tick hclock => exact hquiet

/-! ## The log -/

/-- Attempt tokens are unique, an attempt belongs to an email, and the claim of an execution is
logged on the email it was made on. -/
structure LogInv (s : Delivery) : Prop where
  tokens : PrimaryKey SendAttempt.attemptToken s.database.attempts
  owners : ∀ a ∈ s.database.attempts, ∃ e ∈ s.database.emails, e.id = a.scheduledEmailId
  claims : ∀ i p, (s.stageOf i).delivery? = some p →
    ∃ a ∈ s.database.attempts,
      a.attemptToken = p.2.processingToken ∧ a.scheduledEmailId = p.2.id

/-- What a step does to the attempts: one is added under a fresh token on an existing row, or the
attempts are rewritten without changing their tokens and emails. -/
inductive AttemptsStep (db db' : Database) : Prop where
  | logged (a : SendAttempt) : (∀ b ∈ db.attempts, b.attemptToken ≠ a.attemptToken) →
      (∃ e ∈ db.emails, e.id = a.scheduledEmailId) → db'.attempts = db.attempts ++ [a] →
      AttemptsStep db db'
  | rewritten (f : SendAttempt → SendAttempt) : (∀ a, (f a).attemptToken = a.attemptToken) →
      (∀ a, (f a).scheduledEmailId = a.scheduledEmailId) →
      db'.attempts = db.attempts.map f → AttemptsStep db db'

theorem AttemptsStep.of_updateAttempt {db db' : Database} {token : Uuid}
    (data : SendAttempt → SendAttempt) (htoken : ∀ a, (data a).attemptToken = a.attemptToken)
    (hemail : ∀ a, (data a).scheduledEmailId = a.scheduledEmailId)
    (h : db'.attempts = updateAttempt token data db.attempts) : AttemptsStep db db' := by
  refine .rewritten (fun a => if decide (a.attemptToken = token) then data a else a) ?_ ?_ h
  · intro a
    split
    · exact htoken a
    · rfl
  · intro a
    split
    · exact hemail a
    · rfl

theorem attemptsStep_of_commitStep {db : Database} (h : CommitStep config s event db) :
    AttemptsStep s.database db := by
  have hsame : ∀ {db' : Database}, db'.attempts = s.database.attempts →
      AttemptsStep s.database db' := by
    intro db' heq
    exact .rewritten id (fun _ => rfl) (fun _ => rfl) (by rw [heq, List.map_id])
  cases h with
  | quiet _ hattempts => exact hsame hattempts
  | deferred _ _ hok =>
      rcases recordRateLimit_eq_ok hok with rfl | ⟨row, hrow, -, hfresh, rfl⟩
      · exact hsame rfl
      · exact .logged _ hfresh ⟨row, hrow, rfl⟩ rfl
  | @claimed _ _ _ _ claim _ _ hok =>
      cases claim with
      | none => exact hsame (by rw [(claimEmail_eq_ok_none hok).1])
      | some claim =>
          obtain ⟨row, hrow, -, -, hfresh, rfl⟩ := claimEmail_eq_ok_some hok
          exact .logged _ hfresh ⟨row, hrow, rfl⟩ rfl
  | accepted _ _ hok =>
      exact .of_updateAttempt (acceptAttempt _ _) (fun _ => rfl) (fun _ => rfl)
        (by rw [(recordAccepted_eq_ok hok).2]; rfl)
  | failed _ _ _ _ hok =>
      exact .of_updateAttempt (failAttempt _ _ _) (fun _ => rfl) (fun _ => rfl)
        (by rw [(recordFailure_eq_ok hok).2]; rfl)
  | swept _ hdb => exact hsame (by rw [hdb]; rfl)
  | created _ hok =>
      obtain ⟨-, -, -, -, -, rfl⟩ := createBatchTransaction_eq_ok hok
      exact hsame rfl

/-- An attempt stays, under its token and on its email. -/
theorem AttemptsStep.exists_of_mem {db db' : Database} (h : AttemptsStep db db') {a : SendAttempt}
    (ha : a ∈ db.attempts) : ∃ b ∈ db'.attempts, b.attemptToken = a.attemptToken ∧
      b.scheduledEmailId = a.scheduledEmailId := by
  cases h with
  | logged new _ _ heq => exact ⟨a, by rw [heq]; exact List.mem_append_left _ ha, rfl, rfl⟩
  | rewritten f htoken hemail heq =>
      exact ⟨f a, by rw [heq]; exact List.mem_map_of_mem ha, htoken a, hemail a⟩

theorem AttemptsStep.tokens {db db' : Database} (h : AttemptsStep db db')
    (htokens : PrimaryKey SendAttempt.attemptToken db.attempts) :
    PrimaryKey SendAttempt.attemptToken db'.attempts := by
  cases h with
  | logged new hfresh _ heq =>
      rw [heq]
      refine htokens.append (List.nodup_singleton new.attemptToken) ?_
      intro a ha b hb
      rw [List.mem_singleton.1 hb]
      exact hfresh a ha
  | rewritten f htoken _ heq =>
      have hkeys : (db.attempts.map f).map SendAttempt.attemptToken =
          db.attempts.map SendAttempt.attemptToken := by
        rw [List.map_map]
        exact List.map_congr_left fun a _ => htoken a
      rw [heq, PrimaryKey, hkeys]
      exact htokens

theorem logInv_init (h : (system config).init s) : LogInv s := by
  obtain ⟨-, -, hattempts, -, -, -, hexecutions⟩ := h
  refine ⟨?_, ?_, ?_⟩
  · rw [hattempts]
    exact List.nodup_nil
  · intro a ha
    rw [hattempts] at ha
    cases ha
  · intro i p hp
    rw [stageOf, hexecutions] at hp
    cases hp

theorem logInv_step (hinv : LogInv s) (h : (system config).step event s = some t) : LogInv t := by
  have hattempts := attemptsStep_of_commitStep (commitStep_of_step h)
  refine ⟨hattempts.tokens hinv.tokens, ?_, ?_⟩
  · intro a ha
    have howner : ∃ e ∈ s.database.emails, e.id = a.scheduledEmailId := by
      cases hattempts with
      | logged new _ howner heq =>
          rw [heq, List.mem_append, List.mem_singleton] at ha
          rcases ha with ha | rfl
          · exact hinv.owners a ha
          · exact howner
      | rewritten f _ hemail heq =>
          rw [heq] at ha
          obtain ⟨b, hb, rfl⟩ := List.mem_map.1 ha
          rw [hemail]
          exact hinv.owners b hb
    exact exists_email_of_step h howner
  · intro i p hp
    rcases (stageStep_of_step h i).delivery? hp with hold | ⟨now, token, -, hclaim⟩
    · -- The claim was there before, and its attempt stays.
      obtain ⟨a, ha, htoken, hemail⟩ := hinv.claims i p hold
      obtain ⟨b, hb, hbtoken, hbemail⟩ := hattempts.exists_of_mem ha
      exact ⟨b, hb, hbtoken.trans htoken, hbemail.trans hemail⟩
    · -- The claim has just been committed together with its attempt.
      obtain ⟨row, -, -, hclaimed, -, hdb⟩ := claimEmail_eq_ok_some hclaim
      refine ⟨claimAttempt (claimRow token now row) now token, ?_, ?_, ?_⟩
      · rw [hdb]
        exact List.mem_append_right _ (List.mem_singleton_self _)
      · rw [hclaimed]
        rfl
      · rw [hclaimed]
        rfl

theorem logInv_of_reachable (h : (system config).Reachable P s) : LogInv s :=
  h.invariant (fun _ hs => logInv_init hs) fun _ _ _ _ hstep hinv => logInv_step hinv hstep

/-- The attempt with the token of a claim is an attempt of the claimed email. -/
theorem LogInv.claim_id_eq (hinv : LogInv s) {i : Nat} {p : LoadedEmail × ClaimedEmail}
    (hp : (s.stageOf i).delivery? = some p) {a : SendAttempt} (ha : a ∈ s.database.attempts)
    (htoken : a.attemptToken = p.2.processingToken) : a.scheduledEmailId = p.2.id := by
  obtain ⟨b, hb, hbtoken, hbid⟩ := hinv.claims i p hp
  rw [hinv.tokens.eq_of_key_eq ha hb (htoken.trans hbtoken.symm)]
  exact hbid

/-! ## What a step does to an account -/

/-- **A change of one account.** One case for each way in which a row or its attempts change, with
the event that brings it about. In `failedLate` the claim no longer holds its row, but its attempt
is rewritten all the same. -/
inductive AccountStep (config : AppConfig) (s : Delivery) (event : DeliveryEvent) (c : Account) :
    Account → Prop where
  | keep : AccountStep config s event c c
  | deferred {i : Nat} {input : StepInput} {loaded : LoadedEmail} {nextAvailableAt now : Int} :
      event = .advance i input → s.stageOf i = .recordingRateLimit loaded nextAvailableAt now →
      loaded.email.id = c.email.id → c.email.status.isOpen = true →
      AccountStep config s event c ⟨deferRow nextAvailableAt c.email,
        c.attempts ++ [deferAttempt (deferRow nextAvailableAt c.email) now input.token]⟩
  | claimed {i : Nat} {input : StepInput} {loaded : LoadedEmail} {now : Int} :
      event = .advance i input → s.stageOf i = .claiming loaded now →
      loaded.email.id = c.email.id → c.email.status.isOpen = true →
      c.email.processingToken = none →
      (∀ a ∈ s.database.attempts, a.attemptToken ≠ input.token) →
      AccountStep config s event c ⟨claimRow input.token now c.email,
        c.attempts ++ [claimAttempt (claimRow input.token now c.email) now input.token]⟩
  | accepted {i : Nat} {input : StepInput} {d : Sending} {receipt : DeliveryReceipt} :
      event = .advance i input → s.stageOf i = .recordingAccepted d receipt →
      heldBy d.claim c.email = true →
      AccountStep config s event c ⟨acceptRow receipt input.now c.email,
        updateAttempt d.claim.processingToken (acceptAttempt receipt input.now) c.attempts⟩
  | failed {i : Nat} {input : StepInput} {x : Execution} {d : Sending} {error : ThrownValue}
      {result : FailureResult} :
      event = .advance i input → s.executions[i]? = some x →
      s.stageOf i = .recordingFailure d error → input.reply.commits = true →
      result = failureResult (classifyDeliveryError error) x.job.finalRetry →
      heldBy d.claim c.email = true →
      AccountStep config s event c
        ⟨failRow config result (safeError (classifyDeliveryError error) error) input.now c.email,
          updateAttempt d.claim.processingToken
            (failAttempt result (safeError (classifyDeliveryError error) error) input.now)
            c.attempts⟩
  | failedLate {i : Nat} {input : StepInput} {d : Sending} {error : ThrownValue}
      {result : FailureResult} :
      event = .advance i input → s.stageOf i = .recordingFailure d error →
      input.reply.commits = true → d.claim.id = c.email.id → heldBy d.claim c.email = false →
      AccountStep config s event c ⟨c.email, updateAttempt d.claim.processingToken
        (failAttempt result (safeError (classifyDeliveryError error) error) input.now) c.attempts⟩
  | abandoned {now : Int} : event = .sweep now → isStale config now c.email = true →
      AccountStep config s event c ⟨abandonRow c.email, c.attempts⟩

theorem AccountStep.id_eq {c c' : Account} (h : AccountStep config s event c c') :
    c'.email.id = c.email.id := by
  cases h <;> rfl

/-- A row created by a step, without attempts. -/
def NewAccount (event : DeliveryEvent) (c : Account) : Prop :=
  ∃ input batchId newId, event = .createBatch input batchId newId ∧
    c.email ∈ emailRows input batchId newId ∧ c.attempts = []

section Accounts

variable {db : Database} {f : ScheduledEmail → ScheduledEmail} {g : SendAttempt → SendAttempt}
  {e' : ScheduledEmail}

/-- Attempts that stay give accounts that stay. -/
theorem account_congr (h : db.attempts = s.database.attempts) (e : ScheduledEmail) :
    db.account e = s.database.account e := by
  rw [Database.account, Database.account, attemptsOf_congr h]

/-- A row of an updated table is an updated row, or a row that the update did not match. -/
theorem updated_cases {p : ScheduledEmail → Bool}
    (h : db.emails = updateMany p f s.database.emails) (he' : e' ∈ db.emails) :
    (∃ e ∈ s.database.emails, p e = true ∧ e' = f e) ∨
      (e' ∈ s.database.emails ∧ p e' = false) := by
  rw [h] at he'
  obtain ⟨e, he, rfl⟩ := mem_updateMany.1 he'
  cases hp : p e with
  | true => exact Or.inl ⟨e, he, hp, by simp⟩
  | false => exact Or.inr ⟨by simpa using he, by simpa using hp⟩

/-- An update of one row that logs an attempt on it leaves the other accounts as they are. -/
theorem account_of_logged (hkey : PrimaryKey ScheduledEmail.id s.database.emails)
    {p : ScheduledEmail → Bool} {row : ScheduledEmail} {a : SendAttempt}
    (hrow : row ∈ s.database.emails) (hmatch : p row = true) (hp : ∀ e, p e = true → e.id = row.id)
    (ha : a.scheduledEmailId = row.id) (hf : (f row).id = row.id)
    (hemails : db.emails = updateMany p f s.database.emails)
    (hattempts : db.attempts = s.database.attempts ++ [a]) (he' : e' ∈ db.emails) :
    db.account e' = ⟨f row, s.database.attemptsOf row.id ++ [a]⟩ ∨
      (e' ∈ s.database.emails ∧ db.account e' = s.database.account e') := by
  rcases updated_cases hemails he' with ⟨e, he, hpe, rfl⟩ | ⟨he, hpe⟩
  · left
    have hsame : e = row := hkey.eq_of_key_eq he hrow (hp e hpe)
    rw [hsame, Database.account, attemptsOf_append hattempts, hf, if_pos ha]
  · right
    refine ⟨he, ?_⟩
    have hne : a.scheduledEmailId ≠ e'.id := by
      intro hid
      have hsame : row = e' := hkey.eq_of_key_eq hrow he (ha.symm.trans hid)
      rw [hsame, hpe] at hmatch
      cases hmatch
    rw [Database.account, attemptsOf_append hattempts, if_neg hne, List.append_nil,
      Database.account]

/-- An update of the attempt of a claim leaves the accounts of the other emails. -/
theorem account_of_claim_ne (hlog : LogInv s) {i : Nat} {d : LoadedEmail × ClaimedEmail}
    (hd : (s.stageOf i).delivery? = some d)
    (hdata : ∀ a, (g a).scheduledEmailId = a.scheduledEmailId)
    (h : db.attempts = updateAttempt d.2.processingToken g s.database.attempts)
    {e : ScheduledEmail} (hne : d.2.id ≠ e.id) : db.account e = s.database.account e := by
  have hnone : ∀ a ∈ s.database.attemptsOf e.id,
      decide (a.attemptToken = d.2.processingToken) = false := by
    intro a ha
    obtain ⟨ha, hid⟩ := mem_attemptsOf.1 ha
    rw [decide_eq_false_iff_not]
    intro htoken
    exact hne ((hlog.claim_id_eq hd ha htoken).symm.trans hid)
  rw [Database.account, attemptsOf_updateAttempt hdata h, updateAttempt, updateMany_of_none hnone,
    Database.account]

/-- Recording an outcome rewrites the row that the claim holds, and the attempt of the claim on the
claimed email, held or not. -/
theorem account_of_recorded (hlog : LogInv s) {i : Nat} {d : LoadedEmail × ClaimedEmail}
    (hd : (s.stageOf i).delivery? = some d)
    (hdata : ∀ a, (g a).scheduledEmailId = a.scheduledEmailId) (hf : ∀ e, (f e).id = e.id)
    (hemails : db.emails = updateMany (heldBy d.2) f s.database.emails)
    (hattempts : db.attempts = updateAttempt d.2.processingToken g s.database.attempts)
    (he' : e' ∈ db.emails) :
    (∃ e ∈ s.database.emails, heldBy d.2 e = true ∧
        db.account e' = ⟨f e, updateAttempt d.2.processingToken g
          (s.database.attemptsOf e.id)⟩) ∨
      (e' ∈ s.database.emails ∧ heldBy d.2 e' = false ∧
        ((d.2.id = e'.id ∧ db.account e' = ⟨e', updateAttempt d.2.processingToken g
            (s.database.attemptsOf e'.id)⟩) ∨
          (d.2.id ≠ e'.id ∧ db.account e' = s.database.account e'))) := by
  rcases updated_cases hemails he' with ⟨e, he, hheld, rfl⟩ | ⟨he, hheld⟩
  · left
    refine ⟨e, he, hheld, ?_⟩
    rw [Database.account, attemptsOf_updateAttempt hdata hattempts, hf]
  · right
    refine ⟨he, hheld, ?_⟩
    by_cases hid : d.2.id = e'.id
    · left
      exact ⟨hid, by rw [Database.account, attemptsOf_updateAttempt hdata hattempts]⟩
    · right
      exact ⟨hid, account_of_claim_ne hlog hd hdata hattempts hid⟩

end Accounts

/-- **Step rule for accounts.** A row after a step has the account it had before, changed by an
`AccountStep`, or it is new. -/
theorem accountStep_of_step (hlog : LogInv s)
    (hkey : PrimaryKey ScheduledEmail.id s.database.emails)
    (h : (system config).step event s = some t) {e' : ScheduledEmail}
    (he' : e' ∈ t.database.emails) :
    (∃ e ∈ s.database.emails, AccountStep config s event (s.database.account e)
        (t.database.account e')) ∨ NewAccount event (t.database.account e') := by
  have hkeep : e' ∈ s.database.emails → t.database.account e' = s.database.account e' →
      ∃ e ∈ s.database.emails, AccountStep config s event (s.database.account e)
        (t.database.account e') := by
    intro he heq
    exact ⟨e', he, by rw [heq]; exact .keep⟩
  cases commitStep_of_step h with
  | quiet hemails hattempts =>
      rw [hemails] at he'
      exact Or.inl (hkeep he' (account_congr hattempts e'))
  | @deferred i input loaded nextAvailableAt now hevent hstage hok =>
      left
      rcases recordRateLimit_eq_ok hok with hdb | ⟨row, hrow, hmatch, -, hdb⟩
      · rw [hdb] at he'
        exact hkeep he' (by rw [hdb])
      · obtain ⟨hid, hopen⟩ := deferrable_iff.1 hmatch
        have hsame : ∀ e, deferrable loaded.email.id e = true → e.id = row.id :=
          fun e he => (deferrable_iff.1 he).1.trans hid.symm
        rcases account_of_logged hkey hrow hmatch hsame rfl rfl (by rw [hdb]) (by rw [hdb]) he' with
          heq | ⟨he, heq⟩
        · refine ⟨row, hrow, ?_⟩
          rw [heq]
          exact .deferred hevent hstage hid.symm hopen
        · exact hkeep he heq
  | @claimed i input loaded now claim hevent hstage hok =>
      left
      cases claim with
      | none =>
          have hdb := (claimEmail_eq_ok_none hok).1
          rw [hdb] at he'
          exact hkeep he' (by rw [hdb])
      | some claim =>
          obtain ⟨row, hrow, hmatch, -, hfresh, hdb⟩ := claimEmail_eq_ok_some hok
          obtain ⟨hid, htoken, hopen⟩ := claimable_iff.1 hmatch
          have hsame : ∀ e, claimable loaded.email.id e = true → e.id = row.id :=
            fun e he => (claimable_iff.1 he).1.trans hid.symm
          rcases account_of_logged hkey hrow hmatch hsame rfl rfl (by rw [hdb]) (by rw [hdb])
            he' with heq | ⟨he, heq⟩
          · refine ⟨row, hrow, ?_⟩
            rw [heq]
            exact .claimed hevent hstage hid.symm hopen htoken hfresh
          · exact hkeep he heq
  | @accepted i input d receipt hevent hstage hok =>
      left
      obtain ⟨⟨row, hrow, hheld⟩, hdb⟩ := recordAccepted_eq_ok hok
      have hclaim : (s.stageOf i).delivery? = some (d.loaded, d.claim) := by rw [hstage]; rfl
      rcases account_of_recorded (f := acceptRow receipt input.now)
        (g := acceptAttempt receipt input.now) hlog hclaim (fun _ => rfl) (fun _ => rfl)
        (by rw [hdb]) (by rw [hdb]; rfl) he' with
        ⟨e, he, hholds, heq⟩ | ⟨he, hfree, ⟨hid, -⟩ | ⟨-, heq⟩⟩
      · exact ⟨e, he, by rw [heq]; exact .accepted hevent hstage hholds⟩
      · -- The claim holds some row, so it holds the row with its id.
        have hsame : row = e' := hkey.eq_of_key_eq hrow he ((heldBy_iff.1 hheld).1.trans hid)
        rw [← hsame, hheld] at hfree
        cases hfree
      · exact hkeep he heq
  | @failed i input x d error result hevent hx hstage hcommits hok =>
      left
      obtain ⟨hresult, hdb⟩ := recordFailure_eq_ok hok
      have hclaim : (s.stageOf i).delivery? = some (d.loaded, d.claim) := by rw [hstage]; rfl
      rcases account_of_recorded
        (f := failRow config result (safeError (classifyDeliveryError error) error) input.now)
        (g := failAttempt result (safeError (classifyDeliveryError error) error) input.now)
        hlog hclaim (fun _ => rfl) (fun _ => rfl) (by rw [hdb]) (by rw [hdb]; rfl) he' with
        ⟨e, he, hholds, heq⟩ | ⟨he, hfree, ⟨hid, heq⟩ | ⟨-, heq⟩⟩
      · exact ⟨e, he, by rw [heq]; exact .failed hevent hx hstage hcommits hresult hholds⟩
      · exact ⟨e', he, by rw [heq]; exact .failedLate hevent hstage hcommits hid hfree⟩
      · exact hkeep he heq
  | @swept now hevent hdb =>
      left
      have hattempts : t.database.attempts = s.database.attempts := by rw [hdb]; rfl
      rcases updated_cases (s := s) (p := isStale config now) (f := abandonRow)
        (by rw [hdb]; rfl) he' with
        ⟨e, he, hstale, rfl⟩ | ⟨he, -⟩
      · refine ⟨e, he, ?_⟩
        rw [account_congr hattempts]
        exact .abandoned hevent hstale
      · exact hkeep he (account_congr hattempts e')
  | @created input batchId newId batch hevent hok =>
      obtain ⟨-, -, -, -, hnew, hdb⟩ := createBatchTransaction_eq_ok hok
      have hattempts : t.database.attempts = s.database.attempts := by rw [hdb]; rfl
      rw [hdb, List.mem_append] at he'
      rcases he' with hold | hrow
      · exact Or.inl (hkeep hold (account_congr hattempts e'))
      · refine Or.inr ⟨input, batchId, newId, hevent, hrow, ?_⟩
        -- No attempt is on the new id, because attempts belong to emails.
        rw [account_congr hattempts]
        refine List.eq_nil_iff_forall_not_mem.2 fun a ha => ?_
        obtain ⟨ha, hid⟩ := mem_attemptsOf.1 ha
        obtain ⟨e, he, heid⟩ := hlog.owners a ha
        exact id_ne_of_emailConflict (hnew e' hrow e he) (hid.symm.trans heid.symm)

/-- **Invariant rule for accounts.** What holds of a new row without attempts, and is kept by every
change of an account in a state reached, holds of every account in every state reached. -/
theorem account_invariant {I : Account → Prop} (h : (system config).Reachable P s)
    (hnew : ∀ input batchId newId, ∀ e ∈ emailRows input batchId newId, I ⟨e, []⟩)
    (hstep : ∀ s event c, (system config).Reachable P s → P s event → ∀ e ∈ s.database.emails,
      AccountStep config s event (s.database.account e) c → I (s.database.account e) → I c) :
    ∀ e ∈ s.database.emails, I (s.database.account e) := by
  refine h.invariant_of_reachable (I := fun s => ∀ e ∈ s.database.emails,
    I (s.database.account e)) ?_ ?_
  · rintro s ⟨-, hemails, -⟩ e he
    rw [hemails] at he
    cases he
  · intro s event t hreach hP hs hinv e' he'
    rcases accountStep_of_step (logInv_of_reachable hreach) (primaryKey_emails hreach) hs he' with
      ⟨e, he, hchange⟩ | ⟨input, batchId, newId, -, hrow, hattempts⟩
    · exact hstep s event _ hreach hP e he hchange (hinv e he)
    · have heq : t.database.account e' = ⟨e', []⟩ := congrArg (Account.mk e') hattempts
      rw [heq]
      exact hnew input batchId newId e' hrow

/-- The account of a row that was there before changes by an `AccountStep`. -/
theorem accountStep_of_mem (hreach : (system config).Reachable P s)
    (h : (system config).step event s = some t) {e : ScheduledEmail}
    (he : e ∈ s.database.emails) :
    ∃ e' ∈ t.database.emails, e'.id = e.id ∧
      AccountStep config s event (s.database.account e) (t.database.account e') := by
  have hkey := primaryKey_emails hreach
  obtain ⟨e', he', hid⟩ := exists_email_of_step h ⟨e, he, rfl⟩
  obtain ⟨f, new, hrows⟩ := emailsStep h
  refine ⟨e', he', hid, ?_⟩
  rcases accountStep_of_step (logInv_of_reachable hreach) hkey h he' with
    ⟨e₀, he₀, hchange⟩ | ⟨input, batchId, newId, hevent, hrow, -⟩
  · have hsame : e₀ = e := hkey.eq_of_key_eq he₀ he (hchange.id_eq.symm.trans hid)
    rw [hsame] at hchange
    exact hchange
  · -- A new row has an id that no row had.
    exfalso
    subst hevent
    have hcase : StepCase config s (.createBatch input batchId newId) t := stepCase_of_step h
    cases hcase with
    | createBatch hleads hok =>
        obtain ⟨-, -, -, -, hnew, -⟩ := createBatchTransaction_eq_ok hok
        exact id_ne_of_emailConflict (hnew e' hrow e he) hid

end Delivery

end EmailScheduler
