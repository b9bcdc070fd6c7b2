import EmailScheduler.Delivery.Rows

/-!
# The label of a batch

`updateBatchCompletion` counts twice and then writes, outside the transaction that finished an
email. Between the statements other executions finish emails and run the same statements. The label
is right anyway: a batch gets all its rows when it is created, terminal statuses are final, so once
the first count found nothing remaining the rows of the batch are settled, and every execution that
gets to write computes the same label.

`BatchInv` holds in every run. That a finished batch is labelled needs runs without crashes,
database failures and sweeps (`Quiet`): there the execution that finished the last email is still on
its way to write.
-/

set_option autoImplicit false

namespace EmailScheduler

open Foundation

/-- All emails of a batch are terminal. -/
def Finished (db : Database) (batchId : Uuid) : Prop :=
  ∀ e ∈ db.emailsOf batchId, e.status.isTerminal = true

/-- The label of a batch is right: `COMPLETED` only if all its emails are `SENT`, `PARTIALLY_FAILED`
only if all are terminal and one is not `SENT`. -/
structure LabelRight (db : Database) (b : EmailBatch) : Prop where
  scheduled : b.status ≠ .creating
  completed : b.status = .completed → ∀ e ∈ db.emailsOf b.id, e.status = .sent
  partiallyFailed : b.status = .partiallyFailed →
    Finished db b.id ∧ ∃ e ∈ db.emailsOf b.id, e.status ≠ .sent

/-- A batch without a label. -/
theorem labelRight_of_scheduled {db : Database} {b : EmailBatch} (hb : b.status = .scheduled) :
    LabelRight db b := by
  refine ⟨?_, fun h => ?_, fun h => ?_⟩
  · rw [hb]
    simp
  · rw [hb] at h
    cases h
  · rw [hb] at h
    cases h

/-- A label that was written finds the batch finished. -/
theorem LabelRight.finished {db : Database} {b : EmailBatch} (h : LabelRight db b)
    (hlabel : b.status ≠ .scheduled) : Finished db b.id := by
  cases hb : b.status with
  | creating => exact absurd hb h.scheduled
  | scheduled => exact absurd hb hlabel
  | completed =>
      intro e he
      rw [h.completed hb e he]
      rfl
  | partiallyFailed => exact (h.partiallyFailed hb).1

/-! ## Counts -/

theorem countRemaining_eq_zero_iff {db : Database} {batchId : Uuid} :
    countRemaining db batchId = 0 ↔ Finished db batchId := by
  rw [countRemaining, Database.countEmails_eq_zero_iff]
  refine forall₂_congr fun e _ => ?_
  rw [ScheduledEmailStatus.isRemaining_eq_not_isTerminal]
  simp

/-- In a finished batch nothing is unsuccessful exactly when everything is `SENT`. -/
theorem countUnsuccessful_eq_zero_iff {db : Database} {batchId : Uuid}
    (h : Finished db batchId) :
    countUnsuccessful db batchId = 0 ↔ ∀ e ∈ db.emailsOf batchId, e.status = .sent := by
  rw [countUnsuccessful, Database.countEmails_eq_zero_iff]
  refine forall₂_congr fun e he => ?_
  rw [ScheduledEmailStatus.isUnsuccessful_eq_of_isTerminal (h e he)]
  simp

/-- The label computed from the counts of a finished batch is right. -/
theorem labelRight_completionStatus {db : Database} {b : EmailBatch} (h : Finished db b.id)
    (hb : b.status = completionStatus (countUnsuccessful db b.id)) : LabelRight db b := by
  unfold completionStatus at hb
  split at hb
  next hzero =>
    have hsent := (countUnsuccessful_eq_zero_iff h).1 hzero
    refine ⟨?_, fun _ => hsent, fun hpartial => ?_⟩
    · rw [hb]
      simp
    · rw [hb] at hpartial
      cases hpartial
  next hpos =>
    refine ⟨?_, fun hcompleted => ?_, fun _ => ⟨h, ?_⟩⟩
    · rw [hb]
      simp
    · rw [hb] at hcompleted
      cases hcompleted
    · by_contra hnone
      -- A finished batch without such an email would have been counted as all `SENT`.
      refine hpos ((countUnsuccessful_eq_zero_iff h).2 fun e he => ?_)
      by_contra hne
      exact hnone ⟨e, he, hne⟩

/-! ## What a step does to the emails of a batch -/

section Emails

variable {config : AppConfig} {db db' : Database} {f : ScheduledEmail → ScheduledEmail}
  {new : List ScheduledEmail} {batchId : Uuid}

/-- The emails of an existing batch after a step are its emails before, each one step further. -/
theorem EmailsStep.mem_emailsOf (h : EmailsStep config db db' f new)
    (hnew : ∀ r ∈ new, r.batchId ≠ batchId) {e' : ScheduledEmail} (he : e' ∈ db'.emailsOf batchId) :
    ∃ e ∈ db.emailsOf batchId, e' = f e ∧ RowStep config e e' := by
  rw [Database.mem_emailsOf] at he
  rcases h.mem he.1 with ⟨e, hmem, rfl, hstep⟩ | hmem
  · refine ⟨e, ?_, rfl, hstep⟩
    rw [Database.mem_emailsOf]
    exact ⟨hmem, hstep.batchId_eq.symm.trans he.2⟩
  · exact absurd he.2 (hnew e' hmem)

theorem EmailsStep.map_mem_emailsOf (h : EmailsStep config db db' f new) {e : ScheduledEmail}
    (he : e ∈ db.emailsOf batchId) : f e ∈ db'.emailsOf batchId := by
  rw [Database.mem_emailsOf] at he ⊢
  exact ⟨h.mem_map he.1, (h.rows e he.1).batchId_eq.trans he.2⟩

theorem EmailsStep.finished (h : EmailsStep config db db' f new)
    (hnew : ∀ r ∈ new, r.batchId ≠ batchId) (hfin : Finished db batchId) :
    Finished db' batchId := by
  intro e' he'
  obtain ⟨e, he, -, hstep⟩ := h.mem_emailsOf hnew he'
  rw [hstep.status_eq_of_isTerminal (hfin e he)]
  exact hfin e he

/-- The counts of a finished batch do not change. -/
theorem EmailsStep.countEmails_eq (h : EmailsStep config db db' f new)
    (hnew : ∀ r ∈ new, r.batchId ≠ batchId) (hfin : Finished db batchId)
    (status : ScheduledEmailStatus → Bool) :
    db'.countEmails batchId status = db.countEmails batchId status := by
  -- The new rows are of other batches, and a terminal row keeps its status.
  have hzero : (new.countP fun e => decide (e.batchId = batchId) && status e.status) = 0 := by
    rw [List.countP_eq_zero]
    intro r hr
    simp [hnew r hr]
  rw [Database.countEmails, h.emails, List.countP_append, hzero, Nat.add_zero, List.countP_map,
    Database.countEmails]
  refine List.countP_congr fun e he => ?_
  have hstep := h.rows e he
  simp only [Function.comp_apply, hstep.batchId_eq]
  by_cases hb : e.batchId = batchId
  · rw [hstep.status_eq_of_isTerminal (hfin e ((db.mem_emailsOf).2 ⟨he, hb⟩))]
  · simp [hb]

/-- A right label stays right. -/
theorem EmailsStep.labelRight (h : EmailsStep config db db' f new) {b : EmailBatch}
    (hnew : ∀ r ∈ new, r.batchId ≠ b.id) (hlabel : LabelRight db b) : LabelRight db' b where
  scheduled := hlabel.scheduled
  completed hb e' he' := by
    obtain ⟨e, he, -, hstep⟩ := h.mem_emailsOf hnew he'
    have hsent := hlabel.completed hb e he
    rw [hstep.status_eq_of_isTerminal (by rw [hsent]; rfl), hsent]
  partiallyFailed hb := by
    obtain ⟨hfin, e, he, hne⟩ := hlabel.partiallyFailed hb
    refine ⟨h.finished hnew hfin, f e, h.map_mem_emailsOf he, ?_⟩
    rw [(h.rows e ((db.mem_emailsOf).1 he).1).status_eq_of_isTerminal (hfin e he)]
    exact hne

end Emails

/-! ## Who counts and who labels -/

/-- An execution between its counts and the label, with the second count once it has it. -/
def Stage.completing? : Stage → Option (Sending × Recorded × Option Nat)
  | .countingUnsuccessful d recorded => some (d, recorded, none)
  | .labelling d recorded unsuccessful => some (d, recorded, some unsuccessful)
  | _ => none

theorem completing?_afterSend (d : Sending) (receipt : DeliveryReceipt) :
    (afterSend d receipt).completing? = none := by
  unfold afterSend
  split_ifs <;> rfl

/-- An execution counts unsuccessful emails after it found nothing remaining, and labels with the
count it just read; neither step changes the world. -/
theorem completing?_of_advance {config : AppConfig} {job : Job} {input : StepInput} {w w' : World}
    {stage stage' : Stage} (h : advance config job input w stage = some (stage', w'))
    {q : Sending × Recorded × Option Nat} (hq : stage'.completing? = some q) :
    w' = w ∧
      ((q.2.2 = none ∧ countRemaining w.database q.1.claim.batchId = 0) ∨
        (stage = .countingUnsuccessful q.1 q.2.1 ∧
          q.2.2 = some (countUnsuccessful w.database q.1.claim.batchId))) := by
  cases advanceCase_of_advance h with
  | countedRemaining hzero =>
      cases hq
      exact ⟨rfl, Or.inl ⟨rfl, hzero⟩⟩
  | countedUnsuccessful =>
      cases hq
      exact ⟨rfl, Or.inr ⟨rfl, rfl⟩⟩
  -- The two counts are the only steps that lead on towards the label.
  | _ => cases hq

theorem Stage.delivery?_of_completing? {stage : Stage} {q : Sending × Recorded × Option Nat}
    (h : stage.completing? = some q) : stage.delivery? = some (q.1.loaded, q.1.claim) := by
  cases stage <;> cases h <;> rfl

/-! ## What a step does to the batches -/

namespace Delivery

variable {config : AppConfig} {s t : Delivery} {event : DeliveryEvent}

/-- A change of the batches in a step from `s`: none; or an execution labels one; or one is created,
with recipients. -/
inductive BatchesStep (s : Delivery) (db : Database) : Prop where
  | same : db.batches = s.database.batches → BatchesStep s db
  | labelled (i : Nat) (d : Sending) (recorded : Recorded) (unsuccessful : Nat) :
      s.stageOf i = .labelling d recorded unsuccessful →
      labelBatch s.database d.claim.batchId unsuccessful = .ok ((), db) → BatchesStep s db
  | created {input : CreateBatchInput} {batchId : Uuid} {newId : Nat → Uuid} {batch : EmailBatch} :
      input.parsedLeads.leads ≠ [] →
      createBatchTransaction s.database input batchId newId = .ok (batch, db) → BatchesStep s db

/-- **Step rule for batches.** -/
theorem batchesStep (h : (system config).step event s = some t) : BatchesStep s t.database := by
  cases stepCase_of_step h with
  | @advance i input x stage' w hx hstage hadvance =>
      rcases parents_of_advance hadvance with ⟨-, hbatches⟩ | ⟨d, recorded, unsuccessful, hlabel⟩
      · exact .same hbatches
      · rw [hlabel] at hadvance hstage
        cases hadvance
        exact Reply.deliver_snd _ _ _ (R := BatchesStep s) (.same rfl) fun _ _ hok =>
          .labelled i d recorded unsuccessful hstage hok
  | createBatch hleads hok => exact .created hleads hok
  | deliver job => exact .same rfl
  | sendReturns hstage hreceipt => exact .same rfl
  | sendRefused hstage htransient hpending => exact .same rfl
  | sendThrows hstage htransient => exact .same rfl
  | smtpAccepts hpending => exact .same rfl
  | crash hrunning => exact .same rfl
  | sweep now => exact .same rfl
  | updateSender sender => exact .same rfl
  | seed => exact .same rfl
  | tick hclock => exact .same rfl

/-! ## The invariant of every run -/

/-- Every email and every claim belongs to an existing batch, an execution that is about to label
has counted a finished batch, and every label is right. -/
structure BatchInv (s : Delivery) : Prop where
  batch_of_email : ∀ e ∈ s.database.emails, ∃ b ∈ s.database.batches, b.id = e.batchId
  email_of_claim : ∀ i p, (s.stageOf i).delivery? = some p →
    ∃ e ∈ s.database.emails, e.id = p.2.id ∧ e.batchId = p.2.batchId
  completing : ∀ i q, (s.stageOf i).completing? = some q →
    Finished s.database q.1.claim.batchId ∧
      ∀ n, q.2.2 = some n → n = countUnsuccessful s.database q.1.claim.batchId
  label : ∀ b ∈ s.database.batches, LabelRight s.database b

theorem batchInv_init (h : (system config).init s) : BatchInv s := by
  obtain ⟨hbatches, hemails, -, -, -, -, hexecutions⟩ := h
  have hstage : ∀ i, s.stageOf i = .crashed := by
    intro i
    rw [stageOf, hexecutions]
    rfl
  refine ⟨?_, ?_, ?_, ?_⟩
  · intro e he
    rw [hemails] at he
    cases he
  · intro i p hp
    rw [hstage] at hp
    cases hp
  · intro i q hq
    rw [hstage] at hq
    cases hq
  · intro b hb
    rw [hbatches] at hb
    cases hb

/-- New rows do not belong to a batch that was there. -/
theorem batchId_ne_of_new {f : ScheduledEmail → ScheduledEmail} {new : List ScheduledEmail}
    (hrows : EmailsStep config s.database t.database f new) {batchId : Uuid}
    (hbatch : ∃ b ∈ s.database.batches, b.id = batchId) : ∀ r ∈ new, r.batchId ≠ batchId := by
  obtain ⟨b, hb, rfl⟩ := hbatch
  exact fun r hr => (hrows.new_rows r hr).fresh_batch b hb

/-- A batch before a step is there after it, with its label or a new one. -/
theorem exists_batch_of_step (h : (system config).step event s = some t) {b : EmailBatch}
    (hb : b ∈ s.database.batches) : ∃ b' ∈ t.database.batches, b'.id = b.id ∧
      (b'.status = b.status ∨ ∃ i d recorded unsuccessful,
        s.stageOf i = .labelling d recorded unsuccessful ∧ d.claim.batchId = b.id ∧
          b'.status = completionStatus unsuccessful) := by
  cases batchesStep h with
  | same heq => exact ⟨b, by rw [heq]; exact hb, rfl, Or.inl rfl⟩
  | labelled i d recorded unsuccessful hstage hok =>
      rw [labelBatch_eq_ok hok]
      by_cases hid : b.id = d.claim.batchId
      · exact ⟨_, mem_updateMany.2 ⟨b, hb, if_pos (by simpa using hid)⟩, rfl,
          Or.inr ⟨i, d, recorded, unsuccessful, hstage, hid.symm, rfl⟩⟩
      · exact ⟨b, mem_updateMany.2 ⟨b, hb, if_neg (by simpa using hid)⟩, rfl, Or.inl rfl⟩
  | created hleads hok =>
      obtain ⟨-, -, -, -, -, hdb⟩ := createBatchTransaction_eq_ok hok
      rw [hdb]
      exact ⟨b, List.mem_append_left _ hb, rfl, Or.inl rfl⟩

theorem BatchInv.batch_of_claim (hinv : BatchInv s) {i : Nat} {p : LoadedEmail × ClaimedEmail}
    (hp : (s.stageOf i).delivery? = some p) : ∃ b ∈ s.database.batches, b.id = p.2.batchId := by
  obtain ⟨e, he, -, hbatch⟩ := hinv.email_of_claim i p hp
  obtain ⟨b, hb, hid⟩ := hinv.batch_of_email e he
  exact ⟨b, hb, hid.trans hbatch⟩

/-- The label that an execution is about to write is right. -/
theorem BatchInv.labelRight_of_labelling (hinv : BatchInv s) {i : Nat} {d : Sending}
    {recorded : Recorded} {unsuccessful : Nat}
    (hstage : s.stageOf i = .labelling d recorded unsuccessful) {b : EmailBatch}
    (hid : b.id = d.claim.batchId) (hb : b.status = completionStatus unsuccessful) :
    LabelRight s.database b := by
  obtain ⟨hfin, hcount⟩ := hinv.completing i (d, recorded, some unsuccessful) (by rw [hstage]; rfl)
  refine labelRight_completionStatus (by rw [hid]; exact hfin) ?_
  rw [hb, hcount unsuccessful rfl, hid]

/-- **Step lemma.** -/
theorem batchInv_step (hinv : BatchInv s) (h : (system config).step event s = some t) :
    BatchInv t := by
  obtain ⟨f, new, hrows⟩ := emailsStep h
  refine ⟨fun e' he' => ?_, fun i p hp => ?_, fun i q hq => ?_, fun b' hb' => ?_⟩
  · rcases hrows.mem he' with ⟨e, he, -, hstep⟩ | hnew
    -- `batch_of_email`: a row keeps its batch, and a batch is never removed.
    · obtain ⟨b, hb, hid⟩ := hinv.batch_of_email e he
      obtain ⟨b', hb', hid', -⟩ := exists_batch_of_step h hb
      exact ⟨b', hb', by rw [hid', hid, hstep.batchId_eq]⟩
    · exact hrows.new_batches e' hnew
  · have hrow : ∃ e ∈ s.database.emails, e.id = p.2.id ∧ e.batchId = p.2.batchId := by
      -- `email_of_claim`: the execution had its claim before, or claimed the row in this step.
      rcases (stageStep_of_step h i).delivery? hp with hold | ⟨now, token, -, hclaim⟩
      · exact hinv.email_of_claim i p hold
      · obtain ⟨row, hrow, -, heq, -⟩ := claimEmail_eq_ok_some hclaim
        rw [heq]
        exact ⟨row, hrow, rfl, rfl⟩
    obtain ⟨e, he, hid, hbatch⟩ := hrow
    have hstep := hrows.rows e he
    exact ⟨f e, hrows.mem_map he, hstep.id_eq.trans hid, hstep.batchId_eq.trans hbatch⟩
  · cases stageStep_of_step h i with
    | same heq =>
        rw [heq] at hq
        -- `completing`: the counts of others stay right, since a finished batch no longer changes.
        obtain ⟨hfin, hcount⟩ := hinv.completing i q hq
        have hnew := batchId_ne_of_new hrows
          (hinv.batch_of_claim (Stage.delivery?_of_completing? hq))
        refine ⟨hrows.finished hnew hfin, fun n hn => ?_⟩
        rw [countUnsuccessful, hrows.countEmails_eq hnew hfin]
        exact hcount n hn
    | advanced input _ _ hadvance =>
        obtain ⟨hworld, hcases⟩ := completing?_of_advance hadvance hq
        have hdb : t.database = s.database := congrArg World.database hworld
        rw [hdb]
        rcases hcases with ⟨hnone, hzero⟩ | ⟨hstage, hcount⟩
        -- The execution has just counted: nothing remaining, or the unsuccessful ones.
        · refine ⟨countRemaining_eq_zero_iff.1 hzero, fun n hn => ?_⟩
          rw [hnone] at hn
          cases hn
        · obtain ⟨hfin, -⟩ := hinv.completing i (q.1, q.2.1, none) (by rw [hstage]; rfl)
          refine ⟨hfin, fun n hn => ?_⟩
          rw [hcount] at hn
          exact (Option.some.inj hn).symm
    | delivered _ _ _ heq => rw [heq] at hq; cases hq
    | crashed _ heq => rw [heq] at hq; cases hq
    | returned d receipt _ heq => rw [heq, completing?_afterSend] at hq; cases hq
    | threw d error _ heq => rw [heq] at hq; cases hq
  -- `label`: right labels stay right, and the one that is written is computed from those counts.
  · have hkept : ∀ b ∈ s.database.batches, LabelRight t.database b := fun b hb =>
      hrows.labelRight (batchId_ne_of_new hrows ⟨b, hb, rfl⟩) (hinv.label b hb)
    cases batchesStep h with
    | same heq =>
        rw [heq] at hb'
        exact hkept b' hb'
    | labelled i d recorded unsuccessful hstage hok =>
        have hdb := labelBatch_eq_ok hok
        rw [hdb] at hb' hkept ⊢
        obtain ⟨b, hb, rfl⟩ := mem_updateMany.1 hb'
        split
        next hid =>
          rw [decide_eq_true_eq] at hid
          have hright := hinv.labelRight_of_labelling (b := { b with
            status := completionStatus unsuccessful }) hstage hid rfl
          exact ⟨hright.scheduled, hright.completed, hright.partiallyFailed⟩
        next => exact hkept b hb
    | created hleads hok =>
        obtain ⟨-, rfl, -, -, -, hdb⟩ := createBatchTransaction_eq_ok hok
        rw [hdb, List.mem_append, List.mem_singleton] at hb'
        rcases hb' with hb' | rfl
        · exact hkept b' hb'
        · exact labelRight_of_scheduled rfl

theorem batchInv_of_reachable {P : Delivery → DeliveryEvent → Prop}
    (h : (system config).Reachable P s) : BatchInv s :=
  h.invariant (fun _ hs => batchInv_init hs) fun _ _ _ _ hstep hinv => batchInv_step hinv hstep

/-- Two right labels of one batch are the same label. -/
theorem labelRight_unique {db : Database} {b b' : EmailBatch} (h : LabelRight db b)
    (h' : LabelRight db b') (hid : b'.id = b.id) (hb : b.status ≠ .scheduled)
    (hb' : b'.status ≠ .scheduled) : b'.status = b.status := by
  have hsent := h.completed
  have hsent' := h'.completed
  have hpartial := h.partiallyFailed
  have hpartial' := h'.partiallyFailed
  rw [hid] at hsent' hpartial'
  -- Of two different labels one says that all emails were sent, the other that one was not.
  cases hs : b.status with
  | creating => exact absurd hs h.scheduled
  | scheduled => exact absurd hs hb
  | completed =>
      cases hs' : b'.status with
      | creating => exact absurd hs' h'.scheduled
      | scheduled => exact absurd hs' hb'
      | completed => rfl
      | partiallyFailed =>
          obtain ⟨-, e, he, hne⟩ := hpartial' hs'
          exact absurd (hsent hs e he) hne
  | partiallyFailed =>
      cases hs' : b'.status with
      | creating => exact absurd hs' h'.scheduled
      | scheduled => exact absurd hs' hb'
      | completed =>
          obtain ⟨-, e, he, hne⟩ := hpartial hs
          exact absurd (hsent' hs' e he) hne
      | partiallyFailed => rfl

/-- A written label stays through every run: it is never changed to the other one. -/
theorem label_of_steps {P : Delivery → DeliveryEvent → Prop} (hinv : BatchInv s)
    (h : (system config).Steps P s t) {b : EmailBatch} (hb : b ∈ s.database.batches)
    (hlabel : b.status ≠ .scheduled) :
    ∃ b' ∈ t.database.batches, b'.id = b.id ∧ b'.status = b.status := by
  have hend : BatchInv t ∧ ∃ b' ∈ t.database.batches, b'.id = b.id ∧ b'.status = b.status := by
    refine h.invariant (I := fun t => BatchInv t ∧ ∃ b' ∈ t.database.batches,
      b'.id = b.id ∧ b'.status = b.status) ⟨hinv, b, hb, rfl, rfl⟩ ?_
    rintro s event t _ hstep ⟨hinv, b₁, hb₁, hid, hstatus⟩
    refine ⟨batchInv_step hinv hstep, ?_⟩
    obtain ⟨b₂, hb₂, hid₂, hcases⟩ := exists_batch_of_step hstep hb₁
    refine ⟨b₂, hb₂, hid₂.trans hid, ?_⟩
    rcases hcases with hsame | ⟨i, d, recorded, unsuccessful, hstage, hbatch, hwritten⟩
    -- A second execution may write again, but two right labels of one batch agree.
    · exact hsame.trans hstatus
    · have hright := hinv.labelRight_of_labelling hstage (hid₂.trans hbatch.symm) hwritten
      have hne : b₂.status ≠ .scheduled := by
        rw [hwritten, completionStatus]
        split <;> simp
      rw [← hstatus]
      exact labelRight_unique (hinv.label b₁ hb₁) hright hid₂ (by rw [hstatus]; exact hlabel) hne
  exact hend.2

/-! ## Runs without crashes, database failures and sweeps -/

end Delivery

/-- The operation of the stage is a statement or a transaction of the database. -/
def Stage.usesDatabase : Stage → Bool
  | .loading | .recordingRateLimit _ _ _ | .claiming _ _ | .recordingAccepted _ _
  | .recordingFailure _ _ | .countingRemaining _ _ | .countingUnsuccessful _ _
  | .labelling _ _ _ => true
  | _ => false

/-- The batch that the execution is about to complete. -/
def Stage.updating? : Stage → Option Uuid
  | .countingRemaining d _ => some d.claim.batchId
  | .countingUnsuccessful d _ => some d.claim.batchId
  | .labelling d _ _ => some d.claim.batchId
  | _ => none

theorem Stage.delivery?_of_updating? {stage : Stage} {batchId : Uuid}
    (h : stage.updating? = some batchId) :
    ∃ p, stage.delivery? = some p ∧ p.2.batchId = batchId := by
  cases stage with
  | countingRemaining d recorded => exact ⟨_, rfl, Option.some.inj h⟩
  | countingUnsuccessful d recorded => exact ⟨_, rfl, Option.some.inj h⟩
  | labelling d recorded unsuccessful => exact ⟨_, rfl, Option.some.inj h⟩
  | _ => cases h

namespace Delivery

/-- No crash, no database failure, no stale sweep. -/
def Quiet (s : Delivery) : DeliveryEvent → Prop
  | .advance i input => (s.stageOf i).usesDatabase = true → input.reply = .done
  | .crash _ => False
  | .sweep _ => False
  | _ => True

instance (s : Delivery) (event : DeliveryEvent) : Decidable (Quiet s event) := by
  cases event <;> unfold Quiet <;> infer_instance

variable {config : AppConfig} {s t : Delivery} {event : DeliveryEvent}

/-- A batch is labelled, or it is not finished, or an execution is on its way to label it. -/
def Attended (s : Delivery) (b : EmailBatch) : Prop :=
  b.status ≠ .scheduled ∨ ¬ Finished s.database b.id ∨ ∃ i, (s.stageOf i).updating? = some b.id

/-- An update that makes no row of the batch terminal does not finish it. -/
theorem finished_of_updateMany {db db' : Database} {batchId : Uuid} {p : ScheduledEmail → Bool}
    {f : ScheduledEmail → ScheduledEmail} (hemails : db'.emails = updateMany p f db.emails)
    (hbatch : ∀ e, (f e).batchId = e.batchId) (h : Finished db' batchId)
    (hp : ∀ e ∈ db.emailsOf batchId, p e = true → (f e).status.isTerminal = false) :
    Finished db batchId := by
  intro e he
  have hmem := (db.mem_emailsOf).1 he
  cases hpe : p e with
  | true =>
      have hrow : f e ∈ db'.emailsOf batchId := by
        rw [Database.mem_emailsOf, hemails]
        exact ⟨mem_updateMany.2 ⟨e, hmem.1, if_pos hpe⟩, (hbatch e).trans hmem.2⟩
      have hterminal := h (f e) hrow
      rw [hp e he hpe] at hterminal
      cases hterminal
  | false =>
      refine h e ?_
      rw [Database.mem_emailsOf, hemails]
      exact ⟨mem_updateMany.2 ⟨e, hmem.1, if_neg (by simp [hpe])⟩, hmem.2⟩

/-- A transaction on the row of a claim finishes no batch but the claim's. -/
theorem finished_of_heldBy {db db' : Database} {batchId : Uuid} {claim : ClaimedEmail}
    {f : ScheduledEmail → ScheduledEmail}
    (hemails : db'.emails = updateMany (heldBy claim) f db.emails)
    (hbatch : ∀ e, (f e).batchId = e.batchId) (h : Finished db' batchId)
    (hclaim : ∀ e ∈ db.emails, e.id = claim.id → e.batchId = claim.batchId)
    (hne : claim.batchId ≠ batchId) : Finished db batchId := by
  refine finished_of_updateMany hemails hbatch h fun e he hheld => ?_
  rw [Database.mem_emailsOf] at he
  exact absurd ((hclaim e he.1 (heldBy_iff.1 hheld).1).symm.trans he.2) hne

theorem finished_congr {db db' : Database} {batchId : Uuid} (hemails : db'.emails = db.emails)
    (h : Finished db' batchId) : Finished db batchId := by
  intro e he
  refine h e ?_
  rw [Database.mem_emailsOf] at he ⊢
  rw [hemails]
  exact he

theorem finished_of_append {db db' : Database} {batchId : Uuid} {new : List ScheduledEmail}
    (hemails : db'.emails = db.emails ++ new) (h : Finished db' batchId) : Finished db batchId := by
  intro e he
  refine h e ?_
  rw [Database.mem_emailsOf] at he ⊢
  rw [hemails]
  exact ⟨List.mem_append_left _ he.1, he.2⟩

/-- An operation of a quiet run commits, or it fails by itself without effect. -/
theorem deliver_done {β : Type} (db : Database) (outcome : Transaction β) :
    (∃ value db', outcome = .ok (value, db') ∧
        Reply.done.deliver db outcome = (.ok value, db')) ∨
      ∃ e, Reply.done.deliver db outcome = (.error e, db) := by
  cases outcome with
  | error e => exact Or.inr ⟨e, rfl⟩
  | ok result => exact Or.inl ⟨result.1, result.2, rfl, rfl⟩

/-- **Who finishes a batch.** In a quiet run an execution whose step finishes a batch goes on to
complete that batch. -/
theorem updating_of_advance {job : Job} {input : StepInput} {w w' : World} {stage stage' : Stage}
    {batchId : Uuid} (h : advance config job input w stage = some (stage', w'))
    (hquiet : stage.usesDatabase = true → input.reply = .done)
    (hclaim : ∀ p, stage.delivery? = some p →
      ∀ e ∈ w.database.emails, e.id = p.2.id → e.batchId = p.2.batchId)
    (hopen : ¬ Finished w.database batchId) (hfin : Finished w'.database batchId) :
    stage'.updating? = some batchId := by
  cases stage with
  | recordingRateLimit loaded nextAvailableAt now =>
      cases h
      refine absurd ?_ hopen
      rw [hquiet rfl] at hfin
      rcases deliver_done w.database (recordRateLimit w.database loaded.email.id nextAvailableAt now
          -- A deferral leaves the row open.
          input.token) with ⟨_, db', hok, heq⟩ | ⟨e, heq⟩
      · rw [heq] at hfin
        rcases recordRateLimit_eq_ok hok with rfl | ⟨row, -, -, -, rfl⟩
        · exact hfin
        · exact finished_of_updateMany (f := deferRow nextAvailableAt) rfl (fun e => rfl) hfin
            fun e _ _ => rfl
      · rw [heq] at hfin
        exact hfin
  | claiming loaded now =>
      cases h
      refine absurd ?_ hopen
      rw [hquiet rfl] at hfin
      rcases deliver_done w.database (claimEmail w.database loaded.email.id now input.token) with
        ⟨claim, db', hok, heq⟩ | ⟨e, heq⟩
      · rw [heq] at hfin
        cases claim with
        | none =>
            rw [(claimEmail_eq_ok_none hok).1] at hfin
            exact hfin
        | some claim =>
            obtain ⟨row, -, -, -, -, rfl⟩ := claimEmail_eq_ok_some hok
            -- A claimed row is in `PROCESSING`, which is not terminal.
            exact finished_of_updateMany (f := claimRow input.token now) rfl (fun e => rfl) hfin
              fun e _ _ => rfl
      · rw [heq] at hfin
        exact hfin
  | recordingAccepted d receipt =>
      cases h
      have hreply := hquiet rfl
      rw [hreply] at hfin ⊢
      rcases deliver_done w.database (recordAccepted w.database d.claim receipt input.now) with
        ⟨⟨⟩, db', hok, heq⟩ | ⟨e, heq⟩
      · rw [heq] at hfin ⊢
        by_cases hbatch : d.claim.batchId = batchId
        · exact congrArg some hbatch
        -- The execution completes the batch of its claim, which is the only one it can finish.
        · refine absurd ?_ hopen
          exact finished_of_heldBy (congrArg Database.emails (recordAccepted_eq_ok hok).2)
            (fun e => rfl) hfin (hclaim (d.loaded, d.claim) rfl) hbatch
      · rw [heq] at hfin
        exact absurd hfin hopen
  | recordingFailure d error =>
      cases h
      have hreply := hquiet rfl
      rw [hreply] at hfin ⊢
      rcases deliver_done w.database (recordFailure config w.database d.claim
          (classifyDeliveryError error) job.finalRetry error input.now) with
        ⟨result, db', hok, heq⟩ | ⟨e, heq⟩
      · have hemails := congrArg Database.emails (recordFailure_eq_ok hok).2
        rw [heq] at hfin ⊢
        by_cases hretry : result = .retryable
        · subst hretry
          -- A retryable failure reopens the row, so it finishes nothing.
          exact absurd (finished_of_updateMany hemails (fun e => rfl) hfin fun e _ _ => rfl) hopen
        · have hstage : afterFailure d (.ok result) = .countingRemaining d (.failed result) :=
            if_neg hretry
          rw [hstage]
          by_cases hbatch : d.claim.batchId = batchId
          · exact congrArg some hbatch
          -- As for an accepted message.
          · exact absurd (finished_of_heldBy hemails (fun e => rfl) hfin
              (hclaim (d.loaded, d.claim) rfl) hbatch) hopen
      · rw [heq] at hfin
        exact absurd hfin hopen
  | labelling d recorded unsuccessful =>
      cases h
      refine absurd ?_ hopen
      rw [hquiet rfl] at hfin
      rcases deliver_done w.database (labelBatch w.database d.claim.batchId unsuccessful) with
        ⟨⟨⟩, db', hok, heq⟩ | ⟨e, heq⟩
      · rw [heq, labelBatch_eq_ok hok] at hfin
        exact finished_congr rfl hfin
      · rw [heq] at hfin
        exact hfin
  | loading => cases h; exact absurd hfin hopen
  | delaying => cases h; exact absurd hfin hopen
  | reserving => cases h; exact absurd hfin hopen
  | claimed => cases h; exact absurd hfin hopen
  | countingRemaining => cases h; exact absurd hfin hopen
  | countingUnsuccessful => cases h; exact absurd hfin hopen
  | sending => cases h
  | finished => cases h
  | crashed => cases h

/-- A batch that a step of a quiet run finishes has an execution on its way to label it. -/
theorem updating_of_finished (hinv : BatchInv s)
    (hkey : PrimaryKey ScheduledEmail.id s.database.emails) (hquiet : Quiet s event)
    (h : (system config).step event s = some t) {batchId : Uuid}
    (hopen : ¬ Finished s.database batchId) (hfin : Finished t.database batchId) :
    ∃ i, (t.stageOf i).updating? = some batchId := by
  cases stepCase_of_step h with
  | @advance i input x stage' w hx hstage hadvance =>
      have hi : i < s.executions.length := (List.getElem?_eq_some_iff.1 hx).1
      refine ⟨i, ?_⟩
      have hself : stageOf { (s.moveTo i stage') with world := w } i = stage' :=
        stageOf_moveTo_self hi
      rw [hself]
      rw [← hstage] at hadvance
      refine updating_of_advance hadvance hquiet (fun p hp e he hid => ?_) hopen hfin
      obtain ⟨e', he', hid', hbatch⟩ := hinv.email_of_claim i p hp
      -- The row of a claim is unique, so its batch is the batch of the claim.
      rw [hkey.eq_of_key_eq he he' (hid.trans hid'.symm)]
      exact hbatch
  | createBatch hleads hok =>
      obtain ⟨-, -, -, -, -, hdb⟩ := createBatchTransaction_eq_ok hok
      exact absurd (finished_of_append (congrArg Database.emails hdb) hfin) hopen
  | deliver job => exact absurd hfin hopen
  | sendReturns hstage hreceipt => exact absurd hfin hopen
  | sendRefused hstage htransient hpending => exact absurd hfin hopen
  | sendThrows hstage htransient => exact absurd hfin hopen
  | smtpAccepts hpending => exact absurd hfin hopen
  | crash hrunning => exact hquiet.elim
  | sweep now => exact hquiet.elim
  | updateSender sender => exact absurd (finished_congr rfl hfin) hopen
  | seed => exact absurd hfin hopen
  | tick hclock => exact absurd hfin hopen

/-- An execution on its way to label a batch stays on it, or finds it unfinished, or labels it. -/
theorem attended_of_updating (hquiet : Quiet s event) (h : (system config).step event s = some t)
    {i : Nat} {b b' : EmailBatch} (hb : b ∈ s.database.batches) (hb' : b' ∈ t.database.batches)
    (hid : b'.id = b.id) (hi : (s.stageOf i).updating? = some b.id) : Attended t b' := by
  rw [Attended, hid]
  cases stageStep_of_step h i with
  | same heq => exact Or.inr (Or.inr ⟨i, by rw [heq]; exact hi⟩)
  | delivered _ _ heq _ => rw [heq] at hi; cases hi
  | crashed hevent _ => rw [hevent] at hquiet; exact hquiet.elim
  | returned d receipt heq _ => rw [heq] at hi; cases hi
  | threw d error heq _ => rw [heq] at hi; cases hi
  | @advanced x input hevent _ hadvance =>
      rw [hevent] at hquiet
      cases hst : s.stageOf i with
      | countingRemaining d recorded =>
          rw [hst] at hi hadvance
          have hreply : input.reply = .done := hquiet (by rw [hst]; rfl)
          obtain ⟨hstage, hworld⟩ := Prod.mk.inj (Option.some.inj hadvance)
          rw [hreply] at hstage
          by_cases hzero : countRemaining s.world.database d.claim.batchId = 0
          -- Nothing remaining leads to the second count; otherwise the batch is unfinished.
          · right; right
            refine ⟨i, ?_⟩
            rw [← hstage, Reply.read, afterRemaining, if_neg (by simpa using hzero)]
            exact hi
          · right; left
            have hdb : t.database = s.database := congrArg World.database hworld.symm
            rw [hdb, ← Option.some.inj hi, ← countRemaining_eq_zero_iff]
            exact hzero
      | countingUnsuccessful d recorded =>
          rw [hst] at hi hadvance
          have hreply : input.reply = .done := hquiet (by rw [hst]; rfl)
          obtain ⟨hstage, -⟩ := Prod.mk.inj (Option.some.inj hadvance)
          rw [hreply] at hstage
          right; right
          exact ⟨i, by rw [← hstage]; exact hi⟩
      | labelling d recorded unsuccessful =>
          rw [hst] at hi hadvance
          have hreply : input.reply = .done := hquiet (by rw [hst]; rfl)
          obtain ⟨-, hworld⟩ := Prod.mk.inj (Option.some.inj hadvance)
          have hbatch : d.claim.batchId = b.id := Option.some.inj hi
          left
          -- The update finds the batch, so it is labelled.
          have hany : (s.world.database.batches.any fun b => decide (b.id = d.claim.batchId)) =
              true := List.any_eq_true.2 ⟨b, hb, by simp [hbatch]⟩
          have hdb := congrArg (fun w => w.database.batches) hworld
          rw [hreply, labelBatch, if_pos hany] at hdb
          have hmem : b' ∈ updateMany (fun b => decide (b.id = d.claim.batchId))
              (fun b => { b with status := completionStatus unsuccessful })
              s.world.database.batches := by
            rw [← hdb] at hb'
            exact hb'
          obtain ⟨b₀, -, rfl⟩ := mem_updateMany.1 hmem
          split
          next =>
            dsimp only [completionStatus]
            split <;> simp
          next hne =>
            rw [if_neg hne] at hid
            exact absurd (by simp [hid, hbatch]) hne
      | loading => rw [hst] at hi; cases hi
      | delaying => rw [hst] at hi; cases hi
      | reserving => rw [hst] at hi; cases hi
      | recordingRateLimit => rw [hst] at hi; cases hi
      | claiming => rw [hst] at hi; cases hi
      | claimed => rw [hst] at hi; cases hi
      | sending => rw [hst] at hi; cases hi
      | recordingAccepted => rw [hst] at hi; cases hi
      | recordingFailure => rw [hst] at hi; cases hi
      | finished => rw [hst] at hi; cases hi
      | crashed => rw [hst] at hi; cases hi

/-- **Step lemma for quiet runs.** -/
theorem attended_step (hinv : BatchInv s) (hkey : PrimaryKey ScheduledEmail.id s.database.emails)
    (hquiet : Quiet s event) (h : (system config).step event s = some t)
    (hatt : ∀ b ∈ s.database.batches, Attended s b) : ∀ b ∈ t.database.batches, Attended t b := by
  have hkept : ∀ b ∈ s.database.batches, ∀ b' ∈ t.database.batches, b'.id = b.id →
      (b.status ≠ .scheduled → b'.status ≠ .scheduled) → Attended t b' := by
    intro b hb b' hb' hid hlabel
    rcases hatt b hb with hwritten | hopen | ⟨i, hi⟩
    -- Labelled before; or finished by this step, if at all; or somebody was on the way.
    · exact Or.inl (hlabel hwritten)
    · right
      by_cases hfin : Finished t.database b'.id
      · right
        obtain ⟨i, hi⟩ := updating_of_finished hinv hkey hquiet h hopen (hid ▸ hfin)
        exact ⟨i, by rw [hi, hid]⟩
      · exact Or.inl hfin
    · exact attended_of_updating hquiet h hb hb' hid hi
  intro b' hb'
  cases batchesStep h with
  | same heq => exact hkept b' (by rw [← heq]; exact hb') b' hb' rfl id
  | labelled i d recorded unsuccessful hstage hok =>
      have hmem := hb'
      rw [labelBatch_eq_ok hok] at hmem
      obtain ⟨b, hb, heq⟩ := mem_updateMany.1 hmem
      split at heq
      next =>
        subst heq
        left
        dsimp only [completionStatus]
        split <;> simp
      next =>
        subst heq
        exact hkept b hb b hb' rfl id
  | @created input batchId newId batch hleads hok =>
      obtain ⟨-, rfl, -, -, -, hdb⟩ := createBatchTransaction_eq_ok hok
      have hmem := hb'
      rw [hdb, List.mem_append, List.mem_singleton] at hmem
      rcases hmem with hold | rfl
      · exact hkept b' hold b' hb' rfl id
      · -- The new batch has a first email, which is scheduled.
        right; left
        intro hfin
        obtain ⟨lead, leads, hcons⟩ := List.exists_cons_of_ne_nil hleads
        have hrow : emailRow input batchId newId 0 lead ∈ emailRows input batchId newId := by
          rw [emailRows, hcons, List.mapIdx_cons]
          exact List.mem_cons_self
        have hterminal := hfin _ ((Database.mem_emailsOf _).2
          ⟨by rw [hdb]; exact List.mem_append_right _ hrow, rfl⟩)
        cases hterminal

/-- In a quiet run every batch is labelled, unfinished or on its way to a label. -/
theorem attended_of_reachable (h : (system config).Reachable Quiet s) :
    ∀ b ∈ s.database.batches, Attended s b := by
  have hend : BatchInv s ∧ PrimaryKey ScheduledEmail.id s.database.emails ∧
      ∀ b ∈ s.database.batches, Attended s b := by
    refine h.invariant (I := fun s => BatchInv s ∧
      PrimaryKey ScheduledEmail.id s.database.emails ∧
        ∀ b ∈ s.database.batches, Attended s b) ?_ ?_
    · intro s hs
      refine ⟨batchInv_init hs, ?_, fun b hb => ?_⟩
      · rw [hs.2.1]
        exact List.nodup_nil
      · rw [hs.1] at hb
        cases hb
    · rintro s event t hquiet hstep ⟨hinv, hkey, hatt⟩
      obtain ⟨f, new, hrows⟩ := emailsStep hstep
      exact ⟨batchInv_step hinv hstep, hrows.primaryKey hkey,
        attended_step hinv hkey hquiet hstep hatt⟩
  exact hend.2.2

/-- What is said about batches in a state of a quiet run: every label is right, a written label is
kept in every quiet run from here, and a batch all of whose emails are terminal is labelled unless
an execution still has its claim on one of them. -/
structure BatchOutcome (config : AppConfig) (s : Delivery) : Prop where
  right : ∀ b ∈ s.database.batches, LabelRight s.database b
  kept : ∀ t, (system config).Steps Quiet s t → ∀ b ∈ s.database.batches, b.status ≠ .scheduled →
    ∃ b' ∈ t.database.batches, b'.id = b.id ∧ b'.status = b.status
  labelled : ∀ b ∈ s.database.batches, Finished s.database b.id →
    (∀ i p, (s.stageOf i).delivery? = some p → p.2.batchId ≠ b.id) → b.status ≠ .scheduled

/-- **Batch outcome under concurrent completion.** It holds in every state of every quiet run. -/
theorem batchOutcome_of_reachable (h : (system config).Reachable Quiet s) :
    BatchOutcome config s := by
  have hinv := batchInv_of_reachable h
  refine ⟨hinv.label, fun t hst b hb hlabel => label_of_steps hinv hst hb hlabel, ?_⟩
  intro b hb hfin hdone
  rcases attended_of_reachable h b hb with hlabel | hopen | ⟨i, hi⟩
  -- An execution on its way to the label would still have its claim.
  · exact hlabel
  · exact absurd hfin hopen
  · obtain ⟨p, hp, hbatch⟩ := Stage.delivery?_of_updating? hi
    exact absurd hbatch (hdone i p hp)

/-- Two emails of one batch, finished by two executions whose statements alternate. -/
def interleavedCompletion : List DeliveryEvent :=
  [.createBatch (requestFor ["a@test.invalid", "b@test.invalid"]) 10 (fun i => 100 + i),
    .deliver ⟨100, 0, some 3⟩, .deliver ⟨101, 0, some 3⟩,
    .advance 0 ⟨0, 0, .done⟩, .advance 0 ⟨0, 0, .done⟩, .advance 0 ⟨0, 70, .done⟩,
    .tick 1000,
    .advance 1 ⟨1000, 0, .done⟩, .advance 1 ⟨1000, 0, .done⟩, .advance 1 ⟨1000, 71, .done⟩,
    .advance 0 ⟨0, 0, .done⟩, .advance 1 ⟨0, 0, .done⟩, .smtpAccepts 0,
    .sendReturns 0 ⟨"message", none, 1, 0⟩, .sendThrows 1 (.object (.string "EENVELOPE") .other),
    .advance 0 ⟨2000, 0, .done⟩, .advance 1 ⟨2000, 0, .done⟩,
    .advance 0 ⟨0, 0, .done⟩, .advance 1 ⟨0, 0, .done⟩,
    .advance 0 ⟨0, 0, .done⟩, .advance 1 ⟨0, 0, .done⟩,
    .advance 0 ⟨0, 0, .done⟩, .advance 1 ⟨0, 0, .done⟩]

theorem batchOutcome_after_interleavedCompletion : ∃ s,
    (system validConfig).run Quiet interleavedCompletion oneSenderStart = some s ∧
      s.database.emails.map ScheduledEmail.status = [.sent, .failed] ∧
      s.database.batches.map EmailBatch.status = [.partiallyFailed] ∧
      BatchOutcome validConfig s :=
  ⟨_, rfl, by decide, by decide,
    batchOutcome_of_reachable (reachable_from_oneSender interleavedCompletion rfl)⟩

end Delivery

end EmailScheduler
