import EmailScheduler.Progress

/-!
# The application and its two parts

Every run of the application is a run of the API, in which the worker writes in the background
(`Application.api_reachable`), and a run of the delivery system (`Application.delivery_reachable`).
So what holds of every run of one of them holds of the application.

Runs of the delivery system start with all their senders, while the application adds them one by
one. The run that is matched therefore has the senders of the end from its start on. This makes no
difference before they are added: the rows and requests of that time name other senders.
-/

set_option autoImplicit false

namespace EmailScheduler

open Foundation

variable {config : AppConfig} {lib : Libraries}

/-! ## More senders -/

/-- The database with more senders. -/
def Database.addSenders (more : List EmailSender) (db : Database) : Database :=
  { db with senders := db.senders ++ more }

/-- The delivery system with more senders. -/
def Delivery.addSenders (more : List EmailSender) (s : Delivery) : Delivery :=
  s.withDatabase (s.database.addSenders more)

section AddSenders

variable {more : List EmailSender} {db db' : Database} {w : World}

/-- The reply to an operation that does the same on another store. -/
theorem Reply.deliver_map {β σ : Type} (reply : Reply) (g : σ → σ) (store : σ)
    (outcome : Except InfrastructureError (β × σ)) :
    reply.deliver (g store) (outcome.map fun r => (r.1, g r.2)) =
      ((reply.deliver store outcome).1, g (reply.deliver store outcome).2) := by
  cases reply <;> cases outcome <;> rfl

/-- The value that is returned with the database is not looked at. -/
theorem map_addSenders {β : Type} (value : β) (result : Except InfrastructureError Database) :
    (result.map (Database.addSenders more)).map (fun db => (value, db)) =
      (result.map fun db => (value, db)).map fun r => (r.1, r.2.addSenders more) := by
  cases result <;> rfl

theorem createSendAttempt_addSenders (attempt : SendAttempt) :
    (db.addSenders more).createSendAttempt attempt =
      (db.createSendAttempt attempt).map (Database.addSenders more) := by
  unfold Database.createSendAttempt
  rw [apply_ite (Except.map (Database.addSenders more))]
  rfl

theorem updateSendAttempt_addSenders (token : Uuid) (f : SendAttempt → SendAttempt) :
    (db.addSenders more).updateSendAttempt token f =
      (db.updateSendAttempt token f).map (Database.addSenders more) := by
  unfold Database.updateSendAttempt
  rw [apply_ite (Except.map (Database.addSenders more))]
  rfl

theorem recordRateLimit_addSenders (id token : Uuid) (nextAvailableAt now : Int) :
    recordRateLimit (db.addSenders more) id nextAvailableAt now token =
      (recordRateLimit db id nextAvailableAt now token).map fun r =>
        (r.1, r.2.addSenders more) := by
  simp only [recordRateLimit]
  rw [show (db.addSenders more).emails = db.emails from rfl]
  generalize updateManyAndReturn (deferrable id) (deferRow nextAvailableAt) db.emails = updated
  cases updated.1.head? with
  | none => rfl
  | some email =>
      show Except.map _
        ((Database.addSenders more { db with emails := updated.2 }).createSendAttempt _) = _
      rw [createSendAttempt_addSenders]
      exact map_addSenders _ _

theorem claimEmail_addSenders (id token : Uuid) (now : Int) :
    claimEmail (db.addSenders more) id now token =
      (claimEmail db id now token).map fun r => (r.1, r.2.addSenders more) := by
  simp only [claimEmail]
  rw [show (db.addSenders more).emails = db.emails from rfl]
  generalize updateManyAndReturn (claimable id) (claimRow token now) db.emails = updated
  cases updated.1.head? with
  | none => rfl
  | some email =>
      dsimp only
      split_ifs
      · rfl
      · show Except.map _
          ((Database.addSenders more { db with emails := updated.2 }).createSendAttempt _) = _
        rw [createSendAttempt_addSenders]
        exact map_addSenders _ _

theorem recordAccepted_addSenders (claim : ClaimedEmail) (receipt : DeliveryReceipt) (now : Int) :
    recordAccepted (db.addSenders more) claim receipt now =
      (recordAccepted db claim receipt now).map fun r => (r.1, r.2.addSenders more) := by
  simp only [recordAccepted]
  rw [show (db.addSenders more).emails = db.emails from rfl]
  generalize updateManyAndReturn (heldBy claim) (acceptRow receipt now) db.emails = updated
  split_ifs
  · rfl
  · show Except.map _
      ((Database.addSenders more { db with emails := updated.2 }).updateSendAttempt _ _) = _
    rw [updateSendAttempt_addSenders]
    exact map_addSenders _ _

theorem recordFailure_addSenders (config : AppConfig) (claim : ClaimedEmail)
    (classification : DeliveryClassification) (finalRetry : Bool) (error : ThrownValue)
    (now : Int) :
    recordFailure config (db.addSenders more) claim classification finalRetry error now =
      (recordFailure config db claim classification finalRetry error now).map
        fun r => (r.1, r.2.addSenders more) := by
  simp only [recordFailure]
  rw [show (db.addSenders more).emails = db.emails from rfl]
  generalize updateMany (heldBy claim) (failRow config _ _ now) db.emails = emails
  show Except.map _
    ((Database.addSenders more { db with emails := emails }).updateSendAttempt _ _) = _
  rw [updateSendAttempt_addSenders]
  exact map_addSenders _ _

theorem labelBatch_addSenders (batchId : Uuid) (unsuccessful : Nat) :
    labelBatch (db.addSenders more) batchId unsuccessful =
      (labelBatch db batchId unsuccessful).map fun r => (r.1, r.2.addSenders more) := by
  unfold labelBatch
  rw [apply_ite (Except.map _)]
  rfl

/-- No row names one of the new senders. -/
def Unnamed (more : List EmailSender) (db : Database) : Prop :=
  ∀ e ∈ db.emails, ∀ x ∈ more, x.id ≠ e.senderId

theorem findScheduledEmail_addSenders (h : Unnamed more db) (id : Uuid) :
    (db.addSenders more).findScheduledEmail id = db.findScheduledEmail id := by
  unfold Database.findScheduledEmail
  dsimp only [Database.addSenders]
  cases hemail : db.emails.find? fun e => decide (e.id = id) with
  | none => rfl
  | some email =>
      have hnone : more.find? (fun s => decide (s.id = email.senderId)) = none := by
        rw [List.find?_eq_none]
        intro x hx
        simpa using h email (List.mem_of_find?_eq_some hemail) x hx
      simp only [Option.bind_eq_bind, Option.bind_some]
      rw [List.find?_append, hnone, Option.or_none]

/-- The world with more senders. -/
def World.addSenders (more : List EmailSender) (w : World) : World :=
  { w with database := w.database.addSenders more }

/-- **An operation does not see senders that no row names.** -/
theorem advance_addSenders {config : AppConfig} {job : Job} {input : StepInput} {w w' : World}
    {stage stage' : Stage} (hunnamed : Unnamed more w.database)
    (h : advance config job input w stage = some (stage', w')) :
    advance config job input (w.addSenders more) stage = some (stage', w'.addSenders more) := by
  have hdeliver : ∀ {β : Type} (outcome : Transaction β) (after : Except InfrastructureError β → Stage),
      some (after (input.reply.deliver w.database outcome).1,
        ({ w with database := (input.reply.deliver w.database outcome).2 } : World)) =
          some (stage', w') →
      some (after (input.reply.deliver (w.database.addSenders more)
          (outcome.map fun r => (r.1, r.2.addSenders more))).1,
        ({ w.addSenders more with database := (input.reply.deliver (w.database.addSenders more)
          (outcome.map fun r => (r.1, r.2.addSenders more))).2 } : World)) =
          some (stage', w'.addSenders more) := by
    intro β outcome after heq
    rw [Reply.deliver_map]
    cases heq
    rfl
  cases stage with
  | loading =>
      simp only [advance] at h ⊢
      rw [show (w.addSenders more).database = w.database.addSenders more from rfl,
        findScheduledEmail_addSenders hunnamed]
      cases h
      rfl
  | recordingRateLimit loaded nextAvailableAt now =>
      simp only [advance] at h ⊢
      rw [show (w.addSenders more).database = w.database.addSenders more from rfl,
        recordRateLimit_addSenders]
      exact hdeliver _ _ h
  | claiming loaded now =>
      simp only [advance] at h ⊢
      rw [show (w.addSenders more).database = w.database.addSenders more from rfl,
        claimEmail_addSenders]
      exact hdeliver _ _ h
  | recordingAccepted d receipt =>
      simp only [advance] at h ⊢
      rw [show (w.addSenders more).database = w.database.addSenders more from rfl,
        recordAccepted_addSenders]
      exact hdeliver _ _ h
  | recordingFailure d error =>
      simp only [advance] at h ⊢
      rw [show (w.addSenders more).database = w.database.addSenders more from rfl,
        recordFailure_addSenders]
      exact hdeliver _ _ h
  | labelling d recorded unsuccessful =>
      simp only [advance] at h ⊢
      rw [show (w.addSenders more).database = w.database.addSenders more from rfl,
        labelBatch_addSenders]
      exact hdeliver _ _ h
  -- The other operations leave the database alone.
  | delaying => cases h; rfl
  | reserving => cases h; rfl
  | claimed => cases h; rfl
  | countingRemaining => cases h; rfl
  | countingUnsuccessful => cases h; rfl
  | sending => cases h
  | finished => cases h
  | crashed => cases h

/-- **A step of the worker** does not see senders that no row names. -/
theorem step_addSenders {s t : Delivery} {event : DeliveryEvent}
    (hunnamed : Unnamed more s.database) (hwork : event.isRequest = false)
    (h : (Delivery.system config).step event s = some t) :
    (Delivery.system config).step event (s.addSenders more) = some (t.addSenders more) := by
  have hstages : ∀ i, (s.addSenders more).stageOf i = s.stageOf i := fun _ => rfl
  have hstatuses : ∀ m, (s.addSenders more).statusOf m = s.statusOf m := fun _ => rfl
  cases event with
  | createBatch => cases hwork
  | updateSender => cases hwork
  -- Only an operation on the database can meet the senders; the other steps do not read it.
  | advance i input =>
      obtain ⟨x, stage', w, hx, hstage, hadvance, rfl⟩ := Delivery.step_advance config h
      have hx' : (s.addSenders more).executions[i]? = some x := hx
      have hwide : advance config x.job input (s.addSenders more).world x.stage =
          some (stage', w.addSenders more) := advance_addSenders hunnamed hadvance
      simp only [Delivery.system, Delivery.step]
      rw [hx', Option.bind_some, hwide]
      rfl
  | sendReturns i receipt =>
      simp only [Delivery.system, Delivery.step, Delivery.sendReturns] at h ⊢
      rw [hstages]
      split at h
      next d hd =>
        rw [hstatuses]
        split_ifs at h with hguard
        rw [if_neg hguard]
        cases h
        rfl
      next => cases h
  | sendThrows i error =>
      simp only [Delivery.system, Delivery.step, Delivery.sendThrows] at h ⊢
      rw [hstages]
      split at h
      next d hd =>
        rw [hstatuses]
        split_ifs at h with htransient hpending
        · rw [if_pos htransient, if_pos hpending]
          cases h
          rfl
        · rw [if_neg htransient]
          cases h
          rfl
      next => cases h
  | smtpAccepts m =>
      simp only [Delivery.system, Delivery.step] at h ⊢
      rw [hstatuses]
      split_ifs at h with hpending
      rw [if_pos hpending]
      cases h
      rfl
  | crash i =>
      simp only [Delivery.system, Delivery.step] at h ⊢
      rw [hstages]
      split_ifs at h with hrunning
      rw [if_pos hrunning]
      cases h
      rfl
  | tick clock =>
      simp only [Delivery.system, Delivery.step] at h ⊢
      split_ifs at h with hlater
      cases h
      exact if_pos hlater
  | deliver job => cases h; rfl
  | sweep now => cases h; rfl
  | seed policy acceptedCount lastAcceptedAt now => cases h; rfl

/-- A batch is created alike in a database with the same batches and emails, where the sender is
found. -/
theorem createBatchTransaction_of_same {db₂ : Database} {input : CreateBatchInput} {batchId : Uuid}
    {newId : Nat → Uuid} {batch : EmailBatch}
    (hsender : findActiveSender db₂ input.senderId input.userId =
      findActiveSender db input.senderId input.userId)
    (hbatches : db₂.batches = db.batches) (hemails : db₂.emails = db.emails)
    (h : createBatchTransaction db input batchId newId = .ok (batch, db')) :
    createBatchTransaction db₂ input batchId newId =
      .ok (batch, { updateSenderPolicy db₂ input.senderId input with
        batches := db₂.batches ++ [batch]
        emails := db₂.emails ++ emailRows input batchId newId }) := by
  obtain ⟨-, -, -, -, hfits, -⟩ := createBatchTransaction_eq_ok h
  have hsame := createBatchTransaction_congr hsender (by rw [hbatches])
    (by rw [hemails]; exact hfits) hfits
  rw [h] at hsame
  cases hrun : createBatchTransaction db₂ input batchId newId with
  | error e =>
      rw [hrun] at hsame
      cases hsame
  | ok result =>
      obtain ⟨batch', db''⟩ := result
      rw [hrun] at hsame
      obtain rfl : batch' = batch := by injection hsame
      obtain ⟨-, -, -, -, -, rfl⟩ := createBatchTransaction_eq_ok hrun
      rfl

/-- The attempts do not matter. -/
theorem createBatchTransaction_withAttempts {input : CreateBatchInput} {batchId : Uuid}
    {newId : Nat → Uuid} {batch : EmailBatch} (attempts : List SendAttempt)
    (h : createBatchTransaction db input batchId newId = .ok (batch, db')) :
    createBatchTransaction { db with attempts } input batchId newId =
      .ok (batch, { db' with attempts }) := by
  have hsender : findActiveSender { db with attempts } input.senderId input.userId =
      findActiveSender db input.senderId input.userId := rfl
  rw [createBatchTransaction_of_same hsender rfl rfl h]
  obtain ⟨-, -, -, -, -, rfl⟩ := createBatchTransaction_eq_ok h
  rfl

section NewBatch

variable {input : CreateBatchInput} (hother : ∀ x ∈ more, x.id ≠ input.senderId)
include hother

theorem findActiveSender_addSenders (userId : Uuid) :
    findActiveSender (db.addSenders more) input.senderId userId =
      findActiveSender db input.senderId userId := by
  have hnone : more.find? (fun s => decide (s.id = input.senderId) && decide (s.userId = userId) &&
      s.isActive) = none := by
    rw [List.find?_eq_none]
    intro x hx
    simp [hother x hx]
  unfold findActiveSender Database.addSenders
  rw [List.find?_append, hnone, Option.or_none]

theorem updateSenderPolicy_addSenders :
    updateSenderPolicy (db.addSenders more) input.senderId input =
      (updateSenderPolicy db input.senderId input).addSenders more := by
  have hmore := updateMany_of_none (p := fun x : EmailSender => decide (x.id = input.senderId))
    (f := fun x => { x with
      hourlyLimit := input.hourlyLimit
      minimumDelayMs := input.minimumDelayMs })
    fun x hx => decide_eq_false (hother x hx)
  unfold updateSenderPolicy Database.addSenders
  unfold updateMany at hmore ⊢
  dsimp only
  rw [List.map_append, hmore]

/-- A batch is created alike if the new senders are not the one of the request. -/
theorem createBatchTransaction_addSenders {batchId : Uuid} {newId : Nat → Uuid} {batch : EmailBatch}
    (h : createBatchTransaction db input batchId newId = .ok (batch, db')) :
    createBatchTransaction (db.addSenders more) input batchId newId =
      .ok (batch, db'.addSenders more) := by
  have hwide := createBatchTransaction_of_same (findActiveSender_addSenders hother input.userId)
    rfl rfl h
  obtain ⟨-, -, -, -, -, rfl⟩ := createBatchTransaction_eq_ok h
  rw [hwide, updateSenderPolicy_addSenders hother]
  rfl

end NewBatch

end AddSenders

/-! ## Updates of senders -/

/-- The ids of senders are part of their keys. -/
theorem primaryKey_of_keys {senders senders' : List EmailSender}
    (h : PrimaryKey EmailSender.id senders)
    (hkeys : senders'.map EmailSender.key = senders.map EmailSender.key) :
    PrimaryKey EmailSender.id senders' :=
  PrimaryKey.of_map_eq (f := Prod.fst) h hkeys

/-- **Senders are updated one after the other**: a run leads to any new columns of the same
senders. -/
theorem steps_updateSenders {old new : List EmailSender}
    (hkeys : new.map EmailSender.key = old.map EmailSender.key) (front more : List EmailSender)
    (s : Delivery) (hid : PrimaryKey EmailSender.id (front ++ (old ++ more))) :
    (Delivery.system config).Steps TransitionSystem.anyStep
      (s.withDatabase { s.database with senders := front ++ (old ++ more) })
      (s.withDatabase { s.database with senders := front ++ (new ++ more) }) := by
  induction old generalizing new front with
  | nil =>
      obtain rfl : new = [] := by simpa using hkeys
      exact .refl
  | cons x old ih =>
      obtain ⟨y, new, rfl⟩ : ∃ y rest, new = y :: rest := by
        cases new with
        | nil => cases hkeys
        | cons y rest => exact ⟨y, rest, rfl⟩
      rw [List.map_cons, List.map_cons] at hkeys
      obtain ⟨hkey, hrest⟩ := List.cons.inj hkeys
      obtain ⟨hy, howner⟩ : y.id = x.id ∧ y.userId = x.userId := Prod.mk.inj hkey
      -- The first of them is updated; the others do not have its id.
      have hupdated := PrimaryKey.updateMany_append_cons hid fun z => { y with userId := z.userId }
      rw [← hy, ← howner] at hupdated
      have hfirst : (Delivery.system config).step (.updateSender y)
          (s.withDatabase { s.database with senders := front ++ x :: (old ++ more) }) =
        some (s.withDatabase { s.database with senders := front ++ y :: (old ++ more) }) :=
        congrArg (fun senders => some (s.withDatabase { s.database with senders })) hupdated
      have hid' : PrimaryKey EmailSender.id ((front ++ [y]) ++ (old ++ more)) := by
        refine primaryKey_of_keys hid ?_
        simp [hkey]
      have hlater := ih hrest (front ++ [y]) hid'
      simp only [List.append_assoc, List.cons_append, List.nil_append] at hlater
      exact (TransitionSystem.Steps.single trivial hfirst).trans hlater

/-! ## The two parts -/

namespace Application

variable {s t : Application} {P : Application → ApplicationEvent → Prop} {more : List EmailSender}

/-- The worker writes no column that says whose rows these are. -/
theorem keepsKeys_of_work {event : DeliveryEvent} {tables : Tables} (hsynced : s.Synced)
    (h : s.work config event tables = some t) : s.tables.KeepsKeys t.tables := by
  obtain ⟨hwork, hstep, rfl, husers, hdatabase⟩ := work_eq_some h
  refine ⟨husers, ?_⟩
  rw [hsynced, hdatabase]
  rcases keepsKeys_of_databaseStep (Delivery.databaseStep_of_step hstep) with
    hkeys | ⟨input, batchId, newId, batch, hok⟩
  · exact hkeys
  · -- It creates no batch.
    have hcount := congrArg List.length (rows_of_work hwork hstep).1
    obtain ⟨-, -, -, -, -, hdb⟩ := createBatchTransaction_eq_ok hok
    rw [hdb] at hcount
    simp at hcount

/-- **The application runs the API**: what the worker commits is a write in the background. -/
theorem api_reachable (h : (system config lib).Reachable P s) :
    (apiSystem config lib).Reachable TransitionSystem.anyStep s.tables := by
  apply h.map Application.tables
  · intro s hs
    exact hs.1
  · intro s event t hreach _ hstep
    cases event with
    | login identity ctx =>
        cases hstep
        exact .single (l := .login identity ctx) trivial rfl
    | request user request ctx =>
        cases hstep
        exact .single (l := .request user request ctx) trivial rfl
    | work event tables =>
        have hkeys := keepsKeys_of_work (synced_of_reachable hreach) hstep
        exact .single (l := .background t.tables) trivial (if_pos hkeys)

/-- The senders of the delivery system are the ones of the tables. -/
theorem Synced.senders (h : s.Synced) : s.delivery.database.senders = s.tables.database.senders :=
  (congrArg Database.senders h).symm

/-- No row names a sender that is not in the database. -/
theorem unnamed_of_reachable (h : (system config lib).Reachable P s)
    (hid : PrimaryKey EmailSender.id (s.delivery.database.senders ++ more)) :
    Unnamed more s.delivery.database := by
  have htenant := tenantInv_of_reachable (api_reachable h)
  have hsynced := synced_of_reachable h
  intro e he x hx heq
  rw [← congrArg Database.emails hsynced] at he
  obtain ⟨stored, hstored, rfl⟩ := List.mem_map.1 he
  obtain ⟨b, hb, -, hbatch⟩ := htenant.emailBatch stored hstored
  obtain ⟨sender, hsender, hname, -⟩ := htenant.batchSender b hb
  -- The sender of the row is the one of its batch, which is in the tables.
  have hmem : sender.toEmailSender ∈ s.delivery.database.senders := by
    rw [hsynced.senders]
    exact List.mem_map_of_mem hsender
  exact PrimaryKey.ne_of_append hid hmem hx (hname.trans (hbatch.trans heq.symm))

/-- A run of the delivery system leads to the database with the given senders added. -/
def Matched (config : AppConfig) (s : Application) : Prop :=
  ∀ more, PrimaryKey EmailSender.id (s.delivery.database.senders ++ more) →
    (Delivery.system config).Reachable TransitionSystem.anyStep (s.delivery.addSenders more)

theorem matched_init (h : (system config lib).init s) : Matched config s := by
  obtain ⟨-, ⟨hbatches, hemails, hattempts, hlimiter⟩, -⟩ := h
  intro more _
  exact ⟨s.delivery.addSenders more, ⟨hbatches, hemails, hattempts, hlimiter⟩, .refl⟩

/-- The senders that the API adds are there from the start on, and the others are updated. -/
theorem Matched.writeSenders (hmatched : Matched config s) (hsynced : s.Synced) {tables : Tables}
    {kept added : List EmailSender}
    (hkeys : kept.map EmailSender.key = s.tables.database.senders.map EmailSender.key)
    (hsenders : tables.database.senders = kept ++ added)
    (hbatches : tables.database.batches = s.tables.database.batches)
    (hemails : tables.database.emails = s.tables.database.emails) :
    Matched config (s.write tables) := by
  intro more hid
  have hid' : PrimaryKey EmailSender.id (kept ++ (added ++ more)) := by
    rw [← List.append_assoc, ← hsenders]
    exact hid
  rw [← hsynced.senders] at hkeys
  have hbefore : PrimaryKey EmailSender.id (s.delivery.database.senders ++ (added ++ more)) := by
    apply primaryKey_of_keys hid'
    simp only [List.map_append, hkeys]
  refine (hmatched (added ++ more) hbefore).trans ?_
  have hend : (s.write tables).delivery.addSenders more =
      s.delivery.withDatabase { s.delivery.database with senders := kept ++ (added ++ more) } := by
    have hbatches' := hbatches.trans (congrArg Database.batches hsynced)
    have hemails' := hemails.trans (congrArg Database.emails hsynced)
    rw [← List.append_assoc, ← hsenders]
    show s.delivery.withDatabase ⟨tables.database.senders ++ more, tables.database.batches,
      tables.database.emails, s.delivery.database.attempts⟩ = _
    rw [hbatches', hemails']
  rw [hend]
  exact steps_updateSenders hkeys [] (added ++ more) s.delivery hbefore

/-- The batch that the API creates is created in the delivery system. -/
theorem Matched.writeBatch (hmatched : Matched config s) (hsynced : s.Synced) {tables : Tables}
    {input : CreateBatchInput} {batchId : Uuid} {newId : Nat → Uuid} {batch : EmailBatch}
    (hleads : input.parsedLeads.leads ≠ [])
    (hok : createBatchTransaction s.tables.database input batchId newId =
      .ok (batch, tables.database)) :
    Matched config (s.write tables) := by
  intro more hid
  obtain ⟨⟨sender, hfound⟩, -, -, -, -, hdb⟩ := createBatchTransaction_eq_ok hok
  obtain ⟨hsender, hname, -⟩ := findActiveSender_eq_some hfound
  have hkeys : tables.database.senders.map EmailSender.key =
      s.delivery.database.senders.map EmailSender.key := by
    rw [hdb, hsynced.senders]
    apply map_updateMany
    intro x
    rfl
  have hbefore : PrimaryKey EmailSender.id (s.delivery.database.senders ++ more) := by
    apply primaryKey_of_keys hid
    rw [List.map_append, List.map_append, ← hkeys]
    rfl
  -- The request names a sender of the database, which is none of the others.
  have hother : ∀ x ∈ more, x.id ≠ input.senderId := by
    rw [← hsynced.senders] at hsender
    intro x hx heq
    exact PrimaryKey.ne_of_append hbefore hsender hx (hname.trans heq.symm)
  have hcreated := createBatchTransaction_addSenders hother
    (createBatchTransaction_withAttempts s.delivery.database.attempts hok)
  rw [hsynced] at hcreated
  refine (hmatched more hbefore).trans (.single (l := .createBatch input batchId newId) trivial ?_)
  have hdatabase : (s.delivery.addSenders more).database =
      Database.addSenders more s.delivery.database := rfl
  simp only [Delivery.system, Delivery.step]
  rw [if_neg hleads, hdatabase, hcreated]
  rfl

/-- What the API writes is written by steps of the delivery system. -/
theorem Matched.write (hmatched : Matched config s) (hsynced : s.Synced) {tables : Tables}
    (h : RequestStep s.tables.database tables.database) : Matched config (s.write tables) := by
  cases h with
  | senders kept added hkeys hsenders hbatches hemails =>
      exact hmatched.writeSenders hsynced hkeys hsenders hbatches hemails
  | created hleads hok => exact hmatched.writeBatch hsynced hleads.nonempty hok

/-- **Every run of the application is matched**, by induction on its steps. -/
theorem matched_of_reachable (h : (system config lib).Reachable P s) : Matched config s := by
  apply h.invariant_of_reachable
  · intro s hs
    exact matched_init hs
  · intro s event t hreach _ hstep hmatched
    have hsynced := synced_of_reachable hreach
    cases event with
    | login identity ctx =>
        cases hstep
        exact hmatched.write hsynced (requestStep_login identity ctx s.tables)
    | request user request ctx =>
        cases hstep
        exact hmatched.write hsynced (requestStep_serve s.tables request)
    | work event tables =>
        obtain ⟨hwork, hdelivery, -⟩ := work_eq_some hstep
        have hsenders := senders_of_work hwork hdelivery
        -- The worker adds no sender, so the same senders are still to come.
        intro more hid
        rw [hsenders] at hid
        have hwide := step_addSenders (unnamed_of_reachable hreach hid) hwork hdelivery
        exact (hmatched more hid).trans (.single trivial hwide)

/-- **The application runs the delivery system.** -/
theorem delivery_reachable (h : (system config lib).Reachable P s) :
    (Delivery.system config).Reachable TransitionSystem.anyStep s.delivery := by
  have hid : PrimaryKey EmailSender.id (s.delivery.database.senders ++ []) := by
    rw [List.append_nil, (synced_of_reachable h).senders]
    have hkey := (tenantInv_of_reachable (api_reachable h)).senderKey
    unfold PrimaryKey at hkey ⊢
    rw [Tables.database, List.map_map]
    exact hkey
  have hmatched := matched_of_reachable h [] hid
  rwa [Delivery.addSenders, Database.addSenders, List.append_nil] at hmatched

end Application

end EmailScheduler
