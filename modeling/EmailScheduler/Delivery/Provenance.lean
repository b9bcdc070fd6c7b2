import EmailScheduler.Delivery.HourlyCap
import EmailScheduler.Delivery.Ledger

/-!
# Where messages come from

Every message that is handed to the SMTP server was asked for. In a run of the delivery system the
message belongs to one step of the run that created a batch: its recipient is a lead of that
request, its subject and body are the request's, and it goes out in the name of the sender that the
request chose, as that sender was at some time after the request (`submissions_requested`).

A row keeps its recipient, a batch its contents and a sender its owner, so it is enough to follow
what an execution loads: `Origin` is the past of a loaded row, and it only grows with the run.
-/

set_option autoImplicit false

namespace EmailScheduler

open Foundation

/-! ## Requests and what is made of them -/

/-- A batch as it was created: without the label that finished executions give it. -/
def EmailBatch.unlabelled (b : EmailBatch) : EmailBatch := { b with status := .scheduled }

@[simp] theorem EmailBatch.unlabelled_id (b : EmailBatch) : b.unlabelled.id = b.id := rfl

@[simp] theorem EmailBatch.unlabelled_subject (b : EmailBatch) : b.unlabelled.subject = b.subject :=
  rfl

@[simp] theorem EmailBatch.unlabelled_bodyText (b : EmailBatch) :
    b.unlabelled.bodyText = b.bodyText := rfl

/-- The row is number `n` of a request. -/
structure RowOf (input : CreateBatchInput) (batchId : Uuid) (newId : Nat → Uuid) (n : Nat)
    (e : ScheduledEmail) : Prop where
  lead : input.parsedLeads.leads[n]?.map ParsedLead.email = some e.recipientEmail
  id : e.id = newId n
  batch : e.batchId = batchId
  sender : e.senderId = input.senderId

/-- The message is number `n` of a request, in the name of a sender. -/
structure MessageOf (input : CreateBatchInput) (newId : Nat → Uuid) (n : Nat) (sender : EmailSender)
    (m : EmailMessage) : Prop where
  id : m.scheduledEmailId = newId n
  recipient : input.parsedLeads.leads[n]?.map ParsedLead.email = some m.recipientEmail
  subject : m.subject = input.subject
  bodyText : m.bodyText = input.bodyText
  fromName : m.fromName = sender.displayName
  fromEmail : m.fromEmail = sender.email

variable {config : AppConfig} {input : CreateBatchInput} {batchId : Uuid}
  {newId : Nat → Uuid} {n : Nat}

/-- A row that a request inserts. -/
theorem exists_rowOf {e : ScheduledEmail} (h : e ∈ emailRows input batchId newId) :
    ∃ n, RowOf input batchId newId n e := by
  obtain ⟨n, hn, rfl⟩ := List.mem_mapIdx.1 h
  refine ⟨n, ?_, rfl, rfl, rfl⟩
  rw [List.getElem?_eq_getElem hn]
  rfl

/-- A row stays number `n` of its request. -/
theorem RowOf.account {s : Delivery} {event : DeliveryEvent} {c c' : Account}
    (h : RowOf input batchId newId n c.email) (hstep : Delivery.AccountStep config s event c c') :
    RowOf input batchId newId n c'.email := by
  cases hstep <;> exact ⟨h.lead, h.id, h.batch, h.sender⟩

/-- The message of a loaded row and batch of one request. -/
theorem RowOf.message {loaded : LoadedEmail} (h : RowOf input batchId newId n loaded.email)
    (hbatch : loaded.batch.unlabelled = createdBatch input batchId) :
    MessageOf input newId n loaded.sender loaded.message where
  id := h.id
  recipient := h.lead
  subject := (loaded.batch.unlabelled_subject.symm.trans (congrArg EmailBatch.subject hbatch) :)
  bodyText := (loaded.batch.unlabelled_bodyText.symm.trans (congrArg EmailBatch.bodyText hbatch) :)
  fromName := rfl
  fromEmail := rfl

/-! ## What a step keeps of batches and senders -/

/-- A sender keeps its owner, also through the creation of a batch. -/
theorem senderKeys_of_databaseStep {db db' : Database} (h : DatabaseStep config db db') :
    db'.senders.map EmailSender.key = db.senders.map EmailSender.key := by
  rcases keepsKeys_of_databaseStep h with hkeys | ⟨input, batchId, newId, batch, hok⟩
  · exact hkeys.1
  · obtain ⟨-, -, -, -, -, rfl⟩ := createBatchTransaction_eq_ok hok
    apply map_updateMany
    intro x
    rfl

/-- An execution that was admitted has loaded its row. -/
theorem Stage.loaded?_of_admission? {stage : Stage} {loaded : LoadedEmail} {now : Int}
    (h : stage.admission? = some (loaded, now)) : stage.loaded? = some loaded := by
  cases stage <;> cases h <;> rfl

namespace Delivery

variable {P : Delivery → DeliveryEvent → Prop} {s₀ s t : Delivery} {event : DeliveryEvent}

/-- A batch keeps its contents, and a new one is that of a request. -/
theorem batches_of_step (h : (system config).step event s = some t) :
    t.database.batches.map EmailBatch.unlabelled = s.database.batches.map EmailBatch.unlabelled ∨
      ∃ input batchId newId batch, event = .createBatch input batchId newId ∧
        createBatchTransaction s.database input batchId newId = .ok (batch, t.database) := by
  cases stepCase_of_step h with
  | @advance i input x stage' w hx hstage hadvance =>
      left
      rcases parents_of_advance hadvance with ⟨-, hbatches⟩ | ⟨d, recorded, unsuccessful, hlabel⟩
      · exact congrArg _ hbatches
      · rw [hlabel] at hadvance
        cases hadvance
        refine Reply.deliver_snd _ _ _ (R := fun db => db.batches.map EmailBatch.unlabelled =
          s.database.batches.map EmailBatch.unlabelled) rfl ?_
        intro _ db hok
        rw [labelBatch_eq_ok hok]
        apply map_updateMany
        intro b
        rfl
  | createBatch hleads hok => exact Or.inr ⟨_, _, _, _, rfl, hok⟩
  | _ => exact Or.inl rfl

/-- The sender rows of a run are those of its start, under the same owners. -/
theorem senderKeys_of_steps (h : (system config).Steps P s₀ s) :
    s.database.senders.map EmailSender.key = s₀.database.senders.map EmailSender.key := by
  induction h with
  | refl => rfl
  | tail event _ _ hstep ih =>
      exact (senderKeys_of_databaseStep (databaseStep_of_step hstep)).trans ih

/-- After a step an execution has the row it had before, or a row that its query just found. -/
theorem loaded?_of_step {i : Nat} {loaded : LoadedEmail}
    (h : (system config).step event s = some t) (hloaded : (t.stageOf i).loaded? = some loaded) :
    (s.stageOf i).loaded? = some loaded ∨
      ∃ id, s.database.findScheduledEmail id = some loaded := by
  cases stageStep_of_step h i with
  | same heq => exact Or.inl (heq ▸ hloaded)
  | delivered _ _ _ heq => rw [heq] at hloaded; cases hloaded
  | crashed _ heq => rw [heq] at hloaded; cases hloaded
  | advanced input _ _ hadvance =>
      rcases loaded?_of_advance hadvance hloaded with hbefore | hfind
      · exact Or.inl hbefore
      · exact Or.inr ⟨_, hfind⟩
  | returned d receipt hstage heq =>
      rw [heq, loaded?_afterSend] at hloaded
      rw [hstage]
      exact Or.inl hloaded
  | threw d error hstage heq =>
      rw [heq] at hloaded
      rw [hstage]
      exact Or.inl hloaded

/-! ## The past of a row -/

/-- The run created the batch of the request. -/
def Requested (config : AppConfig) (P : Delivery → DeliveryEvent → Prop) (s₀ s : Delivery)
    (input : CreateBatchInput) (batchId : Uuid) (newId : Nat → Uuid) (r' : Delivery) : Prop :=
  ∃ r, (system config).Took P s₀ s (.createBatch input batchId newId) r r'

/-- **The past of a loaded row**: the request that asked for it, and a later state with its
sender. -/
def Origin (config : AppConfig) (P : Delivery → DeliveryEvent → Prop) (s₀ s : Delivery)
    (loaded : LoadedEmail) : Prop :=
  ∃ input batchId newId n r' q, Requested config P s₀ s input batchId newId r' ∧
    RowOf input batchId newId n loaded.email ∧
    loaded.batch.unlabelled = createdBatch input batchId ∧
    (system config).Steps P r' q ∧ (system config).Steps P q s ∧
    loaded.sender ∈ q.database.senders ∧ loaded.sender.id = input.senderId

theorem Requested.tail {r' : Delivery} (h : Requested config P s₀ s input batchId newId r')
    (hP : P s event) (hstep : (system config).step event s = some t) :
    Requested config P s₀ t input batchId newId r' := by
  obtain ⟨r, htook⟩ := h
  exact ⟨r, htook.tail hP hstep⟩

/-- The past only grows. -/
theorem Origin.tail {loaded : LoadedEmail} (h : Origin config P s₀ s loaded) (hP : P s event)
    (hstep : (system config).step event s = some t) : Origin config P s₀ t loaded := by
  obtain ⟨input, batchId, newId, n, r', q, hrequested, hrow, hbatch, hbefore, hafter, hsender⟩ := h
  exact ⟨input, batchId, newId, n, r', q, hrequested.tail hP hstep, hrow, hbatch, hbefore,
    .tail event hafter hP hstep, hsender⟩

/-- The sender of the request belongs to its user, in every later state. -/
theorem owner_of_requested (hkey : PrimaryKey EmailSender.id s₀.database.senders) {q r' : Delivery}
    (h : Requested config P s₀ s input batchId newId r') (hq : (system config).Steps P r' q)
    {x : EmailSender} (hx : x ∈ q.database.senders) (hid : x.id = input.senderId) :
    x.userId = input.userId := by
  obtain ⟨r, htook⟩ := h
  have hcase : StepCase config r (.createBatch input batchId newId) r' :=
    stepCase_of_step htook.step
  cases hcase with
  | createBatch hleads hok =>
      obtain ⟨⟨y, hy⟩, -⟩ := createBatchTransaction_eq_ok hok
      have hown := List.find?_some hy
      simp only [Bool.and_eq_true, decide_eq_true_eq] at hown
      -- Both senders have their keys from the start of the run.
      have hykey : y.key ∈ s₀.database.senders.map EmailSender.key := by
        rw [← senderKeys_of_steps htook.before]
        exact List.mem_map_of_mem (List.mem_of_find?_eq_some hy)
      have hxkey : x.key ∈ s₀.database.senders.map EmailSender.key := by
        rw [← senderKeys_of_steps
          ((htook.before.trans (.single htook.allowed htook.step)).trans hq)]
        exact List.mem_map_of_mem hx
      obtain ⟨y₀, hy₀, hyeq⟩ := List.mem_map.1 hykey
      obtain ⟨x₀, hx₀, hxeq⟩ := List.mem_map.1 hxkey
      obtain ⟨hyid, hyuser⟩ := Prod.ext_iff.1 hyeq
      obtain ⟨hxid, hxuser⟩ := Prod.ext_iff.1 hxeq
      have hsame : x₀ = y₀ := hkey.eq_of_key_eq hx₀ hy₀
        (hxid.trans (hid.trans (hown.1.1.symm.trans hyid.symm)))
      rw [hsame] at hxuser
      exact (hxuser.symm.trans hyuser).trans hown.1.2

/-- What a run knows about its rows, the rows its executions have loaded, and its messages. -/
structure OriginInv (config : AppConfig) (P : Delivery → DeliveryEvent → Prop) (s₀ s : Delivery) :
    Prop where
  batches : PrimaryKey EmailBatch.id s.database.batches
  rows : ∀ e ∈ s.database.emails, ∃ input batchId newId n r',
    Requested config P s₀ s input batchId newId r' ∧ (system config).Steps P r' s ∧
      RowOf input batchId newId n e ∧
      createdBatch input batchId ∈ s.database.batches.map EmailBatch.unlabelled
  loaded : ∀ i loaded, (s.stageOf i).loaded? = some loaded → Origin config P s₀ s loaded
  submissions : ∀ x ∈ s.submissions, ∃ loaded, x.message = loaded.message ∧
    x.senderId = loaded.email.senderId ∧ Origin config P s₀ s loaded

theorem originInv_init (h : (system config).init s₀) : OriginInv config P s₀ s₀ := by
  obtain ⟨hbatches, hemails, -, -, -, hsubmissions, hexecutions⟩ := h
  refine ⟨?_, ?_, ?_, ?_⟩
  · rw [hbatches]
    exact List.nodup_nil
  · intro e he
    rw [hemails] at he
    cases he
  · intro i loaded hloaded
    rw [stageOf, hexecutions] at hloaded
    cases hloaded
  · intro x hx
    rw [hsubmissions] at hx
    cases hx

/-- What a query finds was asked for. -/
theorem OriginInv.find (hinv : OriginInv config P s₀ s) {id : Uuid} {loaded : LoadedEmail}
    (h : s.database.findScheduledEmail id = some loaded) : Origin config P s₀ s loaded := by
  obtain ⟨hemail, -, hbatch, hbatchId, hsender, hsenderId⟩ :=
    Database.findScheduledEmail_eq_some _ h
  obtain ⟨input, batchId, newId, n, r', hrequested, hafter, hrow, hcreated⟩ := hinv.rows _ hemail
  obtain ⟨b, hb, hcontents⟩ := List.mem_map.1 hcreated
  -- The batch of the row is the one that the request created, because their ids agree.
  have hid : b.id = loaded.batch.id := by
    rw [hbatchId, hrow.batch, ← b.unlabelled_id, hcontents]
    rfl
  have hsame : b = loaded.batch := hinv.batches.eq_of_key_eq hb hbatch hid
  rw [hsame] at hcontents
  exact ⟨input, batchId, newId, n, r', s, hrequested, hrow, hcontents, hafter, .refl, hsender,
    hsenderId.trans hrow.sender⟩

/-- The batches after a step. -/
theorem OriginInv.batches_step (hinv : OriginInv config P s₀ s)
    (hstep : (system config).step event s = some t) :
    PrimaryKey EmailBatch.id t.database.batches ∧
      ∀ b ∈ s.database.batches.map EmailBatch.unlabelled,
        b ∈ t.database.batches.map EmailBatch.unlabelled := by
  rcases batches_of_step hstep with hkept | ⟨input, batchId, newId, batch, -, hok⟩
  · have hids : t.database.batches.map EmailBatch.id = s.database.batches.map EmailBatch.id := by
      simpa [Function.comp_def] using congrArg (List.map EmailBatch.id) hkept
    refine ⟨by rw [PrimaryKey, hids]; exact hinv.batches, ?_⟩
    intro b hb
    rw [hkept]
    exact hb
  · obtain ⟨-, rfl, hfresh, -, -, hdb⟩ := createBatchTransaction_eq_ok hok
    rw [hdb]
    refine ⟨hinv.batches.append (.singleton _ _) ?_, ?_⟩
    · intro b hb b' hb' heq
      rw [List.mem_singleton.1 hb'] at heq
      exact id_ne_of_batchConflict (hfresh b hb) heq.symm
    · intro b hb
      rw [List.map_append]
      exact List.mem_append_left _ hb

/-- The rows after a step: those before it, and those that it was asked for. -/
theorem OriginInv.rows_step (hinv : OriginInv config P s₀ s) (hinit : (system config).init s₀)
    (hsteps : (system config).Steps P s₀ s) (hP : P s event)
    (hstep : (system config).step event s = some t) :
    ∀ e ∈ t.database.emails, ∃ input batchId newId n r',
      Requested config P s₀ t input batchId newId r' ∧ (system config).Steps P r' t ∧
        RowOf input batchId newId n e ∧
        createdBatch input batchId ∈ t.database.batches.map EmailBatch.unlabelled := by
  intro e' he'
  have hreach : (system config).Reachable P s := ⟨s₀, hinit, hsteps⟩
  rcases accountStep_of_step (logInv_of_reachable hreach) (primaryKey_emails hreach) hstep he' with
    ⟨e, he, hchange⟩ | ⟨input, batchId, newId, hevent, hrow, -⟩
  · obtain ⟨input, batchId, newId, n, r', hrequested, hafter, hrow, hcreated⟩ := hinv.rows e he
    exact ⟨input, batchId, newId, n, r', hrequested.tail hP hstep, .tail event hafter hP hstep,
      hrow.account hchange, (hinv.batches_step hstep).2 _ hcreated⟩
  · subst hevent
    obtain ⟨n, hn⟩ := exists_rowOf hrow
    refine ⟨input, batchId, newId, n, t, ⟨s, .last hsteps hP hstep⟩, .refl, hn, ?_⟩
    have hcase : StepCase config s (.createBatch input batchId newId) t := stepCase_of_step hstep
    cases hcase with
    | createBatch hleads hok =>
        obtain ⟨-, rfl, -, -, -, hdb⟩ := createBatchTransaction_eq_ok hok
        rw [withDatabase_database, hdb, List.map_append]
        exact List.mem_append_right _ (List.mem_singleton_self _)

theorem originInv_step (hinv : OriginInv config P s₀ s) (hinit : (system config).init s₀)
    (hsteps : (system config).Steps P s₀ s) (hP : P s event)
    (hstep : (system config).step event s = some t) : OriginInv config P s₀ t := by
  have hloaded : ∀ i loaded, (t.stageOf i).loaded? = some loaded → Origin config P s₀ t loaded := by
    intro i loaded hloaded
    rcases loaded?_of_step hstep hloaded with hbefore | ⟨id, hfind⟩
    · exact (hinv.loaded i loaded hbefore).tail hP hstep
    · exact (hinv.find hfind).tail hP hstep
  refine ⟨(hinv.batches_step hstep).1, hinv.rows_step hinit hsteps hP hstep, hloaded, ?_⟩
  intro x hx
  rcases submission_of_step hstep hx with ⟨y, hy, hmessage, hsender, -⟩ |
    ⟨i, loaded, hstage, hmessage, hsender⟩
  · obtain ⟨loaded, hym, hys, horigin⟩ := hinv.submissions y hy
    exact ⟨loaded, hmessage.symm.trans hym, hsender.symm.trans hys, horigin.tail hP hstep⟩
  · exact ⟨loaded, hmessage, hsender,
      (hinv.loaded i loaded (Stage.loaded?_of_admission? hstage)).tail hP hstep⟩

theorem originInv_of_steps (hinit : (system config).init s₀) (h : (system config).Steps P s₀ s) :
    OriginInv config P s₀ s := by
  induction h with
  | refl => exact originInv_init hinit
  | tail event hsteps hP hstep ih => exact originInv_step ih hinit hsteps hP hstep

/-- **Nothing is sent that was not asked for.** A message that was handed to the SMTP server is one
of the messages of a request on the way of the run, in the name of the sender that the request
chose. The sender belongs to the user of the request, and its name and address are those it had at a
time after the request. -/
theorem submissions_requested (hinit : (system config).init s₀)
    (hkey : PrimaryKey EmailSender.id s₀.database.senders) (h : (system config).Steps P s₀ s) :
    ∀ x ∈ s.submissions, ∃ input batchId newId n r r' q sender,
      (system config).Took P s₀ s (.createBatch input batchId newId) r r' ∧
      (system config).Steps P r' q ∧ (system config).Steps P q s ∧
      sender ∈ q.database.senders ∧ sender.id = input.senderId ∧ sender.userId = input.userId ∧
      x.senderId = input.senderId ∧ MessageOf input newId n sender x.message := by
  intro x hx
  obtain ⟨loaded, hmessage, hsender, input, batchId, newId, n, r', q, hrequested, hrow, hbatch,
    hbefore, hafter, hmem, hid⟩ := (originInv_of_steps hinit h).submissions x hx
  obtain ⟨r, htook⟩ := hrequested
  refine ⟨input, batchId, newId, n, r, r', q, loaded.sender, htook, hbefore, hafter, hmem, hid,
    owner_of_requested hkey ⟨r, htook⟩ hbefore hmem hid, hsender.trans hrow.sender, ?_⟩
  rw [hmessage]
  exact hrow.message hbatch

/-- Between the request and the delivery of its second lead the sender gets another name. -/
def renamedSender : List DeliveryEvent :=
  [.createBatch (requestFor ["a@test.invalid", "b@test.invalid"]) 10 (fun i => 100 + i),
    .updateSender { oneSender with displayName := "Renamed" }, .deliver ⟨101, 0, some 3⟩,
    .tick 1000, .advance 0 ⟨1000, 0, .done⟩, .advance 0 ⟨1000, 0, .done⟩,
    .advance 0 ⟨1000, 70, .done⟩, .advance 0 ⟨1000, 0, .done⟩]

theorem submissions_requested_after_renamedSender : ∃ s,
    (system validConfig).run TransitionSystem.anyStep renamedSender oneSenderStart = some s ∧
      s.submissions.map Submission.message =
        [⟨101, "Renamed", "sender@test.invalid", "b@test.invalid", "Subject", "Body"⟩] ∧
      ∀ x ∈ s.submissions, ∃ input newId n sender, MessageOf input newId n sender x.message ∧
        sender.id = input.senderId ∧ sender.userId = input.userId := by
  have hsent : ∀ s, (system validConfig).run TransitionSystem.anyStep renamedSender
      oneSenderStart = some s → ∀ x ∈ s.submissions, ∃ input newId n sender,
        MessageOf input newId n sender x.message ∧ sender.id = input.senderId ∧
          sender.userId = input.userId := by
    intro s hs x hx
    obtain ⟨input, -, newId, n, -, -, -, sender, -, -, -, -, hid, huser, -, hmessage⟩ :=
      submissions_requested (oneSenderStart_init validConfig) (.singleton _ _)
        (TransitionSystem.steps_of_run renamedSender hs) x hx
    exact ⟨input, newId, n, sender, hmessage, hid, huser⟩
  exact ⟨_, rfl, by decide, hsent _ rfl⟩

end Delivery

end EmailScheduler
