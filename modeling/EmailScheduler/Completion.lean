import EmailScheduler.Dashboard
import EmailScheduler.Delivery.Backlog
import EmailScheduler.Refinement

/-!
# Every batch can be completed

What a cleared backlog looks like to the users. From every state that logins, requests and the
worker lead to, steps of the worker alone lead to one in which `GET /emails/scheduled` shows nothing
but emails that the queue does not serve, and every batch without such an email is at its end: `GET
/email-batches/:batchId` counts as sent what was sent before and what waited, as failed what had
failed, and as unknown what was unknown or in `PROCESSING` (`batchesCompletable`). No assumption
about senders is left, since the API accepts no policy that would forbid a sender to send.
-/

set_option autoImplicit false

namespace EmailScheduler

open Foundation

variable {config : AppConfig} {lib : Libraries} {db db' : Database} {served : Uuid → Bool}

/-! ## Tables that follow the worker -/

/-- Rows that take the place of others, one for one. -/
theorem map_zipWith_right {α β γ : Type} {f : α → β → γ} {g : γ → β} (hg : ∀ a b, g (f a b) = b)
    {old : List α} {new : List β} (hlength : old.length = new.length) :
    (old.zipWith f new).map g = new := by
  induction old generalizing new with
  | nil =>
      cases new with
      | nil => rfl
      | cons b new => cases hlength
  | cons a old ih =>
      cases new with
      | nil => cases hlength
      | cons b new =>
          rw [List.zipWith_cons_cons, List.map_cons, hg, ih (Nat.succ.inj hlength)]

theorem Tables.database_follow {t : Tables} (hsenders : db'.senders.length = t.senders.length)
    (hbatches : db'.batches.length = t.batches.length)
    (hemails : db'.emails.length = t.emails.length) :
    (t.follow db').database = { db' with attempts := [] } := by
  simp only [Tables.database, Tables.follow]
  rw [map_zipWith_right (fun _ _ => rfl) hsenders.symm,
    map_zipWith_right (fun _ _ => rfl) hbatches.symm,
    map_zipWith_right (fun _ _ => rfl) hemails.symm]

/-! ## Counts of a cleared batch -/

namespace Delivery.RowCleared

variable {e e' : ScheduledEmail}

/-- A served row is sent in the end if it was sent or waited. -/
theorem sent_iff (h : RowCleared served e e') (hserved : IsServed served e) :
    e'.status = .sent ↔ e.status ∈ [.sent, .scheduled, .rateLimited, .retryable] := by
  cases h with
  | kept hterminal =>
      generalize e.status = status at hterminal
      cases status <;> simp_all [ScheduledEmailStatus.isTerminal]
  | unserved hopen hnot => simp [hserved hopen] at hnot
  | sent hopen _ hsent =>
      rw [hsent]
      generalize e.status = status at hopen
      cases status <;> simp_all [ScheduledEmailStatus.isOpen]
  | abandoned hprocessing => simp [abandonRow, hprocessing]

theorem failed_iff (h : RowCleared served e e') : e'.status = .failed ↔ e.status ∈ [.failed] := by
  cases h with
  | kept => simp
  | unserved => simp
  | sent hopen _ hsent =>
      rw [hsent]
      generalize e.status = status at hopen
      cases status <;> simp_all [ScheduledEmailStatus.isOpen]
  | abandoned hprocessing => simp [abandonRow, hprocessing]

theorem deliveryUnknown_iff (h : RowCleared served e e') :
    e'.status = .deliveryUnknown ↔ e.status ∈ [.deliveryUnknown, .processing] := by
  cases h with
  | kept hterminal =>
      generalize e.status = status at hterminal
      cases status <;> simp_all [ScheduledEmailStatus.isTerminal]
  | unserved hopen =>
      generalize e.status = status at hopen
      cases status <;> simp_all [ScheduledEmailStatus.isOpen]
  | sent hopen _ hsent =>
      rw [hsent]
      generalize e.status = status at hopen
      cases status <;> simp_all [ScheduledEmailStatus.isOpen]
  | abandoned hprocessing => simp [abandonRow, hprocessing]

/-- A row that has not come to its end is not served. -/
theorem not_served (h : RowCleared served e e') (hnot : e'.status.isTerminal = false) :
    served e'.id = false := by
  cases h with
  | kept hterminal =>
      rw [hterminal] at hnot
      cases hnot
  | unserved _ hunserved => exact hunserved
  | sent _ _ hsent =>
      rw [hsent] at hnot
      cases hnot
  | abandoned => cases hnot

end Delivery.RowCleared

/-- A count after the clearing is the sum of counts before it. -/
theorem statusCount_of_cleared {f : ScheduledEmail → ScheduledEmail}
    (hemails : db'.emails = db.emails.map f)
    (hrows : ∀ e ∈ db.emails, Delivery.RowCleared served e (f e)) {batchId : Uuid}
    (hserved : ∀ e ∈ db.emailsOf batchId, Delivery.IsServed served e)
    {status : ScheduledEmailStatus}
    {before : List ScheduledEmailStatus} (hnodup : before.Nodup)
    (hbefore : ∀ {e e'}, Delivery.RowCleared served e e' → Delivery.IsServed served e →
      (e'.status = status ↔ e.status ∈ before)) :
    statusCount db' batchId status = (before.map (statusCount db batchId)).sum := by
  have hbatch : db'.emailsOf batchId = (db.emailsOf batchId).map f := by
    unfold Database.emailsOf
    rw [hemails, List.filter_map]
    congr 1
    apply List.filter_congr
    intro e he
    simp only [Function.comp_apply, (hrows e he).batchId_eq]
  rw [sum_statusCount hnodup, statusCount, hbatch, List.countP_map]
  apply List.countP_congr
  intro e he
  rw [Function.comp_apply, decide_eq_true_eq, decide_eq_true_eq]
  exact hbefore (hrows e (db.mem_emailsOf.1 he).1) (hserved e he)

/-! ## Responses -/

/-- The emails of a batch that wait. -/
def BatchResponse.waiting (r : BatchResponse) : Nat :=
  r.count .scheduled + r.count .rateLimited + r.count .retryable

/-- What a response says about a batch that was brought to its end, by what an earlier one said. -/
structure BatchCompleted (r r' : BatchResponse) : Prop where
  finished : r'.finished = r'.valid
  sent : r'.count .sent = r.count .sent + r.waiting
  failed : r'.count .failed = r.count .failed
  deliveryUnknown : r'.count .deliveryUnknown = r.count .deliveryUnknown + r.count .processing
  status : r.waiting ≠ 0 →
    r'.status = if r'.count .sent = r'.valid then .completed else .partiallyFailed

section Response

variable {t : Tables} {batch : StoredBatch}

/-- When all rows have come to an end, as many have as there are leads. -/
theorem finished_of_isTerminal (h : BatchRows t.database batch.toEmailBatch)
    (hterminal : ∀ e ∈ t.database.emailsOf batch.id, e.status.isTerminal = true) :
    (batchResponse batch t).finished = (batchResponse batch t).valid := by
  have hsum := sum_statusCount
    (by decide : [ScheduledEmailStatus.sent, .failed, .deliveryUnknown].Nodup)
    t.database batch.id
  have hall : ∀ e ∈ t.database.emailsOf batch.id,
      e.status ∈ [ScheduledEmailStatus.sent, .failed, .deliveryUnknown] := by
    intro e he
    have hend := hterminal e he
    have hcancelled := h.notCancelled e he
    generalize e.status = status at hend hcancelled
    cases status <;> simp_all [ScheduledEmailStatus.isTerminal]
  rw [List.countP_eq_length.2 fun e he => decide_eq_true (hall e he), h.length] at hsum
  unfold BatchResponse.finished
  rw [count_batchResponse, count_batchResponse, count_batchResponse]
  simpa [Nat.add_assoc, batchResponse] using hsum

/-- As many emails are sent as there are leads if all of them are. -/
theorem count_sent_eq_valid_iff (h : BatchRows t.database batch.toEmailBatch) :
    (batchResponse batch t).count .sent = (batchResponse batch t).valid ↔
      ∀ e ∈ t.database.emailsOf batch.id, e.status = .sent := by
  have hlength : (batchResponse batch t).valid = (t.database.emailsOf batch.id).length :=
    h.length.symm
  rw [count_batchResponse, hlength, statusCount, List.countP_eq_length]
  simp only [decide_eq_true_eq]

/-- If a count of waiting emails is not zero, an email waits. -/
theorem exists_of_waiting (h : (batchResponse batch t).waiting ≠ 0) :
    ∃ e ∈ t.database.emailsOf batch.id, e.status.isOpen = true := by
  have hsum := sum_statusCount
    (by decide : [ScheduledEmailStatus.scheduled, .rateLimited, .retryable].Nodup)
    t.database batch.id
  unfold BatchResponse.waiting at h
  rw [count_batchResponse, count_batchResponse, count_batchResponse] at h
  have hpos : 0 < (t.database.emailsOf batch.id).countP fun e =>
      decide (e.status ∈ [ScheduledEmailStatus.scheduled, .rateLimited, .retryable]) := by
    rw [← hsum]
    simp only [List.map_cons, List.map_nil, List.sum_cons, List.sum_nil]
    omega
  obtain ⟨e, he, hstatus⟩ := List.countP_pos_iff.1 hpos
  refine ⟨e, he, ?_⟩
  have hmem := of_decide_eq_true hstatus
  generalize e.status = status at hmem
  cases status <;> simp_all [ScheduledEmailStatus.isOpen]

end Response

namespace Application

variable {s t : Application} {P : Application → ApplicationEvent → Prop}

/-! ## Runs of the worker -/

/-- Steps of the worker, in which nothing fails. -/
def OnlyWorker (served : Uuid → Bool) (s : Application) : ApplicationEvent → Prop
  | .work event _ => Delivery.Delivers served s.delivery event
  | _ => False

theorem isRequest_of_delivers {d : Delivery} {event : DeliveryEvent}
    (h : Delivery.Delivers served d event) :
    event.isRequest = false := by
  cases event with
  | createBatch => exact h.elim
  | updateSender => exact h.elim
  | _ => rfl

/-- A step of the worker, with the tables that follow it. -/
theorem step_follow (lib : Libraries) {tables : Tables} {d d' : Delivery} {event : DeliveryEvent}
    (hsynced : Synced ⟨tables, d⟩) (hrequest : event.isRequest = false)
    (h : (Delivery.system config).step event d = some d') :
    (system config lib).step (.work event (tables.follow d'.database)) ⟨tables, d⟩ =
        some ⟨tables.follow d'.database, d'⟩ ∧ Synced ⟨tables.follow d'.database, d'⟩ := by
  obtain ⟨hbatches, f, hemails, -⟩ := rows_of_work hrequest h
  have hsynced : tables.database = { d.database with attempts := [] } := hsynced
  -- The worker adds and removes no row.
  have hdatabase : (tables.follow d'.database).database = { d'.database with attempts := [] } := by
    apply Tables.database_follow
    · have hlength := congrArg (fun db => db.senders.length) hsynced
      rw [senders_of_work hrequest h]
      simpa [Tables.database] using hlength.symm
    · have hlength := congrArg (fun db => db.batches.length) hsynced
      have hkept := congrArg List.length hbatches
      rw [List.length_map, List.length_map] at hkept
      rw [hkept]
      simpa [Tables.database] using hlength.symm
    · have hlength := congrArg (fun db => db.emails.length) hsynced
      rw [hemails, List.length_map]
      simpa [Tables.database] using hlength.symm
  refine ⟨?_, hdatabase⟩
  have hstep : Delivery.step config event d = some d' := h
  simp only [system, step, work]
  rw [if_neg (by rw [hrequest]; decide), hstep, Option.bind_some, if_pos ⟨rfl, hdatabase⟩]

/-- A run of the delivery system is one of the application. -/
theorem exists_worked (lib : Libraries) {d : Delivery} (hsynced : s.Synced)
    (h : (Delivery.system config).Steps (Delivery.Delivers served) s.delivery d) :
    ∃ tables, (system config lib).Steps (OnlyWorker served) s ⟨tables, d⟩ ∧ Synced ⟨tables, d⟩ := by
  induction h with
  | refl => exact ⟨s.tables, .refl, hsynced⟩
  | tail event _ hdelivers hstep ih =>
      obtain ⟨tables, hst, hsynced⟩ := ih
      obtain ⟨hwork, hsynced⟩ :=
        step_follow lib hsynced (isRequest_of_delivers hdelivers) hstep
      exact ⟨_, .tail (.work event _) hst hdelivers hwork, hsynced⟩

/-! ## Completed batches -/

/-- The rows of the tables are cleared with those of the delivery system. -/
theorem exists_cleared (hs : s.Synced) (ht : t.Synced)
    (h : Delivery.Cleared served s.delivery t.delivery) :
    ∃ f, t.tables.database.emails = s.tables.database.emails.map f ∧
      ∀ e ∈ s.tables.database.emails, Delivery.RowCleared served e (f e) := by
  have hs : s.tables.database = { s.delivery.database with attempts := [] } := hs
  have ht : t.tables.database = { t.delivery.database with attempts := [] } := ht
  rw [hs, ht]
  exact h.rows

/-- All emails of the batch that wait are served. -/
def ServedBatch (served : Uuid → Bool) (s : Application) (batchId : Uuid) : Prop :=
  ∀ e ∈ s.tables.database.emailsOf batchId, Delivery.IsServed served e

/-- The batch of an email that waited has its label. -/
theorem exists_label (hs : s.Synced) (ht : t.Synced)
    (h : Delivery.Cleared served s.delivery t.delivery) {batchId : Uuid}
    (hserved : ServedBatch served s batchId) {e : ScheduledEmail}
    (he : e ∈ s.tables.database.emailsOf batchId) (hopen : e.status.isOpen = true) :
    ∃ b ∈ t.tables.database.batches, b.id = batchId ∧
      (b.status = .completed ∧ (∀ r ∈ t.tables.database.emailsOf b.id, r.status = .sent) ∨
        b.status = .partiallyFailed ∧ ∃ r ∈ t.tables.database.emailsOf b.id, r.status ≠ .sent) := by
  have hs : s.tables.database = { s.delivery.database with attempts := [] } := hs
  have ht : t.tables.database = { t.delivery.database with attempts := [] } := ht
  have hwaits : Delivery.waits served e = true := Delivery.waits_iff.2 ⟨hopen, hserved e he hopen⟩
  unfold ServedBatch at hserved
  obtain ⟨hmem, rfl⟩ := (Database.mem_emailsOf _).1 he
  rw [hs] at hmem hserved
  rw [ht]
  exact h.label e (List.mem_filter.2 ⟨hmem, hwaits⟩) hserved

/-- **A response after the clearing**, by the one before it. -/
theorem batchCompleted (hs : s.Synced) (ht : t.Synced) (hfilled : BatchesFilled t.tables.database)
    (h : Delivery.Cleared served s.delivery t.delivery) {r r' : BatchResponse}
    {batch batch' : StoredBatch} (hresponses : LaterResponses s.tables t.tables r r' batch batch')
    (hserved : ServedBatch served s batch.id) : BatchCompleted r r' := by
  obtain ⟨rfl, rfl, hsame, -, hmem⟩ := hresponses
  obtain ⟨f, hemails, hrows⟩ := exists_cleared hs ht h
  have hbatch := hfilled.rows _ (List.mem_map_of_mem hmem)
  -- Each count is that of the statuses that end up in it.
  have hid : batch'.id = batch.id := (congrArg EmailBatch.id hsame :)
  have hterminal : ∀ e ∈ t.tables.database.emailsOf batch'.id, e.status.isTerminal = true := by
    intro e he
    obtain ⟨hmem, hbatchId⟩ := (Database.mem_emailsOf _).1 he
    rw [hemails, List.mem_map] at hmem
    obtain ⟨q, hq, rfl⟩ := hmem
    rw [(hrows q hq).batchId_eq, hid] at hbatchId
    exact (hrows q hq).isTerminal (hserved q ((Database.mem_emailsOf _).2 ⟨hq, hbatchId⟩))
  refine ⟨finished_of_isTerminal hbatch hterminal, ?_, ?_, ?_, ?_⟩
  · rw [count_batchResponse, hid, statusCount_of_cleared hemails hrows hserved (by decide)
      Delivery.RowCleared.sent_iff]
    simp [BatchResponse.waiting, count_batchResponse, Nat.add_assoc]
  · rw [count_batchResponse, hid, statusCount_of_cleared hemails hrows hserved (by decide)
      fun h _ => h.failed_iff]
    simp [count_batchResponse]
  · rw [count_batchResponse, hid, statusCount_of_cleared hemails hrows hserved (by decide)
      fun h _ => h.deliveryUnknown_iff]
    simp [count_batchResponse]
  · intro hwaiting
    -- The label was given with the last of the waiting emails.
    obtain ⟨e, he, hopen⟩ := exists_of_waiting hwaiting
    obtain ⟨b, hb, hbatchId, hlabel⟩ := exists_label hs ht h hserved he hopen
    obtain rfl := hfilled.ids.eq_of_key_eq hb (List.mem_map_of_mem hmem) (hbatchId.trans hid.symm)
    have hcount := count_sent_eq_valid_iff hbatch
    rcases hlabel with ⟨hcompleted, hsent⟩ | ⟨hfailed, r, hr, hnot⟩
    · rw [if_pos (hcount.2 hsent)]
      exact hcompleted
    · rw [if_neg fun hall => hnot (hcount.1 hall r hr)]
      exact hfailed

/-- Every sender may send an email an hour, so the backlog can be cleared. -/
theorem exists_deliveryCleared (h : (system config lib).Reachable P s) (served : Uuid → Bool) :
    ∃ d, (Delivery.system config).Steps (Delivery.Delivers served) s.delivery d ∧
      Delivery.Cleared served s.delivery d := by
  have hreach := delivery_reachable h
  have hlimits : ∀ x ∈ s.delivery.database.senders, 1 ≤ x.hourlyLimit := by
    intro x hx
    exact ((policyInv_of_reachable h).sender hx).1
  obtain ⟨now, hstale⟩ := Delivery.exists_allStale hreach
  exact Delivery.exists_cleared_of_stale hreach hlimits hstale served

/-- No email is left that is being processed, or waits and is served. -/
theorem not_served_of_scheduledEmails (hs : s.Synced) (ht : t.Synced)
    (h : Delivery.Cleared served s.delivery t.delivery) {user : Uuid} {e : StoredEmail}
    (he : e ∈ scheduledEmails user t.tables) : served e.id = false := by
  obtain ⟨f, hemails, hrows⟩ := exists_cleared hs ht h
  obtain ⟨hstored, hlisted⟩ := List.mem_filter.1 he
  have hmem : e.toScheduledEmail ∈ t.tables.database.emails :=
    List.mem_map_of_mem (List.mem_filter.1 hstored).1
  rw [hemails, List.mem_map] at hmem
  obtain ⟨q, hq, hsame⟩ := hmem
  have hnot : e.status.isTerminal = false := by
    generalize e.status = status at hlisted
    cases status <;> simp_all [scheduledDashboardStatuses, ScheduledEmailStatus.isTerminal]
  have hrow := hrows q hq
  rw [hsame] at hrow
  exact hrow.not_served hnot

/-- **Every batch can be completed.** In every state that logins, requests and the worker lead to,
and whichever emails the queue serves, the worker alone can bring each of these to its end, with one
more accepted message for each that waited, and the users see it: the list of scheduled emails shows
none of them, and every batch that was shown before is shown completed if all its waiting emails are
served. -/
theorem batchesCompletable (h : (system config lib).Reachable TransitionSystem.anyStep s)
    (served : Uuid → Bool) :
    ∃ t, (system config lib).Steps (OnlyWorker served) s t ∧
      (∃ sent, t.delivery.submissions = s.delivery.submissions ++ sent ∧
        (sent.map fun x => x.message.scheduledEmailId) =
          (s.delivery.waiting served).map ScheduledEmail.id ∧
        ∀ x ∈ sent, x.status = .accepted) ∧
      (∀ user, ∀ e ∈ scheduledEmails user t.tables, served e.id = false) ∧
      ∀ (user : Uuid) (ctx ctx' : RequestContext) (batchId : Uuid) (r : BatchResponse),
        (serve config lib user ctx (.getBatch (some batchId)) s.tables).response = .batch r →
        ∃ r', (serve config lib user ctx' (.getBatch (some batchId)) t.tables).response =
          .batch r' ∧
          (ServedBatch served s batchId → BatchCompleted r r') := by
  have hsynced := synced_of_reachable h
  obtain ⟨d, hdelivers, hcleared⟩ := exists_deliveryCleared h served
  obtain ⟨tables, hworked, hsynced'⟩ := exists_worked lib hsynced hdelivers
  have hst : (system config lib).Steps TransitionSystem.anyStep s ⟨tables, d⟩ :=
    hworked.mono fun _ _ _ => trivial
  refine ⟨⟨tables, d⟩, hworked, hcleared.submissions, ?_, ?_⟩
  · intro user e he
    exact not_served_of_scheduledEmails hsynced hsynced' hcleared he
  · intro user ctx ctx' batchId r hr
    obtain ⟨r', batch, batch', hr', hresponses, rfl⟩ := exists_laterResponse h hst ctx' hr
    have hfilled := batchesFilled_of_reachable (h.trans hst)
    refine ⟨r', hr', fun hserved => ?_⟩
    exact batchCompleted hsynced hsynced' hfilled hcleared hresponses hserved

theorem batchesCompletable_after_firstBatch : ∃ s t r r',
    (system validConfig testLibraries).run TransitionSystem.anyStep (firstBatch 30) start = some s ∧
      (system validConfig testLibraries).Steps (OnlyWorker fun _ => true) s t ∧
      firstBatchResponse s = .batch r ∧ r.byStatus = [(.scheduled, 2)] ∧
      firstBatchResponse t = .batch r' ∧ BatchCompleted r r' := by
  have hrun : ((system validConfig testLibraries).run TransitionSystem.anyStep
    (firstBatch 30) start).any
      (fun s => decide (byStatus? (firstBatchResponse s) = some [(.scheduled, 2)])) = true := by
    decide +kernel
  obtain ⟨s, hs, hbefore⟩ := (Option.any_eq_true _ _).1 hrun
  obtain ⟨r, hr, hcounts⟩ := exists_of_byStatus? (of_decide_eq_true hbefore)
  obtain ⟨t, hst, -, -, hresponses⟩ :=
    batchesCompletable
      (TransitionSystem.reachable_of_run (firstBatch 30) start_init hs) fun _ => true
  obtain ⟨r', hr', hcompleted⟩ := hresponses 1 (contextOf 0) (contextOf 0) 20 r hr
  exact ⟨s, t, r, r', hs, hst, hr, hcounts, hr', hcompleted fun _ _ _ => rfl⟩

end Application

end EmailScheduler
