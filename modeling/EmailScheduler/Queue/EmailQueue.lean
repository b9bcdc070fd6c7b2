import EmailScheduler.Config
import EmailScheduler.Schema
import EmailScheduler.Foundation.Pagination
import EmailScheduler.Delivery.Records

/-!
# Handing rows to the queue

The loops of `queue/email-queue.ts` and `queue/reconcile.ts`. Both read the open rows page by page,
hand each page to `addBulk`, and stop after a page that is not full. `EnqueuePass.fetch` is one
iteration on the table that the page query sees, so a pass can be interleaved with other work;
`EnqueuePass.loop` runs the iterations back to back.
-/

set_option autoImplicit false

namespace EmailScheduler

open Foundation

/-- `emailJobName`. -/
def emailJobName : String := "send-email"

/-- `EmailJobData`. -/
structure EmailJobData where
  scheduledEmailId : Uuid
deriving DecidableEq, Repr

/-- `JobsOptions`, as far as they are given. -/
structure JobsOptions where
  jobId : BullJobId
  delay : Int
deriving DecidableEq, Repr

/-- An element of the list passed to `addBulk`. -/
structure BulkJob where
  name : String
  data : EmailJobData
  opts : JobsOptions
deriving DecidableEq, Repr

/-- `jobOptions`. -/
def jobOptions (email : ScheduledEmail) (now : Int) : JobsOptions where
  jobId := email.bullJobId
  delay := max 0 (email.nextAttemptAt - now)

/-- The job for a row. -/
def bulkJob (now : Int) (email : ScheduledEmail) : BulkJob :=
  ⟨emailJobName, ⟨email.id⟩, jobOptions email now⟩

/-- What `enqueueEmailRows` passes to `addBulk`; it makes no call for an empty page. -/
def enqueueEmailRows (emails : List ScheduledEmail) (now : Int) : List BulkJob :=
  emails.map (bulkJob now)

/-! ## The page loop -/

/-- A pass: the variables of its loop, whether it has returned, and the jobs it passed to
`addBulk`. -/
structure EnqueuePass where
  cursor : Option Uuid := none
  examined : Nat := 0
  returned : Bool := false
  jobs : List BulkJob := []
deriving DecidableEq, Repr

/-- The rows of a page: `findMany` ordered by id with `take`, `cursor` and `skip: 1`. -/
def EnqueuePass.page (p : EnqueuePass) (inScope : ScheduledEmail → Bool) (take : Nat)
    (rows : List ScheduledEmail) : List ScheduledEmail :=
  findPage inScope ScheduledEmail.id p.cursor take rows

/-- The body of the loop. -/
def EnqueuePass.fetch (inScope : ScheduledEmail → Bool) (take : Nat) (now : Int)
    (rows : List ScheduledEmail) (p : EnqueuePass) : EnqueuePass :=
  let emails := p.page inScope take rows
  let jobs := p.jobs ++ enqueueEmailRows emails now
  let examined := p.examined + emails.length
  match emails.getLast? with
  | none => { p with jobs := jobs, examined := examined, returned := true }
  | some last =>
      if emails.length < take then
        { p with jobs := jobs, examined := examined, returned := true }
      else { p with jobs := jobs, examined := examined, cursor := some last.id }

/-- The loop on a table that does not change, with the time of each iteration; a list of times that
is too short cuts the loop off. -/
def EnqueuePass.loop (inScope : ScheduledEmail → Bool) (take : Nat) (rows : List ScheduledEmail) :
    List Int → EnqueuePass → EnqueuePass
  | [], p => p
  | now :: clock, p =>
      if p.returned then p else loop inScope take rows clock (p.fetch inScope take now rows)

/-! ## The two passes -/

/-- What a pass enqueues: the open rows of a batch, or all open rows. -/
inductive PassScope where
  | batch (batchId : Uuid)
  | all
deriving DecidableEq, Repr

/-- `where` of the page query. -/
def PassScope.selects : PassScope → ScheduledEmail → Bool
  | .batch batchId, e => decide (e.batchId = batchId) && e.status.isOpen
  | .all, e => e.status.isOpen

/-- `take` of the page query. -/
def AppConfig.pageSize (config : AppConfig) : Nat := config.reconciliationBatchSize.toNat

/-- An iteration of `enqueueEmailBatch` or of `reconcileEmailQueue`. -/
def PassScope.fetch (scope : PassScope) (config : AppConfig) (now : Int)
    (rows : List ScheduledEmail) (p : EnqueuePass) : EnqueuePass :=
  p.fetch scope.selects config.pageSize now rows

/-- `enqueueEmailBatch`, with nothing between its iterations; every iteration reads the clock. -/
def enqueueEmailBatch (config : AppConfig) (db : Database) (batchId : Uuid) (clock : List Int) :
    EnqueuePass :=
  EnqueuePass.loop (PassScope.batch batchId).selects config.pageSize db.emails clock {}

/-- `ReconciliationResult`. -/
structure ReconciliationResult where
  deliveryUnknown : Nat
  examined : Nat
deriving DecidableEq, Repr

/-- A completed reconciliation: the database it leaves, its page loop and its result. -/
structure Reconciliation where
  database : Database
  pass : EnqueuePass
  result : ReconciliationResult

/-- `reconcileEmailQueue`, with nothing between its statements. A page that does not end the loop
has a row, so one iteration more than there are rows is enough. -/
def reconcileEmailQueue (config : AppConfig) (db : Database) (now : Int) : Reconciliation :=
  let (stale, swept) := sweepStaleLeases config db now
  let pass := EnqueuePass.loop PassScope.all.selects config.pageSize swept.emails
    (List.replicate (swept.emails.length + 1) now) {}
  ⟨swept, pass, ⟨stale, pass.examined⟩⟩

theorem AppConfig.one_le_pageSize (config : AppConfig) : 1 ≤ config.pageSize := by
  have := config.one_le_reconciliationBatchSize
  unfold pageSize
  omega

/-! ## One iteration -/

namespace EnqueuePass

variable {inScope : ScheduledEmail → Bool} {take : Nat} {now : Int} {rows : List ScheduledEmail}
  {p : EnqueuePass}

@[simp] theorem fetch_jobs : (p.fetch inScope take now rows).jobs =
    p.jobs ++ enqueueEmailRows (p.page inScope take rows) now := by
  unfold fetch
  dsimp only
  split
  · rfl
  · split <;> rfl

/-- What an iteration does to the loop: it returns after a page that is not full, and goes on from
the last row of a full page. -/
theorem fetch_cases (p : EnqueuePass) (inScope : ScheduledEmail → Bool) (now : Int)
    (rows : List ScheduledEmail) (htake : 1 ≤ take) :
    ((p.page inScope take rows).length < take ∧
        (p.fetch inScope take now rows).returned = true ∧
        (p.fetch inScope take now rows).cursor = p.cursor) ∨
      ∃ last, (p.page inScope take rows).getLast? = some last ∧
        (p.page inScope take rows).length = take ∧
        (p.fetch inScope take now rows).returned = p.returned ∧
        (p.fetch inScope take now rows).cursor = some last.id := by
  unfold fetch
  dsimp only
  cases hlast : (p.page inScope take rows).getLast? with
  | none =>
      left
      rw [List.getLast?_eq_none_iff] at hlast
      rw [hlast]
      exact ⟨htake, rfl, rfl⟩
  | some last =>
      dsimp only
      split
      next hlt => exact Or.inl ⟨hlt, rfl, rfl⟩
      next hge =>
        right
        have hle : (p.page inScope take rows).length ≤ take := List.length_take_le _ _
        exact ⟨last, rfl, by omega, rfl, rfl⟩

/-- The rows of a page do not come after its last row. -/
theorem le_last (hkey : PrimaryKey ScheduledEmail.id rows) {last e : ScheduledEmail}
    (hlast : (p.page inScope take rows).getLast? = some last)
    (he : e ∈ p.page inScope take rows) : e.id ≤ last.id := by
  have hsorted : (p.page inScope take rows).Pairwise fun a b => a.id < b.id :=
    (pairwise_afterSkip hkey).sublist (List.take_sublist _ _)
  obtain ⟨front, hfront⟩ := List.getLast?_eq_some_iff.1 hlast
  rw [hfront] at he hsorted
  rcases List.mem_append.1 he with he | he
  · exact Nat.le_of_lt ((List.pairwise_append.1 hsorted).2.2 e he last (List.mem_singleton_self _))
  · rw [List.mem_singleton.1 he]

/-! ### Rows still to come -/

/-- The loop still goes on and has not come to an id yet. -/
def Waits (p : EnqueuePass) (id : Uuid) : Prop := p.returned = false ∧ ∀ c ∈ p.cursor, c < id

/-- A row was passed to `addBulk` under its own job id. -/
def Handed (p : EnqueuePass) (e : ScheduledEmail) : Prop :=
  ∃ job ∈ p.jobs, job.opts.jobId = e.bullJobId ∧ job.data.scheduledEmailId = e.id

instance (p : EnqueuePass) (e : ScheduledEmail) : Decidable (p.Handed e) :=
  inferInstanceAs (Decidable (∃ job ∈ p.jobs,
    job.opts.jobId = e.bullJobId ∧ job.data.scheduledEmailId = e.id))

theorem handed_fetch {e : ScheduledEmail} (h : p.Handed e) :
    (p.fetch inScope take now rows).Handed e := by
  obtain ⟨job, hjob, heq⟩ := h
  exact ⟨job, by rw [fetch_jobs]; exact List.mem_append_left _ hjob, heq⟩

theorem handed_of_mem_page {e : ScheduledEmail} (h : e ∈ p.page inScope take rows) :
    (p.fetch inScope take now rows).Handed e := by
  refine ⟨bulkJob now e, ?_, rfl, rfl⟩
  rw [fetch_jobs]
  exact List.mem_append_right _ (List.mem_map_of_mem h)

/-- **An iteration misses only what it skips.** -/
theorem handed_or_waits_fetch (htake : 1 ≤ take) (hkey : PrimaryKey ScheduledEmail.id rows)
    {e : ScheduledEmail} (he : e ∈ rows) (hscope : inScope e = true) (hwaits : p.Waits e.id)
    (hskip : skippedRow inScope ScheduledEmail.id p.cursor rows ≠ some e) :
    (p.fetch inScope take now rows).Handed e ∨ (p.fetch inScope take now rows).Waits e.id := by
  rcases findPage_covers take hkey he hscope hwaits.2 hskip with hpage | ⟨hfull, hlt⟩
  · exact Or.inl (handed_of_mem_page hpage)
  · right
    rcases fetch_cases p inScope now rows htake with
      ⟨hshort, -⟩ | ⟨last, hlast, -, hreturned, hcursor⟩
    · exact absurd hfull (Nat.ne_of_lt hshort)
    · refine ⟨hreturned.trans hwaits.1, ?_⟩
      rw [hcursor]
      rintro c ⟨⟩
      exact hlt last (List.mem_of_getLast? hlast)

/-- The ids of a page are behind the loop afterwards. -/
theorem not_waits_of_mem_page (htake : 1 ≤ take) (hkey : PrimaryKey ScheduledEmail.id rows)
    {e : ScheduledEmail} (he : e ∈ p.page inScope take rows) :
    ¬ (p.fetch inScope take now rows).Waits e.id := by
  rintro ⟨hrunning, hlt⟩
  rcases fetch_cases p inScope now rows htake with
    ⟨-, hreturned, -⟩ | ⟨last, hlast, -, -, hcursor⟩
  · rw [hreturned] at hrunning
    cases hrunning
  · exact absurd (hlt last.id hcursor) (Nat.not_lt.2 (le_last hkey hlast he))

/-- An id behind the loop stays behind it and is on no further page. -/
theorem not_waits_fetch (htake : 1 ≤ take) (hkey : PrimaryKey ScheduledEmail.id rows) {id : Uuid}
    (hrunning : p.returned = false) (h : ¬ p.Waits id) :
    ¬ (p.fetch inScope take now rows).Waits id ∧ ∀ e ∈ p.page inScope take rows, e.id ≠ id := by
  have hpage : ∀ e ∈ p.page inScope take rows, id < e.id := by
    intro e he
    cases hcursor : p.cursor with
    | none => exact absurd ⟨hrunning, by simp [hcursor]⟩ h
    | some c =>
        have hle : id ≤ c := by
          by_contra hlt
          refine h ⟨hrunning, fun c' hc' => ?_⟩
          rw [hcursor] at hc'
          cases hc'
          exact Nat.lt_of_not_le hlt
        rw [page, hcursor] at he
        exact Nat.lt_of_le_of_lt hle (lt_of_mem_findPage hkey he)
  refine ⟨fun hwaits => ?_, fun e he => Nat.ne_of_gt (hpage e he)⟩
  rcases fetch_cases p inScope now rows htake with
    ⟨-, -, hcursor⟩ | ⟨last, hlast, -, -, hcursor⟩
  · exact h ⟨hrunning, by rw [← hcursor]; exact hwaits.2⟩
  · exact Nat.lt_asymm (hwaits.2 last.id hcursor) (hpage last (List.mem_of_getLast? hlast))

/-- **What an iteration skips is behind the loop** and not on the page. -/
theorem not_waits_of_skipped (htake : 1 ≤ take) (hkey : PrimaryKey ScheduledEmail.id rows)
    {e : ScheduledEmail} (hskip : skippedRow inScope ScheduledEmail.id p.cursor rows = some e) :
    ¬ (p.fetch inScope take now rows).Waits e.id ∧
      ∀ q ∈ p.page inScope take rows, q.id ≠ e.id := by
  have hpage : ∀ q ∈ p.page inScope take rows, e.id < q.id :=
    fun q hq => lt_of_skippedRow hkey hskip hq
  refine ⟨fun hwaits => ?_, fun q hq => Nat.ne_of_gt (hpage q hq)⟩
  rcases fetch_cases p inScope now rows htake with
    ⟨-, hreturned, -⟩ | ⟨last, hlast, -, -, hcursor⟩
  · rw [hwaits.1] at hreturned
    cases hreturned
  · exact Nat.lt_asymm (hwaits.2 last.id hcursor) (hpage last (List.mem_of_getLast? hlast))

/-! ### A table that does not change -/

/-- On a fixed table the cursor stays a row in scope, and every row in scope is handed over or
waits. -/
structure OnTrack (inScope : ScheduledEmail → Bool) (rows : List ScheduledEmail) (p : EnqueuePass) :
    Prop where
  cursor : ∀ c ∈ p.cursor, ∃ e ∈ rows, inScope e = true ∧ e.id = c
  rows : ∀ e ∈ rows, inScope e = true → p.Handed e ∨ p.Waits e.id

theorem onTrack_start : OnTrack inScope rows {} where
  cursor c hc := by cases hc
  rows e _ _ := Or.inr ⟨rfl, fun c hc => by cases hc⟩

theorem onTrack_fetch (htake : 1 ≤ take) (hkey : PrimaryKey ScheduledEmail.id rows)
    (h : OnTrack inScope rows p) : OnTrack inScope rows (p.fetch inScope take now rows) where
  cursor c hc := by
    rcases fetch_cases p inScope now rows htake with
      ⟨-, -, hcursor⟩ | ⟨last, hlast, -, -, hcursor⟩
    · exact h.cursor c (by rw [← hcursor]; exact hc)
    · rw [hcursor] at hc
      cases hc
      obtain ⟨hmem, hscope⟩ := mem_of_mem_findPage (List.mem_of_getLast? hlast)
      exact ⟨last, hmem, hscope, rfl⟩
  rows e he hscope := by
    rcases h.rows e he hscope with hhanded | hwaits
    · exact Or.inl (handed_fetch hhanded)
    · refine handed_or_waits_fetch htake hkey he hscope hwaits ?_
      -- The skipped row is the cursor's, which lies before `e`.
      cases hcursor : p.cursor with
      | none => simp [skippedRow]
      | some c =>
          obtain ⟨q, hq, hqscope, rfl⟩ := h.cursor c hcursor
          rw [skippedRow_of_mem hkey hq hqscope]
          intro heq
          rw [Option.some.inj heq] at hcursor
          exact Nat.lt_irrefl _ (hwaits.2 e.id hcursor)

/-- The rows in scope that the loop has not come to. -/
def ahead (inScope : ScheduledEmail → Bool) (rows : List ScheduledEmail) (p : EnqueuePass) : Nat :=
  rows.countP fun e => inScope e && p.cursor.all fun c => decide (c < e.id)

/-- An iteration returns or has fewer rows ahead of it. -/
theorem returned_or_ahead_lt (p : EnqueuePass) (inScope : ScheduledEmail → Bool) (now : Int)
    (htake : 1 ≤ take) (hkey : PrimaryKey ScheduledEmail.id rows) :
    (p.fetch inScope take now rows).returned = true ∨
      ahead inScope rows (p.fetch inScope take now rows) < ahead inScope rows p := by
  rcases fetch_cases p inScope now rows htake with
    ⟨-, hreturned, -⟩ | ⟨last, hlast, -, -, hcursor⟩
  · exact Or.inl hreturned
  · right
    have hpage := List.mem_of_getLast? hlast
    obtain ⟨hmem, hscope⟩ := mem_of_mem_findPage hpage
    have hafter : ∀ c ∈ p.cursor, c < last.id := by
      intro c hc
      rw [page, Option.mem_def.1 hc] at hpage
      exact lt_of_mem_findPage hkey hpage
    unfold ahead
    rw [hcursor]
    refine countP_lt_countP (fun e _ he => ?_) hmem ?_ ?_
    · simp only [Option.all_some, Bool.and_eq_true, decide_eq_true_eq, Option.all_eq_true] at he ⊢
      exact ⟨he.1, fun c hc => Nat.lt_trans (hafter c hc) he.2⟩
    · simp only [Bool.and_eq_true, Option.all_eq_true, decide_eq_true_eq]
      exact ⟨hscope, hafter⟩
    · simp

/-- **The loop returns** after at most one iteration more than there are rows in scope. -/
theorem loop_returned (htake : 1 ≤ take) (hkey : PrimaryKey ScheduledEmail.id rows)
    {clock : List Int} (hclock : ahead inScope rows p < clock.length) :
    (loop inScope take rows clock p).returned = true := by
  induction clock generalizing p with
  | nil => exact absurd hclock (Nat.not_lt_zero _)
  | cons now clock ih =>
      rw [loop]
      split
      next hreturned => exact hreturned
      next hrunning =>
        rcases returned_or_ahead_lt p inScope now htake hkey with
          hreturned | hlt
        · cases clock with
          | nil => exact hreturned
          | cons => rw [loop, if_pos hreturned]; exact hreturned
        · exact ih (by rw [List.length_cons] at hclock; omega)

theorem loop_onTrack (htake : 1 ≤ take) (hkey : PrimaryKey ScheduledEmail.id rows)
    (clock : List Int) (h : OnTrack inScope rows p) :
    OnTrack inScope rows (loop inScope take rows clock p) := by
  induction clock generalizing p with
  | nil => exact h
  | cons now clock ih =>
      rw [loop]
      split
      · exact h
      · exact ih (onTrack_fetch htake hkey h)

/-- The loop hands over every row in scope. -/
theorem loop_handed (htake : 1 ≤ take) (hkey : PrimaryKey ScheduledEmail.id rows) {clock : List Int}
    (hclock : rows.length < clock.length) {e : ScheduledEmail} (he : e ∈ rows)
    (hscope : inScope e = true) : (loop inScope take rows clock {}).Handed e := by
  have htrack : OnTrack inScope rows (loop inScope take rows clock {}) :=
    loop_onTrack htake hkey clock onTrack_start
  rcases htrack.rows e he hscope with hhanded | hwaits
  · exact hhanded
  · have hreturned : (loop inScope take rows clock {}).returned = true :=
      loop_returned htake hkey (Nat.lt_of_le_of_lt List.countP_le_length hclock)
    rw [hwaits.1] at hreturned
    cases hreturned

/-- The jobs of the loop are those of rows in scope. -/
theorem exists_row_of_loop {clock : List Int} {job : BulkJob}
    (h : job ∈ (loop inScope take rows clock p).jobs) :
    job ∈ p.jobs ∨ ∃ e ∈ rows, inScope e = true ∧ ∃ now, job = bulkJob now e := by
  induction clock generalizing p with
  | nil => exact Or.inl h
  | cons now clock ih =>
      rw [loop] at h
      split at h
      · exact Or.inl h
      · rcases ih h with hjob | hrow
        · rw [fetch_jobs] at hjob
          apply (List.mem_append.1 hjob).imp_right
          intro hpage
          obtain ⟨e, he, rfl⟩ := List.mem_map.1 hpage
          obtain ⟨hmem, hscope⟩ := mem_of_mem_findPage he
          exact ⟨e, hmem, hscope, now, rfl⟩
        · exact Or.inr hrow

end EnqueuePass

/-! ## Uninterrupted passes -/

theorem primaryKey_sweepStaleLeases (config : AppConfig) {db : Database} (now : Int)
    (hkey : PrimaryKey ScheduledEmail.id db.emails) :
    PrimaryKey ScheduledEmail.id (sweepStaleLeases config db now).2.emails :=
  hkey.updateMany fun _ => rfl

/-- An uninterrupted reconciliation returns. -/
theorem reconcileEmailQueue_returned (config : AppConfig) {db : Database} (now : Int)
    (hkey : PrimaryKey ScheduledEmail.id db.emails) :
    (reconcileEmailQueue config db now).pass.returned = true := by
  refine EnqueuePass.loop_returned config.one_le_pageSize
    (primaryKey_sweepStaleLeases config now hkey) ?_
  rw [List.length_replicate]
  exact Nat.lt_succ_of_le List.countP_le_length

/-- An uninterrupted reconciliation hands over every open row. -/
theorem reconcileEmailQueue_handed {config : AppConfig} {db : Database} {now : Int}
    (hkey : PrimaryKey ScheduledEmail.id db.emails) {e : ScheduledEmail}
    (he : e ∈ (reconcileEmailQueue config db now).database.emails)
    (hopen : e.status.isOpen = true) :
    (reconcileEmailQueue config db now).pass.Handed e := by
  refine EnqueuePass.loop_handed config.one_le_pageSize
    (primaryKey_sweepStaleLeases config now hkey) ?_
    he hopen
  rw [List.length_replicate]
  exact Nat.lt_succ_self _

end EmailScheduler
